import Flume.Core.WindowOperator
import Flume.Lib.SortedMap

/-!
# The interval join operator

Matches records of two streams whose timestamps are close. A record is stored in the buffer of its
side and joined with the buffered records of the other side; a watermark evicts old records.

* `IntervalJoinOperator.processRecord`, `processWatermark`, `processBarrier`;
* `forwardWatermark`: the same without eviction;
* `Evicted`: the buffers of the one are those of the other from a cutoff on;
  `related_processRecord`, `related_processWatermark` keep it;
* **`eviction_unobservable`**: on inputs that keep the watermark promise the two make the same calls
  of their collectors.
-/

namespace Flume

open Fallible Entries WindowOperator

/-- Per-key state: the buffers of both sides. -/
@[ext]
structure IntervalJoinState (L R : Type) where
  left : SortedMap EventTimestamp L
  right : SortedMap EventTimestamp R

namespace IntervalJoinState

variable {L R : Type}

/-- Empty buffers. -/
def default : IntervalJoinState L R := ⟨.empty, .empty⟩

/-- Both buffers without the records below the cutoff. -/
def keepFrom (s : IntervalJoinState L R) (cutoff : EventTimestamp) : IntervalJoinState L R :=
  ⟨s.left.keepFrom cutoff, s.right.keepFrom cutoff⟩

/-- The buffers with a record of either side. -/
def push (s : IntervalJoinState L R) (timestamp : EventTimestamp) :
    Either L R → IntervalJoinState L R
  | .left value => { s with left := s.left.push timestamp value }
  | .right value => { s with right := s.right.push timestamp value }

/-- Whether both buffers are empty. -/
def isEmpty (s : IntervalJoinState L R) : Bool := s.left.buckets.isEmpty && s.right.buckets.isEmpty

theorem eq_default_of_isEmpty {s : IntervalJoinState L R} (h : s.isEmpty = true) : s = default := by
  obtain ⟨hleft, hright⟩ := Bool.and_eq_true_iff.mp h
  exact IntervalJoinState.ext (SortedMap.ext (List.isEmpty_iff.mp hleft))
    (SortedMap.ext (List.isEmpty_iff.mp hright))

theorem keepFrom_keepFrom (s : IntervalJoinState L R) (c c' : EventTimestamp) :
    (s.keepFrom c).keepFrom c' = s.keepFrom (max c c') :=
  IntervalJoinState.ext SortedMap.keepFrom_keepFrom SortedMap.keepFrom_keepFrom

theorem keepFrom_zero (s : IntervalJoinState L R) : s.keepFrom 0 = s :=
  IntervalJoinState.ext (SortedMap.keepFrom_of_le fun k => Fin.zero_le k)
    (SortedMap.keepFrom_of_le fun k => Fin.zero_le k)

end IntervalJoinState

/-- Joins the records of two streams within time bounds. -/
structure IntervalJoinOperator (L R Out : Type) where
  lowerBound : Duration
  upperBound : Duration
  joinFn : L → R → Out
  state : AList fun _ : Bytes => IntervalJoinState L R
  currentWatermark : EventTimestamp

namespace IntervalJoinOperator

variable {L R Out C : Type}

/-- The operator before its first call. -/
def new (lowerBound upperBound : Duration) (joinFn : L → R → Out) :
    IntervalJoinOperator L R Out where
  lowerBound := lowerBound
  upperBound := upperBound
  joinFn := joinFn
  state := ∅
  currentWatermark := .MIN

/-- The buffers of a key. -/
def perKey (op : IntervalJoinOperator L R Out) (key : Bytes) : IntervalJoinState L R :=
  (op.state.lookup key).getD .default

/-- Changes the buffers of a key, which are created if missing. -/
def store (op : IntervalJoinOperator L R Out) (key : Bytes)
    (f : IntervalJoinState L R → IntervalJoinState L R) : IntervalJoinOperator L R Out :=
  { op with state := upsert op.state key .default f }

/-- `BTreeMap::range(start..=stop)`, which panics on a start above the stop. (A map that was never
filled does not; with `lowerBound ≤ upperBound` there is no such range.) -/
def rangeInclusive {V : Type} (m : SortedMap EventTimestamp V) (start stop : EventTimestamp) :
    Except Panic (List (EventTimestamp × List V)) :=
  if start ≤ stop then .ok (m.range start stop) else .error .rangeOrder

/-- Calls of the operator work on its state and on the state of the collector. -/
abbrev Call (L R Out C : Type) : Type → Type :=
  Fallible Failure (IntervalJoinOperator L R Out × C)

/-- Emits a record for each value of the buckets. -/
def emitAll {V : Type} (collector : Collector C Out) (joined : EventTimestamp → V → Record Out)
    (buckets : List (EventTimestamp × List V)) : Call L R Out C Unit :=
  buckets.forM fun bucket => bucket.2.forM fun value =>
    onCollector (collector.collect (joined bucket.1 value))

/-- Stores a record and joins it with the buffered records of the other side. -/
def processRecord (collector : Collector C Out) (record : Record (Either L R)) :
    Call L R Out C Unit := do
  let s ← get
  let op := s.1
  let key := record.key.getD []
  let timestamp := record.timestamp
  match record.value with
  | .left value =>
    set (op.store key fun st => { st with left := st.left.push timestamp value }, s.2)
    let matching ← checked (rangeInclusive (op.perKey key).right
      (timestamp.addDuration op.lowerBound) (timestamp.addDuration op.upperBound))
    emitAll collector (fun rightTs rightVal =>
      ⟨op.joinFn value rightVal, max timestamp rightTs, some key⟩) matching
  | .right value =>
    set (op.store key fun st => { st with right := st.right.push timestamp value }, s.2)
    let matching ← checked (rangeInclusive (op.perKey key).left
      (timestamp.subDuration op.upperBound) (timestamp.subDuration op.lowerBound))
    emitAll collector (fun leftTs leftVal =>
      ⟨op.joinFn leftVal value, max leftTs timestamp, some key⟩) matching

/-- Evicts the expired records of all keys, then the keys that are left without records. -/
def evict (op : IntervalJoinOperator L R Out) (watermark : EventTimestamp) (keys : List Bytes) :
    IntervalJoinOperator L R Out :=
  let cutoff := watermark.subDuration op.upperBound
  let state := upsertAll op.state keys .default fun st => st.keepFrom cutoff
  let emptyKeys := keys.filter fun key => ((state.lookup key).getD .default).isEmpty
  { op with state := eraseAll state emptyKeys, currentWatermark := watermark }

/-- Evicts expired records and forwards the watermark; the keys are visited in the order `iter`. -/
def processWatermark (collector : Collector C Out) (watermark : Watermark)
    (iter : IterOrder Bytes) : Call L R Out C Unit := do
  modify fun s => (s.1.evict watermark.timestamp (iter.order s.1.state.keys), s.2)
  onCollector (collector.collectWatermark watermark)

/-- Forwards a barrier. -/
def processBarrier (collector : Collector C Out) (barrier : CheckpointBarrier) :
    Call L R Out C Unit :=
  onCollector (collector.collectBarrier barrier)

/-- One element of the input; a watermark comes with the order in which the keys are visited. -/
inductive Input (L R : Type)
  | record (r : Record (Either L R))
  | watermark (w : Watermark) (iter : IterOrder Bytes)
  | barrier (b : CheckpointBarrier)

/-- Processes one element. -/
def process (collector : Collector C Out) : Input L R → Call L R Out C Unit
  | .record r => processRecord collector r
  | .watermark w iter => processWatermark collector w iter
  | .barrier b => processBarrier collector b

/-- Processes a sequence of elements, until one fails. -/
def run (collector : Collector C Out) (inputs : List (Input L R)) : Call L R Out C Unit :=
  inputs.forM (process collector)

/-! ## The operator without eviction -/

/-- The specification's `process_watermark`: only forwards the watermark. -/
def forwardWatermark (collector : Collector C Out) (watermark : Watermark) : Call L R Out C Unit :=
  onCollector (collector.collectWatermark watermark)

/-- Processes one element, without eviction. -/
def processKeeping (collector : Collector C Out) : Input L R → Call L R Out C Unit
  | .record r => processRecord collector r
  | .watermark w _ => forwardWatermark collector w
  | .barrier b => processBarrier collector b

/-- Processes a sequence of elements, without eviction. -/
def runKeeping (collector : Collector C Out) (inputs : List (Input L R)) : Call L R Out C Unit :=
  inputs.forM (processKeeping collector)

/-- A record that follows a watermark has a later timestamp. -/
def Input.Precedes : Input L R → Input L R → Prop
  | .watermark w _, .record r => w.timestamp < r.timestamp
  | _, _ => True

instance (a b : Input L R) : Decidable (a.Precedes b) := by
  unfold Input.Precedes; split <;> infer_instance

/-! ## Saturating bounds -/

section Bounds

variable {t t' : EventTimestamp} {d : Duration}

theorem le_addDuration : t ≤ t.addDuration d := by
  unfold EventTimestamp.addDuration
  split_ifs
  · exact Fin.le_def.mpr (Nat.le_add_right _ _)
  · exact Fin.le_def.mpr (Nat.le_sub_one_of_lt t.isLt)

theorem subDuration_mono (h : t ≤ t') : t.subDuration d ≤ t'.subDuration d :=
  Fin.le_def.mpr (Nat.sub_le_sub_right (Fin.le_def.mp h) _)

theorem subDuration_le : t.subDuration d ≤ t := Fin.le_def.mpr (Nat.sub_le _ _)

end Bounds

/-! ## What the calls do to the buffers -/

section Buffers

variable (op : IntervalJoinOperator L R Out) (key : Bytes)

theorem perKey_store (key' : Bytes) (f : IntervalJoinState L R → IntervalJoinState L R) :
    (op.store key f).perKey key' =
      if key' = key then f (op.perKey key') else op.perKey key' := by
  unfold perKey store
  rw [lookup_upsert]
  split_ifs with hkey
  · rw [hkey]; rfl
  · rfl

theorem runOn_emitAll_fst {V : Type} (collector : Collector C Out)
    (joined : EventTimestamp → V → Record Out) (buckets : List (EventTimestamp × List V))
    (s : IntervalJoinOperator L R Out × C) :
    ((emitAll collector joined buckets).runOn s).2.1 = s.1 := by
  have hcollect : ∀ (x : Fallible FlumeError C Unit) (t : IntervalJoinOperator L R Out × C),
      t.1 = s.1 → ((onCollector x : Call L R Out C Unit).runOn t).2.1 = s.1 := by
    intro x t ht
    unfold onCollector
    rw [runOn_bind_ok runOn_get, runOn_bind_ok runOn_set]
    cases (x.runOn t.2).1 <;> exact ht
  let Same := fun t : IntervalJoinOperator L R Out × C => t.1 = s.1
  refine runOn_forM_keeps (P := Same) (fun bucket t ht => ?_) rfl
  exact runOn_forM_keeps (P := Same) (fun value t ht => hcollect _ t ht) ht

/-- **A record is stored under its key**, and nothing else changes. -/
theorem runOn_processRecord_fst (collector : Collector C Out) (record : Record (Either L R))
    (s : IntervalJoinOperator L R Out × C) :
    ((processRecord collector record).runOn s).2.1 =
      s.1.store (record.key.getD []) fun st => st.push record.timestamp record.value := by
  unfold processRecord
  rw [runOn_bind_ok runOn_get]
  have hrest : ∀ {V : Type} (joined : EventTimestamp → V → Record Out)
      (matching : Except Panic (List (EventTimestamp × List V)))
      (t : IntervalJoinOperator L R Out × C),
      ((checked matching >>= emitAll collector joined).runOn t).2.1 = t.1 := by
    intro V joined matching t
    cases matching with
    | error p => rfl
    | ok buckets => exact runOn_emitAll_fst collector joined buckets t
  cases hvalue : record.value with
  | left value =>
    dsimp only
    rw [runOn_bind_ok runOn_set]
    exact hrest _ _ _
  | right value =>
    dsimp only
    rw [runOn_bind_ok runOn_set]
    exact hrest _ _ _

theorem perKey_evict (watermark : EventTimestamp) (iter : IterOrder Bytes) :
    (op.evict watermark (iter.order op.state.keys)).perKey key =
      (op.perKey key).keepFrom (watermark.subDuration op.upperBound) := by
  have hkeys : (iter.order op.state.keys).Nodup :=
    (iter.perm _).nodup_iff.mpr op.state.nodupKeys
  have hstate : ((upsertAll op.state (iter.order op.state.keys) IntervalJoinState.default fun st =>
      st.keepFrom (watermark.subDuration op.upperBound)).lookup key).getD .default =
        (op.perKey key).keepFrom (watermark.subDuration op.upperBound) := by
    rw [lookup_upsertAll hkeys]
    split_ifs with hmem
    · rfl
    · have hnone : op.state.lookup key = none :=
        AList.lookup_eq_none.mpr fun h => hmem ((iter.perm _).mem_iff.mpr (AList.mem_keys.mp h))
      rw [perKey, hnone]; rfl
  show ((eraseAll _ _).lookup key).getD IntervalJoinState.default = _
  rw [lookup_eraseAll]
  split_ifs with hempty
  · have h := (List.mem_filter.mp hempty).2
    rw [hstate] at h
    exact (IntervalJoinState.eq_default_of_isEmpty h).symm
  · exact hstate

end Buffers

/-! ## Eviction is unobservable -/

/-- The first operator has evicted everything below the cutoff, the second nothing. -/
structure Evicted (upper : Duration) (cutoff : EventTimestamp)
    (s s' : IntervalJoinOperator L R Out × C) : Prop where
  collector : s.2 = s'.2
  lowerBound : s.1.lowerBound = s'.1.lowerBound
  upperBound : s.1.upperBound = upper
  upperBound' : s'.1.upperBound = upper
  joinFn : s.1.joinFn = s'.1.joinFn
  perKey : ∀ key, s.1.perKey key = (s'.1.perKey key).keepFrom cutoff

section Evicted

variable {upper : Duration} {cutoff : EventTimestamp} {s s' : IntervalJoinOperator L R Out × C}

theorem related_onCollector (x : Fallible FlumeError C Unit) :
    Related (Evicted upper cutoff) (onCollector x : Call L R Out C Unit) (onCollector x) := by
  rintro ⟨op, c⟩ ⟨op', c'⟩ h
  obtain rfl : c = c' := h.collector
  exact related_returned (x.runOn c).1 (op, (x.runOn c).2) _
    ⟨rfl, h.lowerBound, h.upperBound, h.upperBound', h.joinFn, h.perKey⟩

theorem related_emitAll {V : Type} (collector : Collector C Out)
    (joined : EventTimestamp → V → Record Out) (buckets : List (EventTimestamp × List V)) :
    Related (Evicted upper cutoff) (emitAll collector joined buckets : Call L R Out C Unit)
      (emitAll collector joined buckets) := by
  refine Related.forM (fun bucket => ?_) buckets
  exact Related.forM (fun value => related_onCollector _) bucket.2

theorem Evicted.store (h : Evicted upper cutoff s s') (key : Bytes)
    {f : IntervalJoinState L R → IntervalJoinState L R}
    (hf : ∀ st, f (st.keepFrom cutoff) = (f st).keepFrom cutoff) :
    Evicted upper cutoff (s.1.store key f, s.2) (s'.1.store key f, s'.2) where
  collector := h.collector
  lowerBound := h.lowerBound
  upperBound := h.upperBound
  upperBound' := h.upperBound'
  joinFn := h.joinFn
  perKey key' := by
    rw [perKey_store, perKey_store, h.perKey key']
    split_ifs
    · exact hf _
    · rfl

/-- **A record above the watermark finds nothing that was evicted.** -/
theorem related_processRecord (collector : Collector C Out) (record : Record (Either L R))
    (h : Evicted upper cutoff s s') (hcutoff : cutoff ≤ record.timestamp.subDuration upper) :
    RelatedAt (Evicted upper cutoff) (processRecord collector record) (processRecord collector record)
      s s' := by
  have hts : cutoff ≤ record.timestamp := hcutoff.trans subDuration_le
  refine RelatedAt.get_bind ?_
  cases hvalue : record.value with
  | left value =>
    have hrange : ((s.1.perKey (record.key.getD [])).right.range
          (record.timestamp.addDuration s'.1.lowerBound)
          (record.timestamp.addDuration upper)) =
        (s'.1.perKey (record.key.getD [])).right.range
          (record.timestamp.addDuration s'.1.lowerBound)
          (record.timestamp.addDuration upper) := by
      rw [h.perKey]
      exact SortedMap.range_keepFrom (hts.trans le_addDuration)
    simp only [rangeInclusive, h.lowerBound, h.upperBound, h.upperBound', h.joinFn, hrange]
    refine RelatedAt.bind (Related.set (h.store _ fun st => ?_) _ _ h) fun _ => ?_
    · exact IntervalJoinState.ext (SortedMap.keepFrom_push hts).symm rfl
    · exact Related.bind (related_checked _) fun buckets => related_emitAll _ _ _
  | right value =>
    have hrange : ((s.1.perKey (record.key.getD [])).left.range
          (record.timestamp.subDuration upper)
          (record.timestamp.subDuration s'.1.lowerBound)) =
        (s'.1.perKey (record.key.getD [])).left.range
          (record.timestamp.subDuration upper)
          (record.timestamp.subDuration s'.1.lowerBound) := by
      rw [h.perKey]
      exact SortedMap.range_keepFrom hcutoff
    simp only [rangeInclusive, h.lowerBound, h.upperBound, h.upperBound', h.joinFn, hrange]
    refine RelatedAt.bind (Related.set (h.store _ fun st => ?_) _ _ h) fun _ => ?_
    · exact IntervalJoinState.ext rfl (SortedMap.keepFrom_push hts).symm
    · exact Related.bind (related_checked _) fun buckets => related_emitAll _ _ _

theorem Evicted.evict (h : Evicted upper cutoff s s') (watermark : EventTimestamp)
    (iter : IterOrder Bytes) :
    Evicted upper (max cutoff (watermark.subDuration upper))
      (s.1.evict watermark (iter.order s.1.state.keys), s.2) s' where
  collector := h.collector
  lowerBound := h.lowerBound
  upperBound := h.upperBound
  upperBound' := h.upperBound'
  joinFn := h.joinFn
  perKey key := by
    rw [perKey_evict, h.perKey, h.upperBound, IntervalJoinState.keepFrom_keepFrom]

theorem related_processWatermark (collector : Collector C Out) (watermark : Watermark)
    (iter : IterOrder Bytes) (h : Evicted upper cutoff s s') :
    RelatedAt (Evicted upper (max cutoff (watermark.timestamp.subDuration upper)))
      (processWatermark collector watermark iter) (forwardWatermark collector watermark) s s' :=
  related_onCollector _ _ _ (h.evict watermark.timestamp iter)

end Evicted

/-- **Two runs with equal collectors**, of which one evicts, end with equal collectors. -/
theorem run_evicted (collector : Collector C Out) {inputs : List (Input L R)}
    (hpairs : inputs.Pairwise Input.Precedes) {upper : Duration} {cutoff : EventTimestamp}
    {s s' : IntervalJoinOperator L R Out × C} (h : Evicted upper cutoff s s')
    (hcutoff : ∀ r, .record r ∈ inputs → cutoff ≤ r.timestamp.subDuration upper) :
    RelatedAt (fun t t' => t.2 = t'.2) (run collector inputs) (runKeeping collector inputs)
      s s' := by
  induction inputs generalizing cutoff s s' with
  | nil => exact ⟨rfl, h.collector⟩
  | cons input inputs ih =>
    obtain ⟨hfirst, htail⟩ := List.pairwise_cons.mp hpairs
    have hrest : ∀ r, .record r ∈ inputs → cutoff ≤ r.timestamp.subDuration upper :=
      fun r hr => hcutoff r (List.mem_cons_of_mem _ hr)
    cases input with
    | record r =>
      have hr := related_processRecord collector r h (hcutoff r List.mem_cons_self)
      exact hr.bind_of (fun _ _ h => h.collector) fun _ _ _ ht => ih htail ht hrest
    | watermark w iter =>
      refine (related_processWatermark collector w iter h).bind_of (fun _ _ h => h.collector)
        fun _ _ _ ht => ih htail ht fun r hr => ?_
      exact max_le (hrest r hr) (subDuration_mono (hfirst _ hr).le)
    | barrier b =>
      have hb := related_onCollector (collector.collectBarrier b) s s' h
      exact hb.bind_of (fun _ _ h => h.collector) fun _ _ _ ht => ih htail ht hrest

/-- **Eviction is unobservable** if each record's timestamp is greater than every earlier watermark.
-/
theorem eviction_unobservable (lowerBound upperBound : Duration) (joinFn : L → R → Out)
    (collector : Collector C Out) (c : C) (inputs : List (Input L R))
    (h : inputs.Pairwise Input.Precedes) :
    ((run collector inputs).runOn (new lowerBound upperBound joinFn, c)).1 =
        ((runKeeping collector inputs).runOn (new lowerBound upperBound joinFn, c)).1 ∧
      ((run collector inputs).runOn (new lowerBound upperBound joinFn, c)).2.2 =
        ((runKeeping collector inputs).runOn (new lowerBound upperBound joinFn, c)).2.2 := by
  have hnew : Evicted upperBound 0 (new lowerBound upperBound joinFn, c)
      (new lowerBound upperBound joinFn, c) :=
    ⟨rfl, rfl, rfl, rfl, rfl, fun _ => (IntervalJoinState.keepFrom_zero _).symm⟩
  exact run_evicted collector h hnew fun _ _ => Fin.zero_le _

/-- What the operator has pushed to its collector after `inputs`. -/
def output (lowerBound upperBound : Duration) (joinFn : L → R → Out) (inputs : List (Input L R)) :
    List (StreamElement Out) :=
  ((run (TestCollector Out) inputs).runOn (new lowerBound upperBound joinFn, [])).2.2

/-- The watermark evicts the left record of time 100, and keeps that of time 160. -/
def evictedInputs : List (Input ℕ ℕ) :=
  [.record ⟨.left 1, 100, some [1]⟩, .record ⟨.left 2, 160, some [1]⟩,
    .watermark ⟨200⟩ (IterOrder.given _), .record ⟨.right 3, 205, some [1]⟩]

theorem evictedInputs_unobservable :
    ((run (TestCollector ℕ) evictedInputs).runOn
        (new (.fromMillis 0) (.fromMillis 50) (fun l r => l + r), [])).2.2 =
      ((runKeeping (TestCollector ℕ) evictedInputs).runOn
        (new (.fromMillis 0) (.fromMillis 50) (fun l r => l + r), [])).2.2 ∧
      output (.fromMillis 0) (.fromMillis 50) (fun l r => l + r) evictedInputs =
        [.watermark ⟨200⟩, .record ⟨5, 205, some [1]⟩] :=
  ⟨(eviction_unobservable _ _ _ _ _ _ (by decide)).2, by decide +kernel⟩

end IntervalJoinOperator

end Flume
