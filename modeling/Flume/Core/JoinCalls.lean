import Flume.Core.CollectorCalls
import Flume.Core.IntervalMatches
import Flume.Core.WindowJoin

/-!
# The joins as operators of a task

* `IntervalJoinOperator.calls`, `WindowedOperator.calls`: the calls of the interval join and of the
  windowed operators, which do the same to every collector;
* **`IntervalJoinOperator.feed_perm`**: what an interval join emits for a stream of both sides that
  keeps the watermark promise, watermarks and evictions included, is the batch join;
* **`WindowedOperator.feed_perm`**: what a windowed operator emits for a stream that keeps the
  promise are the results of the groups whose window a watermark has passed;
* `PassedBy`, **`windowJoin_feed_perm`**: what a window join emits has one record for each pair and
  each common window that was passed.
-/

namespace Flume

open Fallible Entries GroupBy PairJoin
open StreamElement (KeepsPromise)

/-! ## The interval join -/

namespace IntervalJoinOperator

variable {L R Out C : Type}

/-- An element with the order in which the keys are visited. -/
def Input.of : StreamElement (Either L R) → IterOrder Bytes → Input L R
  | .record r, _ => .record r
  | .watermark w, iter => .watermark w iter
  | .checkpointBarrier b, _ => .barrier b

/-- The record of an input. -/
def Input.record? : Input L R → Option (Record (Either L R))
  | .record r => some r
  | _ => none

theorem replays_emitAll {V : Type} (collector : Collector C Out)
    (toEmit : EventTimestamp → V → Record Out) (buckets : List (EventTimestamp × List V)) :
    Replays collector (emitAll collector toEmit buckets : Call L R Out C Unit)
      (emitAll (TestCollector Out) toEmit buckets) := by
  refine replays_forM (fun bucket => ?_) buckets
  refine replays_forM (fun value => ?_) bucket.2
  exact replays_push (.record (toEmit bucket.1 value))

/-- **The operator does the same to every collector.** -/
theorem replays_process (collector : Collector C Out) (input : Input L R) :
    Replays collector (process collector input) (process (TestCollector Out) input) := by
  cases input with
  | record r =>
    unfold process processRecord
    refine replays_get_bind fun op c out => ?_
    dsimp only
    cases r.value with
    | left value =>
      refine replays_set_bind ?_
      exact (replays_checked _ _ _ _).bind fun buckets => replays_emitAll collector _ buckets
    | right value =>
      refine replays_set_bind ?_
      exact (replays_checked _ _ _ _).bind fun buckets => replays_emitAll collector _ buckets
  | watermark w iter =>
    have hevict : Replays collector (modify fun s => (s.1.evict w.timestamp
        (iter.order s.1.state.keys), s.2) : Call L R Out C PUnit) (modify fun s =>
          (s.1.evict w.timestamp (iter.order s.1.state.keys), s.2)) :=
      replays_modify fun op : IntervalJoinOperator L R Out =>
        op.evict w.timestamp (iter.order op.state.keys)
    exact hevict.bind fun _ => replays_push (.watermark w)
  | barrier b => exact replays_push (.checkpointBarrier b)

/-- The calls of the interval join. -/
def calls (L R Out : Type) :
    CollectorCalls (IntervalJoinOperator L R Out) (Either L R) (IterOrder Bytes) Out where
  process collector e iter := process collector (.of e iter)
  replays collector e iter := replays_process collector (.of e iter)

theorem run_calls (collector : Collector C Out)
    (es : List (StreamElement (Either L R) × IterOrder Bytes)) :
    (calls L R Out).run collector es = run collector (es.map fun p => .of p.1 p.2) := by
  induction es with
  | nil => rfl
  | cons p es ih => exact congrArg (fun x => process collector (.of p.1 p.2) >>= fun _ => x) ih

/-! ### What it emits -/

section Emits

variable {lowerBound upperBound : Duration} {joinFn : L → R → Out}

theorem Buffered.forward {records : List (Record (Either L R))} {op : IntervalJoinOperator L R Out}
    {out : List (StreamElement Out)} (h : Buffered lowerBound upperBound joinFn records op out)
    {e : StreamElement Out} (he : e.record? = none) :
    Buffered lowerBound upperBound joinFn records op (out ++ [e]) where
  config := h.config
  left := h.left
  right := h.right
  emitted := by
    rw [List.filterMap_append, List.filterMap_cons_none he, List.filterMap_nil, List.append_nil]
    exact h.emitted

/-- **Without eviction**, what was buffered and emitted depends on the records only. -/
theorem exists_buffered_keeping (joinFn : L → R → Out) (hle : lowerBound ≤ upperBound)
    (hupper : upperBound.asMillis < 2 ^ 64) (inputs : List (Input L R)) :
    ∃ op out, (runKeeping (TestCollector Out) inputs).runOn (new lowerBound upperBound joinFn, []) =
        (.ok (), (op, out)) ∧
      Buffered lowerBound upperBound joinFn (inputs.filterMap Input.record?) op out := by
  induction inputs using List.reverseRecOn with
  | nil =>
    obtain ⟨op, out, hrun, h⟩ := exists_buffered joinFn hle hupper ([] : List (Record (Either L R)))
    exact ⟨op, out, hrun, h⟩
  | append_singleton inputs input ih =>
    obtain ⟨op, out, hrun, h⟩ := ih
    have hnext : ∃ op' out', (processKeeping (TestCollector Out) input).runOn (op, out) =
        (.ok (), (op', out')) ∧ Buffered lowerBound upperBound joinFn
          (inputs.filterMap Input.record? ++ input.record?.toList) op' out' := by
      cases input with
      | record record =>
        obtain ⟨value | value, ts, key⟩ := record
        · exact buffered_left hle hupper h ⟨value, ts, key⟩
        · exact buffered_right hle hupper h ⟨value, ts, key⟩
      | watermark w iter =>
        refine ⟨op, out ++ [.watermark w], rfl, ?_⟩
        exact (List.append_nil _).symm ▸ h.forward rfl
      | barrier b =>
        refine ⟨op, out ++ [.checkpointBarrier b], rfl, ?_⟩
        exact (List.append_nil _).symm ▸ h.forward rfl
    obtain ⟨op', out', hcall, h'⟩ := hnext
    refine ⟨op', out', ?_, ?_⟩
    · unfold runKeeping at hrun ⊢
      rw [runOn_forM_append_ok hrun]
      exact runOn_bind_ok hcall _
    · rw [List.filterMap_append]
      cases input <;> exact h'

/-- The inputs that are made of a stream. -/
def inputsOf (iters : ℕ → IterOrder Bytes) (es : List (StreamElement (Either L R))) :
    List (Input L R) :=
  (CollectorCalls.numbered iters es).map fun p => .of p.1 p.2

theorem records_inputsOf (iters : ℕ → IterOrder Bytes) (es : List (StreamElement (Either L R))) :
    (inputsOf iters es).filterMap Input.record? = es.filterMap StreamElement.record? :=
  filterMap_numbered iters (fun e _ => by cases e <;> rfl) es

theorem inputsOf_pairwise (iters : ℕ → IterOrder Bytes) {es : List (StreamElement (Either L R))}
    (h : KeepsPromise es) : (inputsOf iters es).Pairwise Input.Precedes :=
  pairwise_numbered iters (fun e e' _ _ he => by cases e <;> cases e' <;> exact he) h

/-- **An interval join of a stream that keeps the watermark promise is the batch join.** -/
theorem feed_perm (joinErr : Panic → String) (iters : ℕ → IterOrder Bytes)
    (hle : lowerBound ≤ upperBound) (hupper : upperBound.asMillis < 2 ^ 64)
    {es : List (StreamElement (Either L R))} (hpromise : KeepsPromise es)
    (hsat : Unsaturated lowerBound.asMillis (es.filterMap StreamElement.record?)) :
    ((((calls L R Out).operator joinErr iters (new lowerBound upperBound joinFn)).feed
        es).1.filterMap StreamElement.record?).Perm
      ((matchingPairs lowerBound.wholeMillis upperBound.wholeMillis
        (es.filterMap StreamElement.record?)).map (joined joinFn)) := by
  have hnew : Evicted upperBound 0 (new lowerBound upperBound joinFn, ([] : List (StreamElement Out)))
      (new lowerBound upperBound joinFn, []) :=
    ⟨rfl, rfl, rfl, rfl, rfl, fun _ => (IntervalJoinState.keepFrom_zero _).symm⟩
  have hevicted := (run_evicted (TestCollector Out) (inputsOf_pairwise iters hpromise) hnew
    fun _ _ => Fin.zero_le _).2
  obtain ⟨op, out, hrun, hbuffered⟩ := exists_buffered_keeping joinFn hle hupper (inputsOf iters es)
  rw [records_inputsOf] at hbuffered
  rw [hrun] at hevicted
  have hout : (((calls L R Out).operator joinErr iters (new lowerBound upperBound joinFn)).feed
      es).1 = out := by
    rw [CollectorCalls.feed_operator, run_calls]
    exact hevicted
  rw [hout]
  exact hbuffered.emitted.trans ((found_perm_wholeMillis hle hupper hsat).map _)

end Emits

end IntervalJoinOperator

/-! ## Windowed operators -/

namespace WindowedOperator

open WindowOperator (Input keysOf history groups Passed WellTimed)

variable {In B Out C : Type}

/-- An element with the order in which the map is visited. -/
def inputOf : StreamElement In → IterOrder WindowKey → Input In
  | .record r, _ => .record r
  | .watermark w, iter => .watermark w iter
  | .checkpointBarrier b, _ => .barrier b

theorem replays_fire (collector : Collector C Out) (wk : WindowKey) :
    Replays collector (fire collector wk : Call In B Out C Unit) (fire (TestCollector Out) wk) := by
  unfold fire
  refine replays_get_bind fun op c out => ?_
  dsimp only
  cases op.state.lookup wk with
  | none => exact replays_pure () op c out
  | some b =>
    refine (replays_checked _ _ _ _).bind fun results => ?_
    exact replays_forM (fun record => replays_push (.record record)) results

/-- **The operator does the same to every collector.** -/
theorem replays_process (collector : Collector C Out) (input : Input In) :
    Replays collector (process collector input : Call In B Out C Unit)
      (process (TestCollector Out) input) := by
  cases input with
  | record r =>
    unfold process processRecord
    refine replays_get_bind fun op c out => ?_
    dsimp only
    cases (op.takeKey r).2.assigner r.timestamp with
    | ok windows => exact .quiet rfl rfl
    | error p => exact .quiet rfl rfl
  | watermark w iter =>
    unfold process processWatermark
    refine replays_get_bind fun op c out => ?_
    refine ReplaysAt.bind (replays_forM (replays_fire collector) _ op c out) fun _ => ?_
    have hpurge : Replays collector (modify fun s => ((evaluate w.timestamp
        (iter.order op.state.keys)).2.foldl purge s.1, s.2) : Call In B Out C PUnit) (modify fun s =>
          ((evaluate w.timestamp (iter.order op.state.keys)).2.foldl purge s.1, s.2)) :=
      replays_modify fun s : WindowedOperator In B Out =>
        (evaluate w.timestamp (iter.order op.state.keys)).2.foldl purge s
    exact hpurge.bind fun _ => replays_push (.watermark w)
  | barrier b => exact replays_push (.checkpointBarrier b)

/-- The calls of a windowed operator. -/
def calls (In B Out : Type) :
    CollectorCalls (WindowedOperator In B Out) In (IterOrder WindowKey) Out where
  process collector e iter := process collector (inputOf e iter)
  replays collector e iter := replays_process collector (inputOf e iter)

theorem run_calls (collector : Collector C Out)
    (es : List (StreamElement In × IterOrder WindowKey)) :
    (calls In B Out).run collector es = run collector (es.map fun p => inputOf p.1 p.2) := by
  induction es with
  | nil => rfl
  | cons p es ih =>
    exact congrArg (fun x => process collector (inputOf p.1 p.2) >>= fun _ => x) ih

/-- The record of an input. -/
def inputRecord? : Input In → Option (Record In)
  | .record r => some r
  | _ => none

theorem elems_history (inputs : List (Input In)) :
    elems (history inputs) = inputs.filterMap inputRecord? := by
  induction inputs with
  | nil => rfl
  | cons input inputs ih =>
    cases input with
    | record r => exact congrArg (List.cons r) ih
    | watermark w iter => exact ih
    | barrier b => exact ih

/-- The inputs that are made of a stream. -/
def inputsOf (iters : ℕ → IterOrder WindowKey) (es : List (StreamElement In)) : List (Input In) :=
  (CollectorCalls.numbered iters es).map fun p => inputOf p.1 p.2

section Emits

variable {assigner : WindowAssigner} {contents : WindowContents In B Out}
  (iters : ℕ → IterOrder WindowKey) {es : List (StreamElement In)}

theorem records_inputsOf (es : List (StreamElement In)) :
    (inputsOf iters es).filterMap inputRecord? = es.filterMap StreamElement.record? :=
  filterMap_numbered iters (fun e _ => by cases e <;> rfl) es

theorem elems_inputsOf (es : List (StreamElement In)) :
    elems (history (inputsOf iters es)) = es.filterMap StreamElement.record? := by
  rw [elems_history, records_inputsOf]

theorem record_mem_inputsOf {r : Record In} :
    .record r ∈ inputsOf iters es ↔ r ∈ es.filterMap StreamElement.record? := by
  rw [← records_inputsOf iters, List.mem_filterMap]
  constructor
  · exact fun h => ⟨_, h, rfl⟩
  · rintro ⟨input, hinput, hr⟩
    cases input <;> cases hr
    exact hinput

theorem mem_inputsOf {input : Input In} :
    input ∈ inputsOf iters es ↔ ∃ p ∈ CollectorCalls.numbered iters es, inputOf p.1 p.2 = input :=
  List.mem_map

theorem passed_inputsOf {wk : WindowKey} : Passed (inputsOf iters es) wk ↔
    ∃ w, .watermark w ∈ es ∧ wk.window.stop ≤ w.timestamp := by
  rw [WindowOperator.passed_iff]
  constructor
  · rintro ⟨w, iter, hmem, hstop⟩
    obtain ⟨⟨e, iter'⟩, hp, he⟩ := (mem_inputsOf iters).mp hmem
    refine ⟨w, ?_, hstop⟩
    rw [← fst_numbered iters es]
    cases e <;> cases he
    exact List.mem_map_of_mem hp
  · rintro ⟨w, hmem, hstop⟩
    rw [← fst_numbered iters es] at hmem
    obtain ⟨⟨e, iter⟩, hp, he⟩ := List.mem_map.mp hmem
    exact ⟨w, iter, (mem_inputsOf iters).mpr ⟨_, hp, by cases he; rfl⟩, hstop⟩

theorem wellTimed_inputsOf {size : U64} (hpromise : KeepsPromise es)
    (hfits : ∀ r ∈ es.filterMap StreamElement.record?, r.timestamp.val + size.val < 2 ^ 64) :
    WellTimed size (inputsOf iters es) where
  onTime := pairwise_numbered iters (fun e e' _ _ he => by cases e <;> cases e' <;> exact he)
    hpromise
  fits input hmem := by
    cases input with
    | record r => exact hfits r ((record_mem_inputsOf iters).mp hmem)
    | watermark w iter => trivial
    | barrier b => trivial

/-- **A windowed operator emits the results of the groups whose window was passed.** -/
theorem feed_perm (joinErr : Panic → String) {size : U64} (hassigner : IsTimeAssigner size assigner)
    (hcomputes : contents.Computes) (hpromise : KeepsPromise es)
    (hfits : ∀ r ∈ es.filterMap StreamElement.record?, r.timestamp.val + size.val < 2 ^ 64) :
    ((((calls In B Out).operator joinErr iters (new assigner contents)).feed es).1.filterMap
        StreamElement.record?).Perm
      (((groups assigner (inputsOf iters es)).filter fun wk => Passed (inputsOf iters es) wk).flatMap
        (batchResults assigner contents (inputsOf iters es))) := by
  have htimely := (wellTimed_inputsOf iters hpromise hfits).timely hassigner
  have hout : (((calls In B Out).operator joinErr iters (new assigner contents)).feed es).1 =
      output assigner contents (inputsOf iters es) := by
    rw [CollectorCalls.feed_operator, run_calls]
    rfl
  rw [hout]
  exact emitted_perm hassigner.isWindowAssigner.isProper hcomputes htimely

end Emits

end WindowedOperator

/-! ## The window join -/

section WindowJoin

open WindowOperator (keysOf history groups Passed keysOf_spec mem_groups)
open WindowedOperator (inputsOf elems_inputsOf record_mem_inputsOf passed_inputsOf
  wellTimed_inputsOf)
open IntervalJoinOperator (joined side_eq_inl)

variable {T L R Out : Type}

/-- A watermark of the stream has passed the window. -/
def PassedBy (es : List (StreamElement T)) (wk : WindowKey) : Prop :=
  ∃ w ∈ es.filterMap StreamElement.watermark?, wk.window.stop ≤ w.timestamp

instance (es : List (StreamElement T)) (wk : WindowKey) : Decidable (PassedBy es wk) := by
  unfold PassedBy; infer_instance

theorem passedBy_iff {es : List (StreamElement T)} {wk : WindowKey} :
    PassedBy es wk ↔ ∃ w, .watermark w ∈ es ∧ wk.window.stop ≤ w.timestamp := by
  have hmem : ∀ w, w ∈ es.filterMap StreamElement.watermark? ↔ .watermark w ∈ es := by
    intro w
    rw [List.mem_filterMap]
    constructor
    · rintro ⟨e, he, hw⟩
      cases e <;> cases hw
      exact he
    · exact fun h => ⟨_, h, rfl⟩
  simp only [PassedBy, hmem]

/-- The keys and passed windows of a record. -/
def passedKeys (assigner : WindowAssigner) (passed : WindowKey → Prop) [DecidablePred passed]
    (record : Record T) : List WindowKey :=
  (keysOf assigner record).filter fun wk => passed wk

variable {assigner : WindowAssigner} {es : List (StreamElement (Either L R))}
  (iters : ℕ → IterOrder WindowKey)

theorem keysOf_side (record : Record (Either L R)) :
    keysOf assigner record = record.side.elim (keysOf assigner) (keysOf assigner) := by
  obtain ⟨value | value, ts, key⟩ := record <;> rfl

theorem filter_side (records : List (Record (Either L R))) (wk : WindowKey) :
    (records.filter fun r => wk ∈ keysOf assigner r).map Record.side =
      (records.map Record.side).filter fun x =>
        wk ∈ x.elim (keysOf assigner) (keysOf assigner) := by
  rw [List.filter_map]
  refine congrArg _ (List.filter_congr fun r _ => ?_)
  rw [keysOf_side r]
  rfl

theorem leftsIn_inputsOf (wk : WindowKey) : leftsIn assigner (inputsOf iters es) wk =
    (lefts ((es.filterMap StreamElement.record?).map Record.side)).filter
      fun l => wk ∈ keysOf assigner l := by
  unfold leftsIn members
  rw [elems_inputsOf, filter_side, lefts_filter]
  rfl

theorem rightsIn_inputsOf (wk : WindowKey) : rightsIn assigner (inputsOf iters es) wk =
    (rights ((es.filterMap StreamElement.record?).map Record.side)).filter
      fun r => wk ∈ keysOf assigner r := by
  unfold rightsIn members
  rw [elems_inputsOf, filter_side, rights_filter]
  rfl

theorem key_of_mem_keysOf {record : Record T} {wk : WindowKey} (h : wk ∈ keysOf assigner record) :
    wk.key = IntervalJoinOperator.keyOf record := by
  unfold keysOf at h
  split at h
  · obtain ⟨w, -, rfl⟩ := List.mem_map.mp h
    rfl
  · cases h

/-- **A window join of a stream that keeps the watermark promise** has a record for each pair of a
left and a right record, and each of their common keys and windows that the stream has passed. -/
theorem windowJoin_feed_perm (joinErr : Panic → String) (joinFn : L → R → Out) {size : U64}
    (hassigner : IsTimeAssigner size assigner) (hpromise : KeepsPromise es)
    (hfits : ∀ r ∈ es.filterMap StreamElement.record?, r.timestamp.val + size.val < 2 ^ 64) :
    ((((WindowedOperator.calls (Either L R) (WindowJoinState L R) Out).operator joinErr iters
        (WindowJoinOperator.new assigner joinFn)).feed es).1.filterMap StreamElement.record?).Perm
      ((sharing (passedKeys assigner (PassedBy es)) (keysOf assigner)
        (lefts ((es.filterMap StreamElement.record?).map Record.side))
        (rights ((es.filterMap StreamElement.record?).map Record.side))).map (joined joinFn)) := by
  refine (WindowedOperator.feed_perm iters joinErr hassigner (joinContents_computes joinFn) hpromise
    hfits).trans ?_
  have hpassed : ∀ wk, Passed (inputsOf iters es) wk ↔ PassedBy es wk := fun wk =>
    (passed_inputsOf iters).trans passedBy_iff.symm
  have htimely := (wellTimed_inputsOf iters hpromise hfits).timely hassigner
  set ls := lefts ((es.filterMap StreamElement.record?).map Record.side)
  set rs := rights ((es.filterMap StreamElement.record?).map Record.side)
  set passed := (groups assigner (inputsOf iters es)).filter fun wk => Passed (inputsOf iters es) wk
  have hresults : ∀ wk ∈ passed, WindowedOperator.batchResults assigner (joinContents joinFn)
      (inputsOf iters es) wk = (batch (fun _ _ => true)
        (ls.filter fun l => wk ∈ passedKeys assigner (PassedBy es) l)
        (rs.filter fun r => wk ∈ keysOf assigner r)).map (joined joinFn) := by
    intro wk hwk
    have hby : PassedBy es wk := (hpassed wk).mp (of_decide_eq_true (List.mem_filter.mp hwk).2)
    have hsame : (ls.filter fun l => wk ∈ passedKeys assigner (PassedBy es) l) =
        ls.filter fun l => wk ∈ keysOf assigner l := by
      refine List.filter_congr fun l _ => ?_
      simp [passedKeys, hby]
    rw [batchResults_join, batchJoin, leftsIn_inputsOf, rightsIn_inputsOf, hsame]
    refine List.map_congr_left fun pair hpair => ?_
    have hkey := key_of_mem_keysOf
      (of_decide_eq_true (List.mem_filter.mp (mem_batch.mp hpair).1).2)
    unfold joinedIn joined
    rw [hkey]
  have hmembers : ∀ l ∈ ls, (passedKeys assigner (PassedBy es) l).Nodup ∧
      passedKeys assigner (PassedBy es) l ⊆ passed := by
    intro l hl
    obtain ⟨record, hrecord, hside⟩ := List.mem_map.mp (mem_lefts.mp hl)
    have hkeys : keysOf assigner record = keysOf assigner l := by rw [keysOf_side, hside]; rfl
    have hmem : .record record ∈ inputsOf iters es := (record_mem_inputsOf iters).mpr hrecord
    obtain ⟨windows, hok⟩ := htimely.assigned record hmem
    have hspec := keysOf_spec hassigner.isWindowAssigner.isProper hok
    rw [hkeys] at hspec
    refine ⟨hspec.1.filter _, fun wk hwk => ?_⟩
    obtain ⟨hwk, hby⟩ := List.mem_filter.mp hwk
    refine List.mem_filter.mpr ⟨mem_groups.mpr ⟨record, hmem, ?_⟩, ?_⟩
    · rw [hkeys]
      exact hwk
    · exact decide_eq_true ((hpassed wk).mpr (of_decide_eq_true hby))
  rw [List.flatMap_congr hresults, ← List.map_flatMap]
  exact (sharing_perm (keys_nodup.filter _) hmembers rs).map _

end WindowJoin

end Flume
