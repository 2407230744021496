import Flume.Core.IntervalJoin
import Flume.Lib.PairJoin

/-!
# Which pairs an interval join finds

The specification pairs the left and right records of one key whose timestamps satisfy
`t_l + lower ≤ t_r ≤ t_l + upper` to the nanosecond. The operator compares with the whole
milliseconds of the bounds, and these saturate at both ends of the range of timestamps.

* `Matches`, `matchingPairs`: the specification;
* `FoundByRight`, `FoundByLeft`: the range queries of the operator, for a record that arrives last;
  `Underflows`, `Overflows`, `Truncates` is how they find too much;
* `Buffered`: the buffers hold what has arrived; `buffered_left`, `buffered_right` keep it and say
  what is emitted;
* **`intervalJoin_exact_iff`**: for any order of arrival the operator finds exactly the matching
  pairs, unless a bound saturates or is cut off at such a pair;
* `found_perm_wholeMillis`: with the bounds cut off, only saturation is left.
-/

namespace Flume

open Fallible Entries WindowOperator PairJoin

/-- A duration without its part below a millisecond. -/
def Duration.wholeMillis (d : Duration) : Duration := .fromMillis d.asMillis

theorem Duration.asMillis_wholeMillis (d : Duration) : d.wholeMillis.asMillis = d.asMillis :=
  Nat.mul_div_cancel _ (by norm_num)

theorem Duration.wholeMillis_mono {d d' : Duration} (h : d ≤ d') : d.wholeMillis ≤ d'.wholeMillis :=
  Nat.mul_le_mul_right _ (Nat.div_le_div_right h)

namespace IntervalJoinOperator

variable {L R Out : Type}

/-! ## The specification -/

/-- The key under which a record is stored. -/
def keyOf {T : Type} (record : Record T) : Bytes := record.key.getD []

/-- The join's condition, in nanoseconds. -/
def Matches (lowerBound upperBound : Duration) (l : Record L) (r : Record R) : Prop :=
  keyOf l = keyOf r ∧ l.timestamp.val * 1000000 + lowerBound.nanos ≤ r.timestamp.val * 1000000 ∧
    r.timestamp.val * 1000000 ≤ l.timestamp.val * 1000000 + upperBound.nanos

instance (lowerBound upperBound : Duration) (l : Record L) (r : Record R) :
    Decidable (Matches lowerBound upperBound l r) := by
  unfold Matches; infer_instance

/-- The record to emit for a pair. -/
def joined (joinFn : L → R → Out) (pair : Record L × Record R) : Record Out where
  value := joinFn pair.1.value pair.2.value
  timestamp := max pair.1.timestamp pair.2.timestamp
  key := some (keyOf pair.1)

/-- The pairs that match, among all records. -/
def matchingPairs (lowerBound upperBound : Duration) (records : List (Record (Either L R))) :
    List (Record L × Record R) :=
  batch (fun l r => Matches lowerBound upperBound l r) (lefts (records.map Record.side))
    (rights (records.map Record.side))

/-- What the operator emits for records alone. -/
def emitted (lowerBound upperBound : Duration) (joinFn : L → R → Out)
    (records : List (Record (Either L R))) : List (Record Out) :=
  (output lowerBound upperBound joinFn (records.map .record)).filterMap StreamElement.record?

/-- The operator accepts the records, and emits each matching pair once and nothing else. -/
def FindsExactly (lowerBound upperBound : Duration) (joinFn : L → R → Out)
    (records : List (Record (Either L R))) : Prop :=
  ((run (TestCollector Out) (records.map .record)).runOn
      (new lowerBound upperBound joinFn, [])).1 = .ok () ∧
    (emitted lowerBound upperBound joinFn records).Perm
      ((matchingPairs lowerBound upperBound records).map (joined joinFn))

/-! ## The range queries -/

section Queries

variable (lowerBound upperBound : Duration) (l : Record L) (r : Record R)

/-- The query of a right record that arrives after the left one. -/
def FoundByRight : Prop :=
  keyOf l = keyOf r ∧ r.timestamp.subDuration upperBound ≤ l.timestamp ∧
    l.timestamp ≤ r.timestamp.subDuration lowerBound

/-- The query of a left record that arrives after the right one. -/
def FoundByLeft : Prop :=
  keyOf l = keyOf r ∧ l.timestamp.addDuration lowerBound ≤ r.timestamp ∧
    r.timestamp ≤ l.timestamp.addDuration upperBound

instance : Decidable (FoundByRight lowerBound upperBound l r) := by
  unfold FoundByRight; infer_instance

instance : Decidable (FoundByLeft lowerBound upperBound l r) := by
  unfold FoundByLeft; infer_instance

variable {lowerBound upperBound l r}

theorem val_addDuration {t : EventTimestamp} {d : Duration} (h : d.asMillis < 2 ^ 64) :
    (t.addDuration d).val = min (t.val + d.asMillis) (2 ^ 64 - 1) := by
  have ht := t.isLt
  unfold EventTimestamp.addDuration
  rw [Nat.mod_eq_of_lt h]
  split_ifs with hfits
  · show t.val + d.asMillis = _
    omega
  · show 2 ^ 64 - 1 = _
    omega

theorem val_subDuration {t : EventTimestamp} {d : Duration} (h : d.asMillis < 2 ^ 64) :
    (t.subDuration d).val = t.val - d.asMillis := by
  show t.val - d.asMillis % 2 ^ 64 = _
  rw [Nat.mod_eq_of_lt h]

theorem asMillis_mono {d d' : Duration} (h : d ≤ d') : d.asMillis ≤ d'.asMillis :=
  Nat.div_le_div_right h

/-- The lower bound leads the right record below the start of time, and the left one is there. -/
def Underflows (lower : ℕ) (l : Record L) (r : Record R) : Prop :=
  keyOf l = keyOf r ∧ l.timestamp = 0 ∧ r.timestamp.val < lower

/-- The lower bound leads the left record past the end of time, and the right one is there. -/
def Overflows (lower : ℕ) (l : Record L) (r : Record R) : Prop :=
  keyOf l = keyOf r ∧ r.timestamp = .MAX ∧ 2 ^ 64 ≤ l.timestamp.val + lower

/-- The whole milliseconds of the lower bound are between the two records, and they are not all of
it. -/
def Truncates (lowerBound : Duration) (l : Record L) (r : Record R) : Prop :=
  keyOf l = keyOf r ∧ r.timestamp.val = l.timestamp.val + lowerBound.asMillis ∧
    lowerBound ≠ lowerBound.wholeMillis

theorem ne_wholeMillis_iff {d : Duration} : d ≠ d.wholeMillis ↔ d.asMillis * 1000000 < d.nanos := by
  have hdiv := Nat.div_mul_le_self d.nanos 1000000
  have hnanos : d = d.wholeMillis ↔ d.nanos = d.asMillis * 1000000 :=
    ⟨congrArg Duration.nanos, fun h => congrArg Duration.mk h⟩
  rw [Ne, hnanos]
  unfold Duration.asMillis at *
  omega

theorem not_truncates_wholeMillis : ¬ Truncates lowerBound.wholeMillis l r := by
  rintro ⟨-, -, hne⟩
  rw [ne_wholeMillis_iff, Duration.asMillis_wholeMillis] at hne
  exact Nat.lt_irrefl _ hne

theorem foundByRight_iff (hle : lowerBound ≤ upperBound) (hupper : upperBound.asMillis < 2 ^ 64) :
    FoundByRight lowerBound upperBound l r ↔ Matches lowerBound upperBound l r ∨
      Underflows lowerBound.asMillis l r ∨ Truncates lowerBound l r := by
  have hmono := asMillis_mono hle
  have hnanos : lowerBound.nanos ≤ upperBound.nanos := hle
  unfold FoundByRight Matches Underflows Truncates
  rw [← and_or_left, ← and_or_left]
  refine and_congr_right fun _ => ?_
  rw [Fin.le_def, Fin.le_def, val_subDuration hupper, val_subDuration (by omega), Fin.ext_iff,
    Fin.val_zero, ne_wholeMillis_iff]
  unfold Duration.asMillis at *
  omega

theorem foundByLeft_iff (hle : lowerBound ≤ upperBound) (hupper : upperBound.asMillis < 2 ^ 64) :
    FoundByLeft lowerBound upperBound l r ↔ Matches lowerBound upperBound l r ∨
      Overflows lowerBound.asMillis l r ∨ Truncates lowerBound l r := by
  have hmono := asMillis_mono hle
  have hnanos : lowerBound.nanos ≤ upperBound.nanos := hle
  have hr := r.timestamp.isLt
  unfold FoundByLeft Matches Overflows Truncates
  rw [← and_or_left, ← and_or_left]
  refine and_congr_right fun _ => ?_
  have hmax : r.timestamp = .MAX ↔ r.timestamp.val = 2 ^ 64 - 1 := Fin.ext_iff
  rw [Fin.le_def, Fin.le_def, val_addDuration hupper, val_addDuration (by omega), hmax,
    ne_wholeMillis_iff]
  unfold Duration.asMillis at *
  omega

theorem matches_foundByRight (hle : lowerBound ≤ upperBound) (hupper : upperBound.asMillis < 2 ^ 64)
    (l : Record L) (r : Record R) (h : decide (Matches lowerBound upperBound l r) = true) :
    decide (FoundByRight lowerBound upperBound l r) = true :=
  decide_eq_true ((foundByRight_iff hle hupper).mpr (Or.inl (of_decide_eq_true h)))

theorem matches_foundByLeft (hle : lowerBound ≤ upperBound) (hupper : upperBound.asMillis < 2 ^ 64)
    (l : Record L) (r : Record R) (h : decide (Matches lowerBound upperBound l r) = true) :
    decide (FoundByLeft lowerBound upperBound l r) = true :=
  decide_eq_true ((foundByLeft_iff hle hupper).mpr (Or.inl (of_decide_eq_true h)))

theorem foundByRight_wholeMillis : FoundByRight lowerBound.wholeMillis upperBound.wholeMillis l r ↔
    FoundByRight lowerBound upperBound l r := by
  unfold FoundByRight EventTimestamp.subDuration
  simp only [lowerBound.asMillis_wholeMillis, upperBound.asMillis_wholeMillis]

theorem foundByLeft_wholeMillis : FoundByLeft lowerBound.wholeMillis upperBound.wholeMillis l r ↔
    FoundByLeft lowerBound upperBound l r := by
  unfold FoundByLeft EventTimestamp.addDuration
  simp only [lowerBound.asMillis_wholeMillis, upperBound.asMillis_wholeMillis]

theorem addDuration_mono {t : EventTimestamp} (hle : lowerBound ≤ upperBound)
    (hupper : upperBound.asMillis < 2 ^ 64) :
    t.addDuration lowerBound ≤ t.addDuration upperBound := by
  have hmono := asMillis_mono hle
  rw [Fin.le_def, val_addDuration hupper, val_addDuration (by omega)]
  omega

theorem subDuration_anti {t : EventTimestamp} (hle : lowerBound ≤ upperBound)
    (hupper : upperBound.asMillis < 2 ^ 64) :
    t.subDuration upperBound ≤ t.subDuration lowerBound := by
  have hmono := asMillis_mono hle
  rw [Fin.le_def, val_subDuration hupper, val_subDuration (by omega)]
  omega

end Queries

/-! ## The buffers hold what has arrived -/

/-- A buffered record. -/
def buffered {T : Type} (record : Record T) : EventTimestamp × T := (record.timestamp, record.value)

/-- The operator after `records` have arrived, and what it has emitted. -/
structure Buffered (lowerBound upperBound : Duration) (joinFn : L → R → Out)
    (records : List (Record (Either L R))) (op : IntervalJoinOperator L R Out)
    (out : List (StreamElement Out)) : Prop where
  config : op.lowerBound = lowerBound ∧ op.upperBound = upperBound ∧ op.joinFn = joinFn
  left : ∀ key, (op.perKey key).left.toList.Perm
    (((lefts (records.map Record.side)).filter fun l => keyOf l = key).map buffered)
  right : ∀ key, (op.perKey key).right.toList.Perm
    (((rights (records.map Record.side)).filter fun r => keyOf r = key).map buffered)
  emitted : (out.filterMap StreamElement.record?).Perm
    ((found (fun l r => FoundByRight lowerBound upperBound l r)
      (fun l r => FoundByLeft lowerBound upperBound l r) (records.map Record.side)).map (joined joinFn))

theorem runOn_forM_collect {V : Type} (toEmit : V → Record Out) (values : List V)
    (op : IntervalJoinOperator L R Out) (out : List (StreamElement Out)) :
    (values.forM fun value => (onCollector ((TestCollector Out).collect (toEmit value)) :
      Call L R Out _ Unit)).runOn (op, out) =
        (.ok (), (op, out ++ values.map fun value => .record (toEmit value))) := by
  induction values generalizing out with
  | nil => rw [runOn_forM_nil, List.map_nil, List.append_nil]
  | cons value values ih =>
    have hfirst : (onCollector ((TestCollector Out).collect (toEmit value)) :
        Call L R Out _ Unit).runOn (op, out) = (.ok (), (op, out ++ [.record (toEmit value)])) := rfl
    rw [runOn_forM_cons, runOn_bind_ok hfirst, ih, List.append_assoc]
    rfl

theorem runOn_emitAll {V : Type} (toEmit : EventTimestamp → V → Record Out)
    (buckets : List (EventTimestamp × List V)) (op : IntervalJoinOperator L R Out)
    (out : List (StreamElement Out)) :
    (emitAll (TestCollector Out) toEmit buckets).runOn (op, out) =
      (.ok (), (op, out ++ (SortedMap.flatten buckets).map fun x => .record (toEmit x.1 x.2))) := by
  unfold emitAll
  induction buckets generalizing out with
  | nil => rw [runOn_forM_nil]; exact congrArg _ (Prod.ext rfl (List.append_nil _).symm)
  | cons bucket buckets ih =>
    rw [runOn_forM_cons, runOn_bind_ok (runOn_forM_collect (toEmit bucket.1) bucket.2 op out), ih]
    have hflat : SortedMap.flatten (bucket :: buckets) =
        bucket.2.map (fun value => (bucket.1, value)) ++ SortedMap.flatten buckets := rfl
    rw [hflat, List.map_append, List.map_map, List.append_assoc]
    rfl

theorem filterMap_record? {V : Type} (out : List (StreamElement Out)) (toEmit : V → Record Out)
    (values : List V) :
    (out ++ values.map fun x => StreamElement.record (toEmit x)).filterMap StreamElement.record? =
      out.filterMap StreamElement.record? ++ values.map toEmit := by
  rw [List.filterMap_append, List.filterMap_map]
  exact congrArg _ (congrFun List.filterMap_eq_map _)

theorem buffered_range {T : Type} {m : SortedMap EventTimestamp T} {records : List (Record T)}
    {key : Bytes} (h : m.toList.Perm ((records.filter fun r => keyOf r = key).map buffered))
    (lo hi : EventTimestamp) :
    (SortedMap.flatten (m.range lo hi)).Perm ((records.filter fun r =>
      keyOf r = key ∧ lo ≤ r.timestamp ∧ r.timestamp ≤ hi).map buffered) := by
  rw [SortedMap.flatten_range]
  refine (h.filter _).trans ?_
  rw [List.filter_map, List.filter_filter]
  refine List.Perm.of_eq (congrArg _ (List.filter_congr fun r _ => ?_))
  rw [Bool.eq_iff_iff, Bool.and_eq_true, decide_eq_true_iff, decide_eq_true_iff]
  exact (and_congr_left' decide_eq_true_iff).trans and_comm

theorem buffered_push {T : Type} {m : SortedMap EventTimestamp T} {records : List (Record T)}
    {key : Bytes} (h : m.toList.Perm ((records.filter fun r => keyOf r = key).map buffered))
    {record : Record T} (hkey : keyOf record = key) :
    (m.push record.timestamp record.value).toList.Perm
      (((records ++ [record]).filter fun r => keyOf r = key).map buffered) := by
  refine SortedMap.toList_push.trans ((h.append_right _).trans (List.Perm.of_eq ?_))
  rw [List.filter_append, List.filter_singleton, List.map_append]
  simp [hkey, buffered]

theorem filter_keyOf_of_ne {T : Type} (records : List (Record T)) {record : Record T} {key : Bytes}
    (hkey : keyOf record ≠ key) :
    (records ++ [record]).filter (fun r => keyOf r = key) =
      records.filter fun r => keyOf r = key := by
  rw [List.filter_append, List.filter_singleton]
  simp [hkey]

section Arrivals

variable {lowerBound upperBound : Duration} {joinFn : L → R → Out}
  {records : List (Record (Either L R))} {op : IntervalJoinOperator L R Out}
  {out : List (StreamElement Out)}

theorem rangeInclusive_eq_ok {V : Type} (m : SortedMap EventTimestamp V)
    {start stop : EventTimestamp} (h : start ≤ stop) :
    rangeInclusive m start stop = .ok (m.range start stop) := if_pos h

theorem runOn_checked {S α : Type} (a : α) (s : S) :
    (checked (.ok a) : Fallible Failure S α).runOn s = (.ok a, s) := rfl

theorem runOn_left (hle : op.lowerBound ≤ op.upperBound)
    (hupper : op.upperBound.asMillis < 2 ^ 64) (l : Record L) :
    (processRecord (TestCollector Out) (l.map .left)).runOn (op, out) =
      (.ok (), (op.store (keyOf l) fun st => { st with left := st.left.push l.timestamp l.value },
        out ++ (SortedMap.flatten ((op.perKey (keyOf l)).right.range
          (l.timestamp.addDuration op.lowerBound) (l.timestamp.addDuration op.upperBound))).map
          fun x => .record ⟨op.joinFn l.value x.2, max l.timestamp x.1, some (keyOf l)⟩)) := by
  unfold processRecord
  rw [runOn_bind_ok runOn_get]
  simp only [Record.map, rangeInclusive_eq_ok _ (addDuration_mono hle hupper)]
  rw [runOn_bind_ok runOn_set, runOn_bind_ok (runOn_checked _ _), runOn_emitAll]
  rfl

theorem runOn_right (hle : op.lowerBound ≤ op.upperBound)
    (hupper : op.upperBound.asMillis < 2 ^ 64) (r : Record R) :
    (processRecord (TestCollector Out) (r.map .right)).runOn (op, out) =
      (.ok (), (op.store (keyOf r) fun st => { st with right := st.right.push r.timestamp r.value },
        out ++ (SortedMap.flatten ((op.perKey (keyOf r)).left.range
          (r.timestamp.subDuration op.upperBound) (r.timestamp.subDuration op.lowerBound))).map
          fun x => .record ⟨op.joinFn x.2 r.value, max x.1 r.timestamp, some (keyOf r)⟩)) := by
  unfold processRecord
  rw [runOn_bind_ok runOn_get]
  simp only [Record.map, rangeInclusive_eq_ok _ (subDuration_anti hle hupper)]
  rw [runOn_bind_ok runOn_set, runOn_bind_ok (runOn_checked _ _), runOn_emitAll]
  rfl

/-- **A left record meets the right ones that its query finds.** -/
theorem buffered_left (hle : lowerBound ≤ upperBound) (hupper : upperBound.asMillis < 2 ^ 64)
    (h : Buffered lowerBound upperBound joinFn records op out) (l : Record L) :
    ∃ op' out', (processRecord (TestCollector Out) (l.map .left)).runOn (op, out) =
        (.ok (), (op', out')) ∧
      Buffered lowerBound upperBound joinFn (records ++ [l.map .left]) op' out' := by
  obtain ⟨rfl, rfl, rfl⟩ := h.config
  have hside : (records ++ [l.map Either.left]).map Record.side =
      records.map Record.side ++ [Sum.inl l] :=
    List.map_append
  refine ⟨_, _, runOn_left hle hupper l, ⟨rfl, rfl, rfl⟩, fun key => ?_, fun key => ?_, ?_⟩
  · have hlefts : lefts (records.map Record.side ++ [.inl l]) =
        lefts (records.map Record.side) ++ [l] :=
      lefts_append _ _
    rw [perKey_store, hside, hlefts]
    split_ifs with hkey
    · exact buffered_push (h.left key) hkey.symm
    · rw [filter_keyOf_of_ne _ (Ne.symm hkey)]
      exact h.left key
  · have hrights : rights (records.map Record.side ++ [.inl l]) =
        rights (records.map Record.side) := by simp
    rw [perKey_store, hside, hrights]
    split_ifs with hkey <;> exact h.right key
  · rw [filterMap_record?, hside]
    refine List.Perm.trans ?_ ((found_concat_left _ l).map _).symm
    rw [List.map_append]
    refine h.emitted.append (((buffered_range (h.right (keyOf l)) _ _).map _).trans ?_)
    rw [List.map_map, pairLeft, List.map_map]
    have hfound : ∀ r : Record R, (keyOf r = keyOf l ∧
        l.timestamp.addDuration op.lowerBound ≤ r.timestamp ∧
          r.timestamp ≤ l.timestamp.addDuration op.upperBound) ↔
        FoundByLeft op.lowerBound op.upperBound l r := fun r => and_congr_left' eq_comm
    simp only [hfound]
    exact List.Perm.refl _

/-- **A right record meets the left ones that its query finds.** -/
theorem buffered_right (hle : lowerBound ≤ upperBound) (hupper : upperBound.asMillis < 2 ^ 64)
    (h : Buffered lowerBound upperBound joinFn records op out) (r : Record R) :
    ∃ op' out', (processRecord (TestCollector Out) (r.map .right)).runOn (op, out) =
        (.ok (), (op', out')) ∧
      Buffered lowerBound upperBound joinFn (records ++ [r.map .right]) op' out' := by
  obtain ⟨rfl, rfl, rfl⟩ := h.config
  have hside : (records ++ [r.map Either.right]).map Record.side =
      records.map Record.side ++ [Sum.inr r] :=
    List.map_append
  refine ⟨_, _, runOn_right hle hupper r, ⟨rfl, rfl, rfl⟩, fun key => ?_, fun key => ?_, ?_⟩
  · have hlefts : lefts (records.map Record.side ++ [.inr r]) =
        lefts (records.map Record.side) := by simp
    rw [perKey_store, hside, hlefts]
    split_ifs with hkey <;> exact h.left key
  · have hrights : rights (records.map Record.side ++ [.inr r]) =
        rights (records.map Record.side) ++ [r] :=
      rights_append _ _
    rw [perKey_store, hside, hrights]
    split_ifs with hkey
    · exact buffered_push (h.right key) hkey.symm
    · rw [filter_keyOf_of_ne _ (Ne.symm hkey)]
      exact h.right key
  · rw [filterMap_record?, hside]
    refine List.Perm.trans ?_ ((found_concat_right _ r).map _).symm
    rw [List.map_append]
    refine h.emitted.append (((buffered_range (h.left (keyOf r)) _ _).map _).trans ?_)
    rw [List.map_map, pairRight, List.map_map]
    refine List.Perm.of_eq (List.map_congr_left fun l hl => ?_)
    have hkey : keyOf l = keyOf r := (of_decide_eq_true (List.mem_filter.mp hl).2).1
    simp only [Function.comp_apply, joined, buffered, hkey]

/-- **The buffers hold what has arrived**, and what was found has been emitted. -/
theorem exists_buffered (joinFn : L → R → Out) (hle : lowerBound ≤ upperBound)
    (hupper : upperBound.asMillis < 2 ^ 64) (records : List (Record (Either L R))) :
    ∃ op out, (run (TestCollector Out) (records.map .record)).runOn
        (new lowerBound upperBound joinFn, []) = (.ok (), (op, out)) ∧
      Buffered lowerBound upperBound joinFn records op out := by
  induction records using List.reverseRecOn with
  | nil =>
    exact ⟨_, _, rfl, ⟨rfl, rfl, rfl⟩, fun _ => List.Perm.refl _, fun _ => List.Perm.refl _,
      List.Perm.refl _⟩
  | append_singleton records record ih =>
    obtain ⟨op, out, hrun, h⟩ := ih
    have hnext : ∃ op' out', (processRecord (TestCollector Out) record).runOn (op, out) =
        (.ok (), (op', out')) ∧
          Buffered lowerBound upperBound joinFn (records ++ [record]) op' out' := by
      obtain ⟨value | value, ts, key⟩ := record
      · exact buffered_left hle hupper h ⟨value, ts, key⟩
      · exact buffered_right hle hupper h ⟨value, ts, key⟩
    obtain ⟨op', out', hcall, h'⟩ := hnext
    refine ⟨op', out', ?_, h'⟩
    unfold run at hrun ⊢
    rw [List.map_append, runOn_forM_append_ok hrun]
    exact runOn_bind_ok hcall _

end Arrivals

/-! ## When the operator finds exactly the matching pairs -/

/-- In this order of arrival no range query has a bound that saturates onto a record. -/
def ArrivesUnsaturated (lower : ℕ) (records : List (Record (Either L R))) : Prop :=
  ∀ (l : Record L) (r : Record R),
    ([l.map Either.left, r.map Either.right].Sublist records → ¬ Underflows lower l r) ∧
      ([r.map Either.right, l.map Either.left].Sublist records → ¬ Overflows lower l r)

/-- In no order of arrival has a range query a bound that saturates onto a record. -/
def Unsaturated (lower : ℕ) (records : List (Record (Either L R))) : Prop :=
  ∀ (l : Record L) (r : Record R), l.map Either.left ∈ records → r.map Either.right ∈ records →
    ¬ Underflows lower l r ∧ ¬ Overflows lower l r

/-- The lower bound is not cut off at any two records. -/
def Untruncated (lowerBound : Duration) (records : List (Record (Either L R))) : Prop :=
  ∀ (l : Record L) (r : Record R), l.map Either.left ∈ records → r.map Either.right ∈ records →
    ¬ Truncates lowerBound l r

theorem Unsaturated.arrives {lower : ℕ} {records : List (Record (Either L R))}
    (h : Unsaturated lower records) : ArrivesUnsaturated lower records := fun l r =>
  ⟨fun hsub => (h l r (hsub.subset (by simp)) (hsub.subset (by simp))).1,
    fun hsub => (h l r (hsub.subset (by simp)) (hsub.subset (by simp))).2⟩

theorem side_eq_inl {record : Record (Either L R)} {l : Record L} :
    record.side = .inl l ↔ record = l.map Either.left := by
  constructor
  · intro h
    obtain ⟨value | value, ts, key⟩ := record <;> cases h
    rfl
  · rintro rfl
    rfl

theorem side_eq_inr {record : Record (Either L R)} {r : Record R} :
    record.side = .inr r ↔ record = r.map Either.right := by
  constructor
  · intro h
    obtain ⟨value | value, ts, key⟩ := record <;> cases h
    rfl
  · rintro rfl
    rfl

section Exactly

variable {lowerBound upperBound : Duration} {joinFn : L → R → Out}
  {records : List (Record (Either L R))} {l : Record L} {r : Record R}

theorem pair_sublist_iff {x y : Record L ⊕ Record R} {a b : Record (Either L R)}
    (hx : ∀ record : Record (Either L R), record.side = x ↔ record = a)
    (hy : ∀ record : Record (Either L R), record.side = y ↔ record = b) :
    [x, y].Sublist (records.map Record.side) ↔ [a, b].Sublist records := by
  rw [List.sublist_map_iff]
  constructor
  · rintro ⟨pair, hsub, hpair⟩
    obtain ⟨a', b', rfl⟩ : ∃ a' b', pair = [a', b'] := List.length_eq_two.mp (by
      simpa using (congrArg List.length hpair).symm)
    obtain ⟨hx', hy'⟩ : x = a'.side ∧ y = b'.side := by simpa using hpair
    rwa [(hx a').mp hx'.symm, (hy b').mp hy'.symm] at hsub
  · intro hsub
    exact ⟨_, hsub, by simp [(hx a).mpr rfl, (hy b).mpr rfl]⟩

theorem foundByRight_matches_iff (hle : lowerBound ≤ upperBound)
    (hupper : upperBound.asMillis < 2 ^ 64) :
    (FoundByRight lowerBound upperBound l r → Matches lowerBound upperBound l r) ↔
      ¬ Underflows lowerBound.asMillis l r ∧ ¬ Truncates lowerBound l r := by
  rw [foundByRight_iff hle hupper, ← not_or]
  refine ⟨fun h hmore => ?_, fun h hfound => hfound.resolve_right h⟩
  have hlow := (h (Or.inr hmore)).2.1
  rcases hmore with ⟨-, hzero, hlt⟩ | ⟨-, hts, hne⟩
  · have hzero : l.timestamp.val = 0 := congrArg Fin.val hzero
    unfold Duration.asMillis at hlt
    omega
  · rw [ne_wholeMillis_iff] at hne
    omega

theorem foundByLeft_matches_iff (hle : lowerBound ≤ upperBound)
    (hupper : upperBound.asMillis < 2 ^ 64) :
    (FoundByLeft lowerBound upperBound l r → Matches lowerBound upperBound l r) ↔
      ¬ Overflows lowerBound.asMillis l r ∧ ¬ Truncates lowerBound l r := by
  rw [foundByLeft_iff hle hupper, ← not_or]
  refine ⟨fun h hmore => ?_, fun h hfound => hfound.resolve_right h⟩
  have hlow := (h (Or.inr hmore)).2.1
  rcases hmore with ⟨-, -, hpast⟩ | ⟨-, hts, hne⟩
  · have hlt := r.timestamp.isLt
    unfold Duration.asMillis at hpast
    omega
  · rw [ne_wholeMillis_iff] at hne
    omega

theorem sublist_or_sublist {a b : Record (Either L R)} (ha : a ∈ records) (hb : b ∈ records)
    (hne : a ≠ b) : [a, b].Sublist records ∨ [b, a].Sublist records := by
  obtain ⟨pre, post, rfl⟩ := List.append_of_mem ha
  rcases List.mem_append.mp hb with h | h
  · exact Or.inr ((List.singleton_sublist.mpr h).append (List.singleton_sublist.mpr (by simp)))
  · have hpost := (List.mem_cons.mp h).resolve_left (Ne.symm hne)
    exact Or.inl (((List.singleton_sublist.mpr hpost).cons_cons a).trans
      (List.sublist_append_right _ _))

theorem untruncated_iff : Untruncated lowerBound records ↔ ∀ (l : Record L) (r : Record R),
    ([l.map Either.left, r.map Either.right].Sublist records → ¬ Truncates lowerBound l r) ∧
      ([r.map Either.right, l.map Either.left].Sublist records → ¬ Truncates lowerBound l r) := by
  constructor
  · intro h l r
    exact ⟨fun hsub => h l r (hsub.subset (by simp)) (hsub.subset (by simp)),
      fun hsub => h l r (hsub.subset (by simp)) (hsub.subset (by simp))⟩
  · intro h l r hl hr
    exact (sublist_or_sublist hl hr (by rintro ⟨⟩)).elim (h l r).1 (h l r).2

/-- **When the queries find no pair too many.** -/
theorem length_found_matches (hle : lowerBound ≤ upperBound) (hupper : upperBound.asMillis < 2 ^ 64)
    (records : List (Record (Either L R))) :
    (found (fun l r => FoundByRight lowerBound upperBound l r)
        (fun l r => FoundByLeft lowerBound upperBound l r) (records.map Record.side)).length =
      (matchingPairs lowerBound upperBound records).length ↔
      ArrivesUnsaturated lowerBound.asMillis records ∧ Untruncated lowerBound records := by
  have hmatching := found_perm_batch (p := fun l r => decide (Matches lowerBound upperBound l r))
    (records.map Record.side)
  have hcond := length_found_iff (matches_foundByRight hle hupper) (matches_foundByLeft hle hupper)
    (records.map Record.side)
  simp only [decide_eq_true_iff, foundByRight_matches_iff hle hupper,
    foundByLeft_matches_iff hle hupper,
    pair_sublist_iff (fun _ => side_eq_inl) (fun _ => side_eq_inr),
    pair_sublist_iff (fun _ => side_eq_inr) (fun _ => side_eq_inl)] at hcond
  rw [hmatching.length_eq] at hcond
  refine hcond.trans ?_
  rw [untruncated_iff, ArrivesUnsaturated]
  simp only [imp_and, forall_and]
  tauto

theorem found_perm_matchingPairs (hle : lowerBound ≤ upperBound)
    (hupper : upperBound.asMillis < 2 ^ 64)
    (hunsaturated : ArrivesUnsaturated lowerBound.asMillis records)
    (huntruncated : Untruncated lowerBound records) :
    (found (fun l r => FoundByRight lowerBound upperBound l r)
      (fun l r => FoundByLeft lowerBound upperBound l r) (records.map Record.side)).Perm
      (matchingPairs lowerBound upperBound records) := by
  have hmatching := found_perm_batch (p := fun l r => decide (Matches lowerBound upperBound l r))
    (records.map Record.side)
  have hlen := (length_found_matches hle hupper records).mpr ⟨hunsaturated, huntruncated⟩
  rw [found_eq (matches_foundByRight hle hupper) (matches_foundByLeft hle hupper)
    (hlen.trans hmatching.length_eq.symm)]
  exact hmatching

theorem found_perm_wholeMillis (hle : lowerBound ≤ upperBound)
    (hupper : upperBound.asMillis < 2 ^ 64) (h : Unsaturated lowerBound.asMillis records) :
    (found (fun l r => FoundByRight lowerBound upperBound l r)
      (fun l r => FoundByLeft lowerBound upperBound l r) (records.map Record.side)).Perm
      (matchingPairs lowerBound.wholeMillis upperBound.wholeMillis records) := by
  rw [← upperBound.asMillis_wholeMillis] at hupper
  rw [← lowerBound.asMillis_wholeMillis] at h
  have hperm := found_perm_matchingPairs (Duration.wholeMillis_mono hle) hupper h.arrives
    fun _ _ _ _ => not_truncates_wholeMillis
  simp only [foundByRight_wholeMillis, foundByLeft_wholeMillis] at hperm
  exact hperm

/-- **One order of arrival:** exactly the matching pairs are found, unless a bound saturates or is
cut off. -/
theorem findsExactly_iff (hle : lowerBound ≤ upperBound) (hupper : upperBound.asMillis < 2 ^ 64) :
    FindsExactly lowerBound upperBound joinFn records ↔
      ArrivesUnsaturated lowerBound.asMillis records ∧ Untruncated lowerBound records := by
  obtain ⟨op, out, hrun, hbuffered⟩ := exists_buffered joinFn hle hupper records
  have hout : emitted lowerBound upperBound joinFn records = out.filterMap StreamElement.record? := by
    rw [emitted, output, hrun]
  constructor
  · rintro ⟨-, hperm⟩
    rw [hout] at hperm
    have hlen := (hbuffered.emitted.symm.trans hperm).length_eq
    rw [List.length_map, List.length_map] at hlen
    exact (length_found_matches hle hupper records).mp hlen
  · rintro ⟨hunsaturated, huntruncated⟩
    refine ⟨by rw [hrun], ?_⟩
    rw [hout]
    exact hbuffered.emitted.trans
      ((found_perm_matchingPairs hle hupper hunsaturated huntruncated).map _)

theorem matchingPairs_perm {arrival : List (Record (Either L R))} (h : arrival.Perm records) :
    (matchingPairs lowerBound upperBound arrival).Perm
      (matchingPairs lowerBound upperBound records) :=
  batch_perm ((h.map Record.side).filterMap _) ((h.map Record.side).filterMap _)

theorem exists_arrival {a b : Record (Either L R)} (ha : a ∈ records) (hb : b ∈ records)
    (hne : b ≠ a) : ∃ arrival, arrival.Perm records ∧ [a, b].Sublist arrival := by
  obtain ⟨pre, post, rfl⟩ := List.append_of_mem ha
  have hb' : b ∈ pre ++ post := by
    rcases List.mem_append.mp hb with h | h
    · exact List.mem_append_left _ h
    · exact List.mem_append_right _ ((List.mem_cons.mp h).resolve_left hne)
  obtain ⟨pre', post', hsplit⟩ := List.append_of_mem hb'
  refine ⟨a :: b :: (pre' ++ post'), ?_, ?_⟩
  · refine List.Perm.trans (List.Perm.cons a ?_) List.perm_middle.symm
    rw [hsplit]
    exact List.perm_middle.symm
  · exact (List.nil_sublist _).cons_cons b |>.cons_cons a

/-- **When the interval join finds exactly the matching pairs:** if no range query saturates onto a
record and the lower bound is cut off at no pair. -/
theorem intervalJoin_exact_iff (lowerBound upperBound : Duration) (joinFn : L → R → Out)
    (records : List (Record (Either L R))) (hle : lowerBound ≤ upperBound)
    (hupper : upperBound.asMillis < 2 ^ 64) :
    (FindsExactly lowerBound upperBound joinFn records ↔
        ArrivesUnsaturated lowerBound.asMillis records ∧ Untruncated lowerBound records) ∧
      ((∀ arrival : List (Record (Either L R)), arrival.Perm records →
          FindsExactly lowerBound upperBound joinFn arrival ∧
            (emitted lowerBound upperBound joinFn arrival).Perm
              (emitted lowerBound upperBound joinFn records)) ↔
        Unsaturated lowerBound.asMillis records ∧ Untruncated lowerBound records) := by
  refine ⟨findsExactly_iff hle hupper, fun h => ⟨fun l r hl hr => ⟨fun hunder => ?_, fun hover => ?_⟩,
    ?_⟩, fun h => ?_⟩
  · obtain ⟨arrival, hperm, hsub⟩ := exists_arrival hl hr (by rintro ⟨⟩)
    exact (((findsExactly_iff hle hupper).mp (h arrival hperm).1).1 l r).1 hsub hunder
  · obtain ⟨arrival, hperm, hsub⟩ := exists_arrival hr hl (by rintro ⟨⟩)
    exact (((findsExactly_iff hle hupper).mp (h arrival hperm).1).1 l r).2 hsub hover
  · exact ((findsExactly_iff hle hupper).mp (h records (List.Perm.refl _)).1).2
  · obtain ⟨hunsaturated, huntruncated⟩ := h
    have hall : ∀ arrival : List (Record (Either L R)), arrival.Perm records →
        FindsExactly lowerBound upperBound joinFn arrival := by
      intro arrival hperm
      have harrives : Unsaturated lowerBound.asMillis arrival := fun l r hl hr =>
        hunsaturated l r (hperm.subset hl) (hperm.subset hr)
      exact (findsExactly_iff hle hupper).mpr ⟨harrives.arrives, fun l r hl hr =>
        huntruncated l r (hperm.subset hl) (hperm.subset hr)⟩
    intro arrival hperm
    refine ⟨hall arrival hperm, ?_⟩
    have hrecords := (hall records (List.Perm.refl _)).2
    exact (hall arrival hperm).2.trans (((matchingPairs_perm hperm).map _).trans hrecords.symm)

end Exactly

/-- Records of both sides; one has no key. -/
def closeRecords : List (Record (Either ℕ ℕ)) :=
  [⟨.left 1, 100, some [1]⟩, ⟨.right 2, 115, some [1]⟩, ⟨.right 3, 115, none⟩,
    ⟨.left 4, 105, some [1]⟩]

/-- The lower bound is 9.5 ms; no two records are 9 ms apart. -/
theorem closeRecords_exact :
    FindsExactly ⟨9500000⟩ (.fromMillis 20) (fun l r => 10 * l + r) closeRecords ∧
      emitted ⟨9500000⟩ (.fromMillis 20) (fun l r => 10 * l + r) closeRecords =
        [⟨12, 115, some [1]⟩, ⟨42, 115, some [1]⟩] := by
  have hle : (⟨9500000⟩ : Duration) ≤ Duration.fromMillis 20 :=
    show 9500000 ≤ 20 * 1000000 by norm_num
  have htimes : ∀ record ∈ closeRecords, record.timestamp ≠ 0 ∧ record.timestamp ≠ .MAX := by decide
  have happart : ∀ l ∈ closeRecords, ∀ r ∈ closeRecords,
      r.timestamp.val ≠ l.timestamp.val + 9 := by decide
  refine ⟨((intervalJoin_exact_iff _ _ _ closeRecords hle (by decide)).2.mpr
    ⟨fun l r hl hr => ⟨fun hunder => ?_, fun hover => ?_⟩, fun l r hl hr hcut => ?_⟩)
    closeRecords (List.Perm.refl _) |>.1, by decide +kernel⟩
  · exact (htimes _ hl).1 hunder.2.1
  · exact (htimes _ hr).2 hover.2.1
  · exact happart _ hl _ hr hcut.2.1

/-- A left record at the start of time, and a right one below the lower bound. -/
def startRecords : List (Record (Either ℕ ℕ)) :=
  [⟨.left 1, 0, some [1]⟩, ⟨.right 2, 5, some [1]⟩]

/-- The pair does not match, and is found in one order of arrival. -/
theorem startRecords_not_exact :
    ¬ Matches (.fromMillis 10) (.fromMillis 20) (⟨1, 0, some [1]⟩ : Record ℕ)
        (⟨2, 5, some [1]⟩ : Record ℕ) ∧
      emitted (.fromMillis 10) (.fromMillis 20) (fun l r => 10 * l + r) startRecords =
        [⟨12, 5, some [1]⟩] ∧
      emitted (.fromMillis 10) (.fromMillis 20) (fun l r => 10 * l + r) startRecords.reverse = [] ∧
      ¬ FindsExactly (.fromMillis 10) (.fromMillis 20) (fun l r => 10 * l + r) startRecords := by
  have hemitted : emitted (.fromMillis 10) (.fromMillis 20) (fun l r => 10 * l + r) startRecords =
      [⟨12, 5, some [1]⟩] := by decide +kernel
  refine ⟨by decide, hemitted, by decide +kernel, fun h => ?_⟩
  have hmatching : matchingPairs (.fromMillis 10) (.fromMillis 20) startRecords = [] := by
    decide +kernel
  have hperm := h.2
  rw [hemitted, hmatching] at hperm
  exact absurd hperm.length_eq (by decide)

/-- A right record 1 ms after a left one, with a lower bound of 1.5 ms: they are joined. -/
example : emitted ⟨1500000⟩ (.fromMillis 2) (fun l r => 10 * l + r)
      [⟨Either.left 1, 5, some [1]⟩, ⟨.right 2, 6, some [1]⟩] = [⟨12, 6, some [1]⟩] ∧
    ¬ Matches ⟨1500000⟩ (.fromMillis 2) (⟨1, 5, some [1]⟩ : Record ℕ)
      (⟨2, 6, some [1]⟩ : Record ℕ) := by decide +kernel

end IntervalJoinOperator

end Flume
