import Flume.Core.WindowTracking
import Flume.Lib.PairJoin

/-!
# Window joins

The window join buffers the records of both streams for each key and window, and emits the cross
product of the two sides when the window fires. The window cogroup hands the two sides to a
function.

* `WindowJoinOperator`, `WindowCogroupOperator`: the windowed operators of the two;
* `batchJoin`, `cogrouped`: the results of the whole input, for one key and window;
* **`windowJoin_equalsBatchJoin`**: what the window join emits is the batch join of the windows that
  were passed.
-/

namespace Flume

open Fallible Entries GroupBy PairJoin
open WindowOperator (Input keysOf history groups Passed WellTimed)

variable {L R Out : Type}

/-- Buffered records for both sides of a window join. -/
structure WindowJoinState (L R : Type) where
  left : List (L × EventTimestamp)
  right : List (R × EventTimestamp)

/-- What a window join keeps, and the cross product it emits. -/
def joinContents (joinFn : L → R → Out) : WindowContents (Either L R) (WindowJoinState L R) Out where
  default := ⟨[], []⟩
  push st record :=
    match record.value with
    | .left value => { st with left := st.left ++ [(value, record.timestamp)] }
    | .right value => { st with right := st.right ++ [(value, record.timestamp)] }
  results wk st := .ok (st.left.flatMap fun (leftVal, leftTs) =>
    st.right.map fun (rightVal, rightTs) =>
      ⟨joinFn leftVal rightVal, max leftTs rightTs, some wk.key⟩)

/-- The window join operator. -/
abbrev WindowJoinOperator (L R Out : Type) : Type :=
  WindowedOperator (Either L R) (WindowJoinState L R) Out

/-- The window join before its first call. -/
def WindowJoinOperator.new (assigner : WindowAssigner) (joinFn : L → R → Out) :
    WindowJoinOperator L R Out :=
  WindowedOperator.new assigner (joinContents joinFn)

/-- Buffered records for both sides of a cogroup. -/
structure CogroupState (L R : Type) where
  left : List L
  right : List R

/-- What a cogroup keeps, and the results of its function. -/
def cogroupContents (cogroupFn : Bytes → List L → List R → List Out) :
    WindowContents (Either L R) (CogroupState L R) Out where
  default := ⟨[], []⟩
  push st record :=
    match record.value with
    | .left value => { st with left := st.left ++ [value] }
    | .right value => { st with right := st.right ++ [value] }
  results wk st := do
    let results := cogroupFn wk.key st.left st.right
    let timestamp ← wk.window.stop.checkedSub 1
    return results.map fun value => ⟨value, timestamp, some wk.key⟩

/-- The window cogroup operator. -/
abbrev WindowCogroupOperator (L R Out : Type) : Type :=
  WindowedOperator (Either L R) (CogroupState L R) Out

/-- The window cogroup before its first call. -/
def WindowCogroupOperator.new (assigner : WindowAssigner)
    (cogroupFn : Bytes → List L → List R → List Out) : WindowCogroupOperator L R Out :=
  WindowedOperator.new assigner (cogroupContents cogroupFn)

/-! ## The batch join -/

/-- The left records assigned to a key and window. -/
def leftsIn (assigner : WindowAssigner) (inputs : List (Input (Either L R))) (wk : WindowKey) :
    List (Record L) :=
  lefts ((members (keysOf assigner) (history inputs) wk).map Record.side)

/-- The right records assigned to a key and window. -/
def rightsIn (assigner : WindowAssigner) (inputs : List (Input (Either L R))) (wk : WindowKey) :
    List (Record R) :=
  rights ((members (keysOf assigner) (history inputs) wk).map Record.side)

/-- The record to emit for a pair in a window. -/
def joinedIn (joinFn : L → R → Out) (wk : WindowKey) (pair : Record L × Record R) : Record Out where
  value := joinFn pair.1.value pair.2.value
  timestamp := max pair.1.timestamp pair.2.timestamp
  key := some wk.key

/-- One record for each left and each right record of a key and window. -/
def batchJoin (assigner : WindowAssigner) (joinFn : L → R → Out)
    (inputs : List (Input (Either L R))) (wk : WindowKey) : List (Record Out) :=
  (batch (fun _ _ => true) (leftsIn assigner inputs wk) (rightsIn assigner inputs wk)).map
    (joinedIn joinFn wk)

theorem joinContents_computes (joinFn : L → R → Out) : (joinContents joinFn).Computes :=
  fun _ _ _ => ⟨_, rfl⟩

theorem foldl_push (joinFn : L → R → Out) (records : List (Record (Either L R)))
    (st : WindowJoinState L R) :
    records.foldl (joinContents joinFn).push st =
      ⟨st.left ++ (lefts (records.map Record.side)).map fun l => (l.value, l.timestamp),
        st.right ++ (rights (records.map Record.side)).map fun r => (r.value, r.timestamp)⟩ := by
  induction records generalizing st with
  | nil => simp [lefts, rights]
  | cons record records ih =>
    obtain ⟨value | value, ts, key⟩ := record
    · rw [List.foldl_cons, ih]
      simp [joinContents, Record.side]
    · rw [List.foldl_cons, ih]
      simp [joinContents, Record.side]

theorem batchResults_join (assigner : WindowAssigner) (joinFn : L → R → Out)
    (inputs : List (Input (Either L R))) (wk : WindowKey) :
    WindowedOperator.batchResults assigner (joinContents joinFn) inputs wk =
      batchJoin assigner joinFn inputs wk := by
  have hcontents : WindowedOperator.batchContents assigner (joinContents joinFn) inputs wk =
      ⟨(leftsIn assigner inputs wk).map fun l => (l.value, l.timestamp),
        (rightsIn assigner inputs wk).map fun r => (r.value, r.timestamp)⟩ := foldl_push _ _ _
  unfold WindowedOperator.batchResults batchJoin
  rw [hcontents]
  simp only [joinContents, batch, pairLeft, List.flatMap_map, List.map_flatMap, List.map_map,
    List.filter_true]
  rfl

theorem mem_groups_of_mem_leftsIn {assigner : WindowAssigner} {inputs : List (Input (Either L R))}
    {wk : WindowKey} {l : Record L} (h : l ∈ leftsIn assigner inputs wk) :
    wk ∈ groups assigner inputs := by
  by_contra hwk
  have hnil : members (keysOf assigner) (history inputs) wk = [] := members_eq_nil.mpr hwk
  rw [leftsIn, hnil] at h
  cases h

/-! ## What a cogroup emits -/

theorem cogroupContents_computes (cogroupFn : Bytes → List L → List R → List Out) :
    (cogroupContents cogroupFn).Computes := fun _ _ hstop =>
  ⟨_, by simp only [cogroupContents, U64.checkedSub_eq_ok hstop]; rfl⟩

theorem foldl_pushValue (cogroupFn : Bytes → List L → List R → List Out)
    (records : List (Record (Either L R))) (st : CogroupState L R) :
    records.foldl (cogroupContents cogroupFn).push st =
      ⟨st.left ++ (lefts (records.map Record.side)).map Record.value,
        st.right ++ (rights (records.map Record.side)).map Record.value⟩ := by
  induction records generalizing st with
  | nil => simp [lefts, rights]
  | cons record records ih =>
    obtain ⟨value | value, ts, key⟩ := record
    · rw [List.foldl_cons, ih]
      simp [cogroupContents, Record.side]
    · rw [List.foldl_cons, ih]
      simp [cogroupContents, Record.side]

/-- The values that a cogroup's function returns for a key and window. -/
def cogrouped (assigner : WindowAssigner) (cogroupFn : Bytes → List L → List R → List Out)
    (inputs : List (Input (Either L R))) (wk : WindowKey) : List Out :=
  cogroupFn wk.key ((leftsIn assigner inputs wk).map Record.value)
    ((rightsIn assigner inputs wk).map Record.value)

theorem batchResults_cogroup (assigner : WindowAssigner)
    (cogroupFn : Bytes → List L → List R → List Out) (inputs : List (Input (Either L R)))
    {wk : WindowKey} (hstop : 1 ≤ wk.window.stop) :
    WindowedOperator.batchResults assigner (cogroupContents cogroupFn) inputs wk =
      (cogrouped assigner cogroupFn inputs wk).map fun value =>
        ⟨value, wk.window.stop - 1, some wk.key⟩ := by
  have hcontents : WindowedOperator.batchContents assigner (cogroupContents cogroupFn) inputs wk =
      ⟨(leftsIn assigner inputs wk).map Record.value,
        (rightsIn assigner inputs wk).map Record.value⟩ := foldl_pushValue _ _ _
  unfold WindowedOperator.batchResults
  rw [hcontents]
  simp only [cogroupContents, U64.checkedSub_eq_ok hstop]
  rfl

/-! ## The window join is the batch join -/

/-- **The window join equals the batch join**, once for each common window that a watermark has
passed. -/
theorem windowJoin_equalsBatchJoin (assigner : WindowAssigner) (joinFn : L → R → Out) (size : U64)
    (inputs : List (Input (Either L R))) (hassigner : IsTimeAssigner size assigner)
    (h : WellTimed size inputs) :
    ((WindowedOperator.run (TestCollector Out) inputs).runOn
        (WindowJoinOperator.new assigner joinFn, [])).1 = .ok () ∧
      ((WindowedOperator.output assigner (joinContents joinFn) inputs).filterMap
          StreamElement.record?).Perm
        (((groups assigner inputs).filter fun wk => Passed inputs wk).flatMap
          (batchJoin assigner joinFn inputs)) := by
  have hproper := hassigner.isWindowAssigner.isProper
  have hcomputes := joinContents_computes joinFn
  have htimely := h.timely hassigner
  refine ⟨WindowedOperator.run_ok hproper hcomputes htimely, ?_⟩
  refine (WindowedOperator.emitted_perm hproper hcomputes htimely).trans (List.Perm.of_eq ?_)
  exact List.flatMap_congr fun wk _ => batchResults_join assigner joinFn inputs wk

/-- A pair with two common windows, and a record of another key. -/
def pairedInputs : List (Input (Either ℕ ℕ)) :=
  [.record ⟨.left 1, 7, some [1]⟩, .record ⟨.right 2, 8, some [1]⟩, .record ⟨.right 3, 8, none⟩,
    .watermark ⟨10⟩ (IterOrder.given _), .watermark ⟨15⟩ (IterOrder.backwards _)]

/-- Windows of 10 ms every 5 ms over `pairedInputs`. -/
theorem pairedInputs_equalsBatchJoin :
    ((WindowedOperator.output (SlidingWindow.mk 10 5).assignWindows (joinContents Nat.add)
          pairedInputs).filterMap StreamElement.record?).Perm
        (((groups (SlidingWindow.mk 10 5).assignWindows pairedInputs).filter
          fun wk => Passed pairedInputs wk).flatMap
            (batchJoin (SlidingWindow.mk 10 5).assignWindows Nat.add pairedInputs)) ∧
      WindowedOperator.output (SlidingWindow.mk 10 5).assignWindows (joinContents Nat.add)
          pairedInputs =
        [.record ⟨3, 8, some [1]⟩, .watermark ⟨10⟩, .record ⟨3, 8, some [1]⟩, .watermark ⟨15⟩] :=
  ⟨(windowJoin_equalsBatchJoin _ _ 10 _ (.sliding (by decide) 5 (by decide))
    ⟨by decide, by decide⟩).2, by decide +kernel⟩

end Flume
