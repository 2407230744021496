import Flume.Lib.Runs
import Flume.Runtime.Store
import Mathlib.Order.Bounds.Basic

/-!
# Which checkpoints are kept

A history of saves, commits and clean-ups is run beside the ids that have ever been committed and
the bytes that were last saved.

* **`mem_toRemove`**: a clean-up removes the committed checkpoints with `keepLastN` larger ones;
* `Ledger`: the store with its history; `Ledger.Agrees`: the invariant that connects them;
* **`Agrees.step`**, **`agrees_run`**: it holds after every history whose clean-ups keep a
  checkpoint;
* **`retention`**: what is reported, what is kept and what is read.
-/

namespace Flume.SnapshotStore

variable {fs fs' : FileSystem} {id c : U64} {name op : String} {data : Bytes} {keep : ℕ}

/-! ## One clean-up -/

theorem mem_take_iff {ids : List U64} (hsorted : ids.Pairwise (· < ·)) (hid : id ∈ ids) (keep : ℕ) :
    id ∈ ids.take (ids.length - keep) ↔ keep ≤ ids.countP fun other => id < other := by
  obtain ⟨below, above, rfl⟩ := List.append_of_mem hid
  obtain ⟨hbelow, habove, hlt⟩ := List.pairwise_append.mp hsorted
  have hnone : below.countP (fun other => id < other) = 0 := by
    rw [List.countP_eq_zero]
    intro other hother
    simpa using (hlt other hother id List.mem_cons_self).le
  have hall : above.countP (fun other => id < other) = above.length := by
    rw [List.countP_eq_length]
    intro other hother
    simpa using (List.pairwise_cons.mp habove).1 other hother
  have hcount : (below ++ id :: above).countP (fun other => id < other) = above.length := by
    rw [List.countP_append, List.countP_cons, hnone, hall]
    simp
  have hnotMem : id ∉ below := fun h => lt_irrefl id (hlt id h id List.mem_cons_self)
  rw [hcount, List.length_append, List.length_cons]
  by_cases hk : keep ≤ above.length
  · have hsucc : below.length + (above.length + 1) - keep - below.length =
        above.length - keep + 1 := by omega
    rw [List.take_append, hsucc, List.take_succ_cons]
    simp [hk]
  · have hle : below.length + (above.length + 1) - keep ≤ below.length := by omega
    rw [List.take_append_of_le_length hle]
    exact iff_of_false (fun hmem => hnotMem (List.mem_of_mem_take hmem)) hk

/-- The committed ids in increasing order. -/
def sortedIds (fs : FileSystem) : List U64 := (committed fs).insertionSort (· ≤ ·)

theorem perm_sortedIds (fs : FileSystem) : (sortedIds fs).Perm (committed fs) :=
  List.perm_insertionSort _ _

theorem pairwise_sortedIds (fs : FileSystem) : (sortedIds fs).Pairwise (· < ·) := by
  have hle : (sortedIds fs).Pairwise (· ≤ ·) := List.pairwise_insertionSort _ _
  have hne := (perm_sortedIds fs).nodup_iff.mpr (nodup_committed fs)
  exact (hle.and hne).imp fun h => lt_of_le_of_ne h.1 h.2

theorem toRemove_eq (fs : FileSystem) (keep : ℕ) :
    toRemove fs keep = (sortedIds fs).take ((sortedIds fs).length - keep) := by
  change (if (sortedIds fs).length > keep then _ else _) = _
  split_ifs with hlen
  · rfl
  · rw [Nat.sub_eq_zero_of_le (Nat.not_lt.mp hlen), List.take_zero]

/-- **A clean-up removes** the committed checkpoints with `keepLastN` or more larger ones. -/
theorem mem_toRemove : id ∈ toRemove fs keep ↔
    id ∈ committed fs ∧ keep ≤ (committed fs).countP fun other => id < other := by
  rw [toRemove_eq, ← (perm_sortedIds fs).mem_iff, ← (perm_sortedIds fs).countP_eq]
  constructor
  · intro hmem
    have hid := List.mem_of_mem_take hmem
    exact ⟨hid, (mem_take_iff (pairwise_sortedIds fs) hid keep).mp hmem⟩
  · rintro ⟨hid, hcount⟩
    exact (mem_take_iff (pairwise_sortedIds fs) hid keep).mpr hcount

theorem lookup_cleanup : (cleanup fs keep).lookup id =
    if id ∈ toRemove fs keep then none else fs.lookup id := by
  unfold cleanup
  induction toRemove fs keep generalizing fs with
  | nil => rfl
  | cons first plan ih =>
    rw [List.foldl_cons, ih]
    by_cases hfirst : id = first
    · subst hfirst
      simp
    · rw [AList.lookup_erase_ne hfirst]
      simp [hfirst]

theorem mem_committed_cleanup :
    id ∈ committed (cleanup fs keep) ↔ id ∈ committed fs ∧ id ∉ toRemove fs keep := by
  rw [mem_committed, lookup_cleanup, mem_committed]
  by_cases h : id ∈ toRemove fs keep <;> simp [h]

/-- **A clean-up leaves** the committed checkpoints with fewer than `keepLastN` larger ones. -/
theorem mem_committed_cleanup_iff : id ∈ committed (cleanup fs keep) ↔
    id ∈ committed fs ∧ (committed fs).countP (fun other => id < other) < keep := by
  rw [mem_committed_cleanup, mem_toRemove, not_and, Nat.not_le]
  exact and_congr_right fun h => ⟨fun hlt => hlt h, fun hlt _ => hlt⟩

theorem length_committed_cleanup (fs : FileSystem) (keep : ℕ) :
    (committed (cleanup fs keep)).length = min keep (committed fs).length := by
  have hnodup : (sortedIds fs).Nodup := (perm_sortedIds fs).nodup_iff.mpr (nodup_committed fs)
  have hperm : (committed (cleanup fs keep)).Perm
      ((sortedIds fs).drop ((sortedIds fs).length - keep)) := by
    rw [List.perm_ext_iff_of_nodup (nodup_committed _) (hnodup.sublist (List.drop_sublist _ _))]
    intro id
    rw [mem_committed_cleanup, toRemove_eq, ← (perm_sortedIds fs).mem_iff]
    have hsplit := List.take_append_drop ((sortedIds fs).length - keep) (sortedIds fs)
    have hdisjoint := List.nodup_append.mp (hsplit.symm ▸ hnodup)
    constructor
    · rintro ⟨hid, hnot⟩
      rw [← hsplit, List.mem_append] at hid
      exact hid.resolve_left hnot
    · intro hid
      exact ⟨List.mem_of_mem_drop hid, fun htake => hdisjoint.2.2 id htake id hid rfl⟩
  rw [hperm.length_eq, List.length_drop, (perm_sortedIds fs).length_eq]
  omega

theorem loadState_cleanup (h : id ∉ toRemove fs keep) :
    loadState (cleanup fs keep) id op = loadState fs id op := by
  unfold loadState
  rw [lookup_cleanup, if_neg h]

/-! ## The store and its history -/

/-- The operations that change the store. -/
inductive StoreOp
  | saveState (checkpointId : U64) (operatorName : String) (data : Bytes)
  | commit (checkpointId : U64)
  | cleanup (keepLastN : ℕ)

/-- A store, the ids that have ever been committed, and the bytes last saved in each checkpoint
since it was last removed. -/
structure Ledger where
  store : FileSystem
  everCommitted : List U64
  lastSaved : U64 → String → Option Bytes

namespace Ledger

/-- An empty directory. -/
def empty : Ledger where
  store := ∅
  everCommitted := []
  lastSaved _ _ := none

/-- The store after an operation. A commit that fails leaves it as it is. -/
def step (l : Ledger) : StoreOp → Ledger
  | .saveState id name data =>
    { l with
      store := saveState l.store id name data
      lastSaved := fun id' name' =>
        if id' = id ∧ name' = name then some data else l.lastSaved id' name' }
  | .commit id =>
    match commit l.store id with
    | .ok store => { l with store := store, everCommitted := id :: l.everCommitted }
    | .error _ => l
  | .cleanup keepLastN =>
    { l with
      store := cleanup l.store keepLastN
      lastSaved := fun id' name' =>
        if id' ∈ toRemove l.store keepLastN then none else l.lastSaved id' name' }

/-- The store after a history. -/
def run (ops : List StoreOp) : Ledger := Runs.exec step empty ops

/-- Each clean-up keeps a checkpoint. -/
def KeepsOne : StoreOp → Prop
  | .cleanup keepLastN => 1 ≤ keepLastN
  | _ => True

/-- The invariant: what is committed has once been committed, nothing that was committed is larger
than all that is committed now, and the files are those last saved. -/
structure Agrees (l : Ledger) : Prop where
  ever : ∀ id ∈ committed l.store, id ∈ l.everCommitted
  latest : ∀ id ∈ l.everCommitted, ∃ c ∈ committed l.store, id ≤ c
  saved : ∀ id name, l.lastSaved id name = (loadState l.store id name).toOption

theorem agrees_empty : empty.Agrees where
  ever _ h := by cases h
  latest _ h := by cases h
  saved _ _ := rfl

theorem loadState_removed (h : id ∈ toRemove fs keep) :
    (loadState (cleanup fs keep) id op).toOption = none := by
  unfold loadState
  rw [lookup_cleanup, if_pos h]
  rfl

variable {l : Ledger}

theorem Agrees.saveState (h : l.Agrees) (id : U64) (name : String) (data : Bytes) :
    (l.step (.saveState id name data)).Agrees where
  ever c hc := h.ever c (mem_committed_saveState.mp hc)
  latest c hc := by
    obtain ⟨c', hc', hle⟩ := h.latest c hc
    exact ⟨c', mem_committed_saveState.mpr hc', hle⟩
  saved id' name' := by
    change (if id' = id ∧ name' = name then _ else _) =
      (loadState (SnapshotStore.saveState l.store id name data) id' name').toOption
    rw [loadState_saveState, h.saved]
    split_ifs <;> rfl

theorem Agrees.commit (h : l.Agrees) (id : U64) : (l.step (.commit id)).Agrees := by
  unfold Ledger.step
  dsimp only
  cases hcommit : SnapshotStore.commit l.store id with
  | error e => exact h
  | ok store =>
    refine ⟨fun c hc => ?_, fun c hc => ?_, fun id' name => ?_⟩
    · rcases (mem_committed_commit hcommit).mp hc with rfl | hold
      · exact List.mem_cons_self
      · exact List.mem_cons_of_mem _ (h.ever c hold)
    · rcases List.mem_cons.mp hc with rfl | hold
      · exact ⟨c, (mem_committed_commit hcommit).mpr (.inl rfl), le_rfl⟩
      · obtain ⟨c', hc', hle⟩ := h.latest c hold
        exact ⟨c', (mem_committed_commit hcommit).mpr (.inr hc'), hle⟩
    · rw [loadState_commit hcommit]
      exact h.saved id' name

theorem Agrees.cleanup (h : l.Agrees) {keep : ℕ} (hkeep : 1 ≤ keep) :
    (l.step (.cleanup keep)).Agrees where
  ever c hc := h.ever c (mem_committed_cleanup.mp hc).1
  latest id hid := by
    obtain ⟨c, hc, hle⟩ := h.latest id hid
    cases hlatest : latestCheckpoint l.store with
    | none => exact absurd hc (latestCheckpoint_eq_none.mp hlatest c)
    | some best =>
      have hbest := (removes_toRemove l.store keep).latest_notMem hkeep hlatest
      obtain ⟨hmem, hmax⟩ := latestCheckpoint_eq_some.mp hlatest
      exact ⟨best, mem_committed_cleanup.mpr ⟨hmem, hbest⟩, hle.trans (hmax c hc)⟩
  saved id name := by
    change (if id ∈ toRemove l.store keep then none else l.lastSaved id name) =
      (loadState (SnapshotStore.cleanup l.store keep) id name).toOption
    split_ifs with hremoved
    · exact (loadState_removed hremoved).symm
    · rw [loadState_cleanup hremoved]
      exact h.saved id name

/-- **One operation.** -/
theorem Agrees.step (h : l.Agrees) {op : StoreOp} (hop : KeepsOne op) : (l.step op).Agrees := by
  cases op with
  | saveState id name data => exact h.saveState id name data
  | commit id => exact h.commit id
  | cleanup keep => exact h.cleanup hop

/-- **A history** whose clean-ups keep a checkpoint. -/
theorem agrees_run {ops : List StoreOp} (h : ∀ op ∈ ops, KeepsOne op) : (run ops).Agrees := by
  induction ops using List.reverseRecOn with
  | nil => exact agrees_empty
  | append_singleton ops op ih =>
    have hrun : run (ops ++ [op]) = (run ops).step op := Runs.exec_concat ops op
    rw [hrun]
    exact (ih fun op' hop' => h op' (List.mem_append_left _ hop')).step
      (h op (List.mem_append_right _ List.mem_cons_self))

theorem Agrees.latestCheckpoint_eq (h : l.Agrees) :
    latestCheckpoint l.store = l.everCommitted.max? := by
  cases hlatest : latestCheckpoint l.store with
  | none =>
    have hnil : l.everCommitted = [] := by
      refine List.eq_nil_iff_forall_not_mem.mpr fun id hid => ?_
      obtain ⟨c, hc, -⟩ := h.latest id hid
      exact latestCheckpoint_eq_none.mp hlatest c hc
    rw [hnil]
    rfl
  | some best =>
    obtain ⟨hmem, hmax⟩ := latestCheckpoint_eq_some.mp hlatest
    refine (List.max?_eq_some_iff.mpr ⟨h.ever best hmem, fun id hid => ?_⟩).symm
    obtain ⟨c, hc, hle⟩ := h.latest id hid
    exact hle.trans (hmax c hc)

/-! ## Retention -/

/-- **What is retained**: the largest id ever committed is reported, and it has its marker; a
checkpoint reads what was last saved; a clean-up leaves the largest committed checkpoints, as many
as it is to keep, and neither these nor those without a marker read differently afterwards. -/
structure Retains (l : Ledger) : Prop where
  latest : latestCheckpoint l.store = l.everCommitted.max?
  marked : ∀ id, latestCheckpoint l.store = some id → id ∈ committed l.store
  loads : ∀ id name, (loadState l.store id name).toOption = l.lastSaved id name
  kept : ∀ keep id, id ∈ committed (l.step (.cleanup keep)).store ↔
    id ∈ committed l.store ∧ (committed l.store).countP (fun other => id < other) < keep
  count : ∀ keep, (committed (l.step (.cleanup keep)).store).length =
    min keep (committed l.store).length
  unchanged : ∀ keep id, id ∈ committed (l.step (.cleanup keep)).store ∨ id ∉ committed l.store →
    ∀ name, loadState (l.step (.cleanup keep)).store id name = loadState l.store id name ∧
      (l.step (.cleanup keep)).lastSaved id name = l.lastSaved id name

theorem Agrees.retains (h : l.Agrees) : l.Retains where
  latest := h.latestCheckpoint_eq
  marked id hid := (latestCheckpoint_eq_some.mp hid).1
  loads id name := (h.saved id name).symm
  kept _ _ := mem_committed_cleanup_iff
  count keep := length_committed_cleanup l.store keep
  unchanged keep id hid name := by
    have hnot : id ∉ toRemove l.store keep := by
      rcases hid with hkept | hunmarked
      · exact (mem_committed_cleanup.mp hkept).2
      · exact fun hremoved => hunmarked (mem_toRemove.mp hremoved).1
    exact ⟨loadState_cleanup hnot, if_neg hnot⟩

/-- **Retention**, after every history whose clean-ups keep a checkpoint. -/
theorem retention (ops : List StoreOp) (h : ∀ op ∈ ops, KeepsOne op) : (run ops).Retains :=
  (agrees_run h).retains

/-- Two commits out of order and a clean-up that keeps one of them; then a checkpoint without a
commit, and a commit without a checkpoint. -/
def outOfOrder : List StoreOp :=
  [.saveState 3 "map" [3], .commit 3, .saveState 1 "map" [1], .commit 1, .cleanup 1,
    .saveState 2 "map" [2], .commit 4]

theorem outOfOrder_retains : (run outOfOrder).Retains ∧
    latestCheckpoint (run outOfOrder).store = some 3 ∧
      committed (run outOfOrder).store = [3] := by
  refine ⟨retention outOfOrder ?_, by decide, by decide⟩
  simp [outOfOrder, KeepsOne]

end Ledger
end Flume.SnapshotStore
