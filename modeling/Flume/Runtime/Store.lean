import Mathlib.Data.List.AList
import Mathlib.Data.List.Sort
import Flume.Core.Record

/-!
# The snapshot store

The checkpoint directory as a map: `cp-{id}` holds the states of the operators and perhaps the
marker `_complete`. Each operation takes effect in one step.

* `SnapshotStore.saveState`, `commit`, `loadState`, `latestCheckpoint`, `cleanup`: the operations;
* **`latestCheckpoint_eq_some`**: the latest checkpoint is the committed one with the largest id;
* `Removes`: a list of directories that a clean-up may remove, from the smallest committed id on;
  **`removes_toRemove`**: `cleanup` removes such a list.
-/

namespace Flume

/-- The directory `cp-{id}`: the files `{operator_name}.bin`, and whether `_complete` is there. -/
structure CheckpointDir where
  files : AList fun _ : String => Bytes
  complete : Bool
  deriving DecidableEq

/-- The directory `base_path`. -/
abbrev FileSystem : Type := AList fun _ : U64 => CheckpointDir

namespace SnapshotStore

/-- `save_state`, when the file system lets it. -/
def saveState (fs : FileSystem) (checkpointId : U64) (operatorName : String) (data : Bytes) :
    FileSystem :=
  let dir := (fs.lookup checkpointId).getD { files := ∅, complete := false }
  fs.insert checkpointId { dir with files := dir.files.insert operatorName data }

/-- `commit`, which does not create the directory. -/
def commit (fs : FileSystem) (checkpointId : U64) : Except FlumeError FileSystem :=
  match fs.lookup checkpointId with
  | none => .error .io
  | some dir => .ok (fs.insert checkpointId { dir with complete := true })

/-- `load_state`. -/
def loadState (fs : FileSystem) (checkpointId : U64) (operatorName : String) :
    Except FlumeError Bytes :=
  match (fs.lookup checkpointId).bind fun dir => dir.files.lookup operatorName with
  | none => .error .io
  | some data => .ok data

/-- The ids of the directories with a marker, in the order of `read_dir`. -/
def committed (fs : FileSystem) : List U64 :=
  fs.entries.filterMap fun entry => if entry.2.complete then some entry.1 else none

/-- `latest_checkpoint`. -/
def latestCheckpoint (fs : FileSystem) : Option U64 :=
  (committed fs).foldl (fun best id => some (best.elim id fun b => max b id)) none

/-- The directories that `cleanup` is going to remove. -/
def toRemove (fs : FileSystem) (keepLastN : ℕ) : List U64 :=
  let ids := (committed fs).insertionSort (· ≤ ·)
  if ids.length > keepLastN then ids.take (ids.length - keepLastN) else []

/-- `cleanup`. -/
def cleanup (fs : FileSystem) (keepLastN : ℕ) : FileSystem :=
  (toRemove fs keepLastN).foldl (fun fs id => fs.erase id) fs

variable {fs fs' : FileSystem} {id c : U64} {name op : String} {data : Bytes}

/-! ## Committed checkpoints -/

theorem mem_committed : id ∈ committed fs ↔ ∃ dir, fs.lookup id = some dir ∧ dir.complete := by
  unfold committed
  rw [List.mem_filterMap]
  constructor
  · rintro ⟨⟨k, dir⟩, hmem, hid⟩
    split_ifs at hid with hc
    obtain rfl := Option.some.inj hid
    exact ⟨dir, AList.mem_lookup_iff.mpr hmem, hc⟩
  · rintro ⟨dir, hl, hc⟩
    exact ⟨⟨id, dir⟩, AList.mem_lookup_iff.mp hl, by simp only; rw [if_pos hc]⟩

theorem nodup_committed (fs : FileSystem) : (committed fs).Nodup := by
  have hsub : (committed fs).Sublist fs.keys := by
    unfold committed AList.keys List.keys
    induction fs.entries with
    | nil => exact .slnil
    | cons entry l ih =>
      rw [List.filterMap_cons, List.map_cons]
      split_ifs
      · exact ih.cons_cons _
      · exact ih.cons _
  exact hsub.nodup fs.keys_nodup

theorem foldl_best (l : List U64) (b : U64) : ∃ m,
    l.foldl (fun best id => some (best.elim id fun b => max b id)) (some b) = some m ∧
      (m = b ∨ m ∈ l) ∧ b ≤ m ∧ ∀ id ∈ l, id ≤ m := by
  induction l generalizing b with
  | nil => exact ⟨b, rfl, .inl rfl, le_rfl, fun id hid => absurd hid List.not_mem_nil⟩
  | cons a l ih =>
    obtain ⟨m, hm, hmem, hle, hall⟩ := ih (max b a)
    refine ⟨m, hm, ?_, (le_max_left b a).trans hle, fun id hid => ?_⟩
    · rcases hmem with rfl | hmem
      · rcases max_choice b a with h | h
        · exact .inl h
        · exact .inr (by rw [h]; exact List.mem_cons_self)
      · exact .inr (List.mem_cons_of_mem _ hmem)
    · rcases List.mem_cons.mp hid with rfl | hid
      · exact (le_max_right b id).trans hle
      · exact hall id hid

/-- **The latest checkpoint is the committed one with the largest id.** -/
theorem latestCheckpoint_eq_some :
    latestCheckpoint fs = some c ↔ c ∈ committed fs ∧ ∀ id ∈ committed fs, id ≤ c := by
  unfold latestCheckpoint
  cases committed fs with
  | nil => simp
  | cons a l =>
    obtain ⟨m, hm, hmem, hle, hall⟩ := foldl_best l a
    have hmem' : m ∈ a :: l := by
      rcases hmem with rfl | hmem
      · exact List.mem_cons_self
      · exact List.mem_cons_of_mem _ hmem
    have hall' : ∀ id ∈ a :: l, id ≤ m := fun id hid => by
      rcases List.mem_cons.mp hid with rfl | hid
      · exact hle
      · exact hall id hid
    rw [List.foldl_cons, Option.elim_none, hm]
    constructor
    · intro h
      obtain rfl := Option.some.inj h
      exact ⟨hmem', hall'⟩
    · rintro ⟨h1, h2⟩
      rw [le_antisymm (h2 m hmem') (hall' c h1)]

theorem latestCheckpoint_eq_none : latestCheckpoint fs = none ↔ ∀ id, id ∉ committed fs := by
  unfold latestCheckpoint
  cases committed fs with
  | nil => simp
  | cons a l =>
    obtain ⟨m, hm, -⟩ := foldl_best l a
    rw [List.foldl_cons, Option.elim_none, hm]
    simp only [reduceCtorEq, false_iff, not_forall, not_not]
    exact ⟨a, List.mem_cons_self⟩

theorem latestCheckpoint_congr (h : ∀ id, id ∈ committed fs' ↔ id ∈ committed fs) :
    latestCheckpoint fs' = latestCheckpoint fs := by
  cases hl : latestCheckpoint fs with
  | none =>
    rw [latestCheckpoint_eq_none] at hl ⊢
    exact fun id hid => hl id ((h id).mp hid)
  | some c =>
    rw [latestCheckpoint_eq_some] at hl ⊢
    exact ⟨(h c).mpr hl.1, fun id hid => hl.2 id ((h id).mp hid)⟩

/-! ## Saving, committing and removing -/

theorem lookup_saveState : (saveState fs c name data).lookup id =
    if id = c then
      some { (fs.lookup c).getD { files := ∅, complete := false } with
        files := ((fs.lookup c).getD { files := ∅, complete := false }).files.insert name data }
    else fs.lookup id := by
  unfold saveState
  split_ifs with h
  · rw [h, AList.lookup_insert]
  · rw [AList.lookup_insert_ne h]

theorem mem_committed_saveState :
    id ∈ committed (saveState fs c name data) ↔ id ∈ committed fs := by
  rw [mem_committed, mem_committed, lookup_saveState]
  split_ifs with h
  · subst h
    cases fs.lookup id <;> simp
  · rfl

@[simp] theorem latestCheckpoint_saveState :
    latestCheckpoint (saveState fs c name data) = latestCheckpoint fs :=
  latestCheckpoint_congr fun _ => mem_committed_saveState

theorem loadState_saveState : loadState (saveState fs c name data) id op =
    if id = c ∧ op = name then .ok data else loadState fs id op := by
  unfold loadState
  rw [lookup_saveState]
  by_cases hid : id = c
  · subst hid
    rw [if_pos rfl, Option.bind_some]
    by_cases hop : op = name
    · subst hop
      rw [if_pos ⟨rfl, rfl⟩, AList.lookup_insert]
    · rw [if_neg (fun h => hop h.2), AList.lookup_insert_ne hop]
      cases fs.lookup id <;> rfl
  · rw [if_neg hid, if_neg (fun h => hid h.1)]

theorem commit_eq_ok (h : commit fs c = .ok fs') :
    ∃ dir, fs.lookup c = some dir ∧ fs' = fs.insert c { dir with complete := true } := by
  unfold commit at h
  split at h
  · cases h
  · rename_i dir hdir
    exact ⟨dir, hdir, (Except.ok.inj h).symm⟩

theorem mem_committed_commit (h : commit fs c = .ok fs') :
    id ∈ committed fs' ↔ id = c ∨ id ∈ committed fs := by
  obtain ⟨dir, hdir, rfl⟩ := commit_eq_ok h
  rw [mem_committed, mem_committed]
  by_cases hid : id = c
  · subst hid
    rw [AList.lookup_insert]
    simp
  · rw [AList.lookup_insert_ne hid]
    simp [hid]

theorem loadState_commit (h : commit fs c = .ok fs') : loadState fs' id op = loadState fs id op := by
  obtain ⟨dir, hdir, rfl⟩ := commit_eq_ok h
  unfold loadState
  by_cases hid : id = c
  · subst hid
    rw [AList.lookup_insert, hdir]; rfl
  · rw [AList.lookup_insert_ne hid]

theorem mem_committed_erase : id ∈ committed (fs.erase c) ↔ id ≠ c ∧ id ∈ committed fs := by
  rw [mem_committed, mem_committed]
  by_cases hid : id = c
  · subst hid
    rw [AList.lookup_erase]
    simp
  · rw [AList.lookup_erase_ne hid]
    simp [hid]

theorem loadState_erase_of_ne (h : id ≠ c) : loadState (fs.erase c) id op = loadState fs id op := by
  unfold loadState
  rw [AList.lookup_erase_ne h]

theorem latestCheckpoint_commit_of_le (h : commit fs c = .ok fs')
    (hle : ∀ l, latestCheckpoint fs = some l → l ≤ c) : latestCheckpoint fs' = some c := by
  rw [latestCheckpoint_eq_some]
  refine ⟨(mem_committed_commit h).mpr (.inl rfl), fun id hid => ?_⟩
  rcases (mem_committed_commit h).mp hid with rfl | hid
  · exact le_rfl
  · cases hl : latestCheckpoint fs with
    | none => exact absurd hid (latestCheckpoint_eq_none.mp hl id)
    | some l => exact ((latestCheckpoint_eq_some.mp hl).2 id hid).trans (hle l hl)

theorem latestCheckpoint_commit_of_lt (h : commit fs c = .ok fs') {l : U64}
    (hl : latestCheckpoint fs = some l) (hlt : c ≤ l) : latestCheckpoint fs' = some l := by
  rw [latestCheckpoint_eq_some] at hl ⊢
  refine ⟨(mem_committed_commit h).mpr (.inr hl.1), fun id hid => ?_⟩
  rcases (mem_committed_commit h).mp hid with rfl | hid
  · exact hlt
  · exact hl.2 id hid

/-! ## Clean-up -/

/-- `plan` is the beginning of the committed ids in increasing order, of which at least `keep` are
left. -/
def Removes (fs : FileSystem) (plan : List U64) (keep : ℕ) : Prop :=
  ∃ kept, (plan ++ kept).Pairwise (· < ·) ∧ (∀ id, id ∈ committed fs ↔ id ∈ plan ++ kept) ∧
    (plan ≠ [] → keep ≤ kept.length)

theorem removes_toRemove (fs : FileSystem) (keep : ℕ) : Removes fs (toRemove fs keep) keep := by
  set ids := (committed fs).insertionSort (· ≤ ·) with hids
  have hperm : ids.Perm (committed fs) := List.perm_insertionSort _ _
  have hsorted : ids.Pairwise (· < ·) := by
    have hle : ids.Pairwise (· ≤ ·) := List.pairwise_insertionSort _ _
    exact (hle.and (hperm.nodup_iff.mpr (nodup_committed fs))).imp fun h => lt_of_le_of_ne h.1 h.2
  unfold toRemove
  simp only [← hids]
  split_ifs with hlen
  · refine ⟨ids.drop (ids.length - keep), ?_, fun id => ?_, fun _ => ?_⟩
    · rw [List.take_append_drop]; exact hsorted
    · rw [List.take_append_drop]; exact hperm.mem_iff.symm
    · rw [List.length_drop]; omega
  · exact ⟨ids, hsorted, fun id => hperm.mem_iff.symm, fun h => absurd rfl h⟩

theorem Removes.erase {plan : List U64} {keep : ℕ} (h : Removes fs (id :: plan) keep) :
    Removes (fs.erase id) plan keep := by
  obtain ⟨kept, hsorted, hmem, hkeep⟩ := h
  rw [List.cons_append, List.pairwise_cons] at hsorted
  refine ⟨kept, hsorted.2, fun k => ?_, fun _ => hkeep (by simp)⟩
  rw [mem_committed_erase, hmem, List.cons_append, List.mem_cons]
  constructor
  · rintro ⟨hne, rfl | hk⟩
    · exact absurd rfl hne
    · exact hk
  · intro hk
    exact ⟨(hsorted.1 k hk).ne', .inr hk⟩

theorem Removes.le {plan : List U64} {keep : ℕ} (h : Removes fs (id :: plan) keep) {k : U64}
    (hk : k ∈ committed fs) : id ≤ k := by
  obtain ⟨kept, hsorted, hmem, -⟩ := h
  rw [List.cons_append, List.pairwise_cons] at hsorted
  rcases List.mem_cons.mp ((hmem k).mp hk) with rfl | hk
  · exact le_rfl
  · exact (hsorted.1 k hk).le

theorem Removes.latest_notMem {plan : List U64} {keep : ℕ} (h : Removes fs plan keep)
    (hkeep : 1 ≤ keep) (hc : latestCheckpoint fs = some c) : c ∉ plan := by
  obtain ⟨kept, hsorted, hmem, hlen⟩ := h
  intro hcp
  obtain ⟨k, hk⟩ : ∃ k, k ∈ kept := by
    cases kept with
    | nil => exact absurd (hlen (List.ne_nil_of_mem hcp)) (by simp; omega)
    | cons k kept => exact ⟨k, List.mem_cons_self⟩
  have hlt : c < k := (List.pairwise_append.mp hsorted).2.2 c hcp k hk
  have hle : k ≤ c := (latestCheckpoint_eq_some.mp hc).2 k
    ((hmem k).mpr (List.mem_append_right _ hk))
  exact absurd hlt (not_lt.mpr hle)

theorem Removes.latestCheckpoint_erase {plan : List U64} {keep : ℕ}
    (h : Removes fs (id :: plan) keep) (hc : latestCheckpoint (fs.erase id) = some c) :
    latestCheckpoint fs = some c ∧ id ≠ c := by
  rw [latestCheckpoint_eq_some] at hc
  obtain ⟨hmem, hle⟩ := hc
  obtain ⟨hne, hmem⟩ := mem_committed_erase.mp hmem
  refine ⟨latestCheckpoint_eq_some.mpr ⟨hmem, fun k hk => ?_⟩, hne.symm⟩
  by_cases hkid : k = id
  · rw [hkid]; exact h.le hmem
  · exact hle k (mem_committed_erase.mpr ⟨hkid, hk⟩)

theorem latestCheckpoint_erase_of_ne (hc : latestCheckpoint fs = some c) (hne : c ≠ id) :
    latestCheckpoint (fs.erase id) = some c := by
  rw [latestCheckpoint_eq_some] at hc ⊢
  exact ⟨mem_committed_erase.mpr ⟨hne, hc.1⟩,
    fun k hk => hc.2 k (mem_committed_erase.mp hk).2⟩

end SnapshotStore

end Flume
