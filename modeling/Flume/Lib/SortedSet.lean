import Mathlib.Data.List.Basic
import Mathlib.Tactic

/-!
# Sorted sets

Rust's `BTreeSet<K>`: its elements in strictly ascending order.

* `SortedSet.insert`, `SortedSet.remove`, `SortedSet.splitOff`;
* **`mem_insert`**, **`mem_remove`**, **`mem_splitOff`**: what they do to the elements;
* `Update`, `lastOf`: a sequence of insertions and removals, and the last of them for an element;
* **`mem_applyAll`**: the last update of an element decides whether the set has it.
-/

variable {κ : Type*} [LinearOrder κ]

/-- A set, as the list of its elements in strictly ascending order. -/
@[ext]
structure SortedSet (κ : Type*) [LinearOrder κ] where
  elems : List κ
  sorted : elems.Pairwise (· < ·)

namespace SortedSet

instance : Membership κ (SortedSet κ) := ⟨fun s k => k ∈ s.elems⟩

instance (k : κ) (s : SortedSet κ) : Decidable (k ∈ s) := inferInstanceAs (Decidable (k ∈ s.elems))

/-- The empty set. -/
def empty : SortedSet κ := ⟨[], List.Pairwise.nil⟩

/-- Inserts an element into an ascending list that may have it already. -/
def insertSorted (k : κ) : List κ → List κ
  | [] => [k]
  | b :: bs =>
    if k < b then k :: b :: bs
    else if b < k then b :: insertSorted k bs
    else b :: bs

theorem mem_insertSorted {k x : κ} {bs : List κ} : x ∈ insertSorted k bs ↔ x = k ∨ x ∈ bs := by
  induction bs with
  | nil => simp [insertSorted]
  | cons b bs ih =>
    rw [insertSorted]
    split_ifs with h₁ h₂
    · exact List.mem_cons
    · rw [List.mem_cons, ih, List.mem_cons]
      exact or_left_comm
    · obtain rfl : b = k := le_antisymm (not_lt.mp h₁) (not_lt.mp h₂)
      simp

theorem sorted_insertSorted (k : κ) {bs : List κ} (h : bs.Pairwise (· < ·)) :
    (insertSorted k bs).Pairwise (· < ·) := by
  induction bs with
  | nil => exact List.pairwise_singleton _ _
  | cons b bs ih =>
    obtain ⟨hb, hbs⟩ := List.pairwise_cons.mp h
    rw [insertSorted]
    split_ifs with h₁ h₂
    · exact List.pairwise_cons.mpr
        ⟨List.forall_mem_cons.mpr ⟨h₁, fun b' hb' => h₁.trans (hb b' hb')⟩, h⟩
    · refine List.pairwise_cons.mpr ⟨fun x hx => ?_, ih hbs⟩
      rcases mem_insertSorted.mp hx with rfl | hx
      · exact h₂
      · exact hb x hx
    · exact h

/-- Inserts an element, if the set does not have it. -/
def insert (s : SortedSet κ) (k : κ) : SortedSet κ :=
  ⟨insertSorted k s.elems, sorted_insertSorted k s.sorted⟩

/-- Removes an element, if the set has it. -/
def remove (s : SortedSet κ) (k : κ) : SortedSet κ :=
  ⟨s.elems.filter fun x => x ≠ k, s.sorted.filter _⟩

/-- The elements below `k`, and those from `k` on. -/
def splitOff (s : SortedSet κ) (k : κ) : SortedSet κ × SortedSet κ :=
  (⟨s.elems.filter fun x => x < k, s.sorted.filter _⟩,
    ⟨s.elems.filter fun x => k ≤ x, s.sorted.filter _⟩)

variable {s : SortedSet κ} {k x : κ}

@[simp] theorem notMem_empty : x ∉ (empty : SortedSet κ) := List.not_mem_nil

@[simp] theorem mem_elems : x ∈ s.elems ↔ x ∈ s := Iff.rfl

@[simp] theorem mem_insert : x ∈ s.insert k ↔ x = k ∨ x ∈ s := mem_insertSorted

@[simp] theorem mem_remove : x ∈ s.remove k ↔ x ∈ s ∧ x ≠ k := by
  change x ∈ s.elems.filter _ ↔ _
  rw [List.mem_filter, decide_eq_true_iff, mem_elems]

@[simp] theorem mem_splitOff_fst : x ∈ (s.splitOff k).1 ↔ x ∈ s ∧ x < k := by
  change x ∈ s.elems.filter _ ↔ _
  rw [List.mem_filter, decide_eq_true_iff, mem_elems]

@[simp] theorem mem_splitOff_snd : x ∈ (s.splitOff k).2 ↔ x ∈ s ∧ k ≤ x := by
  change x ∈ s.elems.filter _ ↔ _
  rw [List.mem_filter, decide_eq_true_iff, mem_elems]

/-! ## Sequences of updates -/

/-- An insertion or a removal. -/
inductive Update (κ : Type*)
  | insert (k : κ)
  | remove (k : κ)

/-- Performs an update. -/
def apply (s : SortedSet κ) : Update κ → SortedSet κ
  | .insert k => s.insert k
  | .remove k => s.remove k

/-- Whether the update inserts or removes `x`. -/
def Update.presence? (x : κ) : Update κ → Option Bool
  | insert k => if k = x then some true else none
  | remove k => if k = x then some false else none

/-- Whether the last update of `x` inserts or removes it. -/
def lastOf (x : κ) (us : List (Update κ)) : Option Bool :=
  (us.filterMap (Update.presence? x)).getLast?

@[simp] theorem lastOf_nil : lastOf x ([] : List (Update κ)) = none := rfl

theorem lastOf_append (us vs : List (Update κ)) :
    lastOf x (us ++ vs) = (lastOf x vs).or (lastOf x us) := by
  unfold lastOf
  rw [List.filterMap_append, List.getLast?_append]

@[simp] theorem lastOf_singleton (u : Update κ) : lastOf x [u] = u.presence? x := by
  unfold lastOf
  cases hu : u.presence? x <;> simp [hu]

theorem lastOf_concat (us : List (Update κ)) (u : Update κ) :
    lastOf x (us ++ [u]) = (u.presence? x).or (lastOf x us) := by
  rw [lastOf_append, lastOf_singleton]

/-- **The last update of an element decides** whether the set has it. -/
theorem mem_applyAll {us : List (Update κ)} :
    x ∈ us.foldl apply s ↔ lastOf x us = some true ∨ lastOf x us = none ∧ x ∈ s := by
  induction us using List.reverseRecOn with
  | nil => simp
  | append_singleton us u ih =>
    rw [List.foldl_append, List.foldl_cons, List.foldl_nil, lastOf_concat]
    cases u with
    | insert k =>
      by_cases hk : k = x
      · simp [apply, Update.presence?, hk]
      · simp [apply, Update.presence?, hk, Ne.symm hk, ih]
    | remove k =>
      by_cases hk : k = x
      · simp [apply, Update.presence?, hk]
      · simp [apply, Update.presence?, hk, Ne.symm hk, ih]

theorem lastOf_map_remove (ks : List κ) :
    lastOf x (ks.map Update.remove) = if x ∈ ks then some false else none := by
  induction ks using List.reverseRecOn with
  | nil => rfl
  | append_singleton ks k ih =>
    rw [List.map_append, List.map_singleton, lastOf_concat, ih]
    by_cases hk : k = x
    · simp [Update.presence?, hk]
    · simp [Update.presence?, hk, Ne.symm hk]

end SortedSet
