import Mathlib.Data.List.Basic
import Mathlib.Tactic

/-!
# Sorted maps of buckets

Rust's `BTreeMap<K, Vec<V>>`: a list of buckets in strictly ascending order of their keys.

* `SortedMap.push`: `entry(k).or_default().push(a)`;
* `SortedMap.range`, `SortedMap.keepFrom`: the buckets of a range of keys, and the removal of all
  buckets below a key;
* **`SortedMap.toList_push`**, **`SortedMap.flatten_range`**: the contents, as pairs of a key and a
  value, after a push and within a range;
* **`SortedMap.keepFrom_push`**, **`SortedMap.range_keepFrom`**: a removal is not seen above the
  key.
-/

variable {κ α : Type*} [LinearOrder κ]

/-- Buckets in strictly ascending order of their keys. -/
@[ext]
structure SortedMap (κ α : Type*) [LinearOrder κ] where
  buckets : List (κ × List α)
  sorted : buckets.Pairwise fun b b' => b.1 < b'.1

namespace SortedMap

/-- The empty map. -/
def empty : SortedMap κ α := ⟨[], List.Pairwise.nil⟩

/-- Appends a value to the bucket of `k`, which is created if missing. -/
def pushBucket (k : κ) (a : α) : List (κ × List α) → List (κ × List α)
  | [] => [(k, [a])]
  | b :: bs =>
    if k < b.1 then (k, [a]) :: b :: bs
    else if b.1 < k then b :: pushBucket k a bs
    else (b.1, b.2 ++ [a]) :: bs

theorem lt_of_mem_pushBucket {k k' : κ} {a : α} {bs : List (κ × List α)} (hk : k' < k)
    (h : ∀ b ∈ bs, k' < b.1) : ∀ b ∈ pushBucket k a bs, k' < b.1 := by
  induction bs with
  | nil => simpa [pushBucket] using hk
  | cons b bs ih =>
    have hb : k' < b.1 := h b List.mem_cons_self
    have hbs : ∀ b' ∈ bs, k' < b'.1 := fun b' hb' => h b' (List.mem_cons_of_mem _ hb')
    rw [pushBucket]
    split_ifs
    · exact List.forall_mem_cons.mpr ⟨hk, h⟩
    · exact List.forall_mem_cons.mpr ⟨hb, ih hbs⟩
    · exact List.forall_mem_cons.mpr ⟨hb, hbs⟩

theorem sorted_pushBucket (k : κ) (a : α) {bs : List (κ × List α)}
    (h : bs.Pairwise fun b b' => b.1 < b'.1) :
    (pushBucket k a bs).Pairwise fun b b' => b.1 < b'.1 := by
  induction bs with
  | nil => exact List.pairwise_singleton _ _
  | cons b bs ih =>
    obtain ⟨hb, hbs⟩ := List.pairwise_cons.mp h
    rw [pushBucket]
    split_ifs with h₁ h₂
    · exact List.pairwise_cons.mpr
        ⟨List.forall_mem_cons.mpr ⟨h₁, fun b' hb' => h₁.trans (hb b' hb')⟩, h⟩
    · exact List.pairwise_cons.mpr ⟨lt_of_mem_pushBucket h₂ hb, ih hbs⟩
    · exact List.pairwise_cons.mpr ⟨hb, hbs⟩

/-- Appends a value to the bucket of `k`. -/
def push (m : SortedMap κ α) (k : κ) (a : α) : SortedMap κ α :=
  ⟨pushBucket k a m.buckets, sorted_pushBucket k a m.sorted⟩

/-- The buckets with keys from `lo` to `hi`, inclusive, in ascending order. -/
def range (m : SortedMap κ α) (lo hi : κ) : List (κ × List α) :=
  m.buckets.filter fun b => lo ≤ b.1 ∧ b.1 ≤ hi

/-- The map without the buckets below `k`. -/
def keepFrom (m : SortedMap κ α) (k : κ) : SortedMap κ α :=
  ⟨m.buckets.filter fun b => k ≤ b.1, m.sorted.filter _⟩

/-- Pairs of a key and a value, bucket by bucket. -/
def flatten (bs : List (κ × List α)) : List (κ × α) := bs.flatMap fun b => b.2.map fun a => (b.1, a)

/-- The contents of a map. -/
def toList (m : SortedMap κ α) : List (κ × α) := flatten m.buckets

variable {m : SortedMap κ α} {k k' lo hi : κ} {a : α}

theorem flatten_pushBucket (bs : List (κ × List α)) :
    (flatten (pushBucket k a bs)).Perm (flatten bs ++ [(k, a)]) := by
  induction bs with
  | nil => exact List.Perm.refl _
  | cons b bs ih =>
    have hcons : ∀ (b : κ × List α) bs,
        flatten (b :: bs) = b.2.map (fun a => (b.1, a)) ++ flatten bs := fun _ _ => rfl
    rw [pushBucket]
    split_ifs with h₁ h₂
    · exact (List.perm_append_singleton (k, a) (flatten (b :: bs))).symm
    · rw [hcons, hcons, List.append_assoc]
      exact ih.append_left _
    · obtain rfl : b.1 = k := le_antisymm (not_lt.mp h₁) (not_lt.mp h₂)
      rw [hcons, hcons, List.map_append, List.append_assoc, List.append_assoc]
      exact List.perm_append_comm.append_left _

/-- **A push adds one pair.** -/
theorem toList_push : (m.push k a).toList.Perm (m.toList ++ [(k, a)]) := flatten_pushBucket _

omit [LinearOrder κ] in
theorem flatten_filter (p : κ → Bool) (bs : List (κ × List α)) :
    flatten (bs.filter fun b => p b.1) = (flatten bs).filter fun x => p x.1 := by
  induction bs with
  | nil => rfl
  | cons b bs ih =>
    have hhead : (b.2.map fun a => (b.1, a)).filter (fun x => p x.1) =
        if p b.1 then b.2.map fun a => (b.1, a) else [] := by
      rw [List.filter_map]
      by_cases hp : p b.1 <;> simp [Function.comp_def, hp]
    have hcons : flatten (b :: bs) = b.2.map (fun a => (b.1, a)) ++ flatten bs := rfl
    rw [hcons, List.filter_append, hhead, ← ih, List.filter_cons]
    by_cases hp : p b.1
    · simp only [hp, if_true]; rfl
    · simp only [hp]; rfl

/-- **A range holds the pairs whose keys lie in it.** -/
theorem flatten_range :
    flatten (m.range lo hi) = m.toList.filter fun x => decide (lo ≤ x.1 ∧ x.1 ≤ hi) :=
  flatten_filter (fun k => decide (lo ≤ k ∧ k ≤ hi)) m.buckets

/-! ## Removals -/

theorem filter_pushBucket (hk : k' ≤ k) (bs : List (κ × List α)) :
    (pushBucket k a bs).filter (fun b => k' ≤ b.1) =
      pushBucket k a (bs.filter fun b => k' ≤ b.1) := by
  induction bs with
  | nil => simp [pushBucket, hk]
  | cons b bs ih =>
    by_cases hb : k' ≤ b.1
    · rw [List.filter_cons_of_pos (by simpa using hb), pushBucket, pushBucket]
      split_ifs
      · simp [hk, hb]
      · rw [List.filter_cons_of_pos (by simpa using hb), ih]
      · rw [List.filter_cons_of_pos (by simpa using hb)]
    · have hlt : b.1 < k := lt_of_lt_of_le (not_le.mp hb) hk
      rw [pushBucket, if_neg hlt.not_gt, if_pos hlt, List.filter_cons_of_neg (by simpa using hb),
        List.filter_cons_of_neg (by simpa using hb), ih]

/-- **A removal is not seen by a push above it.** -/
theorem keepFrom_push (hk : k' ≤ k) : (m.push k a).keepFrom k' = (m.keepFrom k').push k a :=
  SortedMap.ext (filter_pushBucket hk m.buckets)

/-- **A removal is not seen by a range above it.** -/
theorem range_keepFrom (hk : k ≤ lo) : (m.keepFrom k).range lo hi = m.range lo hi := by
  unfold range keepFrom
  rw [List.filter_filter]
  refine List.filter_congr fun b _ => ?_
  rw [Bool.and_eq_left_iff_imp, decide_eq_true_iff, decide_eq_true_iff]
  exact fun h => hk.trans h.1

theorem keepFrom_keepFrom : (m.keepFrom k).keepFrom k' = m.keepFrom (max k k') := by
  apply SortedMap.ext
  show (m.buckets.filter _).filter _ = m.buckets.filter _
  rw [List.filter_filter]
  refine List.filter_congr fun b _ => ?_
  rw [Bool.eq_iff_iff, Bool.and_eq_true, decide_eq_true_iff, decide_eq_true_iff,
    decide_eq_true_iff, max_le_iff]
  exact and_comm

theorem keepFrom_of_le (h : ∀ k', k ≤ k') : m.keepFrom k = m :=
  SortedMap.ext (List.filter_eq_self.mpr fun _ _ => decide_eq_true (h _))

end SortedMap
