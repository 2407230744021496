import Mathlib.Data.List.Basic
import Mathlib.Tactic

/-!
# Round robin

Queues are emptied in turns: a pass takes the first element of every queue that has one.

* `heads`: what one pass takes; `interleave rounds queues`: what `rounds` passes take;
* `longest`: as many passes as empty all queues;
* **`perm_interleave`**: the passes take everything, each element once;
* **`interleave_split`**: how many elements they take after a given one (`takenAfter`).
-/

namespace RoundRobin

variable {α : Type*}

/-- What one pass takes. -/
def heads (queues : List (List α)) : List α := queues.filterMap List.head?

/-- What a number of passes take. -/
def interleave : ℕ → List (List α) → List α
  | 0, _ => []
  | rounds + 1, queues => heads queues ++ interleave rounds (queues.map List.tail)

/-- The length of the longest queue. -/
def longest (queues : List (List α)) : ℕ := (queues.map List.length).foldr max 0

theorem length_le_longest {queues : List (List α)} {q : List α} (hq : q ∈ queues) :
    q.length ≤ longest queues := by
  unfold longest
  induction queues with
  | nil => cases hq
  | cons q' queues ih =>
    rcases List.mem_cons.mp hq with rfl | hq
    · exact le_max_left _ _
    · exact (ih hq).trans (le_max_right _ _)

theorem perm_heads_tails (queues : List (List α)) :
    (heads queues ++ (queues.map List.tail).flatten).Perm queues.flatten := by
  induction queues with
  | nil => exact List.Perm.refl _
  | cons q queues ih =>
    cases q with
    | nil => exact ih
    | cons a q =>
      have hswap : (heads queues ++ (q ++ (queues.map List.tail).flatten)).Perm
          (q ++ (heads queues ++ (queues.map List.tail).flatten)) := by
        rw [← List.append_assoc, ← List.append_assoc]
        exact List.perm_append_comm.append_right _
      exact (hswap.trans (ih.append_left q)).cons a

theorem tails_le {rounds : ℕ} {queues : List (List α)} (h : ∀ q ∈ queues, q.length ≤ rounds + 1) :
    ∀ q ∈ queues.map List.tail, q.length ≤ rounds := by
  intro q hq
  obtain ⟨q', hq', rfl⟩ := List.mem_map.mp hq
  have := h q' hq'
  rw [List.length_tail]
  omega

/-- **Enough passes take everything**, each element once. -/
theorem perm_interleave {rounds : ℕ} {queues : List (List α)}
    (h : ∀ q ∈ queues, q.length ≤ rounds) : (interleave rounds queues).Perm queues.flatten := by
  induction rounds generalizing queues with
  | zero =>
    have hempty : queues.flatten = [] := by
      rw [List.flatten_eq_nil_iff]
      intro q hq
      exact List.length_eq_zero_iff.mp (Nat.le_zero.mp (h q hq))
    rw [hempty]
    exact List.Perm.refl _
  | succ rounds ih =>
    exact ((ih (tails_le h)).append_left _).trans (perm_heads_tails queues)

/-! ## Where an element is taken -/

theorem length_interleave {rounds : ℕ} {queues : List (List α)}
    (h : ∀ q ∈ queues, q.length ≤ rounds) :
    (interleave rounds queues).length = (queues.map List.length).sum := by
  rw [(perm_interleave h).length_eq, List.length_flatten]

theorem length_heads (queues : List (List α)) :
    (heads queues).length = queues.countP fun q => 0 < q.length := by
  induction queues with
  | nil => rfl
  | cons q queues ih =>
    cases q with
    | nil => exact ih
    | cons a q =>
      rw [List.countP_cons_of_pos (by simp), ← ih]
      rfl

/-- What is taken after an element: what is left of every queue below its depth, and the elements
of its own pass from the queues behind. -/
def takenAfter (queues behind : List (List α)) (depth : ℕ) : ℕ :=
  (queues.map fun q => q.length - (depth + 1)).sum + behind.countP fun q => depth < q.length

theorem takenAfter_succ (queues behind : List (List α)) (depth : ℕ) :
    takenAfter (queues.map List.tail) (behind.map List.tail) depth =
      takenAfter queues behind (depth + 1) := by
  unfold takenAfter
  rw [List.map_map, List.countP_map]
  congr 1
  · congr 1
    refine List.map_congr_left fun q _ => ?_
    simp only [Function.comp_apply, List.length_tail]
    omega
  · refine List.countP_congr fun q _ => ?_
    simp only [Function.comp_apply, List.length_tail, decide_eq_true_iff]
    omega

/-- **Where the passes take an element**, by the number of elements that come after it. -/
theorem interleave_split {rounds : ℕ} {before behind : List (List α)} {q q' : List α} {a : α}
    (h : ∀ p ∈ before ++ (q ++ a :: q') :: behind, p.length ≤ rounds) :
    ∃ taken rest, interleave rounds (before ++ (q ++ a :: q') :: behind) = taken ++ a :: rest ∧
      rest.length = takenAfter (before ++ (q ++ a :: q') :: behind) behind q.length := by
  induction q generalizing rounds before behind with
  | nil =>
    cases rounds with
    | zero =>
      have := h ([] ++ a :: q') (List.mem_append_right _ List.mem_cons_self)
      exact absurd this (by simp)
    | succ rounds =>
      have htails : ∀ p ∈ (before ++ (a :: q') :: behind).map List.tail, p.length ≤ rounds :=
        tails_le h
      refine ⟨heads before, heads behind ++ interleave rounds ((before ++ (a :: q') :: behind).map
        List.tail), ?_, ?_⟩
      · change heads (before ++ (a :: q') :: behind) ++ _ = _
        unfold heads
        rw [List.filterMap_append, List.filterMap_cons]
        simp
      · rw [List.length_append, length_heads, length_interleave htails, List.map_map, Nat.add_comm]
        unfold takenAfter
        congr 1
        congr 1
        exact List.map_congr_left fun p _ => List.length_tail
  | cons b q ih =>
    cases rounds with
    | zero =>
      have := h (b :: q ++ a :: q') (List.mem_append_right _ List.mem_cons_self)
      exact absurd this (by simp)
    | succ rounds =>
      have htails := tails_le h
      rw [List.map_append, List.map_cons, List.cons_append, List.tail_cons] at htails
      obtain ⟨taken, rest, hsplit, hlen⟩ := ih htails
      refine ⟨heads (before ++ (b :: q ++ a :: q') :: behind) ++ taken, rest, ?_, ?_⟩
      · change _ ++ interleave rounds (List.map _ _) = _
        rw [List.map_append, List.map_cons, List.cons_append, List.tail_cons, hsplit,
          List.append_assoc]
      · rw [hlen, List.length_cons, ← takenAfter_succ, List.map_append, List.map_cons,
          List.cons_append, List.tail_cons]

end RoundRobin
