import Flume.Lib.Segments

/-!
# Merging two sequences and aligning their marks

Two sequences are read in any order, and what is read is passed on. When a mark has been read from
one of them, it is not read on until a mark has been read from the other one or the other one has
ended; then one mark is passed on for both.

* `Rules`: what is passed on for an element, which may depend on what was read before;
* `Aligns`: the possible results; `some (.inl b)` says that the first sequence waits with the mark
  `b`;
* `Rules.readA`, `Rules.readB`: one element is read; **`Aligns.by_reads`**: induction on what is
  read;
* **`exists_aligns`**: every merge can be completed; `Aligns.length_le`: how long it is;
* **`Aligns.marks`**: there are as many marks in the result as in the sequence with more of them;
* **`Aligns.upTo`**: the result up to its `n`-th mark is a result of the sequences up to their
  `n`-th marks.
-/

namespace AlignedMerge

open Segments

variable {τ A B M β : Type*}

/-- The marks of the sequences and of the result, and what is passed on for an element without a
mark. -/
structure Rules (τ A B M β : Type*) where
  markA : A → Option β
  markB : B → Option β
  markM : M → Option β
  takeA : τ → A → List M × τ
  takeB : τ → B → List M × τ
  forward : β → M
  unmarkedA : ∀ t a, markA a = none → ∀ m ∈ (takeA t a).1, markM m = none
  unmarkedB : ∀ t b, markB b = none → ∀ m ∈ (takeB t b).1, markM m = none
  marked : ∀ b, markM (forward b) = some b

/-- From the state `t` and with what is waiting, two sequences are merged to a third one. -/
inductive Aligns (R : Rules τ A B M β) : τ → Option (β ⊕ β) → List A → List B → List M → Prop
  | done (t : τ) : Aligns R t none [] [] []
  | elemA {t : τ} {p : Option (β ⊕ β)} {a : A} {as : List A} {bs : List B} {ms : List M}
      (hmark : R.markA a = none) (hp : ∀ b, p ≠ some (.inl b))
      (h : Aligns R (R.takeA t a).2 p as bs ms) : Aligns R t p (a :: as) bs ((R.takeA t a).1 ++ ms)
  | elemB {t : τ} {p : Option (β ⊕ β)} {b : B} {as : List A} {bs : List B} {ms : List M}
      (hmark : R.markB b = none) (hp : ∀ b, p ≠ some (.inr b))
      (h : Aligns R (R.takeB t b).2 p as bs ms) : Aligns R t p as (b :: bs) ((R.takeB t b).1 ++ ms)
  | waitA {t : τ} {a : A} {m : β} {as : List A} {bs : List B} {ms : List M}
      (hmark : R.markA a = some m) (h : Aligns R t (some (.inl m)) as bs ms) :
      Aligns R t none (a :: as) bs ms
  | waitB {t : τ} {b : B} {m : β} {as : List A} {bs : List B} {ms : List M}
      (hmark : R.markB b = some m) (h : Aligns R t (some (.inr m)) as bs ms) :
      Aligns R t none as (b :: bs) ms
  | meetA {t : τ} {a : A} {m m' : β} {as : List A} {bs : List B} {ms : List M}
      (hmark : R.markA a = some m) (h : Aligns R t none as bs ms) :
      Aligns R t (some (.inr m')) (a :: as) bs (R.forward m :: ms)
  | meetB {t : τ} {b : B} {m m' : β} {as : List A} {bs : List B} {ms : List M}
      (hmark : R.markB b = some m') (h : Aligns R t none as bs ms) :
      Aligns R t (some (.inl m)) as (b :: bs) (R.forward m :: ms)
  | endA {t : τ} {m : β} {bs : List B} {ms : List M} (h : Aligns R t none [] bs ms) :
      Aligns R t (some (.inr m)) [] bs (R.forward m :: ms)
  | endB {t : τ} {m : β} {as : List A} {ms : List M} (h : Aligns R t none as [] ms) :
      Aligns R t (some (.inl m)) as [] (R.forward m :: ms)

/-- What is passed on, and what is known, after an element of the first sequence was read. -/
def Rules.readA (R : Rules τ A B M β) (t : τ) (p : Option (β ⊕ β)) (a : A) :
    List M × τ × Option (β ⊕ β) :=
  match R.markA a, p with
  | none, p => ((R.takeA t a).1, (R.takeA t a).2, p)
  | some m, some (.inr _) => ([R.forward m], t, none)
  | some m, _ => ([], t, some (.inl m))

/-- What is passed on, and what is known, after an element of the second sequence was read. -/
def Rules.readB (R : Rules τ A B M β) (t : τ) (p : Option (β ⊕ β)) (b : B) :
    List M × τ × Option (β ⊕ β) :=
  match R.markB b, p with
  | none, p => ((R.takeB t b).1, (R.takeB t b).2, p)
  | some _, some (.inl m) => ([R.forward m], t, none)
  | some m, _ => ([], t, some (.inr m))

/-- Whether the first sequence waits. -/
def waitingA : Option (β ⊕ β) → ℕ
  | some (.inl _) => 1
  | _ => 0

/-- Whether the second sequence waits. -/
def waitingB : Option (β ⊕ β) → ℕ
  | some (.inr _) => 1
  | _ => 0

variable {R : Rules τ A B M β} {t : τ} {p : Option (β ⊕ β)} {as : List A} {bs : List B}
  {ms : List M}

/-! ## One element after the other -/

section Reads

variable {a : A} {b : B} {m m' : β}

theorem Rules.readA_unmarked (h : R.markA a = none) :
    R.readA t p a = ((R.takeA t a).1, (R.takeA t a).2, p) := by
  unfold Rules.readA
  rw [h]

theorem Rules.readA_wait (h : R.markA a = some m) : R.readA t none a = ([], t, some (.inl m)) := by
  unfold Rules.readA
  rw [h]

theorem Rules.readA_meet (h : R.markA a = some m) :
    R.readA t (some (.inr m')) a = ([R.forward m], t, none) := by
  unfold Rules.readA
  rw [h]

theorem Rules.readB_unmarked (h : R.markB b = none) :
    R.readB t p b = ((R.takeB t b).1, (R.takeB t b).2, p) := by
  unfold Rules.readB
  rw [h]

theorem Rules.readB_wait (h : R.markB b = some m) : R.readB t none b = ([], t, some (.inr m)) := by
  unfold Rules.readB
  rw [h]

theorem Rules.readB_meet (h : R.markB b = some m) :
    R.readB t (some (.inl m')) b = ([R.forward m'], t, none) := by
  unfold Rules.readB
  rw [h]

theorem Aligns.readA (hp : ∀ b, p ≠ some (.inl b))
    (h : Aligns R (R.readA t p a).2.1 (R.readA t p a).2.2 as bs ms) :
    Aligns R t p (a :: as) bs ((R.readA t p a).1 ++ ms) := by
  cases hmark : R.markA a with
  | none =>
    rw [Rules.readA_unmarked hmark] at h ⊢
    exact .elemA hmark hp h
  | some m =>
    rcases p with _ | m' | m'
    · rw [Rules.readA_wait hmark] at h ⊢
      exact .waitA hmark h
    · exact absurd rfl (hp m')
    · rw [Rules.readA_meet hmark] at h ⊢
      exact .meetA hmark h

theorem Aligns.readB (hp : ∀ b, p ≠ some (.inr b))
    (h : Aligns R (R.readB t p b).2.1 (R.readB t p b).2.2 as bs ms) :
    Aligns R t p as (b :: bs) ((R.readB t p b).1 ++ ms) := by
  cases hmark : R.markB b with
  | none =>
    rw [Rules.readB_unmarked hmark] at h ⊢
    exact .elemB hmark hp h
  | some m =>
    rcases p with _ | m' | m'
    · rw [Rules.readB_wait hmark] at h ⊢
      exact .waitB hmark h
    · rw [Rules.readB_meet hmark] at h ⊢
      exact .meetB hmark h
    · exact absurd rfl (hp m')

/-- **Induction on what is read.** -/
theorem Aligns.by_reads {P : τ → Option (β ⊕ β) → List A → List B → List M → Prop}
    (done : ∀ t, P t none [] [] [])
    (readA : ∀ t p a as bs ms, (∀ b, p ≠ some (.inl b)) →
      P (R.readA t p a).2.1 (R.readA t p a).2.2 as bs ms →
      P t p (a :: as) bs ((R.readA t p a).1 ++ ms))
    (readB : ∀ t p b as bs ms, (∀ b, p ≠ some (.inr b)) →
      P (R.readB t p b).2.1 (R.readB t p b).2.2 as bs ms →
      P t p as (b :: bs) ((R.readB t p b).1 ++ ms))
    (endA : ∀ t m bs ms, P t none [] bs ms → P t (some (.inr m)) [] bs (R.forward m :: ms))
    (endB : ∀ t m as ms, P t none as [] ms → P t (some (.inl m)) as [] (R.forward m :: ms))
    (h : Aligns R t p as bs ms) : P t p as bs ms := by
  induction h with
  | done t => exact done t
  | @elemA t p a as bs ms hmark hp _ ih =>
    have hread := readA t p a as bs ms hp
    rw [Rules.readA_unmarked hmark] at hread
    exact hread ih
  | @elemB t p b as bs ms hmark hp _ ih =>
    have hread := readB t p b as bs ms hp
    rw [Rules.readB_unmarked hmark] at hread
    exact hread ih
  | @waitA t a m as bs ms hmark _ ih =>
    have hread := readA t none a as bs ms nofun
    rw [Rules.readA_wait hmark] at hread
    exact hread ih
  | @waitB t b m as bs ms hmark _ ih =>
    have hread := readB t none b as bs ms nofun
    rw [Rules.readB_wait hmark] at hread
    exact hread ih
  | @meetA t a m m' as bs ms hmark _ ih =>
    have hread := readA t (some (.inr m')) a as bs ms nofun
    rw [Rules.readA_meet hmark] at hread
    exact hread ih
  | @meetB t b m m' as bs ms hmark _ ih =>
    have hread := readB t (some (.inl m)) b as bs ms nofun
    rw [Rules.readB_meet hmark] at hread
    exact hread ih
  | endA _ ih => exact endA _ _ _ _ ih
  | endB _ ih => exact endB _ _ _ _ ih

end Reads

/-- **Every merge can be completed**: whatever is known and waits, the rest can be read. -/
theorem exists_aligns (R : Rules τ A B M β) : ∀ (t : τ) (p : Option (β ⊕ β)) (as : List A)
    (bs : List B), ∃ ms, Aligns R t p as bs ms
  | t, none, [], [] => ⟨[], .done t⟩
  | t, none, a :: as, bs =>
    have ⟨_, h⟩ := exists_aligns R (R.readA t none a).2.1 (R.readA t none a).2.2 as bs
    ⟨_, .readA nofun h⟩
  | t, none, [], b :: bs =>
    have ⟨_, h⟩ := exists_aligns R (R.readB t none b).2.1 (R.readB t none b).2.2 [] bs
    ⟨_, .readB nofun h⟩
  | t, some (.inl m), as, b :: bs =>
    have ⟨_, h⟩ := exists_aligns R (R.readB t (some (.inl m)) b).2.1
      (R.readB t (some (.inl m)) b).2.2 as bs
    ⟨_, .readB nofun h⟩
  | t, some (.inr m), a :: as, bs =>
    have ⟨_, h⟩ := exists_aligns R (R.readA t (some (.inr m)) a).2.1
      (R.readA t (some (.inr m)) a).2.2 as bs
    ⟨_, .readA nofun h⟩
  | t, some (.inl _), as, [] =>
    have ⟨_, h⟩ := exists_aligns R t none as []
    ⟨_, .endB h⟩
  | t, some (.inr _), [], bs =>
    have ⟨_, h⟩ := exists_aligns R t none [] bs
    ⟨_, .endA h⟩
termination_by _ p as bs => (as.length + bs.length, p.isSome.toNat)

theorem Aligns.length_le (hA : ∀ t a, (R.takeA t a).1.length ≤ 1)
    (hB : ∀ t b, (R.takeB t b).1.length ≤ 1) (h : Aligns R t p as bs ms) :
    ms.length ≤ as.length + bs.length + p.isSome.toNat := by
  induction h with
  | done => exact Nat.zero_le _
  | @elemA t p a as bs ms _ _ _ ih =>
    have hread := hA t a
    rw [List.length_append, List.length_cons]
    omega
  | @elemB t p b as bs ms _ _ _ ih =>
    have hread := hB t b
    rw [List.length_append, List.length_cons]
    omega
  | waitA _ _ ih | waitB _ _ ih | meetA _ _ ih | meetB _ _ ih | endA _ ih | endB _ ih =>
    simp only [List.length_cons, Option.isSome_some, Option.isSome_none, Bool.toNat_true,
      Bool.toNat_false] at ih ⊢
    omega

/-! ## Marks -/

theorem waitingA_eq_zero (hp : ∀ b, p ≠ some (.inl b)) : waitingA p = 0 := by
  rcases p with _ | b | b
  · rfl
  · exact absurd rfl (hp b)
  · rfl

theorem waitingB_eq_zero (hp : ∀ b, p ≠ some (.inr b)) : waitingB p = 0 := by
  rcases p with _ | b | b
  · rfl
  · rfl
  · exact absurd rfl (hp b)

theorem marks_eq_nil {ns : List M} (h : ∀ m ∈ ns, R.markM m = none) : marks R.markM ns = [] :=
  List.filterMap_eq_nil_iff.mpr h

/-- **The marks of the result**: as many as there are in the sequence with more of them. -/
theorem Aligns.marks (h : Aligns R t p as bs ms) : (marks R.markM ms).length =
    max ((Segments.marks R.markA as).length + waitingA p)
      ((Segments.marks R.markB bs).length + waitingB p) := by
  induction h with
  | done => rfl
  | @elemA t p a as bs ms hmark hp h ih =>
    rw [marks_append, marks_eq_nil (R.unmarkedA t a hmark), marks_cons_none hmark]
    exact ih
  | @elemB t p b as bs ms hmark hp h ih =>
    rw [marks_append, marks_eq_nil (R.unmarkedB t b hmark), marks_cons_none hmark]
    exact ih
  | waitA hmark h ih =>
    rw [ih, marks_cons_some hmark]
    rfl
  | waitB hmark h ih =>
    rw [ih, marks_cons_some hmark]
    rfl
  | meetA hmark h ih =>
    rw [marks_cons_some (R.marked _), marks_cons_some hmark, List.length_cons, List.length_cons, ih]
    simp [waitingA, waitingB]
  | meetB hmark h ih =>
    rw [marks_cons_some (R.marked _), marks_cons_some hmark, List.length_cons, List.length_cons, ih]
    simp [waitingA, waitingB]
  | endA h ih =>
    rw [marks_cons_some (R.marked _), List.length_cons, ih]
    simp [waitingA, waitingB]
  | endB h ih =>
    rw [marks_cons_some (R.marked _), List.length_cons, ih]
    simp [waitingA, waitingB]

theorem aligns_upTo_zero (t : τ) (as : List A) (bs : List B) (ms : List M)
    (hn : p.isSome → 1 ≤ 0) : Aligns R t p (upTo R.markA (0 - waitingA p) as)
      (upTo R.markB (0 - waitingB p) bs) (upTo R.markM 0 ms) := by
  cases p with
  | some m => exact absurd (hn rfl) (by norm_num)
  | none =>
    simp only [Nat.zero_sub, upTo_zero]
    exact .done t

/-- **Cuts.** If both sequences have enough marks, the result up to its `n`-th mark is a result of
the sequences up to their `n`-th marks; a sequence that waits with its mark has one less to come. -/
theorem Aligns.upTo_from (h : Aligns R t p as bs ms) {n : ℕ}
    (hA : n ≤ (Segments.marks R.markA as).length + waitingA p)
    (hB : n ≤ (Segments.marks R.markB bs).length + waitingB p) (hn : p.isSome → 1 ≤ n) :
    Aligns R t p (Segments.upTo R.markA (n - waitingA p) as)
      (Segments.upTo R.markB (n - waitingB p) bs) (Segments.upTo R.markM n ms) := by
  induction h generalizing n with
  | done t =>
    simp only [upTo_nil]
    exact .done t
  | @elemA t p a as bs ms hmark hp h ih =>
    cases n with
    | zero => exact aligns_upTo_zero t _ _ _ hn
    | succ n =>
      rw [marks_cons_none hmark] at hA
      have hrest := ih hA hB hn
      rw [waitingA_eq_zero hp, Nat.sub_zero] at hrest ⊢
      rw [upTo_succ_cons_none hmark, upTo_append_unmarked (R.unmarkedA t a hmark)]
      exact .elemA hmark hp hrest
  | @elemB t p b as bs ms hmark hp h ih =>
    cases n with
    | zero => exact aligns_upTo_zero t _ _ _ hn
    | succ n =>
      rw [marks_cons_none hmark] at hB
      have hrest := ih hA hB hn
      rw [waitingB_eq_zero hp, Nat.sub_zero] at hrest ⊢
      rw [upTo_succ_cons_none hmark, upTo_append_unmarked (R.unmarkedB t b hmark)]
      exact .elemB hmark hp hrest
  | @waitA t a m as bs ms hmark h ih =>
    cases n with
    | zero => exact aligns_upTo_zero t _ _ _ hn
    | succ n =>
      rw [marks_cons_some hmark] at hA
      have hrest := ih (n := n + 1) (by simpa [waitingA] using hA) hB fun _ => by omega
      exact (upTo_succ_cons_some hmark n as).symm ▸ .waitA hmark hrest
  | @waitB t b m as bs ms hmark h ih =>
    cases n with
    | zero => exact aligns_upTo_zero t _ _ _ hn
    | succ n =>
      rw [marks_cons_some hmark] at hB
      have hrest := ih (n := n + 1) hA (by simpa [waitingB] using hB) fun _ => by omega
      exact (upTo_succ_cons_some hmark n bs).symm ▸ .waitB hmark hrest
  | @meetA t a m m' as bs ms hmark h ih =>
    cases n with
    | zero => exact aligns_upTo_zero t _ _ _ hn
    | succ n =>
      rw [marks_cons_some hmark] at hA
      have hrest := ih (n := n) (by simpa [waitingA] using hA) (by simpa [waitingB] using hB) nofun
      rw [upTo_succ_cons_some (R.marked m)]
      exact (upTo_succ_cons_some hmark n as).symm ▸ .meetA hmark hrest
  | @meetB t b m m' as bs ms hmark h ih =>
    cases n with
    | zero => exact aligns_upTo_zero t _ _ _ hn
    | succ n =>
      rw [marks_cons_some hmark] at hB
      have hrest := ih (n := n) (by simpa [waitingA] using hA) (by simpa [waitingB] using hB) nofun
      rw [upTo_succ_cons_some (R.marked m)]
      exact (upTo_succ_cons_some hmark n bs).symm ▸ .meetB hmark hrest
  | endA h ih =>
    -- the sequence that has ended has no mark for the one that waits
    have hpos := hn rfl
    simp [waitingA] at hA
    omega
  | endB h ih =>
    have hpos := hn rfl
    simp [waitingB] at hB
    omega

/-- **The result up to its `n`-th mark.** -/
theorem Aligns.upTo (h : Aligns R t none as bs ms) {n : ℕ}
    (hA : n ≤ (Segments.marks R.markA as).length) (hB : n ≤ (Segments.marks R.markB bs).length) :
    Aligns R t none (Segments.upTo R.markA n as) (Segments.upTo R.markB n bs)
      (Segments.upTo R.markM n ms) :=
  h.upTo_from hA hB nofun

end AlignedMerge
