import Mathlib.Data.List.Basic
import Mathlib.Tactic

/-!
# Sequences cut into segments by marks

`mark : α → Option β` tells which elements of a sequence are marks and what each mark carries.

* `marks mark l`: the marks of `l`, in order;
* `seg mark j l`: the unmarked elements of `l` that follow exactly `j` marks;
* `seg_append`, `seg_concat_mark`, `seg_concat_none`: how the segments grow at the end;
* `seg_map`, `marks_map`: renaming the elements;
* **`flatten_seg`**: the segments, in order, are all unmarked elements;
* **`filterMap_eq_of_seg`**: what agrees on every segment agrees;
* `Agree`: the same marks, and the same readings between them up to order;
* `upTo`: a sequence up to its `n`-th mark; `upTo_append_unmarked`, `marks_upTo`.
-/

namespace Segments

variable {α β : Type*} (mark : α → Option β)

/-- The marks of a sequence. -/
def marks (l : List α) : List β := l.filterMap mark

/-- The unmarked elements. -/
def unmarked (l : List α) : List α := l.filter fun x => (mark x).isNone

/-- The unmarked elements that follow exactly `j` marks. -/
def seg : ℕ → List α → List α
  | _, [] => []
  | 0, x :: l => if (mark x).isSome then [] else x :: seg 0 l
  | j + 1, x :: l => if (mark x).isSome then seg j l else seg (j + 1) l

variable {mark}

@[simp] theorem marks_nil : marks mark [] = [] := rfl
@[simp] theorem unmarked_nil : unmarked mark [] = [] := rfl
@[simp] theorem seg_nil (j : ℕ) : seg mark j [] = [] := by cases j <;> rfl

theorem seg_zero_cons (x : α) (l : List α) :
    seg mark 0 (x :: l) = if (mark x).isSome then [] else x :: seg mark 0 l := rfl

theorem seg_succ_cons (j : ℕ) (x : α) (l : List α) : seg mark (j + 1) (x :: l) =
    if (mark x).isSome then seg mark j l else seg mark (j + 1) l := rfl

theorem marks_append (l m : List α) : marks mark (l ++ m) = marks mark l ++ marks mark m :=
  List.filterMap_append

theorem marks_concat_some {x : α} {b : β} (hx : mark x = some b) (l : List α) :
    marks mark (l ++ [x]) = marks mark l ++ [b] := by
  rw [marks_append]; simp [marks, hx]

theorem marks_concat_none {x : α} (hx : mark x = none) (l : List α) :
    marks mark (l ++ [x]) = marks mark l := by
  rw [marks_append]; simp [marks, hx]

theorem seg_append (j : ℕ) (l m : List α) : seg mark j (l ++ m) =
    seg mark j l ++ if (marks mark l).length ≤ j then seg mark (j - (marks mark l).length) m
      else [] := by
  induction l generalizing j with
  | nil => simp
  | cons x l ih =>
    cases hx : mark x with
    | none =>
      have hm : marks mark (x :: l) = marks mark l := by simp [marks, hx]
      rw [hm]
      cases j <;> simp only [List.cons_append, seg_zero_cons, seg_succ_cons, hx, ih,
        Option.isSome_none, Bool.false_eq_true, if_false, List.cons_append]
    | some b =>
      have hm : (marks mark (x :: l)).length = (marks mark l).length + 1 := by simp [marks, hx]
      rw [hm]
      cases j with
      | zero => simp [seg_zero_cons, hx]
      | succ j => simp only [List.cons_append, seg_succ_cons, hx, ih, Option.isSome_some, if_true,
          Nat.add_le_add_iff_right, Nat.add_sub_add_right]

theorem seg_concat_some {x : α} {b : β} (hx : mark x = some b) (j : ℕ) (l : List α) :
    seg mark j (l ++ [x]) = seg mark j l := by
  rw [seg_append]
  split_ifs with h
  · cases j - (marks mark l).length <;> simp [seg_zero_cons, seg_succ_cons, hx]
  · simp

theorem seg_concat_none {x : α} (hx : mark x = none) (j : ℕ) (l : List α) :
    seg mark j (l ++ [x]) = seg mark j l ++ if j = (marks mark l).length then [x] else [] := by
  rw [seg_append]
  congr 1
  rcases lt_trichotomy j (marks mark l).length with h | h | h
  · rw [if_neg (by omega), if_neg (by omega)]
  · rw [if_pos (by omega), if_pos h, h, Nat.sub_self]; simp [seg_zero_cons, hx]
  · obtain ⟨k, hk⟩ : ∃ k, j - (marks mark l).length = k + 1 :=
      ⟨j - (marks mark l).length - 1, by omega⟩
    rw [if_pos (by omega), if_neg (by omega), hk]; simp [seg_succ_cons, hx]

theorem seg_eq_nil {j : ℕ} {l : List α} (h : (marks mark l).length < j) : seg mark j l = [] := by
  induction l generalizing j with
  | nil => exact seg_nil j
  | cons x l ih =>
    obtain ⟨k, rfl⟩ : ∃ k, j = k + 1 := ⟨j - 1, by omega⟩
    cases hx : mark x with
    | none =>
      simp only [marks, List.filterMap_cons, hx] at h
      simpa [seg_succ_cons, hx] using ih h
    | some b =>
      simp only [marks, List.filterMap_cons, hx, List.length_cons] at h
      simpa [seg_succ_cons, hx] using ih (by simpa [marks] using h)

theorem seg_map {γ : Type*} {mark' : γ → Option β} {g : α → γ} (hg : ∀ x, mark' (g x) = mark x)
    (j : ℕ) (l : List α) : seg mark' j (l.map g) = (seg mark j l).map g := by
  induction l generalizing j with
  | nil => simp
  | cons x l ih =>
    cases j <;> simp only [List.map_cons, seg_zero_cons, seg_succ_cons, hg, ih] <;> split_ifs <;> rfl

theorem marks_map {γ : Type*} {mark' : γ → Option β} {g : α → γ} (hg : ∀ x, mark' (g x) = mark x)
    (l : List α) : marks mark' (l.map g) = marks mark l := by
  unfold marks
  rw [List.filterMap_map]
  exact List.filterMap_congr fun x _ => hg x

/-- **The segments, in order, are the unmarked elements.** -/
theorem flatten_seg (l : List α) : ((List.range ((marks mark l).length + 1)).map
    fun j => seg mark j l).flatten = unmarked mark l := by
  induction l with
  | nil => simp
  | cons x l ih =>
    rw [List.range_succ_eq_map, List.map_cons, List.flatten_cons, List.map_map] at ih ⊢
    cases hx : mark x with
    | none =>
      have hm : marks mark (x :: l) = marks mark l := by simp [marks, hx]
      have hu : unmarked mark (x :: l) = x :: unmarked mark l := by simp [unmarked, hx]
      rw [hm, hu, ← ih]
      simp [seg_zero_cons, seg_succ_cons, hx, Function.comp_def]
    | some b =>
      have hm : (marks mark (x :: l)).length = (marks mark l).length + 1 := by simp [marks, hx]
      have hu : unmarked mark (x :: l) = unmarked mark l := by simp [unmarked, hx]
      rw [hm, hu, ← ih, List.range_succ_eq_map]
      simp [seg_zero_cons, seg_succ_cons, hx, Function.comp_def]

theorem flatten_seg_of_lt {l : List α} {k : ℕ} (h : (marks mark l).length < k) :
    ((List.range k).map fun j => seg mark j l).flatten = unmarked mark l := by
  obtain ⟨m, rfl⟩ : ∃ m, k = ((marks mark l).length + 1) + m :=
    ⟨k - (marks mark l).length - 1, by omega⟩
  have hnil :
      ((List.range m).map fun i => seg mark ((marks mark l).length + 1 + i) l).flatten = [] := by
    rw [List.flatten_eq_nil_iff]
    intro t ht
    obtain ⟨i, -, rfl⟩ := List.mem_map.mp ht
    exact seg_eq_nil (by omega)
  rw [List.range_add, List.map_append, List.flatten_append, flatten_seg, List.map_map]
  exact (congrArg _ hnil).trans (List.append_nil _)

theorem filterMap_filter_of_none {γ : Type*} {f : α → Option γ} {p : α → Bool}
    (h : ∀ x, p x = false → f x = none) (l : List α) : (l.filter p).filterMap f = l.filterMap f := by
  rw [List.filterMap_filter]
  refine List.filterMap_congr fun x _ => ?_
  split_ifs with hx
  · rfl
  · exact (h x (by simpa using hx)).symm

theorem filterMap_eq_flatten_seg {γ : Type*} {f : α → Option γ}
    (hf : ∀ x, (mark x).isSome → f x = none) {l : List α} {k : ℕ}
    (hk : (marks mark l).length < k) :
    l.filterMap f = ((List.range k).map fun j => (seg mark j l).filterMap f).flatten := by
  have hunmarked : (unmarked mark l).filterMap f = l.filterMap f :=
    filterMap_filter_of_none (fun x hx => hf x (by simpa using hx)) l
  rw [← hunmarked, ← flatten_seg_of_lt hk, List.filterMap_flatten, List.map_map]
  rfl

/-- **Two sequences with the same readings in each segment have the same readings.** -/
theorem filterMap_eq_of_seg {γ δ ε : Type*} {mark' : γ → Option δ} {f : α → Option ε}
    {g : γ → Option ε} (hf : ∀ x, (mark x).isSome → f x = none)
    (hg : ∀ x, (mark' x).isSome → g x = none) {l : List α} {m : List γ}
    (h : ∀ j, (seg mark j l).filterMap f = (seg mark' j m).filterMap g) :
    l.filterMap f = m.filterMap g := by
  have hl : (marks mark l).length < max (marks mark l).length (marks mark' m).length + 1 := by omega
  have hm : (marks mark' m).length < max (marks mark l).length (marks mark' m).length + 1 := by omega
  rw [filterMap_eq_flatten_seg hf hl, filterMap_eq_flatten_seg hg hm]
  simp only [h]

/-! ## Segments up to order -/

theorem seg_append_unmarked {m : List α} (hm : ∀ x ∈ m, mark x = none) (j : ℕ) (l : List α) :
    seg mark j (l ++ m) = seg mark j l ++ if j = (marks mark l).length then m else [] := by
  induction m using List.reverseRecOn with
  | nil => simp
  | append_singleton m x ih =>
    have hinit : ∀ y ∈ m, mark y = none := fun y hy => hm y (List.mem_append_left _ hy)
    have hx : mark x = none := hm x (List.mem_append_right _ (List.mem_singleton_self x))
    have hmarks : marks mark m = [] := List.filterMap_eq_nil_iff.mpr hinit
    rw [← List.append_assoc, seg_concat_none hx, ih hinit, marks_append, hmarks, List.append_nil,
      List.append_assoc]
    split_ifs <;> rfl

/-- The two sequences have the same marks, and between these the same readings up to order. -/
structure Agree {γ : Type*} (mark : α → Option β) (value : α → Option γ) (l l' : List α) : Prop where
  marks : Segments.marks mark l = Segments.marks mark l'
  segs : ∀ j, ((seg mark j l).filterMap value).Perm ((seg mark j l').filterMap value)

section Agree

variable {γ : Type*} {value : α → Option γ} {l l' : List α}

theorem Agree.refl (l : List α) : Agree mark value l l := ⟨rfl, fun _ => List.Perm.refl _⟩

theorem Agree.append_unmarked (h : Agree mark value l l') {m m' : List α}
    (hm : ∀ x ∈ m, mark x = none) (hm' : ∀ x ∈ m', mark x = none)
    (hperm : (m.filterMap value).Perm (m'.filterMap value)) :
    Agree mark value (l ++ m) (l' ++ m') := by
  have hmarks : Segments.marks mark m = [] := List.filterMap_eq_nil_iff.mpr hm
  have hmarks' : Segments.marks mark m' = [] := List.filterMap_eq_nil_iff.mpr hm'
  refine ⟨?_, fun j => ?_⟩
  · rw [marks_append, marks_append, hmarks, hmarks', h.marks]
  · rw [seg_append_unmarked hm, seg_append_unmarked hm', List.filterMap_append,
      List.filterMap_append, h.marks]
    refine (h.segs j).append ?_
    split_ifs
    · exact hperm
    · exact List.Perm.refl _

theorem Agree.concat_marked (h : Agree mark value l l') {x : α} {b : β} (hx : mark x = some b) :
    Agree mark value (l ++ [x]) (l' ++ [x]) := by
  refine ⟨?_, fun j => ?_⟩
  · rw [marks_concat_some hx, marks_concat_some hx, h.marks]
  · rw [seg_concat_some hx, seg_concat_some hx]
    exact h.segs j

theorem Agree.filterMap_perm (h : Agree mark value l l')
    (hvalue : ∀ x, (mark x).isSome → value x = none) :
    (l.filterMap value).Perm (l'.filterMap value) := by
  have hl : (Segments.marks mark l).length < (Segments.marks mark l).length + 1 := by omega
  have hl' : (Segments.marks mark l').length < (Segments.marks mark l).length + 1 := by
    rw [h.marks]
    omega
  rw [filterMap_eq_flatten_seg hvalue hl, filterMap_eq_flatten_seg hvalue hl',
    ← List.flatMap_def, ← List.flatMap_def]
  exact List.Perm.flatMap_left _ fun j _ => h.segs j

end Agree

/-! ## Prefixes that end with a mark -/

/-- The sequence up to its `n`-th mark, or all of it if there are fewer. -/
def upTo (mark : α → Option β) : ℕ → List α → List α
  | 0, _ => []
  | _ + 1, [] => []
  | n + 1, x :: l => x :: upTo mark (if (mark x).isSome then n else n + 1) l

section UpTo

variable {n : ℕ} {x : α} {l m : List α}

@[simp] theorem upTo_zero (l : List α) : upTo mark 0 l = [] := by cases l <;> rfl

@[simp] theorem upTo_nil (n : ℕ) : upTo mark n [] = [] := by cases n <;> rfl

theorem upTo_succ_cons_some {b : β} (hx : mark x = some b) (n : ℕ) (l : List α) :
    upTo mark (n + 1) (x :: l) = x :: upTo mark n l := by
  rw [upTo, hx]
  rfl

theorem upTo_succ_cons_none (hx : mark x = none) (n : ℕ) (l : List α) :
    upTo mark (n + 1) (x :: l) = x :: upTo mark (n + 1) l := by
  rw [upTo, hx]
  rfl

theorem marks_cons_some {b : β} (hx : mark x = some b) (l : List α) :
    marks mark (x :: l) = b :: marks mark l := List.filterMap_cons_some hx

theorem marks_cons_none (hx : mark x = none) (l : List α) : marks mark (x :: l) = marks mark l :=
  List.filterMap_cons_none hx

theorem upTo_append_unmarked (hm : ∀ x ∈ m, mark x = none) (n : ℕ) (l : List α) :
    upTo mark (n + 1) (m ++ l) = m ++ upTo mark (n + 1) l := by
  induction m with
  | nil => rfl
  | cons x m ih =>
    rw [List.cons_append, upTo_succ_cons_none (hm x List.mem_cons_self),
      ih fun y hy => hm y (List.mem_cons_of_mem _ hy)]
    rfl

theorem upTo_isPrefix (n : ℕ) (l : List α) : upTo mark n l <+: l := by
  induction l generalizing n with
  | nil => simp
  | cons x l ih =>
    cases n with
    | zero => exact List.nil_prefix
    | succ n => exact List.prefix_cons_inj x |>.mpr (ih _)

theorem upTo_eq_concat (hn : n + 1 ≤ (marks mark l).length) :
    ∃ pre x b, upTo mark (n + 1) l = pre ++ [x] ∧ mark x = some b := by
  induction l generalizing n with
  | nil => exact absurd hn (Nat.not_succ_le_zero n)
  | cons x l ih =>
    cases hx : mark x with
    | none =>
      rw [marks_cons_none hx] at hn
      obtain ⟨pre, y, b, hpre, hy⟩ := ih hn
      exact ⟨x :: pre, y, b, by rw [upTo_succ_cons_none hx, hpre, List.cons_append], hy⟩
    | some b =>
      rw [marks_cons_some hx, List.length_cons] at hn
      rw [upTo_succ_cons_some hx]
      cases n with
      | zero => exact ⟨[], x, b, by rw [upTo_zero, List.nil_append], hx⟩
      | succ n =>
        obtain ⟨pre, y, b', hpre, hy⟩ := ih (Nat.le_of_succ_le_succ hn)
        exact ⟨x :: pre, y, b', by rw [hpre, List.cons_append], hy⟩

theorem marks_upTo (n : ℕ) (l : List α) : marks mark (upTo mark n l) = (marks mark l).take n := by
  induction l generalizing n with
  | nil => simp
  | cons x l ih =>
    cases n with
    | zero => simp
    | succ n =>
      cases hx : mark x with
      | none => rw [upTo_succ_cons_none hx, marks_cons_none hx, marks_cons_none hx, ih]
      | some b =>
        rw [upTo_succ_cons_some hx, marks_cons_some hx, marks_cons_some hx, ih, List.take_succ_cons]

end UpTo

end Segments
