import Mathlib.Algebra.Order.Group.Multiset
import Mathlib.Data.List.Basic
import Mathlib.Tactic

/-!
# Incremental joins

A batch join pairs the elements of two lists that satisfy a predicate. An incremental one meets the
elements of both sides in one order of arrival, and pairs each with the earlier ones of the other
side.

* `batch p as bs`: the pairs of a batch join;
* `found p q xs`: the pairs of an incremental one, where a right element asks for earlier left ones
  by `p`, and a left element for earlier right ones by `q`; `found_concat_left` and
  `found_concat_right` say what an arrival adds;
* **`found_perm_batch`**: with one predicate the two joins agree, in any order of arrival;
* **`length_found_iff`**: with two predicates that are at most too wide, they agree only if none of
  the two ever finds too much;
* `sharing`: a join by shared keys, where an element may have several; **`sharing_perm`**: it pairs
  the elements of every group.
-/

namespace PairJoin

variable {α β : Type*}

/-- The left elements. -/
def lefts (xs : List (α ⊕ β)) : List α := xs.filterMap Sum.getLeft?

/-- The right elements. -/
def rights (xs : List (α ⊕ β)) : List β := xs.filterMap Sum.getRight?

section Sides

variable (xs ys : List (α ⊕ β)) (a : α) (b : β)

@[simp] theorem lefts_nil : lefts ([] : List (α ⊕ β)) = [] := rfl
@[simp] theorem rights_nil : rights ([] : List (α ⊕ β)) = [] := rfl
@[simp] theorem lefts_inl : lefts (.inl a :: xs) = a :: lefts xs := rfl
@[simp] theorem lefts_inr : lefts (.inr b :: xs) = lefts xs := rfl
@[simp] theorem rights_inl : rights (.inl a :: xs) = rights xs := rfl
@[simp] theorem rights_inr : rights (.inr b :: xs) = b :: rights xs := rfl

@[simp] theorem lefts_append : lefts (xs ++ ys) = lefts xs ++ lefts ys := List.filterMap_append
@[simp] theorem rights_append : rights (xs ++ ys) = rights xs ++ rights ys := List.filterMap_append

theorem lefts_filter (q : α ⊕ β → Bool) :
    lefts (xs.filter q) = (lefts xs).filter fun a => q (.inl a) := by
  induction xs with
  | nil => rfl
  | cons x xs ih => cases x <;> simp only [List.filter_cons] <;> split_ifs <;> simp_all

theorem rights_filter (q : α ⊕ β → Bool) :
    rights (xs.filter q) = (rights xs).filter fun b => q (.inr b) := by
  induction xs with
  | nil => rfl
  | cons x xs ih => cases x <;> simp only [List.filter_cons] <;> split_ifs <;> simp_all

variable {xs a b}

theorem mem_lefts : a ∈ lefts xs ↔ .inl a ∈ xs := by
  simp [lefts, List.mem_filterMap, Sum.getLeft?_eq_some_iff]

theorem mem_rights : b ∈ rights xs ↔ .inr b ∈ xs := by
  simp [rights, List.mem_filterMap, Sum.getRight?_eq_some_iff]

end Sides

variable (p q e : α → β → Bool)

/-- The pairs of a left element with right ones. -/
def pairLeft (a : α) (bs : List β) : List (α × β) := (bs.filter (p a)).map fun b => (a, b)

/-- The pairs of a right element with left ones. -/
def pairRight (b : β) (as : List α) : List (α × β) := (as.filter fun a => p a b).map fun a => (a, b)

/-- All pairs that satisfy `p`. -/
def batch (as : List α) (bs : List β) : List (α × β) := as.flatMap fun a => pairLeft p a bs

/-- The pairs of each element with the later ones of the other side. -/
def found : List (α ⊕ β) → List (α × β)
  | [] => []
  | .inl a :: xs => pairLeft p a (rights xs) ++ found xs
  | .inr b :: xs => pairRight q b (lefts xs) ++ found xs

variable {p q e}

theorem mem_pairLeft {a : α} {bs : List β} {x : α × β} :
    x ∈ pairLeft p a bs ↔ x.1 = a ∧ x.2 ∈ bs ∧ p a x.2 = true := by
  obtain ⟨a', b⟩ := x
  simp only [pairLeft, List.mem_map, List.mem_filter, Prod.mk.injEq]
  constructor
  · rintro ⟨b', hb', rfl, rfl⟩
    exact ⟨rfl, hb'⟩
  · rintro ⟨rfl, hb⟩
    exact ⟨b, hb, rfl, rfl⟩

theorem mem_batch {as : List α} {bs : List β} {x : α × β} :
    x ∈ batch p as bs ↔ x.1 ∈ as ∧ x.2 ∈ bs ∧ p x.1 x.2 = true := by
  simp only [batch, List.mem_flatMap, mem_pairLeft]
  constructor
  · rintro ⟨a, ha, rfl, h⟩
    exact ⟨ha, h⟩
  · rintro ⟨ha, h⟩
    exact ⟨x.1, ha, rfl, h⟩

theorem batch_cons_left (a : α) (as : List α) (bs : List β) :
    batch p (a :: as) bs = pairLeft p a bs ++ batch p as bs := rfl

theorem pairLeft_append (a : α) (bs bs' : List β) :
    pairLeft p a (bs ++ bs') = pairLeft p a bs ++ pairLeft p a bs' := by
  rw [pairLeft, List.filter_append, List.map_append]; rfl

theorem pairRight_append (b : β) (as as' : List α) :
    pairRight p b (as ++ as') = pairRight p b as ++ pairRight p b as' := by
  rw [pairRight, List.filter_append, List.map_append]; rfl

theorem pairLeft_singleton (a : α) (b : β) : pairLeft p a [b] = pairRight p b [a] := by
  unfold pairLeft pairRight
  by_cases h : p a b = true <;> simp [h]

theorem pairRight_cons (a : α) (b : β) (as : List α) :
    pairRight p b (a :: as) = pairLeft p a [b] ++ pairRight p b as := by
  rw [pairLeft_singleton]
  exact pairRight_append b [a] as

theorem pairLeft_cons (a : α) (b : β) (bs : List β) :
    pairLeft p a (b :: bs) = pairRight p b [a] ++ pairLeft p a bs := by
  rw [← pairLeft_singleton]
  exact pairLeft_append a [b] bs

theorem batch_cons_right (as : List α) (b : β) (bs : List β) :
    (batch p as (b :: bs)).Perm (pairRight p b as ++ batch p as bs) := by
  induction as with
  | nil => exact List.Perm.refl _
  | cons a as ih =>
    rw [batch_cons_left, batch_cons_left, pairRight_cons, pairLeft_cons, pairLeft_singleton]
    rw [← Multiset.coe_eq_coe] at ih ⊢
    simp only [← Multiset.coe_add] at ih ⊢
    rw [ih]
    abel

theorem batch_perm {as as' : List α} {bs bs' : List β} (has : as.Perm as') (hbs : bs.Perm bs') :
    (batch p as bs).Perm (batch p as' bs') :=
  List.Perm.flatMap has fun _ _ => (hbs.filter _).map _

/-! ## What an arrival adds -/

theorem found_concat_left (xs : List (α ⊕ β)) (a : α) :
    (found p q (xs ++ [.inl a])).Perm (found p q xs ++ pairLeft q a (rights xs)) := by
  induction xs with
  | nil => exact List.Perm.refl _
  | cons x xs ih =>
    rw [← Multiset.coe_eq_coe] at ih ⊢
    cases x with
    | inl a' =>
      simp only [List.cons_append, found, rights_append, rights_inl, rights_nil, List.append_nil,
        ← Multiset.coe_add] at ih ⊢
      rw [ih]
      abel
    | inr b =>
      simp only [List.cons_append, found, lefts_append, lefts_inl, lefts_nil, rights_inr,
        pairRight_append, pairLeft_cons, ← Multiset.coe_add] at ih ⊢
      rw [ih]
      abel

theorem found_concat_right (xs : List (α ⊕ β)) (b : β) :
    (found p q (xs ++ [.inr b])).Perm (found p q xs ++ pairRight p b (lefts xs)) := by
  induction xs with
  | nil => exact List.Perm.refl _
  | cons x xs ih =>
    rw [← Multiset.coe_eq_coe] at ih ⊢
    cases x with
    | inl a =>
      simp only [List.cons_append, found, rights_append, rights_inr, rights_nil, lefts_inl,
        pairLeft_append, pairRight_cons, ← Multiset.coe_add] at ih ⊢
      rw [ih]
      abel
    | inr b' =>
      simp only [List.cons_append, found, lefts_append, lefts_inr, lefts_nil, List.append_nil,
        ← Multiset.coe_add] at ih ⊢
      rw [ih]
      abel

/-! ## The two joins -/

/-- **An incremental join finds what the batch join finds**, in any order of arrival. -/
theorem found_perm_batch (xs : List (α ⊕ β)) :
    (found p p xs).Perm (batch p (lefts xs) (rights xs)) := by
  induction xs with
  | nil => exact List.Perm.refl _
  | cons x xs ih =>
    cases x with
    | inl a =>
      rw [found, lefts_inl, rights_inl, batch_cons_left]
      exact ih.append_left _
    | inr b =>
      rw [found, lefts_inr, rights_inr]
      exact (ih.append_left _).trans (batch_cons_right _ _ _).symm

theorem pairLeft_sublist (h : ∀ a b, e a b = true → p a b = true) (a : α) (bs : List β) :
    (pairLeft e a bs).Sublist (pairLeft p a bs) :=
  (List.monotone_filter_right bs (h a)).map _

theorem pairRight_sublist (h : ∀ a b, e a b = true → q a b = true) (b : β) (as : List α) :
    (pairRight e b as).Sublist (pairRight q b as) :=
  (List.monotone_filter_right as fun a => h a b).map _

theorem length_pairLeft_iff (h : ∀ a b, e a b = true → p a b = true) (a : α) (bs : List β) :
    (pairLeft p a bs).length = (pairLeft e a bs).length ↔
      ∀ b ∈ bs, p a b = true → e a b = true := by
  constructor
  · intro hlen b hb hp
    have heq := (pairLeft_sublist h a bs).eq_of_length hlen.symm
    have hmem : (a, b) ∈ pairLeft e a bs := by
      rw [heq]
      exact mem_pairLeft.mpr ⟨rfl, hb, hp⟩
    exact (mem_pairLeft.mp hmem).2.2
  · intro hall
    have heq : bs.filter (p a) = bs.filter (e a) :=
      List.filter_congr fun b hb => Bool.eq_iff_iff.mpr ⟨hall b hb, h a b⟩
    rw [pairLeft, pairLeft, heq]

theorem length_pairRight_iff (h : ∀ a b, e a b = true → q a b = true) (b : β) (as : List α) :
    (pairRight q b as).length = (pairRight e b as).length ↔
      ∀ a ∈ as, q a b = true → e a b = true := by
  have hflip := length_pairLeft_iff (p := fun b a => q a b) (e := fun b a => e a b)
    (fun b a => h a b) b as
  simpa only [pairLeft, pairRight, List.length_map] using hflip

theorem length_found_le (hp : ∀ a b, e a b = true → p a b = true)
    (hq : ∀ a b, e a b = true → q a b = true) (xs : List (α ⊕ β)) :
    (found e e xs).length ≤ (found p q xs).length := by
  induction xs with
  | nil => exact le_refl _
  | cons x xs ih =>
    cases x with
    | inl a =>
      have hle := (pairLeft_sublist hp a (rights xs)).length_le
      simp only [found, List.length_append]
      omega
    | inr b =>
      have hle := (pairRight_sublist hq b (lefts xs)).length_le
      simp only [found, List.length_append]
      omega

/-- **When two wide predicates find no pair too many:** if no right element meets, by `p`, an
earlier left one outside `e`, and no left element, by `q`, an earlier right one outside `e`. -/
theorem length_found_iff (hp : ∀ a b, e a b = true → p a b = true)
    (hq : ∀ a b, e a b = true → q a b = true) (xs : List (α ⊕ β)) :
    (found p q xs).length = (found e e xs).length ↔
      (∀ a b, [.inl a, .inr b].Sublist xs → p a b = true → e a b = true) ∧
        ∀ a b, [.inr b, .inl a].Sublist xs → q a b = true → e a b = true := by
  induction xs with
  | nil => simp [found]
  | cons x xs ih =>
    have hle := length_found_le hp hq xs
    cases x with
    | inl a₀ =>
      have hhead := length_pairLeft_iff hp a₀ (rights xs)
      have hheadLe := (pairLeft_sublist hp a₀ (rights xs)).length_le
      have hsplit : (found p q (.inl a₀ :: xs)).length = (found e e (.inl a₀ :: xs)).length ↔
          (pairLeft p a₀ (rights xs)).length = (pairLeft e a₀ (rights xs)).length ∧
            (found p q xs).length = (found e e xs).length := by
        simp only [found, List.length_append]
        omega
      rw [hsplit, hhead, ih]
      simp only [List.sublist_cons_iff, mem_rights]
      constructor
      · rintro ⟨hnow, hleft, hright⟩
        refine ⟨fun a b hsub => ?_, fun a b hsub => ?_⟩
        · rcases hsub with hsub | ⟨r, hr, hsub⟩
          · exact hleft a b hsub
          · cases hr
            exact hnow b (List.singleton_sublist.mp hsub)
        · rcases hsub with hsub | ⟨r, hr, -⟩
          · exact hright a b hsub
          · cases hr
      · rintro ⟨hleft, hright⟩
        exact ⟨fun b hb => hleft a₀ b (Or.inr ⟨_, rfl, List.singleton_sublist.mpr hb⟩),
          fun a b hsub => hleft a b (Or.inl hsub), fun a b hsub => hright a b (Or.inl hsub)⟩
    | inr b₀ =>
      have hhead := length_pairRight_iff hq b₀ (lefts xs)
      have hheadLe := (pairRight_sublist hq b₀ (lefts xs)).length_le
      have hsplit : (found p q (.inr b₀ :: xs)).length = (found e e (.inr b₀ :: xs)).length ↔
          (pairRight q b₀ (lefts xs)).length = (pairRight e b₀ (lefts xs)).length ∧
            (found p q xs).length = (found e e xs).length := by
        simp only [found, List.length_append]
        omega
      rw [hsplit, hhead, ih]
      simp only [List.sublist_cons_iff, mem_lefts]
      constructor
      · rintro ⟨hnow, hleft, hright⟩
        refine ⟨fun a b hsub => ?_, fun a b hsub => ?_⟩
        · rcases hsub with hsub | ⟨r, hr, -⟩
          · exact hleft a b hsub
          · cases hr
        · rcases hsub with hsub | ⟨r, hr, hsub⟩
          · exact hright a b hsub
          · cases hr
            exact hnow a (List.singleton_sublist.mp hsub)
      · rintro ⟨hleft, hright⟩
        exact ⟨fun a ha => hright a b₀ (Or.inr ⟨_, rfl, List.singleton_sublist.mpr ha⟩),
          fun a b hsub => hleft a b (Or.inl hsub), fun a b hsub => hright a b (Or.inl hsub)⟩

theorem found_eq (hp : ∀ a b, e a b = true → p a b = true)
    (hq : ∀ a b, e a b = true → q a b = true) {xs : List (α ⊕ β)}
    (hlen : (found p q xs).length = (found e e xs).length) : found p q xs = found e e xs := by
  have hsub : (found e e xs).Sublist (found p q xs) := by
    clear hlen
    induction xs with
    | nil => exact List.Sublist.refl _
    | cons x xs ih =>
      cases x with
      | inl a => exact (pairLeft_sublist hp a _).append ih
      | inr b => exact (pairRight_sublist hq b _).append ih
  exact (hsub.eq_of_length hlen.symm).symm

/-! ## Joins by shared keys -/

section Sharing

variable {κ : Type*} [DecidableEq κ] {ka : α → List κ} {kb : β → List κ} {G : List κ}

/-- A pair for each key that its elements share. -/
def sharing (ka : α → List κ) (kb : β → List κ) (as : List α) (bs : List β) : List (α × β) :=
  as.flatMap fun a => bs.flatMap fun b => ((ka a).filter fun k => k ∈ kb b).map fun _ => (a, b)

theorem sharing_pair (hG : G.Nodup) {a : α} (ha : (ka a).Nodup) (hsub : ka a ⊆ G) (b : β) :
    (G.flatMap fun k => if k ∈ ka a ∧ k ∈ kb b then [(a, b)] else []).Perm
      (((ka a).filter fun k => k ∈ kb b).map fun _ => (a, b)) := by
  have hgroups : (G.flatMap fun k => if k ∈ ka a ∧ k ∈ kb b then [(a, b)] else []) =
      (G.filter fun k => k ∈ ka a ∧ k ∈ kb b).map fun _ => (a, b) := by
    clear hG hsub
    induction G with
    | nil => rfl
    | cons k G ih =>
      rw [List.flatMap_cons, List.filter_cons, ih]
      split_ifs <;> first | rfl | simp_all
  rw [hgroups]
  refine List.Perm.map _ ((List.perm_ext_iff_of_nodup (hG.filter _) (ha.filter _)).mpr fun k => ?_)
  simp only [List.mem_filter, decide_eq_true_eq]
  exact ⟨fun h => h.2, fun h => ⟨hsub h.1, h⟩⟩

theorem sharing_left (hG : G.Nodup) {a : α} (ha : (ka a).Nodup) (hsub : ka a ⊆ G) (bs : List β) :
    (G.flatMap fun k => if k ∈ ka a then pairLeft (fun _ _ => true) a (bs.filter fun b => k ∈ kb b)
        else []).Perm
      (bs.flatMap fun b => ((ka a).filter fun k => k ∈ kb b).map fun _ => (a, b)) := by
  induction bs with
  | nil => simp [pairLeft]
  | cons b bs ih =>
    have hsplit : ∀ k, (if k ∈ ka a then
          pairLeft (fun _ _ => true) a ((b :: bs).filter fun b => k ∈ kb b) else []) =
        (if k ∈ ka a ∧ k ∈ kb b then [(a, b)] else []) ++
          if k ∈ ka a then pairLeft (fun _ _ => true) a (bs.filter fun b => k ∈ kb b) else [] := by
      intro k
      by_cases hka : k ∈ ka a <;> by_cases hkb : k ∈ kb b <;> simp [hka, hkb, pairLeft]
    simp only [hsplit, List.flatMap_cons]
    exact (List.flatMap_append_perm _ _ _).symm.trans ((sharing_pair hG ha hsub b).append ih)

/-- **A join by shared keys pairs the elements of every group.** -/
theorem sharing_perm (hG : G.Nodup) {as : List α} (has : ∀ a ∈ as, (ka a).Nodup ∧ ka a ⊆ G)
    (bs : List β) :
    (G.flatMap fun k => batch (fun _ _ => true) (as.filter fun a => k ∈ ka a)
      (bs.filter fun b => k ∈ kb b)).Perm (sharing ka kb as bs) := by
  induction as with
  | nil => simp [batch, sharing]
  | cons a as ih =>
    have hsplit : ∀ k, batch (fun _ _ => true) ((a :: as).filter fun a => k ∈ ka a)
          (bs.filter fun b => k ∈ kb b) =
        (if k ∈ ka a then pairLeft (fun _ _ => true) a (bs.filter fun b => k ∈ kb b) else []) ++
          batch (fun _ _ => true) (as.filter fun a => k ∈ ka a) (bs.filter fun b => k ∈ kb b) := by
      intro k
      by_cases hka : k ∈ ka a <;> simp [hka, batch]
    simp only [hsplit]
    obtain ⟨hnodup, hsub⟩ := has a List.mem_cons_self
    refine (List.flatMap_append_perm _ _ _).symm.trans ?_
    exact (sharing_left hG hnodup hsub bs).append
      (ih fun a ha => has a (List.mem_cons_of_mem _ ha))

end Sharing

end PairJoin
