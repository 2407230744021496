import Flume.Lib.Runs
import Mathlib.Data.List.Basic
import Mathlib.Logic.Relation
import Mathlib.Order.WellFoundedSet

/-!
# Acyclic relations

A relation is acyclic if no element reaches itself. A list respects a relation if every element
comes after all elements that are related to it.

* `Respects.idxOf_lt`: related elements stand in order;
* `Respects.pairwise`: no element comes before one that is related to it;
* **`Respects.acyclic`**: a relation is acyclic if a list with all its targets respects it;
* **`Acyclic.induction`**: on finitely many elements an acyclic relation can be followed backwards.
-/

namespace Relation

variable {α : Type*} {r : α → α → Prop}

/-- No element reaches itself. -/
def Acyclic (r : α → α → Prop) : Prop := ∀ a, ¬ TransGen r a a

/-- Every element of a list comes after all elements that are related to it. -/
def Respects (r : α → α → Prop) (l : List α) : Prop :=
  Runs.EachAfter (fun pre b => ∀ a, r a b → a ∈ pre) l

section Respects

variable [DecidableEq α] {l : List α} {a b : α}

theorem Respects.idxOf_lt (h : Respects r l) (hb : b ∈ l) (hab : r a b) :
    l.idxOf a < l.idxOf b := by
  obtain ⟨pre, post, rfl, hpre⟩ := List.eq_append_cons_of_mem hb
  have ha : a ∈ pre := h pre b post rfl a hab
  rw [List.idxOf_append_of_mem ha, List.idxOf_append_of_notMem hpre, List.idxOf_cons_self]
  exact List.idxOf_lt_length_of_mem ha

/-- **A list with all targets that respects a relation** shows it acyclic. -/
theorem Respects.acyclic (h : Respects r l) (hl : ∀ a b, r a b → b ∈ l) : Acyclic r := by
  intro a hcycle
  have hlt : ∀ b, TransGen r a b → l.idxOf a < l.idxOf b := by
    intro b hb
    induction hb with
    | single hab => exact h.idxOf_lt (hl _ _ hab) hab
    | tail _ hbc ih => exact ih.trans (h.idxOf_lt (hl _ _ hbc) hbc)
  exact lt_irrefl _ (hlt a hcycle)

end Respects

theorem Respects.pairwise {l : List α} (h : Respects r l) (hnodup : l.Nodup) :
    l.Pairwise fun a b => ¬ r b a := by
  induction l using List.reverseRecOn with
  | nil => exact List.Pairwise.nil
  | append_singleton l b ih =>
    obtain ⟨hbefore, -⟩ := Runs.eachAfter_concat.mp h
    obtain ⟨hl, -, hb⟩ := List.nodup_append.mp hnodup
    refine List.pairwise_append.mpr ⟨ih hbefore hl, List.pairwise_singleton _ _, ?_⟩
    intro a ha c hc hca
    obtain rfl := List.mem_singleton.mp hc
    obtain ⟨pre, post, rfl⟩ := List.append_of_mem ha
    exact hb c (List.mem_append_left _ (hbefore pre a post rfl c hca)) c List.mem_cons_self rfl

/-- **Induction along an acyclic relation** on finitely many elements. -/
theorem Acyclic.induction (h : Acyclic r) {s : Set α} (hs : s.Finite) {P : α → Prop}
    (hstep : ∀ b ∈ s, (∀ a ∈ s, r a b → P a) → P b) : ∀ b ∈ s, P b := by
  have hstrict : IsStrictOrder α (TransGen r) :=
    { irrefl := h, trans := fun _ _ _ hab hbc => hab.trans hbc }
  have hwf : s.WellFoundedOn (TransGen r) := hs.wellFoundedOn
  intro b hb
  refine hwf.induction hb fun b hb ih => hstep b hb fun a ha hab => ?_
  exact ih a ha (TransGen.single hab)

end Relation
