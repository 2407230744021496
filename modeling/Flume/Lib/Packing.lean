import Mathlib.Algebra.BigOperators.Group.List.Basic
import Mathlib.Algebra.Order.BigOperators.Group.List
import Mathlib.Data.List.Basic
import Mathlib.Data.List.Perm.Subperm
import Mathlib.Tactic

/-!
# Packing into the largest bins

The contents of a list of bins are taken one after the other. What is taken comes from the first
bins, and all of these but the last are taken whole. If the bins come largest first, no fewer bins
hold as much.

* `prefix_flatMap`: what is taken, bin by bin;
* `sum_le_sum_take`: no choice of bins holds more than equally many of the first ones;
* **`length_lt_of_holds`**: a choice that holds what is taken has as many bins as are used.
-/

namespace Packing

open scoped List

variable {α β : Type*} {bins : List α} {contents : α → List β} {size : α → ℕ}

/-- **What is taken**, bin by bin: some bins are taken whole, and of the next one a first part. -/
theorem prefix_flatMap {taken : List β} (h : taken <+: bins.flatMap contents)
    (hne : taken ≠ []) : ∃ whole last rest part, bins = whole ++ last :: rest ∧
      taken = whole.flatMap contents ++ part ∧ part <+: contents last ∧ part ≠ [] := by
  induction bins generalizing taken with
  | nil => exact absurd (List.prefix_nil.mp h) hne
  | cons bin bins ih =>
    obtain ⟨left, hleft⟩ := h
    rw [List.flatMap_cons] at hleft
    rcases List.append_eq_append_iff.mp hleft with ⟨rest, hbin, -⟩ | ⟨taken', rfl, hrest⟩
    · exact ⟨[], bin, bins, taken, rfl, rfl, ⟨rest, hbin.symm⟩, hne⟩
    · by_cases hnil : taken' = []
      · -- the bin is taken to its end, and nothing of those behind it
        subst hnil
        rw [List.append_nil] at hne ⊢
        exact ⟨[], bin, bins, contents bin, rfl, rfl, List.prefix_rfl, hne⟩
      · obtain ⟨whole, last, rest, part, rfl, rfl, hpart, hne'⟩ := ih ⟨left, hrest.symm⟩ hnil
        exact ⟨bin :: whole, last, rest, part, rfl, by simp, hpart, hne'⟩

theorem sum_take_succ_le {c : ℕ} (h : ∀ b ∈ bins, size b ≤ c) (k : ℕ) :
    ((bins.take (k + 1)).map size).sum ≤ c + ((bins.take k).map size).sum := by
  rw [List.take_add_one, List.map_append, List.sum_append, add_comm]
  refine Nat.add_le_add_right ?_ _
  cases hget : bins[k]? with
  | none => exact Nat.zero_le _
  | some b => simpa using h b (List.mem_of_getElem? hget)

/-- **No choice of bins holds more** than equally many of the first ones. -/
theorem sum_le_sum_take (hsize : bins.Pairwise fun a b => size b ≤ size a) {chosen : List α}
    (h : chosen <+ bins) :
    (chosen.map size).sum ≤ ((bins.take chosen.length).map size).sum := by
  induction h with
  | slnil => exact le_rfl
  | @cons chosen bins bin hsub ih =>
    obtain ⟨hle, hsize⟩ := List.pairwise_cons.mp hsize
    refine (ih hsize).trans ?_
    cases hlen : chosen.length with
    | zero => exact le_rfl
    | succ k => exact sum_take_succ_le hle k
  | @cons_cons chosen bins bin hsub ih =>
    obtain ⟨-, hsize⟩ := List.pairwise_cons.mp hsize
    rw [List.length_cons, List.take_succ_cons, List.map_cons, List.map_cons, List.sum_cons,
      List.sum_cons]
    exact Nat.add_le_add_left (ih hsize) _

/-- **A choice that holds what is taken** has no fewer bins than are used. -/
theorem length_lt_of_holds {whole rest chosen : List α} {last : α} {part : List β}
    (hsize : (whole ++ last :: rest).Pairwise fun a b => (contents b).length ≤ (contents a).length)
    (hchosen : chosen <+~ whole ++ last :: rest) (hpart : part ≠ [])
    (hholds : (whole.flatMap contents ++ part).length ≤
      (chosen.map fun b => (contents b).length).sum) : whole.length < chosen.length := by
  obtain ⟨chosen', hperm, hsub⟩ := hchosen
  by_contra hle
  have hfirst := sum_le_sum_take hsize hsub
  have htake : ((whole ++ last :: rest).take chosen'.length).map (fun b => (contents b).length) <+
      whole.map fun b => (contents b).length := by
    rw [hperm.length_eq, List.take_append_of_le_length (Nat.not_lt.mp hle)]
    exact (List.take_sublist _ _).map _
  have hwhole := htake.sum_le_sum (fun _ _ => Nat.zero_le _)
  have hpos := List.length_pos_iff.mpr hpart
  rw [List.length_append, List.length_flatMap, ← (hperm.map _).sum_eq] at hholds
  omega

end Packing
