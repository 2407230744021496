import Flume.Lib.Packing
import Flume.Runtime.Spread

/-!
# How `Pack` packs

`Pack` queues the slots of the TaskManager with the fewest available slots first, and the subtasks
take them from the end. So the TaskManagers with the most available slots are filled one after the
other. In a release build an offer with more slots in use than it has counts as the largest of all,
but there is nothing to take from it.

* `usedTaskManagers`: the TaskManagers with a subtask; `LeftOver`: those with a slot left;
* `Filled`: how the slots are taken from the offers, most available first;
* **`Filled.minimal`**, **`Filled.unique`**: what follows from it;
* **`schedule_packed`**: no choice of fewer offers has enough slots, and at most one TaskManager
  that is used has a slot left.
-/

namespace Flume

open LogicalGraph
open scoped List

/-- The TaskManagers with a subtask, each once. -/
def usedTaskManagers (assignments : List SubtaskAssignment) : List String :=
  (assignments.map SubtaskAssignment.taskManagerId).dedup

/-- An available slot of the offer is not assigned. -/
def SlotOffer.LeftOver (o : SlotOffer) (assignments : List SubtaskAssignment) : Prop :=
  ∃ slot ∈ o.freeSlots, slot ∉ assignments.map SubtaskAssignment.slot

/-- The offers with a slot to take. -/
def withSlots (slots : List SlotOffer) : List SlotOffer := slots.filter fun o => 0 < o.free

/-- The offers in the order in which `Pack` fills them. -/
def packOrder (slots : List SlotOffer) : List SlotOffer :=
  (withSlots (slots.insertionSort fun a b => a.difference ≤ b.difference)).reverse

theorem perm_packOrder (slots : List SlotOffer) : (packOrder slots).Perm (withSlots slots) :=
  (List.reverse_perm _).trans ((List.perm_insertionSort _ _).filter _)

theorem reverse_buildSlotQueue_pack (slots : List SlotOffer) :
    (buildSlotQueue slots .pack).reverse =
      (packOrder slots).flatMap fun o => o.freeSlots.reverse := by
  have hempty : ∀ offers : List SlotOffer, offers.flatMap SlotOffer.freeSlots =
      (withSlots offers).flatMap SlotOffer.freeSlots := by
    intro offers
    induction offers with
    | nil => rfl
    | cons o offers ih =>
      unfold withSlots at ih ⊢
      rw [List.flatMap_cons, ih, List.filter_cons]
      split_ifs with hfree
      · rfl
      · have hnone : o.free = 0 := by simpa using hfree
        rw [List.eq_nil_of_length_eq_zero (o.length_freeSlots.trans hnone), List.nil_append]
  change ((slots.insertionSort fun a b => a.difference ≤ b.difference).flatMap
    SlotOffer.freeSlots).reverse = _
  rw [hempty, List.reverse_flatMap]
  rfl

theorem pairwise_packOrder (slots : List SlotOffer) : (packOrder slots).Pairwise fun a b =>
    b.freeSlots.reverse.length ≤ a.freeSlots.reverse.length := by
  have hsorted : (slots.insertionSort fun a b => a.difference ≤ b.difference).Pairwise
      fun a b => a.difference ≤ b.difference := List.pairwise_insertionSort _ _
  refine List.pairwise_reverse.mpr (List.Pairwise.imp_of_mem (fun {a b} ha hb hle => ?_)
    (hsorted.filter _))
  have hfree : ∀ o ∈ withSlots (slots.insertionSort fun a b => a.difference ≤ b.difference),
      o.difference = o.free := fun o ho =>
    SlotOffer.difference_eq (of_decide_eq_true (List.mem_filter.mp ho).2)
  rw [hfree a ha, hfree b hb] at hle
  rw [List.length_reverse, List.length_reverse, a.length_freeSlots, b.length_freeSlots]
  exact hle

theorem sum_withSlots (offers : List SlotOffer) :
    ((withSlots offers).map SlotOffer.free).sum = (offers.map SlotOffer.free).sum := by
  induction offers with
  | nil => rfl
  | cons o offers ih =>
    unfold withSlots at ih ⊢
    rw [List.filter_cons, List.map_cons, List.sum_cons, ← ih]
    split_ifs with hfree
    · rfl
    · have hnone : o.free = 0 := by simpa using hfree
      rw [hnone, Nat.zero_add]

/-- The offers in `whole` are assigned to the last slot, and the next one up to a part. -/
structure Filled (slots : List SlotOffer) (assigned : List (String × ℕ)) (whole : List SlotOffer)
    (last : SlotOffer) (rest : List SlotOffer) (part : List (String × ℕ)) : Prop where
  order : packOrder slots = whole ++ last :: rest
  taken : assigned = (whole.flatMap fun o => o.freeSlots.reverse) ++ part
  of_last : part <+: last.freeSlots.reverse
  ne_nil : part ≠ []

theorem exists_filled {slots : List SlotOffer} {assigned : List (String × ℕ)}
    (h : assigned <+: (buildSlotQueue slots .pack).reverse) (hne : assigned ≠ []) :
    ∃ whole last rest part, Filled slots assigned whole last rest part := by
  rw [reverse_buildSlotQueue_pack] at h
  obtain ⟨whole, last, rest, part, horder, hassigned, hpart, hne'⟩ := Packing.prefix_flatMap h hne
  exact ⟨whole, last, rest, part, horder, hassigned, hpart, hne'⟩

section Filled

variable {slots whole rest : List SlotOffer} {last : SlotOffer} {part : List (String × ℕ)}
  {assignments : List SubtaskAssignment}

theorem Filled.used_subset
    (h : Filled slots (assignments.map SubtaskAssignment.slot) whole last rest part) :
    usedTaskManagers assignments ⊆ (whole ++ [last]).map SlotOffer.taskManagerId := by
  intro tmId htm
  obtain ⟨a, ha, rfl⟩ := List.mem_map.mp (List.mem_dedup.mp htm)
  have hslot : a.slot ∈ assignments.map SubtaskAssignment.slot := List.mem_map_of_mem ha
  have hoffer : ∃ o ∈ whole ++ [last], a.slot ∈ o.freeSlots := by
    rw [h.taken, List.mem_append] at hslot
    rcases hslot with hwhole | hpart
    · obtain ⟨o, ho, hmem⟩ := List.mem_flatMap.mp hwhole
      exact ⟨o, List.mem_append_left _ ho, List.mem_reverse.mp hmem⟩
    · exact ⟨last, by simp, List.mem_reverse.mp (h.of_last.subset hpart)⟩
  obtain ⟨o, ho, hmem⟩ := hoffer
  exact List.mem_map.mpr ⟨o, ho, (SlotOffer.mem_freeSlots.mp hmem).1.symm⟩

/-- **No choice of fewer offers** has as many available slots as are assigned. -/
theorem Filled.minimal
    (h : Filled slots (assignments.map SubtaskAssignment.slot) whole last rest part)
    {chosen : List SlotOffer} (hchosen : chosen <+~ slots)
    (hroom : assignments.length ≤ (chosen.map SlotOffer.free).sum) :
    (usedTaskManagers assignments).length ≤ chosen.length := by
  have hlength : assignments.length =
      ((whole.flatMap fun o => o.freeSlots.reverse) ++ part).length := by
    rw [← h.taken, List.length_map]
  have hfree : (fun o : SlotOffer => o.freeSlots.reverse.length) = SlotOffer.free := by
    funext o
    rw [List.length_reverse, o.length_freeSlots]
    rfl
  have hmore : whole.length < (withSlots chosen).length := by
    refine Packing.length_lt_of_holds (h.order ▸ pairwise_packOrder slots) ?_ h.ne_nil ?_
    · rw [← h.order]
      exact (hchosen.filter _).trans (perm_packOrder slots).symm.subperm
    · rw [← hlength, hfree, sum_withSlots]
      exact hroom
  have hused := ((List.nodup_dedup _).subperm h.used_subset).length_le
  rw [List.length_map, List.length_append, List.length_singleton] at hused
  exact (hused.trans hmore).trans (List.length_filter_le _ _)

/-- **Only the offer filled last** can have a slot left. -/
theorem Filled.unique (hids : (slots.map SlotOffer.taskManagerId).Nodup)
    (h : Filled slots (assignments.map SubtaskAssignment.slot) whole last rest part)
    {o : SlotOffer} (ho : o ∈ slots) (hused : o.taskManagerId ∈ usedTaskManagers assignments)
    (hleft : o.LeftOver assignments) : o = last := by
  obtain ⟨o', ho', hid⟩ := List.mem_map.mp (h.used_subset hused)
  have hmem : o' ∈ slots := by
    refine List.mem_of_mem_filter ((perm_packOrder slots).mem_iff.mp ?_)
    rw [h.order]
    simp only [List.mem_append, List.mem_cons, List.not_mem_nil, or_false] at ho' ⊢
    tauto
  obtain rfl : o' = o := List.inj_on_of_nodup_map hids hmem ho hid
  rcases List.mem_append.mp ho' with hwhole | hlast
  · obtain ⟨slot, hslot, hnot⟩ := hleft
    refine absurd ?_ hnot
    rw [h.taken]
    exact List.mem_append_left _ (List.mem_flatMap.mpr ⟨o', hwhole, List.mem_reverse.mpr hslot⟩)
  · exact List.mem_singleton.mp hlast

end Filled

/-! ## What `Pack` achieves -/

/-- The offers are packed: no choice of fewer offers has as many slots, and of the TaskManagers in
use at most one has a slot left. -/
structure Packed (slots : List SlotOffer) (assignments : List SubtaskAssignment) : Prop where
  minimal : ∀ chosen : List SlotOffer, chosen <+~ slots →
    assignments.length ≤ (chosen.map SlotOffer.free).sum →
      (usedTaskManagers assignments).length ≤ chosen.length
  unique : ∀ a ∈ slots, ∀ b ∈ slots, a.taskManagerId ∈ usedTaskManagers assignments →
    b.taskManagerId ∈ usedTaskManagers assignments → a.LeftOver assignments →
      b.LeftOver assignments → a = b

theorem packed_of_taken {slots : List SlotOffer} {assignments : List SubtaskAssignment}
    (hids : (slots.map SlotOffer.taskManagerId).Nodup)
    (h : assignments.map SubtaskAssignment.slot <+: (buildSlotQueue slots .pack).reverse) :
    Packed slots assignments := by
  by_cases hnil : assignments = []
  · subst hnil
    exact ⟨fun chosen _ _ => Nat.zero_le _, fun a _ b _ ha => by cases ha⟩
  · obtain ⟨whole, last, rest, part, hfilled⟩ := exists_filled h (by simpa using hnil)
    refine ⟨fun chosen hchosen hroom => hfilled.minimal hchosen hroom, ?_⟩
    intro a ha b hb hused hused' hleft hleft'
    rw [hfilled.unique hids ha hused hleft, hfilled.unique hids hb hused' hleft']

variable {overflowChecks : Bool} {graph : LogicalGraph} {slots : List SlotOffer}
  {physical : PhysicalGraph}

/-- **`Pack` uses as few TaskManagers as possible**, for as many subtasks as the graph has. -/
theorem schedule_packed (hids : (slots.map SlotOffer.taskManagerId).Nodup)
    (h : schedule overflowChecks graph slots .pack = .ok physical) :
    physical.assignments.length = graph.subtaskCount ∧
      Packed slots physical.assignments :=
  ⟨length_assignments h, packed_of_taken hids (schedule_slots h)⟩

theorem linearGraph_packed : ∃ physical, schedule true linearGraph twoTmSlots .pack = .ok physical ∧
    Packed twoTmSlots physical.assignments := by
  have hok : ∃ physical, schedule true linearGraph twoTmSlots .pack = .ok physical := ⟨_, rfl⟩
  obtain ⟨physical, h⟩ := hok
  exact ⟨physical, h, (schedule_packed distinct_twoTmSlots h).2⟩

end Flume
