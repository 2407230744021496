import Flume.Runtime.Placement

/-!
# How `Spread` spreads

The rounds of `Spread` queue the slots from the front, and the subtasks take them from the end.
So the last rounds are used first, and in these only the TaskManagers with the most available slots
take part.

* `SpreadEvenly`: while a TaskManager has an available slot, no other gets two subtasks more;
* `slotsBehind`: what the queue has after a slot, from the numbers of available slots alone;
* `HandedOut`, `assignedTo_gt_iff`: how many slots of an offer are among the last of the queue;
* **`spreadEvenly_iff`**: for which offers `Spread` spreads evenly;
* **`spreadEvenly_of_close`**: for those whose available slots differ by one at most;
* **`twoSubtasks_not_spread`**: two subtasks on one TaskManager while another is empty.
-/

namespace Flume

open LogicalGraph Relation

/-- The number of available slots. -/
def SlotOffer.free (o : SlotOffer) : ℕ := o.totalSlots - o.usedSlots

theorem SlotOffer.difference_eq {o : SlotOffer} (h : 0 < o.free) : o.difference = o.free := by
  unfold SlotOffer.free at h
  exact if_pos (by omega)

/-- The available slot `i` of an offer. -/
def SlotOffer.slot (o : SlotOffer) (i : ℕ) : String × ℕ := (o.taskManagerId, o.usedSlots + i)

/-- The offers in the order of the rounds. -/
def mostAvailableFirst (slots : List SlotOffer) : List SlotOffer :=
  slots.insertionSort fun a b => b.difference ≤ a.difference

/-- The number of subtasks on a TaskManager. -/
def assignedTo (assignments : List SubtaskAssignment) (tmId : String) : ℕ :=
  assignments.countP fun a => a.taskManagerId = tmId

/-- While a TaskManager has a slot left, no other has two subtasks more. -/
def SpreadEvenly (slots : List SlotOffer) (assignments : List SubtaskAssignment) : Prop :=
  ∀ a ∈ slots, ∀ b ∈ slots,
    (∃ slot ∈ b.freeSlots, slot ∉ assignments.map SubtaskAssignment.slot) →
      assignedTo assignments a.taskManagerId ≤ assignedTo assignments b.taskManagerId + 1

/-- What the queue has after the available slot `i` of an offer, where `behind` are the offers
after it: the later rounds, and the rest of the same round. -/
def slotsBehind (offers behind : List SlotOffer) (i : ℕ) : ℕ :=
  (offers.map fun o => o.free - (i + 1)).sum + behind.countP fun o => i < o.free

/-- The offer at position `p` has more than `k` slots, and `k + 1` of them are among the last `n`
of the queue. -/
def HandedOut (offers : List SlotOffer) (n : ℕ) (p : Fin offers.length) (k : ℕ) : Prop :=
  k < (offers.get p).free ∧
    slotsBehind offers (offers.drop (p + 1)) ((offers.get p).free - (k + 1)) < n

/-- No offer has `k + 2` slots among the last `n` of the queue before each offer with more than `k`
slots has `k + 1` of them there. -/
def EvenUpTo (offers : List SlotOffer) (n : ℕ) : Prop :=
  ∀ p q : Fin offers.length, ∀ k < (offers.get q).free,
    HandedOut offers n p (k + 1) → HandedOut offers n q k

theorem mem_mostAvailableFirst {slots : List SlotOffer} {o : SlotOffer} :
    o ∈ mostAvailableFirst slots ↔ o ∈ slots := (List.perm_insertionSort _ _).mem_iff

/-! ## Where the slots are in the queue -/

theorem slotsBehind_eq (offers behind : List SlotOffer) (i : ℕ) :
    RoundRobin.takenAfter (offers.map SlotOffer.freeSlots) (behind.map SlotOffer.freeSlots) i =
      slotsBehind offers behind i := by
  unfold RoundRobin.takenAfter slotsBehind
  rw [List.map_map, List.countP_map]
  congr 1
  · congr 1
    refine List.map_congr_left fun o _ => ?_
    rw [Function.comp_apply, o.length_freeSlots]
    rfl
  · refine List.countP_congr fun o _ => ?_
    rw [Function.comp_apply, o.length_freeSlots]
    rfl

theorem slotsBehind_anti (offers behind : List SlotOffer) {i j : ℕ} (h : i ≤ j) :
    slotsBehind offers behind j ≤ slotsBehind offers behind i := by
  unfold slotsBehind
  refine Nat.add_le_add (List.sum_le_sum fun o _ => by omega) ?_
  refine List.countP_mono_left fun o _ hj => ?_
  rw [decide_eq_true_iff] at hj ⊢
  exact h.trans_lt hj

theorem SlotOffer.freeSlots_eq (o : SlotOffer) : o.freeSlots = (List.range o.free).map o.slot := by
  unfold SlotOffer.freeSlots SlotOffer.free
  rw [List.range'_eq_map_range, List.map_map]
  rfl

theorem SlotOffer.freeSlots_split (o : SlotOffer) {i : ℕ} (hi : i < o.free) :
    ∃ q q', o.freeSlots = q ++ o.slot i :: q' ∧ q.length = i := by
  have hlen : i < o.freeSlots.length := by
    rw [o.length_freeSlots]
    exact hi
  have hget : o.freeSlots[i] = o.slot i := by
    simp [SlotOffer.freeSlots, SlotOffer.slot]
  refine ⟨o.freeSlots.take i, o.freeSlots.drop (i + 1), ?_, ?_⟩
  · rw [← hget, List.getElem_cons_drop, List.take_append_drop]
  · rw [List.length_take]
    exact Nat.min_eq_left hlen.le

/-- **Where a slot is in the queue.** -/
theorem buildSlotQueue_split (slots : List SlotOffer) (p : Fin (mostAvailableFirst slots).length)
    {i : ℕ} (hi : i < ((mostAvailableFirst slots).get p).free) :
    ∃ taken rest, buildSlotQueue slots .spread =
        taken ++ ((mostAvailableFirst slots).get p).slot i :: rest ∧
      rest.length =
        slotsBehind (mostAvailableFirst slots) ((mostAvailableFirst slots).drop (p + 1)) i := by
  have hqueue : buildSlotQueue slots .spread =
      RoundRobin.interleave (RoundRobin.longest ((mostAvailableFirst slots).map SlotOffer.freeSlots))
        ((mostAvailableFirst slots).map SlotOffer.freeSlots) := rfl
  have hlong : ∀ l ∈ (mostAvailableFirst slots).map SlotOffer.freeSlots, l.length ≤
      RoundRobin.longest ((mostAvailableFirst slots).map SlotOffer.freeSlots) :=
    fun _ => RoundRobin.length_le_longest
  rw [hqueue, ← slotsBehind_eq]
  generalize RoundRobin.longest ((mostAvailableFirst slots).map SlotOffer.freeSlots) = rounds at *
  obtain ⟨q, q', hq, rfl⟩ := ((mostAvailableFirst slots).get p).freeSlots_split hi
  have hoffers : (mostAvailableFirst slots).map SlotOffer.freeSlots =
      ((mostAvailableFirst slots).take p).map SlotOffer.freeSlots ++
        (q ++ ((mostAvailableFirst slots).get p).slot q.length :: q') ::
        ((mostAvailableFirst slots).drop (p + 1)).map SlotOffer.freeSlots := by
    rw [← hq, ← List.map_cons, ← List.map_append, List.get_eq_getElem, List.getElem_cons_drop,
      List.take_append_drop]
  rw [hoffers] at hlong ⊢
  exact RoundRobin.interleave_split hlong

/-! ## How many slots of an offer are assigned -/

theorem lt_countP_range {P : ℕ → Prop} [DecidablePred P] (hP : ∀ i j, i ≤ j → P i → P j)
    {n k : ℕ} : k < (List.range n).countP P ↔ k < n ∧ P (n - (k + 1)) := by
  induction n generalizing k with
  | zero => simp
  | succ n ih =>
    rw [List.range_succ, List.countP_append]
    by_cases hn : P n
    · rw [List.countP_singleton, if_pos (decide_eq_true hn)]
      cases k with
      | zero => simp [hn]
      | succ k => rw [Nat.add_lt_add_iff_right, Nat.add_lt_add_iff_right, ih, Nat.add_sub_add_right]
    · have hnone : (List.range n).countP P = 0 := by
        rw [List.countP_eq_zero]
        intro i hi hPi
        exact hn (hP i n (List.mem_range.mp hi).le (of_decide_eq_true hPi))
      rw [List.countP_singleton, if_neg fun h => hn (of_decide_eq_true h), hnone]
      refine iff_of_false (Nat.not_lt_zero k) fun h => hn (hP _ n (by omega) h.2)

section Assigned

variable {slots : List SlotOffer} {assignments : List SubtaskAssignment}

theorem slot_mem_iff (hids : (slots.map SlotOffer.taskManagerId).Nodup)
    (h : assignments.map SubtaskAssignment.slot <+: (buildSlotQueue slots .spread).reverse)
    (p : Fin (mostAvailableFirst slots).length) {i : ℕ}
    (hi : i < ((mostAvailableFirst slots).get p).free) :
    ((mostAvailableFirst slots).get p).slot i ∈ assignments.map SubtaskAssignment.slot ↔
      slotsBehind (mostAvailableFirst slots) ((mostAvailableFirst slots).drop (p + 1)) i <
        assignments.length := by
  obtain ⟨taken, rest, hqueue, hrest⟩ := buildSlotQueue_split slots p hi
  have hnodup : (buildSlotQueue slots .spread).reverse.Nodup :=
    (perm_reverse_buildSlotQueue slots .spread).nodup_iff.mpr (nodup_freeSlots hids)
  rw [hqueue, List.reverse_append, List.reverse_cons, List.append_assoc,
    List.singleton_append] at h hnodup
  rw [List.prefix_iff_eq_take.mp h, List.length_map, ← hrest]
  generalize ((mostAvailableFirst slots).get p).slot i = slot at hnodup ⊢
  have hnew : slot ∉ rest.reverse := fun hin =>
    (List.nodup_append.mp hnodup).2.2 slot hin slot List.mem_cons_self rfl
  rw [List.mem_take_iff_idxOf_lt (List.mem_append_right _ List.mem_cons_self),
    List.idxOf_append_of_notMem hnew, List.idxOf_cons_self, List.length_reverse, Nat.add_zero]

theorem assignedTo_eq (hids : (slots.map SlotOffer.taskManagerId).Nodup)
    (h : assignments.map SubtaskAssignment.slot <+: (buildSlotQueue slots .spread).reverse)
    {o : SlotOffer} (ho : o ∈ slots) : assignedTo assignments o.taskManagerId =
      o.freeSlots.countP fun slot => slot ∈ assignments.map SubtaskAssignment.slot := by
  have hqueue := perm_reverse_buildSlotQueue slots .spread
  have hnodup : (assignments.map SubtaskAssignment.slot).Nodup :=
    h.sublist.nodup (hqueue.nodup_iff.mpr (nodup_freeSlots hids))
  have hperm : ((assignments.map SubtaskAssignment.slot).filter fun slot =>
      slot.1 = o.taskManagerId).Perm
      (o.freeSlots.filter fun slot => slot ∈ assignments.map SubtaskAssignment.slot) := by
    rw [List.perm_ext_iff_of_nodup (hnodup.filter _) (o.nodup_freeSlots.filter _)]
    rintro ⟨tmId, i⟩
    rw [List.mem_filter, List.mem_filter, decide_eq_true_iff, decide_eq_true_iff]
    constructor
    · rintro ⟨hmem, rfl⟩
      obtain ⟨o', ho', hslot⟩ := List.mem_flatMap.mp (hqueue.mem_iff.mp (h.subset hmem))
      have heq : o = o' := List.inj_on_of_nodup_map hids ho ho' (SlotOffer.mem_freeSlots.mp hslot).1
      exact ⟨heq ▸ hslot, hmem⟩
    · rintro ⟨hslot, hmem⟩
      exact ⟨hmem, (SlotOffer.mem_freeSlots.mp hslot).1⟩
  have hlen := hperm.length_eq
  rw [← List.countP_eq_length_filter, ← List.countP_eq_length_filter, List.countP_map] at hlen
  exact hlen

/-- **How many subtasks a TaskManager gets.** -/
theorem assignedTo_gt_iff (hids : (slots.map SlotOffer.taskManagerId).Nodup)
    (h : assignments.map SubtaskAssignment.slot <+: (buildSlotQueue slots .spread).reverse)
    (p : Fin (mostAvailableFirst slots).length) (k : ℕ) :
    k < assignedTo assignments ((mostAvailableFirst slots).get p).taskManagerId ↔
      HandedOut (mostAvailableFirst slots) assignments.length p k := by
  have ho : (mostAvailableFirst slots).get p ∈ slots :=
    mem_mostAvailableFirst.mp (List.get_mem _ _)
  have hcount : assignedTo assignments ((mostAvailableFirst slots).get p).taskManagerId =
      (List.range ((mostAvailableFirst slots).get p).free).countP fun i =>
        slotsBehind (mostAvailableFirst slots) ((mostAvailableFirst slots).drop (p + 1)) i <
          assignments.length := by
    rw [assignedTo_eq hids h ho, SlotOffer.freeSlots_eq, List.countP_map]
    refine List.countP_congr fun i hi => ?_
    rw [Function.comp_apply, decide_eq_true_iff, decide_eq_true_iff]
    exact slot_mem_iff hids h p (List.mem_range.mp hi)
  rw [hcount, lt_countP_range fun i j hij hi => (slotsBehind_anti _ _ hij).trans_lt hi]
  rfl

theorem exists_free_iff (hids : (slots.map SlotOffer.taskManagerId).Nodup)
    (h : assignments.map SubtaskAssignment.slot <+: (buildSlotQueue slots .spread).reverse)
    {o : SlotOffer} (ho : o ∈ slots) :
    (∃ slot ∈ o.freeSlots, slot ∉ assignments.map SubtaskAssignment.slot) ↔
      assignedTo assignments o.taskManagerId < o.free := by
  have hle : o.freeSlots.countP (fun slot => slot ∈ assignments.map SubtaskAssignment.slot) ≤
      o.freeSlots.length := List.countP_le_length
  rw [assignedTo_eq hids h ho, SlotOffer.free, ← o.length_freeSlots, hle.lt_iff_ne, Ne,
    List.countP_eq_length]
  simp only [decide_eq_true_iff, not_forall, exists_prop]

/-- **When the last slots of the queue are spread evenly.** -/
theorem spreadEvenly_iff_evenUpTo (hids : (slots.map SlotOffer.taskManagerId).Nodup)
    (h : assignments.map SubtaskAssignment.slot <+: (buildSlotQueue slots .spread).reverse) :
    SpreadEvenly slots assignments ↔ EvenUpTo (mostAvailableFirst slots) assignments.length := by
  have hmem : ∀ o, o ∈ slots ↔ ∃ p, (mostAvailableFirst slots).get p = o := fun o => by
    rw [← List.mem_iff_get, mem_mostAvailableFirst]
  have hgt := assignedTo_gt_iff hids h
  have hleft : ∀ p, (∃ slot ∈ ((mostAvailableFirst slots).get p).freeSlots,
      slot ∉ assignments.map SubtaskAssignment.slot) ↔ _ :=
    fun p => exists_free_iff hids h ((hmem _).mpr ⟨p, rfl⟩)
  constructor
  · intro heven p q k hk hp
    rw [← hgt] at hp ⊢
    by_contra hq
    have := heven _ ((hmem _).mpr ⟨p, rfl⟩) _ ((hmem _).mpr ⟨q, rfl⟩) ((hleft q).mpr (by omega))
    omega
  · intro heven a ha b hb hslot
    obtain ⟨p, rfl⟩ := (hmem a).mp ha
    obtain ⟨q, rfl⟩ := (hmem b).mp hb
    by_contra hmore
    have := heven p q _ ((hleft q).mp hslot) ((hgt p _).mp (by omega))
    rw [← hgt] at this
    exact lt_irrefl _ this

end Assigned

/-! ## Offers that differ little -/

theorem slotsBehind_le_of_lt (offers behind behind' : List SlotOffer)
    (hbehind : behind'.Sublist offers) {i j : ℕ} (h : i < j) :
    slotsBehind offers behind' j ≤ slotsBehind offers behind i := by
  have hround : behind'.countP (fun o => j < o.free) ≤ offers.countP fun o => j < o.free :=
    hbehind.countP_le
  have hlater : (offers.map fun o => o.free - (j + 1)).sum + offers.countP (fun o => j < o.free) ≤
      (offers.map fun o => o.free - (i + 1)).sum := by
    clear hround hbehind
    induction offers with
    | nil => exact le_rfl
    | cons o offers ih =>
      rw [List.map_cons, List.sum_cons, List.countP_cons, List.map_cons, List.sum_cons]
      by_cases ho : j < o.free
      · rw [if_pos (decide_eq_true ho)]
        omega
      · rw [if_neg fun hd => ho (of_decide_eq_true hd)]
        omega
  unfold slotsBehind
  omega

/-- **Offers whose available slots differ by one at most** are used evenly, however many subtasks
there are. -/
theorem evenUpTo_of_close {slots : List SlotOffer}
    (hclose : ∀ a ∈ slots, ∀ b ∈ slots, 0 < b.free → a.free ≤ b.free + 1)
    (n : ℕ) : EvenUpTo (mostAvailableFirst slots) n := by
  have hmem : ∀ p, (mostAvailableFirst slots).get p ∈ slots := fun p =>
    mem_mostAvailableFirst.mp (List.get_mem _ _)
  have hsorted : (mostAvailableFirst slots).Pairwise fun a b => b.difference ≤ a.difference :=
    List.pairwise_insertionSort _ _
  rintro p q k hk ⟨hp, hbehind⟩
  have hle := hclose _ (hmem p) _ (hmem q) (by omega)
  refine ⟨hk, lt_of_le_of_lt ?_ hbehind⟩
  by_cases hround : ((mostAvailableFirst slots).get p).free - (k + 1 + 1) <
      ((mostAvailableFirst slots).get q).free - (k + 1)
  · exact slotsBehind_le_of_lt _ _ _ (List.drop_sublist _ _) hround
  · -- both slots are taken in one round, where the larger offer is first
    have hfree : ((mostAvailableFirst slots).get p).free =
        ((mostAvailableFirst slots).get q).free + 1 := by omega
    have hpq : p < q := by
      rcases lt_trichotomy p q with hlt | rfl | hlt
      · exact hlt
      · omega
      · have := List.pairwise_iff_get.mp hsorted q p hlt
        rw [SlotOffer.difference_eq (by omega), SlotOffer.difference_eq (by omega)] at this
        omega
    have hsame : ((mostAvailableFirst slots).get p).free - (k + 1 + 1) =
        ((mostAvailableFirst slots).get q).free - (k + 1) := by omega
    have hdrop : ((mostAvailableFirst slots).drop (q + 1)).Sublist
        ((mostAvailableFirst slots).drop (p + 1)) :=
      List.drop_sublist_drop_left _ (Nat.succ_le_succ (Fin.le_of_lt hpq))
    rw [hsame]
    exact Nat.add_le_add_left hdrop.countP_le _

/-! ## When `Spread` spreads evenly -/

variable {overflowChecks : Bool} {graph : LogicalGraph} {slots : List SlotOffer}
  {physical : PhysicalGraph}

theorem length_assignments {strategy : SchedulingStrategy}
    (h : schedule overflowChecks graph slots strategy = .ok physical) :
    physical.assignments.length = graph.subtaskCount := by
  obtain ⟨-, topo, hperm, -, hsubtasks⟩ := schedule_subtasks h
  rw [← length_subtasks hperm, ← hsubtasks, List.length_map]

/-- **`Spread` spreads evenly** over offers whose available slots differ by one at most. -/
theorem spreadEvenly_of_close (hids : (slots.map SlotOffer.taskManagerId).Nodup)
    (hclose : ∀ a ∈ slots, ∀ b ∈ slots, 0 < b.free → a.free ≤ b.free + 1)
    (h : schedule overflowChecks graph slots .spread = .ok physical) : SpreadEvenly slots physical.assignments :=
  (spreadEvenly_iff_evenUpTo hids (schedule_slots h)).mpr (evenUpTo_of_close hclose _)

/-- **For which offers `Spread` spreads evenly.** -/
theorem spreadEvenly_iff (hids : (slots.map SlotOffer.taskManagerId).Nodup)
    (h : schedule overflowChecks graph slots .spread = .ok physical) :
    SpreadEvenly slots physical.assignments ↔
      EvenUpTo (mostAvailableFirst slots) graph.subtaskCount := by
  rw [← length_assignments h]
  exact spreadEvenly_iff_evenUpTo hids (schedule_slots h)

theorem linearGraph_spread : ∃ physical, schedule true linearGraph twoTmSlots .spread = .ok physical ∧
    SpreadEvenly twoTmSlots physical.assignments := by
  obtain ⟨physical, h⟩ := schedule_linearGraph
  have hclose : ∀ a ∈ twoTmSlots, ∀ b ∈ twoTmSlots, 0 < b.free → a.free ≤ b.free + 1 := by decide
  exact ⟨physical, h, (spreadEvenly_iff distinct_twoTmSlots h).mpr (evenUpTo_of_close hclose _)⟩

/-- One node with two subtasks. -/
def twoSubtasks : LogicalGraph := (LogicalGraph.new.addNode "source" .source 2).2

/-- Three slots on one TaskManager and one on the other. -/
def unevenSlots : List SlotOffer := [⟨"tm-1", 3, 0⟩, ⟨"tm-2", 1, 0⟩]

/-- **Two subtasks on one TaskManager while the other is empty.** -/
theorem twoSubtasks_not_spread : (unevenSlots.map SlotOffer.taskManagerId).Nodup ∧
    ∃ physical, schedule true twoSubtasks unevenSlots .spread = .ok physical ∧
      ¬ SpreadEvenly unevenSlots physical.assignments := by
  refine ⟨by decide, _, rfl, ?_⟩
  unfold SpreadEvenly
  decide

end Flume
