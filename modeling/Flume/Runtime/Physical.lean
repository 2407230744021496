import Flume.Lib.Fallible
import Flume.Lib.RoundRobin
import Flume.Runtime.Dag
import Mathlib.Data.List.Sort

/-!
# The physical graph

`schedule` turns a logical graph into subtasks, each assigned to a slot of a TaskManager. The slots
that the offers make available are queued in an order that depends on the strategy, and the subtasks
take them from the end of the queue. Sums and differences are of 64 bits: with overflow checks they
panic, in a release build they wrap. Allocations are taken to succeed.

* `SlotOffer.freeSlots`: the slots that an offer makes available;
* `buildSlotQueue`, `generateEdges`, `schedule`: as the code has them;
* **`perm_buildSlotQueue`**: the queue has all available slots, each once;
* `totalSubtasks_eq`, `totalAvailable_eq`: the two sums that are compared;
* **`schedule_slots`**: the assigned slots, and those left over, are the queue read from its end.
-/

namespace Flume

open ScheduleFailure
open Fallible (bind_eq_ok foldlM_invariant foldlM_total)

/-- One parallel instance of an operator. -/
structure SubtaskId where
  nodeId : NodeId
  operatorName : String
  subtaskIndex : ℕ
  deriving DecidableEq

/-- The string form of a subtask id. -/
def SubtaskId.canonicalName (s : SubtaskId) : String :=
  s.operatorName ++ "-" ++ toString s.subtaskIndex

/-- The assignment of a subtask to a slot of a TaskManager. -/
structure SubtaskAssignment where
  subtaskId : SubtaskId
  taskManagerId : String
  slotIndex : ℕ
  deriving DecidableEq

/-- The slot of an assignment. -/
def SubtaskAssignment.slot (a : SubtaskAssignment) : String × ℕ := (a.taskManagerId, a.slotIndex)

/-- An edge that connects two subtasks. -/
structure PhysicalEdge where
  fromSubtask : SubtaskId
  toSubtask : SubtaskId
  partitionStrategy : PartitionStrategy

/-- The subtasks with their slots, and the edges between them. -/
structure PhysicalGraph where
  assignments : List SubtaskAssignment
  edges : List PhysicalEdge

/-- How subtasks are assigned to the slots of TaskManagers. -/
inductive SchedulingStrategy
  | spread
  | pack
  deriving DecidableEq

/-- The slots that a TaskManager offers. -/
structure SlotOffer where
  taskManagerId : String
  totalSlots : ℕ
  usedSlots : ℕ

namespace SlotOffer

/-- `total_slots - used_slots`, which wraps below 0. -/
def difference (o : SlotOffer) : ℕ :=
  if o.usedSlots ≤ o.totalSlots then o.totalSlots - o.usedSlots
  else 2 ^ 64 + o.totalSlots - o.usedSlots

/-- The number of available slots. -/
def available (overflowChecks : Bool) (o : SlotOffer) : Except ScheduleFailure ℕ :=
  if overflowChecks ∧ o.totalSlots < o.usedSlots then .error subtractOverflow else .ok o.difference

/-- The slots `used_slots..total_slots`. -/
def freeSlots (o : SlotOffer) : List (String × ℕ) :=
  (List.range' o.usedSlots (o.totalSlots - o.usedSlots)).map fun i => (o.taskManagerId, i)

end SlotOffer

/-- `a + b` on `usize`. -/
def addUsize (overflowChecks : Bool) (a b : ℕ) : Except ScheduleFailure ℕ :=
  if a + b < 2 ^ 64 then .ok (a + b)
  else if overflowChecks then .error addOverflow else .ok ((a + b) % 2 ^ 64)

/-- The sum of the parallelisms of the nodes. -/
def LogicalGraph.totalSubtasks (overflowChecks : Bool) (graph : LogicalGraph) :
    Except ScheduleFailure ℕ :=
  (graph.nodes.map LogicalNode.parallelism).foldlM (addUsize overflowChecks) 0

/-- The sum of `available` over the offers. -/
def totalAvailable (overflowChecks : Bool) (slots : List SlotOffer) : Except ScheduleFailure ℕ :=
  slots.foldlM (fun total o => do addUsize overflowChecks total (← o.available overflowChecks)) 0

/-- The available slots in the order of the strategy. It is called after `available` has returned
for every offer. -/
def buildSlotQueue (slots : List SlotOffer) : SchedulingStrategy → List (String × ℕ)
  | .spread =>
    -- most available first, then one slot of each in turns
    let offers := slots.insertionSort fun a b => b.difference ≤ a.difference
    let queues := offers.map SlotOffer.freeSlots
    RoundRobin.interleave (RoundRobin.longest queues) queues
  | .pack =>
    let offers := slots.insertionSort fun a b => a.difference ≤ b.difference
    offers.flatMap SlotOffer.freeSlots

/-- The subtasks of a node, among the assignments. -/
def subtasksOf (assignments : List SubtaskAssignment) (nodeId : NodeId) : List SubtaskId :=
  (assignments.filter fun a => a.subtaskId.nodeId = nodeId).map SubtaskAssignment.subtaskId

/-- The edges `i` to `i % len`. -/
def forwardEdges (toSubtasks : List SubtaskId) :
    ℕ → List SubtaskId → Except ScheduleFailure (List PhysicalEdge)
  | _, [] => .ok []
  | i, s :: fromSubtasks => do
    if toSubtasks.length = 0 then throw remainderByZero
    let target ← index toSubtasks (i % toSubtasks.length)
    return ⟨s, target, .forward⟩ :: (← forwardEdges toSubtasks (i + 1) fromSubtasks)

/-- The edges from every upstream to every downstream subtask. -/
def allToAll (strategy : PartitionStrategy) (fromSubtasks toSubtasks : List SubtaskId) :
    List PhysicalEdge :=
  fromSubtasks.flatMap fun s => toSubtasks.map fun t => ⟨s, t, strategy⟩

/-- The physical edges of a logical edge. -/
def physicalEdges (graph : LogicalGraph) (assignments : List SubtaskAssignment)
    (logicalEdge : LogicalEdge) : Except ScheduleFailure (List PhysicalEdge) := do
  let _ ← index graph.nodes logicalEdge.fromNode
  let _ ← index graph.nodes logicalEdge.toNode
  let fromSubtasks := subtasksOf assignments logicalEdge.fromNode
  let toSubtasks := subtasksOf assignments logicalEdge.toNode
  match logicalEdge.partitionStrategy with
  | .forward => forwardEdges toSubtasks 0 fromSubtasks
  | .hash => return allToAll .hash fromSubtasks toSubtasks
  | .rebalance => return allToAll .rebalance fromSubtasks toSubtasks
  | .broadcast => return allToAll .broadcast fromSubtasks toSubtasks

/-- The physical edges of all logical edges. -/
def generateEdges (graph : LogicalGraph) (assignments : List SubtaskAssignment) :
    Except ScheduleFailure (List PhysicalEdge) :=
  graph.edges.foldlM
    (fun edges logicalEdge => do return edges ++ (← physicalEdges graph assignments logicalEdge)) []

/-- Assigns a subtask to the slot at the end of the queue. -/
def assignSubtask (nodeId : NodeId) (node : LogicalNode)
    (st : List SubtaskAssignment × List (String × ℕ)) (subtaskIndex : ℕ) :
    Except ScheduleFailure (List SubtaskAssignment × List (String × ℕ)) :=
  match st.2.getLast? with
  | some (tmId, slotIdx) =>
    .ok (st.1 ++ [⟨⟨nodeId, node.name, subtaskIndex⟩, tmId, slotIdx⟩], st.2.dropLast)
  | none => .error (.error "ran out of slots during assignment")

/-- Assigns the subtasks of a node. -/
def assignNode (graph : LogicalGraph) (st : List SubtaskAssignment × List (String × ℕ))
    (nodeId : NodeId) : Except ScheduleFailure (List SubtaskAssignment × List (String × ℕ)) := do
  let node ← index graph.nodes nodeId
  (List.range node.parallelism).foldlM (assignSubtask nodeId node) st

/-- Assigns the subtasks of a logical graph to available slots, in a build with or without overflow
checks. -/
def schedule (overflowChecks : Bool) (graph : LogicalGraph) (slots : List SlotOffer)
    (strategy : SchedulingStrategy) : Except ScheduleFailure PhysicalGraph := do
  let some topo ← graph.topologicalOrder | throw (.error "logical graph contains a cycle")
  let totalSubtasks ← graph.totalSubtasks overflowChecks
  let available ← totalAvailable overflowChecks slots
  if available < totalSubtasks then
    throw (.error ("not enough slots: need " ++ toString totalSubtasks ++ ", have " ++
      toString available))
  let (assignments, _) ← topo.foldlM (assignNode graph) ([], buildSlotQueue slots strategy)
  let edges ← generateEdges graph assignments
  return ⟨assignments, edges⟩

/-! ## The queue of slots -/

theorem SlotOffer.mem_freeSlots {o : SlotOffer} {tmId : String} {i : ℕ} :
    (tmId, i) ∈ o.freeSlots ↔ tmId = o.taskManagerId ∧ o.usedSlots ≤ i ∧ i < o.totalSlots := by
  unfold SlotOffer.freeSlots
  simp only [List.mem_map, List.mem_range'_1, Prod.mk.injEq]
  constructor
  · rintro ⟨i', hi', rfl, rfl⟩
    exact ⟨rfl, by omega⟩
  · rintro ⟨rfl, hi⟩
    exact ⟨i, by omega, rfl, rfl⟩

theorem SlotOffer.nodup_freeSlots (o : SlotOffer) : o.freeSlots.Nodup :=
  List.Nodup.map (fun _ _ h => (Prod.mk.inj h).2) List.nodup_range'

theorem SlotOffer.length_freeSlots (o : SlotOffer) :
    o.freeSlots.length = o.totalSlots - o.usedSlots := by
  unfold SlotOffer.freeSlots
  rw [List.length_map, List.length_range']

/-- **The queue has all available slots**, each once. -/
theorem perm_buildSlotQueue (slots : List SlotOffer) (strategy : SchedulingStrategy) :
    (buildSlotQueue slots strategy).Perm (slots.flatMap SlotOffer.freeSlots) := by
  cases strategy with
  | spread =>
    refine (RoundRobin.perm_interleave fun q => RoundRobin.length_le_longest).trans ?_
    rw [← List.flatMap_def]
    exact (List.perm_insertionSort _ _).flatMap_right _
  | pack => exact (List.perm_insertionSort _ _).flatMap_right _

theorem perm_reverse_buildSlotQueue (slots : List SlotOffer) (strategy : SchedulingStrategy) :
    (buildSlotQueue slots strategy).reverse.Perm (slots.flatMap SlotOffer.freeSlots) :=
  (List.reverse_perm _).trans (perm_buildSlotQueue slots strategy)

theorem nodup_freeSlots {slots : List SlotOffer}
    (h : (slots.map SlotOffer.taskManagerId).Nodup) :
    (slots.flatMap SlotOffer.freeSlots).Nodup := by
  rw [List.nodup_flatMap]
  refine ⟨fun o _ => o.nodup_freeSlots, ?_⟩
  rw [List.Nodup, List.pairwise_map] at h
  refine h.imp fun {o o'} hne => ?_
  rintro ⟨tmId, i⟩ hmem hmem'
  exact hne ((SlotOffer.mem_freeSlots.mp hmem).1.symm.trans (SlotOffer.mem_freeSlots.mp hmem').1)

/-! ## The assignments -/

/-- The assigned slots, followed by those that are left from the end of the queue. -/
def slotsInOrder (st : List SubtaskAssignment × List (String × ℕ)) : List (String × ℕ) :=
  st.1.map SubtaskAssignment.slot ++ st.2.reverse

theorem slotsInOrder_assignSubtask {nodeId : NodeId} {node : LogicalNode} {subtaskIndex : ℕ}
    {st st' : List SubtaskAssignment × List (String × ℕ)}
    (h : assignSubtask nodeId node st subtaskIndex = .ok st') :
    slotsInOrder st' = slotsInOrder st := by
  unfold assignSubtask at h
  cases hlast : st.2.getLast? with
  | none => rw [hlast] at h; cases h
  | some slot =>
    rw [hlast] at h
    cases h
    obtain ⟨rest, hrest⟩ := List.getLast?_eq_some_iff.mp hlast
    unfold slotsInOrder
    rw [hrest, List.dropLast_concat, List.map_append, List.reverse_append, List.append_assoc]
    rfl

theorem slotsInOrder_assignNode {graph : LogicalGraph} {nodeId : NodeId}
    {st st' : List SubtaskAssignment × List (String × ℕ)}
    (h : assignNode graph st nodeId = .ok st') : slotsInOrder st' = slotsInOrder st := by
  obtain ⟨node, -, hfold⟩ := bind_eq_ok h
  exact foldlM_invariant (P := fun _ t => slotsInOrder t = slotsInOrder st)
    (fun _ _ t t' ht hstep => (slotsInOrder_assignSubtask hstep).trans ht) rfl hfold

/-! ## The sums -/

/-- The number of subtasks of a graph. -/
def LogicalGraph.subtaskCount (g : LogicalGraph) : ℕ := (g.nodes.map LogicalNode.parallelism).sum

/-- The number of slots that the offers make available. -/
def freeCount (slots : List SlotOffer) : ℕ := (slots.map fun o => o.totalSlots - o.usedSlots).sum

theorem length_freeSlots (slots : List SlotOffer) :
    (slots.flatMap SlotOffer.freeSlots).length = freeCount slots := by
  rw [List.length_flatMap]
  simp only [SlotOffer.length_freeSlots]
  rfl

section Sums

variable (overflowChecks : Bool) {g : LogicalGraph} {slots : List SlotOffer}

theorem foldlM_addUsize (l : List ℕ) {start : ℕ} (h : start < 2 ^ 64) :
    l.foldlM (addUsize overflowChecks) start =
      if overflowChecks ∧ 2 ^ 64 ≤ start + l.sum then .error addOverflow
      else .ok ((start + l.sum) % 2 ^ 64) := by
  induction l generalizing start with
  | nil =>
    rw [List.sum_nil, Nat.add_zero, if_neg fun hover => Nat.not_le_of_lt h hover.2,
      Nat.mod_eq_of_lt h]
    rfl
  | cons a l ih =>
    rw [List.foldlM_cons, List.sum_cons, ← Nat.add_assoc]
    by_cases hfits : start + a < 2 ^ 64
    · have hadd : addUsize overflowChecks start a = .ok (start + a) := if_pos hfits
      rw [hadd]
      exact ih hfits
    · have hadd : addUsize overflowChecks start a =
          if overflowChecks then .error addOverflow else .ok ((start + a) % 2 ^ 64) := if_neg hfits
      have hover : 2 ^ 64 ≤ start + a + l.sum :=
        (Nat.not_lt.mp hfits).trans (Nat.le_add_right _ _)
      rw [hadd]
      cases overflowChecks with
      | true =>
        exact (if_pos (⟨rfl, hover⟩ : true = true ∧ _)).symm
      | false =>
        refine (ih (Nat.mod_lt _ (by decide))).trans ?_
        rw [if_neg fun h => Bool.false_ne_true h.1, if_neg fun h => Bool.false_ne_true h.1,
          Nat.mod_add_mod]

theorem sumUsize_eq (l : List ℕ) :
    l.foldlM (addUsize overflowChecks) 0 =
      if overflowChecks ∧ 2 ^ 64 ≤ l.sum then .error addOverflow else .ok (l.sum % 2 ^ 64) := by
  rw [foldlM_addUsize overflowChecks l (Nat.two_pow_pos 64), Nat.zero_add]

theorem totalSubtasks_eq (g : LogicalGraph) : g.totalSubtasks overflowChecks =
    if overflowChecks ∧ 2 ^ 64 ≤ g.subtaskCount then .error addOverflow
    else .ok (g.subtaskCount % 2 ^ 64) := sumUsize_eq _ _

theorem SlotOffer.available_eq {o : SlotOffer} (h : o.usedSlots ≤ o.totalSlots) :
    o.available overflowChecks = .ok (o.totalSlots - o.usedSlots) := by
  unfold SlotOffer.available SlotOffer.difference
  rw [if_neg fun hlt => Nat.not_lt_of_le h hlt.2, if_pos h]

theorem totalAvailable_eq (h : ∀ o ∈ slots, o.usedSlots ≤ o.totalSlots) :
    totalAvailable overflowChecks slots =
      if overflowChecks ∧ 2 ^ 64 ≤ freeCount slots then .error addOverflow
      else .ok (freeCount slots % 2 ^ 64) := by
  have hfold : ∀ start,
      slots.foldlM (fun total o => do
        addUsize overflowChecks total (← o.available overflowChecks)) start =
      (slots.map fun o => o.totalSlots - o.usedSlots).foldlM (addUsize overflowChecks) start := by
    induction slots with
    | nil => exact fun start => rfl
    | cons o slots ih =>
      intro start
      rw [List.foldlM_cons, List.map_cons, List.foldlM_cons,
        o.available_eq overflowChecks (h o List.mem_cons_self)]
      change addUsize overflowChecks start _ >>= _ = addUsize overflowChecks start _ >>= _
      congr 1
      funext total
      exact ih (fun o' ho' => h o' (List.mem_cons_of_mem _ ho')) total
  exact (hfold 0).trans (sumUsize_eq _ _)

theorem totalAvailable_eq_ok {total : ℕ} : totalAvailable true slots = .ok total ↔
    (∀ o ∈ slots, o.usedSlots ≤ o.totalSlots) ∧ freeCount slots < 2 ^ 64 ∧
      total = freeCount slots := by
  constructor
  · intro h
    have hused : ∀ o ∈ slots, o.usedSlots ≤ o.totalSlots := by
      intro o ho
      by_contra hlt
      obtain ⟨pre, post, rfl⟩ := List.append_of_mem ho
      unfold totalAvailable at h
      rw [List.foldlM_append] at h
      obtain ⟨start, -, h⟩ := bind_eq_ok h
      have havailable : o.available true = .error subtractOverflow :=
        if_pos ⟨rfl, Nat.not_le.mp hlt⟩
      rw [List.foldlM_cons, havailable] at h
      cases h
    rw [totalAvailable_eq true hused] at h
    split_ifs at h with hover
    · have hlt : freeCount slots < 2 ^ 64 := Nat.not_le.mp fun hle => hover ⟨rfl, hle⟩
      rw [Nat.mod_eq_of_lt hlt] at h
      exact ⟨hused, hlt, (Except.ok.inj h).symm⟩
  · rintro ⟨hused, hlt, rfl⟩
    rw [totalAvailable_eq true hused, if_neg fun hover => Nat.not_le_of_lt hlt hover.2,
      Nat.mod_eq_of_lt hlt]

end Sums

/-! ## The call -/

theorem schedule_eq_ok {overflowChecks : Bool} {graph : LogicalGraph} {slots : List SlotOffer}
    {strategy : SchedulingStrategy} {physical : PhysicalGraph}
    (h : schedule overflowChecks graph slots strategy = .ok physical) :
    ∃ topo rest, graph.topologicalOrder = .ok (some topo) ∧
      topo.foldlM (assignNode graph) ([], buildSlotQueue slots strategy) =
        .ok (physical.assignments, rest) ∧
      generateEdges graph physical.assignments = .ok physical.edges := by
  unfold schedule at h
  obtain ⟨topo?, htopo, h⟩ := bind_eq_ok h
  cases topo? with
  | none => cases h
  | some topo =>
    obtain ⟨needed, -, h⟩ := bind_eq_ok h
    obtain ⟨total, -, h⟩ := bind_eq_ok h
    dsimp only at h
    split_ifs at h with hlt
    · cases h
    · obtain ⟨⟨assignments, rest⟩, hassign, h⟩ := bind_eq_ok h
      obtain ⟨edges, hedges, h⟩ := bind_eq_ok h
      cases h
      exact ⟨topo, rest, htopo, hassign, hedges⟩

/-- `schedule` once the graph is sorted. -/
theorem schedule_sorted {g : LogicalGraph} {slots : List SlotOffer} {topo : List NodeId}
    (overflowChecks : Bool) (strategy : SchedulingStrategy)
    (htopo : g.topologicalOrder = .ok (some topo))
    (hused : ∀ o ∈ slots, o.usedSlots ≤ o.totalSlots) :
    schedule overflowChecks g slots strategy =
      if overflowChecks ∧ (2 ^ 64 ≤ g.subtaskCount ∨ 2 ^ 64 ≤ freeCount slots) then
        .error addOverflow
      else if freeCount slots % 2 ^ 64 < g.subtaskCount % 2 ^ 64 then
        .error (.error ("not enough slots: need " ++ toString (g.subtaskCount % 2 ^ 64) ++
          ", have " ++ toString (freeCount slots % 2 ^ 64)))
      else do
        let (assignments, _) ← topo.foldlM (assignNode g) ([], buildSlotQueue slots strategy)
        let edges ← generateEdges g assignments
        return ⟨assignments, edges⟩ := by
  have hsubtasks := totalSubtasks_eq overflowChecks g
  have havailable := totalAvailable_eq overflowChecks hused
  unfold schedule
  rw [htopo]
  change (_ >>= fun need => _ >>= fun free => _ : Except ScheduleFailure PhysicalGraph) = _
  by_cases hover : overflowChecks = true ∧ 2 ^ 64 ≤ g.subtaskCount
  · rw [hsubtasks.trans (if_pos hover), if_pos ⟨hover.1, .inl hover.2⟩]
    rfl
  rw [hsubtasks.trans (if_neg hover)]
  by_cases hover' : overflowChecks = true ∧ 2 ^ 64 ≤ freeCount slots
  · rw [havailable.trans (if_pos hover'), if_pos ⟨hover'.1, .inr hover'.2⟩]
    rfl
  rw [havailable.trans (if_neg hover'),
    if_neg fun h => h.2.elim (fun h' => hover ⟨h.1, h'⟩) fun h' => hover' ⟨h.1, h'⟩]
  by_cases hless : freeCount slots % 2 ^ 64 < g.subtaskCount % 2 ^ 64
  · rw [if_pos hless]
    exact if_pos hless
  · rw [if_neg hless]
    exact if_neg hless

/-- **What `schedule` assigns**: the slots of the queue from its end. -/
theorem schedule_slots {overflowChecks : Bool} {graph : LogicalGraph} {slots : List SlotOffer}
    {strategy : SchedulingStrategy} {physical : PhysicalGraph}
    (h : schedule overflowChecks graph slots strategy = .ok physical) :
    physical.assignments.map SubtaskAssignment.slot <+: (buildSlotQueue slots strategy).reverse := by
  obtain ⟨topo, rest, -, hassign, -⟩ := schedule_eq_ok h
  have horder := foldlM_invariant
    (P := fun _ t => slotsInOrder t = (buildSlotQueue slots strategy).reverse)
    (fun _ _ t t' ht hstep => (slotsInOrder_assignNode hstep).trans ht) rfl hassign
  exact ⟨rest.reverse, horder⟩

theorem assignSubtasks_ok (nodeId : NodeId) (node : LogicalNode) {indices : List ℕ}
    (st : List SubtaskAssignment × List (String × ℕ)) (h : indices.length ≤ st.2.length) :
    ∃ st', indices.foldlM (assignSubtask nodeId node) st = .ok st' ∧
      st'.1.map SubtaskAssignment.subtaskId =
        st.1.map SubtaskAssignment.subtaskId ++ indices.map (SubtaskId.mk nodeId node.name) ∧
      st'.2.length + indices.length = st.2.length := by
  refine foldlM_total (S := List SubtaskAssignment × List (String × ℕ))
    (P := fun done t => t.1.map SubtaskAssignment.subtaskId =
        st.1.map SubtaskAssignment.subtaskId ++ done.map (SubtaskId.mk nodeId node.name) ∧
      t.2.length + done.length = st.2.length) (fun done index rest hl t ht => ?_) (by simp)
  obtain ⟨hids, hlen⟩ := ht
  rw [hl, List.length_append, List.length_cons] at h
  obtain ⟨slot, hslot⟩ : ∃ slot, t.2.getLast? = some slot := by
    refine Option.isSome_iff_exists.mp (List.getLast?_isSome.mpr fun hnil => ?_)
    rw [hnil] at hlen
    exact absurd hlen (by rw [List.length_nil]; omega)
  obtain ⟨queue, hqueue⟩ := List.getLast?_eq_some_iff.mp hslot
  refine ⟨(t.1 ++ [⟨⟨nodeId, node.name, index⟩, slot.1, slot.2⟩], t.2.dropLast), ?_, ?_, ?_⟩
  · unfold assignSubtask
    rw [hslot]
  · simp [hids]
  · rw [hqueue, List.length_append, List.length_singleton] at hlen
    rw [hqueue, List.dropLast_concat, List.length_append, List.length_singleton]
    dsimp only
    omega

end Flume
