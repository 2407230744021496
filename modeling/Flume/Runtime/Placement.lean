import Flume.Runtime.Physical
import Flume.Runtime.TopologicalOrder

/-!
# The placement

What `schedule` returns puts every subtask of the graph on a slot of its own.

* `LogicalGraph.Assembled`, `LogicalGraph.Built`: the graphs that are built so;
* `LogicalGraph.subtasksAt`: the subtasks of a node; `assignNodes_ok`: they are assigned in order;
* `StarvedEdge`, **`generateEdges_cases`**: the physical edges can be generated unless an edge has
  no targets;
* `ValidPlacement`: every subtask has a slot of its own, nodes before their successors;
* **`schedule_placement`**: what `schedule` returns is a valid placement.
-/

namespace Flume

open ScheduleFailure Relation
open Fallible (bind_eq_ok foldlM_invariant foldlM_total foldlM_error)

namespace LogicalGraph

/-- The graphs that are built by adding nodes and edges between them. -/
inductive Assembled : LogicalGraph → Prop
  | new : Assembled new
  | addNode {g : LogicalGraph} (name : String) (kind : NodeKind) (parallelism : ℕ) :
      Assembled g → Assembled (g.addNode name kind parallelism).2
  | addEdge {g : LogicalGraph} {fromNode toNode : NodeId} (strategy : PartitionStrategy) :
      Assembled g → fromNode < g.nodes.length → toNode < g.nodes.length →
        Assembled (g.addEdge fromNode toNode strategy)

/-- The graphs that are built by adding nodes with at least one subtask and edges between them. -/
inductive Built : LogicalGraph → Prop
  | new : Built new
  | addNode {g : LogicalGraph} (name : String) (kind : NodeKind) {parallelism : ℕ} :
      Built g → 1 ≤ parallelism → Built (g.addNode name kind parallelism).2
  | addEdge {g : LogicalGraph} {fromNode toNode : NodeId} (strategy : PartitionStrategy) :
      Built g → fromNode < g.nodes.length → toNode < g.nodes.length →
        Built (g.addEdge fromNode toNode strategy)

variable {g : LogicalGraph}

theorem Assembled.inRange (h : Assembled g) : g.InRange := by
  induction h with
  | new => exact fun e he => absurd he List.not_mem_nil
  | addNode name kind _ _ ih =>
    intro e he
    obtain ⟨hfrom, hto⟩ := ih e he
    change e.fromNode < (_ ++ [_]).length ∧ e.toNode < (_ ++ [_]).length
    rw [List.length_append]
    exact ⟨Nat.lt_add_right _ hfrom, Nat.lt_add_right _ hto⟩
  | addEdge strategy _ hfrom hto ih =>
    intro e he
    rcases List.mem_append.mp he with he | he
    · exact ih e he
    · obtain rfl := List.mem_singleton.mp he
      exact ⟨hfrom, hto⟩

theorem Built.assembled (h : Built g) : Assembled g := by
  induction h with
  | new => exact .new
  | addNode name kind _ _ ih => exact ih.addNode name kind _
  | addEdge strategy _ hfrom hto ih => exact ih.addEdge strategy hfrom hto

theorem Built.inRange (h : Built g) : g.InRange := h.assembled.inRange

theorem Built.numbered (h : Built g) : g.Numbered := by
  induction h with
  | new => exact numbered_new
  | addNode name kind _ _ ih => exact ih.addNode name kind _
  | addEdge strategy _ _ _ ih => exact ih.addEdge _ _ strategy

theorem Built.parallelism_pos (h : Built g) : ∀ node ∈ g.nodes, 1 ≤ node.parallelism := by
  induction h with
  | new => exact fun node hnode => absurd hnode List.not_mem_nil
  | addNode name kind _ hpos ih =>
    intro node hnode
    rcases List.mem_append.mp hnode with hnode | hnode
    · exact ih node hnode
    · obtain rfl := List.mem_singleton.mp hnode
      exact hpos
  | addEdge _ _ _ _ ih => exact ih

/-! ## The subtasks -/

/-- The subtasks of the node with an id. -/
def subtasksAt (g : LogicalGraph) (id : NodeId) : List SubtaskId :=
  match g.nodes[id]? with
  | some node => (List.range node.parallelism).map (SubtaskId.mk id node.name)
  | none => []

theorem mem_subtasksAt {id : NodeId} {s : SubtaskId} : s ∈ g.subtasksAt id ↔
    ∃ node, g.nodes[id]? = some node ∧ s = ⟨id, node.name, s.subtaskIndex⟩ ∧
      s.subtaskIndex < node.parallelism := by
  unfold subtasksAt
  cases hnode : g.nodes[id]? with
  | none => simp
  | some node =>
    simp only [List.mem_map, List.mem_range, Option.some.injEq, exists_eq_left']
    constructor
    · rintro ⟨i, hi, rfl⟩
      exact ⟨rfl, hi⟩
    · rintro ⟨hs, hi⟩
      exact ⟨s.subtaskIndex, hi, hs.symm⟩

theorem nodeId_of_mem {id : NodeId} {s : SubtaskId} (h : s ∈ g.subtasksAt id) : s.nodeId = id := by
  obtain ⟨node, -, hs, -⟩ := mem_subtasksAt.mp h
  rw [hs]

theorem nodup_subtasksAt (id : NodeId) : (g.subtasksAt id).Nodup := by
  unfold subtasksAt
  cases g.nodes[id]? with
  | none => exact List.nodup_nil
  | some node => exact List.nodup_range.map fun _ _ h => (SubtaskId.mk.inj h).2.2

theorem nodup_subtasks {topo : List NodeId} (h : topo.Nodup) :
    (topo.flatMap g.subtasksAt).Nodup := by
  rw [List.nodup_flatMap]
  refine ⟨fun id _ => nodup_subtasksAt id, h.imp fun {a b} hne => ?_⟩
  intro s ha hb
  exact hne ((nodeId_of_mem ha).symm.trans (nodeId_of_mem hb))

theorem count_subtasks {topo : List NodeId} (h : topo.Nodup) {id : NodeId} (hid : id ∈ topo)
    {node : LogicalNode} (hnode : g.nodes[id]? = some node) {i : ℕ} (hi : i < node.parallelism) :
    (topo.flatMap g.subtasksAt).countP (fun s => s.nodeId = id ∧ s.subtaskIndex = i) = 1 := by
  have hmem : (⟨id, node.name, i⟩ : SubtaskId) ∈ topo.flatMap g.subtasksAt :=
    List.mem_flatMap.mpr ⟨id, hid, mem_subtasksAt.mpr ⟨node, hnode, rfl, hi⟩⟩
  rw [← List.count_eq_one_of_mem (nodup_subtasks h) hmem, List.count_eq_countP]
  refine List.countP_congr fun s hs => ?_
  obtain ⟨id', -, hs⟩ := List.mem_flatMap.mp hs
  obtain ⟨node', hnode', hs, -⟩ := mem_subtasksAt.mp hs
  rw [decide_eq_true_iff, beq_iff_eq]
  constructor
  · rintro ⟨hid', hi'⟩
    rw [hs] at hid'
    obtain rfl : id' = id := hid'
    obtain rfl := Option.some.inj (hnode'.symm.trans hnode)
    rw [hs, hi']
  · rintro rfl
    exact ⟨rfl, rfl⟩

theorem length_subtasks {topo : List NodeId} (h : topo.Perm (List.range g.nodes.length)) :
    (topo.flatMap g.subtasksAt).length = g.subtaskCount := by
  unfold LogicalGraph.subtaskCount
  rw [(h.flatMap_right _).length_eq, List.length_flatMap]
  congr 1
  apply List.ext_getElem?
  intro i
  by_cases hi : i < g.nodes.length
  · rw [List.getElem?_map, List.getElem?_range hi, List.getElem?_map, List.getElem?_eq_getElem hi]
    unfold subtasksAt
    simp [List.getElem?_eq_getElem hi]
  · have hle := Nat.not_lt.mp hi
    rw [List.getElem?_eq_none (by simpa using hle), List.getElem?_eq_none (by simpa using hle)]

end LogicalGraph

open LogicalGraph

variable {g : LogicalGraph}

theorem subtaskIds_assignSubtask {id : NodeId} {node : LogicalNode} {i : ℕ}
    {st st' : List SubtaskAssignment × List (String × ℕ)}
    (h : assignSubtask id node st i = .ok st') : st'.1.map SubtaskAssignment.subtaskId =
      st.1.map SubtaskAssignment.subtaskId ++ [⟨id, node.name, i⟩] := by
  unfold assignSubtask at h
  cases hlast : st.2.getLast? with
  | none => rw [hlast] at h; cases h
  | some slot =>
    rw [hlast] at h
    cases h
    exact List.map_append

theorem subtaskIds_assignNode {id : NodeId} {st st' : List SubtaskAssignment × List (String × ℕ)}
    (h : assignNode g st id = .ok st') : st'.1.map SubtaskAssignment.subtaskId =
      st.1.map SubtaskAssignment.subtaskId ++ g.subtasksAt id := by
  obtain ⟨node, hnode, hfold⟩ := bind_eq_ok h
  unfold subtasksAt
  rw [index_eq_ok.mp hnode]
  refine foldlM_invariant (P := fun done t => t.1.map SubtaskAssignment.subtaskId =
    st.1.map SubtaskAssignment.subtaskId ++ done.map (SubtaskId.mk id node.name))
    (fun done i t t' ht hstep => ?_) (List.append_nil _).symm hfold
  rw [subtaskIds_assignSubtask hstep, ht, List.map_append, List.append_assoc]
  rfl

/-- The subtasks of the nodes are assigned in order as long as slots are left. -/
theorem assignNodes_ok {topo : List NodeId} {queue : List (String × ℕ)}
    (htopo : ∀ id ∈ topo, id < g.nodes.length)
    (hlen : (topo.flatMap g.subtasksAt).length ≤ queue.length) :
    ∃ st, topo.foldlM (assignNode g) ([], queue) = .ok st ∧
      st.1.map SubtaskAssignment.subtaskId = topo.flatMap g.subtasksAt := by
  suffices hfold : ∃ st, topo.foldlM (assignNode g) ([], queue) = .ok st ∧
      st.1.map SubtaskAssignment.subtaskId = topo.flatMap g.subtasksAt ∧
        st.2.length + (topo.flatMap g.subtasksAt).length = queue.length by
    obtain ⟨st, hst, hids, -⟩ := hfold
    exact ⟨st, hst, hids⟩
  refine foldlM_total (S := List SubtaskAssignment × List (String × ℕ))
    (P := fun done st => st.1.map SubtaskAssignment.subtaskId = done.flatMap g.subtasksAt ∧
      st.2.length + (done.flatMap g.subtasksAt).length = queue.length)
    (fun done id rest hl st hst => ?_) ⟨rfl, rfl⟩
  obtain ⟨hids, hleft⟩ := hst
  have hid : id < g.nodes.length :=
    htopo id (by simp [hl])
  have hnode := List.getElem?_eq_getElem hid
  have hat : g.subtasksAt id =
      (List.range g.nodes[id].parallelism).map (SubtaskId.mk id g.nodes[id].name) := by
    unfold subtasksAt
    rw [hnode]
  rw [hl, List.flatMap_append, List.flatMap_cons, List.length_append, List.length_append, hat,
    List.length_map] at hlen
  have hroom : (List.range g.nodes[id].parallelism).length ≤ st.2.length := by omega
  obtain ⟨st', hst', hids', hleft'⟩ := assignSubtasks_ok id g.nodes[id] st hroom
  refine ⟨st', ?_, ?_, ?_⟩
  · unfold assignNode
    rw [index_eq_ok.mpr hnode]
    exact hst'
  · rw [hids', hids, List.flatMap_append, List.flatMap_singleton, hat]
  · rw [List.flatMap_append, List.flatMap_singleton, List.length_append, hat, List.length_map]
    omega

/-! ## The physical edges -/

theorem forwardEdges_ok {toSubtasks : List SubtaskId} (h : toSubtasks ≠ [])
    (fromSubtasks : List SubtaskId) (i : ℕ) :
    ∃ edges, forwardEdges toSubtasks i fromSubtasks = .ok edges := by
  have hpos : 0 < toSubtasks.length := List.length_pos_iff.mpr h
  induction fromSubtasks generalizing i with
  | nil => exact ⟨[], rfl⟩
  | cons s fromSubtasks ih =>
    obtain ⟨edges, hedges⟩ := ih (i + 1)
    have hi : i % toSubtasks.length < toSubtasks.length := Nat.mod_lt i hpos
    have htarget : index toSubtasks (i % toSubtasks.length) =
        .ok toSubtasks[i % toSubtasks.length] := index_eq_ok.mpr (List.getElem?_eq_getElem hi)
    refine ⟨⟨s, toSubtasks[i % toSubtasks.length], .forward⟩ :: edges, ?_⟩
    unfold forwardEdges
    rw [if_neg (Nat.ne_of_gt hpos), htarget, hedges]
    rfl

/-- A forward edge from a node with subtasks to a node without. -/
def StarvedEdge (assignments : List SubtaskAssignment) (e : LogicalEdge) : Prop :=
  e.partitionStrategy = .forward ∧ subtasksOf assignments e.fromNode ≠ [] ∧
    subtasksOf assignments e.toNode = []

theorem physicalEdges_starved {assignments : List SubtaskAssignment} {e : LogicalEdge}
    (hfrom : e.fromNode < g.nodes.length) (hto : e.toNode < g.nodes.length)
    (h : StarvedEdge assignments e) : physicalEdges g assignments e = .error remainderByZero := by
  obtain ⟨hforward, hsome, hnone⟩ := h
  unfold physicalEdges
  rw [index_eq_ok.mpr (List.getElem?_eq_getElem hfrom),
    index_eq_ok.mpr (List.getElem?_eq_getElem hto), hforward, hnone]
  cases hsubtasks : subtasksOf assignments e.fromNode with
  | nil => exact absurd hsubtasks hsome
  | cons s fromSubtasks => rfl

theorem physicalEdges_ok {assignments : List SubtaskAssignment} {e : LogicalEdge}
    (hfrom : e.fromNode < g.nodes.length) (hto : e.toNode < g.nodes.length)
    (h : ¬StarvedEdge assignments e) : ∃ new, physicalEdges g assignments e = .ok new := by
  unfold physicalEdges
  rw [index_eq_ok.mpr (List.getElem?_eq_getElem hfrom),
    index_eq_ok.mpr (List.getElem?_eq_getElem hto)]
  cases hstrategy : e.partitionStrategy with
  | forward =>
    by_cases hnone : subtasksOf assignments e.toNode = []
    · by_cases hsome : subtasksOf assignments e.fromNode = []
      · rw [hsome]
        exact ⟨[], rfl⟩
      · exact absurd ⟨hstrategy, hsome, hnone⟩ h
    · exact forwardEdges_ok hnone _ 0
  | hash => exact ⟨_, rfl⟩
  | broadcast => exact ⟨_, rfl⟩
  | rebalance => exact ⟨_, rfl⟩

/-- **When the physical edges can be generated**: unless an edge leads nowhere. -/
theorem generateEdges_cases (assignments : List SubtaskAssignment) (hrange : g.InRange) :
    (∃ e ∈ g.edges, StarvedEdge assignments e) ∧
        generateEdges g assignments = .error remainderByZero ∨
      (¬∃ e ∈ g.edges, StarvedEdge assignments e) ∧
        ∃ edges, generateEdges g assignments = .ok edges := by
  refine foldlM_error (fun e he hstarved edges => ?_) (fun e he hfed edges => ?_) []
  · obtain ⟨hfrom, hto⟩ := hrange e he
    rw [physicalEdges_starved hfrom hto hstarved]
    rfl
  · obtain ⟨hfrom, hto⟩ := hrange e he
    obtain ⟨new, hnew⟩ := physicalEdges_ok hfrom hto hfed
    exact ⟨edges ++ new, by rw [hnew]; rfl⟩

theorem mem_subtasksOf {topo : List NodeId} {assignments : List SubtaskAssignment}
    (hids : assignments.map SubtaskAssignment.subtaskId = topo.flatMap g.subtasksAt) {id : NodeId}
    (hid : id ∈ topo) {s : SubtaskId} :
    s ∈ subtasksOf assignments id ↔ s ∈ g.subtasksAt id := by
  have hassigned : s ∈ subtasksOf assignments id ↔
      s ∈ assignments.map SubtaskAssignment.subtaskId ∧ s.nodeId = id := by
    unfold subtasksOf
    rw [List.mem_map, List.mem_map]
    constructor
    · rintro ⟨a, ha, rfl⟩
      obtain ⟨ha, hnode⟩ := List.mem_filter.mp ha
      exact ⟨⟨a, ha, rfl⟩, of_decide_eq_true hnode⟩
    · rintro ⟨⟨a, ha, rfl⟩, hnode⟩
      exact ⟨a, List.mem_filter.mpr ⟨ha, decide_eq_true hnode⟩, rfl⟩
  rw [hassigned, hids, List.mem_flatMap]
  constructor
  · rintro ⟨⟨id', -, hs⟩, rfl⟩
    rwa [← nodeId_of_mem hs] at hs
  · exact fun hs => ⟨⟨id, hid, hs⟩, nodeId_of_mem hs⟩

theorem subtasksOf_eq_nil_iff {topo : List NodeId} {assignments : List SubtaskAssignment}
    (hids : assignments.map SubtaskAssignment.subtaskId = topo.flatMap g.subtasksAt) {id : NodeId}
    (hid : id ∈ topo) {node : LogicalNode} (hnode : g.nodes[id]? = some node) :
    subtasksOf assignments id = [] ↔ node.parallelism = 0 := by
  have hsame : subtasksOf assignments id = [] ↔ g.subtasksAt id = [] := by
    simp only [List.eq_nil_iff_forall_not_mem, mem_subtasksOf hids hid]
  rw [hsame, subtasksAt, hnode]
  dsimp only
  rw [List.map_eq_nil_iff, List.range_eq_nil]

/-! ## The schedule -/

variable {overflowChecks : Bool} {slots : List SlotOffer} {strategy : SchedulingStrategy}
  {physical : PhysicalGraph}

/-- **What `schedule` assigns**: the subtasks of all nodes in a topological order. -/
theorem schedule_subtasks (h : schedule overflowChecks g slots strategy = .ok physical) :
    Acyclic g.Edge ∧ ∃ topo : List NodeId, topo.Perm (List.range g.nodes.length) ∧
      Respects g.Edge topo ∧
      physical.assignments.map SubtaskAssignment.subtaskId = topo.flatMap g.subtasksAt := by
  obtain ⟨topo, rest, htopo, hassign, -⟩ := schedule_eq_ok h
  have hrange := inRange_of_topologicalOrder htopo
  have hacyclic : Acyclic g.Edge := by
    by_contra hcycle
    rw [topologicalOrder_cyclic hrange hcycle] at htopo
    cases htopo
  obtain ⟨order, horder, hperm, hrespects⟩ := topologicalOrder_acyclic hrange hacyclic
  rw [htopo] at horder
  cases horder
  have hids := foldlM_invariant
    (P := fun done t => t.1.map SubtaskAssignment.subtaskId = done.flatMap g.subtasksAt)
    (fun done id t t' ht hstep => by
      rw [subtaskIds_assignNode hstep, ht, List.flatMap_append, List.flatMap_singleton])
    rfl hassign
  exact ⟨hacyclic, topo, hperm, hrespects, hids⟩

theorem schedule_cyclic (hrange : g.InRange) (hcycle : ¬ Acyclic g.Edge) :
    schedule overflowChecks g slots strategy = .error (.error "logical graph contains a cycle") := by
  unfold schedule
  rw [topologicalOrder_cyclic hrange hcycle]
  rfl

/-! ## The placement is valid -/

/-- Every subtask of every node is assigned once, to a slot of its own that an offer makes
available, and after the subtasks of the nodes with an edge to its node. -/
structure ValidPlacement (g : LogicalGraph) (slots : List SlotOffer)
    (assignments : List SubtaskAssignment) : Prop where
  once : ∀ id node, g.nodes[id]? = some node → ∀ i < node.parallelism,
    (assignments.filter fun a => a.subtaskId.nodeId = id ∧ a.subtaskId.subtaskIndex = i).length = 1
  only : ∀ a ∈ assignments, ∃ node, g.nodes[a.subtaskId.nodeId]? = some node ∧
    a.subtaskId.operatorName = node.name ∧ a.subtaskId.subtaskIndex < node.parallelism
  distinct : (assignments.map SubtaskAssignment.slot).Nodup
  offered : ∀ a ∈ assignments, ∃ o ∈ slots, o.taskManagerId = a.taskManagerId ∧
    o.usedSlots ≤ a.slotIndex ∧ a.slotIndex < o.totalSlots
  ordered : assignments.Pairwise fun a b => ¬ g.Edge b.subtaskId.nodeId a.subtaskId.nodeId

theorem pairwise_subtasks {topo : List NodeId} (hrespects : Respects g.Edge topo)
    (hnodup : topo.Nodup) (hacyclic : Acyclic g.Edge) :
    (topo.flatMap g.subtasksAt).Pairwise fun s t => ¬ g.Edge t.nodeId s.nodeId := by
  rw [List.pairwise_flatMap]
  refine ⟨fun id _ => ?_, (hrespects.pairwise hnodup).imp fun {a b} hab s hs t ht => ?_⟩
  · refine List.Pairwise.imp_of_mem (R := fun _ _ => True) (fun {s t} hs ht _ => ?_)
      (List.pairwise_of_forall fun _ _ => trivial)
    rw [nodeId_of_mem hs, nodeId_of_mem ht]
    exact fun hloop => hacyclic id (TransGen.single hloop)
  · rwa [nodeId_of_mem hs, nodeId_of_mem ht]

/-- **What `schedule` returns is a valid placement.** -/
theorem schedule_placement (hids : (slots.map SlotOffer.taskManagerId).Nodup)
    (h : schedule overflowChecks g slots strategy = .ok physical) :
    ValidPlacement g slots physical.assignments := by
  obtain ⟨hacyclic, topo, hperm, hrespects, hsubtasks⟩ := schedule_subtasks h
  have hnodup : topo.Nodup := hperm.nodup_iff.mpr List.nodup_range
  have hsub := (schedule_slots h).sublist
  have hslots := perm_reverse_buildSlotQueue slots strategy
  constructor
  case once =>
    intro id node hnode i hi
    obtain ⟨hid, -⟩ := List.getElem?_eq_some_iff.mp hnode
    have hcount := count_subtasks hnodup (hperm.mem_iff.mpr (List.mem_range.mpr hid)) hnode hi
    rw [← hsubtasks, List.countP_map] at hcount
    rw [← List.countP_eq_length_filter]
    exact hcount
  case only =>
    intro a ha
    have hmem : a.subtaskId ∈ topo.flatMap g.subtasksAt := by
      rw [← hsubtasks]
      exact List.mem_map_of_mem ha
    obtain ⟨id, -, hs⟩ := List.mem_flatMap.mp hmem
    obtain ⟨node, hnode, hs', hi⟩ := mem_subtasksAt.mp hs
    exact ⟨node, by rw [nodeId_of_mem hs]; exact hnode, by rw [hs'], hi⟩
  case distinct => exact hsub.nodup (hslots.nodup_iff.mpr (nodup_freeSlots hids))
  case offered =>
    intro a ha
    have hmem := hslots.mem_iff.mp (hsub.subset (List.mem_map_of_mem ha))
    obtain ⟨o, ho, hslot⟩ := List.mem_flatMap.mp hmem
    obtain ⟨htm, hlow, hhigh⟩ := SlotOffer.mem_freeSlots.mp hslot
    exact ⟨o, ho, htm.symm, hlow, hhigh⟩
  case ordered =>
    have := pairwise_subtasks hrespects hnodup hacyclic
    rw [← hsubtasks, List.pairwise_map] at this
    exact this

/-- A source, four mappers and two sinks. -/
def linearGraph : LogicalGraph :=
  let g := (LogicalGraph.new.addNode "source" .source 1).2
  let g := (g.addNode "map" .operator 4).2
  let g := (g.addNode "sink" .sink 2).2
  (g.addEdge 0 1 .hash).addEdge 1 2 .forward

theorem built_linearGraph : Built linearGraph := by
  have hone : 1 ≤ 1 := le_rfl
  have hfour : 1 ≤ 4 := by decide
  have htwo : 1 ≤ 2 := by decide
  have hnodes := ((Built.new.addNode "source" .source hone).addNode "map" .operator hfour).addNode
    "sink" .sink htwo
  exact (hnodes.addEdge .hash (by decide) (by decide)).addEdge .forward (by decide) (by decide)

/-- Two TaskManagers with four slots each. -/
def twoTmSlots : List SlotOffer := [⟨"tm-1", 4, 0⟩, ⟨"tm-2", 4, 0⟩]

theorem distinct_twoTmSlots : (twoTmSlots.map SlotOffer.taskManagerId).Nodup := by decide

theorem schedule_linearGraph :
    ∃ physical, schedule true linearGraph twoTmSlots .spread = .ok physical := ⟨_, rfl⟩

end Flume
