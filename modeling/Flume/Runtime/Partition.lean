import Flume.Runtime.Placement

/-!
# Routes and physical edges

A `Partitioner` routes the records of a subtask to indices of downstream subtasks; the physical
edges are generated from the assignments, on their own. The hash function is a parameter.

* `hashPartition`, `Partitioner.select`: as the code has them;
* `edgeTargets`, **`physicalEdges_eq`**: the downstream indices that subtask `i` is connected to;
* **`select_routes`**: the indices selected are among them;
* `CoversRoutes`, **`schedule_covers`**: each route has its physical edge.
-/

namespace Flume

open ScheduleFailure LogicalGraph
open Fallible (bind_eq_ok foldlM_invariant)

/-- `a % b` on unsigned integers. -/
def ScheduleFailure.rem (a b : ℕ) : Except ScheduleFailure ℕ :=
  if b = 0 then .error remainderByZero else .ok (a % b)

/-- The partition of a key. -/
def hashPartition (hash : Bytes → U64) (key : Bytes) (numPartitions : ℕ) :
    Except ScheduleFailure ℕ := rem (hash key).val numPartitions

/-- How the records of a subtask are routed. -/
inductive Partitioner
  | forward
  | hash
  | broadcast
  | rebalance (next : U64)
  deriving DecidableEq

namespace Partitioner

/-- The strategy that a partitioner implements. -/
def strategy : Partitioner → PartitionStrategy
  | .forward => .forward
  | .hash => .hash
  | .broadcast => .broadcast
  | .rebalance _ => .rebalance

/-- Selects the target indices for a record. -/
def select (hash : Bytes → U64) (p : Partitioner) (key : Option Bytes)
    (sourceIndex numTargets : ℕ) : Except ScheduleFailure (List ℕ × Partitioner) :=
  match p with
  | .forward => do
    let target ← rem sourceIndex numTargets
    return ([target], .forward)
  | .hash => do
    let target ← hashPartition hash (key.getD []) numTargets
    return ([target], .hash)
  | .broadcast => return (List.range numTargets, .broadcast)
  | .rebalance next => do
    let target ← rem next.val numTargets
    -- the counter wraps around
    return ([target], .rebalance (next + 1))

end Partitioner

/-! ## The physical edges of a logical edge -/

/-- The downstream indices that the upstream subtask `i` is connected to. -/
def edgeTargets (strategy : PartitionStrategy) (i numTargets : ℕ) : List ℕ :=
  match strategy with
  | .forward => [i % numTargets]
  | _ => List.range numTargets

/-- The pairs of indices that are connected. -/
def edgePairs (strategy : PartitionStrategy) (numSources numTargets : ℕ) : List (ℕ × ℕ) :=
  (List.range numSources).flatMap fun i => (edgeTargets strategy i numTargets).map (Prod.mk i)

theorem mem_edgePairs {strategy : PartitionStrategy} {numSources numTargets i t : ℕ} :
    (i, t) ∈ edgePairs strategy numSources numTargets ↔
      i < numSources ∧ t ∈ edgeTargets strategy i numTargets := by
  simp [edgePairs]

theorem nodup_edgePairs (strategy : PartitionStrategy) (numSources numTargets : ℕ) :
    (edgePairs strategy numSources numTargets).Nodup := by
  unfold edgePairs
  rw [List.nodup_flatMap]
  refine ⟨fun i _ => ?_, List.nodup_range.imp fun {i j} hij => ?_⟩
  · refine List.Nodup.map (Prod.mk_right_injective i) ?_
    cases strategy with
    | forward => exact List.nodup_singleton _
    | hash | broadcast | rebalance => exact List.nodup_range
  · rintro ⟨a, b⟩ hi hj
    obtain ⟨_, _, hi⟩ := List.mem_map.mp hi
    obtain ⟨_, _, hj⟩ := List.mem_map.mp hj
    exact hij ((Prod.mk.inj hi).1.trans (Prod.mk.inj hj).1.symm)

theorem lt_of_mem_edgeTargets {strategy : PartitionStrategy} {i numTargets t : ℕ}
    (hpos : 1 ≤ numTargets) (h : t ∈ edgeTargets strategy i numTargets) : t < numTargets := by
  cases strategy with
  | forward =>
    obtain rfl := List.mem_singleton.mp h
    exact Nat.mod_lt _ hpos
  | hash | broadcast | rebalance => exact List.mem_range.mp h

theorem forwardEdges_eq {numTargets : ℕ} (hpos : 1 ≤ numTargets) (source target : ℕ → SubtaskId)
    (start numSources : ℕ) :
    forwardEdges ((List.range numTargets).map target) start
        ((List.range' start numSources).map source) =
      .ok ((List.range' start numSources).map fun i =>
        ⟨source i, target (i % numTargets), .forward⟩) := by
  have hlen : ((List.range numTargets).map target).length = numTargets := by simp
  induction numSources generalizing start with
  | zero => rfl
  | succ numSources ih =>
    have hindex : index ((List.range numTargets).map target) (start % numTargets) =
        .ok (target (start % numTargets)) := by
      refine index_eq_ok.mpr ?_
      rw [List.getElem?_map, List.getElem?_range (Nat.mod_lt _ hpos)]
      rfl
    rw [List.range'_succ, List.map_cons, List.map_cons, forwardEdges, hlen, hindex, ih,
      if_neg (Nat.ne_of_gt hpos)]
    rfl

/-- The subtask of a node with an index. -/
def subtask (id : NodeId) (node : LogicalNode) (i : ℕ) : SubtaskId := ⟨id, node.name, i⟩

/-- **The physical edges of a logical edge**, when the subtasks of its nodes are in order. -/
theorem physicalEdges_eq {g : LogicalGraph} {assignments : List SubtaskAssignment}
    {e : LogicalEdge} {source target : LogicalNode} (hsource : g.nodes[e.fromNode]? = some source)
    (htarget : g.nodes[e.toNode]? = some target) (hpos : 1 ≤ target.parallelism)
    (hsources : subtasksOf assignments e.fromNode = g.subtasksAt e.fromNode)
    (htargets : subtasksOf assignments e.toNode = g.subtasksAt e.toNode) :
    physicalEdges g assignments e =
      .ok ((edgePairs e.partitionStrategy source.parallelism target.parallelism).map fun p =>
        ⟨subtask e.fromNode source p.1, subtask e.toNode target p.2, e.partitionStrategy⟩) := by
  have hsourcesAt : g.subtasksAt e.fromNode =
      (List.range source.parallelism).map (subtask e.fromNode source) := by
    unfold subtasksAt
    rw [hsource]
    rfl
  have htargetsAt : g.subtasksAt e.toNode =
      (List.range target.parallelism).map (subtask e.toNode target) := by
    unfold subtasksAt
    rw [htarget]
    rfl
  unfold physicalEdges
  rw [index_eq_ok.mpr hsource, index_eq_ok.mpr htarget, hsources, htargets, hsourcesAt, htargetsAt]
  obtain ⟨fromNode, toNode, strategy⟩ := e
  cases strategy with
  | forward =>
    change forwardEdges _ 0 _ = _
    rw [@List.range_eq_range' source.parallelism, forwardEdges_eq hpos, ← List.range_eq_range']
    simp [edgePairs, edgeTargets, ← List.map_eq_flatMap, Function.comp_def]
  | hash | broadcast | rebalance =>
    change Except.ok (allToAll _ _ _) = _
    simp [allToAll, edgePairs, edgeTargets, List.flatMap_map, List.map_flatMap, Function.comp_def]

/-! ## The subtasks of a node, among the assignments -/

section Schedule

variable {overflowChecks : Bool} {g : LogicalGraph} {slots : List SlotOffer} {strategy : SchedulingStrategy}
  {physical : PhysicalGraph}

theorem filter_subtasks {topo : List NodeId} (h : topo.Nodup) {id : NodeId} (hid : id ∈ topo) :
    (topo.flatMap g.subtasksAt).filter (fun s => s.nodeId = id) = g.subtasksAt id := by
  have hother : ∀ a, a ≠ id → (g.subtasksAt a).filter (fun s => s.nodeId = id) = [] := by
    intro a ha
    rw [List.filter_eq_nil_iff]
    intro s hs hid'
    exact ha ((nodeId_of_mem hs).symm.trans (of_decide_eq_true hid'))
  have hown : (g.subtasksAt id).filter (fun s => s.nodeId = id) = g.subtasksAt id := by
    rw [List.filter_eq_self]
    exact fun s hs => decide_eq_true (nodeId_of_mem hs)
  have hrest : ∀ rest : List NodeId, id ∉ rest →
      (rest.flatMap g.subtasksAt).filter (fun s => s.nodeId = id) = [] := by
    intro rest hnot
    rw [List.filter_flatMap, List.flatMap_eq_nil_iff]
    exact fun a ha => hother a fun hid' => hnot (hid' ▸ ha)
  obtain ⟨before, after, rfl⟩ := List.append_of_mem hid
  obtain ⟨-, hafter, hdisjoint⟩ := List.nodup_append.mp h
  rw [List.flatMap_append, List.flatMap_cons, List.filter_append, List.filter_append, hown,
    hrest before fun hin => hdisjoint id hin id List.mem_cons_self rfl,
    hrest after (List.nodup_cons.mp hafter).1, List.nil_append, List.append_nil]

/-- **The assignments of a node** are its subtasks in order. -/
theorem subtasksOf_eq (h : schedule overflowChecks g slots strategy = .ok physical) {id : NodeId}
    (hid : id < g.nodes.length) : subtasksOf physical.assignments id = g.subtasksAt id := by
  obtain ⟨-, topo, hperm, -, hsubtasks⟩ := schedule_subtasks h
  rw [← filter_subtasks (hperm.nodup_iff.mpr List.nodup_range)
    (hperm.mem_iff.mpr (List.mem_range.mpr hid)), ← hsubtasks, List.filter_map]
  rfl

theorem generateEdges_eq_ok {assignments : List SubtaskAssignment} {edges : List PhysicalEdge}
    (h : generateEdges g assignments = .ok edges) : ∃ parts, edges = parts.flatten ∧
      List.Forall₂ (fun e part => physicalEdges g assignments e = .ok part) g.edges parts := by
  refine foldlM_invariant (P := fun done edges => ∃ parts, edges = parts.flatten ∧
    List.Forall₂ (fun e part => physicalEdges g assignments e = .ok part) done parts)
    (fun done e edges edges' hdone hstep => ?_) ⟨[], rfl, .nil⟩ h
  obtain ⟨parts, rfl, hparts⟩ := hdone
  obtain ⟨part, hpart, hstep⟩ := bind_eq_ok hstep
  cases hstep
  refine ⟨parts ++ [part], by simp, ?_⟩
  exact List.rel_append hparts (.cons hpart .nil)

end Schedule

/-! ## Routes -/

/-- **The indices selected** are among those that subtask `i` is connected to; for `Forward` and
`Broadcast` they are all. -/
theorem select_routes (hash : Bytes → U64) (p : Partitioner) (key : Option Bytes) (i : ℕ)
    {numTargets : ℕ} (hpos : 1 ≤ numTargets) :
    ∃ targets p', p.select hash key i numTargets = .ok (targets, p') ∧
      targets ⊆ edgeTargets p.strategy i numTargets ∧
      (p.strategy = .forward ∨ p.strategy = .broadcast →
        targets = edgeTargets p.strategy i numTargets) := by
  have hrem : ∀ a, rem a numTargets = .ok (a % numTargets) := fun a =>
    if_neg (Nat.ne_of_gt hpos)
  have hlt : ∀ a, [a % numTargets] ⊆ List.range numTargets := by
    intro a t ht
    obtain rfl := List.mem_singleton.mp ht
    exact List.mem_range.mpr (Nat.mod_lt a hpos)
  cases p with
  | forward =>
    refine ⟨[i % numTargets], .forward, ?_, List.Subset.refl _, fun _ => rfl⟩
    change (rem i numTargets >>= _) = _
    rw [hrem]
    rfl
  | hash =>
    refine ⟨[(hash (key.getD [])).val % numTargets], .hash, ?_, hlt _, ?_⟩
    · change (rem (hash (key.getD [])).val numTargets >>= _) = _
      rw [hrem]
      rfl
    · rintro (h | h) <;> cases h
  | broadcast => exact ⟨List.range numTargets, .broadcast, rfl, List.Subset.refl _, fun _ => rfl⟩
  | rebalance next =>
    refine ⟨[next.val % numTargets], .rebalance (next + 1), ?_, hlt _, ?_⟩
    · change (rem next.val numTargets >>= _) = _
      rw [hrem]
      rfl
    · rintro (h | h) <;> cases h

/-- The physical edge from a subtask to another. -/
def PhysicalEdge.Connects (edge : PhysicalEdge) (source target : SubtaskId) : Prop :=
  edge.fromSubtask = source ∧ edge.toSubtask = target

instance (edge : PhysicalEdge) (source target : SubtaskId) :
    Decidable (edge.Connects source target) := instDecidableAnd

/-- The physical edges of a logical edge cover every route: each index that a partitioner of its
strategy selects is one of a downstream subtask, and one physical edge leads there. `Forward` and
`Broadcast` select all subtasks that an edge leads to. -/
def CoversRoutes (g : LogicalGraph) (hash : Bytes → U64) (e : LogicalEdge)
    (part : List PhysicalEdge) : Prop :=
  ∀ source target, g.nodes[e.fromNode]? = some source → g.nodes[e.toNode]? = some target →
    ∀ i < source.parallelism, ∀ p : Partitioner, p.strategy = e.partitionStrategy → ∀ key,
      ∃ targets p', p.select hash key i target.parallelism = .ok (targets, p') ∧
        (∀ t ∈ targets, t < target.parallelism ∧
          part.countP (fun edge =>
            edge.Connects (subtask e.fromNode source i) (subtask e.toNode target t)) = 1) ∧
        (e.partitionStrategy = .forward ∨ e.partitionStrategy = .broadcast →
          ∀ edge ∈ part, edge.fromSubtask = subtask e.fromNode source i →
            ∃ t ∈ targets, edge.toSubtask = subtask e.toNode target t)

theorem subtask_inj {id : NodeId} {node : LogicalNode} {i j : ℕ} :
    subtask id node i = subtask id node j ↔ i = j := by
  unfold subtask
  simp

/-- **One logical edge.** -/
theorem coversRoutes_of_pairs {g : LogicalGraph} (hash : Bytes → U64) {e : LogicalEdge}
    {source target : LogicalNode} (hsource : g.nodes[e.fromNode]? = some source)
    (htarget : g.nodes[e.toNode]? = some target) (hpos : 1 ≤ target.parallelism) :
    CoversRoutes g hash e ((edgePairs e.partitionStrategy source.parallelism target.parallelism).map
      fun p => ⟨subtask e.fromNode source p.1, subtask e.toNode target p.2,
        e.partitionStrategy⟩) := by
  intro source' target' hsource' htarget' i hi p hp key
  obtain rfl := Option.some.inj (hsource.symm.trans hsource')
  obtain rfl := Option.some.inj (htarget.symm.trans htarget')
  obtain ⟨targets, p', hselect, hsubset, hall⟩ := select_routes hash p key i hpos
  rw [hp] at hsubset hall
  refine ⟨targets, p', hselect, fun t ht => ⟨lt_of_mem_edgeTargets hpos (hsubset ht), ?_⟩, ?_⟩
  · have hpair : (i, t) ∈ edgePairs e.partitionStrategy source.parallelism target.parallelism :=
      mem_edgePairs.mpr ⟨hi, hsubset ht⟩
    rw [List.countP_map, ← List.count_eq_one_of_mem (nodup_edgePairs _ _ _) hpair,
      List.count_eq_countP]
    refine List.countP_congr fun pair _ => ?_
    obtain ⟨j, u⟩ := pair
    simp [PhysicalEdge.Connects, subtask_inj]
  · intro hstrategy edge hedge hfrom
    obtain ⟨⟨j, u⟩, hpair, rfl⟩ := List.mem_map.mp hedge
    obtain rfl := subtask_inj.mp hfrom
    rw [hall hstrategy]
    exact ⟨u, (mem_edgePairs.mp hpair).2, rfl⟩

/-- **The physical edges cover every route.** -/
theorem schedule_covers (hash : Bytes → U64) {overflowChecks : Bool} {g : LogicalGraph}
    {slots : List SlotOffer} {strategy : SchedulingStrategy} {physical : PhysicalGraph}
    (hparallelism : ∀ node ∈ g.nodes, 1 ≤ node.parallelism)
    (h : schedule overflowChecks g slots strategy = .ok physical) :
    ∃ parts, physical.edges = parts.flatten ∧ List.Forall₂ (CoversRoutes g hash) g.edges parts ∧
      List.Forall₂ (fun e part => physicalEdges g physical.assignments e = .ok part) g.edges
        parts := by
  obtain ⟨topo, rest, htopo, -, hedges⟩ := schedule_eq_ok h
  have hrange := inRange_of_topologicalOrder htopo
  obtain ⟨parts, hflatten, hparts⟩ := generateEdges_eq_ok hedges
  have hcovers : ∀ e ∈ g.edges, ∀ part, physicalEdges g physical.assignments e = .ok part →
      CoversRoutes g hash e part := by
    intro e he part hpart
    obtain ⟨hfrom, hto⟩ := hrange e he
    have hsource := List.getElem?_eq_getElem hfrom
    have htarget := List.getElem?_eq_getElem hto
    have hpos := hparallelism _ (List.getElem_mem hto)
    rw [physicalEdges_eq hsource htarget hpos (subtasksOf_eq h hfrom) (subtasksOf_eq h hto)]
      at hpart
    cases hpart
    exact coversRoutes_of_pairs hash hsource htarget hpos
  have hmem := (List.forall₂_and_left g.edges parts).mpr ⟨fun e he => he, hparts⟩
  exact ⟨parts, hflatten, hmem.imp fun e part hpart => hcovers e hpart.1 part hpart.2, hparts⟩

/-- The edges from the source to the mappers and from the mappers to the sinks. -/
theorem linearGraph_covers : ∃ physical, schedule true linearGraph twoTmSlots .spread = .ok physical ∧
    ∃ parts, physical.edges = parts.flatten ∧
      List.Forall₂ (CoversRoutes linearGraph fun key => Fin.ofNat _ key.length) linearGraph.edges
        parts ∧
      List.Forall₂ (fun e part => physicalEdges linearGraph physical.assignments e = .ok part)
        linearGraph.edges parts := by
  obtain ⟨physical, h⟩ := schedule_linearGraph
  exact ⟨physical, h,
    schedule_covers (fun key => Fin.ofNat _ key.length) (by decide) h⟩

end Flume
