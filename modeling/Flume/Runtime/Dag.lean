import Flume.Core.Record
import Flume.Lib.Fallible

/-!
# The logical graph

`LogicalGraph` is a pipeline before execution. `topological_order` repeatedly takes a node that has
no incoming edge left. An edge to a node that does not exist is an index out of range.

* `ScheduleFailure`: how the calls of the scheduler end that do not return `Ok`;
* `countEdges`: the adjacency lists and the in-degrees;
* `topologicalOrder`: the order, or `none` if nodes are left over;
* `Drains`, `SortsTo`: runs of the loop that end, without a bound;
* **`topologicalOrder_eq_ok`**: the bound that the model gives the loop is large enough.
-/

namespace Flume

/-- Why a call of the scheduler does not return `Ok`: an error, or a panic. -/
inductive ScheduleFailure
  | error (msg : String)
  | indexOutOfRange
  | subtractOverflow
  | addOverflow
  | remainderByZero
  deriving DecidableEq

namespace ScheduleFailure

variable {α : Type}

/-- `v[i]`. -/
def index (v : List α) (i : ℕ) : Except ScheduleFailure α :=
  match v[i]? with
  | some a => .ok a
  | none => .error indexOutOfRange

/-- `a - b` on unsigned integers. -/
def sub (a b : ℕ) : Except ScheduleFailure ℕ :=
  if b ≤ a then .ok (a - b) else .error subtractOverflow

end ScheduleFailure

open ScheduleFailure
open Fallible (bind_eq_ok foldlM_invariant)

abbrev NodeId := ℕ

/-- The kind of processing a node performs. -/
inductive NodeKind
  | source
  | operator
  | sink
  deriving DecidableEq

/-- How records are routed between parallel subtasks. -/
inductive PartitionStrategy
  | forward
  | hash
  | broadcast
  | rebalance
  deriving DecidableEq

/-- A node of the logical graph. -/
structure LogicalNode where
  id : NodeId
  name : String
  kind : NodeKind
  parallelism : ℕ

/-- A directed edge of the logical graph. -/
structure LogicalEdge where
  fromNode : NodeId
  toNode : NodeId
  partitionStrategy : PartitionStrategy

/-- A pipeline before execution. -/
structure LogicalGraph where
  nodes : List LogicalNode
  edges : List LogicalEdge

namespace LogicalGraph

def new : LogicalGraph := ⟨[], []⟩

/-- Adds a node and returns its id. -/
def addNode (g : LogicalGraph) (name : String) (kind : NodeKind) (parallelism : ℕ) :
    NodeId × LogicalGraph :=
  (g.nodes.length, { g with nodes := g.nodes ++ [⟨g.nodes.length, name, kind, parallelism⟩] })

/-- Adds a directed edge between two nodes. -/
def addEdge (g : LogicalGraph) (fromNode toNode : NodeId) (partitionStrategy : PartitionStrategy) :
    LogicalGraph := { g with edges := g.edges ++ [⟨fromNode, toNode, partitionStrategy⟩] }

/-- The id of every node is its position, as `add_node` gives it. -/
def Numbered (g : LogicalGraph) : Prop := g.nodes.map LogicalNode.id = List.range g.nodes.length

theorem numbered_new : new.Numbered := rfl

theorem Numbered.addNode {g : LogicalGraph} (h : g.Numbered) (name : String) (kind : NodeKind)
    (parallelism : ℕ) : (g.addNode name kind parallelism).2.Numbered := by
  unfold Numbered LogicalGraph.addNode
  dsimp only
  rw [List.map_append, List.length_append, List.length_singleton, List.range_succ, h]
  rfl

theorem Numbered.addEdge {g : LogicalGraph} (h : g.Numbered) (fromNode toNode : NodeId)
    (strategy : PartitionStrategy) : (g.addEdge fromNode toNode strategy).Numbered := h

/-- Enters an edge into the adjacency lists and the in-degrees. -/
def countEdge (counts : List (List NodeId) × List ℕ) (edge : LogicalEdge) :
    Except ScheduleFailure (List (List NodeId) × List ℕ) := do
  let targets ← index counts.1 edge.fromNode
  let degree ← index counts.2 edge.toNode
  return (counts.1.set edge.fromNode (targets ++ [edge.toNode]),
    counts.2.set edge.toNode (degree + 1))

/-- The adjacency lists and the in-degrees. -/
def countEdges (g : LogicalGraph) : Except ScheduleFailure (List (List NodeId) × List ℕ) :=
  g.edges.foldlM countEdge (List.replicate g.nodes.length [], List.replicate g.nodes.length 0)

/-- Takes an incoming edge from a neighbor, and queues the neighbor if that was the last one. -/
def relax (st : List ℕ × List NodeId) (neighbor : NodeId) :
    Except ScheduleFailure (List ℕ × List NodeId) := do
  let degree ← index st.1 neighbor
  let degree ← sub degree 1
  return (st.1.set neighbor degree, if degree = 0 then st.2 ++ [neighbor] else st.2)

/-- The loop over the queue, with a bound on its iterations. -/
def drainQueue (adjacency : List (List NodeId)) :
    ℕ → List ℕ → List NodeId → List NodeId → Except ScheduleFailure (List NodeId)
  | 0, _, _, order => .ok order
  | _ + 1, _, [], order => .ok order
  | bound + 1, inDegree, node :: queue, order => do
    let neighbors ← index adjacency node
    let (inDegree, queue) ← neighbors.foldlM relax (inDegree, queue)
    drainQueue adjacency bound inDegree queue (order ++ [node])

/-- The topological sort with a bound on the iterations of its loop. -/
def topologicalOrderWithin (bound : ℕ) (g : LogicalGraph) :
    Except ScheduleFailure (Option (List NodeId)) := do
  let (adjacency, inDegree) ← g.countEdges
  let queue := (List.range g.nodes.length).filter fun id => inDegree[id]? = some 0
  let order ← drainQueue adjacency bound inDegree queue []
  return if order.length = g.nodes.length then some order else none

/-- The nodes, sources first, or `none` if the graph contains a cycle. -/
def topologicalOrder (g : LogicalGraph) : Except ScheduleFailure (Option (List NodeId)) :=
  g.topologicalOrderWithin (g.nodes.length + g.edges.length)

/-! ## The loop over the queue ends -/

theorem sum_set_add {l : List ℕ} {i a b : ℕ} (h : l[i]? = some b) :
    (l.set i a).sum + b = l.sum + a := by
  induction l generalizing i with
  | nil => cases h
  | cons c l ih =>
    cases i with
    | zero =>
      obtain rfl := Option.some.inj h
      rw [List.set_cons_zero, List.sum_cons, List.sum_cons]
      omega
    | succ i =>
      have := ih (i := i) h
      rw [List.set_cons_succ, List.sum_cons, List.sum_cons]
      omega

theorem index_eq_ok {α : Type} {v : List α} {i : ℕ} {a : α} :
    index v i = .ok a ↔ v[i]? = some a := by
  unfold index
  cases v[i]? <;> simp

/-- The queued nodes and the incoming edges that are left. -/
def work (st : List ℕ × List NodeId) : ℕ := st.2.length + st.1.sum

theorem work_relax {st st' : List ℕ × List NodeId} {neighbor : NodeId}
    (h : relax st neighbor = .ok st') : work st' ≤ work st := by
  obtain ⟨degree, hindex, h⟩ := bind_eq_ok h
  obtain ⟨degree', hsub, h⟩ := bind_eq_ok h
  cases h
  unfold sub at hsub
  split_ifs at hsub with hpos
  cases hsub
  have hsum := sum_set_add (a := degree - 1) (index_eq_ok.mp hindex)
  have hqueue : (if degree - 1 = 0 then st.2 ++ [neighbor] else st.2).length ≤ st.2.length + 1 := by
    split_ifs
    · rw [List.length_append, List.length_singleton]
    · exact Nat.le_succ _
  unfold work
  dsimp only
  omega

theorem work_turn {neighbors queue : List NodeId} {inDegree : List ℕ} (node : NodeId)
    {st : List ℕ × List NodeId} (h : neighbors.foldlM relax (inDegree, queue) = .ok st) :
    work st < work (inDegree, node :: queue) := by
  have hwork : work st ≤ work (inDegree, queue) :=
    foldlM_invariant (P := fun _ t => work t ≤ work (inDegree, queue))
      (fun _ _ t t' ht hstep => (work_relax hstep).trans ht) le_rfl h
  refine Nat.lt_of_le_of_lt hwork ?_
  change queue.length + inDegree.sum < queue.length + 1 + inDegree.sum
  omega

/-- The loop over the queue ends, without a failure, with the order `result`. -/
inductive Drains (adjacency : List (List NodeId)) :
    List ℕ → List NodeId → List NodeId → List NodeId → Prop
  | done (inDegree : List ℕ) (order : List NodeId) : Drains adjacency inDegree [] order order
  | turn {inDegree inDegree' : List ℕ} {node : NodeId}
      {queue queue' order neighbors result : List NodeId} : index adjacency node = .ok neighbors →
      neighbors.foldlM relax (inDegree, queue) = .ok (inDegree', queue') →
      Drains adjacency inDegree' queue' (order ++ [node]) result →
      Drains adjacency inDegree (node :: queue) order result

theorem drains_nil {adjacency : List (List NodeId)} {inDegree : List ℕ}
    {order result : List NodeId} :
    Drains adjacency inDegree [] order result ↔ order = result := by
  constructor
  · rintro ⟨⟩
    rfl
  · rintro rfl
    exact .done inDegree order

/-- **The bounded loop is the loop** if the bound covers the work. -/
theorem drainQueue_eq_ok {adjacency : List (List NodeId)} {bound : ℕ} {inDegree : List ℕ}
    {queue order result : List NodeId} (h : work (inDegree, queue) ≤ bound) :
    drainQueue adjacency bound inDegree queue order = .ok result ↔
      Drains adjacency inDegree queue order result := by
  induction bound generalizing inDegree queue order with
  | zero =>
    have hqueue : queue = [] :=
      List.length_eq_zero_iff.mp (Nat.eq_zero_of_le_zero ((Nat.le_add_right _ _).trans h))
    subst hqueue
    rw [drains_nil]
    change Except.ok order = Except.ok result ↔ _
    rw [Except.ok.injEq]
  | succ bound ih =>
    cases queue with
    | nil =>
      rw [drains_nil]
      change Except.ok order = Except.ok result ↔ _
      rw [Except.ok.injEq]
    | cons node queue =>
      constructor
      · intro hdrain
        obtain ⟨neighbors, hneighbors, hdrain⟩ := bind_eq_ok hdrain
        obtain ⟨⟨inDegree', queue'⟩, hrelax, hdrain⟩ := bind_eq_ok hdrain
        have hwork := work_turn node hrelax
        exact .turn hneighbors hrelax ((ih (by omega)).mp hdrain)
      · rintro (_ | ⟨hneighbors, hrelax, hdrain⟩)
        have hwork := work_turn node hrelax
        unfold drainQueue
        rw [hneighbors]
        change (List.foldlM relax (inDegree, queue) _ >>= _) = _
        rw [hrelax]
        exact (ih (by omega)).mpr hdrain

theorem sum_countEdges {g : LogicalGraph} {counts : List (List NodeId) × List ℕ}
    (h : g.countEdges = .ok counts) : counts.2.sum = g.edges.length := by
  refine foldlM_invariant (P := fun done counts => counts.2.sum = done.length)
    (fun done edge counts counts' hsum hstep => ?_) ?_ h
  · obtain ⟨targets, -, hstep⟩ := bind_eq_ok hstep
    obtain ⟨degree, hindex, hstep⟩ := bind_eq_ok hstep
    cases hstep
    have := sum_set_add (a := degree + 1) (index_eq_ok.mp hindex)
    rw [List.length_append, List.length_singleton]
    dsimp only
    omega
  · simp

/-- The initial queue: the nodes that no edge leads to. -/
def roots (n : ℕ) (inDegree : List ℕ) : List NodeId :=
  (List.range n).filter fun id => inDegree[id]? = some 0

theorem work_roots {g : LogicalGraph} {counts : List (List NodeId) × List ℕ}
    (h : g.countEdges = .ok counts) :
    work (counts.2, roots g.nodes.length counts.2) ≤ g.nodes.length + g.edges.length := by
  have hroots := List.length_filter_le (fun id => decide (counts.2[id]? = some 0))
    (List.range g.nodes.length)
  rw [List.length_range] at hroots
  exact Nat.add_le_add hroots (sum_countEdges h).le

/-- The topological sort ends, without a failure, with `result`. -/
def SortsTo (g : LogicalGraph) (result : Option (List NodeId)) : Prop :=
  ∃ adjacency inDegree order, g.countEdges = .ok (adjacency, inDegree) ∧
    Drains adjacency inDegree (roots g.nodes.length inDegree) [] order ∧
    result = if order.length = g.nodes.length then some order else none

/-- **The model of the sort** returns what the sort ends with. -/
theorem topologicalOrder_eq_ok {g : LogicalGraph} {result : Option (List NodeId)} :
    g.topologicalOrder = .ok result ↔ g.SortsTo result := by
  constructor
  · intro h
    obtain ⟨⟨adjacency, inDegree⟩, hcounts, h⟩ := bind_eq_ok h
    obtain ⟨order, hdrain, h⟩ := bind_eq_ok h
    cases h
    exact ⟨adjacency, inDegree, order, hcounts,
      (drainQueue_eq_ok (work_roots hcounts)).mp hdrain, rfl⟩
  · rintro ⟨adjacency, inDegree, order, hcounts, hdrain, rfl⟩
    unfold topologicalOrder topologicalOrderWithin
    rw [hcounts]
    change (drainQueue adjacency _ inDegree (roots g.nodes.length inDegree) [] >>= _) = _
    rw [(drainQueue_eq_ok (work_roots hcounts)).mpr hdrain]
    rfl

end LogicalGraph
end Flume
