import Flume.Lib.Acyclic
import Flume.Runtime.Dag

/-!
# The topological sort is right

The in-degree of a node is the number of edges to it from nodes that are not in the order yet. A
node is in the order or in the queue exactly if none is left.

* `LogicalGraph.Edge`: the edges as a relation; `InRange`: they connect nodes of the graph;
* `countEdges_eq`, `relax_all`: what the two inner loops compute;
* `Draining`: the invariant of the loop over the queue; `Draining.step`, `Draining.run`;
* **`topologicalOrder_acyclic`**: of an acyclic graph the order has every node once, after those
  with an edge to it;
* **`topologicalOrder_cyclic`**: of any other graph there is no order;
* **`topologicalOrder_spec`**: both for the loop itself, which always ends.
-/

namespace Flume

open ScheduleFailure Relation
open Fallible (bind_eq_ok foldlM_invariant foldlM_total)

/-! ## Vectors with an entry for each node -/

section Tabulate

variable {α : Type}

/-- The vector with the entries `f 0`, ..., `f (n - 1)`. -/
def tabulate (n : ℕ) (f : ℕ → α) : List α := (List.range n).map f

theorem getElem?_tabulate (n : ℕ) (f : ℕ → α) (i : ℕ) :
    (tabulate n f)[i]? = if i < n then some (f i) else none := by
  unfold tabulate
  rw [List.getElem?_map]
  split_ifs with h
  · rw [List.getElem?_range h]
    rfl
  · rw [List.getElem?_eq_none (by rw [List.length_range]; exact Nat.not_lt.mp h)]
    rfl

theorem index_tabulate {n i : ℕ} (h : i < n) (f : ℕ → α) : index (tabulate n f) i = .ok (f i) :=
  LogicalGraph.index_eq_ok.mpr ((getElem?_tabulate n f i).trans (if_pos h))

theorem set_tabulate (n i : ℕ) (f : ℕ → α) (a : α) :
    (tabulate n f).set i a = tabulate n (Function.update f i a) := by
  apply List.ext_getElem?
  intro j
  rw [List.getElem?_set, getElem?_tabulate, getElem?_tabulate]
  by_cases hj : i = j
  · subst hj
    simp [tabulate, Function.update_self]
  · rw [if_neg hj, Function.update_of_ne (Ne.symm hj)]

theorem replicate_eq_tabulate (n : ℕ) (a : α) : List.replicate n a = tabulate n fun _ => a := by
  unfold tabulate
  rw [List.map_const', List.length_range]

end Tabulate

namespace LogicalGraph

/-- The edges as a relation. -/
def Edge (g : LogicalGraph) (a b : NodeId) : Prop :=
  ∃ e ∈ g.edges, e.fromNode = a ∧ e.toNode = b

/-- Every edge connects two nodes of the graph. -/
def InRange (g : LogicalGraph) : Prop :=
  ∀ e ∈ g.edges, e.fromNode < g.nodes.length ∧ e.toNode < g.nodes.length

instance (g : LogicalGraph) : Decidable g.InRange := by
  unfold InRange
  infer_instance

/-! ## Counting the edges -/

/-- The targets of the edges from a node. -/
def successors (edges : List LogicalEdge) (a : NodeId) : List NodeId :=
  (edges.filter fun e => e.fromNode = a).map LogicalEdge.toNode

/-- The number of edges to a node. -/
def incoming (edges : List LogicalEdge) (b : NodeId) : ℕ := edges.countP fun e => e.toNode = b

theorem successors_concat (edges : List LogicalEdge) (e : LogicalEdge) :
    successors (edges ++ [e]) =
      Function.update (successors edges) e.fromNode (successors edges e.fromNode ++ [e.toNode]) := by
  funext a
  unfold successors
  rw [List.filter_append, List.map_append]
  by_cases h : a = e.fromNode
  · subst h
    simp
  · rw [Function.update_of_ne h]
    simp [Ne.symm h]

theorem incoming_concat (edges : List LogicalEdge) (e : LogicalEdge) :
    incoming (edges ++ [e]) =
      Function.update (incoming edges) e.toNode (incoming edges e.toNode + 1) := by
  funext b
  unfold incoming
  rw [List.countP_append]
  by_cases h : b = e.toNode
  · subst h
    simp
  · rw [Function.update_of_ne h]
    simp [Ne.symm h]

theorem countEdges_eq {g : LogicalGraph} (h : g.InRange) :
    g.countEdges = .ok (tabulate g.nodes.length (successors g.edges),
      tabulate g.nodes.length (incoming g.edges)) := by
  have hfold : ∃ counts, g.countEdges = .ok counts ∧ counts =
      (tabulate g.nodes.length (successors g.edges), tabulate g.nodes.length (incoming g.edges)) := by
    refine foldlM_total (P := fun done counts => counts =
      (tabulate g.nodes.length (successors done), tabulate g.nodes.length (incoming done)))
      (fun done e rest hl counts hdone => ?_) ?_
    · obtain ⟨hfrom, hto⟩ := h e (by simp [hl])
      refine ⟨_, ?_, rfl⟩
      subst hdone
      unfold countEdge
      rw [index_tabulate hfrom, index_tabulate hto, successors_concat, incoming_concat,
        ← set_tabulate, ← set_tabulate]
      rfl
    · rw [replicate_eq_tabulate, replicate_eq_tabulate]
      rfl
  obtain ⟨counts, hcounts, rfl⟩ := hfold
  exact hcounts

theorem inRange_of_countEdges {g : LogicalGraph} {counts : List (List NodeId) × List ℕ}
    (h : g.countEdges = .ok counts) : g.InRange := by
  refine (foldlM_invariant (P := fun done counts =>
    (counts.1.length = g.nodes.length ∧ counts.2.length = g.nodes.length) ∧
      ∀ e ∈ done, e.fromNode < g.nodes.length ∧ e.toNode < g.nodes.length)
    (fun done e counts counts' hdone hstep => ?_) ?_ h).2
  · obtain ⟨⟨hlen₁, hlen₂⟩, hdone⟩ := hdone
    obtain ⟨targets, htargets, hstep⟩ := bind_eq_ok hstep
    obtain ⟨degree, hdegree, hstep⟩ := bind_eq_ok hstep
    cases hstep
    refine ⟨⟨by rw [List.length_set, hlen₁], by rw [List.length_set, hlen₂]⟩, ?_⟩
    obtain ⟨hfrom, -⟩ := List.getElem?_eq_some_iff.mp (index_eq_ok.mp htargets)
    obtain ⟨hto, -⟩ := List.getElem?_eq_some_iff.mp (index_eq_ok.mp hdegree)
    intro e' he'
    rcases List.mem_append.mp he' with he' | he'
    · exact hdone e' he'
    · obtain rfl := List.mem_singleton.mp he'
      exact ⟨hlen₁ ▸ hfrom, hlen₂ ▸ hto⟩
  · simp

theorem inRange_of_topologicalOrder {g : LogicalGraph} {topo : Option (List NodeId)}
    (h : g.topologicalOrder = .ok topo) : g.InRange := by
  obtain ⟨counts, hcounts, -⟩ := bind_eq_ok h
  exact inRange_of_countEdges hcounts

/-! ## One turn of the loop -/

theorem relax_eq {n : ℕ} {degree : NodeId → ℕ} {b : NodeId} (queue : List NodeId) (hb : b < n)
    (hpos : 1 ≤ degree b) : relax (tabulate n degree, queue) b =
      .ok (tabulate n (Function.update degree b (degree b - 1)),
        queue ++ if degree b = 1 then [b] else []) := by
  have hzero : degree b - 1 = 0 ↔ degree b = 1 := by omega
  unfold relax
  rw [index_tabulate hb, ← set_tabulate]
  change (sub (degree b) 1 >>= _) = _
  unfold sub
  rw [if_pos hpos]
  change Except.ok (_, if degree b - 1 = 0 then _ else _) = _
  simp only [hzero]
  split_ifs with hlast
  · rfl
  · rw [List.append_nil]

/-- What happens to the in-degrees and the queue when the edges from a node are taken away: the
nodes that lose their last incoming edge join the queue. -/
theorem relax_all {n : ℕ} {degree : NodeId → ℕ} {neighbors : List NodeId} (queue : List NodeId)
    (hrange : ∀ b ∈ neighbors, b < n) (hdegree : ∀ b, neighbors.count b ≤ degree b) :
    ∃ released, neighbors.foldlM relax (tabulate n degree, queue) =
        .ok (tabulate n fun b => degree b - neighbors.count b, queue ++ released) ∧
      released.Nodup ∧ ∀ b, b ∈ released ↔ b ∈ neighbors ∧ degree b = neighbors.count b := by
  suffices hfold : ∃ st, neighbors.foldlM relax (tabulate n degree, queue) = .ok st ∧
      ∃ released, st = (tabulate n fun b => degree b - neighbors.count b, queue ++ released) ∧
        released.Nodup ∧ ∀ b, b ∈ released ↔ b ∈ neighbors ∧ degree b = neighbors.count b by
    obtain ⟨st, hst, released, rfl, hnodup, hmem⟩ := hfold
    exact ⟨released, hst, hnodup, hmem⟩
  refine foldlM_total (P := fun done st => ∃ released,
    st = (tabulate n fun b => degree b - done.count b, queue ++ released) ∧
      released.Nodup ∧ ∀ b, b ∈ released ↔ b ∈ done ∧ degree b = done.count b)
    (fun done b rest hl st hdone => ?_) ⟨[], by simp, List.nodup_nil, by simp⟩
  obtain ⟨released, rfl, hnodup, hmem⟩ := hdone
  have hcount : done.count b < degree b := by
    have := hdegree b
    rw [hl, List.count_append, List.count_cons_self] at this
    omega
  have hnew : b ∉ released := fun hin => absurd ((hmem b).mp hin).2 (Nat.ne_of_gt hcount)
  have hcounts : (Function.update (fun c => degree c - done.count c) b
      (degree b - done.count b - 1)) = fun c => degree c - (done ++ [b]).count c := by
    funext c
    rw [List.count_append]
    by_cases hc : c = b
    · subst hc
      rw [Function.update_self, List.count_singleton_self, Nat.sub_sub]
    · rw [Function.update_of_ne hc, List.count_singleton]
      simp [Ne.symm hc]
  have hrelax := @relax_eq n (fun c => degree c - done.count c) b (queue ++ released)
    (hrange b (by simp [hl])) (Nat.sub_pos_of_lt hcount)
  rw [hcounts, List.append_assoc] at hrelax
  refine ⟨_, hrelax, _, rfl, ?_, fun c => ?_⟩
  · split_ifs
    · exact List.nodup_append_comm.mp (List.nodup_cons.mpr ⟨hnew, hnodup⟩)
    · rwa [List.append_nil]
  · rw [List.mem_append, hmem, List.mem_append, List.count_append, List.count_singleton]
    by_cases hc : c = b
    · subst hc
      have hne : degree c ≠ done.count c := Nat.ne_of_gt hcount
      have hlast : degree c - done.count c = 1 ↔ degree c = done.count c + 1 := by omega
      rw [beq_self_eq_true, if_pos rfl, ← hlast]
      split_ifs with hone <;> simp [hne, hone]
    · have : ¬ (b == c) = true := fun h => hc (beq_iff_eq.mp h).symm
      split_ifs <;> simp [hc]

/-! ## The loop over the queue -/

/-- The number of edges to a node from nodes that are not in the order. -/
def waiting (g : LogicalGraph) (order : List NodeId) (b : NodeId) : ℕ :=
  g.edges.countP fun e => e.toNode = b ∧ e.fromNode ∉ order

theorem waiting_nil (g : LogicalGraph) : g.waiting [] = incoming g.edges := by
  funext b
  simp [waiting, incoming]

theorem waiting_eq_zero {g : LogicalGraph} {order : List NodeId} {b : NodeId} :
    g.waiting order b = 0 ↔ ∀ a, g.Edge a b → a ∈ order := by
  unfold waiting Edge
  rw [List.countP_eq_zero]
  constructor
  · rintro h a ⟨e, he, rfl, rfl⟩
    by_contra hout
    exact h e he (decide_eq_true ⟨rfl, hout⟩)
  · rintro h e he hwait
    obtain ⟨rfl, hout⟩ := of_decide_eq_true hwait
    exact hout (h e.fromNode ⟨e, he, rfl, rfl⟩)

theorem waiting_concat (g : LogicalGraph) {order : List NodeId} {node : NodeId}
    (hnode : node ∉ order) (b : NodeId) : g.waiting order b =
      g.waiting (order ++ [node]) b + (successors g.edges node).count b := by
  unfold waiting successors
  rw [List.count_eq_countP, List.countP_map, List.countP_filter]
  induction g.edges with
  | nil => rfl
  | cons e edges ih =>
    rw [List.countP_cons, List.countP_cons, List.countP_cons, ih]
    by_cases hb : e.toNode = b
    · by_cases hfrom : e.fromNode = node
      · simp [hb, hfrom, hnode, Nat.add_assoc]
      · simp [hb, hfrom, Nat.add_right_comm]
    · simp [hb]

theorem mem_successors {edges : List LogicalEdge} {a b : NodeId} :
    b ∈ successors edges a ↔ ∃ e ∈ edges, e.fromNode = a ∧ e.toNode = b := by
  simp [successors, and_assoc]

/-- The invariant of the loop: the in-degrees count the edges from nodes outside the order, and the
nodes without such an edge are in the order or in the queue, each once. -/
structure Draining (g : LogicalGraph) (inDegree : List ℕ) (queue order : List NodeId) : Prop where
  degrees : inDegree = tabulate g.nodes.length (g.waiting order)
  nodup : (order ++ queue).Nodup
  mem : ∀ b, b ∈ order ++ queue ↔ b < g.nodes.length ∧ g.waiting order b = 0
  respects : Respects g.Edge order

variable {g : LogicalGraph} {inDegree : List ℕ} {queue order : List NodeId} {node : NodeId}

theorem Draining.length_le (h : Draining g inDegree queue order) :
    order.length + queue.length ≤ g.nodes.length := by
  have hsub : order ++ queue ⊆ List.range g.nodes.length := fun b hb =>
    List.mem_range.mpr ((h.mem b).mp hb).1
  have := (h.nodup.subperm hsub).length_le
  rwa [List.length_append, List.length_range] at this

/-- **One turn of the loop.** -/
theorem Draining.step (h : Draining g inDegree (node :: queue) order) (hrange : g.InRange) :
    ∃ inDegree' queue', (successors g.edges node).foldlM relax (inDegree, queue) =
        .ok (inDegree', queue') ∧ Draining g inDegree' queue' (order ++ [node]) := by
  have hnode : node ∉ order := fun hin =>
    (List.nodup_append.mp h.nodup).2.2 node hin node List.mem_cons_self rfl
  have hready : g.waiting order node = 0 :=
    ((h.mem node).mp (List.mem_append_right _ List.mem_cons_self)).2
  have htargets : ∀ b ∈ successors g.edges node, b < g.nodes.length := by
    intro b hb
    obtain ⟨e, he, -, rfl⟩ := mem_successors.mp hb
    exact (hrange e he).2
  have hcount := waiting_concat g hnode
  have hle : ∀ b, (successors g.edges node).count b ≤ g.waiting order b := by
    intro b
    rw [hcount b]
    exact Nat.le_add_left _ _
  obtain ⟨released, hrelax, hnodup, hmem⟩ := relax_all queue htargets hle
  have hdegrees : (fun b => g.waiting order b - (successors g.edges node).count b) =
      g.waiting (order ++ [node]) := by
    funext b
    rw [hcount b, Nat.add_sub_cancel]
  have hsplit : order ++ [node] ++ (queue ++ released) = (order ++ node :: queue) ++ released := by
    simp
  refine ⟨_, _, by rw [h.degrees]; exact hrelax, ⟨by rw [hdegrees], ?_, fun b => ?_, ?_⟩⟩
  · -- a released node had an edge left before
    rw [hsplit, List.nodup_append]
    refine ⟨h.nodup, hnodup, fun a ha b hb hab => ?_⟩
    subst hab
    obtain ⟨hneighbor, hdegree⟩ := (hmem a).mp hb
    rw [((h.mem a).mp ha).2] at hdegree
    exact absurd (List.count_pos_iff.mpr hneighbor) (by omega)
  · rw [hsplit, List.mem_append, h.mem, hmem, hcount b]
    constructor
    · rintro (⟨hb, hzero⟩ | ⟨hneighbor, hlast⟩)
      · exact ⟨hb, by omega⟩
      · exact ⟨htargets b hneighbor, by omega⟩
    · rintro ⟨hb, hzero⟩
      by_cases hneighbor : b ∈ successors g.edges node
      · exact Or.inr ⟨hneighbor, by omega⟩
      · exact Or.inl ⟨hb, by rw [hzero, List.count_eq_zero_of_not_mem hneighbor]⟩
  · exact Runs.eachAfter_concat.mpr ⟨h.respects, waiting_eq_zero.mp hready⟩

/-- **The loop** ends with an empty queue. -/
theorem Draining.run (h : Draining g inDegree queue order) (hrange : g.InRange) {bound : ℕ}
    (hbound : g.nodes.length ≤ bound + order.length) :
    ∃ inDegree' order', drainQueue (tabulate g.nodes.length (successors g.edges)) bound inDegree
        queue order = .ok order' ∧ Draining g inDegree' [] order' := by
  induction bound generalizing inDegree queue order with
  | zero =>
    have hlen := h.length_le
    have hqueue : queue = [] := List.length_eq_zero_iff.mp (by omega)
    subst hqueue
    exact ⟨inDegree, order, rfl, h⟩
  | succ bound ih =>
    cases queue with
    | nil => exact ⟨inDegree, order, rfl, h⟩
    | cons node queue =>
      have hnode : node < g.nodes.length :=
        ((h.mem node).mp (List.mem_append_right _ List.mem_cons_self)).1
      obtain ⟨inDegree₁, queue₁, hrelax, h₁⟩ := h.step hrange
      obtain ⟨inDegree', order', hdrain, h'⟩ := ih h₁ (by
        rw [List.length_append, List.length_singleton]
        omega)
      refine ⟨inDegree', order', ?_, h'⟩
      unfold drainQueue
      rw [index_tabulate hnode]
      change ((successors g.edges node).foldlM relax (inDegree, queue) >>= _) = _
      rw [hrelax]
      exact hdrain

theorem draining_start (g : LogicalGraph) : Draining g
    (tabulate g.nodes.length (incoming g.edges)) ((List.range g.nodes.length).filter fun id =>
      (tabulate g.nodes.length (incoming g.edges))[id]? = some 0) [] where
  degrees := by rw [waiting_nil]
  nodup := List.nodup_range.filter _
  mem b := by
    rw [List.nil_append, List.mem_filter, List.mem_range, waiting_nil, getElem?_tabulate]
    refine and_congr_right fun hb => ?_
    simp [hb]
  respects := Runs.eachAfter_nil _

/-! ## The result -/

theorem topologicalOrder_eq (hrange : g.InRange) : ∃ inDegree order, Draining g inDegree [] order ∧
    g.topologicalOrder =
      .ok (if order.length = g.nodes.length then some order else none) := by
  have hbound : g.nodes.length ≤ g.nodes.length + g.edges.length + ([] : List NodeId).length := by
    simp
  obtain ⟨inDegree, order, hdrain, h⟩ := (draining_start g).run hrange hbound
  refine ⟨inDegree, order, h, ?_⟩
  unfold topologicalOrder topologicalOrderWithin
  rw [countEdges_eq hrange]
  change (drainQueue _ _ _ _ _ >>= _) = _
  rw [hdrain]
  rfl

theorem Draining.perm (h : Draining g inDegree [] order)
    (hlen : order.length = g.nodes.length) : order.Perm (List.range g.nodes.length) := by
  have hmem := h.mem
  have hnodup := h.nodup
  simp only [List.append_nil] at hmem hnodup
  refine (hnodup.subperm fun b hb => List.mem_range.mpr ((hmem b).mp hb).1).perm_of_length_le ?_
  rw [List.length_range, hlen]

theorem Draining.complete_iff (h : Draining g inDegree [] order) (hrange : g.InRange) :
    order.length = g.nodes.length ↔ Acyclic g.Edge := by
  constructor
  · intro hlen
    refine h.respects.acyclic fun a b hab => ?_
    obtain ⟨e, he, -, rfl⟩ := hab
    exact (h.perm hlen).mem_iff.mpr (List.mem_range.mpr (hrange e he).2)
  · intro hacyclic
    have hall : ∀ b ∈ Set.Iio g.nodes.length, b ∈ order := by
      refine hacyclic.induction (Set.finite_Iio _) fun b hb ih => ?_
      rw [← List.append_nil order, h.mem]
      refine ⟨hb, waiting_eq_zero.mpr fun a hab => ?_⟩
      obtain ⟨e, he, rfl, -⟩ := id hab
      exact ih e.fromNode (hrange e he).1 hab
    have hle : (List.range g.nodes.length).length ≤ order.length :=
      (List.nodup_range.subperm fun b hb => hall b (List.mem_range.mp hb)).length_le
    have := h.length_le
    rw [List.length_range] at hle
    exact Nat.le_antisymm (by omega) hle

/-- **Of an acyclic graph** the order has every node once, after those with an edge to it. -/
theorem topologicalOrder_acyclic (hrange : g.InRange) (hacyclic : Acyclic g.Edge) :
    ∃ order, g.topologicalOrder = .ok (some order) ∧ order.Perm (List.range g.nodes.length) ∧
      Respects g.Edge order := by
  obtain ⟨inDegree, order, h, htopo⟩ := topologicalOrder_eq hrange
  have hlen := (h.complete_iff hrange).mpr hacyclic
  exact ⟨order, by rw [htopo, if_pos hlen], h.perm hlen, h.respects⟩

/-- **Of any other graph there is no order.** -/
theorem topologicalOrder_cyclic (hrange : g.InRange) (hcycle : ¬ Acyclic g.Edge) :
    g.topologicalOrder = .ok none := by
  obtain ⟨inDegree, order, h, htopo⟩ := topologicalOrder_eq hrange
  rw [htopo, if_neg fun hlen => hcycle ((h.complete_iff hrange).mp hlen)]

/-! ## The specification of the sort -/

/-- **The sort is sound and complete**, and ends without a failure. -/
theorem topologicalOrder_spec (hrange : g.InRange) : ∃ result, g.SortsTo result ∧
    g.topologicalOrder = .ok result ∧ (result.isSome ↔ Acyclic g.Edge) ∧
      ∀ order ∈ result, order.Perm (List.range g.nodes.length) ∧
        (g.Numbered → order.Perm (g.nodes.map LogicalNode.id)) ∧
        ∀ e ∈ g.edges, order.idxOf e.fromNode < order.idxOf e.toNode := by
  by_cases hacyclic : Acyclic g.Edge
  · obtain ⟨order, htopo, hperm, hrespects⟩ := topologicalOrder_acyclic hrange hacyclic
    refine ⟨some order, topologicalOrder_eq_ok.mp htopo, htopo, by simp [hacyclic], ?_⟩
    rintro order' ⟨⟩
    refine ⟨hperm, fun hids => hids ▸ hperm, fun e he => ?_⟩
    have hmem : e.toNode ∈ order := hperm.mem_iff.mpr (List.mem_range.mpr (hrange e he).2)
    exact hrespects.idxOf_lt hmem ⟨e, he, rfl, rfl⟩
  · have htopo := topologicalOrder_cyclic hrange hacyclic
    refine ⟨none, topologicalOrder_eq_ok.mp htopo, htopo, by simp [hacyclic], ?_⟩
    rintro order ⟨⟩

/-- Two nodes and two edges from the one to the other. -/
def parallelEdges : LogicalGraph where
  nodes := [⟨0, "source", .source, 1⟩, ⟨1, "sink", .sink, 1⟩]
  edges := [⟨0, 1, .forward⟩, ⟨0, 1, .hash⟩]

/-- Two edges between the same nodes are no cycle. -/
theorem parallelEdges_spec : parallelEdges.InRange ∧ ∃ result, parallelEdges.SortsTo result ∧
    (result.isSome ↔ Acyclic parallelEdges.Edge) ∧ ∀ order ∈ result, order.Perm [0, 1] := by
  have hrange : parallelEdges.InRange := by decide
  obtain ⟨result, hsorts, -, hacyclic, horder⟩ := topologicalOrder_spec hrange
  exact ⟨hrange, result, hsorts, hacyclic, fun order ho => (horder order ho).1⟩

end LogicalGraph
end Flume
