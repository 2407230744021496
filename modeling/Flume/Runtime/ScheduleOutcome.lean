import Flume.Runtime.Placement

/-!
# How `schedule` ends

On an acyclic graph the call ends in one of five ways, which the two sums, as they are compared, and
the edges to nodes without subtasks decide.

* `assignNodes_short`: without enough slots the assignment ends in an error;
* `Starves`: a forward edge leads from a node with subtasks to a node without;
* `Outcome`, **`schedule_outcome`**: the five ways;
* `ComparesExactly`: the comparison of the sums gives what exact sums would;
* **`schedule_valid_iff`**: when `schedule` gives a valid placement and fails only if it must.
-/

namespace Flume

open ScheduleFailure LogicalGraph Relation
open Fallible (foldlM_cases)

variable {g : LogicalGraph} {slots : List SlotOffer} {overflowChecks : Bool}

/-! ## The assignment -/

theorem assignSubtask_cases (nodeId : NodeId) (node : LogicalNode)
    (st : List SubtaskAssignment × List (String × ℕ)) (subtaskIndex : ℕ) :
    (∃ st', assignSubtask nodeId node st subtaskIndex = .ok st' ∧
        st'.2.length + 1 = st.2.length) ∨
      assignSubtask nodeId node st subtaskIndex =
        .error (.error "ran out of slots during assignment") := by
  unfold assignSubtask
  cases hlast : st.2.getLast? with
  | none => exact .inr rfl
  | some slot =>
    obtain ⟨rest, hrest⟩ := List.getLast?_eq_some_iff.mp hlast
    refine .inl ⟨_, rfl, ?_⟩
    rw [hrest, List.dropLast_concat, List.length_append, List.length_singleton]

/-- The error of an assignment that has come to the end of the queue. -/
def RanOut (e : ScheduleFailure) : Prop := e = .error "ran out of slots during assignment"

theorem assignNode_cases {id : NodeId} (hid : id < g.nodes.length)
    (st : List SubtaskAssignment × List (String × ℕ)) :
    (∃ st', assignNode g st id = .ok st' ∧
        st'.2.length + (g.subtasksAt id).length = st.2.length) ∨
      ∃ e, assignNode g st id = .error e ∧ RanOut e := by
  have hnode := List.getElem?_eq_getElem hid
  have hat : (g.subtasksAt id).length = (List.range g.nodes[id].parallelism).length := by
    unfold subtasksAt
    rw [hnode]
    exact List.length_map _
  unfold assignNode
  rw [index_eq_ok.mpr hnode, hat]
  -- each subtask takes one slot off the queue
  refine foldlM_cases (S := List SubtaskAssignment × List (String × ℕ))
    (P := fun done t => t.2.length + done.length = st.2.length) RanOut
    (fun done i _ _ t ht => ?_) rfl
  rcases assignSubtask_cases id g.nodes[id] t i with ⟨t', ht', hlen⟩ | herror
  · refine .inl ⟨t', ht', ?_⟩
    rw [List.length_append, List.length_singleton]
    omega
  · exact .inr ⟨_, herror, rfl⟩

/-- **Without enough slots** the assignment ends in an error. -/
theorem assignNodes_short {topo : List NodeId} {queue : List (String × ℕ)}
    (htopo : ∀ id ∈ topo, id < g.nodes.length)
    (hshort : queue.length < (topo.flatMap g.subtasksAt).length) :
    topo.foldlM (assignNode g) ([], queue) =
      .error (.error "ran out of slots during assignment") := by
  have hcases : (∃ st, topo.foldlM (assignNode g) ([], queue) = .ok st ∧
        st.2.length + (topo.flatMap g.subtasksAt).length = queue.length) ∨
      ∃ e, topo.foldlM (assignNode g) ([], queue) = .error e ∧ RanOut e := by
    refine foldlM_cases (S := List SubtaskAssignment × List (String × ℕ))
      (P := fun done st => st.2.length + (done.flatMap g.subtasksAt).length = queue.length) RanOut
      (fun done id rest hl st hst => ?_) rfl
    rw [List.flatMap_append, List.flatMap_singleton, List.length_append]
    refine (assignNode_cases (htopo id (by simp [hl])) st).imp_left ?_
    rintro ⟨st', hst', hlen⟩
    exact ⟨st', hst', by omega⟩
  rcases hcases with ⟨st, -, hlen⟩ | ⟨e, he, rfl⟩
  · omega
  · exact he

/-! ## The physical edges -/

/-- A forward edge leads from a node with subtasks to a node without. -/
def Starves (g : LogicalGraph) : Prop :=
  ∃ e ∈ g.edges, e.partitionStrategy = .forward ∧
    (∃ node, g.nodes[e.fromNode]? = some node ∧ node.parallelism ≠ 0) ∧
    ∃ node, g.nodes[e.toNode]? = some node ∧ node.parallelism = 0

theorem LogicalGraph.Built.not_starves (h : Built g) : ¬ Starves g := by
  rintro ⟨e, -, -, -, node, hnode, hzero⟩
  have hpos := h.parallelism_pos node (List.mem_of_getElem? hnode)
  omega

theorem starvedEdge_iff {topo : List NodeId} {assignments : List SubtaskAssignment}
    (hrange : g.InRange) (hperm : topo.Perm (List.range g.nodes.length))
    (hids : assignments.map SubtaskAssignment.subtaskId = topo.flatMap g.subtasksAt) :
    (∃ e ∈ g.edges, StarvedEdge assignments e) ↔ Starves g := by
  refine exists_congr fun e => and_congr_right fun he => and_congr_right fun _ => ?_
  have hat : ∀ id < g.nodes.length, ∃ node, g.nodes[id]? = some node ∧
      (subtasksOf assignments id = [] ↔ node.parallelism = 0) := by
    intro id hid
    have hnode := List.getElem?_eq_getElem hid
    have hmem : id ∈ topo := hperm.mem_iff.mpr (List.mem_range.mpr hid)
    exact ⟨g.nodes[id], hnode, subtasksOf_eq_nil_iff hids hmem hnode⟩
  obtain ⟨hfrom, hto⟩ := hrange e he
  obtain ⟨source, hsource, hsourceNil⟩ := hat e.fromNode hfrom
  obtain ⟨target, htarget, htargetNil⟩ := hat e.toNode hto
  rw [hsource, htarget]
  simp only [Option.some.injEq, exists_eq_left']
  exact and_congr (not_congr hsourceNil) htargetNil

/-! ## The five ways -/

/-- The sums do not overflow in a build that checks it. -/
def SumsFit (overflowChecks : Bool) (g : LogicalGraph) (slots : List SlotOffer) : Prop :=
  overflowChecks = true → g.subtaskCount < 2 ^ 64 ∧ freeCount slots < 2 ^ 64

/-- How the call ends on an acyclic graph. -/
inductive Outcome (overflowChecks : Bool) (g : LogicalGraph) (slots : List SlotOffer) :
    Except ScheduleFailure PhysicalGraph → Prop
  | overflows (hover : ¬ SumsFit overflowChecks g slots) :
      Outcome overflowChecks g slots (.error addOverflow)
  | refuses (hfits : SumsFit overflowChecks g slots)
      (hless : freeCount slots % 2 ^ 64 < g.subtaskCount % 2 ^ 64) :
      Outcome overflowChecks g slots (.error (.error ("not enough slots: need " ++
        toString (g.subtaskCount % 2 ^ 64) ++ ", have " ++ toString (freeCount slots % 2 ^ 64))))
  | runsOut (hfits : SumsFit overflowChecks g slots)
      (hle : g.subtaskCount % 2 ^ 64 ≤ freeCount slots % 2 ^ 64)
      (hshort : freeCount slots < g.subtaskCount) :
      Outcome overflowChecks g slots (.error (.error "ran out of slots during assignment"))
  | starves (hfits : SumsFit overflowChecks g slots)
      (hle : g.subtaskCount % 2 ^ 64 ≤ freeCount slots % 2 ^ 64)
      (hroom : g.subtaskCount ≤ freeCount slots) (hstarves : Starves g) :
      Outcome overflowChecks g slots (.error remainderByZero)
  | places (hfits : SumsFit overflowChecks g slots)
      (hle : g.subtaskCount % 2 ^ 64 ≤ freeCount slots % 2 ^ 64)
      (hroom : g.subtaskCount ≤ freeCount slots) (hfed : ¬ Starves g) (physical : PhysicalGraph) :
      Outcome overflowChecks g slots (.ok physical)

/-- **How the call ends on an acyclic graph.** -/
theorem schedule_outcome (overflowChecks : Bool) (strategy : SchedulingStrategy)
    (hrange : g.InRange) (hacyclic : Acyclic g.Edge)
    (hused : ∀ o ∈ slots, o.usedSlots ≤ o.totalSlots) :
    Outcome overflowChecks g slots (schedule overflowChecks g slots strategy) := by
  obtain ⟨topo, htopo, hperm, -⟩ := topologicalOrder_acyclic hrange hacyclic
  have hqueue : (buildSlotQueue slots strategy).length = freeCount slots :=
    (perm_buildSlotQueue slots strategy).length_eq.trans (length_freeSlots slots)
  have hids : ∀ id ∈ topo, id < g.nodes.length := fun id hid =>
    List.mem_range.mp (hperm.mem_iff.mp hid)
  have hcount : (topo.flatMap g.subtasksAt).length = g.subtaskCount := length_subtasks hperm
  rw [schedule_sorted overflowChecks strategy htopo hused]
  by_cases hover : overflowChecks = true ∧ (2 ^ 64 ≤ g.subtaskCount ∨ 2 ^ 64 ≤ freeCount slots)
  · rw [if_pos hover]
    refine .overflows fun hfits => ?_
    obtain ⟨hsubtasks, hfree⟩ := hfits hover.1
    exact hover.2.elim (Nat.not_le_of_lt hsubtasks) (Nat.not_le_of_lt hfree)
  rw [if_neg hover]
  have hfits : SumsFit overflowChecks g slots := fun h =>
    ⟨Nat.not_le.mp fun h' => hover ⟨h, .inl h'⟩, Nat.not_le.mp fun h' => hover ⟨h, .inr h'⟩⟩
  by_cases hless : freeCount slots % 2 ^ 64 < g.subtaskCount % 2 ^ 64
  · rw [if_pos hless]
    exact .refuses hfits hless
  rw [if_neg hless]
  by_cases hshort : freeCount slots < g.subtaskCount
  · rw [assignNodes_short hids (by rw [hqueue, hcount]; exact hshort)]
    exact .runsOut hfits (Nat.not_lt.mp hless) hshort
  have hroom := Nat.not_lt.mp hshort
  have hlong : (topo.flatMap g.subtasksAt).length ≤ (buildSlotQueue slots strategy).length := by
    rw [hqueue, hcount]
    exact hroom
  obtain ⟨⟨assignments, rest⟩, hassign, hassigned⟩ := assignNodes_ok hids hlong
  rw [hassign]
  have hstarves := starvedEdge_iff hrange hperm hassigned
  change Outcome overflowChecks g slots (generateEdges g assignments >>= _)
  rcases generateEdges_cases assignments hrange with ⟨hstarved, herror⟩ | ⟨hfed, edges, hedges⟩
  · rw [herror]
    exact .starves hfits (Nat.not_lt.mp hless) hroom (hstarves.mp hstarved)
  · rw [hedges]
    exact .places hfits (Nat.not_lt.mp hless) hroom (mt hstarves.mpr hfed) ⟨assignments, edges⟩

/-! ## Valid placements, and no failure without need -/

/-- `schedule` gives a valid placement exactly if the graph is acyclic and has no more subtasks than
slots are available; else it returns an error, and not the one of a queue that has come to its
end. -/
structure PlacesValidly (overflowChecks : Bool) (g : LogicalGraph) (slots : List SlotOffer)
    (strategy : SchedulingStrategy) : Prop where
  ok_iff : (∃ physical, schedule overflowChecks g slots strategy = .ok physical) ↔
    Acyclic g.Edge ∧ g.subtaskCount ≤ freeCount slots
  error : ∀ failure, schedule overflowChecks g slots strategy = .error failure →
    ∃ msg, failure = .error msg ∧ msg ≠ "ran out of slots during assignment"
  valid : ∀ physical, schedule overflowChecks g slots strategy = .ok physical →
    ValidPlacement g slots physical.assignments

/-- The sums do not overflow in a build that checks it, and in one that does not, they compare as
exact sums do. -/
def ComparesExactly (overflowChecks : Bool) (g : LogicalGraph) (slots : List SlotOffer) : Prop :=
  SumsFit overflowChecks g slots ∧
    (freeCount slots % 2 ^ 64 < g.subtaskCount % 2 ^ 64 ↔ freeCount slots < g.subtaskCount)

instance (overflowChecks : Bool) (g : LogicalGraph) (slots : List SlotOffer) :
    Decidable (ComparesExactly overflowChecks g slots) := by
  unfold ComparesExactly SumsFit; infer_instance

theorem refusal_ne (need free : ℕ) : "not enough slots: need " ++ toString need ++ ", have " ++
    toString free ≠ "ran out of slots during assignment" := by
  intro hmsg
  have hhead := congrArg (fun s => s.toList.head?) hmsg
  simp at hhead

section Validity

variable {strategy : SchedulingStrategy}

theorem PlacesValidly.comparesExactly (h : PlacesValidly overflowChecks g slots strategy)
    (hg : Built g) (hacyclic : Acyclic g.Edge) (hused : ∀ o ∈ slots, o.usedSlots ≤ o.totalSlots) :
    ComparesExactly overflowChecks g slots := by
  obtain ⟨hok, herror, -⟩ := h
  have houtcome := schedule_outcome overflowChecks strategy hg.inRange hacyclic hused
  generalize schedule overflowChecks g slots strategy = result at houtcome hok herror
  cases houtcome with
  | overflows =>
    obtain ⟨msg, hmsg, -⟩ := herror _ rfl
    cases hmsg
  | refuses hfits hless =>
    refine ⟨hfits, iff_of_true hless (Nat.not_le.mp fun hroom => ?_)⟩
    obtain ⟨physical, hphysical⟩ := hok.mpr ⟨hacyclic, hroom⟩
    cases hphysical
  | runsOut =>
    obtain ⟨msg, hmsg, hne⟩ := herror _ rfl
    cases hmsg
    exact absurd rfl hne
  | starves _ _ _ hstarves => exact absurd hstarves hg.not_starves
  | places hfits hle hroom =>
    exact ⟨hfits, iff_of_false (Nat.not_lt_of_le hle) (Nat.not_lt_of_le hroom)⟩

theorem ComparesExactly.placesValidly (h : ComparesExactly overflowChecks g slots) (hg : Built g)
    (hids : (slots.map SlotOffer.taskManagerId).Nodup) (hacyclic : Acyclic g.Edge)
    (hused : ∀ o ∈ slots, o.usedSlots ≤ o.totalSlots) :
    PlacesValidly overflowChecks g slots strategy := by
  obtain ⟨hfits, hcompare⟩ := h
  have hvalid : ∀ physical, schedule overflowChecks g slots strategy = .ok physical →
      ValidPlacement g slots physical.assignments := fun _ => schedule_placement hids
  suffices hrest : ((∃ physical, schedule overflowChecks g slots strategy = .ok physical) ↔
        Acyclic g.Edge ∧ g.subtaskCount ≤ freeCount slots) ∧
      ∀ failure, schedule overflowChecks g slots strategy = .error failure →
        ∃ msg, failure = .error msg ∧ msg ≠ "ran out of slots during assignment" from
    ⟨hrest.1, hrest.2, hvalid⟩
  clear hvalid
  have houtcome := schedule_outcome overflowChecks strategy hg.inRange hacyclic hused
  generalize schedule overflowChecks g slots strategy = result at houtcome
  cases houtcome with
  | overflows hover => exact absurd hfits hover
  | refuses _ hless =>
    refine ⟨iff_of_false (by rintro ⟨_, ⟨⟩⟩) fun hroom => ?_, fun failure hfailure => ?_⟩
    · exact Nat.not_lt_of_le hroom.2 (hcompare.mp hless)
    · cases hfailure
      exact ⟨_, rfl, refusal_ne _ _⟩
  | runsOut _ hle hshort => exact absurd (hcompare.mpr hshort) (Nat.not_lt_of_le hle)
  | starves _ _ _ hstarves => exact absurd hstarves hg.not_starves
  | places _ _ hroom _ physical =>
    exact ⟨iff_of_true ⟨physical, rfl⟩ ⟨hacyclic, hroom⟩, by rintro failure ⟨⟩⟩

/-- A graph with a cycle is refused in every build. -/
theorem placesValidly_cyclic (hg : Built g) (hcycle : ¬ Acyclic g.Edge) :
    PlacesValidly overflowChecks g slots strategy := by
  have herror : schedule overflowChecks g slots strategy =
      .error (.error "logical graph contains a cycle") := schedule_cyclic hg.inRange hcycle
  refine ⟨?_, ?_, ?_⟩ <;> rw [herror]
  · exact iff_of_false (by rintro ⟨_, ⟨⟩⟩) fun h => hcycle h.1
  · rintro failure ⟨⟩
    exact ⟨_, rfl, by decide⟩
  · rintro physical ⟨⟩

end Validity

/-- **When `schedule` gives a valid placement and fails only if it must**: on every graph with a
cycle, and on the others if the sums compare exactly. -/
theorem schedule_valid_iff (hg : Built g) (hids : (slots.map SlotOffer.taskManagerId).Nodup)
    (hused : ∀ o ∈ slots, o.usedSlots ≤ o.totalSlots) (overflowChecks : Bool)
    (strategy : SchedulingStrategy) : PlacesValidly overflowChecks g slots strategy ↔
      (Acyclic g.Edge → ComparesExactly overflowChecks g slots) := by
  by_cases hacyclic : Acyclic g.Edge
  · exact ⟨fun h _ => h.comparesExactly hg hacyclic hused,
      fun h => (h hacyclic).placesValidly hg hids hacyclic hused⟩
  · exact iff_of_true (placesValidly_cyclic hg hacyclic) fun h => absurd h hacyclic

theorem linearGraph_valid : PlacesValidly true linearGraph twoTmSlots .spread :=
  (schedule_valid_iff built_linearGraph distinct_twoTmSlots (by decide) true .spread).mpr
    fun _ => by decide

/-- Two nodes whose parallelisms add up to 2^64. -/
def halvesGraph : LogicalGraph :=
  ((LogicalGraph.new.addNode "source" .source (2 ^ 63)).2.addNode "sink" .sink (2 ^ 63)).2

/-- The sum wraps to 0, and the assignment comes to the end of the only slot; with overflow checks
the call panics. -/
theorem halvesGraph_not_valid : Built halvesGraph ∧
    schedule false halvesGraph [⟨"tm", 1, 0⟩] .spread =
      .error (.error "ran out of slots during assignment") ∧
    schedule true halvesGraph [⟨"tm", 1, 0⟩] .spread = .error addOverflow ∧
    ∀ overflowChecks, ¬ PlacesValidly overflowChecks halvesGraph [⟨"tm", 1, 0⟩] .spread := by
  have hbuilt : Built halvesGraph :=
    (Built.new.addNode "source" .source (by norm_num)).addNode "sink" .sink (by norm_num)
  have hacyclic : Acyclic halvesGraph.Edge := by
    intro id hcycle
    obtain ⟨_, ⟨e, he, -⟩, -⟩ := Relation.TransGen.head'_iff.mp hcycle
    exact absurd he List.not_mem_nil
  have hcount : halvesGraph.subtaskCount = 2 ^ 64 := rfl
  have hfree : freeCount [⟨"tm", 1, 0⟩] = 1 := rfl
  have houtcome : ∀ overflowChecks, Outcome overflowChecks halvesGraph [⟨"tm", 1, 0⟩]
      (schedule overflowChecks halvesGraph [⟨"tm", 1, 0⟩] .spread) := fun overflowChecks =>
    schedule_outcome overflowChecks .spread hbuilt.inRange hacyclic (by decide)
  have hwraps : schedule false halvesGraph [⟨"tm", 1, 0⟩] .spread =
      .error (.error "ran out of slots during assignment") := by
    have h := houtcome false
    generalize schedule false halvesGraph [⟨"tm", 1, 0⟩] .spread = result at h ⊢
    cases h with
    | overflows hover => exact absurd (fun h => by cases h) hover
    | refuses _ hless => rw [hcount, hfree] at hless; omega
    | runsOut => rfl
    | starves _ _ hroom => rw [hcount, hfree] at hroom; omega
    | places _ _ hroom => rw [hcount, hfree] at hroom; omega
  have hpanics : schedule true halvesGraph [⟨"tm", 1, 0⟩] .spread = .error addOverflow := by
    have h := houtcome true
    have hover : ¬ SumsFit true halvesGraph [⟨"tm", 1, 0⟩] := fun hfits => by
      have hlt := (hfits rfl).1
      rw [hcount] at hlt
      exact Nat.lt_irrefl _ hlt
    generalize schedule true halvesGraph [⟨"tm", 1, 0⟩] .spread = result at h ⊢
    cases h with
    | overflows => rfl
    | refuses hfits => exact absurd hfits hover
    | runsOut hfits => exact absurd hfits hover
    | starves hfits => exact absurd hfits hover
    | places hfits => exact absurd hfits hover
  refine ⟨hbuilt, hwraps, hpanics, fun overflowChecks h => ?_⟩
  cases overflowChecks with
  | false =>
    obtain ⟨msg, hmsg, hne⟩ := h.error _ hwraps
    cases hmsg
    exact absurd rfl hne
  | true =>
    obtain ⟨msg, hmsg, -⟩ := h.error _ hpanics
    cases hmsg

end Flume
