import Flume.Runtime.ScheduleOutcome

/-!
# When the scheduler panics

The two sums that `schedule` compares are sums of machine integers, and a node may have no subtask
at all. Allocations are taken to succeed: a range of so many free slots, or so many subtasks, that
their vector is larger than `isize::MAX` bytes makes `Vec` panic in any build.

* `Returned`: the call has returned `Ok` or `Err`;
* `Schedulable`: the sums fit in a build that checks it, and no edge starves;
* **`schedule_returns_iff`**: when it returns `Ok` or `Err`.
-/

namespace Flume

open ScheduleFailure LogicalGraph Relation

/-- The call has returned: `Ok`, or `Err` with a message. -/
def Returned {α : Type} (result : Except ScheduleFailure α) : Prop :=
  (∃ a, result = .ok a) ∨ ∃ msg, result = .error (.error msg)

/-- The condition on a graph and on the offers. -/
structure Schedulable (overflowChecks : Bool) (g : LogicalGraph) (slots : List SlotOffer) :
    Prop where
  /-- The sums do not overflow in a build that checks it. -/
  fits : SumsFit overflowChecks g slots
  /-- No forward edge starves, if the slots suffice and the sums say so. -/
  fed : g.subtaskCount % 2 ^ 64 ≤ freeCount slots % 2 ^ 64 → g.subtaskCount ≤ freeCount slots →
    ¬Starves g

variable {g : LogicalGraph} {slots : List SlotOffer} {overflowChecks : Bool}

theorem Outcome.returned_iff {result : Except ScheduleFailure PhysicalGraph}
    (h : Outcome overflowChecks g slots result) :
    (Returned result ↔ Schedulable overflowChecks g slots) ∧ result ≠ .error indexOutOfRange := by
  have hpanic : ∀ e, e = addOverflow ∨ e = remainderByZero →
      ¬Returned (Except.error e : Except ScheduleFailure PhysicalGraph) := by
    rintro e he (⟨physical, hok⟩ | ⟨msg, herror⟩)
    · cases hok
    · obtain rfl := Except.error.inj herror
      rcases he with he | he <;> cases he
  cases h with
  | overflows hover =>
    exact ⟨iff_of_false (hpanic _ (.inl rfl)) fun h => hover h.fits, by rintro ⟨⟩⟩
  | refuses hfits hless =>
    exact ⟨iff_of_true (.inr ⟨_, rfl⟩) ⟨hfits, fun hle => absurd hless (Nat.not_lt_of_le hle)⟩,
      by rintro ⟨⟩⟩
  | runsOut hfits _ hshort =>
    exact ⟨iff_of_true (.inr ⟨_, rfl⟩) ⟨hfits, fun _ hle => absurd hshort (Nat.not_lt_of_le hle)⟩,
      by rintro ⟨⟩⟩
  | starves _ hle hroom hstarves =>
    exact ⟨iff_of_false (hpanic _ (.inr rfl)) fun h => h.fed hle hroom hstarves, by rintro ⟨⟩⟩
  | places hfits _ _ hfed physical =>
    exact ⟨iff_of_true (.inl ⟨physical, rfl⟩) ⟨hfits, fun _ _ => hfed⟩, by rintro ⟨⟩⟩

/-- **When `schedule` returns** `Ok` or `Err`: if the graph has a cycle or is schedulable. No index
is ever out of range. -/
theorem schedule_returns_iff (hg : Assembled g)
    (hused : ∀ o ∈ slots, o.usedSlots ≤ o.totalSlots) (overflowChecks : Bool)
    (strategy : SchedulingStrategy) :
    (Returned (schedule overflowChecks g slots strategy) ↔
      (Acyclic g.Edge → Schedulable overflowChecks g slots)) ∧
    schedule overflowChecks g slots strategy ≠ .error indexOutOfRange := by
  by_cases hacyclic : Acyclic g.Edge
  · obtain ⟨hreturned, hindex⟩ :=
      (schedule_outcome overflowChecks strategy hg.inRange hacyclic hused).returned_iff
    exact ⟨hreturned.trans ⟨fun h _ => h, fun h => h hacyclic⟩, hindex⟩
  · rw [schedule_cyclic hg.inRange hacyclic]
    exact ⟨iff_of_true (.inr ⟨_, rfl⟩) fun h => absurd h hacyclic, by rintro ⟨⟩⟩

/-- A source with one subtask in front of a sink with `parallelism`. -/
def sourceAndSink (parallelism : ℕ) : LogicalGraph :=
  (((LogicalGraph.new.addNode "source" .source 1).2.addNode "sink" .sink parallelism).2).addEdge
    0 1 .forward

theorem assembled_sourceAndSink (parallelism : ℕ) : Assembled (sourceAndSink parallelism) :=
  ((Assembled.new.addNode "source" .source 1).addNode "sink" .sink parallelism).addEdge .forward
    (by change 0 < 2; decide) (by change 1 < 2; decide)

/-- One TaskManager with two slots. -/
def twoSlots : List SlotOffer := [⟨"tm", 2, 0⟩]

theorem sourceAndSink_returned :
    (Assembled (sourceAndSink 1) ∧ ∀ o ∈ twoSlots, o.usedSlots ≤ o.totalSlots) ∧
    Returned (schedule true (sourceAndSink 1) twoSlots .spread) := by
  have hused : ∀ o ∈ twoSlots, o.usedSlots ≤ o.totalSlots := by decide
  refine ⟨⟨assembled_sourceAndSink 1, hused⟩, ?_⟩
  refine (schedule_returns_iff (assembled_sourceAndSink 1) hused true .spread).1.mpr fun _ => ?_
  refine ⟨fun _ => by decide, fun _ _ hstarves => ?_⟩
  obtain ⟨e, he, -, -, node, hnode, hzero⟩ := hstarves
  obtain rfl := List.mem_singleton.mp he
  obtain rfl := Option.some.inj hnode
  exact absurd hzero (by decide)

/-- A sink without subtasks: the remainder by their number is evaluated. -/
theorem sourceAndSink_panics :
    Assembled (sourceAndSink 0) ∧ (∀ o ∈ twoSlots, o.usedSlots ≤ o.totalSlots) ∧
    ∀ overflowChecks strategy,
      schedule overflowChecks (sourceAndSink 0) twoSlots strategy = .error remainderByZero := by
  refine ⟨assembled_sourceAndSink 0, by decide, fun overflowChecks strategy => ?_⟩
  cases overflowChecks <;> cases strategy <;> rfl

end Flume
