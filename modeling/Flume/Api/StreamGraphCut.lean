import Flume.Api.BarrierForwarding
import Flume.Api.ConnectedJoins
import Flume.Api.SinkFlush

/-!
# Barriers cut a whole graph consistently

Every source of a graph is cut at its `n`-th barrier. The tasks know nothing of this cut: operators
pass barriers on, mergers align them, and all of them work on elements from both sides of it at the
same time. But when the sink flushes at its `n`-th barrier, what it has received is an output of the
graph that ends at the cut.

* `StreamGraph.cut`: the graph whose sources end with their `n`-th barriers;
* `barriers_keyed`, `keyed_upTo`: the feeding tasks;
* **`StreamGraph.Outputs.cut`**: an output up to its `n`-th barrier is one of the cut graph;
* **`graph_cut`**: what is durable after the `n`-th flush.
-/

namespace Flume

open Channels Segments
open StreamElement (barrier?)

/-! ## The cut -/

/-- The source up to its `n`-th barrier. -/
def Source.upTo {T : Type} (n : ℕ) (src : Source T) : Source T :=
  { src with elements := Segments.upTo barrier? n src.elements }

/-- The source sends at least `n` barriers. -/
def Source.HasBarriers {T : Type} (n : ℕ) (src : Source T) : Prop :=
  n ≤ (marks barrier? src.elements).length

namespace StreamGraph

/-- The graph whose sources end with their `n`-th barriers. -/
def cut (n : ℕ) {T : Type} : StreamGraph T → StreamGraph T
  | source src => source (src.upTo n)
  | apply name upstream op => apply name (upstream.cut n) op
  | connect name upstream source2 keyFn1 keyFn2 op =>
    connect name (upstream.cut n) (source2.upTo n) keyFn1 keyFn2 op

/-- Every source sends at least `n` barriers. -/
def HasBarriers (n : ℕ) {T : Type} : StreamGraph T → Prop
  | source src => src.HasBarriers n
  | apply _ upstream _ => upstream.HasBarriers n
  | connect _ upstream source2 _ _ _ => upstream.HasBarriers n ∧ source2.HasBarriers n

/-- All operators forward barriers. -/
def ForwardsBarriers {T : Type} : StreamGraph T → Prop
  | source _ => True
  | apply _ upstream op => upstream.ForwardsBarriers ∧ op.ForwardsBarriers
  | connect _ upstream _ _ _ op => upstream.ForwardsBarriers ∧ op.ForwardsBarriers

end StreamGraph

/-! ## The feeding tasks -/

section Keyed

variable {T : Type}

@[simp] theorem barrier?_applyKeyFn (keyFn : Option (KeyExtractor T)) (e : StreamElement T) :
    (applyKeyFn keyFn e).1.barrier? = e.barrier? := by
  cases keyFn <;> cases e <;> rfl

theorem barriers_keyed (keyFn : Option (KeyExtractor T)) (es : List (StreamElement T)) :
    marks barrier? (keyed keyFn es).1 = marks barrier? es := by
  induction es generalizing keyFn with
  | nil => rfl
  | cons e es ih =>
    rw [keyed]
    cases he : e.barrier? with
    | none => rw [marks_cons_none he, marks_cons_none ((barrier?_applyKeyFn _ e).trans he), ih]
    | some b => rw [marks_cons_some he, marks_cons_some ((barrier?_applyKeyFn _ e).trans he), ih]

theorem keyed_upTo (keyFn : Option (KeyExtractor T)) (n : ℕ) (es : List (StreamElement T)) :
    (keyed keyFn (upTo barrier? n es)).1 = upTo barrier? n (keyed keyFn es).1 := by
  induction es generalizing keyFn n with
  | nil =>
    rw [upTo_nil]
    exact (upTo_nil n).symm
  | cons e es ih =>
    cases n with
    | zero =>
      rw [upTo_zero, upTo_zero]
      rfl
    | succ n =>
      rw [upTo, keyed, keyed, upTo, barrier?_applyKeyFn]
      exact congrArg (List.cons _) (ih _ _)

end Keyed

/-! ## Outputs -/

namespace StreamGraph

variable {T : Type} {graph : StreamGraph T} {out : List (StreamElement T)} {n : ℕ}

theorem Outputs.barriers (h : graph.Outputs out) (hforwards : graph.ForwardsBarriers)
    (hbarriers : graph.HasBarriers n) : n ≤ (marks barrier? out).length := by
  induction graph with
  | source src =>
    cases h
    exact hbarriers
  | apply name upstream op ih =>
    obtain ⟨input, s, hinput, hfeed⟩ := h
    have hmarks := hforwards.2.marks_feed hfeed
    rw [hmarks]
    exact ih hinput hforwards.1 hbarriers
  | connect name upstream source2 keyFn1 keyFn2 op ih =>
    obtain ⟨input, merged, s, hinput, hmerges, hfeed⟩ := h
    have hmarks := hforwards.2.marks_feed hfeed
    rw [hmarks, hmerges.barriers, barriers_keyed]
    exact (ih hinput hforwards.1 hbarriers.1).trans (le_max_left _ _)

/-- **An output up to its `n`-th barrier is an output of the cut graph.** -/
theorem Outputs.cut (h : graph.Outputs out) (hforwards : graph.ForwardsBarriers)
    (hbarriers : graph.HasBarriers n) : (graph.cut n).Outputs (upTo barrier? n out) := by
  induction graph with
  | source src =>
    cases h
    rfl
  | apply name upstream op ih =>
    obtain ⟨input, s, hinput, hfeed⟩ := h
    obtain ⟨t, hcut⟩ := hforwards.2.feed_upTo hfeed n
    exact ⟨_, t, ih hinput hforwards.1 hbarriers, hcut⟩
  | connect name upstream source2 keyFn1 keyFn2 op ih =>
    obtain ⟨input, merged, s, hinput, hmerges, hfeed⟩ := h
    obtain ⟨t, hcut⟩ := hforwards.2.feed_upTo hfeed n
    have hmerged := hmerges.upTo (n := n)
      (by rw [barriers_keyed]; exact hinput.barriers hforwards.1 hbarriers.1)
      (by rw [barriers_keyed]; exact hbarriers.2)
    rw [← keyed_upTo, ← keyed_upTo] at hmerged
    exact ⟨_, _, t, ih hinput hforwards.1 hbarriers.1, hmerged, hcut⟩

end StreamGraph

/-! ## The sink -/

theorem afterLastBarrier_upTo {T : Type} {es : List (StreamElement T)} {n : ℕ}
    (hn : n ≤ (marks barrier? es).length) : afterLastBarrier (upTo barrier? n es) = [] := by
  cases n with
  | zero =>
    rw [upTo_zero]
    rfl
  | succ n =>
    obtain ⟨pre, x, b, hpre, hx⟩ := upTo_eq_concat hn
    obtain rfl := StreamElement.barrier?_eq_some.mp hx
    rw [hpre]
    exact afterLastBarrier_concat_barrier pre b

namespace GraphRun

variable {T : Type} {sink : Sink T}

theorem taken_step (cfg : PipelineConfig) (s : GraphRun T sink.State) (e : GraphEvent) :
    (s.step cfg sink e).taken = s.taken ∨ ∃ x, (s.step cfg sink e).taken = s.taken ++ [x] := by
  cases e with
  | cancel => exact .inl rfl
  | task n arm preferred =>
    exact .inl (RunningGraph.receiver_step cfg s.token arm preferred s.graph n).1
  | sink =>
    have hcases := SinkTask.step_cases s.graph.handles s.sinkTask s.graph.wire
    unfold step taken
    dsimp only
    rw [RunningGraph.wire_setWire]
    generalize s.sinkTask.step sink s.graph.handles s.graph.wire = stepped at hcases
    cases hcases with
    | idle => exact .inl rfl
    | absorb x channel sinkState hphase hrecv hcall =>
      exact .inr ⟨x, (Channel.tryRecv_item hrecv).2.1⟩
    | fail x channel f hphase hrecv hcall => exact .inr ⟨x, (Channel.tryRecv_item hrecv).2.1⟩
    | drained hphase hrecv => exact .inl rfl
    | joined r hphase hwait => exact .inl rfl

theorem notFailed_of_returnsOk {cfg : PipelineConfig} {graph : StreamGraph T}
    {pre post : List GraphEvent} (hok : (run cfg graph sink (pre ++ post)).ReturnsOk)
    (f : TaskFailure) : (run cfg graph sink pre).sinkTask.phase ≠ .returned (.error f) := by
  intro hfailed
  have hstays : (run cfg graph sink (pre ++ post)).sinkTask.phase = .returned (.error f) := by
    unfold run
    rw [Runs.exec_append]
    refine Runs.exec_invariant
      (P := fun s : GraphRun T sink.State => s.sinkTask.phase = .returned (.error f))
      (fun s e hs => ?_) hfailed post
    cases e with
    | cancel => exact hs
    | task n arm preferred => exact hs
    | sink =>
      show (s.sinkTask.step sink s.graph.handles s.graph.wire).1.phase = _
      unfold SinkTask.step
      rw [hs]
      exact hs
  cases hok.symm.trans hstays

theorem exists_flush {Line : Type} {cfg : PipelineConfig} {graph : StreamGraph T}
    {sink : BufferedSink T Line} {es : List GraphEvent}
    (hok : (run cfg graph sink.toSink es).ReturnsOk) {n : ℕ}
    (hn : n ≤ (marks barrier? (run cfg graph sink.toSink es).taken).length) :
    ∃ pre post, es = pre ++ post ∧ (run cfg graph sink.toSink pre).taken =
        upTo barrier? n (run cfg graph sink.toSink es).taken ∧
      sink.durable (run cfg graph sink.toSink pre).sinkTask.sinkState =
        ((run cfg graph sink.toSink pre).taken.filterMap StreamElement.record?).map sink.line := by
  have hinit : (init graph sink.toSink).taken = [] :=
    congrArg (fun w : Wire T => w.channel.taken) (RunningGraph.wire_start graph)
  obtain ⟨pre, post, rfl, hpre⟩ := Runs.exists_exec_eq hinit (taken_step cfg)
    (upTo_isPrefix n (run cfg graph sink.toSink es).taken)
  have htaken : (run cfg graph sink.toSink pre).taken = _ := hpre
  have hdrained := absorbed_run cfg graph sink.toSink pre (notFailed_of_returnsOk hok)
  refine ⟨pre, post, rfl, htaken, (sink.durable_eq_iff hdrained.sinkState).mpr ?_⟩
  rw [htaken, afterLastBarrier_upTo hn]
  rfl

end GraphRun

/-! ## The flush at a barrier -/

/-- **Barriers cut the graph:** after `n` flushes exactly the records of an output are durable whose
sources end with their `n`-th barriers. -/
theorem graph_cut {T Line : Type} (cfg : PipelineConfig) (graph : StreamGraph T)
    (sink : BufferedSink T Line) (hdet : graph.Deterministic)
    (hforwards : graph.ForwardsBarriers) (es : List GraphEvent)
    (hok : (GraphRun.run cfg graph sink.toSink es).ReturnsOk) (n : ℕ)
    (hbarriers : graph.HasBarriers n) :
    ∃ pre post, es = pre ++ post ∧
      (marks barrier? (GraphRun.run cfg graph sink.toSink pre).taken).length = n ∧
      (graph.cut n).Outputs (GraphRun.run cfg graph sink.toSink pre).taken ∧
      sink.durable (GraphRun.run cfg graph sink.toSink pre).sinkTask.sinkState =
        ((GraphRun.run cfg graph sink.toSink pre).taken.filterMap StreamElement.record?).map
          sink.line := by
  have houtputs := GraphRun.outputs_of_returnsOk hdet hok
  have hn := houtputs.barriers hforwards hbarriers
  obtain ⟨pre, post, hes, htaken, hdurable⟩ := GraphRun.exists_flush hok hn
  refine ⟨pre, post, hes, ?_, ?_, hdurable⟩
  · rw [htaken, marks_upTo, List.length_take, min_eq_left hn]
  · rw [htaken]
    exact houtputs.cut hforwards hbarriers

/-- A join of numbers; on both inputs a barrier stands between the records. -/
def joinWithBarriers : StreamGraph ℕ :=
  (StreamGraph.source ⟨[.record ⟨1, 100, some [1]⟩, .checkpointBarrier ⟨1, 0⟩,
      .record ⟨3, 110, some [1]⟩], .ok ()⟩).intervalJoin
    ⟨[.record ⟨2, 115, some [1]⟩, .checkpointBarrier ⟨1, 7⟩], .ok ()⟩ none none (.fromMillis 0)
    (.fromMillis 20) (fun l r => 10 * l + r) (fun _ => "overflow") fun _ => .given _

/-- The tasks work one after the other. -/
def barrierTurns : List GraphEvent :=
  (List.replicate 7 4 ++ List.replicate 7 3 ++ List.replicate 5 2 ++ List.replicate 16 1 ++
    List.replicate 12 0).map (fun n => .task n .recv .one) ++ List.replicate 5 .sink

theorem joinWithBarriers_cut :
    let sink := FileSink (toString : ℕ → String)
    let run := GraphRun.run ⟨.mpsc, 4, by decide⟩ joinWithBarriers sink.toSink
    ∃ pre post, barrierTurns = pre ++ post ∧ (marks barrier? (run pre).taken).length = 1 ∧
      (joinWithBarriers.cut 1).Outputs (run pre).taken ∧
      sink.durable (run pre).sinkTask.sinkState =
        ((run pre).taken.filterMap StreamElement.record?).map sink.line :=
  graph_cut ⟨.mpsc, 4, by decide⟩ joinWithBarriers (FileSink (toString : ℕ → String))
    ⟨trivial, CollectorCalls.deterministic_operator _ _ _ _⟩
    ⟨trivial, IntervalJoinOperator.forwardsBarriers _ _ _⟩ barrierTurns (by decide +kernel) 1
    ⟨show 1 ≤ _ by decide, show 1 ≤ _ by decide⟩

end Flume
