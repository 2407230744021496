import Flume.Api.StreamGraphInvariant

/-!
# A graph that returns `Ok` is complete

* `SinkTask.drained_step`: the sink has absorbed what was received;
* `GraphRun.Inv`, **`GraphRun.outputs_of_returnsOk`**: if `add_sink` returns `Ok`, it has received a
  whole output of the graph;
* **`graph_complete`**: then the sink was passed exactly its records.
-/

namespace Flume

open Channels

/-! ## The sink -/

namespace SinkTask

variable {T : Type} {sink : Sink T} {t : SinkTask T sink.State} {wire : Wire T}

/-- Unless the sink has failed, it has absorbed what was received. -/
def Absorbed (sink : Sink T) (t : SinkTask T sink.State) (taken : List (StreamElement T)) : Prop :=
  (∀ f, t.phase ≠ .returned (.error f)) → sink.Drained taken t.sinkState t.written

theorem Absorbed.step (h : t.Absorbed sink wire.channel.taken)
    (handles : List (String × Option (Except TaskFailure Unit))) :
    (t.step sink handles wire).1.Absorbed sink (t.step sink handles wire).2.channel.taken := by
  have hcases := step_cases handles t wire
  generalize t.step sink handles wire = stepped at hcases
  cases hcases with
  | idle => exact h
  | absorb e channel sinkState hphase hrecv hcall =>
    intro _
    have hdrained := h fun f hf => by cases hphase.symm.trans hf
    show sink.Drained channel.taken sinkState (t.written ++ e.record?.toList)
    rw [(Channel.tryRecv_item hrecv).2.1]
    exact hdrained.concat hcall
  | fail e channel f hphase hrecv hcall => exact fun hok => absurd rfl (hok f)
  | drained hphase hrecv => exact fun _ => h fun f hf => by cases hphase.symm.trans hf
  | joined r hphase hwait => exact fun _ => h fun f hf => by cases hphase.symm.trans hf

end SinkTask

namespace GraphRun

variable {T : Type} {sink : Sink T}

theorem absorbed_run (cfg : PipelineConfig) (graph : StreamGraph T) (sink : Sink T)
    (es : List GraphEvent) :
    (run cfg graph sink es).sinkTask.Absorbed sink (run cfg graph sink es).taken := by
  refine Runs.exec_invariant
    (P := fun s : GraphRun T sink.State => s.sinkTask.Absorbed sink s.taken) (fun s e hs => ?_) ?_ es
  · cases e with
    | cancel => exact hs
    | task n arm preferred =>
      show s.sinkTask.Absorbed sink (s.graph.step cfg s.token arm preferred n).wire.channel.taken
      rw [(RunningGraph.receiver_step cfg s.token arm preferred s.graph n).1]
      exact hs
    | sink =>
      show (s.sinkTask.step sink s.graph.handles s.graph.wire).1.Absorbed sink
        (s.graph.setWire _).wire.channel.taken
      rw [RunningGraph.wire_setWire]
      exact SinkTask.Absorbed.step hs s.graph.handles
  · intro _
    show sink.Drained graph.start.wire.channel.taken sink.initial []
    rw [RunningGraph.wire_start]
    exact ⟨rfl, rfl⟩

/-! ## The whole system -/

/-- Where `add_sink` is with its input. -/
def PhaseOk (g : RunningGraph T) : SinkPhase → Prop
  | .draining => True
  | .waiting => g.wire.channel.Disconnected
  | .returned (.ok ()) => g.graph.Outputs g.wire.channel.taken
  | .returned (.error _) => True

/-- The invariant of a run of `graph`. -/
structure Inv (refusing : Prop) {State : Type} (graph : StreamGraph T) (s : GraphRun T State) :
    Prop where
  graph_eq : s.graph.graph = graph
  tasks : s.graph.Inv refusing
  phase : PhaseOk s.graph s.sinkTask.phase

/-- The collector call of a step, if there is one, succeeds. -/
def Accepted (cfg : PipelineConfig) {State : Type} (s : GraphRun T State) : GraphEvent → Prop
  | .task n _ _ => s.graph.Accepted cfg n
  | .sink => True
  | .cancel => True

/-- Every step of the drain loop keeps the invariant. -/
theorem Inv.sinkStep {refusing : Prop} {graph : StreamGraph T} {s : GraphRun T sink.State}
    (h : s.Inv refusing graph) (cfg : PipelineConfig) :
    (s.step cfg sink .sink).Inv refusing graph := by
  obtain ⟨g, t, token⟩ := s
  obtain ⟨hgraph, htasks, hphase⟩ := h
  have hcases := SinkTask.step_cases g.handles t g.wire
  unfold step
  dsimp only at hgraph htasks hphase ⊢
  generalize t.step sink g.handles g.wire = stepped at hcases
  have hgraph' : ∀ w, (g.setWire w).graph = graph := fun w =>
    (RunningGraph.graph_setWire g w).trans hgraph
  cases hcases with
  | idle =>
    refine ⟨hgraph' _, htasks.setWire rfl rfl, ?_⟩
    obtain ⟨sinkState, phase, written⟩ := t
    show PhaseOk (g.setWire g.wire) phase
    match phase, hphase with
    | .draining, _ => trivial
    | .waiting, hphase =>
      unfold PhaseOk
      rw [RunningGraph.wire_setWire]
      exact hphase
    | .returned (.ok ()), hphase =>
      unfold PhaseOk
      rw [RunningGraph.wire_setWire, RunningGraph.graph_setWire]
      exact hphase
    | .returned (.error f), _ => trivial
  | absorb e channel sinkState hp hrecv hcall =>
    refine ⟨hgraph' _, htasks.setWire (Channel.sent_of_tryRecv hrecv)
      (Channel.tryRecv_item hrecv).2.2, ?_⟩
    show PhaseOk _ t.phase
    rw [hp]
    trivial
  | fail e channel f hp hrecv hcall =>
    exact ⟨hgraph' _, htasks.setWire (Channel.sent_of_tryRecv hrecv)
      (Channel.tryRecv_item hrecv).2.2, trivial⟩
  | drained hp hrecv =>
    refine ⟨hgraph' _, htasks.setWire rfl rfl, ?_⟩
    show (g.setWire g.wire).wire.channel.Disconnected
    rw [RunningGraph.wire_setWire]
    exact Channel.tryRecv_disconnected hrecv
  | joined r hp hwait =>
    refine ⟨hgraph' _, htasks.setWire rfl rfl, ?_⟩
    cases r with
    | error e => trivial
    | ok u =>
      -- everything was sent, and everything sent was received
      rw [hp] at hphase
      have hdis : g.wire.channel.Disconnected := hphase
      show (g.setWire g.wire).graph.Outputs (g.setWire g.wire).wire.channel.taken
      rw [RunningGraph.wire_setWire, RunningGraph.graph_setWire,
        ← Channel.sent_of_disconnected hdis]
      exact htasks.outputs (waitAllFrom_ok hwait).2

/-- **Every step of the system keeps the invariant.** -/
theorem Inv.step {refusing : Prop} {graph : StreamGraph T} (hdet : refusing → graph.Deterministic)
    (cfg : PipelineConfig) {s : GraphRun T sink.State} (h : s.Inv refusing graph) (e : GraphEvent)
    (haccepted : refusing ∨ s.Accepted cfg e) : (s.step cfg sink e).Inv refusing graph := by
  cases e with
  | cancel => exact ⟨h.graph_eq, h.tasks, h.phase⟩
  | sink => exact h.sinkStep cfg
  | task n arm preferred =>
    obtain ⟨g, ⟨sinkState, phase, written⟩, token⟩ := s
    obtain ⟨rfl, htasks, hphase⟩ := h
    dsimp only at htasks hphase hdet
    have hgraph := RunningGraph.graph_step cfg token arm preferred g n
    refine ⟨hgraph, htasks.step hdet cfg token arm preferred n haccepted, ?_⟩
    show PhaseOk (g.step cfg token arm preferred n) phase
    match phase, hphase with
    | .draining, _ => trivial
    | .waiting, hphase => exact htasks.disconnected_step hphase cfg token arm preferred n
    | .returned (.ok ()), hphase =>
      unfold PhaseOk
      rw [hgraph, (RunningGraph.receiver_step cfg token arm preferred g n).1]
      exact hphase
    | .returned (.error f), _ => trivial

theorem inv_init (refusing : Prop) (graph : StreamGraph T) (sink : Sink T) :
    (init graph sink).Inv refusing graph where
  graph_eq := RunningGraph.graph_start graph
  tasks := RunningGraph.inv_start refusing graph
  phase := trivial

theorem inv_run {graph : StreamGraph T} (hdet : graph.Deterministic) (cfg : PipelineConfig)
    (sink : Sink T) (es : List GraphEvent) : (run cfg graph sink es).Inv True graph :=
  Runs.exec_invariant (P := Inv True graph)
    (fun _ e hs => hs.step (fun _ => hdet) cfg e (.inl trivial)) (inv_init True graph sink) es

theorem Inv.outputs {refusing : Prop} {graph : StreamGraph T} {s : GraphRun T sink.State}
    (h : s.Inv refusing graph) (hok : s.ReturnsOk) : graph.Outputs s.taken := by
  obtain ⟨hgraph, -, hphase⟩ := h
  rw [hok] at hphase
  have houtputs : s.graph.graph.Outputs s.taken := hphase
  rwa [hgraph] at houtputs

/-- **When `add_sink` returns `Ok`, it has received a whole output of the graph.** -/
theorem outputs_of_returnsOk {cfg : PipelineConfig} {graph : StreamGraph T} {sink : Sink T}
    (hdet : graph.Deterministic) {es : List GraphEvent}
    (hok : (run cfg graph sink es).ReturnsOk) : graph.Outputs (run cfg graph sink es).taken :=
  (inv_run hdet cfg sink es).outputs hok

theorem written_of_returnsOk {cfg : PipelineConfig} {graph : StreamGraph T} {sink : Sink T}
    {es : List GraphEvent} (hok : (run cfg graph sink es).ReturnsOk) :
    sink.Drained (run cfg graph sink es).taken (run cfg graph sink es).sinkTask.sinkState
      (run cfg graph sink es).sinkTask.written :=
  absorbed_run cfg graph sink es fun f hf => by cases hok.symm.trans hf

end GraphRun

/-- Whether `add_sink` has returned `Ok` can be computed. -/
instance GraphRun.decidableReturnsOk {T State : Type} (s : GraphRun T State) :
    Decidable s.ReturnsOk :=
  match h : s.sinkTask.phase with
  | .returned (.ok ()) => .isTrue h
  | .returned (.error _) => .isFalse fun hok => by cases h.symm.trans hok
  | .draining => .isFalse fun hok => by cases h.symm.trans hok
  | .waiting => .isFalse fun hok => by cases h.symm.trans hok

/-- **`Ok` means complete, also with connected streams:** what was received is an output of the
graph, and its records were passed to the sink. -/
theorem graph_complete {T : Type} (cfg : PipelineConfig) (graph : StreamGraph T) (sink : Sink T)
    (hdet : graph.Deterministic) (es : List GraphEvent)
    (hok : (GraphRun.run cfg graph sink es).ReturnsOk) :
    ∃ out, graph.Outputs out ∧
      (GraphRun.run cfg graph sink es).sinkTask.written = out.filterMap StreamElement.record? ∧
      out.foldlM sink.absorb sink.initial =
        .ok (GraphRun.run cfg graph sink es).sinkTask.sinkState :=
  ⟨_, GraphRun.outputs_of_returnsOk hdet hok, (GraphRun.written_of_returnsOk hok).written,
    (GraphRun.written_of_returnsOk hok).sinkState⟩

/-- A number connected with an empty stream of words; the barriers of both inputs are aligned. -/
def connectedGraph : StreamGraph (Either ℕ String) :=
  .connect "co_process" (.source ⟨[.record ⟨5, 0, none⟩, .checkpointBarrier ⟨1, 0⟩], .ok ()⟩)
    ⟨[.checkpointBarrier ⟨1, 3⟩], .ok ()⟩ none none (MapOperator () fun s v => (v, s))

/-- The tasks work one after the other, after a cancellation. -/
def oneAfterTheOther : List GraphEvent :=
  .cancel :: [4, 4, 4, 4, 4, 3, 3, 3, 3, 3, 2, 2, 2, 1, 1, 1, 1, 1, 1, 1, 1, 1, 1, 1, 0, 0, 0, 0, 0,
    0, 0, 0].map (fun n => .task n .recv .one) ++ [.sink, .sink, .sink, .sink]

theorem connectedGraph_complete :
    let s := GraphRun.run ⟨.mpsc, 2, by decide⟩ connectedGraph (CollectSink (Either ℕ String))
      oneAfterTheOther
    ∃ out, connectedGraph.Outputs out ∧
      s.sinkTask.written = out.filterMap StreamElement.record? ∧
      out.foldlM (CollectSink (Either ℕ String)).absorb (CollectSink (Either ℕ String)).initial =
        .ok s.sinkTask.sinkState :=
  graph_complete _ connectedGraph _ ⟨trivial, deterministic_map _ _⟩ oneAfterTheOther
    (by decide +kernel)

end Flume
