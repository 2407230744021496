import Flume.Api.PipelineInvariant

/-!
# A pipeline that returns `Ok` is complete

* `waitAllFrom_ok`: `wait_all` returns `Ok` only if every task has;
* `AddSink.Drains`, `AddSink.drained_of_returnsOk`: the sink has absorbed what was received;
* `AddSink.Inv`, **`AddSink.taken_of_returnsOk`**: if `add_sink` returns `Ok`, it has received the
  whole output of the stream;
* **`pipeline_complete`**: then the sink was passed exactly its records.
-/

namespace Flume

open Channels

theorem waitAllFrom_ok {firstError : Option FlumeError}
    {handles : List (String × Option (Except TaskFailure Unit))}
    (h : waitAllFrom firstError handles = some (.ok ())) :
    firstError = none ∧ ∀ handle ∈ handles, handle.2 = some (.ok ()) := by
  induction handles generalizing firstError with
  | nil =>
    cases firstError with
    | none => exact ⟨rfl, fun _ hmem => absurd hmem List.not_mem_nil⟩
    | some e => cases h
  | cons handle handles ih =>
    obtain ⟨name, result⟩ := handle
    match result, h with
    | none, h => cases h
    | some (.ok ()), h =>
      obtain ⟨hnone, hrest⟩ := ih h
      exact ⟨hnone, List.forall_mem_cons.mpr ⟨rfl, hrest⟩⟩
    | some (.error (.error e)), h =>
      have hnone := (ih h).1
      cases firstError <;> cases hnone
    | some (.error (.panicked joinErr)), h =>
      have hnone := (ih h).1
      cases firstError <;> cases hnone

/-! ## The sink -/

/-- The sink has absorbed the elements taken, and its `write` was passed their records. -/
structure Sink.Drained {T : Type} (sink : Sink T) (taken : List (StreamElement T))
    (sinkState : sink.State) (written : List (Record T)) : Prop where
  written : written = taken.filterMap StreamElement.record?
  sinkState : taken.foldlM sink.absorb sink.initial = .ok sinkState

theorem Sink.Drained.concat {T : Type} {sink : Sink T} {taken : List (StreamElement T)}
    {sinkState sinkState' : sink.State} {written : List (Record T)}
    (h : sink.Drained taken sinkState written) {e : StreamElement T}
    (he : sink.absorb sinkState e = .ok sinkState') :
    sink.Drained (taken ++ [e]) sinkState' (written ++ e.record?.toList) where
  written := by
    rw [List.filterMap_append, ← h.written]
    cases e <;> rfl
  sinkState := by
    rw [List.foldlM_append, h.sinkState]
    show [e].foldlM sink.absorb sinkState = _
    rw [List.foldlM_cons, he]
    rfl

namespace AddSink

variable {T : Type} {sink : Sink T}

/-- The elements that `add_sink` has received. -/
def taken {State : Type} (s : AddSink T State) : List (StreamElement T) :=
  s.pipeline.wire.channel.taken

/-- Unless `add_sink` has failed, its sink has absorbed what was received. -/
def Drains (sink : Sink T) (s : AddSink T sink.State) : Prop :=
  (∀ f, s.phase ≠ .returned (.error f)) → sink.Drained s.taken s.sinkState s.written

theorem drains_init (stream : DataStream T) (sink : Sink T) : (init stream sink).Drains sink := by
  intro _
  show sink.Drained stream.start.wire.channel.taken sink.initial []
  rw [Pipeline.wire_start]
  exact ⟨rfl, rfl⟩

/-- Every step keeps what the sink has absorbed. -/
theorem Drains.step (cfg : PipelineConfig) {s : AddSink T sink.State} (h : s.Drains sink)
    (e : PipelineEvent) : (s.step cfg sink e).Drains sink := by
  cases e with
  | cancel => exact h
  | task n arm =>
    intro hphase
    show sink.Drained (s.pipeline.step cfg s.token arm n).wire.channel.taken _ _
    rw [Pipeline.taken_step]
    exact h hphase
  | sink =>
    show (s.sinkStep sink).Drains sink
    rcases s.sinkStep_cases sink with hs | ⟨e, channel, hphase, hrecv, hs⟩ | ⟨hphase, -, hs⟩ |
        ⟨r, hphase, -, hs⟩
    · rwa [hs]
    · rw [hs]
      have hdrained : sink.Drained s.taken s.sinkState s.written :=
        h fun f hf => by rw [hphase] at hf; cases hf
      intro hok
      cases hcall : sink.absorb s.sinkState e with
      | error f =>
        rw [hcall] at hok
        exact absurd rfl (hok f)
      | ok sinkState =>
        show sink.Drained (s.pipeline.setWire _).wire.channel.taken sinkState _
        rw [Pipeline.wire_setWire]
        exact (Channel.tryRecv_item hrecv).2.1 ▸ hdrained.concat hcall
    · rw [hs]
      exact fun _ => h fun f hf => by rw [hphase] at hf; cases hf
    · rw [hs]
      exact fun _ => h fun f hf => by rw [hphase] at hf; cases hf

theorem drained_of_returnsOk {cfg : PipelineConfig} {stream : DataStream T} {sink : Sink T}
    {es : List PipelineEvent} (hok : (run cfg stream sink es).ReturnsOk) :
    sink.Drained (run cfg stream sink es).taken (run cfg stream sink es).sinkState
      (run cfg stream sink es).written := by
  refine Runs.exec_invariant (P := Drains sink) (fun _ e hs => hs.step cfg e)
    (drains_init stream sink) es fun f hf => ?_
  have hne : SinkPhase.returned (.ok ()) = .returned (.error f) := hok.symm.trans hf
  cases hne

/-! ## The whole system -/

/-- Where `add_sink` is with its input. -/
def PhaseOk (p : Pipeline T) : SinkPhase → Prop
  | .draining => True
  | .waiting => p.wire.channel.Disconnected
  | .returned (.ok ()) => p.wire.channel.taken = p.stream.output
  | .returned (.error _) => True

/-- The invariant of a run. -/
structure Inv {State : Type} (s : AddSink T State) : Prop where
  pipeline : s.pipeline.Inv True
  deterministic : s.pipeline.stream.Deterministic
  phase : PhaseOk s.pipeline s.phase

theorem inv_init (sink : Sink T) {stream : DataStream T} (h : stream.Deterministic) :
    (init stream sink).Inv where
  pipeline := Pipeline.inv_start True stream
  deterministic := (Pipeline.stream_start stream).symm ▸ h
  phase := trivial

/-- Every step of the drain loop keeps the invariant. -/
theorem Inv.sinkStep {s : AddSink T sink.State} (h : s.Inv) : (s.sinkStep sink).Inv := by
  rcases s.sinkStep_cases sink with hs | ⟨e, channel, hphase, hrecv, hs⟩ | ⟨-, hrecv, hs⟩ |
      ⟨r, hphase, hwait, hs⟩
  · rwa [hs]
  · rw [hs]
    have hinv : (s.received e channel).pipeline.Inv True :=
      h.pipeline.setWire (Channel.sent_of_tryRecv hrecv) (Channel.tryRecv_item hrecv).2.2
    have hdet : (s.received e channel).pipeline.stream.Deterministic := by
      show (s.pipeline.setWire _).stream.Deterministic
      rw [Pipeline.stream_setWire]
      exact h.deterministic
    cases sink.absorb s.sinkState e with
    | ok sinkState =>
      refine ⟨hinv, hdet, ?_⟩
      show PhaseOk _ s.phase
      rw [hphase]
      trivial
    | error f =>
      refine ⟨hinv.setWire rfl rfl, ?_, trivial⟩
      show ((s.received e channel).pipeline.setWire _).stream.Deterministic
      rw [Pipeline.stream_setWire]
      exact hdet
  · rw [hs]
    exact ⟨h.pipeline, h.deterministic, Channel.tryRecv_disconnected hrecv⟩
  · rw [hs]
    refine ⟨h.pipeline, h.deterministic, ?_⟩
    cases r with
    | error e => trivial
    | ok u =>
      -- everything was sent, and everything sent was received
      have hdis : s.pipeline.wire.channel.Disconnected := by
        have hwaiting := h.phase
        rw [hphase] at hwaiting
        exact hwaiting
      exact (Channel.sent_of_disconnected hdis).symm.trans
        (h.pipeline.sent_eq (waitAllFrom_ok hwait).2)

/-- **Every step of the system keeps the invariant.** -/
theorem Inv.step (cfg : PipelineConfig) {s : AddSink T sink.State} (h : s.Inv)
    (e : PipelineEvent) : (s.step cfg sink e).Inv := by
  cases e with
  | cancel => exact ⟨h.pipeline, h.deterministic, h.phase⟩
  | sink => exact h.sinkStep
  | task n arm =>
    obtain ⟨p, sinkState, phase, token, written⟩ := s
    obtain ⟨hinv, hdet, hphase⟩ := h
    dsimp only at hinv hdet hphase
    refine ⟨hinv.step (fun _ => hdet) cfg token arm n (.inl trivial), ?_, ?_⟩
    · show (p.step cfg token arm n).stream.Deterministic
      rw [Pipeline.stream_step]
      exact hdet
    · show PhaseOk (p.step cfg token arm n) phase
      match phase, hphase with
      | .draining, _ => trivial
      | .waiting, hphase => exact hinv.disconnected_step hphase cfg token arm n
      | .returned (.ok ()), hphase =>
        unfold PhaseOk
        rw [Pipeline.taken_step, Pipeline.stream_step]
        exact hphase
      | .returned (.error f), _ => trivial

/-- **When `add_sink` returns `Ok`, it has received the whole output of the stream.** -/
theorem taken_of_returnsOk {cfg : PipelineConfig} {stream : DataStream T} {sink : Sink T}
    (h : stream.Deterministic) {es : List PipelineEvent}
    (hok : (run cfg stream sink es).ReturnsOk) :
    (run cfg stream sink es).taken = stream.output := by
  have hinv : (run cfg stream sink es).Inv :=
    Runs.exec_invariant (P := Inv) (fun _ e hs => hs.step cfg e)
      (inv_init sink h) es
  have hphase := hinv.phase
  rw [hok] at hphase
  exact hphase.trans (congrArg DataStream.output (stream_run cfg stream sink es))

end AddSink

/-- **`Ok` means complete**, whatever the schedule, the channels and the moment of a cancellation.
-/
theorem pipeline_complete {T : Type} (cfg : PipelineConfig) (stream : DataStream T) (sink : Sink T)
    (h : stream.Deterministic) (es : List PipelineEvent)
    (hok : (AddSink.run cfg stream sink es).ReturnsOk) :
    (AddSink.run cfg stream sink es).written = stream.output.filterMap StreamElement.record? := by
  rw [← AddSink.taken_of_returnsOk h hok]
  exact (AddSink.drained_of_returnsOk hok).written

/-- One record, expanded into two. -/
def expandedStream : DataStream ℕ :=
  .apply "flat_map" (.source ⟨[.record ⟨5, 0, none⟩], .ok ()⟩)
    (FlatMapOperator () fun _ n => ([n, n + 1], ()))

/-- The operator is cancelled while it waits, and drains its input. -/
def cancelledSchedule : List PipelineEvent :=
  [.task 1 .recv, .cancel, .task 0 .cancelled, .task 1 .recv, .task 0 .recv, .task 0 .recv, .sink,
    .task 0 .recv, .task 0 .recv, .task 1 .recv, .task 0 .recv, .sink, .sink, .sink]

theorem expandedStream_complete :
    (AddSink.run ⟨.mpsc, 2, by decide⟩ expandedStream (CollectSink ℕ) cancelledSchedule).written =
      [⟨5, 0, none⟩, ⟨6, 0, none⟩] :=
  pipeline_complete _ expandedStream _ ⟨trivial, deterministic_flatMap _ _⟩ _ rfl

end Flume
