import Flume.Api.PipelineComplete

/-!
# Collectors that do not wait

A collector whose channel is full fails like one whose receiver is gone, and the task with it.

* `HasRoom`: no collector call of a step finds its channel full;
* `Pipeline.Unfailed`: no task has failed; only a task that has returned has dropped its receiver;
* `Pipeline.Inv.sent_within`: what was sent is part of the output of the chain;
* **`Pipeline.Unfailed.step`**: a step with room keeps all of this, unless an operator itself fails;
* `Pipeline.hasRoom_of_fits`: there is room if a channel holds all that is ever sent on it;
* **`channelClosed_backpressure`**: a call fails exactly if the receiver is gone or the channel is
  full, and a run whose calls find room does not fail.
-/

namespace Flume

open Channels Emitters Emitter

/-! ## Chains that do not fail by themselves -/

namespace DataStream

/-- The source ends well, and no operator fails on the output of those before it. -/
def Succeeds {T : Type} : DataStream T → Prop
  | source src => src.ending = .ok ()
  | apply _ upstream op => upstream.Succeeds ∧ ∃ s, (op.feed upstream.output).2 = .ok s

/-- A channel holds everything that its operator emits. -/
def Fits (cfg : PipelineConfig) {T : Type} : DataStream T → Prop
  | source _ => True
  | apply _ upstream op =>
    upstream.Fits cfg ∧ (op.feed upstream.output).1.length ≤ cfg.capacity

end DataStream

/-- No call of the sink fails. -/
def Sink.Succeeds {T : Type} (sink : Sink T) : Prop := ∀ s e, ∃ s', sink.absorb s e = .ok s'

/-- If the `n`-th task from the end is about to call its collector, the channel has room. -/
def Pipeline.HasRoom (cfg : PipelineConfig) {T : Type} : Pipeline T → ℕ → Prop
  | source _ _ _, _ => True
  | apply _ _ _ task wire, 0 =>
    ∀ e next, task.phase = .calling (.emit e next) → wire.channel.queue.length < cfg.capacity
  | apply _ upstream _ _ _, n + 1 => upstream.HasRoom cfg n

/-- The collector call of a step, if there is one, finds room. -/
def AddSink.HasRoom (cfg : PipelineConfig) {T State : Type} (s : AddSink T State) :
    PipelineEvent → Prop
  | .task n _ => s.pipeline.HasRoom cfg n
  | .sink => True
  | .cancel => True

/-- No task has failed, and neither has `add_sink`. -/
def AddSink.NoFailure {T State : Type} (s : AddSink T State) : Prop :=
  (∀ handle ∈ s.pipeline.handles, ∀ f, handle.2 ≠ some (.error f)) ∧
    ∀ f, s.phase ≠ .returned (.error f)

/-! ## One task -/

section Task

variable {In Out : Type} {op : Operator In Out} {input : Channel (StreamElement In)}
  {output : Channel (StreamElement Out)}

theorem TaskOk.sent_within {phase : TaskPhase op.State Out} (h : TaskOk False op input output phase)
    (hunfailed : ∀ f, phase ≠ .returned (.error f)) : output.sent <+: (op.feed input.taken).1 := by
  match phase, h with
  | .polling s, h => rw [h.1]
  | .calling call, ⟨_, pre, e, s, out, part, htaken, hpre, hsent, hleaves⟩ =>
    rw [htaken, hsent, Operator.feed_concat hpre, (hleaves.exact id).1]
    exact (List.prefix_append_right_inj out).mpr (List.prefix_append _ _)
  | .returned (.ok ()), h => rw [h.1]
  | .returned (.error f), _ => exact absurd rfl (hunfailed f)

theorem TaskOk.length_lt {e : StreamElement Out}
    {next : Except TaskFailure Unit → Call Out op.State}
    (h : TaskOk False op input output (.calling (.emit e next))) :
    output.sent.length < (op.feed input.taken).1.length := by
  obtain ⟨-, pre, e₀, s, out, part, htaken, hpre, hsent, hleaves⟩ := h
  rw [htaken, hsent, Operator.feed_concat hpre, (hleaves.exact id).1]
  simp only [List.length_append, emissions, List.length_cons]
  omega

theorem TaskOk.feed_error {f : TaskFailure}
    (h : TaskOk False op input output (.calling (.done (.error f)))) :
    (op.feed input.taken).2 = .error f := by
  obtain ⟨-, pre, e, s, out, part, htaken, hpre, -, hleaves⟩ := h
  rw [htaken, Operator.feed_concat hpre]
  exact (hleaves.exact id).2

end Task

theorem Operator.feed_ne_error {In Out : Type} {op : Operator In Out}
    {es fs : List (StreamElement In)} (h : es <+: fs) {s : op.State}
    (hs : (op.feed fs).2 = .ok s) (f : TaskFailure) : (op.feed es).2 ≠ .error f := by
  obtain ⟨gs, rfl⟩ := h
  intro hf
  have heq : op.feed (es ++ gs) = op.feed es := feed_append_error hf gs
  rw [heq, hf] at hs
  cases hs

/-! ## All tasks -/

namespace Pipeline

variable {T : Type} {p : Pipeline T}

/-- No task has failed; a receiver is dropped by a task that has returned. -/
def Unfailed {T : Type} : Pipeline T → Prop
  | source _ drainer _ => ∀ f, drainer ≠ .returned (.error f)
  | apply _ upstream _ task _ => upstream.Unfailed ∧ (∀ f, task.phase ≠ .returned (.error f)) ∧
      (upstream.wire.receiverDropped = true → task.phase = .returned (.ok ()))

theorem unfailed_start {T : Type} (stream : DataStream T) : stream.start.Unfailed := by
  induction stream with
  | source src => exact fun f hf => by cases hf
  | apply name upstream op ih =>
    refine ⟨ih, fun f hf => (by cases hf), fun hdropped => ?_⟩
    rw [wire_start] at hdropped
    cases hdropped

@[simp] theorem unfailed_setWire (p : Pipeline T) (w : Wire T) :
    (p.setWire w).Unfailed = p.Unfailed := by
  cases p <;> rfl

theorem Unfailed.handles (h : p.Unfailed) :
    ∀ handle ∈ p.handles, ∀ f, handle.2 ≠ some (.error f) := by
  induction p with
  | source src drainer wire =>
    intro handle hmem f hf
    obtain rfl := List.mem_singleton.mp hmem
    cases drainer with
    | fetching rest => cases hf
    | sending e rest => cases hf
    | returned r =>
      cases hf
      exact h f rfl
  | apply name upstream op task wire ih =>
    intro handle hmem f hf
    rcases List.mem_append.mp hmem with hup | hlast
    · exact ih h.1 handle hup f hf
    · obtain rfl := List.mem_singleton.mp hlast
      obtain ⟨phase, cancelled⟩ := task
      cases phase with
      | polling s => cases hf
      | calling call => cases hf
      | returned r =>
        cases hf
        exact h.2.1 f rfl

theorem Inv.sent_within (h : p.Inv False) (hunfailed : p.Unfailed) :
    p.wire.channel.sent <+: p.stream.output := by
  induction p with
  | source src drainer wire =>
    show wire.channel.sent <+: src.elements
    match drainer, h with
    | .fetching rest, h => exact ⟨rest, h.1⟩
    | .sending e rest, h => exact ⟨e :: rest, h.1⟩
    | .returned (.ok ()), h =>
      have hall : wire.channel.sent = src.elements := h
      rw [hall]
    | .returned (.error f), _ => exact absurd rfl (hunfailed f)
  | apply name upstream op task wire ih =>
    have htaken : upstream.wire.channel.taken <+: upstream.stream.output :=
      (List.prefix_append _ _).trans (ih h.1 hunfailed.1)
    exact (h.2.sent_within hunfailed.2.1).trans (feed_mono htaken _)

theorem Inv.taken_within (h : p.Inv False) (hunfailed : p.Unfailed) :
    p.wire.channel.taken <+: p.stream.output :=
  (List.prefix_append _ _).trans (h.sent_within hunfailed)

theorem Inv.disconnected_of_dropped {In Out : Type} {name : String} {upstream : Pipeline In}
    {op : Operator In Out} {task : TaskExecutor op.State Out} {wire : Wire Out}
    (h : (apply name upstream op task wire).Inv False)
    (hunfailed : (apply name upstream op task wire).Unfailed)
    (hdropped : upstream.wire.receiverDropped = true) : upstream.wire.channel.Disconnected := by
  have htask := h.2
  rw [hunfailed.2.2 hdropped] at htask
  exact htask.2

theorem accepted_of_hasRoom {n : ℕ} (h : p.Inv False) (hunfailed : p.Unfailed)
    (hlast : p.wire.receiverDropped = true → p.wire.channel.Disconnected) {cfg : PipelineConfig}
    (hroom : p.HasRoom cfg n) : p.Accepted cfg n := by
  induction p generalizing n with
  | source src drainer wire => trivial
  | apply name upstream op task wire ih =>
    cases n with
    | succ n => exact ih h.1 hunfailed.1 (h.disconnected_of_dropped hunfailed) hroom
    | zero =>
      intro e next hphase
      have hopen : wire.channel.closed = false := by
        have htask := h.2
        rw [hphase] at htask
        exact htask.1
      rcases collect_cases cfg wire e with ⟨channel, hcollect, -⟩ | ⟨-, hdropped | hfull⟩
      · rw [hcollect]
      · exact absurd ((hlast hdropped).1.symm.trans hopen) (by decide)
      · exact absurd (hroom e next hphase) (not_lt.mpr hfull)

theorem unfailed_drainerStep {src : Source T} {drainer : DrainerPhase T} {wire : Wire T}
    (hunfailed : ∀ f, drainer ≠ .returned (.error f)) (h : DrainerOk src wire.channel drainer)
    (hlast : wire.receiverDropped = true → wire.channel.Disconnected)
    (hsucceeds : src.ending = .ok ()) (bufferSize : ℕ) (f : TaskFailure) :
    (drainer.step bufferSize src wire).1 ≠ .returned (.error f) := by
  match drainer, h with
  | .fetching (e :: rest), _ => exact fun hf => by cases hf
  | .fetching [], _ =>
    intro hf
    have hend : DrainerPhase.returned src.ending = .returned (.error f) := hf
    rw [hsucceeds] at hend
    cases hend
  | .sending e rest, h =>
    unfold DrainerPhase.step
    dsimp only
    split_ifs with hdropped
    · exact absurd ((hlast hdropped).1.symm.trans h.2) (by decide)
    · cases wire.channel.trySend bufferSize e <;> exact fun hf => by cases hf
  | .returned r, _ => exact hunfailed f

/-- **A step with room keeps the tasks from failing.** -/
theorem Unfailed.step {n : ℕ} (hunfailed : p.Unfailed) (h : p.Inv False)
    (hlast : p.wire.receiverDropped = true → p.wire.channel.Disconnected)
    (hsucceeds : p.stream.Succeeds) {cfg : PipelineConfig} (hroom : p.HasRoom cfg n)
    (token : Bool) (arm : TaskArm) : (p.step cfg token arm n).Unfailed := by
  induction p generalizing n with
  | source src drainer wire =>
    cases n with
    | succ n => exact hunfailed
    | zero => exact unfailed_drainerStep hunfailed h hlast hsucceeds _
  | apply name upstream op task wire ih =>
    cases n with
    | succ n =>
      refine ⟨ih hunfailed.1 h.1 (h.disconnected_of_dropped hunfailed) hsucceeds.1 hroom,
        hunfailed.2.1, ?_⟩
      rw [(receiver_step cfg token arm upstream n).2]
      exact hunfailed.2.2
    | zero =>
      have haccepted := accepted_of_hasRoom h hunfailed hlast hroom
      obtain ⟨hup, htask, hdropped⟩ := hunfailed
      have hinv := h.2
      obtain ⟨phase, cancelled⟩ := task
      dsimp only at htask hdropped hinv
      refine ⟨(unfailed_setWire _ _).symm ▸ hup, ?_⟩
      rw [wire_setWire]
      match phase, hinv with
      | .polling s, _ =>
        have hthere : upstream.wire.receiverDropped ≠ true := fun hd => by cases hdropped hd
        cases arm with
        | cancelled =>
          unfold TaskExecutor.step
          dsimp only
          split_ifs <;> exact ⟨fun f hf => (by cases hf), fun hd => absurd hd hthere⟩
        | recv =>
          unfold TaskExecutor.step
          dsimp only
          cases upstream.wire.channel.tryRecv with
          | item e channel => exact ⟨fun f hf => (by cases hf), fun hd => absurd hd hthere⟩
          | empty => exact ⟨htask, hdropped⟩
          | disconnected => exact ⟨fun f hf => (by cases hf), fun _ => rfl⟩
      | .calling (.done (.ok s)), _ =>
        exact ⟨fun f hf => (by cases hf), fun hd => by cases hdropped hd⟩
      | .calling (.done (.error f)), hinv =>
        -- the operator would fail on the output of those before it
        obtain ⟨s, hs⟩ := hsucceeds.2
        exact absurd hinv.feed_error (Operator.feed_ne_error (h.1.taken_within hup) hs f)
      | .calling (.emit e next), _ =>
        exact ⟨fun f hf => (by cases hf), fun hd => by cases hdropped hd⟩
      | .returned r, _ => cases arm <;> exact ⟨htask, hdropped⟩

theorem hasRoom_of_fits {cfg : PipelineConfig} (h : p.Inv False) (hunfailed : p.Unfailed)
    (hfits : p.stream.Fits cfg) (n : ℕ) : p.HasRoom cfg n := by
  induction p generalizing n with
  | source src drainer wire => trivial
  | apply name upstream op task wire ih =>
    cases n with
    | succ n => exact ih h.1 hunfailed.1 hfits.1 n
    | zero =>
      intro e next hphase
      have htask := h.2
      rw [hphase] at htask
      calc wire.channel.queue.length
          ≤ wire.channel.sent.length := by
            rw [Channel.sent, List.length_append]
            exact Nat.le_add_left _ _
        _ < (op.feed upstream.wire.channel.taken).1.length := htask.length_lt
        _ ≤ (op.feed upstream.stream.output).1.length :=
            (feed_mono (h.1.taken_within hunfailed.1) _).length_le
        _ ≤ cfg.capacity := hfits.2

end Pipeline

/-! ## The whole system -/

theorem waitAllFrom_ne_error {handles : List (String × Option (Except TaskFailure Unit))}
    (h : ∀ handle ∈ handles, ∀ f, handle.2 ≠ some (.error f)) (e : FlumeError) :
    waitAllFrom none handles ≠ some (.error e) := by
  induction handles with
  | nil => exact fun he => by cases he
  | cons handle handles ih =>
    obtain ⟨name, result⟩ := handle
    have hrest := ih fun handle hmem => h handle (List.mem_cons_of_mem _ hmem)
    match result with
    | none => exact fun he => by cases he
    | some (.ok ()) => exact hrest
    | some (.error f) => exact absurd rfl (h _ List.mem_cons_self f)

namespace AddSink

variable {T : Type} {sink : Sink T} {s : AddSink T sink.State}

/-- Nothing has failed, and `add_sink` still listens. -/
structure Healthy {State : Type} (s : AddSink T State) : Prop where
  inv : s.pipeline.Inv False
  unfailed : s.pipeline.Unfailed
  listens : s.pipeline.wire.receiverDropped = false
  phase : ∀ f, s.phase ≠ .returned (.error f)

theorem healthy_init (stream : DataStream T) (sink : Sink T) : (init stream sink).Healthy where
  inv := Pipeline.inv_start False stream
  unfailed := Pipeline.unfailed_start stream
  listens := by
    show stream.start.wire.receiverDropped = false
    rw [Pipeline.wire_start]
  phase := fun f hf => by cases hf

theorem Healthy.noFailure (h : s.Healthy) : s.NoFailure := ⟨h.unfailed.handles, h.phase⟩

theorem Healthy.hasRoom_of_fits (h : s.Healthy) {cfg : PipelineConfig}
    (hfits : s.pipeline.stream.Fits cfg) (e : PipelineEvent) : s.HasRoom cfg e := by
  cases e with
  | task n arm => exact Pipeline.hasRoom_of_fits h.inv h.unfailed hfits n
  | sink => trivial
  | cancel => trivial

/-- **A step with room keeps the system healthy.** -/
theorem Healthy.step (h : s.Healthy) (hsink : sink.Succeeds)
    (hsucceeds : s.pipeline.stream.Succeeds) {cfg : PipelineConfig} {e : PipelineEvent}
    (hroom : s.HasRoom cfg e) : (s.step cfg sink e).Healthy := by
  cases e with
  | cancel => exact ⟨h.inv, h.unfailed, h.listens, h.phase⟩
  | task n arm =>
    have hlast : s.pipeline.wire.receiverDropped = true → s.pipeline.wire.channel.Disconnected :=
      fun hd => absurd (h.listens.symm.trans hd) (by decide)
    have haccepted := Pipeline.accepted_of_hasRoom h.inv h.unfailed hlast hroom
    exact ⟨h.inv.step False.elim cfg s.token arm n (.inr haccepted),
      h.unfailed.step h.inv hlast hsucceeds hroom s.token arm,
      (Pipeline.receiver_step cfg s.token arm s.pipeline n).2.trans h.listens, h.phase⟩
  | sink =>
    show (s.sinkStep sink).Healthy
    rcases s.sinkStep_cases sink with hs | ⟨e, channel, hphase, hrecv, hs⟩ | ⟨-, -, hs⟩ |
        ⟨r, -, hwait, hs⟩
    · rwa [hs]
    · obtain ⟨sinkState, hcall⟩ := hsink s.sinkState e
      rw [hs, hcall]
      refine ⟨h.inv.setWire (Channel.sent_of_tryRecv hrecv) (Channel.tryRecv_item hrecv).2.2,
        ?_, ?_, h.phase⟩
      · show (s.pipeline.setWire _).Unfailed
        rw [Pipeline.unfailed_setWire]
        exact h.unfailed
      · show (s.pipeline.setWire _).wire.receiverDropped = false
        rw [Pipeline.wire_setWire]
        exact h.listens
    · rw [hs]
      exact ⟨h.inv, h.unfailed, h.listens, fun f hf => by cases hf⟩
    · rw [hs]
      refine ⟨h.inv, h.unfailed, h.listens, fun f hf => ?_⟩
      cases r with
      | ok u => cases hf
      | error e => exact waitAllFrom_ne_error h.unfailed.handles e hwait

variable {cfg : PipelineConfig} {stream : DataStream T}

theorem healthy_run (hsucceeds : stream.Succeeds) (hsink : sink.Succeeds)
    {es : List PipelineEvent}
    (hroom : Runs.Along (step cfg sink) (HasRoom cfg) (init stream sink) es) :
    (run cfg stream sink es).Healthy := by
  have hrun := Runs.exec_invariant_along
    (P := fun s : AddSink T sink.State => s.Healthy ∧ s.pipeline.stream = stream)
    (fun s e hs hr => ⟨hs.1.step hsink (hs.2.symm ▸ hsucceeds) hr,
      (stream_addSinkStep cfg s e).trans hs.2⟩)
    ⟨healthy_init stream sink, Pipeline.stream_start stream⟩ hroom
  exact hrun.1

theorem hasRoom_run (hsucceeds : stream.Succeeds) (hsink : sink.Succeeds) (hfits : stream.Fits cfg)
    (es : List PipelineEvent) :
    Runs.Along (step cfg sink) (HasRoom cfg) (init stream sink) es :=
  Runs.along_of_keeps (P := fun s => s.Healthy ∧ s.pipeline.stream = stream)
    (fun _ e hs => hs.1.hasRoom_of_fits (hs.2.symm ▸ hfits) e)
    (fun s e hs hr => ⟨hs.1.step hsink (hs.2.symm ▸ hsucceeds) hr,
      (stream_addSinkStep cfg s e).trans hs.2⟩)
    ⟨healthy_init stream sink, Pipeline.stream_start stream⟩ es

end AddSink

/-- **What `ChannelClosed` means:** a full channel, or over mpsc a receiver that is gone. With room
a chain that does not fail by itself does not fail. -/
theorem channelClosed_backpressure {T : Type} (cfg : PipelineConfig) (stream : DataStream T)
    (sink : Sink T) :
    (∀ (U : Type) (w : Wire U) (e : StreamElement U),
      (cfg.collect w e).1 = .error .channelClosed ↔
        (cfg.channelKind = .mpsc ∧ w.receiverDropped = true) ∨
          cfg.capacity ≤ w.channel.queue.length) ∧
    (stream.Succeeds → sink.Succeeds → ∀ es,
      (Runs.Along (AddSink.step cfg sink) (AddSink.HasRoom cfg) (AddSink.init stream sink) es →
        (AddSink.run cfg stream sink es).NoFailure) ∧
      (stream.Fits cfg → (AddSink.run cfg stream sink es).NoFailure)) := by
  refine ⟨fun U w e => collect_eq_channelClosed_iff cfg w e, fun hsucceeds hsink es => ⟨?_, ?_⟩⟩
  · intro hroom
    exact (AddSink.healthy_run hsucceeds hsink hroom).noFailure
  · intro hfits
    exact (AddSink.healthy_run hsucceeds hsink
      (AddSink.hasRoom_run hsucceeds hsink hfits es)).noFailure

theorem collectSink_succeeds (T : Type) : (CollectSink T).Succeeds := by
  intro values e
  cases e <;> exact ⟨_, rfl⟩

/-- Room for two elements is enough for an operator that emits two. -/
theorem expandedStream_noFailure :
    (AddSink.run ⟨.mpsc, 2, by decide⟩ expandedStream (CollectSink ℕ)
      cancelledSchedule).NoFailure :=
  ((channelClosed_backpressure ⟨.mpsc, 2, by decide⟩ expandedStream (CollectSink ℕ)).2
    ⟨rfl, (), rfl⟩ (collectSink_succeeds ℕ) cancelledSchedule).2 ⟨trivial, by decide⟩

/-- The operator has emitted its first element, and the sink has not run yet. -/
def slowSink : List PipelineEvent :=
  [.task 1 .recv, .task 1 .recv, .task 1 .recv, .task 0 .recv, .task 0 .recv]

/-- The operator's next call is refused though the sink is there; then the sink runs. -/
theorem slowSink_fails :
    ¬ (AddSink.run ⟨.mpsc, 1, by decide⟩ expandedStream (CollectSink ℕ)
      slowSink).pipeline.Accepted ⟨.mpsc, 1, by decide⟩ 0 ∧
    (AddSink.run ⟨.mpsc, 1, by decide⟩ expandedStream (CollectSink ℕ)
      slowSink).pipeline.wire.receiverDropped = false ∧
    (AddSink.run ⟨.mpsc, 1, by decide⟩ expandedStream (CollectSink ℕ)
      (slowSink ++ [.task 0 .recv, .task 0 .recv, .sink, .sink, .sink])).phase =
      .returned (.error (.error .channelClosed)) := by
  refine ⟨fun haccepted => ?_, rfl, rfl⟩
  have hok := haccepted (.record ⟨6, 0, none⟩) _ rfl
  cases hok

end Flume
