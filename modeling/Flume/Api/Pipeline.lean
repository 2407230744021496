import Flume.Runtime.Task
import Flume.Lib.Runs

/-!
# Pipelines

A `DataStream` is a source and a chain of operators. Its terminal operation `add_sink` runs one task
that drains the source and one task for each operator, and itself drains the last channel into the
sink.

* `DataStream`, `DataStream.output`: the chain, and its operators composed one after the other;
* `Pipeline`: the tasks and channels of a running chain; `Pipeline.step`: one of them takes a step;
* `waitAll`: the results of the tasks;
* `AddSink`, `AddSink.step`: the pipeline with its sink, driven by any schedule, with a cancellation
  at any moment; **`sinkStep_cases`**.
-/

namespace Flume

open Channels Emitters

/-- A finite source: its elements, and how it ends after them. -/
structure Source (T : Type) where
  elements : List (StreamElement T)
  ending : Except TaskFailure Unit

/-- A source and the operators applied to it, with their names. -/
inductive DataStream : Type → Type 1
  | source {T : Type} (src : Source T) : DataStream T
  | apply {In Out : Type} (name : String) (upstream : DataStream In) (op : Operator In Out) :
      DataStream Out

namespace DataStream

/-- The elements that the operators, composed one after the other, make of the source. -/
def output {T : Type} : DataStream T → List (StreamElement T)
  | source src => src.elements
  | apply _ upstream op => (op.feed upstream.output).1

/-- All operators are deterministic. -/
def Deterministic {T : Type} : DataStream T → Prop
  | source _ => True
  | apply _ upstream op => upstream.Deterministic ∧ op.Deterministic

end DataStream

/-! ## The tasks of a pipeline -/

/-- The task that drains a source: before `source.next()`, at `tx.send(element)`, or returned. -/
inductive DrainerPhase (T : Type)
  | fetching (rest : List (StreamElement T))
  | sending (e : StreamElement T) (rest : List (StreamElement T))
  | returned (r : Except TaskFailure Unit)

/-- One step of the source drainer; `send` waits for room, and fails without a receiver. -/
def DrainerPhase.step {T : Type} (bufferSize : ℕ) (src : Source T) :
    DrainerPhase T → Wire T → DrainerPhase T × Wire T
  | fetching (e :: rest), wire => (sending e rest, wire)
  | fetching [], wire => (returned src.ending, wire.closeSender)
  | sending e rest, wire =>
    if wire.receiverDropped then (returned (.error (.error .channelClosed)), wire.closeSender)
    else match wire.channel.trySend bufferSize e with
      | some channel => (fetching rest, { wire with channel := channel })
      | none => (sending e rest, wire)
  | returned r, wire => (returned r, wire)

/-- The running tasks of a chain, each with its output channel. -/
inductive Pipeline : Type → Type 1
  | source {T : Type} (src : Source T) (drainer : DrainerPhase T) (wire : Wire T) : Pipeline T
  | apply {In Out : Type} (name : String) (upstream : Pipeline In) (op : Operator In Out)
      (task : TaskExecutor op.State Out) (wire : Wire Out) : Pipeline Out

/-- Spawns the tasks. -/
def DataStream.start {T : Type} : DataStream T → Pipeline T
  | source src => .source src (.fetching src.elements) {}
  | apply name upstream op => .apply name upstream.start op (TaskExecutor.new op) {}

namespace Pipeline

variable {T : Type}

/-- The output channel of the last task. -/
def wire {T : Type} : Pipeline T → Wire T
  | source _ _ wire => wire
  | apply _ _ _ _ wire => wire

/-- Change the output channel of the last task. -/
def setWire {T : Type} : Pipeline T → Wire T → Pipeline T
  | source src drainer _, wire => source src drainer wire
  | apply name upstream op task _, wire => apply name upstream op task wire

/-- The id of the last node in the logical graph. -/
def nodeId {T : Type} : Pipeline T → ℕ
  | source _ _ _ => 0
  | apply _ upstream _ _ _ => upstream.nodeId + 1

/-- The handles of the tasks, in the order in which they were spawned: names and results. -/
def handles {T : Type} : Pipeline T → List (String × Option (Except TaskFailure Unit))
  | source _ drainer _ =>
    [("source-drainer", match drainer with
      | .returned r => some r
      | _ => none)]
  | apply name upstream _ task _ =>
    upstream.handles ++ [(name ++ "-" ++ toString (upstream.nodeId + 1), match task.phase with
      | .returned r => some r
      | _ => none)]

/-- The `n`-th task from the end takes a step. -/
def step {T : Type} (cfg : PipelineConfig) (token : Bool) (arm : TaskArm) :
    Pipeline T → ℕ → Pipeline T
  | source src drainer wire, 0 =>
    let stepped := drainer.step cfg.channelBufferSize.val src wire
    source src stepped.1 stepped.2
  | source src drainer wire, _ + 1 => source src drainer wire
  | apply name upstream op task wire, 0 =>
    let stepped := task.step cfg op token arm upstream.wire wire
    apply name (upstream.setWire stepped.2.1) op stepped.1 stepped.2.2
  | apply name upstream op task wire, n + 1 =>
    apply name (upstream.step cfg token arm n) op task wire

end Pipeline

/-! ## Waiting for the tasks -/

/-- The loop of `wait_all`: the first error, once every task has returned. -/
def waitAllFrom (firstError : Option FlumeError) :
    List (String × Option (Except TaskFailure Unit)) → Option (Except FlumeError Unit)
  | [] => some (match firstError with
    | some e => .error e
    | none => .ok ())
  | (_, none) :: _ => none
  | (_, some (.ok ())) :: handles => waitAllFrom firstError handles
  | (_, some (.error (.error e))) :: handles => waitAllFrom (firstError.or (some e)) handles
  | (name, some (.error (.panicked joinErr))) :: handles =>
    waitAllFrom
      (firstError.or (some (.execution ("task '" ++ name ++ "' panicked: " ++ joinErr)))) handles

/-- `wait_all`; `none` while it has to wait. -/
def waitAll (handles : List (String × Option (Except TaskFailure Unit))) :
    Option (Except FlumeError Unit) :=
  waitAllFrom none handles

/-! ## Draining into a sink -/

/-- A sink; its calls may fail. -/
structure Sink (T : Type) where
  State : Type
  initial : State
  write : State → Record T → Except TaskFailure State
  flush : State → Except TaskFailure State

/-- Collects all values. -/
def CollectSink (T : Type) : Sink T where
  State := List T
  initial := []
  write values record := .ok (values ++ [record.value])
  flush := .ok

/-- `add_sink` drains the input, waits for the tasks, or has returned. -/
inductive SinkPhase
  | draining
  | waiting
  | returned (r : Except TaskFailure Unit)

/-- `add_sink` with its pipeline; `written` are the records passed to `sink.write` so far. -/
structure AddSink (T : Type) (State : Type) where
  pipeline : Pipeline T
  sinkState : State
  phase : SinkPhase
  token : Bool
  written : List (Record T)

/-- A task takes a step, the sink does, or the scheduler's token is cancelled. -/
inductive PipelineEvent
  | task (n : ℕ) (arm : TaskArm)
  | sink
  | cancel

namespace AddSink

variable {T State : Type}

/-- A call of the sink has returned. -/
def afterCall (s : AddSink T State) : Except TaskFailure State → AddSink T State
  | .ok sinkState => { s with sinkState := sinkState }
  | .error f =>
    { s with
      phase := .returned (.error f)
      pipeline := s.pipeline.setWire s.pipeline.wire.dropReceiver }

/-- One round of the drain loop, or the end of waiting. -/
def sinkStep (sink : Sink T) (s : AddSink T sink.State) : AddSink T sink.State :=
  match s.phase with
  | .draining =>
    match s.pipeline.wire.channel.tryRecv with
    | .item e channel =>
      let received := { s with
        pipeline := s.pipeline.setWire { s.pipeline.wire with channel := channel } }
      match e with
      | .record record =>
        { received with written := s.written ++ [record] }.afterCall (sink.write s.sinkState record)
      | .watermark _ => received
      | .checkpointBarrier _ => received.afterCall (sink.flush s.sinkState)
    | .empty => s
    | .disconnected => { s with phase := .waiting }
  | .waiting =>
    match waitAll s.pipeline.handles with
    | none => s
    | some (.ok ()) => { s with phase := .returned (.ok ()) }
    | some (.error e) => { s with phase := .returned (.error (.error e)) }
  | .returned _ => s

/-- The system of tasks, sink and scheduler. -/
def step (cfg : PipelineConfig) (sink : Sink T) (s : AddSink T sink.State) :
    PipelineEvent → AddSink T sink.State
  | .task n arm => { s with pipeline := s.pipeline.step cfg s.token arm n }
  | .sink => s.sinkStep sink
  | .cancel => { s with token := true }

/-- `add_sink` has just been called. -/
def init (stream : DataStream T) (sink : Sink T) : AddSink T sink.State where
  pipeline := stream.start
  sinkState := sink.initial
  phase := .draining
  token := false
  written := []

/-- The state after a run. -/
def run (cfg : PipelineConfig) (stream : DataStream T) (sink : Sink T) (es : List PipelineEvent) :
    AddSink T sink.State :=
  Runs.exec (step cfg sink) (init stream sink) es

/-- `add_sink` has returned `Ok`. -/
def ReturnsOk (s : AddSink T State) : Prop := s.phase = .returned (.ok ())

end AddSink

/-! ## What a step of the sink does -/

/-- What the drain loop does with the sink for one element. -/
def Sink.absorb {T : Type} (sink : Sink T) (s : sink.State) :
    StreamElement T → Except TaskFailure sink.State
  | .record record => sink.write s record
  | .watermark _ => .ok s
  | .checkpointBarrier _ => sink.flush s

namespace AddSink

variable {T State : Type}

/-- An element was received, and its record is passed to the sink. -/
def received (s : AddSink T State) (e : StreamElement T) (channel : Channel (StreamElement T)) :
    AddSink T State where
  pipeline := s.pipeline.setWire { s.pipeline.wire with channel := channel }
  sinkState := s.sinkState
  phase := s.phase
  token := s.token
  written := s.written ++ e.record?.toList

/-- **What a step of the sink does**: nothing, absorb an element, or go on to the next phase. -/
theorem sinkStep_cases (sink : Sink T) (s : AddSink T sink.State) :
    s.sinkStep sink = s ∨
    (∃ e channel, s.phase = .draining ∧ s.pipeline.wire.channel.tryRecv = .item e channel ∧
      s.sinkStep sink = (s.received e channel).afterCall (sink.absorb s.sinkState e)) ∨
    (s.phase = .draining ∧ s.pipeline.wire.channel.tryRecv = .disconnected ∧
      s.sinkStep sink = { s with phase := .waiting }) ∨
    (∃ r, s.phase = .waiting ∧ waitAll s.pipeline.handles = some r ∧
      s.sinkStep sink = { s with phase := .returned (r.mapError .error) }) := by
  obtain ⟨p, sinkState, phase, token, written⟩ := s
  unfold sinkStep
  dsimp only
  cases phase with
  | draining =>
    dsimp only
    cases hrecv : p.wire.channel.tryRecv with
    | empty => exact .inl rfl
    | disconnected => exact .inr (.inr (.inl ⟨rfl, rfl, rfl⟩))
    | item e channel =>
      refine .inr (.inl ⟨e, channel, rfl, rfl, ?_⟩)
      cases e with
      | record record => rfl
      | watermark watermark => simp [received, afterCall, Sink.absorb, StreamElement.record?]
      | checkpointBarrier barrier => simp [received, Sink.absorb, StreamElement.record?]
  | waiting =>
    dsimp only
    cases hwait : waitAll p.handles with
    | none => exact .inl rfl
    | some r =>
      refine .inr (.inr (.inr ⟨r, rfl, rfl, ?_⟩))
      cases r <;> rfl
  | returned r => exact .inl rfl

end AddSink

/-! ## What a step leaves alone -/

namespace Pipeline

/-- The chain that is running. -/
def stream {T : Type} : Pipeline T → DataStream T
  | source src _ _ => .source src
  | apply name upstream op _ _ => .apply name upstream.stream op

@[simp] theorem wire_setWire {T : Type} (p : Pipeline T) (w : Wire T) : (p.setWire w).wire = w := by
  cases p <;> rfl

@[simp] theorem stream_setWire {T : Type} (p : Pipeline T) (w : Wire T) :
    (p.setWire w).stream = p.stream := by
  cases p <;> rfl

theorem stream_start {T : Type} (stream : DataStream T) : stream.start.stream = stream := by
  induction stream with
  | source src => rfl
  | apply name upstream op ih =>
    show DataStream.apply name upstream.start.stream op = _
    rw [ih]

theorem stream_step {T : Type} (cfg : PipelineConfig) (token : Bool) (arm : TaskArm)
    (p : Pipeline T) (n : ℕ) : (p.step cfg token arm n).stream = p.stream := by
  induction p generalizing n with
  | source src drainer wire => cases n <;> rfl
  | apply name upstream op task wire ih =>
    cases n with
    | zero => exact congrArg (DataStream.apply name · op) (stream_setWire _ _)
    | succ n => exact congrArg (DataStream.apply name · op) (ih n)

/-- Steps of the tasks leave the receiving end of the last channel alone. -/
theorem receiver_step {T : Type} (cfg : PipelineConfig) (token : Bool) (arm : TaskArm)
    (p : Pipeline T) (n : ℕ) :
    (p.step cfg token arm n).wire.channel.taken = p.wire.channel.taken ∧
      (p.step cfg token arm n).wire.receiverDropped = p.wire.receiverDropped := by
  cases p with
  | source src drainer wire =>
    cases n with
    | succ n => exact ⟨rfl, rfl⟩
    | zero =>
      show (drainer.step _ src wire).2.channel.taken = wire.channel.taken ∧
        (drainer.step _ src wire).2.receiverDropped = wire.receiverDropped
      match drainer with
      | .fetching (e :: rest) => exact ⟨rfl, rfl⟩
      | .fetching [] => exact ⟨rfl, rfl⟩
      | .sending e rest =>
        unfold DrainerPhase.step
        dsimp only
        split_ifs with hdropped
        · exact ⟨rfl, rfl⟩
        · cases hsend : wire.channel.trySend cfg.channelBufferSize.val e with
          | none => exact ⟨rfl, rfl⟩
          | some channel => exact ⟨Channel.taken_trySend hsend, rfl⟩
      | .returned r => exact ⟨rfl, rfl⟩
  | apply name upstream op task wire =>
    cases n with
    | succ n => exact ⟨rfl, rfl⟩
    | zero => exact TaskExecutor.receiver_step cfg op token arm task upstream.wire wire

theorem taken_step {T : Type} (cfg : PipelineConfig) (token : Bool) (arm : TaskArm)
    (p : Pipeline T) (n : ℕ) :
    (p.step cfg token arm n).wire.channel.taken = p.wire.channel.taken :=
  (receiver_step cfg token arm p n).1

end Pipeline

namespace AddSink

variable {T : Type} {sink : Sink T}

theorem stream_afterCall (s : AddSink T sink.State) (r : Except TaskFailure sink.State) :
    (s.afterCall r).pipeline.stream = s.pipeline.stream := by
  cases r with
  | ok sinkState => rfl
  | error f => exact Pipeline.stream_setWire _ _

theorem stream_addSinkStep (cfg : PipelineConfig) (s : AddSink T sink.State)
    (e : PipelineEvent) : (s.step cfg sink e).pipeline.stream = s.pipeline.stream := by
  cases e with
  | cancel => rfl
  | task n arm => exact Pipeline.stream_step cfg s.token arm s.pipeline n
  | sink =>
    show (s.sinkStep sink).pipeline.stream = _
    rcases s.sinkStep_cases sink with h | ⟨e, channel, -, -, h⟩ | ⟨-, -, h⟩ | ⟨r, -, -, h⟩
    · rw [h]
    · rw [h, stream_afterCall]
      exact Pipeline.stream_setWire _ _
    · rw [h]
    · rw [h]

theorem stream_run (cfg : PipelineConfig) (stream : DataStream T) (sink : Sink T)
    (es : List PipelineEvent) : (run cfg stream sink es).pipeline.stream = stream :=
  Runs.exec_invariant (P := fun s : AddSink T sink.State => s.pipeline.stream = stream)
    (fun s e hs => (stream_addSinkStep cfg s e).trans hs) (Pipeline.stream_start stream) es

end AddSink

end Flume
