import Flume.Core.Operator
import Flume.Lib.Channel
import Flume.Runtime.RingBuffer

/-!
# Operator tasks

A task reads elements from its input, calls its operator with each, and the operator pushes elements
to a collector that never waits. Between two calls of the collector the rest of the pipeline may
run, so every one of them is a step of its own.

* `Wire`: a channel between two tasks; `PipelineConfig.collect`: the collectors of both kinds;
* `TaskExecutor.step`: one step of the hot loop;
* **`collect_cases`**, `collect_eq_channelClosed_iff`: a collector accepts an element, or its
  channel is full or has no receiver.
-/

namespace Flume

open Channels Emitters

/-! ## Channels between tasks -/

/-- The two channel implementations. -/
inductive ChannelKind
  | mpsc
  | ringBuffer
  deriving DecidableEq

/-- The channels of a pipeline. -/
structure PipelineConfig where
  channelKind : ChannelKind
  channelBufferSize : U64
  positive : 1 ≤ channelBufferSize

/-- A channel; its receiver may have been dropped. -/
structure Wire (T : Type) where
  channel : Channel (StreamElement T) := {}
  receiverDropped : Bool := false

namespace Wire

variable {T : Type}

/-- The sender is dropped. -/
def closeSender (w : Wire T) : Wire T := { w with channel := w.channel.close }

/-- The receiver is dropped. -/
def dropReceiver (w : Wire T) : Wire T := { w with receiverDropped := true }

end Wire

namespace ChannelCollector

/-- `try_send`; a full channel is reported as a closed one. -/
def trySend {T : Type} (capacity : ℕ) (w : Wire T) (e : StreamElement T) :
    Except FlumeError Unit × Wire T :=
  if w.receiverDropped then (.error .channelClosed, w)
  else match w.channel.trySend capacity e with
    | some channel => (.ok (), { w with channel := channel })
    | none => (.error .channelClosed, w)

end ChannelCollector

namespace RingBufferCollector

/-- `try_send`; a full buffer is reported as a closed one, and whether there is a consumer is not
asked. -/
def trySend {T : Type} (capacity : ℕ) (w : Wire T) (e : StreamElement T) :
    Except FlumeError Unit × Wire T :=
  match w.channel.trySend capacity e with
  | some channel => (.ok (), { w with channel := channel })
  | none => (.error .channelClosed, w)

end RingBufferCollector

namespace PipelineConfig

variable {T : Type}

/-- The defaults. -/
def default : PipelineConfig := ⟨.mpsc, 1024, by decide⟩

/-- How many elements a channel between operators holds. -/
def capacity (cfg : PipelineConfig) : ℕ :=
  match cfg.channelKind with
  | .mpsc => cfg.channelBufferSize.val
  | .ringBuffer => (max (nextPowerOfTwo cfg.channelBufferSize) 2).val

/-- The collector of `operator_channel_with_kind`. -/
def collect (cfg : PipelineConfig) (w : Wire T) (e : StreamElement T) :
    Except FlumeError Unit × Wire T :=
  match cfg.channelKind with
  | .mpsc => ChannelCollector.trySend cfg.capacity w e
  | .ringBuffer => RingBufferCollector.trySend cfg.capacity w e

end PipelineConfig

/-! ## The hot loop -/

/-- A task waits for its next element, is in a call of its operator, or has returned. -/
inductive TaskPhase (State Out : Type)
  | polling (s : State)
  | calling (call : Call Out State)
  | returned (r : Except TaskFailure Unit)

/-- The local variables of the hot loop. -/
structure TaskExecutor (State Out : Type) where
  phase : TaskPhase State Out
  cancelled : Bool

/-- The arms of `select!`. -/
inductive TaskArm
  | recv
  | cancelled
  deriving DecidableEq

namespace TaskExecutor

variable {In Out : Type}

/-- The task has not run yet. -/
def new (op : Operator In Out) : TaskExecutor op.State Out where
  phase := .polling op.initial
  cancelled := false

/-- The task returns, and drops its input and its collector. -/
def finish {State : Type} (task : TaskExecutor State Out) (r : Except TaskFailure Unit)
    (input : Wire In) (output : Wire Out) : TaskExecutor State Out × Wire In × Wire Out :=
  ({ task with phase := .returned r }, input.dropReceiver, output.closeSender)

/-- One step of the loop. The token's arm is only there before it was taken once; that it yields to
an element that is ready is left open. -/
def step (cfg : PipelineConfig) (op : Operator In Out) (token : Bool) (arm : TaskArm)
    (task : TaskExecutor op.State Out) (input : Wire In) (output : Wire Out) :
    TaskExecutor op.State Out × Wire In × Wire Out :=
  match task.phase, arm with
  | .polling s, .recv =>
    match input.channel.tryRecv with
    | .item e channel =>
      ({ task with phase := .calling (op.process s e) }, { input with channel := channel }, output)
    | .empty => (task, input, output)
    | .disconnected => task.finish (.ok ()) input output
  | .polling _, .cancelled =>
    (if token && !task.cancelled then { task with cancelled := true } else task, input, output)
  | .calling (.done (.ok s)), _ => ({ task with phase := .polling s }, input, output)
  | .calling (.done (.error f)), _ => task.finish (.error f) input output
  | .calling (.emit e next), _ =>
    let sent := cfg.collect output e
    ({ task with phase := .calling (next (sent.1.mapError .error)) }, input, sent.2)
  | .returned _, _ => (task, input, output)

end TaskExecutor

/-! ## What a collector does -/

section Collect

variable {T : Type} (cfg : PipelineConfig) (w : Wire T) (e : StreamElement T)

/-- **A collector accepts an element or reports a closed channel**, which is one whose receiver is
gone or that is full. -/
theorem collect_cases :
    (∃ channel, cfg.collect w e = (.ok (), { w with channel := channel }) ∧
      channel.sent = w.channel.sent ++ [e] ∧ channel.taken = w.channel.taken ∧
      channel.closed = w.channel.closed) ∨
    (cfg.collect w e = (.error .channelClosed, w) ∧
      (w.receiverDropped = true ∨ cfg.capacity ≤ w.channel.queue.length)) := by
  have hsend : (∃ channel, w.channel.trySend cfg.capacity e = some channel ∧
      channel.sent = w.channel.sent ++ [e] ∧ channel.taken = w.channel.taken ∧
      channel.closed = w.channel.closed) ∨
      (w.channel.trySend cfg.capacity e = none ∧ cfg.capacity ≤ w.channel.queue.length) := by
    unfold Channel.trySend
    split_ifs with hroom
    · exact .inl ⟨_, rfl, (List.append_assoc _ _ _).symm, rfl, rfl⟩
    · exact .inr ⟨rfl, not_lt.mp hroom⟩
  unfold PipelineConfig.collect ChannelCollector.trySend RingBufferCollector.trySend
  rcases hsend with ⟨channel, hsome, hsent⟩ | ⟨hnone, hfull⟩
  · cases cfg.channelKind with
    | mpsc =>
      dsimp only
      split_ifs with hdropped
      · exact .inr ⟨rfl, .inl hdropped⟩
      · rw [hsome]
        exact .inl ⟨channel, rfl, hsent⟩
    | ringBuffer =>
      dsimp only
      rw [hsome]
      exact .inl ⟨channel, rfl, hsent⟩
  · rw [hnone]
    refine .inr ⟨?_, .inr hfull⟩
    cases cfg.channelKind <;> simp

/-- **When a collector reports a closed channel.** The one over a ring buffer does so only when the
buffer is full. -/
theorem collect_eq_channelClosed_iff : (cfg.collect w e).1 = .error .channelClosed ↔
    (cfg.channelKind = .mpsc ∧ w.receiverDropped = true) ∨
      cfg.capacity ≤ w.channel.queue.length := by
  unfold PipelineConfig.collect ChannelCollector.trySend RingBufferCollector.trySend
    Channel.trySend
  cases cfg.channelKind with
  | mpsc =>
    dsimp only
    split_ifs with hdropped hroom
    · simp [hdropped]
    · simp [hdropped, hroom]
    · simp [not_lt.mp hroom]
  | ringBuffer =>
    dsimp only
    split_ifs with hroom
    · simp [hroom]
    · simp [not_lt.mp hroom]

end Collect

namespace TaskExecutor

variable {In Out : Type}

theorem receiver_step (cfg : PipelineConfig) (op : Operator In Out) (token : Bool) (arm : TaskArm)
    (task : TaskExecutor op.State Out) (input : Wire In) (output : Wire Out) :
    (task.step cfg op token arm input output).2.2.channel.taken = output.channel.taken ∧
      (task.step cfg op token arm input output).2.2.receiverDropped = output.receiverDropped := by
  obtain ⟨phase, cancelled⟩ := task
  match phase, arm with
  | .polling s, .recv =>
    unfold step
    dsimp only
    cases input.channel.tryRecv <;> exact ⟨rfl, rfl⟩
  | .polling s, .cancelled => exact ⟨rfl, rfl⟩
  | .calling (.done (.ok s)), _ => exact ⟨rfl, rfl⟩
  | .calling (.done (.error f)), _ => exact ⟨rfl, rfl⟩
  | .calling (.emit e next), _ =>
    unfold step
    dsimp only
    rcases collect_cases cfg output e with ⟨channel, hcollect, -, htaken, -⟩ | ⟨hcollect, -⟩
    · rw [hcollect]
      exact ⟨htaken, rfl⟩
    · rw [hcollect]
      exact ⟨rfl, rfl⟩
  | .returned r, _ => cases arm <;> exact ⟨rfl, rfl⟩

end TaskExecutor

end Flume
