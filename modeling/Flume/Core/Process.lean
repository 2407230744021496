import Flume.Core.Timer
import Flume.Core.WindowOperator

/-!
# Process functions

A process function sees one record at a time and may register timers, which call it back when the
watermark reaches them. What a callback does is known only while it runs: it is a program that calls
its context and its collector and goes on with their answers.

* `Callback`: such a program; `perform` runs it;
* `ProcessFunction`, `KeyedProcessFunction`, `CoProcessFunction`: the callbacks of the user;
* `TimedOperator`: what the three adapters share, with `processRecord`, `processWatermark`,
  `processBarrier`;
* `ProcessOperator`, `KeyedProcessOperator`, `CoProcessOperator`: the adapters;
* `run`: any sequence of calls. An error ends the call, not the run.
-/

namespace Flume

open Fallible

/-! ## Callbacks -/

/-- The context of a record. -/
structure ProcessContext where
  timestamp : EventTimestamp
  currentKey : Option Bytes

/-- The context of a timer. -/
structure OnTimerContext where
  currentWatermark : EventTimestamp

/-- The calls of a timer service that register and delete timers. -/
inductive TimerCall
  | registerEventTimeTimer (time : EventTimestamp)
  | deleteEventTimeTimer (time : EventTimestamp)
  | registerProcessingTimeTimer (time : EventTimestamp)
  | deleteProcessingTimeTimer (time : EventTimestamp)

/-- A callback of a process function with state `σ`: it ends with a result, or makes a call and goes
on with the answer. The values of side outputs are a `Side`. -/
inductive Callback (Out Side σ : Type) : Type
  | done (result : Except FlumeError Unit) (fn : σ)
  | collect (element : StreamElement Out) (next : Except FlumeError Unit → Callback Out Side σ)
  | sideOutput (tagId : String) (value : Side)
      (next : Except FlumeError Unit → Callback Out Side σ)
  | timer (call : TimerCall) (next : Callback Out Side σ)
  | currentWatermark (next : EventTimestamp → Callback Out Side σ)
  | currentProcessingTime (next : EventTimestamp → Callback Out Side σ)

/-- The callbacks of a process function; those of a timer have no side outputs. -/
structure ProcessFunction (In Out Side σ : Type) where
  processElement : σ → In → ProcessContext → Callback Out Side σ
  onTimer : σ → EventTimestamp → OnTimerContext → Callback Out Empty σ

/-- The callbacks of a process function that gets the partition key. -/
structure KeyedProcessFunction (In Out Side σ : Type) where
  processElement : σ → Bytes → In → ProcessContext → Callback Out Side σ
  onTimer : σ → EventTimestamp → Bytes → OnTimerContext → Callback Out Empty σ

/-- The callbacks of a process function with two inputs. -/
structure CoProcessFunction (In1 In2 Out Side σ : Type) where
  processElement1 : σ → In1 → ProcessContext → Callback Out Side σ
  processElement2 : σ → In2 → ProcessContext → Callback Out Side σ
  onTimer : σ → EventTimestamp → OnTimerContext → Callback Out Empty σ

/-! ## The operator and its surroundings -/

/-- Emits values to the side output of a tag, with the timestamp and key of a record. -/
abbrev SideOutputEmitter (C Side : Type) : Type :=
  String → Side → EventTimestamp → Option Bytes → Fallible FlumeError C Unit

/-- What is around an operator, with a state `C`: its collector and the clock. -/
structure Environment (C Out : Type) where
  collector : Collector C Out
  clock : Fallible FlumeError C EventTimestamp

/-- What happens to timers: a history that no code reads. `onTimer` has the current key of the
timer service at the time of the call. -/
inductive TimerEvent
  | registered (timer : Timer)
  | deleted (timer : Timer)
  | onTimer (timer : Timer) (currentKey : Bytes)
  | forwarded (watermark : Watermark)
  deriving DecidableEq

/-- An operator with its surroundings. -/
structure ProcessState (σ C : Type) where
  fn : σ
  timerService : TimerServiceImpl
  outside : C
  history : List TimerEvent

/-- The timers that wait for a watermark. -/
abbrev ProcessState.timers {σ C : Type} (s : ProcessState σ C) : SortedSet Timer :=
  s.timerService.queue.eventTimeTimers

/-- Calls of an operator with timers. -/
abbrev ProcessCall (σ C : Type) : Type → Type := Fallible FlumeError (ProcessState σ C)

/-- What the three adapters share: the callbacks, given the key of a record or timer, and the key
that the context of a record shows. -/
structure TimedOperator (In Out Side σ C : Type) where
  contextKey : Record In → Option Bytes
  processElement : σ → Bytes → In → ProcessContext → Callback Out Side σ
  onTimer : σ → Timer → OnTimerContext → Callback Out Empty σ
  sideOutputs : Option (SideOutputEmitter C Side)

section Adapters

variable {In In1 In2 Out Side σ C : Type}

/-- Wraps a `ProcessFunction`. -/
def ProcessOperator (processFn : ProcessFunction In Out Side σ)
    (sideOutputs : Option (SideOutputEmitter C Side)) : TimedOperator In Out Side σ C where
  contextKey record := record.key
  processElement fn _ value ctx := processFn.processElement fn value ctx
  onTimer fn timer ctx := processFn.onTimer fn timer.time ctx
  sideOutputs := sideOutputs

/-- Wraps a `KeyedProcessFunction`. -/
def KeyedProcessOperator (processFn : KeyedProcessFunction In Out Side σ)
    (sideOutputs : Option (SideOutputEmitter C Side)) : TimedOperator In Out Side σ C where
  contextKey record := some (record.key.getD [])
  processElement fn key value ctx := processFn.processElement fn key value ctx
  onTimer fn timer ctx := processFn.onTimer fn timer.time timer.key ctx
  sideOutputs := sideOutputs

/-- Wraps a `CoProcessFunction`. -/
def CoProcessOperator (coProcessFn : CoProcessFunction In1 In2 Out Side σ)
    (sideOutputs : Option (SideOutputEmitter C Side)) :
    TimedOperator (Either In1 In2) Out Side σ C where
  contextKey record := record.key
  processElement fn _ value ctx :=
    match value with
    | .left value => coProcessFn.processElement1 fn value ctx
    | .right value => coProcessFn.processElement2 fn value ctx
  onTimer fn timer ctx := coProcessFn.onTimer fn timer.time ctx
  sideOutputs := sideOutputs

end Adapters

/-! ## Running a callback -/

section Perform

variable {Out Side σ C α : Type}

/-- The call of a collector for an element. -/
def Collector.push (collector : Collector C Out) : StreamElement Out → Fallible FlumeError C Unit
  | .record r => collector.collect r
  | .watermark w => collector.collectWatermark w
  | .checkpointBarrier b => collector.collectBarrier b

/-- A call of the surroundings, which answer with a value or an error. -/
def onOutside (x : Fallible FlumeError C α) : ProcessCall σ C (Except FlumeError α) := do
  let s ← get
  set { s with outside := (x.runOn s.outside).2 }
  return (x.runOn s.outside).1

theorem runOn_onOutside {x : Fallible FlumeError C α} {s : ProcessState σ C} :
    (onOutside x : ProcessCall σ C _).runOn s =
      (.ok (x.runOn s.outside).1, { s with outside := (x.runOn s.outside).2 }) := rfl

/-- Emits a value to a side output. -/
def ProcessContext.sideOutput (ctx : ProcessContext)
    (sideOutputs : Option (SideOutputEmitter C Side)) (tagId : String) (value : Side) :
    Fallible FlumeError C Unit :=
  match sideOutputs with
  | some emit => emit tagId value ctx.timestamp ctx.currentKey
  | none => throw (.operator "no side output emitter configured")

/-- The timer service after a call. -/
def TimerServiceImpl.call (s : TimerServiceImpl) : TimerCall → TimerServiceImpl
  | .registerEventTimeTimer time => s.registerEventTimeTimer time
  | .deleteEventTimeTimer time => s.deleteEventTimeTimer time
  | .registerProcessingTimeTimer time => s.registerProcessingTimeTimer time
  | .deleteProcessingTimeTimer time => s.deleteProcessingTimeTimer time

/-- What a call does to the event-time timers of a key. -/
def TimerCall.events (key : Bytes) : TimerCall → List TimerEvent
  | registerEventTimeTimer time => [.registered ⟨time, key⟩]
  | deleteEventTimeTimer time => [.deleted ⟨time, key⟩]
  | _ => []

/-- A call of the timer service. -/
def callTimers (call : TimerCall) : ProcessCall σ C Unit :=
  modify fun s => { s with
    timerService := s.timerService.call call
    history := s.history ++ call.events s.timerService.currentKey }

/-- Runs a callback. -/
def Callback.perform (env : Environment C Out) (side : String → Side → Fallible FlumeError C Unit) :
    Callback Out Side σ → ProcessCall σ C Unit
  | .done result fn => do
    modify fun s => { s with fn := fn }
    outcome result
  | .collect element next => do
    let answer ← onOutside (env.collector.push element)
    (next answer).perform env side
  | .sideOutput tagId value next => do
    let answer ← onOutside (side tagId value)
    (next answer).perform env side
  | .timer call next => do
    callTimers call
    next.perform env side
  | .currentWatermark next => do
    let s ← get
    (next s.timerService.currentWatermark).perform env side
  | .currentProcessingTime next => do
    -- a clock before the epoch reads 0
    let time ← onOutside env.clock
    (next (time.toOption.getD 0)).perform env side

end Perform

/-! ## The calls of the operator -/

namespace TimedOperator

variable {In Out Side σ C : Type}

/-- Calls the process function with a record; timers are registered for its key. -/
def processRecord (op : TimedOperator In Out Side σ C) (env : Environment C Out)
    (record : Record In) : ProcessCall σ C Unit := do
  let key := record.key.getD []
  modify fun s => { s with timerService := s.timerService.setCurrentKey key }
  let ctx : ProcessContext := ⟨record.timestamp, op.contextKey record⟩
  let s ← get
  (op.processElement s.fn key record.value ctx).perform env (ctx.sideOutput op.sideOutputs)

/-- Calls the process function with a timer; timers are registered for its key. -/
def fire (op : TimedOperator In Out Side σ C) (env : Environment C Out) (watermark : Watermark)
    (timer : Timer) : ProcessCall σ C Unit := do
  modify fun s => { s with timerService := s.timerService.setCurrentKey timer.key }
  modify fun s => { s with history := s.history ++ [.onTimer timer s.timerService.currentKey] }
  let s ← get
  (op.onTimer s.fn timer ⟨watermark.timestamp⟩).perform env fun _ value => nomatch value

/-- The timers that are due are taken out of the queue at once, and fired one after the other. -/
def takeDue (watermark : Watermark) : ProcessCall σ C (List Timer) := do
  modify fun s => { s with timerService := s.timerService.setWatermark watermark.timestamp }
  let s ← get
  let (fired, queue) := s.timerService.queue.fireEventTimeUpTo watermark.timestamp
  set { s with timerService := { s.timerService with queue := queue } }
  return fired

/-- Fires the timers that are due, and forwards the watermark. -/
def processWatermark (op : TimedOperator In Out Side σ C) (env : Environment C Out)
    (watermark : Watermark) : ProcessCall σ C Unit := do
  let fired ← takeDue watermark
  fired.forM (op.fire env watermark)
  modify fun s => { s with history := s.history ++ [.forwarded watermark] }
  let answer ← onOutside (env.collector.collectWatermark watermark)
  outcome answer

/-- Forwards a barrier. -/
def processBarrier (env : Environment C Out) (barrier : CheckpointBarrier) :
    ProcessCall σ C Unit := do
  let answer ← onOutside (env.collector.collectBarrier barrier)
  outcome answer

/-- Processes one element. -/
def process (op : TimedOperator In Out Side σ C) (env : Environment C Out) :
    StreamElement In → ProcessCall σ C Unit
  | .record record => op.processRecord env record
  | .watermark watermark => op.processWatermark env watermark
  | .checkpointBarrier barrier => processBarrier env barrier

/-- An operator before its first call. -/
def init (fn : σ) (outside : C) : ProcessState σ C := ⟨fn, .new, outside, []⟩

/-- The state after a call, whether it returns `Ok` or not. -/
def step (op : TimedOperator In Out Side σ C) (env : Environment C Out) (s : ProcessState σ C)
    (input : StreamElement In) : ProcessState σ C := ((op.process env input).runOn s).2

/-- The state after a sequence of calls. -/
def run (op : TimedOperator In Out Side σ C) (env : Environment C Out) (fn : σ) (outside : C)
    (inputs : List (StreamElement In)) : ProcessState σ C :=
  Runs.exec (op.step env) (init fn outside) inputs

end TimedOperator

end Flume
