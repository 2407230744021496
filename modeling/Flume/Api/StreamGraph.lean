import Flume.Api.PipelineComplete
import Flume.Runtime.MergeWatermark

/-!
# Connected streams

`connect`, `window_join` and `interval_join` give a stream a second input, which is a source. Two
tasks feed the channels of a merger, which is a third task, and the operator reads what the merger
sends; all of these channels are bounded.

* `StreamGraph`: a source, an operator on a stream, or an operator on a stream and a second source;
* `KeyExtractor`, `keyed`: the keys that the feeding tasks attach;
* `Connection`: the two feeding tasks and the merger; `stepInput1`, `stepInput2`, `stepMerge`;
* `RunningGraph`, `RunningGraph.step`: all tasks, one of which takes a step;
* `SinkTask`, `GraphRun`: the drain loop of `add_sink`, and the whole system;
* **`input1_cases`**, **`input2_cases`**, **`merge_cases`**, **`SinkTask.step_cases`**: all that one
  step can do.
-/

namespace Flume

open Channels Emitters

/-- A boxed `key_fn`; calling it may change its state. -/
structure KeyExtractor (T : Type) where
  State : Type
  state : State
  extract : State → T → Bytes × State

/-- What a feeding task does with an element before it sends it, and its `key_fn` afterwards. -/
def applyKeyFn {T : Type} :
    Option (KeyExtractor T) → StreamElement T → StreamElement T × Option (KeyExtractor T)
  | some f, .record record =>
    (.record { record with key := some (f.extract f.state record.value).1 },
      some { f with state := (f.extract f.state record.value).2 })
  | keyFn, e => (e, keyFn)

/-- A list of elements with their keys, and the `key_fn` after them. -/
def keyed {T : Type} :
    Option (KeyExtractor T) → List (StreamElement T) →
      List (StreamElement T) × Option (KeyExtractor T)
  | keyFn, [] => ([], keyFn)
  | keyFn, e :: es =>
    ((applyKeyFn keyFn e).1 :: (keyed (applyKeyFn keyFn e).2 es).1,
      (keyed (applyKeyFn keyFn e).2 es).2)

/-- A stream with the operators and the second sources it was made with. -/
inductive StreamGraph : Type → Type 1
  | source {T : Type} (src : Source T) : StreamGraph T
  | apply {In Out : Type} (name : String) (upstream : StreamGraph In) (op : Operator In Out) :
      StreamGraph Out
  | connect {In1 In2 Out : Type} (name : String) (upstream : StreamGraph In1) (source2 : Source In2)
      (keyFn1 : Option (KeyExtractor In1)) (keyFn2 : Option (KeyExtractor In2))
      (op : Operator (Either In1 In2) Out) : StreamGraph Out

/-! ## The tasks of a connection -/

/-- A task that feeds the merger: before it has its next element, at `tx.send(element)`, or
returned. -/
inductive FeedPhase (T : Type) : Type 1
  | fetching (keyFn : Option (KeyExtractor T))
  | sending (e : StreamElement T) (keyFn : Option (KeyExtractor T))
  | returned (r : Except TaskFailure Unit)

/-- The tasks `connected-input1`, `connected-input2` and `two-input-merge`. `rest2` is what the
second source has not returned yet, `unsent` what the current round of the merger has still to send;
the channels `rx1` and `rx2` are in the merger, which has dropped them once it has returned. -/
structure Connection (In1 In2 : Type) where
  input1 : FeedPhase In1
  input2 : FeedPhase In2
  rest2 : List (StreamElement In2)
  merger : TwoInputMerge In1 In2
  unsent : List (StreamElement (Either In1 In2))
  mergeResult : Option (Except TaskFailure Unit)
  merged : Wire (Either In1 In2)

namespace Connection

variable {In1 In2 : Type}

/-- The tasks before their first step. -/
def new (source2 : Source In2) (keyFn1 : Option (KeyExtractor In1))
    (keyFn2 : Option (KeyExtractor In2)) : Connection In1 In2 where
  input1 := .fetching keyFn1
  input2 := .fetching keyFn2
  rest2 := source2.elements
  merger := .init In1 In2
  unsent := []
  mergeResult := none
  merged := {}

/-- `connected-input1` returns, and drops its input and `tx1`. -/
def returnInput1 (c : Connection In1 In2) (upstream : Wire In1) (r : Except TaskFailure Unit) :
    Wire In1 × Connection In1 In2 :=
  (upstream.dropReceiver, { c with input1 := .returned r, merger := c.merger.step .close1 })

/-- One step of `connected-input1`. -/
def stepInput1 (bufferSize : ℕ) (upstream : Wire In1) (c : Connection In1 In2) :
    Wire In1 × Connection In1 In2 :=
  match c.input1 with
  | .fetching keyFn =>
    match upstream.channel.tryRecv with
    | .item e channel =>
      ({ upstream with channel := channel },
        { c with input1 := .sending (applyKeyFn keyFn e).1 (applyKeyFn keyFn e).2 })
    | .empty => (upstream, c)
    | .disconnected => c.returnInput1 upstream (.ok ())
  | .sending e keyFn =>
    if c.mergeResult.isSome then c.returnInput1 upstream (.error (.error .channelClosed))
    else if c.merger.input1.queue.length < bufferSize then
      (upstream, { c with input1 := .fetching keyFn, merger := c.merger.step (.send1 e) })
    else (upstream, c)
  | .returned _ => (upstream, c)

/-- `connected-input2` returns, and drops `tx2`. -/
def returnInput2 (c : Connection In1 In2) (r : Except TaskFailure Unit) : Connection In1 In2 :=
  { c with input2 := .returned r, merger := c.merger.step .close2 }

/-- One step of `connected-input2`. -/
def stepInput2 (bufferSize : ℕ) (source2 : Source In2) (c : Connection In1 In2) :
    Connection In1 In2 :=
  match c.input2 with
  | .fetching keyFn =>
    match c.rest2 with
    | e :: rest =>
      { c with
        input2 := .sending (applyKeyFn keyFn e).1 (applyKeyFn keyFn e).2
        rest2 := rest }
    | [] => c.returnInput2 source2.ending
  | .sending e keyFn =>
    if c.mergeResult.isSome then c.returnInput2 (.error (.error .channelClosed))
    else if c.merger.input2.queue.length < bufferSize then
      { c with input2 := .fetching keyFn, merger := c.merger.step (.send2 e) }
    else c
  | .returned _ => c

/-- `two-input-merge` returns, and drops its channels. -/
def returnMerge (c : Connection In1 In2) (r : Except FlumeError Unit) : Connection In1 In2 :=
  { c with mergeResult := some (r.mapError .error), merged := c.merged.closeSender }

/-- One step of `two-input-merge`: a send of the current round, each of which may have to wait for
room, or the next round. -/
def stepMerge (bufferSize : ℕ) (preferred : MergeInput) (c : Connection In1 In2) :
    Connection In1 In2 :=
  match c.mergeResult with
  | some _ => c
  | none =>
    match c.unsent with
    | e :: rest =>
      if c.merged.receiverDropped then c.returnMerge (.error .channelClosed)
      else match c.merged.channel.trySend bufferSize e with
        | some channel => { c with unsent := rest, merged := { c.merged with channel := channel } }
        | none => c
    | [] =>
      let merger := c.merger.poll preferred
      let polled := { c with
        merger := merger
        unsent := merger.output.drop c.merger.output.length }
      match merger.result with
      | none => polled
      | some r => polled.returnMerge r

end Connection

/-! ## The tasks of a graph -/

/-- The running tasks of a graph, each with its output channel. -/
inductive RunningGraph : Type → Type 1
  | source {T : Type} (src : Source T) (drainer : DrainerPhase T) (wire : Wire T) : RunningGraph T
  | apply {In Out : Type} (name : String) (upstream : RunningGraph In) (op : Operator In Out)
      (task : TaskExecutor op.State Out) (wire : Wire Out) : RunningGraph Out
  | connect {In1 In2 Out : Type} (name : String) (upstream : RunningGraph In1)
      (source2 : Source In2) (keyFn1 : Option (KeyExtractor In1))
      (keyFn2 : Option (KeyExtractor In2)) (op : Operator (Either In1 In2) Out)
      (conn : Connection In1 In2) (task : TaskExecutor op.State Out) (wire : Wire Out) :
      RunningGraph Out

/-- Spawns the tasks. -/
def StreamGraph.start {T : Type} : StreamGraph T → RunningGraph T
  | source src => .source src (.fetching src.elements) {}
  | apply name upstream op => .apply name upstream.start op (TaskExecutor.new op) {}
  | connect name upstream source2 keyFn1 keyFn2 op =>
    .connect name upstream.start source2 keyFn1 keyFn2 op (.new source2 keyFn1 keyFn2)
      (TaskExecutor.new op) {}

/-! The results of tasks that have returned. -/

def DrainerPhase.result? {T : Type} : DrainerPhase T → Option (Except TaskFailure Unit)
  | .returned r => some r
  | _ => none

def FeedPhase.result? {T : Type} : FeedPhase T → Option (Except TaskFailure Unit)
  | .returned r => some r
  | _ => none

def TaskPhase.result? {State Out : Type} : TaskPhase State Out → Option (Except TaskFailure Unit)
  | .returned r => some r
  | _ => none

namespace RunningGraph

variable {T : Type}

/-- The output channel of the last task. -/
def wire {T : Type} : RunningGraph T → Wire T
  | source _ _ wire => wire
  | apply _ _ _ _ wire => wire
  | connect _ _ _ _ _ _ _ _ wire => wire

/-- Change the output channel of the last task. -/
def setWire {T : Type} : RunningGraph T → Wire T → RunningGraph T
  | source src drainer _, wire => source src drainer wire
  | apply name upstream op task _, wire => apply name upstream op task wire
  | connect name upstream source2 keyFn1 keyFn2 op conn task _, wire =>
    connect name upstream source2 keyFn1 keyFn2 op conn task wire

/-- The id of the last node in the logical graph. -/
def nodeId {T : Type} : RunningGraph T → ℕ
  | source _ _ _ => 0
  | apply _ upstream _ _ _ => upstream.nodeId + 1
  | connect _ upstream _ _ _ _ _ _ _ => upstream.nodeId + 1

/-- The handles of the tasks, in the order in which they were spawned: names and results. -/
def handles {T : Type} : RunningGraph T → List (String × Option (Except TaskFailure Unit))
  | source _ drainer _ => [("source-drainer", drainer.result?)]
  | apply name upstream _ task _ =>
    upstream.handles ++ [(name ++ "-" ++ toString (upstream.nodeId + 1), task.phase.result?)]
  | connect name upstream _ _ _ _ conn task _ =>
    upstream.handles ++ [("connected-input1", conn.input1.result?),
      ("connected-input2", conn.input2.result?), ("two-input-merge", conn.mergeResult),
      (name ++ "-" ++ toString (upstream.nodeId + 1), task.phase.result?)]

/-- The `n`-th task from the end takes a step; `preferred` is for a merger, `arm` for an operator.
-/
def step {T : Type} (cfg : PipelineConfig) (token : Bool) (arm : TaskArm) (preferred : MergeInput) :
    RunningGraph T → ℕ → RunningGraph T
  | source src drainer wire, 0 =>
    let stepped := drainer.step cfg.channelBufferSize.val src wire
    source src stepped.1 stepped.2
  | source src drainer wire, _ + 1 => source src drainer wire
  | apply name upstream op task wire, 0 =>
    let stepped := task.step cfg op token arm upstream.wire wire
    apply name (upstream.setWire stepped.2.1) op stepped.1 stepped.2.2
  | apply name upstream op task wire, n + 1 =>
    apply name (upstream.step cfg token arm preferred n) op task wire
  | connect name upstream source2 keyFn1 keyFn2 op conn task wire, 0 =>
    let stepped := task.step cfg op token arm conn.merged wire
    connect name upstream source2 keyFn1 keyFn2 op { conn with merged := stepped.2.1 } stepped.1
      stepped.2.2
  | connect name upstream source2 keyFn1 keyFn2 op conn task wire, 1 =>
    connect name upstream source2 keyFn1 keyFn2 op
      (conn.stepMerge cfg.channelBufferSize.val preferred) task wire
  | connect name upstream source2 keyFn1 keyFn2 op conn task wire, 2 =>
    connect name upstream source2 keyFn1 keyFn2 op
      (conn.stepInput2 cfg.channelBufferSize.val source2) task wire
  | connect name upstream source2 keyFn1 keyFn2 op conn task wire, 3 =>
    let stepped := conn.stepInput1 cfg.channelBufferSize.val upstream.wire
    connect name (upstream.setWire stepped.1) source2 keyFn1 keyFn2 op stepped.2 task wire
  | connect name upstream source2 keyFn1 keyFn2 op conn task wire, n + 4 =>
    connect name (upstream.step cfg token arm preferred n) source2 keyFn1 keyFn2 op conn task wire

end RunningGraph

/-! ## Draining into a sink -/

/-- The drain loop of `add_sink`; `written` are the records passed to `sink.write` so far. -/
structure SinkTask (T State : Type) where
  sinkState : State
  phase : SinkPhase
  written : List (Record T)

namespace SinkTask

variable {T State : Type}

/-- A call of the sink has returned; an error drops the receiver. -/
def afterCall (t : SinkTask T State) (wire : Wire T) :
    Except TaskFailure State → SinkTask T State × Wire T
  | .ok sinkState => ({ t with sinkState := sinkState }, wire)
  | .error f => ({ t with phase := .returned (.error f) }, wire.dropReceiver)

/-- One round of the drain loop, or the end of waiting for the tasks. -/
def step (sink : Sink T) (handles : List (String × Option (Except TaskFailure Unit)))
    (t : SinkTask T sink.State) (wire : Wire T) : SinkTask T sink.State × Wire T :=
  match t.phase with
  | .draining =>
    match wire.channel.tryRecv with
    | .item e channel =>
      afterCall { t with written := t.written ++ e.record?.toList } { wire with channel := channel }
        (sink.absorb t.sinkState e)
    | .empty => (t, wire)
    | .disconnected => ({ t with phase := .waiting }, wire)
  | .waiting =>
    match waitAll handles with
    | none => (t, wire)
    | some r => ({ t with phase := .returned (r.mapError .error) }, wire)
  | .returned _ => (t, wire)

end SinkTask

/-- `add_sink` with its tasks. -/
structure GraphRun (T State : Type) where
  graph : RunningGraph T
  sinkTask : SinkTask T State
  token : Bool

/-- A task takes a step, the sink does, or the scheduler's token is cancelled. -/
inductive GraphEvent
  | task (n : ℕ) (arm : TaskArm) (preferred : MergeInput)
  | sink
  | cancel

namespace GraphRun

variable {T State : Type}

/-- The system of tasks, sink and scheduler. -/
def step (cfg : PipelineConfig) (sink : Sink T) (s : GraphRun T sink.State) :
    GraphEvent → GraphRun T sink.State
  | .task n arm preferred => { s with graph := s.graph.step cfg s.token arm preferred n }
  | .sink =>
    let stepped := s.sinkTask.step sink s.graph.handles s.graph.wire
    { s with graph := s.graph.setWire stepped.2, sinkTask := stepped.1 }
  | .cancel => { s with token := true }

/-- `add_sink` has just been called. -/
def init (graph : StreamGraph T) (sink : Sink T) : GraphRun T sink.State where
  graph := graph.start
  sinkTask := ⟨sink.initial, .draining, []⟩
  token := false

/-- The state after a run. -/
def run (cfg : PipelineConfig) (graph : StreamGraph T) (sink : Sink T) (es : List GraphEvent) :
    GraphRun T sink.State :=
  Runs.exec (step cfg sink) (init graph sink) es

/-- `add_sink` has returned `Ok`. -/
def ReturnsOk (s : GraphRun T State) : Prop := s.sinkTask.phase = .returned (.ok ())

/-- The elements that `add_sink` has received. -/
def taken (s : GraphRun T State) : List (StreamElement T) := s.graph.wire.channel.taken

end GraphRun

/-! ## What a step does -/

namespace Connection

variable {In1 In2 : Type}

/-- The steps of `connected-input1`. -/
inductive FeedsFirst (bufferSize : ℕ) (upstream : Wire In1) (c : Connection In1 In2) :
    Wire In1 × Connection In1 In2 → Prop
  | idle : FeedsFirst bufferSize upstream c (upstream, c)
  | receive (keyFn : Option (KeyExtractor In1)) (e : StreamElement In1)
      (channel : Channel (StreamElement In1)) (hphase : c.input1 = .fetching keyFn)
      (hrecv : upstream.channel.tryRecv = .item e channel) :
      FeedsFirst bufferSize upstream c ({ upstream with channel := channel },
        { c with input1 := .sending (applyKeyFn keyFn e).1 (applyKeyFn keyFn e).2 })
  | send (keyFn : Option (KeyExtractor In1)) (e : StreamElement In1)
      (hphase : c.input1 = .sending e keyFn) (hroom : c.merger.input1.queue.length < bufferSize) :
      FeedsFirst bufferSize upstream c
        (upstream, { c with input1 := .fetching keyFn, merger := c.merger.step (.send1 e) })
  | finish (keyFn : Option (KeyExtractor In1)) (hphase : c.input1 = .fetching keyFn)
      (hrecv : upstream.channel.tryRecv = .disconnected) :
      FeedsFirst bufferSize upstream c (c.returnInput1 upstream (.ok ()))
  | fail (keyFn : Option (KeyExtractor In1)) (e : StreamElement In1)
      (hphase : c.input1 = .sending e keyFn) (hgone : c.mergeResult.isSome) :
      FeedsFirst bufferSize upstream c
        (c.returnInput1 upstream (.error (.error .channelClosed)))

/-- **All that a step of `connected-input1` can do.** -/
theorem input1_cases (bufferSize : ℕ) (upstream : Wire In1) (c : Connection In1 In2) :
    FeedsFirst bufferSize upstream c (c.stepInput1 bufferSize upstream) := by
  unfold stepInput1
  cases hphase : c.input1 with
  | returned r => exact .idle
  | fetching keyFn =>
    dsimp only
    cases hrecv : upstream.channel.tryRecv with
    | item e channel => exact .receive keyFn e channel hphase hrecv
    | empty => exact .idle
    | disconnected => exact .finish keyFn hphase hrecv
  | sending e keyFn =>
    dsimp only
    split_ifs with hgone hroom
    · exact .fail keyFn e hphase hgone
    · exact .send keyFn e hphase hroom
    · exact .idle

/-- The steps of `connected-input2`. -/
inductive FeedsSecond (bufferSize : ℕ) (source2 : Source In2) (c : Connection In1 In2) :
    Connection In1 In2 → Prop
  | idle : FeedsSecond bufferSize source2 c c
  | fetch (keyFn : Option (KeyExtractor In2)) (e : StreamElement In2)
      (rest : List (StreamElement In2)) (hphase : c.input2 = .fetching keyFn)
      (hrest : c.rest2 = e :: rest) :
      FeedsSecond bufferSize source2 c { c with
        input2 := .sending (applyKeyFn keyFn e).1 (applyKeyFn keyFn e).2
        rest2 := rest }
  | send (keyFn : Option (KeyExtractor In2)) (e : StreamElement In2)
      (hphase : c.input2 = .sending e keyFn) (hroom : c.merger.input2.queue.length < bufferSize) :
      FeedsSecond bufferSize source2 c
        { c with input2 := .fetching keyFn, merger := c.merger.step (.send2 e) }
  | finish (keyFn : Option (KeyExtractor In2)) (hphase : c.input2 = .fetching keyFn)
      (hrest : c.rest2 = []) : FeedsSecond bufferSize source2 c (c.returnInput2 source2.ending)
  | fail (keyFn : Option (KeyExtractor In2)) (e : StreamElement In2)
      (hphase : c.input2 = .sending e keyFn) (hgone : c.mergeResult.isSome) :
      FeedsSecond bufferSize source2 c (c.returnInput2 (.error (.error .channelClosed)))

/-- **All that a step of `connected-input2` can do.** -/
theorem input2_cases (bufferSize : ℕ) (source2 : Source In2) (c : Connection In1 In2) :
    FeedsSecond bufferSize source2 c (c.stepInput2 bufferSize source2) := by
  unfold stepInput2
  cases hphase : c.input2 with
  | returned r => exact .idle
  | fetching keyFn =>
    dsimp only
    cases hrest : c.rest2 with
    | nil => exact .finish keyFn hphase hrest
    | cons e rest => exact .fetch keyFn e rest hphase hrest
  | sending e keyFn =>
    dsimp only
    split_ifs with hgone hroom
    · exact .fail keyFn e hphase hgone
    · exact .send keyFn e hphase hroom
    · exact .idle

/-- A round has been run, and its elements are still to be sent. -/
def polled (c : Connection In1 In2) (preferred : MergeInput) : Connection In1 In2 :=
  { c with
    merger := c.merger.poll preferred
    unsent := (c.merger.poll preferred).output.drop c.merger.output.length }

/-- The steps of `two-input-merge`. -/
inductive MergeSteps (bufferSize : ℕ) (preferred : MergeInput) (c : Connection In1 In2) :
    Connection In1 In2 → Prop
  | idle : MergeSteps bufferSize preferred c c
  | send (e : StreamElement (Either In1 In2)) (rest : List (StreamElement (Either In1 In2)))
      (channel : Channel (StreamElement (Either In1 In2))) (hresult : c.mergeResult = none)
      (hunsent : c.unsent = e :: rest)
      (hsend : c.merged.channel.trySend bufferSize e = some channel) :
      MergeSteps bufferSize preferred c
        { c with unsent := rest, merged := { c.merged with channel := channel } }
  | fail (e : StreamElement (Either In1 In2)) (rest : List (StreamElement (Either In1 In2)))
      (hresult : c.mergeResult = none) (hunsent : c.unsent = e :: rest)
      (hdropped : c.merged.receiverDropped = true) :
      MergeSteps bufferSize preferred c (c.returnMerge (.error .channelClosed))
  | poll (hresult : c.mergeResult = none) (hunsent : c.unsent = [])
      (hpoll : (c.merger.poll preferred).result = none) :
      MergeSteps bufferSize preferred c (c.polled preferred)
  | finish (r : Except FlumeError Unit) (hresult : c.mergeResult = none) (hunsent : c.unsent = [])
      (hpoll : (c.merger.poll preferred).result = some r) :
      MergeSteps bufferSize preferred c ((c.polled preferred).returnMerge r)

/-- **All that a step of `two-input-merge` can do.** -/
theorem merge_cases (bufferSize : ℕ) (preferred : MergeInput) (c : Connection In1 In2) :
    MergeSteps bufferSize preferred c (c.stepMerge bufferSize preferred) := by
  obtain ⟨input1, input2, rest2, merger, unsent, mergeResult, merged⟩ := c
  unfold stepMerge
  cases mergeResult with
  | some r => exact .idle
  | none =>
    cases unsent with
    | cons e rest =>
      dsimp only
      split_ifs with hdropped
      · exact .fail e rest rfl rfl hdropped
      · cases hsend : merged.channel.trySend bufferSize e with
        | none => exact .idle
        | some channel => exact .send e rest channel rfl rfl hsend
    | nil =>
      dsimp only
      cases hpoll : (merger.poll preferred).result with
      | none => exact .poll rfl rfl hpoll
      | some r => exact .finish r rfl rfl hpoll

end Connection

namespace SinkTask

variable {T : Type} {sink : Sink T}

/-- The steps of the drain loop. -/
inductive Drains (sink : Sink T) (handles : List (String × Option (Except TaskFailure Unit)))
    (t : SinkTask T sink.State) (wire : Wire T) : SinkTask T sink.State × Wire T → Prop
  | idle : Drains sink handles t wire (t, wire)
  | absorb (e : StreamElement T) (channel : Channel (StreamElement T)) (sinkState : sink.State)
      (hphase : t.phase = .draining) (hrecv : wire.channel.tryRecv = .item e channel)
      (hcall : sink.absorb t.sinkState e = .ok sinkState) :
      Drains sink handles t wire (⟨sinkState, t.phase, t.written ++ e.record?.toList⟩,
        { wire with channel := channel })
  | fail (e : StreamElement T) (channel : Channel (StreamElement T)) (f : TaskFailure)
      (hphase : t.phase = .draining) (hrecv : wire.channel.tryRecv = .item e channel)
      (hcall : sink.absorb t.sinkState e = .error f) :
      Drains sink handles t wire
        (⟨t.sinkState, .returned (.error f), t.written ++ e.record?.toList⟩,
          { wire with channel := channel }.dropReceiver)
  | drained (hphase : t.phase = .draining) (hrecv : wire.channel.tryRecv = .disconnected) :
      Drains sink handles t wire ({ t with phase := .waiting }, wire)
  | joined (r : Except FlumeError Unit) (hphase : t.phase = .waiting)
      (hwait : waitAll handles = some r) :
      Drains sink handles t wire ({ t with phase := .returned (r.mapError .error) }, wire)

/-- **All that a step of the drain loop can do.** -/
theorem step_cases (handles : List (String × Option (Except TaskFailure Unit)))
    (t : SinkTask T sink.State) (wire : Wire T) :
    Drains sink handles t wire (t.step sink handles wire) := by
  obtain ⟨state, phase, written⟩ := t
  unfold step
  cases phase with
  | returned r => exact .idle
  | draining =>
    dsimp only
    cases hrecv : wire.channel.tryRecv with
    | empty => exact .idle
    | disconnected => exact .drained rfl hrecv
    | item e channel =>
      dsimp only
      cases hcall : sink.absorb state e with
      | ok sinkState => exact .absorb e channel sinkState rfl hrecv hcall
      | error f => exact .fail e channel f rfl hrecv hcall
  | waiting =>
    dsimp only
    cases hwait : waitAll handles with
    | none => exact .idle
    | some r => exact .joined r rfl hwait

end SinkTask

end Flume
