import Flume.Core.Record
import Flume.Lib.Emitter

/-!
# Operators

An operator processes one element at a time and pushes what it emits to a collector.

* `Operator`: its calls, as programs that emit;
* `Operator.Deterministic`: what a successful call emits does not depend on the collector's answers;
* `MapOperator`, `FilterOperator`, `FlatMapOperator`: the stateless operators, which are
  deterministic.
-/

namespace Flume

open Emitters

/-- How a task fails: with an error, or by a panic that its join handle reports. -/
inductive TaskFailure
  | error (e : FlumeError)
  | panicked (joinErr : String)
  deriving DecidableEq

/-- A call of an operator: it pushes elements to its collector and ends with the operator's next
state. -/
abbrev Call (Out State : Type) : Type := Emitter (StreamElement Out) TaskFailure State

/-- An operator; watermarks and barriers are forwarded unchanged by default. -/
structure Operator (In Out : Type) where
  State : Type
  initial : State
  processRecord : State → Record In → Call Out State
  processWatermark : State → Watermark → Call Out State := fun s watermark => do
    Emitter.send (.watermark watermark)
    return s
  processBarrier : State → CheckpointBarrier → Call Out State := fun s barrier => do
    Emitter.send (.checkpointBarrier barrier)
    return s

namespace Operator

variable {In Out : Type}

/-- The call for one element. -/
def process (op : Operator In Out) (s : op.State) : StreamElement In → Call Out op.State
  | .record record => op.processRecord s record
  | .watermark watermark => op.processWatermark s watermark
  | .checkpointBarrier barrier => op.processBarrier s barrier

/-- What a call that returns `Ok` has put into the collector, and the state it leaves, are functions
of the state and the element. -/
def Deterministic (op : Operator In Out) : Prop := ∀ s e, (op.process s e).Deterministic

/-- What the operator emits for a list of elements, with a collector that accepts everything, and
its state after them. -/
def feed (op : Operator In Out) (es : List (StreamElement In)) :
    List (StreamElement Out) × Except TaskFailure op.State :=
  Emitter.feed op.process op.initial es

end Operator

/-! ## Stateless operators -/

section Stateless

variable {In Out T σ : Type}

/-- Transforms each value; the closure may have a state of its own. -/
def MapOperator (initial : σ) (f : σ → In → Out × σ) : Operator In Out where
  State := σ
  initial := initial
  processRecord s record := do
    let (value, s') := f s record.value
    Emitter.send (.record ⟨value, record.timestamp, record.key⟩)
    return s'

/-- Passes the records whose value satisfies the predicate. -/
def FilterOperator (initial : σ) (predicate : σ → T → Bool × σ) : Operator T T where
  State := σ
  initial := initial
  processRecord s record := do
    let (passes, s') := predicate s record.value
    if passes then Emitter.send (.record record)
    return s'

/-- Expands each value; the new records have the timestamp of the old one, and no key. -/
def FlatMapOperator (initial : σ) (f : σ → In → List Out × σ) : Operator In Out where
  State := σ
  initial := initial
  processRecord s record := do
    let (outputs, s') := f s record.value
    outputs.forM fun value => Emitter.send (.record ⟨value, record.timestamp, none⟩)
    return s'

theorem deterministic_of_handsOn {initial : σ} {f : σ → Record In → Call Out σ}
    (h : ∀ s r, (f s r).HandsOn) :
    Operator.Deterministic { State := σ, initial := initial, processRecord := f } := by
  intro s e
  apply Emitter.HandsOn.deterministic
  cases e with
  | record r => exact h s r
  | watermark w => exact Emitter.handsOn_bind (Emitter.handsOn_send _) fun _ => trivial
  | checkpointBarrier b => exact Emitter.handsOn_bind (Emitter.handsOn_send _) fun _ => trivial

theorem deterministic_map (initial : σ) (f : σ → In → Out × σ) :
    (MapOperator initial f).Deterministic :=
  deterministic_of_handsOn fun _ _ =>
    Emitter.handsOn_bind (Emitter.handsOn_send _) fun _ => trivial

theorem deterministic_filter (initial : σ) (predicate : σ → T → Bool × σ) :
    (FilterOperator initial predicate).Deterministic := by
  refine deterministic_of_handsOn fun s r => ?_
  dsimp only
  split_ifs
  · exact Emitter.handsOn_bind (Emitter.handsOn_send _) fun _ => trivial
  · exact Emitter.handsOn_bind (Emitter.handsOn_pure _) fun _ => trivial

theorem deterministic_flatMap (initial : σ) (f : σ → In → List Out × σ) :
    (FlatMapOperator initial f).Deterministic :=
  deterministic_of_handsOn fun _ _ =>
    Emitter.handsOn_bind (Emitter.handsOn_forM fun _ => Emitter.handsOn_send _) fun _ => trivial

end Stateless

end Flume
