import Mathlib.Data.Fin.Basic
import Mathlib.Logic.Function.Basic
import Flume.Core.Record
import Flume.Lib.Runs

/-!
# The SPSC ring buffer

A producer calls `try_send`, a consumer `try_recv` and `recv`; they share two sequence numbers, a
`closed` flag and a `Notify`. Every access to a shared variable is a step of its own.

* `ProducerPc`, `ConsumerPc`: where the current call of either end stands;
* `RingBuffer`: the shared variables, the caches of the two ends, and the results of their calls;
* `RingBuffer.producerStep`, `RingBuffer.consumerStep`: the calls of the source, step by step;
* `RingEvent`, `RingBuffer.step`: both ends in any order.
-/

namespace Flume

variable {T : Type}

/-- A slot of the buffer; `none` is not initialized. -/
abbrev MaybeUninit (T : Type) : Type := Option T

/-- The producer: between calls, at the steps of `try_send value`, or in its `Drop`. `published`
keeps the sequence number that the call has written. -/
inductive ProducerPc (T : Type)
  | idle
  | check (value : T)
  | reload (value : T)
  | write (value : T)
  | publish (value : T)
  | published (write : U64)
  | dropping
  | dropped
  deriving DecidableEq

/-- Who called `try_recv`: the user, or one of the places in `recv`. -/
inductive RecvSite
  | user
  | fastPath
  | spin (k : ℕ)
  | afterWakeup
  | drain
  deriving DecidableEq

/-- The consumer: between calls, at the steps of a `try_recv`, or in `recv` outside of one. -/
inductive ConsumerPc (T : Type)
  | idle
  | check (site : RecvSite)
  | reload (site : RecvSite)
  | read (site : RecvSite)
  | advance (site : RecvSite) (value : MaybeUninit T)
  | checkClosed (afterWakeup : Bool)
  | park
  | parked
  deriving DecidableEq

/-- The ring buffer and its two ends. -/
structure RingBuffer (T : Type) where
  buffer : U64 → MaybeUninit T
  mask : U64
  writeSeq : U64
  readSeq : U64
  closed : Bool
  /-- `Notify` stores at most one permit. -/
  permit : Bool
  cachedReadSeq : U64
  producer : ProducerPc T
  cachedWriteSeq : U64
  consumer : ConsumerPc T
  /-- Results of `try_send`: `Ok` or `Err(Full(value))`. -/
  sendResults : List (Except T Unit)
  /-- Results of `try_recv` and `recv`. -/
  recvResults : List (Option (MaybeUninit T))

/-- `usize::next_power_of_two`, which wraps to 0 in a release build. -/
def nextPowerOfTwo (capacity : U64) : U64 := Fin.ofNat _ (Nat.nextPowerOfTwo capacity)

/-- `SPIN_LIMIT`. -/
def spinLimit : ℕ := 32

namespace RingBuffer

/-- `ring_buffer(capacity)`. -/
def ringBuffer (T : Type) (capacity : U64) : RingBuffer T where
  buffer _ := none
  mask := max (nextPowerOfTwo capacity) 2 - 1
  writeSeq := 0
  readSeq := 0
  closed := false
  permit := false
  cachedReadSeq := 0
  producer := .idle
  cachedWriteSeq := 0
  consumer := .idle
  sendResults := []
  recvResults := []

/-- `notify_one` wakes the parked waiter, or else stores a permit. -/
def notifyOne (s : RingBuffer T) : RingBuffer T :=
  if s.consumer matches .parked then { s with consumer := .check .afterWakeup }
  else { s with permit := true }

/-- The next step of the producer's current call. -/
def producerStep (s : RingBuffer T) : RingBuffer T :=
  match s.producer with
  | .idle => s
  | .check value =>
    if s.writeSeq - s.cachedReadSeq > s.mask then { s with producer := .reload value }
    else { s with producer := .write value }
  | .reload value =>
    if s.writeSeq - s.readSeq > s.mask then
      { s with
        cachedReadSeq := s.readSeq
        producer := .idle
        sendResults := s.sendResults ++ [.error value] }
    else { s with cachedReadSeq := s.readSeq, producer := .write value }
  | .write value =>
    { s with
      buffer := Function.update s.buffer (s.writeSeq &&& s.mask) (some value)
      producer := .publish value }
  | .publish _ => { s with writeSeq := s.writeSeq + 1, producer := .published s.writeSeq }
  | .published write =>
    let s' := if write = s.cachedReadSeq then s.notifyOne else s
    { s' with producer := .idle, sendResults := s.sendResults ++ [.ok ()] }
  | .dropping => { s.notifyOne with producer := .dropped }
  | .dropped => s

/-- The current `try_recv` has returned `result` to `site`. -/
def returned (s : RingBuffer T) (site : RecvSite) (result : Option (MaybeUninit T)) :
    RingBuffer T :=
  match site, result with
  | .fastPath, none => { s with consumer := .check (.spin 0) }
  | .spin k, none =>
    if k + 1 < spinLimit then { s with consumer := .check (.spin (k + 1)) }
    else { s with consumer := .checkClosed false }
  | .afterWakeup, none => { s with consumer := .checkClosed true }
  | _, result => { s with consumer := .idle, recvResults := s.recvResults ++ [result] }

/-- The next step of the consumer's current call. -/
def consumerStep (s : RingBuffer T) : RingBuffer T :=
  match s.consumer with
  | .idle => s
  | .check site =>
    if s.readSeq ≥ s.cachedWriteSeq then { s with consumer := .reload site }
    else { s with consumer := .read site }
  | .reload site =>
    if s.readSeq ≥ s.writeSeq then { s with cachedWriteSeq := s.writeSeq }.returned site none
    else { s with cachedWriteSeq := s.writeSeq, consumer := .read site }
  | .read site => { s with consumer := .advance site (s.buffer (s.readSeq &&& s.mask)) }
  | .advance site value => { s with readSeq := s.readSeq + 1 }.returned site (some value)
  | .checkClosed afterWakeup =>
    if s.closed then { s with consumer := .check .drain }
    else if afterWakeup then { s with consumer := .check (.spin 0) }
    else { s with consumer := .park }
  | .park =>
    if s.permit then { s with permit := false, consumer := .check .afterWakeup }
    else { s with consumer := .parked }
  | .parked => s

end RingBuffer

/-- A call starts or takes a step, on either end. -/
inductive RingEvent (T : Type)
  | trySend (value : T)
  | dropProducer
  | producer
  | recv
  | tryRecv
  | consumer

namespace RingBuffer

/-- The system of producer and consumer. -/
def step (s : RingBuffer T) : RingEvent T → RingBuffer T
  | .trySend value => if s.producer matches .idle then { s with producer := .check value } else s
  | .dropProducer =>
    if s.producer matches .idle then { s with closed := true, producer := .dropping } else s
  | .producer => s.producerStep
  | .recv => if s.consumer matches .idle then { s with consumer := .check .fastPath } else s
  | .tryRecv => if s.consumer matches .idle then { s with consumer := .check .user } else s
  | .consumer => s.consumerStep

/-- The state after a run. -/
def run (capacity : U64) (es : List (RingEvent T)) : RingBuffer T :=
  Runs.exec step (ringBuffer T capacity) es

end RingBuffer

end Flume
