import Flume.Lib.Entries
import Flume.Lib.Runs
import Flume.Network.Collector

/-!
# The data exchange between two TaskManagers

A `NetworkCollector` puts batches into its channel, the connection carries them to the loop of
`DataExchangeServiceImpl`, and the loop routes each to its subscriber and grants credits, which
travel back. Messages of one direction keep their order and may be delayed by any time; a send that
waits for room is a step that has not happened yet.

* `ExchangeRouter.route`: the delivery of a batch to the subscriber of its channel;
* `ReceiverPc`, `Exchange.receive`: the loop of `exchange_data`, one step for each send it makes;
* `ExchangeEvent`, `Exchange.step`: the collector is called, a batch enters the connection, the
  loop takes a step, a credit grant arrives;
* `NothingInFlight`: no batch and no grant is on its way.
-/

namespace Flume

open Channels Framing Fallible

/-- Credits for the sender of a channel. -/
structure CreditGrant where
  channelId : String
  credits : U32
  deriving DecidableEq

/-- The local subscribers; each channel records what was handed to it. -/
structure ExchangeRouter where
  subscribers : AList fun _ : String => Channel DataBatch
  initialCredits : U32

namespace ExchangeRouter

/-- A router without subscribers. -/
def new (initialCredits : U32) : ExchangeRouter := ⟨∅, initialCredits⟩

/-- Registers a local channel. -/
def subscribe (router : ExchangeRouter) (channelId : String) : ExchangeRouter :=
  { router with subscribers := router.subscribers.insert channelId {} }

/-- Hands a batch to the subscriber of its channel, if there is one. -/
def route (router : ExchangeRouter) (batch : DataBatch) : Option String × ExchangeRouter :=
  match router.subscribers.lookup batch.channelId with
  | some tx =>
    if tx.closed then (none, router)
    else (some batch.channelId, { router with
      subscribers := router.subscribers.insert batch.channelId (tx.send batch) })
  | none => (none, router)

end ExchangeRouter

/-- Where the loop of `exchange_data` stands: it waits for a batch, or holds one and is about to
send the initial credits, to route the batch, or to grant a credit for it. -/
inductive ReceiverPc
  | idle
  | greeting (batch : DataBatch)
  | routing (batch : DataBatch)
  | crediting (batch : DataBatch)
  deriving DecidableEq

/-- The batch that the loop has taken but not delivered yet. -/
def ReceiverPc.batch? : ReceiverPc → Option DataBatch
  | greeting batch => some batch
  | routing batch => some batch
  | _ => none

/-- A collector, the connection, the receiving loop, and the grants on their way back. Histories:
`lostCredits` counts the credits that were spent on a batch that the channel refused, or cut off at
the largest `u32`; `barrierCredits` counts the credits granted for barriers. -/
structure Exchange where
  collector : NetworkCollector
  inbound : List DataBatch
  router : ExchangeRouter
  seenChannels : Finset String
  pc : ReceiverPc
  grants : List CreditGrant
  lostCredits : ℕ
  barrierCredits : ℕ

/-- The collector is called, a batch leaves its channel for the connection, the receiving loop takes
a step, or the collector receives a grant. -/
inductive ExchangeEvent (T : Type)
  | emit (element : StreamElement T)
  | transmit
  | receive
  | grant

/-- A batch that costs a credit. -/
def DataBatch.isData (batch : DataBatch) : Bool := !batch.isBarrier

/-- The data batches that the channel of the collector has taken. -/
def NetworkCollector.dataSent (c : NetworkCollector) : ℕ := c.sent.countP DataBatch.isData

namespace Exchange

variable {T : Type}

/-- A new collector, connected to a receiver that has a subscriber for its channel. -/
def init (channelId : String) (capacity : ℕ) (batchSize initialCredits : U32) : Exchange where
  collector := .new channelId (.new capacity) batchSize
  inbound := []
  router := (ExchangeRouter.new initialCredits).subscribe channelId
  seenChannels := ∅
  pc := .idle
  grants := []
  lostCredits := 0
  barrierCredits := 0

/-- A call of the collector, whether it returns `Ok` or not. -/
def emit (codec : Codec (StreamElement T)) (s : Exchange) (element : StreamElement T) : Exchange :=
  let c := ((NetworkCollector.emit codec element).runOn s.collector).2
  { s with
    collector := c
    lostCredits := s.lostCredits +
      (s.collector.credits.val - c.credits.val - (c.dataSent - s.collector.dataSent)) }

/-- A batch enters the connection. -/
def transmit (s : Exchange) : Exchange :=
  match s.collector.batchTx.channel.tryRecv with
  | .item batch channel => { s with
      collector := { s.collector with batchTx := { s.collector.batchTx with channel := channel } }
      inbound := s.inbound ++ [batch] }
  | _ => s

/-- One step of the loop of `exchange_data`. -/
def receive (s : Exchange) : Exchange :=
  match s.pc with
  | .idle =>
    match s.inbound with
    | batch :: inbound =>
      if batch.channelId ∈ s.seenChannels then { s with inbound := inbound, pc := .routing batch }
      else { s with
        inbound := inbound
        seenChannels := insert batch.channelId s.seenChannels
        pc := .greeting batch }
    | [] => s
  | .greeting batch => { s with
      grants := s.grants ++ [⟨batch.channelId, s.router.initialCredits⟩]
      pc := .routing batch }
  | .routing batch =>
    match s.router.route batch with
    | (some _, router) => { s with router := router, pc := .crediting batch }
    | (none, router) => { s with router := router, pc := .idle }
  | .crediting batch => { s with
      grants := s.grants ++ [⟨batch.channelId, 1⟩]
      pc := .idle
      barrierCredits := s.barrierCredits + batch.isBarrier.toNat }

/-- A grant arrives at the sender, which passes it to the collector of the channel. -/
def grant (s : Exchange) : Exchange :=
  match s.grants with
  | g :: grants =>
    if g.channelId = s.collector.channelId then
      let c := ((NetworkCollector.grantCredits g.credits).runOn s.collector).2
      { s with
        collector := c
        grants := grants
        lostCredits := s.lostCredits + (s.collector.credits.val + g.credits.val - c.credits.val) }
    else { s with grants := grants }
  | [] => s

/-- The exchange after an event. -/
def step (codec : Codec (StreamElement T)) (s : Exchange) : ExchangeEvent T → Exchange
  | .emit element => s.emit codec element
  | .transmit => s.transmit
  | .receive => s.receive
  | .grant => s.grant

/-- No batch and no grant is on its way. -/
def NothingInFlight (s : Exchange) : Prop :=
  s.collector.batchTx.channel.queue = [] ∧ s.inbound = [] ∧ s.pc = .idle ∧ s.grants = []

instance (s : Exchange) : Decidable (NothingInFlight s) :=
  inferInstanceAs (Decidable (_ ∧ _ ∧ _ ∧ _))

/-- The collector holds records that it cannot send for want of credits, and no message is on its
way that could bring any. -/
def Deadlocked (s : Exchange) : Prop :=
  s.collector.buffer ≠ [] ∧ s.collector.credits = 0 ∧ s.NothingInFlight

instance (s : Exchange) : Decidable (Deadlocked s) :=
  inferInstanceAs (Decidable (_ ∧ _ ∧ _))

end Exchange

/-! ## A collector without credits -/

namespace NetworkCollector

variable {T : Type} {codec : Codec (StreamElement T)} {c : NetworkCollector}

theorem flush_of_broke (h : c.buffer ≠ []) (hcredits : c.credits = 0) :
    flush.runOn c = (.error .channelClosed, c) := by
  unfold flush
  rw [runOn_bind_ok runOn_get, runOn_ite, runOn_ite, if_neg (by simpa using h), if_pos hcredits]
  rfl

theorem flush_broke (hcredits : c.credits = 0) : (flush.runOn c).2 = c := by
  by_cases h : c.buffer = []
  · rw [flush_of_empty h]
  · rw [flush_of_broke h hcredits]

theorem collectWatermark_broke (hcredits : c.credits = 0) (watermark : Watermark) :
    ((collectWatermark codec watermark).runOn c).2 = c := by
  unfold collectWatermark
  refine runOn_bind_keeps (P := (· = c)) (flush_broke hcredits) fun _ c₁ hc₁ => ?_
  subst hc₁
  refine runOn_bind_keeps (P := (· = c₁)) ?_ fun bytes c₂ hc₂ => ?_
  · unfold serialize
    cases codec.serialize (.watermark watermark) <;> rfl
  · subst hc₂
    rw [runOn_bind_ok runOn_get, runOn_ite, if_neg (by simp [hcredits])]
    rfl

theorem collect_broke (hcredits : c.credits = 0) {record : Record T} {bytes : Bytes}
    (h : codec.serialize (.record record) = .ok bytes) :
    ((collect codec record).runOn c).2 =
      { c with buffer := c.buffer ++ frame 4 bytes, recordCount := c.recordCount + 1 } := by
  have hserialize : (serializeElement codec (.record record)).runOn c =
      (.ok (), { c with buffer := c.buffer ++ frame 4 bytes }) := by
    have hbytes : (serialize codec (.record record)).runOn c = (.ok bytes, c) := by
      unfold serialize
      rw [h]
      rfl
    unfold serializeElement
    rw [runOn_bind_ok hbytes, runOn_modify]
  unfold collect
  rw [runOn_bind_ok hserialize, runOn_bind_ok (runOn_modify _), runOn_bind_ok runOn_get, runOn_ite]
  split_ifs
  · exact flush_broke hcredits
  · rfl

theorem collect_refused {record : Record T} {e : String}
    (h : codec.serialize (.record record) = .error e) :
    ((collect codec record).runOn c).2 = c := by
  have hserialize : (serializeElement codec (.record record)).runOn c =
      (.error (.serialization e), c) := by
    have herror : (serialize codec (.record record)).runOn c = (.error (.serialization e), c) := by
      unfold serialize
      rw [h]
      rfl
    unfold serializeElement
    rw [runOn_bind_error herror]
  unfold collect
  rw [runOn_bind_error hserialize]

end NetworkCollector

end Flume
