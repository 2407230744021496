import Flume.Core.Record
import Flume.Lib.Channel
import Flume.Lib.Fallible
import Flume.Lib.Framing

/-!
# The network collector

The write side of the network boundary: records are serialized, framed and batched; watermarks and
barriers travel in batches of their own. The `bitcode` crate is a parameter, a `Codec`.

* `NetworkCollector.collect`, `collectWatermark`, `collectBarrier`, `grantCredits`;
* `Event`, `run`: calls interleaved with credit grants and with the receiver taking batches;
* `flush_eq_ok`, `collect_eq_ok`, …: what a call that returns `Ok` has done.
-/

namespace Flume

open Fallible Framing Channels

/-- One message of the data exchange. -/
structure DataBatch where
  channelId : String
  payload : Bytes
  recordCount : U32
  isBarrier : Bool
  checkpointId : U64
  deriving DecidableEq

/-- The sending end of the batch channel. -/
structure BatchSender where
  capacity : ℕ
  channel : Channel DataBatch

/-- A new channel with room for `capacity` batches. -/
def BatchSender.new (capacity : ℕ) : BatchSender := ⟨capacity, {}⟩

/-- A non-blocking send; it fails when the channel is full. -/
def BatchSender.trySend (tx : BatchSender) (batch : DataBatch) : Option BatchSender :=
  (tx.channel.trySend tx.capacity batch).map fun channel => { tx with channel := channel }

/-- Serializes stream elements into data batches, within the credits it was granted. -/
structure NetworkCollector where
  channelId : String
  batchTx : BatchSender
  buffer : Bytes
  recordCount : U32
  batchSize : U32
  credits : U32

namespace NetworkCollector

variable {T : Type}

/-- A collector without credits. -/
def new (channelId : String) (batchTx : BatchSender) (batchSize : U32) : NetworkCollector where
  channelId := channelId
  batchTx := batchTx
  buffer := []
  recordCount := 0
  batchSize := batchSize
  credits := 0

/-- Calls of the collector. -/
abbrev Call : Type → Type := Fallible FlumeError NetworkCollector

/-- Adds credits, up to the largest `u32`. -/
def grantCredits (credits : U32) : Call Unit :=
  modify fun c => { c with credits := Fin.ofNat _ (min (c.credits.val + credits.val) (2 ^ 32 - 1)) }

/-- `batch_tx.try_send`. -/
def trySend (batch : DataBatch) : Call Unit := do
  let c ← get
  match c.batchTx.trySend batch with
  | some batchTx => set { c with batchTx := batchTx }
  | none => throw .channelClosed

/-- Sends the buffer as a data batch. -/
def flush : Call Unit := do
  let c ← get
  if c.buffer.isEmpty then return ()
  else if c.credits = 0 then throw .channelClosed
  else
    set { c with buffer := [], recordCount := 0, credits := c.credits - 1 }
    trySend ⟨c.channelId, c.buffer, c.recordCount, false, 0⟩

/-- `bitcode::serialize`, with its error. -/
def serialize (codec : Codec (StreamElement T)) (element : StreamElement T) : Call Bytes :=
  match codec.serialize element with
  | .ok bytes => pure bytes
  | .error e => throw (.serialization e)

/-- Appends an element to the buffer, behind its length as a `u32`. -/
def serializeElement (codec : Codec (StreamElement T)) (element : StreamElement T) : Call Unit := do
  let bytes ← serialize codec element
  modify fun c => { c with buffer := c.buffer ++ frame 4 bytes }

/-- Buffers a record, and flushes when the batch is full. -/
def collect (codec : Codec (StreamElement T)) (record : Record T) : Call Unit := do
  serializeElement codec (.record record)
  modify fun c => { c with recordCount := c.recordCount + 1 }
  let c ← get
  if c.recordCount ≥ c.batchSize then flush else return ()

/-- Sends a watermark in a batch of its own, after the buffered records. -/
def collectWatermark (codec : Codec (StreamElement T)) (watermark : Watermark) : Call Unit := do
  flush
  -- these bytes are not behind a length
  let bytes ← serialize codec (.watermark watermark)
  let c ← get
  if c.credits > 0 then
    set { c with credits := c.credits - 1 }
    trySend ⟨c.channelId, bytes, 0, false, 0⟩
  else throw .channelClosed

/-- Sends a barrier in a batch of its own, after the buffered records; it needs no credit. -/
def collectBarrier (barrier : CheckpointBarrier) : Call Unit := do
  flush
  let c ← get
  trySend ⟨c.channelId, [], 0, true, barrier.checkpointId⟩

/-- The call for an element. -/
def emit (codec : Codec (StreamElement T)) : StreamElement T → Call Unit
  | .record r => collect codec r
  | .watermark w => collectWatermark codec w
  | .checkpointBarrier b => collectBarrier b

/-- The receiver takes the next batch, if there is one. -/
def deliver : Call Unit :=
  modify fun c => match c.batchTx.channel.tryRecv with
    | .item _ channel => { c with batchTx := { c.batchTx with channel := channel } }
    | _ => c

/-- A call of the collector, a credit grant, or a step of the receiver. -/
inductive Event (T : Type)
  | emit (element : StreamElement T)
  | grant (credits : U32)
  | deliver

/-- Performs one event. -/
def process (codec : Codec (StreamElement T)) : Event T → Call Unit
  | .emit element => emit codec element
  | .grant credits => grantCredits credits
  | .deliver => deliver

/-- Performs a sequence of events, as long as every call returns `Ok`. -/
def run (codec : Codec (StreamElement T)) (events : List (Event T)) : Call Unit :=
  events.forM (process codec)

/-- The elements passed in, in order. -/
def elements (events : List (Event T)) : List (StreamElement T) :=
  events.filterMap fun | .emit element => some element | _ => none

/-- All batches handed to the channel. -/
def sent (c : NetworkCollector) : List DataBatch := c.batchTx.channel.sent

/-! ## What a call that returns `Ok` has done -/

section Calls

variable {codec : Codec (StreamElement T)} {c c' : NetworkCollector} {batch : DataBatch}

theorem trySend_state (h : (trySend batch).runOn c = (.ok (), c')) :
    ∃ channel, c' = { c with batchTx := { c.batchTx with channel := channel } } ∧
      c'.sent = c.sent ++ [batch] := by
  unfold trySend at h
  rw [runOn_bind_ok runOn_get] at h
  unfold BatchSender.trySend at h
  split at h
  · rename_i tx htx
    obtain ⟨channel, hchannel, rfl⟩ := Option.map_eq_some_iff.mp htx
    rw [runOn_set] at h
    cases h
    exact ⟨channel, rfl, Channel.sent_trySend hchannel⟩
  · rw [runOn_throw] at h
    cases h

theorem trySend_eq_ok (h : (trySend batch).runOn c = (.ok (), c')) :
    c'.sent = c.sent ++ [batch] ∧ c'.buffer = c.buffer := by
  obtain ⟨channel, rfl, hsent⟩ := trySend_state h
  exact ⟨hsent, rfl⟩

theorem flush_of_empty (h : c.buffer = []) : flush.runOn c = (.ok (), c) := by
  unfold flush
  rw [runOn_bind_ok runOn_get, runOn_ite, if_pos (by rw [h]; rfl)]
  rfl

theorem flush_eq_ok (h : flush.runOn c = (.ok (), c')) :
    c'.buffer = [] ∧ (c.buffer = [] ∧ c'.sent = c.sent ∨ ∃ batch : DataBatch,
      batch.payload = c.buffer ∧ batch.isBarrier = false ∧ c'.sent = c.sent ++ [batch]) := by
  unfold flush at h
  rw [runOn_bind_ok runOn_get, runOn_ite, runOn_ite] at h
  split_ifs at h with hempty hcredits
  · cases h
    have hnil : c.buffer = [] := List.isEmpty_iff.mp hempty
    exact ⟨hnil, Or.inl ⟨hnil, rfl⟩⟩
  · cases h
  · rw [runOn_bind_ok runOn_set] at h
    obtain ⟨hsent, hbuffer⟩ := trySend_eq_ok h
    exact ⟨hbuffer, Or.inr ⟨_, rfl, rfl, hsent⟩⟩

theorem serialize_eq_ok {element : StreamElement T} {bytes : Bytes}
    (h : (serialize codec element).runOn c = (.ok bytes, c')) :
    codec.serialize element = .ok bytes ∧ c' = c := by
  unfold serialize at h
  rcases hs : codec.serialize element with e | b <;> rw [hs] at h <;> cases h
  exact ⟨rfl, rfl⟩

theorem collect_eq_ok {record : Record T} (h : (collect codec record).runOn c = (.ok (), c')) :
    ∃ bytes, codec.serialize (.record record) = .ok bytes ∧
      (c'.buffer = c.buffer ++ frame 4 bytes ∧ c'.sent = c.sent ∨
        c'.buffer = [] ∧ ∃ batch : DataBatch, batch.payload = c.buffer ++ frame 4 bytes ∧
          batch.isBarrier = false ∧ c'.sent = c.sent ++ [batch]) := by
  unfold collect serializeElement at h
  obtain ⟨_, c₂, hframe, hcount⟩ := runOn_bind_eq_ok h
  obtain ⟨bytes, c₁, hserialize, hmodify⟩ := runOn_bind_eq_ok hframe
  obtain ⟨hbytes, hc₁⟩ := serialize_eq_ok hserialize
  rw [hc₁, runOn_modify] at hmodify
  cases hmodify
  rw [runOn_bind_ok (runOn_modify _), runOn_bind_ok runOn_get, runOn_ite] at hcount
  refine ⟨bytes, hbytes, ?_⟩
  split_ifs at hcount
  · obtain ⟨hempty, ⟨hnil, -⟩ | ⟨batch, hpayload, hbarrier, hsent⟩⟩ := flush_eq_ok hcount
    · have hlen := congrArg List.length hnil
      simp only [frame, List.length_append, length_leBytes, List.length_nil] at hlen
      omega
    · exact Or.inr ⟨hempty, batch, hpayload, hbarrier, hsent⟩
  · cases hcount
    exact Or.inl ⟨rfl, rfl⟩

theorem collectWatermark_eq_ok {watermark : Watermark}
    (h : (collectWatermark codec watermark).runOn c = (.ok (), c')) :
    ∃ bytes c₁, codec.serialize (.watermark watermark) = .ok bytes ∧
      flush.runOn c = (.ok (), c₁) ∧ c'.buffer = [] ∧ ∃ batch : DataBatch,
        batch.payload = bytes ∧ batch.isBarrier = false ∧ c'.sent = c₁.sent ++ [batch] := by
  unfold collectWatermark at h
  obtain ⟨_, c₁, hflush, hrest⟩ := runOn_bind_eq_ok h
  obtain ⟨bytes, c₂, hserialize, hsend⟩ := runOn_bind_eq_ok hrest
  obtain ⟨hbytes, hc₂⟩ := serialize_eq_ok hserialize
  rw [hc₂, runOn_bind_ok runOn_get, runOn_ite] at hsend
  split_ifs at hsend
  · rw [runOn_bind_ok runOn_set] at hsend
    obtain ⟨hsent, hbuffer⟩ := trySend_eq_ok hsend
    exact ⟨bytes, c₁, hbytes, hflush, hbuffer.trans (flush_eq_ok hflush).1, _, rfl, rfl, hsent⟩
  · cases hsend

theorem collectBarrier_eq_ok {barrier : CheckpointBarrier}
    (h : (collectBarrier barrier).runOn c = (.ok (), c')) :
    ∃ c₁, flush.runOn c = (.ok (), c₁) ∧ c'.buffer = [] ∧ ∃ batch : DataBatch,
      batch.payload = [] ∧ batch.isBarrier = true ∧ batch.checkpointId = barrier.checkpointId ∧
        c'.sent = c₁.sent ++ [batch] := by
  unfold collectBarrier at h
  obtain ⟨_, c₁, hflush, hsend⟩ := runOn_bind_eq_ok h
  rw [runOn_bind_ok runOn_get] at hsend
  obtain ⟨hsent, hbuffer⟩ := trySend_eq_ok hsend
  exact ⟨c₁, hflush, hbuffer.trans (flush_eq_ok hflush).1, _, rfl, rfl, rfl, hsent⟩

theorem grantCredits_eq_ok {credits : U32} (h : (grantCredits credits).runOn c = (.ok (), c')) :
    c'.sent = c.sent ∧ c'.buffer = c.buffer := by
  rw [grantCredits, runOn_modify] at h
  cases h
  exact ⟨rfl, rfl⟩

theorem deliver_eq_ok (h : deliver.runOn c = (.ok (), c')) :
    c'.sent = c.sent ∧ c'.buffer = c.buffer := by
  rw [deliver, runOn_modify] at h
  cases h
  split
  · rename_i batch channel hrecv
    exact ⟨Channel.sent_of_tryRecv hrecv, rfl⟩
  · exact ⟨rfl, rfl⟩

end Calls

end NetworkCollector

end Flume
