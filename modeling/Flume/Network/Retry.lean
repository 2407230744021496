import Flume.Lib.Runs
import Flume.Network.RoundTrip

/-!
# What a failed call leaves behind

A caller may want to retry a call that failed. The collector fails at different points: before it
has changed anything, after a record is in the buffer, or after the buffer and a credit are gone.

* `runOn_trySend`, `runOn_flush`: the calls with all their outcomes;
* `Account`: a collector with the records that it accepted and the credits that failed calls
  consumed;
* `Conserved`: nothing was lost or duplicated;
* **`conserved_iff`**: when nothing is ever lost or duplicated.
-/

namespace Flume.NetworkCollector

open Channels Fallible Framing

variable {T : Type} {codec : Codec (StreamElement T)} {c c' : NetworkCollector} {batch : DataBatch}

/-! ## The calls with all their outcomes -/

/-- The channel has room for `n` batches. -/
def HasRoom (c : NetworkCollector) (n : ℕ) : Prop :=
  c.batchTx.channel.queue.length + n ≤ c.batchTx.capacity

instance (n : ℕ) : Decidable (c.HasRoom n) := inferInstanceAs (Decidable (_ ≤ _))

/-- The channel has taken the batch. -/
def push (c : NetworkCollector) (batch : DataBatch) : NetworkCollector :=
  { c with batchTx := { c.batchTx with
      channel := { c.batchTx.channel with queue := c.batchTx.channel.queue ++ [batch] } } }

@[simp] theorem sent_push : (c.push batch).sent = c.sent ++ [batch] :=
  (List.append_assoc _ _ _).symm

@[simp] theorem buffer_push : (c.push batch).buffer = c.buffer := rfl

theorem hasRoom_push {n : ℕ} : (c.push batch).HasRoom n ↔ c.HasRoom (n + 1) := by
  unfold HasRoom push
  dsimp only
  rw [List.length_append, List.length_singleton, add_assoc, add_comm 1 n]

theorem HasRoom.mono {m n : ℕ} (h : c.HasRoom n) (hmn : m ≤ n) : c.HasRoom m :=
  le_trans (Nat.add_le_add_left hmn _) h

theorem runOn_trySend : (trySend batch).runOn c =
    if c.HasRoom 1 then (.ok (), c.push batch) else (.error .channelClosed, c) := by
  unfold trySend BatchSender.trySend Channel.trySend
  rw [runOn_bind_ok runOn_get]
  by_cases hroom : c.HasRoom 1
  · have hlt : c.batchTx.channel.queue.length < c.batchTx.capacity := Nat.lt_of_succ_le hroom
    rw [if_pos hroom, if_pos hlt]
    rfl
  · have hnot : ¬ c.batchTx.channel.queue.length < c.batchTx.capacity :=
      fun hlt => hroom (Nat.succ_le_of_lt hlt)
    rw [if_neg hroom, if_neg hnot]
    rfl

/-- The buffer as a batch. -/
def bufferBatch (c : NetworkCollector) : DataBatch := ⟨c.channelId, c.buffer, c.recordCount, false, 0⟩

/-- The buffer is taken, and a credit is paid for it. -/
def takeBuffer (c : NetworkCollector) : NetworkCollector :=
  { c with buffer := [], recordCount := 0, credits := c.credits - 1 }

theorem runOn_flush : flush.runOn c =
    if c.buffer = [] then (.ok (), c)
    else if c.credits = 0 then (.error .channelClosed, c)
    else if c.HasRoom 1 then (.ok (), c.takeBuffer.push c.bufferBatch)
    else (.error .channelClosed, c.takeBuffer) := by
  unfold flush
  rw [runOn_bind_ok runOn_get, runOn_ite, runOn_ite]
  by_cases hempty : c.buffer = []
  · rw [if_pos hempty, if_pos (List.isEmpty_iff.mpr hempty)]
    rfl
  · rw [if_neg hempty, if_neg (by simpa using hempty)]
    by_cases hcredits : c.credits = 0
    · rw [if_pos hcredits, if_pos hcredits, runOn_throw]
    · rw [if_neg hcredits, if_neg hcredits, runOn_bind_ok runOn_set]
      exact runOn_trySend

/-- The buffer with one more record. -/
def addRecord (c : NetworkCollector) (bytes : Bytes) : NetworkCollector :=
  { c with buffer := c.buffer ++ frame 4 bytes, recordCount := c.recordCount + 1 }

theorem runOn_serialize_ok {element : StreamElement T} {bytes : Bytes}
    (h : codec.serialize element = .ok bytes) :
    (serialize codec element).runOn c = (.ok bytes, c) := by
  unfold serialize
  rw [h]
  rfl

theorem runOn_serialize_error {element : StreamElement T} {e : String}
    (h : codec.serialize element = .error e) :
    (serialize codec element).runOn c = (.error (.serialization e), c) := by
  unfold serialize
  rw [h]
  rfl

theorem runOn_collect_error {record : Record T} {e : String}
    (h : codec.serialize (.record record) = .error e) :
    (collect codec record).runOn c = (.error (.serialization e), c) := by
  unfold collect serializeElement
  exact runOn_bind_error (runOn_bind_error (runOn_serialize_error h) _) _

theorem runOn_collect_ok {record : Record T} {bytes : Bytes}
    (h : codec.serialize (.record record) = .ok bytes) :
    (collect codec record).runOn c =
      if c.recordCount + 1 ≥ c.batchSize then flush.runOn (c.addRecord bytes)
      else (.ok (), c.addRecord bytes) := by
  unfold collect serializeElement
  rw [runOn_bind_ok ((runOn_bind_ok (runOn_serialize_ok h) _).trans (runOn_modify _)),
    runOn_bind_ok (runOn_modify _), runOn_bind_ok runOn_get, runOn_ite]
  rfl

theorem runOn_sendForCredit (batch : NetworkCollector → DataBatch) :
    (do
      let c ← get
      if c.credits > 0 then
        set { c with credits := c.credits - 1 }
        trySend (batch c)
      else throw .channelClosed : Call Unit).runOn c =
    if c.credits = 0 then (.error .channelClosed, c)
    else if c.HasRoom 1 then (.ok (), { c with credits := c.credits - 1 }.push (batch c))
    else (.error .channelClosed, { c with credits := c.credits - 1 }) := by
  rw [runOn_bind_ok runOn_get, runOn_ite]
  by_cases hcredits : c.credits = 0
  · rw [if_pos hcredits, if_neg (by rw [hcredits]; exact lt_irrefl _), runOn_throw]
  · rw [if_neg hcredits, if_pos (Fin.pos_iff_ne_zero.mpr hcredits), runOn_bind_ok runOn_set,
      runOn_trySend]
    rfl

/-! ## What the callers know -/

/-- A collector with the frames of the records that it accepted, and the credits that went with
calls that failed. -/
structure Account where
  collector : NetworkCollector
  accepted : List Bytes
  wasted : ℕ

/-- The frame of a record whose `collect` returned `Ok`. -/
def acceptedBy (codec : Codec (StreamElement T)) : Event T → Except FlumeError Unit → List Bytes
  | .emit (.record record), .ok _ =>
    match codec.serialize (.record record) with
    | .ok bytes => [frame 4 bytes]
    | .error _ => []
  | _, _ => []

/-- The credits that a call consumed, if it failed. -/
def wastedBy (c c' : NetworkCollector) : Except FlumeError Unit → ℕ
  | .ok _ => 0
  | .error _ => c.credits.val - c'.credits.val

/-- The account after a call, whether it returns `Ok` or not. -/
def Account.step (codec : Codec (StreamElement T)) (a : Account) (event : Event T) : Account :=
  let called := (process codec event).runOn a.collector
  ⟨called.2, a.accepted ++ acceptedBy codec event called.1,
    a.wasted + wastedBy a.collector called.2 called.1⟩

/-- A new collector, before its first call. -/
def Account.init (channelId : String) (capacity : ℕ) (batchSize : U32) : Account :=
  ⟨.new channelId (.new capacity) batchSize, [], 0⟩

/-- The record frames in a batch; a batch for a watermark or a barrier counts no records. -/
def recordFrames (batch : DataBatch) : Bytes :=
  if batch.recordCount = 0 then [] else batch.payload

/-- **Nothing was lost or duplicated**: the record frames in the batches that were sent, followed by
the buffer, are those of the accepted records; and no call that failed has consumed a credit. -/
def Account.Conserved (a : Account) : Prop :=
  a.collector.sent.flatMap recordFrames ++ a.collector.buffer = a.accepted.flatten ∧ a.wasted = 0

/-- The call does not fail after it has changed something. -/
def Admissible (codec : Codec (StreamElement T)) (c : NetworkCollector) : Event T → Prop
  -- a record that makes its batch full can be sent
  | .emit (.record record) => ∀ bytes, codec.serialize (.record record) = .ok bytes →
      c.recordCount + 1 ≥ c.batchSize → c.credits ≠ 0 ∧ c.HasRoom 1
  -- without a buffer the watermark can be sent or is not tried; with one, both or none can be sent
  | .emit (.watermark watermark) =>
      if c.buffer = [] then
        ∀ bytes, codec.serialize (.watermark watermark) = .ok bytes → c.credits = 0 ∨ c.HasRoom 1
      else c.credits = 0 ∨ 2 ≤ c.credits.val ∧
        (∃ bytes, codec.serialize (.watermark watermark) = .ok bytes) ∧ c.HasRoom 2
  | .emit (.checkpointBarrier _) => c.buffer = [] ∨ c.credits = 0 ∨ c.HasRoom 2
  | .grant _ => True
  | .deliver => True

/-- The buffer counts its records, and has fewer than a batch. -/
structure Filling (c : NetworkCollector) : Prop where
  count : c.buffer = [] ↔ c.recordCount = 0
  notFull : c.buffer ≠ [] → c.recordCount < c.batchSize

/-- An admissible call conserves the records and credits, and any other does not. -/
structure Exact (codec : Codec (StreamElement T)) (a : Account) (event : Event T) : Prop where
  keeps : Admissible codec a.collector event →
    (a.step codec event).Conserved ∧ Filling (a.step codec event).collector
  breaks : ¬ Admissible codec a.collector event → ¬ (a.step codec event).Conserved

variable {a : Account} {event : Event T} {e : FlumeError}

theorem Exact.unchanged (hconserved : a.Conserved) (hfilling : Filling a.collector)
    (hadmissible : Admissible codec a.collector event)
    (hcall : (process codec event).runOn a.collector = (.error e, a.collector)) :
    Exact codec a event := by
  have hstep : a.step codec event = a := by
    unfold Account.step
    rw [hcall]
    have haccepted : acceptedBy codec event (.error e) = [] := by
      unfold acceptedBy
      split <;> simp_all
    simp [haccepted, wastedBy]
  exact ⟨fun _ => by rw [hstep]; exact ⟨hconserved, hfilling⟩, fun h => absurd hadmissible h⟩

theorem Exact.wasted (hnot : ¬ Admissible codec a.collector event)
    (hcall : (process codec event).runOn a.collector = (.error e, c'))
    (hcredits : c'.credits < a.collector.credits) : Exact codec a event := by
  refine ⟨fun h => absurd h hnot, fun _ hconserved => ?_⟩
  have hwasted := hconserved.2
  unfold Account.step at hwasted
  rw [hcall] at hwasted
  have hlt : c'.credits.val < a.collector.credits.val := hcredits
  simp only [wastedBy] at hwasted
  omega

theorem Exact.ok (hconserved : a.Conserved) (hadmissible : Admissible codec a.collector event)
    (hcall : (process codec event).runOn a.collector = (.ok (), c')) (hfilling : Filling c')
    (hframes : c'.sent.flatMap recordFrames ++ c'.buffer =
      a.collector.sent.flatMap recordFrames ++ a.collector.buffer ++
        (acceptedBy codec event (.ok ())).flatten) : Exact codec a event := by
  refine ⟨fun _ => ?_, fun h => absurd hadmissible h⟩
  unfold Account.step Account.Conserved
  rw [hcall]
  refine ⟨⟨?_, hconserved.2⟩, hfilling⟩
  rw [List.flatten_append, ← hconserved.1]
  exact hframes

theorem val_sub_one_lt {credits : U32} (h : credits ≠ 0) : credits - 1 < credits := by
  rw [Fin.lt_def, Fin.val_sub_one_of_ne_zero h]
  have hpos : credits.val ≠ 0 := fun hval => h (Fin.ext hval)
  omega

theorem frame_ne_nil (bytes : Bytes) : frame 4 bytes ≠ [] := by
  intro h
  have := congrArg List.length h
  simp [frame] at this

theorem flatMap_recordFrames_concat (batches : List DataBatch) (batch : DataBatch) :
    (batches ++ [batch]).flatMap recordFrames =
      batches.flatMap recordFrames ++ recordFrames batch := by
  rw [List.flatMap_append, List.flatMap_singleton]

theorem recordFrames_bufferBatch (h : c.buffer = [] ↔ c.recordCount = 0) :
    recordFrames c.bufferBatch = c.buffer := by
  change (if c.recordCount = 0 then [] else c.buffer) = c.buffer
  split_ifs with hzero
  · exact (h.mpr hzero).symm
  · rfl

theorem filling_of_empty (hbuffer : c.buffer = []) (hcount : c.recordCount = 0) : Filling c :=
  ⟨iff_of_true hbuffer hcount, fun hne => absurd hbuffer hne⟩

theorem Filling.val_add_one (h : Filling c) :
    (c.recordCount + 1).val = c.recordCount.val + 1 := by
  have hlt : c.recordCount.val + 1 < 2 ^ 32 := by
    by_cases hempty : c.buffer = []
    · rw [h.count.mp hempty]
      decide
    · have hless : c.recordCount.val < c.batchSize.val := h.notFull hempty
      have := c.batchSize.isLt
      omega
  rw [Fin.val_add]
  exact Nat.mod_eq_of_lt hlt

theorem Filling.addRecord (h : Filling c) (bytes : Bytes) :
    (c.addRecord bytes).buffer ≠ [] ∧ (c.addRecord bytes).recordCount ≠ 0 := by
  refine ⟨fun hnil => frame_ne_nil bytes (List.append_eq_nil_iff.mp hnil).2, fun hzero => ?_⟩
  have hval := congrArg Fin.val hzero
  rw [show (c.addRecord bytes).recordCount = c.recordCount + 1 from rfl, h.val_add_one] at hval
  exact Nat.succ_ne_zero _ hval

/-! ## The calls, one by one -/

/-- **A record.** Without a credit for its batch, it stays in the buffer. -/
theorem exact_record (hconserved : a.Conserved) (hfilling : Filling a.collector)
    (record : Record T) : Exact codec a (.emit (.record record)) := by
  rcases hserialize : codec.serialize (.record record) with e | bytes
  · refine Exact.unchanged hconserved hfilling (fun bytes h => ?_) (runOn_collect_error hserialize)
    rw [hserialize] at h
    cases h
  obtain ⟨hne, hcount⟩ := hfilling.addRecord bytes
  have haccepted : acceptedBy codec (.emit (.record record)) (.ok ()) = [frame 4 bytes] := by
    simp only [acceptedBy, hserialize]
  have hcall : (process codec (.emit (.record record))).runOn a.collector = _ :=
    runOn_collect_ok hserialize
  by_cases hfull : a.collector.recordCount + 1 ≥ a.collector.batchSize
  · rw [if_pos hfull, runOn_flush, if_neg hne] at hcall
    by_cases hcredits : a.collector.credits = 0
    · rw [if_pos (show (a.collector.addRecord bytes).credits = 0 from hcredits)] at hcall
      refine ⟨fun h => absurd hcredits (h bytes hserialize hfull).1, fun _ hkept => ?_⟩
      have hframes := hkept.1
      unfold Account.step at hframes
      rw [hcall, List.flatten_append, ← hconserved.1] at hframes
      have hlen := congrArg List.length hframes
      simp [addRecord, acceptedBy, frame, sent] at hlen
    · rw [if_neg (show (a.collector.addRecord bytes).credits ≠ 0 from hcredits)] at hcall
      by_cases hroom : a.collector.HasRoom 1
      · rw [if_pos (show (a.collector.addRecord bytes).HasRoom 1 from hroom)] at hcall
        refine Exact.ok hconserved (fun _ _ _ => ⟨hcredits, hroom⟩) hcall
          (filling_of_empty rfl rfl) ?_
        rw [sent_push, flatMap_recordFrames_concat,
          recordFrames_bufferBatch (iff_of_false hne hcount), haccepted]
        simp [addRecord, takeBuffer, sent]
      · rw [if_neg (show ¬ (a.collector.addRecord bytes).HasRoom 1 from hroom)] at hcall
        exact Exact.wasted (fun h => hroom (h bytes hserialize hfull).2) hcall
          (val_sub_one_lt hcredits)
  · rw [if_neg hfull] at hcall
    refine Exact.ok hconserved (fun _ _ h => absurd h hfull) hcall
      ⟨iff_of_false hne hcount, fun _ => not_le.mp hfull⟩ ?_
    rw [haccepted]
    simp [addRecord, sent]

section Control

variable {watermark : Watermark} {barrier : CheckpointBarrier} {c₁ : NetworkCollector}

theorem runOn_collectWatermark_error {e : String} (hflush : flush.runOn c = (.ok (), c₁))
    (h : codec.serialize (.watermark watermark) = .error e) :
    (collectWatermark codec watermark).runOn c = (.error (.serialization e), c₁) := by
  unfold collectWatermark
  rw [runOn_bind_ok hflush]
  exact runOn_bind_error (runOn_serialize_error h) _

theorem runOn_collectWatermark_ok {bytes : Bytes} (hflush : flush.runOn c = (.ok (), c₁))
    (h : codec.serialize (.watermark watermark) = .ok bytes) :
    (collectWatermark codec watermark).runOn c =
      if c₁.credits = 0 then (.error .channelClosed, c₁)
      else if c₁.HasRoom 1 then
        (.ok (), { c₁ with credits := c₁.credits - 1 }.push ⟨c₁.channelId, bytes, 0, false, 0⟩)
      else (.error .channelClosed, { c₁ with credits := c₁.credits - 1 }) := by
  unfold collectWatermark
  rw [runOn_bind_ok hflush, runOn_bind_ok (runOn_serialize_ok h)]
  exact runOn_sendForCredit fun c => ⟨c.channelId, bytes, 0, false, 0⟩

/-- The collector when its buffer was sent. -/
def sendBuffer (c : NetworkCollector) : NetworkCollector := c.takeBuffer.push c.bufferBatch

theorem sent_sendBuffer (h : Filling c) :
    c.sendBuffer.sent.flatMap recordFrames = c.sent.flatMap recordFrames ++ c.buffer := by
  rw [sendBuffer, sent_push, flatMap_recordFrames_concat, recordFrames_bufferBatch h.count]
  rfl

theorem runOn_flush_sent (hne : c.buffer ≠ []) (hcredits : c.credits ≠ 0) (hroom : c.HasRoom 1) :
    flush.runOn c = (.ok (), c.sendBuffer) := by
  rw [runOn_flush, if_neg hne, if_neg hcredits, if_pos hroom]
  rfl

theorem runOn_flush_unpaid (hne : c.buffer ≠ []) (hcredits : c.credits = 0) :
    flush.runOn c = (.error .channelClosed, c) := by
  rw [runOn_flush, if_neg hne, if_pos hcredits]

theorem runOn_flush_refused (hne : c.buffer ≠ []) (hcredits : c.credits ≠ 0)
    (hroom : ¬ c.HasRoom 1) : flush.runOn c = (.error .channelClosed, c.takeBuffer) := by
  rw [runOn_flush, if_neg hne, if_neg hcredits, if_neg hroom]

theorem flatMap_recordFrames_control {batch : DataBatch} (h : batch.recordCount = 0)
    (batches : List DataBatch) :
    (batches ++ [batch]).flatMap recordFrames = batches.flatMap recordFrames := by
  rw [flatMap_recordFrames_concat, recordFrames, if_pos h, List.append_nil]

theorem credits_sendBuffer (hcredits : c.credits ≠ 0) :
    c.sendBuffer.credits = 0 ↔ ¬ 2 ≤ c.credits.val := by
  have hval : c.sendBuffer.credits.val = c.credits.val - 1 := Fin.val_sub_one_of_ne_zero hcredits
  have hpos : c.credits.val ≠ 0 := fun hzero => hcredits (Fin.ext hzero)
  rw [Fin.ext_iff, hval]
  change c.credits.val - 1 = 0 ↔ _
  omega

/-- A watermark with nothing to flush. -/
theorem exact_watermark_empty (hconserved : a.Conserved) (hfilling : Filling a.collector)
    (watermark : Watermark) (hempty : a.collector.buffer = []) :
    Exact codec a (.emit (.watermark watermark)) := by
  have hadmissible : Admissible codec a.collector (.emit (.watermark watermark)) ↔
      ∀ bytes, codec.serialize (.watermark watermark) = .ok bytes →
        a.collector.credits = 0 ∨ a.collector.HasRoom 1 := iff_of_eq (if_pos hempty)
  have hflush := flush_of_empty hempty
  rcases hserialize : codec.serialize (.watermark watermark) with e | bytes
  · refine Exact.unchanged hconserved hfilling (hadmissible.mpr fun bytes h => ?_)
      (runOn_collectWatermark_error hflush hserialize)
    rw [hserialize] at h
    cases h
  have hcall : (process codec (.emit (.watermark watermark))).runOn a.collector = _ :=
    runOn_collectWatermark_ok hflush hserialize
  by_cases hcredits : a.collector.credits = 0
  · rw [if_pos hcredits] at hcall
    exact Exact.unchanged hconserved hfilling (hadmissible.mpr fun _ _ => Or.inl hcredits) hcall
  rw [if_neg hcredits] at hcall
  by_cases hroom : a.collector.HasRoom 1
  · rw [if_pos hroom] at hcall
    refine Exact.ok hconserved (hadmissible.mpr fun _ _ => Or.inr hroom) hcall
      ⟨hfilling.count, hfilling.notFull⟩ ?_
    rw [sent_push, flatMap_recordFrames_control rfl]
    exact (List.append_nil _).symm
  · rw [if_neg hroom] at hcall
    refine Exact.wasted (fun h => ?_) hcall (val_sub_one_lt hcredits)
    exact (hadmissible.mp h bytes hserialize).elim hcredits hroom

/-- A watermark that flushes the buffer first. -/
theorem exact_watermark_flush (hconserved : a.Conserved) (hfilling : Filling a.collector)
    (watermark : Watermark) (hne : a.collector.buffer ≠ []) :
    Exact codec a (.emit (.watermark watermark)) := by
  have hadmissible : Admissible codec a.collector (.emit (.watermark watermark)) ↔
      a.collector.credits = 0 ∨ 2 ≤ a.collector.credits.val ∧
        (∃ bytes, codec.serialize (.watermark watermark) = .ok bytes) ∧
          a.collector.HasRoom 2 := iff_of_eq (if_neg hne)
  by_cases hcredits : a.collector.credits = 0
  · exact Exact.unchanged hconserved hfilling (hadmissible.mpr (Or.inl hcredits))
      (runOn_bind_error (runOn_flush_unpaid hne hcredits) _)
  rw [or_iff_right hcredits] at hadmissible
  have hless := val_sub_one_lt hcredits
  by_cases hroom : a.collector.HasRoom 1
  · have hflush := runOn_flush_sent hne hcredits hroom
    rcases hserialize : codec.serialize (.watermark watermark) with e | bytes
    · refine Exact.wasted (fun h => ?_) (runOn_collectWatermark_error hflush hserialize) hless
      obtain ⟨-, ⟨bytes, hbytes⟩, -⟩ := hadmissible.mp h
      rw [hserialize] at hbytes
      cases hbytes
    have hcall : (process codec (.emit (.watermark watermark))).runOn a.collector = _ :=
      runOn_collectWatermark_ok hflush hserialize
    have hcredits₂ := credits_sendBuffer hcredits
    by_cases hlast : a.collector.sendBuffer.credits = 0
    · rw [if_pos hlast] at hcall
      exact Exact.wasted (fun h => hcredits₂.mp hlast (hadmissible.mp h).1) hcall hless
    rw [if_neg hlast] at hcall
    have hroom₂ : a.collector.sendBuffer.HasRoom 1 ↔ a.collector.HasRoom 2 := hasRoom_push
    by_cases hboth : a.collector.HasRoom 2
    · rw [if_pos (hroom₂.mpr hboth)] at hcall
      have htwo : 2 ≤ a.collector.credits.val := not_not.mp (hlast ∘ hcredits₂.mpr)
      refine Exact.ok hconserved (hadmissible.mpr ⟨htwo, ⟨bytes, hserialize⟩, hboth⟩) hcall
        (filling_of_empty rfl rfl) ?_
      rw [sent_push, flatMap_recordFrames_control rfl]
      exact congrArg (· ++ []) (sent_sendBuffer hfilling)
    · rw [if_neg fun h => hboth (hroom₂.mp h)] at hcall
      refine Exact.wasted (fun h => hboth (hadmissible.mp h).2.2) hcall ?_
      exact (val_sub_one_lt hlast).trans hless
  · exact Exact.wasted (fun h => hroom ((hadmissible.mp h).2.2.mono one_le_two))
      (runOn_bind_error (runOn_flush_refused hne hcredits hroom) _) hless

/-- **A watermark.** -/
theorem exact_watermark (hconserved : a.Conserved) (hfilling : Filling a.collector)
    (watermark : Watermark) : Exact codec a (.emit (.watermark watermark)) := by
  by_cases hempty : a.collector.buffer = []
  · exact exact_watermark_empty hconserved hfilling watermark hempty
  · exact exact_watermark_flush hconserved hfilling watermark hempty

/-- **A barrier.** -/
theorem exact_barrier (hconserved : a.Conserved) (hfilling : Filling a.collector)
    (barrier : CheckpointBarrier) : Exact codec a (.emit (.checkpointBarrier barrier)) := by
  have hsend : ∀ {c₁ : NetworkCollector}, flush.runOn a.collector = (.ok (), c₁) →
      (process codec (.emit (.checkpointBarrier barrier))).runOn a.collector =
        if c₁.HasRoom 1 then
          (.ok (), c₁.push ⟨c₁.channelId, [], 0, true, barrier.checkpointId⟩)
        else (.error .channelClosed, c₁) := by
    intro c₁ hflush
    exact (runOn_bind_ok hflush _).trans ((runOn_bind_ok runOn_get _).trans runOn_trySend)
  by_cases hempty : a.collector.buffer = []
  · have hcall := hsend (flush_of_empty hempty)
    by_cases hroom : a.collector.HasRoom 1
    · rw [if_pos hroom] at hcall
      refine Exact.ok hconserved (Or.inl hempty) hcall ⟨hfilling.count, hfilling.notFull⟩ ?_
      rw [sent_push, flatMap_recordFrames_control rfl]
      exact (List.append_nil _).symm
    · rw [if_neg hroom] at hcall
      exact Exact.unchanged hconserved hfilling (Or.inl hempty) hcall
  by_cases hcredits : a.collector.credits = 0
  · exact Exact.unchanged hconserved hfilling (Or.inr (Or.inl hcredits))
      (runOn_bind_error (runOn_flush_unpaid hempty hcredits) _)
  by_cases hroom : a.collector.HasRoom 1
  · have hcall := hsend (runOn_flush_sent hempty hcredits hroom)
    have hroom₂ : a.collector.sendBuffer.HasRoom 1 ↔ a.collector.HasRoom 2 := hasRoom_push
    by_cases hboth : a.collector.HasRoom 2
    · rw [if_pos (hroom₂.mpr hboth)] at hcall
      refine Exact.ok hconserved (Or.inr (Or.inr hboth)) hcall (filling_of_empty rfl rfl) ?_
      rw [sent_push, flatMap_recordFrames_control rfl]
      exact congrArg (· ++ []) (sent_sendBuffer hfilling)
    · rw [if_neg fun h => hboth (hroom₂.mp h)] at hcall
      refine Exact.wasted (fun h => ?_) hcall (val_sub_one_lt hcredits)
      exact h.elim hempty fun h => h.elim hcredits hboth
  · refine Exact.wasted (fun h => ?_)
      (runOn_bind_error (runOn_flush_refused hempty hcredits hroom) _) (val_sub_one_lt hcredits)
    exact h.elim hempty fun h => h.elim hcredits fun h => hroom (h.mono one_le_two)

end Control

/-- **Every call.** -/
theorem exact_step (hconserved : a.Conserved) (hfilling : Filling a.collector) (event : Event T) :
    Exact codec a event := by
  match event with
  | .emit (.record record) => exact exact_record hconserved hfilling record
  | .emit (.watermark watermark) => exact exact_watermark hconserved hfilling watermark
  | .emit (.checkpointBarrier barrier) => exact exact_barrier hconserved hfilling barrier
  | .grant credits =>
    exact Exact.ok hconserved trivial (runOn_modify _) ⟨hfilling.count, hfilling.notFull⟩
      (List.append_nil _).symm
  | .deliver =>
    have hcall : (process codec (.deliver : Event T)).runOn a.collector = _ := runOn_modify _
    obtain ⟨hsent, hbuffer⟩ := deliver_eq_ok hcall
    refine Exact.ok hconserved trivial hcall ?_ ?_
    · split
      · exact ⟨hfilling.count, hfilling.notFull⟩
      · exact hfilling
    · rw [hsent, hbuffer]
      exact (List.append_nil _).symm

/-- **When nothing is ever lost or duplicated:** if every call is admissible. -/
theorem conserved_iff (codec : Codec (StreamElement T)) (channelId : String) (capacity : ℕ)
    (batchSize : U32) (events : List (Event T)) :
    (∀ pre, pre <+: events →
      (Runs.exec (Account.step codec) (.init channelId capacity batchSize) pre).Conserved) ↔
    Runs.Along (Account.step codec) (fun a event => Admissible codec a.collector event)
      (.init channelId capacity batchSize) events :=
  Runs.forall_prefix_iff_along (I := fun a => Filling a.collector) (P := Account.Conserved)
    (A := fun _ => True)
    (fun _ event _ hfilling hconserved h => ((exact_step hconserved hfilling event).keeps h).2)
    (fun _ event _ hfilling hconserved h => ((exact_step hconserved hfilling event).keeps h).1)
    (fun _ event _ hfilling hconserved h => (exact_step hconserved hfilling event).breaks h)
    (filling_of_empty rfl rfl) ⟨rfl, rfl⟩ fun _ _ => trivial

/-- A record for which there is no credit. -/
def uncredited : List (Event UInt8) := [.emit (.record ⟨1, 100, none⟩)]

/-- Two records, with a credit for each. -/
def credited : List (Event UInt8) :=
  [.grant 2, .emit (.record ⟨1, 100, none⟩), .emit (.record ⟨2, 200, none⟩)]

/-- In batches of one record: without a credit the record stays in the buffer although the call
fails, and in a channel with one place the second record and its credit are lost. -/
theorem failed_not_conserved :
    let a := Runs.exec (Account.step byteCodec) (.init "ch-1" 4 1) uncredited
    let b := Runs.exec (Account.step byteCodec) (.init "ch-1" 1 1) credited
    (a.accepted = [] ∧ a.collector.buffer ≠ [] ∧ ¬ a.Conserved) ∧
      b.accepted.length = 1 ∧ b.collector.buffer = [] ∧ b.wasted = 1 ∧ ¬ b.Conserved := by
  intro a b
  have haccepted : a.accepted = [] := by decide +kernel
  have hkept : a.collector.buffer ≠ [] := by decide +kernel
  have hwasted : b.wasted = 1 := by decide +kernel
  refine ⟨⟨haccepted, hkept, fun h => ?_⟩, by decide +kernel, by decide +kernel, hwasted,
    fun h => absurd (hwasted.symm.trans h.2) one_ne_zero⟩
  have hframes := h.1
  rw [haccepted] at hframes
  exact hkept (List.append_eq_nil_iff.mp hframes).2

end Flume.NetworkCollector
