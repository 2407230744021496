import Mathlib.Data.List.DropRight
import Flume.Network.RoundTrip

/-!
# The records of a partial batch

A collector sends its records when a batch is full or when a watermark or a barrier follows. Nothing
sends the rest when the stream ends: the collector is dropped with its buffer.

* `Holds`, `AllSent`: a batch holds records; every accepted record is in one of the batches;
* `Batched`: which records were sent, and which wait in the buffer;
* **`allSent_iff`**: everything was sent if and only if the records after the last watermark or
  barrier fill whole batches.
-/

namespace Flume.NetworkCollector

open Channels Fallible Framing

variable {T : Type}

/-- The frames of records, as the buffer holds them. -/
def recordBytes (codec : Codec (StreamElement T)) (records : List (Record T)) : Bytes :=
  records.flatMap fun r => match codec.serialize (.record r) with
    | .ok bytes => frame 4 bytes
    | .error _ => []

/-- The batch holds exactly these records. -/
def Holds (codec : Codec (StreamElement T)) (batch : DataBatch) (records : List (Record T)) : Prop :=
  batch.recordCount.val = records.length ∧
    (records ≠ [] → batch.isBarrier = false ∧ batch.payload = recordBytes codec records)

/-- Every one of the records is in a batch that was handed to the channel, in order. -/
def AllSent (codec : Codec (StreamElement T)) (records : List (Record T)) (c : NetworkCollector) :
    Prop :=
  ∃ chunks, chunks.flatten = records ∧ List.Forall₂ (Holds codec) c.sent chunks

/-- The element is a record. -/
def isRecord (e : StreamElement T) : Bool := e.record?.isSome

/-- The number of records after the last watermark or barrier. -/
def tailLength (es : List (StreamElement T)) : ℕ := (es.rtakeWhile isRecord).length

/-- All of `accepted` but `pending` was sent, and `pending` is in the buffer. -/
structure Batched (codec : Codec (StreamElement T)) (batchSize : U32)
    (accepted pending : List (Record T)) (c : NetworkCollector) : Prop where
  sent : ∃ chunks, accepted = chunks.flatten ++ pending ∧ List.Forall₂ (Holds codec) c.sent chunks
  buffer : c.buffer = recordBytes codec pending
  serialized : ∀ r ∈ pending, ∃ bytes, codec.serialize (.record r) = .ok bytes
  count : c.recordCount.val = pending.length
  size : c.batchSize = batchSize

variable {codec : Codec (StreamElement T)} {batchSize : U32} {accepted pending : List (Record T)}
  {c c' : NetworkCollector} {batch : DataBatch}

/-! ## What a call does with the records -/

theorem batched_new (channelId : String) (capacity : ℕ) :
    Batched codec batchSize [] [] (new channelId (.new capacity) batchSize) where
  sent := ⟨[], rfl, .nil⟩
  buffer := rfl
  serialized _ h := absurd h List.not_mem_nil
  count := rfl
  size := rfl

theorem Batched.pending_eq_nil (h : Batched codec batchSize accepted pending c)
    (hempty : c.buffer = []) : pending = [] := by
  cases pending with
  | nil => rfl
  | cons r rest =>
    obtain ⟨bytes, hbytes⟩ := h.serialized r List.mem_cons_self
    have hlen := congrArg List.length (h.buffer.symm.trans hempty)
    simp [recordBytes, hbytes, frame] at hlen

theorem Batched.send {chunk : List (Record T)} (h : Batched codec batchSize accepted pending c)
    (hchunk : chunk = pending) (hholds : Holds codec batch chunk)
    (hsent : c'.sent = c.sent ++ [batch]) (hbuffer : c'.buffer = []) (hcount : c'.recordCount = 0)
    (hsize : c'.batchSize = c.batchSize) : Batched codec batchSize accepted [] c' := by
  obtain ⟨chunks, haccepted, hchunks⟩ := h.sent
  refine ⟨⟨chunks ++ [chunk], ?_, ?_⟩, hbuffer, fun _ hr => absurd hr List.not_mem_nil, ?_,
    hsize.trans h.size⟩
  · rw [haccepted, hchunk, List.flatten_append, List.flatten_singleton, List.append_nil]
  · rw [hsent]
    exact List.rel_append hchunks (.cons hholds .nil)
  · rw [hcount]
    rfl

theorem Batched.flush (h : Batched codec batchSize accepted pending c)
    (hflush : NetworkCollector.flush.runOn c = (.ok (), c')) :
    Batched codec batchSize accepted [] c' := by
  by_cases hempty : c.buffer = []
  · rw [flush_of_empty hempty] at hflush
    cases hflush
    rw [h.pending_eq_nil hempty] at h
    exact h
  · unfold NetworkCollector.flush at hflush
    rw [runOn_bind_ok runOn_get, runOn_ite, runOn_ite, if_neg (by simpa using hempty)] at hflush
    split_ifs at hflush with hcredits
    · cases hflush
    · rw [runOn_bind_ok runOn_set] at hflush
      obtain ⟨channel, rfl, hsent⟩ := trySend_state hflush
      exact h.send rfl ⟨h.count, fun _ => ⟨rfl, h.buffer⟩⟩ hsent rfl rfl rfl

theorem Batched.control (h : Batched codec batchSize accepted [] c)
    (hcount : batch.recordCount = 0) {credits : U32}
    (hsend : (trySend batch).runOn { c with credits := credits } = (.ok (), c')) :
    Batched codec batchSize accepted [] c' := by
  obtain ⟨channel, rfl, hsent⟩ := trySend_state hsend
  refine h.send rfl ⟨?_, fun hne => absurd rfl hne⟩ hsent h.buffer (Fin.ext h.count) rfl
  rw [hcount]
  rfl

/-- A record joins the pending ones, which are sent when they fill a batch. -/
theorem Batched.collect {record : Record T} (h : Batched codec batchSize accepted pending c)
    (hlt : pending.length < batchSize.val)
    (hcall : (NetworkCollector.collect codec record).runOn c = (.ok (), c')) :
    (pending.length + 1 < batchSize.val ∧
      Batched codec batchSize (accepted ++ [record]) (pending ++ [record]) c') ∨
    (pending.length + 1 = batchSize.val ∧ Batched codec batchSize (accepted ++ [record]) [] c') := by
  unfold NetworkCollector.collect serializeElement at hcall
  obtain ⟨_, c₂, hframe, hcount⟩ := runOn_bind_eq_ok hcall
  obtain ⟨bytes, c₁, hserialize, hmodify⟩ := runOn_bind_eq_ok hframe
  obtain ⟨hbytes, rfl⟩ := serialize_eq_ok hserialize
  rw [runOn_modify] at hmodify
  cases hmodify
  rw [runOn_bind_ok (runOn_modify _), runOn_bind_ok runOn_get, runOn_ite] at hcount
  have hval : (c₁.recordCount + 1).val = pending.length + 1 := by
    have hmax := batchSize.isLt
    rw [Fin.val_add, h.count]
    exact Nat.mod_eq_of_lt (by change pending.length + 1 < 2 ^ 32; omega)
  have hbatched : Batched codec batchSize (accepted ++ [record]) (pending ++ [record])
      { c₁ with buffer := c₁.buffer ++ frame 4 bytes, recordCount := c₁.recordCount + 1 } := by
    obtain ⟨chunks, haccepted, hchunks⟩ := h.sent
    refine ⟨⟨chunks, by rw [haccepted, List.append_assoc], hchunks⟩, ?_, fun r hr => ?_, ?_, h.size⟩
    · change c₁.buffer ++ frame 4 bytes = _
      rw [h.buffer, recordBytes, recordBytes, List.flatMap_append, List.flatMap_singleton, hbytes]
    · rcases List.mem_append.mp hr with hr | hr
      · exact h.serialized r hr
      · rw [List.mem_singleton.mp hr]
        exact ⟨bytes, hbytes⟩
    · rw [List.length_append, List.length_singleton]
      exact hval
  split_ifs at hcount with hfull
  · have hge : batchSize.val ≤ pending.length + 1 := by
      rw [← hval, ← h.size]
      exact hfull
    exact Or.inr ⟨by omega, hbatched.flush hcount⟩
  · cases hcount
    have hnot : ¬ batchSize.val ≤ pending.length + 1 := by
      rw [← hval, ← h.size]
      exact hfull
    exact Or.inl ⟨by omega, hbatched⟩

/-! ## The run -/

/-- The records that wait in the buffer are those after the last whole batch of the tail. -/
def Waiting (codec : Codec (StreamElement T)) (batchSize : U32) (events : List (Event T))
    (c : NetworkCollector) : Prop :=
  ∃ pending, Batched codec batchSize ((elements events).filterMap StreamElement.record?) pending c ∧
    pending.length = tailLength (elements events) % batchSize.val

theorem tailLength_concat_record (es : List (StreamElement T)) (r : Record T) :
    tailLength (es ++ [.record r]) = tailLength es + 1 := by
  unfold tailLength
  rw [List.rtakeWhile_concat_pos _ _ _ rfl, List.length_append, List.length_singleton]

theorem tailLength_concat_control (es : List (StreamElement T)) {e : StreamElement T}
    (he : e.record? = none) : tailLength (es ++ [e]) = 0 := by
  unfold tailLength
  rw [List.rtakeWhile_concat_neg _ _ _ (by rw [isRecord, he]; simp), List.length_nil]

theorem waiting_emit (hpos : 0 < batchSize.val) {events : List (Event T)} {e : StreamElement T}
    (h : Waiting codec batchSize events c) (hcall : (emit codec e).runOn c = (.ok (), c')) :
    Waiting codec batchSize (events ++ [.emit e]) c' := by
  obtain ⟨pending, hbatched, hlen⟩ := h
  have hlt : pending.length < batchSize.val := hlen ▸ Nat.mod_lt _ hpos
  unfold Waiting
  rw [elements_emit, List.filterMap_append]
  cases e with
  | record record =>
    rcases hbatched.collect hlt hcall with ⟨hroom, hb⟩ | ⟨hfull, hb⟩
    · refine ⟨_, hb, ?_⟩
      rw [List.length_append, List.length_singleton, tailLength_concat_record, ← Nat.mod_add_mod,
        ← hlen, Nat.mod_eq_of_lt hroom]
    · refine ⟨_, hb, ?_⟩
      rw [tailLength_concat_record, List.length_nil, ← Nat.mod_add_mod, ← hlen, hfull, Nat.mod_self]
  | watermark watermark =>
    change (collectWatermark codec watermark).runOn c = _ at hcall
    unfold collectWatermark at hcall
    obtain ⟨_, c₁, hflush, hrest⟩ := runOn_bind_eq_ok hcall
    obtain ⟨bytes, c₂, hserialize, hsend⟩ := runOn_bind_eq_ok hrest
    obtain ⟨-, rfl⟩ := serialize_eq_ok hserialize
    rw [runOn_bind_ok runOn_get, runOn_ite] at hsend
    split_ifs at hsend
    · rw [runOn_bind_ok runOn_set] at hsend
      refine ⟨[], ?_, by rw [tailLength_concat_control _ rfl]; simp⟩
      rw [List.filterMap_cons_none rfl, List.filterMap_nil, List.append_nil]
      exact (hbatched.flush hflush).control rfl hsend
    · cases hsend
  | checkpointBarrier barrier =>
    change (collectBarrier barrier).runOn c = _ at hcall
    unfold collectBarrier at hcall
    obtain ⟨_, c₁, hflush, hsend⟩ := runOn_bind_eq_ok hcall
    rw [runOn_bind_ok runOn_get] at hsend
    refine ⟨[], ?_, by rw [tailLength_concat_control _ rfl]; simp⟩
    rw [List.filterMap_cons_none rfl, List.filterMap_nil, List.append_nil]
    exact (hbatched.flush hflush).control rfl hsend

theorem Waiting.quiet {events events' : List (Event T)} (h : Waiting codec batchSize events c)
    (helements : elements events' = elements events) (hsent : c'.sent = c.sent)
    (hbuffer : c'.buffer = c.buffer) (hcount : c'.recordCount = c.recordCount)
    (hsize : c'.batchSize = c.batchSize) : Waiting codec batchSize events' c' := by
  obtain ⟨pending, hbatched, hlen⟩ := h
  unfold Waiting
  rw [helements]
  refine ⟨pending, ⟨?_, hbuffer.trans hbatched.buffer, hbatched.serialized, ?_,
    hsize.trans hbatched.size⟩, hlen⟩
  · rw [hsent]; exact hbatched.sent
  · rw [hcount]; exact hbatched.count

theorem waiting_run (hpos : 0 < batchSize.val) {channelId : String} {capacity : ℕ}
    {events : List (Event T)}
    (h : (run codec events).runOn (new channelId (.new capacity) batchSize) = (.ok (), c)) :
    Waiting codec batchSize events c := by
  refine runOn_forM_invariant (P := Waiting codec batchSize)
    (fun done ev c c' hc hcall => ?_) ⟨[], batched_new channelId capacity, rfl⟩ h
  cases ev with
  | emit e => exact waiting_emit hpos hc hcall
  | grant credits =>
    change (grantCredits credits).runOn c = _ at hcall
    rw [grantCredits, runOn_modify] at hcall
    cases hcall
    exact hc.quiet (elements_grant done credits) rfl rfl rfl rfl
  | deliver =>
    have hsent := (deliver_eq_ok hcall).1
    change deliver.runOn c = _ at hcall
    rw [deliver, runOn_modify] at hcall
    cases hcall
    refine hc.quiet (elements_deliver done) hsent ?_ ?_ ?_ <;> split <;> rfl

/-! ## When everything was sent -/

theorem sum_recordCount {batches : List DataBatch} {chunks : List (List (Record T))}
    (h : List.Forall₂ (Holds codec) batches chunks) :
    (batches.map fun batch => batch.recordCount.val).sum = chunks.flatten.length := by
  induction h with
  | nil => rfl
  | cons hhead htail ih =>
    rw [List.map_cons, List.sum_cons, List.flatten_cons, List.length_append, hhead.1, ih]

theorem Batched.allSent_iff (h : Batched codec batchSize accepted pending c) :
    AllSent codec accepted c ↔ pending = [] := by
  obtain ⟨chunks, haccepted, hchunks⟩ := h.sent
  constructor
  · rintro ⟨chunks', hflatten, hchunks'⟩
    have hsum := (sum_recordCount hchunks).symm.trans (sum_recordCount hchunks')
    rw [hflatten, haccepted, List.length_append] at hsum
    exact List.length_eq_zero_iff.mp (by omega)
  · rintro rfl
    exact ⟨chunks, by rw [haccepted, List.append_nil], hchunks⟩

/-- **When a collector delivers every record by the end of the stream:** if the records after the
last watermark or barrier fill their batches. -/
theorem allRecordsSent_iff (codec : Codec (StreamElement T)) (channelId : String) (capacity : ℕ)
    (batchSize : U32) (hpos : 1 ≤ batchSize.val) (events : List (Event T)) (c : NetworkCollector)
    (hok : (run codec events).runOn (new channelId (.new capacity) batchSize) = (.ok (), c)) :
    AllSent codec ((elements events).filterMap StreamElement.record?) c ↔
      batchSize.val ∣ tailLength (elements events) := by
  obtain ⟨pending, hbatched, hlen⟩ := waiting_run hpos hok
  rw [hbatched.allSent_iff, ← List.length_eq_zero_iff, hlen, Nat.dvd_iff_mod_eq_zero]

/-- Three records in batches of two, of which a barrier cuts off the first: all are sent. -/
def wholeEvents : List (Event UInt8) :=
  [.grant 2, .emit (.record ⟨1, 100, none⟩), .emit (.checkpointBarrier ⟨1, 150⟩),
    .emit (.record ⟨2, 200, none⟩), .emit (.record ⟨3, 300, none⟩)]

theorem wholeEvents_allSent : AllSent byteCodec ((elements wholeEvents).filterMap
    StreamElement.record?) (afterEvents wholeEvents).2 := by
  have hok : (afterEvents wholeEvents).1 = .ok () := by decide +kernel
  have hiff := allRecordsSent_iff byteCodec "ch-1" 4 2 (by decide) wholeEvents
    (afterEvents wholeEvents).2 (Prod.ext hok rfl)
  exact hiff.mpr (by decide +kernel)

/-- One record in a batch of two: the call returns `Ok`, and no batch is ever sent. -/
theorem oneRecord_not_allSent :
    (afterEvents [.grant 4, .emit (.record ⟨1, 100, none⟩)]).1 = .ok () ∧
      (afterEvents [.grant 4, .emit (.record ⟨1, 100, none⟩)]).2.sent = [] ∧
      ¬ AllSent byteCodec [⟨1, 100, none⟩]
        (afterEvents [.grant 4, .emit (.record ⟨1, 100, none⟩)]).2 := by
  have hsent : (afterEvents [.grant 4, .emit (.record ⟨1, 100, none⟩)]).2.sent = [] := by
    decide +kernel
  refine ⟨by decide +kernel, hsent, ?_⟩
  rintro ⟨chunks, hflatten, hchunks⟩
  rw [hsent] at hchunks
  cases hchunks
  cases hflatten

end Flume.NetworkCollector
