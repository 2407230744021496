import Flume.Network.RoundTrip

/-!
# Decoding payloads

The decoding loop indexes and slices the payload of a data batch; an index outside it would be a
panic.

* `decodeChecked`: the loop with its index checks; **`decodeChecked_eq`**: they always succeed;
* `Encodes`: elements and their encodings; **`Encodes.decodePayload_eq`**: the loop reads them back;
* `recvAll_batch`: a batch among others;
* **`decoding_spec`**: framed elements come out again, and of every payload the whole frames.
-/

namespace Flume

open Framing

variable {T : Type} {codec : Codec (StreamElement T)}

/-- An index outside a slice, a panic. -/
inductive OutOfBounds
  | index (i : ℕ)
  | range (start stop : ℕ)

/-- `payload[i]`. -/
def byteAt (payload : Bytes) (i : ℕ) : Except OutOfBounds UInt8 :=
  match payload[i]? with
  | some b => .ok b
  | none => .error (.index i)

/-- `&payload[start..stop]`. -/
def slice (payload : Bytes) (start stop : ℕ) : Except OutOfBounds Bytes :=
  if start ≤ stop ∧ stop ≤ payload.length then .ok ((payload.drop start).take (stop - start))
  else .error (.range start stop)

/-- `u32::from_le_bytes` of the four bytes at the offset. -/
def readLength (payload : Bytes) (offset : ℕ) : Except OutOfBounds ℕ := do
  let b₀ ← byteAt payload offset
  let b₁ ← byteAt payload (offset + 1)
  let b₂ ← byteAt payload (offset + 2)
  let b₃ ← byteAt payload (offset + 3)
  return leValue [b₀, b₁, b₂, b₃]

/-- The decoding loop of `recv` with its index checks. -/
def decodeChecked (codec : Codec (StreamElement T)) (payload : Bytes) (offset : ℕ)
    (elementBuffer : List (StreamElement T)) : Except OutOfBounds (List (StreamElement T)) :=
  if offset + 4 ≤ payload.length then do
    let len ← readLength payload offset
    if offset + 4 + len > payload.length then return elementBuffer
    else
      let bytes ← slice payload (offset + 4) (offset + 4 + len)
      let elementBuffer :=
        match codec.deserialize bytes with
        | .ok elem => elementBuffer ++ [elem]
        | .error _ => elementBuffer
      decodeChecked codec payload (offset + 4 + len) elementBuffer
  else return elementBuffer
termination_by payload.length - offset

theorem byteAt_of_lt {payload : Bytes} {i : ℕ} (h : i < payload.length) :
    byteAt payload i = .ok payload[i] := by
  unfold byteAt
  rw [List.getElem?_eq_getElem h]

theorem slice_of_le {payload : Bytes} {start len : ℕ} (h : start + len ≤ payload.length) :
    slice payload start (start + len) = .ok ((payload.drop start).take len) := by
  unfold slice
  rw [if_pos ⟨Nat.le_add_right _ _, h⟩, Nat.add_sub_cancel_left]

theorem readLength_of_le {payload : Bytes} {offset : ℕ} (h : offset + 4 ≤ payload.length) :
    readLength payload offset = .ok (leValue ((payload.drop offset).take 4)) := by
  have hbytes : (payload.drop offset).take 4 = [payload[offset], payload[offset + 1],
      payload[offset + 2], payload[offset + 3]] := by
    rw [List.drop_eq_getElem_cons (by omega), List.drop_eq_getElem_cons (by omega),
      List.drop_eq_getElem_cons (by omega), List.drop_eq_getElem_cons (by omega)]
    rfl
  unfold readLength
  rw [byteAt_of_lt (by omega), byteAt_of_lt (by omega), byteAt_of_lt (by omega),
    byteAt_of_lt (by omega), hbytes]
  rfl

/-- **No index is outside the payload**: the loop compares the end of a frame with the length of the
payload before it takes the bytes. -/
theorem decodeChecked_eq (codec : Codec (StreamElement T)) (payload : Bytes) (offset : ℕ)
    (elementBuffer : List (StreamElement T)) :
    decodeChecked codec payload offset elementBuffer =
      .ok (decodePayload codec payload offset elementBuffer) := by
  fun_induction decodePayload codec payload offset elementBuffer with
  | case1 offset buffer hle len hgt =>
    rw [decodeChecked, if_pos hle, readLength_of_le hle]
    exact if_pos hgt
  | case2 offset buffer hle len hgt buffer' ih =>
    rw [decodeChecked, if_pos hle, readLength_of_le hle]
    change (if offset + 4 + len > payload.length then _ else _) = _
    rw [if_neg hgt]
    rw [slice_of_le (Nat.not_lt.mp hgt)]
    exact ih
  | case3 offset buffer hlt =>
    rw [decodeChecked, if_neg hlt]
    rfl

/-! ## What comes out -/

theorem decodePayload_frames (codec : Codec (StreamElement T)) (payload : Bytes) :
    decodePayload codec payload 0 [] = decodeFrames codec (unframe 4 prefixWidth_pos payload) := by
  rw [decodePayload_eq, List.nil_append, List.drop_zero]

/-- The elements that encode to `encodings`, each shorter than `2 ^ 32` bytes. -/
def Encodes (codec : Codec (StreamElement T)) : List (StreamElement T) → List Bytes → Prop :=
  List.Forall₂ fun e b => codec.serialize e = .ok b ∧ b.length < 2 ^ 32

theorem Encodes.length_lt {elements : List (StreamElement T)} {encodings : List Bytes}
    (h : Encodes codec elements encodings) : ∀ b ∈ encodings, b.length < 256 ^ 4 := by
  induction h with
  | nil => simp
  | cons hb _ ih =>
    rw [List.forall_mem_cons]
    exact ⟨hb.2, ih⟩

theorem Encodes.decodeFrames_eq (hcodec : codec.RoundTrips) {elements : List (StreamElement T)}
    {encodings : List Bytes} (h : Encodes codec elements encodings) :
    decodeFrames codec encodings = elements := by
  unfold decodeFrames
  induction h with
  | nil => rfl
  | @cons e b _ _ hb _ ih =>
    rw [List.filterMap_cons, hcodec e b hb.1, ih]
    rfl

/-- **A payload that is a list of framed encodings** decodes to the elements. -/
theorem Encodes.decodePayload_eq (hcodec : codec.RoundTrips) {elements : List (StreamElement T)}
    {encodings : List Bytes} (h : Encodes codec elements encodings) :
    decodePayload codec (encodings.map (frame 4)).flatten 0 [] = elements := by
  rw [decodePayload_frames, unframe_flatten h.length_lt, h.decodeFrames_eq hcodec]

namespace NetworkInput

theorem recvAll_batch (codec : Codec (StreamElement T)) {batch : DataBatch}
    (hbatch : batch.isBarrier = false) (pre post : List DataBatch)
    (elementBuffer : List (StreamElement T)) :
    recvAll codec ⟨pre ++ batch :: post, elementBuffer⟩ = recvAll codec ⟨pre, elementBuffer⟩ ++
      decodePayload codec batch.payload 0 [] ++ recvAll codec ⟨post, []⟩ := by
  have hnot : ¬ batch.isBarrier = true := by simp [hbatch]
  simp only [recvAll_eq, pending]
  rw [List.flatMap_append, List.flatMap_cons, batchElements, if_neg hnot, decodePayload_frames]
  simp

/-- **Decoding inverts framing and is safe:** of any payload it yields the elements of the whole
frames at its beginning. -/
theorem decoding_spec (codec : Codec (StreamElement T)) (hcodec : codec.RoundTrips)
    (batch : DataBatch) (hbatch : batch.isBarrier = false) (pre post : List DataBatch)
    (elementBuffer : List (StreamElement T)) :
    (∀ elements encodings, Encodes codec elements encodings →
      batch.payload = (encodings.map (frame 4)).flatten →
        recvAll codec ⟨pre ++ batch :: post, elementBuffer⟩ =
          recvAll codec ⟨pre, elementBuffer⟩ ++ elements ++ recvAll codec ⟨post, []⟩) ∧
    ∃ frames trailing, batch.payload = (frames.map (frame 4)).flatten ++ trailing ∧
      nextFrame 4 trailing = none ∧
      decodeChecked codec batch.payload 0 [] = .ok (decodeFrames codec frames) ∧
      recvAll codec ⟨pre ++ batch :: post, elementBuffer⟩ =
        recvAll codec ⟨pre, elementBuffer⟩ ++ decodeFrames codec frames ++
          recvAll codec ⟨post, []⟩ := by
  rw [recvAll_batch codec hbatch, decodeChecked_eq]
  constructor
  · intro elements encodings hencodes hpayload
    rw [hpayload, hencodes.decodePayload_eq hcodec]
  · obtain ⟨trailing, hpayload, hnone⟩ : ∃ trailing, batch.payload =
        ((unframe 4 prefixWidth_pos batch.payload).map (frame 4)).flatten ++ trailing ∧
          nextFrame 4 trailing = none := exists_trailing _
    refine ⟨_, trailing, hpayload, hnone, ?_, ?_⟩ <;> rw [decodePayload_frames]

/-- The encodings of a record, a watermark and a barrier. -/
def mixedEncodings : List Bytes :=
  [0 :: 7 :: leBytes 8 1, 2 :: leBytes 8 2, 3 :: leBytes 8 3 ++ leBytes 8 4]

/-- A batch with the three elements in its payload. -/
def mixedBatch : DataBatch where
  channelId := "ch-1"
  payload := (mixedEncodings.map (frame 4)).flatten
  recordCount := 1
  isBarrier := false
  checkpointId := 0

theorem recvAll_mixedBatch : recvAll NetworkCollector.byteCodec ⟨[mixedBatch], []⟩ =
    [.record ⟨7, 1, none⟩, .watermark ⟨2⟩, .checkpointBarrier ⟨3, 4⟩] := by
  have hencodes : Encodes NetworkCollector.byteCodec
      [.record ⟨7, 1, none⟩, .watermark ⟨2⟩, .checkpointBarrier ⟨3, 4⟩] mixedEncodings := by
    refine .cons ⟨rfl, by decide⟩ (.cons ⟨rfl, by decide⟩ (.cons ⟨rfl, by decide⟩ .nil))
  have hspec := (decoding_spec NetworkCollector.byteCodec NetworkCollector.byteCodec_roundTrips
    mixedBatch rfl [] [] []).1 _ _ hencodes rfl
  have hnone : recvAll NetworkCollector.byteCodec ⟨[], []⟩ = [] := recvAll_eq _ _
  rw [hnone] at hspec
  exact hspec

end NetworkInput

end Flume
