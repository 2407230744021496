import Flume.Network.Collector

/-!
# The network input

The read side of the network boundary: takes data batches from the channel, cuts their payloads
into frames and yields the elements that the frames decode to.

* `decodePayload`: the decoding loop; **`decodePayload_eq`**: it decodes the frames of the payload;
* `NetworkInput.recv`, `recvAll`; **`recvAll_eq`**: what the input yields until it returns `none`.
-/

namespace Flume

open Framing

variable {T : Type}

/-- Receives data batches; `batchRx` holds those that arrive before the channel is closed. -/
structure NetworkInput (T : Type) where
  batchRx : List DataBatch
  elementBuffer : List (StreamElement T)

/-- The decoding loop of `recv`. -/
def decodePayload (codec : Codec (StreamElement T)) (payload : Bytes) (offset : ℕ)
    (elementBuffer : List (StreamElement T)) : List (StreamElement T) :=
  if offset + 4 ≤ payload.length then
    let len := leValue ((payload.drop offset).take 4)
    if offset + 4 + len > payload.length then elementBuffer
    else
      let elementBuffer :=
        match codec.deserialize ((payload.drop (offset + 4)).take len) with
        | .ok elem => elementBuffer ++ [elem]
        | .error _ => elementBuffer
      decodePayload codec payload (offset + 4 + len) elementBuffer
  else elementBuffer
termination_by payload.length - offset

namespace NetworkInput

/-- The loop of `recv`: buffered elements first, then the next batch. -/
def recvLoop (codec : Codec (StreamElement T)) :
    List DataBatch → List (StreamElement T) → Option (StreamElement T) × NetworkInput T
  | batches, elem :: elementBuffer => (some elem, ⟨batches, elementBuffer⟩)
  | [], [] => (none, ⟨[], []⟩)
  | batch :: batches, [] =>
    if batch.isBarrier then (some (.checkpointBarrier ⟨batch.checkpointId, 0⟩), ⟨batches, []⟩)
    else recvLoop codec batches (decodePayload codec batch.payload 0 [])

/-- Receives the next element; `none` when the channel is closed. -/
def recv (codec : Codec (StreamElement T)) (input : NetworkInput T) :
    Option (StreamElement T) × NetworkInput T :=
  recvLoop codec input.batchRx input.elementBuffer

end NetworkInput

/-! ## Frames and their elements -/

/-- The elements that frames decode to; a frame that does not decode is skipped. -/
def decodeFrames (codec : Codec (StreamElement T)) (frames : List Bytes) : List (StreamElement T) :=
  frames.filterMap fun bytes => (codec.deserialize bytes).toOption

/-- The elements of one batch. -/
def batchElements (codec : Codec (StreamElement T)) (batch : DataBatch) : List (StreamElement T) :=
  if batch.isBarrier then [.checkpointBarrier ⟨batch.checkpointId, 0⟩]
  else decodeFrames codec (unframe 4 prefixWidth_pos batch.payload)

/-- **The decoding loop decodes the frames of the payload.** -/
theorem decodePayload_eq (codec : Codec (StreamElement T)) (payload : Bytes) (offset : ℕ)
    (elementBuffer : List (StreamElement T)) :
    decodePayload codec payload offset elementBuffer =
      elementBuffer ++ decodeFrames codec (unframe 4 prefixWidth_pos (payload.drop offset)) := by
  fun_induction decodePayload codec payload offset elementBuffer with
  | case1 offset buffer hle len hgt =>
    rw [unframe_of_none, decodeFrames, List.filterMap_nil, List.append_nil]
    refine if_neg fun h => ?_
    rw [List.drop_drop, List.length_drop, List.length_drop] at h
    omega
  | case2 offset buffer hle len hgt buffer' ih =>
    have hframe : nextFrame 4 (payload.drop offset) =
        some ((payload.drop (offset + 4)).take len, payload.drop (offset + 4 + len)) := by
      unfold nextFrame
      rw [List.drop_drop, List.drop_drop, if_pos]
      rw [List.length_drop, List.length_drop]
      omega
    rw [ih, unframe_of_some hframe, decodeFrames, decodeFrames, List.filterMap_cons]
    cases hd : codec.deserialize ((payload.drop (offset + 4)).take len) with
    | ok elem => simp [buffer', hd, Except.toOption]
    | error e => simp [buffer', hd, Except.toOption]
  | case3 offset buffer hlt =>
    rw [unframe_of_none, decodeFrames, List.filterMap_nil, List.append_nil]
    refine if_neg fun h => ?_
    rw [List.length_drop] at h
    omega

namespace NetworkInput

variable {codec : Codec (StreamElement T)} {input input' : NetworkInput T}
  {elem : StreamElement T}

/-- The elements still to come. -/
def pending (codec : Codec (StreamElement T)) (input : NetworkInput T) : List (StreamElement T) :=
  input.elementBuffer ++ input.batchRx.flatMap (batchElements codec)

theorem recvLoop_eq (codec : Codec (StreamElement T)) (batches : List DataBatch)
    (elementBuffer : List (StreamElement T)) :
    (recvLoop codec batches elementBuffer).1 =
        (elementBuffer ++ batches.flatMap (batchElements codec)).head? ∧
      pending codec (recvLoop codec batches elementBuffer).2 =
        (elementBuffer ++ batches.flatMap (batchElements codec)).tail := by
  induction batches generalizing elementBuffer with
  | nil => cases elementBuffer <;> exact ⟨rfl, rfl⟩
  | cons batch batches ih =>
    cases elementBuffer with
    | cons elem elementBuffer => exact ⟨rfl, rfl⟩
    | nil =>
      rw [recvLoop, List.nil_append, List.flatMap_cons]
      split_ifs with hbarrier
      · rw [batchElements, if_pos hbarrier]
        exact ⟨rfl, rfl⟩
      · rw [batchElements, if_neg hbarrier, decodePayload_eq]
        exact ih _

theorem pending_of_recv (h : recv codec input = (some elem, input')) :
    pending codec input = elem :: pending codec input' := by
  obtain ⟨hhead, htail⟩ := recvLoop_eq codec input.batchRx input.elementBuffer
  unfold recv at h
  rw [h] at hhead htail
  rw [pending]
  exact (List.cons_head?_tail hhead.symm).symm.trans (by rw [← htail])

theorem pending_of_recv_none (h : recv codec input = (none, input')) :
    pending codec input = [] := by
  obtain ⟨hhead, -⟩ := recvLoop_eq codec input.batchRx input.elementBuffer
  unfold recv at h
  rw [h] at hhead
  exact List.head?_eq_none_iff.mp hhead.symm

/-- What `recv` yields until it returns `none`. -/
def recvAll (codec : Codec (StreamElement T)) (input : NetworkInput T) : List (StreamElement T) :=
  match _h : recv codec input with
  | (some elem, input') => elem :: recvAll codec input'
  | (none, _) => []
termination_by (pending codec input).length
decreasing_by
  rw [pending_of_recv _h]
  exact Nat.lt_succ_self _

/-- **The input yields the elements of its batches, one batch after the other.** -/
theorem recvAll_eq (codec : Codec (StreamElement T)) (input : NetworkInput T) :
    recvAll codec input = pending codec input := by
  induction hn : (pending codec input).length using Nat.strong_induction_on generalizing input with
  | _ n ih =>
    rw [recvAll]
    split
    · rename_i elem input' h
      have hp := pending_of_recv h
      rw [hp, ih _ (by rw [← hn, hp]; exact Nat.lt_succ_self _) _ rfl]
    · rename_i h
      rw [pending_of_recv_none h]

end NetworkInput

end Flume
