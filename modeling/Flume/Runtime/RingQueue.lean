import Mathlib.Data.Nat.Bitwise
import Flume.Lib.Queue
import Flume.Runtime.RingBuffer

/-!
# The queue in a ring buffer

Each call takes effect at one step: `try_send` when it publishes the value or finds the reloaded
sequence number too far behind, a receive when it advances the read sequence number or finds none
published. Read at these steps, a run of the ring buffer is a run of a bounded queue.

* `slotCount`: the number of slots, `max(2, next_power_of_two(capacity))`;
* `performs`: the queue operation that a step is, if any;
* `slotIndex_ne`: sequence numbers that are less than the number of slots apart do not collide;
* `Represents`: the invariant, **`cachedReadSeq ≤ readSeq ≤ cachedWriteSeq ≤ writeSeq`**, at most
  `n` apart, and the slots between the sequence numbers hold the queue.
-/

namespace Flume

open Channels

variable {T : Type}

/-- The number of slots. -/
def slotCount (capacity : U64) : ℕ := max 2 (nextPowerOfTwo capacity).val

/-- A `try_recv` of the user, or one within `recv`. -/
def RecvSite.received (site : RecvSite) (value : T) : QueueOp T :=
  match site with
  | .user => .tryRecv (some value)
  | _ => .recv (some value)

/-- What a `try_recv` that finds nothing is: only the last one of `recv` ends that call. -/
def RecvSite.nothing : RecvSite → List (QueueOp T)
  | .user => [.tryRecv none]
  | .drain => [.recv none]
  | _ => []

/-- The call site of the `try_recv` in progress. -/
def ConsumerPc.site? : ConsumerPc T → Option RecvSite
  | .check site => some site
  | .reload site => some site
  | .read site => some site
  | .advance site _ => some site
  | _ => none

/-- The calls of `try_send` that have not published their value yet. -/
def ProducerPc.unpublished : ProducerPc T → ℕ
  | .check _ | .reload _ | .write _ | .publish _ => 1
  | _ => 0

/-- The event is a call of `try_send`. -/
def RingEvent.isTrySend : RingEvent T → Bool
  | .trySend _ => true
  | _ => false

namespace RingBuffer

/-- The operation on the queue that takes effect at a step. -/
def performs (s : RingBuffer T) : RingEvent T → List (QueueOp T)
  | .dropProducer => if s.producer matches .idle then [.close] else []
  | .producer =>
    match s.producer with
    | .reload value => if s.writeSeq - s.readSeq > s.mask then [.trySend value (.error value)] else []
    | .publish value => [.trySend value (.ok ())]
    | _ => []
  | .consumer =>
    match s.consumer with
    | .reload site => if s.readSeq ≥ s.writeSeq then site.nothing else []
    | .advance site (some value) => [site.received value]
    | _ => []
  | _ => []

/-- The operations of a run. -/
def operations (capacity : U64) (es : List (RingEvent T)) : List (QueueOp T) :=
  Runs.emitted step performs (ringBuffer T capacity) es

/-- The results of `try_send`; a call that has published its value counts before it returns. -/
def sendOutcomes (s : RingBuffer T) : List (Except T Unit) :=
  match s.producer with
  | .published _ => s.sendResults ++ [.ok ()]
  | _ => s.sendResults

end RingBuffer

/-- The result of a send, as its caller sees it. -/
def sendResult? : QueueOp T → Option (Except T Unit)
  | .trySend _ result => some result
  | _ => none

/-- The result of a receive, as its caller sees it: the value is initialized. -/
def recvResult? : QueueOp T → Option (Option (MaybeUninit T))
  | .tryRecv result => some (result.map some)
  | .recv result => some (result.map some)
  | _ => none

/-! ## Masked indices -/

/-- The index of the slot that a sequence number has in a buffer of `n` slots. -/
def slotIndex (n seq : ℕ) : U64 := Fin.ofNat _ (seq % n)

theorem nextPowerOfTwo_cases (capacity : U64) :
    (∃ k, k < 64 ∧ (nextPowerOfTwo capacity).val = 2 ^ k) ∨ (nextPowerOfTwo capacity).val = 0 := by
  obtain ⟨k, hk⟩ := Nat.isPowerOfTwo_nextPowerOfTwo capacity.val
  have hval : (nextPowerOfTwo capacity).val = 2 ^ k % 2 ^ 64 := by
    unfold nextPowerOfTwo
    rw [Fin.val_ofNat, hk]
  by_cases hlt : k < 64
  · refine Or.inl ⟨k, hlt, ?_⟩
    rw [hval, Nat.mod_eq_of_lt (Nat.pow_lt_pow_right (by norm_num) hlt)]
  · refine Or.inr ?_
    rw [hval]
    exact Nat.mod_eq_zero_of_dvd (pow_dvd_pow 2 (by omega))

theorem slotCount_eq (capacity : U64) : ∃ k, 1 ≤ k ∧ k < 64 ∧ slotCount capacity = 2 ^ k := by
  unfold slotCount
  rcases nextPowerOfTwo_cases capacity with ⟨k, hk, hval⟩ | hval
  · rw [hval]
    cases k with
    | zero => exact ⟨1, le_rfl, by norm_num, rfl⟩
    | succ k =>
      refine ⟨k + 1, Nat.succ_pos k, hk, max_eq_right ?_⟩
      rw [pow_succ]
      have := Nat.one_le_two_pow (n := k)
      omega
  · rw [hval]
    exact ⟨1, le_rfl, by norm_num, rfl⟩

theorem mask_val (capacity : U64) :
    (max (nextPowerOfTwo capacity) 2 - 1 : U64).val + 1 = slotCount capacity := by
  have hmax : (max (nextPowerOfTwo capacity) 2 : U64).val = slotCount capacity := by
    unfold slotCount
    rw [max_comm, Fin.coe_max]
    rfl
  have hne : (max (nextPowerOfTwo capacity) 2 : U64) ≠ 0 := by
    intro h
    rw [h] at hmax
    unfold slotCount at hmax
    have := le_max_left 2 (nextPowerOfTwo capacity).val
    rw [← hmax] at this
    exact absurd this (by decide)
  rw [Fin.val_sub_one_of_ne_zero hne, hmax]
  unfold slotCount
  omega

theorem and_mask {mask seq : U64} {k : ℕ} (hmask : mask.val + 1 = 2 ^ k) :
    seq &&& mask = slotIndex (2 ^ k) seq.val := by
  have hval : mask.val = 2 ^ k - 1 := by omega
  refine Fin.ext ?_
  unfold slotIndex
  rw [Fin.val_ofNat, Fin.and_val, hval, Nat.and_two_pow_sub_one_eq_mod]
  exact (Nat.mod_eq_of_lt ((Nat.mod_le _ _).trans_lt seq.isLt)).symm

theorem slotIndex_ne {n i j : ℕ} (hn : n ≤ 2 ^ 64) (hij : i < j) (hj : j < i + n) :
    slotIndex n i ≠ slotIndex n j := by
  intro h
  have hval := congrArg Fin.val h
  have hpos : 0 < n := by omega
  unfold slotIndex at hval
  rw [Fin.val_ofNat, Fin.val_ofNat, Nat.mod_eq_of_lt ((Nat.mod_lt _ hpos).trans_le hn),
    Nat.mod_eq_of_lt ((Nat.mod_lt _ hpos).trans_le hn)] at hval
  have hdvd : n ∣ j - i := (Nat.modEq_iff_dvd' hij.le).mp hval
  have := Nat.le_of_dvd (by omega) hdvd
  omega

namespace RingBuffer

variable {n : ℕ} {s : RingBuffer T} {q : Channel T}

/-! ## The invariant -/

/-- What the producer knows at a step of `try_send`. -/
def ProducerAt (n : ℕ) (s : RingBuffer T) : ProducerPc T → Prop
  | .write _ => s.writeSeq.val < s.readSeq.val + n
  | .publish value => s.writeSeq.val < s.readSeq.val + n ∧
      s.buffer (slotIndex n s.writeSeq.val) = some value
  | _ => True

/-- What the consumer knows at a step of `try_recv`. -/
def ConsumerAt (s : RingBuffer T) (q : Channel T) : ConsumerPc T → Prop
  | .read _ => s.readSeq < s.cachedWriteSeq
  | .advance _ value => s.readSeq < s.cachedWriteSeq ∧
      ∃ a, value = some a ∧ q.sent[s.readSeq.val]? = some a
  | _ => True

/-- The ring buffer represents a queue of `n` places: the sequence numbers and their cached copies
are in order, and the slots between them hold the values that were sent but not received. -/
structure Represents (n : ℕ) (s : RingBuffer T) (q : Channel T) : Prop where
  slots : ∃ k, k < 64 ∧ n = 2 ^ k
  mask : s.mask.val + 1 = n
  cachedRead : s.cachedReadSeq ≤ s.readSeq
  readLe : s.readSeq ≤ s.cachedWriteSeq
  cachedWrite : s.cachedWriteSeq ≤ s.writeSeq
  room : s.writeSeq.val ≤ s.readSeq.val + n
  sent : q.sent.length = s.writeSeq.val
  taken : q.taken.length = s.readSeq.val
  contents : ∀ i a, s.readSeq.val ≤ i → q.sent[i]? = some a → s.buffer (slotIndex n i) = some a
  closed : q.closed = s.closed
  dropped : s.closed = true ↔ s.producer = .dropping ∨ s.producer = .dropped
  drain : s.consumer.site? = some .drain → s.closed = true
  producer : ProducerAt n s s.producer
  consumer : ConsumerAt s q s.consumer

theorem represents_init (capacity : U64) :
    Represents (slotCount capacity) (ringBuffer T capacity) {} where
  slots := by
    obtain ⟨k, -, hk, hn⟩ := slotCount_eq capacity
    exact ⟨k, hk, hn⟩
  mask := mask_val capacity
  cachedRead := le_rfl
  readLe := le_rfl
  cachedWrite := le_rfl
  room := Nat.zero_le _
  sent := rfl
  taken := rfl
  contents i a _ h := by simp [Channel.sent] at h
  closed := rfl
  dropped := by simp [ringBuffer]
  drain h := by cases h
  producer := trivial
  consumer := trivial

theorem Represents.length_queue (h : Represents n s q) :
    q.queue.length = s.writeSeq.val - s.readSeq.val := by
  have hsent := h.sent
  unfold Channel.sent at hsent
  rw [List.length_append, h.taken] at hsent
  omega

theorem Represents.open_of (h : Represents n s q) (hp : s.producer ≠ .dropping)
    (hp' : s.producer ≠ .dropped) : s.closed = false := by
  rw [Bool.eq_false_iff]
  intro hclosed
  rcases h.dropped.mp hclosed with hd | hd
  · exact hp hd
  · exact hp' hd

theorem sub_gt_mask_iff {read write mask : U64} (hmask : mask.val + 1 = n) (hle : read ≤ write) :
    write - read > mask ↔ read.val + n ≤ write.val := by
  have hval : (write - read).val = write.val - read.val := Fin.sub_val_of_le hle
  have hle' : read.val ≤ write.val := hle
  rw [gt_iff_lt, Fin.lt_def, hval]
  omega

theorem Represents.setProducer (h : Represents n s q) {p : ProducerPc T} {cached : U64}
    (hopen : s.closed = false) (hcached : cached ≤ s.readSeq)
    (hp : p ≠ .dropping ∧ p ≠ .dropped) (hat : ProducerAt n s p) (results : List (Except T Unit)) :
    Represents n { s with cachedReadSeq := cached, producer := p, sendResults := results } q where
  slots := h.slots
  mask := h.mask
  cachedRead := hcached
  readLe := h.readLe
  cachedWrite := h.cachedWrite
  room := h.room
  sent := h.sent
  taken := h.taken
  contents := h.contents
  closed := h.closed
  dropped := by
    change s.closed = true ↔ p = .dropping ∨ p = .dropped
    simp [hopen, hp.1, hp.2]
  drain := h.drain
  producer := hat
  consumer := h.consumer

theorem Represents.setConsumer (h : Represents n s q) {c : ConsumerPc T} {cached : U64}
    (hcached : s.readSeq ≤ cached) (hcached' : cached ≤ s.writeSeq)
    (hdrain : c.site? = some .drain → s.closed = true)
    (hat : ConsumerAt { s with cachedWriteSeq := cached } q c) (permit : Bool)
    (results : List (Option (MaybeUninit T))) :
    Represents n { s with
      cachedWriteSeq := cached, permit := permit, consumer := c, recvResults := results } q where
  slots := h.slots
  mask := h.mask
  cachedRead := h.cachedRead
  readLe := hcached
  cachedWrite := hcached'
  room := h.room
  sent := h.sent
  taken := h.taken
  contents := h.contents
  closed := h.closed
  dropped := h.dropped
  drain := hdrain
  producer := h.producer
  consumer := hat

theorem notifyOne_frame (s : RingBuffer T) : s.notifyOne.recvResults = s.recvResults ∧
    s.notifyOne.sendResults = s.sendResults ∧ s.notifyOne.writeSeq = s.writeSeq ∧
      s.notifyOne.closed = s.closed := by
  unfold RingBuffer.notifyOne
  split <;> exact ⟨rfl, rfl, rfl, rfl⟩

theorem Represents.notifyOne (h : Represents n s q) : Represents n s.notifyOne q := by
  unfold RingBuffer.notifyOne
  split
  · exact h.setConsumer (c := .check .afterWakeup) h.readLe h.cachedWrite
      (by simp [ConsumerPc.site?]) trivial _ _
  · exact h.setConsumer h.readLe h.cachedWrite h.drain h.consumer _ _

end RingBuffer

end Flume
