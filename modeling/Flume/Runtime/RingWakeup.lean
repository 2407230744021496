import Flume.Runtime.RingBuffer

/-!
# Wakeups of the ring buffer

`try_send` decides from its cached copy of the consumer's sequence number whether the buffer was
empty. When that copy is out of date a parked consumer is not woken.

* `NoLostWakeup`: a parked consumer without a permit has nothing to receive;
* `FreshCache`: an element that fills the empty buffer of a consumer falling asleep is published
  with an up-to-date cache, and the sequence number does not wrap;
* `Awake`: the invariant, what the consumer has seen since it last found the buffer empty;
* **`ringBuffer_noLostWakeup`**: a run whose publishing steps have a fresh cache loses no wakeup.
-/

namespace Flume

variable {T : Type}

/-- The next step publishes an element. -/
def ProducerPc.publishing : ProducerPc T → Bool
  | .publish _ => true
  | _ => false

/-- The consumer has found the buffer empty and goes to sleep. -/
def ConsumerPc.FallingAsleep : ConsumerPc T → Prop
  | .checkClosed false | .park | .parked => True
  | _ => False

instance : DecidablePred (ConsumerPc.FallingAsleep (T := T))
  | .checkClosed false | .park | .parked => instDecidableTrue
  | .checkClosed true | .idle | .check _ | .reload _ | .read _ | .advance _ _ => instDecidableFalse

/-- The consumer has also found the producer alive. -/
def ConsumerPc.Asleep : ConsumerPc T → Prop
  | .park | .parked => True
  | _ => False

/-- The consumer has found an element that it is going to take. -/
def ConsumerPc.Taking : ConsumerPc T → Prop
  | .read _ | .advance _ _ => True
  | _ => False

theorem ConsumerPc.Asleep.fallingAsleep {c : ConsumerPc T} (h : c.Asleep) : c.FallingAsleep := by
  cases c <;> first | exact h.elim | trivial

namespace RingBuffer

/-- A call of `try_send` is in progress. -/
def Sending (s : RingBuffer T) : Prop :=
  match s.producer with
  | .idle | .dropping | .dropped => False
  | _ => True

/-- If the consumer is parked without a permit and no `try_send` is in progress, the buffer is
empty and the producer is still there. -/
def NoLostWakeup (s : RingBuffer T) : Prop :=
  s.consumer = .parked → s.permit = false → ¬ s.Sending →
    s.writeSeq = s.readSeq ∧ s.producer ≠ .dropped

/-- A step that fills an empty buffer, while the consumer falls asleep without a permit, finds the
cached sequence number up to date; and no step wraps the sequence number. -/
def FreshCache (s : RingBuffer T) : RingEvent T → Prop
  | .producer => s.producer.publishing = true →
      (s.readSeq = s.writeSeq → s.consumer.FallingAsleep → s.permit = false →
        s.cachedReadSeq = s.writeSeq) ∧ (s.writeSeq : ℕ) + 1 < 2 ^ 64
  | _ => True

instance (s : RingBuffer T) : ∀ ev, Decidable (FreshCache s ev)
  | .producer => inferInstanceAs (Decidable (s.producer.publishing = true →
      (s.readSeq = s.writeSeq → s.consumer.FallingAsleep → s.permit = false →
        s.cachedReadSeq = s.writeSeq) ∧ (s.writeSeq : ℕ) + 1 < 2 ^ 64))
  | .trySend _ => instDecidableTrue
  | .dropProducer => instDecidableTrue
  | .recv => instDecidableTrue
  | .tryRecv => instDecidableTrue
  | .consumer => instDecidableTrue

/-! ## The invariant -/

/-- The invariant of runs with a fresh cache. -/
structure Awake (s : RingBuffer T) : Prop where
  readLe : s.readSeq ≤ s.cachedWriteSeq
  cachedLe : s.cachedWriteSeq ≤ s.writeSeq
  taking : s.consumer.Taking → s.readSeq < s.cachedWriteSeq
  notified : s.consumer.FallingAsleep → s.writeSeq ≠ s.readSeq →
    s.permit = true ∨ s.producer = .published s.cachedReadSeq
  closedNotified : s.consumer.Asleep → s.closed = true →
    s.permit = true ∨ s.producer = .dropping
  droppedClosed : s.producer = .dropping ∨ s.producer = .dropped → s.closed = true

theorem Awake.noLostWakeup {s : RingBuffer T} (h : Awake s) : NoLostWakeup s := by
  intro hparked hpermit hsending
  constructor
  · by_contra hne
    rcases h.notified (by rw [hparked]; trivial) hne with hp | hp
    · rw [hpermit] at hp; cases hp
    · exact hsending (by unfold Sending; rw [hp]; trivial)
  · intro hdropped
    rcases h.closedNotified (by rw [hparked]; trivial) (h.droppedClosed (.inr hdropped)) with hp | hp
    · rw [hpermit] at hp; cases hp
    · rw [hdropped] at hp; cases hp

theorem Awake.notifyOne {s : RingBuffer T} (h : Awake s) (p : ProducerPc T)
    (hp : p = .dropping ∨ p = .dropped → s.closed = true) (results : List (Except T Unit)) :
    Awake { s.notifyOne with producer := p, sendResults := results } := by
  unfold RingBuffer.notifyOne
  split
  · exact ⟨h.readLe, h.cachedLe, fun hf => absurd hf id, fun hf => absurd hf id,
      fun hf => absurd hf id, hp⟩
  · exact ⟨h.readLe, h.cachedLe, h.taking, fun _ _ => .inl rfl, fun _ _ => .inl rfl, hp⟩

theorem Awake.producerLocal {s : RingBuffer T} (h : Awake s) {p : ProducerPc T}
    (hs : ∀ c, s.producer ≠ .published c) (hd : s.producer ≠ .dropping)
    (hp : p ≠ .dropping ∧ p ≠ .dropped) (buffer : U64 → MaybeUninit T) (cached : U64)
    (results : List (Except T Unit)) :
    Awake { s with
      buffer := buffer, cachedReadSeq := cached, producer := p, sendResults := results } where
  readLe := h.readLe
  cachedLe := h.cachedLe
  taking := h.taking
  notified hf hne := .inl ((h.notified hf hne).resolve_right (hs _))
  closedNotified hf hc := .inl ((h.closedNotified hf hc).resolve_right hd)
  droppedClosed hpd := absurd hpd (not_or.mpr hp)

theorem Awake.producerStep {s : RingBuffer T} (h : Awake s) (hfresh : FreshCache s .producer) :
    Awake s.producerStep := by
  unfold RingBuffer.producerStep
  cases hp : s.producer with
  | idle => exact h
  | dropped => exact h
  | check value =>
    simp only
    split_ifs
    · exact h.producerLocal (by simp [hp]) (by simp [hp]) (by simp) _ _ _
    · exact h.producerLocal (by simp [hp]) (by simp [hp]) (by simp) _ _ _
  | reload value =>
    simp only
    split_ifs
    · exact h.producerLocal (by simp [hp]) (by simp [hp]) (by simp) _ _ _
    · exact h.producerLocal (by simp [hp]) (by simp [hp]) (by simp) _ _ _
  | write value => exact h.producerLocal (by simp [hp]) (by simp [hp]) (by simp) _ _ _
  | publish value =>
    obtain ⟨hfresh, hwrap⟩ := hfresh (by rw [hp]; rfl)
    have hval : ((s.writeSeq + 1 : U64) : ℕ) = s.writeSeq + 1 := by
      rw [Fin.val_add_one_of_lt' hwrap]
    refine ⟨h.readLe, ?_, h.taking, fun hf _ => ?_, fun hf hc => ?_, fun hd => (by simp at hd)⟩
    · have := h.cachedLe
      simp only [Fin.le_def, hval] at this ⊢
      omega
    · by_cases he : s.writeSeq = s.readSeq
      · cases hpermit : s.permit with
        | true => exact .inl rfl
        | false =>
          -- the buffer was empty: the fresh cache makes the next step notify
          exact .inr (by rw [hfresh he.symm hf hpermit])
      · exact .inl ((h.notified hf he).resolve_right (by simp [hp]))
    · exact .inl ((h.closedNotified hf hc).resolve_right (by simp [hp]))
  | published write =>
    simp only
    split_ifs with hw
    · exact h.notifyOne .idle (by simp) _
    · have hne : s.producer ≠ .published s.cachedReadSeq := by
        rw [hp]; intro he; exact hw (ProducerPc.published.inj he)
      exact ⟨h.readLe, h.cachedLe, h.taking, fun hf he => .inl ((h.notified hf he).resolve_right hne),
        fun hf hc => .inl ((h.closedNotified hf hc).resolve_right (by simp [hp])),
        fun hd => (by simp at hd)⟩
  | dropping =>
    exact h.notifyOne .dropped (fun _ => h.droppedClosed (.inl hp)) s.notifyOne.sendResults

theorem Awake.consumerAwake {s : RingBuffer T} (h : Awake s) {c : ConsumerPc T} {read cached : U64}
    (hread : read ≤ cached) (hcached : cached ≤ s.writeSeq)
    (htaking : c.Taking → read < cached) (hc : ¬ c.FallingAsleep)
    (permit : Bool) (results : List (Option (MaybeUninit T))) :
    Awake { s with
      readSeq := read, cachedWriteSeq := cached, consumer := c, permit := permit,
      recvResults := results } where
  readLe := hread
  cachedLe := hcached
  taking := htaking
  notified hf := absurd hf hc
  closedNotified hf := absurd hf.fallingAsleep hc
  droppedClosed := h.droppedClosed

theorem Awake.returnedNone {s : RingBuffer T} (h : Awake s) (he : s.writeSeq = s.readSeq)
    (site : RecvSite) : Awake (s.returned site none) := by
  have hcalm : ∀ (c : ConsumerPc T) results, ¬ c.Taking → ¬ c.Asleep →
      Awake { s with consumer := c, recvResults := results } := fun c results ht ha =>
    ⟨h.readLe, h.cachedLe, fun hf => absurd hf ht, fun _ hne => absurd he hne,
      fun hf => absurd hf ha, h.droppedClosed⟩
  unfold returned
  cases site with
  | spin k =>
    simp only
    split_ifs
    · exact hcalm _ _ id id
    · exact hcalm _ _ id id
  | _ => exact hcalm _ _ id id

theorem Awake.returnedSome {s : RingBuffer T} {read : U64} (h : Awake s)
    (hread : read ≤ s.cachedWriteSeq) (site : RecvSite) (value : MaybeUninit T) :
    Awake ({ s with readSeq := read }.returned site (some value)) := by
  have hidle : Awake { s with
      readSeq := read, consumer := .idle, recvResults := s.recvResults ++ [some value] } :=
    h.consumerAwake hread h.cachedLe (fun hf => absurd hf id) id s.permit _
  cases site <;> exact hidle

theorem Awake.consumerStep {s : RingBuffer T} (h : Awake s) : Awake s.consumerStep := by
  unfold RingBuffer.consumerStep
  cases hc : s.consumer with
  | idle => exact h
  | parked => exact h
  | check site =>
    simp only
    split_ifs with hle
    · exact h.consumerAwake h.readLe h.cachedLe (fun hf => absurd hf id) id s.permit _
    · exact h.consumerAwake h.readLe h.cachedLe (fun _ => not_le.mp hle) id s.permit _
  | reload site =>
    simp only
    have hrw := h.readLe.trans h.cachedLe
    split_ifs with hle
    · have hempty : s.writeSeq = s.readSeq := le_antisymm hle hrw
      have hs : Awake { s with cachedWriteSeq := s.writeSeq } :=
        ⟨hrw, le_rfl, fun hf => absurd hf (by rw [hc]; exact id), h.notified, h.closedNotified,
          h.droppedClosed⟩
      exact hs.returnedNone hempty site
    · exact h.consumerAwake hrw le_rfl (fun _ => not_le.mp hle) id s.permit _
  | read site =>
    have hlt := h.taking (by rw [hc]; trivial)
    exact h.consumerAwake h.readLe h.cachedLe (fun _ => hlt) id s.permit _
  | advance site value =>
    have hlt := h.taking (by rw [hc]; trivial)
    exact h.returnedSome (Fin.add_one_le_of_lt hlt) site value
  | checkClosed afterWakeup =>
    simp only
    split_ifs with hclosed hwake
    · exact h.consumerAwake h.readLe h.cachedLe (fun hf => absurd hf id) id s.permit _
    · exact h.consumerAwake h.readLe h.cachedLe (fun hf => absurd hf id) id s.permit _
    · exact ⟨h.readLe, h.cachedLe, fun hf => absurd hf id,
        fun _ => h.notified (by rw [hc, Bool.eq_false_iff.mpr hwake]; trivial),
        fun _ hcl => absurd hcl hclosed, h.droppedClosed⟩
  | park =>
    simp only
    split_ifs with hpermit
    · exact h.consumerAwake h.readLe h.cachedLe (fun hf => absurd hf id) id false _
    · exact ⟨h.readLe, h.cachedLe, fun hf => absurd hf id,
        fun _ => h.notified (by rw [hc]; trivial), fun _ => h.closedNotified (by rw [hc]; trivial),
        h.droppedClosed⟩

theorem Awake.step {s : RingBuffer T} (h : Awake s) (ev : RingEvent T) (hfresh : FreshCache s ev) :
    Awake (s.step ev) := by
  cases ev with
  | trySend value =>
    simp only [RingBuffer.step]
    split_ifs with hp
    · have hidle : s.producer = .idle := by cases hs : s.producer <;> simp [hs] at hp ⊢
      exact h.producerLocal (by simp [hidle]) (by simp [hidle]) (by simp) _ _ _
    · exact h
  | dropProducer =>
    simp only [RingBuffer.step]
    split_ifs with hp
    · have hidle : s.producer = .idle := by cases hs : s.producer <;> simp [hs] at hp ⊢
      exact ⟨h.readLe, h.cachedLe, h.taking,
        fun hf hne => .inl ((h.notified hf hne).resolve_right (by simp [hidle])),
        fun _ _ => .inr rfl, fun _ => rfl⟩
    · exact h
  | producer => exact h.producerStep hfresh
  | recv =>
    simp only [RingBuffer.step]
    split_ifs
    · exact h.consumerAwake h.readLe h.cachedLe (fun hf => absurd hf id) id s.permit _
    · exact h
  | tryRecv =>
    simp only [RingBuffer.step]
    split_ifs
    · exact h.consumerAwake h.readLe h.cachedLe (fun hf => absurd hf id) id s.permit _
    · exact h
  | consumer => exact h.consumerStep

theorem awake_ringBuffer (capacity : U64) : Awake (ringBuffer T capacity) where
  readLe := le_rfl
  cachedLe := le_rfl
  taking hf := absurd hf id
  notified hf := absurd hf id
  closedNotified hf := absurd hf id
  droppedClosed hd := by simp [ringBuffer] at hd

/-- **With a fresh cache no wakeup is lost:** a consumer that is parked without a permit has nothing
to receive, once no `try_send` is in progress. -/
theorem ringBuffer_noLostWakeup (capacity : U64) (es : List (RingEvent T))
    (hfresh : Runs.Along step FreshCache (ringBuffer T capacity) es) :
    NoLostWakeup (run capacity es) :=
  (Runs.exec_invariant_along (P := Awake) (fun _ ev h hq => h.step ev hq)
    (awake_ringBuffer capacity) hfresh).noLostWakeup

/-- A `recv` of an empty buffer up to where it parks. -/
def parkingRun : List (RingEvent ℕ) := .recv :: List.replicate 68 .consumer

/-- A `try_send` on a buffer that is not full. -/
def sendingRun (value : ℕ) : List (RingEvent ℕ) := .trySend value :: List.replicate 4 .producer

/-- Twice the consumer parks and an element is sent; the second time the producer still believes
that the first element has not been received. -/
def lostWakeupRun : List (RingEvent ℕ) :=
  parkingRun ++ sendingRun 1 ++ List.replicate 4 .consumer ++ parkingRun ++ sendingRun 2

/-- The consumer sleeps on a buffer with an element in it. -/
theorem lostWakeupRun_parked : ¬ NoLostWakeup (run 2 lostWakeupRun) := by
  intro h
  have hstate : (run 2 lostWakeupRun).consumer = .parked ∧ (run 2 lostWakeupRun).permit = false ∧
      (run 2 lostWakeupRun).producer = .idle ∧ (run 2 lostWakeupRun).writeSeq = 2 ∧
      (run 2 lostWakeupRun).readSeq = 1 := by decide +kernel
  obtain ⟨hparked, hpermit, hidle, hwrite, hread⟩ := hstate
  have hempty := (h hparked hpermit (by simp [Sending, hidle])).1
  rw [hwrite, hread] at hempty
  cases hempty

/-- The first wakeup of that run is not lost: the consumer receives and parks again. -/
theorem parkingAgain_noLostWakeup :
    (run 2 (parkingRun ++ sendingRun 1 ++ List.replicate 4 .consumer ++ parkingRun)).consumer =
      .parked ∧
    NoLostWakeup (run 2 (parkingRun ++ sendingRun 1 ++ List.replicate 4 .consumer ++ parkingRun)) :=
  ⟨by decide +kernel, ringBuffer_noLostWakeup 2 _ (by decide +kernel)⟩

end RingBuffer

end Flume
