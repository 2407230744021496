import Flume.Runtime.RingQueue

/-!
# The ring buffer refines a bounded FIFO queue

* `Takes`: a step is the given operations on the queue, and they are what the calls return;
* `Represents.producerStep`, `Represents.consumerStep`, `Represents.step`: every step is the
  operation that `performs` gives, or none;
* `publish_fits`: with fewer than `2 ^ 64` sends no sequence number wraps;
* **`takes_run`**: the operations of a run are those of a queue with `slotCount` places, and the
  calls return their results.
-/

namespace Flume.RingBuffer

open Channels

variable {T : Type} {n : ℕ} {s : RingBuffer T} {q : Channel T}

/-! ## The steps of the producer -/

/-- The step from `s` to `s'` is the operations `ops`, and they are what the calls return. -/
structure Takes (n : ℕ) (s s' : RingBuffer T) (q : Channel T) (ops : List (QueueOp T))
    (q' : Channel T) : Prop where
  performs : PerformsAll n q ops q'
  represents : Represents n s' q'
  sends : s'.sendOutcomes = s.sendOutcomes ++ ops.filterMap sendResult?
  receives : s'.recvResults = s.recvResults ++ ops.filterMap recvResult?

theorem Represents.takes_none {s' : RingBuffer T} (h : Represents n s' q)
    (hsends : s'.sendOutcomes = s.sendOutcomes) (hreceives : s'.recvResults = s.recvResults) :
    Takes n s s' q [] q where
  performs := .nil
  represents := h
  sends := hsends.trans (List.append_nil _).symm
  receives := hreceives.trans (List.append_nil _).symm

theorem Represents.write (h : Represents n s q) {value : T} (hp : s.producer = .write value) :
    Represents n { s with
      buffer := Function.update s.buffer (s.writeSeq &&& s.mask) (some value)
      producer := .publish value } q := by
  obtain ⟨k, hk, rfl⟩ := h.slots
  have hroom : s.writeSeq.val < s.readSeq.val + 2 ^ k := by
    have := h.producer
    rwa [hp] at this
  rw [and_mask h.mask]
  refine ⟨h.slots, h.mask, h.cachedRead, h.readLe, h.cachedWrite, h.room, h.sent, h.taken,
    fun i a hi ha => ?_, h.closed, ?_, h.drain, ⟨hroom, Function.update_self ..⟩, h.consumer⟩
  · have hlt : i < s.writeSeq.val := by
      rw [← h.sent]
      exact (List.getElem?_eq_some_iff.mp ha).1
    have hi' : s.readSeq.val ≤ i := hi
    change Function.update s.buffer _ _ _ = _
    rw [Function.update_of_ne, h.contents i a hi ha]
    exact slotIndex_ne (Nat.pow_le_pow_right (by norm_num) hk.le) hlt (by omega)
  · have := h.open_of (by simp [hp]) (by simp [hp])
    change s.closed = true ↔ _
    simp [this]

/-- Publishing the value puts it into the queue. -/
theorem Represents.publish (h : Represents n s q) {value : T} (hp : s.producer = .publish value)
    (hwrap : s.writeSeq.val + 1 < 2 ^ 64) : ∃ q', Performs n q (.trySend value (.ok ())) q' ∧
      Represents n { s with
        writeSeq := s.writeSeq + 1, producer := .published s.writeSeq } q' := by
  have hopen := h.open_of (by simp [hp]) (by simp [hp])
  obtain ⟨hroom, hslot⟩ : s.writeSeq.val < s.readSeq.val + n ∧
      s.buffer (slotIndex n s.writeSeq.val) = some value := by
    have := h.producer
    rwa [hp] at this
  have hval : (s.writeSeq + 1).val = s.writeSeq.val + 1 := by
    rw [Fin.val_add]
    exact Nat.mod_eq_of_lt hwrap
  have hsend : q.trySend n value = some { q with queue := q.queue ++ [value] } := by
    unfold Channel.trySend
    rw [if_pos]
    have hle : s.readSeq.val ≤ s.writeSeq.val := h.readLe.trans h.cachedWrite
    rw [h.length_queue]
    omega
  have hsent : ({ q with queue := q.queue ++ [value] } : Channel T).sent = q.sent ++ [value] :=
    Channel.sent_trySend hsend
  refine ⟨_, .accept (h.closed.trans hopen) hsend, h.slots, h.mask, h.cachedRead, h.readLe, ?_, ?_,
    ?_, h.taken, fun i a hi ha => ?_, h.closed, ?_, h.drain, trivial, ?_⟩
  · refine h.cachedWrite.trans (Fin.le_def.mpr ?_)
    rw [hval]
    exact Nat.le_succ _
  · change (s.writeSeq + 1).val ≤ _
    rw [hval]
    exact hroom
  · change _ = (s.writeSeq + 1).val
    rw [hsent, hval, List.length_append, h.sent, List.length_singleton]
  · rw [hsent] at ha
    rcases Nat.lt_or_ge i s.writeSeq.val with hlt | hge
    · rw [List.getElem?_append_left (by rw [h.sent]; exact hlt)] at ha
      exact h.contents i a hi ha
    · rw [List.getElem?_append_right (by rw [h.sent]; exact hge), h.sent] at ha
      obtain rfl : i = s.writeSeq.val := by
        have := (List.getElem?_eq_some_iff.mp ha).1
        simp only [List.length_singleton] at this
        omega
      rw [Nat.sub_self] at ha
      obtain rfl := Option.some.inj ha
      exact hslot
  · change s.closed = true ↔ _
    simp [hopen]
  · have hconsumer := h.consumer
    change ConsumerAt _ _ s.consumer
    cases hc : s.consumer with
    | advance site v =>
      rw [hc] at hconsumer
      obtain ⟨hlt, a, rfl, ha⟩ := hconsumer
      refine ⟨hlt, a, rfl, ?_⟩
      rw [hsent, List.getElem?_append_left (List.getElem?_eq_some_iff.mp ha).1]
      exact ha
    | read site => rw [hc] at hconsumer; exact hconsumer
    | _ => trivial

theorem sendOutcomes_of_ne {s : RingBuffer T} (h : ∀ w, s.producer ≠ .published w) :
    s.sendOutcomes = s.sendResults := by
  unfold sendOutcomes
  split
  · rename_i w hp
    exact absurd hp (h w)
  · rfl

theorem Represents.goOnSending (h : Represents n s q) {p : ProducerPc T} {cached : U64}
    (hs : ∀ w, s.producer ≠ .published w)
    (hopen : s.producer ≠ .dropping ∧ s.producer ≠ .dropped)
    (hp : (∀ w, p ≠ .published w) ∧ p ≠ .dropping ∧ p ≠ .dropped) (hcached : cached ≤ s.readSeq)
    (hat : ProducerAt n s p) :
    Takes n s { s with cachedReadSeq := cached, producer := p } q [] q := by
  refine (h.setProducer (h.open_of hopen.1 hopen.2) hcached hp.2 hat _).takes_none ?_ rfl
  rw [sendOutcomes_of_ne hs, sendOutcomes_of_ne hp.1]

theorem Represents.trySend_full (h : Represents n s q) (hfull : s.writeSeq - s.readSeq > s.mask)
    (value : T) : q.trySend n value = none := by
  have hlen := (sub_gt_mask_iff h.mask (h.readLe.trans h.cachedWrite)).mp hfull
  unfold Channel.trySend
  rw [if_neg]
  rw [h.length_queue]
  omega

theorem Represents.notifyDropped (h : Represents n s q) (hp : s.producer = .dropping) :
    Takes n s { s.notifyOne with producer := .dropped } q [] q := by
  have houtcomes : s.sendOutcomes = s.sendResults := sendOutcomes_of_ne (by simp [hp])
  have hclosed : s.closed = true := h.dropped.mpr (Or.inl hp)
  have hnotify := h.notifyOne
  obtain ⟨hreceives, hsends, -, hsame⟩ := notifyOne_frame s
  refine Represents.takes_none ⟨hnotify.slots, hnotify.mask, hnotify.cachedRead, hnotify.readLe,
    hnotify.cachedWrite, hnotify.room, hnotify.sent, hnotify.taken, hnotify.contents,
    hnotify.closed, ?_, hnotify.drain, trivial, hnotify.consumer⟩ (hsends.trans houtcomes.symm)
    hreceives
  change s.notifyOne.closed = true ↔ _
  simp [hsame, hclosed]

/-- **A step of the producer** is a send that succeeds or fails, or none. -/
theorem Represents.producerStep (h : Represents n s q)
    (hwrap : ∀ value, s.producer = .publish value → s.writeSeq.val + 1 < 2 ^ 64) :
    ∃ q', Takes n s s.producerStep q (s.performs .producer) q' := by
  have hreadWrite : s.readSeq ≤ s.writeSeq := h.readLe.trans h.cachedWrite
  unfold RingBuffer.producerStep performs
  cases hp : s.producer with
  | idle => exact ⟨q, h.takes_none rfl rfl⟩
  | dropped => exact ⟨q, h.takes_none rfl rfl⟩
  | check value =>
    dsimp only
    split_ifs with hfull
    · exact ⟨q, h.goOnSending (p := .reload value) (by simp [hp]) (by simp [hp]) (by simp)
        h.cachedRead trivial⟩
    · refine ⟨q, h.goOnSending (by simp [hp]) (by simp [hp]) (by simp) h.cachedRead ?_⟩
      rw [sub_gt_mask_iff h.mask (h.cachedRead.trans hreadWrite)] at hfull
      have hcached : s.cachedReadSeq.val ≤ s.readSeq.val := h.cachedRead
      change s.writeSeq.val < s.readSeq.val + n
      omega
  | reload value =>
    dsimp only
    split_ifs with hfull
    · have hopen := h.open_of (by simp [hp]) (by simp [hp])
      refine ⟨q, (Performs.full (h.trySend_full hfull value)).single,
        h.setProducer (p := .idle) hopen le_rfl (by simp) trivial _, ?_, (List.append_nil _).symm⟩
      rw [sendOutcomes_of_ne (s := s) (by simp [hp])]
      rfl
    · refine ⟨q, h.goOnSending (by simp [hp]) (by simp [hp]) (by simp) le_rfl ?_⟩
      rw [sub_gt_mask_iff h.mask hreadWrite] at hfull
      exact Nat.lt_of_not_le hfull
  | write value =>
    have houtcomes : s.sendOutcomes = s.sendResults := sendOutcomes_of_ne (by simp [hp])
    exact ⟨q, (h.write hp).takes_none houtcomes.symm rfl⟩
  | publish value =>
    have houtcomes : s.sendOutcomes = s.sendResults := sendOutcomes_of_ne (by simp [hp])
    obtain ⟨q', hperforms, hq'⟩ := h.publish hp (hwrap value hp)
    refine ⟨q', hperforms.single, hq', ?_, (List.append_nil _).symm⟩
    rw [houtcomes]
    rfl
  | published w =>
    have hopen := h.open_of (by simp [hp]) (by simp [hp])
    have houtcomes : s.sendOutcomes = s.sendResults ++ [.ok ()] := by
      unfold sendOutcomes
      rw [hp]
    dsimp only
    split_ifs
    · have hnotify := h.notifyOne
      exact ⟨q, (hnotify.setProducer (p := .idle) ((notifyOne_frame s).2.2.2.trans hopen)
        hnotify.cachedRead (by simp) trivial _).takes_none houtcomes.symm (notifyOne_frame s).1⟩
    · exact ⟨q, (h.setProducer (p := .idle) hopen h.cachedRead (by simp) trivial _).takes_none
        houtcomes.symm rfl⟩
  | dropping => exact ⟨q, h.notifyDropped hp⟩

/-! ## The steps of the consumer -/

theorem Represents.goOn (h : Represents n s q) (c : ConsumerPc T)
    (hdrain : c.site? = some .drain → s.closed = true) (hat : ConsumerAt s q c) :
    Takes n s { s with consumer := c } q [] q :=
  (h.setConsumer h.readLe h.cachedWrite hdrain hat _ _).takes_none rfl rfl

theorem returned_some (s : RingBuffer T) (site : RecvSite) (value : MaybeUninit T) :
    s.returned site (some value) =
      { s with consumer := .idle, recvResults := s.recvResults ++ [some value] } := by
  cases site <;> rfl

/-- A `try_recv` that finds nothing, from wherever it was called. -/
theorem Represents.returned_none (h : Represents n s q) (hempty : s.readSeq = s.writeSeq)
    {site : RecvSite} (hsite : s.consumer.site? = some site) :
    Takes n s (s.returned site none) q site.nothing q := by
  have hqueue : q.queue = [] := by
    rw [← List.length_eq_zero_iff, h.length_queue, hempty]
    omega
  cases site with
  | user =>
    refine ⟨(Performs.empty hqueue).single, ?_, (List.append_nil _).symm, rfl⟩
    exact h.setConsumer (c := .idle) h.readLe h.cachedWrite (by simp [ConsumerPc.site?]) trivial _ _
  | fastPath => exact h.goOn (.check (.spin 0)) (by simp [ConsumerPc.site?]) trivial
  | spin k =>
    unfold RingBuffer.returned
    dsimp only
    split_ifs
    · exact h.goOn (.check (.spin (k + 1))) (by simp [ConsumerPc.site?]) trivial
    · exact h.goOn (.checkClosed false) (by simp [ConsumerPc.site?]) trivial
  | afterWakeup => exact h.goOn (.checkClosed true) (by simp [ConsumerPc.site?]) trivial
  | drain =>
    have hclosed : q.closed = true := h.closed.trans (h.drain hsite)
    have hrecv : q.tryRecv = .disconnected := by
      unfold Channel.tryRecv
      rw [hqueue]
      exact if_pos hclosed
    refine ⟨(Performs.ended hrecv).single, ?_, (List.append_nil _).symm, rfl⟩
    exact h.setConsumer (c := .idle) h.readLe h.cachedWrite (by simp [ConsumerPc.site?]) trivial _ _

/-- Advancing the read sequence number takes the first value out of the queue. -/
theorem Represents.advance (h : Represents n s q) {a : T} (hlt : s.readSeq < s.cachedWriteSeq)
    (ha : q.sent[s.readSeq.val]? = some a) (results : List (Option (MaybeUninit T))) :
    ∃ q', q.tryRecv = .item a q' ∧ Represents n { s with
      readSeq := s.readSeq + 1, consumer := .idle, recvResults := results } q' := by
  have hval : (s.readSeq + 1).val = s.readSeq.val + 1 := by
    rw [Fin.val_add]
    exact Nat.mod_eq_of_lt (lt_of_le_of_lt (Nat.succ_le_of_lt hlt) s.cachedWriteSeq.isLt)
  have hhead : q.queue.head? = some a := by
    unfold Channel.sent at ha
    rw [List.getElem?_append_right h.taken.le, h.taken, Nat.sub_self] at ha
    rw [List.head?_eq_getElem?]
    exact ha
  obtain ⟨q', hrecv⟩ := Channel.tryRecv_of_head? hhead
  obtain ⟨-, htaken, hclosed⟩ := Channel.tryRecv_item hrecv
  have hsent := Channel.sent_of_tryRecv hrecv
  refine ⟨q', hrecv, h.slots, h.mask, ?_, ?_, h.cachedWrite, ?_, ?_, ?_, ?_, hclosed.trans h.closed,
    h.dropped, fun hd => (by cases hd), ?_, trivial⟩
  · refine h.cachedRead.trans (Fin.le_def.mpr ?_)
    rw [hval]
    exact Nat.le_succ _
  · refine Fin.le_def.mpr ?_
    change (s.readSeq + 1).val ≤ _
    rw [hval]
    exact hlt
  · have := h.room
    change _ ≤ (s.readSeq + 1).val + n
    rw [hval]
    exact this.trans (by omega)
  · rw [hsent]
    exact h.sent
  · change _ = (s.readSeq + 1).val
    rw [htaken, hval, List.length_append, h.taken, List.length_singleton]
  · intro i b hi hb
    rw [hsent] at hb
    refine h.contents i b ?_ hb
    change (s.readSeq + 1).val ≤ i at hi
    rw [hval] at hi
    exact Nat.le_of_succ_le hi
  · have hproducer := h.producer
    change ProducerAt n _ s.producer
    cases hp : s.producer with
    | write value =>
      rw [hp] at hproducer
      change _ < (s.readSeq + 1).val + n
      rw [hval]
      exact lt_trans hproducer (by omega)
    | publish value =>
      rw [hp] at hproducer
      refine ⟨?_, hproducer.2⟩
      change _ < (s.readSeq + 1).val + n
      rw [hval]
      exact lt_trans hproducer.1 (by omega)
    | _ => trivial

/-- **A step of the consumer** is a receive that finds a value or nothing, or none. -/
theorem Represents.consumerStep (h : Represents n s q) :
    ∃ q', Takes n s s.consumerStep q (s.performs .consumer) q' := by
  have hconsumer := h.consumer
  have hdrain := h.drain
  unfold RingBuffer.consumerStep performs
  cases hc : s.consumer with
  | idle => exact ⟨q, h.takes_none rfl rfl⟩
  | parked => exact ⟨q, h.takes_none rfl rfl⟩
  | check site =>
    rw [hc] at hdrain
    dsimp only
    split_ifs with hstale
    · exact ⟨q, h.goOn (.reload site) hdrain trivial⟩
    · exact ⟨q, h.goOn (.read site) hdrain (lt_of_not_ge hstale)⟩
  | reload site =>
    rw [hc] at hdrain
    have hreadWrite : s.readSeq ≤ s.writeSeq := h.readLe.trans h.cachedWrite
    dsimp only
    split_ifs with hempty
    · have hfresh : Represents n { s with cachedWriteSeq := s.writeSeq } q :=
        h.setConsumer hreadWrite le_rfl h.drain (by rw [hc]; trivial) _ _
      have hsite : s.consumer.site? = some site := by
        rw [hc]
        rfl
      have htakes := hfresh.returned_none (le_antisymm hreadWrite hempty) hsite
      exact ⟨q, htakes.performs, htakes.represents, htakes.sends, htakes.receives⟩
    · exact ⟨q, (h.setConsumer (c := .read site) hreadWrite le_rfl hdrain
        (lt_of_not_ge hempty) _ _).takes_none rfl rfl⟩
  | read site =>
    rw [hc] at hdrain hconsumer
    obtain ⟨k, hk, rfl⟩ := h.slots
    have hlt : s.readSeq.val < q.sent.length := by
      rw [h.sent]
      exact lt_of_lt_of_le hconsumer h.cachedWrite
    have hvalue := h.contents _ _ le_rfl (List.getElem?_eq_getElem hlt)
    dsimp only
    rw [and_mask h.mask, hvalue]
    exact ⟨q, h.goOn (.advance site _) hdrain
      ⟨hconsumer, _, rfl, List.getElem?_eq_getElem hlt⟩⟩
  | advance site value =>
    rw [hc] at hconsumer
    obtain ⟨hlt, a, rfl, ha⟩ := hconsumer
    obtain ⟨q', hrecv, hq'⟩ := h.advance hlt ha (s.recvResults ++ [some (some a)])
    dsimp only
    rw [returned_some]
    refine ⟨q', ?_, hq', ?_, ?_⟩
    · cases site with
      | user => exact (Performs.poll hrecv).single
      | _ => exact (Performs.item hrecv).single
    · cases site <;> exact (List.append_nil _).symm
    · cases site <;> rfl
  | checkClosed afterWakeup =>
    dsimp only
    split_ifs with hclosed
    · exact ⟨q, h.goOn (.check .drain) (fun _ => hclosed) trivial⟩
    · exact ⟨q, h.goOn (.check (.spin 0)) (by simp [ConsumerPc.site?]) trivial⟩
    · exact ⟨q, h.goOn .park (by simp [ConsumerPc.site?]) trivial⟩
  | park =>
    dsimp only
    split_ifs
    · exact ⟨q, (h.setConsumer (c := .check .afterWakeup) h.readLe h.cachedWrite
        (by simp [ConsumerPc.site?]) trivial _ _).takes_none rfl rfl⟩
    · exact ⟨q, h.goOn .parked (by simp [ConsumerPc.site?]) trivial⟩

/-! ## The runs -/

theorem producer_eq_idle (h : (s.producer matches .idle) = true) : s.producer = .idle := by
  cases hp : s.producer <;> rw [hp] at h <;> first | rfl | cases h

theorem Represents.dropProducer (h : Represents n s q) :
    Represents n { s with closed := true, producer := .dropping } q.close where
  slots := h.slots
  mask := h.mask
  cachedRead := h.cachedRead
  readLe := h.readLe
  cachedWrite := h.cachedWrite
  room := h.room
  sent := h.sent
  taken := h.taken
  contents := h.contents
  closed := rfl
  dropped := by simp
  drain _ := rfl
  producer := trivial
  consumer := by
    have hconsumer := h.consumer
    change ConsumerAt _ _ s.consumer
    cases hc : s.consumer <;> rw [hc] at hconsumer <;> exact hconsumer

/-- **Every step is the operation that `performs` gives, or none.** -/
theorem Represents.step (h : Represents n s q) (ev : RingEvent T)
    (hwrap : ∀ value, s.producer = .publish value → s.writeSeq.val + 1 < 2 ^ 64) :
    ∃ q', Takes n s (s.step ev) q (s.performs ev) q' := by
  unfold RingBuffer.step performs
  cases ev with
  | trySend value =>
    dsimp only
    split_ifs with hidle
    · have hp := producer_eq_idle hidle
      exact ⟨q, h.goOnSending (p := .check value) (by simp [hp]) (by simp [hp]) (by simp)
        h.cachedRead trivial⟩
    · exact ⟨q, h.takes_none rfl rfl⟩
  | dropProducer =>
    dsimp only
    cases hp : s.producer with
    | idle =>
      have houtcomes : s.sendOutcomes = s.sendResults := sendOutcomes_of_ne (by simp [hp])
      refine ⟨q.close, Performs.close.single, h.dropProducer, ?_, (List.append_nil _).symm⟩
      rw [houtcomes]
      exact (List.append_nil _).symm
    | _ => exact ⟨q, h.takes_none rfl rfl⟩
  | producer => exact h.producerStep hwrap
  | recv =>
    dsimp only
    split_ifs
    · exact ⟨q, h.goOn (.check .fastPath) (by simp [ConsumerPc.site?]) trivial⟩
    · exact ⟨q, h.takes_none rfl rfl⟩
  | tryRecv =>
    dsimp only
    split_ifs
    · exact ⟨q, h.goOn (.check .user) (by simp [ConsumerPc.site?]) trivial⟩
    · exact ⟨q, h.takes_none rfl rfl⟩
  | consumer => exact h.consumerStep

theorem consumerStep_frame (s : RingBuffer T) :
    s.consumerStep.writeSeq = s.writeSeq ∧ s.consumerStep.producer = s.producer := by
  have hreturned : ∀ (s : RingBuffer T) site result,
      (s.returned site result).writeSeq = s.writeSeq ∧
        (s.returned site result).producer = s.producer := by
    intro s site result
    unfold returned
    split
    · exact ⟨rfl, rfl⟩
    · split_ifs <;> exact ⟨rfl, rfl⟩
    · exact ⟨rfl, rfl⟩
    · exact ⟨rfl, rfl⟩
  unfold consumerStep
  split
  · exact ⟨rfl, rfl⟩
  · split_ifs <;> exact ⟨rfl, rfl⟩
  · split_ifs
    · exact hreturned _ _ _
    · exact ⟨rfl, rfl⟩
  · exact ⟨rfl, rfl⟩
  · exact hreturned _ _ _
  · split_ifs <;> exact ⟨rfl, rfl⟩
  · split_ifs <;> exact ⟨rfl, rfl⟩
  · exact ⟨rfl, rfl⟩

/-- Every value that is published was passed to a call of `try_send`. -/
theorem sends_step (s : RingBuffer T) (ev : RingEvent T) :
    (s.step ev).writeSeq.val + (s.step ev).producer.unpublished ≤
      s.writeSeq.val + s.producer.unpublished + ev.isTrySend.toNat := by
  unfold RingBuffer.step
  cases ev with
  | trySend value =>
    dsimp only
    split_ifs
    · exact Nat.add_le_add_right (Nat.le_add_right _ _) 1
    · exact Nat.le_succ _
  | dropProducer =>
    dsimp only
    split_ifs
    · exact Nat.add_le_add_right (Nat.le_add_right _ _) 0
    · exact le_rfl
  | producer =>
    change s.producerStep.writeSeq.val + s.producerStep.producer.unpublished ≤ _
    unfold producerStep
    cases hp : s.producer with
    | check value => dsimp only; split_ifs <;> simp [ProducerPc.unpublished]
    | reload value => dsimp only; split_ifs <;> simp [ProducerPc.unpublished, add_assoc]
    | publish value =>
      have hle : (s.writeSeq + 1).val ≤ s.writeSeq.val + 1 := by
        rw [Fin.val_add]
        exact Nat.mod_le _ _
      exact hle
    | published w =>
      dsimp only
      split_ifs
      · simp [ProducerPc.unpublished, (notifyOne_frame s).2.2.1]
      · simp [ProducerPc.unpublished]
    | dropping => simp [ProducerPc.unpublished, (notifyOne_frame s).2.2.1]
    | _ => simp [ProducerPc.unpublished, hp]
  | recv =>
    dsimp only
    split_ifs <;> exact le_rfl
  | tryRecv =>
    dsimp only
    split_ifs <;> exact le_rfl
  | consumer =>
    change s.consumerStep.writeSeq.val + s.consumerStep.producer.unpublished ≤ _
    rw [(consumerStep_frame s).1, (consumerStep_frame s).2]
    exact Nat.le_add_right _ _

theorem sends_run (capacity : U64) (es : List (RingEvent T)) :
    (run capacity es).writeSeq.val + (run capacity es).producer.unpublished ≤
      es.countP RingEvent.isTrySend := by
  induction es using List.reverseRecOn with
  | nil => exact le_rfl
  | append_singleton es ev ih =>
    have hstep := sends_step (run capacity es) ev
    unfold run at ih hstep ⊢
    rw [Runs.exec_concat, List.countP_append, List.countP_singleton]
    refine hstep.trans (Nat.add_le_add ih ?_)
    cases ev.isTrySend <;> exact le_rfl

theorem publish_fits {capacity : U64} {es : List (RingEvent T)}
    (hsends : es.countP RingEvent.isTrySend < 2 ^ 64) (value : T)
    (hp : (run capacity es).producer = .publish value) :
    (run capacity es).writeSeq.val + 1 < 2 ^ 64 := by
  have hle := sends_run capacity es
  rw [hp] at hle
  exact lt_of_le_of_lt hle hsends

/-- **Every run** is the operations that its steps perform. -/
theorem takes_run (capacity : U64) {es : List (RingEvent T)}
    (hsends : es.countP RingEvent.isTrySend < 2 ^ 64) : ∃ q, Takes (slotCount capacity)
      (ringBuffer T capacity) (run capacity es) {} (operations capacity es) q := by
  induction es using List.reverseRecOn with
  | nil => exact ⟨{}, (represents_init capacity).takes_none rfl rfl⟩
  | append_singleton es ev ih =>
    rw [List.countP_append] at hsends
    have hsends' : es.countP RingEvent.isTrySend < 2 ^ 64 := by omega
    obtain ⟨q, hq⟩ := ih hsends'
    obtain ⟨q', hq'⟩ := hq.represents.step ev (publish_fits hsends')
    refine ⟨q', ?_⟩
    unfold run at hq hq' ⊢
    unfold operations at hq ⊢
    rw [Runs.exec_concat, Runs.emitted_concat]
    refine ⟨hq.performs.append hq'.performs, hq'.represents, ?_, ?_⟩
    · rw [hq'.sends, hq.sends, List.append_assoc, List.filterMap_append]
    · rw [hq'.receives, hq.receives, List.append_assoc, List.filterMap_append]

end Flume.RingBuffer
