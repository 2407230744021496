import Flume.Network.ExchangeStart

/-!
# The balance of credits

A credit is with the collector, in a grant on its way, or spent on a data batch that has not been
delivered. What the receiver grants adds to this balance: the initial credits, and one for each
delivered batch, which for a barrier pays back a credit that was never spent.

* `Spends`: what a call of the collector does to the credits and to the batch channel;
* `balance`, `Accounted`: **the balance, the lost credits and the credit owed for a batch being
  delivered add up to the initial credits and those granted for barriers**;
* `NoSurplus`: a credit is granted for a barrier only when another one has been lost;
* **`balance_le_iff`**: the balance stays within the initial credits if and only if every step of
  the run is of that kind.
-/

namespace Flume

open Channels Fallible Framing

namespace NetworkCollector

variable {T : Type} {codec : Codec (StreamElement T)} {c c₁ c₂ c' : NetworkCollector}
  {batches : List DataBatch} {batch : DataBatch}

/-! ## What a call spends -/

/-- A call has put `batches` into the channel, and has paid a credit for each data batch. -/
structure Spends (c c' : NetworkCollector) (batches : List DataBatch) : Prop where
  channelId : c'.channelId = c.channelId
  taken : c'.batchTx.channel.taken = c.batchTx.channel.taken
  queue : c'.batchTx.channel.queue = c.batchTx.channel.queue ++ batches
  own : ∀ batch ∈ batches, batch.channelId = c.channelId
  paid : batches.countP DataBatch.isData + c'.credits.val ≤ c.credits.val

/-- A call has paid for what it sent. -/
def Paid (c c' : NetworkCollector) : Prop := ∃ batches, Spends c c' batches

theorem paid_buffer (c : NetworkCollector) (buffer : Bytes) (recordCount : U32) :
    Paid c { c with buffer := buffer, recordCount := recordCount } := by
  refine ⟨[], rfl, rfl, (List.append_nil _).symm, fun _ hb => absurd hb List.not_mem_nil, ?_⟩
  rw [List.countP_nil, zero_add]

theorem Paid.refl (c : NetworkCollector) : Paid c c := paid_buffer c c.buffer c.recordCount

theorem Paid.trans (h₁ : Paid c c₁) (h₂ : Paid c₁ c₂) : Paid c c₂ := by
  obtain ⟨batches₁, h₁⟩ := h₁
  obtain ⟨batches₂, h₂⟩ := h₂
  refine ⟨batches₁ ++ batches₂, h₂.channelId.trans h₁.channelId, h₂.taken.trans h₁.taken, ?_, ?_, ?_⟩
  · rw [h₂.queue, h₁.queue, List.append_assoc]
  · intro batch hb
    rcases List.mem_append.mp hb with hb | hb
    · exact h₁.own batch hb
    · exact (h₂.own batch hb).trans h₁.channelId
  · have := h₁.paid
    have := h₂.paid
    rw [List.countP_append]
    omega

theorem paid_bind {α β : Type} {x : Call α} {f : α → Call β} (hx : Paid c (x.runOn c).2)
    (hf : ∀ a t, Paid t ((f a).runOn t).2) : Paid c ((x >>= f).runOn c).2 :=
  runOn_bind_keeps (P := Paid c) hx fun a t ht => ht.trans (hf a t)

theorem paid_trySend (hown : batch.channelId = c.channelId) {credits : U32}
    {buffer : Bytes} {recordCount : U32}
    (hpaid : batch.isData.toNat + credits.val ≤ c.credits.val) :
    Paid c ((trySend batch).runOn { c with
      buffer := buffer, recordCount := recordCount, credits := credits }).2 := by
  unfold trySend BatchSender.trySend Channel.trySend
  rw [runOn_bind_ok runOn_get]
  dsimp only
  split_ifs
  · refine ⟨[batch], rfl, rfl, rfl, fun b hb => ?_, ?_⟩
    · rw [List.mem_singleton.mp hb, hown]
    · rw [List.countP_singleton]
      cases hd : batch.isData <;> rw [hd] at hpaid <;> simpa using hpaid
  · refine ⟨[], rfl, rfl, (List.append_nil _).symm, fun _ hb => absurd hb List.not_mem_nil, ?_⟩
    rw [List.countP_nil]
    exact le_trans (Nat.add_le_add_right (Nat.zero_le _) _) hpaid

theorem one_add_val_sub_one {credits : U32} (h : credits ≠ 0) :
    1 + (credits - 1).val = credits.val := by
  have hpos : credits.val ≠ 0 := fun hval => h (Fin.ext hval)
  rw [Fin.val_sub_one_of_ne_zero h]
  omega

theorem paid_flush (c : NetworkCollector) : Paid c (flush.runOn c).2 := by
  unfold flush
  rw [runOn_bind_ok runOn_get, runOn_ite, runOn_ite]
  split_ifs with hempty hcredits
  · exact .refl c
  · exact .refl c
  · rw [runOn_bind_ok runOn_set]
    exact paid_trySend rfl (one_add_val_sub_one hcredits).le

theorem paid_serialize (codec : Codec (StreamElement T)) (element : StreamElement T)
    (c : NetworkCollector) : Paid c ((serialize codec element).runOn c).2 := by
  unfold serialize
  cases codec.serialize element <;> exact .refl c

/-- **No call sends a data batch without spending a credit.** -/
theorem paid_emit (codec : Codec (StreamElement T)) (element : StreamElement T)
    (c : NetworkCollector) : Paid c ((emit codec element).runOn c).2 := by
  cases element with
  | record record =>
    change Paid c ((collect codec record).runOn c).2
    unfold collect serializeElement
    refine paid_bind (paid_bind (paid_serialize codec _ c) fun bytes t => ?_) fun _ t => ?_
    · exact paid_buffer t _ _
    · refine paid_bind (paid_buffer t _ _) fun _ t => ?_
      rw [runOn_bind_ok runOn_get, runOn_ite]
      split_ifs
      · exact paid_flush t
      · exact .refl t
  | watermark watermark =>
    change Paid c ((collectWatermark codec watermark).runOn c).2
    unfold collectWatermark
    refine paid_bind (paid_flush c) fun _ t => paid_bind (paid_serialize codec _ t) fun bytes t => ?_
    rw [runOn_bind_ok runOn_get, runOn_ite]
    split_ifs with hcredits
    · rw [runOn_bind_ok runOn_set]
      exact paid_trySend rfl (one_add_val_sub_one hcredits.ne').le
    · exact .refl t
  | checkpointBarrier barrier =>
    change Paid c ((collectBarrier barrier).runOn c).2
    unfold collectBarrier
    refine paid_bind (paid_flush c) fun _ t => ?_
    rw [runOn_bind_ok runOn_get]
    exact paid_trySend rfl (by rw [show Bool.toNat _ = 0 from rfl, zero_add])

theorem grantCredits_state (c : NetworkCollector) (granted : U32) :
    ∃ credits : U32, credits.val ≤ c.credits.val + granted.val ∧
      ((grantCredits granted).runOn c).2 = { c with credits := credits } :=
  ⟨_, (Nat.mod_le _ _).trans (min_le_left _ _), rfl⟩

theorem Spends.dataSent (h : Spends c c' batches) :
    c'.dataSent = c.dataSent + batches.countP DataBatch.isData := by
  unfold NetworkCollector.dataSent sent Channel.sent
  rw [h.taken, h.queue, ← List.append_assoc, List.countP_append]

end NetworkCollector

namespace Exchange

variable {T : Type} {codec : Codec (StreamElement T)} {channelId : String} {initialCredits : U32}
  {s : Exchange}

/-! ## The balance -/

/-- The batch that the loop holds, delivered or not. -/
def held? (s : Exchange) : Option DataBatch :=
  match s.pc with
  | .crediting batch => some batch
  | pc => pc.batch?

/-- The batches that are sent but not delivered. -/
def undelivered (s : Exchange) : List DataBatch :=
  s.pc.batch?.toList ++ s.inbound ++ s.collector.batchTx.channel.queue

/-- The credits of the sender, those in grants on their way, and those spent on data batches that
are sent but not delivered. -/
def balance (s : Exchange) : ℕ :=
  s.collector.credits.val + (s.grants.map fun g => g.credits.val).sum +
    s.undelivered.countP DataBatch.isData

/-- The credit for a data batch that is delivered but not credited yet. -/
def owed (s : Exchange) : ℕ :=
  match s.pc with
  | .crediting batch => batch.isData.toNat
  | _ => 0

/-- The initial credits that the loop has granted. -/
def greeted (s : Exchange) (channelId : String) : ℕ :=
  match s.pc with
  | .greeting _ => 0
  | _ => if channelId ∈ s.seenChannels then s.router.initialCredits.val else 0

/-- **The accounts**: nothing adds to the balance but the initial credits and the credits granted
for barriers. -/
structure Accounted (channelId : String) (initialCredits : U32) (s : Exchange) : Prop where
  channel : s.collector.channelId = channelId
  own : ∀ batch ∈ s.held?.toList ++ s.inbound ++ s.collector.batchTx.channel.queue,
    batch.channelId = channelId
  grantsOwn : ∀ g ∈ s.grants, g.channelId = channelId
  initial : s.router.initialCredits = initialCredits
  subscribed : ∃ tx, s.router.subscribers.lookup channelId = some tx ∧ tx.closed = false
  seen : s.pc ≠ .idle → channelId ∈ s.seenChannels
  account : s.balance + s.lostCredits + s.owed = s.greeted channelId + s.barrierCredits

theorem accounted_init (channelId : String) (capacity : ℕ) (batchSize initialCredits : U32) :
    Accounted channelId initialCredits (init channelId capacity batchSize initialCredits) where
  channel := rfl
  own _ h := by simp [init, held?, ReceiverPc.batch?, NetworkCollector.new, BatchSender.new] at h
  grantsOwn _ h := absurd h List.not_mem_nil
  initial := rfl
  subscribed := ⟨{}, AList.lookup_insert _, rfl⟩
  seen h := absurd rfl h
  account := by
    simp [init, balance, owed, greeted, undelivered, ReceiverPc.batch?, NetworkCollector.new,
      BatchSender.new]

theorem Accounted.emit (h : Accounted channelId initialCredits s) (element : StreamElement T) :
    Accounted channelId initialCredits (s.emit codec element) := by
  obtain ⟨batches, hspends⟩ := NetworkCollector.paid_emit codec element s.collector
  unfold Exchange.emit
  generalize ((NetworkCollector.emit codec element).runOn s.collector).2 = c at hspends ⊢
  refine ⟨hspends.channelId.trans h.channel, fun batch hb => ?_, h.grantsOwn, h.initial,
    h.subscribed, h.seen, ?_⟩
  · change batch ∈ s.held?.toList ++ s.inbound ++ c.batchTx.channel.queue at hb
    rw [hspends.queue, ← List.append_assoc, List.mem_append] at hb
    rcases hb with hb | hb
    · exact h.own batch hb
    · exact (hspends.own batch hb).trans h.channel
  · have haccount := h.account
    have hpaid := hspends.paid
    have hdata := hspends.dataSent
    unfold balance undelivered at haccount ⊢
    change c.credits.val + (s.grants.map fun g => g.credits.val).sum +
      (s.pc.batch?.toList ++ s.inbound ++ c.batchTx.channel.queue).countP DataBatch.isData +
        (s.lostCredits +
          (s.collector.credits.val - c.credits.val - (c.dataSent - s.collector.dataSent))) +
            s.owed = s.greeted channelId + s.barrierCredits
    rw [hspends.queue, ← List.append_assoc, List.countP_append]
    omega

theorem Accounted.transmit (h : Accounted channelId initialCredits s) :
    Accounted channelId initialCredits s.transmit := by
  unfold Exchange.transmit
  split
  · rename_i batch channel hrecv
    obtain ⟨hqueue, -, -⟩ := Channel.tryRecv_item hrecv
    refine ⟨h.channel, fun b hb => h.own b ?_, h.grantsOwn, h.initial, h.subscribed, h.seen, ?_⟩
    · rw [hqueue]
      change b ∈ s.held?.toList ++ (s.inbound ++ [batch]) ++ channel.queue at hb
      simpa using hb
    · have haccount := h.account
      unfold balance undelivered at haccount ⊢
      rw [hqueue] at haccount
      change _ + (_ ++ (s.inbound ++ [batch]) ++ channel.queue).countP DataBatch.isData + _ +
        s.owed = s.greeted channelId + _
      simpa using haccount
  · exact h

theorem Accounted.grant (h : Accounted channelId initialCredits s) :
    Accounted channelId initialCredits s.grant := by
  unfold Exchange.grant
  split
  · rename_i g grants hgrants
    have hg : g.channelId = s.collector.channelId := by
      rw [h.channel]
      exact h.grantsOwn g (by rw [hgrants]; exact List.mem_cons_self)
    obtain ⟨credits, hle, hcredits⟩ :=
      NetworkCollector.grantCredits_state s.collector g.credits
    rw [if_pos hg, hcredits]
    refine ⟨h.channel, h.own, fun g' hg' => ?_, h.initial, h.subscribed, h.seen, ?_⟩
    · exact h.grantsOwn g' (by rw [hgrants]; exact List.mem_cons_of_mem _ hg')
    · have haccount := h.account
      unfold balance at haccount ⊢
      rw [hgrants, List.map_cons, List.sum_cons] at haccount
      change credits.val + (grants.map fun g => g.credits.val).sum +
        s.undelivered.countP DataBatch.isData +
          (s.lostCredits + (s.collector.credits.val + g.credits.val - credits.val)) + s.owed =
            s.greeted channelId + s.barrierCredits
      omega
  · exact h

theorem Accounted.held (h : Accounted channelId initialCredits s) {batch : DataBatch}
    (hheld : s.held? = some batch) (hpc : s.pc ≠ .idle) :
    batch.channelId = channelId ∧ channelId ∈ s.seenChannels :=
  ⟨h.own batch (by simp [hheld]), h.seen hpc⟩

theorem Accounted.takeBatch (h : Accounted channelId initialCredits s) (hpc : s.pc = .idle)
    {batch : DataBatch} {inbound : List DataBatch} (hinbound : s.inbound = batch :: inbound) :
    Accounted channelId initialCredits
      (if batch.channelId ∈ s.seenChannels then { s with inbound := inbound, pc := .routing batch }
      else { s with
        inbound := inbound
        seenChannels := insert batch.channelId s.seenChannels
        pc := .greeting batch }) := by
  have haccount := h.account
  have hbatch : batch.channelId = channelId := h.own batch (by rw [hinbound]; simp)
  have hown : ∀ b ∈ [batch] ++ inbound ++ s.collector.batchTx.channel.queue,
      b.channelId = channelId := by
    intro b hb
    refine h.own b ?_
    rw [hinbound]
    simpa [or_assoc] using Or.inr hb
  unfold balance undelivered owed greeted at haccount
  rw [hpc, hinbound] at haccount
  rw [hbatch]
  split_ifs with hseen
  · refine ⟨h.channel, hown, h.grantsOwn, h.initial, h.subscribed, fun _ => hseen, ?_⟩
    simpa [balance, undelivered, owed, greeted, ReceiverPc.batch?] using haccount
  · refine ⟨h.channel, hown, h.grantsOwn, h.initial, h.subscribed,
      fun _ => Finset.mem_insert_self _ _, ?_⟩
    simpa [balance, undelivered, owed, greeted, ReceiverPc.batch?, hseen] using haccount

theorem Accounted.grantsOwn_concat (h : Accounted channelId initialCredits s) {batch : DataBatch}
    (hbatch : batch.channelId = channelId) (credits : U32) :
    ∀ g ∈ s.grants ++ [⟨batch.channelId, credits⟩], g.channelId = channelId := by
  intro g hg
  rcases List.mem_append.mp hg with hg | hg
  · exact h.grantsOwn g hg
  · rw [List.mem_singleton.mp hg, hbatch]

theorem Accounted.greet (h : Accounted channelId initialCredits s) {batch : DataBatch}
    (hpc : s.pc = .greeting batch) :
    Accounted channelId initialCredits { s with
      grants := s.grants ++ [⟨batch.channelId, s.router.initialCredits⟩]
      pc := .routing batch } := by
  have haccount := h.account
  have hheld : s.held? = some batch := by simp [held?, hpc, ReceiverPc.batch?]
  obtain ⟨hbatch, hseen⟩ := h.held hheld (by simp [hpc])
  refine ⟨h.channel, ?_, h.grantsOwn_concat hbatch _, h.initial, h.subscribed, fun _ => hseen, ?_⟩
  · simpa [held?, hpc, ReceiverPc.batch?] using h.own
  · simp only [balance, undelivered, owed, greeted, hpc, ReceiverPc.batch?] at haccount
    simp only [balance, undelivered, owed, greeted, ReceiverPc.batch?, hseen, if_true,
      List.map_append, List.map_cons, List.map_nil, List.sum_append, List.sum_singleton]
    omega

theorem Accounted.route_eq (h : Accounted channelId initialCredits s) {batch : DataBatch}
    (hpc : s.pc = .routing batch) :
    ∃ tx, s.router.subscribers.lookup channelId = some tx ∧ tx.closed = false ∧
      s.router.route batch = (some batch.channelId, { s.router with
        subscribers := s.router.subscribers.insert channelId (tx.send batch) }) := by
  have hheld : s.held? = some batch := by simp [held?, hpc, ReceiverPc.batch?]
  obtain ⟨hbatch, -⟩ := h.held hheld (by simp [hpc])
  obtain ⟨tx, hlookup, hopen⟩ := h.subscribed
  refine ⟨tx, hlookup, hopen, ?_⟩
  unfold ExchangeRouter.route
  rw [hbatch, hlookup]
  simp [hopen]

theorem Accounted.deliver (h : Accounted channelId initialCredits s) {batch : DataBatch}
    (hpc : s.pc = .routing batch) :
    ∃ router, s.router.route batch = (some batch.channelId, router) ∧
      Accounted channelId initialCredits { s with router := router, pc := .crediting batch } := by
  have haccount := h.account
  have hheld : s.held? = some batch := by simp [held?, hpc, ReceiverPc.batch?]
  obtain ⟨hbatch, hseen⟩ := h.held hheld (by simp [hpc])
  obtain ⟨tx, -, hopen, hroute⟩ := h.route_eq hpc
  refine ⟨_, hroute, h.channel, ?_, h.grantsOwn, h.initial, ⟨tx.send batch, ?_, ?_⟩,
    fun _ => hseen, ?_⟩
  · simpa [held?, hpc, ReceiverPc.batch?] using h.own
  · exact AList.lookup_insert _
  · simp [Channel.send, hopen]
  · simp only [balance, undelivered, owed, greeted, hpc, ReceiverPc.batch?, hseen, if_true]
      at haccount
    simp only [balance, undelivered, owed, greeted, ReceiverPc.batch?, hseen, if_true]
    simp only [Option.toList_some, Option.toList_none, List.append_assoc, List.countP_append,
      List.countP_singleton, List.countP_nil] at haccount ⊢
    cases hd : batch.isData <;> simp only [hd] at haccount ⊢ <;> simp at haccount ⊢ <;> omega

theorem Accounted.credit (h : Accounted channelId initialCredits s) {batch : DataBatch}
    (hpc : s.pc = .crediting batch) :
    Accounted channelId initialCredits { s with
      grants := s.grants ++ [⟨batch.channelId, 1⟩]
      pc := .idle
      barrierCredits := s.barrierCredits + batch.isBarrier.toNat } := by
  have haccount := h.account
  have hheld : s.held? = some batch := by simp [held?, hpc]
  obtain ⟨hbatch, hseen⟩ := h.held hheld (by simp [hpc])
  refine ⟨h.channel, fun b hb => h.own b ?_, h.grantsOwn_concat hbatch _, h.initial, h.subscribed,
    fun hne => absurd rfl hne, ?_⟩
  · rw [List.append_assoc]
    exact List.mem_append_right _ hb
  · simp only [balance, undelivered, owed, greeted, hpc, ReceiverPc.batch?, hseen, if_true]
      at haccount
    simp only [balance, undelivered, owed, greeted, ReceiverPc.batch?, hseen, if_true,
      List.map_append, List.map_cons, List.map_nil, List.sum_append, List.sum_singleton]
    have hone : batch.isData.toNat + batch.isBarrier.toNat = 1 := by
      unfold DataBatch.isData
      cases batch.isBarrier <;> rfl
    have hval : (1 : U32).val = 1 := rfl
    omega

theorem Accounted.receive (h : Accounted channelId initialCredits s) :
    Accounted channelId initialCredits s.receive := by
  unfold Exchange.receive
  cases hpc : s.pc with
  | idle =>
    cases hinbound : s.inbound with
    | nil => exact h
    | cons batch inbound => exact h.takeBatch hpc hinbound
  | greeting batch => exact h.greet hpc
  | routing batch =>
    obtain ⟨router, hroute, hdelivered⟩ := h.deliver hpc
    dsimp only
    rw [hroute]
    exact hdelivered
  | crediting batch => exact h.credit hpc

theorem Accounted.step (h : Accounted channelId initialCredits s) (ev : ExchangeEvent T) :
    Accounted channelId initialCredits (step codec s ev) := by
  cases ev with
  | emit element => exact h.emit element
  | transmit => exact h.transmit
  | receive => exact h.receive
  | grant => exact h.grant

theorem accounted_run (codec : Codec (StreamElement T)) (channelId : String) (capacity : ℕ)
    (batchSize initialCredits : U32) (es : List (ExchangeEvent T)) :
    Accounted channelId initialCredits (run codec channelId capacity batchSize initialCredits es) :=
  Runs.exec_invariant (P := Accounted channelId initialCredits) (fun _ ev h => h.step ev)
    (accounted_init channelId capacity batchSize initialCredits) es

/-! ## When the balance stays within the allowance -/

/-- A credit is granted for a barrier only when more credits have been lost than were granted for
barriers before. -/
def NoSurplus (s : Exchange) : ExchangeEvent T → Prop
  | .receive => ∀ batch, s.pc = .crediting batch → batch.isBarrier = true →
      s.barrierCredits < s.lostCredits
  | _ => True

theorem Accounted.greeted_le (h : Accounted channelId initialCredits s) :
    s.greeted channelId ≤ initialCredits.val := by
  unfold greeted
  rw [h.initial]
  split
  · exact Nat.zero_le _
  · split_ifs
    · exact le_rfl
    · exact Nat.zero_le _

theorem Accounted.balance_le (h : Accounted channelId initialCredits s)
    (hle : s.barrierCredits ≤ s.lostCredits) : s.balance ≤ initialCredits.val := by
  have := h.account
  have := h.greeted_le
  omega

theorem receive_counts (s : Exchange) : s.receive.lostCredits = s.lostCredits ∧
    (s.receive.barrierCredits = s.barrierCredits ∨ ∃ batch, s.pc = .crediting batch ∧
      s.receive.barrierCredits = s.barrierCredits + batch.isBarrier.toNat) := by
  unfold Exchange.receive
  split
  · split
    · split_ifs
      · exact ⟨rfl, Or.inl rfl⟩
      · exact ⟨rfl, Or.inl rfl⟩
    · exact ⟨rfl, Or.inl rfl⟩
  · exact ⟨rfl, Or.inl rfl⟩
  · split
    · exact ⟨rfl, Or.inl rfl⟩
    · exact ⟨rfl, Or.inl rfl⟩
  · rename_i batch hpc
    exact ⟨rfl, Or.inr ⟨batch, hpc, rfl⟩⟩

theorem NoSurplus.step {ev : ExchangeEvent T} (hev : NoSurplus s ev)
    (h : s.barrierCredits ≤ s.lostCredits) :
    (step codec s ev).barrierCredits ≤ (step codec s ev).lostCredits := by
  cases ev with
  | emit element => exact h.trans (Nat.le_add_right _ _)
  | transmit =>
    change s.transmit.barrierCredits ≤ s.transmit.lostCredits
    unfold Exchange.transmit
    split <;> exact h
  | receive =>
    change s.receive.barrierCredits ≤ s.receive.lostCredits
    obtain ⟨hlost, hcount⟩ := receive_counts s
    rcases hcount with hcount | ⟨batch, hpc, hcount⟩
    · rw [hlost, hcount]; exact h
    · rw [hlost, hcount]
      cases hbarrier : batch.isBarrier with
      | false => exact h
      | true => exact hev batch hpc hbarrier
  | grant =>
    change s.grant.barrierCredits ≤ s.grant.lostCredits
    unfold Exchange.grant
    split
    · split_ifs
      · exact h.trans (Nat.le_add_right _ _)
      · exact h
    · exact h

theorem Accounted.surplus (h : Accounted channelId initialCredits s) {ev : ExchangeEvent T}
    (hev : ¬ NoSurplus s ev) : initialCredits.val < (Exchange.step codec s ev).balance := by
  cases ev with
  | receive =>
    unfold NoSurplus at hev
    push Not at hev
    obtain ⟨batch, hpc, hbarrier, hlost⟩ := hev
    have hseen : channelId ∈ s.seenChannels := h.seen (by simp [hpc])
    have hstep : Exchange.step codec s (.receive : ExchangeEvent T) = { s with
        grants := s.grants ++ [⟨batch.channelId, 1⟩]
        pc := .idle
        barrierCredits := s.barrierCredits + batch.isBarrier.toNat } := by
      change s.receive = _
      unfold Exchange.receive
      rw [hpc]
    have haccount := (h.credit hpc).account
    rw [hstep]
    rw [hbarrier, Bool.toNat_true] at haccount ⊢
    simp only [owed, greeted, hseen, if_true, h.initial] at haccount
    omega
  | emit element => exact absurd trivial hev
  | transmit => exact absurd trivial hev
  | grant => exact absurd trivial hev

/-- **When credits stay within the receiver's allowance:** if those granted for barriers never
exceed those lost. -/
theorem balance_le_iff (codec : Codec (StreamElement T)) (channelId : String) (capacity : ℕ)
    (batchSize initialCredits : U32) (es : List (ExchangeEvent T)) :
    (∀ pre, pre <+: es →
      (run codec channelId capacity batchSize initialCredits pre).balance ≤ initialCredits.val) ↔
    Runs.Along (step codec) NoSurplus (init channelId capacity batchSize initialCredits) es := by
  constructor
  · intro h
    rw [Runs.along_iff_eachStep]
    intro pre ev post hes
    by_contra hev
    have haccounted := accounted_run codec channelId capacity batchSize initialCredits pre
    have hle := h (pre ++ [ev]) ⟨post, by rw [hes, List.append_assoc]; rfl⟩
    unfold run at hle
    rw [Runs.exec_concat] at hle
    exact absurd hle (Nat.not_le.mpr (haccounted.surplus hev))
  · rintro halong pre ⟨post, rfl⟩
    have hpre := ((Runs.along_append pre post).mp halong).1
    have hle := Runs.exec_invariant_along (P := fun s => s.barrierCredits ≤ s.lostCredits)
      (fun s ev h hev => hev.step h) le_rfl hpre
    exact (accounted_run codec channelId capacity batchSize initialCredits pre).balance_le hle

/-- A barrier is delivered first: the receiver grants the initial credit and one for the barrier,
which the collector never spent. -/
theorem barrier_surplus : (1 : U32).val < (run NetworkCollector.byteCodec "ch-1" 16 10 1
    [.emit (.checkpointBarrier ⟨1, 100⟩), .transmit, .receive, .receive, .receive,
      .receive]).balance := by
  decide +kernel

end Exchange

end Flume
