import Flume.Network.CreditBalance
import Flume.Network.Retry

/-!
# What the data exchange delivers

Elements go through a collector, its channel, the connection and the receiving loop to a local
subscriber, whose network input yields them again. Calls of the collector may fail, and may lose
what was in its buffer; nothing else is lost, nothing comes twice, and nothing overtakes.

* `NetworkCollector.Keeps`, **`keeps_emit`**: what a call does, whether it returns `Ok` or not;
* **`Exchange.delivered_append_undelivered`**: every batch that was sent is delivered or on its way;
* **`exchange_delivers`**: what the subscriber is given, from the elements emitted.
-/

namespace Flume

open Channels Fallible Framing

/-! ## Calls of the collector -/

namespace NetworkCollector

variable {T : Type} {codec : Codec (StreamElement T)} {c c' : NetworkCollector}
  {es : List (StreamElement T)} {frames : List Bytes}

/-- Some of the elements are on their way, in their order, and nothing else. -/
def Keeps (codec : Codec (StreamElement T)) (es : List (StreamElement T)) (c : NetworkCollector) :
    Prop :=
  ∃ kept frames, kept.Sublist es ∧ Carries codec kept frames c

theorem Keeps.concat (h : Keeps codec es c) (e : StreamElement T) : Keeps codec (es ++ [e]) c := by
  obtain ⟨kept, frames, hsub, hcarries⟩ := h
  exact ⟨kept, frames, hsub.trans (List.sublist_append_left es [e]), hcarries⟩

theorem Carries.takeBuffer (h : Carries codec es frames c) : Keeps codec es c.takeBuffer := by
  obtain ⟨kept, lost, rfl, hkept, -⟩ := List.append_eq_map_iff.mp h.all
  refine ⟨kept, [], List.sublist_append_left kept lost, fun b hb => absurd hb List.not_mem_nil, rfl,
    ?_⟩
  rw [hkept]
  exact List.append_nil _

theorem keeps_flush (h : Keeps codec es c) : Keeps codec es (flush.runOn c).2 := by
  obtain ⟨kept, frames, hsub, hcarries⟩ := h
  rw [runOn_flush]
  split_ifs with hempty hcredits hroom
  · exact ⟨kept, frames, hsub, hcarries⟩
  · exact ⟨kept, frames, hsub, hcarries⟩
  · exact ⟨kept, [], hsub, hcarries.send rfl rfl sent_push rfl⟩
  · obtain ⟨kept', frames', hsub', hcarries'⟩ := hcarries.takeBuffer
    exact ⟨kept', frames', hsub'.trans hsub, hcarries'⟩

theorem collectBarrier_eq_error {barrier : CheckpointBarrier} {e : FlumeError}
    (h : (collectBarrier barrier).runOn c = (.error e, c')) : c' = (flush.runOn c).2 := by
  unfold collectBarrier at h
  rcases hflush : flush.runOn c with ⟨e' | ⟨⟩, c₁⟩
  · rw [runOn_bind_error hflush] at h
    exact (congrArg Prod.snd h).symm
  · rw [runOn_bind_ok hflush, runOn_bind_ok runOn_get, runOn_trySend] at h
    split_ifs at h
    · cases h
    · exact (congrArg Prod.snd h).symm

/-- **Whether a call returns `Ok` or not**, its element is on its way or is not, and of those before
it only the ones in the buffer may be lost. -/
theorem keeps_emit (hcodec : codec.RoundTrips) (h : Keeps codec es c) {e : StreamElement T}
    (hframed : e.Framed codec) : Keeps codec (es ++ [e]) ((emit codec e).runOn c).2 := by
  cases e with
  | record record =>
    show Keeps codec _ ((collect codec record).runOn c).2
    cases hbytes : codec.serialize (.record record) with
    | error msg =>
      rw [runOn_collect_error hbytes]
      exact h.concat _
    | ok bytes =>
      obtain ⟨kept, frames, hsub, hcarries⟩ := h
      have hadded : Keeps codec (es ++ [.record record]) (c.addRecord bytes) :=
        ⟨_, _, hsub.append (List.Sublist.refl _), hcarries.addFrame hcodec hframed hbytes rfl rfl⟩
      rw [runOn_collect_ok hbytes]
      split_ifs
      · exact keeps_flush hadded
      · exact hadded
  | watermark watermark => exact hframed.elim
  | checkpointBarrier barrier =>
    show Keeps codec _ ((collectBarrier barrier).runOn c).2
    rcases hcall : (collectBarrier barrier).runOn c with ⟨err | ⟨⟩, c'⟩
    · rw [collectBarrier_eq_error hcall]
      exact (keeps_flush h).concat _
    · obtain ⟨kept, frames, hsub, hcarries⟩ := h
      exact ⟨_, [], hsub.append (List.Sublist.refl _), carries_collectBarrier hcarries hcall⟩

end NetworkCollector

/-- The element that an event calls the collector for. -/
def ExchangeEvent.element? {T : Type} : ExchangeEvent T → Option (StreamElement T)
  | .emit element => some element
  | _ => none

namespace Exchange

variable {T : Type} {codec : Codec (StreamElement T)} {channelId : String} {initialCredits : U32}
  {s : Exchange} {es : List (ExchangeEvent T)}

/-- The batches that were handed to the subscriber of a channel. -/
def delivered (s : Exchange) (channelId : String) : List DataBatch :=
  ((s.router.subscribers.lookup channelId).getD {}).sent

/-- The elements that the collector was called for. -/
def emitted (es : List (ExchangeEvent T)) : List (StreamElement T) :=
  es.filterMap ExchangeEvent.element?

/-- The call of the collector, if the event makes one, returns `Ok`. -/
def EmitsOk (codec : Codec (StreamElement T)) (s : Exchange) : ExchangeEvent T → Prop
  | .emit element => ((NetworkCollector.emit codec element).runOn s.collector).1 = .ok ()
  | _ => True

instance (codec : Codec (StreamElement T)) (s : Exchange) :
    ∀ ev : ExchangeEvent T, Decidable (EmitsOk codec s ev)
  | .emit element => inferInstanceAs
      (Decidable (((NetworkCollector.emit codec element).runOn s.collector).1 = .ok ()))
  | .transmit | .receive | .grant => instDecidableTrue

/-! ## Batches -/

theorem Accounted.delivered_receive (h : Accounted channelId initialCredits s) :
    s.receive.delivered channelId ++ s.receive.undelivered =
      s.delivered channelId ++ s.undelivered := by
  unfold Exchange.receive
  cases hpc : s.pc with
  | idle =>
    cases hinbound : s.inbound with
    | nil => rfl
    | cons batch inbound =>
      dsimp only
      split_ifs <;> simp [delivered, undelivered, hpc, hinbound, ReceiverPc.batch?]
  | greeting batch => simp [delivered, undelivered, hpc, ReceiverPc.batch?]
  | routing batch =>
    obtain ⟨tx, hlookup, hopen, hroute⟩ := h.route_eq hpc
    dsimp only
    rw [hroute]
    simp [delivered, undelivered, hpc, ReceiverPc.batch?, hlookup, Channel.sent_send hopen]
  | crediting batch => simp [delivered, undelivered, hpc, ReceiverPc.batch?]

theorem collector_receive (s : Exchange) : s.receive.collector = s.collector := by
  unfold Exchange.receive
  split
  · split
    · split_ifs <;> rfl
    · rfl
  · rfl
  · split <;> rfl
  · rfl

theorem collector_step (s : Exchange) {ev : ExchangeEvent T} (h : ev.element? = none) :
    (step codec s ev).collector.sent = s.collector.sent ∧
      (step codec s ev).collector.buffer = s.collector.buffer := by
  cases ev with
  | emit element => cases h
  | transmit =>
    show s.transmit.collector.sent = _ ∧ s.transmit.collector.buffer = _
    unfold transmit
    split
    · rename_i batch channel hrecv
      exact ⟨Channel.sent_of_tryRecv hrecv, rfl⟩
    · exact ⟨rfl, rfl⟩
  | receive =>
    show s.receive.collector.sent = _ ∧ s.receive.collector.buffer = _
    rw [collector_receive]
    exact ⟨rfl, rfl⟩
  | grant =>
    show s.grant.collector.sent = _ ∧ s.grant.collector.buffer = _
    unfold grant
    split
    · split_ifs
      · exact ⟨rfl, rfl⟩
      · exact ⟨rfl, rfl⟩
    · exact ⟨rfl, rfl⟩

theorem Accounted.delivered_step (h : Accounted channelId initialCredits s)
    (hall : s.delivered channelId ++ s.undelivered = s.collector.sent) (ev : ExchangeEvent T) :
    (Exchange.step codec s ev).delivered channelId ++ (Exchange.step codec s ev).undelivered =
      (Exchange.step codec s ev).collector.sent := by
  cases ev with
  | emit element =>
    obtain ⟨batches, hspends⟩ := NetworkCollector.paid_emit codec element s.collector
    show s.delivered channelId ++ (s.emit codec element).undelivered =
      (s.emit codec element).collector.sent
    unfold Exchange.emit
    generalize ((NetworkCollector.emit codec element).runOn s.collector).2 = c at hspends ⊢
    unfold undelivered NetworkCollector.sent Channel.sent at hall ⊢
    dsimp only
    rw [hspends.queue, hspends.taken]
    simp only [← List.append_assoc] at hall ⊢
    rw [hall]
  | transmit =>
    have hsent : (Exchange.step codec s .transmit).collector.sent = s.collector.sent :=
      (collector_step s rfl).1
    rw [hsent, ← hall]
    show s.transmit.delivered channelId ++ s.transmit.undelivered = _
    unfold Exchange.transmit
    split
    · rename_i batch channel hrecv
      obtain ⟨hqueue, -, -⟩ := Channel.tryRecv_item hrecv
      simp [delivered, undelivered, hqueue]
    · rfl
  | receive =>
    have hsent : (Exchange.step codec s .receive).collector.sent = s.collector.sent :=
      (collector_step s rfl).1
    rw [hsent, ← hall]
    exact h.delivered_receive
  | grant =>
    have hsent : (Exchange.step codec s .grant).collector.sent = s.collector.sent :=
      (collector_step s rfl).1
    rw [hsent, ← hall]
    show s.grant.delivered channelId ++ s.grant.undelivered = _
    unfold Exchange.grant
    split
    · split_ifs <;> rfl
    · rfl

/-- **Every batch that was sent is delivered or on its way**, once and in order. -/
theorem delivered_append_undelivered (codec : Codec (StreamElement T)) (channelId : String)
    (capacity : ℕ) (batchSize initialCredits : U32) (es : List (ExchangeEvent T)) :
    let s := run codec channelId capacity batchSize initialCredits es
    s.delivered channelId ++ s.undelivered = s.collector.sent :=
  (Runs.exec_invariant (P := fun s : Exchange => Accounted channelId initialCredits s ∧
      s.delivered channelId ++ s.undelivered = s.collector.sent)
    (fun s ev h => ⟨h.1.step ev, h.1.delivered_step h.2 ev⟩)
    ⟨accounted_init channelId capacity batchSize initialCredits,
      by simp [delivered, init, ExchangeRouter.subscribe, undelivered, ReceiverPc.batch?,
        NetworkCollector.new, BatchSender.new, NetworkCollector.sent]⟩ es).2

/-! ## Elements -/

theorem emitted_concat (es : List (ExchangeEvent T)) (ev : ExchangeEvent T) :
    emitted (es ++ [ev]) = emitted es ++ ev.element?.toList := by
  unfold emitted
  rw [List.filterMap_append]
  cases ev <;> rfl

theorem keeps_run (hcodec : codec.RoundTrips) (channelId : String) (capacity : ℕ)
    (batchSize initialCredits : U32) (hframed : ∀ e ∈ emitted es, e.Framed codec) :
    NetworkCollector.Keeps codec (emitted es)
      (run codec channelId capacity batchSize initialCredits es).collector := by
  induction es using List.reverseRecOn with
  | nil => exact ⟨[], [], List.Sublist.refl _, by simp, rfl, rfl⟩
  | append_singleton es ev ih =>
    rw [emitted_concat] at hframed ⊢
    have hkeeps := ih fun e he => hframed e (List.mem_append_left _ he)
    unfold run at hkeeps ⊢
    rw [Runs.exec_concat]
    cases hev : ev.element? with
    | some element =>
      cases ev <;> cases hev
      exact NetworkCollector.keeps_emit hcodec hkeeps
        (hframed element (List.mem_append_right _ (show element ∈ [element] by simp)))
    | none =>
      obtain ⟨kept, frames, hsub, hcarries⟩ := hkeeps
      obtain ⟨hsent, hbuffer⟩ := collector_step _ hev
      rw [Option.toList_none, List.append_nil]
      exact ⟨kept, frames, hsub, hcarries.quiet hsent hbuffer⟩

theorem carries_run (hcodec : codec.RoundTrips) (channelId : String) (capacity : ℕ)
    (batchSize initialCredits : U32) (hframed : ∀ e ∈ emitted es, e.Framed codec)
    (hok : Runs.Along (step codec) (EmitsOk codec)
      (init channelId capacity batchSize initialCredits) es) :
    ∃ frames, NetworkCollector.Carries codec (emitted es) frames
      (run codec channelId capacity batchSize initialCredits es).collector := by
  induction es using List.reverseRecOn with
  | nil => exact ⟨[], by simp, rfl, rfl⟩
  | append_singleton es ev ih =>
    rw [emitted_concat] at hframed ⊢
    obtain ⟨hes, hev⟩ := (Runs.along_concat es ev).mp hok
    obtain ⟨frames, hcarries⟩ := ih (fun e he => hframed e (List.mem_append_left _ he)) hes
    unfold run at hcarries ⊢
    rw [Runs.exec_concat]
    cases helement : ev.element? with
    | some element =>
      cases ev <;> cases helement
      exact NetworkCollector.carries_emit hcodec hcarries
        (hframed element (List.mem_append_right _ (show element ∈ [element] by simp)))
        (Prod.ext hev rfl)
    | none =>
      obtain ⟨hsent, hbuffer⟩ := collector_step _ helement
      rw [Option.toList_none, List.append_nil]
      exact ⟨frames, hcarries.quiet hsent hbuffer⟩

/-- **What the data exchange delivers:** some of the elements, in order and each once; and if all
calls returned `Ok`, the first ones. -/
theorem exchange_delivers (codec : Codec (StreamElement T)) (hcodec : codec.RoundTrips)
    (channelId : String) (capacity : ℕ) (batchSize initialCredits : U32)
    (es : List (ExchangeEvent T)) (hframed : ∀ e ∈ emitted es, e.Framed codec) :
    let s := run codec channelId capacity batchSize initialCredits es
    let yielded := NetworkInput.recvAll codec ⟨s.delivered channelId, []⟩
    yielded.Sublist ((emitted es).map StreamElement.untimed) ∧
      (Runs.Along (step codec) (EmitsOk codec)
          (init channelId capacity batchSize initialCredits) es →
        yielded <+: (emitted es).map StreamElement.untimed ∧
          (s.collector.buffer = [] → s.undelivered = [] →
            yielded = (emitted es).map StreamElement.untimed)) := by
  intro s yielded
  have hbatches : s.delivered channelId ++ s.undelivered = s.collector.sent :=
    delivered_append_undelivered codec channelId capacity batchSize initialCredits es
  have hyielded : yielded = (s.delivered channelId).flatMap (batchElements codec) :=
    NetworkInput.recvAll_eq codec _
  have hpart : ∀ {kept frames}, NetworkCollector.Carries codec kept frames s.collector →
      yielded <+: kept.map StreamElement.untimed := by
    intro kept frames hcarries
    rw [hyielded, ← hcarries.all, ← hbatches, List.flatMap_append, List.append_assoc]
    exact List.prefix_append _ _
  refine ⟨?_, fun hok => ?_⟩
  · obtain ⟨kept, frames, hsub, hcarries⟩ :=
      keeps_run hcodec channelId capacity batchSize initialCredits hframed
    exact (hpart hcarries).sublist.trans (hsub.map _)
  · obtain ⟨frames, hcarries⟩ :=
      carries_run hcodec channelId capacity batchSize initialCredits hframed hok
    refine ⟨hpart hcarries, fun hbuffer hundelivered => ?_⟩
    rw [hyielded, ← hcarries.all, ← hbatches, hundelivered, List.append_nil,
      hcarries.decoded_of_empty hbuffer, List.append_nil]

/-- A barrier brings the first credits; then two records fill a batch, and a third is left. -/
def twoBatches : List (ExchangeEvent UInt8) :=
  [.emit (.checkpointBarrier ⟨1, 100⟩), .transmit, .receive, .receive, .receive, .receive, .grant,
    .grant, .emit (.record ⟨1, 100, some [7]⟩), .emit (.record ⟨2, 200, none⟩), .transmit, .receive,
    .receive, .emit (.record ⟨3, 300, none⟩)]

theorem twoBatches_delivered :
    let s := run NetworkCollector.byteCodec "ch-1" 16 2 3 twoBatches
    let yielded := NetworkInput.recvAll NetworkCollector.byteCodec ⟨s.delivered "ch-1", []⟩
    yielded = [.checkpointBarrier ⟨1, 0⟩, .record ⟨1, 100, some [7]⟩, .record ⟨2, 200, none⟩] ∧
      yielded <+: (emitted twoBatches).map StreamElement.untimed :=
  ⟨by decide +kernel, ((exchange_delivers NetworkCollector.byteCodec
    NetworkCollector.byteCodec_roundTrips "ch-1" 16 2 3 twoBatches (by decide +kernel)).2
      (by decide +kernel)).1⟩

end Exchange

end Flume
