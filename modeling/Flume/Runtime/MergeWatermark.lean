import Flume.Runtime.MergeAlign
import Flume.Runtime.Watermark

/-!
# The two-input merger keeps the watermark promise

* `Stable`, `Stable.poll`: what neither receiving nor sending changes, a round keeps;
* `updates`: the watermarks in the order in which the merger received them, with their inputs;
* `Tracked`: the merger agrees with a watermark tracker that is fed the same updates;
* **`twoInputMerge_keepsPromise`**: the output keeps the promise that both inputs keep, its
  watermarks increase, and they are the results of the tracker.
-/

namespace Flume

open Channels Fallible Runs
open StreamElement (KeepsPromise watermark?)

variable {In1 In2 : Type}

/-- The index of an input in a tracker. -/
def MergeInput.index : MergeInput → Fin 2
  | one => 0
  | two => 1

theorem MergeInput.index_injective : Function.Injective MergeInput.index := by
  intro i k h
  cases i <;> cases k <;> first | rfl | exact absurd h (by decide)

namespace TwoInputMerge

/-! ## What a round keeps -/

/-- A property that depends neither on the local variables of the merger nor on what is sent while
the output is there. -/
structure Stable (P : TwoInputMerge In1 In2 → Prop) : Prop where
  locals : ∀ (s : TwoInputMerge In1 In2) (side1 side2 : MergeSide In1 In2) (t : EventTimestamp)
    (result : Option (Except FlumeError Unit)), P s →
      P { s with side1 := side1, side2 := side2, lastForwardedWatermark := t, result := result }
  emit : ∀ (s : TwoInputMerge In1 In2) (e : StreamElement (Either In1 In2)),
    s.outputDropped = false → P s → P (s.emit e)

section Stable

variable {P : TwoInputMerge In1 In2 → Prop} {s : TwoInputMerge In1 In2}

theorem Stable.modifySide (h : Stable P) (hs : P s) (i : MergeInput)
    (f : MergeSide In1 In2 → MergeSide In1 In2) : P (s.modifySide i f) := by
  cases i <;> exact h.locals s _ _ _ _ hs

theorem Stable.send (h : Stable P) (hs : P s) (e : StreamElement (Either In1 In2)) :
    P ((send e).runOn s).2 := by
  unfold TwoInputMerge.send
  rw [runOn_bind_ok runOn_get, runOn_ite]
  split_ifs with hdropped
  · exact hs
  · exact h.emit s e (Bool.eq_false_iff.mpr hdropped) hs

theorem Stable.flushBuffer (h : Stable P) (hs : P s) (i : MergeInput) :
    P ((flushBuffer i).runOn s).2 := by
  unfold TwoInputMerge.flushBuffer
  rw [runOn_bind_ok runOn_get, runOn_bind_ok runOn_set]
  have hcleared := h.modifySide hs i fun side => { side with buffer := [] }
  exact runOn_forM_keeps (P := P) (fun e t ht => h.send ht e) hcleared

theorem Stable.tryFlushBarriers (h : Stable P) (hs : P s) : P (tryFlushBarriers.runOn s).2 := by
  unfold TwoInputMerge.tryFlushBarriers
  rw [runOn_bind_ok runOn_get]
  cases s.side1.pendingBarrier with
  | none => exact hs
  | some b1 =>
    cases s.side2.pendingBarrier with
    | none => exact hs
    | some b2 =>
      dsimp only
      rw [runOn_bind_ok runOn_set]
      refine runOn_bind_keeps (h.send (h.locals s _ _ _ _ hs) _) fun _ t ht => ?_
      exact runOn_bind_keeps (h.flushBuffer ht .one) fun _ t ht => h.flushBuffer ht .two

theorem Stable.handleElement (h : Stable P) (hs : P s) {In : Type} (i : MergeInput)
    (tag : In → Either In1 In2) (e : StreamElement In) : P ((handleElement i tag e).runOn s).2 := by
  cases e with
  | record r =>
    unfold TwoInputMerge.handleElement
    rw [runOn_bind_ok runOn_get, runOn_ite]
    split_ifs with hpending
    · exact h.modifySide hs i fun side => { side with
        buffer := side.buffer ++ [.record ⟨tag r.value, r.timestamp, r.key⟩] }
    · exact h.send hs _
  | watermark w =>
    unfold TwoInputMerge.handleElement
    rw [runOn_bind_ok (runOn_modify _), runOn_bind_ok runOn_get]
    have hside := h.modifySide hs i fun side => { side with watermark := w.timestamp }
    dsimp only
    rw [runOn_ite]
    split_ifs with hmin
    · rw [runOn_bind_ok runOn_set]
      exact h.send (h.locals _ _ _ _ _ hside) _
    · exact hside
  | checkpointBarrier b => exact h.modifySide hs i fun side => { side with pendingBarrier := some b }

theorem Stable.closeInput (h : Stable P) (hs : P s) (i : MergeInput) :
    P ((closeInput i).runOn s).2 := by
  exact h.modifySide hs i fun side => { side with inputOpen := false }

theorem Stable.closeAndFlush (h : Stable P) (hs : P s) (i : MergeInput) :
    P ((closeAndFlush i).runOn s).2 := by
  unfold TwoInputMerge.closeAndFlush TwoInputMerge.closeInput
  rw [runOn_bind_ok (runOn_modify _), runOn_bind_ok runOn_get]
  have hclosed := h.modifySide hs i fun side => { side with inputOpen := false }
  split
  · rw [runOn_bind_ok runOn_set]
    refine runOn_bind_keeps (h.send (h.modifySide hclosed i.other _) _) fun _ t ht => ?_
    exact h.flushBuffer ht i.other
  · exact hclosed

/-- **What a round keeps.** -/
theorem Stable.poll (h : Stable P) (hs : P s)
    (h1 : ∀ e c, s.input1.tryRecv = .item e c → P { s with input1 := c })
    (h2 : ∀ e c, s.input2.tryRecv = .item e c → P { s with input2 := c }) (p : MergeInput) :
    P (s.poll p) := by
  have hafter : ∀ r, (∀ r', r = some r' → P r'.2) → P (s.afterRound r) := by
    rintro (_ | ⟨_ | _, s'⟩) hr
    · exact hs
    · exact h.locals s' _ _ _ _ (hr _ rfl)
    · exact hr _ rfl
  have hrecv1 : ∀ (f : StreamElement In1 → MergeM In1 In2 Unit) (g : MergeM In1 In2 Unit),
      (∀ e t, P t → P ((f e).runOn t).2) → P (g.runOn s).2 →
      ∀ r', s.recv1 f g = some r' → P r'.2 := by
    intro f g hf hg r' hr
    unfold recv1 at hr
    split at hr <;> cases hr
    · exact hf _ _ (h1 _ _ ‹_›)
    · exact hg
  have hrecv2 : ∀ (f : StreamElement In2 → MergeM In1 In2 Unit) (g : MergeM In1 In2 Unit),
      (∀ e t, P t → P ((f e).runOn t).2) → P (g.runOn s).2 →
      ∀ r', s.recv2 f g = some r' → P r'.2 := by
    intro f g hf hg r' hr
    unfold recv2 at hr
    split at hr <;> cases hr
    · exact hf _ _ (h2 _ _ ‹_›)
    · exact hg
  have hor : ∀ a b : Option (Except FlumeError Unit × TwoInputMerge In1 In2),
      (∀ r', a = some r' → P r'.2) → (∀ r', b = some r' → P r'.2) →
      ∀ r', a.or b = some r' → P r'.2 := by
    rintro (_ | a) b ha hb r' hr
    · exact hb r' hr
    · exact ha r' hr
  unfold TwoInputMerge.poll
  split_ifs with hres hclosed
  · exact hs
  · exact h.locals s _ _ _ _ hs
  · refine hafter _ ?_
    unfold loopBody
    split_ifs with hw1 hw2
    · exact hrecv2 _ _ (fun e t ht => runOn_bind_keeps (h.handleElement ht .two .right e)
        fun _ t ht => h.tryFlushBarriers ht) (h.closeAndFlush hs .two)
    · exact hrecv1 _ _ (fun e t ht => runOn_bind_keeps (h.handleElement ht .one .left e)
        fun _ t ht => h.tryFlushBarriers ht) (h.closeAndFlush hs .one)
    · have hfrom1 := hrecv1 handleElement1 (TwoInputMerge.closeInput .one)
        (fun e t ht => h.handleElement ht .one .left e) (h.closeInput hs .one)
      have hfrom2 := hrecv2 handleElement2 (TwoInputMerge.closeInput .two)
        (fun e t ht => h.handleElement ht .two .right e) (h.closeInput hs .two)
      dsimp only
      split
      · split
        · exact hor _ _ hfrom1 hfrom2
        · exact hor _ _ hfrom2 hfrom1
      · exact hfrom1
      · exact hfrom2
      · intro r' hr
        cases hr
        exact h.locals s _ _ _ _ hs

end Stable

section Kept

variable (s : TwoInputMerge In1 In2)

theorem sent_poll (p : MergeInput) :
    (s.poll p).input1.sent = s.input1.sent ∧ (s.poll p).input2.sent = s.input2.sent := by
  have hstable : Stable fun t : TwoInputMerge In1 In2 =>
      t.input1.sent = s.input1.sent ∧ t.input2.sent = s.input2.sent :=
    ⟨fun _ _ _ _ _ h => h, fun _ _ _ h => h⟩
  refine hstable.poll ⟨rfl, rfl⟩ (fun e c h => ⟨?_, rfl⟩) (fun e c h => ⟨rfl, ?_⟩) p
  · exact Channel.sent_of_tryRecv h
  · exact Channel.sent_of_tryRecv h

theorem output_poll_of_dropped (hdropped : s.outputDropped = true) (p : MergeInput) :
    (s.poll p).output = s.output := by
  have hstable : Stable fun t : TwoInputMerge In1 In2 =>
      t.outputDropped = true ∧ t.output = s.output :=
    ⟨fun _ _ _ _ _ h => h, fun t e hnot h => absurd (hnot.symm.trans h.1) Bool.false_ne_true⟩
  exact (hstable.poll ⟨hdropped, rfl⟩ (fun _ _ _ => ⟨hdropped, rfl⟩)
    (fun _ _ _ => ⟨hdropped, rfl⟩) p).2

theorem sent_step (ev : MergeEvent In1 In2) :
    s.input1.sent <+: (s.step ev).input1.sent ∧ s.input2.sent <+: (s.step ev).input2.sent := by
  cases ev with
  | send1 e => exact ⟨Channel.sent_prefix_send, List.prefix_refl _⟩
  | send2 e => exact ⟨List.prefix_refl _, Channel.sent_prefix_send⟩
  | poll p =>
    obtain ⟨h1, h2⟩ := s.sent_poll p
    exact ⟨h1 ▸ List.prefix_refl _, h2 ▸ List.prefix_refl _⟩
  | _ => exact ⟨List.prefix_refl _, List.prefix_refl _⟩

end Kept

/-! ## Watermarks received -/

/-- The watermarks that are received from an input between two states. -/
def received (s s' : TwoInputMerge In1 In2) (i : MergeInput) : List (Fin 2 × Watermark) :=
  (((s'.taken i).drop (s.taken i).length).filterMap watermark?).map (Prod.mk i.index)

/-- The watermarks that a run receives, in order. -/
def updates (es : List (MergeEvent In1 In2)) : List (Fin 2 × Watermark) :=
  emitted step (fun s ev => received s (s.step ev) .one ++ received s (s.step ev) .two)
    (init In1 In2) es

section Received

variable {s s₁ s' : TwoInputMerge In1 In2} {i : MergeInput} {e : StreamElement (Either In1 In2)}

theorem received_of_taken (h : s'.taken = s.taken) (i : MergeInput) : received s s' i = [] := by
  unfold received
  rw [h, List.drop_length]
  rfl

theorem received_of_takes (ht : Takes s i e s₁) (h : s'.taken = s₁.taken) :
    received s s' .one ++ received s s' .two =
      e.watermark?.toList.map (Prod.mk i.index) := by
  have hown : received s s' i = e.watermark?.toList.map (Prod.mk i.index) := by
    unfold received
    rw [h, ht.taken, if_pos rfl, List.drop_left]
    cases hw : e.watermark? <;> simp [hw]
  have hother : received s s' i.other = [] := by
    unfold received
    rw [h, ht.taken, if_neg i.other_ne, List.drop_length]
    rfl
  cases i
  · rw [hown, show received s s' .two = [] from hother, List.append_nil]
  · rw [hown, show received s s' .one = [] from hother, List.nil_append]

end Received

/-! ## The merger agrees with a tracker -/

/-- What the merger knows about watermarks, as a tracker. -/
def trackerOf (s : TwoInputMerge In1 In2) : WatermarkTracker 2 where
  inputWatermarks := #v[s.side1.watermark, s.side2.watermark]
  currentWatermark := s.lastForwardedWatermark

/-- After the updates `us` the merger knows what a tracker knows, and has forwarded what the tracker
has returned. -/
structure Tracked (us : List (Fin 2 × Watermark)) (s : TwoInputMerge In1 In2) : Prop where
  tracker : (WatermarkTracker.new 2).after us = trackerOf s
  forwarded : s.output.filterMap watermark? = (WatermarkTracker.new 2).results us
  received : ∀ i w, (i.index, w) ∈ us → .watermark w ∈ s.taken i

section Tracked

variable {us : List (Fin 2 × Watermark)} {s s₁ s' : TwoInputMerge In1 In2} {i : MergeInput}
  {e : StreamElement (Either In1 In2)}

theorem tracked_init : Tracked [] (init In1 In2) where
  tracker := rfl
  forwarded := rfl
  received i w h := by cases h

theorem Tracked.frame (h : Tracked us s) (ht : trackerOf s' = trackerOf s)
    (hout : s'.output.filterMap watermark? = s.output.filterMap watermark?)
    (htaken : ∀ i, s.taken i <+: s'.taken i) : Tracked us s' where
  tracker := h.tracker.trans ht.symm
  forwarded := hout.trans h.forwarded
  received i w hw := (htaken i).subset (h.received i w hw)

theorem Takes.locals (ht : Takes s i e s₁) : trackerOf s₁ = trackerOf s ∧ s₁.output = s.output := by
  cases ht <;> exact ⟨rfl, rfl⟩

theorem Takes.taken_grows (ht : Takes s i e s₁) (k : MergeInput) : s.taken k <+: s₁.taken k := by
  rw [ht.taken]
  split_ifs
  · exact List.prefix_append _ _
  · exact List.prefix_refl _

theorem update_trackerOf (s : TwoInputMerge In1 In2) (i : MergeInput) (w : Watermark) :
    ((trackerOf s).update i.index w).2 = trackerOf (s.advance i w.timestamp) ∧
      (s.advance i w.timestamp).output.filterMap watermark? =
        s.output.filterMap watermark? ++ ((trackerOf s).update i.index w).1.toList := by
  have hupdate : (trackerOf s).update i.index w =
      let t := s.modifySide i fun side => { side with watermark := w.timestamp }
      let newMin := min t.side1.watermark t.side2.watermark
      if newMin > t.lastForwardedWatermark then
        (some ⟨newMin⟩, ⟨#v[t.side1.watermark, t.side2.watermark], newMin⟩)
      else (none, trackerOf t) := by
    cases i <;> rfl
  rw [hupdate]
  simp only [advance]
  split_ifs with hmin
  · refine ⟨rfl, ?_⟩
    show (_ ++ [StreamElement.watermark _]).filterMap watermark? = _
    rw [List.filterMap_append, output_modifySide]
    rfl
  · refine ⟨rfl, ?_⟩
    rw [output_modifySide, Option.toList_none, List.append_nil]

/-- **A watermark received is an update of the tracker.** -/
theorem Tracked.advance (h : Tracked us s) {w : Watermark} (ht : Takes s i (.watermark w) s₁) :
    Tracked (us ++ [(i.index, w)]) (s₁.advance i w.timestamp) := by
  obtain ⟨hlocals, hout⟩ := ht.locals
  obtain ⟨hafter, hresult⟩ := s₁.update_trackerOf i w
  have htaken : (s₁.advance i w.timestamp).taken = s₁.taken := (advance_frame s₁ i w.timestamp).2.1
  rw [hlocals, ← h.tracker] at hafter hresult
  refine ⟨?_, ?_, fun k v hv => ?_⟩
  · rw [WatermarkTracker.after_concat]
    exact hafter
  · rw [WatermarkTracker.results_concat, hresult, hout, h.forwarded]
  · rw [htaken]
    rcases List.mem_append.mp hv with hv | hv
    · exact (ht.taken_grows k).subset (h.received k v hv)
    · obtain ⟨hk, rfl⟩ := Prod.mk.inj (List.mem_singleton.mp hv)
      obtain rfl := MergeInput.index_injective hk
      rw [ht.taken, if_pos rfl]
      exact List.mem_append_right _ (List.mem_singleton_self _)

theorem trackerOf_modifySide (s : TwoInputMerge In1 In2) (i : MergeInput)
    {f : MergeSide In1 In2 → MergeSide In1 In2}
    (hf : ∀ side : MergeSide In1 In2, (f side).watermark = side.watermark) :
    trackerOf (s.modifySide i f) = trackerOf s := by
  cases i <;> simp only [trackerOf, modifySide, hf]

theorem setPending_frame (s : TwoInputMerge In1 In2) (i : MergeInput)
    (b : Option CheckpointBarrier) : trackerOf (s.setPending i b) = trackerOf s ∧
      (s.setPending i b).output = s.output ∧ (s.setPending i b).taken = s.taken :=
  ⟨trackerOf_modifySide s i fun _ => rfl, output_modifySide s i _, taken_modifySide _⟩

theorem setClosed_frame (s : TwoInputMerge In1 In2) (i : MergeInput) :
    trackerOf (s.setClosed i) = trackerOf s ∧ (s.setClosed i).output = s.output ∧
      (s.setClosed i).taken = s.taken :=
  ⟨trackerOf_modifySide s i fun _ => rfl, output_modifySide s i _, taken_modifySide _⟩

theorem watermarks_emit (s : TwoInputMerge In1 In2) (hw : e.watermark? = none) :
    (s.emit e).output.filterMap watermark? = s.output.filterMap watermark? := by
  show (s.output ++ [e]).filterMap watermark? = _
  rw [List.filterMap_append, List.filterMap_cons_none hw]
  exact List.append_nil _

theorem Tracked.quiet (h : Tracked us s)
    (hreceived : TwoInputMerge.received s s' .one ++ TwoInputMerge.received s s' .two = [])
    (ht : trackerOf s' = trackerOf s)
    (hout : s'.output.filterMap watermark? = s.output.filterMap watermark?)
    (htaken : ∀ i, s.taken i <+: s'.taken i) :
    Tracked (us ++ (TwoInputMerge.received s s' .one ++ TwoInputMerge.received s s' .two)) s' := by
  rw [hreceived, List.append_nil]
  exact h.frame ht hout htaken

/-- **A round keeps the merger and the tracker together.** -/
theorem Tracked.poll (h : Tracked us s) (hp : Polls s s')
    (hfailed : s'.result ≠ some (.error .channelClosed)) :
    Tracked (us ++ (TwoInputMerge.received s s' .one ++ TwoInputMerge.received s s' .two)) s' := by
  have hsame : ∀ t : TwoInputMerge In1 In2, t.taken = s.taken → trackerOf t = trackerOf s →
      t.output.filterMap watermark? = s.output.filterMap watermark? →
      Tracked (us ++ (TwoInputMerge.received s t .one ++ TwoInputMerge.received s t .two)) t := by
    intro t ht htracker hout
    refine h.quiet ?_ htracker hout fun k => ht ▸ List.prefix_refl _
    rw [received_of_taken ht, received_of_taken ht, List.append_nil]
  cases hp with
  | wait => exact hsame s rfl rfl rfl
  | finish => exact hsame _ rfl rfl rfl
  | failed _ herr => exact absurd herr hfailed
  | take i e s₁ _ hpending ht hh =>
    obtain ⟨hlocals, hout⟩ := ht.locals
    cases hh with
    | record r =>
      refine h.quiet (received_of_takes ht rfl) hlocals ?_ ht.taken_grows
      rw [watermarks_emit s₁ rfl, hout]
    | watermark w =>
      rw [received_of_takes ht (advance_frame s₁ i w.timestamp).2.1]
      exact h.advance ht
    | barrier b hother =>
      obtain ⟨htracker, houtput, htaken⟩ := s₁.setPending_frame i (some b)
      refine h.quiet (received_of_takes ht htaken) (htracker.trans hlocals) ?_ fun k => ?_
      · rw [houtput, hout]
      · rw [htaken]
        exact ht.taken_grows k
    | matched b b' hother =>
      refine h.quiet (received_of_takes ht rfl) hlocals ?_ ht.taken_grows
      rw [watermarks_emit _ rfl]
      exact congrArg _ hout
  | close i =>
    obtain ⟨htracker, houtput, htaken⟩ := s.setClosed_frame i
    exact hsame _ htaken htracker (by rw [houtput])
  | closeFlush i b =>
    obtain ⟨htracker, houtput, htaken⟩ := s.setClosed_frame i
    obtain ⟨htracker', houtput', htaken'⟩ := (s.setClosed i).setPending_frame i.other none
    refine hsame _ (htaken'.trans htaken) (htracker'.trans htracker) ?_
    rw [watermarks_emit _ rfl, houtput', houtput]

/-- The merger and the tracker agree, or a send has failed after they did. -/
def Agrees (us : List (Fin 2 × Watermark)) (s : TwoInputMerge In1 In2) : Prop :=
  Failed s ∧ s.output.filterMap watermark? <+: (WatermarkTracker.new 2).results us ∨
    Aligned s ∧ Tracked us s

theorem results_grow (us vs : List (Fin 2 × Watermark)) :
    (WatermarkTracker.new 2).results us <+: (WatermarkTracker.new 2).results (us ++ vs) := by
  unfold WatermarkTracker.results
  rw [emitted_append]
  exact List.prefix_append _ _

theorem Failed.agrees (hfailed : Failed s)
    (hbefore : s.output.filterMap watermark? <+: (WatermarkTracker.new 2).results us)
    (ev : MergeEvent In1 In2) (vs : List (Fin 2 × Watermark)) : Agrees (us ++ vs) (s.step ev) := by
  have hout : (s.step ev).output = s.output := by
    cases ev with
    | poll p => exact s.output_poll_of_dropped hfailed.2 p
    | _ => rfl
  refine .inl ⟨hfailed.step ev, ?_⟩
  rw [hout]
  exact hbefore.trans (results_grow _ _)

theorem Tracked.agrees_quiet (h : Tracked us s) {s' : TwoInputMerge In1 In2}
    (htaken : s'.taken = s.taken) (htracker : trackerOf s' = trackerOf s)
    (hout : s'.output = s.output) (haligned : Aligned s') :
    Agrees (us ++ (TwoInputMerge.received s s' .one ++ TwoInputMerge.received s s' .two)) s' := by
  refine .inr ⟨haligned, h.quiet ?_ htracker (by rw [hout]) fun k => htaken ▸ List.prefix_refl _⟩
  rw [received_of_taken htaken, received_of_taken htaken, List.append_nil]

theorem Tracked.agrees_poll (h : Tracked us s) (haligned : Aligned s) (p : MergeInput) :
    Agrees (us ++ (TwoInputMerge.received s (s.poll p) .one ++
      TwoInputMerge.received s (s.poll p) .two)) (s.poll p) := by
  rcases haligned.poll p with ⟨hdropped, hfailed⟩ | haligned'
  · refine .inl ⟨hfailed, ?_⟩
    rw [s.output_poll_of_dropped hdropped p, h.forwarded]
    exact results_grow _ _
  · refine .inr ⟨haligned', ?_⟩
    cases hres : s.result with
    | some r =>
      rw [poll_of_returned hres p]
      exact h.quiet (by rw [received_of_taken rfl, received_of_taken rfl]; rfl) rfl rfl
        fun _ => List.prefix_refl _
    | none =>
      refine h.poll (poll_cases p hres haligned.buffer haligned.onePending) ?_
      intro herr
      have hok := (haligned'.returned _ herr).1
      cases hok

/-- **Every step keeps the merger and the tracker together.** -/
theorem Agrees.step (h : Agrees us s) (ev : MergeEvent In1 In2) :
    Agrees (us ++ (TwoInputMerge.received s (s.step ev) .one ++
      TwoInputMerge.received s (s.step ev) .two)) (s.step ev) := by
  rcases h with ⟨hfailed, hprefix⟩ | ⟨haligned, htracked⟩
  · exact hfailed.agrees hprefix ev _
  · cases ev with
    | poll p => exact htracked.agrees_poll haligned p
    | send1 e =>
      refine htracked.agrees_quiet ?_ rfl rfl
        (haligned.setInputs Channel.taken_send rfl (fun hd => hd.send) id)
      funext k
      cases k
      · exact congrArg (List.map _) Channel.taken_send
      · rfl
    | send2 e =>
      refine htracked.agrees_quiet ?_ rfl rfl
        (haligned.setInputs rfl Channel.taken_send id fun hd => hd.send)
      funext k
      cases k
      · rfl
      · exact congrArg (List.map _) Channel.taken_send
    | close1 =>
      refine htracked.agrees_quiet ?_ rfl rfl
        (haligned.setInputs Channel.taken_close rfl (fun hd => hd.close) id)
      funext k
      cases k <;> rfl
    | close2 =>
      refine htracked.agrees_quiet ?_ rfl rfl
        (haligned.setInputs rfl Channel.taken_close id fun hd => hd.close)
      funext k
      cases k <;> rfl
    | dropOutput =>
      refine htracked.agrees_quiet ?_ rfl rfl (haligned.setInputs rfl rfl id id)
      funext k
      cases k <;> rfl

end Tracked

theorem agrees_run (es : List (MergeEvent In1 In2)) : Agrees (updates es) (run es) := by
  induction es using List.reverseRecOn with
  | nil => exact .inr ⟨aligned_init, tracked_init⟩
  | append_singleton es ev ih =>
    unfold updates run at ih ⊢
    rw [emitted_concat, exec_concat]
    exact ih.step ev

/-! ## The promise -/

/-- Both inputs keep the watermark promise. -/
def Promised (s : TwoInputMerge In1 In2) : Prop :=
  KeepsPromise s.input1.sent ∧ KeepsPromise s.input2.sent

section Promise

variable {us : List (Fin 2 × Watermark)} {s s₁ s' : TwoInputMerge In1 In2} {i : MergeInput}

theorem Promised.of_step {ev : MergeEvent In1 In2} (h : Promised (s.step ev)) : Promised s :=
  ⟨h.1.sublist (s.sent_step ev).1.sublist, h.2.sublist (s.sent_step ev).2.sublist⟩

theorem Promised.taken (h : Promised s) (i : MergeInput) : KeepsPromise (s.taken i) := by
  cases i
  · exact StreamElement.keepsPromise_map.mpr (h.1.sublist (List.sublist_append_left _ _))
  · exact StreamElement.keepsPromise_map.mpr (h.2.sublist (List.sublist_append_left _ _))

theorem Takes.promised (ht : Takes s i e s₁) (h : Promised s) : Promised s₁ := by
  cases ht with
  | one e c hrecv => exact ⟨(Channel.sent_of_tryRecv hrecv).symm ▸ h.1, h.2⟩
  | two e c hrecv => exact ⟨h.1, (Channel.sent_of_tryRecv hrecv).symm ▸ h.2⟩

/-- **A record is later than everything forwarded.** Each watermark forwarded is covered by one of
the record's own input. -/
theorem Tracked.precedes (h : Tracked us s) (hpromised : Promised s)
    {r : Record (Either In1 In2)} (ht : Takes s i (.record r) s₁) :
    ∀ a ∈ s.output, a.Precedes (.record r) := by
  intro a ha
  cases a with
  | record r' => trivial
  | checkpointBarrier b => trivial
  | watermark m =>
    have hresult : m ∈ (WatermarkTracker.new 2).results us := by
      rw [← h.forwarded]
      exact List.mem_filterMap.mpr ⟨_, ha, rfl⟩
    obtain ⟨w, hw, hle⟩ := WatermarkTracker.results_le_received us hresult i.index
    have hkeeps := (ht.promised hpromised).taken i
    rw [ht.taken, if_pos rfl, StreamElement.keepsPromise_concat] at hkeeps
    have hlt : w.timestamp < r.timestamp := hkeeps.2 _ (h.received i w hw)
    exact lt_of_le_of_lt hle hlt

/-- A round keeps the promise of the output. -/
theorem Tracked.keepsPromise_poll (h : Tracked us s) (hpromised : Promised s)
    (hkeeps : KeepsPromise s.output) (hp : Polls s s') (hdropped : s.outputDropped = false) :
    KeepsPromise s'.output := by
  cases hp with
  | wait => exact hkeeps
  | finish => exact hkeeps
  | failed _ _ hdrop => rw [hdropped] at hdrop; cases hdrop
  | take i e s₁ _ hpending ht hh =>
    have hout : s₁.output = s.output := ht.locals.2
    have hkeeps₁ : KeepsPromise s₁.output := hout ▸ hkeeps
    cases hh with
    | record r =>
      refine StreamElement.keepsPromise_concat.mpr ⟨hkeeps₁, ?_⟩
      rw [hout]
      exact h.precedes hpromised ht
    | watermark w =>
      rcases advance_output s₁ i w.timestamp with hsame | ⟨m, hsent⟩
      · rw [hsame]
        exact hkeeps₁
      · rw [hsent]
        exact StreamElement.keepsPromise_concat_watermark.mpr hkeeps₁
    | barrier b hother =>
      rw [(s₁.setPending_frame i (some b)).2.1]
      exact hkeeps₁
    | matched b b' hother => exact StreamElement.keepsPromise_concat_barrier.mpr hkeeps₁
  | close i =>
    rw [(s.setClosed_frame i).2.1]
    exact hkeeps
  | closeFlush i b =>
    refine StreamElement.keepsPromise_concat_barrier.mpr ?_
    rw [((s.setClosed i).setPending_frame i.other none).2.1, (s.setClosed_frame i).2.1]
    exact hkeeps

/-- **The output keeps the promise that both inputs keep.** -/
theorem keepsPromise_run (es : List (MergeEvent In1 In2)) (h : Promised (run es)) :
    KeepsPromise (run es).output := by
  induction es using List.reverseRecOn with
  | nil => exact StreamElement.keepsPromise_nil
  | append_singleton es ev ih =>
    have hrun : run (es ++ [ev]) = (run es).step ev := exec_concat es ev
    rw [hrun] at h ⊢
    have hkeeps := ih h.of_step
    cases ev with
    | poll p =>
      show KeepsPromise ((run es).poll p).output
      cases hdropped : (run es).outputDropped with
      | true =>
        rw [(run es).output_poll_of_dropped hdropped p]
        exact hkeeps
      | false =>
        rcases agrees_run es with ⟨hfailed, -⟩ | ⟨haligned, htracked⟩
        · rw [hfailed.2] at hdropped
          cases hdropped
        · cases hres : (run es).result with
          | some r =>
            rw [poll_of_returned hres]
            exact hkeeps
          | none =>
            exact htracked.keepsPromise_poll h.of_step hkeeps
              (poll_cases p hres haligned.buffer haligned.onePending) hdropped
    | _ => exact hkeeps

end Promise

/-- **The merger keeps the watermark promise.** The watermarks forwarded are what a tracker of two
inputs returns, up to the first send that fails. -/
theorem twoInputMerge_keepsPromise (es : List (MergeEvent In1 In2))
    (h1 : KeepsPromise (run es).input1.sent) (h2 : KeepsPromise (run es).input2.sent) :
    KeepsPromise (run es).output ∧
      ((run es).output.filterMap watermark?).Pairwise (fun a b => a.timestamp < b.timestamp) ∧
      (run es).output.filterMap watermark? <+: (WatermarkTracker.new 2).results (updates es) ∧
      ((run es).result ≠ some (.error .channelClosed) →
        (run es).output.filterMap watermark? = (WatermarkTracker.new 2).results (updates es)) := by
  have hagrees := agrees_run es
  have hprefix : (run es).output.filterMap watermark? <+:
      (WatermarkTracker.new 2).results (updates es) := by
    rcases hagrees with ⟨-, hprefix⟩ | ⟨-, htracked⟩
    · exact hprefix
    · rw [htracked.forwarded]
  refine ⟨keepsPromise_run es ⟨h1, h2⟩, ?_, hprefix, fun hok => ?_⟩
  · exact (WatermarkTracker.results_increasing _).sublist hprefix.sublist
  · rcases hagrees with ⟨hfailed, -⟩ | ⟨-, htracked⟩
    · exact absurd hfailed.1 hok
    · exact htracked.forwarded

/-- The second input is behind while the first one waits at its barrier. -/
def promisingRun : List (MergeEvent ℕ ℕ) :=
  [.send1 (.watermark ⟨10⟩), .send1 (.checkpointBarrier ⟨1, 0⟩), .send1 (.record ⟨11, 11, none⟩),
    .send2 (.record ⟨20, 3, none⟩), .send2 (.watermark ⟨5⟩), .send2 (.checkpointBarrier ⟨1, 0⟩),
    .send2 (.watermark ⟨12⟩), .send2 (.watermark ⟨8⟩), .send1 (.watermark ⟨20⟩), .close1,
    .close2] ++ List.replicate 14 (.poll .one)

theorem promisingRun_keepsPromise :
    KeepsPromise (run promisingRun).output ∧
      (run promisingRun).output.filterMap watermark? =
        (WatermarkTracker.new 2).results (updates promisingRun) ∧
      (run promisingRun).output = [.record ⟨.right 20, 3, none⟩, .watermark ⟨5⟩,
        .checkpointBarrier ⟨1, 0⟩, .record ⟨.left 11, 11, none⟩, .watermark ⟨12⟩] := by
  obtain ⟨hkeeps, -, -, hresults⟩ := twoInputMerge_keepsPromise promisingRun (by decide +kernel)
    (by decide +kernel)
  exact ⟨hkeeps, hresults (by decide +kernel), by decide +kernel⟩

end TwoInputMerge

end Flume
