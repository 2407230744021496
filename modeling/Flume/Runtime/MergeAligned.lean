import Flume.Lib.AlignedMerge
import Flume.Runtime.MergeWatermark

/-!
# The two-input merger is an aligned merge

What the merger may send for two streams, said without channels, rounds and senders: it passes on
records, turns watermarks into those of a tracker, and aligns barriers.

* `Merges`: `m` is what a run of the merger has sent for the streams `a` and `b`;
* `streamRules`: the rules of the aligned merge;
* **`Handles.read_one`**, **`Handles.read_two`**: handling an element is reading it in the aligned
  merge;
* `Before`, **`Polls.before`**: what a round receives and sends belongs to an aligned merge;
* `Ready`, **`Ready.follows`**: the merger can take every step of an aligned merge;
* **`merges_iff`**: the merger sends exactly the aligned merges of its inputs;
* **`TwoInputMerge.output_within`**: at any time it has sent a part of one.
-/

namespace Flume

open Channels AlignedMerge Runs
open StreamElement (watermark? barrier?)

variable {In1 In2 : Type}

/-- `m` is all that a merger has sent when it has returned `Ok` and `a` and `b` were sent to it. -/
def Merges {In1 In2 : Type} (a : List (StreamElement In1)) (b : List (StreamElement In2))
    (m : List (StreamElement (Either In1 In2))) : Prop :=
  ∃ es : List (MergeEvent In1 In2), (TwoInputMerge.run es).input1.sent = a ∧
    (TwoInputMerge.run es).input2.sent = b ∧
    (TwoInputMerge.run es).result = some (.ok ()) ∧ (TwoInputMerge.run es).output = m

/-! ## The rules -/

/-- What is passed on for an element of the `i`-th input that is no barrier. -/
def passOn {T : Type} (tag : T → Either In1 In2) (i : Fin 2) (t : WatermarkTracker 2) :
    StreamElement T → List (StreamElement (Either In1 In2)) × WatermarkTracker 2
  | .record r => ([.record (r.map tag)], t)
  | .watermark w => ((t.update i w).1.toList.map .watermark, (t.update i w).2)
  | .checkpointBarrier _ => ([], t)

theorem passOn_unmarked {T : Type} (tag : T → Either In1 In2) (i : Fin 2) (t : WatermarkTracker 2)
    (e : StreamElement T) : ∀ x ∈ (passOn tag i t e).1, x.barrier? = none := by
  intro x hx
  cases e with
  | record r =>
    rw [List.mem_singleton.mp hx]
    rfl
  | watermark w =>
    obtain ⟨v, -, rfl⟩ := List.mem_map.mp hx
    rfl
  | checkpointBarrier b => cases hx

/-- Records are tagged, watermarks go through a tracker, and barriers are aligned. -/
def streamRules (In1 In2 : Type) : Rules (WatermarkTracker 2) (StreamElement In1)
    (StreamElement In2) (StreamElement (Either In1 In2)) CheckpointBarrier where
  markA := barrier?
  markB := barrier?
  markM := barrier?
  takeA := passOn .left 0
  takeB := passOn .right 1
  forward := .checkpointBarrier
  unmarkedA t e _ := passOn_unmarked .left 0 t e
  unmarkedB t e _ := passOn_unmarked .right 1 t e
  marked _ := rfl

namespace TwoInputMerge

/-- The barrier that waits for one of the other input. -/
def waiting (s : TwoInputMerge In1 In2) : Option (CheckpointBarrier ⊕ CheckpointBarrier) :=
  match s.side1.pendingBarrier with
  | some b => some (.inl b)
  | none => s.side2.pendingBarrier.map .inr

/-- The results of merging what is to come, after what has been received. -/
abbrev AlignsFrom (s : TwoInputMerge In1 In2) (as : List (StreamElement In1))
    (bs : List (StreamElement In2)) (ms : List (StreamElement (Either In1 In2))) : Prop :=
  Aligns (streamRules In1 In2) (trackerOf s) s.waiting as bs ms

variable {s s₁ s' : TwoInputMerge In1 In2} {i : MergeInput} {e : StreamElement (Either In1 In2)}
  {as : List (StreamElement In1)} {bs : List (StreamElement In2)}
  {ms : List (StreamElement (Either In1 In2))}

/-- **What a round leaves alone**: it takes from the inputs, and adds to the output. -/
theorem poll_frame (s : TwoInputMerge In1 In2) (preferred : MergeInput) :
    ((s.poll preferred).input1.sent = s.input1.sent ∧
      (s.poll preferred).input1.closed = s.input1.closed) ∧
    ((s.poll preferred).input2.sent = s.input2.sent ∧
      (s.poll preferred).input2.closed = s.input2.closed) ∧
    (s.poll preferred).outputDropped = s.outputDropped ∧
    s.output <+: (s.poll preferred).output := by
  have hstable : Stable fun t : TwoInputMerge In1 In2 =>
      (t.input1.sent = s.input1.sent ∧ t.input1.closed = s.input1.closed) ∧
      (t.input2.sent = s.input2.sent ∧ t.input2.closed = s.input2.closed) ∧
      t.outputDropped = s.outputDropped ∧ s.output <+: t.output :=
    ⟨fun _ _ _ _ _ h => h, fun t e _ h =>
      ⟨h.1, h.2.1, h.2.2.1, h.2.2.2.trans (List.prefix_append _ _)⟩⟩
  refine hstable.poll ⟨⟨rfl, rfl⟩, ⟨rfl, rfl⟩, rfl, List.prefix_refl _⟩ (fun e c h => ?_)
    (fun e c h => ?_) preferred
  · exact ⟨⟨Channel.sent_of_tryRecv h, (Channel.tryRecv_item h).2.2⟩, ⟨rfl, rfl⟩, rfl,
      List.prefix_refl _⟩
  · exact ⟨⟨rfl, rfl⟩, ⟨Channel.sent_of_tryRecv h, (Channel.tryRecv_item h).2.2⟩, rfl,
      List.prefix_refl _⟩

/-! ## What waits -/

theorem waiting_of_two (h : (s.side .two).pendingBarrier = none) :
    s.waiting = (s.side .one).pendingBarrier.map .inl := by
  have h' : s.side2.pendingBarrier = none := h
  show s.waiting = s.side1.pendingBarrier.map .inl
  unfold waiting
  rw [h']
  cases s.side1.pendingBarrier <;> rfl

theorem waiting_of_one (h : (s.side .one).pendingBarrier = none) :
    s.waiting = (s.side .two).pendingBarrier.map .inr := by
  have h' : s.side1.pendingBarrier = none := h
  show s.waiting = s.side2.pendingBarrier.map .inr
  unfold waiting
  rw [h']

theorem waiting_congr (h : ∀ k, (s'.side k).pendingBarrier = (s.side k).pendingBarrier) :
    s'.waiting = s.waiting := by
  have h1 : s'.side1.pendingBarrier = s.side1.pendingBarrier := h .one
  have h2 : s'.side2.pendingBarrier = s.side2.pendingBarrier := h .two
  unfold waiting
  rw [h1, h2]

theorem waiting_none (h : ∀ i, (s.side i).pendingBarrier = none) : s.waiting = none := by
  rw [waiting_of_one (h .one), h .two]
  rfl

theorem one_not_waiting : (s.side .one).pendingBarrier = none ↔ ∀ b, s.waiting ≠ some (.inl b) := by
  show s.side1.pendingBarrier = none ↔ _
  unfold waiting
  cases s.side1.pendingBarrier <;> cases s.side2.pendingBarrier <;> simp

theorem two_not_waiting (h : Aligned s) :
    (s.side .two).pendingBarrier = none ↔ ∀ b, s.waiting ≠ some (.inr b) := by
  have hone := h.onePending
  show s.side2.pendingBarrier = none ↔ _
  unfold waiting
  cases h1 : s.side1.pendingBarrier <;> cases h2 : s.side2.pendingBarrier <;> simp_all

/-! ## Handling an element is reading it -/

theorem output_advance (s : TwoInputMerge In1 In2) (i : MergeInput) (w : Watermark) :
    (s.advance i w.timestamp).output =
      s.output ++ ((trackerOf s).update i.index w).1.toList.map .watermark := by
  have hsent := (s.update_trackerOf i w).2
  rcases advance_output s i w.timestamp with hsame | ⟨v, hv⟩
  · rw [hsame] at hsent ⊢
    rw [List.self_eq_append_right.mp hsent, List.map_nil, List.append_nil]
  · rw [hv] at hsent ⊢
    rw [List.filterMap_append, List.append_cancel_left_eq] at hsent
    rw [← hsent]
    rfl

/-- **Handling an element of the first input** is reading it. -/
theorem Handles.read_one {x : StreamElement In1} (hpending : (s.side .one).pendingBarrier = none)
    (hh : Handles s .one (x.map .left) s') :
    s'.output = s.output ++ ((streamRules In1 In2).readA (trackerOf s) s.waiting x).1 ∧
      trackerOf s' = ((streamRules In1 In2).readA (trackerOf s) s.waiting x).2.1 ∧
      s'.waiting = ((streamRules In1 In2).readA (trackerOf s) s.waiting x).2.2 := by
  cases x with
  | record r =>
    cases hh
    exact ⟨rfl, rfl, rfl⟩
  | watermark w =>
    cases hh
    exact ⟨s.output_advance .one w, (s.update_trackerOf .one w).1.symm,
      waiting_congr fun k => ((advance_frame s .one w.timestamp).1 k).2.1⟩
  | checkpointBarrier b =>
    cases hh with
    | barrier _ hother =>
      have hw : s.waiting = none := waiting_none fun | .one => hpending | .two => hother
      rw [hw, Rules.readA_wait (R := streamRules In1 In2) rfl]
      exact ⟨(List.append_nil _).symm, rfl, waiting_of_two hother⟩
    | matched _ b' hother =>
      have hw : s.waiting = some (.inr b') :=
        (waiting_of_one hpending).trans (congrArg (Option.map Sum.inr) hother)
      rw [hw, Rules.readA_meet (R := streamRules In1 In2) rfl]
      exact ⟨rfl, rfl, rfl⟩

/-- **Handling an element of the second input** is reading it. -/
theorem Handles.read_two {x : StreamElement In2} (hpending : (s.side .two).pendingBarrier = none)
    (hh : Handles s .two (x.map .right) s') :
    s'.output = s.output ++ ((streamRules In1 In2).readB (trackerOf s) s.waiting x).1 ∧
      trackerOf s' = ((streamRules In1 In2).readB (trackerOf s) s.waiting x).2.1 ∧
      s'.waiting = ((streamRules In1 In2).readB (trackerOf s) s.waiting x).2.2 := by
  cases x with
  | record r =>
    cases hh
    exact ⟨rfl, rfl, rfl⟩
  | watermark w =>
    cases hh
    exact ⟨s.output_advance .two w, (s.update_trackerOf .two w).1.symm,
      waiting_congr fun k => ((advance_frame s .two w.timestamp).1 k).2.1⟩
  | checkpointBarrier b =>
    cases hh with
    | barrier _ hother =>
      have hw : s.waiting = none := waiting_none fun | .one => hother | .two => hpending
      rw [hw, Rules.readB_wait (R := streamRules In1 In2) rfl]
      exact ⟨(List.append_nil _).symm, rfl, waiting_of_one hother⟩
    | matched _ b' hother =>
      have hw : s.waiting = some (.inl b') :=
        (waiting_of_two hpending).trans (congrArg (Option.map Sum.inl) hother)
      rw [hw, Rules.readB_meet (R := streamRules In1 In2) rfl]
      exact ⟨rfl, rfl, rfl⟩

/-! ## What was sent belongs to an aligned merge -/

/-- An input that was closed has nothing to come. -/
def Ended (s : TwoInputMerge In1 In2) (as : List (StreamElement In1))
    (bs : List (StreamElement In2)) : Prop :=
  (s.side1.inputOpen = false → as = []) ∧ (s.side2.inputOpen = false → bs = [])

/-- What is to come for `s` is what was received and sent until `s'`, and what is to come for `s'`.
-/
structure Before (s s' : TwoInputMerge In1 In2) (as : List (StreamElement In1))
    (bs : List (StreamElement In2)) (ms : List (StreamElement (Either In1 In2)))
    (as' : List (StreamElement In1)) (bs' : List (StreamElement In2))
    (ms' : List (StreamElement (Either In1 In2))) : Prop where
  taken1 : s.input1.taken ++ as' = s'.input1.taken ++ as
  taken2 : s.input2.taken ++ bs' = s'.input2.taken ++ bs
  output : s.output ++ ms' = s'.output ++ ms
  aligns : s.AlignsFrom as' bs' ms'
  ended : s.Ended as' bs'

theorem Before.same (h1 : s'.input1.taken = s.input1.taken) (h2 : s'.input2.taken = s.input2.taken)
    (hout : s'.output = s.output) (htracker : trackerOf s' = trackerOf s)
    (hwaiting : s'.waiting = s.waiting)
    (hopen : ∀ k, (s.side k).inputOpen = false → (s'.side k).inputOpen = false)
    (ha : s'.AlignsFrom as bs ms) (he : s'.Ended as bs) : Before s s' as bs ms as bs ms where
  taken1 := by rw [h1]
  taken2 := by rw [h2]
  output := by rw [hout]
  aligns := by
    unfold AlignsFrom at ha ⊢
    rwa [htracker, hwaiting] at ha
  ended := ⟨fun h => he.1 (hopen .one h), fun h => he.2 (hopen .two h)⟩

theorem Handles.inputs (hh : Handles s i e s') : s'.input1 = s.input1 ∧ s'.input2 = s.input2 ∧
    s'.result = s.result ∧ ∀ k, (s'.side k).inputOpen = (s.side k).inputOpen := by
  cases hh with
  | record r => exact ⟨rfl, rfl, rfl, fun _ => rfl⟩
  | watermark w =>
    obtain ⟨hside, -, -, hres⟩ := advance_frame s i w.timestamp
    refine ⟨?_, ?_, hres, fun k => (hside k).2.2⟩
    · simp only [advance]
      split_ifs <;> cases i <;> rfl
    · simp only [advance]
      split_ifs <;> cases i <;> rfl
  | barrier b hother => cases i <;> exact ⟨rfl, rfl, rfl, fun k => by cases k <;> rfl⟩
  | matched b b' hother => exact ⟨rfl, rfl, rfl, fun k => by cases k <;> rfl⟩

/-- An element was received. -/
theorem Aligned.before_take (h : Aligned s) (hpending : (s.side i).pendingBarrier = none)
    (ht : Takes s i e s₁) (hh : Handles s₁ i e s') (ha : s'.AlignsFrom as bs ms)
    (he : s'.Ended as bs) : ∃ as' bs' ms', Before s s' as bs ms as' bs' ms' := by
  have hopen := (h.count_of_takes hpending ht).1
  obtain ⟨htracker, hout⟩ := ht.locals
  have hside := ht.frame.1
  have hwaiting : s₁.waiting = s.waiting := waiting_congr fun k => by rw [hside]
  obtain ⟨hin1, hin2, -, hinput⟩ := hh.inputs
  rw [hside] at hinput
  rw [← hside] at hpending
  cases ht with
  | one x c hrecv =>
    obtain ⟨hsent, hknown, hwaits⟩ := hh.read_one hpending
    rw [htracker, hwaiting] at hsent hknown hwaits
    refine ⟨x :: as, bs, ((streamRules In1 In2).readA (trackerOf s) s.waiting x).1 ++ ms,
      ?_, ?_, ?_, ?_, fun hclosed => ?_, fun hclosed => he.2 ((hinput .two).trans hclosed)⟩
    · rw [hin1]
      show _ = c.taken ++ as
      rw [(Channel.tryRecv_item hrecv).2.1, List.append_assoc, List.singleton_append]
    · rw [hin2]
    · rw [hsent, hout, List.append_assoc]
    · unfold AlignsFrom at ha
      rw [hknown, hwaits] at ha
      exact .readA (hwaiting ▸ one_not_waiting.mp hpending) ha
    · exact absurd (hclosed.symm.trans hopen) (by simp)
  | two x c hrecv =>
    obtain ⟨hsent, hknown, hwaits⟩ := hh.read_two hpending
    rw [htracker, hwaiting] at hsent hknown hwaits
    refine ⟨as, x :: bs, ((streamRules In1 In2).readB (trackerOf s) s.waiting x).1 ++ ms,
      ?_, ?_, ?_, ?_, fun hclosed => he.1 ((hinput .one).trans hclosed), fun hclosed => ?_⟩
    · rw [hin1]
    · rw [hin2]
      show _ = c.taken ++ bs
      rw [(Channel.tryRecv_item hrecv).2.1, List.append_assoc, List.singleton_append]
    · rw [hsent, hout, List.append_assoc]
    · unfold AlignsFrom at ha
      rw [hknown, hwaits] at ha
      exact .readB ((two_not_waiting h).mp (hside ▸ hpending)) ha
    · exact absurd (hclosed.symm.trans hopen) (by simp)

/-- An input has ended while the other one waits. -/
theorem before_flush {b : CheckpointBarrier}
    (hpending : (s.side i).pendingBarrier = none)
    (hother : (s.side i.other).pendingBarrier = some b)
    (ha : AlignsFrom (((s.setClosed i).setPending i.other none).emit (.checkpointBarrier b)) as bs ms)
    (he : Ended (((s.setClosed i).setPending i.other none).emit (.checkpointBarrier b)) as bs) :
    ∃ as' bs' ms', Before s (((s.setClosed i).setPending i.other none).emit (.checkpointBarrier b))
      as bs ms as' bs' ms' := by
  have hnone : waiting (((s.setClosed i).setPending i.other none).emit (.checkpointBarrier b)) =
      none := by
    refine waiting_none fun k => ?_
    cases i <;> cases k <;> first | rfl | exact hpending
  unfold AlignsFrom at ha
  rw [hnone] at ha
  cases i with
  | one =>
    have hw : s.waiting = some (.inr b) :=
      (waiting_of_one hpending).trans (congrArg (Option.map Sum.inr) hother)
    obtain rfl : as = [] := he.1 rfl
    refine ⟨[], bs, .checkpointBarrier b :: ms, rfl, rfl, ?_, ?_, fun _ => rfl, he.2⟩
    · exact (List.append_cons _ _ _).symm ▸ rfl
    · unfold AlignsFrom
      rw [hw]
      exact .endA ha
  | two =>
    have hw : s.waiting = some (.inl b) :=
      (waiting_of_two hpending).trans (congrArg (Option.map Sum.inl) hother)
    obtain rfl : bs = [] := he.2 rfl
    refine ⟨as, [], .checkpointBarrier b :: ms, rfl, rfl, ?_, ?_, he.1, fun _ => rfl⟩
    · exact (List.append_cons _ _ _).symm ▸ rfl
    · unfold AlignsFrom
      rw [hw]
      exact .endB ha

/-- **A round is a step of the aligned merge**, or none. -/
theorem Polls.before (hp : Polls s s') (h : Aligned s)
    (hok : s'.result ≠ some (.error .channelClosed)) (ha : s'.AlignsFrom as bs ms)
    (he : s'.Ended as bs) : ∃ as' bs' ms', Before s s' as bs ms as' bs' ms' := by
  cases hp with
  | wait => exact ⟨as, bs, ms, .same rfl rfl rfl rfl rfl (fun _ => id) ha he⟩
  | finish => exact ⟨as, bs, ms, .same rfl rfl rfl rfl rfl (fun _ => id) ha he⟩
  | failed _ herr => exact absurd herr hok
  | take i e s₁ _ hpending ht hh => exact h.before_take hpending ht hh ha he
  | close i hopen _ hnone =>
    obtain ⟨htracker, hout, -⟩ := s.setClosed_frame i
    refine ⟨as, bs, ms, .same ?_ ?_ hout htracker ?_ (fun k hk => ?_) ha he⟩
    · cases i <;> rfl
    · cases i <;> rfl
    · exact waiting_congr fun k => by cases i <;> cases k <;> rfl
    · rw [side_setClosed]
      split_ifs
      · rfl
      · exact hk
  | closeFlush i b _ hpending hother => exact before_flush hpending hother ha he

/-- **A run up to some state and an aligned merge from there** make an aligned merge. -/
theorem aligns_run (es : List (MergeEvent In1 In2)) (h : Aligned (run es))
    (ha : (run es).AlignsFrom as bs ms) (he : (run es).Ended as bs) :
    (init In1 In2).AlignsFrom ((run es).input1.taken ++ as) ((run es).input2.taken ++ bs)
      ((run es).output ++ ms) := by
  induction es using List.reverseRecOn generalizing as bs ms with
  | nil => exact ha
  | append_singleton es ev ih =>
    have hrun : run (es ++ [ev]) = (run es).step ev := exec_concat es ev
    rw [hrun] at h ha he ⊢
    have hbefore : Aligned (run es) := by
      refine (aligned_run es).resolve_left fun hf => ?_
      have herr := (h.returned _ (hf.step ev).1).1
      cases herr
    obtain ⟨as', bs', ms', hstep⟩ :
        ∃ as' bs' ms', Before (run es) ((run es).step ev) as bs ms as' bs' ms' := by
      cases ev with
      | send1 e =>
        exact ⟨as, bs, ms, .same Channel.taken_send rfl rfl rfl rfl (fun _ => id) ha he⟩
      | send2 e =>
        exact ⟨as, bs, ms, .same rfl Channel.taken_send rfl rfl rfl (fun _ => id) ha he⟩
      | close1 => exact ⟨as, bs, ms, .same rfl rfl rfl rfl rfl (fun _ => id) ha he⟩
      | close2 => exact ⟨as, bs, ms, .same rfl rfl rfl rfl rfl (fun _ => id) ha he⟩
      | dropOutput => exact ⟨as, bs, ms, .same rfl rfl rfl rfl rfl (fun _ => id) ha he⟩
      | poll p =>
        cases hres : (run es).result with
        | some r =>
          have hsame : (run es).step (.poll p) = run es := poll_of_returned hres p
          rw [hsame] at ha he ⊢
          exact ⟨as, bs, ms, .same rfl rfl rfl rfl rfl (fun _ => id) ha he⟩
        | none =>
          refine (poll_cases p hres hbefore.buffer hbefore.onePending).before hbefore ?_ ha he
          intro herr
          have hok := (h.returned _ herr).1
          cases hok
    rw [← hstep.taken1, ← hstep.taken2, ← hstep.output]
    exact ih hbefore hstep.aligns hstep.ended

/-! ## Every aligned merge can be sent -/

/-- Both inputs have been closed, `as` and `bs` are still to be received, and the merger knows `t`
and has `p` waiting. -/
structure Ready (s : TwoInputMerge In1 In2) (t : WatermarkTracker 2)
    (p : Option (CheckpointBarrier ⊕ CheckpointBarrier)) (as : List (StreamElement In1))
    (bs : List (StreamElement In2)) : Prop where
  ending : Ending s
  running : s.result = none
  tracker : trackerOf s = t
  waits : s.waiting = p
  queue1 : s.input1.queue = as
  queue2 : s.input2.queue = bs

section Ready

variable {t : WatermarkTracker 2} {p : Option (CheckpointBarrier ⊕ CheckpointBarrier)}
  {a : StreamElement In1} {b : StreamElement In2}

theorem Outcome.afterRound {dropped : Bool} {P : TwoInputMerge In1 In2 → Prop}
    {r : Except FlumeError Unit × TwoInputMerge In1 In2} (h : Outcome dropped P r)
    (hdropped : dropped = false) : P (s.afterRound (some r)) := by
  rcases h with ⟨s', rfl, hs'⟩ | ⟨hd, -⟩
  · exact hs'
  · rw [hdropped] at hd
    cases hd

/-- If the first input has an element and does not wait, a round can take that element. -/
theorem Ending.handles_one (h : Ending s) (hres : s.result = none)
    {c : Channel (StreamElement In1)} (hrecv : s.input1.tryRecv = .item a c)
    (hpending : (s.side .one).pendingBarrier = none) :
    Handles { s with input1 := c } .one (a.map .left) (s.poll .one) := by
  have hopen : s.side1.inputOpen = true :=
    (h.aligned.count_of_takes hpending (.one a c hrecv)).1
  have hnone : s.side1.pendingBarrier = none := hpending
  have hrecv1 : ∀ f g, s.recv1 f g = some ((f a).runOn { s with input1 := c }) := by
    intro f g
    unfold recv1
    rw [hrecv]
  unfold TwoInputMerge.poll loopBody
  rw [if_neg (by simp [hres]), if_neg (by simp [hopen]), if_neg (by simp [hnone])]
  split_ifs with hw
  · obtain ⟨b', hb'⟩ := Option.isSome_iff_exists.mp (Bool.and_eq_true_iff.mp hw).1
    rw [hrecv1]
    exact (handleAndFlush_handles (s := { s with input1 := c }) (i := .one) a
      (fun | .one => h.aligned.buffer .one | .two => h.aligned.buffer .two) hpending
      hb').afterRound h.notDropped
  · have hother : s.side2.pendingBarrier = none := by
      simpa [hnone] using hw
    have hround : Handles { s with input1 := c } .one (a.map .left)
        (s.afterRound (some ((handleElement1 a).runOn { s with input1 := c }))) :=
      (handleElement_handles (s := { s with input1 := c }) (i := .one) a hpending
        hother).afterRound h.notDropped
    rw [hopen]
    cases s.side2.inputOpen
    · exact (hrecv1 handleElement1 _).symm ▸ hround
    · show Handles _ _ _ (s.afterRound ((s.recv1 handleElement1 _).or _))
      rw [hrecv1, Option.some_or]
      exact hround

/-- If the second input has an element and does not wait, a round can take that element. -/
theorem Ending.handles_two (h : Ending s) (hres : s.result = none)
    {c : Channel (StreamElement In2)} (hrecv : s.input2.tryRecv = .item b c)
    (hpending : (s.side .two).pendingBarrier = none) :
    Handles { s with input2 := c } .two (b.map .right) (s.poll .two) := by
  have hopen : s.side2.inputOpen = true :=
    (h.aligned.count_of_takes hpending (.two b c hrecv)).1
  have hnone : s.side2.pendingBarrier = none := hpending
  have hrecv2 : ∀ f g, s.recv2 f g = some ((f b).runOn { s with input2 := c }) := by
    intro f g
    unfold recv2
    rw [hrecv]
  unfold TwoInputMerge.poll loopBody
  rw [if_neg (by simp [hres]), if_neg (by simp [hopen])]
  split_ifs with hw hw'
  · obtain ⟨b', hb'⟩ := Option.isSome_iff_exists.mp (Bool.and_eq_true_iff.mp hw).1
    rw [hrecv2]
    exact (handleAndFlush_handles (s := { s with input2 := c }) (i := .two) b
      (fun | .one => h.aligned.buffer .one | .two => h.aligned.buffer .two) hpending
      hb').afterRound h.notDropped
  · simp [hnone] at hw'
  · have hother : s.side1.pendingBarrier = none := by
      simpa [hnone] using hw
    have hround : Handles { s with input2 := c } .two (b.map .right)
        (s.afterRound (some ((handleElement2 b).runOn { s with input2 := c }))) :=
      (handleElement_handles (s := { s with input2 := c }) (i := .two) b hpending
        hother).afterRound h.notDropped
    rw [hopen]
    cases s.side1.inputOpen
    · exact (hrecv2 handleElement2 _).symm ▸ hround
    · show Handles _ _ _ (s.afterRound ((s.recv2 handleElement2 _).or _))
      rw [hrecv2, Option.some_or]
      exact hround

theorem Ready.read_one (h : Ready s t p (a :: as) bs) (hp : ∀ b, p ≠ some (.inl b)) :
    Ready (s.poll .one) ((streamRules In1 In2).readA t p a).2.1
      ((streamRules In1 In2).readA t p a).2.2 as bs ∧
    (s.poll .one).output = s.output ++ ((streamRules In1 In2).readA t p a).1 := by
  obtain ⟨hending, hres, rfl, rfl, hq1, rfl⟩ := h
  obtain ⟨c, hrecv⟩ := Channel.tryRecv_of_head? (a := a) (by rw [hq1]; rfl)
  have hpending := one_not_waiting.mpr hp
  have hh := hending.handles_one hres hrecv hpending
  obtain ⟨hsent, hknown, hwaits⟩ := Handles.read_one (s := { s with input1 := c }) hpending hh
  obtain ⟨hin1, hin2, hres', -⟩ := hh.inputs
  refine ⟨⟨(hending.poll .one hres).1, hres'.trans hres, hknown, hwaits, ?_, ?_⟩, hsent⟩
  · rw [hin1]
    exact (List.cons.inj (hq1.symm.trans (Channel.tryRecv_item hrecv).1)).2.symm
  · rw [hin2]

theorem Ready.read_two (h : Ready s t p as (b :: bs)) (hp : ∀ b, p ≠ some (.inr b)) :
    Ready (s.poll .two) ((streamRules In1 In2).readB t p b).2.1
      ((streamRules In1 In2).readB t p b).2.2 as bs ∧
    (s.poll .two).output = s.output ++ ((streamRules In1 In2).readB t p b).1 := by
  obtain ⟨hending, hres, rfl, rfl, rfl, hq2⟩ := h
  obtain ⟨c, hrecv⟩ := Channel.tryRecv_of_head? (a := b) (by rw [hq2]; rfl)
  have hpending := (two_not_waiting hending.aligned).mpr hp
  have hh := hending.handles_two hres hrecv hpending
  obtain ⟨hsent, hknown, hwaits⟩ := Handles.read_two (s := { s with input2 := c }) hpending hh
  obtain ⟨hin1, hin2, hres', -⟩ := hh.inputs
  refine ⟨⟨(hending.poll .two hres).1, hres'.trans hres, hknown, hwaits, ?_, ?_⟩, hsent⟩
  · rw [hin1]
  · rw [hin2]
    exact (List.cons.inj (hq2.symm.trans (Channel.tryRecv_item hrecv).1)).2.symm

/-- The end of an input for which the other one waits. -/
theorem Ready.flush {m : CheckpointBarrier} (h : Ready s t p as bs)
    (hpending : (s.side i).pendingBarrier = none)
    (hother : (s.side i.other).pendingBarrier = some m) (hd : s.Disconnected i) :
    Ready (s.poll i) t none as bs ∧ (s.poll i).output = s.output ++ [.checkpointBarrier m] := by
  obtain ⟨hending, hres, rfl, -, rfl, rfl⟩ := h
  have haligned := hending.aligned
  have hnext := (hending.poll i hres).1
  have hpoll := poll_cases i hres haligned.buffer haligned.onePending
  generalize s.poll i = s' at hpoll hnext ⊢
  have hone : ∀ k, (s.side k).pendingBarrier = none → k = i := by
    intro k hk
    rcases i.eq_or_other k with rfl | rfl
    · rfl
    · rw [hother] at hk
      cases hk
  cases hpoll with
  | wait k hw =>
    cases k
    · exact absurd (hending.closed1.symm.trans hw.2) (by simp)
    · exact absurd (hending.closed2.symm.trans hw.2) (by simp)
  | finish hclosed => exact absurd ((hclosed _).symm.trans (haligned.open_of_pending hother)) (by simp)
  | failed _ _ hdrop => exact absurd (hending.notDropped.symm.trans hdrop) (by simp)
  | take k e s₁ _ hpending' ht =>
    obtain rfl := hone k hpending'
    exact absurd hd ht.not_disconnected
  | close k _ _ hnone => exact absurd ((hnone _).symm.trans hother) (by simp)
  | closeFlush k b' _ hpending' hother' =>
    obtain rfl := hone k hpending'
    obtain rfl : b' = m := Option.some.inj (hother'.symm.trans hother)
    refine ⟨⟨hnext, ?_, ?_, ?_, ?_, ?_⟩, ?_⟩
    · cases k <;> exact hres
    · cases k <;> rfl
    · refine waiting_none fun j => ?_
      cases k <;> cases j <;> first | rfl | exact hpending
    · cases k <;> rfl
    · cases k <;> rfl
    · cases k <;> rfl

/-- With nothing to receive and nothing waiting, the merger returns. -/
theorem Ready.finishes (h : Ready s t none [] []) : ∃ ps : List MergeInput,
    (exec step s (ps.map .poll)).result = some (.ok ()) ∧
      (exec step s (ps.map .poll)).output = s.output := by
  induction hwork : s.work using Nat.strong_induction_on generalizing s with
  | _ n ih =>
  obtain ⟨hending, hres, rfl, hwaits, hq1, hq2⟩ := h
  have haligned := hending.aligned
  obtain ⟨hnext, hless⟩ := hending.poll .one hres
  have hpoll := poll_cases .one hres haligned.buffer haligned.onePending
  have hnone : ∀ k, (s.side k).pendingBarrier = none
    | .one => one_not_waiting.mpr (hwaits ▸ nofun)
    | .two => (two_not_waiting haligned).mpr (hwaits ▸ nofun)
  have hgo : (s.poll .one).result = none → trackerOf (s.poll .one) = trackerOf s →
      (s.poll .one).input1 = s.input1 → (s.poll .one).input2 = s.input2 →
      (∀ k, ((s.poll .one).side k).pendingBarrier = none) →
      (s.poll .one).output = s.output → ∃ ps : List MergeInput,
        (exec step s (ps.map .poll)).result = some (.ok ()) ∧
          (exec step s (ps.map .poll)).output = s.output := by
    intro hres' htracker hin1 hin2 hpend hout
    have hwork' : (s.poll .one).work < n := by
      rcases hless with hlt | hdone
      · exact hwork ▸ hlt
      · rw [hdone] at hres'
        cases hres'
    obtain ⟨ps, hdone, hsame⟩ := ih _ hwork' ⟨hnext, hres', htracker, waiting_none hpend,
      hin1 ▸ hq1, hin2 ▸ hq2⟩ rfl
    exact ⟨.one :: ps, hdone, hsame.trans hout⟩
  generalize hs' : s.poll .one = s' at hpoll hgo
  cases hpoll with
  | wait k hw =>
    cases k
    · exact absurd (hending.closed1.symm.trans hw.2) (by simp)
    · exact absurd (hending.closed2.symm.trans hw.2) (by simp)
  | finish hclosed =>
    refine ⟨[.one], ?_, ?_⟩
    · exact (congrArg result hs').trans rfl
    · exact (congrArg output hs').trans rfl
  | failed _ _ hdrop => exact absurd (hending.notDropped.symm.trans hdrop) (by simp)
  | take k e s₁ _ _ ht =>
    cases ht with
    | one e c hrecv => exact absurd ((Channel.tryRecv_item hrecv).1.symm.trans hq1) nofun
    | two e c hrecv => exact absurd ((Channel.tryRecv_item hrecv).1.symm.trans hq2) nofun
  | close k =>
    refine hgo ?_ (s.setClosed_frame k).1 ?_ ?_ (fun j => ?_) (s.setClosed_frame k).2.1
    · cases k <;> exact hres
    · cases k <;> rfl
    · cases k <;> rfl
    · cases k <;> cases j <;> first | exact hnone .one | exact hnone .two
  | closeFlush k b' _ _ hother => exact absurd ((hnone _).symm.trans hother) (by simp)

/-- **Every aligned merge can be sent**: the rounds prefer the input that is read next. -/
theorem Ready.follows (ha : Aligns (streamRules In1 In2) t p as bs ms) (h : Ready s t p as bs) :
    ∃ ps : List MergeInput, (exec step s (ps.map .poll)).result = some (.ok ()) ∧
      (exec step s (ps.map .poll)).output = s.output ++ ms := by
  have hall : ∀ s, Ready s t p as bs → ∃ ps : List MergeInput,
      (exec step s (ps.map .poll)).result = some (.ok ()) ∧
        (exec step s (ps.map .poll)).output = s.output ++ ms := by
    refine Aligns.by_reads (P := fun t p as bs ms => ∀ s : TwoInputMerge In1 In2,
      Ready s t p as bs → ∃ ps : List MergeInput,
        (exec step s (ps.map .poll)).result = some (.ok ()) ∧
          (exec step s (ps.map .poll)).output = s.output ++ ms) (fun t => ?_) (fun t p a as bs ms hp ih => ?_)
      (fun t p b as bs ms hp ih => ?_) (fun t m bs ms ih => ?_) (fun t m as ms ih => ?_) ha
    · intro s h
      obtain ⟨ps, hdone, hout⟩ := h.finishes
      exact ⟨ps, hdone, hout.trans (List.append_nil _).symm⟩
    · intro s h
      obtain ⟨hnext, hsent⟩ := h.read_one hp
      obtain ⟨ps, hdone, hout⟩ := ih _ hnext
      exact ⟨.one :: ps, hdone, hout.trans (by rw [hsent, List.append_assoc])⟩
    · intro s h
      obtain ⟨hnext, hsent⟩ := h.read_two hp
      obtain ⟨ps, hdone, hout⟩ := ih _ hnext
      exact ⟨.two :: ps, hdone, hout.trans (by rw [hsent, List.append_assoc])⟩
    · intro s h
      have hpending : (s.side .one).pendingBarrier = none :=
        one_not_waiting.mpr (h.waits ▸ nofun)
      have hother : (s.side .two).pendingBarrier = some m := by
        simpa [waiting_of_one hpending] using h.waits
      obtain ⟨hnext, hsent⟩ := h.flush (i := .one) hpending hother ⟨h.ending.closed1, h.queue1⟩
      obtain ⟨ps, hdone, hout⟩ := ih _ hnext
      exact ⟨.one :: ps, hdone, hout.trans (by rw [hsent, List.append_assoc]; rfl)⟩
    · intro s h
      have hpending := (two_not_waiting h.ending.aligned).mpr (h.waits ▸ nofun)
      have hother : (s.side .one).pendingBarrier = some m := by
        simpa [waiting_of_two hpending] using h.waits
      obtain ⟨hnext, hsent⟩ := h.flush (i := .two) hpending hother ⟨h.ending.closed2, h.queue2⟩
      obtain ⟨ps, hdone, hout⟩ := ih _ hnext
      exact ⟨.two :: ps, hdone, hout.trans (by rw [hsent, List.append_assoc]; rfl)⟩
  exact hall s h

end Ready

/-! ## Exactly the aligned merges -/

/-- What was sent is still to be received. -/
theorem exec_sends (a : List (StreamElement In1)) (b : List (StreamElement In2)) :
    run (a.map .send1 ++ b.map .send2 ++ [.close1, .close2]) =
      { init In1 In2 with
        input1 := { taken := [], queue := a, closed := true }
        input2 := { taken := [], queue := b, closed := true } } := by
  have hsend1 : ∀ (s : TwoInputMerge In1 In2) (es : List (StreamElement In1)),
      s.input1.closed = false → exec step s (es.map .send1) =
        { s with input1 := { s.input1 with queue := s.input1.queue ++ es } } := by
    intro s es hopen
    induction es generalizing s with
    | nil => rw [List.append_nil]; rfl
    | cons e es ih =>
      have hsent : s.input1.send e = { s.input1 with queue := s.input1.queue ++ [e] } :=
        if_neg (by simp [hopen])
      rw [List.map_cons, exec_cons, ih _ (by simp [step, hsent, hopen])]
      simp [step, hsent]
  have hsend2 : ∀ (s : TwoInputMerge In1 In2) (es : List (StreamElement In2)),
      s.input2.closed = false → exec step s (es.map .send2) =
        { s with input2 := { s.input2 with queue := s.input2.queue ++ es } } := by
    intro s es hopen
    induction es generalizing s with
    | nil => rw [List.append_nil]; rfl
    | cons e es ih =>
      have hsent : s.input2.send e = { s.input2 with queue := s.input2.queue ++ [e] } :=
        if_neg (by simp [hopen])
      rw [List.map_cons, exec_cons, ih _ (by simp [step, hsent, hopen])]
      simp [step, hsent]
  unfold run
  rw [exec_append, exec_append, hsend1 _ a rfl, hsend2 _ b rfl]
  rfl

theorem ready_sends (a : List (StreamElement In1)) (b : List (StreamElement In2)) :
    Ready (run (a.map .send1 ++ b.map .send2 ++ [.close1, .close2])) (.new 2) none a b := by
  have haligned := (aligned_run (a.map .send1 ++ b.map .send2 ++ [.close1, .close2])).resolve_left
  rw [exec_sends] at haligned ⊢
  refine ⟨⟨haligned fun hf => ?_, rfl, rfl, rfl⟩, rfl, rfl, rfl, rfl, rfl⟩
  cases hf.1

theorem sent_polls (s : TwoInputMerge In1 In2) (ps : List MergeInput) :
    (exec step s (ps.map .poll)).input1.sent = s.input1.sent ∧
      (exec step s (ps.map .poll)).input2.sent = s.input2.sent := by
  induction ps generalizing s with
  | nil => exact ⟨rfl, rfl⟩
  | cons p ps ih =>
    obtain ⟨h1, h2⟩ := ih (s.poll p)
    obtain ⟨k1, k2⟩ := s.sent_poll p
    exact ⟨h1.trans k1, h2.trans k2⟩

end TwoInputMerge

theorem Merges.aligns {a : List (StreamElement In1)} {b : List (StreamElement In2)}
    {m : List (StreamElement (Either In1 In2))} (h : Merges a b m) :
    Aligns (streamRules In1 In2) (.new 2) none a b m := by
  obtain ⟨es, rfl, rfl, hres, rfl⟩ := h
  have haligned : TwoInputMerge.Aligned (TwoInputMerge.run es) :=
    (TwoInputMerge.aligned_run es).resolve_left fun hf => by cases hres.symm.trans hf.1
  have hclosed := (haligned.returned _ hres).2
  have hdone : (TwoInputMerge.run es).AlignsFrom [] [] [] := by
    unfold TwoInputMerge.AlignsFrom
    rw [TwoInputMerge.waiting_none fun i => (haligned.closed i (hclosed i)).2.1]
    exact .done _
  have hall := TwoInputMerge.aligns_run es haligned hdone ⟨fun _ => rfl, fun _ => rfl⟩
  simp only [List.append_nil] at hall
  rwa [Channel.sent_of_disconnected (haligned.closed .one (hclosed .one)).1,
    Channel.sent_of_disconnected (haligned.closed .two (hclosed .two)).1]

theorem merges_of_aligns {a : List (StreamElement In1)} {b : List (StreamElement In2)}
    {m : List (StreamElement (Either In1 In2))}
    (h : Aligns (streamRules In1 In2) (.new 2) none a b m) : Merges a b m := by
  obtain ⟨ps, hdone, hout⟩ := (TwoInputMerge.ready_sends a b).follows h
  obtain ⟨h1, h2⟩ := TwoInputMerge.sent_polls
    (TwoInputMerge.run (a.map .send1 ++ b.map .send2 ++ [.close1, .close2])) ps
  refine ⟨a.map .send1 ++ b.map .send2 ++ [.close1, .close2] ++ ps.map .poll, ?_⟩
  have hrun : TwoInputMerge.run (a.map .send1 ++ b.map .send2 ++ [.close1, .close2] ++
      ps.map .poll) = exec TwoInputMerge.step (TwoInputMerge.run
        (a.map .send1 ++ b.map .send2 ++ [.close1, .close2])) (ps.map .poll) := exec_append _ _
  rw [hrun]
  rw [TwoInputMerge.exec_sends] at hdone hout h1 h2 ⊢
  exact ⟨h1, h2, hdone, hout⟩

/-- **The merger sends exactly the aligned merges of its inputs**, over all orders in which elements
arrive and inputs are read. -/
theorem merges_iff (a : List (StreamElement In1)) (b : List (StreamElement In2))
    (m : List (StreamElement (Either In1 In2))) :
    Merges a b m ↔ Aligns (streamRules In1 In2) (.new 2) none a b m :=
  ⟨Merges.aligns, merges_of_aligns⟩

/-- **A merge is cut at a barrier.** -/
theorem Merges.upTo {a : List (StreamElement In1)} {b : List (StreamElement In2)}
    {m : List (StreamElement (Either In1 In2))} (h : Merges a b m) {n : ℕ}
    (ha : n ≤ (Segments.marks barrier? a).length) (hb : n ≤ (Segments.marks barrier? b).length) :
    Merges (Segments.upTo barrier? n a) (Segments.upTo barrier? n b) (Segments.upTo barrier? n m) :=
  merges_of_aligns (h.aligns.upTo ha hb)

/-- **What a merger has sent is part of a merge**, whatever is still to come on inputs that have not
been closed. -/
theorem TwoInputMerge.output_within {es : List (MergeEvent In1 In2)} (h : Aligned (run es))
    {as : List (StreamElement In1)} {bs : List (StreamElement In2)} (he : (run es).Ended as bs) :
    ∃ m, Merges ((run es).input1.taken ++ as) ((run es).input2.taken ++ bs) m ∧
      (run es).output <+: m ∧ ((run es).result = some (.ok ()) → (run es).output = m) := by
  by_cases hres : (run es).result = some (.ok ())
  · -- the merger has returned, and nothing is to come
    have hclosed := (h.returned _ hres).2
    obtain rfl : as = [] := he.1 (hclosed .one)
    obtain rfl : bs = [] := he.2 (hclosed .two)
    refine ⟨_, ⟨es, ?_, ?_, hres, rfl⟩, List.prefix_rfl, fun _ => rfl⟩
    · rw [List.append_nil]
      exact Channel.sent_of_disconnected (h.closed .one (hclosed .one)).1
    · rw [List.append_nil]
      exact Channel.sent_of_disconnected (h.closed .two (hclosed .two)).1
  · obtain ⟨ms, hms⟩ := exists_aligns (streamRules In1 In2) (trackerOf (run es)) (run es).waiting as bs
    exact ⟨_, merges_of_aligns (aligns_run es h hms he), List.prefix_append _ _,
      fun hr => absurd hr hres⟩

theorem Merges.length_le {a : List (StreamElement In1)} {b : List (StreamElement In2)}
    {m : List (StreamElement (Either In1 In2))} (h : Merges a b m) :
    m.length ≤ a.length + b.length := by
  have hpass : ∀ {T : Type} (tag : T → Either In1 In2) (i : Fin 2) (t : WatermarkTracker 2)
      (e : StreamElement T), (passOn tag i t e).1.length ≤ 1 := by
    intro T tag i t e
    cases e with
    | record r => exact le_rfl
    | watermark w =>
      show ((t.update i w).1.toList.map _).length ≤ 1
      rw [List.length_map]
      exact Option.length_toList_le
    | checkpointBarrier b => exact Nat.zero_le _
  exact h.aligns.length_le (fun t e => hpass .left 0 t e) fun t e => hpass .right 1 t e

theorem Merges.barriers {a : List (StreamElement In1)} {b : List (StreamElement In2)}
    {m : List (StreamElement (Either In1 In2))} (h : Merges a b m) :
    (Segments.marks barrier? m).length =
      max (Segments.marks barrier? a).length (Segments.marks barrier? b).length :=
  h.aligns.marks

end Flume
