import Flume.Core.Record
import Flume.Lib.Channel
import Flume.Lib.Fallible
import Flume.Lib.Runs

/-!
# The two-input merger

`two_input_merge` reads two channels, tags their records with `Either`, forwards the minimum of
their watermarks and aligns their checkpoint barriers.

* `MergeSide`, `TwoInputMerge`: the local variables, one side for each input;
* `handleElement`, `tryFlushBarriers`, `flushBuffer`, `loopBody`: the functions of the source;
* `MergeEvent`, `TwoInputMerge.step`: senders, the reader of the output and the merger, which runs
  one round of its loop at a time;
* **`TwoInputMerge.poll_cases`**: everything one round can do when the buffers are empty.
-/

namespace Flume

open Channels

variable {In1 In2 : Type}

/-- One of the two inputs. -/
inductive MergeInput
  | one
  | two
  deriving DecidableEq

/-- The other input. -/
def MergeInput.other : MergeInput → MergeInput
  | one => two
  | two => one

/-- Of a value for input `i` and one for the other input, the one for the first input. -/
def MergeInput.first {α : Type} : MergeInput → α → α → α
  | one, own, _ => own
  | two, _, others => others

/-- What the merger keeps for one input. -/
structure MergeSide (In1 In2 : Type) where
  watermark : EventTimestamp
  pendingBarrier : Option CheckpointBarrier
  buffer : List (StreamElement (Either In1 In2))
  inputOpen : Bool

/-- The merger: `output` is what it has sent, `result` what it has returned. -/
structure TwoInputMerge (In1 In2 : Type) where
  input1 : Channel (StreamElement In1)
  input2 : Channel (StreamElement In2)
  side1 : MergeSide In1 In2
  side2 : MergeSide In1 In2
  lastForwardedWatermark : EventTimestamp
  output : List (StreamElement (Either In1 In2))
  outputDropped : Bool
  result : Option (Except FlumeError Unit)

/-- A side before anything was read. -/
def MergeSide.new : MergeSide In1 In2 where
  watermark := EventTimestamp.MIN
  pendingBarrier := none
  buffer := []
  inputOpen := true

namespace TwoInputMerge

/-- A merger over two fresh channels. -/
def init (In1 In2 : Type) : TwoInputMerge In1 In2 where
  input1 := {}
  input2 := {}
  side1 := .new
  side2 := .new
  lastForwardedWatermark := EventTimestamp.MIN
  output := []
  outputDropped := false
  result := none

/-- What the merger keeps for input `i`. -/
def side (s : TwoInputMerge In1 In2) : MergeInput → MergeSide In1 In2
  | .one => s.side1
  | .two => s.side2

/-- Change what the merger keeps for input `i`. -/
def modifySide (s : TwoInputMerge In1 In2) (i : MergeInput)
    (f : MergeSide In1 In2 → MergeSide In1 In2) : TwoInputMerge In1 In2 :=
  match i with
  | .one => { s with side1 := f s.side1 }
  | .two => { s with side2 := f s.side2 }

/-- An `async fn` of the merger. -/
abbrev MergeM (In1 In2 : Type) : Type → Type := Fallible FlumeError (TwoInputMerge In1 In2)

/-- `send`: fails when the receiver of the output is gone. -/
def send (e : StreamElement (Either In1 In2)) : MergeM In1 In2 Unit := do
  let s ← get
  if s.outputDropped then throw .channelClosed
  else set { s with output := s.output ++ [e] }

/-- `flush_buffer`. -/
def flushBuffer (i : MergeInput) : MergeM In1 In2 Unit := do
  let s ← get
  set (s.modifySide i fun side => { side with buffer := [] })
  (s.side i).buffer.forM send

/-- `try_flush_barriers`. -/
def tryFlushBarriers : MergeM In1 In2 Unit := do
  let s ← get
  match s.side1.pendingBarrier, s.side2.pendingBarrier with
  | some b1, some _ => do
    set { s with
      side1 := { s.side1 with pendingBarrier := none }
      side2 := { s.side2 with pendingBarrier := none } }
    send (.checkpointBarrier b1)
    flushBuffer .one
    flushBuffer .two
  | _, _ => pure ()

/-- The common body of `handle_element1` and `handle_element2`. -/
def handleElement {In : Type} (i : MergeInput) (tag : In → Either In1 In2) :
    StreamElement In → MergeM In1 In2 Unit
  | .record record => do
    let tagged := .record
      { value := tag record.value, timestamp := record.timestamp, key := record.key }
    let s ← get
    if (s.side i).pendingBarrier.isSome then
      set (s.modifySide i fun side => { side with buffer := side.buffer ++ [tagged] })
    else send tagged
  | .watermark wm => do
    modify fun s => s.modifySide i fun side => { side with watermark := wm.timestamp }
    let s ← get
    let minWm := min s.side1.watermark s.side2.watermark
    if minWm > s.lastForwardedWatermark then
      set { s with lastForwardedWatermark := minWm }
      send (.watermark ⟨minWm⟩)
    else pure ()
  | .checkpointBarrier barrier =>
    modify fun s => s.modifySide i fun side => { side with pendingBarrier := some barrier }

/-- `handle_element1`. -/
def handleElement1 : StreamElement In1 → MergeM In1 In2 Unit := handleElement .one .left

/-- `handle_element2`. -/
def handleElement2 : StreamElement In2 → MergeM In1 In2 Unit := handleElement .two .right

/-- `match input1.recv().await`; `none` while the call has to wait. -/
def recv1 (s : TwoInputMerge In1 In2) (onElement : StreamElement In1 → MergeM In1 In2 Unit)
    (onNone : MergeM In1 In2 Unit) : Option (Except FlumeError Unit × TwoInputMerge In1 In2) :=
  match s.input1.tryRecv with
  | .item e c => some ((onElement e).runOn { s with input1 := c })
  | .empty => none
  | .disconnected => some (onNone.runOn s)

/-- `match input2.recv().await`. -/
def recv2 (s : TwoInputMerge In1 In2) (onElement : StreamElement In2 → MergeM In1 In2 Unit)
    (onNone : MergeM In1 In2 Unit) : Option (Except FlumeError Unit × TwoInputMerge In1 In2) :=
  match s.input2.tryRecv with
  | .item e c => some ((onElement e).runOn { s with input2 := c })
  | .empty => none
  | .disconnected => some (onNone.runOn s)

/-- `input_open = false`. -/
def closeInput (i : MergeInput) : MergeM In1 In2 Unit :=
  modify fun s => s.modifySide i fun side => { side with inputOpen := false }

/-- Input `i` closed while the other one may be waiting for its barrier: flush what the other one
has. -/
def closeAndFlush (i : MergeInput) : MergeM In1 In2 Unit := do
  closeInput i
  let s ← get
  match (s.side i.other).pendingBarrier with
  | some barrier => do
    set (s.modifySide i.other fun side => { side with pendingBarrier := none })
    send (.checkpointBarrier barrier)
    flushBuffer i.other
  | none => pure ()

/-- One round of the loop below its first test; `preferred` is the branch that `select!` tries
first, `none` says that the round has to wait. -/
def loopBody (preferred : MergeInput) (s : TwoInputMerge In1 In2) :
    Option (Except FlumeError Unit × TwoInputMerge In1 In2) :=
  if s.side1.pendingBarrier.isSome && s.side2.pendingBarrier.isNone then
    s.recv2 (fun e => do handleElement2 e; tryFlushBarriers) (closeAndFlush .two)
  else if s.side2.pendingBarrier.isSome && s.side1.pendingBarrier.isNone then
    s.recv1 (fun e => do handleElement1 e; tryFlushBarriers) (closeAndFlush .one)
  else
    let from1 := s.recv1 handleElement1 (closeInput .one)
    let from2 := s.recv2 handleElement2 (closeInput .two)
    match s.side1.inputOpen, s.side2.inputOpen with
    | true, true => match preferred with
      | .one => from1.or from2
      | .two => from2.or from1
    | true, false => from1
    | false, true => from2
    | false, false => some (.ok (), { s with result := some (.ok ()) })

/-- The state after a round; an error ends the merger. -/
def afterRound (s : TwoInputMerge In1 In2) :
    Option (Except FlumeError Unit × TwoInputMerge In1 In2) → TwoInputMerge In1 In2
  | none => s
  | some (.ok (), s') => s'
  | some (.error e, s') => { s' with result := some (.error e) }

/-- One round of the loop. -/
def poll (s : TwoInputMerge In1 In2) (preferred : MergeInput) : TwoInputMerge In1 In2 :=
  if s.result.isSome then s
  else if !s.side1.inputOpen && !s.side2.inputOpen then { s with result := some (.ok ()) }
  else s.afterRound (s.loopBody preferred)

end TwoInputMerge

/-- A sender sends or goes away, the merger runs a round, or the reader of the output goes away. -/
inductive MergeEvent (In1 In2 : Type)
  | send1 (e : StreamElement In1)
  | send2 (e : StreamElement In2)
  | close1
  | close2
  | poll (preferred : MergeInput)
  | dropOutput

namespace TwoInputMerge

/-- The system of senders, merger and reader. -/
def step (s : TwoInputMerge In1 In2) : MergeEvent In1 In2 → TwoInputMerge In1 In2
  | .send1 e => { s with input1 := s.input1.send e }
  | .send2 e => { s with input2 := s.input2.send e }
  | .close1 => { s with input1 := s.input1.close }
  | .close2 => { s with input2 := s.input2.close }
  | .poll preferred => s.poll preferred
  | .dropOutput => { s with outputDropped := true }

/-- The state after a run. -/
def run (es : List (MergeEvent In1 In2)) : TwoInputMerge In1 In2 :=
  Runs.exec step (init In1 In2) es

/-- Everything received from input `i`, tagged. -/
def taken (s : TwoInputMerge In1 In2) : MergeInput → List (StreamElement (Either In1 In2))
  | .one => s.input1.taken.map (StreamElement.map .left)
  | .two => s.input2.taken.map (StreamElement.map .right)

/-- Input `i` is closed and drained. -/
def Disconnected (s : TwoInputMerge In1 In2) : MergeInput → Prop
  | .one => s.input1.Disconnected
  | .two => s.input2.Disconnected

/-- Input `i` waits for more elements. -/
def Waiting (s : TwoInputMerge In1 In2) : MergeInput → Prop
  | .one => s.input1.queue = [] ∧ s.input1.closed = false
  | .two => s.input2.queue = [] ∧ s.input2.closed = false

/-! ## What a round does -/

/-- Receiving an element, tagged, from input `i`. -/
inductive Takes (s : TwoInputMerge In1 In2) :
    MergeInput → StreamElement (Either In1 In2) → TwoInputMerge In1 In2 → Prop
  | one (e : StreamElement In1) (c : Channel (StreamElement In1))
      (h : s.input1.tryRecv = .item e c) : Takes s .one (e.map .left) { s with input1 := c }
  | two (e : StreamElement In2) (c : Channel (StreamElement In2))
      (h : s.input2.tryRecv = .item e c) : Takes s .two (e.map .right) { s with input2 := c }

/-- Input `i` has reached the watermark `t`. -/
def advance (s : TwoInputMerge In1 In2) (i : MergeInput) (t : EventTimestamp) :
    TwoInputMerge In1 In2 :=
  let s := s.modifySide i fun side => { side with watermark := t }
  let minWm := min s.side1.watermark s.side2.watermark
  if minWm > s.lastForwardedWatermark then
    { s with lastForwardedWatermark := minWm, output := s.output ++ [.watermark ⟨minWm⟩] }
  else s

/-- Input `i` has delivered barrier `b`, or its barrier has been forwarded. -/
def setPending (s : TwoInputMerge In1 In2) (i : MergeInput) (b : Option CheckpointBarrier) :
    TwoInputMerge In1 In2 :=
  s.modifySide i fun side => { side with pendingBarrier := b }

/-- Input `i` has ended. -/
def setClosed (s : TwoInputMerge In1 In2) (i : MergeInput) : TwoInputMerge In1 In2 :=
  s.modifySide i fun side => { side with inputOpen := false }

/-- `e` has been sent. -/
def emit (s : TwoInputMerge In1 In2) (e : StreamElement (Either In1 In2)) :
    TwoInputMerge In1 In2 :=
  { s with output := s.output ++ [e] }

/-- Handling a tagged element of input `i`, which has no barrier pending. -/
inductive Handles (s : TwoInputMerge In1 In2) (i : MergeInput) :
    StreamElement (Either In1 In2) → TwoInputMerge In1 In2 → Prop
  | record (r : Record (Either In1 In2)) : Handles s i (.record r) (s.emit (.record r))
  | watermark (w : Watermark) : Handles s i (.watermark w) (s.advance i w.timestamp)
  | barrier (b : CheckpointBarrier) (hother : (s.side i.other).pendingBarrier = none) :
      Handles s i (.checkpointBarrier b) (s.setPending i (some b))
  | matched (b b' : CheckpointBarrier) (hother : (s.side i.other).pendingBarrier = some b') :
      Handles s i (.checkpointBarrier b) (((s.setPending .one none).setPending .two none).emit
        (.checkpointBarrier (i.first b b')))

/-- The rounds of a merger that has not returned. -/
inductive Polls (s : TwoInputMerge In1 In2) : TwoInputMerge In1 In2 → Prop
  | wait (i : MergeInput) (h : s.Waiting i) : Polls s s
  | finish (h : ∀ i, (s.side i).inputOpen = false) : Polls s { s with result := some (.ok ()) }
  | failed (s' : TwoInputMerge In1 In2) (h : s'.result = some (.error .channelClosed))
      (hdrop : s.outputDropped = true) (hdrop' : s'.outputDropped = true) : Polls s s'
  | take (i : MergeInput) (e : StreamElement (Either In1 In2)) (s₁ s' : TwoInputMerge In1 In2)
      (hpending : (s.side i).pendingBarrier = none) (ht : Takes s i e s₁) (hh : Handles s₁ i e s') :
      Polls s s'
  | close (i : MergeInput) (hopen : (s.side i).inputOpen = true) (hd : s.Disconnected i)
      (hother : ∀ k, (s.side k).pendingBarrier = none) : Polls s (s.setClosed i)
  | closeFlush (i : MergeInput) (b : CheckpointBarrier) (hd : s.Disconnected i)
      (hpending : (s.side i).pendingBarrier = none)
      (hother : (s.side i.other).pendingBarrier = some b) :
      Polls s (((s.setClosed i).setPending i.other none).emit (.checkpointBarrier b))

/-! ## The functions of the merger, run -/

section

variable (s : TwoInputMerge In1 In2) (i : MergeInput) (f : MergeSide In1 In2 → MergeSide In1 In2)

@[simp] theorem side_modifySide_self : (s.modifySide i f).side i = f (s.side i) := by
  cases i <;> rfl

@[simp] theorem side_modifySide_other : (s.modifySide i f).side i.other = s.side i.other := by
  cases i <;> rfl

@[simp] theorem output_modifySide : (s.modifySide i f).output = s.output := by cases i <;> rfl

@[simp] theorem outputDropped_modifySide : (s.modifySide i f).outputDropped = s.outputDropped := by
  cases i <;> rfl

@[simp] theorem result_modifySide : (s.modifySide i f).result = s.result := by cases i <;> rfl

theorem modifySide_eq_self (h : f (s.side i) = s.side i) : s.modifySide i f = s := by
  cases i <;> simp only [side] at h <;> simp [modifySide, h]

end

/-- An operation has reached a state with `P`, or the output was gone. -/
def Outcome (dropped : Bool) (P : TwoInputMerge In1 In2 → Prop)
    (r : Except FlumeError Unit × TwoInputMerge In1 In2) : Prop :=
  (∃ s', r = (.ok (), s') ∧ P s') ∨
    dropped = true ∧ ∃ s', r = (.error .channelClosed, s') ∧ s'.outputDropped = true

section

variable {s : TwoInputMerge In1 In2} {i : MergeInput}

theorem Outcome.bind {d : Bool} {P Q : TwoInputMerge In1 In2 → Prop} {x : MergeM In1 In2 Unit}
    {f : Unit → MergeM In1 In2 Unit} (h : Outcome d P (x.runOn s))
    (hf : ∀ s', P s' → Outcome d Q ((f ()).runOn s')) : Outcome d Q (Fallible.runOn (x >>= f) s) := by
  rcases h with ⟨s', h, hp⟩ | ⟨hd, s', h, hd'⟩
  · rw [Fallible.runOn_bind_ok h]; exact hf s' hp
  · rw [Fallible.runOn_bind_error h]; exact .inr ⟨hd, s', rfl, hd'⟩

theorem send_outcome (s : TwoInputMerge In1 In2) (e : StreamElement (Either In1 In2)) :
    Outcome s.outputDropped (· = s.emit e) ((send e).runOn s) := by
  unfold send
  rw [Fallible.runOn_bind_ok Fallible.runOn_get, Fallible.runOn_ite]
  split_ifs with h
  · exact .inr ⟨h, s, rfl, h⟩
  · exact .inl ⟨_, rfl, rfl⟩

theorem flushBuffer_runOn (h : (s.side i).buffer = []) :
    Fallible.runOn (flushBuffer i) s = (.ok (), s) := by
  have hset : (s.modifySide i fun side => { side with buffer := [] }) = s :=
    modifySide_eq_self s i _ (by rw [← h])
  unfold flushBuffer
  rw [Fallible.runOn_bind_ok Fallible.runOn_get, Fallible.runOn_bind_ok Fallible.runOn_set, hset, h]
  rfl

theorem tryFlushBarriers_runOn (h : (s.side i).pendingBarrier = none) :
    Fallible.runOn tryFlushBarriers s = (.ok (), s) := by
  unfold tryFlushBarriers
  rw [Fallible.runOn_bind_ok Fallible.runOn_get]
  cases i with
  | one => change s.side1.pendingBarrier = none at h; rw [h]; rfl
  | two =>
    change s.side2.pendingBarrier = none at h
    rw [h]
    cases s.side1.pendingBarrier <;> rfl

theorem tryFlushBarriers_outcome {b1 b2 : CheckpointBarrier}
    (h1 : s.side1.pendingBarrier = some b1) (h2 : s.side2.pendingBarrier = some b2)
    (hbuf : ∀ i, (s.side i).buffer = []) :
    Outcome s.outputDropped
      (· = ((s.setPending .one none).setPending .two none).emit (.checkpointBarrier b1))
      (Fallible.runOn tryFlushBarriers s) := by
  unfold tryFlushBarriers
  rw [Fallible.runOn_bind_ok Fallible.runOn_get]
  simp only [h1, h2]
  rw [Fallible.runOn_bind_ok Fallible.runOn_set]
  refine (send_outcome _ _).bind fun s' hs' => ?_
  have hb : ∀ i, (s'.side i).buffer = [] := by
    subst hs'
    exact fun i => match i with
      | .one => hbuf .one
      | .two => hbuf .two
  rw [Fallible.runOn_bind_ok (flushBuffer_runOn (hb .one))]
  exact .inl ⟨s', flushBuffer_runOn (hb .two), hs'⟩

/-- Handling an element that is no barrier. -/
theorem handleElement_outcome {In : Type} (tag : In → Either In1 In2) {e : StreamElement In}
    (hpending : (s.side i).pendingBarrier = none) (he : e.barrier? = none) :
    Outcome s.outputDropped
      (fun s' => Handles s i (e.map tag) s' ∧ (s'.side i).pendingBarrier = none)
      (Fallible.runOn (handleElement i tag e) s) := by
  cases e with
  | record r =>
    unfold handleElement
    rw [Fallible.runOn_bind_ok Fallible.runOn_get, Fallible.runOn_ite,
      if_neg (by simp [hpending])]
    rcases send_outcome s (.record (r.map tag)) with ⟨s', h, rfl⟩ | herr
    · exact .inl ⟨_, h, .record _, by cases i <;> exact hpending⟩
    · exact .inr herr
  | watermark w =>
    unfold handleElement
    rw [Fallible.runOn_bind_ok (Fallible.runOn_modify _), Fallible.runOn_bind_ok Fallible.runOn_get]
    have hh : Handles s i (.watermark w) (s.advance i w.timestamp) := .watermark w
    have hp : ((s.advance i w.timestamp).side i).pendingBarrier = none := by
      simp only [advance]
      split_ifs <;> cases i <;> exact hpending
    change Outcome _ (fun s' => Handles s i (.watermark w) s' ∧ _) _
    simp only [advance] at hh hp
    split_ifs at hh hp with hmin
    · rw [if_pos hmin, Fallible.runOn_bind_ok Fallible.runOn_set]
      rcases send_outcome _ _ with ⟨s', h, rfl⟩ | herr
      · exact .inl ⟨_, h, hh, hp⟩
      · exact .inr (by simpa using herr)
    · rw [if_neg hmin]
      exact .inl ⟨_, rfl, hh, hp⟩
  | checkpointBarrier b => simp at he

theorem handleElement_handles {In : Type} {tag : In → Either In1 In2} (e : StreamElement In)
    (hpending : (s.side i).pendingBarrier = none)
    (hother : (s.side i.other).pendingBarrier = none) :
    Outcome s.outputDropped (Handles s i (e.map tag)) (Fallible.runOn (handleElement i tag e) s) := by
  cases he : e.barrier? with
  | none =>
    rcases handleElement_outcome tag hpending he with ⟨s', h, hh, -⟩ | herr
    · exact .inl ⟨s', h, hh⟩
    · exact .inr herr
  | some b =>
    obtain rfl := StreamElement.barrier?_eq_some.mp he
    exact .inl ⟨_, rfl, .barrier b hother⟩

/-- Handling an element while the other input waits for this one's barrier. -/
theorem handleAndFlush_handles {In : Type} {tag : In → Either In1 In2} (e : StreamElement In)
    {b' : CheckpointBarrier} (hbuf : ∀ i, (s.side i).buffer = [])
    (hpending : (s.side i).pendingBarrier = none)
    (hother : (s.side i.other).pendingBarrier = some b') :
    Outcome s.outputDropped (Handles s i (e.map tag))
      (Fallible.runOn (do handleElement i tag e; tryFlushBarriers) s) := by
  cases he : e.barrier? with
  | none =>
    refine (handleElement_outcome tag hpending he).bind fun s' hs' => ?_
    exact .inl ⟨s', tryFlushBarriers_runOn hs'.2, hs'.1⟩
  | some b =>
    obtain rfl := StreamElement.barrier?_eq_some.mp he
    have hmatched := Handles.matched (s := s) (i := i) b b' hother
    have hset : Fallible.runOn (handleElement i tag (.checkpointBarrier b)) s =
        (.ok (), s.setPending i (some b)) := rfl
    rw [Fallible.runOn_bind_ok hset]
    cases i with
    | one =>
      rcases tryFlushBarriers_outcome (s := s.setPending .one (some b)) rfl hother
        (fun | .one => hbuf .one | .two => hbuf .two) with ⟨s', h, rfl⟩ | herr
      · exact .inl ⟨_, h, hmatched⟩
      · exact .inr herr
    | two =>
      rcases tryFlushBarriers_outcome (s := s.setPending .two (some b)) hother rfl
        (fun | .one => hbuf .one | .two => hbuf .two) with ⟨s', h, rfl⟩ | herr
      · exact .inl ⟨_, h, hmatched⟩
      · exact .inr herr

theorem closeAndFlush_outcome {b : CheckpointBarrier} (hbuf : ∀ i, (s.side i).buffer = [])
    (hother : (s.side i.other).pendingBarrier = some b) :
    Outcome s.outputDropped
      (· = ((s.setClosed i).setPending i.other none).emit (.checkpointBarrier b))
      (Fallible.runOn (closeAndFlush i) s) := by
  have hother' : ((s.setClosed i).side i.other).pendingBarrier = some b := by
    unfold setClosed; rw [side_modifySide_other]; exact hother
  unfold closeAndFlush closeInput
  rw [Fallible.runOn_bind_ok (Fallible.runOn_modify _), Fallible.runOn_bind_ok Fallible.runOn_get]
  change Outcome _ _ (Fallible.runOn (match ((s.setClosed i).side i.other).pendingBarrier with
    | some barrier => _
    | none => _) _)
  simp only [hother']
  rw [Fallible.runOn_bind_ok Fallible.runOn_set]
  have hsend := send_outcome ((s.setClosed i).setPending i.other none) (.checkpointBarrier b)
  have hd : ((s.setClosed i).setPending i.other none).outputDropped = s.outputDropped := by
    simp [setClosed, setPending]
  rw [hd] at hsend
  refine hsend.bind fun s' hs' => ?_
  have hb : (s'.side i.other).buffer = [] := by
    subst hs'; cases i
    · exact hbuf .two
    · exact hbuf .one
  exact .inl ⟨s', flushBuffer_runOn hb, hs'⟩

/-- What a round that receives from input `i` comes to. -/
def RecvOutcome (s : TwoInputMerge In1 In2) (i : MergeInput)
    (r : Option (Except FlumeError Unit × TwoInputMerge In1 In2)) : Prop :=
  r = none ∧ s.Waiting i ∨ ∃ r', r = some r' ∧ Outcome s.outputDropped (Polls s) r'

theorem recv1_outcome {onElement : StreamElement In1 → MergeM In1 In2 Unit}
    {onNone : MergeM In1 In2 Unit} (hpending : s.side1.pendingBarrier = none)
    (helem : ∀ e c, Outcome s.outputDropped (Handles { s with input1 := c } .one (e.map .left))
      (Fallible.runOn (onElement e) { s with input1 := c }))
    (hnone : s.input1.Disconnected → Outcome s.outputDropped (Polls s) (Fallible.runOn onNone s)) :
    RecvOutcome s .one (s.recv1 onElement onNone) := by
  unfold recv1
  split
  · rename_i e c h
    refine .inr ⟨_, rfl, ?_⟩
    rcases helem e c with ⟨s', hrun, hh⟩ | herr
    · exact .inl ⟨s', hrun, .take .one _ _ s' hpending (.one e c h) hh⟩
    · exact .inr herr
  · rename_i h
    exact .inl ⟨rfl, Channel.tryRecv_empty h⟩
  · rename_i h
    exact .inr ⟨_, rfl, hnone (Channel.tryRecv_disconnected h)⟩

theorem recv2_outcome {onElement : StreamElement In2 → MergeM In1 In2 Unit}
    {onNone : MergeM In1 In2 Unit} (hpending : s.side2.pendingBarrier = none)
    (helem : ∀ e c, Outcome s.outputDropped (Handles { s with input2 := c } .two (e.map .right))
      (Fallible.runOn (onElement e) { s with input2 := c }))
    (hnone : s.input2.Disconnected → Outcome s.outputDropped (Polls s) (Fallible.runOn onNone s)) :
    RecvOutcome s .two (s.recv2 onElement onNone) := by
  unfold recv2
  split
  · rename_i e c h
    refine .inr ⟨_, rfl, ?_⟩
    rcases helem e c with ⟨s', hrun, hh⟩ | herr
    · exact .inl ⟨s', hrun, .take .two _ _ s' hpending (.two e c h) hh⟩
    · exact .inr herr
  · rename_i h
    exact .inl ⟨rfl, Channel.tryRecv_empty h⟩
  · rename_i h
    exact .inr ⟨_, rfl, hnone (Channel.tryRecv_disconnected h)⟩

theorem RecvOutcome.polls {r : Option (Except FlumeError Unit × TwoInputMerge In1 In2)}
    (h : RecvOutcome s i r) : Polls s (s.afterRound r) := by
  rcases h with ⟨rfl, hw⟩ | ⟨r', rfl, ⟨s', rfl, hp⟩ | ⟨hd, s', rfl, hd'⟩⟩
  · exact .wait i hw
  · exact hp
  · exact .failed _ rfl hd hd'

theorem RecvOutcome.or {i k : MergeInput}
    {r r' : Option (Except FlumeError Unit × TwoInputMerge In1 In2)}
    (h : RecvOutcome s i r) (h' : RecvOutcome s k r') : RecvOutcome s k (r.or r') := by
  rcases h with ⟨rfl, -⟩ | ⟨r, rfl, ho⟩
  · exact h'
  · exact .inr ⟨r, rfl, ho⟩

/-- **Everything one round can do.** -/
theorem poll_cases (preferred : MergeInput) (hres : s.result = none)
    (hbuf : ∀ i, (s.side i).buffer = [])
    (hpend : s.side1.pendingBarrier = none ∨ s.side2.pendingBarrier = none) :
    Polls s (s.poll preferred) := by
  unfold poll
  rw [if_neg (by simp [hres])]
  split_ifs with hclosed
  · simp only [Bool.and_eq_true, Bool.not_eq_true'] at hclosed
    exact .finish fun | .one => hclosed.1 | .two => hclosed.2
  · unfold loopBody
    split_ifs with hw1 hw2
    · -- input 1 waits for the barrier of input 2
      simp only [Bool.and_eq_true, Option.isNone_iff_eq_none] at hw1
      obtain ⟨b, hb⟩ := Option.isSome_iff_exists.mp hw1.1
      refine RecvOutcome.polls (recv2_outcome hw1.2 (fun e c => ?_) fun hd => ?_)
      · exact handleAndFlush_handles (s := { s with input2 := c }) (i := .two) e
          (fun | .one => hbuf .one | .two => hbuf .two) hw1.2 hb
      · rcases closeAndFlush_outcome (i := .two) hbuf hb with ⟨s', h, rfl⟩ | herr
        · exact .inl ⟨_, h, .closeFlush .two b hd hw1.2 hb⟩
        · exact .inr herr
    · -- input 2 waits for the barrier of input 1
      simp only [Bool.and_eq_true, Option.isNone_iff_eq_none] at hw2
      obtain ⟨b, hb⟩ := Option.isSome_iff_exists.mp hw2.1
      refine RecvOutcome.polls (recv1_outcome hw2.2 (fun e c => ?_) fun hd => ?_)
      · exact handleAndFlush_handles (s := { s with input1 := c }) (i := .one) e
          (fun | .one => hbuf .one | .two => hbuf .two) hw2.2 hb
      · rcases closeAndFlush_outcome (i := .one) hbuf hb with ⟨s', h, rfl⟩ | herr
        · exact .inl ⟨_, h, .closeFlush .one b hd hw2.2 hb⟩
        · exact .inr herr
    · have hnone : s.side1.pendingBarrier = none ∧ s.side2.pendingBarrier = none := by
        rcases hpend with h | h <;>
          cases h1 : s.side1.pendingBarrier <;> cases h2 : s.side2.pendingBarrier <;> simp_all
      have hall : ∀ k, (s.side k).pendingBarrier = none
        | .one => hnone.1
        | .two => hnone.2
      have from1 : s.side1.inputOpen = true →
          RecvOutcome s .one (s.recv1 handleElement1 (closeInput .one)) := fun hopen =>
        recv1_outcome hnone.1
          (fun e c => handleElement_handles (s := { s with input1 := c }) (i := .one) e
            hnone.1 hnone.2)
          fun hd => .inl ⟨_, Fallible.runOn_modify _, .close .one hopen hd hall⟩
      have from2 : s.side2.inputOpen = true →
          RecvOutcome s .two (s.recv2 handleElement2 (closeInput .two)) := fun hopen =>
        recv2_outcome hnone.2
          (fun e c => handleElement_handles (s := { s with input2 := c }) (i := .two) e
            hnone.2 hnone.1)
          fun hd => .inl ⟨_, Fallible.runOn_modify _, .close .two hopen hd hall⟩
      cases h1 : s.side1.inputOpen <;> cases h2 : s.side2.inputOpen
      · simp [h1, h2] at hclosed
      · exact (from2 h2).polls
      · exact (from1 h1).polls
      · cases preferred
        · exact ((from1 h1).or (from2 h2)).polls
        · exact ((from2 h2).or (from1 h1)).polls

end

end TwoInputMerge

end Flume
