import Mathlib.Data.Fintype.Basic
import Mathlib.Logic.Function.Basic
import Flume.Core.Record
import Flume.Lib.Channel
import Flume.Lib.Runs

/-!
# The barrier aligner

`BarrierAligner` merges `n` input channels and aligns their checkpoint barriers: an input whose
barrier has arrived is blocked, its later elements are buffered until the barrier has arrived on
every input, and the buffers are drained afterwards.

* `BarrierAligner`, `drainLoop`, `onReceived`: the data and the two phases of `next`;
* `AlignerTask`: the aligner with the point its current `next` call has reached. Every `try_recv`
  is one step, so that senders may run between any two of them;
* `AlignerEvent`, `AlignerTask.step`: senders and the task take turns in any order;
* **`AlignerTask.poll_cases`**: everything one step of the task can do.
-/

namespace Flume

open Channels

variable {T : Type} {n : ℕ}

/-- An output of the aligner. -/
inductive AlignerOutput (T : Type)
  | element (e : StreamElement T)
  | barrierAligned (b : CheckpointBarrier)
  deriving DecidableEq

/-- The barrier of an output. -/
def AlignerOutput.barrier? : AlignerOutput T → Option CheckpointBarrier
  | element _ => none
  | barrierAligned b => some b

@[simp] theorem AlignerOutput.barrier?_element (e : StreamElement T) :
    (element e).barrier? = none := rfl
@[simp] theorem AlignerOutput.barrier?_barrierAligned (b : CheckpointBarrier) :
    (barrierAligned b : AlignerOutput T).barrier? = some b := rfl

/-- The aligner; a `Vec` with one entry for each input is a function on `Fin n`. -/
structure BarrierAligner (T : Type) (n : ℕ) where
  inputs : Fin n → Channel (StreamElement T)
  barrierReceived : Fin n → Bool
  blockedBuffers : Fin n → List (StreamElement T)
  pendingBarrier : Option CheckpointBarrier
  drainIndex : ℕ

namespace BarrierAligner

/-- A fresh aligner over the given inputs. -/
def new (inputs : Fin n → Channel (StreamElement T)) : BarrierAligner T n where
  inputs := inputs
  barrierReceived _ := false
  blockedBuffers _ := []
  pendingBarrier := none
  drainIndex := 0

/-- Phase 1 of `next`: the `while` loop over the buffers, run for at most `fuel` rounds. -/
def drainLoop : ℕ → BarrierAligner T n → Option (StreamElement T) × BarrierAligner T n
  | 0, a => (none, a)
  | fuel + 1, a =>
    if h : a.drainIndex < n then
      match a.blockedBuffers ⟨a.drainIndex, h⟩ with
      | e :: rest => (some e, { a with
          blockedBuffers := Function.update a.blockedBuffers ⟨a.drainIndex, h⟩ rest })
      | [] => drainLoop fuel { a with drainIndex := a.drainIndex + 1 }
    else (none, a)

/-- What `next_multi` does with an element received from input `idx`: `some` output is returned
to the caller, `none` continues its loop. -/
def onReceived (a : BarrierAligner T n) (idx : Fin n) :
    StreamElement T → Option (AlignerOutput T) × BarrierAligner T n
  | .checkpointBarrier barrier =>
    let received := Function.update a.barrierReceived idx true
    let pending := match a.pendingBarrier with
      | none => some barrier
      | some b => some b
    if ∀ i, received i = true then
      (pending.map .barrierAligned, { a with
        barrierReceived := fun _ => false, pendingBarrier := none, drainIndex := 0 })
    else (none, { a with barrierReceived := received, pendingBarrier := pending })
  | other =>
    if a.barrierReceived idx then
      (none, { a with blockedBuffers :=
        Function.update a.blockedBuffers idx (a.blockedBuffers idx ++ [other]) })
    else (some (.element other), a)

/-- `next_single`: with one input, barriers pass through. -/
def onReceivedSingle : StreamElement T → AlignerOutput T
  | .checkpointBarrier b => .barrierAligned b
  | other => .element other

end BarrierAligner

/-- Where the current call of `next` stands: between calls, waiting in `next_single`, or at input
`i` of one of the three passes of `recv_any`. -/
inductive AlignerPc
  | idle
  | single
  | firstPass (i : ℕ)
  | secondPass (i : ℕ)
  | thirdPass (i : ℕ) (anyOpen : Bool)
  deriving DecidableEq

/-- The aligner task: its caller has got `outputs` so far, and `none` once `finished`. -/
structure AlignerTask (T : Type) (n : ℕ) where
  aligner : BarrierAligner T n
  pc : AlignerPc
  outputs : List (AlignerOutput T)
  finished : Bool

namespace AlignerTask

/-- A task over `n` fresh channels. -/
def init (T : Type) (n : ℕ) : AlignerTask T n where
  aligner := BarrierAligner.new fun _ => {}
  pc := .idle
  outputs := []
  finished := false

/-- Replace input `i`. -/
def setInput (s : AlignerTask T n) (i : Fin n) (c : Channel (StreamElement T)) : AlignerTask T n :=
  { s with aligner := { s.aligner with inputs := Function.update s.aligner.inputs i c } }

/-- `recv_any` has returned `e` from input `i`: `next_multi` returns an output or calls
`recv_any` again. -/
def receive (s : AlignerTask T n) (i : Fin n) (e : StreamElement T) : AlignerTask T n :=
  match s.aligner.onReceived i e with
  | (some out, a) => { s with aligner := a, pc := .idle, outputs := s.outputs ++ [out] }
  | (none, a) => { s with aligner := a, pc := .firstPass 0 }

/-- One `try_recv` on input `i`: an element is handled, `closed` and `waiting` say where to go. -/
def tryRecv (s : AlignerTask T n) (i : Fin n) (waiting closed : AlignerPc) : AlignerTask T n :=
  match (s.aligner.inputs i).tryRecv with
  | .item e c => (s.setInput i c).receive i e
  | .empty => { s with pc := waiting }
  | .disconnected => { s with pc := closed }

/-- One step of the task. After `none` the caller stops calling `next`. -/
def poll (s : AlignerTask T n) : AlignerTask T n :=
  if s.finished then s else
  match s.pc with
  | .idle =>
    match s.aligner.drainLoop (n + 1) with
    | (some e, a) => { s with aligner := a, outputs := s.outputs ++ [.element e] }
    | (none, a) => { s with aligner := a, pc := if n = 1 then .single else .firstPass 0 }
  | .single =>
    if h : 0 < n then
      match (s.aligner.inputs ⟨0, h⟩).tryRecv with
      | .item e c => { s.setInput ⟨0, h⟩ c with
          pc := .idle, outputs := s.outputs ++ [BarrierAligner.onReceivedSingle e] }
      | .empty => s
      | .disconnected => { s with finished := true }
    else { s with finished := true }
  | .firstPass i =>
    if h : i < n then
      if s.aligner.barrierReceived ⟨i, h⟩ then { s with pc := .firstPass (i + 1) }
      else s.tryRecv ⟨i, h⟩ (.firstPass (i + 1)) (.firstPass (i + 1))
    else { s with pc := .secondPass 0 }
  | .secondPass i =>
    if h : i < n then
      if s.aligner.barrierReceived ⟨i, h⟩ then
        s.tryRecv ⟨i, h⟩ (.secondPass (i + 1)) (.secondPass (i + 1))
      else { s with pc := .secondPass (i + 1) }
    else { s with pc := .thirdPass 0 false }
  | .thirdPass i anyOpen =>
    if h : i < n then s.tryRecv ⟨i, h⟩ (.thirdPass (i + 1) true) (.thirdPass (i + 1) anyOpen)
    else if anyOpen then { s with pc := .firstPass 0 }
    else { s with finished := true }

end AlignerTask

/-- A sender of input `i` sends or goes away, or the task takes a step. -/
inductive AlignerEvent (T : Type) (n : ℕ)
  | send (i : Fin n) (e : StreamElement T)
  | close (i : Fin n)
  | poll

namespace AlignerTask

/-- The system of senders and aligner. -/
def step (s : AlignerTask T n) : AlignerEvent T n → AlignerTask T n
  | .send i e => s.setInput i ((s.aligner.inputs i).send e)
  | .close i => s.setInput i (s.aligner.inputs i).close
  | .poll => s.poll

/-- The state after a run. -/
def run (es : List (AlignerEvent T n)) : AlignerTask T n := Runs.exec step (init T n) es

/-- Everything sent on input `i`. -/
def sent (s : AlignerTask T n) (i : Fin n) : List (StreamElement T) := (s.aligner.inputs i).sent

/-- Everything received from input `i`. -/
def taken (s : AlignerTask T n) (i : Fin n) : List (StreamElement T) := (s.aligner.inputs i).taken

/-- The input whose channel the next step looks at. -/
def polledInput (s : AlignerTask T n) : Option (Fin n) :=
  match s.pc with
  | .idle => none
  | .single => if h : 0 < n then some ⟨0, h⟩ else none
  | .firstPass i =>
    if h : i < n then if s.aligner.barrierReceived ⟨i, h⟩ then none else some ⟨i, h⟩ else none
  | .secondPass i =>
    if h : i < n then if s.aligner.barrierReceived ⟨i, h⟩ then some ⟨i, h⟩ else none else none
  | .thirdPass i _ => if h : i < n then some ⟨i, h⟩ else none

end AlignerTask

/-- How many steps `recv_any` is away from its end when all inputs are closed and empty. -/
def AlignerPc.rank (n : ℕ) : AlignerPc → ℕ
  | idle => 4 * n + 5
  | single => 1
  | firstPass i => (n - i) + 2 * n + 3
  | secondPass i => (n - i) + n + 2
  | thirdPass i anyOpen => (n - i) + 1 + if anyOpen then 3 * n + 3 else 0

namespace AlignerTask

/-! ## What a step of the task does -/

/-- What handling `e` from input `i` does. -/
inductive Receives (s : AlignerTask T n) (i : Fin n) : StreamElement T → AlignerTask T n → Prop
  | aligned (b : CheckpointBarrier) (hall : ∀ k, k ≠ i → s.aligner.barrierReceived k = true) :
      Receives s i (.checkpointBarrier b) { s with
        aligner := { s.aligner with
          barrierReceived := fun _ => false, pendingBarrier := none, drainIndex := 0 }
        pc := .idle
        outputs := s.outputs ++ [.barrierAligned (s.aligner.pendingBarrier.getD b)] }
  | barrier (b : CheckpointBarrier) (hopen : ∃ k, k ≠ i ∧ s.aligner.barrierReceived k = false) :
      Receives s i (.checkpointBarrier b) { s with
        aligner := { s.aligner with
          barrierReceived := Function.update s.aligner.barrierReceived i true
          pendingBarrier := some (s.aligner.pendingBarrier.getD b) }
        pc := .firstPass 0 }
  | buffered (e : StreamElement T) (he : e.barrier? = none)
      (hblocked : s.aligner.barrierReceived i = true) :
      Receives s i e { s with
        aligner := { s.aligner with
          blockedBuffers :=
            Function.update s.aligner.blockedBuffers i (s.aligner.blockedBuffers i ++ [e]) }
        pc := .firstPass 0 }
  | passed (e : StreamElement T) (he : e.barrier? = none)
      (hfree : s.aligner.barrierReceived i = false) :
      Receives s i e { s with pc := .idle, outputs := s.outputs ++ [.element e] }

theorem receive_cases (s : AlignerTask T n) (i : Fin n) (e : StreamElement T) :
    Receives s i e (s.receive i e) := by
  have hother : e.barrier? = none → Receives s i e (match
      (if s.aligner.barrierReceived i then (none, { s.aligner with
        blockedBuffers :=
          Function.update s.aligner.blockedBuffers i (s.aligner.blockedBuffers i ++ [e]) })
      else (some (.element e), s.aligner) : Option (AlignerOutput T) × BarrierAligner T n) with
      | (some out, a) => { s with aligner := a, pc := .idle, outputs := s.outputs ++ [out] }
      | (none, a) => { s with aligner := a, pc := .firstPass 0 }) := by
    intro he
    cases hb : s.aligner.barrierReceived i
    · exact .passed e he hb
    · exact .buffered e he hb
  cases e with
  | record r => exact hother rfl
  | watermark w => exact hother rfl
  | checkpointBarrier b =>
    have hp : (match s.aligner.pendingBarrier with | none => some b | some b => some b) =
        some (s.aligner.pendingBarrier.getD b) := by cases s.aligner.pendingBarrier <;> rfl
    unfold receive BarrierAligner.onReceived
    simp only [hp]
    by_cases hall : ∀ k, Function.update s.aligner.barrierReceived i true k = true
    · rw [if_pos hall]
      exact .aligned b fun k hk => by simpa [Function.update_of_ne hk] using hall k
    · rw [if_neg hall]
      push Not at hall
      obtain ⟨k, hk⟩ := hall
      have hki : k ≠ i := by rintro rfl; simp at hk
      exact .barrier b ⟨k, hki, by simpa [Function.update_of_ne hki] using hk⟩

/-- The steps of a task that has not finished. -/
inductive Polls (s : AlignerTask T n) : AlignerTask T n → Prop
  | wait (hpc : s.pc = .single) (i : Fin n) (hi : (s.aligner.inputs i).closed = false) : Polls s s
  | drain (i : Fin n) (e : StreamElement T) (rest : List (StreamElement T)) (hpc : s.pc = .idle)
      (hi : s.aligner.drainIndex ≤ i) (hbuf : s.aligner.blockedBuffers i = e :: rest)
      (hskip : ∀ k : Fin n, s.aligner.drainIndex ≤ k → k < i → s.aligner.blockedBuffers k = []) :
      Polls s { s with
        aligner := { s.aligner with
          drainIndex := i, blockedBuffers := Function.update s.aligner.blockedBuffers i rest }
        outputs := s.outputs ++ [.element e] }
  | drained (d : ℕ) (hpc : s.pc = .idle) (hd : n ≤ d)
      (hskip : ∀ k : Fin n, s.aligner.drainIndex ≤ k → s.aligner.blockedBuffers k = []) :
      Polls s { s with
        aligner := { s.aligner with drainIndex := d }
        pc := if n = 1 then .single else .firstPass 0 }
  | single (i : Fin n) (e : StreamElement T) (c : Channel (StreamElement T)) (hpc : s.pc = .single)
      (hin : s.polledInput = some i) (hc : (s.aligner.inputs i).tryRecv = .item e c) :
      Polls s { s.setInput i c with
        pc := .idle, outputs := s.outputs ++ [BarrierAligner.onReceivedSingle e] }
  | skip (pc : AlignerPc) (hpc : s.pc ≠ .idle ∧ s.pc ≠ .single) (hpc' : pc ≠ .idle ∧ pc ≠ .single)
      (hthird : ∀ j, pc = .thirdPass j false → j = 0 ∨
        ∃ i : Fin n, j = i + 1 ∧ s.pc = .thirdPass i false ∧ (s.aligner.inputs i).Disconnected)
      (hrank : pc.rank n < s.pc.rank n ∨ ∃ i, (s.aligner.inputs i).closed = false) :
      Polls s { s with pc := pc }
  | receive (i : Fin n) (e : StreamElement T) (c : Channel (StreamElement T))
      (hpc : s.pc ≠ .idle ∧ s.pc ≠ .single) (hin : s.polledInput = some i)
      (hc : (s.aligner.inputs i).tryRecv = .item e c) : Polls s ((s.setInput i c).receive i e)
  | finish (hfin : s.pc = .single ∧ (∀ i : Fin n, (i : ℕ) = 0 → (s.aligner.inputs i).Disconnected) ∨
        ∃ j, n ≤ j ∧ s.pc = .thirdPass j false) :
      Polls s { s with finished := true }

theorem drainLoop_cases (a : BarrierAligner T n) (fuel : ℕ) (hf : n < a.drainIndex + fuel) :
    (∃ (i : Fin n) (e : StreamElement T) (rest : List (StreamElement T)),
      a.drainIndex ≤ i ∧ a.blockedBuffers i = e :: rest ∧
      (∀ k : Fin n, a.drainIndex ≤ k → k < i → a.blockedBuffers k = []) ∧
      a.drainLoop fuel = (some e, { a with
        drainIndex := i, blockedBuffers := Function.update a.blockedBuffers i rest })) ∨
    ∃ d, n ≤ d ∧ (∀ k : Fin n, a.drainIndex ≤ k → a.blockedBuffers k = []) ∧
      a.drainLoop fuel = (none, { a with drainIndex := d }) := by
  induction fuel generalizing a with
  | zero => exact .inr ⟨a.drainIndex, by omega, fun k hk => absurd k.2 (by omega), rfl⟩
  | succ fuel ih =>
    rw [BarrierAligner.drainLoop]
    split_ifs with h
    · split
      · rename_i e rest hbuf
        refine .inl ⟨⟨a.drainIndex, h⟩, e, rest, le_rfl, hbuf, fun k h1 h2 => ?_, rfl⟩
        exact absurd (Fin.lt_def.mp h2) (Nat.not_lt.mpr h1)
      · rename_i hbuf
        -- the buffer at the index is empty: what the next round skips or returns, this one does
        have hempty : ∀ k : Fin n, a.drainIndex ≤ k → ¬ a.drainIndex + 1 ≤ k →
            a.blockedBuffers k = [] := fun k h1 h2 => by
          have : k = ⟨a.drainIndex, h⟩ := Fin.ext (by simp only; omega)
          rw [this, hbuf]
        rcases ih { a with drainIndex := a.drainIndex + 1 } (by simp only; omega) with
          ⟨i, e, rest, hi, hbuf', hskip, heq⟩ | ⟨d, hd, hskip, heq⟩
        · refine .inl ⟨i, e, rest, by simp only at hi; omega, hbuf', fun k h1 h2 => ?_, heq⟩
          by_cases hk : a.drainIndex + 1 ≤ k
          · exact hskip k hk h2
          · exact hempty k h1 hk
        · refine .inr ⟨d, hd, fun k h1 => ?_, heq⟩
          by_cases hk : a.drainIndex + 1 ≤ k
          · exact hskip k hk
          · exact hempty k h1 hk
    · exact .inr ⟨a.drainIndex, by omega, fun k hk => absurd k.2 (by omega), rfl⟩

theorem tryRecv_polls (s : AlignerTask T n) (i : Fin n) (waiting closed : AlignerPc)
    (hpc : s.pc ≠ .idle ∧ s.pc ≠ .single) (hin : s.polledInput = some i)
    (hw : waiting ≠ .idle ∧ waiting ≠ .single) (hc : closed ≠ .idle ∧ closed ≠ .single)
    (hw3 : ∀ j, waiting ≠ .thirdPass j false)
    (hc3 : ∀ j, closed = .thirdPass j false → j = i + 1 ∧ s.pc = .thirdPass i false)
    (hrank : closed.rank n < s.pc.rank n) : Polls s (s.tryRecv i waiting closed) := by
  unfold tryRecv
  split
  · rename_i e c h
    exact .receive i e c hpc hin h
  · rename_i h
    exact .skip waiting hpc hw (fun j hj => absurd hj (hw3 j))
      (.inr ⟨i, (Channel.tryRecv_empty h).2⟩)
  · rename_i h
    exact .skip closed hpc hc (fun j hj =>
      .inr ⟨i, (hc3 j hj).1, (hc3 j hj).2, Channel.tryRecv_disconnected h⟩) (.inl hrank)

/-- **Everything one step of the task can do.** -/
theorem poll_cases (s : AlignerTask T n) (hfin : s.finished = false) : Polls s s.poll := by
  unfold poll
  rw [if_neg (by simp [hfin])]
  split
  · rename_i hpc
    rcases drainLoop_cases s.aligner (n + 1) (by omega) with
      ⟨i, e, rest, hi, hbuf, hskip, heq⟩ | ⟨d, hd, hskip, heq⟩
    · rw [heq]; exact .drain i e rest hpc hi hbuf hskip
    · rw [heq]; exact .drained d hpc hd hskip
  · rename_i hpc
    split
    · rename_i h
      split
      · rename_i e c hc
        exact .single ⟨0, h⟩ e c hpc (by simp [polledInput, hpc, h]) hc
      · rename_i hc
        exact .wait hpc ⟨0, h⟩ (Channel.tryRecv_empty hc).2
      · rename_i hc
        refine .finish (.inl ⟨hpc, fun i hi => ?_⟩)
        rw [show i = ⟨0, h⟩ from Fin.ext hi]
        exact Channel.tryRecv_disconnected hc
    · rename_i h
      exact .finish (.inl ⟨hpc, fun i => absurd i.2 (by omega)⟩)
  · rename_i i hpc
    have hp : s.pc ≠ .idle ∧ s.pc ≠ .single := by simp [hpc]
    split
    · rename_i h
      have hrank : (AlignerPc.firstPass (i + 1)).rank n < s.pc.rank n := by
        simp only [hpc, AlignerPc.rank]; omega
      split
      · exact .skip _ hp (by simp) (by simp) (.inl hrank)
      · rename_i hr
        exact tryRecv_polls s _ _ _ hp (by simp [polledInput, hpc, h, hr]) (by simp) (by simp)
          (by simp) (by simp) hrank
    · exact .skip _ hp (by simp) (by simp) (.inl (by simp only [hpc, AlignerPc.rank]; omega))
  · rename_i i hpc
    have hp : s.pc ≠ .idle ∧ s.pc ≠ .single := by simp [hpc]
    split
    · rename_i h
      have hrank : (AlignerPc.secondPass (i + 1)).rank n < s.pc.rank n := by
        simp only [hpc, AlignerPc.rank]; omega
      split
      · rename_i hr
        exact tryRecv_polls s _ _ _ hp (by simp [polledInput, hpc, h, hr]) (by simp) (by simp)
          (by simp) (by simp) hrank
      · exact .skip _ hp (by simp) (by simp) (.inl hrank)
    · refine .skip _ hp (by simp) (fun j hj => .inl (by injection hj with h; exact h.symm))
        (.inl ?_)
      simp only [hpc, AlignerPc.rank, Bool.false_eq_true, if_false]; omega
  · rename_i i anyOpen hpc
    have hp : s.pc ≠ .idle ∧ s.pc ≠ .single := by simp [hpc]
    split
    · rename_i h
      refine tryRecv_polls s _ _ _ hp (by simp [polledInput, hpc, h]) (by simp) (by simp) (by simp)
        (fun j hj => ?_) (by simp only [hpc, AlignerPc.rank]; omega)
      injection hj with h1 h2
      exact ⟨h1.symm, by rw [hpc, h2]⟩
    · split
      · rename_i ho
        exact .skip _ hp (by simp) (by simp) (.inl (by simp [hpc, AlignerPc.rank, ho]; omega))
      · rename_i ho
        exact .finish (.inr ⟨i, by omega, by rw [hpc]; simpa using ho⟩)

/-- **Rule for polls.** What holds of a task holds after a poll if it does after everything that one
step can do. -/
theorem poll_rule {s : AlignerTask T n} {P : AlignerTask T n → Prop} (h : P s)
    (hpolls : s.finished = false → ∀ s', Polls s s' → P s') : P s.poll := by
  cases hfin : s.finished with
  | true => unfold poll; rw [if_pos hfin]; exact h
  | false => exact hpolls hfin s.poll (poll_cases s hfin)

end AlignerTask

end Flume
