import Mathlib.Algebra.BigOperators.Group.Finset.Basic
import Mathlib.Algebra.Order.BigOperators.Group.Finset
import Mathlib.Data.Fintype.BigOperators
import Flume.Lib.Segments
import Flume.Runtime.Aligner

/-!
# Progress of the barrier aligner

What every run of an aligner with at least two inputs keeps, and why it ends.

* `Ahead`: an input has delivered a barrier for each aligned one, and some more; no step undoes it;
* **`counted_run`**: in every state, each aligned barrier has used up one barrier of every input;
* `Exhausted`: everything sent has been received, as when `next` has returned `none`;
* **`finished_of_allClosed`**: once all inputs are closed, `next` returns `none` after finitely many
  steps.
-/

namespace Flume.AlignerTask

open Channels Segments

variable {T : Type} {n : ℕ}

/-- The barriers aligned so far. -/
def aligned (s : AlignerTask T n) : List CheckpointBarrier :=
  marks AlignerOutput.barrier? s.outputs

/-- The barriers received from input `i`. -/
def barriersTaken (s : AlignerTask T n) (i : Fin n) : List CheckpointBarrier :=
  marks StreamElement.barrier? (s.taken i)

/-! ## What every run keeps -/

/-- Input `i` has delivered a barrier for each aligned one, one more if it is blocked, and `m`
beyond that. -/
def Ahead (s : AlignerTask T n) (i : Fin n) (m : ℕ) : Prop :=
  s.aligned.length + (s.aligner.barrierReceived i).toNat + m ≤ (s.barriersTaken i).length

/-- Each aligned barrier has used up one barrier of every input. -/
structure Counted (s : AlignerTask T n) : Prop where
  someOpen : ∃ i, s.aligner.barrierReceived i = false
  ahead : ∀ i, s.Ahead i 0
  multi : s.pc ≠ .single
  third : ∀ j, s.pc = .thirdPass j false → ∀ i : Fin n, (i : ℕ) < j →
    (s.aligner.inputs i).Disconnected
  atEnd : s.finished = true → ∃ j, n ≤ j ∧ s.pc = .thirdPass j false

theorem taken_setInput (s : AlignerTask T n) (i : Fin n) (c : Channel (StreamElement T)) :
    (s.setInput i c).taken = Function.update s.taken i c.taken := by
  funext k
  by_cases hk : k = i
  · subst hk; simp [taken, setInput]
  · simp [taken, setInput, Function.update_of_ne hk]

theorem taken_setInput_of_eq {s : AlignerTask T n} {i : Fin n} {c : Channel (StreamElement T)}
    (hc : c.taken = (s.aligner.inputs i).taken) : (s.setInput i c).taken = s.taken := by
  rw [taken_setInput, hc]; exact Function.update_eq_self i s.taken

theorem inputs_setInput_self (s : AlignerTask T n) (i : Fin n) (c : Channel (StreamElement T)) :
    (s.setInput i c).aligner.inputs i = c := Function.update_self ..

theorem inputs_setInput_of_ne {s : AlignerTask T n} {i k : Fin n} {c : Channel (StreamElement T)}
    (hk : k ≠ i) : (s.setInput i c).aligner.inputs k = s.aligner.inputs k :=
  Function.update_of_ne hk ..

theorem disconnected_setInput {s : AlignerTask T n} {i k : Fin n} {c : Channel (StreamElement T)}
    (hc : (s.aligner.inputs i).Disconnected → c.Disconnected)
    (hk : (s.aligner.inputs k).Disconnected) :
    ((s.setInput i c).aligner.inputs k).Disconnected := by
  by_cases h : k = i
  · subst h; rw [inputs_setInput_self]; exact hc hk
  · rw [inputs_setInput_of_ne h]; exact hk

theorem taken_receiving {s : AlignerTask T n} {i : Fin n} {e : StreamElement T}
    {c : Channel (StreamElement T)} (hc : (s.aligner.inputs i).tryRecv = .item e c) (k : Fin n) :
    (s.setInput i c).taken k = if k = i then s.taken k ++ [e] else s.taken k := by
  rw [taken_setInput]
  split_ifs with hk
  · subst hk; rw [Function.update_self]; exact (Channel.tryRecv_item hc).2.1
  · exact Function.update_of_ne hk ..

theorem barriersTaken_receiving {s : AlignerTask T n} {i : Fin n} {e : StreamElement T}
    {c : Channel (StreamElement T)} (hc : (s.aligner.inputs i).tryRecv = .item e c) (k : Fin n) :
    (s.setInput i c).barriersTaken k =
      if k = i then s.barriersTaken k ++ e.barrier?.toList else s.barriersTaken k := by
  unfold barriersTaken
  rw [taken_receiving hc]
  split_ifs with hk
  · rw [marks_append]
    cases he : e.barrier? <;> simp [marks, he]
  · rfl

theorem aligned_concat_element (s : AlignerTask T n) (e : StreamElement T) :
    marks AlignerOutput.barrier? (s.outputs ++ [.element e]) = s.aligned :=
  marks_concat_none (AlignerOutput.barrier?_element e) _

theorem aligned_concat_barrier (s : AlignerTask T n) (b : CheckpointBarrier) :
    marks AlignerOutput.barrier? (s.outputs ++ [.barrierAligned b]) = s.aligned ++ [b] :=
  marks_concat_some (AlignerOutput.barrier?_barrierAligned b) _

/-- Being ahead survives the handling of an element. -/
theorem Ahead.receives {s s' : AlignerTask T n} {i k : Fin n} {m : ℕ} {e : StreamElement T}
    {c : Channel (StreamElement T)} (h : s.Ahead k m)
    (hc : (s.aligner.inputs i).tryRecv = .item e c) (hr : Receives (s.setInput i c) i e s') :
    s'.Ahead k m := by
  unfold Ahead at h
  have hb := barriersTaken_receiving hc k
  cases hr with
  | aligned b hall =>
    change (marks AlignerOutput.barrier? (s.outputs ++ [_])).length + 0 + m ≤
      ((s.setInput i c).barriersTaken k).length
    rw [aligned_concat_barrier, hb, List.length_append, List.length_singleton]
    by_cases hki : k = i
    · rw [if_pos hki, List.length_append, StreamElement.barrier?_checkpointBarrier]
      simp only [Option.toList_some, List.length_singleton]
      omega
    · have hblocked : s.aligner.barrierReceived k = true := hall k hki
      rw [hblocked, Bool.toNat_true] at h
      rw [if_neg hki]
      omega
  | barrier b hopen =>
    change s.aligned.length + (Function.update s.aligner.barrierReceived i true k).toNat + m ≤
      ((s.setInput i c).barriersTaken k).length
    rw [hb]
    by_cases hki : k = i
    · rw [if_pos hki, List.length_append, StreamElement.barrier?_checkpointBarrier, hki,
        Function.update_self, Bool.toNat_true]
      rw [hki] at h
      simp only [Option.toList_some, List.length_singleton]
      omega
    · rw [Function.update_of_ne hki, if_neg hki]
      exact h
  | buffered e he hblocked =>
    change s.aligned.length + (s.aligner.barrierReceived k).toNat + m ≤
      ((s.setInput i c).barriersTaken k).length
    rw [hb]; simpa [he] using h
  | passed e he hfree =>
    change (marks AlignerOutput.barrier? (s.outputs ++ [_])).length +
      (s.aligner.barrierReceived k).toNat + m ≤ ((s.setInput i c).barriersTaken k).length
    rw [aligned_concat_element, hb]; simpa [he] using h

theorem Ahead.poll {s : AlignerTask T n} {k : Fin n} {m : ℕ} (hpc : s.pc ≠ .single)
    (h : s.Ahead k m) : s.poll.Ahead k m := by
  refine poll_rule (P := fun s => s.Ahead k m) h fun _ s' hpoll => ?_
  cases hpoll with
  | wait hs => exact h
  | drain i e rest =>
    change (marks AlignerOutput.barrier? (s.outputs ++ [_])).length + _ + m ≤ _
    rw [aligned_concat_element]
    exact h
  | drained d => exact h
  | single i e c hs => exact absurd hs hpc
  | skip pc => exact h
  | receive i e c _ _ hc => exact h.receives hc (receive_cases _ i e)
  | finish hend => exact h

theorem barriersTaken_setInput {s : AlignerTask T n} {i : Fin n} {c : Channel (StreamElement T)}
    (hc : c.taken = (s.aligner.inputs i).taken) :
    (s.setInput i c).barriersTaken = s.barriersTaken := by
  funext k; unfold barriersTaken; rw [taken_setInput_of_eq hc]

theorem Ahead.setInput {s : AlignerTask T n} {i k : Fin n} {m : ℕ}
    {c : Channel (StreamElement T)} (h : s.Ahead k m)
    (hc : c.taken = (s.aligner.inputs i).taken) : (s.setInput i c).Ahead k m := by
  unfold Ahead
  rw [barriersTaken_setInput hc]
  exact h

theorem Ahead.step {s : AlignerTask T n} {k : Fin n} {m : ℕ} (hpc : s.pc ≠ .single)
    (h : s.Ahead k m) (ev : AlignerEvent T n) : (s.step ev).Ahead k m := by
  cases ev with
  | send i e => exact h.setInput Channel.taken_send
  | close i => exact h.setInput Channel.taken_close
  | poll => exact h.poll hpc

theorem someOpen_receives {s s' : AlignerTask T n} {i : Fin n} {e : StreamElement T}
    (h : ∃ k, s.aligner.barrierReceived k = false) (hr : Receives s i e s') :
    ∃ k, s'.aligner.barrierReceived k = false := by
  cases hr with
  | aligned b hall => exact ⟨i, rfl⟩
  | barrier b hopen =>
    obtain ⟨k, hki, hk⟩ := hopen
    exact ⟨k, (Function.update_of_ne hki ..).trans hk⟩
  | buffered e he hblocked => exact h
  | passed e he hfree => exact h

theorem receives_pc {s s' : AlignerTask T n} {i : Fin n} {e : StreamElement T}
    (hr : Receives s i e s') : (s'.pc = .idle ∨ s'.pc = .firstPass 0) ∧ s'.finished = s.finished := by
  cases hr <;> simp

theorem Counted.setInput {s : AlignerTask T n} {i : Fin n} {c : Channel (StreamElement T)}
    (h : Counted s) (hc : c.taken = (s.aligner.inputs i).taken)
    (hd : (s.aligner.inputs i).Disconnected → c.Disconnected) : Counted (s.setInput i c) where
  someOpen := h.someOpen
  ahead k := (h.ahead k).setInput hc
  multi := h.multi
  third j hj k hk := disconnected_setInput hd (h.third j hj k hk)
  atEnd := h.atEnd

theorem Counted.poll {s : AlignerTask T n} (hn : 2 ≤ n) (h : Counted s) : Counted s.poll := by
  suffices hpoll : (∀ k, s.poll.Ahead k 0) → Counted s.poll from
    hpoll fun k => (h.ahead k).poll h.multi
  refine poll_rule (P := fun t => (∀ k, t.Ahead k 0) → Counted t) (fun _ => h)
    fun hfin s' hpoll hahead => ?_
  cases hpoll with
  | wait hpc => exact absurd hpc h.multi
  | drain i e rest hpc => exact ⟨h.someOpen, hahead, h.multi, h.third, h.atEnd⟩
  | drained d =>
    rw [if_neg (by omega)] at hahead ⊢
    exact ⟨h.someOpen, hahead, by simp, by simp, fun hf => absurd hf (by simp [hfin])⟩
  | single i e c hpc => exact absurd hpc h.multi
  | skip pc hpc hpc' hthird =>
    refine ⟨h.someOpen, hahead, hpc'.2, fun j hj i hi => ?_,
      fun hf => absurd hf (by simp [hfin])⟩
    rcases hthird j hj with rfl | ⟨k, rfl, hk, hdis⟩
    · exact absurd hi (Nat.not_lt_zero _)
    · rcases Nat.lt_succ_iff_lt_or_eq.mp hi with hik | hik
      · exact h.third k hk i hik
      · rwa [show i = k from Fin.ext hik]
  | receive i e c hpc hin hc =>
    have hr := receive_cases (s.setInput i c) i e
    obtain ⟨hpc', hfin'⟩ := receives_pc hr
    refine ⟨someOpen_receives (s := s.setInput i c) h.someOpen hr, hahead, ?_, ?_, fun hf => ?_⟩
    · rcases hpc' with h' | h' <;> simp [h']
    · rcases hpc' with h' | h' <;> simp [h']
    · exact Bool.noConfusion (hfin.symm.trans (hfin'.symm.trans hf))
  | finish hend =>
    rcases hend with ⟨hpc, -⟩ | ⟨j, hj, hpc⟩
    · exact absurd hpc h.multi
    · exact ⟨h.someOpen, hahead, h.multi, h.third, fun _ => ⟨j, hj, hpc⟩⟩

theorem Counted.step {s : AlignerTask T n} (hn : 2 ≤ n) (h : Counted s) (ev : AlignerEvent T n) :
    Counted (s.step ev) := by
  cases ev with
  | send i e => exact h.setInput Channel.taken_send fun hd => hd.send
  | close i => exact h.setInput Channel.taken_close fun hd => hd.close
  | poll => exact h.poll hn

theorem counted_init (hn : 2 ≤ n) : Counted (init T n) where
  someOpen := ⟨⟨0, by omega⟩, rfl⟩
  ahead _ := le_rfl
  multi := by simp [init]
  third := by simp [init]
  atEnd := by simp [init]

theorem counted_run (hn : 2 ≤ n) (es : List (AlignerEvent T n)) : Counted (run es) :=
  Runs.exec_invariant (P := Counted) (fun _ ev h => h.step hn ev) (counted_init hn) es

/-! ## Runs that have received everything -/

/-- Everything sent has been received, and `next` waits for more or has returned `none`. -/
def Exhausted (s : AlignerTask T n) : Prop :=
  (∀ i, (s.aligner.inputs i).queue = []) ∧ s.pc ≠ .idle

theorem Exhausted.taken_eq {s : AlignerTask T n} (h : Exhausted s) : s.taken = s.sent := by
  funext i
  unfold taken sent Channel.sent
  rw [h.1 i, List.append_nil]

theorem Counted.exhausted {s : AlignerTask T n} (h : Counted s) (hfin : s.finished = true) :
    Exhausted s := by
  obtain ⟨j, hj, hpc⟩ := h.atEnd hfin
  exact ⟨fun i => (h.third j hpc i (Nat.lt_of_lt_of_le i.2 hj)).2, by simp [hpc]⟩

/-! ## Closed inputs are worked off -/

/-- What is left to do on input `i`: an element in the channel may still pass the buffer. -/
def backlog (s : AlignerTask T n) (i : Fin n) : ℕ :=
  2 * (s.aligner.inputs i).queue.length + (s.aligner.blockedBuffers i).length

/-- Decreases with every step once all inputs are closed. -/
def work (s : AlignerTask T n) : ℕ := (4 * n + 6) * ∑ i, s.backlog i + s.pc.rank n

theorem AlignerPc.rank_le (n : ℕ) (pc : AlignerPc) : pc.rank n ≤ 4 * n + 5 := by
  cases pc with
  | thirdPass i anyOpen => cases anyOpen <;> simp [AlignerPc.rank] <;> omega
  | _ => simp only [AlignerPc.rank]; omega

theorem work_lt_of_backlog {s s' : AlignerTask T n} (i : Fin n)
    (hother : ∀ k, k ≠ i → s'.backlog k = s.backlog k) (hi : s'.backlog i < s.backlog i) :
    s'.work < s.work := by
  have hsum : ∑ k, s'.backlog k < ∑ k, s.backlog k := by
    refine Finset.sum_lt_sum (fun k _ => ?_) ⟨i, Finset.mem_univ i, hi⟩
    by_cases hk : k = i
    · rw [hk]; exact hi.le
    · exact (hother k hk).le
  have hrank := AlignerPc.rank_le n s'.pc
  unfold work
  calc (4 * n + 6) * ∑ k, s'.backlog k + s'.pc.rank n
      < (4 * n + 6) * (∑ k, s'.backlog k + 1) := by rw [Nat.mul_succ]; omega
    _ ≤ (4 * n + 6) * ∑ k, s.backlog k := Nat.mul_le_mul_left _ hsum
    _ ≤ _ := Nat.le_add_right ..

theorem backlog_receives {s s' : AlignerTask T n} {i : Fin n} {e : StreamElement T}
    (hr : Receives s i e s') : (∀ k, k ≠ i → s'.backlog k = s.backlog k) ∧
      s'.backlog i ≤ s.backlog i + 1 ∧ s'.aligner.inputs = s.aligner.inputs := by
  cases hr with
  | buffered e he hblocked =>
    refine ⟨fun k hk => ?_, ?_, rfl⟩
    · unfold backlog
      simp only [Function.update_of_ne hk]
    · unfold backlog
      simp only [Function.update_self, List.length_append, List.length_singleton]
      omega
  | _ => exact ⟨fun _ _ => rfl, Nat.le_succ _, rfl⟩

theorem backlog_setInput {s : AlignerTask T n} {i : Fin n} {e : StreamElement T}
    {c : Channel (StreamElement T)} (hc : (s.aligner.inputs i).tryRecv = .item e c) :
    (∀ k, k ≠ i → (s.setInput i c).backlog k = s.backlog k) ∧
      (s.setInput i c).backlog i + 2 = s.backlog i := by
  unfold backlog
  refine ⟨fun k hk => ?_, ?_⟩
  · rw [inputs_setInput_of_ne hk]; rfl
  · rw [inputs_setInput_self, Channel.length_queue_of_tryRecv hc]
    change 2 * c.queue.length + (s.aligner.blockedBuffers i).length + 2 = _
    omega

/-- All senders of all inputs are gone. -/
def AllClosed (s : AlignerTask T n) : Prop := ∀ i, (s.aligner.inputs i).closed = true

theorem allClosed_setInput {s : AlignerTask T n} {i : Fin n} {c : Channel (StreamElement T)}
    (h : AllClosed s) (hc : c.closed = (s.aligner.inputs i).closed) :
    AllClosed (s.setInput i c) := by
  intro k
  by_cases hk : k = i
  · subst hk; rw [inputs_setInput_self, hc]; exact h k
  · rw [inputs_setInput_of_ne hk]; exact h k

theorem allClosed_poll {s : AlignerTask T n} (h : AllClosed s) : AllClosed s.poll := by
  refine poll_rule h fun _ s' hpoll => ?_
  cases hpoll with
  | single i e c _ _ hc => exact allClosed_setInput h (Channel.tryRecv_item hc).2.2
  | receive i e c _ _ hc =>
    have hin := (backlog_receives (receive_cases (s.setInput i c) i e)).2.2
    unfold AllClosed
    rw [hin]
    exact allClosed_setInput h (Channel.tryRecv_item hc).2.2
  | _ => exact h

theorem work_poll {s : AlignerTask T n} (hn : 2 ≤ n) (hcount : Counted s) (h : AllClosed s)
    (hfin : s.finished = false) : s.poll.work < s.work ∨ s.poll.finished = true := by
  have hpoll := poll_cases s hfin
  generalize s.poll = s' at hpoll ⊢
  cases hpoll with
  | wait hpc => exact absurd hpc hcount.multi
  | drain i e rest hpc hi hbuf =>
    refine .inl (work_lt_of_backlog i (fun k hk => ?_) ?_)
    · unfold backlog
      simp only [Function.update_of_ne hk]
    · unfold backlog
      simp only [Function.update_self, hbuf, List.length_cons]
      omega
  | drained d hpc =>
    refine .inl (Nat.add_lt_add_left ?_ _)
    simp only [hpc, if_neg (show ¬ n = 1 by omega), AlignerPc.rank]
    omega
  | single i e c hpc => exact absurd hpc hcount.multi
  | skip pc _ _ _ hrank =>
    rcases hrank with hrank | ⟨i, hi⟩
    · exact .inl (Nat.add_lt_add_left hrank _)
    · rw [h i] at hi; cases hi
  | receive i e c _ _ hc =>
    obtain ⟨h1, h2, -⟩ := backlog_receives (receive_cases (s.setInput i c) i e)
    obtain ⟨h3, h4⟩ := backlog_setInput hc
    exact .inl (work_lt_of_backlog i (fun k hk => (h1 k hk).trans (h3 k hk)) (by omega))
  | finish => exact .inr rfl

theorem finished_poll {s : AlignerTask T n} (h : s.finished = true) : s.poll.finished = true := by
  unfold poll; rw [if_pos h]; exact h

theorem finished_of_allClosed (hn : 2 ≤ n) (es : List (AlignerEvent T n))
    (h : AllClosed (run es)) :
    ∃ N, ∀ k, N ≤ k → (run (es ++ List.replicate k .poll)).finished = true := by
  refine ⟨(run es).work + 1, fun k hk => ?_⟩
  unfold run
  rw [Runs.exec_append]
  refine Runs.exec_reaches (fun s => Counted s ∧ AllClosed s) (fun s => s.finished = true)
    (fun ev => ev = .poll) work ?_ ?_ ?_ ⟨counted_run hn es, h⟩
    (fun _ he => List.eq_of_mem_replicate he) (by rw [List.length_replicate]; exact hk)
  · rintro s - rfl ⟨hs, hc⟩
    exact ⟨hs.poll hn, allClosed_poll hc⟩
  · rintro s - rfl hs
    exact finished_poll hs
  · rintro s - rfl ⟨hs, hc⟩ hf
    exact work_poll hn hs hc (by simpa using hf)

end Flume.AlignerTask
