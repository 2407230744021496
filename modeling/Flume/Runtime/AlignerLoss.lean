import Flume.Runtime.AlignerCut

/-!
# When the aligner loses nothing

An element of a blocked input is buffered until the alignment is complete. If an input closes
without the barrier that the others have delivered, the alignment is never complete, and `next`
returns `none` with the buffers full.

* `Lossless`: every record and watermark that was sent has been output;
* `Drains`: between calls of `recv_any` only blocked inputs have anything buffered, and what was
  received has been output or is buffered;
* `NoStranding`: an element is taken from a blocked input only while every input that is not blocked
  has a barrier to come;
* **`lossless_iff`**: a run that has ended in `none` has lost nothing if and only if all its steps
  are of that kind.
-/

namespace Flume

open Channels Segments

variable {T : Type} {n : ℕ}

/-- The element of an output. -/
def AlignerOutput.element? : AlignerOutput T → Option (StreamElement T)
  | element e => some e
  | barrierAligned _ => none

namespace AlignerTask

/-- The records and watermarks of a stream. -/
def data (l : List (StreamElement T)) : Multiset (StreamElement T) :=
  (l.filter fun e => e.barrier?.isNone : List (StreamElement T))

/-- The records and watermarks among outputs. -/
def outData (outputs : List (AlignerOutput T)) : Multiset (StreamElement T) :=
  (outputs.filterMap AlignerOutput.element? : List (StreamElement T))

/-- The elements in the buffer of input `i`. -/
def buffered (s : AlignerTask T n) (i : Fin n) : Multiset (StreamElement T) :=
  Multiset.ofList (s.aligner.blockedBuffers i)

/-- Every record and watermark that was sent has been output. -/
def Lossless (s : AlignerTask T n) : Prop := ∑ i, data (s.sent i) ≤ outData s.outputs

/-- The step takes no element of a blocked input, or every input `k` that is not blocked has one of
its `barriers k` barriers to come. -/
def NoStranding (barriers : Fin n → ℕ) (s : AlignerTask T n) : AlignerEvent T n → Prop
  | .poll => s.finished = false → ∀ i ∈ s.polledInput, ∀ e ∈ (s.aligner.inputs i).queue.head?,
      e.barrier? = none → s.aligner.barrierReceived i = true →
        ∀ k, s.aligner.barrierReceived k = false → (s.barriersTaken k).length < barriers k
  | _ => True

instance (barriers : Fin n → ℕ) (s : AlignerTask T n) : ∀ ev, Decidable (NoStranding barriers s ev)
  | .send _ _ => instDecidableTrue
  | .close _ => instDecidableTrue
  | .poll => inferInstanceAs (Decidable (s.finished = false → ∀ i ∈ s.polledInput,
      ∀ e ∈ (s.aligner.inputs i).queue.head?, e.barrier? = none →
        s.aligner.barrierReceived i = true →
          ∀ k, s.aligner.barrierReceived k = false → (s.barriersTaken k).length < barriers k))

/-! ## What is output and what is buffered -/

theorem data_concat (l : List (StreamElement T)) {e : StreamElement T} (he : e.barrier? = none) :
    data (l ++ [e]) = data l + {e} := by
  unfold data
  rw [List.filter_append, List.filter_cons_of_pos (by rw [he]; rfl), List.filter_nil,
    ← Multiset.coe_add]
  rfl

theorem data_concat_barrier (l : List (StreamElement T)) (b : CheckpointBarrier) :
    data (l ++ [.checkpointBarrier b]) = data l := by
  unfold data
  rw [List.filter_append, List.filter_cons_of_neg (by simp), List.filter_nil, List.append_nil]

theorem outData_concat_element (outputs : List (AlignerOutput T)) (e : StreamElement T) :
    outData (outputs ++ [.element e]) = outData outputs + {e} := by
  unfold outData
  rw [List.filterMap_append, ← Multiset.coe_add]
  rfl

theorem outData_concat_barrier (outputs : List (AlignerOutput T)) (b : CheckpointBarrier) :
    outData (outputs ++ [.barrierAligned b]) = outData outputs := by
  unfold outData
  rw [List.filterMap_append, List.filterMap_cons_none rfl, List.filterMap_nil, List.append_nil]

/-- What holds in every state: blocked inputs wait for the alignment, the others have been drained,
and everything received is output or buffered. -/
structure Drains (s : AlignerTask T n) : Prop where
  draining : s.aligner.drainIndex < n → ∀ i, s.aligner.barrierReceived i = false
  polling : s.pc ≠ .idle → n ≤ s.aligner.drainIndex
  drained : ∀ i : Fin n, s.aligner.barrierReceived i = false → (i : ℕ) < s.aligner.drainIndex →
    s.aligner.blockedBuffers i = []
  balance : outData s.outputs + ∑ i, s.buffered i = ∑ i, data (s.taken i)

theorem Drains.buffer_of_open {s : AlignerTask T n} (h : Drains s) (hpc : s.pc ≠ .idle) {i : Fin n}
    (hi : s.aligner.barrierReceived i = false) : s.aligner.blockedBuffers i = [] :=
  h.drained i hi (Nat.lt_of_lt_of_le i.2 (h.polling hpc))

theorem drains_init : Drains (init T n) where
  draining _ _ := rfl
  polling hpc := absurd rfl hpc
  drained _ _ _ := rfl
  balance := by simp [outData, buffered, data, init, taken, BarrierAligner.new]

theorem Drains.frame {s s' : AlignerTask T n} (h : Drains s) (ht : s'.taken = s.taken)
    (ho : s'.outputs = s.outputs) (hr : s'.aligner.barrierReceived = s.aligner.barrierReceived)
    (hb : s'.aligner.blockedBuffers = s.aligner.blockedBuffers)
    (hd : s'.aligner.drainIndex = s.aligner.drainIndex) (hpc : s'.pc ≠ .idle → s.pc ≠ .idle) :
    Drains s' := by
  refine ⟨?_, ?_, ?_, ?_⟩
  · rw [hd, hr]; exact h.draining
  · rw [hd]; exact fun hi => h.polling (hpc hi)
  · rw [hr, hd, hb]; exact h.drained
  · unfold buffered
    rw [ho, hb, ht]
    exact h.balance

theorem Drains.balance_barrier {s : AlignerTask T n} {i : Fin n} {b : CheckpointBarrier}
    {c : Channel (StreamElement T)} (h : Drains s)
    (hc : (s.aligner.inputs i).tryRecv = .item (.checkpointBarrier b) c) :
    outData s.outputs + ∑ k, s.buffered k = ∑ k, data ((s.setInput i c).taken k) := by
  rw [h.balance]
  refine Finset.sum_congr rfl fun k _ => ?_
  rw [taken_receiving hc]
  split_ifs
  · exact (data_concat_barrier _ b).symm
  · rfl

theorem Drains.receives {s s' : AlignerTask T n} {i : Fin n} {e : StreamElement T}
    {c : Channel (StreamElement T)} (h : Drains s) (hpc : s.pc ≠ .idle)
    (hc : (s.aligner.inputs i).tryRecv = .item e c) (hr : Receives (s.setInput i c) i e s') :
    Drains s' := by
  have hpolling := h.polling hpc
  cases hr with
  | aligned b hall =>
    refine ⟨fun _ _ => rfl, fun hne => absurd rfl hne,
      fun k _ hk => absurd hk (Nat.not_lt_zero _), ?_⟩
    change outData (s.outputs ++ [_]) + _ = _
    rw [outData_concat_barrier]
    exact h.balance_barrier hc
  | barrier b hopen =>
    refine ⟨fun hd => absurd hpolling (Nat.not_le.mpr hd), fun _ => hpolling, fun k hk hlt => ?_,
      h.balance_barrier hc⟩
    have hki : k ≠ i := by rintro rfl; simp at hk
    change Function.update s.aligner.barrierReceived i true k = false at hk
    rw [Function.update_of_ne hki] at hk
    exact h.drained k hk hlt
  | buffered e he hblocked =>
    refine ⟨fun hd => absurd hpolling (Nat.not_le.mpr hd), fun _ => hpolling, fun k hk hlt => ?_, ?_⟩
    · have hki : k ≠ i := by
        rintro rfl
        exact Bool.noConfusion (hblocked.symm.trans hk)
      change Function.update s.aligner.blockedBuffers i _ k = []
      rw [Function.update_of_ne hki]
      exact h.drained k hk hlt
    · refine add_sum_eq_of_local i (fun k hk => ?_) (fun k hk => ?_) ?_ h.balance
      · change Multiset.ofList (Function.update s.aligner.blockedBuffers i _ k) = _
        rw [Function.update_of_ne hk]
        rfl
      · change data ((s.setInput i c).taken k) = _
        rw [taken_receiving hc, if_neg hk]
      · change outData s.outputs + Multiset.ofList (Function.update s.aligner.blockedBuffers i _ i) +
          _ = _ + data ((s.setInput i c).taken i)
        rw [taken_receiving hc, if_pos rfl, data_concat _ he, Function.update_self,
          ← Multiset.coe_add]
        change outData s.outputs + (s.buffered i + {e}) + _ = _
        abel
  | passed e he hopen =>
    refine ⟨fun hd => absurd hpolling (Nat.not_le.mpr hd), fun hne => absurd rfl hne, h.drained, ?_⟩
    refine add_sum_eq_of_local i (fun k _ => rfl) (fun k hk => ?_) ?_ h.balance
    · change data ((s.setInput i c).taken k) = _
      rw [taken_receiving hc, if_neg hk]
    · change outData (s.outputs ++ [_]) + s.buffered i + _ =
        outData s.outputs + s.buffered i + data ((s.setInput i c).taken i)
      rw [taken_receiving hc, if_pos rfl, data_concat _ he, outData_concat_element]
      abel

theorem Drains.poll {s : AlignerTask T n} (hcount : Counted s) (h : Drains s) : Drains s.poll := by
  refine poll_rule h fun _ s' hpoll => ?_
  cases hpoll with
  | wait hpc => exact absurd hpc hcount.multi
  | drain i e rest hpc hi hbuf hskip =>
    refine ⟨fun _ => h.draining (Nat.lt_of_le_of_lt hi i.2), fun hne => absurd hpc hne,
      fun k hk hlt => ?_, ?_⟩
    · have hki : k ≠ i := fun hki => absurd hlt (by simp [hki])
      change Function.update s.aligner.blockedBuffers i rest k = []
      rw [Function.update_of_ne hki]
      by_cases hd : (k : ℕ) < s.aligner.drainIndex
      · exact h.drained k hk hd
      · exact hskip k (Nat.not_lt.mp hd) hlt
    · refine add_sum_eq_of_local i (fun k hk => ?_) (fun _ _ => rfl) ?_ h.balance
      · change Multiset.ofList (Function.update s.aligner.blockedBuffers i rest k) = _
        rw [Function.update_of_ne hk]
        rfl
      · have hbuffered : s.buffered i = {e} + (rest : Multiset (StreamElement T)) := by
          unfold buffered
          rw [hbuf]
          rfl
        change outData (s.outputs ++ [_]) +
          Multiset.ofList (Function.update s.aligner.blockedBuffers i rest i) + _ = _
        rw [outData_concat_element, Function.update_self, hbuffered]
        abel
  | drained d hpc hd hskip =>
    refine ⟨fun hlt => absurd hd (Nat.not_le.mpr hlt), fun _ => hd, fun k hk _ => ?_, h.balance⟩
    by_cases hlt : (k : ℕ) < s.aligner.drainIndex
    · exact h.drained k hk hlt
    · exact hskip k (Nat.not_lt.mp hlt)
  | single i e c hpc => exact absurd hpc hcount.multi
  | skip pc hpc => exact h.frame rfl rfl rfl rfl rfl fun _ => hpc.1
  | receive i e c hpc hin hc => exact h.receives hpc.1 hc (receive_cases _ i e)
  | finish hend => exact h.frame rfl rfl rfl rfl rfl id

theorem Drains.step {s : AlignerTask T n} (hcount : Counted s) (h : Drains s)
    (ev : AlignerEvent T n) : Drains (s.step ev) := by
  cases ev with
  | send i e => exact h.frame (taken_setInput_of_eq Channel.taken_send) rfl rfl rfl rfl id
  | close i => exact h.frame (taken_setInput_of_eq Channel.taken_close) rfl rfl rfl rfl id
  | poll => exact h.poll hcount

theorem drains_run (hn : 2 ≤ n) (es : List (AlignerEvent T n)) : Drains (run es) :=
  (Runs.exec_invariant (P := fun s => Counted s ∧ Drains s)
    (fun _ ev h => ⟨h.1.step hn ev, h.2.step h.1 ev⟩) ⟨counted_init hn, drains_init⟩ es).2

/-! ## Buffers that will be drained -/

variable {barriers : Fin n → ℕ}

/-- While something of a blocked input is buffered, every input that is not blocked has a barrier to
come. -/
def Served (barriers : Fin n → ℕ) (s : AlignerTask T n) : Prop :=
  ∀ i, s.aligner.barrierReceived i = true → s.aligner.blockedBuffers i ≠ [] →
    ∀ k, s.aligner.barrierReceived k = false → (s.barriersTaken k).length < barriers k

theorem Served.receives {s s' : AlignerTask T n} {i : Fin n} {e : StreamElement T}
    {c : Channel (StreamElement T)} (h : Served barriers s) (hdrains : Drains s)
    (hpc : s.pc ≠ .idle) (hc : (s.aligner.inputs i).tryRecv = .item e c)
    (hcome : e.barrier? = none → s.aligner.barrierReceived i = true →
      ∀ k, s.aligner.barrierReceived k = false → (s.barriersTaken k).length < barriers k)
    (hr : Receives (s.setInput i c) i e s') : Served barriers s' := by
  have hb := barriersTaken_receiving hc
  cases hr with
  | aligned b hall => exact fun j hj => Bool.noConfusion hj
  | barrier b hopen =>
    intro j hj hbuf k hk
    change Function.update s.aligner.barrierReceived i true j = true at hj
    change Function.update s.aligner.barrierReceived i true k = false at hk
    change s.aligner.blockedBuffers j ≠ [] at hbuf
    change ((s.setInput i c).barriersTaken k).length < barriers k
    have hki : k ≠ i := by rintro rfl; simp at hk
    rw [Function.update_of_ne hki] at hk
    rw [hb, if_neg hki]
    -- an input that is blocked only now has nothing buffered
    by_cases hblocked : s.aligner.barrierReceived j = true
    · exact h j hblocked hbuf k hk
    · exact absurd (hdrains.buffer_of_open hpc (by simpa using hblocked)) hbuf
  | buffered e he hblocked =>
    intro j hj hbuf k hk
    change ((s.setInput i c).barriersTaken k).length < barriers k
    have hsame : (s.setInput i c).barriersTaken k = s.barriersTaken k := by rw [hb]; simp [he]
    rw [hsame]
    exact hcome he hblocked k hk
  | passed e he hopen =>
    intro j hj hbuf k hk
    change ((s.setInput i c).barriersTaken k).length < barriers k
    have hsame : (s.setInput i c).barriersTaken k = s.barriersTaken k := by rw [hb]; simp [he]
    rw [hsame]
    exact h j hj hbuf k hk

theorem Served.poll {s : AlignerTask T n} (hcount : Counted s) (hdrains : Drains s)
    (h : Served barriers s) (hev : NoStranding barriers s .poll) : Served barriers s.poll := by
  refine poll_rule h fun hfin s' hpoll => ?_
  cases hpoll with
  | drain i e rest hpc hi =>
    intro j hj
    rw [show s.aligner.barrierReceived j = false from
      hdrains.draining (Nat.lt_of_le_of_lt hi i.2) j] at hj
    cases hj
  | single i e c hpc => exact absurd hpc hcount.multi
  | receive i e c hpc hin hc =>
    refine h.receives hdrains hpc.1 hc (fun he hblocked => ?_) (receive_cases _ i e)
    exact hev hfin i hin e (by rw [(Channel.tryRecv_item hc).1]; rfl) he hblocked
  | _ => exact h

theorem Served.step {s : AlignerTask T n} (hcount : Counted s) (hdrains : Drains s)
    (h : Served barriers s) (ev : AlignerEvent T n) (hev : NoStranding barriers s ev) :
    Served barriers (s.step ev) := by
  cases ev with
  | send i e =>
    intro j hj hbuf k hk
    change ((s.setInput i _).barriersTaken k).length < barriers k
    rw [barriersTaken_setInput Channel.taken_send]
    exact h j hj hbuf k hk
  | close i =>
    intro j hj hbuf k hk
    change ((s.setInput i _).barriersTaken k).length < barriers k
    rw [barriersTaken_setInput Channel.taken_close]
    exact h j hj hbuf k hk
  | poll => exact h.poll hcount hdrains hev

theorem served_run (hn : 2 ≤ n) (es : List (AlignerEvent T n))
    (h : Runs.Along step (NoStranding barriers) (init T n) es) : Served barriers (run es) :=
  (Runs.exec_invariant_along (P := fun s => (Counted s ∧ Drains s) ∧ Served barriers s)
    (fun _ ev h hev => ⟨⟨h.1.1.step hn ev, h.1.2.step h.1.1 ev⟩, h.2.step h.1.1 h.1.2 ev hev⟩)
    ⟨⟨counted_init hn, drains_init⟩, fun _ hi => Bool.noConfusion hi⟩ h).2

/-! ## Buffers that stay -/

/-- Input `i` is blocked and has something buffered, and input `k` is not blocked and has delivered
`m` barriers; or it has delivered more than that. -/
def Stranded (i k : Fin n) (m : ℕ) (s : AlignerTask T n) : Prop :=
  (s.aligner.barrierReceived i = true ∧ s.aligner.blockedBuffers i ≠ [] ∧
    s.aligner.barrierReceived k = false ∧ m ≤ (s.barriersTaken k).length) ∨
  m < (s.barriersTaken k).length

theorem Stranded.frame {s s' : AlignerTask T n} {i k : Fin n} {m : ℕ} (h : Stranded i k m s)
    (hr : s'.aligner.barrierReceived = s.aligner.barrierReceived)
    (hb : s'.aligner.blockedBuffers = s.aligner.blockedBuffers)
    (ht : s'.barriersTaken = s.barriersTaken) : Stranded i k m s' := by
  unfold Stranded
  rw [hr, hb, ht]
  exact h

theorem Stranded.receives {s s' : AlignerTask T n} {i k j : Fin n} {m : ℕ} {e : StreamElement T}
    {c : Channel (StreamElement T)} (h : Stranded i k m s)
    (hc : (s.aligner.inputs j).tryRecv = .item e c) (hr : Receives (s.setInput j c) j e s') :
    Stranded i k m s' := by
  have hb := barriersTaken_receiving hc k
  have hgrow : (s.barriersTaken k).length ≤ ((s.setInput j c).barriersTaken k).length := by
    rw [hb]
    split_ifs
    · rw [List.length_append]; exact Nat.le_add_right _ _
    · exact le_rfl
  have htaken : s'.barriersTaken k = (s.setInput j c).barriersTaken k := by cases hr <;> rfl
  unfold Stranded
  rw [htaken]
  rcases h with ⟨hblocked, hbuf, hopen, hm⟩ | hm
  swap
  · exact Or.inr (lt_of_lt_of_le hm hgrow)
  -- a barrier of input `k` itself is one more than `m`
  have hmore : k = j → e.barrier? ≠ none →
      m < ((s.setInput j c).barriersTaken k).length := by
    intro hkj he
    obtain ⟨b, hb'⟩ := Option.ne_none_iff_exists'.mp he
    rw [hb, if_pos hkj, hb', List.length_append]
    exact Nat.lt_succ_of_le hm
  cases hr with
  | aligned b hall =>
    by_cases hkj : k = j
    · exact Or.inr (hmore hkj (by simp))
    · have hk : s.aligner.barrierReceived k = true := hall k hkj
      rw [hopen] at hk
      cases hk
  | barrier b hexists =>
    by_cases hkj : k = j
    · exact Or.inr (hmore hkj (by simp))
    · refine Or.inl ⟨?_, hbuf, ?_, hm.trans hgrow⟩
      · change Function.update s.aligner.barrierReceived j true i = true
        by_cases hij : i = j
        · rw [hij, Function.update_self]
        · rw [Function.update_of_ne hij, hblocked]
      · change Function.update s.aligner.barrierReceived j true k = false
        rw [Function.update_of_ne hkj, hopen]
  | buffered e he hj =>
    refine Or.inl ⟨hblocked, ?_, hopen, hm.trans hgrow⟩
    change Function.update s.aligner.blockedBuffers j _ i ≠ []
    by_cases hij : i = j
    · rw [hij, Function.update_self]
      simp
    · rw [Function.update_of_ne hij]
      exact hbuf
  | passed e he hj => exact Or.inl ⟨hblocked, hbuf, hopen, hm.trans hgrow⟩

theorem Stranded.step {s : AlignerTask T n} {i k : Fin n} {m : ℕ} (hcount : Counted s)
    (hdrains : Drains s) (h : Stranded i k m s) (ev : AlignerEvent T n) :
    Stranded i k m (s.step ev) := by
  cases ev with
  | send j e => exact h.frame rfl rfl (barriersTaken_setInput Channel.taken_send)
  | close j => exact h.frame rfl rfl (barriersTaken_setInput Channel.taken_close)
  | poll =>
    change Stranded i k m s.poll
    refine poll_rule h fun _ s' hpoll => ?_
    cases hpoll with
    | drain j e rest hpc hj =>
      rcases h with ⟨hblocked, -⟩ | hm
      · rw [hdrains.draining (Nat.lt_of_le_of_lt hj j.2) i] at hblocked
        cases hblocked
      · exact Or.inr hm
    | single j e c hpc => exact absurd hpc hcount.multi
    | receive j e c hpc hin hc => exact h.receives hc (receive_cases _ j e)
    | _ => exact h

/-- Taking an element of a blocked input, with an input that is not blocked and has no barrier to
come. -/
theorem stranded_of_not {s : AlignerTask T n} (hcount : Counted s) {ev : AlignerEvent T n}
    (hev : ¬ NoStranding barriers s ev) : ∃ i k, Stranded i k (barriers k) (s.step ev) := by
  cases ev with
  | poll =>
    unfold NoStranding at hev
    push Not at hev
    obtain ⟨hfin, i, hin, e, hq, he, hblocked, k, hopen, hk⟩ := hev
    obtain ⟨c, hc⟩ := Channel.tryRecv_of_head? hq
    refine ⟨i, k, ?_⟩
    change Stranded i k (barriers k) s.poll
    rw [poll_of_polledInput hfin hcount.multi hin hc]
    have hr := receive_cases (s.setInput i c) i e
    have hsame : (s.setInput i c).barriersTaken k = s.barriersTaken k := by
      rw [barriersTaken_receiving hc]
      simp [he]
    generalize (s.setInput i c).receive i e = s' at hr ⊢
    cases hr with
    | aligned b => simp at he
    | barrier b => simp at he
    | buffered e _ _ =>
      refine Or.inl ⟨hblocked, ?_, hopen, ?_⟩
      · change Function.update s.aligner.blockedBuffers i _ i ≠ []
        rw [Function.update_self]
        simp
      · change _ ≤ ((s.setInput i c).barriersTaken k).length
        rw [hsame]
        exact hk
    | passed e _ hfree =>
      have hfree' : s.aligner.barrierReceived i = false := hfree
      rw [hblocked] at hfree'
      cases hfree'
  | send i e => exact absurd trivial hev
  | close i => exact absurd trivial hev

theorem stranded_run (hn : 2 ≤ n) {es : List (AlignerEvent T n)}
    (h : ¬ Runs.Along step (NoStranding barriers) (init T n) es) :
    ∃ i k, Stranded i k (barriers k) (run es) := by
  rw [Runs.along_iff_eachStep] at h
  push Not at h
  obtain ⟨pre, ev, post, rfl, hev⟩ := h
  have hcount := counted_run (T := T) hn pre
  have hdrains := drains_run (T := T) hn pre
  obtain ⟨i, k, hstranded⟩ := stranded_of_not hcount hev
  refine ⟨i, k, ?_⟩
  unfold run
  rw [Runs.exec_append, Runs.exec_cons]
  exact (Runs.exec_invariant (P := fun s => (Counted s ∧ Drains s) ∧ Stranded i k (barriers k) s)
    (fun _ ev h => ⟨⟨h.1.1.step hn ev, h.1.2.step h.1.1 ev⟩, h.2.step h.1.1 h.1.2 ev⟩)
    ⟨⟨hcount.step hn ev, hdrains.step hcount ev⟩, hstranded⟩ post).2

/-! ## The result -/

theorem Drains.lossless_iff_empty {s : AlignerTask T n} (h : Drains s) (hex : Exhausted s) :
    Lossless s ↔ ∀ i, s.aligner.blockedBuffers i = [] := by
  unfold Lossless
  rw [← hex.taken_eq, ← h.balance]
  have hzero : (∑ i, s.buffered i = 0) ↔ ∀ i, s.aligner.blockedBuffers i = [] := by
    rw [Finset.sum_eq_zero_iff]
    simp [buffered]
  rw [← hzero]
  constructor
  · intro hle
    have hcard := Multiset.card_le_card hle
    rw [Multiset.card_add] at hcard
    exact Multiset.card_eq_zero.mp (by omega)
  · intro h0
    rw [h0, add_zero]

/-- **When the aligner loses nothing:** if, whenever an element was taken from a blocked input,
every input that was not blocked had a barrier to come. -/
theorem lossless_iff (hn : 2 ≤ n) (es : List (AlignerEvent T n)) (hfin : (run es).finished = true) :
    Lossless (run es) ↔ Runs.Along step
      (NoStranding fun k => (marks StreamElement.barrier? ((run es).sent k)).length)
      (init T n) es := by
  have hcount := counted_run (T := T) hn es
  have hdrains := drains_run (T := T) hn es
  have hex := hcount.exhausted hfin
  have htaken : ∀ k, (run es).barriersTaken k = marks StreamElement.barrier? ((run es).sent k) :=
    fun k => by unfold barriersTaken; rw [hex.taken_eq]
  rw [hdrains.lossless_iff_empty hex]
  constructor
  · intro hempty
    by_contra hnot
    obtain ⟨i, k, ⟨-, hbuf, -⟩ | hmore⟩ := stranded_run hn hnot
    · exact hbuf (hempty i)
    · rw [htaken] at hmore
      exact lt_irrefl _ hmore
  · intro halong i
    have hserved := served_run hn es halong
    cases hblocked : (run es).aligner.barrierReceived i with
    | false => exact hdrains.buffer_of_open hex.2 hblocked
    | true =>
      by_contra hbuf
      obtain ⟨k, hk⟩ := hcount.someOpen
      have hlt := hserved i hblocked hbuf k hk
      rw [htaken] at hlt
      exact lt_irrefl _ hlt

/-- Both inputs deliver the barrier; the record behind the first one waits for the second. -/
def completedRun : List (AlignerEvent Unit 2) :=
  [AlignerEvent.send 0 (.checkpointBarrier ⟨1, 0⟩), .send 0 (.record ⟨(), 7, none⟩)] ++
  List.replicate 8 AlignerEvent.poll ++
  [AlignerEvent.send 1 (.checkpointBarrier ⟨1, 0⟩), .close 0, .close 1] ++
  List.replicate 20 AlignerEvent.poll

theorem completedRun_lossless : Lossless (run completedRun) := by
  have h := lossless_iff le_rfl completedRun (by decide +kernel)
  exact h.mpr (by decide +kernel)

/-- The second input closes without the barrier of the first: the record behind it is lost. -/
def strandingRun : List (AlignerEvent Unit 2) :=
  [AlignerEvent.send 0 (.checkpointBarrier ⟨1, 0⟩), .send 0 (.record ⟨(), 7, none⟩), .close 0,
    .close 1] ++ List.replicate 20 AlignerEvent.poll

theorem strandingRun_not_lossless : (run strandingRun).finished = true ∧
    (run strandingRun).outputs = [] ∧ ¬ Lossless (run strandingRun) := by
  have hout : (run strandingRun).outputs = [] := by decide +kernel
  refine ⟨by decide +kernel, hout, fun h => ?_⟩
  have hcard := Multiset.card_le_card h
  have hsent : Multiset.card (∑ i, data ((run strandingRun).sent i)) = 1 := by decide +kernel
  rw [hsent, hout] at hcard
  exact absurd hcard (by decide)

end AlignerTask
end Flume
