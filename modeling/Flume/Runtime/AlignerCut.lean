import Flume.Runtime.AlignerProgress

/-!
# When the aligner cuts its inputs along the barriers

All inputs carry the barriers `bs`. The aligned barriers should be `bs`, and the elements between
two of them exactly those that the inputs carry between the same barriers (`Cut`).

* `InStep`: as long as no barrier is taken from a blocked input (`NoOvertake`), an input is at most
  one barrier ahead and its buffer holds the elements that follow that barrier;
* `Overtaken`: once a barrier is taken from a blocked input it is lost for good;
* **`barrierAligner_cut_iff`**: a run that has received everything has cut its inputs along the
  barriers if and only if no barrier was taken from a blocked input.
-/

namespace Flume.AlignerTask

open Channels Segments

variable {T : Type} {n : ℕ}

/-! ## The cut -/

/-- The elements output after exactly `j` aligned barriers. -/
def outSegment (s : AlignerTask T n) (j : ℕ) : Multiset (AlignerOutput T) :=
  (seg AlignerOutput.barrier? j s.outputs : List (AlignerOutput T))

/-- The elements of a stream that follow exactly `j` of its barriers, as outputs. -/
def inSegment (l : List (StreamElement T)) (j : ℕ) : Multiset (AlignerOutput T) :=
  ((seg StreamElement.barrier? j l).map .element : List (AlignerOutput T))

/-- **The aligned cut**: the aligned barriers are `bs`, and between two of them the output has
exactly the elements that the inputs carry between the same two barriers. -/
def Cut (s : AlignerTask T n) (bs : List CheckpointBarrier) : Prop :=
  s.aligned = bs ∧ ∀ j, s.outSegment j = ∑ i, inSegment (s.sent i) j

/-- The step does not take a barrier from an input that is already blocked. -/
def NoOvertake (s : AlignerTask T n) : AlignerEvent T n → Prop
  | .poll => s.finished = false → ∀ i ∈ s.polledInput, ∀ e ∈ (s.aligner.inputs i).queue.head?,
      e.barrier?.isSome → s.aligner.barrierReceived i = false
  | _ => True

instance (s : AlignerTask T n) : ∀ ev, Decidable (NoOvertake s ev)
  | .send _ _ => instDecidableTrue
  | .close _ => instDecidableTrue
  | .poll => inferInstanceAs (Decidable (s.finished = false → ∀ i ∈ s.polledInput,
      ∀ e ∈ (s.aligner.inputs i).queue.head?, e.barrier?.isSome →
        s.aligner.barrierReceived i = false))

/-! ## What a run without overtaking keeps -/

/-- The elements of a buffer as outputs, if they belong to segment `j`: the buffer of an input
that has delivered the barriers `bs` belongs to the segment after them. -/
def heldIn (bs : List CheckpointBarrier) (buffer : List (StreamElement T)) (j : ℕ) :
    Multiset (AlignerOutput T) :=
  if bs.length = j then (buffer.map .element : List (AlignerOutput T)) else 0

/-- The buffered elements of input `i` that belong to segment `j`. -/
def held (s : AlignerTask T n) (i : Fin n) (j : ℕ) : Multiset (AlignerOutput T) :=
  heldIn (s.barriersTaken i) (s.aligner.blockedBuffers i) j

theorem heldIn_nil (bs : List CheckpointBarrier) (j : ℕ) : heldIn (T := T) bs [] j = 0 := by
  unfold heldIn; split_ifs <;> rfl

theorem heldIn_append (bs : List CheckpointBarrier) (l m : List (StreamElement T)) (j : ℕ) :
    heldIn bs (l ++ m) j = heldIn bs l j + heldIn bs m j := by
  unfold heldIn
  split_ifs
  · rw [List.map_append, Multiset.coe_add]
  · rw [add_zero]

theorem heldIn_singleton (bs : List CheckpointBarrier) (e : StreamElement T) (j : ℕ) :
    heldIn bs [e] j = if j = bs.length then {.element e} else 0 := by
  unfold heldIn
  by_cases h : bs.length = j
  · rw [if_pos h, if_pos h.symm]; rfl
  · rw [if_neg h, if_neg (Ne.symm h)]

/-- The invariant of a run without overtaking. -/
structure InStep (s : AlignerTask T n) : Prop where
  count : ∀ i, (s.barriersTaken i).length = s.aligned.length + (s.aligner.barrierReceived i).toNat
  pendingNone : s.aligner.pendingBarrier = none → ∀ i, s.aligner.barrierReceived i = false
  pendingSome : ∀ b, s.aligner.pendingBarrier = some b →
    ∃ i, (s.barriersTaken i)[s.aligned.length]? = some b
  alignedFrom : ∀ (k : ℕ) (b : CheckpointBarrier), s.aligned[k]? = some b →
    ∃ i, (s.barriersTaken i)[k]? = some b
  draining : s.aligner.drainIndex < n → ∀ i, s.aligner.barrierReceived i = false
  polling : s.pc ≠ .idle → n ≤ s.aligner.drainIndex
  drained : ∀ i : Fin n, s.aligner.barrierReceived i = false → (i : ℕ) < s.aligner.drainIndex →
    s.aligner.blockedBuffers i = []
  segments : ∀ j, s.outSegment j + ∑ i, s.held i j = ∑ i, inSegment (s.taken i) j

theorem add_sum_eq_of_local {M : Type*} [AddCancelCommMonoid M] {o o' : M} {f f' g g' : Fin n → M}
    (i : Fin n) (hf : ∀ k, k ≠ i → f' k = f k) (hg : ∀ k, k ≠ i → g' k = g k)
    (hloc : o' + f' i + g i = o + f i + g' i) (h : o + ∑ k, f k = ∑ k, g k) :
    o' + ∑ k, f' k = ∑ k, g' k := by
  have e : ∀ u u' : Fin n → M, (∀ k, k ≠ i → u' k = u k) →
      ∑ k, u' k = u' i + ∑ k ∈ Finset.univ.erase i, u k := fun u u' hu => by
    rw [← Finset.add_sum_erase _ _ (Finset.mem_univ i)]
    exact congrArg _ (Finset.sum_congr rfl fun k hk => hu k (Finset.ne_of_mem_erase hk))
  rw [e f f (fun _ _ => rfl), e g g (fun _ _ => rfl)] at h
  rw [e f f' hf, e g g' hg]
  apply add_right_cancel (b := o + f i + g i)
  calc o' + (f' i + ∑ k ∈ Finset.univ.erase i, f k) + (o + f i + g i)
      = (o' + f' i + g i) + (o + (f i + ∑ k ∈ Finset.univ.erase i, f k)) := by abel
    _ = (o + f i + g' i) + (g i + ∑ k ∈ Finset.univ.erase i, g k) := by rw [hloc, h]
    _ = g' i + ∑ k ∈ Finset.univ.erase i, g k + (o + f i + g i) := by abel

theorem outSegment_concat_element (s : AlignerTask T n) (e : StreamElement T) (j : ℕ) :
    ((seg AlignerOutput.barrier? j (s.outputs ++ [.element e]) : List (AlignerOutput T)) :
      Multiset (AlignerOutput T)) =
        s.outSegment j + if j = s.aligned.length then {.element e} else 0 := by
  rw [seg_concat_none (AlignerOutput.barrier?_element e), ← Multiset.coe_add]
  congr 1
  exact apply_ite (fun l : List (AlignerOutput T) => (l : Multiset (AlignerOutput T))) ..

theorem inSegment_concat (l : List (StreamElement T)) {e : StreamElement T} (he : e.barrier? = none)
    (j : ℕ) : inSegment (l ++ [e]) j =
      inSegment l j + if j = (marks StreamElement.barrier? l).length then {.element e} else 0 := by
  unfold inSegment
  rw [seg_concat_none he, List.map_append, ← Multiset.coe_add]
  congr 1
  split_ifs <;> rfl

theorem inSegment_concat_barrier (l : List (StreamElement T)) (b : CheckpointBarrier) (j : ℕ) :
    inSegment (l ++ [.checkpointBarrier b]) j = inSegment l j := by
  unfold inSegment
  rw [seg_concat_some (StreamElement.barrier?_checkpointBarrier b)]

theorem InStep.frame {s s' : AlignerTask T n} (h : InStep s) (ht : s'.taken = s.taken)
    (ho : s'.outputs = s.outputs) (hr : s'.aligner.barrierReceived = s.aligner.barrierReceived)
    (hb : s'.aligner.blockedBuffers = s.aligner.blockedBuffers)
    (hp : s'.aligner.pendingBarrier = s.aligner.pendingBarrier)
    (hd : s'.aligner.drainIndex = s.aligner.drainIndex) (hpc : s'.pc ≠ .idle → s.pc ≠ .idle) :
    InStep s' := by
  have ha : s'.aligned = s.aligned := by unfold aligned; rw [ho]
  have hbt : s'.barriersTaken = s.barriersTaken := by funext i; unfold barriersTaken; rw [ht]
  have hh : s'.held = s.held := by funext i j; unfold held; rw [hbt, hb]
  have hs : s'.outSegment = s.outSegment := by funext j; unfold outSegment; rw [ho]
  refine ⟨?_, ?_, ?_, ?_, ?_, ?_, ?_, ?_⟩
  · rw [hbt, ha, hr]; exact h.count
  · rw [hp, hr]; exact h.pendingNone
  · rw [hp, hbt, ha]; exact h.pendingSome
  · rw [ha, hbt]; exact h.alignedFrom
  · rw [hd, hr]; exact h.draining
  · rw [hd]; exact fun hi => h.polling (hpc hi)
  · rw [hr, hd, hb]; exact h.drained
  · rw [hs, hh, ht]; exact h.segments

theorem InStep.count_of_open {s : AlignerTask T n} (h : InStep s) {i : Fin n}
    (hi : s.aligner.barrierReceived i = false) :
    (s.barriersTaken i).length = s.aligned.length := by
  rw [h.count, hi]; rfl

theorem InStep.buffer_of_open {s : AlignerTask T n} (h : InStep s) (hpc : s.pc ≠ .idle) {i : Fin n}
    (hi : s.aligner.barrierReceived i = false) : s.aligner.blockedBuffers i = [] :=
  h.drained i hi (Nat.lt_of_lt_of_le i.2 (h.polling hpc))

theorem getElem?_receiving {s : AlignerTask T n} {i m : Fin n} {e : StreamElement T}
    {c : Channel (StreamElement T)} (hc : (s.aligner.inputs i).tryRecv = .item e c) {k : ℕ}
    {b : CheckpointBarrier} (h : (s.barriersTaken m)[k]? = some b) :
    ((s.setInput i c).barriersTaken m)[k]? = some b := by
  rw [barriersTaken_receiving hc]
  split_ifs
  · rw [List.getElem?_append_left (List.getElem?_eq_some_iff.mp h).1, h]
  · exact h

theorem InStep.segments_barrier {s : AlignerTask T n} {i : Fin n} {b : CheckpointBarrier}
    {c : Channel (StreamElement T)} (h : InStep s) (hpc : s.pc ≠ .idle)
    (hi : s.aligner.barrierReceived i = false)
    (hc : (s.aligner.inputs i).tryRecv = .item (.checkpointBarrier b) c) (j : ℕ) :
    s.outSegment j + ∑ k, (s.setInput i c).held k j =
      ∑ k, inSegment ((s.setInput i c).taken k) j := by
  have hbuf := h.buffer_of_open hpc hi
  have hin : ∀ k, inSegment ((s.setInput i c).taken k) j = inSegment (s.taken k) j := by
    intro k
    rw [taken_receiving hc]
    split_ifs
    · exact inSegment_concat_barrier _ b j
    · rfl
  have hheld : ∀ k, (s.setInput i c).held k j = s.held k j := by
    intro k
    unfold held
    by_cases hk : k = i
    · subst hk
      change heldIn _ (s.aligner.blockedBuffers k) j = _
      rw [hbuf, heldIn_nil, heldIn_nil]
    · rw [barriersTaken_receiving hc, if_neg hk]; rfl
  simp only [hin, hheld]
  exact h.segments j

theorem InStep.segments_plain {s : AlignerTask T n} {i : Fin n} {e : StreamElement T}
    {c : Channel (StreamElement T)} (h : InStep s) (he : e.barrier? = none)
    (hc : (s.aligner.inputs i).tryRecv = .item e c) {j : ℕ} {o' : Multiset (AlignerOutput T)}
    {f' : Fin n → Multiset (AlignerOutput T)} (hf : ∀ k, k ≠ i → f' k = s.held k j)
    (hloc : o' + f' i = s.outSegment j + s.held i j +
      if j = (s.barriersTaken i).length then {.element e} else 0) :
    o' + ∑ k, f' k = ∑ k, inSegment ((s.setInput i c).taken k) j := by
  refine add_sum_eq_of_local i hf (fun k hk => ?_) ?_ (h.segments j)
  · rw [taken_receiving hc, if_neg hk]
  · rw [taken_receiving hc, if_pos rfl, inSegment_concat _ he, hloc]
    unfold barriersTaken
    abel

section Receives

variable {s s' : AlignerTask T n} {i : Fin n} {e : StreamElement T} {b : CheckpointBarrier}
  {c : Channel (StreamElement T)}

theorem InStep.next_barrier (h : InStep s) (hi : s.aligner.barrierReceived i = false)
    (hc : (s.aligner.inputs i).tryRecv = .item (.checkpointBarrier b) c) :
    ∃ k, ((s.setInput i c).barriersTaken k)[s.aligned.length]? =
      some (s.aligner.pendingBarrier.getD b) := by
  cases hp : s.aligner.pendingBarrier with
  | none =>
    refine ⟨i, ?_⟩
    rw [barriersTaken_receiving hc, if_pos rfl, ← h.count_of_open hi]
    simp
  | some b' =>
    obtain ⟨k, hk⟩ := h.pendingSome b' hp
    exact ⟨k, getElem?_receiving hc hk⟩

theorem barriersTaken_receiving_plain (hc : (s.aligner.inputs i).tryRecv = .item e c)
    (he : e.barrier? = none) (k : Fin n) :
    (s.setInput i c).barriersTaken k = s.barriersTaken k := by
  rw [barriersTaken_receiving hc]
  simp [he]

/-- The last barrier of a checkpoint is received. -/
theorem InStep.aligned (h : InStep s) (hpc : s.pc ≠ .idle)
    (hi : s.aligner.barrierReceived i = false)
    (hc : (s.aligner.inputs i).tryRecv = .item (.checkpointBarrier b) c)
    (hall : ∀ k, k ≠ i → s.aligner.barrierReceived k = true) :
    InStep { s.setInput i c with
      aligner := { (s.setInput i c).aligner with
        barrierReceived := fun _ => false, pendingBarrier := none, drainIndex := 0 }
      pc := .idle
      outputs := s.outputs ++ [.barrierAligned (s.aligner.pendingBarrier.getD b)] } := by
  have hb := barriersTaken_receiving hc
  have hcount : ∀ k, ((s.setInput i c).barriersTaken k).length = s.aligned.length + 1 := by
    intro k
    rw [hb]
    split_ifs with hk
    · subst hk; simp [h.count_of_open hi]
    · have hk' : s.aligner.barrierReceived k = true := hall k hk
      rw [h.count, hk']; rfl
  have hfrom := h.next_barrier hi hc
  refine ⟨fun k => ?_, fun _ _ => rfl, fun b' hb' => (by cases hb'), fun k b' hk => ?_,
    fun _ _ => rfl, fun hne => absurd rfl hne, fun k _ hk => absurd hk (Nat.not_lt_zero _),
    fun j => ?_⟩
  · change ((s.setInput i c).barriersTaken k).length =
      (marks AlignerOutput.barrier? (s.outputs ++ [_])).length + 0
    rw [hcount, aligned_concat_barrier, List.length_append]; rfl
  · change (marks AlignerOutput.barrier? (s.outputs ++ [_]))[k]? = some b' at hk
    change ∃ m, ((s.setInput i c).barriersTaken m)[k]? = some b'
    rw [aligned_concat_barrier, List.getElem?_append] at hk
    split_ifs at hk with hlt
    · obtain ⟨m, hm⟩ := h.alignedFrom k b' hk
      exact ⟨m, getElem?_receiving hc hm⟩
    · obtain ⟨hk0, rfl⟩ : k = s.aligned.length ∧ s.aligner.pendingBarrier.getD b = b' := by
        have := (List.getElem?_eq_some_iff.mp hk).1
        simp only [List.length_singleton] at this
        have hk0 : k = s.aligned.length := by omega
        subst hk0
        simpa using hk
      rw [hk0]; exact hfrom
  · have := h.segments_barrier hpc hi hc j
    unfold outSegment at this ⊢
    rw [seg_concat_some (AlignerOutput.barrier?_barrierAligned _)]
    exact this

/-- Another barrier of a checkpoint is received. -/
theorem InStep.barrier (h : InStep s) (hpc : s.pc ≠ .idle)
    (hi : s.aligner.barrierReceived i = false)
    (hc : (s.aligner.inputs i).tryRecv = .item (.checkpointBarrier b) c) :
    InStep { s.setInput i c with
      aligner := { (s.setInput i c).aligner with
        barrierReceived := Function.update s.aligner.barrierReceived i true
        pendingBarrier := some (s.aligner.pendingBarrier.getD b) }
      pc := .firstPass 0 } := by
  have hb := barriersTaken_receiving hc
  refine ⟨fun k => ?_, fun hn => (by cases hn), fun b' hb' => ?_, fun k b' hk => ?_, fun hd => ?_,
    fun _ => h.polling hpc, fun k hk hlt => ?_, fun j => h.segments_barrier hpc hi hc j⟩
  · change ((s.setInput i c).barriersTaken k).length =
      s.aligned.length + (Function.update s.aligner.barrierReceived i true k).toNat
    rw [hb]
    split_ifs with hk
    · subst hk; simp [h.count_of_open hi]
    · rw [Function.update_of_ne hk]; exact h.count k
  · obtain rfl := Option.some.inj hb'
    exact h.next_barrier hi hc
  · obtain ⟨m, hm⟩ := h.alignedFrom k b' hk
    exact ⟨m, getElem?_receiving hc hm⟩
  · exact absurd (h.polling hpc) (Nat.not_le.mpr hd)
  · have hki : k ≠ i := by rintro rfl; simp at hk
    change Function.update s.aligner.barrierReceived i true k = false at hk
    rw [Function.update_of_ne hki] at hk
    exact h.drained k hk hlt

/-- An element of a blocked input is buffered. -/
theorem InStep.buffered (h : InStep s) (hpc : s.pc ≠ .idle)
    (hc : (s.aligner.inputs i).tryRecv = .item e c) (he : e.barrier? = none)
    (hblocked : s.aligner.barrierReceived i = true) :
    InStep { s.setInput i c with
      aligner := { (s.setInput i c).aligner with
        blockedBuffers :=
          Function.update s.aligner.blockedBuffers i (s.aligner.blockedBuffers i ++ [e]) }
      pc := .firstPass 0 } := by
  have hlen := barriersTaken_receiving_plain hc he
  refine ⟨fun k => ?_, h.pendingNone, fun b' hb' => ?_, fun k b' hk => ?_, fun hd => ?_,
    fun _ => h.polling hpc, fun k hk hlt => ?_, fun j => ?_⟩
  · change ((s.setInput i c).barriersTaken k).length = _
    rw [hlen]; exact h.count k
  · obtain ⟨m, hm⟩ := h.pendingSome b' hb'
    exact ⟨m, getElem?_receiving hc hm⟩
  · obtain ⟨m, hm⟩ := h.alignedFrom k b' hk
    exact ⟨m, getElem?_receiving hc hm⟩
  · exact absurd (h.polling hpc) (Nat.not_le.mpr hd)
  · have hki : k ≠ i := by
      rintro rfl
      exact Bool.noConfusion (hblocked.symm.trans hk)
    change Function.update s.aligner.blockedBuffers i _ k = []
    rw [Function.update_of_ne hki]
    exact h.drained k hk hlt
  · refine h.segments_plain he hc (fun k hk => ?_) ?_
    · change heldIn ((s.setInput i c).barriersTaken k)
        (Function.update s.aligner.blockedBuffers i _ k) j = _
      rw [hlen, Function.update_of_ne hk]; rfl
    · change s.outSegment j + heldIn ((s.setInput i c).barriersTaken i)
        (Function.update s.aligner.blockedBuffers i _ i) j = _
      rw [hlen, Function.update_self, heldIn_append, heldIn_singleton, ← add_assoc]; rfl

theorem InStep.passed (h : InStep s) (hpc : s.pc ≠ .idle)
    (hc : (s.aligner.inputs i).tryRecv = .item e c) (he : e.barrier? = none)
    (hopen : s.aligner.barrierReceived i = false) :
    InStep { s.setInput i c with pc := .idle, outputs := s.outputs ++ [.element e] } := by
  have hlen := barriersTaken_receiving_plain hc he
  have ha : marks AlignerOutput.barrier? (s.outputs ++ [.element e]) = s.aligned :=
    aligned_concat_element s e
  refine ⟨fun k => ?_, h.pendingNone, fun b' hb' => ?_, fun k b' hk => ?_, fun hd => ?_,
    fun _ => h.polling hpc, h.drained, fun j => ?_⟩
  · change ((s.setInput i c).barriersTaken k).length = (marks _ (s.outputs ++ [_])).length + _
    rw [ha, hlen]; exact h.count k
  · change ∃ m, ((s.setInput i c).barriersTaken m)[(marks _ (s.outputs ++ [_])).length]? = _
    obtain ⟨m, hm⟩ := h.pendingSome b' hb'
    rw [ha]; exact ⟨m, getElem?_receiving hc hm⟩
  · change (marks _ (s.outputs ++ [_]))[k]? = _ at hk
    rw [ha] at hk
    obtain ⟨m, hm⟩ := h.alignedFrom k b' hk
    exact ⟨m, getElem?_receiving hc hm⟩
  · exact absurd (h.polling hpc) (Nat.not_le.mpr hd)
  · refine h.segments_plain he hc (fun k _ => ?_) ?_
    · change heldIn ((s.setInput i c).barriersTaken k) (s.aligner.blockedBuffers k) j = _
      rw [hlen]; rfl
    · change ((seg _ j (s.outputs ++ [_]) : List _) : Multiset (AlignerOutput T)) +
        heldIn ((s.setInput i c).barriersTaken i) (s.aligner.blockedBuffers i) j = _
      rw [outSegment_concat_element, h.count_of_open hopen, hlen, add_right_comm]; rfl

theorem InStep.receives (h : InStep s) (hpc : s.pc ≠ .idle)
    (hc : (s.aligner.inputs i).tryRecv = .item e c)
    (hfree : ∀ b, e = .checkpointBarrier b → s.aligner.barrierReceived i = false)
    (hr : Receives (s.setInput i c) i e s') : InStep s' := by
  cases hr with
  | aligned b hall => exact h.aligned hpc (hfree b rfl) hc hall
  | barrier b _ => exact h.barrier hpc (hfree b rfl) hc
  | buffered e he hblocked => exact h.buffered hpc hc he hblocked
  | passed e he hopen => exact h.passed hpc hc he hopen

end Receives

theorem InStep.poll {s : AlignerTask T n} (hcount : Counted s) (h : InStep s)
    (hfree : NoOvertake s .poll) : InStep s.poll := by
  refine poll_rule h fun hfin s' hpoll => ?_
  cases hpoll with
  | wait hpc => exact absurd hpc hcount.multi
  | drain i e rest hpc hi hbuf hskip =>
    have hopen := h.draining (Nat.lt_of_le_of_lt hi i.2)
    have ha : marks AlignerOutput.barrier? (s.outputs ++ [.element e]) = s.aligned :=
      aligned_concat_element s e
    refine ⟨fun k => ?_, h.pendingNone, fun b hb => ?_, fun k b hk => ?_, fun _ => hopen,
      fun hne => absurd hpc hne, fun k hk hlt => ?_, fun j => ?_⟩
    · change _ = (marks _ (s.outputs ++ [_])).length + _
      rw [ha]; exact h.count k
    · change ∃ m, (s.barriersTaken m)[(marks _ (s.outputs ++ [_])).length]? = _
      rw [ha]; exact h.pendingSome b hb
    · change (marks _ (s.outputs ++ [_]))[k]? = _ at hk
      rw [ha] at hk; exact h.alignedFrom k b hk
    · have hki : k ≠ i := fun hki => absurd hlt (by simp [hki])
      change Function.update s.aligner.blockedBuffers i rest k = []
      rw [Function.update_of_ne hki]
      by_cases hd : (k : ℕ) < s.aligner.drainIndex
      · exact h.drained k hk hd
      · exact hskip k (Nat.not_lt.mp hd) hlt
    · refine add_sum_eq_of_local i (fun k hk => ?_) (fun _ _ => rfl) ?_ (h.segments j)
      · change heldIn (s.barriersTaken k) (Function.update s.aligner.blockedBuffers i rest k) j = _
        rw [Function.update_of_ne hk]; rfl
      · change ((seg _ j (s.outputs ++ [_]) : List _) : Multiset (AlignerOutput T)) +
          heldIn (s.barriersTaken i) (Function.update s.aligner.blockedBuffers i rest i) j + _ =
            s.outSegment j + heldIn (s.barriersTaken i) (s.aligner.blockedBuffers i) j + _
        rw [outSegment_concat_element, Function.update_self, hbuf,
          show e :: rest = [e] ++ rest from rfl, heldIn_append, heldIn_singleton,
          h.count_of_open (hopen i)]
        abel
  | drained d hpc hd hskip =>
    refine ⟨h.count, h.pendingNone, h.pendingSome, h.alignedFrom,
      fun hlt => absurd hd (Nat.not_le.mpr hlt), fun _ => hd, fun k hk _ => ?_, h.segments⟩
    by_cases hlt : (k : ℕ) < s.aligner.drainIndex
    · exact h.drained k hk hlt
    · exact hskip k (Nat.not_lt.mp hlt)
  | single i e c hpc => exact absurd hpc hcount.multi
  | skip pc hpc =>
    exact h.frame rfl rfl rfl rfl rfl rfl fun _ => hpc.1
  | receive i e c hpc hin hc =>
    refine h.receives hpc.1 hc (fun b hb => ?_) (receive_cases _ i e)
    subst hb
    exact hfree hfin i hin (.checkpointBarrier b) (by rw [(Channel.tryRecv_item hc).1]; rfl) rfl
  | finish hend => exact h.frame rfl rfl rfl rfl rfl rfl id

theorem InStep.step {s : AlignerTask T n} (hcount : Counted s) (h : InStep s)
    (ev : AlignerEvent T n) (hfree : NoOvertake s ev) : InStep (s.step ev) := by
  cases ev with
  | send i e => exact h.frame (taken_setInput_of_eq Channel.taken_send) rfl rfl rfl rfl rfl id
  | close i => exact h.frame (taken_setInput_of_eq Channel.taken_close) rfl rfl rfl rfl rfl id
  | poll => exact h.poll hcount hfree

theorem inStep_init : InStep (init T n) where
  count _ := rfl
  pendingNone _ _ := rfl
  pendingSome _ hb := by cases hb
  alignedFrom k b hb := by simp [aligned, init] at hb
  draining _ _ := rfl
  polling hpc := absurd rfl hpc
  drained _ _ _ := rfl
  segments j := by
    have h1 : ∀ i, (init T n).held i j = 0 := fun i => heldIn_nil _ j
    have h2 : ∀ i, inSegment ((init T n).taken i) j = 0 := fun i => by
      simp [taken, init, BarrierAligner.new, inSegment]
    simp only [h1, h2, Finset.sum_const_zero, add_zero]
    simp [outSegment, init]

theorem inStep_run (hn : 2 ≤ n) (es : List (AlignerEvent T n))
    (hfree : Runs.Along step NoOvertake (init T n) es) : InStep (run es) :=
  (Runs.exec_invariant_along (P := fun s => Counted s ∧ InStep s)
    (fun _ ev h hq => ⟨h.1.step hn ev, h.2.step h.1 ev hq⟩)
    ⟨counted_init hn, inStep_init⟩ hfree).2

/-! ## What overtaking loses -/

theorem poll_of_polledInput {s : AlignerTask T n} {i : Fin n} {e : StreamElement T}
    {c : Channel (StreamElement T)} (hfin : s.finished = false) (hpc : s.pc ≠ .single)
    (hin : s.polledInput = some i) (hc : (s.aligner.inputs i).tryRecv = .item e c) :
    s.poll = (s.setInput i c).receive i e := by
  have htry : ∀ waiting closed, s.tryRecv i waiting closed = (s.setInput i c).receive i e :=
    fun _ _ => by unfold tryRecv; rw [hc]
  unfold polledInput at hin
  unfold poll
  rw [if_neg (by simp [hfin])]
  cases h : s.pc <;> simp only [h] at hin hpc ⊢
  · cases hin
  · exact absurd rfl hpc
  all_goals
    split_ifs at hin ⊢
    obtain rfl := Option.some.inj hin
    exact htry _ _

theorem overtake_cases {s : AlignerTask T n} {ev : AlignerEvent T n} (hev : ¬ NoOvertake s ev) :
    ev = .poll ∧ s.finished = false ∧ ∃ i, s.polledInput = some i ∧ ∃ b,
      (s.aligner.inputs i).queue.head? = some (.checkpointBarrier b) ∧
        s.aligner.barrierReceived i = true := by
  cases ev with
  | poll =>
    unfold NoOvertake at hev
    push Not at hev
    obtain ⟨hfin, i, hin, e, hq, he, hblocked⟩ := hev
    obtain ⟨b, hb⟩ := Option.isSome_iff_exists.mp he
    rw [StreamElement.barrier?_eq_some.mp hb] at hq
    exact ⟨rfl, hfin, i, hin, b, hq, by simpa using hblocked⟩
  | _ => exact absurd trivial hev

/-- A barrier taken from a blocked input leaves that input ahead by a barrier. -/
theorem ahead_of_overtake {s : AlignerTask T n} (hcount : Counted s) {ev : AlignerEvent T n}
    (hev : ¬ NoOvertake s ev) : ∃ i, (s.step ev).Ahead i 1 := by
  obtain ⟨rfl, hfin, i, hin, b, hq, hblocked⟩ := overtake_cases hev
  have hi : s.aligned.length + 1 + 0 ≤ (s.barriersTaken i).length := by
    simpa [Ahead, hblocked] using hcount.ahead i
  obtain ⟨c, hc⟩ : ∃ c, (s.aligner.inputs i).tryRecv = .item (.checkpointBarrier b) c :=
    Channel.tryRecv_of_head? hq
  have hlen : ((s.setInput i c).barriersTaken i).length = (s.barriersTaken i).length + 1 := by
    rw [barriersTaken_receiving hc, if_pos rfl]; simp
  refine ⟨i, ?_⟩
  change s.poll.Ahead i 1
  rw [poll_of_polledInput hfin hcount.multi hin hc]
  have hr := receive_cases (s.setInput i c) i (.checkpointBarrier b)
  generalize (s.setInput i c).receive i (.checkpointBarrier b) = s' at hr ⊢
  cases hr with
  | aligned b hall =>
    -- every input would be blocked now
    obtain ⟨k, hk⟩ := hcount.someOpen
    by_cases hki : k = i
    · rw [hki, hblocked] at hk; cases hk
    · have hk' : s.aligner.barrierReceived k = true := hall k hki
      rw [hk] at hk'; cases hk'
  | barrier b hopen =>
    change s.aligned.length + (Function.update s.aligner.barrierReceived i true i).toNat + 1 ≤
      ((s.setInput i c).barriersTaken i).length
    rw [Function.update_self, Bool.toNat_true, hlen]
    omega
  | buffered e he => simp at he
  | passed e he => simp at he

/-- Some input has delivered a barrier that no aligned barrier will ever match. -/
def Overtaken (s : AlignerTask T n) : Prop := ∃ i, s.Ahead i 1

theorem overtaken_exec {s : AlignerTask T n} (hn : 2 ≤ n) (hcount : Counted s)
    (es : List (AlignerEvent T n)) (h : Overtaken s) : Overtaken (Runs.exec step s es) := by
  refine (Runs.exec_invariant (P := fun s => Counted s ∧ Overtaken s) (fun s ev hs => ?_)
    ⟨hcount, h⟩ es).2
  obtain ⟨hs, i, hi⟩ := hs
  exact ⟨hs.step hn ev, i, hi.step hs.multi ev⟩

theorem overtaken_run (hn : 2 ≤ n) {es : List (AlignerEvent T n)}
    (h : ¬ Runs.Along step NoOvertake (init T n) es) : Overtaken (run es) := by
  rw [Runs.along_iff_eachStep] at h
  push Not at h
  obtain ⟨pre, ev, post, rfl, hev⟩ := h
  have hcount := counted_run (T := T) hn pre
  have hover : Overtaken ((run pre).step ev) := ahead_of_overtake hcount hev
  unfold run
  rw [Runs.exec_append, Runs.exec_cons]
  exact overtaken_exec hn (hcount.step hn ev) post hover

/-! ## Runs that have received everything -/

theorem InStep.open_of_exhausted {s : AlignerTask T n} (hcount : Counted s) (h : InStep s)
    (hex : Exhausted s) {bs : List CheckpointBarrier}
    (hbs : ∀ i, marks StreamElement.barrier? (s.sent i) = bs) :
    s.aligned.length = bs.length ∧ ∀ i, s.aligner.barrierReceived i = false := by
  have hlen : ∀ i, bs.length = s.aligned.length + (s.aligner.barrierReceived i).toNat := fun i => by
    rw [← h.count i]; unfold barriersTaken; rw [hex.taken_eq, hbs]
  obtain ⟨i, hi⟩ := hcount.someOpen
  have hi' := hlen i
  rw [hi, Bool.toNat_false, add_zero] at hi'
  refine ⟨hi'.symm, fun k => ?_⟩
  have hk := hlen k
  cases hb : s.aligner.barrierReceived k with
  | false => rfl
  | true => rw [hb, Bool.toNat_true] at hk; omega

theorem InStep.cut {s : AlignerTask T n} (hcount : Counted s) (h : InStep s) (hex : Exhausted s)
    {bs : List CheckpointBarrier} (hbs : ∀ i, marks StreamElement.barrier? (s.sent i) = bs) :
    Cut s bs := by
  obtain ⟨hlen, hopen⟩ := h.open_of_exhausted hcount hex hbs
  constructor
  · refine List.ext_getElem? fun k => ?_
    by_cases hk : k < s.aligned.length
    · obtain ⟨i, hi⟩ := h.alignedFrom k _ (List.getElem?_eq_getElem hk)
      unfold barriersTaken at hi
      rw [hex.taken_eq, hbs] at hi
      rw [List.getElem?_eq_getElem hk, hi]
    · rw [List.getElem?_eq_none (by omega), List.getElem?_eq_none (by omega)]
  · intro j
    have hheld : ∀ i, s.held i j = 0 := fun i => by
      unfold held; rw [h.buffer_of_open hex.2 (hopen i), heldIn_nil]
    have := h.segments j
    simp only [hheld, Finset.sum_const_zero, add_zero] at this
    rw [this, hex.taken_eq]

theorem Overtaken.not_cut {s : AlignerTask T n} (h : Overtaken s) (hex : Exhausted s)
    {bs : List CheckpointBarrier} (hbs : ∀ i, marks StreamElement.barrier? (s.sent i) = bs) :
    ¬ Cut s bs := by
  rintro ⟨rfl, -⟩
  obtain ⟨i, hi⟩ := h
  unfold Ahead barriersTaken at hi
  rw [hex.taken_eq, hbs] at hi
  omega

/-! ## The result -/

/-- **When the aligner cuts.** `next` returns `none` in the end, and the inputs are then cut along
`bs` if and only if no barrier was taken from a blocked input. -/
theorem barrierAligner_cut_iff (hn : 2 ≤ n) (es : List (AlignerEvent T n))
    (bs : List CheckpointBarrier)
    (hbs : ∀ i, marks StreamElement.barrier? ((run es).sent i) = bs) :
    (AllClosed (run es) →
      ∃ N, ∀ k, N ≤ k → (run (es ++ List.replicate k .poll)).finished = true) ∧
    ((run es).finished = true → Exhausted (run es)) ∧
    (Exhausted (run es) → (Cut (run es) bs ↔ Runs.Along step NoOvertake (init T n) es)) := by
  have hcount := counted_run (T := T) hn es
  refine ⟨finished_of_allClosed hn es, hcount.exhausted, fun hex => ⟨fun hcut => ?_, fun hfree => ?_⟩⟩
  · by_contra hover
    exact (overtaken_run hn hover).not_cut hex hbs hcut
  · exact (inStep_run hn es hfree).cut hcount hex hbs

/-- Two inputs that carry the barriers 1 and 2, barrier 1 of the second one arriving late: the
second pass of `recv_any` takes barrier 2 of the first input while that input is blocked. -/
def overtakingRun : List (AlignerEvent Unit 2) :=
  [AlignerEvent.send 0 (.checkpointBarrier ⟨1, 0⟩), .send 0 (.checkpointBarrier ⟨2, 0⟩)] ++
  List.replicate 6 AlignerEvent.poll ++
  [AlignerEvent.send 1 (.checkpointBarrier ⟨1, 0⟩), .send 1 (.checkpointBarrier ⟨2, 0⟩), .close 0,
    .close 1] ++ List.replicate 20 AlignerEvent.poll

/-- The run ends with barrier 2 received from both inputs but never aligned. -/
theorem overtakingRun_not_cut :
    (∀ i, marks StreamElement.barrier? ((run overtakingRun).sent i) = [⟨1, 0⟩, ⟨2, 0⟩]) ∧
    (run overtakingRun).finished = true ∧ (run overtakingRun).aligned = [⟨1, 0⟩] ∧
    ¬ Cut (run overtakingRun) [⟨1, 0⟩, ⟨2, 0⟩] := by
  have haligned : (run overtakingRun).aligned = [⟨1, 0⟩] := by decide +kernel
  refine ⟨by decide +kernel, by decide +kernel, haligned, fun hcut => ?_⟩
  exact absurd (haligned.symm.trans hcut.1) (by decide)

/-- Records around the same barriers, barrier 2 of the first input arriving after barrier 1 of the
second. Record 2 is received while its input is blocked. -/
def alignedRun : List (AlignerEvent ℕ 2) :=
  [AlignerEvent.send 0 (.record ⟨1, 5, none⟩), .send 0 (.checkpointBarrier ⟨1, 0⟩),
    .send 0 (.record ⟨2, 6, none⟩)] ++ List.replicate 6 AlignerEvent.poll ++
  [AlignerEvent.send 1 (.record ⟨3, 7, none⟩), .send 1 (.checkpointBarrier ⟨1, 0⟩),
    .send 0 (.checkpointBarrier ⟨2, 0⟩), .send 1 (.record ⟨4, 8, none⟩),
    .send 1 (.checkpointBarrier ⟨2, 0⟩), .send 1 (.record ⟨5, 9, none⟩), .close 0, .close 1] ++
  List.replicate 60 AlignerEvent.poll

theorem alignedRun_cut : Cut (run alignedRun) [⟨1, 0⟩, ⟨2, 0⟩] := by
  have h := barrierAligner_cut_iff le_rfl alignedRun [⟨1, 0⟩, ⟨2, 0⟩] (by decide +kernel)
  exact (h.2.2 (h.2.1 (by decide +kernel))).mpr (by decide +kernel)

end Flume.AlignerTask
