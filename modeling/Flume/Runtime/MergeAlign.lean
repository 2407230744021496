import Flume.Lib.Segments
import Flume.Runtime.Merge

/-!
# The two-input merger loses nothing and aligns the barriers

* `Aligned`: the invariant. No side buffers anything, since the merger never reads from an input
  whose barrier is pending; an open input has delivered the barriers sent so far and the pending
  one; and segment by segment the output has the records received from each input;
* **`aligned_run`**: every run keeps it until a send fails;
* `Merged`: what the output of a finished merger is;
* **`twoInputMerge_merged`**: the merger returns, and has then merged its inputs.
-/

namespace Flume

open Channels Segments

variable {In1 In2 : Type}

/-- `e` is a record of input `i`. -/
def MergeInput.tags : MergeInput → StreamElement (Either In1 In2) → Bool
  | one, .record ⟨.left _, _, _⟩ => true
  | two, .record ⟨.right _, _, _⟩ => true
  | _, _ => false

theorem MergeInput.eq_or_other (i k : MergeInput) : k = i ∨ k = i.other := by
  cases i <;> cases k <;> simp [other]

theorem MergeInput.other_ne (i : MergeInput) : i.other ≠ i := by cases i <;> simp [other]

@[simp] theorem MergeInput.tags_watermark (i : MergeInput) (w : Watermark) :
    i.tags (.watermark w : StreamElement (Either In1 In2)) = false := by cases i <;> rfl

@[simp] theorem MergeInput.tags_barrier (i : MergeInput) (b : CheckpointBarrier) :
    i.tags (.checkpointBarrier b : StreamElement (Either In1 In2)) = false := by cases i <;> rfl

namespace TwoInputMerge

/-- The barriers received from input `i`. -/
def barriersTaken (s : TwoInputMerge In1 In2) (i : MergeInput) : List CheckpointBarrier :=
  marks StreamElement.barrier? (s.taken i)

/-- The barriers sent. -/
def barriersOut (s : TwoInputMerge In1 In2) : List CheckpointBarrier :=
  marks StreamElement.barrier? s.output

/-- The records of input `i` that follow exactly `j` barriers of a stream. -/
def tagged (i : MergeInput) (l : List (StreamElement (Either In1 In2))) (j : ℕ) :
    List (StreamElement (Either In1 In2)) :=
  (seg StreamElement.barrier? j l).filter i.tags

/-- The invariant of the merger. -/
structure Aligned (s : TwoInputMerge In1 In2) : Prop where
  buffer : ∀ i, (s.side i).buffer = []
  onePending : s.side1.pendingBarrier = none ∨ s.side2.pendingBarrier = none
  openCount : ∀ i, (s.side i).inputOpen = true → (s.barriersTaken i).length =
    s.barriersOut.length + (s.side i).pendingBarrier.isSome.toNat
  closed : ∀ i, (s.side i).inputOpen = false → s.Disconnected i ∧
    (s.side i).pendingBarrier = none ∧ (s.barriersTaken i).length ≤ s.barriersOut.length
  pendingNext : ∀ i b, (s.side i).pendingBarrier = some b →
    (s.barriersTaken i)[s.barriersOut.length]? = some b
  outFrom : ∀ j < s.barriersOut.length,
    s.barriersOut[j]? = (s.barriersTaken .one)[j]?.or (s.barriersTaken .two)[j]?
  covered : ∃ i, s.barriersOut.length ≤ (s.barriersTaken i).length
  segments : ∀ i j, tagged i s.output j = tagged i (s.taken i) j
  returned : ∀ r, s.result = some r → r = .ok () ∧ ∀ i, (s.side i).inputOpen = false

/-! ## Receiving and sending -/

section

variable {s s₁ s' : TwoInputMerge In1 In2} {i : MergeInput} {e : StreamElement (Either In1 In2)}

theorem Takes.taken (h : Takes s i e s₁) (k : MergeInput) :
    s₁.taken k = if k = i then s.taken k ++ [e] else s.taken k := by
  cases h with
  | one e c h =>
    cases k
    · change c.taken.map _ = s.input1.taken.map _ ++ [_]
      rw [(Channel.tryRecv_item h).2.1, List.map_append]; rfl
    · rfl
  | two e c h =>
    cases k
    · rfl
    · change c.taken.map _ = s.input2.taken.map _ ++ [_]
      rw [(Channel.tryRecv_item h).2.1, List.map_append]; rfl

theorem Takes.frame (h : Takes s i e s₁) :
    s₁.side = s.side ∧ s₁.output = s.output ∧ s₁.result = s.result := by
  cases h <;> exact ⟨by funext k; cases k <;> rfl, rfl, rfl⟩

theorem Takes.tags_other (h : Takes s i e s₁) : i.other.tags e = false := by
  cases h with
  | one e => cases e <;> rfl
  | two e => cases e <;> rfl

theorem Takes.not_disconnected (h : Takes s i e s₁) : ¬ s.Disconnected i := by
  intro hd
  cases h with
  | one e c h => have := (Channel.tryRecv_item h).1; rw [hd.2] at this; cases this
  | two e c h => have := (Channel.tryRecv_item h).1; rw [hd.2] at this; cases this

theorem Takes.disconnected (h : Takes s i e s₁) {k : MergeInput} (hk : s.Disconnected k) :
    s₁.Disconnected k := by
  have hne : k ≠ i := by rintro rfl; exact h.not_disconnected hk
  cases h with
  | one => cases k <;> simp_all [Disconnected]
  | two => cases k <;> simp_all [Disconnected]

theorem Takes.barriersTaken (h : Takes s i e s₁) (k : MergeInput) : s₁.barriersTaken k =
    if k = i then s.barriersTaken k ++ e.barrier?.toList else s.barriersTaken k := by
  unfold TwoInputMerge.barriersTaken
  rw [h.taken]
  split_ifs
  · rw [marks_append]
    cases he : e.barrier? <;> simp [marks, he]
  · rfl

theorem tagged_concat (he : e.barrier? = none) (l : List (StreamElement (Either In1 In2))) (j : ℕ) :
    tagged i (l ++ [e]) j = tagged i l j ++
      if j = (marks StreamElement.barrier? l).length ∧ i.tags e then [e] else [] := by
  unfold tagged
  rw [seg_concat_none he, List.filter_append]
  by_cases hj : j = (marks StreamElement.barrier? l).length <;> by_cases ht : i.tags e = true <;>
    simp [hj, ht]

theorem tagged_concat_barrier {b : CheckpointBarrier} (he : e.barrier? = some b)
    (l : List (StreamElement (Either In1 In2))) (j : ℕ) :
    tagged i (l ++ [e]) j = tagged i l j := by
  unfold tagged; rw [seg_concat_some he]

theorem barriersOut_emit (s : TwoInputMerge In1 In2) (e : StreamElement (Either In1 In2)) :
    (s.emit e).barriersOut = s.barriersOut ++ e.barrier?.toList := by
  change marks _ (s.output ++ [e]) = _
  rw [marks_append]
  cases he : e.barrier? <;> simp [marks, barriersOut, he]

@[simp] theorem taken_emit : (s.emit e).taken = s.taken := rfl
@[simp] theorem taken_modifySide (f : MergeSide In1 In2 → MergeSide In1 In2) :
    (s.modifySide i f).taken = s.taken := by cases i <;> rfl
@[simp] theorem disconnected_emit : (s.emit e).Disconnected = s.Disconnected := rfl
@[simp] theorem disconnected_modifySide (f : MergeSide In1 In2 → MergeSide In1 In2) :
    (s.modifySide i f).Disconnected = s.Disconnected := by cases i <;> rfl
@[simp] theorem side_emit : (s.emit e).side = s.side := rfl

/-- A step that leaves barriers, sides and result alone. -/
theorem Aligned.frame (h : Aligned s)
    (hside : ∀ k, (s'.side k).buffer = (s.side k).buffer ∧
      (s'.side k).pendingBarrier = (s.side k).pendingBarrier ∧
      (s'.side k).inputOpen = (s.side k).inputOpen)
    (ht : s'.barriersTaken = s.barriersTaken) (ho : s'.barriersOut = s.barriersOut)
    (hd : ∀ k, s.Disconnected k → s'.Disconnected k) (hres : s'.result = s.result)
    (hseg : ∀ k j, tagged k s'.output j = tagged k (s'.taken k) j) : Aligned s' where
  buffer k := by rw [(hside k).1]; exact h.buffer k
  onePending := by
    have h1 := (hside .one).2.1
    have h2 := (hside .two).2.1
    change s'.side1.pendingBarrier = s.side1.pendingBarrier at h1
    change s'.side2.pendingBarrier = s.side2.pendingBarrier at h2
    rw [h1, h2]; exact h.onePending
  openCount k hk := by
    rw [ht, ho, (hside k).2.1]
    exact h.openCount k ((hside k).2.2.symm.trans hk)
  closed k hk := by
    obtain ⟨h1, h2, h3⟩ := h.closed k ((hside k).2.2.symm.trans hk)
    rw [ht, ho, (hside k).2.1]
    exact ⟨hd k h1, h2, h3⟩
  pendingNext k b hk := by
    rw [ht, ho]
    exact h.pendingNext k b ((hside k).2.1.symm.trans hk)
  outFrom j hj := by rw [ht, ho]; exact h.outFrom j (by rwa [ho] at hj)
  covered := by rw [ht, ho]; exact h.covered
  segments := hseg
  returned r hr := by
    obtain ⟨h1, h2⟩ := h.returned r (hres.symm.trans hr)
    exact ⟨h1, fun k => (hside k).2.2.trans (h2 k)⟩

theorem Aligned.count_of_takes (h : Aligned s) (hpending : (s.side i).pendingBarrier = none)
    (ht : Takes s i e s₁) : (s.side i).inputOpen = true ∧
      (s.barriersTaken i).length = s.barriersOut.length := by
  have hopen : (s.side i).inputOpen = true := by
    cases ho : (s.side i).inputOpen with
    | true => rfl
    | false => exact absurd (h.closed i ho).1 ht.not_disconnected
  refine ⟨hopen, ?_⟩
  rw [h.openCount i hopen, hpending]; rfl

theorem takes_barriersTaken_of_none (ht : Takes s i e s₁) (he : e.barrier? = none) :
    s₁.barriersTaken = s.barriersTaken := by
  funext k
  rw [ht.barriersTaken, he]
  simp

theorem Aligned.segments_plain (h : Aligned s) (hpending : (s.side i).pendingBarrier = none)
    (ht : Takes s i e s₁) (he : e.barrier? = none) {out : List (StreamElement (Either In1 In2))}
    (hout : ∀ k j, tagged k out j = tagged k s.output j ++
      if j = s.barriersOut.length ∧ k.tags e then [e] else []) (k : MergeInput) (j : ℕ) :
    tagged k out j = tagged k (s₁.taken k) j := by
  have hcount := (h.count_of_takes hpending ht).2
  rw [hout, ht.taken, h.segments]
  split_ifs with hj hk hk
  · subst hk
    rw [tagged_concat he, if_pos ⟨hj.1.trans hcount.symm, hj.2⟩]
  · obtain rfl := (i.eq_or_other k).resolve_left hk
    rw [ht.tags_other] at hj
    exact absurd hj.2 (by simp)
  · subst hk
    rw [tagged_concat he, if_neg (by rintro ⟨h1, h2⟩; exact hj ⟨h1.trans hcount, h2⟩)]
  · rw [List.append_nil]

theorem Aligned.take_record (h : Aligned s) (hpending : (s.side i).pendingBarrier = none)
    {r : Record (Either In1 In2)} (ht : Takes s i (.record r) s₁) :
    Aligned (s₁.emit (.record r)) := by
  obtain ⟨hside, hout, hres⟩ := ht.frame
  have hbt : s₁.barriersTaken = s.barriersTaken :=
    takes_barriersTaken_of_none ht (StreamElement.barrier?_record r)
  have hbo : (s₁.emit (.record r)).barriersOut = s.barriersOut := by
    rw [barriersOut_emit]
    simp [barriersOut, hout]
  refine h.frame (fun k => by rw [side_emit, hside]; exact ⟨rfl, rfl, rfl⟩)
    hbt hbo (fun k hk => ht.disconnected hk) hres ?_
  refine h.segments_plain hpending ht rfl fun k j => ?_
  change tagged k (s₁.output ++ [_]) j = _
  rw [hout, tagged_concat rfl]; rfl

theorem advance_output (s : TwoInputMerge In1 In2) (i : MergeInput) (t : EventTimestamp) :
    (s.advance i t).output = s.output ∨
      ∃ w, (s.advance i t).output = s.output ++ [.watermark w] := by
  simp only [advance]
  split_ifs
  · exact .inr ⟨_, congrArg (· ++ _) (output_modifySide s i _)⟩
  · exact .inl (output_modifySide s i _)

theorem advance_frame (s : TwoInputMerge In1 In2) (i : MergeInput) (t : EventTimestamp) :
    (∀ k, ((s.advance i t).side k).buffer = (s.side k).buffer ∧
      ((s.advance i t).side k).pendingBarrier = (s.side k).pendingBarrier ∧
      ((s.advance i t).side k).inputOpen = (s.side k).inputOpen) ∧
    (s.advance i t).taken = s.taken ∧ (s.advance i t).Disconnected = s.Disconnected ∧
    (s.advance i t).result = s.result := by
  simp only [advance]
  split_ifs <;> cases i <;> exact ⟨fun k => by cases k <;> exact ⟨rfl, rfl, rfl⟩, rfl, rfl, rfl⟩

theorem Aligned.take_watermark (h : Aligned s) (hpending : (s.side i).pendingBarrier = none)
    {w : Watermark} (ht : Takes s i (.watermark w) s₁) : Aligned (s₁.advance i w.timestamp) := by
  obtain ⟨hside, hout, hres⟩ := ht.frame
  obtain ⟨hside', htaken', hdis', hres'⟩ := advance_frame s₁ i w.timestamp
  have hmarks : (s₁.advance i w.timestamp).barriersOut = s.barriersOut := by
    unfold barriersOut
    rcases advance_output s₁ i w.timestamp with ho | ⟨w', ho⟩
    · rw [ho, hout]
    · rw [ho, hout, marks_concat_none rfl]
  have htagged : ∀ k j, tagged k (s₁.advance i w.timestamp).output j = tagged k s.output j := by
    intro k j
    rcases advance_output s₁ i w.timestamp with ho | ⟨w', ho⟩
    · rw [ho, hout]
    · rw [ho, hout, tagged_concat rfl, MergeInput.tags_watermark]; simp
  refine h.frame (fun k => by rw [← hside]; exact hside' k) ?_ hmarks ?_ (hres'.trans hres) ?_
  · unfold barriersTaken
    rw [htaken']
    exact takes_barriersTaken_of_none ht rfl
  · intro k hk; rw [hdis']; exact ht.disconnected hk
  · intro k j
    rw [htaken']
    refine h.segments_plain hpending ht rfl (fun k j => ?_) k j
    rw [htagged, MergeInput.tags_watermark]; simp

/-! ## Barriers -/

theorem side_setPending (s : TwoInputMerge In1 In2) (i k : MergeInput)
    (b : Option CheckpointBarrier) : (s.setPending i b).side k =
      if k = i then { s.side k with pendingBarrier := b } else s.side k := by
  cases i <;> cases k <;> rfl

theorem side_setClosed (s : TwoInputMerge In1 In2) (i k : MergeInput) : (s.setClosed i).side k =
    if k = i then { s.side k with inputOpen := false } else s.side k := by
  cases i <;> cases k <;> rfl

theorem onePending_of (h : ∃ i, (s.side i).pendingBarrier = none) :
    s.side1.pendingBarrier = none ∨ s.side2.pendingBarrier = none := by
  obtain ⟨i, hi⟩ := h
  cases i
  · exact .inl hi
  · exact .inr hi

theorem Aligned.open_of_pending (h : Aligned s) {b : CheckpointBarrier}
    (hp : (s.side i).pendingBarrier = some b) : (s.side i).inputOpen = true := by
  cases ho : (s.side i).inputOpen with
  | true => rfl
  | false => rw [(h.closed i ho).2.1] at hp; cases hp

theorem Aligned.segments_barrier (h : Aligned s) {b : CheckpointBarrier}
    (ht : Takes s i e s₁) (he : e.barrier? = some b) (k : MergeInput) (j : ℕ) :
    tagged k s.output j = tagged k (s₁.taken k) j := by
  rw [h.segments, ht.taken]
  split_ifs
  · rw [tagged_concat_barrier he]
  · rfl

theorem Aligned.outFrom_barrier (h : Aligned s) (hpending : (s.side i).pendingBarrier = none)
    (ht : Takes s i e s₁) {j : ℕ} (hj : j < s.barriersOut.length) : s.barriersOut[j]? =
      (s₁.barriersTaken .one)[j]?.or (s₁.barriersTaken .two)[j]? := by
  have hcount := (h.count_of_takes hpending ht).2
  have hsame : ∀ k, (s₁.barriersTaken k)[j]? = (s.barriersTaken k)[j]? := by
    intro k
    rw [ht.barriersTaken]
    split_ifs with hk
    · subst hk; exact List.getElem?_append_left (by omega)
    · rfl
  rw [hsame, hsame]
  exact h.outFrom j hj

theorem length_barriersTaken_le (ht : Takes s i e s₁) (k : MergeInput) :
    (s.barriersTaken k).length ≤ (s₁.barriersTaken k).length := by
  rw [ht.barriersTaken]
  split_ifs
  · rw [List.length_append]; omega
  · exact le_rfl

theorem Aligned.take_barrier (h : Aligned s) (hres : s.result = none)
    (hpending : (s.side i).pendingBarrier = none) {b : CheckpointBarrier}
    (ht : Takes s i (.checkpointBarrier b) s₁)
    (hother : (s.side i.other).pendingBarrier = none) : Aligned (s₁.setPending i (some b)) := by
  obtain ⟨hside, hout, hres'⟩ := ht.frame
  obtain ⟨hopen, hcount⟩ := h.count_of_takes hpending ht
  have hbt : (s₁.setPending i (some b)).barriersTaken = s₁.barriersTaken := by
    unfold barriersTaken setPending; rw [taken_modifySide]
  have hbo : (s₁.setPending i (some b)).barriersOut = s.barriersOut := by
    unfold barriersOut setPending; rw [output_modifySide, hout]
  have hk : ∀ k, (s₁.setPending i (some b)).side k =
      if k = i then { s.side k with pendingBarrier := some b } else s.side k := by
    intro k; rw [side_setPending, hside]
  refine ⟨fun k => ?_, onePending_of ⟨i.other, ?_⟩, fun k hko => ?_, fun k hko => ?_,
    fun k b' hkb => ?_, fun j hj => ?_, ?_, fun k j => ?_, fun r hr => ?_⟩
  · rw [hk]; split_ifs <;> exact h.buffer k
  · rw [hk, if_neg i.other_ne]; exact hother
  · rw [hbt, hbo, ht.barriersTaken, hk]
    split_ifs with hki
    · subst hki
      simp [hcount]
    · rw [hk, if_neg hki] at hko
      exact h.openCount k hko
  · have hki : k ≠ i := by
      rintro rfl
      rw [hk, if_pos rfl] at hko
      rw [hopen] at hko; cases hko
    rw [hk, if_neg hki] at hko ⊢
    obtain ⟨h1, h2, h3⟩ := h.closed k hko
    refine ⟨?_, h2, ?_⟩
    · unfold setPending; rw [disconnected_modifySide]; exact ht.disconnected h1
    · rw [hbt, hbo, ht.barriersTaken, if_neg hki]; exact h3
  · rw [hbt, hbo, ht.barriersTaken]
    by_cases hki : k = i
    · subst hki
      rw [hk, if_pos rfl] at hkb
      obtain rfl := Option.some.inj hkb
      rw [if_pos rfl, ← hcount]
      simp
    · obtain rfl := (i.eq_or_other k).resolve_left hki
      rw [hk, if_neg hki, hother] at hkb; cases hkb
  · rw [hbt, hbo]
    exact h.outFrom_barrier hpending ht (by rwa [hbo] at hj)
  · obtain ⟨k, hk⟩ := h.covered
    exact ⟨k, by rw [hbt, hbo]; exact hk.trans (length_barriersTaken_le ht k)⟩
  · unfold setPending
    rw [output_modifySide, taken_modifySide, hout]
    exact h.segments_barrier ht (StreamElement.barrier?_checkpointBarrier b) k j
  · unfold setPending at hr
    rw [result_modifySide, hres', hres] at hr; cases hr

theorem outFrom_concat {out l m : List CheckpointBarrier} {b : CheckpointBarrier}
    (h : ∀ j < out.length, out[j]? = l[j]?.or m[j]?)
    (hb : l[out.length]?.or m[out.length]? = some b) (j : ℕ) (hj : j < (out ++ [b]).length) :
    (out ++ [b])[j]? = l[j]?.or m[j]? := by
  rw [List.length_append, List.length_singleton] at hj
  by_cases hlt : j < out.length
  · rw [List.getElem?_append_left hlt]; exact h j hlt
  · obtain rfl : j = out.length := by omega
    rw [hb]; simp

theorem Aligned.take_matched (h : Aligned s) (hres : s.result = none)
    (hpending : (s.side i).pendingBarrier = none) {b b' : CheckpointBarrier}
    (ht : Takes s i (.checkpointBarrier b) s₁)
    (hother : (s.side i.other).pendingBarrier = some b') :
    Aligned (((s₁.setPending .one none).setPending .two none).emit
      (.checkpointBarrier (i.first b b'))) := by
  obtain ⟨hside, hout, hres'⟩ := ht.frame
  obtain ⟨hopen, hcount⟩ := h.count_of_takes hpending ht
  have hopen' := h.open_of_pending hother
  have hcount' := h.openCount i.other hopen'
  have hnext := h.pendingNext i.other b' hother
  rw [hother, Option.isSome_some, Bool.toNat_true] at hcount'
  generalize hs' : ((s₁.setPending .one none).setPending .two none).emit
    (.checkpointBarrier (i.first b b')) = s'
  have hbt : s'.barriersTaken = s₁.barriersTaken := by subst hs'; rfl
  have hbo : s'.barriersOut = s.barriersOut ++ [i.first b b'] := by
    subst hs'
    rw [barriersOut_emit]
    simp [barriersOut, setPending, hout]
  have hk : ∀ k, s'.side k = { s.side k with pendingBarrier := none } := by
    intro k; rw [← hside]; subst hs'; cases k <;> rfl
  have hlen : ∀ k, (s₁.barriersTaken k).length = s.barriersOut.length + 1 := by
    intro k
    rw [ht.barriersTaken]
    split_ifs with hki
    · subst hki; simp [hcount]
    · obtain rfl := (i.eq_or_other k).resolve_left hki
      exact hcount'
  have hopen : ∀ k, (s.side k).inputOpen = true := fun k => by
    rcases i.eq_or_other k with rfl | rfl
    · exact hopen
    · exact hopen'
  refine ⟨fun k => ?_, onePending_of ⟨.one, by rw [hk]⟩, fun k hko => ?_, fun k hko => ?_,
    fun k b' hkb => ?_, ?_, ⟨.one, ?_⟩, fun k j => ?_, fun r hr => ?_⟩
  · rw [hk]; exact h.buffer k
  · rw [hbt, hbo, hk, hlen, List.length_append]; rfl
  · rw [hk] at hko
    exact absurd ((hopen k).symm.trans hko) (by simp)
  · rw [hk] at hkb; cases hkb
  · rw [hbt, hbo]
    refine outFrom_concat (fun j hj => h.outFrom_barrier hpending ht hj) ?_
    -- the barrier of the first input is forwarded, whichever of the two came first
    cases i with
    | one => rw [ht.barriersTaken, if_pos rfl, ← hcount]; simp [MergeInput.first]
    | two =>
      change (s.barriersTaken .one)[s.barriersOut.length]? = some b' at hnext
      rw [ht.barriersTaken, if_neg (by simp), hnext]; rfl
  · rw [hbt, hbo, hlen, List.length_append]; rfl
  · have hto : tagged k s'.output j = tagged k s.output j := by
      subst hs'
      change tagged k (s₁.output ++ [_]) j = _
      rw [tagged_concat_barrier (StreamElement.barrier?_checkpointBarrier _), hout]
    rw [hto, h.segments_barrier ht (StreamElement.barrier?_checkpointBarrier b)]
    subst hs'; rfl
  · have : s'.result = none := by subst hs'; exact hres'.trans hres
    rw [this] at hr; cases hr

theorem Aligned.close (h : Aligned s) (hres : s.result = none) (hd : s.Disconnected i)
    (hopen : (s.side i).inputOpen = true)
    (hnone : ∀ k, (s.side k).pendingBarrier = none) : Aligned (s.setClosed i) := by
  have hbt : (s.setClosed i).barriersTaken = s.barriersTaken := by
    unfold barriersTaken setClosed; rw [taken_modifySide]
  have hbo : (s.setClosed i).barriersOut = s.barriersOut := by
    unfold barriersOut setClosed; rw [output_modifySide]
  have hpend : ∀ k, ((s.setClosed i).side k).pendingBarrier = none := fun k => by
    rw [side_setClosed]; split_ifs <;> exact hnone k
  refine ⟨fun k => ?_, onePending_of ⟨i, hpend i⟩, fun k hko => ?_, fun k hko => ?_,
    fun k b' hkb => ?_, ?_, ?_, fun k j => ?_, fun r hr => ?_⟩
  · rw [side_setClosed]; split_ifs <;> exact h.buffer k
  · rw [hbt, hbo, hpend]
    rw [side_setClosed] at hko
    split_ifs at hko
    rw [h.openCount k hko, hnone]
  · refine ⟨?_, hpend k, ?_⟩
    · unfold setClosed
      rw [disconnected_modifySide]
      rw [side_setClosed] at hko
      split_ifs at hko with hki
      · rw [hki]; exact hd
      · exact (h.closed k hko).1
    · rw [hbt, hbo]
      rw [side_setClosed] at hko
      split_ifs at hko with hki
      · rw [hki, h.openCount i hopen, hnone]; rfl
      · exact (h.closed k hko).2.2
  · rw [hpend] at hkb; cases hkb
  · rw [hbt, hbo]; exact h.outFrom
  · rw [hbt, hbo]; exact h.covered
  · unfold setClosed
    rw [output_modifySide, taken_modifySide]; exact h.segments k j
  · unfold setClosed at hr
    rw [result_modifySide, hres] at hr; cases hr

theorem Aligned.closeFlush (h : Aligned s) (hres : s.result = none) (hd : s.Disconnected i)
    (hpending : (s.side i).pendingBarrier = none) {b : CheckpointBarrier}
    (hother : (s.side i.other).pendingBarrier = some b) :
    Aligned (((s.setClosed i).setPending i.other none).emit (.checkpointBarrier b)) := by
  have hopen' := h.open_of_pending hother
  have hcount' := h.openCount i.other hopen'
  have hnext := h.pendingNext i.other b hother
  rw [hother, Option.isSome_some, Bool.toNat_true] at hcount'
  have hle : (s.barriersTaken i).length ≤ s.barriersOut.length := by
    cases ho : (s.side i).inputOpen with
    | true => rw [h.openCount i ho, hpending]; rfl
    | false => exact (h.closed i ho).2.2
  generalize hs' : ((s.setClosed i).setPending i.other none).emit (.checkpointBarrier b) = s'
  have hbt : s'.barriersTaken = s.barriersTaken := by
    subst hs'; unfold barriersTaken setPending setClosed; simp
  have hbo : s'.barriersOut = s.barriersOut ++ [b] := by
    subst hs'
    rw [barriersOut_emit]
    simp [barriersOut, setPending, setClosed]
  have hdis : s'.Disconnected = s.Disconnected := by
    subst hs'; unfold setPending setClosed; simp
  have hki : s'.side i = { s.side i with inputOpen := false } := by
    subst hs'
    rw [side_emit, side_setPending, if_neg i.other_ne.symm, side_setClosed, if_pos rfl]
  have hko : s'.side i.other = { s.side i.other with pendingBarrier := none } := by
    subst hs'
    rw [side_emit, side_setPending, if_pos rfl, side_setClosed, if_neg i.other_ne]
  have hpend : ∀ k, (s'.side k).pendingBarrier = none := fun k => by
    rcases i.eq_or_other k with rfl | rfl
    · rw [hki]; exact hpending
    · rw [hko]
  refine ⟨fun k => ?_, onePending_of ⟨i, hpend i⟩, fun k hopen => ?_, fun k hclosed => ?_,
    fun k b' hkb => ?_, ?_, ⟨i.other, ?_⟩, fun k j => ?_, fun r hr => ?_⟩
  · rcases i.eq_or_other k with rfl | rfl
    · rw [hki]; exact h.buffer k
    · rw [hko]; exact h.buffer i.other
  · rcases i.eq_or_other k with rfl | rfl
    · rw [hki] at hopen; cases hopen
    · rw [hbt, hbo, hpend, hcount', List.length_append]; rfl
  · rcases i.eq_or_other k with rfl | rfl
    · refine ⟨by rw [hdis]; exact hd, hpend k, ?_⟩
      rw [hbt, hbo, List.length_append]; omega
    · rw [hko] at hclosed
      exact absurd (hopen'.symm.trans hclosed) (by simp)
  · rw [hpend] at hkb; cases hkb
  · rw [hbt, hbo]
    refine outFrom_concat h.outFrom ?_
    cases i with
    | one => rw [List.getElem?_eq_none hle]; exact hnext
    | two =>
      change (s.barriersTaken .one)[s.barriersOut.length]? = some b at hnext
      rw [hnext]; rfl
  · rw [hbt, hbo, hcount', List.length_append]; rfl
  · have hto : tagged k s'.output j = tagged k s.output j := by
      subst hs'
      change tagged k (((s.setClosed i).setPending i.other none).output ++ [_]) j = _
      rw [tagged_concat_barrier (StreamElement.barrier?_checkpointBarrier _)]
      simp [setPending, setClosed]
    have htt : s'.taken = s.taken := by subst hs'; simp [setPending, setClosed]
    rw [hto, htt]; exact h.segments k j
  · have : s'.result = none := by subst hs'; simp [setPending, setClosed, emit, hres]
    rw [this] at hr; cases hr

/-! ## Runs -/

/-- A send has failed. -/
def Failed (s : TwoInputMerge In1 In2) : Prop :=
  s.result = some (.error .channelClosed) ∧ s.outputDropped = true

theorem Aligned.poll (h : Aligned s) (preferred : MergeInput) :
    s.outputDropped = true ∧ Failed (s.poll preferred) ∨ Aligned (s.poll preferred) := by
  cases hres : s.result with
  | some r => unfold TwoInputMerge.poll; rw [if_pos (by simp [hres])]; exact .inr h
  | none =>
    have hpoll := poll_cases preferred hres h.buffer h.onePending
    generalize s.poll preferred = s' at hpoll ⊢
    cases hpoll with
    | wait => exact .inr h
    | finish hclosed =>
      exact .inr { h with returned := fun r hr => ⟨(Option.some.inj hr).symm, hclosed⟩ }
    | failed _ herr hdrop hdrop' => exact .inl ⟨hdrop, herr, hdrop'⟩
    | take i e s₁ _ hpending ht hh =>
      have hside := ht.frame.1
      cases hh with
      | record r => exact .inr (h.take_record hpending ht)
      | watermark w => exact .inr (h.take_watermark hpending ht)
      | barrier b hother => exact .inr (h.take_barrier hres hpending ht (by rwa [hside] at hother))
      | matched b b' hother =>
        exact .inr (h.take_matched hres hpending ht (by rwa [hside] at hother))
    | close i hopen hd hnone => exact .inr (h.close hres hd hopen hnone)
    | closeFlush i b hd hpending hother => exact .inr (h.closeFlush hres hd hpending hother)

theorem Aligned.setInputs (h : Aligned s) {c1 : Channel (StreamElement In1)}
    {c2 : Channel (StreamElement In2)} {dropped : Bool} (h1 : c1.taken = s.input1.taken)
    (h2 : c2.taken = s.input2.taken) (hd1 : s.input1.Disconnected → c1.Disconnected)
    (hd2 : s.input2.Disconnected → c2.Disconnected) :
    Aligned { s with input1 := c1, input2 := c2, outputDropped := dropped } := by
  have ht : TwoInputMerge.taken { s with input1 := c1, input2 := c2, outputDropped := dropped } =
      s.taken := by
    funext k
    cases k
    · exact congrArg _ h1
    · exact congrArg _ h2
  refine h.frame (fun k => by cases k <;> exact ⟨rfl, rfl, rfl⟩) ?_ rfl (fun k => ?_) rfl
    (fun k j => ?_)
  · unfold barriersTaken; rw [ht]
  · cases k
    · exact hd1
    · exact hd2
  · rw [ht]; exact h.segments k j

theorem poll_of_returned {r : Except FlumeError Unit} (hres : s.result = some r)
    (preferred : MergeInput) : s.poll preferred = s := by
  unfold TwoInputMerge.poll; rw [if_pos (by simp [hres])]

theorem Failed.step (h : Failed s) (ev : MergeEvent In1 In2) : Failed (s.step ev) := by
  cases ev with
  | poll p =>
    change Failed (s.poll p)
    rw [poll_of_returned h.1]; exact h
  | dropOutput => exact ⟨h.1, rfl⟩
  | _ => exact h

theorem Aligned.step (h : Aligned s) (ev : MergeEvent In1 In2) :
    Failed (s.step ev) ∨ Aligned (s.step ev) := by
  cases ev with
  | send1 e => exact .inr (h.setInputs Channel.taken_send rfl (fun hd => hd.send) id)
  | send2 e => exact .inr (h.setInputs rfl Channel.taken_send id fun hd => hd.send)
  | close1 => exact .inr (h.setInputs Channel.taken_close rfl (fun hd => hd.close) id)
  | close2 => exact .inr (h.setInputs rfl Channel.taken_close id fun hd => hd.close)
  | poll p => exact (h.poll p).imp_left And.right
  | dropOutput => exact .inr (h.setInputs rfl rfl id id)

theorem aligned_init : Aligned (init In1 In2) where
  buffer i := by cases i <;> rfl
  onePending := .inl rfl
  openCount i _ := by cases i <;> rfl
  closed i h := by cases i <;> cases h
  pendingNext i b h := by cases i <;> cases h
  outFrom j hj := absurd hj (Nat.not_lt_zero j)
  covered := ⟨.one, le_rfl⟩
  segments i j := by cases i <;> simp [init, taken]
  returned r hr := by cases hr

/-- **Until a send fails, every run keeps the invariant.** -/
theorem aligned_run (es : List (MergeEvent In1 In2)) : Failed (run es) ∨ Aligned (run es) :=
  Runs.exec_invariant (P := fun s : TwoInputMerge In1 In2 => Failed s ∨ Aligned s)
    (fun _ ev h => h.elim (fun hf => .inl (hf.step ev)) fun ha => ha.step ev)
    (.inr aligned_init) es

/-! ## Closed inputs are worked off -/

/-- Decreases with every round once both inputs are closed. -/
def work (s : TwoInputMerge In1 In2) : ℕ :=
  2 * (s.input1.queue.length + s.input2.queue.length) +
    (s.side1.pendingBarrier.isSome.toNat + s.side2.pendingBarrier.isSome.toNat) +
    (s.side1.inputOpen.toNat + s.side2.inputOpen.toNat)

/-- The invariant of a merger whose inputs are closed and whose output is read. -/
structure Ending (s : TwoInputMerge In1 In2) : Prop where
  aligned : Aligned s
  closed1 : s.input1.closed = true
  closed2 : s.input2.closed = true
  notDropped : s.outputDropped = false

theorem Takes.ending (ht : Takes s i e s₁) :
    s₁.input1.closed = s.input1.closed ∧ s₁.input2.closed = s.input2.closed ∧
    s₁.outputDropped = s.outputDropped ∧ s₁.work + 2 = s.work := by
  cases ht with
  | one e c h =>
    refine ⟨(Channel.tryRecv_item h).2.2, rfl, rfl, ?_⟩
    unfold work
    rw [Channel.length_queue_of_tryRecv h]
    simp only
    omega
  | two e c h =>
    refine ⟨rfl, (Channel.tryRecv_item h).2.2, rfl, ?_⟩
    unfold work
    rw [Channel.length_queue_of_tryRecv h]
    simp only
    omega

theorem Handles.ending (hpending : (s.side i).pendingBarrier = none) (hh : Handles s i e s') :
    s'.input1 = s.input1 ∧ s'.input2 = s.input2 ∧ s'.outputDropped = s.outputDropped ∧
      s'.work ≤ s.work + 1 := by
  cases hh with
  | record r => exact ⟨rfl, rfl, rfl, Nat.le_succ _⟩
  | watermark w =>
    simp only [advance]
    split_ifs <;> cases i <;> exact ⟨rfl, rfl, rfl, Nat.le_succ _⟩
  | barrier b hother =>
    cases i
    · refine ⟨rfl, rfl, rfl, ?_⟩
      change s.side1.pendingBarrier = none at hpending
      simp only [work, setPending, modifySide, hpending]
      simp
      omega
    · refine ⟨rfl, rfl, rfl, ?_⟩
      change s.side2.pendingBarrier = none at hpending
      simp only [work, setPending, modifySide, hpending]
      simp
      omega
  | matched b b' hother =>
    refine ⟨rfl, rfl, rfl, ?_⟩
    simp only [work, setPending, modifySide, emit]
    simp
    omega

theorem Ending.poll (h : Ending s) (preferred : MergeInput) (hres : s.result = none) :
    Ending (s.poll preferred) ∧
      ((s.poll preferred).work < s.work ∨ (s.poll preferred).result = some (.ok ())) := by
  have haligned : Aligned (s.poll preferred) := by
    rcases h.aligned.poll preferred with ⟨hd, -⟩ | ha
    · rw [h.notDropped] at hd; cases hd
    · exact ha
  have hpoll := poll_cases preferred hres h.aligned.buffer h.aligned.onePending
  generalize s.poll preferred = s' at hpoll haligned ⊢
  cases hpoll with
  | wait i hw =>
    cases i
    · exact absurd (h.closed1.symm.trans hw.2) (by simp)
    · exact absurd (h.closed2.symm.trans hw.2) (by simp)
  | finish => exact ⟨⟨haligned, h.closed1, h.closed2, h.notDropped⟩, .inr rfl⟩
  | failed _ _ hdrop => exact absurd (h.notDropped.symm.trans hdrop) (by simp)
  | take i e s₁ _ hpending ht hh =>
    obtain ⟨h1, h2, h3, h4⟩ := ht.ending
    rw [← ht.frame.1] at hpending
    obtain ⟨k1, k2, k3, k4⟩ := hh.ending hpending
    exact ⟨⟨haligned, by rw [k1, h1]; exact h.closed1, by rw [k2, h2]; exact h.closed2,
      by rw [k3, h3]; exact h.notDropped⟩, .inl (by omega)⟩
  | close i hopen =>
    cases i
    · change s.side1.inputOpen = true at hopen
      refine ⟨⟨haligned, h.closed1, h.closed2, h.notDropped⟩, .inl ?_⟩
      simp [work, setClosed, modifySide, hopen]
    · change s.side2.inputOpen = true at hopen
      refine ⟨⟨haligned, h.closed1, h.closed2, h.notDropped⟩, .inl ?_⟩
      simp [work, setClosed, modifySide, hopen]
  | closeFlush i b _ hpending hother =>
    cases i
    · change s.side2.pendingBarrier = some b at hother
      refine ⟨⟨haligned, h.closed1, h.closed2, h.notDropped⟩, .inl ?_⟩
      simp [work, setClosed, setPending, modifySide, MergeInput.other, emit, hother]
      omega
    · change s.side1.pendingBarrier = some b at hother
      refine ⟨⟨haligned, h.closed1, h.closed2, h.notDropped⟩, .inl ?_⟩
      simp [work, setClosed, setPending, modifySide, MergeInput.other, emit, hother]
      omega

/-- Once both inputs are closed and as long as the output is read, the merger returns. -/
theorem returns_of_closed (es : List (MergeEvent In1 In2)) (h1 : (run es).input1.closed = true)
    (h2 : (run es).input2.closed = true) (hdrop : (run es).outputDropped = false) :
    ∃ N, ∀ ps : List MergeInput, N ≤ ps.length →
      (run (es ++ ps.map .poll)).result = some (.ok ()) := by
  have haligned : Aligned (run es) :=
    (aligned_run es).resolve_left fun hf => absurd (hdrop.symm.trans hf.2) (by simp)
  refine ⟨(run es).work + 1, fun ps hps => ?_⟩
  unfold run
  rw [Runs.exec_append]
  refine Runs.exec_reaches Ending (fun s => s.result = some (.ok ()))
    (fun ev => ∃ p, ev = .poll p) work ?_ ?_ ?_ ⟨haligned, h1, h2, hdrop⟩ (fun ev hev => ?_)
    (by rw [List.length_map]; exact hps)
  · rintro s - ⟨p, rfl⟩ hs
    change Ending (s.poll p)
    cases hres : s.result with
    | some r => rw [poll_of_returned hres]; exact hs
    | none => exact (hs.poll p hres).1
  · rintro s - ⟨p, rfl⟩ hs
    change (s.poll p).result = _
    rw [poll_of_returned hs]; exact hs
  · rintro s - ⟨p, rfl⟩ hs hnd
    have hres : s.result = none := by
      cases hr : s.result with
      | none => rfl
      | some r => obtain ⟨rfl, -⟩ := hs.aligned.returned r hr; exact absurd hr hnd
    exact (hs.poll p hres).2
  · obtain ⟨p, -, rfl⟩ := List.mem_map.mp hev
    exact ⟨p, rfl⟩

end

/-! ## The result -/

/-- The record of the first input that an output element carries. -/
def leftRecord? : StreamElement (Either In1 In2) → Option (Record In1)
  | .record ⟨.left value, timestamp, key⟩ => some ⟨value, timestamp, key⟩
  | _ => none

/-- The record of the second input that an output element carries. -/
def rightRecord? : StreamElement (Either In1 In2) → Option (Record In2)
  | .record ⟨.right value, timestamp, key⟩ => some ⟨value, timestamp, key⟩
  | _ => none

/-- **The merged output.** The records of either input are in the output, in order and each after
as many barriers as on its input; there are as many barriers as on the input with more of them,
and the `j`-th one belongs to the checkpoint of the `j`-th one of either input. -/
structure Merged (s : TwoInputMerge In1 In2) : Prop where
  lefts : s.output.filterMap leftRecord? = s.input1.sent.filterMap StreamElement.record?
  rights : s.output.filterMap rightRecord? = s.input2.sent.filterMap StreamElement.record?
  leftsBetween : ∀ j, (seg StreamElement.barrier? j s.output).filterMap leftRecord? =
    (seg StreamElement.barrier? j s.input1.sent).filterMap StreamElement.record?
  rightsBetween : ∀ j, (seg StreamElement.barrier? j s.output).filterMap rightRecord? =
    (seg StreamElement.barrier? j s.input2.sent).filterMap StreamElement.record?
  barrierCount : s.barriersOut.length = max (marks StreamElement.barrier? s.input1.sent).length
    (marks StreamElement.barrier? s.input2.sent).length
  barrierIds : ∀ (j : ℕ) (b : CheckpointBarrier),
    (marks StreamElement.barrier? s.input1.sent)[j]? = some b ∨
      (marks StreamElement.barrier? s.input2.sent)[j]? = some b →
    ∃ b' : CheckpointBarrier, s.barriersOut[j]? = some b' ∧ b'.checkpointId = b.checkpointId

theorem leftRecord?_of_tags {e : StreamElement (Either In1 In2)}
    (h : MergeInput.one.tags e = false) : leftRecord? e = none := by
  rcases e with ⟨⟨_ | _, _, _⟩⟩ | _ | _ <;> first | rfl | cases h

theorem rightRecord?_of_tags {e : StreamElement (Either In1 In2)}
    (h : MergeInput.two.tags e = false) : rightRecord? e = none := by
  rcases e with ⟨⟨_ | _, _, _⟩⟩ | _ | _ <;> first | rfl | cases h

theorem filterMap_leftRecord?_map (l : List (StreamElement In1)) :
    (l.map (StreamElement.map (.left : In1 → Either In1 In2))).filterMap leftRecord? =
      l.filterMap StreamElement.record? := by
  rw [List.filterMap_map]
  exact List.filterMap_congr fun e _ => by cases e <;> rfl

theorem filterMap_rightRecord?_map (l : List (StreamElement In2)) :
    (l.map (StreamElement.map (.right : In2 → Either In1 In2))).filterMap rightRecord? =
      l.filterMap StreamElement.record? := by
  rw [List.filterMap_map]
  exact List.filterMap_congr fun e _ => by cases e <;> rfl

variable {s : TwoInputMerge In1 In2}

theorem Aligned.leftsBetween (h : Aligned s) (j : ℕ) :
    (seg StreamElement.barrier? j s.output).filterMap leftRecord? =
      (seg StreamElement.barrier? j s.input1.taken).filterMap StreamElement.record? := by
  have hseg : (seg _ j s.output).filter _ = (seg _ j (s.input1.taken.map _)).filter _ :=
    h.segments .one j
  rw [← filterMap_filter_of_none (fun _ => leftRecord?_of_tags), hseg,
    filterMap_filter_of_none (fun _ => leftRecord?_of_tags),
    seg_map (StreamElement.barrier?_map _), filterMap_leftRecord?_map]

theorem Aligned.rightsBetween (h : Aligned s) (j : ℕ) :
    (seg StreamElement.barrier? j s.output).filterMap rightRecord? =
      (seg StreamElement.barrier? j s.input2.taken).filterMap StreamElement.record? := by
  have hseg : (seg _ j s.output).filter _ = (seg _ j (s.input2.taken.map _)).filter _ :=
    h.segments .two j
  rw [← filterMap_filter_of_none (fun _ => rightRecord?_of_tags), hseg,
    filterMap_filter_of_none (fun _ => rightRecord?_of_tags),
    seg_map (StreamElement.barrier?_map _), filterMap_rightRecord?_map]

theorem barriersTaken_one : s.barriersTaken .one = marks StreamElement.barrier? s.input1.taken :=
  marks_map (StreamElement.barrier?_map _) _

theorem barriersTaken_two : s.barriersTaken .two = marks StreamElement.barrier? s.input2.taken :=
  marks_map (StreamElement.barrier?_map _) _

theorem Aligned.barriersOut_eq (h : Aligned s) (hle : ∀ i, (s.barriersTaken i).length ≤
    s.barriersOut.length) (j : ℕ) :
    s.barriersOut[j]? = (s.barriersTaken .one)[j]?.or (s.barriersTaken .two)[j]? := by
  by_cases hj : j < s.barriersOut.length
  · exact h.outFrom j hj
  · rw [List.getElem?_eq_none (Nat.not_lt.mp hj),
      List.getElem?_eq_none ((hle .one).trans (Nat.not_lt.mp hj)),
      List.getElem?_eq_none ((hle .two).trans (Nat.not_lt.mp hj))]
    rfl

theorem Aligned.merged (h : Aligned s) (hres : s.result = some (.ok ()))
    (hids : ∀ (j : ℕ) (b1 b2 : CheckpointBarrier),
      (marks StreamElement.barrier? s.input1.sent)[j]? = some b1 →
      (marks StreamElement.barrier? s.input2.sent)[j]? = some b2 →
      b1.checkpointId = b2.checkpointId) : Merged s := by
  have hclosed := (h.returned _ hres).2
  have h1 : s.input1.sent = s.input1.taken :=
    Channel.sent_of_disconnected (h.closed .one (hclosed .one)).1
  have h2 : s.input2.sent = s.input2.taken :=
    Channel.sent_of_disconnected (h.closed .two (hclosed .two)).1
  have hle := fun i => (h.closed i (hclosed i)).2.2
  have hout := h.barriersOut_eq hle
  rw [h1, h2] at hids
  simp only [barriersTaken_one, barriersTaken_two] at hout
  refine ⟨?_, ?_, by rw [h1]; exact h.leftsBetween, by rw [h2]; exact h.rightsBetween, ?_,
    fun j b hb => ?_⟩
  · rw [h1]
    refine filterMap_eq_of_seg (fun e he => ?_) (fun e he => ?_) h.leftsBetween <;>
      cases e <;> first | rfl | cases he
  · rw [h2]
    refine filterMap_eq_of_seg (fun e he => ?_) (fun e he => ?_) h.rightsBetween <;>
      cases e <;> first | rfl | cases he
  · have hle1 := hle .one
    have hle2 := hle .two
    rw [barriersTaken_one] at hle1
    rw [barriersTaken_two] at hle2
    rw [h1, h2]
    refine le_antisymm ?_ (max_le hle1 hle2)
    obtain ⟨i, hi⟩ := h.covered
    cases i
    · rw [barriersTaken_one] at hi; exact hi.trans (le_max_left ..)
    · rw [barriersTaken_two] at hi; exact hi.trans (le_max_right ..)
  · rw [h1, h2] at hb
    rw [hout]
    cases hj : (marks StreamElement.barrier? s.input1.taken)[j]? with
    | none =>
      rw [hj] at hb
      exact ⟨b, by simpa using hb, rfl⟩
    | some b1 =>
      refine ⟨b1, rfl, ?_⟩
      rcases hb with hb | hb
      · rw [hj] at hb; rw [Option.some.inj hb]
      · exact hids j b1 b hj hb

/-- **The merger loses nothing and aligns the barriers.** It returns once both inputs are closed, as
long as its output is read. -/
theorem twoInputMerge_merged (es : List (MergeEvent In1 In2))
    (hids : ∀ (j : ℕ) (b1 b2 : CheckpointBarrier),
      (marks StreamElement.barrier? (run es).input1.sent)[j]? = some b1 →
      (marks StreamElement.barrier? (run es).input2.sent)[j]? = some b2 →
      b1.checkpointId = b2.checkpointId) :
    ((run es).input1.closed = true → (run es).input2.closed = true →
      (run es).outputDropped = false → ∃ N, ∀ ps : List MergeInput, N ≤ ps.length →
        (run (es ++ ps.map .poll)).result = some (.ok ())) ∧
    ((run es).result = some (.ok ()) → Merged (run es)) := by
  refine ⟨returns_of_closed es, fun hres => ?_⟩
  rcases aligned_run es with hf | h
  · exact absurd (hres.symm.trans hf.1) (by simp)
  · exact h.merged hres hids

/-- Two barriers against one, with records between them. -/
def mergingRun : List (MergeEvent ℕ ℕ) :=
  [.send1 (.checkpointBarrier ⟨1, 0⟩), .send1 (.record ⟨10, 5, none⟩),
    .send2 (.record ⟨20, 3, none⟩), .poll .one, .poll .two, .send2 (.checkpointBarrier ⟨1, 7⟩),
    .poll .one, .close2, .send1 (.checkpointBarrier ⟨2, 0⟩), .close1] ++
  List.replicate 8 (.poll .one)

theorem mergingRun_merged : Merged (run mergingRun) := by
  refine (twoInputMerge_merged mergingRun fun j b1 b2 h1 h2 => ?_).2 (by decide +kernel)
  have e1 : marks StreamElement.barrier? (run mergingRun).input1.sent = [⟨1, 0⟩, ⟨2, 0⟩] := by
    decide +kernel
  have e2 : marks StreamElement.barrier? (run mergingRun).input2.sent = [⟨1, 7⟩] := by
    decide +kernel
  rw [e1] at h1
  rw [e2] at h2
  match j with
  | 0 =>
    obtain rfl := Option.some.inj h1
    obtain rfl := Option.some.inj h2
    rfl
  | j + 1 => cases h2

end TwoInputMerge

end Flume
