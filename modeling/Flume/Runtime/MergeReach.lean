import Flume.Runtime.MergeWatermark

/-!
# How far the merged watermarks reach

A merger forwards the minimum of the latest watermarks of its inputs when it has grown. If the
watermarks of each input never go down, the latest one is the largest, and what the output reaches
does not depend on the order in which the inputs were read.

* `reported`: the watermarks of one input; **`reaches_of_latest`**: a tracker returns a watermark
  that reaches whatever the latest ones of all inputs reach;
* **`reported_updates`**: the updates of a merger are the watermarks of its inputs, each in order;
* **`reaches_iff`**: when the merger has returned `Ok`, its output reaches what both inputs reach.
-/

namespace Flume

open Channels Runs
open StreamElement (watermark?)

/-- The watermarks of a stream never go down. -/
def StreamElement.WatermarksGrow {T : Type} (es : List (StreamElement T)) : Prop :=
  (es.filterMap watermark?).Pairwise fun a b => a.timestamp ≤ b.timestamp

instance {T : Type} (es : List (StreamElement T)) : Decidable (StreamElement.WatermarksGrow es) := by
  unfold StreamElement.WatermarksGrow; infer_instance

/-! ## A tracker -/

namespace WatermarkTracker

variable {n : ℕ} {us : List (Fin n × Watermark)} {i : Fin n}

/-- The watermarks that an input has reported, in order. -/
def reported (us : List (Fin n × Watermark)) (i : Fin n) : List Watermark :=
  (us.filter fun u => u.1 = i).map Prod.snd

theorem reported_append (us vs : List (Fin n × Watermark)) (i : Fin n) :
    reported (us ++ vs) i = reported us i ++ reported vs i := by
  unfold reported
  rw [List.filter_append, List.map_append]

theorem mem_reported {w : Watermark} : w ∈ reported us i ↔ (i, w) ∈ us := by
  simp [reported]

theorem le_latest (h : (reported us i).Pairwise fun a b => a.timestamp ≤ b.timestamp)
    {w : Watermark} (hw : w ∈ reported us i) : w.timestamp ≤ latest us i := by
  induction us using List.reverseRecOn with
  | nil => cases hw
  | append_singleton us u ih =>
    rw [reported_append, List.pairwise_append] at h
    rw [reported_append, List.mem_append] at hw
    rw [latest_concat]
    by_cases hu : u.1 = i
    · rw [if_pos hu]
      have hlast : reported [u] i = [u.2] := by simp [reported, hu]
      rw [hlast] at h hw
      rcases hw with hw | hw
      · exact h.2.2 w hw u.2 (List.mem_singleton_self _)
      · rw [List.mem_singleton.mp hw]
    · rw [if_neg hu]
      have hlast : reported [u] i = [] := by simp [reported, hu]
      rw [hlast] at hw
      exact ih h.1 (hw.resolve_right List.not_mem_nil)

theorem exists_result (us : List (Fin n × Watermark))
    (h : EventTimestamp.MIN < ((new n).after us).currentWatermark) :
    ∃ m ∈ (new n).results us, m.timestamp = ((new n).after us).currentWatermark := by
  induction us using List.reverseRecOn with
  | nil => exact absurd h (lt_irrefl _)
  | append_singleton us u ih =>
    rw [after_concat] at h ⊢
    rw [results_concat]
    obtain ⟨-, ⟨hnone, hcurrent⟩ | ⟨m, hsome, -, hcurrent, -⟩⟩ :=
      ((new n).after us).update_cases u.1 u.2
    · rw [hcurrent] at h ⊢
      obtain ⟨m, hm, hlast⟩ := ih h
      exact ⟨m, List.mem_append_left _ hm, hlast⟩
    · rw [hsome, hcurrent]
      exact ⟨m, List.mem_append_right _ (List.mem_singleton_self _), rfl⟩

/-- **What the latest watermarks of all inputs reach, a returned one reaches.** -/
theorem reaches_of_latest (hn : 1 ≤ n) (us : List (Fin n × Watermark)) {t : EventTimestamp}
    (ht : EventTimestamp.MIN < t) (h : ∀ i, t ≤ latest us i) :
    ∃ m ∈ (new n).results us, t ≤ m.timestamp := by
  have hleast := isLeast_min hn ((new n).after us).inputWatermarks
  have hlatest : latest us = fun i : Fin n => ((new n).after us).inputWatermarks[i] := by
    funext i
    exact (inputWatermarks_after us i).symm
  rw [← hlatest] at hleast
  obtain ⟨k, hk⟩ := hleast.1
  have hcurrent := (currentWatermark_isGreatest hn us).2 ⟨us, List.prefix_rfl, hleast⟩
  have hreached : t ≤ ((new n).after us).currentWatermark := (h k).trans (hk.le.trans hcurrent)
  obtain ⟨m, hm, hlast⟩ := exists_result us (lt_of_lt_of_le ht hreached)
  exact ⟨m, hm, hreached.trans hlast.ge⟩

end WatermarkTracker

/-! ## The merger -/

namespace TwoInputMerge

open WatermarkTracker (reported reported_append mem_reported le_latest reaches_of_latest)

variable {In1 In2 : Type}

/-- What was taken stays taken. -/
theorem taken_step (s : TwoInputMerge In1 In2) (ev : MergeEvent In1 In2) (i : MergeInput) :
    s.taken i <+: (s.step ev).taken i := by
  have hsend : ∀ t : TwoInputMerge In1 In2, t.input1.taken = s.input1.taken →
      t.input2.taken = s.input2.taken → s.taken i <+: t.taken i := by
    intro t h1 h2
    have htaken : s.taken i = t.taken i := by
      cases i
      · exact congrArg (List.map _) h1.symm
      · exact congrArg (List.map _) h2.symm
    rw [htaken]
  cases ev with
  | send1 e => exact hsend _ Channel.taken_send rfl
  | send2 e => exact hsend _ rfl Channel.taken_send
  | close1 => exact hsend _ rfl rfl
  | close2 => exact hsend _ rfl rfl
  | dropOutput => exact hsend _ rfl rfl
  | poll p =>
    have hstable : Stable fun t : TwoInputMerge In1 In2 => s.taken i <+: t.taken i :=
      ⟨fun _ _ _ _ _ h => by cases i <;> exact h, fun _ _ _ h => by cases i <;> exact h⟩
    have hgrows : ∀ {T : Type} {e : T} {c c' : Channel T}, c.tryRecv = .item e c' →
        c.taken <+: c'.taken := by
      intro T e c c' h
      rw [(Channel.tryRecv_item h).2.1]
      exact List.prefix_append _ _
    refine hstable.poll List.prefix_rfl (fun e c h => ?_) (fun e c h => ?_) p
    · cases i
      · exact (hgrows h).map _
      · exact List.prefix_rfl
    · cases i
      · exact List.prefix_rfl
      · exact (hgrows h).map _

theorem reported_received (s s' : TwoInputMerge In1 In2) (i k : MergeInput) :
    reported (received s s' k) i.index =
      if k = i then ((s'.taken i).drop (s.taken i).length).filterMap watermark? else [] := by
  unfold reported received
  split_ifs with hk
  · subst hk
    rw [List.filter_eq_self.mpr fun u hu => ?_, List.map_map]
    · exact List.map_id _
    · obtain ⟨w, -, rfl⟩ := List.mem_map.mp hu
      exact decide_eq_true rfl
  · rw [List.filter_eq_nil_iff.mpr fun u hu => ?_]
    · rfl
    · obtain ⟨w, -, rfl⟩ := List.mem_map.mp hu
      simpa using fun h => hk (MergeInput.index_injective h)

/-- **The updates of a merger** are the watermarks of its inputs, each in order. -/
theorem reported_updates (es : List (MergeEvent In1 In2)) (i : MergeInput) :
    reported (updates es) i.index = ((run es).taken i).filterMap watermark? := by
  induction es using List.reverseRecOn with
  | nil => cases i <;> rfl
  | append_singleton es ev ih =>
    have hrun : run (es ++ [ev]) = (run es).step ev := exec_concat es ev
    have hupdates : updates (es ++ [ev]) = updates es ++
        (received (run es) ((run es).step ev) .one ++ received (run es) ((run es).step ev) .two) :=
      emitted_concat _ es ev
    obtain ⟨new, hnew⟩ := (run es).taken_step ev i
    rw [hrun, hupdates, reported_append, reported_append, ih, reported_received, reported_received,
      ← hnew, List.drop_left, List.filterMap_append]
    cases i <;> simp

theorem filterMap_watermark?_map {T U : Type} (f : T → U) (l : List (StreamElement T)) :
    (l.map (StreamElement.map f)).filterMap watermark? = l.filterMap watermark? := by
  rw [List.filterMap_map]
  exact List.filterMap_congr fun e _ => by cases e <;> rfl

/-- **What the output reaches:** what both inputs do, if their watermarks never go down. -/
theorem reaches_iff (es : List (MergeEvent In1 In2)) (hres : (run es).result = some (.ok ()))
    (h1 : StreamElement.WatermarksGrow (run es).input1.sent)
    (h2 : StreamElement.WatermarksGrow (run es).input2.sent) {t : EventTimestamp}
    (ht : EventTimestamp.MIN < t) :
    (∃ w ∈ (run es).output.filterMap watermark?, t ≤ w.timestamp) ↔
      (∃ w ∈ (run es).input1.sent.filterMap watermark?, t ≤ w.timestamp) ∧
        ∃ w ∈ (run es).input2.sent.filterMap watermark?, t ≤ w.timestamp := by
  have hok : ¬ Failed (run es) := fun hf => by cases hres.symm.trans hf.1
  obtain ⟨hf, -⟩ | ⟨haligned, htracked⟩ := agrees_run es
  · exact absurd hf hok
  have hclosed := (haligned.returned _ hres).2
  have hsent1 : (run es).input1.sent = (run es).input1.taken :=
    Channel.sent_of_disconnected (haligned.closed .one (hclosed .one)).1
  have hsent2 : (run es).input2.sent = (run es).input2.taken :=
    Channel.sent_of_disconnected (haligned.closed .two (hclosed .two)).1
  have hone : reported (updates es) 0 = (run es).input1.sent.filterMap watermark? := by
    rw [hsent1]
    exact (reported_updates es .one).trans (filterMap_watermark?_map _ _)
  have htwo : reported (updates es) 1 = (run es).input2.sent.filterMap watermark? := by
    rw [hsent2]
    exact (reported_updates es .two).trans (filterMap_watermark?_map _ _)
  rw [htracked.forwarded, ← hone, ← htwo]
  unfold StreamElement.WatermarksGrow at h1 h2
  rw [← hone] at h1
  rw [← htwo] at h2
  constructor
  · rintro ⟨m, hm, hle⟩
    obtain ⟨w1, hw1, hle1⟩ := WatermarkTracker.results_le_received _ hm 0
    obtain ⟨w2, hw2, hle2⟩ := WatermarkTracker.results_le_received _ hm 1
    exact ⟨⟨w1, mem_reported.mpr hw1, hle.trans hle1⟩, ⟨w2, mem_reported.mpr hw2, hle.trans hle2⟩⟩
  · rintro ⟨⟨w1, hw1, hle1⟩, ⟨w2, hw2, hle2⟩⟩
    refine reaches_of_latest (by norm_num) _ ht fun i => ?_
    fin_cases i
    · exact hle1.trans (le_latest h1 hw1)
    · exact hle2.trans (le_latest h2 hw2)

end TwoInputMerge

end Flume
