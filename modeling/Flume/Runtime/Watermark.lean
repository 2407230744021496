import Flume.Core.Record
import Flume.Lib.Runs

/-!
# Watermark tracking

* `WatermarkTracker`: one watermark for each input, and the last one emitted;
* `results`: what a sequence of updates returns;
* **`results_increasing`**: the watermarks returned increase;
* **`results_le_received`**: every input has announced a watermark that is at least as late as each
  of them;
* `latest`, `largest`: the latest and the largest watermark of an input; `minima`: the minimum of
  the latest ones, for each prefix;
* **`currentWatermark_isGreatest`**: the current watermark is the greatest of the minima.
-/

namespace Flume

open Runs

/-- Tracks the watermarks of `numInputs` inputs. -/
structure WatermarkTracker (numInputs : ℕ) where
  inputWatermarks : Vector EventTimestamp numInputs
  currentWatermark : EventTimestamp

namespace WatermarkTracker

variable {n : ℕ}

/-- A tracker that has seen no watermark. -/
def new (numInputs : ℕ) : WatermarkTracker numInputs where
  inputWatermarks := Vector.replicate numInputs EventTimestamp.MIN
  currentWatermark := EventTimestamp.MIN

/-- Updates the watermark of one input; returns the minimum if it has advanced. -/
def update (t : WatermarkTracker n) (inputIndex : Fin n) (watermark : Watermark) :
    Option Watermark × WatermarkTracker n :=
  let inputWatermarks := t.inputWatermarks.set inputIndex watermark.timestamp
  let newMin := inputWatermarks.toList.min?.getD EventTimestamp.MIN
  if newMin > t.currentWatermark then (some ⟨newMin⟩, ⟨inputWatermarks, newMin⟩)
  else (none, { t with inputWatermarks := inputWatermarks })

/-- The tracker after an update. -/
def updated (t : WatermarkTracker n) (u : Fin n × Watermark) : WatermarkTracker n :=
  (t.update u.1 u.2).2

/-- The tracker after a sequence of updates. -/
def after (t : WatermarkTracker n) (us : List (Fin n × Watermark)) : WatermarkTracker n :=
  exec updated t us

/-- The watermarks that a sequence of updates returns. -/
def results (t : WatermarkTracker n) (us : List (Fin n × Watermark)) : List Watermark :=
  emitted updated (fun t u => (t.update u.1 u.2).1.toList) t us

theorem after_concat (t : WatermarkTracker n) (us : List (Fin n × Watermark))
    (u : Fin n × Watermark) : t.after (us ++ [u]) = ((t.after us).update u.1 u.2).2 :=
  exec_concat us u

theorem results_concat (t : WatermarkTracker n) (us : List (Fin n × Watermark))
    (u : Fin n × Watermark) :
    t.results (us ++ [u]) = t.results us ++ ((t.after us).update u.1 u.2).1.toList :=
  emitted_concat t us u

theorem min_le (watermarks : Vector EventTimestamp n) (k : Fin n) :
    watermarks.toList.min?.getD EventTimestamp.MIN ≤ watermarks[k] := by
  have hmem : watermarks[k] ∈ watermarks.toList := by
    rw [Vector.mem_toList_iff]
    exact Vector.getElem_mem k.isLt
  cases hmin : watermarks.toList.min? with
  | none => rw [List.min?_eq_none_iff.mp hmin] at hmem; cases hmem
  | some m => exact (List.min?_eq_some_iff.mp hmin).2 _ hmem

theorem update_cases (t : WatermarkTracker n) (i : Fin n) (w : Watermark) :
    (t.update i w).2.inputWatermarks = t.inputWatermarks.set i w.timestamp ∧
      ((t.update i w).1 = none ∧ (t.update i w).2.currentWatermark = t.currentWatermark ∨
        ∃ m, (t.update i w).1 = some m ∧ t.currentWatermark < m.timestamp ∧
          (t.update i w).2.currentWatermark = m.timestamp ∧
          ∀ k : Fin n, m.timestamp ≤ (t.update i w).2.inputWatermarks[k]) := by
  unfold update
  dsimp only
  split_ifs with h
  · exact ⟨rfl, .inr ⟨_, rfl, h, rfl, min_le _⟩⟩
  · exact ⟨rfl, .inl ⟨rfl, rfl⟩⟩

theorem results_increasing_le (us : List (Fin n × Watermark)) :
    ((new n).results us).Pairwise (fun a b => a.timestamp < b.timestamp) ∧
      ∀ m ∈ (new n).results us, m.timestamp ≤ ((new n).after us).currentWatermark := by
  induction us using List.reverseRecOn with
  | nil =>
    refine ⟨List.Pairwise.nil, fun m hm => ?_⟩
    cases hm
  | append_singleton us u ih =>
    obtain ⟨hincreasing, hle⟩ := ih
    rw [results_concat, after_concat]
    obtain ⟨-, ⟨hnone, hcurrent⟩ | ⟨m, hsome, hlt, hcurrent, -⟩⟩ :=
      ((new n).after us).update_cases u.1 u.2
    · rw [hnone, hcurrent, Option.toList_none, List.append_nil]
      exact ⟨hincreasing, hle⟩
    · rw [hsome, hcurrent, Option.toList_some, List.pairwise_append]
      refine ⟨⟨hincreasing, List.pairwise_singleton _ _, ?_⟩, ?_⟩
      · intro a ha b hb
        obtain rfl := List.mem_singleton.mp hb
        exact lt_of_le_of_lt (hle a ha) hlt
      · intro a ha
        rcases List.mem_append.mp ha with ha | ha
        · exact (hle a ha).trans hlt.le
        · rw [List.mem_singleton.mp ha]

/-- **The watermarks returned increase strictly.** -/
theorem results_increasing (us : List (Fin n × Watermark)) :
    ((new n).results us).Pairwise fun a b => a.timestamp < b.timestamp :=
  (results_increasing_le us).1

theorem inputWatermarks_received (us : List (Fin n × Watermark)) (i : Fin n) :
    ((new n).after us).inputWatermarks[i] = EventTimestamp.MIN ∨
      (i, ⟨((new n).after us).inputWatermarks[i]⟩) ∈ us := by
  induction us using List.reverseRecOn with
  | nil => exact .inl (Vector.getElem_replicate i.isLt)
  | append_singleton us u ih =>
    rw [after_concat, (((new n).after us).update_cases u.1 u.2).1]
    by_cases hi : u.1 = i
    · right
      subst hi
      simp
    · have hval : u.1.val ≠ i.val := fun h => hi (Fin.ext h)
      have hsame : (((new n).after us).inputWatermarks.set u.1 u.2.timestamp)[i] =
          ((new n).after us).inputWatermarks[i] := Vector.getElem_set_ne _ _ hval
      rw [hsame]
      exact ih.imp_right (List.mem_append_left _)

/-- **Each watermark returned is covered by one of every input.** -/
theorem results_le_received (us : List (Fin n × Watermark)) {m : Watermark}
    (hm : m ∈ (new n).results us) (i : Fin n) :
    ∃ w, (i, w) ∈ us ∧ m.timestamp ≤ w.timestamp := by
  induction us using List.reverseRecOn with
  | nil => cases hm
  | append_singleton us u ih =>
    have hearlier : m ∈ (new n).results us → ∃ w, (i, w) ∈ us ++ [u] ∧
        m.timestamp ≤ w.timestamp := by
      intro h
      obtain ⟨w, hw, hle⟩ := ih h
      exact ⟨w, List.mem_append_left _ hw, hle⟩
    rw [results_concat] at hm
    have hreceived := inputWatermarks_received (us ++ [u]) i
    rw [after_concat] at hreceived
    obtain ⟨-, ⟨hnone, -⟩ | ⟨m', hsome, hlt, -, hle⟩⟩ :=
      ((new n).after us).update_cases u.1 u.2
    · rw [hnone, Option.toList_none, List.append_nil] at hm
      exact hearlier hm
    · rw [hsome, Option.toList_some] at hm
      rcases List.mem_append.mp hm with hm | hm
      · exact hearlier hm
      · obtain rfl := List.mem_singleton.mp hm
        -- the stored watermark is not the initial one, which is not later than the current one
        rcases hreceived with hmin | hmem
        · have hzero := hle i
          rw [hmin] at hzero
          exact absurd (lt_of_lt_of_le hlt hzero) (Fin.not_lt_zero _)
        · exact ⟨_, hmem, hle i⟩

/-! ## What the tracker holds -/

/-- The latest watermark an input has reported. -/
def latest (us : List (Fin n × Watermark)) (i : Fin n) : EventTimestamp :=
  ((us.reverse.find? fun u => u.1 = i).map fun u => u.2.timestamp).getD EventTimestamp.MIN

/-- The largest watermark an input has reported. -/
def largest (us : List (Fin n × Watermark)) (i : Fin n) : EventTimestamp :=
  ((us.filter fun u => u.1 = i).map fun u => u.2.timestamp).foldr max EventTimestamp.MIN

theorem latest_concat (us : List (Fin n × Watermark)) (u : Fin n × Watermark) (i : Fin n) :
    latest (us ++ [u]) i = if u.1 = i then u.2.timestamp else latest us i := by
  unfold latest
  rw [List.reverse_append, List.reverse_singleton, List.singleton_append, List.find?_cons]
  by_cases h : u.1 = i <;> simp [h]

theorem inputWatermarks_after (us : List (Fin n × Watermark)) (i : Fin n) :
    ((new n).after us).inputWatermarks[i] = latest us i := by
  induction us using List.reverseRecOn with
  | nil => exact Vector.getElem_replicate i.isLt
  | append_singleton us u ih =>
    rw [after_concat, (((new n).after us).update_cases u.1 u.2).1, latest_concat]
    change (((new n).after us).inputWatermarks.set u.1.val u.2.timestamp)[i.val] = _
    rw [Vector.getElem_set]
    simp only [Fin.val_inj]
    split_ifs
    · rfl
    · exact ih

theorem min_le_all (t : EventTimestamp) : EventTimestamp.MIN ≤ t := Fin.zero_le _

theorem largest_le_iff {us : List (Fin n × Watermark)} {i : Fin n} {b : EventTimestamp} :
    largest us i ≤ b ↔ ∀ u ∈ us, u.1 = i → u.2.timestamp ≤ b := by
  unfold largest
  induction us with
  | nil => simp [min_le_all]
  | cons u us ih =>
    rw [List.forall_mem_cons, ← ih]
    by_cases h : u.1 = i <;> simp [h]

theorem latest_le_largest (us : List (Fin n × Watermark)) (i : Fin n) :
    latest us i ≤ largest us i := by
  unfold latest
  cases hfind : us.reverse.find? fun u => u.1 = i with
  | none => exact min_le_all _
  | some u =>
    have hmem : u ∈ us := List.mem_reverse.mp (List.mem_of_find?_eq_some hfind)
    have hi : u.1 = i := by simpa using List.find?_some hfind
    exact largest_le_iff.mp le_rfl u hmem hi

theorem largest_mono {us vs : List (Fin n × Watermark)} (h : us ⊆ vs) (i : Fin n) :
    largest us i ≤ largest vs i :=
  largest_le_iff.mpr fun u hu => largest_le_iff.mp le_rfl u (h hu)

theorem isLeast_min (hn : 1 ≤ n) (watermarks : Vector EventTimestamp n) :
    IsLeast (Set.range fun i : Fin n => watermarks[i])
      (watermarks.toList.min?.getD EventTimestamp.MIN) := by
  refine ⟨?_, by rintro _ ⟨i, rfl⟩; exact min_le watermarks i⟩
  cases hmin : watermarks.toList.min? with
  | none =>
    have hlen := congrArg List.length (List.min?_eq_none_iff.mp hmin)
    rw [Vector.length_toList] at hlen
    exact absurd hlen (Nat.ne_of_gt hn)
  | some m =>
    have hmem := Vector.mem_toList_iff.mp (List.min?_eq_some_iff.mp hmin).1
    obtain ⟨i, hi, hm⟩ := Vector.getElem_of_mem hmem
    exact ⟨⟨i, hi⟩, hm⟩

theorem currentWatermark_update (t : WatermarkTracker n) (i : Fin n) (w : Watermark) :
    (t.update i w).2.currentWatermark = max t.currentWatermark
      ((t.update i w).2.inputWatermarks.toList.min?.getD EventTimestamp.MIN) := by
  unfold update
  dsimp only
  split_ifs with h
  · exact (max_eq_right h.le).symm
  · exact (max_eq_left (not_lt.mp h)).symm

/-- The minimum over the inputs of the latest watermarks, for each prefix of the updates. -/
def minima (us : List (Fin n × Watermark)) : Set EventTimestamp :=
  {m | ∃ pre, pre <+: us ∧ IsLeast (Set.range (latest pre)) m}

/-- **The current watermark** is the largest minimum so far. -/
theorem currentWatermark_isGreatest (hn : 1 ≤ n) (us : List (Fin n × Watermark)) :
    IsGreatest (minima us) ((new n).after us).currentWatermark := by
  have hmin : ∀ us, IsLeast (Set.range (latest us))
      (((new n).after us).inputWatermarks.toList.min?.getD EventTimestamp.MIN) := by
    intro us
    have hlatest : latest us = fun i : Fin n => ((new n).after us).inputWatermarks[i] := by
      funext i
      exact (inputWatermarks_after us i).symm
    rw [hlatest]
    exact isLeast_min hn _
  induction us using List.reverseRecOn with
  | nil =>
    have hstart : IsLeast (Set.range (latest ([] : List (Fin n × Watermark)))) EventTimestamp.MIN :=
      ⟨⟨⟨0, hn⟩, rfl⟩, fun t _ => min_le_all t⟩
    refine ⟨⟨[], List.prefix_rfl, hstart⟩, ?_⟩
    rintro m ⟨pre, hpre, hleast⟩
    rw [List.prefix_nil.mp hpre] at hleast
    exact (hleast.unique hstart).le
  | append_singleton us u ih =>
    have hnow := hmin (us ++ [u])
    obtain ⟨⟨pre, hpre, hleast⟩, hgreatest⟩ := ih
    rw [after_concat] at hnow ⊢
    rw [currentWatermark_update]
    constructor
    · rcases max_choice ((new n).after us).currentWatermark
        ((((new n).after us).update u.1 u.2).2.inputWatermarks.toList.min?.getD
          EventTimestamp.MIN) with h | h
      · rw [h]
        exact ⟨pre, hpre.trans (List.prefix_append _ _), hleast⟩
      · rw [h]
        exact ⟨us ++ [u], List.prefix_rfl, hnow⟩
    · rintro m ⟨pre', hpre', hleast'⟩
      rcases List.prefix_concat_iff.mp hpre' with rfl | hbefore
      · rw [hleast'.unique hnow]
        exact le_max_right _ _
      · exact (hgreatest ⟨pre', hbefore, hleast'⟩).trans (le_max_left _ _)

/-- **The tracker of one or more inputs.** -/
theorem tracker_spec (hn : 1 ≤ n) (us : List (Fin n × Watermark)) :
    ((new n).results us).Pairwise (fun a b => a.timestamp < b.timestamp) ∧
      IsGreatest (minima us) ((new n).after us).currentWatermark ∧
      ∀ i, ((new n).after us).currentWatermark ≤ largest us i := by
  have hgreatest := currentWatermark_isGreatest hn us
  refine ⟨results_increasing us, hgreatest, fun i => ?_⟩
  obtain ⟨⟨pre, hpre, hleast⟩, -⟩ := hgreatest
  calc ((new n).after us).currentWatermark ≤ latest pre i := hleast.2 ⟨i, rfl⟩
    _ ≤ largest pre i := latest_le_largest pre i
    _ ≤ largest us i := largest_mono hpre.subset i

/-- Two inputs, of which the second one regresses: the minima are 0, 3, 2 and 4. -/
theorem regressing_spec :
    ((new 2).after [(0, ⟨5⟩), (1, ⟨3⟩), (1, ⟨2⟩), (1, ⟨4⟩)]).currentWatermark = 4 ∧
      IsGreatest (minima [((0 : Fin 2), ⟨5⟩), (1, ⟨3⟩), (1, ⟨2⟩), (1, ⟨4⟩)]) 4 ∧
      largest [((0 : Fin 2), ⟨5⟩), (1, ⟨3⟩), (1, ⟨2⟩), (1, ⟨4⟩)] 1 = 4 := by
  have hspec := tracker_spec (n := 2) (by decide) [(0, ⟨5⟩), (1, ⟨3⟩), (1, ⟨2⟩), (1, ⟨4⟩)]
  exact ⟨by decide, hspec.2.1, by decide⟩

end WatermarkTracker

end Flume
