import Flume.Core.WindowBatch
import Flume.Core.WindowJoin
import Flume.Lib.Runs

/-!
# The watermark promise downstream of a window

A watermark that does not pass the end of a window is forwarded at once, and the results of the
window come later. They keep the promise of that watermark only if they are stamped later than it.
The build is one with overflow checks: an assignment that overflows ends the run.

* `InTime`: before a window is first passed, only watermarks below a given time arrive;
* **`keepsPromise_iff`**: a windowed operator keeps the promise if each result is in time;
* **`windowJoin_keepsPromise_iff`**: for the window join, each matching pair is in time;
* **`windowResults_keepPromise_iff`**: for the window operator and the window cogroup, the last
  millisecond of each window is in time.
-/

namespace Flume

open Fallible Entries GroupBy PairJoin Runs
open WindowOperator (Input keysOf history groups Passed Timely passes passed_iff mem_groups
  history_append history_record history_watermark history_barrier assignedPrefix
  timely_assignedPrefix)
open StreamElement (KeepsPromise keepsPromise_nil keepsPromise_concat_watermark
  keepsPromise_concat_barrier keepsPromise_append_records)

/-- `input` is a watermark that is the first to pass the window. -/
def FirstPasses {In : Type} (wk : WindowKey) (pre : List (Input In)) (input : Input In) : Prop :=
  ∃ w iter, input = .watermark w iter ∧ passes w wk = true ∧ ¬ Passed pre wk

/-- All watermarks that arrive before the one that first passes the window are below `t`. -/
def InTime {In : Type} (inputs : List (Input In)) (wk : WindowKey) (t : EventTimestamp) : Prop :=
  EachAfter (fun pre input => FirstPasses wk pre input →
    ∀ w iter, .watermark w iter ∈ pre → w.timestamp < t) inputs

/-- A watermark of exactly the last millisecond of the window arrives before the one that first
passes the window. -/
def StopsShort {In : Type} (inputs : List (Input In)) (wk : WindowKey) : Prop :=
  ∃ pre input post, inputs = pre ++ input :: post ∧ FirstPasses wk pre input ∧
    ∃ iter, .watermark ⟨wk.window.stop - 1⟩ iter ∈ pre

section InTime

variable {In : Type} {inputs : List (Input In)} {wk : WindowKey} {t : EventTimestamp}

theorem inTime_record {r : Record In} :
    InTime (inputs ++ [.record r]) wk t ↔ InTime inputs wk t := by
  rw [InTime, eachAfter_concat]
  refine ⟨And.left, fun h => ⟨h, ?_⟩⟩
  rintro ⟨w, iter, hinput, -⟩
  cases hinput

theorem inTime_barrier {b : CheckpointBarrier} :
    InTime (inputs ++ [.barrier b]) wk t ↔ InTime inputs wk t := by
  rw [InTime, eachAfter_concat]
  refine ⟨And.left, fun h => ⟨h, ?_⟩⟩
  rintro ⟨w, iter, hinput, -⟩
  cases hinput

theorem inTime_watermark {w : Watermark} {iter : IterOrder WindowKey} :
    InTime (inputs ++ [.watermark w iter]) wk t ↔ InTime inputs wk t ∧
      (passes w wk = true → ¬ Passed inputs wk →
        ∀ w' iter', .watermark w' iter' ∈ inputs → w'.timestamp < t) := by
  rw [InTime, eachAfter_concat]
  refine and_congr_right fun _ => ⟨fun h hpasses hpassed => ?_, fun h => ?_⟩
  · exact h ⟨w, iter, rfl, hpasses, hpassed⟩
  · rintro ⟨_, _, hinput, hpasses, hpassed⟩
    cases hinput
    exact h hpasses hpassed

theorem inTime_last_iff (hstop : 1 ≤ wk.window.stop) :
    InTime inputs wk (wk.window.stop - 1) ↔ ¬ StopsShort inputs wk := by
  have hlast : (wk.window.stop - 1).val = wk.window.stop.val - 1 := Fin.sub_val_of_le hstop
  have hpos : 1 ≤ wk.window.stop.val := hstop
  constructor
  · rintro h ⟨pre, input, post, heq, hfirst, iter, hmem⟩
    exact absurd (h pre input post heq hfirst _ iter hmem) (lt_irrefl _)
  · intro h pre input post heq hfirst w iter hmem
    have hne : w.timestamp ≠ wk.window.stop - 1 := by
      intro hw
      refine h ⟨pre, input, post, heq, hfirst, iter, ?_⟩
      rwa [← hw]
    obtain ⟨-, -, -, -, hpassed⟩ := hfirst
    have hlt : w.timestamp < wk.window.stop := by
      rw [← not_le]
      exact fun hle => hpassed (passed_iff.mpr ⟨w, iter, hmem, hle⟩)
    have hne' : w.timestamp.val ≠ (wk.window.stop - 1).val := fun h => hne (Fin.ext h)
    rw [Fin.lt_def] at hlt ⊢
    omega

end InTime

namespace WindowedOperator

variable {In B Out : Type} {assigner : WindowAssigner} {contents : WindowContents In B Out}
  {inputs inputs' : List (Input In)}

/-! ## Runs that end early -/

/-- A record whose windows cannot be computed ends the run, and what came before has been
emitted. -/
theorem output_assignedPrefix (hproper : IsProper assigner) (hcomputes : contents.Computes)
    (h : inputs.Pairwise Input.Precedes) :
    output assigner contents inputs = output assigner contents (assignedPrefix assigner inputs) := by
  have htimely : Timely assigner (assignedPrefix assigner inputs) := timely_assignedPrefix h
  obtain ⟨op, out, hrun, ht⟩ := exists_tracks hproper hcomputes htimely
  rw [hrun.output_eq]
  have hsplit : assignedPrefix assigner inputs ++
      inputs.dropWhile (Input.isAssigned assigner) = inputs := List.takeWhile_append_dropWhile
  unfold output run
  rw [← hsplit]
  unfold Reaches run at hrun
  rw [runOn_forM_append_ok hrun]
  cases hrest : inputs.dropWhile (Input.isAssigned assigner) with
  | nil => rfl
  | cons input rest =>
    have hnot : input.isAssigned assigner = false := by
      have hne : inputs.dropWhile (Input.isAssigned assigner) ≠ [] := by
        rw [hrest]; exact List.cons_ne_nil _ _
      have hhead := List.head_dropWhile_not (Input.isAssigned assigner) hne
      simpa only [hrest, List.head_cons] using hhead
    cases input with
    | watermark w iter => cases hnot
    | barrier b => cases hnot
    | record r =>
      obtain ⟨p, hp⟩ : ∃ p, op.assigner r.timestamp = .error p := by
        rw [ht.config.1]
        change (assigner r.timestamp).isOk = false at hnot
        cases hassigner : assigner r.timestamp with
        | ok windows => rw [hassigner] at hnot; cases hnot
        | error p => exact ⟨p, hassigner⟩
      have hcall : (process (TestCollector Out) (.record r)).runOn (op, out) =
        (.error (.panic p), (op, out)) := op.runOn_processRecord_error hp out
      rw [runOn_forM_cons, runOn_bind_error hcall]

section Timely

variable (hproper : IsProper assigner) (hcomputes : contents.Computes)
include hproper hcomputes

/-! ## The promise of a windowed operator -/

theorem watermark_mem_output (h : Timely assigner inputs) {w : Watermark} :
    .watermark w ∈ output assigner contents inputs ↔ ∃ iter, .watermark w iter ∈ inputs := by
  induction inputs using List.reverseRecOn with
  | nil =>
    refine iff_of_false (fun hmem => ?_) ?_
    · cases hmem
    · rintro ⟨iter, hmem⟩; cases hmem
  | append_singleton inputs input ih =>
    have hpre := h.of_append
    cases input with
    | record r =>
      rw [output_record hproper hcomputes h, ih hpre]
      simp
    | barrier b =>
      rw [output_barrier hproper hcomputes hpre]
      simp [ih hpre]
    | watermark w' iter' =>
      have hsplit : Timely assigner (inputs ++ .watermark w' iter' :: []) := h
      obtain ⟨fired, hout, -⟩ := output_watermark hproper hcomputes hsplit
      rw [hout]
      simp [ih hpre, exists_or, eq_comm]

/-- **When a windowed operator keeps the promise**: each result that it emits is in time. -/
theorem keepsPromise_iff (h : Timely assigner inputs) :
    KeepsPromise (output assigner contents inputs) ↔ ∀ wk ∈ groups assigner inputs,
      ∀ record ∈ batchResults assigner contents inputs wk, InTime inputs wk record.timestamp := by
  -- The results are those of the whole input, so the induction is on a part of it.
  have hpart : ∀ pre post, pre ++ post = inputs → (KeepsPromise (output assigner contents pre) ↔
      ∀ wk ∈ groups assigner inputs, ∀ record ∈ batchResults assigner contents inputs wk,
        InTime pre wk record.timestamp) := by
    intro pre
    induction pre using List.reverseRecOn with
    | nil => exact fun _ _ => iff_of_true keepsPromise_nil fun _ _ _ _ => eachAfter_nil _
    | append_singleton pre input ih =>
      intro post hpost
      rw [← List.append_cons] at hpost
      have hwhole : Timely assigner (pre ++ input :: post) := hpost ▸ h
      have hpre : Timely assigner pre := hwhole.of_append
      cases input with
      | record r =>
        rw [List.append_cons] at hwhole
        rw [output_record hproper hcomputes hwhole.of_append, ih _ hpost]
        simp only [inTime_record]
      | barrier b =>
        rw [output_barrier hproper hcomputes hpre, keepsPromise_concat_barrier, ih _ hpost]
        simp only [inTime_barrier]
      | watermark w iter =>
        obtain ⟨fired, hout, hfired⟩ := output_watermark hproper hcomputes hwhole
        have hmem : ∀ wk, wk ∈ fired ↔
            wk ∈ groups assigner inputs ∧ passes w wk = true ∧ ¬ Passed pre wk := by
          intro wk
          rw [hfired.mem_iff, hpost, List.mem_filter]
          simp
        rw [hpost, ← List.map_flatMap] at hout
        rw [hout, keepsPromise_concat_watermark, keepsPromise_append_records, ih _ hpost]
        simp only [inTime_watermark, watermark_mem_output hproper hcomputes hpre,
          List.mem_flatMap, hmem]
        constructor
        · rintro ⟨hbefore, hnow⟩ wk hwk record hrecord
          exact ⟨hbefore wk hwk record hrecord, fun hpasses hpassed w' iter' hw' =>
            hnow record ⟨wk, ⟨hwk, hpasses, hpassed⟩, hrecord⟩ w' ⟨iter', hw'⟩⟩
        · intro hall
          refine ⟨fun wk hwk record hrecord => (hall wk hwk record hrecord).1, ?_⟩
          rintro record ⟨wk, ⟨hwk, hpasses, hpassed⟩, hrecord⟩ w' ⟨iter', hw'⟩
          exact (hall wk hwk record hrecord).2 hpasses hpassed w' iter' hw'
  exact hpart inputs [] (List.append_nil _)

end Timely

end WindowedOperator

section Results

variable {In L R Acc Out Out' : Type}

/-! ## The window join -/

/-- **When the window join keeps the promise**, for tumbling and sliding windows and inputs that
keep it: each matching pair is in time, for the later timestamp of the two. -/
theorem windowJoin_keepsPromise_iff (assigner : WindowAssigner) (joinFn : L → R → Out)
    (inputs : List (Input (Either L R))) (hassigner : IsWindowAssigner assigner)
    (h : inputs.Pairwise Input.Precedes) :
    KeepsPromise (WindowedOperator.output assigner (joinContents joinFn) inputs) ↔
      ∀ wk, ∀ l ∈ leftsIn assigner (assignedPrefix assigner inputs) wk,
        ∀ r ∈ rightsIn assigner (assignedPrefix assigner inputs) wk,
          InTime (assignedPrefix assigner inputs) wk (max l.timestamp r.timestamp) := by
  have hproper := hassigner.isProper
  have hcomputes := joinContents_computes joinFn
  have htimely : Timely assigner (assignedPrefix assigner inputs) := timely_assignedPrefix h
  rw [WindowedOperator.output_assignedPrefix hproper hcomputes h,
    WindowedOperator.keepsPromise_iff hproper hcomputes htimely]
  constructor
  · intro hresults wk l hl r hr
    refine hresults wk ?_ (joinedIn joinFn wk (l, r)) ?_
    · exact mem_groups_of_mem_leftsIn hl
    · rw [batchResults_join]
      exact List.mem_map_of_mem (mem_batch.mpr ⟨hl, hr, rfl⟩)
  · intro hpairs wk hwk record hrecord
    rw [batchResults_join] at hrecord
    obtain ⟨⟨l, r⟩, hpair, rfl⟩ := List.mem_map.mp hrecord
    obtain ⟨hl, hr, -⟩ := mem_batch.mp hpair
    exact hpairs wk l hl r hr

/-- Watermark 5 is later than both records of the pair, and comes before the window is passed. -/
def earlyWatermark : List (Input (Either ℕ ℕ)) :=
  [.record ⟨.left 1, 1, some [1]⟩, .record ⟨.right 2, 2, some [1]⟩,
    .watermark ⟨5⟩ (IterOrder.given _), .watermark ⟨10⟩ (IterOrder.given _)]

/-- The joined record of time 2 follows watermark 5. -/
theorem earlyWatermark_breaksPromise :
    earlyWatermark.Pairwise Input.Precedes ∧
      WindowedOperator.output (TumblingWindow.mk 10).assignWindows (joinContents Nat.add)
          earlyWatermark =
        [.watermark ⟨5⟩, .record ⟨3, 2, some [1]⟩, .watermark ⟨10⟩] ∧
      ¬ KeepsPromise (WindowedOperator.output (TumblingWindow.mk 10).assignWindows
        (joinContents Nat.add) earlyWatermark) :=
  ⟨by decide, by decide +kernel, by decide +kernel⟩

/-- The same pair, with a watermark below its later record. -/
def laterPair : List (Input (Either ℕ ℕ)) :=
  [.record ⟨.left 1, 1, some [1]⟩, .watermark ⟨0⟩ (IterOrder.given _),
    .record ⟨.right 2, 2, some [1]⟩, .watermark ⟨1⟩ (IterOrder.given _),
    .watermark ⟨10⟩ (IterOrder.given _)]

theorem laterPair_keepsPromise :
    KeepsPromise (WindowedOperator.output (TumblingWindow.mk 10).assignWindows
        (joinContents Nat.add) laterPair) ∧
      ∀ wk, ∀ l ∈ leftsIn (TumblingWindow.mk 10).assignWindows
          (assignedPrefix (TumblingWindow.mk 10).assignWindows laterPair) wk,
        ∀ r ∈ rightsIn (TumblingWindow.mk 10).assignWindows
            (assignedPrefix (TumblingWindow.mk 10).assignWindows laterPair) wk,
          InTime (assignedPrefix (TumblingWindow.mk 10).assignWindows laterPair) wk
            (max l.timestamp r.timestamp) := by
  have hkeeps : KeepsPromise (WindowedOperator.output (TumblingWindow.mk 10).assignWindows
    (joinContents Nat.add) laterPair) := by decide +kernel
  exact ⟨hkeeps, (windowJoin_keepsPromise_iff _ _ laterPair (.tumbling _) (by decide)).mp hkeeps⟩

/-! ## The window operator and the window cogroup -/

/-- **When the results of a window keep the promise:** if no watermark stops at the last millisecond
of a window that has a result. -/
theorem windowResults_keepPromise_iff (assigner : WindowAssigner)
    (agg : AggregateFunction In Acc Out) (cogroupFn : Bytes → List L → List R → List Out')
    (inputs : List (Input In)) (pairInputs : List (Input (Either L R)))
    (hassigner : IsWindowAssigner assigner) (h : inputs.Pairwise Input.Precedes)
    (hpair : pairInputs.Pairwise Input.Precedes) :
    (KeepsPromise (WindowOperator.output assigner agg inputs) ↔
      ∀ wk ∈ groups assigner (assignedPrefix assigner inputs),
        ¬ StopsShort (assignedPrefix assigner inputs) wk) ∧
    (KeepsPromise (WindowedOperator.output assigner (cogroupContents cogroupFn) pairInputs) ↔
      ∀ wk ∈ groups assigner (assignedPrefix assigner pairInputs),
        cogrouped assigner cogroupFn (assignedPrefix assigner pairInputs) wk ≠ [] →
          ¬ StopsShort (assignedPrefix assigner pairInputs) wk) := by
  have hproper := hassigner.isProper
  have htimely : Timely assigner (assignedPrefix assigner inputs) := timely_assignedPrefix h
  have htimely' : Timely assigner (assignedPrefix assigner pairInputs) :=
    timely_assignedPrefix hpair
  have hagg := WindowOperator.aggregated_computes agg
  have hcogroup := cogroupContents_computes cogroupFn
  constructor
  · rw [WindowOperator.output_eq, WindowedOperator.output_assignedPrefix hproper hagg h,
      WindowedOperator.keepsPromise_iff hproper hagg htimely]
    refine forall₂_congr fun wk hwk => ?_
    have hstop := WindowedOperator.one_le_stop hproper htimely hwk
    rw [WindowOperator.batchResults_aggregated hstop, List.forall_mem_singleton]
    exact inTime_last_iff hstop
  · rw [WindowedOperator.output_assignedPrefix hproper hcogroup hpair,
      WindowedOperator.keepsPromise_iff hproper hcogroup htimely']
    refine forall₂_congr fun wk hwk => ?_
    have hstop := WindowedOperator.one_le_stop hproper htimely' hwk
    rw [batchResults_cogroup assigner cogroupFn _ hstop, List.forall_mem_map,
      ← inTime_last_iff hstop]
    constructor
    · intro hall hne
      obtain ⟨value, hvalue⟩ := List.exists_mem_of_ne_nil _ hne
      exact hall value hvalue
    · exact fun hintime value hvalue => hintime (List.ne_nil_of_mem hvalue)

end Results

/-- The number of values of both sides. -/
def countBoth (_ : Bytes) (ls rs : List ℕ) : List ℕ := [ls.length + rs.length]

/-- A watermark of 9 does not pass the window that ends at 10. -/
def lastMillis : List (Input ℤ) :=
  [.record ⟨5, 5, some [1]⟩, .watermark ⟨9⟩ (IterOrder.given _),
    .watermark ⟨10⟩ (IterOrder.given _)]

/-- The same for a cogroup. -/
def lastMillisPair : List (Input (Either ℕ ℕ)) :=
  [.record ⟨.left 5, 5, some [1]⟩, .watermark ⟨9⟩ (IterOrder.given _),
    .watermark ⟨10⟩ (IterOrder.given _)]

/-- Both results are stamped 9 and follow watermark 9. -/
theorem lastMillis_breaksPromise :
    (lastMillis.Pairwise Input.Precedes ∧
      WindowOperator.output (TumblingWindow.mk 10).assignWindows WindowOperator.SumAggregator
          lastMillis =
        [.watermark ⟨9⟩, .record ⟨5, 9, some [1]⟩, .watermark ⟨10⟩] ∧
      ¬ KeepsPromise (WindowOperator.output (TumblingWindow.mk 10).assignWindows
        WindowOperator.SumAggregator lastMillis)) ∧
    lastMillisPair.Pairwise Input.Precedes ∧
      WindowedOperator.output (TumblingWindow.mk 10).assignWindows (cogroupContents countBoth)
          lastMillisPair =
        [.watermark ⟨9⟩, .record ⟨1, 9, some [1]⟩, .watermark ⟨10⟩] ∧
      ¬ KeepsPromise (WindowedOperator.output (TumblingWindow.mk 10).assignWindows
        (cogroupContents countBoth) lastMillisPair) :=
  ⟨⟨by decide, by decide +kernel, by decide +kernel⟩, by decide, by decide +kernel,
    by decide +kernel⟩

/-- Overlapping windows without such a watermark. -/
theorem overlappingInputs_keepPromise :
    (∀ wk ∈ groups (SlidingWindow.mk 10 5).assignWindows
        (assignedPrefix (SlidingWindow.mk 10 5).assignWindows WindowOperator.overlappingInputs),
      ¬ StopsShort (assignedPrefix (SlidingWindow.mk 10 5).assignWindows
        WindowOperator.overlappingInputs) wk) ∧
    ∀ wk ∈ groups (SlidingWindow.mk 10 5).assignWindows
        (assignedPrefix (SlidingWindow.mk 10 5).assignWindows pairedInputs),
      cogrouped (SlidingWindow.mk 10 5).assignWindows countBoth
          (assignedPrefix (SlidingWindow.mk 10 5).assignWindows pairedInputs) wk ≠ [] →
        ¬ StopsShort (assignedPrefix (SlidingWindow.mk 10 5).assignWindows pairedInputs) wk := by
  obtain ⟨hop, hcogroup⟩ := windowResults_keepPromise_iff (SlidingWindow.mk 10 5).assignWindows
    WindowOperator.SumAggregator countBoth WindowOperator.overlappingInputs pairedInputs
    (.sliding _) (by decide) (by decide)
  exact ⟨hop.mp (by decide +kernel), hcogroup.mp (by decide +kernel)⟩

end Flume
