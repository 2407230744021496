import Flume.Core.WindowTracking

/-!
# Windowed aggregation is a batch group-by

The specification groups the records of the whole input by key and window, folds each group in
arrival order, and keeps the groups whose window a watermark has passed.

* `batchFold`, `batchRecord`: the result of one group, from the whole input;
* `EqualsGroupBy`: what the operator is to emit, and when;
* `aggregated_computes`, `output_eq`: the operator as a windowed operator;
* **`windowOperator_equalsGroupBy`**: what the operator emits is the batch result, each group at the
  first watermark that passes its window.
-/

namespace Flume

open Fallible Entries GroupBy

namespace WindowOperator

variable {In Acc Out : Type}

/-! ## The batch group-by -/

section Spec

variable (assigner : WindowAssigner) (agg : AggregateFunction In Acc Out)

/-- The fold of `add` over the values assigned to a key and window, in arrival order. -/
def batchFold (inputs : List (Input In)) (wk : WindowKey) : Acc :=
  total (keysOf assigner) (fun acc (record : Record In) => agg.add acc record.value)
    agg.createAccumulator (history inputs) wk

/-- The record to emit for a key and window. -/
def batchRecord (inputs : List (Input In)) (wk : WindowKey) : Record Out where
  value := agg.getResult (batchFold assigner agg inputs wk)
  timestamp := wk.window.stop - 1
  key := some wk.key

/-- What the operator has pushed to its collector after `inputs`. -/
def output (inputs : List (Input In)) : List (StreamElement Out) :=
  ((run (TestCollector Out) inputs).runOn (new assigner agg, [])).2.2

/-- The operator emits the batch group-by of its input. -/
structure EqualsGroupBy (inputs : List (Input In)) : Prop where
  /-- Every call returns `Ok`. -/
  ok : ((run (TestCollector Out) inputs).runOn (new assigner agg, [])).1 = .ok ()
  /-- Altogether, one result for each group whose window was passed. -/
  emitted : ((output assigner agg inputs).filterMap StreamElement.record?).Perm
    (((groups assigner inputs).filter fun wk => Passed inputs wk).map
      (batchRecord assigner agg inputs))
  /-- A record emits nothing. -/
  onRecord : ∀ pre r post, inputs = pre ++ .record r :: post →
    output assigner agg (pre ++ [.record r]) = output assigner agg pre
  /-- A watermark emits the results of the groups that it is the first to pass, and follows
  them. -/
  onWatermark : ∀ pre w iter post, inputs = pre ++ .watermark w iter :: post →
    ∃ fired : List WindowKey,
      output assigner agg (pre ++ [.watermark w iter]) = output assigner agg pre ++
        fired.map (fun wk => .record (batchRecord assigner agg inputs wk)) ++ [.watermark w] ∧
      fired.Perm ((groups assigner inputs).filter fun wk => passes w wk ∧ ¬ Passed pre wk)
  /-- A barrier is forwarded. -/
  onBarrier : ∀ pre b post, inputs = pre ++ .barrier b :: post →
    output assigner agg (pre ++ [.barrier b]) =
      output assigner agg pre ++ [.checkpointBarrier b]
  /-- At any time the pool may be exchanged for any other, without effect on later output. -/
  poolFree : ∀ (op : WindowOperator Unit In Acc Out) (pool : List Bytes)
    (out : List (StreamElement Out)),
    ((run (TestCollector Out) inputs).runOn (op.withPool pool, out)).2.2 =
      ((run (TestCollector Out) inputs).runOn (op, out)).2.2

end Spec

/-! ## The operator emits the batch group-by -/

section Proof

variable {assigner : WindowAssigner} {agg : AggregateFunction In Acc Out} {size : U64}
  {inputs : List (Input In)}

theorem aggregated_computes (agg : AggregateFunction In Acc Out) : (aggregated agg).Computes :=
  fun _ _ hstop => ⟨_, by simp only [aggregated, U64.checkedSub_eq_ok hstop]; rfl⟩

theorem batchResults_aggregated {wk : WindowKey} (hstop : 1 ≤ wk.window.stop) :
    WindowedOperator.batchResults assigner (aggregated agg) inputs wk =
      [batchRecord assigner agg inputs wk] := by
  unfold WindowedOperator.batchResults
  simp only [aggregated, U64.checkedSub_eq_ok hstop]
  rfl

theorem output_eq : output assigner agg inputs =
    WindowedOperator.output assigner (aggregated agg) inputs := by
  obtain ⟨-, -, hstate⟩ := run_toWindowed (TestCollector Out) inputs (new assigner agg, [])
    (WindowedOperator.new assigner (aggregated agg), []) ⟨rfl, rfl⟩
  exact (congrArg Prod.snd hstate).symm

theorem output_perm (hproper : IsProper assigner) (htimely : Timely assigner inputs) :
    ((output assigner agg inputs).filterMap StreamElement.record?).Perm
      (((groups assigner inputs).filter fun wk => Passed inputs wk).map
        (batchRecord assigner agg inputs)) := by
  have hresults : ∀ wk ∈ closedKeys (keysOf assigner) (history inputs),
      WindowedOperator.batchResults assigner (aggregated agg) inputs wk =
        [batchRecord assigner agg inputs wk] := fun wk hwk =>
    batchResults_aggregated
      (WindowedOperator.one_le_stop hproper htimely (mem_closedKeys.mp hwk).1)
  rw [output_eq]
  refine (WindowedOperator.emitted_perm hproper (aggregated_computes agg) htimely).trans ?_
  refine List.Perm.of_eq ?_
  rw [List.flatMap_congr hresults, ← List.map_eq_flatMap]
  rfl

/-- **Windowed aggregation equals the batch group-by**, for tumbling and sliding windows of at
least 1 ms. -/
theorem windowOperator_equalsGroupBy (assigner : WindowAssigner)
    (agg : AggregateFunction In Acc Out) (size : U64) (inputs : List (Input In))
    (hassigner : IsTimeAssigner size assigner) (h : WellTimed size inputs) :
    EqualsGroupBy assigner agg inputs := by
  have hproper := hassigner.isWindowAssigner.isProper
  have htimely := h.timely hassigner
  have hresults : ∀ wk ∈ groups assigner inputs,
      WindowedOperator.batchResults assigner (aggregated agg) inputs wk =
        [batchRecord assigner agg inputs wk] := fun wk hwk =>
    batchResults_aggregated (WindowedOperator.one_le_stop hproper htimely hwk)
  constructor
  · rw [← WindowedOperator.run_ok hproper (aggregated_computes agg) htimely]
    exact (run_toWindowed (TestCollector Out) inputs (new assigner agg, [])
      (WindowedOperator.new assigner (aggregated agg), []) ⟨rfl, rfl⟩).1
  · exact output_perm hproper htimely
  · rintro pre r post rfl
    rw [List.append_cons] at htimely
    rw [output_eq, output_eq,
      WindowedOperator.output_record hproper (aggregated_computes agg) htimely.of_append]
  · rintro pre w iter post rfl
    obtain ⟨fired, hout, hfired⟩ :=
      WindowedOperator.output_watermark hproper (aggregated_computes agg) htimely
    refine ⟨fired, ?_, hfired⟩
    rw [output_eq, output_eq, hout, List.flatMap_congr fun wk hwk =>
      congrArg (List.map _) (hresults wk (List.mem_of_mem_filter (hfired.subset hwk)))]
    simp only [List.map_singleton, ← List.map_eq_flatMap]
  · rintro pre b post rfl
    rw [output_eq, output_eq,
      WindowedOperator.output_barrier hproper (aggregated_computes agg) htimely.of_append]
  · exact fun op pool out => (run_withPool op pool _ inputs out).2

end Proof

/-- A sum of integers. -/
def SumAggregator : AggregateFunction ℤ ℤ ℤ where
  createAccumulator := 0
  add acc value := acc + value
  getResult acc := acc

/-- Two keys, one of them missing, in overlapping windows; the second watermark finds the map in
another order. -/
def overlappingInputs : List (Input ℤ) :=
  [.record ⟨1, 7, some [1]⟩, .record ⟨2, 8, none⟩, .watermark ⟨10⟩ (IterOrder.given _),
    .record ⟨3, 12, some [1]⟩, .watermark ⟨15⟩ (IterOrder.backwards _)]

/-- Windows of 10 ms every 5 ms over `overlappingInputs`. -/
theorem overlappingInputs_equalsGroupBy :
    EqualsGroupBy (SlidingWindow.mk 10 5).assignWindows SumAggregator overlappingInputs ∧
      output (SlidingWindow.mk 10 5).assignWindows SumAggregator overlappingInputs =
        [.record ⟨2, 9, some []⟩, .record ⟨1, 9, some [1]⟩, .watermark ⟨10⟩,
          .record ⟨2, 14, some []⟩, .record ⟨4, 14, some [1]⟩, .watermark ⟨15⟩] :=
  ⟨windowOperator_equalsGroupBy _ _ 10 _ (.sliding (by decide) 5 (by decide))
    ⟨by decide, by decide⟩, by decide +kernel⟩

end WindowOperator

end Flume
