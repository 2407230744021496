import Flume.Core.JoinCalls
import Flume.Core.WindowBatch

/-!
# The window operator as an operator of a task

The window operator with any trigger is given by its calls, as the joins are.

* `WindowOperator.replays_process`, `WindowOperator.calls`: it does the same to every collector;
* `groupsOf`, `groupRecord`, `batchGroupBy`: the groups of some records, the result of a group, and
  those of the groups that a watermark has passed;
* **`WindowOperator.feed_perm`**: it emits the batch group-by of a stream that keeps the watermark
  promise.
-/

namespace Flume

open Fallible Entries GroupBy
open StreamElement (KeepsPromise)
open WindowedOperator (inputOf inputsOf elems_inputsOf passed_inputsOf wellTimed_inputsOf)

namespace WindowOperator

variable {σ In Acc Out C : Type}

/-! ## Calls -/

section Calls

theorem replays_fire (collector : Collector C Out) (wk : WindowKey) :
    Replays collector (fire collector wk : Call σ In Acc Out C Unit)
      (fire (TestCollector Out) wk) := by
  unfold fire
  refine replays_get_bind fun op c out => ?_
  dsimp only
  cases op.accumulators.lookup wk with
  | none => exact replays_pure () op c out
  | some acc =>
    refine (replays_checked _ _ _ _).bind fun timestamp => ?_
    exact replays_push (.record ⟨op.aggregate.getResult acc, timestamp, some wk.key⟩)

theorem replays_processRecord (collector : Collector C Out) (record : Record In) :
    Replays collector (processRecord record : Call σ In Acc Out C Unit) (processRecord record) := by
  unfold processRecord
  refine replays_get_bind fun op c out => ?_
  dsimp only
  cases (op.takeKey record).2.assigner record.timestamp with
  | ok windows => exact .quiet rfl rfl
  | error p => exact .quiet rfl rfl

theorem replays_processWatermark (collector : Collector C Out) (watermark : Watermark)
    (iter : IterOrder WindowKey) :
    Replays collector (processWatermark collector watermark iter : Call σ In Acc Out C Unit)
      (processWatermark (TestCollector Out) watermark iter) := by
  unfold processWatermark
  refine replays_get_bind fun op c out => ?_
  dsimp only
  have hfired : Replays collector
      ((op.evaluate watermark.timestamp (iter.order op.accumulators.keys)).2.1.forM
        (fire collector) : Call σ In Acc Out C PUnit) _ :=
    replays_forM (replays_fire collector) _
  refine replays_set_bind (hfired.bind (fun _ => ?_) _ _ _)
  refine Replays.bind (replays_modify fun s : WindowOperator σ In Acc Out =>
    (op.evaluate watermark.timestamp (iter.order op.accumulators.keys)).2.2.foldl purge s)
    fun _ => ?_
  exact replays_push (.watermark watermark)

/-- **The operator does the same to every collector**, whatever its trigger is. -/
theorem replays_process (collector : Collector C Out) (input : Input In) :
    Replays collector (process collector input : Call σ In Acc Out C Unit)
      (process (TestCollector Out) input) := by
  cases input with
  | record r => exact replays_processRecord collector r
  | watermark w iter => exact replays_processWatermark collector w iter
  | barrier b => exact replays_push (.checkpointBarrier b)

/-- The calls of a window operator. -/
def calls (σ In Acc Out : Type) :
    CollectorCalls (WindowOperator σ In Acc Out) In (IterOrder WindowKey) Out where
  process collector e iter := process collector (inputOf e iter)
  replays collector e iter := replays_process collector (inputOf e iter)

theorem run_calls (collector : Collector C Out)
    (es : List (StreamElement In × IterOrder WindowKey)) :
    (calls σ In Acc Out).run collector es = run collector (es.map fun p => inputOf p.1 p.2) := by
  induction es with
  | nil => rfl
  | cons p es ih =>
    exact congrArg (fun x => process collector (inputOf p.1 p.2) >>= fun _ => x) ih

end Calls

end WindowOperator

/-! ## Groups of records -/

section Groups

open WindowOperator (keysOf groups Passed)

variable {T Acc Out : Type} (assigner : WindowAssigner) (agg : AggregateFunction T Acc Out)
  (records : List (Record T))

/-- The keys and windows of some records. -/
def groupsOf : List WindowKey := (records.flatMap (keysOf assigner)).dedup

/-- The result for a key and window: the fold of their records. -/
def groupRecord (wk : WindowKey) : Record Out where
  value := agg.getResult ((records.filter fun r => wk ∈ keysOf assigner r).foldl
    (fun acc r => agg.add acc r.value) agg.createAccumulator)
  timestamp := wk.window.stop - 1
  key := some wk.key

/-- The batch group-by of a stream: the results of the groups that a watermark has passed. -/
def batchGroupBy (es : List (StreamElement T)) : List (Record Out) :=
  ((groupsOf assigner (es.filterMap StreamElement.record?)).filter fun wk => PassedBy es wk).map
    (groupRecord assigner agg (es.filterMap StreamElement.record?))

variable (iters : ℕ → IterOrder WindowKey) (es : List (StreamElement T))

theorem groups_inputsOf : groups assigner (inputsOf iters es) =
    groupsOf assigner (es.filterMap StreamElement.record?) := by
  unfold groups keys groupsOf
  rw [elems_inputsOf]

theorem batchRecord_inputsOf : WindowOperator.batchRecord assigner agg (inputsOf iters es) =
    groupRecord assigner agg (es.filterMap StreamElement.record?) := by
  funext wk
  unfold WindowOperator.batchRecord WindowOperator.batchFold total members groupRecord
  rw [elems_inputsOf]

end Groups

namespace WindowOperator

variable {In Acc Out : Type} {assigner : WindowAssigner} {agg : AggregateFunction In Acc Out}
  {es : List (StreamElement In)} (iters : ℕ → IterOrder WindowKey)

/-- **The window operator emits the batch group-by** of a stream that keeps the watermark
promise. -/
theorem feed_perm (joinErr : Panic → String) {size : U64} (hassigner : IsTimeAssigner size assigner)
    (hpromise : KeepsPromise es)
    (hfits : ∀ r ∈ es.filterMap StreamElement.record?, r.timestamp.val + size.val < 2 ^ 64) :
    ((((calls Unit In Acc Out).operator joinErr iters (new assigner agg)).feed es).1.filterMap
        StreamElement.record?).Perm (batchGroupBy assigner agg es) := by
  have hout : (((calls Unit In Acc Out).operator joinErr iters (new assigner agg)).feed es).1 =
      output assigner agg (inputsOf iters es) := by
    rw [CollectorCalls.feed_operator, run_calls]
    rfl
  have hpassed : ∀ wk, Passed (inputsOf iters es) wk ↔ PassedBy es wk := fun wk =>
    (passed_inputsOf iters).trans passedBy_iff.symm
  have htimely := (wellTimed_inputsOf iters hpromise hfits).timely hassigner
  rw [hout, batchGroupBy, ← groups_inputsOf assigner iters,
    ← batchRecord_inputsOf assigner agg iters]
  refine (output_perm hassigner.isWindowAssigner.isProper htimely).trans (List.Perm.of_eq ?_)
  simp only [hpassed]

end WindowOperator

end Flume
