import Flume.Api.StreamGraphCut

/-!
# Windowed streams

A stream with a window assigner is aggregated by an operator of its own. From end to end, what is
written is a batch group-by of the stream, over the groups that a watermark has passed; and so is
what has become durable at a barrier.

* `StreamGraph.keyBy`, `StreamGraph.window`, `WindowedStream.aggregate`: the API;
* `WindowedStream.deterministic_aggregate`, `WindowedStream.forwardsBarriers_aggregate`;
* **`aggregate_writes`**: what the sink of an aggregated stream is passed;
* **`aggregate_durable`**: what is durable when the sink has flushed at a barrier.
-/

namespace Flume

open Emitters Emitter Entries Segments
open StreamElement (KeepsPromise barrier?)

/-- A stream with a window assigner, and a trigger if the default one was overridden. -/
structure WindowedStream (T : Type) where
  stream : StreamGraph T
  assigner : WindowAssigner
  trigger : Option (Σ σ : Type, Trigger σ × σ)

/-- `key_by` on a stream. -/
def StreamGraph.keyBy {K T σ : Type} (stream : StreamGraph T) (hasher : Hasher) (write : K → Bytes)
    (initial : σ) (keyExtractor : σ → T → K × σ) : StreamGraph T :=
  .apply "key_by" stream (KeyByOperator hasher write initial keyExtractor)

/-- Assigns records to windows. -/
def StreamGraph.window {T : Type} (stream : StreamGraph T) (assigner : WindowAssigner) :
    WindowedStream T :=
  ⟨stream, assigner, none⟩

namespace WindowedStream

variable {T Acc Out : Type}

/-- Overrides the default trigger. -/
def withTrigger {σ : Type} (windowed : WindowedStream T) (trigger : Trigger σ) (state : σ) :
    WindowedStream T :=
  { windowed with trigger := some ⟨σ, trigger, state⟩ }

/-- Applies an aggregate function; the `n`-th call visits the map in the order `iters n`. -/
def aggregate (windowed : WindowedStream T) (agg : AggregateFunction T Acc Out)
    (joinErr : Panic → String) (iters : ℕ → IterOrder WindowKey) : StreamGraph Out :=
  match windowed.trigger with
  | none => .apply "window" windowed.stream
      ((WindowOperator.calls Unit T Acc Out).operator joinErr iters (.new windowed.assigner agg))
  | some ⟨σ, trigger, state⟩ => .apply "window" windowed.stream
      ((WindowOperator.calls σ T Acc Out).operator joinErr iters
        ((WindowOperator.new windowed.assigner agg).withTrigger trigger state))

variable (windowed : WindowedStream T) (agg : AggregateFunction T Acc Out)
  (joinErr : Panic → String) (iters : ℕ → IterOrder WindowKey)

theorem aggregate_eq : ∃ (σ : Type) (op : WindowOperator σ T Acc Out),
    windowed.aggregate agg joinErr iters = .apply "window" windowed.stream
      ((WindowOperator.calls σ T Acc Out).operator joinErr iters op) := by
  obtain ⟨stream, assigner, _ | ⟨σ, trigger, state⟩⟩ := windowed
  · exact ⟨Unit, _, rfl⟩
  · exact ⟨σ, _, rfl⟩

theorem deterministic_aggregate (h : windowed.stream.Deterministic) :
    (windowed.aggregate agg joinErr iters).Deterministic := by
  obtain ⟨σ, op, heq⟩ := windowed.aggregate_eq agg joinErr iters
  rw [heq]
  exact ⟨h, CollectorCalls.deterministic_operator _ _ _ _⟩

theorem forwardsBarriers_aggregate (h : windowed.stream.ForwardsBarriers) :
    (windowed.aggregate agg joinErr iters).ForwardsBarriers := by
  obtain ⟨σ, op, heq⟩ := windowed.aggregate_eq agg joinErr iters
  rw [heq]
  exact ⟨h, WindowOperator.forwardsBarriers _ _ _⟩

end WindowedStream

section KeyBy

variable {K T σ : Type} (stream : StreamGraph T) (hasher : Hasher) (write : K → Bytes) (initial : σ)
  (f : σ → T → K × σ)

theorem StreamGraph.deterministic_keyBy (h : stream.Deterministic) :
    (stream.keyBy hasher write initial f).Deterministic :=
  ⟨h, deterministic_of_handsOn fun _ _ => handsOn_bind (handsOn_send _) fun _ => trivial⟩

theorem StreamGraph.forwardsBarriers_keyBy (h : stream.ForwardsBarriers) :
    (stream.keyBy hasher write initial f).ForwardsBarriers :=
  ⟨h, Flume.forwardsBarriers_keyBy hasher write initial f⟩

end KeyBy

section Aggregate

variable {T Acc Out : Type} (cfg : PipelineConfig) (stream : StreamGraph T)
  (assigner : WindowAssigner) (agg : AggregateFunction T Acc Out) (joinErr : Panic → String)
  (iters : ℕ → IterOrder WindowKey) (es : List GraphEvent) (size : U64)

/-- **What a barrier makes durable is the batch group-by of what came before it**, if that keeps the
watermark promise. -/
theorem aggregate_durable {Line : Type} (sink : BufferedSink Out Line)
    (hdet : stream.Deterministic) (hforwards : stream.ForwardsBarriers)
    (hassigner : IsTimeAssigner size assigner)
    (hok : (GraphRun.run cfg ((stream.window assigner).aggregate agg joinErr iters) sink.toSink
      es).ReturnsOk) (n : ℕ) (hbarriers : stream.HasBarriers n) :
    ∃ pre post input, es = pre ++ post ∧
      (marks barrier? (GraphRun.run cfg ((stream.window assigner).aggregate agg joinErr iters)
        sink.toSink pre).taken).length = n ∧ (stream.cut n).Outputs input ∧ (KeepsPromise input →
      (∀ r ∈ input.filterMap StreamElement.record?, r.timestamp.val + size.val < 2 ^ 64) →
      (sink.durable (GraphRun.run cfg ((stream.window assigner).aggregate agg joinErr iters)
        sink.toSink pre).sinkTask.sinkState).Perm
          ((batchGroupBy assigner agg input).map sink.line)) := by
  have hdet' := (stream.window assigner).deterministic_aggregate agg joinErr iters hdet
  have hforwards' := (stream.window assigner).forwardsBarriers_aggregate agg joinErr iters hforwards
  have houtputs := GraphRun.outputs_of_returnsOk hdet' hok
  have hn := houtputs.barriers hforwards' hbarriers
  obtain ⟨pre, post, hes, htaken, hdurable⟩ := GraphRun.exists_flush hok hn
  -- the output up to the barrier is what the operator emits for the stream up to the barrier
  obtain ⟨input, s, hinput, hfed⟩ := houtputs.cut hforwards' hbarriers
  have hcut : upTo barrier? n _ = _ := (congrArg Prod.fst hfed).symm
  refine ⟨pre, post, input, hes, ?_, hinput, fun hpromise hfits => ?_⟩
  · rw [htaken, marks_upTo, List.length_take, min_eq_left hn]
  rw [hdurable, htaken, hcut]
  exact (WindowOperator.feed_perm iters joinErr hassigner hpromise hfits).map sink.line

end Aggregate

/-- Numbers, keyed by whether they are odd; a barrier follows the watermark. -/
def parities : StreamGraph ℤ :=
  (StreamGraph.source ⟨[.record ⟨1, 3, none⟩, .record ⟨2, 4, none⟩, .record ⟨3, 5, none⟩,
    .watermark ⟨10⟩, .checkpointBarrier ⟨1, 0⟩, .record ⟨5, 12, none⟩], .ok ()⟩).keyBy
      defaultHasher (fun odd => [if odd then 1 else 0]) () fun s v => (v % 2 != 0, s)

/-- Their sums in windows of 10 ms. -/
def paritySums : StreamGraph ℤ :=
  (parities.window (TumblingWindow.mk 10).assignWindows).aggregate WindowOperator.SumAggregator
    (fun _ => "overflow") fun _ => .backwards _

/-- The tasks work one after the other. -/
def parityTurns : List GraphEvent :=
  (List.replicate 13 2 ++ List.replicate 19 1 ++ List.replicate 17 0).map
    (fun n => .task n .recv .one) ++ List.replicate 6 .sink

theorem paritySums_durable :
    let sink := FileSink (toString : ℤ → String)
    let run := GraphRun.run ⟨.mpsc, 8, by decide⟩ paritySums sink.toSink
    ∃ pre post, parityTurns = pre ++ post ∧ (marks barrier? (run pre).taken).length = 1 ∧
      (sink.durable (run pre).sinkTask.sinkState).Perm ["2\n", "4\n"] := by
  obtain ⟨pre, post, input, hes, hlength, ⟨numbers, s, rfl, hfed⟩, h⟩ := aggregate_durable
    ⟨.mpsc, 8, by decide⟩ parities (TumblingWindow.mk 10).assignWindows
    WindowOperator.SumAggregator (fun _ => "overflow") (fun _ => .backwards _) parityTurns 10
    (FileSink (toString : ℤ → String)) (StreamGraph.deterministic_keyBy _ _ _ _ _ trivial)
    (StreamGraph.forwardsBarriers_keyBy _ _ _ _ _ trivial) (.tumbling (by decide))
    (by decide +kernel) 1 (show 1 ≤ _ by decide)
  obtain rfl : _ = input := congrArg Prod.fst hfed
  exact ⟨pre, post, hes, hlength,
    (h (by decide +kernel) (by decide +kernel)).trans (List.Perm.of_eq (by decide +kernel))⟩

end Flume
