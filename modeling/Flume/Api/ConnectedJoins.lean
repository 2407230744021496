import Flume.Core.JoinCalls
import Flume.Runtime.MergeReach
import Flume.Api.StreamGraphComplete

/-!
# Joins of two streams, from the sources to the sink

A join is an operator that reads what a merger makes of a keyed stream and a keyed source. The
merger may interleave the two in many ways, and the operator evicts or fires when a merged watermark
comes; what is written to the sink is a batch join of the two inputs all the same.

* `keepsPromise_keyed`, `watermarks_keyed`: what the feeding tasks leave alone;
* `Merges.lefts`, `Merges.rights`, `Merges.keepsPromise`, `Merges.passedBy_iff`: what a merger makes
  of two streams;
* `StreamGraph.intervalJoin`, **`intervalJoin_writes`**: the interval join;
* `StreamGraph.windowJoin`, **`windowJoin_writes`**: the window join.
-/

namespace Flume

open Channels Segments PairJoin Entries
open StreamElement (KeepsPromise WatermarksGrow)
open TwoInputMerge (leftRecord? rightRecord?)

/-! ## The feeding tasks -/

section Keyed

variable {T : Type}

/-- An element without its value and key. -/
def StreamElement.timing : StreamElement T → StreamElement Unit
  | .record r => .record ⟨(), r.timestamp, none⟩
  | .watermark w => .watermark w
  | .checkpointBarrier b => .checkpointBarrier b

theorem keepsPromise_timing {es : List (StreamElement T)} :
    KeepsPromise (es.map StreamElement.timing) ↔ KeepsPromise es := by
  rw [KeepsPromise, List.pairwise_map, KeepsPromise]
  refine iff_of_eq (congrArg (fun P => List.Pairwise P es) ?_)
  funext a b
  cases a <;> cases b <;> rfl

theorem timing_keyed (keyFn : Option (KeyExtractor T)) (es : List (StreamElement T)) :
    (keyed keyFn es).1.map StreamElement.timing = es.map StreamElement.timing := by
  induction es generalizing keyFn with
  | nil => rfl
  | cons e es ih =>
    rw [keyed, List.map_cons, List.map_cons, ih]
    congr 1
    cases keyFn <;> cases e <;> rfl

theorem keepsPromise_keyed {keyFn : Option (KeyExtractor T)} {es : List (StreamElement T)} :
    KeepsPromise (keyed keyFn es).1 ↔ KeepsPromise es := by
  rw [← keepsPromise_timing, timing_keyed, keepsPromise_timing]

theorem watermarks_timing (es : List (StreamElement T)) :
    (es.map StreamElement.timing).filterMap StreamElement.watermark? =
      es.filterMap StreamElement.watermark? := by
  rw [List.filterMap_map]
  exact List.filterMap_congr fun e _ => by cases e <;> rfl

theorem watermarks_keyed (keyFn : Option (KeyExtractor T)) (es : List (StreamElement T)) :
    (keyed keyFn es).1.filterMap StreamElement.watermark? =
      es.filterMap StreamElement.watermark? := by
  rw [← watermarks_timing, timing_keyed, watermarks_timing]

/-- The records of a stream with the keys that a feeding task attaches. -/
def keyedRecords (keyFn : Option (KeyExtractor T)) (es : List (StreamElement T)) : List (Record T) :=
  (keyed keyFn es).1.filterMap StreamElement.record?

end Keyed

/-! ## The merger -/

section Merges

variable {In1 In2 : Type} {a : List (StreamElement In1)} {b : List (StreamElement In2)}
  {m : List (StreamElement (Either In1 In2))}

theorem Merges.aligned (h : Merges a b m) : ∃ s : TwoInputMerge In1 In2,
    TwoInputMerge.Aligned s ∧ s.input1.taken = a ∧ s.input2.taken = b ∧ s.output = m := by
  obtain ⟨es, hsent1, hsent2, hres, hout⟩ := h
  obtain hf | haligned := TwoInputMerge.aligned_run es
  · cases hres.symm.trans hf.1
  have hclosed := (haligned.returned _ hres).2
  refine ⟨_, haligned, ?_, ?_, hout⟩
  · rw [← hsent1]
    exact (Channel.sent_of_disconnected (haligned.closed .one (hclosed .one)).1).symm
  · rw [← hsent2]
    exact (Channel.sent_of_disconnected (haligned.closed .two (hclosed .two)).1).symm

theorem lefts_side (m : List (StreamElement (Either In1 In2))) :
    lefts ((m.filterMap StreamElement.record?).map Record.side) = m.filterMap leftRecord? := by
  unfold lefts
  rw [List.map_filterMap, List.filterMap_filterMap]
  exact List.filterMap_congr fun e _ => by rcases e with ⟨_ | _, _, _⟩ | _ | _ <;> rfl

theorem rights_side (m : List (StreamElement (Either In1 In2))) :
    rights ((m.filterMap StreamElement.record?).map Record.side) = m.filterMap rightRecord? := by
  unfold rights
  rw [List.map_filterMap, List.filterMap_filterMap]
  exact List.filterMap_congr fun e _ => by rcases e with ⟨_ | _, _, _⟩ | _ | _ <;> rfl

/-- **The records of the first input.** -/
theorem Merges.lefts (h : Merges a b m) :
    lefts ((m.filterMap StreamElement.record?).map Record.side) =
      a.filterMap StreamElement.record? := by
  obtain ⟨s, haligned, rfl, rfl, rfl⟩ := h.aligned
  rw [lefts_side]
  refine filterMap_eq_of_seg (fun e he => ?_) (fun e he => ?_) haligned.leftsBetween <;>
    cases e <;> first | rfl | cases he

/-- **The records of the second input.** -/
theorem Merges.rights (h : Merges a b m) :
    rights ((m.filterMap StreamElement.record?).map Record.side) =
      b.filterMap StreamElement.record? := by
  obtain ⟨s, haligned, rfl, rfl, rfl⟩ := h.aligned
  rw [rights_side]
  refine filterMap_eq_of_seg (fun e he => ?_) (fun e he => ?_) haligned.rightsBetween <;>
    cases e <;> first | rfl | cases he

theorem Merges.keepsPromise (h : Merges a b m) (ha : KeepsPromise a) (hb : KeepsPromise b) :
    KeepsPromise m := by
  obtain ⟨es, rfl, rfl, -, rfl⟩ := h
  exact TwoInputMerge.keepsPromise_run es ⟨ha, hb⟩

/-- **The merged stream has passed what both inputs have passed.** -/
theorem Merges.passedBy_iff (h : Merges a b m) (ha : WatermarksGrow a) (hb : WatermarksGrow b)
    {wk : WindowKey} (hstop : EventTimestamp.MIN < wk.window.stop) :
    PassedBy m wk ↔ PassedBy a wk ∧ PassedBy b wk := by
  obtain ⟨es, rfl, rfl, hres, rfl⟩ := h
  exact TwoInputMerge.reaches_iff es hres ha hb hstop

end Merges

/-! ## The interval join -/

section IntervalJoin

open IntervalJoinOperator (Matches Underflows Overflows Unsaturated joined matchingPairs)

variable {L R Out : Type}

/-- A stream joined with a source by the distance of timestamps. -/
def StreamGraph.intervalJoin (upstream : StreamGraph L) (source2 : Source R)
    (keyFn1 : Option (KeyExtractor L)) (keyFn2 : Option (KeyExtractor R))
    (lowerBound upperBound : Duration) (joinFn : L → R → Out) (joinErr : Panic → String)
    (iters : ℕ → IterOrder Bytes) : StreamGraph Out :=
  .connect "interval_join" upstream source2 keyFn1 keyFn2
    ((IntervalJoinOperator.calls L R Out).operator joinErr iters (.new lowerBound upperBound joinFn))

/-- No bound saturates onto a record of the other side. -/
def NeverSaturates (lower : ℕ) (ls : List (Record L)) (rs : List (Record R)) : Prop :=
  ∀ l ∈ ls, ∀ r ∈ rs, ¬ Underflows lower l r ∧ ¬ Overflows lower l r

theorem NeverSaturates.unsaturated {lower : ℕ} {records : List (Record (Either L R))}
    (h : NeverSaturates lower (lefts (records.map Record.side)) (rights (records.map Record.side))) :
    Unsaturated lower records := fun _ _ hl hr =>
  h _ (mem_lefts.mpr (List.mem_map.mpr ⟨_, hl, rfl⟩)) _
    (mem_rights.mpr (List.mem_map.mpr ⟨_, hr, rfl⟩))

/-- **What an interval join writes is a batch join**, up to order, if both inputs keep the watermark
promise and no bound saturates. -/
theorem intervalJoin_writes (cfg : PipelineConfig) (upstream : StreamGraph L) (source2 : Source R)
    (keyFn1 : Option (KeyExtractor L)) (keyFn2 : Option (KeyExtractor R))
    (lowerBound upperBound : Duration) (joinFn : L → R → Out) (joinErr : Panic → String)
    (iters : ℕ → IterOrder Bytes) (sink : Sink Out) (es : List GraphEvent)
    (hdet : upstream.Deterministic) (hle : lowerBound ≤ upperBound)
    (hupper : upperBound.asMillis < 2 ^ 64)
    (hok : (GraphRun.run cfg (upstream.intervalJoin source2 keyFn1 keyFn2 lowerBound upperBound
      joinFn joinErr iters) sink es).ReturnsOk) :
    ∃ input, upstream.Outputs input ∧ (KeepsPromise input → KeepsPromise source2.elements →
      NeverSaturates lowerBound.asMillis (keyedRecords keyFn1 input)
        (keyedRecords keyFn2 source2.elements) →
      (GraphRun.run cfg (upstream.intervalJoin source2 keyFn1 keyFn2 lowerBound upperBound joinFn
        joinErr iters) sink es).sinkTask.written.Perm
        ((batch (fun l r => Matches lowerBound.wholeMillis upperBound.wholeMillis l r)
          (keyedRecords keyFn1 input) (keyedRecords keyFn2 source2.elements)).map
            (joined joinFn))) := by
  have hdet' : (upstream.intervalJoin source2 keyFn1 keyFn2 lowerBound upperBound joinFn joinErr
      iters).Deterministic := ⟨hdet, CollectorCalls.deterministic_operator _ _ _ _⟩
  obtain ⟨input, merged, s, hinput, hmerges, hfed⟩ := GraphRun.outputs_of_returnsOk hdet' hok
  have htaken : (GraphRun.run cfg _ sink es).taken = _ := (congrArg Prod.fst hfed).symm
  refine ⟨input, hinput, fun hpromise1 hpromise2 hsat => ?_⟩
  have hpromise := hmerges.keepsPromise (keepsPromise_keyed.mpr hpromise1)
    (keepsPromise_keyed.mpr hpromise2)
  unfold keyedRecords at hsat ⊢
  rw [← hmerges.lefts, ← hmerges.rights] at hsat ⊢
  rw [(GraphRun.written_of_returnsOk hok).written, htaken]
  exact IntervalJoinOperator.feed_perm joinErr iters hle hupper hpromise hsat.unsaturated

/-- Two numbers whose timestamps are 15 ms apart. -/
def closeNumbers : StreamGraph ℕ :=
  (StreamGraph.source ⟨[.record ⟨1, 100, some [1]⟩], .ok ()⟩).intervalJoin
    ⟨[.record ⟨2, 115, some [1]⟩], .ok ()⟩ none none (.fromMillis 10) (.fromMillis 20)
    (fun l r => 10 * l + r) (fun _ => "overflow") fun _ => .given _

/-- The tasks work one after the other. -/
def joinTurns : List GraphEvent :=
  [4, 4, 4, 3, 3, 3, 2, 2, 2, 1, 1, 1, 1, 1, 1, 1, 0, 0, 0, 0, 0, 0].map
    (fun n => .task n .recv .one) ++ [.sink, .sink, .sink]

theorem closeNumbers_writes :
    (GraphRun.run ⟨.mpsc, 2, by decide⟩ closeNumbers (CollectSink ℕ) joinTurns).sinkTask.written.Perm
      [⟨12, 115, some [1]⟩] := by
  obtain ⟨input, rfl, h⟩ := intervalJoin_writes ⟨.mpsc, 2, by decide⟩
    (.source ⟨[.record ⟨1, 100, some [1]⟩], .ok ()⟩) ⟨[.record ⟨2, 115, some [1]⟩], .ok ()⟩ none none
    (.fromMillis 10) (.fromMillis 20) (fun l r => 10 * l + r) (fun _ => "overflow")
    (fun _ => .given _) (CollectSink ℕ) joinTurns (by unfold StreamGraph.Deterministic; trivial)
    (show 10 * 1000000 ≤ 20 * 1000000 by norm_num) (by decide) (by decide +kernel)
  refine (h (by decide) (by decide) fun l hl r hr => ?_).trans (List.Perm.of_eq (by decide +kernel))
  obtain rfl := List.mem_singleton.mp hl
  obtain rfl := List.mem_singleton.mp hr
  exact ⟨fun hunder => absurd hunder.2.1 (by decide), fun hover => absurd hover.2.1 (by decide)⟩

end IntervalJoin

/-! ## The window join -/

section WindowJoin

open WindowOperator (keysOf keysOf_spec)
open IntervalJoinOperator (joined)

variable {L R Out : Type}

/-- A stream joined with a source by windows. -/
def StreamGraph.windowJoin (upstream : StreamGraph L) (source2 : Source R)
    (keyFn1 : Option (KeyExtractor L)) (keyFn2 : Option (KeyExtractor R)) (assigner : WindowAssigner)
    (joinFn : L → R → Out) (joinErr : Panic → String) (iters : ℕ → IterOrder WindowKey) :
    StreamGraph Out :=
  .connect "window_join" upstream source2 keyFn1 keyFn2
    ((WindowedOperator.calls (Either L R) (WindowJoinState L R) Out).operator joinErr iters
      (WindowJoinOperator.new assigner joinFn))

theorem passedBy_keyed {T : Type} {keyFn : Option (KeyExtractor T)} {es : List (StreamElement T)}
    {wk : WindowKey} : PassedBy (keyed keyFn es).1 wk ↔ PassedBy es wk := by
  unfold PassedBy
  rw [watermarks_keyed]

theorem watermarksGrow_keyed {T : Type} {keyFn : Option (KeyExtractor T)}
    {es : List (StreamElement T)} : WatermarksGrow (keyed keyFn es).1 ↔ WatermarksGrow es := by
  unfold WatermarksGrow
  rw [watermarks_keyed]

theorem min_lt_stop {T : Type} {assigner : WindowAssigner} (hproper : IsProper assigner)
    {record : Record T} {wk : WindowKey} (h : wk ∈ keysOf assigner record) :
    EventTimestamp.MIN < wk.window.stop := by
  cases hassign : assigner record.timestamp with
  | ok windows =>
    exact lt_of_le_of_lt (Fin.zero_le _) ((keysOf_spec hproper hassign).2 wk h)
  | error p =>
    unfold keysOf at h
    rw [hassign] at h
    cases h

theorem forall_timestamp_of_sides {P : EventTimestamp → Prop} {records : List (Record (Either L R))}
    (hl : ∀ l ∈ lefts (records.map Record.side), P l.timestamp)
    (hr : ∀ r ∈ rights (records.map Record.side), P r.timestamp) :
    ∀ record ∈ records, P record.timestamp := by
  intro record hrecord
  have hmem := List.mem_map_of_mem (f := Record.side) hrecord
  obtain ⟨value | value, ts, key⟩ := record
  · exact hl ⟨value, ts, key⟩ (mem_lefts.mpr hmem)
  · exact hr ⟨value, ts, key⟩ (mem_rights.mpr hmem)

/-- **What a window join writes is a batch join**, up to order, if both inputs keep the watermark
promise and their watermarks never go down. -/
theorem windowJoin_writes (cfg : PipelineConfig) (upstream : StreamGraph L) (source2 : Source R)
    (keyFn1 : Option (KeyExtractor L)) (keyFn2 : Option (KeyExtractor R)) (assigner : WindowAssigner)
    (joinFn : L → R → Out) (joinErr : Panic → String) (iters : ℕ → IterOrder WindowKey)
    (sink : Sink Out) (es : List GraphEvent) (size : U64) (hdet : upstream.Deterministic)
    (hassigner : IsTimeAssigner size assigner)
    (hok : (GraphRun.run cfg (upstream.windowJoin source2 keyFn1 keyFn2 assigner joinFn joinErr iters)
      sink es).ReturnsOk) :
    ∃ input, upstream.Outputs input ∧ (KeepsPromise input → KeepsPromise source2.elements →
      WatermarksGrow input → WatermarksGrow source2.elements →
      (∀ l ∈ keyedRecords keyFn1 input, l.timestamp.val + size.val < 2 ^ 64) →
      (∀ r ∈ keyedRecords keyFn2 source2.elements, r.timestamp.val + size.val < 2 ^ 64) →
      (GraphRun.run cfg (upstream.windowJoin source2 keyFn1 keyFn2 assigner joinFn joinErr iters)
        sink es).sinkTask.written.Perm
        ((sharing
          (passedKeys assigner fun wk => PassedBy input wk ∧ PassedBy source2.elements wk)
          (keysOf assigner) (keyedRecords keyFn1 input)
          (keyedRecords keyFn2 source2.elements)).map (joined joinFn))) := by
  have hdet' : (upstream.windowJoin source2 keyFn1 keyFn2 assigner joinFn joinErr
      iters).Deterministic := ⟨hdet, CollectorCalls.deterministic_operator _ _ _ _⟩
  obtain ⟨input, merged, s, hinput, hmerges, hfed⟩ := GraphRun.outputs_of_returnsOk hdet' hok
  have htaken : (GraphRun.run cfg _ sink es).taken = _ := (congrArg Prod.fst hfed).symm
  refine ⟨input, hinput, fun hpromise1 hpromise2 hgrow1 hgrow2 hfits1 hfits2 => ?_⟩
  have hpromise := hmerges.keepsPromise (keepsPromise_keyed.mpr hpromise1)
    (keepsPromise_keyed.mpr hpromise2)
  have hpassed : ∀ l : Record L, passedKeys assigner (PassedBy merged) l =
      passedKeys assigner (fun wk => PassedBy input wk ∧ PassedBy source2.elements wk) l := by
    intro l
    refine List.filter_congr fun wk hwk => decide_eq_decide.mpr ?_
    rw [hmerges.passedBy_iff (watermarksGrow_keyed.mpr hgrow1) (watermarksGrow_keyed.mpr hgrow2)
      (min_lt_stop hassigner.isWindowAssigner.isProper hwk), passedBy_keyed, passedBy_keyed]
  unfold keyedRecords at hfits1 hfits2 ⊢
  rw [← hmerges.lefts] at hfits1 ⊢
  rw [← hmerges.rights] at hfits2 ⊢
  rw [(GraphRun.written_of_returnsOk hok).written, htaken, ← funext hpassed]
  exact windowJoin_feed_perm iters joinErr joinFn hassigner hpromise
    (forall_timestamp_of_sides (P := fun t => t.val + size.val < 2 ^ 64) hfits1 hfits2)

/-- Two numbers in one window, which a watermark of each input has passed. -/
def windowedNumbers : StreamGraph ℕ :=
  (StreamGraph.source ⟨[.record ⟨1, 3, some [1]⟩, .watermark ⟨10⟩], .ok ()⟩).windowJoin
    ⟨[.record ⟨2, 5, some [1]⟩, .watermark ⟨12⟩], .ok ()⟩ none none
    (TumblingWindow.mk 10).assignWindows (fun l r => 10 * l + r) (fun _ => "overflow")
    fun _ => .backwards _

/-- The tasks work one after the other. -/
def windowTurns : List GraphEvent :=
  (List.replicate 5 4 ++ List.replicate 5 3 ++ List.replicate 5 2 ++ List.replicate 11 1 ++
    List.replicate 9 0).map (fun n => .task n .recv .one) ++ [.sink, .sink, .sink, .sink]

theorem windowedNumbers_writes :
    (GraphRun.run ⟨.mpsc, 3, by decide⟩ windowedNumbers (CollectSink ℕ)
      windowTurns).sinkTask.written.Perm [⟨12, 5, some [1]⟩] := by
  obtain ⟨input, rfl, h⟩ := windowJoin_writes ⟨.mpsc, 3, by decide⟩
    (.source ⟨[.record ⟨1, 3, some [1]⟩, .watermark ⟨10⟩], .ok ()⟩)
    ⟨[.record ⟨2, 5, some [1]⟩, .watermark ⟨12⟩], .ok ()⟩ none none
    (TumblingWindow.mk 10).assignWindows (fun l r => 10 * l + r) (fun _ => "overflow")
    (fun _ => .backwards _) (CollectSink ℕ) windowTurns 10 (by unfold StreamGraph.Deterministic; trivial)
    (.tumbling (by decide)) (by decide +kernel)
  exact (h (by decide) (by decide) (by decide) (by decide) (by decide) (by decide)).trans
    (List.Perm.of_eq (by decide +kernel))

end WindowJoin

end Flume
