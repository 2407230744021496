import Flume.Api.PipelineComplete
import Flume.Connector.LineSink
import Flume.Lib.Segments

/-!
# What a sink has made durable

`add_sink` flushes its sink at every checkpoint barrier, and only there.

* `afterLastBarrier`: the elements that no flush follows;
* `BufferedSink.absorbed`: after any elements, these and no others are still buffered;
* **`durable_eq_written_iff`**: when `add_sink` returns `Ok`, everything written is durable if and
  only if no record has come after the last barrier.
-/

namespace Flume

open Segments

/-! ## The last barrier -/

section LastBarrier

variable {T : Type}

/-- The elements after the last barrier; all of them if there is none. -/
def afterLastBarrier (es : List (StreamElement T)) : List (StreamElement T) :=
  seg StreamElement.barrier? (marks StreamElement.barrier? es).length es

theorem afterLastBarrier_concat_barrier (es : List (StreamElement T)) (b : CheckpointBarrier) :
    afterLastBarrier (es ++ [.checkpointBarrier b]) = [] := by
  have hmark : (StreamElement.checkpointBarrier b : StreamElement T).barrier? = some b := rfl
  unfold afterLastBarrier
  rw [marks_concat_some hmark, List.length_append, List.length_singleton, seg_concat_some hmark]
  exact seg_eq_nil (Nat.lt_succ_self _)

theorem afterLastBarrier_concat (es : List (StreamElement T)) {e : StreamElement T}
    (he : e.barrier? = none) : afterLastBarrier (es ++ [e]) = afterLastBarrier es ++ [e] := by
  unfold afterLastBarrier
  rw [marks_concat_none he, seg_concat_none he, if_pos rfl]

end LastBarrier

/-! ## The sink -/

namespace BufferedSink

variable {T Line : Type}

/-- **What is buffered are the records after the last barrier**, and everything else is durable. -/
theorem absorbed (sink : BufferedSink T Line) {es : List (StreamElement T)} {s : sink.State}
    (h : es.foldlM sink.absorb sink.initial = .ok s) :
    sink.buffered s =
        ((afterLastBarrier es).filterMap StreamElement.record?).map sink.line ∧
      sink.durable s ++ sink.buffered s =
        (es.filterMap StreamElement.record?).map sink.line := by
  induction es using List.reverseRecOn generalizing s with
  | nil =>
    cases h
    exact ⟨sink.buffered_initial, by rw [sink.durable_initial, sink.buffered_initial]; rfl⟩
  | append_singleton es e ih =>
    obtain ⟨s₀, hs₀, hs⟩ : ∃ s₀, es.foldlM sink.absorb sink.initial = .ok s₀ ∧
        sink.absorb s₀ e = .ok s := by
      rw [List.foldlM_append] at h
      cases hfold : es.foldlM sink.absorb sink.initial with
      | error f =>
        rw [hfold] at h
        cases h
      | ok s₀ =>
        rw [hfold] at h
        have hlast : [e].foldlM sink.absorb s₀ = .ok s := h
        rw [List.foldlM_cons] at hlast
        exact ⟨s₀, rfl, by simpa using hlast⟩
    obtain ⟨hbuffered, hall⟩ := ih hs₀
    rw [List.filterMap_append, List.map_append, ← hall]
    cases e with
    | record r =>
      obtain ⟨hbuf, hdur⟩ := sink.write_ok hs
      rw [afterLastBarrier_concat es rfl, List.filterMap_append, List.map_append, ← hbuffered,
        hbuf, hdur, List.append_assoc]
      exact ⟨rfl, rfl⟩
    | watermark w =>
      cases hs
      rw [afterLastBarrier_concat es rfl, List.filterMap_append, List.map_append, ← hbuffered]
      exact ⟨(List.append_nil _).symm, (List.append_nil _).symm⟩
    | checkpointBarrier b =>
      obtain ⟨hbuf, hdur⟩ := sink.flush_ok hs
      rw [afterLastBarrier_concat_barrier, hbuf, hdur]
      exact ⟨rfl, rfl⟩

theorem durable_eq_iff (sink : BufferedSink T Line) {es : List (StreamElement T)} {s : sink.State}
    (h : es.foldlM sink.absorb sink.initial = .ok s) :
    sink.durable s = (es.filterMap StreamElement.record?).map sink.line ↔
      (afterLastBarrier es).filterMap StreamElement.record? = [] := by
  obtain ⟨hbuffered, hall⟩ := sink.absorbed h
  rw [← hall, List.self_eq_append_right, hbuffered, List.map_eq_nil_iff]

end BufferedSink

/-! ## The end of the stream -/

/-- **What `add_sink` leaves durable** when it returns `Ok`: everything written, if and only if no
record was received after the last barrier. -/
theorem durable_eq_written_iff {T Line : Type} (cfg : PipelineConfig) (stream : DataStream T)
    (sink : BufferedSink T Line) (es : List PipelineEvent)
    (hok : (AddSink.run cfg stream sink.toSink es).ReturnsOk) :
    (sink.durable (AddSink.run cfg stream sink.toSink es).sinkState =
        (AddSink.run cfg stream sink.toSink es).written.map sink.line ↔
      (afterLastBarrier (AddSink.run cfg stream sink.toSink es).taken).filterMap
        StreamElement.record? = []) ∧
    (stream.Deterministic →
      (sink.durable (AddSink.run cfg stream sink.toSink es).sinkState =
          (AddSink.run cfg stream sink.toSink es).written.map sink.line ↔
        (afterLastBarrier stream.output).filterMap StreamElement.record? = [])) := by
  have hdrained := AddSink.drained_of_returnsOk hok
  have hiff := sink.durable_eq_iff hdrained.sinkState
  rw [← hdrained.written] at hiff
  refine ⟨hiff, fun hdet => ?_⟩
  rwa [AddSink.taken_of_returnsOk hdet hok] at hiff

/-- One line, and no barrier. -/
def oneLine : DataStream String := .source ⟨[.record ⟨"hello", 1, none⟩], .ok ()⟩

/-- One line, and a barrier after it. -/
def oneLineWithBarrier : DataStream String :=
  .source ⟨[.record ⟨"hello", 1, none⟩, .checkpointBarrier ⟨1, 0⟩], .ok ()⟩

/-- The drainer runs first, then the sink. -/
def drainerFirst (n : ℕ) : List PipelineEvent :=
  List.replicate n (.task 0 .recv) ++ List.replicate n .sink

/-- With a barrier at the end the line is durable. -/
theorem oneLineWithBarrier_isDurable :
    (AddSink.run .default oneLineWithBarrier (FileSink id).toSink
      (drainerFirst 5)).sinkState.inner = ["hello\n"] :=
  ((durable_eq_written_iff .default oneLineWithBarrier (FileSink id) (drainerFirst 5) rfl).2
    trivial).mpr rfl

/-- Without one, `add_sink` returns `Ok` and the line is lost with the buffer. -/
theorem oneLine_isLost :
    (AddSink.run .default oneLine (FileSink id).toSink (drainerFirst 3)).ReturnsOk ∧
    (AddSink.run .default oneLine (FileSink id).toSink (drainerFirst 3)).written =
      [⟨"hello", 1, none⟩] ∧
    (AddSink.run .default oneLine (FileSink id).toSink (drainerFirst 3)).sinkState.inner = [] :=
  ⟨rfl, rfl, rfl⟩

end Flume
