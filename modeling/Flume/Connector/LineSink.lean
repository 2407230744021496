import Flume.Api.Pipeline
import Flume.Lib.Utf8

/-!
# The line-delimited sinks

`FileSink` and `TcpSink` write a line for each record to a `BufWriter`.

* `BufferedSink`: a sink whose `write` only buffers and whose `flush` makes durable;
* `FileSink`: on lines, which stay in the buffer until the flush;
* `ByteWriter`: a `BufWriter` with its capacity; `ByteWriter.written_writeAll`: it keeps the order;
* `lineSink`, `FileSink.onBytes`, `TcpSink`: the sinks on bytes;
* **`fileSink_refines`**: the lines that are durable are in the file, which is ahead of them only if
  the buffer was full.
-/

namespace Flume

/-! ## On lines -/

/-- A sink whose `write` buffers a line, and whose `flush` makes the buffered lines durable. -/
structure BufferedSink (T Line : Type) extends Sink T where
  line : Record T → Line
  buffered : State → List Line
  durable : State → List Line
  buffered_initial : buffered initial = []
  durable_initial : durable initial = []
  write_ok : ∀ {s record s'}, write s record = .ok s' →
    buffered s' = buffered s ++ [line record] ∧ durable s' = durable s
  flush_ok : ∀ {s s'}, flush s = .ok s' →
    buffered s' = [] ∧ durable s' = durable s ++ buffered s

/-- A `BufWriter` over a file, on lines. The real one hands on what it has when its 8 KiB are full:
see `fileSink_refines`. -/
structure BufWriter where
  buf : List String
  inner : List String

/-- Newline-delimited text; a line stays in the `BufWriter` until the flush. -/
def FileSink {T : Type} (display : T → String) : BufferedSink T String where
  State := BufWriter
  initial := ⟨[], []⟩
  write writer record := .ok { writer with buf := writer.buf ++ [display record.value ++ "\n"] }
  flush writer := .ok ⟨[], writer.inner ++ writer.buf⟩
  line record := display record.value ++ "\n"
  buffered := BufWriter.buf
  durable := BufWriter.inner
  buffered_initial := rfl
  durable_initial := rfl
  write_ok h := by cases h; exact ⟨rfl, rfl⟩
  flush_ok h := by cases h; exact ⟨rfl, rfl⟩

/-! ## On bytes -/

/-- A `BufWriter`: what the file or the connection has got, and what is buffered. -/
structure ByteWriter where
  inner : Bytes
  buf : Bytes

namespace ByteWriter

/-- Hands on what is buffered. -/
def flushBuf (w : ByteWriter) : ByteWriter := ⟨w.inner ++ w.buf, []⟩

/-- `write_all`: data for which there is no room in the buffer makes it hand on what it has, and
data that is as long as the buffer is not buffered. -/
def writeAll (capacity : ℕ) (w : ByteWriter) (data : Bytes) : ByteWriter :=
  let w := if capacity < w.buf.length + data.length then w.flushBuf else w
  if capacity ≤ data.length then { w with inner := w.inner ++ data }
  else { w with buf := w.buf ++ data }

/-- Everything that was written. -/
def written (w : ByteWriter) : Bytes := w.inner ++ w.buf

/-- **Nothing overtakes the buffer.** -/
theorem written_writeAll (capacity : ℕ) (w : ByteWriter) (data : Bytes) :
    (w.writeAll capacity data).written = w.written ++ data := by
  unfold writeAll written flushBuf
  dsimp only
  by_cases hroom : capacity < w.buf.length + data.length
  · rw [if_pos hroom]
    split_ifs
    · exact List.append_nil _
    · exact congrArg _ (List.nil_append data)
  · rw [if_neg hroom]
    split_ifs with hlong
    · -- there is room for data of the buffer's size: the buffer is empty
      have hempty : w.buf = [] := List.length_eq_zero_iff.mp (by omega)
      rw [hempty, List.append_nil, List.append_nil]
    · rw [List.append_assoc]

theorem inner_writeAll_prefix (capacity : ℕ) (w : ByteWriter) (data : Bytes) :
    w.inner <+: (w.writeAll capacity data).inner := by
  unfold writeAll flushBuf
  dsimp only
  split_ifs
  · exact (List.prefix_append _ _).trans (List.prefix_append _ _)
  · exact List.prefix_append _ _
  · exact List.prefix_append _ _
  · exact List.prefix_rfl

theorem inner_writeAll_of_lt {capacity : ℕ} {w : ByteWriter} {data : Bytes}
    (h : w.buf.length + data.length < capacity) : (w.writeAll capacity data).inner = w.inner := by
  unfold writeAll
  rw [if_neg (by omega), if_neg (by omega)]

end ByteWriter

variable {T : Type}

/-- Writes a line for each record. -/
def lineSink (capacity : ℕ) (display : T → String) : Sink T where
  State := ByteWriter
  initial := ⟨[], []⟩
  write w record := .ok (w.writeAll capacity (Utf8.encode (display record.value ++ "\n")))
  flush w := .ok w.flushBuf

/-- Newline-delimited text in a file. -/
def FileSink.onBytes (capacity : ℕ) (display : T → String) : Sink T := lineSink capacity display

/-- Newline-delimited text over a connection. -/
def TcpSink (capacity : ℕ) (display : T → String) : Sink T := lineSink capacity display

/-! ## The lines and their bytes -/

/-- The bytes of some lines. -/
def lineBytes (lines : List String) : Bytes := lines.flatMap Utf8.encode

theorem lineBytes_append (lines lines' : List String) :
    lineBytes (lines ++ lines') = lineBytes lines ++ lineBytes lines' := List.flatMap_append

theorem lineBytes_concat (lines : List String) (line : String) :
    lineBytes (lines ++ [line]) = lineBytes lines ++ Utf8.encode line := by
  rw [lineBytes_append]
  exact congrArg _ (List.append_nil _)

/-- The bytes are those of the lines. What is durable of these is in the file, and nothing else as
long as the buffer has room for the others. -/
structure ByteWriter.Refines (capacity : ℕ) (w : ByteWriter) (writer : BufWriter) : Prop where
  written : w.written = lineBytes (writer.inner ++ writer.buf)
  durable : lineBytes writer.inner <+: w.inner
  room : (lineBytes writer.buf).length < capacity → w.inner = lineBytes writer.inner

theorem ByteWriter.Refines.write {capacity : ℕ} {w : ByteWriter} {writer : BufWriter}
    (h : w.Refines capacity writer) (line : String) :
    (w.writeAll capacity (Utf8.encode line)).Refines capacity
      { writer with buf := writer.buf ++ [line] } := by
  refine ⟨?_, h.durable.trans (w.inner_writeAll_prefix capacity _), fun hroom => ?_⟩
  · rw [written_writeAll, h.written, ← lineBytes_concat, List.append_assoc]
  · rw [lineBytes_concat, List.length_append] at hroom
    have hinner := h.room (by omega)
    have hbuf : w.buf = lineBytes writer.buf := by
      have hwritten := h.written
      rw [ByteWriter.written, lineBytes_append, hinner] at hwritten
      exact List.append_cancel_left hwritten
    rw [inner_writeAll_of_lt (by rw [hbuf]; exact hroom)]
    exact hinner

theorem ByteWriter.Refines.flush {capacity : ℕ} {w : ByteWriter} {writer : BufWriter}
    (h : w.Refines capacity writer) :
    w.flushBuf.Refines capacity ⟨[], writer.inner ++ writer.buf⟩ := by
  have hinner : w.flushBuf.inner = lineBytes (writer.inner ++ writer.buf) := h.written
  refine ⟨?_, ?_, fun _ => hinner⟩
  · rw [ByteWriter.written, hinner, List.append_nil]
    exact List.append_nil _
  · rw [hinner]

/-- **On bytes**, `FileSink` makes the same lines durable, and possibly later ones. -/
theorem fileSink_refines (capacity : ℕ) (display : T → String) (taken : List (StreamElement T)) :
    ∃ writer w, taken.foldlM (FileSink display).absorb (FileSink display).initial = .ok writer ∧
      taken.foldlM (FileSink.onBytes capacity display).absorb ⟨[], []⟩ = .ok w ∧
      w.Refines capacity writer := by
  have hfold : ∀ (writer : BufWriter) (w : ByteWriter), w.Refines capacity writer →
      ∃ writer' w', taken.foldlM (FileSink display).absorb writer = .ok writer' ∧
        taken.foldlM (FileSink.onBytes capacity display).absorb w = .ok w' ∧
        w'.Refines capacity writer' := by
    induction taken with
    | nil => exact fun writer w h => ⟨writer, w, rfl, rfl, h⟩
    | cons e taken ih =>
      intro writer w h
      cases e with
      | record record => exact ih _ _ (h.write (display record.value ++ "\n"))
      | watermark watermark => exact ih _ _ h
      | checkpointBarrier barrier => exact ih _ _ h.flush
  exact hfold ⟨[], []⟩ ⟨[], []⟩ ⟨rfl, List.prefix_rfl, fun _ => rfl⟩

end Flume
