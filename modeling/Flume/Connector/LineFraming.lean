import Flume.Connector.LineSink
import Flume.Connector.LineSource

/-!
# Line framing

`FileSink` and `TcpSink` write one line for each record; `FileSource` and `TcpSource` read lines,
and leave out carriage returns in front of the line feed.

* `Sink.deliver`: records, and a flush; `deliver_lineSink`: what is then in the file;
* `lines_written`: what is read of the lines;
* **`framing_roundTrip_iff`**: what is read is what was written if and only if no value ends in a
  carriage return.
-/

namespace Flume

open Lines

/-! ## What is delivered -/

variable {T : Type}

/-- Writes some records, and flushes. -/
def Sink.deliver (sink : Sink T) (records : List (Record T)) : Except TaskFailure sink.State := do
  let s ← records.foldlM sink.write sink.initial
  sink.flush s

theorem deliver_lineSink (capacity : ℕ) (display : T → String) (records : List (Record T)) :
    (lineSink capacity display).deliver records =
      .ok ⟨records.flatMap fun r => Utf8.encode (display r.value ++ "\n"), []⟩ := by
  have hfold : ∀ w : ByteWriter, ∃ w' : ByteWriter,
      records.foldlM (lineSink capacity display).write w = .ok w' ∧
        w'.written = w.written ++ records.flatMap fun r => Utf8.encode (display r.value ++ "\n") := by
    induction records with
    | nil => exact fun w => ⟨w, rfl, (List.append_nil _).symm⟩
    | cons r records ih =>
      intro w
      obtain ⟨w', hw', hwritten⟩ := ih (w.writeAll capacity (Utf8.encode (display r.value ++ "\n")))
      refine ⟨w', hw', ?_⟩
      rw [hwritten, ByteWriter.written_writeAll, List.flatMap_cons, List.append_assoc]
  obtain ⟨w, hw, hwritten⟩ := hfold ⟨[], []⟩
  have hflush : w.flushBuf = ⟨w.written, []⟩ := rfl
  unfold Sink.deliver
  change (List.foldlM (lineSink capacity display).write (⟨[], []⟩ : ByteWriter) records >>= _) = _
  rw [hw]
  change Except.ok w.flushBuf = _
  rw [hflush, hwritten]
  rfl

/-! ## The round trip -/

theorem flatMap_encode (values : List String) :
    (values.flatMap fun v => Utf8.encode (v ++ "\n")) =
      Utf8.encodeChars ((values.map String.toList).flatMap fun v => v ++ ['\n']) := by
  induction values with
  | nil => rfl
  | cons v values ih =>
    rw [List.flatMap_cons, ih, List.map_cons, List.flatMap_cons, Utf8.encodeChars_append,
      Utf8.encode, String.toList_append]
    rfl

theorem lineValue_written {v : String} (h : '\n' ∉ v.toList) :
    lineValue (v.toList ++ ['\n']) = String.ofList (trimEndMatches '\r' v.toList) := by
  have hself : trimEndMatches '\n' v.toList = v.toList :=
    List.rdropWhile_eq_self_iff.mpr fun hne hlast =>
      h (of_decide_eq_true hlast ▸ List.getLast_mem hne)
  rw [lineValue, trimEndMatches, trimEndMatches, List.rdropWhile_concat_pos _ _ _ (by decide)]
  exact congrArg (fun cs => String.ofList (trimEndMatches '\r' cs)) hself

/-- **The values that are read**: without the carriage returns at their ends. -/
theorem lines_written {values : List String} (h : ∀ v ∈ values, '\n' ∉ v.toList) :
    (lines '\n' ((values.map String.toList).flatMap fun v => v ++ ['\n'])).map lineValue =
      values.map fun v => String.ofList (trimEndMatches '\r' v.toList) := by
  have hlines : ∀ l ∈ values.map String.toList, '\n' ∉ l := by
    intro l hl
    obtain ⟨v, hv, rfl⟩ := List.mem_map.mp hl
    exact h v hv
  rw [lines_flatMap hlines, List.map_map, List.map_map]
  exact List.map_congr_left fun v hv => lineValue_written (h v hv)

theorem trimEndMatches_eq_self_iff {c : Char} {l : List Char} :
    trimEndMatches c l = l ↔ l.getLast? ≠ some c := by
  rcases List.eq_nil_or_concat l with rfl | ⟨init, a, rfl⟩
  · exact iff_of_true rfl nofun
  · rw [trimEndMatches, List.rdropWhile_eq_self_iff, List.concat_eq_append, List.getLast?_concat]
    simp

theorem trimmed_eq_iff (values : List String) :
    (values.map fun v => String.ofList (trimEndMatches '\r' v.toList)) = values ↔
      ∀ v ∈ values, v.toList.getLast? ≠ some '\r' := by
  have hvalue : ∀ v : String, String.ofList (trimEndMatches '\r' v.toList) = v ↔
      v.toList.getLast? ≠ some '\r' := by
    intro v
    rw [← String.toList_inj, String.toList_ofList, trimEndMatches_eq_self_iff]
  conv_lhs => rhs; rw [← List.map_id values]
  rw [List.map_inj_left]
  exact forall₂_congr fun v _ => hvalue v

theorem yields_delivered (reads : Chunking UInt8) (records : List (Record String))
    (h : ∀ r ∈ records, '\n' ∉ r.value.toList) :
    Yields FileSource.next
        (.new reads (records.flatMap fun r => Utf8.encode (id r.value ++ "\n")))
        ((records.map Record.value).map fun v => String.ofList (trimEndMatches '\r' v.toList)) ∧
      Yields TcpSource.next
        (.connect reads (records.flatMap fun r => Utf8.encode (id r.value ++ "\n")))
        ((records.map Record.value).map fun v => String.ofList (trimEndMatches '\r' v.toList)) := by
  have hvalues : ∀ v ∈ records.map Record.value, '\n' ∉ v.toList := by
    intro v hv
    obtain ⟨r, hr, rfl⟩ := List.mem_map.mp hv
    exact h r hr
  have hbytes : (records.flatMap fun r => Utf8.encode (id r.value ++ "\n")) =
      Utf8.encodeChars (((records.map Record.value).map String.toList).flatMap
        fun v => v ++ ['\n']) := by
    rw [← flatMap_encode, List.flatMap_map]
    rfl
  rw [← lines_written hvalues, hbytes]
  exact ⟨FileSource.yields (Reader.contents_new reads _),
    TcpSource.yields (Reader.contents_new reads _)⟩

/-- **When the round trip is exact.** Values without line feeds are read as they were written, from
a file and over a connection, if and only if none of them ends in a carriage return. -/
theorem framing_roundTrip_iff (capacity : ℕ) (reads : Chunking UInt8)
    (records : List (Record String)) (h : ∀ r ∈ records, '\n' ∉ r.value.toList) :
    ∃ file sent : ByteWriter,
      (FileSink.onBytes capacity id).deliver records = .ok file ∧
      (TcpSink capacity id).deliver records = .ok sent ∧
      (Yields FileSource.next (.new reads file.inner) (records.map Record.value) ↔
        ∀ r ∈ records, r.value.toList.getLast? ≠ some '\r') ∧
      (Yields TcpSource.next (.connect reads sent.inner) (records.map Record.value) ↔
        ∀ r ∈ records, r.value.toList.getLast? ≠ some '\r') := by
  obtain ⟨hfile, htcp⟩ := yields_delivered reads records h
  have hexact := trimmed_eq_iff (records.map Record.value)
  rw [List.forall_mem_map] at hexact
  refine ⟨_, _, deliver_lineSink capacity id records, deliver_lineSink capacity id records, ?_, ?_⟩
  · refine Iff.trans ⟨fun hread => hfile.unique hread, fun heq => ?_⟩ hexact
    rw [heq] at hfile
    exact hfile
  · refine Iff.trans ⟨fun hread => htcp.unique hread, fun heq => ?_⟩ hexact
    rw [heq] at htcp
    exact htcp

/-- Two lines, the first of them empty. -/
def twoLines : List (Record String) := [⟨"", 0, none⟩, ⟨"a\rb", 0, none⟩]

theorem twoLines_read : ∃ file : ByteWriter,
    (FileSink.onBytes 8192 id).deliver twoLines = .ok file ∧
    Yields FileSource.next (.new (.single UInt8) file.inner) ["", "a\rb"] := by
  obtain ⟨file, sent, hfile, -, hread, -⟩ :=
    framing_roundTrip_iff 8192 (.single UInt8) twoLines (by decide)
  exact ⟨file, hfile, hread.mpr (by decide)⟩

/-- A line that ends in a carriage return. -/
def carriageReturn : List (Record String) := [⟨"a\r", 0, none⟩]

/-- Its carriage return is not read. -/
theorem carriageReturn_lost : ∃ file sent : ByteWriter,
    (FileSink.onBytes 8192 id).deliver carriageReturn = .ok file ∧
    (TcpSink 8192 id).deliver carriageReturn = .ok sent ∧
    ¬Yields FileSource.next (.new (.single UInt8) file.inner) ["a\r"] ∧
    ¬Yields TcpSource.next (.connect (.single UInt8) sent.inner) ["a\r"] := by
  obtain ⟨hfile, htcp⟩ := yields_delivered (.single UInt8) carriageReturn (by decide)
  refine ⟨_, _, deliver_lineSink 8192 id carriageReturn, deliver_lineSink 8192 id carriageReturn,
    fun hread => ?_, fun hread => ?_⟩
  · exact absurd (hfile.unique hread) (by decide)
  · exact absurd (htcp.unique hread) (by decide)

end Flume
