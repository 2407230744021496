import Flume.Connector.LineSource

/-!
# Where a file source resumes

The byte offset of a `FileSource` is always the start of a line, and its buffered reader stands
there, also after it has been rebuilt at an earlier offset.

* `TextFile`: a file of valid UTF-8; `LineStart`: an offset at which a line starts;
* `SourceSession.step`: a source, the snapshots that were taken of it, and a call;
* `FileSource.At`, `SourceSession.Consistent`: the invariant; `Consistent.step`, `Consistent.run`;
* **`fileSource_resumes`**: after `restore` the lines follow that followed the snapshot.
-/

namespace Flume

open Framing Lines

/-! ## Files -/

/-- A file of valid UTF-8 bytes. Its size fits an `i64`, as that of every file does. -/
structure TextFile where
  bytes : Bytes
  text : String
  encoded : Utf8.encode text = bytes
  size : bytes.length < 2 ^ 63

namespace TextFile

/-- The lines of the file, with their terminators. -/
def lines (file : TextFile) : List (List Char) := Lines.lines '\n' file.text.toList

/-- The lines of the file as a source hands them out. -/
def values (file : TextFile) : List String := file.lines.map lineValue

/-- A line starts at the offset: `pre` are the lines in front of it, and `rest` is the text
behind. -/
structure LineStart (file : TextFile) (pre : List (List Char)) (rest : List Char) (offset : ℕ) :
    Prop where
  lines : file.lines = pre ++ Lines.lines '\n' rest
  offset : offset = (Utf8.encodeChars pre.flatten).length

variable {file : TextFile} {pre : List (List Char)} {rest : List Char} {offset : ℕ}

theorem LineStart.zero (file : TextFile) : file.LineStart [] file.text.toList 0 := ⟨rfl, rfl⟩

theorem LineStart.bytes (h : file.LineStart pre rest offset) :
    file.bytes = Utf8.encodeChars pre.flatten ++ Utf8.encodeChars rest := by
  have htext := congrArg List.flatten h.lines
  rw [TextFile.lines, flatten_lines, List.flatten_append, flatten_lines] at htext
  rw [← file.encoded, Utf8.encode, htext, Utf8.encodeChars_append]

theorem LineStart.drop (h : file.LineStart pre rest offset) :
    file.bytes.drop offset = Utf8.encodeChars rest := by
  rw [h.bytes, h.offset, List.drop_left]

theorem LineStart.le (h : file.LineStart pre rest offset) : offset ≤ file.bytes.length := by
  rw [h.bytes, h.offset, List.length_append]
  exact Nat.le_add_right _ _

theorem LineStart.next (h : file.LineStart pre rest offset) :
    ∃ pre', file.LineStart pre' (splitLine '\n' rest).2
      (offset + (Utf8.encodeChars (splitLine '\n' rest).1).length) := by
  by_cases hrest : rest = []
  · subst hrest
    exact ⟨pre, h⟩
  · refine ⟨pre ++ [(splitLine '\n' rest).1], ?_, ?_⟩
    · rw [h.lines, lines_of_ne_nil hrest, List.append_assoc]
      rfl
    · rw [h.offset, List.flatten_append, List.flatten_singleton, Utf8.encodeChars_append,
        List.length_append]

end TextFile

/-! ## Sessions -/

/-- A call of the source; `restore` is given an earlier snapshot, by its number. -/
inductive SourceCall
  | next (now : EventTimestamp)
  | snapshot
  | restore (i : ℕ) (reads : Chunking UInt8)

/-- A source, and the snapshots that were taken of it. -/
structure SourceSession where
  source : FileSource
  snapshots : List Bytes

namespace SourceSession

/-- A source that was just opened. -/
def new (reads : Chunking UInt8) (file : Bytes) : SourceSession := ⟨.new reads file, []⟩

/-- One call. -/
def step (s : SourceSession) : SourceCall → SourceSession
  | .next now => { s with source := (s.source.next now).2 }
  | .snapshot =>
    match s.source.snapshot with
    | .ok state => { s with snapshots := s.snapshots ++ [state] }
    | .error _ => s
  | .restore i reads =>
    match s.snapshots[i]? with
    | some state => { s with source := (s.source.restore reads state).2 }
    | none => s

/-- Calls, one after the other. -/
def run (s : SourceSession) (calls : List SourceCall) : SourceSession := calls.foldl step s

end SourceSession

/-! ## The invariant -/

/-- The source stands where a line of the file starts. -/
structure FileSource.At (file : TextFile) (pre : List (List Char)) (rest : List Char)
    (source : FileSource) : Prop where
  sameFile : source.file = file.bytes
  left : HasLeft source.reader rest
  start : file.LineStart pre rest source.bytesRead.val

/-- The reader's byte offset in the file is the number of bytes read. -/
def FileSource.OffsetExact (source : FileSource) : Prop :=
  source.reader.contents = source.file.drop source.bytesRead.val ∧
    source.bytesRead.val ≤ source.file.length

section At

variable {file : TextFile} {pre : List (List Char)} {rest : List Char} {source : FileSource}

theorem FileSource.At.offsetExact (h : source.At file pre rest) : source.OffsetExact := by
  unfold FileSource.OffsetExact
  rw [h.sameFile, h.start.drop]
  exact ⟨h.left, h.start.le⟩

theorem FileSource.At.new (reads : Chunking UInt8) (file : TextFile) :
    (FileSource.new reads file.bytes).At file [] file.text.toList where
  sameFile := rfl
  left := (Reader.contents_new reads file.bytes).trans file.encoded.symm
  start := .zero file

theorem FileSource.At.next (h : source.At file pre rest) (now : EventTimestamp) :
    ∃ pre', (source.next now).2.At file pre' (splitLine '\n' rest).2 := by
  obtain ⟨-, hleft, hbytes, hfile⟩ := FileSource.next_eq now h.left
  obtain ⟨pre', hstart⟩ := h.start.next
  refine ⟨pre', hfile.trans h.sameFile, hleft, ?_⟩
  have hlt := (Nat.lt_of_le_of_lt hstart.le file.size).trans (by norm_num : 2 ^ 63 < 2 ^ 64)
  rw [hbytes, Fin.val_add, Fin.val_ofNat, Nat.add_mod_mod, Nat.mod_eq_of_lt hlt]
  exact hstart

theorem FileSource.restore_leBytes (source : FileSource) (reads : Chunking UInt8) {offset : ℕ}
    (h : offset < 2 ^ 63) (hlt : offset < 2 ^ 64) : source.restore reads (leBytes 8 offset) =
      (.ok (), ⟨source.file, .new reads (source.file.drop offset), ⟨offset, hlt⟩⟩) := by
  have hval : leValue (leBytes 8 offset) = offset :=
    leValue_leBytes_of_lt (show offset < 256 ^ 8 from hlt)
  have hoffset : (Fin.ofNat (2 ^ 64) offset : U64) = ⟨offset, hlt⟩ :=
    Fin.ext (Nat.mod_eq_of_lt hlt)
  unfold FileSource.restore
  rw [if_pos (length_leBytes 8 offset), hval]
  dsimp only
  rw [hoffset, if_pos h]

theorem FileSource.At.restore {offset : ℕ} (hfile : source.file = file.bytes)
    (hstart : file.LineStart pre rest offset) (reads : Chunking UInt8) :
    (source.restore reads (leBytes 8 offset)).1 = .ok () ∧
      (source.restore reads (leBytes 8 offset)).2.At file pre rest := by
  have hlt := Nat.lt_of_le_of_lt hstart.le file.size
  rw [source.restore_leBytes reads hlt (hlt.trans (by norm_num))]
  refine ⟨rfl, hfile, (Reader.contents_new reads _).trans ?_, hstart⟩
  rw [hfile, hstart.drop]

end At

/-- The source stands at the start of a line, and so it did at every snapshot. -/
structure SourceSession.Consistent (file : TextFile) (s : SourceSession) : Prop where
  source : ∃ pre rest, s.source.At file pre rest
  snapshots : ∀ state ∈ s.snapshots, ∃ pre rest offset, file.LineStart pre rest offset ∧
    state = leBytes 8 offset

namespace SourceSession

variable {file : TextFile} {s : SourceSession}

theorem Consistent.new (reads : Chunking UInt8) (file : TextFile) :
    (SourceSession.new reads file.bytes).Consistent file where
  source := ⟨[], _, .new reads file⟩
  snapshots _ hstate := absurd hstate List.not_mem_nil

theorem Consistent.setSource (h : s.Consistent file) {pre : List (List Char)} {rest : List Char}
    {source : FileSource} (hat : source.At file pre rest) :
    SourceSession.Consistent file ⟨source, s.snapshots⟩ := ⟨⟨pre, rest, hat⟩, h.snapshots⟩

/-- **Every call keeps the invariant.** -/
theorem Consistent.step (h : s.Consistent file) (call : SourceCall) :
    (s.step call).Consistent file := by
  obtain ⟨pre, rest, hsource⟩ := h.source
  cases call with
  | next now =>
    obtain ⟨pre', hnext⟩ := hsource.next now
    exact h.setSource hnext
  | snapshot =>
    refine ⟨⟨pre, rest, hsource⟩, fun state hstate => ?_⟩
    rcases List.mem_append.mp hstate with hstate | hstate
    · exact h.snapshots state hstate
    · exact ⟨pre, rest, _, hsource.start, List.mem_singleton.mp hstate⟩
  | restore i reads =>
    unfold SourceSession.step
    dsimp only
    cases hstate : s.snapshots[i]? with
    | none => exact h
    | some state =>
      obtain ⟨pre', rest', offset, hstart, rfl⟩ :=
        h.snapshots state (List.mem_of_getElem? hstate)
      have hat := (FileSource.At.restore hsource.sameFile hstart reads).2
      exact h.setSource hat

theorem Consistent.run (h : s.Consistent file) (calls : List SourceCall) :
    (s.run calls).Consistent file := by
  induction calls generalizing s with
  | nil => exact h
  | cons call calls ih => exact ih (h.step call)

end SourceSession

/-- **A file source resumes exactly where it was snapshotted:** behind the first `k` lines of the
file, at their bytes. -/
theorem fileSource_resumes (file : TextFile) (reads reads' : Chunking UInt8)
    (before between : List SourceCall) :
    ∃ state k,
      ((SourceSession.new reads file.bytes).run before).source.snapshot = .ok state ∧
      k ≤ file.lines.length ∧
      ((SourceSession.new reads file.bytes).run before).source.bytesRead.val =
        (Utf8.encodeChars (file.lines.take k).flatten).length ∧
      ((SourceSession.new reads file.bytes).run before).source.OffsetExact ∧
      Yields FileSource.next ((SourceSession.new reads file.bytes).run before).source
        (file.values.drop k) ∧
      let resumed := ((SourceSession.new reads file.bytes).run
        (before ++ .snapshot :: between)).source.restore reads' state
      resumed.1 = .ok () ∧
        resumed.2.bytesRead = ((SourceSession.new reads file.bytes).run before).source.bytesRead ∧
        resumed.2.OffsetExact ∧
        Yields FileSource.next resumed.2 (file.values.drop k) := by
  have hconsistent := SourceSession.Consistent.new reads file
  obtain ⟨pre, rest, htaken⟩ := (hconsistent.run before).source
  obtain ⟨_, _, hlater⟩ := (hconsistent.run (before ++ .snapshot :: between)).source
  obtain ⟨hok, hresumed⟩ := FileSource.At.restore hlater.sameFile htaken.start reads'
  have hdrop : file.values.drop pre.length = (Lines.lines '\n' rest).map lineValue := by
    rw [TextFile.values, htaken.start.lines, ← List.map_drop, List.drop_left]
  have htake : file.lines.take pre.length = pre := by
    rw [htaken.start.lines, List.take_left]
  refine ⟨_, pre.length, rfl, ?_, ?_, htaken.offsetExact, ?_, hok, ?_, hresumed.offsetExact, ?_⟩
  · rw [htaken.start.lines, List.length_append]
    exact Nat.le_add_right _ _
  · rw [htake]
    exact htaken.start.offset
  · rw [hdrop]
    exact FileSource.yields htaken.left
  · exact Fin.ext (hresumed.start.offset.trans htaken.start.offset.symm)
  · rw [hdrop]
    exact FileSource.yields hresumed.left

/-- Three lines: one that ends in CRLF, an empty one, and one that is not terminated. -/
def crlfFile : TextFile where
  bytes := [97, 13, 10, 10, 195, 164]
  text := "a\r\n\nä"
  encoded := by decide
  size := by decide

theorem crlfFile_resumes : ∃ state,
    ((SourceSession.new (.single UInt8) crlfFile.bytes).run [.next 0]).source.snapshot =
      .ok state ∧
    Yields FileSource.next (((SourceSession.new (.single UInt8) crlfFile.bytes).run
      [.next 0, .snapshot, .next 0, .next 0]).source.restore (.single UInt8) state).2
        ["", "ä"] := by
  obtain ⟨state, k, hstate, hk, hbytes, -, -, -, -, -, hyields⟩ := fileSource_resumes crlfFile
    (.single UInt8) (.single UInt8) [.next 0] [.next 0, .next 0]
  refine ⟨state, hstate, ?_⟩
  have hone : k = 1 := by
    change 3 = _ at hbytes
    have hlines : crlfFile.lines.length = 3 := by decide
    rw [hlines] at hk
    revert hbytes
    interval_cases k <;> decide
  subst hone
  exact hyields

end Flume
