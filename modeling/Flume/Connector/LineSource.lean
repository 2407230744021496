import Flume.Core.Record
import Flume.Lib.Framing
import Flume.Lib.Lines
import Flume.Lib.Utf8
import Mathlib.Data.List.DropRight

/-!
# The line-delimited sources

`FileSource` and `TcpSource` read one line at a time from a buffered reader and leave out its
terminator. The bytes arrive in chunks of any size; what is in a file does not change, and reading
it does not fail except on bytes that are not UTF-8.

* `nextLine`: the line that a call of `next` reads; `FileSource`, `TcpSource`: as the code has them;
* `nextLine_eq`: it is the first line of what the reader has yet to hand out;
* `readValues`: the values of calls of `next`, one after the other;
* **`readValues_eq`**: they are the lines of the text, and nothing after the last.
-/

namespace Flume

open Framing Lines

/-! ## The sources -/

/-- `trim_end_matches`, which removes the character as often as it stands at the end. -/
def trimEndMatches (c : Char) (s : List Char) : List Char := s.rdropWhile (· = c)

/-- The text of a line without its terminator. -/
def lineValue (line : List Char) : String :=
  String.ofList (trimEndMatches '\r' (trimEndMatches '\n' line))

/-- `read_line` and what follows it in `next`: the number of bytes read, and the line; `none` at the
end of the input, and no result if the bytes are not UTF-8. -/
def nextLine (reader : Reader UInt8) : Option (Option (ℕ × String)) × Reader UInt8 :=
  let (bytes, reader) := reader.readUntil 10
  match Utf8.decode bytes with
  | none => (none, reader)
  | some lineBuf =>
    if bytes.length = 0 then (some none, reader)
    else (some (some (bytes.length, lineValue lineBuf.toList)), reader)

/-- Reads a file line by line. `file` is what is in the file at its path. -/
structure FileSource where
  file : Bytes
  reader : Reader UInt8
  bytesRead : U64

namespace FileSource

/-- Opens a file, which is then read in some chunks. -/
def new (reads : Chunking UInt8) (file : Bytes) : FileSource := ⟨file, .new reads file, 0⟩

/-- The next line, with the time that `now_millis` gives. -/
def next (now : EventTimestamp) (source : FileSource) :
    Except FlumeError (Option (StreamElement String)) × FileSource :=
  match nextLine source.reader with
  | (none, reader) => (.error .io, { source with reader })
  | (some none, reader) => (.ok none, { source with reader })
  | (some (some (n, line)), reader) =>
    (.ok (some (.record ⟨line, now, none⟩)),
      { source with reader, bytesRead := source.bytesRead + Fin.ofNat _ n })

/-- The byte offset. -/
def snapshot (source : FileSource) : Except FlumeError Bytes :=
  .ok (leBytes 8 source.bytesRead.val)

/-- Opens the file again, and seeks to the byte offset. There is no seeking beyond `i64::MAX`. -/
def restore (reads : Chunking UInt8) (state : Bytes) (source : FileSource) :
    Except FlumeError Unit × FileSource :=
  if state.length = 8 then
    let offset : U64 := Fin.ofNat _ (leValue state)
    if offset.val < 2 ^ 63 then
      (.ok (), { source with
        reader := .new reads (source.file.drop offset.val), bytesRead := offset })
    else (.error .io, source)
  else (.error (.checkpoint "invalid offset"), source)

end FileSource

/-- Reads the lines that come over a connection. -/
structure TcpSource where
  reader : Reader UInt8

namespace TcpSource

/-- Connects; `sent` is what the other side sends until it closes the connection. -/
def connect (reads : Chunking UInt8) (sent : Bytes) : TcpSource := ⟨.new reads sent⟩

/-- The next line, with the time that `now_millis` gives. -/
def next (now : EventTimestamp) (source : TcpSource) :
    Except FlumeError (Option (StreamElement String)) × TcpSource :=
  match nextLine source.reader with
  | (none, reader) => (.error (.source "stream did not contain valid UTF-8"), ⟨reader⟩)
  | (some none, reader) => (.ok none, ⟨reader⟩)
  | (some (some (_, line)), reader) => (.ok (some (.record ⟨line, now, none⟩)), ⟨reader⟩)

end TcpSource

/-! ## Lines of text and lines of bytes -/

/-- **The first line of a text** has the bytes up to the first line feed. -/
theorem splitLine_encodeChars (cs : List Char) : splitLine 10 (Utf8.encodeChars cs) =
    (Utf8.encodeChars (splitLine '\n' cs).1, Utf8.encodeChars (splitLine '\n' cs).2) := by
  induction cs with
  | nil => rfl
  | cons c cs ih =>
    rw [Utf8.encodeChars_cons]
    by_cases hc : c = '\n'
    · subst hc
      rw [splitLine_cons_self]
      exact splitLine_cons_self _
    · have hnot : (10 : UInt8) ∉ String.utf8EncodeChar c := by
        rw [Utf8.mem_utf8EncodeChar (by decide)]
        exact fun hval => hc (Char.ext (UInt32.toNat_inj.mp hval))
      rw [splitLine_of_notMem hnot, splitLine_cons_ne hc, ih, Utf8.encodeChars_cons]

theorem encodeChars_eq_nil {cs : List Char} : Utf8.encodeChars cs = [] ↔ cs = [] := by
  constructor
  · intro h
    have hdecode := Utf8.decode_encodeChars cs
    rw [h] at hdecode
    have hnil : String.ofList cs = String.ofList [] :=
      Option.some.inj (hdecode.symm.trans (Utf8.decode_encodeChars []))
    have := congrArg String.toList hnil
    rwa [String.toList_ofList, String.toList_ofList] at this
  · rintro rfl
    rfl

/-- **What a call reads**: the first line of the text that is left. -/
theorem nextLine_eq {reader : Reader UInt8} {rest : List Char}
    (h : reader.contents = Utf8.encodeChars rest) :
    (nextLine reader).1 = some (if rest = [] then none
      else some ((Utf8.encodeChars (splitLine '\n' rest).1).length,
        lineValue (splitLine '\n' rest).1)) ∧
    (nextLine reader).2.contents = Utf8.encodeChars (splitLine '\n' rest).2 := by
  obtain ⟨hline, hleft⟩ := reader.readUntil_eq 10
  rw [h, splitLine_encodeChars] at hline hleft
  dsimp only at hline hleft
  have hempty : (Utf8.encodeChars (splitLine '\n' rest).1).length = 0 ↔ rest = [] := by
    rw [List.length_eq_zero_iff, encodeChars_eq_nil, splitLine_fst_eq_nil]
  unfold nextLine
  dsimp only
  rw [hline, Utf8.decode_encodeChars]
  dsimp only
  rw [String.toList_ofList]
  by_cases hrest : rest = []
  · rw [if_pos (hempty.mpr hrest), if_pos hrest]
    exact ⟨rfl, hleft⟩
  · rw [if_neg (mt hempty.mp hrest), if_neg hrest]
    exact ⟨rfl, hleft⟩

/-! ## Calls of `next` -/

section Calls

variable {σ : Type}

/-- The values that calls of `next` return, one call for each reading of the clock. -/
def readValues (next : EventTimestamp → σ → Except FlumeError (Option (StreamElement String)) × σ) :
    List EventTimestamp → σ → List (Except FlumeError (Option String))
  | [], _ => []
  | now :: clock, source =>
    (next now source).1.map (fun e => e.bind StreamElement.value?) ::
      readValues next clock (next now source).2

/-- Calls of `next` return these values, and `None` from then on. -/
def Yields (next : EventTimestamp → σ → Except FlumeError (Option (StreamElement String)) × σ)
    (source : σ) (values : List String) : Prop :=
  ∀ clock, readValues next clock source =
    (List.range clock.length).map fun i => .ok values[i]?

theorem Yields.unique
    {next : EventTimestamp → σ → Except FlumeError (Option (StreamElement String)) × σ}
    {source : σ} {values values' : List String} (h : Yields next source values)
    (h' : Yields next source values') : values = values' := by
  apply List.ext_getElem?
  intro i
  have hcalls := (h (List.replicate (i + 1) 0)).symm.trans (h' (List.replicate (i + 1) 0))
  rw [List.length_replicate] at hcalls
  have hcall := List.map_inj_left.mp hcalls i (List.mem_range.mpr (Nat.lt_succ_self i))
  exact Except.ok.inj hcall

/-- **Calls of `next` return the lines of the text**, if each returns the first of them. -/
theorem readValues_eq
    {next : EventTimestamp → σ → Except FlumeError (Option (StreamElement String)) × σ}
    (HasLeft : σ → List Char → Prop)
    (hnext : ∀ now source rest, HasLeft source rest →
      (next now source).1.map (fun e => e.bind StreamElement.value?) =
        .ok (if rest = [] then none else some (lineValue (splitLine '\n' rest).1)) ∧
      HasLeft (next now source).2 (splitLine '\n' rest).2)
    {source : σ} {rest : List Char} (h : HasLeft source rest) :
    Yields next source ((lines '\n' rest).map lineValue) := by
  intro clock
  induction clock generalizing source rest with
  | nil => rfl
  | cons now clock ih =>
    obtain ⟨hvalue, hleft⟩ := hnext now source rest h
    rw [readValues, hvalue, ih hleft, List.length_cons, List.range_succ_eq_map, List.map_cons,
      List.map_map]
    by_cases hrest : rest = []
    · subst hrest
      rfl
    · rw [if_neg hrest, lines_of_ne_nil hrest]
      rfl

end Calls

/-! ## The two sources -/

/-- The text that a reader has yet to hand out. -/
def HasLeft (reader : Reader UInt8) (rest : List Char) : Prop :=
  reader.contents = Utf8.encodeChars rest

theorem FileSource.next_eq (now : EventTimestamp) {source : FileSource} {rest : List Char}
    (h : HasLeft source.reader rest) :
    (source.next now).1.map (fun e => e.bind StreamElement.value?) =
        .ok (if rest = [] then none else some (lineValue (splitLine '\n' rest).1)) ∧
      HasLeft (source.next now).2.reader (splitLine '\n' rest).2 ∧
      (source.next now).2.bytesRead =
        source.bytesRead + Fin.ofNat _ (Utf8.encodeChars (splitLine '\n' rest).1).length ∧
      (source.next now).2.file = source.file := by
  obtain ⟨hline, hleft⟩ := nextLine_eq h
  unfold FileSource.next
  rcases hnext : nextLine source.reader with ⟨result, reader⟩
  rw [hnext] at hline hleft
  subst hline
  by_cases hrest : rest = []
  · subst hrest
    exact ⟨rfl, hleft, (add_zero source.bytesRead).symm, rfl⟩
  · rw [if_neg hrest, if_neg hrest]
    exact ⟨rfl, hleft, rfl, rfl⟩

theorem TcpSource.next_eq (now : EventTimestamp) {source : TcpSource} {rest : List Char}
    (h : HasLeft source.reader rest) :
    (source.next now).1.map (fun e => e.bind StreamElement.value?) =
        .ok (if rest = [] then none else some (lineValue (splitLine '\n' rest).1)) ∧
      HasLeft (source.next now).2.reader (splitLine '\n' rest).2 := by
  obtain ⟨hline, hleft⟩ := nextLine_eq h
  unfold TcpSource.next
  rcases hnext : nextLine source.reader with ⟨result, reader⟩
  rw [hnext] at hline hleft
  subst hline
  by_cases hrest : rest = []
  · subst hrest
    exact ⟨rfl, hleft⟩
  · rw [if_neg hrest, if_neg hrest]
    exact ⟨rfl, hleft⟩

/-- **A file source hands out the lines** that are left. -/
theorem FileSource.yields {source : FileSource} {rest : List Char}
    (h : HasLeft source.reader rest) :
    Yields FileSource.next source ((lines '\n' rest).map lineValue) :=
  readValues_eq (fun source => HasLeft source.reader)
    (fun now _ _ hleft => ⟨(FileSource.next_eq now hleft).1, (FileSource.next_eq now hleft).2.1⟩) h

/-- **So does a connection.** -/
theorem TcpSource.yields {source : TcpSource} {rest : List Char} (h : HasLeft source.reader rest) :
    Yields TcpSource.next source ((lines '\n' rest).map lineValue) :=
  readValues_eq (fun source => HasLeft source.reader)
    (fun now _ _ hleft => TcpSource.next_eq now hleft) h

end Flume
