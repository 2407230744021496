import Mathlib.Data.List.Basic
import Mathlib.Tactic

/-!
# Lines and buffered readers

A sequence is a sequence of lines, each up to and with its delimiter; the last one may lack it. A
buffered reader gets the sequence in chunks and hands out one line at a time.

* `splitLine`, `lines`: the first line and the rest; all lines; **`lines_flatMap`**: lines that are
  written one after the other;
* `Chunking`: a way of dividing a sequence into chunks, none of them empty;
* `Reader`, `Reader.readUntil`: the reader, as a loop over the chunks;
* **`Reader.readUntil_eq`**: a reader hands out the first line of what it has yet to hand out,
  whatever the chunks.
-/

namespace Lines

variable {α : Type*} [DecidableEq α] (d : α)

/-! ## Lines -/

/-- The first line, with its delimiter, and what follows it. -/
def splitLine : List α → List α × List α
  | [] => ([], [])
  | a :: as => if a = d then ([a], as) else (a :: (splitLine as).1, (splitLine as).2)

/-- All lines, with their delimiters. -/
def lines : List α → List (List α)
  | [] => []
  | a :: as =>
    if a = d then [a] :: lines as
    else match lines as with
      | [] => [[a]]
      | line :: rest => (a :: line) :: rest

variable {d} {l m : List α}

theorem splitLine_cons_self (as : List α) : splitLine d (d :: as) = ([d], as) := if_pos rfl

theorem splitLine_cons_ne {a : α} (h : a ≠ d) (as : List α) :
    splitLine d (a :: as) = (a :: (splitLine d as).1, (splitLine d as).2) := if_neg h

@[simp] theorem splitLine_append (l : List α) : (splitLine d l).1 ++ (splitLine d l).2 = l := by
  induction l with
  | nil => rfl
  | cons a as ih =>
    by_cases ha : a = d
    · subst ha
      rw [splitLine_cons_self]
      rfl
    · rw [splitLine_cons_ne ha, List.cons_append, ih]

theorem splitLine_of_notMem (h : d ∉ l) (m : List α) :
    splitLine d (l ++ m) = (l ++ (splitLine d m).1, (splitLine d m).2) := by
  induction l with
  | nil => rfl
  | cons a as ih =>
    obtain ⟨ha, has⟩ := not_or.mp (fun hmem => h (List.mem_cons.mpr hmem))
    rw [List.cons_append, splitLine_cons_ne (Ne.symm ha), ih has]
    rfl

theorem splitLine_of_mem (h : d ∈ l) (m : List α) :
    splitLine d (l ++ m) = ((splitLine d l).1, (splitLine d l).2 ++ m) := by
  induction l with
  | nil => cases h
  | cons a as ih =>
    by_cases ha : a = d
    · subst ha
      rw [List.cons_append, splitLine_cons_self, splitLine_cons_self]
    · have has : d ∈ as := (List.mem_cons.mp h).resolve_left (Ne.symm ha)
      rw [List.cons_append, splitLine_cons_ne ha, ih has, splitLine_cons_ne ha]

theorem splitLine_self (h : d ∉ l) : splitLine d l = (l, []) := by
  have hsplit := splitLine_of_notMem h []
  simpa [splitLine] using hsplit

/-- **The lines, one by one.** -/
theorem lines_of_ne_nil (h : l ≠ []) :
    lines d l = (splitLine d l).1 :: lines d (splitLine d l).2 := by
  induction l with
  | nil => exact absurd rfl h
  | cons a as ih =>
    by_cases ha : a = d
    · subst ha
      rw [splitLine_cons_self]
      exact if_pos rfl
    · rw [splitLine_cons_ne ha, lines, if_neg ha]
      cases as with
      | nil => rfl
      | cons b bs =>
        rw [ih (List.cons_ne_nil b bs)]

theorem splitLine_fst_eq_nil : (splitLine d l).1 = [] ↔ l = [] := by
  constructor
  · intro h
    cases l with
    | nil => rfl
    | cons a as =>
      by_cases ha : a = d
      · subst ha
        rw [splitLine_cons_self] at h
        cases h
      · rw [splitLine_cons_ne ha] at h
        cases h
  · rintro rfl
    rfl

theorem flatten_lines (l : List α) : (lines d l).flatten = l := by
  induction hn : l.length using Nat.strong_induction_on generalizing l with
  | _ n ih =>
    by_cases hl : l = []
    · subst hl
      rfl
    · have hlen : (splitLine d l).2.length < n := by
        have happend := congrArg List.length (splitLine_append (d := d) l)
        have hpos : 0 < (splitLine d l).1.length :=
          List.length_pos_iff.mpr fun h => hl (splitLine_fst_eq_nil.mp h)
        rw [List.length_append] at happend
        omega
      rw [lines_of_ne_nil hl, List.flatten_cons, ih _ hlen _ rfl, splitLine_append]

/-- **Lines that are written are the lines that are read**, if they have no delimiter inside. -/
theorem lines_flatMap {ls : List (List α)} (h : ∀ l ∈ ls, d ∉ l) :
    lines d (ls.flatMap fun l => l ++ [d]) = ls.map fun l => l ++ [d] := by
  induction ls with
  | nil => rfl
  | cons l ls ih =>
    have hsplit : splitLine d ((l ++ [d]) ++ ls.flatMap fun l => l ++ [d]) =
        (l ++ [d], ls.flatMap fun l => l ++ [d]) := by
      rw [List.append_assoc, splitLine_of_notMem (h l List.mem_cons_self), List.singleton_append,
        splitLine_cons_self]
    rw [List.flatMap_cons, lines_of_ne_nil (by simp), hsplit, List.map_cons,
      ih fun l' hl' => h l' (List.mem_cons_of_mem _ hl')]

/-! ## Buffered readers -/

/-- A way of dividing a sequence into chunks; none of them is empty. -/
structure Chunking (α : Type*) where
  chunks : List α → List (List α)
  flatten_chunks : ∀ l, (chunks l).flatten = l
  nonempty : ∀ l, ∀ c ∈ chunks l, c ≠ []

/-- One element at a time. -/
def Chunking.single (α : Type*) : Chunking α where
  chunks l := l.map fun a => [a]
  flatten_chunks l := by induction l <;> simp_all
  nonempty l c hc := by
    obtain ⟨a, -, rfl⟩ := List.mem_map.mp hc
    exact List.cons_ne_nil a []

/-- A reader: what it has buffered, and the chunks that are still to come. A chunk is not empty,
since an empty one is the end of the input. -/
structure Reader (α : Type*) where
  buffer : List α
  chunks : List (List α)
  nonempty : ∀ c ∈ chunks, c ≠ []

namespace Reader

/-- A reader that has not read anything. -/
def new (reads : Chunking α) (l : List α) : Reader α := ⟨[], reads.chunks l, reads.nonempty l⟩

/-- What is yet to be handed out. -/
def contents (r : Reader α) : List α := r.buffer ++ r.chunks.flatten

omit [DecidableEq α] in
theorem contents_new (reads : Chunking α) (l : List α) : (new reads l).contents = l :=
  reads.flatten_chunks l

/-- The loop of `read_until`: as long as the buffer has no delimiter it is taken whole, and filled
with the next chunk. -/
def takeLine (d : α) : List α → List (List α) → List α × List α × List (List α)
  | buffer, [] =>
    if d ∈ buffer then ((splitLine d buffer).1, (splitLine d buffer).2, []) else (buffer, [], [])
  | buffer, chunk :: chunks =>
    if d ∈ buffer then ((splitLine d buffer).1, (splitLine d buffer).2, chunk :: chunks)
    else (buffer ++ (takeLine d chunk chunks).1, (takeLine d chunk chunks).2)

theorem takeLine_eq (d : α) (buffer : List α) (chunks : List (List α)) :
    (takeLine d buffer chunks).1 = (splitLine d (buffer ++ chunks.flatten)).1 ∧
      (takeLine d buffer chunks).2.1 ++ (takeLine d buffer chunks).2.2.flatten =
        (splitLine d (buffer ++ chunks.flatten)).2 ∧
      (takeLine d buffer chunks).2.2 <:+ chunks := by
  induction chunks generalizing buffer with
  | nil =>
    unfold takeLine
    rw [List.flatten_nil, List.append_nil]
    split_ifs with hd
    · exact ⟨rfl, List.append_nil _, List.suffix_rfl⟩
    · rw [splitLine_self hd]
      exact ⟨rfl, rfl, List.suffix_rfl⟩
  | cons chunk chunks ih =>
    unfold takeLine
    rw [List.flatten_cons]
    split_ifs with hd
    · rw [splitLine_of_mem hd]
      exact ⟨rfl, rfl, List.suffix_rfl⟩
    · obtain ⟨hline, hrest, hsuffix⟩ := ih chunk
      rw [splitLine_of_notMem hd]
      exact ⟨congrArg (buffer ++ ·) hline, hrest, hsuffix.trans (List.suffix_cons _ _)⟩

/-- Reads up to and with the next delimiter, or to the end. -/
def readUntil (d : α) (r : Reader α) : List α × Reader α where
  fst := (takeLine d r.buffer r.chunks).1
  snd :=
    { buffer := (takeLine d r.buffer r.chunks).2.1
      chunks := (takeLine d r.buffer r.chunks).2.2
      nonempty := fun c hc =>
        r.nonempty c ((takeLine_eq d r.buffer r.chunks).2.2.subset hc) }

/-- **A reader hands out the first line** of what it has yet to hand out. -/
theorem readUntil_eq (d : α) (r : Reader α) :
    (r.readUntil d).1 = (splitLine d r.contents).1 ∧
      (r.readUntil d).2.contents = (splitLine d r.contents).2 :=
  ⟨(takeLine_eq d r.buffer r.chunks).1, (takeLine_eq d r.buffer r.chunks).2.1⟩

end Reader
end Lines
