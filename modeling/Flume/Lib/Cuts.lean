import Flume.Lib.Emitter
import Flume.Lib.Segments

/-!
# Machines that forward marks

A machine that passes on every mark of its input, and makes none of its own, can be cut at a mark:
what it emits up to its `n`-th mark is what it emits for its input up to the `n`-th mark.

* `ForwardsMarks`: a call for a marked element ends with the same mark, and no other call emits one;
* **`ForwardsMarks.marks_feed`**: the marks of the output are those of the input;
* **`ForwardsMarks.feed_upTo`**: the cut.
-/

namespace Emitters

open Segments

variable {A I ε S β : Type}

namespace Emitter

/-- Every mark is passed on, as the last emission of its call, and no other mark is emitted. -/
structure ForwardsMarks (markIn : I → Option β) (markOut : A → Option β)
    (step : S → I → Emitter A ε S) : Prop where
  unmarked : ∀ s i, markIn i = none → ∀ a ∈ (step s i).emissions, markOut a = none
  marked : ∀ s i b s', markIn i = some b → (step s i).result = .ok s' →
    ∃ pre a, (step s i).emissions = pre ++ [a] ∧ (∀ x ∈ pre, markOut x = none) ∧
      markOut a = some b

variable {markIn : I → Option β} {markOut : A → Option β} {step : S → I → Emitter A ε S}
  {s s' : S} {is : List I} {out : List A}

theorem feed_cons_ok {i : I} (h : feed step s (i :: is) = (out, .ok s')) :
    ∃ t rest, (step s i).result = .ok t ∧ feed step t is = (rest, .ok s') ∧
      out = (step s i).emissions ++ rest := by
  rw [feed] at h
  cases hresult : (step s i).result with
  | error e =>
    rw [hresult] at h
    cases h
  | ok t =>
    rw [hresult] at h
    obtain ⟨hout, hstate⟩ := Prod.mk.inj h
    exact ⟨t, _, rfl, Prod.ext rfl hstate, hout.symm⟩

theorem feed_cons_of_ok {i : I} {t : S} (h : (step s i).result = .ok t) (is : List I) :
    feed step s (i :: is) = ((step s i).emissions ++ (feed step t is).1, (feed step t is).2) := by
  rw [feed, h]

/-- **The marks of the output** are those of the input. -/
theorem ForwardsMarks.marks_feed (h : ForwardsMarks markIn markOut step)
    (hfeed : feed step s is = (out, .ok s')) : marks markOut out = marks markIn is := by
  induction is generalizing s out with
  | nil =>
    cases hfeed
    rfl
  | cons i is ih =>
    obtain ⟨t, rest, hresult, hrest, rfl⟩ := feed_cons_ok hfeed
    rw [marks_append, ih hrest]
    cases hmark : markIn i with
    | none =>
      have hnone : marks markOut (step s i).emissions = [] :=
        List.filterMap_eq_nil_iff.mpr (h.unmarked s i hmark)
      rw [hnone, marks_cons_none hmark]
      rfl
    | some b =>
      obtain ⟨pre, a, hemissions, hpre, ha⟩ := h.marked s i b t hmark hresult
      have hnone : marks markOut pre = [] := List.filterMap_eq_nil_iff.mpr hpre
      rw [hemissions, marks_append, hnone, marks_cons_some hmark]
      exact congrArg (· ++ _) (marks_cons_some ha [])

/-- **The output up to its `n`-th mark** is the output for the input up to its `n`-th mark. -/
theorem ForwardsMarks.feed_upTo (h : ForwardsMarks markIn markOut step)
    (hfeed : feed step s is = (out, .ok s')) (n : ℕ) :
    ∃ t, feed step s (upTo markIn n is) = (upTo markOut n out, .ok t) := by
  induction is generalizing s out n with
  | nil =>
    cases hfeed
    exact ⟨s', by rw [upTo_nil, upTo_nil]; rfl⟩
  | cons i is ih =>
    obtain ⟨t, rest, hresult, hrest, rfl⟩ := feed_cons_ok hfeed
    cases n with
    | zero => exact ⟨s, by rw [upTo_zero, upTo_zero]; rfl⟩
    | succ n =>
      cases hmark : markIn i with
      | none =>
        obtain ⟨t', hcut⟩ := ih hrest (n + 1)
        refine ⟨t', ?_⟩
        rw [upTo_succ_cons_none hmark, feed_cons_of_ok hresult, hcut,
          upTo_append_unmarked (h.unmarked s i hmark)]
      | some b =>
        obtain ⟨pre, a, hemissions, hpre, ha⟩ := h.marked s i b t hmark hresult
        have hout : upTo markOut (n + 1) ((step s i).emissions ++ rest) =
            (step s i).emissions ++ upTo markOut n rest := by
          rw [hemissions, List.append_assoc, upTo_append_unmarked hpre, List.singleton_append,
            upTo_succ_cons_some ha, List.append_assoc, List.singleton_append]
        obtain ⟨t', hcut⟩ := ih hrest n
        refine ⟨t', ?_⟩
        rw [upTo_succ_cons_some hmark, feed_cons_of_ok hresult, hcut, hout]

end Emitter

end Emitters
