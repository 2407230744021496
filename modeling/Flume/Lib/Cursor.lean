import Mathlib.Data.List.Infix

/-!
# Reading fields off a cursor

A reader takes its fields off the front of the input and may fail. What is written for a field is
read back from the front of any input that starts with it, and a reader that is given only a part of
it fails.

* `Cursor`, `takeFront`: readers, and the one that takes the next `n` elements;
* `Reads`: a reader reads a value back from what is written for it, and fails on every part of it;
* **`Reads.bind`**: fields one after the other; `Reads.lift`, `Reads.takeFront`: single fields.
-/

namespace Cursors

/-- A reader: what it takes is no longer in front of the cursor. -/
abbrev Cursor (β ε α : Type) := StateT (List β) (Except ε) α

variable {β ε α γ : Type}

/-- The next `n` elements, or the error if there are fewer. -/
def takeFront (n : ℕ) (e : ε) : Cursor β ε (List β) := fun cursor =>
  if cursor.length < n then .error e else .ok (cursor.take n, cursor.drop n)

/-- The result of a check. -/
def lift (result : Except ε α) : Cursor β ε α := fun cursor =>
  match result with
  | .ok a => .ok (a, cursor)
  | .error e => .error e

/-- The reader reads `a` back from what is written, and fails in a `bad` way on what is cut off. -/
structure Reads (bad : ε → Prop) (read : Cursor β ε α) (written : List β) (a : α) : Prop where
  whole : ∀ rest, read (written ++ rest) = .ok (a, rest)
  cut : ∀ part, part <+: written → part ≠ written → ∃ e, read part = .error e ∧ bad e

theorem prefix_append_cases {part l l' : List β} (h : part <+: l ++ l') :
    (part <+: l ∧ part ≠ l) ∨ ∃ part', part = l ++ part' ∧ part' <+: l' := by
  rcases Nat.lt_or_ge part.length l.length with hlt | hle
  · refine .inl ⟨(List.isPrefix_append_of_length hlt.le).mp h, ?_⟩
    rintro rfl
    exact lt_irrefl _ hlt
  · obtain ⟨part', rfl⟩ := List.prefix_of_prefix_length_le (List.prefix_append l l') h hle
    exact .inr ⟨part', rfl, (List.prefix_append_right_inj l).mp h⟩

variable {bad : ε → Prop}

theorem Reads.pure (a : α) : Reads bad (Pure.pure a : Cursor β ε α) [] a where
  whole _ := rfl
  cut _ hpart hne := absurd (List.prefix_nil.mp hpart) hne

theorem Reads.lift {result : Except ε α} {a : α} (h : result = .ok a) :
    Reads bad (Cursors.lift result : Cursor β ε α) [] a := by
  subst h
  exact Reads.pure a

theorem Reads.takeFront {e : ε} (hbad : bad e) {n : ℕ} {written : List β}
    (hn : written.length = n) : Reads bad (Cursors.takeFront n e) written written where
  whole rest := by
    subst hn
    unfold Cursors.takeFront
    rw [if_neg (by rw [List.length_append]; omega), List.take_left, List.drop_left]
  cut part hpart hne := by
    refine ⟨e, if_pos ?_, hbad⟩
    rw [← hn]
    exact lt_of_le_of_ne hpart.length_le fun hlen => hne (hpart.eq_of_length hlen)

/-- **One field after the other.** -/
theorem Reads.bind {read : Cursor β ε α} {next : α → Cursor β ε γ} {written written' : List β}
    {a : α} {c : γ} (hread : Reads bad read written a) (hnext : Reads bad (next a) written' c) :
    Reads bad (read >>= next) (written ++ written') c where
  whole rest := by
    rw [List.append_assoc]
    change (read (written ++ (written' ++ rest)) >>= fun r => next r.1 r.2) = _
    rw [hread.whole]
    exact hnext.whole rest
  cut part hpart hne := by
    change ∃ e, (read part >>= fun r => next r.1 r.2) = .error e ∧ bad e
    rcases prefix_append_cases hpart with ⟨hfirst, hcut⟩ | ⟨part', rfl, hsecond⟩
    · obtain ⟨e, he, hbad⟩ := hread.cut part hfirst hcut
      rw [he]
      exact ⟨e, rfl, hbad⟩
    · rw [hread.whole]
      exact hnext.cut part' hsecond fun heq => hne (by rw [heq])

end Cursors
