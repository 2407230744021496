import Mathlib.Tactic

/-!
# Fallible operations on a mutable state

`Fallible ε S α` is an operation on a state `S` that returns an `α` or fails with an `ε`; what it
has done to the state before it fails stays done. `x.runOn s` is its result and the new state.

* `runOn_bind_ok`, `runOn_bind_error`: running a sequence;
* **`runOn_bind_eq_ok`**: a sequence that succeeds has succeeded step by step;
* `runOn_forM_invariant`, `runOn_forM_keeps`: what the iterations of a loop keep;
* `AvoidsAt`, **`runOn_forM_fails_iff`**: failures of a kind, and where a loop fails;
* `bind_eq_ok`, `foldlM_invariant`: the same for results in `Except`, without a mutable state;
* **`foldlM_cases`**: what a fold keeps until it fails, and how; `foldlM_total`: a fold whose steps
  all succeed; `foldlM_error`: a fold that comes to a step that fails;
* `Related`: two operations that agree from related states; `Related.bind`, `Related.forM`.
-/

/-- An operation on a mutable state that may fail. -/
abbrev Fallible (ε S : Type) : Type → Type := ExceptT ε (StateM S)

namespace Fallible

variable {ε S α β : Type}

/-- The result of an operation and the state after it. -/
def runOn (x : Fallible ε S α) (s : S) : Except ε α × S := (ExceptT.run x).run s

variable {s s' : S} {a : α} {e : ε}

@[simp] theorem runOn_pure : runOn (pure a : Fallible ε S α) s = (.ok a, s) := rfl

@[simp] theorem runOn_get : runOn (get : Fallible ε S S) s = (.ok s, s) := rfl

@[simp] theorem runOn_set : runOn (set s' : Fallible ε S PUnit) s = (.ok ⟨⟩, s') := rfl

@[simp] theorem runOn_modify (f : S → S) :
    runOn (modify f : Fallible ε S PUnit) s = (.ok ⟨⟩, f s) := rfl

@[simp] theorem runOn_throw : runOn (throw e : Fallible ε S α) s = (.error e, s) := rfl

/-- The outcome of an operation that was run elsewhere. -/
def outcome : Except ε α → Fallible ε S α
  | .ok a => pure a
  | .error e => throw e

@[simp] theorem runOn_outcome (r : Except ε α) :
    runOn (outcome r : Fallible ε S α) s = (r, s) := by
  cases r <;> rfl

theorem runOn_bind (x : Fallible ε S α) (f : α → Fallible ε S β) :
    runOn (x >>= f) s = match runOn x s with
      | (.ok a, s') => runOn (f a) s'
      | (.error e, s') => (.error e, s') := by
  change (match (ExceptT.run x).run s with
    | (r, s') => (ExceptT.bindCont f r : StateM S (Except ε β)).run s') = _
  unfold runOn
  rcases (ExceptT.run x).run s with ⟨_ | _, _⟩ <;> rfl

theorem runOn_bind_ok {x : Fallible ε S α} (h : runOn x s = (.ok a, s'))
    (f : α → Fallible ε S β) : runOn (x >>= f) s = runOn (f a) s' := by
  rw [runOn_bind, h]

theorem runOn_bind_error {x : Fallible ε S α} (h : runOn x s = (.error e, s'))
    (f : α → Fallible ε S β) : runOn (x >>= f) s = (.error e, s') := by
  rw [runOn_bind, h]

/-- **A sequence that succeeds has succeeded step by step.** -/
theorem runOn_bind_eq_ok {x : Fallible ε S α} {f : α → Fallible ε S β} {b : β} {t : S}
    (h : runOn (x >>= f) s = (.ok b, t)) :
    ∃ a s', runOn x s = (.ok a, s') ∧ runOn (f a) s' = (.ok b, t) := by
  rw [runOn_bind] at h
  rcases hx : runOn x s with ⟨_ | a, s'⟩
  · rw [hx] at h; cases h
  · rw [hx] at h; exact ⟨a, s', rfl, h⟩

theorem runOn_bind_keeps {P : S → Prop} {x : Fallible ε S α} {f : α → Fallible ε S β}
    (hx : P (runOn x s).2) (hf : ∀ a t, P t → P (runOn (f a) t).2) : P (runOn (x >>= f) s).2 := by
  rw [runOn_bind]
  rcases hr : runOn x s with ⟨e | a, t⟩ <;> rw [hr] at hx
  · exact hx
  · exact hf a t hx

@[simp] theorem runOn_ite (p : Prop) [Decidable p] (x y : Fallible ε S α) :
    runOn (if p then x else y) s = if p then runOn x s else runOn y s := by
  split_ifs <;> rfl

/-! ## Loops -/

@[simp] theorem runOn_forM_nil (f : α → Fallible ε S PUnit) :
    runOn (List.forM [] f) s = (.ok ⟨⟩, s) := rfl

theorem runOn_forM_cons (a : α) (l : List α) (f : α → Fallible ε S PUnit) :
    runOn (List.forM (a :: l) f) s = runOn (f a >>= fun _ => List.forM l f) s := rfl

theorem runOn_forM_append (l l' : List α) (f : α → Fallible ε S PUnit) :
    runOn (List.forM (l ++ l') f) s = runOn (List.forM l f >>= fun _ => List.forM l' f) s := by
  induction l generalizing s with
  | nil => rw [runOn_bind_ok (runOn_forM_nil f)]; rfl
  | cons a l ih =>
    rw [List.cons_append, runOn_forM_cons, runOn_bind, runOn_bind, runOn_forM_cons, runOn_bind]
    rcases runOn (f a) s with ⟨e | _, t⟩
    · rfl
    · exact ih.trans (runOn_bind _ _)

theorem runOn_forM_append_ok {l : List α} {f : α → Fallible ε S PUnit}
    (h : runOn (List.forM l f) s = (.ok ⟨⟩, s')) (l' : List α) :
    runOn (List.forM (l ++ l') f) s = runOn (List.forM l' f) s' := by
  rw [runOn_forM_append, runOn_bind_ok h]

theorem runOn_forM_append_error {l : List α} {f : α → Fallible ε S PUnit}
    (h : runOn (List.forM l f) s = (.error e, s')) (l' : List α) :
    runOn (List.forM (l ++ l') f) s = (.error e, s') := by
  rw [runOn_forM_append, runOn_bind_error h]

theorem runOn_forM_singleton (a : α) (f : α → Fallible ε S PUnit) :
    runOn (List.forM [a] f) s = runOn (f a) s := by
  rw [runOn_forM_cons, runOn_bind]
  rcases runOn (f a) s with ⟨e | _, t⟩ <;> rfl

/-- **Invariant rule for loops.** What every iteration that succeeds keeps, a loop that succeeds
establishes for the whole list. -/
theorem runOn_forM_invariant {P : List α → S → Prop} {f : α → Fallible ε S PUnit}
    (hstep : ∀ done a s s', P done s → runOn (f a) s = (.ok ⟨⟩, s') → P (done ++ [a]) s')
    {l : List α} (hs : P [] s) (h : runOn (List.forM l f) s = (.ok ⟨⟩, s')) : P l s' := by
  suffices hafter : ∀ done, P done s → P (done ++ l) s' from hafter [] hs
  clear hs
  intro done hs
  induction l generalizing done s with
  | nil =>
    cases h
    rwa [List.append_nil]
  | cons a l ih =>
    rw [runOn_forM_cons] at h
    obtain ⟨_, t, ha, hl⟩ := runOn_bind_eq_ok h
    rw [List.append_cons]
    exact ih hl (done ++ [a]) (hstep done a s t hs ha)

theorem runOn_forM_keeps {P : S → Prop} {f : α → Fallible ε S PUnit}
    (hstep : ∀ a s, P s → P (runOn (f a) s).2) {l : List α} (hs : P s) :
    P (runOn (List.forM l f) s).2 := by
  induction l generalizing s with
  | nil => exact hs
  | cons a l ih =>
    have ha := hstep a s hs
    rw [runOn_forM_cons, runOn_bind]
    rcases hf : runOn (f a) s with ⟨e | u, t⟩ <;> rw [hf] at ha
    · exact ha
    · exact ih ha

/-! ## Failures of a kind -/

section Avoids

variable {bad : ε → Prop} {P : S → Prop}

/-- Started in `s`, an operation does not fail with an error of the kind `bad`, and ends in a state
that satisfies `P`. -/
def AvoidsAt (bad : ε → Prop) (P : S → Prop) (x : Fallible ε S α) (s : S) : Prop :=
  P (runOn x s).2 ∧ ∀ e, (runOn x s).1 = .error e → ¬ bad e

theorem AvoidsAt.pure (h : P s) (a : α) : AvoidsAt bad P (Pure.pure a : Fallible ε S α) s :=
  ⟨h, fun _ he => by cases he⟩

theorem AvoidsAt.throw (h : P s) (he : ¬ bad e) :
    AvoidsAt bad P (MonadExcept.throw e : Fallible ε S α) s := by
  refine ⟨h, ?_⟩
  rintro _ ⟨⟩
  exact he

theorem AvoidsAt.bind {x : Fallible ε S α} {f : α → Fallible ε S β} (hx : AvoidsAt bad P x s)
    (hf : ∀ a t, P t → AvoidsAt bad P (f a) t) : AvoidsAt bad P (x >>= f) s := by
  obtain ⟨hP, hbad⟩ := hx
  unfold AvoidsAt
  rw [runOn_bind]
  rcases hr : runOn x s with ⟨e | a, t⟩ <;> rw [hr] at hP hbad
  · refine ⟨hP, ?_⟩
    rintro _ ⟨⟩
    exact hbad e rfl
  · exact hf a t hP

theorem AvoidsAt.get_bind {f : S → Fallible ε S β} (h : AvoidsAt bad P (f s) s) :
    AvoidsAt bad P (get >>= f) s := h

theorem AvoidsAt.forM {f : α → Fallible ε S PUnit} {l : List α} (hs : P s)
    (hf : ∀ a ∈ l, ∀ t, P t → AvoidsAt bad P (f a) t) : AvoidsAt bad P (List.forM l f) s := by
  induction l generalizing s with
  | nil => exact AvoidsAt.pure hs _
  | cons a l ih =>
    refine AvoidsAt.bind (hf a List.mem_cons_self s hs) fun _ t ht => ?_
    exact ih ht fun b hb => hf b (List.mem_cons_of_mem _ hb)

/-- **A loop fails at its first element that fails.** From states that satisfy `P`, the elements
with `Q` fail with an error of the kind `bad`, and no others. -/
theorem runOn_forM_fails_iff {Q : α → Prop} {f : α → Fallible ε S PUnit}
    (hkeep : ∀ a s, P s → P (runOn (f a) s).2)
    (hfails : ∀ a s, P s → ((∃ e, bad e ∧ (runOn (f a) s).1 = .error e) ↔ Q a)) {l : List α}
    (hs : P s) : (∃ e, bad e ∧ (runOn (List.forM l f) s).1 = .error e) ↔
      ∃ pre a post t, l = pre ++ a :: post ∧ runOn (List.forM pre f) s = (.ok ⟨⟩, t) ∧ Q a := by
  induction l generalizing s with
  | nil =>
    rw [runOn_forM_nil]
    simp
  | cons a l ih =>
    have hfirst := hfails a s hs
    have hnext := hkeep a s hs
    rw [runOn_forM_cons, runOn_bind]
    rcases ha : runOn (f a) s with ⟨e | _, t⟩ <;> rw [ha] at hfirst hnext
    · constructor
      · exact fun he => ⟨[], a, l, s, rfl, rfl, hfirst.mp he⟩
      · rintro ⟨pre, b, post, t', hl, hpre, hb⟩
        cases pre with
        | nil =>
          obtain ⟨rfl, -⟩ := List.cons.inj hl
          exact hfirst.mpr hb
        | cons a' pre =>
          obtain ⟨rfl, -⟩ := List.cons.inj hl
          rw [runOn_forM_cons, runOn_bind, ha] at hpre
          cases hpre
    · refine (ih hnext).trans ⟨?_, ?_⟩
      · rintro ⟨pre, b, post, t', rfl, hpre, hb⟩
        refine ⟨a :: pre, b, post, t', rfl, ?_, hb⟩
        rw [runOn_forM_cons, runOn_bind_ok ha]
        exact hpre
      · rintro ⟨pre, b, post, t', hl, hpre, hb⟩
        cases pre with
        | nil =>
          obtain ⟨rfl, -⟩ := List.cons.inj hl
          obtain ⟨e, -, he⟩ := hfirst.mpr hb
          cases he
        | cons a' pre =>
          obtain ⟨rfl, rfl⟩ := List.cons.inj hl
          rw [runOn_forM_cons, runOn_bind_ok ha] at hpre
          exact ⟨pre, b, post, t', rfl, hpre, hb⟩

end Avoids

/-! ## Results -/

theorem bind_eq_ok {x : Except ε α} {f : α → Except ε β} {b : β} (h : (x >>= f) = .ok b) :
    ∃ a, x = .ok a ∧ f a = .ok b := by
  cases x with
  | error e => cases h
  | ok a => exact ⟨a, rfl, h⟩

/-- **Invariant rule for folds.** What every step that succeeds keeps, a fold that succeeds
establishes for the whole list. -/
theorem foldlM_invariant {P : List α → S → Prop} {f : S → α → Except ε S}
    (hstep : ∀ done a s s', P done s → f s a = .ok s' → P (done ++ [a]) s') {l : List α}
    (hs : P [] s) (h : l.foldlM f s = .ok s') : P l s' := by
  suffices hafter : ∀ done, P done s → P (done ++ l) s' from hafter [] hs
  clear hs
  intro done hs
  induction l generalizing done s with
  | nil =>
    cases h
    rwa [List.append_nil]
  | cons a l ih =>
    rw [List.foldlM_cons] at h
    obtain ⟨t, ha, hl⟩ := bind_eq_ok h
    rw [List.append_cons]
    exact ih hl (done ++ [a]) (hstep done a s t hs ha)

/-- **Rule for folds that may fail.** If every step succeeds and keeps what it should, or fails in
one of the `bad` ways, so does the fold. -/
theorem foldlM_cases {P : List α → S → Prop} (bad : ε → Prop) {f : S → α → Except ε S} {l : List α}
    (hstep : ∀ done a rest, l = done ++ a :: rest → ∀ s, P done s →
      (∃ s', f s a = .ok s' ∧ P (done ++ [a]) s') ∨ ∃ e, f s a = .error e ∧ bad e)
    {s : S} (hs : P [] s) :
    (∃ s', l.foldlM f s = .ok s' ∧ P l s') ∨ ∃ e, l.foldlM f s = .error e ∧ bad e := by
  suffices hafter : ∀ rest done s, l = done ++ rest → P done s →
      (∃ s', rest.foldlM f s = .ok s' ∧ P l s') ∨ ∃ e, rest.foldlM f s = .error e ∧ bad e from
    hafter l [] s rfl hs
  intro rest
  induction rest with
  | nil =>
    intro done s hl hdone
    rw [List.append_nil] at hl
    subst hl
    exact .inl ⟨s, rfl, hdone⟩
  | cons a rest ih =>
    intro done s hl hdone
    rw [List.foldlM_cons]
    rcases hstep done a rest hl s hdone with ⟨t, ht, hPt⟩ | ⟨e, he, hbad⟩
    · rw [ht]
      exact ih (done ++ [a]) t (by rw [hl, List.append_cons]) hPt
    · rw [he]
      exact .inr ⟨e, rfl, hbad⟩

/-- **Total rule for folds.** If every step succeeds and keeps what it should, so does the fold. -/
theorem foldlM_total {P : List α → S → Prop} {f : S → α → Except ε S} {l : List α}
    (hstep : ∀ done a rest, l = done ++ a :: rest → ∀ s, P done s →
      ∃ s', f s a = .ok s' ∧ P (done ++ [a]) s') {s : S} (hs : P [] s) :
    ∃ s', l.foldlM f s = .ok s' ∧ P l s' := by
  rcases foldlM_cases (fun _ => False)
    (fun done a rest hl s hdone => .inl (hstep done a rest hl s hdone)) hs with hok | ⟨e, -, hbad⟩
  · exact hok
  · exact hbad.elim

/-- **Rule for folds that fail on some elements.** If the steps fail, with `e`, exactly on the
elements with `Q`, so does the fold on the lists that have such an element. -/
theorem foldlM_error {Q : α → Prop} {e : ε} {f : S → α → Except ε S} {l : List α}
    (hbad : ∀ a ∈ l, Q a → ∀ s, f s a = .error e)
    (hgood : ∀ a ∈ l, ¬Q a → ∀ s, ∃ s', f s a = .ok s') (s : S) :
    (∃ a ∈ l, Q a) ∧ l.foldlM f s = .error e ∨
      (¬∃ a ∈ l, Q a) ∧ ∃ s', l.foldlM f s = .ok s' := by
  induction l generalizing s with
  | nil => exact .inr ⟨fun ⟨_, ha, _⟩ => absurd ha List.not_mem_nil, s, rfl⟩
  | cons a l ih =>
    rw [List.foldlM_cons]
    by_cases ha : Q a
    · rw [hbad a List.mem_cons_self ha s]
      exact .inl ⟨⟨a, List.mem_cons_self, ha⟩, rfl⟩
    · obtain ⟨t, ht⟩ := hgood a List.mem_cons_self ha s
      have hrest := ih (fun b hb => hbad b (List.mem_cons_of_mem _ hb))
        (fun b hb => hgood b (List.mem_cons_of_mem _ hb)) t
      rw [ht]
      simp only [List.exists_mem_cons_iff, ha, false_or]
      exact hrest

/-! ## Related states -/

variable {T : Type}

/-- Started in `s` and `t`, the two operations have one result and reach states related by `R`. -/
def RelatedAt (R : S → T → Prop) (x : Fallible ε S α) (y : Fallible ε T α) (s : S) (t : T) : Prop :=
  (runOn x s).1 = (runOn y t).1 ∧ R (runOn x s).2 (runOn y t).2

/-- From states related by `R` the two operations have one result, and again reach related
states. -/
def Related (R : S → T → Prop) (x : Fallible ε S α) (y : Fallible ε T α) : Prop :=
  ∀ s t, R s t → RelatedAt R x y s t

section Related

variable {R : S → T → Prop} {t t' : T}

theorem Related.pure (a : α) :
    Related R (Pure.pure a : Fallible ε S α) (Pure.pure a : Fallible ε T α) :=
  fun _ _ h => ⟨rfl, h⟩

theorem Related.throw (e : ε) :
    Related R (throw e : Fallible ε S α) (MonadExcept.throw e : Fallible ε T α) :=
  fun _ _ h => ⟨rfl, h⟩

theorem Related.set (h : R s t) :
    Related R (set s : Fallible ε S PUnit) (MonadState.set t : Fallible ε T PUnit) :=
  fun _ _ _ => ⟨rfl, h⟩

theorem Related.modify {f : S → S} {g : T → T} (h : ∀ s t, R s t → R (f s) (g t)) :
    Related R (modify f : Fallible ε S PUnit) (modify g : Fallible ε T PUnit) :=
  fun s t hs => ⟨rfl, h s t hs⟩

theorem RelatedAt.bind_of {Q : S → T → Prop} {x : Fallible ε S α} {y : Fallible ε T α}
    {f : α → Fallible ε S β} {g : α → Fallible ε T β}
    (h : RelatedAt R x y s t) (hQ : ∀ s t, R s t → Q s t)
    (hf : ∀ a s t, R s t → RelatedAt Q (f a) (g a) s t) :
    RelatedAt Q (x >>= f) (y >>= g) s t := by
  obtain ⟨hr, hR⟩ := h
  unfold RelatedAt
  rw [runOn_bind, runOn_bind]
  rcases hx : runOn x s with ⟨_ | a, s'⟩ <;> rcases hy : runOn y t with ⟨_ | b, t'⟩ <;>
    rw [hx, hy] at hr hR <;> cases hr
  · exact ⟨rfl, hQ s' t' hR⟩
  · exact hf a s' t' hR

theorem RelatedAt.bind {x : Fallible ε S α} {y : Fallible ε T α} {f : α → Fallible ε S β}
    {g : α → Fallible ε T β} (h : RelatedAt R x y s t) (hf : ∀ a, Related R (f a) (g a)) :
    RelatedAt R (x >>= f) (y >>= g) s t := h.bind_of (fun _ _ hR => hR) hf

theorem RelatedAt.get_bind {f : S → Fallible ε S β} {g : T → Fallible ε T β}
    (h : RelatedAt R (f s) (g t) s t) : RelatedAt R (get >>= f) (get >>= g) s t := h

theorem Related.bind {x : Fallible ε S α} {y : Fallible ε T α} {f : α → Fallible ε S β}
    {g : α → Fallible ε T β} (h : Related R x y) (hf : ∀ a, Related R (f a) (g a)) :
    Related R (x >>= f) (y >>= g) :=
  fun s t hs => (h s t hs).bind hf

theorem Related.forM₂ {f : α → Fallible ε S PUnit} {g : β → Fallible ε T PUnit} {l : List α}
    {l' : List β} (h : List.Forall₂ (fun a b => Related R (f a) (g b)) l l') :
    Related R (l.forM f) (l'.forM g) := by
  induction h with
  | nil => exact Related.pure _
  | cons hhead _ ih => exact Related.bind hhead fun _ => ih

theorem Related.forM {f : α → Fallible ε S PUnit} {g : α → Fallible ε T PUnit}
    (h : ∀ a, Related R (f a) (g a)) (l : List α) : Related R (l.forM f) (l.forM g) :=
  Related.forM₂ (List.forall₂_same.mpr fun a _ => h a)

end Related

end Fallible
