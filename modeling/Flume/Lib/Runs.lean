import Mathlib.Data.List.Basic
import Mathlib.Tactic

/-!
# Runs of event-driven machines

A machine is a step function `step : S → E → S`; a list of events drives it. This file is the run
algebra that every machine of the development uses.

* `exec step s es`: the state after the events `es`;
* `Along step Q s es`: every step taken from `s` along `es` satisfies `Q`;
* **`exec_invariant`**, **`exec_invariant_along`**: what every (admissible) step keeps, a run keeps;
* **`forall_prefix_iff_along`**: what admissible steps keep and all others break;
* **`exec_reaches`**: a measure that every step decreases until `Done` bounds the length of a run
  that is not done;
* **`exists_done`**: a call that the events of a class bring closer to its end is done after so many
  of them;
* `EachAfter Q es`: every event satisfies `Q` with the events before it; `eachAfter_append`;
* `emitted step out s es`: what the steps of a run emit, in order;
* **`exists_exec_eq`**: a run passes through all prefixes of its history.
-/

namespace Runs

variable {S E : Type*} (step : S → E → S)

/-- The state after a list of events. -/
def exec (s : S) (es : List E) : S := es.foldl step s

/-- Every step of the run from `s` satisfies `Q`. -/
def Along (Q : S → E → Prop) : S → List E → Prop
  | _, [] => True
  | s, e :: es => Q s e ∧ Along Q (step s e) es

/-- Whether a run is admissible can be computed. -/
instance Along.decidable {Q : S → E → Prop} [∀ s e, Decidable (Q s e)] :
    ∀ (s : S) (es : List E), Decidable (Along step Q s es)
  | _, [] => instDecidableTrue
  | s, e :: es => @instDecidableAnd _ _ _ (Along.decidable (step s e) es)

variable {step} {Q : S → E → Prop} {s : S}

@[simp] theorem exec_nil : exec step s [] = s := rfl

@[simp] theorem exec_cons (e : E) (es : List E) : exec step s (e :: es) = exec step (step s e) es :=
  rfl

theorem exec_append (es fs : List E) :
    exec step s (es ++ fs) = exec step (exec step s es) fs := List.foldl_append

theorem exec_concat (es : List E) (e : E) :
    exec step s (es ++ [e]) = step (exec step s es) e := exec_append es [e]

theorem along_append (es fs : List E) :
    Along step Q s (es ++ fs) ↔ Along step Q s es ∧ Along step Q (exec step s es) fs := by
  induction es generalizing s with
  | nil => simp [Along]
  | cons e es ih => simp only [List.cons_append, Along, exec_cons, ih, and_assoc]

theorem along_concat (es : List E) (e : E) :
    Along step Q s (es ++ [e]) ↔ Along step Q s es ∧ Q (exec step s es) e := by
  rw [along_append]; simp [Along]

theorem along_iff_eachStep (es : List E) :
    Along step Q s es ↔ ∀ pre e post, es = pre ++ e :: post → Q (exec step s pre) e := by
  induction es generalizing s with
  | nil => simp [Along]
  | cons a es ih =>
    rw [Along, ih]
    constructor
    · rintro ⟨ha, h⟩ pre e post he
      cases pre with
      | nil => obtain ⟨rfl, -⟩ := List.cons.inj he; exact ha
      | cons b pre =>
        obtain ⟨rfl, he'⟩ := List.cons.inj he
        exact h pre e post he'
    · intro h
      exact ⟨h [] a es rfl, fun pre e post he => h (a :: pre) e post (by rw [he]; rfl)⟩

/-- **Invariant rule.** -/
theorem exec_invariant {P : S → Prop} (hstep : ∀ s e, P s → P (step s e)) (h : P s)
    (es : List E) : P (exec step s es) := by
  induction es generalizing s with
  | nil => exact h
  | cons e es ih => exact ih (hstep s e h)

/-- **Invariant rule for runs whose steps are admissible.** -/
theorem exec_invariant_along {P : S → Prop} (hstep : ∀ s e, P s → Q s e → P (step s e)) (h : P s)
    {es : List E} (hQ : Along step Q s es) : P (exec step s es) := by
  induction es generalizing s with
  | nil => exact h
  | cons e es ih => exact ih (hstep s e h hQ.1) hQ.2

theorem along_of_keeps {P : S → Prop} (hQ : ∀ s e, P s → Q s e)
    (hstep : ∀ s e, P s → Q s e → P (step s e)) (h : P s) (es : List E) : Along step Q s es := by
  induction es generalizing s with
  | nil => trivial
  | cons e es ih => exact ⟨hQ s e h, ih (hstep s e h (hQ s e h))⟩

/-- **Exactness rule.** If admissible steps keep `P`, with an invariant `I`, and all others break
it, then `P` holds at every point of a run exactly when all its steps are admissible. -/
theorem forall_prefix_iff_along {I P : S → Prop} {A : E → Prop}
    (hI : ∀ s e, A e → I s → P s → Q s e → I (step s e))
    (hkeep : ∀ s e, A e → I s → P s → Q s e → P (step s e))
    (hbreak : ∀ s e, A e → I s → P s → ¬ Q s e → ¬ P (step s e)) (hs : I s) (h : P s) {es : List E}
    (hes : ∀ e ∈ es, A e) :
    (∀ pre, pre <+: es → P (exec step s pre)) ↔ Along step Q s es := by
  induction es generalizing s with
  | nil => simpa [Along] using h
  | cons e es ih =>
    have he := hes e List.mem_cons_self
    have hes' : ∀ e' ∈ es, A e' := fun e' he' => hes e' (List.mem_cons_of_mem _ he')
    constructor
    · intro hall
      have hq : Q s e := by
        by_contra hq
        exact hbreak s e he hs h hq (hall [e] ⟨es, rfl⟩)
      have hnext := ih (hI s e he hs h hq) (hkeep s e he hs h hq) hes'
      exact ⟨hq, hnext.mp fun pre hpre => hall (e :: pre) (List.cons_prefix_cons.mpr ⟨rfl, hpre⟩)⟩
    · rintro ⟨hq, halong⟩ pre hpre
      cases pre with
      | nil => exact h
      | cons e' pre =>
        obtain ⟨rfl, htail⟩ := List.cons_prefix_cons.mp hpre
        exact (ih (hI s e' he hs h hq) (hkeep s e' he hs h hq) hes').mpr halong pre htail

/-! ## Events and what comes before them -/

/-- Every event satisfies `R` with the events before it. -/
def EachAfter (R : List E → E → Prop) (es : List E) : Prop :=
  ∀ pre e post, es = pre ++ e :: post → R pre e

theorem exec_history (l es : List E) : exec (fun pre e => pre ++ [e]) l es = l ++ es := by
  induction es generalizing l with
  | nil => rw [exec_nil, List.append_nil]
  | cons e es ih => rw [exec_cons, ih, List.append_assoc, List.singleton_append]

theorem eachAfter_iff_along {R : List E → E → Prop} {es : List E} :
    EachAfter R es ↔ Along (fun pre e => pre ++ [e]) R [] es := by
  rw [along_iff_eachStep]
  simp only [exec_history, List.nil_append]
  rfl

theorem eachAfter_nil (R : List E → E → Prop) : EachAfter R [] := eachAfter_iff_along.mpr trivial

theorem eachAfter_concat {R : List E → E → Prop} {es : List E} {e : E} :
    EachAfter R (es ++ [e]) ↔ EachAfter R es ∧ R es e := by
  rw [eachAfter_iff_along, along_concat, exec_history, List.nil_append, ← eachAfter_iff_along]

theorem eachAfter_append {R : List E → E → Prop} {es fs : List E} :
    EachAfter R (es ++ fs) ↔ EachAfter R es ∧ EachAfter (fun pre e => R (es ++ pre) e) fs := by
  induction fs using List.reverseRecOn with
  | nil => simp [eachAfter_nil]
  | append_singleton fs f ih =>
    rw [← List.append_assoc, eachAfter_concat, ih, eachAfter_concat, and_assoc]

theorem eachAfter_of_forall {R : List E → E → Prop} {es : List E} (h : ∀ e ∈ es, ∀ pre, R pre e) :
    EachAfter R es := by
  rintro pre e post rfl
  exact h e (List.mem_append_right _ List.mem_cons_self) pre

/-! ## What a run emits -/

section Emitted

variable {O : Type*} (step) (out : S → E → List O)

/-- What the steps of a run emit, where `out s e` is what the step from `s` emits. -/
def emitted : S → List E → List O
  | _, [] => []
  | s, e :: es => out s e ++ emitted (step s e) es

variable {step out}

@[simp] theorem emitted_nil (s : S) : emitted step out s [] = [] := rfl

theorem emitted_append (s : S) (es fs : List E) : emitted step out s (es ++ fs) =
    emitted step out s es ++ emitted step out (exec step s es) fs := by
  induction es generalizing s with
  | nil => rfl
  | cons e es ih => rw [List.cons_append, emitted, emitted, ih, List.append_assoc, exec_cons]

theorem emitted_concat (s : S) (es : List E) (e : E) :
    emitted step out s (es ++ [e]) = emitted step out s es ++ out (exec step s es) e := by
  rw [emitted_append, emitted, emitted_nil, List.append_nil]

end Emitted

/-- **A history passes through all its prefixes**, if no step adds more than one element to it. -/
theorem exists_exec_eq {A : Type*} {f : S → List A} (hinit : f s = [])
    (hstep : ∀ s e, f (step s e) = f s ∨ ∃ a, f (step s e) = f s ++ [a])
    {es : List E} {p : List A} (hp : p <+: f (exec step s es)) :
    ∃ pre post, es = pre ++ post ∧ f (exec step s pre) = p := by
  induction es using List.reverseRecOn with
  | nil =>
    rw [exec_nil, hinit, List.prefix_nil] at hp
    exact ⟨[], [], rfl, hinit.trans hp.symm⟩
  | append_singleton es e ih =>
    rw [exec_concat] at hp
    by_cases hbefore : p <+: f (exec step s es)
    · obtain ⟨pre, post, rfl, hpre⟩ := ih hbefore
      exact ⟨pre, post ++ [e], List.append_assoc _ _ _, hpre⟩
    · -- the last step has completed the prefix
      refine ⟨es ++ [e], [], (List.append_nil _).symm, ?_⟩
      rw [exec_concat]
      rcases hstep (exec step s es) e with hsame | ⟨a, hgrown⟩
      · exact absurd (hsame ▸ hp) hbefore
      · rw [hgrown] at hp ⊢
        rcases List.prefix_concat_iff.mp hp with hp | hp
        · exact hp.symm
        · exact absurd hp hbefore

/-- **Progress rule.** If every step keeps `P` and, until `Done`, decreases `μ`, then a run of at
least `μ s` steps ends in `Done`. -/
theorem exec_reaches (P Done : S → Prop) (A : E → Prop) (μ : S → ℕ)
    (hkeep : ∀ s e, A e → P s → P (step s e)) (hdone : ∀ s e, A e → Done s → Done (step s e))
    (hdec : ∀ s e, A e → P s → ¬ Done s → μ (step s e) < μ s ∨ Done (step s e)) (h : P s)
    {es : List E} (hes : ∀ e ∈ es, A e) (hlen : μ s < es.length) : Done (exec step s es) := by
  have stay : ∀ (fs : List E) (t : S), (∀ e ∈ fs, A e) → Done t → Done (exec step t fs) := by
    intro fs
    induction fs with
    | nil => intro t _ ht; exact ht
    | cons e fs ih =>
      intro t hfs ht
      exact ih _ (fun e' he' => hfs e' (List.mem_cons_of_mem _ he'))
        (hdone _ _ (hfs e List.mem_cons_self) ht)
  induction es generalizing s with
  | nil => exact absurd hlen (Nat.not_lt_zero _)
  | cons e es ih =>
    have he := hes e List.mem_cons_self
    have hes' : ∀ e' ∈ es, A e' := fun e' he' => hes e' (List.mem_cons_of_mem _ he')
    by_cases hd : Done s
    · exact stay es _ hes' (hdone s e he hd)
    · rcases hdec s e he h hd with hμ | hd'
      · exact ih (hkeep s e he h) hes' (by rw [List.length_cons] at hlen; omega)
      · exact stay es _ hes' hd'

/-- **Return rule.** A call that is brought closer to its end by the events of a class, and not
taken back by others, is done after `rank [] + 1` of them. -/
theorem exists_done (C : E → Bool) (Busy Done : List E → Prop) (rank : List E → ℕ) {es : List E}
    (hmine : ∀ pre e post, es = pre ++ e :: post → C e = true → Busy pre →
      Done (pre ++ [e]) ∨ Busy (pre ++ [e]) ∧ rank (pre ++ [e]) < rank pre)
    (hother : ∀ pre e post, es = pre ++ e :: post → C e = false → Busy pre →
      Busy (pre ++ [e]) ∧ rank (pre ++ [e]) ≤ rank pre) (h : Busy [])
    (hlen : rank [] < es.countP C) :
    ∃ pre post, es = pre ++ post ∧ pre.countP C ≤ rank [] + 1 ∧ Done pre := by
  by_contra hnever
  have hbusy : ∀ pre post, es = pre ++ post → Busy pre ∧ rank pre + pre.countP C ≤ rank [] := by
    intro pre
    induction pre using List.reverseRecOn with
    | nil => exact fun post _ => ⟨h, le_rfl⟩
    | append_singleton pre e ih =>
      intro post hpost
      rw [List.append_assoc, List.singleton_append] at hpost
      obtain ⟨hpre, hle⟩ := ih (e :: post) hpost
      rw [List.countP_append, List.countP_singleton]
      cases hclass : C e with
      | true =>
        rcases hmine pre e post hpost hclass hpre with hdone | ⟨hnext, hlt⟩
        · refine absurd ⟨pre ++ [e], post, by simp [hpost], ?_, hdone⟩ hnever
          rw [List.countP_append, List.countP_singleton, if_pos hclass]
          omega
        · exact ⟨hnext, by rw [if_pos rfl]; omega⟩
      | false =>
        obtain ⟨hnext, hle'⟩ := hother pre e post hpost hclass hpre
        exact ⟨hnext, by rw [if_neg Bool.false_ne_true]; omega⟩
  have hall := (hbusy es [] (List.append_nil es).symm).2
  omega

end Runs
