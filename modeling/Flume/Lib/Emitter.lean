import Mathlib.Data.List.Basic
import Mathlib.Tactic

/-!
# Programs that emit

A program emits elements one by one into an environment, which accepts or refuses each, and goes on
with the answer.

* `Emitter`: such a program, with its monad and `send`, which returns the environment's error;
* `Run`: what a run emits and how it ends, whatever the environment answers; `emissions`, `result`
  for an environment that accepts everything;
* `Deterministic`: a run that succeeds has the effect of the run in which everything is accepted;
* `HandsOn`: a refusal ends the program with the environment's error, **`HandsOn.deterministic`**;
* `Leaves`: what is left of a program after some of its emissions;
* `emitAll`: a program that emits a list and hands on errors;
* `feed`: a machine whose steps are programs, fed with a list of inputs;
* **`feed_concat`**, **`feed_mono`**: one more input, and more inputs.
-/

namespace Emitters

/-- Ends with a result, or emits an element and goes on with the answer. -/
inductive Emitter (A ε α : Type) : Type
  | done (r : Except ε α)
  | emit (a : A) (next : Except ε Unit → Emitter A ε α)

namespace Emitter

variable {A ε α β : Type}

/-- One program after another; an error ends both. -/
def bind : Emitter A ε α → (α → Emitter A ε β) → Emitter A ε β
  | done (.ok a), f => f a
  | done (.error e), _ => done (.error e)
  | emit a next, f => emit a fun answer => (next answer).bind f

instance : Monad (Emitter A ε) where
  pure a := done (.ok a)
  bind := bind

/-- Emits an element and returns the error of the environment. -/
def send (a : A) : Emitter A ε Unit := emit a done

/-- What is emitted, if everything is accepted. -/
def emissions : Emitter A ε α → List A
  | done _ => []
  | emit a next => a :: (next (.ok ())).emissions

/-- The result, if everything is accepted. -/
def result : Emitter A ε α → Except ε α
  | done r => r
  | emit _ next => (next (.ok ())).result

/-- A run: what the environment accepts, and the result. -/
inductive Run : Emitter A ε α → List A → Except ε α → Prop
  | done (r : Except ε α) : Run (done r) [] r
  | accept {a : A} {next : Except ε Unit → Emitter A ε α} {out : List A} {r : Except ε α} :
      Run (next (.ok ())) out r → Run (emit a next) (a :: out) r
  | refuse {a : A} {next : Except ε Unit → Emitter A ε α} {out : List A} {r : Except ε α} (e : ε) :
      Run (next (.error e)) out r → Run (emit a next) out r

/-- What a run that succeeds emits, and its result, do not depend on the environment. -/
def Deterministic (x : Emitter A ε α) : Prop :=
  ∀ out a, x.Run out (.ok a) → x.emissions = out ∧ x.result = .ok a

/-- A refusal ends the program with the error of the environment. -/
def HandsOn : Emitter A ε α → Prop
  | done _ => True
  | emit _ next => (∀ e, next (.error e) = done (.error e)) ∧ (next (.ok ())).HandsOn

/-! ## Programs that hand on errors -/

theorem handsOn_pure (a : α) : (pure a : Emitter A ε α).HandsOn := trivial

theorem handsOn_send (a : A) : (send a : Emitter A ε Unit).HandsOn := ⟨fun _ => rfl, trivial⟩

theorem handsOn_bind {x : Emitter A ε α} {f : α → Emitter A ε β} (hx : x.HandsOn)
    (hf : ∀ a, (f a).HandsOn) : (x >>= f).HandsOn := by
  show (x.bind f).HandsOn
  induction x with
  | done r =>
    cases r with
    | ok a => exact hf a
    | error e => trivial
  | emit a next ih =>
    refine ⟨fun e => ?_, ih _ hx.2⟩
    show (next (.error e)).bind f = done (.error e)
    rw [hx.1 e]
    rfl

theorem handsOn_forM {as : List α} {f : α → Emitter A ε PUnit} (hf : ∀ a, (f a).HandsOn) :
    (as.forM f).HandsOn := by
  induction as with
  | nil => trivial
  | cons a as ih => exact handsOn_bind (hf a) fun _ => ih

/-- **A program that hands on errors succeeds only if everything is accepted.** -/
theorem HandsOn.deterministic {x : Emitter A ε α} (h : x.HandsOn) : x.Deterministic := by
  intro out a hrun
  induction x generalizing out with
  | done r =>
    cases hrun
    exact ⟨rfl, rfl⟩
  | emit b next ih =>
    cases hrun with
    | accept hrun =>
      obtain ⟨hemissions, hresult⟩ := ih _ h.2 _ hrun
      exact ⟨congrArg (List.cons b) hemissions, hresult⟩
    | refuse e hrun =>
      rw [h.1 e] at hrun
      cases hrun

/-- Emits the elements one by one and ends with the result `r`. -/
def emitAll : List A → Except ε α → Emitter A ε α
  | [], r => done r
  | a :: as, r => send a >>= fun _ => emitAll as r

theorem handsOn_emitAll (as : List A) (r : Except ε α) : (emitAll as r).HandsOn := by
  induction as with
  | nil => trivial
  | cons a as ih => exact handsOn_bind (handsOn_send a) fun _ => ih

@[simp] theorem emissions_emitAll (as : List A) (r : Except ε α) :
    (emitAll as r).emissions = as := by
  induction as with
  | nil => rfl
  | cons a as ih => exact congrArg (List.cons a) ih

@[simp] theorem result_emitAll (as : List A) (r : Except ε α) : (emitAll as r).result = r := by
  induction as with
  | nil => rfl
  | cons a as ih => exact ih

/-! ## What is left of a program -/

/-- After the emissions `out` of the program `x`, the program `y` is left. If the environment may
have refused some, this says something about successful runs of `y` only. -/
structure Leaves (refusing : Prop) (x : Emitter A ε α) (out : List A) (y : Emitter A ε α) :
    Prop where
  complete : refusing → ∀ rest a, y.Run rest (.ok a) →
    x.emissions = out ++ rest ∧ x.result = .ok a
  exact : ¬ refusing → x.emissions = out ++ y.emissions ∧ x.result = y.result

section Leaves

variable {refusing : Prop} {x : Emitter A ε α} {out : List A} {a : A}
  {next : Except ε Unit → Emitter A ε α}

theorem leaves_self (h : refusing → x.Deterministic) : Leaves refusing x [] x :=
  ⟨h, fun _ => ⟨rfl, rfl⟩⟩

theorem Leaves.accept (h : Leaves refusing x out (emit a next)) :
    Leaves refusing x (out ++ [a]) (next (.ok ())) where
  complete hr rest b hrun := by
    rw [List.append_assoc]
    exact h.complete hr _ b hrun.accept
  exact hr := by
    rw [List.append_assoc]
    exact h.exact hr

theorem Leaves.refuse (h : Leaves refusing x out (emit a next)) (hr : refusing) (e : ε) :
    Leaves refusing x out (next (.error e)) where
  complete _ rest b hrun := h.complete hr rest b (hrun.refuse e)
  exact hn := absurd hr hn

theorem Leaves.done {b : α} (h : Leaves refusing x out (done (.ok b))) :
    x.emissions = out ∧ x.result = .ok b := by
  by_cases hr : refusing
  · obtain ⟨hemissions, hresult⟩ := h.complete hr [] b (.done _)
    exact ⟨hemissions.trans (List.append_nil _), hresult⟩
  · obtain ⟨hemissions, hresult⟩ := h.exact hr
    exact ⟨hemissions.trans (List.append_nil _), hresult⟩

end Leaves

/-! ## Machines whose steps are programs -/

section Feed

variable {S I : Type} (step : S → I → Emitter A ε S)

/-- What the machine emits on a list of inputs, up to the first step that fails, and its result. -/
def feed : S → List I → List A × Except ε S
  | s, [] => ([], .ok s)
  | s, i :: is =>
    match (step s i).result with
    | .ok s' => ((step s i).emissions ++ (feed s' is).1, (feed s' is).2)
    | .error e => ((step s i).emissions, .error e)

variable {step}

theorem feed_append {s s' : S} {is : List I} (h : (feed step s is).2 = .ok s') (js : List I) :
    feed step s (is ++ js) = ((feed step s is).1 ++ (feed step s' js).1, (feed step s' js).2) := by
  induction is generalizing s with
  | nil => cases h; rfl
  | cons i is ih =>
    rw [List.cons_append, feed, feed]
    rw [feed] at h
    cases hr : (step s i).result with
    | error e => rw [hr] at h; cases h
    | ok t =>
      rw [hr] at h
      dsimp only at h ⊢
      rw [ih h, List.append_assoc]

theorem feed_append_error {s : S} {is : List I} {e : ε} (h : (feed step s is).2 = .error e)
    (js : List I) : feed step s (is ++ js) = feed step s is := by
  induction is generalizing s with
  | nil => cases h
  | cons i is ih =>
    rw [List.cons_append, feed, feed]
    rw [feed] at h
    cases hr : (step s i).result with
    | error e => rfl
    | ok t =>
      rw [hr] at h
      dsimp only at h ⊢
      rw [ih h]

theorem mem_feed {s : S} {is : List I} {a : A} (h : a ∈ (feed step s is).1) :
    ∃ t i, i ∈ is ∧ a ∈ (step t i).emissions := by
  induction is generalizing s with
  | nil => cases h
  | cons i is ih =>
    rw [feed] at h
    cases hr : (step s i).result with
    | error e =>
      rw [hr] at h
      exact ⟨s, i, List.mem_cons_self, h⟩
    | ok t =>
      rw [hr] at h
      rcases List.mem_append.mp h with h | h
      · exact ⟨s, i, List.mem_cons_self, h⟩
      · obtain ⟨t', i', hi', ha⟩ := ih h
        exact ⟨t', i', List.mem_cons_of_mem _ hi', ha⟩

/-- **One more input.** -/
theorem feed_concat {s s' : S} {is : List I} (h : (feed step s is).2 = .ok s') (i : I) :
    feed step s (is ++ [i]) =
      ((feed step s is).1 ++ (step s' i).emissions, (step s' i).result) := by
  rw [feed_append h, feed]
  cases hr : (step s' i).result with
  | ok t => simp [feed]
  | error e => rfl

/-- **More inputs, more output.** -/
theorem feed_mono {is js : List I} (h : is <+: js) (s : S) :
    (feed step s is).1 <+: (feed step s js).1 := by
  obtain ⟨ks, rfl⟩ := h
  cases hr : (feed step s is).2 with
  | ok s' =>
    rw [feed_append hr]
    exact List.prefix_append _ _
  | error e => rw [feed_append_error hr]

theorem exists_feed_ok (h : ∀ s i, ∃ s', (step s i).result = .ok s') (s : S) (is : List I) :
    ∃ s', (feed step s is).2 = .ok s' := by
  induction is generalizing s with
  | nil => exact ⟨s, rfl⟩
  | cons i is ih =>
    obtain ⟨t, ht⟩ := h s i
    rw [feed, ht]
    exact ih t

theorem length_feed_le {k : ℕ} (h : ∀ s i, (step s i).emissions.length ≤ k) (s : S) (is : List I) :
    (feed step s is).1.length ≤ k * is.length := by
  induction is generalizing s with
  | nil => exact Nat.zero_le _
  | cons i is ih =>
    rw [feed, List.length_cons, Nat.mul_succ]
    cases (step s i).result with
    | error e => exact (h s i).trans (Nat.le_add_left _ _)
    | ok t =>
      rw [List.length_append]
      exact (Nat.add_le_add (h s i) (ih t)).trans (Nat.add_comm _ _).le

end Feed

end Emitter

end Emitters
