import Flume.Lib.Runs

/-!
# Fair schedules

Infinite schedules of a machine, and when they lead to a state that is done: no run changes the
state for ever, and whoever can always do something is given a turn again and again.

* `after step s es n`: the state after the first `n` events of the schedule `es`;
* `Effective step P`: an event leads from a state with `P` to another state;
* `Fair classes es`: an event of each class occurs again and again;
* **`eventually_done`**: under a fair schedule, a machine whose effective runs end and of which some
  class of events is effective until it is done, gets done.
-/

namespace Runs

variable {S E : Type*} (step : S → E → S)

/-- The state after the first `n` events of a schedule. -/
def after (s : S) (es : ℕ → E) (n : ℕ) : S := exec step s ((List.range n).map es)

/-- An event leads to the state `t` from another state `s`, which satisfies `P`. -/
def Effective (P : S → Prop) (t s : S) : Prop := P s ∧ ∃ e, t = step s e ∧ t ≠ s

/-- Events of every class occur again and again. -/
def Fair (classes : Set (Set E)) (es : ℕ → E) : Prop :=
  ∀ C ∈ classes, ∀ n, ∃ m, n ≤ m ∧ es m ∈ C

variable {step} {s : S} {es : ℕ → E}

theorem after_succ (n : ℕ) : after step s es (n + 1) = step (after step s es n) (es n) := by
  unfold after
  rw [List.range_succ, List.map_append]
  exact exec_concat _ _

theorem after_add (m n : ℕ) :
    after step s es (m + n) = after step (after step s es m) (fun k => es (m + k)) n := by
  induction n with
  | zero => rfl
  | succ n ih => rw [← Nat.add_assoc, after_succ, after_succ, ih]

theorem after_of_idle {n : ℕ} (h : ∀ k < n, step s (es k) = s) : after step s es n = s := by
  induction n with
  | zero => rfl
  | succ n ih =>
    rw [after_succ, ih fun k hk => h k (Nat.lt_succ_of_lt hk)]
    exact h n (Nat.lt_succ_self n)

theorem Fair.shift {classes : Set (Set E)} (h : Fair classes es) (k : ℕ) :
    Fair classes fun n => es (k + n) := by
  intro C hC n
  obtain ⟨m, hm, hmem⟩ := h C hC (k + n)
  refine ⟨m - k, by omega, ?_⟩
  show es (k + (m - k)) ∈ C
  rwa [Nat.add_sub_of_le (by omega)]

/-- **Liveness rule.** A machine that cannot change its state for ever, and has always a class of
events that change it, gets done under fair schedules. -/
theorem eventually_done {P D : S → Prop} {classes : Set (Set E)}
    (hkeep : ∀ s e, P s → P (step s e))
    (hprogress : ∀ s, P s → ¬ D s → ∃ C ∈ classes, ∀ e ∈ C, step s e ≠ s)
    (hacc : Acc (Effective step P) s) (h : P s) (hfair : Fair classes es) :
    ∃ n, D (after step s es n) := by
  induction hacc generalizing es with
  | intro s _ ih =>
    by_cases hdone : D s
    · exact ⟨0, hdone⟩
    · obtain ⟨C, hC, heffective⟩ := hprogress s h hdone
      obtain ⟨m, -, hm⟩ := hfair C hC 0
      have hexists : ∃ k, step s (es k) ≠ s := ⟨m, heffective _ hm⟩
      classical
      -- nothing happens before the first effective event
      let k := Nat.find hexists
      have hidle : after step s es k = s :=
        after_of_idle fun j hj => not_not.mp (Nat.find_min hexists hj)
      have hnext : after step s es (k + 1) = step s (es k) := by rw [after_succ, hidle]
      obtain ⟨n, hn⟩ := ih (step s (es k)) ⟨h, es k, rfl, Nat.find_spec hexists⟩
        (hkeep s _ h) (hfair.shift (k + 1))
      refine ⟨k + 1 + n, ?_⟩
      rw [after_add, hnext]
      exact hn

end Runs
