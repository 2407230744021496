import Mathlib.Data.Finset.Card
import Flume.Runtime.Coordinator

/-!
# When a commit is complete

`trigger_and_collect` commits when the number of distinct names it has received equals the number of
expected operators; it does not compare the names.

* `Collected`: the invariant, `received` is the set of names whose state was saved;
* `Complete`: every expected operator has acknowledged and its state was saved;
* **`commit_complete_iff`**: a commit is complete if and only if there are no more names outside
  `expected_operators` than repetitions in it.
-/

namespace Flume.Deployment

open SnapshotStore

/-- The operators that have acknowledged checkpoint `id` in this trigger and whose state was
saved. -/
def savedNames (s : Deployment) (id : U64) : Finset String :=
  ((s.acks.filter fun a => a.1.checkpointId = id ∧ a.2).map fun a => a.1.operatorName).toFinset

/-- Every expected operator has acknowledged checkpoint `id` in this trigger, and its state was
saved. -/
def Complete (cfg : CoordinatorConfig) (s : Deployment) (id : U64) : Prop :=
  ∀ name ∈ cfg.expectedOperators, ∃ ack, (ack, true) ∈ s.acks ∧ ack.checkpointId = id ∧
    ack.operatorName = name

/-- The operators outside `expected_operators` that have acknowledged and whose state was saved. -/
def unexpectedNames (cfg : CoordinatorConfig) (s : Deployment) (id : U64) : Finset String :=
  s.savedNames id \ cfg.expectedOperators.toFinset

theorem mem_savedNames {s : Deployment} {id : U64} {name : String} : name ∈ s.savedNames id ↔
    ∃ ack, (ack, true) ∈ s.acks ∧ ack.checkpointId = id ∧ ack.operatorName = name := by
  unfold savedNames
  simp only [List.mem_toFinset, List.mem_map, List.mem_filter, decide_eq_true_eq, Prod.exists]
  constructor
  · rintro ⟨ack, saved, ⟨hmem, hid, hsaved⟩, hname⟩
    exact ⟨ack, by rwa [hsaved] at hmem, hid, hname⟩
  · rintro ⟨ack, hmem, hid, hname⟩
    exact ⟨ack, true, ⟨hmem, hid, rfl⟩, hname⟩

theorem savedNames_concat (s : Deployment) (id : U64) (ack : CheckpointAck) (saved : Bool)
    (s' : Deployment) (h : s'.acks = s.acks ++ [(ack, saved)]) : s'.savedNames id =
      if ack.checkpointId = id ∧ saved = true then insert ack.operatorName (s.savedNames id)
      else s.savedNames id := by
  unfold savedNames
  rw [h, List.filter_append, List.map_append, List.toFinset_append]
  by_cases hid : ack.checkpointId = id <;> cases saved <;> simp [hid, Finset.union_comm]

variable (cfg : CoordinatorConfig)

/-- What `trigger_and_collect` has counted. -/
structure Collected (s : Deployment) : Prop where
  collecting : ∀ final id received, s.pc = .collecting final id received →
    received = s.savedNames id ∧ received.card < cfg.expectedOperators.length
  committing : ∀ final id, s.pc = .committing final id →
    (s.savedNames id).card = cfg.expectedOperators.length
  sending : ∀ final id sent, s.pc = .sending final id sent → s.acks = []

variable {cfg}

theorem collected_of_pc {s : Deployment}
    (h : s.pc = .stopped ∨ s.pc = .waiting ∨ ∃ plan, s.pc = .cleaning plan) : Collected cfg s := by
  rcases h with h | h | ⟨plan, h⟩ <;>
    exact ⟨fun _ _ _ hpc => (by rw [h] at hpc; cases hpc),
      fun _ _ hpc => (by rw [h] at hpc; cases hpc), fun _ _ _ hpc => (by rw [h] at hpc; cases hpc)⟩

theorem collected_collectPc {s : Deployment} {final : Bool} {id : U64} {received : Finset String}
    (hpc : s.pc = collectPc cfg final id received) (hr : received = s.savedNames id)
    (hle : received.card ≤ cfg.expectedOperators.length) : Collected cfg s := by
  unfold collectPc at hpc
  split_ifs at hpc with hlt
  · refine ⟨fun _ _ _ h => ?_, fun _ _ h => (by rw [hpc] at h; cases h),
      fun _ _ _ h => (by rw [hpc] at h; cases h)⟩
    rw [hpc] at h
    cases h
    exact ⟨hr, hlt⟩
  · refine ⟨fun _ _ _ h => (by rw [hpc] at h; cases h), fun _ _ h => ?_,
      fun _ _ _ h => (by rw [hpc] at h; cases h)⟩
    rw [hpc] at h
    cases h
    rw [← hr]; omega

theorem collected_injectPc {s : Deployment} {final : Bool} {id : U64} {sent : ℕ}
    (hpc : s.pc = injectPc cfg final id sent) (hacks : s.acks = []) : Collected cfg s := by
  have hnone : s.savedNames id = ∅ := by simp [savedNames, hacks]
  unfold injectPc at hpc
  split_ifs at hpc
  · exact ⟨fun _ _ _ h => (by rw [hpc] at h; cases h), fun _ _ h => (by rw [hpc] at h; cases h),
      fun _ _ _ _ => hacks⟩
  · exact collected_collectPc hpc hnone.symm (by simp)

theorem Collected.step {s : Deployment} (h : Collected cfg s) (ev : DeploymentEvent) :
    Collected cfg (s.step cfg ev) := by
  have hstep := step_cases cfg s ev
  generalize s.step cfg ev = s' at hstep ⊢
  cases hstep with
  | unchanged => exact h
  | halt _ pc next hpc => exact collected_of_pc (hpc.imp_right .inl)
  | trigger _ final => exact collected_injectPc rfl rfl
  | barrier final id sent hpc => exact collected_injectPc rfl (h.sending _ _ _ hpc)
  | stale final id received ack saved hpc hne =>
    obtain ⟨hr, hlt⟩ := h.collecting _ _ _ hpc
    refine ⟨fun _ _ _ hpc' => ?_, fun _ _ hpc' => (by rw [hpc] at hpc'; cases hpc'),
      fun _ _ _ hpc' => (by rw [hpc] at hpc'; cases hpc')⟩
    rw [hpc] at hpc'
    cases hpc'
    rw [savedNames_concat s id ack saved _ rfl, if_neg fun hc => hne hc.1]
    exact ⟨hr, hlt⟩
  | saveFailed final id received ack pc hpc hid hpc' => exact collected_of_pc (hpc'.imp_right .inl)
  | saved final id received ack hpc hid =>
    obtain ⟨hr, hlt⟩ := h.collecting _ _ _ hpc
    refine collected_collectPc rfl ?_ ?_
    · rw [savedNames_concat s id ack true _ rfl, if_pos ⟨hid, rfl⟩, hr]
    · exact (Finset.card_insert_le _ _).trans hlt
  | committed final id fs' hpc hc =>
    refine collected_of_pc ?_
    rcases finishPc_success cfg fs' final with hp | hp
    · exact .inl hp
    · rcases cleanUpPc_cases (toRemove fs' cfg.maxRetained) with ⟨hw, -⟩ | hw
      · exact .inr (.inl (hp.trans hw))
      · exact .inr (.inr ⟨_, hp.trans hw⟩)
  | removed id plan hpc =>
    refine collected_of_pc ?_
    rcases cleanUpPc_cases plan with ⟨hw, -⟩ | hw
    · exact .inr (.inl hw)
    · exact .inr (.inr ⟨_, hw⟩)

theorem collected_run (es : List DeploymentEvent) : Collected cfg (run cfg es) :=
  Runs.exec_invariant (P := Collected cfg) (fun _ ev h => h.step ev)
    (collected_of_pc (.inl rfl)) es

theorem complete_iff_subset {s : Deployment} {id : U64} :
    Complete cfg s id ↔ cfg.expectedOperators.toFinset ⊆ s.savedNames id := by
  unfold Complete
  simp only [Finset.subset_iff, List.mem_toFinset, mem_savedNames]

theorem subset_iff_card_sdiff_le {names : Finset String} {expected : List String}
    (hcard : names.card = expected.length) : expected.toFinset ⊆ names ↔
      (names \ expected.toFinset).card ≤ expected.length - expected.toFinset.card := by
  have hle := List.toFinset_card_le expected
  have hsplit := Finset.card_sdiff_add_card_inter names expected.toFinset
  have hinter : (names ∩ expected.toFinset).card ≤ expected.toFinset.card :=
    Finset.card_le_card Finset.inter_subset_right
  constructor
  · intro hsub
    rw [Finset.inter_eq_right.mpr hsub] at hsplit
    omega
  · intro hfew
    have heq : names ∩ expected.toFinset = expected.toFinset :=
      Finset.eq_of_subset_of_card_le Finset.inter_subset_right (by omega)
    exact Finset.inter_eq_right.mp heq

/-- **When a commit is complete:** if the states saved from unexpected operators are of no more
operators than `expected_operators` has repeated entries. -/
theorem commit_complete_iff (es : List DeploymentEvent) (final : Bool) (id : U64)
    (hpc : (run cfg es).pc = .committing final id) :
    Complete cfg (run cfg es) id ↔ (unexpectedNames cfg (run cfg es) id).card ≤
      cfg.expectedOperators.length - cfg.expectedOperators.toFinset.card := by
  rw [complete_iff_subset]
  exact subset_iff_card_sdiff_le ((collected_run es).committing final id hpc)

/-- Two expected operators and one source. -/
def twoOperators : CoordinatorConfig where
  expectedOperators := ["op_a", "op_b"]
  numSources := 1
  maxRetained := 3

/-- The first checkpoint is acknowledged by `op_a` and by an operator that is not expected. -/
def unexpectedAckRun : List DeploymentEvent :=
  [.start, .tick, .barrier true, .ack ⟨1, "op_a", [1]⟩ true, .ack ⟨1, "op_x", [2]⟩ true]

/-- The coordinator commits without an acknowledgement of `op_b`. -/
theorem unexpectedAckRun_incomplete :
    (run twoOperators unexpectedAckRun).pc = .committing false 1 ∧
      ¬ Complete twoOperators (run twoOperators unexpectedAckRun) 1 := by
  have hpc : (run twoOperators unexpectedAckRun).pc = .committing false 1 := by decide +kernel
  refine ⟨hpc, fun hc => ?_⟩
  have hb := complete_iff_subset.mp hc (List.mem_toFinset.mpr (show "op_b" ∈ _ by decide))
  exact absurd hb (by decide +kernel)

/-- With acknowledgements of both expected operators, one of them twice, the commit is complete. -/
theorem expectedAcksRun_complete : Complete twoOperators
    (run twoOperators [.start, .tick, .barrier true, .ack ⟨1, "op_a", [1]⟩ true,
      .ack ⟨1, "op_a", [1]⟩ true, .ack ⟨1, "op_b", [2]⟩ true]) 1 :=
  (commit_complete_iff _ false 1 (by decide +kernel)).mpr (by decide +kernel)

end Flume.Deployment
