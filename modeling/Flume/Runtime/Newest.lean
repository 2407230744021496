import Flume.Runtime.Recovery

/-!
# When the newest commit is found and kept

Recency is represented by the id alone, and the ids of a restarted coordinator start at 1 again.

* `FindsNewest`: `latest_checkpoint` finds the newest commit, and no clean-up is going to remove it;
* `NotBelow`: no checkpoint is committed under an id below the latest one;
* **`findsNewest_iff_notBelow`**: the newest commit is found and kept at every point of a run if and
  only if no step of the run commits below the latest checkpoint.
-/

namespace Flume

open SnapshotStore

/-- The checkpoint that is being committed. -/
def CoordinatorPc.committing? : CoordinatorPc → Option U64
  | committing _ id => some id
  | _ => none

namespace Deployment

/-- After at least one commit, `latest_checkpoint` finds the newest one, and the clean-up under way
does not remove it. -/
def FindsNewest (s : Deployment) : Prop :=
  ∀ k ∈ s.commits.head?, latestCheckpoint s.fs = some k.checkpointId ∧
    ∀ plan, s.pc = .cleaning plan → k.checkpointId ∉ plan

/-- If the step writes the marker of a checkpoint, the latest checkpoint has no larger id. -/
def NotBelow (s : Deployment) (ev : DeploymentEvent) : Prop :=
  ev = .commit true → (s.pc.committing?.bind fun id => s.fs.lookup id).isSome →
    s.pc.committing?.all fun id => (latestCheckpoint s.fs).all fun l => l ≤ id

instance (s : Deployment) (ev : DeploymentEvent) : Decidable (NotBelow s ev) :=
  inferInstanceAs (Decidable (ev = .commit true → _ → _))

variable {cfg : CoordinatorConfig} {s : Deployment}

theorem NotBelow.le (h : NotBelow s (.commit true)) {final : Bool} {id : U64} {fs' : FileSystem}
    (hpc : s.pc = .committing final id) (hc : commit s.fs id = .ok fs') {l : U64}
    (hl : latestCheckpoint s.fs = some l) : l ≤ id := by
  obtain ⟨dir, hdir, -⟩ := commit_eq_ok hc
  have hall := h rfl
  simpa [CoordinatorPc.committing?, hpc, hdir, hl] using hall

theorem below_cases {ev : DeploymentEvent} (h : ¬ NotBelow s ev) :
    ev = .commit true ∧ ∃ final id fs' l, s.pc = .committing final id ∧
      commit s.fs id = .ok fs' ∧ latestCheckpoint s.fs = some l ∧ id < l := by
  unfold NotBelow at h
  push Not at h
  obtain ⟨hev, hsome, hbelow⟩ := h
  refine ⟨hev, ?_⟩
  cases hpc : s.pc with
  | committing final id =>
    simp only [hpc, CoordinatorPc.committing?, Option.bind_some] at hsome hbelow
    obtain ⟨dir, hdir⟩ := Option.isSome_iff_exists.mp hsome
    cases hl : latestCheckpoint s.fs with
    | none => simp [hl] at hbelow
    | some l =>
      refine ⟨final, id, _, l, rfl, by unfold commit; rw [hdir], rfl, ?_⟩
      simpa [hl] using hbelow
  | _ => simp [hpc, CoordinatorPc.committing?] at hsome

theorem FindsNewest.step (hkeep : 1 ≤ cfg.maxRetained) (h : FindsNewest s) (hr : Removing cfg s)
    (ev : DeploymentEvent) (hno : NotBelow s ev) : FindsNewest (s.step cfg ev) := by
  have hr' := hr.step ev
  have hstep := step_cases cfg s ev
  generalize s.step cfg ev = s' at hstep hr' ⊢
  -- it is enough to find the newest commit: a clean-up never removes the latest checkpoint
  suffices hl : ∀ k ∈ s'.commits.head?, latestCheckpoint s'.fs = some k.checkpointId from
    fun k hk => ⟨hl k hk, fun plan hplan => (hr' plan hplan).latest_notMem hkeep (hl k hk)⟩
  intro k hk
  cases hstep with
  | saved final id received ack hpc hid =>
    rw [latestCheckpoint_saveState]
    exact (h k hk).1
  | committed final id fs' hpc hc =>
    obtain rfl := Option.some.inj hk
    exact latestCheckpoint_commit_of_le hc fun l hl => hno.le hpc hc hl
  | removed id plan hpc =>
    obtain ⟨hl, hplan⟩ := h k hk
    have hne : k.checkpointId ≠ id := fun he => hplan _ hpc (he ▸ List.mem_cons_self)
    exact latestCheckpoint_erase_of_ne hl hne
  | _ => exact (h k hk).1

theorem not_findsNewest_of_below {ev : DeploymentEvent} (hno : ¬ NotBelow s ev) :
    ¬ FindsNewest (s.step cfg ev) := by
  obtain ⟨rfl, final, id, fs', l, hpc, hc, hl, hlt⟩ := below_cases hno
  intro h
  have hstep : s.step cfg (.commit true) = { s with
      fs := fs'
      commits := ⟨s.triggers, id⟩ :: s.commits
      pc := finishPc cfg fs' final .success } := by
    unfold step writeMarker
    simp only [hpc, if_true, hc]
  rw [hstep] at h
  have hnew := (h ⟨s.triggers, id⟩ rfl).1
  have hold := latestCheckpoint_commit_of_lt hc hl hlt.le
  exact absurd (Option.some.inj (hnew.symm.trans hold)) hlt.ne

/-- **When the newest commit is found and kept**, across restarts and crashes: if no checkpoint is
committed whose id is below the one that `latest_checkpoint` finds. -/
theorem findsNewest_iff_notBelow (hkeep : 1 ≤ cfg.maxRetained) (es : List DeploymentEvent) :
    (∀ pre, pre <+: es → FindsNewest (run cfg pre)) ↔
      Runs.Along (step cfg) NotBelow init es := by
  refine Runs.forall_prefix_iff_along (I := Removing cfg) (A := fun _ => True)
    (fun _ ev _ h _ _ => h.step ev) (fun _ ev _ hr h hno => h.step hkeep hr ev hno)
    (fun _ _ _ _ _ hno => not_findsNewest_of_below hno) removing_init (fun k hk => by cases hk)
    fun _ _ => trivial

/-- One checkpoint of the two operators, up to its commit. -/
def checkpointRun (id : U64) (bytes : Bytes) : List DeploymentEvent :=
  [.tick, .barrier true, .ack ⟨id, "op_a", bytes⟩ true, .ack ⟨id, "op_b", bytes⟩ true, .commit true]

/-- A process commits checkpoints 1 and 2; the next one commits checkpoint 1. -/
def restartedRun : List DeploymentEvent :=
  [.start] ++ checkpointRun 1 [1] ++ checkpointRun 2 [2] ++ [.crash, .start] ++ checkpointRun 1 [3]

/-- The newest commit is checkpoint 1, but checkpoint 2 is found. -/
theorem restartedRun_finds_old : ¬ FindsNewest (run twoOperators restartedRun) := by
  intro h
  have hcommits : (run twoOperators restartedRun).commits.head? = some ⟨3, 1⟩ := by decide +kernel
  have hlatest : latestCheckpoint (run twoOperators restartedRun).fs = some 2 := by decide +kernel
  exact absurd (hlatest.symm.trans (h _ hcommits).1) (by decide)

/-- Without a restart the newest commit is found. -/
theorem twoCheckpointsRun_findsNewest :
    FindsNewest (run twoOperators ([.start] ++ checkpointRun 1 [1] ++ checkpointRun 2 [2])) :=
  (findsNewest_iff_notBelow (by decide) _).mpr (by decide +kernel) _ List.prefix_rfl

end Deployment

end Flume
