import Mathlib.Data.Finset.Card
import Mathlib.Data.Finset.Insert
import Flume.Lib.Runs
import Flume.Runtime.Store

/-!
# The checkpoint coordinator, across restarts and crashes

A process runs a `CheckpointCoordinator` over a checkpoint directory; it may end or crash at any
point between two file-system steps, and the next process starts a new coordinator over the same
directory. The acknowledgements that arrive, their order, the timers and the failures of the file
system are left open.

* `CoordinatorConfig`, `CoordinatorPc`: what `CheckpointCoordinator::new` is given, and where `run`
  and `trigger_and_collect` stand;
* `Deployment`: the directory, the process, and histories of the acknowledgements of the current
  trigger, of the saved states and of the commits;
* `DeploymentEvent`, `Deployment.step`: one step of the process or of its environment;
* **`Deployment.step_cases`**: everything a step can do;
* `Removing`: what a clean-up under way may remove.
-/

namespace Flume

open SnapshotStore

/-- What a coordinator is created with; of the barrier senders only their number matters. -/
structure CoordinatorConfig where
  expectedOperators : List String
  numSources : ℕ
  maxRetained : ℕ

/-- The result of `trigger_and_collect`. -/
inductive CheckpointResult
  | success
  | timeout
  | pipelineShutdown
  deriving DecidableEq

/-- Where the process stands. `final` marks the checkpoint that a cancelled coordinator takes
before it returns; `received` is the set of names that `trigger_and_collect` has collected. -/
inductive CoordinatorPc
  | stopped
  | waiting
  | sending (final : Bool) (checkpointId : U64) (sent : ℕ)
  | collecting (final : Bool) (checkpointId : U64) (received : Finset String)
  | committing (final : Bool) (checkpointId : U64)
  | cleaning (plan : List U64)
  deriving DecidableEq

/-- A state that was saved: by which trigger, and what. -/
structure SavedState where
  trigger : ℕ
  checkpointId : U64
  operatorName : String
  stateBytes : Bytes
  deriving DecidableEq

/-- A checkpoint that was committed, and by which trigger. -/
structure CommittedCheckpoint where
  trigger : ℕ
  checkpointId : U64
  deriving DecidableEq

/-- The checkpoint directory and the process. `triggers` counts the calls of `trigger_and_collect`;
`acks` are the acknowledgements that the last one received, with whether their state was saved;
`saves` and `commits` are all saved states and all commits, the newest first. -/
structure Deployment where
  fs : FileSystem
  pc : CoordinatorPc
  nextCheckpointId : U64
  triggers : ℕ
  acks : List (CheckpointAck × Bool)
  saves : List SavedState
  commits : List CommittedCheckpoint

/-- What happens next: a process starts or crashes; the timer ticks, or the coordinator is
cancelled; a barrier is sent to a source, or the source is gone; an acknowledgement arrives, and
its state can be saved or not; no operator is left to acknowledge; the deadline passes; the marker
is written, or cannot be; a clean-up removes a directory. -/
inductive DeploymentEvent
  | start
  | crash
  | tick
  | cancel
  | barrier (ok : Bool)
  | ack (ack : CheckpointAck) (saved : Bool)
  | acksClosed
  | timeout
  | commit (written : Bool)
  | remove
  deriving DecidableEq

namespace Deployment

/-- An empty directory and no process. -/
def init : Deployment where
  fs := ∅
  pc := .stopped
  nextCheckpointId := 1
  triggers := 0
  acks := []
  saves := []
  commits := []

variable (cfg : CoordinatorConfig)

/-- Where a clean-up goes on. -/
def cleanUpPc : List U64 → CoordinatorPc
  | [] => .waiting
  | plan => .cleaning plan

/-- Where `run` goes on when `trigger_and_collect` has returned `result`. -/
def finishPc (fs : FileSystem) (final : Bool) (result : CheckpointResult) : CoordinatorPc :=
  if final then .stopped
  else match result with
    | .success => cleanUpPc (toRemove fs cfg.maxRetained)
    | .timeout => .waiting
    | .pipelineShutdown => .stopped

/-- The test of the loop that collects acknowledgements. -/
def collectPc (final : Bool) (checkpointId : U64) (received : Finset String) : CoordinatorPc :=
  if received.card < cfg.expectedOperators.length then .collecting final checkpointId received
  else .committing final checkpointId

/-- The loop that sends barriers, after `sent` of them. -/
def injectPc (final : Bool) (checkpointId : U64) (sent : ℕ) : CoordinatorPc :=
  if sent < cfg.numSources then .sending final checkpointId sent
  else collectPc cfg final checkpointId ∅

/-- `run` calls `trigger_and_collect` with the next id. -/
def trigger (s : Deployment) (final : Bool) : Deployment :=
  { s with
    nextCheckpointId := s.nextCheckpointId + 1
    triggers := s.triggers + 1
    acks := []
    pc := injectPc cfg final s.nextCheckpointId 0 }

/-- `trigger_and_collect` receives an acknowledgement. -/
def receiveAck (s : Deployment) (final : Bool) (checkpointId : U64) (received : Finset String)
    (ack : CheckpointAck) (saved : Bool) : Deployment :=
  let s := { s with acks := s.acks ++ [(ack, saved)] }
  if ack.checkpointId = checkpointId then
    if saved then
      { s with
        fs := saveState s.fs checkpointId ack.operatorName ack.stateBytes
        saves := ⟨s.triggers, checkpointId, ack.operatorName, ack.stateBytes⟩ :: s.saves
        pc := collectPc cfg final checkpointId (insert ack.operatorName received) }
    else { s with pc := finishPc cfg s.fs final .timeout }
  else s

/-- `trigger_and_collect` commits. -/
def writeMarker (s : Deployment) (final : Bool) (checkpointId : U64) (written : Bool) :
    Deployment :=
  match if written then commit s.fs checkpointId else .error .io with
  | .ok fs =>
    { s with
      fs := fs
      commits := ⟨s.triggers, checkpointId⟩ :: s.commits
      pc := finishPc cfg fs final .success }
  | .error _ => { s with pc := finishPc cfg s.fs final .timeout }

/-- One step. An event that does not apply changes nothing. -/
def step (s : Deployment) (ev : DeploymentEvent) : Deployment :=
  match s.pc, ev with
  | _, .crash => { s with pc := .stopped }
  | .stopped, .start => { s with pc := .waiting, nextCheckpointId := 1 }
  | .waiting, .tick => s.trigger cfg false
  | .waiting, .cancel => s.trigger cfg true
  | .sending final id sent, .barrier ok =>
    { s with pc := if ok then injectPc cfg final id (sent + 1)
        else finishPc cfg s.fs final .pipelineShutdown }
  | .collecting final id received, .ack ack saved => s.receiveAck cfg final id received ack saved
  | .collecting final _ _, .acksClosed =>
    { s with pc := finishPc cfg s.fs final .pipelineShutdown }
  | .collecting final _ _, .timeout => { s with pc := finishPc cfg s.fs final .timeout }
  | .committing final id, .commit written => s.writeMarker cfg final id written
  | .cleaning (id :: plan), .remove => { s with fs := s.fs.erase id, pc := cleanUpPc plan }
  | _, _ => s

/-- The state after a run. -/
def run (es : List DeploymentEvent) : Deployment := Runs.exec (step cfg) init es

/-! ## What a step does -/

/-- The steps of a deployment. -/
inductive Steps (s : Deployment) : DeploymentEvent → Deployment → Prop
  | unchanged (ev : DeploymentEvent) : Steps s ev s
  | halt (ev : DeploymentEvent) (pc : CoordinatorPc) (next : U64)
      (hpc : pc = .stopped ∨ pc = .waiting) : Steps s ev { s with pc := pc, nextCheckpointId := next }
  | trigger (ev : DeploymentEvent) (final : Bool) : Steps s ev (s.trigger cfg final)
  | barrier (final : Bool) (id : U64) (sent : ℕ) (hpc : s.pc = .sending final id sent) :
      Steps s (.barrier true) { s with pc := injectPc cfg final id (sent + 1) }
  | stale (final : Bool) (id : U64) (received : Finset String) (ack : CheckpointAck) (saved : Bool)
      (hpc : s.pc = .collecting final id received) (hne : ack.checkpointId ≠ id) :
      Steps s (.ack ack saved) { s with acks := s.acks ++ [(ack, saved)] }
  | saveFailed (final : Bool) (id : U64) (received : Finset String) (ack : CheckpointAck)
      (pc : CoordinatorPc) (hpc : s.pc = .collecting final id received)
      (hid : ack.checkpointId = id) (hpc' : pc = .stopped ∨ pc = .waiting) :
      Steps s (.ack ack false) { s with acks := s.acks ++ [(ack, false)], pc := pc }
  | saved (final : Bool) (id : U64) (received : Finset String) (ack : CheckpointAck)
      (hpc : s.pc = .collecting final id received) (hid : ack.checkpointId = id) :
      Steps s (.ack ack true) { s with
        acks := s.acks ++ [(ack, true)]
        fs := saveState s.fs id ack.operatorName ack.stateBytes
        saves := ⟨s.triggers, id, ack.operatorName, ack.stateBytes⟩ :: s.saves
        pc := collectPc cfg final id (insert ack.operatorName received) }
  | committed (final : Bool) (id : U64) (fs' : FileSystem) (hpc : s.pc = .committing final id)
      (hc : commit s.fs id = .ok fs') :
      Steps s (.commit true) { s with
        fs := fs'
        commits := ⟨s.triggers, id⟩ :: s.commits
        pc := finishPc cfg fs' final .success }
  | removed (id : U64) (plan : List U64) (hpc : s.pc = .cleaning (id :: plan)) :
      Steps s .remove { s with fs := s.fs.erase id, pc := cleanUpPc plan }

theorem finishPc_of_failure (fs : FileSystem) (final : Bool) {result : CheckpointResult}
    (h : result ≠ .success) :
    finishPc cfg fs final result = .stopped ∨ finishPc cfg fs final result = .waiting := by
  cases final <;> cases result <;> simp [finishPc] at h ⊢

/-- **Everything a step can do.** -/
theorem step_cases (s : Deployment) (ev : DeploymentEvent) : Steps cfg s ev (s.step cfg ev) := by
  unfold step
  split
  · exact .halt _ .stopped s.nextCheckpointId (.inl rfl)
  · exact .halt _ .waiting 1 (.inr rfl)
  · exact .trigger _ false
  · exact .trigger _ true
  · rename_i final id sent ok hpc
    cases ok
    · simp only [Bool.false_eq_true, if_false]
      exact .halt _ _ s.nextCheckpointId (finishPc_of_failure cfg _ final (by simp))
    · exact .barrier final id sent hpc
  · rename_i final id received ack saved hpc
    unfold receiveAck
    simp only
    split_ifs with hid hsaved
    · rw [hsaved]; exact .saved final id received ack hpc hid
    · rw [Bool.eq_false_iff.mpr hsaved]
      exact .saveFailed final id received ack _ hpc hid (finishPc_of_failure cfg _ final (by simp))
    · exact .stale final id received ack saved hpc hid
  · exact .halt _ _ s.nextCheckpointId (finishPc_of_failure cfg _ _ (by simp))
  · exact .halt _ _ s.nextCheckpointId (finishPc_of_failure cfg _ _ (by simp))
  · rename_i final id written hpc
    unfold writeMarker
    cases written with
    | false => exact .halt _ _ s.nextCheckpointId (finishPc_of_failure cfg _ final (by simp))
    | true =>
      rw [if_pos rfl]
      split
      · rename_i fs' hc
        exact .committed final id fs' hpc hc
      · exact .halt _ _ s.nextCheckpointId (finishPc_of_failure cfg _ final (by simp))
  · rename_i id plan hpc
    exact .removed id plan hpc
  · exact .unchanged _

/-! ## Clean-ups -/

theorem cleanUpPc_cases (plan : List U64) :
    cleanUpPc plan = .waiting ∧ plan = [] ∨ cleanUpPc plan = .cleaning plan := by
  cases plan
  · exact .inl ⟨rfl, rfl⟩
  · exact .inr rfl

theorem finishPc_success (cfg : CoordinatorConfig) (fs : FileSystem) (final : Bool) :
    finishPc cfg fs final .success = .stopped ∨
      finishPc cfg fs final .success = cleanUpPc (toRemove fs cfg.maxRetained) := by
  cases final
  · exact .inr rfl
  · exact .inl rfl

theorem eq_of_cleanUpPc_eq {plan plan' : List U64} (h : cleanUpPc plan = .cleaning plan') :
    plan = plan' := by
  cases plan with
  | nil => cases h
  | cons => injection h

theorem collectPc_ne_cleaning (final : Bool) (id : U64) (received : Finset String)
    (plan : List U64) : collectPc cfg final id received ≠ .cleaning plan := by
  unfold collectPc; split_ifs <;> simp

theorem injectPc_ne_cleaning (final : Bool) (id : U64) (sent : ℕ) (plan : List U64) :
    injectPc cfg final id sent ≠ .cleaning plan := by
  unfold injectPc
  split_ifs
  · simp
  · exact collectPc_ne_cleaning cfg final id ∅ plan

/-- The clean-up under way removes the smallest committed ids, and leaves as many as it should. -/
def Removing (s : Deployment) : Prop :=
  ∀ plan, s.pc = .cleaning plan → Removes s.fs plan cfg.maxRetained

variable {cfg}

theorem Removing.step {s : Deployment} (h : Removing cfg s) (ev : DeploymentEvent) :
    Removing cfg (s.step cfg ev) := by
  have hstep := step_cases cfg s ev
  generalize s.step cfg ev = s' at hstep ⊢
  intro plan hplan
  cases hstep with
  | unchanged => exact h plan hplan
  | halt _ pc next hpc => rcases hpc with rfl | rfl <;> cases hplan
  | trigger _ final => exact (injectPc_ne_cleaning cfg _ _ _ _ hplan).elim
  | barrier final id sent hpc => exact (injectPc_ne_cleaning cfg _ _ _ _ hplan).elim
  | stale final id received ack saved hpc hne => exact h plan hplan
  | saveFailed final id received ack pc hpc hid hpc' =>
    rcases hpc' with rfl | rfl <;> cases hplan
  | saved final id received ack hpc hid => exact (collectPc_ne_cleaning cfg _ _ _ _ hplan).elim
  | committed final id fs' hpc hc =>
    rcases finishPc_success cfg fs' final with hp | hp
    · exact absurd (hp.symm.trans hplan) (by simp)
    · rw [← eq_of_cleanUpPc_eq (hp.symm.trans hplan)]
      exact removes_toRemove fs' cfg.maxRetained
  | removed id rest hpc =>
    rw [← eq_of_cleanUpPc_eq hplan]
    exact (h _ hpc).erase

theorem removing_init : Removing cfg init := fun _ hplan => by cases hplan

end Deployment

end Flume
