import Flume.Network.ResourceManager

/-!
# Deploying jobs

`deploy_job` schedules a job on the slots that the resource manager has on offer and then sends the
subtasks to their TaskManagers. The build is one with overflow checks: the call panics if a
TaskManager has more slots in use than it has, where a release build would take it to have almost
`2 ^ 64` slots on offer.

* `buildJobGraph`, `groupByAddress`, `deployJob`: as the code has them;
* `newSlots_of_deployJob`: the assigned slots are different slots on offer;
* `deployJob_all`, `freeSlots_subset_of_deployJob`: a call that asks for every available slot gets
  every slot on offer.
-/

namespace Flume

open Entries ScheduleFailure Fallible

/-- A `deploy_subtask` RPC. -/
structure DeployRpc where
  address : String
  jobId : String
  jobName : String
  subtaskId : String

namespace JobManager

/-- The logical graph of a job: one source. -/
def buildJobGraph (jobName : String) (parallelism : ℕ) : LogicalGraph :=
  (LogicalGraph.new.addNode (jobName ++ "-source") .source parallelism).2

/-- The names of the assigned subtasks, by the address of their TaskManager. -/
def groupByAddress (rm : ResourceManager) (assignments : List SubtaskAssignment) :
    AList fun _ : String => List String :=
  assignments.foldl (fun tmAssignments assignment =>
    match rm.get assignment.taskManagerId with
    | some info =>
      upsert tmAssignments info.address [] (· ++ [assignment.subtaskId.canonicalName])
    | none => tmAssignments) ∅

/-- `map_err`: the text before the error of the scheduler. -/
def schedulingFailed {α : Type} : Except ScheduleFailure α → Except ScheduleFailure α
  | .error (.error msg) => .error (.error ("scheduling failed: " ++ msg))
  | r => r

/-- Schedules a job: the assignments, and the RPCs that are sent then. `iter` and `groupIter` are
the iteration orders of the two maps. -/
def deployJob (resourceManager : Option ResourceManager) (iter groupIter : IterOrder String)
    (jobId jobName : String) (parallelism : ℕ) :
    Except ScheduleFailure (List SubtaskAssignment × List DeployRpc) := do
  let some rm := resourceManager | throw (.error "no resource manager (JM gRPC not running)")
  let slotOffers := rm.slotOffers iter
  if slotOffers.isEmpty then throw (.error "no TaskManagers registered")
  let available ← totalAvailable true slotOffers
  if available < parallelism then
    throw (.error ("not enough slots: need " ++ toString parallelism ++ ", available " ++
      toString available))
  let graph := buildJobGraph jobName parallelism
  let physical ← schedulingFailed (schedule true graph slotOffers .spread)
  let tmAssignments := groupByAddress rm physical.assignments
  let rpcs := (visit groupIter tmAssignments).flatMap fun (address, subtaskIds) =>
    subtaskIds.map fun subtaskId => ⟨address, jobId, jobName, subtaskId⟩
  return (physical.assignments, rpcs)

/-! ## What `deploy_job` assigns -/

variable {rm : ResourceManager} {iter groupIter : IterOrder String} {jobId jobName : String}
  {parallelism : ℕ} {assignments : List SubtaskAssignment} {rpcs : List DeployRpc}

theorem schedulingFailed_eq_ok {α : Type} {r : Except ScheduleFailure α} {a : α}
    (h : schedulingFailed r = .ok a) : r = .ok a := by
  unfold schedulingFailed at h
  split at h
  · cases h
  · exact h

theorem deployJob_eq_ok (h : deployJob (some rm) iter groupIter jobId jobName parallelism =
    .ok (assignments, rpcs)) :
    (∃ available, totalAvailable true (rm.slotOffers iter) = .ok available ∧
      parallelism ≤ available) ∧
      ∃ physical, schedule true (buildJobGraph jobName parallelism) (rm.slotOffers iter) .spread =
        .ok physical ∧ physical.assignments = assignments := by
  unfold deployJob at h
  dsimp only at h
  split_ifs at h with hempty
  · cases h
  · obtain ⟨available, havailable, h⟩ := bind_eq_ok h
    split_ifs at h with hlt
    · cases h
    · obtain ⟨physical, hphysical, h⟩ := bind_eq_ok h
      cases h
      exact ⟨⟨available, havailable, Nat.not_lt.mp hlt⟩, physical, schedulingFailed_eq_ok hphysical,
        rfl⟩

theorem schedule_buildJobGraph (jobName : String) {offers : List SlotOffer} {available : ℕ}
    (havailable : totalAvailable true offers = .ok available) (hle : parallelism ≤ available) :
    ∃ physical, schedule true (buildJobGraph jobName parallelism) offers .spread = .ok physical ∧
      physical.assignments.length = parallelism := by
  obtain ⟨hused, hfree, rfl⟩ := totalAvailable_eq_ok.mp havailable
  have hqueue : (List.range parallelism).length ≤ (buildSlotQueue offers .spread).length := by
    rw [List.length_range, (perm_buildSlotQueue offers .spread).length_eq, length_freeSlots]
    exact hle
  obtain ⟨st, hst, hids, -⟩ := assignSubtasks_ok 0
    ⟨0, jobName ++ "-source", .source, parallelism⟩ ([], buildSlotQueue offers .spread) hqueue
  have hlen : st.1.length = parallelism := by simpa using congrArg List.length hids
  refine ⟨⟨st.1, []⟩, ?_, hlen⟩
  have htopo : (buildJobGraph jobName parallelism).topologicalOrder = .ok (some [0]) := rfl
  have hassign : [0].foldlM (assignNode (buildJobGraph jobName parallelism))
      ([], buildSlotQueue offers .spread) = .ok st := by
    change ((List.range parallelism).foldlM
      (assignSubtask 0 ⟨0, jobName ++ "-source", .source, parallelism⟩) _ >>= _) = _
    rw [hst]
    rfl
  have hcount : (buildJobGraph jobName parallelism).subtaskCount = parallelism := rfl
  have hlt : parallelism < 2 ^ 64 := hle.trans_lt hfree
  rw [schedule_sorted true .spread htopo hused, hcount,
    if_neg fun h => h.2.elim (Nat.not_le_of_lt hlt) (Nat.not_le_of_lt hfree),
    Nat.mod_eq_of_lt hlt, Nat.mod_eq_of_lt hfree, if_neg (Nat.not_lt.mpr hle), hassign]
  rfl

theorem deployJob_all (groupIter : IterOrder String) (jobId jobName : String) {available : ℕ}
    (hsome : rm.slotOffers iter ≠ [])
    (havailable : totalAvailable true (rm.slotOffers iter) = .ok available) :
    ∃ assignments rpcs, deployJob (some rm) iter groupIter jobId jobName available =
      .ok (assignments, rpcs) ∧ assignments.length = available := by
  obtain ⟨physical, hphysical, hlen⟩ :=
    schedule_buildJobGraph jobName havailable le_rfl
  have hassignments : (deployJob (some rm) iter groupIter jobId jobName available).map Prod.fst =
      .ok physical.assignments := by
    unfold deployJob
    dsimp only
    rw [if_neg (by rw [List.isEmpty_iff]; exact hsome), havailable]
    change Except.map _ (if available < available then _ else _) = _
    rw [if_neg (lt_irrefl _), hphysical]
    rfl
  cases hdeploy : deployJob (some rm) iter groupIter jobId jobName available with
  | error e => rw [hdeploy] at hassignments; cases hassignments
  | ok result =>
    rw [hdeploy] at hassignments
    exact ⟨result.1, result.2, rfl, by rw [Except.ok.inj hassignments, hlen]⟩

theorem newSlots_of_deployJob (hkeyed : rm.Keyed)
    (h : deployJob (some rm) iter groupIter jobId jobName parallelism = .ok (assignments, rpcs)) :
    (assignments.map SubtaskAssignment.slot).Nodup ∧
      ∀ slot ∈ assignments.map SubtaskAssignment.slot,
        ∃ info, rm.get info.id = some info ∧ slot ∈ info.slotOffer.freeSlots := by
  obtain ⟨-, physical, hphysical, rfl⟩ := deployJob_eq_ok h
  have hsub := (schedule_slots hphysical).sublist
  have hperm := perm_reverse_buildSlotQueue (rm.slotOffers iter) .spread
  constructor
  · exact (hperm.nodup_iff.mpr (nodup_freeSlots (hkeyed.nodup_slotOffers iter))).sublist hsub
  · intro slot hslot
    obtain ⟨o, ho, hfree⟩ := List.mem_flatMap.mp (hperm.mem_iff.mp (hsub.subset hslot))
    obtain ⟨info, hinfo, rfl⟩ := ResourceManager.mem_slotOffers.mp ho
    exact ⟨info, hkeyed.mem_list.mp hinfo, hfree⟩

theorem freeSlots_subset_of_deployJob {info : TaskManagerInfo}
    (h : deployJob (some rm) iter groupIter jobId jobName parallelism = .ok (assignments, rpcs))
    (hlen : assignments.length = ((rm.slotOffers iter).flatMap SlotOffer.freeSlots).length)
    (hinfo : info ∈ rm.list iter) :
    info.slotOffer.freeSlots ⊆ assignments.map SubtaskAssignment.slot := by
  obtain ⟨-, physical, hphysical, rfl⟩ := deployJob_eq_ok h
  have hperm := perm_reverse_buildSlotQueue (rm.slotOffers iter) .spread
  have hall := (schedule_slots hphysical).eq_of_length (by
    rw [List.length_map, hlen, hperm.length_eq])
  intro slot hslot
  rw [hall]
  have hoffer : info.slotOffer ∈ rm.slotOffers iter :=
    ResourceManager.mem_slotOffers.mpr ⟨info, hinfo, rfl⟩
  exact hperm.mem_iff.mpr (List.mem_flatMap.mpr ⟨_, hoffer, hslot⟩)

end JobManager
end Flume
