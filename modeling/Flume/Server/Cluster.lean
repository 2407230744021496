import Flume.Server.JobManager
import Flume.Server.TaskManager

/-!
# Over-commitment

What is on offer to `deploy_job` comes from the last heartbeat of each TaskManager: the assignment
itself is not recorded. The build is one with overflow checks, as in `JobManager.deployJob`.

* `Cluster`, `ClusterEvent`, `step`: the JobManager, the TaskManagers, the RPCs on the way, and the
  slot usages that heartbeats report, early or late;
* `NotOvercommitted`: no TaskManager has more subtasks assigned than slots, and no slot is assigned
  twice;
* `Fits`: a registration has room for what is assigned, and a deployment finds every recorded usage
  up to date;
* **`notOvercommitted_run`**: a run whose steps fit never over-commits, and no weaker condition on
  the state before a call is enough for every call.
-/

namespace Flume

open Entries JobManager

/-- A running TaskManager. -/
structure TaskManagerProcess where
  id : String
  slots : SlotManager

/-- The JobManager, the TaskManagers by address, the slot usages that have been true so far, the
RPCs that have not arrived, and the subtasks that are assigned and not cancelled, with their jobs.
-/
structure Cluster where
  rm : ResourceManager
  processes : AList fun _ : String => TaskManagerProcess
  usages : List (String × ℕ)
  inFlight : List DeployRpc
  assigned : List (String × SubtaskAssignment)

/-- What can happen: a TaskManager starts and registers; a heartbeat with the `k`-th usage arrives;
`deploy_job` is called; the `k`-th RPC arrives or fails; the `k`-th assigned subtask is cancelled.
-/
inductive ClusterEvent
  | register (req : RegisterRequest)
  | heartbeat (k : ℕ)
  | deployJob (iter groupIter : IterOrder String) (jobId jobName : String) (parallelism : ℕ)
  | deliver (k : ℕ)
  | lose (k : ℕ)
  | cancel (k : ℕ)

namespace Cluster

def init : Cluster := ⟨.new, ∅, [], [], []⟩

/-- The TaskManager at an address handles an event. -/
def handleAt (s : Cluster) (address : String) (ev : TmEvent) : Cluster :=
  match s.processes.lookup address with
  | some p =>
    let slots := TaskManager.step p.slots ev
    { s with
      processes := s.processes.insert address { p with slots := slots }
      usages := s.usages ++ [(p.id, slots.slotsInUse)] }
  | none => s

/-- The state after an event. -/
def step (s : Cluster) : ClusterEvent → Cluster
  | .register req => { s with
      rm := (s.rm.register req).2
      processes := s.processes.insert req.address ⟨req.taskManagerId, .new req.numSlots⟩
      usages := s.usages ++ [(req.taskManagerId, 0)] }
  | .heartbeat k =>
    match s.usages[k]? with
    | some (tmId, slotsInUse) => { s with rm := (s.rm.heartbeat ⟨tmId, slotsInUse⟩).2 }
    | none => s
  | .deployJob iter groupIter jobId jobName parallelism =>
    match JobManager.deployJob (some s.rm) iter groupIter jobId jobName parallelism with
    | .ok (assignments, rpcs) => { s with
        inFlight := s.inFlight ++ rpcs
        assigned := s.assigned ++ assignments.map fun a => (jobId, a) }
    | .error _ => s
  | .deliver k =>
    match s.inFlight[k]? with
    | some rpc => { s with inFlight := s.inFlight.eraseIdx k }.handleAt rpc.address
        (.deploySubtask rpc.jobId rpc.subtaskId)
    | none => s
  | .lose k => { s with inFlight := s.inFlight.eraseIdx k }
  | .cancel k =>
    match s.assigned[k]? with
    | some (jobId, a) =>
      let s' := { s with assigned := s.assigned.eraseIdx k }
      match s.rm.get a.taskManagerId with
      | some info => s'.handleAt info.address (.cancelSubtask jobId a.subtaskId.canonicalName)
      | none => s'
    | none => s

/-- The state after a sequence of events. -/
def run (es : List ClusterEvent) : Cluster := Runs.exec step init es

/-- The slots of the subtasks that are assigned and not cancelled. -/
def slots (s : Cluster) : List (String × ℕ) := s.assigned.map fun p => p.2.slot

/-- The number of subtasks assigned to a TaskManager and not cancelled. -/
def load (s : Cluster) (tmId : String) : ℕ := s.slots.countP fun slot => slot.1 = tmId

/-- **No over-commitment**: no TaskManager has more subtasks assigned than slots, and no slot is
assigned twice. -/
def NotOvercommitted (s : Cluster) : Prop :=
  (∀ tmId info, s.rm.get tmId = some info → s.load tmId ≤ info.numSlots) ∧ s.slots.Nodup

/-- The recorded usage of a TaskManager covers what is assigned to it, and no slot on offer is
assigned. -/
def UpToDate (s : Cluster) (info : TaskManagerInfo) : Prop :=
  s.load info.id ≤ info.slotsInUse ∧ ∀ slot ∈ info.slotOffer.freeSlots, slot ∉ s.slots

/-- All TaskManagers that are on offer. -/
def infos (s : Cluster) : List TaskManagerInfo := s.rm.list (IterOrder.given _)

/-- Whether as many slots are on offer as a job needs. -/
def hasRoom (s : Cluster) (iter : IterOrder String) (parallelism : ℕ) : Bool :=
  match totalAvailable true (s.rm.slotOffers iter) with
  | .ok available => parallelism ≤ available
  | .error _ => false

/-- A registration has room for what is assigned to the TaskManager. When `deploy_job` finds enough
slots on offer, every recorded usage is up to date. -/
def Fits (s : Cluster) : ClusterEvent → Prop
  | .register req => s.load req.taskManagerId ≤ req.numSlots
  | .deployJob iter _ _ _ parallelism =>
      s.hasRoom iter parallelism = true → ∀ info ∈ s.infos, s.UpToDate info
  | _ => True

instance (s : Cluster) (info : TaskManagerInfo) : Decidable (s.UpToDate info) :=
  inferInstanceAs (Decidable (_ ∧ _))

instance (s : Cluster) : ∀ ev, Decidable (Fits s ev)
  | .register req => inferInstanceAs (Decidable (s.load req.taskManagerId ≤ req.numSlots))
  | .deployJob iter _ _ _ parallelism => inferInstanceAs (Decidable
      (s.hasRoom iter parallelism = true → ∀ info ∈ s.infos, s.UpToDate info))
  | .heartbeat _ => instDecidableTrue
  | .deliver _ => instDecidableTrue
  | .lose _ => instDecidableTrue
  | .cancel _ => instDecidableTrue

variable {s s' : Cluster} {tmId : String} {info : TaskManagerInfo}

/-! ## What a step changes -/

theorem handleAt_rm (s : Cluster) (address : String) (ev : TmEvent) :
    (s.handleAt address ev).rm = s.rm := by
  unfold handleAt
  cases s.processes.lookup address <;> rfl

theorem handleAt_assigned (s : Cluster) (address : String) (ev : TmEvent) :
    (s.handleAt address ev).assigned = s.assigned := by
  unfold handleAt
  cases s.processes.lookup address <;> rfl

/-- What a step does to the records of the JobManager and to the assigned subtasks. -/
inductive Changes (s : Cluster) : ClusterEvent → Cluster → Prop
  | registers (req : RegisterRequest) {s' : Cluster} (hrm : s'.rm = (s.rm.register req).2)
      (hassigned : s'.assigned = s.assigned) : Changes s (.register req) s'
  | reports (k : ℕ) (req : HeartbeatRequest) {s' : Cluster} (hrm : s'.rm = (s.rm.heartbeat req).2)
      (hassigned : s'.assigned = s.assigned) : Changes s (.heartbeat k) s'
  | deploys (iter groupIter : IterOrder String) (jobId jobName : String) (parallelism : ℕ)
      {assignments : List SubtaskAssignment} {rpcs : List DeployRpc} {s' : Cluster}
      (hdeploy : JobManager.deployJob (some s.rm) iter groupIter jobId jobName parallelism =
        .ok (assignments, rpcs)) (hrm : s'.rm = s.rm)
      (hslots : s'.slots = s.slots ++ assignments.map SubtaskAssignment.slot) :
      Changes s (.deployJob iter groupIter jobId jobName parallelism) s'
  | drops (ev : ClusterEvent) {s' : Cluster} (hrm : s'.rm = s.rm)
      (hassigned : s'.assigned.Sublist s.assigned) : Changes s ev s'

theorem step_deployJob {iter groupIter : IterOrder String} {jobId jobName : String}
    {parallelism : ℕ} {assignments : List SubtaskAssignment} {rpcs : List DeployRpc}
    (hdeploy : deployJob (some s.rm) iter groupIter jobId jobName parallelism =
      .ok (assignments, rpcs)) :
    (s.step (.deployJob iter groupIter jobId jobName parallelism)).rm = s.rm ∧
      (s.step (.deployJob iter groupIter jobId jobName parallelism)).slots =
        s.slots ++ assignments.map SubtaskAssignment.slot := by
  unfold step slots
  dsimp only
  rw [hdeploy]
  refine ⟨rfl, ?_⟩
  dsimp only
  rw [List.map_append, List.map_map]
  rfl

theorem step_changes (s : Cluster) (ev : ClusterEvent) : Changes s ev (s.step ev) := by
  cases ev with
  | register req => exact .registers req rfl rfl
  | heartbeat k =>
    unfold step
    dsimp only
    cases s.usages[k]? with
    | none => exact .drops _ rfl (List.Sublist.refl _)
    | some usage => exact .reports k ⟨usage.1, usage.2⟩ rfl rfl
  | deployJob iter groupIter jobId jobName parallelism =>
    cases hdeploy : deployJob (some s.rm) iter groupIter jobId jobName parallelism with
    | error e =>
      unfold step
      dsimp only
      rw [hdeploy]
      exact .drops _ rfl (List.Sublist.refl _)
    | ok result =>
      obtain ⟨hrm, hslots⟩ := step_deployJob hdeploy
      exact .deploys iter groupIter jobId jobName parallelism hdeploy hrm hslots
  | deliver k =>
    unfold step
    dsimp only
    cases s.inFlight[k]? with
    | none => exact .drops _ rfl (List.Sublist.refl _)
    | some rpc =>
      refine .drops _ (handleAt_rm _ _ _) ?_
      rw [handleAt_assigned]
  | lose k => exact .drops _ rfl (List.Sublist.refl _)
  | cancel k =>
    unfold step
    dsimp only
    cases s.assigned[k]? with
    | none => exact .drops _ rfl (List.Sublist.refl _)
    | some p =>
      dsimp only
      cases s.rm.get p.2.taskManagerId with
      | none => exact .drops _ rfl (List.eraseIdx_sublist _ _)
      | some info =>
        refine .drops _ (handleAt_rm _ _ _) ?_
        rw [handleAt_assigned]
        exact List.eraseIdx_sublist _ _

theorem keyed_step (h : s.rm.Keyed) (ev : ClusterEvent) : (s.step ev).rm.Keyed := by
  cases step_changes s ev with
  | registers req hrm => rw [hrm]; exact h.register req
  | reports k req hrm => rw [hrm]; exact h.heartbeat req
  | deploys _ _ _ _ _ _ hrm => rw [hrm]; exact h
  | drops ev hrm => rw [hrm]; exact h

theorem keyed_run (es : List ClusterEvent) : (run es).rm.Keyed :=
  Runs.exec_invariant (P := fun s : Cluster => s.rm.Keyed) (fun _ ev h => keyed_step h ev)
    ResourceManager.keyed_new es

theorem load_eq_of_slots (h : s'.slots = s.slots) : s'.load tmId = s.load tmId := by
  unfold load
  rw [h]

theorem NotOvercommitted.drops (h : NotOvercommitted s) (hrm : s'.rm = s.rm)
    (hassigned : s'.assigned.Sublist s.assigned) : NotOvercommitted s' := by
  have hslots : s'.slots.Sublist s.slots := hassigned.map _
  refine ⟨fun tmId info hget => ?_, h.2.sublist hslots⟩
  rw [hrm] at hget
  exact hslots.countP_le.trans (h.1 tmId info hget)

/-! ## Deploying -/

theorem countP_le_of_freeSlots {new : List (String × ℕ)} (hnodup : new.Nodup)
    (hfree : ∀ slot ∈ new, slot.1 = info.id → slot ∈ info.slotOffer.freeSlots) :
    new.countP (fun slot => slot.1 = info.id) ≤ info.numSlots - info.slotsInUse := by
  have hsub : (new.filter fun slot => slot.1 = info.id) ⊆ info.slotOffer.freeSlots := by
    intro slot hslot
    obtain ⟨hmem, hid⟩ := List.mem_filter.mp hslot
    exact hfree slot hmem (of_decide_eq_true hid)
  have hlen := (List.subperm_of_subset (hnodup.filter _) hsub).length_le
  rw [← List.countP_eq_length_filter] at hlen
  rwa [SlotOffer.length_freeSlots] at hlen

theorem le_countP_of_freeSlots {new : List (String × ℕ)}
    (hfree : info.slotOffer.freeSlots ⊆ new) :
    info.numSlots - info.slotsInUse ≤ new.countP (fun slot => slot.1 = info.id) := by
  have hsub : info.slotOffer.freeSlots ⊆ new.filter fun slot => slot.1 = info.id := by
    intro slot hslot
    refine List.mem_filter.mpr ⟨hfree hslot, ?_⟩
    rw [decide_eq_true_eq]
    exact (SlotOffer.mem_freeSlots.mp hslot).1
  have hlen := (List.subperm_of_subset (SlotOffer.nodup_freeSlots _) hsub).length_le
  rwa [← List.countP_eq_length_filter, SlotOffer.length_freeSlots] at hlen

theorem load_append {new : List (String × ℕ)} (hslots : s'.slots = s.slots ++ new) :
    s'.load tmId = s.load tmId + new.countP fun slot => slot.1 = tmId := by
  unfold load
  rw [hslots, List.countP_append]

/-- A deployment that finds the recorded usages up to date does not over-commit. -/
theorem NotOvercommitted.deploys (h : NotOvercommitted s) (hkeyed : s.rm.Keyed)
    {iter groupIter : IterOrder String} {jobId jobName : String} {parallelism : ℕ}
    {assignments : List SubtaskAssignment} {rpcs : List DeployRpc}
    (hdeploy : JobManager.deployJob (some s.rm) iter groupIter jobId jobName parallelism =
      .ok (assignments, rpcs)) (hrm : s'.rm = s.rm)
    (hslots : s'.slots = s.slots ++ assignments.map SubtaskAssignment.slot)
    (hfits : Fits s (.deployJob iter groupIter jobId jobName parallelism)) :
    NotOvercommitted s' := by
  obtain ⟨hnodup, hfree⟩ := newSlots_of_deployJob hkeyed hdeploy
  obtain ⟨available, havailable, hle⟩ := (deployJob_eq_ok hdeploy).1
  have hused : ∀ info, s.rm.get info.id = some info → info.slotsInUse ≤ info.numSlots := by
    intro info hget
    exact (totalAvailable_eq_ok.mp havailable).1 info.slotOffer
      (ResourceManager.mem_slotOffers.mpr ⟨info, hkeyed.mem_list.mpr hget, rfl⟩)
  have hdate : ∀ info, s.rm.get info.id = some info → s.UpToDate info := by
    intro info hget
    have hroom : s.hasRoom iter parallelism = true := by
      unfold hasRoom
      rw [havailable]
      exact decide_eq_true hle
    exact hfits hroom info (hkeyed.mem_list.mpr hget)
  constructor
  · intro tmId info hget
    rw [hrm] at hget
    obtain rfl := hkeyed tmId info hget
    have hcount : (assignments.map SubtaskAssignment.slot).countP (fun slot => slot.1 = info.id) ≤
        info.numSlots - info.slotsInUse := by
      refine countP_le_of_freeSlots hnodup fun slot hslot hid => ?_
      obtain ⟨info', hget', hmem⟩ := hfree slot hslot
      have hid' : slot.1 = info'.id := (SlotOffer.mem_freeSlots.mp hmem).1
      rw [← hid', hid, hget] at hget'
      rwa [Option.some.inj hget']
    have hload := (hdate info hget).1
    have hle := hused info hget
    rw [load_append hslots]
    omega
  · rw [hslots, List.nodup_append]
    refine ⟨h.2, hnodup, fun slot hslot slot' hslot' heq => ?_⟩
    subst heq
    obtain ⟨info, hget, hmem⟩ := hfree slot hslot'
    exact (hdate info hget).2 slot hmem hslot

theorem NotOvercommitted.step (h : NotOvercommitted s) (hkeyed : s.rm.Keyed) {ev : ClusterEvent}
    (hfits : Fits s ev) : NotOvercommitted (s.step ev) := by
  have hstep := step_changes s ev
  generalize s.step ev = s' at hstep ⊢
  cases hstep with
  | registers req hrm hassigned =>
    have hslots : s'.slots = s.slots := by unfold slots; rw [hassigned]
    refine ⟨fun tmId info hget => ?_, hslots ▸ h.2⟩
    rw [hrm, ResourceManager.get_register] at hget
    rw [load_eq_of_slots hslots]
    split_ifs at hget with htm
    · cases hget
      rw [htm]
      exact hfits
    · exact h.1 tmId info hget
  | reports k req hrm hassigned =>
    have hslots : s'.slots = s.slots := by unfold slots; rw [hassigned]
    refine ⟨fun tmId info hget => ?_, hslots ▸ h.2⟩
    rw [hrm, ResourceManager.get_heartbeat] at hget
    rw [load_eq_of_slots hslots]
    split_ifs at hget with htm
    · obtain ⟨info', hget', rfl⟩ := Option.map_eq_some_iff.mp hget
      exact h.1 tmId info' hget'
    · exact h.1 tmId info hget
  | deploys iter groupIter jobId jobName parallelism hdeploy hrm hslots =>
    exact h.deploys hkeyed hdeploy hrm hslots hfits
  | drops ev hrm hassigned => exact h.drops hrm hassigned

/-! ## Every weaker condition is too weak -/

/-- If no call over-commits, whatever parallelism it asks for, the recorded usages are up to date.
-/
theorem upToDate_of_deploys (hkeyed : s.rm.Keyed) {iter groupIter : IterOrder String}
    {jobId jobName : String} {available : ℕ}
    (havailable : totalAvailable true (s.rm.slotOffers iter) = .ok available)
    (hkeeps : ∀ parallelism,
      NotOvercommitted (s.step (.deployJob iter groupIter jobId jobName parallelism)))
    (hinfo : info ∈ s.infos) : s.UpToDate info := by
  have hget := hkeyed.mem_list.mp hinfo
  have hlist : info ∈ s.rm.list iter := hkeyed.mem_list.mpr hget
  have hoffer : info.slotOffer ∈ s.rm.slotOffers iter :=
    ResourceManager.mem_slotOffers.mpr ⟨info, hlist, rfl⟩
  obtain ⟨hused, -, havail⟩ := totalAvailable_eq_ok.mp havailable
  obtain ⟨assignments, rpcs, hdeploy, hlen⟩ := deployJob_all groupIter jobId jobName
    (List.ne_nil_of_mem hoffer) havailable
  rw [havail, ← length_freeSlots] at hlen
  have hfree := freeSlots_subset_of_deployJob hdeploy hlen hlist
  -- the call that asks for every available slot
  have hkept := hkeeps available
  obtain ⟨hrm, hslots⟩ := step_deployJob hdeploy
  constructor
  · have hcount : info.numSlots - info.slotsInUse ≤
        (assignments.map SubtaskAssignment.slot).countP fun slot => slot.1 = info.id :=
      le_countP_of_freeSlots hfree
    have hload := hkept.1 info.id info (by rw [hrm]; exact hget)
    have hle : info.slotsInUse ≤ info.numSlots := hused info.slotOffer hoffer
    rw [load_append hslots] at hload
    omega
  · intro slot hslot hmem
    have hnodup := hkept.2
    rw [hslots, List.nodup_append] at hnodup
    exact hnodup.2.2 slot hmem slot (hfree hslot) rfl

/-! ## The result -/

/-- **When the JobManager does not over-commit:** if registrations have room for what is assigned
and deployments find the usages up to date; nothing weaker is enough. -/
theorem notOvercommitted_run (es : List ClusterEvent) :
    (Runs.Along step Fits init es → ∀ pre, pre <+: es → NotOvercommitted (run pre)) ∧
    (NotOvercommitted (run es) →
      (∀ req, NotOvercommitted ((run es).step (.register req)) ↔ Fits (run es) (.register req)) ∧
      ∀ iter groupIter jobId jobName,
        (∀ parallelism,
          NotOvercommitted ((run es).step (.deployJob iter groupIter jobId jobName parallelism))) ↔
        ∀ parallelism, Fits (run es) (.deployJob iter groupIter jobId jobName parallelism)) := by
  refine ⟨fun halong pre hpre => ?_, fun h => ⟨fun req => ⟨fun hkept => ?_, fun hfits => ?_⟩,
    fun iter groupIter jobId jobName => ⟨fun hkept parallelism hroom info hinfo => ?_,
      fun hfits parallelism => ?_⟩⟩⟩
  · obtain ⟨post, rfl⟩ := hpre
    have hinit : NotOvercommitted init := ⟨fun _ _ hget => (by cases hget), List.nodup_nil⟩
    refine (Runs.exec_invariant_along (P := fun s : Cluster => s.rm.Keyed ∧ NotOvercommitted s)
      (fun s ev hs hfits => ⟨keyed_step hs.1 ev, hs.2.step hs.1 hfits⟩)
      ⟨ResourceManager.keyed_new, hinit⟩ ((Runs.along_append _ _).mp halong).1).2
  · refine hkept.1 req.taskManagerId ⟨req.taskManagerId, req.address, req.numSlots, 0,
      req.registeredJobs⟩ ?_
    change ((run es).rm.register req).2.get _ = _
    rw [ResourceManager.get_register, if_pos rfl]
  · exact h.step (keyed_run es) hfits
  · unfold hasRoom at hroom
    cases havailable : totalAvailable true ((run es).rm.slotOffers iter) with
    | error e => rw [havailable] at hroom; cases hroom
    | ok available => exact upToDate_of_deploys (keyed_run es) havailable hkept hinfo
  · exact h.step (keyed_run es) (hfits parallelism)

/-- A job takes all three slots, its subtask on the last slot is cancelled, and the TaskManager
reports the two that are left. The next job is given the last slot. -/
def reportedRun : List ClusterEvent :=
  [.register ⟨"tm-1", "http://127.0.0.1:50051", 3, []⟩,
    .deployJob (.given _) (.given _) "1" "wordcount" 3, .deliver 0, .deliver 0, .deliver 0,
    .cancel 0, .heartbeat 4, .deployJob (.given _) (.given _) "2" "enrich" 1]

theorem reportedRun_notOvercommitted : NotOvercommitted (run reportedRun) := by
  refine (notOvercommitted_run reportedRun).1 ?_ reportedRun (List.prefix_refl _)
  decide +kernel

/-- A TaskManager with one slot registers and reports that it is free. That report arrives again
after the first job has been deployed. -/
def staleRun : List ClusterEvent :=
  [.register ⟨"tm-1", "http://127.0.0.1:50051", 1, []⟩, .heartbeat 0,
    .deployJob (.given _) (.given _) "1" "wordcount" 1, .heartbeat 0,
    .deployJob (.given _) (.given _) "2" "enrich" 1]

/-- Both jobs are given the only slot. -/
theorem staleRun_overcommitted :
    (run staleRun).slots = [("tm-1", 0), ("tm-1", 0)] ∧ ¬ NotOvercommitted (run staleRun) := by
  have hslots : (run staleRun).slots = [("tm-1", 0), ("tm-1", 0)] := by decide +kernel
  refine ⟨hslots, fun h => ?_⟩
  have hnodup := h.2
  rw [hslots] at hnodup
  exact absurd hnodup (by decide)

end Cluster
end Flume
