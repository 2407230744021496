import Flume.Server.JobReaper

/-!
# The two reapers

`reap_finished_jobs` awaits a finished task and takes the job's final status from its result;
`job_reaper` infers it from the status and the cancellation token.

* `jobReaper`, `reapFinishedJobs`: one tick of each;
* `ReaperEvent`, `runReapers`: any interleaving of requests, tasks and ticks of both;
* `Consistent`: what holds in every state; `consistent_run`;
* `status?_jobReaper`, **`reapFinishedJobs_spec`**: what a tick does to the status of every job;
* **`reapers_agree_iff`**: when the two ticks leave every job with the same variant of the status.
-/

namespace Flume

open Entries

/-- The number of the variant, as `mem::discriminant` tells variants apart. -/
def JobStatus.discriminant : JobStatus → ℕ
  | running => 0
  | cancelling => 1
  | cancelled => 2
  | completed => 3
  | failed _ => 4

namespace JobServer

/-- The final status that `job_reaper` infers. -/
def inferredStatus (s : JobServer) (id : Uuid) (handle : JobHandle) : JobStatus :=
  if handle.status = .cancelling then .cancelled
  else if s.isCancelled id then .cancelled
  else .completed

/-- Sets the final status of a job if its task has finished and it has none. -/
def inferStatus (s : JobServer) (id : Uuid) (handle : JobHandle) : JobHandle :=
  if (s.result? id).isSome && !handle.status.isTerminal then
    { handle with status := s.inferredStatus id handle }
  else handle

/-- One tick of `job_reaper`, which has the lock all the time. -/
def jobReaper (iter : IterOrder Uuid) (s : JobServer) : JobServer :=
  { s with jobs := modifyAll s.inferStatus iter s.jobs }

/-- One tick of `reap_finished_jobs` with nothing in between: it starts, takes and sets each of the
finished jobs, and sleeps. -/
def reapFinishedJobs (iter : IterOrder Uuid) (s : JobServer) : JobServer :=
  (reapStep iter)^[2 * (s.finishedIds iter).length + 1] (s.reapStep iter)

end JobServer

/-- What can happen while both reapers are running. -/
inductive ReaperEvent
  | server (ev : JobEvent)
  | jobReaper (iter : IterOrder Uuid)

namespace JobServer

/-- `job_reaper` waits for the lock like a request. -/
def reaperStep (s : JobServer) : ReaperEvent → JobServer
  | .server ev => s.step ev
  | .jobReaper iter => if s.lockFree then s.jobReaper iter else s

/-- The state after a sequence of events. -/
def runReapers (registry : List String) (config : JobConfig) (es : List ReaperEvent) : JobServer :=
  Runs.exec reaperStep (init registry config) es

/-- A new id is not the id of an earlier job. -/
def FreshReaperId (s : JobServer) : ReaperEvent → Prop
  | .server ev => FreshId s ev
  | .jobReaper _ => True

instance (s : JobServer) : ∀ ev, Decidable (FreshReaperId s ev)
  | .server ev => inferInstanceAs (Decidable (FreshId s ev))
  | .jobReaper _ => instDecidableTrue

variable {s : JobServer} {id : Uuid} {h : JobHandle}

/-! ## What holds in every state -/

/-- A job has a task, which has not been awaited unless the job has a final status; a job that is
being cancelled has its token set. -/
structure Consistent (s : JobServer) : Prop where
  spawned : ∀ id h, s.handle? id = some h → ∃ task, s.tasks.lookup id = some task
  unawaited : ∀ id h, s.handle? id = some h → h.status.isTerminal = false →
    id ∉ s.awaited.map Await.id
  cancelling : ∀ id h, s.handle? id = some h → h.status = .cancelling → s.isCancelled id = true
  awaitedSpawned : ∀ id ∈ s.awaited.map Await.id, ∃ task, s.tasks.lookup id = some task
  reaper : s.ReaperSound

theorem consistent_init (registry : List String) (config : JobConfig) :
    Consistent (init registry config) where
  spawned id h hid := by cases hid
  unawaited id h hid := by cases hid
  cancelling id h hid := by cases hid
  awaitedSpawned id hid := by cases hid
  reaper := trivial

theorem lockFree_of_idle (hidle : s.reaper = .idle) : s.lockFree = true := by
  unfold lockFree
  rw [hidle]

theorem isCancelled_of_lookup {task : JobTask} (htask : s.tasks.lookup id = some task) :
    s.isCancelled id = task.cancelled := by
  unfold isCancelled
  rw [htask]
  rfl

theorem isCancelled_updateTask (id : Uuid) {f : JobTask → JobTask}
    (hf : ∀ task, task.cancelled = true → (f task).cancelled = true) {id' : Uuid}
    (hset : s.isCancelled id' = true) :
    isCancelled { s with tasks := s.updateTask id f } id' = true := by
  unfold isCancelled at hset ⊢
  dsimp only
  rw [lookup_updateTask]
  split_ifs
  · cases htask : s.tasks.lookup id' with
    | none => rw [htask] at hset; cases hset
    | some task => rw [htask] at hset; exact hf task hset
  · exact hset

theorem Consistent.updateTask (hs : Consistent s) (id : Uuid) {f : JobTask → JobTask}
    (hresult : ∀ task, task.result.isSome → (f task).result.isSome)
    (hcancelled : ∀ task, task.cancelled = true → (f task).cancelled = true) :
    Consistent { s with tasks := s.updateTask id f } where
  spawned id' h hid := exists_lookup_updateTask (hs.spawned id' h hid)
  unawaited := hs.unawaited
  cancelling id' h hid hst := isCancelled_updateTask id hcancelled (hs.cancelling id' h hid hst)
  awaitedSpawned id' hid := exists_lookup_updateTask (hs.awaitedSpawned id' hid)
  reaper := hs.reaper.updateTask id hresult

/-- Entering a job with its task, while the lock is free. -/
theorem Consistent.insert (hs : Consistent s) (hlock : s.lockFree = true)
    {tasks : AList fun _ : Uuid => JobTask}
    (htasks : ∀ id' task, s.tasks.lookup id' = some task → ∃ task', tasks.lookup id' = some task' ∧
      (task.cancelled = true → task'.cancelled = true))
    {task : JobTask} (htask : tasks.lookup id = some task)
    (hawaited : id ∉ s.awaited.map Await.id)
    (hcancelling : h.status = .cancelling → task.cancelled = true) :
    Consistent { s with jobs := s.jobs.insert id h, tasks := tasks } := by
  refine ⟨fun id' h' hget => ?_, fun id' h' hget hopen => ?_, fun id' h' hget hst => ?_,
    fun id' hmem => ?_, hs.reaper.of_lockFree hlock _ _⟩
  · rcases handle?_insert_cases hlock hget with ⟨rfl, -⟩ | hget
    · exact ⟨task, htask⟩
    · obtain ⟨task₀, htask₀⟩ := hs.spawned id' h' hget
      obtain ⟨task', htask', -⟩ := htasks id' task₀ htask₀
      exact ⟨task', htask'⟩
  · rcases handle?_insert_cases hlock hget with ⟨rfl, -⟩ | hget
    · exact hawaited
    · exact hs.unawaited id' h' hget hopen
  · rcases handle?_insert_cases hlock hget with ⟨rfl, rfl⟩ | hget
    · rw [isCancelled_of_lookup (s := { s with jobs := _, tasks := tasks }) htask]
      exact hcancelling hst
    · obtain ⟨task₀, htask₀⟩ := hs.spawned id' h' hget
      obtain ⟨task', htask', hset⟩ := htasks id' task₀ htask₀
      have hbefore := hs.cancelling id' h' hget hst
      rw [isCancelled_of_lookup htask₀] at hbefore
      exact (isCancelled_of_lookup htask').trans (hset hbefore)
  · obtain ⟨task₀, htask₀⟩ := hs.awaitedSpawned id' hmem
    obtain ⟨task', htask', -⟩ := htasks id' task₀ htask₀
    exact ⟨task', htask'⟩

theorem Consistent.submitJob (hs : Consistent s) (hlock : s.lockFree = true)
    (req : SubmitJobRequest) (hfresh : s.tasks.lookup id = none) :
    Consistent (s.submitJob req id).2 := by
  unfold JobServer.submitJob
  split_ifs
  · refine hs.insert hlock (fun id' task htask => ⟨task, ?_, fun hset => hset⟩)
      (AList.lookup_insert _) (fun hmem => ?_) fun hst => by cases hst
    · refine (AList.lookup_insert_ne ?_).trans htask
      rintro rfl
      rw [hfresh] at htask
      cases htask
    · obtain ⟨task, htask⟩ := hs.awaitedSpawned id hmem
      rw [hfresh] at htask
      cases htask
  · exact hs

theorem Consistent.cancelJob (hs : Consistent s) (hlock : s.lockFree = true) (id : Uuid) :
    Consistent (s.cancelJob id).2 := by
  unfold JobServer.cancelJob
  cases hlookup : s.jobs.lookup id with
  | none => exact hs
  | some h =>
    have hget : s.handle? id = some h := (handle?_of_lockFree hlock id).trans hlookup
    obtain ⟨task, htask⟩ := hs.spawned id h hget
    dsimp only
    split_ifs with hend
    · exact hs
    · have hset : (s.cancelToken id).tasks.lookup id = some { task with cancelled := true } := by
        unfold JobServer.cancelToken
        dsimp only
        rw [lookup_updateTask, if_pos rfl, htask]
        rfl
      refine hs.insert hlock (fun id' task' htask' => ?_) hset
        (hs.unawaited id h hget (by simpa using hend)) fun _ => rfl
      unfold JobServer.cancelToken
      dsimp only
      rw [lookup_updateTask, htask']
      split_ifs
      · exact ⟨_, rfl, fun _ => rfl⟩
      · exact ⟨task', rfl, fun hset => hset⟩

theorem Consistent.reaps (hs : Consistent s) (iter : IterOrder Uuid) :
    Reaps s iter (s.reapStep iter) := hs.reaper.reaps hs.unawaited iter

theorem Consistent.reapStep (hs : Consistent s) (iter : IterOrder Uuid) :
    Consistent (s.reapStep iter) := by
  have hreaps := hs.reaps iter
  generalize s.reapStep iter = s' at hreaps ⊢
  have hcancelled : ∀ id, s'.isCancelled id = s.isCancelled id := fun id => by
    unfold isCancelled
    rw [hreaps.tasks_eq]
  refine ⟨fun id h => hreaps.spawned hs.spawned, fun id' h' hget hopen => ?_,
    fun id' h' hget hst => ?_, fun id => hreaps.awaitedSpawned hs.spawned hs.awaitedSpawned,
    hreaps.reaperSound hs.reaper⟩
  · rcases hreaps.quiet_or_sets with ⟨hhandle, hawaited⟩ | ⟨id, h, result, hsets⟩
    · rw [hawaited]
      exact hs.unawaited id' h' (hhandle id' ▸ hget) hopen
    · have hne : id' ≠ id := by
        rintro rfl
        rw [hsets.isTerminal hget] at hopen
        cases hopen
      rw [hsets.awaitedIds, List.mem_append, List.mem_singleton, not_or]
      exact ⟨hs.unawaited id' h' (hsets.others id' hne ▸ hget) hopen, hne⟩
  · rw [hcancelled]
    rcases hreaps.quiet_or_sets with ⟨hhandle, -⟩ | ⟨id, h, result, hsets⟩
    · exact hs.cancelling id' h' (hhandle id' ▸ hget) hst
    · have hne : id' ≠ id := by
        rintro rfl
        have hend := hsets.isTerminal hget
        rw [hst] at hend
        cases hend
      exact hs.cancelling id' h' (hsets.others id' hne ▸ hget) hst

/-! ## The tick of `job_reaper` -/

theorem handle?_jobReaper (hlock : s.lockFree = true) (iter : IterOrder Uuid) (id : Uuid) :
    (s.jobReaper iter).handle? id = (s.handle? id).map (s.inferStatus id) := by
  have hafter : (s.jobReaper iter).lockFree = true := hlock
  rw [handle?_of_lockFree hlock, handle?_of_lockFree hafter]
  exact lookup_modifyAll _ iter id

theorem isTerminal_inferredStatus (s : JobServer) (id : Uuid) (h : JobHandle) :
    (s.inferredStatus id h).isTerminal = true := by
  unfold inferredStatus
  split_ifs <;> rfl

theorem inferStatus_cases (s : JobServer) (id : Uuid) (h : JobHandle) :
    s.inferStatus id h = h ∨ (s.inferStatus id h).status.isTerminal = true := by
  unfold inferStatus
  split_ifs
  · exact Or.inr (isTerminal_inferredStatus s id h)
  · exact Or.inl rfl

theorem Consistent.jobReaper (hs : Consistent s) (hlock : s.lockFree = true)
    (iter : IterOrder Uuid) : Consistent (s.jobReaper iter) := by
  have hget : ∀ id h', (s.jobReaper iter).handle? id = some h' → ∃ h, s.handle? id = some h ∧
      (h' = h ∨ h'.status.isTerminal = true) := by
    intro id h' hget
    rw [handle?_jobReaper hlock] at hget
    obtain ⟨h, hh, rfl⟩ := Option.map_eq_some_iff.mp hget
    exact ⟨h, hh, s.inferStatus_cases id h⟩
  refine ⟨fun id h' hid => ?_, fun id h' hid hopen => ?_, fun id h' hid hst => ?_,
    hs.awaitedSpawned, hs.reaper.of_lockFree hlock _ s.tasks⟩
  · obtain ⟨h, hh, -⟩ := hget id h' hid
    exact hs.spawned id h hh
  · obtain ⟨h, hh, rfl | hend⟩ := hget id h' hid
    · exact hs.unawaited id h' hh hopen
    · rw [hend] at hopen
      cases hopen
  · obtain ⟨h, hh, rfl | hend⟩ := hget id h' hid
    · exact hs.cancelling id h' hh hst
    · rw [hst] at hend
      cases hend

theorem Consistent.step (hs : Consistent s) (ev : ReaperEvent) (hfresh : FreshReaperId s ev) :
    Consistent (s.reaperStep ev) := by
  cases ev with
  | jobReaper iter =>
    unfold reaperStep
    dsimp only
    split_ifs with hlock
    · exact hs.jobReaper hlock iter
    · exact hs
  | server ev =>
    unfold reaperStep JobServer.step JobServer.handle
    cases ev with
    | submit req id =>
      dsimp only
      split_ifs with hlock
      · exact hs.submitJob hlock req hfresh
      · exact hs
    | cancel id =>
      dsimp only
      split_ifs with hlock
      · exact hs.cancelJob hlock id
      · exact hs
    | finish id result => exact hs.updateTask id (fun task _ => rfl) fun task hset => hset
    | cancelToken id => exact hs.updateTask id (fun task hf => hf) fun task _ => rfl
    | reap iter => exact hs.reapStep iter

theorem consistent_run {registry : List String} {config : JobConfig} {es : List ReaperEvent}
    (hfresh : Runs.Along reaperStep FreshReaperId (init registry config) es) :
    Consistent (runReapers registry config es) :=
  Runs.exec_invariant_along (P := Consistent) (fun _ ev hs hid => hs.step ev hid)
    (consistent_init registry config) hfresh

/-! ## The tick of `reap_finished_jobs` -/

/-- The handle of a job after a tick that is to handle the jobs `ids`. -/
def settled (s : JobServer) (ids : List Uuid) (id : Uuid) (handle : JobHandle) : JobHandle :=
  (s.result? id).elim handle fun result =>
    if ids.contains id then { handle with status := finalStatus result (s.isCancelled id) }
    else handle

theorem settled_of_notMem {ids : List Uuid} (hid : id ∉ ids) :
    s.settled ids id = fun handle => handle := by
  funext handle
  unfold settled
  cases s.result? id with
  | none => rfl
  | some result => exact if_neg (mt List.contains_iff_mem.mp hid)

theorem settled_cons {s' : JobServer} (htasks : s'.tasks = s.tasks) (id₀ : Uuid) (ids : List Uuid) :
    s'.settled ids id ∘ s.settled [id₀] id = s.settled (id₀ :: ids) id := by
  funext handle
  have hresult : s'.result? id = s.result? id := by unfold result?; rw [htasks]
  have hcancelled : s'.isCancelled id = s.isCancelled id := by unfold isCancelled; rw [htasks]
  unfold settled
  rw [Function.comp_apply, hresult, hcancelled]
  cases s.result? id with
  | none => rfl
  | some result =>
    dsimp only [Option.elim_some]
    by_cases hfirst : id = id₀
    · simp [hfirst]
    · simp [hfirst]

/-- Two steps of a tick take the first of the jobs and set its status. -/
theorem reapStep_reapStep (iter : IterOrder Uuid) {id₀ : Uuid} {ids : List Uuid}
    (hs : Consistent s) (hsweeping : s.reaper = .sweeping (id₀ :: ids)) :
    ((s.reapStep iter).reapStep iter).reaper = .sweeping ids ∧
      (∀ id, ((s.reapStep iter).reapStep iter).jobs.lookup id =
        (s.jobs.lookup id).map (s.settled [id₀] id)) ∧
      ((s.reapStep iter).reapStep iter).tasks = s.tasks := by
  have hsound := hs.reaper
  unfold ReaperSound at hsound
  rw [hsweeping] at hsound
  obtain ⟨h, hlookup, hopen, hfinished⟩ := hsound.2 id₀ List.mem_cons_self
  obtain ⟨result, hresult⟩ := Option.isSome_iff_exists.mp hfinished
  have hget : s.handle? id₀ = some h := by
    unfold handle?
    rw [hsweeping]
    exact hlookup
  have hfirst := hs.unawaited id₀ h hget hopen
  have htake : s.reapStep iter =
      { s with jobs := s.jobs.erase id₀, reaper := .awaiting id₀ h ids } := by
    unfold JobServer.reapStep
    rw [hsweeping]
    dsimp only
    rw [hlookup]
  have hset : (s.reapStep iter).reapStep iter = { s with
      jobs := (s.jobs.erase id₀).insert id₀
        { h with status := finalStatus result (s.isCancelled id₀) }
      reaper := .sweeping ids
      awaited := s.awaited ++ [⟨id₀, result, s.isCancelled id₀⟩] } := by
    rw [htake]
    unfold JobServer.reapStep
    dsimp only
    have hresult' : result? { s with
        jobs := s.jobs.erase id₀, reaper := .awaiting id₀ h ids } id₀ = some result := hresult
    rw [if_neg hfirst, hresult']
    rfl
  rw [hset]
  refine ⟨rfl, fun id => ?_, rfl⟩
  dsimp only
  by_cases heq : id = id₀
  · subst heq
    rw [AList.lookup_insert, hlookup]
    unfold settled
    rw [hresult]
    simp
  · rw [AList.lookup_insert_ne heq, AList.lookup_erase_ne heq,
      settled_of_notMem fun hid => heq (List.mem_singleton.mp hid)]
    exact (Option.map_id' (x := s.jobs.lookup id)).symm

theorem sweep_spec (iter : IterOrder Uuid) {ids : List Uuid} {s : JobServer} (hs : Consistent s)
    (hsweeping : s.reaper = .sweeping ids) :
    ((JobServer.reapStep iter)^[2 * ids.length + 1] s).reaper = .idle ∧
      ∀ id, ((JobServer.reapStep iter)^[2 * ids.length + 1] s).jobs.lookup id =
        (s.jobs.lookup id).map (s.settled ids id) := by
  induction ids generalizing s with
  | nil =>
    have hstep : s.reapStep iter = { s with reaper := .idle } := by
      unfold JobServer.reapStep
      rw [hsweeping]
    rw [List.length_nil, Nat.mul_zero, Nat.zero_add, Function.iterate_one, hstep]
    refine ⟨rfl, fun id => ?_⟩
    rw [settled_of_notMem List.not_mem_nil]
    exact (Option.map_id' (x := s.jobs.lookup id)).symm
  | cons id₀ ids ih =>
    obtain ⟨hafter, hjobs, htasks⟩ := reapStep_reapStep iter hs hsweeping
    have hcount : 2 * (id₀ :: ids).length + 1 = 2 * ids.length + 1 + 1 + 1 := by
      rw [List.length_cons]
      omega
    rw [hcount, Function.iterate_succ_apply, Function.iterate_succ_apply]
    obtain ⟨hidle, hrest⟩ := ih ((hs.reapStep iter).reapStep iter) hafter
    refine ⟨hidle, fun id => ?_⟩
    rw [hrest, hjobs, Option.map_map, settled_cons htasks]

theorem mem_finishedIds (iter : IterOrder Uuid) (hlookup : s.jobs.lookup id = some h) :
    id ∈ s.finishedIds iter ↔ (s.result? id).isSome ∧ h.status.isTerminal = false := by
  constructor
  · intro hid
    obtain ⟨h', hlookup', hopen, hfinished⟩ := due_of_mem_finishedIds hid
    obtain rfl := Option.some.inj (hlookup.symm.trans hlookup')
    exact ⟨hfinished, hopen⟩
  · rintro ⟨hfinished, hopen⟩
    refine List.mem_map.mpr ⟨(id, h), List.mem_filter.mpr ⟨mem_visit.mpr hlookup, ?_⟩, rfl⟩
    rw [hfinished, hopen]
    rfl

theorem status_settled (iter : IterOrder Uuid) (hlookup : s.jobs.lookup id = some h) :
    (s.settled (s.finishedIds iter) id h).status =
      match s.result? id, h.status.isTerminal with
      | some result, false => finalStatus result (s.isCancelled id)
      | _, _ => h.status := by
  have hmem := mem_finishedIds iter hlookup
  unfold settled
  cases hresult : s.result? id with
  | none => rfl
  | some result =>
    rw [hresult] at hmem
    cases hopen : h.status.isTerminal with
    | true =>
      rw [Option.elim_some, if_neg fun hid =>
        absurd (hopen.symm.trans (hmem.mp (List.contains_iff_mem.mp hid)).2) (by decide)]
    | false =>
      rw [Option.elim_some, if_pos (List.contains_iff_mem.mpr (hmem.mpr ⟨rfl, hopen⟩))]

/-- **A tick of `reap_finished_jobs`** comes to its end, and sets the status of every job whose task
has finished and that has no final status. -/
theorem reapFinishedJobs_spec (hs : Consistent s) (hidle : s.reaper = .idle)
    (iter : IterOrder Uuid) :
    (s.reapFinishedJobs iter).reaper = .idle ∧
      ∀ id, (s.reapFinishedJobs iter).status? id =
        (s.jobs.lookup id).map fun h => (s.settled (s.finishedIds iter) id h).status := by
  have hstart : s.reapStep iter = { s with reaper := .sweeping (s.finishedIds iter) } := by
    unfold JobServer.reapStep
    rw [hidle]
  have hsweeping : (s.reapStep iter).reaper = .sweeping (s.finishedIds iter) := by rw [hstart]
  obtain ⟨hend, hjobs⟩ := sweep_spec iter (hs.reapStep iter) hsweeping
  refine ⟨hend, fun id => ?_⟩
  unfold status? reapFinishedJobs
  rw [handle?_of_lockFree (lockFree_of_idle hend)]
  refine (congrArg (Option.map JobHandle.status) (hjobs id)).trans ?_
  rw [hstart, Option.map_map]
  rfl

theorem status?_jobReaper (hlock : s.lockFree = true) (iter : IterOrder Uuid) (id : Uuid) :
    (s.jobReaper iter).status? id =
      (s.jobs.lookup id).map fun h => (s.inferStatus id h).status := by
  unfold status?
  rw [handle?_jobReaper hlock, handle?_of_lockFree hlock, Option.map_map]
  rfl

/-! ## The comparison -/

theorem inferredStatus_ok (hs : Consistent s) (hlock : s.lockFree = true)
    (hlookup : s.jobs.lookup id = some h) :
    s.inferredStatus id h = finalStatus .ok (s.isCancelled id) := by
  have hget : s.handle? id = some h := (handle?_of_lockFree hlock id).trans hlookup
  unfold inferredStatus
  split_ifs with hcancelling hset
  · rw [hs.cancelling id h hget hcancelling]
    rfl
  · rw [hset]
    rfl
  · rw [Bool.not_eq_true] at hset
    rw [hset]
    rfl

theorem inferredStatus_ne_failed (s : JobServer) (id : Uuid) (h : JobHandle) {result : TaskResult}
    (hresult : result ≠ .ok) (cancelled : Bool) :
    (s.inferredStatus id h).discriminant ≠ (finalStatus result cancelled).discriminant := by
  obtain ⟨msg, hfailed⟩ := (finalStatus_eq_failed result cancelled).mpr hresult
  rw [hfailed]
  unfold inferredStatus
  split_ifs <;> simp [JobStatus.discriminant]

theorem reapers_agree_at (hs : Consistent s) (hidle : s.reaper = .idle) (iter iter' : IterOrder Uuid)
    (hlookup : s.jobs.lookup id = some h) :
    ((s.jobReaper iter).status? id).map JobStatus.discriminant =
        ((s.reapFinishedJobs iter').status? id).map JobStatus.discriminant ↔
      (h.status.isTerminal = false → ∀ result, s.result? id = some result → result = .ok) := by
  rw [status?_jobReaper (lockFree_of_idle hidle), (reapFinishedJobs_spec hs hidle iter').2, hlookup]
  simp only [Option.map_some, Option.some.injEq]
  rw [status_settled iter' hlookup]
  unfold inferStatus
  cases hresult : s.result? id with
  | none => simp
  | some result =>
    cases hopen : h.status.isTerminal with
    | true => simp
    | false =>
      simp only [Option.isSome_some, Bool.not_false, Bool.and_self, if_true,
        Option.some.injEq, forall_const, forall_eq']
      constructor
      · intro heq
        by_contra hne
        exact inferredStatus_ne_failed s id h hne _ heq
      · rintro rfl
        rw [inferredStatus_ok hs (lockFree_of_idle hidle) hlookup]

/-- **When the two reapers agree:** if no job is due whose task has returned an error or panicked.
-/
theorem reapers_agree_iff (registry : List String) (config : JobConfig) (es : List ReaperEvent)
    (hfresh : Runs.Along reaperStep FreshReaperId (init registry config) es)
    (hidle : (runReapers registry config es).reaper = .idle) (iter iter' : IterOrder Uuid) :
    ((runReapers registry config es).reapFinishedJobs iter').reaper = .idle ∧
    ((∀ id, (((runReapers registry config es).jobReaper iter).status? id).map
          JobStatus.discriminant =
        (((runReapers registry config es).reapFinishedJobs iter').status? id).map
          JobStatus.discriminant) ↔
      ∀ id h, (runReapers registry config es).jobs.lookup id = some h →
        h.status.isTerminal = false → ∀ result,
          (runReapers registry config es).result? id = some result → result = .ok) := by
  have hs := consistent_run hfresh
  generalize runReapers registry config es = s at hidle hs ⊢
  refine ⟨(reapFinishedJobs_spec hs hidle iter').1, ?_⟩
  constructor
  · intro hall id h hlookup
    exact (reapers_agree_at hs hidle iter iter' hlookup).mp (hall id)
  · intro hok id
    cases hlookup : s.jobs.lookup id with
    | none =>
      rw [status?_jobReaper (lockFree_of_idle hidle), (reapFinishedJobs_spec hs hidle iter').2,
        hlookup]
      rfl
    | some h => exact (reapers_agree_at hs hidle iter iter' hlookup).mpr (hok id h hlookup)

/-- Three jobs: one is cancelled and returns, one returns at once, and one has been handled by
`job_reaper` when its task panicked. -/
def threeJobsRun : List ReaperEvent :=
  [.server (.submit ⟨"wordcount", none, none⟩ 3), .server (.finish 3 (.panicked "task 3 panicked")),
    .jobReaper (.given _), .server (.submit ⟨"wordcount", none, some 16⟩ 1),
    .server (.submit ⟨"wordcount", some 0, none⟩ 2), .server (.cancel 1),
    .server (.finish 1 .ok), .server (.finish 2 .ok)]

theorem threeJobsRun_agree :
    (runReapers ["wordcount"] ⟨"flume", 1, 1024⟩ threeJobsRun).reaper = .idle ∧ ∀ id,
      (((runReapers ["wordcount"] ⟨"flume", 1, 1024⟩ threeJobsRun).jobReaper
          (.given _)).status? id).map JobStatus.discriminant =
        (((runReapers ["wordcount"] ⟨"flume", 1, 1024⟩ threeJobsRun).reapFinishedJobs
          (.given _)).status? id).map JobStatus.discriminant := by
  refine ⟨rfl, (reapers_agree_iff ["wordcount"] ⟨"flume", 1, 1024⟩ threeJobsRun
    (by decide +kernel) rfl (.given _) (.given _)).2.mpr fun id h hlookup hopen result hresult => ?_⟩
  have hjobs : ∀ entry ∈ (runReapers ["wordcount"] ⟨"flume", 1, 1024⟩ threeJobsRun).jobs.entries,
      entry.2.status.isTerminal = false →
        (runReapers ["wordcount"] ⟨"flume", 1, 1024⟩ threeJobsRun).result? entry.1 = some .ok := by
    decide +kernel
  have hok := hjobs ⟨id, h⟩ (AList.mem_lookup_iff.mp hlookup) hopen
  exact Option.some.inj (hresult.symm.trans hok)

/-- The task of a job returns an error. -/
def failingRun : List ReaperEvent :=
  [.server (.submit ⟨"wordcount", none, none⟩ 1), .server (.finish 1 (.err "source failed"))]

/-- `job_reaper` reports the failed job as completed. -/
theorem failingRun_disagrees :
    Runs.Along reaperStep FreshReaperId (init ["wordcount"] ⟨"flume", 1, 1024⟩) failingRun ∧
    (runReapers ["wordcount"] ⟨"flume", 1, 1024⟩ failingRun).reaper = .idle ∧
    ((runReapers ["wordcount"] ⟨"flume", 1, 1024⟩ failingRun).jobReaper (.given _)).status? 1 =
      some .completed ∧
    ((runReapers ["wordcount"] ⟨"flume", 1, 1024⟩ failingRun).reapFinishedJobs
      (.given _)).status? 1 = some (.failed "source failed") ∧
    ¬ ∀ id,
      (((runReapers ["wordcount"] ⟨"flume", 1, 1024⟩ failingRun).jobReaper
          (.given _)).status? id).map JobStatus.discriminant =
        (((runReapers ["wordcount"] ⟨"flume", 1, 1024⟩ failingRun).reapFinishedJobs
          (.given _)).status? id).map JobStatus.discriminant := by
  refine ⟨by decide +kernel, rfl, by decide +kernel, by decide +kernel, fun hall => ?_⟩
  have hone := hall 1
  revert hone
  decide +kernel

end JobServer
end Flume
