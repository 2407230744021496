import Flume.Lib.Entries
import Flume.Lib.Runs

/-!
# The job server

Jobs are submitted and cancelled over HTTP, run as tasks, and a reaper sets their final status. The
handlers and the reaper share the job map under one lock; the tasks run on their own.

* `submitJob`, `cancelJob`, `reapStep`: as the code has them, the reaper stopping at its `await`;
* `JobEvent`, `handle`, `run`: any interleaving of requests, tasks and the reaper;
* `FreshId`: a new job id is not the id of an earlier job;
* `handle?_insert`, `status?_insert`: an entry in the map while the lock is free.
-/

namespace Flume

open Entries

/-- The id of a job. -/
abbrev Uuid : Type := BitVec 128

/-- The hyphenated form of an id. -/
def Uuid.hyphenated (id : Uuid) : String :=
  let digits := (BitVec.toHex id).toList
  let part := fun start len => String.ofList ((digits.drop start).take len)
  part 0 8 ++ "-" ++ part 8 4 ++ "-" ++ part 12 4 ++ "-" ++ part 16 4 ++ "-" ++ part 20 12

/-- The status of a job. -/
inductive JobStatus
  | running
  | cancelling
  | cancelled
  | completed
  | failed (msg : String)
  deriving DecidableEq

namespace JobStatus

def display : JobStatus → String
  | running => "running"
  | cancelling => "cancelling"
  | cancelled => "cancelled"
  | completed => "completed"
  | failed msg => "failed: " ++ msg

/-- Whether the job has ended. -/
def isTerminal : JobStatus → Bool
  | completed => true
  | cancelled => true
  | failed _ => true
  | running => false
  | cancelling => false

end JobStatus

/-- The fields of the pipeline configuration that a submission sets. -/
structure JobConfig where
  jobName : String
  parallelism : ℕ
  channelBufferSize : ℕ

/-- The body of a submission. -/
structure SubmitJobRequest where
  jobName : String
  parallelism : Option ℕ
  channelBufferSize : Option ℕ

/-- How a task has ended: with `Ok`, with an error of that text, or with a panic. -/
inductive TaskResult
  | ok
  | err (text : String)
  | panicked (joinErr : String)
  deriving DecidableEq

/-- A spawned task and its cancellation token. -/
structure JobTask where
  config : JobConfig
  result : Option TaskResult
  cancelled : Bool

/-- A job of the map. Its token and its join handle are those of the task with its id. -/
structure JobHandle where
  id : Uuid
  name : String
  status : JobStatus

/-- An `await` of a join handle, and whether the token was set then. -/
structure Await where
  id : Uuid
  result : TaskResult
  cancelled : Bool

/-- Where the reaper is: it sleeps, or it holds the lock and has jobs to handle, the first of them
taken from the map or not. -/
inductive Reaper
  | idle
  | sweeping (finishedIds : List Uuid)
  | awaiting (id : Uuid) (handle : JobHandle) (finishedIds : List Uuid)
  | panicked

/-- The state of the server, the spawned tasks, and what the reaper has awaited so far. -/
structure JobServer where
  registry : List String
  config : JobConfig
  jobs : AList fun _ : Uuid => JobHandle
  tasks : AList fun _ : Uuid => JobTask
  reaper : Reaper
  awaited : List Await

/-- The responses of the handlers. -/
inductive JobResponse
  | created (jobId : Uuid) (jobName : String) (status : JobStatus)
  | cancelling (jobId : Uuid) (status : JobStatus)
  | notFound (msg : String)
  | conflict (msg : String)
  deriving DecidableEq

namespace JobServer

def init (registry : List String) (config : JobConfig) : JobServer :=
  ⟨registry, config, ∅, ∅, .idle, []⟩

/-- The tasks after a change of one of them. -/
def updateTask (s : JobServer) (id : Uuid) (f : JobTask → JobTask) : AList fun _ : Uuid => JobTask :=
  match s.tasks.lookup id with
  | some task => s.tasks.insert id (f task)
  | none => s.tasks

/-- Sets a cancellation token. -/
def cancelToken (s : JobServer) (id : Uuid) : JobServer :=
  { s with tasks := s.updateTask id fun task => { task with cancelled := true } }

/-- A task ends. -/
def finish (s : JobServer) (id : Uuid) (result : TaskResult) : JobServer :=
  { s with tasks := s.updateTask id fun task =>
      { task with result := some (task.result.getD result) } }

/-- `POST /api/v1/jobs`; `id` is the new id. -/
def submitJob (s : JobServer) (req : SubmitJobRequest) (id : Uuid) : JobResponse × JobServer :=
  if req.jobName ∈ s.registry then
    let config : JobConfig := {
      jobName := req.jobName
      parallelism := req.parallelism.getD s.config.parallelism
      channelBufferSize := req.channelBufferSize.getD s.config.channelBufferSize }
    (.created id req.jobName .running, { s with
      jobs := s.jobs.insert id ⟨id, req.jobName, .running⟩
      tasks := s.tasks.insert id ⟨config, none, false⟩ })
  else (.notFound ("unknown job: " ++ req.jobName), s)

/-- `POST /api/v1/jobs/:id/cancel`. -/
def cancelJob (s : JobServer) (id : Uuid) : JobResponse × JobServer :=
  match s.jobs.lookup id with
  | none => (.notFound ("job not found: " ++ id.hyphenated), s)
  | some handle =>
    if handle.status.isTerminal then
      (.conflict ("job " ++ id.hyphenated ++ " already in terminal state: " ++
        handle.status.display), s)
    else (.cancelling id .cancelling, { s.cancelToken id with
      jobs := s.jobs.insert id { handle with status := .cancelling } })

/-- The result of a task that has finished. -/
def result? (s : JobServer) (id : Uuid) : Option TaskResult :=
  (s.tasks.lookup id).bind JobTask.result

/-- Whether the token of a task is set. -/
def isCancelled (s : JobServer) (id : Uuid) : Bool :=
  (s.tasks.lookup id).any JobTask.cancelled

/-- The jobs whose tasks have finished and that have no final status. -/
def finishedIds (iter : IterOrder Uuid) (s : JobServer) : List Uuid :=
  ((visit iter s.jobs).filter fun entry =>
    (s.result? entry.1).isSome && !entry.2.status.isTerminal).map Prod.fst

/-- The final status of a job. -/
def finalStatus : TaskResult → Bool → JobStatus
  | .ok, true => .cancelled
  | .ok, false => .completed
  | .err text, _ => .failed text
  | .panicked joinErr, _ => .failed ("panic: " ++ joinErr)

/-- The reaper goes on to its next `await`, or from there. Awaiting a join handle again panics. -/
def reapStep (iter : IterOrder Uuid) (s : JobServer) : JobServer :=
  match s.reaper with
  | .idle => { s with reaper := .sweeping (s.finishedIds iter) }
  | .sweeping [] => { s with reaper := .idle }
  | .sweeping (id :: ids) =>
    match s.jobs.lookup id with
    | some handle => { s with jobs := s.jobs.erase id, reaper := .awaiting id handle ids }
    | none => { s with reaper := .panicked }
  | .awaiting id handle ids =>
    if id ∈ s.awaited.map Await.id then { s with reaper := .panicked }
    else match s.result? id with
      | some result => { s with
          jobs := s.jobs.insert id { handle with status := finalStatus result (s.isCancelled id) }
          reaper := .sweeping ids
          awaited := s.awaited ++ [⟨id, result, s.isCancelled id⟩] }
      | none => s
  | .panicked => s

/-- Whether the lock of the job map is free. -/
def lockFree (s : JobServer) : Bool :=
  match s.reaper with
  | .idle => true
  | .panicked => true
  | _ => false

end JobServer

/-- What can happen: a request gets the lock, a task ends, a token is set by a clone of it, the
reaper goes on. -/
inductive JobEvent
  | submit (req : SubmitJobRequest) (id : Uuid)
  | cancel (id : Uuid)
  | finish (id : Uuid) (result : TaskResult)
  | cancelToken (id : Uuid)
  | reap (iter : IterOrder Uuid)

namespace JobServer

/-- The response to an event, if there is one, and the state after it. While the reaper holds the
lock, requests wait. -/
def handle (s : JobServer) : JobEvent → Option JobResponse × JobServer
  | .submit req id =>
    if s.lockFree then (some (s.submitJob req id).1, (s.submitJob req id).2) else (none, s)
  | .cancel id =>
    if s.lockFree then (some (s.cancelJob id).1, (s.cancelJob id).2) else (none, s)
  | .finish id result => (none, s.finish id result)
  | .cancelToken id => (none, s.cancelToken id)
  | .reap iter => (none, s.reapStep iter)

def step (s : JobServer) (ev : JobEvent) : JobServer := (s.handle ev).2

def respond (s : JobServer) (ev : JobEvent) : List JobResponse := (s.handle ev).1.toList

/-- The state after a sequence of events. -/
def run (registry : List String) (config : JobConfig) (es : List JobEvent) : JobServer :=
  Runs.exec step (init registry config) es

/-- The responses of a sequence of events. -/
def responses (registry : List String) (config : JobConfig) (es : List JobEvent) :
    List JobResponse := Runs.emitted step respond (init registry config) es

/-- A new id is not the id of an earlier job. -/
def FreshId (s : JobServer) : JobEvent → Prop
  | .submit _ id => s.tasks.lookup id = none
  | _ => True

instance (s : JobServer) : ∀ ev, Decidable (FreshId s ev)
  | .submit _ id => decidable_of_iff ((s.tasks.lookup id).isNone = true) Option.isNone_iff_eq_none
  | .cancel _ => instDecidableTrue
  | .finish _ _ => instDecidableTrue
  | .cancelToken _ => instDecidableTrue
  | .reap _ => instDecidableTrue

/-- The handle of a job: in the map, or in the hands of the reaper. -/
def handle? (s : JobServer) (id : Uuid) : Option JobHandle :=
  match s.reaper with
  | .awaiting id' handle _ => if id = id' then some handle else s.jobs.lookup id
  | _ => s.jobs.lookup id

/-- The status of a job. -/
def status? (s : JobServer) (id : Uuid) : Option JobStatus := (s.handle? id).map JobHandle.status

/-! ## Small lemmas -/

variable {s : JobServer} {id id' : Uuid}

theorem isTerminal_finalStatus (result : TaskResult) (cancelled : Bool) :
    (finalStatus result cancelled).isTerminal = true := by
  cases result <;> cases cancelled <;> rfl

theorem finalStatus_eq_failed (result : TaskResult) (cancelled : Bool) :
    (∃ msg, finalStatus result cancelled = .failed msg) ↔ result ≠ .ok := by
  cases result <;> cases cancelled <;> simp [finalStatus]

theorem finalStatus_eq_cancelled (result : TaskResult) (cancelled : Bool) :
    finalStatus result cancelled = .cancelled ↔ result = .ok ∧ cancelled = true := by
  cases result <;> cases cancelled <;> simp [finalStatus]

theorem finalStatus_eq_completed (result : TaskResult) (cancelled : Bool) :
    finalStatus result cancelled = .completed ↔ result = .ok ∧ cancelled = false := by
  cases result <;> cases cancelled <;> simp [finalStatus]

theorem lookup_updateTask (s : JobServer) (id id' : Uuid) (f : JobTask → JobTask) :
    (s.updateTask id f).lookup id' =
      if id' = id then (s.tasks.lookup id').map f else s.tasks.lookup id' := by
  unfold updateTask
  cases htask : s.tasks.lookup id with
  | none =>
    split_ifs with heq
    · rw [heq, htask]; rfl
    · rfl
  | some task =>
    split_ifs with heq
    · rw [heq, htask]; exact AList.lookup_insert _
    · exact AList.lookup_insert_ne heq

theorem exists_lookup_updateTask {f : JobTask → JobTask}
    (h : ∃ task, s.tasks.lookup id' = some task) :
    ∃ task, (s.updateTask id f).lookup id' = some task := by
  obtain ⟨task, htask⟩ := h
  rw [lookup_updateTask, htask]
  split_ifs
  · exact ⟨f task, rfl⟩
  · exact ⟨task, rfl⟩

theorem handle?_of_lockFree (hlock : s.lockFree = true) (id : Uuid) :
    s.handle? id = s.jobs.lookup id := by
  unfold handle?
  unfold lockFree at hlock
  cases hreaper : s.reaper with
  | awaiting id' h ids => rw [hreaper] at hlock; cases hlock
  | _ => rfl

theorem handle?_insert (hlock : s.lockFree = true) (id id' : Uuid) (h : JobHandle)
    (tasks : AList fun _ : Uuid => JobTask) :
    handle? { s with jobs := s.jobs.insert id h, tasks := tasks } id' =
      if id' = id then some h else s.handle? id' := by
  rw [handle?_of_lockFree hlock]
  have hafter : lockFree { s with jobs := s.jobs.insert id h, tasks := tasks } = true := hlock
  rw [handle?_of_lockFree hafter]
  split_ifs with heq
  · rw [heq]
    exact AList.lookup_insert _
  · exact AList.lookup_insert_ne heq

theorem status?_insert (hlock : s.lockFree = true) (id id' : Uuid) (h : JobHandle)
    (tasks : AList fun _ : Uuid => JobTask) :
    status? { s with jobs := s.jobs.insert id h, tasks := tasks } id' =
      if id' = id then some h.status else s.status? id' := by
  unfold status?
  rw [handle?_insert hlock]
  split_ifs <;> rfl

end JobServer
end Flume
