import Flume.Server.JobReaper

/-!
# The lifecycle of a job

* `Lifecycle`: what is said of a run;
* `StatusChange`: what a step does to the status of a job;
* **`lifecycle_run`**: every run has the lifecycle.
-/

namespace Flume

open Entries

namespace JobServer

/-- The moves of a status: from `Running` to `Cancelling`, and from both to a final status. -/
inductive Moves : JobStatus → JobStatus → Prop
  | cancelling : Moves .running .cancelling
  | ends {st st' : JobStatus} (hopen : st.isTerminal = false) (hend : st'.isTerminal = true) :
      Moves st st'

/-- **The lifecycle of the jobs of a run.** -/
structure Lifecycle (registry : List String) (config : JobConfig) (es : List JobEvent) : Prop where
  /-- A submitted job is not lost: it has a handle, which is in the map whenever the lock is free.
  -/
  kept : ∀ id name status, .created id name status ∈ responses registry config es →
    (∃ handle, (run registry config es).handle? id = some handle) ∧
    ((run registry config es).lockFree = true →
      ∃ handle, (run registry config es).jobs.lookup id = some handle)
  /-- In every step a status stays or moves. -/
  moves : ∀ pre ev post, es = pre ++ ev :: post → ∀ id st,
    (run registry config pre).status? id = some st →
      ∃ st', (run registry config (pre ++ [ev])).status? id = some st' ∧ (st' = st ∨ Moves st st')
  /-- A final status stays to the end of the run. -/
  final : ∀ pre post, es = pre ++ post → ∀ id st,
    (run registry config pre).status? id = some st → st.isTerminal = true →
      (run registry config es).status? id = some st
  /-- Cancelling a job with a final status is a conflict and changes nothing. -/
  conflicts : ∀ id handle, (run registry config es).lockFree = true →
    (run registry config es).jobs.lookup id = some handle → handle.status.isTerminal = true →
      (run registry config es).handle (.cancel id) =
        (some (.conflict ("job " ++ id.hyphenated ++ " already in terminal state: " ++
          handle.status.display)), run registry config es)
  /-- A final status was set by the reaper when the task had finished, and says how. -/
  ended : ∀ id st, (run registry config es).status? id = some st → st.isTerminal = true →
    ∃ pre iter post st₀ result, es = pre ++ .reap iter :: post ∧
      (run registry config pre).status? id = some st₀ ∧ st₀.isTerminal = false ∧
      (run registry config (pre ++ [.reap iter])).status? id = some st ∧
      (run registry config pre).result? id = some result ∧
      ((∃ msg, st = .failed msg) ↔ result ≠ .ok) ∧
      (st = .cancelled ↔ result = .ok ∧ (run registry config pre).isCancelled id = true) ∧
      (st = .completed ↔ result = .ok ∧ (run registry config pre).isCancelled id = false)
  /-- No join handle is awaited twice. -/
  awaitedOnce : ((run registry config es).awaited.map Await.id).Nodup

variable {registry : List String} {config : JobConfig} {es : List JobEvent}
variable {s : JobServer} {id id' : Uuid}

/-! ## What a step does to a status -/

/-- The status of job `id` after an event. -/
inductive StatusChange (s : JobServer) (ev : JobEvent) (id : Uuid) : Option JobStatus → Prop
  | same : StatusChange s ev id (s.status? id)
  | submitted (hnone : s.status? id = none) : StatusChange s ev id (some .running)
  | cancelling {st : JobStatus} (hst : s.status? id = some st) (hopen : st.isTerminal = false) :
      StatusChange s ev id (some .cancelling)
  | ended {st : JobStatus} {iter : IterOrder Uuid} {result : TaskResult} (hev : ev = .reap iter)
      (hst : s.status? id = some st) (hopen : st.isTerminal = false)
      (hresult : s.result? id = some result) :
      StatusChange s ev id (some (finalStatus result (s.isCancelled id)))

theorem statusChange_of_handle? {s' : JobServer} {ev : JobEvent}
    (heq : s'.handle? id = s.handle? id) : StatusChange s ev id (s'.status? id) := by
  have hstatus : s'.status? id = s.status? id := by unfold status?; rw [heq]
  rw [hstatus]
  exact .same

theorem statusChange_submit (hs : Sound s) {req : SubmitJobRequest} {ev : JobEvent}
    (hlock : s.lockFree = true) (hfresh : s.tasks.lookup id' = none) (id : Uuid) :
    StatusChange s ev id ((s.submitJob req id').2.status? id) := by
  unfold JobServer.submitJob
  split_ifs with hknown
  · rw [status?_insert hlock]
    split_ifs with heq
    · subst heq
      have hnone : s.status? id = none := by
        cases hhandle : s.handle? id with
        | none => unfold status?; rw [hhandle]; rfl
        | some h =>
          obtain ⟨task, htask⟩ := hs.spawned id h hhandle
          rw [hfresh] at htask
          cases htask
      exact .submitted hnone
    · exact .same
  · exact .same

theorem statusChange_cancel {ev : JobEvent} (hlock : s.lockFree = true) (id id' : Uuid) :
    StatusChange s ev id ((s.cancelJob id').2.status? id) := by
  unfold JobServer.cancelJob
  cases hlookup : s.jobs.lookup id' with
  | none => exact .same
  | some h =>
    dsimp only
    split_ifs with hend
    · exact .same
    · unfold JobServer.cancelToken
      dsimp only
      rw [status?_insert hlock]
      split_ifs with heq
      · subst heq
        have hstatus : s.status? id = some h.status := by
          unfold status?
          rw [handle?_of_lockFree hlock, hlookup]
          rfl
        exact .cancelling hstatus (by simpa using hend)
      · exact .same

theorem statusChange_reap (hs : Sound s) (iter : IterOrder Uuid) (id : Uuid) :
    StatusChange s (.reap iter) id ((s.reapStep iter).status? id) := by
  rcases (hs.reaps iter).quiet_or_sets with ⟨hhandle, -⟩ | ⟨id', h, result, hsets⟩
  · exact statusChange_of_handle? (hhandle id)
  · by_cases heq : id = id'
    · subst heq
      have hstatus : s.status? id = some h.status := by
        unfold status?
        rw [hsets.handle]
        rfl
      have hend : (s.reapStep iter).status? id = some (finalStatus result (s.isCancelled id)) := by
        unfold status?
        rw [hsets.handle']
        rfl
      rw [hend]
      refine .ended rfl hstatus ?_ hsets.finished
      -- the task has not been awaited before
      cases hopen : h.status.isTerminal with
      | false => rfl
      | true => exact absurd ((hs.terminal id h hsets.handle).mp hopen) hsets.first
    · exact statusChange_of_handle? (hsets.others id heq)

theorem status_change (hs : Sound s) (ev : JobEvent) (hfresh : FreshId s ev) (id : Uuid) :
    StatusChange s ev id ((s.step ev).status? id) := by
  unfold JobServer.step JobServer.handle
  cases ev with
  | submit req id' =>
    dsimp only
    split_ifs with hlock
    · exact statusChange_submit hs hlock hfresh id
    · exact .same
  | cancel id' =>
    dsimp only
    split_ifs with hlock
    · exact statusChange_cancel hlock id id'
    · exact .same
  | finish id' result => exact .same
  | cancelToken id' => exact .same
  | reap iter => exact statusChange_reap hs iter id

/-! ## Runs -/

/-- **A job with a status has one after the step**, the same or one that it may move to. -/
theorem StatusChange.moves {ev : JobEvent} {st : JobStatus} {after : Option JobStatus}
    (hchange : StatusChange s ev id after) (hst : s.status? id = some st) :
    ∃ st', after = some st' ∧ (st' = st ∨ Moves st st') := by
  cases hchange with
  | same => exact ⟨st, hst, Or.inl rfl⟩
  | submitted hnone => rw [hst] at hnone; cases hnone
  | cancelling hst' hopen =>
    obtain rfl := Option.some.inj (hst.symm.trans hst')
    refine ⟨.cancelling, rfl, ?_⟩
    cases st with
    | running => exact Or.inr .cancelling
    | cancelling => exact Or.inl rfl
    | cancelled => cases hopen
    | completed => cases hopen
    | failed msg => cases hopen
  | ended hev hst' hopen hresult =>
    obtain rfl := Option.some.inj (hst.symm.trans hst')
    exact ⟨_, rfl, Or.inr (.ends hopen (isTerminal_finalStatus _ _))⟩

theorem StatusChange.final {ev : JobEvent} {st : JobStatus} {after : Option JobStatus}
    (hchange : StatusChange s ev id after) (hst : s.status? id = some st)
    (hend : st.isTerminal = true) : after = some st := by
  cases hchange with
  | same => exact hst
  | submitted hnone => rw [hst] at hnone; cases hnone
  | cancelling hst' hopen =>
    obtain rfl := Option.some.inj (hst.symm.trans hst')
    rw [hend] at hopen
    cases hopen
  | ended hev hst' hopen hresult =>
    obtain rfl := Option.some.inj (hst.symm.trans hst')
    rw [hend] at hopen
    cases hopen

theorem fresh_concat {ev : JobEvent} :
    Runs.Along step FreshId (init registry config) (es ++ [ev]) ↔
      Runs.Along step FreshId (init registry config) es ∧ FreshId (run registry config es) ev :=
  Runs.along_concat es ev

theorem run_concat (es : List JobEvent) (ev : JobEvent) :
    run registry config (es ++ [ev]) = (run registry config es).step ev :=
  Runs.exec_concat es ev

theorem status_final {pre post : List JobEvent} {st : JobStatus}
    (hfresh : Runs.Along step FreshId (init registry config) (pre ++ post))
    (hst : (run registry config pre).status? id = some st) (hend : st.isTerminal = true) :
    (run registry config (pre ++ post)).status? id = some st := by
  induction post using List.reverseRecOn with
  | nil => rwa [List.append_nil]
  | append_singleton post ev ih =>
    rw [← List.append_assoc] at hfresh ⊢
    obtain ⟨hbefore, hid⟩ := fresh_concat.mp hfresh
    rw [run_concat]
    exact (status_change (sound_run hbefore) ev hid id).final (ih hbefore) hend

theorem status_moves {ev : JobEvent} {st : JobStatus}
    (hfresh : Runs.Along step FreshId (init registry config) (es ++ [ev]))
    (hst : (run registry config es).status? id = some st) :
    ∃ st', (run registry config (es ++ [ev])).status? id = some st' ∧ (st' = st ∨ Moves st st') := by
  obtain ⟨hbefore, hid⟩ := fresh_concat.mp hfresh
  rw [run_concat]
  exact (status_change (sound_run hbefore) ev hid id).moves hst

/-- A job whose submission is answered is in the map. -/
theorem lookup_of_created {ev : JobEvent} {name : String} {st : JobStatus}
    (h : .created id name st ∈ s.respond ev) : (s.step ev).status? id = some .running := by
  unfold respond step JobServer.handle at *
  cases ev with
  | submit req id' =>
    dsimp only at h ⊢
    split_ifs at h ⊢ with hlock
    · unfold JobServer.submitJob at h ⊢
      split_ifs at h ⊢ with hknown
      · obtain ⟨rfl, -⟩ := JobResponse.created.inj (List.mem_singleton.mp h)
        rw [status?_insert hlock, if_pos rfl]
      · cases List.mem_singleton.mp h
    · cases h
  | cancel id' =>
    dsimp only at h
    split_ifs at h with hlock
    · unfold JobServer.cancelJob at h
      cases hlookup : s.jobs.lookup id' with
      | none => rw [hlookup] at h; cases List.mem_singleton.mp h
      | some hd =>
        rw [hlookup] at h
        dsimp only at h
        split_ifs at h <;> cases List.mem_singleton.mp h
    · cases h
  | finish id' result => cases h
  | cancelToken id' => cases h
  | reap iter => cases h

theorem status_of_created {name : String} {st : JobStatus}
    (hfresh : Runs.Along step FreshId (init registry config) es)
    (h : .created id name st ∈ responses registry config es) :
    ∃ st', (run registry config es).status? id = some st' := by
  induction es using List.reverseRecOn with
  | nil => cases h
  | append_singleton es ev ih =>
    obtain ⟨hbefore, hid⟩ := fresh_concat.mp hfresh
    unfold responses at h
    rw [Runs.emitted_concat, List.mem_append] at h
    rcases h with h | h
    · obtain ⟨st', hst'⟩ := ih hbefore h
      obtain ⟨st'', hst'', -⟩ := status_moves hfresh hst'
      exact ⟨st'', hst''⟩
    · rw [run_concat]
      exact ⟨_, lookup_of_created h⟩

/-- Where a final status comes from. -/
theorem ended_of_final {st : JobStatus}
    (hfresh : Runs.Along step FreshId (init registry config) es)
    (hst : (run registry config es).status? id = some st) (hend : st.isTerminal = true) :
    ∃ pre iter post st₀ result, es = pre ++ .reap iter :: post ∧
      (run registry config pre).status? id = some st₀ ∧ st₀.isTerminal = false ∧
      (run registry config (pre ++ [.reap iter])).status? id = some st ∧
      (run registry config pre).result? id = some result ∧
      st = finalStatus result ((run registry config pre).isCancelled id) := by
  induction es using List.reverseRecOn generalizing st with
  | nil => cases hst
  | append_singleton es ev ih =>
    obtain ⟨hbefore, hid⟩ := fresh_concat.mp hfresh
    have hchange := status_change (sound_run hbefore) ev hid id
    rw [← run_concat, hst] at hchange
    generalize hafter : some st = after at hchange
    cases hchange with
    | same =>
      obtain ⟨pre, iter, post, st₀, result, hes, hreaped⟩ := ih hbefore hafter.symm hend
      rw [← hafter]
      exact ⟨pre, iter, post ++ [ev], st₀, result, by rw [hes]; simp, hreaped⟩
    | submitted hnone => cases hafter; cases hend
    | cancelling hst' hopen => cases hafter; cases hend
    | @ended st' iter result hev hst' hopen hresult =>
      subst hev
      obtain rfl := Option.some.inj hafter
      exact ⟨es, iter, [], st', result, rfl, hst', hopen, hst, hresult, rfl⟩

/-! ## The result -/

/-- **Every run has the lifecycle**, if a new job id is never the id of an earlier job. -/
theorem lifecycle_run (registry : List String) (config : JobConfig) (es : List JobEvent)
    (hfresh : Runs.Along step FreshId (init registry config) es) :
    Lifecycle registry config es := by
  have hearlier : ∀ pre post, es = pre ++ post →
      Runs.Along step FreshId (init registry config) pre := by
    rintro pre post rfl
    exact ((Runs.along_append _ _).mp hfresh).1
  refine ⟨fun id name st h => ?_, ?_, ?_, fun id h hlock hlookup hend => ?_,
    fun id st hst hend => ?_, (sound_run hfresh).awaitedOnce⟩
  · obtain ⟨st', hst'⟩ := status_of_created hfresh h
    obtain ⟨hd, hget, -⟩ := Option.map_eq_some_iff.mp hst'
    exact ⟨⟨hd, hget⟩, fun hlock => ⟨hd, (handle?_of_lockFree hlock id).symm.trans hget⟩⟩
  · intro pre ev post hes id st hst
    exact status_moves (hearlier (pre ++ [ev]) post (by rw [hes]; simp)) hst
  · rintro pre post rfl id st hst hend
    exact status_final hfresh hst hend
  · unfold JobServer.handle JobServer.cancelJob
    dsimp only
    rw [if_pos hlock, hlookup]
    dsimp only
    rw [if_pos hend]
  · obtain ⟨pre, iter, post, st₀, result, hes, hst₀, hopen, hset, hresult, rfl⟩ :=
      ended_of_final hfresh hst hend
    exact ⟨pre, iter, post, st₀, result, hes, hst₀, hopen, hset, hresult,
      finalStatus_eq_failed _ _, finalStatus_eq_cancelled _ _, finalStatus_eq_completed _ _⟩

/-- A job is cancelled when its task has already returned, and a second one panics. -/
def twoJobsRun : List JobEvent :=
  [JobEvent.submit ⟨"wordcount", none, some 16⟩ 1, .submit ⟨"wordcount", some 2, none⟩ 2,
    .finish 1 .ok, .cancel 1, .finish 2 (.panicked "task 7 panicked")] ++
  List.replicate 6 (JobEvent.reap (.given _)) ++ [JobEvent.cancel 2]

theorem twoJobsRun_lifecycle : Lifecycle ["wordcount"] ⟨"flume", 1, 1024⟩ twoJobsRun := by
  refine lifecycle_run ["wordcount"] ⟨"flume", 1, 1024⟩ twoJobsRun ?_
  decide +kernel

end JobServer
end Flume
