import Flume.Server.JobServer

/-!
# The reaper

What holds in every state of the job server, and what the reaper does at each of its stops.

* `Sound`: a job has a task, its status is final once its task has been awaited, and no task is
  awaited twice; `sound_run`;
* `Reaps`: the stops of the reaper, which never panics and never waits.
-/

namespace Flume

open Entries

namespace JobServer

variable {s : JobServer} {id id' : Uuid} {h : JobHandle}

/-! ## What holds in every state -/

/-- A job in the map that the reaper is to handle. -/
def Due (s : JobServer) (id : Uuid) : Prop :=
  ∃ h, s.jobs.lookup id = some h ∧ h.status.isTerminal = false ∧ (s.result? id).isSome

/-- The jobs that the reaper has yet to handle are different ones and still due. -/
def ReaperSound (s : JobServer) : Prop :=
  match s.reaper with
  | .idle => True
  | .sweeping ids => ids.Nodup ∧ ∀ id ∈ ids, s.Due id
  | .awaiting id h ids => (id :: ids).Nodup ∧ h.status.isTerminal = false ∧
      (s.result? id).isSome ∧ ∀ id ∈ ids, s.Due id
  | .panicked => False

/-- What holds in every state: a job has a task, its status is final once its task has been awaited,
and no task has been awaited twice. -/
structure Sound (s : JobServer) : Prop where
  spawned : ∀ id h, s.handle? id = some h → ∃ task, s.tasks.lookup id = some task
  terminal : ∀ id h, s.handle? id = some h →
    (h.status.isTerminal = true ↔ id ∈ s.awaited.map Await.id)
  awaitedSpawned : ∀ id ∈ s.awaited.map Await.id, ∃ task, s.tasks.lookup id = some task
  awaitedOnce : (s.awaited.map Await.id).Nodup
  reaper : s.ReaperSound

theorem sound_init (registry : List String) (config : JobConfig) : Sound (init registry config) where
  spawned id h hid := by cases hid
  terminal id h hid := by cases hid
  awaitedSpawned id hid := by cases hid
  awaitedOnce := List.nodup_nil
  reaper := trivial

theorem ReaperSound.idle_of_lockFree (hreaper : s.ReaperSound) (hlock : s.lockFree = true) :
    s.reaper = .idle := by
  unfold ReaperSound at hreaper
  unfold lockFree at hlock
  cases hr : s.reaper with
  | idle => rfl
  | sweeping ids => rw [hr] at hlock; cases hlock
  | awaiting id h ids => rw [hr] at hlock; cases hlock
  | panicked => rw [hr] at hreaper; exact hreaper.elim

theorem ReaperSound.of_lockFree (hreaper : s.ReaperSound) (hlock : s.lockFree = true)
    (jobs : AList fun _ : Uuid => JobHandle) (tasks : AList fun _ : Uuid => JobTask) :
    ReaperSound { s with jobs := jobs, tasks := tasks } := by
  unfold ReaperSound
  dsimp only
  rw [hreaper.idle_of_lockFree hlock]
  trivial

theorem handle?_insert_cases (hlock : s.lockFree = true)
    {tasks : AList fun _ : Uuid => JobTask} {h' : JobHandle}
    (hget : handle? { s with jobs := s.jobs.insert id h, tasks := tasks } id' = some h') :
    id' = id ∧ h' = h ∨ s.handle? id' = some h' := by
  rw [handle?_insert hlock] at hget
  split_ifs at hget with heq
  · exact Or.inl ⟨heq, (Option.some.inj hget).symm⟩
  · exact Or.inr hget

theorem Due.mono {s' : JobServer} (hdue : s.Due id) (hjobs : s'.jobs.lookup id = s.jobs.lookup id)
    (hresult : (s.result? id).isSome → (s'.result? id).isSome) : s'.Due id := by
  obtain ⟨h, hlookup, hopen, hfinished⟩ := hdue
  exact ⟨h, hjobs.trans hlookup, hopen, hresult hfinished⟩

/-- The reaper is not disturbed by changes of a task that keep that it has finished. -/
theorem ReaperSound.updateTask (hreaper : s.ReaperSound) (id : Uuid) {f : JobTask → JobTask}
    (hf : ∀ task, task.result.isSome → (f task).result.isSome) :
    ReaperSound { s with tasks := s.updateTask id f } := by
  have hresult : ∀ id', (s.result? id').isSome →
      (result? { s with tasks := s.updateTask id f } id').isSome := by
    intro id' hfinished
    unfold result? at hfinished ⊢
    dsimp only
    rw [lookup_updateTask]
    split_ifs
    · cases hlookup : s.tasks.lookup id' with
      | none => rw [hlookup] at hfinished; cases hfinished
      | some task => rw [hlookup] at hfinished; exact hf task hfinished
    · exact hfinished
  unfold ReaperSound at hreaper ⊢
  dsimp only
  cases hr : s.reaper with
  | idle => trivial
  | sweeping ids =>
    rw [hr] at hreaper
    exact ⟨hreaper.1, fun id' hid => (hreaper.2 id' hid).mono rfl (hresult id')⟩
  | awaiting id' h ids =>
    rw [hr] at hreaper
    obtain ⟨hnodup, hopen, hfinished, hdue⟩ := hreaper
    exact ⟨hnodup, hopen, hresult id' hfinished,
      fun id' hid => (hdue id' hid).mono rfl (hresult id')⟩
  | panicked => rw [hr] at hreaper; exact hreaper

theorem Sound.updateTask (hs : Sound s) (id : Uuid) {f : JobTask → JobTask}
    (hf : ∀ task, task.result.isSome → (f task).result.isSome) :
    Sound { s with tasks := s.updateTask id f } :=
  ⟨fun id' h hid => exists_lookup_updateTask (hs.spawned id' h hid), hs.terminal,
    fun id' hid => exists_lookup_updateTask (hs.awaitedSpawned id' hid), hs.awaitedOnce,
    hs.reaper.updateTask id hf⟩

theorem Sound.insert (hs : Sound s) (hlock : s.lockFree = true)
    {tasks : AList fun _ : Uuid => JobTask}
    (htasks : ∀ id' task, s.tasks.lookup id' = some task → ∃ task', tasks.lookup id' = some task')
    (hid : ∃ task, tasks.lookup id = some task) (hawaited : id ∉ s.awaited.map Await.id)
    (hopen : h.status.isTerminal = false) :
    Sound { s with jobs := s.jobs.insert id h, tasks := tasks } := by
  refine ⟨fun id' h' hget => ?_, fun id' h' hget => ?_, fun id' hmem => ?_, hs.awaitedOnce,
    hs.reaper.of_lockFree hlock _ _⟩
  · rcases handle?_insert_cases hlock hget with ⟨rfl, -⟩ | hget
    · exact hid
    · obtain ⟨task, htask⟩ := hs.spawned id' h' hget
      exact htasks id' task htask
  · rcases handle?_insert_cases hlock hget with ⟨rfl, rfl⟩ | hget
    · simp [hopen, hawaited]
    · exact hs.terminal id' h' hget
  · obtain ⟨task, htask⟩ := hs.awaitedSpawned id' hmem
    exact htasks id' task htask

theorem Sound.submitJob (hs : Sound s) (hlock : s.lockFree = true) (req : SubmitJobRequest)
    (hfresh : s.tasks.lookup id = none) : Sound (s.submitJob req id).2 := by
  unfold JobServer.submitJob
  split_ifs
  · refine hs.insert hlock (fun id' task htask => ?_)
      ⟨_, AList.lookup_insert _⟩ (fun hmem => ?_) rfl
    · have hne : id' ≠ id := by
        rintro rfl
        rw [hfresh] at htask
        cases htask
      exact ⟨task, by rw [AList.lookup_insert_ne hne, htask]⟩
    · obtain ⟨task, htask⟩ := hs.awaitedSpawned id hmem
      rw [hfresh] at htask
      cases htask
  · exact hs

theorem Sound.cancelJob (hs : Sound s) (hlock : s.lockFree = true) (id : Uuid) :
    Sound (s.cancelJob id).2 := by
  unfold JobServer.cancelJob
  cases hlookup : s.jobs.lookup id with
  | none => exact hs
  | some h =>
    have hget : s.handle? id = some h := (handle?_of_lockFree hlock id).trans hlookup
    dsimp only
    split_ifs with hend
    · exact hs
    · exact hs.insert hlock (fun id' task htask => exists_lookup_updateTask ⟨task, htask⟩)
        (exists_lookup_updateTask (hs.spawned id h hget))
        (fun hmem => hend ((hs.terminal id h hget).mpr hmem)) rfl

theorem nodup_finishedIds (iter : IterOrder Uuid) (s : JobServer) : (s.finishedIds iter).Nodup :=
  nodup_visit.sublist (List.filter_sublist.map Prod.fst)

theorem due_of_mem_finishedIds {iter : IterOrder Uuid} (hid : id ∈ s.finishedIds iter) :
    s.Due id := by
  obtain ⟨⟨id, h⟩, hmem, rfl⟩ := List.mem_map.mp hid
  obtain ⟨hvisit, hcond⟩ := List.mem_filter.mp hmem
  rw [Bool.and_eq_true, Bool.not_eq_true'] at hcond
  exact ⟨h, mem_visit.mp hvisit, hcond.2, hcond.1⟩

/-- What the reaper does at each of its stops, from a sound state. -/
inductive Reaps (s : JobServer) (iter : IterOrder Uuid) : JobServer → Prop
  | starts (hreaper : s.reaper = .idle) :
      Reaps s iter { s with reaper := .sweeping (s.finishedIds iter) }
  | sleeps (hreaper : s.reaper = .sweeping []) : Reaps s iter { s with reaper := .idle }
  | takes {id : Uuid} {h : JobHandle} {ids : List Uuid}
      (hreaper : s.reaper = .sweeping (id :: ids)) (hlookup : s.jobs.lookup id = some h) :
      Reaps s iter { s with jobs := s.jobs.erase id, reaper := .awaiting id h ids }
  | sets {id : Uuid} {h : JobHandle} {ids : List Uuid} {result : TaskResult}
      (hreaper : s.reaper = .awaiting id h ids) (hfirst : id ∉ s.awaited.map Await.id)
      (hresult : s.result? id = some result) :
      Reaps s iter { s with
        jobs := s.jobs.insert id { h with status := finalStatus result (s.isCancelled id) }
        reaper := .sweeping ids
        awaited := s.awaited ++ [⟨id, result, s.isCancelled id⟩] }

/-- The reaper never panics and never waits for a task, if no job without a final status has been
awaited. -/
theorem ReaperSound.reaps (hreaper : s.ReaperSound)
    (hunawaited : ∀ id h, s.handle? id = some h → h.status.isTerminal = false →
      id ∉ s.awaited.map Await.id) (iter : IterOrder Uuid) : Reaps s iter (s.reapStep iter) := by
  unfold ReaperSound at hreaper
  unfold reapStep
  cases hr : s.reaper with
  | idle => exact .starts hr
  | sweeping ids =>
    cases ids with
    | nil => exact .sleeps hr
    | cons id ids =>
      rw [hr] at hreaper
      obtain ⟨h, hlookup, -⟩ := hreaper.2 id List.mem_cons_self
      dsimp only
      rw [hlookup]
      exact .takes hr hlookup
  | awaiting id h ids =>
    rw [hr] at hreaper
    obtain ⟨-, hopen, hfinished, -⟩ := hreaper
    have hget : s.handle? id = some h := by unfold handle?; rw [hr]; exact if_pos rfl
    have hfirst := hunawaited id h hget hopen
    obtain ⟨result, hresult⟩ := Option.isSome_iff_exists.mp hfinished
    dsimp only
    rw [if_neg hfirst, hresult]
    exact .sets hr hfirst hresult
  | panicked => rw [hr] at hreaper; exact hreaper.elim

theorem Sound.reaps (hs : Sound s) (iter : IterOrder Uuid) : Reaps s iter (s.reapStep iter) := by
  refine hs.reaper.reaps (fun id h hget hopen hmem => ?_) iter
  rw [(hs.terminal id h hget).mpr hmem] at hopen
  cases hopen

/-- The job `id` is given the final status that its task's result calls for. -/
structure Sets (s s' : JobServer) (id : Uuid) (h : JobHandle) (result : TaskResult) : Prop where
  handle : s.handle? id = some h
  first : id ∉ s.awaited.map Await.id
  finished : s.result? id = some result
  handle' : s'.handle? id = some { h with status := finalStatus result (s.isCancelled id) }
  others : ∀ id', id' ≠ id → s'.handle? id' = s.handle? id'
  awaited : s'.awaited = s.awaited ++ [⟨id, result, s.isCancelled id⟩]

theorem Reaps.quiet_or_sets {s' : JobServer} {iter : IterOrder Uuid} (hreaps : Reaps s iter s') :
    (∀ id, s'.handle? id = s.handle? id) ∧ s'.awaited = s.awaited ∨
      ∃ id h result, Sets s s' id h result := by
  cases hreaps with
  | starts hreaper => exact Or.inl ⟨fun id => by unfold handle?; rw [hreaper], rfl⟩
  | sleeps hreaper => exact Or.inl ⟨fun id => by unfold handle?; rw [hreaper], rfl⟩
  | @takes id h ids hreaper hlookup =>
    refine Or.inl ⟨fun id' => ?_, rfl⟩
    unfold handle?
    rw [hreaper]
    dsimp only
    split_ifs with heq
    · rw [heq, hlookup]
    · exact AList.lookup_erase_ne heq
  | @sets id h ids result hreaper hfirst hresult =>
    refine Or.inr ⟨id, h, result, ?_, hfirst, hresult, AList.lookup_insert _, fun id' hne => ?_, rfl⟩
    · unfold handle?
      rw [hreaper]
      exact if_pos rfl
    · unfold handle?
      rw [hreaper]
      dsimp only
      rw [if_neg hne]
      exact AList.lookup_insert_ne hne

theorem Reaps.tasks_eq {s' : JobServer} {iter : IterOrder Uuid} (hreaps : Reaps s iter s') :
    s'.tasks = s.tasks := by cases hreaps <;> rfl

theorem Reaps.reaperSound {s' : JobServer} {iter : IterOrder Uuid} (hreaps : Reaps s iter s')
    (hs : s.ReaperSound) : s'.ReaperSound := by
  unfold ReaperSound at hs
  cases hreaps with
  | starts hreaper =>
    exact ⟨nodup_finishedIds iter s,
      fun id hid => (due_of_mem_finishedIds hid).mono rfl fun hf => hf⟩
  | sleeps hreaper => trivial
  | @takes id h ids hreaper hlookup =>
    rw [hreaper] at hs
    obtain ⟨hnodup, hdue⟩ := hs
    obtain ⟨h', hlookup', hopen, hfinished⟩ := hdue id List.mem_cons_self
    obtain rfl := Option.some.inj (hlookup.symm.trans hlookup')
    refine ⟨hnodup, hopen, hfinished, fun id' hid' => ?_⟩
    refine (hdue id' (List.mem_cons_of_mem _ hid')).mono (AList.lookup_erase_ne ?_) fun hf => hf
    rintro rfl
    exact (List.nodup_cons.mp hnodup).1 hid'
  | @sets id h ids result hreaper hfirst hresult =>
    rw [hreaper] at hs
    obtain ⟨hnodup, -, -, hdue⟩ := hs
    obtain ⟨hnotMem, hnodup⟩ := List.nodup_cons.mp hnodup
    refine ⟨hnodup, fun id' hid' => ?_⟩
    refine (hdue id' hid').mono (AList.lookup_insert_ne ?_) fun hf => hf
    rintro rfl
    exact hnotMem hid'

theorem Sets.awaitedIds {s' : JobServer} {result : TaskResult} (hsets : Sets s s' id h result) :
    s'.awaited.map Await.id = s.awaited.map Await.id ++ [id] := by
  rw [hsets.awaited, List.map_append]
  rfl

theorem Sets.isTerminal {s' : JobServer} {result : TaskResult} {h' : JobHandle}
    (hsets : Sets s s' id h result) (hget : s'.handle? id = some h') :
    h'.status.isTerminal = true := by
  rw [hsets.handle'] at hget
  obtain rfl := Option.some.inj hget
  exact isTerminal_finalStatus _ _

theorem Reaps.spawned {s' : JobServer} {iter : IterOrder Uuid} (hreaps : Reaps s iter s')
    (hspawned : ∀ id h, s.handle? id = some h → ∃ task, s.tasks.lookup id = some task)
    (hget : s'.handle? id' = some h) : ∃ task, s'.tasks.lookup id' = some task := by
  rw [hreaps.tasks_eq]
  rcases hreaps.quiet_or_sets with ⟨hhandle, -⟩ | ⟨id, h', result, hsets⟩
  · exact hspawned id' h (hhandle id' ▸ hget)
  · by_cases heq : id' = id
    · exact hspawned id' h' (heq ▸ hsets.handle)
    · exact hspawned id' h (hsets.others id' heq ▸ hget)

theorem Reaps.awaitedSpawned {s' : JobServer} {iter : IterOrder Uuid} (hreaps : Reaps s iter s')
    (hspawned : ∀ id h, s.handle? id = some h → ∃ task, s.tasks.lookup id = some task)
    (hawaited : ∀ id ∈ s.awaited.map Await.id, ∃ task, s.tasks.lookup id = some task)
    (hmem : id' ∈ s'.awaited.map Await.id) : ∃ task, s'.tasks.lookup id' = some task := by
  rw [hreaps.tasks_eq]
  rcases hreaps.quiet_or_sets with ⟨-, hsame⟩ | ⟨id, h, result, hsets⟩
  · exact hawaited id' (hsame ▸ hmem)
  · rw [hsets.awaitedIds, List.mem_append, List.mem_singleton] at hmem
    rcases hmem with hmem | rfl
    · exact hawaited id' hmem
    · exact hspawned id' h hsets.handle

theorem Sound.reapStep (hs : Sound s) (iter : IterOrder Uuid) : Sound (s.reapStep iter) := by
  have hreaps := hs.reaps iter
  generalize s.reapStep iter = s' at hreaps ⊢
  refine ⟨fun id h => hreaps.spawned hs.spawned, fun id' h' hget => ?_,
    fun id => hreaps.awaitedSpawned hs.spawned hs.awaitedSpawned, ?_,
    hreaps.reaperSound hs.reaper⟩
  · rcases hreaps.quiet_or_sets with ⟨hhandle, hawaited⟩ | ⟨id, h, result, hsets⟩
    · rw [hawaited]
      exact hs.terminal id' h' (hhandle id' ▸ hget)
    · rw [hsets.awaitedIds, List.mem_append, List.mem_singleton]
      by_cases heq : id' = id
      · subst heq
        simp only [or_true, iff_true]
        exact hsets.isTerminal hget
      · simp only [heq, or_false]
        exact hs.terminal id' h' (hsets.others id' heq ▸ hget)
  · rcases hreaps.quiet_or_sets with ⟨-, hawaited⟩ | ⟨id, h, result, hsets⟩
    · rw [hawaited]
      exact hs.awaitedOnce
    · rw [hsets.awaitedIds, List.nodup_append]
      refine ⟨hs.awaitedOnce, List.nodup_singleton _, ?_⟩
      rintro id' hmem _ hsingle rfl
      rw [List.mem_singleton.mp hsingle] at hmem
      exact hsets.first hmem

theorem Sound.step (hs : Sound s) (ev : JobEvent) (hfresh : FreshId s ev) : Sound (s.step ev) := by
  unfold JobServer.step JobServer.handle
  cases ev with
  | submit req id =>
    dsimp only
    split_ifs with hlock
    · exact hs.submitJob hlock req hfresh
    · exact hs
  | cancel id =>
    dsimp only
    split_ifs with hlock
    · exact hs.cancelJob hlock id
    · exact hs
  | finish id result => exact hs.updateTask id fun task _ => rfl
  | cancelToken id => exact hs.updateTask id fun task hf => hf
  | reap iter => exact hs.reapStep iter

variable {registry : List String} {config : JobConfig} {es : List JobEvent}

theorem sound_run (hfresh : Runs.Along JobServer.step FreshId (init registry config) es) :
    Sound (run registry config es) :=
  Runs.exec_invariant_along (P := Sound) (fun _ ev hs hid => hs.step ev hid)
    (sound_init registry config) hfresh

end JobServer
end Flume
