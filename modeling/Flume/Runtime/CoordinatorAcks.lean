import Flume.Runtime.Recovery

/-!
# The acknowledgements of one coordinator

One coordinator runs over an empty directory, and acknowledgements of any checkpoint arrive at any
time. Its ids are numbered by a `u64`, which wraps after `2 ^ 64 - 1` checkpoints.

* `runOnce`: a run in which no second coordinator is started; `triggeredIds`: the ids of its
  checkpoints, in order;
* `Numbered`: the invariant, the checkpoint in progress has the number of its trigger;
* `TimesOut`: a trigger ends in `Timeout` before its commit;
* **`acks_stay`**: the ids increase, the stored states come from acknowledgements of their own
  checkpoint in progress, and a checkpoint that has timed out is never committed.
-/

namespace Flume

open SnapshotStore

namespace Deployment

variable (cfg : CoordinatorConfig)

/-- A step, but no second coordinator is started. -/
def stepOnce (s : Deployment) (ev : DeploymentEvent) : Deployment :=
  if ev = .start then s else s.step cfg ev

/-- One coordinator is started over an empty directory. -/
def runOnce (es : List DeploymentEvent) : Deployment :=
  Runs.exec (stepOnce cfg) (init.step cfg .start) es

/-- The id of the checkpoint that a step triggers. -/
def triggered (s : Deployment) (ev : DeploymentEvent) : List U64 :=
  match s.pc, ev with
  | .waiting, .tick => [s.nextCheckpointId]
  | .waiting, .cancel => [s.nextCheckpointId]
  | _, _ => []

/-- The ids of the checkpoints that are triggered, in order. -/
def triggeredIds (es : List DeploymentEvent) : List U64 :=
  Runs.emitted (stepOnce cfg) triggered (init.step cfg .start) es

/-- The trigger of checkpoint `c` ends in `Timeout` before its commit: the deadline passes, or a
state cannot be saved. -/
def TimesOut (s : Deployment) (ev : DeploymentEvent) (c : U64) : Prop :=
  s.pc.collecting? = some c ∧
    (ev = .timeout ∨ ∃ ack, ev = .ack ack false ∧ ack.checkpointId = c)

/-! ## Numbered triggers -/

variable {cfg} {s : Deployment}

theorem counters_receiveAck (s : Deployment) (final : Bool) (id : U64) (received : Finset String)
    (ack : CheckpointAck) (saved : Bool) :
    (s.receiveAck cfg final id received ack saved).triggers = s.triggers ∧
      (s.receiveAck cfg final id received ack saved).nextCheckpointId = s.nextCheckpointId := by
  unfold receiveAck
  dsimp only
  split_ifs <;> exact ⟨rfl, rfl⟩

theorem counters_writeMarker (s : Deployment) (final : Bool) (id : U64) (written : Bool) :
    (s.writeMarker cfg final id written).triggers = s.triggers ∧
      (s.writeMarker cfg final id written).nextCheckpointId = s.nextCheckpointId := by
  unfold writeMarker
  split <;> exact ⟨rfl, rfl⟩

/-- A step that triggers a checkpoint counts it and goes on to the next id. -/
theorem counters_step (cfg : CoordinatorConfig) (s : Deployment) {ev : DeploymentEvent}
    (hev : ev ≠ .start) :
    (s.step cfg ev).triggers = s.triggers + (s.triggered ev).length ∧
      (s.step cfg ev).nextCheckpointId.val =
        (s.nextCheckpointId.val + (s.triggered ev).length) % 2 ^ 64 := by
  have hquiet : ∀ s' : Deployment, s.triggered ev = [] → s'.triggers = s.triggers ∧
      s'.nextCheckpointId = s.nextCheckpointId →
      s'.triggers = s.triggers + (s.triggered ev).length ∧ s'.nextCheckpointId.val =
        (s.nextCheckpointId.val + (s.triggered ev).length) % 2 ^ 64 := by
    rintro s' htriggered ⟨htriggers, hnext⟩
    rw [htriggered, htriggers, hnext]
    exact ⟨rfl, (Nat.mod_eq_of_lt s.nextCheckpointId.isLt).symm⟩
  have hnext : ∀ next : U64, (next + 1).val = (next.val + 1) % 2 ^ 64 := fun next => Fin.val_add ..
  rcases s with ⟨fs, pc, next, triggers, acks, saves, commits⟩
  cases pc with
  | waiting =>
    cases ev with
    | start => exact absurd rfl hev
    | tick => exact ⟨rfl, hnext next⟩
    | cancel => exact ⟨rfl, hnext next⟩
    | _ => exact hquiet _ rfl ⟨rfl, rfl⟩
  | collecting final id received =>
    cases ev with
    | start => exact absurd rfl hev
    | ack ack saved => exact hquiet _ rfl (counters_receiveAck _ final id received ack saved)
    | _ => exact hquiet _ rfl ⟨rfl, rfl⟩
  | committing final id =>
    cases ev with
    | start => exact absurd rfl hev
    | commit written => exact hquiet _ rfl (counters_writeMarker _ final id written)
    | _ => exact hquiet _ rfl ⟨rfl, rfl⟩
  | cleaning plan =>
    cases ev with
    | start => exact absurd rfl hev
    | remove => cases plan <;> exact hquiet _ rfl ⟨rfl, rfl⟩
    | _ => exact hquiet _ rfl ⟨rfl, rfl⟩
  | _ =>
    cases ev with
    | start => exact absurd rfl hev
    | _ => exact hquiet _ rfl ⟨rfl, rfl⟩

theorem checkpoint?_injectPc (final : Bool) (id : U64) (sent : ℕ) :
    (injectPc cfg final id sent).checkpoint? = some id := by
  unfold injectPc
  split_ifs
  · rfl
  · exact checkpoint?_collectPc cfg final id ∅

/-- The checkpoint in progress and every commit have the number of their trigger. -/
structure Numbered (s : Deployment) : Prop where
  next : s.nextCheckpointId.val = (s.triggers + 1) % 2 ^ 64
  progress : ∀ id, s.pc.checkpoint? = some id → id.val = s.triggers % 2 ^ 64
  commitsLe : ∀ k ∈ s.commits, k.trigger ≤ s.triggers
  commitsLt : s.pc.checkpoint?.isSome → ∀ k ∈ s.commits, k.trigger < s.triggers
  commitsId : ∀ k ∈ s.commits, k.checkpointId.val = k.trigger % 2 ^ 64
  committedFs : ∀ c ∈ committed s.fs, ∃ k ∈ s.commits, k.checkpointId = c

theorem Numbered.rest (h : Numbered s) {s' : Deployment} (hpc : s'.pc.checkpoint? = none)
    (hnext : s'.nextCheckpointId.val = (s'.triggers + 1) % 2 ^ 64)
    (htriggers : s'.triggers = s.triggers) (hcommits : s'.commits = s.commits)
    (hfs : ∀ c ∈ committed s'.fs, c ∈ committed s.fs) : Numbered s' where
  next := hnext
  progress id hid := by rw [hpc] at hid; cases hid
  commitsLe := by rw [htriggers, hcommits]; exact h.commitsLe
  commitsLt hsome := by rw [hpc] at hsome; cases hsome
  commitsId := by rw [hcommits]; exact h.commitsId
  committedFs c hc := by rw [hcommits]; exact h.committedFs c (hfs c hc)

theorem Numbered.goOn (h : Numbered s) {s' : Deployment} {id : U64}
    (hid : s.pc.checkpoint? = some id) (hpc : s'.pc.checkpoint? = some id)
    (hnext : s'.nextCheckpointId.val = (s'.triggers + 1) % 2 ^ 64)
    (htriggers : s'.triggers = s.triggers) (hcommits : s'.commits = s.commits)
    (hfs : ∀ c ∈ committed s'.fs, c ∈ committed s.fs) : Numbered s' where
  next := hnext
  progress id' hid' := by
    rw [htriggers]
    exact h.progress id' (hid.trans (hpc.symm.trans hid'))
  commitsLe := by rw [htriggers, hcommits]; exact h.commitsLe
  commitsLt _ := by rw [htriggers, hcommits]; exact h.commitsLt (by rw [hid]; rfl)
  commitsId := by rw [hcommits]; exact h.commitsId
  committedFs c hc := by rw [hcommits]; exact h.committedFs c (hfs c hc)

theorem Numbered.step (h : Numbered s) {ev : DeploymentEvent} (hev : ev ≠ .start) :
    Numbered (s.step cfg ev) := by
  have hnext : (s.step cfg ev).nextCheckpointId.val =
      ((s.step cfg ev).triggers + 1) % 2 ^ 64 := by
    obtain ⟨htriggers, hnext⟩ := counters_step cfg s hev
    rw [hnext, htriggers, h.next, Nat.mod_add_mod, Nat.add_right_comm]
  have hstep := step_cases cfg s ev
  generalize s.step cfg ev = s' at hstep hnext ⊢
  cases hstep with
  | unchanged => exact h
  | halt _ pc next hpc =>
    exact h.rest (by rcases hpc with rfl | rfl <;> rfl) hnext rfl rfl fun c hc => hc
  | trigger _ final =>
    refine ⟨hnext, fun id hid => ?_, fun k hk => (h.commitsLe k hk).trans (Nat.le_succ _),
      fun _ k hk => Nat.lt_succ_of_le (h.commitsLe k hk), h.commitsId, h.committedFs⟩
    obtain rfl := Option.some.inj (hid.symm.trans (checkpoint?_injectPc final _ 0))
    exact h.next
  | barrier final id sent hpc =>
    exact h.goOn (by rw [hpc]; rfl) (checkpoint?_injectPc final id _) hnext rfl rfl fun c hc => hc
  | stale final id received ack saved hpc hne =>
    have hid : s.pc.checkpoint? = some id := by rw [hpc]; rfl
    exact h.goOn hid hid hnext rfl rfl fun c hc => hc
  | saveFailed final id received ack pc hpc hid hpc' =>
    exact h.rest (by rcases hpc' with rfl | rfl <;> rfl) hnext rfl rfl fun c hc => hc
  | saved final id received ack hpc hid =>
    exact h.goOn (by rw [hpc]; rfl) (checkpoint?_collectPc cfg final id _) hnext rfl rfl
      fun c hc => mem_committed_saveState.mp hc
  | committed final id fs' hpc hc =>
    have hnone := checkpoint?_finishPc cfg fs' final
    refine ⟨hnext, fun c hc' => absurd (hc'.symm.trans hnone) (by simp), fun k hk => ?_,
      fun hsome => ?_, fun k hk => ?_, fun c hc' => ?_⟩
    · rcases List.mem_cons.mp hk with rfl | hk
      · exact le_rfl
      · exact h.commitsLe k hk
    · change (finishPc cfg fs' final .success).checkpoint?.isSome at hsome
      rw [hnone] at hsome
      cases hsome
    · rcases List.mem_cons.mp hk with rfl | hk
      · exact h.progress id (by rw [hpc]; rfl)
      · exact h.commitsId k hk
    · rcases (mem_committed_commit hc).mp hc' with rfl | hc'
      · exact ⟨⟨s.triggers, c⟩, List.mem_cons_self, rfl⟩
      · obtain ⟨k, hk, hkc⟩ := h.committedFs c hc'
        exact ⟨k, List.mem_cons_of_mem _ hk, hkc⟩
  | removed id plan hpc =>
    exact h.rest (checkpoint?_cleanUpPc plan) hnext rfl rfl
      fun c hc => (mem_committed_erase.mp hc).2

theorem numbered_start : Numbered (init.step cfg .start) where
  next := rfl
  progress id hid := by cases hid
  commitsLe k hk := absurd hk List.not_mem_nil
  commitsLt hsome := by cases hsome
  commitsId k hk := absurd hk List.not_mem_nil
  committedFs c hc := absurd hc List.not_mem_nil

theorem stepOnce_keeps {P : Deployment → Prop}
    (hstep : ∀ s ev, ev ≠ .start → P s → P (s.step cfg ev)) (ev : DeploymentEvent) (h : P s) :
    P (stepOnce cfg s ev) := by
  unfold stepOnce
  split_ifs with hev
  · exact h
  · exact hstep s ev hev h

theorem numbered_run (cfg : CoordinatorConfig) (es : List DeploymentEvent) :
    Numbered (runOnce cfg es) :=
  Runs.exec_invariant (fun _ ev h => stepOnce_keeps (fun _ _ hev h => h.step hev) ev h)
    numbered_start es

/-! ## The ids -/

theorem triggered_cases (s : Deployment) (ev : DeploymentEvent) :
    s.triggered ev = [] ∨ s.triggered ev = [s.nextCheckpointId] := by
  unfold triggered
  split
  · exact Or.inr rfl
  · exact Or.inr rfl
  · exact Or.inl rfl

theorem runOnce_concat (cfg : CoordinatorConfig) (es : List DeploymentEvent) (ev : DeploymentEvent) :
    runOnce cfg (es ++ [ev]) = stepOnce cfg (runOnce cfg es) ev :=
  Runs.exec_concat es ev

theorem triggeredIds_eq (es : List DeploymentEvent) : (triggeredIds cfg es).map Fin.val =
    (List.range (runOnce cfg es).triggers).map fun k => (k + 1) % 2 ^ 64 := by
  induction es using List.reverseRecOn with
  | nil => rfl
  | append_singleton es ev ih =>
    have hrun := runOnce_concat cfg es ev
    unfold triggeredIds at ih ⊢
    rw [Runs.emitted_concat, List.map_append, ih, hrun]
    change _ ++ ((runOnce cfg es).triggered ev).map Fin.val = _
    unfold stepOnce
    split_ifs with hev
    · subst hev
      have hquiet : (runOnce cfg es).triggered .start = [] := by
        unfold triggered
        cases (runOnce cfg es).pc <;> rfl
      rw [hquiet, List.map_nil, List.append_nil]
    · have hcounters := (counters_step cfg (runOnce cfg es) hev).1
      rw [hcounters]
      rcases triggered_cases (runOnce cfg es) ev with hids | hids
      · rw [hids, List.map_nil, List.append_nil]
        rfl
      · rw [hids, List.length_singleton, List.range_succ, List.map_append, List.map_singleton,
          List.map_singleton, (numbered_run cfg es).next]

theorem triggeredIds_increasing {es : List DeploymentEvent}
    (hlt : (runOnce cfg es).triggers < 2 ^ 64) :
    (triggeredIds cfg es).Pairwise (· < ·) := by
  have hvals : ((triggeredIds cfg es).map Fin.val).Pairwise (· < ·) := by
    rw [triggeredIds_eq, List.pairwise_map]
    refine List.Pairwise.imp_of_mem (fun {j k} hj hk hjk => ?_) List.pairwise_lt_range
    rw [List.mem_range] at hj hk
    rw [Nat.mod_eq_of_lt (by omega), Nat.mod_eq_of_lt (by omega)]
    omega
  rw [List.pairwise_map] at hvals
  exact hvals

/-! ## Checkpoints that have timed out -/

/-- Trigger `t` is over and has committed nothing. -/
structure Passed (t : ℕ) (s : Deployment) : Prop where
  le : t ≤ s.triggers
  notCommitted : ∀ k ∈ s.commits, k.trigger ≠ t
  lt : s.pc.checkpoint?.isSome → t < s.triggers

theorem Passed.step {t : ℕ} (h : Passed t s) (ev : DeploymentEvent) :
    Passed t (s.step cfg ev) := by
  have hstep := step_cases cfg s ev
  generalize s.step cfg ev = s' at hstep ⊢
  cases hstep with
  | halt _ pc next hpc =>
    exact ⟨h.le, h.notCommitted, fun hsome => by rcases hpc with rfl | rfl <;> cases hsome⟩
  | trigger _ final =>
    exact ⟨h.le.trans (Nat.le_succ _), h.notCommitted, fun _ => Nat.lt_succ_of_le h.le⟩
  | barrier final id sent hpc =>
    exact ⟨h.le, h.notCommitted, fun _ => h.lt (by rw [hpc]; rfl)⟩
  | saveFailed final id received ack pc hpc hid hpc' =>
    exact ⟨h.le, h.notCommitted, fun _ => h.lt (by rw [hpc]; rfl)⟩
  | saved final id received ack hpc hid =>
    exact ⟨h.le, h.notCommitted, fun _ => h.lt (by rw [hpc]; rfl)⟩
  | committed final id fs' hpc hc =>
    have hlt := h.lt (by rw [hpc]; rfl)
    refine ⟨h.le, fun k hk => ?_, fun _ => hlt⟩
    rcases List.mem_cons.mp hk with rfl | hk
    · exact hlt.ne'
    · exact h.notCommitted k hk
  | removed id plan hpc =>
    refine ⟨h.le, h.notCommitted, fun hsome => ?_⟩
    change (cleanUpPc plan).checkpoint?.isSome at hsome
    rw [checkpoint?_cleanUpPc] at hsome
    cases hsome
  | unchanged => exact h
  | stale final id received ack saved hpc hne => exact ⟨h.le, h.notCommitted, h.lt⟩

/-- A trigger that times out is over and has committed nothing. -/
theorem passed_of_timesOut {ev : DeploymentEvent} {c : U64} (h : Numbered s)
    (hout : TimesOut s ev c) : Passed s.triggers (s.step cfg ev) := by
  obtain ⟨hcollecting, hev⟩ := hout
  obtain ⟨final, id, received, hpc⟩ :
      ∃ final id received, s.pc = .collecting final id received := by
    cases hpc : s.pc with
    | collecting final id received => exact ⟨final, id, received, rfl⟩
    | _ => rw [hpc] at hcollecting; cases hcollecting
  have hid : id = c := by
    rw [hpc] at hcollecting
    exact Option.some.inj hcollecting
  have hcommits : ∀ k ∈ s.commits, k.trigger ≠ s.triggers :=
    fun k hk => (h.commitsLt (by rw [hpc]; rfl) k hk).ne
  -- the process stops or waits for the next tick
  have hover : (finishPc cfg s.fs final .timeout).checkpoint? = none := by
    have hfailed : CheckpointResult.timeout ≠ .success := by simp
    rcases finishPc_of_failure cfg s.fs final hfailed with hpc' | hpc' <;>
      rw [hpc'] <;> rfl
  have hpassed : ∀ acks, Passed s.triggers
      { s with acks := acks, pc := finishPc cfg s.fs final .timeout } := fun acks =>
    ⟨le_rfl, hcommits, fun hsome => by rw [hover] at hsome; cases hsome⟩
  rcases hev with rfl | ⟨ack, rfl, hack⟩
  · have hstep : s.step cfg .timeout =
        { s with acks := s.acks, pc := finishPc cfg s.fs final .timeout } := by
      unfold step
      simp only [hpc]
    rw [hstep]
    exact hpassed s.acks
  · have hstep : s.step cfg (.ack ack false) = { s with
        acks := s.acks ++ [(ack, false)], pc := finishPc cfg s.fs final .timeout } := by
      unfold step receiveAck
      simp only [hpc]
      rw [if_pos (hack.trans hid.symm), if_neg (by simp)]
    rw [hstep]
    exact hpassed _

theorem TimesOut.ne_start {ev : DeploymentEvent} {c : U64} (hout : TimesOut s ev c) :
    ev ≠ .start := by
  obtain ⟨-, rfl | ⟨ack, rfl, -⟩⟩ := hout <;> simp

/-- A checkpoint that has timed out is never committed. -/
theorem not_committed_of_timesOut {pre post : List DeploymentEvent} {ev : DeploymentEvent} {c : U64}
    (hout : TimesOut (runOnce cfg pre) ev c)
    (hlt : (runOnce cfg (pre ++ ev :: post)).triggers < 2 ^ 64) :
    (∀ k ∈ (runOnce cfg (pre ++ ev :: post)).commits, k.checkpointId ≠ c) ∧
      c ∉ committed (runOnce cfg (pre ++ ev :: post)).fs := by
  have hpre := numbered_run cfg pre
  have hend := numbered_run cfg (pre ++ ev :: post)
  have hc : c.val = (runOnce cfg pre).triggers % 2 ^ 64 := by
    refine hpre.progress c ?_
    have hcollecting := hout.1
    cases hpc : (runOnce cfg pre).pc <;> rw [hpc] at hcollecting <;> cases hcollecting
    rfl
  have hpassed : Passed (runOnce cfg pre).triggers (runOnce cfg (pre ++ ev :: post)) := by
    have hrun : runOnce cfg (pre ++ ev :: post) =
        Runs.exec (stepOnce cfg) ((runOnce cfg pre).step cfg ev) post := by
      unfold runOnce
      rw [Runs.exec_append, Runs.exec_cons]
      congr 1
      exact if_neg hout.ne_start
    rw [hrun]
    exact Runs.exec_invariant (fun _ ev h => stepOnce_keeps (fun _ ev _ h => h.step ev) ev h)
      (passed_of_timesOut hpre hout) post
  have hcommits : ∀ k ∈ (runOnce cfg (pre ++ ev :: post)).commits, k.checkpointId ≠ c := by
    rintro k hk rfl
    have hk' := hend.commitsId k hk
    rw [hc, Nat.mod_eq_of_lt (lt_of_le_of_lt hpassed.le hlt),
      Nat.mod_eq_of_lt (lt_of_le_of_lt (hend.commitsLe k hk) hlt)] at hk'
    exact hpassed.notCommitted k hk hk'.symm
  refine ⟨hcommits, fun hmem => ?_⟩
  obtain ⟨k, hk, hkc⟩ := hend.committedFs c hmem
  exact hcommits k hk hkc

/-! ## The stored states -/

/-- A step changes what is stored only by saving the state of an acknowledgement of the checkpoint
in progress. -/
theorem loadState_step {ev : DeploymentEvent} {c : U64} {name : String} {bytes : Bytes}
    (h : loadState (s.step cfg ev).fs c name = .ok bytes) :
    loadState s.fs c name = .ok bytes ∨
      ev = .ack ⟨c, name, bytes⟩ true ∧ s.pc.collecting? = some c := by
  have hstep := step_cases cfg s ev
  generalize s.step cfg ev = s' at hstep h
  cases hstep with
  | saved final id received ack hpc hid =>
    change loadState (saveState s.fs id ack.operatorName ack.stateBytes) c name = .ok bytes at h
    rw [loadState_saveState] at h
    split_ifs at h with hsame
    · obtain ⟨rfl, rfl⟩ := hsame
      obtain rfl := Except.ok.inj h
      obtain ⟨ackId, ackName, ackBytes⟩ := ack
      obtain rfl : ackId = c := hid
      exact Or.inr ⟨rfl, by rw [hpc]; rfl⟩
    · exact Or.inl h
  | committed final id fs' hpc hc =>
    exact Or.inl ((loadState_commit hc).symm.trans h)
  | removed id plan hpc =>
    by_cases hid : c = id
    · subst hid
      change loadState (s.fs.erase c) c name = .ok bytes at h
      unfold loadState at h
      rw [AList.lookup_erase] at h
      cases h
    · exact Or.inl ((loadState_erase_of_ne hid).symm.trans h)
  | _ => exact Or.inl h

theorem stored_from_ack {es : List DeploymentEvent} {c : U64} {name : String} {bytes : Bytes}
    (h : loadState (runOnce cfg es).fs c name = .ok bytes) :
    ∃ pre post, es = pre ++ .ack ⟨c, name, bytes⟩ true :: post ∧
      (runOnce cfg pre).pc.collecting? = some c := by
  induction es using List.reverseRecOn with
  | nil => cases h
  | append_singleton es ev ih =>
    have hrun := runOnce_concat cfg es ev
    have hback : loadState (runOnce cfg es).fs c name = .ok bytes →
        ∃ pre post, es ++ [ev] = pre ++ .ack ⟨c, name, bytes⟩ true :: post ∧
          (runOnce cfg pre).pc.collecting? = some c := by
      intro hbefore
      obtain ⟨pre, post, rfl, hpc⟩ := ih hbefore
      exact ⟨pre, post ++ [ev], by simp, hpc⟩
    rw [hrun] at h
    unfold stepOnce at h
    split_ifs at h with hev
    · exact hback h
    · rcases loadState_step h with hbefore | ⟨rfl, hpc⟩
      · exact hback hbefore
      · exact ⟨es, [], rfl, hpc⟩

/-! ## The result -/

/-- **Acknowledgements stay with their checkpoint.** Until `2 ^ 64` checkpoints have been triggered,
their ids increase, and none is committed after its time-out. -/
theorem acks_stay (cfg : CoordinatorConfig) (es : List DeploymentEvent) :
    (∀ c name bytes, loadState (runOnce cfg es).fs c name = .ok bytes →
      ∃ pre post, es = pre ++ .ack ⟨c, name, bytes⟩ true :: post ∧
        (runOnce cfg pre).pc.collecting? = some c) ∧
    ((runOnce cfg es).triggers < 2 ^ 64 →
      (triggeredIds cfg es).Pairwise (· < ·) ∧
      ∀ pre ev post c, es = pre ++ ev :: post → TimesOut (runOnce cfg pre) ev c →
        (∀ k ∈ (runOnce cfg es).commits, k.checkpointId ≠ c) ∧
          c ∉ committed (runOnce cfg es).fs) := by
  refine ⟨fun c name bytes h => stored_from_ack h, fun hlt => ⟨triggeredIds_increasing hlt, ?_⟩⟩
  rintro pre ev post c rfl hout
  exact not_committed_of_timesOut hout hlt

/-- Checkpoint 1 times out after its first acknowledgement; the second one arrives when checkpoint 2
is in progress, which is committed. -/
def lateAckRun : List DeploymentEvent :=
  [.tick, .barrier true, .ack ⟨1, "op_a", [1]⟩ true, .timeout, .tick, .barrier true,
    .ack ⟨1, "op_b", [1]⟩ true, .ack ⟨2, "op_b", [2]⟩ true, .ack ⟨2, "op_a", [2]⟩ true,
    .commit true]

theorem lateAckRun_stays : 1 ∉ committed (runOnce twoOperators lateAckRun).fs := by
  have h := (acks_stay twoOperators lateAckRun).2 (by decide +kernel)
  exact (h.2 (lateAckRun.take 3) .timeout (lateAckRun.drop 4) 1 rfl
    ⟨by decide +kernel, Or.inl rfl⟩).2

/-- Checkpoints that time out, one after the other. -/
def timingOut (n : ℕ) : List DeploymentEvent :=
  (List.replicate n [.tick, .barrier true, .timeout]).flatten

theorem runOnce_timingOut (n : ℕ) : (runOnce twoOperators (timingOut n)).pc = .waiting ∧
    (runOnce twoOperators (timingOut n)).triggers = n := by
  induction n with
  | zero => exact ⟨rfl, rfl⟩
  | succ n ih =>
    have hround : timingOut (n + 1) = timingOut n ++ [.tick, .barrier true, .timeout] := by
      unfold timingOut
      rw [List.replicate_succ', List.flatten_append, List.flatten_singleton]
    have hrun : runOnce twoOperators (timingOut (n + 1)) = Runs.exec (stepOnce twoOperators)
        (runOnce twoOperators (timingOut n)) [.tick, .barrier true, .timeout] := by
      rw [hround]
      exact Runs.exec_append _ _
    rw [hrun]
    generalize runOnce twoOperators (timingOut n) = s at ih
    obtain ⟨fs, pc, next, triggers, acks, saves, commits⟩ := s
    obtain ⟨rfl, rfl⟩ := ih
    exact ⟨rfl, rfl⟩

theorem not_increasing_of_wrap {n : ℕ} (hn : 2 ^ 64 ≤ n) :
    ¬ ((List.range n).map fun k => (k + 1) % 2 ^ 64).Pairwise (· < ·) := by
  intro h
  rw [List.pairwise_map, List.pairwise_iff_getElem] at h
  have hlast := h 0 (2 ^ 64 - 1) (by rw [List.length_range]; omega)
    (by rw [List.length_range]; omega) (by omega)
  rw [List.getElem_range, List.getElem_range] at hlast
  omega

/-- The id after `2 ^ 64 - 1` is 0. -/
theorem timingOut_not_increasing :
    ¬ (triggeredIds twoOperators (timingOut (2 ^ 64))).Pairwise (· < ·) := by
  intro h
  have hvals : ((triggeredIds twoOperators (timingOut (2 ^ 64))).map Fin.val).Pairwise (· < ·) :=
    List.pairwise_map.mpr h
  rw [triggeredIds_eq] at hvals
  exact not_increasing_of_wrap (runOnce_timingOut (2 ^ 64)).2.ge hvals

end Deployment
end Flume
