import Flume.Runtime.CoordinatorCommit

/-!
# When the latest checkpoint is a consistent cut

The ids of a restarted coordinator start at 1 again, so a later run may write into the directory of
a checkpoint that an earlier run has committed.

* `Consistent`: the states in the latest checkpoint come from one trigger that ran to its commit;
* `NoOverwrite`: no state is saved into the directory that is the latest checkpoint;
* `Stored`: the invariant, the states of the checkpoint in progress are those of its own trigger;
* **`consistent_iff_noOverwrite`**: the latest checkpoint is consistent at every point of a run if
  and only if no step of the run overwrites it.
-/

namespace Flume

open SnapshotStore

/-- The checkpoint that `trigger_and_collect` is taking. -/
def CoordinatorPc.checkpoint? : CoordinatorPc → Option U64
  | sending _ id _ => some id
  | collecting _ id _ => some id
  | committing _ id => some id
  | _ => none

/-- The checkpoint whose acknowledgements are being collected. -/
def CoordinatorPc.collecting? : CoordinatorPc → Option U64
  | collecting _ id _ => some id
  | _ => none

/-- The acknowledgement that arrives. -/
def DeploymentEvent.ack? : DeploymentEvent → Option CheckpointAck
  | .ack a _ => some a
  | _ => none

/-- The acknowledgement that arrives and whose state can be saved. -/
def DeploymentEvent.savedAck? : DeploymentEvent → Option CheckpointAck
  | .ack a true => some a
  | _ => none

namespace Deployment

/-- The state saved last for an operator of checkpoint `id`. -/
def lastSaved (s : Deployment) (id : U64) (name : String) : Option SavedState :=
  s.saves.find? fun r => r.checkpointId = id ∧ r.operatorName = name

/-- If there is a latest checkpoint, the states in it of all expected operators come from
acknowledgements of one trigger that ran to its commit. -/
def Consistent (cfg : CoordinatorConfig) (s : Deployment) : Prop :=
  ∀ c, latestCheckpoint s.fs = some c → ∃ k ∈ s.commits, k.checkpointId = c ∧
    ∀ op ∈ cfg.expectedOperators, ∃ r, s.lastSaved c op = some r ∧ r.trigger = k.trigger ∧
      loadState s.fs c op = .ok r.stateBytes

/-- The step saves no state into the directory of the latest checkpoint. -/
def NoOverwrite (s : Deployment) (ev : DeploymentEvent) : Prop :=
  ∀ ack ∈ ev.savedAck?, s.pc.collecting? = some ack.checkpointId →
    latestCheckpoint s.fs ≠ some ack.checkpointId

instance (s : Deployment) (ev : DeploymentEvent) : Decidable (NoOverwrite s ev) :=
  inferInstanceAs (Decidable (∀ ack ∈ ev.savedAck?, s.pc.collecting? = some ack.checkpointId →
    latestCheckpoint s.fs ≠ some ack.checkpointId))

/-- The operators that acknowledge are expected. -/
def Expected (cfg : CoordinatorConfig) (ev : DeploymentEvent) : Prop :=
  ∀ ack ∈ ev.ack?, ack.operatorName ∈ cfg.expectedOperators

instance (cfg : CoordinatorConfig) (ev : DeploymentEvent) : Decidable (Expected cfg ev) :=
  inferInstanceAs (Decidable (∀ ack ∈ ev.ack?, ack.operatorName ∈ cfg.expectedOperators))

/-! ## The checkpoint in progress -/

variable (cfg : CoordinatorConfig)

/-- The state of `name` in checkpoint `id` was saved by trigger `t`, and can be loaded. -/
def StoredBy (s : Deployment) (t : ℕ) (id : U64) (name : String) : Prop :=
  ∃ r, s.lastSaved id name = some r ∧ r.trigger = t ∧ loadState s.fs id name = .ok r.stateBytes

/-- What the directory and the histories have to do with the checkpoint in progress. -/
structure Stored (s : Deployment) : Prop where
  collected : Collected cfg s
  names : ∀ ack saved, (ack, saved) ∈ s.acks → ack.operatorName ∈ cfg.expectedOperators
  stored : ∀ id, s.pc.checkpoint? = some id → ∀ name ∈ s.savedNames id,
    s.StoredBy s.triggers id name
  commitsLe : ∀ k ∈ s.commits, k.trigger ≤ s.triggers
  commitsLt : s.pc.checkpoint?.isSome → ∀ k ∈ s.commits, k.trigger < s.triggers
  cleaning : Removing cfg s

theorem checkpoint?_collectPc (final : Bool) (id : U64) (received : Finset String) :
    (collectPc cfg final id received).checkpoint? = some id := by
  unfold collectPc; split_ifs <;> rfl

theorem checkpoint?_cleanUpPc (plan : List U64) : (cleanUpPc plan).checkpoint? = none := by
  cases plan <;> rfl

theorem checkpoint?_finishPc (fs : FileSystem) (final : Bool) :
    (finishPc cfg fs final .success).checkpoint? = none := by
  rcases finishPc_success cfg fs final with h | h
  · rw [h]; rfl
  · rw [h]; exact checkpoint?_cleanUpPc _

variable {cfg} {s : Deployment}

theorem Stored.rest (h : Stored cfg s) {pc : CoordinatorPc} (hpc : pc = .stopped ∨ pc = .waiting)
    (next : U64) (acks : List (CheckpointAck × Bool))
    (hacks : ∀ ack saved, (ack, saved) ∈ acks → ack.operatorName ∈ cfg.expectedOperators) :
    Stored cfg { s with pc := pc, nextCheckpointId := next, acks := acks } where
  collected := collected_of_pc (hpc.imp_right .inl)
  names := hacks
  stored id hid := by rcases hpc with rfl | rfl <;> cases hid
  commitsLe := h.commitsLe
  commitsLt hsome := by rcases hpc with rfl | rfl <;> cases hsome
  cleaning plan hplan := by rcases hpc with rfl | rfl <;> cases hplan

theorem lastSaved_cons {r : SavedState} {l : List SavedState} (h : s.saves = r :: l) (id : U64)
    (name : String) : s.lastSaved id name = if r.checkpointId = id ∧ r.operatorName = name then some r
      else l.find? fun r => r.checkpointId = id ∧ r.operatorName = name := by
  unfold lastSaved
  rw [h, List.find?_cons]
  by_cases hc : r.checkpointId = id ∧ r.operatorName = name
  · simp [hc]
  · rw [if_neg hc]; simp [hc]

theorem storedBy_save {s' : Deployment} {id : U64} {ack : CheckpointAck}
    (hfs : s'.fs = saveState s.fs id ack.operatorName ack.stateBytes)
    (hsaves : s'.saves = ⟨s.triggers, id, ack.operatorName, ack.stateBytes⟩ :: s.saves) {t : ℕ}
    {c : U64} {name : String} (hne : ¬ (c = id ∧ name = ack.operatorName)) :
    s'.StoredBy t c name ↔ s.StoredBy t c name := by
  unfold StoredBy
  rw [lastSaved_cons hsaves, if_neg (by simpa [eq_comm] using hne), hfs, loadState_saveState,
    if_neg hne]
  rfl

theorem storedBy_save_self {s' : Deployment} {id : U64} {ack : CheckpointAck}
    (hfs : s'.fs = saveState s.fs id ack.operatorName ack.stateBytes)
    (hsaves : s'.saves = ⟨s.triggers, id, ack.operatorName, ack.stateBytes⟩ :: s.saves) :
    s'.StoredBy s.triggers id ack.operatorName := by
  refine ⟨⟨s.triggers, id, ack.operatorName, ack.stateBytes⟩, ?_, rfl, ?_⟩
  · rw [lastSaved_cons hsaves, if_pos ⟨rfl, rfl⟩]
  · rw [hfs, loadState_saveState, if_pos ⟨rfl, rfl⟩]

theorem Stored.names_concat (h : Stored cfg s) {ack : CheckpointAck}
    (hack : ack.operatorName ∈ cfg.expectedOperators) (saved : Bool) (a : CheckpointAck) (sv : Bool)
    (hmem : (a, sv) ∈ s.acks ++ [(ack, saved)]) : a.operatorName ∈ cfg.expectedOperators := by
  rcases List.mem_append.mp hmem with hmem | hmem
  · exact h.names a sv hmem
  · obtain ⟨rfl, rfl⟩ := Prod.mk.inj (List.mem_singleton.mp hmem)
    exact hack

theorem Stored.step (h : Stored cfg s) (ev : DeploymentEvent) (hev : Expected cfg ev) :
    Stored cfg (s.step cfg ev) := by
  have hcollected := h.collected.step ev
  have hcleaning := h.cleaning.step ev
  have hstep := step_cases cfg s ev
  generalize s.step cfg ev = s' at hstep hcollected hcleaning ⊢
  cases hstep with
  | unchanged => exact h
  | halt _ pc next hpc => exact h.rest hpc next s.acks h.names
  | trigger _ final =>
    refine ⟨hcollected, fun _ _ hmem => absurd hmem List.not_mem_nil, fun id hid name hname => ?_,
      fun k hk => (h.commitsLe k hk).trans (Nat.le_succ _),
      fun _ k hk => Nat.lt_succ_of_le (h.commitsLe k hk), hcleaning⟩
    simp [savedNames, trigger] at hname
  | barrier final id sent hpc =>
    have hsome : s.pc.checkpoint?.isSome := by rw [hpc]; rfl
    refine ⟨hcollected, h.names, fun c hc name hname => ?_, h.commitsLe,
      fun _ => h.commitsLt hsome, hcleaning⟩
    simp [savedNames, h.collected.sending _ _ _ hpc] at hname
  | stale final id received ack saved hpc hne =>
    refine ⟨hcollected, h.names_concat (hev ack rfl) saved, fun c hc name hname => ?_, h.commitsLe,
      h.commitsLt, hcleaning⟩
    have hcid : c = id := by
      change s.pc.checkpoint? = some c at hc
      rw [hpc] at hc
      exact (Option.some.inj hc).symm
    subst hcid
    rw [savedNames_concat s c ack saved _ rfl, if_neg fun hx => hne hx.1] at hname
    exact h.stored c (by rw [hpc]; rfl) name hname
  | saveFailed final id received ack pc hpc hid hpc' =>
    exact h.rest hpc' s.nextCheckpointId _ (h.names_concat (hev ack rfl) false)
  | saved final id received ack hpc hid =>
    have hpc' := checkpoint?_collectPc cfg final id (insert ack.operatorName received)
    have hsome : s.pc.checkpoint?.isSome := by rw [hpc]; rfl
    refine ⟨hcollected, h.names_concat (hev ack rfl) true, fun c hc name hname => ?_, h.commitsLe,
      fun _ => h.commitsLt hsome, hcleaning⟩
    have hcid : c = id := Option.some.inj (hc.symm.trans hpc')
    subst hcid
    rw [savedNames_concat s c ack true _ rfl, if_pos ⟨hid, rfl⟩] at hname
    by_cases hn : name = ack.operatorName
    · subst hn; exact storedBy_save_self (s := s) rfl rfl
    · rw [storedBy_save rfl rfl fun hx => hn hx.2]
      exact h.stored c (by rw [hpc]; rfl) name (Finset.mem_of_mem_insert_of_ne hname hn)
  | committed final id fs' hpc hc =>
    have hpc' := checkpoint?_finishPc cfg fs' final
    refine ⟨hcollected, h.names, fun c hc' => ?_, fun k hk => ?_, fun hsome => ?_, hcleaning⟩
    · exact absurd (hc'.symm.trans hpc') (by simp)
    · rcases List.mem_cons.mp hk with rfl | hk
      · exact le_rfl
      · exact h.commitsLe k hk
    · change (finishPc cfg fs' final .success).checkpoint?.isSome at hsome
      rw [hpc'] at hsome; cases hsome
  | removed id plan hpc =>
    refine ⟨hcollected, h.names, fun c hc => ?_, h.commitsLe, fun hsome => ?_, hcleaning⟩
    · exact absurd (hc.symm.trans (checkpoint?_cleanUpPc plan)) (by simp)
    · change (cleanUpPc plan).checkpoint?.isSome at hsome
      rw [checkpoint?_cleanUpPc] at hsome; cases hsome

theorem stored_init : Stored cfg init where
  collected := collected_of_pc (.inl rfl)
  names _ _ hmem := absurd hmem List.not_mem_nil
  stored _ hid := by cases hid
  commitsLe _ hk := absurd hk List.not_mem_nil
  commitsLt hsome := by cases hsome
  cleaning := removing_init

/-! ## Consistency -/

theorem Stored.complete (h : Stored cfg s) {final : Bool} {id : U64}
    (hpc : s.pc = .committing final id) :
    ∀ op ∈ cfg.expectedOperators, s.StoredBy s.triggers id op := by
  have hcard := h.collected.committing final id hpc
  have hsub : s.savedNames id ⊆ cfg.expectedOperators.toFinset := by
    intro name hname
    obtain ⟨ack, hmem, -, rfl⟩ := mem_savedNames.mp hname
    exact List.mem_toFinset.mpr (h.names ack true hmem)
  have heq : s.savedNames id = cfg.expectedOperators.toFinset :=
    Finset.eq_of_subset_of_card_le hsub (by rw [hcard]; exact List.toFinset_card_le _)
  intro op hop
  refine h.stored id (by rw [hpc]; rfl) op ?_
  rw [heq]; exact List.mem_toFinset.mpr hop

theorem Consistent.frame (hc : Consistent cfg s) {s' : Deployment}
    (hlatest : ∀ c, latestCheckpoint s'.fs = some c → latestCheckpoint s.fs = some c ∧
      ∀ t op, s.StoredBy t c op → s'.StoredBy t c op)
    (hcommits : ∀ k ∈ s.commits, k ∈ s'.commits) : Consistent cfg s' := by
  intro c hl
  obtain ⟨hl', hstored⟩ := hlatest c hl
  obtain ⟨k, hk, hkc, hops⟩ := hc c hl'
  exact ⟨k, hcommits k hk, hkc, fun op hop => hstored k.trigger op (hops op hop)⟩

theorem Consistent.step (hc : Consistent cfg s) (h : Stored cfg s) (ev : DeploymentEvent)
    (hno : NoOverwrite s ev) : Consistent cfg (s.step cfg ev) := by
  have hstep := step_cases cfg s ev
  generalize s.step cfg ev = s' at hstep ⊢
  cases hstep with
  | saved final id received ack hpc hid =>
    have hne : latestCheckpoint s.fs ≠ some id := by
      rw [← hid]; exact hno ack rfl (by rw [hpc, hid]; rfl)
    refine hc.frame (fun c hl => ?_) fun k hk => hk
    rw [latestCheckpoint_saveState] at hl
    have hcid : c ≠ id := by rintro rfl; exact hne hl
    exact ⟨hl, fun t op => (storedBy_save rfl rfl fun hx => hcid hx.1).mpr⟩
  | committed final id fs' hpc hcommit =>
    by_cases hlt : ∃ l, latestCheckpoint s.fs = some l ∧ id ≤ l ∧ l ≠ id
    · -- an older checkpoint with a larger id remains the latest one
      obtain ⟨l, hl, hle, hne⟩ := hlt
      have hl' := latestCheckpoint_commit_of_lt hcommit hl hle
      refine hc.frame (fun c hlc => ?_) fun k hk => List.mem_cons_of_mem _ hk
      obtain rfl : l = c := Option.some.inj (hl'.symm.trans hlc)
      refine ⟨hl, fun t op ⟨r, h1, h2, h3⟩ => ⟨r, h1, h2, ?_⟩⟩
      exact (loadState_commit hcommit).trans h3
    · have hl' : latestCheckpoint fs' = some id := by
        refine latestCheckpoint_commit_of_le hcommit fun l hl => ?_
        by_contra hgt
        exact hlt ⟨l, hl, (not_le.mp hgt).le, (not_le.mp hgt).ne'⟩
      intro c hlc
      obtain rfl : id = c := Option.some.inj (hl'.symm.trans hlc)
      refine ⟨⟨s.triggers, id⟩, List.mem_cons_self, rfl, fun op hop => ?_⟩
      obtain ⟨r, h1, h2, h3⟩ := h.complete hpc op hop
      exact ⟨r, h1, h2, (loadState_commit hcommit).trans h3⟩
  | removed id plan hpc =>
    refine hc.frame (fun c hl => ?_) fun k hk => hk
    obtain ⟨hl', hne⟩ := (h.cleaning _ hpc).latestCheckpoint_erase hl
    refine ⟨hl', fun t op ⟨r, h1, h2, h3⟩ => ⟨r, h1, h2, ?_⟩⟩
    exact (loadState_erase_of_ne hne.symm).trans h3
  | _ => exact hc.frame (fun c hl => ⟨hl, fun t op hst => hst⟩) fun k hk => hk

theorem step_ack {final : Bool} {id : U64} {received : Finset String} {ack : CheckpointAck}
    (hpc : s.pc = .collecting final id received) (hid : ack.checkpointId = id) :
    s.step cfg (.ack ack true) = { s with
      acks := s.acks ++ [(ack, true)]
      fs := saveState s.fs id ack.operatorName ack.stateBytes
      saves := ⟨s.triggers, id, ack.operatorName, ack.stateBytes⟩ :: s.saves
      pc := collectPc cfg final id (insert ack.operatorName received) } := by
  unfold step receiveAck
  simp only [hpc, hid, if_true]

theorem overwrite_cases {ev : DeploymentEvent} (hno : ¬ NoOverwrite s ev) :
    ∃ ack, ev = .ack ack true ∧ ∃ final received,
      s.pc = .collecting final ack.checkpointId received ∧
        latestCheckpoint s.fs = some ack.checkpointId := by
  unfold NoOverwrite at hno
  push Not at hno
  obtain ⟨ack, hack, hpc, hl⟩ := hno
  have hev : ev = .ack ack true := by
    match ev, hack with
    | .ack _ true, hack => rw [Option.some.inj hack]
  refine ⟨ack, hev, ?_⟩
  cases h : s.pc with
  | collecting final id received =>
    rw [h] at hpc
    rw [Option.some.inj hpc]
    exact ⟨final, received, rfl, hl⟩
  | _ => rw [h] at hpc; cases hpc

theorem not_consistent_of_overwrite (h : Stored cfg s) {ev : DeploymentEvent}
    (hev : Expected cfg ev) (hno : ¬ NoOverwrite s ev) : ¬ Consistent cfg (s.step cfg ev) := by
  obtain ⟨ack, rfl, final, received, hpc, hl⟩ := overwrite_cases hno
  rw [step_ack hpc rfl]
  intro hc
  obtain ⟨k, hk, -, hops⟩ := hc ack.checkpointId (by rw [latestCheckpoint_saveState]; exact hl)
  obtain ⟨r, hr, htrigger, -⟩ := hops ack.operatorName (hev ack rfl)
  have hlt : k.trigger < s.triggers := h.commitsLt (by rw [hpc]; rfl) k hk
  rw [lastSaved_cons rfl, if_pos ⟨rfl, rfl⟩] at hr
  obtain rfl := Option.some.inj hr
  exact absurd htrigger hlt.ne'

/-! ## The result -/

/-- **When the latest checkpoint is a consistent cut**, across restarts and crashes: if no state is
saved into the checkpoint that `latest_checkpoint` finds. -/
theorem consistent_iff_noOverwrite (es : List DeploymentEvent)
    (hes : ∀ ev ∈ es, Expected cfg ev) :
    (∀ pre, pre <+: es → Consistent cfg (run cfg pre)) ↔
      Runs.Along (step cfg) NoOverwrite init es :=
  Runs.forall_prefix_iff_along (I := Stored cfg) (P := Consistent cfg) (A := Expected cfg)
    (fun _ ev hev h _ _ => h.step ev hev)
    (fun _ ev _ h hc hno => hc.step h ev hno)
    (fun _ _ hev h _ hno => not_consistent_of_overwrite h hev hno) stored_init
    (fun c hl => by cases hl) hes

/-- A process commits checkpoint 1 and crashes; the next one starts checkpoint 1 again and crashes
after the first acknowledgement. -/
def overwritingRun : List DeploymentEvent :=
  [.start, .tick, .barrier true, .ack ⟨1, "op_a", [1]⟩ true, .ack ⟨1, "op_b", [1]⟩ true,
    .commit true, .crash, .start, .tick, .barrier true, .ack ⟨1, "op_a", [2]⟩ true, .crash]

/-- The latest checkpoint holds the states of two different triggers. -/
theorem overwritingRun_inconsistent : (∀ ev ∈ overwritingRun, Expected twoOperators ev) ∧
    ¬ Consistent twoOperators (run twoOperators overwritingRun) := by
  refine ⟨by decide +kernel, fun hc => ?_⟩
  obtain ⟨k, -, -, hops⟩ := hc 1 (by decide +kernel)
  obtain ⟨ra, ha, hta, -⟩ := hops "op_a" (by decide)
  obtain ⟨rb, hb, htb, -⟩ := hops "op_b" (by decide)
  have ha' : (run twoOperators overwritingRun).lastSaved 1 "op_a" = some ⟨2, 1, "op_a", [2]⟩ := by
    decide +kernel
  have hb' : (run twoOperators overwritingRun).lastSaved 1 "op_b" = some ⟨1, 1, "op_b", [1]⟩ := by
    decide +kernel
  obtain rfl := Option.some.inj (ha.symm.trans ha')
  obtain rfl := Option.some.inj (hb.symm.trans hb')
  exact absurd (hta.trans htb.symm) (by decide)

/-- A process that crashes before it commits again leaves the checkpoint of the previous one. -/
theorem crashingRun_consistent : Consistent twoOperators (run twoOperators
    [.start, .tick, .barrier true, .ack ⟨1, "op_a", [1]⟩ true, .ack ⟨1, "op_b", [1]⟩ true,
      .commit true, .tick, .barrier true, .ack ⟨2, "op_a", [2]⟩ true, .crash, .start]) :=
  (consistent_iff_noOverwrite _ (by decide +kernel)).mpr (by decide +kernel) _
    List.prefix_rfl

end Deployment

end Flume
