import Flume.Core.WindowOperator

/-!
# What becomes of a trigger's decisions

By its documentation a trigger decides at every element and at every watermark when a window's
result is computed. The operator asks it at watermarks only: it first collects the decisions for all
windows, then fires, then purges.

* `heed`, `referenceRecord`, `referenceWatermark`: the reference, which asks the trigger about one
  window after the other and does at once what it decides;
* `decisions`, **`watermark_loop`**: collecting the decisions first makes no difference;
* `elementAnswers`, **`record_quiet`**: what the reference does if the trigger lets all elements
  pass; **`record_noticed`**: otherwise it does something else than the operator;
* `Unnoticed`: a step at which it makes no difference that the trigger is not asked about elements;
* **`run_obeysTrigger`**: in a run of such steps the operator does what the reference does.
-/

namespace Flume

open Fallible Entries

namespace WindowOperator

variable {σ In Acc Out C : Type}

/-! ## The reference -/

/-- Asks the trigger about a window. -/
def consult (ask : Trigger σ → σ → EventTimestamp → Window → TriggerResult × σ)
    (time : EventTimestamp) (window : Window) : Call σ In Acc Out C TriggerResult := do
  let s ← get
  let answer := ask s.1.trigger s.1.triggerState time window
  set ({ s.1 with triggerState := answer.2 }, s.2)
  return answer.1

/-- Does what the trigger has decided about a key and window: fire and keep the contents, discard
them, both, or nothing. -/
def heed (collector : Collector C Out) (wk : WindowKey) : TriggerResult → Call σ In Acc Out C Unit
  | .continue => pure ()
  | .fire => fire collector wk
  | .purge => modify fun s => (s.1.purge wk, s.2)
  | .fireAndPurge => do
    fire collector wk
    modify fun s => (s.1.purge wk, s.2)

/-- Asks the trigger about a key and window, and does what it decides. -/
def consultAndHeed (collector : Collector C Out)
    (ask : Trigger σ → σ → EventTimestamp → Window → TriggerResult × σ) (time : EventTimestamp)
    (wk : WindowKey) : Call σ In Acc Out C Unit := do
  let result ← consult ask time wk.window
  heed collector wk result

/-- Adds a record to one of its windows, and asks the trigger about it. -/
def referenceElement (collector : Collector C Out) (record : Record In) (window : Window) :
    Call σ In Acc Out C Unit := do
  modify fun s => (s.1.addTo ⟨record.key.getD [], window⟩ record.value, s.2)
  consultAndHeed collector Trigger.onElement record.timestamp ⟨record.key.getD [], window⟩

/-- Adds a record to one of its windows after the other. -/
def referenceRecord (collector : Collector C Out) (record : Record In) :
    Call σ In Acc Out C Unit := do
  let s ← get
  let windows ← checked (s.1.assigner record.timestamp)
  windows.forM (referenceElement collector record)

/-- Asks the trigger about every live key and window. -/
def referenceWatermark (collector : Collector C Out) (watermark : Watermark)
    (iter : IterOrder WindowKey) : Call σ In Acc Out C Unit := do
  let s ← get
  (iter.order s.1.accumulators.keys).forM
    (consultAndHeed collector Trigger.onEventTime watermark.timestamp)
  onCollector (collector.collectWatermark watermark)

/-- The reference for one element of the input. -/
def reference (collector : Collector C Out) : Input In → Call σ In Acc Out C Unit
  | .record r => referenceRecord collector r
  | .watermark w iter => referenceWatermark collector w iter
  | .barrier b => processBarrier collector b

/-- The reference for a sequence of elements, until one fails. -/
def referenceRun (collector : Collector C Out) (inputs : List (Input In)) :
    Call σ In Acc Out C Unit := inputs.forM (reference collector)

/-! ## The decisions -/

/-- What a trigger decides about keys and windows at a watermark, asked about one after the
other. -/
def decisions (trigger : Trigger σ) (watermark : EventTimestamp) :
    σ → List WindowKey → List (WindowKey × TriggerResult)
  | _, [] => []
  | state, wk :: wks =>
    (wk, (trigger.onEventTime state watermark wk.window).1) ::
      decisions trigger watermark (trigger.onEventTime state watermark wk.window).2 wks

/-- What a trigger decides about windows that an element was added to. -/
def elementAnswers (trigger : Trigger σ) (timestamp : EventTimestamp) :
    σ → List Window → List TriggerResult
  | _, [] => []
  | state, window :: windows =>
    (trigger.onElement state timestamp window).1 ::
      elementAnswers trigger timestamp (trigger.onElement state timestamp window).2 windows

end WindowOperator

/-- The window is to be fired. -/
def TriggerResult.fires : TriggerResult → Bool
  | fire | fireAndPurge => true
  | _ => false

/-- The window is to be purged. -/
def TriggerResult.purges : TriggerResult → Bool
  | purge | fireAndPurge => true
  | _ => false

namespace WindowOperator

variable {σ In Acc Out C : Type}

/-- The keys and windows with a decision of some kind. -/
def decided (kind : TriggerResult → Bool) (ds : List (WindowKey × TriggerResult)) :
    List WindowKey := (ds.filter fun d => kind d.2).map Prod.fst

theorem decided_cons (kind : TriggerResult → Bool) (d : WindowKey × TriggerResult)
    (ds : List (WindowKey × TriggerResult)) : decided kind (d :: ds) =
      if kind d.2 then d.1 :: decided kind ds else decided kind ds := by
  unfold decided
  rw [List.filter_cons]
  split_ifs <;> rfl

theorem decided_append (kind : TriggerResult → Bool) (ds ds' : List (WindowKey × TriggerResult)) :
    decided kind (ds ++ ds') = decided kind ds ++ decided kind ds' := by
  unfold decided
  rw [List.filter_append, List.map_append]

theorem foldl_decided {trigger : Trigger σ} {watermark : EventTimestamp}
    {step : σ × List WindowKey × List WindowKey → WindowKey → σ × List WindowKey × List WindowKey}
    (hstep : ∀ state toFire toPurge wk, step (state, toFire, toPurge) wk =
      ((trigger.onEventTime state watermark wk.window).2,
        toFire ++ decided TriggerResult.fires
          [(wk, (trigger.onEventTime state watermark wk.window).1)],
        toPurge ++ decided TriggerResult.purges
          [(wk, (trigger.onEventTime state watermark wk.window).1)]))
    (wks : List WindowKey) (state : σ) (toFire toPurge : List WindowKey) :
    (wks.foldl step (state, toFire, toPurge)).2 =
      (toFire ++ decided TriggerResult.fires (decisions trigger watermark state wks),
        toPurge ++ decided TriggerResult.purges (decisions trigger watermark state wks)) := by
  induction wks generalizing state toFire toPurge with
  | nil => exact Prod.ext (List.append_nil toFire).symm (List.append_nil toPurge).symm
  | cons wk wks ih =>
    rw [List.foldl_cons, hstep, ih, decisions, List.append_assoc, List.append_assoc]
    rw [← decided_append, ← decided_append]
    rfl

/-- **What the operator collects** are the decisions. -/
theorem evaluate_eq (op : WindowOperator σ In Acc Out) (watermark : EventTimestamp)
    (wks : List WindowKey) : (op.evaluate watermark wks).2 =
      (decided TriggerResult.fires (decisions op.trigger watermark op.triggerState wks),
        decided TriggerResult.purges (decisions op.trigger watermark op.triggerState wks)) := by
  unfold evaluate
  refine foldl_decided (fun state toFire toPurge wk => ?_) wks op.triggerState [] []
  dsimp only
  rcases op.trigger.onEventTime state watermark wk.window with ⟨result, state'⟩
  cases result <;> simp [decided, TriggerResult.fires, TriggerResult.purges]

/-! ## Firing and purging -/

theorem runOn_onCollector {O : Type} (x : Fallible FlumeError C Unit) (o : O) (c : C) :
    (onCollector x : Fallible Failure (O × C) Unit).runOn (o, c) =
      ((x.runOn c).1.mapError Failure.error, (o, (x.runOn c).2)) := by
  unfold onCollector
  rw [runOn_bind_ok runOn_get, runOn_bind_ok runOn_set]
  cases (x.runOn c).1 <;> rfl

theorem runOn_fire (collector : Collector C Out) {op op' : WindowOperator σ In Acc Out}
    {wk : WindowKey} (c : C) (haggregate : op'.aggregate = op.aggregate)
    (hlookup : op'.accumulators.lookup wk = op.accumulators.lookup wk) :
    ∃ r c', (fire collector wk).runOn (op, c) = (r, (op, c')) ∧
      (fire collector wk).runOn (op', c) = (r, (op', c')) := by
  unfold fire
  rw [runOn_bind_ok runOn_get, runOn_bind_ok runOn_get, hlookup, haggregate]
  cases op.accumulators.lookup wk with
  | none => exact ⟨.ok (), c, rfl, rfl⟩
  | some acc =>
    cases wk.window.stop.checkedSub 1 with
    | error p => exact ⟨.error (.panic p), c, rfl, rfl⟩
    | ok timestamp => exact ⟨_, _, runOn_onCollector _ op c, runOn_onCollector _ op' c⟩

theorem accumulators_purge (op : WindowOperator σ In Acc Out) (wk : WindowKey) :
    (op.purge wk).accumulators = op.accumulators.erase wk := by
  unfold purge
  split_ifs with hmem
  · rw [poolPut_eq]
    rfl
  · exact (AList.ext (List.kerase_of_notMem_keys hmem)).symm

theorem accumulators_foldl_purge (op : WindowOperator σ In Acc Out) (wks : List WindowKey) :
    (wks.foldl purge op).accumulators = wks.foldl (fun m wk => m.erase wk) op.accumulators := by
  induction wks generalizing op with
  | nil => rfl
  | cons wk wks ih =>
    rw [List.foldl_cons, ih, accumulators_purge]
    rfl

theorem runOn_consultAndHeed (collector : Collector C Out)
    (ask : Trigger σ → σ → EventTimestamp → Window → TriggerResult × σ) (time : EventTimestamp)
    (wk : WindowKey) (t : WindowOperator σ In Acc Out) (c : C) :
    (consultAndHeed collector ask time wk).runOn (t, c) =
      (heed collector wk (ask t.trigger t.triggerState time wk.window).1).runOn
        ({ t with triggerState := (ask t.trigger t.triggerState time wk.window).2 }, c) := by
  have hconsult : (consult ask time wk.window : Call σ In Acc Out C TriggerResult).runOn (t, c) =
      (.ok (ask t.trigger t.triggerState time wk.window).1,
        ({ t with triggerState := (ask t.trigger t.triggerState time wk.window).2 }, c)) := rfl
  exact runOn_bind_ok hconsult _

theorem triggerState_purge (op : WindowOperator σ In Acc Out) (wk : WindowKey) :
    (op.purge wk).triggerState = op.triggerState := by
  unfold purge
  split_ifs
  · rw [poolPut_eq]
    rfl
  · rfl

theorem runOn_heed (collector : Collector C Out) {op t : WindowOperator σ In Acc Out}
    {wk : WindowKey} (result : TriggerResult) (c : C) (hconfig : SameConfig op t)
    (hlookup : t.accumulators.lookup wk = op.accumulators.lookup wk) :
    ∃ r c' t', (if result.fires then fire collector wk else pure ()).runOn (op, c) = (r, (op, c')) ∧
      (heed collector wk result).runOn (t, c) = (r, (t', c')) ∧
      (r = .ok () → SameConfig op t' ∧ t'.triggerState = t.triggerState ∧
        t'.accumulators = if result.purges then t.accumulators.erase wk else t.accumulators) := by
  obtain ⟨r, c', hop, ht⟩ := runOn_fire collector c hconfig.2.2 hlookup
  have hpurged : SameConfig op (t.purge wk) ∧ (t.purge wk).triggerState = t.triggerState ∧
      (t.purge wk).accumulators = t.accumulators.erase wk :=
    ⟨hconfig.trans (t.purge_spec wk).1, t.triggerState_purge wk, t.accumulators_purge wk⟩
  cases result with
  | «continue» => exact ⟨.ok (), c, t, rfl, rfl, fun _ => ⟨hconfig, rfl, rfl⟩⟩
  | fire => exact ⟨r, c', t, hop, ht, fun _ => ⟨hconfig, rfl, rfl⟩⟩
  | purge => exact ⟨.ok (), c, t.purge wk, rfl, rfl, fun _ => hpurged⟩
  | fireAndPurge =>
    cases r with
    | error e => exact ⟨.error e, c', t, hop, runOn_bind_error ht _, nofun⟩
    | ok _ => exact ⟨.ok (), c', t.purge wk, hop, runOn_bind_ok ht _, fun _ => hpurged⟩

/-- The second state has the accumulators and the collector of the first. -/
structure SameContents (s t : WindowOperator σ In Acc Out × C) : Prop where
  config : SameConfig s.1 t.1
  accumulators : t.1.accumulators = s.1.accumulators
  collector : t.2 = s.2

/-- **Collecting the decisions first makes no difference:** to do at once what the trigger decides
is to fire all windows and then to purge. -/
theorem watermark_loop (collector : Collector C Out) (watermark : EventTimestamp)
    {wks : List WindowKey} (hnodup : wks.Nodup) (op : WindowOperator σ In Acc Out)
    (t : WindowOperator σ In Acc Out) (c : C) (hconfig : SameConfig op t)
    (hlookup : ∀ wk ∈ wks, t.accumulators.lookup wk = op.accumulators.lookup wk) :
    ∃ r c' t', ((decided TriggerResult.fires
        (decisions op.trigger watermark t.triggerState wks)).forM (fire collector)).runOn (op, c) =
          (r, (op, c')) ∧
      (wks.forM (consultAndHeed collector Trigger.onEventTime watermark)).runOn (t, c) =
        (r, (t', c')) ∧
      (r = .ok () → SameConfig op t' ∧ t'.accumulators =
        (decided TriggerResult.purges (decisions op.trigger watermark t.triggerState wks)).foldl
          (fun m wk => m.erase wk) t.accumulators) := by
  induction wks generalizing t c with
  | nil => exact ⟨.ok (), c, t, rfl, rfl, fun _ => ⟨hconfig, rfl⟩⟩
  | cons wk wks ih =>
    obtain ⟨hwk, hnodup⟩ := List.nodup_cons.mp hnodup
    rw [runOn_forM_cons, decisions, decided_cons, decided_cons]
    dsimp only
    have hconsult : (consultAndHeed collector Trigger.onEventTime watermark wk).runOn (t, c) =
        (heed collector wk (op.trigger.onEventTime t.triggerState watermark wk.window).1).runOn
          ({ t with
            triggerState := (op.trigger.onEventTime t.triggerState watermark wk.window).2 }, c) := by
      rw [← hconfig.2.1]
      exact runOn_consultAndHeed collector Trigger.onEventTime watermark wk t c
    obtain ⟨r, c₁, t₁, hfire, hheed, hafter⟩ := runOn_heed collector
      (t := { t with
        triggerState := (op.trigger.onEventTime t.triggerState watermark wk.window).2 })
      (op.trigger.onEventTime t.triggerState watermark wk.window).1 c hconfig
      (hlookup wk List.mem_cons_self)
    have hfires : ∀ rest : List WindowKey,
        ((if (op.trigger.onEventTime t.triggerState watermark wk.window).1.fires then wk :: rest
          else rest).forM (fire collector)).runOn (op, c) =
        ((if (op.trigger.onEventTime t.triggerState watermark wk.window).1.fires then
          fire collector wk else pure ()) >>= fun _ => rest.forM (fire collector)).runOn (op, c) := by
      intro rest
      split_ifs <;> rfl
    rw [hfires]
    cases r with
    | error e =>
      exact ⟨.error e, c₁, t₁, runOn_bind_error hfire _,
        runOn_bind_error (hconsult.trans hheed) _, nofun⟩
    | ok _ =>
      obtain ⟨hconfig₁, hstate, haccs⟩ := hafter rfl
      have hlookup₁ : ∀ wk' ∈ wks, t₁.accumulators.lookup wk' = op.accumulators.lookup wk' := by
        intro wk' hwk'
        have hne : wk' ≠ wk := fun heq => hwk (heq ▸ hwk')
        rw [haccs, ← hlookup wk' (List.mem_cons_of_mem wk hwk')]
        split_ifs
        · exact AList.lookup_erase_ne hne
        · rfl
      obtain ⟨r, c', t', hfires', hloop, hdone⟩ := ih hnodup t₁ c₁ hconfig₁ hlookup₁
      rw [hstate] at hfires' hdone
      refine ⟨r, c', t', (runOn_bind_ok hfire _).trans hfires',
        (runOn_bind_ok (hconsult.trans hheed) _).trans hloop, fun hr => ?_⟩
      obtain ⟨hconfig', haccs'⟩ := hdone hr
      refine ⟨hconfig', haccs'.trans ?_⟩
      rw [haccs]
      split_ifs <;> rfl

theorem SameConfig.symm {op op' : WindowOperator σ In Acc Out} (h : SameConfig op op') :
    SameConfig op' op := ⟨h.1.symm, h.2.1.symm, h.2.2.symm⟩

section Watermark

variable {collector : Collector C Out} {watermark : Watermark} {iter : IterOrder WindowKey}
  {op : WindowOperator σ In Acc Out} {c c₁ : C} {e : Failure}

/-- The state in which the operator fires the windows. -/
def evaluated (op : WindowOperator σ In Acc Out) (watermark : EventTimestamp)
    (wks : List WindowKey) : WindowOperator σ In Acc Out :=
  { op with triggerState := (op.evaluate watermark wks).1 }

theorem processWatermark_error
    (hfire : ((decided TriggerResult.fires (decisions op.trigger watermark.timestamp
        op.triggerState (iter.order op.accumulators.keys))).forM (fire collector)).runOn
          (op.evaluated watermark.timestamp (iter.order op.accumulators.keys), c) =
      (.error e, (op.evaluated watermark.timestamp (iter.order op.accumulators.keys), c₁))) :
    (processWatermark collector watermark iter).runOn (op, c) =
      (.error e, (op.evaluated watermark.timestamp (iter.order op.accumulators.keys), c₁)) := by
  have hfires : (op.evaluate watermark.timestamp (iter.order op.accumulators.keys)).2.1 = _ :=
    congrArg Prod.fst (op.evaluate_eq watermark.timestamp (iter.order op.accumulators.keys))
  dsimp only at hfires
  rw [← hfires] at hfire
  exact (runOn_bind_ok runOn_get _).trans
    ((runOn_bind_ok runOn_set _).trans (runOn_bind_error hfire _))

theorem processWatermark_ok
    (hfire : ((decided TriggerResult.fires (decisions op.trigger watermark.timestamp
        op.triggerState (iter.order op.accumulators.keys))).forM (fire collector)).runOn
          (op.evaluated watermark.timestamp (iter.order op.accumulators.keys), c) =
      (.ok (), (op.evaluated watermark.timestamp (iter.order op.accumulators.keys), c₁))) :
    ∃ op₁, (processWatermark collector watermark iter).runOn (op, c) =
        (((collector.collectWatermark watermark).runOn c₁).1.mapError Failure.error,
          (op₁, ((collector.collectWatermark watermark).runOn c₁).2)) ∧
      SameConfig op op₁ ∧ op₁.accumulators =
        (decided TriggerResult.purges (decisions op.trigger watermark.timestamp op.triggerState
          (iter.order op.accumulators.keys))).foldl (fun m wk => m.erase wk) op.accumulators := by
  have hevaluate := op.evaluate_eq watermark.timestamp (iter.order op.accumulators.keys)
  have hfires : (op.evaluate watermark.timestamp (iter.order op.accumulators.keys)).2.1 = _ :=
    congrArg Prod.fst hevaluate
  have hpurges : (op.evaluate watermark.timestamp (iter.order op.accumulators.keys)).2.2 = _ :=
    congrArg Prod.snd hevaluate
  dsimp only at hfires hpurges
  rw [← hfires] at hfire
  rw [← hpurges]
  refine ⟨_, (runOn_bind_ok runOn_get _).trans ((runOn_bind_ok runOn_set _).trans
    ((runOn_bind_ok hfire _).trans ((runOn_bind_ok (runOn_modify _) _).trans
      (runOn_onCollector _ _ c₁)))), ?_, ?_⟩
  · exact (foldl_purge_spec (op.evaluated watermark.timestamp
      (iter.order op.accumulators.keys)) _).1
  · exact accumulators_foldl_purge _ _

end Watermark

/-- **At a watermark** the operator does what the reference does, if the trigger gives both the same
answers. -/
theorem watermark_agrees (collector : Collector C Out) (watermark : Watermark)
    (iter : IterOrder WindowKey) {s t : WindowOperator σ In Acc Out × C} (h : SameContents s t)
    (hanswers : decisions s.1.trigger watermark.timestamp t.1.triggerState
        (iter.order s.1.accumulators.keys) =
      decisions s.1.trigger watermark.timestamp s.1.triggerState
        (iter.order s.1.accumulators.keys)) :
    ∃ r s' t', (processWatermark collector watermark iter).runOn s = (r, s') ∧
      (referenceWatermark collector watermark iter).runOn t = (r, t') ∧ t'.2 = s'.2 ∧
      (r = .ok () → SameConfig s.1 s'.1 ∧ SameContents s' t') := by
  obtain ⟨op, c⟩ := s
  obtain ⟨op', c'⟩ := t
  obtain ⟨hconfig, haccs, rfl⟩ := h
  dsimp only at hconfig haccs hanswers
  have hnodup : (iter.order op.accumulators.keys).Nodup :=
    (iter.perm _).nodup_iff.mpr op.accumulators.nodupKeys
  obtain ⟨r, c₁, t₁, hfire, hloop, hdone⟩ := watermark_loop collector watermark.timestamp hnodup
    (op.evaluated watermark.timestamp (iter.order op.accumulators.keys)) op' c' hconfig
    (fun wk _ => by rw [haccs]; rfl)
  dsimp only [evaluated] at hfire hdone
  rw [hanswers] at hfire hdone
  rw [← haccs] at hloop
  cases r with
  | error e =>
    have hreference : (referenceWatermark collector watermark iter).runOn (op', c') =
        (.error e, (t₁, c₁)) := (runOn_bind_ok runOn_get _).trans (runOn_bind_error hloop _)
    exact ⟨.error e, _, _, processWatermark_error hfire, hreference, rfl, nofun⟩
  | ok _ =>
    obtain ⟨hconfig₁, haccs₁⟩ := hdone rfl
    obtain ⟨op₁, hcode, hconfig₂, haccs₂⟩ := processWatermark_ok hfire
    have hreference : (referenceWatermark collector watermark iter).runOn (op', c') =
        (((collector.collectWatermark watermark).runOn c₁).1.mapError Failure.error,
          (t₁, ((collector.collectWatermark watermark).runOn c₁).2)) :=
      (runOn_bind_ok runOn_get _).trans ((runOn_bind_ok hloop _).trans
        (runOn_onCollector _ t₁ c₁))
    refine ⟨_, _, _, hcode, hreference, rfl, fun _ => ⟨hconfig₂, ?_, ?_, rfl⟩⟩
    · exact hconfig₂.symm.trans hconfig₁
    · exact haccs₁.trans (haccs ▸ haccs₂.symm)

/-! ## Elements -/

theorem runOn_referenceElement (collector : Collector C Out) (record : Record In)
    (window : Window) (t : WindowOperator σ In Acc Out) (c : C) :
    (referenceElement collector record window).runOn (t, c) =
      (heed collector ⟨record.key.getD [], window⟩
        (t.trigger.onElement t.triggerState record.timestamp window).1).runOn
        ({ t.addTo ⟨record.key.getD [], window⟩ record.value with
          triggerState := (t.trigger.onElement t.triggerState record.timestamp window).2 }, c) :=
  (runOn_bind_ok (runOn_modify _) _).trans
    (runOn_consultAndHeed collector Trigger.onElement record.timestamp
      ⟨record.key.getD [], window⟩ (t.addTo ⟨record.key.getD [], window⟩ record.value) c)

theorem windows_quiet (collector : Collector C Out) (record : Record In) {windows : List Window}
    (t : WindowOperator σ In Acc Out) (c : C)
    (h : ∀ answer ∈ elementAnswers t.trigger record.timestamp t.triggerState windows,
      answer = .continue) :
    ∃ t', (windows.forM (referenceElement collector record)).runOn (t, c) = (.ok (), (t', c)) ∧
      SameConfig t t' ∧ t'.accumulators = upsertAll t.accumulators
        (windows.map (WindowKey.mk (record.key.getD []))) t.aggregate.createAccumulator
        fun acc => t.aggregate.add acc record.value := by
  induction windows generalizing t with
  | nil => exact ⟨t, rfl, ⟨rfl, rfl, rfl⟩, rfl⟩
  | cons window windows ih =>
    rw [elementAnswers, List.forall_mem_cons] at h
    obtain ⟨t', hrest, hconfig, haccs⟩ := ih
      { t.addTo ⟨record.key.getD [], window⟩ record.value with
        triggerState := (t.trigger.onElement t.triggerState record.timestamp window).2 } h.2
    have hhead := runOn_referenceElement collector record window t c
    rw [h.1] at hhead
    exact ⟨t', (runOn_bind_ok hhead _).trans hrest, hconfig, haccs⟩

theorem runOn_processRecord (record : Record In) {windows : List Window}
    (op : WindowOperator σ In Acc Out) (c : C)
    (hwindows : op.assigner record.timestamp = .ok windows) :
    ∃ op', (processRecord record).runOn (op, c) = (.ok (), (op', c)) ∧ SameConfig op op' ∧
      op'.accumulators = upsertAll op.accumulators
        (windows.map (WindowKey.mk (record.key.getD []))) op.aggregate.createAccumulator
        fun acc => op.aggregate.add acc record.value := by
  have htaken := op.takeKey_snd record
  have hchecked : (checked ((op.takeKey record).2.assigner record.timestamp) :
      Call σ In Acc Out C (List Window)).runOn (op, c) = (.ok windows, (op, c)) := by
    rw [htaken]
    change (checked (op.assigner record.timestamp) : Call σ In Acc Out C _).runOn _ = _
    rw [hwindows]
    rfl
  obtain ⟨hconfig, haccs⟩ := (op.takeKey record).2.foldl_addTo_spec (op.takeKey record).1
    record.value windows
  refine ⟨_, (runOn_bind_ok runOn_get _).trans ((runOn_bind_ok hchecked _).trans runOn_set), ?_, ?_⟩
  · refine SameConfig.trans ?_ hconfig
    rw [htaken]
    exact ⟨rfl, rfl, rfl⟩
  · dsimp only
    rw [haccs, takeKey_fst, htaken]
    rfl

theorem runOn_referenceRecord (collector : Collector C Out) (record : Record In)
    {windows : List Window} (t : WindowOperator σ In Acc Out) (c : C)
    (hwindows : t.assigner record.timestamp = .ok windows) :
    (referenceRecord collector record).runOn (t, c) =
      (windows.forM (referenceElement collector record)).runOn (t, c) := by
  have hchecked : (checked (t.assigner record.timestamp) :
      Call σ In Acc Out C (List Window)).runOn (t, c) = (.ok windows, (t, c)) := by
    rw [hwindows]
    rfl
  exact (runOn_bind_ok runOn_get _).trans (runOn_bind_ok hchecked _)

/-- **At a record** that the trigger lets pass, the operator does what the reference does. -/
theorem record_quiet (collector : Collector C Out) (record : Record In)
    {s t : WindowOperator σ In Acc Out × C} (h : SameContents s t)
    (hquiet : ∀ windows, s.1.assigner record.timestamp = .ok windows →
      ∀ answer ∈ elementAnswers s.1.trigger record.timestamp t.1.triggerState windows,
        answer = .continue) :
    ∃ r s' t', (processRecord record).runOn s = (r, s') ∧
      (referenceRecord collector record).runOn t = (r, t') ∧ t'.2 = s'.2 ∧
      (r = .ok () → SameConfig s.1 s'.1 ∧ SameContents s' t') := by
  obtain ⟨op, c⟩ := s
  obtain ⟨op', c'⟩ := t
  obtain ⟨hconfig, haccs, rfl⟩ := h
  dsimp only at hconfig haccs hquiet
  cases hwindows : op.assigner record.timestamp with
  | error p =>
    have hassigner : (op.takeKey record).2.assigner = op.assigner := by
      rw [op.takeKey_snd]
      rfl
    refine ⟨.error (.panic p), (op, c'), (op', c'), ?_, ?_, rfl, nofun⟩
    · refine (runOn_bind_ok runOn_get _).trans (runOn_bind_error ?_ _)
      rw [hassigner, hwindows]
      rfl
    · refine (runOn_bind_ok runOn_get _).trans (runOn_bind_error ?_ _)
      rw [hconfig.1, hwindows]
      rfl
  | ok windows =>
    obtain ⟨op₁, hcode, hconfig₁, haccs₁⟩ := runOn_processRecord record op c' hwindows
    obtain ⟨t₁, hloop, hconfig₂, haccs₂⟩ := windows_quiet collector record op' c'
      (by rw [hconfig.2.1]; exact hquiet windows hwindows)
    have hreference := (runOn_referenceRecord collector record op' c'
      (hconfig.1 ▸ hwindows)).trans hloop
    refine ⟨.ok (), _, _, hcode, hreference, rfl, fun _ => ⟨hconfig₁, ?_, ?_, rfl⟩⟩
    · exact hconfig₁.symm.trans (hconfig.trans hconfig₂)
    · dsimp only
      rw [haccs₂, haccs₁, haccs, hconfig.2.2]

theorem runOn_fire_ok {op op' : WindowOperator σ In Acc Out} {wk : WindowKey}
    {es es' : List (StreamElement Out)} (hlive : op.accumulators.lookup wk ≠ none)
    (h : (fire (TestCollector Out) wk).runOn (op, es) = (.ok (), (op', es'))) :
    op' = op ∧ ∃ r, es' = es ++ [.record r] := by
  obtain ⟨acc, hacc⟩ := Option.ne_none_iff_exists'.mp hlive
  unfold fire at h
  rw [runOn_bind_ok runOn_get, hacc] at h
  dsimp only at h
  cases hstop : wk.window.stop.checkedSub 1 with
  | error p =>
    rw [hstop] at h
    cases h
  | ok timestamp =>
    rw [hstop] at h
    cases h
    exact ⟨rfl, _, rfl⟩

/-- What heeding a decision about a live window does shows what it was. -/
theorem heed_noticed {added t' : WindowOperator σ In Acc Out} {wk : WindowKey}
    {answer : TriggerResult} {es es' : List (StreamElement Out)}
    (h : (heed (TestCollector Out) wk answer).runOn (added, es) = (.ok (), (t', es')))
    (hlive : added.accumulators.lookup wk ≠ none) :
    t'.trigger = added.trigger ∧ t'.triggerState = added.triggerState ∧
      (∀ wk' ≠ wk, t'.accumulators.lookup wk' = added.accumulators.lookup wk') ∧ es <+: es' ∧
      (es' = es → t'.accumulators.lookup wk ≠ none → answer = .continue) := by
  obtain ⟨hsame, hpurged⟩ := added.purge_spec wk
  have hgone : (added.purge wk).accumulators.lookup wk = none := (hpurged wk).trans (if_pos rfl)
  have hother : ∀ wk' ≠ wk,
      (added.purge wk).accumulators.lookup wk' = added.accumulators.lookup wk' :=
    fun wk' hne => (hpurged wk').trans (if_neg hne)
  cases answer with
  | «continue» =>
    cases h
    exact ⟨rfl, rfl, fun _ _ => rfl, List.prefix_rfl, fun _ _ => rfl⟩
  | fire =>
    obtain ⟨rfl, r, rfl⟩ := runOn_fire_ok hlive h
    refine ⟨rfl, rfl, fun _ _ => rfl, List.prefix_append _ _, fun heq => ?_⟩
    exact absurd heq (by simp)
  | purge =>
    cases h
    exact ⟨hsame.2.1, triggerState_purge _ _, hother, List.prefix_rfl,
      fun _ hkept => absurd hgone hkept⟩
  | fireAndPurge =>
    obtain ⟨_, ⟨fired, es₁⟩, hfire, hpurge⟩ := runOn_bind_eq_ok h
    obtain ⟨rfl, r, rfl⟩ := runOn_fire_ok hlive hfire
    cases hpurge
    refine ⟨hsame.2.1, triggerState_purge _ _, hother, List.prefix_append _ _, fun heq => ?_⟩
    exact absurd heq (by simp)

theorem element_noticed (record : Record In) (window : Window)
    {t t' : WindowOperator σ In Acc Out} {es es' : List (StreamElement Out)}
    (h : (referenceElement (TestCollector Out) record window).runOn (t, es) =
      (.ok (), (t', es'))) :
    t'.trigger = t.trigger ∧
      t'.triggerState = (t.trigger.onElement t.triggerState record.timestamp window).2 ∧
      (∀ wk ≠ ⟨record.key.getD [], window⟩,
        t'.accumulators.lookup wk = t.accumulators.lookup wk) ∧
      es <+: es' ∧
      (es' = es → t'.accumulators.lookup ⟨record.key.getD [], window⟩ ≠ none →
        (t.trigger.onElement t.triggerState record.timestamp window).1 = .continue) := by
  rw [runOn_referenceElement] at h
  have hlookup : ∀ wk,
      (t.addTo ⟨record.key.getD [], window⟩ record.value).accumulators.lookup wk =
        if wk = ⟨record.key.getD [], window⟩ then some (t.aggregate.add
          ((t.accumulators.lookup ⟨record.key.getD [], window⟩).getD
            t.aggregate.createAccumulator) record.value)
        else t.accumulators.lookup wk := lookup_upsert
  have hlive : (t.addTo ⟨record.key.getD [], window⟩ record.value).accumulators.lookup
      ⟨record.key.getD [], window⟩ ≠ none := by
    rw [hlookup, if_pos rfl]
    exact Option.some_ne_none _
  obtain ⟨htrigger, hstate, hother, hemitted, hnoticed⟩ := heed_noticed h hlive
  exact ⟨htrigger, hstate, fun wk hne => (hother wk hne).trans ((hlookup wk).trans (if_neg hne)),
    hemitted, hnoticed⟩

/-- **What the reference does about a record** that it emits nothing for, and whose windows it
keeps: nothing else. -/
theorem windows_noticed (record : Record In) {windows : List Window} (hnodup : windows.Nodup)
    {t t' : WindowOperator σ In Acc Out} {es es' : List (StreamElement Out)}
    (h : (windows.forM (referenceElement (TestCollector Out) record)).runOn (t, es) =
      (.ok (), (t', es'))) :
    es <+: es' ∧
      (∀ wk ∉ windows.map (WindowKey.mk (record.key.getD [])),
        t'.accumulators.lookup wk = t.accumulators.lookup wk) ∧
      (es' = es → (∀ window ∈ windows,
          t'.accumulators.lookup ⟨record.key.getD [], window⟩ ≠ none) →
        ∀ answer ∈ elementAnswers t.trigger record.timestamp t.triggerState windows,
          answer = .continue) := by
  induction windows generalizing t es with
  | nil =>
    cases h
    exact ⟨List.prefix_rfl, fun _ _ => rfl, fun _ _ _ hanswer => absurd hanswer List.not_mem_nil⟩
  | cons window windows ih =>
    obtain ⟨hwindow, hnodup⟩ := List.nodup_cons.mp hnodup
    rw [runOn_forM_cons] at h
    obtain ⟨_, ⟨t₁, es₁⟩, hhead, hrest⟩ := runOn_bind_eq_ok h
    obtain ⟨htrigger, hstate, hother, hemitted, hnoticed⟩ := element_noticed record window hhead
    obtain ⟨hemitted₁, hother₁, hnoticed₁⟩ := ih hnodup hrest
    have hnew : (⟨record.key.getD [], window⟩ : WindowKey) ∉
        windows.map (WindowKey.mk (record.key.getD [])) := by
      intro hmem
      obtain ⟨window', hwindow', heq⟩ := List.mem_map.mp hmem
      exact hwindow ((WindowKey.mk.inj heq).2 ▸ hwindow')
    refine ⟨hemitted.trans hemitted₁, fun wk hwk => ?_, fun heq hkept => ?_⟩
    · rw [List.map_cons, List.mem_cons, not_or] at hwk
      exact (hother₁ wk hwk.2).trans (hother wk hwk.1)
    · subst heq
      have hes : es₁ = es' := hemitted₁.eq_of_length_le hemitted.length_le
      subst hes
      rw [elementAnswers, List.forall_mem_cons]
      refine ⟨hnoticed rfl ?_, ?_⟩
      · rw [← hother₁ _ hnew]
        exact hkept window List.mem_cons_self
      · rw [hstate, htrigger] at hnoticed₁
        exact hnoticed₁ rfl fun window' hwindow' =>
          hkept window' (List.mem_cons_of_mem _ hwindow')

/-- **At a record** with distinct windows the operator does what the reference does only if the
trigger lets the record pass. -/
theorem record_noticed (record : Record In) {windows : List Window} (hnodup : windows.Nodup)
    {s t s' t' : WindowOperator σ In Acc Out × List (StreamElement Out)} (h : SameContents s t)
    (hwindows : s.1.assigner record.timestamp = .ok windows)
    (hcode : (processRecord record).runOn s = (.ok (), s'))
    (hreference : (referenceRecord (TestCollector Out) record).runOn t = (.ok (), t'))
    (hsame : SameContents s' t') :
    ∀ answer ∈ elementAnswers s.1.trigger record.timestamp t.1.triggerState windows,
      answer = .continue := by
  obtain ⟨op, es⟩ := s
  obtain ⟨op', es'⟩ := t
  obtain ⟨t', es₁⟩ := t'
  obtain ⟨hconfig, haccs, rfl⟩ := h
  dsimp only at hconfig haccs hwindows ⊢
  obtain ⟨op₁, hcode₁, -, haccs₁⟩ := runOn_processRecord record op es' hwindows
  obtain ⟨-, rfl⟩ := Prod.mk.inj (hcode₁.symm.trans hcode)
  rw [runOn_referenceRecord _ record op' es' (hconfig.1 ▸ hwindows)] at hreference
  obtain ⟨-, -, hnoticed⟩ := windows_noticed record hnodup hreference
  rw [hconfig.2.1] at hnoticed
  refine hnoticed hsame.collector fun window hwindow => ?_
  have hkeys : (windows.map (WindowKey.mk (record.key.getD []))).Nodup :=
    hnodup.map fun _ _ heq => (WindowKey.mk.inj heq).2
  have hkept := hsame.accumulators
  dsimp only at hkept
  rw [hkept, haccs₁, lookup_upsertAll hkeys, if_pos (List.mem_map_of_mem hwindow)]
  exact Option.some_ne_none _

/-! ## Runs -/

/-- An element at which it makes no difference that the trigger is not asked about elements. `asked`
is the state of a trigger that was, `unasked` of one that was not: the first lets every record pass,
and at a watermark both decide the same about the live windows. -/
def Unnoticed (assigner : WindowAssigner) (trigger : Trigger σ) (live : List WindowKey)
    (asked unasked : σ) : Input In → Prop
  | .record r => ∀ windows, assigner r.timestamp = .ok windows →
      ∀ answer ∈ elementAnswers trigger r.timestamp asked windows, answer = .continue
  | .watermark w iter => decisions trigger w.timestamp asked (iter.order live) =
      decisions trigger w.timestamp unasked (iter.order live)
  | .barrier _ => True

/-- **A step at which nothing is noticed.** -/
theorem reference_agrees (collector : Collector C Out) (input : Input In)
    {s t : WindowOperator σ In Acc Out × C} (h : SameContents s t)
    (hunnoticed : Unnoticed s.1.assigner s.1.trigger s.1.accumulators.keys t.1.triggerState
      s.1.triggerState input) :
    ∃ r s' t', (process collector input).runOn s = (r, s') ∧
      (reference collector input).runOn t = (r, t') ∧ t'.2 = s'.2 ∧
      (r = .ok () → SameConfig s.1 s'.1 ∧ SameContents s' t') := by
  cases input with
  | record r => exact record_quiet collector r h hunnoticed
  | watermark w iter => exact watermark_agrees collector w iter h hunnoticed
  | barrier b =>
    obtain ⟨op, c⟩ := s
    obtain ⟨op', c'⟩ := t
    obtain ⟨hconfig, haccs, rfl⟩ := h
    exact ⟨_, _, _, runOn_onCollector _ op c', runOn_onCollector _ op' c', rfl,
      fun _ => ⟨⟨rfl, rfl, rfl⟩, hconfig, haccs, rfl⟩⟩

/-- **The operator obeys its trigger** in every run at whose steps nothing is noticed. -/
theorem run_obeysTrigger (assigner : WindowAssigner) (aggregate : AggregateFunction In Acc Out)
    (trigger : Trigger σ) (state : σ) (collector : Collector C Out) (c : C)
    (inputs : List (Input In))
    (h : ∀ before input after s t, inputs = before ++ input :: after →
      (run collector before).runOn
        ((WindowOperator.new assigner aggregate).withTrigger trigger state, c) = (.ok (), s) →
      (referenceRun collector before).runOn
        ((WindowOperator.new assigner aggregate).withTrigger trigger state, c) = (.ok (), t) →
      Unnoticed assigner trigger s.1.accumulators.keys t.1.triggerState s.1.triggerState input) :
    ∀ part, part <+: inputs → ∃ r s t,
      (run collector part).runOn
        ((WindowOperator.new assigner aggregate).withTrigger trigger state, c) = (r, s) ∧
      (referenceRun collector part).runOn
        ((WindowOperator.new assigner aggregate).withTrigger trigger state, c) = (r, t) ∧
      t.2 = s.2 ∧ (r = .ok () → t.1.accumulators = s.1.accumulators) := by
  suffices hcontents : ∀ part, part <+: inputs → ∃ r s t,
      (run collector part).runOn
        ((WindowOperator.new assigner aggregate).withTrigger trigger state, c) = (r, s) ∧
      (referenceRun collector part).runOn
        ((WindowOperator.new assigner aggregate).withTrigger trigger state, c) = (r, t) ∧
      t.2 = s.2 ∧ (r = .ok () →
        SameConfig ((WindowOperator.new assigner aggregate).withTrigger trigger state) s.1 ∧
          SameContents s t) by
    intro part hpart
    obtain ⟨r, s, t, hs, ht, hcollector, hsame⟩ := hcontents part hpart
    exact ⟨r, s, t, hs, ht, hcollector, fun hr => (hsame hr).2.accumulators⟩
  intro part
  induction part using List.reverseRecOn with
  | nil =>
    exact fun _ => ⟨.ok (), _, _, rfl, rfl, rfl,
      fun _ => ⟨⟨rfl, rfl, rfl⟩, ⟨rfl, rfl, rfl⟩, rfl, rfl⟩⟩
  | append_singleton part input ih =>
    intro hpart
    obtain ⟨after, hinputs⟩ := hpart
    rw [List.append_assoc, List.singleton_append] at hinputs
    obtain ⟨r, s, t, hs, ht, hcollector, hsame⟩ := ih ⟨input :: after, hinputs⟩
    cases r with
    | error e =>
      exact ⟨.error e, s, t, runOn_forM_append_error hs [input],
        runOn_forM_append_error ht [input], hcollector, nofun⟩
    | ok _ =>
      obtain ⟨hconfig, hcontents⟩ := hsame rfl
      have hunnoticed := h part input after s t hinputs.symm hs ht
      have hassigner : s.1.assigner = assigner := hconfig.1
      have htrigger : s.1.trigger = trigger := hconfig.2.1
      rw [← hassigner, ← htrigger] at hunnoticed
      obtain ⟨r, s', t', hs', ht', hcollector', hsame'⟩ :=
        reference_agrees collector input hcontents hunnoticed
      refine ⟨r, s', t', ?_, ?_, hcollector', fun hr => ?_⟩
      · exact (runOn_forM_append_ok hs [input]).trans ((runOn_forM_singleton _ _).trans hs')
      · exact (runOn_forM_append_ok ht [input]).trans ((runOn_forM_singleton _ _).trans ht')
      · exact ⟨hconfig.trans (hsame' hr).1, (hsame' hr).2⟩

theorem elementAnswers_eventTime (timestamp : EventTimestamp) (windows : List Window) :
    ∀ answer ∈ elementAnswers EventTimeTrigger timestamp () windows, answer = .continue := by
  induction windows with
  | nil => exact fun _ hanswer => absurd hanswer List.not_mem_nil
  | cons window windows ih => exact List.forall_mem_cons.mpr ⟨rfl, ih⟩

end WindowOperator

/-- Two records of one window, and a watermark that passes it. -/
def passedWindow : List (WindowOperator.Input String) :=
  [.record ⟨"a", 1000, some [1]⟩, .record ⟨"b", 2000, some [1]⟩, .watermark ⟨5000⟩ (.given _)]

theorem passedWindow_obeysTrigger : ∃ r s t,
    (WindowOperator.run (TestCollector ℕ) passedWindow).runOn
      ((WindowOperator.new (TumblingWindow.new (Duration.fromMillis 5000)).assignWindows
        countAggregator).withTrigger EventTimeTrigger (), []) = (r, s) ∧
    (WindowOperator.referenceRun (TestCollector ℕ) passedWindow).runOn
      ((WindowOperator.new (TumblingWindow.new (Duration.fromMillis 5000)).assignWindows
        countAggregator).withTrigger EventTimeTrigger (), []) = (r, t) ∧
    t.2 = s.2 ∧ (r = .ok () → t.1.accumulators = s.1.accumulators) := by
  refine WindowOperator.run_obeysTrigger _ _ _ _ _ _ passedWindow
    (fun before input after s t _ _ _ => ?_) passedWindow List.prefix_rfl
  cases input with
  | record r => exact fun windows _ => WindowOperator.elementAnswers_eventTime r.timestamp windows
  | watermark w iter => rfl
  | barrier b => trivial

/-- Fires at every element. -/
def EagerTrigger : Trigger Unit where
  onElement _ _ _ := (.fire, ())
  onEventTime _ _ _ := (.continue, ())

/-- The operator does not fire at an element, though the trigger decides so. -/
theorem eagerTrigger_notObeyed :
    ((WindowOperator.run (TestCollector ℕ) [.record ⟨"a", 1000, some [1]⟩]).runOn
      ((WindowOperator.new (TumblingWindow.new (Duration.fromMillis 5000)).assignWindows
        countAggregator).withTrigger EagerTrigger (), [])).2.2 = [] ∧
    ((WindowOperator.referenceRun (TestCollector ℕ) [.record ⟨"a", 1000, some [1]⟩]).runOn
      ((WindowOperator.new (TumblingWindow.new (Duration.fromMillis 5000)).assignWindows
        countAggregator).withTrigger EagerTrigger (), [])).2.2 =
      [.record ⟨1, 4999, some [1]⟩] := by
  constructor <;> rfl

end Flume
