import Flume.Core.ProcessTimers

/-!
# The timers of a watermark are one batch

The timers that a watermark makes due leave the queue before the first of them takes its turn. A
callback that deletes a timer of the batch does not stop it, and one that registers a timer for the
past leaves it to the next watermark.

* `DeletedNeverFires`, **`deletedNeverFires_iff`**: a deleted timer fires exactly if a callback of
  the same watermark deleted it;
* `NothingDueLeft`, **`nothingDueLeft_iff`**: a timer that is due is left behind exactly if a
  callback of the same watermark registered it, or if it is for the last time of all.
-/

namespace Flume

open Fallible SortedSet

variable {In In1 In2 Out Side σ C : Type}

theorem TimerEvent.ne_onTimer {e : TimerEvent} (h : e.update?.isSome) (timer : Timer)
    (key : Bytes) : e ≠ .onTimer timer key := by
  rintro rfl
  cases h

theorem updates_turns (turns : List Turn) :
    updates (turns.flatMap Turn.events) = updates (turns.flatMap Turn.calls) := by
  induction turns with
  | nil => rfl
  | cons turn turns ih =>
    rw [List.flatMap_cons, List.flatMap_cons, updates_append, updates_append, ih]
    rfl

namespace TimedOperator

variable {op : TimedOperator In Out Side σ C} {env : Environment C Out} {fn : σ} {outside : C}
  {s : ProcessState σ C} {inputs : List (StreamElement In)} {watermark : Watermark}

/-! ## Deleted timers -/

/-- If the last call for a timer deletes it, `on_timer` is not called for it. -/
def NotDeleted (past : List TimerEvent) (e : TimerEvent) : Prop :=
  ∀ timer key, e = .onTimer timer key → lastOf timer (updates past) ≠ some false

/-- **A deleted timer never fires**, until it is registered again. -/
def DeletedNeverFires (s : ProcessState σ C) : Prop := Runs.EachAfter NotDeleted s.history

/-- No turn is that of a timer that the turns before it deleted. -/
def NoTurnDeleted (turns : List Turn) : Prop :=
  Runs.EachAfter (fun done turn => lastOf turn.timer (updates (done.flatMap Turn.calls)) ≠
    some false) turns

/-- The timers in the queue are registered. -/
def Registered (s : ProcessState σ C) : Prop :=
  ∀ timer ∈ s.timers, lastOf timer (updates s.history) = some true

theorem Registered.of_updates {s' : ProcessState σ C} {timers : SortedSet Timer}
    {events : List TimerEvent} (h : Registered s) (hpart : ∀ timer ∈ timers, timer ∈ s.timers)
    (htimers : s'.timers = (updates events).foldl apply timers)
    (hhistory : updates s'.history = updates s.history ++ updates events) : Registered s' := by
  intro timer htimer
  rw [htimers, mem_applyAll] at htimer
  rw [hhistory, lastOf_append]
  rcases htimer with hlast | ⟨hlast, hmem⟩
  · rw [hlast, Option.some_or]
  · rw [hlast, Option.none_or]
    exact h timer (hpart timer hmem)

theorem updates_step_watermark :
    updates (op.step env s (.watermark watermark)).history = updates s.history ++
      updates ((op.turnsOf env s (.watermark watermark)).flatMap Turn.calls) := by
  obtain ⟨-, -, -, ⟨-, hhistory⟩ | ⟨-, -, hhistory⟩⟩ := op.step_watermark env s watermark
  · rw [hhistory, updates_append, updates_append, updates_turns]
    exact List.append_nil _
  · rw [hhistory, updates_append, updates_turns]

theorem Registered.step (h : Registered s) (input : StreamElement In) :
    Registered (op.step env s input) := by
  cases input with
  | record record =>
    obtain ⟨calls, hcalled⟩ := @step_record _ _ _ _ _ op env s record
    refine h.of_updates (fun _ hmem => hmem) hcalled.timers ?_
    rw [hcalled.history, updates_append]
  | watermark watermark =>
    refine h.of_updates (fun timer htimer => ?_) (op.step_watermark env s watermark).1
      updates_step_watermark
    exact (mem_remaining.mp htimer).1
  | checkpointBarrier barrier =>
    obtain ⟨hhistory, htimers⟩ := @step_barrier _ _ _ _ _ op env s barrier
    intro timer htimer
    rw [htimers] at htimer
    rw [hhistory]
    exact h timer htimer

theorem eachAfter_notDeleted_calls {past calls : List TimerEvent}
    (h : ∀ e ∈ calls, e.update?.isSome) :
    Runs.EachAfter (fun pre e => NotDeleted (past ++ pre) e) calls :=
  Runs.eachAfter_of_forall fun e he _ timer key heq => absurd heq (e.ne_onTimer (h e he) timer key)

/-- **The turns of a watermark** are of registered timers: only a turn of the same watermark can
have deleted one of them. -/
theorem eachAfter_notDeleted_turns {past : List TimerEvent} {turns : List Turn}
    (hregistered : ∀ turn ∈ turns, lastOf turn.timer (updates past) = some true)
    (hcalls : ∀ turn ∈ turns, ∀ e ∈ turn.calls, e.update?.isSome) :
    Runs.EachAfter (fun pre e => NotDeleted (past ++ pre) e) (turns.flatMap Turn.events) ↔
      NoTurnDeleted turns := by
  unfold NoTurnDeleted
  induction turns using List.reverseRecOn with
  | nil => exact iff_of_true (Runs.eachAfter_nil _) (Runs.eachAfter_nil _)
  | append_singleton done turn ih =>
    have hdone := ih (fun t ht => hregistered t (List.mem_append_left _ ht))
      fun t ht => hcalls t (List.mem_append_left _ ht)
    have hmem : turn ∈ done ++ [turn] := List.mem_append_right _ (List.mem_singleton_self _)
    have hturn : NotDeleted (past ++ done.flatMap Turn.events)
        (.onTimer turn.timer turn.timer.key) ↔
          lastOf turn.timer (updates (done.flatMap Turn.calls)) ≠ some false := by
      have hlast : lastOf turn.timer (updates (past ++ done.flatMap Turn.events)) =
          (lastOf turn.timer (updates (done.flatMap Turn.calls))).or (some true) := by
        rw [updates_append, updates_turns, lastOf_append, hregistered turn hmem]
      constructor
      · intro h
        have := h turn.timer _ rfl
        rw [hlast] at this
        cases hdeleted : lastOf turn.timer (updates (done.flatMap Turn.calls)) <;> simp_all
      · rintro h timer key heq
        obtain ⟨rfl, -⟩ := TimerEvent.onTimer.inj heq
        rw [hlast]
        cases hdeleted : lastOf turn.timer (updates (done.flatMap Turn.calls)) <;> simp_all
    have hevents : turn.events = [.onTimer turn.timer turn.timer.key] ++ turn.calls := rfl
    rw [List.flatMap_append, List.flatMap_singleton, Runs.eachAfter_append, hdone,
      Runs.eachAfter_concat, ← hturn, hevents, Runs.eachAfter_append]
    refine and_congr_right fun _ => ?_
    refine (and_iff_left ?_).trans ?_
    · simp only [← List.append_assoc]
      exact eachAfter_notDeleted_calls (hcalls turn hmem)
    · rw [← List.nil_append [TimerEvent.onTimer turn.timer turn.timer.key], Runs.eachAfter_concat,
        List.append_nil]
      exact and_iff_right (Runs.eachAfter_nil _)

/-- **One step.** -/
theorem deletedNeverFires_step (h : Registered s) (input : StreamElement In) :
    DeletedNeverFires (op.step env s input) ↔
      DeletedNeverFires s ∧ NoTurnDeleted (op.turnsOf env s input) := by
  unfold DeletedNeverFires
  cases input with
  | record record =>
    obtain ⟨calls, hcalled⟩ := @step_record _ _ _ _ _ op env s record
    rw [hcalled.history, Runs.eachAfter_append]
    exact and_congr_right fun _ => iff_of_true (eachAfter_notDeleted_calls hcalled.isCall)
      (Runs.eachAfter_nil _)
  | watermark watermark =>
    obtain ⟨-, hcalls, hturns, hend⟩ := op.step_watermark env s watermark
    have hregistered : ∀ turn ∈ op.turnsOf env s (.watermark watermark),
        lastOf turn.timer (updates s.history) = some true := fun turn hturn =>
      h turn.timer (mem_due.mp (hturns.subset (List.mem_map_of_mem hturn))).1
    have hbatch := eachAfter_notDeleted_turns hregistered hcalls
    rcases hend with ⟨-, hhistory⟩ | ⟨-, -, hhistory⟩
    · rw [hhistory, Runs.eachAfter_concat, Runs.eachAfter_append, hbatch]
      exact and_iff_left fun _ _ heq => by cases heq
    · rw [hhistory, Runs.eachAfter_append, hbatch]
  | checkpointBarrier barrier =>
    rw [(@step_barrier _ _ _ _ _ op env s barrier).1]
    exact (and_iff_left (Runs.eachAfter_nil _)).symm

/-- **Every run.** -/
theorem deletedNeverFires_run (op : TimedOperator In Out Side σ C) (env : Environment C Out)
    (fn : σ) (outside : C) (inputs : List (StreamElement In)) :
    DeletedNeverFires (op.run env fn outside inputs) ↔
      Runs.Along (op.step env) (fun s input => NoTurnDeleted (op.turnsOf env s input))
        (init fn outside) inputs := by
  induction inputs using List.reverseRecOn with
  | nil => exact iff_of_true (Runs.eachAfter_nil _) trivial
  | append_singleton inputs input ih =>
    have hregistered : Registered (op.run env fn outside inputs) :=
      Runs.exec_invariant (fun s input h => h.step input)
        (fun timer h => absurd h notMem_empty) inputs
    have hrun : op.run env fn outside (inputs ++ [input]) =
        op.step env (op.run env fn outside inputs) input := Runs.exec_concat _ _
    rw [hrun, deletedNeverFires_step hregistered, ih, Runs.along_concat]
    rfl

/-! ## Timers that are left behind -/

/-- What happens in a call. -/
def eventsOf (op : TimedOperator In Out Side σ C) (env : Environment C Out) (s : ProcessState σ C)
    (input : StreamElement In) : List TimerEvent :=
  (op.step env s input).history.drop s.history.length

/-- **Nothing due is left behind by a watermark**: no timer up to the watermark stays in the queue,
and each that was there or came there has fired since, or was deleted. -/
def NothingDueLeft (op : TimedOperator In Out Side σ C) (env : Environment C Out)
    (s : ProcessState σ C) (watermark : Watermark) : Prop :=
  ∀ timer : Timer, timer.time ≤ watermark.timestamp →
    timer ∉ (op.step env s (.watermark watermark)).timers ∧
      timer ∉ (pendingUpdates (op.eventsOf env s (.watermark watermark))).foldl apply s.timers

/-- The turns of a watermark leave no timer registered that is due, and a timer for the last time of
all does not wait unless they delete it. -/
def NoFollowUp (op : TimedOperator In Out Side σ C) (env : Environment C Out)
    (s : ProcessState σ C) (watermark : Watermark) : Prop :=
  ∀ timer : Timer, timer.time ≤ watermark.timestamp →
    let last := lastOf timer
      (updates ((op.turnsOf env s (.watermark watermark)).flatMap Turn.calls))
    last ≠ some true ∧
      (watermark.timestamp = .MAX ∧ timer.time = .MAX ∧ timer ∈ s.timers → last = some false)

theorem updates_singleton {e : TimerEvent} (h : ∀ timer key, e ≠ .onTimer timer key) :
    updates [e] = pendingUpdates [e] := by
  cases e with
  | onTimer timer key => exact absurd rfl (h timer key)
  | _ => rfl

theorem lastOf_updates_of_pending {timer : Timer} {events : List TimerEvent}
    (h : lastOf timer (pendingUpdates events) = some true) :
    lastOf timer (updates events) = some true := by
  induction events using List.reverseRecOn with
  | nil => cases h
  | append_singleton events e ih =>
    rw [pendingUpdates_append, lastOf_append, Option.or_eq_some_iff] at h
    rw [updates_append, lastOf_append, Option.or_eq_some_iff]
    by_cases hturn : ∃ t key, e = .onTimer t key
    · obtain ⟨t, key, rfl⟩ := hturn
      rcases h with h | ⟨-, h⟩
      · change lastOf timer [.remove t] = some true at h
        simp [Update.presence?] at h
      · exact Or.inr ⟨rfl, ih h⟩
    · push Not at hturn
      rw [updates_singleton hturn]
      exact h.imp_right fun h => ⟨h.1, ih h.2⟩

theorem lastOf_pendingUpdates_eq_none {timer : Timer} {events : List TimerEvent}
    (h : lastOf timer (pendingUpdates events) = none) :
    lastOf timer (updates events) = none ∧ ∀ key, .onTimer timer key ∉ events := by
  induction events using List.reverseRecOn with
  | nil => exact ⟨rfl, fun _ => List.not_mem_nil⟩
  | append_singleton events e ih =>
    rw [pendingUpdates_append, lastOf_append, Option.or_eq_none_iff] at h
    rw [updates_append, lastOf_append, Option.or_eq_none_iff]
    obtain ⟨hlast, hnone⟩ := ih h.2
    by_cases hturn : ∃ t key, e = .onTimer t key
    · obtain ⟨t, key, rfl⟩ := hturn
      have hne : t ≠ timer := by
        rintro rfl
        have := h.1
        change lastOf t [.remove t] = none at this
        simp [Update.presence?] at this
      refine ⟨⟨rfl, hlast⟩, fun key' hmem => ?_⟩
      rcases List.mem_append.mp hmem with hmem | hmem
      · exact hnone key' hmem
      · exact hne (TimerEvent.onTimer.inj (List.mem_singleton.mp hmem)).1.symm
    · push Not at hturn
      refine ⟨⟨(updates_singleton hturn).symm ▸ h.1, hlast⟩, fun key hmem => ?_⟩
      rcases List.mem_append.mp hmem with hmem | hmem
      · exact hnone key hmem
      · exact hturn timer key (List.mem_singleton.mp hmem).symm

theorem mem_remaining_of_le {timer : Timer} (h : timer.time ≤ watermark.timestamp) :
    timer ∈ remaining watermark s ↔
      watermark.timestamp = .MAX ∧ timer.time = .MAX ∧ timer ∈ s.timers := by
  rw [mem_remaining, splitPoint_le_iff, or_iff_right h.not_gt, and_comm, and_assoc]

theorem mem_remaining_of_no_turn {timer : Timer} (hmem : timer ∈ s.timers)
    (hall : (op.turnsOf env s (.watermark watermark)).map Turn.timer = due watermark s)
    (hnone : lastOf timer (pendingUpdates
      ((op.turnsOf env s (.watermark watermark)).flatMap Turn.events)) = none) :
    timer ∈ remaining watermark s ∧ lastOf timer
      (updates ((op.turnsOf env s (.watermark watermark)).flatMap Turn.calls)) = none := by
  obtain ⟨hlast, hturn⟩ := lastOf_pendingUpdates_eq_none hnone
  rw [updates_turns] at hlast
  have hdue : timer ∉ due watermark s := by
    rw [← hall]
    intro hin
    obtain ⟨turn, hturns, rfl⟩ := List.mem_map.mp hin
    exact hturn turn.timer.key (List.mem_flatMap.mpr ⟨turn, hturns, List.mem_cons_self⟩)
  rw [mem_due, not_and, not_lt] at hdue
  exact ⟨mem_remaining.mpr ⟨hmem, hdue hmem⟩, hlast⟩

/-- **What a watermark leaves behind.** -/
theorem nothingDueLeft_iff_noFollowUp
    (hok : ((op.process env (.watermark watermark)).runOn s).1 = .ok ()) :
    NothingDueLeft op env s watermark ↔ NoFollowUp op env s watermark := by
  obtain ⟨htimers, -, -, ⟨hall, hhistory⟩ | ⟨hfails, -, -⟩⟩ := op.step_watermark env s watermark
  swap
  · exact absurd hok hfails
  have hevents : op.eventsOf env s (.watermark watermark) =
      (op.turnsOf env s (.watermark watermark)).flatMap Turn.events ++ [.forwarded watermark] := by
    rw [eventsOf, hhistory, List.append_assoc, List.drop_left]
  have hpending : pendingUpdates (op.eventsOf env s (.watermark watermark)) =
      pendingUpdates ((op.turnsOf env s (.watermark watermark)).flatMap Turn.events) := by
    rw [hevents, pendingUpdates_append]
    exact List.append_nil _
  refine forall₂_congr fun timer htime => ?_
  rw [htimers, mem_applyAll, mem_remaining_of_le htime, hpending, mem_applyAll]
  constructor
  · rintro ⟨hqueue, -⟩
    refine ⟨fun h => hqueue (Or.inl h), fun h => ?_⟩
    rcases hlast : lastOf timer (updates ((op.turnsOf env s (.watermark watermark)).flatMap
      Turn.calls)) with _ | ⟨⟨⟩ | ⟨⟩⟩
    · exact absurd (Or.inr ⟨hlast, h⟩) hqueue
    · rfl
    · exact absurd (Or.inl hlast) hqueue
  · rintro ⟨hnot, hlastTime⟩
    constructor
    · rintro (h | ⟨hnone, h⟩)
      · exact hnot h
      · rw [hlastTime h] at hnone
        cases hnone
    · rintro (h | ⟨hnone, hmem⟩)
      · have := lastOf_updates_of_pending h
        rw [updates_turns] at this
        exact hnot this
      · obtain ⟨hleft, hlast⟩ := mem_remaining_of_no_turn hmem hall hnone
        rw [hlastTime ((mem_remaining_of_le htime).mp hleft)] at hlast
        cases hlast

theorem noFollowUp_of_untouched (h : op.TimersUntouched) (hbefore : watermark.timestamp < .MAX) :
    op.NoFollowUp env s watermark := by
  intro timer _
  have hcalls : (op.turnsOf env s (.watermark watermark)).flatMap Turn.calls = [] :=
    List.flatMap_eq_nil_iff.mpr (calls_turnsOf h _)
  rw [hcalls]
  exact ⟨fun hlast => (by cases hlast), fun hmax => absurd hmax.1 hbefore.ne⟩

end TimedOperator

open TimedOperator

/-- **When deleted timers never fire**, for each process operator and any sequence of elements:
exactly if no callback deletes a timer that is due at the same watermark and has not had its turn.
-/
theorem deletedNeverFires_iff (env : Environment C Out) (fn : σ) (outside : C)
    (sideOutputs : Option (SideOutputEmitter C Side)) :
    (∀ (processFn : ProcessFunction In Out Side σ) (inputs : List (StreamElement In)),
      DeletedNeverFires ((ProcessOperator processFn sideOutputs).run env fn outside inputs) ↔
        Runs.Along ((ProcessOperator processFn sideOutputs).step env)
          (fun s input => NoTurnDeleted
            ((ProcessOperator processFn sideOutputs).turnsOf env s input))
          (init fn outside) inputs) ∧
    (∀ (processFn : KeyedProcessFunction In Out Side σ) (inputs : List (StreamElement In)),
      DeletedNeverFires ((KeyedProcessOperator processFn sideOutputs).run env fn outside inputs) ↔
        Runs.Along ((KeyedProcessOperator processFn sideOutputs).step env)
          (fun s input => NoTurnDeleted
            ((KeyedProcessOperator processFn sideOutputs).turnsOf env s input))
          (init fn outside) inputs) ∧
    (∀ (coProcessFn : CoProcessFunction In1 In2 Out Side σ)
        (inputs : List (StreamElement (Either In1 In2))),
      DeletedNeverFires ((CoProcessOperator coProcessFn sideOutputs).run env fn outside inputs) ↔
        Runs.Along ((CoProcessOperator coProcessFn sideOutputs).step env)
          (fun s input => NoTurnDeleted
            ((CoProcessOperator coProcessFn sideOutputs).turnsOf env s input))
          (init fn outside) inputs) :=
  ⟨fun _ inputs => deletedNeverFires_run _ env fn outside inputs,
    fun _ inputs => deletedNeverFires_run _ env fn outside inputs,
    fun _ inputs => deletedNeverFires_run _ env fn outside inputs⟩

/-- **When nothing due is left behind:** if the turns of the watermark leave no timer registered
that is due, and no timer waits for the last time of all. -/
theorem nothingDueLeft_iff (env : Environment C Out) (fn : σ) (outside : C)
    (sideOutputs : Option (SideOutputEmitter C Side)) (watermark : Watermark) :
    (∀ (processFn : ProcessFunction In Out Side σ) (inputs : List (StreamElement In)),
      let op := ProcessOperator processFn sideOutputs
      let s := op.run env fn outside inputs
      ((op.process env (.watermark watermark)).runOn s).1 = .ok () →
        (op.NothingDueLeft env s watermark ↔ op.NoFollowUp env s watermark)) ∧
    (∀ (processFn : KeyedProcessFunction In Out Side σ) (inputs : List (StreamElement In)),
      let op := KeyedProcessOperator processFn sideOutputs
      let s := op.run env fn outside inputs
      ((op.process env (.watermark watermark)).runOn s).1 = .ok () →
        (op.NothingDueLeft env s watermark ↔ op.NoFollowUp env s watermark)) ∧
    (∀ (coProcessFn : CoProcessFunction In1 In2 Out Side σ)
        (inputs : List (StreamElement (Either In1 In2))),
      let op := CoProcessOperator coProcessFn sideOutputs
      let s := op.run env fn outside inputs
      ((op.process env (.watermark watermark)).runOn s).1 = .ok () →
        (op.NothingDueLeft env s watermark ↔ op.NoFollowUp env s watermark)) :=
  ⟨fun _ _ => nothingDueLeft_iff_noFollowUp, fun _ _ => nothingDueLeft_iff_noFollowUp,
    fun _ _ => nothingDueLeft_iff_noFollowUp⟩

/-! ## Callbacks of timers that call the timer service -/

section Examples

/-- Registers a timer for the time that is the value of the record; the timer deletes the one ten
milliseconds later. -/
def Canceller : KeyedProcessFunction EventTimestamp Unit Empty Unit where
  processElement fn _ time _ := .timer (.registerEventTimeTimer time) (.done (.ok ()) fn)
  onTimer fn time _ _ :=
    .timer (.deleteEventTimeTimer (time.saturatingAdd 10)) (.done (.ok ()) fn)

/-- Registers a timer for the time that is the value of the record; the timer registers another one
five milliseconds later. -/
def Repeater : KeyedProcessFunction EventTimestamp Unit Empty Unit where
  processElement fn _ time _ := .timer (.registerEventTimeTimer time) (.done (.ok ()) fn)
  onTimer fn time _ _ :=
    .timer (.registerEventTimeTimer (time.saturatingAdd 5)) (.done (.ok ()) fn)

/-- Nothing but a collector around the operator. -/
def quiet : Environment (List (StreamElement Unit)) Unit := ⟨TestCollector Unit, pure 0⟩

/-- Timers for 10 and 20 of one key. -/
def cancelledInputs : List (StreamElement EventTimestamp) :=
  [.record ⟨10, 1, some [1]⟩, .record ⟨20, 2, some [1]⟩, .watermark ⟨30⟩]

/-- The timer for 20 fires after the timer for 10 has deleted it. -/
theorem cancelled_fires :
    ((KeyedProcessOperator Canceller none).run quiet () [] cancelledInputs).history =
        [.registered ⟨10, [1]⟩, .registered ⟨20, [1]⟩, .onTimer ⟨10, [1]⟩ [1],
          .deleted ⟨20, [1]⟩, .onTimer ⟨20, [1]⟩ [1], .deleted ⟨30, [1]⟩, .forwarded ⟨30⟩] ∧
      ¬ DeletedNeverFires
        ((KeyedProcessOperator Canceller none).run quiet () [] cancelledInputs) := by
  have hhistory : ((KeyedProcessOperator Canceller none).run quiet () [] cancelledInputs).history =
      [.registered ⟨10, [1]⟩, .registered ⟨20, [1]⟩, .onTimer ⟨10, [1]⟩ [1],
        .deleted ⟨20, [1]⟩, .onTimer ⟨20, [1]⟩ [1], .deleted ⟨30, [1]⟩, .forwarded ⟨30⟩] := by
    decide +kernel
  refine ⟨hhistory, fun h => ?_⟩
  rw [DeletedNeverFires, hhistory] at h
  refine h [.registered ⟨10, [1]⟩, .registered ⟨20, [1]⟩, .onTimer ⟨10, [1]⟩ [1],
    .deleted ⟨20, [1]⟩] _ [.deleted ⟨30, [1]⟩, .forwarded ⟨30⟩] rfl ⟨20, [1]⟩ [1] rfl ?_
  decide +kernel

/-- The watermark 20 returns `Ok` and leaves the timer for 15 that the timer for 10 registered. -/
theorem repeated_left :
    let op : TimedOperator EventTimestamp Unit Empty Unit (List (StreamElement Unit)) :=
      KeyedProcessOperator Repeater none
    let s := op.run quiet () [] [.record ⟨10, 1, some [1]⟩]
    ((op.process quiet (.watermark ⟨20⟩)).runOn s).1 = .ok () ∧
      (op.step quiet s (.watermark ⟨20⟩)).timers.elems = [⟨15, [1]⟩] ∧
      ¬ op.NothingDueLeft quiet s ⟨20⟩ := by
  intro op s
  refine ⟨rfl, by decide +kernel, fun h => ?_⟩
  exact (h ⟨15, [1]⟩ (by decide)).1 (by decide +kernel)

/-- The alarms for 10 go off at 20, and nothing is left behind. -/
theorem alarms_leave_nothing :
    let env : Environment (List (StreamElement EventTimestamp)) EventTimestamp :=
      ⟨TestCollector EventTimestamp, pure 0⟩
    let s := (ProcessOperator Alarm none).run env () [] [.record ⟨10, 1, none⟩]
    let s' := (KeyedProcessOperator KeyedAlarm none).run env () [] [.record ⟨10, 1, some [1]⟩]
    let s'' := (CoProcessOperator CoAlarm none).run env () [] [.record ⟨.left 10, 1, some [1]⟩]
    (ProcessOperator Alarm none).NothingDueLeft env s ⟨20⟩ ∧
      (KeyedProcessOperator KeyedAlarm none).NothingDueLeft env s' ⟨20⟩ ∧
      (CoProcessOperator CoAlarm none).NothingDueLeft env s'' ⟨20⟩ := by
  intro env s s' s''
  obtain ⟨hprocess, hkeyed, hco⟩ := @nothingDueLeft_iff EventTimestamp EventTimestamp
    EventTimestamp EventTimestamp Empty Unit _ env () [] none ⟨20⟩
  refine ⟨(hprocess Alarm [.record ⟨10, 1, none⟩] rfl).mpr ?_,
    (hkeyed KeyedAlarm [.record ⟨10, 1, some [1]⟩] rfl).mpr ?_,
    (hco CoAlarm [.record ⟨.left 10, 1, some [1]⟩] rfl).mpr ?_⟩
  · exact noFollowUp_of_untouched (fun _ _ _ _ => trivial) (by decide)
  · exact noFollowUp_of_untouched (fun _ _ _ _ => trivial) (by decide)
  · exact noFollowUp_of_untouched (fun _ _ _ _ => trivial) (by decide)

end Examples

end Flume
