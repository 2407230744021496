import Flume.Core.ProcessLog

/-!
# Event timers fire once, in order

A timer is pending while it is registered and has neither fired nor been deleted since. If the
callbacks of timers neither register nor delete timers and return `Ok`, every watermark fires
exactly the pending timers that it reaches.

* `Pending`: read off the history of calls, whatever the queue holds;
* `RegularRun`: watermarks before the end of the stream, and callbacks that return `Ok`;
* `FiresInOrder`, `FiresInOrder.logged`: in the history, and so in a log of the process function;
* `Queued`: the queue holds the pending timers, **`queued_run`**;
* **`eventTimers_fireInOrder`**: for each of the three process operators.
-/

namespace Flume

open Fallible SortedSet

/-- What an event does to the timers that are pending. -/
def TimerEvent.pendingUpdate? : TimerEvent → Option (Update Timer)
  | registered timer => some (.insert timer)
  | deleted timer => some (.remove timer)
  | onTimer timer _ => some (.remove timer)
  | forwarded _ => none

/-- The changes of the pending timers. -/
def pendingUpdates (events : List TimerEvent) : List (Update Timer) :=
  events.filterMap TimerEvent.pendingUpdate?

/-- The timer was registered, and has neither fired nor been deleted since. -/
def Pending (history : List TimerEvent) (timer : Timer) : Prop :=
  lastOf timer (pendingUpdates history) = some true

theorem pendingUpdates_append (events events' : List TimerEvent) :
    pendingUpdates (events ++ events') = pendingUpdates events ++ pendingUpdates events' :=
  List.filterMap_append

theorem pending_append {history events : List TimerEvent} {timer : Timer} :
    Pending (history ++ events) timer ↔ lastOf timer (pendingUpdates events) = some true ∨
      lastOf timer (pendingUpdates events) = none ∧ Pending history timer := by
  unfold Pending
  rw [pendingUpdates_append, lastOf_append]
  cases lastOf timer (pendingUpdates events) <;> simp

theorem pendingUpdates_calls {calls : List TimerEvent} (h : ∀ e ∈ calls, e.update?.isSome) :
    pendingUpdates calls = updates calls := by
  refine List.filterMap_congr fun e he => ?_
  have hcall := h e he
  cases e with
  | registered timer => rfl
  | deleted timer => rfl
  | onTimer timer key => cases hcall
  | forwarded watermark => cases hcall

variable {In In1 In2 Out Side σ C : Type}

namespace TimedOperator

variable {op : TimedOperator In Out Side σ C} {env : Environment C Out} {fn : σ} {outside : C}
  {s : ProcessState σ C} {inputs : List (StreamElement In)}

/-- The watermarks are before the end of the stream, and the callbacks of timers return `Ok`. -/
structure RegularRun (op : TimedOperator In Out Side σ C) (env : Environment C Out) (fn : σ)
    (outside : C) (inputs : List (StreamElement In)) : Prop where
  before : ∀ watermark, .watermark watermark ∈ inputs → watermark.timestamp < .MAX
  returnsOk : Runs.Along (op.step env)
    (fun s input => ∀ turn ∈ op.turnsOf env s input, turn.result = .ok ()) (init fn outside) inputs

theorem regularRun_of_returnsOk (h : ∀ fn timer ctx, (op.onTimer fn timer ctx).ReturnsOk)
    (hbefore : ∀ watermark, .watermark watermark ∈ inputs → watermark.timestamp < .MAX) :
    op.RegularRun env fn outside inputs where
  before := hbefore
  returnsOk := by
    refine Runs.along_of_keeps (P := fun _ => True) (fun s input _ => ?_)
      (fun _ _ _ _ => trivial) trivial inputs
    cases input with
    | record record => exact fun _ hturn => absurd hturn List.not_mem_nil
    | checkpointBarrier barrier => exact fun _ hturn => absurd hturn List.not_mem_nil
    | watermark watermark => exact result_turns h _ _

/-- Every watermark calls `on_timer` for the pending timers that it reaches, in ascending order and
once each, under the key of the timer; then it is forwarded. -/
def FiresInOrder (op : TimedOperator In Out Side σ C) (env : Environment C Out) (fn : σ)
    (outside : C) (inputs : List (StreamElement In)) : Prop :=
  ∀ pre watermark post, inputs = pre ++ .watermark watermark :: post →
    ∃ fired : List Timer, fired.Pairwise (· < ·) ∧
      (∀ timer, timer ∈ fired ↔ Pending (op.run env fn outside pre).history timer ∧
        timer.time ≤ watermark.timestamp) ∧
      (op.run env fn outside (pre ++ [.watermark watermark])).history =
        (op.run env fn outside pre).history ++
          fired.map (fun timer => .onTimer timer timer.key) ++ [.forwarded watermark]

/-- **The callbacks that are run** are those of the history: a process function that logs its calls
of `on_timer` logs the fired timers. -/
theorem FiresInOrder.logged (h : op.FiresInOrder env fn outside inputs)
    {pre post : List (StreamElement In)} {watermark : Watermark}
    (hinputs : inputs = pre ++ .watermark watermark :: post) :
    ∃ fired : List Timer, fired.Pairwise (· < ·) ∧
      (∀ timer, timer ∈ fired ↔ Pending (op.run env fn outside pre).history timer ∧
        timer.time ≤ watermark.timestamp) ∧
      (op.logging.run env (fn, []) outside (pre ++ [.watermark watermark])).fn.2 =
        (op.logging.run env (fn, []) outside pre).fn.2 ++ fired := by
  obtain ⟨fired, hsorted, hmem, hhistory⟩ := h pre watermark post hinputs
  refine ⟨fired, hsorted, hmem, ?_⟩
  have hcalls : calledBack (fired.map fun timer => .onTimer timer timer.key) = fired := by
    unfold calledBack
    rw [List.filterMap_map]
    exact List.filterMap_some
  rw [logging_run, logging_run]
  change calledBack _ = calledBack _ ++ fired
  rw [hhistory, calledBack_append, calledBack_append, hcalls]
  exact List.append_nil _

/-- The callbacks of timers neither register nor delete timers. -/
def TimersUntouched (op : TimedOperator In Out Side σ C) : Prop :=
  ∀ fn timer ctx, (op.onTimer fn timer ctx).LeavesTimers

/-- The queue holds the pending timers. -/
def Queued (s : ProcessState σ C) : Prop := ∀ timer, timer ∈ s.timers ↔ Pending s.history timer

theorem queued_init : Queued (init fn outside : ProcessState σ C) :=
  fun _ => iff_of_false notMem_empty fun h => by cases h

theorem Queued.called {s' : ProcessState σ C} {calls : List TimerEvent} (h : Queued s)
    (hcalled : Called s s' calls) : Queued s' := by
  intro timer
  rw [hcalled.timers, mem_applyAll, hcalled.history, pending_append,
    pendingUpdates_calls hcalled.isCall, h timer]

theorem mem_due {watermark : Watermark} {timer : Timer} :
    timer ∈ due watermark s ↔ timer ∈ s.timers ∧ timer < splitPoint watermark.timestamp :=
  mem_splitOff_fst

theorem mem_remaining {watermark : Watermark} {timer : Timer} :
    timer ∈ remaining watermark s ↔ timer ∈ s.timers ∧ splitPoint watermark.timestamp ≤ timer :=
  mem_splitOff_snd

/-- A turn without calls. -/
theorem calls_turnsOf (h : op.TimersUntouched) (input : StreamElement In) :
    ∀ turn ∈ op.turnsOf env s input, turn.calls = [] := by
  have hturns : ∀ (watermark : Watermark) (timers : List Timer) (s : ProcessState σ C),
      ∀ turn ∈ op.turns env watermark timers s, turn.calls = [] := by
    intro watermark timers
    induction timers with
    | nil => exact fun _ _ hturn => absurd hturn List.not_mem_nil
    | cons timer timers ih =>
      intro s turn hturn
      rcases List.mem_cons.mp hturn with rfl | hturn
      · have hfire : ((op.fire env watermark timer).runOn s).2.history =
            s.history ++ [.onTimer timer timer.key] := by
          obtain ⟨side, hside⟩ := runOn_fire op env watermark timer s
          rw [hside]
          exact (h s.fn timer ⟨watermark.timestamp⟩).history env side _
        dsimp only
        rw [hfire, List.drop_of_length_le (by simp)]
      · rcases hfire : (op.fire env watermark timer).runOn s with ⟨e | u, s₁⟩
        · rw [hfire] at hturn
          exact absurd hturn List.not_mem_nil
        · rw [hfire] at hturn
          exact ih s₁ turn hturn
  cases input with
  | record record => exact fun _ hturn => absurd hturn List.not_mem_nil
  | checkpointBarrier barrier => exact fun _ hturn => absurd hturn List.not_mem_nil
  | watermark watermark => exact hturns watermark _ _

/-- **A watermark whose callbacks leave the timers alone and return `Ok`.** -/
theorem step_watermark_untouched (h : op.TimersUntouched) {watermark : Watermark}
    (hok : ∀ turn ∈ op.turnsOf env s (.watermark watermark), turn.result = .ok ()) :
    (op.step env s (.watermark watermark)).timers = remaining watermark s ∧
      (op.step env s (.watermark watermark)).history = s.history ++
        (due watermark s).map (fun timer => .onTimer timer timer.key) ++
          [.forwarded watermark] := by
  have hcalls := @calls_turnsOf _ _ _ _ _ op env s h (.watermark watermark)
  obtain ⟨htimers, -, -, ⟨hall, hhistory⟩ | ⟨-, ⟨turn, hturn, hfails⟩, -⟩⟩ :=
    op.step_watermark env s watermark
  · rw [htimers, hhistory, ← hall, List.map_map, List.map_eq_flatMap]
    rw [List.flatMap_eq_nil_iff.mpr hcalls]
    refine ⟨rfl, ?_⟩
    congr 2
    refine List.flatMap_congr fun turn hturn => ?_
    rw [Turn.events, hcalls turn hturn]
    rfl
  · exact absurd (hok turn hturn) hfails

theorem mem_due_of_before {watermark : Watermark} (h : watermark.timestamp < .MAX) {timer : Timer} :
    timer ∈ due watermark s ↔ timer ∈ s.timers ∧ timer.time ≤ watermark.timestamp := by
  rw [mem_due, lt_splitPoint_iff]
  exact and_congr_right fun _ => and_iff_left fun hmax => h.ne hmax.1

theorem Queued.watermark (hqueued : Queued s) (h : op.TimersUntouched) {watermark : Watermark}
    (hok : ∀ turn ∈ op.turnsOf env s (.watermark watermark), turn.result = .ok ()) :
    Queued (op.step env s (.watermark watermark)) := by
  obtain ⟨htimers, hhistory⟩ := step_watermark_untouched h hok
  intro timer
  have hfired : pendingUpdates ((due watermark s).map (fun timer => .onTimer timer timer.key) ++
      [.forwarded watermark]) = (due watermark s).map Update.remove := by
    unfold pendingUpdates
    rw [List.filterMap_append, List.filterMap_map]
    refine (List.append_nil _).trans ?_
    exact congrFun List.filterMap_eq_map (due watermark s)
  rw [htimers, hhistory, List.append_assoc, pending_append, hfired, lastOf_map_remove,
    mem_remaining, ← hqueued timer]
  split_ifs with hdue
  · have hlt := (mem_due.mp hdue).2
    simp [hlt]
  · rw [mem_due, not_and, not_lt] at hdue
    simp only [true_and, false_or, and_iff_left_iff_imp]
    exact hdue

theorem queued_run (h : op.TimersUntouched) (hrun : op.RegularRun env fn outside inputs) :
    Queued (op.run env fn outside inputs) := by
  refine Runs.exec_invariant_along (fun s input hqueued hok => ?_) queued_init hrun.returnsOk
  cases input with
  | record record =>
    obtain ⟨calls, hcalled⟩ := @step_record _ _ _ _ _ op env s record
    exact hqueued.called hcalled
  | watermark watermark => exact hqueued.watermark h hok
  | checkpointBarrier barrier =>
    obtain ⟨hhistory, htimers⟩ := @step_barrier _ _ _ _ _ op env s barrier
    intro timer
    rw [htimers, hhistory]
    exact hqueued timer

theorem firesInOrder (h : op.TimersUntouched) (hrun : op.RegularRun env fn outside inputs) :
    op.FiresInOrder env fn outside inputs := by
  rintro pre watermark post rfl
  obtain ⟨hpre, hok, -⟩ := (Runs.along_append _ _).mp hrun.returnsOk
  have hbefore := hrun.before watermark (List.mem_append_right _ List.mem_cons_self)
  have hqueued := queued_run h
    ⟨fun w hw => hrun.before w (List.mem_append_left _ hw), hpre⟩
  have hascending : (due watermark (op.run env fn outside pre)).Pairwise (· < ·) :=
    ((op.run env fn outside pre).timers.splitOff (splitPoint watermark.timestamp)).1.sorted
  refine ⟨due watermark (op.run env fn outside pre), hascending, fun timer => ?_, ?_⟩
  · rw [mem_due_of_before hbefore, hqueued timer]
  · unfold run
    rw [Runs.exec_concat]
    exact (step_watermark_untouched h hok).2

end TimedOperator

open TimedOperator

/-- **Event timers fire exactly once, in order and under their key**, if the callbacks of timers
leave the timer service alone and return `Ok`. -/
theorem eventTimers_fireInOrder (env : Environment C Out) (fn : σ) (outside : C)
    (sideOutputs : Option (SideOutputEmitter C Side)) :
    (∀ (processFn : ProcessFunction In Out Side σ) (inputs : List (StreamElement In)),
      (∀ fn time ctx, (processFn.onTimer fn time ctx).LeavesTimers) →
        (ProcessOperator processFn sideOutputs).RegularRun env fn outside inputs →
          (ProcessOperator processFn sideOutputs).FiresInOrder env fn outside inputs) ∧
    (∀ (processFn : KeyedProcessFunction In Out Side σ) (inputs : List (StreamElement In)),
      (∀ fn time key ctx, (processFn.onTimer fn time key ctx).LeavesTimers) →
        (KeyedProcessOperator processFn sideOutputs).RegularRun env fn outside inputs →
          (KeyedProcessOperator processFn sideOutputs).FiresInOrder env fn outside inputs) ∧
    (∀ (coProcessFn : CoProcessFunction In1 In2 Out Side σ)
        (inputs : List (StreamElement (Either In1 In2))),
      (∀ fn time ctx, (coProcessFn.onTimer fn time ctx).LeavesTimers) →
        (CoProcessOperator coProcessFn sideOutputs).RegularRun env fn outside inputs →
          (CoProcessOperator coProcessFn sideOutputs).FiresInOrder env fn outside inputs) :=
  ⟨fun _ _ h => firesInOrder fun fn timer ctx => h fn timer.time ctx,
    fun _ _ h => firesInOrder fun fn timer ctx => h fn timer.time timer.key ctx,
    fun _ _ h => firesInOrder fun fn timer ctx => h fn timer.time ctx⟩

section Alarm

/-- Registers a timer for the time that is the value of the record, and emits the time when it
comes. -/
def Alarm : ProcessFunction EventTimestamp EventTimestamp Empty Unit where
  processElement fn time _ := .timer (.registerEventTimeTimer time) (.done (.ok ()) fn)
  onTimer fn time _ := .collect (.record ⟨time, time, none⟩) fun _ => .done (.ok ()) fn

/-- The alarm, for each key. -/
def KeyedAlarm : KeyedProcessFunction EventTimestamp EventTimestamp Empty Unit where
  processElement fn _ time ctx := Alarm.processElement fn time ctx
  onTimer fn time _ ctx := Alarm.onTimer fn time ctx

/-- The alarm, for two inputs; the second turns it off. -/
def CoAlarm : CoProcessFunction EventTimestamp EventTimestamp EventTimestamp Empty Unit where
  processElement1 fn time ctx := Alarm.processElement fn time ctx
  processElement2 fn time _ := .timer (.deleteEventTimeTimer time) (.done (.ok ()) fn)
  onTimer fn time ctx := Alarm.onTimer fn time ctx

/-- Alarms for 20 and 10 are in order at 30. -/
theorem alarm_fires_in_order :
    let env : Environment (List (StreamElement EventTimestamp)) EventTimestamp :=
      ⟨TestCollector EventTimestamp, pure 0⟩
    let times : List (StreamElement EventTimestamp) :=
      [.record ⟨20, 1, some [1]⟩, .record ⟨10, 2, none⟩, .watermark ⟨30⟩]
    let eithers : List (StreamElement (Either EventTimestamp EventTimestamp)) :=
      [.record ⟨.left 20, 1, some [1]⟩, .record ⟨.left 10, 2, none⟩, .record ⟨.right 20, 3, none⟩,
        .watermark ⟨30⟩]
    (ProcessOperator Alarm none).FiresInOrder env () [] times ∧
      (KeyedProcessOperator KeyedAlarm none).FiresInOrder env () [] times ∧
      (CoProcessOperator CoAlarm none).FiresInOrder env () [] eithers := by
  intro env times eithers
  obtain ⟨hprocess, hkeyed, hco⟩ := @eventTimers_fireInOrder EventTimestamp EventTimestamp
    EventTimestamp EventTimestamp Empty Unit _ env () [] none
  have hbefore : ∀ watermark, .watermark watermark ∈ times → watermark.timestamp < .MAX := by
    simp [times]
    decide
  have hbefore' : ∀ watermark, .watermark watermark ∈ eithers → watermark.timestamp < .MAX := by
    simp [eithers]
    decide
  refine ⟨hprocess Alarm times (fun _ _ _ _ => trivial) ?_,
    hkeyed KeyedAlarm times (fun _ _ _ _ _ => trivial) ?_,
    hco CoAlarm eithers (fun _ _ _ _ => trivial) ?_⟩
  · exact regularRun_of_returnsOk (fun _ _ _ _ => rfl) hbefore
  · exact regularRun_of_returnsOk (fun _ _ _ _ => rfl) hbefore
  · exact regularRun_of_returnsOk (fun _ _ _ _ => rfl) hbefore'

end Alarm

end Flume
