import Flume.Core.Process

/-!
# What callbacks do to the timers

A call of an operator runs the callbacks of its process function: one for a record, and one for each
timer that a watermark makes due, which is the timer's turn.

* `TimerEvent.update?`: the calls of callbacks as updates of the set of timers;
* `Called`, **`perform_called`**: a callback changes the timers by its calls only;
* `Turn`, `turnsOf`: the turns of a watermark, with the calls that each makes;
* **`step_record`**, **`step_watermark`**: what the calls of the operator do to the timers and to
  the history.
-/

namespace Flume

open Fallible SortedSet

/-- The registrations and deletions, as updates of a set. -/
def TimerEvent.update? : TimerEvent → Option (Update Timer)
  | registered timer => some (.insert timer)
  | deleted timer => some (.remove timer)
  | _ => none

/-- The updates among events. -/
def updates (events : List TimerEvent) : List (Update Timer) :=
  events.filterMap TimerEvent.update?

theorem updates_append (events events' : List TimerEvent) :
    updates (events ++ events') = updates events ++ updates events' := List.filterMap_append

variable {In Out Side σ C : Type}

/-- From `s` to `s'` a callback has made the calls `calls`. -/
structure Called (s s' : ProcessState σ C) (calls : List TimerEvent) : Prop where
  history : s'.history = s.history ++ calls
  timers : s'.timers = (updates calls).foldl apply s.timers
  isCall : ∀ e ∈ calls, e.update?.isSome

theorem Called.refl (s : ProcessState σ C) : Called s s [] where
  history := (List.append_nil _).symm
  timers := rfl
  isCall _ he := absurd he List.not_mem_nil

theorem Called.trans {s s' s'' : ProcessState σ C} {calls calls' : List TimerEvent}
    (h : Called s s' calls) (h' : Called s' s'' calls') : Called s s'' (calls ++ calls') where
  history := by rw [h'.history, h.history, List.append_assoc]
  timers := by rw [h'.timers, h.timers, updates_append, List.foldl_append]
  isCall e he := (List.mem_append.mp he).elim (h.isCall e) (h'.isCall e)

theorem Called.of_eq {s t s' : ProcessState σ C} {calls : List TimerEvent} (h : Called t s' calls)
    (hhistory : t.history = s.history) (htimers : t.timers = s.timers) : Called s s' calls where
  history := by rw [h.history, hhistory]
  timers := by rw [h.timers, htimers]
  isCall := h.isCall

theorem called_callTimers (call : TimerCall) (s : ProcessState σ C) :
    Called s ((callTimers call).runOn s).2 (call.events s.timerService.currentKey) := by
  cases call with
  | registerEventTimeTimer time => exact ⟨rfl, rfl, fun e he => by
      rw [List.mem_singleton.mp he]; rfl⟩
  | deleteEventTimeTimer time => exact ⟨rfl, rfl, fun e he => by
      rw [List.mem_singleton.mp he]; rfl⟩
  | registerProcessingTimeTimer time => exact ⟨rfl, rfl, fun _ he => absurd he List.not_mem_nil⟩
  | deleteProcessingTimeTimer time => exact ⟨rfl, rfl, fun _ he => absurd he List.not_mem_nil⟩

/-- **A callback changes the timers by its calls only.** -/
theorem perform_called (env : Environment C Out)
    (side : String → Side → Fallible FlumeError C Unit) (callback : Callback Out Side σ)
    (s : ProcessState σ C) :
    ∃ calls, Called s ((callback.perform env side).runOn s).2 calls := by
  induction callback generalizing s with
  | done result fn =>
    refine ⟨[], ?_⟩
    rw [Callback.perform, runOn_bind_ok (runOn_modify _), runOn_outcome]
    exact (Called.refl _).of_eq rfl rfl
  | collect element next ih =>
    obtain ⟨calls, hcalls⟩ := ih ((env.collector.push element).runOn s.outside).1
      { s with outside := ((env.collector.push element).runOn s.outside).2 }
    exact ⟨calls, hcalls.of_eq rfl rfl⟩
  | sideOutput tagId value next ih =>
    obtain ⟨calls, hcalls⟩ := ih ((side tagId value).runOn s.outside).1
      { s with outside := ((side tagId value).runOn s.outside).2 }
    exact ⟨calls, hcalls.of_eq rfl rfl⟩
  | timer call next ih =>
    obtain ⟨calls, hcalls⟩ := ih ((callTimers call).runOn s).2
    exact ⟨_, (called_callTimers call s).trans hcalls⟩
  | currentWatermark next ih => exact ih s.timerService.currentWatermark s
  | currentProcessingTime next ih =>
    obtain ⟨calls, hcalls⟩ := ih ((env.clock.runOn s.outside).1.toOption.getD 0)
      { s with outside := (env.clock.runOn s.outside).2 }
    exact ⟨calls, hcalls.of_eq rfl rfl⟩

/-- A callback that neither registers nor deletes timers. -/
def Callback.LeavesTimers : Callback Out Side σ → Prop
  | .done _ _ => True
  | .collect _ next => ∀ answer, (next answer).LeavesTimers
  | .sideOutput _ _ next => ∀ answer, (next answer).LeavesTimers
  | .timer _ _ => False
  | .currentWatermark next => ∀ watermark, (next watermark).LeavesTimers
  | .currentProcessingTime next => ∀ time, (next time).LeavesTimers

theorem Callback.LeavesTimers.history {callback : Callback Out Side σ}
    (h : callback.LeavesTimers) (env : Environment C Out)
    (side : String → Side → Fallible FlumeError C Unit) (s : ProcessState σ C) :
    ((callback.perform env side).runOn s).2.history = s.history := by
  induction callback generalizing s with
  | done result fn =>
    rw [Callback.perform, runOn_bind_ok (runOn_modify _), runOn_outcome]
  | collect element next ih => exact ih _ (h _) _
  | sideOutput tagId value next ih => exact ih _ (h _) _
  | timer call next => exact h.elim
  | currentWatermark next ih => exact ih _ (h _) _
  | currentProcessingTime next ih => exact ih _ (h _) _

/-- A callback that returns `Ok`, whatever the answers to its calls are. -/
def Callback.ReturnsOk : Callback Out Side σ → Prop
  | .done result _ => result = .ok ()
  | .collect _ next => ∀ answer, (next answer).ReturnsOk
  | .sideOutput _ _ next => ∀ answer, (next answer).ReturnsOk
  | .timer _ next => next.ReturnsOk
  | .currentWatermark next => ∀ watermark, (next watermark).ReturnsOk
  | .currentProcessingTime next => ∀ time, (next time).ReturnsOk

theorem Callback.ReturnsOk.result {callback : Callback Out Side σ} (h : callback.ReturnsOk)
    (env : Environment C Out) (side : String → Side → Fallible FlumeError C Unit)
    (s : ProcessState σ C) : ((callback.perform env side).runOn s).1 = .ok () := by
  induction callback generalizing s with
  | done result fn =>
    rw [Callback.perform, runOn_bind_ok (runOn_modify _), runOn_outcome]
    exact h
  | collect element next ih => exact ih _ (h _) _
  | sideOutput tagId value next ih => exact ih _ (h _) _
  | timer call next ih => exact ih h ((callTimers call).runOn s).2
  | currentWatermark next ih => exact ih _ (h _) _
  | currentProcessingTime next ih => exact ih _ (h _) _

/-! ## The turns of a watermark -/

/-- A call of `on_timer`: the timer, the calls that the callback makes, and its result. -/
structure Turn where
  timer : Timer
  calls : List TimerEvent
  result : Except FlumeError Unit

/-- What happens in a turn. -/
def Turn.events (turn : Turn) : List TimerEvent := .onTimer turn.timer turn.timer.key :: turn.calls

namespace TimedOperator

section Turns

variable (op : TimedOperator In Out Side σ C) (env : Environment C Out) (watermark : Watermark)

/-- The turns of the timers, up to the first that fails. -/
def turns : List Timer → ProcessState σ C → List Turn
  | [], _ => []
  | timer :: timers, s =>
    let fired := (op.fire env watermark timer).runOn s
    ⟨timer, fired.2.history.drop (s.history.length + 1), fired.1⟩ ::
      match fired.1 with
      | .ok _ => turns timers fired.2
      | .error _ => []

/-- The timers that a watermark makes due. -/
def due (s : ProcessState σ C) : List Timer :=
  (s.timerService.queue.fireEventTimeUpTo watermark.timestamp).1

/-- The turns of an element; only a watermark has some. -/
def turnsOf (s : ProcessState σ C) : StreamElement In → List Turn
  | .watermark watermark =>
    op.turns env watermark (due watermark s) ((takeDue watermark).runOn s).2
  | _ => []

variable {op env watermark}

/-- From `s` to `s'` the turns were taken. -/
structure Taken (s s' : ProcessState σ C) (turns : List Turn) : Prop where
  history : s'.history = s.history ++ turns.flatMap Turn.events
  timers : s'.timers = (updates (turns.flatMap Turn.calls)).foldl apply s.timers
  isCall : ∀ turn ∈ turns, ∀ e ∈ turn.calls, e.update?.isSome

/-- The state in which a timer's callback starts. -/
def firing (timer : Timer) (s : ProcessState σ C) : ProcessState σ C :=
  { s with
    timerService := s.timerService.setCurrentKey timer.key
    history := s.history ++ [.onTimer timer timer.key] }

theorem runOn_fire (op : TimedOperator In Out Side σ C) (env : Environment C Out)
    (watermark : Watermark) (timer : Timer) (s : ProcessState σ C) : ∃ side,
    (op.fire env watermark timer).runOn s =
      ((op.onTimer s.fn timer ⟨watermark.timestamp⟩).perform env side).runOn (firing timer s) :=
  ⟨_, rfl⟩

/-- **One turn.** -/
theorem fire_called (timer : Timer) (s : ProcessState σ C) :
    ∃ calls, ((op.fire env watermark timer).runOn s).2.history =
        s.history ++ .onTimer timer timer.key :: calls ∧
      ((op.fire env watermark timer).runOn s).2.timers = (updates calls).foldl apply s.timers ∧
      ∀ e ∈ calls, e.update?.isSome := by
  obtain ⟨side, hfire⟩ := runOn_fire op env watermark timer s
  obtain ⟨calls, hcalls⟩ := perform_called env side
    (op.onTimer s.fn timer ⟨watermark.timestamp⟩) (firing timer s)
  rw [hfire]
  refine ⟨calls, ?_, hcalls.timers, hcalls.isCall⟩
  rw [List.append_cons]
  exact hcalls.history

/-- **The turns of a watermark.** -/
theorem forM_fire_taken (timers : List Timer) (s : ProcessState σ C) :
    Taken s ((timers.forM (op.fire env watermark)).runOn s).2 (op.turns env watermark timers s) := by
  induction timers generalizing s with
  | nil => exact ⟨(List.append_nil _).symm, rfl, fun _ h => absurd h List.not_mem_nil⟩
  | cons timer timers ih =>
    obtain ⟨calls, hhistory, htimers, hcalls⟩ := @fire_called _ _ _ _ _ op env watermark timer s
    have hdrop : ((op.fire env watermark timer).runOn s).2.history.drop (s.history.length + 1) =
        calls := by
      rw [hhistory, List.append_cons, ← List.length_singleton (a := TimerEvent.onTimer timer
        timer.key), ← List.length_append, List.drop_left]
    rw [runOn_forM_cons, runOn_bind, turns]
    rw [hdrop]
    rcases hfire : (op.fire env watermark timer).runOn s with ⟨e | ⟨⟩, s₁⟩
    · rw [hfire] at hhistory htimers
      refine ⟨?_, ?_, fun turn hturn => ?_⟩
      · rw [List.flatMap_singleton]
        exact hhistory
      · rw [List.flatMap_singleton]
        exact htimers
      · rw [List.mem_singleton.mp hturn]
        exact hcalls
    · rw [hfire] at hhistory htimers
      have hrest := ih s₁
      refine ⟨?_, ?_, fun turn hturn => ?_⟩
      · rw [List.flatMap_cons, ← List.append_assoc]
        exact hrest.history.trans (congrArg (· ++ _) hhistory)
      · rw [List.flatMap_cons, updates_append, List.foldl_append]
        exact hrest.timers.trans (congrArg (List.foldl apply · _) htimers)
      · rcases List.mem_cons.mp hturn with rfl | hturn
        · exact hcalls
        · exact hrest.isCall turn hturn

theorem map_timer_turns (timers : List Timer) (s : ProcessState σ C) :
    (op.turns env watermark timers s).map Turn.timer <+: timers ∧
      (((timers.forM (op.fire env watermark)).runOn s).1 = .ok () →
        (op.turns env watermark timers s).map Turn.timer = timers) ∧
      ((∀ turn ∈ op.turns env watermark timers s, turn.result = .ok ()) →
        ((timers.forM (op.fire env watermark)).runOn s).1 = .ok ()) := by
  induction timers generalizing s with
  | nil => exact ⟨List.prefix_rfl, fun _ => rfl, fun _ => rfl⟩
  | cons timer timers ih =>
    rw [runOn_forM_cons, runOn_bind, turns]
    rcases hfire : (op.fire env watermark timer).runOn s with ⟨e | ⟨⟩, s₁⟩
    · refine ⟨⟨timers, rfl⟩, fun h => (by cases h), fun h => ?_⟩
      have := h _ List.mem_cons_self
      cases this
    · obtain ⟨hpre, hall, hok⟩ := ih s₁
      refine ⟨List.cons_prefix_cons.mpr ⟨rfl, hpre⟩, fun h => congrArg _ (hall h), fun h => ?_⟩
      exact hok fun turn hturn => h turn (List.mem_cons_of_mem _ hturn)

theorem result_turns (h : ∀ fn timer ctx, (op.onTimer fn timer ctx).ReturnsOk)
    (timers : List Timer) (s : ProcessState σ C) :
    ∀ turn ∈ op.turns env watermark timers s, turn.result = .ok () := by
  induction timers generalizing s with
  | nil => exact fun _ hturn => absurd hturn List.not_mem_nil
  | cons timer timers ih =>
    have hfire : ((op.fire env watermark timer).runOn s).1 = .ok () := by
      obtain ⟨side, hside⟩ := runOn_fire op env watermark timer s
      rw [hside]
      exact (h s.fn timer ⟨watermark.timestamp⟩).result env side _
    intro turn hturn
    rw [turns, hfire] at hturn
    rcases List.mem_cons.mp hturn with rfl | hturn
    · rfl
    · exact ih _ turn hturn

end Turns

/-! ## What the calls of the operator do -/

section Steps

variable {op : TimedOperator In Out Side σ C} {env : Environment C Out} {s : ProcessState σ C}

/-- **A record makes the calls of its callback.** -/
theorem step_record (record : Record In) :
    ∃ calls, Called s (op.step env s (.record record)) calls := by
  obtain ⟨calls, hcalls⟩ := perform_called env
    ((⟨record.timestamp, op.contextKey record⟩ : ProcessContext).sideOutput op.sideOutputs)
    (op.processElement s.fn (record.key.getD []) record.value
      ⟨record.timestamp, op.contextKey record⟩)
    { s with timerService := s.timerService.setCurrentKey (record.key.getD []) }
  exact ⟨calls, hcalls.of_eq rfl rfl⟩

theorem step_barrier (barrier : CheckpointBarrier) :
    (op.step env s (.checkpointBarrier barrier)).history = s.history ∧
      (op.step env s (.checkpointBarrier barrier)).timers = s.timers := by
  have hstep : op.step env s (.checkpointBarrier barrier) =
      { s with outside := ((env.collector.collectBarrier barrier).runOn s.outside).2 } := by
    unfold step process processBarrier
    rw [runOn_bind_ok runOn_onOutside, runOn_outcome]
  rw [hstep]
  exact ⟨rfl, rfl⟩

/-- What is left in the queue when the timers that are due are taken. -/
def remaining (watermark : Watermark) (s : ProcessState σ C) : SortedSet Timer :=
  (s.timers.splitOff (splitPoint watermark.timestamp)).2

/-- **A watermark takes the turns of the timers that are due**, all of them and is forwarded unless
one fails. -/
theorem step_watermark (op : TimedOperator In Out Side σ C) (env : Environment C Out)
    (s : ProcessState σ C) (watermark : Watermark) :
    (op.step env s (.watermark watermark)).timers =
        (updates ((op.turnsOf env s (.watermark watermark)).flatMap Turn.calls)).foldl apply
          (remaining watermark s) ∧
      (∀ turn ∈ op.turnsOf env s (.watermark watermark), ∀ e ∈ turn.calls, e.update?.isSome) ∧
      (op.turnsOf env s (.watermark watermark)).map Turn.timer <+: due watermark s ∧
      ((op.turnsOf env s (.watermark watermark)).map Turn.timer = due watermark s ∧
          (op.step env s (.watermark watermark)).history = s.history ++
            (op.turnsOf env s (.watermark watermark)).flatMap Turn.events ++
              [.forwarded watermark] ∨
        ((op.process env (.watermark watermark)).runOn s).1 ≠ .ok () ∧
          (∃ turn ∈ op.turnsOf env s (.watermark watermark), turn.result ≠ .ok ()) ∧
          (op.step env s (.watermark watermark)).history = s.history ++
            (op.turnsOf env s (.watermark watermark)).flatMap Turn.events) := by
  have htaken := @forM_fire_taken _ _ _ _ _ op env watermark (due watermark s)
    ((takeDue watermark).runOn s).2
  obtain ⟨hpre, hall, hok⟩ := @map_timer_turns _ _ _ _ _ op env watermark (due watermark s)
    ((takeDue watermark).runOn s).2
  have hprocess : (op.process env (.watermark watermark)).runOn s = ((do
      (due watermark s).forM (op.fire env watermark)
      modify fun s => { s with history := s.history ++ [.forwarded watermark] }
      let answer ← onOutside (env.collector.collectWatermark watermark)
      outcome answer) : ProcessCall σ C Unit).runOn ((takeDue watermark).runOn s).2 := rfl
  unfold step turnsOf
  rw [hprocess, runOn_bind]
  rcases hfires : ((due watermark s).forM (op.fire env watermark)).runOn
    ((takeDue watermark).runOn s).2 with ⟨e | ⟨⟩, s₁⟩
  · rw [hfires] at htaken hok
    refine ⟨htaken.timers, htaken.isCall, hpre, Or.inr ⟨fun h => (by cases h), ?_, htaken.history⟩⟩
    by_contra hnone
    push Not at hnone
    have := hok hnone
    cases this
  · rw [hfires] at htaken hall
    dsimp only
    rw [runOn_bind_ok (runOn_modify _), runOn_bind_ok runOn_onOutside, runOn_outcome]
    refine ⟨htaken.timers, htaken.isCall, hpre, Or.inl ⟨hall rfl, ?_⟩⟩
    exact congrArg (· ++ _) htaken.history

end Steps

end TimedOperator
end Flume
