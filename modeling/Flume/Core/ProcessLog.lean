import Flume.Core.ProcessTurns

/-!
# What a process function sees of the timers

The history of an operator is written beside the calls of the callbacks. A process function that
keeps a log of its own, written by the callbacks themselves, logs the same calls of `on_timer`.

* `Callback.mapFn`, **`runOn_mapFn`**: a callback that leaves another state behind does the same;
* `TimedOperator.logging`: the callbacks of timers write their timers into the function's state;
* **`logging_run`**: what is logged after a run are the timers in the history.
-/

namespace Flume

open Fallible

variable {In Out Side σ τ C : Type}

/-! ## Callbacks that leave another state behind -/

/-- The callback with another state at its end. -/
def Callback.mapFn (f : σ → τ) : Callback Out Side σ → Callback Out Side τ
  | .done result fn => .done result (f fn)
  | .collect element next => .collect element fun answer => (next answer).mapFn f
  | .sideOutput tagId value next => .sideOutput tagId value fun answer => (next answer).mapFn f
  | .timer call next => .timer call (next.mapFn f)
  | .currentWatermark next => .currentWatermark fun watermark => (next watermark).mapFn f
  | .currentProcessingTime next => .currentProcessingTime fun time => (next time).mapFn f

/-- The operator with another state of the process function. -/
def ProcessState.withFn (s : ProcessState σ C) (fn : τ) : ProcessState τ C :=
  ⟨fn, s.timerService, s.outside, s.history⟩

/-- **The state that a callback leaves behind** is all that differs. -/
theorem runOn_mapFn (env : Environment C Out) (side : String → Side → Fallible FlumeError C Unit)
    (f : σ → τ) (callback : Callback Out Side σ) (s : ProcessState σ C) (fn : τ) :
    ((callback.mapFn f).perform env side).runOn (s.withFn fn) =
      (((callback.perform env side).runOn s).1, ((callback.perform env side).runOn s).2.withFn
        (f ((callback.perform env side).runOn s).2.fn)) := by
  induction callback generalizing s with
  | done result fn' =>
    rw [Callback.mapFn, Callback.perform, Callback.perform, runOn_bind_ok (runOn_modify _),
      runOn_bind_ok (runOn_modify _), runOn_outcome, runOn_outcome]
    rfl
  | collect element next ih =>
    exact ih ((env.collector.push element).runOn s.outside).1
      { s with outside := ((env.collector.push element).runOn s.outside).2 }
  | sideOutput tagId value next ih =>
    exact ih ((side tagId value).runOn s.outside).1
      { s with outside := ((side tagId value).runOn s.outside).2 }
  | timer call next ih => exact ih ((callTimers call).runOn s).2
  | currentWatermark next ih => exact ih s.timerService.currentWatermark s
  | currentProcessingTime next ih =>
    exact ih ((env.clock.runOn s.outside).1.toOption.getD 0)
      { s with outside := (env.clock.runOn s.outside).2 }

/-! ## The log -/

/-- The timer of a call of `on_timer`. -/
def TimerEvent.calledBack? : TimerEvent → Option Timer
  | onTimer timer _ => some timer
  | _ => none

/-- The timers for which `on_timer` was called. -/
def calledBack (history : List TimerEvent) : List Timer :=
  history.filterMap TimerEvent.calledBack?

theorem calledBack_calls {calls : List TimerEvent} (h : ∀ e ∈ calls, e.update?.isSome) :
    calledBack calls = [] := by
  refine List.filterMap_eq_nil_iff.mpr fun e he => ?_
  have hcall := h e he
  cases e with
  | onTimer timer key => cases hcall
  | _ => rfl

theorem calledBack_append (history events : List TimerEvent) :
    calledBack (history ++ events) = calledBack history ++ calledBack events :=
  List.filterMap_append

/-- An operator whose process function has logged the calls of `on_timer` so far. -/
def ProcessState.logged (s : ProcessState σ C) : ProcessState (σ × List Timer) C :=
  s.withFn (s.fn, calledBack s.history)

namespace TimedOperator

/-- The process function that writes down the timers that it is called back for. -/
def logging (op : TimedOperator In Out Side σ C) :
    TimedOperator In Out Side (σ × List Timer) C where
  contextKey := op.contextKey
  processElement fn key value ctx :=
    (op.processElement fn.1 key value ctx).mapFn fun fn' => (fn', fn.2)
  onTimer fn timer ctx := (op.onTimer fn.1 timer ctx).mapFn fun fn' => (fn', fn.2 ++ [timer])
  sideOutputs := op.sideOutputs

variable {op : TimedOperator In Out Side σ C} {env : Environment C Out}

/-- The second operator does what the first does, and has logged it. -/
def Logged (s : ProcessState σ C) (t : ProcessState (σ × List Timer) C) : Prop := t = s.logged

theorem logged_perform (side : String → Side → Fallible FlumeError C Unit)
    (callback : Callback Out Side σ) (s : ProcessState σ C) (fn : σ × List Timer) :
    ((callback.mapFn fun fn' => (fn', calledBack s.history)).perform env side).runOn (s.withFn fn) =
      (((callback.perform env side).runOn s).1,
        ((callback.perform env side).runOn s).2.logged) := by
  obtain ⟨calls, hcalled⟩ := perform_called env side callback s
  rw [runOn_mapFn]
  unfold ProcessState.logged
  rw [hcalled.history, calledBack_append, calledBack_calls hcalled.isCall, List.append_nil]

theorem related_processRecord (record : Record In) :
    Related Logged (op.processRecord env record) (op.logging.processRecord env record) := by
  rintro s _ rfl
  have hlog := @logged_perform _ _ _ _ env
    ((⟨record.timestamp, op.contextKey record⟩ : ProcessContext).sideOutput op.sideOutputs)
    (op.processElement s.fn (record.key.getD []) record.value
      ⟨record.timestamp, op.contextKey record⟩)
    { s with timerService := s.timerService.setCurrentKey (record.key.getD []) } s.logged.fn
  exact ⟨(congrArg Prod.fst hlog).symm, congrArg Prod.snd hlog⟩

/-- **A timer's callback** is logged when it is run. -/
theorem related_fire (watermark : Watermark) (timer : Timer) :
    Related Logged (op.fire env watermark timer) (op.logging.fire env watermark timer) := by
  rintro s _ rfl
  obtain ⟨side, hfire⟩ := runOn_fire op env watermark timer s
  obtain ⟨side', hfire'⟩ := runOn_fire op.logging env watermark timer s.logged
  -- timers have no side outputs
  obtain rfl : side = side' := by
    funext _ value
    exact value.elim
  have hfired : calledBack (firing timer s).history = calledBack s.history ++ [timer] :=
    calledBack_append _ _
  have hlog := @logged_perform _ _ _ _ env side (op.onTimer s.fn timer ⟨watermark.timestamp⟩)
    (firing timer s) s.logged.fn
  rw [hfired] at hlog
  unfold RelatedAt
  rw [hfire, hfire']
  exact ⟨(congrArg Prod.fst hlog).symm, congrArg Prod.snd hlog⟩

theorem related_onOutside {α : Type} (x : Fallible FlumeError C α) :
    Related Logged (onOutside x : ProcessCall σ C _) (onOutside x) := by
  rintro s _ rfl
  exact ⟨rfl, rfl⟩

theorem related_outcome {α : Type} (r : Except FlumeError α) :
    Related Logged (outcome r : ProcessCall σ C α) (outcome r) := by
  rintro s _ rfl
  unfold RelatedAt
  rw [runOn_outcome, runOn_outcome]
  exact ⟨rfl, rfl⟩

/-- **Every call** does the same with the log, and logs the callbacks of timers. -/
theorem related_process (input : StreamElement In) :
    Related Logged (op.process env input) (op.logging.process env input) := by
  cases input with
  | record record => exact related_processRecord record
  | watermark watermark =>
    have htake : Related Logged (takeDue watermark : ProcessCall σ C _) (takeDue watermark) := by
      rintro s _ rfl
      exact ⟨rfl, rfl⟩
    refine htake.bind fun fired => ?_
    refine (Related.forM (related_fire watermark) fired).bind fun _ => ?_
    refine (Related.modify ?_).bind fun _ => ?_
    · rintro s _ rfl
      have hforwarded : calledBack (s.history ++ [.forwarded watermark]) = calledBack s.history :=
        (calledBack_append _ _).trans (List.append_nil _)
      unfold Logged ProcessState.logged
      dsimp only
      rw [hforwarded]
      rfl
    · exact (related_onOutside _).bind fun answer => related_outcome answer
  | checkpointBarrier barrier =>
    exact (related_onOutside _).bind fun answer => related_outcome answer

/-- **The log of a process function** has the calls of `on_timer` that the history has, in the same
order, and everything else is as without it. -/
theorem logging_run (op : TimedOperator In Out Side σ C) (env : Environment C Out) (fn : σ)
    (outside : C) (inputs : List (StreamElement In)) :
    op.logging.run env (fn, []) outside inputs = (op.run env fn outside inputs).logged := by
  induction inputs using List.reverseRecOn with
  | nil => rfl
  | append_singleton inputs input ih =>
    unfold run at ih ⊢
    rw [Runs.exec_concat, Runs.exec_concat, ih]
    exact (related_process input _ _ rfl).2

end TimedOperator

end Flume
