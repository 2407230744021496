import Flume.Core.WindowBatch
import Flume.Core.WindowJoin

/-!
# How often a window fires

The operators keep no memory of the watermark: a record that comes after its window was fired and
dropped creates the window again, and the next watermark that passes it fires it once more. The
build is one with overflow checks: an assignment that overflows ends the run.

* `WindowOperator.firings`, `WindowedOperator.firings`: the firings of a run;
* `count_firings`: they are those of a group-by with late elements;
* `Reopens`: a window has a record, is passed, gets another record and is passed again;
* **`windows_fireOnce_iff`**: for any order of records and watermarks every key and window fires at
  most once, unless a window reopens.
-/

namespace Flume

open Fallible Entries GroupBy
open WindowOperator (Input keysOf history passes keysOf_eq assignedPrefix onCollector)

namespace WindowOperator

variable {σ In Acc Out C : Type}

/-- The keys and windows that an element fires. -/
def fired (op : WindowOperator σ In Acc Out) : Input In → List WindowKey
  | .watermark w iter => (op.evaluate w.timestamp (iter.order op.accumulators.keys)).2.1
  | _ => []

/-- All firings of a run, in order. -/
def firings (collector : Collector C Out) :
    List (Input In) → WindowOperator σ In Acc Out × C → List WindowKey
  | [], _ => []
  | input :: inputs, s =>
    s.1.fired input ++
      match (process collector input).runOn s with
      | (.ok _, s') => firings collector inputs s'
      | (.error _, _) => []

theorem firings_toWindowed {In Acc Out C : Type} (collector : Collector C Out)
    (inputs : List (Input In)) {s : WindowOperator Unit In Acc Out × C}
    {t : WindowedOperator In Acc Out × C} (h : IsWindowed s t) :
    firings collector inputs s = WindowedOperator.firings collector inputs t := by
  induction inputs generalizing s t with
  | nil => rfl
  | cons input inputs ih =>
    have hfired : s.1.fired input = t.1.fired input := by
      obtain ⟨htrigger, rfl⟩ := h
      cases input with
      | record r => rfl
      | watermark w iter =>
        rw [fired, s.1.evaluate_eventTime htrigger, WindowedOperator.fired_watermark,
          WindowedOperator.evaluate_eq]
        rfl
      | barrier b => rfl
    obtain ⟨hresult, hstate⟩ := isWindowed_process collector input s t h
    rw [firings, WindowedOperator.firings, hfired]
    rcases hs : (process collector input).runOn s with ⟨_ | _, s'⟩ <;>
      rcases ht : (WindowedOperator.process collector input).runOn t with ⟨_ | _, t'⟩ <;>
      rw [hs, ht] at hresult hstate <;> cases hresult
    exact congrArg _ (ih hstate)

end WindowOperator

namespace WindowedOperator

variable {In B Out C : Type}

/-! ## The firings of a group-by with late elements -/

theorem history_cons_record (r : Record In) (inputs : List (Input In)) :
    history (.record r :: inputs) = .add r :: history inputs := rfl

theorem history_cons_watermark (w : Watermark) (iter : IterOrder WindowKey)
    (inputs : List (Input In)) :
    history (.watermark w iter :: inputs) = .close (passes w) :: history inputs := rfl

theorem history_cons_barrier (b : CheckpointBarrier) (inputs : List (Input In)) :
    history (.barrier b :: inputs) = history inputs := rfl

theorem count_fired (op : WindowedOperator In B Out) (w : Watermark) (iter : IterOrder WindowKey)
    (wk : WindowKey) :
    (op.fired (.watermark w iter)).count wk =
      if decide (wk ∈ op.state) && passes w wk then 1 else 0 := by
  have hnodup : (op.fired (.watermark w iter)).Nodup := by
    have hkeys : op.state.keys.Nodup := op.state.nodupKeys
    exact (op.fired_perm w iter).nodup_iff.mpr (hkeys.filter _)
  by_cases hwk : wk ∈ op.fired (.watermark w iter)
  · rw [List.count_eq_one_of_mem hnodup hwk, if_pos]
    simpa using op.mem_fired.mp hwk
  · rw [List.count_eq_zero_of_not_mem hwk, if_neg]
    intro h
    exact hwk (op.mem_fired.mpr (by simpa using h))

theorem firings_cons_ok {collector : Collector C Out} {input : Input In} {inputs : List (Input In)}
    {s s' : WindowedOperator In B Out × C} (h : (process collector input).runOn s = (.ok (), s')) :
    firings collector (input :: inputs) s = s.1.fired input ++ firings collector inputs s' := by
  rw [firings, h]

theorem firings_cons_error {collector : Collector C Out} {input : Input In}
    {inputs : List (Input In)} {s s' : WindowedOperator In B Out × C} {e : Failure}
    (h : (process collector input).runOn s = (.error e, s')) :
    firings collector (input :: inputs) s = s.1.fired input := by
  rw [firings, h, List.append_nil]

theorem assignedPrefix_cons (assigner : WindowAssigner) (input : Input In)
    (inputs : List (Input In)) :
    assignedPrefix assigner (input :: inputs) =
      if input.isAssigned assigner then input :: assignedPrefix assigner inputs else [] :=
  List.takeWhile_cons

/-- What an element that succeeds changes: the firings of a group so far and to come. -/
theorem givenUp_cons {collector : Collector C Out} {input : Input In} {inputs : List (Input In)}
    {s s' : WindowedOperator In B Out × C} (h : (process collector input).runOn s = (.ok (), s'))
    (wk : WindowKey) :
    input.isAssigned s.1.assigner = true ∧ s'.1.assigner = s.1.assigner ∧
      givenUp (keysOf s.1.assigner) wk (decide (wk ∈ s.1.state)) (history (input :: inputs)) =
        (s.1.fired input).count wk + givenUp (keysOf s.1.assigner) wk (decide (wk ∈ s'.1.state))
          (history inputs) := by
  cases input with
  | record r =>
    obtain ⟨windows, hok, hconfig, hmem⟩ := processRecord_ok h
    refine ⟨?_, hconfig.1, ?_⟩
    · show (s.1.assigner r.timestamp).isOk = true
      rw [hok]; rfl
    · have hcount : (s.1.fired (.record r)).count wk = 0 := rfl
      rw [history_cons_record, givenUp, hcount, zero_add, keysOf_eq hok]
      congr 1
      rw [Bool.eq_iff_iff, Bool.or_eq_true, decide_eq_true_iff, decide_eq_true_iff,
        decide_eq_true_iff]
      exact (hmem wk).symm
  | watermark w iter =>
    obtain ⟨hconfig, hmem⟩ := processWatermark_ok h
    refine ⟨rfl, hconfig.1, ?_⟩
    rw [history_cons_watermark, givenUp, count_fired]
    congr 2
    rw [Bool.eq_iff_iff, Bool.and_eq_true, decide_eq_true_iff, decide_eq_true_iff,
      Bool.not_eq_true']
    exact (hmem wk).symm
  | barrier b =>
    have hkeeps := onCollector_keeps (collector.collectBarrier b) s
    have hcall : (onCollector (collector.collectBarrier b) : Call In B Out C Unit).runOn s =
      (.ok (), s') := h
    rw [hcall] at hkeeps
    have hkeeps' : s'.1 = s.1 := hkeeps
    rw [hkeeps', history_cons_barrier]
    exact ⟨rfl, rfl, (zero_add _).symm⟩

theorem count_fired_le (s : WindowedOperator In B Out × C) (input : Input In)
    (inputs : List (Input In)) (wk : WindowKey) :
    (s.1.fired input).count wk ≤ givenUp (keysOf s.1.assigner) wk (decide (wk ∈ s.1.state))
      (history (assignedPrefix s.1.assigner (input :: inputs))) := by
  cases input with
  | record r => exact Nat.zero_le _
  | watermark w iter =>
    have hassigned : (Input.watermark w iter : Input In).isAssigned s.1.assigner = true := rfl
    rw [assignedPrefix_cons, if_pos hassigned, history_cons_watermark, givenUp, count_fired]
    exact Nat.le_add_right _ _
  | barrier b => exact Nat.zero_le _

/-- **The firings of a window** are those of its group: at most, and exactly if no call fails. -/
theorem count_firings (collector : Collector C Out) (wk : WindowKey) (inputs : List (Input In))
    (s : WindowedOperator In B Out × C) :
    (firings collector inputs s).count wk ≤ givenUp (keysOf s.1.assigner) wk
        (decide (wk ∈ s.1.state)) (history (assignedPrefix s.1.assigner inputs)) ∧
      (((run collector (assignedPrefix s.1.assigner inputs)).runOn s).1 = .ok () →
        (firings collector inputs s).count wk = givenUp (keysOf s.1.assigner) wk
          (decide (wk ∈ s.1.state)) (history (assignedPrefix s.1.assigner inputs))) := by
  induction inputs generalizing s with
  | nil => exact ⟨le_refl _, fun _ => rfl⟩
  | cons input inputs ih =>
    rcases hcall : (process collector input).runOn s with ⟨e | _, s'⟩
    · rw [firings_cons_error hcall]
      refine ⟨count_fired_le s input inputs wk, fun hok => ?_⟩
      rw [assignedPrefix_cons] at hok ⊢
      split_ifs at hok ⊢ with hassigned
      · unfold run at hok
        rw [runOn_forM_cons, runOn_bind_error hcall] at hok
        cases hok
      · cases input with
        | record r => rfl
        | watermark w iter => exact absurd rfl hassigned
        | barrier b => exact absurd rfl hassigned
    · have hrest := @givenUp_cons _ _ _ _ _ _ (assignedPrefix s.1.assigner inputs) _ _ hcall wk
      obtain ⟨hassigned, hconfig, hgiven⟩ := hrest
      obtain ⟨hle, heq⟩ := ih s'
      rw [hconfig] at hle heq
      rw [firings_cons_ok hcall, List.count_append, assignedPrefix_cons, if_pos hassigned, hgiven]
      refine ⟨Nat.add_le_add_left hle _, fun hok => ?_⟩
      unfold run at hok
      rw [runOn_forM_cons, runOn_bind_ok hcall] at hok
      exact congrArg _ (heq hok)

/-! ## Runs that do not fail -/

/-- Late or not, the records whose windows can be computed are processed. -/
theorem run_assignedPrefix_ok {assigner : WindowAssigner} {contents : WindowContents In B Out}
    (hends : EndsLate assigner) (hcomputes : contents.Computes) (inputs : List (Input In))
    (op : WindowedOperator In B Out) (out : List (StreamElement Out))
    (hconfig : SameConfig (new assigner contents) op)
    (hstop : ∀ wk ∈ op.state, 1 ≤ wk.window.stop) :
    ((run (TestCollector Out) (assignedPrefix assigner inputs)).runOn (op, out)).1 = .ok () := by
  induction inputs generalizing op out with
  | nil => rfl
  | cons input inputs ih =>
    rw [assignedPrefix_cons]
    split_ifs with hassigned
    swap
    · rfl
    unfold run at ih ⊢
    rw [runOn_forM_cons]
    cases input with
    | record r =>
      obtain ⟨windows, hok⟩ : ∃ windows, assigner r.timestamp = .ok windows := by
        change (assigner r.timestamp).isOk = true at hassigned
        cases hassigner : assigner r.timestamp with
        | ok windows => exact ⟨windows, rfl⟩
        | error p => rw [hassigner] at hassigned; cases hassigned
      obtain ⟨op', hcall, hconfig', hstate⟩ := op.runOn_processRecord (by
        rw [hconfig.1]; exact hok) out
      rw [process, runOn_bind_ok hcall]
      refine ih op' out (hconfig.trans hconfig') fun wk hwk => ?_
      rw [hstate, mem_upsertAll] at hwk
      rcases hwk with hwk | hwk
      · exact hstop wk hwk
      · obtain ⟨w, hw, rfl⟩ := List.mem_map.mp hwk
        exact hends _ _ hok w hw
    | watermark w iter =>
      obtain ⟨op', hcall, hconfig', hstate⟩ := op.runOn_processWatermark out w iter fun wk hwk _ => by
        obtain ⟨b, hb⟩ := Option.isSome_iff_exists.mp (AList.lookup_isSome.mpr hwk)
        obtain ⟨results, hresults⟩ := hcomputes wk b (hstop wk hwk)
        exact ⟨b, results, hb, by rw [hconfig.2]; exact hresults⟩
      rw [process, runOn_bind_ok hcall]
      refine ih op' _ (hconfig.trans hconfig') fun wk hwk => hstop wk ?_
      rw [← AList.lookup_isSome, hstate] at hwk
      split_ifs at hwk
      · cases hwk
      · exact AList.lookup_isSome.mp hwk
    | barrier b =>
      rw [runOn_bind_ok (show (process (TestCollector Out) (.barrier b)).runOn (op, out) =
        (.ok (), (op, out ++ [.checkpointBarrier b])) from rfl)]
      exact ih op _ hconfig hstop

end WindowedOperator

/-! ## When every window fires at most once -/

section FireOnce

variable {In L R Acc Out C : Type}

/-- A key and window gets a record, is passed by a watermark, gets a late record, and is passed
again; all before the first record whose windows cannot be computed. -/
def Reopens (assigner : WindowAssigner) (inputs : List (Input In)) (wk : WindowKey) : Prop :=
  ∃ (r : Record In) (w : Watermark) (iter : IterOrder WindowKey) (late : Record In)
    (w' : Watermark) (iter' : IterOrder WindowKey),
    wk ∈ keysOf assigner r ∧ passes w wk = true ∧ wk ∈ keysOf assigner late ∧
      passes w' wk = true ∧
      [.record r, .watermark w iter, .record late, .watermark w' iter'].Sublist
        (assignedPrefix assigner inputs)

theorem event_eq_add {input : Input In} {r : Record In} (h : input.event = some (.add r)) :
    input = .record r := by
  cases input <;> cases h
  rfl

theorem event_eq_close {input : Input In} {p : WindowKey → Bool}
    (h : input.event = some (.close p)) : ∃ w iter, input = .watermark w iter ∧ p = passes w := by
  cases input <;> cases h
  exact ⟨_, _, rfl, rfl⟩

theorem exists_of_sublist_history {inputs : List (Input In)}
    {events : List (Event WindowKey (Record In))} (h : events.Sublist (history inputs)) :
    ∃ xs : List (Input In), xs.Sublist inputs ∧ xs.map Input.event = events.map some := by
  obtain ⟨xs, hsub, rfl⟩ := List.sublist_filterMap_iff.mp h
  refine ⟨xs.filter fun x => x.event.isSome, List.filter_sublist.trans hsub, ?_⟩
  clear h hsub
  induction xs with
  | nil => rfl
  | cons x xs ih =>
    cases hx : x.event with
    | none => rw [List.filter_cons_of_neg (by simp [hx]), List.filterMap_cons_none hx, ih]
    | some e =>
      rw [List.filter_cons_of_pos (by simp [hx]), List.filterMap_cons_some hx, List.map_cons, ih,
        hx, List.map_cons]

theorem reopens_iff {assigner : WindowAssigner} {inputs : List (Input In)} {wk : WindowKey} :
    Reopens assigner inputs wk ↔
      2 ≤ givenUp (keysOf assigner) wk false (history (assignedPrefix assigner inputs)) := by
  rw [two_le_givenUp]
  constructor
  · rintro ⟨r, w, iter, late, w', iter', hr, hw, hlate, hw', hsub⟩
    exact ⟨r, passes w, late, passes w', hr, hw, hlate, hw', hsub.filterMap Input.event⟩
  · rintro ⟨r, p, late, p', hr, hp, hlate, hp', hsub⟩
    obtain ⟨xs, hxs, hmap⟩ := exists_of_sublist_history hsub
    obtain ⟨x₁, xs₁, rfl, h₁, hmap₁⟩ := List.map_eq_cons_iff.mp hmap
    obtain ⟨x₂, xs₂, rfl, h₂, hmap₂⟩ := List.map_eq_cons_iff.mp hmap₁
    obtain ⟨x₃, xs₃, rfl, h₃, hmap₃⟩ := List.map_eq_cons_iff.mp hmap₂
    obtain ⟨x₄, xs₄, rfl, h₄, hmap₄⟩ := List.map_eq_cons_iff.mp hmap₃
    obtain rfl := List.map_eq_nil_iff.mp hmap₄
    obtain ⟨w, iter, rfl, rfl⟩ := event_eq_close h₂
    obtain ⟨w', iter', rfl, rfl⟩ := event_eq_close h₄
    rw [event_eq_add h₁, event_eq_add h₃] at hxs
    exact ⟨r, w, iter, late, w', iter', hr, hp, hlate, hp', hxs⟩

/-- Every key and window occurs at most once. -/
def FiresOnce (firings : List WindowKey) : Prop := ∀ wk, firings.count wk ≤ 1

theorem firesOnce_of_not_reopens {B : Type} (collector : Collector C Out) (c : C)
    (assigner : WindowAssigner) (contents : WindowContents In B Out) (inputs : List (Input In))
    (h : ∀ wk, ¬ Reopens assigner inputs wk) :
    FiresOnce (WindowedOperator.firings collector inputs
      (WindowedOperator.new assigner contents, c)) := by
  intro wk
  have hle := (WindowedOperator.count_firings collector wk inputs
    (WindowedOperator.new assigner contents, c)).1
  have hnot := h wk
  rw [reopens_iff] at hnot
  have hnew : decide (wk ∈ (WindowedOperator.new assigner contents).state) = false := rfl
  rw [hnew] at hle
  exact hle.trans (Nat.lt_succ_iff.mp (not_le.mp hnot))

theorem not_firesOnce_of_reopens {B : Type} {assigner : WindowAssigner}
    {contents : WindowContents In B Out} (hends : EndsLate assigner)
    (hcomputes : contents.Computes) {inputs : List (Input In)} {wk : WindowKey}
    (h : Reopens assigner inputs wk) :
    ¬ FiresOnce (WindowedOperator.firings (TestCollector Out) inputs
      (WindowedOperator.new assigner contents, [])) := by
  intro honce
  have hok := WindowedOperator.run_assignedPrefix_ok hends hcomputes inputs
    (WindowedOperator.new assigner contents) [] ⟨rfl, rfl⟩ (by intro wk hwk; cases hwk)
  have heq := (WindowedOperator.count_firings (TestCollector Out) wk inputs
    (WindowedOperator.new assigner contents, [])).2 hok
  have hnew : decide (wk ∈ (WindowedOperator.new assigner contents).state) = false := rfl
  have hle := honce wk
  rw [heq, hnew] at hle
  exact absurd ((reopens_iff.mp h).trans hle) (by decide)

/-- **When every window fires at most once:** if no window reopens, and for assigners whose windows
do not end at 0 only then. -/
theorem windows_fireOnce_iff (assigner : WindowAssigner) (agg : AggregateFunction In Acc Out)
    (cogroupFn : Bytes → List L → List R → List Out) (inputs : List (Input In))
    (pairInputs : List (Input (Either L R))) :
    (((∀ wk, ¬ Reopens assigner inputs wk) → ∀ {C : Type} (collector : Collector C Out) (c : C),
        FiresOnce (WindowOperator.firings collector inputs (WindowOperator.new assigner agg, c))) ∧
      (EndsLate assigner →
        (FiresOnce (WindowOperator.firings (TestCollector Out) inputs
          (WindowOperator.new assigner agg, [])) ↔ ∀ wk, ¬ Reopens assigner inputs wk))) ∧
    ((∀ wk, ¬ Reopens assigner pairInputs wk) → ∀ {C : Type} (collector : Collector C Out) (c : C),
        FiresOnce (WindowedOperator.firings collector pairInputs
          (WindowCogroupOperator.new assigner cogroupFn, c))) ∧
      (EndsLate assigner →
        (FiresOnce (WindowedOperator.firings (TestCollector Out) pairInputs
          (WindowCogroupOperator.new assigner cogroupFn, [])) ↔
            ∀ wk, ¬ Reopens assigner pairInputs wk)) := by
  have hwindowed : ∀ {C : Type} (collector : Collector C Out) (c : C),
      WindowOperator.firings collector inputs (WindowOperator.new assigner agg, c) =
        WindowedOperator.firings collector inputs
          (WindowedOperator.new assigner (WindowOperator.aggregated agg), c) :=
    fun collector c => WindowOperator.firings_toWindowed collector inputs ⟨rfl, rfl⟩
  refine ⟨⟨fun h C collector c => ?_, fun hends => ⟨fun h wk hreopens => ?_, fun h => ?_⟩⟩,
    fun h C collector c => ?_, fun hends => ⟨fun h wk hreopens => ?_, fun h => ?_⟩⟩
  · rw [hwindowed]
    exact firesOnce_of_not_reopens collector c assigner _ inputs h
  · rw [hwindowed] at h
    exact not_firesOnce_of_reopens hends (WindowOperator.aggregated_computes agg) hreopens h
  · rw [hwindowed]
    exact firesOnce_of_not_reopens _ _ assigner _ inputs h
  · exact firesOnce_of_not_reopens collector c assigner _ pairInputs h
  · exact not_firesOnce_of_reopens hends (cogroupContents_computes cogroupFn) hreopens h
  · exact firesOnce_of_not_reopens _ _ assigner _ pairInputs h

end FireOnce

/-- The record of time 7 comes after the watermark that has fired its window. -/
def lateInputs : List (Input ℤ) :=
  [.record ⟨5, 5, some [1]⟩, .watermark ⟨10⟩ (IterOrder.given _), .record ⟨7, 7, some [1]⟩,
    .watermark ⟨20⟩ (IterOrder.given _)]

/-- Two results for one key and window. -/
theorem lateInputs_fire_twice :
    ¬ FiresOnce (WindowOperator.firings (TestCollector ℤ) lateInputs
        (WindowOperator.new (TumblingWindow.mk 10).assignWindows WindowOperator.SumAggregator, [])) ∧
      WindowOperator.output (TumblingWindow.mk 10).assignWindows WindowOperator.SumAggregator
          lateInputs =
        [.record ⟨5, 9, some [1]⟩, .watermark ⟨10⟩, .record ⟨7, 9, some [1]⟩, .watermark ⟨20⟩] := by
  have hcount : (WindowOperator.firings (TestCollector ℤ) lateInputs
      (WindowOperator.new (TumblingWindow.mk 10).assignWindows WindowOperator.SumAggregator,
        [])).count ⟨[1], ⟨0, 10⟩⟩ = 2 := by decide +kernel
  refine ⟨fun h => ?_, by decide +kernel⟩
  have hle := h ⟨[1], ⟨0, 10⟩⟩
  rw [hcount] at hle
  exact absurd hle (by decide)

end Flume
