import Flume.Core.WindowJoin

/-!
# When window arithmetic is safe

The size and the slide of windows are whole milliseconds, cut off to a `u64`, and nothing checks
them; the ends of windows are sums.

* `Safe`: the windows of a timestamp can be computed, they contain it, and each has a last
  millisecond;
* `TumblingWindow.safe_iff`, `SlidingWindow.safe_iff`: exactly when;
* `WindowOperator.run_ok_iff`, `WindowedOperator.run_ok_iff`: a run panics if and only if it reaches
  a record whose windows cannot be computed;
* **`windowArithmetic_iff`**: the same for all windows that can be asked for.
-/

namespace Flume

open Fallible Entries
open WindowOperator (Input checked returned onCollector)

/-- The windows of a timestamp can be computed and contain it, and each has a last millisecond. -/
def Safe (assigner : WindowAssigner) (ts : EventTimestamp) : Prop :=
  ∃ windows, assigner ts = .ok windows ∧
    ∀ w ∈ windows, w.contains ts = true ∧ ∃ last, w.stop.checkedSub 1 = .ok last

/-- The window of the timestamp ends before `2 ^ 64`, and its size is not 0. -/
def TumblingWindow.Fits (w : TumblingWindow) (ts : EventTimestamp) : Prop :=
  1 ≤ w.sizeMs.val ∧ ts.val / w.sizeMs.val * w.sizeMs.val + w.sizeMs.val < 2 ^ 64

/-- The last window that starts at or before the timestamp ends before `2 ^ 64`, and the slide is
not 0. -/
def SlidingWindow.Fits (w : SlidingWindow) (ts : EventTimestamp) : Prop :=
  1 ≤ w.slideMs.val ∧ ts.val / w.slideMs.val * w.slideMs.val + w.sizeMs.val < 2 ^ 64

instance (w : TumblingWindow) (ts : EventTimestamp) : Decidable (w.Fits ts) := instDecidableAnd

instance (w : SlidingWindow) (ts : EventTimestamp) : Decidable (w.Fits ts) := instDecidableAnd

/-! ## Assigning windows -/

theorem IsProper.safe_iff {assigner : WindowAssigner} (h : IsProper assigner)
    (ts : EventTimestamp) : Safe assigner ts ↔ ∃ windows, assigner ts = .ok windows := by
  constructor
  · rintro ⟨windows, hwindows, -⟩
    exact ⟨windows, hwindows⟩
  · rintro ⟨windows, hwindows⟩
    refine ⟨windows, hwindows, fun w hw => ⟨(h ts windows hwindows).2 w hw, w.stop - 1, ?_⟩⟩
    exact U64.checkedSub_eq_ok (endsLate_of_isProper h ts windows hwindows w hw)

theorem TumblingWindow.safe_iff (w : TumblingWindow) (ts : EventTimestamp) :
    Safe w.assignWindows ts ↔ w.Fits ts := by
  rw [w.isProper.safe_iff]
  constructor
  · rintro ⟨windows, h⟩
    obtain ⟨n, hdiv, h₁⟩ := bind_eq_ok h
    obtain ⟨start, hmul, h₂⟩ := bind_eq_ok h₁
    obtain ⟨stop, hadd, -⟩ := bind_eq_ok h₂
    obtain ⟨hsize, hn⟩ := U64.val_of_checkedDiv hdiv
    have hstart := U64.val_of_checkedMul hmul
    have hstop := U64.val_of_checkedAdd hadd
    rw [hstart, hn] at hstop
    exact ⟨hsize, hstop ▸ stop.isLt⟩
  · rintro ⟨hsize, hfits⟩
    exact w.assigns hsize hfits

theorem SlidingWindow.safe_iff (w : SlidingWindow) (ts : EventTimestamp) :
    Safe w.assignWindows ts ↔ w.Fits ts := by
  rw [w.isProper.safe_iff]
  constructor
  · rintro ⟨windows, h⟩
    obtain ⟨hslide, start, ws, hstart, hws, -⟩ := w.walkBack_of_assignWindows h
    rw [walkBack] at hws
    obtain ⟨stop, hadd, -⟩ := bind_eq_ok hws
    have hstop := U64.val_of_checkedAdd hadd
    rw [hstart] at hstop
    exact ⟨hslide, hstop ▸ stop.isLt⟩
  · rintro ⟨hslide, hfits⟩
    exact w.assigns hslide hfits

/-! ## Runs of the operators -/

/-- A failure that is a panic. -/
def IsPanic (e : Failure) : Prop := ∃ p, e = .panic p

theorem avoids_returned {S : Type} {P : S → Prop} {s : S} (h : P s) (x : Except FlumeError Unit) :
    AvoidsAt IsPanic P (returned x : Fallible Failure S Unit) s := by
  cases x with
  | ok a => exact AvoidsAt.pure h _
  | error e =>
    refine AvoidsAt.throw h ?_
    rintro ⟨p, hp⟩
    cases hp

theorem avoids_onCollector {C O : Type} {P : O × C → Prop} (hP : ∀ op c c', P (op, c) → P (op, c'))
    {s : O × C} (h : P s) (x : Fallible FlumeError C Unit) :
    AvoidsAt IsPanic P (onCollector x : Fallible Failure (O × C) Unit) s :=
  avoids_returned (hP s.1 s.2 _ h) _

/-- The result of assigning a record to its windows. -/
def assigned {In : Type} (assigner : WindowAssigner) (record : Record In) : Except Failure Unit :=
  match assigner record.timestamp with
  | .ok _ => .ok ()
  | .error p => .error (.panic p)

theorem panics_assigned {In : Type} {assigner : WindowAssigner} {record : Record In} :
    (∃ e, IsPanic e ∧ assigned assigner record = .error e) ↔
      ¬ ∃ windows, assigner record.timestamp = .ok windows := by
  unfold assigned
  cases assigner record.timestamp with
  | ok windows => simp
  | error p => simp [IsPanic]

/-- If records panic where their windows cannot be computed and nothing else does, then a run panics
if and only if it reaches such a record. -/
theorem not_panics_iff {S In : Type} {assigner : WindowAssigner} {P : S → Prop}
    {f : Input In → Fallible Failure S Unit}
    (hrecord : ∀ s r, P s → P ((f (.record r)).runOn s).2 ∧
      ((f (.record r)).runOn s).1 = assigned assigner r)
    (hother : ∀ s input, P s → (∀ r, input ≠ .record r) → AvoidsAt IsPanic P (f input) s)
    {s : S} (h : P s) (inputs : List (Input In)) :
    (∀ p, ((inputs.forM f).runOn s).1 ≠ .error (.panic p)) ↔
      ∀ pre r post t, inputs = pre ++ .record r :: post → (pre.forM f).runOn s = (.ok (), t) →
        ∃ windows, assigner r.timestamp = .ok windows := by
  have hkeep : ∀ input s, P s → P ((f input).runOn s).2 := by
    intro input s hs
    by_cases hinput : ∃ r, input = .record r
    · obtain ⟨r, rfl⟩ := hinput
      exact (hrecord s r hs).1
    · exact (hother s input hs (not_exists.mp hinput)).1
  have hpanics : ∀ input s, P s → ((∃ e, IsPanic e ∧ ((f input).runOn s).1 = .error e) ↔
      ∃ r, input = .record r ∧ ¬ ∃ windows, assigner r.timestamp = .ok windows) := by
    intro input s hs
    by_cases hinput : ∃ r, input = .record r
    · obtain ⟨r, rfl⟩ := hinput
      rw [(hrecord s r hs).2, panics_assigned]
      simp
    · constructor
      · rintro ⟨e, hpanic, he⟩
        exact absurd hpanic ((hother s input hs (not_exists.mp hinput)).2 e he)
      · rintro ⟨r, hr, -⟩
        exact absurd ⟨r, hr⟩ hinput
  have hfails : (∃ e, IsPanic e ∧ ((inputs.forM f).runOn s).1 = .error e) ↔ _ :=
    runOn_forM_fails_iff hkeep hpanics h
  constructor
  · intro hok pre r post t hinputs hpre
    by_contra hwindows
    obtain ⟨_, ⟨p, rfl⟩, hp⟩ := hfails.mpr ⟨pre, _, post, t, hinputs, hpre, r, rfl, hwindows⟩
    exact hok p hp
  · intro hreached p hp
    obtain ⟨pre, _, post, t, hinputs, hpre, r, rfl, hwindows⟩ := hfails.mp ⟨_, ⟨p, rfl⟩, hp⟩
    exact hwindows (hreached pre r post t hinputs hpre)

namespace WindowOperator

variable {σ In Acc Out C : Type} {assigner : WindowAssigner} {s : WindowOperator σ In Acc Out × C}

/-- The operator has the assigner, and all its windows end after 0. -/
def EndsAfter (assigner : WindowAssigner) (s : WindowOperator σ In Acc Out × C) : Prop :=
  s.1.assigner = assigner ∧ ∀ wk ∈ s.1.accumulators, 1 ≤ wk.window.stop

theorem avoids_fire (collector : Collector C Out) (h : EndsAfter assigner s) (wk : WindowKey) :
    AvoidsAt IsPanic (EndsAfter assigner) (fire collector wk) s := by
  refine AvoidsAt.get_bind ?_
  cases hlookup : s.1.accumulators.lookup wk with
  | none => exact AvoidsAt.pure h _
  | some acc =>
    have hmem : wk ∈ s.1.accumulators := by
      apply AList.lookup_isSome.mp
      rw [hlookup]
      rfl
    simp only [U64.checkedSub_eq_ok (h.2 wk hmem)]
    exact avoids_onCollector (fun _ _ _ h => h) h _

theorem endsAfter_purge (h : EndsAfter assigner s) (wks : List WindowKey) :
    EndsAfter assigner (wks.foldl purge s.1, s.2) := by
  obtain ⟨hconfig, haccs⟩ := s.1.foldl_purge_spec wks
  exact ⟨hconfig.1.trans h.1, fun wk hwk => h.2 wk (mem_of_lookup_ite haccs hwk)⟩

theorem avoids_processWatermark (collector : Collector C Out) (h : EndsAfter assigner s)
    (watermark : Watermark) (iter : IterOrder WindowKey) :
    AvoidsAt IsPanic (EndsAfter assigner) (processWatermark collector watermark iter) s := by
  refine AvoidsAt.get_bind (AvoidsAt.bind ⟨h, fun _ he => by cases he⟩ fun _ t ht => ?_)
  refine AvoidsAt.bind (AvoidsAt.forM ht fun wk _ u hu => avoids_fire collector hu wk) ?_
  intro _ u hu
  refine AvoidsAt.bind ⟨endsAfter_purge hu _, fun _ he => by cases he⟩ fun _ v hv => ?_
  exact avoids_onCollector (fun _ _ _ h => h) hv _

/-- A record is added to windows that end after 0, or its windows cannot be computed. -/
theorem runOn_processRecord_spec (hproper : IsProper assigner) (h : EndsAfter assigner s)
    (record : Record In) :
    EndsAfter assigner ((processRecord record : Call σ In Acc Out C Unit).runOn s).2 ∧
      ((processRecord record : Call σ In Acc Out C Unit).runOn s).1 =
        assigned assigner record := by
  have hassigner : (s.1.takeKey record).2.assigner = assigner := by
    rw [takeKey_snd]
    exact h.1
  have haccs : (s.1.takeKey record).2.accumulators = s.1.accumulators := by
    rw [takeKey_snd]
    rfl
  unfold processRecord assigned
  rw [runOn_bind_ok runOn_get]
  simp only [hassigner]
  cases hwindows : assigner record.timestamp with
  | error p => exact ⟨h, rfl⟩
  | ok windows =>
    obtain ⟨hconfig, hadded⟩ := foldl_addTo_spec (s.1.takeKey record).2 (s.1.takeKey record).1
      record.value windows
    refine ⟨⟨hconfig.1.trans hassigner, fun wk hwk => ?_⟩, rfl⟩
    change wk ∈ (windows.foldl _ _ : WindowOperator σ In Acc Out).accumulators at hwk
    rw [hadded, mem_upsertAll, haccs] at hwk
    rcases hwk with hwk | hwk
    · exact h.2 wk hwk
    · obtain ⟨w, hw, rfl⟩ := List.mem_map.mp hwk
      exact endsLate_of_isProper hproper _ windows hwindows w hw

theorem avoids_process (collector : Collector C Out) (h : EndsAfter assigner s) {input : Input In}
    (hinput : ∀ r, input ≠ .record r) :
    AvoidsAt IsPanic (EndsAfter assigner) (process collector input) s := by
  cases input with
  | record r => exact absurd rfl (hinput r)
  | watermark w iter => exact avoids_processWatermark collector h w iter
  | barrier b => exact avoids_onCollector (fun _ _ _ h => h) h (collector.collectBarrier b)

/-- **A run panics if and only if it reaches a record whose windows cannot be computed.** -/
theorem run_ok_iff (collector : Collector C Out) (hproper : IsProper assigner)
    (h : EndsAfter assigner s) (inputs : List (Input In)) :
    (∀ p, ((run collector inputs).runOn s).1 ≠ .error (.panic p)) ↔
      ∀ pre r post t, inputs = pre ++ .record r :: post →
        (run collector pre).runOn s = (.ok (), t) → ∃ windows, assigner r.timestamp = .ok windows :=
  not_panics_iff (fun _ r ht => runOn_processRecord_spec hproper ht r)
    (fun _ _ ht hinput => avoids_process collector ht hinput) h inputs

end WindowOperator

namespace WindowedOperator

variable {In B Out C : Type} {assigner : WindowAssigner} {s : WindowedOperator In B Out × C}

/-- The operator has the assigner, its results can be computed, and all its windows end after
0. -/
def EndsAfter (assigner : WindowAssigner) (s : WindowedOperator In B Out × C) : Prop :=
  s.1.assigner = assigner ∧ s.1.contents.Computes ∧ ∀ wk ∈ s.1.state, 1 ≤ wk.window.stop

theorem avoids_fire (collector : Collector C Out) (h : EndsAfter assigner s) (wk : WindowKey) :
    AvoidsAt IsPanic (EndsAfter assigner) (fire collector wk) s := by
  refine AvoidsAt.get_bind ?_
  cases hlookup : s.1.state.lookup wk with
  | none => exact AvoidsAt.pure h _
  | some b =>
    have hmem : wk ∈ s.1.state := by
      apply AList.lookup_isSome.mp
      rw [hlookup]
      rfl
    obtain ⟨results, hresults⟩ := h.2.1 wk b (h.2.2 wk hmem)
    simp only [hresults]
    refine AvoidsAt.forM h fun record _ t ht => ?_
    exact avoids_onCollector (fun _ _ _ h => h) ht _

theorem endsAfter_purge (h : EndsAfter assigner s) (wks : List WindowKey) :
    EndsAfter assigner (wks.foldl purge s.1, s.2) := by
  obtain ⟨hconfig, hstate⟩ := s.1.foldl_purge_spec wks
  refine ⟨hconfig.1.trans h.1, hconfig.2 ▸ h.2.1, fun wk hwk => ?_⟩
  exact h.2.2 wk (mem_of_lookup_ite hstate hwk)

theorem avoids_processWatermark (collector : Collector C Out) (h : EndsAfter assigner s)
    (watermark : Watermark) (iter : IterOrder WindowKey) :
    AvoidsAt IsPanic (EndsAfter assigner) (processWatermark collector watermark iter) s := by
  refine AvoidsAt.get_bind ?_
  refine AvoidsAt.bind (AvoidsAt.forM h fun wk _ t ht => avoids_fire collector ht wk) ?_
  intro _ t ht
  refine AvoidsAt.bind ⟨endsAfter_purge ht _, fun _ he => by cases he⟩ fun _ u hu => ?_
  exact avoids_onCollector (fun _ _ _ h => h) hu _

theorem runOn_processRecord_spec (hproper : IsProper assigner) (h : EndsAfter assigner s)
    (record : Record In) :
    EndsAfter assigner ((processRecord record : Call In B Out C Unit).runOn s).2 ∧
      ((processRecord record : Call In B Out C Unit).runOn s).1 = assigned assigner record := by
  unfold assigned
  cases hwindows : assigner record.timestamp with
  | error p =>
    have hcall := s.1.runOn_processRecord_error (h.1 ▸ hwindows) s.2
    rw [show s = (s.1, s.2) from rfl, hcall]
    exact ⟨h, rfl⟩
  | ok windows =>
    obtain ⟨op', hcall, hconfig, hstate⟩ :=
      s.1.runOn_processRecord (h.1 ▸ hwindows) s.2
    rw [show s = (s.1, s.2) from rfl, hcall]
    refine ⟨⟨hconfig.1.trans h.1, hconfig.2 ▸ h.2.1, fun wk hwk => ?_⟩, rfl⟩
    rw [hstate, mem_upsertAll] at hwk
    rcases hwk with hwk | hwk
    · exact h.2.2 wk hwk
    · obtain ⟨w, hw, rfl⟩ := List.mem_map.mp hwk
      exact endsLate_of_isProper hproper _ windows hwindows w hw

theorem avoids_process (collector : Collector C Out) (h : EndsAfter assigner s) {input : Input In}
    (hinput : ∀ r, input ≠ .record r) :
    AvoidsAt IsPanic (EndsAfter assigner) (process collector input) s := by
  cases input with
  | record r => exact absurd rfl (hinput r)
  | watermark w iter => exact avoids_processWatermark collector h w iter
  | barrier b => exact avoids_onCollector (fun _ _ _ h => h) h (collector.collectBarrier b)

/-- **A run panics if and only if it reaches a record whose windows cannot be computed.** -/
theorem run_ok_iff (collector : Collector C Out) (hproper : IsProper assigner)
    (h : EndsAfter assigner s) (inputs : List (Input In)) :
    (∀ p, ((run collector inputs).runOn s).1 ≠ .error (.panic p)) ↔
      ∀ pre r post t, inputs = pre ++ .record r :: post →
        (run collector pre).runOn s = (.ok (), t) → ∃ windows, assigner r.timestamp = .ok windows :=
  not_panics_iff (fun _ r ht => runOn_processRecord_spec hproper ht r)
    (fun _ _ ht hinput => avoids_process collector ht hinput) h inputs

end WindowedOperator

/-! ## Time windows -/

/-- The time windows a user can ask for. -/
inductive TimeWindows
  | tumbling (size : Duration)
  | sliding (size slide : Duration)

namespace TimeWindows

/-- The assigner of the windows. -/
def assigner : TimeWindows → WindowAssigner
  | tumbling size => (TumblingWindow.new size).assignWindows
  | sliding size slide => (SlidingWindow.new size slide).assignWindows

/-- Whether the windows of a timestamp fit in a `u64`. -/
def Fits : TimeWindows → EventTimestamp → Prop
  | tumbling size, ts => (TumblingWindow.new size).Fits ts
  | sliding size slide, ts => (SlidingWindow.new size slide).Fits ts

instance : ∀ (w : TimeWindows) (ts : EventTimestamp), Decidable (w.Fits ts)
  | tumbling size, ts => inferInstanceAs (Decidable ((TumblingWindow.new size).Fits ts))
  | sliding size slide, ts => inferInstanceAs (Decidable ((SlidingWindow.new size slide).Fits ts))

theorem isProper (w : TimeWindows) : IsProper w.assigner := by
  cases w with
  | tumbling size => exact TumblingWindow.isProper _
  | sliding size slide => exact SlidingWindow.isProper _

theorem safe_iff (w : TimeWindows) (ts : EventTimestamp) : Safe w.assigner ts ↔ w.Fits ts := by
  cases w with
  | tumbling size => exact TumblingWindow.safe_iff _ ts
  | sliding size slide => exact SlidingWindow.safe_iff _ ts

theorem assigns_iff (w : TimeWindows) (ts : EventTimestamp) :
    (∃ windows, w.assigner ts = .ok windows) ↔ w.Fits ts := by
  rw [← w.safe_iff, w.isProper.safe_iff]

end TimeWindows

/-- The broker's timestamp as the source casts it. -/
def KafkaSource.timestamp (millis : Int64) : EventTimestamp := Fin.ofNat _ millis.toUInt64.toNat

/-- **When window arithmetic is safe:** if the windows fit; and a run panics exactly if it reaches a
record whose windows do not. -/
theorem windowArithmetic_iff (w : TimeWindows) :
    (∀ ts, Safe w.assigner ts ↔ w.Fits ts) ∧
    (∀ {σ In Acc Out C : Type} (trigger : Trigger σ) (state : σ)
      (aggregate : AggregateFunction In Acc Out) (collector : Collector C Out) (c : C)
      (inputs : List (Input In)),
      let s := ((WindowOperator.new w.assigner aggregate).withTrigger trigger state, c)
      (∀ p, ((WindowOperator.run collector inputs).runOn s).1 ≠ .error (.panic p)) ↔
        ∀ pre r post t, inputs = pre ++ .record r :: post →
          (WindowOperator.run collector pre).runOn s = (.ok (), t) → w.Fits r.timestamp) ∧
    (∀ {L R Out C : Type} (cogroupFn : Bytes → List L → List R → List Out)
      (collector : Collector C Out) (c : C) (inputs : List (Input (Either L R))),
      let s := (WindowCogroupOperator.new w.assigner cogroupFn, c)
      (∀ p, ((WindowedOperator.run collector inputs).runOn s).1 ≠ .error (.panic p)) ↔
        ∀ pre r post t, inputs = pre ++ .record r :: post →
          (WindowedOperator.run collector pre).runOn s = (.ok (), t) → w.Fits r.timestamp) := by
  refine ⟨w.safe_iff, ?_, ?_⟩
  · intro σ In Acc Out C trigger state aggregate collector c inputs s
    have hstart : WindowOperator.EndsAfter w.assigner s :=
      ⟨rfl, fun wk hwk => absurd hwk (AList.notMem_empty wk)⟩
    simp only [← w.assigns_iff]
    exact WindowOperator.run_ok_iff collector w.isProper hstart inputs
  · intro L R Out C cogroupFn collector c inputs s
    have hstart : WindowedOperator.EndsAfter w.assigner s :=
      ⟨rfl, cogroupContents_computes cogroupFn, fun wk hwk => absurd hwk (AList.notMem_empty wk)⟩
    simp only [← w.assigns_iff]
    exact WindowedOperator.run_ok_iff collector w.isProper hstart inputs

/-- Tumbling windows of 500 µs have size 0, and windows of 1 s do not fit at a negative timestamp of
the broker. -/
theorem subMillisecond_not_safe :
    ¬ Safe (TimeWindows.tumbling ⟨500000⟩).assigner 0 ∧
      ¬ Safe (TimeWindows.tumbling (Duration.fromMillis 1000)).assigner
        (KafkaSource.timestamp (-2)) := by
  rw [TimeWindows.safe_iff, TimeWindows.safe_iff]
  decide

end Flume
