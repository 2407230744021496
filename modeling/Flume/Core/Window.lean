import Flume.Core.Record
import Flume.Lib.Fallible

/-!
# Windows

Time windows, their assigners, triggers and aggregate functions. Arithmetic is checked, as in a
build with overflow checks: an overflow or a division by zero is a `Panic`.

* `TumblingWindow.assignWindows`, `SlidingWindow.assignWindows`;
* `EventTimeTrigger`, `countAggregator`: the default trigger, and a count;
* `IsWindowAssigner`: an assigner is one of these two; `IsTimeAssigner`: with a size and a slide of
  at least 1 ms;
* **`IsWindowAssigner.isProper`**: the windows they assign are different windows that contain the
  timestamp;
* **`IsTimeAssigner.assigns`**: as long as `timestamp + size` fits, the windows of a timestamp are
  different windows that contain it.
-/

namespace Flume

open Fallible (bind_eq_ok)

/-! ## Checked arithmetic -/

/-- What an operation panics with. -/
inductive Panic
  | overflow
  | divideByZero
  | rangeOrder
  deriving DecidableEq

/-- Why a call does not return `Ok`. -/
inductive Failure
  | error (e : FlumeError)
  | panic (p : Panic)
  deriving DecidableEq

namespace U64

/-- `a + b`. -/
def checkedAdd (a b : U64) : Except Panic U64 :=
  if h : a.val + b.val < 2 ^ 64 then .ok ⟨a.val + b.val, h⟩ else .error .overflow

/-- `a - b`. -/
def checkedSub (a b : U64) : Except Panic U64 :=
  if b ≤ a then .ok (a - b) else .error .overflow

/-- `a * b`. -/
def checkedMul (a b : U64) : Except Panic U64 :=
  if h : a.val * b.val < 2 ^ 64 then .ok ⟨a.val * b.val, h⟩ else .error .overflow

/-- `a / b`. -/
def checkedDiv (a b : U64) : Except Panic U64 :=
  if b.val = 0 then .error .divideByZero else .ok (a / b)

variable {a b : U64}

theorem checkedAdd_eq_ok (h : a.val + b.val < 2 ^ 64) : ∃ c : U64, c.val = a.val + b.val ∧
    a.checkedAdd b = .ok c := ⟨⟨_, h⟩, rfl, dif_pos h⟩

theorem checkedSub_eq_ok (h : b ≤ a) : a.checkedSub b = .ok (a - b) := if_pos h

theorem checkedMul_eq_ok (h : a.val * b.val < 2 ^ 64) : ∃ c : U64, c.val = a.val * b.val ∧
    a.checkedMul b = .ok c := ⟨⟨_, h⟩, rfl, dif_pos h⟩

theorem checkedDiv_eq_ok (h : 0 < b.val) : ∃ c : U64, c.val = a.val / b.val ∧
    a.checkedDiv b = .ok c := ⟨a / b, rfl, if_neg h.ne'⟩

variable {c : U64}

theorem val_of_checkedAdd (h : a.checkedAdd b = .ok c) : c.val = a.val + b.val := by
  unfold checkedAdd at h
  split_ifs at h
  cases h
  rfl

theorem val_of_checkedMul (h : a.checkedMul b = .ok c) : c.val = a.val * b.val := by
  unfold checkedMul at h
  split_ifs at h
  cases h
  rfl

theorem val_of_checkedDiv (h : a.checkedDiv b = .ok c) : 0 < b.val ∧ c.val = a.val / b.val := by
  unfold checkedDiv at h
  split_ifs at h with hb
  cases h
  exact ⟨Nat.pos_of_ne_zero hb, rfl⟩

end U64

/-! ## Windows and assigners -/

/-- A time range: `start` inclusive, `stop` (the source's `end`) exclusive. -/
structure Window where
  start : EventTimestamp
  stop : EventTimestamp
  deriving DecidableEq

/-- Whether a timestamp falls within the window. -/
def Window.contains (w : Window) (timestamp : EventTimestamp) : Bool :=
  timestamp ≥ w.start && timestamp < w.stop

theorem Window.contains_iff {w : Window} {ts : EventTimestamp} :
    w.contains ts = true ↔ w.start ≤ ts ∧ ts < w.stop := by
  simp [Window.contains]

/-- Assigns a record to windows based on its event timestamp. -/
abbrev WindowAssigner : Type := EventTimestamp → Except Panic (List Window)

/-- Non-overlapping, fixed-size windows. -/
structure TumblingWindow where
  sizeMs : U64

/-- Windows of the whole milliseconds of `size`, as a `u64`. -/
def TumblingWindow.new (size : Duration) : TumblingWindow := ⟨Fin.ofNat _ size.asMillis⟩

/-- The one window of a timestamp. -/
def TumblingWindow.assignWindows (w : TumblingWindow) : WindowAssigner := fun ts => do
  let start ← (← ts.checkedDiv w.sizeMs).checkedMul w.sizeMs
  let stop ← start.checkedAdd w.sizeMs
  return [⟨start, stop⟩]

/-- Overlapping windows. -/
structure SlidingWindow where
  sizeMs : U64
  slideMs : U64

namespace SlidingWindow

/-- Windows of the whole milliseconds of `size` and `slide`, as `u64`s. -/
def new (size slide : Duration) : SlidingWindow :=
  ⟨Fin.ofNat _ size.asMillis, Fin.ofNat _ slide.asMillis⟩

/-- The loop of `assign_windows`: walks backwards from `start`. -/
def walkBack (w : SlidingWindow) (hslide : 0 < w.slideMs.val) (ts start : U64)
    (windows : List Window) : Except Panic (List Window) := do
  let stop ← start.checkedAdd w.sizeMs
  let windows := if ts < stop then windows ++ [⟨start, stop⟩] else windows
  if _h : start < w.slideMs then
    return windows
  else
    let next := start - w.slideMs
    -- stop if the window end is before the timestamp
    if (← next.checkedAdd w.sizeMs) ≤ ts then
      return windows
    else
      w.walkBack hslide ts next windows
termination_by start.val
decreasing_by
  have hle : w.slideMs ≤ start := not_lt.mp _h
  rw [Fin.sub_val_of_le hle]
  have : w.slideMs.val ≤ start.val := hle
  omega

/-- The windows that contain a timestamp, in ascending order. -/
def assignWindows (w : SlidingWindow) : WindowAssigner := fun ts => do
  -- the division panics on a slide of zero, before the loop is entered
  if hslide : 0 < w.slideMs.val then
    let lastStart ← (← ts.checkedDiv w.slideMs).checkedMul w.slideMs
    return (← w.walkBack hslide ts lastStart []).reverse
  else
    throw .divideByZero

end SlidingWindow

/-- The assigner is a tumbling or a sliding window of size `size`, with a slide of at least
1 ms. -/
inductive IsTimeAssigner (size : U64) : WindowAssigner → Prop
  | tumbling (hsize : 1 ≤ size.val) : IsTimeAssigner size (TumblingWindow.mk size).assignWindows
  | sliding (hsize : 1 ≤ size.val) (slide : U64) (hslide : 1 ≤ slide.val) :
      IsTimeAssigner size (SlidingWindow.mk size slide).assignWindows

/-! ## Triggers and aggregate functions -/

/-- What a trigger decides about a window. -/
inductive TriggerResult
  | continue
  | fire
  | purge
  | fireAndPurge
  deriving DecidableEq

/-- Decides when to compute a window's result; it may keep a state of its own. -/
structure Trigger (σ : Type) where
  onElement : σ → EventTimestamp → Window → TriggerResult × σ
  onEventTime : σ → EventTimestamp → Window → TriggerResult × σ

/-- Fires when the watermark passes the window's end. -/
def EventTimeTrigger : Trigger Unit where
  onElement _ _ _ := (.continue, ())
  onEventTime _ watermark window :=
    (if watermark ≥ window.stop then .fireAndPurge else .continue, ())

/-- Incremental aggregation. -/
structure AggregateFunction (In Acc Out : Type) where
  createAccumulator : Acc
  add : Acc → In → Acc
  getResult : Acc → Out

/-- Counts the records of a window. -/
def countAggregator : AggregateFunction String ℕ ℕ where
  createAccumulator := 0
  add acc _ := acc + 1
  getResult acc := acc

/-! ## The windows of a timestamp -/

/-- Different windows that contain the timestamp. -/
def Covers (ts : EventTimestamp) (windows : List Window) : Prop :=
  windows.Nodup ∧ ∀ w ∈ windows, w.contains ts = true

/-- Whenever windows are assigned, they are different windows that contain the timestamp. -/
def IsProper (assigner : WindowAssigner) : Prop :=
  ∀ ts windows, assigner ts = .ok windows → Covers ts windows

/-- The windows that are assigned do not end at 0. -/
def EndsLate (assigner : WindowAssigner) : Prop :=
  ∀ ts windows, assigner ts = .ok windows → ∀ w ∈ windows, 1 ≤ w.stop

theorem endsLate_of_isProper {assigner : WindowAssigner} (h : IsProper assigner) :
    EndsLate assigner := by
  intro ts windows hwindows w hw
  have hlt : ts < w.stop := (Window.contains_iff.mp ((h ts windows hwindows).2 w hw)).2
  have hval : ts.val < w.stop.val := hlt
  exact Fin.le_def.mpr (by change 1 ≤ w.stop.val; omega)

namespace TumblingWindow

variable (w : TumblingWindow)

theorem isProper : IsProper w.assignWindows := by
  intro ts windows h
  obtain ⟨n, hdiv, h₁⟩ := bind_eq_ok h
  obtain ⟨start, hmul, h₂⟩ := bind_eq_ok h₁
  obtain ⟨stop, hadd, h₃⟩ := bind_eq_ok h₂
  cases h₃
  obtain ⟨hsize, hn⟩ := U64.val_of_checkedDiv hdiv
  have hstart := U64.val_of_checkedMul hmul
  have hstop := U64.val_of_checkedAdd hadd
  rw [hn] at hstart
  refine ⟨List.nodup_singleton _, fun v hv => ?_⟩
  obtain rfl := List.mem_singleton.mp hv
  have hle : ts.val / w.sizeMs.val * w.sizeMs.val ≤ ts.val := Nat.div_mul_le_self _ _
  have hlt : ts.val < ts.val / w.sizeMs.val * w.sizeMs.val + w.sizeMs.val :=
    Nat.lt_div_mul_add hsize
  have hmem : start ≤ ts ∧ ts < stop :=
    ⟨Fin.le_def.mpr (by omega), Fin.lt_def.mpr (by omega)⟩
  exact Window.contains_iff.mpr hmem

theorem assigns {ts : EventTimestamp} (hsize : 1 ≤ w.sizeMs.val)
    (hfits : ts.val / w.sizeMs.val * w.sizeMs.val + w.sizeMs.val < 2 ^ 64) :
    ∃ ws, w.assignWindows ts = .ok ws := by
  obtain ⟨n, hn, hdiv⟩ := U64.checkedDiv_eq_ok (a := ts) hsize
  obtain ⟨start, hstart, hmul⟩ := U64.checkedMul_eq_ok (a := n) (b := w.sizeMs) (by
    rw [hn]; omega)
  rw [hn] at hstart
  obtain ⟨stop, hstop, hadd⟩ := U64.checkedAdd_eq_ok (a := start) (b := w.sizeMs) (by omega)
  refine ⟨[⟨start, stop⟩], ?_⟩
  simp only [assignWindows, hdiv, hmul, hadd, bind, Except.bind, pure, Except.pure]

end TumblingWindow

namespace SlidingWindow

variable (w : SlidingWindow) (hslide : 0 < w.slideMs.val)

theorem pushed_spec {ts : EventTimestamp} {start stop : U64} (hstart : start ≤ ts)
    (windows : List Window) :
    ∃ here : List Window,
      (if ts < stop then windows ++ [⟨start, stop⟩] else windows) = windows ++ here ∧
      (∀ v ∈ here, v.start = start ∧ v.contains ts = true) ∧ here.Nodup := by
  split_ifs with hlt
  · refine ⟨[⟨start, stop⟩], rfl, fun v hv => ?_, List.nodup_singleton _⟩
    obtain rfl := List.mem_singleton.mp hv
    exact ⟨rfl, Window.contains_iff.mpr ⟨hstart, hlt⟩⟩
  · exact ⟨[], (List.append_nil _).symm, by simp, List.nodup_nil⟩

/-- The windows the loop adds start one slide apart, downwards from `start`. -/
theorem walkBack_of_ok {ts : EventTimestamp} (start : U64) (hstart : start ≤ ts)
    {windows result : List Window} (h : w.walkBack hslide ts start windows = .ok result) :
    ∃ more, result = windows ++ more ∧
      (∀ v ∈ more, v.start ≤ start ∧ v.contains ts = true) ∧ more.Nodup := by
  induction hn : start.val using Nat.strong_induction_on generalizing start windows with
  | _ n ih =>
    rw [walkBack] at h
    obtain ⟨stop, -, h₁⟩ := bind_eq_ok h
    obtain ⟨here, hpush, hhere, hhd⟩ := @pushed_spec _ _ stop hstart windows
    have hherele : ∀ v ∈ here, v.start ≤ start ∧ v.contains ts = true :=
      fun v hv => ⟨(hhere v hv).1.le, (hhere v hv).2⟩
    rw [hpush] at h₁
    split_ifs at h₁ with hlt
    · cases h₁
      exact ⟨here, rfl, hherele, hhd⟩
    · obtain ⟨nextStop, -, h₂⟩ := bind_eq_ok h₁
      split_ifs at h₂ with hstopLe
      · cases h₂
        exact ⟨here, rfl, hherele, hhd⟩
      · have hnext : (start - w.slideMs).val = start.val - w.slideMs.val :=
          Fin.sub_val_of_le (not_lt.mp hlt)
        have hslideLe : w.slideMs.val ≤ start.val := not_lt.mp hlt
        have hle : start.val ≤ ts.val := hstart
        obtain ⟨more, rfl, hcontains, hnodup⟩ := ih (start.val - w.slideMs.val) (by omega)
          (start - w.slideMs) (Fin.le_def.mpr (by omega)) h₂ hnext
        have hbelow : ∀ v ∈ more, v.start < start := fun v hv =>
          lt_of_le_of_lt (hcontains v hv).1 (Fin.lt_def.mpr (by omega))
        refine ⟨here ++ more, List.append_assoc _ _ _, fun v hv => ?_, ?_⟩
        · rcases List.mem_append.mp hv with hv | hv
          · exact hherele v hv
          · exact ⟨(hbelow v hv).le, (hcontains v hv).2⟩
        · refine hhd.append hnodup fun v hv hv' => ?_
          exact absurd (hhere v hv).1 (hbelow v hv').ne

theorem walkBack_eq_ok (ts : EventTimestamp) (start : U64)
    (hfits : start.val + w.sizeMs.val < 2 ^ 64) (windows : List Window) :
    ∃ result, w.walkBack hslide ts start windows = .ok result := by
  induction hn : start.val using Nat.strong_induction_on generalizing start windows with
  | _ n ih =>
    obtain ⟨stop, -, hadd⟩ := U64.checkedAdd_eq_ok (a := start) (b := w.sizeMs) hfits
    rw [walkBack]
    simp only [hadd, bind, Except.bind]
    by_cases hlt : start < w.slideMs
    · rw [dif_pos hlt]
      exact ⟨_, rfl⟩
    · rw [dif_neg hlt]
      have hnext : (start - w.slideMs).val = start.val - w.slideMs.val :=
        Fin.sub_val_of_le (not_lt.mp hlt)
      have hslideLe : w.slideMs.val ≤ start.val := not_lt.mp hlt
      obtain ⟨nextStop, -, hadd'⟩ :=
        U64.checkedAdd_eq_ok (a := start - w.slideMs) (b := w.sizeMs) (by omega)
      simp only [hadd']
      split_ifs
      · exact ⟨_, rfl⟩
      · exact ⟨_, rfl⟩
      · exact ih (start.val - w.slideMs.val) (by omega) (start - w.slideMs) (by omega) _ hnext
      · exact ih (start.val - w.slideMs.val) (by omega) (start - w.slideMs) (by omega) _ hnext

theorem walkBack_of_assignWindows {ts : EventTimestamp} {windows : List Window}
    (h : w.assignWindows ts = .ok windows) :
    ∃ (hslide : 0 < w.slideMs.val) (start : U64) (ws : List Window),
      start.val = ts.val / w.slideMs.val * w.slideMs.val ∧
        w.walkBack hslide ts start [] = .ok ws ∧ windows = ws.reverse := by
  unfold assignWindows at h
  split_ifs at h with hslide
  obtain ⟨n, hdiv, h₁⟩ := bind_eq_ok h
  obtain ⟨start, hmul, h₂⟩ := bind_eq_ok h₁
  obtain ⟨ws, hws, h₃⟩ := bind_eq_ok h₂
  cases h₃
  refine ⟨hslide, start, ws, ?_, hws, rfl⟩
  rw [U64.val_of_checkedMul hmul, (U64.val_of_checkedDiv hdiv).2]

theorem isProper : IsProper w.assignWindows := by
  intro ts windows h
  obtain ⟨hslide, start, ws, hstart, hws, rfl⟩ := w.walkBack_of_assignWindows h
  have hle : start.val ≤ ts.val := hstart ▸ Nat.div_mul_le_self _ _
  obtain ⟨more, rfl, hcontains, hnodup⟩ := w.walkBack_of_ok hslide start hle hws
  refine ⟨List.nodup_reverse.mpr hnodup, fun v hv => ?_⟩
  exact (hcontains v (List.mem_reverse.mp hv)).2

include hslide in
theorem assigns {ts : EventTimestamp}
    (hfits : ts.val / w.slideMs.val * w.slideMs.val + w.sizeMs.val < 2 ^ 64) :
    ∃ ws, w.assignWindows ts = .ok ws := by
  have hle : ts.val / w.slideMs.val * w.slideMs.val ≤ ts.val := Nat.div_mul_le_self _ _
  obtain ⟨n, hn, hdiv⟩ := U64.checkedDiv_eq_ok (a := ts) hslide
  obtain ⟨start, hstart, hmul⟩ := U64.checkedMul_eq_ok (a := n) (b := w.slideMs) (by
    rw [hn]; omega)
  rw [hn] at hstart
  obtain ⟨ws, hws⟩ := w.walkBack_eq_ok hslide ts start (by omega) []
  refine ⟨ws.reverse, ?_⟩
  simp only [assignWindows, dif_pos hslide, hdiv, hmul, hws, bind, Except.bind, pure, Except.pure]

end SlidingWindow

/-- A tumbling or a sliding window, of any size and slide. -/
inductive IsWindowAssigner : WindowAssigner → Prop
  | tumbling (w : TumblingWindow) : IsWindowAssigner w.assignWindows
  | sliding (w : SlidingWindow) : IsWindowAssigner w.assignWindows

theorem IsWindowAssigner.isProper {assigner : WindowAssigner} (h : IsWindowAssigner assigner) :
    IsProper assigner := by
  cases h with
  | tumbling w => exact w.isProper
  | sliding w => exact w.isProper

theorem IsTimeAssigner.isWindowAssigner {size : U64} {assigner : WindowAssigner}
    (h : IsTimeAssigner size assigner) : IsWindowAssigner assigner := by
  cases h with
  | tumbling hsize => exact .tumbling _
  | sliding hsize slide hslide => exact .sliding _

theorem fits_of_le {ts size : U64} (h : ts.val + size.val < 2 ^ 64) (n : ℕ) :
    ts.val / n * n + size.val < 2 ^ 64 :=
  Nat.lt_of_le_of_lt (Nat.add_le_add_right (Nat.div_mul_le_self ts.val n) _) h

/-- **The windows of a timestamp are different windows that contain it.** -/
theorem IsTimeAssigner.assigns {size : U64} {assigner : WindowAssigner}
    (h : IsTimeAssigner size assigner) {ts : EventTimestamp}
    (hfits : ts.val + size.val < 2 ^ 64) :
    ∃ ws, assigner ts = .ok ws ∧ Covers ts ws := by
  have hok : ∃ ws, assigner ts = .ok ws := by
    cases h with
    | tumbling hsize => exact TumblingWindow.assigns ⟨size⟩ hsize (fits_of_le hfits _)
    | sliding hsize slide hslide =>
      exact SlidingWindow.assigns ⟨size, slide⟩ hslide (fits_of_le hfits _)
  obtain ⟨ws, hws⟩ := hok
  exact ⟨ws, hws, h.isWindowAssigner.isProper ts ws hws⟩

end Flume
