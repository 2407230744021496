import Flume.Core.WindowOperator
import Flume.Lib.GroupBy
import Mathlib.Data.List.TakeWhile

/-!
# The input of a windowed operator as a history of groups

A record adds to the groups of its keys and windows, a watermark closes the groups whose windows it
passes.

* `keysOf`, `history`: an input as a history of additions and closings;
* `groups`, `Passed`: the groups that have a record, and those whose window was passed;
* `WellTimed`, `Timely`: inputs that keep the watermark promise, and whose windows can be computed;
* **`Timely.onTime_history`**: they add nothing to a group that was closed.
-/

namespace Flume

open Entries GroupBy

namespace WindowOperator

variable {In : Type}

/-! ## Additions and closings -/

/-- The keys and windows a record is assigned to; no key is the empty key. -/
def keysOf (assigner : WindowAssigner) (record : Record In) : List WindowKey :=
  match assigner record.timestamp with
  | .ok windows => windows.map (WindowKey.mk (record.key.getD []))
  | .error _ => []

/-- A record adds to its groups, a watermark closes the groups whose windows it passes. -/
def Input.event : Input In → Option (Event WindowKey (Record In))
  | .record r => some (.add r)
  | .watermark w _ => some (.close (passes w))
  | .barrier _ => none

/-- The additions and closings of an input. -/
def history (inputs : List (Input In)) : List (Event WindowKey (Record In)) :=
  inputs.filterMap Input.event

/-- The keys and windows with at least one record, each once. -/
def groups (assigner : WindowAssigner) (inputs : List (Input In)) : List WindowKey :=
  keys (keysOf assigner) (history inputs)

/-- A watermark has passed the window. -/
def Passed (inputs : List (Input In)) (wk : WindowKey) : Prop := Closed (history inputs) wk

instance (inputs : List (Input In)) (wk : WindowKey) : Decidable (Passed inputs wk) := by
  unfold Passed; infer_instance

/-! ## Inputs that keep the watermark promise -/

/-- A record that follows a watermark has a later timestamp. -/
def Input.Precedes : Input In → Input In → Prop
  | .watermark w _, .record r => w.timestamp < r.timestamp
  | _, _ => True

instance (a b : Input In) : Decidable (a.Precedes b) := by
  unfold Input.Precedes; split <;> infer_instance

/-- The end of every window of the record fits. -/
def Input.Fits (size : U64) : Input In → Prop
  | .record r => r.timestamp.val + size.val < 2 ^ 64
  | _ => True

instance (size : U64) (a : Input In) : Decidable (a.Fits size) := by
  unfold Input.Fits; split <;> infer_instance

/-- Each record's timestamp is greater than every earlier watermark, and leaves room for a
window. -/
structure WellTimed (size : U64) (inputs : List (Input In)) : Prop where
  onTime : inputs.Pairwise Input.Precedes
  fits : ∀ input ∈ inputs, input.Fits size

section History

variable {assigner : WindowAssigner} {size : U64} {inputs inputs' : List (Input In)}

theorem history_append (inputs inputs' : List (Input In)) :
    history (inputs ++ inputs') = history inputs ++ history inputs' := List.filterMap_append

theorem history_record (r : Record In) :
    history (inputs ++ [.record r]) = history inputs ++ [.add r] := history_append _ _

theorem history_watermark (w : Watermark) (iter : IterOrder WindowKey) :
    history (inputs ++ [.watermark w iter]) = history inputs ++ [.close (passes w)] :=
  history_append _ _

theorem history_barrier (b : CheckpointBarrier) :
    history (inputs ++ [.barrier b]) = history inputs :=
  (history_append _ _).trans (List.append_nil _)

theorem passed_iff {wk : WindowKey} :
    Passed inputs wk ↔ ∃ w iter, .watermark w iter ∈ inputs ∧ wk.window.stop ≤ w.timestamp := by
  unfold Passed Closed history
  constructor
  · rintro ⟨e, he, hk⟩
    obtain ⟨input, hinput, hevent⟩ := List.mem_filterMap.mp he
    cases input with
    | record r => cases hevent; cases hk
    | watermark w iter =>
      cases hevent
      exact ⟨w, iter, hinput, of_decide_eq_true hk⟩
    | barrier b => cases hevent
  · rintro ⟨w, iter, hmem, hstop⟩
    exact ⟨.close (passes w), List.mem_filterMap.mpr ⟨_, hmem, rfl⟩, decide_eq_true hstop⟩

theorem mem_groups {wk : WindowKey} :
    wk ∈ groups assigner inputs ↔ ∃ r, .record r ∈ inputs ∧ wk ∈ keysOf assigner r := by
  have helems : ∀ r, r ∈ elems (history inputs) ↔ Input.record r ∈ inputs := by
    intro r
    simp only [elems, history, List.mem_filterMap]
    constructor
    · rintro ⟨e, ⟨input, hinput, hevent⟩, he⟩
      cases input <;> cases hevent
      · cases he; exact hinput
      · cases he
    · exact fun h => ⟨.add r, ⟨.record r, h, rfl⟩, rfl⟩
  rw [groups, mem_keys]
  simp only [helems]

theorem keysOf_eq {r : Record In} {windows : List Window}
    (h : assigner r.timestamp = .ok windows) :
    keysOf assigner r = windows.map (WindowKey.mk (r.key.getD [])) := by
  simp only [keysOf, h]

theorem keysOf_spec (hproper : IsProper assigner) {r : Record In} {windows : List Window}
    (h : assigner r.timestamp = .ok windows) :
    (keysOf assigner r).Nodup ∧ ∀ wk ∈ keysOf assigner r, r.timestamp < wk.window.stop := by
  obtain ⟨hnodup, hcontains⟩ := hproper _ _ h
  rw [keysOf_eq h]
  refine ⟨hnodup.map fun w w' h => (WindowKey.mk.inj h).2, fun wk hwk => ?_⟩
  obtain ⟨w, hw, rfl⟩ := List.mem_map.mp hwk
  exact (Window.contains_iff.mp (hcontains w hw)).2

end History

/-! ## Timely inputs -/

/-- Each record's timestamp is greater than every earlier watermark, and its windows can be
computed. -/
structure Timely (assigner : WindowAssigner) (inputs : List (Input In)) : Prop where
  onTime : inputs.Pairwise Input.Precedes
  assigned : ∀ r, .record r ∈ inputs → ∃ windows, assigner r.timestamp = .ok windows

/-- The windows of the record can be computed. -/
def Input.isAssigned (assigner : WindowAssigner) : Input In → Bool
  | .record r => (assigner r.timestamp).isOk
  | _ => true

/-- The input up to the first record whose windows cannot be computed. -/
def assignedPrefix (assigner : WindowAssigner) (inputs : List (Input In)) : List (Input In) :=
  inputs.takeWhile (Input.isAssigned assigner)

section Timely

variable {assigner : WindowAssigner} {size : U64} {inputs inputs' : List (Input In)}

theorem Timely.of_append (h : Timely assigner (inputs ++ inputs')) : Timely assigner inputs :=
  ⟨(List.pairwise_append.mp h.onTime).1, fun r hr => h.assigned r (List.mem_append_left _ hr)⟩

theorem WellTimed.timely (hassigner : IsTimeAssigner size assigner) (h : WellTimed size inputs) :
    Timely assigner inputs where
  onTime := h.onTime
  assigned r hr := by
    obtain ⟨windows, hok, -⟩ := hassigner.assigns (h.fits _ hr)
    exact ⟨windows, hok⟩

theorem assigned_of_mem_assignedPrefix {r : Record In}
    (h : .record r ∈ assignedPrefix assigner inputs) :
    ∃ windows, assigner r.timestamp = .ok windows := by
  have hok : Input.isAssigned assigner (.record r) = true := List.mem_takeWhile_imp h
  change (assigner r.timestamp).isOk = true at hok
  cases hassigner : assigner r.timestamp with
  | ok windows => exact ⟨windows, rfl⟩
  | error p => rw [hassigner] at hok; cases hok

theorem timely_assignedPrefix (h : inputs.Pairwise Input.Precedes) :
    Timely assigner (assignedPrefix assigner inputs) where
  onTime := h.sublist (List.takeWhile_sublist _)
  assigned _ hr := assigned_of_mem_assignedPrefix hr

theorem Timely.not_passed (hproper : IsProper assigner) {r : Record In}
    (h : Timely assigner (inputs ++ [.record r])) {wk : WindowKey} (hwk : wk ∈ keysOf assigner r) :
    ¬ Passed inputs wk := by
  intro hpassed
  obtain ⟨w, iter, hmem, hstop⟩ := passed_iff.mp hpassed
  obtain ⟨windows, hok⟩ := h.assigned r (by simp)
  have hlt : w.timestamp < r.timestamp :=
    (List.pairwise_append.mp h.onTime).2.2 _ hmem _ (List.mem_singleton_self _)
  exact absurd (hlt.trans ((keysOf_spec hproper hok).2 wk hwk)) (not_lt.mpr hstop)

/-- **A timely input adds nothing to a group that was closed.** -/
theorem Timely.onTime_history (hproper : IsProper assigner) (h : Timely assigner inputs) :
    OnTime (keysOf assigner) (history inputs) := by
  induction inputs using List.reverseRecOn with
  | nil => exact onTime_nil
  | append_singleton inputs input ih =>
    have hpre := ih h.of_append
    cases input with
    | barrier b => rw [history_barrier]; exact hpre
    | watermark w iter => rw [history_watermark]; exact onTime_close hpre
    | record r =>
      rw [history_record]
      exact onTime_add hpre fun wk hwk => h.not_passed hproper hwk

end Timely

end WindowOperator

end Flume
