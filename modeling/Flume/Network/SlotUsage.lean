import Flume.Lib.Runs
import Flume.Network.ResourceManager

/-!
# The slots in use and the slots registered

A heartbeat sets the slots in use without a look at the slots registered, and three call sites
subtract the one from the other.

* `UsageOp`, `run`: sequences of the calls that set the two counters;
* `Within`: no TaskManager has more slots in use than registered, and what follows for the
  subtractions; `within_iff`: it takes the first only;
* `Admissible`: the call does not report more slots in use than are registered;
* **`within_run_iff`**: the runs that stay within the slots.
-/

namespace Flume.ResourceManager

open Entries ScheduleFailure

/-- The calls that set the counters of a TaskManager. -/
inductive UsageOp
  | register (req : RegisterRequest)
  | heartbeat (req : HeartbeatRequest)
  | updateSlotUsage (tmId : String) (slotsInUse : ℕ)
  | remove (tmId : String)

/-- The resource manager after a call. -/
def step (rm : ResourceManager) : UsageOp → ResourceManager
  | .register req => (rm.register req).2
  | .heartbeat req => (rm.heartbeat req).2
  | .updateSlotUsage tmId slotsInUse => rm.updateSlotUsage tmId slotsInUse
  | .remove tmId => (rm.remove tmId).2

/-- The resource manager after a sequence of calls. -/
def run (ops : List UsageOp) : ResourceManager := Runs.exec step new ops

/-- What a call reports about the slots in use. -/
def UsageOp.report? : UsageOp → Option (String × ℕ)
  | .register _ => none
  | .heartbeat req => some (req.taskManagerId, req.slotsInUse)
  | .updateSlotUsage tmId slotsInUse => some (tmId, slotsInUse)
  | .remove _ => none

/-- A call does not report more slots in use than the TaskManager has registered. -/
def Admissible (rm : ResourceManager) (op : UsageOp) : Prop :=
  ∀ report ∈ op.report?, ∀ info ∈ rm.get report.1, report.2 ≤ info.numSlots

variable {rm : ResourceManager} {tmId : String} {info : TaskManagerInfo}

/-! ## Usage and capacity -/

/-- No TaskManager has more slots in use than registered. -/
def Bounded (rm : ResourceManager) : Prop :=
  ∀ tmId, ∀ info ∈ rm.get tmId, info.slotsInUse ≤ info.numSlots

/-- **Usage stays within the capacity**, and no subtraction underflows: for one TaskManager, for its
offer, and in the sum over the offers that `deploy_job` compares with the parallelism. -/
structure Within (rm : ResourceManager) : Prop where
  bounded : rm.Bounded
  slotsAvailable : ∀ tmId, ∀ info ∈ rm.get tmId, ∃ n, info.slotsAvailable = .ok n
  offers : ∀ iter, ∀ o ∈ rm.slotOffers iter, ∃ n, o.available true = .ok n
  capacity : ∀ iter, totalAvailable true (rm.slotOffers iter) ≠ .error subtractOverflow

theorem sub_eq_ok_iff {a b : ℕ} : (∃ n, sub a b = .ok n) ↔ b ≤ a := by
  unfold sub
  by_cases h : b ≤ a <;> simp [h]

theorem bounded_iff_offers (iter : IterOrder String) :
    rm.Bounded ↔ ∀ o ∈ rm.slotOffers iter, o.usedSlots ≤ o.totalSlots := by
  constructor
  · intro h o ho
    obtain ⟨info, hinfo, rfl⟩ := mem_slotOffers.mp ho
    obtain ⟨tmId, hget⟩ := mem_list.mp hinfo
    exact h tmId info hget
  · intro h tmId info hget
    exact h info.slotOffer (mem_slotOffers.mpr ⟨info, mem_list.mpr ⟨tmId, hget⟩, rfl⟩)

theorem within_iff : rm.Within ↔ rm.Bounded := by
  refine ⟨Within.bounded, fun h => ⟨h, ?_, ?_, ?_⟩⟩
  · exact fun tmId info hget => sub_eq_ok_iff.mpr (h tmId info hget)
  · exact fun iter o ho => ⟨_, o.available_eq true ((bounded_iff_offers iter).mp h o ho)⟩
  · intro iter
    rw [totalAvailable_eq true ((bounded_iff_offers iter).mp h)]
    split_ifs <;> simp

/-! ## One call -/

theorem get_step_of_silent {op : UsageOp} (hsilent : op.report? = none)
    (h : (rm.step op).get tmId = some info) : rm.get tmId = some info ∨ info.slotsInUse = 0 := by
  cases op with
  | register req =>
    change (rm.register req).2.get tmId = _ at h
    rw [get_register] at h
    split_ifs at h
    · cases h
      exact .inr rfl
    · exact .inl h
  | remove id =>
    change (rm.remove id).2.get tmId = _ at h
    rw [get_remove] at h
    split_ifs at h
    exact .inl h
  | heartbeat req => cases hsilent
  | updateSlotUsage id slotsInUse => cases hsilent

theorem get_step_of_report {op : UsageOp} {report : String × ℕ} (hreport : op.report? = some report)
    (tmId : String) : (rm.step op).get tmId =
      if tmId = report.1 then (rm.get tmId).map fun info => { info with slotsInUse := report.2 }
      else rm.get tmId := by
  cases op with
  | heartbeat req =>
    cases hreport
    exact get_heartbeat req tmId
  | updateSlotUsage id slotsInUse =>
    cases hreport
    exact get_updateSlotUsage id slotsInUse tmId
  | register req => cases hreport
  | remove id => cases hreport

theorem Bounded.step (h : rm.Bounded) {op : UsageOp} (hop : rm.Admissible op) :
    (rm.step op).Bounded := by
  intro tmId info hget
  cases hreport : op.report? with
  | none =>
    rcases get_step_of_silent hreport hget with hold | hzero
    · exact h tmId info hold
    · rw [hzero]
      exact Nat.zero_le _
  | some report =>
    rw [Option.mem_def, get_step_of_report hreport] at hget
    split_ifs at hget with htm
    · obtain ⟨info', hinfo', rfl⟩ := Option.map_eq_some_iff.mp hget
      exact hop report hreport info' (htm ▸ hinfo')
    · exact h tmId info hget

theorem not_bounded_step {op : UsageOp} (hop : ¬ rm.Admissible op) : ¬ (rm.step op).Bounded := by
  unfold Admissible at hop
  push Not at hop
  obtain ⟨report, hreport, info, hinfo, hlt⟩ := hop
  intro h
  have hget : (rm.step op).get report.1 = some { info with slotsInUse := report.2 } := by
    rw [get_step_of_report hreport, if_pos rfl, hinfo]
    rfl
  exact absurd (h report.1 _ hget) (Nat.not_le.mpr hlt)

theorem bounded_new : new.Bounded := fun _ _ h => by cases h

/-- **The runs that stay within the slots**: at every point, exactly if no call reports more slots
in use than its TaskManager has registered at that time. -/
theorem within_run_iff (ops : List UsageOp) :
    (∀ pre, pre <+: ops → (run pre).Within) ↔ Runs.Along step Admissible new ops := by
  simp only [within_iff]
  exact Runs.forall_prefix_iff_along (I := fun _ => True) (A := fun _ => True)
    (fun _ _ _ _ _ _ => trivial) (fun _ _ _ _ h hop => h.step hop)
    (fun _ _ _ _ _ hop => not_bounded_step hop) trivial bounded_new (fun _ _ => trivial)

/-- A TaskManager registers again with fewer slots, and a heartbeat from before arrives: three of
two slots are in use. -/
theorem delayed_not_within : ¬ (run [.register ⟨"tm-1", "host:1", 4, []⟩,
    .register ⟨"tm-1", "host:1", 2, []⟩, .heartbeat ⟨"tm-1", 3⟩]).Within := by
  intro h
  have hget : (run [.register ⟨"tm-1", "host:1", 4, []⟩, .register ⟨"tm-1", "host:1", 2, []⟩,
      .heartbeat ⟨"tm-1", 3⟩]).get "tm-1" = some ⟨"tm-1", "host:1", 2, 3, []⟩ := by decide
  exact absurd (h.bounded "tm-1" _ hget) (by decide)

end Flume.ResourceManager
