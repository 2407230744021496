import Flume.Lib.Entries
import Flume.Runtime.Physical

/-!
# The resource manager

`ResourceManager` is what the JobManager knows about the TaskManagers: how many slots each has
registered with, and how many the last heartbeat said are in use.

* `register`, `heartbeat`, `slotOffers`, `updateSlotUsage`, `remove`: the operations as the code has
  them;
* `Keyed`: every TaskManager is filed under its own id;
* **`nodup_slotOffers`**: the offers are of different TaskManagers.
-/

namespace Flume

open Entries ScheduleFailure

/-- The state of a registered TaskManager. -/
structure TaskManagerInfo where
  id : String
  address : String
  numSlots : ℕ
  slotsInUse : ℕ
  registeredJobs : List String
  deriving DecidableEq

/-- The slots that are not in use. -/
def TaskManagerInfo.slotsAvailable (info : TaskManagerInfo) : Except ScheduleFailure ℕ :=
  sub info.numSlots info.slotsInUse

/-- The offer of a TaskManager. -/
def TaskManagerInfo.slotOffer (info : TaskManagerInfo) : SlotOffer :=
  ⟨info.id, info.numSlots, info.slotsInUse⟩

/-- The registration of a TaskManager. -/
structure RegisterRequest where
  taskManagerId : String
  address : String
  numSlots : ℕ
  registeredJobs : List String

/-- A heartbeat, with the data that the resource manager reads. -/
structure HeartbeatRequest where
  taskManagerId : String
  slotsInUse : ℕ

/-- The inventory of TaskManagers. -/
structure ResourceManager where
  taskManagers : AList fun _ : String => TaskManagerInfo

namespace ResourceManager

def new : ResourceManager := ⟨∅⟩

/-- Registers a TaskManager, in the place of an earlier one with its id. -/
def register (rm : ResourceManager) (req : RegisterRequest) : Bool × ResourceManager :=
  (true, ⟨rm.taskManagers.insert req.taskManagerId {
    id := req.taskManagerId
    address := req.address
    numSlots := req.numSlots
    slotsInUse := 0
    registeredJobs := req.registeredJobs }⟩)

/-- The information about a TaskManager. -/
def get (rm : ResourceManager) (tmId : String) : Option TaskManagerInfo :=
  rm.taskManagers.lookup tmId

/-- Updates the slot usage, unless the TaskManager is unknown. -/
def heartbeat (rm : ResourceManager) (req : HeartbeatRequest) : Bool × ResourceManager :=
  match rm.get req.taskManagerId with
  | some info =>
    (true, ⟨rm.taskManagers.insert req.taskManagerId { info with slotsInUse := req.slotsInUse }⟩)
  | none => (false, rm)

/-- Updates the slot usage of a TaskManager. -/
def updateSlotUsage (rm : ResourceManager) (tmId : String) (slotsInUse : ℕ) : ResourceManager :=
  match rm.get tmId with
  | some info => ⟨rm.taskManagers.insert tmId { info with slotsInUse := slotsInUse }⟩
  | none => rm

/-- Removes a TaskManager. -/
def remove (rm : ResourceManager) (tmId : String) : Option TaskManagerInfo × ResourceManager :=
  (rm.get tmId, ⟨rm.taskManagers.erase tmId⟩)

/-- The registered TaskManagers, in the order of the map's iteration. -/
def list (iter : IterOrder String) (rm : ResourceManager) : List TaskManagerInfo :=
  (visit iter rm.taskManagers).map Prod.snd

/-- The offers of all TaskManagers. -/
def slotOffers (iter : IterOrder String) (rm : ResourceManager) : List SlotOffer :=
  (rm.list iter).map TaskManagerInfo.slotOffer

variable {rm : ResourceManager} {iter : IterOrder String} {info : TaskManagerInfo} {tmId : String}

theorem get_register (req : RegisterRequest) (tmId : String) : (rm.register req).2.get tmId =
    if tmId = req.taskManagerId then
      some ⟨req.taskManagerId, req.address, req.numSlots, 0, req.registeredJobs⟩
    else rm.get tmId := by
  unfold register get
  split_ifs with h
  · subst h; exact AList.lookup_insert _
  · exact AList.lookup_insert_ne h

theorem get_heartbeat (req : HeartbeatRequest) (tmId : String) : (rm.heartbeat req).2.get tmId =
    if tmId = req.taskManagerId then
      (rm.get tmId).map fun info => { info with slotsInUse := req.slotsInUse }
    else rm.get tmId := by
  unfold heartbeat
  cases hget : rm.get req.taskManagerId with
  | none =>
    split_ifs with h
    · rw [h, hget]; rfl
    · rfl
  | some info =>
    split_ifs with h
    · rw [h, hget]; exact AList.lookup_insert _
    · exact AList.lookup_insert_ne h

theorem get_updateSlotUsage (id : String) (slotsInUse : ℕ) (tmId : String) :
    (rm.updateSlotUsage id slotsInUse).get tmId =
      if tmId = id then (rm.get tmId).map fun info => { info with slotsInUse := slotsInUse }
      else rm.get tmId := by
  have hupdate : rm.updateSlotUsage id slotsInUse = (rm.heartbeat ⟨id, slotsInUse⟩).2 := by
    unfold updateSlotUsage heartbeat
    cases rm.get id <;> rfl
  rw [hupdate]
  exact get_heartbeat ⟨id, slotsInUse⟩ tmId

theorem get_remove (id tmId : String) :
    (rm.remove id).2.get tmId = if tmId = id then none else rm.get tmId := by
  unfold remove get
  split_ifs with h
  · subst h; exact AList.lookup_erase _ _
  · exact AList.lookup_erase_ne h

theorem mem_list : info ∈ rm.list iter ↔ ∃ tmId, rm.get tmId = some info := by
  unfold list
  rw [List.mem_map]
  constructor
  · rintro ⟨⟨tmId, _⟩, hmem, rfl⟩
    exact ⟨tmId, mem_visit.mp hmem⟩
  · rintro ⟨tmId, hget⟩
    exact ⟨(tmId, info), mem_visit.mpr hget, rfl⟩

theorem mem_slotOffers {o : SlotOffer} :
    o ∈ rm.slotOffers iter ↔ ∃ info, info ∈ rm.list iter ∧ info.slotOffer = o := by
  unfold slotOffers
  rw [List.mem_map]

/-! ## TaskManagers under their ids -/

/-- Every TaskManager is filed under its own id. -/
def Keyed (rm : ResourceManager) : Prop := ∀ tmId info, rm.get tmId = some info → info.id = tmId

theorem keyed_new : Keyed new := fun _ _ h => by cases h

theorem Keyed.register (h : Keyed rm) (req : RegisterRequest) : Keyed (rm.register req).2 := by
  intro tmId info hget
  rw [get_register] at hget
  split_ifs at hget with htm
  · cases hget
    exact htm.symm
  · exact h tmId info hget

theorem Keyed.heartbeat (h : Keyed rm) (req : HeartbeatRequest) : Keyed (rm.heartbeat req).2 := by
  intro tmId info hget
  rw [get_heartbeat] at hget
  split_ifs at hget with htm
  · obtain ⟨info', hget', rfl⟩ := Option.map_eq_some_iff.mp hget
    exact h tmId info' hget'
  · exact h tmId info hget

theorem Keyed.mem_list (h : Keyed rm) : info ∈ rm.list iter ↔ rm.get info.id = some info := by
  rw [ResourceManager.mem_list]
  constructor
  · rintro ⟨tmId, hget⟩
    rw [h tmId info hget, hget]
  · exact fun hget => ⟨info.id, hget⟩

/-- **The offers are of different TaskManagers.** -/
theorem Keyed.nodup_slotOffers (h : Keyed rm) (iter : IterOrder String) :
    ((rm.slotOffers iter).map SlotOffer.taskManagerId).Nodup := by
  have hids : (rm.slotOffers iter).map SlotOffer.taskManagerId =
      (visit iter rm.taskManagers).map Prod.fst := by
    unfold slotOffers list
    rw [List.map_map, List.map_map]
    refine List.map_congr_left ?_
    rintro ⟨tmId, info⟩ hmem
    exact h tmId info (mem_visit.mp hmem)
  rw [hids]
  exact nodup_visit

end ResourceManager
end Flume
