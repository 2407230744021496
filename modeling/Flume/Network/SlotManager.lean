import Flume.Lib.Entries
import Flume.Lib.Runs

/-!
# The slots of a TaskManager

`SlotManager` keeps a vector of slots and, for fast lookup, a map from subtask ids to slot indices.
The map is keyed by the subtask id alone.

* `SlotState`, `SlotManager`, `deploy`, `cancel`, `cancelJob`: the operations as the code has them;
* `SlotOp`, `run`: any sequence of calls;
* `getElem?_cancelAll_of_ne`, `getElem?_cancelAll_of_mem`: what `cancel_job` does to a slot;
* **`mapped_run`**: after every sequence of calls, every entry of the map leads to a slot that is
  occupied by its subtask.
-/

namespace Flume

open Entries

/-- State of a single slot on a TaskManager. -/
inductive SlotState
  | free
  | occupied (jobId subtaskId : String)
  deriving DecidableEq

/-- The subtask in a slot. -/
def SlotState.subtask? : SlotState → Option String
  | free => none
  | occupied _ subtaskId => some subtaskId

/-- The job in a slot. -/
def SlotState.job? : SlotState → Option String
  | free => none
  | occupied jobId _ => some jobId

theorem SlotState.subtask?_eq_some {st : SlotState} {s : String} :
    st.subtask? = some s ↔ ∃ j, st = occupied j s := by
  cases st <;> simp [subtask?]

/-- The slots of a TaskManager, and where each deployed subtask is. -/
structure SlotManager where
  slots : List SlotState
  subtaskToSlot : AList fun _ : String => ℕ

namespace SlotManager

/-- `numSlots` free slots. -/
def new (numSlots : ℕ) : SlotManager := ⟨List.replicate numSlots .free, ∅⟩

def totalSlots (m : SlotManager) : ℕ := m.slots.length

def slotsInUse (m : SlotManager) : ℕ := m.subtaskToSlot.keys.length

def slotsAvailable (m : SlotManager) : ℕ := m.totalSlots - m.slotsInUse

/-- The first free slot. -/
def freeSlot? (m : SlotManager) : Option ℕ := m.slots.findIdx? (· = .free)

/-- Puts a subtask into the first free slot. -/
def deploy (m : SlotManager) (jobId subtaskId : String) : Option ℕ × SlotManager :=
  match m.freeSlot? with
  | none => (none, m)
  | some slotIdx => (some slotIdx, {
      slots := m.slots.set slotIdx (.occupied jobId subtaskId)
      subtaskToSlot := m.subtaskToSlot.insert subtaskId slotIdx })

/-- Frees the slot of a subtask. -/
def cancel (m : SlotManager) (subtaskId : String) : Bool × SlotManager :=
  match m.subtaskToSlot.lookup subtaskId with
  | some slotIdx => (true, {
      slots := m.slots.set slotIdx .free
      subtaskToSlot := m.subtaskToSlot.erase subtaskId })
  | none => (false, m)

/-- Whether the map leads from a subtask to a slot of the job. -/
def isOfJob (m : SlotManager) (jobId subtaskId : String) : Bool :=
  match m.subtaskToSlot.lookup subtaskId with
  | some idx => (m.slots[idx]?.bind SlotState.job?) = some jobId
  | none => false

/-- The subtasks that `cancel_job` collects. -/
def toRemove (iter : IterOrder String) (m : SlotManager) (jobId : String) : List String :=
  (iter.order m.subtaskToSlot.keys).filter (m.isOfJob jobId)

/-- Cancels the subtasks, one after the other. -/
def cancelAll (m : SlotManager) (subtaskIds : List String) : SlotManager :=
  subtaskIds.foldl (fun m subtaskId => (m.cancel subtaskId).2) m

/-- Cancels all subtasks of a job. -/
def cancelJob (iter : IterOrder String) (m : SlotManager) (jobId : String) : ℕ × SlotManager :=
  ((m.toRemove iter jobId).length, m.cancelAll (m.toRemove iter jobId))

/-- Whether a subtask is deployed. -/
def isDeployed (m : SlotManager) (subtaskId : String) : Bool :=
  (m.subtaskToSlot.lookup subtaskId).isSome

end SlotManager

/-- A call; `iter` is the order in which `cancel_job` meets the keys of the map. -/
inductive SlotOp
  | deploy (jobId subtaskId : String)
  | cancel (subtaskId : String)
  | cancelJob (iter : IterOrder String) (jobId : String)

namespace SlotManager

/-- The state after a call. -/
def step (m : SlotManager) : SlotOp → SlotManager
  | .deploy jobId subtaskId => (m.deploy jobId subtaskId).2
  | .cancel subtaskId => (m.cancel subtaskId).2
  | .cancelJob iter jobId => (m.cancelJob iter jobId).2

/-- The state after a sequence of calls. -/
def run (numSlots : ℕ) (ops : List SlotOp) : SlotManager := Runs.exec step (new numSlots) ops

variable {m : SlotManager} {i : ℕ} {j s : String}

/-! ## What a call does -/

theorem freeSlot?_eq_some (h : m.freeSlot? = some i) : m.slots[i]? = some .free := by
  unfold freeSlot? at h
  rw [List.findIdx?_eq_some_iff_getElem] at h
  obtain ⟨hi, hfree, -⟩ := h
  rw [List.getElem?_eq_getElem hi, of_decide_eq_true hfree]

theorem freeSlot?_eq_none : m.freeSlot? = none ↔ .free ∉ m.slots := by
  unfold freeSlot?
  rw [List.findIdx?_eq_none_iff]
  constructor
  · intro h hmem
    simpa using h _ hmem
  · intro h st hst
    rw [decide_eq_false_iff_not]
    rintro rfl
    exact h hst

theorem deploy_of_full (h : m.freeSlot? = none) : m.deploy j s = (none, m) := by
  unfold deploy
  rw [h]

theorem deploy_of_free (h : m.freeSlot? = some i) : m.deploy j s = (some i, {
    slots := m.slots.set i (.occupied j s)
    subtaskToSlot := m.subtaskToSlot.insert s i }) := by
  unfold deploy
  rw [h]

theorem cancel_of_none (h : m.subtaskToSlot.lookup s = none) : m.cancel s = (false, m) := by
  unfold cancel
  rw [h]

theorem cancel_of_some (h : m.subtaskToSlot.lookup s = some i) : m.cancel s = (true, {
    slots := m.slots.set i .free
    subtaskToSlot := m.subtaskToSlot.erase s }) := by
  unfold cancel
  rw [h]

theorem lookup_cancel (s s' : String) : (m.cancel s).2.subtaskToSlot.lookup s' =
    if s' = s then none else m.subtaskToSlot.lookup s' := by
  cases h : m.subtaskToSlot.lookup s with
  | none =>
    rw [cancel_of_none h]
    split_ifs with hs
    · rw [hs, h]
    · rfl
  | some i =>
    rw [cancel_of_some h]
    split_ifs with hs
    · rw [hs]; exact AList.lookup_erase _ _
    · exact AList.lookup_erase_ne hs

theorem length_cancel (s : String) : (m.cancel s).2.slots.length = m.slots.length := by
  unfold cancel
  cases m.subtaskToSlot.lookup s with
  | none => rfl
  | some i => exact List.length_set

theorem getElem?_cancel_of_ne (h : m.subtaskToSlot.lookup s ≠ some i) :
    (m.cancel s).2.slots[i]? = m.slots[i]? := by
  cases hs : m.subtaskToSlot.lookup s with
  | none => rw [cancel_of_none hs]
  | some i' =>
    rw [cancel_of_some hs]
    refine List.getElem?_set_ne ?_
    rintro rfl
    exact h hs

theorem getElem?_cancel_self (h : m.subtaskToSlot.lookup s = some i) :
    (m.cancel s).2.slots[i]? = m.slots[i]?.map fun _ => .free := by
  rw [cancel_of_some h]
  exact List.getElem?_set_self'

theorem cancelAll_keeps {P : SlotManager → Prop} (hcancel : ∀ m s, P m → P (m.cancel s).2)
    (h : P m) (ss : List String) : P (m.cancelAll ss) :=
  Runs.exec_invariant hcancel h ss

theorem cancelAll_cons (s : String) (ss : List String) :
    m.cancelAll (s :: ss) = (m.cancel s).2.cancelAll ss := rfl

theorem getElem?_cancelAll_of_ne {ss : List String}
    (h : ∀ s ∈ ss, m.subtaskToSlot.lookup s ≠ some i) :
    (m.cancelAll ss).slots[i]? = m.slots[i]? := by
  induction ss generalizing m with
  | nil => rfl
  | cons s ss ih =>
    rw [cancelAll_cons, ih, getElem?_cancel_of_ne (h s List.mem_cons_self)]
    intro s' hs'
    rw [lookup_cancel]
    split_ifs
    · simp
    · exact h s' (List.mem_cons_of_mem _ hs')

theorem getElem?_cancelAll_of_free {ss : List String} (h : m.slots[i]? = some .free) :
    (m.cancelAll ss).slots[i]? = some .free := by
  refine cancelAll_keeps (P := fun m => m.slots[i]? = some .free) (fun m s hm => ?_) h ss
  by_cases hs : m.subtaskToSlot.lookup s = some i
  · rw [getElem?_cancel_self hs, hm]; rfl
  · rw [getElem?_cancel_of_ne hs, hm]

theorem getElem?_cancelAll_of_mem {ss : List String} (hs : s ∈ ss)
    (hi : m.subtaskToSlot.lookup s = some i) (hlt : i < m.slots.length) :
    (m.cancelAll ss).slots[i]? = some .free := by
  induction ss generalizing m with
  | nil => exact absurd hs List.not_mem_nil
  | cons s' ss ih =>
    rw [cancelAll_cons]
    by_cases hs' : m.subtaskToSlot.lookup s' = some i
    · refine getElem?_cancelAll_of_free ?_
      rw [getElem?_cancel_self hs', List.getElem?_eq_getElem hlt]
      rfl
    · have hne : s ≠ s' := by
        rintro rfl
        exact hs' hi
      refine ih ((List.mem_cons.mp hs).resolve_left hne) ?_ (by rwa [length_cancel])
      rw [lookup_cancel, if_neg hne, hi]

/-! ## Every entry of the map leads to its subtask -/

/-- Every entry of the map leads to a slot occupied by its subtask. -/
def Mapped (m : SlotManager) : Prop :=
  ∀ s i, m.subtaskToSlot.lookup s = some i → ∃ j, m.slots[i]? = some (.occupied j s)

theorem Mapped.inj (h : Mapped m) {s' : String} (hs : m.subtaskToSlot.lookup s = some i)
    (hs' : m.subtaskToSlot.lookup s' = some i) : s = s' := by
  obtain ⟨j, hj⟩ := h s i hs
  obtain ⟨j', hj'⟩ := h s' i hs'
  rw [hj] at hj'
  exact (SlotState.occupied.inj (Option.some.inj hj')).2

theorem Mapped.deploy (h : Mapped m) (j s : String) : Mapped (m.deploy j s).2 := by
  cases hfree : m.freeSlot? with
  | none => rw [deploy_of_full hfree]; exact h
  | some i =>
    have hi := freeSlot?_eq_some hfree
    rw [deploy_of_free hfree]
    intro s' i' hs'
    dsimp only at hs' ⊢
    by_cases hss : s' = s
    · subst hss
      rw [AList.lookup_insert] at hs'
      obtain rfl := Option.some.inj hs'
      exact ⟨j, List.getElem?_set_self (List.getElem?_eq_some_iff.mp hi).1⟩
    · rw [AList.lookup_insert_ne hss] at hs'
      obtain ⟨j', hj'⟩ := h s' i' hs'
      refine ⟨j', ?_⟩
      rw [List.getElem?_set_ne, hj']
      rintro rfl
      rw [hi] at hj'
      cases hj'

theorem Mapped.cancel (h : Mapped m) (s : String) : Mapped (m.cancel s).2 := by
  intro s' i' hs'
  rw [lookup_cancel] at hs'
  split_ifs at hs' with hss
  rw [getElem?_cancel_of_ne]
  · exact h s' i' hs'
  · intro hs
    exact hss (h.inj hs' hs)

theorem Mapped.step (h : Mapped m) (op : SlotOp) : Mapped (m.step op) := by
  cases op with
  | deploy j s => exact h.deploy j s
  | cancel s => exact h.cancel s
  | cancelJob iter j => exact cancelAll_keeps (fun m s hm => hm.cancel s) h _

theorem mapped_new (numSlots : ℕ) : Mapped (new numSlots) := by
  intro s i hs
  rw [new, AList.lookup_empty] at hs
  cases hs

theorem mapped_run (numSlots : ℕ) (ops : List SlotOp) : Mapped (run numSlots ops) :=
  Runs.exec_invariant (fun _ op h => h.step op) (mapped_new numSlots) ops

end SlotManager
end Flume
