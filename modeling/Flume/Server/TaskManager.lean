import Flume.Core.Record
import Flume.Network.SlotManager

/-!
# The event loop of a TaskManager

`run_event_loop` handles the deployments and cancellations that arrive over gRPC, one at a time. A
cancellation names a job, but the subtask is looked up by its id alone.

* `TmEvent`, `TmReply`, `handle`: the loop body;
* `Isolated`: a cancellation frees slots of its own job only and replies whether the job had the
  subtask deployed;
* `CancelsOwn`: the slot that the map gives for the subtask is the job's own;
* **`isolated_iff`**: all cancellations of a run are isolated if and only if each cancels its own.
-/

namespace Flume

/-- The events that the gRPC service sends to the loop, with the data that the loop reads. -/
inductive TmEvent
  | deploySubtask (jobId subtaskId : String)
  | cancelSubtask (jobId subtaskId : String)
  | injectBarrier (jobId : String) (checkpointId : U64)
  deriving DecidableEq

/-- What is sent through the reply channel of an event, if it has one. -/
inductive TmReply
  | deployed (result : Except String Unit)
  | cancelled (found : Bool)
  | noReply

namespace TaskManager

/-- Handles an event. -/
def handle (sm : SlotManager) : TmEvent → TmReply × SlotManager
  | .deploySubtask jobId subtaskId =>
    match sm.deploy jobId subtaskId with
    | (some _, sm) => (.deployed (.ok ()), sm)
    | (none, sm) => (.deployed (.error "no free slots"), sm)
  | .cancelSubtask _ subtaskId =>
    let (cancelled, sm) := sm.cancel subtaskId
    (.cancelled cancelled, sm)
  | .injectBarrier _ _ => (.noReply, sm)

/-- The slots after an event. -/
def step (sm : SlotManager) (ev : TmEvent) : SlotManager := (handle sm ev).2

/-- The slots of a TaskManager with `numSlots` slots after a sequence of events. -/
def run (numSlots : ℕ) (es : List TmEvent) : SlotManager :=
  Runs.exec step (SlotManager.new numSlots) es

open SlotManager

variable {sm : SlotManager} {jobId subtaskId : String}

theorem step_deploySubtask :
    step sm (.deploySubtask jobId subtaskId) = (sm.deploy jobId subtaskId).2 := by
  unfold step handle
  dsimp only
  rcases sm.deploy jobId subtaskId with ⟨_ | slotIdx, sm'⟩ <;> rfl

theorem handle_cancelSubtask : handle sm (.cancelSubtask jobId subtaskId) =
    (.cancelled (sm.cancel subtaskId).1, (sm.cancel subtaskId).2) := rfl

theorem mapped_step (h : Mapped sm) (ev : TmEvent) : Mapped (step sm ev) := by
  cases ev with
  | deploySubtask jobId subtaskId =>
    rw [step_deploySubtask]
    exact h.deploy jobId subtaskId
  | cancelSubtask jobId subtaskId => exact h.cancel subtaskId
  | injectBarrier jobId checkpointId => exact h

theorem mapped_run (numSlots : ℕ) (es : List TmEvent) : Mapped (run numSlots es) :=
  Runs.exec_invariant (P := Mapped) (fun _ ev h => mapped_step h ev) (mapped_new numSlots) es

/-! ## Isolated cancellations -/

/-- **Isolation**: handling `CancelSubtask` leaves every slot of another job unchanged and replies
`true` exactly when the job has the subtask in some slot. -/
def Isolated (sm : SlotManager) (jobId subtaskId : String) : Prop :=
  let (reply, sm') := handle sm (.cancelSubtask jobId subtaskId)
  (∀ (i : ℕ) (otherJob other : String), otherJob ≠ jobId →
    sm.slots[i]? = some (.occupied otherJob other) →
      sm'.slots[i]? = some (.occupied otherJob other)) ∧
  (reply = .cancelled true ↔ .occupied jobId subtaskId ∈ sm.slots)

/-- If the map gives a slot for the subtask, the job occupies it; if not, the job has no slot left
with that subtask. -/
def CancelsOwn (sm : SlotManager) : TmEvent → Prop
  | .cancelSubtask jobId subtaskId =>
    match sm.subtaskToSlot.lookup subtaskId with
    | some slotIdx => sm.slots[slotIdx]? = some (.occupied jobId subtaskId)
    | none => .occupied jobId subtaskId ∉ sm.slots
  | _ => True

instance (sm : SlotManager) : ∀ ev, Decidable (CancelsOwn sm ev)
  | .deploySubtask _ _ => instDecidableTrue
  | .cancelSubtask jobId subtaskId =>
    match h : sm.subtaskToSlot.lookup subtaskId with
    | some slotIdx => decidable_of_iff (sm.slots[slotIdx]? = some (.occupied jobId subtaskId))
        (by simp only [CancelsOwn, h])
    | none => decidable_of_iff (.occupied jobId subtaskId ∉ sm.slots)
        (by simp only [CancelsOwn, h])
  | .injectBarrier _ _ => instDecidableTrue

/-- One cancellation, from a state of a run. -/
theorem isolated_iff_cancelsOwn (hm : Mapped sm) :
    Isolated sm jobId subtaskId ↔ CancelsOwn sm (.cancelSubtask jobId subtaskId) := by
  unfold Isolated CancelsOwn
  simp only [handle_cancelSubtask]
  cases hlookup : sm.subtaskToSlot.lookup subtaskId with
  | none =>
    simp only [cancel_of_none hlookup]
    simp
  | some slotIdx =>
    obtain ⟨owner, howner⟩ := hm subtaskId slotIdx hlookup
    have hfreed := getElem?_cancel_self hlookup
    have hreply : (sm.cancel subtaskId).1 = true := by rw [cancel_of_some hlookup]
    simp only [hreply]
    rw [howner] at hfreed ⊢
    constructor
    · rintro ⟨hframe, -⟩
      by_contra hne
      have hother : owner ≠ jobId := by
        rintro rfl
        exact hne rfl
      rw [hframe slotIdx owner subtaskId hother howner] at hfreed
      cases hfreed
    · intro hown
      obtain ⟨rfl, -⟩ := SlotState.occupied.inj (Option.some.inj hown)
      refine ⟨fun i otherJob other hother hi => ?_, by simp [List.mem_of_getElem? howner]⟩
      rw [getElem?_cancel_of_ne, hi]
      -- the subtask's slot belongs to the job itself
      rintro hsame
      rw [hlookup] at hsame
      obtain rfl := Option.some.inj hsame
      rw [howner] at hi
      exact hother (SlotState.occupied.inj (Option.some.inj hi)).1.symm

/-- **When cancelling a job never touches another:** if each cancellation finds a slot of its own
job, or finds nothing and the job holds none. -/
theorem isolated_iff (numSlots : ℕ) (es : List TmEvent) :
    (∀ pre jobId subtaskId post, es = pre ++ .cancelSubtask jobId subtaskId :: post →
      Isolated (run numSlots pre) jobId subtaskId) ↔
    Runs.Along step CancelsOwn (SlotManager.new numSlots) es := by
  rw [Runs.along_iff_eachStep]
  constructor
  · intro h pre ev post hes
    cases ev with
    | cancelSubtask jobId subtaskId =>
      exact (isolated_iff_cancelsOwn (mapped_run numSlots pre)).mp (h pre jobId subtaskId post hes)
    | deploySubtask jobId subtaskId => trivial
    | injectBarrier jobId checkpointId => trivial
  · intro h pre jobId subtaskId post hes
    exact (isolated_iff_cancelsOwn (mapped_run numSlots pre)).mpr (h pre _ post hes)

/-- Job `1` is deployed, and job `2` cancels a subtask of the same name: the slot of job `1` is
freed, and the reply is `true`. -/
theorem cancel_not_isolated :
    handle (run 1 [.deploySubtask "1" "wordcount-source-0"])
      (.cancelSubtask "2" "wordcount-source-0") = (.cancelled true, ⟨[.free], ∅⟩) ∧
    ¬ Isolated (run 1 [.deploySubtask "1" "wordcount-source-0"]) "2" "wordcount-source-0" := by
  refine ⟨rfl, fun h => ?_⟩
  exact absurd (h.1 0 "1" "wordcount-source-0" (by decide) rfl) (by decide)

end TaskManager
end Flume
