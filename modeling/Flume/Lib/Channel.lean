import Mathlib.Data.List.Basic
import Mathlib.Tactic

/-!
# FIFO channels with a history

The receiving end of a FIFO channel, as its reader sees it: elements arrive at the end of `queue`
and leave it at the front; `closed` says that every sender is gone. `taken` is a history variable,
the elements received so far, so that `sent = taken ++ queue` is everything ever sent.
-/

namespace Channels

variable {α : Type*}

/-- A FIFO channel. -/
structure Channel (α : Type*) where
  taken : List α := []
  queue : List α := []
  closed : Bool := false

/-- The answer of a non-blocking receive. -/
inductive Polled (α : Type*)
  | item (a : α) (c : Channel α)
  | empty
  | disconnected

namespace Channel

/-- Everything sent on the channel so far. -/
def sent (c : Channel α) : List α := c.taken ++ c.queue

/-- A sender puts an element; once all senders are gone there is none to do so. -/
def send (c : Channel α) (a : α) : Channel α :=
  if c.closed then c else { c with queue := c.queue ++ [a] }

/-- A non-blocking send into a channel with room for `capacity` elements. -/
def trySend (capacity : ℕ) (c : Channel α) (a : α) : Option (Channel α) :=
  if c.queue.length < capacity then some { c with queue := c.queue ++ [a] } else none

/-- The last sender is dropped. -/
def close (c : Channel α) : Channel α := { c with closed := true }

/-- A non-blocking receive. -/
def tryRecv (c : Channel α) : Polled α :=
  match c.queue with
  | a :: q => .item a { c with taken := c.taken ++ [a], queue := q }
  | [] => if c.closed then .disconnected else .empty

/-- The channel is closed and drained. -/
def Disconnected (c : Channel α) : Prop := c.closed = true ∧ c.queue = []

/-- A blocking receive would return: there is an element, or none can come any more. -/
def ready (c : Channel α) : Bool := !c.queue.isEmpty || c.closed

variable {c c' : Channel α} {a b : α}

theorem tryRecv_item (h : c.tryRecv = .item a c') :
    c.queue = a :: c'.queue ∧ c'.taken = c.taken ++ [a] ∧ c'.closed = c.closed := by
  unfold tryRecv at h
  split at h
  · rename_i b q hq
    obtain ⟨rfl, rfl⟩ := Polled.item.inj h
    exact ⟨hq, rfl, rfl⟩
  · split at h <;> cases h

theorem tryRecv_of_head? (h : c.queue.head? = some a) : ∃ c', c.tryRecv = .item a c' := by
  obtain ⟨q, hq⟩ := List.head?_eq_some_iff.mp h
  exact ⟨_, by unfold tryRecv; rw [hq]⟩

theorem tryRecv_disconnected (h : c.tryRecv = .disconnected) : c.Disconnected := by
  unfold tryRecv at h
  split at h
  · cases h
  · rename_i hq
    split at h
    · exact ⟨‹_›, hq⟩
    · cases h

theorem tryRecv_empty (h : c.tryRecv = .empty) : c.queue = [] ∧ c.closed = false := by
  unfold tryRecv at h
  split at h
  · cases h
  · rename_i hq
    split at h
    · cases h
    · exact ⟨hq, by simpa using ‹¬ c.closed = true›⟩

theorem sent_of_tryRecv (h : c.tryRecv = .item a c') : c'.sent = c.sent := by
  obtain ⟨h1, h2, -⟩ := tryRecv_item h
  rw [sent, sent, h1, h2, List.append_assoc, List.singleton_append]

theorem sent_of_disconnected (h : c.Disconnected) : c.sent = c.taken := by
  rw [sent, h.2, List.append_nil]

@[simp] theorem taken_send : (c.send a).taken = c.taken := by unfold send; split <;> rfl
@[simp] theorem taken_close : c.close.taken = c.taken := rfl
theorem send_of_closed (h : c.closed = true) : c.send a = c := if_pos h

theorem sent_send (h : c.closed = false) : (c.send a).sent = c.sent ++ [a] := by
  simp [send, h, sent]

theorem sent_prefix_send : c.sent <+: (c.send a).sent := by
  cases h : c.closed with
  | true => rw [send_of_closed h]
  | false => exact ⟨[a], (sent_send h).symm⟩

theorem sent_trySend {capacity : ℕ} (h : c.trySend capacity a = some c') :
    c'.sent = c.sent ++ [a] := by
  unfold trySend at h
  split_ifs at h
  cases h
  exact (List.append_assoc _ _ _).symm

theorem taken_trySend {capacity : ℕ} (h : c.trySend capacity a = some c') : c'.taken = c.taken := by
  unfold trySend at h
  split_ifs at h
  cases h
  rfl

theorem closed_trySend {capacity : ℕ} (h : c.trySend capacity a = some c') :
    c'.closed = c.closed := by
  unfold trySend at h
  split_ifs at h
  cases h
  rfl

theorem Disconnected.send (h : c.Disconnected) : (c.send a).Disconnected := by
  rwa [send_of_closed h.1]

theorem Disconnected.close (h : c.Disconnected) : c.close.Disconnected := ⟨rfl, h.2⟩

theorem length_queue_of_tryRecv (h : c.tryRecv = .item a c') :
    c.queue.length = c'.queue.length + 1 := by
  rw [(tryRecv_item h).1, List.length_cons]

end Channel

end Channels
