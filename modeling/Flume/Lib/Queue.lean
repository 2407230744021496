import Flume.Lib.Channel

/-!
# Bounded queues, operation by operation

A bounded FIFO queue as its users see it: each operation happens at one moment, on the `Channel`
that the queue is, and has a result. An implementation is a bounded queue if what its steps do can
be read as such operations.

* `QueueOp`: an operation with its result;
* `Performs`, `PerformsAll`: what an operation, or a sequence of them, does to the queue;
* `accepted`, `received`: the values that went in and came out;
* **`PerformsAll.sent_taken`**: the values come out once each, in the order in which they went in.
-/

namespace Channels

variable {α : Type*}

/-- An operation on a queue, with its result. A blocking `recv` happens when it returns. -/
inductive QueueOp (α : Type*)
  | trySend (a : α) (result : Except α Unit)
  | tryRecv (result : Option α)
  | recv (result : Option α)
  | close
  deriving DecidableEq

/-- What an operation does to a queue with room for `capacity` values. -/
inductive Performs (capacity : ℕ) (q : Channel α) : QueueOp α → Channel α → Prop
  | accept {a : α} {q' : Channel α} (hopen : q.closed = false)
      (h : q.trySend capacity a = some q') : Performs capacity q (.trySend a (.ok ())) q'
  | full {a : α} (h : q.trySend capacity a = none) : Performs capacity q (.trySend a (.error a)) q
  | poll {a : α} {q' : Channel α} (h : q.tryRecv = .item a q') :
      Performs capacity q (.tryRecv (some a)) q'
  | empty (h : q.queue = []) : Performs capacity q (.tryRecv none) q
  | item {a : α} {q' : Channel α} (h : q.tryRecv = .item a q') :
      Performs capacity q (.recv (some a)) q'
  | ended (h : q.tryRecv = .disconnected) : Performs capacity q (.recv none) q
  | close : Performs capacity q .close q.close

/-- What a sequence of operations does. -/
inductive PerformsAll (capacity : ℕ) (q : Channel α) : List (QueueOp α) → Channel α → Prop
  | nil : PerformsAll capacity q [] q
  | concat {ops : List (QueueOp α)} {op : QueueOp α} {q₁ q₂ : Channel α}
      (h : PerformsAll capacity q ops q₁) (hop : Performs capacity q₁ op q₂) :
      PerformsAll capacity q (ops ++ [op]) q₂

namespace QueueOp

/-- The value that the operation put into the queue. -/
def accepted? : QueueOp α → Option α
  | trySend a (.ok ()) => some a
  | _ => none

/-- The value that the operation took out of the queue. -/
def received? : QueueOp α → Option α
  | tryRecv result => result
  | recv result => result
  | _ => none

end QueueOp

/-- The values that went in. -/
def accepted (ops : List (QueueOp α)) : List α := ops.filterMap QueueOp.accepted?

/-- The values that came out. -/
def received (ops : List (QueueOp α)) : List α := ops.filterMap QueueOp.received?

variable {capacity : ℕ} {q q' : Channel α} {op : QueueOp α} {ops : List (QueueOp α)}

theorem Performs.sent_taken (h : Performs capacity q op q') :
    q'.sent = q.sent ++ op.accepted?.toList ∧ q'.taken = q.taken ++ op.received?.toList := by
  cases h with
  | accept _ h =>
    exact ⟨Channel.sent_trySend h, by simp [QueueOp.received?, Channel.taken_trySend h]⟩
  | poll h | item h =>
    refine ⟨?_, (Channel.tryRecv_item h).2.1⟩
    simp [QueueOp.accepted?, Channel.sent_of_tryRecv h]
  | close => exact ⟨(List.append_nil _).symm, (List.append_nil _).symm⟩
  | _ => exact ⟨(List.append_nil _).symm, (List.append_nil _).symm⟩

theorem Performs.single (h : Performs capacity q op q') : PerformsAll capacity q [op] q' :=
  .concat .nil h

theorem PerformsAll.append {ops' : List (QueueOp α)} {q'' : Channel α}
    (h : PerformsAll capacity q ops q') (h' : PerformsAll capacity q' ops' q'') :
    PerformsAll capacity q (ops ++ ops') q'' := by
  induction h' with
  | nil => rwa [List.append_nil]
  | concat _ hop ih => rw [← List.append_assoc]; exact ih.concat hop

/-- **First in, first out**: what came out is what went in, in order, up to what is still there. -/
theorem PerformsAll.sent_taken (h : PerformsAll capacity q ops q') :
    q'.sent = q.sent ++ accepted ops ∧ q'.taken = q.taken ++ received ops := by
  induction h with
  | nil => exact ⟨(List.append_nil _).symm, (List.append_nil _).symm⟩
  | @concat ops op q₁ q₂ _ hop ih =>
    have hlast : ∀ f : QueueOp α → Option α, [op].filterMap f = (f op).toList := fun f => by
      rw [List.filterMap_cons]
      cases f op <;> rfl
    obtain ⟨hsent, htaken⟩ := hop.sent_taken
    unfold accepted received at ih ⊢
    rw [hsent, htaken, ih.1, ih.2]
    simp only [List.filterMap_append, hlast, List.append_assoc, and_self]

end Channels
