import Flume.Core.WindowCalls
import Flume.Lib.Cuts
import Flume.Api.KeyedChain

/-!
# Operators forward barriers

A checkpoint barrier travels through the operators with the records: every operator of the API
passes it on unchanged, after what it emits for the elements before it, and makes no barrier itself.

* `Operator.ForwardsBarriers`: the property;
* `StatelessOp.forwardsBarriers`, `forwardsBarriers_keyBy`: the stateless operators;
* `Unmarked`, **`CollectorCalls.forwardsBarriers`**: operators that are given by their calls;
* **`IntervalJoinOperator.forwardsBarriers`**, **`WindowedOperator.forwardsBarriers`**,
  **`WindowOperator.forwardsBarriers`**: the joins and windows.
-/

namespace Flume

open Emitters Fallible Entries
open StreamElement (barrier?)
open WindowOperator (checked onCollector)

/-- Every barrier is passed on, as the last emission of its call, and no other is emitted. -/
def Operator.ForwardsBarriers {In Out : Type} (op : Operator In Out) : Prop :=
  Emitter.ForwardsMarks barrier? barrier? op.process

/-! ## Operators of one record at a time -/

section Stateless

variable {In Out T K σ : Type}

theorem forwardsBarriers_of_records {initial : σ} {f : σ → Record In → Call Out σ}
    (h : ∀ s r, ∀ e ∈ (f s r).emissions, e.barrier? = none) :
    Operator.ForwardsBarriers { State := σ, initial := initial, processRecord := f } where
  unmarked s e he := by
    cases e with
    | record r => exact h s r
    | watermark w =>
      intro x hx
      rw [List.mem_singleton.mp hx]
      rfl
    | checkpointBarrier b => cases he
  marked s e b s' he _ := by
    cases e with
    | record r => cases he
    | watermark w => cases he
    | checkpointBarrier b =>
      cases he
      exact ⟨[], _, rfl, nofun, rfl⟩

theorem StatelessOp.forwardsBarriers (op : StatelessOp In Out) : op.operator.ForwardsBarriers := by
  have hrecord : ∀ s r, ∀ e ∈ (op.operator.process s (.record r)).emissions,
      e.barrier? = none := by
    intro s r e he
    rw [(op.process_record s r).1] at he
    obtain ⟨v, -, rfl⟩ := List.mem_map.mp he
    rfl
  cases op <;> exact forwardsBarriers_of_records hrecord

theorem forwardsBarriers_keyBy (hasher : Hasher) (write : K → Bytes) (initial : σ)
    (f : σ → T → K × σ) : (KeyByOperator hasher write initial f).ForwardsBarriers := by
  refine forwardsBarriers_of_records fun s r e he => ?_
  rw [List.mem_singleton.mp he]
  rfl

end Stateless

/-! ## Operators given by their calls -/

/-- Nothing that was recorded is a barrier. -/
def Unmarked {O Out : Type} (s : O × List (StreamElement Out)) : Prop :=
  ∀ e ∈ s.2, e.barrier? = none

section Calls

variable {O In Out Iter α : Type}

theorem unmarked_push {e : StreamElement Out} (he : e.barrier? = none)
    {s : O × List (StreamElement Out)} (hs : Unmarked s) :
    Unmarked ((onCollector ((TestCollector Out).push e) : Fallible Failure _ Unit).runOn s).2 := by
  have hpushed : ((onCollector ((TestCollector Out).push e) : Fallible Failure _ Unit).runOn s).2 =
      (s.1, s.2 ++ [e]) := by cases e <;> rfl
  rw [hpushed]
  intro x hx
  rcases List.mem_append.mp hx with hx | hx
  · exact hs x hx
  · rw [List.mem_singleton.mp hx]
    exact he

theorem unmarked_checked {a : Except Panic α} {s : O × List (StreamElement Out)} (hs : Unmarked s) :
    Unmarked ((checked a : Fallible Failure _ α).runOn s).2 := by
  cases a <;> exact hs

theorem CollectorCalls.emissions_operator (calls : CollectorCalls O In Iter Out)
    (joinErr : Panic → String) (iters : ℕ → Iter) (object : O) (s : O × ℕ) (e : StreamElement In) :
    Emitter.emissions ((calls.operator joinErr iters object).process s e) =
      (calls.recorded iters s e).2.2 := by
  cases e <;> exact Emitter.emissions_emitAll _ _

/-- **Operators given by their calls**, if a call for a barrier pushes it and returns, and the other
calls push none. -/
theorem CollectorCalls.forwardsBarriers (calls : CollectorCalls O In Iter Out)
    (joinErr : Panic → String) (iters : ℕ → Iter) (object : O)
    (hunmarked : ∀ (e : StreamElement In) (iter : Iter) (s : O × List (StreamElement Out)),
      e.barrier? = none → Unmarked s →
        Unmarked ((calls.process (TestCollector Out) e iter).runOn s).2)
    (hbarrier : ∀ (b : CheckpointBarrier) (iter : Iter) (op : O),
      (calls.process (TestCollector Out) (.checkpointBarrier b) iter).runOn (op, []) =
        (.ok (), (op, [.checkpointBarrier b]))) :
    (calls.operator joinErr iters object).ForwardsBarriers where
  unmarked s e he := by
    intro x hx
    have hcall := calls.emissions_operator joinErr iters object s e
    exact hunmarked e (iters s.2) (s.1, []) he nofun x (hcall ▸ hx)
  marked s e b s' he _ := by
    obtain rfl := StreamElement.barrier?_eq_some.mp he
    refine ⟨[], .checkpointBarrier b, ?_, nofun, rfl⟩
    refine (calls.emissions_operator joinErr iters object s (.checkpointBarrier b)).trans ?_
    unfold recorded
    rw [hbarrier]
    rfl

end Calls

/-! ## Joins and windows -/

section Joins

variable {L R In B Out σ Acc : Type}

theorem IntervalJoinOperator.forwardsBarriers (joinErr : Panic → String)
    (iters : ℕ → IterOrder Bytes) (op : IntervalJoinOperator L R Out) :
    ((IntervalJoinOperator.calls L R Out).operator joinErr iters op).ForwardsBarriers := by
  refine CollectorCalls.forwardsBarriers _ joinErr iters op (fun e iter s he hs => ?_)
    fun b iter op => rfl
  have hemit : ∀ {V : Type} (joined : EventTimestamp → V → Record Out)
      (buckets : List (EventTimestamp × List V)) (t : IntervalJoinOperator L R Out × _),
      Unmarked t → Unmarked ((emitAll (TestCollector Out) joined buckets).runOn t).2 :=
    fun joined buckets t ht => runOn_forM_keeps (P := Unmarked) (fun bucket t ht =>
      runOn_forM_keeps (P := Unmarked) (fun value t ht =>
        unmarked_push (e := .record (joined bucket.1 value)) rfl ht) ht) ht
  cases e with
  | record r =>
    show Unmarked ((processRecord (TestCollector Out) r).runOn s).2
    unfold processRecord
    rw [runOn_bind_ok runOn_get]
    obtain ⟨value | value, ts, key⟩ := r
    · dsimp only
      rw [runOn_bind_ok runOn_set]
      exact runOn_bind_keeps (P := Unmarked) (unmarked_checked hs) fun buckets t ht =>
        hemit _ buckets t ht
    · dsimp only
      rw [runOn_bind_ok runOn_set]
      exact runOn_bind_keeps (P := Unmarked) (unmarked_checked hs) fun buckets t ht =>
        hemit _ buckets t ht
  | watermark w => exact unmarked_push (e := .watermark w) rfl hs
  | checkpointBarrier b => cases he

theorem WindowedOperator.forwardsBarriers (joinErr : Panic → String)
    (iters : ℕ → IterOrder WindowKey) (op : WindowedOperator In B Out) :
    ((WindowedOperator.calls In B Out).operator joinErr iters op).ForwardsBarriers := by
  refine CollectorCalls.forwardsBarriers _ joinErr iters op (fun e iter s he hs => ?_)
    fun b iter op => rfl
  have hfire : ∀ (wk : WindowKey) (t : WindowedOperator In B Out × _), Unmarked t →
      Unmarked ((fire (TestCollector Out) wk).runOn t).2 := by
    intro wk t ht
    unfold fire
    rw [runOn_bind_ok runOn_get]
    cases t.1.state.lookup wk with
    | none => exact ht
    | some b =>
      refine runOn_bind_keeps (P := Unmarked) (unmarked_checked ht) fun results t ht => ?_
      exact runOn_forM_keeps (P := Unmarked) (fun record t ht =>
        unmarked_push (e := .record record) rfl ht) ht
  cases e with
  | record r =>
    show Unmarked ((processRecord r).runOn s).2
    unfold processRecord
    rw [runOn_bind_ok runOn_get]
    exact runOn_bind_keeps (P := Unmarked) (unmarked_checked hs) fun windows t ht => hs
  | watermark w =>
    show Unmarked ((processWatermark (TestCollector Out) w iter).runOn s).2
    unfold processWatermark
    rw [runOn_bind_ok runOn_get]
    refine runOn_bind_keeps (P := Unmarked) (runOn_forM_keeps (P := Unmarked) hfire hs)
      fun _ t ht => ?_
    rw [runOn_bind_ok (runOn_modify _)]
    exact unmarked_push (e := .watermark w) rfl ht
  | checkpointBarrier b => cases he

/-- The window operator, whatever its trigger is. -/
theorem WindowOperator.forwardsBarriers (joinErr : Panic → String)
    (iters : ℕ → IterOrder WindowKey) (op : WindowOperator σ In Acc Out) :
    ((WindowOperator.calls σ In Acc Out).operator joinErr iters op).ForwardsBarriers := by
  refine CollectorCalls.forwardsBarriers _ joinErr iters op (fun e iter s he hs => ?_)
    fun b iter op => rfl
  have hfire : ∀ (wk : WindowKey) (t : WindowOperator σ In Acc Out × _), Unmarked t →
      Unmarked ((fire (TestCollector Out) wk).runOn t).2 := by
    intro wk t ht
    unfold fire
    rw [runOn_bind_ok runOn_get]
    cases t.1.accumulators.lookup wk with
    | none => exact ht
    | some acc =>
      refine runOn_bind_keeps (P := Unmarked) (unmarked_checked ht) fun timestamp t' ht' => ?_
      have hresult : (StreamElement.record ⟨t.1.aggregate.getResult acc, timestamp,
          some wk.key⟩).barrier? = none := rfl
      exact unmarked_push hresult ht'
  cases e with
  | record r =>
    show Unmarked ((processRecord r).runOn s).2
    unfold processRecord
    rw [runOn_bind_ok runOn_get]
    exact runOn_bind_keeps (P := Unmarked) (unmarked_checked hs) fun windows t ht => hs
  | watermark w =>
    show Unmarked ((processWatermark (TestCollector Out) w iter).runOn s).2
    unfold processWatermark
    rw [runOn_bind_ok runOn_get]
    dsimp only
    rw [runOn_bind_ok runOn_set]
    refine runOn_bind_keeps (P := Unmarked) (runOn_forM_keeps (P := Unmarked) hfire hs)
      fun _ t ht => ?_
    rw [runOn_bind_ok (runOn_modify _)]
    exact unmarked_push (e := .watermark w) rfl ht
  | checkpointBarrier b => cases he

end Joins

end Flume
