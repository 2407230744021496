import Flume.Core.Window
import Flume.Lib.Entries

/-!
# The window operator

Assigns records to windows, aggregates them incrementally and emits a result when the trigger fires.
Calls to the collector may fail; what was done before a failure stays done.

* `WindowOperator.processRecord`, `processWatermark`, `processBarrier`;
* `foldl_addTo_spec`, `purge_spec`, `evaluate_eventTime`: what the calls do to the accumulators, and
  which windows an `EventTimeTrigger` fires;
* **`run_withPool`**: the pool of key buffers changes no output, for any trigger and collector.
-/

namespace Flume

open Fallible Entries

/-- Where an operator pushes its output. -/
structure Collector (C T : Type) where
  collect : Record T → Fallible FlumeError C Unit
  collectWatermark : Watermark → Fallible FlumeError C Unit
  collectBarrier : CheckpointBarrier → Fallible FlumeError C Unit

/-- A collector that records everything emitted. -/
def TestCollector (T : Type) : Collector (List (StreamElement T)) T where
  collect r := modify (· ++ [.record r])
  collectWatermark w := modify (· ++ [.watermark w])
  collectBarrier b := modify (· ++ [.checkpointBarrier b])

/-- Key for the per-key, per-window accumulator map. -/
structure WindowKey where
  key : Bytes
  window : Window
  deriving DecidableEq

/-- Maximum number of key buffers to keep in the pool. -/
def KEY_POOL_CAP : ℕ := 1024

/-- A stateful operator that aggregates the records of each key and window. -/
structure WindowOperator (σ In Acc Out : Type) where
  assigner : WindowAssigner
  trigger : Trigger σ
  triggerState : σ
  aggregate : AggregateFunction In Acc Out
  accumulators : AList fun _ : WindowKey => Acc
  keyPool : List Bytes

namespace WindowOperator

variable {σ In Acc Out C : Type}

/-- The operator with the default trigger. -/
def new (assigner : WindowAssigner) (aggregate : AggregateFunction In Acc Out) :
    WindowOperator Unit In Acc Out where
  assigner := assigner
  trigger := EventTimeTrigger
  triggerState := ()
  aggregate := aggregate
  accumulators := ∅
  keyPool := []

/-- The operator with another trigger. -/
def withTrigger {τ : Type} (op : WindowOperator σ In Acc Out) (trigger : Trigger τ) (state : τ) :
    WindowOperator τ In Acc Out :=
  { op with trigger := trigger, triggerState := state }

/-- Pops a buffer and clears it, or returns a fresh one. -/
def poolGet (op : WindowOperator σ In Acc Out) : Bytes × WindowOperator σ In Acc Out :=
  ((op.keyPool.getLast?.map fun _ => []).getD [], { op with keyPool := op.keyPool.dropLast })

/-- Returns a buffer to the pool. -/
def poolPut (op : WindowOperator σ In Acc Out) (buf : Bytes) : WindowOperator σ In Acc Out :=
  if op.keyPool.length < KEY_POOL_CAP then { op with keyPool := op.keyPool ++ [buf] } else op

/-- The record's key; a record without one gets a buffer of the pool. -/
def takeKey (op : WindowOperator σ In Acc Out) (record : Record In) :
    Bytes × WindowOperator σ In Acc Out :=
  match record.key with
  | some key => (key, op)
  | none => op.poolGet

/-- Adds a value to the accumulator of a key and window, which is created if missing. -/
def addTo (op : WindowOperator σ In Acc Out) (wk : WindowKey) (value : In) :
    WindowOperator σ In Acc Out :=
  { op with
    accumulators := upsert op.accumulators wk op.aggregate.createAccumulator fun acc =>
      op.aggregate.add acc value }

/-- Evaluates the trigger for each active window: its state, the windows to fire and the windows
to purge. -/
def evaluate (op : WindowOperator σ In Acc Out) (watermark : EventTimestamp) :
    List WindowKey → σ × List WindowKey × List WindowKey :=
  List.foldl (fun (state, toFire, toPurge) wk =>
    match op.trigger.onEventTime state watermark wk.window with
    | (.fire, state) => (state, toFire ++ [wk], toPurge)
    | (.purge, state) => (state, toFire, toPurge ++ [wk])
    | (.fireAndPurge, state) => (state, toFire ++ [wk], toPurge ++ [wk])
    | (.continue, state) => (state, toFire, toPurge)) (op.triggerState, [], [])

/-- Removes an accumulator and returns its key buffer to the pool. -/
def purge (op : WindowOperator σ In Acc Out) (wk : WindowKey) : WindowOperator σ In Acc Out :=
  if wk ∈ op.accumulators then
    { op with accumulators := op.accumulators.erase wk }.poolPut wk.key
  else op

/-! ## Calls -/

/-- Calls of the operator work on its state and on the state of the collector. -/
abbrev Call (σ In Acc Out C : Type) : Type → Type :=
  Fallible Failure (WindowOperator σ In Acc Out × C)

/-- A computation that may panic. -/
def checked {S α : Type} : Except Panic α → Fallible Failure S α
  | .ok a => pure a
  | .error p => throw (.panic p)

/-- The outcome of a call of the collector. -/
def returned {S : Type} : Except FlumeError Unit → Fallible Failure S Unit
  | .ok _ => pure ()
  | .error e => throw (.error e)

/-- A call of the collector. -/
def onCollector {O : Type} (x : Fallible FlumeError C Unit) : Fallible Failure (O × C) Unit := do
  let s ← get
  set (s.1, (x.runOn s.2).2)
  returned (x.runOn s.2).1

/-- Assigns a record to its windows. -/
def processRecord (record : Record In) : Call σ In Acc Out C Unit := do
  let s ← get
  let taken := s.1.takeKey record
  let windows ← checked (taken.2.assigner record.timestamp)
  set (windows.foldl (fun op window => op.addTo ⟨taken.1, window⟩ record.value) taken.2, s.2)

/-- Emits the result of one window. -/
def fire (collector : Collector C Out) (wk : WindowKey) : Call σ In Acc Out C Unit := do
  let s ← get
  match s.1.accumulators.lookup wk with
  | some acc =>
    let timestamp ← checked (wk.window.stop.checkedSub 1)
    onCollector (collector.collect ⟨s.1.aggregate.getResult acc, timestamp, some wk.key⟩)
  | none => pure ()

/-- Fires and purges the windows that the trigger selects; the map is visited in the order
`iter`. -/
def processWatermark (collector : Collector C Out) (watermark : Watermark)
    (iter : IterOrder WindowKey) : Call σ In Acc Out C Unit := do
  let s ← get
  let decided := s.1.evaluate watermark.timestamp (iter.order s.1.accumulators.keys)
  set ({ s.1 with triggerState := decided.1 }, s.2)
  decided.2.1.forM (fire collector)
  modify fun s => (decided.2.2.foldl purge s.1, s.2)
  onCollector (collector.collectWatermark watermark)

/-- Forwards a barrier. -/
def processBarrier (collector : Collector C Out) (barrier : CheckpointBarrier) :
    Call σ In Acc Out C Unit :=
  onCollector (collector.collectBarrier barrier)

/-- One element of the input; a watermark comes with the order in which the map is visited. -/
inductive Input (In : Type)
  | record (r : Record In)
  | watermark (w : Watermark) (iter : IterOrder WindowKey)
  | barrier (b : CheckpointBarrier)

/-- Processes one element. -/
def process (collector : Collector C Out) : Input In → Call σ In Acc Out C Unit
  | .record r => processRecord r
  | .watermark w iter => processWatermark collector w iter
  | .barrier b => processBarrier collector b

/-- Processes a sequence of elements, until one fails. -/
def run (collector : Collector C Out) (inputs : List (Input In)) : Call σ In Acc Out C Unit :=
  inputs.forM (process collector)

/-! ## The pool of key buffers -/

section Pool

variable (op : WindowOperator σ In Acc Out) (pool : List Bytes)

theorem takeKey_fst (record : Record In) : (op.takeKey record).1 = record.key.getD [] := by
  unfold takeKey poolGet
  cases record.key <;> cases op.keyPool.getLast? <;> rfl

/-- The operator with another pool. -/
def withPool : WindowOperator σ In Acc Out := { op with keyPool := pool }

/-- The second state differs from the first at most in its pool. -/
def SameButPool (s s' : WindowOperator σ In Acc Out × C) : Prop :=
  ∃ pool, s' = (s.1.withPool pool, s.2)

theorem takeKey_snd (record : Record In) :
    (op.takeKey record).2 = op.withPool (op.takeKey record).2.keyPool := by
  unfold takeKey poolGet withPool
  cases record.key <;> rfl

theorem foldl_addTo_withPool (key : Bytes) (value : In) (windows : List Window) :
    windows.foldl (fun op window => op.addTo ⟨key, window⟩ value) (op.withPool pool) =
      (windows.foldl (fun op window => op.addTo ⟨key, window⟩ value) op).withPool pool := by
  induction windows generalizing op with
  | nil => rfl
  | cons w ws ih => exact ih (op.addTo ⟨key, w⟩ value)

theorem poolPut_eq (buf : Bytes) : op.poolPut buf = op.withPool (op.poolPut buf).keyPool := by
  unfold poolPut withPool
  split_ifs <;> rfl

theorem purge_withPool (wk : WindowKey) :
    ∃ pool', (op.withPool pool).purge wk = (op.purge wk).withPool pool' := by
  unfold purge
  by_cases hwk : wk ∈ op.accumulators
  · rw [if_pos (show wk ∈ (op.withPool pool).accumulators from hwk), if_pos hwk, poolPut_eq,
      poolPut_eq { op with accumulators := op.accumulators.erase wk }]
    exact ⟨_, rfl⟩
  · rw [if_neg (show wk ∉ (op.withPool pool).accumulators from hwk), if_neg hwk]
    exact ⟨pool, rfl⟩

theorem foldl_purge_withPool (wks : List WindowKey) :
    ∃ pool', wks.foldl purge (op.withPool pool) = (wks.foldl purge op).withPool pool' := by
  induction wks generalizing op pool with
  | nil => exact ⟨pool, rfl⟩
  | cons wk wks ih =>
    obtain ⟨pool', h⟩ := purge_withPool op pool wk
    rw [List.foldl_cons, h]
    exact ih (op.purge wk) pool'

end Pool

theorem related_checked {S α : Type} {R : S → S → Prop} (x : Except Panic α) :
    Related R (checked x : Fallible Failure S α) (checked x) := by
  cases x with
  | ok a => exact Related.pure a
  | error p => exact Related.throw _

theorem related_returned {S : Type} {R : S → S → Prop} (x : Except FlumeError Unit) :
    Related R (returned x : Fallible Failure S Unit) (returned x) := by
  cases x with
  | ok a => exact Related.pure _
  | error e => exact Related.throw _

theorem related_onCollector (x : Fallible FlumeError C Unit) :
    Related SameButPool (onCollector x : Call σ In Acc Out C Unit) (onCollector x) := by
  rintro s s' ⟨pool, rfl⟩
  exact related_returned (x.runOn s.2).1 (s.1, (x.runOn s.2).2) _ ⟨pool, rfl⟩

theorem related_processRecord (record : Record In) :
    Related SameButPool (processRecord record : Call σ In Acc Out C Unit) (processRecord record) := by
  rintro s s' ⟨pool, rfl⟩
  refine RelatedAt.get_bind ?_
  have hfst : ((s.1.withPool pool).takeKey record).1 = (s.1.takeKey record).1 := by
    rw [takeKey_fst, takeKey_fst]
  have hsnd : ∃ pool', ((s.1.withPool pool).takeKey record).2 =
      (s.1.takeKey record).2.withPool pool' := by
    rw [takeKey_snd, takeKey_snd s.1]
    exact ⟨_, rfl⟩
  obtain ⟨pool', hsnd⟩ := hsnd
  simp only [hfst, hsnd]
  refine RelatedAt.bind (related_checked _ _ _ ⟨pool, rfl⟩) fun windows => Related.set ⟨pool', ?_⟩
  rw [foldl_addTo_withPool]

theorem related_fire (collector : Collector C Out) (wk : WindowKey) :
    Related SameButPool (fire collector wk : Call σ In Acc Out C Unit) (fire collector wk) := by
  rintro s s' ⟨pool, rfl⟩
  refine RelatedAt.get_bind ?_
  have hlookup : (s.1.withPool pool).accumulators.lookup wk = s.1.accumulators.lookup wk := rfl
  simp only [hlookup]
  cases s.1.accumulators.lookup wk with
  | none => exact Related.pure _ _ _ ⟨pool, rfl⟩
  | some acc =>
    refine RelatedAt.bind (related_checked _ _ _ ⟨pool, rfl⟩) fun timestamp => ?_
    exact related_onCollector _

theorem related_processWatermark (collector : Collector C Out) (watermark : Watermark)
    (iter : IterOrder WindowKey) :
    Related SameButPool (processWatermark collector watermark iter : Call σ In Acc Out C Unit)
      (processWatermark collector watermark iter) := by
  rintro s s' ⟨pool, rfl⟩
  refine RelatedAt.get_bind (RelatedAt.bind ⟨rfl, pool, rfl⟩ fun _ => ?_)
  refine Related.bind (Related.forM (related_fire collector) _) fun _ => ?_
  refine Related.bind (Related.modify ?_) fun _ => related_onCollector _
  rintro t t' ⟨pool, rfl⟩
  obtain ⟨pool', h⟩ := foldl_purge_withPool t.1 pool
    (s.1.evaluate watermark.timestamp (iter.order s.1.accumulators.keys)).2.2
  exact ⟨pool', Prod.ext h rfl⟩

/-- **The pool has no effect on any output:** from two operators that differ only in their pools
every input gets one result and leaves the collector in one state. -/
theorem run_withPool (op : WindowOperator σ In Acc Out) (pool : List Bytes)
    (collector : Collector C Out) (inputs : List (Input In)) (c : C) :
    ((run collector inputs).runOn (op.withPool pool, c)).1 =
        ((run collector inputs).runOn (op, c)).1 ∧
      ((run collector inputs).runOn (op.withPool pool, c)).2.2 =
        ((run collector inputs).runOn (op, c)).2.2 := by
  have hrelated : Related SameButPool (run collector inputs : Call σ In Acc Out C Unit)
      (run collector inputs) := by
    refine Related.forM (fun input => ?_) inputs
    cases input with
    | record r => exact related_processRecord r
    | watermark w iter => exact related_processWatermark collector w iter
    | barrier b => exact related_onCollector _
  obtain ⟨hresult, pool', hstate⟩ := hrelated (op, c) (op.withPool pool, c) ⟨pool, rfl⟩
  exact ⟨hresult.symm, by rw [hstate]⟩

/-! ## What the calls do -/

section Calls

variable (op : WindowOperator σ In Acc Out)

/-- The assigner, trigger and aggregate of an operator never change. -/
def SameConfig (op op' : WindowOperator σ In Acc Out) : Prop :=
  op'.assigner = op.assigner ∧ op'.trigger = op.trigger ∧ op'.aggregate = op.aggregate

variable {op} in
theorem SameConfig.trans {op' op'' : WindowOperator σ In Acc Out} (h : SameConfig op op')
    (h' : SameConfig op' op'') : SameConfig op op'' :=
  ⟨h'.1.trans h.1, h'.2.1.trans h.2.1, h'.2.2.trans h.2.2⟩

theorem foldl_addTo_spec (key : Bytes) (value : In) (windows : List Window) :
    SameConfig op (windows.foldl (fun op window => op.addTo ⟨key, window⟩ value) op) ∧
      (windows.foldl (fun op window => op.addTo ⟨key, window⟩ value) op).accumulators =
        upsertAll op.accumulators (windows.map (WindowKey.mk key)) op.aggregate.createAccumulator
          fun acc => op.aggregate.add acc value := by
  induction windows generalizing op with
  | nil => exact ⟨⟨rfl, rfl, rfl⟩, rfl⟩
  | cons w ws ih =>
    obtain ⟨hconfig, haccs⟩ := ih (op.addTo ⟨key, w⟩ value)
    exact ⟨SameConfig.trans ⟨rfl, rfl, rfl⟩ hconfig, haccs⟩

theorem purge_spec (wk : WindowKey) :
    SameConfig op (op.purge wk) ∧ ∀ wk', (op.purge wk).accumulators.lookup wk' =
      if wk' = wk then none else op.accumulators.lookup wk' := by
  unfold purge
  split_ifs with hmem
  · rw [poolPut_eq]
    refine ⟨⟨rfl, rfl, rfl⟩, fun wk' => ?_⟩
    split_ifs with hwk
    · rw [hwk]; exact AList.lookup_erase wk _
    · exact AList.lookup_erase_ne hwk
  · refine ⟨⟨rfl, rfl, rfl⟩, fun wk' => ?_⟩
    split_ifs with hwk
    · rw [hwk]; exact AList.lookup_eq_none.mpr hmem
    · rfl

theorem foldl_purge_spec (wks : List WindowKey) :
    SameConfig op (wks.foldl purge op) ∧ ∀ wk, (wks.foldl purge op).accumulators.lookup wk =
      if wk ∈ wks then none else op.accumulators.lookup wk := by
  induction wks generalizing op with
  | nil => exact ⟨⟨rfl, rfl, rfl⟩, fun wk => (if_neg List.not_mem_nil).symm⟩
  | cons wk₀ wks ih =>
    obtain ⟨hconfig, haccs⟩ := ih (op.purge wk₀)
    obtain ⟨hconfig₀, haccs₀⟩ := op.purge_spec wk₀
    refine ⟨hconfig₀.trans hconfig, fun wk => ?_⟩
    rw [List.foldl_cons, haccs, haccs₀]
    simp only [List.mem_cons]
    by_cases hwk : wk = wk₀
    · simp [hwk]
    · simp [hwk]

end Calls

/-- Whether a watermark has passed the end of a window. -/
def passes (watermark : Watermark) (wk : WindowKey) : Bool := watermark.timestamp ≥ wk.window.stop

theorem evaluate_eventTime (op : WindowOperator Unit In Acc Out)
    (htrigger : op.trigger = EventTimeTrigger) (watermark : Watermark) (wks : List WindowKey) :
    op.evaluate watermark.timestamp wks =
      ((), wks.filter (passes watermark), wks.filter (passes watermark)) := by
  unfold evaluate
  rw [htrigger]
  induction wks using List.reverseRecOn with
  | nil => rfl
  | append_singleton wks wk ih =>
    rw [List.foldl_append, ih, List.filter_append]
    by_cases hp : watermark.timestamp ≥ wk.window.stop
    · simp [EventTimeTrigger, passes, hp]
    · simp [EventTimeTrigger, passes, hp]

end WindowOperator

end Flume
