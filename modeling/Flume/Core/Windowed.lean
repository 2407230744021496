import Flume.Core.WindowOperator

/-!
# Windowed operators

What the window operators share: records are assigned to windows, each key and window has contents
of its own, and a watermark emits and drops the contents of the windows it passes. The operators
differ in what they keep for a window and in the records they emit for it.

* `WindowContents`: what one operator keeps and emits; `WindowedOperator` with `processRecord`,
  `processWatermark`, `processBarrier`;
* `runOn_processRecord`, **`runOn_processWatermark`**: what the calls do to the contents and emit,
  for a collector that records everything;
* **`run_toWindowed`**: the window operator with an `EventTimeTrigger` is one of them.
-/

namespace Flume

open Fallible Entries
open WindowOperator (Input checked returned onCollector passes)

/-- What an operator keeps for a key and window, and the records it emits for them. -/
structure WindowContents (In B Out : Type) where
  default : B
  push : B → Record In → B
  results : WindowKey → B → Except Panic (List (Record Out))

/-- The results of a window that does not end at 0 can be computed. -/
def WindowContents.Computes {In B Out : Type} (contents : WindowContents In B Out) : Prop :=
  ∀ (wk : WindowKey) (b : B), 1 ≤ wk.window.stop → ∃ results, contents.results wk b = .ok results

/-- An operator with contents per key and window. -/
structure WindowedOperator (In B Out : Type) where
  assigner : WindowAssigner
  contents : WindowContents In B Out
  state : AList fun _ : WindowKey => B
  keyPool : List Bytes

namespace WindowedOperator

variable {In B Out C : Type}

/-- The operator before its first call. -/
def new (assigner : WindowAssigner) (contents : WindowContents In B Out) :
    WindowedOperator In B Out where
  assigner := assigner
  contents := contents
  state := ∅
  keyPool := []

/-- Pops a buffer and clears it, or returns a fresh one. -/
def poolGet (op : WindowedOperator In B Out) : Bytes × WindowedOperator In B Out :=
  ((op.keyPool.getLast?.map fun _ => []).getD [], { op with keyPool := op.keyPool.dropLast })

/-- Returns a buffer to the pool. -/
def poolPut (op : WindowedOperator In B Out) (buf : Bytes) : WindowedOperator In B Out :=
  if op.keyPool.length < KEY_POOL_CAP then { op with keyPool := op.keyPool ++ [buf] } else op

/-- The record's key; a record without one gets a buffer of the pool. -/
def takeKey (op : WindowedOperator In B Out) (record : Record In) :
    Bytes × WindowedOperator In B Out :=
  match record.key with
  | some key => (key, op)
  | none => op.poolGet

/-- Pushes a record to the contents of a key and window, which are created if missing. -/
def pushTo (op : WindowedOperator In B Out) (record : Record In) (wk : WindowKey) :
    WindowedOperator In B Out :=
  { op with
    state := upsert op.state wk op.contents.default fun b => op.contents.push b record }

/-- Evaluates the trigger for each key and window: those to fire and those to purge. -/
def evaluate (watermark : EventTimestamp) : List WindowKey → List WindowKey × List WindowKey :=
  List.foldl (fun (toFire, toPurge) wk =>
    match (EventTimeTrigger.onEventTime () watermark wk.window).1 with
    | .fire => (toFire ++ [wk], toPurge)
    | .purge => (toFire, toPurge ++ [wk])
    | .fireAndPurge => (toFire ++ [wk], toPurge ++ [wk])
    | .continue => (toFire, toPurge)) ([], [])

/-- Removes the contents of a window and returns its key buffer to the pool. -/
def purge (op : WindowedOperator In B Out) (wk : WindowKey) : WindowedOperator In B Out :=
  if wk ∈ op.state then { op with state := op.state.erase wk }.poolPut wk.key else op

/-- Calls of the operator work on its state and on the state of the collector. -/
abbrev Call (In B Out C : Type) : Type → Type :=
  Fallible Failure (WindowedOperator In B Out × C)

/-- Assigns a record to its windows. -/
def processRecord (record : Record In) : Call In B Out C Unit := do
  let s ← get
  let taken := s.1.takeKey record
  let windows ← checked (taken.2.assigner record.timestamp)
  set (windows.foldl (fun op window => op.pushTo record ⟨taken.1, window⟩) taken.2, s.2)

/-- Emits the results of one window. -/
def fire (collector : Collector C Out) (wk : WindowKey) : Call In B Out C Unit := do
  let s ← get
  match s.1.state.lookup wk with
  | some b =>
    let results ← checked (s.1.contents.results wk b)
    results.forM fun record => onCollector (collector.collect record)
  | none => pure ()

/-- Fires and purges the windows that the watermark passes; the map is visited in the order
`iter`. -/
def processWatermark (collector : Collector C Out) (watermark : Watermark)
    (iter : IterOrder WindowKey) : Call In B Out C Unit := do
  let s ← get
  let decided := evaluate watermark.timestamp (iter.order s.1.state.keys)
  decided.1.forM (fire collector)
  modify fun s => (decided.2.foldl purge s.1, s.2)
  onCollector (collector.collectWatermark watermark)

/-- Forwards a barrier. -/
def processBarrier (collector : Collector C Out) (barrier : CheckpointBarrier) :
    Call In B Out C Unit :=
  onCollector (collector.collectBarrier barrier)

/-- Processes one element. -/
def process (collector : Collector C Out) : Input In → Call In B Out C Unit
  | .record r => processRecord r
  | .watermark w iter => processWatermark collector w iter
  | .barrier b => processBarrier collector b

/-- Processes a sequence of elements, until one fails. -/
def run (collector : Collector C Out) (inputs : List (Input In)) : Call In B Out C Unit :=
  inputs.forM (process collector)

/-- The keys and windows that an element fires. -/
def fired (op : WindowedOperator In B Out) : Input In → List WindowKey
  | .watermark w iter => (evaluate w.timestamp (iter.order op.state.keys)).1
  | _ => []

/-- All firings of a run, in order. -/
def firings (collector : Collector C Out) :
    List (Input In) → WindowedOperator In B Out × C → List WindowKey
  | [], _ => []
  | input :: inputs, s =>
    s.1.fired input ++
      match (process collector input).runOn s with
      | (.ok _, s') => firings collector inputs s'
      | (.error _, _) => []

/-! ## What the calls do -/

section Calls

variable (op : WindowedOperator In B Out) (out : List (StreamElement Out))

/-- The assigner and the kind of contents never change. -/
def SameConfig (op op' : WindowedOperator In B Out) : Prop :=
  op'.assigner = op.assigner ∧ op'.contents = op.contents

variable {op} in
theorem SameConfig.trans {op' op'' : WindowedOperator In B Out} (h : SameConfig op op')
    (h' : SameConfig op' op'') : SameConfig op op'' :=
  ⟨h'.1.trans h.1, h'.2.trans h.2⟩

theorem takeKey_fst (record : Record In) : (op.takeKey record).1 = record.key.getD [] := by
  unfold takeKey poolGet
  cases record.key <;> cases op.keyPool.getLast? <;> rfl

theorem takeKey_snd (record : Record In) :
    SameConfig op (op.takeKey record).2 ∧ (op.takeKey record).2.state = op.state := by
  unfold takeKey poolGet
  cases record.key <;> exact ⟨⟨rfl, rfl⟩, rfl⟩

theorem poolPut_spec (buf : Bytes) :
    SameConfig op (op.poolPut buf) ∧ (op.poolPut buf).state = op.state := by
  unfold poolPut
  split_ifs <;> exact ⟨⟨rfl, rfl⟩, rfl⟩

theorem foldl_pushTo_spec (record : Record In) (key : Bytes) (windows : List Window) :
    SameConfig op (windows.foldl (fun op window => op.pushTo record ⟨key, window⟩) op) ∧
      (windows.foldl (fun op window => op.pushTo record ⟨key, window⟩) op).state =
        upsertAll op.state (windows.map (WindowKey.mk key)) op.contents.default
          fun b => op.contents.push b record := by
  induction windows generalizing op with
  | nil => exact ⟨⟨rfl, rfl⟩, rfl⟩
  | cons w ws ih =>
    obtain ⟨hconfig, hstate⟩ := ih (op.pushTo record ⟨key, w⟩)
    exact ⟨SameConfig.trans ⟨rfl, rfl⟩ hconfig, hstate⟩

theorem purge_spec (wk : WindowKey) :
    SameConfig op (op.purge wk) ∧ ∀ wk', (op.purge wk).state.lookup wk' =
      if wk' = wk then none else op.state.lookup wk' := by
  unfold purge
  split_ifs with hmem
  · obtain ⟨hconfig, hstate⟩ := poolPut_spec { op with state := op.state.erase wk } wk.key
    refine ⟨hconfig, fun wk' => ?_⟩
    rw [hstate]
    split_ifs with hwk
    · rw [hwk]; exact AList.lookup_erase wk _
    · exact AList.lookup_erase_ne hwk
  · refine ⟨⟨rfl, rfl⟩, fun wk' => ?_⟩
    split_ifs with hwk
    · rw [hwk]; exact AList.lookup_eq_none.mpr hmem
    · rfl

theorem foldl_purge_spec (wks : List WindowKey) :
    SameConfig op (wks.foldl purge op) ∧ ∀ wk, (wks.foldl purge op).state.lookup wk =
      if wk ∈ wks then none else op.state.lookup wk := by
  induction wks generalizing op with
  | nil => exact ⟨⟨rfl, rfl⟩, fun wk => (if_neg List.not_mem_nil).symm⟩
  | cons wk₀ wks ih =>
    obtain ⟨hconfig, hstate⟩ := ih (op.purge wk₀)
    obtain ⟨hconfig₀, hstate₀⟩ := op.purge_spec wk₀
    refine ⟨hconfig₀.trans hconfig, fun wk => ?_⟩
    rw [List.foldl_cons, hstate, hstate₀]
    simp only [List.mem_cons]
    by_cases hwk : wk = wk₀
    · simp [hwk]
    · simp [hwk]

/-- **A record is pushed to the contents of each of its windows.** -/
theorem runOn_processRecord {record : Record In} {windows : List Window}
    (h : op.assigner record.timestamp = .ok windows) (c : C) :
    ∃ op', (processRecord record).runOn (op, c) = (.ok (), (op', c)) ∧ SameConfig op op' ∧
      op'.state = upsertAll op.state (windows.map (WindowKey.mk (record.key.getD [])))
        op.contents.default fun b => op.contents.push b record := by
  obtain ⟨htaken, hstate₀⟩ := op.takeKey_snd record
  obtain ⟨hconfig, hstate⟩ :=
    (op.takeKey record).2.foldl_pushTo_spec record (op.takeKey record).1 windows
  refine ⟨_, ?_, htaken.trans hconfig, ?_⟩
  · unfold processRecord
    rw [runOn_bind_ok runOn_get]
    simp only [htaken.1, h]
    rfl
  · rw [hstate, takeKey_fst, hstate₀, htaken.2]

theorem runOn_processRecord_error {record : Record In} {p : Panic}
    (h : op.assigner record.timestamp = .error p) (c : C) :
    (processRecord record).runOn (op, c) = (.error (.panic p), (op, c)) := by
  unfold processRecord
  rw [runOn_bind_ok runOn_get]
  simp only [(op.takeKey_snd record).1.1, h]
  rfl

/-- The records that a firing of `wk` emits. -/
def resultsAt (wk : WindowKey) : List (Record Out) :=
  match op.contents.results wk ((op.state.lookup wk).getD op.contents.default) with
  | .ok results => results
  | .error _ => []

theorem runOn_forM_collect (records : List (Record Out)) :
    (records.forM fun record => (onCollector ((TestCollector Out).collect record) :
      Call In B Out _ Unit)).runOn (op, out) = (.ok (), (op, out ++ records.map .record)) := by
  induction records generalizing out with
  | nil => rw [runOn_forM_nil, List.map_nil, List.append_nil]
  | cons record records ih =>
    have hfirst : (onCollector ((TestCollector Out).collect record) :
        Call In B Out _ Unit).runOn (op, out) = (.ok (), (op, out ++ [.record record])) := rfl
    rw [runOn_forM_cons, runOn_bind_ok hfirst, ih, List.append_assoc]
    rfl

/-- The results of a window that is held can be computed. -/
def Emits (wk : WindowKey) : Prop :=
  ∃ b results, op.state.lookup wk = some b ∧ op.contents.results wk b = .ok results

theorem runOn_fire {wk : WindowKey} (h : op.Emits wk) :
    (fire (TestCollector Out) wk).runOn (op, out) =
      (.ok (), (op, out ++ (op.resultsAt wk).map .record)) := by
  obtain ⟨b, results, hb, hresults⟩ := h
  have hat : op.resultsAt wk = results := by
    rw [resultsAt, hb, Option.getD_some, hresults]
  unfold fire
  rw [runOn_bind_ok runOn_get, hat]
  simp only [hb, hresults]
  exact op.runOn_forM_collect out results

theorem runOn_forM_fire {wks : List WindowKey} (h : ∀ wk ∈ wks, op.Emits wk) :
    (wks.forM (fire (TestCollector Out))).runOn (op, out) =
      (.ok (), (op, out ++ wks.flatMap fun wk => (op.resultsAt wk).map .record)) := by
  induction wks generalizing out with
  | nil => rw [runOn_forM_nil, List.flatMap_nil, List.append_nil]
  | cons wk wks ih =>
    rw [runOn_forM_cons, runOn_bind_ok (op.runOn_fire out (h wk List.mem_cons_self)),
      ih _ fun wk' hwk' => h wk' (List.mem_cons_of_mem _ hwk')]
    rw [List.flatMap_cons, List.append_assoc]

theorem evaluate_eq (watermark : Watermark) (wks : List WindowKey) :
    evaluate watermark.timestamp wks =
      (wks.filter (passes watermark), wks.filter (passes watermark)) := by
  unfold evaluate
  induction wks using List.reverseRecOn with
  | nil => rfl
  | append_singleton wks wk ih =>
    rw [List.foldl_append, ih, List.filter_append]
    by_cases hp : watermark.timestamp ≥ wk.window.stop
    · simp [EventTimeTrigger, passes, hp]
    · simp [EventTimeTrigger, passes, hp]

theorem evaluate_snd (watermark : EventTimestamp) (wks : List WindowKey) :
    (evaluate watermark wks).2 = (evaluate watermark wks).1 := by
  rw [evaluate_eq ⟨watermark⟩ wks]

theorem fired_watermark (watermark : Watermark) (iter : IterOrder WindowKey) :
    op.fired (.watermark watermark iter) =
      (evaluate watermark.timestamp (iter.order op.state.keys)).1 := rfl

theorem mem_fired {watermark : Watermark} {iter : IterOrder WindowKey} {wk : WindowKey} :
    wk ∈ op.fired (.watermark watermark iter) ↔ wk ∈ op.state ∧ passes watermark wk = true := by
  rw [fired, evaluate_eq, List.mem_filter, (iter.perm _).mem_iff, AList.mem_keys]

/-- **A watermark emits the results of the windows it passes, drops them and is forwarded.** -/
theorem runOn_processWatermark (watermark : Watermark) (iter : IterOrder WindowKey)
    (hemits : ∀ wk ∈ op.state, passes watermark wk = true → op.Emits wk) :
    ∃ op' : WindowedOperator In B Out,
      (processWatermark (TestCollector Out) watermark iter).runOn (op, out) =
        (.ok (), (op', out ++
          ((op.fired (.watermark watermark iter)).flatMap fun wk =>
            (op.resultsAt wk).map .record) ++ [.watermark watermark])) ∧
      SameConfig op op' ∧ ∀ wk, op'.state.lookup wk =
        if passes watermark wk then none else op.state.lookup wk := by
  obtain ⟨hconfig, hstate⟩ := op.foldl_purge_spec (op.fired (.watermark watermark iter))
  refine ⟨_, ?_, hconfig, fun wk => ?_⟩
  · unfold processWatermark
    rw [runOn_bind_ok runOn_get]
    dsimp only
    rw [evaluate_snd, ← fired_watermark, runOn_bind_ok (op.runOn_forM_fire out fun wk hwk =>
      hemits wk (op.mem_fired.mp hwk).1 (op.mem_fired.mp hwk).2)]
    rfl
  · rw [hstate]
    by_cases hp : passes watermark wk = true
    · rw [if_pos hp]
      split_ifs with hwk
      · rfl
      · exact AList.lookup_eq_none.mpr fun h => hwk (op.mem_fired.mpr ⟨h, hp⟩)
    · rw [if_neg hp, if_neg fun hwk => hp (op.mem_fired.mp hwk).2]

theorem fired_perm (watermark : Watermark) (iter : IterOrder WindowKey) :
    (op.fired (.watermark watermark iter)).Perm (op.state.keys.filter (passes watermark)) := by
  rw [fired, evaluate_eq]
  exact (iter.perm _).filter _

end Calls

/-! ## Any collector -/

section AnyCollector

variable {collector : Collector C Out} {s s' : WindowedOperator In B Out × C}

theorem onCollector_keeps (x : Fallible FlumeError C Unit) (s : WindowedOperator In B Out × C) :
    ((onCollector x : Call In B Out C Unit).runOn s).2.1 = s.1 := by
  unfold onCollector
  rw [runOn_bind_ok runOn_get, runOn_bind_ok runOn_set]
  cases (x.runOn s.2).1 <;> rfl

theorem fire_keeps (collector : Collector C Out) (wk : WindowKey)
    (s : WindowedOperator In B Out × C) : ((fire collector wk).runOn s).2.1 = s.1 := by
  unfold fire
  rw [runOn_bind_ok runOn_get]
  cases s.1.state.lookup wk with
  | none => rfl
  | some b =>
    dsimp only
    cases s.1.contents.results wk b with
    | error p => rfl
    | ok results =>
      exact runOn_forM_keeps (P := fun t : WindowedOperator In B Out × C => t.1 = s.1)
        (fun record t ht => (onCollector_keeps _ t).trans ht) rfl

theorem processRecord_ok {record : Record In} (h : (processRecord record).runOn s = (.ok (), s')) :
    ∃ windows, s.1.assigner record.timestamp = .ok windows ∧ SameConfig s.1 s'.1 ∧
      ∀ wk, wk ∈ s'.1.state ↔
        wk ∈ s.1.state ∨ wk ∈ windows.map (WindowKey.mk (record.key.getD [])) := by
  cases hassigner : s.1.assigner record.timestamp with
  | error p =>
    have herror := s.1.runOn_processRecord_error hassigner s.2
    rw [show (s.1, s.2) = s from rfl, h] at herror
    cases herror
  | ok windows =>
    obtain ⟨op', hcall, hconfig, hstate⟩ := s.1.runOn_processRecord hassigner s.2
    rw [show (s.1, s.2) = s from rfl, h] at hcall
    obtain rfl : s' = (op', s.2) := congrArg Prod.snd hcall
    refine ⟨windows, rfl, hconfig, fun wk => ?_⟩
    rw [hstate, mem_upsertAll]

theorem processWatermark_ok {watermark : Watermark} {iter : IterOrder WindowKey}
    (h : (processWatermark collector watermark iter).runOn s = (.ok (), s')) :
    SameConfig s.1 s'.1 ∧
      ∀ wk, wk ∈ s'.1.state ↔ wk ∈ s.1.state ∧ passes watermark wk = false := by
  unfold processWatermark at h
  rw [runOn_bind_ok runOn_get] at h
  obtain ⟨_, s₁, hfire, h₁⟩ := runOn_bind_eq_ok h
  obtain ⟨_, s₂, hpurge, h₂⟩ := runOn_bind_eq_ok h₁
  have hs₁ : s₁.1 = s.1 := by
    have hkeeps := runOn_forM_keeps (P := fun t : WindowedOperator In B Out × C => t.1 = s.1)
      (f := fire collector) (l := (evaluate watermark.timestamp (iter.order s.1.state.keys)).1)
      (fun wk t ht => (fire_keeps collector wk t).trans ht) (s := s) rfl
    rw [hfire] at hkeeps
    exact hkeeps
  have hs' : s'.1 = s₂.1 := by
    have hkeeps := onCollector_keeps (collector.collectWatermark watermark) s₂
    rw [h₂] at hkeeps
    exact hkeeps
  have hs₂ : s₂.1 = (s.1.fired (.watermark watermark iter)).foldl purge s.1 := by
    rw [runOn_modify, evaluate_snd, ← fired_watermark, hs₁] at hpurge
    exact congrArg (fun x => x.2.1) hpurge.symm
  obtain ⟨hconfig, hstate⟩ := s.1.foldl_purge_spec (s.1.fired (.watermark watermark iter))
  rw [hs', hs₂]
  refine ⟨hconfig, fun wk => ?_⟩
  rw [← AList.lookup_isSome, hstate]
  split_ifs with hfired
  · simp [(s.1.mem_fired.mp hfired).2]
  · rw [AList.lookup_isSome, s.1.mem_fired, not_and, Bool.not_eq_true] at *
    exact ⟨fun hmem => ⟨hmem, hfired hmem⟩, And.left⟩

end AnyCollector

end WindowedOperator

/-! ## The window operator is a windowed operator -/

namespace WindowOperator

variable {In Acc Out C : Type}

/-- One accumulator per window, and one result. -/
def aggregated (agg : AggregateFunction In Acc Out) : WindowContents In Acc Out where
  default := agg.createAccumulator
  push acc record := agg.add acc record.value
  results wk acc := do
    let timestamp ← wk.window.stop.checkedSub 1
    return [⟨agg.getResult acc, timestamp, some wk.key⟩]

/-- The window operator, its trigger left out. -/
def toWindowed (op : WindowOperator Unit In Acc Out) : WindowedOperator In Acc Out where
  assigner := op.assigner
  contents := aggregated op.aggregate
  state := op.accumulators
  keyPool := op.keyPool

/-- The window operator has the default trigger, and is otherwise the windowed operator. -/
def IsWindowed (s : WindowOperator Unit In Acc Out × C) (t : WindowedOperator In Acc Out × C) :
    Prop :=
  s.1.trigger = EventTimeTrigger ∧ t = (s.1.toWindowed, s.2)

theorem isWindowed_onCollector (x : Fallible FlumeError C Unit) :
    Related IsWindowed (onCollector x : Call Unit In Acc Out C Unit)
      (onCollector x : WindowedOperator.Call In Acc Out C Unit) := by
  rintro s t ⟨htrigger, rfl⟩
  have hreturned : ∀ r : Except FlumeError Unit,
      Related IsWindowed (returned r : Call Unit In Acc Out C Unit)
        (returned r : WindowedOperator.Call In Acc Out C Unit) := by
    intro r
    cases r with
    | ok a => exact Related.pure _
    | error e => exact Related.throw _
  exact hreturned (x.runOn s.2).1 (s.1, (x.runOn s.2).2) _ ⟨htrigger, rfl⟩

theorem isWindowed_checked {α : Type} (x : Except Panic α) :
    Related IsWindowed (checked x : Call Unit In Acc Out C α)
      (checked x : WindowedOperator.Call In Acc Out C α) := by
  cases x with
  | ok a => exact Related.pure a
  | error p => exact Related.throw _

theorem takeKey_toWindowed (op : WindowOperator Unit In Acc Out) (record : Record In) :
    op.toWindowed.takeKey record =
      ((op.takeKey record).1, (op.takeKey record).2.toWindowed) := by
  unfold WindowedOperator.takeKey takeKey
  cases record.key <;> rfl

theorem foldl_toWindowed (op : WindowOperator Unit In Acc Out) (record : Record In) (key : Bytes)
    (windows : List Window) :
    windows.foldl (fun op window => op.pushTo record ⟨key, window⟩) op.toWindowed =
      (windows.foldl (fun op window => op.addTo ⟨key, window⟩ record.value) op).toWindowed := by
  induction windows generalizing op with
  | nil => rfl
  | cons w ws ih => exact ih (op.addTo ⟨key, w⟩ record.value)

theorem purge_toWindowed (op : WindowOperator Unit In Acc Out) (wk : WindowKey) :
    op.toWindowed.purge wk = (op.purge wk).toWindowed := by
  unfold WindowedOperator.purge purge
  by_cases hwk : wk ∈ op.accumulators
  · rw [if_pos (show wk ∈ op.toWindowed.state from hwk), if_pos hwk]
    unfold WindowedOperator.poolPut poolPut
    show (if op.keyPool.length < KEY_POOL_CAP then _ else _) = _
    split_ifs <;> rfl
  · rw [if_neg (show wk ∉ op.toWindowed.state from hwk), if_neg hwk]

theorem foldl_purge_toWindowed (op : WindowOperator Unit In Acc Out) (wks : List WindowKey) :
    wks.foldl WindowedOperator.purge op.toWindowed = (wks.foldl purge op).toWindowed := by
  induction wks generalizing op with
  | nil => rfl
  | cons wk wks ih => rw [List.foldl_cons, purge_toWindowed, ih, List.foldl_cons]

theorem isWindowed_processRecord (record : Record In) :
    Related IsWindowed (processRecord record : Call Unit In Acc Out C Unit)
      (WindowedOperator.processRecord record) := by
  rintro s t ⟨htrigger, rfl⟩
  refine RelatedAt.get_bind ?_
  have htaken : (s.1.takeKey record).2.trigger = EventTimeTrigger := by
    rw [takeKey_snd]
    exact htrigger
  simp only [takeKey_toWindowed]
  refine RelatedAt.bind (isWindowed_checked _ _ _ ⟨htrigger, rfl⟩) fun windows => Related.set ?_
  refine ⟨((foldl_addTo_spec _ _ _ windows).1.2.1).trans htaken, ?_⟩
  rw [foldl_toWindowed]

theorem isWindowed_fire (collector : Collector C Out) (wk : WindowKey) :
    Related IsWindowed (fire collector wk : Call Unit In Acc Out C Unit)
      (WindowedOperator.fire collector wk) := by
  rintro s t ⟨htrigger, rfl⟩
  refine RelatedAt.get_bind ?_
  have hlookup : s.1.toWindowed.state.lookup wk = s.1.accumulators.lookup wk := rfl
  simp only [hlookup]
  cases s.1.accumulators.lookup wk with
  | none => exact Related.pure _ _ _ ⟨htrigger, rfl⟩
  | some acc =>
    cases hstop : wk.window.stop.checkedSub 1 with
    | error p =>
      have hresults : s.1.toWindowed.contents.results wk acc = .error p := by
        simp only [toWindowed, aggregated, hstop]; rfl
      simp only [hresults]
      exact ⟨rfl, htrigger, rfl⟩
    | ok timestamp =>
      have hresults : s.1.toWindowed.contents.results wk acc =
          .ok [⟨s.1.aggregate.getResult acc, timestamp, some wk.key⟩] := by
        simp only [toWindowed, aggregated, hstop]; rfl
      simp only [hresults]
      show RelatedAt IsWindowed
        (onCollector (collector.collect ⟨s.1.aggregate.getResult acc, timestamp, some wk.key⟩))
        (List.forM [⟨s.1.aggregate.getResult acc, timestamp, some wk.key⟩]
          fun record => onCollector (collector.collect record)) s (s.1.toWindowed, s.2)
      rw [← bind_pure_unit (x := (onCollector _ : Call Unit In Acc Out C Unit))]
      exact RelatedAt.bind (isWindowed_onCollector _ _ _ ⟨htrigger, rfl⟩) fun _ => Related.pure _

theorem isWindowed_processWatermark (collector : Collector C Out) (watermark : Watermark)
    (iter : IterOrder WindowKey) :
    Related IsWindowed (processWatermark collector watermark iter : Call Unit In Acc Out C Unit)
      (WindowedOperator.processWatermark collector watermark iter) := by
  rintro s t ⟨htrigger, rfl⟩
  refine RelatedAt.get_bind ?_
  have hkeys : s.1.toWindowed.state.keys = s.1.accumulators.keys := rfl
  simp only [hkeys, s.1.evaluate_eventTime htrigger, WindowedOperator.evaluate_eq]
  -- the state of the trigger is trivial, and setting it changes nothing
  have hset : (set ({ s.1 with triggerState := () }, s.2) : Call Unit In Acc Out C PUnit).runOn s =
      (.ok ⟨⟩, s) := rfl
  unfold RelatedAt
  rw [runOn_bind_ok hset]
  refine RelatedAt.bind (Related.forM (isWindowed_fire collector) _ _ _ ⟨htrigger, rfl⟩) fun _ => ?_
  refine Related.bind (Related.modify ?_) fun _ => isWindowed_onCollector _
  rintro s t ⟨htrigger, rfl⟩
  refine ⟨(foldl_purge_spec s.1 _).1.2.1.trans htrigger, ?_⟩
  rw [foldl_purge_toWindowed]

theorem isWindowed_process (collector : Collector C Out) (input : Input In) :
    Related IsWindowed (process collector input : Call Unit In Acc Out C Unit)
      (WindowedOperator.process collector input) := by
  cases input with
  | record r => exact isWindowed_processRecord r
  | watermark w iter => exact isWindowed_processWatermark collector w iter
  | barrier b => exact isWindowed_onCollector _

/-- **The window operator with the default trigger is a windowed operator.** -/
theorem run_toWindowed (collector : Collector C Out) (inputs : List (Input In)) :
    Related IsWindowed (run collector inputs : Call Unit In Acc Out C Unit)
      (WindowedOperator.run collector inputs) :=
  Related.forM (isWindowed_process collector) inputs

end WindowOperator

end Flume
