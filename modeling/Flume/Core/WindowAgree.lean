import Flume.Core.WindowJoin
import Flume.Lib.Segments

/-!
# The window join agrees with the cogroup

Two windowed operators that see the same elements emit the same keys and values at the same
watermarks, if what one keeps for a window is a view of what the other keeps. The maps of the two
may be visited in different orders, and records may be late.

* `ContentsAgree`: the contents of one operator as a view of those of another;
* `Simulates`, **`run_simulates`**: the two operators stay in step over any elements;
* **`windowJoin_agreesWithCogroup`**: the window join, and the cogroup of the cross product.
-/

namespace Flume

open Fallible Entries Segments
open WindowOperator (Input passes onCollector)

variable {In B B' L R Out : Type}

/-- The key and value of a record that is emitted. -/
def keyValue (element : StreamElement Out) : Option (Option Bytes × Out) :=
  element.record?.map fun record => (record.key, record.value)

/-- The element, without the order in which a map is visited. -/
def WindowOperator.Input.element : Input In → StreamElement In
  | .record r => .record r
  | .watermark w _ => .watermark w
  | .barrier b => .checkpointBarrier b

/-- What `contents'` keeps is a view of what `contents` keeps, and the results have the same keys
and values. -/
structure ContentsAgree (contents : WindowContents In B Out) (contents' : WindowContents In B' Out)
    (view : B → B') : Prop where
  default : view contents.default = contents'.default
  push : ∀ b record, view (contents.push b record) = contents'.push (view b) record
  results : ∀ (wk : WindowKey) b, 1 ≤ wk.window.stop → ∃ results results',
    contents.results wk b = .ok results ∧ contents'.results wk (view b) = .ok results' ∧
      (results.map StreamElement.record).filterMap keyValue =
        (results'.map StreamElement.record).filterMap keyValue

/-- The outputs have the same watermarks, and between them the same keys and values. -/
abbrev SameOutput (out out' : List (StreamElement Out)) : Prop :=
  Agree StreamElement.watermark? keyValue out out'

namespace WindowedOperator

variable {assigner : WindowAssigner} {contents : WindowContents In B Out}
  {contents' : WindowContents In B' Out} {view : B → B'}

variable (assigner contents contents' view) in
/-- The two operators hold the same windows, of which the second has a view, and have had the same
output. -/
structure Simulates (s : WindowedOperator In B Out × List (StreamElement Out))
    (t : WindowedOperator In B' Out × List (StreamElement Out)) : Prop where
  config : s.1.assigner = assigner ∧ s.1.contents = contents
  config' : t.1.assigner = assigner ∧ t.1.contents = contents'
  lookup : ∀ wk, t.1.state.lookup wk = (s.1.state.lookup wk).map view
  ends : ∀ wk ∈ s.1.state, 1 ≤ wk.window.stop
  output : SameOutput s.2 t.2

variable {s : WindowedOperator In B Out × List (StreamElement Out)}
  {t : WindowedOperator In B' Out × List (StreamElement Out)}

theorem Simulates.mem_iff (h : Simulates assigner contents contents' view s t) {wk : WindowKey} :
    wk ∈ t.1.state ↔ wk ∈ s.1.state := by
  rw [← AList.lookup_isSome, ← AList.lookup_isSome, h.lookup, Option.isSome_map]

theorem Simulates.keys_perm (h : Simulates assigner contents contents' view s t) :
    s.1.state.keys.Perm t.1.state.keys := by
  refine (List.perm_ext_iff_of_nodup s.1.state.nodupKeys t.1.state.nodupKeys).mpr fun wk => ?_
  exact h.mem_iff.symm

/-- **A record.** -/
theorem simulates_processRecord (hends : EndsLate assigner)
    (hagree : ContentsAgree contents contents' view) (record : Record In) :
    Related (Simulates assigner contents contents' view)
      (processRecord record : Call In B Out _ Unit) (processRecord record) := by
  rintro ⟨op, out⟩ ⟨op', out'⟩ h
  obtain ⟨hassigner, hcontents⟩ := h.config
  obtain ⟨hassigner', hcontents'⟩ := h.config'
  dsimp only at hassigner hcontents hassigner' hcontents'
  unfold RelatedAt
  rcases hwindows : assigner record.timestamp with p | windows
  · rw [op.runOn_processRecord_error (by rw [hassigner, hwindows]) out,
      op'.runOn_processRecord_error (by rw [hassigner', hwindows]) out']
    exact ⟨rfl, h⟩
  · have hok : op.assigner record.timestamp = .ok windows := by rw [hassigner, hwindows]
    have hok' : op'.assigner record.timestamp = .ok windows := by rw [hassigner', hwindows]
    obtain ⟨op₁, hcall, hconfig, hstate⟩ := op.runOn_processRecord hok out
    obtain ⟨op₁', hcall', hconfig', hstate'⟩ := op'.runOn_processRecord hok' out'
    rw [hcall, hcall']
    refine ⟨rfl, ⟨hconfig.1.trans hassigner, hconfig.2.trans hcontents⟩,
      ⟨hconfig'.1.trans hassigner', hconfig'.2.trans hcontents'⟩, fun wk => ?_, fun wk hwk => ?_,
      h.output⟩
    · dsimp only
      rw [hstate, hstate', hcontents, hcontents']
      exact lookup_upsertAll_view hagree.default (fun b => hagree.push b record) h.lookup wk
    · dsimp only at hwk
      rw [hstate, mem_upsertAll] at hwk
      rcases hwk with hwk | hwk
      · exact h.ends wk hwk
      · obtain ⟨window, hwindow, rfl⟩ := List.mem_map.mp hwk
        exact hends _ _ hwindows window hwindow

theorem Simulates.resultsAt (hagree : ContentsAgree contents contents' view)
    (h : Simulates assigner contents contents' view s t) {wk : WindowKey} (hwk : wk ∈ s.1.state) :
    s.1.Emits wk ∧ t.1.Emits wk ∧
      ((s.1.resultsAt wk).map StreamElement.record).filterMap keyValue =
        ((t.1.resultsAt wk).map StreamElement.record).filterMap keyValue := by
  obtain ⟨b, hb⟩ := Option.isSome_iff_exists.mp (AList.lookup_isSome.mpr hwk)
  have hb' : t.1.state.lookup wk = some (view b) := by rw [h.lookup, hb, Option.map_some]
  obtain ⟨results, results', hresults, hresults', hsame⟩ := hagree.results wk b (h.ends wk hwk)
  rw [← h.config.2] at hresults
  rw [← h.config'.2] at hresults'
  refine ⟨⟨b, results, hb, hresults⟩, ⟨view b, results', hb', hresults'⟩, ?_⟩
  unfold WindowedOperator.resultsAt
  rw [hb, hb', Option.getD_some, Option.getD_some, hresults, hresults']
  exact hsame

theorem watermark?_flatMap (fired : List WindowKey) (f : WindowKey → List (Record Out)) :
    ∀ e ∈ fired.flatMap fun wk => (f wk).map StreamElement.record,
      e.watermark? = none := by
  intro e he
  obtain ⟨wk, -, he⟩ := List.mem_flatMap.mp he
  obtain ⟨record, -, rfl⟩ := List.mem_map.mp he
  rfl

/-- **A watermark**, whatever the order in which each of the maps is visited. -/
theorem simulates_processWatermark (hagree : ContentsAgree contents contents' view)
    (watermark : Watermark) (iter iter' : IterOrder WindowKey) :
    Related (Simulates assigner contents contents' view)
      (processWatermark (TestCollector Out) watermark iter : Call In B Out _ Unit)
      (processWatermark (TestCollector Out) watermark iter') := by
  rintro ⟨op, out⟩ ⟨op', out'⟩ h
  have hresults := fun wk (hwk : wk ∈ op.state) => h.resultsAt hagree hwk
  obtain ⟨op₁, hcall, hconfig, hstate⟩ := op.runOn_processWatermark out watermark iter
    fun wk hwk _ => (hresults wk hwk).1
  obtain ⟨op₁', hcall', hconfig', hstate'⟩ := op'.runOn_processWatermark out' watermark iter'
    fun wk hwk _ => (hresults wk (h.mem_iff.mp hwk)).2.1
  unfold RelatedAt
  rw [hcall, hcall']
  refine ⟨rfl, ⟨hconfig.1.trans h.config.1, hconfig.2.trans h.config.2⟩,
    ⟨hconfig'.1.trans h.config'.1, hconfig'.2.trans h.config'.2⟩, fun wk => ?_, fun wk hwk => ?_, ?_⟩
  · dsimp only
    rw [hstate, hstate']
    split_ifs
    · rfl
    · exact h.lookup wk
  · have hheld : (op₁.state.lookup wk).isSome := AList.lookup_isSome.mpr hwk
    rw [hstate] at hheld
    split_ifs at hheld
    · cases hheld
    · exact h.ends wk (AList.lookup_isSome.mp hheld)
  · have hfired : (op.fired (.watermark watermark iter)).Perm
        (op'.fired (.watermark watermark iter')) :=
      (op.fired_perm watermark iter).trans
        ((h.keys_perm.filter _).trans (op'.fired_perm watermark iter').symm)
    refine Agree.concat_marked ?_ rfl
    refine h.output.append_unmarked (watermark?_flatMap _ _) (watermark?_flatMap _ _) ?_
    rw [List.filterMap_flatMap, List.filterMap_flatMap]
    refine List.Perm.trans (List.Perm.of_eq ?_) (hfired.flatMap_right _)
    refine List.flatMap_congr fun wk hwk => ?_
    exact (hresults wk (op.mem_fired.mp hwk).1).2.2

theorem simulates_processBarrier (barrier : CheckpointBarrier) :
    Related (Simulates assigner contents contents' view)
      (processBarrier (TestCollector Out) barrier : Call In B Out _ Unit)
      (processBarrier (TestCollector Out) barrier) := by
  rintro ⟨op, out⟩ ⟨op', out'⟩ h
  refine ⟨rfl, h.config, h.config', h.lookup, h.ends, ?_⟩
  have hbarrier : ∀ e ∈ [(.checkpointBarrier barrier : StreamElement Out)],
      e.watermark? = none := by simp [StreamElement.watermark?]
  exact h.output.append_unmarked hbarrier hbarrier (List.Perm.refl _)

theorem forall₂_of_elements {P : Input In → Input In → Prop}
    (hP : ∀ a b, a.element = b.element → P a b) {inputs inputs' : List (Input In)}
    (h : inputs.map Input.element = inputs'.map Input.element) :
    List.Forall₂ P inputs inputs' := by
  induction inputs generalizing inputs' with
  | nil =>
    rw [List.map_nil, eq_comm, List.map_eq_nil_iff] at h
    rw [h]
    exact .nil
  | cons a inputs ih =>
    cases inputs' with
    | nil => cases h
    | cons b inputs' =>
      obtain ⟨hhead, htail⟩ := List.cons.inj h
      exact .cons (hP a b hhead) (ih htail)

theorem simulates_process (hends : EndsLate assigner)
    (hagree : ContentsAgree contents contents' view) (a b : Input In)
    (hab : a.element = b.element) :
    Related (Simulates assigner contents contents' view)
      (process (TestCollector Out) a : Call In B Out _ Unit) (process (TestCollector Out) b) := by
  cases a with
  | record r =>
    cases b with
    | record r' =>
      obtain rfl := StreamElement.record.inj hab
      exact simulates_processRecord hends hagree r
    | watermark w iter => cases hab
    | barrier b => cases hab
  | watermark w iter =>
    cases b with
    | record r' => cases hab
    | watermark w' iter' =>
      obtain rfl := StreamElement.watermark.inj hab
      exact simulates_processWatermark hagree w iter iter'
    | barrier b => cases hab
  | barrier barrier =>
    cases b with
    | record r' => cases hab
    | watermark w iter => cases hab
    | barrier barrier' =>
      obtain rfl := StreamElement.checkpointBarrier.inj hab
      exact simulates_processBarrier barrier

/-- **The two operators stay in step.** -/
theorem run_simulates (hends : EndsLate assigner) (hagree : ContentsAgree contents contents' view)
    {inputs inputs' : List (Input In)}
    (h : inputs.map Input.element = inputs'.map Input.element) :
    Related (Simulates assigner contents contents' view)
      (run (TestCollector Out) inputs : Call In B Out _ Unit)
      (run (TestCollector Out) inputs') :=
  Related.forM₂ (forall₂_of_elements (simulates_process hends hagree) h)

theorem simulates_new :
    Simulates assigner contents contents' view (new assigner contents, ([] : List (StreamElement Out)))
      (new assigner contents', []) where
  config := ⟨rfl, rfl⟩
  config' := ⟨rfl, rfl⟩
  lookup wk := by simp [new]
  ends wk hwk := absurd hwk (AList.notMem_empty wk)
  output := Agree.refl []

end WindowedOperator

/-! ## The join and the cogroup -/

/-- The cross product of the two sides. -/
def crossProduct (f : L → R → Out) (_key : Bytes) (left : List L) (right : List R) : List Out :=
  left.flatMap fun l => right.map fun r => f l r

/-- A cogroup keeps what a join keeps, without the timestamps. -/
def WindowJoinState.values (st : WindowJoinState L R) : CogroupState L R :=
  ⟨st.left.map Prod.fst, st.right.map Prod.fst⟩

theorem contentsAgree_cogroup (f : L → R → Out) :
    ContentsAgree (joinContents f) (cogroupContents (crossProduct f)) WindowJoinState.values where
  default := rfl
  push st record := by
    obtain ⟨value | value, ts, key⟩ := record <;> simp [joinContents, cogroupContents,
      WindowJoinState.values]
  results wk st hstop := by
    refine ⟨_, (crossProduct f wk.key (st.left.map Prod.fst) (st.right.map Prod.fst)).map
      fun value => ⟨value, wk.window.stop - 1, some wk.key⟩, rfl, ?_, ?_⟩
    · simp only [cogroupContents, U64.checkedSub_eq_ok hstop]
      rfl
    · have hkeyValue : ∀ records : List (Record Out),
          (records.map StreamElement.record).filterMap keyValue =
            records.map fun record => (record.key, record.value) := by
        intro records
        rw [List.filterMap_map]
        exact congrFun List.filterMap_eq_map records
      rw [hkeyValue, hkeyValue]
      simp [crossProduct, List.map_flatMap, List.flatMap_map, Function.comp_def]

/-- **The window join agrees with the cogroup** of the cross product: between two watermarks they
emit the same keys and values, each as often. -/
theorem windowJoin_agreesWithCogroup (assigner : WindowAssigner) (hends : EndsLate assigner)
    (f : L → R → Out) (inputs inputs' : List (Input (Either L R)))
    (hsame : inputs.map Input.element = inputs'.map Input.element) :
    let joined := (WindowedOperator.run (TestCollector Out) inputs).runOn
      (WindowJoinOperator.new assigner f, [])
    let cogrouped := (WindowedOperator.run (TestCollector Out) inputs').runOn
      (WindowCogroupOperator.new assigner (crossProduct f), [])
    joined.1 = cogrouped.1 ∧
      (joined.2.2.filterMap keyValue).Perm (cogrouped.2.2.filterMap keyValue) ∧
      marks StreamElement.watermark? joined.2.2 = marks StreamElement.watermark? cogrouped.2.2 ∧
      ∀ j, ((seg StreamElement.watermark? j joined.2.2).filterMap keyValue).Perm
        ((seg StreamElement.watermark? j cogrouped.2.2).filterMap keyValue) := by
  intro joined cogrouped
  have hagree := contentsAgree_cogroup f
  obtain ⟨hresult, hsim⟩ := WindowedOperator.run_simulates hends hagree hsame _ _
    WindowedOperator.simulates_new
  refine ⟨hresult, hsim.output.filterMap_perm fun e he => ?_, hsim.output.marks, hsim.output.segs⟩
  cases e with
  | record r => cases he
  | watermark w => rfl
  | checkpointBarrier b => rfl

/-- The elements of `pairedInputs`, with other orders of visits. -/
def revisitedInputs : List (Input (Either ℕ ℕ)) :=
  [.record ⟨.left 1, 7, some [1]⟩, .record ⟨.right 2, 8, some [1]⟩, .record ⟨.right 3, 8, none⟩,
    .watermark ⟨10⟩ (IterOrder.backwards _), .watermark ⟨15⟩ (IterOrder.given _)]

/-- Windows of 10 ms every 5 ms over `pairedInputs`; the cogroup visits its map in another order. -/
theorem pairedInputs_agreeWithCogroup :
    let joined := (WindowedOperator.run (TestCollector ℕ) pairedInputs).runOn
      (WindowJoinOperator.new (SlidingWindow.mk 10 5).assignWindows Nat.add, [])
    let cogrouped := (WindowedOperator.run (TestCollector ℕ) revisitedInputs).runOn
      (WindowCogroupOperator.new (SlidingWindow.mk 10 5).assignWindows (crossProduct Nat.add), [])
    joined.1 = cogrouped.1 ∧
      (joined.2.2.filterMap keyValue).Perm (cogrouped.2.2.filterMap keyValue) ∧
      marks StreamElement.watermark? joined.2.2 = marks StreamElement.watermark? cogrouped.2.2 ∧
      ∀ j, ((seg StreamElement.watermark? j joined.2.2).filterMap keyValue).Perm
        ((seg StreamElement.watermark? j cogrouped.2.2).filterMap keyValue) :=
  windowJoin_agreesWithCogroup _ (endsLate_of_isProper (IsWindowAssigner.sliding _).isProper)
    Nat.add pairedInputs revisitedInputs rfl

end Flume
