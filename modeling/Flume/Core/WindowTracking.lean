import Flume.Core.WindowHistory
import Flume.Core.Windowed

/-!
# What a windowed operator emits on timely inputs

On an input that keeps the watermark promise the contents of a window are the fold of its group so
far, and what was emitted are the results of the whole groups that were passed.

* `batchContents`, `batchResults`: the contents and results of a group, from the whole input;
* `Tracks`: the operator holds the open groups; `tracks_record`, `tracks_watermark` keep it;
* **`emitted_perm`**: the operator has emitted the results of the groups that were passed;
* `batchResults_append`: the results of a group that was passed are final.
-/

namespace Flume

open Fallible Entries GroupBy
open WindowOperator (Input keysOf history groups Passed Timely passes passed_iff mem_groups
  keysOf_eq keysOf_spec history_append history_record history_watermark history_barrier
  assignedPrefix)

namespace WindowedOperator

variable {In B Out : Type}

section Spec

variable (assigner : WindowAssigner) (contents : WindowContents In B Out)

/-- The fold of the records assigned to a key and window, in arrival order. -/
def batchContents (inputs : List (Input In)) (wk : WindowKey) : B :=
  total (keysOf assigner) contents.push contents.default (history inputs) wk

/-- The records to emit for a key and window. -/
def batchResults (inputs : List (Input In)) (wk : WindowKey) : List (Record Out) :=
  match contents.results wk (batchContents assigner contents inputs wk) with
  | .ok results => results
  | .error _ => []

/-- What the operator has pushed to its collector after `inputs`. -/
def output (inputs : List (Input In)) : List (StreamElement Out) :=
  ((run (TestCollector Out) inputs).runOn (new assigner contents, [])).2.2

/-- After `inputs` the operator holds the open groups, each with its fold so far. -/
structure Tracks (inputs : List (Input In)) (op : WindowedOperator In B Out) : Prop where
  config : SameConfig (new assigner contents) op
  state : ∀ wk, op.state.lookup wk =
    live (keysOf assigner) contents.push contents.default (history inputs) wk

/-- The run over `inputs` succeeds and ends in this state. -/
def Reaches (inputs : List (Input In)) (op : WindowedOperator In B Out)
    (out : List (StreamElement Out)) : Prop :=
  (run (TestCollector Out) inputs).runOn (new assigner contents, []) = (.ok (), (op, out))

end Spec

variable {assigner : WindowAssigner} {contents : WindowContents In B Out}
  {inputs inputs' : List (Input In)} {input : Input In} {op op' : WindowedOperator In B Out}
  {out out' : List (StreamElement Out)}

theorem Reaches.output_eq (h : Reaches assigner contents inputs op out) :
    output assigner contents inputs = out := by
  rw [output, h]

theorem Reaches.concat (h : Reaches assigner contents inputs op out)
    (hx : (process (TestCollector Out) input).runOn (op, out) = (.ok (), (op', out'))) :
    Reaches assigner contents (inputs ++ [input]) op' out' := by
  unfold Reaches run at h ⊢
  rw [runOn_forM_append_ok h, runOn_forM_cons, runOn_bind_ok hx, runOn_forM_nil]

theorem Tracks.mem_state (ht : Tracks assigner contents inputs op) {wk : WindowKey} :
    wk ∈ op.state ↔ wk ∈ groups assigner inputs ∧ ¬ Passed inputs wk := by
  rw [← AList.lookup_isSome, ht.state, live]
  split_ifs with h
  · exact iff_of_true rfl h
  · exact iff_of_false Bool.false_ne_true h

theorem Tracks.lookup_eq (ht : Tracks assigner contents inputs op) {wk : WindowKey}
    (hwk : wk ∈ op.state) :
    op.state.lookup wk = some (batchContents assigner contents inputs wk) := by
  rw [ht.state, live_eq_some]
  exact ⟨ht.mem_state.mp hwk, rfl⟩

theorem Tracks.resultsAt_eq (ht : Tracks assigner contents inputs op) {wk : WindowKey}
    (hwk : wk ∈ op.state) : op.resultsAt wk = batchResults assigner contents inputs wk := by
  unfold resultsAt batchResults
  rw [ht.lookup_eq hwk, ht.config.2]
  rfl

section Timely

variable (hproper : IsProper assigner) (hcomputes : contents.Computes)

include hproper in
theorem one_le_stop (h : Timely assigner inputs) {wk : WindowKey}
    (hwk : wk ∈ groups assigner inputs) : 1 ≤ wk.window.stop := by
  obtain ⟨r, hr, hkey⟩ := mem_groups.mp hwk
  obtain ⟨windows, hok⟩ := h.assigned r hr
  have hlt : r.timestamp.val < wk.window.stop.val := (keysOf_spec hproper hok).2 wk hkey
  exact Fin.le_def.mpr (Nat.lt_of_le_of_lt (Nat.zero_le _) hlt)

include hproper hcomputes in
theorem Tracks.emits (ht : Tracks assigner contents inputs op) (h : Timely assigner inputs)
    {wk : WindowKey} (hwk : wk ∈ op.state) : op.Emits wk := by
  obtain ⟨results, hresults⟩ := hcomputes wk (batchContents assigner contents inputs wk)
    (one_le_stop hproper h (ht.mem_state.mp hwk).1)
  refine ⟨_, results, ht.lookup_eq hwk, ?_⟩
  rw [ht.config.2]
  exact hresults

include hproper in
/-- **A record is folded into its open groups.** -/
theorem tracks_record {r : Record In} (h : Timely assigner (inputs ++ [.record r]))
    (ht : Tracks assigner contents inputs op) (hrun : Reaches assigner contents inputs op out) :
    ∃ op', Reaches assigner contents (inputs ++ [.record r]) op' out ∧
      Tracks assigner contents (inputs ++ [.record r]) op' := by
  obtain ⟨windows, hok⟩ := h.assigned r (by simp)
  obtain ⟨op', hcall, hconfig, hstate⟩ := op.runOn_processRecord (by
    rw [ht.config.1]; exact hok) out
  refine ⟨op', hrun.concat hcall, ht.config.trans hconfig, fun wk => ?_⟩
  have htimely := h.onTime_history hproper
  rw [history_record] at htimely ⊢
  rw [hstate, ← keysOf_eq hok, lookup_upsertAll (keysOf_spec hproper hok).1, ht.config.2, ht.state]
  exact (live_add htimely).symm

include hproper hcomputes in
/-- **A watermark emits the results of the open groups that it passes, and is forwarded.** -/
theorem tracks_watermark (h : Timely assigner inputs) (ht : Tracks assigner contents inputs op)
    (hrun : Reaches assigner contents inputs op out) (w : Watermark)
    (iter : IterOrder WindowKey) :
    ∃ (op' : WindowedOperator In B Out) (fired : List WindowKey),
      Reaches assigner contents (inputs ++ [.watermark w iter]) op'
        (out ++ (fired.flatMap fun wk => (batchResults assigner contents inputs wk).map .record) ++
          [.watermark w]) ∧
      fired.Perm (due (keysOf assigner) (history inputs) (passes w)) ∧
      Tracks assigner contents (inputs ++ [.watermark w iter]) op' := by
  obtain ⟨op', hcall, hconfig, hstate⟩ := op.runOn_processWatermark out w iter
    fun wk hwk _ => ht.emits hproper hcomputes h hwk
  have hperm := op.fired_perm w iter
  have hmem : ∀ wk ∈ op.fired (.watermark w iter), wk ∈ op.state := fun wk hwk =>
    AList.mem_keys.mp (List.mem_of_mem_filter (hperm.subset hwk))
  have hresults : ((op.fired (.watermark w iter)).flatMap fun wk =>
        (op.resultsAt wk).map StreamElement.record) =
      (op.fired (.watermark w iter)).flatMap fun wk =>
        (batchResults assigner contents inputs wk).map .record :=
    List.flatMap_congr fun wk hwk => by rw [ht.resultsAt_eq (hmem wk hwk)]
  rw [hresults] at hcall
  refine ⟨op', _, hrun.concat hcall, hperm.trans ?_, ht.config.trans hconfig, fun wk => ?_⟩
  · have hnodup : op.state.keys.Nodup := op.state.nodupKeys
    rw [List.perm_ext_iff_of_nodup (hnodup.filter _) due_nodup]
    intro wk
    rw [List.mem_filter, ← AList.mem_keys, ht.mem_state, mem_due, groups, Passed]
    tauto
  · rw [hstate, ht.state, history_watermark]
    exact live_close.symm

theorem tracks_barrier (ht : Tracks assigner contents inputs op)
    (hrun : Reaches assigner contents inputs op out) (b : CheckpointBarrier) :
    Reaches assigner contents (inputs ++ [.barrier b]) op (out ++ [.checkpointBarrier b]) ∧
      Tracks assigner contents (inputs ++ [.barrier b]) op := by
  refine ⟨hrun.concat rfl, ht.config, fun wk => ?_⟩
  rw [ht.state, history_barrier]

include hproper hcomputes in
/-- **Every timely input is processed, and the operator tracks it.** -/
theorem exists_tracks (h : Timely assigner inputs) :
    ∃ op out, Reaches assigner contents inputs op out ∧ Tracks assigner contents inputs op := by
  induction inputs using List.reverseRecOn with
  | nil =>
    refine ⟨new assigner contents, [], rfl, ⟨rfl, rfl⟩, fun wk => ?_⟩
    show none = live _ _ _ [] wk
    rw [live_nil]
  | append_singleton inputs input ih =>
    obtain ⟨op, out, hrun, ht⟩ := ih h.of_append
    cases input with
    | record r =>
      obtain ⟨op', hrun', ht'⟩ := tracks_record hproper h ht hrun
      exact ⟨op', out, hrun', ht'⟩
    | watermark w iter =>
      obtain ⟨op', fired, hrun', -, ht'⟩ :=
        tracks_watermark hproper hcomputes h.of_append ht hrun w iter
      exact ⟨op', _, hrun', ht'⟩
    | barrier b =>
      obtain ⟨hrun', ht'⟩ := tracks_barrier ht hrun b
      exact ⟨op, _, hrun', ht'⟩

/-! ## What has been emitted -/

theorem batchResults_congr {wk : WindowKey} (h : batchContents assigner contents inputs wk =
    batchContents assigner contents inputs' wk) :
    batchResults assigner contents inputs wk = batchResults assigner contents inputs' wk := by
  rw [batchResults, h, batchResults]

include hproper in
/-- **The results of a group that was passed are final.** -/
theorem batchResults_append (h : Timely assigner (inputs ++ inputs')) {wk : WindowKey}
    (hp : Passed inputs wk) :
    batchResults assigner contents (inputs ++ inputs') wk =
      batchResults assigner contents inputs wk := by
  have htimely := h.onTime_history hproper
  refine batchResults_congr ?_
  rw [history_append] at htimely
  rw [batchContents, history_append, htimely.total_append hp, batchContents]

theorem batchResults_watermark (w : Watermark) (iter : IterOrder WindowKey) (wk : WindowKey) :
    batchResults assigner contents (inputs ++ [.watermark w iter]) wk =
      batchResults assigner contents inputs wk :=
  batchResults_congr (by rw [batchContents, history_watermark, total_close, batchContents])

theorem batchResults_barrier (b : CheckpointBarrier) (wk : WindowKey) :
    batchResults assigner contents (inputs ++ [.barrier b]) wk =
      batchResults assigner contents inputs wk :=
  batchResults_congr (by rw [batchContents, history_barrier, batchContents])

theorem filterMap_flatMap_record (fired : List WindowKey) (f : WindowKey → List (Record Out)) :
    (fired.flatMap fun wk => (f wk).map StreamElement.record).filterMap StreamElement.record? =
      fired.flatMap f := by
  rw [List.filterMap_flatMap]
  refine List.flatMap_congr fun wk _ => ?_
  rw [List.filterMap_map]
  exact List.filterMap_some

include hproper hcomputes in
/-- **The results of the groups that were passed are what has been emitted.** -/
theorem emitted_perm (h : Timely assigner inputs) :
    ((output assigner contents inputs).filterMap StreamElement.record?).Perm
      ((closedKeys (keysOf assigner) (history inputs)).flatMap
        (batchResults assigner contents inputs)) := by
  induction inputs using List.reverseRecOn with
  | nil => exact List.Perm.refl _
  | append_singleton inputs input ih =>
    have hpre : Timely assigner inputs := h.of_append
    obtain ⟨op, out, hrun, ht⟩ := exists_tracks hproper hcomputes hpre
    have hout := ih hpre
    rw [hrun.output_eq] at hout
    cases input with
    | record r =>
      obtain ⟨op', hrun', -⟩ := tracks_record hproper h ht hrun
      have htimely := h.onTime_history hproper
      rw [hrun'.output_eq]
      rw [history_record] at htimely ⊢
      refine hout.trans (List.Perm.trans ?_ ((closedKeys_add htimely).flatMap_right _).symm)
      refine List.Perm.of_eq (List.flatMap_congr fun wk hwk => ?_)
      exact (batchResults_append hproper h (mem_closedKeys.mp hwk).2).symm
    | watermark w iter =>
      obtain ⟨op', fired, hrun', hfired, -⟩ :=
        tracks_watermark hproper hcomputes hpre ht hrun w iter
      have hsame : batchResults assigner contents (inputs ++ [.watermark w iter]) =
          batchResults assigner contents inputs := funext fun wk => batchResults_watermark w iter wk
      rw [hrun'.output_eq, history_watermark, hsame]
      refine List.Perm.trans ?_ (closedKeys_close.flatMap_right _).symm
      rw [List.filterMap_append, List.filterMap_append, filterMap_flatMap_record,
        List.flatMap_append]
      exact (List.append_nil _).symm ▸ hout.append (hfired.flatMap_right _)
    | barrier b =>
      obtain ⟨hrun', -⟩ := tracks_barrier ht hrun b
      have hsame : batchResults assigner contents (inputs ++ [.barrier b]) =
          batchResults assigner contents inputs := funext fun wk => batchResults_barrier b wk
      rw [hrun'.output_eq, history_barrier, hsame, List.filterMap_append]
      exact (List.append_nil _).symm ▸ hout

/-! ## What each element emits -/

include hproper hcomputes

theorem run_ok (h : Timely assigner inputs) :
    ((run (TestCollector Out) inputs).runOn (new assigner contents, [])).1 = .ok () := by
  obtain ⟨op, out, hrun, -⟩ := exists_tracks hproper hcomputes h
  rw [hrun]

theorem output_record {r : Record In} (h : Timely assigner (inputs ++ [.record r])) :
    output assigner contents (inputs ++ [.record r]) = output assigner contents inputs := by
  obtain ⟨op, out, hrun, ht⟩ := exists_tracks hproper hcomputes h.of_append
  obtain ⟨op', hrun', -⟩ := tracks_record hproper h ht hrun
  rw [hrun'.output_eq, hrun.output_eq]

theorem output_barrier {b : CheckpointBarrier} (h : Timely assigner inputs) :
    output assigner contents (inputs ++ [.barrier b]) =
      output assigner contents inputs ++ [.checkpointBarrier b] := by
  obtain ⟨op, out, hrun, ht⟩ := exists_tracks hproper hcomputes h
  obtain ⟨hrun', -⟩ := tracks_barrier ht hrun b
  rw [hrun'.output_eq, hrun.output_eq]

/-- **A watermark emits the final results of the groups that it is the first to pass**, and follows
them. -/
theorem output_watermark {w : Watermark} {iter : IterOrder WindowKey}
    (h : Timely assigner (inputs ++ .watermark w iter :: inputs')) :
    ∃ fired : List WindowKey,
      output assigner contents (inputs ++ [.watermark w iter]) = output assigner contents inputs ++
        (fired.flatMap fun wk => (batchResults assigner contents
          (inputs ++ .watermark w iter :: inputs') wk).map .record) ++ [.watermark w] ∧
      fired.Perm ((groups assigner (inputs ++ .watermark w iter :: inputs')).filter fun wk =>
        passes w wk ∧ ¬ Passed inputs wk) := by
  obtain ⟨op, out, hrun, ht⟩ := exists_tracks hproper hcomputes h.of_append
  obtain ⟨op', fired, hrun', hfired, -⟩ :=
    tracks_watermark hproper hcomputes h.of_append ht hrun w iter
  have htimely := h.onTime_history hproper
  have hhistory : history (inputs ++ .watermark w iter :: inputs') =
      history inputs ++ .close (passes w) :: history inputs' := history_append _ _
  rw [hhistory] at htimely
  refine ⟨fired, ?_, hfired.trans ?_⟩
  · have hfinal : ∀ wk ∈ fired, batchResults assigner contents inputs wk =
        batchResults assigner contents (inputs ++ .watermark w iter :: inputs') wk := by
      intro wk hwk
      have hpassed : Passed (inputs ++ [.watermark w iter]) wk := by
        rw [Passed, history_watermark, closed_close]
        exact Or.inr (mem_due.mp (hfired.subset hwk)).2.1
      rw [List.append_cons] at h ⊢
      rw [batchResults_append hproper h hpassed, batchResults_watermark]
    rw [hrun'.output_eq, hrun.output_eq,
      List.flatMap_congr fun wk hwk => congrArg (List.map _) (hfinal wk hwk)]
  · rw [groups, hhistory]
    exact due_perm htimely

end Timely

end WindowedOperator

end Flume
