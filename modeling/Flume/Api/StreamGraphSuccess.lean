import Flume.Api.Backpressure
import Flume.Api.StreamGraphTermination

/-!
# Graphs that do not fail

The tasks of a graph can make each other fail: a collector refuses elements when its channel is full
or nobody reads it, and a send fails once the merger has returned. If no source, no operator and not
the sink fails by itself, only full channels are left.

* `StreamGraph.Succeeds`, `StreamGraph.Fits`: nothing fails by itself; no channel can be full;
* **`RunningGraph.Inv.sent_within`**: at any time a part of a possible output has been sent;
* `RunningGraph.Unfailed`, **`RunningGraph.Unfailed.step`**: a step with room keeps tasks from
  failing;
* `GraphRun.Healthy`, **`GraphRun.Healthy.step`**: the same for the whole system;
* **`graph_succeeds`**: such a graph fails in no run, and under every fair schedule it returns `Ok`.
-/

namespace Flume

open Channels Emitters Emitter

namespace StreamGraph

/-- The sources end well, and no operator fails on anything that those before it and the mergers can
make of them. -/
def Succeeds {T : Type} : StreamGraph T → Prop
  | source src => src.ending = .ok ()
  | apply _ upstream op =>
    upstream.Succeeds ∧ ∀ input, upstream.Outputs input → ∃ s, (op.feed input).2 = .ok s
  | connect _ upstream source2 keyFn1 keyFn2 op =>
    upstream.Succeeds ∧ source2.ending = .ok () ∧ ∀ input merged, upstream.Outputs input →
      Merges (keyed keyFn1 input).1 (keyed keyFn2 source2.elements).1 merged →
      ∃ s, (op.feed merged).2 = .ok s

/-- A channel behind an operator holds everything that the operator can emit. -/
def Fits (cfg : PipelineConfig) {T : Type} : StreamGraph T → Prop
  | source _ => True
  | apply name upstream op =>
    upstream.Fits cfg ∧ ∀ out, (apply name upstream op).Outputs out → out.length ≤ cfg.capacity
  | connect name upstream source2 keyFn1 keyFn2 op =>
    upstream.Fits cfg ∧ ∀ out, (connect name upstream source2 keyFn1 keyFn2 op).Outputs out →
      out.length ≤ cfg.capacity

end StreamGraph

/-! ## Part of an output has been sent -/

section Task

variable {In Out : Type} {op : Operator In Out} {input : Channel (StreamElement In)}
  {output : Channel (StreamElement Out)} {phase : TaskPhase op.State Out}

theorem TaskFed.sent_within (h : TaskFed False op input output phase)
    (hunfailed : ∀ f, phase ≠ .returned (.error f)) {all : List (StreamElement In)}
    (hpart : input.taken <+: all) (hall : input.Disconnected → input.taken = all) :
    output.sent <+: (op.feed all).1 ∧ (output.closed = true → output.sent = (op.feed all).1) := by
  refine ⟨(h.task.sent_within hunfailed).trans (feed_mono hpart _), fun hclosed => ?_⟩
  match phase, h.task with
  | .polling s, htask => exact absurd (hclosed.symm.trans htask.2) Bool.noConfusion
  | .calling call, htask => exact absurd (hclosed.symm.trans htask.1) Bool.noConfusion
  | .returned (.ok ()), htask =>
    rw [← hall htask.2]
    exact htask.1.symm
  | .returned (.error f), _ => exact absurd rfl (hunfailed f)

end Task

section Feeds

variable {T : Type} {keyFn₀ : Option (KeyExtractor T)} {seen : List (StreamElement T)}
  {channel : Channel (StreamElement T)} {ended : Prop} {phase : FeedPhase T}

theorem keyed_append (keyFn : Option (KeyExtractor T)) (es fs : List (StreamElement T)) :
    (keyed keyFn (es ++ fs)).1 = (keyed keyFn es).1 ++ (keyed (keyed keyFn es).2 fs).1 := by
  induction es generalizing keyFn with
  | nil => rfl
  | cons e es ih =>
    rw [List.cons_append, keyed, ih]
    rfl

theorem keyed_mono {es fs : List (StreamElement T)} (h : es <+: fs)
    (keyFn : Option (KeyExtractor T)) : (keyed keyFn es).1 <+: (keyed keyFn fs).1 := by
  obtain ⟨gs, rfl⟩ := h
  rw [keyed_append]
  exact List.prefix_append _ _

theorem Feeds.sent_within (h : Feeds keyFn₀ seen channel ended phase)
    (hunfailed : ∀ f, phase ≠ .returned (.error f)) : channel.sent <+: (keyed keyFn₀ seen).1 ∧
      (channel.closed = true → ended ∧ channel.sent = (keyed keyFn₀ seen).1) := by
  match phase, h with
  | .fetching keyFn, h =>
    rw [h.1]
    exact ⟨List.prefix_rfl, fun hclosed => absurd (hclosed.symm.trans h.2) Bool.noConfusion⟩
  | .sending e keyFn, h =>
    rw [h.1]
    exact ⟨List.prefix_append _ _,
      fun hclosed => absurd (hclosed.symm.trans h.2) Bool.noConfusion⟩
  | .returned (.ok ()), h => exact ⟨h.1 ▸ List.prefix_rfl, fun _ => ⟨h.2.1, h.1.symm⟩⟩
  | .returned (.error f), _ => exact absurd rfl (hunfailed f)

end Feeds

namespace Connection

variable {In1 In2 : Type} {source2 : Source In2} {keyFn1 : Option (KeyExtractor In1)}
  {keyFn2 : Option (KeyExtractor In2)} {upstream : Wire In1} {c : Connection In1 In2}

/-- No task of a connection has failed, and `connected-input1` drops its input when it returns. -/
structure Unfailed (upstream : Wire In1) (c : Connection In1 In2) : Prop where
  input1 : ∀ f, c.input1 ≠ .returned (.error f)
  input2 : ∀ f, c.input2 ≠ .returned (.error f)
  merge : ∀ f, c.mergeResult ≠ some (.error f)
  dropped : upstream.receiverDropped = true → c.input1 = .returned (.ok ())

/-- The merger of a connection that has not failed has sent part of a merge of the whole inputs, and
all of it if it has closed its output. -/
theorem Ok.merged_within (h : c.Ok source2 keyFn1 keyFn2 upstream.channel)
    (hunfailed : c.Unfailed upstream) {input : List (StreamElement In1)}
    (hpart : upstream.channel.taken <+: input)
    (hall : upstream.channel.Disconnected → upstream.channel.taken = input) :
    ∃ m, Merges (keyed keyFn1 input).1 (keyed keyFn2 source2.elements).1 m ∧
      c.merged.channel.sent <+: m ∧ (c.merged.channel.closed = true → c.merged.channel.sent = m) := by
  obtain ⟨hmerger, hfeeds1, seen, hseen, hfeeds2⟩ := h
  have haligned := hmerger.aligned
  obtain ⟨hsent1, hclosed1⟩ := hfeeds1.sent_within hunfailed.input1
  obtain ⟨hsent2, hclosed2⟩ := hfeeds2.sent_within hunfailed.input2
  -- what is still to come on each input of the merger
  obtain ⟨as, has⟩ : c.merger.input1.taken <+: (keyed keyFn1 input).1 :=
    (List.prefix_append _ _).trans (hsent1.trans (keyed_mono hpart _))
  obtain ⟨bs, hbs⟩ : c.merger.input2.taken <+: (keyed keyFn2 source2.elements).1 :=
    (List.prefix_append _ _).trans (hsent2.trans (keyed_mono ⟨_, hseen.symm⟩ _))
  have hended : c.merger.Ended as bs := by
    refine ⟨fun hopen => ?_, fun hopen => ?_⟩
    · have hdis := (haligned.closed .one hopen).1
      obtain ⟨hend, hsent⟩ := hclosed1 hdis.1
      rw [← hall hend, ← hsent, Channel.sent_of_disconnected hdis] at has
      exact List.append_right_eq_self.mp has
    · have hdis := (haligned.closed .two hopen).1
      obtain ⟨hend, hsent⟩ := hclosed2 hdis.1
      rw [hseen, hend, List.append_nil, ← hsent, Channel.sent_of_disconnected hdis] at hbs
      exact List.append_right_eq_self.mp hbs
  obtain ⟨es, hes⟩ := hmerger.runs
  obtain ⟨m, hm, hwithin, hdone⟩ := TwoInputMerge.output_within (hes ▸ haligned) (hes ▸ hended)
  rw [← hes, has, hbs] at hm
  rw [← hes] at hwithin hdone
  refine ⟨m, hm, ?_, fun hclosed => ?_⟩
  · refine List.IsPrefix.trans ?_ hwithin
    rw [hmerger.sent]
    exact List.prefix_append _ _
  · match hresult : c.mergeResult with
    | none => exact absurd (hclosed.symm.trans (hmerger.running hresult).2) Bool.noConfusion
    | some (.error f) => exact absurd hresult (hunfailed.merge f)
    | some (.ok ()) =>
      obtain ⟨hres, hunsent⟩ := hmerger.complete hresult
      rw [← hdone hres, hmerger.sent, hunsent, List.append_nil]

theorem Unfailed.disconnected (hunfailed : c.Unfailed upstream)
    (h : c.Ok source2 keyFn1 keyFn2 upstream.channel) (hdropped : upstream.receiverDropped = true) :
    upstream.channel.Disconnected := by
  have hfeeds := h.feeds1
  rw [hunfailed.dropped hdropped] at hfeeds
  exact hfeeds.2.1

theorem Ok.inputs_closed (h : c.Ok source2 keyFn1 keyFn2 upstream.channel)
    (hunfailed : c.Unfailed upstream) (hgone : c.mergeResult.isSome) :
    c.merger.input1.closed = true ∧ c.merger.input2.closed = true := by
  have haligned := h.merger.aligned
  match hresult : c.mergeResult with
  | none =>
    rw [hresult] at hgone
    cases hgone
  | some (.error f) => exact absurd hresult (hunfailed.merge f)
  | some (.ok ()) =>
    have hclosed := (haligned.returned _ (h.merger.complete hresult).1).2
    exact ⟨(haligned.closed .one (hclosed .one)).1.1, (haligned.closed .two (hclosed .two)).1.1⟩

theorem Unfailed.stepInput1 (hunfailed : c.Unfailed upstream)
    (h : c.Ok source2 keyFn1 keyFn2 upstream.channel) (bufferSize : ℕ) :
    (c.stepInput1 bufferSize upstream).2.Unfailed (c.stepInput1 bufferSize upstream).1 := by
  have hcases := c.input1_cases bufferSize upstream
  have hfeeds := h.feeds1
  generalize c.stepInput1 bufferSize upstream = stepped at hcases
  have hthere : c.input1.result? = none → upstream.receiverDropped ≠ true := fun hr hd => by
    rw [hunfailed.dropped hd] at hr
    cases hr
  cases hcases with
  | idle => exact hunfailed
  | receive keyFn e channel hphase hrecv =>
    exact ⟨nofun, hunfailed.input2, hunfailed.merge, fun hd => absurd hd (hthere (hphase ▸ rfl))⟩
  | send keyFn e hphase hroom =>
    exact ⟨nofun, hunfailed.input2, hunfailed.merge, fun hd => absurd hd (hthere (hphase ▸ rfl))⟩
  | finish keyFn hphase hrecv => exact ⟨nofun, hunfailed.input2, hunfailed.merge, fun _ => rfl⟩
  | fail keyFn e hphase hgone =>
    rw [hphase] at hfeeds
    exact absurd ((h.inputs_closed hunfailed hgone).1.symm.trans hfeeds.2) Bool.noConfusion

theorem Unfailed.stepInput2 (hunfailed : c.Unfailed upstream)
    (h : c.Ok source2 keyFn1 keyFn2 upstream.channel) (hends : source2.ending = .ok ())
    (bufferSize : ℕ) : (c.stepInput2 bufferSize source2).Unfailed upstream := by
  have hcases := c.input2_cases bufferSize source2
  obtain ⟨seen, -, hfeeds⟩ := h.feeds2
  generalize c.stepInput2 bufferSize source2 = c' at hcases
  cases hcases with
  | idle => exact hunfailed
  | fetch keyFn e rest hphase hrest =>
    exact ⟨hunfailed.input1, nofun, hunfailed.merge, hunfailed.dropped⟩
  | send keyFn e hphase hroom =>
    exact ⟨hunfailed.input1, nofun, hunfailed.merge, hunfailed.dropped⟩
  | finish keyFn hphase hrest =>
    rw [hends]
    exact ⟨hunfailed.input1, nofun, hunfailed.merge, hunfailed.dropped⟩
  | fail keyFn e hphase hgone =>
    rw [hphase] at hfeeds
    exact absurd ((h.inputs_closed hunfailed hgone).2.symm.trans hfeeds.2) Bool.noConfusion

theorem Unfailed.stepMerge (hunfailed : c.Unfailed upstream)
    (h : c.Ok source2 keyFn1 keyFn2 upstream.channel)
    (hlast : c.merged.receiverDropped = true → c.merged.channel.Disconnected) (bufferSize : ℕ)
    (preferred : MergeInput) :
    (c.stepMerge bufferSize preferred).Unfailed upstream ∧
      (c.stepMerge bufferSize preferred).merged.receiverDropped = c.merged.receiverDropped := by
  have hcases := c.merge_cases bufferSize preferred
  generalize c.stepMerge bufferSize preferred = c' at hcases
  cases hcases with
  | idle => exact ⟨hunfailed, rfl⟩
  | send e rest channel hresult hunsent hsend =>
    exact ⟨⟨hunfailed.input1, hunfailed.input2, hunfailed.merge, hunfailed.dropped⟩, rfl⟩
  | fail e rest hresult hunsent hdropped =>
    exact absurd ((hlast hdropped).1.symm.trans (h.merger.running hresult).2) Bool.noConfusion
  | poll hresult hunsent hpoll =>
    exact ⟨⟨hunfailed.input1, hunfailed.input2, hunfailed.merge, hunfailed.dropped⟩, rfl⟩
  | finish r hresult hunsent hpoll =>
    obtain ⟨rfl, -⟩ := output_of_finished h.merger hresult hpoll
    exact ⟨⟨hunfailed.input1, hunfailed.input2, nofun, hunfailed.dropped⟩, rfl⟩

end Connection

namespace RunningGraph

variable {T : Type} {g : RunningGraph T}

/-- A task has not failed, and drops its input when it returns. -/
structure TaskUnfailed {State In Out : Type} (input : Wire In) (phase : TaskPhase State Out) :
    Prop where
  unfailed : ∀ f, phase ≠ .returned (.error f)
  dropped : input.receiverDropped = true → phase = .returned (.ok ())

/-- No task has failed; a receiver is dropped by a task that has returned. -/
def Unfailed {T : Type} : RunningGraph T → Prop
  | source _ drainer _ => ∀ f, drainer ≠ .returned (.error f)
  | apply _ upstream _ task _ => upstream.Unfailed ∧ TaskUnfailed upstream.wire task.phase
  | connect _ upstream _ _ _ _ conn task _ => upstream.Unfailed ∧ conn.Unfailed upstream.wire ∧
      TaskUnfailed conn.merged task.phase

/-- Part of a possible output has been sent, and all of it if the output is closed. -/
def Within (g : RunningGraph T) : Prop :=
  ∃ out, g.graph.Outputs out ∧ g.wire.channel.sent <+: out ∧
    (g.wire.channel.closed = true → g.wire.channel.sent = out)

theorem Within.apply {In Out : Type} {name : String} {upstream : RunningGraph In}
    {op : Operator In Out} (hup : upstream.Within)
    (hsucceeds : (StreamGraph.apply name upstream.graph op).Succeeds) :
    ∃ input s, upstream.graph.Outputs input ∧ op.feed input = ((op.feed input).1, .ok s) ∧
      upstream.wire.channel.taken <+: input ∧
      (upstream.wire.channel.Disconnected → upstream.wire.channel.taken = input) := by
  obtain ⟨input, hinput, hpart, hall⟩ := hup
  obtain ⟨s, hs⟩ := hsucceeds.2 input hinput
  exact ⟨input, s, hinput, Prod.ext rfl hs, (List.prefix_append _ _).trans hpart, fun hdis =>
    (Channel.sent_of_disconnected hdis).symm.trans (hall hdis.1)⟩

theorem Within.connect {In1 In2 Out : Type} {name : String} {upstream : RunningGraph In1}
    {source2 : Source In2} {keyFn1 : Option (KeyExtractor In1)} {keyFn2 : Option (KeyExtractor In2)}
    {op : Operator (Either In1 In2) Out} {conn : Connection In1 In2} (hup : upstream.Within)
    (h : conn.Ok source2 keyFn1 keyFn2 upstream.wire.channel)
    (hunfailed : conn.Unfailed upstream.wire)
    (hsucceeds : (StreamGraph.connect name upstream.graph source2 keyFn1 keyFn2 op).Succeeds) :
    ∃ input merged s, upstream.graph.Outputs input ∧
      Merges (keyed keyFn1 input).1 (keyed keyFn2 source2.elements).1 merged ∧
      op.feed merged = ((op.feed merged).1, .ok s) ∧ conn.merged.channel.taken <+: merged ∧
      (conn.merged.channel.Disconnected → conn.merged.channel.taken = merged) := by
  obtain ⟨input, hinput, hpart, hall⟩ := hup
  obtain ⟨merged, hmerged, hmpart, hmall⟩ :=
    h.merged_within hunfailed ((List.prefix_append _ _).trans hpart) fun hdis =>
      (Channel.sent_of_disconnected hdis).symm.trans (hall hdis.1)
  obtain ⟨s, hs⟩ := hsucceeds.2.2 input merged hinput hmerged
  exact ⟨input, merged, s, hinput, hmerged, Prod.ext rfl hs, (List.prefix_append _ _).trans hmpart,
    fun hdis => (Channel.sent_of_disconnected hdis).symm.trans (hmall hdis.1)⟩

/-- **At any time a part of a possible output has been sent**, and all of it once the last task has
closed its output. -/
theorem Inv.sent_within (h : g.Inv False) (hunfailed : g.Unfailed) (hsucceeds : g.graph.Succeeds) :
    g.Within := by
  induction g with
  | source src drainer wire =>
    refine ⟨src.elements, rfl, ?_⟩
    show wire.channel.sent <+: src.elements ∧ (wire.channel.closed = true → _)
    match drainer, h with
    | .fetching rest, h =>
      exact ⟨⟨rest, h.1⟩, fun hclosed => absurd (hclosed.symm.trans h.2) Bool.noConfusion⟩
    | .sending e rest, h =>
      exact ⟨⟨e :: rest, h.1⟩, fun hclosed => absurd (hclosed.symm.trans h.2) Bool.noConfusion⟩
    | .returned (.ok ()), h =>
      have hall : wire.channel.sent = src.elements := h
      exact ⟨hall ▸ List.prefix_rfl, fun _ => hall⟩
    | .returned (.error f), _ => exact absurd rfl (hunfailed f)
  | apply name upstream op task wire ih =>
    obtain ⟨input, s, hinput, hs, hpart, hall⟩ := (ih h.1 hunfailed.1 hsucceeds.1).apply hsucceeds
    exact ⟨_, ⟨input, s, hinput, hs⟩, h.2.sent_within hunfailed.2.unfailed hpart hall⟩
  | connect name upstream source2 keyFn1 keyFn2 op conn task wire ih =>
    obtain ⟨input, merged, s, hinput, hmerged, hs, hpart, hall⟩ :=
      (ih h.1 hunfailed.1 hsucceeds.1).connect h.2.1 hunfailed.2.1 hsucceeds
    exact ⟨_, ⟨input, merged, s, hinput, hmerged, hs⟩,
      h.2.2.sent_within hunfailed.2.2.unfailed hpart hall⟩

/-! ## No task fails -/

theorem unfailed_start {T : Type} (graph : StreamGraph T) : graph.start.Unfailed := by
  have hdropped : ∀ {U : Type} (graph : StreamGraph U), graph.start.wire.receiverDropped ≠ true := by
    intro U graph
    rw [wire_start]
    exact Bool.noConfusion
  induction graph with
  | source src => exact nofun
  | apply name upstream op ih =>
    exact ⟨ih, nofun, fun hd => absurd hd (hdropped upstream)⟩
  | connect name upstream source2 keyFn1 keyFn2 op ih =>
    exact ⟨ih, ⟨nofun, nofun, nofun, fun hd => absurd hd (hdropped upstream)⟩, nofun, nofun⟩

@[simp] theorem unfailed_setWire (g : RunningGraph T) (w : Wire T) :
    (g.setWire w).Unfailed = g.Unfailed := by
  cases g <;> rfl

theorem Unfailed.handles (h : g.Unfailed) :
    ∀ handle ∈ g.handles, ∀ f, handle.2 ≠ some (.error f) := by
  have htask : ∀ {State In Out : Type} {input : Wire In} {phase : TaskPhase State Out},
      TaskUnfailed input phase → ∀ f, phase.result? ≠ some (.error f) := by
    intro State In Out input phase h f hf
    cases phase with
    | polling s => cases hf
    | calling call => cases hf
    | returned r => exact h.unfailed f (congrArg TaskPhase.returned (Option.some.inj hf))
  have hfeed : ∀ {U : Type} {phase : FeedPhase U}, (∀ f, phase ≠ .returned (.error f)) →
      ∀ f, phase.result? ≠ some (.error f) := by
    intro U phase h f hf
    cases phase with
    | fetching keyFn => cases hf
    | sending e keyFn => cases hf
    | returned r => exact h f (congrArg FeedPhase.returned (Option.some.inj hf))
  induction g with
  | source src drainer wire =>
    intro handle hmem f hf
    obtain rfl := List.mem_singleton.mp hmem
    cases drainer with
    | fetching rest => cases hf
    | sending e rest => cases hf
    | returned r => exact h f (congrArg DrainerPhase.returned (Option.some.inj hf))
  | apply name upstream op task wire ih =>
    simp only [RunningGraph.handles, List.forall_mem_append, List.forall_mem_singleton]
    exact ⟨ih h.1, htask h.2⟩
  | connect name upstream source2 keyFn1 keyFn2 op conn task wire ih =>
    simp only [RunningGraph.handles, List.forall_mem_append, List.forall_mem_cons]
    exact ⟨ih h.1, hfeed h.2.1.input1, hfeed h.2.1.input2, h.2.1.merge, htask h.2.2,
      fun _ hmem => absurd hmem List.not_mem_nil⟩

theorem TaskUnfailed.disconnected {In Out : Type} {op : Operator In Out} {input : Wire In}
    {output : Channel (StreamElement Out)} {phase : TaskPhase op.State Out}
    (hunfailed : TaskUnfailed input phase) (h : TaskFed False op input.channel output phase)
    (hdropped : input.receiverDropped = true) : input.channel.Disconnected := by
  have htask := h.task
  rw [hunfailed.dropped hdropped] at htask
  exact htask.2

theorem accepted_of_room {In Out : Type} {op : Operator In Out} {task : TaskExecutor op.State Out}
    {input : Channel (StreamElement In)} {wire : Wire Out} {cfg : PipelineConfig}
    (h : TaskFed False op input wire.channel task.phase)
    (hlast : wire.receiverDropped = true → wire.channel.Disconnected)
    (hroom : ∀ e next, task.phase = .calling (.emit e next) →
      wire.channel.queue.length < cfg.capacity) : task.Accepted cfg wire := by
  intro e next hphase
  have hopen : wire.channel.closed = false := by
    have htask := h.task
    rw [hphase] at htask
    exact htask.1
  rcases collect_cases cfg wire e with ⟨channel, hcollect, -⟩ | ⟨-, hdropped | hfull⟩
  · rw [hcollect]
  · exact absurd ((hlast hdropped).1.symm.trans hopen) Bool.noConfusion
  · exact absurd (hroom e next hphase) (not_lt.mpr hfull)

/-- A task whose operator does not fail on what it has taken does not fail. -/
theorem TaskUnfailed.step {In Out : Type} {op : Operator In Out} {task : TaskExecutor op.State Out}
    {input : Wire In} {output : Wire Out} (hunfailed : TaskUnfailed input task.phase)
    (h : TaskFed False op input.channel output.channel task.phase)
    (hop : ∀ f, (op.feed input.channel.taken).2 ≠ .error f) (cfg : PipelineConfig) (token : Bool)
    (arm : TaskArm) :
    TaskUnfailed (task.step cfg op token arm input output).2.1
      (task.step cfg op token arm input output).1.phase := by
  obtain ⟨phase, cancelled⟩ := task
  obtain ⟨hphase, hdropped⟩ := hunfailed
  match phase, h.task with
  | .polling s, _ =>
    have hthere : input.receiverDropped ≠ true := fun hd => by cases hdropped hd
    cases arm with
    | cancelled =>
      unfold TaskExecutor.step
      dsimp only
      split_ifs <;> exact ⟨nofun, fun hd => absurd hd hthere⟩
    | recv =>
      unfold TaskExecutor.step
      dsimp only
      cases input.channel.tryRecv with
      | item e channel => exact ⟨nofun, fun hd => absurd hd hthere⟩
      | empty => exact ⟨nofun, fun hd => absurd hd hthere⟩
      | disconnected => exact ⟨nofun, fun _ => rfl⟩
  | .calling (.done (.ok s)), _ => exact ⟨nofun, fun hd => by cases hdropped hd⟩
  | .calling (.done (.error f)), htask => exact absurd htask.feed_error (hop f)
  | .calling (.emit e next), _ => exact ⟨nofun, fun hd => by cases hdropped hd⟩
  | .returned r, _ => cases arm <;> exact ⟨hphase, hdropped⟩

/-- If the `n`-th task from the end is about to call its collector, the channel has room. -/
def HasRoom (cfg : PipelineConfig) {T : Type} : RunningGraph T → ℕ → Prop
  | source _ _ _, _ => True
  | apply _ _ _ task wire, 0 =>
    ∀ e next, task.phase = .calling (.emit e next) → wire.channel.queue.length < cfg.capacity
  | apply _ upstream _ _ _, n + 1 => upstream.HasRoom cfg n
  | connect _ _ _ _ _ _ _ task wire, 0 =>
    ∀ e next, task.phase = .calling (.emit e next) → wire.channel.queue.length < cfg.capacity
  | connect _ _ _ _ _ _ _ _ _, 1 => True
  | connect _ _ _ _ _ _ _ _ _, 2 => True
  | connect _ _ _ _ _ _ _ _ _, 3 => True
  | connect _ upstream _ _ _ _ _ _ _, n + 4 => upstream.HasRoom cfg n

theorem accepted_of_hasRoom {n : ℕ} (h : g.Inv False) (hunfailed : g.Unfailed)
    (hlast : g.wire.receiverDropped = true → g.wire.channel.Disconnected) {cfg : PipelineConfig}
    (hroom : g.HasRoom cfg n) : g.Accepted cfg n := by
  induction g generalizing n with
  | source src drainer wire => trivial
  | apply name upstream op task wire ih =>
    cases n with
    | zero => exact accepted_of_room h.2 hlast hroom
    | succ n => exact ih h.1 hunfailed.1 (hunfailed.2.disconnected h.2) hroom
  | connect name upstream source2 keyFn1 keyFn2 op conn task wire ih =>
    match n with
    | 0 => exact accepted_of_room h.2.2 hlast hroom
    | 1 | 2 | 3 => trivial
    | n + 4 => exact ih h.1 hunfailed.1 (hunfailed.2.1.disconnected h.2.1) hroom

/-- **A step with room keeps the tasks from failing.** -/
theorem Unfailed.step {n : ℕ} (hunfailed : g.Unfailed) (h : g.Inv False)
    (hlast : g.wire.receiverDropped = true → g.wire.channel.Disconnected)
    (hsucceeds : g.graph.Succeeds) {cfg : PipelineConfig} (token : Bool) (arm : TaskArm)
    (preferred : MergeInput) : (g.step cfg token arm preferred n).Unfailed := by
  induction g generalizing n with
  | source src drainer wire =>
    cases n with
    | zero => exact Pipeline.unfailed_drainerStep hunfailed h hlast hsucceeds _
    | succ n => exact hunfailed
  | apply name upstream op task wire ih =>
    obtain ⟨hup, htask⟩ := hunfailed
    cases n with
    | zero =>
      -- the operator would fail on an output of those before it
      obtain ⟨input, s, -, hs, hpart, -⟩ := (h.1.sent_within hup hsucceeds.1).apply hsucceeds
      refine ⟨(unfailed_setWire _ _).symm ▸ hup, ?_⟩
      rw [wire_setWire]
      exact htask.step h.2 (Operator.feed_ne_error hpart (congrArg Prod.snd hs)) cfg token arm
    | succ n =>
      refine ⟨ih hup h.1 (htask.disconnected h.2) hsucceeds.1, htask.unfailed, fun hd => ?_⟩
      exact htask.dropped ((receiver_step cfg token arm preferred upstream n).2.symm.trans hd)
  | connect name upstream source2 keyFn1 keyFn2 op conn task wire ih =>
    obtain ⟨hup, hconn, htask⟩ := hunfailed
    obtain ⟨hinv, hok, hfed⟩ := h
    match n with
    | 0 =>
      -- the operator would fail on a merge
      obtain ⟨input, merged, s, -, -, hs, hpart, -⟩ :=
        (hinv.sent_within hup hsucceeds.1).connect hok hconn hsucceeds
      exact ⟨hup, ⟨hconn.input1, hconn.input2, hconn.merge, hconn.dropped⟩,
        htask.step hfed (Operator.feed_ne_error hpart (congrArg Prod.snd hs)) cfg token arm⟩
    | 1 =>
      obtain ⟨hstepped, hsame⟩ :=
        hconn.stepMerge hok (htask.disconnected hfed) cfg.channelBufferSize.val preferred
      exact ⟨hup, hstepped, htask.unfailed, fun hd => htask.dropped (hsame.symm.trans hd)⟩
    | 2 =>
      have hmerged : (conn.stepInput2 cfg.channelBufferSize.val source2).merged = conn.merged := by
        have hcases := conn.input2_cases cfg.channelBufferSize.val source2
        generalize conn.stepInput2 cfg.channelBufferSize.val source2 = conn' at hcases
        cases hcases <;> rfl
      refine ⟨hup, hconn.stepInput2 hok hsucceeds.2.1 _, ?_⟩
      show TaskUnfailed (conn.stepInput2 cfg.channelBufferSize.val source2).merged _
      rw [hmerged]
      exact htask
    | 3 =>
      have hmerged : (conn.stepInput1 cfg.channelBufferSize.val upstream.wire).2.merged =
          conn.merged := by
        have hcases := conn.input1_cases cfg.channelBufferSize.val upstream.wire
        generalize conn.stepInput1 cfg.channelBufferSize.val upstream.wire = stepped at hcases
        cases hcases <;> rfl
      refine ⟨(unfailed_setWire _ _).symm ▸ hup, ?_, ?_⟩
      · rw [wire_setWire]
        exact hconn.stepInput1 hok _
      · show TaskUnfailed (conn.stepInput1 cfg.channelBufferSize.val upstream.wire).2.merged _
        rw [hmerged]
        exact htask
    | n + 4 =>
      refine ⟨ih hup hinv (hconn.disconnected hok) hsucceeds.1,
        ⟨hconn.input1, hconn.input2, hconn.merge, fun hd => ?_⟩, htask⟩
      exact hconn.dropped ((receiver_step cfg token arm preferred upstream n).2.symm.trans hd)

/-- There is room if a channel holds all that can be sent on it. -/
theorem hasRoom_of_fits {cfg : PipelineConfig} (h : g.Inv False) (hunfailed : g.Unfailed)
    (hsucceeds : g.graph.Succeeds) (hfits : g.graph.Fits cfg) (n : ℕ) : g.HasRoom cfg n := by
  have hlast : ∀ {In Out : Type} {op : Operator In Out} {input : Channel (StreamElement In)}
      {all : List (StreamElement In)} {out : Channel (StreamElement Out)}
      {phase : TaskPhase op.State Out}, TaskFed False op input out phase → input.taken <+: all →
      (op.feed all).1.length ≤ cfg.capacity →
      ∀ e next, phase = .calling (.emit e next) → out.queue.length < cfg.capacity := by
    intro In Out op input all out phase hfed hpart hfit e next hphase
    have htask := hfed.task
    rw [hphase] at htask
    calc out.queue.length
        ≤ out.sent.length := by
          rw [Channel.sent, List.length_append]
          exact Nat.le_add_left _ _
      _ < (op.feed input.taken).1.length := htask.length_lt
      _ ≤ (op.feed all).1.length := (feed_mono hpart _).length_le
      _ ≤ cfg.capacity := hfit
  induction g generalizing n with
  | source src drainer wire => trivial
  | apply name upstream op task wire ih =>
    cases n with
    | succ n => exact ih h.1 hunfailed.1 hsucceeds.1 hfits.1 n
    | zero =>
      obtain ⟨input, s, hinput, hs, hpart, -⟩ :=
        (h.1.sent_within hunfailed.1 hsucceeds.1).apply hsucceeds
      exact hlast h.2 hpart (hfits.2 _ ⟨input, s, hinput, hs⟩)
  | connect name upstream source2 keyFn1 keyFn2 op conn task wire ih =>
    rcases n with _ | _ | _ | _ | n
    · obtain ⟨input, merged, s, hinput, hmerged, hs, hpart, -⟩ :=
        (h.1.sent_within hunfailed.1 hsucceeds.1).connect h.2.1 hunfailed.2.1 hsucceeds
      exact hlast h.2.2 hpart (hfits.2 _ ⟨input, merged, s, hinput, hmerged, hs⟩)
    · trivial
    · trivial
    · trivial
    · exact ih h.1 hunfailed.1 hsucceeds.1 hfits.1 n

end RunningGraph

/-! ## The whole system -/

namespace GraphRun

variable {T : Type} {sink : Sink T} {graph : StreamGraph T} {s : GraphRun T sink.State}
  {cfg : PipelineConfig}

/-- The collector call of a step, if there is one, finds room. -/
def HasRoom (cfg : PipelineConfig) {State : Type} (s : GraphRun T State) : GraphEvent → Prop
  | .task n _ _ => s.graph.HasRoom cfg n
  | .sink => True
  | .cancel => True

/-- No task has failed, and neither has `add_sink`. -/
def NoFailure {State : Type} (s : GraphRun T State) : Prop :=
  (∀ handle ∈ s.graph.handles, ∀ f, handle.2 ≠ some (.error f)) ∧
    ∀ f, s.sinkTask.phase ≠ .returned (.error f)

/-- Nothing has failed, and `add_sink` still listens. -/
structure Healthy (graph : StreamGraph T) {State : Type} (s : GraphRun T State) : Prop where
  inv : s.Inv False graph
  unfailed : s.graph.Unfailed
  listens : s.graph.wire.receiverDropped = false
  phase : ∀ f, s.sinkTask.phase ≠ .returned (.error f)

theorem healthy_init (graph : StreamGraph T) (sink : Sink T) : (init graph sink).Healthy graph where
  inv := inv_init False graph sink
  unfailed := RunningGraph.unfailed_start graph
  listens := by
    show graph.start.wire.receiverDropped = false
    rw [RunningGraph.wire_start]
  phase := nofun

theorem Healthy.noFailure (h : s.Healthy graph) : s.NoFailure := ⟨h.unfailed.handles, h.phase⟩

theorem Healthy.hasRoom_of_fits (h : s.Healthy graph) (hsucceeds : graph.Succeeds)
    (hfits : graph.Fits cfg) (e : GraphEvent) : s.HasRoom cfg e := by
  obtain rfl := h.inv.graph_eq
  cases e with
  | task n arm preferred => exact RunningGraph.hasRoom_of_fits h.inv.tasks h.unfailed hsucceeds hfits n
  | sink => trivial
  | cancel => trivial

/-- **A step with room keeps the system healthy.** -/
theorem Healthy.step (h : s.Healthy graph) (hsink : sink.Succeeds) (hsucceeds : graph.Succeeds)
    {e : GraphEvent} (hroom : s.HasRoom cfg e) : (s.step cfg sink e).Healthy graph := by
  cases e with
  | cancel => exact ⟨h.inv.step False.elim cfg .cancel (.inr trivial), h.unfailed, h.listens, h.phase⟩
  | task n arm preferred =>
    have hlast : s.graph.wire.receiverDropped = true → s.graph.wire.channel.Disconnected :=
      fun hd => absurd (h.listens.symm.trans hd) Bool.noConfusion
    have haccepted := RunningGraph.accepted_of_hasRoom h.inv.tasks h.unfailed hlast hroom
    refine ⟨h.inv.step False.elim cfg _ (.inr haccepted), ?_, ?_, h.phase⟩
    · exact h.unfailed.step h.inv.tasks hlast (h.inv.graph_eq.symm ▸ hsucceeds) s.token arm preferred
    · exact (RunningGraph.receiver_step cfg s.token arm preferred s.graph n).2.trans h.listens
  | sink =>
    have hinv := h.inv.step False.elim cfg .sink (.inr trivial)
    have hcases := SinkTask.step_cases s.graph.handles s.sinkTask s.graph.wire
    unfold GraphRun.step at hinv ⊢
    dsimp only at hinv ⊢
    generalize s.sinkTask.step sink s.graph.handles s.graph.wire = stepped at hcases hinv
    have hkeeps : ∀ w : Wire T, w.receiverDropped = s.graph.wire.receiverDropped →
        (s.graph.setWire w).Unfailed ∧ (s.graph.setWire w).wire.receiverDropped = false := by
      intro w hw
      rw [RunningGraph.unfailed_setWire, RunningGraph.wire_setWire]
      exact ⟨h.unfailed, hw.trans h.listens⟩
    cases hcases with
    | idle => exact ⟨hinv, (hkeeps _ rfl).1, (hkeeps _ rfl).2, h.phase⟩
    | absorb e channel sinkState hp hrecv hcall =>
      obtain ⟨hunfailed, hlistens⟩ := hkeeps { s.graph.wire with channel := channel } rfl
      exact ⟨hinv, hunfailed, hlistens, h.phase⟩
    | fail e channel f hp hrecv hcall =>
      obtain ⟨sinkState, hok⟩ := hsink s.sinkTask.sinkState e
      cases hcall.symm.trans hok
    | drained hp hrecv => exact ⟨hinv, (hkeeps _ rfl).1, (hkeeps _ rfl).2, nofun⟩
    | joined r hp hwait =>
      refine ⟨hinv, (hkeeps _ rfl).1, (hkeeps _ rfl).2, fun f hf => ?_⟩
      cases r with
      | ok u => cases hf
      | error e => exact waitAllFrom_ne_error h.unfailed.handles e hwait

theorem healthy_after (hsucceeds : graph.Succeeds) (hsink : sink.Succeeds) {es : ℕ → GraphEvent}
    (hroom : graph.Fits cfg ∨
      ∀ n, (run cfg graph sink ((List.range n).map es)).HasRoom cfg (es n)) (n : ℕ) :
    (run cfg graph sink ((List.range n).map es)).Healthy graph := by
  induction n with
  | zero => exact healthy_init graph sink
  | succ n ih =>
    have hnext : run cfg graph sink ((List.range (n + 1)).map es) =
        (run cfg graph sink ((List.range n).map es)).step cfg sink (es n) := Runs.after_succ n
    rw [hnext]
    exact ih.step hsink hsucceeds
      (hroom.elim (fun hfits => ih.hasRoom_of_fits hsucceeds hfits _) fun h => h n)

end GraphRun

/-- **A graph that does not fail by itself succeeds**, if collector calls find room and the sink and
every task are polled again and again. -/
theorem graph_succeeds {T : Type} (cfg : PipelineConfig) (graph : StreamGraph T) (sink : Sink T)
    (hsucceeds : graph.Succeeds) (hsinkOk : sink.Succeeds) (es : ℕ → GraphEvent)
    (hroom : graph.Fits cfg ∨
      ∀ n, (GraphRun.run cfg graph sink ((List.range n).map es)).HasRoom cfg (es n)) :
    (∀ n, (GraphRun.run cfg graph sink ((List.range n).map es)).NoFailure) ∧
      ((∀ n, ∃ m, n ≤ m ∧ es m = .sink) →
        (∀ k n, ∃ m, n ≤ m ∧ ∃ preferred, es m = .task k .recv preferred) →
        ∃ N, ∀ n, N ≤ n → (GraphRun.run cfg graph sink ((List.range n).map es)).ReturnsOk ∧
          ∃ out, graph.Outputs out ∧
            (GraphRun.run cfg graph sink ((List.range n).map es)).sinkTask.written =
              out.filterMap StreamElement.record?) := by
  have hhealthy := GraphRun.healthy_after hsucceeds hsinkOk hroom
  refine ⟨fun n => (hhealthy n).noFailure, fun hsink htasks => ?_⟩
  obtain ⟨N, r, hr⟩ := GraphRun.returned_of_fair cfg graph sink hsink htasks
  refine ⟨N, fun n hn => ?_⟩
  have hok : (GraphRun.run cfg graph sink ((List.range n).map es)).ReturnsOk := by
    match r, hr n hn with
    | .ok (), hreturned => exact hreturned
    | .error f, hreturned => exact absurd hreturned ((hhealthy n).phase f)
  exact ⟨hok, _, (hhealthy n).inv.outputs hok, (GraphRun.written_of_returnsOk hok).written⟩

theorem map_process {In Out FnState : Type} (initial : FnState) (f : FnState → In → Out × FnState)
    (s : FnState) (e : StreamElement In) :
    (∃ s', ((MapOperator initial f).process s e).result = .ok s') ∧
      ((MapOperator initial f).process s e).emissions.length ≤ 1 := by
  cases e <;> exact ⟨⟨_, rfl⟩, le_rfl⟩

theorem connectedGraph_fits : connectedGraph.Fits ⟨.mpsc, 3, by decide⟩ := by
  refine ⟨trivial, ?_⟩
  rintro out ⟨input, merged, s, rfl, hmerged, hs⟩
  calc out.length
      = ((MapOperator () fun s v => (v, s)).feed merged).1.length := by rw [hs]
    _ ≤ 1 * merged.length := length_feed_le (fun s e => (map_process () _ s e).2) () merged
    _ ≤ 3 := (one_mul _).le.trans hmerged.length_le

theorem connectedGraph_succeeds :
    let s := fun n => GraphRun.run ⟨.mpsc, 3, by decide⟩ connectedGraph
      (CollectSink (Either ℕ String)) ((List.range n).map inTurn)
    (∀ n, (s n).NoFailure) ∧ ∃ N, ∀ n, N ≤ n → (s n).ReturnsOk ∧
      ∃ out, connectedGraph.Outputs out ∧
        (s n).sinkTask.written = out.filterMap StreamElement.record? := by
  obtain ⟨hnone, hreturns⟩ := graph_succeeds ⟨.mpsc, 3, by decide⟩ connectedGraph
    (CollectSink (Either ℕ String))
    ⟨rfl, rfl, fun _ merged _ _ => exists_feed_ok (fun s e => (map_process _ _ s e).1) _ merged⟩
    (collectSink_succeeds _) inTurn (.inl connectedGraph_fits)
  exact ⟨hnone, hreturns inTurn_sink inTurn_task⟩

end Flume
