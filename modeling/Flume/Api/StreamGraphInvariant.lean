import Flume.Api.StreamGraph
import Flume.Runtime.MergeAligned

/-!
# What the tasks of a graph have sent

The output of a graph is a relation: a merger may interleave its inputs in many ways. Every channel
has been sent what its task makes of the elements it has taken; for a merger this is said by a run
of `TwoInputMerge`, whose channels have no bound and whose rounds do not wait.

* `StreamGraph.Outputs`: the possible outputs;
* `Feeds`, `MergerOk`, `Connection.Ok`: what the three tasks of a connection have sent;
  **`MergerOk.stepMerge`**: the bounded merger takes the steps of the unbounded one;
* `TaskFed`, `TaskFed.step`: an operator; `RunningGraph.Inv`, **`RunningGraph.Inv.step`**: all
  tasks;
* **`RunningGraph.Inv.outputs`**: if all tasks have returned `Ok`, an output of the graph was sent.
-/

namespace Flume

open Channels Emitters

/-! ## The output of a graph -/

namespace StreamGraph

/-- The possible outputs: operators are composed, and inputs merged, one after the other. -/
def Outputs {T : Type} : StreamGraph T → List (StreamElement T) → Prop
  | source src, out => out = src.elements
  | apply _ upstream op, out => ∃ input s, upstream.Outputs input ∧ op.feed input = (out, .ok s)
  | connect _ upstream source2 keyFn1 keyFn2 op, out => ∃ input merged s, upstream.Outputs input ∧
      Merges (keyed keyFn1 input).1 (keyed keyFn2 source2.elements).1 merged ∧
      op.feed merged = (out, .ok s)

/-- All operators are deterministic. -/
def Deterministic {T : Type} : StreamGraph T → Prop
  | source _ => True
  | apply _ upstream op => upstream.Deterministic ∧ op.Deterministic
  | connect _ upstream _ _ _ op => upstream.Deterministic ∧ op.Deterministic

end StreamGraph

/-! ## The feeding tasks -/

section Feeds

variable {T : Type} {keyFn₀ : Option (KeyExtractor T)} {seen seen' : List (StreamElement T)}
  {channel channel' : Channel (StreamElement T)} {ended ended' : Prop} {phase : FeedPhase T}

theorem keyed_concat (keyFn : Option (KeyExtractor T)) (es : List (StreamElement T))
    (e : StreamElement T) : keyed keyFn (es ++ [e]) =
      ((keyed keyFn es).1 ++ [(applyKeyFn (keyed keyFn es).2 e).1],
        (applyKeyFn (keyed keyFn es).2 e).2) := by
  induction es generalizing keyFn with
  | nil => rfl
  | cons e' es ih =>
    rw [List.cons_append, keyed, ih]
    rfl

/-- What a feeding task has sent of the elements it has seen, in each of its phases. -/
def Feeds (keyFn₀ : Option (KeyExtractor T)) (seen : List (StreamElement T))
    (channel : Channel (StreamElement T)) (ended : Prop) : FeedPhase T → Prop
  | .fetching keyFn => keyed keyFn₀ seen = (channel.sent, keyFn) ∧ channel.closed = false
  | .sending e keyFn => keyed keyFn₀ seen = (channel.sent ++ [e], keyFn) ∧ channel.closed = false
  | .returned (.ok ()) => (keyed keyFn₀ seen).1 = channel.sent ∧ ended ∧ channel.closed = true
  | .returned (.error _) => channel.closed = true

theorem Feeds.frame (h : Feeds keyFn₀ seen channel ended phase) (hsent : channel'.sent = channel.sent)
    (hclosed : channel'.closed = channel.closed) (hended : ended → ended') :
    Feeds keyFn₀ seen channel' ended' phase := by
  match phase, h with
  | .fetching keyFn, h => exact ⟨hsent ▸ h.1, hclosed.trans h.2⟩
  | .sending e keyFn, h => exact ⟨hsent ▸ h.1, hclosed.trans h.2⟩
  | .returned (.ok ()), h => exact ⟨h.1.trans hsent.symm, hended h.2.1, hclosed.trans h.2.2⟩
  | .returned (.error f), h => exact hclosed.trans h

theorem Feeds.fetch {keyFn : Option (KeyExtractor T)}
    (h : Feeds keyFn₀ seen channel ended (.fetching keyFn)) (e : StreamElement T) :
    Feeds keyFn₀ (seen ++ [e]) channel ended'
      (.sending (applyKeyFn keyFn e).1 (applyKeyFn keyFn e).2) := by
  refine ⟨?_, h.2⟩
  rw [keyed_concat, h.1]

theorem Feeds.send {keyFn : Option (KeyExtractor T)} {e : StreamElement T}
    (h : Feeds keyFn₀ seen channel ended (.sending e keyFn)) :
    Feeds keyFn₀ seen (channel.send e) ended (.fetching keyFn) := by
  refine ⟨?_, ?_⟩
  · rw [Channel.sent_send h.2, h.1]
  · unfold Channel.send
    split_ifs <;> exact h.2

theorem Feeds.finish {keyFn : Option (KeyExtractor T)}
    (h : Feeds keyFn₀ seen channel ended (.fetching keyFn)) (hended : ended')
    (r : Except TaskFailure Unit) : Feeds keyFn₀ seen channel.close ended' (.returned r) := by
  match r with
  | .ok () => exact ⟨congrArg Prod.fst h.1, hended, rfl⟩
  | .error f => rfl

end Feeds

/-! ## The merger -/

section Merger

variable {In1 In2 : Type}

/-- The merger takes the steps of the unbounded one; what it has computed is sent or still unsent,
and it has returned `Ok` only if the unbounded one has. -/
structure MergerOk (c : Connection In1 In2) : Prop where
  runs : ∃ es, c.merger = TwoInputMerge.run es
  notDropped : c.merger.outputDropped = false
  sent : c.merger.output = c.merged.channel.sent ++ c.unsent
  running : c.mergeResult = none → c.merger.result = none ∧ c.merged.channel.closed = false
  finished : ∀ r, c.mergeResult = some r → c.merged.channel.closed = true
  complete : c.mergeResult = some (.ok ()) → c.merger.result = some (.ok ()) ∧ c.unsent = []

variable {c : Connection In1 In2}

theorem MergerOk.aligned (h : MergerOk c) : TwoInputMerge.Aligned c.merger := by
  obtain ⟨es, hes⟩ := h.runs
  rw [hes]
  refine (TwoInputMerge.aligned_run es).resolve_left fun hf => ?_
  have hdropped := h.notDropped
  rw [hes, hf.2] at hdropped
  cases hdropped

theorem runs_step {s : TwoInputMerge In1 In2} (h : ∃ es, s = TwoInputMerge.run es)
    (ev : MergeEvent In1 In2) : ∃ es, s.step ev = TwoInputMerge.run es := by
  obtain ⟨es, rfl⟩ := h
  exact ⟨es ++ [ev], (Runs.exec_concat es ev).symm⟩

theorem MergerOk.feed (h : MergerOk c) {c' : Connection In1 In2} (ev : MergeEvent In1 In2)
    (hmerger : c'.merger = c.merger.step ev) (hframe : c'.unsent = c.unsent ∧
      c'.mergeResult = c.mergeResult ∧ c'.merged = c.merged)
    (hev : ∀ s : TwoInputMerge In1 In2, (s.step ev).output = s.output ∧
      (s.step ev).result = s.result ∧ (s.step ev).outputDropped = s.outputDropped) :
    MergerOk c' := by
  obtain ⟨hunsent, hresult, hmerged⟩ := hframe
  obtain ⟨houtput, hres, hdropped⟩ := hev c.merger
  rw [← hmerger] at houtput hres hdropped
  refine ⟨hmerger ▸ runs_step h.runs ev, hdropped.trans h.notDropped, ?_, ?_, ?_, ?_⟩
  · rw [houtput, hmerged, hunsent]
    exact h.sent
  · rw [hresult, hres, hmerged]
    exact h.running
  · rw [hresult, hmerged]
    exact h.finished
  · rw [hresult, hres, hunsent]
    exact h.complete

theorem MergerOk.fetch (h : MergerOk c) (input1 : FeedPhase In1) (input2 : FeedPhase In2)
    (rest2 : List (StreamElement In2)) :
    MergerOk { c with input1 := input1, input2 := input2, rest2 := rest2 } :=
  ⟨h.runs, h.notDropped, h.sent, h.running, h.finished, h.complete⟩

theorem MergerOk.setMerged (h : MergerOk c) {w : Wire (Either In1 In2)}
    (hsent : w.channel.sent = c.merged.channel.sent)
    (hclosed : w.channel.closed = c.merged.channel.closed) :
    MergerOk { c with merged := w } := by
  refine ⟨h.runs, h.notDropped, ?_, ?_, ?_, h.complete⟩
  · show c.merger.output = w.channel.sent ++ c.unsent
    rw [hsent]
    exact h.sent
  · show c.mergeResult = none → c.merger.result = none ∧ w.channel.closed = false
    rw [hclosed]
    exact h.running
  · show ∀ r, c.mergeResult = some r → w.channel.closed = true
    rw [hclosed]
    exact h.finished

theorem MergerOk.polled (h : MergerOk c) (hunsent : c.unsent = []) (preferred : MergeInput) :
    (c.polled preferred).merger.output =
      c.merged.channel.sent ++ (c.polled preferred).unsent := by
  obtain ⟨new, hnew⟩ := (c.merger.poll_frame preferred).2.2.2
  have hsent : c.merged.channel.sent = c.merger.output := by
    rw [h.sent, hunsent, List.append_nil]
  show (c.merger.poll preferred).output =
    c.merged.channel.sent ++ (c.merger.poll preferred).output.drop c.merger.output.length
  rw [← hnew, List.drop_left, hsent]

theorem output_of_finished (h : MergerOk c) (hresult : c.mergeResult = none)
    {preferred : MergeInput} {r : Except FlumeError Unit}
    (hpoll : (c.merger.poll preferred).result = some r) :
    r = .ok () ∧ (c.merger.poll preferred).output = c.merger.output := by
  have hres := (h.running hresult).1
  have hcases := TwoInputMerge.poll_cases preferred hres h.aligned.buffer h.aligned.onePending
  generalize c.merger.poll preferred = s' at hcases hpoll
  cases hcases with
  | wait i hw => cases hres.symm.trans hpoll
  | finish hclosed => exact ⟨(Option.some.inj hpoll).symm, rfl⟩
  | failed _ herr hdrop hdrop' => rw [h.notDropped] at hdrop; cases hdrop
  | take i e s₁ _ hpending ht hh =>
    have hs₁ : s₁.result = none := by cases ht <;> exact hres
    cases hh with
    | record r => cases hs₁.symm.trans hpoll
    | watermark w =>
      have hkept := (TwoInputMerge.advance_frame s₁ i w.timestamp).2.2.2
      cases (hkept.trans hs₁).symm.trans hpoll
    | barrier b hother => simp [TwoInputMerge.setPending, hs₁] at hpoll
    | matched b b' hother => simp [TwoInputMerge.setPending, TwoInputMerge.emit, hs₁] at hpoll
  | close i hopen hd hother => simp [TwoInputMerge.setClosed, hres] at hpoll
  | closeFlush i b hd hpending hother =>
    simp [TwoInputMerge.setClosed, TwoInputMerge.setPending, TwoInputMerge.emit, hres] at hpoll

/-- **The bounded merger takes the steps of the unbounded one.** -/
theorem MergerOk.stepMerge (h : MergerOk c) (bufferSize : ℕ) (preferred : MergeInput) :
    MergerOk (c.stepMerge bufferSize preferred) := by
  have hcases := c.merge_cases bufferSize preferred
  generalize c.stepMerge bufferSize preferred = c' at hcases
  have hpolled : ∃ es, (c.polled preferred).merger = TwoInputMerge.run es :=
    runs_step h.runs (.poll preferred)
  have hdropped : (c.polled preferred).merger.outputDropped = false :=
    (c.merger.poll_frame preferred).2.2.1.trans h.notDropped
  cases hcases with
  | idle => exact h
  | send e rest channel hresult hunsent hsend =>
    refine ⟨h.runs, h.notDropped, ?_, fun _ => ⟨(h.running hresult).1, ?_⟩, fun r hr => ?_,
      fun hr => ?_⟩
    · show c.merger.output = channel.sent ++ rest
      rw [Channel.sent_trySend hsend, List.append_assoc, List.singleton_append, ← hunsent]
      exact h.sent
    · exact (Channel.closed_trySend hsend).trans (h.running hresult).2
    · cases hresult.symm.trans hr
    · cases hresult.symm.trans hr
  | fail e rest hresult hunsent =>
    exact ⟨h.runs, h.notDropped, h.sent, (fun hr => nomatch hr), fun _ _ => rfl, (fun hr => nomatch hr)⟩
  | poll hresult hunsent hpoll =>
    refine ⟨hpolled, hdropped, h.polled hunsent preferred,
      fun _ => ⟨hpoll, (h.running hresult).2⟩, fun r hr => ?_, fun hr => ?_⟩
    · cases hresult.symm.trans hr
    · cases hresult.symm.trans hr
  | finish r hresult hunsent hpoll =>
    obtain ⟨rfl, hsame⟩ := output_of_finished h hresult hpoll
    refine ⟨hpolled, hdropped, h.polled hunsent preferred, (fun hr => nomatch hr), fun _ _ => rfl,
      fun _ => ⟨hpoll, ?_⟩⟩
    show (c.merger.poll preferred).output.drop c.merger.output.length = []
    rw [hsame, List.drop_length]

end Merger

/-! ## The tasks of a connection -/

namespace Connection

variable {In1 In2 : Type} {source2 : Source In2} {keyFn1 : Option (KeyExtractor In1)}
  {keyFn2 : Option (KeyExtractor In2)} {upstream upstream' : Channel (StreamElement In1)}
  {c : Connection In1 In2}

/-- What the tasks of a connection have sent. -/
structure Ok (source2 : Source In2) (keyFn1 : Option (KeyExtractor In1))
    (keyFn2 : Option (KeyExtractor In2)) (upstream : Channel (StreamElement In1))
    (c : Connection In1 In2) : Prop where
  merger : MergerOk c
  feeds1 : Feeds keyFn1 upstream.taken c.merger.input1 upstream.Disconnected c.input1
  feeds2 : ∃ seen, source2.elements = seen ++ c.rest2 ∧
    Feeds keyFn2 seen c.merger.input2 (c.rest2 = []) c.input2

theorem ok_new (source2 : Source In2) (keyFn1 : Option (KeyExtractor In1))
    (keyFn2 : Option (KeyExtractor In2)) :
    Ok source2 keyFn1 keyFn2 {} (.new source2 keyFn1 keyFn2) where
  merger := ⟨⟨[], rfl⟩, rfl, rfl, fun _ => ⟨rfl, rfl⟩, (fun _ hr => nomatch hr),
    (fun hr => nomatch hr)⟩
  feeds1 := ⟨rfl, rfl⟩
  feeds2 := ⟨[], rfl, rfl, rfl⟩

theorem Ok.setUpstream (h : Ok source2 keyFn1 keyFn2 upstream c)
    (htaken : upstream'.taken = upstream.taken)
    (hdis : upstream.Disconnected → upstream'.Disconnected) :
    Ok source2 keyFn1 keyFn2 upstream' c where
  merger := h.merger
  feeds1 := htaken ▸ h.feeds1.frame rfl rfl hdis
  feeds2 := h.feeds2

theorem Ok.setMerged (h : Ok source2 keyFn1 keyFn2 upstream c) {w : Wire (Either In1 In2)}
    (hsent : w.channel.sent = c.merged.channel.sent)
    (hclosed : w.channel.closed = c.merged.channel.closed) :
    Ok source2 keyFn1 keyFn2 upstream { c with merged := w } where
  merger := h.merger.setMerged hsent hclosed
  feeds1 := h.feeds1
  feeds2 := h.feeds2

/-- Every step of `connected-input1` keeps what was sent, and sends nothing upstream. -/
theorem Ok.stepInput1 {upstream : Wire In1} (h : Ok source2 keyFn1 keyFn2 upstream.channel c)
    (bufferSize : ℕ) :
    Ok source2 keyFn1 keyFn2 (c.stepInput1 bufferSize upstream).1.channel
        (c.stepInput1 bufferSize upstream).2 ∧
      (c.stepInput1 bufferSize upstream).1.channel.sent = upstream.channel.sent ∧
      (c.stepInput1 bufferSize upstream).1.channel.closed = upstream.channel.closed := by
  have hcases := c.input1_cases bufferSize upstream
  have hfeeds := h.feeds1
  generalize c.stepInput1 bufferSize upstream = stepped at hcases
  cases hcases with
  | idle => exact ⟨h, rfl, rfl⟩
  | receive keyFn e channel hphase hrecv =>
    obtain ⟨-, htaken, hclosed⟩ := Channel.tryRecv_item hrecv
    rw [hphase] at hfeeds
    refine ⟨⟨h.merger.fetch _ _ _, ?_, h.feeds2⟩, Channel.sent_of_tryRecv hrecv, hclosed⟩
    rw [htaken]
    exact hfeeds.fetch e
  | send keyFn e hphase hroom =>
    rw [hphase] at hfeeds
    exact ⟨⟨h.merger.feed (.send1 e) rfl ⟨rfl, rfl, rfl⟩ fun _ => ⟨rfl, rfl, rfl⟩, hfeeds.send,
      h.feeds2⟩, rfl, rfl⟩
  | finish keyFn hphase hrecv =>
    rw [hphase] at hfeeds
    exact ⟨⟨h.merger.feed .close1 rfl ⟨rfl, rfl, rfl⟩ fun _ => ⟨rfl, rfl, rfl⟩,
      hfeeds.finish (Channel.tryRecv_disconnected hrecv) _, h.feeds2⟩, rfl, rfl⟩
  | fail keyFn e hphase =>
    exact ⟨⟨h.merger.feed .close1 rfl ⟨rfl, rfl, rfl⟩ fun _ => ⟨rfl, rfl, rfl⟩, rfl, h.feeds2⟩, rfl,
      rfl⟩

theorem Ok.stepInput2 (h : Ok source2 keyFn1 keyFn2 upstream c) (bufferSize : ℕ) :
    Ok source2 keyFn1 keyFn2 upstream (c.stepInput2 bufferSize source2) := by
  have hcases := c.input2_cases bufferSize source2
  obtain ⟨seen, hseen, hfeeds⟩ := h.feeds2
  generalize c.stepInput2 bufferSize source2 = stepped at hcases
  cases hcases with
  | idle => exact h
  | fetch keyFn e rest hphase hrest =>
    rw [hphase] at hfeeds
    refine ⟨h.merger.fetch _ _ _, h.feeds1, seen ++ [e], ?_, hfeeds.fetch e⟩
    rw [hseen, hrest, List.append_assoc, List.singleton_append]
  | send keyFn e hphase hroom =>
    rw [hphase] at hfeeds
    exact ⟨h.merger.feed (.send2 e) rfl ⟨rfl, rfl, rfl⟩ fun _ => ⟨rfl, rfl, rfl⟩, h.feeds1, seen,
      hseen, hfeeds.send⟩
  | finish keyFn hphase hrest =>
    rw [hphase] at hfeeds
    exact ⟨h.merger.feed .close2 rfl ⟨rfl, rfl, rfl⟩ fun _ => ⟨rfl, rfl, rfl⟩, h.feeds1, seen,
      hseen, hfeeds.finish hrest _⟩
  | fail keyFn e hphase =>
    exact ⟨h.merger.feed .close2 rfl ⟨rfl, rfl, rfl⟩ fun _ => ⟨rfl, rfl, rfl⟩, h.feeds1, seen,
      hseen, rfl⟩

theorem Ok.stepMerge (h : Ok source2 keyFn1 keyFn2 upstream c) (bufferSize : ℕ)
    (preferred : MergeInput) :
    Ok source2 keyFn1 keyFn2 upstream (c.stepMerge bufferSize preferred) := by
  have hok := h.merger.stepMerge bufferSize preferred
  have hcases := c.merge_cases bufferSize preferred
  obtain ⟨seen, hseen, hfeeds⟩ := h.feeds2
  generalize c.stepMerge bufferSize preferred = c' at hcases hok
  obtain ⟨⟨hsent1, hclosed1⟩, ⟨hsent2, hclosed2⟩, -⟩ := c.merger.poll_frame preferred
  cases hcases with
  | idle => exact h
  | send e rest channel hresult hunsent hsend => exact ⟨hok, h.feeds1, h.feeds2⟩
  | fail e rest hresult hunsent => exact ⟨hok, h.feeds1, h.feeds2⟩
  | poll hresult hunsent hpoll =>
    exact ⟨hok, h.feeds1.frame hsent1 hclosed1 id, seen, hseen, hfeeds.frame hsent2 hclosed2 id⟩
  | finish r hresult hunsent hpoll =>
    exact ⟨hok, h.feeds1.frame hsent1 hclosed1 id, seen, hseen, hfeeds.frame hsent2 hclosed2 id⟩

/-- **When its tasks have returned `Ok`, a connection has merged its inputs.** -/
theorem Ok.merges (h : Ok source2 keyFn1 keyFn2 upstream c)
    (h1 : c.input1.result? = some (.ok ())) (h2 : c.input2.result? = some (.ok ()))
    (hmerge : c.mergeResult = some (.ok ())) :
    upstream.Disconnected ∧ Merges (keyed keyFn1 upstream.taken).1
      (keyed keyFn2 source2.elements).1 c.merged.channel.sent := by
  obtain ⟨input1, input2, rest2, merger, unsent, mergeResult, merged⟩ := c
  obtain ⟨hmerger, hfeeds1, seen, hseen, hfeeds2⟩ := h
  obtain ⟨hresult, hunsent⟩ := hmerger.complete hmerge
  obtain ⟨es, hes⟩ := hmerger.runs
  have hsent := hmerger.sent
  dsimp only at hfeeds1 hfeeds2 hseen hresult hunsent hes hsent h1 h2
  match input1, h1, hfeeds1, input2, h2, hfeeds2 with
  | .returned (.ok ()), _, hfeeds1, .returned (.ok ()), _, hfeeds2 =>
    refine ⟨hfeeds1.2.1, es, ?_, ?_, ?_, ?_⟩
    · rw [← hes]
      exact hfeeds1.1.symm
    · rw [← hes, hseen, hfeeds2.2.1, List.append_nil]
      exact hfeeds2.1.symm
    · rw [← hes]
      exact hresult
    · rw [← hes, hsent, hunsent, List.append_nil]

end Connection

/-! ## The operators -/

/-- What a task has sent; if it has returned `Ok`, none of its calls has failed. -/
structure TaskFed (refusing : Prop) {In Out : Type} (op : Operator In Out)
    (input : Channel (StreamElement In)) (output : Channel (StreamElement Out))
    (phase : TaskPhase op.State Out) : Prop where
  task : TaskOk refusing op input output phase
  fed : phase = .returned (.ok ()) → ∃ s, op.feed input.taken = (output.sent, .ok s)

section TaskFed

variable {refusing : Prop} {In Out : Type} {op : Operator In Out}

theorem taskFed_new (refusing : Prop) (op : Operator In Out) :
    TaskFed refusing op {} {} (TaskExecutor.new op).phase :=
  ⟨⟨rfl, rfl⟩, nofun⟩

theorem TaskFed.frame {input input' : Channel (StreamElement In)}
    {output output' : Channel (StreamElement Out)} {phase : TaskPhase op.State Out}
    (h : TaskFed refusing op input output phase) (htaken : input'.taken = input.taken)
    (hdis : input.Disconnected → input'.Disconnected) (hsent : output'.sent = output.sent)
    (hclosed : output'.closed = output.closed) : TaskFed refusing op input' output' phase where
  task := h.task.frame htaken hdis hsent hclosed
  fed hphase := by
    rw [htaken, hsent]
    exact h.fed hphase

/-- **Every step of the hot loop keeps what the task has sent.** -/
theorem TaskFed.step (hdet : refusing → op.Deterministic) (cfg : PipelineConfig) (token : Bool)
    (arm : TaskArm) {task : TaskExecutor op.State Out} {input : Wire In} {output : Wire Out}
    (h : TaskFed refusing op input.channel output.channel task.phase)
    (haccepted : refusing ∨ task.Accepted cfg output) :
    TaskFed refusing op (task.step cfg op token arm input output).2.1.channel
        (task.step cfg op token arm input output).2.2.channel
        (task.step cfg op token arm input output).1.phase ∧
      (task.step cfg op token arm input output).2.1.channel.sent = input.channel.sent ∧
      (task.step cfg op token arm input output).2.1.channel.closed = input.channel.closed := by
  obtain ⟨htask, hframe⟩ := h.task.step hdet cfg token arm haccepted
  refine ⟨⟨htask, ?_⟩, hframe⟩
  obtain ⟨phase, cancelled⟩ := task
  match phase, h with
  | .polling s, h =>
    cases arm with
    | recv =>
      unfold TaskExecutor.step
      dsimp only
      cases hrecv : input.channel.tryRecv with
      | item e channel => nofun
      | empty => nofun
      | disconnected => exact fun _ => ⟨s, h.task.1⟩
    | cancelled =>
      unfold TaskExecutor.step
      dsimp only
      split_ifs <;> nofun
  | .calling (.done (.ok s)), _ => nofun
  | .calling (.done (.error f)), _ => nofun
  | .calling (.emit e next), _ =>
    unfold TaskExecutor.step
    dsimp only
    nofun
  | .returned r, h => cases arm <;> exact h.fed

end TaskFed

/-! ## All tasks -/

namespace RunningGraph

/-- The graph that is running. -/
def graph {T : Type} : RunningGraph T → StreamGraph T
  | source src _ _ => .source src
  | apply name upstream op _ _ => .apply name upstream.graph op
  | connect name upstream source2 keyFn1 keyFn2 op _ _ _ =>
    .connect name upstream.graph source2 keyFn1 keyFn2 op

/-- Every task has sent what it makes of the elements it has taken. -/
def Inv (refusing : Prop) {T : Type} : RunningGraph T → Prop
  | source src drainer wire => DrainerOk src wire.channel drainer
  | apply _ upstream op task wire =>
    upstream.Inv refusing ∧ TaskFed refusing op upstream.wire.channel wire.channel task.phase
  | connect _ upstream source2 keyFn1 keyFn2 op conn task wire =>
    upstream.Inv refusing ∧ conn.Ok source2 keyFn1 keyFn2 upstream.wire.channel ∧
      TaskFed refusing op conn.merged.channel wire.channel task.phase

/-- If the `n`-th task from the end is about to call its collector, the call succeeds. -/
def Accepted (cfg : PipelineConfig) {T : Type} : RunningGraph T → ℕ → Prop
  | source _ _ _, _ => True
  | apply _ _ _ task wire, 0 => task.Accepted cfg wire
  | apply _ upstream _ _ _, n + 1 => upstream.Accepted cfg n
  | connect _ _ _ _ _ _ _ task wire, 0 => task.Accepted cfg wire
  | connect _ _ _ _ _ _ _ _ _, 1 => True
  | connect _ _ _ _ _ _ _ _ _, 2 => True
  | connect _ _ _ _ _ _ _ _ _, 3 => True
  | connect _ upstream _ _ _ _ _ _ _, n + 4 => upstream.Accepted cfg n

variable {refusing : Prop} {T : Type} {g : RunningGraph T}

@[simp] theorem wire_setWire (g : RunningGraph T) (w : Wire T) : (g.setWire w).wire = w := by
  cases g <;> rfl

@[simp] theorem graph_setWire (g : RunningGraph T) (w : Wire T) : (g.setWire w).graph = g.graph := by
  cases g <;> rfl

theorem wire_start (graph : StreamGraph T) : graph.start.wire = {} := by
  cases graph <;> rfl

theorem graph_start (graph : StreamGraph T) : graph.start.graph = graph := by
  induction graph with
  | source src => rfl
  | apply name upstream op ih => exact congrArg (StreamGraph.apply name · op) ih
  | connect name upstream source2 keyFn1 keyFn2 op ih =>
    exact congrArg (StreamGraph.connect name · source2 keyFn1 keyFn2 op) ih

theorem inv_start (refusing : Prop) (graph : StreamGraph T) : graph.start.Inv refusing := by
  induction graph with
  | source src => exact ⟨List.nil_append _, rfl⟩
  | apply name upstream op ih =>
    refine ⟨ih, ?_⟩
    show TaskFed refusing op upstream.start.wire.channel _ _
    rw [wire_start]
    exact taskFed_new refusing op
  | connect name upstream source2 keyFn1 keyFn2 op ih =>
    refine ⟨ih, ?_, taskFed_new refusing op⟩
    rw [wire_start]
    exact Connection.ok_new source2 keyFn1 keyFn2

theorem graph_step (cfg : PipelineConfig) (token : Bool) (arm : TaskArm) (preferred : MergeInput)
    (g : RunningGraph T) (n : ℕ) : (g.step cfg token arm preferred n).graph = g.graph := by
  induction g generalizing n with
  | source src drainer wire => cases n <;> rfl
  | apply name upstream op task wire ih =>
    cases n with
    | zero => exact congrArg (StreamGraph.apply name · op) (graph_setWire _ _)
    | succ n => exact congrArg (StreamGraph.apply name · op) (ih n)
  | connect name upstream source2 keyFn1 keyFn2 op conn task wire ih =>
    match n with
    | 0 | 1 | 2 => rfl
    | 3 => exact congrArg (StreamGraph.connect name · source2 keyFn1 keyFn2 op) (graph_setWire _ _)
    | n + 4 => exact congrArg (StreamGraph.connect name · source2 keyFn1 keyFn2 op) (ih n)

theorem receiver_step (cfg : PipelineConfig) (token : Bool) (arm : TaskArm) (preferred : MergeInput)
    (g : RunningGraph T) (n : ℕ) :
    (g.step cfg token arm preferred n).wire.channel.taken = g.wire.channel.taken ∧
      (g.step cfg token arm preferred n).wire.receiverDropped = g.wire.receiverDropped := by
  cases g with
  | source src drainer wire =>
    cases n with
    | zero => exact Pipeline.receiver_step cfg token arm (.source src drainer wire) 0
    | succ n => exact ⟨rfl, rfl⟩
  | apply name upstream op task wire =>
    cases n with
    | zero => exact TaskExecutor.receiver_step cfg op token arm task upstream.wire wire
    | succ n => exact ⟨rfl, rfl⟩
  | connect name upstream source2 keyFn1 keyFn2 op conn task wire =>
    match n with
    | 0 => exact TaskExecutor.receiver_step cfg op token arm task conn.merged wire
    | 1 | 2 | 3 | _ + 4 => exact ⟨rfl, rfl⟩

theorem Inv.setWire (h : g.Inv refusing) {w : Wire T}
    (hsent : w.channel.sent = g.wire.channel.sent)
    (hclosed : w.channel.closed = g.wire.channel.closed) : (g.setWire w).Inv refusing := by
  cases g with
  | source src drainer wire =>
    have hsource : Pipeline.Inv refusing (.source src drainer wire) := h
    exact hsource.setWire hsent hclosed
  | apply name upstream op task wire => exact ⟨h.1, h.2.frame rfl id hsent hclosed⟩
  | connect name upstream source2 keyFn1 keyFn2 op conn task wire =>
    exact ⟨h.1, h.2.1, h.2.2.frame rfl id hsent hclosed⟩

theorem task_channel_step {In Out : Type} {op : Operator In Out} {task : TaskExecutor op.State Out}
    {input : Wire In} {output : Wire Out}
    (h : TaskFed refusing op input.channel output.channel task.phase)
    (hclosed : output.channel.closed = true) (cfg : PipelineConfig) (token : Bool) (arm : TaskArm) :
    (task.step cfg op token arm input output).2.2.channel = output.channel := by
  have hopen : output.channel.closed ≠ false := by
    rw [hclosed]
    exact Bool.noConfusion
  obtain ⟨phase, cancelled⟩ := task
  match phase, h.task with
  | .polling s, h => exact absurd h.2 hopen
  | .calling call, h => exact absurd h.1 hopen
  | .returned r, _ => cases arm <;> rfl

theorem Inv.disconnected_step (h : g.Inv refusing) (hdis : g.wire.channel.Disconnected)
    (cfg : PipelineConfig) (token : Bool) (arm : TaskArm) (preferred : MergeInput) (n : ℕ) :
    (g.step cfg token arm preferred n).wire.channel.Disconnected := by
  cases g with
  | source src drainer wire =>
    cases n with
    | zero =>
      have hsource : Pipeline.Inv refusing (.source src drainer wire) := h
      exact hsource.disconnected_step hdis cfg token arm 0
    | succ n => exact hdis
  | apply name upstream op task wire =>
    cases n with
    | zero =>
      have hsame := task_channel_step h.2 hdis.1 cfg token arm
      exact hsame ▸ hdis
    | succ n => exact hdis
  | connect name upstream source2 keyFn1 keyFn2 op conn task wire =>
    match n with
    | 0 =>
      have hsame := task_channel_step h.2.2 hdis.1 cfg token arm
      exact hsame ▸ hdis
    | 1 | 2 | 3 | _ + 4 => exact hdis

theorem merged_stepMerge {In1 In2 Out : Type} {op : Operator (Either In1 In2) Out}
    {conn : Connection In1 In2} {output : Channel (StreamElement Out)}
    {phase : TaskPhase op.State Out} (hok : MergerOk conn) (bufferSize : ℕ) (preferred : MergeInput)
    (h : TaskFed refusing op conn.merged.channel output phase) :
    TaskFed refusing op (conn.stepMerge bufferSize preferred).merged.channel output phase := by
  have hcases := conn.merge_cases bufferSize preferred
  generalize conn.stepMerge bufferSize preferred = conn' at hcases
  cases hcases with
  | idle => exact h
  | send e rest channel hresult hunsent hsend =>
    -- a running merger has not closed its channel
    refine h.frame (Channel.taken_trySend hsend) (fun hdis => ?_) rfl rfl
    exact absurd ((hok.running hresult).2.symm.trans hdis.1) Bool.noConfusion
  | fail e rest hresult hunsent => exact h.frame rfl Channel.Disconnected.close rfl rfl
  | poll hresult hunsent hpoll => exact h
  | finish r hresult hunsent hpoll => exact h.frame rfl Channel.Disconnected.close rfl rfl

/-- **Every step of every task keeps the invariant.** -/
theorem Inv.step (h : g.Inv refusing) (hdet : refusing → g.graph.Deterministic)
    (cfg : PipelineConfig) (token : Bool) (arm : TaskArm) (preferred : MergeInput) (n : ℕ)
    (haccepted : refusing ∨ g.Accepted cfg n) :
    (g.step cfg token arm preferred n).Inv refusing := by
  induction g generalizing n with
  | source src drainer wire =>
    cases n with
    | zero => exact DrainerOk.step _ h
    | succ n => exact h
  | apply name upstream op task wire ih =>
    cases n with
    | zero =>
      obtain ⟨htask, hsent, hclosed⟩ := h.2.step (fun hr => (hdet hr).2) cfg token arm haccepted
      refine ⟨h.1.setWire hsent hclosed, ?_⟩
      rw [wire_setWire]
      exact htask
    | succ n =>
      exact ⟨ih h.1 (fun hr => (hdet hr).1) n haccepted,
        h.2.frame (receiver_step cfg token arm preferred upstream n).1
        (fun hdis => h.1.disconnected_step hdis cfg token arm preferred n) rfl rfl⟩
  | connect name upstream source2 keyFn1 keyFn2 op conn task wire ih =>
    obtain ⟨hup, hconn, htask⟩ := h
    match n with
    | 0 =>
      obtain ⟨hstepped, hsent, hclosed⟩ :=
        htask.step (fun hr => (hdet hr).2) cfg token arm haccepted
      exact ⟨hup, hconn.setMerged hsent hclosed, hstepped⟩
    | 1 => exact ⟨hup, hconn.stepMerge _ preferred, merged_stepMerge hconn.merger _ preferred htask⟩
    | 2 =>
      have hmerged : (conn.stepInput2 cfg.channelBufferSize.val source2).merged = conn.merged := by
        have hcases := conn.input2_cases cfg.channelBufferSize.val source2
        generalize conn.stepInput2 cfg.channelBufferSize.val source2 = conn' at hcases
        cases hcases <;> rfl
      refine ⟨hup, hconn.stepInput2 _, ?_⟩
      show TaskFed refusing op (conn.stepInput2 cfg.channelBufferSize.val source2).merged.channel _ _
      rw [hmerged]
      exact htask
    | 3 =>
      have hmerged : (conn.stepInput1 cfg.channelBufferSize.val upstream.wire).2.merged =
          conn.merged := by
        have hcases := conn.input1_cases cfg.channelBufferSize.val upstream.wire
        generalize conn.stepInput1 cfg.channelBufferSize.val upstream.wire = stepped at hcases
        cases hcases <;> rfl
      obtain ⟨hstepped, hsent, hclosed⟩ := hconn.stepInput1 cfg.channelBufferSize.val
      refine ⟨hup.setWire hsent hclosed, ?_, ?_⟩
      · rw [wire_setWire]
        exact hstepped
      · show TaskFed refusing op (conn.stepInput1 cfg.channelBufferSize.val upstream.wire).2.merged.channel
          _ _
        rw [hmerged]
        exact htask
    | n + 4 =>
      exact ⟨ih hup (fun hr => (hdet hr).1) n haccepted,
        hconn.setUpstream (receiver_step cfg token arm preferred upstream n).1
          (fun hdis => hup.disconnected_step hdis cfg token arm preferred n), htask⟩

theorem sent_of_returned {In Out : Type} {op : Operator In Out} {task : TaskExecutor op.State Out}
    {input : Channel (StreamElement In)} {output : Channel (StreamElement Out)}
    (h : TaskFed refusing op input output task.phase) (hreturned : task.phase.result? = some (.ok ())) :
    ∃ s, op.feed input.sent = (output.sent, .ok s) := by
  obtain ⟨phase, cancelled⟩ := task
  match phase, h with
  | .polling s, _ => cases hreturned
  | .calling call, _ => cases hreturned
  | .returned (.error f), _ => cases hreturned
  | .returned (.ok ()), h =>
    rw [Channel.sent_of_disconnected h.task.2]
    exact h.fed rfl

/-- **If all tasks have returned `Ok`, an output of the graph was sent.** -/
theorem Inv.outputs (h : g.Inv refusing) (hok : ∀ handle ∈ g.handles, handle.2 = some (.ok ())) :
    g.graph.Outputs g.wire.channel.sent := by
  induction g with
  | source src drainer wire =>
    have hsource : Pipeline.Inv refusing (.source src drainer wire) := h
    exact hsource.sent_eq hok
  | apply name upstream op task wire ih =>
    obtain ⟨s, hfed⟩ :=
      sent_of_returned h.2 (hok _ (List.mem_append_right _ (List.mem_singleton_self _)))
    exact ⟨_, s, ih h.1 fun handle hmem => hok handle (List.mem_append_left _ hmem), hfed⟩
  | connect name upstream source2 keyFn1 keyFn2 op conn task wire ih =>
    have hup := ih h.1 fun handle hmem => hok handle (List.mem_append_left _ hmem)
    obtain ⟨-, h1, h2, hmerge, htask, -⟩ := by
      simpa only [handles, List.forall_mem_append, List.forall_mem_cons] using hok
    obtain ⟨hdis, hmerges⟩ := h.2.1.merges h1 h2 hmerge
    rw [← Channel.sent_of_disconnected hdis] at hmerges
    obtain ⟨s, hfed⟩ := sent_of_returned h.2.2 htask
    exact ⟨_, _, s, hup, hmerges, hfed⟩

end RunningGraph

end Flume
