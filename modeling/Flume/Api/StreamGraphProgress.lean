import Flume.Api.StreamGraphComplete

/-!
# No deadlock

As long as a task or the sink has not returned, one of them can take a step that changes something:
a full channel has a reader that can read or has gone, and an empty one a sender that can go on.

* `Linked`, **`Linked.step`**: who has returned has dropped its ends of channels;
* `CanStep`: some task can take a step that changes something;
* **`Linked.canStep_of_empty`**: for an output that is empty and open, a task can go on;
* **`Linked.canStep_of_unfinished`**: if the output is no longer read, or closed, all tasks return.
-/

namespace Flume

open Channels Emitters

theorem next_ne_emit {A ε α : Type} {a : A} {next : Except ε Unit → Emitter A ε α}
    (answer : Except ε Unit) : next answer ≠ .emit a next := by
  have haux : ∀ x : Emitter A ε α, ∀ (a : A) (next : Except ε Unit → Emitter A ε α)
      (answer : Except ε Unit), x = .emit a next → next answer ≠ x := by
    intro x
    induction x with
    | done r => intro a next answer h; cases h
    | emit a next ih =>
      intro a' next' answer h hnext
      obtain ⟨rfl, rfl⟩ := Emitter.emit.inj h
      exact ih answer a next answer hnext rfl
  exact haux _ a next answer rfl

/-- A round waits for an input that is empty and open, or it makes progress. -/
theorem poll_works {In1 In2 : Type} {s : TwoInputMerge In1 In2} (h : TwoInputMerge.Aligned s)
    (hres : s.result = none) (hdropped : s.outputDropped = false) (preferred : MergeInput) :
    (∃ i, s.Waiting i) ∧ s.poll preferred = s ∨
      (s.poll preferred).result = some (.ok ()) ∧ (s.poll preferred).work = s.work ∨
      (s.poll preferred).work < s.work := by
  have hpoll := TwoInputMerge.poll_cases preferred hres h.buffer h.onePending
  generalize s.poll preferred = s' at hpoll
  cases hpoll with
  | wait i hw => exact .inl ⟨⟨i, hw⟩, rfl⟩
  | finish hclosed => exact .inr (.inl ⟨rfl, rfl⟩)
  | failed _ _ hdrop => cases hdropped.symm.trans hdrop
  | take i e s₁ _ hpending ht hh =>
    rw [← ht.frame.1] at hpending
    have htakes := ht.ending.2.2.2
    have hhandles := (hh.ending hpending).2.2.2
    exact .inr (.inr (by omega))
  | close i hopen =>
    refine .inr (.inr ?_)
    cases i
    · change s.side1.inputOpen = true at hopen
      simp [TwoInputMerge.work, TwoInputMerge.setClosed, TwoInputMerge.modifySide, hopen]
    · change s.side2.inputOpen = true at hopen
      simp [TwoInputMerge.work, TwoInputMerge.setClosed, TwoInputMerge.modifySide, hopen]
  | closeFlush i b hd hpending hother =>
    refine .inr (.inr ?_)
    cases i
    · change s.side2.pendingBarrier = some b at hother
      simp [TwoInputMerge.work, TwoInputMerge.setClosed, TwoInputMerge.setPending,
        TwoInputMerge.modifySide, MergeInput.other, TwoInputMerge.emit, hother]
      omega
    · change s.side1.pendingBarrier = some b at hother
      simp [TwoInputMerge.work, TwoInputMerge.setClosed, TwoInputMerge.setPending,
        TwoInputMerge.modifySide, MergeInput.other, TwoInputMerge.emit, hother]
      omega

/-! ## Who has returned has dropped its channels -/

namespace Connection

variable {In1 In2 : Type} {c : Connection In1 In2}

/-- The ends of the channels of a connection. -/
structure Linked (c : Connection In1 In2) : Prop where
  merger : MergerOk c
  input1 : c.merger.input1.closed = c.input1.result?.isSome
  input2 : c.merger.input2.closed = c.input2.result?.isSome
  merged : c.merged.channel.closed = c.mergeResult.isSome

theorem linked_new (source2 : Source In2) (keyFn1 : Option (KeyExtractor In1))
    (keyFn2 : Option (KeyExtractor In2)) : Linked (new source2 keyFn1 keyFn2) where
  merger := (ok_new source2 keyFn1 keyFn2).merger
  input1 := rfl
  input2 := rfl
  merged := rfl

theorem Linked.setMerged (h : c.Linked) {w : Wire (Either In1 In2)}
    (hsent : w.channel.sent = c.merged.channel.sent)
    (hclosed : w.channel.closed = c.merged.channel.closed) : Linked { c with merged := w } where
  merger := h.merger.setMerged hsent hclosed
  input1 := h.input1
  input2 := h.input2
  merged := hclosed.trans h.merged

theorem closed_send {T : Type} (channel : Channel T) (e : T) :
    (channel.send e).closed = channel.closed := by
  unfold Channel.send
  split_ifs <;> rfl

theorem Linked.stepInput1 (h : c.Linked) (bufferSize : ℕ) {upstream : Wire In1}
    (hup : upstream.receiverDropped = c.input1.result?.isSome) :
    (c.stepInput1 bufferSize upstream).2.Linked ∧ (c.stepInput1 bufferSize upstream).1.receiverDropped =
      (c.stepInput1 bufferSize upstream).2.input1.result?.isSome := by
  have hcases := c.input1_cases bufferSize upstream
  have hlink := h.input1
  generalize c.stepInput1 bufferSize upstream = stepped at hcases
  cases hcases with
  | idle => exact ⟨h, hup⟩
  | receive keyFn e channel hphase hrecv =>
    rw [hphase] at hlink hup
    exact ⟨⟨h.merger.fetch _ _ _, hlink, h.input2, h.merged⟩, hup⟩
  | send keyFn e hphase hroom =>
    rw [hphase] at hlink hup
    exact ⟨⟨h.merger.feed (.send1 e) rfl ⟨rfl, rfl, rfl⟩ fun _ => ⟨rfl, rfl, rfl⟩,
      (closed_send _ e).trans hlink, h.input2, h.merged⟩, hup⟩
  | finish keyFn hphase hrecv =>
    exact ⟨⟨h.merger.feed .close1 rfl ⟨rfl, rfl, rfl⟩ fun _ => ⟨rfl, rfl, rfl⟩, rfl, h.input2,
      h.merged⟩, rfl⟩
  | fail keyFn e hphase =>
    exact ⟨⟨h.merger.feed .close1 rfl ⟨rfl, rfl, rfl⟩ fun _ => ⟨rfl, rfl, rfl⟩, rfl, h.input2,
      h.merged⟩, rfl⟩

theorem Linked.stepInput2 (h : c.Linked) (bufferSize : ℕ) (source2 : Source In2) :
    (c.stepInput2 bufferSize source2).Linked := by
  have hcases := c.input2_cases bufferSize source2
  have hlink := h.input2
  generalize c.stepInput2 bufferSize source2 = stepped at hcases
  cases hcases with
  | idle => exact h
  | fetch keyFn e rest hphase hrest =>
    rw [hphase] at hlink
    exact ⟨h.merger.fetch _ _ _, h.input1, hlink, h.merged⟩
  | send keyFn e hphase hroom =>
    rw [hphase] at hlink
    exact ⟨h.merger.feed (.send2 e) rfl ⟨rfl, rfl, rfl⟩ fun _ => ⟨rfl, rfl, rfl⟩, h.input1,
      (closed_send _ e).trans hlink, h.merged⟩
  | finish keyFn hphase hrest =>
    exact ⟨h.merger.feed .close2 rfl ⟨rfl, rfl, rfl⟩ fun _ => ⟨rfl, rfl, rfl⟩, h.input1, rfl,
      h.merged⟩
  | fail keyFn e hphase =>
    exact ⟨h.merger.feed .close2 rfl ⟨rfl, rfl, rfl⟩ fun _ => ⟨rfl, rfl, rfl⟩, h.input1, rfl,
      h.merged⟩

theorem Linked.stepMerge (h : c.Linked) (bufferSize : ℕ) (preferred : MergeInput) :
    (c.stepMerge bufferSize preferred).Linked := by
  have hok := h.merger.stepMerge bufferSize preferred
  have hcases := c.merge_cases bufferSize preferred
  have hmerged := h.merged
  generalize c.stepMerge bufferSize preferred = c' at hcases hok
  obtain ⟨⟨-, hclosed1⟩, ⟨-, hclosed2⟩, -⟩ := c.merger.poll_frame preferred
  cases hcases with
  | idle => exact h
  | send e rest channel hresult hunsent hsend =>
    exact ⟨hok, h.input1, h.input2, (Channel.closed_trySend hsend).trans hmerged⟩
  | fail e rest hresult hunsent => exact ⟨hok, h.input1, h.input2, rfl⟩
  | poll hresult hunsent hpoll =>
    exact ⟨hok, hclosed1.trans h.input1, hclosed2.trans h.input2, hmerged⟩
  | finish r hresult hunsent hpoll =>
    exact ⟨hok, hclosed1.trans h.input1, hclosed2.trans h.input2, rfl⟩

end Connection

/-- A step of the hot loop keeps the ends of its channels. -/
theorem TaskExecutor.linked_step {In Out : Type} {op : Operator In Out} (cfg : PipelineConfig)
    (token : Bool) (arm : TaskArm) {task : TaskExecutor op.State Out} {input : Wire In}
    {output : Wire Out} (hin : input.receiverDropped = task.phase.result?.isSome)
    (hout : output.channel.closed = task.phase.result?.isSome) :
    (task.step cfg op token arm input output).2.1.receiverDropped =
        (task.step cfg op token arm input output).1.phase.result?.isSome ∧
      (task.step cfg op token arm input output).2.2.channel.closed =
        (task.step cfg op token arm input output).1.phase.result?.isSome := by
  obtain ⟨phase, cancelled⟩ := task
  match phase, arm with
  | .polling s, .recv =>
    unfold TaskExecutor.step
    dsimp only
    cases input.channel.tryRecv with
    | item e channel => exact ⟨hin, hout⟩
    | empty => exact ⟨hin, hout⟩
    | disconnected => exact ⟨rfl, rfl⟩
  | .polling s, .cancelled =>
    unfold TaskExecutor.step
    dsimp only
    split_ifs <;> exact ⟨hin, hout⟩
  | .calling (.done (.ok s)), _ => exact ⟨hin, hout⟩
  | .calling (.done (.error f)), _ => exact ⟨rfl, rfl⟩
  | .calling (.emit e next), _ =>
    unfold TaskExecutor.step
    dsimp only
    rcases collect_cases cfg output e with ⟨channel, hcollect, -, -, hclosed⟩ | ⟨hcollect, -⟩
    · rw [hcollect]
      exact ⟨hin, hclosed.trans hout⟩
    · rw [hcollect]
      exact ⟨hin, hout⟩
  | .returned r, _ => cases arm <;> exact ⟨hin, hout⟩

theorem TaskExecutor.input_step {In Out : Type} {op : Operator In Out} (cfg : PipelineConfig)
    (token : Bool) (arm : TaskArm) (task : TaskExecutor op.State Out) (input : Wire In)
    (output : Wire Out) :
    (task.step cfg op token arm input output).2.1.channel.sent = input.channel.sent ∧
      (task.step cfg op token arm input output).2.1.channel.closed = input.channel.closed := by
  obtain ⟨phase, cancelled⟩ := task
  match phase, arm with
  | .polling s, .recv =>
    unfold TaskExecutor.step
    dsimp only
    cases hrecv : input.channel.tryRecv with
    | item e channel => exact ⟨Channel.sent_of_tryRecv hrecv, (Channel.tryRecv_item hrecv).2.2⟩
    | empty => exact ⟨rfl, rfl⟩
    | disconnected => exact ⟨rfl, rfl⟩
  | .polling s, .cancelled => exact ⟨rfl, rfl⟩
  | .calling (.done (.ok s)), _ => exact ⟨rfl, rfl⟩
  | .calling (.done (.error f)), _ => exact ⟨rfl, rfl⟩
  | .calling (.emit e next), _ => exact ⟨rfl, rfl⟩
  | .returned r, _ => cases arm <;> exact ⟨rfl, rfl⟩

theorem DrainerPhase.linked_step {T : Type} (bufferSize : ℕ) (src : Source T)
    {drainer : DrainerPhase T} {wire : Wire T}
    (h : wire.channel.closed = drainer.result?.isSome) :
    (drainer.step bufferSize src wire).2.channel.closed =
      (drainer.step bufferSize src wire).1.result?.isSome := by
  match drainer with
  | .fetching (e :: rest) => exact h
  | .fetching [] => rfl
  | .sending e rest =>
    unfold DrainerPhase.step
    dsimp only
    split_ifs with hdropped
    · rfl
    · cases hsend : wire.channel.trySend bufferSize e with
      | none => exact h
      | some channel => exact (Channel.closed_trySend hsend).trans h
  | .returned r => exact h

namespace RunningGraph

/-- Whoever has returned, and nobody else, has dropped its ends of channels. -/
def Linked {T : Type} : RunningGraph T → Prop
  | source _ drainer wire => wire.channel.closed = drainer.result?.isSome
  | apply _ upstream _ task wire => upstream.Linked ∧
      upstream.wire.receiverDropped = task.phase.result?.isSome ∧
      wire.channel.closed = task.phase.result?.isSome
  | connect _ upstream _ _ _ _ conn task wire => upstream.Linked ∧ conn.Linked ∧
      upstream.wire.receiverDropped = conn.input1.result?.isSome ∧
      conn.merged.receiverDropped = task.phase.result?.isSome ∧
      wire.channel.closed = task.phase.result?.isSome

variable {T : Type} {g : RunningGraph T}

theorem linked_start (graph : StreamGraph T) : graph.start.Linked := by
  induction graph with
  | source src => rfl
  | apply name upstream op ih => exact ⟨ih, congrArg Wire.receiverDropped (wire_start _), rfl⟩
  | connect name upstream source2 keyFn1 keyFn2 op ih =>
    exact ⟨ih, Connection.linked_new _ _ _, congrArg Wire.receiverDropped (wire_start _), rfl, rfl⟩

theorem Linked.setWire (h : g.Linked) {w : Wire T}
    (hclosed : w.channel.closed = g.wire.channel.closed) : (g.setWire w).Linked := by
  cases g with
  | source src drainer wire => exact hclosed.trans h
  | apply name upstream op task wire => exact ⟨h.1, h.2.1, hclosed.trans h.2.2⟩
  | connect name upstream source2 keyFn1 keyFn2 op conn task wire =>
    exact ⟨h.1, h.2.1, h.2.2.1, h.2.2.2.1, hclosed.trans h.2.2.2.2⟩

/-- **Every step of every task keeps the links.** -/
theorem Linked.step (h : g.Linked) (cfg : PipelineConfig) (token : Bool) (arm : TaskArm)
    (preferred : MergeInput) (n : ℕ) : (g.step cfg token arm preferred n).Linked := by
  induction g generalizing n with
  | source src drainer wire =>
    cases n with
    | zero => exact DrainerPhase.linked_step _ src h
    | succ n => exact h
  | apply name upstream op task wire ih =>
    obtain ⟨hup, hin, hout⟩ := h
    cases n with
    | zero =>
      obtain ⟨hin', hout'⟩ := TaskExecutor.linked_step cfg token arm hin hout
      refine ⟨hup.setWire (TaskExecutor.input_step cfg token arm task upstream.wire wire).2, ?_,
        hout'⟩
      rw [wire_setWire]
      exact hin'
    | succ n =>
      exact ⟨ih hup n, (receiver_step cfg token arm preferred upstream n).2.trans hin, hout⟩
  | connect name upstream source2 keyFn1 keyFn2 op conn task wire ih =>
    obtain ⟨hup, hconn, hin1, hin, hout⟩ := h
    match n with
    | 0 =>
      obtain ⟨hin', hout'⟩ := TaskExecutor.linked_step cfg token arm hin hout
      obtain ⟨hsent, hclosed⟩ := TaskExecutor.input_step cfg token arm task conn.merged wire
      exact ⟨hup, hconn.setMerged hsent hclosed, hin1, hin', hout'⟩
    | 1 =>
      have hcases := conn.merge_cases cfg.channelBufferSize.val preferred
      have hstepped := hconn.stepMerge cfg.channelBufferSize.val preferred
      unfold RunningGraph.step
      generalize conn.stepMerge cfg.channelBufferSize.val preferred = conn' at hcases hstepped
      cases hcases <;> exact ⟨hup, hstepped, hin1, hin, hout⟩
    | 2 =>
      have hcases := conn.input2_cases cfg.channelBufferSize.val source2
      have hstepped := hconn.stepInput2 cfg.channelBufferSize.val source2
      unfold RunningGraph.step
      generalize conn.stepInput2 cfg.channelBufferSize.val source2 = conn' at hcases hstepped
      cases hcases <;> exact ⟨hup, hstepped, hin1, hin, hout⟩
    | 3 =>
      have hcases := conn.input1_cases cfg.channelBufferSize.val upstream.wire
      obtain ⟨hstepped, hin1'⟩ := hconn.stepInput1 cfg.channelBufferSize.val hin1
      unfold RunningGraph.step
      generalize conn.stepInput1 cfg.channelBufferSize.val upstream.wire = stepped
        at hcases hstepped hin1'
      have hdropped : (upstream.setWire stepped.1).wire.receiverDropped =
          stepped.2.input1.result?.isSome := by
        rw [wire_setWire]
        exact hin1'
      cases hcases with
      | receive keyFn e channel hphase hrecv =>
        exact ⟨hup.setWire (Channel.tryRecv_item hrecv).2.2, hstepped, hdropped, hin, hout⟩
      | _ => exact ⟨hup.setWire rfl, hstepped, hdropped, hin, hout⟩
    | n + 4 =>
      exact ⟨ih hup n, hconn, (receiver_step cfg token arm preferred upstream n).2.trans hin1, hin,
        hout⟩

end RunningGraph

/-! ## Steps that change something -/

section Moves

variable {T In Out : Type} {bufferSize : ℕ}

theorem tryRecv_ne_empty {channel : Channel T} (h : channel.ready = true) :
    channel.tryRecv ≠ .empty := by
  intro hempty
  obtain ⟨hqueue, hclosed⟩ := Channel.tryRecv_empty hempty
  rw [Channel.ready, hqueue, hclosed] at h
  cases h

theorem trySend_of_room {channel : Channel T} (hroom : channel.queue.length < bufferSize) (e : T) :
    ∃ channel', channel.trySend bufferSize e = some channel' :=
  ⟨_, if_pos hroom⟩

theorem TaskExecutor.moves {op : Operator In Out} {task : TaskExecutor op.State Out}
    {input : Wire In} (h : task.phase.result? = none)
    (hready : ∀ s, task.phase = .polling s → input.channel.ready = true) (cfg : PipelineConfig)
    (token : Bool) (output : Wire Out) : (task.step cfg op token .recv input output).1 ≠ task := by
  obtain ⟨phase, cancelled⟩ := task
  intro heq
  have hphase := congrArg TaskExecutor.phase heq
  match phase with
  | .polling s =>
    unfold TaskExecutor.step at hphase
    dsimp only at hphase
    cases hrecv : input.channel.tryRecv with
    | item e channel =>
      rw [hrecv] at hphase
      cases hphase
    | empty => exact tryRecv_ne_empty (hready s rfl) hrecv
    | disconnected =>
      rw [hrecv] at hphase
      cases hphase
  | .calling (.done (.ok s)) => cases hphase
  | .calling (.done (.error f)) => cases hphase
  | .calling (.emit e next) => exact next_ne_emit _ (TaskPhase.calling.inj hphase)
  | .returned r => cases h

theorem DrainerPhase.moves {src : Source T} {drainer : DrainerPhase T} {wire : Wire T}
    (h : drainer.result? = none)
    (hfree : wire.receiverDropped = true ∨ wire.channel.queue.length < bufferSize) :
    (drainer.step bufferSize src wire).1 ≠ drainer := by
  intro heq
  match drainer with
  | .fetching (e :: rest) => cases heq
  | .fetching [] => cases heq
  | .sending e rest =>
    unfold DrainerPhase.step at heq
    dsimp only at heq
    split_ifs at heq with hdropped
    obtain ⟨channel, hsend⟩ := trySend_of_room (hfree.resolve_left hdropped) e
    rw [hsend] at heq
    cases heq
  | .returned r => cases h

end Moves

namespace Connection

variable {In1 In2 : Type} {c : Connection In1 In2} {bufferSize : ℕ}

theorem input1_moves {upstream : Wire In1} (h : c.input1.result? = none)
    (hready : ∀ keyFn, c.input1 = .fetching keyFn → upstream.channel.ready = true)
    (hfree : c.mergeResult.isSome = true ∨ c.merger.input1.queue.length < bufferSize) :
    (c.stepInput1 bufferSize upstream).2.input1 ≠ c.input1 := by
  intro heq
  unfold stepInput1 at heq
  cases hphase : c.input1 with
  | fetching keyFn =>
    rw [hphase] at heq
    dsimp only at heq
    cases hrecv : upstream.channel.tryRecv with
    | empty => exact tryRecv_ne_empty (hready keyFn hphase) hrecv
    | _ =>
      rw [hrecv] at heq
      cases heq
  | sending e keyFn =>
    rw [hphase] at heq
    dsimp only at heq
    split_ifs at heq with hgone hroom
    · cases heq
    · exact hroom (hfree.resolve_left hgone)
  | returned r =>
    rw [hphase] at h
    cases h

theorem input2_moves (source2 : Source In2) (h : c.input2.result? = none)
    (hfree : c.mergeResult.isSome = true ∨ c.merger.input2.queue.length < bufferSize) :
    (c.stepInput2 bufferSize source2).input2 ≠ c.input2 := by
  intro heq
  unfold stepInput2 at heq
  cases hphase : c.input2 with
  | fetching keyFn =>
    rw [hphase] at heq
    dsimp only at heq
    cases hrest : c.rest2 with
    | nil =>
      rw [hrest] at heq
      cases heq
    | cons e rest =>
      rw [hrest] at heq
      cases heq
  | sending e keyFn =>
    rw [hphase] at heq
    dsimp only at heq
    split_ifs at heq with hgone hroom
    · cases heq
    · exact hroom (hfree.resolve_left hgone)
  | returned r =>
    rw [hphase] at h
    cases h

/-- The merger goes on if it can send, or there is nobody to send to, unless it waits for an input
that is empty and open. -/
theorem merge_moves (h : MergerOk c) (hresult : c.mergeResult = none)
    (hfree : c.merged.receiverDropped = true ∨ c.merged.channel.queue.length < bufferSize) :
    (∃ i, c.merger.Waiting i) ∨ ∀ preferred, c.stepMerge bufferSize preferred ≠ c := by
  by_cases hwaits : ∃ i, c.merger.Waiting i
  · exact .inl hwaits
  refine .inr fun preferred heq => ?_
  obtain ⟨input1, input2, rest2, merger, unsent, mergeResult, merged⟩ := c
  obtain rfl : mergeResult = none := hresult
  obtain ⟨hres, -⟩ := h.running rfl
  unfold stepMerge at heq
  cases unsent with
  | cons e rest =>
    dsimp only at heq hfree
    split_ifs at heq with hdropped
    · cases congrArg mergeResult heq
    · obtain ⟨channel, hsend⟩ := trySend_of_room (hfree.resolve_left hdropped) e
      rw [hsend] at heq
      have hlength : rest.length = (e :: rest).length :=
        congrArg (fun c' : Connection In1 In2 => c'.unsent.length) heq
      simp at hlength
  | nil =>
    dsimp only at heq
    rcases poll_works h.aligned hres h.notDropped preferred with ⟨hw, -⟩ | ⟨hdone, -⟩ | hless
    · exact hwaits hw
    · dsimp only at hdone
      rw [hdone] at heq
      cases congrArg mergeResult heq
    · have hmerger : merger.poll preferred = merger := by
        cases hpoll : (merger.poll preferred).result with
        | none =>
          rw [hpoll] at heq
          exact congrArg Connection.merger heq
        | some r =>
          rw [hpoll] at heq
          exact congrArg Connection.merger heq
      exact (Nat.ne_of_lt hless) (congrArg TwoInputMerge.work hmerger)

end Connection

/-! ## Some task can go on -/

namespace RunningGraph

section Differ

variable {In1 In2 In Out : Type} {name : String} {source2 : Source In2}
  {keyFn1 : Option (KeyExtractor In1)} {keyFn2 : Option (KeyExtractor In2)}
  {upstream1 upstream1' : RunningGraph In1} {upstream upstream' : RunningGraph In}
  {conn conn' : Connection In1 In2} {wire wire' : Wire Out}

theorem apply_ne {op : Operator In Out} {task task' : TaskExecutor op.State Out}
    (h : upstream' ≠ upstream ∨ task' ≠ task) :
    apply name upstream' op task' wire' ≠ apply name upstream op task wire := by
  intro heq
  injection heq with _ _ _ hup _ htask
  exact h.elim (fun hne => hne hup) fun hne => hne htask

theorem connect_ne {op : Operator (Either In1 In2) Out} {task task' : TaskExecutor op.State Out}
    (h : upstream1' ≠ upstream1 ∨ conn' ≠ conn ∨ task' ≠ task) :
    connect name upstream1' source2 keyFn1 keyFn2 op conn' task' wire' ≠
      connect name upstream1 source2 keyFn1 keyFn2 op conn task wire := by
  intro heq
  injection heq with _ _ _ _ hup _ _ _ _ hconn htask
  rcases h with hne | hne | hne
  · exact hne hup
  · exact hne hconn
  · exact hne htask

end Differ

variable {T : Type} {g : RunningGraph T} {cfg : PipelineConfig} {token : Bool}

/-- Some task can take a step that changes something, whatever the mergers prefer. -/
def CanStep (cfg : PipelineConfig) (token : Bool) (g : RunningGraph T) : Prop :=
  ∃ n, ∀ preferred, g.step cfg token .recv preferred n ≠ g

theorem room_of_empty {channel : Channel (StreamElement T)} (cfg : PipelineConfig)
    (h : channel.queue = []) : channel.queue.length < cfg.channelBufferSize.val := by
  rw [h]
  exact Nat.lt_of_lt_of_le Nat.zero_lt_one (Fin.le_def.mp cfg.positive)

theorem not_ready {channel : Channel (StreamElement T)} (h : channel.ready ≠ true) :
    channel.queue = [] ∧ channel.closed = false := by
  obtain ⟨hqueue, hclosed⟩ := Bool.or_eq_false_iff.mp (Bool.eq_false_iff.mpr h)
  exact ⟨List.isEmpty_iff.mp (by simpa using hqueue), hclosed⟩

theorem result?_of_open {T : Type} {channel : Channel (StreamElement T)}
    {result : Option (Except TaskFailure Unit)} (h : channel.closed = result.isSome)
    (hopen : channel.closed = false) : result = none :=
  Option.not_isSome_iff_eq_none.mp (Bool.eq_false_iff.mp (h.symm.trans hopen))

section Connect

variable {In1 In2 Out : Type} {name : String} {source2 : Source In2}
  {keyFn1 : Option (KeyExtractor In1)} {keyFn2 : Option (KeyExtractor In2)}
  {upstream : RunningGraph In1} {op : Operator (Either In1 In2) Out} {conn : Connection In1 In2}
  {task : TaskExecutor op.State Out} {wire : Wire Out}

theorem canStep_input1 (hresult : conn.input1.result? = none)
    (hup : upstream.wire.channel.queue = [] → upstream.wire.channel.closed = false →
      upstream.CanStep cfg token)
    (hfree : conn.mergeResult.isSome = true ∨
      conn.merger.input1.queue.length < cfg.channelBufferSize.val) :
    (connect name upstream source2 keyFn1 keyFn2 op conn task wire).CanStep cfg token := by
  by_cases hready : ∀ keyFn, conn.input1 = .fetching keyFn → upstream.wire.channel.ready = true
  · exact ⟨3, fun _ => connect_ne (.inr (.inl fun heq =>
      Connection.input1_moves hresult hready hfree (congrArg Connection.input1 heq)))⟩
  · push Not at hready
    obtain ⟨keyFn, -, hready⟩ := hready
    obtain ⟨hempty, hopen⟩ := not_ready hready
    obtain ⟨n, hn⟩ := hup hempty hopen
    exact ⟨n + 4, fun preferred => connect_ne (.inl (hn preferred))⟩

theorem canStep_merge (h : conn.Linked) (hresult : conn.mergeResult = none)
    (hup : upstream.wire.channel.queue = [] → upstream.wire.channel.closed = false →
      upstream.CanStep cfg token)
    (hfree : conn.merged.receiverDropped = true ∨
      conn.merged.channel.queue.length < cfg.channelBufferSize.val) :
    (connect name upstream source2 keyFn1 keyFn2 op conn task wire).CanStep cfg token := by
  rcases Connection.merge_moves h.merger hresult hfree with ⟨i, hwaits⟩ | hmoves
  · -- the merger waits for an input whose sender can go on
    cases i with
    | one =>
      obtain ⟨hempty, hopen⟩ := hwaits
      exact canStep_input1 (result?_of_open h.input1 hopen) hup (.inr (room_of_empty cfg hempty))
    | two =>
      obtain ⟨hempty, hopen⟩ := hwaits
      exact ⟨2, fun _ => connect_ne (.inr (.inl fun heq => Connection.input2_moves source2
        (result?_of_open h.input2 hopen) (.inr (room_of_empty cfg hempty))
        (congrArg Connection.input2 heq)))⟩
  · exact ⟨1, fun preferred => connect_ne (.inr (.inl (hmoves preferred)))⟩

end Connect

/-- **A task can go on, if the output is empty and open.** -/
theorem Linked.canStep_of_empty (h : g.Linked) (hempty : g.wire.channel.queue = [])
    (hopen : g.wire.channel.closed = false) : g.CanStep cfg token := by
  induction g with
  | source src drainer wire =>
    refine ⟨0, fun _ heq => ?_⟩
    injection heq with _ _ hdrainer
    exact DrainerPhase.moves (result?_of_open h hopen) (.inr (room_of_empty cfg hempty)) hdrainer
  | apply name upstream op task wire ih =>
    obtain ⟨hup, hin, hout⟩ := h
    have hresult := result?_of_open hout hopen
    by_cases hready : ∀ s, task.phase = .polling s → upstream.wire.channel.ready = true
    · exact ⟨0, fun _ => apply_ne (.inr (TaskExecutor.moves hresult hready cfg token wire))⟩
    · push Not at hready
      obtain ⟨s, -, hready⟩ := hready
      obtain ⟨n, hn⟩ := ih hup (not_ready hready).1 (not_ready hready).2
      exact ⟨n + 1, fun preferred => apply_ne (.inl (hn preferred))⟩
  | connect name upstream source2 keyFn1 keyFn2 op conn task wire ih =>
    obtain ⟨hup, hconn, hin1, hin, hout⟩ := h
    have hresult := result?_of_open hout hopen
    by_cases hready : ∀ s, task.phase = .polling s → conn.merged.channel.ready = true
    · exact ⟨0, fun _ =>
        connect_ne (.inr (.inr (TaskExecutor.moves hresult hready cfg token wire)))⟩
    · push Not at hready
      obtain ⟨s, -, hready⟩ := hready
      obtain ⟨hmerged, hmergedOpen⟩ := not_ready hready
      exact canStep_merge hconn (result?_of_open hconn.merged hmergedOpen) (ih hup)
        (.inr (room_of_empty cfg hmerged))

/-- **A task can go on, if the output is no longer read or closed, and not all have returned.** -/
theorem Linked.canStep_of_unfinished (h : g.Linked)
    (hgone : g.wire.receiverDropped = true ∨ g.wire.channel.closed = true)
    (hunfinished : ∃ handle ∈ g.handles, handle.2 = none) : g.CanStep cfg token := by
  induction g with
  | source src drainer wire =>
    obtain ⟨handle, hmem, hnone⟩ := hunfinished
    obtain rfl := List.mem_singleton.mp hmem
    have hopen : wire.channel.closed = false := h.trans (congrArg Option.isSome hnone)
    have hdropped := hgone.resolve_right (by
      show ¬ wire.channel.closed = true
      rw [hopen]
      exact Bool.false_ne_true)
    refine ⟨0, fun _ heq => ?_⟩
    injection heq with _ _ hdrainer
    exact DrainerPhase.moves hnone (.inl hdropped) hdrainer
  | apply name upstream op task wire ih =>
    obtain ⟨hup, hin, hout⟩ := h
    cases hresult : task.phase.result? with
    | none =>
      by_cases hready : ∀ s, task.phase = .polling s → upstream.wire.channel.ready = true
      · exact ⟨0, fun _ => apply_ne (.inr (TaskExecutor.moves hresult hready cfg token wire))⟩
      · push Not at hready
        obtain ⟨s, -, hready⟩ := hready
        obtain ⟨n, hn⟩ := hup.canStep_of_empty (not_ready hready).1 (not_ready hready).2
        exact ⟨n + 1, fun preferred => apply_ne (.inl (hn preferred))⟩
    | some r =>
      rw [hresult] at hin
      obtain ⟨handle, hmem, hnone⟩ := hunfinished
      simp only [handles, List.mem_append, List.mem_singleton] at hmem
      rcases hmem with hmem | rfl
      · obtain ⟨n, hn⟩ := ih hup (.inl hin) ⟨handle, hmem, hnone⟩
        exact ⟨n + 1, fun preferred => apply_ne (.inl (hn preferred))⟩
      · cases hnone.symm.trans hresult
  | connect name upstream source2 keyFn1 keyFn2 op conn task wire ih =>
    obtain ⟨hup, hconn, hin1, hin, hout⟩ := h
    cases hresult : task.phase.result? with
    | none =>
      by_cases hready : ∀ s, task.phase = .polling s → conn.merged.channel.ready = true
      · exact ⟨0, fun _ =>
          connect_ne (.inr (.inr (TaskExecutor.moves hresult hready cfg token wire)))⟩
      · push Not at hready
        obtain ⟨s, -, hready⟩ := hready
        obtain ⟨hmerged, hmergedOpen⟩ := not_ready hready
        exact canStep_merge hconn (result?_of_open hconn.merged hmergedOpen) hup.canStep_of_empty
          (.inr (room_of_empty cfg hmerged))
    | some r =>
      rw [hresult] at hin
      cases hmerge : conn.mergeResult with
      | none => exact canStep_merge hconn hmerge hup.canStep_of_empty (.inl hin)
      | some r' =>
        have hgone' : conn.mergeResult.isSome = true := congrArg Option.isSome hmerge
        cases hresult1 : conn.input1.result? with
        | none => exact canStep_input1 hresult1 hup.canStep_of_empty (.inl hgone')
        | some r1 =>
          cases hresult2 : conn.input2.result? with
          | none =>
            exact ⟨2, fun _ => connect_ne (.inr (.inl fun heq => Connection.input2_moves source2
              hresult2 (.inl hgone') (congrArg Connection.input2 heq)))⟩
          | some r2 =>
            rw [hresult1] at hin1
            obtain ⟨handle, hmem, hnone⟩ := hunfinished
            simp only [handles, List.mem_append, List.mem_cons, List.not_mem_nil, or_false] at hmem
            rcases hmem with hmem | rfl | rfl | rfl | rfl
            · obtain ⟨n, hn⟩ := ih hup (.inl hin1) ⟨handle, hmem, hnone⟩
              exact ⟨n + 4, fun preferred => connect_ne (.inl (hn preferred))⟩
            · cases hnone.symm.trans hresult1
            · cases hnone.symm.trans hresult2
            · cases hnone.symm.trans hmerge
            · cases hnone.symm.trans hresult

end RunningGraph

end Flume
