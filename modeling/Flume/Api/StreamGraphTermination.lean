import Flume.Api.StreamGraphProgress
import Flume.Lib.Fairness

/-!
# A graph always returns

No run changes the state of a graph for ever: a task has only so much to do as the tasks before it
give it. With the absence of deadlocks, `add_sink` returns under every fair schedule, whatever the
operators, the sink and the sources do.

* **`TaskExecutor.runs_down`**: the induction over what an operator task can still do;
* `Connection.rank`, `input1_rank`, `input2_rank`, `merge_rank`: what a connection can still do;
* `Later`, **`acc_later`**: the steps of all tasks come to an end, whatever their reader does;
* **`graph_returns`**: `add_sink` returns.
-/

namespace Flume

open Channels Emitters

/-! ## One task -/

/-- **What an operator task can still do:** come to the end of a call, and then there is one element
less to read. -/
theorem TaskExecutor.runs_down {In Out : Type} {op : Operator In Out} (cfg : PipelineConfig)
    {A : Wire In → TaskExecutor op.State Out → Prop}
    (hA : ∀ input task, (∀ token arm output,
      task.step cfg op token arm input output = (task, input, output) ∨
        A (task.step cfg op token arm input output).2.1
          (task.step cfg op token arm input output).1) → A input task)
    (input : Wire In) (task : TaskExecutor op.State Out) : A input task := by
  have hreturned : ∀ input r cancelled, A input ⟨.returned r, cancelled⟩ := by
    intro input r cancelled
    exact hA _ _ fun token arm output => .inl (by cases arm <;> rfl)
  generalize hlength : input.channel.queue.length = n
  induction n using Nat.strong_induction_on generalizing input task with
  | _ n ih =>
    -- the step that receives, if the task is not cancelled any more
    have hrecv : ∀ (s : op.State) (cancelled token : Bool) (output : Wire Out),
        TaskExecutor.step cfg op token .recv ⟨.polling s, cancelled⟩ input output =
            (⟨.polling s, cancelled⟩, input, output) ∨
          A (TaskExecutor.step cfg op token .recv ⟨.polling s, cancelled⟩ input output).2.1
            (TaskExecutor.step cfg op token .recv ⟨.polling s, cancelled⟩ input output).1 := by
      intro s cancelled token output
      unfold TaskExecutor.step
      dsimp only
      cases hpolled : input.channel.tryRecv with
      | item e channel =>
        refine .inr (ih channel.queue.length ?_ _ _ rfl)
        rw [← hlength, Channel.length_queue_of_tryRecv hpolled]
        exact Nat.lt_succ_self _
      | empty => exact .inl rfl
      | disconnected => exact .inr (hreturned _ _ _)
    have hcancelled : ∀ s : op.State, A input ⟨.polling s, true⟩ := by
      intro s
      refine hA _ _ fun token arm output => ?_
      cases arm with
      | recv => exact hrecv s true token output
      | cancelled => exact .inl (by cases token <;> rfl)
    have hpolling : ∀ (s : op.State) (cancelled : Bool), A input ⟨.polling s, cancelled⟩ := by
      intro s cancelled
      refine hA _ _ fun token arm output => ?_
      cases arm with
      | recv => exact hrecv s cancelled token output
      | cancelled =>
        unfold TaskExecutor.step
        dsimp only
        split_ifs
        · exact .inr (hcancelled s)
        · exact .inl rfl
    obtain ⟨phase, cancelled⟩ := task
    cases phase with
    | polling s => exact hpolling s cancelled
    | returned r => exact hreturned input r cancelled
    | calling call =>
      induction call with
      | done r =>
        refine hA _ _ fun token arm output => .inr ?_
        cases r with
        | ok s => exact hpolling s cancelled
        | error f => exact hreturned _ _ _
      | emit e next ihcall => exact hA _ _ fun token arm output => .inr (ihcall _)

/-- What a drainer can still do. -/
def DrainerPhase.rank {T : Type} : DrainerPhase T → ℕ
  | .fetching rest => 2 * rest.length + 1
  | .sending _ rest => 2 * rest.length + 2
  | .returned _ => 0

theorem DrainerPhase.rank_step {T : Type} (bufferSize : ℕ) (src : Source T)
    (drainer : DrainerPhase T) (wire : Wire T) :
    drainer.step bufferSize src wire = (drainer, wire) ∨
      (drainer.step bufferSize src wire).1.rank < drainer.rank := by
  match drainer with
  | .fetching (e :: rest) =>
    refine .inr ?_
    show 2 * rest.length + 2 < 2 * (rest.length + 1) + 1
    omega
  | .fetching [] => exact .inr Nat.zero_lt_one
  | .sending e rest =>
    unfold DrainerPhase.step
    dsimp only
    split_ifs with hdropped
    · exact .inr (Nat.succ_pos _)
    · cases hsend : wire.channel.trySend bufferSize e with
      | none => exact .inl rfl
      | some channel => exact .inr (Nat.lt_succ_self _)
  | .returned r => exact .inl rfl

/-! ## A connection -/

/-- What a feeding task can still do with the element it has. -/
def FeedPhase.rank {T : Type} : FeedPhase T → ℕ
  | .fetching _ => 1
  | .sending _ _ => 2
  | .returned _ => 0

namespace Connection

variable {In1 In2 : Type} {c : Connection In1 In2} {bufferSize : ℕ}

/-- What the tasks of a connection can still do: first the feeding tasks, then the rounds of the
merger, then the sends of its current round. -/
def rank (upstream : Wire In1) (c : Connection In1 In2) : ℕ ×ₗ ℕ ×ₗ ℕ :=
  toLex (2 * upstream.channel.queue.length + c.input1.rank + (2 * c.rest2.length + c.input2.rank),
    toLex (c.merger.work + c.mergeResult.isNone.toNat, c.unsent.length))

theorem rank_lt_of_feeding {upstream upstream' : Wire In1} {c c' : Connection In1 In2}
    (h : 2 * upstream'.channel.queue.length + c'.input1.rank +
        (2 * c'.rest2.length + c'.input2.rank) <
      2 * upstream.channel.queue.length + c.input1.rank + (2 * c.rest2.length + c.input2.rank)) :
    c'.rank upstream' < c.rank upstream :=
  Prod.Lex.lt_iff.mpr (.inl h)

theorem input1_rank (upstream : Wire In1) (c : Connection In1 In2) :
    c.stepInput1 bufferSize upstream = (upstream, c) ∨
      (c.stepInput1 bufferSize upstream).2.rank (c.stepInput1 bufferSize upstream).1 <
        c.rank upstream := by
  have hcases := c.input1_cases bufferSize upstream
  generalize c.stepInput1 bufferSize upstream = stepped at hcases
  cases hcases with
  | idle => exact .inl rfl
  | receive keyFn e channel hphase hrecv =>
    refine .inr (rank_lt_of_feeding ?_)
    rw [hphase, Channel.length_queue_of_tryRecv hrecv]
    simp only [FeedPhase.rank]
    omega
  | send keyFn e hphase hroom =>
    refine .inr (rank_lt_of_feeding ?_)
    rw [hphase]
    simp only [FeedPhase.rank]
    omega
  | finish keyFn hphase hrecv =>
    refine .inr (rank_lt_of_feeding ?_)
    rw [hphase]
    simp only [returnInput1, Wire.dropReceiver, FeedPhase.rank]
    omega
  | fail keyFn e hphase =>
    refine .inr (rank_lt_of_feeding ?_)
    rw [hphase]
    simp only [returnInput1, Wire.dropReceiver, FeedPhase.rank]
    omega

theorem input2_rank (source2 : Source In2) (upstream : Wire In1) (c : Connection In1 In2) :
    c.stepInput2 bufferSize source2 = c ∨
      (c.stepInput2 bufferSize source2).rank upstream < c.rank upstream := by
  have hcases := c.input2_cases bufferSize source2
  generalize c.stepInput2 bufferSize source2 = stepped at hcases
  cases hcases with
  | idle => exact .inl rfl
  | fetch keyFn e rest hphase hrest =>
    refine .inr (rank_lt_of_feeding ?_)
    rw [hphase, hrest, List.length_cons]
    simp only [FeedPhase.rank]
    omega
  | send keyFn e hphase hroom =>
    refine .inr (rank_lt_of_feeding ?_)
    rw [hphase]
    simp only [FeedPhase.rank]
    omega
  | finish keyFn hphase hrest =>
    refine .inr (rank_lt_of_feeding ?_)
    rw [hphase]
    simp only [returnInput2, FeedPhase.rank]
    omega
  | fail keyFn e hphase =>
    refine .inr (rank_lt_of_feeding ?_)
    rw [hphase]
    simp only [returnInput2, FeedPhase.rank]
    omega

theorem rank_lt_of_merging {upstream : Wire In1} {c c' : Connection In1 In2}
    (hfeeding : c'.input1 = c.input1 ∧ c'.rest2 = c.rest2 ∧ c'.input2 = c.input2)
    (h : c'.merger.work + c'.mergeResult.isNone.toNat <
        c.merger.work + c.mergeResult.isNone.toNat ∨
      c'.merger.work + c'.mergeResult.isNone.toNat = c.merger.work + c.mergeResult.isNone.toNat ∧
        c'.unsent.length < c.unsent.length) : c'.rank upstream < c.rank upstream := by
  obtain ⟨h1, hrest, h2⟩ := hfeeding
  refine Prod.Lex.lt_iff.mpr (.inr ⟨?_, Prod.Lex.lt_iff.mpr h⟩)
  show 2 * upstream.channel.queue.length + c'.input1.rank + (2 * c'.rest2.length + c'.input2.rank) =
    2 * upstream.channel.queue.length + c.input1.rank + (2 * c.rest2.length + c.input2.rank)
  rw [h1, hrest, h2]

theorem merge_rank (h : MergerOk c) (preferred : MergeInput) (upstream : Wire In1) :
    c.stepMerge bufferSize preferred = c ∨
      (c.stepMerge bufferSize preferred).rank upstream < c.rank upstream := by
  have hcases := c.merge_cases bufferSize preferred
  generalize c.stepMerge bufferSize preferred = c' at hcases
  cases hcases with
  | idle => exact .inl rfl
  | send e rest channel hresult hunsent hsend =>
    refine .inr (rank_lt_of_merging ⟨rfl, rfl, rfl⟩ (.inr ⟨rfl, ?_⟩))
    rw [hunsent]
    exact Nat.lt_succ_self _
  | fail e rest hresult hunsent =>
    refine .inr (rank_lt_of_merging ⟨rfl, rfl, rfl⟩ (.inl ?_))
    rw [hresult]
    exact Nat.lt_succ_self _
  | poll hresult hunsent hpoll =>
    obtain ⟨hres, -⟩ := h.running hresult
    rcases poll_works h.aligned hres h.notDropped preferred with ⟨-, hsame⟩ | ⟨hdone, -⟩ | hless
    · refine .inl ?_
      obtain ⟨input1, input2, rest2, merger, unsent, mergeResult, merged⟩ := c
      dsimp only at hsame hunsent
      simp only [polled, hsame, hunsent, List.drop_length]
    · cases hpoll.symm.trans hdone
    · refine .inr (rank_lt_of_merging ⟨rfl, rfl, rfl⟩ (.inl ?_))
      exact Nat.add_lt_add_right hless _
  | finish r hresult hunsent hpoll =>
    obtain ⟨hres, -⟩ := h.running hresult
    refine .inr (rank_lt_of_merging ⟨rfl, rfl, rfl⟩ (.inl ?_))
    rw [hresult]
    show (c.merger.poll preferred).work + 0 < c.merger.work + 1
    rcases poll_works h.aligned hres h.notDropped preferred with ⟨-, hsame⟩ | ⟨-, hsame⟩ | hless
    · rw [hsame]
      exact Nat.lt_succ_self _
    · rw [hsame]
      exact Nat.lt_succ_self _
    · omega

end Connection

/-! ## All tasks -/

namespace RunningGraph

variable {T : Type} {cfg : PipelineConfig}

@[simp] theorem setWire_setWire (g : RunningGraph T) (w w' : Wire T) :
    (g.setWire w).setWire w' = g.setWire w' := by
  cases g <;> rfl

@[simp] theorem setWire_wire (g : RunningGraph T) : g.setWire g.wire = g := by
  cases g <;> rfl

/-- After the reader has done something with the output of `g`, a task takes a step that changes
something and leads to `g'`. -/
def Later (cfg : PipelineConfig) (g' g : RunningGraph T) : Prop :=
  ∃ w token arm preferred n, (g.setWire w).Linked ∧
    g' = (g.setWire w).step cfg token arm preferred n ∧ g' ≠ g.setWire w

theorem acc_source (src : Source T) (drainer : DrainerPhase T) (wire : Wire T) :
    Acc (Later cfg) (source src drainer wire) := by
  generalize hrank : drainer.rank = n
  induction n using Nat.strong_induction_on generalizing drainer wire with
  | _ n ih =>
    constructor
    rintro g' ⟨w, token, arm, preferred, k, -, rfl, hne⟩
    cases k with
    | succ k => exact absurd rfl hne
    | zero =>
      rcases drainer.rank_step cfg.channelBufferSize.val src w with hidle | hless
      · refine absurd ?_ hne
        show source src (drainer.step _ src w).1 (drainer.step _ src w).2 = source src drainer w
        rw [hidle]
      · exact ih _ (hrank ▸ hless) _ _ rfl

theorem acc_apply {In Out : Type} (name : String) {op : Operator In Out}
    {upstream : RunningGraph In} (h : Acc (Later cfg) upstream) (input : Wire In)
    (task : TaskExecutor op.State Out) (wire : Wire Out) :
    Acc (Later cfg) (apply name (upstream.setWire input) op task wire) := by
  induction h generalizing input task wire with
  | intro upstream _ ih =>
    -- the tasks before this one do nothing more, for which there is an induction already
    refine TaskExecutor.runs_down cfg
      (A := fun input task => ∀ wire, Acc (Later cfg) (apply name (upstream.setWire input) op task wire))
      (fun input task hown wire => ?_) input task wire
    constructor
    rintro g' ⟨w, token, arm, preferred, n, hlinked, rfl, hne⟩
    cases n with
    | zero =>
      have hstep : step cfg token arm preferred
            ((apply name (upstream.setWire input) op task wire).setWire w) 0 =
          apply name (upstream.setWire (task.step cfg op token arm input w).2.1) op
            (task.step cfg op token arm input w).1 (task.step cfg op token arm input w).2.2 := by
        show apply name ((upstream.setWire input).setWire
          (task.step cfg op token arm (upstream.setWire input).wire w).2.1) op
          (task.step cfg op token arm (upstream.setWire input).wire w).1
          (task.step cfg op token arm (upstream.setWire input).wire w).2.2 = _
        rw [wire_setWire, setWire_setWire]
      rw [hstep] at hne ⊢
      rcases hown token arm w with hidle | hlater
      · rw [hidle] at hne
        exact absurd rfl hne
      · exact hlater _
    | succ n =>
      have hne' : (upstream.setWire input).step cfg token arm preferred n ≠
          upstream.setWire input := fun heq => hne (congrArg (apply name · op task w) heq)
      have hacc := ih _ ⟨input, token, arm, preferred, n, hlinked.1, rfl, hne'⟩
        ((upstream.setWire input).step cfg token arm preferred n).wire task w
      rw [setWire_wire] at hacc
      exact hacc

theorem acc_connect {In1 In2 Out : Type} (name : String) (source2 : Source In2)
    (keyFn1 : Option (KeyExtractor In1)) (keyFn2 : Option (KeyExtractor In2))
    {op : Operator (Either In1 In2) Out} {upstream : RunningGraph In1}
    (h : Acc (Later cfg) upstream) (input : Wire In1) (conn : Connection In1 In2)
    (task : TaskExecutor op.State Out) (wire : Wire Out) :
    Acc (Later cfg)
      (connect name (upstream.setWire input) source2 keyFn1 keyFn2 op conn task wire) := by
  induction h generalizing input conn task wire with
  | intro upstream _ ih =>
    generalize hrank : conn.rank input = n
    induction n using WellFoundedLT.induction generalizing input conn task wire with
    | _ n ihrank =>
      have hconn : ∀ (input' : Wire In1) (conn' : Connection In1 In2)
          (task' : TaskExecutor op.State Out) (wire' : Wire Out),
          conn'.rank input' < conn.rank input → Acc (Later cfg)
            (connect name (upstream.setWire input') source2 keyFn1 keyFn2 op conn' task' wire') :=
        fun input' conn' task' wire' hless => ihrank _ (hrank ▸ hless) input' conn' task' wire' rfl
      -- nothing but the operator task moves, for which there is an induction already
      have hall := TaskExecutor.runs_down cfg
        (A := fun merged (task : TaskExecutor op.State Out) => ∀ wire, Acc (Later cfg)
          (connect name (upstream.setWire input) source2 keyFn1 keyFn2 op
            { conn with merged := merged } task wire))
        (fun merged task hown wire => ?_) conn.merged task wire
      · exact hall
      · constructor
        rintro g' ⟨w, token, arm, preferred, k, hlinked, rfl, hne⟩
        obtain ⟨hup, hlink, -⟩ := hlinked
        match k with
        | 0 =>
          rcases hown token arm w with hidle | hlater
          · refine absurd ?_ hne
            show connect name (upstream.setWire input) source2 keyFn1 keyFn2 op
              { conn with merged := (task.step cfg op token arm merged w).2.1 }
              (task.step cfg op token arm merged w).1 (task.step cfg op token arm merged w).2.2 = _
            rw [hidle]
            rfl
          · exact hlater _
        | 1 =>
          rcases Connection.merge_rank hlink.merger preferred input with hidle | hless
          · exact absurd (congrArg (connect name (upstream.setWire input) source2 keyFn1 keyFn2 op ·
              task w) hidle) hne
          · exact hconn input _ task w hless
        | 2 =>
          rcases Connection.input2_rank source2 input { conn with merged := merged } with
            hidle | hless
          · exact absurd (congrArg (connect name (upstream.setWire input) source2 keyFn1 keyFn2 op ·
              task w) hidle) hne
          · exact hconn input _ task w hless
        | 3 =>
          have hstep : step cfg token arm preferred
                ((connect name (upstream.setWire input) source2 keyFn1 keyFn2 op
                  { conn with merged := merged } task wire).setWire w) 3 =
              connect name (upstream.setWire (Connection.stepInput1 cfg.channelBufferSize.val input
                { conn with merged := merged }).1) source2 keyFn1 keyFn2 op
                (Connection.stepInput1 cfg.channelBufferSize.val input
                  { conn with merged := merged }).2 task w := by
            show connect name ((upstream.setWire input).setWire
              (Connection.stepInput1 cfg.channelBufferSize.val (upstream.setWire input).wire
                { conn with merged := merged }).1) source2 keyFn1 keyFn2 op
              (Connection.stepInput1 cfg.channelBufferSize.val (upstream.setWire input).wire
                { conn with merged := merged }).2 task w = _
            rw [wire_setWire, setWire_setWire]
          rw [hstep] at hne ⊢
          rcases Connection.input1_rank input { conn with merged := merged } with hidle | hless
          · rw [hidle] at hne
            exact absurd rfl hne
          · exact hconn _ _ task w hless
        | k + 4 =>
          have hne' : (upstream.setWire input).step cfg token arm preferred k ≠
              upstream.setWire input := fun heq =>
            hne (congrArg (connect name · source2 keyFn1 keyFn2 op { conn with merged := merged }
              task w) heq)
          have hacc := ih _ ⟨input, token, arm, preferred, k, hup, rfl, hne'⟩
            ((upstream.setWire input).step cfg token arm preferred k).wire
            { conn with merged := merged } task w
          rw [setWire_wire] at hacc
          exact hacc

/-- **The steps of the tasks come to an end.** -/
theorem acc_later (cfg : PipelineConfig) (g : RunningGraph T) : Acc (Later cfg) g := by
  induction g with
  | source src drainer wire => exact acc_source src drainer wire
  | apply name upstream op task wire ih =>
    have hacc := acc_apply name ih upstream.wire task wire
    rw [setWire_wire] at hacc
    exact hacc
  | connect name upstream source2 keyFn1 keyFn2 op conn task wire ih =>
    have hacc := acc_connect name source2 keyFn1 keyFn2 ih upstream.wire conn task wire
    rw [setWire_wire] at hacc
    exact hacc

end RunningGraph

/-! ## The whole system -/

theorem exists_of_waitAllFrom_eq_none {firstError : Option FlumeError}
    {handles : List (String × Option (Except TaskFailure Unit))}
    (h : waitAllFrom firstError handles = none) : ∃ handle ∈ handles, handle.2 = none := by
  induction handles generalizing firstError with
  | nil => cases firstError <;> cases h
  | cons handle handles ih =>
    obtain ⟨name, result⟩ := handle
    match result, h with
    | none, _ => exact ⟨_, List.mem_cons_self, rfl⟩
    | some (.ok ()), h =>
      obtain ⟨handle, hmem, hnone⟩ := ih h
      exact ⟨handle, List.mem_cons_of_mem _ hmem, hnone⟩
    | some (.error (.error e)), h =>
      obtain ⟨handle, hmem, hnone⟩ := ih h
      exact ⟨handle, List.mem_cons_of_mem _ hmem, hnone⟩
    | some (.error (.panicked joinErr)), h =>
      obtain ⟨handle, hmem, hnone⟩ := ih h
      exact ⟨handle, List.mem_cons_of_mem _ hmem, hnone⟩

namespace RunningGraph

variable {T : Type} {g : RunningGraph T}

/-- A task that has returned stays so, and its output stays closed. -/
theorem Linked.closed_step (h : g.Linked) (hclosed : g.wire.channel.closed = true)
    (cfg : PipelineConfig) (token : Bool) (arm : TaskArm) (preferred : MergeInput) (n : ℕ) :
    (g.step cfg token arm preferred n).wire.channel.closed = true := by
  have htask : ∀ {In Out : Type} {op : Operator In Out} {task : TaskExecutor op.State Out}
      {input : Wire In} {output : Wire Out}, output.channel.closed = task.phase.result?.isSome →
      output.channel.closed = true →
      (task.step cfg op token arm input output).2.2.channel.closed = true := by
    intro In Out op task input output hout hclosed
    obtain ⟨phase, cancelled⟩ := task
    rw [hclosed] at hout
    match phase with
    | .polling s => cases hout
    | .calling call => cases hout
    | .returned r => cases arm <;> exact hclosed
  cases g with
  | source src drainer wire =>
    have hout : true = drainer.result?.isSome := hclosed.symm.trans h
    cases n with
    | succ n => exact hclosed
    | zero =>
      match drainer with
      | .fetching rest => cases hout
      | .sending e rest => cases hout
      | .returned r => exact hclosed
  | apply name upstream op task wire =>
    cases n with
    | zero => exact htask h.2.2 hclosed
    | succ n => exact hclosed
  | connect name upstream source2 keyFn1 keyFn2 op conn task wire =>
    match n with
    | 0 => exact htask h.2.2.2.2 hclosed
    | 1 | 2 | 3 | _ + 4 => exact hclosed

end RunningGraph

namespace GraphRun

variable {T : Type} {sink : Sink T} {s : GraphRun T sink.State} {cfg : PipelineConfig}

/-- The invariant of a run, whatever the operators are. -/
structure Live (s : GraphRun T sink.State) : Prop where
  linked : s.graph.Linked
  waiting : s.sinkTask.phase = .waiting → s.graph.wire.channel.closed = true

theorem live_init (graph : StreamGraph T) (sink : Sink T) : (init graph sink).Live where
  linked := RunningGraph.linked_start graph
  waiting h := by cases h

theorem Live.step (cfg : PipelineConfig) (h : s.Live) (e : GraphEvent) :
    (s.step cfg sink e).Live := by
  cases e with
  | cancel => exact ⟨h.linked, h.waiting⟩
  | task n arm preferred =>
    exact ⟨h.linked.step cfg s.token arm preferred n,
      fun hw => h.linked.closed_step (h.waiting hw) cfg s.token arm preferred n⟩
  | sink =>
    obtain ⟨g, t, token⟩ := s
    obtain ⟨hlinked, hwaiting⟩ := h
    have hcases := SinkTask.step_cases g.handles t g.wire
    unfold GraphRun.step
    dsimp only at hlinked hwaiting ⊢
    generalize t.step sink g.handles g.wire = stepped at hcases
    have hclosed : ∀ {e channel}, g.wire.channel.tryRecv = .item e channel →
        channel.closed = g.wire.channel.closed := fun hrecv => (Channel.tryRecv_item hrecv).2.2
    cases hcases with
    | idle => exact ⟨hlinked.setWire rfl, by simpa using hwaiting⟩
    | absorb e channel sinkState hp hrecv hcall =>
      exact ⟨hlinked.setWire (hclosed hrecv), fun hw => by cases hp.symm.trans hw⟩
    | fail e channel f hp hrecv hcall =>
      exact ⟨hlinked.setWire (hclosed hrecv), fun hw => by cases hw⟩
    | drained hp hrecv =>
      exact ⟨hlinked.setWire rfl, fun _ => by simpa using (Channel.tryRecv_disconnected hrecv).1⟩
    | joined r hp hwait => exact ⟨hlinked.setWire rfl, fun hw => by cases hw⟩

/-- `add_sink` has returned. -/
def Returned {State : Type} (s : GraphRun T State) : Prop := ∃ r, s.sinkTask.phase = .returned r

/-- What the sink can still do. -/
def sinkRank : SinkPhase → ℕ
  | .draining => 2
  | .waiting => 1
  | .returned _ => 0

/-- **Every run comes to an end**, if only steps that change something are counted. -/
theorem acc_effective (cfg : PipelineConfig) (s : GraphRun T sink.State) :
    Acc (Runs.Effective (step cfg sink) Live) s := by
  have hcancelled : ∀ (token : Bool), (∀ g t, token = false →
        Acc (Runs.Effective (step cfg sink) Live) ⟨g, t, true⟩) →
      ∀ (g : RunningGraph T), Acc (RunningGraph.Later cfg) g → ∀ (w : Wire T)
        (t : SinkTask T sink.State),
        Acc (Runs.Effective (step cfg sink) Live) ⟨g.setWire w, t, token⟩ := by
    intro token htoken g hacc
    induction hacc with
    | intro g _ ih =>
      intro w t
      generalize hrank : w.channel.queue.length + sinkRank t.phase = n
      induction n using Nat.strong_induction_on generalizing w t with
      | _ n ihrank =>
        constructor
        rintro s' ⟨hlive, e, rfl, hne⟩
        cases e with
        | cancel =>
          cases token with
          | true => exact absurd rfl hne
          | false => exact htoken _ _ rfl
        | task k arm preferred =>
          have hne' : (g.setWire w).step cfg token arm preferred k ≠ g.setWire w := fun heq =>
            hne (congrArg (GraphRun.mk · t token) heq)
          have hacc' := ih _ ⟨w, token, arm, preferred, k, hlive.linked, rfl, hne'⟩
            ((g.setWire w).step cfg token arm preferred k).wire t
          rw [RunningGraph.setWire_wire] at hacc'
          exact hacc'
        | sink =>
          have hcases := SinkTask.step_cases (g.setWire w).handles t w
          have hstep : step cfg sink ⟨g.setWire w, t, token⟩ .sink =
              ⟨g.setWire (t.step sink (g.setWire w).handles w).2,
                (t.step sink (g.setWire w).handles w).1, token⟩ := by
            show GraphRun.mk ((g.setWire w).setWire
                (t.step sink (g.setWire w).handles (g.setWire w).wire).2)
              (t.step sink (g.setWire w).handles (g.setWire w).wire).1 token = _
            rw [RunningGraph.wire_setWire, RunningGraph.setWire_setWire]
          rw [hstep] at hne ⊢
          generalize t.step sink (g.setWire w).handles w = stepped at hcases hne
          cases hcases with
          | idle => exact absurd rfl hne
          | absorb e channel sinkState hp hrecv hcall =>
            refine ihrank _ ?_ _ _ rfl
            rw [← hrank, Channel.length_queue_of_tryRecv hrecv]
            show channel.queue.length + sinkRank t.phase < _
            omega
          | fail e channel f hp hrecv hcall =>
            refine ihrank _ ?_ _ _ rfl
            rw [← hrank, Channel.length_queue_of_tryRecv hrecv]
            show channel.queue.length + 0 < _
            omega
          | drained hp hrecv =>
            refine ihrank _ ?_ _ _ rfl
            rw [← hrank, hp]
            exact Nat.lt_succ_self _
          | joined r hp hwait =>
            refine ihrank _ ?_ _ _ rfl
            rw [← hrank, hp]
            exact Nat.lt_succ_self _
  have hboth : ∀ token : Bool, ∀ g (t : SinkTask T sink.State),
      Acc (Runs.Effective (step cfg sink) Live) ⟨g, t, token⟩ := by
    have htrue : ∀ g (t : SinkTask T sink.State),
        Acc (Runs.Effective (step cfg sink) Live) ⟨g, t, true⟩ := by
      intro g t
      have hacc := hcancelled true (fun _ _ h => by cases h) g (RunningGraph.acc_later cfg g) g.wire t
      rw [RunningGraph.setWire_wire] at hacc
      exact hacc
    intro token g t
    have hacc := hcancelled token (fun g t _ => htrue g t) g (RunningGraph.acc_later cfg g) g.wire t
    rw [RunningGraph.setWire_wire] at hacc
    exact hacc
  exact hboth s.token s.graph s.sinkTask

/-- **Somebody can go on**, until `add_sink` has returned. -/
theorem Live.progress (h : s.Live) (hreturned : ¬ s.Returned) :
    s.step cfg sink .sink ≠ s ∨ s.graph.CanStep cfg s.token := by
  obtain ⟨g, ⟨sinkState, phase, written⟩, token⟩ := s
  obtain ⟨hlinked, hwaiting⟩ := h
  cases phase with
  | returned r => exact absurd ⟨r, rfl⟩ hreturned
  | draining =>
    by_cases hready : g.wire.channel.ready = true
    · refine .inl fun heq => ?_
      have hwire : (SinkTask.step sink g.handles ⟨sinkState, .draining, written⟩ g.wire).2 =
          g.wire := by
        have hgraph : (g.setWire _).wire = g.wire :=
          congrArg (fun s : GraphRun T sink.State => s.graph.wire) heq
        rwa [RunningGraph.wire_setWire] at hgraph
      have hphase : (SinkTask.step sink g.handles ⟨sinkState, .draining, written⟩ g.wire).1.phase =
          .draining := congrArg (fun s : GraphRun T sink.State => s.sinkTask.phase) heq
      unfold SinkTask.step at hwire hphase
      dsimp only at hwire hphase
      cases hrecv : g.wire.channel.tryRecv with
      | empty => exact tryRecv_ne_empty hready hrecv
      | disconnected =>
        rw [hrecv] at hphase
        cases hphase
      | item e channel =>
        rw [hrecv] at hwire hphase
        dsimp only at hwire hphase
        cases hcall : sink.absorb sinkState e with
        | error f =>
          rw [hcall] at hphase
          cases hphase
        | ok sinkState' =>
          rw [hcall] at hwire
          have hlength := congrArg (fun w : Wire T => w.channel.queue.length) hwire
          dsimp only [SinkTask.afterCall] at hlength
          rw [Channel.length_queue_of_tryRecv hrecv] at hlength
          omega
    · obtain ⟨hempty, hopen⟩ := RunningGraph.not_ready hready
      exact .inr (hlinked.canStep_of_empty hempty hopen)
  | waiting =>
    cases hwait : waitAll g.handles with
    | none =>
      exact .inr (hlinked.canStep_of_unfinished (.inr (hwaiting rfl))
        (exists_of_waitAllFrom_eq_none hwait))
    | some r =>
      refine .inl fun heq => ?_
      have hphase : (SinkTask.step sink g.handles ⟨sinkState, .waiting, written⟩ g.wire).1.phase =
          .waiting := congrArg (fun s : GraphRun T sink.State => s.sinkTask.phase) heq
      unfold SinkTask.step at hphase
      dsimp only at hphase
      rw [hwait] at hphase
      cases hphase

theorem returned_step {r : Except TaskFailure Unit} (h : s.sinkTask.phase = .returned r)
    (e : GraphEvent) : (s.step cfg sink e).sinkTask.phase = .returned r := by
  obtain ⟨g, ⟨sinkState, phase, written⟩, token⟩ := s
  obtain rfl : phase = .returned r := h
  cases e <;> rfl

/-- The turns that have to come again and again: those of the sink and of every task. -/
def turns : Set (Set GraphEvent) :=
  {C | C = {.sink} ∨ ∃ n, C = {e | ∃ preferred, e = .task n .recv preferred}}

/-- **Under a fair schedule `add_sink` returns**, and its result stays. -/
theorem returned_of_fair (cfg : PipelineConfig) (graph : StreamGraph T) (sink : Sink T)
    {es : ℕ → GraphEvent} (hsink : ∀ n, ∃ m, n ≤ m ∧ es m = .sink)
    (htasks : ∀ k n, ∃ m, n ≤ m ∧ ∃ preferred, es m = .task k .recv preferred) :
    ∃ N r, ∀ n, N ≤ n →
      (run cfg graph sink ((List.range n).map es)).sinkTask.phase = .returned r := by
  have hfair : Runs.Fair turns es := by
    rintro C (rfl | ⟨k, rfl⟩) n
    · exact hsink n
    · exact htasks k n
  obtain ⟨N, r, hr⟩ := Runs.eventually_done (D := Returned)
    (fun s e (h : Live s) => h.step cfg e)
    (fun s h hreturned => by
      rcases h.progress hreturned with hmoves | ⟨k, hk⟩
      · refine ⟨_, .inl rfl, ?_⟩
        rintro e rfl
        exact hmoves
      · refine ⟨_, .inr ⟨k, rfl⟩, ?_⟩
        rintro e ⟨preferred, rfl⟩ heq
        exact hk preferred (congrArg GraphRun.graph heq))
    (acc_effective cfg (init graph sink)) (live_init graph sink) hfair
  refine ⟨N, r, fun n hn => ?_⟩
  induction n, hn using Nat.le_induction with
  | base => exact hr
  | succ n _ ih =>
    have hnext : run cfg graph sink ((List.range (n + 1)).map es) =
        (run cfg graph sink ((List.range n).map es)).step cfg sink (es n) :=
      Runs.after_succ n
    rw [hnext]
    exact returned_step ih _

end GraphRun

/-- **`add_sink` returns** if the sink and every task are polled again and again: also tasks that
wait, so a wake-up of a ring buffer that is missing does not show here. -/
theorem graph_returns {T : Type} (cfg : PipelineConfig) (graph : StreamGraph T) (sink : Sink T)
    (es : ℕ → GraphEvent) (hsink : ∀ n, ∃ m, n ≤ m ∧ es m = .sink)
    (htasks : ∀ k n, ∃ m, n ≤ m ∧ ∃ preferred, es m = .task k .recv preferred) :
    ∃ N r, ∀ n, N ≤ n →
      (GraphRun.run cfg graph sink ((List.range n).map es)).sinkTask.phase = .returned r :=
  GraphRun.returned_of_fair cfg graph sink hsink htasks

/-- A fair schedule: the first component of the pair that a number codes has the turn. -/
def inTurn (m : ℕ) : GraphEvent :=
  if (Nat.unpair m).1 = 0 then .sink else .task ((Nat.unpair m).1 - 1) .recv .one

theorem inTurn_pair (k n : ℕ) : inTurn (Nat.pair (k + 1) n) = .task k .recv .one := by
  unfold inTurn
  rw [Nat.unpair_pair, if_neg (Nat.succ_ne_zero k)]
  rfl

theorem inTurn_sink (n : ℕ) : ∃ m, n ≤ m ∧ inTurn m = .sink := by
  refine ⟨Nat.pair 0 n, Nat.right_le_pair 0 n, ?_⟩
  unfold inTurn
  rw [Nat.unpair_pair]
  rfl

theorem inTurn_task (k n : ℕ) : ∃ m, n ≤ m ∧ ∃ preferred, inTurn m = .task k .recv preferred :=
  ⟨Nat.pair (k + 1) n, Nat.right_le_pair (k + 1) n, .one, inTurn_pair k n⟩

theorem connectedGraph_returns :
    ∃ N r, ∀ n, N ≤ n → (GraphRun.run ⟨.mpsc, 1, by decide⟩ connectedGraph
      (CollectSink (Either ℕ String)) ((List.range n).map inTurn)).sinkTask.phase = .returned r :=
  graph_returns _ connectedGraph _ inTurn inTurn_sink inTurn_task

end Flume
