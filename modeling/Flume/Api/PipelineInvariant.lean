import Flume.Api.Pipeline

/-!
# What the tasks of a pipeline have sent

On every channel what was sent is what the task makes of the elements it has taken, up to the rest
of the call it is in. A collector may refuse an element; then this holds of deterministic operators,
and until a task fails. As long as nothing is refused it holds of all operators.

* `DrainerOk`, `TaskOk`: what one task has sent, in each of its phases;
* `TaskOk.step`: every step of the hot loop keeps it;
* `Pipeline.Inv`, **`Pipeline.Inv.step`**: the same for all tasks;
* **`Pipeline.Inv.sent_eq`**: if all tasks have returned `Ok`, the output of the chain was sent.
-/

namespace Flume

open Channels Emitters Emitter

/-! ## One task -/

/-- The drainer has sent what is missing from the rest. -/
def DrainerOk {T : Type} (src : Source T) (channel : Channel (StreamElement T)) :
    DrainerPhase T → Prop
  | .fetching rest => channel.sent ++ rest = src.elements ∧ channel.closed = false
  | .sending e rest => channel.sent ++ e :: rest = src.elements ∧ channel.closed = false
  | .returned (.ok ()) => channel.sent = src.elements
  | .returned (.error _) => True

/-- What a task has sent, in each of its phases. -/
def TaskOk (refusing : Prop) {In Out : Type} (op : Operator In Out)
    (input : Channel (StreamElement In)) (output : Channel (StreamElement Out)) :
    TaskPhase op.State Out → Prop
  | .polling s => op.feed input.taken = (output.sent, .ok s) ∧ output.closed = false
  | .calling call => output.closed = false ∧ ∃ pre e s out part, input.taken = pre ++ [e] ∧
      op.feed pre = (out, .ok s) ∧ output.sent = out ++ part ∧
      Leaves refusing (op.process s e) part call
  | .returned (.ok ()) => (op.feed input.taken).1 = output.sent ∧ input.Disconnected
  | .returned (.error _) => True

/-- If the task is about to call its collector, the call succeeds. -/
def TaskExecutor.Accepted {State Out : Type} (cfg : PipelineConfig) (task : TaskExecutor State Out)
    (output : Wire Out) : Prop :=
  ∀ e next, task.phase = .calling (.emit e next) → (cfg.collect output e).1 = .ok ()

section Task

variable {refusing : Prop} {In Out : Type} {op : Operator In Out}

theorem Operator.feed_concat {pre : List (StreamElement In)} {out : List (StreamElement Out)}
    {s : op.State} (h : op.feed pre = (out, .ok s)) (e : StreamElement In) :
    op.feed (pre ++ [e]) = (out ++ (op.process s e).emissions, (op.process s e).result) := by
  have hok : (Emitter.feed op.process op.initial pre).2 = .ok s := congrArg Prod.snd h
  have hout : (Emitter.feed op.process op.initial pre).1 = out := congrArg Prod.fst h
  rw [Operator.feed, Emitter.feed_concat hok, hout]

theorem TaskOk.frame {input input' : Channel (StreamElement In)}
    {output output' : Channel (StreamElement Out)} {phase : TaskPhase op.State Out}
    (h : TaskOk refusing op input output phase) (htaken : input'.taken = input.taken)
    (hdis : input.Disconnected → input'.Disconnected) (hsent : output'.sent = output.sent)
    (hclosed : output'.closed = output.closed) : TaskOk refusing op input' output' phase := by
  match phase, h with
  | .polling s, h =>
    unfold TaskOk
    rw [htaken, hsent, hclosed]
    exact h
  | .calling call, h =>
    unfold TaskOk
    rw [htaken, hsent, hclosed]
    exact h
  | .returned (.ok ()), h =>
    unfold TaskOk
    rw [htaken, hsent]
    exact ⟨h.1, hdis h.2⟩
  | .returned (.error f), _ => trivial

/-- **Every step of the hot loop keeps what the task has sent.** -/
theorem TaskOk.step (hdet : refusing → op.Deterministic) (cfg : PipelineConfig) (token : Bool)
    (arm : TaskArm) {task : TaskExecutor op.State Out} {input : Wire In} {output : Wire Out}
    (h : TaskOk refusing op input.channel output.channel task.phase)
    (haccepted : refusing ∨ task.Accepted cfg output) :
    TaskOk refusing op (task.step cfg op token arm input output).2.1.channel
        (task.step cfg op token arm input output).2.2.channel
        (task.step cfg op token arm input output).1.phase ∧
      (task.step cfg op token arm input output).2.1.channel.sent = input.channel.sent ∧
      (task.step cfg op token arm input output).2.1.channel.closed = input.channel.closed := by
  obtain ⟨phase, cancelled⟩ := task
  match phase, h with
  | .polling s, h =>
    cases arm with
    | recv =>
      unfold TaskExecutor.step
      dsimp only
      cases hrecv : input.channel.tryRecv with
      | item e channel =>
        obtain ⟨-, htaken, hclosed⟩ := Channel.tryRecv_item hrecv
        exact ⟨⟨h.2, _, e, s, _, [], htaken, h.1, (List.append_nil _).symm,
          leaves_self fun hr => hdet hr s e⟩, Channel.sent_of_tryRecv hrecv, hclosed⟩
      | empty => exact ⟨h, rfl, rfl⟩
      | disconnected =>
        exact ⟨⟨congrArg Prod.fst h.1, Channel.tryRecv_disconnected hrecv⟩, rfl, rfl⟩
    | cancelled =>
      unfold TaskExecutor.step
      dsimp only
      split_ifs <;> exact ⟨h, rfl, rfl⟩
  | .calling (.done (.ok s)), ⟨hopen, pre, e, s₀, out, part, htaken, hpre, hsent, hleaves⟩ =>
    -- the call has ended well, so it was the whole call for the last element
    obtain ⟨hemissions, hresult⟩ := hleaves.done
    refine ⟨⟨?_, hopen⟩, rfl, rfl⟩
    show op.feed input.channel.taken = (output.channel.sent, .ok s)
    rw [htaken, hsent, Operator.feed_concat hpre, hemissions, hresult]
  | .calling (.done (.error f)), _ => exact ⟨trivial, rfl, rfl⟩
  | .calling (.emit e next), ⟨hopen, pre, e₀, s, out, part, htaken, hpre, hsent, hleaves⟩ =>
    unfold TaskExecutor.step
    dsimp only
    rcases collect_cases cfg output e with ⟨channel, hcollect, hsent', -, hclosed'⟩ | ⟨hcollect, -⟩
    · rw [hcollect]
      refine ⟨⟨hclosed'.trans hopen, pre, e₀, s, out, part ++ [e], htaken, hpre, ?_,
        hleaves.accept⟩, rfl, rfl⟩
      rw [hsent', hsent, List.append_assoc]
    · rw [hcollect]
      rcases haccepted with hr | haccepted
      · exact ⟨⟨hopen, pre, e₀, s, out, part, htaken, hpre, hsent, hleaves.refuse hr _⟩, rfl, rfl⟩
      · have hok := haccepted e next rfl
        rw [hcollect] at hok
        cases hok
  | .returned r, h => cases arm <;> exact ⟨h, rfl, rfl⟩

end Task

theorem DrainerOk.step {T : Type} (bufferSize : ℕ) {src : Source T} {drainer : DrainerPhase T}
    {wire : Wire T} (h : DrainerOk src wire.channel drainer) :
    DrainerOk src (drainer.step bufferSize src wire).2.channel
      (drainer.step bufferSize src wire).1 := by
  match drainer, h with
  | .fetching (e :: rest), h => exact h
  | .fetching [], h =>
    have hall : wire.channel.sent = src.elements := (List.append_nil _).symm.trans h.1
    unfold DrainerPhase.step
    cases hend : src.ending with
    | ok u => exact hall
    | error f => trivial
  | .sending e rest, h =>
    unfold DrainerPhase.step
    dsimp only
    split_ifs with hdropped
    · trivial
    · cases hsend : wire.channel.trySend bufferSize e with
      | none => exact h
      | some channel =>
        refine ⟨?_, (Channel.closed_trySend hsend).trans h.2⟩
        rw [Channel.sent_trySend hsend, List.append_assoc]
        exact h.1
  | .returned r, h => exact h

/-! ## All tasks -/

namespace Pipeline

/-- Every task has sent what it makes of the elements it has taken. -/
def Inv (refusing : Prop) {T : Type} : Pipeline T → Prop
  | source src drainer wire => DrainerOk src wire.channel drainer
  | apply _ upstream op task wire =>
    upstream.Inv refusing ∧ TaskOk refusing op upstream.wire.channel wire.channel task.phase

/-- If the `n`-th task from the end is about to call its collector, the call succeeds. -/
def Accepted (cfg : PipelineConfig) {T : Type} : Pipeline T → ℕ → Prop
  | source _ _ _, _ => True
  | apply _ _ _ task wire, 0 => task.Accepted cfg wire
  | apply _ upstream _ _ _, n + 1 => upstream.Accepted cfg n

variable {refusing : Prop} {T : Type} {p : Pipeline T}

theorem wire_start (stream : DataStream T) : stream.start.wire = {} := by
  cases stream <;> rfl

theorem inv_start (refusing : Prop) {T : Type} (stream : DataStream T) :
    stream.start.Inv refusing := by
  induction stream with
  | source src => exact ⟨List.nil_append _, rfl⟩
  | apply name upstream op ih =>
    refine ⟨ih, ?_⟩
    show op.feed upstream.start.wire.channel.taken = _ ∧ _
    rw [wire_start]
    exact ⟨rfl, rfl⟩

theorem Inv.setWire (h : p.Inv refusing) {w : Wire T}
    (hsent : w.channel.sent = p.wire.channel.sent)
    (hclosed : w.channel.closed = p.wire.channel.closed) : (p.setWire w).Inv refusing := by
  cases p with
  | source src drainer wire =>
    show DrainerOk src w.channel drainer
    match drainer, h with
    | .fetching rest, h => exact ⟨hsent ▸ h.1, hclosed.trans h.2⟩
    | .sending e rest, h => exact ⟨hsent ▸ h.1, hclosed.trans h.2⟩
    | .returned (.ok ()), h => exact hsent.trans h
    | .returned (.error f), _ => trivial
  | apply name upstream op task wire => exact ⟨h.1, h.2.frame rfl id hsent hclosed⟩

theorem Inv.channel_step (h : p.Inv refusing) (hclosed : p.wire.channel.closed = true)
    (cfg : PipelineConfig) (token : Bool) (arm : TaskArm) (n : ℕ) :
    (p.step cfg token arm n).wire.channel = p.wire.channel := by
  have hopen : p.wire.channel.closed ≠ false := by
    rw [hclosed]
    exact Bool.noConfusion
  cases p with
  | source src drainer wire =>
    cases n with
    | succ n => rfl
    | zero =>
      match drainer, h with
      | .fetching rest, h => exact absurd h.2 hopen
      | .sending e rest, h => exact absurd h.2 hopen
      | .returned r, _ => rfl
  | apply name upstream op task wire =>
    cases n with
    | succ n => rfl
    | zero =>
      obtain ⟨phase, cancelled⟩ := task
      have htask := h.2
      match phase, htask with
      | .polling s, htask => exact absurd htask.2 hopen
      | .calling call, htask => exact absurd htask.1 hopen
      | .returned r, _ => cases arm <;> rfl

theorem Inv.disconnected_step (h : p.Inv refusing) (hdis : p.wire.channel.Disconnected)
    (cfg : PipelineConfig) (token : Bool) (arm : TaskArm) (n : ℕ) :
    (p.step cfg token arm n).wire.channel.Disconnected := by
  rw [h.channel_step hdis.1]
  exact hdis

/-- **Every step of every task keeps the invariant.** -/
theorem Inv.step (h : p.Inv refusing) (hdet : refusing → p.stream.Deterministic)
    (cfg : PipelineConfig) (token : Bool) (arm : TaskArm) (n : ℕ)
    (haccepted : refusing ∨ p.Accepted cfg n) : (p.step cfg token arm n).Inv refusing := by
  induction p generalizing n with
  | source src drainer wire =>
    cases n with
    | zero => exact DrainerOk.step _ h
    | succ n => exact h
  | apply name upstream op task wire ih =>
    cases n with
    | zero =>
      obtain ⟨htask, hsent, hclosed⟩ := h.2.step (fun hr => (hdet hr).2) cfg token arm haccepted
      refine ⟨h.1.setWire hsent hclosed, ?_⟩
      rw [wire_setWire]
      exact htask
    | succ n =>
      exact ⟨ih h.1 (fun hr => (hdet hr).1) n haccepted,
        h.2.frame (taken_step cfg token arm upstream n)
          (fun hdis => h.1.disconnected_step hdis cfg token arm n) rfl rfl⟩

/-- **If all tasks have returned `Ok`, the output of the chain was sent.** -/
theorem Inv.sent_eq (h : p.Inv refusing) (hok : ∀ handle ∈ p.handles, handle.2 = some (.ok ())) :
    p.wire.channel.sent = p.stream.output := by
  induction p with
  | source src drainer wire =>
    have hreturned := hok _ (List.mem_singleton_self _)
    match drainer, h with
    | .fetching rest, _ => cases hreturned
    | .sending e rest, _ => cases hreturned
    | .returned (.ok ()), h => exact h
    | .returned (.error f), _ => cases hreturned
  | apply name upstream op task wire ih =>
    have hup := ih h.1 fun handle hmem => hok handle (List.mem_append_left _ hmem)
    have hreturned := hok _ (List.mem_append_right _ (List.mem_singleton_self _))
    obtain ⟨phase, cancelled⟩ := task
    have htask := h.2
    match phase, htask with
    | .polling s, _ => cases hreturned
    | .calling call, _ => cases hreturned
    | .returned (.error f), _ => cases hreturned
    | .returned (.ok ()), htask =>
      -- the task has taken everything that was sent to it
      have hall : upstream.wire.channel.taken = upstream.stream.output :=
        (Channel.sent_of_disconnected htask.2).symm.trans hup
      show wire.channel.sent = (op.feed upstream.stream.output).1
      rw [← hall]
      exact htask.1.symm

end Pipeline

end Flume
