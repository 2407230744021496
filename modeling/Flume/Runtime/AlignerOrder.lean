import Flume.Runtime.AlignerLoss

/-!
# The aligner keeps the order of each input

What an input has delivered has been output or is in its buffer, in the order in which it was sent,
for any number of inputs.

* `source`, `attributed`: the outputs of a run, each with the input that its element comes from;
* `Fresh`: an input that is polled and not blocked has an empty buffer;
* `Ordered`: the elements output from an input, and then its buffer, are those received from it;
* **`barrierAligner_conserves`**: at every point of a run, what was output from an input, its buffer
  and what it has not delivered yet are exactly what was sent on it.
-/

namespace Flume.AlignerTask

open Channels

variable {T : Type} {n : ℕ}

/-! ## Where an output comes from -/

/-- The input that the next step takes an element from: the one at which the drain loop stops, or
the one whose channel is polled. -/
def source (s : AlignerTask T n) : Option (Fin n) :=
  if s.pc = .idle then
    if h : s.poll.aligner.drainIndex < n then some ⟨s.poll.aligner.drainIndex, h⟩ else none
  else s.polledInput

/-- What a step outputs, with the input that it comes from. -/
def outputOf (s : AlignerTask T n) (ev : AlignerEvent T n) :
    List (Option (Fin n) × AlignerOutput T) :=
  ((s.step ev).outputs.drop s.outputs.length).map fun out => (s.source, out)

/-- The outputs of a run, with the inputs that they come from. -/
def attributed (es : List (AlignerEvent T n)) : List (Option (Fin n) × AlignerOutput T) :=
  Runs.emitted step outputOf (init T n) es

/-- The elements that were output from input `i`. -/
def outputFrom (i : Fin n) (outputs : List (Option (Fin n) × AlignerOutput T)) :
    List (StreamElement T) :=
  outputs.filterMap fun o => if o.1 = some i then o.2.element? else none

/-- The elements of a stream that are not barriers, in order. -/
def nonBarriers (l : List (StreamElement T)) : List (StreamElement T) :=
  l.filter fun e => e.barrier?.isNone

section Lists

variable {i j : Fin n} {outputs : List (Option (Fin n) × AlignerOutput T)} {e : StreamElement T}

theorem outputFrom_append (outputs' : List (Option (Fin n) × AlignerOutput T)) :
    outputFrom i (outputs ++ outputs') = outputFrom i outputs ++ outputFrom i outputs' :=
  List.filterMap_append

theorem outputFrom_element :
    outputFrom i [(some j, AlignerOutput.element e)] = if i = j then [e] else [] := by
  by_cases hij : i = j
  · simp [outputFrom, AlignerOutput.element?, hij]
  · simp [outputFrom, hij, Ne.symm hij]

theorem outputFrom_barrier (src : Option (Fin n)) (b : CheckpointBarrier) :
    outputFrom i [(src, AlignerOutput.barrierAligned (T := T) b)] = [] := by
  simp [outputFrom, AlignerOutput.element?]

theorem nonBarriers_append (l m : List (StreamElement T)) :
    nonBarriers (l ++ m) = nonBarriers l ++ nonBarriers m := List.filter_append ..

theorem nonBarriers_element (he : e.barrier? = none) : nonBarriers [e] = [e] := by
  simp [nonBarriers, he]

theorem nonBarriers_barrier (b : CheckpointBarrier) :
    nonBarriers [(.checkpointBarrier b : StreamElement T)] = [] := by
  simp [nonBarriers]

end Lists

theorem source_of_idle {s : AlignerTask T n} {i : Fin n} (hpc : s.pc = .idle)
    (hd : s.poll.aligner.drainIndex = i) : s.source = some i := by
  have hlt : s.poll.aligner.drainIndex < n := by rw [hd]; exact i.2
  unfold source
  rw [if_pos hpc, dif_pos hlt]
  exact congrArg some (Fin.ext hd)

theorem source_of_polling {s : AlignerTask T n} (hpc : s.pc ≠ .idle) :
    s.source = s.polledInput := if_neg hpc

theorem outputOf_eq {s : AlignerTask T n} {ev : AlignerEvent T n} {new : List (AlignerOutput T)}
    (h : (s.step ev).outputs = s.outputs ++ new) :
    outputOf s ev = new.map fun out => (s.source, out) := by
  rw [outputOf, h, List.drop_left]

/-! ## Inputs that are polled -/

/-- An input that is polled and not blocked has an empty buffer, and a single input has one
always. -/
structure Fresh (s : AlignerTask T n) : Prop where
  polling : s.pc ≠ .idle → ∀ i, s.aligner.barrierReceived i = false →
    s.aligner.blockedBuffers i = []
  single : s.pc = .single → ∀ i, s.aligner.blockedBuffers i = []

/-- A task with one input passes everything through. -/
structure PassesThrough (s : AlignerTask T n) : Prop where
  pc : s.pc = .idle ∨ s.pc = .single
  buffers : ∀ i, s.aligner.blockedBuffers i = []

theorem PassesThrough.poll {s : AlignerTask T n} (hn : n = 1) (h : PassesThrough s) :
    PassesThrough s.poll := by
  refine poll_rule h fun _ s' hpoll => ?_
  cases hpoll with
  | wait hpc => exact h
  | drain i e rest hpc hi hbuf =>
    rw [h.buffers i] at hbuf
    cases hbuf
  | drained d => exact ⟨Or.inr (if_pos hn), h.buffers⟩
  | single i e c => exact ⟨Or.inl rfl, h.buffers⟩
  | skip pc hpc => exact absurd h.pc (not_or.mpr hpc)
  | receive i e c hpc => exact absurd h.pc (not_or.mpr hpc)
  | finish => exact ⟨h.pc, h.buffers⟩

theorem PassesThrough.step {s : AlignerTask T n} (hn : n = 1) (h : PassesThrough s)
    (ev : AlignerEvent T n) : PassesThrough (s.step ev) := by
  cases ev with
  | send i e => exact ⟨h.pc, h.buffers⟩
  | close i => exact ⟨h.pc, h.buffers⟩
  | poll => exact h.poll hn

/-- **Whatever the number of inputs.** -/
theorem fresh_run (es : List (AlignerEvent T n)) : Fresh (run es) := by
  rcases Nat.lt_trichotomy n 1 with hn | hn | hn
  · have hnone : ∀ i : Fin n, False := fun i => absurd i.2 (by omega)
    exact ⟨fun _ i => (hnone i).elim, fun _ i => (hnone i).elim⟩
  · have hpass : PassesThrough (run es) :=
      Runs.exec_invariant (fun _ ev h => h.step hn ev) ⟨Or.inl rfl, fun _ => rfl⟩ es
    exact ⟨fun _ i _ => hpass.buffers i, fun _ => hpass.buffers⟩
  · exact ⟨fun hpc _ hi => (drains_run hn es).buffer_of_open hpc hi,
      fun hpc => absurd hpc (counted_run hn es).multi⟩

/-! ## The order of an input -/

/-- Each output comes from one input; the elements output from an input, and then those in its
buffer, are those that were received from it. -/
structure Ordered (s : AlignerTask T n) (outputs : List (Option (Fin n) × AlignerOutput T)) :
    Prop where
  total : outputs.map Prod.snd = s.outputs
  owned : ∀ o ∈ outputs, o.1.isSome
  order : ∀ i, outputFrom i outputs ++ s.aligner.blockedBuffers i = nonBarriers (s.taken i)

variable {s s' : AlignerTask T n} {outputs : List (Option (Fin n) × AlignerOutput T)} {i : Fin n}
  {e : StreamElement T} {c : Channel (StreamElement T)}

theorem Ordered.quiet (h : Ordered s outputs) (ho : s'.outputs = s.outputs)
    (horder : ∀ k, ∃ es, s'.aligner.blockedBuffers k = s.aligner.blockedBuffers k ++ es ∧
      nonBarriers (s'.taken k) = nonBarriers (s.taken k) ++ es) : Ordered s' outputs := by
  refine ⟨h.total.trans ho.symm, h.owned, fun k => ?_⟩
  obtain ⟨es, hbuffer, htaken⟩ := horder k
  rw [hbuffer, htaken, ← h.order k, List.append_assoc]

theorem Ordered.frame (h : Ordered s outputs) (ho : s'.outputs = s.outputs)
    (hb : s'.aligner.blockedBuffers = s.aligner.blockedBuffers) (ht : s'.taken = s.taken) :
    Ordered s' outputs :=
  h.quiet ho fun k => ⟨[], by rw [hb, List.append_nil], by rw [ht, List.append_nil]⟩

theorem Ordered.aligned {b : CheckpointBarrier} (h : Ordered s outputs)
    (ho : s'.outputs = s.outputs ++ [.barrierAligned b])
    (hb : s'.aligner.blockedBuffers = s.aligner.blockedBuffers)
    (ht : ∀ k, nonBarriers (s'.taken k) = nonBarriers (s.taken k)) :
    Ordered s' (outputs ++ [(some i, .barrierAligned b)]) := by
  refine ⟨?_, fun o hmem => ?_, fun k => ?_⟩
  · rw [List.map_append, h.total, ho]
    rfl
  · rcases List.mem_append.mp hmem with hmem | hmem
    · exact h.owned o hmem
    · rw [List.mem_singleton.mp hmem]
      rfl
  · rw [outputFrom_append, outputFrom_barrier, List.append_nil, hb, ht]
    exact h.order k

theorem Ordered.element (h : Ordered s outputs) (ho : s'.outputs = s.outputs ++ [.element e])
    (hself : outputFrom i outputs ++ e :: s'.aligner.blockedBuffers i =
      nonBarriers (s'.taken i))
    (hother : ∀ k, k ≠ i → s'.aligner.blockedBuffers k = s.aligner.blockedBuffers k ∧
      s'.taken k = s.taken k) : Ordered s' (outputs ++ [(some i, .element e)]) := by
  refine ⟨?_, fun o hmem => ?_, fun k => ?_⟩
  · rw [List.map_append, h.total, ho]
    rfl
  · rcases List.mem_append.mp hmem with hmem | hmem
    · exact h.owned o hmem
    · rw [List.mem_singleton.mp hmem]
      rfl
  · rw [outputFrom_append, outputFrom_element]
    by_cases hk : k = i
    · subst hk
      rw [if_pos rfl, List.append_assoc]
      exact hself
    · rw [if_neg hk, List.append_nil, (hother k hk).1, (hother k hk).2]
      exact h.order k

theorem nonBarriers_receiving (hc : (s.aligner.inputs i).tryRecv = .item e c)
    (he : e.barrier? = none) :
    nonBarriers ((s.setInput i c).taken i) = nonBarriers (s.taken i) ++ [e] := by
  rw [taken_receiving hc, if_pos rfl, nonBarriers_append, nonBarriers_element he]

theorem nonBarriers_receiving_barrier {b : CheckpointBarrier}
    (hc : (s.aligner.inputs i).tryRecv = .item (.checkpointBarrier b) c) (k : Fin n) :
    nonBarriers ((s.setInput i c).taken k) = nonBarriers (s.taken k) := by
  rw [taken_receiving hc]
  split_ifs with hk
  · rw [nonBarriers_append, nonBarriers_barrier, List.append_nil]
  · rfl

theorem Ordered.passed (h : Ordered s outputs) (hempty : s.aligner.blockedBuffers i = [])
    (hc : (s.aligner.inputs i).tryRecv = .item e c) (he : e.barrier? = none) :
    Ordered { s.setInput i c with pc := .idle, outputs := s.outputs ++ [.element e] }
      (outputs ++ [(some i, .element e)]) := by
  refine h.element rfl ?_ fun k hk => ⟨rfl, ?_⟩
  · change outputFrom i outputs ++ e :: s.aligner.blockedBuffers i =
      nonBarriers ((s.setInput i c).taken i)
    rw [nonBarriers_receiving hc he, ← h.order i, hempty, List.append_nil]
  · change (s.setInput i c).taken k = s.taken k
    rw [taken_receiving hc, if_neg hk]

/-- **An element is received** and output, buffered, or it is a barrier. -/
theorem Ordered.receives (h : Ordered s outputs) (hfresh : Fresh s) (hpc : s.pc ≠ .idle)
    (hc : (s.aligner.inputs i).tryRecv = .item e c) (hr : Receives (s.setInput i c) i e s') :
    ∃ new, s'.outputs = s.outputs ++ new ∧
      Ordered s' (outputs ++ new.map fun out => (some i, out)) := by
  cases hr with
  | aligned b hall =>
    exact ⟨[_], rfl, h.aligned rfl rfl (nonBarriers_receiving_barrier hc)⟩
  | barrier b hopen =>
    refine ⟨[], (List.append_nil _).symm, ?_⟩
    rw [List.map_nil, List.append_nil]
    refine h.quiet rfl fun k => ⟨[], (List.append_nil _).symm, ?_⟩
    rw [List.append_nil]
    exact nonBarriers_receiving_barrier hc k
  | buffered e he hblocked =>
    refine ⟨[], (List.append_nil _).symm, ?_⟩
    rw [List.map_nil, List.append_nil]
    refine h.quiet rfl fun k => ?_
    by_cases hk : k = i
    · subst hk
      exact ⟨[e], Function.update_self .., nonBarriers_receiving hc he⟩
    · refine ⟨[], ?_, ?_⟩
      · rw [List.append_nil]
        exact Function.update_of_ne hk ..
      · change nonBarriers ((s.setInput i c).taken k) = _
        rw [taken_receiving hc, if_neg hk, List.append_nil]
  | passed e he hopen =>
    -- an input that is not blocked has nothing buffered, so its order is kept
    exact ⟨[.element e], rfl, h.passed (hfresh.polling hpc i hopen) hc he⟩

/-- **One step of the task.** -/
theorem Ordered.poll (h : Ordered s outputs) (hfresh : Fresh s) :
    ∃ new, s.poll.outputs = s.outputs ++ new ∧
      Ordered s.poll (outputs ++ new.map fun out => (s.source, out)) := by
  have hquiet : s.poll.outputs = s.outputs →
      s.poll.aligner.blockedBuffers = s.aligner.blockedBuffers → s.poll.taken = s.taken →
        ∃ new, s.poll.outputs = s.outputs ++ new ∧
          Ordered s.poll (outputs ++ new.map fun out => (s.source, out)) := by
    intro ho hb ht
    refine ⟨[], ho.trans (List.append_nil _).symm, ?_⟩
    rw [List.map_nil, List.append_nil]
    exact h.frame ho hb ht
  cases hfin : s.finished with
  | true =>
    have hsame : s.poll = s := if_pos hfin
    exact hquiet (by rw [hsame]) (by rw [hsame]) (by rw [hsame])
  | false =>
    have hpoll := poll_cases s hfin
    have hidle : ∀ i : Fin n, s.pc = .idle → s.poll.aligner.drainIndex = i → s.source = some i :=
      fun _ hpc hd => source_of_idle hpc hd
    have hpolling : s.pc ≠ .idle → s.source = s.polledInput := source_of_polling
    generalize s.poll = s' at hpoll hquiet hidle ⊢
    cases hpoll with
    | wait hpc => exact hquiet rfl rfl rfl
    | drain i e rest hpc hi hbuf hskip =>
      rw [hidle i hpc rfl]
      refine ⟨[.element e], rfl, h.element rfl ?_ fun k hk => ⟨Function.update_of_ne hk .., rfl⟩⟩
      change outputFrom i outputs ++ e :: Function.update s.aligner.blockedBuffers i rest i =
        nonBarriers (s.taken i)
      rw [Function.update_self, ← h.order i, hbuf]
    | drained d => exact hquiet rfl rfl rfl
    | single i e c hpc hin hc =>
      rw [hpolling (by rw [hpc]; exact AlignerPc.noConfusion), hin]
      refine ⟨[BarrierAligner.onReceivedSingle e], rfl, ?_⟩
      cases e with
      | record r => exact h.passed (hfresh.single hpc i) hc rfl
      | watermark w => exact h.passed (hfresh.single hpc i) hc rfl
      | checkpointBarrier b => exact h.aligned rfl rfl (nonBarriers_receiving_barrier hc)
    | skip pc hpc => exact hquiet rfl rfl rfl
    | receive i e c hpc hin hc =>
      rw [hpolling hpc.1, hin]
      exact h.receives hfresh hpc.1 hc (receive_cases _ i e)
    | finish => exact hquiet rfl rfl rfl

theorem Ordered.step (h : Ordered s outputs) (hfresh : Fresh s) (ev : AlignerEvent T n) :
    Ordered (s.step ev) (outputs ++ outputOf s ev) := by
  cases ev with
  | send i e =>
    have hout : (s.step (.send i e)).outputs = s.outputs ++ [] := (List.append_nil _).symm
    have hnone : outputOf s (.send i e) = [] := outputOf_eq hout
    rw [hnone, List.append_nil]
    exact h.frame rfl rfl (taken_setInput_of_eq Channel.taken_send)
  | close i =>
    have hout : (s.step (.close i)).outputs = s.outputs ++ [] := (List.append_nil _).symm
    have hnone : outputOf s (.close i) = [] := outputOf_eq hout
    rw [hnone, List.append_nil]
    exact h.frame rfl rfl (taken_setInput_of_eq Channel.taken_close)
  | poll =>
    obtain ⟨new, houtputs, hordered⟩ := h.poll hfresh
    have hnew : outputOf s .poll = new.map fun out => (s.source, out) := outputOf_eq houtputs
    rw [hnew]
    exact hordered

theorem ordered_run (es : List (AlignerEvent T n)) : Ordered (run es) (attributed es) := by
  induction es using List.reverseRecOn with
  | nil => exact ⟨rfl, fun _ hmem => absurd hmem List.not_mem_nil, fun _ => rfl⟩
  | append_singleton es ev ih =>
    have hrun : run (es ++ [ev]) = (run es).step ev := Runs.exec_concat es ev
    have hattributed : attributed (es ++ [ev]) = attributed es ++ outputOf (run es) ev :=
      Runs.emitted_concat _ es ev
    rw [hrun, hattributed]
    exact ih.step (fresh_run es) ev

/-- **The aligner conserves and orders each input:** what was output from it, its buffer and what it
has not delivered yet are what was sent on it. -/
theorem barrierAligner_conserves (es : List (AlignerEvent T n)) :
    (attributed es).map Prod.snd = (run es).outputs ∧
      (∀ o ∈ attributed es, o.1.isSome) ∧
      ∀ i, outputFrom i (attributed es) ++ (run es).aligner.blockedBuffers i ++
        nonBarriers ((run es).aligner.inputs i).queue = nonBarriers ((run es).sent i) := by
  have h := ordered_run es
  refine ⟨h.total, h.owned, fun i => ?_⟩
  rw [h.order i, ← nonBarriers_append]
  rfl

end Flume.AlignerTask
