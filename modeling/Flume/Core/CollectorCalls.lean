import Flume.Core.Operator
import Flume.Core.Process

/-!
# Calls with a collector as operators of a task

The window and join operators were modelled by their calls with an arbitrary collector. A task hands
its operator a collector that may have to wait and that may fail, and goes on when it has answered;
a call is then a program that emits.

* `Replays`: a call does to any collector what it has done to the recording one, element by element,
  and ends with the first error of the collector; rules for sequences and loops;
* `CollectorCalls`: the calls of an object; `CollectorCalls.operator`: the object as an operator;
* **`onto_process`**: run against any collector, the operator's programs are the calls;
* **`feed_operator`**: what the operator emits for a list of elements.
-/

namespace Flume

open Emitters Fallible
open WindowOperator (checked onCollector returned)

variable {O C In Out Iter α β : Type}

/-! ## Collectors -/

theorem push_testCollector (e : StreamElement Out) (out : List (StreamElement Out)) :
    ((TestCollector Out).push e).runOn out = (.ok (), out ++ [e]) := by
  cases e <;> rfl

theorem forM_push_testCollector (es out : List (StreamElement Out)) :
    (es.forM (TestCollector Out).push).runOn out = (.ok (), out ++ es) := by
  induction es generalizing out with
  | nil => rw [runOn_forM_nil, List.append_nil]
  | cons e es ih =>
    rw [runOn_forM_cons, runOn_bind_ok (push_testCollector e out), ih, List.append_assoc]
    rfl

/-! ## A call and its recording -/

/-- After `new` was pushed to the collector in the state `c`: how a call ends that was to return `r`
and to leave the object `op`. -/
def Resumes (collector : Collector C Out) (new : List (StreamElement Out)) (c : C)
    (r : Except Failure α) (op : O) (ended : Except Failure α × (O × C)) : Prop :=
  ((new.forM collector.push).runOn c).1 = .ok () ∧
      ended = (r, (op, ((new.forM collector.push).runOn c).2)) ∨
    ∃ e op', ((new.forM collector.push).runOn c).1 = .error e ∧
      ended = (.error (.error e), (op', ((new.forM collector.push).runOn c).2))

/-- From the object `op`, the call `x` does to a collector in the state `c` what `y` has done to the
recording one. -/
def ReplaysAt (collector : Collector C Out) (x : Fallible Failure (O × C) α)
    (y : Fallible Failure (O × List (StreamElement Out)) α) (op : O) (c : C)
    (out : List (StreamElement Out)) : Prop :=
  ∃ new, (y.runOn (op, out)).2.2 = out ++ new ∧
    Resumes collector new c (y.runOn (op, out)).1 (y.runOn (op, out)).2.1 (x.runOn (op, c))

/-- The call does to a collector what it has done to the recording one. -/
def Replays (collector : Collector C Out) (x : Fallible Failure (O × C) α)
    (y : Fallible Failure (O × List (StreamElement Out)) α) : Prop :=
  ∀ op c out, ReplaysAt collector x y op c out

section Replays

variable {collector : Collector C Out} {op : O} {c : C} {out : List (StreamElement Out)}
  {x : Fallible Failure (O × C) α} {y : Fallible Failure (O × List (StreamElement Out)) α}
  {f : α → Fallible Failure (O × C) β} {g : α → Fallible Failure (O × List (StreamElement Out)) β}

theorem ReplaysAt.quiet {r : Except Failure α} {op' : O} (hx : x.runOn (op, c) = (r, (op', c)))
    (hy : y.runOn (op, out) = (r, (op', out))) : ReplaysAt collector x y op c out :=
  ⟨[], by rw [hy, List.append_nil], .inl ⟨rfl, by rw [hx, hy]; rfl⟩⟩

theorem replays_pure (a : α) : Replays collector (pure a : Fallible Failure (O × C) α) (pure a) :=
  fun _ _ _ => .quiet rfl rfl

theorem replays_checked (a : Except Panic α) :
    Replays collector (checked a : Fallible Failure (O × C) α) (checked a) := by
  intro op c out
  cases a <;> exact .quiet rfl rfl

theorem replays_modify (h : O → O) :
    Replays collector (modify fun s => (h s.1, s.2) : Fallible Failure (O × C) PUnit)
      (modify fun s => (h s.1, s.2)) := fun _ _ _ => .quiet rfl rfl

/-- **A call of the collector.** -/
theorem replays_push (e : StreamElement Out) :
    Replays collector (onCollector (collector.push e) : Fallible Failure (O × C) Unit)
      (onCollector ((TestCollector Out).push e)) := by
  intro op c out
  have hrecorded : (onCollector ((TestCollector Out).push e) : Fallible Failure (O × _) Unit).runOn
      (op, out) = (.ok (), (op, out ++ [e])) := by cases e <;> rfl
  refine ⟨[e], by rw [hrecorded], ?_⟩
  unfold Resumes
  rw [runOn_forM_singleton, hrecorded]
  rcases hpush : (collector.push e).runOn c with ⟨er | ⟨⟩, c'⟩
  · refine .inr ⟨er, op, rfl, ?_⟩
    unfold onCollector returned
    rw [runOn_bind_ok runOn_get, runOn_bind_ok runOn_set]
    dsimp only
    rw [hpush]
    rfl
  · refine .inl ⟨rfl, ?_⟩
    unfold onCollector returned
    rw [runOn_bind_ok runOn_get, runOn_bind_ok runOn_set]
    dsimp only
    rw [hpush]
    rfl

/-- **One call after another.** If the collector fails in the first one, the second one is not made,
whatever the recording goes on with. -/
theorem ReplaysAt.bind (h : ReplaysAt collector x y op c out)
    (hf : ∀ a, Replays collector (f a) (g a)) :
    ReplaysAt collector (x >>= f) (y >>= g) op c out := by
  obtain ⟨new, hnew, hx⟩ := h
  rcases hy : y.runOn (op, out) with ⟨er | a, op₁, out₁⟩
  · rw [hy] at hnew hx
    refine ⟨new, by rw [runOn_bind_error hy]; exact hnew, ?_⟩
    rw [runOn_bind_error hy]
    rcases hx with ⟨hok, hx⟩ | ⟨e, op', herr, hx⟩
    · exact .inl ⟨hok, runOn_bind_error hx f⟩
    · exact .inr ⟨e, op', herr, runOn_bind_error hx f⟩
  · rw [hy] at hnew hx
    obtain rfl : out₁ = out ++ new := hnew
    rw [ReplaysAt, runOn_bind_ok hy]
    obtain ⟨new', hnew', hx'⟩ := hf a op₁ ((new.forM collector.push).runOn c).2 (out ++ new)
    refine ⟨new ++ new', by rw [hnew', List.append_assoc], ?_⟩
    rcases hx with ⟨hok, hx⟩ | ⟨e, op', herr, hx⟩
    · have hpushed : (new.forM collector.push).runOn c =
          (.ok (), ((new.forM collector.push).runOn c).2) := Prod.ext hok rfl
      unfold Resumes
      rw [runOn_bind_ok hx, runOn_forM_append_ok hpushed]
      exact hx'
    · have hpushed : (new.forM collector.push).runOn c =
          (.error e, ((new.forM collector.push).runOn c).2) := Prod.ext herr rfl
      refine .inr ⟨e, op', ?_, ?_⟩
      · rw [runOn_forM_append_error hpushed]
      · rw [runOn_forM_append_error hpushed]
        exact runOn_bind_error hx f

theorem Replays.bind (h : Replays collector x y) (hf : ∀ a, Replays collector (f a) (g a)) :
    Replays collector (x >>= f) (y >>= g) := fun op c out => (h op c out).bind hf

theorem replays_get_bind {f : O × C → Fallible Failure (O × C) β}
    {g : O × List (StreamElement Out) → Fallible Failure (O × List (StreamElement Out)) β}
    (h : ∀ op c out, ReplaysAt collector (f (op, c)) (g (op, out)) op c out) :
    Replays collector (get >>= f) (get >>= g) := h

theorem replays_set_bind {f : PUnit → Fallible Failure (O × C) β}
    {g : PUnit → Fallible Failure (O × List (StreamElement Out)) β} {op' : O}
    (h : ReplaysAt collector (f ⟨⟩) (g ⟨⟩) op' c out) :
    ReplaysAt collector (set (op', c) >>= f) (set (op', out) >>= g) op c out := h

theorem replays_forM {γ : Type} {f : γ → Fallible Failure (O × C) PUnit}
    {g : γ → Fallible Failure (O × List (StreamElement Out)) PUnit}
    (h : ∀ a, Replays collector (f a) (g a)) (as : List γ) :
    Replays collector (as.forM f) (as.forM g) := by
  induction as with
  | nil => exact replays_pure _
  | cons a as ih => exact (h a).bind fun _ => ih

/-- **What is recorded does not depend on what was recorded before.** -/
theorem Replays.record {y : Fallible Failure (O × List (StreamElement Out)) α}
    (h : Replays (TestCollector Out) y y) (op : O) (out : List (StreamElement Out)) :
    y.runOn (op, out) = ((y.runOn (op, [])).1,
      ((y.runOn (op, [])).2.1, out ++ (y.runOn (op, [])).2.2)) := by
  obtain ⟨new, hnew, hresumes⟩ := h op out []
  rw [List.nil_append] at hnew
  rw [hnew]
  rcases hresumes with ⟨-, hended⟩ | ⟨e, op', herr, -⟩
  · rw [forM_push_testCollector] at hended
    exact hended
  · rw [forM_push_testCollector] at herr
    cases herr

end Replays

/-! ## Operators of a task -/

/-- A program, run against a collector in the state `c`. -/
def Call.onto (collector : Collector C Out) :
    Emitter (StreamElement Out) TaskFailure α → C → Except TaskFailure α × C
  | .done r, c => (r, c)
  | .emit e next, c =>
    Call.onto collector (next (((collector.push e).runOn c).1.mapError .error))
      ((collector.push e).runOn c).2

theorem Call.onto_emitAll (collector : Collector C Out) (es : List (StreamElement Out))
    (r : Except TaskFailure α) (c : C) :
    Call.onto collector (Emitter.emitAll es r) c = match (es.forM collector.push).runOn c with
      | (.ok _, c') => (r, c')
      | (.error e, c') => (.error (.error e), c') := by
  induction es generalizing c with
  | nil => rfl
  | cons e es ih =>
    rw [runOn_forM_cons, runOn_bind]
    have hsend : Call.onto collector (Emitter.emitAll (e :: es) r) c = Call.onto collector
        (Emitter.bind (.done (((collector.push e).runOn c).1.mapError .error))
          fun _ => Emitter.emitAll es r) ((collector.push e).runOn c).2 := rfl
    rw [hsend]
    rcases (collector.push e).runOn c with ⟨er | ⟨⟩, c'⟩
    · rfl
    · exact ih c'

/-- The calls of an object for an element, with any collector. -/
structure CollectorCalls (O In Iter Out : Type) where
  process : {C : Type} → Collector C Out → StreamElement In → Iter → Fallible Failure (O × C) Unit
  replays : ∀ {C : Type} (collector : Collector C Out) (e : StreamElement In) (iter : Iter),
    Replays collector (process collector e iter) (process (TestCollector Out) e iter)

/-- A panic is reported by the join handle of the task; `joinErr` is the message. -/
def Failure.taskFailure (joinErr : Panic → String) : Failure → TaskFailure
  | .error e => .error e
  | .panic p => .panicked (joinErr p)

/-- The end of a call. -/
def ended (joinErr : Panic → String) : Except Failure Unit → α → Except TaskFailure α
  | .ok (), a => .ok a
  | .error f, _ => .error (f.taskFailure joinErr)

namespace CollectorCalls

variable (calls : CollectorCalls O In Iter Out) (joinErr : Panic → String) (iters : ℕ → Iter)

/-- The recording of a call for an element. -/
def recorded (s : O × ℕ) (e : StreamElement In) :
    Except Failure Unit × (O × List (StreamElement Out)) :=
  (calls.process (TestCollector Out) e (iters s.2)).runOn (s.1, [])

/-- A call for an element, as a program. -/
def call (s : O × ℕ) (e : StreamElement In) : Call Out (O × ℕ) :=
  Emitter.emitAll (calls.recorded iters s e).2.2
    (ended joinErr (calls.recorded iters s e).1 ((calls.recorded iters s e).2.1, s.2 + 1))

/-- The object as an operator; its `n`-th call visits maps in the order `iters n`. -/
def operator (object : O) : Operator In Out where
  State := O × ℕ
  initial := (object, 0)
  processRecord s record := calls.call joinErr iters s (.record record)
  processWatermark s watermark := calls.call joinErr iters s (.watermark watermark)
  processBarrier s barrier := calls.call joinErr iters s (.checkpointBarrier barrier)

theorem deterministic_operator (object : O) :
    (calls.operator joinErr iters object).Deterministic := by
  intro s e
  cases e <;> exact (Emitter.handsOn_emitAll _ _).deterministic

theorem onto_call (collector : Collector C Out) (s : O × ℕ) (e : StreamElement In) (c : C) :
    Call.onto collector (calls.call joinErr iters s e) c =
      let ran := (calls.process collector e (iters s.2)).runOn (s.1, c)
      (ended joinErr ran.1 (ran.2.1, s.2 + 1), ran.2.2) := by
  obtain ⟨new, hnew, hresumes⟩ := calls.replays collector e (iters s.2) s.1 c []
  rw [List.nil_append] at hnew
  rw [call, Call.onto_emitAll]
  unfold recorded
  rw [hnew]
  rcases hresumes with ⟨hok, hended⟩ | ⟨er, op', herr, hended⟩
  · rw [hended]
    rcases hpush : (new.forM collector.push).runOn c with ⟨_ | _, c'⟩
    · rw [hpush] at hok
      cases hok
    · rfl
  · rw [hended]
    rcases hpush : (new.forM collector.push).runOn c with ⟨_ | _, c'⟩
    · rw [hpush] at herr
      cases herr
      rfl
    · rw [hpush] at herr
      cases herr

/-- **Run against any collector, the programs of the operator are the calls of the object.** -/
theorem onto_process (collector : Collector C Out) (object : O) (s : O × ℕ) (e : StreamElement In)
    (c : C) :
    Call.onto collector ((calls.operator joinErr iters object).process s e) c =
      let ran := (calls.process collector e (iters s.2)).runOn (s.1, c)
      (ended joinErr ran.1 (ran.2.1, s.2 + 1), ran.2.2) := by
  cases e <;> exact calls.onto_call joinErr iters collector s _ c

/-! ## What the operator emits -/

/-- A list of elements, the `n`-th one with the order in which its call visits maps. -/
def numbered (es : List (StreamElement In)) : List (StreamElement In × Iter) :=
  es.zipIdx.map fun p => (p.1, iters p.2)

/-- The calls for a list of elements, until one fails. -/
def run (collector : Collector C Out) (es : List (StreamElement In × Iter)) :
    Fallible Failure (O × C) Unit :=
  es.forM fun p => calls.process collector p.1 p.2

theorem feed_from (op : O) (n : ℕ) (es : List (StreamElement In)) :
    Emitter.feed (calls.call joinErr iters) (op, n) es =
      let ran := (calls.run (TestCollector Out) ((es.zipIdx n).map fun p => (p.1, iters p.2))).runOn
        (op, [])
      (ran.2.2, ended joinErr ran.1 (ran.2.1, n + es.length)) := by
  induction es generalizing op n with
  | nil => rfl
  | cons e es ih =>
    have hresult : (calls.call joinErr iters (op, n) e).result =
        ended joinErr (calls.recorded iters (op, n) e).1
          ((calls.recorded iters (op, n) e).2.1, n + 1) := Emitter.result_emitAll _ _
    have hemissions : (calls.call joinErr iters (op, n) e).emissions =
        (calls.recorded iters (op, n) e).2.2 := Emitter.emissions_emitAll _ _
    have hrecorded : (calls.process (TestCollector Out) e (iters n)).runOn (op, []) =
        calls.recorded iters (op, n) e := rfl
    rw [List.zipIdx_cons, List.map_cons, Emitter.feed, hresult, hemissions, run, runOn_forM_cons,
      runOn_bind, hrecorded]
    rcases calls.recorded iters (op, n) e with ⟨f | ⟨⟩, op', out⟩
    · rfl
    · have hrecord := (replays_forM (fun p : StreamElement In × Iter =>
        calls.replays (TestCollector Out) p.1 p.2)
        ((es.zipIdx (n + 1)).map fun p => (p.1, iters p.2))).record op' out
      dsimp only [ended] at ih ⊢
      rw [ih, hrecord, List.length_cons, Nat.add_right_comm, Nat.add_assoc]
      rfl

/-- **What the operator emits for a list of elements** is what the calls record. -/
theorem feed_operator (object : O) (es : List (StreamElement In)) :
    (calls.operator joinErr iters object).feed es =
      let ran := (calls.run (TestCollector Out) (numbered iters es)).runOn (object, [])
      (ran.2.2, ended joinErr ran.1 (ran.2.1, es.length)) := by
  have hprocess : (calls.operator joinErr iters object).process = calls.call joinErr iters := by
    funext s e
    cases e <;> rfl
  have hfeed := calls.feed_from joinErr iters object 0 es
  rw [Nat.zero_add, ← hprocess] at hfeed
  exact hfeed

end CollectorCalls

/-! ## Elements with orders -/

section Numbered

open CollectorCalls (numbered)

variable {I : Type} {f : StreamElement In → Iter → I} (iters : ℕ → Iter)

theorem fst_numbered (es : List (StreamElement In)) : (numbered iters es).map Prod.fst = es := by
  unfold numbered
  rw [List.map_map]
  exact List.zipIdx_map_fst 0 es

theorem filterMap_numbered {g : I → Option β} {g' : StreamElement In → Option β}
    (h : ∀ e iter, g (f e iter) = g' e) (es : List (StreamElement In)) :
    ((numbered iters es).map fun p => f p.1 p.2).filterMap g = es.filterMap g' := by
  calc ((numbered iters es).map fun p => f p.1 p.2).filterMap g
      = (numbered iters es).filterMap fun p => g (f p.1 p.2) := List.filterMap_map
    _ = (numbered iters es).filterMap fun p => g' p.1 :=
        List.filterMap_congr fun p _ => h p.1 p.2
    _ = ((numbered iters es).map Prod.fst).filterMap g' :=
        (List.filterMap_map (f := Prod.fst) (g := g')).symm
    _ = es.filterMap g' := by rw [fst_numbered]

theorem pairwise_numbered {P : I → I → Prop}
    (h : ∀ e e' iter iter', e.Precedes e' → P (f e iter) (f e' iter'))
    {es : List (StreamElement In)} (hes : StreamElement.KeepsPromise es) :
    ((numbered iters es).map fun p => f p.1 p.2).Pairwise P := by
  rw [List.pairwise_map]
  rw [← fst_numbered iters es, StreamElement.KeepsPromise, List.pairwise_map] at hes
  exact hes.imp fun {p q} hpq => h _ _ _ _ hpq

end Numbered

end Flume
