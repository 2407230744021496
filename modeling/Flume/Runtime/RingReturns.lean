import Flume.Runtime.RingRefinement

/-!
# The calls of a ring buffer return

Whatever the other end does meanwhile, a `try_send` returns within five steps of the producer, and a
`try_recv` within four of the consumer. A `recv` is as fast if there is a value; once the producer
is dropped it takes at most the two rounds of `try_recv` around its spinning.

* `SendsReturn`, `ReceivesReturn`: a call returns within so many steps, and is one operation of the
  queue, with the result that it returns;
* `ProducerPc.left`, `ConsumerPc.left`: the steps that are left after the next one;
* `Moves`, **`Represents.moves`**: a step of a receive goes on, or returns;
* `sends_return`, `tryRecv_returns`, `recv_returns`, `recv_ends`;
* **`ringBuffer_refines`**: the ring buffer is a bounded FIFO queue, and its calls return.
-/

namespace Flume

open Channels

variable {T : Type}

/-- A step of the producer. -/
def RingEvent.isProducer : RingEvent T → Bool
  | .producer => true
  | _ => false

/-- A step of the consumer. -/
def RingEvent.isConsumer : RingEvent T → Bool
  | .consumer => true
  | _ => false

/-- The sends among the operations. -/
def sendsOf (ops : List (QueueOp T)) : List (QueueOp T) := ops.filter fun op => (sendResult? op).isSome

/-- The receives among the operations. -/
def receivesOf (ops : List (QueueOp T)) : List (QueueOp T) :=
  ops.filter fun op => (recvResult? op).isSome

/-- What a receive from a site is. -/
def RecvSite.op (site : RecvSite) (result : Option T) : QueueOp T :=
  match site with
  | .user => .tryRecv result
  | _ => .recv result

/-- The steps of a `try_send` that are left after the next one, at most. -/
def ProducerPc.left : ProducerPc T → ℕ
  | .check _ => 4
  | .reload _ => 3
  | .write _ => 2
  | .publish _ => 1
  | _ => 0

/-- The steps of a `recv` that are left when a `try_recv` has found nothing, of a dropped producer.
-/
def RecvSite.left : RecvSite → ℕ
  | .user | .drain => 0
  | .fastPath => 2 * spinLimit + 5
  | .spin k => 2 * (spinLimit - 1 - k) + 5
  | .afterWakeup => 5

/-- The steps of a receive that are left after the next one, at most, of a dropped producer. -/
def ConsumerPc.left : ConsumerPc T → ℕ
  | .check site => max 2 site.left + 1
  | .reload site => max 2 site.left
  | .read _ => 1
  | .checkClosed _ => 4
  | _ => 0

/-- The consumer is in a `recv`, and not asleep. -/
def ConsumerPc.InRecv : ConsumerPc T → Prop
  | .check site | .reload site | .read site | .advance site _ => site ≠ .user
  | .checkClosed _ => True
  | _ => False

/-- The steps of a single `try_recv` that are left after the next one, at most. -/
def ConsumerPc.leftHere : ConsumerPc T → ℕ
  | .check _ => 3
  | .reload _ => 2
  | .read _ => 1
  | _ => 0

namespace RingBuffer

/-- A `try_send` returns within five steps of the producer, whatever the consumer does meanwhile,
and is one send of the queue, with that result. -/
def SendsReturn (capacity : U64) (es : List (RingEvent T)) : Prop :=
  ∀ before value rest, es = before ++ .trySend value :: rest →
    (run capacity before).producer = .idle → 5 ≤ rest.countP RingEvent.isProducer →
    ∃ during later result, rest = during ++ later ∧ during.countP RingEvent.isProducer ≤ 5 ∧
      (run capacity (before ++ .trySend value :: during)).producer = .idle ∧
      (run capacity (before ++ .trySend value :: during)).sendResults =
        (run capacity before).sendResults ++ [result] ∧
      ∃ ops, operations capacity (before ++ .trySend value :: during) =
          operations capacity before ++ ops ∧ sendsOf ops = [.trySend value result]

/-- A receive that is called in a state with `P` returns within `bound` steps of the consumer,
whatever the producer does meanwhile, and is one receive of the queue, with that result. -/
def ReceivesReturn (capacity : U64) (es : List (RingEvent T)) (call : RingEvent T) (site : RecvSite)
    (P : RingBuffer T → Prop) (bound : ℕ) : Prop :=
  ∀ before rest, es = before ++ call :: rest → (run capacity before).consumer = .idle →
    P (run capacity before) → bound ≤ rest.countP RingEvent.isConsumer →
    ∃ during later result, rest = during ++ later ∧ during.countP RingEvent.isConsumer ≤ bound ∧
      (run capacity (before ++ call :: during)).consumer = .idle ∧
      (run capacity (before ++ call :: during)).recvResults =
        (run capacity before).recvResults ++ [result.map some] ∧
      ∃ ops, operations capacity (before ++ call :: during) = operations capacity before ++ ops ∧
        receivesOf ops = [site.op result]

variable {n : ℕ} {s : RingBuffer T} {q : Channel T}

theorem run_after (capacity : U64) (before : List (RingEvent T)) (call : RingEvent T)
    (during : List (RingEvent T)) (ev : RingEvent T) :
    run capacity (before ++ call :: (during ++ [ev])) =
      (run capacity (before ++ call :: during)).step ev := by
  have hconcat : before ++ call :: (during ++ [ev]) = (before ++ call :: during) ++ [ev] := by simp
  rw [hconcat]
  exact Runs.exec_concat _ _

/-- The operations of a kind since a call, with those of the next step. -/
theorem operations_after {capacity : U64} {before : List (RingEvent T)} {call : RingEvent T}
    {during : List (RingEvent T)} {kind : QueueOp T → Bool} {done : List (QueueOp T)}
    (h : ∃ ops, operations capacity (before ++ call :: during) = operations capacity before ++ ops ∧
      ops.filter kind = done) (ev : RingEvent T) :
    ∃ ops, operations capacity (before ++ call :: (during ++ [ev])) =
        operations capacity before ++ ops ∧
      ops.filter kind =
        done ++ ((run capacity (before ++ call :: during)).performs ev).filter kind := by
  obtain ⟨ops, hops, rfl⟩ := h
  have hconcat : before ++ call :: (during ++ [ev]) = (before ++ call :: during) ++ [ev] := by simp
  have hnext : operations capacity ((before ++ call :: during) ++ [ev]) =
      operations capacity (before ++ call :: during) ++
        (run capacity (before ++ call :: during)).performs ev := Runs.emitted_concat _ _ _
  refine ⟨ops ++ (run capacity (before ++ call :: during)).performs ev, ?_, List.filter_append ..⟩
  rw [hconcat, hnext, hops, List.append_assoc]

/-! ## Sends -/

/-- Where a `try_send value` stands, with the sends that it has performed. -/
inductive SendAt (value : T) : ProducerPc T → List (QueueOp T) → Prop
  | check : SendAt value (.check value) []
  | reload : SendAt value (.reload value) []
  | write : SendAt value (.write value) []
  | publish : SendAt value (.publish value) []
  | published (w : U64) : SendAt value (.published w) [.trySend value (.ok ())]

theorem producerStep_sendAt {value : T} {p : ProducerPc T} {sent : List (QueueOp T)}
    (hp : s.producer = p) (h : SendAt value p sent) :
    (∃ result, s.producerStep.producer = .idle ∧
        s.producerStep.sendResults = s.sendResults ++ [result] ∧
        sent ++ sendsOf (s.performs .producer) = [.trySend value result]) ∨
      SendAt value s.producerStep.producer (sent ++ sendsOf (s.performs .producer)) ∧
        s.producerStep.producer.left < p.left ∧ s.producerStep.sendResults = s.sendResults := by
  unfold producerStep performs
  rw [hp]
  cases h with
  | check =>
    dsimp only
    split_ifs
    · exact .inr ⟨.reload, show 3 < 4 by omega, rfl⟩
    · exact .inr ⟨.write, show 2 < 4 by omega, rfl⟩
  | reload =>
    dsimp only
    split_ifs
    · exact .inl ⟨.error value, rfl, rfl, rfl⟩
    · exact .inr ⟨.write, show 2 < 3 by omega, rfl⟩
  | write => exact .inr ⟨.publish, show 1 < 2 by omega, rfl⟩
  | publish => exact .inr ⟨.published _, show 0 < 1 by omega, rfl⟩
  | published w =>
    refine .inl ⟨.ok (), rfl, ?_, rfl⟩
    dsimp only

theorem consumerStep_sendResults (s : RingBuffer T) :
    s.consumerStep.sendResults = s.sendResults := by
  have hreturned : ∀ (s : RingBuffer T) site result,
      (s.returned site result).sendResults = s.sendResults := by
    intro s site result
    unfold returned
    split
    · rfl
    · split_ifs <;> rfl
    · rfl
    · rfl
  unfold consumerStep
  split
  · rfl
  · split_ifs <;> rfl
  · split_ifs
    · exact hreturned _ _ _
    · rfl
  · rfl
  · exact hreturned _ _ _
  · split_ifs <;> rfl
  · split_ifs <;> rfl
  · rfl

theorem sendsOf_consumer (s : RingBuffer T) : sendsOf (s.performs .consumer) = [] := by
  unfold performs
  cases s.consumer with
  | reload site =>
    dsimp only
    split_ifs
    · cases site <;> rfl
    · rfl
  | advance site value =>
    cases value with
    | none => rfl
    | some a => cases site <;> rfl
  | _ => rfl

theorem step_trySend_busy (hbusy : s.producer ≠ .idle) (value : T) :
    s.step (.trySend value) = s := by
  unfold step
  cases hp : s.producer with
  | idle => exact absurd hp hbusy
  | _ => exact if_neg Bool.false_ne_true

theorem dropProducer_busy (hbusy : s.producer ≠ .idle) :
    s.step .dropProducer = s ∧ s.performs .dropProducer = [] := by
  unfold step performs
  cases hp : s.producer with
  | idle => exact absurd hp hbusy
  | _ => exact ⟨if_neg Bool.false_ne_true, if_neg Bool.false_ne_true⟩

/-- The other events leave a `try_send` where it is. -/
theorem step_sendAt {value : T} {sent : List (QueueOp T)} (h : SendAt value s.producer sent)
    {ev : RingEvent T} (hev : ev.isProducer = false) :
    (s.step ev).producer = s.producer ∧ (s.step ev).sendResults = s.sendResults ∧
      sendsOf (s.performs ev) = [] := by
  have hbusy : s.producer ≠ .idle := by
    intro hidle
    rw [hidle] at h
    cases h
  cases ev with
  | producer => cases hev
  | trySend value' =>
    rw [step_trySend_busy hbusy]
    exact ⟨rfl, rfl, rfl⟩
  | dropProducer =>
    obtain ⟨hstep, hperforms⟩ := dropProducer_busy hbusy
    rw [hstep, hperforms]
    exact ⟨rfl, rfl, rfl⟩
  | recv =>
    unfold step
    dsimp only
    split_ifs <;> exact ⟨rfl, rfl, rfl⟩
  | tryRecv =>
    unfold step
    dsimp only
    split_ifs <;> exact ⟨rfl, rfl, rfl⟩
  | consumer =>
    exact ⟨(consumerStep_frame s).2, consumerStep_sendResults s, sendsOf_consumer s⟩

/-- **A `try_send` returns** within five steps of the producer. -/
theorem sends_return (capacity : U64) (es : List (RingEvent T)) : SendsReturn capacity es := by
  intro before value rest _ hidle hsteps
  let now := fun during => run capacity (before ++ .trySend value :: during)
  let Sent := fun during sent => ∃ ops, operations capacity (before ++ .trySend value :: during) =
    operations capacity before ++ ops ∧ sendsOf ops = sent
  have hstart : now [] = { run capacity before with producer := .check value } := by
    have hcall : now [] = (run capacity before).step (.trySend value) := Runs.exec_concat _ _
    rw [hcall]
    exact if_pos (by rw [hidle])
  have hgrows : ∀ {during sent}, Sent during sent → ∀ ev,
      Sent (during ++ [ev]) (sent ++ sendsOf ((now during).performs ev)) := operations_after
  let Busy := fun during => ∃ sent, Sent during sent ∧ SendAt value (now during).producer sent ∧
    (now during).sendResults = (run capacity before).sendResults
  let Done := fun during => ∃ result, (now during).producer = .idle ∧
    (now during).sendResults = (run capacity before).sendResults ++ [result] ∧
    Sent during [.trySend value result]
  have hleft : (now []).producer.left = 4 := by rw [hstart]; rfl
  suffices hdone : ∃ during later, rest = during ++ later ∧
      during.countP RingEvent.isProducer ≤ (now []).producer.left + 1 ∧ Done during by
    obtain ⟨during, later, hrest, hcount, result, hdone⟩ := hdone
    rw [hleft] at hcount
    exact ⟨during, later, result, hrest, hcount, hdone⟩
  refine Runs.exists_done _ Busy Done (fun during => (now during).producer.left) ?_ ?_ ?_ ?_
  · rintro during ev post - hev ⟨sent, hsent, hat, hresults⟩
    have hnext : now (during ++ [ev]) = (now during).step ev := run_after ..
    have hgrown := hgrows hsent ev
    cases ev <;> cases hev
    dsimp only [Busy, Done]
    rw [hnext]
    rcases producerStep_sendAt rfl hat with ⟨result, hidle', hresult, hop⟩ | ⟨hat', hleft, hsame⟩
    · exact .inl ⟨result, hidle', hresult.trans (by rw [hresults]), hop ▸ hgrown⟩
    · exact .inr ⟨⟨_, hgrown, hat', hsame.trans hresults⟩, hleft⟩
  · rintro during ev post - hev ⟨sent, hsent, hat, hresults⟩
    have hnext : now (during ++ [ev]) = (now during).step ev := run_after ..
    have hgrown := hgrows hsent ev
    obtain ⟨hproducer, hsame, hnone⟩ := step_sendAt hat hev
    rw [hnone, List.append_nil] at hgrown
    dsimp only [Busy]
    rw [hnext, hproducer]
    exact ⟨⟨sent, hgrown, hat, hsame.trans hresults⟩, le_rfl⟩
  · refine ⟨[], ⟨[], ?_, rfl⟩, ?_, ?_⟩
    · exact Runs.emitted_concat _ _ _
    · rw [hstart]
      exact .check
    · rw [hstart]
  · exact lt_of_lt_of_le (hleft ▸ Nat.lt_succ_self 4) hsteps

/-! ## Receives -/

/-- A step of a receive goes on, or returns a result that is the one of its operation. -/
inductive Moves (s s' : RingBuffer T) : List (QueueOp T) → Prop
  | goes (hbusy : s'.consumer ≠ .idle) (hresults : s'.recvResults = s.recvResults) : Moves s s' []
  | returns (site : RecvSite) (result : Option T) (hsite : s.consumer.site? = some site)
      (hidle : s'.consumer = .idle)
      (hresults : s'.recvResults = s.recvResults ++ [result.map some]) :
      Moves s s' [site.op result]

/-- **A step of a receive** goes on, or returns. -/
theorem Represents.moves (h : Represents n s q) (hbusy : s.consumer ≠ .idle) :
    Moves s s.consumerStep (s.performs .consumer) := by
  have hconsumer := h.consumer
  unfold RingBuffer.consumerStep performs
  cases hc : s.consumer with
  | idle => exact absurd hc hbusy
  | check site =>
    dsimp only
    split_ifs <;> exact .goes (by rintro ⟨⟩) rfl
  | reload site =>
    dsimp only
    split_ifs
    · have hsite : s.consumer.site? = some site := by rw [hc]; rfl
      cases site with
      | user => exact .returns .user none hsite rfl rfl
      | drain => exact .returns .drain none hsite rfl rfl
      | spin k =>
        unfold returned
        dsimp only
        split_ifs <;> exact .goes (by rintro ⟨⟩) rfl
      | fastPath => exact .goes (by rintro ⟨⟩) rfl
      | afterWakeup => exact .goes (by rintro ⟨⟩) rfl
    · exact .goes (by rintro ⟨⟩) rfl
  | read site => exact .goes (by rintro ⟨⟩) rfl
  | advance site value =>
    rw [hc] at hconsumer
    obtain ⟨-, a, rfl, -⟩ := hconsumer
    have hop : site.received a = site.op (some a) := by cases site <;> rfl
    dsimp only
    rw [returned_some, hop]
    exact .returns site (some a) (by rw [hc]; rfl) rfl rfl
  | checkClosed afterWakeup =>
    dsimp only
    split_ifs <;> exact .goes (by rintro ⟨⟩) rfl
  | park =>
    dsimp only
    split_ifs <;> exact .goes (by rintro ⟨⟩) rfl
  | parked => exact .goes (by rw [hc]; rintro ⟨⟩) rfl

/-- What the producer does not disturb. -/
structure Undisturbed (s s' : RingBuffer T) : Prop where
  consumer : s'.consumer = s.consumer
  recvResults : s'.recvResults = s.recvResults
  readSeq : s'.readSeq = s.readSeq
  writeSeq : s.writeSeq ≤ s'.writeSeq
  closed : s.closed = true → s'.closed = true

theorem Undisturbed.refl (s : RingBuffer T) : Undisturbed s s := ⟨rfl, rfl, rfl, le_rfl, id⟩

theorem notifyOne_eq (hawake : s.consumer ≠ .parked) : s.notifyOne = { s with permit := true } := by
  unfold notifyOne
  split
  · rename_i hparked
    generalize s.consumer = c at hawake hparked
    cases c <;> first | exact absurd rfl hawake | cases hparked
  · rfl

theorem producerStep_undisturbed (hawake : s.consumer ≠ .parked)
    (hwrap : ∀ value, s.producer = .publish value → s.writeSeq.val + 1 < 2 ^ 64) :
    Undisturbed s s.producerStep := by
  unfold producerStep
  cases hp : s.producer with
  | check value =>
    dsimp only
    split_ifs <;> exact ⟨rfl, rfl, rfl, le_rfl, id⟩
  | reload value =>
    dsimp only
    split_ifs <;> exact ⟨rfl, rfl, rfl, le_rfl, id⟩
  | publish value =>
    refine ⟨rfl, rfl, rfl, Fin.le_def.mpr ?_, id⟩
    have hval : (s.writeSeq + 1).val = s.writeSeq.val + 1 := by
      rw [Fin.val_add]
      exact Nat.mod_eq_of_lt (hwrap value hp)
    change s.writeSeq.val ≤ (s.writeSeq + 1).val
    omega
  | published w =>
    dsimp only
    rw [notifyOne_eq hawake]
    split_ifs <;> exact ⟨rfl, rfl, rfl, le_rfl, id⟩
  | dropping =>
    dsimp only
    rw [notifyOne_eq hawake]
    exact ⟨rfl, rfl, rfl, le_rfl, id⟩
  | _ => exact ⟨rfl, rfl, rfl, le_rfl, id⟩

theorem receivesOf_producer (s : RingBuffer T) : receivesOf (s.performs .producer) = [] := by
  unfold performs
  cases s.producer with
  | reload value =>
    dsimp only
    split_ifs <;> rfl
  | _ => rfl

theorem step_recv_busy (hbusy : s.consumer ≠ .idle) :
    s.step .recv = s ∧ s.step .tryRecv = s := by
  unfold step
  cases hc : s.consumer with
  | idle => exact absurd hc hbusy
  | _ => exact ⟨if_neg Bool.false_ne_true, if_neg Bool.false_ne_true⟩

/-- The other events leave a receive where it is. -/
theorem step_undisturbed {ev : RingEvent T} (hev : ev.isConsumer = false)
    (hbusy : s.consumer ≠ .idle) (hawake : s.consumer ≠ .parked)
    (hwrap : ∀ value, s.producer = .publish value → s.writeSeq.val + 1 < 2 ^ 64) :
    Undisturbed s (s.step ev) ∧ receivesOf (s.performs ev) = [] := by
  cases ev with
  | consumer => cases hev
  | trySend value =>
    refine ⟨?_, rfl⟩
    unfold step
    dsimp only
    split_ifs <;> exact ⟨rfl, rfl, rfl, le_rfl, id⟩
  | dropProducer =>
    by_cases hidle : s.producer = .idle
    · have hstep : s.step .dropProducer = { s with closed := true, producer := .dropping } :=
        if_pos (by rw [hidle])
      have hperforms : s.performs .dropProducer = [.close] := if_pos (by rw [hidle])
      rw [hstep, hperforms]
      exact ⟨⟨rfl, rfl, rfl, le_rfl, fun _ => rfl⟩, rfl⟩
    · obtain ⟨hstep, hperforms⟩ := dropProducer_busy hidle
      rw [hstep, hperforms]
      exact ⟨.refl s, rfl⟩
  | recv =>
    rw [(step_recv_busy hbusy).1]
    exact ⟨.refl s, rfl⟩
  | tryRecv =>
    rw [(step_recv_busy hbusy).2]
    exact ⟨.refl s, rfl⟩
  | producer => exact ⟨producerStep_undisturbed hawake hwrap, receivesOf_producer s⟩

/-- **Rule for receives.** A call that is `Going` until it returns, and that each step of the
consumer brings closer to its end, returns. -/
theorem receives_return {capacity : U64} {es : List (RingEvent T)}
    (hsends : es.countP RingEvent.isTrySend < 2 ^ 64) {call : RingEvent T} {site : RecvSite}
    {P : RingBuffer T → Prop} {bound : ℕ} (Going : RingBuffer T → Prop) (left : ConsumerPc T → ℕ)
    (hstart : ∀ s, s.consumer = .idle → P s → Going (s.step call) ∧
      left (s.step call).consumer < bound ∧ (s.step call).recvResults = s.recvResults ∧
        s.performs call = [])
    (hgoing : ∀ s, Going s → s.consumer ≠ .idle ∧ s.consumer ≠ .parked ∧
      ∀ site', s.consumer.site? = some site' → ∀ result : Option T, site'.op result = site.op result)
    (hmine : ∀ s, Going s → s.consumerStep.consumer = .idle ∨
      Going s.consumerStep ∧ left s.consumerStep.consumer < left s.consumer)
    (hother : ∀ s s', Going s → Undisturbed s s' → Going s') :
    ReceivesReturn capacity es call site P bound := by
  intro before rest hes hidle hP hsteps
  let now := fun during => run capacity (before ++ call :: during)
  let Received := fun during received => ∃ ops, operations capacity (before ++ call :: during) =
    operations capacity before ++ ops ∧ receivesOf ops = received
  have hcall : now [] = (run capacity before).step call := Runs.exec_concat _ _
  obtain ⟨hgo, hleft, hsame, hnone⟩ := hstart _ hidle hP
  rw [← hcall] at hgo hleft hsame
  have hgrows : ∀ {during received}, Received during received → ∀ ev,
      Received (during ++ [ev]) (received ++ receivesOf ((now during).performs ev)) :=
    operations_after
  have hfits : ∀ during ev post, rest = during ++ ev :: post →
      (before ++ call :: during).countP RingEvent.isTrySend < 2 ^ 64 := by
    intro during ev post hrest
    have hsub : (before ++ call :: during).Sublist es := by
      rw [hes, hrest]
      exact ((List.sublist_append_left during (ev :: post)).cons_cons call).append_left before
    exact lt_of_le_of_lt hsub.countP_le hsends
  let Busy := fun during => Received during [] ∧ Going (now during) ∧
    (now during).recvResults = (run capacity before).recvResults
  let Done := fun during => ∃ result, (now during).consumer = .idle ∧
    (now during).recvResults = (run capacity before).recvResults ++ [result.map some] ∧
    Received during [site.op result]
  suffices hdone : ∃ during later, rest = during ++ later ∧
      during.countP RingEvent.isConsumer ≤ left (now []).consumer + 1 ∧ Done during by
    obtain ⟨during, later, hrest, hcount, result, hdone⟩ := hdone
    exact ⟨during, later, result, hrest, hcount.trans hleft, hdone⟩
  refine Runs.exists_done _ Busy Done (fun during => left (now during).consumer) ?_ ?_ ?_ ?_
  · rintro during ev post hrest hev ⟨hreceived, hgo, hresults⟩
    have hnext : now (during ++ [ev]) = (now during).step ev := run_after ..
    have hgrown := hgrows hreceived ev
    cases ev <;> cases hev
    obtain ⟨hbusy, -, hop⟩ := hgoing _ hgo
    obtain ⟨q, hq⟩ := takes_run capacity (hfits _ _ _ hrest)
    have hmoves : Moves (now during) (now during).consumerStep _ := hq.represents.moves hbusy
    change now _ = (now during).consumerStep at hnext
    dsimp only [Busy, Done]
    rw [hnext]
    rcases hmine _ hgo with hidle' | ⟨hgo', hlt⟩
    · left
      generalize (now during).performs .consumer = ops at hmoves hgrown
      cases hmoves with
      | goes hbusy' => exact absurd hidle' hbusy'
      | returns site' result hsite _ hresult =>
        refine ⟨result, hidle', hresult.trans (by rw [hresults]), ?_⟩
        rw [← hop site' hsite result]
        have hone : receivesOf [site'.op result] = [site'.op result] := by cases site' <;> rfl
        rwa [hone, List.nil_append] at hgrown
    · right
      generalize (now during).performs .consumer = ops at hmoves hgrown
      cases hmoves with
      | goes _ hresult => exact ⟨⟨hgrown, hgo', hresult.trans hresults⟩, hlt⟩
      | returns _ _ _ hidle' => exact absurd hidle' (hgoing _ hgo').1
  · rintro during ev post hrest hev ⟨hreceived, hgo, hresults⟩
    have hnext : now (during ++ [ev]) = (now during).step ev := run_after ..
    have hgrown := hgrows hreceived ev
    obtain ⟨hbusy, hawake, -⟩ := hgoing _ hgo
    obtain ⟨hsame', hnone'⟩ := step_undisturbed hev hbusy hawake (publish_fits (hfits _ _ _ hrest))
    rw [hnone', List.append_nil] at hgrown
    dsimp only [Busy]
    rw [hnext, hsame'.consumer]
    exact ⟨⟨hgrown, hother _ _ hgo hsame', hsame'.recvResults.trans hresults⟩, le_rfl⟩
  · refine ⟨⟨[], ?_, rfl⟩, hgo, hsame⟩
    have hops : operations capacity (before ++ [call]) = operations capacity before ++
        (run capacity before).performs call := Runs.emitted_concat _ _ _
    rw [hops, hnone]
  · exact lt_of_lt_of_le hleft hsteps

/-! ## A single `try_recv` -/

/-- The consumer is in a `try_recv` of a site, which is the user's or will find a value. -/
def Trying (site : RecvSite) (s : RingBuffer T) : Prop :=
  s.consumer.site? = some site ∧ (site = .user ∨ s.readSeq < s.writeSeq)

theorem trying_step {site : RecvSite} (h : Trying site s) : s.consumerStep.consumer = .idle ∨
    Trying site s.consumerStep ∧ s.consumerStep.consumer.leftHere < s.consumer.leftHere := by
  obtain ⟨hsite, hfinds⟩ := h
  unfold consumerStep Trying
  cases hc : s.consumer with
  | check site' =>
    rw [hc] at hsite
    dsimp only
    split_ifs
    · exact .inr ⟨⟨hsite, hfinds⟩, show 2 < 3 by omega⟩
    · exact .inr ⟨⟨hsite, hfinds⟩, show 1 < 3 by omega⟩
  | reload site' =>
    rw [hc] at hsite
    dsimp only
    split_ifs with hempty
    · obtain rfl : site' = site := Option.some.inj hsite
      rcases hfinds with rfl | hlt
      · exact .inl rfl
      · exact absurd hlt (not_lt_of_ge hempty)
    · exact .inr ⟨⟨hsite, hfinds⟩, show 1 < 2 by omega⟩
  | read site' =>
    rw [hc] at hsite
    exact .inr ⟨⟨hsite, hfinds⟩, show 0 < 1 by omega⟩
  | advance site' value =>
    dsimp only
    rw [returned_some]
    exact .inl rfl
  | _ => rw [hc] at hsite; cases hsite

theorem Trying.undisturbed {site : RecvSite} {s' : RingBuffer T} (h : Trying site s)
    (hs : Undisturbed s s') : Trying site s' := by
  refine ⟨hs.consumer ▸ h.1, h.2.imp_right fun hlt => ?_⟩
  rw [hs.readSeq]
  exact lt_of_lt_of_le hlt hs.writeSeq

theorem Trying.going {site : RecvSite} (h : Trying site s) : s.consumer ≠ .idle ∧
    s.consumer ≠ .parked ∧ ∀ site', s.consumer.site? = some site' →
      ∀ result : Option T, site'.op result = site.op result := by
  refine ⟨fun hc => ?_, fun hc => ?_, fun site' hsite result => ?_⟩
  · rw [Trying, hc] at h
    cases h.1
  · rw [Trying, hc] at h
    cases h.1
  · rw [Option.some.inj (hsite.symm.trans h.1)]

/-- **A `try_recv` returns** within four steps of the consumer. -/
theorem tryRecv_returns {capacity : U64} {es : List (RingEvent T)}
    (hsends : es.countP RingEvent.isTrySend < 2 ^ 64) :
    ReceivesReturn capacity es .tryRecv .user (fun _ => True) 4 := by
  refine receives_return hsends (Trying .user) ConsumerPc.leftHere (fun s hidle _ => ?_)
    (fun s h => h.going) (fun s h => trying_step h) fun s s' h => h.undisturbed
  have hstart : s.step .tryRecv = { s with consumer := .check .user } := if_pos (by rw [hidle])
  rw [hstart]
  exact ⟨⟨rfl, .inl rfl⟩, show 3 < 4 by omega, rfl, rfl⟩

/-- **So does a `recv`** of a queue that is not empty. -/
theorem recv_returns {capacity : U64} {es : List (RingEvent T)}
    (hsends : es.countP RingEvent.isTrySend < 2 ^ 64) :
    ReceivesReturn capacity es .recv .fastPath (fun s => s.readSeq < s.writeSeq) 4 := by
  refine receives_return hsends (Trying .fastPath) ConsumerPc.leftHere (fun s hidle hlt => ?_)
    (fun s h => h.going) (fun s h => trying_step h) fun s s' h => h.undisturbed
  have hstart : s.step .recv = { s with consumer := .check .fastPath } := if_pos (by rw [hidle])
  rw [hstart]
  exact ⟨⟨rfl, .inr hlt⟩, show 3 < 4 by omega, rfl, rfl⟩

/-! ## A `recv` of a dropped producer -/

/-- The consumer is in a `recv`, and the producer is dropped. -/
def Ending (s : RingBuffer T) : Prop := s.closed = true ∧ s.consumer.InRecv

theorem ending_step (h : Ending s) : s.consumerStep.consumer = .idle ∨
    Ending s.consumerStep ∧ s.consumerStep.consumer.left < s.consumer.left := by
  obtain ⟨hclosed, hin⟩ := h
  unfold consumerStep Ending
  cases hc : s.consumer with
  | check site =>
    rw [hc] at hin
    dsimp only
    split_ifs
    · exact .inr ⟨⟨hclosed, hin⟩, Nat.lt_succ_self _⟩
    · exact .inr ⟨⟨hclosed, hin⟩, Nat.lt_succ_of_lt (lt_of_lt_of_le one_lt_two (le_max_left _ _))⟩
  | reload site =>
    rw [hc] at hin
    dsimp only
    split_ifs
    · cases site with
      | user => exact absurd rfl hin
      | drain => exact .inl rfl
      | fastPath =>
        refine .inr ⟨⟨hclosed, by rintro ⟨⟩⟩, ?_⟩
        change max 2 (2 * (spinLimit - 1 - 0) + 5) + 1 < max 2 (2 * spinLimit + 5)
        decide
      | afterWakeup => exact .inr ⟨⟨hclosed, trivial⟩, show 4 < max 2 5 by omega⟩
      | spin k =>
        unfold returned
        dsimp only
        split_ifs with hlast
        · refine .inr ⟨⟨hclosed, by rintro ⟨⟩⟩, ?_⟩
          change max 2 (2 * (spinLimit - 1 - (k + 1)) + 5) + 1 < max 2 (2 * (spinLimit - 1 - k) + 5)
          omega
        · refine .inr ⟨⟨hclosed, trivial⟩, ?_⟩
          change 4 < max 2 (2 * (spinLimit - 1 - k) + 5)
          omega
    · exact .inr ⟨⟨hclosed, hin⟩, lt_of_lt_of_le one_lt_two (le_max_left _ _)⟩
  | read site =>
    rw [hc] at hin
    exact .inr ⟨⟨hclosed, hin⟩, show 0 < 1 by omega⟩
  | advance site value =>
    dsimp only
    rw [returned_some]
    exact .inl rfl
  | checkClosed afterWakeup =>
    dsimp only
    rw [if_pos hclosed]
    exact .inr ⟨⟨hclosed, by rintro ⟨⟩⟩, show 3 < 4 by omega⟩
  | _ => rw [hc] at hin; exact hin.elim

/-- **A `recv` of a dropped producer returns** within 71 steps of the consumer. -/
theorem recv_ends {capacity : U64} {es : List (RingEvent T)}
    (hsends : es.countP RingEvent.isTrySend < 2 ^ 64) :
    ReceivesReturn capacity es .recv .fastPath (fun s => s.closed = true) (2 * spinLimit + 7) := by
  refine receives_return hsends Ending ConsumerPc.left (fun s hidle hclosed => ?_) (fun s h => ?_)
    (fun s h => ending_step h) fun s s' h hs => ⟨hs.closed h.1, hs.consumer ▸ h.2⟩
  · have hstart : s.step .recv = { s with consumer := .check .fastPath } := if_pos (by rw [hidle])
    rw [hstart]
    exact ⟨⟨hclosed, by rintro ⟨⟩⟩, by change max 2 (2 * spinLimit + 5) + 1 < _; omega, rfl, rfl⟩
  · have hin := h.2
    generalize s.consumer = c at hin ⊢
    refine ⟨by rintro rfl; exact hin, by rintro rfl; exact hin, fun site' hsite result => ?_⟩
    cases c <;> cases hsite <;> cases site' <;> first | rfl | exact absurd rfl hin

/-! ## The result -/

/-- **The ring buffer refines a bounded FIFO queue, and its calls return**, for every requested
capacity and every interleaving of fewer than `2 ^ 64` sends. -/
theorem ringBuffer_refines (capacity : U64) (es : List (RingEvent T))
    (hsends : es.countP RingEvent.isTrySend < 2 ^ 64) :
    (∃ q : Channel T,
      PerformsAll (max 2 (nextPowerOfTwo capacity).val) {} (operations capacity es) q ∧
      Represents (max 2 (nextPowerOfTwo capacity).val) (run capacity es) q ∧
      (run capacity es).sendOutcomes = (operations capacity es).filterMap sendResult? ∧
      (run capacity es).recvResults = (operations capacity es).filterMap recvResult? ∧
      q.sent = accepted (operations capacity es) ∧ q.taken = received (operations capacity es)) ∧
    SendsReturn capacity es ∧ ReceivesReturn capacity es .tryRecv .user (fun _ => True) 4 ∧
    ReceivesReturn capacity es .recv .fastPath (fun s => s.readSeq < s.writeSeq) 4 ∧
    ReceivesReturn capacity es .recv .fastPath (fun s => s.closed = true) (2 * spinLimit + 7) := by
  refine ⟨?_, sends_return capacity es, tryRecv_returns hsends, recv_returns hsends,
    recv_ends hsends⟩
  obtain ⟨q, hq⟩ := takes_run capacity hsends
  obtain ⟨hsent, htaken⟩ := hq.performs.sent_taken
  exact ⟨q, hq.performs, hq.represents, hq.sends, hq.receives, hsent, htaken⟩

/-- A buffer of two slots is filled, refuses a third value, and gives the first one. -/
def fillingRun : List (RingEvent ℕ) :=
  [RingEvent.trySend 1] ++ List.replicate 4 RingEvent.producer ++ [RingEvent.trySend 2] ++
  List.replicate 4 RingEvent.producer ++ [RingEvent.trySend 3] ++
  List.replicate 2 RingEvent.producer ++ [RingEvent.tryRecv] ++
  List.replicate 4 RingEvent.consumer

theorem fillingRun_refines : ∃ q : Channel ℕ, PerformsAll 2 {}
    [.trySend 1 (.ok ()), .trySend 2 (.ok ()), .trySend 3 (.error 3), .tryRecv (some 1)] q := by
  have hops : operations 1 fillingRun = [.trySend 1 (.ok ()), .trySend 2 (.ok ()),
    .trySend 3 (.error 3), .tryRecv (some 1)] := by decide +kernel
  have hcapacity : max 2 (nextPowerOfTwo 1).val = 2 := by decide +kernel
  obtain ⟨⟨q, hq, -⟩, -⟩ := ringBuffer_refines 1 fillingRun (by decide)
  rw [hops, hcapacity] at hq
  exact ⟨q, hq⟩

end RingBuffer

end Flume
