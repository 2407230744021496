import Flume.Network.Exchange
import Flume.Network.RoundTrip

/-!
# How the data exchange starts

The receiver grants the first credits when the first batch arrives, and a collector starts without
any: as long as only records and watermarks are emitted, nothing is ever sent.

* `Silent`: the collector has no credits and nothing is in flight, in every state of such a run;
* **`exchange_live_iff`**: such a run avoids the deadlock if and only if none of its records gets
  into the buffer.
-/

namespace Flume.Exchange

open Framing

variable {T : Type} {codec : Codec (StreamElement T)} {s : Exchange}

/-- The exchange after a run. -/
def run (codec : Codec (StreamElement T)) (channelId : String) (capacity : ℕ)
    (batchSize initialCredits : U32) (es : List (ExchangeEvent T)) : Exchange :=
  Runs.exec (step codec) (init channelId capacity batchSize initialCredits) es

/-- Nothing was sent so far. -/
def Silent (s : Exchange) : Prop := s.collector.credits = 0 ∧ s.NothingInFlight

/-- The event emits a record or a watermark, or is a step of the exchange. -/
def IsPlain : ExchangeEvent T → Prop
  | .emit element => element.barrier? = none
  | _ => True

/-- The event does not put a record into the buffer. -/
def BuffersNothing (codec : Codec (StreamElement T)) : ExchangeEvent T → Prop
  | .emit (.record r) => ∃ e, codec.serialize (.record r) = .error e
  | _ => True

theorem silent_init (channelId : String) (capacity : ℕ) (batchSize initialCredits : U32) :
    Silent (init channelId capacity batchSize initialCredits) :=
  ⟨rfl, rfl, rfl, rfl, rfl⟩

theorem Silent.step_of_quiet (h : Silent s) {ev : ExchangeEvent T}
    (hquiet : ∀ element, ev ≠ .emit element) : step codec s ev = s := by
  obtain ⟨-, hqueue, hinbound, hpc, hgrants⟩ := h
  cases ev with
  | emit element => exact absurd rfl (hquiet element)
  | transmit =>
    change s.transmit = s
    unfold transmit
    split
    · rename_i batch channel hrecv
      rw [(Channels.Channel.tryRecv_item hrecv).1] at hqueue
      cases hqueue
    · rfl
  | receive =>
    change s.receive = s
    unfold receive
    rw [hpc, hinbound]
  | grant =>
    change s.grant = s
    unfold grant
    rw [hgrants]

/-- A plain event of a silent exchange changes the buffer only, and only by a record. -/
theorem Silent.step_cases (h : Silent s) {ev : ExchangeEvent T} (hplain : IsPlain ev) :
    (Silent (step codec s ev)) ∧
      (BuffersNothing codec ev → (step codec s ev).collector.buffer = s.collector.buffer) ∧
      (¬ BuffersNothing codec ev → (step codec s ev).collector.buffer ≠ []) := by
  cases ev with
  | emit element =>
    obtain ⟨hcredits, hqueue, hinbound, hpc, hgrants⟩ := h
    cases element with
    | record r =>
      have hstep : (step codec s (.emit (.record r))).collector =
          ((NetworkCollector.collect codec r).runOn s.collector).2 := rfl
      cases hr : codec.serialize (.record r) with
      | ok bytes =>
        rw [NetworkCollector.collect_broke hcredits hr] at hstep
        refine ⟨⟨?_, ?_, hinbound, hpc, hgrants⟩, ?_, fun _ => ?_⟩
        · rw [hstep]; exact hcredits
        · rw [hstep]; exact hqueue
        · rintro ⟨e, he⟩
          rw [hr] at he
          cases he
        · rw [hstep]
          simp [frame, leBytes]
      | error e =>
        rw [NetworkCollector.collect_refused hr] at hstep
        refine ⟨⟨?_, ?_, hinbound, hpc, hgrants⟩, fun _ => ?_, fun hnot => absurd ⟨e, hr⟩ hnot⟩
        · rw [hstep]; exact hcredits
        · rw [hstep]; exact hqueue
        · rw [hstep]
    | watermark w =>
      have hstep : (step codec s (.emit (.watermark w))).collector = s.collector :=
        NetworkCollector.collectWatermark_broke hcredits w
      refine ⟨⟨?_, ?_, hinbound, hpc, hgrants⟩, fun _ => ?_, fun hnot => absurd trivial hnot⟩
      · rw [hstep]; exact hcredits
      · rw [hstep]; exact hqueue
      · rw [hstep]
    | checkpointBarrier b => cases hplain
  | transmit | receive | grant =>
    rw [Silent.step_of_quiet h (by simp)]
    exact ⟨h, fun _ => rfl, fun hnot => absurd trivial hnot⟩

theorem Silent.deadlocked_iff (h : Silent s) : Deadlocked s ↔ s.collector.buffer ≠ [] := by
  unfold Deadlocked
  exact ⟨fun hd => hd.1, fun hne => ⟨hne, h⟩⟩

/-- **When an exchange of records and watermarks does not deadlock**, whatever the delays: if and
only if none of the records that are emitted can be serialized into the buffer. -/
theorem exchange_live_iff (codec : Codec (StreamElement T)) (channelId : String) (capacity : ℕ)
    (batchSize initialCredits : U32) (es : List (ExchangeEvent T)) (hplain : ∀ ev ∈ es, IsPlain ev) :
    (∀ pre, pre <+: es → ¬ Deadlocked (run codec channelId capacity batchSize initialCredits pre)) ↔
      ∀ r, .emit (.record r) ∈ es → ∃ e, codec.serialize (.record r) = .error e := by
  have hcases : ∀ (s : Exchange) (ev : ExchangeEvent T), IsPlain ev → Silent s →
      Silent (step codec s ev) ∧
        (BuffersNothing codec ev → (step codec s ev).collector.buffer = s.collector.buffer) ∧
        (¬ BuffersNothing codec ev → (step codec s ev).collector.buffer ≠ []) :=
    fun s ev hev hs => hs.step_cases hev
  have hexact := Runs.forall_prefix_iff_along (I := Silent)
    (P := fun s => ¬ Deadlocked s) (Q := fun _ ev => BuffersNothing codec ev) (A := IsPlain)
    (fun s ev hev hs _ _ => (hcases s ev hev hs).1)
    (fun s ev hev hs hlive hquiet => by
      obtain ⟨hsilent, hkeep, -⟩ := hcases s ev hev hs
      rw [hsilent.deadlocked_iff, hkeep hquiet, ← hs.deadlocked_iff]
      exact hlive)
    (fun s ev hev hs _ hbuffers => by
      obtain ⟨hsilent, -, hfull⟩ := hcases s ev hev hs
      rw [hsilent.deadlocked_iff, not_not]
      exact hfull hbuffers)
    (silent_init channelId capacity batchSize initialCredits) (fun hd => hd.1 rfl) hplain
  refine hexact.trans ?_
  rw [Runs.along_iff_eachStep]
  constructor
  · intro h r hr
    obtain ⟨pre, post, hes⟩ := List.append_of_mem hr
    exact h pre _ post hes
  · intro h pre ev post hes
    have hev : ev ∈ es := by rw [hes]; simp
    match ev with
    | .emit (.record r) => exact h r hev
    | .emit (.watermark w) => trivial
    | .emit (.checkpointBarrier b) => trivial
    | .transmit => trivial
    | .receive => trivial
    | .grant => trivial

/-- Only a watermark is emitted: nothing is buffered, and nothing is sent. -/
def watermarkRun : List (ExchangeEvent UInt8) :=
  [.emit (.watermark ⟨5⟩), .transmit, .receive, .grant]

theorem watermark_live : (∀ ev ∈ watermarkRun, IsPlain ev) ∧ ∀ pre, pre <+: watermarkRun →
    ¬ Deadlocked (run NetworkCollector.byteCodec "ch-1" 16 10 4 pre) := by
  have hplain : ∀ ev ∈ watermarkRun, IsPlain ev := by
    simp [watermarkRun, IsPlain, StreamElement.barrier?]
  refine ⟨hplain, ?_⟩
  exact (exchange_live_iff NetworkCollector.byteCodec "ch-1" 16 10 4 watermarkRun hplain).mpr
    (by simp [watermarkRun])

/-- One record is emitted, into a batch of ten: it waits for credits that only a batch brings. -/
theorem record_deadlocked : Deadlocked (run NetworkCollector.byteCodec "ch-1" 16 10 4
    [.emit (.record ⟨1, 100, none⟩)]) := by
  decide +kernel

end Flume.Exchange
