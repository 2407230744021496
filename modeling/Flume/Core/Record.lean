import Mathlib.Data.Fin.Basic
import Mathlib.Data.List.Basic
import Mathlib.Tactic

/-!
# Records, watermarks and barriers

The data that flows through a pipeline: `u64` values, event timestamps, records with their
partition keys, watermarks, checkpoint barriers and acknowledgements, and the stream elements that
carry them inline.

* `Duration`, `addDuration`, `subDuration`: saturating arithmetic of event time;
* `StreamElement.barrier?` reads off a checkpoint barrier, `StreamElement.record?` a record;
* `KeepsPromise`: no record comes after a watermark that is not earlier;
* `FlumeError` keeps the variants that the modelled code returns.
-/

namespace Flume

/-- A `u64`; `+` and `-` wrap, as in a release build. -/
abbrev U64 : Type := Fin (2 ^ 64)

/-- A `u32`. -/
abbrev U32 : Type := Fin (2 ^ 32)

-- literals of `u64`, `u32` and of one of two inputs
instance neZero_u64 : NeZero (2 ^ 64) := ⟨by decide⟩
instance neZero_u32 : NeZero (2 ^ 32) := ⟨by decide⟩
instance neZero_two : NeZero 2 := ⟨by decide⟩

/-- `+`, saturating at the largest `u64`. -/
def U64.saturatingAdd (a b : U64) : U64 := Fin.ofNat _ (min (a.val + b.val) (2 ^ 64 - 1))

/-- A byte string, `Vec<u8>`. -/
abbrev Bytes : Type := List UInt8

/-- Milliseconds of event time. -/
abbrev EventTimestamp : Type := U64

/-- No progress yet. -/
def EventTimestamp.MIN : EventTimestamp := 0

/-- The end-of-stream marker. -/
def EventTimestamp.MAX : EventTimestamp := ⟨2 ^ 64 - 1, by omega⟩

/-- A span of time, in nanoseconds. -/
structure Duration where
  nanos : ℕ
  deriving DecidableEq

/-- The whole milliseconds of a duration. -/
def Duration.asMillis (d : Duration) : ℕ := d.nanos / 1000000

/-- A duration of whole milliseconds. -/
def Duration.fromMillis (millis : ℕ) : Duration := ⟨millis * 1000000⟩

instance : LE Duration := ⟨fun d d' => d.nanos ≤ d'.nanos⟩

namespace EventTimestamp

/-- `+`, saturating at `MAX`; the milliseconds are cast to a `u64`. -/
def addDuration (t : EventTimestamp) (d : Duration) : EventTimestamp :=
  if h : t.val + d.asMillis % 2 ^ 64 < 2 ^ 64 then ⟨t.val + d.asMillis % 2 ^ 64, h⟩ else MAX

/-- `-`, saturating at `MIN`; the milliseconds are cast to a `u64`. -/
def subDuration (t : EventTimestamp) (d : Duration) : EventTimestamp :=
  ⟨t.val - d.asMillis % 2 ^ 64, Nat.lt_of_le_of_lt (Nat.sub_le _ _) t.isLt⟩

end EventTimestamp

/-- A data record; `key` is `none` before `key_by`. -/
structure Record (T : Type) where
  value : T
  timestamp : EventTimestamp
  key : Option Bytes
  deriving DecidableEq

/-- No record with event time at most `timestamp` follows on the channel. -/
structure Watermark where
  timestamp : EventTimestamp
  deriving DecidableEq

/-- Triggers a state snapshot; flows inline with the records. -/
structure CheckpointBarrier where
  checkpointId : U64
  timestamp : EventTimestamp
  deriving DecidableEq

/-- An operator's answer to a barrier, with its state. -/
structure CheckpointAck where
  checkpointId : U64
  operatorName : String
  stateBytes : Bytes
  deriving DecidableEq

/-- The unit of transport between operators. -/
inductive StreamElement (T : Type)
  | record (r : Record T)
  | watermark (w : Watermark)
  | checkpointBarrier (b : CheckpointBarrier)
  deriving DecidableEq

/-- A value from one of two input streams. -/
inductive Either (L R : Type)
  | left (l : L)
  | right (r : R)
  deriving DecidableEq

/-- The errors that the modelled code returns. -/
inductive FlumeError
  | source (msg : String)
  | serialization (msg : String)
  | state (msg : String)
  | checkpoint (msg : String)
  | channelClosed
  | execution (msg : String)
  | operator (msg : String)
  | io
  deriving DecidableEq

/-- A record with another value. -/
def Record.map {T U : Type} (f : T → U) (r : Record T) : Record U where
  value := f r.value
  timestamp := r.timestamp
  key := r.key

/-- A record of two streams, as a record of one of them. -/
def Record.side {L R : Type} (r : Record (Either L R)) : Record L ⊕ Record R :=
  match r.value with
  | .left value => .inl ⟨value, r.timestamp, r.key⟩
  | .right value => .inr ⟨value, r.timestamp, r.key⟩

namespace StreamElement

variable {T U : Type}

/-- An element whose record has another value. -/
def map (f : T → U) : StreamElement T → StreamElement U
  | record r => record (r.map f)
  | watermark w => watermark w
  | checkpointBarrier b => checkpointBarrier b

/-- The barrier an element carries. -/
def barrier? : StreamElement T → Option CheckpointBarrier
  | checkpointBarrier b => some b
  | _ => none

/-- The record an element carries. -/
def record? : StreamElement T → Option (Record T)
  | record r => some r
  | _ => none

/-- The value of the record an element carries. -/
def value? (e : StreamElement T) : Option T := e.record?.map Record.value

/-- The watermark an element carries. -/
def watermark? : StreamElement T → Option Watermark
  | watermark w => some w
  | _ => none

@[simp] theorem barrier?_record (r : Record T) : (record r).barrier? = none := rfl
@[simp] theorem barrier?_checkpointBarrier (b : CheckpointBarrier) :
    (checkpointBarrier b : StreamElement T).barrier? = some b := rfl

@[simp] theorem barrier?_map (f : T → U) (e : StreamElement T) : (e.map f).barrier? = e.barrier? := by
  cases e <;> rfl

theorem barrier?_eq_some {e : StreamElement T} {b : CheckpointBarrier} :
    e.barrier? = some b ↔ e = checkpointBarrier b := by
  cases e <;> simp [barrier?]

/-! ## The watermark promise -/

/-- A record that follows a watermark has a later timestamp. -/
def Precedes : StreamElement T → StreamElement T → Prop
  | watermark w, record r => w.timestamp < r.timestamp
  | _, _ => True

instance (a b : StreamElement T) : Decidable (a.Precedes b) := by
  unfold Precedes; split <;> infer_instance

/-- After a watermark no record follows whose event time is at most its timestamp. -/
def KeepsPromise (out : List (StreamElement T)) : Prop := out.Pairwise Precedes

instance (out : List (StreamElement T)) : Decidable (KeepsPromise out) :=
  inferInstanceAs (Decidable (out.Pairwise Precedes))

theorem keepsPromise_map {f : T → U} {out : List (StreamElement T)} :
    KeepsPromise (out.map (map f)) ↔ KeepsPromise out := by
  rw [KeepsPromise, List.pairwise_map, KeepsPromise]
  refine iff_of_eq (congrArg (fun R => List.Pairwise R out) ?_)
  funext a b
  cases a <;> cases b <;> rfl

theorem keepsPromise_nil : KeepsPromise ([] : List (StreamElement T)) := List.Pairwise.nil

theorem keepsPromise_records (records : List (Record T)) : KeepsPromise (records.map record) := by
  rw [KeepsPromise, List.pairwise_map]
  exact List.pairwise_of_forall fun _ _ => trivial

theorem keepsPromise_concat {out : List (StreamElement T)} {e : StreamElement T} :
    KeepsPromise (out ++ [e]) ↔ KeepsPromise out ∧ ∀ a ∈ out, a.Precedes e := by
  simp only [KeepsPromise, List.pairwise_append, List.pairwise_singleton, true_and,
    List.mem_singleton, forall_eq]

theorem keepsPromise_concat_watermark {out : List (StreamElement T)} {w : Watermark} :
    KeepsPromise (out ++ [watermark w]) ↔ KeepsPromise out := by
  rw [keepsPromise_concat]
  refine ⟨And.left, fun h => ⟨h, fun a _ => ?_⟩⟩
  cases a <;> trivial

theorem keepsPromise_concat_barrier {out : List (StreamElement T)} {b : CheckpointBarrier} :
    KeepsPromise (out ++ [checkpointBarrier b]) ↔ KeepsPromise out := by
  rw [keepsPromise_concat]
  refine ⟨And.left, fun h => ⟨h, fun a _ => ?_⟩⟩
  cases a <;> trivial

theorem keepsPromise_append_records {out : List (StreamElement T)} {records : List (Record T)} :
    KeepsPromise (out ++ records.map record) ↔ KeepsPromise out ∧
      ∀ r ∈ records, ∀ w, watermark w ∈ out → w.timestamp < r.timestamp := by
  rw [KeepsPromise, List.pairwise_append]
  constructor
  · rintro ⟨hout, -, hlater⟩
    exact ⟨hout, fun r hr w hw => hlater _ hw _ (List.mem_map_of_mem hr)⟩
  · rintro ⟨hout, hlater⟩
    refine ⟨hout, keepsPromise_records records, fun a ha e he => ?_⟩
    obtain ⟨r, hr, rfl⟩ := List.mem_map.mp he
    cases a with
    | watermark w => exact hlater r hr w ha
    | record r' => trivial
    | checkpointBarrier b => trivial

end StreamElement

end Flume
