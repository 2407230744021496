import Flume.Core.IntervalJoin
import Flume.Core.Operator
import Flume.Core.ProcessTurns
import Flume.Core.Windowed
import Flume.Lib.SipHash
import Flume.Lib.Utf8

/-!
# Partition keys

`key_by` and `key_by_both` attach a partition key to each record: the digest of the extracted key.
The keyed operators know a key by these bytes only.

* `Hasher`, `defaultHasher`: the digest of what a key's `Hash` writes;
* `hashKey`, `KeyByOperator`, `keyElement`: the two ways to attach a key;
* `hashKey_eq_iff`, `groupKey_eq_iff`: two keys have one partition key exactly when their digests
  agree;
* `takeKey_groupKey`, `IntervalJoinOperator.runOn_processRecord_fst`, `step_otherTimers`: the
  windowed operators, the interval join and the process functions file records and timers under it;
* **`partitionKeys_spec`**: what is kept apart, and that not all strings are.
-/

namespace Flume

open Emitters Fallible Framing

/-- The digest of a `Hasher` after some bytes have been written. -/
abbrev Hasher : Type := Bytes → UInt64

/-- `DefaultHasher::new()`. -/
def defaultHasher : Hasher := SipHash.hash 0 0

/-- What `Hash` writes for a string: its bytes and `0xff`. -/
def writeStr (s : String) : Bytes := Utf8.encode s ++ [0xff]

section Keys

variable {K T σ : Type}

/-- The digest of a key, as little-endian bytes. -/
def hashKey (hasher : Hasher) (write : K → Bytes) (key : K) : Bytes :=
  leBytes 8 (hasher (write key)).toNat

/-- Attaches a partition key to each record. -/
def KeyByOperator (hasher : Hasher) (write : K → Bytes) (initial : σ)
    (keyExtractor : σ → T → K × σ) : Operator T T where
  State := σ
  initial := initial
  processRecord s record := do
    let (key, s') := keyExtractor s record.value
    let hash := leBytes 8 (hasher (write key)).toNat
    Emitter.send (.record { record with key := some hash })
    return s'

/-- The key extractor of a connected input, applied to an element on its way. -/
def keyElement (hasher : Hasher) (write : K → Bytes) (f : σ → T → K × σ) (s : σ) :
    StreamElement T → StreamElement T × σ
  | .record record =>
    (.record { record with key := some (hashKey hasher write (f s record.value).1) },
      (f s record.value).2)
  | .watermark w => (.watermark w, s)
  | .checkpointBarrier b => (.checkpointBarrier b, s)

variable {hasher : Hasher} {write : K → Bytes} {k k' : K}

theorem hashKey_eq_iff :
    hashKey hasher write k = hashKey hasher write k' ↔ hasher (write k) = hasher (write k') := by
  constructor
  · intro h
    have hbound : ∀ digest : UInt64, digest.toNat < 256 ^ 8 := fun digest => digest.toNat_lt
    have hvalue := congrArg leValue h
    unfold hashKey at hvalue
    rw [leValue_leBytes_of_lt (hbound _), leValue_leBytes_of_lt (hbound _)] at hvalue
    exact UInt64.toNat_inj.mp hvalue
  · intro h
    unfold hashKey
    rw [h]

theorem length_hashKey (k : K) : (hashKey hasher write k).length = 8 := length_leBytes _ _

theorem process_keyBy (initial : σ) (f : σ → T → K × σ) (s : σ) (e : StreamElement T) :
    ((KeyByOperator hasher write initial f).process s e).emissions =
        [(keyElement hasher write f s e).1] ∧
      ((KeyByOperator hasher write initial f).process s e).result =
        .ok (keyElement hasher write f s e).2 := by
  cases e <;> exact ⟨rfl, rfl⟩

/-- The keyed operators file a record under its partition key. -/
def Record.groupKey (r : Record T) : Bytes := r.key.getD []

theorem groupKey_eq_iff (r r' : Record T) :
    Record.groupKey { r with key := some (hashKey hasher write k) } =
        Record.groupKey { r' with key := some (hashKey hasher write k') } ↔
      hasher (write k) = hasher (write k') := by
  unfold Record.groupKey
  rw [Option.getD_some, Option.getD_some, hashKey_eq_iff]

theorem takeKey_groupKey {In Acc Out B τ : Type} (op : WindowOperator τ In Acc Out)
    (op' : WindowedOperator In B Out) (r : Record In) :
    (op.takeKey r).1 = r.groupKey ∧ (op'.takeKey r).1 = r.groupKey :=
  ⟨WindowOperator.takeKey_fst op r, WindowedOperator.takeKey_fst op' r⟩

/-- A callback registers and deletes timers of the current key. -/
theorem perform_otherTimers {Out Side τ C : Type} (env : Environment C Out)
    (side : String → Side → Fallible FlumeError C Unit) (callback : Callback Out Side τ)
    {timer : Timer} (s : ProcessState τ C) (h : timer.key ≠ s.timerService.currentKey) :
    timer ∈ ((callback.perform env side).runOn s).2.timers ↔ timer ∈ s.timers := by
  induction callback generalizing s with
  | done result fn =>
    rw [Callback.perform, runOn_bind_ok (runOn_modify _), runOn_outcome]
  | collect element next ih =>
    exact ih ((env.collector.push element).runOn s.outside).1
      { s with outside := ((env.collector.push element).runOn s.outside).2 } h
  | sideOutput tagId value next ih =>
    exact ih ((side tagId value).runOn s.outside).1
      { s with outside := ((side tagId value).runOn s.outside).2 } h
  | timer call next ih =>
    have hkey : (s.timerService.call call).currentKey = s.timerService.currentKey := by
      cases call <;> rfl
    refine (ih ((callTimers call).runOn s).2 (hkey ▸ h)).trans ?_
    have hne : ∀ time, timer ≠ ⟨time, s.timerService.currentKey⟩ := by
      rintro time rfl
      exact h rfl
    cases call with
    | registerEventTimeTimer time => exact SortedSet.mem_insert.trans (or_iff_right (hne time))
    | deleteEventTimeTimer time => exact SortedSet.mem_remove.trans (and_iff_left (hne time))
    | registerProcessingTimeTimer time => exact Iff.rfl
    | deleteProcessingTimeTimer time => exact Iff.rfl
  | currentWatermark next ih => exact ih s.timerService.currentWatermark s h
  | currentProcessingTime next ih =>
    exact ih ((env.clock.runOn s.outside).1.toOption.getD 0)
      { s with outside := (env.clock.runOn s.outside).2 } h

theorem step_otherTimers {In Out Side τ C : Type} (op : TimedOperator In Out Side τ C)
    (env : Environment C Out) (r : Record In) (s : ProcessState τ C) {timer : Timer}
    (h : timer.key ≠ r.groupKey) :
    timer ∈ (op.step env s (.record r)).timers ↔ timer ∈ s.timers :=
  perform_otherTimers env _ _
    { s with timerService := s.timerService.setCurrentKey (r.key.getD []) } h

end Keys

/-- **What partition keys keep apart:** the keys whose digests differ. The keyed operators file what
belongs to a key under these bytes, and not all strings are kept apart. -/
theorem partitionKeys_spec (hasher : Hasher) :
    (∀ {K T σ : Type} (write : K → Bytes) (initial : σ) (f : σ → T → K × σ) (s : σ)
        (record : Record T),
      ((KeyByOperator hasher write initial f).process s (.record record)).emissions =
          [(keyElement hasher write f s (.record record)).1] ∧
        (keyElement hasher write f s (.record record)).1 =
          .record { record with key := some (hashKey hasher write (f s record.value).1) } ∧
        (hashKey hasher write (f s record.value).1).length = 8) ∧
    (∀ {In Acc Out B τ : Type} (op : WindowOperator τ In Acc Out)
        (op' : WindowedOperator In B Out) (r : Record In),
      (op.takeKey r).1 = r.groupKey ∧ (op'.takeKey r).1 = r.groupKey) ∧
    (∀ {L R Out C : Type} (collector : Collector C Out) (r : Record (Either L R))
        (s : IntervalJoinOperator L R Out × C),
      ((IntervalJoinOperator.processRecord collector r).runOn s).2.1 =
        s.1.store r.groupKey fun st => st.push r.timestamp r.value) ∧
    (∀ {In Out Side τ C : Type} (op : TimedOperator In Out Side τ C) (env : Environment C Out)
        (r : Record In) (s : ProcessState τ C) (timer : Timer), timer.key = r.groupKey ∨
      (timer ∈ (op.step env s (.record r)).timers ↔ timer ∈ s.timers)) ∧
    (∀ {K T : Type} (write : K → Bytes) (k k' : K) (r r' : Record T),
      (hashKey hasher write k = hashKey hasher write k' ↔
          hasher (write k) = hasher (write k')) ∧
        (Record.groupKey { r with key := some (hashKey hasher write k) } =
            Record.groupKey { r' with key := some (hashKey hasher write k') } ↔
          hasher (write k) = hasher (write k'))) ∧
    ∃ k k', k ≠ k' ∧ hashKey hasher writeStr k = hashKey hasher writeStr k' := by
  refine ⟨fun write initial f s record => ⟨(process_keyBy initial f s _).1, rfl, length_hashKey _⟩,
    takeKey_groupKey, fun collector r s => ?_,
    fun op env r s timer => or_iff_not_imp_left.mpr (step_otherTimers op env r s),
    fun write k k' r r' => ⟨hashKey_eq_iff, groupKey_eq_iff r r'⟩, ?_⟩
  · exact IntervalJoinOperator.runOn_processRecord_fst collector r s
  obtain ⟨k, k', hne, heq⟩ :=
    Finite.exists_ne_map_eq_of_infinite fun s : String => (hasher (writeStr s)).toFin
  exact ⟨k, k', hne, hashKey_eq_iff.mpr (UInt64.toFin_inj.mp heq)⟩

theorem hashKey_collision : hashKey defaultHasher writeStr "cw9eM-qTh75" =
    hashKey defaultHasher writeStr "Vw8hAPUHF-a" := by
  decide +kernel

/-- Two records whose values are their keys, after `key_by`. -/
def keyedPair : List (Record String) :=
  ["cw9eM-qTh75", "Vw8hAPUHF-a"].map fun value =>
    ⟨value, 1000, some (hashKey defaultHasher writeStr value)⟩

/-- The two keys are different, their records are counted in one accumulator. -/
theorem keyedPair_notKeptApart :
    ¬ (∀ k k' : String, hashKey defaultHasher writeStr k = hashKey defaultHasher writeStr k' ↔
        k = k') ∧
    keyedPair.map StreamElement.record = (["cw9eM-qTh75", "Vw8hAPUHF-a"].flatMap fun value =>
      ((KeyByOperator defaultHasher writeStr () fun s (v : String) => (v, s)).process ()
        (.record ⟨value, 1000, none⟩)).emissions) ∧
    ((WindowOperator.run (TestCollector ℕ) (keyedPair.map WindowOperator.Input.record)).runOn
      (WindowOperator.new (TumblingWindow.new (Duration.fromMillis 5000)).assignWindows
        countAggregator, [])).2.1.accumulators.entries.map Sigma.snd = [2] := by
  refine ⟨fun hall => ?_, rfl, by decide +kernel⟩
  exact absurd ((hall _ _).mp hashKey_collision) (by decide)

end Flume
