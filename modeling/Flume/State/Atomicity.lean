import Flume.Lib.Runs
import Flume.State.ByteStates
import Flume.State.Keyed

/-!
# Restores that fail

A restore decodes and writes one state after the other, and stops at the first whose bytes do not
decode. What it has written by then stays.

* `ReadsAs`: every state reads what it read before;
* `Malformed`: some state is given bytes that do not decode; `Unchanging`: the bytes that decode
  change no reading;
* `restore_fails_iff`, `restore_readsAs_iff`: when a restore fails, and when it changes nothing;
* **`restore_atomic_iff`**: when a restore that fails leaves every state as it was, in every order.
-/

namespace Flume

open Fallible Entries

variable {U : StateTypes}

theorem keeps_of_fails_iff {ι : Sort*} {fails keeps : ι → Prop} {outer malformed unchanging : Prop}
    (hfails : ∀ i, fails i ↔ outer ∨ malformed) (hkeeps : (∀ i, keeps i) ↔ unchanging)
    (houter : outer → unchanging) :
    (∀ i, fails i → keeps i) ↔ (malformed → unchanging) := by
  constructor
  · intro h hmalformed
    exact hkeeps.mp fun i => h i ((hfails i).mpr (Or.inr hmalformed))
  · intro h i hi
    rcases (hfails i).mp hi with houter' | hmalformed
    · exact hkeeps.mpr (houter houter') i
    · exact hkeeps.mpr (h hmalformed) i

/-! ## One memory backend -/

namespace MemoryStateBackend

/-- Every state reads what it reads in `backend`. -/
def ReadsAs (backend' backend : MemoryStateBackend U) : Prop :=
  ∀ name, (backend'.states.lookup name).map State.read = (backend.states.lookup name).map State.read

/-- The bytes that a snapshot has for a name. -/
def bytesOf (bitcode : Bitcode U) (data : Bytes) (name : String) : Option Bytes :=
  match bitcode.names.deserialize data with
  | .ok map => map.lookup name
  | .error _ => none

/-- Some state is given bytes that do not decode. -/
def Malformed (bitcode : Bitcode U) (data : Bytes) (backend : MemoryStateBackend U) : Prop :=
  ∃ name t bytes e, backend.states.lookup name = some t ∧ bytesOf bitcode data name = some bytes ∧
    (bitcode.content t.1).deserialize bytes = .error e

/-- A state that is given bytes that decode reads already what they decode to. -/
def Unchanging (bitcode : Bitcode U) (data : Bytes) (backend : MemoryStateBackend U) : Prop :=
  ∀ name t bytes content, backend.states.lookup name = some t →
    bytesOf bitcode data name = some bytes →
    (bitcode.content t.1).deserialize bytes = .ok content → content.read = t.2.read

variable {bitcode : Bitcode U} {data : Bytes} {backend : MemoryStateBackend U}

theorem bytesOf_ok {map : AList fun _ : String => Bytes}
    (h : bitcode.names.deserialize data = .ok map) (name : String) :
    bytesOf bitcode data name = map.lookup name := by
  rw [bytesOf, h]

theorem restoreBytes_fails_iff {bytes : Bytes} {t : State U} :
    (∃ e, ((State.restoreBytes bitcode bytes).runOn t).1 = .error e) ↔
      ∃ e, (bitcode.content t.1).deserialize bytes = .error e := by
  rw [State.runOn_restoreBytes]
  cases (bitcode.content t.1).deserialize bytes <;> simp [serialization]

theorem restore_fails_iff (iter : IterOrder String) :
    (∃ e, ((restore bitcode iter data).runOn backend).1 = .error e) ↔
      (∃ e, bitcode.names.deserialize data = .error e) ∨ backend.Malformed bitcode data := by
  unfold Malformed
  rw [runOn_restore]
  cases hdecode : bitcode.names.deserialize data with
  | error e => exact iff_of_true ⟨_, rfl⟩ (Or.inl ⟨e, rfl⟩)
  | ok map =>
    change (∃ e, ((updateAll (fun _ bytes => State.restoreBytes bitcode bytes)
      (visit iter map)).runOn backend.states).1 = .error e) ↔ _
    simp only [updateAll_visit_fails_iff, restoreBytes_fails_iff, bytesOf_ok hdecode]
    constructor
    · rintro ⟨name, bytes, t, hbytes, ht, e, he⟩
      exact Or.inr ⟨name, t, bytes, e, ht, hbytes, he⟩
    · rintro (⟨e, he⟩ | ⟨name, t, bytes, e, ht, hbytes, he⟩)
      · cases he
      · exact ⟨name, bytes, t, hbytes, ht, e, he⟩

/-- **When a restore changes nothing**, in whichever order it visits the states. -/
theorem restore_readsAs_iff :
    (∀ iter, ReadsAs ((restore bitcode iter data).runOn backend).2 backend) ↔
      backend.Unchanging bitcode data := by
  constructor
  · intro h name t bytes content ht hbytes hcontent
    -- in the order that starts with this state it is written, whatever fails later
    have hsame := h (IterOrder.first name) name
    cases hdecode : bitcode.names.deserialize data with
    | error e =>
      rw [bytesOf, hdecode] at hbytes
      cases hbytes
    | ok map =>
      rw [bytesOf_ok hdecode] at hbytes
      have hwritten := updateAll_visit_first
        (f := fun _ bytes => State.restoreBytes bitcode bytes) hbytes ht
      rw [State.runOn_restoreBytes, hcontent] at hwritten
      rw [runOn_restore, hdecode, ht] at hsame
      simp only [serialization, hwritten, Option.map_some] at hsame
      exact eq_of_heq (Sigma.mk.inj (Option.some.inj hsame)).2
  · intro h iter name
    rw [runOn_restore]
    cases hdecode : bitcode.names.deserialize data with
    | error e => rfl
    | ok map =>
      simp only [serialization]
      cases ht : backend.states.lookup name with
      | none => rw [updateAll_none _ _ ht]
      | some t =>
        obtain ⟨t', ht', rfl | ⟨bytes, hbytes, rfl⟩⟩ :=
          updateAll_changed (f := fun _ bytes => State.restoreBytes bitcode bytes) nodup_visit ht
        · rw [ht']
        · rw [ht', State.runOn_restoreBytes]
          cases hcontent : (bitcode.content t.1).deserialize bytes with
          | error e => rfl
          | ok content =>
            have hread := h name t bytes content ht
              ((bytesOf_ok hdecode name).trans (mem_visit.mp hbytes)) hcontent
            exact congrArg some (congrArg (Sigma.mk t.1) hread)

theorem unchanging_of_error {e : String} (h : bitcode.names.deserialize data = .error e) :
    backend.Unchanging bitcode data := by
  intro name t bytes content _ hbytes
  rw [bytesOf, h] at hbytes
  cases hbytes

/-- **When a restore that fails changes nothing.** -/
theorem restore_clean_iff :
    (∀ iter, (∃ e, ((restore bitcode iter data).runOn backend).1 = .error e) →
        ReadsAs ((restore bitcode iter data).runOn backend).2 backend) ↔
      (backend.Malformed bitcode data → backend.Unchanging bitcode data) :=
  keeps_of_fails_iff restore_fails_iff restore_readsAs_iff fun ⟨_, he⟩ => unchanging_of_error he

end MemoryStateBackend

/-! ## The keyed backend -/

namespace KeyedStateBackend

/-- Every state reads what it reads in `s`. -/
def ReadsAs (s' s : KeyedStateBackend U) : Prop :=
  ∀ key name, (s'.state key name).map State.read = (s.state key name).map State.read

/-- The bytes that a snapshot has for a key. -/
def bytesOf (bitcode : Bitcode U) (data : Bytes) (key : Bytes) : Option Bytes :=
  match bitcode.keys.deserialize data with
  | .ok map => map.lookup key
  | .error _ => none

/-- The bytes of some key do not decode to names, or some state of it is given bytes that do not
decode. -/
def Malformed (bitcode : Bitcode U) (data : Bytes) (s : KeyedStateBackend U) : Prop :=
  ∃ key backend bytes, s.backends.lookup key = some backend ∧
    bytesOf bitcode data key = some bytes ∧
      ((∃ e, bitcode.names.deserialize bytes = .error e) ∨ backend.Malformed bitcode bytes)

/-- A state that is given bytes that decode reads already what they decode to. -/
def Unchanging (bitcode : Bitcode U) (data : Bytes) (s : KeyedStateBackend U) : Prop :=
  ∀ key backend bytes, s.backends.lookup key = some backend →
    bytesOf bitcode data key = some bytes → backend.Unchanging bitcode bytes

variable {bitcode : Bitcode U} {data : Bytes} {s : KeyedStateBackend U}

theorem bytesOf_ok {map : AList fun _ : Bytes => Bytes}
    (h : bitcode.keys.deserialize data = .ok map) (key : Bytes) :
    bytesOf bitcode data key = map.lookup key := by
  rw [bytesOf, h]

theorem restore_fails_iff (order : HashOrder) :
    (∃ e, ((restore bitcode order data).runOn s).1 = .error e) ↔
      (∃ e, bitcode.keys.deserialize data = .error e) ∨ s.Malformed bitcode data := by
  unfold Malformed
  rw [runOn_restore]
  cases hdecode : bitcode.keys.deserialize data with
  | error e => exact iff_of_true ⟨_, rfl⟩ (Or.inl ⟨e, rfl⟩)
  | ok map =>
    change (∃ e, ((updateAll (fun key bytes =>
      MemoryStateBackend.restore bitcode (order.names key) bytes)
      (visit order.keys map)).runOn s.backends).1 = .error e) ↔ _
    simp only [updateAll_visit_fails_iff, MemoryStateBackend.restore_fails_iff, bytesOf_ok hdecode]
    constructor
    · rintro ⟨key, bytes, backend, hbytes, hbackend, h⟩
      exact Or.inr ⟨key, backend, bytes, hbackend, hbytes, h⟩
    · rintro (⟨e, he⟩ | ⟨key, backend, bytes, hbackend, hbytes, h⟩)
      · cases he
      · exact ⟨key, bytes, backend, hbytes, hbackend, h⟩

/-- **When a restore changes nothing**, in whichever order it visits the keys and the states. -/
theorem restore_readsAs_iff :
    (∀ order, ReadsAs ((restore bitcode order data).runOn s).2 s) ↔ s.Unchanging bitcode data := by
  constructor
  · intro h key backend bytes hbackend hbytes
    refine MemoryStateBackend.restore_readsAs_iff.mp fun iter name => ?_
    -- in the order that starts with this key its states are restored, whatever fails later
    have hsame := h ⟨IterOrder.first key, fun _ => iter⟩ key name
    cases hdecode : bitcode.keys.deserialize data with
    | error e =>
      rw [bytesOf, hdecode] at hbytes
      cases hbytes
    | ok map =>
      rw [bytesOf_ok hdecode] at hbytes
      have hwritten := updateAll_visit_first
        (f := fun _ bytes => MemoryStateBackend.restore bitcode iter bytes) hbytes hbackend
      rw [runOn_restore, hdecode, state_of_lookup hbackend] at hsame
      simp only [serialization] at hsame
      rwa [state_of_lookup hwritten] at hsame
  · intro h order key name
    rw [runOn_restore]
    cases hdecode : bitcode.keys.deserialize data with
    | error e => rfl
    | ok map =>
      simp only [serialization]
      cases hbackend : s.backends.lookup key with
      | none =>
        rw [state_of_lookup_none hbackend, state_of_lookup_none (updateAll_none _ _ hbackend)]
      | some backend =>
        obtain ⟨backend', hbackend', rfl | ⟨bytes, hbytes, rfl⟩⟩ := updateAll_changed
          (f := fun key bytes => MemoryStateBackend.restore bitcode (order.names key) bytes)
          nodup_visit hbackend
        · rw [state_of_lookup hbackend, state_of_lookup hbackend']
        · rw [state_of_lookup hbackend, state_of_lookup hbackend']
          exact MemoryStateBackend.restore_readsAs_iff.mpr
            (h key backend bytes hbackend ((bytesOf_ok hdecode key).trans (mem_visit.mp hbytes)))
            (order.names key) name

theorem unchanging_of_error {e : String} (h : bitcode.keys.deserialize data = .error e) :
    s.Unchanging bitcode data := by
  intro key backend bytes _ hbytes
  rw [bytesOf, h] at hbytes
  cases hbytes

/-- **When a restore that fails changes nothing.** -/
theorem restore_clean_iff :
    (∀ order, (∃ e, ((restore bitcode order data).runOn s).1 = .error e) →
        ReadsAs ((restore bitcode order data).runOn s).2 s) ↔
      (s.Malformed bitcode data → s.Unchanging bitcode data) :=
  keeps_of_fails_iff restore_fails_iff restore_readsAs_iff fun ⟨_, he⟩ => unchanging_of_error he

end KeyedStateBackend

/-! ## Both backends -/

/-- **When a restore that fails leaves every state as it was:** if no state is given bytes that do
not decode, or those that decode change no reading. -/
theorem restore_atomic_iff (bitcode : Bitcode U) :
    (∀ (backend : MemoryStateBackend U) (data : Bytes),
      (∀ iter, (∃ e, ((MemoryStateBackend.restore bitcode iter data).runOn backend).1 = .error e) →
        ((MemoryStateBackend.restore bitcode iter data).runOn backend).2.ReadsAs backend) ↔
      (backend.Malformed bitcode data → backend.Unchanging bitcode data)) ∧
    ∀ (s : KeyedStateBackend U) (data : Bytes),
      (∀ order, (∃ e, ((KeyedStateBackend.restore bitcode order data).runOn s).1 = .error e) →
        ((KeyedStateBackend.restore bitcode order data).runOn s).2.ReadsAs s) ↔
      (s.Malformed bitcode data → s.Unchanging bitcode data) :=
  ⟨fun _ _ => MemoryStateBackend.restore_clean_iff, fun _ _ => KeyedStateBackend.restore_clean_iff⟩

/-- The codecs of `byteBitcode`, with a tag before a value; other bytes are no value. -/
def taggedBitcode : Bitcode byteTypes where
  key := byteBitcode.key
  content
    | .value _ =>
      { serialize := fun value : Option UInt8 => .ok (value.elim [0] fun b => [1, b])
        deserialize := fun bytes =>
          match bytes with
          | [0] => .ok (none : Option UInt8)
          | [1, b] => .ok (some b)
          | _ => .error "invalid value" }
    | .list v => byteBitcode.content (.list v)
    | .map k v => byteBitcode.content (.map k v)
  names := byteBitcode.names
  keys := byteBitcode.keys

theorem taggedBitcode_roundTrips : taggedBitcode.RoundTrips where
  content kind c b h := by
    cases kind with
    | value v =>
      cases h
      refine ⟨c, ?_, rfl⟩
      cases c <;> rfl
    | list v => exact byteBitcode_roundTrips.content _ c b h
    | map k v => exact byteBitcode_roundTrips.content _ c b h
  names := byteBitcode_roundTrips.names
  keys := byteBitcode_roundTrips.keys

/-- The bytes of a map, if they can be written. -/
def written : Except String Bytes → Bytes
  | .ok data => data
  | .error _ => []

/-- A value for `count`, and no byte for `limit`. -/
def malformedNames : Bytes :=
  written (taggedBitcode.names.serialize ((∅ : AList fun _ : String => Bytes).insert "limit" []
    |>.insert "count" [1, 9]))

/-- The same under the key 1. -/
def malformedKeys : Bytes :=
  written (taggedBitcode.keys.serialize
    ((∅ : AList fun _ : Bytes => Bytes).insert [1] malformedNames))

/-- Two values under the key 1. -/
def twoValues : KeyedStateBackend byteTypes :=
  Runs.exec (KeyedStateBackend.step taggedBitcode) .new
    [.setCurrentKey () (1 : UInt8), .create (.value ()) "count", .create (.value ()) "limit"]

/-- The backend of the key 1. -/
def valuesOfOne : MemoryStateBackend byteTypes := (twoValues.backends.lookup [1]).getD .new

/-- Both restores fail at `limit`, after they have set `count`. -/
theorem malformedNames_not_atomic :
    ((∃ e, ((MemoryStateBackend.restore taggedBitcode (IterOrder.given _) malformedNames).runOn
        valuesOfOne).1 = .error e) ∧
      ¬ ((MemoryStateBackend.restore taggedBitcode (IterOrder.given _) malformedNames).runOn
        valuesOfOne).2.ReadsAs valuesOfOne) ∧
    (∃ e, ((KeyedStateBackend.restore taggedBitcode ⟨IterOrder.given _, fun _ => IterOrder.given _⟩
        malformedKeys).runOn twoValues).1 = .error e) ∧
      ¬ ((KeyedStateBackend.restore taggedBitcode ⟨IterOrder.given _, fun _ => IterOrder.given _⟩
        malformedKeys).runOn twoValues).2.ReadsAs twoValues := by
  refine ⟨⟨⟨.serialization "invalid value", by decide +kernel⟩, fun h => ?_⟩,
    ⟨.serialization "invalid value", by decide +kernel⟩, fun h => ?_⟩
  · have hafter : ((MemoryStateBackend.restore taggedBitcode (IterOrder.given _)
        malformedNames).runOn valuesOfOne).2.states.lookup "count" =
          some ⟨.value (), some (9 : UInt8)⟩ := by decide +kernel
    have hbefore : valuesOfOne.states.lookup "count" =
        some ⟨.value (), (none : Option UInt8)⟩ := by decide +kernel
    have hread := h "count"
    rw [hafter, hbefore] at hread
    cases hread
  · have hafter : ((KeyedStateBackend.restore taggedBitcode
        ⟨IterOrder.given _, fun _ => IterOrder.given _⟩ malformedKeys).runOn twoValues).2.state
          [1] "count" = some ⟨.value (), some (9 : UInt8)⟩ := by decide +kernel
    have hbefore : twoValues.state [1] "count" = some ⟨.value (), (none : Option UInt8)⟩ := by
      decide +kernel
    have hread := h [1] "count"
    rw [hafter, hbefore] at hread
    cases hread

end Flume
