import Flume.State.Rollback

/-!
# Recovery of keyed state into a fresh process

A new backend has no keys yet when a snapshot is restored into it, and `restore` only visits keys
that exist: the snapshot is read and forgotten.

* `Event`, `reached`: what a backend may go through before its snapshot;
* `keyTyped_reached`: every key of it is the serialization of some value;
* `Recovers`: the states created again read what they held at the snapshot;
* **`freshRestore_recovers_iff`**: that is so if and only if every state was empty.
-/

namespace Flume

open Fallible Entries Runs

variable {U : StateTypes}

namespace KeyedStateBackend

/-- What may happen to a backend: an operation, or a restore of any bytes. -/
inductive Event (U : StateTypes)
  | op (op : Op U)
  | restore (order : HashOrder) (data : Bytes)

/-- The backend after an event, whether it returned `Ok` or not. -/
def stepEvent (bitcode : Bitcode U) (s : KeyedStateBackend U) : Event U → KeyedStateBackend U
  | .op op => step bitcode s op
  | .restore order data => ((restore bitcode order data).runOn s).2

/-- The backend that a sequence of events leads to. -/
def reached (bitcode : Bitcode U) (events : List (Event U)) : KeyedStateBackend U :=
  exec (stepEvent bitcode) new events

/-- The calls by which an operator asks for its states: it sets keys and creates states. -/
def Op.Asks : Op U → Prop
  | .update _ _ _ => False
  | _ => True

/-- After a restore into `s`, the states of `s₀` can be created again, and whenever one has been,
it reads what it read in `s₀`. -/
structure Recovers (bitcode : Bitcode U) (s₀ s : KeyedStateBackend U) : Prop where
  creatable : ∀ key name t, s₀.state key name = some t → ∃ ops : List (Op U),
    (∀ op ∈ ops, op.Asks) ∧
      ∃ t', (exec (step bitcode) s ops).state key name = some t' ∧ t'.1 = t.1
  reads : ∀ ops : List (Op U), (∀ op ∈ ops, op.Asks) → ∀ key name t t',
    s₀.state key name = some t → (exec (step bitcode) s ops).state key name = some t' →
      t'.1 = t.1 → t'.read = t.read

/-! ## The keys of a backend -/

section Keys

variable {bitcode : Bitcode U} {s s' : KeyedStateBackend U}

/-- The bytes are the serialization of some key. -/
def KeyTyped (bitcode : Bitcode U) (key : Bytes) : Prop :=
  ∃ (t : U.Ty) (k : U.El t), (bitcode.key t).serialize k = .ok key

/-- Every key of the backend, and its current key, is a serialization. -/
structure KeysTyped (bitcode : Bitcode U) (s : KeyedStateBackend U) : Prop where
  backends : ∀ key ∈ s.backends, KeyTyped bitcode key
  current : ∀ key, s.currentKey = some key → KeyTyped bitcode key

theorem keysTyped_new : KeysTyped bitcode (new : KeyedStateBackend U) :=
  ⟨fun key hkey => absurd hkey (AList.notMem_empty key), fun key h => by cases h⟩

theorem KeysTyped.insert {key : Bytes} (h : KeysTyped bitcode s) (hkey : KeyTyped bitcode key)
    (backend : MemoryStateBackend U) :
    KeysTyped bitcode ⟨s.backends.insert key backend, s.currentKey⟩ := by
  refine ⟨fun key' hkey' => ?_, h.current⟩
  rcases (AList.mem_insert s.backends).mp hkey' with rfl | hmem
  · exact hkey
  · exact h.backends key' hmem

theorem mem_backends_of_state {key : Bytes} {name : String} {t : State U}
    (h : s.state key name = some t) : key ∈ s.backends := by
  by_contra hmem
  rw [state_of_lookup_none (AList.lookup_eq_none.mpr hmem)] at h
  cases h

theorem keysTyped_step (op : Op U) (h : KeysTyped bitcode s) :
    KeysTyped bitcode (step bitcode s op) := by
  cases op with
  | setCurrentKey t k =>
    unfold step Op.call setCurrentKey
    rw [runOn_bind, runOn_outcome]
    cases hser : serialization ((bitcode.key t).serialize k) with
    | error e => exact h
    | ok bytes =>
      refine ⟨h.backends, fun key hkey => ?_⟩
      cases hkey
      exact ⟨t, k, serialization_eq_ok hser⟩
  | clearCurrentKey => exact ⟨h.backends, fun key hkey => by cases hkey⟩
  | create kind name =>
    cases hkey : s.currentKey with
    | none =>
      unfold step Op.call createState onCurrentBackend
      rw [runOn_bind_ok runOn_get]
      simp only [hkey]
      exact h
    | some key =>
      rw [step_create kind name hkey]
      exact h.insert (h.current key hkey) _
  | update key name u =>
    change KeysTyped bitcode (s.update key name u)
    unfold KeyedStateBackend.update
    split
    · rename_i kind' content hs
      split_ifs
      · exact h.insert (h.backends key (mem_backends_of_state hs)) _
      · exact h
    · exact h

theorem keysTyped_restore (order : HashOrder) (data : Bytes) (h : KeysTyped bitcode s) :
    KeysTyped bitcode ((restore bitcode order data).runOn s).2 := by
  rw [runOn_restore]
  cases serialization (bitcode.keys.deserialize data) with
  | error e => exact h
  | ok map =>
    refine ⟨fun key hkey => h.backends key ?_, h.current⟩
    by_contra hmem
    have hnone := updateAll_none
      (fun key bytes => MemoryStateBackend.restore bitcode (order.names key) bytes)
      (visit order.keys map) (AList.lookup_eq_none.mpr hmem)
    exact AList.lookup_eq_none.mp hnone hkey

/-- **Every key of a backend is the serialization of some value.** -/
theorem keysTyped_reached (bitcode : Bitcode U) (events : List (Event U)) :
    KeysTyped bitcode (reached bitcode events) := by
  refine exec_invariant (fun s event h => ?_) keysTyped_new events
  cases event with
  | op op => exact keysTyped_step op h
  | restore order data => exact keysTyped_restore order data h

end Keys

/-! ## The restore into a new backend -/

section Fresh

variable {bitcode : Bitcode U} {s s₀ : KeyedStateBackend U} {order order' : HashOrder}
  {data : Bytes}

theorem restore_new (hb : bitcode.RoundTrips) (hsnapshot : s₀.snapshot bitcode order = .ok data) :
    (restore bitcode order' data).runOn new = (.ok (), new) := by
  obtain ⟨map, hdecode, -⟩ := snapshot_ok hb hsnapshot
  rw [runOn_restore, hdecode]
  simp only [serialization, new, updateAll_empty]

theorem state_new (key : Bytes) (name : String) :
    (new : KeyedStateBackend U).state key name = none := rfl

theorem isEmpty_of_asks {ops : List (Op U)} (hops : ∀ op ∈ ops, op.Asks)
    (hs : ∀ key name t, s.state key name = some t → t.IsEmpty) (key : Bytes) (name : String)
    (t : State U) (ht : (exec (step bitcode) s ops).state key name = some t) : t.IsEmpty := by
  induction ops generalizing s with
  | nil => exact hs key name t ht
  | cons op ops ih =>
    refine ih (fun op' hop' => hops op' (List.mem_cons_of_mem _ hop')) (fun key name t ht => ?_) ht
    have hop : op.Asks := hops op List.mem_cons_self
    cases op with
    | setCurrentKey ty k =>
      rw [state_setCurrentKey] at ht
      exact hs key name t ht
    | clearCurrentKey => exact hs key name t ht
    | create kind name₀ =>
      rcases state_create_cases bitcode s kind name₀ key name with h | ⟨-, h⟩
      · rw [h] at ht
        exact hs key name t ht
      · rw [h] at ht
        cases ht
        rfl
    | update key name u => exact hop.elim

theorem isEmpty_of_read_eq {t t' : State U} (h : t'.read = t.read) (ht : t'.IsEmpty) :
    t.IsEmpty := by
  obtain ⟨kind, content⟩ := t
  obtain ⟨kind', content'⟩ := t'
  obtain ⟨rfl, hread⟩ := Sigma.mk.inj h
  exact (eq_of_heq hread).symm.trans ht

theorem read_eq_of_isEmpty {t t' : State U} (hkind : t'.1 = t.1) (ht : t.IsEmpty)
    (ht' : t'.IsEmpty) : t'.read = t.read := by
  obtain ⟨kind, content⟩ := t
  obtain ⟨kind', content'⟩ := t'
  cases hkind
  exact congrArg (Sigma.mk kind) (Eq.trans ht' (Eq.symm ht))

theorem exists_asks (h : KeysTyped bitcode s₀) {key : Bytes} {name : String} {t : State U}
    (ht : s₀.state key name = some t) : ∃ ops : List (Op U), (∀ op ∈ ops, op.Asks) ∧
      ∃ t', (exec (step bitcode) new ops).state key name = some t' ∧ t'.1 = t.1 := by
  obtain ⟨ty, k, hser⟩ := h.backends key (mem_backends_of_state ht)
  refine ⟨[.setCurrentKey ty k, .create t.1 name], ?_, ⟨t.1, .empty t.1⟩, ?_, rfl⟩
  · intro op hop
    rcases List.mem_cons.mp hop with rfl | hop
    · trivial
    · rw [List.mem_singleton.mp hop]; trivial
  · have hkey : step bitcode (new : KeyedStateBackend U) (.setCurrentKey ty k) = ⟨∅, some key⟩ := by
      unfold step Op.call setCurrentKey
      rw [runOn_bind, runOn_outcome, hser]
      rfl
    rw [exec_cons, hkey, exec_cons, exec_nil, state_create_of_none t.1 rfl rfl, write,
      if_pos ⟨rfl, rfl⟩]

/-- **When keyed state is recovered by a fresh process:** if every state was empty. -/
theorem freshRestore_recovers_iff (bitcode : Bitcode U) (hb : bitcode.RoundTrips)
    (events : List (Event U)) (order order' : HashOrder) (data : Bytes)
    (hsnapshot : (reached bitcode events).snapshot bitcode order = .ok data) :
    ((restore bitcode order' data).runOn new).1 = .ok () ∧
      (Recovers bitcode (reached bitcode events) ((restore bitcode order' data).runOn new).2 ↔
        ∀ key name t, (reached bitcode events).state key name = some t → t.IsEmpty) := by
  have hnew : ∀ key name t, (new : KeyedStateBackend U).state key name = some t → t.IsEmpty := by
    intro key name t ht
    rw [state_new] at ht
    cases ht
  rw [restore_new hb hsnapshot]
  refine ⟨rfl, fun h key name t ht => ?_, fun hempty => ⟨fun key name t ht => ?_, ?_⟩⟩
  · obtain ⟨ops, hops, t', ht', hkind⟩ := h.creatable key name t ht
    exact isEmpty_of_read_eq (h.reads ops hops key name t t' ht ht' hkind)
      (isEmpty_of_asks hops hnew key name t' ht')
  · exact exists_asks (keysTyped_reached bitcode events) ht
  · intro ops hops key name t t' ht ht' hkind
    exact read_eq_of_isEmpty hkind (hempty key name t ht)
      (isEmpty_of_asks hops hnew key name t' ht')

end Fresh

/-! ## Two recoveries -/

/-- A list that was filled and cleared again. -/
def clearedEvents : List (Event byteTypes) :=
  [.op (.setCurrentKey () (1 : UInt8)), .op (.create (.list ()) "buffer"),
    .op (@Op.update _ [1] "buffer" (.list ()) (.add (5 : UInt8))),
    .op (@Op.update _ [1] "buffer" (.list ()) .clear)]

theorem clearedEvents_recovers :
    Recovers byteBitcode (reached byteBitcode clearedEvents)
      ((restore byteBitcode givenOrder (snapshotData (reached byteBitcode clearedEvents))).runOn
        new).2 :=
  (freshRestore_recovers_iff byteBitcode byteBitcode_roundTrips clearedEvents givenOrder givenOrder
    (snapshotData (reached byteBitcode clearedEvents)) (by decide +kernel)).2.mpr
    fun key name t ht => emptyWhenNew_of_entries new (by decide +kernel) key name t ht rfl

/-- A value is set. -/
def counterEvents : List (Event byteTypes) :=
  [.op (.setCurrentKey () (1 : UInt8)), .op (.create (.value ()) "val"),
    .op (@Op.update _ [1] "val" (.value ()) (.set (100 : UInt8)))]

/-- The new backend after the restore. -/
def freshAfter (events : List (Event byteTypes)) :
    Except FlumeError Unit × KeyedStateBackend byteTypes :=
  (restore byteBitcode givenOrder (snapshotData (reached byteBitcode events))).runOn new

/-- The calls that ask for the value again. -/
def counterAsks : List (Op byteTypes) := [.setCurrentKey () (1 : UInt8), .create (.value ()) "val"]

/-- The restore returns `Ok`, and the value is gone. -/
theorem counterEvents_not_recovers :
    (reached byteBitcode counterEvents).snapshot byteBitcode givenOrder =
        .ok (snapshotData (reached byteBitcode counterEvents)) ∧
      (freshAfter counterEvents).1 = .ok () ∧
      (reached byteBitcode counterEvents).state [1] "val" =
        some ⟨.value (), some (100 : UInt8)⟩ ∧
      (afterOps (freshAfter counterEvents).2 counterAsks).state [1] "val" =
        some ⟨.value (), (none : Option UInt8)⟩ ∧
      ¬ Recovers byteBitcode (reached byteBitcode counterEvents) (freshAfter counterEvents).2 := by
  have hbefore : (reached byteBitcode counterEvents).state [1] "val" =
      some ⟨.value (), some (100 : UInt8)⟩ := by decide +kernel
  have hafter : (afterOps (freshAfter counterEvents).2 counterAsks).state [1] "val" =
      some ⟨.value (), (none : Option UInt8)⟩ := by decide +kernel
  refine ⟨by decide +kernel, by decide +kernel, hbefore, hafter, fun h => ?_⟩
  have hasks : ∀ op ∈ counterAsks, op.Asks := by
    intro op hop
    simp only [counterAsks, List.mem_cons, List.not_mem_nil, or_false] at hop
    rcases hop with rfl | rfl <;> trivial
  have hread := h.reads counterAsks hasks _ _ _ _ hbefore hafter rfl
  exact absurd (isEmpty_of_read_eq hread rfl) (by decide +kernel)

end KeyedStateBackend

end Flume
