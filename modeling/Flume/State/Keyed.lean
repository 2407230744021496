import Flume.State.Memory

/-!
# The keyed state backend

One memory backend per serialized key. `state key name` is the state that the handles of `name`
under `key` share.

* `KeyedStateBackend.setCurrentKey`, `createState`, `snapshot`, `restore`;
* `Op`, `step`: the operations of a run; `state_create_cases`, `state_update` say what they do to
  the states, `state_step_of_some` that no state is ever lost;
* **`restore_snapshot`**: what restoring a snapshot does to each state.
-/

namespace Flume

open Fallible Entries

variable {U : StateTypes}

/-- The orders in which the hash maps are visited. -/
structure HashOrder where
  keys : IterOrder Bytes
  names : Bytes → IterOrder String

/-- A memory backend for each key. -/
structure KeyedStateBackend (U : StateTypes) where
  backends : AList fun _ : Bytes => MemoryStateBackend U
  currentKey : Option Bytes

namespace KeyedStateBackend

/-- A backend without keys. -/
def new : KeyedStateBackend U := ⟨∅, none⟩

/-- Calls of the backend. -/
abbrev Call (U : StateTypes) : Type → Type := Fallible FlumeError (KeyedStateBackend U)

/-- Sets the key that later operations are scoped to. -/
def setCurrentKey (bitcode : Bitcode U) (t : U.Ty) (key : U.El t) : Call U Unit := do
  let bytes ← outcome (serialization ((bitcode.key t).serialize key))
  modify fun s => { s with currentKey := some bytes }

/-- Clears the current key. -/
def clearCurrentKey : Call U Unit := modify fun s => { s with currentKey := none }

/-- Runs an operation on the backend of the current key, which is created if missing. -/
def onCurrentBackend (x : Fallible FlumeError (MemoryStateBackend U) Unit) : Call U Unit := do
  let s ← get
  match s.currentKey with
  | none => throw (.state "no current key set")
  | some key =>
    let done := x.runOn ((s.backends.lookup key).getD .new)
    set { s with backends := s.backends.insert key done.2 }
    outcome done.1

/-- Registers an empty state under the current key; the common body of the `create` functions. -/
def createState (kind : StateKind U) (name : String) : Call U Unit :=
  onCurrentBackend (MemoryStateBackend.createState kind name)

def createValueState (v : U.Ty) (name : String) : Call U Unit :=
  onCurrentBackend (MemoryStateBackend.createValueState v name)

def createListState (v : U.Ty) (name : String) : Call U Unit :=
  onCurrentBackend (MemoryStateBackend.createListState v name)

def createMapState (k v : U.Ty) (name : String) : Call U Unit :=
  onCurrentBackend (MemoryStateBackend.createMapState k v name)

/-- Serializes the states of all keys. -/
def snapshot (bitcode : Bitcode U) (order : HashOrder) (s : KeyedStateBackend U) :
    Except FlumeError Bytes :=
  match collect (fun key backend => backend.snapshot bitcode (order.names key))
    (visit order.keys s.backends) ∅ with
  | .ok map => serialization (bitcode.keys.serialize map)
  | .error e => .error e

/-- Restores the states of the keys that exist. -/
def restore (bitcode : Bitcode U) (order : HashOrder) (data : Bytes) : Call U Unit := do
  let map ← outcome (serialization (bitcode.keys.deserialize data))
  let s ← get
  let restored := (updateAll
    (fun key bytes => MemoryStateBackend.restore bitcode (order.names key) bytes)
    (visit order.keys map)).runOn s.backends
  set { s with backends := restored.2 }
  outcome restored.1

/-! ## The states of a backend -/

/-- The state `name` under `key`. -/
def state (s : KeyedStateBackend U) (key : Bytes) (name : String) : Option (State U) :=
  (s.backends.lookup key).bind fun backend => backend.states.lookup name

/-- The states with one of them set. -/
def write (states : Bytes → String → Option (State U)) (key₀ : Bytes) (name₀ : String)
    (t : State U) : Bytes → String → Option (State U) :=
  fun key name => if key = key₀ ∧ name = name₀ then some t else states key name

/-- Sets the state `name` under `key`. -/
def put (key : Bytes) (name : String) (t : State U) (s : KeyedStateBackend U) :
    KeyedStateBackend U :=
  let backend := (s.backends.lookup key).getD .new
  { s with backends := s.backends.insert key ⟨backend.states.insert name t⟩ }

/-- A handle changes its state; there is no handle of a state of another kind. -/
def update (key : Bytes) (name : String) {kind : StateKind U} (update : Update kind)
    (s : KeyedStateBackend U) : KeyedStateBackend U :=
  match s.state key name with
  | some ⟨kind', content⟩ =>
    if h : kind' = kind then s.put key name ⟨kind, update.apply (h ▸ content)⟩ else s
  | none => s

/-- The operations of a run, besides snapshots and restores. -/
inductive Op (U : StateTypes)
  | setCurrentKey (t : U.Ty) (key : U.El t)
  | clearCurrentKey
  | create (kind : StateKind U) (name : String)
  | update (key : Bytes) (name : String) {kind : StateKind U} (update : Update kind)

/-- The call of an operation. -/
def Op.call (bitcode : Bitcode U) : Op U → Call U Unit
  | .setCurrentKey t key => KeyedStateBackend.setCurrentKey bitcode t key
  | .clearCurrentKey => KeyedStateBackend.clearCurrentKey
  | .create kind name => createState kind name
  | .update key name u => modify (KeyedStateBackend.update key name u)

/-- The backend after an operation, whether it returned `Ok` or not. -/
def step (bitcode : Bitcode U) (s : KeyedStateBackend U) (op : Op U) : KeyedStateBackend U :=
  ((op.call bitcode).runOn s).2

/-! ## What an operation does to the states -/

variable {bitcode : Bitcode U} {s s' : KeyedStateBackend U} {key key₀ : Bytes}
  {name name₀ : String}

theorem state_of_lookup {backend : MemoryStateBackend U}
    (h : s.backends.lookup key = some backend) : s.state key name = backend.states.lookup name := by
  rw [state, h, Option.bind_some]

theorem state_of_lookup_none (h : s.backends.lookup key = none) : s.state key name = none := by
  rw [state, h, Option.bind_none]

theorem state_eq_some {t : State U} : s.state key name = some t ↔
    ∃ backend, ⟨key, backend⟩ ∈ s.backends.entries ∧ ⟨name, t⟩ ∈ backend.states.entries := by
  simp only [state, Option.bind_eq_some_iff, ← AList.mem_lookup_iff, Option.mem_def]

theorem lookup_getD_new (s : KeyedStateBackend U) (key : Bytes) (name : String) :
    ((s.backends.lookup key).getD .new).states.lookup name = s.state key name := by
  unfold state
  cases s.backends.lookup key <;> rfl

theorem state_insert (backend : MemoryStateBackend U) (currentKey : Option Bytes) :
    state ⟨s.backends.insert key₀ backend, currentKey⟩ key name =
      if key = key₀ then backend.states.lookup name else s.state key name := by
  split_ifs with hkey
  · subst hkey
    exact state_of_lookup (AList.lookup_insert _)
  · unfold state
    rw [AList.lookup_insert_ne hkey]

theorem state_put (t : State U) : (s.put key₀ name₀ t).state = write s.state key₀ name₀ t := by
  funext key name
  unfold put write
  rw [state_insert]
  by_cases hkey : key = key₀
  · subst hkey
    by_cases hname : name = name₀
    · subst hname
      rw [if_pos rfl, if_pos ⟨rfl, rfl⟩]
      exact AList.lookup_insert _
    · rw [if_pos rfl, if_neg fun h => hname h.2, ← lookup_getD_new]
      exact AList.lookup_insert_ne hname
  · rw [if_neg hkey, if_neg fun h => hkey h.1]

theorem state_setCurrentKey (t : U.Ty) (key : U.El t) :
    (step bitcode s (.setCurrentKey t key)).state = s.state := by
  unfold step Op.call setCurrentKey
  rw [runOn_bind, runOn_outcome]
  cases serialization ((bitcode.key t).serialize key) <;> rfl

theorem state_clearCurrentKey : (step bitcode s .clearCurrentKey).state = s.state := rfl

theorem step_create (kind : StateKind U) (name₀ : String) (hkey : s.currentKey = some key₀) :
    (step bitcode s (.create kind name₀)) =
      ⟨s.backends.insert key₀ ((MemoryStateBackend.createState kind name₀).runOn
        ((s.backends.lookup key₀).getD .new)).2, s.currentKey⟩ := by
  unfold step Op.call createState onCurrentBackend
  rw [runOn_bind_ok runOn_get]
  simp only [hkey]
  rw [runOn_bind_ok runOn_set, runOn_outcome]

theorem state_create_of_none (kind : StateKind U) (hkey : s.currentKey = some key₀)
    (hnone : s.state key₀ name₀ = none) :
    (step bitcode s (.create kind name₀)).state = write s.state key₀ name₀ ⟨kind, .empty kind⟩ := by
  have hmem : name₀ ∉ ((s.backends.lookup key₀).getD .new).states := by
    rw [← lookup_getD_new] at hnone
    exact AList.lookup_eq_none.mp hnone
  rw [step_create kind name₀ hkey, MemoryStateBackend.runOn_createState, if_neg hmem, ← state_put]
  rfl

theorem state_create_of_ne (kind : StateKind U)
    (h : ∀ key₀, s.currentKey = some key₀ → s.state key₀ name₀ ≠ none) :
    (step bitcode s (.create kind name₀)).state = s.state := by
  cases hkey : s.currentKey with
  | none =>
    unfold step Op.call createState onCurrentBackend
    rw [runOn_bind_ok runOn_get]
    simp only [hkey]
    rfl
  | some key₀ =>
    have hmem : name₀ ∈ ((s.backends.lookup key₀).getD .new).states := by
      by_contra hmem
      refine h key₀ hkey ?_
      rw [← lookup_getD_new]
      exact AList.lookup_eq_none.mpr hmem
    rw [step_create kind name₀ hkey, MemoryStateBackend.runOn_createState, if_pos hmem]
    funext key name
    rw [state_insert]
    split_ifs with hk
    · rw [hk, lookup_getD_new]
    · rfl

theorem state_create_cases (bitcode : Bitcode U) (s : KeyedStateBackend U) (kind : StateKind U)
    (name₀ : String) (key : Bytes) (name : String) :
    (step bitcode s (.create kind name₀)).state key name = s.state key name ∨
      s.state key name = none ∧
        (step bitcode s (.create kind name₀)).state key name = some ⟨kind, .empty kind⟩ := by
  by_cases h : ∃ key₀, s.currentKey = some key₀ ∧ s.state key₀ name₀ = none
  · obtain ⟨key₀, hkey, hnone⟩ := h
    rw [state_create_of_none kind hkey hnone, write]
    split_ifs with haddr
    · rw [haddr.1, haddr.2]
      exact Or.inr ⟨hnone, rfl⟩
    · exact Or.inl rfl
  · rw [state_create_of_ne kind fun key₀ hkey hnone => h ⟨key₀, hkey, hnone⟩]
    exact Or.inl rfl

theorem state_update {kind : StateKind U} {content : Content kind} (u : Update kind)
    (h : s.state key₀ name₀ = some ⟨kind, content⟩) :
    (step bitcode s (.update key₀ name₀ u)).state =
      write s.state key₀ name₀ ⟨kind, u.apply content⟩ := by
  have hstep : step bitcode s (.update key₀ name₀ u) =
      s.put key₀ name₀ ⟨kind, u.apply content⟩ := by
    change s.update key₀ name₀ u = _
    unfold update
    rw [h]
    exact dif_pos rfl
  rw [hstep, state_put]

theorem state_update_of_ne {kind : StateKind U} (u : Update kind)
    (h : ∀ content, s.state key₀ name₀ ≠ some ⟨kind, content⟩) :
    (step bitcode s (.update key₀ name₀ u)).state = s.state := by
  have hstep : step bitcode s (.update key₀ name₀ u) = s := by
    change s.update key₀ name₀ u = _
    unfold update
    split
    · rename_i kind' content hs
      refine dif_neg fun hkind => ?_
      subst hkind
      exact h content hs
    · rfl
  rw [hstep]

/-- **No state is lost or changes its kind.** -/
theorem state_step_of_some (bitcode : Bitcode U) (op : Op U) {t : State U}
    (h : s.state key name = some t) :
    ∃ t', (step bitcode s op).state key name = some t' ∧ t'.1 = t.1 := by
  have hwrite : ∀ {key₀ name₀} {t₀ : State U},
      (key = key₀ ∧ name = name₀ → t₀.1 = t.1) →
      ∃ t', write s.state key₀ name₀ t₀ key name = some t' ∧ t'.1 = t.1 := by
    intro key₀ name₀ t₀ hkind
    unfold write
    split_ifs with haddr
    · exact ⟨t₀, rfl, hkind haddr⟩
    · exact ⟨t, h, rfl⟩
  cases op with
  | setCurrentKey ty k => rw [state_setCurrentKey]; exact ⟨t, h, rfl⟩
  | clearCurrentKey => rw [state_clearCurrentKey]; exact ⟨t, h, rfl⟩
  | create kind name₀ =>
    rcases state_create_cases bitcode s kind name₀ key name with hs | ⟨hs, -⟩
    · rw [hs]; exact ⟨t, h, rfl⟩
    · rw [h] at hs; cases hs
  | @update key₀ name₀ kind u =>
    by_cases hs : ∃ content, s.state key₀ name₀ = some ⟨kind, content⟩
    · obtain ⟨content, hs⟩ := hs
      rw [state_update u hs]
      refine hwrite fun haddr => ?_
      rw [haddr.1, haddr.2, hs] at h
      cases h
      rfl
    · rw [state_update_of_ne u fun content hc => hs ⟨content, hc⟩]
      exact ⟨t, h, rfl⟩

/-! ## Snapshot and restore -/

theorem snapshot_ok {order : HashOrder} {data : Bytes} (hb : bitcode.RoundTrips)
    (h : s.snapshot bitcode order = .ok data) :
    ∃ map, bitcode.keys.deserialize data = .ok map ∧ ∀ key,
      (s.backends.lookup key = none → map.lookup key = none) ∧
      ∀ backend, s.backends.lookup key = some backend →
        ∃ bytes, backend.snapshot bitcode (order.names key) = .ok bytes ∧
          map.lookup key = some bytes := by
  unfold snapshot at h
  split at h
  · rename_i map hcollect
    obtain ⟨map', hdecode, hlookup⟩ := hb.keys _ _ (serialization_eq_ok h)
    refine ⟨map', hdecode, fun key => ?_⟩
    rw [hlookup]
    exact collect_visit_ok hcollect key
  · cases h

theorem runOn_restore (bitcode : Bitcode U) (order : HashOrder) (data : Bytes)
    (s : KeyedStateBackend U) :
    (restore bitcode order data).runOn s =
      match serialization (bitcode.keys.deserialize data) with
      | .ok map =>
        let restored :=
          (updateAll (fun key bytes => MemoryStateBackend.restore bitcode (order.names key) bytes)
            (visit order.keys map)).runOn s.backends
        (restored.1, { s with backends := restored.2 })
      | .error e => (.error e, s) := by
  unfold restore
  rw [runOn_bind, runOn_outcome]
  cases serialization (bitcode.keys.deserialize data) with
  | error e => rfl
  | ok map =>
    dsimp only
    rw [runOn_bind_ok runOn_get, runOn_bind_ok runOn_set, runOn_outcome]

theorem restore_ok {order : HashOrder} {data : Bytes}
    (h : (restore bitcode order data).runOn s = (.ok (), s')) :
    ∃ map, bitcode.keys.deserialize data = .ok map ∧ ∀ key,
      (s.backends.lookup key = none → s'.backends.lookup key = none) ∧
      (map.lookup key = none → s'.backends.lookup key = s.backends.lookup key) ∧
      ∀ bytes backend, map.lookup key = some bytes → s.backends.lookup key = some backend →
        ∃ backend', (MemoryStateBackend.restore bitcode (order.names key) bytes).runOn backend =
          (.ok (), backend') ∧ s'.backends.lookup key = some backend' := by
  rw [runOn_restore] at h
  cases hdecode : serialization (bitcode.keys.deserialize data) with
  | error e =>
    rw [hdecode] at h
    cases h
  | ok map =>
    rw [hdecode] at h
    obtain ⟨hok, rfl⟩ := Prod.mk.inj h
    exact ⟨map, serialization_eq_ok hdecode, updateAll_visit_ok (Prod.ext hok rfl)⟩

/-- **Restoring a snapshot** creates no state, and gives each state that exists the reading it had
in the snapshot; a state that the snapshot does not hold stays as it is. -/
theorem restore_snapshot {order order' : HashOrder} {data : Bytes} {s₀ : KeyedStateBackend U}
    (hb : bitcode.RoundTrips) (hsnapshot : s₀.snapshot bitcode order = .ok data)
    (hrestore : (restore bitcode order' data).runOn s = (.ok (), s')) (key : Bytes)
    (name : String) :
    (s.state key name = none → s'.state key name = none) ∧
      ∀ t, s.state key name = some t →
        ∃ t', s'.state key name = some t' ∧ State.Restored (s₀.state key name) t t' := by
  obtain ⟨map, hdecode, hmap⟩ := snapshot_ok hb hsnapshot
  obtain ⟨map', hdecode', hkeys⟩ := restore_ok hrestore
  rw [hdecode] at hdecode'
  cases hdecode'
  obtain ⟨hnoKey, hnoBytes, hboth⟩ := hkeys key
  obtain ⟨habsent, hpresent⟩ := hmap key
  cases hbackend : s.backends.lookup key with
  | none =>
    rw [state_of_lookup_none hbackend, state_of_lookup_none (hnoKey hbackend)]
    exact ⟨fun _ => rfl, fun t ht => by cases ht⟩
  | some backend =>
    rw [state_of_lookup hbackend]
    cases hbackend₀ : s₀.backends.lookup key with
    | none =>
      rw [state_of_lookup ((hnoBytes (habsent hbackend₀)).trans hbackend),
        state_of_lookup_none hbackend₀]
      exact ⟨id, fun t ht => ⟨t, ht, State.Restored.refl t⟩⟩
    | some backend₀ =>
      obtain ⟨bytes, hsnap, hbytes⟩ := hpresent backend₀ hbackend₀
      obtain ⟨backend', hrun, hbackend'⟩ := hboth bytes backend hbytes hbackend
      rw [state_of_lookup hbackend', state_of_lookup hbackend₀]
      exact MemoryStateBackend.restore_snapshot hb hsnap hrun name

end KeyedStateBackend

end Flume
