import Flume.Core.Record
import Flume.Lib.Entries
import Flume.Lib.Framing

/-!
# The memory state backend

Value, list and map states under names, with snapshot and restore. Elements are typed by a universe
`StateTypes`; the `bitcode` crate is a parameter, `Bitcode`. A handle and the backend share one
cell, so a handle is the name of its state.

* `Content`, `Update`: what a state holds and the operations of its handle;
* `MemoryStateBackend.createState`, `snapshot`, `restore`;
* **`restore_snapshot`**: what restoring a snapshot does to each state (`State.Restored`).
-/

namespace Flume

open Fallible Entries Framing

/-! ## States and their contents -/

/-- The types of the elements that states hold. -/
structure StateTypes where
  Ty : Type
  El : Ty → Type
  [decTy : DecidableEq Ty]
  [decEl : ∀ t, DecidableEq (El t)]

instance (U : StateTypes) : DecidableEq U.Ty := U.decTy
instance (U : StateTypes) (t : U.Ty) : DecidableEq (U.El t) := U.decEl t

/-- A kind of state, with the types of its elements. -/
inductive StateKind (U : StateTypes)
  | value (v : U.Ty)
  | list (v : U.Ty)
  | map (k v : U.Ty)
  deriving DecidableEq

/-- Operations of a value state. -/
def ValueState.set {V : Type} (value : V) (_ : Option V) : Option V := some value

/-- Operations of a list state. -/
def ListState.add {V : Type} (value : V) (list : List V) : List V := list ++ [value]

namespace MapState

/-! Operations of a map state. -/

variable {K V : Type} [DecidableEq K]

def get (map : AList fun _ : K => V) (key : K) : Option V := map.lookup key

def put (key : K) (value : V) (map : AList fun _ : K => V) : AList fun _ : K => V :=
  map.insert key value

def remove (key : K) (map : AList fun _ : K => V) : AList fun _ : K => V := map.erase key

theorem get_put (key key' : K) (value : V) (map : AList fun _ : K => V) :
    get (put key value map) key' = if key' = key then some value else get map key' := by
  unfold get put
  split_ifs with h
  · rw [h, AList.lookup_insert]
  · rw [AList.lookup_insert_ne h]

theorem get_remove (key key' : K) (map : AList fun _ : K => V) :
    get (remove key map) key' = if key' = key then none else get map key' := by
  unfold get remove
  split_ifs with h
  · rw [h, AList.lookup_erase]
  · rw [AList.lookup_erase_ne h]

variable {map map' : AList fun _ : K => V}

theorem get_put_congr (key : K) (value : V) (h : get map = get map') :
    get (put key value map) = get (put key value map') := by
  funext key'
  rw [get_put, get_put, h]

theorem get_remove_congr (key : K) (h : get map = get map') :
    get (remove key map) = get (remove key map') := by
  funext key'
  rw [get_remove, get_remove, h]

end MapState

variable {U : StateTypes}

/-- What a state holds. -/
def Content : StateKind U → Type
  | .value v => Option (U.El v)
  | .list v => List (U.El v)
  | .map k v => AList fun _ : U.El k => U.El v

instance : (kind : StateKind U) → DecidableEq (Content kind)
  | .value v => inferInstanceAs (DecidableEq (Option (U.El v)))
  | .list v => inferInstanceAs (DecidableEq (List (U.El v)))
  | .map k v => inferInstanceAs (DecidableEq (AList fun _ : U.El k => U.El v))

/-- What the handle of a state reads: the value, the list, or the value of each key. -/
def Reading : StateKind U → Type
  | .value v => Option (U.El v)
  | .list v => List (U.El v)
  | .map k v => U.El k → Option (U.El v)

/-- What a new state holds. -/
def Content.empty : (kind : StateKind U) → Content kind
  | .value _ => none
  | .list _ => []
  | .map k v => (∅ : AList fun _ : U.El k => U.El v)

/-- `get` of a handle. -/
def Content.read : {kind : StateKind U} → Content kind → Reading kind
  | .value _, content => content
  | .list _, content => content
  | .map _ _, content => MapState.get content

/-- The operations by which a handle changes its state. -/
inductive Update : StateKind U → Type
  | set {v : U.Ty} (value : U.El v) : Update (.value v)
  | add {v : U.Ty} (value : U.El v) : Update (.list v)
  | put {k v : U.Ty} (key : U.El k) (value : U.El v) : Update (.map k v)
  | remove {k v : U.Ty} (key : U.El k) : Update (.map k v)
  | clear {kind : StateKind U} : Update kind

/-- The content after an operation. -/
def Update.apply : {kind : StateKind U} → Update kind → Content kind → Content kind
  | _, .set value, content => ValueState.set value content
  | _, .add value, content => ListState.add value content
  | _, .put key value, content => MapState.put key value content
  | _, .remove key, content => MapState.remove key content
  | kind, .clear, _ => .empty kind

/-- A state: a kind and a content. -/
abbrev State (U : StateTypes) : Type := Σ kind : StateKind U, Content kind

/-- What the handle of a state reads, with its kind. -/
def State.read (s : State U) : Σ kind : StateKind U, Reading kind := ⟨s.1, s.2.read⟩

/-- The state reads as empty: no value, an empty list, an empty map. -/
def State.IsEmpty (s : State U) : Prop := s.2.read = (Content.empty s.1).read

/-- Whether a content is empty. -/
def Content.isEmpty : {kind : StateKind U} → Content kind → Bool
  | .value _, content => Option.isNone content
  | .list _, content => List.isEmpty content
  | .map _ _, content => List.isEmpty (AList.entries content)

theorem MapState.get_eq_none_iff {K V : Type} [DecidableEq K] {map : AList fun _ : K => V} :
    get map = get ∅ ↔ map.entries = [] := by
  constructor
  · intro h
    by_contra hne
    obtain ⟨⟨key, value⟩, entries, hentries⟩ := List.exists_cons_of_ne_nil hne
    have hget : map.lookup key = some value :=
      AList.mem_lookup_iff.mpr (hentries ▸ List.mem_cons_self)
    exact Option.some_ne_none value (hget.symm.trans (congrFun h key))
  · intro h
    have hmap : map = ∅ := AList.ext h
    rw [hmap]

theorem State.isEmpty_iff (s : State U) : s.IsEmpty ↔ s.2.isEmpty = true := by
  obtain ⟨kind, content⟩ := s
  cases kind with
  | value v => exact Option.isNone_iff_eq_none.symm
  | list v => exact List.isEmpty_iff.symm
  | map k v => exact MapState.get_eq_none_iff.trans List.isEmpty_iff.symm

instance (s : State U) : Decidable s.IsEmpty := decidable_of_iff _ s.isEmpty_iff.symm

theorem Update.read_apply {kind : StateKind U} (update : Update kind) {c c' : Content kind}
    (h : c.read = c'.read) : (update.apply c).read = (update.apply c').read := by
  cases update with
  | set value => rfl
  | add value => exact congrArg (ListState.add value) h
  | put key value => exact MapState.get_put_congr key value h
  | remove key => exact MapState.get_remove_congr key h
  | clear => rfl

/-! ## Serialization -/

/-- The `bitcode` crate at the types that the backends serialize. -/
structure Bitcode (U : StateTypes) where
  key : (t : U.Ty) → Codec (U.El t)
  content : (kind : StateKind U) → Codec (Content kind)
  names : Codec (AList fun _ : String => Bytes)
  keys : Codec (AList fun _ : Bytes => Bytes)

/-- Deserializing what was serialized gives an equal value; hash maps are equal when their keys
have equal values. -/
structure Bitcode.RoundTrips (bitcode : Bitcode U) : Prop where
  content : ∀ kind c b, (bitcode.content kind).serialize c = .ok b →
    ∃ c', (bitcode.content kind).deserialize b = .ok c' ∧ c'.read = c.read
  names : ∀ m b, bitcode.names.serialize m = .ok b →
    ∃ m', bitcode.names.deserialize b = .ok m' ∧ ∀ name, m'.lookup name = m.lookup name
  keys : ∀ m b, bitcode.keys.serialize m = .ok b →
    ∃ m', bitcode.keys.deserialize b = .ok m' ∧ ∀ key, m'.lookup key = m.lookup key

/-- A result of `bitcode`, with its error as the backends report it. -/
def serialization {α : Type} : Except String α → Except FlumeError α
  | .ok a => .ok a
  | .error e => .error (.serialization e)

theorem serialization_eq_ok {α : Type} {r : Except String α} {a : α}
    (h : serialization r = .ok a) : r = .ok a := by
  cases r <;> cases h
  rfl

/-- `snapshot_bytes` of a state. -/
def State.snapshotBytes (bitcode : Bitcode U) (s : State U) : Except FlumeError Bytes :=
  serialization ((bitcode.content s.1).serialize s.2)

/-- `restore_bytes` of a state. -/
def State.restoreBytes (bitcode : Bitcode U) (data : Bytes) :
    Fallible FlumeError (State U) Unit := do
  let s ← get
  let content ← outcome (serialization ((bitcode.content s.1).deserialize data))
  set (⟨s.1, content⟩ : State U)

theorem State.runOn_restoreBytes (bitcode : Bitcode U) (data : Bytes) (t : State U) :
    (State.restoreBytes bitcode data).runOn t =
      match serialization ((bitcode.content t.1).deserialize data) with
      | .ok content => (.ok (), ⟨t.1, content⟩)
      | .error e => (.error e, t) := by
  unfold State.restoreBytes
  rw [runOn_bind_ok runOn_get, runOn_bind, runOn_outcome]
  cases serialization ((bitcode.content t.1).deserialize data) <;> rfl

/-- **A state restored from its own bytes reads the same.** -/
theorem State.restoreBytes_of_snapshotBytes {bitcode : Bitcode U} (hb : bitcode.RoundTrips)
    {s t : State U} {data : Bytes} (hkind : t.1 = s.1)
    (hsnapshot : s.snapshotBytes bitcode = .ok data) :
    ∃ t', (State.restoreBytes bitcode data).runOn t = (.ok (), t') ∧ t'.read = s.read := by
  obtain ⟨kind, content⟩ := s
  obtain ⟨kind', old⟩ := t
  cases hkind
  obtain ⟨c', hdecode, hread⟩ := hb.content _ _ _ (serialization_eq_ok hsnapshot)
  refine ⟨⟨kind, c'⟩, ?_, congrArg (Sigma.mk kind) hread⟩
  rw [State.runOn_restoreBytes, hdecode]
  rfl

theorem State.restoreBytes_kind (bitcode : Bitcode U) (t : State U) (data : Bytes) :
    ((State.restoreBytes bitcode data).runOn t).2.1 = t.1 := by
  rw [State.runOn_restoreBytes]
  cases serialization ((bitcode.content t.1).deserialize data) <;> rfl

/-- What has become of the state `t` after a snapshot was restored that held `before` in its
place. -/
structure State.Restored (before : Option (State U)) (t t' : State U) : Prop where
  kind : t'.1 = t.1
  absent : before = none → t' = t
  present : ∀ s, before = some s → t.1 = s.1 → t'.read = s.read

theorem State.Restored.refl (t : State U) : State.Restored none t t :=
  ⟨rfl, fun _ => rfl, fun s hs => by cases hs⟩

/-! ## The backend -/

/-- States under their names. -/
structure MemoryStateBackend (U : StateTypes) where
  states : AList fun _ : String => State U

namespace MemoryStateBackend

/-- A backend without states. -/
def new : MemoryStateBackend U := ⟨∅⟩

/-- Fails when a name is taken. -/
def checkDuplicate (name : String) : Fallible FlumeError (MemoryStateBackend U) Unit := do
  let backend ← get
  if name ∈ backend.states then throw (.state ("state '" ++ name ++ "' already registered"))
  else pure ()

/-- Registers an empty state; the common body of the `create` functions. -/
def createState (kind : StateKind U) (name : String) :
    Fallible FlumeError (MemoryStateBackend U) Unit := do
  checkDuplicate name
  modify fun backend => ⟨backend.states.insert name ⟨kind, .empty kind⟩⟩

def createValueState (v : U.Ty) (name : String) : Fallible FlumeError (MemoryStateBackend U) Unit :=
  createState (.value v) name

def createListState (v : U.Ty) (name : String) : Fallible FlumeError (MemoryStateBackend U) Unit :=
  createState (.list v) name

def createMapState (k v : U.Ty) (name : String) :
    Fallible FlumeError (MemoryStateBackend U) Unit :=
  createState (.map k v) name

/-- Serializes all states, visited in the order `iter`. -/
def snapshot (bitcode : Bitcode U) (iter : IterOrder String) (backend : MemoryStateBackend U) :
    Except FlumeError Bytes :=
  match collect (fun _ s => State.snapshotBytes bitcode s) (visit iter backend.states) ∅ with
  | .ok map => serialization (bitcode.names.serialize map)
  | .error e => .error e

/-- Restores the states that exist, visited in the order `iter`. -/
def restore (bitcode : Bitcode U) (iter : IterOrder String) (data : Bytes) :
    Fallible FlumeError (MemoryStateBackend U) Unit := do
  let map ← outcome (serialization (bitcode.names.deserialize data))
  let backend ← get
  let restored :=
    (updateAll (fun _ bytes => State.restoreBytes bitcode bytes) (visit iter map)).runOn
      backend.states
  set (⟨restored.2⟩ : MemoryStateBackend U)
  outcome restored.1

variable {bitcode : Bitcode U} {iter : IterOrder String} {data : Bytes}
  {backend backend' : MemoryStateBackend U}

theorem runOn_createState (kind : StateKind U) (name : String) (backend : MemoryStateBackend U) :
    (createState kind name).runOn backend =
      if name ∈ backend.states then
        (.error (.state ("state '" ++ name ++ "' already registered")), backend)
      else (.ok (), ⟨backend.states.insert name ⟨kind, .empty kind⟩⟩) := by
  unfold createState checkDuplicate
  rw [runOn_bind, runOn_bind_ok runOn_get, runOn_ite]
  split_ifs <;> rfl

theorem snapshot_ok (hb : bitcode.RoundTrips) (h : backend.snapshot bitcode iter = .ok data) :
    ∃ map, bitcode.names.deserialize data = .ok map ∧ ∀ name,
      (backend.states.lookup name = none → map.lookup name = none) ∧
      ∀ s, backend.states.lookup name = some s →
        ∃ bytes, s.snapshotBytes bitcode = .ok bytes ∧ map.lookup name = some bytes := by
  unfold snapshot at h
  split at h
  · rename_i map hcollect
    obtain ⟨map', hdecode, hlookup⟩ := hb.names _ _ (serialization_eq_ok h)
    refine ⟨map', hdecode, fun name => ?_⟩
    rw [hlookup]
    exact collect_visit_ok hcollect name
  · cases h

theorem runOn_restore (bitcode : Bitcode U) (iter : IterOrder String) (data : Bytes)
    (backend : MemoryStateBackend U) :
    (restore bitcode iter data).runOn backend =
      match serialization (bitcode.names.deserialize data) with
      | .ok map =>
        let restored :=
          (updateAll (fun _ bytes => State.restoreBytes bitcode bytes) (visit iter map)).runOn
            backend.states
        (restored.1, ⟨restored.2⟩)
      | .error e => (.error e, backend) := by
  unfold restore
  rw [runOn_bind, runOn_outcome]
  cases serialization (bitcode.names.deserialize data) with
  | error e => rfl
  | ok map =>
    dsimp only
    rw [runOn_bind_ok runOn_get, runOn_bind_ok runOn_set, runOn_outcome]

theorem restore_ok (h : (restore bitcode iter data).runOn backend = (.ok (), backend')) :
    ∃ map, bitcode.names.deserialize data = .ok map ∧ ∀ name,
      (backend.states.lookup name = none → backend'.states.lookup name = none) ∧
      (map.lookup name = none → backend'.states.lookup name = backend.states.lookup name) ∧
      ∀ bytes s, map.lookup name = some bytes → backend.states.lookup name = some s →
        ∃ s', (State.restoreBytes bitcode bytes).runOn s = (.ok (), s') ∧
          backend'.states.lookup name = some s' := by
  rw [runOn_restore] at h
  cases hdecode : serialization (bitcode.names.deserialize data) with
  | error e =>
    rw [hdecode] at h
    cases h
  | ok map =>
    rw [hdecode] at h
    obtain ⟨hok, rfl⟩ := Prod.mk.inj h
    exact ⟨map, serialization_eq_ok hdecode, updateAll_visit_ok (Prod.ext hok rfl)⟩

/-- **Restoring a snapshot of a backend** gives each state the reading it had then, if it was there
with the same kind, and leaves the others alone. -/
theorem restore_snapshot {iter' : IterOrder String} {backend₀ : MemoryStateBackend U}
    (hb : bitcode.RoundTrips) (hsnapshot : backend₀.snapshot bitcode iter = .ok data)
    (hrestore : (restore bitcode iter' data).runOn backend = (.ok (), backend')) (name : String) :
    (backend.states.lookup name = none → backend'.states.lookup name = none) ∧
      ∀ t, backend.states.lookup name = some t → ∃ t', backend'.states.lookup name = some t' ∧
        State.Restored (backend₀.states.lookup name) t t' := by
  obtain ⟨map, hdecode, hmap⟩ := snapshot_ok hb hsnapshot
  obtain ⟨map', hdecode', hstates⟩ := restore_ok hrestore
  rw [hdecode] at hdecode'
  cases hdecode'
  obtain ⟨hnone, hunnamed, hnamed⟩ := hstates name
  obtain ⟨habsent, hpresent⟩ := hmap name
  refine ⟨hnone, fun t ht => ?_⟩
  cases hs : backend₀.states.lookup name with
  | none => exact ⟨t, (hunnamed (habsent hs)).trans ht, State.Restored.refl t⟩
  | some s =>
    obtain ⟨bytes, hbytes, hlookup⟩ := hpresent s hs
    obtain ⟨t', hrun, ht'⟩ := hnamed bytes t hlookup ht
    have hkept := State.restoreBytes_kind bitcode t bytes
    rw [hrun] at hkept
    refine ⟨t', ht', hkept, fun h => absurd h (Option.some_ne_none s), fun s' hs' hkind => ?_⟩
    cases hs'
    obtain ⟨t'', hrun', hread⟩ := State.restoreBytes_of_snapshotBytes hb hkind hbytes
    rw [hrun] at hrun'
    cases hrun'
    exact hread

/-- **A restore of a snapshot returns `Ok`** as long as no state has changed its kind. -/
theorem restore_returns {iter' : IterOrder String} {backend₀ : MemoryStateBackend U}
    (hb : bitcode.RoundTrips) (hsnapshot : backend₀.snapshot bitcode iter = .ok data)
    (hkinds : ∀ name s t, backend₀.states.lookup name = some s →
      backend.states.lookup name = some t → t.1 = s.1) :
    ((restore bitcode iter' data).runOn backend).1 = .ok () := by
  obtain ⟨map, hdecode, hmap⟩ := snapshot_ok hb hsnapshot
  rw [runOn_restore, hdecode]
  change ((updateAll _ (visit iter' map)).runOn backend.states).1 = .ok ()
  cases hresult : ((updateAll (fun _ bytes => State.restoreBytes bitcode bytes)
    (visit iter' map)).runOn backend.states).1 with
  | ok u => rfl
  | error e =>
    obtain ⟨name, bytes, t, hbytes, ht, e', he'⟩ :=
      (updateAll_visit_fails_iff iter').mp ⟨e, hresult⟩
    cases hs : backend₀.states.lookup name with
    | none =>
      rw [(hmap name).1 hs] at hbytes
      cases hbytes
    | some s =>
      obtain ⟨bytes', hsnap, hlookup⟩ := (hmap name).2 s hs
      rw [hbytes] at hlookup
      cases hlookup
      obtain ⟨t', hrun, -⟩ :=
        State.restoreBytes_of_snapshotBytes hb (hkinds name s t hs ht) hsnap
      rw [hrun] at he'
      cases he'

end MemoryStateBackend

end Flume
