import Flume.State.ByteStates

/-!
# Handles of states

A handle and the backend share the cell of a state, an `Arc<Mutex<..>>`: the handle works on the
cell it was given, and the backend goes from the name of the state to the cell.

* `SharedBackend`: the cells and the references of the backend; no two states share a cell;
* `createState`, `HandleCall.call`, `snapshot`, `restore`: what the backend and the handles do;
* `related_createState`, `related_onCell`, **`related_restore`**, `snapshot_eq`: it is what
  `MemoryStateBackend` does under names;
* **`restore_liveHandles`**: after a restore every handle reads what it read at the snapshot.
-/

namespace Flume

open Fallible Entries

variable {U : StateTypes}

/-- Runs an operation of a handle on its state; there is no handle of a state of another kind. -/
def State.update {kind : StateKind U} (u : Update kind) (s : State U) : State U :=
  if h : s.1 = kind then ⟨kind, u.apply (h ▸ s.2)⟩ else s

theorem State.update_kind {kind : StateKind U} (u : Update kind) (s : State U) :
    (s.update u).1 = s.1 := by
  unfold State.update
  split_ifs with h
  · exact h.symm
  · rfl

/-- The cells of all states, in the order in which they were created, and the backend's references
to them. -/
structure SharedBackend (U : StateTypes) where
  cells : List (State U)
  states : AList fun _ : String => ℕ
  /-- the cells are those of the states -/
  named : ∀ ref, ref < cells.length ↔ ∃ name, states.lookup name = some ref
  /-- no two states share a cell -/
  unshared : ∀ name name' ref, states.lookup name = some ref → states.lookup name' = some ref →
    name = name'

namespace SharedBackend

/-- A backend without states. -/
def new : SharedBackend U where
  cells := []
  states := ∅
  named ref := by simp
  unshared name name' ref h := by cases h

/-- The backend with another content of one cell. -/
def setCell (shared : SharedBackend U) (ref : ℕ) (s : State U) : SharedBackend U where
  cells := shared.cells.set ref s
  states := shared.states
  named ref' := by rw [List.length_set]; exact shared.named ref'
  unshared := shared.unshared

theorem lt_of_lookup (shared : SharedBackend U) {name : String} {ref : ℕ}
    (h : shared.states.lookup name = some ref) : ref < shared.cells.length :=
  (shared.named ref).mpr ⟨name, h⟩

/-- The backend with a new cell. -/
def register (shared : SharedBackend U) (name : String) (s : State U)
    (hname : name ∉ shared.states) : SharedBackend U where
  cells := shared.cells ++ [s]
  states := shared.states.insert name shared.cells.length
  named ref := by
    have hold : ∀ name', (∃ r, shared.states.lookup name' = some r) → name' ≠ name := by
      rintro _ ⟨r, hr⟩ rfl
      rw [AList.lookup_eq_none.mpr hname] at hr
      cases hr
    rw [List.length_append, List.length_singleton, Nat.lt_succ_iff_lt_or_eq, shared.named]
    constructor
    · rintro (⟨name', hname'⟩ | rfl)
      · exact ⟨name', by rwa [AList.lookup_insert_ne (hold name' ⟨ref, hname'⟩)]⟩
      · exact ⟨name, AList.lookup_insert _⟩
    · rintro ⟨name', hname'⟩
      by_cases h : name' = name
      · rw [h, AList.lookup_insert] at hname'
        exact Or.inr (Option.some.inj hname').symm
      · rw [AList.lookup_insert_ne h] at hname'
        exact Or.inl ⟨name', hname'⟩
  unshared name₁ name₂ ref h₁ h₂ := by
    by_cases e₁ : name₁ = name
    · by_cases e₂ : name₂ = name
      · rw [e₁, e₂]
      · rw [e₁, AList.lookup_insert] at h₁
        rw [AList.lookup_insert_ne e₂] at h₂
        have hlt := shared.lt_of_lookup h₂
        cases h₁
        omega
    · by_cases e₂ : name₂ = name
      · rw [e₂, AList.lookup_insert] at h₂
        rw [AList.lookup_insert_ne e₁] at h₁
        have hlt := shared.lt_of_lookup h₁
        cases h₂
        omega
      · rw [AList.lookup_insert_ne e₁] at h₁
        rw [AList.lookup_insert_ne e₂] at h₂
        exact shared.unshared name₁ name₂ ref h₁ h₂

/-- Registers an empty state and returns the cell for its handle. -/
def createState (kind : StateKind U) (name : String) :
    Fallible FlumeError (SharedBackend U) ℕ := do
  let shared ← get
  if h : name ∈ shared.states then
    throw (.state ("state '" ++ name ++ "' already registered"))
  else
    set (shared.register name ⟨kind, .empty kind⟩ h)
    return shared.cells.length

/-- Runs an operation on a cell. -/
def onCell (ref : ℕ) (f : Fallible FlumeError (State U) Unit) :
    Fallible FlumeError (SharedBackend U) Unit := do
  let shared ← get
  match shared.cells[ref]? with
  | some s =>
    set (shared.setCell ref (f.runOn s).2)
    outcome (f.runOn s).1
  | none => pure ()

/-- Runs an operation on the cell of a state, if there is one of that name. -/
def onState (name : String) (f : Fallible FlumeError (State U) Unit) :
    Fallible FlumeError (SharedBackend U) Unit := do
  let shared ← get
  match shared.states.lookup name with
  | some ref => onCell ref f
  | none => pure ()

/-- The names and contents of the states, visited in the order `iter`. -/
def visited (iter : IterOrder String) (shared : SharedBackend U) : List (String × State U) :=
  (visit iter shared.states).filterMap fun entry => shared.cells[entry.2]?.map fun s => (entry.1, s)

/-- Serializes all states, visited in the order `iter`. -/
def snapshot (bitcode : Bitcode U) (iter : IterOrder String) (shared : SharedBackend U) :
    Except FlumeError Bytes :=
  match collect (fun _ s => State.snapshotBytes bitcode s) (shared.visited iter) ∅ with
  | .ok map => serialization (bitcode.names.serialize map)
  | .error e => .error e

/-- Restores the states that exist, visited in the order `iter`. -/
def restore (bitcode : Bitcode U) (iter : IterOrder String) (data : Bytes) :
    Fallible FlumeError (SharedBackend U) Unit := do
  let map ← outcome (serialization (bitcode.names.deserialize data))
  (visit iter map).forM fun entry => onState entry.1 (State.restoreBytes bitcode entry.2)

end SharedBackend

/-- An operation of the handle that has the cell `ref`. -/
structure HandleCall (U : StateTypes) where
  ref : ℕ
  kind : StateKind U
  update : Update kind

/-- Runs the operation. -/
def HandleCall.call (c : HandleCall U) : Fallible FlumeError (SharedBackend U) Unit :=
  SharedBackend.onCell c.ref (modify (State.update c.update))

/-- Every value that the backends serialize can be serialized. -/
structure Bitcode.Total (bitcode : Bitcode U) : Prop where
  content : ∀ kind c, ∃ b, (bitcode.content kind).serialize c = .ok b
  names : ∀ m, ∃ b, bitcode.names.serialize m = .ok b

/-- The bytes of a snapshot decode to the states: to their names, and for each name to what the
state reads. -/
def Decodes (bitcode : Bitcode U) (data : Bytes) (states : String → Option (State U)) : Prop :=
  ∃ map, bitcode.names.deserialize data = .ok map ∧ ∀ name,
    (states name = none → map.lookup name = none) ∧
    ∀ s, states name = some s → ∃ bytes content, map.lookup name = some bytes ∧
      (bitcode.content s.1).deserialize bytes = .ok content ∧ content.read = s.2.read

namespace SharedBackend

/-- What the handle that has the cell `ref` reads. -/
def read (shared : SharedBackend U) (ref : ℕ) : Option (Σ kind : StateKind U, Reading kind) :=
  shared.cells[ref]?.map State.read

/-- The state of a name. -/
def stateOf (shared : SharedBackend U) (name : String) : Option (State U) :=
  (shared.states.lookup name).bind fun ref => shared.cells[ref]?

/-! ## Names instead of cells -/

/-- The states under their names. -/
def Views (shared : SharedBackend U) (states : AList fun _ : String => State U) : Prop :=
  ∀ name, states.lookup name = shared.stateOf name

variable {shared : SharedBackend U} {states : AList fun _ : String => State U} {name : String}
  {ref : ℕ} {bitcode : Bitcode U} {iter : IterOrder String} {data : Bytes}

theorem stateOf_of_lookup (h : shared.states.lookup name = some ref) :
    shared.stateOf name = shared.cells[ref]? := by
  rw [stateOf, h, Option.bind_some]

theorem exists_stateOf (h : shared.states.lookup name = some ref) :
    ∃ s, shared.stateOf name = some s := by
  rw [stateOf_of_lookup h]
  exact ⟨_, List.getElem?_eq_getElem (shared.lt_of_lookup h)⟩

theorem stateOf_eq_none : shared.stateOf name = none ↔ name ∉ shared.states := by
  rw [← AList.lookup_eq_none]
  constructor
  · intro h
    by_contra hne
    obtain ⟨ref, href⟩ := Option.ne_none_iff_exists'.mp hne
    obtain ⟨s, hs⟩ := exists_stateOf href
    rw [h] at hs
    cases hs
  · intro h
    rw [stateOf, h, Option.bind_none]

theorem stateOf_setCell (h : shared.states.lookup name = some ref) (s : State U) (name' : String) :
    (shared.setCell ref s).stateOf name' =
      if name' = name then some s else shared.stateOf name' := by
  have hlt := shared.lt_of_lookup h
  unfold stateOf setCell
  split_ifs with hname
  · rw [hname]
    simp only [h, Option.bind_some]
    exact List.getElem?_set_self hlt
  · cases href : shared.states.lookup name' with
    | none => rfl
    | some ref' =>
      refine List.getElem?_set_ne ?_
      rintro rfl
      exact hname (shared.unshared name' name ref href h)

theorem stateOf_register (hname : name ∉ shared.states) (s : State U) (name' : String) :
    (shared.register name s hname).stateOf name' =
      if name' = name then some s else shared.stateOf name' := by
  unfold stateOf register
  split_ifs with h
  · rw [h, AList.lookup_insert, Option.bind_some]
    exact List.getElem?_concat_length
  · rw [AList.lookup_insert_ne h]
    cases href : shared.states.lookup name' with
    | none => rfl
    | some ref => exact List.getElem?_append_left (shared.lt_of_lookup href)

theorem views_insert (h : shared.Views states) {shared' : SharedBackend U} {s : State U}
    (hstates : ∀ name', shared'.stateOf name' =
      if name' = name then some s else shared.stateOf name') :
    shared'.Views (states.insert name s) := by
  intro name'
  rw [hstates]
  split_ifs with hname
  · rw [hname, AList.lookup_insert]
  · rw [AList.lookup_insert_ne hname, h name']

theorem related_onCell (h : shared.Views states) (href : shared.states.lookup name = some ref)
    (f : Fallible FlumeError (State U) Unit) :
    RelatedAt Views (onCell ref f) (updateEntry name f) shared states := by
  obtain ⟨s, hs⟩ := exists_stateOf href
  have hlookup : states.lookup name = some s := (h name).trans hs
  rw [stateOf_of_lookup href] at hs
  unfold RelatedAt onCell
  rw [runOn_bind_ok runOn_get, runOn_updateEntry_some f hlookup]
  simp only [hs]
  rw [runOn_bind_ok runOn_set, runOn_outcome]
  exact ⟨rfl, views_insert h (stateOf_setCell href _)⟩

theorem related_onState (name : String) (f : Fallible FlumeError (State U) Unit) :
    Related Views (onState name f) (updateEntry name f) := by
  intro shared states h
  unfold RelatedAt onState
  rw [runOn_bind_ok runOn_get]
  cases href : shared.states.lookup name with
  | some ref => exact related_onCell h href f
  | none =>
    have hnone : states.lookup name = none := by rw [h name, stateOf, href, Option.bind_none]
    rw [runOn_updateEntry_none f hnone]
    exact ⟨rfl, h⟩

/-- The backend with states under their names. -/
def Named (shared : SharedBackend U) (backend : MemoryStateBackend U) : Prop :=
  shared.Views backend.states

theorem related_createState (kind : StateKind U) (name : String) :
    Related Named (createState kind name >>= fun _ => pure ())
      (MemoryStateBackend.createState kind name) := by
  intro shared backend h
  have hmem : name ∈ backend.states ↔ name ∈ shared.states := by
    rw [← not_iff_not, ← stateOf_eq_none, ← AList.lookup_eq_none, h name]
  unfold RelatedAt createState
  rw [MemoryStateBackend.runOn_createState, runOn_bind, runOn_bind_ok runOn_get]
  by_cases hname : name ∈ shared.states
  · rw [dif_pos hname, if_pos (hmem.mpr hname)]
    exact ⟨rfl, h⟩
  · rw [dif_neg hname, if_neg (hmem.not.mpr hname)]
    exact ⟨rfl, views_insert h (stateOf_register hname _)⟩

theorem related_restore (bitcode : Bitcode U) (iter : IterOrder String) (data : Bytes) :
    Related Named (restore bitcode iter data) (MemoryStateBackend.restore bitcode iter data) := by
  intro shared backend h
  unfold RelatedAt restore MemoryStateBackend.restore
  rw [runOn_bind, runOn_bind, runOn_outcome, runOn_outcome]
  cases serialization (bitcode.names.deserialize data) with
  | error e => exact ⟨rfl, h⟩
  | ok map =>
    have hloop : Related Views
        ((visit iter map).forM fun entry => onState entry.1 (State.restoreBytes bitcode entry.2))
        (updateAll (fun _ bytes => State.restoreBytes bitcode bytes) (visit iter map)) :=
      Related.forM (fun entry : String × Bytes => related_onState entry.1 _) _
    dsimp only
    rw [runOn_bind_ok runOn_get, runOn_bind_ok runOn_set, runOn_outcome]
    exact hloop shared backend.states h

/-! ## Snapshots -/

theorem mem_visited {s : State U} :
    (name, s) ∈ shared.visited iter ↔ shared.stateOf name = some s := by
  unfold visited stateOf
  rw [List.mem_filterMap]
  constructor
  · rintro ⟨⟨name', ref⟩, hentry, hs⟩
    obtain ⟨s', hs', he⟩ := Option.map_eq_some_iff.mp hs
    obtain ⟨rfl, rfl⟩ := Prod.mk.inj he
    rw [mem_visit.mp hentry]
    exact hs'
  · intro h
    obtain ⟨ref, href, hs⟩ := Option.bind_eq_some_iff.mp h
    exact ⟨(name, ref), mem_visit.mpr href, Option.map_eq_some_iff.mpr ⟨s, hs, rfl⟩⟩

theorem nodup_visited : ((shared.visited iter).map Prod.fst).Nodup := by
  have hvisit : ((visit iter shared.states).map Prod.fst).Nodup := nodup_visit
  refine hvisit.sublist ?_
  unfold visited
  induction visit iter shared.states with
  | nil => exact List.Sublist.refl _
  | cons entry entries ih =>
    rw [List.filterMap_cons]
    cases shared.cells[entry.2]? with
    | none => exact ih.trans (List.sublist_cons_self _ _)
    | some s => exact ih.cons_cons entry.1

theorem exists_named (shared : SharedBackend U) : ∃ backend, shared.Named backend := by
  have htotal : ∃ states, collect (fun _ s => (Except.ok s : Except FlumeError (State U)))
      (shared.visited (IterOrder.given _)) ∅ = .ok states :=
    collect_total fun name s _ => ⟨s, rfl⟩
  obtain ⟨states, hstates⟩ := htotal
  obtain ⟨hin, hout⟩ := collect_ok nodup_visited hstates
  refine ⟨⟨states⟩, fun name => ?_⟩
  cases hs : shared.stateOf name with
  | some s =>
    obtain ⟨s', hs', hlookup⟩ := hin name s (mem_visited.mpr hs)
    cases hs'
    exact hlookup
  | none =>
    refine hout name fun hmem => ?_
    obtain ⟨⟨name', s⟩, hentry, rfl⟩ := List.mem_map.mp hmem
    rw [mem_visited.mp hentry] at hs
    cases hs

theorem snapshot_eq (bitcode : Bitcode U) (iter : IterOrder String) {backend : MemoryStateBackend U}
    (h : shared.Named backend) :
    ∃ iter', backend.snapshot bitcode iter' = shared.snapshot bitcode iter := by
  have hmem : ∀ name, name ∈ backend.states.keys ↔ name ∈ shared.states.keys := by
    intro name
    rw [← AList.mem_keys, ← AList.mem_keys, ← not_iff_not, ← stateOf_eq_none,
      ← AList.lookup_eq_none, h name]
  have hperm : (iter.order shared.states.keys).Perm backend.states.keys :=
    (iter.perm _).trans
      ((List.perm_ext_iff_of_nodup shared.states.nodupKeys backend.states.nodupKeys).mpr
        fun name => (hmem name).symm)
  have hvisited : visit (IterOrder.along hperm) backend.states = shared.visited iter := by
    unfold visit visited
    rw [IterOrder.order_along, visit, List.filterMap_filterMap]
    refine List.filterMap_congr fun name _ => ?_
    rw [h name, stateOf]
    cases shared.states.lookup name <;> rfl
  refine ⟨IterOrder.along hperm, ?_⟩
  unfold MemoryStateBackend.snapshot snapshot
  cases hmap : collect (fun _ s => State.snapshotBytes bitcode s) (shared.visited iter) ∅ with
  | error e => simp only [hvisited, hmap]
  | ok map => simp only [hvisited, hmap]

/-! ## What no operation of a handle changes -/

/-- The kind of the state in a cell. -/
def kindAt (shared : SharedBackend U) (ref : ℕ) : Option (StateKind U) :=
  (shared.cells[ref]?).map Sigma.fst

/-- The same cells with states of the same kinds, under the same names. -/
def SameShape (shared shared' : SharedBackend U) : Prop :=
  shared'.states = shared.states ∧ shared'.kindAt = shared.kindAt

theorem SameShape.refl (shared : SharedBackend U) : SameShape shared shared := ⟨rfl, rfl⟩

theorem SameShape.trans {shared' shared'' : SharedBackend U} (h : SameShape shared shared')
    (h' : SameShape shared' shared'') : SameShape shared shared'' :=
  ⟨h'.1.trans h.1, h'.2.trans h.2⟩

theorem map_fst_stateOf (shared : SharedBackend U) (name : String) :
    (shared.stateOf name).map Sigma.fst = (shared.states.lookup name).bind shared.kindAt := by
  unfold stateOf kindAt
  cases shared.states.lookup name <;> rfl

theorem SameShape.map_fst_stateOf {shared' : SharedBackend U} (h : SameShape shared shared')
    (name : String) :
    (shared'.stateOf name).map Sigma.fst = (shared.stateOf name).map Sigma.fst := by
  rw [SharedBackend.map_fst_stateOf, SharedBackend.map_fst_stateOf, h.1, h.2]

theorem sameShape_onCell (shared : SharedBackend U) (ref : ℕ)
    {f : Fallible FlumeError (State U) Unit} (hf : ∀ s, (f.runOn s).2.1 = s.1) :
    SameShape shared ((onCell ref f).runOn shared).2 := by
  unfold onCell
  rw [runOn_bind_ok runOn_get]
  cases hs : shared.cells[ref]? with
  | none => exact SameShape.refl shared
  | some s =>
    dsimp only
    rw [runOn_bind_ok runOn_set, runOn_outcome]
    refine ⟨rfl, ?_⟩
    funext ref'
    unfold kindAt setCell
    by_cases href : ref = ref'
    · subst href
      have hlt : ref < shared.cells.length := (List.getElem?_eq_some_iff.mp hs).1
      rw [List.getElem?_set_self hlt, hs, Option.map_some, Option.map_some, hf]
    · rw [List.getElem?_set_ne href]

theorem sameShape_calls (calls : List (HandleCall U)) (shared : SharedBackend U) :
    SameShape shared ((calls.forM HandleCall.call).runOn shared).2 :=
  runOn_forM_keeps (P := SameShape shared)
    (fun c _ h => h.trans (sameShape_onCell _ c.ref (State.update_kind c.update)))
    (SameShape.refl shared)

theorem sameShape_restore (bitcode : Bitcode U) (iter : IterOrder String) (data : Bytes)
    (shared : SharedBackend U) :
    SameShape shared ((restore bitcode iter data).runOn shared).2 := by
  unfold restore
  rw [runOn_bind, runOn_outcome]
  cases serialization (bitcode.names.deserialize data) with
  | error e => exact SameShape.refl shared
  | ok map =>
    refine runOn_forM_keeps (P := SameShape shared) (fun entry t h => h.trans ?_)
      (SameShape.refl shared)
    unfold onState
    rw [runOn_bind_ok runOn_get]
    cases t.states.lookup entry.1 with
    | none => exact SameShape.refl t
    | some ref =>
      exact sameShape_onCell t ref fun s => State.restoreBytes_kind bitcode s entry.2

/-! ## Restoring through live handles -/

theorem SameShape.read_eq {restored : SharedBackend U} (h : SameShape shared restored)
    (hread : ∀ name, (restored.stateOf name).map State.read = (shared.stateOf name).map State.read)
    (ref : ℕ) : restored.read ref = shared.read ref := by
  by_cases href : ref < shared.cells.length
  · obtain ⟨name, hname⟩ := (shared.named ref).mp href
    have hname' : restored.states.lookup name = some ref := by rw [h.1, hname]
    have hsame := hread name
    rw [stateOf_of_lookup hname, stateOf_of_lookup hname'] at hsame
    exact hsame
  · have hnone : shared.cells[ref]? = none := List.getElem?_eq_none (not_lt.mp href)
    have hnone' : restored.kindAt ref = none := by
      rw [h.2, kindAt, hnone]
      rfl
    rw [read, read, hnone, Option.map_eq_none_iff.mp hnone']

/-- **A snapshot decodes to the states.** -/
theorem decodes_snapshot (hb : bitcode.RoundTrips) (h : shared.snapshot bitcode iter = .ok data) :
    Decodes bitcode data shared.stateOf := by
  obtain ⟨backend, hnamed⟩ := shared.exists_named
  obtain ⟨iter', hsnapshot⟩ := snapshot_eq bitcode iter hnamed
  obtain ⟨map, hdecode, hmap⟩ := MemoryStateBackend.snapshot_ok hb (hsnapshot.trans h)
  refine ⟨map, hdecode, fun name => ?_⟩
  obtain ⟨hnone, hsome⟩ := hmap name
  rw [hnamed name] at hnone hsome
  refine ⟨hnone, fun s hs => ?_⟩
  obtain ⟨bytes, hbytes, hlookup⟩ := hsome s hs
  obtain ⟨content, hcontent, hread⟩ := hb.content _ _ _ (serialization_eq_ok hbytes)
  exact ⟨bytes, content, hlookup, hcontent, hread⟩

theorem exists_snapshot (ht : bitcode.Total) (iter : IterOrder String) (shared : SharedBackend U) :
    ∃ data, shared.snapshot bitcode iter = .ok data := by
  have hcollect : ∃ map,
      collect (fun _ s => State.snapshotBytes bitcode s) (shared.visited iter) ∅ = .ok map := by
    refine collect_total fun name s _ => ?_
    obtain ⟨bytes, hbytes⟩ := ht.content s.1 s.2
    exact ⟨bytes, by rw [State.snapshotBytes, hbytes]; rfl⟩
  obtain ⟨map, hmap⟩ := hcollect
  obtain ⟨data, hdata⟩ := ht.names map
  refine ⟨data, ?_⟩
  unfold snapshot
  rw [hmap]
  simp only [hdata, serialization]

theorem decodes_congr {states states' : String → Option (State U)}
    (hread : ∀ name, (states' name).map State.read = (states name).map State.read)
    (h : Decodes bitcode data states') : Decodes bitcode data states := by
  obtain ⟨map, hdecode, hmap⟩ := h
  refine ⟨map, hdecode, fun name => ⟨fun hnone => ?_, fun s hs => ?_⟩⟩
  · refine (hmap name).1 ?_
    have hsame := hread name
    rwa [hnone, Option.map_none, Option.map_eq_none_iff] at hsame
  · have hsame := hread name
    rw [hs] at hsame
    obtain ⟨s', hs', he⟩ := Option.map_eq_some_iff.mp hsame
    obtain ⟨bytes, content, hbytes, hcontent, hsnapshot⟩ := (hmap name).2 s' hs'
    obtain ⟨kind, old⟩ := s
    obtain ⟨kind', old'⟩ := s'
    obtain ⟨rfl, he⟩ := Sigma.mk.inj he
    exact ⟨bytes, content, hbytes, hcontent, hsnapshot.trans (eq_of_heq he)⟩

/-- **A restore brings back what a backend with the same states read at the snapshot.** -/
theorem restore_returns {shared' : SharedBackend U} {iter' : IterOrder String}
    (hb : bitcode.RoundTrips) (hsnapshot : shared.snapshot bitcode iter = .ok data)
    (hshape : SameShape shared shared') :
    ∃ restored, (restore bitcode iter' data).runOn shared' = (.ok (), restored) ∧
      (∀ ref, restored.read ref = shared.read ref) ∧
      ∀ name, (restored.stateOf name).map State.read = (shared.stateOf name).map State.read := by
  obtain ⟨backend, hnamed⟩ := shared.exists_named
  obtain ⟨backend', hnamed'⟩ := shared'.exists_named
  obtain ⟨iter₀, hsnapshot₀⟩ := snapshot_eq bitcode iter hnamed
  have hbefore : backend.snapshot bitcode iter₀ = .ok data := hsnapshot₀.trans hsnapshot
  have hkinds : ∀ name s t, backend.states.lookup name = some s →
      backend'.states.lookup name = some t → t.1 = s.1 := by
    intro name s t hs ht
    have hsame := hshape.map_fst_stateOf name
    rw [← hnamed name, ← hnamed' name, hs, ht] at hsame
    exact Option.some.inj hsame
  obtain ⟨hresult, hrestored⟩ := related_restore bitcode iter' data shared' backend' hnamed'
  have hok : ((MemoryStateBackend.restore bitcode iter' data).runOn backend').1 = .ok () :=
    MemoryStateBackend.restore_returns hb hbefore hkinds
  have hread : ∀ name,
      (((restore bitcode iter' data).runOn shared').2.stateOf name).map State.read =
        (shared.stateOf name).map State.read := by
    intro name
    obtain ⟨hnone, hsome⟩ :=
      MemoryStateBackend.restore_snapshot hb hbefore (Prod.ext hok rfl) name
    have hsame := hshape.map_fst_stateOf name
    rw [← hnamed name, ← hnamed' name] at hsame
    rw [← hnamed name, ← hrestored name]
    cases ht : backend'.states.lookup name with
    | none =>
      rw [ht, Option.map_none, eq_comm, Option.map_eq_none_iff] at hsame
      rw [hnone ht, hsame]
    | some t =>
      obtain ⟨t', ht', hresult⟩ := hsome t ht
      rw [ht, eq_comm] at hsame
      obtain ⟨s, hs, hkind⟩ := Option.map_eq_some_iff.mp hsame
      rw [ht', hs, Option.map_some, Option.map_some, hresult.present s hs hkind.symm]
  refine ⟨_, Prod.ext (hresult.trans hok) rfl, fun ref => ?_, hread⟩
  exact (hshape.trans (sameShape_restore bitcode iter' data shared')).read_eq hread ref

/-- Registers states, one after the other. -/
def registerAll (declared : List (StateKind U × String)) :
    Fallible FlumeError (SharedBackend U) Unit :=
  declared.forM fun state => createState state.1 state.2 >>= fun _ => pure ()

/-- States of different names can be registered, and are empty. -/
theorem runOn_registerAll (declared : List (StateKind U × String))
    (hnames : (declared.map Prod.snd).Nodup) (shared : SharedBackend U)
    (hnew : ∀ state ∈ declared, state.2 ∉ shared.states) :
    ∃ shared', (registerAll declared).runOn shared = (.ok (), shared') ∧
      (∀ state ∈ declared, shared'.stateOf state.2 = some ⟨state.1, .empty state.1⟩) ∧
      ∀ name, name ∉ declared.map Prod.snd → shared'.stateOf name = shared.stateOf name := by
  induction declared generalizing shared with
  | nil => exact ⟨shared, rfl, ⟨fun state h => absurd h List.not_mem_nil, fun name _ => rfl⟩⟩
  | cons state declared ih =>
    obtain ⟨hstate, hrest⟩ := List.nodup_cons.mp hnames
    have hname : state.2 ∉ shared.states := hnew state List.mem_cons_self
    have hfirst : (createState state.1 state.2 >>= fun _ => pure ()).runOn shared =
        (.ok (), shared.register state.2 ⟨state.1, .empty state.1⟩ hname) := by
      unfold createState
      rw [runOn_bind, runOn_bind_ok runOn_get, dif_neg hname]
      rfl
    have hlater : ∀ state' ∈ declared,
        state'.2 ∉ (shared.register state.2 ⟨state.1, .empty state.1⟩ hname).states := by
      intro state' hstate' hmem
      rcases (AList.mem_insert _).mp hmem with heq | hmem
      · exact hstate (List.mem_map.mpr ⟨state', hstate', heq⟩)
      · exact hnew state' (List.mem_cons_of_mem _ hstate') hmem
    obtain ⟨shared', hrun, hdeclared, hother⟩ := ih hrest _ hlater
    refine ⟨shared', ?_, fun state' hstate' => ?_, fun name hmem => ?_⟩
    · unfold registerAll
      rw [runOn_forM_cons, runOn_bind_ok hfirst]
      exact hrun
    · rcases List.mem_cons.mp hstate' with rfl | hstate'
      · rw [hother _ hstate, stateOf_register, if_pos rfl]
      · exact hdeclared state' hstate'
    · rw [List.map_cons, List.mem_cons, not_or] at hmem
      rw [hother name hmem.2, stateOf_register, if_neg hmem.1]

/-- The backend after states were registered and operations of their handles were run. -/
def used (declared : List (StateKind U × String)) (calls : List (HandleCall U)) :
    SharedBackend U :=
  ((calls.forM HandleCall.call).runOn ((registerAll declared).runOn new).2).2

/-- **Snapshot and restore through live handles:** every handle reads what it read at the snapshot,
whatever operations came between. -/
theorem restore_liveHandles (bitcode : Bitcode U) (hb : bitcode.RoundTrips)
    (declared : List (StateKind U × String)) (hnames : (declared.map Prod.snd).Nodup)
    (calls calls' : List (HandleCall U)) (iter iter' : IterOrder String) (data : Bytes)
    (hsnapshot : (used declared calls).snapshot bitcode iter = .ok data) :
    ((registerAll declared).runOn (new : SharedBackend U)).1 = .ok () ∧
      ∃ restored, (restore bitcode iter' data).runOn
          ((calls'.forM HandleCall.call).runOn (used declared calls)).2 = (.ok (), restored) ∧
        (∀ ref, restored.read ref = (used declared calls).read ref) ∧
        Decodes bitcode data (used declared calls).stateOf ∧
        ∀ iter'', (bitcode.Total → ∃ data', restored.snapshot bitcode iter'' = .ok data') ∧
          ∀ data', restored.snapshot bitcode iter'' = .ok data' →
            Decodes bitcode data' (used declared calls).stateOf := by
  obtain ⟨_, hregistered, -⟩ :=
    runOn_registerAll declared hnames new fun _ _ => AList.notMem_empty _
  refine ⟨congrArg Prod.fst hregistered, ?_⟩
  obtain ⟨restored, hrun, hhandles, hread⟩ :=
    restore_returns hb hsnapshot (sameShape_calls calls' (used declared calls))
  refine ⟨restored, hrun, hhandles, decodes_snapshot hb hsnapshot, fun iter'' => ⟨?_, ?_⟩⟩
  · exact fun ht => exists_snapshot ht iter'' restored
  · exact fun data' hdata' => decodes_congr hread (decodes_snapshot hb hdata')

/-- A list, a value and a map. -/
def mixedStates : List (StateKind byteTypes × String) :=
  [(.list (), "buffer"), (.value (), "count"), (.map () (), "seen")]

/-- What their handles do before the snapshot. -/
def callsBefore : List (HandleCall byteTypes) :=
  [⟨0, .list (), .add (7 : UInt8)⟩, ⟨1, .value (), .set (3 : UInt8)⟩,
    ⟨2, .map () (), .put (1 : UInt8) (2 : UInt8)⟩]

/-- What they do after it. -/
def callsAfter : List (HandleCall byteTypes) :=
  [⟨2, .map () (), .remove (1 : UInt8)⟩, ⟨0, .list (), .clear⟩, ⟨1, .value (), .set (9 : UInt8)⟩]

/-- The bytes of the snapshot. -/
def mixedData : Bytes :=
  match (used mixedStates callsBefore).snapshot byteBitcode (IterOrder.given _) with
  | .ok data => data
  | .error _ => []

/-- The restore undoes what was done after the snapshot. -/
theorem mixedStates_restored :
    (∃ restored, (restore byteBitcode (IterOrder.backwards _) mixedData).runOn
        ((callsAfter.forM HandleCall.call).runOn (used mixedStates callsBefore)).2 =
          (.ok (), restored) ∧
      ∀ ref, restored.read ref = (used mixedStates callsBefore).read ref) ∧
      (used mixedStates callsBefore).read 1 = some ⟨.value (), some (3 : UInt8)⟩ ∧
      ((callsAfter.forM HandleCall.call).runOn (used mixedStates callsBefore)).2.read 1 =
        some ⟨.value (), some (9 : UInt8)⟩ := by
  obtain ⟨-, restored, hrun, hread, -⟩ := restore_liveHandles byteBitcode byteBitcode_roundTrips
    mixedStates (by decide) callsBefore callsAfter (IterOrder.given _) (IterOrder.backwards _)
    mixedData (by decide +kernel)
  exact ⟨⟨restored, hrun, hread⟩, rfl, rfl⟩

end SharedBackend

end Flume
