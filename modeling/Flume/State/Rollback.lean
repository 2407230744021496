import Flume.Lib.Runs
import Flume.State.ByteStates
import Flume.State.Keyed

/-!
# Rollback of keyed state

Restoring an earlier snapshot into the backend that took it. Overwritten values come back, but a
state that was registered after the snapshot keeps what it holds.

* `ReadsLike`: one backend reads like another, and everything else in it is empty;
* `Replays`: the relation between a run and its replay, `replays_step` its step;
* **`rollback_exact_iff`**: the rollback is exact, and a replay leads to the same state, if and only
  if every state registered after the snapshot is empty just before the restore.
-/

namespace Flume

open Fallible Entries Runs

variable {U : StateTypes}

namespace KeyedStateBackend

/-- Every state of `s₀` reads in `s` what it reads in `s₀`, and every other state of `s` is
empty. -/
structure ReadsLike (s s₀ : KeyedStateBackend U) : Prop where
  present : ∀ key name t, s₀.state key name = some t →
    ∃ t', s.state key name = some t' ∧ t'.read = t.read
  absent : ∀ key name t', s.state key name = some t' → s₀.state key name = none → t'.IsEmpty

/-- An operation of a handle needs a state of its kind. -/
def HasHandle (s : KeyedStateBackend U) : Op U → Prop
  | @Op.update _ key name kind _ => (s.state key name).map Sigma.fst = some kind
  | _ => True

instance (s : KeyedStateBackend U) (op : Op U) : Decidable (s.HasHandle op) := by
  unfold HasHandle
  split <;> infer_instance

section Run

variable {bitcode : Bitcode U} {s s₁ x y : KeyedStateBackend U} {key : Bytes} {name : String}

theorem HasHandle.exists_content {kind : StateKind U} {u : Update kind}
    (h : s.HasHandle (.update key name u)) :
    ∃ content, s.state key name = some ⟨kind, content⟩ := by
  obtain ⟨⟨kind', content⟩, hs, hkind⟩ := Option.map_eq_some_iff.mp h
  cases hkind
  exact ⟨content, hs⟩

theorem state_exec_of_some (bitcode : Bitcode U) (ops : List (Op U)) {t : State U}
    (h : s.state key name = some t) :
    ∃ t', (exec (step bitcode) s ops).state key name = some t' ∧ t'.1 = t.1 := by
  induction ops generalizing s t with
  | nil => exact ⟨t, h, rfl⟩
  | cons op ops ih =>
    obtain ⟨t₁, h₁, hkind₁⟩ := state_step_of_some bitcode op h
    obtain ⟨t₂, h₂, hkind₂⟩ := ih h₁
    exact ⟨t₂, h₂, hkind₂.trans hkind₁⟩

/-! ## The replay -/

/-- The replay `y` of the run that is now at `x` and ends in `s₁`: it reads like `x`, and has all
the states that the run will have. -/
structure Replays (s₁ x y : KeyedStateBackend U) : Prop where
  alike : ReadsLike y x
  kinds : ∀ key name t, s₁.state key name = some t →
    ∃ t', y.state key name = some t' ∧ t'.1 = t.1

theorem readsLike_create (kind : StateKind U) (name₀ : String) (h : Replays s₁ x y)
    (hlater : ∀ key name t, (step bitcode x (.create kind name₀)).state key name = some t →
      ∃ t', s₁.state key name = some t' ∧ t'.1 = t.1) :
    ReadsLike (step bitcode y (.create kind name₀)) (step bitcode x (.create kind name₀)) := by
  have hkept : ∀ key name t, y.state key name = some t →
      (step bitcode y (.create kind name₀)).state key name = some t := by
    intro key name t ht
    rcases state_create_cases bitcode y kind name₀ key name with hy | ⟨hy, -⟩
    · rw [hy, ht]
    · rw [hy] at ht; cases ht
  constructor
  · intro key name t ht
    rcases state_create_cases bitcode x kind name₀ key name with hx | ⟨hx, hnew⟩
    · rw [hx] at ht
      obtain ⟨t', ht', hread⟩ := h.alike.present key name t ht
      exact ⟨t', hkept key name t' ht', hread⟩
    · -- the state exists in the replay since the first run, and was emptied
      obtain ⟨t₁, ht₁, hkind₁⟩ := hlater key name t ht
      obtain ⟨⟨kind', content⟩, ht', hkind'⟩ := h.kinds key name t₁ ht₁
      rw [hnew] at ht
      cases ht
      cases hkind'.trans hkind₁
      have hempty := h.alike.absent key name _ ht' hx
      exact ⟨_, hkept key name _ ht', congrArg (Sigma.mk kind) hempty⟩
  · intro key name t' ht' hnone
    have hx : x.state key name = none := by
      rcases state_create_cases bitcode x kind name₀ key name with hx | ⟨hx, -⟩
      · rw [← hx, hnone]
      · exact hx
    rcases state_create_cases bitcode y kind name₀ key name with hy | ⟨-, hy⟩
    · rw [hy] at ht'
      exact h.alike.absent key name t' ht' hx
    · rw [hy] at ht'
      cases ht'
      rfl

theorem readsLike_update {kind : StateKind U} (u : Update kind) {content : Content kind}
    (h : ReadsLike y x) (hx : x.state key name = some ⟨kind, content⟩) :
    ReadsLike (step bitcode y (.update key name u)) (step bitcode x (.update key name u)) := by
  obtain ⟨⟨kind', content'⟩, hy, hread⟩ := h.present key name _ hx
  obtain ⟨rfl, hread'⟩ := Sigma.mk.inj hread
  have hreads : content'.read = content.read := eq_of_heq hread'
  constructor
  · intro key' name' t ht
    rw [state_update u hx, write] at ht
    rw [state_update u hy, write]
    split_ifs at ht ⊢
    · cases ht
      exact ⟨_, rfl, congrArg (Sigma.mk _) (u.read_apply hreads)⟩
    · exact h.present key' name' t ht
  · intro key' name' t' ht' hnone
    rw [state_update u hx, write] at hnone
    rw [state_update u hy, write] at ht'
    split_ifs at ht' hnone
    exact h.absent key' name' t' ht' hnone

/-- **A step and its replay.** -/
theorem replays_step (op : Op U) (h : Replays s₁ x y) (hhandle : x.HasHandle op)
    (hlater : ∀ key name t, (step bitcode x op).state key name = some t →
      ∃ t', s₁.state key name = some t' ∧ t'.1 = t.1) :
    Replays s₁ (step bitcode x op) (step bitcode y op) := by
  refine ⟨?_, fun key name t ht => ?_⟩
  · cases op with
    | setCurrentKey t key =>
      constructor <;> rw [state_setCurrentKey, state_setCurrentKey]
      · exact h.alike.present
      · exact h.alike.absent
    | clearCurrentKey => exact ⟨h.alike.present, h.alike.absent⟩
    | create kind name₀ => exact readsLike_create kind name₀ h hlater
    | update key name u =>
      obtain ⟨content, hx⟩ := hhandle.exists_content
      exact readsLike_update u h.alike hx
  · obtain ⟨t', ht', hkind⟩ := h.kinds key name t ht
    obtain ⟨t'', ht'', hkind'⟩ := state_step_of_some bitcode op ht'
    exact ⟨t'', ht'', hkind'.trans hkind⟩

/-- **A replay of the whole run** ends in a backend that reads like the end of the run. -/
theorem readsLike_exec (ops : List (Op U)) (hhandles : Along (step bitcode) HasHandle x ops)
    (h : Replays (exec (step bitcode) x ops) x y) :
    ReadsLike (exec (step bitcode) y ops) (exec (step bitcode) x ops) := by
  induction ops generalizing x y with
  | nil => exact h.alike
  | cons op ops ih =>
    refine ih hhandles.2 (replays_step op h hhandles.1 fun key name t ht => ?_)
    exact state_exec_of_some bitcode ops ht

/-! ## The rollback -/

/-- **When a rollback is exact:** if every state registered after the snapshot is empty just before
the restore. -/
theorem rollback_exact_iff (bitcode : Bitcode U) (hb : bitcode.RoundTrips)
    (s₀ s₂ : KeyedStateBackend U) (order order' : HashOrder) (data : Bytes)
    (hsnapshot : s₀.snapshot bitcode order = .ok data) (ops : List (Op U))
    (hhandles : Along (step bitcode) HasHandle s₀ ops)
    (hrestore : (restore bitcode order' data).runOn (exec (step bitcode) s₀ ops) = (.ok (), s₂)) :
    (ReadsLike s₂ s₀ ∧ ReadsLike (exec (step bitcode) s₂ ops) (exec (step bitcode) s₀ ops)) ↔
      ∀ key name t, (exec (step bitcode) s₀ ops).state key name = some t →
        s₀.state key name = none → t.IsEmpty := by
  have hrestored := restore_snapshot hb hsnapshot hrestore
  constructor
  · rintro ⟨hlike, -⟩ key name t ht hnone
    obtain ⟨t', ht', hres⟩ := (hrestored key name).2 t ht
    have hempty := hlike.absent key name t' ht' hnone
    rwa [hres.absent hnone] at hempty
  · intro hempty
    have hlike : ReadsLike s₂ s₀ := by
      refine ⟨fun key name t₀ ht₀ => ?_, fun key name t' ht' hnone => ?_⟩
      · obtain ⟨t, ht, hkind⟩ := state_exec_of_some bitcode ops ht₀
        obtain ⟨t', ht', hres⟩ := (hrestored key name).2 t ht
        exact ⟨t', ht', hres.present t₀ ht₀ hkind⟩
      · cases ht : (exec (step bitcode) s₀ ops).state key name with
        | none =>
          rw [(hrestored key name).1 ht] at ht'
          cases ht'
        | some t =>
          obtain ⟨t'', ht'', hres⟩ := (hrestored key name).2 t ht
          rw [ht''] at ht'
          cases ht'
          rw [hres.absent hnone]
          exact hempty key name t ht hnone
    refine ⟨hlike, readsLike_exec ops hhandles ⟨hlike, fun key name t ht => ?_⟩⟩
    obtain ⟨t', ht', hres⟩ := (hrestored key name).2 t ht
    exact ⟨t', ht', hres.kind⟩

theorem emptyWhenNew_of_entries (s₀ : KeyedStateBackend U)
    (h : ∀ entry ∈ s.backends.entries, ∀ e ∈ entry.2.states.entries,
      s₀.state entry.1 e.1 = none → State.IsEmpty e.2) (key : Bytes) (name : String) (t : State U)
    (ht : s.state key name = some t) (hnone : s₀.state key name = none) : t.IsEmpty := by
  obtain ⟨backend, hbackend, hstate⟩ := state_eq_some.mp ht
  exact h _ hbackend _ hstate hnone

end Run

/-! ## Two rollbacks -/

/-- The hash maps in the order of their lists. -/
def givenOrder : HashOrder := ⟨IterOrder.given _, fun _ => IterOrder.given _⟩

/-- The hash maps in the opposite order. -/
def backwardsOrder : HashOrder := ⟨IterOrder.backwards _, fun _ => IterOrder.backwards _⟩

/-- A backend after some operations. -/
def afterOps (s : KeyedStateBackend byteTypes) (ops : List (Op byteTypes)) :
    KeyedStateBackend byteTypes := exec (step byteBitcode) s ops

/-- The bytes of a snapshot. -/
def snapshotData (s : KeyedStateBackend byteTypes) : Bytes :=
  match s.snapshot byteBitcode givenOrder with
  | .ok data => data
  | .error _ => []

/-- A backend after `ops`, with an earlier snapshot of `s` restored. -/
def rolledBack (s : KeyedStateBackend byteTypes) (ops : List (Op byteTypes)) :
    Except FlumeError Unit × KeyedStateBackend byteTypes :=
  (restore byteBitcode backwardsOrder (snapshotData s)).runOn (afterOps s ops)

/-- A value and a map under one key. -/
def firstOps : List (Op byteTypes) :=
  [.setCurrentKey () (1 : UInt8), .create (.value ()) "val", .create (.map () ()) "lookup",
    @Op.update _ [1] "val" (.value ()) (.set (100 : UInt8)),
    @Op.update _ [1] "lookup" (.map () ()) (.put (1 : UInt8) (2 : UInt8))]

/-- Changes old states, and registers a new one that is empty in the end. -/
def cleanOps : List (Op byteTypes) :=
  [@Op.update _ [1] "val" (.value ()) (.set (99 : UInt8)),
    @Op.update _ [1] "lookup" (.map () ()) (.remove (1 : UInt8)),
    .setCurrentKey () (2 : UInt8), .create (.list ()) "buffer",
    @Op.update _ [2] "buffer" (.list ()) (.add (5 : UInt8)),
    @Op.update _ [2] "buffer" (.list ()) .clear]

theorem cleanOps_rollback :
    ReadsLike (rolledBack (afterOps new firstOps) cleanOps).2 (afterOps new firstOps) ∧
      ReadsLike (afterOps (rolledBack (afterOps new firstOps) cleanOps).2 cleanOps)
        (afterOps (afterOps new firstOps) cleanOps) :=
  (rollback_exact_iff byteBitcode byteBitcode_roundTrips (afterOps new firstOps)
    (rolledBack (afterOps new firstOps) cleanOps).2 givenOrder backwardsOrder
    (snapshotData (afterOps new firstOps)) (by decide +kernel) cleanOps (by decide +kernel)
    (Prod.ext (by decide +kernel) rfl)).mpr (emptyWhenNew_of_entries _ (by decide +kernel))

/-- A value is set under a key that is new since the snapshot. -/
def newKeyOps : List (Op byteTypes) :=
  [.setCurrentKey () (2 : UInt8), .create (.value ()) "val",
    @Op.update _ [2] "val" (.value ()) (.set (7 : UInt8))]

/-- The restore returns `Ok`, and the value of the new key is still there. -/
theorem newKeyOps_not_rollback :
    (afterOps new firstOps).snapshot byteBitcode givenOrder =
        .ok (snapshotData (afterOps new firstOps)) ∧
      (rolledBack (afterOps new firstOps) newKeyOps).1 = .ok () ∧
      (afterOps new firstOps).state [2] "val" = none ∧
      (rolledBack (afterOps new firstOps) newKeyOps).2.state [2] "val" =
        some ⟨.value (), some (7 : UInt8)⟩ ∧
      ¬ ReadsLike (rolledBack (afterOps new firstOps) newKeyOps).2 (afterOps new firstOps) := by
  have hnone : (afterOps new firstOps).state [2] "val" = none := by decide +kernel
  have hsome : (rolledBack (afterOps new firstOps) newKeyOps).2.state [2] "val" =
      some ⟨.value (), some (7 : UInt8)⟩ := by decide +kernel
  refine ⟨by decide +kernel, by decide +kernel, hnone, hsome, fun h => ?_⟩
  exact absurd (h.absent _ _ _ hsome hnone) (by decide +kernel)

end KeyedStateBackend

end Flume
