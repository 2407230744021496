import Flume.Lib.Fallible
import Mathlib.Data.List.AList
import Mathlib.Tactic

/-!
# Finite maps

Rust's `HashMap` as an association list without duplicate keys, and the order in which a loop over
the map visits its keys, which nothing determines.

* `IterOrder`, `visit`: the entries of a map in an order of visits;
* `upsert`, `upsertAll`: `entry(k).or_insert_with(..)` and a change of the entry;
* `eraseAll`: the removal of several entries; `modifyAll`: a change of every entry;
* `collect`: a map with the same keys, each value computed from the old one;
* `updateEntry`, `updateAll`: fallible changes of entries;
* **`collect_visit_ok`**, **`updateAll_visit_ok`**: what a loop over a map has done that came to its
  end;
* **`updateAll_changed`**, **`updateAll_fails_iff`**: what a loop of changes may have done that
  failed, and when it fails.
-/

namespace Entries

/-- An order in which a map's keys may be visited. -/
structure IterOrder (κ : Type*) where
  order : List κ → List κ
  perm : ∀ ks, (order ks).Perm ks

/-- The order in which the keys stand in the list. -/
def IterOrder.given (κ : Type*) : IterOrder κ := ⟨id, fun _ => List.Perm.refl _⟩

/-- The opposite order. -/
def IterOrder.backwards (κ : Type*) : IterOrder κ := ⟨List.reverse, List.reverse_perm⟩

variable {κ β : Type*} [DecidableEq κ]

/-- The order that visits the keys `ks` as in `visits`. -/
def IterOrder.along {ks visits : List κ} (h : visits.Perm ks) : IterOrder κ where
  order ks' := if ks' = ks then visits else ks'
  perm ks' := by
    split_ifs with hks
    · rw [hks]
      exact h
    · exact List.Perm.refl _

theorem IterOrder.order_along {ks visits : List κ} (h : visits.Perm ks) :
    (IterOrder.along h).order ks = visits := if_pos rfl

/-- The entries of a map, in the order of the visits. -/
def visit (iter : IterOrder κ) (m : AList fun _ : κ => β) : List (κ × β) :=
  (iter.order m.keys).filterMap fun k => (m.lookup k).map fun b => (k, b)

section Visit

variable {iter : IterOrder κ} {m : AList fun _ : κ => β} {k : κ} {b : β}

theorem mem_visit : (k, b) ∈ visit iter m ↔ m.lookup k = some b := by
  unfold visit
  rw [List.mem_filterMap]
  constructor
  · rintro ⟨k', -, hk'⟩
    obtain ⟨b', hb', he⟩ := Option.map_eq_some_iff.mp hk'
    obtain ⟨rfl, rfl⟩ := Prod.mk.inj he
    exact hb'
  · intro h
    have hk : k ∈ m := AList.lookup_isSome.mp (Option.isSome_iff_exists.mpr ⟨b, h⟩)
    exact ⟨k, (iter.perm _).mem_iff.mpr (AList.mem_keys.mp hk), by rw [h]; rfl⟩

theorem notMem_visit (h : m.lookup k = none) : k ∉ (visit iter m).map Prod.fst := by
  intro hmem
  obtain ⟨⟨k', b⟩, hentry, rfl⟩ := List.mem_map.mp hmem
  rw [mem_visit.mp hentry] at h
  cases h

theorem nodup_visit : ((visit iter m).map Prod.fst).Nodup := by
  have hkeys : (iter.order m.keys).Nodup := (iter.perm _).nodup_iff.mpr m.nodupKeys
  refine hkeys.sublist ?_
  unfold visit
  induction iter.order m.keys with
  | nil => exact List.Sublist.refl _
  | cons k ks ih =>
    rw [List.filterMap_cons]
    cases m.lookup k with
    | none => exact ih.trans (List.sublist_cons_self _ _)
    | some b => exact ih.cons_cons k

end Visit

/-- Changes the entry of `k`, which starts as `init`. -/
def upsert (m : AList fun _ : κ => β) (k : κ) (init : β) (f : β → β) : AList fun _ : κ => β :=
  m.insert k (f ((m.lookup k).getD init))

/-- Changes the entries of all of `ks`, one after the other. -/
def upsertAll (m : AList fun _ : κ => β) (ks : List κ) (init : β) (f : β → β) :
    AList fun _ : κ => β := ks.foldl (fun m k => upsert m k init f) m

variable {m : AList fun _ : κ => β} {k : κ} {ks : List κ} {init : β} {f : β → β}

theorem lookup_upsert (k' : κ) :
    (upsert m k init f).lookup k' =
      if k' = k then some (f ((m.lookup k).getD init)) else m.lookup k' := by
  rw [upsert]
  split_ifs with hk
  · subst hk; exact AList.lookup_insert m
  · exact AList.lookup_insert_ne hk

/-- **Every entry is changed once.** -/
theorem lookup_upsertAll (hks : ks.Nodup) (k : κ) :
    (upsertAll m ks init f).lookup k =
      if k ∈ ks then some (f ((m.lookup k).getD init)) else m.lookup k := by
  induction ks generalizing m with
  | nil => simp [upsertAll]
  | cons k₀ ks ih =>
    obtain ⟨hk₀, hks⟩ := List.nodup_cons.mp hks
    have hcons : upsertAll m (k₀ :: ks) init f = upsertAll (upsert m k₀ init f) ks init f := rfl
    rw [hcons, ih hks, lookup_upsert]
    by_cases hk : k = k₀
    · subst hk; simp [hk₀]
    · simp [hk]

theorem lookup_upsertAll_view {γ : Type*} {m' : AList fun _ : κ => γ} {view : β → γ} {init' : γ}
    {f' : γ → γ} (hinit : view init = init') (hf : ∀ b, view (f b) = f' (view b))
    (h : ∀ k, m'.lookup k = (m.lookup k).map view) (k : κ) :
    (upsertAll m' ks init' f').lookup k = ((upsertAll m ks init f).lookup k).map view := by
  induction ks generalizing m m' with
  | nil => exact h k
  | cons k₀ ks ih =>
    refine ih fun k' => ?_
    rw [lookup_upsert, lookup_upsert, h, h]
    split_ifs with hk
    · cases hlookup : m.lookup k₀ with
      | none => simp [hf, hinit]
      | some b => simp [hf]
    · rfl

theorem mem_upsertAll : k ∈ upsertAll m ks init f ↔ k ∈ m ∨ k ∈ ks := by
  induction ks generalizing m with
  | nil => simp [upsertAll]
  | cons k₀ ks ih =>
    have hcons : upsertAll m (k₀ :: ks) init f = upsertAll (upsert m k₀ init f) ks init f := rfl
    rw [hcons, ih, upsert, AList.mem_insert, List.mem_cons]
    tauto

theorem mem_of_lookup_ite {m' : AList fun _ : κ => β} {p : κ → Prop} [DecidablePred p]
    (h : ∀ k, m'.lookup k = if p k then none else m.lookup k) (hk : k ∈ m') : k ∈ m := by
  rw [← AList.lookup_isSome, h] at hk
  split_ifs at hk with hp
  · cases hk
  · exact AList.lookup_isSome.mp hk

/-- Removes the entries of all of `ks`, one after the other. -/
def eraseAll (m : AList fun _ : κ => β) (ks : List κ) : AList fun _ : κ => β :=
  ks.foldl (fun m k => m.erase k) m

theorem lookup_eraseAll (k : κ) :
    (eraseAll m ks).lookup k = if k ∈ ks then none else m.lookup k := by
  induction ks generalizing m with
  | nil => rfl
  | cons k₀ ks ih =>
    have hcons : eraseAll m (k₀ :: ks) = eraseAll (m.erase k₀) ks := rfl
    rw [hcons, ih]
    by_cases hk : k = k₀
    · subst hk
      simp [AList.lookup_erase]
    · simp [hk, AList.lookup_erase_ne hk]

/-! ## Entries changed in place -/

/-- Changes every entry of a map, in a loop over it. -/
def modifyAll (f : κ → β → β) (iter : IterOrder κ) (m : AList fun _ : κ => β) :
    AList fun _ : κ => β :=
  (visit iter m).foldl (fun m entry => m.insert entry.1 (f entry.1 entry.2)) m

/-- **Every entry is changed once**, whatever the order. -/
theorem lookup_modifyAll (f : κ → β → β) (iter : IterOrder κ) (k : κ) :
    (modifyAll f iter m).lookup k = (m.lookup k).map (f k) := by
  have hloop : ∀ (entries : List (κ × β)) (m : AList fun _ : κ => β),
      (entries.map Prod.fst).Nodup →
      (∀ b, (k, b) ∈ entries → (entries.foldl (fun m entry =>
        m.insert entry.1 (f entry.1 entry.2)) m).lookup k = some (f k b)) ∧
      (k ∉ entries.map Prod.fst → (entries.foldl (fun m entry =>
        m.insert entry.1 (f entry.1 entry.2)) m).lookup k = m.lookup k) := by
    intro entries
    induction entries with
    | nil => exact fun m _ => ⟨fun b hb => absurd hb List.not_mem_nil, fun _ => rfl⟩
    | cons entry entries ih =>
      intro m hnodup
      obtain ⟨k₀, b₀⟩ := entry
      obtain ⟨hk₀, hrest⟩ := List.nodup_cons.mp hnodup
      obtain ⟨hin, hout⟩ := ih (m.insert k₀ (f k₀ b₀)) hrest
      refine ⟨fun b hb => ?_, fun hk => ?_⟩
      · rcases List.mem_cons.mp hb with he | hb
        · obtain ⟨rfl, rfl⟩ := Prod.mk.inj he
          exact (hout hk₀).trans (AList.lookup_insert m)
        · exact hin b hb
      · rw [List.map_cons, List.mem_cons, not_or] at hk
        exact (hout hk.2).trans (AList.lookup_insert_ne hk.1)
  obtain ⟨hin, hout⟩ := hloop (visit iter m) m nodup_visit
  cases hk : m.lookup k with
  | none => exact (hout (notMem_visit hk)).trans hk
  | some b => exact hin b (mem_visit.mpr hk)

/-! ## Maps computed entry by entry -/

section Collect

variable {ε γ : Type*}

/-- Inserts the values computed from a list of entries, up to the first that fails. -/
def collect (f : κ → β → Except ε γ) :
    List (κ × β) → AList (fun _ : κ => γ) → Except ε (AList fun _ : κ => γ)
  | [], acc => .ok acc
  | (k, b) :: entries, acc =>
    match f k b with
    | .ok c => collect f entries (acc.insert k c)
    | .error e => .error e

variable {f : κ → β → Except ε γ} {entries : List (κ × β)} {acc m : AList fun _ : κ => γ}

theorem collect_ok (hnodup : (entries.map Prod.fst).Nodup) (h : collect f entries acc = .ok m) :
    (∀ k b, (k, b) ∈ entries → ∃ c, f k b = .ok c ∧ m.lookup k = some c) ∧
      ∀ k, k ∉ entries.map Prod.fst → m.lookup k = acc.lookup k := by
  induction entries generalizing acc with
  | nil =>
    cases h
    exact ⟨fun k b hb => absurd hb List.not_mem_nil, fun k _ => rfl⟩
  | cons entry entries ih =>
    obtain ⟨k₀, b₀⟩ := entry
    obtain ⟨hk₀, hrest⟩ := List.nodup_cons.mp hnodup
    rw [collect] at h
    cases hf : f k₀ b₀ with
    | error e => rw [hf] at h; cases h
    | ok c₀ =>
      rw [hf] at h
      obtain ⟨hin, hout⟩ := ih hrest h
      refine ⟨fun k b hb => ?_, fun k hk => ?_⟩
      · rcases List.mem_cons.mp hb with he | hb
        · obtain ⟨rfl, rfl⟩ := Prod.mk.inj he
          exact ⟨c₀, hf, (hout k hk₀).trans (AList.lookup_insert acc)⟩
        · exact hin k b hb
      · rw [List.map_cons, List.mem_cons, not_or] at hk
        rw [hout k hk.2, AList.lookup_insert_ne hk.1]

theorem collect_total (h : ∀ k b, (k, b) ∈ entries → ∃ c, f k b = .ok c) :
    ∃ m, collect f entries acc = .ok m := by
  induction entries generalizing acc with
  | nil => exact ⟨acc, rfl⟩
  | cons entry entries ih =>
    obtain ⟨k, b⟩ := entry
    obtain ⟨c, hc⟩ := h k b List.mem_cons_self
    rw [collect, hc]
    exact ih fun k' b' hmem => h k' b' (List.mem_cons_of_mem _ hmem)

/-- **A loop over a map that came to its end** has computed a value for every key, and for no
other. -/
theorem collect_visit_ok {iter : IterOrder κ} {source : AList fun _ : κ => β}
    (h : collect f (visit iter source) ∅ = .ok m) (k : κ) :
    (source.lookup k = none → m.lookup k = none) ∧
      ∀ b, source.lookup k = some b → ∃ c, f k b = .ok c ∧ m.lookup k = some c := by
  obtain ⟨hin, hout⟩ := collect_ok nodup_visit h
  refine ⟨fun hnone => ?_, fun b hb => hin k b (mem_visit.mpr hb)⟩
  exact hout k (notMem_visit hnone)

end Collect

/-! ## Fallible changes of entries -/

section Update

open Fallible

variable {κ ε β α : Type} [DecidableEq κ]

/-- Runs an operation on the entry of `k`, if there is one. -/
def updateEntry (k : κ) (f : Fallible ε β Unit) : Fallible ε (AList fun _ : κ => β) Unit := do
  let m ← get
  match m.lookup k with
  | some b =>
    set (m.insert k (f.runOn b).2)
    outcome (f.runOn b).1
  | none => pure ()

/-- Runs an operation on the entry of each listed key, until one fails. -/
def updateAll (f : κ → α → Fallible ε β Unit) (entries : List (κ × α)) :
    Fallible ε (AList fun _ : κ => β) Unit :=
  entries.forM fun entry => updateEntry entry.1 (f entry.1 entry.2)

variable {f : Fallible ε β Unit} {m m' : AList fun _ : κ => β} {k : κ}

theorem runOn_updateEntry_none (f : Fallible ε β Unit) (h : m.lookup k = none) :
    (updateEntry k f).runOn m = (.ok (), m) := by
  unfold updateEntry
  rw [runOn_bind_ok runOn_get]
  simp only [h, runOn_pure]

theorem runOn_updateEntry_some (f : Fallible ε β Unit) {b : β} (h : m.lookup k = some b) :
    (updateEntry k f).runOn m = ((f.runOn b).1, m.insert k (f.runOn b).2) := by
  unfold updateEntry
  rw [runOn_bind_ok runOn_get]
  simp only [h]
  rw [runOn_bind_ok runOn_set, runOn_outcome]

theorem lookup_updateEntry_ne (f : Fallible ε β Unit) {k' : κ} (h : k' ≠ k) :
    ((updateEntry k f).runOn m).2.lookup k' = m.lookup k' := by
  cases hk : m.lookup k with
  | none => rw [runOn_updateEntry_none f hk]
  | some b =>
    rw [runOn_updateEntry_some f hk]
    exact AList.lookup_insert_ne h

theorem updateEntry_ok (h : (updateEntry k f).runOn m = (.ok (), m')) (k' : κ) :
    (k' ≠ k → m'.lookup k' = m.lookup k') ∧
      (k' = k → m.lookup k = none ∧ m'.lookup k = none ∨
        ∃ b b', m.lookup k = some b ∧ f.runOn b = (.ok (), b') ∧ m'.lookup k = some b') := by
  refine ⟨fun hne => ?_, fun _ => ?_⟩
  · have hsame := lookup_updateEntry_ne (m := m) f hne
    rwa [h] at hsame
  · cases hk : m.lookup k with
    | none =>
      rw [runOn_updateEntry_none f hk] at h
      cases h
      exact Or.inl ⟨rfl, hk⟩
    | some b =>
      rw [runOn_updateEntry_some f hk] at h
      obtain ⟨hok, rfl⟩ := Prod.mk.inj h
      exact Or.inr ⟨b, _, rfl, Prod.ext hok rfl, AList.lookup_insert m⟩

/-- **A loop of changes that came to its end** has changed each listed entry that exists, once,
and no other. -/
theorem updateAll_ok {f : κ → α → Fallible ε β Unit} {entries : List (κ × α)}
    (hnodup : (entries.map Prod.fst).Nodup)
    (h : (updateAll f entries).runOn m = (.ok (), m')) (k : κ) :
    (k ∉ entries.map Prod.fst → m'.lookup k = m.lookup k) ∧
      (m.lookup k = none → m'.lookup k = none) ∧
      ∀ a b, (k, a) ∈ entries → m.lookup k = some b →
        ∃ b', (f k a).runOn b = (.ok (), b') ∧ m'.lookup k = some b' := by
  induction entries generalizing m with
  | nil =>
    cases h
    exact ⟨fun _ => rfl, id, fun a b ha => absurd ha List.not_mem_nil⟩
  | cons entry entries ih =>
    obtain ⟨k₀, a₀⟩ := entry
    obtain ⟨hk₀, hrest⟩ := List.nodup_cons.mp hnodup
    unfold updateAll at h
    rw [runOn_forM_cons] at h
    obtain ⟨_, m₁, hfirst, hloop⟩ := runOn_bind_eq_ok h
    obtain ⟨hother, hthis⟩ := updateEntry_ok hfirst k
    obtain ⟨hout, hnone, hin⟩ := ih hrest hloop
    refine ⟨fun hk => ?_, fun hk => ?_, fun a b ha hb => ?_⟩
    · rw [List.map_cons, List.mem_cons, not_or] at hk
      rw [hout hk.2, hother hk.1]
    · by_cases hkk : k = k₀
      · subst hkk
        obtain ⟨-, h₁⟩ | ⟨b, b', hb, -⟩ := hthis rfl
        · exact hnone h₁
        · rw [hk] at hb; cases hb
      · exact hnone ((hother hkk).trans hk)
    · rcases List.mem_cons.mp ha with he | htail
      · obtain ⟨rfl, rfl⟩ := Prod.mk.inj he
        obtain ⟨hnone₀, -⟩ | ⟨b₁, b', hb₁, hrun, hb'⟩ := hthis rfl
        · rw [hb] at hnone₀; cases hnone₀
        · rw [hb] at hb₁
          cases hb₁
          exact ⟨b', hrun, (hout hk₀).trans hb'⟩
      · have hkk : k ≠ k₀ := by
          rintro rfl
          exact hk₀ (List.mem_map.mpr ⟨(k, a), htail, rfl⟩)
        exact hin a b htail ((hother hkk).trans hb)

theorem updateAll_none (f : κ → α → Fallible ε β Unit) (entries : List (κ × α))
    (h : m.lookup k = none) : ((updateAll f entries).runOn m).2.lookup k = none := by
  refine runOn_forM_keeps (P := fun m : AList (fun _ : κ => β) => m.lookup k = none)
    (fun entry m hm => ?_) h
  by_cases hk : k = entry.1
  · subst hk
    rw [runOn_updateEntry_none _ hm]
    exact hm
  · rw [lookup_updateEntry_ne _ hk]
    exact hm

theorem updateAll_empty (f : κ → α → Fallible ε β Unit) (entries : List (κ × α)) :
    (updateAll f entries).runOn ∅ = (.ok (), ∅) := by
  induction entries with
  | nil => rfl
  | cons entry entries ih =>
    unfold updateAll
    rw [runOn_forM_cons, runOn_bind_ok]
    · exact ih
    · rfl

/-- **A loop over a map that came to its end** has changed each entry it has a value for. -/
theorem updateAll_visit_ok {f : κ → α → Fallible ε β Unit} {iter : IterOrder κ}
    {source : AList fun _ : κ => α}
    (h : (updateAll f (visit iter source)).runOn m = (.ok (), m')) (k : κ) :
    (m.lookup k = none → m'.lookup k = none) ∧
      (source.lookup k = none → m'.lookup k = m.lookup k) ∧
      ∀ a b, source.lookup k = some a → m.lookup k = some b →
        ∃ b', (f k a).runOn b = (.ok (), b') ∧ m'.lookup k = some b' := by
  obtain ⟨hout, hnone, hin⟩ := updateAll_ok nodup_visit h k
  exact ⟨hnone, fun hk => hout (notMem_visit hk), fun a b ha => hin a b (mem_visit.mpr ha)⟩

section Loop

variable {f : κ → α → Fallible ε β Unit} {entries : List (κ × α)} {a : α} {b : β}

theorem runOn_updateAll_cons (f : κ → α → Fallible ε β Unit) (k : κ) (a : α)
    (entries : List (κ × α)) (m : AList fun _ : κ => β) :
    (updateAll f ((k, a) :: entries)).runOn m = match (updateEntry k (f k a)).runOn m with
      | (.ok _, m₁) => (updateAll f entries).runOn m₁
      | (.error e, m₁) => (.error e, m₁) := by
  unfold updateAll
  rw [runOn_forM_cons, runOn_bind]
  rcases (updateEntry k (f k a)).runOn m with ⟨_ | _, _⟩ <;> rfl

/-- **What a loop of changes may have done**, whether it failed or not: each entry is as it was, or
was changed once. -/
theorem updateAll_changed (hnodup : (entries.map Prod.fst).Nodup) (hb : m.lookup k = some b) :
    ∃ b', ((updateAll f entries).runOn m).2.lookup k = some b' ∧
      (b' = b ∨ ∃ a, (k, a) ∈ entries ∧ b' = ((f k a).runOn b).2) := by
  induction entries generalizing m b with
  | nil => exact ⟨b, hb, Or.inl rfl⟩
  | cons entry entries ih =>
    obtain ⟨k₀, a₀⟩ := entry
    obtain ⟨hk₀, hrest⟩ := List.nodup_cons.mp hnodup
    rw [runOn_updateAll_cons]
    by_cases hk : k = k₀
    · subst hk
      have hhere : (k, a₀) ∈ (k, a₀) :: entries := List.mem_cons_self
      rw [runOn_updateEntry_some _ hb]
      cases ((f k a₀).runOn b).1 with
      | error e => exact ⟨_, AList.lookup_insert m, Or.inr ⟨a₀, hhere, rfl⟩⟩
      | ok u =>
        obtain ⟨b', hb', hchanged⟩ := ih hrest (AList.lookup_insert m)
        rcases hchanged with rfl | ⟨a, ha, -⟩
        · exact ⟨_, hb', Or.inr ⟨a₀, hhere, rfl⟩⟩
        · exact absurd (List.mem_map.mpr ⟨(k, a), ha, rfl⟩) hk₀
    · have hsame := lookup_updateEntry_ne (m := m) (f k₀ a₀) hk
      rcases hfirst : (updateEntry k₀ (f k₀ a₀)).runOn m with ⟨e | u, m₁⟩ <;> rw [hfirst] at hsame
      · exact ⟨b, hsame.trans hb, Or.inl rfl⟩
      · obtain ⟨b', hb', hchanged⟩ := ih hrest (hsame.trans hb)
        refine ⟨b', hb', hchanged.imp_right ?_⟩
        rintro ⟨a, ha, h⟩
        exact ⟨a, List.mem_cons_of_mem _ ha, h⟩

theorem updateAll_first (hnodup : (((k, a) :: entries).map Prod.fst).Nodup)
    (hb : m.lookup k = some b) :
    ((updateAll f ((k, a) :: entries)).runOn m).2.lookup k = some ((f k a).runOn b).2 := by
  obtain ⟨hk, hrest⟩ := List.nodup_cons.mp hnodup
  rw [runOn_updateAll_cons, runOn_updateEntry_some _ hb]
  cases ((f k a).runOn b).1 with
  | error e => exact AList.lookup_insert m
  | ok u =>
    obtain ⟨b', hb', hchanged⟩ := updateAll_changed (f := f) hrest (AList.lookup_insert m)
    rcases hchanged with rfl | ⟨a, ha, -⟩
    · exact hb'
    · exact absurd (List.mem_map.mpr ⟨(k, a), ha, rfl⟩) hk

/-- **A loop of changes fails** if and only if one of them does. -/
theorem updateAll_fails_iff (hnodup : (entries.map Prod.fst).Nodup) :
    (∃ e, ((updateAll f entries).runOn m).1 = .error e) ↔
      ∃ k a b, (k, a) ∈ entries ∧ m.lookup k = some b ∧ ∃ e, ((f k a).runOn b).1 = .error e := by
  induction entries generalizing m with
  | nil =>
    constructor
    · rintro ⟨e, he⟩
      cases he
    · rintro ⟨k, a, b, ha, -⟩
      cases ha
  | cons entry entries ih =>
    obtain ⟨k₀, a₀⟩ := entry
    obtain ⟨hk₀, hrest⟩ := List.nodup_cons.mp hnodup
    rw [runOn_updateAll_cons]
    have hother : ∀ k a, (k, a) ∈ entries →
        ((updateEntry k₀ (f k₀ a₀)).runOn m).2.lookup k = m.lookup k := by
      intro k a ha
      refine lookup_updateEntry_ne _ ?_
      rintro rfl
      exact hk₀ (List.mem_map.mpr ⟨(k, a), ha, rfl⟩)
    rcases hfirst : (updateEntry k₀ (f k₀ a₀)).runOn m with ⟨e | u, m₁⟩ <;> rw [hfirst] at hother
    · refine iff_of_true ⟨e, rfl⟩ ?_
      cases hb : m.lookup k₀ with
      | none =>
        rw [runOn_updateEntry_none _ hb] at hfirst
        cases hfirst
      | some b =>
        rw [runOn_updateEntry_some _ hb] at hfirst
        exact ⟨k₀, a₀, b, List.mem_cons_self, hb, e, congrArg Prod.fst hfirst⟩
    · refine (ih hrest).trans ⟨?_, ?_⟩
      · rintro ⟨k, a, b, ha, hb, he⟩
        exact ⟨k, a, b, List.mem_cons_of_mem _ ha, hother k a ha ▸ hb, he⟩
      · rintro ⟨k, a, b, ha, hb, e, he⟩
        rcases List.mem_cons.mp ha with hhere | ha
        · obtain ⟨rfl, rfl⟩ := Prod.mk.inj hhere
          rw [runOn_updateEntry_some _ hb, he] at hfirst
          cases hfirst
        · exact ⟨k, a, b, ha, (hother k a ha).trans hb, e, he⟩

end Loop

section Visits

variable {f : κ → α → Fallible ε β Unit} {source : AList fun _ : κ => α} {a : α} {b : β}

/-- The order that visits `k` first. -/
def IterOrder.first (k : κ) : IterOrder κ where
  order ks := if k ∈ ks then k :: ks.erase k else ks
  perm ks := by
    split_ifs with hk
    · exact (List.perm_cons_erase hk).symm
    · exact List.Perm.refl _

theorem visit_first (ha : source.lookup k = some a) :
    ∃ rest, visit (IterOrder.first k) source = (k, a) :: rest := by
  have hk : k ∈ source.keys := AList.mem_keys.mp (AList.lookup_isSome.mp (by rw [ha]; rfl))
  unfold visit IterOrder.first
  simp only [hk, if_true, List.filterMap_cons, ha, Option.map_some]
  exact ⟨_, rfl⟩

theorem updateAll_visit_first (ha : source.lookup k = some a) (hb : m.lookup k = some b) :
    ((updateAll f (visit (IterOrder.first k) source)).runOn m).2.lookup k =
      some ((f k a).runOn b).2 := by
  obtain ⟨rest, hrest⟩ := visit_first ha
  have hnodup : ((visit (IterOrder.first k) source).map Prod.fst).Nodup := nodup_visit
  rw [hrest] at hnodup ⊢
  exact updateAll_first hnodup hb

theorem updateAll_visit_fails_iff (iter : IterOrder κ) :
    (∃ e, ((updateAll f (visit iter source)).runOn m).1 = .error e) ↔
      ∃ k a b, source.lookup k = some a ∧ m.lookup k = some b ∧
        ∃ e, ((f k a).runOn b).1 = .error e := by
  rw [updateAll_fails_iff nodup_visit]
  simp only [mem_visit]

end Visits

end Update

end Entries
