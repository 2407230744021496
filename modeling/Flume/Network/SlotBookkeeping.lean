import Flume.Network.SlotManager

/-!
# When the slots and the map of a TaskManager agree

Every entry of the map leads to its subtask. The other half, that every occupied slot is found
through the map, fails when an id is deployed a second time.

* `Covered`, `Leaked`: every occupied slot is found through the map; a slot that is not;
* `Fresh`: the call does not deploy an id again;
* **`covered_run_iff`**: a second deployment leaks a slot for good, and nothing else does;
* `Bookkeeping`: the slots and the map agree, and what follows from it for the callers;
* **`bookkeeping_iff`**: the runs after which they agree.
-/

namespace Flume.SlotManager

open Entries

variable {m : SlotManager} {i : ℕ} {j s : String}

/-! ## Every occupied slot is found through the map -/

/-- Every occupied slot is the one that the map gives for its subtask. -/
def Covered (m : SlotManager) : Prop :=
  ∀ i j s, m.slots[i]? = some (.occupied j s) → m.subtaskToSlot.lookup s = some i

/-- Slot `i` holds a subtask, and the map does not lead to it. -/
def Leaked (m : SlotManager) (i : ℕ) : Prop :=
  ∃ j s, m.slots[i]? = some (.occupied j s) ∧ m.subtaskToSlot.lookup s ≠ some i

theorem covered_iff : Covered m ↔ ∀ i, ¬ Leaked m i := by
  unfold Covered Leaked
  push Not
  rfl

/-- The call does not put a subtask into a slot whose id is already deployed. -/
def Fresh (m : SlotManager) : SlotOp → Prop
  | .deploy _ subtaskId => m.isDeployed subtaskId = true → m.freeSlot? = none
  | _ => True

instance (m : SlotManager) : ∀ op, Decidable (Fresh m op)
  | .deploy _ subtaskId =>
    inferInstanceAs (Decidable (m.isDeployed subtaskId = true → m.freeSlot? = none))
  | .cancel _ => instDecidableTrue
  | .cancelJob _ _ => instDecidableTrue

theorem Covered.deploy (h : Covered m) (hfresh : Fresh m (.deploy j s)) :
    Covered (m.deploy j s).2 := by
  cases hfree : m.freeSlot? with
  | none => rw [deploy_of_full hfree]; exact h
  | some i =>
    have hs : m.subtaskToSlot.lookup s = none := by
      by_contra hs
      rw [hfresh (Option.isSome_iff_ne_none.mpr hs)] at hfree
      cases hfree
    rw [deploy_of_free hfree]
    intro i' j' s' hi'
    dsimp only at hi' ⊢
    by_cases hii : i' = i
    · subst hii
      rw [List.getElem?_set_self (List.getElem?_eq_some_iff.mp (freeSlot?_eq_some hfree)).1] at hi'
      obtain ⟨-, rfl⟩ := SlotState.occupied.inj (Option.some.inj hi')
      exact AList.lookup_insert _
    · rw [List.getElem?_set_ne (Ne.symm hii)] at hi'
      have hs' := h i' j' s' hi'
      rw [AList.lookup_insert_ne, hs']
      rintro rfl
      rw [hs] at hs'
      cases hs'

theorem Leaked.deploy (h : Leaked m i) (j s : String) : Leaked (m.deploy j s).2 i := by
  cases hfree : m.freeSlot? with
  | none => rw [deploy_of_full hfree]; exact h
  | some i' =>
    obtain ⟨j₀, s₀, hi, hs₀⟩ := h
    have hne : i' ≠ i := by
      rintro rfl
      rw [freeSlot?_eq_some hfree] at hi
      cases hi
    rw [deploy_of_free hfree]
    refine ⟨j₀, s₀, (List.getElem?_set_ne hne).trans hi, ?_⟩
    by_cases hs : s₀ = s
    · subst hs
      rw [AList.lookup_insert]
      exact fun he => hne (Option.some.inj he)
    · rwa [AList.lookup_insert_ne hs]

theorem getElem?_cancel_of_leaked (hm : Mapped m) (h : Leaked m i) (s : String) :
    m.subtaskToSlot.lookup s ≠ some i := by
  intro hs
  obtain ⟨j₀, s₀, hi, hs₀⟩ := h
  obtain ⟨j, hj⟩ := hm s i hs
  rw [hi] at hj
  obtain ⟨-, rfl⟩ := SlotState.occupied.inj (Option.some.inj hj)
  exact hs₀ hs

theorem leaked_cancel_iff (hm : Mapped m) (s : String) : Leaked (m.cancel s).2 i ↔ Leaked m i := by
  constructor
  · rintro ⟨j₀, s₀, hi, hs₀⟩
    by_cases hs : m.subtaskToSlot.lookup s = some i
    · rw [getElem?_cancel_self hs] at hi
      cases hm' : m.slots[i]? <;> rw [hm'] at hi <;> cases hi
    · rw [getElem?_cancel_of_ne hs] at hi
      refine ⟨j₀, s₀, hi, ?_⟩
      rw [lookup_cancel] at hs₀
      split_ifs at hs₀ with hss
      · rwa [hss]
      · exact hs₀
  · intro h
    have hs := getElem?_cancel_of_leaked hm h s
    obtain ⟨j₀, s₀, hi, hs₀⟩ := h
    refine ⟨j₀, s₀, (getElem?_cancel_of_ne hs).trans hi, ?_⟩
    rw [lookup_cancel]
    split_ifs
    · simp
    · exact hs₀

theorem leaked_cancelAll_iff (hm : Mapped m) (ss : List String) :
    Leaked (m.cancelAll ss) i ↔ Leaked m i := by
  induction ss generalizing m with
  | nil => rfl
  | cons s ss ih => rw [cancelAll_cons, ih (hm.cancel s), leaked_cancel_iff hm]

theorem leaked_of_not_fresh (hm : Mapped m) {op : SlotOp} (h : ¬ Fresh m op) :
    ∃ i, Leaked (m.step op) i := by
  cases op with
  | deploy j s =>
    unfold Fresh at h
    push Not at h
    obtain ⟨hdeployed, hfull⟩ := h
    obtain ⟨i₀, hi₀⟩ := Option.isSome_iff_exists.mp hdeployed
    obtain ⟨i, hi⟩ := Option.ne_none_iff_exists'.mp hfull
    obtain ⟨j₀, hj₀⟩ := hm s i₀ hi₀
    have hne : i ≠ i₀ := by
      rintro rfl
      rw [freeSlot?_eq_some hi] at hj₀
      cases hj₀
    refine ⟨i₀, j₀, s, ?_, ?_⟩
    · change (m.deploy j s).2.slots[i₀]? = _
      rw [deploy_of_free hi]
      exact (List.getElem?_set_ne hne).trans hj₀
    · change (m.deploy j s).2.subtaskToSlot.lookup s ≠ _
      rw [deploy_of_free hi, AList.lookup_insert]
      exact fun he => hne (Option.some.inj he)
  | cancel s => exact absurd trivial h
  | cancelJob iter j => exact absurd trivial h

theorem Covered.step (hm : Mapped m) (h : Covered m) {op : SlotOp} (hfresh : Fresh m op) :
    Covered (m.step op) := by
  cases op with
  | deploy j s => exact h.deploy hfresh
  | cancel s =>
    rw [covered_iff] at h ⊢
    exact fun i hi => h i ((leaked_cancel_iff hm s).mp hi)
  | cancelJob iter j =>
    rw [covered_iff] at h ⊢
    exact fun i hi => h i ((leaked_cancelAll_iff hm _).mp hi)

theorem Leaked.step (hm : Mapped m) (h : Leaked m i) (op : SlotOp) : Leaked (m.step op) i := by
  cases op with
  | deploy j s => exact h.deploy j s
  | cancel s => exact (leaked_cancel_iff hm s).mpr h
  | cancelJob iter j => exact (leaked_cancelAll_iff hm _).mpr h

theorem covered_new (numSlots : ℕ) : Covered (new numSlots) := by
  intro i j s hi
  have := List.mem_of_getElem? hi
  simp [new] at this

/-- **The map covers the slots exactly when no id was deployed twice.** -/
theorem covered_run_iff (numSlots : ℕ) (ops : List SlotOp) :
    Covered (run numSlots ops) ↔ Runs.Along step Fresh (new numSlots) ops := by
  constructor
  · intro hcov
    by_contra hnot
    rw [Runs.along_iff_eachStep] at hnot
    push Not at hnot
    obtain ⟨pre, op, post, rfl, hop⟩ := hnot
    obtain ⟨i, hi⟩ := leaked_of_not_fresh (mapped_run numSlots pre) hop
    have hstay := Runs.exec_invariant (P := fun m => Mapped m ∧ Leaked m i)
      (fun m op h => ⟨h.1.step op, h.2.step h.1 op⟩)
      ⟨(mapped_run numSlots pre).step op, hi⟩ post
    unfold run at hcov
    rw [Runs.exec_append, Runs.exec_cons] at hcov
    exact covered_iff.mp hcov i hstay.2
  · intro hfresh
    exact (Runs.exec_invariant_along (P := fun m => Mapped m ∧ Covered m)
      (fun m op h hq => ⟨h.1.step op, h.2.step h.1 hq⟩)
      ⟨mapped_new numSlots, covered_new numSlots⟩ hfresh).2

/-! ## What the callers rely on -/

/-- The subtasks in the slots, in the order of the slots. -/
def occupants (m : SlotManager) : List String := m.slots.filterMap SlotState.subtask?

theorem mem_occupants :
    s ∈ m.occupants ↔ ∃ (i : ℕ) (j : String), m.slots[i]? = some (.occupied j s) := by
  unfold occupants
  rw [List.mem_filterMap]
  constructor
  · rintro ⟨st, hst, hs⟩
    obtain ⟨j, rfl⟩ := SlotState.subtask?_eq_some.mp hs
    obtain ⟨i, hi⟩ := List.mem_iff_getElem?.mp hst
    exact ⟨i, j, hi⟩
  · rintro ⟨i, j, hi⟩
    exact ⟨_, List.mem_of_getElem? hi, rfl⟩

theorem keys_perm_occupants (hm : Mapped m) (h : Covered m) :
    m.subtaskToSlot.keys.Perm m.occupants := by
  have hnodup : m.occupants.Nodup := by
    unfold occupants
    rw [List.nodup_iff_pairwise_ne, List.pairwise_filterMap, List.pairwise_iff_getElem]
    intro a b ha hb hab s hs s' hs' hss
    obtain ⟨j, hj⟩ := SlotState.subtask?_eq_some.mp hs
    obtain ⟨j', hj'⟩ := SlotState.subtask?_eq_some.mp hs'
    have h1 := h a j s ((List.getElem?_eq_getElem ha).trans (congrArg some hj))
    have h2 := h b j' s' ((List.getElem?_eq_getElem hb).trans (congrArg some hj'))
    rw [hss, h2] at h1
    exact hab.ne' (Option.some.inj h1)
  rw [List.perm_ext_iff_of_nodup (AList.keys_nodup _) hnodup]
  intro s
  rw [AList.mem_keys.symm, ← AList.lookup_isSome, mem_occupants, Option.isSome_iff_exists]
  constructor
  · rintro ⟨i, hi⟩
    exact ⟨i, hm s i hi⟩
  · rintro ⟨i, j, hi⟩
    exact ⟨i, h i j s hi⟩

theorem length_occupants (m : SlotManager) : m.occupants.length = m.slots.countP (· ≠ .free) := by
  unfold occupants
  induction m.slots with
  | nil => rfl
  | cons st slots ih =>
    rw [List.filterMap_cons, List.countP_cons, ← ih]
    cases st <;> rfl

theorem slotsInUse_eq (hm : Mapped m) (h : Covered m) :
    m.slotsInUse = m.slots.countP (· ≠ .free) :=
  (keys_perm_occupants hm h).length_eq.trans (length_occupants m)

theorem freeSlot?_eq_none_iff_countP :
    m.freeSlot? = none ↔ m.slots.length - m.slots.countP (· ≠ .free) = 0 := by
  rw [freeSlot?_eq_none, Nat.sub_eq_zero_iff_le]
  constructor
  · intro h
    rw [List.countP_eq_length.mpr]
    intro st hst
    exact decide_eq_true fun hfree => h (hfree ▸ hst)
  · intro h hmem
    have hall := List.countP_eq_length.mp (le_antisymm List.countP_le_length h)
    exact absurd (hall _ hmem) (by simp)

theorem deploy_eq_none_iff : (m.deploy j s).1 = none ↔ m.freeSlot? = none := by
  cases h : m.freeSlot? with
  | none => rw [deploy_of_full h]
  | some i => rw [deploy_of_free h]

theorem mem_toRemove {iter : IterOrder String} : s ∈ m.toRemove iter j ↔
    ∃ i, m.subtaskToSlot.lookup s = some i ∧ m.slots[i]?.bind SlotState.job? = some j := by
  unfold toRemove isOfJob
  rw [List.mem_filter, (iter.perm _).mem_iff, ← AList.mem_keys, ← AList.lookup_isSome]
  cases h : m.subtaskToSlot.lookup s <;> simp

theorem Covered.cancelJob_freed (h : Covered m) (iter : IterOrder String) (j s : String) (i : ℕ) :
    (m.cancelJob iter j).2.slots[i]? ≠ some (.occupied j s) := by
  intro hi
  change (m.cancelAll (m.toRemove iter j)).slots[i]? = _ at hi
  by_cases hexists : ∃ s' ∈ m.toRemove iter j, m.subtaskToSlot.lookup s' = some i
  · obtain ⟨s', hs', hlookup⟩ := hexists
    obtain ⟨i', hi', hjob⟩ := mem_toRemove.mp hs'
    rw [hlookup] at hi'
    obtain rfl := Option.some.inj hi'
    obtain ⟨st, hst, -⟩ := Option.bind_eq_some_iff.mp hjob
    rw [getElem?_cancelAll_of_mem hs' hlookup (List.getElem?_eq_some_iff.mp hst).1] at hi
    cases hi
  · push Not at hexists
    rw [getElem?_cancelAll_of_ne hexists] at hi
    have hs := h i j s hi
    refine hexists s (mem_toRemove.mpr ⟨i, hs, ?_⟩) hs
    rw [hi]
    rfl

theorem cancelJob_frame (iter : IterOrder String) {st : SlotState} (hst : m.slots[i]? = some st)
    (hjob : st.job? ≠ some j) : (m.cancelJob iter j).2.slots[i]? = some st := by
  change (m.cancelAll (m.toRemove iter j)).slots[i]? = _
  rw [getElem?_cancelAll_of_ne, hst]
  intro s hs hlookup
  obtain ⟨i', hi', hof⟩ := mem_toRemove.mp hs
  rw [hlookup] at hi'
  obtain rfl := Option.some.inj hi'
  rw [hst] at hof
  exact hjob hof

/-- **The bookkeeping of a TaskManager**: the map is a bijection between the deployed subtask ids
and the occupied slots, the counts are those of the slots, and `cancel_job` frees the slots of its
job and no other. -/
structure Bookkeeping (m : SlotManager) : Prop where
  mapped : Mapped m
  covered : Covered m
  inUse : m.slotsInUse = m.slots.countP (· ≠ .free)
  full : ∀ j s, (m.deploy j s).1 = none ↔ m.slotsAvailable = 0
  freed : ∀ iter j s (i : ℕ), (m.cancelJob iter j).2.slots[i]? ≠ some (.occupied j s)
  frame : ∀ iter j (i : ℕ) (st : SlotState), m.slots[i]? = some st → st.job? ≠ some j →
    (m.cancelJob iter j).2.slots[i]? = some st

theorem Covered.bookkeeping (hm : Mapped m) (h : Covered m) : Bookkeeping m where
  mapped := hm
  covered := h
  inUse := slotsInUse_eq hm h
  full j s := by
    unfold slotsAvailable totalSlots
    rw [deploy_eq_none_iff, slotsInUse_eq hm h]
    exact freeSlot?_eq_none_iff_countP
  freed iter j s i := h.cancelJob_freed iter j s i
  frame iter _ _ _ hst hjob := cancelJob_frame iter hst hjob

/-- **When the bookkeeping holds.** After a run of calls it holds if and only if no call of the run
put a subtask into a slot whose id was deployed already. -/
theorem bookkeeping_iff (numSlots : ℕ) (ops : List SlotOp) :
    Bookkeeping (run numSlots ops) ↔ Runs.Along step Fresh (new numSlots) ops := by
  rw [← covered_run_iff]
  exact ⟨fun h => h.covered, fun h => h.bookkeeping (mapped_run numSlots ops)⟩

/-- The same job deployed twice: both slots are occupied, one is in use, and the slot of the first
deployment can no longer be freed. -/
theorem redeployed_not_bookkeeping :
    ¬ Bookkeeping (run 2 [.deploy "1" "job-source-0", .deploy "2" "job-source-0"]) := by
  intro h
  exact absurd h.inUse (by decide +kernel)

end Flume.SlotManager
