import Mathlib.Data.List.Dedup
import Mathlib.Tactic

/-!
# Incremental group-by

A batch group-by sorts elements into groups (an element may belong to several) and folds each
group. An incremental one meets the elements one at a time, keeps an accumulator for each open
group, and gives the accumulator up when the group is closed.

* `total h k`: the batch fold of group `k` over a history `h` of additions and closings;
* `live h k`: the accumulator an incremental group-by holds; `live_add`, `live_close` say how an
  event changes it, as long as no element comes for a group that was closed (`OnTime`);
* **`closedKeys_close`**: a closing gives up the groups that are due, each once;
* **`due_perm`**: what a closing gives up is complete, no later element belongs to it;
* **`two_le_givenUp`**: with late elements a group may be given up more than once, and when.
-/

namespace GroupBy

variable {κ α β : Type*}

/-! ## Histories -/

/-- An element arrives, or the groups that satisfy `p` are closed. -/
inductive Event (κ α : Type*)
  | add (a : α)
  | close (p : κ → Bool)

/-- The elements of a history, in arrival order. -/
def elems (h : List (Event κ α)) : List α :=
  h.filterMap fun | .add a => some a | .close _ => none

/-- The event closes group `k`. -/
def Event.closes : Event κ α → κ → Bool
  | .add _, _ => false
  | .close p, k => p k

/-- Group `k` has been closed. -/
def Closed (h : List (Event κ α)) (k : κ) : Prop := ∃ e ∈ h, e.closes k = true

instance (h : List (Event κ α)) (k : κ) : Decidable (Closed h k) := by
  unfold Closed; infer_instance

@[simp] theorem elems_nil : elems ([] : List (Event κ α)) = [] := rfl

theorem elems_append (h h' : List (Event κ α)) : elems (h ++ h') = elems h ++ elems h' :=
  List.filterMap_append

@[simp] theorem elems_add (h : List (Event κ α)) (a : α) : elems (h ++ [.add a]) = elems h ++ [a] :=
  elems_append h _

@[simp] theorem elems_close (h : List (Event κ α)) (p : κ → Bool) :
    elems (h ++ [.close p]) = elems h := by
  rw [elems_append]; exact List.append_nil _

@[simp] theorem closed_add {h : List (Event κ α)} {a : α} {k : κ} :
    Closed (h ++ [.add a]) k ↔ Closed h k := by
  simp [Closed, or_and_right, exists_or, Event.closes]

@[simp] theorem closed_close {h : List (Event κ α)} {p : κ → Bool} {k : κ} :
    Closed (h ++ [.close p]) k ↔ Closed h k ∨ p k = true := by
  simp [Closed, or_and_right, exists_or, Event.closes]

theorem Closed.append {h : List (Event κ α)} {k : κ} (hc : Closed h k) (h' : List (Event κ α)) :
    Closed (h ++ h') k := by
  obtain ⟨e, he, hk⟩ := hc
  exact ⟨e, List.mem_append_left _ he, hk⟩

/-- No element comes for a group that was closed before. -/
def OnTime (keysOf : α → List κ) (h : List (Event κ α)) : Prop :=
  ∀ pre a post, h = pre ++ .add a :: post → ∀ k ∈ keysOf a, ¬ Closed pre k

section OnTime

variable {keysOf : α → List κ} {h h' : List (Event κ α)} {k : κ} {a : α}

theorem onTime_nil : OnTime keysOf ([] : List (Event κ α)) := by
  rintro pre a post h
  cases pre <;> cases h

theorem onTime_close {p : κ → Bool} (ht : OnTime keysOf h) : OnTime keysOf (h ++ [.close p]) := by
  rintro pre a post he
  rcases List.eq_nil_or_concat post with rfl | ⟨post, e, rfl⟩
  · cases (List.append_inj' he rfl).2
  · refine ht pre a post ?_
    rw [List.concat_eq_append, ← List.cons_append, ← List.append_assoc] at he
    exact (List.append_inj' he rfl).1

theorem onTime_add (ht : OnTime keysOf h) (ha : ∀ k ∈ keysOf a, ¬ Closed h k) :
    OnTime keysOf (h ++ [.add a]) := by
  rintro pre b post he
  rcases List.eq_nil_or_concat post with rfl | ⟨post, e, rfl⟩
  · obtain ⟨rfl, hab⟩ := List.append_inj' he rfl
    cases hab
    exact ha
  · refine ht pre b post ?_
    rw [List.concat_eq_append, ← List.cons_append, ← List.append_assoc] at he
    exact (List.append_inj' he rfl).1

theorem OnTime.not_closed (ht : OnTime keysOf (h ++ [.add a])) (hk : k ∈ keysOf a) :
    ¬ Closed h k := ht h a [] rfl k hk

end OnTime

/-! ## Groups -/

section Groups

variable [DecidableEq κ] (keysOf : α → List κ) (step : β → α → β) (init : β)

/-- The elements of group `k`, in arrival order. -/
def members (h : List (Event κ α)) (k : κ) : List α := (elems h).filter fun a => k ∈ keysOf a

/-- The batch result of group `k`. -/
def total (h : List (Event κ α)) (k : κ) : β := (members keysOf h k).foldl step init

/-- The groups with at least one element. -/
def keys (h : List (Event κ α)) : List κ := ((elems h).flatMap keysOf).dedup

/-- The accumulator that an incremental group-by holds for group `k`. -/
def live (h : List (Event κ α)) (k : κ) : Option β :=
  if k ∈ keys keysOf h ∧ ¬ Closed h k then some (total keysOf step init h k) else none

/-- The groups that a closing after `h` gives up. -/
def due (h : List (Event κ α)) (p : κ → Bool) : List κ :=
  (keys keysOf h).filter fun k => p k ∧ ¬ Closed h k

/-- The groups that were closed. -/
def closedKeys (h : List (Event κ α)) : List κ :=
  (keys keysOf h).filter fun k => Closed h k

variable {keysOf step init} {h h' : List (Event κ α)} {k : κ} {a : α} {p : κ → Bool}

theorem mem_keys : k ∈ keys keysOf h ↔ ∃ a ∈ elems h, k ∈ keysOf a := by
  simp [keys, List.mem_dedup, List.mem_flatMap]

theorem keys_nodup : (keys keysOf h).Nodup := List.nodup_dedup _

theorem mem_keys_append : k ∈ keys keysOf (h ++ h') ↔ k ∈ keys keysOf h ∨ k ∈ keys keysOf h' := by
  simp only [mem_keys, elems_append, List.mem_append, or_and_right, exists_or]

theorem mem_keys_add : k ∈ keys keysOf (h ++ [.add a]) ↔ k ∈ keys keysOf h ∨ k ∈ keysOf a := by
  simp only [mem_keys, elems_add, List.mem_append, List.mem_singleton, or_and_right, exists_or,
    exists_eq_left]

theorem keys_close : keys keysOf (h ++ [.close p]) = keys keysOf h := by
  rw [keys, elems_close, keys]

theorem members_append :
    members keysOf (h ++ h') k = members keysOf h k ++ members keysOf h' k := by
  rw [members, elems_append, List.filter_append]; rfl

theorem members_eq_nil : members keysOf h k = [] ↔ k ∉ keys keysOf h := by
  simp [members, mem_keys, List.filter_eq_nil_iff]

theorem members_add_of_mem (hk : k ∈ keysOf a) :
    members keysOf (h ++ [.add a]) k = members keysOf h k ++ [a] := by
  rw [members, elems_add, List.filter_append]
  simp [members, hk]

theorem members_add_of_notMem (hk : k ∉ keysOf a) :
    members keysOf (h ++ [.add a]) k = members keysOf h k := by
  rw [members, elems_add, List.filter_append]
  simp [members, hk]

theorem total_add_of_mem (hk : k ∈ keysOf a) :
    total keysOf step init (h ++ [.add a]) k = step (total keysOf step init h k) a := by
  rw [total, members_add_of_mem hk, List.foldl_append]; rfl

theorem total_add_of_notMem (hk : k ∉ keysOf a) :
    total keysOf step init (h ++ [.add a]) k = total keysOf step init h k := by
  rw [total, members_add_of_notMem hk, total]

theorem total_of_notMem (hk : k ∉ keys keysOf h) : total keysOf step init h k = init := by
  rw [total, members_eq_nil.mpr hk, List.foldl_nil]

@[simp] theorem total_close :
    total keysOf step init (h ++ [.close p]) k = total keysOf step init h k := by
  rw [total, members, elems_close, total, members]

theorem mem_due : k ∈ due keysOf h p ↔ k ∈ keys keysOf h ∧ p k = true ∧ ¬ Closed h k := by
  simp [due, List.mem_filter]

theorem due_nodup : (due keysOf h p).Nodup := keys_nodup.filter _

theorem mem_closedKeys : k ∈ closedKeys keysOf h ↔ k ∈ keys keysOf h ∧ Closed h k := by
  simp [closedKeys, List.mem_filter]

theorem closedKeys_nodup : (closedKeys keysOf h).Nodup := keys_nodup.filter _

/-! ## Elements on time -/

theorem OnTime.notMem_keys (ht : OnTime keysOf (h ++ h')) (hc : Closed h k) :
    k ∉ keys keysOf h' := by
  rw [mem_keys]
  rintro ⟨a, ha, hk⟩
  obtain ⟨e, he, hea⟩ := List.mem_filterMap.mp ha
  cases e with
  | close q => simp at hea
  | add b =>
    obtain rfl : b = a := by simpa using hea
    obtain ⟨mid, post, rfl⟩ := List.append_of_mem he
    exact ht (h ++ mid) b post (by rw [List.append_assoc]) k hk (hc.append mid)

theorem OnTime.total_append (ht : OnTime keysOf (h ++ h')) (hc : Closed h k) :
    total keysOf step init (h ++ h') k = total keysOf step init h k := by
  rw [total, members_append, members_eq_nil.mpr (ht.notMem_keys hc), List.append_nil, total]

theorem OnTime.mem_keys_of_closed (ht : OnTime keysOf (h ++ h')) (hc : Closed h k) :
    k ∈ keys keysOf (h ++ h') ↔ k ∈ keys keysOf h := by
  rw [mem_keys_append, or_iff_left (ht.notMem_keys hc)]

theorem live_eq_some {b : β} :
    live keysOf step init h k = some b ↔
      (k ∈ keys keysOf h ∧ ¬ Closed h k) ∧ total keysOf step init h k = b := by
  unfold live
  split_ifs with hk
  · simp [hk]
  · simp [hk]

@[simp] theorem live_nil : live keysOf step init [] k = none := by
  simp [live, mem_keys]

/-- **An element is folded into the accumulators of its groups.** -/
theorem live_add (ht : OnTime keysOf (h ++ [.add a])) :
    live keysOf step init (h ++ [.add a]) k =
      if k ∈ keysOf a then some (step ((live keysOf step init h k).getD init) a)
      else live keysOf step init h k := by
  split_ifs with hk
  · have hopen : ¬ Closed h k := ht.not_closed hk
    have hget : (live keysOf step init h k).getD init = total keysOf step init h k := by
      unfold live
      split_ifs with hl
      · rfl
      · exact (total_of_notMem fun hmem => hl ⟨hmem, hopen⟩).symm
    rw [hget, live_eq_some, total_add_of_mem hk]
    exact ⟨⟨mem_keys_add.mpr (Or.inr hk), by simpa using hopen⟩, rfl⟩
  · refine Option.ext fun b => ?_
    rw [live_eq_some, live_eq_some, mem_keys_add, or_iff_left hk, closed_add,
      total_add_of_notMem hk]

/-- **A closing drops the accumulators of its groups.** -/
theorem live_close :
    live keysOf step init (h ++ [.close p]) k =
      if p k then none else live keysOf step init h k := by
  refine Option.ext fun b => ?_
  rw [live_eq_some, keys_close, closed_close, total_close]
  split_ifs with hp
  · simp [hp]
  · rw [live_eq_some, or_iff_left hp]

theorem closedKeys_add (ht : OnTime keysOf (h ++ [.add a])) :
    (closedKeys keysOf (h ++ [.add a])).Perm (closedKeys keysOf h) := by
  rw [List.perm_ext_iff_of_nodup closedKeys_nodup closedKeys_nodup]
  intro k
  rw [mem_closedKeys, mem_closedKeys, closed_add]
  exact and_congr_left fun hc => ht.mem_keys_of_closed hc

/-- **A closing gives up the groups that are due, each once.** -/
theorem closedKeys_close :
    (closedKeys keysOf (h ++ [.close p])).Perm (closedKeys keysOf h ++ due keysOf h p) := by
  have hnodup : (closedKeys keysOf h ++ due keysOf h p).Nodup := by
    refine closedKeys_nodup.append due_nodup fun k hk hk' => ?_
    exact (mem_due.mp hk').2.2 (mem_closedKeys.mp hk).2
  rw [List.perm_ext_iff_of_nodup closedKeys_nodup hnodup]
  intro k
  rw [List.mem_append, mem_closedKeys, mem_closedKeys, mem_due, keys_close, closed_close]
  tauto

/-- **What a closing gives up is complete:** no element that comes later belongs to it. -/
theorem due_perm (ht : OnTime keysOf (h ++ .close p :: h')) :
    (due keysOf h p).Perm
      ((keys keysOf (h ++ .close p :: h')).filter fun k => p k ∧ ¬ Closed h k) := by
  rw [List.perm_ext_iff_of_nodup due_nodup (keys_nodup.filter _)]
  intro k
  rw [mem_due, List.mem_filter, decide_eq_true_eq]
  refine and_congr_left fun hk => ?_
  rw [List.append_cons] at ht ⊢
  rw [ht.mem_keys_of_closed (closed_close.mpr (Or.inr hk.1)), keys_close]

end Groups

/-! ## Late elements -/

section Late

variable [DecidableEq κ] (keysOf : α → List κ)

/-- How often a history gives group `k` up, if at first the group is open or not: a late element
opens it again. -/
def givenUp (k : κ) : Bool → List (Event κ α) → ℕ
  | _, [] => 0
  | o, .add a :: h => givenUp k (o || k ∈ keysOf a) h
  | o, .close p :: h => (if o && p k then 1 else 0) + givenUp k (o && !p k) h

variable {keysOf} {h : List (Event κ α)} {k : κ}

theorem one_le_givenUp_open :
    1 ≤ givenUp keysOf k true h ↔ ∃ p, p k = true ∧ .close p ∈ h := by
  induction h with
  | nil => simp [givenUp]
  | cons e h ih =>
    cases e with
    | add a => simp [givenUp, ih]
    | close q =>
      by_cases hq : q k = true
      · simp only [givenUp, hq, Bool.and_self, if_true, List.mem_cons]
        exact iff_of_true (by omega) ⟨q, hq, Or.inl rfl⟩
      · simp only [givenUp, hq, Bool.and_false, Bool.not_false, Bool.true_and, if_false,
          Bool.false_eq_true, zero_add, ih, List.mem_cons]
        constructor
        · rintro ⟨p, hp, hmem⟩
          exact ⟨p, hp, Or.inr hmem⟩
        · rintro ⟨p, hp, hmem | hmem⟩
          · cases hmem
            exact absurd hp hq
          · exact ⟨p, hp, hmem⟩

/-- A closed group is given up if an element and then a closing come for it. -/
theorem one_le_givenUp_closed :
    1 ≤ givenUp keysOf k false h ↔
      ∃ a p, k ∈ keysOf a ∧ p k = true ∧ [.add a, .close p].Sublist h := by
  induction h with
  | nil => simp [givenUp]
  | cons e h ih =>
    cases e with
    | add a =>
      by_cases ha : k ∈ keysOf a
      · simp only [givenUp, ha, decide_true, Bool.or_true, one_le_givenUp_open]
        constructor
        · rintro ⟨p, hp, hmem⟩
          exact ⟨a, p, ha, hp, (List.singleton_sublist.mpr hmem).cons_cons _⟩
        · rintro ⟨a', p, -, hp, hsub⟩
          have hmem : Event.close p ∈ Event.add a :: h := hsub.subset (by simp)
          exact ⟨p, hp, by simpa using hmem⟩
      · simp only [givenUp, ha, decide_false, Bool.or_false, ih, List.sublist_cons_iff]
        constructor
        · rintro ⟨a', p, ha', hp, hsub⟩
          exact ⟨a', p, ha', hp, Or.inl hsub⟩
        · rintro ⟨a', p, ha', hp, hsub | ⟨r, hr, -⟩⟩
          · exact ⟨a', p, ha', hp, hsub⟩
          · cases hr
            exact absurd ha' ha
    | close q =>
      simp only [givenUp, Bool.false_and, Bool.false_eq_true, if_false, zero_add, ih,
        List.sublist_cons_iff]
      constructor
      · rintro ⟨a, p, ha, hp, hsub⟩
        exact ⟨a, p, ha, hp, Or.inl hsub⟩
      · rintro ⟨a, p, ha, hp, hsub | ⟨r, hr, -⟩⟩
        · exact ⟨a, p, ha, hp, hsub⟩
        · cases hr

/-- An open group is given up twice if a closing, an element and a closing come for it. -/
theorem two_le_givenUp_open :
    2 ≤ givenUp keysOf k true h ↔
      ∃ p a p', p k = true ∧ k ∈ keysOf a ∧ p' k = true ∧
        [.close p, .add a, .close p'].Sublist h := by
  induction h with
  | nil => simp [givenUp]
  | cons e h ih =>
    cases e with
    | add b =>
      simp only [givenUp, Bool.true_or, ih, List.sublist_cons_iff]
      constructor
      · rintro ⟨p, a, p', hp, ha, hp', hsub⟩
        exact ⟨p, a, p', hp, ha, hp', Or.inl hsub⟩
      · rintro ⟨p, a, p', hp, ha, hp', hsub | ⟨r, hr, -⟩⟩
        · exact ⟨p, a, p', hp, ha, hp', hsub⟩
        · cases hr
    | close q =>
      by_cases hq : q k = true
      · have hsplit : 2 ≤ givenUp keysOf k true (.close q :: h) ↔
            1 ≤ givenUp keysOf k false h := by
          simp only [givenUp, hq, Bool.and_self, if_true, Bool.not_true, Bool.and_false]
          omega
        rw [hsplit, one_le_givenUp_closed]
        constructor
        · rintro ⟨a, p', ha, hp', hsub⟩
          exact ⟨q, a, p', hq, ha, hp', hsub.cons_cons _⟩
        · rintro ⟨p, a, p', -, ha, hp', hsub⟩
          exact ⟨a, p', ha, hp', by simpa using hsub.tail⟩
      · simp only [givenUp, hq, Bool.and_false, Bool.not_false, Bool.true_and, if_false,
          Bool.false_eq_true, zero_add, ih, List.sublist_cons_iff]
        constructor
        · rintro ⟨p, a, p', hp, ha, hp', hsub⟩
          exact ⟨p, a, p', hp, ha, hp', Or.inl hsub⟩
        · rintro ⟨p, a, p', hp, ha, hp', hsub | ⟨r, hr, -⟩⟩
          · exact ⟨p, a, p', hp, ha, hp', hsub⟩
          · cases hr
            exact absurd hp hq

/-- **A group is given up twice** if an element comes for it after it was given up, and then a
closing. -/
theorem two_le_givenUp :
    2 ≤ givenUp keysOf k false h ↔
      ∃ a p a' p', k ∈ keysOf a ∧ p k = true ∧ k ∈ keysOf a' ∧ p' k = true ∧
        [.add a, .close p, .add a', .close p'].Sublist h := by
  induction h with
  | nil => simp [givenUp]
  | cons e h ih =>
    cases e with
    | add b =>
      by_cases hb : k ∈ keysOf b
      · simp only [givenUp, hb, decide_true, Bool.or_true, two_le_givenUp_open]
        constructor
        · rintro ⟨p, a', p', hp, ha', hp', hsub⟩
          exact ⟨b, p, a', p', hb, hp, ha', hp', hsub.cons_cons _⟩
        · rintro ⟨a, p, a', p', -, hp, ha', hp', hsub⟩
          exact ⟨p, a', p', hp, ha', hp', by simpa using hsub.tail⟩
      · simp only [givenUp, hb, decide_false, Bool.or_false, ih, List.sublist_cons_iff]
        constructor
        · rintro ⟨a, p, a', p', ha, hp, ha', hp', hsub⟩
          exact ⟨a, p, a', p', ha, hp, ha', hp', Or.inl hsub⟩
        · rintro ⟨a, p, a', p', ha, hp, ha', hp', hsub | ⟨r, hr, -⟩⟩
          · exact ⟨a, p, a', p', ha, hp, ha', hp', hsub⟩
          · cases hr
            exact absurd ha hb
    | close q =>
      simp only [givenUp, Bool.false_and, Bool.false_eq_true, if_false, zero_add, ih,
        List.sublist_cons_iff]
      constructor
      · rintro ⟨a, p, a', p', ha, hp, ha', hp', hsub⟩
        exact ⟨a, p, a', p', ha, hp, ha', hp', Or.inl hsub⟩
      · rintro ⟨a, p, a', p', ha, hp, ha', hp', hsub | ⟨r, hr, -⟩⟩
        · exact ⟨a, p, a', p', ha, hp, ha', hp', hsub⟩
        · cases hr

end Late

end GroupBy
