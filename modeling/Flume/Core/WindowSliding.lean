import Flume.Core.Window

/-!
# The windows of a sliding window

Sliding windows start at the multiples of the slide. The loop walks them backwards from the last
that starts at or before the timestamp.

* `IsSlide`: the windows that may be assigned at all;
* **`SlidingWindow.walkBack_spec`**: what the loop adds when it starts at a multiple;
* **`assignWindows_exact`**: a timestamp is assigned the windows that contain it, in ascending
  order; with a slide of the size, these are the tumbling windows.
-/

namespace Flume

open Fallible (bind_eq_ok)

/-- The `k`-th window of a sliding window. -/
def SlidingWindow.IsSlide (w : SlidingWindow) (k : ℕ) (v : Window) : Prop :=
  v.start.val = k * w.slideMs.val ∧ v.stop.val = k * w.slideMs.val + w.sizeMs.val

namespace SlidingWindow

variable {w : SlidingWindow} {ts start stop : U64} {k : ℕ} {v : Window}

theorem IsSlide.contains_iff (h : w.IsSlide k v) : v.contains ts = true ↔
    k * w.slideMs.val ≤ ts.val ∧ ts.val < k * w.slideMs.val + w.sizeMs.val := by
  rw [Window.contains_iff, Fin.le_def, Fin.lt_def, h.1, h.2]

theorem IsSlide.unique {u : Window} (hu : w.IsSlide k u) (hv : w.IsSlide k v) : u = v := by
  cases u
  cases v
  congr 1
  · exact Fin.ext (hu.1.trans hv.1.symm)
  · exact Fin.ext (hu.2.trans hv.2.symm)

theorem IsSlide.start_lt {u : Window} {j : ℕ} (hslide : 0 < w.slideMs.val) (hu : w.IsSlide j u)
    (hv : w.IsSlide k v) (h : j < k) : u.start < v.start := by
  rw [Fin.lt_def, hu.1, hv.1]
  exact Nat.mul_lt_mul_of_pos_right h hslide

theorem IsSlide.ended {j : ℕ} (hv : w.IsSlide j v) (h : j ≤ k)
    (hended : k * w.slideMs.val + w.sizeMs.val ≤ ts.val) : ¬ v.contains ts = true := by
  intro hcontains
  have hmono : j * w.slideMs.val ≤ k * w.slideMs.val := Nat.mul_le_mul_right _ h
  have hend := (hv.contains_iff.mp hcontains).2
  omega

theorem pushed_iff (hstart : start.val = k * w.slideMs.val)
    (hstop : stop.val = k * w.slideMs.val + w.sizeMs.val) (hle : start ≤ ts)
    (windows : List Window) :
    ∃ here : List Window,
      (if ts < stop then windows ++ [⟨start, stop⟩] else windows) = windows ++ here ∧
      here.Pairwise (fun a b => b.start < a.start) ∧
      ∀ v, v ∈ here ↔ w.IsSlide k v ∧ v.contains ts = true := by
  have hunique : ∀ v, w.IsSlide k v → v = ⟨start, stop⟩ := fun v hv => hv.unique ⟨hstart, hstop⟩
  split_ifs with hlt
  · refine ⟨[⟨start, stop⟩], rfl, List.pairwise_singleton _ _, fun v => ?_⟩
    rw [List.mem_singleton]
    constructor
    · rintro rfl
      exact ⟨⟨hstart, hstop⟩, Window.contains_iff.mpr ⟨hle, hlt⟩⟩
    · exact fun hv => hunique v hv.1
  · refine ⟨[], (List.append_nil _).symm, List.Pairwise.nil, fun v => ?_⟩
    refine iff_of_false List.not_mem_nil fun hv => hlt ?_
    obtain rfl := hunique v hv.1
    exact (Window.contains_iff.mp hv.2).2

/-- **The loop adds the windows that contain the timestamp**, downwards from the `k`-th. -/
theorem walkBack_spec (hslide : 0 < w.slideMs.val) (hstart : start.val = k * w.slideMs.val)
    (hle : start ≤ ts) {windows result : List Window}
    (h : w.walkBack hslide ts start windows = .ok result) :
    ∃ more, result = windows ++ more ∧ more.Pairwise (fun a b => b.start < a.start) ∧
      ∀ v, v ∈ more ↔ ∃ j ≤ k, w.IsSlide j v ∧ v.contains ts = true := by
  induction k generalizing start windows with
  | zero =>
    rw [walkBack] at h
    obtain ⟨stop, hadd, h₁⟩ := bind_eq_ok h
    have hstop := (U64.val_of_checkedAdd hadd).trans (congrArg (· + w.sizeMs.val) hstart)
    obtain ⟨here, hpush, hdesc, hhere⟩ := pushed_iff hstart hstop hle windows
    have hlt : start < w.slideMs := Fin.lt_def.mpr (by omega)
    rw [dif_pos hlt, hpush] at h₁
    cases h₁
    refine ⟨here, rfl, hdesc, fun v => (hhere v).trans ?_⟩
    simp only [Nat.le_zero_eq, exists_eq_left]
  | succ k ih =>
    rw [walkBack] at h
    obtain ⟨stop, hadd, h₁⟩ := bind_eq_ok h
    have hstop := (U64.val_of_checkedAdd hadd).trans (congrArg (· + w.sizeMs.val) hstart)
    obtain ⟨here, hpush, hdescHere, hhere⟩ := pushed_iff hstart hstop hle windows
    have hmul : (k + 1) * w.slideMs.val = k * w.slideMs.val + w.slideMs.val := Nat.succ_mul _ _
    have hslideLe : w.slideMs ≤ start := Fin.le_def.mpr (by omega)
    have hnext : (start - w.slideMs).val = k * w.slideMs.val := by
      rw [Fin.sub_val_of_le hslideLe]
      omega
    rw [dif_neg (not_lt.mpr hslideLe), hpush] at h₁
    obtain ⟨nextStop, hadd', h₂⟩ := bind_eq_ok h₁
    have hnextStop := U64.val_of_checkedAdd hadd'
    split_ifs at h₂ with hpassed
    · cases h₂
      refine ⟨here, rfl, hdescHere, fun v => (hhere v).trans ?_⟩
      constructor
      · exact fun hv => ⟨k + 1, le_rfl, hv⟩
      · rintro ⟨j, hj, hslides, hv⟩
        obtain rfl | hlt := hj.eq_or_lt
        · exact ⟨hslides, hv⟩
        · -- the windows further down end even earlier
          have hpassed' : nextStop.val ≤ ts.val := hpassed
          exact absurd hv (hslides.ended (Nat.lt_succ_iff.mp hlt) (by omega))
    · have hnextLe : start - w.slideMs ≤ ts := Fin.le_def.mpr (by
        have hle' : start.val ≤ ts.val := hle
        omega)
      obtain ⟨more, rfl, hdesc, hmore⟩ := ih hnext hnextLe h₂
      refine ⟨here ++ more, List.append_assoc _ _ _, ?_, fun v => ?_⟩
      · refine List.pairwise_append.mpr ⟨hdescHere, hdesc, fun a ha b hb => ?_⟩
        obtain ⟨ha, -⟩ := (hhere a).mp ha
        obtain ⟨j, hj, hb, -⟩ := (hmore b).mp hb
        exact hb.start_lt hslide ha (Nat.lt_succ_of_le hj)
      · rw [List.mem_append, hhere, hmore]
        constructor
        · rintro (hv | ⟨j, hj, hv⟩)
          · exact ⟨k + 1, le_rfl, hv⟩
          · exact ⟨j, Nat.le_succ_of_le hj, hv⟩
        · rintro ⟨j, hj, hv⟩
          obtain rfl | hlt := hj.eq_or_lt
          · exact Or.inl hv
          · exact Or.inr ⟨j, Nat.lt_succ_iff.mp hlt, hv⟩

/-- **The windows of a timestamp**, whenever they are assigned. -/
theorem assignWindows_spec {windows : List Window} (h : w.assignWindows ts = .ok windows) :
    windows.Pairwise (fun a b => a.start < b.start) ∧
      ∀ v, v ∈ windows ↔ (∃ k, w.IsSlide k v) ∧ v.contains ts = true := by
  obtain ⟨hslide, start, ws, hstart, hws, rfl⟩ := w.walkBack_of_assignWindows h
  have hle : start ≤ ts := Fin.le_def.mpr (by
    rw [hstart]
    exact Nat.div_mul_le_self _ _)
  obtain ⟨more, rfl, hdesc, hmore⟩ := walkBack_spec hslide hstart hle hws
  refine ⟨List.pairwise_reverse.mpr hdesc, fun v => ?_⟩
  rw [List.mem_reverse]
  refine (hmore v).trans ?_
  constructor
  · rintro ⟨j, -, hslides, hv⟩
    exact ⟨⟨j, hslides⟩, hv⟩
  · rintro ⟨⟨j, hslides⟩, hv⟩
    exact ⟨j, (Nat.le_div_iff_mul_le hslide).mpr (hslides.contains_iff.mp hv).1, hslides, hv⟩

end SlidingWindow

theorem SlidingWindow.eq_of_contains {size ts : U64} {u v : Window} {k l : ℕ}
    (hu : (SlidingWindow.mk size size).IsSlide k u) (hut : u.contains ts = true)
    (hv : (SlidingWindow.mk size size).IsSlide l v) (hvt : v.contains ts = true) : u = v := by
  obtain ⟨hu₁, hu₂⟩ := hu.contains_iff.mp hut
  obtain ⟨hv₁, hv₂⟩ := hv.contains_iff.mp hvt
  have hkl : k = l := by
    rw [← Nat.succ_mul] at hu₂ hv₂
    have h₁ : k < l + 1 := Nat.lt_of_mul_lt_mul_right (lt_of_le_of_lt hu₁ hv₂)
    have h₂ : l < k + 1 := Nat.lt_of_mul_lt_mul_right (lt_of_le_of_lt hv₁ hu₂)
    omega
  subst hkl
  exact hu.unique hv

theorem TumblingWindow.isSlide {size ts : U64} {windows : List Window}
    (h : (TumblingWindow.mk size).assignWindows ts = .ok windows) :
    ∃ v k, windows = [v] ∧ (SlidingWindow.mk size size).IsSlide k v := by
  obtain ⟨n, hdiv, h₁⟩ := bind_eq_ok h
  obtain ⟨start, hmul, h₂⟩ := bind_eq_ok h₁
  obtain ⟨stop, hadd, h₃⟩ := bind_eq_ok h₂
  cases h₃
  have hstart := U64.val_of_checkedMul hmul
  have hstop := U64.val_of_checkedAdd hadd
  exact ⟨⟨start, stop⟩, n.val, rfl, hstart, by rw [hstop, hstart]⟩

/-- **Sliding windows are assigned exactly**: the windows that contain the timestamp, in ascending
order and each once; and with a slide of the size, the one window of the tumbling window. -/
theorem assignWindows_exact (size ts : U64) (hfits : ts.val + size.val < 2 ^ 64) :
    (∀ slide : U64, 1 ≤ slide.val → ∃ windows,
      (SlidingWindow.mk size slide).assignWindows ts = .ok windows ∧
        windows.Pairwise (fun a b => a.start < b.start) ∧
        ∀ v : Window, v ∈ windows ↔
          (∃ k, v.start.val = k * slide.val ∧ v.stop.val = k * slide.val + size.val) ∧
            v.contains ts = true) ∧
    (1 ≤ size.val → ∃ v : Window, v.contains ts = true ∧
      (SlidingWindow.mk size size).assignWindows ts = .ok [v] ∧
        (TumblingWindow.mk size).assignWindows ts = .ok [v]) := by
  constructor
  · intro slide hslide
    obtain ⟨windows, hwindows⟩ := SlidingWindow.assigns ⟨size, slide⟩ hslide (fits_of_le hfits _)
    exact ⟨windows, hwindows, SlidingWindow.assignWindows_spec hwindows⟩
  · intro hsize
    obtain ⟨tumbling, htumbling⟩ := TumblingWindow.assigns ⟨size⟩ hsize (fits_of_le hfits _)
    obtain ⟨v, k, rfl, hslides⟩ := TumblingWindow.isSlide htumbling
    have hv : v.contains ts = true :=
      (TumblingWindow.isProper ⟨size⟩ ts [v] htumbling).2 v (List.mem_singleton_self v)
    obtain ⟨windows, hwindows⟩ := SlidingWindow.assigns ⟨size, size⟩ hsize (fits_of_le hfits _)
    obtain ⟨hasc, hmem⟩ := SlidingWindow.assignWindows_spec hwindows
    have hperm : windows.Perm [v] := by
      refine (List.perm_ext_iff_of_nodup (hasc.imp fun h heq => ?_) (List.nodup_singleton v)).mpr
        fun u => ?_
      · exact h.ne (congrArg Window.start heq)
      · rw [hmem, List.mem_singleton]
        constructor
        · rintro ⟨⟨l, hu⟩, hut⟩
          exact SlidingWindow.eq_of_contains hu hut hslides hv
        · rintro rfl
          exact ⟨⟨k, hslides⟩, hv⟩
    rw [List.perm_singleton.mp hperm] at hwindows
    exact ⟨v, hv, hwindows, htumbling⟩

/-- Windows of 10 ms every 4 ms. -/
theorem assignWindows_nine :
    (∃ windows, (SlidingWindow.mk 10 4).assignWindows 9 = .ok windows ∧
      windows.Pairwise (fun a b => a.start < b.start) ∧
      ∀ v : Window, v ∈ windows ↔
        (∃ k, v.start.val = k * 4 ∧ v.stop.val = k * 4 + 10) ∧ v.contains 9 = true) ∧
    ∃ v : Window, v.contains 9 = true ∧ (SlidingWindow.mk 10 10).assignWindows 9 = .ok [v] ∧
      (TumblingWindow.mk 10).assignWindows 9 = .ok [v] :=
  ⟨(assignWindows_exact 10 9 (by decide)).1 4 (by decide),
    (assignWindows_exact 10 9 (by decide)).2 (by decide)⟩

end Flume
