import Mathlib.Data.List.Basic
import Mathlib.Tactic

/-!
# Codecs and length-prefixed frames

A codec turns values into bytes and back, and may refuse either. A frame is a byte string behind
its length, in `w` little-endian bytes; frames are written one after the other and read back until
the rest is no whole frame.

* `Codec.RoundTrips`, `Codec.Minimal`: what a reader may rely on;
* `frame`, `nextFrame`, `unframe`: writing and reading frames;
* **`unframe_flatten`**: frames that are shorter than `256 ^ w` are read back;
* **`exists_trailing`**: a payload is the frames that are read from it, and a rest;
* **`sum_unframe_le`**: what is read never takes more room than there was.
-/

namespace Framing

/-! ## Codecs -/

/-- A pair of a serializer and a deserializer. -/
structure Codec (α : Type*) where
  serialize : α → Except String (List UInt8)
  deserialize : List UInt8 → Except String α

namespace Codec

variable {α : Type*} (codec : Codec α)

/-- What was serialized is deserialized to the same value. -/
def RoundTrips : Prop := ∀ x b, codec.serialize x = .ok b → codec.deserialize b = .ok x

/-- No accepted encoding of a value is shorter than the one that is written for it. -/
def Minimal : Prop :=
  ∀ b x b', codec.deserialize b = .ok x → codec.serialize x = .ok b' → b'.length ≤ b.length

end Codec

/-! ## Little-endian numbers -/

/-- The low `w` bytes of `n`, the least significant first. -/
def leBytes (w n : ℕ) : List UInt8 := (List.range w).map fun i => UInt8.ofNat (n / 256 ^ i)

/-- The number that little-endian bytes stand for. -/
def leValue (bs : List UInt8) : ℕ := bs.foldr (fun b n => b.toNat + 256 * n) 0

@[simp] theorem length_leBytes (w n : ℕ) : (leBytes w n).length = w := by
  rw [leBytes, List.length_map, List.length_range]

theorem leValue_lt (bs : List UInt8) : leValue bs < 256 ^ bs.length := by
  induction bs with
  | nil => exact Nat.one_pos
  | cons b bs ih =>
    have hb : b.toNat < 256 := b.toNat_lt
    have hcons : leValue (b :: bs) = b.toNat + 256 * leValue bs := rfl
    rw [hcons, List.length_cons, pow_succ]
    omega

theorem leBytes_succ (w n : ℕ) : leBytes (w + 1) n = UInt8.ofNat n :: leBytes w (n / 256) := by
  unfold leBytes
  rw [List.range_succ_eq_map, List.map_cons, List.map_map, pow_zero, Nat.div_one]
  refine congrArg _ (List.map_congr_left fun i _ => ?_)
  rw [Function.comp_apply, Nat.succ_eq_add_one, pow_succ', Nat.div_div_eq_div_mul]

theorem leValue_leBytes (w n : ℕ) : leValue (leBytes w n) = n % 256 ^ w := by
  induction w generalizing n with
  | zero => rw [pow_zero, Nat.mod_one]; rfl
  | succ w ih =>
    have hhead : (UInt8.ofNat n).toNat = n % 256 := by
      rw [UInt8.toNat_ofNat']
    have hcons : leValue (UInt8.ofNat n :: leBytes w (n / 256)) =
        (UInt8.ofNat n).toNat + 256 * leValue (leBytes w (n / 256)) := rfl
    rw [leBytes_succ, hcons, hhead, ih, pow_succ', Nat.mod_mul]

theorem leBytes_leValue (bs : List UInt8) : leBytes bs.length (leValue bs) = bs := by
  induction bs with
  | nil => rfl
  | cons b bs ih =>
    have hcons : leValue (b :: bs) = b.toNat + 256 * leValue bs := rfl
    have hb : b.toNat < 256 := b.toNat_lt
    have hrest : (b.toNat + 256 * leValue bs) / 256 = leValue bs := by omega
    have hfirst : UInt8.ofNat (b.toNat + 256 * leValue bs) = b := by
      apply UInt8.toNat_inj.mp
      rw [UInt8.toNat_ofNat']
      omega
    rw [List.length_cons, leBytes_succ, hcons, hrest, hfirst, ih]

theorem leValue_leBytes_of_lt {w n : ℕ} (h : n < 256 ^ w) : leValue (leBytes w n) = n := by
  rw [leValue_leBytes, Nat.mod_eq_of_lt h]

/-! ## Frames -/

variable {w : ℕ} {b b' payload rest : List UInt8}

/-- A byte string behind its length; a length of `256 ^ w` or more is cut off. -/
def frame (w : ℕ) (b : List UInt8) : List UInt8 := leBytes w b.length ++ b

/-- The first frame, and what follows it. -/
def nextFrame (w : ℕ) (payload : List UInt8) : Option (List UInt8 × List UInt8) :=
  if w ≤ payload.length ∧ leValue (payload.take w) ≤ (payload.drop w).length then
    some ((payload.drop w).take (leValue (payload.take w)),
      (payload.drop w).drop (leValue (payload.take w)))
  else none

theorem nextFrame_eq_some (h : nextFrame w payload = some (b, rest)) :
    payload.length = w + b.length + rest.length ∧ b.length < 256 ^ w := by
  unfold nextFrame at h
  split_ifs at h with hle
  obtain ⟨rfl, rfl⟩ := Prod.mk.inj (Option.some.inj h)
  have hlt : leValue (payload.take w) < 256 ^ w := by
    have := leValue_lt (payload.take w)
    rwa [List.length_take, min_eq_left hle.1] at this
  obtain ⟨hw, hn⟩ := hle
  rw [List.length_drop] at hn
  simp only [List.length_take, List.length_drop]
  omega

theorem nextFrame_frame (hb : b.length < 256 ^ w) (rest : List UInt8) :
    nextFrame w (frame w b ++ rest) = some (b, rest) := by
  have hlen : (leBytes w b.length).length = w := length_leBytes _ _
  have htake : (frame w b ++ rest).take w = leBytes w b.length := by
    rw [frame, List.append_assoc, List.take_append_of_le_length hlen.ge,
      List.take_of_length_le hlen.le]
  have hdrop : (frame w b ++ rest).drop w = b ++ rest := by
    rw [frame, List.append_assoc, List.drop_append_of_le_length hlen.ge,
      List.drop_of_length_le hlen.le, List.nil_append]
  unfold nextFrame
  rw [htake, hdrop, leValue_leBytes_of_lt hb, if_pos, List.take_left, List.drop_left]
  rw [frame, List.length_append, List.length_append, List.length_append, hlen]
  omega

theorem prefixWidth_pos : 0 < 4 := by decide

/-- All frames of a payload, up to the first point where there is no whole frame. -/
def unframe (w : ℕ) (hw : 0 < w) (payload : List UInt8) : List (List UInt8) :=
  match _h : nextFrame w payload with
  | some (b, rest) => b :: unframe w hw rest
  | none => []
termination_by payload.length
decreasing_by
  have := (nextFrame_eq_some _h).1
  omega

variable {hw : 0 < w}

theorem unframe_of_some (h : nextFrame w payload = some (b, rest)) :
    unframe w hw payload = b :: unframe w hw rest := by
  rw [unframe]
  split
  · rename_i h'
    rw [h] at h'
    obtain ⟨rfl, rfl⟩ := Prod.mk.inj (Option.some.inj h')
    rfl
  · rename_i h'
    rw [h] at h'
    cases h'

theorem unframe_of_none (h : nextFrame w payload = none) : unframe w hw payload = [] := by
  rw [unframe]
  split
  · rename_i h'
    rw [h] at h'
    cases h'
  · rfl

theorem unframe_nil : unframe w hw [] = [] := by
  refine unframe_of_none (if_neg fun h => ?_)
  rw [List.length_nil] at h
  omega

/-- **Frames are read back**, if each length fits its prefix. -/
theorem unframe_flatten {bs : List (List UInt8)} (h : ∀ b ∈ bs, b.length < 256 ^ w) :
    unframe w hw (bs.map (frame w)).flatten = bs := by
  induction bs with
  | nil => exact unframe_nil
  | cons b bs ih =>
    rw [List.map_cons, List.flatten_cons,
      unframe_of_some (nextFrame_frame (h b List.mem_cons_self) _),
      ih fun b' hb' => h b' (List.mem_cons_of_mem _ hb')]

theorem eq_of_nextFrame (h : nextFrame w payload = some (b, rest)) :
    payload = frame w b ++ rest := by
  unfold nextFrame at h
  split_ifs at h with hle
  obtain ⟨rfl, rfl⟩ := Prod.mk.inj (Option.some.inj h)
  have hlen : (payload.take w).length = w := by
    rw [List.length_take, min_eq_left hle.1]
  have hwidth : leBytes w (leValue (payload.take w)) = payload.take w := by
    have := leBytes_leValue (payload.take w)
    rwa [hlen] at this
  rw [frame, List.length_take, min_eq_left hle.2, hwidth, List.append_assoc,
    List.take_append_drop, List.take_append_drop]

/-- **A payload is its frames**, and a rest that does not begin with a frame. -/
theorem exists_trailing (payload : List UInt8) :
    ∃ trailing, payload = ((unframe w hw payload).map (frame w)).flatten ++ trailing ∧
      nextFrame w trailing = none := by
  induction hn : payload.length using Nat.strong_induction_on generalizing payload with
  | _ n ih =>
    cases h : nextFrame w payload with
    | none =>
      rw [unframe_of_none h]
      exact ⟨payload, rfl, h⟩
    | some split =>
      obtain ⟨b, rest⟩ := split
      have hlen := (nextFrame_eq_some h).1
      obtain ⟨trailing, hrest, hnone⟩ := ih rest.length (by omega) rest rfl
      refine ⟨trailing, ?_, hnone⟩
      rw [unframe_of_some h, List.map_cons, List.flatten_cons, List.append_assoc, ← hrest]
      exact eq_of_nextFrame h

/-- **Every frame that is read takes its room in the payload.** -/
theorem sum_unframe_le (payload : List UInt8) :
    ((unframe w hw payload).map fun b => w + b.length).sum ≤ payload.length := by
  induction hn : payload.length using Nat.strong_induction_on generalizing payload with
  | _ n ih =>
    rcases h : nextFrame w payload with _ | ⟨b, rest⟩
    · rw [unframe_of_none h]
      exact Nat.zero_le _
    · have hlen := (nextFrame_eq_some h).1
      have hrest := ih rest.length (by omega) rest rfl
      rw [unframe_of_some h, List.map_cons, List.sum_cons]
      omega

theorem length_lt_of_mem_unframe {payload b : List UInt8} (hb : b ∈ unframe w hw payload) :
    b.length < 256 ^ w := by
  induction hn : payload.length using Nat.strong_induction_on generalizing payload with
  | _ n ih =>
    rcases h : nextFrame w payload with _ | ⟨b₀, rest⟩
    · rw [unframe_of_none h] at hb
      cases hb
    · obtain ⟨hlen, hlt⟩ := nextFrame_eq_some h
      rw [unframe_of_some h] at hb
      rcases List.mem_cons.mp hb with rfl | hb
      · exact hlt
      · exact ih rest.length (by omega) hb rfl

end Framing
