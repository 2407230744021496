import Mathlib.Data.List.Basic
import Mathlib.Tactic

/-!
# UTF-8

Strings as byte strings, and back.

* `encode`, `decode`: the bytes of a string; the string that bytes stand for, if they are valid;
* **`decode_eq_some`**: the valid byte strings are the encoded strings;
* **`mem_utf8EncodeChar`**: an ASCII byte stands for its own character wherever it occurs.
-/

namespace Utf8

/-- The bytes of a list of characters. -/
def encodeChars (cs : List Char) : List UInt8 := cs.flatMap String.utf8EncodeChar

/-- The bytes of a string. -/
def encode (s : String) : List UInt8 := encodeChars s.toList

/-- The string that bytes stand for; `none` if they are not valid. -/
def decode (bs : List UInt8) : Option String :=
  bs.toByteArray.utf8Decode?.map fun cs => String.ofList cs.toList

@[simp] theorem encodeChars_nil : encodeChars [] = [] := rfl

theorem encodeChars_cons (c : Char) (cs : List Char) :
    encodeChars (c :: cs) = String.utf8EncodeChar c ++ encodeChars cs := List.flatMap_cons

theorem encodeChars_append (cs ds : List Char) :
    encodeChars (cs ++ ds) = encodeChars cs ++ encodeChars ds := List.flatMap_append

theorem encode_ofList (cs : List Char) : encode (String.ofList cs) = encodeChars cs := by
  rw [encode, String.toList_ofList]

theorem utf8Encode_eq (cs : List Char) : cs.utf8Encode = (encodeChars cs).toByteArray := rfl

/-- **The valid byte strings** are the encoded strings. -/
theorem decode_eq_some {bs : List UInt8} {s : String} : decode bs = some s ↔ encode s = bs := by
  unfold decode
  constructor
  · intro h
    obtain ⟨cs, hcs, rfl⟩ := Option.map_eq_some_iff.mp h
    have hsome : bs.toByteArray.utf8Decode?.isSome := by rw [hcs]; rfl
    have hbytes := ByteArray.utf8Encode_get_utf8Decode? (b := bs.toByteArray) (h := hsome)
    have hget : bs.toByteArray.utf8Decode?.get hsome = cs := Option.get_of_eq_some hsome hcs
    rw [hget, utf8Encode_eq] at hbytes
    rw [encode_ofList, ← List.toList_data_toByteArray (l := bs), ← hbytes,
      List.toList_data_toByteArray]
  · rintro rfl
    rw [encode, ← utf8Encode_eq, List.utf8Decode?_utf8Encode, Option.map_some]
    exact congrArg some String.ofList_toList

theorem decode_encode (s : String) : decode (encode s) = some s := decode_eq_some.mpr rfl

theorem decode_encodeChars (cs : List Char) : decode (encodeChars cs) = some (String.ofList cs) :=
  decode_eq_some.mpr (encode_ofList cs)

/-- **ASCII bytes**: the bytes below 128 stand for one character each, and occur in no other. -/
theorem mem_utf8EncodeChar {b : UInt8} (hb : b.toNat < 128) {c : Char} :
    b ∈ String.utf8EncodeChar c ↔ c.val.toNat = b.toNat := by
  have hbyte : ∀ n : ℕ, b = UInt8.ofNat n ↔ b.toNat = n % 256 := by
    intro n
    rw [← UInt8.toNat_inj, UInt8.toNat_ofNat']
  unfold String.utf8EncodeChar
  dsimp only
  split_ifs with h1 h2 h3
  · rw [List.mem_singleton, hbyte]
    omega
  · simp only [List.mem_cons, List.not_mem_nil, or_false, hbyte]
    omega
  · simp only [List.mem_cons, List.not_mem_nil, or_false, hbyte]
    omega
  · simp only [List.mem_cons, List.not_mem_nil, or_false, hbyte]
    omega

end Utf8
