import Flume.State.Memory

/-!
# States of bytes

The backends at one element type, `u8`, with a codec that writes maps as length-prefixed frames:
key, value, key, value, and so on.

* `mapCodec`: a codec for finite maps; **`mapCodec_roundTrips`**;
* `byteBitcode`, **`byteBitcode_roundTrips`**: all codecs of the backends.
-/

namespace Flume

open Framing

/-! ## Maps as frames -/

section Maps

variable {κ β : Type} (encodeKey : κ → Bytes) (decodeKey : Bytes → κ)
  (encodeValue : β → Bytes) (decodeValue : Bytes → β)

/-- Keys and values in turn. -/
def mapFrames (entries : List (Σ _ : κ, β)) : List Bytes :=
  entries.flatMap fun entry => [encodeKey entry.1, encodeValue entry.2]

/-- Pairs of keys and values. -/
def mapEntries : List Bytes → List (Σ _ : κ, β)
  | key :: value :: frames => ⟨decodeKey key, decodeValue value⟩ :: mapEntries frames
  | _ => []

variable {encodeKey decodeKey encodeValue decodeValue} in
theorem mapEntries_mapFrames (hkey : ∀ k, decodeKey (encodeKey k) = k)
    (hvalue : ∀ v, decodeValue (encodeValue v) = v) (entries : List (Σ _ : κ, β)) :
    mapEntries decodeKey decodeValue (mapFrames encodeKey encodeValue entries) = entries := by
  induction entries with
  | nil => rfl
  | cons entry entries ih =>
    have hcons : mapFrames encodeKey encodeValue (entry :: entries) =
        encodeKey entry.1 :: encodeValue entry.2 :: mapFrames encodeKey encodeValue entries := rfl
    rw [hcons, mapEntries, ih, hkey, hvalue]

/-- A map is written as the frames of its keys and values. -/
def mapCodec [DecidableEq κ] : Codec (AList fun _ : κ => β) where
  serialize map :=
    if ∀ b ∈ mapFrames encodeKey encodeValue map.entries, b.length < 256 ^ 4 then
      .ok ((mapFrames encodeKey encodeValue map.entries).map (frame 4)).flatten
    else .error "too long"
  deserialize bytes :=
    .ok (mapEntries decodeKey decodeValue (unframe 4 prefixWidth_pos bytes)).toAList

variable {encodeKey decodeKey encodeValue decodeValue}

/-- **A map is read back** with the value of every key. -/
theorem mapCodec_roundTrips [DecidableEq κ] (hkey : ∀ k, decodeKey (encodeKey k) = k)
    (hvalue : ∀ v, decodeValue (encodeValue v) = v) (map : AList fun _ : κ => β) (bytes : Bytes)
    (h : (mapCodec encodeKey decodeKey encodeValue decodeValue).serialize map = .ok bytes) :
    ∃ map', (mapCodec encodeKey decodeKey encodeValue decodeValue).deserialize bytes = .ok map' ∧
      ∀ k, map'.lookup k = map.lookup k := by
  unfold mapCodec at h
  dsimp only at h
  split_ifs at h with hshort
  cases h
  refine ⟨_, rfl, fun k => ?_⟩
  rw [unframe_flatten hshort, mapEntries_mapFrames hkey hvalue, AList.lookup_to_alist]
  rfl

end Maps

/-! ## Names and single bytes -/

/-- The characters of a name, in three bytes each. -/
def encodeName (name : String) : Bytes :=
  (name.toList.map fun c => frame 1 (leBytes 3 c.toNat)).flatten

/-- The characters that frames stand for. -/
def decodeName (bytes : Bytes) : String :=
  String.ofList ((unframe 1 (by decide) bytes).map fun b => Char.ofNat (leValue b))

theorem decodeName_encodeName (name : String) : decodeName (encodeName name) = name := by
  have hframes : encodeName name =
      ((name.toList.map fun c => leBytes 3 c.toNat).map (frame 1)).flatten := by
    rw [encodeName, List.map_map]
    rfl
  have hchar : ∀ c : Char, Char.ofNat (leValue (leBytes 3 c.toNat)) = c := by
    intro c
    have hlt : c.toNat < 256 ^ 3 := by
      rcases c.valid with h | ⟨-, h⟩
      · exact Nat.lt_trans h (by norm_num)
      · exact Nat.lt_trans h (by norm_num)
    rw [leValue_leBytes_of_lt hlt, Char.ofNat_toNat]
  unfold decodeName
  rw [hframes, unframe_flatten]
  · rw [List.map_map]
    simp only [Function.comp_def, hchar, List.map_id', String.ofList_toList]
  · intro b hb
    obtain ⟨c, -, rfl⟩ := List.mem_map.mp hb
    rw [length_leBytes]
    norm_num

/-- The element type `u8`. -/
def byteTypes : StateTypes where
  Ty := Unit
  El _ := UInt8

/-- A codec for each type that the backends serialize. -/
def byteBitcode : Bitcode byteTypes where
  key _ := { serialize := fun b => .ok [b], deserialize := fun bs => .ok (bs.headD 0) }
  content
    | .value _ =>
      { serialize := fun value : Option UInt8 => .ok value.toList
        deserialize := fun bs => .ok bs.head? }
    | .list _ =>
      { serialize := fun list : List UInt8 => .ok list
        deserialize := fun bs => .ok bs }
    | .map _ _ => mapCodec (fun k : UInt8 => [k]) (fun bs => bs.headD 0) (fun v : UInt8 => [v])
        fun bs => bs.headD 0
  names := mapCodec encodeName decodeName id id
  keys := mapCodec id id id id

theorem byteBitcode_roundTrips : byteBitcode.RoundTrips where
  content kind c b h := by
    cases kind with
    | value v =>
      cases h
      refine ⟨c, ?_, rfl⟩
      change Except.ok (Option.toList c).head? = Except.ok c
      cases c <;> rfl
    | list v =>
      cases h
      exact ⟨b, rfl, rfl⟩
    | map k v =>
      obtain ⟨c', hdecode, hlookup⟩ := mapCodec_roundTrips (fun _ => rfl) (fun _ => rfl) c b h
      exact ⟨c', hdecode, funext hlookup⟩
  names := mapCodec_roundTrips decodeName_encodeName fun _ => rfl
  keys := mapCodec_roundTrips (fun _ => rfl) fun _ => rfl

end Flume
