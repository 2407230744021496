import Flume.Lib.Framing

/-!
# SipHash

SipHash-1-3: one round for each eight bytes of the message, and three rounds at its end.

* `State`, `State.round`, `State.absorb`: the four words, and what a word of the message does to
  them;
* `tail`: the last word, with the length of the message in its highest byte;
* `hash`: the digest of a byte string under a key of two words.
-/

namespace SipHash

open Framing

/-- The four words of the state. -/
structure State where
  v0 : UInt64
  v1 : UInt64
  v2 : UInt64
  v3 : UInt64
  deriving DecidableEq

/-- The bits of a word, rotated to the left. -/
def rotateLeft (x bits : UInt64) : UInt64 := x <<< bits ||| x >>> (64 - bits)

namespace State

/-- The state before the message. -/
def init (k0 k1 : UInt64) : State where
  v0 := k0 ^^^ 0x736f6d6570736575
  v1 := k1 ^^^ 0x646f72616e646f6d
  v2 := k0 ^^^ 0x6c7967656e657261
  v3 := k1 ^^^ 0x7465646279746573

/-- One round. -/
def round (s : State) : State :=
  let a0 := s.v0 + s.v1
  let a1 := rotateLeft s.v1 13 ^^^ a0
  let a2 := s.v2 + s.v3
  let a3 := rotateLeft s.v3 16 ^^^ a2
  let b0 := rotateLeft a0 32 + a3
  let b2 := a2 + a1
  ⟨b0, rotateLeft a1 17 ^^^ b2, rotateLeft b2 32, rotateLeft a3 21 ^^^ b0⟩

/-- A word of the message. -/
def absorb (s : State) (word : UInt64) : State :=
  let t := round { s with v3 := s.v3 ^^^ word }
  { t with v0 := t.v0 ^^^ word }

/-- The digest of the state. -/
def finish (s : State) : UInt64 :=
  let t := round (round (round { s with v2 := s.v2 ^^^ 0xff }))
  t.v0 ^^^ t.v1 ^^^ t.v2 ^^^ t.v3

end State

/-- The last word of a message of `length` bytes, after which `rest` is left. -/
def tail (length : ℕ) (rest : List UInt8) : UInt64 :=
  UInt64.ofNat (leValue rest) ||| UInt64.ofNat (length % 256) <<< 56

/-- The state after a message whose length, with what came before, is `length`. -/
def absorbAll (length : ℕ) : State → List UInt8 → State
  | s, b0 :: b1 :: b2 :: b3 :: b4 :: b5 :: b6 :: b7 :: rest =>
    absorbAll length (s.absorb (UInt64.ofNat (leValue [b0, b1, b2, b3, b4, b5, b6, b7]))) rest
  | s, rest => s.absorb (tail length rest)

/-- The digest of a message. -/
def hash (k0 k1 : UInt64) (message : List UInt8) : UInt64 :=
  (absorbAll message.length (State.init k0 k1) message).finish

-- the digest of the empty message under the key `0, 0`
example : hash 0 0 [] = 15130871412783076140 := by decide +kernel

end SipHash
