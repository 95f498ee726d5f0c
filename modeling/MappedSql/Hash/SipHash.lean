/-!
# SipHash-1-3

A hash of 64 bits for a sequence of bytes: one mixing round for each word of eight bytes,
and three at the end. Both halves of the key are zero.
-/

namespace MappedSql.SipHash

structure State where
  v0 : UInt64
  v1 : UInt64
  v2 : UInt64
  v3 : UInt64
  deriving DecidableEq, Repr

def start : State where
  v0 := 0x736f6d6570736575
  v1 := 0x646f72616e646f6d
  v2 := 0x6c7967656e657261
  v3 := 0x7465646279746573

def rotateLeft (x n : UInt64) : UInt64 :=
  (x <<< n) ||| (x >>> (64 - n))

def round (s : State) : State :=
  let v0 := s.v0 + s.v1
  let v1 := rotateLeft s.v1 13 ^^^ v0
  let v0 := rotateLeft v0 32
  let v2 := s.v2 + s.v3
  let v3 := rotateLeft s.v3 16 ^^^ v2
  let v0 := v0 + v3
  let v3 := rotateLeft v3 21 ^^^ v0
  let v2 := v2 + v1
  let v1 := rotateLeft v1 17 ^^^ v2
  let v2 := rotateLeft v2 32
  { v0, v1, v2, v3 }

def absorb (s : State) (word : UInt64) : State :=
  let s := round { s with v3 := s.v3 ^^^ word }
  { s with v0 := s.v0 ^^^ word }

def word (bytes : List UInt8) : UInt64 :=
  bytes.foldr (fun byte rest => (rest <<< 8) ||| byte.toUInt64) 0

/-- Mixes all bytes in. The last word holds the bytes that are left over, and on top of
them the lowest byte of the length. -/
def absorbAll (length : Nat) (s : State) : List UInt8 → State
  | b0 :: b1 :: b2 :: b3 :: b4 :: b5 :: b6 :: b7 :: rest =>
    absorbAll length (absorb s (word [b0, b1, b2, b3, b4, b5, b6, b7])) rest
  | rest => absorb s (word rest ||| (UInt64.ofNat length <<< 56))

def hash (bytes : List UInt8) : UInt64 :=
  let s := absorbAll bytes.length start bytes
  let s := round (round (round { s with v2 := s.v2 ^^^ 0xff }))
  s.v0 ^^^ s.v1 ^^^ s.v2 ^^^ s.v3

def bytesOfWord (w : UInt64) : List UInt8 :=
  ([0, 8, 16, 24, 32, 40, 48, 56] : List UInt64).map fun n => (w >>> n).toUInt8

end MappedSql.SipHash
