import MappedSql.Argument
import MappedSql.Hash.SipHash

/-!
# Cache keys

A cache key is a sequence of components with a hash, a checksum and a count that are kept
up to date with every component that is added. Two keys are equal when all of these are.
-/

namespace MappedSql

/-- One thing that a result depends on. Binary64 numbers are told apart by their bits. -/
inductive KeyComponent
  | null
  | int (value : Int64)
  | double (value : Double)
  | boolean (value : Bool)
  | text (value : String)
  | blob (value : List UInt8)
  deriving DecidableEq, Repr

namespace KeyComponent

/-- A count; one that is too large for a signed number becomes the largest one. -/
def ofNat (n : Nat) : KeyComponent :=
  .int (Int64.ofNat (min n (Nat.pow 2 63 - 1)))

def ofValue : Value → KeyComponent
  | .null => .null
  | .int n => .int n
  | .double d => .double d
  | .text s => .text s
  | .boolean b => .boolean b
  | .timestamp t => .text t.text
  | .json j => .text j.text
  | .blob bytes => .blob bytes

def ofArgument : Argument → KeyComponent
  | .null => .null
  | .value v => ofValue v
  | a => .text a.toJson.text

def display : KeyComponent → String
  | .null => "null"
  | .int n => toString n.toInt
  | .double d => NumberLayout.plain.write d
  | .boolean b => if b then "true" else "false"
  | .text s => s
  | .blob bytes => "<" ++ toString bytes.length ++ " bytes>"

/-- The bytes of a component that are hashed: its kind as a word, and then its content. -/
def encode : KeyComponent → List UInt8
  | .null => SipHash.bytesOfWord 0
  | .int n => SipHash.bytesOfWord 1 ++ SipHash.bytesOfWord n.toUInt64
  | .double d => SipHash.bytesOfWord 2 ++ SipHash.bytesOfWord d.bits
  | .boolean b => SipHash.bytesOfWord 3 ++ [if b then 1 else 0]
  | .text s => SipHash.bytesOfWord 4 ++ s.toUTF8.toList ++ [0xff]
  | .blob bytes =>
    SipHash.bytesOfWord 5 ++ SipHash.bytesOfWord (UInt64.ofNat bytes.length) ++ bytes

def hash (c : KeyComponent) : Int64 :=
  (SipHash.hash c.encode).toInt64

end KeyComponent

structure CacheKey where
  hashcode : Int64
  checksum : Int64
  count : Nat
  components : List KeyComponent
  deriving DecidableEq, Repr

namespace CacheKey

def empty : CacheKey where
  hashcode := 17
  checksum := 0
  count := 0
  components := []

/-- Adds a component whose hash is `base`. Its place in the sequence weighs in the hash of
the key, and not in the checksum. -/
def addHashed (k : CacheKey) (base : Int64) (c : KeyComponent) : CacheKey where
  hashcode := 37 * k.hashcode + base * Int64.ofNat (k.count + 1)
  checksum := k.checksum + base
  count := k.count + 1
  components := k.components ++ [c]

def add (k : CacheKey) (c : KeyComponent) : CacheKey :=
  k.addHashed c.hash c

def ofComponents (components : List KeyComponent) : CacheKey :=
  components.foldl add empty

/-- The bytes of a key that are hashed where keys are looked up by hash. -/
def encode (k : CacheKey) : List UInt8 :=
  SipHash.bytesOfWord k.hashcode.toUInt64

def display (k : CacheKey) : String :=
  String.intercalate ":"
    (toString k.hashcode.toInt :: toString k.checksum.toInt :: k.components.map (·.display))

end CacheKey

end MappedSql
