/-!
# Numbers in bytes

A number travels as a fixed count of bytes, the most significant one first. A signed number goes as
its remainder modulo the range of the bytes.
-/

namespace SqlCompose.Postgres

/-- The lowest bytes of a number, the most significant one first. -/
def bigEndian : Nat → Nat → List UInt8
  | 0, _ => []
  | width + 1, n => bigEndian width (n / 256) ++ [UInt8.ofNat n]

/-- The number that bytes spell. -/
def ofBigEndian (bytes : List UInt8) : Nat := bytes.foldl (fun n byte => n * 256 + byte.toNat) 0

/-- The bytes of a signed number. -/
def writeInt (width : Nat) (n : Int) : List UInt8 := 
  bigEndian width (n % Nat.pow 256 width).toNat

/-- The number without a sign that all of the bytes spell. -/
def readNat? (width : Nat) (bytes : List UInt8) : Option Nat :=
  if bytes.length = width then some (ofBigEndian bytes) else none

/-- The signed number that all of the bytes spell. -/
def readInt? (width : Nat) (bytes : List UInt8) : Option Int := do
  let n ← readNat? width bytes
  some (if 2 * n < Nat.pow 256 width then n else (n : Int) - Nat.pow 256 width)

end SqlCompose.Postgres
