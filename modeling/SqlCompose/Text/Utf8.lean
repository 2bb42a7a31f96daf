/-!
# Texts as bytes

A character takes one to four bytes; the first one tells how many. `decode` reads byte by byte and
refuses the first byte that no text can have in its place, so a fault tells where the broken
character starts and how many of its bytes were still good.
-/

namespace SqlCompose.Utf8

/-! ## Writing -/

/-- The bytes of a text. -/
def encode (text : String) : List UInt8 := text.toList.flatMap String.utf8EncodeChar

/-! ## Reading -/

/-- Why bytes are no text. -/
inductive Fault where
  /-- A character that starts at an index goes on wrongly after a number of bytes. -/
  | invalid (index length : Nat)
  /-- The bytes end within a character that starts at an index. -/
  | incomplete (index : Nat)
deriving DecidableEq, Repr

/-- A fault in words. -/
def Fault.message : Fault → String
  | .invalid index length =>
    "invalid utf-8 sequence of " ++ toString length ++ " bytes from index " ++ toString index
  | .incomplete index => "incomplete utf-8 byte sequence from index " ++ toString index

/-- A character of which some bytes have been read. -/
structure Pending where
  /-- The index of its first byte. -/
  start : Nat
  /-- The number of bytes to come after the next one. -/
  further : Nat
  /-- The least byte that may come next. -/
  least : UInt8
  /-- The greatest byte that may come next. -/
  greatest : UInt8
  /-- The bits of the character so far. -/
  code : Nat

/-- A character that starts with a byte beyond the ASCII range. -/
def Pending.ofFirst? (index : Nat) (byte : UInt8) : Option Pending :=
  if byte < 0xC2 then none
  else if byte ≤ 0xDF then some ⟨index, 0, 0x80, 0xBF, byte.toNat - 0xC0⟩
  else if byte ≤ 0xEF then
    some ⟨index, 1, if byte = 0xE0 then 0xA0 else 0x80, if byte = 0xED then 0x9F else 0xBF,
      byte.toNat - 0xE0⟩
  else if byte ≤ 0xF4 then
    some ⟨index, 2, if byte = 0xF0 then 0x90 else 0x80, if byte = 0xF4 then 0x8F else 0xBF,
      byte.toNat - 0xF0⟩
  else none

/-- The characters of bytes that start at an index, within a character or between two. -/
def decodeFrom (index : Nat) : Option Pending → List UInt8 → Except Fault (List Char)
  | none, [] => .ok []
  | some p, [] => .error (.incomplete p.start)
  | none, byte :: rest =>
    if byte < 0x80 then do .ok (Char.ofNat byte.toNat :: (← decodeFrom (index + 1) none rest))
    else
      match Pending.ofFirst? index byte with
      | some p => decodeFrom (index + 1) (some p) rest
      | none => .error (.invalid index 1)
  | some p, byte :: rest =>
    if byte < p.least ∨ p.greatest < byte then .error (.invalid p.start (index - p.start))
    else
      let code := p.code * 64 + (byte.toNat - 0x80)
      match p.further with
      | 0 => do .ok (Char.ofNat code :: (← decodeFrom (index + 1) none rest))
      | further + 1 => decodeFrom (index + 1) (some ⟨p.start, further, 0x80, 0xBF, code⟩) rest

/-- The text of bytes. -/
def decode (bytes : List UInt8) : Except Fault String :=
  (decodeFrom 0 none bytes).map String.ofList

end SqlCompose.Utf8
