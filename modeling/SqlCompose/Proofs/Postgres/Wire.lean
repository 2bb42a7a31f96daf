import Mathlib.Algebra.Group.Nat.Defs
import Mathlib.Data.List.Induction
import SqlCompose.Postgres.Wire

/-!
# Numbers and their bytes

So many bytes spell the numbers below the range of the bytes, each in one way. A signed number has
bytes if it lies in the half of the range below zero or the half from zero on.
-/

namespace SqlCompose.Postgres

variable {width : Nat}

/-- Whether a signed number is in the range of so many bytes. -/
def FitsBytes (width : Nat) (n : Int) : Prop :=
  -(256 ^ width : Nat) ≤ 2 * n ∧ 2 * n < (256 ^ width : Nat)

/-! ## Numbers without a sign -/

/-- A number is written with as many bytes as it is given. -/
@[simp]
theorem length_bigEndian (width n : Nat) : (bigEndian width n).length = width := by
  induction width generalizing n with
  | zero => rfl
  | succ width ih => simp [bigEndian, ih]

/-- A last byte adds its value to the rest, moved up by one byte. -/
theorem ofBigEndian_append (bytes : List UInt8) (byte : UInt8) :
    ofBigEndian (bytes ++ [byte]) = ofBigEndian bytes * 256 + byte.toNat := by
  simp [ofBigEndian]

/-- Bytes hold less than their number allows. -/
theorem ofBigEndian_lt (bytes : List UInt8) : ofBigEndian bytes < 256 ^ bytes.length := by
  induction bytes using List.reverseRecOn with
  | nil => simp [ofBigEndian]
  | append_singleton bytes byte ih =>
    rw [ofBigEndian_append, List.length_append, List.length_singleton, Nat.pow_succ]
    have hbyte := byte.toNat_lt
    omega

/-- The lowest bytes of a number spell its remainder. -/
theorem ofBigEndian_bigEndian (width n : Nat) :
    ofBigEndian (bigEndian width n) = n % 256 ^ width := by
  induction width generalizing n with
  | zero => simp [bigEndian, ofBigEndian, Nat.mod_one]
  | succ width ih =>
    rw [bigEndian, ofBigEndian_append, ih, Nat.pow_succ, Nat.mul_comm (256 ^ width),
      Nat.mod_mul, UInt8.toNat_ofNat']
    omega

/-- Bytes are written again from the number that they hold. -/
theorem bigEndian_ofBigEndian (bytes : List UInt8) :
    bigEndian bytes.length (ofBigEndian bytes) = bytes := by
  induction bytes using List.reverseRecOn with
  | nil => rfl
  | append_singleton bytes byte ih =>
    have hbyte := byte.toNat_lt
    have hhigh : (ofBigEndian bytes * 256 + byte.toNat) / 256 = ofBigEndian bytes := by omega
    have hlow : UInt8.ofNat (ofBigEndian bytes * 256 + byte.toNat) = byte := by
      apply UInt8.toNat_inj.mp
      rw [UInt8.toNat_ofNat']
      omega
    rw [ofBigEndian_append, List.length_append, List.length_singleton, bigEndian, hhigh, hlow, ih]

/-- An unsigned number is read from the bytes it is written as, if it fits them. -/
theorem readNat?_eq_some {bytes : List UInt8} {n : Nat} :
    readNat? width bytes = some n ↔ n < 256 ^ width ∧ bytes = bigEndian width n := by
  unfold readNat?
  constructor
  · intro h
    split at h
    · rename_i hlength
      obtain rfl := Option.some.inj h
      subst hlength
      exact ⟨ofBigEndian_lt bytes, (bigEndian_ofBigEndian bytes).symm⟩
    · cases h
  · rintro ⟨hlt, rfl⟩
    rw [if_pos (length_bigEndian width n), ofBigEndian_bigEndian, Nat.mod_eq_of_lt hlt]

/-! ## Signed numbers -/

/-- The remainder by which a signed number travels. -/
theorem toNat_emod_of_fits {range : Nat} {n : Int} (hlow : -range ≤ 2 * n) (hhigh : 2 * n < range) :
    (n % range).toNat = if 0 ≤ n then n.toNat else (n + range).toNat := by
  split
  · rw [Int.emod_eq_of_lt (by omega) (by omega)]
  · rw [← Int.add_emod_right, Int.emod_eq_of_lt (by omega) (by omega)]

/-- Bytes are read as a signed number if they are the bytes of the number and it is in range. -/
theorem readInt?_eq_some {bytes : List UInt8} {n : Int} :
    readInt? width bytes = some n ↔ FitsBytes width n ∧ bytes = writeInt width n := by
  have hrange : Nat.pow 256 width = 256 ^ width := rfl
  have hpos : 0 < 256 ^ width := Nat.pow_pos (by decide)
  unfold readInt? writeInt FitsBytes
  simp only [bind, Option.bind_eq_some_iff, hrange, Option.some.injEq, readNat?_eq_some]
  generalize 256 ^ width = range at hpos ⊢
  constructor
  · rintro ⟨m, ⟨hlt, rfl⟩, rfl⟩
    have hfits : -(range : Int) ≤ 2 * (if 2 * m < range then (m : Int) else m - range) ∧
        2 * (if 2 * m < range then (m : Int) else m - range) < range := by
      split <;> omega
    refine ⟨hfits, ?_⟩
    rw [toNat_emod_of_fits hfits.1 hfits.2]
    congr 1
    split <;> split <;> omega
  · rintro ⟨⟨hlow, hhigh⟩, rfl⟩
    refine ⟨_, ⟨?_, rfl⟩, ?_⟩ <;> rw [toNat_emod_of_fits hlow hhigh]
    · split <;> omega
    · split <;> split <;> omega

end SqlCompose.Postgres
