import SqlCompose.Text.Utf8

/-!
# Texts and their bytes

Bytes are read as a text if and only if they are the bytes of that text (`decode_eq_ok`). The reader
goes byte by byte, so the proof follows one character: its first byte tells how many follow, and the
bounds on the second byte exclude the codes that have a shorter form or are no characters.
-/

namespace SqlCompose.Utf8

open String (utf8EncodeChar)

variable {index : Nat} {rest : List UInt8}

/-! ## Steps of the reader -/

/-- A byte below `0x80` is a character of its own. -/
theorem decodeFrom_ascii {byte : UInt8} (h : byte < 0x80) :
    decodeFrom index none (byte :: rest) =
      (decodeFrom (index + 1) none rest).map (Char.ofNat byte.toNat :: ·) := by
  rw [decodeFrom, if_pos h]
  cases decodeFrom (index + 1) none rest <;> rfl

/-- The first byte of a longer character opens it and says what may follow. -/
theorem decodeFrom_first {byte : UInt8} {p : Pending} (h : ¬byte < 0x80)
    (hp : Pending.ofFirst? index byte = some p) :
    decodeFrom index none (byte :: rest) = decodeFrom (index + 1) (some p) rest := by
  rw [decodeFrom, if_neg h, hp]

/-- The last continuation byte of a character completes it. -/
theorem decodeFrom_last {start code : Nat} {least greatest byte : UInt8} (hleast : least ≤ byte)
    (hgreatest : byte ≤ greatest) :
    decodeFrom index (some ⟨start, 0, least, greatest, code⟩) (byte :: rest) =
      (decodeFrom (index + 1) none rest).map
        (Char.ofNat (code * 64 + (byte.toNat - 0x80)) :: ·) := by
  have hbounds : ¬(byte < least ∨ greatest < byte) := by
    rw [not_or, UInt8.not_lt, UInt8.not_lt]
    exact ⟨hleast, hgreatest⟩
  rw [decodeFrom, if_neg hbounds]
  cases decodeFrom (index + 1) none rest <;> rfl

/-- A continuation byte that is not the last adds six bits and leaves the rest unrestricted. -/
theorem decodeFrom_next {start further code : Nat} {least greatest byte : UInt8}
    (hleast : least ≤ byte) (hgreatest : byte ≤ greatest) :
    decodeFrom index (some ⟨start, further + 1, least, greatest, code⟩) (byte :: rest) =
      decodeFrom (index + 1)
        (some ⟨start, further, 0x80, 0xBF, code * 64 + (byte.toNat - 0x80)⟩) rest := by
  have hbounds : ¬(byte < least ∨ greatest < byte) := by
    rw [not_or, UInt8.not_lt, UInt8.not_lt]
    exact ⟨hleast, hgreatest⟩
  rw [decodeFrom, if_neg hbounds]

/-- A character that is read to its end goes on with a byte within the bounds. -/
theorem exists_of_decodeFrom_pending {p : Pending} {bytes : List UInt8} {cs : List Char}
    (h : decodeFrom index (some p) bytes = .ok cs) :
    ∃ byte rest, bytes = byte :: rest ∧ p.least ≤ byte ∧ byte ≤ p.greatest := by
  cases bytes with
  | nil => cases h
  | cons byte rest =>
    rw [decodeFrom] at h
    split at h
    · cases h
    · rename_i hbounds
      exact ⟨byte, rest, rfl, UInt8.not_lt.mp fun h => hbounds (.inl h),
        UInt8.not_lt.mp fun h => hbounds (.inr h)⟩

/-! ## First bytes -/

/-- The least second byte of a character of three or four bytes. -/
def leastSecond (byte : Nat) : UInt8 :=
  if byte = 0xE0 then 0xA0 else if byte = 0xF0 then 0x90 else 0x80

/-- The greatest second byte of a character of three or four bytes. -/
def greatestSecond (byte : Nat) : UInt8 :=
  if byte = 0xED then 0x9F else if byte = 0xF4 then 0x8F else 0xBF

/-- Bytes `C2` to `DF` open a character of two bytes. -/
theorem ofFirst?_two {byte : UInt8} (hlow : 0xC2 ≤ byte.toNat) (hhigh : byte.toNat ≤ 0xDF) :
    Pending.ofFirst? index byte = some ⟨index, 0, 0x80, 0xBF, byte.toNat - 0xC0⟩ := by
  rw [Pending.ofFirst?, if_neg (UInt8.not_lt.mpr hlow), if_pos (UInt8.le_iff_toNat_le.mpr hhigh)]

/-- Bytes `E0` to `EF` open a character of three bytes. -/
theorem ofFirst?_three {byte : UInt8} (hlow : 0xE0 ≤ byte.toNat) (hhigh : byte.toNat ≤ 0xEF) :
    Pending.ofFirst? index byte =
      some ⟨index, 1, leastSecond byte.toNat, greatestSecond byte.toNat, byte.toNat - 0xE0⟩ := by
  have hne : byte.toNat ≠ 0xF0 ∧ byte.toNat ≠ 0xF4 := by omega
  rw [Pending.ofFirst?, if_neg (by rw [UInt8.lt_iff_toNat_lt]; simp; omega),
    if_neg (by rw [UInt8.le_iff_toNat_le]; simp; omega), if_pos (UInt8.le_iff_toNat_le.mpr hhigh)]
  simp [leastSecond, greatestSecond, ← UInt8.toNat_inj, hne]

/-- Bytes `F0` to `F4` open a character of four bytes. -/
theorem ofFirst?_four {byte : UInt8} (hlow : 0xF0 ≤ byte.toNat) (hhigh : byte.toNat ≤ 0xF4) :
    Pending.ofFirst? index byte =
      some ⟨index, 2, leastSecond byte.toNat, greatestSecond byte.toNat, byte.toNat - 0xF0⟩ := by
  have hne : byte.toNat ≠ 0xE0 ∧ byte.toNat ≠ 0xED := by omega
  rw [Pending.ofFirst?, if_neg (by rw [UInt8.lt_iff_toNat_lt]; simp; omega),
    if_neg (by rw [UInt8.le_iff_toNat_le]; simp; omega),
    if_neg (by rw [UInt8.le_iff_toNat_le]; simp; omega), if_pos (UInt8.le_iff_toNat_le.mpr hhigh)]
  simp [leastSecond, greatestSecond, ← UInt8.toNat_inj, hne]

/-- The second byte is bounded below more tightly after `E0` and `F0`, which would otherwise open an
overlong form. -/
theorem le_leastSecond_iff {n : Nat} {byte : UInt8} :
    leastSecond n ≤ byte ↔ 0x80 ≤ byte.toNat ∧ (n = 0xE0 → 0xA0 ≤ byte.toNat) ∧
      (n = 0xF0 → 0x90 ≤ byte.toNat) := by
  unfold leastSecond
  split
  · simp [UInt8.le_iff_toNat_le]; omega
  · split <;> simp [UInt8.le_iff_toNat_le] <;> omega

/-- The second byte is bounded above more tightly after `ED`, which could open a surrogate, and
after `F4`, which could open a code past the last. -/
theorem greatestSecond_le_iff {n : Nat} {byte : UInt8} :
    byte ≤ greatestSecond n ↔ byte.toNat ≤ 0xBF ∧ (n = 0xED → byte.toNat ≤ 0x9F) ∧
      (n = 0xF4 → byte.toNat ≤ 0x8F) := by
  unfold greatestSecond
  split
  · simp [UInt8.le_iff_toNat_le]; omega
  · split <;> simp [UInt8.le_iff_toNat_le] <;> omega

/-! ## Writing, then reading -/

/-- A number that fits a byte is the value of the byte made from it. -/
theorem toNat_ofNat_of_le {n : Nat} (h : n ≤ 0xFF) : (UInt8.ofNat n).toNat = n := by
  rw [UInt8.toNat_ofNat']
  omega

/-- A byte behind the first one carries six bits. -/
theorem toNat_tail (n : Nat) : (UInt8.ofNat (n % 64 + 128)).toNat = n % 64 + 128 :=
  toNat_ofNat_of_le (by omega)

/-- A byte made from six bits of a code is a continuation byte. -/
theorem tail_bounds (n : Nat) :
    0x80 ≤ UInt8.ofNat (n % 64 + 128) ∧ UInt8.ofNat (n % 64 + 128) ≤ 0xBF := by
  rw [UInt8.le_iff_toNat_le, UInt8.le_iff_toNat_le, toNat_tail]
  simp
  omega

/-- The bytes of one character are decoded as that character. -/
theorem decodeFrom_encodeChar (c : Char) :
    decodeFrom index none (utf8EncodeChar c ++ rest) =
      (decodeFrom (index + (utf8EncodeChar c).length) none rest).map (c :: ·) := by
  have hc : Char.ofNat c.val.toNat = c := Char.ofNat_toNat c
  fun_cases utf8EncodeChar c with
  | case1 code hone =>
    have hbyte : (UInt8.ofNat code).toNat = code := by rw [UInt8.toNat_ofNat']; omega
    rw [List.singleton_append, decodeFrom_ascii (by rw [UInt8.lt_iff_toNat_lt, hbyte]; simp; omega),
      hbyte, hc]
    rfl
  | case2 code hone htwo =>
    have hfirst : (UInt8.ofNat (code / 64 % 32 + 192)).toNat = code / 64 + 192 := by
      rw [toNat_ofNat_of_le] <;> omega
    have hcode : (code / 64 + 192 - 0xC0) * 64 + (code % 64 + 128 - 0x80) = code := by omega
    rw [List.cons_append, List.singleton_append,
      decodeFrom_first (by rw [UInt8.lt_iff_toNat_lt, hfirst]; simp)
        (ofFirst?_two (by omega) (by omega)),
      decodeFrom_last (tail_bounds _).1 (tail_bounds _).2, hfirst, toNat_tail, hcode, hc]
    rfl
  | case3 code hone htwo hthree =>
    have hfirst : (UInt8.ofNat (code / 4096 % 16 + 224)).toNat = code / 4096 + 224 := by
      rw [toNat_ofNat_of_le] <;> omega
    have hsecond : leastSecond (code / 4096 + 224) ≤ UInt8.ofNat (code / 64 % 64 + 128) ∧
        UInt8.ofNat (code / 64 % 64 + 128) ≤ greatestSecond (code / 4096 + 224) := by
      have hvalid : code.isValidChar := c.valid
      rw [le_leastSecond_iff, greatestSecond_le_iff, toNat_tail]
      unfold Nat.isValidChar at hvalid
      omega
    have hcode : ((code / 4096 + 224 - 0xE0) * 64 + (code / 64 % 64 + 128 - 0x80)) * 64 +
        (code % 64 + 128 - 0x80) = code := by omega
    rw [List.cons_append, List.cons_append, List.singleton_append,
      decodeFrom_first (by rw [UInt8.lt_iff_toNat_lt, hfirst]; simp)
        (ofFirst?_three (by omega) (by omega)), hfirst, decodeFrom_next hsecond.1 hsecond.2,
      decodeFrom_last (tail_bounds _).1 (tail_bounds _).2, toNat_tail, toNat_tail, hcode, hc]
    rfl
  | case4 code hone htwo hthree =>
    have hvalid : code.isValidChar := c.valid
    unfold Nat.isValidChar at hvalid
    have hfirst : (UInt8.ofNat (code / 262144 % 8 + 240)).toNat = code / 262144 + 240 := by
      rw [toNat_ofNat_of_le] <;> omega
    have hsecond : leastSecond (code / 262144 + 240) ≤ UInt8.ofNat (code / 4096 % 64 + 128) ∧
        UInt8.ofNat (code / 4096 % 64 + 128) ≤ greatestSecond (code / 262144 + 240) := by
      rw [le_leastSecond_iff, greatestSecond_le_iff, toNat_tail]
      omega
    have hcode : (((code / 262144 + 240 - 0xF0) * 64 + (code / 4096 % 64 + 128 - 0x80)) * 64 +
        (code / 64 % 64 + 128 - 0x80)) * 64 + (code % 64 + 128 - 0x80) = code := by omega
    rw [List.cons_append, List.cons_append, List.cons_append, List.singleton_append,
      decodeFrom_first (by rw [UInt8.lt_iff_toNat_lt, hfirst]; simp)
        (ofFirst?_four (by omega) (by omega)), hfirst, decodeFrom_next hsecond.1 hsecond.2,
      decodeFrom_next (tail_bounds _).1 (tail_bounds _).2,
      decodeFrom_last (tail_bounds _).1 (tail_bounds _).2, toNat_tail, toNat_tail, toNat_tail,
      hcode, hc]
    rfl

/-- The bytes of a text are decoded as that text, character by character. -/
theorem decodeFrom_flatMap (cs : List Char) :
    decodeFrom index none (cs.flatMap utf8EncodeChar) = .ok cs := by
  induction cs generalizing index with
  | nil => rfl
  | cons c cs ih =>
    rw [List.flatMap_cons, decodeFrom_encodeChar, ih]
    rfl

/-- Every text is read back from its own bytes. -/
@[simp]
theorem decode_encode (text : String) : decode (encode text) = .ok text := by
  unfold decode encode
  rw [decodeFrom_flatMap]
  exact congrArg Except.ok String.ofList_toList

/-! ## Reading, then writing -/

/-- A decoding that succeeds with a first character put in front succeeded without it. -/
theorem map_cons_eq_ok {c : Char} {x : Except Fault (List Char)} {cs : List Char}
    (h : x.map (c :: ·) = .ok cs) : ∃ cs', x = .ok cs' ∧ cs = c :: cs' := by
  cases x with
  | error fault => cases h
  | ok cs' => exact ⟨cs', rfl, (Except.ok.inj h).symm⟩

/-- A byte is made from its own value. -/
theorem ofNat_eq_of_toNat {n : Nat} (byte : UInt8) (h : byte.toNat = n) : UInt8.ofNat n = byte :=
  h ▸ UInt8.ofNat_toNat

/-- A code point in range is the value of its character. -/
theorem val_ofNat {n : Nat} (h : n.isValidChar) : (Char.ofNat n).val.toNat = n := by
  rw [Char.ofNat, dif_pos h]
  rfl

/-- A character below `0x80` is encoded as one byte. -/
theorem encodeChar_one {byte : UInt8} (h : byte.toNat < 0x80) :
    utf8EncodeChar (Char.ofNat byte.toNat) = [byte] := by
  rw [utf8EncodeChar, val_ofNat (.inl (by omega)), if_pos (by omega), UInt8.ofNat_toNat]

/-- Two bytes that a decoder accepts are the encoding of the character it makes of them. -/
theorem encodeChar_two {first second : UInt8} {n : Nat} (hlow : 0xC2 ≤ first.toNat)
    (hhigh : first.toNat < 0xE0) (hleast : 0x80 ≤ second.toNat) (hgreatest : second.toNat ≤ 0xBF)
    (hn : n = (first.toNat - 0xC0) * 64 + (second.toNat - 0x80)) :
    utf8EncodeChar (Char.ofNat n) = [first, second] := by
  rw [utf8EncodeChar, val_ofNat (.inl (by omega)), if_neg (by omega), if_pos (by omega),
    ofNat_eq_of_toNat first (by omega), ofNat_eq_of_toNat second (by omega)]

/-- Three bytes that a decoder accepts are the encoding of the character it makes of them; the
bounds on the second byte rule out overlong forms and surrogates. -/
theorem encodeChar_three {first second third : UInt8} {n : Nat} (hlow : 0xE0 ≤ first.toNat)
    (hhigh : first.toNat < 0xF0) (hleast : leastSecond first.toNat ≤ second)
    (hgreatest : second ≤ greatestSecond first.toNat) (hthird : 0x80 ≤ third.toNat)
    (hthird' : third.toNat ≤ 0xBF)
    (hn : n = ((first.toNat - 0xE0) * 64 + (second.toNat - 0x80)) * 64 + (third.toNat - 0x80)) :
    utf8EncodeChar (Char.ofNat n) = [first, second, third] := by
  rw [le_leastSecond_iff] at hleast
  rw [greatestSecond_le_iff] at hgreatest
  have hvalid : n.isValidChar := by
    unfold Nat.isValidChar
    omega
  rw [utf8EncodeChar, val_ofNat hvalid, if_neg (by omega), if_neg (by omega), if_pos (by omega),
    ofNat_eq_of_toNat first (by omega), ofNat_eq_of_toNat second (by omega),
    ofNat_eq_of_toNat third (by omega)]

/-- Four bytes that a decoder accepts are the encoding of the character it makes of them; the bounds
on the second byte rule out overlong forms and codes past the last. -/
theorem encodeChar_four {first second third fourth : UInt8} {n : Nat}
    (hlow : 0xF0 ≤ first.toNat) (hhigh : first.toNat < 0xF5)
    (hleast : leastSecond first.toNat ≤ second) (hgreatest : second ≤ greatestSecond first.toNat)
    (hthird : 0x80 ≤ third.toNat) (hthird' : third.toNat ≤ 0xBF) (hfourth : 0x80 ≤ fourth.toNat)
    (hfourth' : fourth.toNat ≤ 0xBF)
    (hn : n = (((first.toNat - 0xF0) * 64 + (second.toNat - 0x80)) * 64 + (third.toNat - 0x80)) *
      64 + (fourth.toNat - 0x80)) :
    utf8EncodeChar (Char.ofNat n) = [first, second, third, fourth] := by
  rw [le_leastSecond_iff] at hleast
  rw [greatestSecond_le_iff] at hgreatest
  have hvalid : n.isValidChar := by
    unfold Nat.isValidChar
    omega
  rw [utf8EncodeChar, val_ofNat hvalid, if_neg (by omega), if_neg (by omega), if_neg (by omega),
    ofNat_eq_of_toNat first (by omega), ofNat_eq_of_toNat second (by omega),
    ofNat_eq_of_toNat third (by omega), ofNat_eq_of_toNat fourth (by omega)]

/-- Continuation bytes, `C0`, `C1` and everything from `F5` on open no character. -/
theorem ofFirst?_eq_none {byte : UInt8}
    (hnone : byte.toNat < 0xC2 ∨ 0xF5 ≤ byte.toNat) (index : Nat) :
    Pending.ofFirst? index byte = none := by
  rw [Pending.ofFirst?]
  rcases hnone with hlow | hhigh
  · exact if_pos hlow
  · rw [if_neg (by rw [UInt8.lt_iff_toNat_lt]; simp; omega),
      if_neg (by rw [UInt8.le_iff_toNat_le]; simp; omega),
      if_neg (by rw [UInt8.le_iff_toNat_le]; simp; omega),
      if_neg (by rw [UInt8.le_iff_toNat_le]; simp; omega)]

/-- What is read starts with the bytes of its first character. -/
theorem exists_char {byte : UInt8} {cs : List Char}
    (h : decodeFrom index none (byte :: rest) = .ok cs) :
    ∃ c cs' rest' index', byte :: rest = utf8EncodeChar c ++ rest' ∧
      decodeFrom index' none rest' = .ok cs' ∧ cs = c :: cs' := by
  by_cases hone : byte < 0x80
  · rw [decodeFrom_ascii hone] at h
    obtain ⟨cs', hrest, rfl⟩ := map_cons_eq_ok h
    exact ⟨_, cs', rest, _, by rw [encodeChar_one hone]; rfl, hrest, rfl⟩
  by_cases hfirst : byte.toNat < 0xC2 ∨ 0xF5 ≤ byte.toNat
  · rw [decodeFrom, if_neg hone, ofFirst?_eq_none hfirst] at h
    cases h
  rcases Nat.lt_or_ge byte.toNat 0xE0 with htwo | htwo
  · rw [decodeFrom_first hone (ofFirst?_two (by omega) (by omega))] at h
    obtain ⟨second, rest, rfl, hleast, hgreatest⟩ := exists_of_decodeFrom_pending h
    rw [decodeFrom_last hleast hgreatest] at h
    obtain ⟨cs', hrest, rfl⟩ := map_cons_eq_ok h
    refine ⟨_, cs', rest, _, ?_, hrest, rfl⟩
    rw [encodeChar_two (by omega) htwo hleast hgreatest rfl]
    rfl
  rcases Nat.lt_or_ge byte.toNat 0xF0 with hthree | hthree
  · rw [decodeFrom_first hone (ofFirst?_three htwo (by omega))] at h
    obtain ⟨second, rest, rfl, hleast, hgreatest⟩ := exists_of_decodeFrom_pending h
    rw [decodeFrom_next hleast hgreatest] at h
    obtain ⟨third, rest, rfl, hthird, hthird'⟩ := exists_of_decodeFrom_pending h
    rw [decodeFrom_last hthird hthird'] at h
    obtain ⟨cs', hrest, rfl⟩ := map_cons_eq_ok h
    refine ⟨_, cs', rest, _, ?_, hrest, rfl⟩
    rw [encodeChar_three htwo hthree hleast hgreatest hthird hthird' rfl]
    rfl
  · rw [decodeFrom_first hone (ofFirst?_four hthree (by omega))] at h
    obtain ⟨second, rest, rfl, hleast, hgreatest⟩ := exists_of_decodeFrom_pending h
    rw [decodeFrom_next hleast hgreatest] at h
    obtain ⟨third, rest, rfl, hthird, hthird'⟩ := exists_of_decodeFrom_pending h
    rw [decodeFrom_next hthird hthird'] at h
    obtain ⟨fourth, rest, rfl, hfourth, hfourth'⟩ := exists_of_decodeFrom_pending h
    rw [decodeFrom_last hfourth hfourth'] at h
    obtain ⟨cs', hrest, rfl⟩ := map_cons_eq_ok h
    refine ⟨_, cs', rest, _, ?_, hrest, rfl⟩
    rw [encodeChar_four hthree (by omega) hleast hgreatest hthird hthird' hfourth hfourth' rfl]
    rfl

/-- What decodes to a text is the encoding of that text, so no text has two encodings. -/
theorem eq_flatMap_of_decodeFrom {bytes : List UInt8} {cs : List Char}
    (h : decodeFrom index none bytes = .ok cs) : bytes = cs.flatMap utf8EncodeChar := by
  induction cs generalizing index bytes with
  | nil =>
    cases bytes with
    | nil => rfl
    | cons byte rest =>
      obtain ⟨c, cs, rest', index', -, -, hcs⟩ := exists_char h
      cases hcs
  | cons c cs ih =>
    cases bytes with
    | nil => cases h
    | cons byte rest =>
      obtain ⟨c', cs', rest', index', hbytes, hrest, hcs⟩ := exists_char h
      obtain ⟨rfl, rfl⟩ := List.cons.inj hcs
      rw [hbytes, List.flatMap_cons, ih hrest]

/-- Bytes are read as a text if and only if they are the bytes of that text. -/
theorem decode_eq_ok {bytes : List UInt8} {text : String} :
    decode bytes = .ok text ↔ bytes = encode text := by
  constructor
  · intro h
    unfold decode at h
    cases hcs : decodeFrom 0 none bytes with
    | error fault =>
      rw [hcs] at h
      cases h
    | ok cs =>
      rw [hcs] at h
      obtain rfl := Except.ok.inj h
      rw [encode, String.toList_ofList]
      exact eq_flatMap_of_decodeFrom hcs
  · rintro rfl
    exact decode_encode text

end SqlCompose.Utf8
