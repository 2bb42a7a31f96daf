import SqlCompose.Json.Writing
import SqlCompose.Json.Reading

/-!
# Strings in JSON text

A string that has been written between quotation marks is read as itself, whatever its characters.
-/

namespace SqlCompose.Json

/-- The four digits of a control character are read as its number. -/
theorem hexPadded_control : ∀ n < 32,
    Text.hexPadded 4 n = ['0', '0', (n / 16).digitChar, (n % 16).digitChar] ∧
      hex4? '0' '0' (n / 16).digitChar (n % 16).digitChar = some n := by decide

/-- An escape of one character is read as what it stands for. -/
theorem readString?_unescape {c d : Char} (h : unescape? c = some d) (rest : List Char) :
    readString? ('\\' :: c :: rest) =
      (readString? rest).map fun (chars, rest) => (d :: chars, rest) := by
  have hu : c ≠ 'u' := by
    rintro rfl
    cases h
  rw [readString?]
  · rw [h]
    cases readString? rest <;> rfl
  · rintro _ _ _ _ _ rfl _
    exact hu rfl

/-- A control character is read from its digits. -/
theorem readString?_control {n : Nat} (h : n < 32) (rest : List Char) :
    readString? ('\\' :: 'u' :: Text.hexPadded 4 n ++ rest) =
      (readString? rest).map fun (chars, rest) => (Char.ofNat n :: chars, rest) := by
  obtain ⟨hdigits, hread⟩ := hexPadded_control n h
  rw [hdigits]
  simp only [List.cons_append, List.nil_append, readString?, hread]
  have hfirst : ¬(0xD800 ≤ n ∧ n < 0xDC00) := by omega
  have hsecond : ¬(0xDC00 ≤ n ∧ n < 0xE000) := by omega
  simp only [bind, Option.bind, hfirst, hsecond, if_false]
  cases readString? rest <;> rfl

/-- A character that needs no escape stands for itself. -/
theorem readString?_plain {c : Char} (hquote : c ≠ '"') (hslash : c ≠ '\\')
    (hcontrol : ¬c.toNat < 32) (rest : List Char) :
    readString? (c :: rest) = (readString? rest).map fun (chars, rest) => (c :: chars, rest) := by
  rw [readString?]
  · simp [hslash, hcontrol]
    cases readString? rest <;> rfl
  · exact hquote
  · rintro _ _ _ _ _ rfl
    exact absurd rfl hslash
  · rintro _ _ rfl
    exact absurd rfl hslash

/-- A character is escaped by one character, or as a control character, or not at all. -/
theorem escape_cases (c : Char) :
    (∃ d, escape c = ['\\', d] ∧ unescape? d = some c) ∨
      (c.toNat < 32 ∧ escape c = '\\' :: 'u' :: Text.hexPadded 4 c.toNat) ∨
      (c ≠ '"' ∧ c ≠ '\\' ∧ ¬c.toNat < 32) ∧ escape c = [c] := by
  have hnamed : ∀ {n : Nat} {d : Char}, c.toNat = n → d.toNat = n → c = d :=
    fun hc hd => Char.toNat_inj.mp (hc.trans hd.symm)
  by_cases hone : c ∈ ['"', '\\', '\n', '\r', '\t', '\x08', '\x0c']
  · left
    simp only [List.mem_cons, List.not_mem_nil, or_false] at hone
    rcases hone with rfl | rfl | rfl | rfl | rfl | rfl | rfl
    all_goals exact ⟨_, rfl, rfl⟩
  · right
    simp only [List.mem_cons, List.not_mem_nil, or_false, not_or] at hone
    have h8 : c.toNat ≠ 8 := fun h => hone.2.2.2.2.2.1 (hnamed h rfl)
    have h12 : c.toNat ≠ 12 := fun h => hone.2.2.2.2.2.2 (hnamed h rfl)
    unfold escape
    by_cases hcontrol : c.toNat < 32
    · left
      simp [hone, h8, h12, hcontrol]
    · right
      simp [hone, h8, h12, hcontrol]

/-- What has been written for a character is read as the character. -/
theorem readString?_escape (c : Char) (rest : List Char) :
    readString? (escape c ++ rest) =
      (readString? rest).map fun (chars, rest) => (c :: chars, rest) := by
  rcases escape_cases c with ⟨d, hescape, hd⟩ | ⟨hcontrol, hescape⟩ | ⟨hplain, hescape⟩
  · rw [hescape]
    exact readString?_unescape hd rest
  · rw [hescape, readString?_control hcontrol, Char.ofNat_toNat]
  · rw [hescape]
    exact readString?_plain hplain.1 hplain.2.1 hplain.2.2 rest

/-- A string that has been written is read as itself, up to its closing quotation mark. -/
theorem readString?_quoted (chars rest : List Char) :
    readString? (chars.flatMap escape ++ '"' :: rest) = some (chars, rest) := by
  induction chars with
  | nil => rw [List.flatMap_nil, List.nil_append, readString?]
  | cons c chars ih =>
    rw [List.flatMap_cons, List.append_assoc, readString?_escape, ih, Option.map_some]

end SqlCompose.Json
