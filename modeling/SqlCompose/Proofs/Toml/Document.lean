import SqlCompose.Proofs.Entity.Fields
import SqlCompose.Proofs.Text.Numeral
import SqlCompose.Proofs.Text.Replacing
import SqlCompose.Proofs.Toml.Quoted
import SqlCompose.Toml.Reading
import SqlCompose.Toml.Writing

/-!
# TOML documents read back

A list of tables that is written is read as these tables, whatever texts its strings are written as
(`readDocument?_writeTables`). A document is written line by line, and so it is read: every line
that is written comes with what it holds (`ReadsLine`), and the lines are added to the document one
after the other.
-/

namespace SqlCompose.Toml

/-! ## Numerals -/

/-- A text without underscores is one piece. -/
theorem splitOn_underscore {text : List Char} (h : '_' ∉ text) :
    Text.splitOn ['_'] text = [text] := by
  induction text with
  | nil => rfl
  | cons c text ih =>
    rw [List.mem_cons, not_or] at h
    rw [Text.splitOn_cons (by simp) (by simpa using h.1), ih h.2]
    rfl

/-- A numeral holds nothing but digits. -/
theorem decimal_ne {c : Char} (hc : Text.isDigit c = false) (n : Nat)
    (before after : List Char) : Text.decimal n ≠ before ++ c :: after := by
  intro heq
  have hmem : c ∈ Text.decimal n := heq ▸ by simp
  rw [Text.isDigit_of_mem_decimal hmem] at hc
  cases hc

/-- The digits of a number are a whole number as the reader wants it: no leading zero and no
underscore. -/
theorem readWhole?_decimal (n : Nat) : readWhole? (Text.decimal n) = some (Text.decimal n) := by
  have hgroup : ungroup? Text.isDigit (Text.decimal n) = some (Text.decimal n) := by
    have hmark : '_' ∉ Text.decimal n := fun hmem =>
      absurd (Text.isDigit_of_mem_decimal hmem) (by decide)
    rw [ungroup?, splitOn_underscore hmark]
    simpa [Text.decimal_ne_nil] using fun c => Text.isDigit_of_mem_decimal (n := n) (c := c)
  have hzero : ¬((Text.decimal n).head? = some '0' ∧ 1 < (Text.decimal n).length) := by
    rintro ⟨hhead, hlength⟩
    by_cases hn : n = 0
    · subst hn
      exact absurd hlength (by decide)
    · exact Text.head?_decimal hn hhead
  simp only [readWhole?, hgroup, bind, Option.bind, if_neg hzero]

/-- A number is written without a sign. -/
theorem splitSign_decimal (n : Nat) : splitSign (Text.decimal n) = (false, Text.decimal n) := by
  unfold splitSign
  split
  · rename_i heq
    exact absurd heq (decimal_ne (by decide) n [] _)
  · rename_i heq
    exact absurd heq (decimal_ne (by decide) n [] _)
  · rfl

/-- A number below `2 ^ 63` is read back from its digits. -/
theorem readInteger?_decimal {n : Nat} (h : n < 0x8000000000000000) :
    readInteger? (Text.decimal n) = some (n : Int) := by
  have hrange : inRange? (n : Int) = some (n : Int) := if_pos (by omega)
  unfold readInteger?
  split
  · rename_i heq
    exact absurd heq (decimal_ne (by decide) n ['0'] _)
  · rename_i heq
    exact absurd heq (decimal_ne (by decide) n ['0'] _)
  · rename_i heq
    exact absurd heq (decimal_ne (by decide) n ['0'] _)
  · simp only [splitSign_decimal, readWhole?_decimal, bind, Option.bind, Text.ofDigits_decimal]
    exact hrange

/-! ## Values -/

/-- What a value on a line is in a document. -/
def Scalar.toToml : Scalar → Toml
  | .string s => .string s
  | .natural n => .integer n
  | .boolean b => .boolean b

/-- Whether a value is in the range of a document. -/
def Scalar.Fits : Scalar → Prop
  | .natural n => n < 0x8000000000000000
  | _ => True

/-- Every string fits a document. -/
@[simp]
theorem Scalar.fits_string (s : String) : (Scalar.string s).Fits := trivial

/-- Both truth values fit a document. -/
@[simp]
theorem Scalar.fits_boolean (b : Bool) : (Scalar.boolean b).Fits := trivial

/-- Whether a text at the end of a line is read as a value. -/
structure ReadsValue (text : List Char) (value : Toml) : Prop where
  /-- It does not start with a blank. -/
  head : ∃ c tail, text = c :: tail ∧ isSpace c = false
  /-- It is read up to the line end. -/
  read (rest : List Char) :
    readValue? ((text ++ '\n' :: rest).length + 1) nestingLimit (text ++ '\n' :: rest) =
      some (value, '\n' :: rest)

/-- A value that starts with a quotation mark or an apostrophe is read as a string. -/
theorem readValue?_mark {mark : Char} (h : mark = '"' ∨ mark = apostrophe) (fuel depth : Nat)
    (rest : List Char) : readValue? (fuel + 1) depth (mark :: rest) =
      (readString? mark (mark :: rest)).map fun (s, rest) => (.string s, rest) := by
  rw [readValue?]
  · rw [if_pos h]
  · rintro rfl
    exact absurd h (by decide)
  · rintro rfl
    exact absurd h (by decide)

/-- A text that stands for a string is read as that string. -/
theorem readsValue_string {text s : List Char} (h : Spells text s) :
    ReadsValue text (.string (String.ofList s)) := by
  obtain ⟨mark, tail, rfl, hmark, hread⟩ := readString?_spells h
  have hline : ∀ rest : List Char, ('\n' :: rest).head? ≠ some mark := by
    rintro rest heq
    rw [← Option.some.inj heq] at hmark
    exact absurd hmark (by decide)
  refine ⟨⟨_, _, rfl, ?_⟩, fun rest => ?_⟩
  · rcases hmark with rfl | rfl <;> rfl
  · rw [List.cons_append, readValue?_mark hmark, ← List.cons_append, hread _ (hline rest),
      Option.map_some]

/-- A value that starts with a character of a word is read as a word. -/
theorem readValue?_word {c : Char} (h : isWordChar c = true) (fuel depth : Nat)
    (rest : List Char) : readValue? (fuel + 1) depth (c :: rest) = readWord? (c :: rest) := by
  have hmark : ¬(c = '"' ∨ c = apostrophe) := by
    rintro (rfl | rfl) <;> exact absurd h (by decide)
  rw [readValue?]
  · rw [if_neg hmark]
  · rintro rfl
    exact absurd h (by decide)
  · rintro rfl
    exact absurd h (by decide)

/-- A word ends with its line. -/
theorem splitWord_line {word : List Char} (h : ∀ c ∈ word, isWordChar c = true)
    (rest : List Char) : splitWord (word ++ '\n' :: rest) = (word, '\n' :: rest) := by
  have hend : ¬isWordChar '\n' = true := by decide
  unfold splitWord
  rw [List.takeWhile_append_of_pos h, List.dropWhile_append_of_pos h,
    List.takeWhile_cons_of_neg hend, List.dropWhile_cons_of_neg hend, List.append_nil]
  dsimp only
  split
  · rename_i heq
    exact absurd heq (by simp)
  · rfl

/-- A word that names a value is read as that value. -/
theorem readsValue_word {word : List Char} {value : Toml} (hne : word ≠ [])
    (h : ∀ c ∈ word, isWordChar c = true) (hvalue : ofWord? word = some value) :
    ReadsValue word value := by
  obtain ⟨c, tail, rfl⟩ := List.exists_cons_of_ne_nil hne
  have hc := h c List.mem_cons_self
  refine ⟨⟨c, tail, rfl, ?_⟩, fun rest => ?_⟩
  · cases hspace : isSpace c with
    | false => rfl
    | true =>
      rw [isSpace, Bool.or_eq_true, beq_iff_eq, beq_iff_eq] at hspace
      rcases hspace with rfl | rfl <;> exact absurd hc (by decide)
  · rw [List.cons_append, readValue?_word hc, ← List.cons_append, readWord?, splitWord_line h]
    simp only [hvalue, bind, Option.bind]

/-- The digits of a number below `2 ^ 63` are a word that names it. -/
theorem ofWord?_decimal {n : Nat} (h : n < 0x8000000000000000) :
    ofWord? (Text.decimal n) = some (.integer n) := by
  have htrue : Text.decimal n ≠ "true".toList :=
    decimal_ne (c := 't') (by decide) n [] ['r', 'u', 'e']
  have hfalse : Text.decimal n ≠ "false".toList :=
    decimal_ne (c := 'f') (by decide) n [] ['a', 'l', 's', 'e']
  rw [ofWord?, if_neg htrue, if_neg hfalse, readInteger?_decimal h]

/-- Digits may stand in a word. -/
theorem isWordChar_of_isDigit {c : Char} (h : Text.isDigit c = true) : isWordChar c = true := by
  simp [isWordChar, h]

/-- A value is read as itself. -/
theorem readsValue_write {quote : String → String}
    (hquote : ∀ s, Spells (quote s).toList s.toList) {value : Scalar} (h : value.Fits) :
    ReadsValue (value.write quote).toList value.toToml := by
  cases value with
  | string s =>
    have hread := readsValue_string (hquote s)
    rwa [String.ofList_toList] at hread
  | natural n =>
    rw [Scalar.write, String.toList_ofList]
    exact readsValue_word (Text.decimal_ne_nil n)
      (fun c hc => isWordChar_of_isDigit (Text.isDigit_of_mem_decimal hc)) (ofWord?_decimal h)
  | boolean b =>
    cases b with
    | true =>
      show ReadsValue "true".toList (.boolean true)
      exact readsValue_word (by decide) (by decide) rfl
    | false =>
      show ReadsValue "false".toList (.boolean false)
      exact readsValue_word (by decide) (by decide) rfl

/-- Two brackets are read as an array without items. -/
theorem readsValue_noItems : ReadsValue ['[', ']'] (.array []) :=
  ⟨⟨_, _, rfl, rfl⟩, fun _ => rfl⟩

/-! ## Keys -/

/-- Whether a key needs no quotation marks. -/
structure IsBareKey (key : String) : Prop where
  /-- It is not empty. -/
  ne_nil : key.toList ≠ []
  /-- It has no characters that need them. -/
  chars : ∀ c ∈ key.toList, isKeyChar c = true

/-- A character of a bare key differs from every character that may not stand in one. -/
theorem ne_of_isKeyChar {c d : Char} (hc : isKeyChar c = true) (hd : isKeyChar d = false) :
    c ≠ d := by
  rintro rfl
  rw [hc] at hd
  cases hd

section Key

variable {key : String} (hkey : IsBareKey key)

include hkey

/-- A bare key starts with a character of bare keys. -/
theorem IsBareKey.head : ∃ c tail, key.toList = c :: tail ∧ isKeyChar c = true := by
  obtain ⟨c, tail, htext⟩ := List.exists_cons_of_ne_nil hkey.ne_nil
  exact ⟨c, tail, htext, hkey.chars c (htext ▸ List.mem_cons_self)⟩

/-- A bare key does not start with space. -/
theorem IsBareKey.skipSpace (rest : List Char) :
    skipSpace (key.toList ++ rest) = key.toList ++ rest := by
  obtain ⟨c, tail, htext, hc⟩ := hkey.head
  have hspace : isSpace c = false := by
    simp [isSpace, ne_of_isKeyChar hc (by decide : isKeyChar ' ' = false),
      ne_of_isKeyChar hc (by decide : isKeyChar '\t' = false)]
  rw [htext, List.cons_append, Toml.skipSpace, List.dropWhile_cons_of_neg (by simp [hspace])]

/-- A bare key is read whole in front of a character that may not stand in it. -/
theorem IsBareKey.readKeyPart? {c : Char} (hc : isKeyChar c = false) (rest : List Char) :
    readKeyPart? (key.toList ++ c :: rest) = some (key, c :: rest) := by
  have hend : ¬isKeyChar c = true := by simp [hc]
  have htake : (key.toList ++ c :: rest).takeWhile isKeyChar = key.toList := by
    rw [List.takeWhile_append_of_pos hkey.chars, List.takeWhile_cons_of_neg hend, List.append_nil]
  have hdrop : (key.toList ++ c :: rest).dropWhile isKeyChar = c :: rest := by
    rw [List.dropWhile_append_of_pos hkey.chars, List.dropWhile_cons_of_neg hend]
  have hback : String.ofList key.toList = key := String.ofList_toList
  obtain ⟨k, tail, htext, hk⟩ := hkey.head
  have hmark : k ≠ '"' := ne_of_isKeyChar hk (by decide)
  have hapostrophe : k ≠ apostrophe := ne_of_isKeyChar hk (by decide)
  rw [htext, List.cons_append] at htake hdrop
  rw [htext] at hback
  rw [htext, List.cons_append, Toml.readKeyPart?, if_neg hmark, if_neg hapostrophe, if_pos hk,
    htake, hdrop, hback]

/-- A key is read up to the character that ends it, if no dot comes next. -/
theorem IsBareKey.readKey? (parts : Nat) {c : Char} (hc : isKeyChar c = false) {rest : List Char}
    (hdot : (Toml.skipSpace (c :: rest)).head? ≠ some '.') :
    readKey? (parts + 1) (key.toList ++ c :: rest) =
      some ([], key, Toml.skipSpace (c :: rest)) := by
  rw [Toml.readKey?, hkey.skipSpace, hkey.readKeyPart? hc]
  dsimp only [bind, Option.bind]
  split
  · rename_i heq
    exact absurd (congrArg List.head? heq) hdot
  · rfl

end Key

/-! ## Lines -/

/-- Whether a text is a line that holds something. -/
structure ReadsLine (text : List Char) (line : Line) : Prop where
  /-- There is a line. -/
  ne_nil : text ≠ []
  /-- It is read up to its end. -/
  read (rest : List Char) : readLine? (text ++ rest) = some (line, rest)

/-- An empty line holds nothing. -/
theorem readsLine_empty : ReadsLine ['\n'] .empty := ⟨by decide, fun _ => rfl⟩

section Lines

variable {key : String} (hkey : IsBareKey key)

include hkey

/-- A key in double brackets opens another element of an array of tables. -/
theorem readsLine_element :
    ReadsLine ('[' :: '[' :: (key.toList ++ [']', ']', '\n'])) (.element [] key) := by
  refine ⟨by simp, fun rest => ?_⟩
  have htext : '[' :: '[' :: (key.toList ++ [']', ']', '\n']) ++ rest =
      '[' :: '[' :: (key.toList ++ ']' :: ']' :: '\n' :: rest) := by simp
  have hread : readKey? nestingLimit (key.toList ++ ']' :: ']' :: '\n' :: rest) =
      some ([], key, ']' :: ']' :: '\n' :: rest) :=
    hkey.readKey? 78 (by decide) (by simp [skipSpace, isSpace])
  have hskip : skipSpace ('[' :: '[' :: (key.toList ++ ']' :: ']' :: '\n' :: rest)) =
      '[' :: '[' :: (key.toList ++ ']' :: ']' :: '\n' :: rest) := rfl
  rw [htext]
  simp only [readLine?, hskip, hread]
  rfl

/-- A line that starts with a key does not end in front of it. -/
theorem IsBareKey.endLine? (rest : List Char) : endLine? (key.toList ++ rest) = none := by
  obtain ⟨c, tail, htext, hc⟩ := hkey.head
  have hcomment : skipComment (c :: (tail ++ rest)) = c :: (tail ++ rest) := by
    unfold skipComment
    split
    · rename_i heq
      exact absurd (List.cons.inj heq).1 (ne_of_isKeyChar hc (by decide))
    · rfl
  rw [Toml.endLine?, hkey.skipSpace, htext, List.cons_append, hcomment]
  exact lineEnd?_cons (ne_of_isKeyChar hc (by decide)) (ne_of_isKeyChar hc (by decide)) _

/-- A key with its value. The key starts no header, and its line is not over in front of it. -/
theorem readsLine_pair {text : List Char} {value : Toml} (h : ReadsValue text value) :
    ReadsLine (key.toList ++ ' ' :: '=' :: ' ' :: (text ++ ['\n'])) (.pair [] key value) := by
  refine ⟨by simp, fun rest => ?_⟩
  have htext : key.toList ++ ' ' :: '=' :: ' ' :: (text ++ ['\n']) ++ rest =
      key.toList ++ ' ' :: '=' :: ' ' :: (text ++ '\n' :: rest) := by simp
  have hread : readKey? nestingLimit (key.toList ++ ' ' :: '=' :: ' ' :: (text ++ '\n' :: rest)) =
      some ([], key, '=' :: ' ' :: (text ++ '\n' :: rest)) :=
    hkey.readKey? 78 (by decide) (by simp [skipSpace, isSpace])
  have hvalue : skipSpace (' ' :: (text ++ '\n' :: rest)) = text ++ '\n' :: rest := by
    obtain ⟨c, tail, rfl, hc⟩ := h.head
    rw [List.cons_append, skipSpace, List.dropWhile_cons_of_pos rfl,
      List.dropWhile_cons_of_neg (by simp [hc])]
  have hhead : ∀ tail, key.toList ++ ' ' :: '=' :: ' ' :: (text ++ '\n' :: rest) ≠ '[' :: tail := by
    intro tail heq
    obtain ⟨c, chars, hchars, hc⟩ := hkey.head
    rw [hchars] at heq
    exact ne_of_isKeyChar hc (by decide) (List.cons.inj heq).1
  rw [htext, readLine?, hkey.skipSpace]
  split
  · exact absurd ‹_› (hhead _)
  · exact absurd ‹_› (hhead _)
  · rw [hkey.endLine?]
    simp only [hread, bind, Option.bind, readMark?, if_true, hvalue, h.read]
    rfl

end Lines

/-! ## Lines of a document -/

/-- Lines with what they hold are added one after the other. Each line takes one step of the fuel,
and the next one is read into the document that it gives. -/
theorem Draft.addLines?_flatMap {lines : List (List Char × Line)}
    (h : ∀ line ∈ lines, ReadsLine line.1 line.2) {fuel : Nat} (hfuel : lines.length ≤ fuel)
    (d : Draft) :
    d.addLines? fuel (lines.flatMap Prod.fst) = (lines.map Prod.snd).foldlM Draft.add? d := by
  induction lines generalizing d fuel with
  | nil => cases fuel <;> rfl
  | cons line lines ih =>
    obtain ⟨hline, hlines⟩ := List.forall_mem_cons.mp h
    obtain ⟨fuel, rfl⟩ := Nat.exists_eq_add_one.mpr (Nat.lt_of_lt_of_le (Nat.succ_pos _) hfuel)
    have hne : line.1 ++ lines.flatMap Prod.fst ≠ [] := by simp [hline.ne_nil]
    rw [List.flatMap_cons, Draft.addLines?, hline.read, List.map_cons, List.foldlM_cons]
    · simp only [bind, Option.bind]
      cases d.add? line.2 with
      | none => rfl
      | some d => exact ih hlines (Nat.le_of_succ_le_succ hfuel) d
    · exact hne

/-- No line is without characters, so there are no more lines than characters; the fuel of the
reader rests on this. -/
theorem length_le_flatMap {lines : List (List Char × Line)}
    (h : ∀ line ∈ lines, ReadsLine line.1 line.2) :
    lines.length ≤ (lines.flatMap Prod.fst).length := by
  induction lines with
  | nil => simp
  | cons line lines ih =>
    obtain ⟨hline, hlines⟩ := List.forall_mem_cons.mp h
    have hpos := List.length_pos_iff.mpr hline.ne_nil
    have hrest := ih hlines
    rw [List.length_cons, List.flatMap_cons, List.length_append]
    omega

section Tables

variable (quote : String → String) (key : String)

/-- A pair as a line. -/
def pairLine (pair : String × Scalar) : List Char × Line :=
  (pair.1.toList ++ ' ' :: '=' :: ' ' :: ((pair.2.write quote).toList ++ ['\n']),
    .pair [] pair.1 pair.2.toToml)

/-- A table as lines. -/
def tableLines (pairs : List (String × Scalar)) : List (List Char × Line) :=
  ('[' :: '[' :: (key.toList ++ [']', ']', '\n']), .element [] key) :: pairs.map (pairLine quote)

/-- A table behind another one as lines. -/
def furtherLines (pairs : List (String × Scalar)) : List (List Char × Line) :=
  (['\n'], .empty) :: tableLines quote key pairs

/-- Written pairs are one line for each pair. -/
theorem toList_writePairs (pairs : List (String × Scalar)) :
    (writePairs quote pairs).toList = (pairs.map (pairLine quote)).flatMap Prod.fst := by
  unfold writePairs
  induction pairs with
  | nil => rfl
  | cons pair pairs ih =>
    rw [List.map_cons, List.map_cons, List.flatMap_cons, ← ih]
    simp [pairLine]

/-- The text of a table. -/
def tableText (pairs : List (String × Scalar)) : String :=
  "[[" ++ key ++ "]]\n" ++ writePairs quote pairs

/-- The text of a table is its heading with one line for each pair. -/
theorem toList_tableText (pairs : List (String × Scalar)) :
    (tableText quote key pairs).toList = (tableLines quote key pairs).flatMap Prod.fst := by
  rw [tableText, String.toList_append, toList_writePairs, tableLines, List.flatMap_cons]
  simp

/-- Written tables are the lines of the first one and the further lines of each of the rest. -/
theorem toList_writeTables (pairs : List (String × Scalar))
    (tables : List (List (String × Scalar))) :
    (writeTables quote key (pairs :: tables)).toList =
      (tableLines quote key pairs ++ tables.flatMap (furtherLines quote key)).flatMap Prod.fst := by
  show ("\n".intercalate ((pairs :: tables).map (tableText quote key))).toList = _
  induction tables generalizing pairs with
  | nil => simp [toList_tableText]
  | cons next tables ih =>
    have hjoin : ("\n".intercalate
          ((pairs :: next :: tables).map (tableText quote key))).toList =
        (tableText quote key pairs).toList ++
          '\n' :: ("\n".intercalate ((next :: tables).map (tableText quote key))).toList := by
      simp
    rw [hjoin, ih next, toList_tableText]
    simp [furtherLines]

/-- Whether pairs are the members of a table. -/
structure IsTable (pairs : List (String × Scalar)) : Prop where
  /-- No key is there twice. -/
  nodup : (pairs.map Prod.fst).Nodup
  /-- No key needs quotation marks. -/
  keys : ∀ pair ∈ pairs, IsBareKey pair.1
  /-- All values are in range. -/
  values : ∀ pair ∈ pairs, pair.2.Fits

variable {quote key} (hquote : ∀ s, Spells (quote s).toList s.toList) (hkey : IsBareKey key)

include hquote hkey

/-- Each line of a table is read as what it holds. -/
theorem readsLine_of_mem_tableLines {pairs : List (String × Scalar)} (h : IsTable pairs) :
    ∀ line ∈ tableLines quote key pairs, ReadsLine line.1 line.2 := by
  intro line hline
  rcases List.mem_cons.mp hline with rfl | hline
  · exact readsLine_element hkey
  · obtain ⟨pair, hpair, rfl⟩ := List.mem_map.mp hline
    exact readsLine_pair (h.keys pair hpair) (readsValue_write hquote (h.values pair hpair))

/-- Each line of a document is read as what it holds. -/
theorem readsLine_of_mem {pairs : List (String × Scalar)} {tables : List (List (String × Scalar))}
    (h : ∀ pairs' ∈ pairs :: tables, IsTable pairs') :
    ∀ line ∈ tableLines quote key pairs ++ tables.flatMap (furtherLines quote key),
      ReadsLine line.1 line.2 := by
  obtain ⟨hpairs, htables⟩ := List.forall_mem_cons.mp h
  intro line hline
  rcases List.mem_append.mp hline with hline | hline
  · exact readsLine_of_mem_tableLines hquote hkey hpairs line hline
  · obtain ⟨next, hnext, hline⟩ := List.mem_flatMap.mp hline
    rcases List.mem_cons.mp hline with rfl | hline
    · exact readsLine_empty
    · exact readsLine_of_mem_tableLines hquote hkey (htables next hnext) line hline

end Tables

/-! ## Documents that grow -/

/-- The members of pairs in a document. -/
def membersOf (pairs : List (String × Scalar)) : Fields Toml :=
  Fields.ofList (pairs.map fun pair => (pair.1, pair.2.toToml))

/-- The table of pairs in a document. -/
def tableOf (pairs : List (String × Scalar)) : Toml := .table .declared (membersOf pairs)

/-- A document whose only member is an array of tables, the last one open. -/
def Draft.ofTables (key : String) (tables : List Toml) : Draft := ⟨[key], [(key, .tables tables)]⟩

/-- A pair under a new name joins the table that is open. -/
theorem Draft.add?_pair (key : String) (tables : List Toml) {members : Fields Toml} {name : String}
    (hnew : Fields.get? members name = none) (value : Toml) :
    (Draft.ofTables key (tables ++ [.table .declared members])).add? (.pair [] name value) =
      some (Draft.ofTables key
        (tables ++ [.table .declared (Fields.insert name value members)])) := by
  have hadd : addAt [] name value .declared members = some (Fields.insert name value members) := by
    simp [addAt, changeAt, addMember, hnew]
  simp [Draft.add?, Draft.ofTables, changeAt, Fields.get?, Fields.insert, hadd]

/-- The last pair of a table is the last one inserted. -/
theorem membersOf_append_singleton (pairs : List (String × Scalar)) (pair : String × Scalar) :
    membersOf (pairs ++ [pair]) = Fields.insert pair.1 pair.2.toToml (membersOf pairs) := by
  rw [membersOf, List.map_append, List.map_singleton, Fields.ofList_append_singleton]
  rfl

/-- One more pair is told apart by its key. -/
theorem nodup_append_singleton_iff {pairs : List (String × Scalar)} {last : String × Scalar} :
    ((pairs ++ [last]).map Prod.fst).Nodup ↔
      (pairs.map Prod.fst).Nodup ∧ last.1 ∉ pairs.map Prod.fst := by
  rw [List.map_append, List.map_singleton, ← List.concat_eq_append, List.nodup_concat, and_comm]

/-- A name that no pair has is not found. -/
theorem lookup_eq_none {pairs : List (String × Scalar)} {name : String}
    (h : name ∉ pairs.map Prod.fst) : pairs.lookup name = none := by
  refine List.lookup_eq_none_iff.mpr fun pair hpair => bne_iff_ne.mpr ?_
  rintro rfl
  exact h (List.mem_map_of_mem hpair)

/-- Under a key is the value of its pair. -/
theorem get?_membersOf {pairs : List (String × Scalar)} (h : (pairs.map Prod.fst).Nodup)
    (name : String) :
    Fields.get? (membersOf pairs) name = (pairs.lookup name).map Scalar.toToml := by
  induction pairs using List.reverseRecOn with
  | nil => rfl
  | append_singleton pairs last ih =>
    obtain ⟨hpairs, hnew⟩ := nodup_append_singleton_iff.mp h
    obtain ⟨key, value⟩ := last
    rw [membersOf_append_singleton, List.lookup_append]
    by_cases hname : name = key
    · subst hname
      rw [Fields.get?_insert_self, lookup_eq_none hnew, List.lookup_cons_self]
      rfl
    · have hother : [(key, value)].lookup name = none := lookup_eq_none (by simpa using hname)
      rw [Fields.get?_insert_of_ne _ _ hname, ih hpairs, hother, Option.or_none]

/-- Pairs under distinct names all join the table that is open. -/
theorem Draft.add?_pairs (key : String) (tables : List Toml) {pairs : List (String × Scalar)}
    (h : (pairs.map Prod.fst).Nodup) :
    (pairs.map fun pair => Line.pair [] pair.1 pair.2.toToml).foldlM Draft.add?
        (Draft.ofTables key (tables ++ [.table .declared []])) =
      some (Draft.ofTables key (tables ++ [tableOf pairs])) := by
  induction pairs using List.reverseRecOn with
  | nil => rfl
  | append_singleton pairs last ih =>
    obtain ⟨hpairs, hnew⟩ := nodup_append_singleton_iff.mp h
    have hfree : Fields.get? (membersOf pairs) last.1 = none := by
      rw [get?_membersOf hpairs, lookup_eq_none hnew, Option.map_none]
    rw [List.map_append, List.foldlM_append, ih hpairs, Option.bind_eq_bind, Option.bind_some,
      List.map_singleton, List.foldlM_cons, tableOf, Draft.add?_pair key tables hfree, tableOf,
      membersOf_append_singleton]
    rfl

section Growing

variable (quote : String → String)

/-- One more table is added by its lines. -/
theorem Draft.add?_tableLines {key : String} {d : Draft} {tables : List Toml}
    {pairs : List (String × Scalar)} (h : (pairs.map Prod.fst).Nodup)
    (helement : d.add? (.element [] key) =
      some (Draft.ofTables key (tables ++ [.table .declared []]))) :
    ((tableLines quote key pairs).map Prod.snd).foldlM Draft.add? d =
      some (Draft.ofTables key (tables ++ [tableOf pairs])) := by
  rw [tableLines, List.map_cons, List.foldlM_cons, helement, List.map_map]
  exact Draft.add?_pairs key tables h

/-- A new element of the array is an empty table behind the others. -/
theorem Draft.add?_element (key : String) (tables : List Toml) :
    (Draft.ofTables key tables).add? (.element [] key) =
      some (Draft.ofTables key (tables ++ [.table .declared []])) := by
  simp [Draft.add?, Draft.ofTables, declareElement, changeAt, Fields.get?, Fields.insert]

/-- The further lines of each table add that table to the array. -/
theorem Draft.add?_furtherLines (key : String) (items : List Toml)
    {tables : List (List (String × Scalar))}
    (h : ∀ pairs ∈ tables, (pairs.map Prod.fst).Nodup) :
    ((tables.flatMap (furtherLines quote key)).map Prod.snd).foldlM Draft.add?
        (Draft.ofTables key items) =
      some (Draft.ofTables key (items ++ tables.map tableOf)) := by
  induction tables generalizing items with
  | nil => simp
  | cons pairs tables ih =>
    obtain ⟨hpairs, htables⟩ := List.forall_mem_cons.mp h
    have htable : ((furtherLines quote key pairs).map Prod.snd).foldlM Draft.add?
        (Draft.ofTables key items) = some (Draft.ofTables key (items ++ [tableOf pairs])) :=
      Draft.add?_tableLines quote hpairs (Draft.add?_element key items)
    rw [List.flatMap_cons, List.map_append, List.foldlM_append, htable, Option.bind_eq_bind,
      Option.bind_some, ih _ htables, List.append_assoc, List.singleton_append, List.map_cons]

/-- The lines of a document build the array of its tables, from an empty draft on. -/
theorem Draft.add?_documentLines (key : String) {pairs : List (String × Scalar)}
    {tables : List (List (String × Scalar))}
    (h : ∀ pairs' ∈ pairs :: tables, (pairs'.map Prod.fst).Nodup) :
    ((tableLines quote key pairs ++ tables.flatMap (furtherLines quote key)).map
        Prod.snd).foldlM Draft.add? {} =
      some (Draft.ofTables key ((pairs :: tables).map tableOf)) := by
  obtain ⟨hpairs, htables⟩ := List.forall_mem_cons.mp h
  have helement : Draft.add? {} (.element [] key) =
      some (Draft.ofTables key ([] ++ [.table .declared []])) := rfl
  rw [List.map_append, List.foldlM_append, Draft.add?_tableLines quote hpairs helement,
    Option.bind_eq_bind, Option.bind_some, Draft.add?_furtherLines quote key _ htables]
  rfl

end Growing

/-! ## Documents -/

/-- The mark of the byte order. -/
def byteOrderMark : Char := Char.ofNat 0xFEFF

/-- A text without a byte order mark is left as it is. -/
theorem skipByteOrderMark_eq {text : List Char} (h : text.head? ≠ some byteOrderMark) :
    skipByteOrderMark text = text := by
  cases text with
  | nil => rfl
  | cons c text => exact if_neg fun heq => h (congrArg some heq)

/-- A document is read line by line. -/
theorem readDocument?_eq {text : String} {lines : List (List Char × Line)}
    (htext : text.toList = lines.flatMap Prod.fst)
    (hlines : ∀ line ∈ lines, ReadsLine line.1 line.2)
    (hmark : text.toList.head? ≠ some byteOrderMark) :
    readDocument? text = ((lines.map Prod.snd).foldlM Draft.add? {}).map Draft.members := by
  have hfuel := Nat.le_succ_of_le (length_le_flatMap hlines)
  rw [readDocument?, skipByteOrderMark_eq hmark, htext, Draft.addLines?_flatMap hlines hfuel]
  cases (lines.map Prod.snd).foldlM Draft.add? {} <;> rfl

/-- A document without tables is read as an empty array under its key. -/
theorem readDocument?_noTables {key : String} (hkey : IsBareKey key) :
    readDocument? (key ++ " = []\n") = some [(key, .array [])] := by
  have hline := readsLine_pair hkey readsValue_noItems
  have hmark : (key ++ " = []\n").toList.head? ≠ some byteOrderMark := by
    obtain ⟨c, tail, hchars, hc⟩ := hkey.head
    simpa [hchars] using ne_of_isKeyChar hc (by decide : isKeyChar byteOrderMark = false)
  have hlines : ∀ line ∈ [(key.toList ++ ' ' :: '=' :: ' ' :: (['[', ']'] ++ ['\n']),
      Line.pair [] key (.array []))], ReadsLine line.1 line.2 := by
    simpa using hline
  rw [readDocument?_eq (by simp) hlines hmark]
  rfl

/-- A list of tables is read as it was written. -/
theorem readDocument?_writeTables {quote : String → String} {key : String}
    {tables : List (List (String × Scalar))} (hquote : ∀ s, Spells (quote s).toList s.toList)
    (hkey : IsBareKey key) (h : ∀ pairs ∈ tables, IsTable pairs) :
    readDocument? (writeTables quote key tables) =
      some [(key, if tables.isEmpty then .array [] else .tables (tables.map tableOf))] := by
  cases tables with
  | nil => exact readDocument?_noTables hkey
  | cons pairs tables =>
    have htext := toList_writeTables quote key pairs tables
    have hmark : (writeTables quote key (pairs :: tables)).toList.head? ≠ some byteOrderMark := by
      rw [htext]
      exact fun heq => absurd (Option.some.inj heq) (by decide)
    rw [readDocument?_eq htext (readsLine_of_mem hquote hkey h) hmark,
      Draft.add?_documentLines quote key fun pairs' hpairs' => (h pairs' hpairs').nodup]
    rfl

end SqlCompose.Toml
