import SqlCompose.Proofs.Json.Form
import SqlCompose.Proofs.Json.Numeral
import SqlCompose.Proofs.Json.Quoted

/-!
# JSON that is written and read again

Writing a value and reading its text gives the value back, up to its numbers: every number becomes
what its own text is read as (`read?_write`). Integers come back. A floating-point number comes back
if and only if its own text is read as it, and so does every value that contains it
(`read?_write_eq_some`).
-/

namespace SqlCompose

/-- The floating-point number that a value is. -/
def Json.asFloat? : Json → Option Double
  | .number (.float x _) => some x
  | _ => none

/-- Whether a floating-point number comes back when it is written and read as JSON. -/
def Double.IsReread (x : Double) : Prop :=
  (Json.read? (x.write .json)).bind Json.asFloat? = some x

instance (x : Double) : Decidable x.IsReread :=
  inferInstanceAs (Decidable ((Json.read? (x.write .json)).bind Json.asFloat? = some x))

namespace Json

/-- An integer that fits a word is kept as an integer. -/
theorem ofInt_eq {n : Int} (h : isWord n = true) : ofInt n = .number (.int n h) := dif_pos h

/-- A finite number is kept as it is. -/
theorem ofDouble_eq {x : Double} (h : x.isFinite = true) : ofDouble x = .number (.float x h) :=
  dif_pos h

/-- A value is a floating-point number when it was made from a finite one. -/
theorem asFloat?_eq_some {j : Json} {x : Double} :
    j.asFloat? = some x ↔ x.isFinite = true ∧ j = ofDouble x := by
  constructor
  · intro h
    unfold asFloat? at h
    split at h
    · rename_i y hfinite
      obtain rfl := Option.some.inj h
      exact ⟨hfinite, (ofDouble_eq hfinite).symm⟩
    · cases h
  · rintro ⟨hfinite, rfl⟩
    rw [ofDouble_eq hfinite]
    rfl

/-! ## What becomes of a value -/

mutual

/-- A value whose numbers are read from their texts. -/
def reread : Json → Option Json
  | .number n => read? n.write
  | .array items => (rereadItems items).map .array
  | .object members => (rereadMembers members).map .object
  | j => some j

/-- Items whose numbers are read from their texts. -/
def rereadItems : List Json → Option (List Json)
  | [] => some []
  | item :: items => item.reread.bind fun back => (rereadItems items).map (back :: ·)

/-- Members whose numbers are read from their texts. -/
def rereadMembers : List (String × Json) → Option (List (String × Json))
  | [] => some []
  | (name, value) :: members =>
    value.reread.bind fun back => (rereadMembers members).map ((name, back) :: ·)

end

mutual

/-- The floating-point numbers in a value. -/
def floats : Json → List Double
  | .number (.float x _) => [x]
  | .array items => floatsOfItems items
  | .object members => floatsOfMembers members
  | _ => []

/-- The floating-point numbers in the items of an array. -/
def floatsOfItems : List Json → List Double
  | [] => []
  | item :: items => item.floats ++ floatsOfItems items

/-- The floating-point numbers in the members of an object. -/
def floatsOfMembers : List (String × Json) → List Double
  | [] => []
  | (_, value) :: members => value.floats ++ floatsOfMembers members

end

/-! ## Texts of values -/

/-- Text that starts with something other than space is left as it is. -/
theorem skipSpace_cons {c : Char} {text : List Char} (h : isSpace c = false) :
    skipSpace (c :: text) = c :: text := by simp [skipSpace, h]

/-- A comma is no space. -/
theorem skipSpace_comma (text : List Char) : skipSpace (',' :: text) = ',' :: text :=
  skipSpace_cons rfl

/-- The first character of a numeral. -/
theorem IsNumeral.head {text : List Char} (h : IsNumeral text) :
    ∃ c tail, text = c :: tail ∧ (c = '-' ∨ Text.isDigit c = true) := by
  cases h with
  | bare h =>
    obtain ⟨c, tail, rfl, hc⟩ := h.head
    exact ⟨c, tail, rfl, .inr hc⟩
  | minus => exact ⟨_, _, rfl, .inl rfl⟩

/-- What a numeral starts with is no space. -/
theorem isSpace_of_numeral {c : Char} (h : c = '-' ∨ Text.isDigit c = true) :
    isSpace c = false := by
  cases hspace : isSpace c with
  | false => rfl
  | true =>
    simp only [isSpace, Bool.or_eq_true, beq_iff_eq] at hspace
    rcases hspace with ((rfl | rfl) | rfl) | rfl <;> exact absurd h (by decide)

/-- A numeral is left to the reader of numbers. -/
theorem readValue?_numeral {text : List Char} (h : IsNumeral text) (fuel depth : Nat)
    (rest : List Char) :
    readValue? (fuel + 1) depth (text ++ rest) = readNumber? (text ++ rest) := by
  obtain ⟨c, tail, rfl, hc⟩ := h.head
  rw [List.cons_append, readValue?, skipSpace_cons (isSpace_of_numeral hc)]
  split
  case h_8 => rfl
  case h_1 heq => cases heq
  all_goals
    rename_i heq
    cases heq
    exact absurd hc (by decide)

/-- A number that has been written is read, whatever stands behind it. -/
theorem readValue?_number (n : Number) (fuel depth : Nat) {rest : List Char} (h : Closes rest) :
    readValue? (fuel + 1) depth (n.write.toList ++ rest) = (read? n.write).map (·, rest) := by
  obtain ⟨result, hresult⟩ := n.isNumeral_write.takes
  have hread : read? n.write = result := by
    have hend := hresult [] closes_nil
    have hnumeral := readValue?_numeral n.isNumeral_write (2 * n.write.toList.length + 1) 128 []
    rw [List.append_nil] at hend hnumeral
    simp only [read?, hnumeral, hend]
    cases result <;> rfl
  rw [readValue?_numeral n.isNumeral_write, hresult rest h, hread]

/-- Texts with commas between them. -/
def joined (texts : List String) : List Char := (",".intercalate texts).toList

theorem joined_singleton (text : String) : joined [text] = text.toList := by
  simp [joined]

/-- The first of several texts stands in front of a comma. -/
theorem joined_cons_cons (text next : String) (texts : List String) :
    joined (text :: next :: texts) = text.toList ++ ',' :: joined (next :: texts) := by
  simp [joined]

/-- A string is written as its escaped characters between quotation marks. -/
theorem toList_write_string (s : String) :
    (write (.string s)).toList = '"' :: (s.toList.flatMap escape ++ ['"']) := by
  simp [write, quote]

/-- An array is written as its items with commas between brackets. -/
theorem toList_write_array (items : List Json) :
    (write (.array items)).toList = '[' :: (joined (writeItems items) ++ [']']) := by
  simp [write, joined]

/-- An object is written as its members with commas between braces. -/
theorem toList_write_object (members : List (String × Json)) :
    (write (.object members)).toList = '{' :: (joined (writeMembers members) ++ ['}']) := by
  simp [write, joined]

/-- The first character of a value's text is no blank and closes nothing. -/
theorem write_head (j : Json) : ∃ c tail, j.write.toList = c :: tail ∧ isSpace c = false ∧
    c ≠ ']' := by
  cases j with
  | null => exact ⟨_, _, rfl, rfl, by decide⟩
  | bool b => cases b <;> exact ⟨_, _, rfl, rfl, by decide⟩
  | number n =>
    obtain ⟨c, tail, htext, hc⟩ := n.isNumeral_write.head
    refine ⟨c, tail, htext, isSpace_of_numeral hc, ?_⟩
    rintro rfl
    exact absurd hc (by decide)
  | string s => exact ⟨_, _, toList_write_string s, rfl, by decide⟩
  | array items => exact ⟨_, _, toList_write_array items, rfl, by decide⟩
  | object members => exact ⟨_, _, toList_write_object members, rfl, by decide⟩

/-! ## Reading what has been written -/

/-- Whether the text of a value is read as what becomes of the value, at a depth and in enough
steps, whatever stands behind the text. -/
def ReadsBack (depth : Nat) (j : Json) : Prop :=
  ∀ fuel rest, 2 * j.write.toList.length ≤ fuel → Closes rest →
    readValue? fuel depth (j.write.toList ++ rest) = j.reread.map (·, rest)

variable {depth fuel : Nat} {item value : Json}

/-- The last item is read in front of the closing bracket. -/
theorem readItems?_last (h : ReadsBack depth item) (hfuel : 2 * item.write.toList.length ≤ fuel)
    (rest : List Char) :
    readItems? (fuel + 1) depth (item.write.toList ++ ']' :: rest) =
      item.reread.map fun back => ([back], rest) := by
  rw [readItems?, h fuel _ hfuel (closes_cons (.inr (.inl rfl)))]
  cases item.reread <;> rfl

/-- An item is read in front of a comma and the other items. -/
theorem readItems?_more (h : ReadsBack depth item) (hfuel : 2 * item.write.toList.length ≤ fuel)
    (rest : List Char) :
    readItems? (fuel + 1) depth (item.write.toList ++ ',' :: rest) =
      item.reread.bind fun back =>
        (readItems? fuel depth rest).map fun (items, rest) => (back :: items, rest) := by
  rw [readItems?, h fuel _ hfuel (closes_cons (.inl rfl))]
  cases item.reread with
  | none => rfl
  | some back => simp [skipSpace_comma, Option.map_eq_bind]

/-- The text of the items of an array is read up to the closing bracket. -/
theorem readItems?_joined {items : List Json} (hne : items ≠ [])
    (h : ∀ item ∈ items, ReadsBack depth item) (rest : List Char)
    (hfuel : 2 * (joined (writeItems items)).length + 1 ≤ fuel) :
    readItems? fuel depth (joined (writeItems items) ++ ']' :: rest) =
      (rereadItems items).map (·, rest) := by
  induction items generalizing fuel with
  | nil => exact absurd rfl hne
  | cons item items ih =>
    obtain ⟨hitem, hitems⟩ := List.forall_mem_cons.mp h
    obtain ⟨fuel, rfl⟩ : ∃ n, fuel = n + 1 := ⟨fuel - 1, by omega⟩
    cases items with
    | nil =>
      rw [writeItems, writeItems, joined_singleton] at hfuel ⊢
      rw [readItems?_last hitem (by omega), rereadItems, rereadItems]
      cases item.reread <;> rfl
    | cons next items =>
      rw [writeItems, writeItems, joined_cons_cons, ← writeItems] at hfuel ⊢
      rw [List.length_append, List.length_cons] at hfuel
      rw [List.append_assoc, List.cons_append, readItems?_more hitem (by omega),
        ih (by simp) hitems (by omega), rereadItems.eq_2 item]
      simp [Option.map_eq_bind, Option.bind_assoc]

/-- The text of a member. -/
def memberText (name : String) (value : Json) : String := quote name ++ ":" ++ value.write

/-- A member is written as its name, a colon and its value. -/
theorem toList_memberText (name : String) (value : Json) : (memberText name value).toList =
    '"' :: (name.toList.flatMap escape ++ '"' :: ':' :: value.write.toList) := by
  simp [memberText, quote]

/-- The text of a value is no longer than that of its member. -/
theorem length_memberText (name : String) (value : Json) :
    value.write.toList.length ≤ (memberText name value).toList.length := by
  simp only [toList_memberText, List.length_cons, List.length_append]
  omega

/-- The last member is read in front of the closing brace. -/
theorem readMembers?_last (name : String) (h : ReadsBack depth value)
    (hfuel : 2 * value.write.toList.length ≤ fuel) (rest : List Char) :
    readMembers? (fuel + 1) depth ((memberText name value).toList ++ '}' :: rest) =
      value.reread.map fun back => ([(name, back)], rest) := by
  rw [toList_memberText, List.cons_append, List.append_assoc, List.cons_append, List.cons_append,
    readMembers?, skipSpace_cons rfl]
  simp only [readString?_quoted, bind, Option.bind_some]
  rw [skipSpace_cons rfl]
  simp only [h fuel _ hfuel (closes_cons (.inr (.inr rfl))), String.ofList_toList]
  cases value.reread <;> rfl

/-- A member is read in front of a comma and the other members. -/
theorem readMembers?_more (name : String) (h : ReadsBack depth value)
    (hfuel : 2 * value.write.toList.length ≤ fuel) (rest : List Char) :
    readMembers? (fuel + 1) depth ((memberText name value).toList ++ ',' :: rest) =
      value.reread.bind fun back =>
        (readMembers? fuel depth rest).map fun (members, rest) =>
          ((name, back) :: members, rest) := by
  rw [toList_memberText, List.cons_append, List.append_assoc, List.cons_append, List.cons_append,
    readMembers?, skipSpace_cons rfl]
  simp only [readString?_quoted, bind, Option.bind_some]
  rw [skipSpace_cons rfl]
  simp only [h fuel _ hfuel (closes_cons (.inl rfl)), String.ofList_toList]
  cases value.reread with
  | none => rfl
  | some back => simp [skipSpace_comma, Option.map_eq_bind]

/-- The text of the members of an object is read up to the closing brace. -/
theorem readMembers?_joined {members : List (String × Json)} (hne : members ≠ [])
    (h : ∀ member ∈ members, ReadsBack depth member.2) (rest : List Char)
    (hfuel : 2 * (joined (writeMembers members)).length + 1 ≤ fuel) :
    readMembers? fuel depth (joined (writeMembers members) ++ '}' :: rest) =
      (rereadMembers members).map (·, rest) := by
  induction members generalizing fuel with
  | nil => exact absurd rfl hne
  | cons member members ih =>
    obtain ⟨name, value⟩ := member
    obtain ⟨hvalue, hmembers⟩ := List.forall_mem_cons.mp h
    have hvalue : ReadsBack depth value := hvalue
    obtain ⟨fuel, rfl⟩ : ∃ n, fuel = n + 1 := ⟨fuel - 1, by omega⟩
    have hlength := length_memberText name value
    cases members with
    | nil =>
      rw [writeMembers, writeMembers, joined_singleton, ← memberText] at hfuel ⊢
      rw [readMembers?_last name hvalue (by omega), rereadMembers, rereadMembers]
      cases value.reread <;> rfl
    | cons next members =>
      obtain ⟨nextName, nextValue⟩ := next
      rw [writeMembers, writeMembers, joined_cons_cons, ← writeMembers, ← memberText] at hfuel ⊢
      rw [List.length_append, List.length_cons] at hfuel
      rw [List.append_assoc, List.cons_append, readMembers?_more name hvalue (by omega),
        ih (by simp) hmembers (by omega), rereadMembers.eq_2 name]
      simp [Option.map_eq_bind, Option.bind_assoc]

/-! ## Values -/

/-- Members keep their names, and with them their order. -/
theorem isSorted_of_rereadMembers {members back : List (String × Json)}
    (h : rereadMembers members = some back) (hsorted : Fields.IsSorted members) :
    Fields.IsSorted back := by
  have hnames : back.map Prod.fst = members.map Prod.fst := by
    induction members generalizing back with
    | nil =>
      obtain rfl := Option.some.inj h
      rfl
    | cons member members ih =>
      obtain ⟨_, -, h⟩ := Option.bind_eq_some_iff.mp h
      obtain ⟨others, hothers, rfl⟩ := Option.map_eq_some_iff.mp h
      rw [List.map_cons, List.map_cons, ih hothers (List.pairwise_cons.mp hsorted).2]
  unfold Fields.IsSorted at *
  rw [← List.pairwise_map (f := Prod.fst) (R := (· < ·))] at *
  rwa [hnames]

/-- The text of items starts with neither space nor a closing bracket. -/
theorem joined_items_head (item : Json) (items : List Json) : ∃ c tail,
    joined (writeItems (item :: items)) = c :: tail ∧ isSpace c = false ∧ c ≠ ']' := by
  obtain ⟨c, tail, htext, hc⟩ := item.write_head
  cases items with
  | nil =>
    rw [writeItems, writeItems, joined_singleton, htext]
    exact ⟨c, tail, rfl, hc⟩
  | cons next items =>
    rw [writeItems, writeItems, joined_cons_cons, htext]
    exact ⟨c, _, rfl, hc⟩

/-- The text of members starts with a quotation mark. -/
theorem joined_members_head (member : String × Json) (members : List (String × Json)) :
    ∃ tail, joined (writeMembers (member :: members)) = '"' :: tail := by
  obtain ⟨name, value⟩ := member
  cases members with
  | nil =>
    rw [writeMembers, writeMembers, joined_singleton, ← memberText, toList_memberText]
    exact ⟨_, rfl⟩
  | cons next members =>
    rw [writeMembers, writeMembers, joined_cons_cons, ← memberText, toList_memberText]
    exact ⟨_, rfl⟩

/-- An opening bracket in front of something else than a closing one is read as an array with
items. -/
theorem readValue?_items (hdepth : 1 < depth) {c : Char} {text : List Char}
    (hspace : isSpace c = false) (hclose : c ≠ ']') :
    readValue? (fuel + 1) depth ('[' :: c :: text) =
      (readItems? fuel (depth - 1) (c :: text)).map fun (items, rest) => (.array items, rest) := by
  rw [readValue?, skipSpace_cons rfl]
  simp [Nat.not_le.mpr hdepth, skipSpace_cons hspace, hclose, Option.map_eq_bind]

/-- An opening brace in front of a quotation mark is read as an object with members. -/
theorem readValue?_members (hdepth : 1 < depth) (text : List Char) :
    readValue? (fuel + 1) depth ('{' :: '"' :: text) =
      (readMembers? fuel (depth - 1) ('"' :: text)).map fun (members, rest) =>
        (ofMembers members, rest) := by
  have hspace : skipSpace ('"' :: text) = '"' :: text := skipSpace_cons rfl
  rw [readValue?, skipSpace_cons rfl]
  simp [Nat.not_le.mpr hdepth, hspace, Option.map_eq_bind]

/-- An array is read back, given that its items are one level deeper. -/
theorem readsBack_array {items : List Json} (hdepth : 1 < depth)
    (h : ∀ item ∈ items, ReadsBack (depth - 1) item) : ReadsBack depth (.array items) := by
  intro fuel rest hfuel _
  rw [toList_write_array] at hfuel ⊢
  rw [List.length_cons, List.length_append, List.length_singleton] at hfuel
  obtain ⟨fuel, rfl⟩ : ∃ n, fuel = n + 1 := ⟨fuel - 1, by omega⟩
  rw [List.cons_append, List.append_assoc, List.singleton_append]
  cases items with
  | nil =>
    have hclose : skipSpace (']' :: rest) = ']' :: rest := skipSpace_cons rfl
    rw [readValue?, skipSpace_cons rfl]
    simp [Nat.not_le.mpr hdepth, joined, writeItems, hclose, reread, rereadItems]
  | cons item items =>
    obtain ⟨c, tail, htext, hspace, hclose⟩ := joined_items_head item items
    have hread := readItems?_joined (by simp) h rest (show _ ≤ fuel by omega)
    rw [htext, List.cons_append] at hread ⊢
    rw [readValue?_items hdepth hspace hclose, hread, reread]
    cases rereadItems (item :: items) <;> rfl

/-- An object is read back, given that its members are one level deeper and stand in order. -/
theorem readsBack_object {members : List (String × Json)} (hdepth : 1 < depth)
    (hsorted : Fields.IsSorted members)
    (h : ∀ member ∈ members, ReadsBack (depth - 1) member.2) :
    ReadsBack depth (.object members) := by
  intro fuel rest hfuel _
  rw [toList_write_object] at hfuel ⊢
  rw [List.length_cons, List.length_append, List.length_singleton] at hfuel
  obtain ⟨fuel, rfl⟩ : ∃ n, fuel = n + 1 := ⟨fuel - 1, by omega⟩
  rw [List.cons_append, List.append_assoc, List.singleton_append]
  cases members with
  | nil =>
    have hclose : skipSpace ('}' :: rest) = '}' :: rest := skipSpace_cons rfl
    rw [readValue?, skipSpace_cons rfl]
    simp [Nat.not_le.mpr hdepth, joined, writeMembers, hclose, reread, rereadMembers]
  | cons member members =>
    obtain ⟨tail, htext⟩ := joined_members_head member members
    have hread := readMembers?_joined (by simp) h rest (show _ ≤ fuel by omega)
    rw [htext, List.cons_append] at hread ⊢
    rw [readValue?_members hdepth, hread, reread]
    cases hback : rereadMembers (member :: members) with
    | none => rfl
    | some back => simp [ofMembers, (isSorted_of_rereadMembers hback hsorted).ofList_eq]

/-- The text of every value that fits a depth is read as what becomes of the value. -/
theorem Fits.readsBack {j : Json} (h : j.Fits depth) : ReadsBack depth j := by
  induction h with
  | null =>
    intro fuel rest hfuel _
    obtain ⟨fuel, rfl⟩ : ∃ n, fuel = n + 1 := ⟨fuel - 1, by simp [write] at hfuel; omega⟩
    rw [write, readValue?]
    rfl
  | bool b =>
    intro fuel rest hfuel _
    obtain ⟨fuel, rfl⟩ : ∃ n, fuel = n + 1 :=
      ⟨fuel - 1, by cases b <;> simp [write] at hfuel <;> omega⟩
    cases b <;> rfl
  | number n =>
    intro fuel rest hfuel hrest
    obtain ⟨c, tail, htext, -⟩ := n.isNumeral_write.head
    obtain ⟨fuel, rfl⟩ : ∃ n, fuel = n + 1 := ⟨fuel - 1, by simp [write, htext] at hfuel; omega⟩
    exact readValue?_number n fuel _ hrest
  | string s =>
    intro fuel rest hfuel _
    rw [toList_write_string] at hfuel ⊢
    obtain ⟨fuel, rfl⟩ : ∃ n, fuel = n + 1 := ⟨fuel - 1, by simp at hfuel; omega⟩
    rw [List.cons_append, List.append_assoc, List.singleton_append, readValue?, skipSpace_cons rfl]
    simp [readString?_quoted, reread]
  | array hdepth _ ih => exact readsBack_array hdepth ih
  | object hdepth hsorted _ ih => exact readsBack_object hdepth hsorted ih

/-- A value that fits the depth of the reader is read from its text as what becomes of it. -/
theorem read?_write {j : Json} (h : j.Fits 128) : read? j.write = j.reread := by
  have hread := h.readsBack (2 * j.write.toList.length + 2) [] (by omega) closes_nil
  rw [List.append_nil] at hread
  simp only [read?, hread]
  cases j.reread <;> rfl

/-! ## Values that come back -/

/-- An integer comes back. -/
theorem read?_int (n : Int) (h : isWord n = true) :
    read? (Number.int n h).write = some (.number (.int n h)) := by
  have hnumber := readValue?_number (.int n h) 0 128 closes_nil
  rw [readValue?_numeral (Number.isNumeral_write _), Number.write, String.toList_ofList,
    readNumber?_signedDecimal h closes_nil, ofInt_eq h] at hnumber
  obtain ⟨j, hread, heq⟩ := Option.map_eq_some_iff.mp hnumber.symm
  rw [Number.write, hread, (Prod.mk.inj heq).1]

/-- A floating-point number comes back if its text is read as it. -/
theorem read?_float_eq_some {x : Double} (h : x.isFinite = true) :
    read? (Number.float x h).write = some (.number (.float x h)) ↔ x.IsReread := by
  simp [Double.IsReread, Option.bind_eq_some_iff, asFloat?_eq_some, h, ofDouble_eq h, Number.write]

mutual

/-- A value comes back if and only if all of its floating-point numbers do. -/
theorem reread_eq_some : (j : Json) → (j.reread = some j ↔ ∀ x ∈ j.floats, x.IsReread)
  | .null => by simp [reread, floats]
  | .bool b => by simp [reread, floats]
  | .number (.int n h) => by simp [reread, floats, read?_int]
  | .number (.float x h) => by simp [reread, floats, read?_float_eq_some]
  | .string s => by simp [reread, floats]
  | .array items => by simp [reread, floats, Option.map_eq_some_iff, rereadItems_eq_some items]
  | .object members => by
    simp [reread, floats, Option.map_eq_some_iff, rereadMembers_eq_some members]

/-- Items come back if and only if all floating-point numbers in them do. -/
theorem rereadItems_eq_some : (items : List Json) →
    (rereadItems items = some items ↔ ∀ x ∈ floatsOfItems items, x.IsReread)
  | [] => by simp [rereadItems, floatsOfItems]
  | item :: items => by
    simp [rereadItems, floatsOfItems, Option.bind_eq_some_iff, reread_eq_some item,
      rereadItems_eq_some items, or_imp, forall_and]

/-- Members come back if and only if all floating-point numbers in them do. -/
theorem rereadMembers_eq_some : (members : List (String × Json)) →
    (rereadMembers members = some members ↔ ∀ x ∈ floatsOfMembers members, x.IsReread)
  | [] => by simp [rereadMembers, floatsOfMembers]
  | (name, value) :: members => by
    simp [rereadMembers, floatsOfMembers, Option.bind_eq_some_iff, reread_eq_some value,
      rereadMembers_eq_some members, or_imp, forall_and]

end

/-- A value that has been read comes back from its own text if and only if all of its
floating-point numbers do. -/
theorem read?_write_eq_some {s : String} {j : Json} (h : read? s = some j) :
    read? j.write = some j ↔ ∀ x ∈ j.floats, x.IsReread := by
  rw [read?_write (fits_of_read? h), reread_eq_some]

end Json

end SqlCompose
