import SqlCompose.Dialect.Statement
import SqlCompose.Proofs.Dialect.Token

/-!
# Statements on rows read back

`RowStatement.ofSegments` reads the segments of a statement on a row: what it does to the row, the
table, and the columns that it sets or compares, each with the placeholder it is set to or compared with.
It knows the grammar of such statements and nothing of how they are written. All four statements on
rows are read back with the placeholders counted along their columns, a key that is compared coming
last (`Dialect.read_insert`, `Dialect.read_updateByKey`, `Dialect.read_selectByKey`,
`Dialect.read_deleteByKey`).
-/

namespace SqlCompose

/-- What a statement does to a row. -/
inductive RowAction where
  | insertion
  | selection
  | change
  | removal
deriving DecidableEq, Repr

/-- What is read of a statement on a row. -/
structure RowStatement where
  /-- What it does to the row. -/
  action : RowAction
  /-- The table. -/
  table : String
  /-- The columns that are set or compared, each with its placeholder, as they are read. -/
  bound : List (String × String)
  /-- The column of the new key that an insertion answers with. -/
  answer : Option String
deriving DecidableEq, Repr

/-! ## Reading -/

namespace RowStatement

/-- Read these characters. -/
def readChars : List Char → List Segment → Option (List Segment)
  | [], rest => some rest
  | c :: word, .char c' :: rest => if c = c' then readChars word rest else none
  | _ :: _, _ => none

/-- Read fixed text. -/
def readWord (word : String) (s : List Segment) : Option (List Segment) := readChars word.toList s

/-- Read an identifier. -/
def readName : List Segment → Option (String × List Segment)
  | .ident name :: rest => some (String.ofList name, rest)
  | _ => none

/-- Read a placeholder. -/
def readMark : List Segment → Option (String × List Segment)
  | .param mark :: rest => some (String.ofList mark, rest)
  | _ => none

/-- Read a column that is set to a placeholder, or compared with it. -/
def readPair (s : List Segment) : Option ((String × String) × List Segment) := do
  let (name, s) ← readName s
  let s ← readWord " = " s
  let (mark, s) ← readMark s
  some ((name, mark), s)

/-- Read items with commas between them, one at least and so many at most. -/
def readUpTo {α : Type} (item : List Segment → Option (α × List Segment)) :
    Nat → List Segment → Option (List α × List Segment)
  | 0, _ => none
  | n + 1, s => do
    let (a, s) ← item s
    match s with
    | .char ',' :: .char ' ' :: s => do
      let (as, s) ← readUpTo item n s
      some (a :: as, s)
    | s => some ([a], s)

/-- Read items with commas between them, of which there is one less. -/
def readItems {α : Type} (item : List Segment → Option (α × List Segment)) (s : List Segment) :
    Option (List α × List Segment) := readUpTo item (s.length + 1) s

/-- Read the columns of an insertion and their values, or that there are none. -/
def readValues (s : List Segment) : Option (List (String × String) × List Segment) :=
  match readWord " DEFAULT VALUES" s, readWord " () VALUES ()" s with
  | some rest, _ => some ([], rest)
  | none, some rest => some ([], rest)
  | none, none => do
    let s ← readWord " (" s
    let (names, s) ← readItems readName s
    let s ← readWord ") VALUES (" s
    let (marks, s) ← readItems readMark s
    let s ← readWord ")" s
    if names.length = marks.length then some (names.zip marks, s) else none

/-- Read to the end what an insertion answers with: the column between these two texts. -/
def readAnswerBetween (before after : String) (s : List Segment) : Option String := do
  let s ← readWord before s
  let (key, s) ← readName s
  match ← readWord after s with
  | [] => some key
  | _ => none

/-- Read to the end what an insertion answers with, if there is anything. -/
def readAnswer : List Segment → Option (Option String)
  | [] => some none
  | s =>
    match readAnswerBetween " RETURNING " "" s,
      readAnswerBetween "; SELECT CAST(SCOPE_IDENTITY() AS BIGINT) AS " ";" s,
      readAnswerBetween "; SELECT LAST_INSERT_ID() AS " ";" s with
    | some key, _, _ => some (some key)
    | none, some key, _ => some (some key)
    | none, none, some key => some (some key)
    | none, none, none => none

/-- Read an insertion. -/
def readInsertion (s : List Segment) : Option RowStatement := do
  let s ← readWord "INSERT INTO " s
  let (table, s) ← readName s
  let (bound, s) ← readValues s
  some ⟨.insertion, table, bound, ← readAnswer s⟩

/-- Read to the end the comparison of the key. -/
def readKey (s : List Segment) : Option (String × String) := do
  let s ← readWord " WHERE " s
  match ← readPair s with
  | (pair, []) => some pair
  | _ => none

/-- Read a change. -/
def readChange (s : List Segment) : Option RowStatement := do
  let s ← readWord "UPDATE " s
  let (table, s) ← readName s
  let s ← readWord " SET " s
  let (assigned, s) ← readItems readPair s
  some ⟨.change, table, assigned ++ [← readKey s], none⟩

/-- Read a statement that only has a key to compare. -/
def readByKey (action : RowAction) (command : String) (s : List Segment) : Option RowStatement := do
  let s ← readWord command s
  let (table, s) ← readName s
  some ⟨action, table, [← readKey s], none⟩

/-- Read a statement on a row. -/
def ofSegments (s : List Segment) : Option RowStatement :=
  match s with
  | .char 'I' :: _ => readInsertion s
  | .char 'U' :: _ => readChange s
  | .char 'S' :: _ => readByKey .selection "SELECT * FROM " s
  | .char 'D' :: _ => readByKey .removal "DELETE FROM " s
  | _ => none

end RowStatement

/-! ## What is read of tokens -/

namespace Dialect

open RowStatement

variable (d : Dialect)

/-- The segments of tokens that do not run together. -/
def segmentsOf (tokens : List Token) : List Segment := tokens.flatMap d.tokenSegments

@[simp] theorem segmentsOf_nil : d.segmentsOf [] = [] := rfl

@[simp] theorem segmentsOf_cons (t : Token) (tokens : List Token) :
    d.segmentsOf (t :: tokens) = d.tokenSegments t ++ d.segmentsOf tokens := rfl

/-- Tokens side by side are read one after the other. -/
@[simp] theorem segmentsOf_append (a b : List Token) :
    d.segmentsOf (a ++ b) = d.segmentsOf a ++ d.segmentsOf b := by
  simp [segmentsOf]

/-- Tokens that are readable are read from their text as their own segments. -/
theorem segments_write {tokens : List Token} (h : d.Readable tokens) :
    d.segments (d.write tokens) = d.segmentsOf tokens := by
  rw [segments, toList_write, d.segmentsFrom_chars h, segmentsOf]

/-- Fixed text is read where it was written. -/
@[simp] theorem readWord_word (word : String) (rest : List Segment) :
    readWord word (d.tokenSegments (.word word) ++ rest) = some rest := by
  show readChars word.toList (word.toList.map .char ++ rest) = some rest
  induction word.toList with
  | nil => rfl
  | cons c word ih => simpa [readChars] using ih

/-- A name is read where it was written. -/
@[simp] theorem readName_ident (name : String) (rest : List Segment) :
    readName (d.tokenSegments (.ident name) ++ rest) = some (name, rest) := by
  simp [tokenSegments, readName]

/-- A placeholder is read where it was written. -/
@[simp] theorem readMark_param (index : Nat) (rest : List Segment) :
    readMark (d.tokenSegments (.param index) ++ rest) = some (d.placeholder index, rest) := by
  simp [tokenSegments, readMark]

/-- A column and its placeholder are read where they were compared or set. -/
@[simp] theorem readPair_keyTokens (name : String) (index : Nat) (rest : List Segment) :
    readPair (d.segmentsOf (Statement.keyTokens name index) ++ rest) =
      some ((name, d.placeholder index), rest) := by
  simp [Statement.keyTokens, readPair]

section Items

variable {α β : Type} (layout : β → List Token)

/-- The first of several items is read in front of a comma. -/
theorem segmentsOf_commaSeparated_cons (b b' : β) (bs : List β) :
    d.segmentsOf (commaSeparated ((b :: b' :: bs).map layout)) =
      d.segmentsOf (layout b) ++
        .char ',' :: .char ' ' :: d.segmentsOf (commaSeparated ((b' :: bs).map layout)) := by
  simp [commaSeparated_cons_cons, tokenSegments, tokenText]

/-- There are at most as many items as there are segments, and one; the bound on the reader rests on
this. -/
theorem length_le_segmentsOf_commaSeparated (bs : List β) :
    bs.length ≤ (d.segmentsOf (commaSeparated (bs.map layout))).length + 1 := by
  induction bs with
  | nil => simp
  | cons b bs ih =>
    cases bs with
    | nil => simp
    | cons b' bs =>
      rw [segmentsOf_commaSeparated_cons]
      simp only [List.length_cons, List.length_append] at ih ⊢
      omega

variable {item : List Segment → Option (α × List Segment)} (view : β → α)
  (hitem : ∀ b rest, item (d.segmentsOf (layout b) ++ rest) = some (view b, rest))
  {bs : List β} (hne : bs ≠ []) {rest : List Segment} (hrest : rest.head? ≠ some (.char ','))
include hitem hne hrest

/-- Items with commas between them are all read, given that each of them is. -/
theorem readUpTo_commaSeparated {n : Nat} (hn : bs.length ≤ n) :
    readUpTo item n (d.segmentsOf (commaSeparated (bs.map layout)) ++ rest) =
      some (bs.map view, rest) := by
  induction bs generalizing n with
  | nil => exact absurd rfl hne
  | cons b bs ih =>
    obtain ⟨n, rfl⟩ : ∃ m, n = m + 1 := ⟨n - 1, by simp at hn; omega⟩
    cases bs with
    | nil =>
      rw [List.map_singleton, commaSeparated_singleton, readUpTo, hitem]
      rcases rest with _ | ⟨_ | _ | c, rest⟩
      · rfl
      · rfl
      · rfl
      · have hc : c ≠ ',' := by simpa using hrest
        simp [hc]
    | cons b' bs =>
      have hnext : readUpTo item n _ = _ := ih (by simp) (by simpa using hn)
      rw [segmentsOf_commaSeparated_cons, List.append_assoc, readUpTo, hitem]
      simp only [List.cons_append, Option.bind_eq_bind, Option.bind_some, hnext]
      rfl

/-- Items are read up to what is no comma. -/
theorem readItems_commaSeparated :
    readItems item (d.segmentsOf (commaSeparated (bs.map layout)) ++ rest) =
      some (bs.map view, rest) := by
  refine d.readUpTo_commaSeparated layout view hitem hne hrest ?_
  have hlength := d.length_le_segmentsOf_commaSeparated layout bs
  rw [List.length_append]
  omega

end Items

/-! ## Columns and their placeholders -/

/-- Columns with the placeholders that are counted along them, from an index on. -/
def boundFrom (start : Nat) (columns : List String) : List (String × String) :=
  (columns.zipIdx start).map fun (c, i) => (c, d.placeholder i)

/-- Assignments are comparisons of the columns with parameters counted along them. -/
theorem assignments_eq (start : Nat) (columns : List String) :
    Statement.assignments start columns =
      (columns.zipIdx start).map fun (c, i) => Statement.keyTokens c i := by
  induction columns generalizing start with
  | nil => rfl
  | cons c columns ih => simp [Statement.assignments, Statement.keyTokens, ih]

/-- Assignments are read as their columns and placeholders. -/
theorem readItems_assignments {columns : List String} (hne : columns ≠ []) (start : Nat)
    {rest : List Segment} (hrest : rest.head? ≠ some (.char ',')) :
    readItems readPair
        (d.segmentsOf (commaSeparated (Statement.assignments start columns)) ++ rest) =
      some (d.boundFrom start columns, rest) := by
  have hzip : columns.zipIdx start ≠ [] := by simpa using hne
  rw [assignments_eq]
  exact d.readItems_commaSeparated (fun (c, i) => Statement.keyTokens c i)
    (fun (c, i) => (c, d.placeholder i)) (fun (c, i) => d.readPair_keyTokens c i) hzip hrest

/-- A list of columns is read as those columns. -/
theorem readItems_columnList {columns : List String} (hne : columns ≠ []) {rest : List Segment}
    (hrest : rest.head? ≠ some (.char ',')) :
    readItems readName (d.segmentsOf (Statement.columnList columns) ++ rest) =
      some (columns, rest) := by
  have hname (c : String) (rest : List Segment) :
      readName (d.segmentsOf [.ident c] ++ rest) = some (id c, rest) := by simp
  have hread := d.readItems_commaSeparated (fun c => [Token.ident c]) id hname hne hrest
  rwa [List.map_id] at hread

/-- A list of parameters is read as their placeholders, counted from zero. -/
theorem readItems_parameters {count : Nat} (hne : count ≠ 0) {rest : List Segment}
    (hrest : rest.head? ≠ some (.char ',')) :
    readItems readMark
        (d.segmentsOf (commaSeparated ((Statement.parameters 0 count).map fun t => [t])) ++ rest) =
      some ((List.range count).map d.placeholder, rest) := by
  have hrange : List.range count ≠ [] := by simpa using hne
  have hmark (i : Nat) (rest : List Segment) :
      readMark (d.segmentsOf [.param i] ++ rest) = some (d.placeholder i, rest) := by simp
  have hread := d.readItems_commaSeparated (fun i => [Token.param i]) d.placeholder hmark hrange
    hrest
  simpa [Statement.parameters, List.map_map, Function.comp_def] using hread

/-! ## Statements are readable -/

/-- Readable groups stay readable with commas between them. -/
theorem readable_commaSeparated {groups : List (List Token)} (h : ∀ g ∈ groups, d.Readable g) :
    d.Readable (commaSeparated groups) := by
  induction groups with
  | nil => exact .nil
  | cons g groups ih =>
    obtain ⟨hg, hgroups⟩ := List.forall_mem_cons.mp h
    cases groups with
    | nil => simpa using hg
    | cons next groups =>
      have hrest : d.Readable (.word ", " :: commaSeparated (next :: groups)) :=
        (ih hgroups).cons_word (by decide) (by cases d <;> decide)
      rw [commaSeparated_cons_cons]
      exact hg.append_break hrest (by decide)

/-- Fixed text in front of a table is readable. -/
theorem readable_onTable {text : String} (hopen : (Token.word text).isOperand = false)
    (hclean : d.IsClean text.toList) (table : String) : d.Readable [.word text, .ident table] :=
  .cons_word hopen hclean (.singleton trivial)

/-- A list of columns is readable. -/
theorem readable_columnList (columns : List String) :
    d.Readable (Statement.columnList columns) := by
  refine d.readable_commaSeparated fun g hg => ?_
  obtain ⟨c, -, rfl⟩ := List.mem_map.mp hg
  exact .singleton trivial

/-- A list of parameters is readable. -/
theorem readable_parameters (count : Nat) :
    d.Readable (commaSeparated ((Statement.parameters 0 count).map fun t => [t])) := by
  refine d.readable_commaSeparated fun g hg => ?_
  obtain ⟨t, ht, rfl⟩ := List.mem_map.mp hg
  obtain ⟨i, -, rfl⟩ := List.mem_map.mp ht
  exact .singleton trivial

/-- A comparison with a parameter is readable. -/
theorem readable_keyTokens (key : String) (index : Nat) :
    d.Readable (Statement.keyTokens key index) := by
  have hequals : d.Readable [.word " = ", .param index] :=
    .cons_word (by decide) (by cases d <;> decide) (.singleton trivial)
  exact Readable.append_break (a := [.ident key]) (.singleton trivial) hequals (by decide)

/-- Assignments are readable. -/
theorem readable_assignments (start : Nat) (columns : List String) :
    d.Readable (commaSeparated (Statement.assignments start columns)) := by
  refine d.readable_commaSeparated fun g hg => ?_
  rw [assignments_eq] at hg
  obtain ⟨⟨c, i⟩, -, rfl⟩ := List.mem_map.mp hg
  exact d.readable_keyTokens c i

/-- What an insertion answers with is readable. -/
theorem readable_returning (key : String) : d.Readable (Statement.returning d key) := by
  cases d with
  | postgres => exact .cons_word (by decide) (by decide) (.singleton trivial)
  | sqlServer | sqlServerLegacy | mySql =>
    exact .cons_word (by decide) (by decide)
      (Readable.append_break (a := [.ident key]) (.singleton trivial) (.singleton (by decide))
        (by decide))

/-- What an insertion sets, behind its table. -/
def insertBody (columns : List String) : List Token :=
  if columns.isEmpty then [Statement.noColumns d]
  else
    [Token.word " ("] ++ Statement.columnList columns ++ [Token.word ") VALUES ("] ++
      commaSeparated ((Statement.parameters 0 columns.length).map fun t => [t]) ++ [.word ")"]

/-- What an insertion sets is readable. -/
theorem readable_insertBody (columns : List String) : d.Readable (d.insertBody columns) := by
  unfold insertBody
  split
  · cases d <;> exact .singleton (by decide)
  · have hclose : d.Readable (commaSeparated
        ((Statement.parameters 0 columns.length).map fun t => [t]) ++ [.word ")"]) :=
      (d.readable_parameters columns.length).append_break
        (.singleton (by cases d <;> decide)) (by decide)
    have hvalues : d.Readable (.word ") VALUES (" :: _) :=
      hclose.cons_word (by decide) (by cases d <;> decide)
    have hopen : d.Readable (.word " (" :: _) :=
      ((d.readable_columnList columns).append_break hvalues (by decide)).cons_word (by decide)
        (by cases d <;> decide)
    simpa using hopen

/-- What an insertion sets can stand behind anything. -/
theorem beginBroken_insertBody (columns : List String) :
    Token.BeginBroken (d.insertBody columns) := by
  unfold insertBody
  split
  · cases d <;> exact Token.beginBroken_cons (by decide) _
  · exact Token.beginBroken_cons (by decide) _

/-- An insertion is readable. -/
theorem readable_insertTokens (table : String) (columns : List String) (key : Option String) :
    d.Readable (Statement.insertTokens d table columns key) := by
  have hhead : d.Readable [.word "INSERT INTO ", .ident table] :=
    d.readable_onTable (by decide) (by cases d <;> decide) table
  have hbroken := d.beginBroken_insertBody columns
  have hbody := hhead.append (d.readable_insertBody columns) (.inr hbroken)
  cases key with
  | none => exact hbody.append .nil (.inr (by simp [Token.BeginBroken]))
  | some key =>
    refine hbody.append (d.readable_returning key) (.inr ?_)
    cases d <;> exact Token.beginBroken_cons (by decide) _

/-- A command on a table with a condition on the key behind it. -/
theorem readable_where {command : List Token} (h : d.Readable command) (key : String)
    (index : Nat) : d.Readable (command ++ .word " WHERE " :: Statement.keyTokens key index) :=
  h.append_break ((d.readable_keyTokens key index).cons_word (by decide) (by cases d <;> decide))
    (by decide)

/-- The selection of one key is readable. -/
theorem readable_selectByKey (table key : String) : d.Readable
    ([Token.word "SELECT * FROM ", .ident table] ++
      .word " WHERE " :: Statement.keyTokens key 0) :=
  d.readable_where (d.readable_onTable (by decide) (by cases d <;> decide) table) key 0

/-- The removal of one key is readable. -/
theorem readable_deleteByKey (table key : String) : d.Readable
    (Statement.deleteTokens table ++ .word " WHERE " :: Statement.keyTokens key 0) :=
  d.readable_where (d.readable_onTable (by decide) (by cases d <;> decide) table) key 0

/-- The part of an update in front of its condition is readable. -/
theorem readable_updateTokens (table : String) (columns : List String) :
    d.Readable (Statement.updateTokens table columns) := by
  have hset : d.Readable (.word " SET " :: commaSeparated (Statement.assignments 0 columns)) :=
    (d.readable_assignments 0 columns).cons_word (by decide) (by cases d <;> decide)
  have htable : d.Readable [.word "UPDATE ", .ident table] :=
    d.readable_onTable (by decide) (by cases d <;> decide) table
  simpa [Statement.updateTokens] using htable.append_break hset (by decide)

/-- A condition on a key is never left out. -/
theorem write_whereClause (command : List Token) (key : String) (index : Nat) :
    d.write command ++ Statement.whereClause (d.write (Statement.keyTokens key index)) =
      d.write (command ++ .word " WHERE " :: Statement.keyTokens key index) := by
  have hne : (d.write (Statement.keyTokens key index)).isEmpty = false := by
    rw [Bool.eq_false_iff, ne_eq, String.isEmpty_iff, ← String.toList_inj]
    simp [Statement.keyTokens, tokenText, quoteChars]
  rw [Statement.whereClause, hne, ← String.toList_inj]
  simp [tokenText]

/-! ## Statements are read back -/

/-- The condition on a key is read as the key and its placeholder. -/
theorem readKey_where (key : String) (index : Nat) :
    readKey (d.segmentsOf (.word " WHERE " :: Statement.keyTokens key index)) =
      some (key, d.placeholder index) := by
  have hpair := d.readPair_keyTokens key index []
  rw [List.append_nil] at hpair
  simp [readKey, hpair]

/-- What an insertion answers with is read as its key, if it has one. -/
theorem readAnswer_returning (key : Option String) :
    readAnswer (d.segmentsOf ((key.map (Statement.returning d)).getD [])) = some key := by
  cases key with
  | none => rfl
  | some key =>
    cases d <;> simp [Statement.returning, tokenSegments, tokenText, readAnswer,
      readAnswerBetween, readWord, readChars, readName]

/-- Columns with placeholders counted from zero, as a pair of lists. -/
theorem boundFrom_zero (columns : List String) :
    columns.zip ((List.range columns.length).map d.placeholder) = d.boundFrom 0 columns := by
  rw [boundFrom, List.zipIdx_eq_zip_range', ← List.range_eq_range', List.zip_map_right]
  rfl

/-- A list of columns begins with one. -/
theorem segmentsOf_columnList_cons (c : String) (columns : List String) :
    ∃ rest, d.segmentsOf (Statement.columnList (c :: columns)) = .ident c.toList :: rest := by
  cases columns with
  | nil => exact ⟨[], rfl⟩
  | cons c' columns =>
    simp [Statement.columnList, commaSeparated_cons_cons, tokenSegments]

/-- What an insertion sets is read as its columns, each with its own placeholder. -/
theorem readValues_insertBody (columns : List String) (rest : List Segment) :
    readValues (d.segmentsOf (d.insertBody columns) ++ rest) =
      some (d.boundFrom 0 columns, rest) := by
  cases columns with
  | nil =>
    cases d <;> simp [insertBody, Statement.noColumns, readValues, tokenSegments, tokenText,
      readWord, readChars, boundFrom]
  | cons c columns =>
    obtain ⟨tail, htail⟩ := d.segmentsOf_columnList_cons c columns
    have hdefault (s : List Segment) :
        readWord " DEFAULT VALUES" (d.tokenSegments (.word " (") ++ s) = none := by
      simp [readWord, readChars, tokenSegments, tokenText]
    have hempty (s : List Segment) : readWord " () VALUES ()" (d.tokenSegments (.word " (") ++
        (d.segmentsOf (Statement.columnList (c :: columns)) ++ s)) = none := by
      simp [readWord, readChars, tokenSegments, tokenText, htail]
    have hnames (s : List Segment) :
        readItems readName (d.segmentsOf (Statement.columnList (c :: columns)) ++
          (d.tokenSegments (.word ") VALUES (") ++ s)) = some (c :: columns, _) :=
      d.readItems_columnList (by simp) (by simp [tokenSegments, tokenText])
    have hmarks (s : List Segment) :
        readItems readMark (d.segmentsOf (commaSeparated
          ((Statement.parameters 0 (columns.length + 1)).map fun t => [t])) ++
            (d.tokenSegments (.word ")") ++ s)) =
          some ((List.range (columns.length + 1)).map d.placeholder, _) :=
      d.readItems_parameters (by simp) (by simp [tokenSegments, tokenText])
    have hzip := d.boundFrom_zero (c :: columns)
    simp only [insertBody, List.isEmpty_cons, Bool.false_eq_true, if_false, segmentsOf_append,
      segmentsOf_cons, segmentsOf_nil, List.append_assoc, List.nil_append, List.length_cons]
      at hzip ⊢
    rw [readValues, hdefault, hempty]
    simp [hnames, hmarks, hzip]

/-- An insertion is read as the columns that it sets, in their order. -/
theorem read_insert (table : String) (columns : List String) (key : Option String) :
    ofSegments (d.segments (Statement.insert d table columns key)) =
      some ⟨.insertion, table, d.boundFrom 0 columns, key⟩ := by
  rw [Statement.insert, d.segments_write (d.readable_insertTokens table columns key)]
  have htokens : Statement.insertTokens d table columns key =
      .word "INSERT INTO " :: .ident table ::
        (d.insertBody columns ++ (key.map (Statement.returning d)).getD []) := by
    simp [Statement.insertTokens, insertBody]
  have hread (s : List Segment) : ofSegments (d.tokenSegments (.word "INSERT INTO ") ++ s) =
      readInsertion (d.tokenSegments (.word "INSERT INTO ") ++ s) := by
    simp [ofSegments, tokenSegments, tokenText]
  rw [htokens, segmentsOf_cons, hread]
  simp [readInsertion, readValues_insertBody, readAnswer_returning]

/-- A change is read as the columns that it sets, in their order, and the key behind them. -/
theorem read_updateByKey (table : String) {columns : List String} (hne : columns ≠ [])
    (key : String) :
    ofSegments (d.segments (Statement.updateByKey d table columns key)) =
      some ⟨.change, table, d.boundFrom 0 (columns ++ [key]), none⟩ := by
  rw [Statement.updateByKey, Statement.updateWhere, write_whereClause,
    d.segments_write (d.readable_where (d.readable_updateTokens table columns) key _)]
  have htokens : Statement.updateTokens table columns ++ .word " WHERE " ::
      Statement.keyTokens key columns.length =
        .word "UPDATE " :: .ident table :: .word " SET " ::
          (commaSeparated (Statement.assignments 0 columns) ++ .word " WHERE " ::
            Statement.keyTokens key columns.length) := by
    simp [Statement.updateTokens]
  have hread (s : List Segment) : ofSegments (d.tokenSegments (.word "UPDATE ") ++ s) =
      readChange (d.tokenSegments (.word "UPDATE ") ++ s) := by
    simp [ofSegments, tokenSegments, tokenText]
  have hassigned : readItems readPair
      (d.segmentsOf (commaSeparated (Statement.assignments 0 columns)) ++
        d.segmentsOf (.word " WHERE " :: Statement.keyTokens key columns.length)) =
      some (d.boundFrom 0 columns, _) :=
    d.readItems_assignments hne 0 (by simp [tokenSegments, tokenText])
  have hbound : d.boundFrom 0 (columns ++ [key]) =
      d.boundFrom 0 columns ++ [(key, d.placeholder columns.length)] := by
    simp [boundFrom, List.zipIdx_append]
  rw [htokens, segmentsOf_cons, hread, segmentsOf_cons, segmentsOf_cons, segmentsOf_append, hbound]
  simp only [readChange, readWord_word, readName_ident, Option.bind_eq_bind, Option.bind_some,
    hassigned, readKey_where]

/-- What only has a key to compare is read as the comparison of this key. -/
theorem readByKey_where (action : RowAction) (command table key : String) :
    readByKey action command (d.segmentsOf ([Token.word command, .ident table] ++
      .word " WHERE " :: Statement.keyTokens key 0)) =
      some ⟨action, table, d.boundFrom 0 [key], none⟩ := by
  rw [segmentsOf_append, segmentsOf_cons, segmentsOf_cons, segmentsOf_nil, List.append_nil,
    List.append_assoc]
  simp only [readByKey, readWord_word, readName_ident, Option.bind_eq_bind, Option.bind_some,
    readKey_where]
  rfl

/-- The selection of one key is read back from its text. -/
theorem read_selectByKey (table key : String) :
    ofSegments (d.segments (Statement.selectByKey d table key)) =
      some ⟨.selection, table, d.boundFrom 0 [key], none⟩ := by
  have htokens : d.segments (Statement.selectByKey d table key) = d.segmentsOf
      ([Token.word "SELECT * FROM ", .ident table] ++
        .word " WHERE " :: Statement.keyTokens key 0) :=
    d.segments_write (d.readable_selectByKey table key)
  rw [htokens, ← d.readByKey_where .selection "SELECT * FROM " table key]
  simp [ofSegments, tokenSegments, tokenText]

/-- The removal of one key is read back from its text. -/
theorem read_deleteByKey (table key : String) :
    ofSegments (d.segments (Statement.deleteByKey d table key)) =
      some ⟨.removal, table, d.boundFrom 0 [key], none⟩ := by
  rw [Statement.deleteByKey, Statement.deleteWhere, write_whereClause,
    d.segments_write (d.readable_deleteByKey table key),
    ← d.readByKey_where .removal "DELETE FROM " table key]
  simp [ofSegments, Statement.deleteTokens, tokenSegments, tokenText]

/-! ## Their placeholders -/

/-- The placeholders in the text of readable tokens are those of its parameters, in order. -/
theorem placeholders_write {tokens : List Token} (h : d.Readable tokens) :
    d.placeholders (d.write tokens) = (indices tokens).map d.placeholder := by
  rw [placeholders, segments, toList_write, d.marks_chars h]
  simp

/-- Commas are no parameters. -/
theorem indices_commaSeparated (groups : List (List Token)) :
    indices (commaSeparated groups) = groups.flatMap indices :=
  filterMap_commaSeparated rfl groups

/-- A list of columns has no parameters. -/
theorem indices_columnList (columns : List String) :
    indices (Statement.columnList columns) = [] := by
  simp [Statement.columnList, indices_commaSeparated, Token.index?]

/-- A list of parameters counts from zero. -/
theorem indices_parameters (count : Nat) :
    indices (commaSeparated ((Statement.parameters 0 count).map fun t => [t])) =
      List.range count := by
  simp [Statement.parameters, indices_commaSeparated, List.flatMap_map, Token.index?]

/-- A comparison with a parameter has that one alone. -/
theorem indices_keyTokens (key : String) (index : Nat) :
    indices (Statement.keyTokens key index) = [index] := by
  simp [Statement.keyTokens, Token.index?]

/-- Assignments count their parameters along the columns. -/
theorem indices_assignments (start : Nat) (columns : List String) :
    indices (commaSeparated (Statement.assignments start columns)) =
      List.range' start columns.length := by
  simp [assignments_eq, indices_commaSeparated, List.flatMap_map, indices_keyTokens,
    ← List.map_eq_flatMap]

/-- What an insertion answers with has no parameters. -/
theorem indices_returning (key : Option String) :
    indices ((key.map (Statement.returning d)).getD []) = [] := by
  cases key with
  | none => rfl
  | some key => cases d <;> rfl

/-- An insertion has one placeholder for each column, in order. -/
theorem placeholders_insert (table : String) (columns : List String) (key : Option String) :
    d.placeholders (Statement.insert d table columns key) =
      (List.range columns.length).map d.placeholder := by
  rw [Statement.insert, d.placeholders_write (d.readable_insertTokens table columns key)]
  have hbody : indices (d.insertBody columns) = List.range columns.length := by
    unfold insertBody
    split
    next hempty => cases d <;> simp [List.isEmpty_iff.mp hempty, Statement.noColumns, Token.index?]
    · simp [indices_columnList, indices_parameters, Token.index?]
  have htokens : Statement.insertTokens d table columns key =
      [Token.word "INSERT INTO ", .ident table] ++
        (d.insertBody columns ++ (key.map (Statement.returning d)).getD []) := by
    simp [Statement.insertTokens, insertBody]
  rw [htokens, indices_append, indices_append, hbody, indices_returning]
  simp [Token.index?]

/-- An update has one placeholder for each column, in order, and the one of the key behind them. -/
theorem placeholders_updateByKey (table : String) (columns : List String) (key : String) :
    d.placeholders (Statement.updateByKey d table columns key) =
      (List.range (columns.length + 1)).map d.placeholder := by
  rw [Statement.updateByKey, Statement.updateWhere, write_whereClause,
    d.placeholders_write (d.readable_where (d.readable_updateTokens table columns) key _)]
  simp [Statement.updateTokens, Token.index?, indices_assignments, indices_keyTokens,
    List.range_succ, List.range_eq_range']

/-- The selection of one key has one placeholder. -/
theorem placeholders_selectByKey (table key : String) :
    d.placeholders (Statement.selectByKey d table key) = [d.placeholder 0] :=
  d.placeholders_write (d.readable_selectByKey table key)

/-- The removal of one key has one placeholder. -/
theorem placeholders_deleteByKey (table key : String) :
    d.placeholders (Statement.deleteByKey d table key) = [d.placeholder 0] := by
  rw [Statement.deleteByKey, Statement.deleteWhere, write_whereClause]
  exact d.placeholders_write (d.readable_deleteByKey table key)

end Dialect

end SqlCompose
