import SqlCompose.Proofs.Dialect.RowStatement

/-!
# Names that stay identifiers

A quoted name is read back up to its closing quote, whatever the name holds and whatever stands
behind it but another closing quote (`Dialect.readIdentifier_eq_some_iff`). So the names in a
statement on a table are its identifiers, and renaming them changes nothing else in it
(`TableStatement.segments_rename`): no name becomes a part of the command, and none reaches the
condition behind it (`Dialect.names_stay_identifiers`).
-/

namespace SqlCompose

/-! ## Reading an identifier -/

namespace Dialect

/-- Read up to the first closing quote that is not doubled; a doubled one stands for one. -/
def readQuoted (close : Char) : List Char → Option (List Char × List Char)
  | [] => none
  | [c] => if c = close then some ([], []) else none
  | c :: c' :: text =>
    if c ≠ close then (readQuoted close (c' :: text)).map fun (name, rest) => (c :: name, rest)
    else if c' = close then (readQuoted close text).map fun (name, rest) => (close :: name, rest)
    else some ([], c' :: text)

/-- Read an identifier in front of a text: the name that it denotes and what is left. -/
def readIdentifier (d : Dialect) : List Char → Option (String × List Char)
  | [] => none
  | c :: text =>
    if c = d.openQuote then
      (readQuoted d.closeQuote text).map fun (name, rest) => (String.ofList name, rest)
    else none

variable {close : Char}

/-- A closing quote that is not doubled ends an identifier. -/
theorem readQuoted_close {rest : List Char} (h : rest.head? ≠ some close) :
    readQuoted close (close :: rest) = some ([], rest) := by
  cases rest with
  | nil => simp [readQuoted]
  | cons c rest =>
    have hc : c ≠ close := by simpa using h
    simp [readQuoted, hc]

/-- A name with its closing quotes doubled is read back up to the quote behind it. -/
theorem readQuoted_doubling (name : List Char) {rest : List Char} (h : rest.head? ≠ some close) :
    readQuoted close (Text.doubling close name ++ close :: rest) = some (name, rest) := by
  induction name with
  | nil => exact readQuoted_close h
  | cons c name ih =>
    by_cases hc : c = close
    · subst hc
      have htext : Text.doubling c (c :: name) ++ c :: rest =
          c :: c :: (Text.doubling c name ++ c :: rest) := by simp [Text.doubling]
      rw [htext, readQuoted, if_neg (by simp), if_pos rfl, ih]
      rfl
    · have htext : Text.doubling close (c :: name) ++ close :: rest =
          c :: (Text.doubling close name ++ close :: rest) := by simp [Text.doubling, hc]
      obtain ⟨c', text, hnext⟩ : ∃ c' text, Text.doubling close name ++ close :: rest = c' :: text :=
        List.exists_cons_of_ne_nil (by simp)
      rw [htext, hnext, readQuoted, if_pos hc, ← hnext, ih]
      rfl

/-- What is read up to a closing quote is a name with its closing quotes doubled. -/
theorem of_readQuoted_eq_some {text name rest : List Char}
    (h : readQuoted close text = some (name, rest)) :
    text = Text.doubling close name ++ close :: rest ∧ rest.head? ≠ some close := by
  fun_induction readQuoted close text generalizing name rest with
  | case1 => cases h
  | case2 =>
    obtain ⟨rfl, rfl⟩ := Prod.mk.inj (Option.some.inj h)
    simp [Text.doubling]
  | case3 => cases h
  | case4 c c' text hc ih =>
    obtain ⟨⟨name', rest'⟩, hread, heq⟩ := Option.map_eq_some_iff.mp h
    obtain ⟨rfl, rfl⟩ := Prod.mk.inj heq
    obtain ⟨htext, hrest⟩ := ih hread
    exact ⟨by simp [htext, Text.doubling, hc], hrest⟩
  | case5 c' text hc ih =>
    obtain ⟨⟨name', rest'⟩, hread, heq⟩ := Option.map_eq_some_iff.mp h
    obtain ⟨rfl, rfl⟩ := Prod.mk.inj heq
    obtain ⟨htext, hrest⟩ := ih hread
    exact ⟨by simp_all [Text.doubling], hrest⟩
  | case6 c c' text hc hc' =>
    obtain ⟨rfl, rfl⟩ := Prod.mk.inj (Option.some.inj h)
    exact ⟨by simp_all [Text.doubling], by simpa using hc'⟩

variable {d : Dialect}

/-- An identifier is read exactly where a quoted name stands that no closing quote follows. -/
theorem readIdentifier_eq_some_iff {text rest : List Char} {name : String} :
    d.readIdentifier text = some (name, rest) ↔
      text = (d.quote name).toList ++ rest ∧ rest.head? ≠ some d.closeQuote := by
  constructor
  · intro h
    cases text with
    | nil => cases h
    | cons c text =>
      by_cases hc : c = d.openQuote
      · rw [readIdentifier, if_pos hc] at h
        obtain ⟨⟨chars, rest'⟩, hread, heq⟩ := Option.map_eq_some_iff.mp h
        obtain ⟨rfl, rfl⟩ := Prod.mk.inj heq
        obtain ⟨htext, hrest⟩ := of_readQuoted_eq_some hread
        exact ⟨by simp [quoteChars, hc, htext], hrest⟩
      · rw [readIdentifier, if_neg hc] at h
        cases h
  · rintro ⟨rfl, hrest⟩
    simp [readIdentifier, quoteChars, readQuoted_doubling name.toList hrest]

example : Dialect.sqlServer.readIdentifier "[]] = 1; --]] = @p0".toList = none := by decide

example : Dialect.sqlServer.readIdentifier "[]]; --]]] = @p0".toList =
    some ("]; --]", " = @p0".toList) := by decide

/-- Where an identifier is read, the segments of the text begin with it. -/
theorem segmentsFrom_of_readIdentifier {text rest : List Char} {name : String}
    (h : d.readIdentifier text = some (name, rest)) :
    d.segmentsFrom .outside text = .ident name.toList :: d.segmentsFrom .outside rest := by
  obtain ⟨rfl, hrest⟩ := readIdentifier_eq_some_iff.mp h
  rw [toList_quote]
  exact d.segmentsFrom_quoteChars name.toList hrest

/-- The segments of readable tokens and those of what stands behind them. -/
theorem segments_write_append {tokens : List Token} (h : d.Readable tokens) {text : String}
    (htext : Token.EndOpen tokens ∨ d.Breaks text.toList) :
    d.segments (d.write tokens ++ text) = d.segmentsOf tokens ++ d.segments text := by
  rw [segments, String.toList_append, toList_write, d.segmentsFrom_chars_append h htext]
  rfl

end Dialect

/-! ## Statements on a table -/

/-- A statement on a table, as the names that it is made of and the condition of the caller. -/
inductive TableStatement where
  | insert (table : String) (columns : List String) (generatedKey : Option String)
  | selectByKey (table key : String)
  | updateByKey (table : String) (columns : List String) (key : String)
  | updateWhere (table : String) (columns : List String) (filter : String)
  | deleteByKey (table key : String)
  | deleteWhere (table filter : String)
deriving DecidableEq, Repr

namespace TableStatement

/-- The text of a statement. -/
def text (d : Dialect) : TableStatement → String
  | insert table columns key => Statement.insert d table columns key
  | selectByKey table key => Statement.selectByKey d table key
  | updateByKey table columns key => Statement.updateByKey d table columns key
  | updateWhere table columns filter => Statement.updateWhere d table columns filter
  | deleteByKey table key => Statement.deleteByKey d table key
  | deleteWhere table filter => Statement.deleteWhere d table filter

/-- The names in a statement, in their order. -/
def names : TableStatement → List String
  | insert table columns key => table :: columns ++ key.toList
  | selectByKey table key | deleteByKey table key => [table, key]
  | updateByKey table columns key => table :: columns ++ [key]
  | updateWhere table columns _ => table :: columns
  | deleteWhere table _ => [table]

/-- The condition that the caller has written, which is empty if there is none. -/
def filter : TableStatement → String
  | updateWhere _ _ filter | deleteWhere _ filter => filter
  | insert .. | selectByKey .. | updateByKey .. | deleteByKey .. => ""

/-- A statement with other names. -/
def rename (f : String → String) : TableStatement → TableStatement
  | insert table columns key => insert (f table) (columns.map f) (key.map f)
  | selectByKey table key => selectByKey (f table) (f key)
  | updateByKey table columns key => updateByKey (f table) (columns.map f) (f key)
  | updateWhere table columns filter => updateWhere (f table) (columns.map f) filter
  | deleteByKey table key => deleteByKey (f table) (f key)
  | deleteWhere table filter => deleteWhere (f table) filter

/-- A statement with the empty name in the place of every name. -/
def unnamed (s : TableStatement) : TableStatement := s.rename fun _ => ""

/-- What stands in front of a condition of the caller. -/
def whereTokens (filter : String) : List Token :=
  if filter.isEmpty then [] else [.word " WHERE "]

/-- The tokens in front of the condition of the caller. -/
def tokens (d : Dialect) : TableStatement → List Token
  | insert table columns key => Statement.insertTokens d table columns key
  | selectByKey table key =>
    [.word "SELECT * FROM ", .ident table] ++ .word " WHERE " :: Statement.keyTokens key 0
  | updateByKey table columns key =>
    Statement.updateTokens table columns ++
      .word " WHERE " :: Statement.keyTokens key columns.length
  | updateWhere table columns filter => Statement.updateTokens table columns ++ whereTokens filter
  | deleteByKey table key =>
    Statement.deleteTokens table ++ .word " WHERE " :: Statement.keyTokens key 0
  | deleteWhere table filter => Statement.deleteTokens table ++ whereTokens filter

/-- The text in front of the condition of the caller. -/
def command (d : Dialect) (s : TableStatement) : String := d.write (s.tokens d)

variable (d : Dialect) (s : TableStatement)

/-! ## The command and the condition -/

/-- The clause of a condition is a keyword in front of what the caller has written. -/
theorem whereClause_eq (filter : String) :
    Statement.whereClause filter = d.write (whereTokens filter) ++ filter := by
  rw [Statement.whereClause, whereTokens]
  split
  next hempty =>
    rw [String.isEmpty_iff.mp hempty]
    rfl
  · simp [Dialect.write, Dialect.tokenText]

/-- The text of a statement is its command with the condition behind it. -/
theorem text_eq : s.text d = s.command d ++ s.filter := by
  have happend (tokens tokens' : List Token) (filter : String) :
      d.write (tokens ++ tokens') ++ filter = d.write tokens ++ (d.write tokens' ++ filter) := by
    simp [← String.toList_inj]
  cases s with
  | insert table columns key => exact (String.append_empty ..).symm
  | selectByKey table key => exact (String.append_empty ..).symm
  | updateByKey table columns key =>
    exact (d.write_whereClause ..).trans (String.append_empty ..).symm
  | deleteByKey table key => exact (d.write_whereClause ..).trans (String.append_empty ..).symm
  | updateWhere table columns filter | deleteWhere table filter =>
    rw [command, tokens, TableStatement.filter, happend, ← whereClause_eq]
    rfl

/-- The keyword of a condition can stand behind any readable tokens. -/
theorem readable_whereTokens {tokens : List Token} (h : d.Readable tokens) (filter : String) :
    d.Readable (tokens ++ whereTokens filter) := by
  unfold whereTokens
  split
  · simpa using h
  · exact h.append_break (.singleton (by cases d <;> decide)) (by decide)

/-- The tokens of a statement are read back one after the other. -/
theorem readable_tokens : d.Readable (s.tokens d) := by
  cases s with
  | insert table columns key => exact d.readable_insertTokens table columns key
  | selectByKey table key => exact d.readable_selectByKey table key
  | updateByKey table columns key =>
    exact d.readable_where (d.readable_updateTokens table columns) key columns.length
  | updateWhere table columns filter =>
    exact readable_whereTokens d (d.readable_updateTokens table columns) filter
  | deleteByKey table key => exact d.readable_deleteByKey table key
  | deleteWhere table filter =>
    exact readable_whereTokens d (d.readable_onTable (by decide) (by cases d <;> decide) table) filter

/-- Nothing of a condition runs together with what stands in front of it. -/
theorem endOpen_whereTokens (tokens : List Token) (filter : String) :
    Token.EndOpen (tokens ++ whereTokens filter) ∨ d.Breaks filter.toList := by
  by_cases hfilter : filter.isEmpty
  · rw [String.isEmpty_iff.mp hfilter]
    exact .inr (by simp [Dialect.Breaks])
  · have hopen : (Token.word " WHERE ").isOperand = false := by decide
    exact .inl (by simpa [Token.EndOpen, whereTokens, hfilter] using hopen)

/-- The condition of the caller cannot run together with the command in front of it. -/
theorem endOpen_tokens : Token.EndOpen (s.tokens d) ∨ d.Breaks s.filter.toList := by
  cases s with
  | updateWhere table columns filter => exact endOpen_whereTokens d _ filter
  | deleteWhere table filter => exact endOpen_whereTokens d _ filter
  | _ => exact .inr (by simp [TableStatement.filter, Dialect.Breaks])

/-- The command of a statement is read as its tokens. -/
theorem segments_command : d.segments (s.command d) = d.segmentsOf (s.tokens d) :=
  d.segments_write (readable_tokens d s)

/-- The condition of the caller is read as it is alone, whatever the names in front of it. -/
theorem segments_text :
    d.segments (s.text d) = d.segments (s.command d) ++ d.segments s.filter := by
  rw [text_eq, segments_command, command]
  exact Dialect.segments_write_append (readable_tokens d s) (endOpen_tokens d s)

/-! ## The names of a statement -/

/-- Commas are no names. -/
theorem identNames_commaSeparated (groups : List (List Token)) :
    identNames (commaSeparated groups) = groups.flatMap identNames :=
  filterMap_commaSeparated rfl groups

/-- A list of columns names those columns. -/
theorem identNames_columnList (columns : List String) :
    identNames (Statement.columnList columns) = columns := by
  have hname (c : String) : identNames [.ident c] = [c] := rfl
  simp [Statement.columnList, identNames_commaSeparated, List.flatMap_map, hname]

/-- A list of parameters has no names. -/
theorem identNames_parameters (count : Nat) :
    identNames (commaSeparated ((Statement.parameters 0 count).map fun t => [t])) = [] := by
  have hnone (i : Nat) : identNames [.param i] = [] := rfl
  simp [Statement.parameters, identNames_commaSeparated, List.flatMap_map, hnone]

/-- Assignments name the columns they set. -/
theorem identNames_assignments (columns : List String) (start : Nat) :
    identNames (commaSeparated (Statement.assignments start columns)) = columns := by
  rw [identNames_commaSeparated]
  induction columns generalizing start with
  | nil => rfl
  | cons c columns ih => exact congrArg (c :: ·) (ih (start + 1))

/-- What an insertion answers with names its key. -/
theorem identNames_returning (key : Option String) :
    identNames ((key.map (Statement.returning d)).getD []) = key.toList := by
  cases key with
  | none => rfl
  | some key => cases d <;> rfl

/-- Fixed text is no name. -/
theorem identNames_word (text : String) (ts : List Token) :
    identNames (.word text :: ts) = identNames ts := rfl

/-- What an insertion sets names its columns, once each. -/
theorem identNames_insertBody (columns : List String) :
    identNames (d.insertBody columns) = columns := by
  unfold Dialect.insertBody
  split
  next hempty =>
    rw [List.isEmpty_iff.mp hempty]
    cases d <;> rfl
  · simp [identNames_columnList, identNames_parameters, identNames_word]

/-- An update names its table and then its columns. -/
theorem identNames_updateTokens (table : String) (columns : List String) :
    identNames (Statement.updateTokens table columns) = table :: columns := by
  simp [Statement.updateTokens, identNames_assignments, identNames_word]

/-- The comparison of a key names that key. -/
theorem identNames_keyTokens (key : String) (index : Nat) :
    identNames (.word " WHERE " :: Statement.keyTokens key index) = [key] := rfl

/-- The keyword of a condition has no names. -/
theorem identNames_whereTokens (filter : String) : identNames (whereTokens filter) = [] := by
  unfold whereTokens
  split <;> rfl

/-- The names among the tokens of a statement are the names it was given. -/
theorem identNames_tokens : identNames (s.tokens d) = s.names := by
  cases s with
  | insert table columns key =>
    have htokens : Statement.insertTokens d table columns key =
        [Token.word "INSERT INTO ", .ident table] ++
          (d.insertBody columns ++ (key.map (Statement.returning d)).getD []) := by
      simp [Statement.insertTokens, Dialect.insertBody]
    rw [tokens, htokens, identNames_append, identNames_append, identNames_insertBody,
      identNames_returning]
    rfl
  | selectByKey table key | deleteByKey table key => rfl
  | updateByKey table columns key =>
    rw [tokens, identNames_append, identNames_updateTokens, identNames_keyTokens]
    rfl
  | updateWhere table columns filter =>
    rw [tokens, identNames_append, identNames_updateTokens, identNames_whereTokens,
      List.append_nil]
    rfl
  | deleteWhere table filter =>
    rw [tokens, identNames_append, identNames_whereTokens, List.append_nil]
    rfl

end TableStatement

/-! ## Other names -/

/-- A token with another name. -/
def Token.rename (f : String → String) : Token → Token
  | .ident name => .ident (f name)
  | t => t

/-- A segment with another name. -/
def Segment.rename (f : String → String) : Segment → Segment
  | .ident name => .ident (f (String.ofList name)).toList
  | segment => segment

/-- The characters of a segment. -/
def Segment.spelling (d : Dialect) : Segment → List Char
  | .ident name => d.quoteChars name
  | .param mark => mark
  | .char c => [c]

namespace TableStatement

variable (d : Dialect) (f : String → String)

/-- The segments of tokens hold all of their text. -/
theorem spelling_segmentsOf (ts : List Token) :
    (d.segmentsOf ts).flatMap (Segment.spelling d) = d.chars ts := by
  have hchars (text : List Char) : (text.map Segment.char).flatMap (Segment.spelling d) = text := by
    simp [List.flatMap_map, Segment.spelling]
  induction ts with
  | nil => rfl
  | cons t ts ih =>
    rw [Dialect.segmentsOf_cons, Dialect.chars_cons, List.flatMap_append, ih]
    congr 1
    cases t with
    | ident name => simp [Dialect.tokenSegments, Dialect.tokenText, Segment.spelling]
    | param index => simp [Dialect.tokenSegments, Dialect.tokenText, Segment.spelling]
    | op | null | truth | word => exact hchars _

/-- Renaming the tokens renames their segments. -/
theorem segmentsOf_rename (ts : List Token) :
    d.segmentsOf (ts.map (Token.rename f)) = (d.segmentsOf ts).map (Segment.rename f) := by
  have hchars (text : List Char) :
      (text.map Segment.char).map (Segment.rename f) = text.map .char := by
    simp [Segment.rename]
  induction ts with
  | nil => rfl
  | cons t ts ih =>
    rw [List.map_cons, Dialect.segmentsOf_cons, Dialect.segmentsOf_cons, List.map_append, ih]
    congr 1
    cases t with
    | ident name => simp [Token.rename, Dialect.tokenSegments, Segment.rename]
    | param index => rfl
    | op | null | truth | word => exact (hchars _).symm

/-- Renaming passes over commas into the groups between them. -/
theorem rename_commaSeparated (groups : List (List Token)) :
    (commaSeparated groups).map (Token.rename f) =
      commaSeparated (groups.map (List.map (Token.rename f))) := by
  induction groups with
  | nil => rfl
  | cons g groups ih =>
    cases groups with
    | nil => simp
    | cons next groups =>
      rw [commaSeparated_cons_cons, List.map_append, List.map_cons, ih]
      exact (commaSeparated_cons_cons _ _ _).symm

/-- Renaming a list of columns renames each of them. -/
theorem rename_columnList (columns : List String) :
    (Statement.columnList columns).map (Token.rename f) = Statement.columnList (columns.map f) := by
  rw [Statement.columnList, rename_commaSeparated, Statement.columnList, List.map_map, List.map_map]
  rfl

/-- Parameters have no names to change. -/
theorem rename_parameters (count : Nat) :
    (commaSeparated ((Statement.parameters 0 count).map fun t => [t])).map (Token.rename f) =
      commaSeparated ((Statement.parameters 0 count).map fun t => [t]) := by
  rw [rename_commaSeparated, Statement.parameters, List.map_map, List.map_map, List.map_map]
  rfl

/-- Renaming assignments renames the columns they set and keeps their parameters. -/
theorem rename_assignments (columns : List String) (start : Nat) :
    (Statement.assignments start columns).map (List.map (Token.rename f)) =
      Statement.assignments start (columns.map f) := by
  induction columns generalizing start with
  | nil => rfl
  | cons c columns ih => exact congrArg (_ :: ·) (ih (start + 1))

/-- Renaming what an insertion answers with renames its key. -/
theorem rename_returning (key : Option String) :
    ((key.map (Statement.returning d)).getD []).map (Token.rename f) =
      ((key.map f).map (Statement.returning d)).getD [] := by
  cases key with
  | none => rfl
  | some key => cases d <;> rfl

/-- An insertion with other names is the insertion into the renamed table and columns. -/
theorem rename_insertTokens (table : String) (columns : List String) (key : Option String) :
    (Statement.insertTokens d table columns key).map (Token.rename f) =
      Statement.insertTokens d (f table) (columns.map f) (key.map f) := by
  have hnone : (Statement.noColumns d).rename f = Statement.noColumns d := by cases d <;> rfl
  have hword (text : String) : (Token.word text).rename f = .word text := rfl
  have hident (name : String) : (Token.ident name).rename f = .ident (f name) := rfl
  simp only [Statement.insertTokens, List.map_append, rename_returning, List.isEmpty_map]
  split <;> simp [hnone, hword, hident, rename_columnList, rename_parameters]

/-- An update with other names is the update of the renamed table and columns. -/
theorem rename_updateTokens (table : String) (columns : List String) :
    (Statement.updateTokens table columns).map (Token.rename f) =
      Statement.updateTokens (f table) (columns.map f) := by
  rw [Statement.updateTokens, List.map_append, rename_commaSeparated, rename_assignments]
  rfl

/-- The keyword of a condition has no names to change. -/
theorem rename_whereTokens (filter : String) :
    (whereTokens filter).map (Token.rename f) = whereTokens filter := by
  unfold whereTokens
  split <;> rfl

/-- A statement with other names has the same tokens with those names. -/
theorem tokens_rename (s : TableStatement) :
    (s.rename f).tokens d = (s.tokens d).map (Token.rename f) := by
  cases s with
  | insert table columns key => exact (rename_insertTokens d f table columns key).symm
  | selectByKey table key | deleteByKey table key => rfl
  | updateByKey table columns key =>
    rw [tokens, List.map_append, rename_updateTokens, rename, tokens, List.length_map]
    rfl
  | updateWhere table columns filter =>
    rw [tokens, List.map_append, rename_updateTokens, rename_whereTokens]
    rfl
  | deleteWhere table filter =>
    rw [tokens, List.map_append, rename_whereTokens]
    rfl

/-- Other names change the identifiers of a command and nothing else. -/
theorem segments_rename (s : TableStatement) :
    d.segments ((s.rename f).command d) = (d.segments (s.command d)).map (Segment.rename f) := by
  rw [segments_command, segments_command, tokens_rename, segmentsOf_rename]

end TableStatement

/-- Quoting is safe from injection. An identifier is read exactly where a quoted name stands that no
closing quote follows, and the segments of a text are read by the same rule. A statement on a table
is a command with the condition of the caller behind it; the identifiers of the command are the
names in their order, its segments hold all of its text, and with the empty name in the place of
every name the rest of it is the same. The condition is read as it is alone. -/
theorem Dialect.names_stay_identifiers (d : Dialect) :
    (∀ text name rest, d.readIdentifier text = some (name, rest) ↔
      text = (d.quote name).toList ++ rest ∧ rest.head? ≠ some d.closeQuote) ∧
    (∀ text name rest, d.readIdentifier text = some (name, rest) →
      d.segmentsFrom .outside text = .ident name.toList :: d.segmentsFrom .outside rest) ∧
    ∀ s : TableStatement,
      s.text d = s.command d ++ s.filter ∧
      d.segments (s.text d) = d.segments (s.command d) ++ d.segments s.filter ∧
      d.identifiers (s.command d) = s.names ∧
      (d.segments (s.command d)).flatMap (Segment.spelling d) = (s.command d).toList ∧
      (d.segments (s.command d)).map (Segment.rename fun _ => "") =
        d.segments (s.unnamed.command d) := by
  refine ⟨fun _ _ _ => readIdentifier_eq_some_iff, fun _ _ _ => segmentsFrom_of_readIdentifier,
    fun s => ⟨s.text_eq d, s.segments_text d, ?_, ?_, ?_⟩⟩
  · rw [TableStatement.command, identifiers_write (s.readable_tokens d), s.identNames_tokens]
  · rw [s.segments_command, TableStatement.spelling_segmentsOf, TableStatement.command, toList_write]
  · exact (TableStatement.segments_rename d (fun _ => "") s).symm

end SqlCompose
