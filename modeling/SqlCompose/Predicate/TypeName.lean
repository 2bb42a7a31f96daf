import SqlCompose.Dialect.Basic
import SqlCompose.Predicate.Keyword
import SqlCompose.Predicate.Reader

/-!
# Names of types in predicate text

Casts and typed literals name a type. A type that the language knows is written in its own
spelling, with its size behind it; any other name stands as it is. `typeName` reads a type with the
brackets that make it the type of arrays.
-/

namespace SqlCompose.Predicate

open Reader

/-- What a name of a type is known as. -/
inductive TypeOrigin where
  /-- A type of the language. -/
  | language
  /-- The type of time spans, whose literals have a grammar of their own. -/
  | interval
  /-- Any other type. -/
  | other
deriving DecidableEq, Repr

/-- A type, by its normal form. -/
structure TypeName where
  /-- What the name is known as. -/
  origin : TypeOrigin
  /-- The name in its normal form. -/
  text : String
deriving DecidableEq, Repr

/-! ## Sizes -/

/-- A natural number of sixty-four bits. -/
def typeNumber : Reader String := do
  match ← next with
  | .number digits _ =>
    match Text.readNat? digits.toList with
    | some n => if n < 0x10000000000000000 then pure (toString n) else refuse
    | none => refuse
  | _ => refuse

/-- What stands in parentheses behind a name, in parentheses, or nothing. -/
def inOptionalParentheses (p : Reader String) : Reader String := do
  if ← seesSign "(" then
    let s ← inParentheses p
    pure ("(" ++ s ++ ")")
  else pure ""

/-- A size in parentheses, or nothing. -/
def optionalSize : Reader String := inOptionalParentheses typeNumber

/-- The size of a text: a number with a unit, or no limit. -/
def textSize : Reader String := do
  if ← keyword? "MAX" then pure "MAX"
  else
    let n ← typeNumber
    match ← oneOf? ["CHARACTERS", "OCTETS"] with
    | some unit => pure (n ++ " " ++ unit)
    | none => pure n

/-- A precision and a scale. -/
def precisionAndScale : Reader String := do
  let p ← typeNumber
  if ← sign? "," then
    let s ← typeNumber
    pure (p ++ "," ++ s)
  else pure p

/-- How a time says whether it has a zone. -/
def timeZoneSuffix : Reader String := do
  match ← oneOf? ["WITH", "WITHOUT"] with
  | some word => do
    keywords ["TIME", "ZONE"]
    pure (" " ++ word ++ " TIME ZONE")
  | none => pure ""

/-! ## Text literals -/

/-- The content of a text literal; a name that is no keyword counts as its own text. -/
def literalText : Reader String := do
  match ← next with
  | .quoted .plain content | .quoted .quotation content | .quoted .escaped content
  | .quoted .unicode content => pure content
  | .word n => if n.isPlain then pure n.text else refuse
  | _ => refuse

/-! ## Types of the language -/

/-- The types without a size, under their words and in their own spelling. -/
def unsizedTypes : List (String × String) :=
  (["BOOLEAN", "BOOL", "REAL", "DATE", "JSON", "JSONB", "UUID", "REGCLASS", "TEXT", "TINYTEXT",
    "MEDIUMTEXT", "LONGTEXT", "BYTEA", "TINYBLOB", "MEDIUMBLOB", "LONGBLOB", "FLOAT4", "FLOAT8",
    "FLOAT64", "INT64", "TRIGGER"].map fun k => (k, k)) ++
  [("DATE32", "Date32"), ("FLOAT32", "Float32"), ("INT16", "Int16"), ("INT32", "Int32"),
    ("INT128", "Int128"), ("INT256", "Int256"), ("UINT8", "UInt8"), ("UINT16", "UInt16"),
    ("UINT32", "UInt32"), ("UINT64", "UInt64"), ("UINT128", "UInt128"), ("UINT256", "UInt256")]

/-- The types of integers, which may be unsigned. -/
def integerTypes : List String :=
  ["TINYINT", "SMALLINT", "MEDIUMINT", "INT", "INTEGER", "BIGINT", "INT2", "INT4", "INT8"]

/-- The types with an optional size. -/
def sizedTypes : List String :=
  ["FLOAT", "CLOB", "BINARY", "VARBINARY", "BLOB", "BYTES", "STRING", "DATETIME", "TIMESTAMPTZ",
    "TIMETZ"]

/-- The types of texts, whose size may carry a unit or be without a limit. -/
def textTypes : List String := ["VARCHAR", "NVARCHAR", "CHAR", "CHARACTER"]

/-- The types of decimal numbers, with a precision and a scale. -/
def decimalTypes : List String := ["NUMERIC", "DECIMAL", "DEC", "BIGNUMERIC", "BIGDECIMAL"]

/-- The types of named values, under their words and in their own spelling. -/
def enumTypes : List (String × String) :=
  [("ENUM", "ENUM"), ("ENUM8", "ENUM8"), ("ENUM16", "ENUM16")]

/-- What stands behind the word of a text type. -/
def textType (k : String) : Reader String := do
  let fixed := k == "CHAR" || k == "CHARACTER"
  if ← onlyIf fixed (keyword? "VARYING") then
    pure (k ++ " VARYING" ++ (← inOptionalParentheses textSize))
  else if ← onlyIf fixed (keywords? ["LARGE", "OBJECT"]) then
    pure (k ++ " LARGE OBJECT" ++ (← optionalSize))
  else pure (k ++ (← inOptionalParentheses textSize))

/-- A moment with a precision and, behind a comma, the name of a zone. -/
def preciseMoment : Reader String := inParentheses do
  let p ← typeNumber
  if ← sign? "," then
    let zone ← literalText
    pure ("DateTime64(" ++ p ++ ", '" ++ zone ++ "')")
  else pure ("DateTime64(" ++ p ++ ")")

/-- A number with any signs before it; every sign takes a lexeme, so the fuel may be their
number. -/
def signedNumber : Nat → Reader String
  | 0 => refuse
  | fuel + 1 => do
    match ← next with
    | .sign "+" => do pure ("+" ++ (← signedNumber fuel))
    | .sign "-" => do pure ("-" ++ (← signedNumber fuel))
    | .number digits long => pure (Lexeme.writeNumber digits long)
    | _ => refuse

/-- A named value, with its number if it has one. -/
def enumMember : Reader String := do
  let quotedName := TextForm.plain.write (← literalText)
  if ← sign? "=" then
    let n ← fun rest => signedNumber rest.length rest
    pure (quotedName ++ " = " ++ n)
  else pure quotedName

/-- A text between apostrophes, in its normal form. -/
def plainText : Reader String := do
  match ← next with
  | .quoted .plain content => pure (TextForm.plain.write content)
  | _ => refuse

/-- What may stand behind the word of a type that the language knows; nothing for other words. -/
def languageType? (k : String) : Option (Reader String) :=
  if let some spelling := unsizedTypes.lookup k then some (pure spelling)
  else if integerTypes.contains k then some do
    let size ← optionalSize
    pure (k ++ size ++ if ← keyword? "UNSIGNED" then " UNSIGNED" else "")
  else if sizedTypes.contains k then some do pure (k ++ (← optionalSize))
  else if textTypes.contains k then some (textType k)
  else if decimalTypes.contains k then some do
    pure (k ++ (← inOptionalParentheses precisionAndScale))
  else if k == "DOUBLE" then some do
    pure (if ← keyword? "PRECISION" then "DOUBLE PRECISION" else "DOUBLE")
  else if k == "BIT" then some do
    let varying ← keyword? "VARYING"
    pure ((if varying then "BIT VARYING" else "BIT") ++ (← optionalSize))
  else if k == "TIMESTAMP" || k == "TIME" then some do
    let size ← optionalSize
    pure (k ++ size ++ (← timeZoneSuffix))
  else if k == "DATETIME64" then some preciseMoment
  else if k == "FIXEDSTRING" then some do
    pure ("FixedString(" ++ (← inParentheses typeNumber) ++ ")")
  else if let some spelling := enumTypes.lookup k then some do
    pure (spelling ++ "(" ++ listText (← inParentheses (commaList enumMember)) ++ ")")
  else if k == "SET" then some do
    pure ("SET(" ++ listText (← inParentheses (commaList plainText)) ++ ")")
  else none

/-! ## Other types -/

/-- A word, number or text in parentheses behind the name of a type; a comma stands for none. -/
def typeModifier : Reader (Option String) := do
  match ← next with
  | .word n => pure (some n.write)
  | .number digits _ => pure (some digits)
  | .quoted .plain content => pure (some content)
  | .sign "," => pure none
  | _ => refuse

/-- A type that the language does not know; commas stand anywhere between its modifiers. -/
def otherType : Reader String := do
  let name ← pathText
  if ← sign? "(" then
    let modifiers ← many (do if ← seesSign ")" then pure none else some <$> typeModifier)
    sign ")"
    match modifiers.filterMap id with
    | [] => pure name
    | texts => pure (name ++ "(" ++ listText texts ++ ")")
  else pure name

/-! ## Arrays -/

/-- Brackets behind a type, which make it the type of arrays. -/
def arrayMark (d : Dialect) : Reader (Option String) := do
  if ← sign? "[" then
    let size ← if d = .postgres then (·.getD "") <$> attempt typeNumber else pure ""
    sign "]"
    pure (some ("[" ++ size ++ "]"))
  else pure none

/-- A type with the brackets behind it. -/
def withArrayMarks (d : Dialect) (t : TypeName) : Reader TypeName := do
  match ← many (arrayMark d) with
  | [] => pure t
  | marks => pure ⟨.language, t.text ++ String.join marks⟩

/-- The bracket that closes a type of arrays. One sign may close two types; the answer says whether
it closes the type around this one, too. -/
def closeAngle (closed : Bool) : Reader Bool := do
  if closed then pure false
  else if ← sign? ">" then pure false
  else if ← sign? ">>" then pure true
  else refuse

/-- A type, and whether the bracket of the type around it has been read; types nest in angle
brackets up to a depth. -/
def typeWithin (d : Dialect) : Nat → Reader (TypeName × Bool)
  | 0 => refuse
  | depth + 1 => do
    let k := (((← peek 0).bind Lexeme.keyword?).getD "")
    if k == "INTERVAL" then
      let _ ← next
      pure (← withArrayMarks d ⟨.interval, k⟩, false)
    else if k == "ARRAY" then
      let _ ← next
      sign "<"
      let (element, closed) ← typeWithin d depth
      let outer ← closeAngle closed
      pure (← withArrayMarks d ⟨.language, "ARRAY<" ++ element.text ++ ">"⟩, outer)
    else
      let t ← match languageType? k with
        | some behind => do
          let _ ← next
          pure ⟨.language, ← behind⟩
        | none => do
          match ← peek 0 with
          | some (.word _) => pure ⟨.other, ← otherType⟩
          | _ => refuse
      pure (← withArrayMarks d t, false)

/-- A type. -/
def typeName (d : Dialect) : Reader TypeName := fun rest =>
  (do
    match ← typeWithin d rest.length with
    | (t, false) => pure t
    | (_, true) => refuse) rest

end SqlCompose.Predicate
