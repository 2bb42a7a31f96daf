import SqlCompose.Command.Basic
import SqlCompose.Text.Ascii
import SqlCompose.Text.Search

/-!
# Commands read from arguments

A command starts with its name; options follow in any order. An option is a word after two dashes;
its value is the next argument, or stands after an equals sign. A value that is an argument of its
own does not start with a dash, unless it is nothing else. Options that take lists may be repeated
and take several items between commas; all others stand once.

The rules are those of release 4 of `clap`; its help is left out.
-/

namespace SqlCompose

/-- Why arguments are no command. -/
inductive UsageFault where
  /-- No command is named, or one that is not known. -/
  | unknownCommand
  /-- An argument is not expected where it stands. -/
  | unexpected (argument : String)
  /-- An option has no value. -/
  | missingValue (option : String)
  /-- A value does not fit its option. -/
  | badValue (option value : String)
  /-- An option stands twice. -/
  | repeated (option : String)
  /-- A required option is missing. -/
  | missingOption (option : String)
  /-- Two options do not go together. -/
  | conflict (option other : String)
deriving DecidableEq, Repr

/-- A fault in words. -/
def UsageFault.message : UsageFault → String
  | .unknownCommand => "a command is required: compile, run or connections"
  | .unexpected argument => "unexpected argument '" ++ argument ++ "'"
  | .missingValue option => "a value is required for '--" ++ option ++ "'"
  | .badValue option value => "invalid value '" ++ value ++ "' for '--" ++ option ++ "'"
  | .repeated option => "'--" ++ option ++ "' cannot be used more than once"
  | .missingOption option => "'--" ++ option ++ "' is required"
  | .conflict option other => "'--" ++ option ++ "' cannot be used with '--" ++ other ++ "'"

/-! ## Options -/

/-- The options of commands. -/
inductive OptionName where
  /-- The provider whose dialect to compile for. -/
  | dialect
  /-- The saved connection to use. -/
  | connect
  /-- The table. -/
  | table
  /-- The columns of the table. -/
  | columns
  /-- The predicate. -/
  | filter
  /-- The column to order by. -/
  | orderBy
  /-- The column to order by in reverse. -/
  | orderByDescending
  /-- The number of rows to leave out. -/
  | skip
  /-- The number of rows to take. -/
  | take
  /-- Whether to answer with the number of rows. -/
  | count
  /-- Whether to answer with the existence of a row. -/
  | any
  /-- The columns to select. -/
  | select
deriving DecidableEq, Repr

namespace OptionName

/-- The word for an option, without its dashes. -/
def word : OptionName → String
  | .dialect => "dialect"
  | .connect => "connect"
  | .table => "table"
  | .columns => "columns"
  | .filter => "filter"
  | .orderBy => "order-by"
  | .orderByDescending => "order-by-desc"
  | .skip => "skip"
  | .take => "take"
  | .count => "count"
  | .any => "any"
  | .select => "select"

/-- Whether an option stands for itself, without a value. -/
def isSwitch : OptionName → Bool
  | .count | .any => true
  | _ => false

/-- The options that describe a query. -/
def ofQueries : List OptionName :=
  [.table, .columns, .filter, .orderBy, .orderByDescending, .skip, .take, .count, .any, .select]

/-- The option among some that a word names. -/
def find? (known : List OptionName) (word : List Char) : Option OptionName :=
  known.find? fun option => option.word.toList == word

end OptionName

/-- The options that have been given. -/
structure Settings where
  /-- The options that stand once, with their values. -/
  single : List (OptionName × String) := []
  /-- The columns of the table. -/
  columns : List String := []
  /-- The columns to select. -/
  select : List String := []

namespace Settings

/-- The items of a list between commas. -/
def items (value : String) : List String := (Text.splitOn [','] value.toList).map String.ofList

/-- A natural number of 64 bits. -/
def readCount? (value : String) : Option UInt64 := do
  let n ← Text.readNat? value.toList
  if n < 0x10000000000000000 then some (UInt64.ofNat n) else none

/-- Whether a value fits an option. -/
def fits (option : OptionName) (value : String) : Bool :=
  match option with
  | .skip | .take => (readCount? value).isSome
  | _ => true

/-- Settings with one more option. -/
def add (s : Settings) (option : OptionName) (value : String) : Except UsageFault Settings :=
  match option with
  | .columns => .ok { s with columns := s.columns ++ items value }
  | .select => .ok { s with select := s.select ++ items value }
  | _ =>
    if (s.single.lookup option).isSome then .error (.repeated option.word)
    else if fits option value then .ok { s with single := (option, value) :: s.single }
    else .error (.badValue option.word value)

/-- The value of an option that stands once. -/
def get? (s : Settings) (option : OptionName) : Option String := s.single.lookup option

/-- Whether a switch is given. -/
def has (s : Settings) (option : OptionName) : Bool := (s.get? option).isSome

/-- The value of an option that has to be given. -/
def require (s : Settings) (option : OptionName) : Except UsageFault String :=
  match s.get? option with
  | some value => .ok value
  | none => .error (.missingOption option.word)

/-- The order that is asked for. -/
def order (s : Settings) : Except UsageFault (Option OrderBy) :=
  match s.get? .orderBy, s.get? .orderByDescending with
  | some _, some _ =>
    .error (.conflict OptionName.orderBy.word OptionName.orderByDescending.word)
  | some column, none => .ok (some ⟨column, false⟩)
  | none, some column => .ok (some ⟨column, true⟩)
  | none, none => .ok none

/-- What is asked for. -/
def wanted (s : Settings) : Except UsageFault Wanted :=
  match s.has .count, s.has .any with
  | true, true => .error (.conflict OptionName.count.word OptionName.any.word)
  | true, false => .ok .count
  | false, true => .ok .existence
  | false, false => .ok .rows

/-- The query that is asked for. -/
def request (s : Settings) : Except UsageFault QueryRequest := do
  .ok {
    table := ← s.require .table
    columns := s.columns
    filter := s.get? .filter
    order := ← s.order
    skip := (s.get? .skip).bind readCount?
    take := (s.get? .take).bind readCount?
    wanted := ← s.wanted
    select := s.select }

end Settings

/-! ## Arguments -/

/-- Whether an argument can be the value of the option before it. -/
def isValue (argument : String) : Bool :=
  match argument.toList with
  | ['-'] => true
  | '-' :: _ => false
  | _ => true

/-- Whether an argument asks for help. -/
def asksForHelp (argument : String) : Bool :=
  argument == "--help" || ['-', 'h'].isPrefixOf argument.toList

/-- An option and the value that stands after its equals sign, if there is one. -/
def splitOption (text : List Char) : List Char × Option String :=
  match Text.splitFirst ['='] text with
  | some (word, value) => (word, some (String.ofList value))
  | none => (text, none)

/-- The settings that arguments make, among some options; none if they ask for help. -/
def readSettings (known : List OptionName) (s : Settings) :
    List String → Except UsageFault (Option Settings)
  | [] => .ok (some s)
  | argument :: rest =>
    if asksForHelp argument then .ok none
    else
      match argument.toList with
      | ['-', '-'] =>
        match rest with
        | [] => .ok (some s)
        | argument :: _ => .error (.unexpected argument)
      | '-' :: '-' :: text =>
        let (word, attached) := splitOption text
        match OptionName.find? known word with
        | none => .error (.unexpected argument)
        | some option =>
          match option.isSwitch, attached with
          | true, none => do readSettings known (← s.add option "") rest
          | true, some value => .error (.badValue option.word value)
          | false, some value => do readSettings known (← s.add option value) rest
          | false, none =>
            match rest with
            | [] => .error (.missingValue option.word)
            | value :: rest =>
              if isValue value then do readSettings known (← s.add option value) rest
              else .error (.missingValue option.word)
      | _ => .error (.unexpected argument)

namespace Command

/-- The provider whose dialect queries are compiled for when none is named. -/
def usualProvider : String := "sqlserver"

/-- The names of the commands. -/
def names : List String := ["compile", "run", "connections", "help"]

/-- A command whose options are made into it; without settings it asks for help. -/
def ofSettings (make : Settings → Except UsageFault Command) :
    Option Settings → Except UsageFault Command
  | some s => make s
  | none => .ok .help

/-- The command that arguments spell. -/
def read : List String → Except UsageFault Command
  | [] => .error .unknownCommand
  | "compile" :: rest => do
    ofSettings (fun s => do
      .ok (.compile ((s.get? .dialect).getD usualProvider) (← s.request)))
      (← readSettings (.dialect :: OptionName.ofQueries) {} rest)
  | "run" :: rest => do
    ofSettings (fun s => do .ok (.run (← s.require .connect) (← s.request)))
      (← readSettings (.connect :: OptionName.ofQueries) {} rest)
  | "connections" :: rest => do
    ofSettings (fun _ => .ok .connections) (← readSettings [] {} rest)
  | ["help"] => .ok .help
  | ["help", name] => if name ∈ names then .ok .help else .error .unknownCommand
  | argument :: _ => if asksForHelp argument then .ok .help else .error .unknownCommand

end Command

end SqlCompose
