import Mathlib.Data.List.Forall2
import SqlCompose.Profile.Basic
import SqlCompose.Proofs.Text.Numeral
import SqlCompose.Proofs.Text.Replacing

/-!
# Connection strings read back

A connection string is read from left to right as keywords with values. A value between apostrophes
ends at the first apostrophe that does not follow a backslash, and a backslash takes the character
behind it as it stands; any other value ends at a blank. `readParameters` knows this much and
nothing of profiles. Whatever its parts hold, the connection string of a profile is read as its
keywords, each once and with the part that belongs to it
(`Profile.readParameters_connectionString`).
-/

namespace SqlCompose.Profile

open Text (isBlank)

/-! ## Reading -/

/-- Where in a connection string the next character is read. -/
inductive ParameterScan where
  /-- In front of a keyword. -/
  | outside
  /-- In a keyword, of which a part has been read. -/
  | keyword (name : List Char)
  /-- Behind a keyword, in front of the equals sign. -/
  | named (name : List Char)
  /-- Behind the equals sign, in front of the value. -/
  | assigned (name : List Char)
  /-- In a value without apostrophes around it; a backslash may stand in front. -/
  | bare (name value : List Char) (escaped : Bool)
  /-- In a value between apostrophes; a backslash may stand in front. -/
  | quoted (name value : List Char) (escaped : Bool)
deriving DecidableEq, Repr

/-- A keyword with its value. -/
def parameter (name value : List Char) : String × String := (String.ofList name, String.ofList value)

/-- Read a text that goes on from a state. A keyword without an equals sign and a value without its
last apostrophe are none. -/
def readParametersFrom : ParameterScan → List Char → Option (List (String × String))
  | .outside, [] => some []
  | .keyword _, [] | .named _, [] | .quoted _ _ _, [] => none
  | .assigned name, [] => some [parameter name []]
  | .bare name value _, [] => some [parameter name value]
  | .outside, c :: text =>
    if isBlank c then readParametersFrom .outside text
    else if c = '=' then readParametersFrom (.assigned []) text
    else readParametersFrom (.keyword [c]) text
  | .keyword name, c :: text =>
    if isBlank c then readParametersFrom (.named name) text
    else if c = '=' then readParametersFrom (.assigned name) text
    else readParametersFrom (.keyword (name ++ [c])) text
  | .named name, c :: text =>
    if isBlank c then readParametersFrom (.named name) text
    else if c = '=' then readParametersFrom (.assigned name) text
    else none
  | .assigned name, c :: text =>
    if isBlank c then readParametersFrom (.assigned name) text
    else if c = apostrophe then readParametersFrom (.quoted name [] false) text
    else if c = '\\' then readParametersFrom (.bare name [] true) text
    else readParametersFrom (.bare name [c] false) text
  | .bare name value true, c :: text => readParametersFrom (.bare name (value ++ [c]) false) text
  | .bare name value false, c :: text =>
    if isBlank c then (readParametersFrom .outside text).map (parameter name value :: ·)
    else if c = '\\' then readParametersFrom (.bare name value true) text
    else readParametersFrom (.bare name (value ++ [c]) false) text
  | .quoted name value true, c :: text =>
    readParametersFrom (.quoted name (value ++ [c]) false) text
  | .quoted name value false, c :: text =>
    if c = apostrophe then (readParametersFrom .outside text).map (parameter name value :: ·)
    else if c = '\\' then readParametersFrom (.quoted name value true) text
    else readParametersFrom (.quoted name (value ++ [c]) false) text

/-- The keywords of a connection string with their values, if it is one. -/
def readParameters (text : String) : Option (List (String × String)) :=
  readParametersFrom .outside text.toList

/-! ## Keywords -/

/-- Whether a text is a keyword: not empty, without blanks and equals signs. -/
def IsKeyword (name : List Char) : Prop := name ≠ [] ∧ ∀ c ∈ name, isBlank c = false ∧ c ≠ '='

instance (name : List Char) : Decidable (IsKeyword name) :=
  haveI := List.decidableBAll (fun c => isBlank c = false ∧ c ≠ '=') name
  inferInstanceAs (Decidable (_ ∧ _))

/-- A keyword is taken up to its equals sign. -/
theorem readParametersFrom_keyword (front : List Char) {name : List Char}
    (h : ∀ c ∈ name, isBlank c = false ∧ c ≠ '=') (rest : List Char) :
    readParametersFrom (.keyword front) (name ++ '=' :: rest) =
      readParametersFrom (.assigned (front ++ name)) rest := by
  induction name generalizing front with
  | nil =>
    have hequals : isBlank '=' = false := by decide
    simp [readParametersFrom, hequals]
  | cons c name ih =>
    obtain ⟨⟨hblank, hequals⟩, hname⟩ := List.forall_mem_cons.mp h
    rw [List.cons_append, readParametersFrom, if_neg (by simp [hblank]), if_neg hequals, ih _ hname,
      List.append_assoc, List.singleton_append]

/-- A keyword is read up to its equals sign. -/
theorem readParametersFrom_outside {name : List Char} (h : IsKeyword name) (rest : List Char) :
    readParametersFrom .outside (name ++ '=' :: rest) =
      readParametersFrom (.assigned name) rest := by
  obtain ⟨hne, hname⟩ := h
  obtain ⟨c, name, rfl⟩ := List.exists_cons_of_ne_nil hne
  obtain ⟨⟨hblank, hequals⟩, hname⟩ := List.forall_mem_cons.mp hname
  rw [List.cons_append, readParametersFrom, if_neg (by simp [hblank]), if_neg hequals,
    readParametersFrom_keyword [c] hname, List.singleton_append]

/-! ## Values -/

/-- The characters of a value as they stand between apostrophes. -/
def escape (value : List Char) : List Char :=
  value.flatMap fun c => if c = '\\' ∨ c = apostrophe then ['\\', c] else [c]

/-- Doubling the backslashes and then escaping the apostrophes is one pass over the characters: the
backslashes that the first replacement adds are none of the apostrophes that the second one is
about. -/
theorem replaceAll_apostrophe_backslash (value : List Char) :
    Text.replaceAll [apostrophe] ['\\', apostrophe] (Text.replaceAll ['\\'] ['\\', '\\'] value) =
      escape value := by
  have hmarks : '\\' ≠ apostrophe := by decide
  rw [Text.replaceAll_singleton, Text.replaceAll_singleton, List.flatMap_assoc, escape]
  refine congrArg (value.flatMap ·) (funext fun c => ?_)
  by_cases hbackslash : c = '\\'
  · simp [hbackslash, hmarks]
  · by_cases hapostrophe : c = apostrophe
    · simp [hapostrophe, hmarks.symm]
    · simp [hbackslash, hapostrophe]

/-- A quoted value stands between apostrophes, escaped. -/
theorem toList_quoteValue (value : String) :
    (quoteValue value).toList = apostrophe :: (escape value.toList ++ [apostrophe]) := by
  rw [← replaceAll_apostrophe_backslash]
  simp [quoteValue]

/-- Between apostrophes a value is read as it was, up to the apostrophe at its end. -/
theorem readParametersFrom_escape (name front value rest : List Char) :
    readParametersFrom (.quoted name front false) (escape value ++ apostrophe :: rest) =
      (readParametersFrom .outside rest).map (parameter name (front ++ value) :: ·) := by
  have hmarks : '\\' ≠ apostrophe := by decide
  induction value generalizing front with
  | nil => simp [escape, readParametersFrom]
  | cons c value ih =>
    have hnext := ih (front ++ [c])
    rw [List.append_assoc, List.singleton_append] at hnext
    by_cases hc : c = '\\' ∨ c = apostrophe
    · have hescape : escape (c :: value) = '\\' :: c :: escape value := by simp [escape, hc]
      rw [hescape, List.cons_append, List.cons_append, readParametersFrom, if_neg hmarks,
        if_pos rfl, readParametersFrom, hnext]
    · have hescape : escape (c :: value) = c :: escape value := by simp [escape, hc]
      obtain ⟨hbackslash, hapostrophe⟩ := not_or.mp hc
      rw [hescape, List.cons_append, readParametersFrom, if_neg hapostrophe, if_neg hbackslash,
        hnext]

/-- Whether a text may stand for itself as a value: not empty, without blanks, backslashes and
apostrophes. -/
def IsBare (value : List Char) : Prop :=
  value ≠ [] ∧ ∀ c ∈ value, isBlank c = false ∧ c ≠ '\\' ∧ c ≠ apostrophe

instance (value : List Char) : Decidable (IsBare value) :=
  haveI := List.decidableBAll (fun c => isBlank c = false ∧ c ≠ '\\' ∧ c ≠ apostrophe) value
  inferInstanceAs (Decidable (_ ∧ _))

/-- Whether a value has ended where a text goes on: at the end or in front of a blank. -/
def Ends (rest : List Char) : Prop := ∀ c, rest.head? = some c → isBlank c = true

/-- A bare value is taken up to its end, and then the reader is outside again. The blank that ends
the value is read once more in front of the next keyword. -/
theorem readParametersFrom_bare (name front : List Char) {value rest : List Char}
    (h : ∀ c ∈ value, isBlank c = false ∧ c ≠ '\\' ∧ c ≠ apostrophe) (hrest : Ends rest) :
    readParametersFrom (.bare name front false) (value ++ rest) =
      (readParametersFrom .outside rest).map (parameter name (front ++ value) :: ·) := by
  induction value generalizing front with
  | nil =>
    cases rest with
    | nil => simp [readParametersFrom]
    | cons c rest =>
      have hblank : isBlank c = true := hrest c rfl
      simp [readParametersFrom, hblank]
  | cons c value ih =>
    obtain ⟨⟨hblank, hbackslash, -⟩, hvalue⟩ := List.forall_mem_cons.mp h
    rw [List.cons_append, readParametersFrom, if_neg (by simp [hblank]), if_neg hbackslash,
      ih _ hvalue, List.append_assoc, List.singleton_append]

/-- Whether characters spell a value. -/
inductive Spells : List Char → List Char → Prop
  /-- Between apostrophes, where any value can stand. -/
  | quoted (value : List Char) : Spells (apostrophe :: (escape value ++ [apostrophe])) value
  /-- As it stands. -/
  | bare {value : List Char} (h : IsBare value) : Spells value value

/-- A quoted value spells the value that was quoted. -/
theorem spells_quoteValue (value : String) : Spells (quoteValue value).toList value.toList := by
  rw [toList_quoteValue]
  exact .quoted value.toList

/-- What spells a value is read as it. -/
theorem readParametersFrom_assigned (name : List Char) {written value rest : List Char}
    (h : Spells written value) (hrest : Ends rest) :
    readParametersFrom (.assigned name) (written ++ rest) =
      (readParametersFrom .outside rest).map (parameter name value :: ·) := by
  cases h with
  | quoted value =>
    have happly := readParametersFrom_escape name [] value rest
    have hblank : isBlank apostrophe = false := by decide
    rw [List.nil_append] at happly
    simpa [readParametersFrom, hblank] using happly
  | bare h =>
    obtain ⟨hne, hvalue⟩ := h
    obtain ⟨c, value, rfl⟩ := List.exists_cons_of_ne_nil hne
    obtain ⟨⟨hblank, hbackslash, hapostrophe⟩, hvalue⟩ := List.forall_mem_cons.mp hvalue
    rw [List.cons_append, readParametersFrom, if_neg (by simp [hblank]), if_neg hapostrophe,
      if_neg hbackslash, readParametersFrom_bare name [c] hvalue hrest, List.singleton_append]

/-! ## Lists of parameters -/

/-- Whether a written parameter stands for a parameter: the keyword is one, and its value is
spelled. -/
structure Writes (written meant : String × String) : Prop where
  keyword : IsKeyword written.1.toList
  name : meant.1 = written.1
  value : Spells written.2.toList meant.2.toList

/-- A keyword with a quoted value stands for the keyword with that value. -/
theorem Writes.quoteValue {name : String} (h : IsKeyword name.toList) (value : String) :
    Writes (name, Profile.quoteValue value) (name, value) :=
  ⟨h, rfl, spells_quoteValue value⟩

/-- A keyword with a value that needs no quoting stands for itself. -/
theorem Writes.bare {name value : String} (h : IsKeyword name.toList)
    (hvalue : IsBare value.toList) : Writes (name, value) (name, value) :=
  ⟨h, rfl, .bare hvalue⟩

/-- The characters of written parameters with blanks between them. -/
def chars (written : List (String × String)) : List Char :=
  [' '].intercalate (written.map fun p => p.1.toList ++ '=' :: p.2.toList)

/-- Written parameters are read as what they stand for. -/
theorem readParametersFrom_chars {written meant : List (String × String)}
    (h : List.Forall₂ Writes written meant) :
    readParametersFrom .outside (chars written) = some meant := by
  induction h with
  | nil => rfl
  | @cons w m ws ms hw hws ih =>
    have hread (rest : List Char) (hrest : Ends rest) :
        readParametersFrom .outside (w.1.toList ++ '=' :: (w.2.toList ++ rest)) =
          (readParametersFrom .outside rest).map (m :: ·) := by
      rw [readParametersFrom_outside hw.keyword, readParametersFrom_assigned _ hw.value hrest]
      simp [parameter, ← hw.name]
    cases ws with
    | nil =>
      cases hws
      have hlast := hread [] (by simp [Ends])
      simpa [chars, readParametersFrom] using hlast
    | cons next ws =>
      have hblank : isBlank ' ' = true := by decide
      have hmore := hread (' ' :: chars (next :: ws)) (by simpa [Ends] using hblank)
      have hskip : readParametersFrom .outside (' ' :: chars (next :: ws)) = some ms := by
        rw [readParametersFrom, if_pos hblank, ih]
      rw [hskip] at hmore
      simpa [chars, List.intercalate_cons_cons] using hmore

/-! ## Profiles -/

/-- The parts of a profile that its connection string names, under their keywords. -/
def settings (p : Profile) : List (String × String) := [
  ("host", p.host), ("port", p.tcpPortText), ("dbname", p.database), ("user", p.username),
  ("password", p.password), ("sslmode", p.sslMode.keyword), ("connect_timeout", "10")]

/-- A connection string is the written parameters of its profile with blanks between them. -/
theorem toList_connectionString (p : Profile) : p.connectionString.toList = chars p.parameters := by
  simp [connectionString, chars, String.toList_intercalate, Function.comp_def]

/-- The port is written in base ten. -/
theorem toList_tcpPortText (p : Profile) : p.tcpPortText.toList = Text.decimal p.tcpPort.toNat := by
  simp [tcpPortText]

/-- A port needs no quoting. -/
theorem isBare_tcpPortText (p : Profile) : IsBare p.tcpPortText.toList := by
  rw [toList_tcpPortText]
  refine ⟨Text.decimal_ne_nil _, fun c hc => ?_⟩
  have hdigit : Text.isDigit c = true := Text.isDigit_of_mem_decimal hc
  refine ⟨Text.isBlank_of_isDigit hdigit, ?_, ?_⟩
  · rintro rfl
    exact absurd hdigit (by decide)
  · rintro rfl
    exact absurd hdigit (by decide)

/-- The keyword of an encryption mode needs no quoting. -/
theorem isBare_keyword (mode : SslMode) : IsBare mode.keyword.toList := by
  cases mode <;> decide

/-- Each written parameter of a profile stands for one of its settings, in order. -/
theorem writes_settings (p : Profile) : List.Forall₂ Writes p.parameters p.settings :=
  .cons (.quoteValue (by decide) p.host) <|
    .cons (.bare (by decide) p.isBare_tcpPortText) <|
    .cons (.quoteValue (by decide) p.database) <|
    .cons (.quoteValue (by decide) p.username) <|
    .cons (.quoteValue (by decide) p.password) <|
    .cons (.bare (by decide) (isBare_keyword p.sslMode)) <|
    .cons (.bare (by decide) (by decide)) .nil

/-- The connection string of a profile is read as the settings of the profile. -/
theorem readParameters_eq (p : Profile) : readParameters p.connectionString = some p.settings := by
  rw [readParameters, toList_connectionString, readParametersFrom_chars p.writes_settings]

/-- No keyword is given twice. -/
theorem nodup_settings (p : Profile) : (p.settings.map Prod.fst).Nodup := by
  show ["host", "port", "dbname", "user", "password", "sslmode", "connect_timeout"].Nodup
  decide

/-- The port is read back from its digits. -/
theorem ofDigits_tcpPortText (p : Profile) :
    Text.ofDigits p.tcpPortText.toList = p.tcpPort.toNat := by
  rw [toList_tcpPortText, Text.ofDigits_decimal]

/-- Each encryption mode has a keyword of its own. -/
theorem keyword_injective : Function.Injective SslMode.keyword := by
  intro a b h
  cases a <;> cases b <;> first | rfl | exact absurd h (by decide)

/-- Profiles have one connection string if and only if they have the same parts in it. -/
theorem connectionString_eq_iff {p q : Profile} : p.connectionString = q.connectionString ↔
    p.host = q.host ∧ p.tcpPort = q.tcpPort ∧ p.database = q.database ∧
      p.username = q.username ∧ p.password = q.password ∧ p.sslMode = q.sslMode := by
  constructor
  · intro h
    have hread := readParameters_eq p
    rw [h, readParameters_eq q] at hread
    simp only [settings, Option.some.injEq, List.cons.injEq, Prod.mk.injEq, true_and,
      and_true] at hread
    obtain ⟨hhost, hport, hdatabase, husername, hpassword, hmode⟩ := hread
    refine ⟨hhost.symm, ?_, hdatabase.symm, husername.symm, hpassword.symm,
      keyword_injective hmode.symm⟩
    rw [← UInt16.toNat_inj, ← ofDigits_tcpPortText, ← ofDigits_tcpPortText, hport]
  · rintro ⟨hhost, hport, hdatabase, husername, hpassword, hmode⟩
    simp only [connectionString, parameters, tcpPortText, hhost, hport, hdatabase, husername,
      hpassword, hmode]

/-- Whatever the parts of a profile hold, its connection string is read as its keywords, each once
and with the part of the profile that belongs to it; the number of the server's port is spelled in
digits. Profiles have one connection string if and only if these parts are the same, so what is read
of one part does not hang on another one. -/
theorem readParameters_connectionString (p : Profile) :
    readParameters p.connectionString = some p.settings ∧
    p.settings = [
      ("host", p.host), ("port", p.tcpPortText), ("dbname", p.database), ("user", p.username),
      ("password", p.password), ("sslmode", p.sslMode.keyword), ("connect_timeout", "10")] ∧
    (p.settings.map Prod.fst).Nodup ∧
    Text.ofDigits p.tcpPortText.toList = p.tcpPort.toNat ∧
    ∀ q : Profile, p.connectionString = q.connectionString ↔
      p.host = q.host ∧ p.tcpPort = q.tcpPort ∧ p.database = q.database ∧
        p.username = q.username ∧ p.password = q.password ∧ p.sslMode = q.sslMode :=
  ⟨readParameters_eq p, rfl, p.nodup_settings, ofDigits_tcpPortText p,
    fun _ => connectionString_eq_iff⟩

end SqlCompose.Profile
