import Mathlib.Data.List.Chain
import SqlCompose.Proofs.Dialect.Segment

/-!
# Tokens written and read back

The text of tokens is read back token by token if nothing runs together: behind an identifier, a
placeholder or a word that ends in a letter or digit there has to be a token that begins with a
blank or a mark of punctuation (`Token.Follows`). Then the segments of the text are those of the
tokens one after the other (`Dialect.segmentsFrom_chars`), and its placeholders are those of the
parameters (`Dialect.marks_chars`).
-/

namespace SqlCompose

namespace Token

/-- Whether the text of a token could run together with what stands behind it. -/
def isOperand : Token → Bool
  | .op _ => false
  | .word text => text.toList.getLast?.any Char.isAlphanum
  | .ident _ | .param _ | .null | .truth _ => true

/-- Whether the text of a token begins with a blank or a mark of punctuation. -/
def isBreak : Token → Bool
  | .op _ => true
  | .word text => text.toList.head?.any fun c => c ∈ [' ', ')', ',', ';']
  | .ident _ | .param _ | .null | .truth _ => false

/-- Whether two tokens can stand one behind the other without running together. -/
def Follows (a b : Token) : Prop := a.isOperand = true → b.isBreak = true

/-- Whether anything can stand behind tokens. -/
def EndOpen (tokens : List Token) : Prop := ∀ t, tokens.getLast? = some t → t.isOperand = false

/-- Anything can stand behind the tokens behind a first one if it can behind all. -/
theorem EndOpen.of_cons {t : Token} {tokens : List Token} (h : EndOpen (t :: tokens)) :
    EndOpen tokens := by
  intro last hlast
  refine h last ?_
  rw [List.getLast?_cons, hlast]
  rfl

/-- Whether tokens can stand behind anything. -/
def BeginBroken (tokens : List Token) : Prop := ∀ t, tokens.head? = some t → t.isBreak = true

/-- Tokens that begin with punctuation can stand behind anything. -/
theorem beginBroken_cons {t : Token} (h : t.isBreak = true) (tokens : List Token) :
    BeginBroken (t :: tokens) := by simpa [BeginBroken] using h

/-- Tokens can stand behind anything if both of their parts can. -/
theorem beginBroken_append {a b : List Token} (ha : BeginBroken a) (hb : BeginBroken b) :
    BeginBroken (a ++ b) := by
  cases a with
  | nil => exact hb
  | cons t a => exact ha

/-- The index of a parameter. -/
def index? : Token → Option Nat
  | .param index => some index
  | _ => none

end Token

/-! ## Groups of tokens -/

@[simp] theorem commaSeparated_singleton (g : List Token) : commaSeparated [g] = g := by
  simp [commaSeparated]

/-- The first of several groups stands in front of a comma. -/
theorem commaSeparated_cons_cons (g next : List Token) (groups : List (List Token)) :
    commaSeparated (g :: next :: groups) = g ++ .word ", " :: commaSeparated (next :: groups) := by
  simp [commaSeparated, List.intercalate_cons_cons]

/-- What is found in groups of tokens with commas between them is found in the groups. -/
theorem filterMap_commaSeparated {α : Type} {f : Token → Option α} (h : f (.word ", ") = none)
    (groups : List (List Token)) :
    (commaSeparated groups).filterMap f = groups.flatMap (List.filterMap f) := by
  induction groups with
  | nil => rfl
  | cons g groups ih =>
    cases groups with
    | nil => simp
    | cons next groups =>
      rw [commaSeparated_cons_cons, List.filterMap_append, List.filterMap_cons_none h, ih]
      rfl

/-! ## Parameters and names among tokens -/

/-- The indices of the parameters among tokens, in their order. -/
def indices (tokens : List Token) : List Nat := tokens.filterMap Token.index?

@[simp] theorem indices_nil : indices [] = [] := rfl

/-- The parameters of tokens side by side are those of each, in order. -/
@[simp] theorem indices_append (a b : List Token) : indices (a ++ b) = indices a ++ indices b := by
  simp [indices]

/-- A first token adds its index, if it is a parameter. -/
@[simp] theorem indices_cons (t : Token) (tokens : List Token) :
    indices (t :: tokens) = t.index?.toList ++ indices tokens := by
  cases h : t.index? <;> simp [indices, h]

/-- The names among tokens. -/
def identNames (ts : List Token) : List String :=
  ts.filterMap fun
    | .ident name => some name
    | _ => none

@[simp] theorem identNames_nil : identNames [] = [] := rfl

/-- The names of tokens side by side are those of each, in order. -/
@[simp] theorem identNames_append (a b : List Token) :
    identNames (a ++ b) = identNames a ++ identNames b := by
  simp [identNames]

@[simp] theorem identNames_ident (name : String) (ts : List Token) :
    identNames (.ident name :: ts) = name :: identNames ts := rfl

/-- A token that is no identifier has no name. -/
theorem identNames_cons {t : Token} (h : ∀ name, t ≠ .ident name) (ts : List Token) :
    identNames (t :: ts) = identNames ts := by
  cases t with
  | ident name => exact absurd rfl (h name)
  | _ => rfl

namespace Dialect

/-! ## The characters of tokens -/

/-- The characters of the text of several tokens. -/
def chars (d : Dialect) (tokens : List Token) : List Char :=
  tokens.flatMap fun t => (d.tokenText t).toList

variable (d : Dialect)

@[simp] theorem chars_nil : d.chars [] = [] := rfl

@[simp] theorem chars_cons (t : Token) (tokens : List Token) :
    d.chars (t :: tokens) = (d.tokenText t).toList ++ d.chars tokens := by simp [chars]

/-- The characters of tokens side by side are those of each, in order. -/
@[simp] theorem chars_append (a b : List Token) :
    d.chars (a ++ b) = d.chars a ++ d.chars b := by simp [chars]

/-- The text of tokens is their characters. -/
@[simp] theorem toList_write (tokens : List Token) : (d.write tokens).toList = d.chars tokens := by
  simp [write, chars, String.toList_join, List.flatMap_map]

/-- A quoted name is its characters with the closing quotes doubled, between quotes. -/
@[simp] theorem toList_quote (name : String) : (d.quote name).toList = d.quoteChars name.toList := by
  simp [quote]

/-! ## What may follow -/

/-- Whether a text does not go on with the identifier or placeholder in front of it. -/
def Breaks (rest : List Char) : Prop :=
  ∀ c, rest.head? = some c → c ≠ d.closeQuote ∧ d.continuesMark c = false

/-- A blank, a comma, a semicolon or a closing parenthesis ends what stands in front of it. -/
theorem breaks_cons {c : Char} (h : c ∈ [' ', ')', ',', ';']) (rest : List Char) :
    d.Breaks (c :: rest) := by
  rintro _ ⟨rfl⟩
  simp only [List.mem_cons, List.not_mem_nil, or_false] at h
  rcases h with rfl | rfl | rfl | rfl <;> cases d <;> decide

/-- The text of a token that breaks, with anything behind it. -/
theorem breaks_of_isBreak {t : Token} (h : t.isBreak = true) (rest : List Char) :
    d.Breaks ((d.tokenText t).toList ++ rest) := by
  cases t with
  | op op => simpa [tokenText, BinaryOp.text] using d.breaks_cons (by simp) _
  | word text =>
    cases hl : text.toList with
    | nil => simp [Token.isBreak, hl] at h
    | cons c tail =>
      have hc : c ∈ [' ', ')', ',', ';'] := by simpa [Token.isBreak, hl] using h
      simpa [tokenText, hl] using d.breaks_cons hc _
  | ident | param | null | truth => simp [Token.isBreak] at h

/-- What stands behind an operand that tokens follow, with anything behind them that may stand
there. -/
theorem breaks_chars_of_isChain {t : Token} {tokens : List Token} {rest : List Char}
    (h : (t :: tokens).IsChain Token.Follows) (ht : t.isOperand = true)
    (hrest : Token.EndOpen (t :: tokens) ∨ d.Breaks rest) : d.Breaks (d.chars tokens ++ rest) := by
  cases tokens with
  | nil =>
    refine hrest.resolve_left fun hopen => ?_
    rw [hopen t rfl] at ht
    cases ht
  | cons b tokens =>
    rw [chars_cons, List.append_assoc]
    exact d.breaks_of_isBreak ((List.isChain_cons_cons.mp h).1 ht) _

/-! ## Segments -/

/-- The segments of a token. -/
def tokenSegments (d : Dialect) : Token → List Segment
  | .ident name => [.ident name.toList]
  | .param index => [.param (d.placeholder index).toList]
  | t => (d.tokenText t).toList.map .char

/-- Whether a word begins neither an identifier nor a placeholder. -/
def CleanToken (d : Dialect) : Token → Prop
  | .word text => d.IsClean text.toList
  | _ => True

instance (t : Token) : Decidable (d.CleanToken t) := by
  cases t <;> unfold CleanToken <;> infer_instance

/-- Operators begin neither identifiers nor placeholders. -/
theorem isClean_op (op : BinaryOp) : d.IsClean op.text.toList := by
  cases op <;> cases d <;> decide

/-- The mark of null begins neither an identifier nor a placeholder. -/
theorem isClean_null : d.IsClean nullMark.toList := by cases d <;> decide

/-- Truth values begin neither identifiers nor placeholders. -/
theorem isClean_truth (b : Bool) : d.IsClean (d.truth b).toList := by
  cases b <;> cases d <;> decide

/-- Tokens that are read back one after the other. -/
structure Readable (d : Dialect) (tokens : List Token) : Prop where
  /-- No two of them run together. -/
  chain : tokens.IsChain Token.Follows
  /-- No word begins an identifier or a placeholder. -/
  clean : ∀ t ∈ tokens, d.CleanToken t

namespace Readable

variable {d : Dialect} {a b tokens : List Token}

/-- No tokens at all are readable. -/
theorem nil : d.Readable [] := ⟨.nil, by simp⟩

/-- A clean token alone is readable. -/
theorem singleton {t : Token} (h : d.CleanToken t) : d.Readable [t] := ⟨.singleton t, by simpa⟩

/-- Readable tokens side by side are readable if they cannot run together. -/
theorem append (ha : d.Readable a) (hb : d.Readable b)
    (h : Token.EndOpen a ∨ Token.BeginBroken b) : d.Readable (a ++ b) where
  chain := by
    refine List.isChain_append.mpr ⟨ha.chain, hb.chain, fun s hs t ht hop => ?_⟩
    exact (h.resolve_left fun ho => by simp [ho s hs] at hop) t ht
  clean := by simpa [or_imp, forall_and] using ⟨ha.clean, hb.clean⟩

/-- A word that anything can stand behind, in front of other tokens. -/
theorem cons_word {text : String} (hopen : (Token.word text).isOperand = false)
    (hclean : d.IsClean text.toList) (h : d.Readable tokens) :
    d.Readable (.word text :: tokens) :=
  (singleton (t := .word text) hclean).append h (.inl (by simpa [Token.EndOpen] using hopen))

/-- Tokens that begin with a break, behind others. -/
theorem append_break {t : Token} (ha : d.Readable a) (hb : d.Readable (t :: b))
    (ht : t.isBreak = true) : d.Readable (a ++ t :: b) :=
  ha.append hb (.inr (Token.beginBroken_cons ht b))

end Readable

/-- Readable tokens are read back one after the other, and then what stands behind them. -/
theorem segmentsFrom_chars_append {tokens : List Token} (h : d.Readable tokens) {rest : List Char}
    (hrest : Token.EndOpen tokens ∨ d.Breaks rest) :
    d.segmentsFrom .outside (d.chars tokens ++ rest) =
      tokens.flatMap d.tokenSegments ++ d.segmentsFrom .outside rest := by
  obtain ⟨hf, hc⟩ := h
  induction tokens with
  | nil => rfl
  | cons t tokens ih =>
    obtain ⟨ht, hc⟩ := List.forall_mem_cons.mp hc
    have hnext := ih (hrest.imp_left Token.EndOpen.of_cons) hf.of_cons hc
    rw [chars_cons, List.flatMap_cons, List.append_assoc, List.append_assoc, ← hnext]
    cases t with
    | ident name =>
      have hb := d.breaks_chars_of_isChain hf rfl hrest
      simpa [tokenText, tokenSegments] using
        d.segmentsFrom_quoteChars name.toList fun h => (hb _ h).1 rfl
    | param index =>
      have hb := d.breaks_chars_of_isChain hf rfl hrest
      simpa [tokenText, tokenSegments] using
        d.segmentsFrom_placeholder index fun c h => (hb c h).2
    | op op => exact d.segmentsFrom_clean (d.isClean_op op) _
    | null => exact d.segmentsFrom_clean d.isClean_null _
    | truth b => exact d.segmentsFrom_clean (d.isClean_truth b) _
    | word text => exact d.segmentsFrom_clean ht _

/-- Readable tokens are read back one after the other. -/
theorem segmentsFrom_chars {tokens : List Token} (h : d.Readable tokens) :
    d.segmentsFrom .outside (d.chars tokens) = tokens.flatMap d.tokenSegments := by
  have hrest : d.Breaks [] := by simp [Breaks]
  have hend : d.segmentsFrom .outside [] = [] := rfl
  simpa [hend] using d.segmentsFrom_chars_append h (.inr hrest)

/-! ## Identifiers -/

/-- The names of the quoted identifiers of a text, from left to right. -/
def identifiers (d : Dialect) (text : String) : List String :=
  (d.segments text).filterMap fun
    | .ident name => some (String.ofList name)
    | _ => none

/-- The identifiers of readable tokens are their names. -/
theorem identifiers_write {d : Dialect} {ts : List Token} (h : d.Readable ts) :
    d.identifiers (d.write ts) = identNames ts := by
  rw [identifiers, segments, toList_write, d.segmentsFrom_chars h]
  clear h
  induction ts with
  | nil => rfl
  | cons t ts ih =>
    rw [List.flatMap_cons, List.filterMap_append, ih]
    cases t with
    | ident name => simp [tokenSegments]
    | param index => simp [tokenSegments, identNames_cons]
    | op | null | truth | word =>
      rw [identNames_cons (by simp)]
      simp [tokenSegments, List.filterMap_map]

/-! ## Placeholders -/

/-- The placeholders among segments. -/
def marks (segments : List Segment) : List (List Char) :=
  segments.filterMap fun
    | .param mark => some mark
    | _ => none

/-- The placeholders of a text from left to right, quoted identifiers passed over. -/
def placeholders (d : Dialect) (text : String) : List String :=
  (marks (d.segments text)).map String.ofList

/-- The placeholders of segments side by side are those of each, in order. -/
@[simp] theorem marks_append (a b : List Segment) : marks (a ++ b) = marks a ++ marks b := by
  simp [marks]

/-- Characters are no placeholders. -/
theorem marks_map_char (text : List Char) : marks (text.map .char) = [] := by
  simp [marks]

/-- A token has a placeholder just when it is a parameter. -/
theorem marks_tokenSegments (t : Token) :
    marks (d.tokenSegments t) = (t.index?.map fun i => (d.placeholder i).toList).toList := by
  cases t <;> first | rfl | exact marks_map_char _

/-- The placeholders of readable tokens are those of their parameters. -/
theorem marks_chars {tokens : List Token} (h : d.Readable tokens) :
    marks (d.segmentsFrom .outside (d.chars tokens)) =
      (indices tokens).map fun i => (d.placeholder i).toList := by
  rw [d.segmentsFrom_chars h]
  clear h
  induction tokens with
  | nil => rfl
  | cons t tokens ih =>
    rw [List.flatMap_cons, marks_append, ih, marks_tokenSegments, indices_cons, List.map_append]
    cases t.index? <;> rfl

end Dialect

end SqlCompose
