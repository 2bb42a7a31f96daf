import SqlCompose.Proofs.Condition.Finishing

/-!
# Groups

A condition that is alone stands as it is written. Of several, each stands in a group of its own,
with `AND` in front of all but the first (`Sql.conjunction`). They are tidy if each of them is in
front of a parenthesis (`Sql.tidy_conjunction`), and their groups settle one by one
(`Sql.settles_joined`).
-/

namespace SqlCompose.Sql

/-! ## Tidiness -/

namespace Tidy

variable {ps : List Piece}

/-- No pieces are tidy. -/
theorem nil : Tidy [] := ⟨.nil, by simp⟩

/-- A piece in front of tidy ones is tidy if the next one can follow it. -/
theorem cons {p : Piece} (hp : p.Plain) (hf : ∀ q ∈ ps.head?, p.Follows q) (h : Tidy ps) :
    Tidy (p :: ps) :=
  ⟨List.isChain_cons.mpr ⟨hf, h.chain⟩, List.forall_mem_cons.mpr ⟨hp, h.plain⟩⟩

/-- Anything can stand behind a word that opens a parenthesis, and behind a comma. -/
theorem cons_word (word : String) (hword : word ∈ ["(", "NOT (", " IN (", ", "]) (h : Tidy ps) :
    Tidy (.word word :: ps) := by
  have hwords : ∀ word ∈ ["(", "NOT (", " IN (", ", "], word ∈ conditionWords ∧
      (Piece.word word).isOperand = false := by decide
  obtain ⟨hknown, hfree⟩ := hwords word hword
  exact h.cons hknown fun q _ => ⟨fun ho => by simp [hfree] at ho, by simp⟩

/-- What begins with a blank or a mark of punctuation can stand behind an operand. -/
theorem cons_break {p : Piece} (hp : p.Plain) (hop : ∀ o, p ≠ .op o)
    (hbreak : ∀ q ∈ ps.head?, q.isBreak = true) (h : Tidy ps) : Tidy (p :: ps) :=
  h.cons hp fun q hq => ⟨fun _ => hbreak q hq, fun o _ heq => absurd heq (hop o)⟩

/-- An operator in front of tidy pieces is tidy unless it makes a null test with them. -/
theorem cons_op {o : BinaryOp} (ho : o.isEquality = true → ps.head? ≠ some (.term .null))
    (h : Tidy ps) : Tidy (.op o :: ps) := by
  refine h.cons trivial fun q hq => ⟨nofun, fun o' ho' heq hnull => ?_⟩
  cases heq
  exact ho ho' (hnull ▸ hq)

end Tidy

/-- A piece that begins with a blank or a mark of punctuation comes first. -/
def BreaksFirst (ps : List Piece) : Prop := ∀ p ∈ ps.head?, p.isBreak = true

theorem breaksFirst_nil : BreaksFirst [] := by simp [BreaksFirst]

/-- A closing parenthesis can stand behind anything. -/
theorem breaksFirst_closed (ps : List Piece) : BreaksFirst (.word ")" :: ps) := by
  rintro p ⟨rfl⟩
  decide

/-- An operator can stand behind anything. -/
theorem breaksFirst_op (o : BinaryOp) (ps : List Piece) : BreaksFirst (.op o :: ps) := by
  rintro p ⟨rfl⟩
  rfl

/-- A closing parenthesis in front of what can stand behind an operand is tidy. -/
theorem Tidy.cons_closed {ps : List Piece} (h : Tidy ps) (hfirst : BreaksFirst ps) :
    Tidy (.word ")" :: ps) :=
  h.cons_break (by decide : ")" ∈ conditionWords) (by simp) hfirst

/-- Whether pieces are tidy in front of what can stand behind an operand. -/
def TidyBefore (ps : List Piece) : Prop :=
  ∀ rest, Tidy rest → BreaksFirst rest → Tidy (ps ++ rest)

/-! ## Several conditions -/

/-- Pieces in a group of their own. -/
def parenthesized (ps : List Piece) : List Piece := .word "(" :: (ps ++ [.word ")"])

/-- Groups that all have to hold. -/
def joined : List (List Piece) → List Piece
  | [] => []
  | g :: gs => g ++ gs.flatMap fun g => .op .and :: g

/-- Conditions that all have to hold; one that is alone is no group. -/
def conjunction : List (List Piece) → List Piece
  | [ps] => ps
  | bodies => joined (bodies.map parenthesized)

/-- Any number of conditions but one stand in groups of their own. -/
theorem conjunction_of_ne {bodies : List (List Piece)} (h : ∀ ps, bodies ≠ [ps]) :
    conjunction bodies = joined (bodies.map parenthesized) := by
  unfold conjunction
  split
  next ps => exact absurd rfl (h ps)
  · rfl

/-- Parentheses around tidy pieces are tidy. -/
theorem TidyBefore.parenthesized {ps : List Piece} (h : TidyBefore ps) :
    TidyBefore (parenthesized ps) := by
  intro rest hrest hfirst
  have hbody := h _ (hrest.cons_closed hfirst) (breaksFirst_closed rest)
  simpa [Sql.parenthesized] using hbody.cons_word "(" (by simp)

/-- Groups with a connective between them are tidy if each of them is. -/
theorem tidy_joined {gs : List (List Piece)} (h : ∀ g ∈ gs, TidyBefore g) : Tidy (joined gs) := by
  have hmore {gs : List (List Piece)} (h : ∀ g ∈ gs, TidyBefore g) :
      Tidy (gs.flatMap fun g => .op .and :: g) ∧
        BreaksFirst (gs.flatMap fun g => .op .and :: g) := by
    induction gs with
    | nil => exact ⟨.nil, breaksFirst_nil⟩
    | cons g gs ih =>
      obtain ⟨hg, hgs⟩ := List.forall_mem_cons.mp h
      obtain ⟨htidy, hfirst⟩ := ih hgs
      exact ⟨(hg _ htidy hfirst).cons_op nofun, breaksFirst_op _ _⟩
  cases gs with
  | nil => exact .nil
  | cons g gs =>
    obtain ⟨hg, hgs⟩ := List.forall_mem_cons.mp h
    obtain ⟨htidy, hfirst⟩ := hmore hgs
    exact hg _ htidy hfirst

/-- Several conditions are tidy if each of them is. -/
theorem tidy_conjunction {bodies : List (List Piece)} (h : ∀ ps ∈ bodies, TidyBefore ps) :
    Tidy (conjunction bodies) := by
  unfold conjunction
  split
  next ps =>
    have hps := h ps (by simp) [] .nil breaksFirst_nil
    rwa [List.append_nil] at hps
  · exact tidy_joined (List.forall_mem_map.mpr fun ps hps => (h ps hps).parenthesized)

/-! ## Settling -/

/-- Tests for absence written out. -/
def writeEqual (ps : List Piece) : List Piece := ps.map (.writeTest .eq " IS NULL")

@[simp] theorem writeEqual_nil : writeEqual [] = [] := rfl

@[simp] theorem writeEqual_cons (p : Piece) (ps : List Piece) :
    writeEqual (p :: ps) = p.writeTest .eq " IS NULL" :: writeEqual ps := rfl

@[simp] theorem writeEqual_append (ps qs : List Piece) :
    writeEqual (ps ++ qs) = writeEqual ps ++ writeEqual qs := List.map_append

/-- A closing parenthesis settles as itself. -/
theorem Settles.of_closed {b : Bool} {ps qs : List Piece} (h : Settles b (.word ")" :: ps) qs) :
    ∃ qs', qs = .word ")" :: qs' ∧ Settles false ps qs' := by
  generalize hps : Piece.word ")" :: ps = ps' at h
  cases h with
  | closed h =>
    cases hps
    exact ⟨_, rfl, h⟩
  | inner hp h =>
    cases hps
    simp [Piece.IsInner] at hp
  | _ => simp at hps

/-- Whether a group settles as another one, whatever stands around it. -/
def SettlesGroup (g g' : List Piece) : Prop :=
  ∀ (b : Bool) (rest rest' : List Piece), Settles false rest rest' →
    Settles b (writeEqual g ++ rest) (writeEqual g' ++ rest')

/-- Groups that all have to hold settle one by one. -/
theorem settles_joined {gs gs' : List (List Piece)} (h : List.Forall₂ SettlesGroup gs gs') :
    Finishes (joined gs) (writeEqual (joined gs')) := by
  have hmore {gs gs' : List (List Piece)} (h : List.Forall₂ SettlesGroup gs gs') :
      Settles false (writeEqual (gs.flatMap fun g => .op .and :: g))
        (writeEqual (gs'.flatMap fun g => .op .and :: g)) := by
    induction h with
    | nil => exact .nil false
    | cons hg _ ih => simpa [Piece.writeTest] using Settles.op (b := false) (o := .and) (hg _ _ _ ih)
  cases h with
  | nil => exact .nil false
  | cons hg hgs =>
    have hall := hg false _ _ (hmore hgs)
    rwa [← writeEqual_append, ← writeEqual_append] at hall

end SqlCompose.Sql
