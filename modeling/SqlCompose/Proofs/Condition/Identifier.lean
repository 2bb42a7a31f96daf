import SqlCompose.Proofs.Condition.Watch

/-!
# Identifiers of a finished condition

With null tests put in, the text of a condition is that of tokens again, under any unmarked names
(`Sql.Watched.finishChars_chars`). These tokens are read back, so the identifiers of the text are
the names of the condition exactly if no name is exposed in front of an inequality with null that
ends a group (`Sql.Watched.keepsNames_finish`).
-/

namespace SqlCompose

namespace Sql

open NullTest

variable {d : Dialect}

/-! ## Tokens that stay readable -/

/-- What can stand behind a token can stand behind one that runs together with no more. -/
theorem isChain_of_head {a b : Token} (h : b.isOperand = true → a.isOperand = true)
    {ts : List Token} (hchain : (a :: ts).IsChain Token.Follows) :
    (b :: ts).IsChain Token.Follows := by
  cases ts with
  | nil => exact .singleton b
  | cons t ts =>
    obtain ⟨hfollows, hrest⟩ := List.isChain_cons_cons.mp hchain
    exact .cons_cons (fun hb => hfollows (h hb)) hrest

/-- Behind written tests no token runs together with the one in front of it, and no comparison of
their kind has a null operand. -/
theorem isChain_writeTests {o : BinaryOp} {word : String}
    (hbreak : (Token.word word).isBreak = true) {a : Token} {ts : List Token}
    (hnull : a = .op o → ts.head? ≠ some .null) (h : (a :: ts).IsChain Token.Follows) :
    (a :: writeTests o word ts).IsChain fun a b => a.Follows b ∧ (a = .op o → b ≠ .null) := by
  fun_induction writeTests o word ts generalizing a with
  | case1 o' ts ih =>
    obtain ⟨hop, hrest⟩ := List.isChain_cons_cons.mp h
    obtain ⟨-, hrest⟩ := List.isChain_cons_cons.mp hrest
    by_cases ho : o' = o
    · rw [if_pos ho]
      refine .cons_cons ⟨fun _ => hbreak, by simp⟩ (ih (by simp) ?_)
      exact isChain_of_head (fun _ => rfl) hrest
    · rw [if_neg ho]
      have hnull : (Token.op o').Follows .null := by simp [Token.Follows, Token.isOperand]
      refine .cons_cons ⟨hop, by simp⟩ (.cons_cons ⟨hnull, fun heq => ?_⟩ (ih (by simp) hrest))
      exact absurd (Token.op.inj heq) ho
  | case2 t ts hne ih =>
    obtain ⟨hfollows, hrest⟩ := List.isChain_cons_cons.mp h
    refine .cons_cons ⟨hfollows, fun ha hb => hnull ha (by rw [hb]; rfl)⟩ (ih ?_ hrest)
    intro ht hhead
    obtain ⟨rest, rfl⟩ := List.head?_eq_some_iff.mp hhead
    exact hne o rest ht rfl
  | case3 => exact .singleton a

/-- Settling names keeps tokens from running together. -/
theorem isChain_settleNames {b : Bool} {a : Token} {ts : List Token}
    (h : (a :: ts).IsChain Token.Follows) : (a :: settleNames b ts).IsChain Token.Follows := by
  have hbreak : (Token.word " IS NULL").isBreak = true := by decide
  fun_induction settleNames b ts generalizing a with
  | case1 ts ih =>
    obtain ⟨-, hrest⟩ := List.isChain_cons_cons.mp h
    obtain ⟨-, hrest⟩ := List.isChain_cons_cons.mp hrest
    exact .cons_cons (fun _ => hbreak) (ih (isChain_of_head (fun _ => rfl) hrest))
  | case2 b name ts name' hname ih =>
    obtain ⟨hfollows, hrest⟩ := List.isChain_cons_cons.mp h
    exact .cons_cons hfollows (ih (isChain_of_head (fun _ => rfl) hrest))
  | case3 b name ts hname ih =>
    obtain ⟨hfollows, hrest⟩ := List.isChain_cons_cons.mp h
    exact .cons_cons hfollows (ih hrest)
  | case4 b t ts _ _ ih =>
    obtain ⟨hfollows, hrest⟩ := List.isChain_cons_cons.mp h
    exact .cons_cons hfollows (ih hrest)
  | case5 => exact .singleton a

/-- Writing null as the literal keeps tokens from running together. -/
theorem isChain_namedToken {ts : List Token} (h : ts.IsChain Token.Follows) :
    (ts.map namedToken).IsChain Token.Follows := by
  have hkind (t : Token) : (namedToken t).isOperand = t.isOperand ∧
      (namedToken t).isBreak = t.isBreak := by
    cases t with
    | null => decide
    | _ => exact ⟨rfl, rfl⟩
  refine (List.isChain_map _).mpr (h.imp fun a b hab => ?_)
  unfold Token.Follows
  rw [(hkind a).1, (hkind b).2]
  exact hab

/-! ## Names that stay -/

/-- Writing null tests out changes no name. -/
theorem identNames_writeTests (o : BinaryOp) (word : String) (ts : List Token) :
    identNames (writeTests o word ts) = identNames ts := by
  fun_induction writeTests o word ts with
  | case1 o' ts ih =>
    rw [identNames_append, ih]
    split <;> rfl
  | case2 t ts _ ih =>
    cases t with
    | ident name => rw [identNames_ident, identNames_ident, ih]
    | _ => exact ih
  | case3 => rfl

/-- Writing null as the literal changes no name. -/
theorem identNames_namedToken (ts : List Token) :
    identNames (ts.map namedToken) = identNames ts := by
  induction ts with
  | nil => rfl
  | cons t ts ih =>
    rw [List.map_cons]
    cases t with
    | ident name => exact congrArg (name :: ·) ih
    | _ => exact ih

/-- Whether a name is exposed in front of an inequality with null that ends a group. -/
def exposesName : List Token → Bool
  | .ident name :: ts => closesTest ts && (settledName? name).isSome || exposesName ts
  | _ :: ts => exposesName ts
  | [] => false

/-- A name is exposed in front of an inequality with null only. -/
theorem of_exposesName {ts : List Token} (h : exposesName ts = true) :
    ∃ name ∈ identNames ts, (settledName? name).isSome = true ∧ .op .ne ∈ ts ∧ .null ∈ ts := by
  induction ts with
  | nil => cases h
  | cons t ts ih =>
    have hbehind (hts : exposesName ts = true) : ∃ name ∈ identNames (t :: ts),
        (settledName? name).isSome = true ∧ .op .ne ∈ t :: ts ∧ .null ∈ t :: ts := by
      obtain ⟨name, hname, hsettled, hop, hnull⟩ := ih hts
      refine ⟨name, ?_, hsettled, .tail t hop, .tail t hnull⟩
      exact (identNames_append [t] ts).symm ▸ List.mem_append_right _ hname
    cases t with
    | ident name =>
      rcases Bool.or_eq_true_iff.mp h with hexposed | hts
      · obtain ⟨hcloses, hsettled⟩ := Bool.and_eq_true_iff.mp hexposed
        obtain ⟨n, rest, rfl⟩ := closesTest_eq_true hcloses
        exact ⟨name, by simp, hsettled, by simp, by simp⟩
      · exact hbehind hts
    | param | op | null | truth | word => exact hbehind h

/-- A name without an opening parenthesis is never exposed. -/
theorem not_exposesName_of_noParen {ts : List Token}
    (h : ∀ name ∈ identNames ts, '(' ∉ name.toList) : exposesName ts = false := by
  refine Bool.eq_false_iff.mpr fun hexposed => ?_
  obtain ⟨name, hname, hsettled, -⟩ := of_exposesName hexposed
  obtain ⟨name', hname'⟩ := Option.isSome_iff_exists.mp hsettled
  obtain ⟨⟨outside, operand⟩, hsole, -⟩ := Option.map_eq_some_iff.mp hname'
  refine h name hname ?_
  rw [(of_soleOperand_eq_some hsole).1]
  simp

/-- A name that is settled is changed by it. -/
theorem settledName?_ne {name name' : String} (h : settledName? name = some name') :
    name' ≠ name := by
  obtain ⟨⟨outside, operand⟩, hsole, rfl⟩ := Option.map_eq_some_iff.mp h
  intro heq
  have hlength := congrArg (fun s => s.toList.length) heq
  simp [(of_soleOperand_eq_some hsole).1] at hlength
  omega

/-- Where no name is exposed, settling leaves the names alone. -/
theorem settleNames_of_not_exposed {ts : List Token} (h : exposesName ts = false) :
    settleNames false ts = ts := by
  induction ts with
  | nil => rfl
  | cons t ts ih =>
    cases t with
    | ident name =>
      obtain ⟨hname, hts⟩ := Bool.or_eq_false_iff.mp h
      have hstay : (if closesTest ts then settledName? name else none) = none := by
        rw [ite_eq_right_iff]
        intro hcloses
        simpa [hcloses] using hname
      rw [settleNames, hstay]
      exact congrArg _ (ih hts)
    | param | op | null | truth | word => exact congrArg _ (ih h)

/-- Settling leaves the names alone only where none is exposed. -/
theorem identNames_settleNames {b : Bool} {ts : List Token}
    (h : identNames (settleNames b ts) = identNames ts) : exposesName ts = false := by
  fun_induction settleNames b ts with
  | case1 ts ih => exact ih h
  | case2 b name ts name' hname ih =>
    obtain ⟨-, hsettled⟩ : closesTest ts = true ∧ settledName? name = some name' := by
      simpa using hname
    exact absurd (List.cons.inj h).1 (settledName?_ne hsettled)
  | case3 b name ts hname ih =>
    have hstay : (closesTest ts && (settledName? name).isSome) = false := by
      cases hcloses : closesTest ts with
      | false => rfl
      | true => simpa [hcloses] using hname
    rw [exposesName, hstay]
    exact ih (List.cons.inj h).2
  | case4 b t ts _ hident ih =>
    rw [identNames_cons fun name => hident name, identNames_cons fun name => hident name] at h
    cases t with
    | ident name => exact absurd rfl (hident name)
    | _ => exact ih h
  | case5 => rfl

/-- Settling a name puts no mark of null into it. The mark holds neither the second letter of the
word nor the parenthesis. -/
theorem isUnmarked_settledName? {name name' : String} (h : settledName? name = some name')
    (hname : IsUnmarked name.toList) : IsUnmarked name'.toList := by
  obtain ⟨⟨outside, operand⟩, hsole, rfl⟩ := Option.map_eq_some_iff.mp h
  rw [(of_soleOperand_eq_some hsole).1] at hname
  have hlist : (String.ofList (outside ++ "NOT (".toList ++ operand)).toList =
      (outside ++ ['N']) ++ 'O' :: ("T ".toList ++ '(' :: operand) := by simp
  show IsUnmarked (String.ofList (outside ++ "NOT (".toList ++ operand)).toList
  rw [hlist]
  intro hmark
  rcases Text.infix_append_cons (by decide) hmark with hin | hin
  · rcases List.infix_concat_iff.mp hin with hsuffix | hin
    · rw [← List.reverse_prefix, List.reverse_append] at hsuffix
      have hreverse : nullMark.toList.reverse = '>' :: "LLUN<".toList := by decide
      rw [hreverse] at hsuffix
      exact absurd (List.cons_prefix_cons.mp hsuffix).1 (by decide)
    · exact hname (hin.trans (List.prefix_append _ _).isInfix)
  · rcases Text.infix_append_cons (by decide) hin with hin | hin
    · exact absurd hin (by decide)
    · exact hname (hin.trans ((List.suffix_cons _ _).trans (List.suffix_append _ _)).isInfix)

/-- Settling names keeps tokens unmarked. -/
theorem unmarked_settleNames {b : Bool} {ts : List Token} (h : ∀ t ∈ ts, Unmarked t) :
    ∀ t ∈ settleNames b ts, Unmarked t := by
  fun_induction settleNames b ts with
  | case1 ts ih =>
    have hword : " IS NULL" ∈ conditionWords := by decide
    have hts := (List.forall_mem_cons.mp (List.forall_mem_cons.mp h).2).2
    exact List.forall_mem_cons.mpr ⟨hword, ih hts⟩
  | case2 b name ts name' hname ih =>
    obtain ⟨hunmarked, hts⟩ := List.forall_mem_cons.mp h
    obtain ⟨-, hsettled⟩ : closesTest ts = true ∧ settledName? name = some name' := by
      simpa using hname
    exact List.forall_mem_cons.mpr ⟨isUnmarked_settledName? hsettled hunmarked, ih hts⟩
  | case3 b name ts hname ih | case4 b name ts _ _ ih =>
    obtain ⟨hunmarked, hts⟩ := List.forall_mem_cons.mp h
    exact List.forall_mem_cons.mpr ⟨hunmarked, ih hts⟩
  | case5 => exact h

/-! ## Finished tokens -/

/-- A test for absence is watched like the equality that it is written for. -/
theorem run_writeTests (w : Watch) (ts : List Token) :
    w.run (writeTests .eq " IS NULL" ts) = w.run ts := by
  fun_induction writeTests .eq " IS NULL" ts generalizing w with
  | case1 o ts ih =>
    by_cases ho : o = .eq
    · subst ho
      have hstep : w.run (.op .eq :: .null :: ts) = w.run (.word " IS NULL" :: ts) := by
        cases w <;> rfl
      rw [if_pos rfl, hstep, List.singleton_append, Watch.run_cons, Watch.run_cons]
      simp only [ih]
    · rw [if_neg ho]
      show w.run ([Token.op o, .null] ++ _) = w.run ([Token.op o, .null] ++ _)
      rw [Watch.run_append, Watch.run_append]
      simp only [ih]
  | case2 t ts _ ih =>
    rw [Watch.run_cons, Watch.run_cons]
    simp only [ih]
  | case3 => rfl

/-- Tokens with their null tests, as the passes over the text put them in. -/
def nullTests (ts : List Token) : List Token :=
  (writeTests .ne " IS NOT NULL" (settleNames false (writeTests .eq " IS NULL" ts))).map namedToken

/-- Tokens with their null tests, whatever the names look like. -/
def plainNullTests (ts : List Token) : List Token :=
  (writeTests .ne " IS NOT NULL" (writeTests .eq " IS NULL" ts)).map namedToken

/-- Tokens of a condition under unmarked names, in which no group is one inequality with null
alone. -/
structure Watched (ts : List Token) : Prop where
  chain : ts.IsChain Token.Follows
  unmarked : ∀ t ∈ ts, Unmarked t
  run : Watch.run .free ts ≠ none

end Sql

/-- Whether the text of a condition has the names of tokens as its identifiers, and their null tests
whatever the names look like. -/
structure Dialect.KeepsNames (d : Dialect) (text : String) (ts : List Token) : Prop where
  names : d.identifiers text = identNames ts
  tests : text = d.write (Sql.plainNullTests ts)

namespace Sql.Watched

open NullTest

variable {d : Dialect} {ts : List Token}

/-- Watched tokens are settleable once their tests for absence are written out. -/
theorem settleable (h : Watched ts) : Settleable (writeTests .eq " IS NULL" ts) where
  chain := by
    have hcons : (Token.op .and :: ts).IsChain Token.Follows :=
      List.isChain_cons.mpr ⟨fun _ _ => nofun, h.chain⟩
    have hbreak : (Token.word " IS NULL").isBreak = true := by decide
    exact (isChain_writeTests (o := .eq) hbreak (fun heq => by cases heq) hcons).of_cons
  unmarked := unmarked_writeTests (by decide) h.unmarked

/-- Watched tokens stay unmarked while their names are settled. -/
theorem unmarked_settled (h : Watched ts) :
    ∀ t ∈ settleNames false (writeTests .eq " IS NULL" ts), Unmarked t :=
  unmarked_settleNames h.settleable.unmarked

/-- Watched tokens stay unmarked once all their null tests are written out. -/
theorem unmarked_written (h : Watched ts) : ∀ t ∈ writeTests .ne " IS NOT NULL"
    (settleNames false (writeTests .eq " IS NULL" ts)), Unmarked t :=
  unmarked_writeTests (by decide) h.unmarked_settled

/-- The text of a condition with its null tests is that of the finished tokens. -/
theorem finishChars_chars (h : Watched ts) : finishChars (d.chars ts) = d.chars (nullTests ts) := by
  have hequal := replaceAll_chars (d := d) (o := .eq) rfl " IS NULL" h.unmarked
  have hrun : Watch.run .free (writeTests .eq " IS NULL" ts) ≠ none := by
    rw [run_writeTests]
    exact h.run
  have hsettle := settleGroups_chars (d := d) h.settleable hrun
  have hdiffer := replaceAll_chars (d := d) (o := .ne) rfl " IS NOT NULL" h.unmarked_settled
  show Text.replaceAll _ _ (Text.replaceAll (nullPhrase .ne) _
    (settleGroups (Text.replaceAll (nullPhrase .eq) _ (d.chars ts)))) = _
  rw [hequal, hsettle, hdiffer, nameNulls_chars h.unmarked_written, nullTests]

/-- The finished tokens are read back one after the other. -/
theorem readable (h : Watched ts) : d.Readable (nullTests ts) where
  chain := by
    have hcons : (Token.op .and :: writeTests .eq " IS NULL" ts).IsChain Token.Follows :=
      List.isChain_cons.mpr ⟨fun _ _ => nofun, h.settleable.chain.imp fun _ _ hab => hab.1⟩
    have hbreak : (Token.word " IS NOT NULL").isBreak = true := by decide
    have hwritten := isChain_writeTests (o := .ne) hbreak (fun heq => by cases heq)
      (isChain_settleNames (b := false) hcons)
    exact isChain_namedToken (hwritten.of_cons.imp fun _ _ hab => hab.1)
  clean := by
    intro t ht
    obtain ⟨u, hu, rfl⟩ := List.mem_map.mp ht
    have hunmarked := h.unmarked_written u hu
    have hwords : ∀ word ∈ conditionWords, d.IsClean word.toList := by cases d <;> decide
    cases u with
    | null => exact hwords nullWord (by decide)
    | word text => exact hwords text hunmarked
    | ident | param | op | truth => trivial

/-- The identifiers of a finished condition are its names, and its null tests those that were
written, exactly if no name is exposed. -/
theorem keepsNames_finish (h : Watched ts) : d.KeepsNames (NullTest.finish (d.write ts)) ts ↔
    exposesName (writeTests .eq " IS NULL" ts) = false := by
  have hfinish : NullTest.finish (d.write ts) = d.write (nullTests ts) := by
    rw [NullTest.finish, Dialect.toList_write, h.finishChars_chars, ← Dialect.toList_write,
      String.ofList_toList]
  have hidentifiers : d.identifiers (NullTest.finish (d.write ts)) =
      identNames (settleNames false (writeTests .eq " IS NULL" ts)) := by
    rw [hfinish, Dialect.identifiers_write h.readable, nullTests, identNames_namedToken,
      identNames_writeTests]
  constructor
  · intro hkeeps
    refine identNames_settleNames (b := false) ?_
    rw [← hidentifiers, hkeeps.names, identNames_writeTests]
  · intro hexposed
    have hsettled := settleNames_of_not_exposed hexposed
    refine ⟨?_, ?_⟩
    · rw [hidentifiers, hsettled, identNames_writeTests]
    · rw [hfinish, nullTests, hsettled, plainNullTests]

end Sql.Watched

end SqlCompose
