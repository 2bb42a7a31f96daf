import SqlCompose.Proofs.Condition.Exposed

/-!
# Groups settled under any names

A watch reads the tokens of a condition and stops where a group of the condition is one inequality
with null alone (`Sql.Watch.run`). Where it does not stop, settling the groups changes nothing but
exposed names in front of an inequality with null that ends a group (`Sql.settleGroups_chars`).
-/

namespace SqlCompose.Sql

open Text (NoneBegins)
open NullTest
open Dialect (groupEnd)

variable {d : Dialect}

/-! ## Settled names -/

/-- Whether tokens go on with tests for absence, then an inequality with null that ends a group. -/
def closesTest : List Token → Bool
  | .word text :: ts => text == " IS NULL" && closesTest ts
  | .op .ne :: .null :: .word text :: _ => text == ")"
  | _ => false

/-- Tokens with exposed names settled. The flag says that the next inequality with null stands
behind such a name. -/
def settleNames : Bool → List Token → List Token
  | true, .op .ne :: .null :: ts => .word " IS NULL" :: settleNames false ts
  | b, .ident name :: ts =>
    match if closesTest ts then settledName? name else none with
    | some name' => .ident name' :: settleNames true ts
    | none => .ident name :: settleNames b ts
  | b, t :: ts => t :: settleNames b ts
  | _, [] => []

/-- Tests for absence, one behind the other. -/
def absences (n : Nat) : List Token := List.replicate n (.word " IS NULL")

/-- One more test for absence stands in front. -/
theorem absences_succ (n : Nat) : absences (n + 1) = .word " IS NULL" :: absences n := rfl

/-- Tokens that go on so are tests for absence, an inequality with null and the end of a group. -/
theorem closesTest_eq_true {ts : List Token} (h : closesTest ts = true) :
    ∃ n rest, ts = absences n ++ Token.op .ne :: .null :: .word ")" :: rest := by
  fun_induction closesTest ts with
  | case1 text ts ih =>
    obtain ⟨htext, hts⟩ := Bool.and_eq_true_iff.mp h
    obtain ⟨n, rest, rfl⟩ := ih hts
    obtain rfl := eq_of_beq htext
    exact ⟨n + 1, rest, rfl⟩
  | case2 text rest =>
    obtain rfl := eq_of_beq h
    exact ⟨0, rest, rfl⟩
  | case3 => cases h

/-- Tests for absence in between do not keep a name from being settled. -/
theorem settleNames_absences (n : Nat) (ts : List Token) :
    settleNames true (absences n ++ .op .ne :: .null :: ts) =
      absences n ++ .word " IS NULL" :: settleNames false ts := by
  induction n with
  | zero => rfl
  | succ n ih =>
    show settleNames true (.word " IS NULL" :: (absences n ++ _)) =
      .word " IS NULL" :: (absences n ++ _)
    rw [← ih]
    rfl

/-! ## The watch -/

/-- What has been read of the group that is open last. -/
inductive Watch where
  /-- Nothing that could be settled. -/
  | free
  /-- A parenthesis that opens, and no operator behind it. -/
  | group
  /-- An equality behind that. -/
  | equal
  /-- An inequality behind that. -/
  | unequal
  /-- An inequality with null behind that. -/
  | tested
deriving DecidableEq, Repr

namespace Watch

/-- Read a token where nothing could be settled. -/
def begin : Token → Option Watch
  | .word text =>
    if text = "(" ∨ text = " IN (" then some .group
    else if text = "NOT (" ∨ text = ")" ∨ text = " IS NULL" then some .free
    else none
  | _ => some .free

/-- Read a token; a group that is one inequality with null alone must not end. -/
def step : Watch → Token → Option Watch
  | .group, .op .eq => some .equal
  | .group, .op .ne => some .unequal
  | .group, .word text =>
    if text = ", " ∨ text = " IS NULL" then some .group else begin (.word text)
  | .group, .op _ => some .free
  | .group, _ => some .group
  | .equal, .null => some .group
  | .unequal, .null => some .tested
  | .tested, .word text => if text = ")" then none else begin (.word text)
  | _, t => begin t

/-- Read tokens. -/
def run (w : Watch) (ts : List Token) : Option Watch := ts.foldlM step w

@[simp] theorem run_nil (w : Watch) : w.run [] = some w := rfl

/-- A watch reads the first token and then the others. -/
theorem run_cons (w : Watch) (t : Token) (ts : List Token) :
    w.run (t :: ts) = (w.step t).bind fun w' => w'.run ts := rfl

/-- A watch reads tokens one after the other. -/
theorem run_append (w : Watch) (a b : List Token) :
    w.run (a ++ b) = (w.run a).bind fun w' => w'.run b := List.foldlM_append

/-- Where nothing could be settled, a token begins anew. -/
theorem step_free (t : Token) : step .free t = begin t := by cases t <;> rfl

/-- Where nothing could be settled, a word opens a group or is one of those that are read without
opening any. -/
theorem begin_word {text : String} {w : Watch} (h : begin (.word text) = some w) :
    (text = "(" ∨ text = " IN (") ∧ w = .group ∨
      (text = "NOT (" ∨ text = ")" ∨ text = " IS NULL") ∧ w = .free := by
  by_cases hopen : text = "(" ∨ text = " IN ("
  · rw [begin, if_pos hopen] at h
    exact .inl ⟨hopen, (Option.some.inj h).symm⟩
  · rw [begin, if_neg hopen] at h
    by_cases hfree : text = "NOT (" ∨ text = ")" ∨ text = " IS NULL"
    · rw [if_pos hfree] at h
      exact .inr ⟨hfree, (Option.some.inj h).symm⟩
    · rw [if_neg hfree] at h
      cases h

/-- Where a run does not stop, the first step does not. -/
theorem step_ne_none {w : Watch} {t : Token} {ts : List Token} (h : w.run (t :: ts) ≠ none) :
    ∃ w', w.step t = some w' ∧ w'.run ts ≠ none := by
  rw [run_cons] at h
  cases hstep : w.step t with
  | none =>
    rw [hstep] at h
    exact absurd rfl h
  | some w' =>
    rw [hstep] at h
    exact ⟨w', rfl, h⟩

/-- Behind an operator that no null operand follows, nothing could be settled. -/
theorem run_free_of_equal {ts : List Token} (h : run .equal ts ≠ none)
    (hnull : ts.head? ≠ some .null) : run .free ts ≠ none := by
  cases ts with
  | nil => simp
  | cons t ts =>
    cases t with
    | null => simp at hnull
    | ident | param | op | truth | word => exact h

/-- Tokens that a watch reads inside an inequality it reads where nothing could be settled. -/
theorem run_free_of_unequal {ts : List Token} (h : run .unequal ts ≠ none) :
    run .free ts ≠ none := by
  cases ts with
  | nil => simp
  | cons t ts =>
    cases t with
    | null =>
      cases ts with
      | nil => simp [run_cons, step, begin]
      | cons t ts =>
        cases t with
        | word text =>
          have hend : text ≠ ")" := by
            rintro rfl
            exact h rfl
          simpa [run_cons, step, begin, hend] using h
        | ident | param | op | truth | null => exact h
    | ident | param | op | truth | word => exact h

end Watch

/-! ## Settling from what waits -/

/-- Tokens of a condition whose equalities with null have been written out. -/
structure Settleable (ts : List Token) : Prop where
  chain : ts.IsChain fun a b => a.Follows b ∧ (a = .op .eq → b ≠ .null)
  unmarked : ∀ t ∈ ts, Unmarked t

namespace Settleable

variable {t : Token} {ts : List Token}

/-- Settleable tokens are settleable without the first one. -/
theorem of_cons (h : Settleable (t :: ts)) : Settleable ts :=
  ⟨h.chain.of_cons, (List.forall_mem_cons.mp h.unmarked).2⟩

/-- The last of settleable tokens are settleable on their own. -/
theorem of_append {a : List Token} (h : Settleable (a ++ ts)) : Settleable ts :=
  ⟨(List.isChain_append.mp h.chain).2.1, fun t ht => h.unmarked t (List.mem_append_right a ht)⟩

/-- The first of settleable tokens is unmarked. -/
theorem head (h : Settleable (t :: ts)) : Unmarked t := h.unmarked t (by simp)

/-- The words of settleable tokens are those of conditions. -/
theorem knownWord (h : Settleable ts) : ∀ t ∈ ts, KnownWord t :=
  fun t ht => (h.unmarked t ht).knownWord

/-- Behind an operand a token stands that breaks. -/
theorem isBreak_of_isOperand (h : Settleable (t :: ts)) (ht : t.isOperand = true) :
    ∀ u, ts.head? = some u → u.isBreak = true := by
  intro u hu
  obtain ⟨rest, rfl⟩ := List.head?_eq_some_iff.mp hu
  exact (List.isChain_cons_cons.mp h.chain).1.1 ht

end Settleable

/-- No group ends in a token but in an inequality with null in front of a closing parenthesis. -/
theorem noneBegins_groupEnd_token {t : Token} {ts : List Token} (h : Settleable (t :: ts))
    (hend : t = .op .ne → ¬ [.null, .word ")"] <+: ts) :
    NoneBegins groupEnd (d.tokenText t).toList (d.chars ts) := by
  have hknown := h.of_cons.knownWord
  by_cases htest : t = .op .ne ∧ ts.head? = some .null
  · obtain ⟨rfl, hnull⟩ := htest
    obtain ⟨rest, rfl⟩ := List.head?_eq_some_iff.mp hnull
    have hclose : ¬ [')'] <+: d.chars rest := by
      refine not_prefix_of_head? fun hhead => ?_
      have hfirst := head_chars (List.forall_mem_cons.mp hknown).2 hhead (by simp)
      obtain ⟨tail, rfl⟩ := List.head?_eq_some_iff.mp (show rest.head? = _ by simpa using hfirst)
      exact hend rfl ⟨tail, rfl⟩
    simpa [groupEnd, differsFromNull, BinaryOp.text, BinaryOp.word, nullMark, Dialect.tokenText]
      using hclose
  · refine (noneBegins_token rfl h.head hknown ?_).longer [')']
    exact fun ht hnull => htest ⟨ht, hnull⟩

/-- A text is settled apart from tokens in front of it that no group depends on. -/
theorem settleFrom_cons {t : Token} {ts : List Token} (h : Settleable (t :: ts))
    (hend : t = .op .ne → ¬ [.null, .word ")"] <+: ts) (p : List Char) :
    settleFrom p (d.chars (t :: ts)) = settleFrom (p ++ (d.tokenText t).toList) (d.chars ts) := by
  rw [Dialect.chars_cons, settleFrom_append (noneBegins_groupEnd_token h hend)]

/-- An inequality with null that ends a parenthesis is the end of a group. -/
theorem chars_groupEnd (ts : List Token) :
    d.chars (.op .ne :: .null :: .word ")" :: ts) = groupEnd ++ d.chars ts := by
  simp [groupEnd, differsFromNull, Dialect.tokenText]

/-- What waits in front of a break need not wait, unless a group ends there. -/
theorem settleFrom_waiting {p : List Char} (hp : Apart p) {ts : List Token} (h : Settleable ts)
    (hbreak : ∀ t, ts.head? = some t → t.isBreak = true) (hrun : Watch.run .free ts ≠ none)
    (hcloses : closesTest ts = false) :
    settleFrom p (d.chars ts) = p ++ settleFrom [] (d.chars ts) := by
  induction ts generalizing p with
  | nil => simp [settleFrom_nil]
  | cons t ts ih =>
    have ht := hbreak t rfl
    cases t with
    | op op =>
      have hend : Token.op op = .op .ne → ¬ [.null, .word ")"] <+: ts := by
        rintro ⟨⟩ ⟨rest, rfl⟩
        cases hcloses
      rw [settleFrom_cons h hend, settleFrom_cons h hend, Dialect.tokenText, settleFrom_op,
        settleFrom_op, List.append_assoc, List.nil_append]
    | word text =>
      have hcons (p : List Char) := settleFrom_cons (d := d) h (by simp) p
      rw [hcons, hcons, Dialect.tokenText, List.nil_append]
      by_cases habsent : text = " IS NULL"
      · subst habsent
        have hwaiting {p : List Char} (hp : Apart p) :=
          ih hp h.of_cons (h.isBreak_of_isOperand (by decide)) hrun hcloses
        have hends : endsApart " IS NULL".toList = true := by decide
        have hapart : Apart " IS NULL".toList := apart_append hends []
        rw [hwaiting (apart_append hends p), hwaiting hapart, List.append_assoc]
      · obtain ⟨w, hstep, -⟩ := Watch.step_ne_none hrun
        rw [Watch.step_free] at hstep
        rcases Watch.begin_word hstep with ⟨rfl | rfl, -⟩ | ⟨rfl | rfl | rfl, -⟩
        · cases ht
        · exact settleFrom_detach (settleGroup_restart hp (by decide)) _
        · cases ht
        · have hclosed := settleFrom_closed [] (d.chars ts)
          rw [List.nil_append] at hclosed
          rw [settleFrom_closed, hclosed, List.append_assoc]
        · exact absurd rfl habsent
    | ident | param | null | truth => cases ht

/-! ## Settling token by token -/

/-- Whether settling the groups of tokens settles their names, from nothing that waits, and behind
anything that waits for the end of a group. -/
structure SettlesNames (d : Dialect) (ts : List Token) : Prop where
  free : Watch.run .free ts ≠ none → settleFrom [] (d.chars ts) = d.chars (settleNames false ts)
  group : Watch.run .group ts ≠ none → ∀ p,
    settleFrom p (d.chars ts) = p ++ d.chars (settleNames false ts)

/-- A parameter, a null operand and a truth value hold no parenthesis. -/
theorem noParen_operand {t : Token}
    (ht : (∃ index, t = .param index) ∨ t = .null ∨ ∃ b, t = .truth b) :
    endsApart (d.tokenText t).toList = true ∧ NoParen (d.tokenText t).toList := by
  have hpiece {p : Piece} (hplain : p.Plain) (hinner : p.IsInner) :
      endsApart (pieceText d p) = true ∧ NoParen (pieceText d p) :=
    ⟨endsApart_of_isInner hplain hinner, noParen_of_isInner hplain hinner⟩
  rcases ht with ⟨index, rfl⟩ | rfl | ⟨b, rfl⟩
  · simpa [pieceText, Piece.tokens, Term.token] using
      @hpiece (.term (.param index)) trivial trivial
  · simpa [pieceText, Piece.tokens, Term.token] using @hpiece (.term .null) trivial trivial
  · simpa [pieceText, Piece.tokens] using @hpiece (.truth b) trivial trivial

/-- Tokens that a watch reads behind an opening parenthesis do not end an inequality with null at
once. -/
theorem closesTest_of_group {ts : List Token} (h : Watch.run .group ts ≠ none) :
    closesTest ts = false := by
  rw [Bool.eq_false_iff]
  intro hcloses
  obtain ⟨n, rest, rfl⟩ := closesTest_eq_true hcloses
  induction n with
  | zero => exact h rfl
  | succ n ih => exact ih h (by simpa [absences, List.replicate_succ, closesTest] using hcloses)

/-- Behind anything that waits for the end of a group. What does not end the group waits with it. -/
theorem settleFrom_group {t : Token} {ts : List Token} (h : Settleable (t :: ts))
    (hrun : Watch.run .group (t :: ts) ≠ none) (ih : SettlesNames d ts) (p : List Char) :
    settleFrom p (d.chars (t :: ts)) = p ++ d.chars (settleNames false (t :: ts)) := by
  obtain ⟨w, hstep, hrest⟩ := Watch.step_ne_none hrun
  have hwait (hw : w = .group) (hnot : t ≠ .op .ne)
      (hnames : settleNames false (t :: ts) = t :: settleNames false ts) :
      settleFrom p (d.chars (t :: ts)) = p ++ d.chars (settleNames false (t :: ts)) := by
    rw [settleFrom_cons h (fun heq => absurd heq hnot), ih.group (hw ▸ hrest), hnames,
      Dialect.chars_cons, List.append_assoc]
  cases t with
  | ident name =>
    obtain rfl : .group = w := Option.some.inj hstep
    refine hwait rfl nofun ?_
    rw [settleNames, closesTest_of_group hrest]
    rfl
  | param | null | truth => exact hwait (Option.some.inj hstep).symm nofun rfl
  | op op =>
    have hend : Token.op op = .op .ne → ¬ [.null, .word ")"] <+: ts := by
      rintro ⟨⟩ ⟨rest, rfl⟩
      obtain rfl : .unequal = w := Option.some.inj hstep
      exact hrest rfl
    have hfree : Watch.run .free ts ≠ none := by
      cases op with
      | eq =>
        obtain rfl : .equal = w := Option.some.inj hstep
        refine Watch.run_free_of_equal hrest fun hnull => ?_
        obtain ⟨rest, rfl⟩ := List.head?_eq_some_iff.mp hnull
        exact (List.isChain_cons_cons.mp h.chain).1.2 rfl rfl
      | ne =>
        obtain rfl : .unequal = w := Option.some.inj hstep
        exact Watch.run_free_of_unequal hrest
      | lt | le | gt | ge | and | or =>
        obtain rfl : .free = w := Option.some.inj hstep
        exact hrest
    rw [settleFrom_cons h hend, Dialect.tokenText, settleFrom_op, ih.free hfree,
      List.append_assoc]
    rfl
  | word text =>
    by_cases hinner : text = ", " ∨ text = " IS NULL"
    · rw [Watch.step, if_pos hinner] at hstep
      exact hwait (Option.some.inj hstep).symm (by simp) rfl
    · rw [Watch.step, if_neg hinner] at hstep
      rcases Watch.begin_word hstep with ⟨-, hw⟩ | ⟨hword, rfl⟩
      · exact hwait hw (by simp) rfl
      · rw [settleFrom_cons h (by simp), Dialect.tokenText]
        rcases hword with rfl | rfl | rfl
        · rw [settleFrom_negated, ih.free hrest, List.append_assoc]
          rfl
        · rw [settleFrom_closed, ih.free hrest, List.append_assoc]
          rfl
        · exact absurd (.inr rfl) hinner

/-- Tests for absence are read where nothing could be settled. -/
theorem run_absences (n : Nat) (ts : List Token) :
    Watch.run .free (absences n ++ ts) = Watch.run .free ts := by
  induction n with
  | zero => rfl
  | succ n ih => exact ih

/-- Tests for absence hold only the characters of one. -/
theorem mem_chars_absences {n : Nat} : ∀ c ∈ d.chars (absences n), c ∈ " IS NULL".toList := by
  intro c hc
  obtain ⟨t, ht, hmem⟩ := List.mem_flatMap.mp hc
  rwa [List.eq_of_mem_replicate ht] at hmem

/-- In front of an inequality with null that ends a group, an exposed name is settled. -/
theorem settleFrom_exposed {name name' : String} (hname : settledName? name = some name')
    {n : Nat} {rest : List Token}
    (h : Settleable (.ident name :: (absences n ++ .op .ne :: .null :: .word ")" :: rest))) :
    settleFrom [] (d.chars (.ident name :: (absences n ++ .op .ne :: .null :: .word ")" :: rest))) =
      d.chars (.ident name' :: (absences n ++ [Token.word " IS NULL", .word ")"])) ++
        settleFrom [] (d.chars rest) := by
  have htests (m : Nat) (p : List Char)
      (h : Settleable (absences m ++ .op .ne :: .null :: .word ")" :: rest)) :
      settleFrom p (d.chars (absences m ++ .op .ne :: .null :: .word ")" :: rest)) =
        settleGroup (p ++ d.chars (absences m)) ++ settleFrom [] (d.chars rest) := by
    induction m generalizing p with
    | zero =>
      show settleFrom p (d.chars (.op .ne :: .null :: .word ")" :: rest)) = _
      rw [chars_groupEnd, settleFrom_groupEnd]
      simp [absences]
    | succ m ih =>
      rw [absences_succ, List.cons_append] at h ⊢
      rw [settleFrom_cons h (by simp), ih _ h.of_cons, Dialect.chars_cons, List.append_assoc]
  rw [settleFrom_cons h (by simp), htests n _ h.of_cons, Dialect.tokenText, Dialect.toList_quote,
    List.nil_append, settleGroup_exposed hname mem_chars_absences]
  simp [Dialect.tokenText]

/-- Where nothing waits. -/
theorem settleFrom_free {t : Token} {ts : List Token} (h : Settleable (t :: ts))
    (hrun : Watch.run .free (t :: ts) ≠ none) (ih : ∀ rest, rest <:+ ts → SettlesNames d rest) :
    settleFrom [] (d.chars (t :: ts)) = d.chars (settleNames false (t :: ts)) := by
  obtain ⟨w, hstep, hrest⟩ := Watch.step_ne_none hrun
  have hts := ih ts List.suffix_rfl
  have hoperand (ht : (∃ index, t = .param index) ∨ t = .null ∨ ∃ b, t = .truth b)
      (hw : w = .free) (hnames : settleNames false (t :: ts) = t :: settleNames false ts) :
      settleFrom [] (d.chars (t :: ts)) = d.chars (settleNames false (t :: ts)) := by
    have hnot : t ≠ .op .ne := by rintro rfl; simp at ht
    obtain ⟨hends, hparen⟩ := noParen_operand (d := d) ht
    rw [settleFrom_cons h (fun heq => absurd heq hnot), List.nil_append,
      settleFrom_noParen hends hparen, hts.free (hw ▸ hrest), hnames, Dialect.chars_cons]
  cases t with
  | ident name =>
    obtain rfl : .free = w := Option.some.inj hstep
    cases hname : (if closesTest ts then settledName? name else none) with
    | some name' =>
      obtain ⟨hcloses, hsettled⟩ : closesTest ts = true ∧ settledName? name = some name' := by
        simpa using hname
      obtain ⟨n, rest, rfl⟩ := closesTest_eq_true hcloses
      have hfree : Watch.run .free rest ≠ none := by
        rw [run_absences] at hrest
        exact hrest
      have hrest' := (ih rest ⟨absences n ++ [.op .ne, .null, .word ")"], by simp⟩).free hfree
      rw [settleFrom_exposed hsettled h, hrest', settleNames, hname, settleNames_absences]
      simp [settleNames]
    | none =>
      have hdetach : settleFrom (d.quoteChars name.toList) (d.chars ts) =
          d.quoteChars name.toList ++ settleFrom [] (d.chars ts) := by
        cases hcloses : closesTest ts with
        | true =>
          have hunexposed : soleOperand? name.toList = none := by
            simpa [hcloses, settledName?] using hname
          exact detach_all (settleGroup_unexposed hunexposed) _
        | false =>
          have hends : endsApart (d.quoteChars name.toList) = true :=
            endsApart_concat (by cases d <;> decide) _
          exact settleFrom_waiting (apart_append hends []) h.of_cons (h.isBreak_of_isOperand rfl)
            hrest hcloses
      rw [settleFrom_cons h (by simp), Dialect.tokenText, Dialect.toList_quote, List.nil_append,
        hdetach, hts.free hrest, settleNames, hname, Dialect.chars_cons, Dialect.tokenText,
        Dialect.toList_quote]
  | param index => exact hoperand (.inl ⟨index, rfl⟩) (Option.some.inj hstep).symm rfl
  | null => exact hoperand (.inr (.inl rfl)) (Option.some.inj hstep).symm rfl
  | truth b => exact hoperand (.inr (.inr ⟨b, rfl⟩)) (Option.some.inj hstep).symm rfl
  | op op =>
    obtain rfl : .free = w := Option.some.inj hstep
    by_cases hend : op = .ne ∧ [.null, .word ")"] <+: ts
    · -- a group that is not open here ends
      obtain ⟨rfl, rest, rfl⟩ := hend
      have hrest' := (ih rest ⟨[.null, .word ")"], rfl⟩).free hrest
      show settleFrom [] (d.chars (.op .ne :: .null :: .word ")" :: rest)) =
        d.chars (.op .ne :: .null :: .word ")" :: settleNames false rest)
      rw [chars_groupEnd, chars_groupEnd, settleFrom_groupEnd,
        settleGroup_of_noParen (by simp [NoParen]), hrest', List.nil_append]
    · have hend' : Token.op op = .op .ne → ¬ [.null, .word ")"] <+: ts :=
        fun heq hbegins => hend ⟨Token.op.inj heq, hbegins⟩
      rw [settleFrom_cons h hend', Dialect.tokenText, settleFrom_op, hts.free hrest]
      rfl
  | word text =>
    rw [Watch.step_free] at hstep
    rw [settleFrom_cons h (by simp), Dialect.tokenText]
    rcases Watch.begin_word hstep with ⟨-, rfl⟩ | ⟨rfl | rfl | rfl, rfl⟩
    · rw [hts.group hrest]
      rfl
    · rw [settleFrom_negated, hts.free hrest]
      rfl
    · rw [settleFrom_closed, hts.free hrest]
      rfl
    · rw [List.nil_append, settleFrom_noParen (by decide) (by decide), hts.free hrest]
      rfl

/-- Settling the groups of a condition settles its names, if the watch does not stop. -/
theorem settleGroups_chars {ts : List Token} (h : Settleable ts)
    (hrun : Watch.run .free ts ≠ none) :
    settleGroups (d.chars ts) = d.chars (settleNames false ts) := by
  have hall : ∀ rest, rest <:+ ts → SettlesNames d rest := by
    intro rest
    induction hn : rest.length using Nat.strongRecOn generalizing rest with
    | ind n ih =>
      subst hn
      rintro ⟨front, rfl⟩
      have hsettle := h.of_append
      cases rest with
      | nil =>
        refine ⟨fun _ => settleFrom_nil [], fun _ p => ?_⟩
        simp [settleFrom_nil, settleNames]
      | cons t rest =>
        have hshorter : ∀ tail, tail <:+ rest → SettlesNames d tail := by
          intro tail htail
          refine ih tail.length ?_ tail rfl ?_
          · have := htail.length_le
            simp; omega
          · exact htail.trans ((List.suffix_cons t rest).trans (List.suffix_append front _))
        exact ⟨fun hfree => settleFrom_free hsettle hfree hshorter,
          fun hgroup => settleFrom_group hsettle hgroup (hshorter rest List.suffix_rfl)⟩
  exact (hall ts List.suffix_rfl).free hrun

end SqlCompose.Sql
