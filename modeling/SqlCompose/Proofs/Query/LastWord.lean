import SqlCompose.Proofs.Query.Chain

/-!
# The last word on rows and columns

A walk comes to the steps of a query, and to those of the queries that its predicates hold
(`Expr.steps`). What a draft says about rows and columns is what the last of all these steps says
(`Query.saysLast_visit`). The steps of a chain are its own if and only if no predicate of it holds a
step (`steps_chain_eq_iff`).
-/

namespace SqlCompose

/-! ## Steps at all depths -/

namespace Expr

/-- The steps that a walk over an expression comes to, in its order. -/
def steps : Expr → List Link
  | .binary _ left right => left.steps ++ right.steps
  | .unary _ operand => operand.steps
  | .lambda _ body => body.steps
  | .call op [src] => if h : op = .contains then [] else src.steps ++ [⟨op, [], h⟩]
  | .call op (src :: arg :: rest) =>
    if h : op = .contains then []
    else src.steps ++ (if Query.takesPredicate op then arg.steps else []) ++ [⟨op, arg :: rest, h⟩]
  | .source | .constant _ | .column _ | .captured _ | .call _ [] | .param _ | .construct _ => []

/-- Where there is no step, the walk comes to none. -/
theorem steps_of_isPredicate {x : Expr} (h : x.isPredicate = true) : x.steps = [] := by
  fun_induction steps x with
  | case1 op left right ihl ihr =>
    obtain ⟨hleft, hright⟩ := Bool.and_eq_true_iff.mp h
    rw [ihl hleft, ihr hright]
    rfl
  | case2 op operand ih | case3 param body ih => exact ih h
  | case5 op src hne | case7 op src arg rest hne => exact absurd (eq_of_beq h) hne
  | _ => rfl

/-- A null holds no step. -/
theorem steps_of_isNull {x : Expr} (h : x.isNull = .ok true) : x.steps = [] := by
  fun_induction isNull x with
  | case1 | case2 => rfl
  | case3 operand ih => exact ih h
  | case4 => cases h

end Expr

/-- The steps in the predicate of a step. -/
def Link.inner (s : Link) : List Link := (s.predicate?.map Expr.steps).getD []

/-- The steps of a query that is extended by one. -/
theorem steps_link (s : Link) (x : Expr) :
    (Expr.call s.op (x :: s.args)).steps = x.steps ++ s.inner ++ [s] := by
  obtain ⟨op, args, hop⟩ := s
  unfold Link.inner Link.predicate?
  cases args with
  | nil => cases htakes : Query.takesPredicate op <;> simp [Expr.steps, hop]
  | cons arg rest => cases htakes : Query.takesPredicate op <;> simp [Expr.steps, hop, htakes]

/-- The steps of a chain, each behind those of its predicate. -/
theorem steps_chain (steps : List Link) :
    (chain steps).steps = steps.flatMap fun s => s.inner ++ [s] := by
  induction steps using List.reverseRecOn with
  | nil => rfl
  | append_singleton steps s ih =>
    rw [chain_concat, steps_link, ih]
    simp

/-- A walk over a chain comes to each of its steps. -/
theorem length_le_length_steps_chain (steps : List Link) :
    steps.length ≤ (chain steps).steps.length := by
  rw [steps_chain]
  induction steps with
  | nil => exact Nat.le_refl _
  | cons s steps ih =>
    rw [List.flatMap_cons, List.length_append, List.length_append, List.length_cons]
    simp only [List.length_singleton]
    omega

/-- A walk over a chain comes to no other steps just when no predicate has steps inside. -/
theorem steps_chain_eq_iff_inner {steps : List Link} :
    (chain steps).steps = steps ↔ ∀ s ∈ steps, s.inner = [] := by
  rw [steps_chain]
  induction steps with
  | nil => simp
  | cons s steps ih =>
    rw [List.flatMap_cons, List.forall_mem_cons]
    constructor
    · -- with one more step it would be longer
      intro h
      have hlonger := length_le_length_steps_chain steps
      have hlength := congrArg List.length h
      rw [steps_chain] at hlonger
      simp only [List.length_append, List.length_cons, List.length_nil] at hlength
      have hinner : s.inner = [] := List.eq_nil_of_length_eq_zero (by omega)
      rw [hinner] at h
      exact ⟨hinner, ih.mp (List.cons_inj_right s |>.mp h)⟩
    · rintro ⟨hinner, hsteps⟩
      rw [hinner, ih.mpr hsteps]
      rfl

/-- A chain has no other steps than its own if and only if its predicates hold none. -/
theorem steps_chain_eq_iff {steps : List Link} :
    (chain steps).steps = steps ↔ ∀ p ∈ predicates steps, p.steps = [] := by
  rw [steps_chain_eq_iff_inner]
  constructor
  · intro h p hp
    obtain ⟨s, hs, hp⟩ := List.mem_filterMap.mp hp
    have hinner := h s hs
    rwa [Link.inner, hp] at hinner
  · intro h s hs
    unfold Link.inner
    cases hp : s.predicate? with
    | none => rfl
    | some p => exact h p (List.mem_filterMap.mpr ⟨s, hs, hp⟩)

/-! ## The last word -/

namespace Query

variable {e : Entity} {d d' : Draft}

/-- What is written before a walk says nothing. -/
theorem SaysLast.after {steps : List Link} {d₁ : Draft} (h : SaysLast e steps d₁ d')
    (hd : d₁.over d = d₁) : SaysLast e steps d d' :=
  (SaysLast.of_over hd).trans h

/-- Nor does what is written behind it. -/
theorem SaysLast.before {steps : List Link} {d₁ : Draft} (h : SaysLast e steps d d₁)
    (hd : d'.over d₁ = d') : SaysLast e steps d d' := by
  simpa using h.trans (SaysLast.of_over hd)

/-- Beginning a comparison says nothing about rows and columns. -/
theorem over_begun (d : Draft) (wrap : Bool) : (d.begun wrap).over d = d.begun wrap := by
  cases wrap <;> rfl

/-- Ending a comparison says nothing about rows and columns. -/
theorem over_ended (d : Draft) (wrap : Bool) : (d.ended wrap).over d = d.ended wrap := by
  cases wrap <;> rfl

/-- Between operands, a sign is written, and parentheses around them. -/
theorem SaysLast.operands {ls rs : List Link} {op : BinaryOp} {wrap : Bool} {d₁ d₂ : Draft}
    (first : SaysLast e ls (d.begun wrap) d₁) (second : SaysLast e rs (d₁.put (.op op)) d₂) :
    SaysLast e (ls ++ rs) d (d₂.ended wrap) := by
  have hfirst := first.after (over_begun d wrap)
  have hsecond := second.after (d := d₁) rfl
  exact hfirst.trans (hsecond.before (over_ended d₂ wrap))

/-- A predicate says nothing. -/
theorem Walked.saysNothing {p : Bool} {x : Expr} (h : Walked e p x d d')
    (hx : x.isPredicate = true) : SaysLast e [] d d' :=
  .of_over (over_eq_of_visit hx (visit_eq_ok.mpr h))

/-- Behind a walk, the last of the steps it came to has said what the draft says about rows and
columns. A null says nothing, so it does not matter that it comes second. -/
theorem Walked.saysLast {p : Bool} {x : Expr} (h : Walked e p x d d') :
    SaysLast e x.steps d d' := by
  induction h with
  | source => exact .of_over rfl
  | constant h => exact (Walked.constant (e := e) h).saysNothing rfl
  | captured hv h => exact (Walked.captured (e := e) hv h).saysNothing rfl
  | column | test | negatedTest => exact .of_over rfl
  | @contains p collection item d d' h =>
    rw [show (Expr.call .contains [collection, item]).steps = [] from Expr.steps_of_isPredicate rfl]
    exact (Walked.contains (p := p) h).saysNothing rfl
  | binary hswap _ _ ihl ihr => exact ihl.operands ihr
  | exchanged hswap _ _ ihr ihl =>
    have hsteps := Expr.steps_of_isNull (isNull_of_swap hswap)
    rw [hsteps] at ihl
    rw [Expr.steps, hsteps]
    simpa using ihr.operands ihl
  | convert _ ih | lambda _ ih => exact ih
  | @not p x d d₁ hnone _ ih =>
    have hoperand : SaysLast e x.steps d d₁ := ih.after rfl
    exact hoperand.before rfl
  | @filter p op src arg rest d d₁ d₂ hop _ _ ih iharg =>
    have hne : op ≠ .contains := by rintro rfl; cases hop
    have hcondition := iharg.after (over_beginFilter d₁ d₁).symm
    have hstep : Says e ⟨op, arg :: rest, hne⟩ d₂ _ :=
      says_afterFilter hop (over_endFilter d₂ d₂ d₁.tokens.isEmpty).symm
    simpa [Expr.steps, hne, hop] using (ih.trans hcondition).trans (.single hstep)
  | @unfiltered p op src d d₁ hop _ ih =>
    have hne : op ≠ .contains := by rintro rfl; cases hop
    have hstep : Says e ⟨op, [], hne⟩ d₁ (afterFilter op d₁) := says_afterFilter hop rfl
    simpa [Expr.steps, hne] using ih.trans (.single hstep)
  | @step p op src args d d₁ d' hop hne _ h ih =>
    have hstep : Says e ⟨op, args, hne⟩ d₁ d' := says_applyStep hop h
    have hsteps : (Expr.call op (src :: args)).steps = src.steps ++ [⟨op, args, hne⟩] := by
      cases args <;> simp [Expr.steps, hop, hne]
    rw [hsteps]
    exact ih.trans (.single hstep)

/-- Of what the steps say that a walk comes to, the last word counts. -/
theorem saysLast_visit {p : Bool} {x : Expr} (h : visit e p x d = .ok d') :
    SaysLast e x.steps d d' :=
  (visit_eq_ok.mp h).saysLast

end Query

end SqlCompose
