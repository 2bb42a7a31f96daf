import SqlCompose.Proofs.Formula.Conjunction
import SqlCompose.Proofs.Formula.Written
import SqlCompose.Proofs.Query.LastWord
import SqlCompose.Proofs.Query.Placeholders
import SqlCompose.Proofs.Query.Silence

/-!
# Queries with any predicates

A walk does not ask whether a predicate is one. A predicate that is a query itself is walked over
like the query around it: its steps say what they say about rows and columns, and where it has
nothing but steps and the table, nothing is written for it. What a query with such predicates is
translated to is said by all steps that the walk comes to, and its condition is empty if and only if
the predicates are silent. Only where no predicate has the table or a step in it, the steps of the
query alone have the word, and the condition is one that can be read back
(`planQuery_framed`).
-/

namespace SqlCompose

/-! ## Silent predicates -/

/-- The predicates of a first step stand in front of those of the others. -/
theorem predicates_cons (s : Link) (steps : List Link) :
    predicates (s :: steps) = s.predicate?.toList ++ predicates steps := by
  unfold predicates
  cases hs : s.predicate? <;> simp [hs]

/-- The predicates of two chains stand one behind the other. -/
theorem predicates_append (steps later : List Link) :
    predicates (steps ++ later) = predicates steps ++ predicates later :=
  List.filterMap_append

/-- A step is silent when the query it extends and its predicate are. -/
theorem isSilent_link (s : Link) (x : Expr) :
    (Expr.call s.op (x :: s.args)).isSilent = (x.isSilent && s.predicate?.all Expr.isSilent) := by
  obtain ⟨op, args, hop⟩ := s
  unfold Link.predicate?
  cases htakes : Query.takesPredicate op with
  | false =>
    rw [Expr.isSilent_step htakes hop]
    simp
  | true =>
    cases args with
    | nil => simp [Expr.isSilent, hop]
    | cons p rest =>
      rw [Expr.isSilent_filter htakes]
      simp

/-- A chain is silent if and only if its predicates are. -/
theorem isSilent_chain (steps : List Link) :
    (chain steps).isSilent = (predicates steps).all Expr.isSilent := by
  induction steps using List.reverseRecOn with
  | nil => rfl
  | append_singleton steps s ih =>
    rw [chain_concat, isSilent_link, ih, predicates_append, predicates_cons, List.all_append]
    cases s.predicate? <;> simp [predicates]

/-- Where there is no table, something is written. -/
theorem Expr.isSilent_of_isPredicate {x : Expr} (h : x.isPredicate = true) :
    x.isSilent = false := by
  fun_induction isSilent x with
  | case1 => cases h
  | case2 operand ih | case3 param body ih => exact ih h
  | case4 op src | case5 op src arg rest =>
    obtain rfl : op = .contains := eq_of_beq h
    rfl
  | _ => rfl

/-- So no predicates are silent, unless there are none. -/
theorem forall_isSilent_iff {ps : List Expr} (hps : ∀ p ∈ ps, p.isPredicate = true) :
    (∀ p ∈ ps, p.isSilent = true) ↔ ps = [] := by
  constructor
  · intro h
    refine List.eq_nil_iff_forall_not_mem.mpr fun p hp => ?_
    have hsilent := h p hp
    rw [Expr.isSilent_of_isPredicate (hps p hp)] at hsilent
    cases hsilent
  · rintro rfl
    simp

/-! ## Layouts of a chain -/

namespace Sql

variable {e : Entity} {steps : List Link} {ps : List Expr} {d d' : Draft}
  {ws : List (Layout Term)}

/-- Whether the condition of a draft consists of layouts, one for each of some predicates. -/
structure Laid (e : Entity) (ps : List Expr) (d : Draft) (ws : List (Layout Term)) : Prop
    extends Conjoined d (ws.map (Layout.pieces false)) where
  plain : ∀ w ∈ ws, w.Plain
  isCondition : ws.map Layout.isCondition = ps.map (Expr.isCondition e)

/-- The empty draft has an empty condition. -/
theorem Laid.empty (e : Entity) : Laid e [] Draft.empty [] :=
  ⟨⟨rfl, rfl, by simp⟩, by simp, rfl⟩

/-- A step with a predicate adds its layout, and another step leaves the layouts alone. What a
step says about rows changes neither the tokens nor the groups. -/
theorem laid_extend {s : Link} (hws : Laid e ps d ws)
    (hp : ∀ p ∈ s.predicate?, p.isPredicate = true ∧ PlainNames e p.columnNames)
    (h : s.extend e d = .ok d') : ∃ ws', Laid e (ps ++ s.predicate?.toList) d' ws' := by
  cases hs : s.predicate? with
  | none =>
    have hcondition := Query.extend_over_none hs h d
    have htokens := congrArg Draft.tokens hcondition
    have hgrouped := congrArg Draft.grouped hcondition
    exact ⟨ws, hws.toConjoined.congr htokens hgrouped, hws.plain, by simpa using hws.isCondition⟩
  | some p =>
    obtain ⟨d₁, hvisit, rfl⟩ := (Query.extend_eq_ok_of_predicate hs).mp h
    obtain ⟨hpredicate, hnames⟩ := hp p hs
    obtain ⟨w, hw, hcondition⟩ := lays_visit hpredicate hnames hvisit
    have hconjoined := hws.toConjoined.concat (w.pieces_ne_nil false) hw.tokens hw.grouped
    refine ⟨ws ++ [w], ?_, ?_, ?_⟩
    · rw [List.map_append]
      exact hconjoined.congr (by cases s.op <;> rfl) (by cases s.op <;> rfl)
    · exact List.forall_mem_append.mpr ⟨hws.plain, List.forall_mem_singleton.mpr hw.plain⟩
    · simp [hws.isCondition, hcondition rfl]

/-- The predicates of a chain are drafted as layouts, one for each. -/
theorem laid_foldlM (hws : Laid e ps d ws)
    (hp : ∀ p ∈ predicates steps, p.isPredicate = true ∧ PlainNames e p.columnNames)
    (h : steps.foldlM (fun d s => s.extend e d) d = .ok d') :
    ∃ ws', Laid e (ps ++ predicates steps) d' ws' := by
  induction steps generalizing ps d ws with
  | nil =>
    cases h
    exact ⟨ws, (List.append_nil ps).symm ▸ hws⟩
  | cons s steps ih =>
    rw [List.foldlM_cons] at h
    obtain ⟨d₁, hs, h⟩ := bind_eq_ok.mp h
    rw [predicates_cons, List.forall_mem_append] at hp
    rw [predicates_cons, ← List.append_assoc]
    obtain ⟨ws₁, hws₁⟩ := laid_extend hws (fun p hmem => hp.1 p (by simpa using hmem)) hs
    exact ih hws₁ hp.2 h

/-- The text of predicates, one or more, is read as a formula, which is a condition if and only if
each of the predicates is one. -/
theorem exists_readFormula_chain {dialect : Dialect} {t : Plan}
    (hp : ∀ p ∈ predicates steps, p.isPredicate = true ∧ PlainNames e p.columnNames)
    (hne : predicates steps ≠ []) (h : dialect.planQuery e (chain steps) = .ok t) :
    ∃ k, dialect.readFormula t.fragment = some k ∧
      (k.isCondition = true ↔ ∀ p ∈ predicates steps, p.isCondition e = true) := by
  obtain ⟨draft, hdraft, rfl⟩ := planQuery_eq_ok.mp h
  obtain ⟨ws, hws⟩ := laid_foldlM (.empty e) hp ((Query.visit_chain steps Draft.empty) ▸ hdraft)
  rw [List.nil_append] at hws
  have hwritten : ws ≠ [] := by
    rintro rfl
    exact hne (List.map_eq_nil_iff.mp hws.isCondition.symm)
  obtain ⟨k, hk, hcondition⟩ := Layout.exists_readFormula (d := dialect) hws.plain hwritten
    hws.tokens (Query.indices_visit hdraft)
  have hall : ws.all Layout.isCondition = (predicates steps).all (Expr.isCondition e) := by
    have hsame := congrArg (fun conditions => conditions.all id) hws.isCondition
    simpa only [List.all_map, Function.id_comp] using hsame
  refine ⟨k, hk, ?_⟩
  rw [hcondition, hall, List.all_eq_true]

end Sql

/-! ## Queries as predicates -/

/-- A query as the predicate of a step has a draft if and only if each of its steps has one. -/
theorem Query.exists_extend_chain {e : Entity} {inner : List Link} :
    (∃ d, (Link.ofPredicate (chain inner)).extend e Draft.empty = .ok d) ↔
      ∀ s ∈ inner, ∃ d, s.extend e Draft.empty = .ok d := by
  have hpredicate : (Link.ofPredicate (chain inner)).predicate? = some (chain inner) := rfl
  rw [exists_extend_iff hpredicate]
  simp only [visit_chain]
  exact exists_foldlM_iff

/-- A query is not refused for being a predicate: it has a plan there if and only if its steps have
one in its place. -/
theorem exists_planQuery_nested {d : Dialect} {e : Entity} {before inner after : List Link} :
    (∃ t, d.planQuery e (chain (before ++ .ofPredicate (chain inner) :: after)) = .ok t) ↔
      ∃ t, d.planQuery e (chain (before ++ inner ++ after)) = .ok t := by
  simp only [exists_planQuery_chain, List.forall_mem_append, List.forall_mem_cons,
    Query.exists_extend_chain, and_assoc]

/-! ## Plans -/

/-- What a plan says about rows and columns is what the last of all steps says that the walk comes
to, and its condition is empty if and only if all predicates are silent. If no predicate has the
table or a step in it, these steps are those of the query, the condition is empty only where no step
has a predicate, and otherwise it is read as a formula, which is a condition if and only if each
predicate is one. A query as a predicate is not refused: its steps are steps that the walk comes
to. -/
theorem planQuery_framed (d : Dialect) (e : Entity) (steps : List Link)
    (hcolumns : ∀ c ∈ e.columns, Sql.IsPlain c.name)
    (hnames : e.columns = [] →
      ∀ p ∈ predicates steps, ∀ name ∈ p.columnNames, Sql.IsPlain name) :
    (∀ t, d.planQuery e (chain steps) = .ok t →
      t.SaysLast d e (chain steps).steps ∧
      (t.fragment = "" ↔ ∀ p ∈ predicates steps, p.isSilent = true) ∧
      ((∀ p ∈ predicates steps, p.isPredicate = true) →
        t.SaysLast d e steps ∧ (t.fragment = "" ↔ predicates steps = []) ∧
        (predicates steps ≠ [] → ∃ k, d.readFormula t.fragment = some k ∧
          (k.isCondition = true ↔ ∀ p ∈ predicates steps, p.isCondition e = true)))) ∧
    ((chain steps).steps = steps ↔ ∀ p ∈ predicates steps, p.steps = []) ∧
    ∀ before inner after, steps = before ++ .ofPredicate (chain inner) :: after →
      ((∃ t, d.planQuery e (chain steps) = .ok t) ↔
        ∃ t, d.planQuery e (chain (before ++ inner ++ after)) = .ok t) := by
  refine ⟨fun t h => ?_, steps_chain_eq_iff, ?_⟩
  · obtain ⟨draft, hdraft, ht⟩ := planQuery_eq_ok.mp h
    have hlast : t.SaysLast d e (chain steps).steps :=
      ht ▸ saysLast_ofDraft (Query.saysLast_visit hdraft)
    have hsilent : t.fragment = "" ↔ ∀ p ∈ predicates steps, p.isSilent = true := by
      rw [← List.all_eq_true, ← isSilent_chain, ← ht]
      exact Dialect.finish_write_eq_empty_iff hdraft
    refine ⟨hlast, hsilent, fun hp => ⟨?_, ?_, fun hne => ?_⟩⟩
    · have hown := steps_chain_eq_iff.mpr fun p hmem => Expr.steps_of_isPredicate (hp p hmem)
      rwa [hown] at hlast
    · exact hsilent.trans (forall_isSilent_iff hp)
    · refine Sql.exists_readFormula_chain (fun p hmem => ⟨hp p hmem, ?_⟩) hne h
      exact Sql.plainNames hcolumns fun hempty => hnames hempty p hmem
  · rintro before inner after rfl
    exact exists_planQuery_nested

open Sample (users)

/-- How many active users are over eighteen. -/
def activeAdults : List Link :=
  [.ofPredicate (.lambda "m" (.column "active")),
    ⟨.count, [.binary .gt (.column "age") (.constant (.int 18))], by decide⟩]

/-- How many active users are over eighteen: two predicates, two groups. -/
theorem planQuery_framed_activeAdults :
    (∀ p ∈ predicates activeAdults, p.isPredicate = true) ∧
    ∃ t k, Dialect.sqlServer.planQuery users (chain activeAdults) = .ok t ∧
      t.fragment = "([active] = @p0) AND ([age] > @p1)" ∧
      t.SaysLast .sqlServer users activeAdults ∧
      Dialect.sqlServer.readFormula t.fragment = some k ∧ k.isCondition = true := by
  have hp : ∀ p ∈ predicates activeAdults, p.isPredicate = true := by decide
  have hplan : ∃ t, Dialect.sqlServer.planQuery users (chain activeAdults) = .ok t ∧
      t.fragment = "([active] = @p0) AND ([age] > @p1)" := ⟨_, rfl, rfl⟩
  obtain ⟨t, ht, hfragment⟩ := hplan
  obtain ⟨hframed, -, -⟩ := planQuery_framed .sqlServer users activeAdults (by decide)
    fun h => absurd h (by decide)
  obtain ⟨-, -, hown⟩ := hframed t ht
  obtain ⟨hlast, -, hread⟩ := hown hp
  obtain ⟨k, hk, hcondition⟩ := hread (by decide)
  exact ⟨hp, t, k, ht, hfragment, hlast, hk, hcondition.mpr (by decide)⟩

/-- The users if there is a first one over eighteen. -/
def ifAdult : List Link :=
  [.ofPredicate (.call .first [.source, .binary .gt (.column "age") (.constant (.int 18))])]

/-- The limit of the query in the predicate becomes that of the query around it. A predicate that is
the table leaves no condition, and one that it is a part of leaves a text that cannot be read. -/
theorem planQuery_ifAdult :
    (∃ t, Dialect.sqlServer.planQuery users (chain ifAdult) = .ok t ∧
      t.fragment = "[age] > @p0" ∧ t.take = some 1 ∧ ¬ t.SaysLast .sqlServer users ifAdult) ∧
    (∃ t, Dialect.sqlServer.planQuery users (chain [.ofPredicate .source]) = .ok t ∧
      t.fragment = "") ∧
    ∃ t, Dialect.sqlServer.planQuery users (chain [.ofPredicate (.unary .not .source)]) = .ok t ∧
      t.fragment = "NOT ()" ∧ Dialect.sqlServer.readFormula t.fragment = none := by
  refine ⟨⟨_, rfl, rfl, rfl, fun h => ?_⟩, ⟨_, rfl, rfl⟩, ⟨_, rfl, rfl, by decide +kernel⟩⟩
  have htake : some (1 : UInt64) = none := h.take
  cases htake

end SqlCompose
