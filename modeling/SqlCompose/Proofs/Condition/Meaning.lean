import SqlCompose.Proofs.Condition.Drafting
import SqlCompose.Proofs.Condition.Written
import SqlCompose.Proofs.Query.Placeholders
import SqlCompose.Sample.Users

/-!
# What the condition of a query means

The steps of a query are a chain from its table, and those with a predicate make a clause each: the
draft holds the clauses one after the other (`Sql.Drafted`). The condition of a plan is read back as
their conjunction, so on every row it evaluates to the conjunction of the predicates, unless one of
them hides a null operand (`Sql.readCondition_planQuery`).
-/

namespace SqlCompose.Sql

open Query (visit takesPredicate afterFilter applyStep)

variable {e : Entity}

/-! ## Chains of steps -/

/-- A query: steps from the table outwards, some of them with a predicate. -/
inductive Chain (e : Entity) where
  | source
  | filter (op : Operator) (h : takesPredicate op = true) (chain : Chain e) (p : Filter e)
    (rest : List Expr)
  /-- A step that could have a predicate and has none. -/
  | unfiltered (op : Operator) (h : takesPredicate op = true) (chain : Chain e)
  | step (op : Operator) (h : takesPredicate op = false) (hne : op ≠ .contains) (chain : Chain e)
    (args : List Expr)

namespace Chain

/-- The expression of a query. -/
def toExpr : Chain e → Expr
  | .source => .source
  | .filter op _ chain p rest => .call op (chain.toExpr :: p.toExpr :: rest)
  | .unfiltered op _ chain => .call op [chain.toExpr]
  | .step op _ _ chain args => .call op (chain.toExpr :: args)

/-- The predicates of a query in the order of its steps. -/
def filters : Chain e → List (Filter e)
  | .source => []
  | .filter _ _ chain p _ => chain.filters ++ [p]
  | .unfiltered _ _ chain | .step _ _ _ chain _ => chain.filters

/-- The columns that the predicates of a query name. -/
def names (chain : Chain e) : List String := chain.filters.flatMap Filter.names

end Chain

/-! ## Drafts of clauses -/

/-- Every clause is written. -/
theorem Clause.pieces_ne_nil (nested : Bool) (c : Clause) : c.pieces nested ≠ [] := by
  cases c with
  | connect op a b => cases nested <;> simp [pieces]
  | _ => simp [pieces]

/-- Whether the condition of a draft consists of clauses that stand for some predicates. -/
structure Drafted (ps : List (Filter e)) (d : Draft) (cs : List Clause) : Prop
    extends Conjoined d (cs.map (Clause.pieces false)) where
  plain : ∀ c ∈ cs, c.Plain
  stands : List.Forall₂ (fun c p => c.StandsFor p d.values) cs ps

namespace Drafted

variable {ps : List (Filter e)} {d d' : Draft} {cs : List Clause}

/-- Only tokens, values and groups matter. -/
theorem congr (h : Drafted ps d cs) (ht : d'.tokens = d.tokens) (hv : d'.values = d.values)
    (hg : d'.grouped = d.grouped) : Drafted ps d' cs :=
  ⟨h.toConjoined.congr ht hg, h.plain, hv ▸ h.stands⟩

/-- The condition of a step comes behind what there is. -/
theorem concat (h : Drafted ps d cs) {p : Filter e} {d₁ : Draft} {c : Clause}
    (hc : WrittenAs IsPlain p d.beginFilter d₁ c) :
    Drafted (ps ++ [p]) (d₁.endFilter d.tokens.isEmpty) (cs ++ [c]) := by
  have hconjoined := h.toConjoined.concat (c.pieces_ne_nil false) hc.tokens hc.grouped
  have hvalues : d.values <+: d₁.values := Draft.values_beginFilter d ▸ hc.values
  refine ⟨by simpa using hconjoined, ?_, ?_⟩
  · exact List.forall_mem_append.mpr ⟨h.plain, List.forall_mem_singleton.mpr hc.under⟩
  · have hold := h.stands.imp fun c p hcp => hcp.more hvalues
    rw [Draft.values_endFilter]
    exact List.rel_append hold (.cons hc.stands .nil)

end Drafted

/-- The predicates of a query are drafted as clauses, one for each. -/
theorem drafted_visit {chain : Chain e} (hnames : PlainNames e chain.names) {d : Draft}
    (h : visit e false chain.toExpr .empty = .ok d) : ∃ cs, Drafted chain.filters d cs := by
  induction chain generalizing d with
  | source =>
    rw [Chain.toExpr, visit] at h
    cases h
    exact ⟨[], ⟨rfl, rfl, by simp⟩, by simp, .nil⟩
  | filter op hop chain p rest ih =>
    have hchain : PlainNames e chain.names := fun name hn =>
      hnames name (by simp_all [Chain.names, Chain.filters])
    have hp : PlainNames e p.names := fun name hn =>
      hnames name (by simp [Chain.names, Chain.filters, hn])
    rw [Chain.toExpr, Query.visit_filter _ hop] at h
    obtain ⟨d₁, h₁, h⟩ := bind_eq_ok.mp h
    obtain ⟨d₂, h₂, h⟩ := bind_eq_ok.mp h
    cases h
    obtain ⟨cs, hcs⟩ := ih hchain h₁
    obtain ⟨c, hc⟩ := visit_filter hp h₂
    exact ⟨cs ++ [c], (hcs.concat hc).congr (by cases op <;> rfl) (by cases op <;> rfl)
      (by cases op <;> rfl)⟩
  | unfiltered op hop chain ih =>
    rw [Chain.toExpr, Query.visit_unfiltered _ hop] at h
    obtain ⟨d₁, h₁, h⟩ := bind_eq_ok.mp h
    cases h
    obtain ⟨cs, hcs⟩ := ih hnames h₁
    exact ⟨cs, hcs.congr (by cases op <;> rfl) (by cases op <;> rfl) (by cases op <;> rfl)⟩
  | step op hop hne chain args ih =>
    rw [Chain.toExpr, Query.visit_step _ hop hne] at h
    obtain ⟨d₁, h₁, h⟩ := bind_eq_ok.mp h
    obtain ⟨htokens, hvalues, hgrouped⟩ := Query.applyStep_condition h
    obtain ⟨cs, hcs⟩ := ih hnames h₁
    exact ⟨cs, hcs.congr htokens hvalues hgrouped⟩

/-! ## Plans -/

/-- There is a condition of clauses if there are clauses. -/
theorem exists_clausesCondition (d : Dialect) {cs : List Clause} (hne : cs ≠ []) :
    ∃ k, clausesCondition d cs = some k := by
  match cs with
  | [] => exact absurd rfl hne
  | [c] => exact ⟨_, rfl⟩
  | c :: next :: cs => exact ⟨_, rfl⟩

/-- The condition of a plan means what its predicates mean if a null operand under a function is
overlooked on the left. -/
theorem readCondition_bareTruth {d : Dialect} {chain : Chain e} {t : Plan}
    (hnames : PlainNames e chain.names) (hfilters : chain.filters ≠ [])
    (h : d.planQuery e chain.toExpr = .ok t) :
    ∃ k, d.readCondition t.fragment = some k ∧ ∀ (g : Engine) (row : Record e),
      k.eval g (row.stored d) t.params =
        .all (chain.filters.map fun p => p.bareTruth g d row) := by
  obtain ⟨draft, hdraft, rfl⟩ := planQuery_eq_ok.mp h
  obtain ⟨cs, hcs⟩ := drafted_visit hnames hdraft
  have hne : cs ≠ [] := by
    rintro rfl
    exact hfilters (List.forall₂_nil_left_iff.mp hcs.stands)
  have hindices : pieceIndices (clausePieces cs) =
      List.range (pieceIndices (clausePieces cs)).length := by
    rw [pieceIndices, clausePieces_eq, ← hcs.tokens]
    exact Query.indices_visit hdraft
  have hread := readCondition_clauses (d := d) hcs.plain hne hindices
  rw [clausePieces_eq, ← hcs.tokens] at hread
  obtain ⟨k, hk⟩ := exists_clausesCondition d hne
  refine ⟨k, hread.trans hk, fun g row => ?_⟩
  have hmap : (cs.map fun c => (c.condition d).eval g (row.stored d) (draft.values.map d.param)) =
      chain.filters.map fun p => p.bareTruth g d row :=
    List.forall₂_eq_eq_eq ▸ List.rel_map (fun c p hcp => hcp g d row _ List.prefix_rfl) hcs.stands
  rw [← hmap]
  exact eval_clausesCondition hk

/-- The condition of a plan means the conjunction of its predicates if none of them hides a null
operand. Otherwise the null operand is overlooked, and a sole comparison then means another thing on
every row. -/
theorem readCondition_planQuery {d : Dialect} {e : Entity} {chain : Chain e} {t : Plan}
    (hcolumns : ∀ c ∈ e.columns, IsPlain c.name)
    (hnames : e.columns = [] → ∀ name ∈ chain.names, IsPlain name) (hfilters : chain.filters ≠ [])
    (h : d.planQuery e chain.toExpr = .ok t) :
    ∃ k, d.readCondition t.fragment = some k ∧ ∀ (g : Engine) (row : Record e),
      ((∀ p ∈ chain.filters, p.hidesNull = false) →
        k.eval g (row.stored d) t.params = .all (chain.filters.map fun p => p.truth g d row)) ∧
      k.eval g (row.stored d) t.params = .all (chain.filters.map fun p => p.bareTruth g d row) ∧
      ∀ op hop x y, chain.filters = [.compare op hop x y] →
        (k.eval g (row.stored d) t.params = (Filter.compare op hop x y).truth g d row ↔
          (Filter.compare (e := e) op hop x y).hidesNull = false) := by
  obtain ⟨k, hk, heval⟩ := readCondition_bareTruth (plainNames hcolumns hnames) hfilters h
  refine ⟨k, hk, fun g row => ⟨fun hhides => ?_, heval g row, fun op hop x y hsole => ?_⟩⟩
  · refine (heval g row).trans (congrArg Truth.all (List.map_congr_left fun p hp => ?_))
    exact Filter.bareTruth_eq_truth (hhides p hp) g d row
  · have hvalue : k.eval g (row.stored d) t.params =
        (Filter.compare op hop x y).bareTruth g d row := by
      rw [heval g row, hsole]
      exact Truth.yes_and _
    rw [hvalue]
    refine ⟨fun heq => ?_, fun hhides => Filter.bareTruth_eq_truth hhides g d row⟩
    cases hhides : (Filter.compare (e := e) op hop x y).hidesNull with
    | false => rfl
    | true =>
      obtain ⟨hunknown, hknown⟩ := Filter.bareTruth_compare hhides g d row
      exact absurd (heq ▸ hunknown) hknown

/-! ## A table of users -/

open Sample (users)

/-- How integers compare. -/
def compareIntegers : BinaryOp → Int64 → Int64 → Bool
  | .eq, a, b => a == b
  | .ne, a, b => a != b
  | .lt, a, b => decide (a < b)
  | .le, a, b => decide (a ≤ b)
  | .gt, a, b => decide (b < a)
  | .ge, a, b => decide (b ≤ a)
  | .and, _, _ | .or, _, _ => false

/-- An engine that compares integers, and truth values for equality. -/
def integerEngine : Engine where
  holds
    | op, .int a, .int b => compareIntegers op a b
    | .eq, .bool a, .bool b => a == b
    | _, _, _ => false
  holds_eq_int _ _ := rfl
  holds_eq_bool _ _ := rfl

/-- A user of twenty years who is active. -/
def activeUser : Record users where
  value
    | "email" => .text "a@b.c"
    | "age" => .int 20
    | "active" => .bool true
    | _ => .null
  bool := by
    intro name column hbool hcolumn
    obtain ⟨c, hc, hfind, rfl⟩ := Query.declared_of_columnName (by decide) hcolumn
    have hkind : c.kind = .bool := by simpa [Entity.isBoolColumn, hfind] using hbool
    have hactive : ∀ c ∈ users.columns, c.kind = .bool → c.name = "active" := by decide
    rw [hactive c hc hkind]
    exact .inr ⟨true, rfl⟩

/-- How many active users over eighteen have an address. -/
def adults : Chain users :=
  .filter .count rfl
    (.filter .filter rfl .source
      (.lambda "m" (.and (.column "active" rfl)
        (.compare .gt rfl (.column "age") (.constant (.int 18))))) [])
    (.compare .ne rfl (.constant .null) (.column "email")) []

/-- How many active users over eighteen have an address, on a row that satisfies it. -/
theorem readCondition_adults : ∃ t k, Dialect.sqlServer.planQuery users adults.toExpr = .ok t ∧
    Dialect.sqlServer.readCondition t.fragment = some k ∧
    k.eval integerEngine (activeUser.stored .sqlServer) t.params = .yes := by
  have hplan : ∃ t, Dialect.sqlServer.planQuery users adults.toExpr = .ok t := ⟨_, rfl⟩
  have hfilters : adults.filters ≠ [] := by simp [adults, Chain.filters]
  have hhides : ∀ p ∈ adults.filters, p.hidesNull = false := by
    simp [adults, Chain.filters, Filter.hidesNull, Operand.isNull, Operand.isBareNull]
  have htruth : Truth.all (adults.filters.map fun p =>
      p.truth integerEngine .sqlServer activeUser) = .yes := by decide +kernel
  obtain ⟨t, ht⟩ := hplan
  obtain ⟨k, hk, heval⟩ := readCondition_planQuery (by decide) (fun h => absurd h (by decide))
    hfilters ht
  exact ⟨t, k, ht, hk, ((heval integerEngine activeUser).1 hhides).trans htruth⟩

/-- The users whose address is null, which is a function of the row on the left. -/
def withoutAddress : Chain users :=
  .filter .filter rfl .source
    (.compare .eq rfl (.lambda "m" (.constant .null)) (.column "email")) []

/-- The null operand is written as it stands: the comparison is unknown, and not false, of a user
who has an address. -/
theorem unknown_withoutAddress : ∃ t k,
    Dialect.sqlServer.planQuery users withoutAddress.toExpr = .ok t ∧ t.fragment = "NULL = [email]" ∧
    Dialect.sqlServer.readCondition t.fragment = some k ∧
    k.eval integerEngine (activeUser.stored .sqlServer) t.params = .unknown ∧
    Truth.all (withoutAddress.filters.map fun p =>
      p.truth integerEngine .sqlServer activeUser) = .no := by
  have hplan : Dialect.sqlServer.planQuery users withoutAddress.toExpr =
      .ok ⟨"NULL = [email]", [], .all, none, none, none, none⟩ := by rfl
  have hread : Dialect.sqlServer.readCondition "NULL = [email]" =
      some (.compare .eq .null (.column "email")) := by decide +kernel
  exact ⟨_, _, hplan, rfl, hread, by decide +kernel, by decide +kernel⟩

end SqlCompose.Sql
