import Mathlib.Data.List.Nodup
import SqlCompose.Proofs.Session.Rows

/-!
# Keys of entities

An entity is built by declaring one column after the other. A declared key takes the place of the
keys before it, and while no key is declared, every column named `id` up to case is taken for the
key. What the declarations leave behind is given column by column (`ofDeclarations_eq`), and from
that which columns are keys: there is one at most unless no key is declared and several columns are
named `id` up to case. Then an update, which filters on the first of them, leaves the others as they
are.
-/

namespace SqlCompose

namespace Entity

/-! ## Declarations -/

/-- The declaration of a column. -/
inductive Declaration where
  /-- A column whose field has the same name. -/
  | column (name : String) (kind : ColumnKind)
  /-- A column under the name of its field. -/
  | mapped (name field : String) (kind : ColumnKind)
  /-- A key that the program assigns. -/
  | key (name : String) (kind : ColumnKind)
  /-- A key that the database generates. -/
  | generatedKey (name : String) (kind : ColumnKind)
deriving DecidableEq, Repr

/-- Declare a column. -/
def declare (e : Entity) : Declaration → Entity
  | .column name kind => e.addColumn name kind
  | .mapped name field kind => e.addMapped name field kind
  | .key name kind => e.addKey name kind
  | .generatedKey name kind => e.addGeneratedKey name kind

/-- A table with the columns that are declared for it. -/
def ofDeclarations (table : String) (ds : List Declaration) : Entity :=
  ds.foldl declare (ofTable table)

/-- The columns that are keys. -/
def keys (e : Entity) : List Column := e.columns.filter Column.isKey

/-- Whether a column of this name is the key of a table without a declared key. -/
def impliesKey (name : String) : Bool := Text.equalIgnoringCase name "id"

namespace Declaration

/-- The name of the column. -/
def name : Declaration → String
  | .column name _ | .mapped name _ _ | .key name _ | .generatedKey name _ => name

/-- The name of the field. -/
def field : Declaration → String
  | .column name _ | .key name _ | .generatedKey name _ => name
  | .mapped _ field _ => field

/-- What the column holds. -/
def kind : Declaration → ColumnKind
  | .column _ kind | .mapped _ _ kind | .key _ kind | .generatedKey _ kind => kind

/-- Whether the column is declared as the key. -/
def isKey : Declaration → Bool
  | .column _ _ | .mapped _ _ _ => false
  | .key _ _ | .generatedKey _ _ => true

/-- Whether the column is declared as a key that the database generates. -/
def isGenerated : Declaration → Bool
  | .generatedKey _ _ => true
  | _ => false

/-- The last key that is declared. -/
def lastKey? (ds : List Declaration) : Option Declaration := ds.reverse.find? isKey

/-- Whether a column of this name is a key after declarations: the last one that is declared, or
without any, a column named `id` up to case. -/
def settlesKey (ds : List Declaration) (name : String) : Bool :=
  match lastKey? ds with
  | some d => d.name == name
  | none => impliesKey name

/-- Whether the database generates the values of the key after declarations. -/
def generatesKey (ds : List Declaration) : Bool := (lastKey? ds).all isGenerated

/-- The column that a declaration among others leaves behind. -/
def toColumn (ds : List Declaration) (d : Declaration) : Column :=
  let isKey := settlesKey ds d.name
  ⟨d.name, d.field, d.kind, isKey, isKey && generatesKey ds⟩

section LastKey

variable {ds : List Declaration} {d : Declaration}

/-- A key declared last is the last key. -/
theorem lastKey?_append_of_isKey (h : d.isKey = true) : lastKey? (ds ++ [d]) = some d := by
  simp [lastKey?, h]

/-- A plain column declared last leaves the last key as it was. -/
theorem lastKey?_append_of_not_isKey (h : d.isKey = false) :
    lastKey? (ds ++ [d]) = lastKey? ds := by
  simp [lastKey?, h]

/-- The last key is one of the declarations. -/
theorem mem_of_lastKey? (h : lastKey? ds = some d) : d ∈ ds :=
  List.mem_reverse.mp (List.mem_of_find?_eq_some h)

/-- There is a last key when some declaration is a key. -/
theorem isSome_lastKey? : (lastKey? ds).isSome = ds.any isKey := by
  rw [lastKey?, List.isSome_find?, List.any_reverse]

end LastKey

end Declaration

open Declaration (lastKey? settlesKey generatesKey toColumn)

/-! ## Columns after declarations -/

section Declare

variable {table : String} {ds : List Declaration} {d : Declaration}

/-- A declared key takes the place of all keys before it. -/
theorem toColumn_append_of_isKey (hd : d.isKey = true) (hnew : d.name ∉ ds.map Declaration.name)
    {old : Declaration} (hold : old ∈ ds) :
    toColumn (ds ++ [d]) old = { toColumn ds old with isKey := false, isGenerated := false } := by
  have hne : (d.name == old.name) = false := by
    refine beq_false_of_ne fun heq => hnew ?_
    exact heq ▸ List.mem_map_of_mem hold
  simp [toColumn, settlesKey, Declaration.lastKey?_append_of_isKey hd, hne]

/-- A column that is not declared as the key leaves the columns before it as they are. -/
theorem toColumn_append_of_not_isKey (hd : d.isKey = false) (old : Declaration) :
    toColumn (ds ++ [d]) old = toColumn ds old := by
  simp [toColumn, settlesKey, generatesKey, Declaration.lastKey?_append_of_not_isKey hd]

/-- A column that is not declared as the key is one if no key is declared before it and its name
is `id` up to case. -/
theorem toColumn_of_not_isKey (hd : d.isKey = false) (hnew : d.name ∉ ds.map Declaration.name) :
    toColumn (ds ++ [d]) d =
      let implicitKey := !ds.any Declaration.isKey && impliesKey d.name
      ⟨d.name, d.field, d.kind, implicitKey, implicitKey⟩ := by
  have hlast : lastKey? (ds ++ [d]) = lastKey? ds := Declaration.lastKey?_append_of_not_isKey hd
  cases hkey : lastKey? ds with
  | none =>
    have hany : ds.any Declaration.isKey = false := by
      rw [← Declaration.isSome_lastKey?, hkey]
      rfl
    simp [toColumn, settlesKey, generatesKey, hlast, hkey, hany]
  | some k =>
    have hany : ds.any Declaration.isKey = true := by
      rw [← Declaration.isSome_lastKey?, hkey]
      rfl
    have hne : (k.name == d.name) = false := by
      refine beq_false_of_ne fun heq => hnew ?_
      exact heq ▸ List.mem_map_of_mem (Declaration.mem_of_lastKey? hkey)
    simp [toColumn, settlesKey, hlast, hkey, hany, hne]

/-- One more declaration. -/
theorem declare_columns (hnew : d.name ∉ ds.map Declaration.name) :
    declare ⟨table, ds.map (toColumn ds), ds.any Declaration.isKey⟩ d =
      ⟨table, (ds ++ [d]).map (toColumn (ds ++ [d])), (ds ++ [d]).any Declaration.isKey⟩ := by
  cases hd : d.isKey with
  | true =>
    have hold : ds.map (toColumn (ds ++ [d])) =
        (ds.map (toColumn ds)).map fun c => { c with isKey := false, isGenerated := false } := by
      rw [List.map_map]
      exact List.map_congr_left fun old h => toColumn_append_of_isKey hd hnew h
    have hself : toColumn (ds ++ [d]) d = ⟨d.name, d.field, d.kind, true, d.isGenerated⟩ := by
      simp [toColumn, settlesKey, generatesKey, Declaration.lastKey?_append_of_isKey hd]
    rw [List.map_append, hold, List.any_append, List.map_singleton, hself]
    cases d with
    | column name kind | mapped name field kind => cases hd
    | key name kind | generatedKey name kind => simp [declare, addKey, addGeneratedKey, declareKey,
        Declaration.isKey, Declaration.isGenerated, Declaration.name, Declaration.field,
        Declaration.kind]
  | false =>
    have hold : ds.map (toColumn (ds ++ [d])) = ds.map (toColumn ds) :=
      List.map_congr_left fun old _ => toColumn_append_of_not_isKey hd old
    rw [List.map_append, hold, List.any_append, List.map_singleton,
      toColumn_of_not_isKey hd hnew]
    cases d with
    | key name kind | generatedKey name kind => cases hd
    | column name kind | mapped name field kind => simp [declare, addColumn, addMapped,
        impliesKey, Declaration.isKey, Declaration.name, Declaration.field, Declaration.kind]

/-- The entity of a sequence grows by one declaration at a time. -/
theorem ofDeclarations_append_singleton (table : String) (ds : List Declaration) (d : Declaration) :
    ofDeclarations table (ds ++ [d]) = (ofDeclarations table ds).declare d := by
  rw [ofDeclarations, List.foldl_append]
  rfl

/-- The columns of a table, by the declarations of distinct names that it was built from. -/
theorem ofDeclarations_eq (table : String) {ds : List Declaration}
    (hnames : (ds.map Declaration.name).Nodup) :
    ofDeclarations table ds = ⟨table, ds.map (toColumn ds), ds.any Declaration.isKey⟩ := by
  induction ds using List.reverseRecOn with
  | nil => rfl
  | append_singleton ds d ih =>
    rw [List.map_append, List.nodup_append] at hnames
    obtain ⟨hds, -, hdisjoint⟩ := hnames
    have hnew : d.name ∉ ds.map Declaration.name := fun hmem =>
      hdisjoint _ hmem _ (List.mem_singleton_self _) rfl
    rw [ofDeclarations_append_singleton, ih hds]
    exact declare_columns hnew

end Declare

/-! ## Keys after declarations -/

section Keys

variable {table : String} {ds : List Declaration}

/-- The columns of a sequence keep the names and the order of their declarations. -/
theorem names_map_toColumn (ds others : List Declaration) :
    (others.map (toColumn ds)).map Column.name = others.map Declaration.name := by
  rw [List.map_map]
  rfl

/-- The keys of a table are the columns that its declarations settle on. -/
theorem keys_ofDeclarations (table : String) (hnames : (ds.map Declaration.name).Nodup) :
    (ofDeclarations table ds).keys =
      (ds.filter fun d => settlesKey ds d.name).map (toColumn ds) := by
  rw [ofDeclarations_eq table hnames, keys, List.filter_map]
  rfl

/-- A table declares a key from the first declaration of one on. -/
theorem declaresKey_ofDeclarations (table : String) (ds : List Declaration) :
    (ofDeclarations table ds).declaresKey = ds.any Declaration.isKey := by
  induction ds using List.reverseRecOn with
  | nil => rfl
  | append_singleton ds d ih =>
    rw [ofDeclarations_append_singleton, List.any_append, ← ih, List.any_cons, List.any_nil,
      Bool.or_false]
    cases d <;> simp [declare, addColumn, addMapped, addKey, addGeneratedKey, declareKey,
      Declaration.isKey]

/-- Declaring a key takes the mark off every earlier key, so the new one stands alone. -/
theorem keys_declare_of_isKey (e : Entity) {d : Declaration} (hd : d.isKey = true) :
    (e.declare d).keys = [⟨d.name, d.field, d.kind, true, d.isGenerated⟩] := by
  cases d with
  | column name kind | mapped name field kind => cases hd
  | key name kind | generatedKey name kind => simp [declare, addKey, addGeneratedKey, declareKey,
      keys, Declaration.name, Declaration.field, Declaration.kind, Declaration.isGenerated]

/-- A plain column declared after a key leaves the keys as they were. -/
theorem keys_declare_of_not_isKey {e : Entity} (he : e.declaresKey = true) {d : Declaration}
    (hd : d.isKey = false) : (e.declare d).keys = e.keys := by
  cases d with
  | key name kind | generatedKey name kind => cases hd
  | column name kind | mapped name field kind => simp [declare, addColumn, addMapped, keys, he]

/-- The key that is declared last is the only one, also where names repeat. -/
theorem keys_of_lastKey? {d : Declaration} (hd : lastKey? ds = some d) :
    (ofDeclarations table ds).keys = [⟨d.name, d.field, d.kind, true, d.isGenerated⟩] := by
  induction ds using List.reverseRecOn with
  | nil => cases hd
  | append_singleton ds last ih =>
    rw [ofDeclarations_append_singleton]
    cases hlast : last.isKey with
    | true =>
      rw [Declaration.lastKey?_append_of_isKey hlast] at hd
      obtain rfl := Option.some.inj hd
      exact keys_declare_of_isKey _ hlast
    | false =>
      rw [Declaration.lastKey?_append_of_not_isKey hlast] at hd
      have hdeclares : (ofDeclarations table ds).declaresKey = true := by
        rw [declaresKey_ofDeclarations, ← Declaration.isSome_lastKey?, hd]
        rfl
      rw [keys_declare_of_not_isKey hdeclares hlast]
      exact ih hd

/-- Without a declared key, the columns named `id` up to case are keys that the database
generates. -/
theorem keys_of_no_lastKey (hnames : (ds.map Declaration.name).Nodup) (hkey : lastKey? ds = none) :
    (ofDeclarations table ds).keys = (ds.filter fun d => impliesKey d.name).map fun d =>
      ⟨d.name, d.field, d.kind, true, true⟩ := by
  have hsettles : settlesKey ds = impliesKey := by
    funext name
    simp [settlesKey, hkey]
  rw [keys_ofDeclarations table hnames, hsettles]
  refine List.map_congr_left fun d hd => ?_
  have hid : impliesKey d.name = true := (List.mem_filter.mp hd).2
  simp [toColumn, hsettles, generatesKey, hkey, hid]

end Keys

/-! ## What an update writes -/

/-- The key an entity answers with is the first of its keys. -/
theorem key?_eq_head? (e : Entity) : e.key? = e.keys.head? := by
  rw [key?, keys, List.head?_filter]

/-- An update sets every column but the one that it filters on if and only if there is no second
key. -/
theorem changed_eq_iff {e : Entity} (hnames : (e.columns.map Column.name).Nodup) {k : Column}
    (hk : e.key? = some k) :
    (RowOperation.changed e = e.columns.filter fun c => c.name != k.name) ↔ e.keys.length ≤ 1 := by
  rw [key?_eq_head?] at hk
  constructor
  · intro hall
    have hsame : ∀ c ∈ e.keys, c.name = k.name := by
      intro c hc
      by_contra hne
      obtain ⟨hmem, hkey⟩ := List.mem_filter.mp hc
      have hchanged : c ∈ RowOperation.changed e := by
        rw [hall]
        exact List.mem_filter.mpr ⟨hmem, by simpa using hne⟩
      have hnot := List.of_mem_filter hchanged
      rw [hkey] at hnot
      cases hnot
    have hrepeat : e.keys.map Column.name = List.replicate e.keys.length k.name := by
      rw [List.eq_replicate_iff]
      simpa using hsame
    have hnodup : (e.keys.map Column.name).Nodup := hnames.sublist (List.filter_sublist.map _)
    rw [hrepeat] at hnodup
    exact List.nodup_replicate.mp hnodup
  · intro hone
    have hkeys : e.keys = [k] := by
      cases hlist : e.keys with
      | nil => simp [hlist] at hk
      | cons c rest =>
        rw [hlist] at hk hone
        obtain rfl : c = k := by simpa using hk
        obtain rfl : rest = [] := by simpa using hone
        rfl
    have hmem : k ∈ e.columns := List.mem_of_mem_filter (hkeys ▸ List.mem_singleton_self k)
    have hiff : ∀ c ∈ e.columns, (c.isKey = true ↔ c.name = k.name) := by
      intro c hc
      have hkey : c.isKey = true ↔ c ∈ e.keys := by simp [keys, hc]
      rw [hkey, hkeys, List.mem_singleton]
      exact ⟨congrArg Column.name, List.inj_on_of_nodup_map hnames hc hmem⟩
    refine List.filter_congr fun c hc => ?_
    have hsame : c.isKey = (c.name == k.name) :=
      Bool.eq_iff_iff.mpr ((hiff c hc).trans beq_iff_eq.symm)
    rw [hsame]
    rfl

/-- Columns of distinct names are declared for a table. If a key is declared, the last one is the only
key; otherwise all columns named `id` up to case are keys that the database generates. So there is
one key at most, unless no key is declared and several columns have such a name. No other column is
generated. An update is held back or sends one statement, and this sets every column but the one
that it filters on if and only if there is no second key. -/
theorem keys_length_ofDeclarations (table : String) {ds : List Declaration}
    (hnames : (ds.map Declaration.name).Nodup) :
    (ofDeclarations table ds).columns.map Column.name = ds.map Declaration.name ∧
    (∀ d, lastKey? ds = some d →
      (ofDeclarations table ds).keys = [⟨d.name, d.field, d.kind, true, d.isGenerated⟩]) ∧
    (lastKey? ds = none →
      (ofDeclarations table ds).keys = (ds.filter fun d => impliesKey d.name).map fun d =>
        ⟨d.name, d.field, d.kind, true, true⟩) ∧
    ((ofDeclarations table ds).keys.length ≤ 1 ↔
      ¬ (lastKey? ds = none ∧ 2 ≤ (ds.filter fun d => impliesKey d.name).length)) ∧
    (∀ c ∈ (ofDeclarations table ds).columns, c.isGenerated = true → c.isKey = true) ∧
    ∀ {σ : Type} (r : Repository σ), r.entity = ofDeclarations table ds →
      ∀ (x : Datum) (h : Held (σ × List Event)), RowOperation.Settled r (.update x) h ∧
        ∀ k, r.entity.key? = some k →
          ((RowOperation.update x).columns r.entity =
              (r.entity.columns.filter fun c => c.name != k.name) ++ [k] ↔
            r.entity.keys.length ≤ 1) := by
  have hcolumns : (ofDeclarations table ds).columns = ds.map (toColumn ds) := by
    rw [ofDeclarations_eq table hnames]
  have hsame : (ofDeclarations table ds).columns.map Column.name = ds.map Declaration.name := by
    rw [hcolumns, names_map_toColumn]
  refine ⟨hsame, fun _ => keys_of_lastKey?, keys_of_no_lastKey hnames, ?_, ?_, ?_⟩
  · cases hkey : lastKey? ds with
    | some d => simp [keys_of_lastKey? hkey]
    | none =>
      rw [keys_of_no_lastKey hnames hkey, List.length_map]
      simp only [true_and]
      omega
  · intro c hc hgenerated
    rw [hcolumns] at hc
    obtain ⟨d, -, rfl⟩ := List.mem_map.mp hc
    exact (Bool.and_eq_true_iff.mp hgenerated).1
  · intro σ r hr x h
    refine ⟨RowOperation.settled_update x, fun k hk => ?_⟩
    have hdistinct : (r.entity.columns.map Column.name).Nodup := by
      rw [hr, hsame]
      exact hnames
    rw [RowOperation.columns, hk, Option.toList_some, List.append_left_inj]
    exact changed_eq_iff hdistinct hk

/-- Orders; a key is declared between two columns named `id` up to case. -/
def orderDeclarations : List Declaration :=
  [.column "id" .int, .key "order_no" .text, .mapped "ID" "origin" .int]

/-- A table whose key is declared twice keeps one of the two. -/
theorem keys_length_orders : (ofDeclarations "orders" orderDeclarations).keys.length ≤ 1 :=
  (keys_length_ofDeclarations "orders" (by decide)).2.2.2.1.mpr (by decide)

/-- A table without a declared key and with two columns named `id` up to case. -/
def twinDeclarations : List Declaration :=
  [.column "id" .int, .column "ID" .int, .column "name" .text]

/-- The table of these columns. -/
def twins : Entity :=
  ⟨"twins", [⟨"id", "id", .int, true, true⟩, ⟨"ID", "ID", .int, true, true⟩,
    ⟨"name", "name", .text, false, false⟩], false⟩

/-- Two columns whose names differ from the name of the key in case only are both marked. -/
theorem ofDeclarations_twins : ofDeclarations "twins" twinDeclarations = twins := by
  simp only [ofDeclarations, twinDeclarations, twins, declare, addColumn, addMapped, ofTable,
    List.foldl_cons, List.foldl_nil, Text.equalIgnoringCase_eq]
  decide

/-- Twins behind a scripted connection. -/
def scriptedTwins : Repository Script :=
  ⟨Script.connection .sqlServer, twins, .structure "Twin" []⟩

/-- Both columns are keys, and an update filters on one and leaves the other as it is. -/
theorem secondKey_twins :
    (twinDeclarations.map Declaration.name).Nodup ∧
    (ofDeclarations "twins" twinDeclarations).keys.map Column.name = ["id", "ID"] ∧
    scriptedTwins.entity = ofDeclarations "twins" twinDeclarations ∧
    ((RowOperation.update (.structure [("id", .ofInt64 1), ("ID", .ofInt64 2),
        ("name", .string "b")])).perform scriptedTwins.journaled
      ⟨({ isOpen := true }, []), false⟩).2.inner.2.map (·.call) =
      [.modify "UPDATE [twins] SET [name] = @p0 WHERE [id] = @p1" [.text "b", .int 1]] := by
  refine ⟨by decide, ?_, ofDeclarations_twins.symm, rfl⟩
  rw [ofDeclarations_twins]
  rfl

end Entity

end SqlCompose
