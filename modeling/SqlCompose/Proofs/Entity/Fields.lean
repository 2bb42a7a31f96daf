import Mathlib.Data.List.Induction
import Mathlib.Data.List.Nodup
import SqlCompose.Proofs.Json.Form
import SqlCompose.ResultSet

/-!
# Fields of result columns

A cell of a result set is read into the field of the first column that has the name of its result
column up to case, while a field is looked up by its exact name. The two agree on a column unless a
column in front of it has the same name up to case: then the cell lands in the field of that other
column (`record_holdsCells_iff`).
-/

namespace SqlCompose

/-! ## Records made of pairs -/

namespace Fields

variable {α : Type}

/-- The last pair of a list is the last one inserted. -/
theorem ofList_append_singleton (pairs : List (String × α)) (pair : String × α) :
    ofList (pairs ++ [pair]) = insert pair.1 pair.2 (ofList pairs) := by
  rw [ofList, List.foldl_append]
  rfl

/-- A value put under a name of its own is found there. -/
theorem get?_ofList_of_mem {pairs : List (String × α)} (hnames : (pairs.map Prod.fst).Nodup)
    {pair : String × α} (hpair : pair ∈ pairs) : get? (ofList pairs) pair.1 = some pair.2 := by
  induction pairs using List.reverseRecOn with
  | nil => cases hpair
  | append_singleton pairs last ih =>
    rw [List.map_append, List.nodup_append] at hnames
    obtain ⟨hpairs, -, hdisjoint⟩ := hnames
    rw [ofList_append_singleton]
    rcases List.mem_append.mp hpair with hmem | hlast
    · have hne : pair.1 ≠ last.1 :=
        hdisjoint _ (List.mem_map_of_mem hmem) _ (List.mem_singleton_self _)
      rw [get?_insert_of_ne _ _ hne]
      exact ih hpairs hmem
    · obtain rfl := List.mem_singleton.mp hlast
      exact get?_insert_self _ _ _

/-- What is found under a name was stored under it. -/
theorem exists_mem_of_get? {fields : Fields α} {name : String} {value : α}
    (h : get? fields name = some value) : (name, value) ∈ fields := by
  induction fields with
  | nil => cases h
  | cons field rest ih =>
    obtain ⟨key, old⟩ := field
    rw [get?, List.lookup_cons] at h
    split at h
    · rename_i heq
      obtain rfl := eq_of_beq heq
      cases h
      exact List.mem_cons_self
    · exact List.mem_cons_of_mem _ (ih h)

end Fields

/-! ## Columns with the same name up to case -/

namespace Entity

/-- The columns in front of a column. -/
def columnsBefore (e : Entity) (c : Column) : List Column := e.columns.takeWhile (· != c)

/-- Whether a column in front of a column has the same name up to case. -/
def overshadows (e : Entity) (c : Column) : Bool :=
  (e.columnsBefore c).any fun other => Text.equalIgnoringCase other.name c.name

/-- A search ends at an item unless it ends in front of it. -/
theorem find?_eq_some_self_iff {α : Type} [DecidableEq α] {p : α → Bool} {a : α} (ha : p a = true)
    {as : List α} (hmem : a ∈ as) :
    as.find? p = some a ↔ (as.takeWhile (· != a)).any p = false := by
  induction as with
  | nil => cases hmem
  | cons b bs ih =>
    by_cases hb : b = a
    · subst hb
      simp [ha]
    · have hrest : a ∈ bs := (List.mem_cons.mp hmem).resolve_left (Ne.symm hb)
      have hne : (b != a) = true := bne_iff_ne.mpr hb
      rw [List.takeWhile_cons, if_pos hne, List.any_cons, List.find?_cons]
      cases hp : p b with
      | true => simp [hb]
      | false => simpa using ih hrest

variable {e : Entity} {c : Column}

/-- A column is the first one of its name up to case unless a column in front has that name. -/
theorem find?_name_iff (hc : c ∈ e.columns) :
    (e.columns.find? fun other => Text.equalIgnoringCase other.name c.name) = some c ↔
      e.overshadows c = false := by
  have hself : Text.equalIgnoringCase c.name c.name = true := beq_self_eq_true _
  exact find?_eq_some_self_iff (p := fun other : Column =>
    Text.equalIgnoringCase other.name c.name) hself hc

/-- Nothing in a list stands behind an item that it is related to. -/
theorem forall_any_takeWhile_iff {α : Type} [DecidableEq α] {p : α → α → Bool} {as : List α}
    (hnodup : as.Nodup) :
    (∀ a ∈ as, (as.takeWhile (· != a)).any (p · a) = false) ↔
      as.Pairwise fun b a => p b a = false := by
  induction as with
  | nil => simp
  | cons b bs ih =>
    obtain ⟨hnew, hbs⟩ := List.nodup_cons.mp hnodup
    have hbehind : ∀ a ∈ bs, (((b :: bs).takeWhile (· != a)).any (p · a) = false ↔
        p b a = false ∧ (bs.takeWhile (· != a)).any (p · a) = false) := by
      intro a ha
      have hne : (b != a) = true := bne_iff_ne.mpr fun heq => hnew (heq ▸ ha)
      rw [List.takeWhile_cons, if_pos hne, List.any_cons, Bool.or_eq_false_iff]
    have hself : ((b :: bs).takeWhile (· != b)).any (p · b) = false := by simp
    rw [List.forall_mem_cons, List.pairwise_cons, ← ih hbs]
    constructor
    · rintro ⟨-, hall⟩
      exact ⟨fun a ha => ((hbehind a ha).mp (hall a ha)).1,
        fun a ha => ((hbehind a ha).mp (hall a ha)).2⟩
    · rintro ⟨hfirst, hrest⟩
      exact ⟨hself, fun a ha => (hbehind a ha).mpr ⟨hfirst a ha, hrest a ha⟩⟩

/-- No column has the name of a column in front of it if the names are distinct up to case. -/
theorem forall_overshadows_iff (hcolumns : e.columns.Nodup) :
    (∀ c ∈ e.columns, e.overshadows c = false) ↔
      (e.columns.map fun c => Text.asciiLower c.name).Nodup := by
  refine (forall_any_takeWhile_iff (p := fun other c : Column =>
    Text.equalIgnoringCase other.name c.name) hcolumns).trans ?_
  rw [List.Nodup, List.pairwise_map]
  simp [Text.equalIgnoringCase]

/-- The column that a result column is read as. -/
theorem exists_fieldFor (hc : c ∈ e.columns) :
    ∃ other ∈ e.columns, e.fieldFor c.name = other.field ∧
      (e.columns.find? fun other => Text.equalIgnoringCase other.name c.name) = some other := by
  have hself : Text.equalIgnoringCase c.name c.name = true := beq_self_eq_true _
  have hsome : (e.columns.find? fun other => Text.equalIgnoringCase other.name c.name).isSome :=
    List.find?_isSome.mpr ⟨c, hc, hself⟩
  obtain ⟨other, hother⟩ := Option.isSome_iff_exists.mp hsome
  exact ⟨other, List.mem_of_find?_eq_some hother, by rw [fieldFor, hother], hother⟩

/-- If any cell lands in the field of a column, no column in front of it has its name up to case. -/
theorem overshadows_eq_false (hfields : (e.columns.map Column.field).Nodup) (hc : c ∈ e.columns)
    {read : Column} (hread : read ∈ e.columns) (h : e.fieldFor read.name = c.field) :
    e.overshadows c = false := by
  obtain ⟨other, hother, hfield, hfind⟩ := exists_fieldFor hread
  obtain rfl : other = c := List.inj_on_of_nodup_map hfields hother hc (hfield.symm.trans h)
  have hname : Text.equalIgnoringCase other.name read.name = true := by
    simpa using List.find?_some hfind
  have hsame : (fun column : Column => Text.equalIgnoringCase column.name read.name) =
      fun column => Text.equalIgnoringCase column.name other.name := by
    funext column
    rw [Text.equalIgnoringCase, Text.equalIgnoringCase, eq_of_beq hname]
  rw [hsame] at hfind
  exact (find?_name_iff hc).mp hfind

/-- A cell lands in the field of its own column if no column in front has its name up to case. -/
theorem fieldFor_of_not_overshadows (hc : c ∈ e.columns) (h : e.overshadows c = false) :
    e.fieldFor c.name = c.field := by
  rw [fieldFor, (find?_name_iff hc).mpr h]

/-- A field is looked up in the column that it belongs to. -/
theorem find?_field (hfields : (e.columns.map Column.field).Nodup) (hc : c ∈ e.columns) :
    e.find? c.field = some c := by
  have hsome : (e.columns.find? fun other => other.field == c.field).isSome :=
    List.find?_isSome.mpr ⟨c, hc, beq_self_eq_true _⟩
  obtain ⟨other, hother⟩ := Option.isSome_iff_exists.mp hsome
  have hfield : other.field = c.field := by simpa using List.find?_some hother
  obtain rfl := List.inj_on_of_nodup_map hfields (List.mem_of_find?_eq_some hother) hc hfield
  rw [find?, hother, Option.some_or]

end Entity

/-! ## Records of rows -/

/-- Whether a record holds the cells of a row under the fields of their columns, and nothing
else. -/
def HoldsCells (cs : List Column) (row : List Value) (record : Fields Json) : Prop :=
  (∀ p ∈ cs.zip row, Fields.get? record p.1.field = some p.2.toJson) ∧
    ∀ field ∈ record, field.1 ∈ cs.map Column.field

section Record

variable {e : Entity} {r : ResultSet} {cs : List Column} {row : List Value}

/-- The record of a row, by the columns that its result columns are named after. -/
theorem record_eq (hnamed : r.columns.map ResultColumn.name = cs.map Column.name) :
    r.record e row = Fields.ofList ((cs.zip row).map fun p => (e.fieldFor p.1.name, p.2.toJson)) := by
  have hpairs : ∀ {α : Type} (name : α → String) (as : List α),
      (as.zip row).map (fun p => (e.fieldFor (name p.1), p.2.toJson)) =
        ((as.map name).zip row).map fun p => (e.fieldFor p.1, p.2.toJson) := by
    intro α name as
    rw [List.zip_map_left, List.map_map]
    rfl
  have hresult := hpairs ResultColumn.name r.columns
  have hcolumns := hpairs Column.name cs
  rw [ResultSet.record]
  exact congrArg Fields.ofList (hresult.trans (hnamed ▸ hcolumns.symm))

/-- On an entity whose fields are distinct, a record made from a row of distinct columns holds each
cell that no other column overshadows. -/
theorem record_holdsCells (hfields : (e.columns.map Column.field).Nodup) (hcs : cs ⊆ e.columns)
    (honce : cs.Nodup) (hnamed : r.columns.map ResultColumn.name = cs.map Column.name)
    (hrow : row.length = cs.length) (hclear : ∀ c ∈ cs, e.overshadows c = false) :
    HoldsCells cs row (r.record e row) := by
  have hpairs : ((cs.zip row).map fun p => (e.fieldFor p.1.name, p.2.toJson)) =
      (cs.zip row).map fun p => (p.1.field, p.2.toJson) := by
    refine List.map_congr_left fun p hp => ?_
    have hmem : p.1 ∈ cs := (List.of_mem_zip hp).1
    rw [Entity.fieldFor_of_not_overshadows (hcs hmem) (hclear _ hmem)]
  rw [record_eq hnamed, hpairs]
  constructor
  · have hdistinct : (cs.map Column.field).Nodup := honce.map_on fun c hc other hother =>
      List.inj_on_of_nodup_map hfields (hcs hc) (hcs hother)
    have hkeys : (((cs.zip row).map fun p => (p.1.field, p.2.toJson)).map Prod.fst).Nodup := by
      have hfirst : (cs.zip row).map Prod.fst = cs := List.map_fst_zip (Nat.le_of_eq hrow.symm)
      rw [← hfirst, List.map_map] at hdistinct
      rwa [List.map_map]
    intro p hp
    exact Fields.get?_ofList_of_mem hkeys (List.mem_map_of_mem hp)
  · intro field hfield
    obtain ⟨p, hp, rfl⟩ := List.mem_map.mp (Fields.mem_ofList field hfield)
    exact List.mem_map_of_mem (List.of_mem_zip hp).1

/-- A record that holds every cell comes from columns none of which is overshadowed. -/
theorem overshadows_of_holdsCells (hfields : (e.columns.map Column.field).Nodup)
    (hcs : cs ⊆ e.columns) (hnamed : r.columns.map ResultColumn.name = cs.map Column.name)
    (hrow : row.length = cs.length) (h : HoldsCells cs row (r.record e row)) {c : Column}
    (hc : c ∈ cs) : e.overshadows c = false := by
  obtain ⟨i, hi, rfl⟩ := List.getElem_of_mem hc
  have hcell : (cs[i], row[i]) ∈ cs.zip row := by
    rw [List.mem_iff_getElem]
    exact ⟨i, by simp [hi, hrow], by simp⟩
  have hget := h.1 _ hcell
  rw [record_eq hnamed] at hget
  obtain ⟨p, hp, hkey⟩ := List.mem_map.mp (Fields.mem_ofList _ (Fields.exists_mem_of_get? hget))
  have hfield : e.fieldFor p.1.name = cs[i].field := congrArg Prod.fst hkey
  exact Entity.overshadows_eq_false hfields (hcs hc) (hcs (List.of_mem_zip hp).1) hfield

end Record

/-- The fields of a table's columns are distinct, and a result set lists some of these columns, each
once and in any order, with rows that are as long. Then each row becomes the record that holds its
cells under the fields of their columns and nothing else, if and only if none of the listed columns
stands behind a column of the table with the same name up to case; this is so for every result set
if and only if the names of the table are distinct up to case. A column is always found by its
field. -/
theorem record_holdsCells_iff {e : Entity} (hfields : (e.columns.map Column.field).Nodup) :
    (∀ c ∈ e.columns, e.find? c.field = some c) ∧
    (∀ (r : ResultSet) (cs : List Column), cs ⊆ e.columns → cs.Nodup →
      r.columns.map ResultColumn.name = cs.map Column.name →
      (∀ row ∈ r.rows, row.length = r.columns.length) →
      List.Forall₂ (fun row record =>
        HoldsCells cs row record ↔ ∀ c ∈ cs, e.overshadows c = false) r.rows (r.records e)) ∧
    ((∀ c ∈ e.columns, e.overshadows c = false) ↔
      (e.columns.map fun c => Text.asciiLower c.name).Nodup) := by
  refine ⟨fun c hc => Entity.find?_field hfields hc, ?_,
    Entity.forall_overshadows_iff hfields.of_map⟩
  intro r cs hcs honce hnamed hrows
  have hlength : r.columns.length = cs.length := by
    simpa using congrArg List.length hnamed
  rw [ResultSet.records, List.forall₂_map_right_iff, List.forall₂_same]
  intro row hrow
  have hfull : row.length = cs.length := (hrows row hrow).trans hlength
  exact ⟨fun h c hc => overshadows_of_holdsCells hfields hcs hnamed hfull h hc,
    record_holdsCells hfields hcs honce hnamed hfull⟩

/-- People, with a field that has the name of another column. -/
def people : Entity :=
  ⟨"people", [⟨"full_name", "name", .text, false, false⟩, ⟨"name", "nick", .text, false, false⟩],
    false⟩

/-- An answer that lists the columns of people the other way round. -/
def peopleFound : ResultSet :=
  ⟨[⟨"name", "text"⟩, ⟨"full_name", "text"⟩], [[.text "Al", .text "Alan"]]⟩

/-- Two people read back with their columns in reverse order: each record holds its own cells. -/
theorem record_holdsCells_people :
    List.Forall₂ (HoldsCells people.columns.reverse) peopleFound.rows
      (peopleFound.records people) := by
  have hclear : ∀ c ∈ people.columns.reverse, people.overshadows c = false := by
    simp [people, Entity.overshadows, Entity.columnsBefore, Text.equalIgnoringCase_eq]
  have hrecords := (record_holdsCells_iff (e := people) (by decide)).2.1 peopleFound
    people.columns.reverse (fun c hc => List.mem_reverse.mp hc) (by decide) (by decide) (by decide)
  exact hrecords.imp fun _ _ h => h.mpr hclear

/-- A table whose columns have one name up to case, with fields of their own. -/
def homonyms : Entity :=
  ⟨"homonyms", [⟨"name", "a", .text, false, false⟩, ⟨"NAME", "b", .text, false, false⟩], false⟩

/-- An answer with both columns. -/
def homonymsFound : ResultSet := ⟨[⟨"name", "text"⟩, ⟨"NAME", "text"⟩], [[.text "x", .text "y"]]⟩

/-- The cell of the second column lands in the field of the first one. -/
theorem record_homonyms :
    (homonyms.columns.map Column.name).Nodup ∧ (homonyms.columns.map Column.field).Nodup ∧
    homonymsFound.records homonyms = [[("a", .string "y")]] := by
  have hfield : ∀ column, Text.equalIgnoringCase "name" column = true →
      homonyms.fieldFor column = "a" := by
    intro column h
    simp [homonyms, Entity.fieldFor, h]
  have hfirst : homonyms.fieldFor "name" = "a" := hfield _ (beq_self_eq_true _)
  have hsecond : homonyms.fieldFor "NAME" = "a" := by
    refine hfield _ ?_
    rw [Text.equalIgnoringCase_eq]
    decide
  refine ⟨by decide, by decide, ?_⟩
  simp [ResultSet.records, ResultSet.record, homonymsFound, hfirst, hsecond, Value.toJson,
    Fields.ofList, Fields.insert]

end SqlCompose
