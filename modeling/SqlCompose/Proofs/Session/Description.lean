import Mathlib.Data.List.Dedup
import SqlCompose.Connection.Scripted
import SqlCompose.Proofs.Entity.Keys
import SqlCompose.Session.Description

/-!
# Tables as their catalogue lists them

The catalogue answers with the columns of a table in their order. It has a row for each key
constraint that a column belongs to, so one column may stand in several rows next to each other; a
row of the primary key is marked. Every row is taken for a column of its own: the entity lists the
columns in their order, with the kinds of their types, but each as often as it has rows, and so each
once if and only if no column has two (`Connection.describe_listings`). The key is the last column
with a marked row, in whichever of its rows the mark stands.
-/

namespace SqlCompose

open Entity (Declaration)

/-- A column as the catalogue of a database lists it. -/
structure Listing where
  /-- The name of the column. -/
  name : String
  /-- The name of its type. -/
  dataType : String
  /-- Its default. -/
  default : Option String
  /-- For each row with the column, whether it marks the primary key. -/
  marks : List Bool
  /-- Every column has a row. -/
  marks_ne_nil : marks ≠ []
deriving DecidableEq, Repr

namespace Listing

/-! ## Rows -/

variable (l : Listing)

/-- The row of the catalogue with a mark or without. -/
def row (mark : Bool) : List Value :=
  [.text l.name, .text l.dataType, .int (if mark then 1 else 0), (l.default.map .text).getD .null]

/-- The rows with a column. -/
def rows : List (List Value) := l.marks.map l.row

/-- What a column holds. -/
def kind : ColumnKind := .ofSqlType l.dataType

/-- Whether some row with a column is marked. -/
def isMarked : Bool := l.marks.any id

/-- Whether the default of a column takes the next number of a sequence. -/
def isGenerated : Bool := l.default.any (Text.startsWith Entity.sequencePrefix)

/-- The column that a listing leaves behind as the key. -/
def keyColumn : Column := ⟨l.name, l.name, l.kind, true, l.isGenerated⟩

/-! ## Rows as declarations -/

/-- What a row declares. -/
def declaration (mark : Bool) : Declaration :=
  if mark then if l.isGenerated then .generatedKey l.name l.kind else .key l.name l.kind
  else .column l.name l.kind

/-- What the rows with a column declare. -/
def declarations : List Declaration := l.marks.map l.declaration

theorem name_declaration (mark : Bool) : (l.declaration mark).name = l.name := by
  unfold declaration
  split_ifs <;> rfl

theorem field_declaration (mark : Bool) : (l.declaration mark).field = l.name := by
  unfold declaration
  split_ifs <;> rfl

theorem kind_declaration (mark : Bool) : (l.declaration mark).kind = l.kind := by
  unfold declaration
  split_ifs <;> rfl

theorem isKey_declaration (mark : Bool) : (l.declaration mark).isKey = mark := by
  cases mark with
  | false => rfl
  | true =>
    rw [declaration, if_pos rfl]
    split_ifs <;> rfl

/-- A marked row declares a generated key where the listing has a generated default. -/
theorem isGenerated_declaration_true : (l.declaration true).isGenerated = l.isGenerated := by
  rw [declaration, if_pos rfl]
  split_ifs with h
  · exact h.symm
  · exact (Bool.eq_false_iff.mpr h).symm

/-- The mark of a row is read back from it. -/
theorem marksKey_row (mark : Bool) : Entity.marksKey (l.row mark) = mark := by
  cases mark <;> rfl

/-- The fourth cell of a row tells whether the default takes the next number of a sequence. -/
theorem startsWith_cellText_row (mark : Bool) :
    Text.startsWith Entity.sequencePrefix (Entity.cellText (l.row mark) 3) = l.isGenerated := by
  unfold isGenerated
  cases h : l.default with
  | none =>
    have hcell : Entity.cellText (l.row mark) 3 = "" := by simp [Entity.cellText, row, h]
    rw [hcell]
    rfl
  | some text =>
    have hcell : Entity.cellText (l.row mark) 3 = text := by simp [Entity.cellText, row, h]
    rw [hcell]
    rfl

/-- A row of the catalogue adds what it declares. -/
theorem addDescribed_row (e : Entity) (mark : Bool) :
    e.addDescribed (l.row mark) = e.declare (l.declaration mark) := by
  have hname : Entity.cellText (l.row mark) 0 = l.name := rfl
  have htype : Entity.cellText (l.row mark) 1 = l.dataType := rfl
  unfold Entity.addDescribed declaration
  rw [marksKey_row, startsWith_cellText_row, hname, htype]
  dsimp only
  split_ifs <;> rfl

/-- An entity read from the catalogue is the one its rows declare. -/
theorem ofCatalogue_rows (table : String) (listings : List Listing) :
    Entity.ofCatalogue table (listings.flatMap rows) =
      Entity.ofDeclarations table (listings.flatMap declarations) := by
  unfold Entity.ofCatalogue Entity.ofDeclarations
  rw [List.foldl_flatMap, List.foldl_flatMap]
  congr 1
  funext e l
  simp only [rows, declarations, List.foldl_map, addDescribed_row]

/-! ## Columns -/

/-- The columns of an entity are the declared ones in order; only the key marks depend on later
declarations. -/
theorem outlines_ofDeclarations (table : String) (ds : List Declaration) :
    (Entity.ofDeclarations table ds).columns.map (fun c => (c.name, c.field, c.kind)) =
      ds.map fun d => (d.name, d.field, d.kind) := by
  induction ds using List.reverseRecOn with
  | nil => rfl
  | append_singleton ds d ih =>
    rw [Entity.ofDeclarations_append_singleton, List.map_append, ← ih]
    cases d <;> simp [Entity.declare, Entity.addColumn, Entity.addMapped, Entity.addKey,
      Entity.addGeneratedKey, Entity.declareKey, Declaration.name, Declaration.field,
      Declaration.kind, Function.comp_def]

/-- A column for each row, in the order of the rows. -/
theorem outlines_ofCatalogue (table : String) (listings : List Listing) :
    (Entity.ofCatalogue table (listings.flatMap rows)).columns.map
        (fun c => (c.name, c.field, c.kind)) =
      listings.flatMap fun l => List.replicate l.marks.length (l.name, l.name, l.kind) := by
  rw [ofCatalogue_rows, outlines_ofDeclarations, List.map_flatMap]
  refine List.flatMap_congr fun l _ => ?_
  rw [declarations, List.map_map]
  simp only [Function.comp_def, name_declaration, field_declaration, kind_declaration,
    List.map_const']

/-- The names in an entity follow the catalogue, each repeated as often as there are rows with its
column. -/
theorem names_ofCatalogue (table : String) (listings : List Listing) :
    (Entity.ofCatalogue table (listings.flatMap rows)).columns.map Column.name =
      listings.flatMap fun l => List.replicate l.marks.length l.name := by
  have houtlines := congrArg (List.map Prod.fst) (outlines_ofCatalogue table listings)
  rw [List.map_map, List.map_flatMap] at houtlines
  simp only [List.map_replicate] at houtlines
  exact houtlines

section Names

variable {listings : List Listing} (hnames : (listings.map name).Nodup)

include hnames

/-- Without repetitions, the names are those that are listed, in their order. -/
theorem dedup_names :
    (listings.flatMap fun l => List.replicate l.marks.length l.name).dedup =
      listings.map name := by
  induction listings with
  | nil => rfl
  | cons l listings ih =>
    obtain ⟨hnew, hnames⟩ := List.nodup_cons.mp hnames
    have hrest : l.name ∉ listings.flatMap fun l => List.replicate l.marks.length l.name := by
      simp only [List.mem_flatMap, List.mem_replicate, not_exists, not_and]
      intro other hother _ heq
      exact hnew (heq ▸ List.mem_map_of_mem hother)
    obtain ⟨n, hn⟩ := Nat.exists_eq_succ_of_ne_zero (List.length_pos_iff.mpr l.marks_ne_nil).ne'
    rw [List.flatMap_cons, List.map_cons, hn, ← ih hnames]
    clear hn
    induction n with
    | zero => exact List.dedup_cons_of_notMem hrest
    | succ n ihn =>
      rw [List.replicate_succ, List.cons_append, List.dedup_cons_of_mem (by simp), ihn]

/-- Each name is there once if and only if no column has two rows. -/
theorem names_eq_iff :
    (listings.flatMap fun l => List.replicate l.marks.length l.name) = listings.map name ↔
      ∀ l ∈ listings, l.marks.length = 1 := by
  constructor
  · intro h l hl
    rw [← h, List.nodup_flatMap] at hnames
    have hone := List.nodup_replicate.mp (hnames.1 l hl)
    have hrow := List.length_pos_iff.mpr l.marks_ne_nil
    omega
  · intro h
    rw [List.map_eq_flatMap]
    refine List.flatMap_congr fun l hl => ?_
    rw [h l hl]
    rfl

end Names

/-! ## The key -/

/-- The last key of two sequences is that of the second, or that of the first if the second has
none. -/
theorem lastKey?_append (ds others : List Declaration) :
    Declaration.lastKey? (ds ++ others) =
      (Declaration.lastKey? others).or (Declaration.lastKey? ds) := by
  simp [Declaration.lastKey?]

/-- The last key that the rows with a column declare is the column, if one of them is marked. -/
theorem lastKey?_declarations :
    Declaration.lastKey? l.declarations =
      if l.isMarked then some (l.declaration true) else none := by
  unfold isMarked declarations
  induction l.marks using List.reverseRecOn with
  | nil => rfl
  | append_singleton marks mark ih =>
    rw [List.map_append, lastKey?_append, ih, List.any_append]
    cases mark with
    | true => simp [Declaration.lastKey?, isKey_declaration]
    | false => simp [Declaration.lastKey?, isKey_declaration]

/-- The last key that all rows declare is the last column with a marked row. -/
theorem lastKey?_flatMap_declarations (listings : List Listing) :
    Declaration.lastKey? (listings.flatMap declarations) =
      (listings.filter isMarked).getLast?.map fun l => l.declaration true := by
  induction listings using List.reverseRecOn with
  | nil => rfl
  | append_singleton listings l ih =>
    rw [List.flatMap_append, List.flatMap_singleton, lastKey?_append, lastKey?_declarations, ih,
      List.filter_append]
    cases hmarked : l.isMarked <;> simp [hmarked]

/-- The key of an entity read from the catalogue is the last listing with a mark. -/
theorem keys_ofCatalogue (table : String) {listings : List Listing} {l : Listing}
    (h : (listings.filter isMarked).getLast? = some l) :
    (Entity.ofCatalogue table (listings.flatMap rows)).keys = [l.keyColumn] := by
  have hlast : Declaration.lastKey? (listings.flatMap declarations) =
      some (l.declaration true) := by
    rw [lastKey?_flatMap_declarations, h]
    rfl
  rw [ofCatalogue_rows, Entity.keys_of_lastKey? hlast, name_declaration, field_declaration,
    kind_declaration, isGenerated_declaration_true]
  rfl

/-- A row of the catalogue leaves the table's name alone. -/
theorem table_addDescribed (e : Entity) (cells : List Value) :
    (e.addDescribed cells).table = e.table := by
  unfold Entity.addDescribed
  dsimp only
  split_ifs <;> rfl

/-- An entity read from the catalogue keeps the name that was asked for. -/
theorem table_ofCatalogue (table : String) (cells : List (List Value)) :
    (Entity.ofCatalogue table cells).table = table := by
  unfold Entity.ofCatalogue
  induction cells using List.reverseRecOn with
  | nil => rfl
  | append_singleton cells last ih =>
    rw [List.foldl_append, List.foldl_cons, List.foldl_nil, table_addDescribed, ih]

end Listing

/-! ## The answer of a connection -/

namespace Connection

variable {σ : Type} {c : Connection σ} {table : String} {s opened answered : σ} {r : ResultSet}

/-- On a connection that opens and answers, a description is the entity of the answer, or an error
if the answer has no rows. -/
theorem describe_of_answer (hopen : c.ensureOpen s = (.done (), opened))
    (hanswer : c.query c.dialect.catalogueQuery [.text table] opened = (.done r, answered)) :
    c.describe table s =
      (if r.rows.isEmpty then .failed (.dataAccess ("table `" ++ table ++ "` not found"))
        else .done (Entity.ofCatalogue table r.rows), answered) := by
  simp only [describe, bind, Run.andThen, hopen, hanswer]
  split_ifs <;> rfl

/-- A connection is asked for the columns of a table, and answers with the rows of columns of
distinct names in their order. Without any the table is not found. Otherwise the entity has a column
for each row, under the name and with the kind of the type that are listed: all columns that are
listed, in their order, but each of them as often as it has rows, and so each once if and only if no
column has two. If a row is marked, the last column with a marked row is the key and the only one,
in whichever of its rows the mark stands, and its values are generated if and only if its default
takes the next number of a sequence. -/
theorem describe_listings {listings : List Listing}
    (hopen : c.ensureOpen s = (.done (), opened))
    (hanswer : c.query c.dialect.catalogueQuery [.text table] opened = (.done r, answered))
    (hrows : r.rows = listings.flatMap Listing.rows)
    (hnames : (listings.map Listing.name).Nodup) :
    (listings = [] → c.describe table s =
      (.failed (.dataAccess ("table `" ++ table ++ "` not found")), answered)) ∧
    (listings ≠ [] → ∃ e : Entity, c.describe table s = (.done e, answered) ∧ e.table = table ∧
      e.columns.map (fun c => (c.name, c.field, c.kind)) =
        (listings.flatMap fun l => List.replicate l.marks.length
          (l.name, l.name, ColumnKind.ofSqlType l.dataType)) ∧
      (e.columns.map Column.name).dedup = listings.map Listing.name ∧
      (e.columns.map Column.name = listings.map Listing.name ↔
        ∀ l ∈ listings, l.marks.length = 1) ∧
      ∀ l, (listings.filter Listing.isMarked).getLast? = some l →
        e.keys = [l.keyColumn] ∧ e.key? = some l.keyColumn ∧
        l.keyColumn = ⟨l.name, l.name, ColumnKind.ofSqlType l.dataType, true,
          l.default.any (Text.startsWith "nextval(")⟩) := by
  have hrun := describe_of_answer hopen hanswer
  rw [hrows] at hrun
  constructor
  · rintro rfl
    exact hrun
  · intro hne
    have hrow : (listings.flatMap Listing.rows).isEmpty = false := by
      obtain ⟨l, rest, rfl⟩ := List.exists_cons_of_ne_nil hne
      simp [Listing.rows, l.marks_ne_nil]
    rw [hrow] at hrun
    refine ⟨_, hrun, Listing.table_ofCatalogue table _, Listing.outlines_ofCatalogue table listings,
      ?_, ?_, fun l hl => ?_⟩
    · rw [Listing.names_ofCatalogue, Listing.dedup_names hnames]
    · rw [Listing.names_ofCatalogue, Listing.names_eq_iff hnames]
    · have hkeys := Listing.keys_ofCatalogue table hl
      exact ⟨hkeys, by rw [Entity.key?_eq_head?, hkeys]; rfl, rfl⟩

/-! ## A pet with an owner -/

/-- The columns of the pets: the key belongs to another constraint before it, the owner to one. -/
def petListings (ownerMarks : List Bool) (h : ownerMarks ≠ []) : List Listing :=
  [⟨"id", "integer", some "nextval('pets_id_seq'::regclass)", [false, true], by decide⟩,
    ⟨"owner", "integer", none, ownerMarks, h⟩]

/-- What the catalogue answers. -/
def petAnswer (ownerMarks : List Bool) (h : ownerMarks ≠ []) : ResultSet :=
  ⟨[⟨"column_name", "text"⟩, ⟨"data_type", "text"⟩, ⟨"is_primary_key", "int"⟩,
    ⟨"column_default", "text"⟩], (petListings ownerMarks h).flatMap Listing.rows⟩

/-- A script with this answer. -/
def petScript (ownerMarks : List Bool) (h : ownerMarks ≠ []) : Script :=
  { results := [.succeed (petAnswer ownerMarks h)] }

/-- The key is the marked column with its sequence, and the owner the column behind it. -/
theorem describe_listings_pets :
    ∃ (e : Entity) (answered : Script),
      (Script.connection .postgres).describe "pets" (petScript [false] (by decide)) =
        (.done e, answered) ∧
      (e.columns.map Column.name).dedup = ["id", "owner"] ∧
      e.key? = some ⟨"id", "id", ColumnKind.ofSqlType "integer", true, true⟩ := by
  obtain ⟨-, h⟩ := @describe_listings _ (Script.connection .postgres) "pets"
    (petScript [false] (by decide)) _ _ _ (petListings [false] (by decide))
    rfl rfl rfl (by decide)
  obtain ⟨e, hrun, -, -, hnames, -, hkey⟩ := h (List.cons_ne_nil _ _)
  exact ⟨e, _, hrun, hnames, (hkey _ rfl).2.1⟩

/-- An owner that belongs to two constraints is there twice. -/
theorem describe_twoOwners :
    ∃ (e : Entity) (answered : Script),
      (Script.connection .postgres).describe "pets" (petScript [false, false] (by decide)) =
        (.done e, answered) ∧
      ((petListings [false, false] (by decide)).map Listing.name).Nodup ∧
      e.columns.map Column.name ≠
        (petListings [false, false] (by decide)).map Listing.name := by
  have hrun := @describe_of_answer _ (Script.connection .postgres) "pets"
    (petScript [false, false] (by decide)) _ _ _ rfl rfl
  refine ⟨_, _, hrun, by decide, ?_⟩
  rw [petAnswer, Listing.names_ofCatalogue]
  decide

end Connection

end SqlCompose
