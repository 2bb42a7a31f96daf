import Mathlib.Data.List.Basic
import SqlCompose.Proofs.Paging.Answer
import SqlCompose.Proofs.Paging.Recorded

/-!
# All forms of a page select the same rows

A page is written in one of several forms, as the dialect has it. Whatever the form, the selection
evaluates to the rows of the page: the matching rows in the recorded order, without those that are
skipped and no more than are taken (`evaluates_page`). In a numbered selection the row numbers of the
page are those between two bounds, and sorting by the number leaves the rows where they stand. The
engine takes the selection unless it is an empty page of ordered rows in SQL Server, which is written
with a `FETCH` of no rows (`isAccepted_page`).
-/

namespace SqlCompose

/-! ## Pages -/

/-- The part of ordered rows on a page. -/
def Page.keep {α : Type} (p : Page) (rows : List α) : List α :=
  match p.take with
  | none => rows.drop (p.skip.getD 0).toNat
  | some n => (rows.drop (p.skip.getD 0).toNat).take n.toNat

/-- A page whose row counts are in range. -/
structure Page.Counted (p : Page) : Prop where
  /-- So many rows can be skipped. -/
  skip : (p.skip.getD 0).toNat ≤ maxCount
  /-- So many rows can be taken. -/
  take : ∀ n, p.take = some n → n.toNat ≤ maxCount

/-- The form of a page, one case for each way to skip and limit rows, with the dialects that have
it. -/
theorem pageForm_cases {d : Dialect} {p : Page} {form : PageForm} (h : d.pageForm p = .ok form) :
    (p.skip.getD 0 = 0 ∧ p.take = none ∧ form = .plain p.order) ∨
    (∃ n, (d = .sqlServer ∧ p.order = none ∨ d = .sqlServerLegacy) ∧ p.skip.getD 0 = 0 ∧
      p.take = some n ∧ form = .top n p.order) ∨
    ((d = .sqlServer ∧ p.order.isSome = true ∨ d = .postgres) ∧
      form = .offset (p.skip.getD 0) p.take p.order) ∨
    (d = .mySql ∧ form = .limit (p.skip.getD 0) (p.take.getD Dialect.noLimit) p.order) ∨
    (∃ o n, d = .sqlServerLegacy ∧ p.order = some o ∧ p.take = some n ∧
      form = .numbered (.between (p.skip.getD 0 + 1) (p.skip.getD 0 + n)) o) ∨
    ∃ o, d = .sqlServerLegacy ∧ p.order = some o ∧ p.take = none ∧
      form = .numbered (.beyond (p.skip.getD 0)) o := by
  obtain ⟨skip, take, order⟩ := p
  cases d with
  | mySql =>
    cases hpaged : (Page.mk skip take order).isPaged <;>
      simp [Dialect.pageForm, Dialect.paging, hpaged] at h <;> subst h
    · simp_all [Page.isPaged]
    · simp
  | postgres =>
    cases hpaged : (Page.mk skip take order).isPaged <;>
      simp [Dialect.pageForm, Dialect.paging, hpaged] at h <;> subst h
    · simp_all [Page.isPaged]
    · simp
  | sqlServer =>
    cases skip <;> cases take <;> cases order <;>
      simp [Dialect.pageForm, Dialect.paging, Page.isPaged, ← UInt64.not_le] at h <;>
      (try split at h) <;> simp_all
  | sqlServerLegacy =>
    by_cases hskip : skip.getD 0 = 0 <;> cases take <;> cases order <;>
      simp [Dialect.pageForm, Dialect.paging, hskip] at h <;> subst h <;> simp_all

/-! ## Pages that the engine takes -/

/-- Whether a page is one of no rows in an order, for which SQL Server is asked to fetch no rows. -/
def Dialect.FetchesNothing (d : Dialect) (p : Page) : Prop :=
  d = .sqlServer ∧ p.order.isSome = true ∧ p.take = some 0

/-- The engine takes the selection of a page, unless this is a page of no rows in an order in SQL
Server. -/
theorem isAccepted_page {d : Dialect} {p : Page} {form : PageForm} (h : d.pageForm p = .ok form)
    (e : Entity) (items : List Item) (condition : String) :
    (form.selection e items condition).IsAccepted d ↔ ¬ d.FetchesNothing p := by
  have hzero (n : UInt64) : n.toNat = 0 ↔ n = 0 := UInt64.toNat_inj (b := 0)
  rcases pageForm_cases h with ⟨-, htake, rfl⟩ | ⟨n, hd, -, htake, rfl⟩ | ⟨hd, rfl⟩ | ⟨rfl, rfl⟩ |
    ⟨o, n, rfl, -, -, rfl⟩ | ⟨o, rfl, -, -, rfl⟩
  · cases d <;> simp [PageForm.selection, Selection.IsAccepted, Dialect.FetchesNothing, htake]
  · rcases hd with ⟨rfl, horder⟩ | rfl
    · simp [PageForm.selection, Selection.IsAccepted, Dialect.FetchesNothing, horder]
    · simp [PageForm.selection, Selection.IsAccepted, Dialect.FetchesNothing]
  · rcases hd with ⟨rfl, horder⟩ | rfl
    · cases htake : p.take <;>
        simp [PageForm.selection, Selection.IsAccepted, Dialect.FetchesNothing, horder, htake, hzero]
    · simp [PageForm.selection, Selection.IsAccepted, Dialect.FetchesNothing]
  · simp [PageForm.selection, Selection.IsAccepted, Dialect.FetchesNothing]
  · simp [PageForm.selection, Selection.IsAccepted, Dialect.FetchesNothing]
  · simp [PageForm.selection, Selection.IsAccepted, Dialect.FetchesNothing]

/-! ## Row numbers -/

/-- Keeping numbered rows from a number on drops those in front of it. -/
theorem filter_le_zipIdx {α : Type} (rows : List α) (k s : Nat) :
    ((rows.zipIdx k).filter fun r => decide (k + s ≤ r.2)) = (rows.drop s).zipIdx (k + s) := by
  induction rows generalizing k s with
  | nil => simp
  | cons r rows ih =>
    cases s with
    | zero =>
      refine List.filter_eq_self.mpr fun v hv => ?_
      simpa using (List.mem_zipIdx hv).1
    | succ s =>
      have hrest := ih (k + 1) s
      rw [List.zipIdx_cons, List.filter_cons_of_neg (by simp), List.drop_succ_cons]
      simpa only [Nat.add_right_comm k 1 s, Nat.add_assoc k s 1] using hrest

/-- Keeping numbered rows below a number takes those in front of it. -/
theorem filter_lt_zipIdx {α : Type} (rows : List α) (k n : Nat) :
    ((rows.zipIdx k).filter fun r => decide (r.2 < k + n)) = (rows.take n).zipIdx k := by
  induction rows generalizing k n with
  | nil => simp
  | cons r rows ih =>
    cases n with
    | zero =>
      refine List.filter_eq_nil_iff.mpr fun v hv => ?_
      simpa using (List.mem_zipIdx hv).1
    | succ n =>
      have hrest := ih (k + 1) n
      rw [List.zipIdx_cons, List.filter_cons_of_pos (by simp), List.take_succ_cons,
        List.zipIdx_cons]
      simpa only [Nat.add_right_comm k 1 n, Nat.add_assoc k n 1] using congrArg _ hrest

/-- The numbers beyond a bound are those of the rows behind as many. -/
theorem filter_beyond (rows : List Row) (s : UInt64) :
    ((numberRows rows).filter fun r => (NumberRange.beyond s).holds r.2) =
      (rows.drop s.toNat).zipIdx (s.toNat + 1) := by
  have h := filter_le_zipIdx rows 1 s.toNat
  simpa only [numberRows, NumberRange.holds, Nat.add_comm 1, Nat.succ_le_iff] using h

/-- The bounds of row counts in range do not overflow. -/
theorem toNat_bounds {s n : UInt64} (hs : s.toNat ≤ maxCount) (hn : n.toNat ≤ maxCount) :
    (s + 1).toNat = s.toNat + 1 ∧ (s + n).toNat = s.toNat + n.toNat := by
  unfold maxCount at hs hn
  constructor
  · rw [UInt64.toNat_add, UInt64.toNat_one, Nat.mod_eq_of_lt (by omega)]
  · rw [UInt64.toNat_add, Nat.mod_eq_of_lt (by omega)]

/-- The numbers between two bounds are those of so many rows behind others. -/
theorem filter_between (rows : List Row) {s n : UInt64} (hs : s.toNat ≤ maxCount)
    (hn : n.toNat ≤ maxCount) :
    ((numberRows rows).filter fun r => (NumberRange.between (s + 1) (s + n)).holds r.2) =
      ((rows.drop s.toNat).take n.toNat).zipIdx (s.toNat + 1) := by
  obtain ⟨hfirst, hlast⟩ := toNat_bounds hs hn
  rw [← filter_lt_zipIdx, ← Nat.add_comm 1, ← filter_le_zipIdx, List.filter_filter]
  refine List.filter_congr fun r _ => ?_
  rw [Bool.eq_iff_iff]
  simp only [NumberRange.holds, hfirst, hlast, decide_eq_true_eq, Bool.and_eq_true]
  omega

/-- Sorting numbered rows by their number changes nothing. Rows with the same number are the same
row. -/
theorem arranged_withNumber (db : Database) (rows : List Row) (k : Nat) (arranged : List Row) :
    db.Arranged (some ⟨rowNumberName, false⟩) ((rows.zipIdx k).map fun r => r.1.withNumber r.2)
      arranged ↔ arranged = (rows.zipIdx k).map fun r => r.1.withNumber r.2 := by
  have hnumber (r : Row × Nat) : r.1.withNumber r.2 rowNumberName = .number r.2 := by
    simp [Row.withNumber]
  have hle (a b : Row × Nat) : db.inOrder ⟨rowNumberName, false⟩ (a.1.withNumber a.2)
      (b.1.withNumber b.2) = decide (a.2 ≤ b.2) := by
    simp [Database.inOrder, hnumber, db.le_number]
  have hsorted : ((rows.zipIdx k).map fun r => r.1.withNumber r.2).Pairwise fun a b =>
      db.inOrder ⟨rowNumberName, false⟩ a b = true := by
    have hlt : ((rows.zipIdx k).map Prod.snd).Pairwise (· < ·) := by
      rw [List.zipIdx_map_snd]
      exact List.pairwise_lt_range'
    rw [List.pairwise_map] at hlt ⊢
    exact hlt.imp fun hab => by simpa [hle] using Nat.le_of_lt hab
  constructor
  · intro h
    refine List.Perm.eq_of_pairwise (fun a b ha hb hab hba => ?_) (h.sorted _ rfl) hsorted h.perm
    obtain ⟨x, hx, rfl⟩ := List.mem_map.mp (h.perm.mem_iff.mp ha)
    obtain ⟨y, hy, rfl⟩ := List.mem_map.mp hb
    have hsame : x.2 = y.2 := by
      rw [hle, decide_eq_true_eq] at hab hba
      omega
    have hx' := (List.mem_zipIdx hx).2.2
    have hy' := (List.mem_zipIdx hy).2.2
    simp only [hsame] at hx'
    rw [hsame, hx', hy']
  · rintro rfl
    exact ⟨.refl _, by rintro _ ⟨rfl⟩; exact hsorted⟩

/-! ## What is listed -/

/-- Items that list all columns, or name none that holds the row numbers. -/
def Unnumbered (items : List Item) : Prop :=
  items = [.star] ∨ ∀ item ∈ items, item ≠ .star ∧ item ≠ .column rowNumberName

variable {e : Entity} {items : List Item}

/-- The number of a row is not listed. -/
theorem entries_withNumber (hcolumns : e.columns ≠ [])
    (hnames : ∀ c ∈ e.columns, c.name ≠ rowNumberName) (hitems : Unnumbered items)
    (columns : List String) (r : Row) (n : Nat) :
    (e.withoutNumbers items).flatMap (Item.entries columns (r.withNumber n)) =
      items.flatMap (Item.entries (e.columns.map Column.name) r) := by
  have hread {name : String} (h : name ≠ rowNumberName) : r.withNumber n name = r name := by
    simp [Row.withNumber, h]
  by_cases hstar : items = [.star]
  · subst hstar
    have hnumbered : e.withoutNumbers [.star] = e.columns.map fun c => .column c.name :=
      if_pos ⟨rfl, hcolumns⟩
    rw [hnumbered, List.flatMap_map, List.flatMap_singleton]
    simp only [Item.entries, List.map_map]
    rw [← List.flatMap_pure_eq_map]
    exact List.flatMap_congr fun c hc => by simp [hread (hnames c hc)]
  · rw [Entity.withoutNumbers, if_neg fun h => hstar h.1]
    refine List.flatMap_congr fun item hitem => ?_
    obtain ⟨hstar, hcolumn⟩ := hitems.resolve_left hstar item hitem
    cases item with
    | star => exact absurd rfl hstar
    | count | literal n => rfl
    | column name => simp [Item.entries, hread fun h => hcolumn (h ▸ rfl)]

/-- What is listed of numbered rows, without their numbers, is what is listed of the rows. -/
theorem listing_withNumber (hcolumns : e.columns ≠ [])
    (hnames : ∀ c ∈ e.columns, c.name ≠ rowNumberName) (hitems : Unnumbered items)
    (hcount : items ≠ [.count]) (columns : List String) (rows : List Row) (k : Nat) :
    listing (e.withoutNumbers items) columns
        ((rows.zipIdx k).map fun r => r.1.withNumber r.2) =
      listing items (e.columns.map Column.name) rows := by
  have hcount' : e.withoutNumbers items ≠ [.count] := by
    unfold Entity.withoutNumbers
    split
    · intro h
      have hmem : Item.count ∈ e.columns.map fun c => Item.column c.name := by simp [h]
      simp at hmem
    · exact hcount
  rw [listing, if_neg hcount', listing, if_neg hcount, List.map_map]
  have hrow : ∀ r ∈ rows.zipIdx k, (e.withoutNumbers items).flatMap
      (Item.entries columns (r.1.withNumber r.2)) =
        (fun r => items.flatMap (Item.entries (e.columns.map Column.name) r)) r.1 :=
    fun r _ => entries_withNumber hcolumns hnames hitems columns r.1 r.2
  rw [← List.zipIdx_map_fst k rows, List.map_map, List.zipIdx_map_fst]
  exact List.map_congr_left hrow

/-- Skipping rows before they are listed skips what they are listed as, unless they are counted. -/
theorem listing_drop (hcount : items ≠ [.count]) (columns : List String) (n : Nat)
    (rows : List Row) : listing items columns (rows.drop n) = (listing items columns rows).drop n := by
  simp [listing, hcount, List.map_drop]

/-- Taking rows before they are listed takes what they are listed as, unless they are counted. -/
theorem listing_take (hcount : items ≠ [.count]) (columns : List String) (n : Nat)
    (rows : List Row) : listing items columns (rows.take n) = (listing items columns rows).take n := by
  simp [listing, hcount, List.map_take]

/-! ## Evaluation -/

/-- A selection among numbered rows evaluates to the rows that the range of numbers keeps. -/
theorem evaluates_numbered (hcolumns : e.columns ≠ [])
    (hnames : ∀ c ∈ e.columns, c.name ≠ rowNumberName) (hitems : Unnumbered items)
    (hcount : items ≠ [.count]) {range : NumberRange} {keep : List Row → List Row} {k : Nat}
    (hkeep : ∀ rows, ((numberRows rows).filter fun r => range.holds r.2) = (keep rows).zipIdx k)
    (o : OrderBy) (condition : String) (db : Database) (result : List (List Entry)) :
    ((PageForm.numbered range o).selection e items condition).Evaluates e db result ↔
      ∃ rows, db.Arranged (some o) (db.matching e.table condition) rows ∧
        result = listing items (e.columns.map Column.name) (keep rows) := by
  have hlisting := listing_withNumber hcolumns hnames hitems hcount
  simp only [PageForm.selection, Selection.Evaluates, Source.Reads, Slice.keep, keepTop, hkeep]
  constructor
  · rintro ⟨_, arranged, ⟨rows, hrows, rfl⟩, harranged, rfl⟩
    rw [arranged_withNumber] at harranged
    exact ⟨rows, hrows, by rw [harranged, hlisting]⟩
  · rintro ⟨rows, hrows, rfl⟩
    exact ⟨_, _, ⟨rows, hrows, rfl⟩, (arranged_withNumber _ _ _ _).mpr rfl, (hlisting _ _ _).symm⟩

/-- Whatever the form, a selection evaluates to the rows of its page in the recorded order. -/
theorem evaluates_page {d : Dialect} {p : Page} {form : PageForm} (h : d.pageForm p = .ok form)
    (hp : p.Counted) (hcolumns : e.columns ≠ [])
    (hnames : ∀ c ∈ e.columns, c.name ≠ rowNumberName) (hitems : Unnumbered items)
    (hcount : items ≠ [.count]) (condition : String) (db : Database) (result : List (List Entry)) :
    (form.selection e items condition).Evaluates e db result ↔
      ∃ rows, db.Arranged p.order (db.matching e.table condition) rows ∧
        result = listing items (e.columns.map Column.name) (p.keep rows) := by
  rcases pageForm_cases h with ⟨hskip, htake, rfl⟩ | ⟨n, -, hskip, htake, rfl⟩ | ⟨-, rfl⟩ |
    ⟨-, rfl⟩ | ⟨o, n, -, horder, htake, rfl⟩ | ⟨o, -, horder, htake, rfl⟩
  · simp [PageForm.selection, Selection.Evaluates, Source.Reads, Source.columns, Slice.keep, keepTop,
      Page.keep, hskip, htake]
  · simp [PageForm.selection, Selection.Evaluates, Source.Reads, Source.columns, Slice.keep, keepTop,
      listing_take hcount, Page.keep, hskip, htake]
  · cases htake : p.take <;>
      simp [PageForm.selection, Selection.Evaluates, Source.Reads, Source.columns, Slice.keep, keepTop,
        listing_take hcount, listing_drop hcount, Page.keep, htake]
  · cases htake : p.take with
    | none =>
      simp [PageForm.selection, Selection.Evaluates, Source.Reads, Source.columns, Slice.keep, keepTop,
        listing_drop hcount, Page.keep, htake]
    | some n =>
      have hn : n.toNat ≠ Dialect.noLimit.toNat := by
        have hle := hp.take n htake
        have hmax : maxCount < Dialect.noLimit.toNat := by decide
        omega
      simp [PageForm.selection, Selection.Evaluates, Source.Reads, Source.columns, Slice.keep, keepTop,
        listing_take hcount, listing_drop hcount, Page.keep, htake, hn]
  · have hbetween rows := filter_between rows hp.skip (hp.take n htake)
    simp only [evaluates_numbered hcolumns hnames hitems hcount hbetween, Page.keep, horder, htake]
  · simp only [evaluates_numbered hcolumns hnames hitems hcount (fun rows => filter_beyond rows _),
      Page.keep, horder, htake]

end SqlCompose
