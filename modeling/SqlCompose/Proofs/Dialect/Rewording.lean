import SqlCompose.Proofs.Dialect.Token
import SqlCompose.Query.NullTest

/-!
# Rewording a text between its placeholders

A phrase is inert in a dialect if it holds no quote and neither begins a placeholder nor goes on
with one. Exchanging inert phrases changes no placeholder, wherever they stand: within an
identifier, behind a placeholder or in between (`Dialect.marks_eq_of_reworded`). Putting the null
tests into a condition exchanges inert phrases only, whatever the names of the columns look like,
so it keeps the placeholders and their order (`Dialect.marks_finishChars`).
-/

namespace SqlCompose

namespace Dialect

variable {d : Dialect}

/-! ## Inert phrases -/

/-- Whether a phrase holds characters, and none that quotes or belongs to a placeholder. -/
def IsInert (d : Dialect) (phrase : List Char) : Prop :=
  phrase ≠ [] ∧ ∀ c ∈ phrase, c ≠ d.openQuote ∧ c ≠ d.closeQuote ∧ c ≠ d.markStart ∧
    d.continuesMark c = false

instance (phrase : List Char) : Decidable (d.IsInert phrase) := by unfold IsInert; infer_instance

/-- The second text comes from the first one by exchanging inert phrases. -/
inductive Reworded (d : Dialect) : List Char → List Char → Prop
  | nil : Reworded d [] []
  | keep (c : Char) {a b : List Char} : Reworded d a b → Reworded d (c :: a) (c :: b)
  | swap {p r : List Char} (hp : d.IsInert p) (hr : d.IsInert r) {a b : List Char} :
    Reworded d a b → Reworded d (p ++ a) (r ++ b)

namespace Reworded

/-- Every text is a rewording of itself. -/
theorem refl (text : List Char) : Reworded d text text := by
  induction text with
  | nil => exact .nil
  | cons c text ih => exact .keep c ih

/-- Rewordings side by side are a rewording of the whole. -/
theorem append {a b a' b' : List Char} (h : Reworded d a b) (h' : Reworded d a' b') :
    Reworded d (a ++ a') (b ++ b') := by
  induction h with
  | nil => exact h'
  | keep c _ ih => exact .keep c ih
  | swap hp hr _ ih => simpa only [List.append_assoc] using .swap hp hr ih

/-- One phrase exchanged for another. -/
theorem phrase {p r : List Char} (hp : d.IsInert p) (hr : d.IsInert r) : Reworded d p r := by
  simpa using Reworded.swap hp hr .nil

end Reworded

/-! ## Placeholders of a reworded text -/

/-- Whether a text is read alike from two states on, names of identifiers aside. -/
def Alike : Scan → Scan → Prop
  | .outside, .outside => True
  | .quoted _, .quoted _ => True
  | .closing _, .closing _ => True
  | .marked a, .marked b => a = b
  | _, _ => False

/-- Every state reads as itself. -/
theorem Alike.refl (s : Scan) : Alike s s := by cases s <;> simp [Alike]

/-- Two states that read alike leave the same placeholder unfinished. -/
theorem marks_rest {s t : Scan} (h : Alike s t) : marks s.rest = marks t.rest := by
  cases s <;> cases t <;> simp_all [Alike, Scan.rest, marks]

/-- The same character is read alike in like states. -/
theorem alike_scan {s t : Scan} (h : Alike s t) (c : Char) :
    marks (d.scan s c).1 = marks (d.scan t c).1 ∧ Alike (d.scan s c).2 (d.scan t c).2 := by
  cases s <;> cases t <;> simp only [Alike] at h
  case outside.outside => exact ⟨rfl, .refl _⟩
  case quoted.quoted => by_cases hc : c = d.closeQuote <;> simp [scan, hc, Alike]
  case closing.closing =>
    by_cases hc : c = d.closeQuote
    · simp [scan, hc, Alike]
    · simp [scan, hc, marks, Alike.refl]
  case marked.marked => subst h; exact ⟨rfl, .refl _⟩

/-- A text read from two states that read alike has the same placeholders. -/
theorem marks_segmentsFrom_alike {s t : Scan} (h : Alike s t) (text : List Char) :
    marks (d.segmentsFrom s text) = marks (d.segmentsFrom t text) := by
  induction text generalizing s t with
  | nil => exact marks_rest h
  | cons c text ih =>
    obtain ⟨hc, hnext⟩ := alike_scan (d := d) h c
    simp only [segmentsFrom, marks_append, hc, ih hnext]

/-- The state behind an inert phrase: in an identifier the phrase belongs to its name, and
everywhere else it stands outside. -/
def behind : Scan → Scan
  | .quoted name => .quoted name
  | _ => .outside

/-- Characters of inert phrases end the placeholder in front of them and begin no other. What
stands behind one inert character stands behind the next one too. -/
theorem marks_segmentsFrom_inert {p : List Char} (hp : d.IsInert p) (s : Scan) (rest : List Char) :
    marks (d.segmentsFrom s (p ++ rest)) =
      marks s.rest ++ marks (d.segmentsFrom (behind s) rest) := by
  obtain ⟨hne, hp⟩ := hp
  induction p generalizing s with
  | nil => exact absurd rfl hne
  | cons c p ih =>
    obtain ⟨⟨hopen, hclose, hstart, hgo⟩, hp⟩ := List.forall_mem_cons.mp hp
    have hmarks : marks (d.scan s c).1 = marks s.rest := by
      cases s <;> simp [scan, scanOutside, hopen, hclose, hstart, hgo, Scan.rest, marks]
    have hnext : Alike (d.scan s c).2 (behind s) := by
      cases s <;> simp [scan, scanOutside, hopen, hclose, hstart, hgo, behind, Alike]
    rw [List.cons_append, segmentsFrom, marks_append, hmarks,
      marks_segmentsFrom_alike hnext (p ++ rest)]
    cases p with
    | nil => rfl
    | cons c' p =>
      rw [ih (behind s) (by simp) hp]
      cases s <;> rfl

/-- Exchanging inert phrases changes no placeholder. -/
theorem marks_eq_of_reworded {a b : List Char} (h : Reworded d a b) (s : Scan) :
    marks (d.segmentsFrom s a) = marks (d.segmentsFrom s b) := by
  induction h generalizing s with
  | nil => rfl
  | keep c _ ih => simp only [segmentsFrom, marks_append, ih]
  | swap hp hr _ ih => rw [marks_segmentsFrom_inert hp, marks_segmentsFrom_inert hr, ih]

/-! ## Null tests -/

open Text (replaceAll splitOn)
open NullTest

/-- Replacing one inert phrase by another rewords a text. -/
theorem reworded_replaceAll {p r : List Char} (hp : d.IsInert p) (hr : d.IsInert r)
    (text : List Char) : Reworded d text (replaceAll p r text) := by
  induction text using Text.cut_induction hp.1 with
  | nil => rw [Text.replaceAll_nil hp.1]; exact .nil
  | occurrence text ih => rw [Text.replaceAll_phrase_append hp.1]; exact .swap hp hr ih
  | character c text hc ih => rw [Text.replaceAll_cons hp.1 _ hc]; exact .keep c ih

/-- The end of a group with an inequality alone. -/
def groupEnd : List Char := differsFromNull ++ [')']

/-- An operand that stands alone in a group stands behind the parenthesis that opens the group. -/
theorem eq_append_of_soleOperand {before outside operand : List Char}
    (h : soleOperand? before = some (outside, operand)) : before = outside ++ '(' :: operand := by
  unfold soleOperand? at h
  split at h
  next found =>
    split at h
    next hmark =>
      cases h
      simp only [Bool.and_eq_true, beq_iff_eq] at hmark
      rw [Text.eq_append_of_splitLast found, hmark.1.1]
    · cases h
  · cases h

/-- Settling one group exchanges inert phrases only. -/
theorem reworded_settleGroup (before : List Char) :
    Reworded d (before ++ groupEnd) (settleGroup before) := by
  have hopen : Reworded d ['('] "NOT (".toList :=
    .phrase (by cases d <;> decide) (by cases d <;> decide)
  have hend : Reworded d groupEnd " IS NULL)".toList :=
    .phrase (by cases d <;> decide) (by cases d <;> decide)
  unfold settleGroup
  split
  next outside operand h =>
    rw [eq_append_of_soleOperand h]
    simpa using (Reworded.refl outside).append (hopen.append ((Reworded.refl operand).append hend))
  · simpa [groupEnd] using Reworded.refl (before ++ groupEnd)

/-- Settling the pieces between groups exchanges inert phrases only. -/
theorem reworded_settlePieces {pieces : List (List Char)} (h : pieces ≠ []) :
    Reworded d (List.intercalate groupEnd pieces) (settlePieces pieces) := by
  induction pieces with
  | nil => exact absurd rfl h
  | cons before pieces ih =>
    cases pieces with
    | nil => simpa [settlePieces] using Reworded.refl before
    | cons next pieces =>
      rw [List.intercalate_cons_cons]
      exact (reworded_settleGroup before).append (ih (by simp))

/-- Settling all groups of a text exchanges inert phrases only. -/
theorem reworded_settleGroups (text : List Char) : Reworded d text (settleGroups text) := by
  have hne : groupEnd ≠ [] := by decide
  have h := reworded_settlePieces (d := d) (Text.splitOn_ne_nil groupEnd text)
  rwa [Text.intercalate_splitOn hne] at h

/-- Putting the null tests into a part of a text keeps its placeholders. -/
theorem marks_finishChars (before text after : List Char) :
    marks (d.segmentsFrom .outside (before ++ (finishChars text ++ after))) =
      marks (d.segmentsFrom .outside (before ++ (text ++ after))) := by
  have within {a b : List Char} (h : Reworded d a b) :
      marks (d.segmentsFrom .outside (before ++ (b ++ after))) =
        marks (d.segmentsFrom .outside (before ++ (a ++ after))) :=
    (marks_eq_of_reworded ((Reworded.refl before).append (h.append (.refl after))) _).symm
  rw [finishChars, within (reworded_replaceAll _ _ _), within (reworded_replaceAll _ _ _),
    within (reworded_settleGroups _), within (reworded_replaceAll _ _ _)] <;>
  cases d <;> decide

end Dialect

end SqlCompose
