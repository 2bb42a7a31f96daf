import SqlCompose.Proofs.Condition.Group
import SqlCompose.Proofs.Query.Walk

/-!
# Drafts of several conditions

Each step with a predicate adds a condition to a draft. The first one stands alone; with the second
one both become groups, and every further one is a group from the start (`Sql.Conjoined.concat`).
-/

namespace SqlCompose.Sql

/-- Only no pieces at all have no tokens. -/
theorem flatMap_tokens_eq_nil {ps : List Piece} : ps.flatMap Piece.tokens = [] ↔ ps = [] := by
  have htokens (p : Piece) : p.tokens ≠ [] := by cases p <;> simp [Piece.tokens]
  constructor
  · intro h
    cases ps with
    | nil => rfl
    | cons p ps => exact absurd (List.append_eq_nil_iff.mp h).1 (htokens p)
  · rintro rfl
    rfl

/-- The last group stands behind a conjunction. -/
theorem joined_concat {gs : List (List Piece)} (h : gs ≠ []) (g : List Piece) :
    joined (gs ++ [g]) = joined gs ++ .op .and :: g := by
  cases gs with
  | nil => exact absurd rfl h
  | cons g' gs => simp [joined]

/-- A condition behind others comes in a group, and so do the others. -/
theorem conjunction_concat {bodies : List (List Piece)} (h : bodies ≠ []) (ps : List Piece) :
    conjunction (bodies ++ [ps]) =
      joined (bodies.map parenthesized) ++ .op .and :: parenthesized ps := by
  have hseveral (qs : List Piece) : bodies ++ [ps] ≠ [qs] := by
    cases bodies with
    | nil => exact absurd rfl h
    | cons => simp
  rw [conjunction_of_ne hseveral, List.map_append, List.map_singleton,
    joined_concat (by simpa using h)]

/-- The conjunction of some pieces is written. -/
theorem conjunction_ne_nil {bodies : List (List Piece)} (hne : bodies ≠ [])
    (h : ∀ ps ∈ bodies, ps ≠ []) : conjunction bodies ≠ [] := by
  match bodies with
  | [] => exact absurd rfl hne
  | [ps] => exact h ps (by simp)
  | ps :: next :: bodies => simp [conjunction, joined, parenthesized]

/-- Whether the condition of a draft consists of several ones that all have to hold. -/
structure Conjoined (d : Draft) (bodies : List (List Piece)) : Prop where
  tokens : d.tokens = (conjunction bodies).flatMap Piece.tokens
  grouped : d.grouped = decide (2 ≤ bodies.length)
  ne_nil : ∀ ps ∈ bodies, ps ≠ []

namespace Conjoined

variable {d d' : Draft} {bodies : List (List Piece)}

/-- Only tokens and groups matter. -/
theorem congr (h : Conjoined d bodies) (ht : d'.tokens = d.tokens) (hg : d'.grouped = d.grouped) :
    Conjoined d' bodies :=
  ⟨ht ▸ h.tokens, hg ▸ h.grouped, h.ne_nil⟩

/-- There is a condition if and only if something has been written. -/
theorem isEmpty_tokens (h : Conjoined d bodies) : d.tokens.isEmpty = bodies.isEmpty := by
  rw [h.tokens]
  cases bodies with
  | nil => rfl
  | cons ps bodies =>
    have hwritten : conjunction (ps :: bodies) ≠ [] := conjunction_ne_nil (by simp) h.ne_nil
    rw [List.isEmpty_cons, List.isEmpty_eq_false_iff]
    exact fun hnil => hwritten (flatMap_tokens_eq_nil.mp hnil)

/-- A group opens behind the groups that there are. -/
theorem tokens_openGroup (h : Conjoined d bodies) (hne : bodies ≠ []) :
    d.openGroup.tokens =
      (joined (bodies.map parenthesized)).flatMap Piece.tokens ++ [.op .and, .word "("] := by
  have hgrouped := h.grouped
  have htokens := h.tokens
  match bodies with
  | [] => exact absurd rfl hne
  | [ps] =>
    have hsingle : d.grouped = false := hgrouped
    simp [Draft.openGroup, hsingle, htokens, conjunction, joined, parenthesized, Piece.tokens]
  | ps :: next :: bodies =>
    have hseveral : d.grouped = true := by simpa using hgrouped
    simp [Draft.openGroup, hseveral, htokens, conjunction]

/-- The condition of a step comes behind what there is. -/
theorem concat (h : Conjoined d bodies) {d₁ : Draft} {ps : List Piece} (hps : ps ≠ [])
    (htokens : d₁.tokens = d.beginFilter.tokens ++ ps.flatMap Piece.tokens)
    (hgrouped : d₁.grouped = d.beginFilter.grouped) :
    Conjoined (d₁.endFilter d.tokens.isEmpty) (bodies ++ [ps]) := by
  have hall : ∀ qs ∈ bodies ++ [ps], qs ≠ [] :=
    List.forall_mem_append.mpr ⟨h.ne_nil, List.forall_mem_singleton.mpr hps⟩
  rw [Draft.beginFilter] at htokens hgrouped
  rw [h.isEmpty_tokens] at htokens hgrouped ⊢
  cases bodies with
  | nil =>
    have hnil : d.tokens = [] := h.tokens
    refine ⟨?_, hgrouped.trans h.grouped, hall⟩
    rwa [if_pos List.isEmpty_nil, Draft.setNested, hnil] at htokens
  | cons body bodies =>
    have hne : body :: bodies ≠ [] := by simp
    rw [List.isEmpty_cons, if_neg Bool.false_ne_true] at htokens hgrouped
    refine ⟨?_, ?_, hall⟩
    · have htokens : d₁.tokens = d.openGroup.tokens ++ ps.flatMap Piece.tokens := htokens
      rw [conjunction_concat hne, Draft.endFilter, List.isEmpty_cons, if_neg nofun, Draft.put,
        Draft.setNested, htokens, h.tokens_openGroup hne]
      simp [parenthesized, Piece.tokens]
    · have hgrouped : d₁.grouped = true := hgrouped
      simp [Draft.endFilter, Draft.put, Draft.setNested, hgrouped]

end Conjoined

end SqlCompose.Sql
