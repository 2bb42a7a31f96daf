import SqlCompose.Json.Reading

/-!
# The form of JSON that has been read

A value that has been read is nested less deep than the reader allows, and its objects list every
name once, in order.
-/

namespace SqlCompose

/-! ## Fields in order -/

namespace Fields

variable {α : Type}

/-- Whether fields are listed by name, every name once. -/
def IsSorted (fields : Fields α) : Prop := fields.Pairwise fun a b => a.1 < b.1

/-- Inserting a field adds that field and no other. -/
theorem mem_insert {name : String} {value : α} {fields : Fields α} {field : String × α}
    (h : field ∈ insert name value fields) : field = (name, value) ∨ field ∈ fields := by
  induction fields with
  | nil => simpa [insert] using h
  | cons first rest ih =>
    obtain ⟨key, old⟩ := first
    rw [insert] at h
    split at h
    · grind
    · split at h
      · grind
      · grind

/-- Inserting a field keeps the fields in order. -/
theorem IsSorted.insert {fields : Fields α} (h : IsSorted fields) (name : String) (value : α) :
    IsSorted (insert name value fields) := by
  induction fields with
  | nil => simp [Fields.insert, IsSorted]
  | cons first rest ih =>
    obtain ⟨key, old⟩ := first
    obtain ⟨hfirst, hrest⟩ := List.pairwise_cons.mp h
    rw [Fields.insert]
    split
    · rename_i heq
      subst heq
      exact List.pairwise_cons.mpr ⟨hfirst, hrest⟩
    · split
      · rename_i hlt
        refine List.pairwise_cons.mpr ⟨?_, h⟩
        intro field hfield
        rcases List.mem_cons.mp hfield with rfl | hfield
        · exact hlt
        · exact String.lt_trans hlt (hfirst field hfield)
      · rename_i hne hnlt
        refine List.pairwise_cons.mpr ⟨?_, ih hrest⟩
        intro field hfield
        rcases mem_insert hfield with rfl | hfield
        · exact String.not_le.mp fun hle => hne (String.le_antisymm hle (String.not_lt.mp hnlt))
        · exact hfirst field hfield

/-- Fields inserted one by one are in order. -/
theorem isSorted_ofList (pairs : List (String × α)) : IsSorted (ofList pairs) :=
  List.foldlRecOn pairs _ .nil fun _ h pair _ => h.insert pair.1 pair.2

/-- Fields inserted one by one are among those given. -/
theorem mem_ofList {pairs : List (String × α)} : ∀ field ∈ ofList pairs, field ∈ pairs :=
  List.foldlRecOn (motive := fun fields => ∀ field ∈ fields, field ∈ pairs) pairs _ nofun
    fun _ h _ hpair field hfield => (mem_insert hfield).elim (fun heq => heq ▸ hpair) (h field)

/-- A name behind all others is put at the end. -/
theorem insert_last {name : String} (value : α) {fields : Fields α}
    (h : ∀ field ∈ fields, field.1 < name) :
    Fields.insert name value fields = fields ++ [(name, value)] := by
  induction fields with
  | nil => rfl
  | cons first rest ih =>
    obtain ⟨hfirst, hrest⟩ := List.forall_mem_cons.mp h
    have hne : name ≠ first.1 := fun heq => String.lt_irrefl _ (heq ▸ hfirst)
    rw [Fields.insert, if_neg hne, if_neg (String.lt_asymm hfirst), ih hrest, List.cons_append]

/-- Fields in order are listed as they are. -/
theorem IsSorted.ofList_eq {fields : Fields α} (h : IsSorted fields) : ofList fields = fields := by
  have hall : ∀ pairs start : Fields α, IsSorted (start ++ pairs) →
      pairs.foldl (fun fields field => Fields.insert field.1 field.2 fields) start =
        start ++ pairs := by
    intro pairs
    induction pairs with
    | nil => simp
    | cons pair pairs ih =>
      obtain ⟨name, value⟩ := pair
      intro start hsorted
      have hbefore : ∀ field ∈ start, field.1 < name := fun field hfield =>
        (List.pairwise_append.mp hsorted).2.2 field hfield (name, value) (by simp)
      rw [List.foldl_cons]
      dsimp only
      rw [insert_last value hbefore, ih _ (by simpa using hsorted)]
      simp
  exact hall fields [] h

end Fields

/-! ## What is read -/

/-- Whether a value is nested less deep than a depth, and its objects list their members in
order. -/
inductive Json.Fits : Nat → Json → Prop where
  /-- The null value. -/
  | null {depth : Nat} : Fits depth .null
  /-- A truth value. -/
  | bool {depth : Nat} (b : Bool) : Fits depth (.bool b)
  /-- A number. -/
  | number {depth : Nat} (n : Number) : Fits depth (.number n)
  /-- A string. -/
  | string {depth : Nat} (s : String) : Fits depth (.string s)
  /-- An array, whose items are nested one level less. -/
  | array {depth : Nat} {items : List Json} : 1 < depth →
    (∀ item ∈ items, Fits (depth - 1) item) → Fits depth (.array items)
  /-- An object, whose members are in order and nested one level less. -/
  | object {depth : Nat} {members : List (String × Json)} : 1 < depth → Fields.IsSorted members →
    (∀ member ∈ members, Fits (depth - 1) member.2) → Fits depth (.object members)

namespace Json

/-- A reader that stops under a condition gives a result only without it. -/
theorem eq_some_of_unless {α β : Type} {c : Prop} [Decidable c] {next : β → Option α}
    {read : Option α} {result : α}
    (h : (if c then (none : Option β) >>= next else read) = some result) :
    ¬c ∧ read = some result := by
  split at h
  · cases h
  · exact ⟨by assumption, h⟩

/-- An integer is not nested. -/
theorem fits_ofInt (depth : Nat) (n : Int) : (ofInt n).Fits depth := by
  unfold ofInt
  split
  · exact .number _
  · exact .null

/-- A floating-point number is not nested. -/
theorem fits_ofDouble (depth : Nat) (x : Double) : (ofDouble x).Fits depth := by
  unfold ofDouble
  split
  · exact .number _
  · exact .null

variable {depth : Nat} {j : Json} {rest text : List Char}

/-- A number read with a fraction or an exponent is not nested. -/
theorem fits_float? {negative : Bool} {significand : Nat} {exponent : Int}
    (h : float? negative significand exponent = some j) : j.Fits depth := by
  obtain ⟨x, -, h⟩ := Option.bind_eq_some_iff.mp h
  obtain rfl := Option.some.inj h
  exact fits_ofDouble _ _

/-- A number with the text after it. -/
theorem fits_float?_before {negative : Bool} {significand : Nat} {exponent : Int}
    (h : (float? negative significand exponent >>= fun x => some (x, text)) = some (j, rest)) :
    j.Fits depth := by
  obtain ⟨_, hfloat, h⟩ := Option.bind_eq_some_iff.mp h
  obtain ⟨rfl, -⟩ := Prod.mk.inj (Option.some.inj h)
  exact fits_float? hfloat

/-- A number is not nested, however its numeral ends. -/
theorem fits_finishNumber? {negative : Bool} {significand : Nat} {exponent : Int}
    (h : finishNumber? negative significand exponent text = some (j, rest)) : j.Fits depth := by
  unfold finishNumber? at h
  split at h
  · split at h
    · obtain ⟨_, -, h⟩ := Option.bind_eq_some_iff.mp h
      exact fits_float?_before h
    · exact fits_float?_before h
  · exact fits_float?_before h

/-- A number read as an integer is not nested. -/
theorem fits_readInteger {negative : Bool} {significand dropped : Nat}
    (h : readMagnitude?.readInteger negative significand dropped text = some (j, rest)) :
    j.Fits depth := by
  unfold readMagnitude?.readInteger at h
  split at h
  · exact fits_finishNumber? h
  · split at h
    · split at h
      · obtain ⟨rfl, -⟩ := Prod.mk.inj (Option.some.inj h)
        exact fits_ofInt _ _
      · exact fits_finishNumber? h
    · obtain ⟨rfl, -⟩ := Prod.mk.inj (Option.some.inj h)
      exact fits_ofInt _ _

/-- A number read without its sign is not nested. -/
theorem fits_readMagnitude? {negative : Bool} (h : readMagnitude? negative text = some (j, rest)) :
    j.Fits depth := by
  unfold readMagnitude? at h
  obtain ⟨-, h⟩ := eq_some_of_unless h
  dsimp only at h
  split at h
  · obtain ⟨-, h⟩ := eq_some_of_unless h
    exact fits_finishNumber? h
  · split at h
    · exact fits_finishNumber? h
    · exact fits_readInteger h
  · exact fits_readInteger h

/-- A number that is read is not nested. -/
theorem fits_readNumber? (h : readNumber? text = some (j, rest)) : j.Fits depth := by
  unfold readNumber? at h
  split at h
  · exact fits_readMagnitude? h
  · exact fits_readMagnitude? h

/-- Whether all that is read in a number of steps fits the depth it is read at. -/
structure ReadsFit (fuel : Nat) : Prop where
  /-- A value fits. -/
  value : ∀ {depth text j rest}, readValue? fuel depth text = some (j, rest) → j.Fits depth
  /-- All items of an array fit. -/
  items : ∀ {depth text items rest}, readItems? fuel depth text = some (items, rest) →
    ∀ item ∈ items, item.Fits depth
  /-- All members of an object fit. -/
  members : ∀ {depth text members rest}, readMembers? fuel depth text = some (members, rest) →
    ∀ member ∈ members, Fits depth member.2

variable {fuel : Nat}

/-- A value read in one more step fits, given that all that is read in fewer steps does. -/
theorem ReadsFit.value_succ (ih : ReadsFit fuel)
    (h : readValue? (fuel + 1) depth text = some (j, rest)) : j.Fits depth := by
  rw [readValue?] at h
  split at h
  · cases h
  · obtain ⟨_, -, h⟩ := Option.bind_eq_some_iff.mp h
    obtain ⟨rfl, -⟩ := Prod.mk.inj (Option.some.inj h)
    exact .string _
  · obtain ⟨hdepth, h⟩ := eq_some_of_unless h
    have hdepth : 1 < depth := Nat.lt_of_not_le hdepth
    split at h
    · obtain ⟨rfl, -⟩ := Prod.mk.inj (Option.some.inj h)
      exact .array hdepth nofun
    · obtain ⟨⟨items, _⟩, hitems, h⟩ := Option.bind_eq_some_iff.mp h
      obtain ⟨rfl, -⟩ := Prod.mk.inj (Option.some.inj h)
      exact .array hdepth (ih.items hitems)
  · obtain ⟨hdepth, h⟩ := eq_some_of_unless h
    have hdepth : 1 < depth := Nat.lt_of_not_le hdepth
    split at h
    · obtain ⟨rfl, -⟩ := Prod.mk.inj (Option.some.inj h)
      exact .object hdepth .nil nofun
    · obtain ⟨⟨members, _⟩, hmembers, h⟩ := Option.bind_eq_some_iff.mp h
      obtain ⟨rfl, -⟩ := Prod.mk.inj (Option.some.inj h)
      exact .object hdepth (Fields.isSorted_ofList members) fun member hmember =>
        ih.members hmembers member (Fields.mem_ofList member hmember)
  · obtain ⟨_, -, h⟩ := Option.bind_eq_some_iff.mp h
    obtain ⟨rfl, -⟩ := Prod.mk.inj (Option.some.inj h)
    exact .null
  · obtain ⟨_, -, h⟩ := Option.bind_eq_some_iff.mp h
    obtain ⟨rfl, -⟩ := Prod.mk.inj (Option.some.inj h)
    exact .bool true
  · obtain ⟨_, -, h⟩ := Option.bind_eq_some_iff.mp h
    obtain ⟨rfl, -⟩ := Prod.mk.inj (Option.some.inj h)
    exact .bool false
  · exact fits_readNumber? h

/-- Items read in one more step fit, given that all that is read in fewer steps does. -/
theorem ReadsFit.items_succ (ih : ReadsFit fuel) {items : List Json}
    (h : readItems? (fuel + 1) depth text = some (items, rest)) :
    ∀ item ∈ items, item.Fits depth := by
  rw [readItems?] at h
  obtain ⟨⟨first, _⟩, hfirst, h⟩ := Option.bind_eq_some_iff.mp h
  have hfirst := ih.value hfirst
  dsimp only at h
  split at h
  · obtain ⟨⟨others, _⟩, hothers, h⟩ := Option.bind_eq_some_iff.mp h
    obtain ⟨rfl, -⟩ := Prod.mk.inj (Option.some.inj h)
    exact List.forall_mem_cons.mpr ⟨hfirst, ih.items hothers⟩
  · obtain ⟨rfl, -⟩ := Prod.mk.inj (Option.some.inj h)
    exact List.forall_mem_singleton.mpr hfirst
  · cases h

/-- Members read in one more step fit, given that all that is read in fewer steps does. -/
theorem ReadsFit.members_succ (ih : ReadsFit fuel) {members : List (String × Json)}
    (h : readMembers? (fuel + 1) depth text = some (members, rest)) :
    ∀ member ∈ members, Fits depth member.2 := by
  rw [readMembers?] at h
  split at h
  · obtain ⟨⟨name, _⟩, -, h⟩ := Option.bind_eq_some_iff.mp h
    dsimp only at h
    split at h
    · obtain ⟨⟨value, _⟩, hvalue, h⟩ := Option.bind_eq_some_iff.mp h
      have hvalue := ih.value hvalue
      dsimp only at h
      split at h
      · obtain ⟨⟨others, _⟩, hothers, h⟩ := Option.bind_eq_some_iff.mp h
        obtain ⟨rfl, -⟩ := Prod.mk.inj (Option.some.inj h)
        exact List.forall_mem_cons.mpr ⟨hvalue, ih.members hothers⟩
      · obtain ⟨rfl, -⟩ := Prod.mk.inj (Option.some.inj h)
        exact List.forall_mem_singleton.mpr hvalue
      · cases h
    · cases h
  · cases h

/-- However many steps are made, what is read fits. -/
theorem readsFit (fuel : Nat) : ReadsFit fuel := by
  induction fuel with
  | zero => exact ⟨nofun, nofun, nofun⟩
  | succ fuel ih => exact ⟨ih.value_succ, ih.items_succ, ih.members_succ⟩

/-- A text is read as a value of the form that the reader's depth allows. -/
theorem fits_of_read? {s : String} (h : read? s = some j) : j.Fits 128 := by
  obtain ⟨⟨_, _⟩, hvalue, h⟩ := Option.bind_eq_some_iff.mp h
  dsimp only at h
  split at h
  · obtain rfl := Option.some.inj h
    exact (readsFit _).value hvalue
  · cases h

end Json

end SqlCompose
