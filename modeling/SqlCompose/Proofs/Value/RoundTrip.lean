import SqlCompose.Proofs.Binary.Double
import SqlCompose.Proofs.Json.RoundTrip
import SqlCompose.Value.Json

/-!
# Values that go through JSON

Between values and JSON values there is a way in either direction. A JSON value comes back from the
plainest value it is read as, except for its integers from `2 ^ 63` on: no signed word holds them,
so they are read as floating-point numbers and come back rounded (`toJson_ofJson`). A value comes
back from its JSON form if and only if it is built from null, truth values, integers, finite
numbers, texts, lists and records alone (`ofJson_toJson_eq_iff`).
-/

namespace SqlCompose

/-! ## Integers beyond the signed words -/

namespace Double

/-- The quotient by 2048, rounded, is off by a half at most. -/
theorem divideToEven_bounds (k : Nat) : 2048 * Binary.Format.divideToEven k 2048 ≤ k + 1024 ∧
    k ≤ 2048 * Binary.Format.divideToEven k 2048 + 1024 := by
  unfold Binary.Format.divideToEven
  dsimp only
  split
  · omega
  · split <;> omega

/-- The bits of an integer that an unsigned word holds and a signed one does not: its significand
counts steps of 2048. -/
theorem ofRatio_unsigned {k : Nat} (hlow : 0x8000000000000000 ≤ k)
    (hhigh : k < 0x10000000000000000) : Binary.double.ofRatio k 1 =
      1085 * Binary.double.hidden + Binary.Format.divideToEven k 2048 := by
  have hlog : k.log2 = 63 := (Nat.log2_eq_iff (by omega)).mpr ⟨hlow, hhigh⟩
  have hfraction : Binary.Format.fraction 1 11 = (2048, 1) := rfl
  have hexponent : Binary.double.exponentFor k 1 = 11 := by
    unfold Binary.Format.exponentFor
    rw [hlog]
    have hguess : ((63 : Nat) : Int) - (Nat.log2 1 : Int) - Binary.double.fractionBits = 11 := rfl
    simp only [hguess, hfraction]
    rw [Binary.double_hidden, if_neg (by omega)]
    rfl
  have hbounds := divideToEven_bounds k
  unfold Binary.Format.ofRatio
  rw [if_neg (by omega), hexponent]
  simp only [hfraction]
  rw [Nat.mul_one, Nat.one_mul, Binary.double_leastExponent, Binary.double_hidden,
    Binary.double_infinity]
  omega

/-- A significand that counts steps of 2048; the greatest one is the next power of two. -/
theorem value_steps {m : Nat} (hlow : Binary.double.hidden ≤ m)
    (hhigh : m ≤ 2 * Binary.double.hidden) :
    Binary.double.value (1085 * Binary.double.hidden + m) = 2048 * m := by
  rcases Nat.lt_or_eq_of_le hhigh with hm | rfl
  · have hcanonical : Binary.double.IsCanonical m 11 := by
      rw [Binary.Format.IsCanonical, Binary.double_leastExponent, Binary.double_hidden]
      rw [Binary.double_hidden] at hm hlow
      omega
    have hpack := Binary.double.value_pack hcanonical
    have heq : Binary.double.pack m 11 = 1085 * Binary.double.hidden + m := rfl
    rw [heq] at hpack
    rw [hpack]
    norm_num [mul_comm]
  · -- rounded up to the next power of two, the significand starts anew
    have hcanonical : Binary.double.IsCanonical Binary.double.hidden 12 := by
      rw [Binary.Format.IsCanonical, Binary.double_leastExponent, Binary.double_hidden]
      omega
    have hpack := Binary.double.value_pack hcanonical
    have heq : Binary.double.pack Binary.double.hidden 12 =
        1085 * Binary.double.hidden + 2 * Binary.double.hidden := rfl
    rw [heq] at hpack
    rw [hpack, Binary.double_hidden]
    norm_num

/-- An integer that an unsigned word holds and a signed one does not is rounded to a finite number
that differs from it by 1024 at most. -/
theorem ofInt_unsigned {n : Int} (hlow : 0x8000000000000000 ≤ n)
    (hhigh : n < 0x10000000000000000) :
    (ofInt n).isFinite = true ∧ |(ofInt n).value - n| ≤ 1024 := by
  obtain ⟨k, rfl⟩ := Int.eq_ofNat_of_zero_le (show 0 ≤ n by omega)
  have hbits := ofRatio_unsigned (k := k) (by omega) (by omega)
  obtain ⟨hupper, hlower⟩ := divideToEven_bounds k
  generalize Binary.Format.divideToEven k 2048 = m at hbits hupper hlower
  have hofInt : ofInt k = ofParts false (1085 * Binary.double.hidden + m) := by
    rw [ofInt, Int.natAbs_natCast, hbits, decide_eq_false (by omega)]
  have hsign : 1085 * Binary.double.hidden + m < Binary.double.signBit := by
    rw [Binary.double_hidden, Binary.double_signBit]
    omega
  have hmagnitude : Binary.double.value (1085 * Binary.double.hidden + m) = 2048 * m :=
    value_steps (by rw [Binary.double_hidden]; omega) (by rw [Binary.double_hidden]; omega)
  rw [hofInt]
  constructor
  · rw [isFinite, unsigned_ofParts false hsign, Binary.double_infinity, Binary.double_hidden,
      decide_eq_true_eq]
    omega
  · rw [value, isNegative_ofParts false hsign, unsigned_ofParts false hsign, hmagnitude]
    have hupper : (2048 * m : ℚ) ≤ k + 1024 := by exact_mod_cast hupper
    have hlower : (k : ℚ) ≤ 2048 * m + 1024 := by exact_mod_cast hlower
    rw [if_neg Bool.false_ne_true, one_mul, abs_le, Int.cast_natCast]
    constructor <;> linarith

end Double

namespace Json

/-! ## Numbers -/

namespace Number

/-- The value of a number. -/
def value : Number → ℚ
  | .int n _ => n
  | .float x _ => x.value

/-- Whether a number is a floating-point number or an integer that a signed word holds. -/
def isSigned : Number → Bool
  | .int n _ => decide (n < 0x8000000000000000)
  | .float _ _ => true

/-- A number as values hold it: an integer without a signed word is rounded. -/
def rounded : Number → Number
  | .int n h =>
    if hsigned : n < 0x8000000000000000 then .int n h
    else .float (.ofInt n) (Double.ofInt_unsigned (not_lt.mp hsigned) (of_decide_eq_true h).2).1
  | .float x h => .float x h

/-- Rounding changes exactly the integers beyond the signed words. -/
theorem rounded_eq_self_iff (n : Number) : n.rounded = n ↔ n.isSigned = true := by
  cases n with
  | int n h => by_cases hsigned : n < 0x8000000000000000 <;> simp [rounded, isSigned, hsigned]
  | float x h => simp [rounded, isSigned]

/-- Rounding moves an integer by 1024 at most, half the distance between neighbouring doubles of
that size. -/
theorem value_rounded (n : Number) : |n.rounded.value - n.value| ≤ 1024 := by
  cases n with
  | int n h =>
    by_cases hsigned : n < 0x8000000000000000
    · simp [rounded, hsigned]
    · rw [rounded, dif_neg hsigned]
      exact (Double.ofInt_unsigned (not_lt.mp hsigned) (of_decide_eq_true h).2).2
  | float x h => simp [rounded]

end Number

mutual

/-- A value with each of its numbers replaced. -/
def mapNumbers (f : Number → Number) : Json → Json
  | .number n => .number (f n)
  | .array items => .array (mapNumbersOfItems f items)
  | .object members => .object (mapNumbersOfMembers f members)
  | j => j

/-- Items with each of their numbers replaced. -/
def mapNumbersOfItems (f : Number → Number) : List Json → List Json
  | [] => []
  | item :: items => mapNumbers f item :: mapNumbersOfItems f items

/-- Members with each of their numbers replaced. -/
def mapNumbersOfMembers (f : Number → Number) : List (String × Json) → List (String × Json)
  | [] => []
  | (name, value) :: members => (name, mapNumbers f value) :: mapNumbersOfMembers f members

end

mutual

/-- The numbers in a value. -/
def numbers : Json → List Number
  | .number n => [n]
  | .array items => numbersOfItems items
  | .object members => numbersOfMembers members
  | _ => []

/-- The numbers in the items of an array. -/
def numbersOfItems : List Json → List Number
  | [] => []
  | item :: items => numbers item ++ numbersOfItems items

/-- The numbers in the members of an object. -/
def numbersOfMembers : List (String × Json) → List Number
  | [] => []
  | (_, value) :: members => numbers value ++ numbersOfMembers members

end

section MapNumbers

variable {f : Number → Number}

mutual

/-- A value is kept if and only if each of its numbers is. -/
theorem mapNumbers_eq_self_iff : (j : Json) → (mapNumbers f j = j ↔ ∀ n ∈ numbers j, f n = n)
  | .null => by simp [mapNumbers, numbers]
  | .bool b => by simp [mapNumbers, numbers]
  | .number n => by simp [mapNumbers, numbers]
  | .string s => by simp [mapNumbers, numbers]
  | .array items => by simp [mapNumbers, numbers, mapNumbersOfItems_eq_self_iff items]
  | .object members => by simp [mapNumbers, numbers, mapNumbersOfMembers_eq_self_iff members]

/-- Items are kept if and only if each number in them is. -/
theorem mapNumbersOfItems_eq_self_iff : (items : List Json) →
    (mapNumbersOfItems f items = items ↔ ∀ n ∈ numbersOfItems items, f n = n)
  | [] => by simp [mapNumbersOfItems, numbersOfItems]
  | item :: items => by
    simp [mapNumbersOfItems, numbersOfItems, mapNumbers_eq_self_iff item,
      mapNumbersOfItems_eq_self_iff items, or_imp, forall_and]

/-- Members are kept if and only if each number in them is. -/
theorem mapNumbersOfMembers_eq_self_iff : (members : List (String × Json)) →
    (mapNumbersOfMembers f members = members ↔ ∀ n ∈ numbersOfMembers members, f n = n)
  | [] => by simp [mapNumbersOfMembers, numbersOfMembers]
  | (name, value) :: members => by
    simp [mapNumbersOfMembers, numbersOfMembers, mapNumbers_eq_self_iff value,
      mapNumbersOfMembers_eq_self_iff members, or_imp, forall_and]

end

end MapNumbers

end Json

namespace Value

/-! ## From JSON and back -/

section Numbers

variable {n : Int} (h : Json.isWord n = true)

/-- An integer of the signed words becomes that integer. -/
theorem ofNumber_signed (hsigned : n < 0x8000000000000000) :
    ofNumber (.int n h) = .int (Int64.ofInt n) := by
  rw [ofNumber, Json.Number.toInt64?, if_pos hsigned]

/-- An integer beyond the signed words becomes the nearest double. -/
theorem ofNumber_unsigned (hsigned : ¬n < 0x8000000000000000) :
    ofNumber (.int n h) = .float (.ofInt n) := by
  rw [ofNumber, Json.Number.toInt64?, if_neg hsigned]
  rfl

/-- A floating-point number stays as it is. -/
theorem ofNumber_float {x : Double} (h : x.isFinite = true) :
    ofNumber (.float x h) = .float x := rfl

end Numbers

/-- A number comes back as values hold it. -/
theorem toJson_ofNumber (n : Json.Number) : (ofNumber n).toJson = .number n.rounded := by
  cases n with
  | int n h =>
    by_cases hsigned : n < 0x8000000000000000
    · have hword : -0x8000000000000000 ≤ n := (of_decide_eq_true h).1
      have hback : (Int64.ofInt n).toInt = n := Int64.toInt_ofInt_of_le hword hsigned
      rw [ofNumber_signed h hsigned, Json.Number.rounded, dif_pos hsigned, toJson]
      simp only [Json.ofInt64, hback]
    · rw [ofNumber_unsigned h hsigned, Json.Number.rounded, dif_neg hsigned, toJson,
        Json.ofDouble_eq]
  | float x h => rw [ofNumber_float h, toJson, Json.ofDouble_eq h, Json.Number.rounded]

mutual

/-- A JSON value comes back from the value that it is read as with its numbers as values hold
them. -/
theorem toJson_ofJson : (j : Json) → (ofJson j).toJson = j.mapNumbers Json.Number.rounded
  | .null | .bool _ | .string _ => rfl
  | .number n => toJson_ofNumber n
  | .array items => congrArg Json.array (toJsonItems_ofJsonItems items)
  | .object members => congrArg Json.object (toJsonFields_ofJsonMembers members)

/-- Items come back with their numbers as values hold them. -/
theorem toJsonItems_ofJsonItems : (items : List Json) →
    toJsonItems (ofJsonItems items) = Json.mapNumbersOfItems Json.Number.rounded items
  | [] => rfl
  | item :: items =>
    congrArg₂ List.cons (toJson_ofJson item) (toJsonItems_ofJsonItems items)

/-- Members come back with their numbers as values hold them. -/
theorem toJsonFields_ofJsonMembers : (members : List (String × Json)) →
    toJsonFields (ofJsonMembers members) = Json.mapNumbersOfMembers Json.Number.rounded members
  | [] => rfl
  | (name, value) :: members =>
    congrArg₂ List.cons (congrArg (Prod.mk name) (toJson_ofJson value))
      (toJsonFields_ofJsonMembers members)

end

/-! ## To JSON and back -/

/-- Whether a value is built from null, truth values, integers, finite numbers, texts, lists and
records alone. -/
inductive IsPlain : Value → Prop where
  /-- The absent value. -/
  | null : IsPlain .null
  /-- A truth value. -/
  | bool (b : Bool) : IsPlain (.bool b)
  /-- An integer. -/
  | int (i : Int64) : IsPlain (.int i)
  /-- A finite number. -/
  | float {x : Double} : x.isFinite = true → IsPlain (.float x)
  /-- A text. -/
  | text (s : String) : IsPlain (.text s)
  /-- Several values. -/
  | list {items : List Value} : (∀ item ∈ items, IsPlain item) → IsPlain (.list items)
  /-- Values under names. -/
  | record {fields : List (String × Value)} : (∀ field ∈ fields, IsPlain field.2) →
    IsPlain (.record fields)

/-- A number is read as a plain value. -/
theorem isPlain_ofNumber (n : Json.Number) : (ofNumber n).IsPlain := by
  cases n with
  | int n h =>
    by_cases hsigned : n < 0x8000000000000000
    · rw [ofNumber_signed h hsigned]
      exact .int _
    · rw [ofNumber_unsigned h hsigned]
      exact .float (Double.ofInt_unsigned (not_lt.mp hsigned) (of_decide_eq_true h).2).1
  | float x h => exact .float h

mutual

/-- What is read from JSON is plain. -/
theorem isPlain_ofJson : (j : Json) → (ofJson j).IsPlain
  | .null => .null
  | .bool b => .bool b
  | .number n => isPlain_ofNumber n
  | .string s => .text s
  | .array items => .list (isPlain_of_mem_ofJsonItems items)
  | .object members => .record (isPlain_of_mem_ofJsonMembers members)

/-- Each item of an array becomes a plain value. -/
theorem isPlain_of_mem_ofJsonItems : (items : List Json) →
    ∀ item ∈ ofJsonItems items, IsPlain item
  | [] => nofun
  | item :: items =>
    List.forall_mem_cons.mpr ⟨isPlain_ofJson item, isPlain_of_mem_ofJsonItems items⟩

/-- Each member of an object becomes a plain value. -/
theorem isPlain_of_mem_ofJsonMembers : (members : List (String × Json)) →
    ∀ field ∈ ofJsonMembers members, IsPlain field.2
  | [] => nofun
  | (_, value) :: members =>
    List.forall_mem_cons.mpr ⟨isPlain_ofJson value, isPlain_of_mem_ofJsonMembers members⟩

end

/-- A signed integer comes back from JSON. -/
theorem ofJson_ofInt64 (i : Int64) : ofJson (Json.ofInt64 i) = .int i := by
  rw [Json.ofInt64, ofJson, ofNumber_signed _ i.toInt_lt, Int64.ofInt_toInt]

/-- A finite double comes back from JSON. -/
theorem ofJson_ofDouble {x : Double} (h : x.isFinite = true) :
    ofJson (Json.ofDouble x) = .float x := by
  rw [Json.ofDouble_eq h, ofJson, ofNumber_float h]

/-- A list comes back from JSON if its items do. -/
theorem ofJsonItems_toJsonItems {items : List Value}
    (h : ∀ item ∈ items, ofJson item.toJson = item) : ofJsonItems (toJsonItems items) = items := by
  induction items with
  | nil => rfl
  | cons item items ih =>
    obtain ⟨hitem, hitems⟩ := List.forall_mem_cons.mp h
    rw [toJsonItems, ofJsonItems, hitem, ih hitems]

/-- A record comes back from JSON if its fields do. -/
theorem ofJsonMembers_toJsonFields {fields : List (String × Value)}
    (h : ∀ field ∈ fields, ofJson field.2.toJson = field.2) :
    ofJsonMembers (toJsonFields fields) = fields := by
  induction fields with
  | nil => rfl
  | cons field fields ih =>
    obtain ⟨hfield, hfields⟩ := List.forall_mem_cons.mp h
    rw [toJsonFields, ofJsonMembers, hfield, ih hfields]

/-- A plain value comes back from its JSON form. -/
theorem IsPlain.ofJson_toJson {v : Value} (h : v.IsPlain) : ofJson v.toJson = v := by
  induction h with
  | null | bool b | text s => rfl
  | int i => exact ofJson_ofInt64 i
  | float hfinite => exact ofJson_ofDouble hfinite
  | list _ ih => exact congrArg Value.list (ofJsonItems_toJsonItems ih)
  | record _ ih => exact congrArg Value.record (ofJsonMembers_toJsonFields ih)

/-- A value comes back from its JSON form if and only if it is plain: what is read from JSON always
is. -/
theorem ofJson_toJson_eq_iff {v : Value} : ofJson v.toJson = v ↔ v.IsPlain :=
  ⟨fun h => h ▸ isPlain_ofJson v.toJson, IsPlain.ofJson_toJson⟩

/-- A JSON value comes back from the value that it is read as with each integer from `2 ^ 63` on
rounded to a floating-point number, which moves it by 1024 at most; so it comes back as it was if
and only if no such integer is in it. A value comes back from its JSON form if and only if it is
built from null, truth values, integers, finite numbers, texts, lists and records alone. -/
theorem json_survives_iff (j : Json) (v : Value) :
    (ofJson j).toJson = j.mapNumbers Json.Number.rounded ∧
    (∀ n : Json.Number, n.rounded = n ↔ n.isSigned = true) ∧
    (∀ n : Json.Number, |n.rounded.value - n.value| ≤ 1024) ∧
    ((ofJson j).toJson = j ↔ ∀ n ∈ j.numbers, n.isSigned = true) ∧
    (ofJson v.toJson = v ↔ v.IsPlain) := by
  refine ⟨toJson_ofJson j, Json.Number.rounded_eq_self_iff, Json.Number.value_rounded, ?_,
    ofJson_toJson_eq_iff⟩
  rw [toJson_ofJson, Json.mapNumbers_eq_self_iff]
  simp only [Json.Number.rounded_eq_self_iff]

/-- The least integer that no signed word holds. -/
def leastUnsigned : Json := .ofInt 0x8000000000000000

/-- It is read as a floating-point number and stays one. -/
theorem rounded_leastUnsigned : ofJson leastUnsigned = .float ⟨0x43E0000000000000⟩ ∧
    (ofJson leastUnsigned).toJson = .ofDouble ⟨0x43E0000000000000⟩ ∧
    (ofJson leastUnsigned).toJson ≠ leastUnsigned := by
  have hread : ofJson leastUnsigned = .float ⟨0x43E0000000000000⟩ := rfl
  have hfinite : (⟨0x43E0000000000000⟩ : Double).isFinite = true := by decide
  have hword : Json.isWord 0x8000000000000000 = true := by decide
  refine ⟨hread, congrArg toJson hread, ?_⟩
  rw [hread, toJson, Json.ofDouble_eq hfinite, leastUnsigned, Json.ofInt_eq hword]
  nofun

end Value

end SqlCompose
