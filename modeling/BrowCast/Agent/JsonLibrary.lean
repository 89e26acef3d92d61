import BrowCast.Agent.InputInjector
import BrowCast.JavaScript.JsonValue

/-! # The JSON library of the agent

The message handler reads the fields of a parsed message with `json_msg.value(key, fallback)` of
`nlohmann::json`. The library is no part of the repository: what it returns is a parameter, and
`JsonLibrary.Documented` lists what the handler relies on. Conversion to `int` is a `static_cast`,
from a 64-bit integer where the text is an integer that fits one, and from a `double` otherwise; the
second is undefined unless the truncated number is an `int`. A number of a `Json` is the one that
its digits say, as a browser writes them: up to `10 ^ 21` integers without fraction or exponent, and
other numbers with just the digits that tell the `double` apart. Such digits are never so near to an
integer that rounding them to the `double` would change what is truncated. -/

namespace BrowCast

/-- `value(key, fallback)` of the library, for the types of `fallback` in the handler. -/
structure JsonLibrary where
  /-- For a `std::string`. -/
  valueString : Json → String → String → Except CppError String
  /-- For a `bool`. -/
  valueBool : Json → String → Bool → Except CppError Bool
  /-- For an `int`. -/
  valueInt : Json → String → ℤ → Except CppError ℤ

/-- Reading the number as an `int` is defined: its integer part is an `int`, or it is an integer of
one of the 64-bit types. -/
def ReadsAsInt (q : ℚ) : Prop :=
  CInt.FitsInt (truncated q) ∨
    q.den = 1 ∧ -9223372036854775808 ≤ q.num ∧ q.num ≤ 18446744073709551615

instance (q : ℚ) : Decidable (ReadsAsInt q) := inferInstanceAs (Decidable (_ ∨ _))

namespace JsonLibrary

/-- What the documentation says of the fields the handler reads. -/
structure Documented (json : JsonLibrary) : Prop where
  /-- A text is read as it is. -/
  string {v : Json} {key s : String} (fallback : String) (hmember : v.member key = some (.str s)) :
    json.valueString v key fallback = .ok s
  /-- A truth value is read as it is. -/
  bool {v : Json} {key : String} {b : Bool} (fallback : Bool)
    (hmember : v.member key = some (.bool b)) : json.valueBool v key fallback = .ok b
  /-- A number is truncated, and of an integer that is no `int` the low 32 bits are kept. -/
  int {v : Json} {key : String} {q : ℚ} (fallback : ℤ)
    (hmember : v.member key = some (.num (.ofRat q))) (hreads : ReadsAsInt q) :
    json.valueInt v key fallback = .ok (CInt.wrap (truncated q))
  /-- Reading a number as an `int` throws nothing, whatever it gives. -/
  number {v : Json} {key : String} {q : ℚ} (fallback : ℤ)
    (hmember : v.member key = some (.num (.ofRat q))) :
    ∃ n, json.valueInt v key fallback = .ok n
  /-- A field that is missing has its default. -/
  missing {members : List (String × Json)} {key : String} (fallback : ℤ)
    (hmember : (Json.obj members).member key = none) :
    json.valueInt (.obj members) key fallback = .ok fallback

/-- A natural number that fits is read as it is. -/
theorem Documented.natCast {json : JsonLibrary} (hjson : json.Documented) {v : Json} {key : String}
    {n : ℕ} (fallback : ℤ) (hmember : v.member key = some (.num (.finite false n)))
    (hfits : CInt.FitsInt n) : json.valueInt v key fallback = .ok n := by
  have htruncated : truncated (n : ℚ) = n := truncated_intCast n
  rw [← Number.ofRat_natCast] at hmember
  have hread := hjson.int fallback hmember (Or.inl (htruncated ▸ hfits))
  rwa [htruncated, CInt.wrap_of_fits hfits] at hread

/-! ## A library -/

/-- `value` with the conversion of a member that is there. It throws on a value that is no
object. -/
def valueOr {α : Type} (convert : Json → Except CppError α) (v : Json) (key : String)
    (fallback : α) : Except CppError α :=
  match v with
  | .obj members =>
      match members.lookup key with
      | none => .ok fallback
      | some member => convert member
  | _ => .error .typeError

/-- Conversion to `std::string`. -/
def getString : Json → Except CppError String
  | .str s => .ok s
  | _ => .error .typeError

/-- Conversion to `bool`. -/
def getBool : Json → Except CppError Bool
  | .bool b => .ok b
  | _ => .error .typeError

/-- Conversion to `int`, where the undefined conversions keep the low 32 bits too. -/
def getInt : Json → Except CppError ℤ
  | .num (.finite negative m) =>
      let n : ℤ := m.num / m.den
      .ok (CInt.wrap (if negative then -n else n))
  | .num _ => .error .outOfRange
  | .bool b => .ok (if b then 1 else 0)
  | _ => .error .typeError

/-- The library that keeps the low 32 bits of every number. -/
def lowBits : JsonLibrary where
  valueString := valueOr getString
  valueBool := valueOr getBool
  valueInt := valueOr getInt

/-- `valueOr` converts the member that is there. -/
theorem valueOr_of_member {α : Type} (convert : Json → Except CppError α) {v w : Json}
    {key : String} (fallback : α) (hmember : v.member key = some w) :
    valueOr convert v key fallback = convert w := by
  cases v with
  | obj members =>
      rw [Json.member] at hmember
      simp only [valueOr, hmember]
  | _ => cases hmember

/-- `getInt` truncates a number and keeps its low 32 bits. -/
theorem getInt_ofRat (q : ℚ) : getInt (.num (.ofRat q)) = .ok (CInt.wrap (truncated q)) := by
  have habs (m : ℚ≥0) (hm : (m : ℚ) = |q|) :
      getInt (.num (.finite (decide (q < 0)) m)) = .ok (CInt.wrap (truncated q)) := by
    rw [getInt, num_ediv_den, hm]
    by_cases hq : q < 0
    · rw [if_pos (decide_eq_true hq), abs_of_neg hq, truncated_neg, neg_neg]
    · rw [if_neg (by simpa using hq), abs_of_nonneg (not_lt.mp hq)]
  exact habs _ rfl

/-- Such a library behaves as documented. -/
theorem lowBits_documented : lowBits.Documented where
  string fallback hmember := valueOr_of_member getString fallback hmember
  bool fallback hmember := valueOr_of_member getBool fallback hmember
  int fallback hmember _ := (valueOr_of_member getInt fallback hmember).trans (getInt_ofRat _)
  number fallback hmember :=
    ⟨_, (valueOr_of_member getInt fallback hmember).trans (getInt_ofRat _)⟩
  missing fallback hmember := by
    rw [Json.member] at hmember
    simp only [lowBits, valueOr, hmember]

end JsonLibrary

end BrowCast
