import BrowCast.JavaScript.Number

/-! # JSON values and the coercions handlers apply to them

`Json` is what `JSON.parse` returns. A property read, a truth test, a template literal and an
arithmetic operator each convert a value the way the language does, and two of those conversions can
throw: reading a property of `null` or `undefined`, and converting an object to a primitive when a
member called `toString` hides the inherited method (a parsed member is never callable, so neither
`toString` nor `valueOf` then yields a primitive). Throughout, `Option Json` is a value that may be
`undefined`, with `none` for `undefined`. -/

namespace BrowCast

/-- The exceptions the modelled code can raise. -/
inductive JsError where
  /-- `SyntaxError`: `JSON.parse` on text that is no JSON. -/
  | syntaxError
  /-- `TypeError`: a property of `null` or `undefined`, an object with no primitive value, or a URL
  that `url.parse` rejects. -/
  | typeError
  /-- `RangeError`: an argument out of range. -/
  | rangeError
  /-- The error value of an `'error'` event nobody listens to. -/
  | unhandledError
  deriving DecidableEq

/-- A parsed JSON text. Members of an object are listed in property order, each key once. -/
inductive Json where
  | null
  | bool (b : Bool)
  | num (n : Number)
  | str (s : String)
  | arr (elements : List Json)
  | obj (members : List (String × Json))

namespace Json

/-- The value is the string `s` (`value === s`). -/
def isText (s : String) : Option Json → Bool
  | some (.str t) => t == s
  | _ => false

/-- The member `key` of a value that is neither `null` nor `undefined`. Of the keys the code reads,
none is found on the prototypes of strings, numbers, booleans or arrays. -/
def member (key : String) : Json → Option Json
  | .obj members => members.lookup key
  | _ => none

/-- `value.key`: a `TypeError` on `null` and `undefined`. -/
def property (key : String) : Option Json → Except JsError (Option Json)
  | none | some .null => .error .typeError
  | some v => .ok (v.member key)

/-- The truth value of a value. -/
def truthy : Option Json → Bool
  | none | some .null => false
  | some (.bool b) => b
  | some (.num n) => n.truthy
  | some (.str s) => s ≠ ""
  | some (.arr _) | some (.obj _) => true

/-- `a || b`. -/
def orElse (a : Option Json) (b : Json) : Option Json := if truthy a then a else some b

mutual

/-- Converting the value to a primitive throws: an object whose own member `toString` hides the
inherited method, or an array with such an element (arrays convert by joining their elements). -/
def lacksPrimitive : Json → Bool
  | .obj members => (members.lookup "toString").isSome
  | .arr elements => anyLacksPrimitive elements
  | _ => false

/-- Some element of the list cannot be converted to a primitive. -/
def anyLacksPrimitive : List Json → Bool
  | [] => false
  | v :: vs => lacksPrimitive v || anyLacksPrimitive vs

end

/-- The value has a primitive form, so that a template literal or an operator can use it. -/
def convertible : Option Json → Bool
  | none => true
  | some v => !v.lacksPrimitive

/-- `${value}`, for its exception only: the text goes to the console. -/
def toText (v : Option Json) : Except JsError Unit :=
  if convertible v then .ok () else .error .typeError

/-- The number a convertible value stands for. An array converts through the comma-separated texts
of its elements: none gives the empty text, two or more give a text with a comma, and a single
element gives its own text. -/
def numeric : Json → Number
  | .null => .finite false 0
  | .bool b => .finite false (if b then 1 else 0)
  | .num n => n
  | .str s => Number.ofText s
  -- an object prints as `[object Object]`
  | .obj _ => .nan
  | .arr [] => .finite false 0
  -- `null` joins as the empty text, a boolean as its name, and `-0` prints as `0`
  | .arr [.null] => .finite false 0
  | .arr [.bool _] => .nan
  | .arr [.num n] => if n = .finite true 0 then .finite false 0 else n
  | .arr [.str s] => Number.ofText s
  | .arr [.obj _] => .nan
  | .arr [.arr vs] => numeric (.arr vs)
  | .arr (_ :: _ :: _) => .nan

/-- The operand conversion of `*` and `/`: `undefined` is NaN, and values with no primitive form
throw. -/
def toNumber : Option Json → Except JsError Number
  | none => .ok .nan
  | some v => if v.lacksPrimitive then .error .typeError else .ok v.numeric

/-- A number is its own operand. -/
theorem toNumber_num (n : Number) : toNumber (some (.num n)) = .ok n := by
  simp [toNumber, lacksPrimitive, numeric]

/-! ## Object spread

`{ ...value, key: v }` and `JSON.stringify` together: own enumerable properties are copied in order,
a later key overwrites in place or is appended, and members whose value is `undefined` are not
written. -/

/-- The members `{ ...value }` copies: those of an object, the indexed elements of an array, the
indexed characters of a string, none otherwise. -/
def spread : Json → List (String × Json)
  | .obj members => members
  | .arr elements => elements.zipIdx.map fun e => (toString e.2, e.1)
  | .str s => s.toList.zipIdx.map fun e => (toString e.2, .str (String.singleton e.1))
  | _ => []

/-- The members with `key` set to `v`; with `undefined` the key is not written. -/
def withMember (key : String) (v : Option Json) (members : List (String × Json)) :
    List (String × Json) :=
  match v with
  -- the property exists with the value `undefined`, which `JSON.stringify` leaves out
  | none => members.filter fun e => e.1 ≠ key
  | some w =>
      if (members.lookup key).isSome then
        members.map fun e => if e.1 = key then (e.1, w) else e
      else members ++ [(key, w)]

/-- The first member is found under its key, the others behind it. -/
theorem lookup_cons_eq_ite (k l : String) (v : Json) (members : List (String × Json)) :
    ((k, v) :: members).lookup l = if l = k then some v else members.lookup l := by
  by_cases h : l = k
  · simp [h]
  · have hbeq : (l == k) = false := by simpa using h
    simp [List.lookup_cons, hbeq, h]

/-- A member that was taken out is not found, and the others still are. -/
theorem lookup_filter_ne (members : List (String × Json)) (key l : String) :
    (members.filter fun e => e.1 ≠ key).lookup l = if l = key then none else members.lookup l := by
  induction members with
  | nil => simp
  | cons e es ih =>
      obtain ⟨k, w⟩ := e
      by_cases hk : k = key
      · rw [List.filter_cons_of_neg (by simpa using hk), ih, lookup_cons_eq_ite, hk]
        split <;> rfl
      · rw [List.filter_cons_of_pos (by simpa using hk), lookup_cons_eq_ite, lookup_cons_eq_ite, ih]
        by_cases hl : l = k
        · rw [if_pos hl, if_neg (hl ▸ hk), if_pos hl]
        · rw [if_neg hl, if_neg hl]

/-- A member that was overwritten has its new value, and the others keep theirs. -/
theorem lookup_overwrite (members : List (String × Json)) (key l : String) (w : Json) :
    (members.map fun e => if e.1 = key then (e.1, w) else e).lookup l
      = if l = key then (members.lookup key).map fun _ => w else members.lookup l := by
  induction members with
  | nil => simp
  | cons e es ih =>
      obtain ⟨k, v⟩ := e
      rw [List.map_cons, lookup_cons_eq_ite]
      by_cases hk : k = key
      · subst hk
        rw [if_pos rfl, lookup_cons_eq_ite, lookup_cons_eq_ite, ih]
        by_cases hl : l = k <;> simp [hl]
      · have hkey : key ≠ k := fun h => hk h.symm
        rw [if_neg hk, lookup_cons_eq_ite, lookup_cons_eq_ite, ih, if_neg hkey]
        by_cases hl : l = k
        · rw [if_pos hl, if_neg (hl ▸ hk), if_pos hl]
        · rw [if_neg hl, if_neg hl]

/-- Reading a member back after it was set. -/
theorem lookup_withMember (key l : String) (v : Option Json) (members : List (String × Json)) :
    (withMember key v members).lookup l = if l = key then v else members.lookup l := by
  rcases v with _ | w
  · exact lookup_filter_ne members key l
  · simp only [withMember]
    split
    · -- the key is there: it is overwritten in place
      rename_i h
      rw [lookup_overwrite]
      obtain ⟨u, hu⟩ := Option.isSome_iff_exists.mp h
      simp [hu]
    · -- a new key is appended, behind everything that could hide it
      rename_i h
      have hnone : members.lookup key = none := Option.not_isSome_iff_eq_none.mp h
      rw [List.lookup_append]
      rw [lookup_cons_eq_ite, List.lookup_nil]
      by_cases hl : l = key
      · rw [hl, hnone, if_pos rfl, Option.none_or]
      · rw [if_neg hl, if_neg hl, Option.or_none]

end Json

end BrowCast
