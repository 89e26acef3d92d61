import Mathlib.Algebra.Order.Ring.Rat
import Mathlib.Algebra.Field.Rat
import Mathlib.Algebra.Order.Floor.Ring
import Mathlib.Data.Rat.Floor

/-! # JavaScript numbers in exact arithmetic

A `Number` is the language's number type with exact rationals in place of doubles: NaN, the two
infinities, and signed finite values in sign-magnitude form, so that `-0` and `+0` stay two values.
Rounding and overflow of binary64 operations are not modelled; the special values and the signs of
zero are.

`Number.ofText` is the conversion of a string to a number (`StringToNumber`): white space is
trimmed, the empty text is `0`, anything that is no numeric literal is NaN, and literals beyond the
range of a double are infinite or zero. -/

namespace BrowCast

/-- A JavaScript number: NaN, a signed infinity, or a signed exact magnitude. -/
inductive Number where
  /-- `NaN`. -/
  | nan
  /-- `Infinity`, or `-Infinity` when negative. -/
  | infinity (negative : Bool)
  /-- A finite number in sign-magnitude form; `finite true 0` is `-0`. -/
  | finite (negative : Bool) (magnitude : ℚ≥0)
  deriving DecidableEq

namespace Number

/-- The non-negative number with the given magnitude. -/
def ofMagnitude (q : ℚ≥0) : Number := .finite false q

/-- Change the sign (unary minus). -/
def neg : Number → Number
  | .nan => .nan
  | .infinity s => .infinity (!s)
  | .finite s m => .finite (!s) m

/-- Multiplication: signs multiply, and zero times infinity is NaN. -/
def mul : Number → Number → Number
  | .nan, _ | _, .nan => .nan
  | .infinity s, .infinity t => .infinity (s ^^ t)
  | .infinity s, .finite t m | .finite s m, .infinity t =>
      if m = 0 then .nan else .infinity (s ^^ t)
  | .finite s m, .finite t n => .finite (s ^^ t) (m * n)

/-- Division: a non-zero number over zero is an infinity; zero over zero and infinity over infinity
are NaN. -/
def div : Number → Number → Number
  | .nan, _ | _, .nan => .nan
  | .infinity _, .infinity _ => .nan
  | .infinity s, .finite t _ => .infinity (s ^^ t)
  | .finite s _, .infinity t => .finite (s ^^ t) 0
  | .finite s m, .finite t n =>
      if n = 0 then (if m = 0 then .nan else .infinity (s ^^ t)) else .finite (s ^^ t) (m / n)

/-- Addition: infinities of opposite sign give NaN, magnitudes of opposite sign cancel to `+0`. -/
def add : Number → Number → Number
  | .nan, _ | _, .nan => .nan
  | .infinity s, .infinity t => if s = t then .infinity s else .nan
  | .infinity s, .finite _ _ | .finite _ _, .infinity s => .infinity s
  | .finite s m, .finite t n =>
      if s = t then .finite s (m + n)
      else if m = n then .finite false 0
      else if n < m then .finite s (m - n)
      else .finite t (n - m)

/-- Subtraction. -/
def sub (a b : Number) : Number := add a b.neg

/-- `a > b`; the zeros are equal, and NaN compares with nothing. -/
def greater : Number → Number → Bool
  | .nan, _ | _, .nan => false
  | .infinity s, .infinity t => !s && t
  | .infinity s, .finite _ _ => !s
  | .finite _ _, .infinity t => t
  | .finite s m, .finite t n =>
      decide ((if t then -(n : ℚ) else n) < if s then -(m : ℚ) else m)

/-- `Math.round(a)`: to the nearest integer, halves upwards; the sign stays, also of a zero. -/
def round : Number → Number
  | .finite s m => .finite s ⌊(if s then -(m : ℚ) else m) + 1 / 2⌋.natAbs
  | a => a

/-- The number for a rational. -/
def ofRat (q : ℚ) : Number := .finite (decide (q < 0)) ⟨|q|, abs_nonneg q⟩

/-- The number for a natural. -/
theorem ofRat_natCast (n : ℕ) : ofRat n = .finite false n := by
  have hnonneg : (0 : ℚ) ≤ n := Nat.cast_nonneg n
  have habs : (⟨|(n : ℚ)|, abs_nonneg _⟩ : ℚ≥0) = n :=
    Subtype.ext ((abs_of_nonneg hnonneg).trans (NNRat.coe_natCast n).symm)
  rw [ofRat, decide_eq_false (not_lt.mpr hnonneg)]
  exact congrArg (finite false) habs

/-- The order `Math.min` and `Math.max` use on numbers other than NaN; `-0` is below `+0`. -/
def below : Number → Number → Bool
  | .infinity true, _ => true
  | _, .infinity true => false
  | _, .infinity false => true
  | .infinity false, _ => false
  -- `-0` lies below `+0`, so the sign decides first
  | .finite true _, .finite false _ => true
  | .finite false _, .finite true _ => false
  | .finite false m, .finite false n => decide (m ≤ n)
  | .finite true m, .finite true n => decide (n ≤ m)
  | _, _ => false

/-- `Math.min(a, b)`: NaN if either argument is. -/
def min : Number → Number → Number
  | .nan, _ | _, .nan => .nan
  | a, b => if below a b then a else b

/-- `Math.max(a, b)`: NaN if either argument is. -/
def max : Number → Number → Number
  | .nan, _ | _, .nan => .nan
  | a, b => if below a b then b else a

/-- Falsy numbers are NaN and the two zeros. -/
def truthy : Number → Bool
  | .nan => false
  | .infinity _ => true
  | .finite _ m => decide (m ≠ 0)

/-! ## Text to number -/

/-- The white space and line terminators that `StringToNumber` trims. -/
def isWhiteSpace (c : Char) : Bool :=
  let n := c.toNat
  (9 ≤ n && n ≤ 13) || n == 0x20 || n == 0xA0 || n == 0x1680 || (0x2000 ≤ n && n ≤ 0x200A) ||
    n == 0x2028 || n == 0x2029 || n == 0x202F || n == 0x205F || n == 0x3000 || n == 0xFEFF

/-- Drop white space at both ends. -/
def trim (cs : List Char) : List Char :=
  ((cs.dropWhile isWhiteSpace).reverse.dropWhile isWhiteSpace).reverse

/-- The value of one digit in a base up to sixteen. -/
def digitValue (c : Char) : Option ℕ :=
  if '0' ≤ c ∧ c ≤ '9' then some (c.toNat - '0'.toNat)
  else if 'a' ≤ c ∧ c ≤ 'f' then some (c.toNat - 'a'.toNat + 10)
  else if 'A' ≤ c ∧ c ≤ 'F' then some (c.toNat - 'A'.toNat + 10)
  else none

/-- A non-empty digit string in the given base. -/
def ofDigits (base : ℕ) (cs : List Char) : Option ℕ :=
  if cs.isEmpty then none
  else cs.foldl (fun acc c => do
    let value ← acc
    let digit ← digitValue c
    if digit < base then some (value * base + digit) else none) (some 0)

/-- `10 ^ e`, for an exponent of either sign, times `m`. -/
def scaleByTen (m : ℚ≥0) : ℤ → ℚ≥0
  | .ofNat e => m * (10 ^ e : ℕ)
  | .negSucc e => m / (10 ^ (e + 1) : ℕ)

/-- The exponent part of a decimal literal: nothing, or `e` with an optionally signed integer. -/
def ofExponent : List Char → Option ℤ
  | [] => some 0
  | c :: cs =>
      if c = 'e' ∨ c = 'E' then
        match cs with
        | '-' :: ds => (ofDigits 10 ds).map fun n => -(n : ℤ)
        | '+' :: ds => (ofDigits 10 ds).map fun n => (n : ℤ)
        | ds => (ofDigits 10 ds).map fun n => (n : ℤ)
      else none

/-- An unsigned decimal literal: digits, an optional fraction, an optional exponent. -/
def ofDecimal (cs : List Char) : Option ℚ≥0 := do
  let whole := cs.takeWhile Char.isDigit
  let rest := cs.dropWhile Char.isDigit
  let fraction := match rest with
    | '.' :: ds => ds.takeWhile Char.isDigit
    | _ => []
  let rest := match rest with
    | '.' :: ds => ds.dropWhile Char.isDigit
    | ds => ds
  -- `whole.fraction` is the integer `whole fraction`, shifted by the length of the fraction;
  -- one of the two parts may be empty, but not both
  let digits ← ofDigits 10 (whole ++ fraction)
  let exponent ← ofExponent rest
  return scaleByTen (digits : ℚ≥0) (exponent - fraction.length)

/-- The number of a literal with this value: from the middle between the largest double and
`2 ^ 1024` on it is infinite, and up to half the least double it is zero. -/
def ofLiteral (m : ℚ≥0) : Number :=
  if ((2 ^ 1024 - 2 ^ 970 : ℕ) : ℚ≥0) ≤ m then .infinity false
  else if m * (2 ^ 1075 : ℕ) ≤ 1 then .finite false 0
  else .finite false m

/-- A decimal literal without its sign, `Infinity` included. -/
def ofUnsigned (cs : List Char) : Number :=
  if cs = "Infinity".toList then .infinity false
  else match ofDecimal cs with
    | some m => ofLiteral m
    | none => .nan

/-- `StringToNumber`: the number a text stands for, NaN when it is no numeric literal. -/
def ofText (text : String) : Number :=
  match trim text.toList with
  | [] => .finite false 0
  -- prefixed literals take no sign
  | '0' :: 'x' :: ds | '0' :: 'X' :: ds => ofRadix 16 ds
  | '0' :: 'o' :: ds | '0' :: 'O' :: ds => ofRadix 8 ds
  | '0' :: 'b' :: ds | '0' :: 'B' :: ds => ofRadix 2 ds
  | '-' :: cs => (ofUnsigned cs).neg
  | '+' :: cs => ofUnsigned cs
  | cs => ofUnsigned cs
where
  /-- The digits of a prefixed integer literal. -/
  ofRadix (base : ℕ) (ds : List Char) : Number :=
    match ofDigits base ds with
    | some n => ofLiteral n
    | none => .nan

example : ofText " -12.5e1 " = .finite true 125 := by decide +kernel

example : ofText "-1e309" = .infinity true ∧ ofText "1e-400" = .finite false 0 := by
  decide +kernel

end Number

end BrowCast
