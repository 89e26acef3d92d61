import Mathlib.Algebra.Group.Nat.Defs
import Mathlib.Data.Nat.Notation
import Mathlib.Data.List.Basic

/-! # Base64

The encoding of bytes in groups of three by four characters each, with padding, and its strict
decoder. -/

namespace BrowCast.Base64

/-- The character of a value below 64. -/
def digit (n : ℕ) : Char :=
  if n < 26 then Char.ofNat (0x41 + n)
  else if n < 52 then Char.ofNat (0x61 + (n - 26))
  else if n < 62 then Char.ofNat (0x30 + (n - 52))
  else if n = 62 then '+'
  else '/'

/-- The value of a character. -/
def value (c : Char) : Option ℕ :=
  if 'A' ≤ c ∧ c ≤ 'Z' then some (c.toNat - 0x41)
  else if 'a' ≤ c ∧ c ≤ 'z' then some (c.toNat - 0x61 + 26)
  else if '0' ≤ c ∧ c ≤ '9' then some (c.toNat - 0x30 + 52)
  else if c = '+' then some 62
  else if c = '/' then some 63
  else none

/-- The text of a sequence of bytes. -/
def encode : List UInt8 → List Char
  | [] => []
  | [a] => [digit (a.toNat / 4), digit (a.toNat % 4 * 16), '=', '=']
  | [a, b] =>
      [digit (a.toNat / 4), digit (a.toNat % 4 * 16 + b.toNat / 16), digit (b.toNat % 16 * 4), '=']
  | a :: b :: c :: rest =>
      digit (a.toNat / 4) :: digit (a.toNat % 4 * 16 + b.toNat / 16) ::
        digit (b.toNat % 16 * 4 + c.toNat / 64) :: digit (c.toNat % 64) :: encode rest

/-- The byte of two padding characters; the bits that are left must be zero. -/
def lastByte (p q : Char) : Option (List UInt8) := do
  let p ← value p
  let q ← value q
  if q % 16 = 0 then some [.ofNat (p * 4 + q / 16)] else none

/-- The bytes of one padding character; the bits that are left must be zero. -/
def lastBytes (p q r : Char) : Option (List UInt8) := do
  let p ← value p
  let q ← value q
  let r ← value r
  if r % 4 = 0 then some [.ofNat (p * 4 + q / 16), .ofNat (q % 16 * 16 + r / 4)] else none

/-- The bytes of a group without padding. -/
def wholeGroup (p q r s : Char) : Option (List UInt8) := do
  let p ← value p
  let q ← value q
  let r ← value r
  let s ← value s
  some [.ofNat (p * 4 + q / 16), .ofNat (q % 16 * 16 + r / 4), .ofNat (r % 4 * 64 + s)]

/-- The bytes of a text, if it is the encoding of some. -/
def decode : List Char → Option (List UInt8)
  | [] => some []
  | [p, q, '=', '='] => lastByte p q
  | [p, q, r, '='] => lastBytes p q r
  | p :: q :: r :: s :: rest => do
      let bytes ← wholeGroup p q r s
      let others ← decode rest
      some (bytes ++ others)
  | _ => none

/-! ## Characters -/

/-- The value of a digit is the number it was made for. -/
theorem value_digit : ∀ n < 64, value (digit n) = some n := by decide

/-- Padding is no character of a value. -/
theorem digit_ne_padding : ∀ n < 64, digit n ≠ '=' := by decide

/-! ## Decoding what was encoded -/

/-- A byte is put together again from the parts it was split into. -/
theorem ofNat_eq {a : UInt8} {n : ℕ} (h : n = a.toNat) : UInt8.ofNat n = a := by
  rw [h, UInt8.ofNat_toNat]

/-- Two digits give a last byte back. -/
theorem lastByte_digit (a : UInt8) :
    lastByte (digit (a.toNat / 4)) (digit (a.toNat % 4 * 16)) = some [a] := by
  have ha := a.toNat_lt
  have hp := value_digit (a.toNat / 4) (by omega)
  have hq := value_digit (a.toNat % 4 * 16) (by omega)
  have hbyte : UInt8.ofNat (a.toNat / 4 * 4 + a.toNat % 4 * 16 / 16) = a := ofNat_eq (by omega)
  simp only [lastByte, hp, hq, Option.bind_eq_bind, Option.bind_some, hbyte]
  rw [if_pos (by omega)]

/-- Three digits give two last bytes back. -/
theorem lastBytes_digit (a b : UInt8) :
    lastBytes (digit (a.toNat / 4)) (digit (a.toNat % 4 * 16 + b.toNat / 16))
      (digit (b.toNat % 16 * 4)) = some [a, b] := by
  have ha := a.toNat_lt
  have hb := b.toNat_lt
  have hp := value_digit (a.toNat / 4) (by omega)
  have hq := value_digit (a.toNat % 4 * 16 + b.toNat / 16) (by omega)
  have hr := value_digit (b.toNat % 16 * 4) (by omega)
  have hfirst : UInt8.ofNat (a.toNat / 4 * 4 + (a.toNat % 4 * 16 + b.toNat / 16) / 16) = a :=
    ofNat_eq (by omega)
  have hsecond : UInt8.ofNat ((a.toNat % 4 * 16 + b.toNat / 16) % 16 * 16 +
      b.toNat % 16 * 4 / 4) = b := ofNat_eq (by omega)
  simp only [lastBytes, hp, hq, hr, Option.bind_eq_bind, Option.bind_some, hfirst, hsecond]
  rw [if_pos (by omega)]

/-- Four digits give three bytes back. -/
theorem wholeGroup_digit (a b c : UInt8) :
    wholeGroup (digit (a.toNat / 4)) (digit (a.toNat % 4 * 16 + b.toNat / 16))
      (digit (b.toNat % 16 * 4 + c.toNat / 64)) (digit (c.toNat % 64)) = some [a, b, c] := by
  have ha := a.toNat_lt
  have hb := b.toNat_lt
  have hc := c.toNat_lt
  have hp := value_digit (a.toNat / 4) (by omega)
  have hq := value_digit (a.toNat % 4 * 16 + b.toNat / 16) (by omega)
  have hr := value_digit (b.toNat % 16 * 4 + c.toNat / 64) (by omega)
  have hs := value_digit (c.toNat % 64) (by omega)
  have hfirst : UInt8.ofNat (a.toNat / 4 * 4 + (a.toNat % 4 * 16 + b.toNat / 16) / 16) = a :=
    ofNat_eq (by omega)
  have hsecond : UInt8.ofNat ((a.toNat % 4 * 16 + b.toNat / 16) % 16 * 16 +
      (b.toNat % 16 * 4 + c.toNat / 64) / 4) = b := ofNat_eq (by omega)
  have hthird : UInt8.ofNat ((b.toNat % 16 * 4 + c.toNat / 64) % 4 * 64 + c.toNat % 64) = c :=
    ofNat_eq (by omega)
  simp only [wholeGroup, hp, hq, hr, hs, Option.bind_eq_bind, Option.bind_some, hfirst, hsecond,
    hthird]

/-- A group that does not end in padding is decoded as a whole. -/
theorem decode_cons {p q r s : Char} {rest : List Char} (hs : s ≠ '=') :
    decode (p :: q :: r :: s :: rest) =
      (wholeGroup p q r s).bind fun bytes => (decode rest).bind fun others =>
        some (bytes ++ others) := by
  rw [decode]
  · rfl
  · rintro - rfl -
    exact hs rfl
  · rintro rfl -
    exact hs rfl

/-- **The decoder inverts the encoding.** -/
theorem decode_encode (bytes : List UInt8) : decode (encode bytes) = some bytes := by
  fun_induction encode bytes with
  | case1 => rfl
  | case2 a => exact lastByte_digit a
  | case3 a b =>
      have hr := digit_ne_padding (b.toNat % 16 * 4) (by omega)
      rw [decode]
      · exact lastBytes_digit a b
      · intro heq
        exact hr heq
  | case4 a b c rest ih =>
      rw [decode_cons (digit_ne_padding _ (by omega)), wholeGroup_digit, ih]
      rfl

example : encode [0x4D, 0x61] = "TWE=".toList := by decide

/-! ## Length and padding -/

/-- Four characters for every three bytes that have begun. -/
theorem length_encode (bytes : List UInt8) :
    (encode bytes).length = 4 * ((bytes.length + 2) / 3) := by
  fun_induction encode bytes with
  | case1 => rfl
  | case2 a => simp only [List.length_cons, List.length_nil]
  | case3 a b => simp only [List.length_cons, List.length_nil]
  | case4 a b c rest ih =>
      simp only [List.length_cons, ih]
      omega

/-- The padding is at the end, and at most two characters long. -/
theorem exists_encode_eq_append (bytes : List UInt8) : ∃ digits, '=' ∉ digits ∧
    encode bytes = digits ++ List.replicate ((3 - bytes.length % 3) % 3) '=' := by
  fun_induction encode bytes with
  | case1 => exact ⟨[], List.not_mem_nil, rfl⟩
  | case2 a =>
      have ha := a.toNat_lt
      refine ⟨[digit (a.toNat / 4), digit (a.toNat % 4 * 16)], ?_, rfl⟩
      simp only [List.mem_cons, List.not_mem_nil, or_false, not_or]
      exact ⟨(digit_ne_padding _ (by omega)).symm, (digit_ne_padding _ (by omega)).symm⟩
  | case3 a b =>
      have ha := a.toNat_lt
      have hb := b.toNat_lt
      refine ⟨[digit (a.toNat / 4), digit (a.toNat % 4 * 16 + b.toNat / 16),
        digit (b.toNat % 16 * 4)], ?_, rfl⟩
      simp only [List.mem_cons, List.not_mem_nil, or_false, not_or]
      exact ⟨(digit_ne_padding _ (by omega)).symm, (digit_ne_padding _ (by omega)).symm,
        (digit_ne_padding _ (by omega)).symm⟩
  | case4 a b c rest ih =>
      have ha := a.toNat_lt
      have hb := b.toNat_lt
      have hc := c.toNat_lt
      -- a whole group has no padding, and the rest has as much as before
      obtain ⟨digits, hdigits, heq⟩ := ih
      have hlength : (a :: b :: c :: rest).length % 3 = rest.length % 3 := by
        simp only [List.length_cons]
        omega
      refine ⟨digit (a.toNat / 4) :: digit (a.toNat % 4 * 16 + b.toNat / 16) ::
        digit (b.toNat % 16 * 4 + c.toNat / 64) :: digit (c.toNat % 64) :: digits, ?_, ?_⟩
      · simp only [List.mem_cons, not_or]
        exact ⟨(digit_ne_padding _ (by omega)).symm, (digit_ne_padding _ (by omega)).symm,
          (digit_ne_padding _ (by omega)).symm, (digit_ne_padding _ (by omega)).symm, hdigits⟩
      · rw [hlength, heq]
        rfl

end BrowCast.Base64
