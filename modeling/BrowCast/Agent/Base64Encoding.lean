import BrowCast.Encodings.Base64
import Mathlib.Algebra.Group.Nat.Defs
import Mathlib.Data.Int.Notation

/-! # The encoder of frames

`base64_encode_impl` of `Agent/src/ImageProcessor.cpp`, on an `int` that wraps. The accumulator is
never masked: only its low bits count, those that have not been written yet. -/

namespace BrowCast

/-! ## The function -/

/-- `base64_chars`. -/
def base64Chars : List Char :=
  "ABCDEFGHIJKLMNOPQRSTUVWXYZabcdefghijklmnopqrstuvwxyz0123456789+/".toList

/-- `val >> shift`, arithmetic; `none` for a shift that the language leaves undefined. -/
def shiftRight (val : BitVec 32) (shift : ℤ) : Option (BitVec 32) :=
  if 0 ≤ shift ∧ shift < 32 then some (val.sshiftRight shift.toNat) else none

/-- `base64_chars[(val >> shift) & 0x3F]`; `none` when the index is out of range. -/
def base64CharAt (val : BitVec 32) (shift : ℤ) : Option Char := do
  let shifted ← shiftRight val shift
  base64Chars[(shifted &&& 0x3F).toNat]?

/-- The variables of the function. -/
structure Base64State where
  val : BitVec 32
  valb : ℤ
  out : List Char

/-- `while (valb >= 0)`: write the bits that make up characters. -/
def writeChars (val : BitVec 32) (valb : ℤ) (out : List Char) : Option Base64State :=
  if 0 ≤ valb then do
    let c ← base64CharAt val valb
    writeChars val (valb - 6) (out ++ [c])
  else some ⟨val, valb, out⟩
termination_by (valb + 1).toNat

/-- The body of the loop over the bytes. -/
def encodeByte (st : Base64State) (c : UInt8) : Option Base64State :=
  let val := (st.val <<< 8) + c.toBitVec.setWidth 32
  writeChars val (st.valb + 8) st.out

/-- `while (out.size() % 4)`. -/
def padOut (out : List Char) : List Char :=
  if out.length % 4 = 0 then out else padOut (out ++ ['='])
termination_by (4 - out.length % 4) % 4
decreasing_by
  rw [List.length_append, List.length_singleton]
  omega

/-- What is written after the loop over the bytes. -/
def finishText (st : Base64State) : Option (List Char) := do
  let out ←
    if -6 < st.valb then do
      let c ← base64CharAt (st.val <<< 8) (st.valb + 8)
      some (st.out ++ [c])
    else some st.out
  return padOut out

/-- `base64_encode_impl`; `none` for an undefined shift or an index out of range. -/
def base64EncodeImpl (bytes : List UInt8) : Option (List Char) := do
  let st ← bytes.foldlM encodeByte ⟨0, -6, []⟩
  finishText st

/-- `EncodeToBase64`. -/
def encodeToBase64 (binaryData : List UInt8) : Option (List Char) := base64EncodeImpl binaryData

/-! ## Characters -/

/-- The table holds the digits in order. -/
theorem getElem?_base64Chars : ∀ n < 64, base64Chars[n]? = some (Base64.digit n) := by decide

/-- Of a shifted value the low six bits are kept, and the sign does not reach them. -/
theorem toNat_sshiftRight_and (val : BitVec 32) {shift : ℕ} (hshift : shift + 6 ≤ 32) :
    (val.sshiftRight shift &&& 0x3F).toNat = val.toNat / 2 ^ shift % 64 := by
  have hmask : ∀ i, (hi : i < 32) → 6 ≤ i → (63#32)[i] = false := by decide
  have hbits : val.sshiftRight shift &&& 0x3F = (val >>> shift) &&& 0x3F := by
    ext i hi
    by_cases hlow : i < 6
    · have hin : shift + i < 32 := by omega
      simp [BitVec.getElem_sshiftRight, BitVec.getLsbD_eq_getElem, hin]
    · simp [hmask i hi (by omega)]
  rw [hbits, BitVec.toNat_and, BitVec.toNat_ushiftRight, Nat.shiftRight_eq_div_pow]
  exact Nat.and_two_pow_sub_one_eq_mod _ 6

/-- A character is the digit of six bits of the accumulator. -/
theorem base64CharAt_eq (val : BitVec 32) {shift : ℕ} (hshift : shift + 6 ≤ 32) :
    base64CharAt val shift = some (Base64.digit (val.toNat / 2 ^ shift % 64)) := by
  have hdefined : (0 : ℤ) ≤ shift ∧ (shift : ℤ) < 32 := by omega
  rw [base64CharAt, shiftRight, if_pos hdefined, Int.toNat_natCast, Option.bind_eq_bind,
    Option.bind_some, toNat_sshiftRight_and val hshift]
  exact getElem?_base64Chars _ (Nat.mod_lt _ (by decide))

/-! ## The loops -/

/-- A byte is shifted in, and what was high in the accumulator is lost. -/
theorem toNat_shiftIn (val : BitVec 32) (c : UInt8) :
    ((val <<< 8) + c.toBitVec.setWidth 32).toNat = (val.toNat * 256 + c.toNat) % 4294967296 := by
  have hc := c.toNat_lt
  rw [BitVec.toNat_add, BitVec.toNat_shiftLeft, BitVec.toNat_setWidth, Nat.shiftLeft_eq]
  have hbyte : c.toBitVec.toNat = c.toNat := rfl
  rw [hbyte]
  omega

/-- The loop ends when no group of six bits is left. -/
theorem writeChars_of_neg {valb : ℤ} (hvalb : valb < 0) (val : BitVec 32) (out : List Char) :
    writeChars val valb out = some ⟨val, valb, out⟩ := by
  rw [writeChars, if_neg (by omega)]

/-- One round of the loop writes the digit of the highest group. -/
theorem writeChars_of_nonneg (val : BitVec 32) {shift : ℕ} (hshift : shift + 6 ≤ 32)
    (out : List Char) : writeChars val shift out =
      writeChars val (shift - 6) (out ++ [Base64.digit (val.toNat / 2 ^ shift % 64)]) := by
  rw [writeChars, if_pos (by omega), base64CharAt_eq val hshift, Option.bind_eq_bind,
    Option.bind_some]

/-- The bits that have not been written: how many they are, and their value, which the low bits of
the accumulator have. -/
structure Base64State.Holds (st : Base64State) (bits value : ℕ) : Prop where
  valb : st.valb = bits - 6
  val : st.val.toNat % 2 ^ bits = value

variable {st : Base64State} {bits value : ℕ}

/-- The first and the second byte of a group make up one character. -/
theorem encodeByte_one (h : st.Holds bits value) (hbits : bits = 0 ∨ bits = 2) (c : UInt8) :
    ∃ st', encodeByte st c = some st' ∧ st'.Holds (bits + 2) (c.toNat % 2 ^ (bits + 2)) ∧
      st'.out = st.out ++ [Base64.digit (value * 2 ^ (6 - bits) + c.toNat / 2 ^ (bits + 2))] := by
  have hc := c.toNat_lt
  have hval := toNat_shiftIn st.val c
  have hvalue := h.val
  have hvalb : st.valb + 8 = (bits + 2 : ℕ) := by
    rw [h.valb]
    omega
  refine ⟨⟨st.val <<< 8 + c.toBitVec.setWidth 32, (bits + 2 : ℕ) - 6, _⟩, ?_, ⟨rfl, ?_⟩, rfl⟩
  · have hdigit : (st.val <<< 8 + c.toBitVec.setWidth 32).toNat / 2 ^ (bits + 2) % 64 =
        value * 2 ^ (6 - bits) + c.toNat / 2 ^ (bits + 2) := by
      rcases hbits with rfl | rfl <;> omega
    rw [encodeByte, hvalb, writeChars_of_nonneg _ (by omega), hdigit,
      writeChars_of_neg (by omega)]
  · show (st.val <<< 8 + c.toBitVec.setWidth 32).toNat % 2 ^ (bits + 2) = _
    rcases hbits with rfl | rfl <;> omega

/-- The third byte makes up two, and nothing is left. -/
theorem encodeByte_two (h : st.Holds 4 value) (c : UInt8) :
    ∃ st', encodeByte st c = some st' ∧ st'.Holds 0 0 ∧
      st'.out = st.out ++
        [Base64.digit (value * 4 + c.toNat / 64), Base64.digit (c.toNat % 64)] := by
  have hc := c.toNat_lt
  have hval := toNat_shiftIn st.val c
  have hvalue := h.val
  have hvalb : st.valb + 8 = (6 : ℕ) := by
    rw [h.valb]
    omega
  have hfirst : (st.val <<< 8 + c.toBitVec.setWidth 32).toNat / 2 ^ 6 % 64 =
      value * 4 + c.toNat / 64 := by omega
  have hsecond : (st.val <<< 8 + c.toBitVec.setWidth 32).toNat / 2 ^ 0 % 64 = c.toNat % 64 := by
    omega
  refine ⟨⟨st.val <<< 8 + c.toBitVec.setWidth 32, -6, _⟩, ?_, ⟨rfl, Nat.mod_one _⟩, rfl⟩
  have hzero : ((6 : ℕ) : ℤ) - 6 = (0 : ℕ) := rfl
  rw [encodeByte, hvalb, writeChars_of_nonneg _ (by decide), hfirst, hzero,
    writeChars_of_nonneg _ (by decide), hsecond, writeChars_of_neg (by decide), List.append_assoc]
  rfl

/-- The bits that are left at the end, filled up with zeros. -/
theorem base64CharAt_rest (h : st.Holds bits value) (hbits : bits = 2 ∨ bits = 4) :
    base64CharAt (st.val <<< 8) (st.valb + 8) = some (Base64.digit (value * 2 ^ (6 - bits))) := by
  have hvalue := h.val
  have hvalb : st.valb + 8 = (bits + 2 : ℕ) := by
    rw [h.valb]
    omega
  have hshift : (st.val <<< 8).toNat = st.val.toNat * 256 % 4294967296 := by
    rw [BitVec.toNat_shiftLeft, Nat.shiftLeft_eq]
  have hdigit : (st.val <<< 8).toNat / 2 ^ (bits + 2) % 64 = value * 2 ^ (6 - bits) := by
    rcases hbits with rfl | rfl <;> omega
  rw [hvalb, base64CharAt_eq _ (by omega), hdigit]

/-- The second loop pads with `=` to a multiple of four characters. -/
theorem padOut_eq (out : List Char) :
    padOut out = out ++ List.replicate ((4 - out.length % 4) % 4) '=' := by
  fun_induction padOut out with
  | case1 out h => simp [h]
  | case2 out h ih =>
      have hreplicate : (4 - out.length % 4) % 4 = (4 - (out ++ ['=']).length % 4) % 4 + 1 := by
        rw [List.length_append, List.length_singleton]
        omega
      rw [ih, hreplicate, List.replicate_succ, List.append_assoc, List.singleton_append]

/-! ## The whole text -/

/-- Two or four bits that are left over are written as one more digit. -/
theorem finishText_of_rest (h : st.Holds bits value) (hbits : bits = 2 ∨ bits = 4) :
    finishText st =
      some (padOut (st.out ++ [Base64.digit (value * 2 ^ (6 - bits))])) := by
  have hrest : -6 < st.valb := by
    rw [h.valb]
    omega
  rw [finishText, if_pos hrest, base64CharAt_rest h hbits]
  rfl

/-- When no bits are left over, the text is only padded. -/
theorem finishText_of_none (h : st.Holds 0 0) : finishText st = some (padOut st.out) := by
  have hnone : ¬ -6 < st.valb := by
    rw [h.valb]
    decide
  rw [finishText, if_neg hnone]
  rfl

/-- After whole groups, the rest of the bytes is written as it is encoded. -/
theorem foldlM_encodeByte (bytes : List UInt8) (h : st.Holds 0 0) (hout : st.out.length % 4 = 0) :
    (bytes.foldlM encodeByte st).bind finishText = some (st.out ++ Base64.encode bytes) := by
  fun_induction Base64.encode bytes generalizing st with
  | case1 =>
      rw [List.foldlM_nil, Option.pure_def, Option.bind_some, finishText_of_none h, padOut_eq, hout]
      rfl
  | case2 a =>
      -- one byte is left: one character is out, and one more with two paddings follows
      obtain ⟨st₁, hst₁, hholds₁, hout₁⟩ := encodeByte_one h (.inl rfl) a
      have hlength : st₁.out.length % 4 = 1 := by
        rw [hout₁, List.length_append, List.length_singleton]
        omega
      simp only [List.foldlM_cons, hst₁, Option.bind_eq_bind, Option.bind_some, List.foldlM_nil,
        Option.pure_def]
      rw [finishText_of_rest hholds₁ (.inl rfl), padOut_eq, List.length_append,
        List.length_singleton, show (4 - (st₁.out.length + 1) % 4) % 4 = 2 by omega, hout₁]
      simp [List.replicate]
  | case3 a b =>
      obtain ⟨st₁, hst₁, hholds₁, hout₁⟩ := encodeByte_one h (.inl rfl) a
      obtain ⟨st₂, hst₂, hholds₂, hout₂⟩ := encodeByte_one hholds₁ (.inr rfl) b
      have hlength : st₂.out.length % 4 = 2 := by
        rw [hout₂, hout₁]
        simp only [List.length_append, List.length_singleton]
        omega
      simp only [List.foldlM_cons, hst₁, hst₂, Option.bind_eq_bind, Option.bind_some,
        List.foldlM_nil, Option.pure_def]
      rw [finishText_of_rest hholds₂ (.inr rfl), padOut_eq, List.length_append,
        List.length_singleton, show (4 - (st₂.out.length + 1) % 4) % 4 = 1 by omega, hout₂, hout₁]
      simp [List.replicate]
  | case4 a b c rest ih =>
      obtain ⟨st₁, hst₁, hholds₁, hout₁⟩ := encodeByte_one h (.inl rfl) a
      obtain ⟨st₂, hst₂, hholds₂, hout₂⟩ := encodeByte_one hholds₁ (.inr rfl) b
      obtain ⟨st₃, hst₃, hholds₃, hout₃⟩ := encodeByte_two hholds₂ c
      have hlength : st₃.out.length % 4 = 0 := by
        rw [hout₃, hout₂, hout₁]
        simp only [List.length_append, List.length_cons, List.length_nil]
        omega
      simp only [List.foldlM_cons, hst₁, hst₂, hst₃, Option.bind_eq_bind, Option.bind_some]
      rw [ih hholds₃ hlength, hout₃, hout₂, hout₁]
      simp

/-- **The text of a frame.** For bytes of any number the function returns their encoding: four
characters for every three bytes that have begun, padded at the end alone, and decoded to the
bytes. -/
theorem encodeToBase64_correct (bytes : List UInt8) :
    ∃ text, encodeToBase64 bytes = some text ∧ text = Base64.encode bytes ∧
      text.length = 4 * ((bytes.length + 2) / 3) ∧
      (∃ digits padding, '=' ∉ digits ∧ padding ≤ 2 ∧
        text = digits ++ List.replicate padding '=') ∧
      Base64.decode text = some bytes := by
  have hstart : (⟨0, -6, []⟩ : Base64State).Holds 0 0 := ⟨rfl, rfl⟩
  have htext := foldlM_encodeByte bytes hstart rfl
  obtain ⟨digits, hdigits, hpadded⟩ := Base64.exists_encode_eq_append bytes
  refine ⟨Base64.encode bytes, htext, rfl, Base64.length_encode bytes,
    ⟨digits, _, hdigits, ?_, hpadded⟩, Base64.decode_encode bytes⟩
  omega

end BrowCast
