import BrowCast.Agent.Base64Encoding
import Mathlib.Algebra.Group.Int.Defs
import Mathlib.Data.List.Induction

/-! # The left shifts of the encoder

`base64_encode_impl` shifts its accumulator to the left once for every byte, and once more for the
bits that are left at the end. The accumulator is never reduced: before a shift it is the number
that all the bytes so far spell out, so that the shift is defined only as long as no more than the
last three of them are other than zero. -/

namespace BrowCast

/-! ## Numbers of bytes -/

/-- The number that bytes spell out after `value`, the most significant one first. -/
def spelled (value : ℕ) (bytes : List UInt8) : ℕ := bytes.foldl (fun v c => v * 256 + c.toNat) value

/-- Without bytes the number stays. -/
@[simp] theorem spelled_nil (value : ℕ) : spelled value [] = value := rfl

/-- A byte is shifted in from the right. -/
@[simp] theorem spelled_cons (value : ℕ) (c : UInt8) (bytes : List UInt8) :
    spelled value (c :: bytes) = spelled (value * 256 + c.toNat) bytes := rfl

/-- The last byte is the lowest one. -/
theorem spelled_append_singleton (value : ℕ) (bytes : List UInt8) (c : UInt8) :
    spelled value (bytes ++ [c]) = spelled value bytes * 256 + c.toNat := by
  rw [spelled, List.foldl_append]
  rfl

/-- Shifting bytes in makes a number no smaller. -/
theorem le_spelled (value : ℕ) (bytes : List UInt8) : value ≤ spelled value bytes := by
  induction bytes generalizing value with
  | nil => exact Nat.le_refl _
  | cons c bytes ih =>
      have hrest := ih (value * 256 + c.toNat)
      rw [spelled_cons]
      omega

/-- A number has at most `n` digits exactly when the bytes before the last `n` are zero. -/
theorem spelled_lt_iff (bytes : List UInt8) (n : ℕ) :
    spelled 0 bytes < 256 ^ n ↔ ∀ c ∈ bytes.take (bytes.length - n), c = 0 := by
  induction bytes using List.reverseRecOn generalizing n with
  | nil =>
      refine iff_of_true (Nat.pow_pos (by decide)) fun c hc => ?_
      rw [List.length_nil, Nat.zero_sub, List.take_zero] at hc
      exact absurd hc List.not_mem_nil
  | append_singleton bytes c ih =>
      have hc := c.toNat_lt
      rw [spelled_append_singleton, List.length_append, List.length_singleton]
      cases n with
      | zero =>
          -- a number is zero when all its bytes are
          have hzero := ih 0
          rw [pow_zero, Nat.sub_zero, List.take_length] at hzero
          have hlength : (bytes ++ [c]).length = bytes.length + 1 := by
            rw [List.length_append, List.length_singleton]
          have htake : (bytes ++ [c]).take (bytes.length + 1) = bytes ++ [c] :=
            List.take_of_length_le (Nat.le_of_eq hlength)
          rw [pow_zero, Nat.sub_zero, htake, List.forall_mem_append, ← hzero,
            List.forall_mem_singleton, ← UInt8.toNat_inj, UInt8.toNat_zero]
          omega
      | succ n =>
          rw [Nat.add_sub_add_right, List.take_append_of_le_length (Nat.sub_le _ _), ← ih n,
            pow_succ]
          omega

/-! ## The shifts -/

/-- `val << shift` is defined: the operand is not negative, and the result fits an `unsigned`. -/
def ShiftLeftDefined (val : BitVec 32) (shift : ℕ) : Prop :=
  0 ≤ val.toInt ∧ val.toInt * 2 ^ shift ≤ 4294967295

instance (val : BitVec 32) (shift : ℕ) : Decidable (ShiftLeftDefined val shift) :=
  inferInstanceAs (Decidable (_ ∧ _))

/-- The operands of the left shifts, in the order they are evaluated: in the loop over the bytes,
and after it. -/
def leftShifted (st : Base64State) : List UInt8 → List (BitVec 32)
  | [] => if -6 < st.valb then [st.val] else []
  | c :: bytes =>
      match encodeByte st c with
      | none => [st.val]
      | some st' => st.val :: leftShifted st' bytes

/-- The left shifts of `base64_encode_impl` are all defined. -/
def Base64ShiftsDefined (bytes : List UInt8) : Prop :=
  ∀ val ∈ leftShifted ⟨0, -6, []⟩ bytes, ShiftLeftDefined val 8

instance (bytes : List UInt8) : Decidable (Base64ShiftsDefined bytes) :=
  inferInstanceAs (Decidable (∀ val ∈ _, _))

/-- Shifting by eight bits is defined for values of three bytes. -/
theorem shiftLeftDefined_iff (val : BitVec 32) : ShiftLeftDefined val 8 ↔ val.toNat < 256 ^ 3 := by
  have hval := val.isLt
  rw [ShiftLeftDefined, BitVec.toInt_eq_toNat_cond]
  split <;> omega

/-- Writing characters leaves the accumulator. -/
theorem val_writeChars {val : BitVec 32} {valb : ℤ} {out : List Char} {st : Base64State}
    (h : writeChars val valb out = some st) : st.val = val := by
  fun_induction writeChars val valb out with
  | case1 valb out hvalb ih =>
      obtain ⟨c, -, hrest⟩ := Option.bind_eq_some_iff.mp h
      exact ih c hrest
  | case2 valb out hvalb =>
      cases h
      rfl

/-- `val` takes the byte in from the right, and keeps its low 32 bits. -/
theorem toNat_val_encodeByte {st st' : Base64State} {c : UInt8} (h : encodeByte st c = some st') :
    st'.val.toNat = (st.val.toNat * 256 + c.toNat) % 4294967296 := by
  rw [val_writeChars h, toNat_shiftIn]

/-- How many bits are left after a byte. -/
def bitsAfter (bits : ℕ) : ℕ := if bits = 4 then 0 else bits + 2

/-- The bits left over after a byte are none, two or four. -/
theorem bitsAfter_cases {bits : ℕ} (hbits : bits = 0 ∨ bits = 2 ∨ bits = 4) :
    bitsAfter bits = 0 ∨ bitsAfter bits = 2 ∨ bitsAfter bits = 4 := by
  rcases hbits with rfl | rfl | rfl <;> decide

/-- No bits are left over only where four were. -/
theorem bitsAfter_eq_zero {bits : ℕ} (h : bitsAfter bits = 0) : bits = 4 := by
  by_contra hne
  rw [bitsAfter, if_neg hne] at h
  exact absurd h (Nat.succ_ne_zero _)

/-- A byte is encoded from every state that holds left-over bits. -/
theorem exists_encodeByte {st : Base64State} {bits value : ℕ} (h : st.Holds bits value)
    (hbits : bits = 0 ∨ bits = 2 ∨ bits = 4) (c : UInt8) :
    ∃ st' value', encodeByte st c = some st' ∧ st'.Holds (bitsAfter bits) value' := by
  rcases hbits with rfl | rfl | rfl
  · obtain ⟨st', hst', hholds, -⟩ := encodeByte_one h (.inl rfl) c
    exact ⟨st', _, hst', hholds⟩
  · obtain ⟨st', hst', hholds, -⟩ := encodeByte_one h (.inr rfl) c
    exact ⟨st', _, hst', hholds⟩
  · obtain ⟨st', hst', hholds, -⟩ := encodeByte_two h c
    exact ⟨st', _, hst', hholds⟩

/-- The bytes that are read before the last shift: all of them when bits are left at the end, else
all but the last one. -/
def beforeLastShift (bits : ℕ) (bytes : List UInt8) : List UInt8 :=
  if (bits / 2 + bytes.length) % 3 = 0 then bytes.dropLast else bytes

/-- Without bytes nothing is shifted. -/
theorem beforeLastShift_nil (bits : ℕ) : beforeLastShift bits [] = [] := by
  rw [beforeLastShift, List.dropLast_nil, ite_self]

/-- A byte is read before the last shift, unless it is the one that completes the last group. -/
theorem beforeLastShift_cons {bits : ℕ} (hbits : bits = 0 ∨ bits = 2 ∨ bits = 4) (c : UInt8)
    {bytes : List UInt8} (hmore : ¬ (bits = 4 ∧ bytes = [])) :
    beforeLastShift bits (c :: bytes) = c :: beforeLastShift (bitsAfter bits) bytes := by
  have hrest : (bits / 2 + (c :: bytes).length) % 3 = (bitsAfter bits / 2 + bytes.length) % 3 := by
    have hhalf : (bits / 2 + 1) % 3 = bitsAfter bits / 2 := by
      rcases hbits with rfl | rfl | rfl <;> decide
    rw [List.length_cons]
    omega
  rw [beforeLastShift, beforeLastShift, hrest]
  by_cases hnone : (bitsAfter bits / 2 + bytes.length) % 3 = 0
  · have hne : bytes ≠ [] := by
      rintro rfl
      have hafter := bitsAfter_cases hbits
      rw [List.length_nil] at hnone
      exact hmore ⟨bitsAfter_eq_zero (by omega), rfl⟩
    rw [if_pos hnone, if_pos hnone, List.dropLast_cons_of_ne_nil hne]
  · rw [if_neg hnone, if_neg hnone]

/-- All shifts are defined exactly when the last one is, if there is any. -/
theorem leftShifted_defined_iff {bits value : ℕ} (bytes : List UInt8) {st : Base64State}
    (h : st.Holds bits value) (hbits : bits = 0 ∨ bits = 2 ∨ bits = 4) :
    (∀ val ∈ leftShifted st bytes, ShiftLeftDefined val 8) ↔
      (bits = 0 ∧ bytes = []) ∨ spelled st.val.toNat (beforeLastShift bits bytes) < 256 ^ 3 := by
  induction bytes generalizing st bits value with
  | nil =>
      have hvalb := h.valb
      rw [leftShifted, beforeLastShift_nil, spelled_nil]
      by_cases hzero : bits = 0
      · rw [if_neg (by omega)]
        exact iff_of_true (fun val hval => absurd hval List.not_mem_nil) (Or.inl ⟨hzero, rfl⟩)
      · rw [if_pos (by omega), List.forall_mem_singleton, shiftLeftDefined_iff,
          or_iff_right fun hnone => hzero hnone.1]
  | cons c bytes ih =>
      obtain ⟨st', value', hst', hholds⟩ := exists_encodeByte h hbits c
      have hc := c.toNat_lt
      have hval := toNat_val_encodeByte hst'
      have hnext := ih hholds (bitsAfter_cases hbits)
      have hcons : leftShifted st (c :: bytes) = st.val :: leftShifted st' bytes := by
        rw [leftShifted, hst']
      have hshifts : ¬ (bits = 0 ∧ c :: bytes = []) := fun hnone => List.cons_ne_nil _ _ hnone.2
      rw [hcons, List.forall_mem_cons, shiftLeftDefined_iff, hnext, or_iff_right hshifts]
      by_cases hlast : bits = 4 ∧ bytes = []
      · obtain ⟨rfl, rfl⟩ := hlast
        have hnone : beforeLastShift 4 [c] = [] := by simp [beforeLastShift]
        rw [hnone, spelled_nil]
        exact and_iff_left (Or.inl ⟨rfl, rfl⟩)
      · have hmore : ¬ (bitsAfter bits = 0 ∧ bytes = []) :=
          fun hnone => hlast ⟨bitsAfter_eq_zero hnone.1, hnone.2⟩
        rw [beforeLastShift_cons hbits c hlast, spelled_cons, or_iff_right hmore]
        -- nothing is lost from the accumulator as long as the shift is defined
        by_cases hsmall : st.val.toNat < 256 ^ 3
        · rw [and_iff_right hsmall, hval, Nat.mod_eq_of_lt (by omega)]
        · refine iff_of_false (fun hboth => hsmall hboth.1) fun hspelled => hsmall ?_
          have hle := le_spelled (st.val.toNat * 256 + c.toNat)
            (beforeLastShift (bitsAfter bits) bytes)
          omega

/-- **When the encoder relies on no undefined shift.** The bytes before the last three are zero, or
before the last four where their number is divisible by three and the last one is not shifted. -/
theorem base64ShiftsDefined_iff (bytes : List UInt8) :
    Base64ShiftsDefined bytes ↔
      ∀ c ∈ bytes.take (bytes.length - if bytes.length % 3 = 0 then 4 else 3), c = 0 := by
  have hstart : (⟨0, -6, []⟩ : Base64State).Holds 0 0 := ⟨rfl, rfl⟩
  have hzero : (0 : BitVec 32).toNat = 0 := rfl
  rw [Base64ShiftsDefined, leftShifted_defined_iff bytes hstart (Or.inl rfl), hzero,
    spelled_lt_iff, beforeLastShift, Nat.zero_div, Nat.zero_add]
  by_cases hthird : bytes.length % 3 = 0
  · rw [if_pos hthird, if_pos hthird, List.length_dropLast, List.dropLast_eq_take, List.take_take,
      Nat.sub_sub, Nat.min_eq_left (by omega)]
    apply or_iff_right_of_imp
    rintro ⟨-, rfl⟩ c hc
    exact absurd hc List.not_mem_nil
  · rw [if_neg hthird, if_neg hthird]
    apply or_iff_right
    rintro ⟨-, rfl⟩
    exact hthird rfl

/-- The first five bytes of a JPEG image: the fourth makes the accumulator negative. -/
theorem base64_shift_undefined : ¬ ∀ bytes : List UInt8, Base64ShiftsDefined bytes := by
  intro h
  have hstart : (⟨0, -6, []⟩ : Base64State).Holds 0 0 := ⟨rfl, rfl⟩
  have hshifts := h [0xFF, 0xD8, 0xFF, 0xE0, 0x00]
  rw [Base64ShiftsDefined, leftShifted_defined_iff _ hstart (Or.inl rfl)] at hshifts
  exact absurd hshifts (by decide)

end BrowCast
