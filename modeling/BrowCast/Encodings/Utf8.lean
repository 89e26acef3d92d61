import Mathlib.Data.Nat.Notation
import Mathlib.Data.List.Basic

/-! # Decoding UTF-8 with replacement

A decoder that reads every sequence of bytes: what is no UTF-8 becomes replacement characters, one
for each longest beginning of a sequence that breaks off. It inverts the encoding of characters, and
never yields more characters than it reads bytes. -/

namespace BrowCast.Utf8

/-- `U+FFFD`. -/
def replacement : Char := '\uFFFD'

/-- A sequence that has begun: the bounds of the next byte, how many bytes are missing after that,
and the bits read so far. -/
structure Pending where
  missing : ℕ
  lower : ℕ := 0x80
  upper : ℕ := 0xBF
  bits : ℕ
  bounds : 0x80 ≤ lower ∧ upper ≤ 0xBF := by omega

/-- The byte `n` at the start of a sequence: a character of its own, the beginning of a longer one,
or neither. -/
def lead (n : ℕ) : List Char × Option Pending :=
  if n < 0x80 then ([Char.ofNat n], none)
  else if n < 0xC2 then ([replacement], none)
  else if n < 0xE0 then ([], some { missing := 0, bits := n % 32 })
  else if n < 0xF0 then
    -- neither an overlong sequence nor a surrogate
    ([], some {
      missing := 1
      lower := if n = 0xE0 then 0xA0 else 0x80
      upper := if n = 0xED then 0x9F else 0xBF
      bits := n % 16
      bounds := by split <;> split <;> omega })
  else if n < 0xF5 then
    -- nor one beyond the last character
    ([], some {
      missing := 2
      lower := if n = 0xF0 then 0x90 else 0x80
      upper := if n = 0xF4 then 0x8F else 0xBF
      bits := n % 8
      bounds := by split <;> split <;> omega })
  else ([replacement], none)

/-- The next byte of a sequence. One that does not fit breaks the sequence off and is read anew. -/
def Pending.next (p : Pending) (n : ℕ) : List Char × Option Pending :=
  if p.lower ≤ n ∧ n ≤ p.upper then
    match p.missing with
    | 0 => ([Char.ofNat (p.bits * 64 + n % 64)], none)
    | missing + 1 => ([], some { missing, bits := p.bits * 64 + n % 64 })
  else (replacement :: (lead n).1, (lead n).2)

/-- The characters a byte completes, and the sequence it leaves open. -/
def step : Option Pending → UInt8 → List Char × Option Pending
  | none, b => lead b.toNat
  | some p, b => p.next b.toNat

/-- The characters of the bytes, after a sequence that may be open. -/
def decodeFrom : Option Pending → List UInt8 → List Char
  | none, [] => []
  | some _, [] => [replacement]
  | pending, b :: bs => (step pending b).1 ++ decodeFrom (step pending b).2 bs

/-- The characters of the bytes. -/
def decode (bytes : List UInt8) : List Char := decodeFrom none bytes

/-- The bytes of the characters. -/
def encode (cs : List Char) : List UInt8 := cs.flatMap String.utf8EncodeChar

/-- Decoding goes byte by byte. -/
theorem decodeFrom_cons (pending : Option Pending) (b : UInt8) (bs : List UInt8) :
    decodeFrom pending (b :: bs) = (step pending b).1 ++ decodeFrom (step pending b).2 bs := by
  cases pending <;> rfl

/-! ## The length of what is decoded -/

/-- An open sequence counts as one character. -/
def owed (pending : Option Pending) : ℕ := if pending.isSome then 1 else 0

/-- The first byte of a sequence gives at most one character, now or later. -/
theorem lead_length (n : ℕ) : (lead n).1.length + owed (lead n).2 ≤ 1 := by
  unfold lead
  split_ifs <;> simp [owed]

/-- A byte adds at most one character to those that are owed. -/
theorem step_length (pending : Option Pending) (b : UInt8) :
    (step pending b).1.length + owed (step pending b).2 ≤ 1 + owed pending := by
  have hlead := lead_length b.toNat
  cases pending with
  | none => exact hlead
  | some p =>
      show (p.next b.toNat).1.length + owed (p.next b.toNat).2 ≤ 2
      unfold Pending.next
      split
      · cases p.missing <;> simp [owed]
      · simp only [List.length_cons]
        omega

/-! ## Decoding what was encoded -/

/-- A small number is the value of its byte. -/
theorem toNat_ofNat_of_lt {n : ℕ} (h : n < 256) : (UInt8.ofNat n).toNat = n := by
  simp [Nat.mod_eq_of_lt h]

section Sequences

variable {p : Pending} {v d : ℕ}

/-- A byte inside a sequence whose next byte is not the last one. -/
theorem Pending.next_of_missing {missing : ℕ} (hmissing : p.missing = missing + 1) (hd : d < 64)
    (hlower : p.lower ≤ d + 0x80) (hupper : d + 0x80 ≤ p.upper) :
    p.next (d + 0x80) = ([], some { missing, bits := p.bits * 64 + d }) := by
  have hbits : (d + 0x80) % 64 = d := by omega
  rw [next, if_pos ⟨hlower, hupper⟩, hmissing, hbits]

/-- The last byte of a sequence. -/
theorem Pending.next_of_last (hmissing : p.missing = 0) (hd : d < 64)
    (hlower : p.lower ≤ d + 0x80) (hupper : d + 0x80 ≤ p.upper) :
    p.next (d + 0x80) = ([Char.ofNat (p.bits * 64 + d)], none) := by
  have hbits : (d + 0x80) % 64 = d := by omega
  rw [next, if_pos ⟨hlower, hupper⟩, hmissing, hbits]

/-- A byte of ASCII is a character. -/
theorem lead_of_one (hv : v < 0x80) : lead v = ([Char.ofNat v], none) := if_pos hv

/-- The first of two bytes: the second one fits. -/
theorem lead_of_two (hv : 0x80 ≤ v) (hv' : v < 0x800) :
    ∃ p, lead (v / 64 + 0xC0) = ([], some p) ∧ p.missing = 0 ∧ p.bits = v / 64 ∧
      p.lower ≤ v % 64 + 0x80 ∧ v % 64 + 0x80 ≤ p.upper := by
  have hbits : (v / 64 + 0xC0) % 32 = v / 64 := by omega
  rw [lead, if_neg (by omega), if_neg (by omega), if_pos (by omega), hbits]
  exact ⟨_, rfl, rfl, rfl, by simp only; omega, by simp only; omega⟩

/-- The first of three bytes: the second one fits, as the character is not one of fewer bytes and no
surrogate. -/
theorem lead_of_three (hv : 0x800 ≤ v) (hv' : v < 0x10000) (hvalid : v < 0xD800 ∨ 0xDFFF < v) :
    ∃ p, lead (v / 4096 + 0xE0) = ([], some p) ∧ p.missing = 1 ∧ p.bits = v / 4096 ∧
      p.lower ≤ v / 64 % 64 + 0x80 ∧ v / 64 % 64 + 0x80 ≤ p.upper := by
  have hbits : (v / 4096 + 0xE0) % 16 = v / 4096 := by omega
  rw [lead, if_neg (by omega), if_neg (by omega), if_neg (by omega), if_pos (by omega), hbits]
  exact ⟨_, rfl, rfl, rfl, by simp only; split <;> omega, by simp only; split <;> omega⟩

/-- The first of four bytes: the second one fits. -/
theorem lead_of_four (hv : 0x10000 ≤ v) (hv' : v < 0x110000) :
    ∃ p, lead (v / 262144 + 0xF0) = ([], some p) ∧ p.missing = 2 ∧ p.bits = v / 262144 ∧
      p.lower ≤ v / 4096 % 64 + 0x80 ∧ v / 4096 % 64 + 0x80 ≤ p.upper := by
  have hbits : (v / 262144 + 0xF0) % 8 = v / 262144 := by omega
  rw [lead, if_neg (by omega), if_neg (by omega), if_neg (by omega), if_neg (by omega),
    if_pos (by omega), hbits]
  exact ⟨_, rfl, rfl, rfl, by simp only; split <;> omega, by simp only; split <;> omega⟩

end Sequences

/-- A character is no surrogate and not beyond the last one. -/
theorem toNat_valid (c : Char) : c.toNat < 0xD800 ∨ 0xDFFF < c.toNat ∧ c.toNat < 0x110000 := c.valid

/-- The bytes of a character, by its number. -/
theorem utf8EncodeChar_eq (c : Char) : String.utf8EncodeChar c =
    if c.toNat < 0x80 then [UInt8.ofNat c.toNat]
    else if c.toNat < 0x800 then
      [UInt8.ofNat (c.toNat / 64 + 0xC0), UInt8.ofNat (c.toNat % 64 + 0x80)]
    else if c.toNat < 0x10000 then
      [UInt8.ofNat (c.toNat / 4096 + 0xE0), UInt8.ofNat (c.toNat / 64 % 64 + 0x80),
        UInt8.ofNat (c.toNat % 64 + 0x80)]
    else
      [UInt8.ofNat (c.toNat / 262144 + 0xF0), UInt8.ofNat (c.toNat / 4096 % 64 + 0x80),
        UInt8.ofNat (c.toNat / 64 % 64 + 0x80), UInt8.ofNat (c.toNat % 64 + 0x80)] := by
  have hvalid := toNat_valid c
  have hle : ∀ n, (c.toNat ≤ n) = (c.toNat < n + 1) := fun n => propext Nat.lt_succ_iff.symm
  rw [String.utf8EncodeChar]
  simp only [Char.toNat_val, hle]
  split_ifs with hone htwo hthree
  · rfl
  · rw [Nat.mod_eq_of_lt (show c.toNat / 64 < 0x20 by omega)]
  · rw [Nat.mod_eq_of_lt (show c.toNat / 4096 < 0x10 by omega)]
  · rw [Nat.mod_eq_of_lt (show c.toNat / 262144 < 0x08 by omega)]

/-- The first byte of a character does not continue a sequence. -/
theorem decodeFrom_some_encodeChar (p : Pending) (c : Char) (bs : List UInt8) :
    decodeFrom (some p) (String.utf8EncodeChar c ++ bs) =
      replacement :: decodeFrom none (String.utf8EncodeChar c ++ bs) := by
  have hvalid := toNat_valid c
  have hbounds := p.bounds
  obtain ⟨b, rest, hbytes, hb⟩ : ∃ b rest, String.utf8EncodeChar c = b :: rest ∧
      (b.toNat < 0x80 ∨ 0xBF < b.toNat) := by
    rw [utf8EncodeChar_eq]
    split_ifs with hone htwo hthree
    all_goals
      refine ⟨_, _, rfl, ?_⟩
      rw [toNat_ofNat_of_lt (by omega)]
      omega
  have hnot : ¬ (p.lower ≤ b.toNat ∧ b.toNat ≤ p.upper) := by omega
  rw [hbytes, List.cons_append, decodeFrom_cons, decodeFrom_cons, step, step, Pending.next,
    if_neg hnot, List.cons_append]

/-- A byte at the start of a sequence, as a number. -/
theorem decodeFrom_none_ofNat {n : ℕ} (hn : n < 256) (bs : List UInt8) :
    decodeFrom none (UInt8.ofNat n :: bs) = (lead n).1 ++ decodeFrom (lead n).2 bs := by
  rw [decodeFrom_cons, step, toNat_ofNat_of_lt hn]

/-- A byte inside a sequence, as a number. -/
theorem decodeFrom_some_ofNat {n : ℕ} (hn : n < 256) (p : Pending) (bs : List UInt8) :
    decodeFrom (some p) (UInt8.ofNat n :: bs) = (p.next n).1 ++ decodeFrom (p.next n).2 bs := by
  rw [decodeFrom_cons, step, toNat_ofNat_of_lt hn]

/-- **One character** is read back. -/
theorem decodeFrom_none_encodeChar (c : Char) (bs : List UInt8) :
    decodeFrom none (String.utf8EncodeChar c ++ bs) = c :: decodeFrom none bs := by
  have hvalid := toNat_valid c
  rw [utf8EncodeChar_eq]
  split_ifs with hone htwo hthree
  · rw [List.singleton_append, decodeFrom_none_ofNat (by omega), lead_of_one hone,
      Char.ofNat_toNat]
    rfl
  · obtain ⟨p, hlead, hmissing, hbits, hlower, hupper⟩ := lead_of_two (by omega) htwo
    -- two bytes: the lead and the last one
    have hchar : p.bits * 64 + c.toNat % 64 = c.toNat := by omega
    show decodeFrom none (_ :: _ :: bs) = _
    rw [decodeFrom_none_ofNat (by omega), hlead, List.nil_append,
      decodeFrom_some_ofNat (by omega), p.next_of_last hmissing (by omega) hlower hupper, hchar,
      Char.ofNat_toNat]
    rfl
  · obtain ⟨p, hlead, hmissing, hbits, hlower, hupper⟩ := lead_of_three (by omega) hthree (by omega)
    -- three bytes: after the lead one is still missing
    have hchar : (p.bits * 64 + c.toNat / 64 % 64) * 64 + c.toNat % 64 = c.toNat := by omega
    show decodeFrom none (_ :: _ :: _ :: bs) = _
    rw [decodeFrom_none_ofNat (by omega), hlead, List.nil_append,
      decodeFrom_some_ofNat (by omega), p.next_of_missing hmissing (by omega) hlower hupper,
      List.nil_append, decodeFrom_some_ofNat (by omega),
      Pending.next_of_last rfl (by omega) (by simp) (by simp only; omega), hchar, Char.ofNat_toNat]
    rfl
  · obtain ⟨p, hlead, hmissing, hbits, hlower, hupper⟩ :=
      lead_of_four (v := c.toNat) (by omega) (by omega)
    -- four bytes
    have hchar : ((p.bits * 64 + c.toNat / 4096 % 64) * 64 + c.toNat / 64 % 64) * 64 +
        c.toNat % 64 = c.toNat := by omega
    show decodeFrom none (_ :: _ :: _ :: _ :: bs) = _
    rw [decodeFrom_none_ofNat (by omega), hlead, List.nil_append,
      decodeFrom_some_ofNat (by omega), p.next_of_missing hmissing (by omega) hlower hupper,
      List.nil_append, decodeFrom_some_ofNat (by omega),
      Pending.next_of_missing rfl (by omega) (by simp) (by simp only; omega), List.nil_append,
      decodeFrom_some_ofNat (by omega),
      Pending.next_of_last rfl (by omega) (by simp) (by simp only; omega), hchar, Char.ofNat_toNat]
    rfl

/-- After an open sequence there is one character more. -/
theorem length_decodeFrom_encodeChar (pending : Option Pending) (c : Char) (bs : List UInt8) :
    (decodeFrom pending (String.utf8EncodeChar c ++ bs)).length =
      owed pending + 1 + (decodeFrom none bs).length := by
  cases pending with
  | none =>
      rw [decodeFrom_none_encodeChar, List.length_cons, owed]
      simp only [Option.isSome_none, Bool.false_eq_true, if_false]
      omega
  | some p =>
      rw [decodeFrom_some_encodeChar, decodeFrom_none_encodeChar, List.length_cons,
        List.length_cons, owed]
      simp only [Option.isSome_some, if_true]
      omega

/-- **Decoding inverts encoding.** -/
theorem decode_encode (cs : List Char) : decode (encode cs) = cs := by
  unfold decode encode
  induction cs with
  | nil => rfl
  | cons c cs ih => rw [List.flatMap_cons, decodeFrom_none_encodeChar, ih]

/-! ## Which bytes are the bytes of a character -/

/-- A code point outside the surrogates is the value of its character. -/
theorem toNat_ofNat_of_valid {v : ℕ} (h : v < 0xD800 ∨ 0xDFFF < v ∧ v < 0x110000) :
    (Char.ofNat v).toNat = v := by
  rw [Char.ofNat, dif_pos h]
  rfl

/-- The byte of a byte's value is that byte. -/
theorem ofNat_eq_of_toNat_eq {n : ℕ} {b : UInt8} (h : n = b.toNat) : UInt8.ofNat n = b := by
  rw [h, UInt8.ofNat_toNat]

section Bytes

variable {a b c d : UInt8}

/-- A byte of ASCII encodes a character. -/
theorem exists_encodeChar_one (ha : a.toNat < 0x80) : ∃ x, String.utf8EncodeChar x = [a] := by
  refine ⟨Char.ofNat a.toNat, ?_⟩
  rw [utf8EncodeChar_eq, toNat_ofNat_of_valid (by omega), if_pos ha, UInt8.ofNat_toNat]

/-- Two bytes in these ranges encode a character. -/
theorem exists_encodeChar_two (ha : 0xC2 ≤ a.toNat) (ha' : a.toNat < 0xE0)
    (hb : 0x80 ≤ b.toNat ∧ b.toNat ≤ 0xBF) : ∃ x, String.utf8EncodeChar x = [a, b] := by
  refine ⟨Char.ofNat ((a.toNat - 0xC0) * 64 + (b.toNat - 0x80)), ?_⟩
  rw [utf8EncodeChar_eq, toNat_ofNat_of_valid (by omega), if_neg (by omega), if_pos (by omega),
    ofNat_eq_of_toNat_eq (b := a) (by omega), ofNat_eq_of_toNat_eq (b := b) (by omega)]

/-- Three bytes in these ranges encode a character, the shortest form and no surrogate. -/
theorem exists_encodeChar_three (ha : 0xE0 ≤ a.toNat) (ha' : a.toNat < 0xF0)
    (hb : 0x80 ≤ b.toNat ∧ b.toNat ≤ 0xBF) (hshort : a.toNat = 0xE0 → 0xA0 ≤ b.toNat)
    (hsurrogate : a.toNat = 0xED → b.toNat ≤ 0x9F) (hc : 0x80 ≤ c.toNat ∧ c.toNat ≤ 0xBF) :
    ∃ x, String.utf8EncodeChar x = [a, b, c] := by
  refine ⟨Char.ofNat ((a.toNat - 0xE0) * 4096 + (b.toNat - 0x80) * 64 + (c.toNat - 0x80)), ?_⟩
  rw [utf8EncodeChar_eq, toNat_ofNat_of_valid (by omega), if_neg (by omega), if_neg (by omega),
    if_pos (by omega), ofNat_eq_of_toNat_eq (b := a) (by omega),
    ofNat_eq_of_toNat_eq (b := b) (by omega), ofNat_eq_of_toNat_eq (b := c) (by omega)]

/-- Four bytes in these ranges encode a character, the shortest form and no number too large. -/
theorem exists_encodeChar_four (ha : 0xF0 ≤ a.toNat) (ha' : a.toNat < 0xF5)
    (hb : 0x80 ≤ b.toNat ∧ b.toNat ≤ 0xBF) (hshort : a.toNat = 0xF0 → 0x90 ≤ b.toNat)
    (hlast : a.toNat = 0xF4 → b.toNat ≤ 0x8F) (hc : 0x80 ≤ c.toNat ∧ c.toNat ≤ 0xBF)
    (hd : 0x80 ≤ d.toNat ∧ d.toNat ≤ 0xBF) : ∃ x, String.utf8EncodeChar x = [a, b, c, d] := by
  refine ⟨Char.ofNat ((a.toNat - 0xF0) * 262144 + (b.toNat - 0x80) * 4096 + (c.toNat - 0x80) * 64 +
    (d.toNat - 0x80)), ?_⟩
  rw [utf8EncodeChar_eq, toNat_ofNat_of_valid (by omega), if_neg (by omega), if_neg (by omega),
    if_neg (by omega), ofNat_eq_of_toNat_eq (b := a) (by omega),
    ofNat_eq_of_toNat_eq (b := b) (by omega), ofNat_eq_of_toNat_eq (b := c) (by omega),
    ofNat_eq_of_toNat_eq (b := d) (by omega)]

end Bytes

end BrowCast.Utf8
