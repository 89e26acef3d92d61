import BrowCast.Encodings.Utf8

/-! # Percent encoding

Characters are kept or written as percent-encoded UTF-8 bytes; the decoder reads `+` as a blank, as
in forms. An encoder that keeps the percent sign, the digits and `+` is inverted on the texts that
have neither `+` nor anything that looks like an encoded byte, and on no others. -/

namespace BrowCast.PercentEncoding

/-- A hexadecimal digit. -/
def hexDigit (n : ℕ) : Char := Char.ofNat (if n < 10 then 0x30 + n else 0x37 + n)

/-- The value of a hexadecimal digit of either case. -/
def hexValue (c : Char) : Option ℕ :=
  if '0' ≤ c ∧ c ≤ '9' then some (c.toNat - 0x30)
  else if 'A' ≤ c ∧ c ≤ 'F' then some (c.toNat - 0x37)
  else if 'a' ≤ c ∧ c ≤ 'f' then some (c.toNat - 0x57)
  else none

/-- A byte as percent sign and two digits. -/
def encodeByte (b : UInt8) : List Char :=
  ['%', hexDigit (b.toNat / 16), hexDigit (b.toNat % 16)]

/-- A character, kept or encoded. -/
def encodeChar (keep : Char → Bool) (c : Char) : List Char :=
  if keep c then [c] else (String.utf8EncodeChar c).flatMap encodeByte

/-- The characters of a text, kept or encoded. -/
def encode (keep : Char → Bool) (cs : List Char) : List Char := cs.flatMap (encodeChar keep)

/-- The byte that is encoded at the start of a text. -/
def escape? : List Char → Option UInt8
  | c :: h :: l :: _ =>
      if c = '%' then
        match hexValue h, hexValue l with
        | some high, some low => some (UInt8.ofNat (high * 16 + low))
        | _, _ => none
      else none
  | _ => none

/-- Something in the text looks like an encoded byte. -/
def hasEscape : List Char → Bool
  | [] => false
  | c :: cs => (escape? (c :: cs)).isSome || hasEscape cs

/-- The bytes of a character that is not part of an encoded byte. -/
def plainBytes (c : Char) : List UInt8 := String.utf8EncodeChar (if c = '+' then ' ' else c)

/-- Decode a text, of which some characters are skipped: the digits of the last encoded byte. -/
def decodeFrom : ℕ → List Char → List UInt8
  | _, [] => []
  | skip + 1, _ :: cs => decodeFrom skip cs
  | 0, c :: cs =>
      match escape? (c :: cs) with
      | some b => b :: decodeFrom 2 cs
      | none => plainBytes c ++ decodeFrom 0 cs

/-- The text that is encoded. -/
def decode (cs : List Char) : List Char := Utf8.decode (decodeFrom 0 cs)

/-! ## Encoded bytes -/

/-- The value of a hexadecimal digit is the number it was made for. -/
theorem hexValue_hexDigit : ∀ n < 16, hexValue (hexDigit n) = some n := by decide

/-- The escape of a byte stands for that byte. -/
theorem escape?_encodeByte (b : UInt8) (cs : List Char) :
    escape? (encodeByte b ++ cs) = some b := by
  have hb := b.toNat_lt
  have hhigh := hexValue_hexDigit (b.toNat / 16) (by omega)
  have hlow := hexValue_hexDigit (b.toNat % 16) (by omega)
  have hbyte : b.toNat / 16 * 16 + b.toNat % 16 = b.toNat := by omega
  simp [encodeByte, escape?, hhigh, hlow, hbyte]

/-- Encoded bytes are read back. -/
theorem decodeFrom_encodeBytes (bytes : List UInt8) (cs : List Char) :
    decodeFrom 0 (bytes.flatMap encodeByte ++ cs) = bytes ++ decodeFrom 0 cs := by
  induction bytes with
  | nil => rfl
  | cons b bytes ih =>
      rw [List.flatMap_cons, List.append_assoc]
      have hescape := escape?_encodeByte b (bytes.flatMap encodeByte ++ cs)
      simp only [encodeByte, List.cons_append, List.nil_append] at hescape ⊢
      rw [decodeFrom, hescape]
      exact congrArg (b :: ·) ih

/-- A text is encoded character by character. -/
theorem encode_cons (keep : Char → Bool) (c : Char) (cs : List Char) :
    encode keep (c :: cs) = encodeChar keep c ++ encode keep cs := List.flatMap_cons

/-- A text is encoded part by part. -/
theorem encode_append (keep : Char → Bool) (cs ds : List Char) :
    encode keep (cs ++ ds) = encode keep cs ++ encode keep ds := List.flatMap_append

/-- An encoder keeps what decoding gives a meaning. -/
structure KeepsEscapes (keep : Char → Bool) : Prop where
  percent : keep '%' = true
  digit : ∀ c, (hexValue c).isSome → keep c = true
  plus : keep '+' = true

/-! ## Encoding and decoding -/

section Keeping

variable {keep : Char → Bool} (h : KeepsEscapes keep) {c : Char} {cs : List Char}

/-- An encoded character starts with no digit. -/
theorem encodeChar_of_not_keep (hc : keep c = false) :
    ∃ ds, encodeChar keep c = '%' :: ds := by
  obtain ⟨b, bytes, hbytes⟩ := List.exists_cons_of_ne_nil (String.utf8EncodeChar_ne_nil (c := c))
  rw [encodeChar, hc, hbytes]
  exact ⟨_, rfl⟩

/-- A character that is kept stands for itself. -/
theorem encode_cons_of_keep (hc : keep c = true) : encode keep (c :: cs) = c :: encode keep cs := by
  rw [encode_cons, encodeChar, if_pos hc, List.singleton_append]

/-- Two digits behind a percent sign. -/
theorem escape?_percent (cs : List Char) : escape? ('%' :: cs) =
    (cs.head?.bind hexValue).bind fun high =>
      (cs.tail.head?.bind hexValue).map fun low => UInt8.ofNat (high * 16 + low) := by
  rcases cs with _ | ⟨d, _ | ⟨e, es⟩⟩
  · rfl
  · cases hd : hexValue d <;> simp [escape?]
  · cases hd : hexValue d <;> cases he : hexValue e <;> simp [escape?, hd, he]

/-- What looks like an encoded byte is a percent sign and two digits. -/
theorem exists_of_escape?_eq_some {b : UInt8} (hescape : escape? (c :: cs) = some b) :
    c = '%' ∧ ∃ d e es, cs = d :: e :: es ∧ (hexValue d).isSome ∧ (hexValue e).isSome := by
  rcases cs with _ | ⟨d, _ | ⟨e, es⟩⟩
  · cases hescape
  · cases hescape
  · simp only [escape?] at hescape
    split_ifs at hescape with hpercent
    refine ⟨hpercent, d, e, es, rfl, ?_⟩
    cases hd : hexValue d <;> cases he : hexValue e <;> simp [hd, he] at hescape ⊢

/-- What is made for a number is a hexadecimal digit. -/
theorem isSome_hexValue_hexDigit {n : ℕ} (hn : n < 16) : (hexValue (hexDigit n)).isSome := by
  rw [hexValue_hexDigit n hn, Option.isSome_some]

/-- The codes of the hexadecimal digits. -/
theorem toNat_of_isSome_hexValue {c : Char} (hdigit : (hexValue c).isSome) :
    0x30 ≤ c.toNat ∧ c.toNat ≤ 0x39 ∨ 0x41 ≤ c.toNat ∧ c.toNat ≤ 0x46 ∨
      0x61 ≤ c.toNat ∧ c.toNat ≤ 0x66 := by
  unfold hexValue at hdigit
  split_ifs at hdigit with hdecimal hupper hlower
  · exact .inl hdecimal
  · exact .inr (.inl hupper)
  · exact .inr (.inr hlower)
  · cases hdigit

/-- What is written for a byte is a percent sign and digits. -/
theorem eq_percent_or_digit_of_mem_encodeByte {b : UInt8} (hc : c ∈ encodeByte b) :
    c = '%' ∨ (hexValue c).isSome := by
  have hb := b.toNat_lt
  simp only [encodeByte, List.mem_cons, List.not_mem_nil, or_false] at hc
  rcases hc with rfl | rfl | rfl
  · exact .inl rfl
  · exact .inr (isSome_hexValue_hexDigit (by omega))
  · exact .inr (isSome_hexValue_hexDigit (by omega))

/-- A character that is written was there, or is part of an encoded byte. -/
theorem mem_or_of_mem_encode (hc : c ∈ encode keep cs) :
    c ∈ cs ∧ keep c = true ∨ c = '%' ∨ (hexValue c).isSome := by
  obtain ⟨d, hd, hmem⟩ := List.mem_flatMap.mp hc
  rw [encodeChar] at hmem
  split at hmem
  · next hkeep =>
      obtain rfl := List.mem_singleton.mp hmem
      exact .inl ⟨hd, hkeep⟩
  · obtain ⟨b, -, hb⟩ := List.mem_flatMap.mp hmem
    exact .inr (eq_percent_or_digit_of_mem_encodeByte hb)

/-- A character that is kept, and means nothing to the decoder, marks the same place in both. -/
theorem takeWhile_ne_encode {d : Char} (hkeep : keep d = true) (hpercent : d ≠ '%')
    (hdigit : hexValue d = none) (cs : List Char) :
    (encode keep cs).takeWhile (· ≠ d) = encode keep (cs.takeWhile (· ≠ d)) := by
  induction cs with
  | nil => rfl
  | cons c cs ih =>
      by_cases hc : c = d
      · subst hc
        rw [encode_cons_of_keep hkeep, List.takeWhile_cons_of_neg (by simp),
          List.takeWhile_cons_of_neg (by simp)]
        rfl
      · have hother : ∀ e ∈ encodeChar keep c, decide (e ≠ d) = true := by
          intro e he
          rw [decide_eq_true_eq]
          rintro rfl
          have hencoded : e ∈ encode keep [c] := by simpa [encode] using he
          rcases mem_or_of_mem_encode hencoded with ⟨hmem, -⟩ | heq | hsome
          · exact hc (List.mem_singleton.mp hmem).symm
          · exact hpercent heq
          · rw [hdigit] at hsome
            cases hsome
        rw [encode_cons, List.takeWhile_append_of_pos hother, ih, ← encode_cons,
          List.takeWhile_cons_of_pos (by rwa [decide_eq_true_eq])]

/-- Only a percent sign starts an escape. -/
theorem escape?_of_ne_percent (hc : c ≠ '%') : escape? (c :: cs) = none := by
  rcases cs with _ | ⟨d, _ | ⟨e, es⟩⟩
  · rfl
  · rfl
  · simp only [escape?, if_neg hc]

include h

/-- A character that is not kept is no hexadecimal digit. -/
theorem hexValue_of_not_keep (hc : keep c = false) : hexValue c = none := by
  by_contra hvalue
  rw [h.digit c (Option.isSome_iff_ne_none.mpr hvalue)] at hc
  cases hc

/-- Only what is kept is written. -/
theorem keep_of_mem_encode (hc : c ∈ encode keep cs) : keep c = true := by
  rcases mem_or_of_mem_encode hc with ⟨-, hkeep⟩ | rfl | hdigit
  · exact hkeep
  · exact h.percent
  · exact h.digit c hdigit

/-- Encoding neither makes a digit nor takes one away. -/
theorem head?_encode : (encode keep cs).head?.bind hexValue = cs.head?.bind hexValue := by
  rcases cs with _ | ⟨d, ds⟩
  · rfl
  · cases hd : keep d with
    | true => rw [encode_cons_of_keep hd, List.head?_cons, List.head?_cons]
    | false =>
        obtain ⟨es, hes⟩ := encodeChar_of_not_keep hd
        rw [encode_cons, hes]
        exact (hexValue_of_not_keep h hd).symm

/-- So what looks like an encoded byte behind a kept character did so before. -/
theorem escape?_encode (hc : keep c = true) :
    escape? (c :: encode keep cs) = escape? (c :: cs) := by
  by_cases hpercent : c = '%'
  · subst hpercent
    rw [escape?_percent, escape?_percent, head?_encode h]
    cases hd : cs.head?.bind hexValue with
    | none => rfl
    | some high =>
        obtain ⟨d, hhead, hvalue⟩ := Option.bind_eq_some_iff.mp hd
        obtain ⟨ds, rfl⟩ : ∃ ds, cs = d :: ds := by
          cases cs with
          | nil => cases hhead
          | cons e es => exact ⟨es, congrArg (· :: es) (Option.some.inj hhead)⟩
        have hkeep := h.digit d (Option.isSome_iff_exists.mpr ⟨high, hvalue⟩)
        rw [encode_cons_of_keep hkeep, List.tail_cons, List.tail_cons, head?_encode h]
  · rw [escape?_of_ne_percent hpercent, escape?_of_ne_percent hpercent]

/-- The bytes of a character that is kept or encoded. -/
theorem decodeFrom_encode_of_plain (hescape : escape? (c :: cs) = none) :
    decodeFrom 0 (encode keep (c :: cs)) = plainBytes c ++ decodeFrom 0 (encode keep cs) := by
  cases hc : keep c with
  | true => rw [encode_cons_of_keep hc, decodeFrom, escape?_encode h hc, hescape]
  | false =>
      have hplus : c ≠ '+' := by
        rintro rfl
        rw [h.plus] at hc
        cases hc
      rw [encode_cons, encodeChar, hc]
      simp only [Bool.false_eq_true, if_false]
      rw [decodeFrom_encodeBytes, plainBytes, if_neg hplus]

/-- What looks like an encoded byte is read as one. -/
theorem decodeFrom_encode_of_escape {b : UInt8} (hescape : escape? (c :: cs) = some b) :
    ∃ d e es, cs = d :: e :: es ∧
      decodeFrom 0 (encode keep (c :: cs)) = b :: decodeFrom 0 (encode keep es) := by
  obtain ⟨rfl, d, e, es, rfl, hd, he⟩ := exists_of_escape?_eq_some hescape
  refine ⟨d, e, es, rfl, ?_⟩
  rw [encode_cons_of_keep h.percent, decodeFrom, escape?_encode h h.percent, hescape,
    encode_cons_of_keep (h.digit d hd), encode_cons_of_keep (h.digit e he)]
  rfl

/-- Without anything that looks like an encoded byte, the characters are read back, `+` as a
blank. -/
theorem decode_encode_of_not_hasEscape (hplain : hasEscape cs = false) :
    decode (encode keep cs) = cs.map fun c => if c = '+' then ' ' else c := by
  unfold decode Utf8.decode
  induction cs with
  | nil => rfl
  | cons c cs ih =>
      obtain ⟨hescape, hrest⟩ := Bool.or_eq_false_iff.mp hplain
      rw [decodeFrom_encode_of_plain h (Option.not_isSome_iff_eq_none.mp (by simp [hescape])),
        plainBytes, Utf8.decodeFrom_none_encodeChar, ih hrest, List.map_cons]

/-- What is decoded is no longer than the text, and shorter when something looks like an encoded
byte. -/
theorem length_decode_encode (pending : Option Utf8.Pending) (cs : List Char) :
    (Utf8.decodeFrom pending (decodeFrom 0 (encode keep cs))).length +
        (if hasEscape cs then 1 else 0) ≤ cs.length + Utf8.owed pending := by
  -- an encoded byte takes three characters, so the induction is on the length
  induction hlength : cs.length using Nat.strongRecOn generalizing cs pending with
  | ind n ih =>
    rcases cs with _ | ⟨c, cs⟩
    · cases pending <;> simp [hasEscape, encode, decodeFrom, Utf8.decodeFrom, Utf8.owed]
    · rw [List.length_cons] at hlength
      cases hescape : escape? (c :: cs) with
      | none =>
          have hrest := ih cs.length (by omega) none cs rfl
          have hescapes : hasEscape (c :: cs) = hasEscape cs := by
            rw [hasEscape, hescape, Option.isSome_none, Bool.false_or]
          rw [decodeFrom_encode_of_plain h hescape, plainBytes, Utf8.length_decodeFrom_encodeChar,
            hescapes]
          simp only [Utf8.owed, Option.isSome_none, Bool.false_eq_true, if_false] at hrest ⊢
          omega
      | some b =>
          obtain ⟨d, e, es, rfl, hdecode⟩ := decodeFrom_encode_of_escape h hescape
          have hrest := ih es.length (by simp at hlength; omega) (Utf8.step pending b).2 es rfl
          have hstep := Utf8.step_length pending b
          have hone : (if hasEscape (c :: d :: e :: es) then 1 else 0) ≤ 1 := by split <;> omega
          rw [hdecode, Utf8.decodeFrom_cons, List.length_append]
          simp only [List.length_cons] at hlength
          omega

/-- **Which texts are read back**: those without `+` and without anything that looks like an encoded
byte. -/
theorem decode_encode_eq_iff (cs : List Char) :
    decode (encode keep cs) = cs ↔ hasEscape cs = false ∧ '+' ∉ cs := by
  constructor
  · intro hback
    have hplain : hasEscape cs = false := by
      by_contra hescape
      have hlength := length_decode_encode h none cs
      rw [← Utf8.decode, ← decode, hback, if_pos (Bool.not_eq_false _ ▸ hescape)] at hlength
      exact absurd hlength (by simp [Utf8.owed])
    refine ⟨hplain, fun hplus => ?_⟩
    rw [decode_encode_of_not_hasEscape h hplain] at hback
    have hblank := List.map_eq_map_iff.mp (hback.trans (List.map_id cs).symm) '+' hplus
    exact absurd hblank (by decide)
  · rintro ⟨hplain, hplus⟩
    rw [decode_encode_of_not_hasEscape h hplain]
    conv_rhs => rw [← List.map_id cs]
    refine List.map_congr_left fun c hc => ?_
    have hne : c ≠ '+' := fun hblank => hplus (hblank ▸ hc)
    rw [if_neg hne, id]

end Keeping

end BrowCast.PercentEncoding
