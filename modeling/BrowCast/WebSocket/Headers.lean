import BrowCast.WebSocket.Stages

/-! # Headers, written and read

A header that was written is read back, and a header that passes the checks is the one that is
written for its frame: there are no two for one frame. -/

namespace BrowCast.WebSocket

open ExtendedHeader

/-- The bytes of the length that do not fit into the basic header. -/
def lengthBytes (size : ℕ) : List UInt8 := BigEndian.bytes (8 - payloadOffset size) size

/-- The bytes of the key of a masked frame. -/
def keyBytes (masked : Bool) (key : MaskingKey) : List UInt8 := if masked then key.c else []

section Basic

variable (op : Opcode) (size : ℕ) (fin mask : Bool)

/-- Opcodes have four bits. -/
theorem toNat_lt : op.toNat < 16 := by cases op <;> decide

/-- An opcode is found by its number. -/
theorem ofValue_toNat : Opcode.ofValue op.toNat = op := by cases op <;> rfl

/-- The fields of the first byte do not overlap. -/
theorem first_byte : ∀ n < 16, ∀ fin : Bool, ∀ b0 : UInt8,
    b0 = ((if fin then 0x80 else 0x00) ||| 0x00 ||| 0x00 ||| 0x00 ||| (UInt8.ofNat n &&& 0x0F)) →
      (b0 &&& 0x80 == 0x80) = fin ∧ ((b0 &&& 0x40 == 0x40) = false ∧
        (b0 &&& 0x20 == 0x20) = false ∧ (b0 &&& 0x10 == 0x10) = false) ∧
          (b0 &&& 0x0F).toNat = n := by
  simp only [forall_eq]
  decide

/-- The final bit is read back. -/
theorem getFin_ofOpcode : getFin (.ofOpcode op size fin mask) = fin :=
  (first_byte _ (toNat_lt op) fin _ rfl).1

/-- The reserved bits are read back as clear. -/
theorem getRsv_ofOpcode : getRsv1 (.ofOpcode op size fin mask) = false ∧
    getRsv2 (.ofOpcode op size fin mask) = false ∧
      getRsv3 (.ofOpcode op size fin mask) = false :=
  (first_byte _ (toNat_lt op) fin _ rfl).2.1

/-- The opcode is read back. -/
theorem getOpcode_ofOpcode : getOpcode (.ofOpcode op size fin mask) = op :=
  (congrArg Opcode.ofValue (first_byte _ (toNat_lt op) fin _ rfl).2.2).trans (ofValue_toNat op)

/-- The short length has seven bits. -/
theorem basicValue_lt : (basicValue size).toNat < 128 := by
  unfold basicValue
  split_ifs with hbasic
  · rw [UInt8.toNat_ofNat', Nat.mod_eq_of_lt (by unfold payloadSizeBasic at hbasic; omega)]
    unfold payloadSizeBasic at hbasic
    omega
  · decide
  · decide

/-- The fields of the second byte do not overlap. -/
theorem second_byte : ∀ n < 128, ∀ mask : Bool,
    ((((if mask then 0x80 else 0x00) ||| UInt8.ofNat n) &&& 0x80 == 0x80) = mask) ∧
      ((if mask then 0x80 else 0x00) ||| UInt8.ofNat n) &&& 0x7F = UInt8.ofNat n := by
  decide

/-- The mask bit is read back. -/
theorem getMasked_ofOpcode : getMasked (.ofOpcode op size fin mask) = mask := by
  have h := (second_byte _ (basicValue_lt size) mask).1
  rwa [UInt8.ofNat_toNat] at h

/-- The short length is read back. -/
theorem getBasicSize_ofOpcode :
    getBasicSize (.ofOpcode op size fin mask) = basicValue size := by
  have h := (second_byte _ (basicValue_lt size) mask).2
  rwa [UInt8.ofNat_toNat] at h

/-- The three forms of a length. -/
theorem basicValue_cases : size ≤ 125 ∧ (basicValue size).toNat = size ∧ payloadOffset size = 8 ∨
    (125 < size ∧ size ≤ 65535) ∧ basicValue size = payloadSizeCode16bit ∧ payloadOffset size = 6 ∨
      65535 < size ∧ basicValue size = payloadSizeCode64bit ∧ payloadOffset size = 0 := by
  unfold basicValue payloadOffset payloadSizeBasic payloadSizeExtended
  by_cases hbasic : size ≤ 125
  · refine .inl ⟨hbasic, ?_, if_pos hbasic⟩
    rw [if_pos hbasic, UInt8.toNat_ofNat', Nat.mod_eq_of_lt (by omega)]
  · rw [if_neg hbasic, if_neg hbasic]
    by_cases hextended : size ≤ 0xFFFF
    · exact .inr (.inl ⟨by omega, if_pos hextended, if_pos hextended⟩)
    · exact .inr (.inr ⟨by omega, if_neg hextended, if_neg hextended⟩)

/-- The key stands behind the bytes of the length. -/
theorem getMaskingKeyOffset_ofOpcode :
    getMaskingKeyOffset (.ofOpcode op size fin mask) = 8 - payloadOffset size := by
  unfold getMaskingKeyOffset
  rw [getBasicSize_ofOpcode]
  obtain ⟨hsize, hvalue, hoffset⟩ | ⟨-, hvalue, hoffset⟩ | ⟨-, hvalue, hoffset⟩ :=
    basicValue_cases size
  · have hne : ∀ code : UInt8, 125 < code.toNat → basicValue size ≠ code := by
      rintro code hcode rfl
      omega
    have h16 : basicValue size ≠ payloadSizeCode16bit := hne _ (by decide)
    have h64 : basicValue size ≠ payloadSizeCode64bit := hne _ (by decide)
    rw [if_neg h16, if_neg h64, hoffset]
  · rw [if_pos hvalue, hoffset]
  · rw [if_neg (by rw [hvalue]; decide), if_pos hvalue, hoffset]

end Basic

/-! ## What is written -/

/-- The length takes none, two or eight bytes. -/
theorem length_lengthBytes (size : ℕ) : (lengthBytes size).length = 8 - payloadOffset size :=
  BigEndian.length_bytes ..

/-- A masking key takes four bytes. -/
theorem length_keyBytes (masked : Bool) (key : MaskingKey) :
    (keyBytes masked key).length = if masked then 4 else 0 := by
  cases masked <;> rfl

/-- The length starts within its eight bytes. -/
theorem payloadOffset_le (size : ℕ) : payloadOffset size ≤ 8 := by
  unfold payloadOffset
  split_ifs <;> decide

/-- Copying to the front replaces the first bytes. -/
theorem copyTo_zero (bytes : ExtendedHeader) (xs : List UInt8) :
    bytes.copyTo 0 xs = xs ++ bytes.drop xs.length := by
  rw [copyTo, List.take_zero, List.nil_append, Nat.zero_add]

/-- The bytes of the length are the last ones of its eight. -/
theorem drop_payloadOffset (size : ℕ) :
    (BigEndian.bytes 8 size).drop (payloadOffset size) = lengthBytes size := by
  have h := BigEndian.drop_bytes (payloadOffset size) (8 - payloadOffset size) size
  rwa [Nat.add_sub_cancel' (payloadOffset_le size)] at h

/-- The extended header of a frame without a mask. -/
theorem ofSize_eq (size : ℕ) : ofSize size = zeros.copyTo 0 (lengthBytes size) := by
  rw [ofSize, copyPayload, drop_payloadOffset]

/-- The extended header of a frame with one. -/
theorem ofKey_eq (size : ℕ) (key : MaskingKey) :
    ofKey size key = zeros.copyTo 0 (lengthBytes size ++ key.c) := by
  rw [ofKey, copyPayload, drop_payloadOffset, copyTo_append (Nat.zero_le _), Nat.zero_add,
    length_lengthBytes]

/-- The rest of the header is the length and the key. -/
theorem getHeaderLen_ofOpcode (op : Opcode) (size : ℕ) (fin mask : Bool) (key : MaskingKey) :
    getHeaderLen (.ofOpcode op size fin mask) - basicHeaderLength =
      (lengthBytes size ++ keyBytes mask key).length := by
  rw [getHeaderLen, getMaskingKeyOffset_ofOpcode, getMasked_ofOpcode, List.length_append,
    length_lengthBytes, length_keyBytes]
  omega

/-- **The header of a frame**: two bytes, those of the length, and those of the key. -/
theorem prepareHeader_eq (op : Opcode) (size : ℕ) (fin mask : Bool) (key : MaskingKey) :
    prepareHeader (.ofOpcode op size fin mask) (if mask then ofKey size key else ofSize size) =
      [(BasicHeader.ofOpcode op size fin mask).b0, (BasicHeader.ofOpcode op size fin mask).b1] ++
        (lengthBytes size ++ keyBytes mask key) := by
  have hbytes : (if mask then ofKey size key else ofSize size) =
      zeros.copyTo 0 (lengthBytes size ++ keyBytes mask key) := by
    cases mask with
    | false => rw [keyBytes, ofSize_eq]; simp
    | true => rw [keyBytes, ofKey_eq]; simp
  rw [prepareHeader, hbytes, getHeaderLen_ofOpcode op size fin mask key, copyTo_zero,
    List.take_left' rfl]
  rfl

/-! ## What is read back -/

section ReadBack

variable (op : Opcode) {size : ℕ} (fin mask : Bool) (key : MaskingKey)

/-- The size of the payload is read back from the two headers. -/
theorem getPayloadSize_readBack (hsize : size < sizeMax) :
    getPayloadSize (.ofOpcode op size fin mask)
      (zeros.copyTo 0 (lengthBytes size ++ keyBytes mask key)) = size := by
  have hlength := length_lengthBytes size
  unfold getPayloadSize
  rw [getBasicSize_ofOpcode, copyTo_zero, List.append_assoc]
  obtain ⟨hsmall, hvalue, -⟩ | ⟨hmiddle, hvalue, hoffset⟩ | ⟨hlarge, hvalue, hoffset⟩ :=
    basicValue_cases size
  · rw [if_pos (by rw [hvalue]; exact hsmall), hvalue]
  · rw [hvalue, if_neg (by decide), if_pos rfl, getExtendedSize,
      List.take_left' (by rw [hlength, hoffset]), lengthBytes, BigEndian.value_bytes, hoffset]
    exact Nat.mod_eq_of_lt (by norm_num; omega)
  · rw [hvalue, if_neg (by decide), if_neg (by decide), getJumboSize,
      List.take_left' (by rw [hlength, hoffset]), lengthBytes, BigEndian.value_bytes, hoffset]
    exact Nat.mod_eq_of_lt (by unfold sizeMax at hsize; norm_num; omega)

/-- The masking key is read back from the two headers. -/
theorem getMaskingKey_readBack (size : ℕ) : getMaskingKey (.ofOpcode op size fin mask)
    (zeros.copyTo 0 (lengthBytes size ++ keyBytes mask key)) = if mask then key else 0 := by
  unfold getMaskingKey
  rw [getMasked_ofOpcode, getMaskingKeyOffset_ofOpcode, copyTo_zero, List.append_assoc,
    List.drop_left' (length_lengthBytes size)]
  cases mask with
  | false => rfl
  | true =>
      have hlength : (keyBytes true key).length = 4 := rfl
      rw [if_pos rfl, if_pos rfl, List.take_left' hlength]
      exact ofBytes_c key

/-- A length is written in the shortest form. -/
theorem validateIncomingExtendedHeader_readBack (hsize : size < sizeMax) :
    Hybi13.validateIncomingExtendedHeader (.ofOpcode op size fin mask)
      (zeros.copyTo 0 (lengthBytes size ++ keyBytes mask key)) = none := by
  unfold Hybi13.validateIncomingExtendedHeader
  rw [getPayloadSize_readBack op fin mask key hsize, getBasicSize_ofOpcode]
  unfold payloadSizeBasic payloadSizeExtended
  obtain ⟨hsmall, hvalue, -⟩ | ⟨hmiddle, hvalue, -⟩ | ⟨hlarge, hvalue, -⟩ :=
    basicValue_cases size
  · have hne : ∀ code : UInt8, 125 < code.toNat → basicValue size ≠ code := fun code hcode h => by
      rw [h] at hvalue
      omega
    rw [if_neg fun h => hne _ (by decide) h.1, if_neg fun h => hne _ (by decide) h.1]
  · rw [if_neg (by omega), hvalue, if_neg fun h => absurd h.1 (by decide)]
  · rw [hvalue, if_neg fun h => absurd h.1 (by decide), if_neg (by omega)]

end ReadBack

/-! ## What can be read -/

section Canonical

variable {h : BasicHeader}

/-- A first byte without reserved bits is made of its fields. -/
theorem first_byte_readBack : ∀ n < 256, ∀ b0 : UInt8, b0 = UInt8.ofNat n →
    (b0 &&& 0x40 == 0x40) = false → (b0 &&& 0x20 == 0x20) = false →
      (b0 &&& 0x10 == 0x10) = false →
        b0 = ((if b0 &&& 0x80 == 0x80 then 0x80 else 0x00) ||| 0x00 ||| 0x00 ||| 0x00 |||
          (UInt8.ofNat (Opcode.ofValue (b0 &&& 0x0F).toNat).toNat &&& 0x0F)) := by
  simp only [forall_eq]
  decide +kernel

/-- A second byte is made of its fields. -/
theorem second_byte_readBack : ∀ n < 256, ∀ b1 : UInt8, b1 = UInt8.ofNat n →
    b1 = ((if b1 &&& 0x80 == 0x80 then 0x80 else 0x00) ||| (b1 &&& 0x7F)) ∧
      (b1 &&& 0x7F).toNat < 128 := by
  simp only [forall_eq]
  decide +kernel

/-- A basic header without reserved bits is the one of its frame, if the length has its form. -/
theorem ofOpcode_readBack (hrsv1 : getRsv1 h = false) (hrsv2 : getRsv2 h = false)
    (hrsv3 : getRsv3 h = false) {size : ℕ} (hsize : basicValue size = getBasicSize h) :
    .ofOpcode (getOpcode h) size (getFin h) (getMasked h) = h := by
  have h0 := first_byte_readBack _ h.b0.toNat_lt h.b0 UInt8.ofNat_toNat.symm hrsv1 hrsv2 hrsv3
  have h1 := (second_byte_readBack _ h.b1.toNat_lt h.b1 UInt8.ofNat_toNat.symm).1
  rw [BasicHeader.ofOpcode, hsize]
  exact congrArg₂ BasicHeader.mk h0.symm h1.symm

/-- A length in as few bytes as possible is written as it was read. -/
theorem lengthBytes_value {xs : List UInt8}
    (hlength : xs.length = 8 - payloadOffset (BigEndian.value xs)) :
    lengthBytes (BigEndian.value xs) = xs := by
  rw [lengthBytes, ← hlength, BigEndian.bytes_value]

/-- The length of a header that passes the checks has its form, and its bytes are those of it. -/
theorem length_readBack {xs : List UInt8} (hlength : getMaskingKeyOffset h ≤ xs.length)
    (hvalid : Hybi13.validateIncomingExtendedHeader h (zeros.copyTo 0 xs) = none) :
    ∃ size < sizeMax, basicValue size = getBasicSize h ∧
      lengthBytes size = xs.take (getMaskingKeyOffset h) := by
  have hbasic : (getBasicSize h).toNat < 128 :=
    (second_byte_readBack _ h.b1.toNat_lt h.b1 UInt8.ofNat_toNat.symm).2
  unfold Hybi13.validateIncomingExtendedHeader at hvalid
  split_ifs at hvalid with h16 h64
  rw [copyTo_zero] at h16 h64
  unfold getMaskingKeyOffset at hlength ⊢
  by_cases hcode16 : getBasicSize h = payloadSizeCode16bit
  · -- two more bytes for the length
    rw [if_pos hcode16] at hlength ⊢
    have htake : (xs.take 2).length = 2 := by
      rw [List.length_take]
      omega
    have hlt := BigEndian.value_lt (xs.take 2)
    have hpayload :
        getPayloadSize h (xs ++ zeros.drop xs.length) = BigEndian.value (xs.take 2) := by
      rw [getPayloadSize, if_neg (by rw [hcode16]; decide), if_pos hcode16, getExtendedSize,
        List.take_append_of_le_length hlength]
    rw [htake] at hlt
    rw [hpayload, payloadSizeBasic] at h16
    have hlow : ¬ BigEndian.value (xs.take 2) ≤ 125 := fun hle => h16 ⟨hcode16, hle⟩
    obtain ⟨hcase, -⟩ | ⟨-, hvalue, hoffset⟩ | ⟨hcase, -⟩ :=
      basicValue_cases (BigEndian.value (xs.take 2))
    · omega
    · exact ⟨_, by unfold sizeMax; omega, by rw [hvalue, hcode16],
        lengthBytes_value (by rw [htake, hoffset])⟩
    · omega
  · rw [if_neg hcode16] at hlength ⊢
    by_cases hcode64 : getBasicSize h = payloadSizeCode64bit
    · -- eight more bytes
      rw [if_pos hcode64] at hlength ⊢
      have htake : (xs.take 8).length = 8 := by
        rw [List.length_take]
        omega
      have hlt := BigEndian.value_lt (xs.take 8)
      have hpayload :
          getPayloadSize h (xs ++ zeros.drop xs.length) = BigEndian.value (xs.take 8) := by
        rw [getPayloadSize, if_neg (by rw [hcode64]; decide), if_neg hcode16, getJumboSize,
          List.take_append_of_le_length hlength]
      rw [htake] at hlt
      rw [hpayload, payloadSizeExtended] at h64
      have hlow : ¬ BigEndian.value (xs.take 8) ≤ 65535 := fun hle => h64 ⟨hcode64, hle⟩
      obtain ⟨hcase, -⟩ | ⟨⟨-, hcase⟩, -⟩ | ⟨-, hvalue, hoffset⟩ :=
        basicValue_cases (BigEndian.value (xs.take 8))
      · omega
      · omega
      · exact ⟨_, by unfold sizeMax; omega, by rw [hvalue, hcode64],
          lengthBytes_value (by rw [htake, hoffset])⟩
    · -- the length fits
      rw [if_neg hcode64, List.take_zero]
      have hne16 : (getBasicSize h).toNat ≠ 126 := fun heq =>
        hcode16 (UInt8.toNat_inj.mp heq)
      have hne64 : (getBasicSize h).toNat ≠ 127 := fun heq =>
        hcode64 (UInt8.toNat_inj.mp heq)
      obtain ⟨-, hvalue, hoffset⟩ | ⟨⟨hcase, -⟩, -⟩ | ⟨hcase, -⟩ :=
        basicValue_cases (getBasicSize h).toNat
      · exact ⟨_, by unfold sizeMax; omega, UInt8.toNat_inj.mp hvalue, by
          rw [lengthBytes, hoffset]; rfl⟩
      · omega
      · omega

/-- **A header that passes the checks** is the one that is written for its frame. -/
theorem header_readBack (hrsv1 : getRsv1 h = false) (hrsv2 : getRsv2 h = false)
    (hrsv3 : getRsv3 h = false) {xs : List UInt8}
    (hlength : xs.length = getHeaderLen h - basicHeaderLength)
    (hvalid : Hybi13.validateIncomingExtendedHeader h (zeros.copyTo 0 xs) = none) :
    ∃ size < sizeMax, ∃ key, h = .ofOpcode (getOpcode h) size (getFin h) (getMasked h) ∧
      xs = lengthBytes size ++ keyBytes (getMasked h) key := by
  have hlen : xs.length = getMaskingKeyOffset h + if getMasked h then 4 else 0 := by
    rw [hlength, getHeaderLen]
    omega
  obtain ⟨size, hsize, hvalue, hbytes⟩ := length_readBack (by omega) hvalid
  have hkey : (xs.drop (getMaskingKeyOffset h)).length = if getMasked h then 4 else 0 := by
    rw [List.length_drop]
    omega
  refine ⟨size, hsize, .ofBytes (xs.drop (getMaskingKeyOffset h)),
    (ofOpcode_readBack hrsv1 hrsv2 hrsv3 hvalue).symm, ?_⟩
  rw [hbytes, keyBytes]
  split_ifs at hkey ⊢ with hmasked
  · rw [c_ofBytes hkey, List.take_append_drop]
  · rw [List.append_nil, List.take_of_length_le]
    rw [List.length_drop] at hkey
    omega

end Canonical

end BrowCast.WebSocket
