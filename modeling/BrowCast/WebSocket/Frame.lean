import BrowCast.Encodings.BigEndian

/-! # Frame headers

The header functions of `frame.hpp`: a basic header of two bytes, followed by the length where it
does not fit there and by the masking key of a masked frame. -/

namespace BrowCast.WebSocket

/-- `opcode::value`. -/
inductive Opcode where
  | continuation | text | binary | rsv3 | rsv4 | rsv5 | rsv6 | rsv7
  | close | ping | pong | controlRsvb | controlRsvc | controlRsvd | controlRsve | controlRsvf
  deriving DecidableEq

namespace Opcode

/-- The opcodes, each at the place of its number. -/
def all : List Opcode :=
  [continuation, text, binary, rsv3, rsv4, rsv5, rsv6, rsv7, close, ping, pong, controlRsvb,
    controlRsvc, controlRsvd, controlRsve, controlRsvf]

/-- The number of the opcode. -/
def toNat (op : Opcode) : ℕ := op.ctorIdx

/-- `opcode::value(n)` for a number of four bits. -/
def ofValue (n : ℕ) : Opcode := all.getD n continuation

/-- `opcode::reserved`. -/
def reserved (v : Opcode) : Bool :=
  (rsv3.toNat ≤ v.toNat && v.toNat ≤ rsv7.toNat) ||
    (controlRsvb.toNat ≤ v.toNat && v.toNat ≤ controlRsvf.toNat)

/-- `opcode::invalid`. -/
def invalid (v : Opcode) : Bool := v.toNat > 0xF

/-- `opcode::is_control`. -/
def isControl (v : Opcode) : Bool := 0x8 ≤ v.toNat

end Opcode

/-- `BASIC_HEADER_LENGTH`. -/
def basicHeaderLength : ℕ := 2

/-- `MAX_EXTENDED_HEADER_LENGTH`. -/
def maxExtendedHeaderLength : ℕ := 12

/-- `limits::payload_size_basic`. -/
def payloadSizeBasic : ℕ := 125

/-- `limits::payload_size_extended`. -/
def payloadSizeExtended : ℕ := 0xFFFF

/-- `payload_size_code_16bit`. -/
def payloadSizeCode16bit : UInt8 := 0x7E

/-- `payload_size_code_64bit`. -/
def payloadSizeCode64bit : UInt8 := 0x7F

/-- `basic_header`. -/
structure BasicHeader where
  b0 : UInt8 := 0x00
  b1 : UInt8 := 0x00
  deriving DecidableEq

/-- The seven bits for the length. -/
def basicValue (size : ℕ) : UInt8 :=
  if size ≤ payloadSizeBasic then UInt8.ofNat size
  else if size ≤ payloadSizeExtended then payloadSizeCode16bit
  else payloadSizeCode64bit

/-- The constructor from an opcode and a size. -/
def BasicHeader.ofOpcode (op : Opcode) (size : ℕ) (fin mask : Bool)
    (rsv1 rsv2 rsv3 : Bool := false) : BasicHeader where
  b0 := (if fin then 0x80 else 0x00) ||| (if rsv1 then 0x40 else 0x00) |||
    (if rsv2 then 0x20 else 0x00) ||| (if rsv3 then 0x10 else 0x00) |||
      (UInt8.ofNat op.toNat &&& 0x0F)
  b1 := (if mask then 0x80 else 0x00) ||| basicValue size

section Getters

variable (h : BasicHeader)

/-- `get_fin`. -/
def getFin : Bool := h.b0 &&& 0x80 == 0x80

/-- `get_rsv1`. -/
def getRsv1 : Bool := h.b0 &&& 0x40 == 0x40

/-- `get_rsv2`. -/
def getRsv2 : Bool := h.b0 &&& 0x20 == 0x20

/-- `get_rsv3`. -/
def getRsv3 : Bool := h.b0 &&& 0x10 == 0x10

/-- `get_opcode`. -/
def getOpcode : Opcode := .ofValue (h.b0 &&& 0x0F).toNat

/-- `get_masked`. -/
def getMasked : Bool := h.b1 &&& 0x80 == 0x80

/-- `get_basic_size`. -/
def getBasicSize : UInt8 := h.b1 &&& 0x7F

/-- `get_masking_key_offset`. -/
def getMaskingKeyOffset : ℕ :=
  if getBasicSize h = payloadSizeCode16bit then 2
  else if getBasicSize h = payloadSizeCode64bit then 8
  else 0

/-- `get_header_len`. -/
def getHeaderLen : ℕ :=
  basicHeaderLength + getMaskingKeyOffset h + if getMasked h then 4 else 0

end Getters

/-- The masking key as the integer `i` of `uint32_converter`. -/
abbrev MaskingKey := BitVec 32

/-- Byte `j` of an integer in memory, on a little-endian machine. -/
def memoryByte {width : ℕ} (i : BitVec width) (j : ℕ) : UInt8 := ⟨i.extractLsb' (8 * j) 8⟩

/-- The member `c` of `uint32_converter`. -/
def MaskingKey.c (key : MaskingKey) : List UInt8 := (List.range 4).map (memoryByte key)

/-- The integer of four bytes in memory. -/
def MaskingKey.ofBytes (c : List UInt8) : MaskingKey :=
  (c.getD 3 0).toBitVec ++ (c.getD 2 0).toBitVec ++ (c.getD 1 0).toBitVec ++ (c.getD 0 0).toBitVec

/-- `extended_header`: its member `bytes`. -/
abbrev ExtendedHeader := List UInt8

namespace ExtendedHeader

/-- `std::copy` of the bytes to an offset. -/
def copyTo (bytes : ExtendedHeader) (offset : ℕ) (source : List UInt8) : ExtendedHeader :=
  bytes.take offset ++ source ++ bytes.drop (offset + source.length)

/-- What the constructors fill in first. -/
def zeros : ExtendedHeader := List.replicate maxExtendedHeaderLength 0x00

/-- The first of the eight bytes of the length that `copy_payload` copies. -/
def payloadOffset (payloadSize : ℕ) : ℕ :=
  if payloadSize ≤ payloadSizeBasic then 8
  else if payloadSize ≤ payloadSizeExtended then 6
  else 0

/-- `copy_payload`, from the bytes of the length in network order. -/
def copyPayload (bytes : ExtendedHeader) (payloadSize : ℕ) : ExtendedHeader :=
  bytes.copyTo 0 ((BigEndian.bytes 8 payloadSize).drop (payloadOffset payloadSize))

/-- The constructor from a size. -/
def ofSize (payloadSize : ℕ) : ExtendedHeader := zeros.copyPayload payloadSize

/-- The constructor from a size and a masking key. -/
def ofKey (payloadSize : ℕ) (maskingKey : MaskingKey) : ExtendedHeader :=
  (zeros.copyPayload payloadSize).copyTo (8 - payloadOffset payloadSize) maskingKey.c

end ExtendedHeader

/-- `prepare_header`: the bytes of both headers. -/
def prepareHeader (h : BasicHeader) (e : ExtendedHeader) : List UInt8 :=
  h.b0 :: h.b1 :: e.take (getHeaderLen h - basicHeaderLength)

/-- `get_masking_key`. -/
def getMaskingKey (h : BasicHeader) (e : ExtendedHeader) : MaskingKey :=
  if getMasked h then .ofBytes ((e.drop (getMaskingKeyOffset h)).take 4) else 0

/-- `get_extended_size`. -/
def getExtendedSize (e : ExtendedHeader) : ℕ := BigEndian.value (e.take 2)

/-- `get_jumbo_size`. -/
def getJumboSize (e : ExtendedHeader) : ℕ := BigEndian.value (e.take 8)

/-- `get_payload_size`. -/
def getPayloadSize (h : BasicHeader) (e : ExtendedHeader) : ℕ :=
  if (getBasicSize h).toNat ≤ payloadSizeBasic then (getBasicSize h).toNat
  else if getBasicSize h = payloadSizeCode16bit then getExtendedSize e
  else getJumboSize e

end BrowCast.WebSocket
