import BrowCast.Runs.WhileLoop
import BrowCast.WebSocket.Masking
import BrowCast.WebSocket.Utf8Validator

/-! # The processor of frames

`processors/hybi13.hpp`, with `permessage_deflate` disabled as the configuration of the client has
it: how incoming bytes become messages, and how outgoing messages become frames. Nothing is read
after an error, so the state that a call of `consume` leaves with one is not kept. -/

namespace BrowCast.WebSocket

/-- The codes of `processor::error` that the processor sets. -/
inductive ProcessorError where
  | general | messageTooBig | invalidPayload | invalidOpcode | controlTooBig | invalidRsvBit
  | fragmentedControl | invalidContinuation | maskingRequired | maskingForbidden
  | nonMinimalEncoding | invalidUtf8 | reservedCloseCode | invalidCloseCode | reasonRequiresCode
  deriving DecidableEq

/-- `hybi13::state`. -/
inductive ConsumeState where
  | headerBasic | headerExtended | extension | application | ready | fatalError
  deriving DecidableEq

/-- `msg_metadata`, with the opcode and the payload of the message it points to. -/
structure MsgMetadata where
  opcode : Opcode
  payload : List UInt8 := []
  preparedKey : BitVec 64
  validator : Validator := {}
  deriving DecidableEq

/-- What `m_current_msg` points to. -/
inductive CurrentMsg where
  | data | control
  deriving DecidableEq

/-- A message that `get_message` hands over. -/
structure Incoming where
  opcode : Opcode
  payload : List UInt8
  deriving DecidableEq

/-- The class `hybi13`. A message pointer is `none` where it is null. -/
structure Hybi13 where
  server : Bool
  maxMessageSize : ℕ := 32000000
  basicHeader : BasicHeader := {}
  extendedHeader : ExtendedHeader := .zeros
  bytesNeeded : ℕ := basicHeaderLength
  cursor : ℕ := 0
  dataMsg : Option MsgMetadata := none
  controlMsg : Option MsgMetadata := none
  currentMsg : CurrentMsg := .data
  state : ConsumeState := .headerBasic
  deriving DecidableEq

/-- One more than the largest `size_t`. -/
def sizeMax : ℕ := 2 ^ 64

namespace Hybi13

variable (p : Hybi13)

/-- The message of the frame being read. -/
def current : Option MsgMetadata :=
  match p.currentMsg with
  | .data => p.dataMsg
  | .control => p.controlMsg

/-- Replaces the message of the frame being read. -/
def setCurrent (m : Option MsgMetadata) : Hybi13 :=
  match p.currentMsg with
  | .data => { p with dataMsg := m }
  | .control => { p with controlMsg := m }

/-- `reset_headers`. -/
def resetHeaders : Hybi13 :=
  { p with
    state := .headerBasic
    bytesNeeded := basicHeaderLength
    basicHeader := {}
    extendedHeader := .zeros }

/-- The bytes read are taken off the front of the buffer. -/
def copyBasicHeaderBytes (buf : List UInt8) : Hybi13 × List UInt8 :=
  if buf.length = 0 ∨ p.bytesNeeded = 0 then (p, buf)
  else if 1 < buf.length then
    if p.bytesNeeded = 2 then
      ({ p with
        basicHeader := { b0 := buf.getD 0 0, b1 := buf.getD 1 0 }
        bytesNeeded := p.bytesNeeded - 2 }, buf.drop 2)
    else
      ({ p with
        basicHeader := { p.basicHeader with b1 := buf.getD 0 0 }
        bytesNeeded := p.bytesNeeded - 1 }, buf.drop 1)
  else if p.bytesNeeded = 2 then
    ({ p with
      basicHeader := { p.basicHeader with b0 := buf.getD 0 0 }
      bytesNeeded := p.bytesNeeded - 1 }, buf.drop 1)
  else
    ({ p with
      basicHeader := { p.basicHeader with b1 := buf.getD 0 0 }
      bytesNeeded := p.bytesNeeded - 1 }, buf.drop 1)

/-- `copy_extended_header_bytes`, with the bytes it has left. -/
def copyExtendedHeaderBytes (buf : List UInt8) : Hybi13 × List UInt8 :=
  let bytesToRead := min p.bytesNeeded buf.length
  ({ p with
    extendedHeader := p.extendedHeader.copyTo p.cursor (buf.take bytesToRead)
    cursor := p.cursor + bytesToRead
    bytesNeeded := p.bytesNeeded - bytesToRead }, buf.drop bytesToRead)

/-- `process_payload_bytes`, for no more bytes than are needed. There is a message while a payload
is read. -/
def processPayloadBytes (buf : List UInt8) : Except ProcessorError Hybi13 :=
  match p.current with
  | none => .error .general
  | some m =>
      let (bytes, preparedKey) :=
        if getMasked p.basicHeader then byteMaskCirc buf m.preparedKey else (buf, m.preparedKey)
      let m := { m with preparedKey, payload := m.payload ++ bytes }
      let (validator, valid) :=
        if m.opcode = .text then m.validator.decode bytes else (m.validator, true)
      if valid then
        .ok { p.setCurrent (some { m with validator }) with
          bytesNeeded := p.bytesNeeded - buf.length }
      else .error .invalidUtf8

/-- The checks of an incoming basic header. A set first reserved bit would need compression. -/
def validateIncomingBasicHeader (h : BasicHeader) (isServer newMsg : Bool) :
    Option ProcessorError :=
  let op := getOpcode h
  if op.isControl ∧ payloadSizeBasic < (getBasicSize h).toNat then some .controlTooBig
  else if getRsv1 h then some .invalidRsvBit
  else if getRsv2 h || getRsv3 h then some .invalidRsvBit
  else if op.reserved then some .invalidOpcode
  else if op.invalid then some .invalidOpcode
  else if op.isControl && !getFin h then some .fragmentedControl
  else if newMsg && op = .continuation then some .invalidContinuation
  else if !newMsg && !op.isControl && op ≠ .continuation then some .invalidContinuation
  else if isServer && !getMasked h then some .maskingRequired
  else if !isServer && getMasked h then some .maskingForbidden
  else none

/-- The checks of an incoming extended header, where a `size_t` has 64 bits. -/
def validateIncomingExtendedHeader (h : BasicHeader) (e : ExtendedHeader) :
    Option ProcessorError :=
  if getBasicSize h = payloadSizeCode16bit ∧ getPayloadSize h e ≤ payloadSizeBasic then
    some .nonMinimalEncoding
  else if getBasicSize h = payloadSizeCode64bit ∧ getPayloadSize h e ≤ payloadSizeExtended then
    some .nonMinimalEncoding
  else none

/-- `finalize_message`. -/
def finalizeMessage : Except ProcessorError Hybi13 :=
  if getOpcode p.basicHeader = .text ∧ (p.current.any fun m => !m.validator.complete) then
    .error .invalidUtf8
  else .ok { p with state := .ready }

/-- The end of the branch `HEADER_EXTENDED`: the message that the payload is for. A frame that goes
on with a message starts a new key, and its length is added to the size so far as a `size_t`. -/
def startPayload : Except ProcessorError Hybi13 :=
  let p := { p with
    state := .application
    bytesNeeded := getPayloadSize p.basicHeader p.extendedHeader }
  let op := getOpcode p.basicHeader
  let preparedKey := prepareMaskingKey (getMaskingKey p.basicHeader p.extendedHeader)
  if op.isControl then
    .ok { p with controlMsg := some { opcode := op, preparedKey }, currentMsg := .control }
  else
    match p.dataMsg with
    | none =>
        if p.maxMessageSize < p.bytesNeeded then .error .messageTooBig
        else .ok { p with dataMsg := some { opcode := op, preparedKey }, currentMsg := .data }
    | some m =>
        if p.maxMessageSize < (m.payload.length + p.bytesNeeded) % sizeMax then
          .error .messageTooBig
        else .ok { p with dataMsg := some { m with preparedKey }, currentMsg := .data }

/-- The condition of the loop of `consume`. -/
def wantsBytes (s : Hybi13 × List UInt8) : Bool :=
  s.1.state ≠ .ready && s.1.state ≠ .fatalError && (!s.2.isEmpty || s.1.bytesNeeded = 0)

/-- The body of the loop of `consume`. -/
def consumePass (s : Hybi13 × List UInt8) : Except ProcessorError (Hybi13 × List UInt8) :=
  let (p, buf) := s
  match p.state with
  | .headerBasic =>
      let (p, buf) := p.copyBasicHeaderBytes buf
      if 0 < p.bytesNeeded then .ok (p, buf)
      else match validateIncomingBasicHeader p.basicHeader p.server p.dataMsg.isNone with
        | some ec => .error ec
        | none =>
            .ok ({ p with
              state := .headerExtended
              cursor := 0
              bytesNeeded := getHeaderLen p.basicHeader - basicHeaderLength }, buf)
  | .headerExtended =>
      let (p, buf) := p.copyExtendedHeaderBytes buf
      if 0 < p.bytesNeeded then .ok (p, buf)
      else match validateIncomingExtendedHeader p.basicHeader p.extendedHeader with
        | some ec => .error ec
        | none => p.startPayload.map fun p => (p, buf)
  | .extension => .ok ({ p with state := .application }, buf)
  | .application =>
      let bytesToProcess := min p.bytesNeeded buf.length
      (if 0 < bytesToProcess then p.processPayloadBytes (buf.take bytesToProcess)
        else .ok p).bind fun p =>
          let buf := buf.drop bytesToProcess
          if 0 < p.bytesNeeded then .ok (p, buf)
          else if getFin p.basicHeader then p.finalizeMessage.map fun p => (p, buf)
          else .ok (p.resetHeaders, buf)
  | .ready | .fatalError => .error .general

/-- More passes than a buffer can take. -/
def passes (length : ℕ) : ℕ := (length + 1) * 4

/-- `consume`, with the bytes it has left. -/
def consume (buf : List UInt8) : Except ProcessorError (Hybi13 × List UInt8) :=
  WhileLoop.run wantsBytes consumePass (passes buf.length) (p, buf)

/-- `ready`. -/
def isReady : Bool := p.state = .ready

/-- `get_message`. There is a message when one is ready. -/
def getMessage : Option Incoming × Hybi13 :=
  if p.isReady then
    match p.current with
    | none => (none, p.resetHeaders)
    | some m =>
        let p := p.setCurrent none
        let p := if m.opcode.isControl then { p with controlMsg := none }
          else { p with dataMsg := none }
        (some ⟨m.opcode, m.payload⟩, p.resetHeaders)
  else (none, p)

/-- The loop of `handle_read_frame`: the messages that it gets from the processor, and how it
ends. Every pass with bytes left reads at least one of them. -/
def readMessages : ℕ → Hybi13 → List UInt8 → List (Option Incoming) × Except ProcessorError Hybi13
  | 0, p, _ => ([], .ok p)
  | fuel + 1, p, buf =>
      if buf.isEmpty then ([], .ok p)
      else match p.consume buf with
        | .error ec => ([], .error ec)
        | .ok (p, rest) =>
            if p.isReady then
              let (msg, p) := p.getMessage
              let (msgs, result) := readMessages fuel p rest
              (msg :: msgs, result)
            else readMessages fuel p rest

/-- One read of the transport after the other, until one fails. -/
def readParts (p : Hybi13) :
    List (List UInt8) → List (Option Incoming) × Except ProcessorError Hybi13
  | [] => ([], .ok p)
  | part :: parts =>
      match p.readMessages part.length part with
      | (msgs, .error ec) => (msgs, .error ec)
      | (msgs, .ok p) =>
          let (msgs', result) := p.readParts parts
          (msgs ++ msgs', result)

end Hybi13

/-- A message of which the frame is written: `message` after `prepare_data_frame` or
`prepare_control`. -/
structure Prepared where
  header : List UInt8
  payload : List UInt8
  opcode : Opcode
  deriving DecidableEq

namespace Hybi13

variable (p : Hybi13)

/-- The header and the payload of a frame; `key` is what the generator of random numbers returns. -/
def frameOf (op : Opcode) (fin : Bool) (payload : List UInt8) (key : MaskingKey) : Prepared where
  header :=
    prepareHeader (.ofOpcode op payload.length fin (!p.server))
      (if p.server then .ofSize payload.length else .ofKey payload.length key)
  payload := if p.server then payload else byteMask key 0 payload
  opcode := op

/-- `prepare_data_frame`. -/
def prepareDataFrame (op : Opcode) (fin : Bool) (payload : List UInt8) (key : MaskingKey) :
    Except ProcessorError Prepared :=
  if op.isControl then .error .invalidOpcode
  else if op = .text ∧ validate payload = false then .error .invalidPayload
  else .ok (p.frameOf op fin payload key)

/-- `prepare_control`. -/
def prepareControl (op : Opcode) (payload : List UInt8) (key : MaskingKey) :
    Except ProcessorError Prepared :=
  if !op.isControl then .error .invalidOpcode
  else if payloadSizeBasic < payload.length then .error .controlTooBig
  else .ok (p.frameOf op true payload key)

end Hybi13

end BrowCast.WebSocket
