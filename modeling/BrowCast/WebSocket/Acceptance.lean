import BrowCast.WebSocket.Frames

/-! # Which frames are accepted

Frames come in the order in which a peer may send them: a message whole or in pieces, and control
frames anywhere between these. The processor reads such a frame with the message that it completes,
and no other frame without an error. -/

namespace BrowCast.WebSocket

open StagedReader

/-- The encoding of characters. -/
def IsUtf8 (s : List UInt8) : Prop := ∃ cs, s = Utf8.encode cs

/-- What can be continued to one. -/
def BeginsUtf8 (s : List UInt8) : Prop := ∃ more, IsUtf8 (s ++ more)

/-- Which frames are accepted after the pieces of a message, the message that one hands over, and
the pieces after it. A text in one frame is checked to its end, one in pieces only as long as it can
be continued; the length of a message is checked as a `size_t`. -/
inductive Accepts (maxMessageSize : ℕ) :
    Option Incoming → Frame → Option Incoming → Option Incoming → Prop
  | control {o f} (hop : f.op = .close ∨ f.op = .ping ∨ f.op = .pong) (hfin : f.fin = true)
      (hsize : f.payload.length ≤ payloadSizeBasic) :
      Accepts maxMessageSize o f (some ⟨f.op, f.payload⟩) o
  | whole {f} (hop : f.op = .text ∨ f.op = .binary) (hfin : f.fin = true)
      (hsize : f.payload.length ≤ maxMessageSize) (htext : f.op = .text → IsUtf8 f.payload) :
      Accepts maxMessageSize none f (some ⟨f.op, f.payload⟩) none
  | first {f} (hop : f.op = .text ∨ f.op = .binary) (hfin : f.fin = false)
      (hsize : f.payload.length ≤ maxMessageSize) (htext : f.op = .text → BeginsUtf8 f.payload) :
      Accepts maxMessageSize none f none (some ⟨f.op, f.payload⟩)
  | more {m f} (hop : f.op = .continuation) (hfin : f.fin = false)
      (hsize : (m.payload.length + f.payload.length) % sizeMax ≤ maxMessageSize)
      (htext : m.opcode = .text → BeginsUtf8 (m.payload ++ f.payload)) :
      Accepts maxMessageSize (some m) f none (some ⟨m.opcode, m.payload ++ f.payload⟩)
  | last {m f} (hop : f.op = .continuation) (hfin : f.fin = true)
      (hsize : (m.payload.length + f.payload.length) % sizeMax ≤ maxMessageSize)
      (htext : m.opcode = .text → BeginsUtf8 (m.payload ++ f.payload)) :
      Accepts maxMessageSize (some m) f (some ⟨m.opcode, m.payload ++ f.payload⟩) none

/-- One frame after the other. -/
inductive AcceptsAll (maxMessageSize : ℕ) :
    Option Incoming → List Frame → List Incoming → Option Incoming → Prop
  | nil {o} : AcceptsAll maxMessageSize o [] [] o
  | cons {o o' o'' f fs d ms} (hfirst : Accepts maxMessageSize o f d o')
      (hrest : AcceptsAll maxMessageSize o' fs ms o'') :
      AcceptsAll maxMessageSize o (f :: fs) (d.toList ++ ms) o''

/-- The validator accepts exactly UTF-8. -/
theorem isUtf8_iff (s : List UInt8) : IsUtf8 s ↔ validate s = true := (validate_iff s).symm

/-- A text can be continued as long as the validator refuses no byte of it. -/
theorem beginsUtf8_iff (s : List UInt8) :
    BeginsUtf8 s ↔ (Validator.decode {} s).2 = true := by
  rw [Validator.decode_iff {} (.inl rfl)]
  exact exists_congr fun more => (accepts_iff (s ++ more)).symm

/-- A check passes when its condition is false and the later ones pass. -/
theorem ite_some_eq_none {α : Type*} {c : Prop} [Decidable c] {a : α} {x : Option α} :
    (if c then some a else x) = none ↔ ¬ c ∧ x = none := by
  split_ifs with hc <;> simp [hc]

/-- No opcode of four bits is invalid. -/
theorem Opcode.invalid_eq_false (op : Opcode) : op.invalid = false := by cases op <;> rfl

/-- **The checks of a basic header**, for a frame of the peer. -/
theorem validate_header (f : Frame) (server newMsg : Bool) :
    Hybi13.validateIncomingBasicHeader (f.header server) server newMsg = none ↔
      f.op.reserved = false ∧
        (f.op.isControl = true → f.payload.length ≤ payloadSizeBasic ∧ f.fin = true) ∧
        (f.op.isControl = false → (f.op = .continuation ↔ newMsg = false)) := by
  have hsize : payloadSizeBasic < (basicValue f.payload.length).toNat ↔
      ¬ f.payload.length ≤ payloadSizeBasic := by
    unfold payloadSizeBasic
    obtain ⟨hsmall, hvalue, -⟩ | ⟨hmiddle, hvalue, -⟩ | ⟨hlarge, hvalue, -⟩ :=
      basicValue_cases f.payload.length
    · omega
    · rw [hvalue]
      exact iff_of_true (by decide) (by omega)
    · rw [hvalue]
      exact iff_of_true (by decide) (by omega)
  obtain ⟨hrsv1, hrsv2, hrsv3⟩ := getRsv_ofOpcode f.op f.payload.length f.fin server
  unfold Hybi13.validateIncomingBasicHeader Frame.header
  simp only [getOpcode_ofOpcode, getBasicSize_ofOpcode, getFin_ofOpcode, getMasked_ofOpcode, hrsv1,
    hrsv2, hrsv3, hsize, ite_some_eq_none, Opcode.invalid_eq_false]
  by_cases hcont : f.op = .continuation
  · have hdata : Opcode.continuation.isControl = false := rfl
    rw [hcont]
    cases newMsg <;> cases server <;> simp [hdata]
  · cases hcontrol : f.op.isControl <;> cases newMsg <;> cases server <;>
      simp [hcont, and_assoc, and_left_comm, and_comm]

namespace MsgMetadata

variable {m : MsgMetadata} {f : Frame} {server : Bool}

/-- The key of a frame is at its first byte. -/
def KeyOf (m : MsgMetadata) (f : Frame) (server : Bool) : Prop :=
  m.preparedKey = prepareMaskingKey (if server then f.key else 0)

/-- The payload of a frame is the one that was written. -/
theorem KeyOf.unmask (h : m.KeyOf f server) : (m.unmask server (f.wire server)).1 = f.payload := by
  unfold MsgMetadata.unmask Frame.wire
  rw [h]
  cases server with
  | false => rfl
  | true =>
      exact ((isPrepared_prepareMaskingKey f.key).unmask (by decide) _).1.trans
        (byteMask_byteMask ..)

/-- The message with the payload of a frame. -/
theorem KeyOf.extend (h : m.KeyOf f server) : ∃ key, m.extend server (f.wire server) =
    { m with
      preparedKey := key
      payload := m.payload ++ f.payload
      validator := (m.check f.payload).1 } :=
  ⟨_, by rw [MsgMetadata.extend, h.unmask]⟩

end MsgMetadata

namespace Hybi13

variable {p q : Hybi13} {o : Option Incoming} {m : MsgMetadata} {f : Frame} {c : CurrentMsg}

/-- The processor `q` in front of the payload of a frame, for the message `m`; it was `p` before the
frame. -/
structure Expects (p q : Hybi13) (f : Frame) (m : MsgMetadata) (c : CurrentMsg) : Prop where
  state : q.state = .application
  basicHeader : q.basicHeader = f.header p.server
  current : q.current = some m
  currentMsg : q.currentMsg = c
  key : m.KeyOf f p.server
  dataMsg : c = .control → q.dataMsg = p.dataMsg
  server : q.server = p.server
  maxMessageSize : q.maxMessageSize = p.maxMessageSize

/-- What the payload of a frame leads to. -/
theorem Expects.withFrame (h : p.Expects q f m c) : ∃ key, q.withFrame f =
    if (m.check f.payload).2 = false then .error .invalidUtf8
    else if f.fin = false then
      .ok (q.withPayload ⟨m.opcode, m.payload ++ f.payload, key, (m.check f.payload).1⟩
        f.payload.length).resetHeaders
    else if f.op = .text ∧ (m.check f.payload).1.complete = false then .error .invalidUtf8
    else .ok { q.withPayload ⟨m.opcode, m.payload ++ f.payload, key, (m.check f.payload).1⟩
        f.payload.length with state := .ready } := by
  obtain ⟨key, hextend⟩ := h.key.extend
  refine ⟨key, ?_⟩
  unfold Hybi13.withFrame MsgMetadata.read
  rw [h.current, h.server]
  simp only
  rw [h.key.unmask, hextend, Frame.length_wire]
  cases hcheck : (m.check f.payload).2 with
  | false => rfl
  | true =>
      simp only [Except.bind, finish, state_withPayload, h.state, basicHeader_withPayload,
        h.basicHeader, Frame.header, getFin_ofOpcode, finalizeMessage, getOpcode_ofOpcode,
        current_withPayload, Option.any_some, Bool.not_eq_true', if_true]
      cases f.fin <;> simp

/-! ### In front of the payload -/

section Before

variable (h : p.Between o)
  (hvalid : validateIncomingBasicHeader (f.header p.server) p.server p.dataMsg.isNone = none)

include hvalid

/-- A control frame is expected beside the message in pieces. -/
theorem beforePayload_control (hop : f.op.isControl = true) : ∃ q, p.beforePayload f = .ok q ∧
    p.Expects q f
      { opcode := f.op, preparedKey := prepareMaskingKey (if p.server then f.key else 0) }
      .control := by
  have hkey := getMaskingKey_readBack f.op f.fin p.server f.key f.payload.length
  unfold beforePayload
  rw [hvalid]
  simp only [checked, startPayload, afterExtended, afterBasic, Frame.header, Frame.extension,
    getOpcode_ofOpcode, hop, if_true, hkey]
  exact ⟨_, rfl, rfl, rfl, rfl, rfl, rfl, fun _ => rfl, rfl, rfl⟩

/-- The first frame of a message is expected unless it is too big. -/
theorem beforePayload_new (hop : f.op.isControl = false) (hdata : p.dataMsg = none) :
    ∃ q, p.beforePayload f =
        (if p.maxMessageSize < f.payload.length then .error .messageTooBig else .ok q) ∧
      p.Expects q f
        { opcode := f.op, preparedKey := prepareMaskingKey (if p.server then f.key else 0) }
        .data := by
  have hkey := getMaskingKey_readBack f.op f.fin p.server f.key f.payload.length
  have hsize := getPayloadSize_readBack f.op f.fin p.server f.key f.length_lt
  unfold beforePayload
  rw [hvalid]
  simp only [checked, startPayload, afterExtended, afterBasic, Frame.header, Frame.extension,
    getOpcode_ofOpcode, hop, hkey, hsize, hdata]
  exact ⟨_, rfl, rfl, rfl, rfl, rfl, rfl, fun hc => absurd hc (by decide), rfl, rfl⟩

/-- A further frame is expected unless it makes the message too big. -/
theorem beforePayload_more (hop : f.op.isControl = false) (hdata : p.dataMsg = some m) :
    ∃ q, p.beforePayload f =
        (if p.maxMessageSize < (m.payload.length + f.payload.length) % sizeMax then
          .error .messageTooBig else .ok q) ∧
      p.Expects q f
        { m with preparedKey := prepareMaskingKey (if p.server then f.key else 0) } .data := by
  have hkey := getMaskingKey_readBack f.op f.fin p.server f.key f.payload.length
  have hsize := getPayloadSize_readBack f.op f.fin p.server f.key f.length_lt
  unfold beforePayload
  rw [hvalid]
  simp only [checked, startPayload, afterExtended, afterBasic, Frame.header, Frame.extension,
    getOpcode_ofOpcode, hop, hkey, hsize, hdata]
  exact ⟨_, rfl, rfl, rfl, rfl, rfl, rfl, fun hc => absurd hc (by decide), rfl, rfl⟩

end Before

end Hybi13

namespace Hybi13

variable {p q r : Hybi13} {o o' : Option Incoming} {m : MsgMetadata} {f : Frame} {c : CurrentMsg}

/-! ### After the payload -/

/-- The processor `q` after some frames; it was `p` before them. -/
structure Follows (p q : Hybi13) (o : Option Incoming) : Prop where
  between : q.Between o
  server : q.server = p.server
  maxMessageSize : q.maxMessageSize = p.maxMessageSize

/-- A frame has led to `q`: it has completed the message `d`, or none. -/
def Yields (p q : Hybi13) (o : Option Incoming) : Option Incoming → Prop
  | none => p.Follows q o
  | some d => q.isReady = true ∧ q.getMessage.1 = some d ∧ p.Follows q.getMessage.2 o

/-- After a frame the processor is between two frames. -/
theorem between_resetHeaders (h : Option.Rel MsgMetadata.IsOpen q.dataMsg o) :
    q.resetHeaders.Between o := ⟨rfl, rfl, rfl, h⟩

/-- A message that is ready is taken from its place. -/
theorem getMessage_of_current (hready : q.isReady = true) (hm : q.current = some m) :
    q.getMessage = (some ⟨m.opcode, m.payload⟩,
      (if m.opcode.isControl then { q.setCurrent none with controlMsg := none }
        else { q.setCurrent none with dataMsg := none }).resetHeaders) := by
  unfold getMessage
  rw [if_pos hready, hm]

/-- The message whose payload was read is the current one. -/
theorem current_ready (n : ℕ) :
    ({ q.withPayload m n with state := .ready } : Hybi13).current = some m := by
  cases hcurrent : q.currentMsg <;> simp [withPayload, setCurrent, current, hcurrent]

/-- A frame that does not end its message leaves it in pieces. -/
theorem Expects.yields_piece {m' : MsgMetadata} (h : p.Expects q f m' .data) {d : Incoming} (n : ℕ)
    (hm : m.IsOpen d) : p.Yields (q.withPayload m n).resetHeaders (some d) none := by
  have hdata : (q.withPayload m n).resetHeaders.dataMsg = some m := by
    simp only [resetHeaders, withPayload, setCurrent, h.currentMsg]
  refine ⟨⟨rfl, rfl, rfl, hdata ▸ .some hm⟩, ?_, ?_⟩
  · rw [← h.server]
    simp only [resetHeaders, withPayload, setCurrent, h.currentMsg]
  · rw [← h.maxMessageSize]
    simp only [resetHeaders, withPayload, setCurrent, h.currentMsg]

/-- One that does completes it. -/
theorem Expects.yields_data {m' : MsgMetadata} (h : p.Expects q f m' .data) (n : ℕ)
    (hop : m.opcode.isControl = false) : p.Yields { q.withPayload m n with state := .ready } none
      (some ⟨m.opcode, m.payload⟩) := by
  have hmessage := getMessage_of_current
    (q := { q.withPayload m n with state := .ready }) rfl (current_ready n)
  rw [hop] at hmessage
  simp only [withPayload, setCurrent, h.currentMsg] at hmessage
  refine ⟨rfl, ?_, ?_⟩
  · simp only [withPayload, setCurrent, h.currentMsg]
    rw [hmessage]
  · simp only [withPayload, setCurrent, h.currentMsg]
    rw [hmessage]
    exact ⟨between_resetHeaders .none, h.server, h.maxMessageSize⟩

/-- A control frame completes its own message and leaves the other in pieces. -/
theorem Expects.yields_control {m' : MsgMetadata} (h : p.Expects q f m' .control) (n : ℕ)
    (hop : m.opcode.isControl = true) (hbetween : p.Between o) :
    p.Yields { q.withPayload m n with state := .ready } o (some ⟨m.opcode, m.payload⟩) := by
  have hmessage := getMessage_of_current
    (q := { q.withPayload m n with state := .ready }) rfl (current_ready n)
  rw [hop] at hmessage
  simp only [withPayload, setCurrent, h.currentMsg] at hmessage
  refine ⟨rfl, ?_, ?_⟩
  · simp only [withPayload, setCurrent, h.currentMsg]
    rw [hmessage]
  · simp only [withPayload, setCurrent, h.currentMsg]
    rw [hmessage]
    exact ⟨between_resetHeaders ((h.dataMsg rfl).symm ▸ hbetween.pieces), h.server,
      h.maxMessageSize⟩

end Hybi13

/-! ### One frame -/

namespace MsgMetadata.IsOpen

variable {m : MsgMetadata} {d : Incoming}

/-- A message in pieces is no control message. -/
theorem isControl (h : m.IsOpen d) :
    d.opcode.isControl = false := by
  obtain ⟨-, -, htext | hbinary, -⟩ := h
  · rw [htext]; rfl
  · rw [hbinary]; rfl

/-- The validator of a text goes on where it is. -/
theorem check (h : m.IsOpen d) (bytes : List UInt8) :
    m.check bytes = if d.opcode = .text then Validator.decode {} (d.payload ++ bytes)
      else (m.validator, true) := by
  obtain ⟨hop, -, -, hdecode⟩ := h
  unfold MsgMetadata.check
  rw [hop]
  split_ifs with htext
  · rw [Validator.decode_append, hdecode htext, if_pos rfl]
  · rfl

end MsgMetadata.IsOpen

namespace Hybi13

variable {p q r : Hybi13} {o o' : Option Incoming} {m : MsgMetadata} {f : Frame} {d : Incoming}

/-- The payload of a data frame is not refused: a text that it belongs to can be continued, and one
that it is all of ends after a character. -/
def FitsText (d : Incoming) (f : Frame) : Prop :=
  (d.opcode = .text → BeginsUtf8 (d.payload ++ f.payload)) ∧
    (f.fin = true → f.op = .text → IsUtf8 (d.payload ++ f.payload))

/-- What a data frame leads to. -/
def YieldsData (p r : Hybi13) (d : Incoming) (f : Frame) : Prop :=
  if f.fin then p.Yields r none (some ⟨d.opcode, d.payload ++ f.payload⟩)
  else p.Yields r (some ⟨d.opcode, d.payload ++ f.payload⟩) none

/-- **The payload of a data frame.** -/
theorem Expects.withFrame_ok (h : p.Expects q f m .data) (hd : m.IsOpen d)
    (htext : f.op = .text → d.opcode = .text) (hfits : FitsText d f) :
    ∃ r, q.withFrame f = .ok r ∧ p.YieldsData r d f := by
  obtain ⟨key, hframe⟩ := h.withFrame
  have hcheck := hd.check f.payload
  have hvalid : (m.check f.payload).2 = true := by
    rw [hcheck]
    split_ifs with hop
    · exact (beginsUtf8_iff _).mp (hfits.1 hop)
    · rfl
  have hopen : MsgMetadata.IsOpen
      ⟨d.opcode, d.payload ++ f.payload, key, (m.check f.payload).1⟩
        ⟨d.opcode, d.payload ++ f.payload⟩ := by
    refine ⟨rfl, rfl, hd.2.2.1, fun hop => ?_⟩
    rw [← hvalid, hcheck, if_pos hop]
  rw [hframe, hd.1, hd.2.1, if_neg (by rw [hvalid]; decide)]
  unfold YieldsData
  cases hfin : f.fin with
  | false => exact ⟨_, rfl, h.yields_piece _ hopen⟩
  | true =>
      have hends : ¬ (f.op = .text ∧ (m.check f.payload).1.complete = false) := by
        rintro ⟨hop, hcomplete⟩
        have hutf8 := (isUtf8_iff _).mp (hfits.2 hfin hop)
        rw [hcheck, if_pos (htext hop)] at hcomplete
        rw [validate, hcomplete, Bool.and_false] at hutf8
        exact nomatch hutf8
      rw [if_neg (by decide), if_neg hends]
      exact ⟨_, rfl, h.yields_data f.payload.length hopen.isControl⟩

/-- A payload that is read fits its text. -/
theorem Expects.fitsText (h : p.Expects q f m .data) (hd : m.IsOpen d)
    (htext : f.op = .text → d.opcode = .text) (hok : q.withFrame f = .ok r) : FitsText d f := by
  obtain ⟨key, hframe⟩ := h.withFrame
  have hcheck := hd.check f.payload
  rw [hframe] at hok
  split_ifs at hok with hvalid hfin hends
  · refine ⟨fun hop => (beginsUtf8_iff _).mpr ?_, fun hfin' => ?_⟩
    · rw [hcheck, if_pos hop] at hvalid
      exact Bool.not_eq_false _ ▸ hvalid
    · rw [hfin] at hfin'
      exact nomatch hfin'
  · refine ⟨fun hop => (beginsUtf8_iff _).mpr ?_, fun _ hop => (isUtf8_iff _).mpr ?_⟩
    · rw [hcheck, if_pos hop] at hvalid
      exact Bool.not_eq_false _ ▸ hvalid
    · rw [hcheck, if_pos (htext hop)] at hvalid hends
      rw [validate, Bool.and_eq_true]
      exact ⟨Bool.not_eq_false _ ▸ hvalid, by
        by_contra hcomplete
        exact hends ⟨hop, Bool.eq_false_iff.mpr hcomplete⟩⟩

/-- A frame is read. -/
def readFrame (p : Hybi13) (f : Frame) : Except ProcessorError Hybi13 :=
  (p.beforePayload f).bind (withFrame · f)

/-- **A control frame.** -/
theorem Between.readFrame_control (h : p.Between o) (hop : f.op.isControl = true)
    (hvalid : validateIncomingBasicHeader (f.header p.server) p.server p.dataMsg.isNone = none) :
    ∃ r, p.readFrame f = .ok r ∧ p.Yields r o (some ⟨f.op, f.payload⟩) := by
  obtain ⟨q, hbefore, hq⟩ := beforePayload_control hvalid hop
  obtain ⟨key, hframe⟩ := hq.withFrame
  have hfin := (((validate_header f _ _).mp hvalid).2.1 hop).2
  have hne : f.op ≠ .text := by
    rintro htext
    rw [htext] at hop
    exact nomatch hop
  have hcheck : ∀ m : MsgMetadata, m.opcode = f.op → m.check f.payload = (m.validator, true) :=
    fun m hm => if_neg (hm ▸ hne)
  rw [hcheck _ rfl, hfin, if_neg (by simp), if_neg (by decide),
    if_neg fun hboth => hne hboth.1] at hframe
  rw [readFrame, hbefore]
  exact ⟨_, hframe, hq.yields_control _ hop h⟩

end Hybi13

/-- The control opcodes that are defined. -/
theorem Opcode.control_iff (op : Opcode) : op.reserved = false ∧ op.isControl = true ↔
    op = .close ∨ op = .ping ∨ op = .pong := by
  cases op <;> decide

/-- The data opcodes that are defined. -/
theorem Opcode.data_iff (op : Opcode) : op.reserved = false ∧ op.isControl = false ↔
    op = .continuation ∨ op = .text ∨ op = .binary := by
  cases op <;> decide

namespace Hybi13

variable {p q r : Hybi13} {o o' d : Option Incoming} {m : MsgMetadata} {f : Frame}

/-- Without pieces there is no message. -/
theorem Between.dataMsg_none (h : p.Between none) : p.dataMsg = none := by
  have hpieces := h.pieces
  cases hdata : p.dataMsg with
  | none => rfl
  | some m =>
      rw [hdata] at hpieces
      exact nomatch hpieces

/-- With pieces there is one. -/
theorem Between.dataMsg_some {i : Incoming} (h : p.Between (some i)) :
    ∃ m, p.dataMsg = some m ∧ m.IsOpen i := by
  have hpieces := h.pieces
  cases hdata : p.dataMsg with
  | none =>
      rw [hdata] at hpieces
      exact nomatch hpieces
  | some m =>
      rw [hdata] at hpieces
      cases hpieces with
      | some hm => exact ⟨m, rfl, hm⟩

/-- The message that a data frame begins, without any pieces yet. -/
theorem isOpen_new {op : Opcode} (hop : op = .text ∨ op = .binary) (preparedKey : BitVec 64) :
    MsgMetadata.IsOpen { opcode := op, preparedKey } ⟨op, []⟩ :=
  ⟨rfl, rfl, hop, fun _ => rfl⟩

/-- **The first frame of a message.** -/
theorem Between.readFrame_new (h : p.Between none) (hop : f.op = .text ∨ f.op = .binary) :
    (p.maxMessageSize < f.payload.length → p.readFrame f = .error .messageTooBig) ∧
      (f.payload.length ≤ p.maxMessageSize → FitsText ⟨f.op, []⟩ f →
        ∃ r, p.readFrame f = .ok r ∧ p.YieldsData r ⟨f.op, []⟩ f) ∧
      ∀ r, p.readFrame f = .ok r → FitsText ⟨f.op, []⟩ f := by
  have hdata := h.dataMsg_none
  obtain ⟨hreserved, hcontrol⟩ := (Opcode.data_iff f.op).mpr (.inr hop)
  have hcont : f.op ≠ .continuation := by
    rcases hop with hop | hop
    · rw [hop]; decide
    · rw [hop]; decide
  have hvalid : validateIncomingBasicHeader (f.header p.server) p.server p.dataMsg.isNone = none :=
    (validate_header f _ _).mpr ⟨hreserved, by simp [hcontrol], by simp [hcont, hdata]⟩
  obtain ⟨q, hbefore, hq⟩ := beforePayload_new hvalid hcontrol hdata
  have hopen := isOpen_new hop (prepareMaskingKey (if p.server then f.key else 0))
  unfold readFrame
  rw [hbefore]
  refine ⟨fun hlt => ?_, fun hle hfits => ?_, fun r hok => ?_⟩
  · rw [if_pos hlt]
    rfl
  · rw [if_neg (by omega)]
    exact hq.withFrame_ok hopen id hfits
  · split_ifs at hok with hlt
    · exact nomatch hok
    · exact hq.fitsText hopen id hok

/-- **A frame that goes on with one.** -/
theorem Between.readFrame_more {i : Incoming} (h : p.Between (some i))
    (hop : f.op = .continuation) :
    (p.maxMessageSize < (i.payload.length + f.payload.length) % sizeMax →
        p.readFrame f = .error .messageTooBig) ∧
      ((i.payload.length + f.payload.length) % sizeMax ≤ p.maxMessageSize → FitsText i f →
        ∃ r, p.readFrame f = .ok r ∧ p.YieldsData r i f) ∧
      ∀ r, p.readFrame f = .ok r → FitsText i f := by
  obtain ⟨m, hdata, hm⟩ := h.dataMsg_some
  obtain ⟨hreserved, hcontrol⟩ := (Opcode.data_iff f.op).mpr (.inl hop)
  have hvalid : validateIncomingBasicHeader (f.header p.server) p.server p.dataMsg.isNone = none :=
    (validate_header f _ _).mpr ⟨hreserved, by simp [hcontrol], by simp [hop, hdata]⟩
  obtain ⟨q, hbefore, hq⟩ := beforePayload_more hvalid hcontrol hdata
  have hopen : MsgMetadata.IsOpen
      { m with preparedKey := prepareMaskingKey (if p.server then f.key else 0) } i := hm
  have htext : f.op = .text → i.opcode = .text := fun htext =>
    nomatch hop.symm.trans htext
  rw [hm.2.1] at hbefore
  unfold readFrame
  rw [hbefore]
  refine ⟨fun hlt => ?_, fun hle hfits => ?_, fun r hok => ?_⟩
  · rw [if_pos hlt]
    rfl
  · rw [if_neg (by omega)]
    exact hq.withFrame_ok hopen htext hfits
  · split_ifs at hok with hlt
    · exact nomatch hok
    · exact hq.fitsText hopen htext hok

end Hybi13

namespace Hybi13

variable {p r : Hybi13} {o o' d : Option Incoming} {f : Frame}

/-- The basic header of a frame that is accepted passes the checks. -/
theorem validate_of_control (hop : f.op = .close ∨ f.op = .ping ∨ f.op = .pong)
    (hfin : f.fin = true) (hsize : f.payload.length ≤ payloadSizeBasic) (newMsg : Bool) :
    validateIncomingBasicHeader (f.header p.server) p.server newMsg = none := by
  obtain ⟨hreserved, hcontrol⟩ := (Opcode.control_iff f.op).mpr hop
  exact (validate_header f _ _).mpr ⟨hreserved, fun _ => ⟨hsize, hfin⟩, by simp [hcontrol]⟩

/-- **A frame that may come is read**, with the message that it completes. -/
theorem Between.readFrame_ok (h : p.Between o) (haccepts : Accepts p.maxMessageSize o f d o') :
    ∃ r, p.readFrame f = .ok r ∧ p.Yields r o' d := by
  cases haccepts with
  | control hop hfin hsize =>
      have hcontrol := ((Opcode.control_iff f.op).mpr hop).2
      exact h.readFrame_control hcontrol (validate_of_control hop hfin hsize _)
  | whole hop hfin hsize htext =>
      have hfits : FitsText ⟨f.op, []⟩ f :=
        ⟨fun ht => ⟨[], by rw [List.append_nil]; exact htext ht⟩, fun _ ht => htext ht⟩
      obtain ⟨r, hr, hyields⟩ := (h.readFrame_new hop).2.1 hsize hfits
      rw [YieldsData, if_pos hfin] at hyields
      exact ⟨r, hr, hyields⟩
  | first hop hfin hsize htext =>
      have hfits : FitsText ⟨f.op, []⟩ f :=
        ⟨htext, fun hfin' => nomatch hfin.symm.trans hfin'⟩
      obtain ⟨r, hr, hyields⟩ := (h.readFrame_new hop).2.1 hsize hfits
      rw [YieldsData, if_neg (by rw [hfin]; decide)] at hyields
      exact ⟨r, hr, hyields⟩
  | more hop hfin hsize htext =>
      have hfits : FitsText _ f := ⟨htext, fun hfin' => nomatch hfin.symm.trans hfin'⟩
      obtain ⟨r, hr, hyields⟩ := (h.readFrame_more hop).2.1 hsize hfits
      rw [YieldsData, if_neg (by rw [hfin]; decide)] at hyields
      exact ⟨r, hr, hyields⟩
  | last hop hfin hsize htext =>
      have hfits : FitsText _ f := ⟨htext, fun _ ht => nomatch hop.symm.trans ht⟩
      obtain ⟨r, hr, hyields⟩ := (h.readFrame_more hop).2.1 hsize hfits
      rw [YieldsData, if_pos hfin] at hyields
      exact ⟨r, hr, hyields⟩

/-- A frame that is read has passed the check of its basic header. -/
theorem validate_of_readFrame (hok : p.readFrame f = .ok r) :
    validateIncomingBasicHeader (f.header p.server) p.server p.dataMsg.isNone = none := by
  unfold readFrame beforePayload at hok
  cases hvalid : validateIncomingBasicHeader (f.header p.server) p.server p.dataMsg.isNone with
  | none => rfl
  | some ec =>
      rw [hvalid] at hok
      exact nomatch hok

/-- **Only such a frame is read.** -/
theorem Between.accepts_of_readFrame (h : p.Between o) (hok : p.readFrame f = .ok r) :
    ∃ d o', Accepts p.maxMessageSize o f d o' := by
  obtain ⟨hreserved, hcontrol, hdata⟩ := (validate_header f _ _).mp (validate_of_readFrame hok)
  cases hop : f.op.isControl with
  | true =>
      obtain ⟨hsize, hfin⟩ := hcontrol hop
      exact ⟨_, _, .control ((Opcode.control_iff f.op).mp ⟨hreserved, hop⟩) hfin hsize⟩
  | false =>
      have hclass := (Opcode.data_iff f.op).mp ⟨hreserved, hop⟩
      cases o with
      | none =>
          have hcont : f.op ≠ .continuation := by
            intro hcont
            have hsome := (hdata hop).mp hcont
            rw [h.dataMsg_none] at hsome
            exact nomatch hsome
          have hkind := hclass.resolve_left hcont
          obtain ⟨hbig, -, hfits⟩ := h.readFrame_new hkind
          have hsize : f.payload.length ≤ p.maxMessageSize := by
            by_contra hlt
            exact nomatch (hbig (by omega)).symm.trans hok
          obtain ⟨hbegins, hwhole⟩ := hfits r hok
          cases hfin : f.fin with
          | false => exact ⟨_, _, .first hkind hfin hsize hbegins⟩
          | true => exact ⟨_, _, .whole hkind hfin hsize (hwhole hfin)⟩
      | some i =>
          obtain ⟨m, hm, -⟩ := h.dataMsg_some
          have hcont : f.op = .continuation := (hdata hop).mpr (by rw [hm]; rfl)
          obtain ⟨hbig, -, hfits⟩ := h.readFrame_more hcont
          have hsize : (i.payload.length + f.payload.length) % sizeMax ≤ p.maxMessageSize := by
            by_contra hlt
            exact nomatch (hbig (by omega)).symm.trans hok
          obtain ⟨hbegins, -⟩ := hfits r hok
          cases hfin : f.fin with
          | false => exact ⟨_, _, .more hcont hfin hsize hbegins⟩
          | true => exact ⟨_, _, .last hcont hfin hsize hbegins⟩

end Hybi13

end BrowCast.WebSocket
