import BrowCast.WebSocket.Headers

/-! # One frame

The processor reads a frame in three stages: its basic header, the rest of its header, its payload.
-/

namespace BrowCast.WebSocket

open StagedReader

/-- A frame: what its header says, the payload, and the key if it is masked. A length is a
`size_t`. -/
structure Frame where
  op : Opcode
  fin : Bool
  payload : List UInt8
  key : MaskingKey
  length_lt : payload.length < sizeMax

/-- The bytes of a frame as a server, or a client, writes them. -/
def Frame.bytes (server : Bool) (f : Frame) : List UInt8 :=
  let written := ({ server } : Hybi13).frameOf f.op f.fin f.payload f.key
  written.header ++ written.payload

/-- The pieces that the processor has of a message. -/
def MsgMetadata.IsOpen (m : MsgMetadata) (o : Incoming) : Prop :=
  m.opcode = o.opcode ∧ m.payload = o.payload ∧ (o.opcode = .text ∨ o.opcode = .binary) ∧
    (o.opcode = .text → Validator.decode {} o.payload = (m.validator, true))

/-- Between two frames, with the pieces of a message or none. -/
structure Hybi13.Between (p : Hybi13) (o : Option Incoming) : Prop where
  state : p.state = .headerBasic
  bytesNeeded : p.bytesNeeded = 2
  extendedHeader : p.extendedHeader = .zeros
  pieces : Option.Rel MsgMetadata.IsOpen p.dataMsg o

/-- The bytes of a frame: its header and its payload. -/
theorem Frame.bytes_eq (server : Bool) (f : Frame) : f.bytes server =
    [(BasicHeader.ofOpcode f.op f.payload.length f.fin (!server)).b0,
      (BasicHeader.ofOpcode f.op f.payload.length f.fin (!server)).b1] ++
      (lengthBytes f.payload.length ++ keyBytes (!server) f.key) ++
        if server then f.payload else byteMask f.key 0 f.payload := by
  rw [← prepareHeader_eq]
  cases server <;> rfl

namespace Hybi13

variable {p : Hybi13} {o : Option Incoming}

/-- Between two frames the processor is well formed. -/
theorem Between.wf (h : p.Between o) : p.Wf where
  reads := by simp [h.state]
  extended_length := by rw [h.extendedHeader]; rfl
  basic _ := h.bytesNeeded.le
  extended he := nomatch h.state.symm.trans he
  payload hp := by
    rcases hp with hp | hp
    · exact nomatch h.state.symm.trans hp
    · exact nomatch h.state.symm.trans hp

/-- Between two frames no message is ready. -/
theorem Between.not_ready (h : p.Between o) : p.isReady = false :=
  isReady_eq_false_iff.mpr (by simp [h.state])

/-- Between two frames the processor waits for bytes. -/
theorem Between.waits (h : p.Between o) : frameReader.Waits Wf p :=
  ⟨h.wf, h.not_ready, show 0 < p.bytesNeeded by rw [h.bytesNeeded]; decide⟩

/-! ## The stages of one frame -/

/-- The processor after a basic header. -/
def afterBasic (p : Hybi13) (h : BasicHeader) : Hybi13 :=
  { p with
    basicHeader := h
    state := .headerExtended
    cursor := 0
    bytesNeeded := getHeaderLen h - basicHeaderLength }

/-- The processor after an extended header. -/
def afterExtended (p : Hybi13) (e : ExtendedHeader) (cursor : ℕ) : Hybi13 :=
  { p with extendedHeader := e, cursor, bytesNeeded := 0 }

/-- What a check and the step after it lead to. -/
def checked (ec : Option ProcessorError) (next : Except ProcessorError Hybi13) :
    Except ProcessorError Hybi13 :=
  match ec with
  | some ec => .error ec
  | none => next

/-- **The basic header.** -/
theorem Between.reads_basic (h : p.Between o) (b c : UInt8) (rest : List UInt8) :
    frameReader.reads 2 p (b :: c :: rest) = frameReader.readsAfter 2
      (checked (validateIncomingBasicHeader ⟨b, c⟩ p.server p.dataMsg.isNone)
        (.ok (p.afterBasic ⟨b, c⟩))) rest := by
  have hlength : [b, c].length = frameReader.needed p := h.bytesNeeded.symm
  show frameReader.reads 2 p ([b, c] ++ rest) = _
  rw [frameReader_lawful.reads_stage h.wf h.not_ready hlength]
  show frameReader.readsAfter 2 ((p.absorb [b, c]).bind finish) rest = _
  congr 1
  unfold absorb
  rw [h.state]
  simp only [Except.bind, finish]
  rw [copyBasicHeaderBytes_both h.bytesNeeded]
  simp only [h.state]
  cases validateIncomingBasicHeader ⟨b, c⟩ p.server p.dataMsg.isNone <;> rfl

/-- So is the processor after a basic header. -/
theorem Between.wf_afterBasic (h : p.Between o) (header : BasicHeader) :
    (p.afterBasic header).Wf where
  reads := ⟨nofun, nofun⟩
  extended_length := h.wf.extended_length
  basic := nofun
  extended _ := Nat.zero_add _
  payload := by simp [afterBasic]

/-- **The extended header.** -/
theorem Between.reads_extended (h : p.Between o) (header : BasicHeader) {xs : List UInt8}
    (hlength : xs.length = getHeaderLen header - basicHeaderLength) (rest : List UInt8) :
    frameReader.reads 2 (p.afterBasic header) (xs ++ rest) = frameReader.readsAfter 2
      (checked (validateIncomingExtendedHeader header (ExtendedHeader.zeros.copyTo 0 xs))
        ((p.afterBasic header).afterExtended (ExtendedHeader.zeros.copyTo 0 xs)
          xs.length).startPayload) rest := by
  have hneeded : xs.length = frameReader.needed (p.afterBasic header) := hlength
  rw [frameReader_lawful.reads_stage (h.wf_afterBasic header) rfl hneeded]
  congr 1
  show ((p.afterBasic header).absorb xs).bind finish = _
  have habsorb : (p.afterBasic header).absorb xs =
      .ok ((p.afterBasic header).afterExtended (ExtendedHeader.zeros.copyTo 0 xs) xs.length) := by
    show Except.ok ((p.afterBasic header).copyExtendedHeaderBytes xs).1 = _
    have hle : xs.length ≤ (p.afterBasic header).bytesNeeded := hlength.le
    rw [copyExtendedHeaderBytes_of_le hle]
    simp only [afterBasic, afterExtended, h.extendedHeader, Nat.zero_add, hlength, Nat.sub_self]
  rw [habsorb]
  simp only [Except.bind, finish, afterBasic, afterExtended]
  cases validateIncomingExtendedHeader header (ExtendedHeader.zeros.copyTo 0 xs) <;> rfl

/-- **The payload.** -/
theorem Wf.reads_payload (hp : p.Wf) (hstate : p.state = .application) {m : MsgMetadata}
    (hm : p.current = some m) {xs : List UInt8} (hlength : xs.length = p.bytesNeeded)
    (rest : List UInt8) : frameReader.reads 2 p (xs ++ rest) = frameReader.readsAfter 2
      ((m.read (getMasked p.basicHeader) xs).bind fun m' =>
        (p.withPayload m' xs.length).finish) rest := by
  have hready : p.isReady = false := isReady_eq_false_iff.mpr (by simp [hstate])
  have hneeded : xs.length = frameReader.needed p := hlength
  rw [frameReader_lawful.reads_stage hp hready hneeded]
  congr 1
  show (p.absorb xs).bind finish = _
  unfold absorb
  rw [hstate]
  simp only
  rw [processPayloadBytes_eq hm]
  cases m.read (getMasked p.basicHeader) xs <;> rfl

end Hybi13

/-! ## One frame -/

namespace Frame

/-- The basic header of a frame that a processor receives from its peer. -/
def header (f : Frame) (server : Bool) : BasicHeader :=
  .ofOpcode f.op f.payload.length f.fin server

/-- The extended header. -/
def extension (f : Frame) (server : Bool) : List UInt8 :=
  lengthBytes f.payload.length ++ keyBytes server f.key

/-- The payload as it is received. -/
def wire (f : Frame) (server : Bool) : List UInt8 :=
  if server then byteMask f.key 0 f.payload else f.payload

variable (f : Frame) (server : Bool)

/-- The bytes of a frame from the other side. -/
theorem bytes_not : f.bytes (!server) =
    [(f.header server).b0, (f.header server).b1] ++ f.extension server ++ f.wire server := by
  rw [bytes_eq, Bool.not_not]
  cases server <;> rfl

/-- Masking keeps the length of a payload. -/
@[simp] theorem length_wire : (f.wire server).length = f.payload.length := by
  cases server
  · rfl
  · exact length_byteMask ..

end Frame

namespace Hybi13

variable {p : Hybi13} {o : Option Incoming}

/-- The processor before the payload of a frame. -/
def beforePayload (p : Hybi13) (f : Frame) : Except ProcessorError Hybi13 :=
  checked (validateIncomingBasicHeader (f.header p.server) p.server p.dataMsg.isNone)
    ((p.afterBasic (f.header p.server)).afterExtended
      (ExtendedHeader.zeros.copyTo 0 (f.extension p.server))
      (f.extension p.server).length).startPayload

/-- The processor with the payload of a frame. -/
def withFrame (p : Hybi13) (f : Frame) : Except ProcessorError Hybi13 :=
  match p.current with
  | none => .error .general
  | some m =>
      (m.read p.server (f.wire p.server)).bind fun m' =>
        (p.withPayload m' (f.wire p.server).length).finish

/-- In front of a payload its length is needed. -/
theorem startPayload_bytesNeeded {p p' : Hybi13} (h : p.startPayload = .ok p') :
    p'.bytesNeeded = getPayloadSize p.basicHeader p.extendedHeader ∧
      p'.basicHeader = p.basicHeader ∧ p'.server = p.server := by
  unfold startPayload at h
  simp only at h
  split at h
  · cases h
    exact ⟨rfl, rfl, rfl⟩
  · split at h
    all_goals
      split_ifs at h
      cases h
      exact ⟨rfl, rfl, rfl⟩

/-- Between the extended header and the payload. -/
theorem wf_of_startPayload {q : Hybi13} {header : BasicHeader} {xs : List UInt8}
    (hlength : xs.length = getHeaderLen header - basicHeaderLength)
    (hstart : ((p.afterBasic header).afterExtended (ExtendedHeader.zeros.copyTo 0 xs)
      xs.length).startPayload = .ok q) : q.Wf ∧ q.state = .application := by
  obtain ⟨happ, hextended, hm⟩ := startPayload_ok hstart
  have hle := getHeaderLen_le header
  have hzeros : (ExtendedHeader.zeros.copyTo 0 xs).length = maxExtendedHeaderLength :=
    ExtendedHeader.length_copyTo (by
      rw [hlength]
      exact (Nat.zero_add _).trans_le hle)
  refine ⟨⟨?_, hextended.trans hzeros, ?_, ?_, fun _ => hm⟩, happ⟩
  · simp [happ]
  · simp [happ]
  · simp [happ]

/-- **A frame** is read in its three stages. -/
theorem Between.reads_frame (h : p.Between o) (f : Frame) (rest : List UInt8) :
    frameReader.reads 2 p (f.bytes (!p.server) ++ rest) =
      frameReader.readsAfter 2 ((p.beforePayload f).bind (withFrame · f)) rest := by
  rw [f.bytes_not, List.append_assoc, List.append_assoc]
  show frameReader.reads 2 p ((f.header p.server).b0 :: (f.header p.server).b1 ::
    (f.extension p.server ++ (f.wire p.server ++ rest))) = _
  rw [h.reads_basic, beforePayload]
  cases validateIncomingBasicHeader (f.header p.server) p.server p.dataMsg.isNone with
  | some ec => rfl
  | none =>
      have hlength : (f.extension p.server).length =
          getHeaderLen (f.header p.server) - basicHeaderLength :=
        (getHeaderLen_ofOpcode f.op f.payload.length f.fin p.server f.key).symm
      have hvalid : validateIncomingExtendedHeader (f.header p.server)
          (ExtendedHeader.zeros.copyTo 0 (f.extension p.server)) = none :=
        validateIncomingExtendedHeader_readBack f.op f.fin p.server f.key f.length_lt
      show frameReader.reads 2 (p.afterBasic (f.header p.server))
        (f.extension p.server ++ (f.wire p.server ++ rest)) = _
      rw [h.reads_extended _ hlength, hvalid]
      simp only [checked]
      cases hstart : ((p.afterBasic (f.header p.server)).afterExtended
        (ExtendedHeader.zeros.copyTo 0 (f.extension p.server))
          (f.extension p.server).length).startPayload with
      | error ec => rfl
      | ok q =>
          obtain ⟨hbytes, hheader, hserver⟩ := startPayload_bytesNeeded hstart
          obtain ⟨hwf, happ⟩ := wf_of_startPayload hlength hstart
          obtain ⟨m, hm, -⟩ := hwf.payload (.inl happ)
          have hwire : (f.wire p.server).length = q.bytesNeeded := by
            rw [hbytes, Frame.length_wire]
            exact (getPayloadSize_readBack f.op f.fin p.server f.key f.length_lt).symm
          have hmasked : getMasked q.basicHeader = p.server := by
            rw [hheader]
            exact getMasked_ofOpcode ..
          show frameReader.reads 2 q (f.wire p.server ++ rest) =
            frameReader.readsAfter 2 (q.withFrame f) rest
          rw [hwf.reads_payload happ hm hwire, hmasked, withFrame, hm]
          have hserver' : q.server = p.server := hserver
          rw [hserver']

end Hybi13

end BrowCast.WebSocket
