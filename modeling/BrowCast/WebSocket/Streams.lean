import BrowCast.WebSocket.Acceptance

/-! # Streams of frames

The messages that the processor hands over are those of the accepted frames that the stream begins
with, and what the processor of one side has written, that of the other side reads. -/

namespace BrowCast.WebSocket

open StagedReader

namespace Frame

variable {server : Bool} {op : Opcode} {fin : Bool} {key : MaskingKey} {wire : List UInt8}

/-- The frame with a payload as it is received. -/
def ofWire (server : Bool) (op : Opcode) (fin : Bool) (key : MaskingKey) {wire : List UInt8}
    (hlength : wire.length < sizeMax) : Frame where
  op
  fin
  payload := if server then byteMask key 0 wire else wire
  key
  length_lt := by
    split_ifs
    · rwa [length_byteMask]
    · exact hlength

/-- The bytes of a frame with this payload on the wire. -/
theorem bytes_ofWire (hlength : wire.length < sizeMax) :
    (ofWire server op fin key hlength).bytes (!server) =
      [(BasicHeader.ofOpcode op wire.length fin server).b0,
        (BasicHeader.ofOpcode op wire.length fin server).b1] ++
          (lengthBytes wire.length ++ keyBytes server key) ++ wire := by
  rw [bytes_not, header, extension, Frame.wire, ofWire]
  cases server with
  | false => rfl
  | true => simp [byteMask_byteMask]

end Frame

namespace Hybi13

variable {p p' q : Hybi13} {o o' d : Option Incoming} {f : Frame}

/-- **One frame** of a stream. -/
theorem Between.reads_accepted (h : p.Between o) (haccepts : Accepts p.maxMessageSize o f d o') :
    ∃ q, p.Follows q o' ∧ ∀ rest, frameReader.reads 2 p (f.bytes (!p.server) ++ rest) =
      (d.toList.map some ++ (frameReader.reads 2 q rest).1, (frameReader.reads 2 q rest).2) := by
  obtain ⟨r, hread, hyields⟩ := h.readFrame_ok haccepts
  have hframe : ∀ rest, frameReader.reads 2 p (f.bytes (!p.server) ++ rest) =
      frameReader.reads 2 r rest := fun rest => by
    rw [h.reads_frame f rest]
    show frameReader.readsAfter 2 (p.readFrame f) rest = _
    rw [hread]
    rfl
  cases d with
  | none => exact ⟨r, hyields, hframe⟩
  | some i =>
      obtain ⟨hready, hmessage, hq⟩ := hyields
      refine ⟨_, hq, fun rest => ?_⟩
      rw [hframe, reads_of_ready hready]
      show ([r.getMessage.1] ++ (frameReader.receive 2 rest.length r.getMessage.2 rest).1,
        (frameReader.receive 2 rest.length r.getMessage.2 rest).2) = _
      rw [frameReader_lawful.receive_eq_reads hq.between.waits, hmessage]
      rfl

/-- The processor in the middle of a frame, or with one that it does not accept: it has no message
and is not between two frames. -/
def Stuck (x : Reading Hybi13 (Option Incoming) ProcessorError) : Prop :=
  x.1 = [] ∧ ∀ p o, x.2 = .ok p → ¬ p.Between o

/-- After an error no frame is read. -/
theorem stuck_error (ec : ProcessorError) : Stuck ([], .error ec) :=
  ⟨rfl, fun _ _ h => nomatch h⟩

/-- Within a frame none is complete. -/
theorem stuck_of_state (hstate : p.state ≠ .headerBasic ∨ p.bytesNeeded ≠ 2) :
    Stuck ([], .ok p) := by
  refine ⟨rfl, fun p' o hp h => ?_⟩
  cases hp
  exact hstate.elim (· h.state) (· h.bytesNeeded)

/-- Bytes that do not fill a stage after the first one. -/
theorem Wf.stuck_of_short (h : p.Wf) (hready : p.isReady = false) (hstate : p.state ≠ .headerBasic)
    {buf : List UInt8} (hlt : buf.length < p.bytesNeeded) :
    Stuck (frameReader.reads 2 p buf) := by
  rw [frameReader_lawful.reads_short h hready hlt]
  show Stuck ([], p.absorb buf)
  cases habsorb : p.absorb buf with
  | error ec => exact stuck_error ec
  | ok q =>
      obtain ⟨-, hq, -⟩ := absorb_ok h hready hlt.le habsorb
      exact stuck_of_state (.inl (hq ▸ hstate))

/-- A basic header that is accepted has no reserved bits and the mask of its side. -/
theorem of_validateIncomingBasicHeader {header : BasicHeader} {server newMsg : Bool}
    (h : validateIncomingBasicHeader header server newMsg = none) :
    (getRsv1 header = false ∧ getRsv2 header = false ∧ getRsv3 header = false) ∧
      getMasked header = server := by
  unfold validateIncomingBasicHeader at h
  simp only [ite_some_eq_none] at h
  obtain ⟨-, hrsv1, hrsv2, -, -, -, -, -, hrequired, hforbidden, -⟩ := h
  simp only [Bool.or_eq_true, not_or, Bool.not_eq_true] at hrsv1 hrsv2
  refine ⟨⟨hrsv1, hrsv2.1, hrsv2.2⟩, ?_⟩
  cases server with
  | false => simpa using hforbidden
  | true => simpa using hrequired

/-- The bytes after a basic header that passes the checks. -/
theorem Between.exists_frame_of_basic (h : p.Between o) {b c : UInt8} {xs : List UInt8}
    (hbasic : validateIncomingBasicHeader ⟨b, c⟩ p.server p.dataMsg.isNone = none)
    (hlength : xs.length = getHeaderLen ⟨b, c⟩ - basicHeaderLength) (rest : List UInt8) :
    (∃ f rest', b :: c :: (xs ++ rest) = Frame.bytes (!p.server) f ++ rest') ∨
      Stuck (frameReader.reads 2 (p.afterBasic ⟨b, c⟩) (xs ++ rest)) := by
  rw [h.reads_extended _ hlength]
  cases hextended : validateIncomingExtendedHeader ⟨b, c⟩ (ExtendedHeader.zeros.copyTo 0 xs) with
  | some ec => exact .inr (stuck_error ec)
  | none =>
      obtain ⟨⟨hrsv1, hrsv2, hrsv3⟩, hmasked⟩ := of_validateIncomingBasicHeader hbasic
      obtain ⟨size, hsize, key, hheader, hxs⟩ :=
        header_readBack hrsv1 hrsv2 hrsv3 hlength hextended
      rw [hmasked] at hheader hxs
      cases hstart : ((p.afterBasic ⟨b, c⟩).afterExtended (ExtendedHeader.zeros.copyTo 0 xs)
        xs.length).startPayload with
      | error ec => exact .inr (stuck_error ec)
      | ok q =>
          obtain ⟨hwf, happ⟩ := wf_of_startPayload hlength hstart
          have hneeded : q.bytesNeeded = size := by
            rw [(startPayload_bytesNeeded hstart).1]
            show getPayloadSize ⟨b, c⟩ (ExtendedHeader.zeros.copyTo 0 xs) = size
            rw [hxs, hheader]
            exact getPayloadSize_readBack _ _ _ _ hsize
          show _ ∨ Stuck (frameReader.reads 2 q rest)
          by_cases hshort : rest.length < q.bytesNeeded
          · have hnot : q.isReady = false := isReady_eq_false_iff.mpr (by simp [happ])
            exact .inr (hwf.stuck_of_short hnot (by simp [happ]) hshort)
          · have hpayload : (rest.take size).length = size := by
              rw [List.length_take]
              omega
            refine .inl ⟨.ofWire p.server (getOpcode ⟨b, c⟩) (getFin ⟨b, c⟩) key
              (by rw [hpayload]; exact hsize), rest.drop size, ?_⟩
            rw [Frame.bytes_ofWire, hpayload, ← hheader, ← hxs]
            simp

/-- **What does not begin with a frame** yields nothing. -/
theorem Between.exists_frame (h : p.Between o) {buf : List UInt8} (hbuf : buf ≠ []) :
    (∃ f rest, buf = Frame.bytes (!p.server) f ++ rest) ∨
      Stuck (frameReader.reads 2 p buf) := by
  match buf, hbuf with
  | [b], _ =>
      refine .inr ?_
      have hlt : [b].length < frameReader.needed p := by
        show 1 < p.bytesNeeded
        rw [h.bytesNeeded]
        decide
      rw [frameReader_lawful.reads_short h.wf h.not_ready hlt]
      show Stuck ([], p.absorb [b])
      unfold absorb
      rw [h.state]
      simp only
      rw [copyBasicHeaderBytes_first h.bytesNeeded]
      exact stuck_of_state (.inr (by simp))
  | b :: c :: rest, _ =>
      rw [h.reads_basic]
      cases hbasic : validateIncomingBasicHeader ⟨b, c⟩ p.server p.dataMsg.isNone with
      | some ec => exact .inr (stuck_error ec)
      | none =>
          show _ ∨ Stuck (frameReader.reads 2 (p.afterBasic ⟨b, c⟩) rest)
          by_cases hshort : rest.length < getHeaderLen ⟨b, c⟩ - basicHeaderLength
          · exact .inr ((h.wf_afterBasic ⟨b, c⟩).stuck_of_short rfl (by simp [afterBasic]) hshort)
          · rw [← List.take_append_drop (getHeaderLen ⟨b, c⟩ - basicHeaderLength) rest]
            have hlength : (rest.take (getHeaderLen ⟨b, c⟩ - basicHeaderLength)).length =
                getHeaderLen ⟨b, c⟩ - basicHeaderLength := by
              rw [List.length_take]
              omega
            generalize rest.take (getHeaderLen ⟨b, c⟩ - basicHeaderLength) = xs at hlength ⊢
            generalize rest.drop (getHeaderLen ⟨b, c⟩ - basicHeaderLength) = rest'
            exact h.exists_frame_of_basic hbasic hlength rest'

end Hybi13

/-! ## The stream -/

namespace Frame

variable {server : Bool} {f f' : Frame} {rest rest' : List UInt8}

/-- **No frame begins with another**: what is behind a frame is behind every frame there. -/
theorem bytes_append_inj (h : f.bytes (!server) ++ rest = f'.bytes (!server) ++ rest') :
    f.op = f'.op ∧ f.fin = f'.fin ∧ f.payload = f'.payload ∧ rest = rest' := by
  rw [bytes_not, bytes_not] at h
  simp only [List.append_assoc, List.cons_append, List.nil_append, List.cons.injEq] at h
  obtain ⟨h0, h1, hrest⟩ := h
  have hheader : f.header server = f'.header server := by
    cases hf : f.header server
    cases hf' : f'.header server
    simp_all
  have hop : f.op = f'.op := by
    have := congrArg getOpcode hheader
    rwa [header, header, getOpcode_ofOpcode, getOpcode_ofOpcode] at this
  have hfin : f.fin = f'.fin := by
    have := congrArg getFin hheader
    rwa [header, header, getFin_ofOpcode, getFin_ofOpcode] at this
  have hlength : (f.extension server).length = (f'.extension server).length := by
    have := congrArg (getHeaderLen · - basicHeaderLength) hheader
    simp only [header] at this
    rwa [getHeaderLen_ofOpcode _ _ _ _ f.key, getHeaderLen_ofOpcode _ _ _ _ f'.key] at this
  obtain ⟨hextension, hwire⟩ := List.append_inj hrest hlength
  have hsize : f.payload.length = f'.payload.length := by
    rw [← getPayloadSize_readBack f.op f.fin server f.key f.length_lt,
      ← getPayloadSize_readBack f'.op f'.fin server f'.key f'.length_lt]
    exact congrArg₂ (fun header xs => getPayloadSize header (ExtendedHeader.zeros.copyTo 0 xs))
      hheader hextension
  have hkey : (if server then f.key else 0) = if server then f'.key else 0 := by
    rw [← getMaskingKey_readBack f.op f.fin server f.key f.payload.length,
      ← getMaskingKey_readBack f'.op f'.fin server f'.key f'.payload.length]
    exact congrArg₂ (fun header xs => getMaskingKey header (ExtendedHeader.zeros.copyTo 0 xs))
      hheader hextension
  obtain ⟨hbytes, hbehind⟩ := List.append_inj hwire (by rw [length_wire, length_wire, hsize])
  refine ⟨hop, hfin, ?_, hbehind⟩
  cases server with
  | false => exact hbytes
  | true =>
      have hkey : f.key = f'.key := hkey
      have hunmask := congrArg (byteMask f.key 0) hbytes
      unfold wire at hunmask
      rwa [if_pos rfl, if_pos rfl, byteMask_byteMask, hkey, byteMask_byteMask] at hunmask

/-- A frame has bytes. -/
theorem bytes_ne_nil (server : Bool) (f : Frame) : f.bytes server ≠ [] := by
  rw [bytes_eq]
  simp

end Frame

/-- What is accepted does not depend on the key. -/
theorem Accepts.congr {maxMessageSize : ℕ} {o d o' : Option Incoming} {f f' : Frame}
    (h : Accepts maxMessageSize o f d o') (hop : f.op = f'.op) (hfin : f.fin = f'.fin)
    (hpayload : f.payload = f'.payload) : Accepts maxMessageSize o f' d o' := by
  obtain ⟨op, fin, payload, key, hlt⟩ := f
  obtain ⟨op', fin', payload', key', hlt'⟩ := f'
  cases hop
  cases hfin
  cases hpayload
  cases h with
  | control hop hfin hsize => exact .control hop hfin hsize
  | whole hop hfin hsize htext => exact .whole hop hfin hsize htext
  | first hop hfin hsize htext => exact .first hop hfin hsize htext
  | more hop hfin hsize htext => exact .more hop hfin hsize htext
  | last hop hfin hsize htext => exact .last hop hfin hsize htext

namespace Hybi13

variable {p : Hybi13} {o : Option Incoming}

/-- `buf` begins with the accepted frames `fs`, and with no more of them. -/
structure Begins (p : Hybi13) (o : Option Incoming) (buf : List UInt8) (fs : List Frame)
    (ms : List Incoming) (o' : Option Incoming) (rest : List UInt8) : Prop where
  accepts : AcceptsAll p.maxMessageSize o fs ms o'
  bytes : buf = fs.flatMap (Frame.bytes (!p.server)) ++ rest
  maximal : ∀ f d o'', Accepts p.maxMessageSize o' f d o'' → ¬ f.bytes (!p.server) <+: rest

/-- What reading yields: the messages, and whether it ends between two frames. -/
def Reads (x : Reading Hybi13 (Option Incoming) ProcessorError) (ms : List Incoming)
    (o : Option Incoming) (rest : List UInt8) : Prop :=
  x.1 = ms.map some ∧ (rest = [] ↔ ∃ p, x.2 = .ok p ∧ p.Between o)

/-- **A stream** is read as far as its frames are accepted. -/
theorem Between.reads_stream (h : p.Between o) (buf : List UInt8) : ∃ fs ms o' rest,
    p.Begins o buf fs ms o' rest ∧ Reads (frameReader.reads 2 p buf) ms o' rest := by
  induction hlength : buf.length using Nat.strongRecOn generalizing p o buf with
  | ind n ih =>
      by_cases hbuf : buf = []
      · subst hbuf
        have hread : frameReader.reads 2 p [] = ([], .ok p) :=
          (frameReader_lawful.receive_eq_reads h.waits []).symm
        refine ⟨[], [], o, [], ⟨.nil, rfl, fun f _ _ _ hf => ?_⟩, ?_⟩
        · exact Frame.bytes_ne_nil _ f (List.prefix_nil.mp hf)
        · rw [hread]
          exact ⟨rfl, iff_of_true rfl ⟨p, rfl, h⟩⟩
      · by_cases hframe : ∃ f rest, buf = Frame.bytes (!p.server) f ++ rest
        · obtain ⟨f, rest, rfl⟩ := hframe
          cases hread : p.readFrame f with
          | error ec =>
              have hreads : frameReader.reads 2 p (f.bytes (!p.server) ++ rest) =
                  ([], .error ec) := by
                rw [h.reads_frame f rest]
                show frameReader.readsAfter 2 (p.readFrame f) rest = _
                rw [hread]
                rfl
              refine ⟨[], [], o, _, ⟨.nil, rfl, fun f' d o' haccepts hf' => ?_⟩, ?_⟩
              · obtain ⟨rest', hrest'⟩ := hf'
                obtain ⟨hop, hfin, hpayload, -⟩ := Frame.bytes_append_inj hrest'
                obtain ⟨r, hok, -⟩ := h.readFrame_ok (haccepts.congr hop hfin hpayload)
                exact nomatch hread.symm.trans hok
              · rw [hreads]
                exact ⟨rfl, iff_of_false hbuf fun ⟨_, hok, _⟩ => nomatch hok⟩
          | ok r =>
              obtain ⟨d, o', haccepts⟩ := h.accepts_of_readFrame hread
              obtain ⟨q, hq, hreads⟩ := h.reads_accepted haccepts
              have hpos := List.length_pos_iff.mpr (Frame.bytes_ne_nil (!p.server) f)
              obtain ⟨fs, ms, o'', rest', hbegins, hmessages, hends⟩ :=
                ih rest.length (by rw [← hlength, List.length_append]; omega) hq.between rest rfl
              obtain ⟨haccepts', hbytes, hmaximal⟩ := hbegins
              rw [hq.maxMessageSize] at haccepts' hmaximal
              rw [hq.server] at hbytes hmaximal
              refine ⟨f :: fs, d.toList ++ ms, o'', rest',
                ⟨.cons haccepts haccepts', ?_, hmaximal⟩, ?_⟩
              · rw [List.flatMap_cons, List.append_assoc, ← hbytes]
              · rw [hreads]
                exact ⟨by rw [hmessages, List.map_append], hends⟩
        · obtain ⟨hnone, hbetween⟩ := (h.exists_frame hbuf).resolve_left hframe
          refine ⟨[], [], o, buf, ⟨.nil, rfl, fun f _ _ _ hf => ?_⟩, hnone,
            iff_of_false hbuf fun ⟨p', hp', h'⟩ => hbetween p' o hp' h'⟩
          obtain ⟨rest, hrest⟩ := hf
          exact hframe ⟨f, rest, hrest.symm⟩

/-- A processor that has read nothing. -/
theorem between_new (server : Bool) (maxMessageSize : ℕ) :
    Between { server, maxMessageSize } none := ⟨rfl, rfl, rfl, .none⟩

/-- The reads of the transport together. -/
theorem Between.readParts_eq_reads (h : p.Between o) (parts : List (List UInt8)) :
    p.readParts parts = frameReader.reads 2 p parts.flatten := by
  rw [readParts_eq h.waits, frameReader_lawful.receiveAll_eq h.waits,
    frameReader_lawful.receive_eq_reads h.waits]

end Hybi13

/-- **The processor reads exactly the accepted frames.** However the transport cuts the stream into
parts, the messages that a new processor hands over are those of the accepted frames that the stream
begins with, as many of them as there are; and it is between two frames again exactly if there is
nothing after them. -/
theorem processor_reads_exactly (server : Bool) (maxMessageSize : ℕ) (parts : List (List UInt8)) :
    ∃ fs ms o rest,
      (AcceptsAll maxMessageSize none fs ms o ∧
        parts.flatten = fs.flatMap (Frame.bytes (!server)) ++ rest ∧
        ∀ f d o', Accepts maxMessageSize o f d o' → ¬ f.bytes (!server) <+: rest) ∧
      (Hybi13.readParts { server, maxMessageSize } parts).1 = ms.map some ∧
      (rest = [] ↔ ∃ p, (Hybi13.readParts { server, maxMessageSize } parts).2 = .ok p ∧
        p.Between o) := by
  have hbetween := Hybi13.between_new server maxMessageSize
  obtain ⟨fs, ms, o, rest, ⟨haccepts, hbytes, hmaximal⟩, hreads⟩ :=
    hbetween.reads_stream parts.flatten
  rw [← hbetween.readParts_eq_reads] at hreads
  exact ⟨fs, ms, o, rest, ⟨haccepts, hbytes, hmaximal⟩, hreads⟩

/-! ## What the other side has written -/

/-- A side has written the message, masked with the key if it is a client: with `prepare_control` a
control message, with `prepare_data_frame` any other, in one frame. -/
def Writes (server : Bool) (m : Incoming × MaskingKey) (written : Prepared) : Prop :=
  (if m.1.opcode.isControl then
    ({ server } : Hybi13).prepareControl m.1.opcode m.1.payload m.2
  else ({ server } : Hybi13).prepareDataFrame m.1.opcode true m.1.payload m.2) = .ok written

/-- A message that the other side takes: its opcode is that of a message and defined, and it is not
too big. -/
structure Incoming.Fits (m : Incoming) (maxMessageSize : ℕ) : Prop where
  defined : m.opcode.reserved = false
  first : m.opcode ≠ .continuation
  length_lt : m.payload.length < sizeMax
  length_le : m.payload.length ≤ maxMessageSize

/-- A message that is written is a frame that is accepted. -/
theorem exists_frame_of_writes {server : Bool} {maxMessageSize : ℕ} {m : Incoming × MaskingKey}
    {written : Prepared} (hwrites : Writes server m written) (hfits : m.1.Fits maxMessageSize) :
    ∃ f : Frame, written.header ++ written.payload = f.bytes server ∧
      Accepts maxMessageSize none f (some m.1) none := by
  obtain ⟨⟨op, payload⟩, key⟩ := m
  obtain ⟨hdefined, hfirst, hlt, hle⟩ := hfits
  refine ⟨⟨op, true, payload, key, hlt⟩, ?_⟩
  unfold Writes at hwrites
  cases hop : op.isControl with
  | true =>
      simp only [hop, if_true, Hybi13.prepareControl, Bool.not_true, Bool.false_eq_true, if_false]
        at hwrites
      split_ifs at hwrites with hbig
      cases hwrites
      exact ⟨rfl, .control ((Opcode.control_iff op).mp ⟨hdefined, hop⟩) rfl (not_lt.mp hbig)⟩
  | false =>
      simp only [hop, Hybi13.prepareDataFrame, Bool.false_eq_true, if_false] at hwrites
      split_ifs at hwrites with htext
      cases hwrites
      have hdata := ((Opcode.data_iff op).mp ⟨hdefined, hop⟩).resolve_left hfirst
      refine ⟨rfl, .whole hdata rfl hle fun hop => (isUtf8_iff payload).mpr ?_⟩
      simpa using fun hrefused => htext ⟨hop, hrefused⟩

namespace Hybi13

/-- Messages that are written one after the other are read one after the other. -/
theorem Between.reads_messages {p : Hybi13} (h : p.Between none) {server : Bool}
    (hserver : p.server = server) {ms : List (Incoming × MaskingKey)} {written : List Prepared}
    (hwritten : List.Forall₂ (Writes (!server)) ms written)
    (hfits : ∀ m ∈ ms, m.1.Fits p.maxMessageSize) :
    ∃ q, q.Between none ∧ frameReader.reads 2 p (written.flatMap fun w => w.header ++ w.payload) =
      (ms.map fun m => some m.1, .ok q) := by
  induction hwritten generalizing p with
  | nil =>
      exact ⟨p, h, (frameReader_lawful.receive_eq_reads h.waits []).symm⟩
  | @cons m w ms written hfirst hrest ih =>
      obtain ⟨f, hbytes, haccepts⟩ := exists_frame_of_writes hfirst (hfits m (.head _))
      obtain ⟨q, hq, hreads⟩ := h.reads_accepted haccepts
      obtain ⟨q', hq', hreads'⟩ := ih hq.between (hq.server.trans hserver) fun m' hm' =>
        hq.maxMessageSize ▸ hfits m' (.tail _ hm')
      refine ⟨q', hq', ?_⟩
      rw [List.flatMap_cons, hbytes, ← hserver, hreads, hreads']
      rfl

end Hybi13

/-- **What one side writes, the other side reads.** However the transport cuts the bytes of whole
messages into parts, a new processor of the other side hands over these messages in their order, and
is between two frames then. -/
theorem reads_written {server : Bool} {maxMessageSize : ℕ} {ms : List (Incoming × MaskingKey)}
    {written : List Prepared} (hwritten : List.Forall₂ (Writes (!server)) ms written)
    (hfits : ∀ m ∈ ms, m.1.Fits maxMessageSize) {parts : List (List UInt8)}
    (hparts : parts.flatten = written.flatMap fun w => w.header ++ w.payload) :
    ∃ p, p.Between none ∧
      Hybi13.readParts { server, maxMessageSize } parts = (ms.map fun m => some m.1, .ok p) := by
  have hbetween := Hybi13.between_new server maxMessageSize
  rw [hbetween.readParts_eq_reads, hparts]
  exact hbetween.reads_messages rfl hwritten hfits

/-- A masked text and a ping, which arrive byte by byte. -/
theorem reads_written_bytewise :
    ∃ p, p.Between none ∧
      Hybi13.readParts { server := true, maxMessageSize := 100 }
        ([0x81, 0x83, 0x04, 0x03, 0x02, 0x01, 0x6C, 0xC0, 0xAB, 0x89, 0x80, 0x08, 0x07, 0x06,
          0x05].map fun b => [b]) =
        ([some ⟨.text, [0x68, 0xC3, 0xA9]⟩, some ⟨.ping, []⟩], .ok p) := by
  have htext : Writes (!true) (⟨.text, [0x68, 0xC3, 0xA9]⟩, 0x01020304)
      ⟨[0x81, 0x83, 0x04, 0x03, 0x02, 0x01], [0x6C, 0xC0, 0xAB], .text⟩ := by
    unfold Writes
    decide +kernel
  have hping : Writes (!true) (⟨.ping, []⟩, 0x05060708)
      ⟨[0x89, 0x80, 0x08, 0x07, 0x06, 0x05], [], .ping⟩ := by
    unfold Writes
    decide +kernel
  refine reads_written (.cons htext (.cons hping .nil)) ?_ (by decide)
  rw [List.forall_mem_cons, List.forall_mem_singleton]
  exact ⟨⟨rfl, nofun, by decide, by decide⟩, ⟨rfl, nofun, by decide, by decide⟩⟩

end BrowCast.WebSocket
