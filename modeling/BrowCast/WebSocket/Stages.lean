import BrowCast.Runs.StagedReader
import BrowCast.WebSocket.Hybi13

/-! # The stages of a frame

The loop of `consume` as a reader that works in stages: the basic header, the extended one, the
payload. So what it reads does not depend on how the transport cuts the stream. -/

namespace BrowCast.WebSocket

open StagedReader

/-- A key for a payload that goes on anywhere. -/
def IsKey (preparedKey : BitVec 64) : Prop := ∃ key, ∃ i < 4, IsPrepared key i preparedKey

namespace Hybi13

/-- Takes in bytes of the stage. -/
def absorb (p : Hybi13) (buf : List UInt8) : Except ProcessorError Hybi13 :=
  match p.state with
  | .headerBasic => .ok (p.copyBasicHeaderBytes buf).1
  | .headerExtended => .ok (p.copyExtendedHeaderBytes buf).1
  | .application => p.processPayloadBytes buf
  | _ => .ok p

/-- Ends the stage. -/
def finish (p : Hybi13) : Except ProcessorError Hybi13 :=
  match p.state with
  | .headerBasic =>
      match validateIncomingBasicHeader p.basicHeader p.server p.dataMsg.isNone with
      | some ec => .error ec
      | none =>
          .ok { p with
            state := .headerExtended
            cursor := 0
            bytesNeeded := getHeaderLen p.basicHeader - basicHeaderLength }
  | .headerExtended =>
      match validateIncomingExtendedHeader p.basicHeader p.extendedHeader with
      | some ec => .error ec
      | none => p.startPayload
  | .application => if getFin p.basicHeader then p.finalizeMessage else .ok p.resetHeaders
  | _ => .error .general

/-- What the fields of the processor have to do with each other. -/
structure Wf (p : Hybi13) : Prop where
  reads : p.state ≠ .extension ∧ p.state ≠ .fatalError
  extended_length : p.extendedHeader.length = maxExtendedHeaderLength
  basic : p.state = .headerBasic → p.bytesNeeded ≤ 2
  extended : p.state = .headerExtended →
    p.cursor + p.bytesNeeded = getHeaderLen p.basicHeader - basicHeaderLength
  payload : p.state = .application ∨ p.state = .ready →
    ∃ m, p.current = some m ∧ IsKey m.preparedKey

/-- How many stages may lack nothing in a row. -/
def rank (p : Hybi13) : ℕ :=
  match p.state with
  | .headerBasic => 2
  | .headerExtended => 1
  | _ => 0

end Hybi13

/-- The processor as a reader. -/
def frameReader : StagedReader Hybi13 UInt8 (Option Incoming) ProcessorError where
  needed := Hybi13.bytesNeeded
  ready := Hybi13.isReady
  absorb := Hybi13.absorb
  finish := Hybi13.finish
  take := Hybi13.getMessage

namespace Hybi13

variable {p p' : Hybi13}

/-- An extended header has at most twelve bytes. -/
theorem getHeaderLen_le (h : BasicHeader) : getHeaderLen h - basicHeaderLength ≤ 12 := by
  unfold getHeaderLen getMaskingKeyOffset basicHeaderLength
  split_ifs <;> omega

/-- No message is ready in the other states. -/
theorem isReady_eq_false_iff : p.isReady = false ↔ p.state ≠ .ready := decide_eq_false_iff_not

section SetCurrent

variable (p) (m : Option MsgMetadata)

/-- The message put in place is the current one. -/
@[simp] theorem current_setCurrent : (p.setCurrent m).current = m := by
  unfold setCurrent current
  cases hcurrent : p.currentMsg <;> simp

/-- Putting back the current message changes nothing. -/
theorem setCurrent_current (h : p.current = m) : p.setCurrent m = p := by
  subst h
  cases p with
  | mk server maxMessageSize basicHeader extendedHeader bytesNeeded cursor dataMsg controlMsg
      currentMsg state => cases currentMsg <;> rfl

end SetCurrent

end Hybi13

/-! ## The payload -/

namespace MsgMetadata

variable (m : MsgMetadata) {m' : MsgMetadata} (masked : Bool)

/-- The bytes of the payload and the key for those that follow. -/
def unmask (buf : List UInt8) : List UInt8 × BitVec 64 :=
  if masked then byteMaskCirc buf m.preparedKey else (buf, m.preparedKey)

/-- The validator after bytes of the payload, and whether it refuses none. -/
def check (bytes : List UInt8) : Validator × Bool :=
  if m.opcode = .text then m.validator.decode bytes else (m.validator, true)

/-- The message with more bytes of its payload. -/
def extend (buf : List UInt8) : MsgMetadata :=
  { m with
    preparedKey := (m.unmask masked buf).2
    payload := m.payload ++ (m.unmask masked buf).1
    validator := (m.check (m.unmask masked buf).1).1 }

/-- The message after bytes of its payload. -/
def read (buf : List UInt8) : Except ProcessorError MsgMetadata :=
  if (m.check (m.unmask masked buf).1).2 then .ok (m.extend masked buf) else .error .invalidUtf8

variable {m masked}

/-- Bytes that are read are valid and are added to the message. -/
theorem read_ok {buf : List UInt8} (h : m.read masked buf = .ok m') :
    (m.check (m.unmask masked buf).1).2 = true ∧ m' = m.extend masked buf := by
  unfold read at h
  split_ifs at h with hvalid
  cases h
  exact ⟨hvalid, rfl⟩

/-- The key stays a key after some bytes. -/
theorem isKey_extend (h : IsKey m.preparedKey) (buf : List UInt8) :
    IsKey (m.extend masked buf).preparedKey := by
  show IsKey (m.unmask masked buf).2
  unfold unmask
  split_ifs
  · obtain ⟨key, i, hi, hkey⟩ := h
    exact ⟨key, _, Nat.mod_lt _ (by decide), (hkey.unmask hi buf).2⟩
  · exact h

/-- Reading nothing changes nothing. -/
theorem read_nil : m.read masked [] = .ok m := by
  have hunmask : m.unmask masked [] = ([], m.preparedKey) := by
    unfold unmask
    split_ifs <;> rfl
  have hcheck : m.check [] = (m.validator, true) := by
    unfold check
    split_ifs <;> rfl
  rw [read, extend, hunmask, hcheck, List.append_nil]
  rfl

/-- Unmasking goes on where it has stopped. -/
theorem unmask_append (h : IsKey m.preparedKey) (xs ys : List UInt8) :
    m.unmask masked (xs ++ ys) =
      ((m.unmask masked xs).1 ++ ((m.extend masked xs).unmask masked ys).1,
        ((m.extend masked xs).unmask masked ys).2) := by
  obtain ⟨key, i, hi, hkey⟩ := h
  unfold extend unmask
  split_ifs
  · exact hkey.unmask_append hi xs ys
  · rfl

/-- The bytes after some that are not refused. -/
theorem check_append_of_valid {xs : List UInt8}
    (hvalid : (m.check (m.unmask masked xs).1).2 = true) (bytes : List UInt8) :
    m.check ((m.unmask masked xs).1 ++ bytes) = (m.extend masked xs).check bytes := by
  show m.check _ =
    if m.opcode = .text then (m.check (m.unmask masked xs).1).1.decode bytes
    else ((m.check (m.unmask masked xs).1).1, true)
  unfold check at hvalid ⊢
  split_ifs with htext
  · rw [if_pos htext] at hvalid
    rw [Validator.decode_append, if_pos hvalid]
  · rfl

/-- Bytes that are refused are refused with more behind them. -/
theorem check_append_of_refused {bytes : List UInt8} (hrefused : (m.check bytes).2 = false)
    (bytes' : List UInt8) : (m.check (bytes ++ bytes')).2 = false := by
  unfold check at hrefused ⊢
  split_ifs at hrefused ⊢ with htext
  rw [Validator.decode_append, if_neg (by rw [hrefused]; decide)]
  exact hrefused

/-- **A payload in two parts** is read like one. -/
theorem read_append (h : IsKey m.preparedKey) (xs ys : List UInt8) :
    m.read masked (xs ++ ys) = (m.read masked xs).bind fun m' => m'.read masked ys := by
  by_cases hvalid : (m.check (m.unmask masked xs).1).2 = true
  · have hcheck := check_append_of_valid hvalid ((m.extend masked xs).unmask masked ys).1
    have hextend : m.extend masked (xs ++ ys) = (m.extend masked xs).extend masked ys := by
      conv_lhs => rw [extend, unmask_append h, hcheck]
      conv_rhs => rw [extend]
      simp only [extend, List.append_assoc]
    have hread : m.read masked xs = .ok (m.extend masked xs) := if_pos hvalid
    rw [hread, read, unmask_append h, hcheck, hextend]
    rfl
  · have hrefused := check_append_of_refused (Bool.eq_false_iff.mpr hvalid)
      ((m.extend masked xs).unmask masked ys).1
    have hread : m.read masked xs = .error .invalidUtf8 := if_neg hvalid
    rw [hread, read, unmask_append h, if_neg (by rw [hrefused]; decide)]
    rfl

end MsgMetadata

namespace Hybi13

/-- The processor after `n` bytes of the payload of its message. -/
def withPayload (p : Hybi13) (m : MsgMetadata) (n : ℕ) : Hybi13 :=
  { p.setCurrent (some m) with bytesNeeded := p.bytesNeeded - n }

section WithPayload

variable (p : Hybi13) (m m' : MsgMetadata) (n n' : ℕ)

/-- The message with the payload is the current one. -/
@[simp] theorem current_withPayload : (p.withPayload m n).current = some m :=
  current_setCurrent ..

/-- Payload leaves the state of the processor. -/
@[simp] theorem state_withPayload : (p.withPayload m n).state = p.state := by
  cases hcurrent : p.currentMsg <;> simp [withPayload, setCurrent, hcurrent]

/-- Payload leaves the basic header. -/
@[simp] theorem basicHeader_withPayload : (p.withPayload m n).basicHeader = p.basicHeader := by
  cases hcurrent : p.currentMsg <;> simp [withPayload, setCurrent, hcurrent]

/-- Payload leaves the extended header. -/
@[simp] theorem extendedHeader_withPayload :
    (p.withPayload m n).extendedHeader = p.extendedHeader := by
  cases hcurrent : p.currentMsg <;> simp [withPayload, setCurrent, hcurrent]

/-- Payload twice is the later payload, with both lengths. -/
theorem withPayload_withPayload :
    (p.withPayload m n).withPayload m' n' = p.withPayload m' (n + n') := by
  cases hcurrent : p.currentMsg <;> simp [withPayload, setCurrent, hcurrent, Nat.sub_sub]

end WithPayload

/-- Processing payload reads it into the current message. -/
theorem processPayloadBytes_eq {p : Hybi13} {m : MsgMetadata} (h : p.current = some m)
    (buf : List UInt8) : p.processPayloadBytes buf =
      (m.read (getMasked p.basicHeader) buf).map (p.withPayload · buf.length) := by
  unfold processPayloadBytes MsgMetadata.read MsgMetadata.extend MsgMetadata.check
    MsgMetadata.unmask
  rw [h]
  simp only
  split_ifs <;> rfl

end Hybi13

/-! ## The headers -/

namespace ExtendedHeader

variable {bytes : ExtendedHeader} {offset : ℕ} {xs : List UInt8}

/-- Copying within the bytes keeps their number. -/
theorem length_copyTo (h : offset + xs.length ≤ bytes.length) :
    (bytes.copyTo offset xs).length = bytes.length := by
  simp only [copyTo, List.length_append, List.length_take, List.length_drop]
  omega

/-- Copying nothing changes nothing. -/
theorem copyTo_nil : bytes.copyTo offset [] = bytes := by
  rw [copyTo, List.append_nil, List.length_nil, Nat.add_zero, List.take_append_drop]

/-- Copying one part after the other. -/
theorem copyTo_append (h : offset ≤ bytes.length) (ys : List UInt8) :
    bytes.copyTo offset (xs ++ ys) = (bytes.copyTo offset xs).copyTo (offset + xs.length) ys := by
  have hfront : (bytes.take offset ++ xs).length = offset + xs.length := by
    rw [List.length_append, List.length_take]
    omega
  have htake : (bytes.copyTo offset xs).take (offset + xs.length) = bytes.take offset ++ xs := by
    rw [copyTo, List.take_append_of_le_length (by rw [hfront]), ← hfront, List.take_length]
  have hdrop : (bytes.copyTo offset xs).drop (offset + xs.length + ys.length) =
      bytes.drop (offset + (xs ++ ys).length) := by
    rw [copyTo, List.drop_append, List.drop_eq_nil_of_le (by omega), List.nil_append,
      List.drop_drop, hfront, Nat.add_sub_cancel_left, List.length_append, Nat.add_assoc]
  conv_rhs => rw [copyTo, htake, hdrop]
  rw [copyTo, ← List.append_assoc (bytes.take offset)]

end ExtendedHeader

namespace Hybi13

variable {p p' : Hybi13}

section CopyBasic

variable {b c : UInt8}

/-- Without bytes nothing is copied. -/
theorem copyBasicHeaderBytes_nil : p.copyBasicHeaderBytes [] = (p, []) := if_pos (.inl rfl)

/-- One byte is the first of the header, when both are needed. -/
theorem copyBasicHeaderBytes_first (h : p.bytesNeeded = 2) : p.copyBasicHeaderBytes [b] =
    ({ p with basicHeader := { p.basicHeader with b0 := b }, bytesNeeded := 1 }, []) := by
  simp [copyBasicHeaderBytes, h]

/-- One byte is the second of the header, when one is needed. -/
theorem copyBasicHeaderBytes_second (h : p.bytesNeeded = 1) : p.copyBasicHeaderBytes [b] =
    ({ p with basicHeader := { p.basicHeader with b1 := b }, bytesNeeded := 0 }, []) := by
  simp [copyBasicHeaderBytes, h]

/-- Of more bytes two are copied, when both are needed. -/
theorem copyBasicHeaderBytes_both (h : p.bytesNeeded = 2) (rest : List UInt8) :
    p.copyBasicHeaderBytes (b :: c :: rest) =
      ({ p with basicHeader := { b0 := b, b1 := c }, bytesNeeded := 0 }, rest) := by
  simp [copyBasicHeaderBytes, h]

/-- Of more bytes one is copied, when one is needed. -/
theorem copyBasicHeaderBytes_last (h : p.bytesNeeded = 1) (rest : List UInt8) :
    p.copyBasicHeaderBytes (b :: rest) =
      ({ p with basicHeader := { p.basicHeader with b1 := b }, bytesNeeded := 0 }, rest) := by
  cases rest <;> simp [copyBasicHeaderBytes, h]

end CopyBasic

/-- The bytes of the basic header, one at a time. -/
theorem copyBasicHeaderBytes_append {xs ys : List UInt8} (hbasic : p.bytesNeeded ≤ 2)
    (h : xs.length + ys.length ≤ p.bytesNeeded) :
    (p.copyBasicHeaderBytes (xs ++ ys)).1 =
      ((p.copyBasicHeaderBytes xs).1.copyBasicHeaderBytes ys).1 := by
  rcases xs with _ | ⟨b, xs⟩
  · rw [List.nil_append, copyBasicHeaderBytes_nil]
  · rcases ys with _ | ⟨c, ys⟩
    · rw [List.append_nil, copyBasicHeaderBytes_nil]
    · simp only [List.length_cons] at h
      obtain rfl : xs = [] := List.length_eq_zero_iff.mp (by omega)
      obtain rfl : ys = [] := List.length_eq_zero_iff.mp (by omega)
      have htwo : p.bytesNeeded = 2 := by omega
      rw [List.singleton_append, copyBasicHeaderBytes_both htwo, copyBasicHeaderBytes_first htwo]
      rw [copyBasicHeaderBytes_second]
      rfl

/-- What copying them changes. -/
theorem copyBasicHeaderBytes_spec {xs : List UInt8} (hbasic : p.bytesNeeded ≤ 2)
    (h : xs.length ≤ p.bytesNeeded) : ∃ header, (p.copyBasicHeaderBytes xs).1 =
      { p with basicHeader := header, bytesNeeded := p.bytesNeeded - xs.length } := by
  match xs, h with
  | [], _ => exact ⟨p.basicHeader, by rw [copyBasicHeaderBytes_nil]; rfl⟩
  | [b], h =>
      simp only [List.length_singleton] at h ⊢
      obtain htwo | hone : p.bytesNeeded = 2 ∨ p.bytesNeeded = 1 := by omega
      · exact ⟨_, by rw [copyBasicHeaderBytes_first htwo, htwo]⟩
      · exact ⟨_, by rw [copyBasicHeaderBytes_second hone, hone]⟩
  | [b, c], h =>
      simp only [List.length_cons, List.length_nil] at h ⊢
      have htwo : p.bytesNeeded = 2 := by omega
      exact ⟨_, by rw [copyBasicHeaderBytes_both htwo, htwo]⟩
  | _ :: _ :: _ :: _, h =>
      simp only [List.length_cons] at h
      omega

/-- Bytes of the extended header, no more than are needed. -/
theorem copyExtendedHeaderBytes_of_le {xs : List UInt8} (h : xs.length ≤ p.bytesNeeded) :
    (p.copyExtendedHeaderBytes xs).1 = { p with
      extendedHeader := p.extendedHeader.copyTo p.cursor xs
      cursor := p.cursor + xs.length
      bytesNeeded := p.bytesNeeded - xs.length } := by
  unfold copyExtendedHeaderBytes
  simp only
  rw [Nat.min_eq_right h, List.take_length]

/-! ## The laws of a reader -/

/-- What a stage takes in leaves it the stage that it is. -/
theorem absorb_ok (h : p.Wf) (hready : p.isReady = false) {xs : List UInt8}
    (hle : xs.length ≤ p.bytesNeeded) (habsorb : p.absorb xs = .ok p') :
    p'.Wf ∧ p'.state = p.state ∧ p'.bytesNeeded = p.bytesNeeded - xs.length := by
  have hnot := isReady_eq_false_iff.mp hready
  unfold absorb at habsorb
  cases hstate : p.state with
  | headerBasic =>
      rw [hstate] at habsorb
      cases habsorb
      obtain ⟨header, heq⟩ := copyBasicHeaderBytes_spec (h.basic hstate) hle
      rw [heq]
      refine ⟨⟨h.reads, h.extended_length, fun _ => ?_, fun he => ?_, fun hp => ?_⟩, hstate, rfl⟩
      · have := h.basic hstate
        simp only
        omega
      · exact nomatch hstate.symm.trans he
      · rcases hp with hp | hp
        · exact nomatch hstate.symm.trans hp
        · exact nomatch hstate.symm.trans hp
  | headerExtended =>
      rw [hstate] at habsorb
      cases habsorb
      rw [copyExtendedHeaderBytes_of_le hle]
      have hextended := h.extended hstate
      have hlen := getHeaderLen_le p.basicHeader
      have hlength := h.extended_length
      refine ⟨⟨h.reads, ?_, fun hb => ?_, fun _ => ?_, fun hp => ?_⟩, hstate, rfl⟩
      · simp only
        rw [ExtendedHeader.length_copyTo (by rw [hlength, maxExtendedHeaderLength]; omega), hlength]
      · exact nomatch hstate.symm.trans hb
      · simp only
        omega
      · rcases hp with hp | hp
        · exact nomatch hstate.symm.trans hp
        · exact nomatch hstate.symm.trans hp
  | application =>
      obtain ⟨m, hm, hkey⟩ := h.payload (.inl hstate)
      rw [hstate] at habsorb
      simp only at habsorb
      rw [processPayloadBytes_eq hm] at habsorb
      cases hread : m.read (getMasked p.basicHeader) xs with
      | error e =>
          rw [hread] at habsorb
          exact nomatch habsorb
      | ok m' =>
          rw [hread] at habsorb
          cases habsorb
          obtain ⟨-, rfl⟩ := MsgMetadata.read_ok hread
          refine ⟨⟨?_, ?_, fun hb => ?_, fun he => ?_, fun _ => ?_⟩, ?_, rfl⟩
          · simpa using h.reads
          · simpa using h.extended_length
          · simp [hstate] at hb
          · simp [hstate] at he
          · exact ⟨_, current_withPayload .., MsgMetadata.isKey_extend hkey xs⟩
          · simpa using hstate
  | ready => exact absurd hstate hnot
  | extension => exact absurd hstate h.reads.1
  | fatalError => exact absurd hstate h.reads.2

/-- A stage that gets nothing stays as it is. -/
theorem Wf.absorb_nil (h : p.Wf) : p.absorb [] = .ok p := by
  unfold absorb
  cases hstate : p.state with
  | headerBasic => exact congrArg Except.ok (congrArg Prod.fst copyBasicHeaderBytes_nil)
  | headerExtended =>
      rw [copyExtendedHeaderBytes_of_le (Nat.zero_le _), ExtendedHeader.copyTo_nil]
      rfl
  | application =>
      obtain ⟨m, hm, -⟩ := h.payload (.inl hstate)
      simp only
      rw [processPayloadBytes_eq hm, MsgMetadata.read_nil]
      simp only [Except.map, withPayload, setCurrent_current p _ hm, List.length_nil, Nat.sub_zero]
  | ready | extension | fatalError => rfl

/-- **A stage takes in two parts** like one. -/
theorem Wf.absorb_append (h : p.Wf) {xs ys : List UInt8}
    (hle : xs.length + ys.length ≤ p.bytesNeeded) :
    p.absorb (xs ++ ys) = (p.absorb xs).bind (·.absorb ys) := by
  cases hstate : p.state with
  | headerBasic =>
      obtain ⟨header, heq⟩ := copyBasicHeaderBytes_spec (h.basic hstate)
        (show xs.length ≤ p.bytesNeeded by omega)
      have happend := copyBasicHeaderBytes_append (h.basic hstate) hle
      unfold absorb
      rw [hstate]
      simp only [Except.bind, happend]
      rw [heq]
      simp only [hstate]
  | headerExtended =>
      have hextended := h.extended hstate
      have hlen := getHeaderLen_le p.basicHeader
      have hcursor : p.cursor ≤ p.extendedHeader.length := by
        rw [h.extended_length, maxExtendedHeaderLength]
        omega
      have hxs : xs.length ≤ p.bytesNeeded := by omega
      unfold absorb
      rw [hstate]
      simp only [Except.bind]
      rw [copyExtendedHeaderBytes_of_le (by rwa [List.length_append]),
        copyExtendedHeaderBytes_of_le hxs]
      simp only [hstate]
      rw [copyExtendedHeaderBytes_of_le (by simp only; omega)]
      simp only [ExtendedHeader.copyTo_append hcursor, List.length_append, Nat.add_assoc,
        Nat.sub_sub]
  | application =>
      obtain ⟨m, hm, hkey⟩ := h.payload (.inl hstate)
      unfold absorb
      rw [hstate]
      simp only
      rw [processPayloadBytes_eq hm, processPayloadBytes_eq hm, MsgMetadata.read_append hkey]
      cases hread : m.read (getMasked p.basicHeader) xs with
      | error e => rfl
      | ok m' =>
          simp only [Except.bind, Except.map, state_withPayload, hstate]
          rw [processPayloadBytes_eq (current_withPayload ..), basicHeader_withPayload]
          cases hread' : m'.read (getMasked p.basicHeader) ys with
          | error e => rfl
          | ok m'' =>
              simp only [Except.map, withPayload_withPayload, List.length_append]
  | ready | extension | fatalError =>
      unfold absorb
      rw [hstate]
      simp only [Except.bind, hstate]

/-- There is a message for the payload that follows a header, with the key of its frame. -/
theorem startPayload_ok (hstart : p.startPayload = .ok p') :
    p'.state = .application ∧ p'.extendedHeader.length = p.extendedHeader.length ∧
      ∃ m, p'.current = some m ∧ IsKey m.preparedKey := by
  have hkey : IsKey (prepareMaskingKey (getMaskingKey p.basicHeader p.extendedHeader)) :=
    ⟨_, 0, by decide, isPrepared_prepareMaskingKey _⟩
  unfold startPayload at hstart
  simp only at hstart
  split at hstart
  · cases hstart
    exact ⟨rfl, rfl, _, rfl, hkey⟩
  · split at hstart
    all_goals
      split_ifs at hstart
      cases hstart
      exact ⟨rfl, rfl, _, rfl, hkey⟩

/-- The end of a stage leads to a later one, or to one that lacks something. -/
theorem finish_ok (h : p.Wf) (hready : p.isReady = false) (hfinish : p.finish = .ok p') :
    p'.Wf ∧ (p'.isReady = true ∨ 0 < p'.bytesNeeded ∨ p'.rank < p.rank) := by
  have hnot := isReady_eq_false_iff.mp hready
  unfold finish at hfinish
  cases hstate : p.state with
  | headerBasic =>
      rw [hstate] at hfinish
      simp only at hfinish
      split at hfinish
      · exact nomatch hfinish
      · cases hfinish
        refine ⟨⟨⟨by simp, by simp⟩, h.extended_length, nofun, fun _ => Nat.zero_add _, by simp⟩,
          .inr (.inr ?_)⟩
        rw [rank, rank, hstate]
        exact Nat.lt_succ_self 1
  | headerExtended =>
      rw [hstate] at hfinish
      simp only at hfinish
      split at hfinish
      · exact nomatch hfinish
      · obtain ⟨happ, hlength, m, hm, hkey⟩ := startPayload_ok hfinish
        refine ⟨⟨?_, hlength.trans h.extended_length, ?_, ?_, fun _ => ⟨m, hm, hkey⟩⟩,
          .inr (.inr ?_)⟩
        · simp [happ]
        · simp [happ]
        · simp [happ]
        · rw [rank, rank, hstate, happ]
          exact Nat.one_pos
  | application =>
      obtain ⟨m, hm, hkey⟩ := h.payload (.inl hstate)
      rw [hstate] at hfinish
      simp only at hfinish
      split at hfinish
      · unfold finalizeMessage at hfinish
        split_ifs at hfinish
        cases hfinish
        refine ⟨⟨⟨by simp, by simp⟩, h.extended_length, nofun, nofun, fun _ => ⟨m, hm, hkey⟩⟩,
          .inl rfl⟩
      · cases hfinish
        exact ⟨⟨⟨by simp [resetHeaders], by simp [resetHeaders]⟩, rfl, fun _ => Nat.le_refl _,
          by simp [resetHeaders], by simp [resetHeaders]⟩, .inr (.inl Nat.two_pos)⟩
  | ready => exact absurd hstate hnot
  | extension => exact absurd hstate h.reads.1
  | fatalError => exact absurd hstate h.reads.2

/-- A message is handed over, and the next frame begins. -/
theorem getMessage_ok (hready : p.isReady = true) : p.getMessage.2.Wf ∧
    p.getMessage.2.isReady = false ∧ 0 < p.getMessage.2.bytesNeeded := by
  have hreset : ∀ q : Hybi13, q.resetHeaders.Wf ∧ q.resetHeaders.isReady = false ∧
      0 < q.resetHeaders.bytesNeeded := fun q =>
    ⟨⟨by simp [resetHeaders], rfl, fun _ => Nat.le_refl _, by simp [resetHeaders],
      by simp [resetHeaders]⟩, rfl, Nat.two_pos⟩
  unfold getMessage
  rw [if_pos hready]
  split
  · exact hreset _
  · exact hreset _

end Hybi13

/-- **The processor is such a reader.** -/
theorem frameReader_lawful : frameReader.Lawful Hybi13.Wf Hybi13.rank 2 where
  rank_le p := by
    unfold Hybi13.rank
    split <;> omega
  absorb_nil _ h := h.absorb_nil
  absorb_append _ _ _ h hle := h.absorb_append hle
  absorb_ok p p' xs h hready hle habsorb := by
    obtain ⟨hwf, hstate, hneeded⟩ := Hybi13.absorb_ok h hready hle habsorb
    refine ⟨hwf, ?_, hneeded, ?_⟩
    · exact Hybi13.isReady_eq_false_iff.mpr (hstate ▸ Hybi13.isReady_eq_false_iff.mp hready)
    · rw [Hybi13.rank, Hybi13.rank, hstate]
  finish_ok _ _ h hready _ hfinish := Hybi13.finish_ok h hready hfinish
  take_ok _ _ hready := Hybi13.getMessage_ok hready

/-! ## The loop of `consume` -/

namespace Hybi13

variable {p : Hybi13}

/-- The loop of `consume` goes on when the staged reader does. -/
theorem wantsBytes_eq (h : p.Wf) (buf : List UInt8) :
    wantsBytes (p, buf) = frameReader.wants (p, buf) := by
  have hfatal : decide (p.state ≠ .fatalError) = true := decide_eq_true h.reads.2
  show (decide (p.state ≠ .ready) && decide (p.state ≠ .fatalError) && _) =
    (!decide (p.state = .ready) && _)
  rw [hfatal, Bool.and_true, decide_not]
  rfl

/-- The bytes of the basic header are taken off the front of the buffer. -/
theorem copyBasicHeaderBytes_eq (hbasic : p.bytesNeeded ≤ 2) (buf : List UInt8) :
    p.copyBasicHeaderBytes buf =
      ((p.copyBasicHeaderBytes (buf.take p.bytesNeeded)).1, buf.drop p.bytesNeeded) := by
  obtain hzero | hone | htwo : p.bytesNeeded = 0 ∨ p.bytesNeeded = 1 ∨ p.bytesNeeded = 2 := by
    omega
  · rw [hzero, List.take_zero, List.drop_zero, copyBasicHeaderBytes_nil]
    exact if_pos (.inr hzero)
  · cases buf with
    | nil => rw [List.take_nil, List.drop_nil, copyBasicHeaderBytes_nil]
    | cons b rest =>
        rw [copyBasicHeaderBytes_last hone, hone, List.take_succ_cons, List.take_zero,
          copyBasicHeaderBytes_last hone, List.drop_succ_cons, List.drop_zero]
  · match buf with
    | [] => rw [List.take_nil, List.drop_nil, copyBasicHeaderBytes_nil]
    | [b] =>
        rw [htwo]
        show _ = ((p.copyBasicHeaderBytes [b]).1, [])
        rw [copyBasicHeaderBytes_first htwo]
    | b :: c :: rest =>
        rw [htwo, copyBasicHeaderBytes_both htwo]
        show _ = ((p.copyBasicHeaderBytes [b, c]).1, rest)
        rw [copyBasicHeaderBytes_both htwo]

/-- A list has no more elements than its length. -/
theorem take_min_length {α : Type*} (n : ℕ) (buf : List α) :
    buf.take (min n buf.length) = buf.take n := by
  rw [← List.take_take, List.take_length]

/-- Nor has it more to drop. -/
theorem drop_min_length {α : Type*} (n : ℕ) (buf : List α) :
    buf.drop (min n buf.length) = buf.drop n := by
  rcases Nat.le_total n buf.length with h | h
  · rw [Nat.min_eq_left h]
  · rw [Nat.min_eq_right h, List.drop_length, List.drop_eq_nil_of_le h]

/-- Only the bytes that are needed are copied. -/
theorem copyExtendedHeaderBytes_eq (buf : List UInt8) : p.copyExtendedHeaderBytes buf =
    ((p.copyExtendedHeaderBytes (buf.take p.bytesNeeded)).1, buf.drop p.bytesNeeded) := by
  have hlength : (buf.take p.bytesNeeded).length = min p.bytesNeeded buf.length :=
    List.length_take
  rw [copyExtendedHeaderBytes_of_le (by omega), hlength, copyExtendedHeaderBytes]
  simp only [take_min_length, drop_min_length]

/-- **The body of the loop** takes in what there is and ends the stage if it lacks nothing more. -/
theorem consumePass_eq (h : p.Wf) (hready : p.isReady = false) (buf : List UInt8) :
    consumePass (p, buf) = frameReader.pass (p, buf) := by
  have hnot := isReady_eq_false_iff.mp hready
  have htake : (buf.take p.bytesNeeded).length ≤ p.bytesNeeded := by
    rw [List.length_take]
    exact Nat.min_le_left ..
  show _ = (p.absorb (buf.take p.bytesNeeded)).bind fun q =>
    if 0 < q.bytesNeeded then .ok (q, buf.drop p.bytesNeeded)
    else q.finish.map fun q' => (q', buf.drop p.bytesNeeded)
  cases hstate : p.state with
  | headerBasic =>
      obtain ⟨header, hq⟩ := copyBasicHeaderBytes_spec (h.basic hstate) htake
      unfold consumePass absorb finish
      simp only [hstate]
      rw [copyBasicHeaderBytes_eq (h.basic hstate), hq]
      simp only [Except.bind, hstate]
      split_ifs
      · rfl
      · cases validateIncomingBasicHeader header p.server p.dataMsg.isNone <;> rfl
  | headerExtended =>
      unfold consumePass absorb finish
      simp only [hstate]
      rw [copyExtendedHeaderBytes_eq, copyExtendedHeaderBytes_of_le htake]
      simp only [Except.bind, hstate]
      split_ifs
      · rfl
      · cases validateIncomingExtendedHeader p.basicHeader
          (p.extendedHeader.copyTo p.cursor (buf.take p.bytesNeeded)) <;> rfl
  | application =>
      have hprocess : (if 0 < min p.bytesNeeded buf.length then
          p.processPayloadBytes (buf.take (min p.bytesNeeded buf.length)) else .ok p) =
            p.absorb (buf.take p.bytesNeeded) := by
        split_ifs with hsome
        · rw [take_min_length, absorb, hstate]
        · have hnone : buf.take p.bytesNeeded = [] := by
            rw [← take_min_length, Nat.eq_zero_of_not_pos hsome, List.take_zero]
          rw [hnone, h.absorb_nil]
      unfold consumePass
      simp only [hstate]
      rw [hprocess]
      cases habsorb : p.absorb (buf.take p.bytesNeeded) with
      | error e => rfl
      | ok q =>
          have hqstate := (absorb_ok h hready htake habsorb).2.1.trans hstate
          simp only [Except.bind, drop_min_length, finish, hqstate]
          split_ifs <;> rfl
  | ready => exact absurd hstate hnot
  | extension => exact absurd hstate h.reads.1
  | fatalError => exact absurd hstate h.reads.2

/-- **The loop** is that of the reader. -/
theorem consume_eq (h : p.Wf) (buf : List UInt8) :
    p.consume buf = frameReader.consume (enough 2 buf.length) p buf := by
  refine (frameReader_lawful.descends buf.length).run_congr ?_ ?_ ⟨h, Nat.le_refl _⟩ _
  · rintro ⟨q, rest⟩ ⟨hq, -⟩
    exact wantsBytes_eq hq rest
  · rintro ⟨q, rest⟩ ⟨hq, -⟩ hwants
    exact consumePass_eq hq (wants_iff.mp hwants).1 rest

/-- **The loop of `handle_read_frame`** is that of the reader. -/
theorem readMessages_eq (h : frameReader.Waits Wf p) (buf : List UInt8) (fuel : ℕ) :
    p.readMessages fuel buf = frameReader.receive 2 fuel p buf := by
  induction fuel generalizing p buf with
  | zero => rfl
  | succ fuel ih =>
      unfold readMessages StagedReader.receive
      by_cases hbuf : buf = []
      · rw [hbuf]
        rfl
      · rw [if_neg (by simpa using hbuf), if_neg (by simpa using hbuf), consume_eq h.good]
        cases hconsume : frameReader.consume (enough 2 buf.length) p buf with
        | error ec => rfl
        | ok s =>
            obtain ⟨q, rest⟩ := s
            obtain ⟨-, hready, hnot⟩ := frameReader_lawful.consume_waits h hbuf hconsume
            show (if q.isReady then _ else _) = if q.isReady then _ else _
            split_ifs with hq
            · have hwaits : frameReader.Waits Wf q.getMessage.2 := hready hq
              simp only
              rw [ih hwaits]
              rfl
            · exact ih (hnot (Bool.eq_false_iff.mpr hq)).2 rest

/-- So are the reads of the transport. -/
theorem readParts_eq (h : frameReader.Waits Wf p) (parts : List (List UInt8)) :
    p.readParts parts = frameReader.receiveAll 2 p parts := by
  induction parts generalizing p with
  | nil => rfl
  | cons part parts ih =>
      unfold readParts StagedReader.receiveAll
      rw [readMessages_eq h]
      cases hread : frameReader.receive 2 part.length p part with
      | mk msgs result =>
          cases result with
          | error ec => rfl
          | ok q =>
              simp only
              rw [ih (frameReader_lawful.waits_of_receive h (by rw [hread]))]
              rfl

end Hybi13

end BrowCast.WebSocket
