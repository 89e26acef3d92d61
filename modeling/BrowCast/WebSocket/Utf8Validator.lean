import BrowCast.Encodings.Utf8

/-! # Validation of UTF-8 in a stream

The table-driven decoder of `utf8_validator.hpp`: what it has read of a sequence is one of nine
states. It accepts the encodings of characters and nothing else, and stops at the first byte that
cannot continue one. -/

namespace BrowCast.WebSocket

/-- What has been read is valid. -/
def utf8Accept : ℕ := 0

/-- What has been read is invalid. -/
def utf8Reject : ℕ := 1

/-- The lookup table: the classes of the bytes, and from 256 on the next state of each state for
each class. -/
def utf8d : List ℕ :=
  [0,0,0,0,0,0,0,0,0,0,0,0,0,0,0,0,0,0,0,0,0,0,0,0,0,0,0,0,0,0,0,0,
   0,0,0,0,0,0,0,0,0,0,0,0,0,0,0,0,0,0,0,0,0,0,0,0,0,0,0,0,0,0,0,0,
   0,0,0,0,0,0,0,0,0,0,0,0,0,0,0,0,0,0,0,0,0,0,0,0,0,0,0,0,0,0,0,0,
   0,0,0,0,0,0,0,0,0,0,0,0,0,0,0,0,0,0,0,0,0,0,0,0,0,0,0,0,0,0,0,0,
   1,1,1,1,1,1,1,1,1,1,1,1,1,1,1,1,9,9,9,9,9,9,9,9,9,9,9,9,9,9,9,9,
   7,7,7,7,7,7,7,7,7,7,7,7,7,7,7,7,7,7,7,7,7,7,7,7,7,7,7,7,7,7,7,7,
   8,8,2,2,2,2,2,2,2,2,2,2,2,2,2,2,2,2,2,2,2,2,2,2,2,2,2,2,2,2,2,2,
   0xa,0x3,0x3,0x3,0x3,0x3,0x3,0x3,0x3,0x3,0x3,0x3,0x3,0x4,0x3,0x3,
   0xb,0x6,0x6,0x6,0x5,0x8,0x8,0x8,0x8,0x8,0x8,0x8,0x8,0x8,0x8,0x8,
   0x0,0x1,0x2,0x3,0x5,0x8,0x7,0x1,0x1,0x1,0x4,0x6,0x1,0x1,0x1,0x1,
   1,1,1,1,1,1,1,1,1,1,1,1,1,1,1,1,1,0,1,1,1,1,1,0,1,0,1,1,1,1,1,1,
   1,2,1,1,1,1,1,2,1,2,1,1,1,1,1,1,1,1,1,1,1,1,1,2,1,1,1,1,1,1,1,1,
   1,2,1,1,1,1,1,1,1,2,1,1,1,1,1,1,1,1,1,1,1,1,1,3,1,3,1,1,1,1,1,1,
   1,3,1,1,1,1,1,3,1,3,1,1,1,1,1,1,1,3,1,1,1,1,1,1,1,1,1,1,1,1,1,1]

/-- The class of a byte. -/
def byteType (byte : UInt8) : ℕ := utf8d.getD byte.toNat 0

/-- The next state. -/
def nextState (state : ℕ) (byte : UInt8) : ℕ := utf8d.getD (256 + state * 16 + byteType byte) 0

/-- The next code point, of 32 bits. -/
def nextCodepoint (state codep : ℕ) (byte : UInt8) : ℕ :=
  if state ≠ utf8Accept then byte.toNat &&& 0x3f ||| codep <<< 6 % 0x100000000
  else 0xff >>> byteType byte &&& byte.toNat

/-- The class `validator`. -/
structure Validator where
  state : ℕ := utf8Accept
  codepoint : ℕ := 0
  deriving DecidableEq

namespace Validator

/-- One call of the function `decode`. -/
def next (v : Validator) (byte : UInt8) : Validator where
  state := nextState v.state byte
  codepoint := nextCodepoint v.state v.codepoint byte

/-- The method `decode`: whether no byte was refused. It stops at the first one that is. -/
def decode (v : Validator) : List UInt8 → Validator × Bool
  | [] => (v, true)
  | byte :: rest =>
      if (v.next byte).state = utf8Reject then (v.next byte, false) else (v.next byte).decode rest

/-- Whether the input ended after a character. -/
def complete (v : Validator) : Bool := v.state = utf8Accept

end Validator

/-- Whether the bytes are valid. -/
def validate (s : List UInt8) : Bool :=
  (Validator.decode {} s).2 && (Validator.decode {} s).1.complete

/-! ## The rows of the table -/

/-- The classes of the bytes, by their bounds. -/
def classOf (n : ℕ) : ℕ :=
  if n < 0x80 then 0 else if n < 0x90 then 1 else if n < 0xA0 then 9 else if n < 0xC0 then 7
  else if n < 0xC2 then 8 else if n < 0xE0 then 2 else if n = 0xE0 then 10 else if n = 0xED then 4
  else if n < 0xF0 then 3 else if n = 0xF0 then 11 else if n < 0xF4 then 6
  else if n = 0xF4 then 5 else 8

/-- The state after a first byte. -/
def leadState (n : ℕ) : ℕ :=
  if n < 0x80 then 0 else if n < 0xC2 then 1 else if n < 0xE0 then 2 else if n = 0xE0 then 4
  else if n = 0xED then 5 else if n < 0xF0 then 3 else if n = 0xF0 then 6 else if n < 0xF4 then 7
  else if n = 0xF4 then 8 else 1

/-- A state inside a sequence: the bounds of the byte it waits for, the classes of the bytes
between them, and the state after it. -/
structure Row where
  state : ℕ
  lower : ℕ
  upper : ℕ
  classes : List ℕ
  after : ℕ

/-- The states inside a sequence, as the table has them. -/
def rows : List Row :=
  [⟨2, 0x80, 0xBF, [1, 9, 7], 0⟩, ⟨3, 0x80, 0xBF, [1, 9, 7], 2⟩, ⟨4, 0xA0, 0xBF, [7], 2⟩,
    ⟨5, 0x80, 0x9F, [1, 9], 2⟩, ⟨6, 0x90, 0xBF, [9, 7], 3⟩, ⟨7, 0x80, 0xBF, [1, 9, 7], 3⟩,
    ⟨8, 0x80, 0x8F, [1], 3⟩]

/-- The class of a byte in the table. -/
theorem byteType_ofNat : ∀ n < 256, byteType (UInt8.ofNat n) = classOf n := by decide +kernel

/-- The state after a first byte in the table. -/
theorem utf8d_accept : ∀ n < 256,
    classOf n < 12 ∧ utf8d.getD (256 + utf8Accept * 16 + classOf n) 0 = leadState n := by
  decide +kernel

/-- The state after a further byte in the table. -/
theorem utf8d_row : ∀ r ∈ rows, ∀ c < 12, utf8d.getD (256 + r.state * 16 + c) 0 =
    if c ∈ r.classes then r.after else utf8Reject := by
  decide +kernel

/-- The classes of a row are those of the bytes between its bounds. -/
theorem classOf_mem_iff : ∀ r ∈ rows, ∀ n < 256,
    classOf n ∈ r.classes ↔ r.lower ≤ n ∧ n ≤ r.upper := by
  decide +kernel

/-- The class of a byte. -/
theorem byteType_eq (byte : UInt8) : byteType byte = classOf byte.toNat := by
  have h := byteType_ofNat byte.toNat byte.toNat_lt
  rwa [UInt8.ofNat_toNat] at h

/-- The state after a first byte. -/
theorem nextState_accept (byte : UInt8) : nextState utf8Accept byte = leadState byte.toNat := by
  rw [nextState, byteType_eq]
  exact (utf8d_accept _ byte.toNat_lt).2

/-- The state after a further byte: that of the row, or the reject state. -/
theorem nextState_row {r : Row} (hr : r ∈ rows) (byte : UInt8) : nextState r.state byte =
    if r.lower ≤ byte.toNat ∧ byte.toNat ≤ r.upper then r.after else utf8Reject := by
  rw [nextState, byteType_eq, utf8d_row r hr _ (utf8d_accept _ byte.toNat_lt).1]
  exact if_congr (classOf_mem_iff r hr _ byte.toNat_lt) rfl rfl

/-! ## What is accepted -/

/-- Whether the bytes lead from a state to the accepting one, without the rejecting one. -/
def accepts (state : ℕ) : List UInt8 → Bool
  | [] => state = utf8Accept
  | byte :: rest => nextState state byte ≠ utf8Reject && accepts (nextState state byte) rest

/-- A decoded text is complete when the automaton accepts it. -/
theorem Validator.decode_complete (v : Validator) (s : List UInt8) :
    ((v.decode s).2 && (v.decode s).1.complete) = accepts v.state s := by
  induction s generalizing v with
  | nil => rfl
  | cons byte rest ih =>
      have hnext : (v.next byte).state = nextState v.state byte := rfl
      rw [decode, accepts, hnext]
      by_cases hreject : nextState v.state byte = utf8Reject
      · rw [if_pos hreject, Bool.false_and, decide_eq_false (not_not_intro hreject), Bool.false_and]
      · rw [if_neg hreject, ih, decide_eq_true hreject, Bool.true_and, hnext]

/-- `validate` runs the automaton from its accepting state. -/
theorem validate_eq (s : List UInt8) : validate s = accepts utf8Accept s :=
  Validator.decode_complete {} s

/-- The automaton accepts a byte and a rest when it does not reject the byte and accepts the rest.
-/
theorem accepts_cons {state : ℕ} {byte : UInt8} {rest : List UInt8} :
    accepts state (byte :: rest) ↔
      nextState state byte ≠ utf8Reject ∧ accepts (nextState state byte) rest := by
  rw [accepts, Bool.and_eq_true, decide_eq_true_eq]

/-- Inside a sequence, a byte within the bounds must come. -/
theorem accepts_row {r : Row} (hr : r ∈ rows) {s : List UInt8} : accepts r.state s ↔
    ∃ byte rest, s = byte :: rest ∧ (r.lower ≤ byte.toNat ∧ byte.toNat ≤ r.upper) ∧
      accepts r.after rest := by
  have hstate : r.state ≠ utf8Accept ∧ r.after ≠ utf8Reject := by
    revert r
    decide
  cases s with
  | nil => simp [accepts, hstate.1]
  | cons byte rest =>
      rw [accepts_cons, nextState_row hr]
      constructor
      · rintro ⟨hnot, hrest⟩
        by_cases hbounds : r.lower ≤ byte.toNat ∧ byte.toNat ≤ r.upper
        · rw [if_pos hbounds] at hrest
          exact ⟨byte, rest, rfl, hbounds, hrest⟩
        · rw [if_neg hbounds] at hnot
          exact absurd rfl hnot
      · rintro ⟨_, _, heq, hbounds, hrest⟩
        cases heq
        rw [if_pos hbounds]
        exact ⟨hstate.2, hrest⟩

/-- A byte of a sequence after the first two. -/
def IsTail (byte : UInt8) : Prop := 0x80 ≤ byte.toNat ∧ byte.toNat ≤ 0xBF

/-- With one byte to come, a tail byte has to follow. -/
theorem accepts_two {s : List UInt8} : accepts 2 s ↔
    ∃ byte rest, s = byte :: rest ∧ IsTail byte ∧ accepts utf8Accept rest :=
  accepts_row (r := ⟨2, 0x80, 0xBF, [1, 9, 7], 0⟩) (by simp [rows])

/-- With two bytes to come, two have to. -/
theorem accepts_three {s : List UInt8} : accepts 3 s ↔
    ∃ byte rest, s = byte :: rest ∧ IsTail byte ∧ accepts 2 rest :=
  accepts_row (r := ⟨3, 0x80, 0xBF, [1, 9, 7], 2⟩) (by simp [rows])

/-- The first bytes of two-byte sequences. -/
theorem leadState_two {n : ℕ} (hn : 0xC2 ≤ n) (hn' : n < 0xE0) : leadState n = 2 := by
  rw [leadState, if_neg (by omega), if_neg (by omega), if_pos hn']

/-- After the first byte of three, the table asks of the second one what a character does. -/
theorem leadState_three {n : ℕ} (hn : 0xE0 ≤ n) (hn' : n < 0xF0) : ∃ r ∈ rows,
    leadState n = r.state ∧ r.after = 2 ∧ ∀ m, r.lower ≤ m ∧ m ≤ r.upper ↔
      (0x80 ≤ m ∧ m ≤ 0xBF) ∧ (n = 0xE0 → 0xA0 ≤ m) ∧ (n = 0xED → m ≤ 0x9F) := by
  rw [leadState, if_neg (by omega), if_neg (by omega), if_neg (by omega)]
  split_ifs with hE0 hED
  · exact ⟨⟨4, 0xA0, 0xBF, [7], 2⟩, by simp [rows], rfl, rfl, by simp only; omega⟩
  · exact ⟨⟨5, 0x80, 0x9F, [1, 9], 2⟩, by simp [rows], rfl, rfl, by simp only; omega⟩
  · exact ⟨⟨3, 0x80, 0xBF, [1, 9, 7], 2⟩, by simp [rows], rfl, rfl, by simp only; omega⟩

/-- After the first byte of four. -/
theorem leadState_four {n : ℕ} (hn : 0xF0 ≤ n) (hn' : n < 0xF5) : ∃ r ∈ rows,
    leadState n = r.state ∧ r.after = 3 ∧ ∀ m, r.lower ≤ m ∧ m ≤ r.upper ↔
      (0x80 ≤ m ∧ m ≤ 0xBF) ∧ (n = 0xF0 → 0x90 ≤ m) ∧ (n = 0xF4 → m ≤ 0x8F) := by
  rw [leadState, if_neg (by omega), if_neg (by omega), if_neg (by omega), if_neg (by omega),
    if_neg (by omega), if_neg (by omega)]
  split_ifs with hF0 hF3 hF4
  · exact ⟨⟨6, 0x90, 0xBF, [9, 7], 3⟩, by simp [rows], rfl, rfl, by simp only; omega⟩
  · exact ⟨⟨7, 0x80, 0xBF, [1, 9, 7], 3⟩, by simp [rows], rfl, rfl, by simp only; omega⟩
  · exact ⟨⟨8, 0x80, 0x8F, [1], 3⟩, by simp [rows], rfl, rfl, by simp only; omega⟩
  · omega

/-- The other bytes begin no character. -/
theorem leadState_reject {n : ℕ} (hn : 0x80 ≤ n ∧ n < 0xC2 ∨ 0xF5 ≤ n) :
    leadState n = utf8Reject := by
  unfold leadState
  split_ifs <;> first | rfl | omega

section Characters

variable {a b : UInt8} {s : List UInt8}

/-- A byte below `0x80` is a character. -/
theorem accepts_of_one (ha : a.toNat < 0x80) :
    accepts utf8Accept (a :: s) ↔ accepts utf8Accept s := by
  have hlead : leadState a.toNat = utf8Accept := if_pos ha
  rw [accepts_cons, nextState_accept, hlead]
  exact and_iff_right (by decide)

/-- A first byte of a two-byte sequence waits for one byte. -/
theorem accepts_of_two (ha : 0xC2 ≤ a.toNat) (ha' : a.toNat < 0xE0) :
    accepts utf8Accept (a :: s) ↔ accepts 2 s := by
  rw [accepts_cons, nextState_accept, leadState_two ha ha']
  exact and_iff_right (by decide)

/-- The two bytes at the front of a sequence of three or four. -/
theorem accepts_of_lead {r : Row} (hr : r ∈ rows) (hlead : leadState a.toNat = r.state) :
    accepts utf8Accept (a :: s) ↔ ∃ byte rest, s = byte :: rest ∧
      (r.lower ≤ byte.toNat ∧ byte.toNat ≤ r.upper) ∧ accepts r.after rest := by
  have hstate : ∀ r ∈ rows, r.state ≠ utf8Reject := by decide
  rw [accepts_cons, nextState_accept, hlead, accepts_row hr]
  exact and_iff_right (hstate r hr)

end Characters

/-- What is accepted begins with a character. -/
theorem exists_char_of_accepts {a : UInt8} {s : List UInt8} (h : accepts utf8Accept (a :: s)) :
    ∃ x rest, a :: s = String.utf8EncodeChar x ++ rest ∧ accepts utf8Accept rest := by
  by_cases hone : a.toNat < 0x80
  · obtain ⟨x, hx⟩ := Utf8.exists_encodeChar_one hone
    exact ⟨x, s, by rw [hx]; rfl, (accepts_of_one hone).mp h⟩
  have hbounds : 0xC2 ≤ a.toNat ∧ a.toNat < 0xF5 := by
    by_contra hbounds
    rw [accepts_cons, nextState_accept] at h
    exact h.1 (leadState_reject (by omega))
  by_cases htwo : a.toNat < 0xE0
  · obtain ⟨b, rest, rfl, hb, hrest⟩ := accepts_two.mp ((accepts_of_two hbounds.1 htwo).mp h)
    obtain ⟨x, hx⟩ := Utf8.exists_encodeChar_two hbounds.1 htwo hb
    exact ⟨x, rest, by rw [hx]; rfl, hrest⟩
  by_cases hthree : a.toNat < 0xF0
  · obtain ⟨r, hr, hlead, hafter, hiff⟩ := leadState_three (by omega) hthree
    obtain ⟨b, rest, rfl, hb, hrest⟩ := (accepts_of_lead hr hlead).mp h
    obtain ⟨htail, hshort, hsurrogate⟩ := (hiff _).mp hb
    rw [hafter] at hrest
    obtain ⟨c, rest, rfl, hc, hrest⟩ := accepts_two.mp hrest
    obtain ⟨x, hx⟩ := Utf8.exists_encodeChar_three (by omega) hthree htail hshort hsurrogate hc
    exact ⟨x, rest, by rw [hx]; rfl, hrest⟩
  · obtain ⟨r, hr, hlead, hafter, hiff⟩ := leadState_four (by omega) hbounds.2
    obtain ⟨b, rest, rfl, hb, hrest⟩ := (accepts_of_lead hr hlead).mp h
    obtain ⟨htail, hshort, hlast⟩ := (hiff _).mp hb
    rw [hafter] at hrest
    obtain ⟨c, rest, rfl, hc, hrest⟩ := accepts_three.mp hrest
    obtain ⟨d, rest, rfl, hd, hrest⟩ := accepts_two.mp hrest
    obtain ⟨x, hx⟩ := Utf8.exists_encodeChar_four (by omega) hbounds.2 htail hshort hlast hc hd
    exact ⟨x, rest, by rw [hx]; rfl, hrest⟩

/-- The bytes of a character are accepted. -/
theorem accepts_encodeChar (x : Char) {s : List UInt8} (h : accepts utf8Accept s) :
    accepts utf8Accept (String.utf8EncodeChar x ++ s) := by
  have hvalid := Utf8.toNat_valid x
  rw [Utf8.utf8EncodeChar_eq]
  -- the number of each byte
  have hnat : ∀ {n : ℕ}, n < 256 → (UInt8.ofNat n).toNat = n := Utf8.toNat_ofNat_of_lt
  split_ifs with hone htwo hthree
  · exact (accepts_of_one (by rwa [hnat (by omega)])).mpr h
  · refine (accepts_of_two ?_ ?_).mpr (accepts_two.mpr ⟨_, _, rfl, ?_, h⟩)
    · rw [hnat (by omega)]
      omega
    · rw [hnat (by omega)]
      omega
    · rw [IsTail, hnat (by omega)]
      omega
  · obtain ⟨r, hr, hlead, hafter, hiff⟩ :=
      leadState_three (n := x.toNat / 4096 + 0xE0) (by omega) (by omega)
    refine (accepts_of_lead hr (by rw [hnat (by omega), hlead])).mpr ⟨_, _, rfl, ?_, ?_⟩
    · rw [hiff, hnat (by omega)]
      omega
    · rw [hafter]
      refine accepts_two.mpr ⟨_, _, rfl, ?_, h⟩
      rw [IsTail, hnat (by omega)]
      omega
  · obtain ⟨r, hr, hlead, hafter, hiff⟩ :=
      leadState_four (n := x.toNat / 262144 + 0xF0) (by omega) (by omega)
    refine (accepts_of_lead hr (by rw [hnat (by omega), hlead])).mpr ⟨_, _, rfl, ?_, ?_⟩
    · rw [hiff, hnat (by omega)]
      omega
    · rw [hafter]
      refine accepts_three.mpr ⟨_, _, rfl, ?_, accepts_two.mpr ⟨_, _, rfl, ?_, h⟩⟩
      · rw [IsTail, hnat (by omega)]
        omega
      · rw [IsTail, hnat (by omega)]
        omega

/-- **What is accepted are the encodings of characters.** -/
theorem accepts_iff (s : List UInt8) : accepts utf8Accept s ↔ ∃ cs, s = Utf8.encode cs := by
  constructor
  · intro h
    induction hlength : s.length using Nat.strongRecOn generalizing s with
    | ind length ih =>
        cases s with
        | nil => exact ⟨[], rfl⟩
        | cons a s =>
            obtain ⟨x, rest, heq, hrest⟩ := exists_char_of_accepts h
            have hshorter : rest.length < length := by
              have hpos := String.utf8EncodeChar_ne_nil (c := x)
              have hlen := congrArg List.length heq
              rw [List.length_append] at hlen
              have := List.length_pos_iff.mpr hpos
              omega
            obtain ⟨cs, rfl⟩ := ih _ hshorter _ hrest rfl
            exact ⟨x :: cs, heq⟩
  · rintro ⟨cs, rfl⟩
    induction cs with
    | nil => rfl
    | cons x cs ih => exact accepts_encodeChar x ih

/-! ## In parts -/

/-- The states that are not rejecting. -/
def IsOpen (state : ℕ) : Prop := state = utf8Accept ∨ ∃ r ∈ rows, state = r.state

/-- The table leads to no other states. -/
theorem isOpen_nextState {state : ℕ} (h : IsOpen state) (byte : UInt8)
    (hnot : nextState state byte ≠ utf8Reject) : IsOpen (nextState state byte) := by
  have hafter : ∀ r ∈ rows, r.after = utf8Accept ∨ ∃ r' ∈ rows, r.after = r'.state := by decide
  rcases h with rfl | ⟨r, hr, rfl⟩
  · rw [nextState_accept] at hnot ⊢
    have hlead : ∀ n < 256, leadState n = utf8Reject ∨ leadState n = utf8Accept ∨
        ∃ r ∈ rows, leadState n = r.state := by decide +kernel
    exact (hlead _ byte.toNat_lt).resolve_left hnot
  · rw [nextState_row hr] at hnot ⊢
    split_ifs at hnot ⊢
    · exact hafter r hr
    · exact absurd rfl hnot

/-- From every one of them the sequence can be completed. -/
theorem exists_completion {state : ℕ} (h : IsOpen state) : ∃ more, accepts state more := by
  have hrows : ∀ r ∈ rows,
      accepts r.state (UInt8.ofNat r.lower :: List.replicate (r.after - 1) 0x80) := by
    decide +kernel
  rcases h with rfl | ⟨r, hr, rfl⟩
  · exact ⟨[], rfl⟩
  · exact ⟨_, hrows r hr⟩

namespace Validator

/-- Decoding goes on where it has stopped, unless it has failed. -/
theorem decode_append (v : Validator) (s t : List UInt8) :
    v.decode (s ++ t) = if (v.decode s).2 then (v.decode s).1.decode t else v.decode s := by
  induction s generalizing v with
  | nil => rfl
  | cons byte s ih =>
      rw [List.cons_append, decode, decode]
      by_cases hreject : (v.next byte).state = utf8Reject
      · rw [if_pos hreject, if_pos hreject]
        rfl
      · rw [if_neg hreject, if_neg hreject, ih]

/-- Decoding stays inside the states of the table. -/
theorem isOpen_decode (v : Validator) (h : IsOpen v.state) (s : List UInt8)
    (hs : (v.decode s).2 = true) : IsOpen (v.decode s).1.state := by
  induction s generalizing v with
  | nil => exact h
  | cons byte s ih =>
      rw [decode] at hs ⊢
      split_ifs at hs ⊢ with hreject
      exact ih _ (isOpen_nextState h byte hreject) hs

/-- No byte is refused as long as more bytes could be accepted. -/
theorem decode_iff (v : Validator) (h : IsOpen v.state) (s : List UInt8) :
    (v.decode s).2 = true ↔ ∃ more, accepts v.state (s ++ more) := by
  constructor
  · intro hs
    obtain ⟨more, hmore⟩ := exists_completion (v.isOpen_decode h s hs)
    refine ⟨more, ?_⟩
    rw [← decode_complete, decode_append, if_pos hs, decode_complete]
    exact hmore
  · rintro ⟨more, hmore⟩
    rw [← decode_complete, decode_append] at hmore
    split_ifs at hmore with hs
    · exact hs
    · rw [Bool.and_eq_true] at hmore
      exact absurd hmore.1 hs

/-- The method `decode` for one part after the other, as long as none is refused. -/
def decodeParts (v : Validator) : List (List UInt8) → Validator × Bool
  | [] => (v, true)
  | s :: parts => if (v.decode s).2 then (v.decode s).1.decodeParts parts else v.decode s

/-- Decoding in parts is decoding the whole. -/
theorem decodeParts_eq (v : Validator) (parts : List (List UInt8)) :
    v.decodeParts parts = v.decode parts.flatten := by
  induction parts generalizing v with
  | nil => rfl
  | cons s parts ih => rw [decodeParts, List.flatten_cons, decode_append, ih]

end Validator

/-- `validate` accepts exactly the encodings of lists of scalar values. -/
theorem validate_iff (s : List UInt8) : validate s = true ↔ ∃ cs, s = Utf8.encode cs := by
  rw [validate_eq, accepts_iff]

/-- **The validator is exact, in parts of any size.** No part is refused exactly as long as what has
come can be continued to the encoding of characters, and it is complete exactly if it is one. -/
theorem validator_exact (parts : List (List UInt8)) :
    ((Validator.decodeParts {} parts).2 = true ↔
        ∃ more cs, parts.flatten ++ more = Utf8.encode cs) ∧
      ((Validator.decodeParts {} parts).2 = true ∧
          (Validator.decodeParts {} parts).1.complete = true ↔
        ∃ cs, parts.flatten = Utf8.encode cs) := by
  rw [Validator.decodeParts_eq]
  constructor
  · rw [Validator.decode_iff _ (.inl rfl)]
    exact exists_congr fun more => accepts_iff _
  · rw [← Bool.and_eq_true, Validator.decode_complete]
    exact accepts_iff _

end BrowCast.WebSocket
