import BrowCast.CPlusPlus.Int32
import Mathlib.Data.List.TakeWhile

/-! # Reading an `int` from an input stream

An input stream holds the characters that are left and the flags `eofbit` and `failbit`. Formatted
extraction skips white space, line ends included, and takes the integer it finds there; `ignore`
takes the rest of a line. A prompt that rejects an answer discards the line and asks again
(`readUntil`): it ends exactly when one of the lines offers an acceptable integer. -/

namespace BrowCast

/-- `std::istream`: the characters left, and two of its flags. -/
structure IStream where
  rest : List Char
  eofbit : Bool := false
  failbit : Bool := false

namespace IStream

/-! ## Extraction -/

/-- `good()`. -/
def good (s : IStream) : Bool := !s.eofbit && !s.failbit

/-- `clear()`. -/
def clear (s : IStream) : IStream := { rest := s.rest }

/-- `ignore(max, '\n')`: the rest of the line, with its end. -/
def ignoreLine (s : IStream) : IStream :=
  if s.good then
    match s.rest.dropWhile (· != '\n') with
    | [] => { rest := [], eofbit := true }
    | _ :: cs => { rest := cs }
  else { s with failbit := true }

/-- `isspace`. -/
def isSpace (c : Char) : Bool := c == ' ' || (9 ≤ c.toNat && c.toNat ≤ 13)

/-- The sign at the front, and what follows it. -/
def scanSign : List Char → ℤ × List Char
  | '-' :: cs => (-1, cs)
  | '+' :: cs => (1, cs)
  | cs => (1, cs)

/-- The value of a text of digits. -/
def decimal (digits : List Char) : ℕ :=
  digits.foldl (fun n d => 10 * n + (d.toNat - '0'.toNat)) 0

/-- The integer at the front, of any size, if there are digits; and what follows it. -/
def scanInt (cs : List Char) : Option ℤ × List Char :=
  let (sign, cs) := scanSign cs
  let digits := cs.takeWhile Char.isDigit
  (if digits.isEmpty then none else some (sign * decimal digits), cs.dropWhile Char.isDigit)

/-- What extraction stores for the integer it found, before the characters `rest`. -/
def stored (rest : List Char) : Option ℤ → ℤ × IStream
  | none => (0, { rest, eofbit := rest.isEmpty, failbit := true })
  | some v =>
      -- a value out of range is replaced by the nearest `int`
      if v < -2147483648 then (-2147483648, { rest, eofbit := rest.isEmpty, failbit := true })
      else if 2147483647 < v then (2147483647, { rest, eofbit := rest.isEmpty, failbit := true })
      else (v, { rest, eofbit := rest.isEmpty })

/-- `*this >> n`: the value of `n` after it, and the stream. -/
def extractInt (n : ℤ) (s : IStream) : ℤ × IStream :=
  if s.good then
    match s.rest.dropWhile isSpace with
    | [] => (n, { rest := [], eofbit := true, failbit := true })
    | c :: cs => stored (scanInt (c :: cs)).2 (scanInt (c :: cs)).1
  else (n, { s with failbit := true })

/-- `while (!(*this >> n) || !accepts(n)) { clear(); ignore(max, '\n'); }`, for as many rounds as
there is fuel. -/
def readUntil (accepts : ℤ → Bool) : ℕ → ℤ → IStream → Option (ℤ × IStream)
  | 0, _, _ => none
  | fuel + 1, n, s =>
      let (n, s) := s.extractInt n
      if s.failbit || !accepts n then readUntil accepts fuel n s.clear.ignoreLine else some (n, s)

/-! ## Lines -/

/-- The integer a line starts with, after white space. -/
def lineInt (line : List Char) : Option ℤ := (scanInt (line.dropWhile isSpace)).1

/-- The lines that are still to be read; a stream that is not good loses one to the next
`ignore`. -/
def lines (s : IStream) : List (List Char) :=
  if s.good then s.rest.splitOn '\n' else (s.rest.splitOn '\n').tail

/-- One of the lines starts with an accepted integer. -/
def Offers (accepts : ℤ → Bool) (lines : List (List Char)) : Prop :=
  ∃ line ∈ lines, ∃ v ∈ lineInt line, accepts v = true

section Lines

variable {cs pre rest : List Char} {c : Char}

/-- A character that is no newline belongs to the first line. -/
theorem splitOn_cons_of_ne (hc : c ≠ '\n') :
    (c :: cs).splitOn '\n' = (cs.splitOn '\n').modifyHead (c :: ·) := by
  rw [List.splitOn_cons_eq_if_modifyHead, if_neg (by simpa using hc)]

/-- A newline ends an empty first line. -/
theorem splitOn_newline_cons (cs : List Char) :
    ('\n' :: cs).splitOn '\n' = [] :: cs.splitOn '\n' := by
  rw [List.splitOn_cons_eq_if_modifyHead, if_pos (by simp)]

/-- What is read of the first line leaves the other lines as they are. -/
theorem tail_splitOn_append (hpre : '\n' ∉ pre) :
    ((pre ++ rest).splitOn '\n').tail = (rest.splitOn '\n').tail := by
  induction pre with
  | nil => rfl
  | cons c pre ih =>
      obtain ⟨hc, hpre⟩ := not_or.mp (mt List.mem_cons.mpr hpre)
      rw [List.cons_append, splitOn_cons_of_ne (Ne.symm hc), List.tail_modifyHead, ih hpre]

/-- The first line, and the others. -/
theorem splitOn_eq_takeWhile_cons (cs : List Char) :
    cs.splitOn '\n' = cs.takeWhile (· != '\n') :: (cs.splitOn '\n').tail := by
  induction cs with
  | nil => rfl
  | cons c cs ih =>
      by_cases hc : c = '\n'
      · subst hc
        rw [splitOn_newline_cons, List.tail_cons]
        rfl
      · rw [splitOn_cons_of_ne hc, ih, List.takeWhile_cons_of_pos (by simpa using hc)]
        rfl

end Lines

/-! ## What a scan takes in -/

section Scan

variable {cs : List Char}

/-- A digit is no newline. -/
theorem ne_newline_of_isDigit {c : Char} (hc : c.isDigit = true) : c ≠ '\n' := by
  rintro rfl
  cases hc

/-- Scanning a sign takes nothing, or one character that is no newline. -/
theorem scanSign_eq_or (cs : List Char) :
    scanSign cs = (1, cs) ∨ ∃ c ds, cs = c :: ds ∧ c ≠ '\n' ∧ (scanSign cs).2 = ds := by
  unfold scanSign
  split
  · exact Or.inr ⟨_, _, rfl, by decide, rfl⟩
  · exact Or.inr ⟨_, _, rfl, by decide, rfl⟩
  · exact Or.inl rfl

/-- A scan stays on its line. -/
theorem exists_scanInt_append (cs : List Char) :
    ∃ pre, '\n' ∉ pre ∧ cs = pre ++ (scanInt cs).2 := by
  have hdigits (ds : List Char) : '\n' ∉ ds.takeWhile Char.isDigit :=
    fun hmem => ne_newline_of_isDigit (List.mem_takeWhile_imp hmem) rfl
  have hrest : (scanInt cs).2 = (scanSign cs).2.dropWhile Char.isDigit := rfl
  rcases scanSign_eq_or cs with hno | ⟨c, ds, rfl, hc, hds⟩
  · refine ⟨cs.takeWhile Char.isDigit, hdigits cs, ?_⟩
    rw [hrest, hno, List.takeWhile_append_dropWhile]
  · refine ⟨c :: ds.takeWhile Char.isDigit, ?_, ?_⟩
    · exact List.not_mem_cons_of_ne_of_not_mem (Ne.symm hc) (hdigits ds)
    · rw [hrest, hds, List.cons_append, List.takeWhile_append_dropWhile]

/-- A sign is scanned inside the first line. -/
theorem scanSign_takeWhile (cs : List Char) : scanSign (cs.takeWhile (· != '\n')) =
    ((scanSign cs).1, (scanSign cs).2.takeWhile (· != '\n')) := by
  cases cs with
  | nil => rfl
  | cons c cs =>
      by_cases hc : c = '\n'
      · subst hc
        rfl
      · rw [List.takeWhile_cons_of_pos (by simpa using hc)]
        by_cases hminus : c = '-'
        · subst hminus
          rfl
        · by_cases hplus : c = '+'
          · subst hplus
            rfl
          · have hsign (ds : List Char) : scanSign (c :: ds) = (1, c :: ds) := by
              unfold scanSign
              split <;> simp_all
            rw [hsign, hsign, List.takeWhile_cons_of_pos (by simpa using hc)]

/-- What a scan finds is on its line. -/
theorem scanInt_takeWhile (cs : List Char) :
    (scanInt (cs.takeWhile (· != '\n'))).1 = (scanInt cs).1 := by
  have hdigits : ((scanSign cs).2.takeWhile (· != '\n')).takeWhile Char.isDigit =
      (scanSign cs).2.takeWhile Char.isDigit := by
    rw [List.takeWhile_takeWhile]
    congr 1
    funext c
    cases hc : c.isDigit with
    | true => simp [ne_newline_of_isDigit hc]
    | false => simp
  rw [scanInt, scanSign_takeWhile]
  simp only [hdigits]
  rfl

/-- A number is offered by the first line or by a later one. -/
theorem offers_cons {accepts : ℤ → Bool} {line : List Char} {lines : List (List Char)} :
    Offers accepts (line :: lines) ↔
      (∃ v ∈ lineInt line, accepts v = true) ∨ Offers accepts lines := by
  simp [Offers]

/-- Skipping white space, also over line ends, passes no offer. -/
theorem offers_dropWhile_iff {accepts : ℤ → Bool} (cs : List Char) :
    Offers accepts ((cs.dropWhile isSpace).splitOn '\n') ↔ Offers accepts (cs.splitOn '\n') := by
  induction cs with
  | nil => rfl
  | cons c cs ih =>
      cases hspace : isSpace c with
      | false => rw [List.dropWhile_cons_of_neg (by simp [hspace])]
      | true =>
          rw [List.dropWhile_cons_of_pos hspace, ih]
          by_cases hc : c = '\n'
          · subst hc
            rw [splitOn_newline_cons, offers_cons]
            exact (or_iff_right (by rintro ⟨v, hv, -⟩; cases hv)).symm
          · have hline (line : List Char) : lineInt (c :: line) = lineInt line := by
              rw [lineInt, List.dropWhile_cons_of_pos hspace, lineInt]
            rw [splitOn_cons_of_ne hc, splitOn_eq_takeWhile_cons cs, List.modifyHead_cons]
            rw [offers_cons, offers_cons, hline]

end Scan

/-! ## Rounds -/

/-- What the rest of a line leaves to be read. -/
theorem lines_clear_ignoreLine (s : IStream) :
    s.clear.ignoreLine.lines = (s.rest.splitOn '\n').tail := by
  have hgood : s.clear.good = true := rfl
  have hline : '\n' ∉ s.rest.takeWhile (· != '\n') :=
    fun hmem => by simpa using List.mem_takeWhile_imp hmem
  have htail : ((s.rest.takeWhile (· != '\n') ++ s.rest.dropWhile (· != '\n')).splitOn '\n').tail =
      ((s.rest.dropWhile (· != '\n')).splitOn '\n').tail := tail_splitOn_append hline
  rw [List.takeWhile_append_dropWhile] at htail
  rw [htail, ignoreLine, if_pos hgood]
  cases hrest : s.rest.dropWhile (· != '\n') with
  | nil =>
      have hrest : s.clear.rest.dropWhile (· != '\n') = [] := hrest
      rw [hrest]
      rfl
  | cons c cs =>
      have hc : c = '\n' := by
        have hhead := List.head?_dropWhile_not (· != '\n') s.rest
        rw [hrest] at hhead
        simpa using hhead
      subst hc
      have hrest : s.clear.rest.dropWhile (· != '\n') = '\n' :: cs := hrest
      rw [hrest, splitOn_newline_cons, List.tail_cons]
      rfl

/-- Storing the number leaves the rest of the input. -/
theorem stored_rest (rest : List Char) (value : Option ℤ) : (stored rest value).2.rest = rest := by
  unfold stored
  split
  · rfl
  · split
    · rfl
    · split <;> rfl

/-- Extraction succeeds with an acceptable integer when it found one. -/
theorem stored_accepted_iff {accepts : ℤ → Bool}
    (haccepts : ∀ v, accepts v = true → CInt.FitsInt v) {rest : List Char} {value : Option ℤ} :
    ((stored rest value).2.failbit = false ∧ accepts (stored rest value).1 = true) ↔
      ∃ v ∈ value, accepts v = true := by
  cases value with
  | none => simp [stored]
  | some v =>
      have hfits := haccepts v
      by_cases hlow : v < -2147483648
      · have hno : accepts v ≠ true := fun hv => absurd (hfits hv).1 (by omega)
        simp [stored, hlow, hno]
      · by_cases hhigh : 2147483647 < v
        · have hno : accepts v ≠ true := fun hv => absurd (hfits hv).2 (by omega)
          simp [stored, hlow, hhigh, hno]
        · simp [stored, hlow, hhigh]

/-- One round: either it is the last, or the offers are those of the lines left. -/
theorem offers_lines_iff {accepts : ℤ → Bool} (haccepts : ∀ v, accepts v = true → CInt.FitsInt v)
    (n : ℤ) (s : IStream) : Offers accepts s.lines ↔
      ((s.extractInt n).2.failbit = false ∧ accepts (s.extractInt n).1 = true) ∨
        Offers accepts (s.extractInt n).2.clear.ignoreLine.lines := by
  rw [lines_clear_ignoreLine]
  by_cases hgood : s.good = true
  · rw [lines, if_pos hgood, extractInt, if_pos hgood, ← offers_dropWhile_iff]
    -- blank lines offer nothing, so that the first line is where the spaces end
    cases hrest : s.rest.dropWhile isSpace with
    | nil => simp [offers_cons, lineInt, scanInt, scanSign]
    | cons c cs =>
        obtain ⟨pre, hpre, happend⟩ := exists_scanInt_append (c :: cs)
        have hspace : isSpace c = false := by
          have hhead := List.head?_dropWhile_not isSpace s.rest
          rw [hrest] at hhead
          simpa using hhead
        have htail : ((scanInt (c :: cs)).2.splitOn '\n').tail = ((c :: cs).splitOn '\n').tail := by
          rw [← tail_splitOn_append hpre, ← happend]
        -- what the scan takes in is on this line
        have hfirst : lineInt ((c :: cs).takeWhile (· != '\n')) = (scanInt (c :: cs)).1 := by
          have hne : c ≠ '\n' := by
            rintro rfl
            cases hspace
          rw [← scanInt_takeWhile, lineInt, List.takeWhile_cons_of_pos (by simpa using hne),
            List.dropWhile_cons_of_neg (by simp [hspace])]
        rw [splitOn_eq_takeWhile_cons, offers_cons, hfirst, ← htail]
        exact or_congr (stored_accepted_iff haccepts).symm (by rw [stored_rest])
  · rw [lines, if_neg hgood, extractInt, if_neg hgood]
    simp

/-- A stream with nothing to offer stays so; one with lines left after `ignore` has become
shorter. -/
theorem length_clear_ignoreLine (s : IStream) (hlines : s.clear.ignoreLine.lines ≠ []) :
    s.clear.ignoreLine.rest.length < s.rest.length := by
  have hgood : s.clear.good = true := rfl
  have hle : (s.rest.dropWhile (· != '\n')).length ≤ s.rest.length := List.length_dropWhile_le _ _
  rw [ignoreLine, if_pos hgood] at hlines ⊢
  have hclear : s.clear.rest = s.rest := rfl
  rw [hclear] at hlines ⊢
  cases hrest : s.rest.dropWhile (· != '\n') with
  | nil =>
      rw [hrest] at hlines
      exact absurd rfl hlines
  | cons c cs =>
      rw [hrest, List.length_cons] at hle
      exact hle

/-- Extracting a number makes the input no longer. -/
theorem length_extractInt (n : ℤ) (s : IStream) :
    (s.extractInt n).2.rest.length ≤ s.rest.length := by
  unfold extractInt
  split
  · have hle : (s.rest.dropWhile isSpace).length ≤ s.rest.length := List.length_dropWhile_le _ _
    split
    · exact Nat.zero_le _
    · next c cs hrest =>
        obtain ⟨pre, -, happend⟩ := exists_scanInt_append (c :: cs)
        rw [hrest, happend, List.length_append] at hle
        rw [stored_rest]
        exact Nat.le_trans (Nat.le_add_left _ _) hle
  · exact Nat.le_refl _

/-- One round: a number that is accepted ends the loop, otherwise the line is dropped. -/
theorem readUntil_succ (accepts : ℤ → Bool) (fuel : ℕ) (n : ℤ) (s : IStream) :
    readUntil accepts (fuel + 1) n s =
      if (s.extractInt n).2.failbit = false ∧ accepts (s.extractInt n).1 = true then
        some (s.extractInt n)
      else readUntil accepts fuel (s.extractInt n).1 (s.extractInt n).2.clear.ignoreLine := by
  show (if ((s.extractInt n).2.failbit || !accepts (s.extractInt n).1) = true then
      readUntil accepts fuel (s.extractInt n).1 (s.extractInt n).2.clear.ignoreLine
    else some (s.extractInt n)) = _
  by_cases hlast : (s.extractInt n).2.failbit = false ∧ accepts (s.extractInt n).1 = true
  · rw [if_pos hlast]
    simp [hlast]
  · have hagain : ((s.extractInt n).2.failbit || !accepts (s.extractInt n).1) = true := by
      simpa [imp_iff_not_or] using hlast
    rw [if_neg hlast, if_pos hagain]

/-- What the loop returns is accepted. -/
theorem accepts_of_readUntil {accepts : ℤ → Bool} {fuel : ℕ} {n v : ℤ} {s t : IStream}
    (h : readUntil accepts fuel n s = some (v, t)) : accepts v = true := by
  induction fuel generalizing n s with
  | zero => cases h
  | succ fuel ih =>
      rw [readUntil_succ] at h
      split at h
      · next hlast =>
          rw [Option.some.inj h] at hlast
          exact hlast.2
      · exact ih h

/-- **When the loop ends**: exactly when one of the lines offers an acceptable integer. -/
theorem readUntil_ends_iff {accepts : ℤ → Bool}
    (haccepts : ∀ v, accepts v = true → CInt.FitsInt v) (n : ℤ) (s : IStream) :
    (∃ fuel r, readUntil accepts fuel n s = some r) ↔ Offers accepts s.lines := by
  constructor
  · rintro ⟨fuel, r, h⟩
    induction fuel generalizing n s with
    | zero => cases h
    | succ fuel ih =>
        -- by the fuel: the number is on this line, or on one of the lines after it
        rw [readUntil_succ] at h
        rw [offers_lines_iff haccepts n s]
        split at h
        · next hlast => exact Or.inl hlast
        · exact Or.inr (ih _ _ h)
  · -- by the number of characters left, which every line that is given up brings down
    induction hlength : s.rest.length using Nat.strongRecOn generalizing n s with
    | ind length ih =>
        intro hoffers
        by_cases hlast : (s.extractInt n).2.failbit = false ∧ accepts (s.extractInt n).1 = true
        · exact ⟨1, s.extractInt n, by rw [readUntil_succ, if_pos hlast]⟩
        · have hrest := ((offers_lines_iff haccepts n s).mp hoffers).resolve_left hlast
          -- what is still offered is on a line, so some line is left
          have hlines : (s.extractInt n).2.clear.ignoreLine.lines ≠ [] := by
            intro hnil
            rw [hnil] at hrest
            obtain ⟨line, hline, -⟩ := hrest
            cases hline
          have hshorter := length_clear_ignoreLine _ hlines
          have hle := length_extractInt n s
          obtain ⟨fuel, r, h⟩ := ih _ (by omega) (s.extractInt n).1 _ rfl hrest
          exact ⟨fuel + 1, r, by rw [readUntil_succ, if_neg hlast, h]⟩

end IStream

end BrowCast
