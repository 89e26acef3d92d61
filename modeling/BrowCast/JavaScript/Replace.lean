import BrowCast.JavaScript.Number
import Mathlib.Data.List.Infix

/-! # Removing what a regular expression matches

`text.replace(re, '')` for expressions with the flags `gm` of three kinds: from an opening to the
end of its line, anywhere or at the start of a line only, and from an opening to the first closing
after it. Texts are lists whose entries have a character each, so that an entry may carry more than
its character and be followed through a replacement. -/

namespace BrowCast

/-- What `.` does not match, and what `^` and `$` look for with the flag `m`. -/
def isLineTerminator (c : Char) : Bool :=
  c == '\n' || c == '\r' || c.toNat == 0x2028 || c.toNat == 0x2029

section Passes

variable {α : Type*} (char : α → Char)

/-- The text starts with these characters. -/
def opensWith (opening : List Char) (s : List α) : Bool := opening.isPrefixOf (s.map char)

/-- `replace(/opening.*$/gm, '')`, from inside a match or not. -/
def removeLines (opening : List Char) : Bool → List α → List α
  | _, [] => []
  | true, a :: s =>
      if isLineTerminator (char a) then a :: removeLines opening false s
      else removeLines opening true s
  | false, a :: s =>
      if opensWith char opening (a :: s) then removeLines opening true s
      else a :: removeLines opening false s

/-- `replace(/^\s*opening.*/gm, '')`, with this many characters of a match still to go, at the start
of a line or not. -/
def removeIndentedLines (opening : List Char) : ℕ → Bool → List α → List α
  | _, _, [] => []
  | n + 1, _, a :: s => removeIndentedLines opening n (isLineTerminator (char a)) s
  | 0, atStart, a :: s =>
      let indent := (a :: s).takeWhile fun b => Number.isWhiteSpace (char b)
      let line := (a :: s).dropWhile fun b => Number.isWhiteSpace (char b)
      if atStart && opensWith char opening line then
        let rest := line.takeWhile fun b => !isLineTerminator (char b)
        removeIndentedLines opening (indent.length + rest.length - 1) (isLineTerminator (char a)) s
      else a :: removeIndentedLines opening 0 (isLineTerminator (char a)) s

/-- How far the first `closing` reaches. -/
def closingEnd (closing : List Char) : List α → Option ℕ
  | [] => none
  | a :: s =>
      if opensWith char closing (a :: s) then some closing.length
      else (closingEnd closing s).map (· + 1)

/-- `replace(/opening[\s\S]*?closing/gm, '')`, with this many characters of a match still to go. -/
def removeRanges (opening closing : List Char) : ℕ → List α → List α
  | _, [] => []
  | n + 1, _ :: s => removeRanges opening closing n s
  | 0, a :: s =>
      if opensWith char opening (a :: s) then
        match closingEnd char closing (s.drop (opening.length - 1)) with
        | some n => removeRanges opening closing (opening.length - 1 + n) s
        | none => a :: removeRanges opening closing 0 s
      else a :: removeRanges opening closing 0 s

end Passes

section Lemmas

variable {α β : Type*} {char : α → Char} {opening closing : List Char}

/-- A text starts with two characters when its first two are these. -/
theorem opensWith_pair {x y : Char} {a : α} {s : List α} :
    opensWith char [x, y] (a :: s) = true ↔ char a = x ∧ s.head?.map char = some y := by
  rw [opensWith, List.map_cons]
  cases s with
  | nil => simp
  | cons b s =>
      simp only [List.map_cons, List.isPrefixOf, Bool.and_true, Bool.and_eq_true, beq_iff_eq,
        List.head?_cons, Option.map_some, Option.some.injEq]
      exact and_congr eq_comm eq_comm

/-- Where two characters stand together. -/
theorem pair_infix_cons_iff {x y c : Char} {s : List Char} :
    [x, y] <:+: c :: s ↔ (c = x ∧ s.head? = some y) ∨ [x, y] <:+: s := by
  rw [List.infix_cons_iff, List.cons_prefix_cons]
  refine or_congr (and_congr eq_comm ?_) Iff.rfl
  cases s with
  | nil => simp
  | cons d s => simp [eq_comm]

/-! ## What is left is part of the text -/

/-- Removing lines takes characters away only. -/
theorem removeLines_sublist (inMatch : Bool) (s : List α) :
    (removeLines char opening inMatch s).Sublist s := by
  induction s generalizing inMatch with
  | nil => cases inMatch <;> exact List.Sublist.refl []
  | cons a s ih =>
      cases inMatch with
      | true =>
          rw [removeLines]
          split
          · exact (ih false).cons_cons a
          · exact (ih true).cons a
      | false =>
          rw [removeLines]
          split
          · exact (ih true).cons a
          · exact (ih false).cons_cons a

/-- Removing ranges takes characters away only. -/
theorem removeRanges_sublist (n : ℕ) (s : List α) :
    (removeRanges char opening closing n s).Sublist s := by
  induction s generalizing n with
  | nil => cases n <;> exact List.Sublist.refl []
  | cons a s ih =>
      cases n with
      | succ n => exact (ih n).cons a
      | zero =>
          rw [removeRanges]
          split
          · split
            · exact (ih _).cons a
            · exact (ih 0).cons_cons a
          · exact (ih 0).cons_cons a

section Cons

variable {a : α} {s : List α} (hopens : opensWith char opening (a :: s) = true)

include hopens

/-- An opening with a closing behind it is removed up to the end of the closing. -/
theorem removeRanges_cons_of_some {n : ℕ}
    (h : closingEnd char closing (s.drop (opening.length - 1)) = some n) :
    removeRanges char opening closing 0 (a :: s) =
      removeRanges char opening closing (opening.length - 1 + n) s := by
  rw [removeRanges, if_pos hopens, h]

/-- An opening with no closing behind it stays. -/
theorem removeRanges_cons_of_none
    (h : closingEnd char closing (s.drop (opening.length - 1)) = none) :
    removeRanges char opening closing 0 (a :: s) =
      a :: removeRanges char opening closing 0 s := by
  rw [removeRanges, if_pos hopens, h]

end Cons

/-- The rest of a match is skipped. -/
theorem removeRanges_eq_drop (n : ℕ) (s : List α) :
    removeRanges char opening closing n s = removeRanges char opening closing 0 (s.drop n) := by
  induction s generalizing n with
  | nil => cases n <;> rfl
  | cons a s ih =>
      cases n with
      | zero => rfl
      | succ n => exact ih n

/-! ## Entries that carry more than their character -/

variable {char' : β → Char} {f : α → β} (hchar : ∀ a, char' (f a) = char a)

include hchar

/-- Whether a text starts so depends on its characters only. -/
theorem opensWith_map (s : List α) :
    opensWith char' opening (s.map f) = opensWith char opening s := by
  rw [opensWith, opensWith, List.map_map]
  congr 1
  exact List.map_congr_left fun a _ => hchar a

/-- Removing lines depends on the characters only. -/
theorem removeLines_map (inMatch : Bool) (s : List α) :
    removeLines char' opening inMatch (s.map f) =
      (removeLines char opening inMatch s).map f := by
  induction s generalizing inMatch with
  | nil => cases inMatch <;> rfl
  | cons a s ih =>
      have hstarts : opensWith char' opening ((a :: s).map f) = opensWith char opening (a :: s) :=
        opensWith_map hchar (a :: s)
      rw [List.map_cons] at hstarts ⊢
      cases inMatch with
      | true =>
          rw [removeLines, removeLines, hchar, ih, ih]
          split <;> rfl
      | false =>
          rw [removeLines, removeLines, hstarts, ih, ih]
          split <;> rfl

/-- A first part that is found by its characters, under a map that keeps them. -/
theorem takeWhile_map_char (p : Char → Bool) (s : List α) :
    (s.map f).takeWhile (fun b => p (char' b)) = (s.takeWhile fun a => p (char a)).map f := by
  rw [List.takeWhile_map]
  congr 2
  funext a
  exact congrArg p (hchar a)

/-- What comes behind such a part, under a map that keeps the characters. -/
theorem dropWhile_map_char (p : Char → Bool) (s : List α) :
    (s.map f).dropWhile (fun b => p (char' b)) = (s.dropWhile fun a => p (char a)).map f := by
  rw [List.dropWhile_map]
  congr 2
  funext a
  exact congrArg p (hchar a)

/-- Removing indented lines depends on the characters only. -/
theorem removeIndentedLines_map (n : ℕ) (atStart : Bool) (s : List α) :
    removeIndentedLines char' opening n atStart (s.map f) =
      (removeIndentedLines char opening n atStart s).map f := by
  induction s generalizing n atStart with
  | nil => cases n <;> rfl
  | cons a s ih =>
      cases n with
      | succ n =>
          rw [List.map_cons, removeIndentedLines, removeIndentedLines, hchar, ih]
      | zero =>
          have hindent := takeWhile_map_char hchar Number.isWhiteSpace (a :: s)
          have hline := dropWhile_map_char hchar Number.isWhiteSpace (a :: s)
          rw [List.map_cons] at hindent hline ⊢
          rw [removeIndentedLines, removeIndentedLines]
          simp only [hindent, hline, opensWith_map hchar, hchar, ih, List.length_map,
            takeWhile_map_char hchar fun c => !isLineTerminator c]
          split <;> rfl

/-- Where a closing ends depends on the characters only. -/
theorem closingEnd_map (s : List α) :
    closingEnd char' closing (s.map f) = closingEnd char closing s := by
  induction s with
  | nil => rfl
  | cons a s ih =>
      have hstarts : opensWith char' closing ((a :: s).map f) = opensWith char closing (a :: s) :=
        opensWith_map hchar (a :: s)
      rw [List.map_cons] at hstarts ⊢
      rw [closingEnd, closingEnd, hstarts, ih]

/-- Removing ranges depends on the characters only. -/
theorem removeRanges_map (n : ℕ) (s : List α) :
    removeRanges char' opening closing n (s.map f) =
      (removeRanges char opening closing n s).map f := by
  induction s generalizing n with
  | nil => cases n <;> rfl
  | cons a s ih =>
      cases n with
      | succ n => exact ih n
      | zero =>
          have hstarts : opensWith char' opening ((a :: s).map f) =
              opensWith char opening (a :: s) := opensWith_map hchar (a :: s)
          rw [List.map_cons] at hstarts ⊢
          rw [removeRanges, removeRanges, hstarts, ← List.map_drop, closingEnd_map hchar]
          split
          · split <;> simp only [ih, List.map_cons]
          · simp only [ih, List.map_cons]

end Lemmas

end BrowCast
