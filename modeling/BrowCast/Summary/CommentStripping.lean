import BrowCast.Summary.SourceText

/-! # Stripping comments

`stripComments` of `codeSummary.js` removes comments with regular expressions. In the languages with
`//` and `/*` it makes two passes: the first cuts every line at its first `//`, the second removes
what is left from each `/*` to the next `*/`. A `//` in a block comment may thereby take the closing
of the comment with it, and neither pass knows of literals; `Clean` says when nothing goes wrong. -/

namespace BrowCast

section Passes

variable {α : Type*} (char : α → Char)

/-- `stripComments`, on texts whose entries may carry more than their character. -/
def stripComments (content : List α) (lang : String) : List α :=
  if lang ∈ ["js", "ts", "java", "c", "cpp", "csharp", "php", "swift", "scala", "kotlin"] then
    removeRanges char ['/', '*'] ['*', '/'] 0 (removeLines char ['/', '/'] false content)
  else if lang ∈ ["python", "ruby", "bash", "shell", "dockerfile"] then
    removeLines char ['#'] false content
  else if lang ∈ ["html", "xml", "vue", "svelte"] then
    removeRanges char "<!--".toList "-->".toList 0 content
  else if lang ∈ ["css", "scss", "less"] then removeRanges char ['/', '*'] ['*', '/'] 0 content
  else if lang ∈ ["yaml", "yml", "ini", "toml"] then removeIndentedLines char ['#'] 0 true content
  else if lang = "sql" then
    removeRanges char ['/', '*'] ['*', '/'] 0 (removeLines char ['-', '-'] false content)
  else content

variable {char}

/-- What becomes of a character does not depend on what it carries. -/
theorem stripComments_map {β : Type*} {char' : β → Char} {f : α → β}
    (hchar : ∀ a, char' (f a) = char a) (content : List α) (lang : String) :
    stripComments char' (content.map f) lang = (stripComments char content lang).map f := by
  unfold stripComments
  simp only [removeLines_map hchar, removeRanges_map hchar, removeIndentedLines_map hchar]
  split_ifs <;> rfl

end Passes

/-- Exactly the comments are removed: of the text with its comments marked, what is not marked is
left. -/
def StripsComments (lang : String) (ts : List Token) : Prop :=
  stripComments Prod.fst (markedText ts) lang = uncommented ts

instance (lang : String) (ts : List Token) : Decidable (StripsComments lang ts) :=
  inferInstanceAs (Decidable (_ = _))

/-! ## The last line of a comment -/

/-- The part of a text after its last line terminator. -/
def lastLine : List Char → List Char
  | [] => []
  | c :: s => if (c :: s).any isLineTerminator then lastLine s else c :: s

/-- After a block comment, given as the text after its opening, the line is lost to a `//`: it was
lost before and the comment does not leave it, or there is a `//` in the last line of the comment,
or its closing and the next character make one. -/
def losesLine (lost : Bool) (comment : List Char) (next : Option Char) : Bool :=
  lost && !comment.any isLineTerminator || decide (['/', '/'] <:+: lastLine comment) ||
    next == some '/'

section LosesLine

variable {c : Char} {comment : List Char} {lost : Bool} {next : Option Char}

/-- A text of one line is its last line. -/
theorem lastLine_of_not_any (h : comment.any isLineTerminator = false) :
    lastLine comment = comment := by
  cases comment with
  | nil => rfl
  | cons c s => rw [lastLine, h]; rfl

/-- The last line does not change with what stands before an end of line. -/
theorem lastLine_cons_of_any (h : comment.any isLineTerminator = true) :
    lastLine (c :: comment) = lastLine comment := by
  rw [lastLine, List.any_cons, h, Bool.or_true, if_pos rfl]

/-- An end of line in a comment ends the line that was lost. -/
theorem losesLine_cons_of_terminator (hc : isLineTerminator c = true) :
    losesLine lost (c :: comment) next = losesLine false comment next := by
  have hany : (c :: comment).any isLineTerminator = true := by rw [List.any_cons, hc, Bool.true_or]
  rw [losesLine, losesLine, hany, lastLine, hany]
  simp

/-- Nothing changes on a line that is lost. -/
theorem losesLine_true_cons (hc : isLineTerminator c = false) :
    losesLine true (c :: comment) next = losesLine true comment next := by
  rw [losesLine, losesLine, List.any_cons, hc, Bool.false_or]
  cases hany : comment.any isLineTerminator with
  | true => rw [lastLine_cons_of_any hany]
  | false => simp

/-- A `//` loses the line. -/
theorem losesLine_false_cons_of_slashes (hc : c = '/') (hnext : comment.head? = some '/') :
    losesLine false (c :: comment) next = losesLine true comment next := by
  subst hc
  obtain ⟨rest, rfl⟩ := List.head?_eq_some_iff.mp hnext
  rw [losesLine, losesLine]
  cases hany : ('/' :: rest).any isLineTerminator with
  | true => rw [lastLine_cons_of_any hany]; simp
  | false =>
      have hall : ('/' :: '/' :: rest).any isLineTerminator = false := by
        rw [List.any_cons, hany]
        rfl
      have hslashes : ['/', '/'] <:+: '/' :: '/' :: rest := ⟨[], rest, rfl⟩
      rw [lastLine_of_not_any hall]
      simp [hslashes]

/-- A character that begins no `//` loses no line. -/
theorem losesLine_false_cons_of_not (hc : isLineTerminator c = false)
    (hnot : ¬ (c = '/' ∧ comment.head? = some '/')) :
    losesLine false (c :: comment) next = losesLine false comment next := by
  rw [losesLine, losesLine]
  cases hany : comment.any isLineTerminator with
  | true => rw [lastLine_cons_of_any hany]; simp
  | false =>
      have hall : (c :: comment).any isLineTerminator = false := by
        rw [List.any_cons, hc, hany]
        rfl
      have hslashes : ['/', '/'] <:+: c :: comment ↔ ['/', '/'] <:+: comment := by
        rw [pair_infix_cons_iff]
        exact or_iff_right hnot
      rw [lastLine_of_not_any hall, lastLine_of_not_any hany]
      simp [hslashes]

/-- The closing of a comment makes a `//` with a slash after it. -/
theorem losesLine_closing : losesLine lost ['*', '/'] next = (lost || next == some '/') := by
  have hany : ['*', '/'].any isLineTerminator = false := by decide
  have hslashes : ¬ ['/', '/'] <:+: lastLine ['*', '/'] := by decide
  rw [losesLine, hany, decide_eq_false hslashes]
  simp

end LosesLine

/-! ## The two passes over an element -/

section Elements

variable {α : Type*} {char : α → Char} {a : α} {w s : List α} {n : ℕ}

/-- The first pass keeps a character that begins no `//`. -/
theorem removeLines_cons_of_not (h : ¬ (char a = '/' ∧ s.head?.map char = some '/')) :
    removeLines char ['/', '/'] false (a :: s) = a :: removeLines char ['/', '/'] false s := by
  rw [removeLines, if_neg]
  rwa [opensWith_pair]

/-- At `//` the first pass begins to drop the line. -/
theorem removeLines_cons_of_slashes (ha : char a = '/') (hs : s.head?.map char = some '/') :
    removeLines char ['/', '/'] false (a :: s) = removeLines char ['/', '/'] true s := by
  rw [removeLines, if_pos]
  exact opensWith_pair.mpr ⟨ha, hs⟩

/-- On a line that is lost the first pass drops every character. -/
theorem removeLines_true_cons_of_not (h : isLineTerminator (char a) = false) :
    removeLines char ['/', '/'] true (a :: s) = removeLines char ['/', '/'] true s := by
  rw [removeLines, h]
  rfl

/-- The end of a lost line is kept, and the next line is not lost. -/
theorem removeLines_true_cons_of_terminator (h : isLineTerminator (char a) = true) :
    removeLines char ['/', '/'] true (a :: s) = a :: removeLines char ['/', '/'] false s := by
  rw [removeLines, if_pos h]

/-- What is left after a `//` starts with a line terminator. -/
theorem head_removeLines_true (s : List α) :
    ∀ c ∈ (removeLines char ['/', '/'] true s).head?, isLineTerminator (char c) = true := by
  induction s with
  | nil => nofun
  | cons a s ih =>
      cases ha : isLineTerminator (char a) with
      | true =>
          rw [removeLines_true_cons_of_terminator ha]
          rintro c ⟨⟩
          exact ha
      | false =>
          rw [removeLines_true_cons_of_not ha]
          exact ih

/-- On a line that is lost everything goes up to its end. -/
theorem removeLines_true_append {p : List α} (h : ∀ a ∈ p, isLineTerminator (char a) = false) :
    removeLines char ['/', '/'] true (p ++ s) = removeLines char ['/', '/'] true s := by
  induction p with
  | nil => rfl
  | cons a p ih =>
      rw [List.cons_append, removeLines_true_cons_of_not (h a List.mem_cons_self)]
      exact ih fun b hb => h b (List.mem_cons_of_mem a hb)

/-- An end of line is no other character. -/
theorem ne_of_isLineTerminator {c d : Char} (hc : isLineTerminator c = true)
    (hd : isLineTerminator d = false) : c ≠ d := by
  rintro rfl
  rw [hc] at hd
  cases hd

/-- A character that begins no `*/` is passed over in the search for one. -/
theorem closing_cons_of_not (h : ¬ (char a = '*' ∧ s.head?.map char = some '/')) :
    closingEnd char ['*', '/'] (a :: s) = (closingEnd char ['*', '/'] s).map (· + 1) := by
  rw [closingEnd, if_neg]
  rwa [opensWith_pair]

/-- A `*/` ends where its two characters do. -/
theorem closing_cons_of_closing (ha : char a = '*') (hs : s.head?.map char = some '/') :
    closingEnd char ['*', '/'] (a :: s) = some 2 := by
  rw [closingEnd, if_pos]
  · rfl
  · exact opensWith_pair.mpr ⟨ha, hs⟩

/-- No closing ends at the start. -/
theorem closing_ne_zero : closingEnd char ['*', '/'] s ≠ some 0 := by
  cases s with
  | nil => nofun
  | cons a s =>
      by_cases h : char a = '*' ∧ s.head?.map char = some '/'
      · rw [closing_cons_of_closing h.1 h.2]
        nofun
      · rw [closing_cons_of_not h]
        intro hzero
        obtain ⟨n, -, hn⟩ := Option.map_eq_some_iff.mp hzero
        exact Nat.succ_ne_zero n hn

/-- There is a closing exactly where its characters stand together. -/
theorem closing_eq_none_iff :
    closingEnd char ['*', '/'] s = none ↔ ¬ ['*', '/'] <:+: s.map char := by
  induction s with
  | nil => exact iff_of_true rfl (by simp)
  | cons a s ih =>
      rw [List.map_cons, pair_infix_cons_iff, List.head?_map]
      by_cases h : char a = '*' ∧ s.head?.map char = some '/'
      · rw [closing_cons_of_closing h.1 h.2]
        exact iff_of_false nofun fun hno => hno (Or.inl h)
      · rw [closing_cons_of_not h, Option.map_eq_none_iff, ih, not_or]
        exact (and_iff_right h).symm

/-- What the first pass leaves of a comment, given without its opening: nothing else is closed in
it, and it is closed itself unless it loses the line. -/
structure LeavesOf (char : α → Char) (lost loses : Bool) (w kept : List α) : Prop where
  sublist : kept.Sublist w
  closed : loses = false → ∀ t, closingEnd char ['*', '/'] (kept ++ t) = some kept.length
  unclosed : loses = true → ∀ t, t.head?.map char ≠ some '/' →
    closingEnd char ['*', '/'] (kept ++ t) =
      (closingEnd char ['*', '/'] t).map (· + kept.length)
  head : ∀ c ∈ kept.head?, char c = '/' → lost = false ∧ w.head?.map char = some '/'

namespace LeavesOf

variable {lost loses : Bool} {kept : List α}

/-- A character that goes, on a line that is lost after it. -/
theorem drop (h : LeavesOf char true loses w kept) : LeavesOf char lost loses (a :: w) kept where
  sublist := h.sublist.cons a
  closed := h.closed
  unclosed := h.unclosed
  head := fun c hc hslash => by cases (h.head c hc hslash).1

/-- A character that stays. -/
theorem keep (h : LeavesOf char false loses w kept)
    (hlast : ¬ (char a = '*' ∧ w.head?.map char = some '/'))
    (hslash : char a = '/' → lost = false) :
    LeavesOf char lost loses (a :: w) (a :: kept) where
  sublist := h.sublist.cons_cons a
  closed := fun hloses t => by
    have hkept : kept ≠ [] := by
      rintro rfl
      cases h.closed hloses []
    obtain ⟨b, rest, rfl⟩ := List.exists_cons_of_ne_nil hkept
    rw [List.cons_append, closing_cons_of_not, h.closed hloses]
    · rfl
    · rintro ⟨hstar, hhead⟩
      exact hlast ⟨hstar, (h.head b rfl (Option.some.inj hhead)).2⟩
  unclosed := fun hloses t ht => by
    rw [List.cons_append, closing_cons_of_not, h.unclosed hloses t ht, Option.map_map]
    · rfl
    · rintro ⟨hstar, hhead⟩
      cases kept with
      | nil => exact ht hhead
      | cons b rest => exact hlast ⟨hstar, (h.head b rfl (Option.some.inj hhead)).2⟩
  head := by
    rintro c ⟨⟩ hc
    exact ⟨hslash hc, congrArg some hc⟩

end LeavesOf

/-- The first pass over a comment, given without its opening. -/
def PassesOver (char : α → Char) (s w : List α) (lost : Bool) : Prop :=
  ∃ kept, LeavesOf char lost (losesLine lost (w.map char) (s.head?.map char)) w kept ∧
    removeLines char ['/', '/'] lost (w ++ s) = kept ++ removeLines char ['/', '/']
      (losesLine lost (w.map char) (s.head?.map char)) s

/-- The closing itself is passed over as the last two characters of a comment. -/
theorem passesOver_closing {b : α} (ha : char a = '*') (hb : char b = '/') (lost : Bool) :
    PassesOver char s [a, b] lost := by
  have hstar : char a ≠ '/' := by
    rw [ha]
    decide
  have hterminators :
      isLineTerminator (char a) = false ∧ isLineTerminator (char b) = false := by
    rw [ha, hb]
    exact ⟨rfl, rfl⟩
  rw [PassesOver, List.map_cons, List.map_singleton, ha, hb, losesLine_closing]
  show ∃ kept, LeavesOf _ _ _ _ kept ∧ removeLines char ['/', '/'] lost (a :: b :: s) = kept ++ _
  cases lost with
  | true =>
      rw [removeLines_true_cons_of_not hterminators.1, removeLines_true_cons_of_not hterminators.2]
      exact ⟨[], ⟨List.nil_sublist _, nofun, fun _ t _ => by simp, nofun⟩, rfl⟩
  | false =>
      have hhead : ∀ kept : List α, ∀ c ∈ (a :: kept).head?, char c = '/' →
          false = false ∧ [a, b].head?.map char = some '/' := by
        rintro kept c ⟨⟩ hc
        exact absurd hc hstar
      rw [removeLines_cons_of_not fun h => hstar h.1]
      by_cases hnext : s.head?.map char = some '/'
      · -- the slash of the closing goes with the one after it
        rw [removeLines_cons_of_slashes hb hnext, hnext]
        refine ⟨[a], ⟨by simp, nofun, fun _ t ht => ?_, hhead []⟩, rfl⟩
        exact closing_cons_of_not fun h => ht h.2
      · rw [removeLines_cons_of_not fun h => hnext h.2]
        have hopen : (s.head?.map char == some '/') = false := by simpa using hnext
        rw [hopen]
        refine ⟨[a, b], ⟨List.Sublist.refl _, fun _ t => ?_, nofun, hhead [b]⟩, rfl⟩
        exact closing_cons_of_closing ha (congrArg some hb)

/-- A character before the closing. -/
theorem PassesOver.cons (ih : ∀ lost, PassesOver char s w lost) (hw : w ≠ [])
    (hlast : ¬ (char a = '*' ∧ w.head?.map char = some '/')) (lost : Bool) :
    PassesOver char s (a :: w) lost := by
  have hhead : (w ++ s).head?.map char = w.head?.map char := by
    rw [List.head?_append_of_ne_nil w hw]
  rw [PassesOver, List.map_cons, List.cons_append]
  cases hterminator : isLineTerminator (char a) with
  | true =>
      -- the line is left, and the character stays
      have hslash : char a ≠ '/' := ne_of_isLineTerminator hterminator rfl
      obtain ⟨kept, hkept, hpass⟩ := ih false
      rw [losesLine_cons_of_terminator hterminator]
      refine ⟨a :: kept, hkept.keep hlast fun h => absurd h hslash, ?_⟩
      cases lost with
      | true => rw [removeLines_true_cons_of_terminator hterminator, hpass, List.cons_append]
      | false => rw [removeLines_cons_of_not fun h => hslash h.1, hpass, List.cons_append]
  | false =>
      cases lost with
      | true =>
          obtain ⟨kept, hkept, hpass⟩ := ih true
          rw [losesLine_true_cons hterminator, removeLines_true_cons_of_not hterminator]
          exact ⟨kept, hkept.drop, hpass⟩
      | false =>
          by_cases hslashes : char a = '/' ∧ w.head?.map char = some '/'
          · obtain ⟨kept, hkept, hpass⟩ := ih true
            have hnext : (w.map char).head? = some '/' := by rw [List.head?_map, hslashes.2]
            rw [losesLine_false_cons_of_slashes hslashes.1 hnext,
              removeLines_cons_of_slashes hslashes.1 (hhead.trans hslashes.2)]
            exact ⟨kept, hkept.drop, hpass⟩
          · obtain ⟨kept, hkept, hpass⟩ := ih false
            rw [losesLine_false_cons_of_not hterminator (by rwa [List.head?_map]),
              removeLines_cons_of_not (by rwa [hhead]), hpass]
            exact ⟨a :: kept, hkept.keep hlast fun _ => rfl, rfl⟩

/-- **The first pass passes over a comment**, up to its first closing. -/
theorem removeLines_comment (hclose : closingEnd char ['*', '/'] w = some w.length) (lost : Bool) :
    PassesOver char s w lost := by
  induction w generalizing lost with
  | nil => cases hclose
  | cons a w ih =>
      by_cases hlast : char a = '*' ∧ w.head?.map char = some '/'
      · rw [closing_cons_of_closing hlast.1 hlast.2, List.length_cons] at hclose
        have hlength : w.length = 1 := (Nat.succ.inj (Option.some.inj hclose)).symm
        obtain ⟨b, rfl⟩ := List.length_eq_one_iff.mp hlength
        exact passesOver_closing hlast.1 (Option.some.inj hlast.2) lost
      · rw [closing_cons_of_not hlast] at hclose
        obtain ⟨n, hn, hlength⟩ := Option.map_eq_some_iff.mp hclose
        have hrest : closingEnd char ['*', '/'] w = some w.length := by
          rw [hn, Nat.succ.inj hlength]
        refine PassesOver.cons (fun lost => ih hrest lost) ?_ hlast lost
        rintro rfl
        cases hrest

/-! ### Over other elements -/

/-- The text that is left lacks a character of this part of the whole text. -/
def LacksOneOf (p s left : List α) : Prop :=
  ∃ pre a post, p = pre ++ a :: post ∧ left.Sublist (pre ++ (post ++ s))

/-- A character in front of both texts does not matter. -/
theorem LacksOneOf.cons {p left : List α} (h : LacksOneOf p s left) :
    LacksOneOf (a :: p) s (a :: left) := by
  obtain ⟨pre, b, post, rfl, hleft⟩ := h
  exact ⟨a :: pre, b, post, rfl, hleft.cons_cons a⟩

/-- Nor does more text behind. -/
theorem LacksOneOf.mono {p s' left : List α} (h : LacksOneOf p s left) (hs : s.Sublist s') :
    LacksOneOf p s' left := by
  obtain ⟨pre, a, post, rfl, hleft⟩ := h
  exact ⟨pre, a, post, rfl, hleft.trans ((hs.append_left post).append_left pre)⟩

variable {p : List α}

/-- Without a `//` the first pass leaves a part of a line as it is. -/
theorem removeLines_append (hslashes : ¬ ['/', '/'] <:+: p.map char)
    (hlast : ∀ c ∈ p.getLast?, char c = '/' → s.head?.map char ≠ some '/') :
    removeLines char ['/', '/'] false (p ++ s) = p ++ removeLines char ['/', '/'] false s := by
  induction p with
  | nil => rfl
  | cons a p ih =>
      rw [List.map_cons, pair_infix_cons_iff, not_or, List.head?_map] at hslashes
      rw [List.cons_append, removeLines_cons_of_not, ih hslashes.2, List.cons_append]
      · intro c hc
        refine hlast c ?_
        rw [List.getLast?_cons, hc]
        rfl
      · rintro ⟨ha, hnext⟩
        cases p with
        | nil => exact hlast a rfl ha hnext
        | cons b p => exact hslashes.1 ⟨ha, hnext⟩

/-- With a `//` the first pass takes something of it. -/
theorem removeLines_lacks (hslashes : ['/', '/'] <:+: p.map char) :
    LacksOneOf p s (removeLines char ['/', '/'] false (p ++ s)) := by
  induction p with
  | nil => simp at hslashes
  | cons a p ih =>
      by_cases hopens : char a = '/' ∧ (p ++ s).head?.map char = some '/'
      · rw [List.cons_append, removeLines_cons_of_slashes hopens.1 hopens.2]
        exact ⟨[], a, p, rfl, removeLines_sublist true (p ++ s)⟩
      · rw [List.cons_append, removeLines_cons_of_not hopens]
        rw [List.map_cons, pair_infix_cons_iff, List.head?_map] at hslashes
        refine (ih (hslashes.resolve_left ?_)).cons
        rintro ⟨ha, hnext⟩
        cases p with
        | nil => cases hnext
        | cons b p => exact hopens ⟨ha, hnext⟩

/-- The second pass keeps a character that begins no `/*`. -/
theorem removeRanges_cons_of_not (h : ¬ (char a = '/' ∧ s.head?.map char = some '*')) :
    removeRanges char ['/', '*'] ['*', '/'] 0 (a :: s) =
      a :: removeRanges char ['/', '*'] ['*', '/'] 0 s := by
  rw [removeRanges, if_neg]
  rwa [opensWith_pair]

section Opening

variable {b : α} (ha : char a = '/') (hb : char b = '*')

include ha hb

/-- The two characters of `/*` open a comment. -/
theorem opensWith_opening : opensWith char ['/', '*'] (a :: b :: s) = true :=
  opensWith_pair.mpr ⟨ha, by rw [List.head?_cons, Option.map_some, hb]⟩

/-- An opening that is never closed is kept. -/
theorem removeRanges_opening_of_none (h : closingEnd char ['*', '/'] s = none) :
    removeRanges char ['/', '*'] ['*', '/'] 0 (a :: b :: s) =
      a :: removeRanges char ['/', '*'] ['*', '/'] 0 (b :: s) := by
  exact removeRanges_cons_of_none (opensWith_opening ha hb) h

/-- An opening is removed up to its closing. -/
theorem removeRanges_opening_of_some (h : closingEnd char ['*', '/'] s = some n) :
    removeRanges char ['/', '*'] ['*', '/'] 0 (a :: b :: s) =
      removeRanges char ['/', '*'] ['*', '/'] 0 (s.drop n) := by
  rw [removeRanges_cons_of_some (opensWith_opening ha hb) h]
  show removeRanges char ['/', '*'] ['*', '/'] (1 + n) (b :: s) = _
  rw [removeRanges_eq_drop, Nat.add_comm, List.drop_succ_cons]

end Opening

/-- Every opening in a part of the text is without a closing. -/
def StaysOpen (char : α → Char) (p s : List α) : Prop :=
  ∀ pre x y rest, p = pre ++ x :: y :: rest → char x = '/' → char y = '*' →
    closingEnd char ['*', '/'] (rest ++ s) = none

/-- The same, in terms of the characters. -/
theorem staysOpen_iff : StaysOpen char p s ↔ ∀ pre rest, p.map char = pre ++ '/' :: '*' :: rest →
    ¬ ['*', '/'] <:+: rest ++ s.map char := by
  constructor
  · intro h pre rest hmap
    obtain ⟨pre, q, rfl, rfl, hq⟩ := List.map_eq_append_iff.mp hmap
    obtain ⟨x, q, rfl, hx, hq⟩ := List.map_eq_cons_iff.mp hq
    obtain ⟨y, rest, rfl, hy, rfl⟩ := List.map_eq_cons_iff.mp hq
    have hnone := h pre x y rest rfl hx hy
    rwa [closing_eq_none_iff, List.map_append] at hnone
  · rintro h pre x y rest rfl hx hy
    rw [closing_eq_none_iff, List.map_append]
    exact h (pre.map char) (rest.map char) (by simp [hx, hy])

/-- Without a closing the second pass leaves a part of the text as it is. -/
theorem removeRanges_append (hopen : StaysOpen char p s)
    (hlast : ∀ c ∈ p.getLast?, char c = '/' → s.head?.map char ≠ some '*') :
    removeRanges char ['/', '*'] ['*', '/'] 0 (p ++ s) =
      p ++ removeRanges char ['/', '*'] ['*', '/'] 0 s := by
  induction p with
  | nil => rfl
  | cons a p ih =>
      have hrest := ih (fun pre x y rest heq => hopen (a :: pre) x y rest (by rw [heq]; rfl))
        fun c hc => hlast c (by rw [List.getLast?_cons, hc]; rfl)
      by_cases hopens : char a = '/' ∧ (p ++ s).head?.map char = some '*'
      · cases p with
        | nil => exact absurd hopens.2 (hlast a rfl hopens.1)
        | cons b p =>
            have hb : char b = '*' := Option.some.inj hopens.2
            have hnone := hopen [] a b p rfl hopens.1 hb
            show removeRanges char _ _ 0 (a :: b :: (p ++ s)) = _
            rw [removeRanges_opening_of_none hopens.1 hb hnone]
            exact congrArg (a :: ·) hrest
      · rw [List.cons_append, removeRanges_cons_of_not hopens, hrest]
        rfl

/-- With a closing the second pass takes something of it. -/
theorem removeRanges_lacks (hopen : ¬ StaysOpen char p s) :
    LacksOneOf p s (removeRanges char ['/', '*'] ['*', '/'] 0 (p ++ s)) := by
  induction p with
  | nil =>
      refine absurd ?_ hopen
      intro pre x y rest heq
      simp at heq
  | cons a p ih =>
      by_cases hmatch : ∃ b rest, p = b :: rest ∧ char a = '/' ∧ char b = '*' ∧
          closingEnd char ['*', '/'] (rest ++ s) ≠ none
      · obtain ⟨b, rest, rfl, ha, hb, hclosed⟩ := hmatch
        obtain ⟨n, hn⟩ := Option.ne_none_iff_exists'.mp hclosed
        show LacksOneOf _ _ (removeRanges char _ _ 0 (a :: b :: (rest ++ s)))
        rw [removeRanges_opening_of_some ha hb hn]
        refine ⟨[], a, b :: rest, rfl, ?_⟩
        exact ((removeRanges_sublist _ _).trans (List.drop_sublist n _)).cons b
      · have hrest : ¬ StaysOpen char p s := by
          intro hp
          refine hopen fun pre x y rest heq hx hy => ?_
          cases pre with
          | nil =>
              obtain ⟨rfl, rfl⟩ := List.cons.inj heq
              by_contra hclosed
              exact hmatch ⟨y, rest, rfl, hx, hy, hclosed⟩
          | cons c pre => exact hp pre x y rest (List.cons.inj heq).2 hx hy
        have hstays : removeRanges char ['/', '*'] ['*', '/'] 0 (a :: (p ++ s)) =
            a :: removeRanges char ['/', '*'] ['*', '/'] 0 (p ++ s) := by
          cases p with
          | nil => exact absurd (fun pre x y rest heq => by simp at heq) hrest
          | cons b p =>
              by_cases hopens : char a = '/' ∧ char b = '*'
              · refine removeRanges_opening_of_none hopens.1 hopens.2 ?_
                by_contra hclosed
                exact hmatch ⟨b, p, rfl, hopens.1, hopens.2, hclosed⟩
              · exact removeRanges_cons_of_not fun h => hopens ⟨h.1, Option.some.inj h.2⟩
        rw [List.cons_append, hstays]
        exact (ih hrest).cons

/-- Without any closing the second pass leaves the text as it is. -/
theorem removeRanges_of_none (h : closingEnd char ['*', '/'] s = none) :
    removeRanges char ['/', '*'] ['*', '/'] 0 s = s := by
  have hopen : StaysOpen char s [] := by
    rintro pre x y rest rfl - -
    rw [List.append_nil]
    rw [closing_eq_none_iff] at h ⊢
    have hsuffix : rest <:+ pre ++ x :: y :: rest :=
      ((List.suffix_cons y rest).trans (List.suffix_cons x _)).trans (List.suffix_append pre _)
    intro hclosed
    exact h (hclosed.trans (hsuffix.isInfix.map char))
  have happend := removeRanges_append hopen fun c _ _ => nofun
  rw [List.append_nil] at happend
  rw [happend]
  exact List.append_nil s

end Elements

end BrowCast
