import BrowCast.JavaScript.Replace

/-! # Source texts

The lexical elements that matter for comments, in the languages whose comments are `//` to the end
of the line and `/*` to `*/`: ordinary characters, quoted literals with escapes, and the two kinds
of comments. `lex` reads a text from left to right in four modes; what it returns is the text cut
into elements, each of which ends where the language says (`lex_eq_some`). -/

namespace BrowCast

/-- A lexical element. -/
inductive Token where
  /-- A character outside literals and comments. -/
  | code (c : Char)
  | literal (quote : Char) (body : List Char)
  | lineComment (body : List Char)
  | blockComment (body : List Char)
  deriving DecidableEq

namespace Token

/-- The element as it is written. -/
def text : Token → List Char
  | .code c => [c]
  | .literal quote body => quote :: (body ++ [quote])
  | .lineComment body => '/' :: '/' :: body
  | .blockComment body => '/' :: '*' :: (body ++ ['*', '/'])

/-- The element is a comment. -/
def isComment : Token → Bool
  | .code _ | .literal _ _ => false
  | .lineComment _ | .blockComment _ => true

/-- The element is a comment up to the end of a line. -/
def isLineComment : Token → Bool
  | .lineComment _ => true
  | _ => false

/-- The element is a comment between `/*` and `*/`. -/
def isBlockComment : Token → Bool
  | .blockComment _ => true
  | _ => false

/-- The characters of the element, each with whether it is in a comment. -/
def marked (t : Token) : List (Char × Bool) := t.text.map fun c => (c, t.isComment)

end Token

/-- The text of some elements. -/
def sourceText (ts : List Token) : List Char := ts.flatMap Token.text

/-- The text with its comments marked. -/
def markedText (ts : List Token) : List (Char × Bool) := ts.flatMap Token.marked

/-- The text without its comments. -/
def uncommented (ts : List Token) : List (Char × Bool) := (markedText ts).filter fun c => !c.2

/-! ## The lexer -/

/-- A quotation mark, double or single. -/
def isQuote (c : Char) : Bool := c.toNat == 34 || c.toNat == 39

/-- Where the lexer is: between elements, or in one of which it has read this much. -/
inductive LexMode where
  | code
  | literal (quote : Char) (body : List Char)
  | lineComment (body : List Char)
  | blockComment (body : List Char)

/-- The elements of the text from here on; `none` when a literal or a comment is not closed. -/
def lexFrom : LexMode → List Char → Option (List Token)
  | .code, [] => some []
  | .code, '/' :: '/' :: s => lexFrom (.lineComment []) s
  | .code, '/' :: '*' :: s => lexFrom (.blockComment []) s
  | .code, c :: s =>
      if isQuote c then lexFrom (.literal c []) s else (lexFrom .code s).map (.code c :: ·)
  | .literal _ _, [] => none
  -- an escaped line end continues the literal
  | .literal q body, '\\' :: '\r' :: '\n' :: s =>
      lexFrom (.literal q (body ++ ['\\', '\r', '\n'])) s
  | .literal q body, '\\' :: c :: s => lexFrom (.literal q (body ++ ['\\', c])) s
  | .literal q body, c :: s =>
      if c = q then (lexFrom .code s).map (.literal q body :: ·)
      else if c == '\\' || isLineTerminator c then none
      else lexFrom (.literal q (body ++ [c])) s
  | .lineComment body, [] => some [.lineComment body]
  | .lineComment body, c :: s =>
      if isLineTerminator c then (lexFrom .code s).map fun ts => .lineComment body :: .code c :: ts
      else lexFrom (.lineComment (body ++ [c])) s
  | .blockComment _, [] => none
  | .blockComment body, '*' :: '/' :: s => (lexFrom .code s).map (.blockComment body :: ·)
  | .blockComment body, c :: s => lexFrom (.blockComment (body ++ [c])) s

/-- The elements of a text. -/
def lex (source : List Char) : Option (List Token) := lexFrom .code source

example : lex "a /* b */ c".toList = some
    [.code 'a', .code ' ', .blockComment " b ".toList, .code ' ', .code 'c'] := by decide

/-! ## What the lexer guarantees -/

/-- The part of the element that has been read. -/
def LexMode.opened : LexMode → List Char
  | .code => []
  | .literal q body => q :: body
  | .lineComment body => '/' :: '/' :: body
  | .blockComment body => '/' :: '*' :: body

/-- The source text of a first element and the rest. -/
theorem sourceText_cons (t : Token) (ts : List Token) :
    sourceText (t :: ts) = t.text ++ sourceText ts := List.flatMap_cons

/-- The elements are the text. -/
theorem sourceText_lexFrom {mode : LexMode} {s : List Char} {ts : List Token}
    (h : lexFrom mode s = some ts) : sourceText ts = mode.opened ++ s := by
  fun_induction lexFrom mode s generalizing ts with
  | case1 | case12 =>
      cases h
      simp [sourceText, Token.text, LexMode.opened]
  | case2 s ih | case3 s ih | case4 c s _ _ _ ih => exact ih h
  | case7 q body s ih | case8 q body c s _ ih | case11 q body c s _ _ _ _ ih
  | case14 body c s _ ih | case17 body c s _ ih =>
      -- the element goes on
      rw [ih h]
      simp [LexMode.opened]
  | case5 c s _ _ _ ih | case9 body c s _ _ ih | case16 body s ih =>
      -- the element ends
      obtain ⟨rest, hrest, rfl⟩ := Option.map_eq_some_iff.mp h
      rw [sourceText_cons, ih hrest]
      simp [Token.text, LexMode.opened]
  | case13 body c s _ ih =>
      obtain ⟨rest, hrest, rfl⟩ := Option.map_eq_some_iff.mp h
      rw [sourceText_cons, sourceText_cons, ih hrest]
      simp [Token.text, LexMode.opened]
  | case6 | case10 | case15 => cases h

/-- The element ends where it does, with these elements after it: a slash outside literals does not
open a comment, a line comment reaches to the end of its line, and a block comment to the first
closing. -/
def Token.EndsBefore (ts : List Token) : Token → Prop
  | .code c => c = '/' → (sourceText ts).head? ≠ some '/' ∧ (sourceText ts).head? ≠ some '*'
  | .literal quote _ => isQuote quote = true
  | .lineComment body => (∀ c ∈ body, isLineTerminator c = false) ∧
      (ts = [] ∨ ∃ c rest, isLineTerminator c = true ∧ ts = .code c :: rest)
  | .blockComment body => closingEnd id ['*', '/'] (body ++ ['*', '/']) = some (body.length + 2)

/-- Every element ends where it does. -/
def Lexed : List Token → Prop
  | [] => True
  | t :: ts => t.EndsBefore ts ∧ Lexed ts

/-- What has been read of the element allows it to go on. -/
def LexMode.Open (s : List Char) : LexMode → Prop
  | .code => True
  | .literal quote _ => isQuote quote = true
  | .lineComment body => ∀ c ∈ body, isLineTerminator c = false
  | .blockComment body =>
      closingEnd id ['*', '/'] (body ++ s) =
        (closingEnd id ['*', '/'] s).map (· + body.length)

/-- A character that begins no `*/` is passed over in the search for one. -/
theorem closingEnd_cons_of_not {a : Char} {s : List Char}
    (h : ¬ (a = '*' ∧ s.head? = some '/')) :
    closingEnd id ['*', '/'] (a :: s) = (closingEnd id ['*', '/'] s).map (· + 1) := by
  rw [closingEnd, if_neg]
  rw [opensWith_pair, Option.map_id_fun]
  exact h

/-- A `*/` ends where its two characters do. -/
theorem closingEnd_closing (s : List Char) :
    closingEnd id ['*', '/'] ('*' :: '/' :: s) = some 2 := rfl

/-- Where the first closing ends depends on the text up to there only. -/
theorem closingEnd_append {body s : List Char}
    (h : closingEnd id ['*', '/'] (body ++ '*' :: '/' :: s) = some (body.length + 2)) :
    closingEnd id ['*', '/'] (body ++ ['*', '/']) = some (body.length + 2) := by
  induction body with
  | nil => rfl
  | cons a body ih =>
      rw [List.cons_append] at h ⊢
      have hhead : (body ++ ['*', '/']).head? = (body ++ '*' :: '/' :: s).head? := by
        cases body <;> rfl
      by_cases hopens : a = '*' ∧ (body ++ '*' :: '/' :: s).head? = some '/'
      · rw [closingEnd, if_pos (opensWith_pair.mpr (by rwa [Option.map_id_fun]))] at h
        cases h
      · rw [closingEnd_cons_of_not hopens] at h
        obtain ⟨n, hn, hlength⟩ := Option.map_eq_some_iff.mp h
        have hn : n = body.length + 2 := by
          rw [List.length_cons] at hlength
          omega
        subst hn
        rw [closingEnd_cons_of_not (by rwa [hhead]), ih (by assumption)]
        rfl

/-- What the lexer returns is a list of well-formed elements. -/
theorem lexed_lexFrom {mode : LexMode} {s : List Char} {ts : List Token} (hopen : mode.Open s)
    (h : lexFrom mode s = some ts) : Lexed ts := by
  fun_induction lexFrom mode s generalizing ts with
  | case1 =>
      cases h
      trivial
  | case2 s ih => exact ih nofun h
  | case3 s ih => exact ih (by simp [LexMode.Open]) h
  | case4 c s _ _ hquote ih => exact ih hquote h
  | case5 c s hline hblock _ ih =>
      obtain ⟨rest, hrest, rfl⟩ := Option.map_eq_some_iff.mp h
      have htext : sourceText rest = s := sourceText_lexFrom hrest
      -- a slash the lexer took for code is followed by no slash and no star
      refine ⟨fun hc => ?_, ih trivial hrest⟩
      rw [htext]
      constructor
      · intro hhead
        obtain ⟨s, rfl⟩ := List.head?_eq_some_iff.mp hhead
        exact hline s hc rfl
      · intro hhead
        obtain ⟨s, rfl⟩ := List.head?_eq_some_iff.mp hhead
        exact hblock s hc rfl
  | case6 | case10 | case15 => cases h
  | case7 q body s ih | case8 q body c s _ ih | case11 q body c s _ _ _ _ ih => exact ih hopen h
  | case9 body c s _ _ ih =>
      obtain ⟨rest, hrest, rfl⟩ := Option.map_eq_some_iff.mp h
      exact ⟨hopen, ih trivial hrest⟩
  | case12 body =>
      cases h
      -- the text ends in a line comment
      exact ⟨⟨hopen, Or.inl rfl⟩, trivial⟩
  | case13 body c s hterminator ih =>
      obtain ⟨rest, hrest, rfl⟩ := Option.map_eq_some_iff.mp h
      -- the terminator that ends a line comment is an element of its own
      refine ⟨⟨hopen, Or.inr ⟨c, rest, hterminator, rfl⟩⟩, ?_, ih trivial hrest⟩
      rintro rfl
      cases hterminator
  | case14 body c s hterminator ih =>
      refine ih ?_ h
      intro d hd
      rcases List.mem_append.mp hd with hold | hnew
      · exact hopen d hold
      · rw [List.mem_singleton.mp hnew]
        simpa using hterminator
  | case16 body s ih =>
      obtain ⟨rest, hrest, rfl⟩ := Option.map_eq_some_iff.mp h
      have hclosing : closingEnd id ['*', '/'] (body ++ '*' :: '/' :: s) = _ := hopen
      rw [closingEnd_closing, Option.map_some, Nat.add_comm] at hclosing
      exact ⟨closingEnd_append hclosing, ih trivial hrest⟩
  | case17 body c s hnot ih =>
      refine ih ?_ h
      have hclosing : closingEnd id ['*', '/'] (body ++ c :: s) = _ := hopen
      -- the character does not close the comment, so the first closing is further on
      have hopens : ¬ (c = '*' ∧ s.head? = some '/') := by
        rintro ⟨rfl, hhead⟩
        obtain ⟨s, rfl⟩ := List.head?_eq_some_iff.mp hhead
        exact hnot s rfl rfl
      rw [closingEnd_cons_of_not hopens, Option.map_map] at hclosing
      rw [LexMode.Open, List.append_assoc, List.singleton_append, hclosing]
      congr 1
      funext n
      simp [Nat.add_comm, Nat.add_left_comm]

/-- **What the lexer returns**: the text cut into elements that end where they do. -/
theorem lex_eq_some {source : List Char} {ts : List Token} (h : lex source = some ts) :
    sourceText ts = source ∧ Lexed ts := by
  have hopen : LexMode.code.Open source := trivial
  exact ⟨sourceText_lexFrom h, lexed_lexFrom hopen h⟩

end BrowCast
