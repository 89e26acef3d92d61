import BrowCast.Summary.CommentStripping

/-! # When comments are stripped exactly

What the two passes leave of a text, element by element. `Clean` says of the elements alone when
exactly the comments go. -/

namespace BrowCast

/-! ## The two passes over a text -/

/-- Without the marks an element is its text. -/
theorem map_fst_marked (t : Token) : t.marked.map Prod.fst = t.text := by
  rw [Token.marked, List.map_map]
  exact List.map_id _

/-- The marked text of a first element and the rest. -/
theorem markedText_cons (t : Token) (ts : List Token) :
    markedText (t :: ts) = t.marked ++ markedText ts := List.flatMap_cons

/-- Without the marks the marked text is the source text. -/
theorem map_fst_markedText (ts : List Token) : (markedText ts).map Prod.fst = sourceText ts := by
  induction ts with
  | nil => rfl
  | cons t ts ih => rw [markedText_cons, List.map_append, map_fst_marked, ih, sourceText_cons]

/-- Both texts begin with the same character. -/
theorem head_markedText (ts : List Token) :
    (markedText ts).head?.map Prod.fst = (sourceText ts).head? := by
  rw [← List.head?_map, map_fst_markedText]

/-- All characters of an element carry the same mark. -/
theorem snd_of_mem_marked {t : Token} {c : Char × Bool} (hc : c ∈ t.marked) :
    c.2 = t.isComment := by
  obtain ⟨d, -, rfl⟩ := List.mem_map.mp hc
  rfl

/-- Of a comment nothing is to be left. -/
theorem uncommented_cons_of_comment {t : Token} (h : t.isComment = true) (ts : List Token) :
    uncommented (t :: ts) = uncommented ts := by
  rw [uncommented, markedText_cons, List.filter_append, List.filter_eq_nil_iff.mpr, List.nil_append]
  · rfl
  · intro c hc
    simp [snd_of_mem_marked hc, h]

/-- Of another element everything is to be left. -/
theorem uncommented_cons_of_not {t : Token} (h : t.isComment = false) (ts : List Token) :
    uncommented (t :: ts) = t.marked ++ uncommented ts := by
  rw [uncommented, markedText_cons, List.filter_append, List.filter_eq_self.mpr]
  · rfl
  · intro c hc
    simp [snd_of_mem_marked hc, h]

/-- What the first pass leaves of a text, on a line that is lost or not. -/
def firstPass (lost : Bool) (ts : List Token) : List (Char × Bool) :=
  removeLines Prod.fst ['/', '/'] lost (markedText ts)

/-- What the second pass leaves. -/
def secondPass (s : List (Char × Bool)) : List (Char × Bool) :=
  removeRanges Prod.fst ['/', '*'] ['*', '/'] 0 s

/-- From here on exactly the comments are removed; on a line that is lost, an opening before it is
still to be closed. -/
def Strips : Bool → List Token → Prop
  | false, ts => secondPass (firstPass false ts) = uncommented ts
  | true, ts => ∃ n, closingEnd Prod.fst ['*', '/'] (firstPass true ts) = some n ∧
      secondPass ((firstPass true ts).drop n) = uncommented ts

/-- A text that lacks something that is no comment is not what is left without the comments. -/
theorem ne_uncommented_of_lacks {t : Token} {ts : List Token} {left out : List (Char × Bool)}
    (ht : t.isComment = false) (h : LacksOneOf t.marked (markedText ts) left)
    (hout : out.Sublist left) : out ≠ uncommented (t :: ts) := by
  intro heq
  obtain ⟨pre, a, post, hmarked, hleft⟩ := h
  have hkept : out.filter (fun c => !c.2) = out := by
    rw [heq, uncommented, List.filter_filter]
    simp
  have hlength := ((hout.trans hleft).filter fun c => !c.2).length_le
  rw [hkept, heq, uncommented_cons_of_not ht, hmarked] at hlength
  have hpre := List.length_filter_le (fun c : Char × Bool => !c.2) pre
  have hpost := List.length_filter_le (fun c : Char × Bool => !c.2) post
  rw [List.filter_append, List.filter_append] at hlength
  simp only [List.length_append, List.length_cons] at hlength
  rw [← uncommented] at hlength
  omega

/-! ## The first pass over a text -/

section FirstPass

variable {ts : List Token} {c quote : Char} {body : List Char}

/-- The first pass keeps the first character when it does not start a `//`. -/
theorem head_firstPass (h : (sourceText ts).head? ≠ some '/') :
    (firstPass false ts).head? = (markedText ts).head? := by
  rw [← head_markedText] at h
  rw [firstPass]
  cases hs : markedText ts with
  | nil => rfl
  | cons a s =>
      rw [hs] at h
      rw [removeLines_cons_of_not fun hopens => h (congrArg some hopens.1)]
      rfl

/-- The first pass keeps a character of code that does not begin a comment with the next one. -/
theorem firstPass_code (h : Token.EndsBefore ts (.code c)) :
    firstPass false (.code c :: ts) = (c, false) :: firstPass false ts := by
  rw [firstPass, markedText_cons]
  apply removeLines_cons_of_not
  rintro ⟨hc, hnext⟩
  exact (h hc).1 (by rw [← head_markedText]; exact hnext)

/-- A line comment goes up to the end of its line. -/
theorem firstPass_lineComment (lost : Bool) (h : Token.EndsBefore ts (.lineComment body)) :
    firstPass lost (.lineComment body :: ts) = firstPass lost ts := by
  obtain ⟨hbody, hend⟩ := h
  have hline : ∀ a ∈ (Token.lineComment body).marked, isLineTerminator a.1 = false := by
    intro a ha
    obtain ⟨c, hc, rfl⟩ := List.mem_map.mp ha
    simp only [Token.text, List.mem_cons] at hc
    rcases hc with rfl | rfl | hc
    · rfl
    · rfl
    · exact hbody c hc
  have htrue : firstPass true (.lineComment body :: ts) = firstPass true ts := by
    rw [firstPass, markedText_cons, removeLines_true_append hline]
    rfl
  cases lost with
  | true => exact htrue
  | false =>
      have hopens : firstPass false (.lineComment body :: ts) = firstPass true ts := by
        rw [← htrue, firstPass, markedText_cons]
        exact removeLines_cons_of_slashes rfl rfl
      rw [hopens]
      rcases hend with rfl | ⟨c, rest, hc, rfl⟩
      · rfl
      · -- the line is left at its terminator
        have hslash : c ≠ '/' := ne_of_isLineTerminator hc rfl
        show removeLines Prod.fst _ true ((c, false) :: markedText rest) =
          removeLines Prod.fst _ false ((c, false) :: markedText rest)
        rw [removeLines_true_cons_of_terminator hc, removeLines_cons_of_not fun h => hslash h.1]

/-- A quote is no part of `//`, `/*` or `*/`. -/
theorem ne_slash_of_isQuote (h : isQuote quote = true) : quote ≠ '/' ∧ quote ≠ '*' := by
  constructor <;> rintro rfl <;> cases h

/-- The quotation marks of a literal are in no pair of the characters that delimit comments. -/
theorem infix_literal_iff (h : isQuote quote = true) :
    ['/', '/'] <:+: (Token.literal quote body).marked.map Prod.fst ↔ ['/', '/'] <:+: body := by
  obtain ⟨hslash, -⟩ := ne_slash_of_isQuote h
  rw [map_fst_marked, Token.text, pair_infix_cons_iff, List.infix_concat_iff]
  rw [or_iff_right, or_iff_right]
  · rintro ⟨pre, heq⟩
    have hlast := congrArg List.getLast? heq
    simp only [List.getLast?_append, List.getLast?_singleton] at hlast
    exact hslash (Option.some.inj hlast).symm
  · intro hopens
    exact hslash hopens.1

/-- A literal ends with its quote. -/
theorem getLast_literal :
    (Token.literal quote body).marked.getLast? = some (quote, false) := by
  rw [Token.marked, Token.text, List.map_cons, List.map_append, List.map_singleton,
    List.getLast?_cons, List.getLast?_concat]
  rfl

/-- A literal without a `//` stays. -/
theorem firstPass_literal (h : isQuote quote = true) (hslashes : ¬ ['/', '/'] <:+: body) :
    firstPass false (.literal quote body :: ts) =
      (Token.literal quote body).marked ++ firstPass false ts := by
  rw [firstPass, markedText_cons, removeLines_append]
  · rfl
  · rwa [infix_literal_iff h]
  · intro a ha hslash
    rw [getLast_literal] at ha
    cases ha
    exact absurd hslash (ne_slash_of_isQuote h).1

/-- What a block comment leaves starts with its opening, on a line that is not lost. -/
theorem firstPass_blockComment (h : Token.EndsBefore ts (.blockComment body)) (lost : Bool) :
    ∃ kept, LeavesOf Prod.fst lost (losesLine lost (body ++ ['*', '/']) (sourceText ts).head?)
        ((body ++ ['*', '/']).map fun c => (c, true)) kept ∧
      firstPass lost (.blockComment body :: ts) =
        (if lost then [] else [('/', true), ('*', true)]) ++
        (kept ++ firstPass (losesLine lost (body ++ ['*', '/']) (sourceText ts).head?) ts) := by
  have hclose : closingEnd Prod.fst ['*', '/'] ((body ++ ['*', '/']).map fun c => (c, true)) =
      some ((body ++ ['*', '/']).map fun c => (c, true)).length := by
    have hmap : closingEnd Prod.fst ['*', '/'] ((body ++ ['*', '/']).map fun c => (c, true)) =
        closingEnd id ['*', '/'] (body ++ ['*', '/']) := closingEnd_map (fun _ => rfl) _
    rw [hmap, List.length_map, List.length_append]
    exact h
  obtain ⟨kept, hkept, hpass⟩ := removeLines_comment (s := markedText ts) hclose lost
  have hmap : ((body ++ ['*', '/']).map fun c => (c, true)).map Prod.fst = body ++ ['*', '/'] := by
    rw [List.map_map]
    exact List.map_id _
  rw [hmap, head_markedText] at hkept hpass
  refine ⟨kept, hkept, ?_⟩
  rw [firstPass, firstPass, markedText_cons, ← hpass]
  show removeLines Prod.fst _ lost (('/', true) :: ('*', true) ::
    ((body ++ ['*', '/']).map (fun c => (c, true)) ++ markedText ts)) = _
  cases lost with
  | true =>
      rw [removeLines_true_cons_of_not rfl, removeLines_true_cons_of_not rfl]
      rfl
  | false =>
      rw [removeLines_cons_of_not, removeLines_cons_of_not]
      · rfl
      · rintro ⟨hc, -⟩
        cases hc
      · rintro ⟨-, hc⟩
        cases hc

end FirstPass

/-! ## Element by element -/

section Strips

variable {t : Token} {ts : List Token} {c quote : Char} {body : List Char} {lost : Bool}

/-- At the end of the text nothing is left to strip, unless an opening is still to be closed. -/
theorem strips_nil : Strips lost [] ↔ lost = false := by
  cases lost with
  | false => exact iff_of_true rfl rfl
  | true => exact iff_of_false (fun ⟨_, h, _⟩ => nomatch h) nofun

/-- A character of code does not matter to the passes. -/
theorem strips_code (h : Token.EndsBefore ts (.code c)) :
    Strips false (.code c :: ts) ↔ Strips false ts := by
  have hstays : secondPass ((c, false) :: firstPass false ts) =
      (c, false) :: secondPass (firstPass false ts) := by
    apply removeRanges_cons_of_not
    rintro ⟨hc, hnext⟩
    obtain ⟨hslash, hstar⟩ := h hc
    rw [head_firstPass hslash, head_markedText] at hnext
    exact hstar hnext
  rw [Strips, Strips, firstPass_code h, hstays, uncommented_cons_of_not rfl]
  exact ⟨fun heq => (List.cons.inj heq).2, congrArg ((c, false) :: ·)⟩

/-- Nor does a line comment. -/
theorem strips_lineComment (h : Token.EndsBefore ts (.lineComment body)) :
    Strips lost (.lineComment body :: ts) ↔ Strips lost ts := by
  cases lost <;> rw [Strips, Strips, firstPass_lineComment _ h, uncommented_cons_of_comment rfl]

/-- What is no comment does not survive on a line that is lost. -/
theorem not_strips_of_lost (ht : t.isComment = false) : ¬ Strips true (t :: ts) := by
  rintro ⟨n, hn, heq⟩
  obtain ⟨m, rfl⟩ : ∃ m, n = m + 1 := Nat.exists_eq_succ_of_ne_zero (by
    rintro rfl
    exact closing_ne_zero hn)
  obtain ⟨a, p, hmarked⟩ : ∃ a p, t.marked = a :: p := by cases t <;> exact ⟨_, _, rfl⟩
  have hleft : ((firstPass true (t :: ts)).drop (m + 1)).Sublist (p ++ markedText ts) := by
    rw [firstPass, markedText_cons, hmarked, List.cons_append]
    cases ha : isLineTerminator a.1 with
    | true =>
        rw [removeLines_true_cons_of_terminator ha]
        exact (List.drop_sublist m _).trans (removeLines_sublist false _)
    | false =>
        rw [removeLines_true_cons_of_not ha]
        exact (List.drop_sublist (m + 1) _).trans (removeLines_sublist true _)
  exact ne_uncommented_of_lacks ht ⟨[], a, p, hmarked, hleft⟩ (removeRanges_sublist 0 _) heq

/-- A comment that is opened goes exactly when it is closed. -/
theorem secondPass_opening {s : List (Char × Bool)} :
    secondPass (('/', true) :: ('*', true) :: s) = uncommented ts ↔
      ∃ n, closingEnd Prod.fst ['*', '/'] s = some n ∧ secondPass (s.drop n) = uncommented ts := by
  rw [secondPass]
  cases hs : closingEnd Prod.fst ['*', '/'] s with
  | none =>
      rw [removeRanges_opening_of_none (by rfl) (by rfl) hs]
      refine iff_of_false (fun heq => ?_) (fun ⟨_, h, _⟩ => nomatch h)
      have hmem : ('/', true) ∈ uncommented ts := by
        rw [← heq]
        exact List.mem_cons_self
      cases (List.mem_filter.mp hmem).2
  | some n =>
      rw [removeRanges_opening_of_some (by rfl) (by rfl) hs]
      constructor
      · intro heq
        exact ⟨n, rfl, heq⟩
      · rintro ⟨m, hm, heq⟩
        cases hm
        exact heq

/-- A block comment matters by whether it loses the rest of the line to the first pass. -/
theorem strips_blockComment (h : Token.EndsBefore ts (.blockComment body)) :
    Strips lost (.blockComment body :: ts) ↔
      Strips (losesLine lost (body ++ ['*', '/']) (sourceText ts).head?) ts := by
  obtain ⟨kept, hkept, hpass⟩ := firstPass_blockComment h lost
  generalize losesLine lost (body ++ ['*', '/']) (sourceText ts).head? = loses at hkept hpass ⊢
  have hclosing : (∃ n, closingEnd Prod.fst ['*', '/'] (kept ++ firstPass loses ts) = some n ∧
      secondPass ((kept ++ firstPass loses ts).drop n) = uncommented ts) ↔ Strips loses ts := by
    cases loses with
    | false =>
        rw [hkept.closed rfl]
        constructor
        · rintro ⟨n, hn, heq⟩
          cases hn
          rwa [List.drop_left] at heq
        · intro heq
          exact ⟨_, rfl, by rwa [List.drop_left]⟩
    | true =>
        have hhead : (firstPass true ts).head?.map Prod.fst ≠ some '/' := by
          intro hslash
          obtain ⟨a, ha, hc⟩ := Option.map_eq_some_iff.mp hslash
          exact ne_of_isLineTerminator (head_removeLines_true _ a ha) rfl hc
        rw [hkept.unclosed rfl _ hhead]
        constructor
        · rintro ⟨n, hn, heq⟩
          obtain ⟨m, hm, rfl⟩ := Option.map_eq_some_iff.mp hn
          refine ⟨m, hm, ?_⟩
          rwa [Nat.add_comm, List.drop_length_add_append] at heq
        · rintro ⟨m, hm, heq⟩
          refine ⟨m + kept.length, by rw [hm]; rfl, ?_⟩
          rwa [Nat.add_comm, List.drop_length_add_append]
  rw [← hclosing]
  cases lost with
  | false =>
      rw [Strips, hpass, uncommented_cons_of_comment rfl]
      exact secondPass_opening
  | true =>
      rw [Strips, hpass, uncommented_cons_of_comment rfl]
      exact Iff.rfl

/-- A literal goes through when it has no `//` and opens nothing that is closed behind it. -/
theorem strips_literal (h : isQuote quote = true) :
    Strips false (.literal quote body :: ts) ↔ ¬ ['/', '/'] <:+: body ∧
      StaysOpen Prod.fst (Token.literal quote body).marked (firstPass false ts) ∧
        Strips false ts := by
  by_cases hslashes : ['/', '/'] <:+: body
  · refine iff_of_false ?_ fun hboth => hboth.1 hslashes
    have hmarked := (infix_literal_iff h).mpr hslashes
    exact ne_uncommented_of_lacks rfl (removeLines_lacks hmarked) (removeRanges_sublist 0 _)
  · rw [and_iff_right hslashes, Strips, firstPass_literal h hslashes]
    by_cases hopen : StaysOpen Prod.fst (Token.literal quote body).marked (firstPass false ts)
    · rw [and_iff_right hopen, secondPass, removeRanges_append hopen, uncommented_cons_of_not rfl]
      · exact List.append_right_inj _
      · intro a ha hslash
        rw [getLast_literal] at ha
        cases ha
        exact absurd hslash (ne_slash_of_isQuote h).1
    · refine iff_of_false ?_ fun hboth => hopen hboth.1
      have hlacks := (removeRanges_lacks hopen).mono (removeLines_sublist false (markedText ts))
      exact ne_uncommented_of_lacks rfl hlacks (List.Sublist.refl _)

end Strips

/-! ## Clean texts -/

/-- Nothing that a literal opens is closed: after each `/*` in it there is no `*/`, neither in it
nor in what follows, line comments aside. -/
def OpensNothing (quote : Char) (body : List Char) (ts : List Token) : Prop :=
  ∀ s ∈ body.tails, ['/', '*'] <+: s → ¬ ['*', '/'] <:+: s.drop 2 ++
    quote :: sourceText (ts.filter fun t => !t.isLineComment)

instance (quote : Char) (body : List Char) (ts : List Token) :
    Decidable (OpensNothing quote body ts) := by
  unfold OpensNothing
  infer_instance

/-- No literal has a `//` or opens what is closed, and a line that is lost to a `//` in a block
comment has nothing but block comments until one of them leaves it. -/
def Clean : Bool → List Token → Prop
  | lost, [] => lost = false
  | lost, .code _ :: ts => lost = false ∧ Clean false ts
  | lost, .lineComment _ :: ts => lost = false ∧ Clean false ts
  | lost, .literal quote body :: ts =>
      lost = false ∧ ¬ ['/', '/'] <:+: body ∧ OpensNothing quote body ts ∧ Clean false ts
  | lost, .blockComment body :: ts =>
      Clean (losesLine lost (body ++ ['*', '/']) (sourceText ts).head?) ts

instance decidableClean : ∀ (lost : Bool) (ts : List Token), Decidable (Clean lost ts)
  | lost, [] => inferInstanceAs (Decidable (lost = false))
  | _, .code _ :: ts => have := decidableClean false ts; inferInstanceAs (Decidable (_ ∧ _))
  | _, .lineComment _ :: ts => have := decidableClean false ts; inferInstanceAs (Decidable (_ ∧ _))
  | _, .literal _ _ :: ts => have := decidableClean false ts; inferInstanceAs (Decidable (_ ∧ _))
  | lost, .blockComment body :: ts =>
      decidableClean (losesLine lost (body ++ ['*', '/']) (sourceText ts).head?) ts

section Clean

variable {ts : List Token} {quote : Char} {body : List Char}

/-- On clean texts the first pass leaves a mark where there is a block comment. -/
theorem firstPass_eq_uncommented_iff (hlexed : Lexed ts) (hclean : Clean false ts) :
    firstPass false ts = uncommented ts ↔ ∀ t ∈ ts, t.isBlockComment = false := by
  induction ts with
  | nil => exact iff_of_true rfl nofun
  | cons t ts ih =>
      obtain ⟨hends, hlexed⟩ := hlexed
      rw [List.forall_mem_cons]
      cases t with
      | code c =>
          refine Iff.trans ?_ (and_iff_right rfl).symm
          rw [firstPass_code hends, uncommented_cons_of_not rfl, ← ih hlexed hclean.2]
          exact ⟨fun heq => (List.cons.inj heq).2, congrArg ((c, false) :: ·)⟩
      | literal quote body =>
          refine Iff.trans ?_ (and_iff_right rfl).symm
          rw [firstPass_literal hends hclean.2.1, uncommented_cons_of_not rfl,
            ← ih hlexed hclean.2.2.2]
          exact List.append_right_inj _
      | lineComment body =>
          refine Iff.trans ?_ (and_iff_right rfl).symm
          rw [firstPass_lineComment false hends, uncommented_cons_of_comment rfl,
            ← ih hlexed hclean.2]
      | blockComment body =>
          obtain ⟨kept, -, hpass⟩ := firstPass_blockComment hends false
          refine iff_of_false (fun heq => ?_) (fun hall => nomatch hall.1)
          have hmem : ('/', true) ∈ uncommented (.blockComment body :: ts) := by
            rw [← heq, hpass]
            exact List.mem_cons_self
          cases (List.mem_filter.mp hmem).2

/-- Without block comments it is the line comments that go. -/
theorem map_fst_uncommented (h : ∀ t ∈ ts, t.isBlockComment = false) :
    (uncommented ts).map Prod.fst = sourceText (ts.filter fun t => !t.isLineComment) := by
  induction ts with
  | nil => rfl
  | cons t ts ih =>
      obtain ⟨hblock, hrest⟩ := List.forall_mem_cons.mp h
      cases hcomment : t.isComment with
      | true =>
          have hline : t.isLineComment = true := by
            cases t with
            | lineComment body => rfl
            | blockComment body => cases hblock
            | code c => cases hcomment
            | literal quote body => cases hcomment
          rw [uncommented_cons_of_comment hcomment, ih hrest, List.filter_cons_of_neg]
          simp [hline]
      | false =>
          have hline : t.isLineComment = false := by
            cases t with
            | lineComment body => cases hcomment
            | _ => rfl
          rw [uncommented_cons_of_not hcomment, List.map_append, map_fst_marked, ih hrest,
            List.filter_cons_of_pos, sourceText_cons]
          simp [hline]

/-- A block comment has a closing. -/
theorem closing_infix_of_blockComment {t : Token} (ht : t ∈ ts) (hblock : t.isBlockComment = true) :
    ['*', '/'] <:+: sourceText (ts.filter fun t => !t.isLineComment) := by
  have hclosing : ['*', '/'] <:+: t.text := by
    cases t with
    | blockComment body => exact ⟨'/' :: '*' :: body, [], by simp [Token.text]⟩
    | _ => cases hblock
  have hkept : t ∈ ts.filter fun t => !t.isLineComment := by
    refine List.mem_filter.mpr ⟨ht, ?_⟩
    cases t with
    | blockComment body => rfl
    | _ => cases hblock
  exact hclosing.trans (List.infix_of_mem_flatten (List.mem_map_of_mem hkept))

/-- What the first pass leaves of a text has a closing exactly when the text has one that is in no
line comment. -/
theorem closing_firstPass_iff (hlexed : Lexed ts) (hclean : Clean false ts)
    (hstrips : Strips false ts) (s : List Char) :
    ['*', '/'] <:+: s ++ (firstPass false ts).map Prod.fst ↔
      ['*', '/'] <:+: s ++ sourceText (ts.filter fun t => !t.isLineComment) := by
  by_cases hblock : ∀ t ∈ ts, t.isBlockComment = false
  · rw [(firstPass_eq_uncommented_iff hlexed hclean).mpr hblock, map_fst_uncommented hblock]
  · have hfirst : ['*', '/'] <:+: (firstPass false ts).map Prod.fst := by
      by_contra hno
      have hsame : secondPass (firstPass false ts) = firstPass false ts :=
        removeRanges_of_none (closing_eq_none_iff.mpr hno)
      refine hblock ((firstPass_eq_uncommented_iff hlexed hclean).mp ?_)
      rw [← hsame]
      exact hstrips
    push Not at hblock
    obtain ⟨t, ht, hcomment⟩ := hblock
    have htext := closing_infix_of_blockComment ht (Bool.eq_true_of_not_eq_false hcomment)
    exact iff_of_true (hfirst.trans (List.suffix_append s _).isInfix)
      (htext.trans (List.suffix_append s _).isInfix)

/-- Whether a literal opens anything can be read off the elements. -/
theorem staysOpen_literal_iff (hquote : isQuote quote = true) (hlexed : Lexed ts)
    (hclean : Clean false ts) (hstrips : Strips false ts) :
    StaysOpen Prod.fst (Token.literal quote body).marked (firstPass false ts) ↔
      OpensNothing quote body ts := by
  obtain ⟨hslash, hstar⟩ := ne_slash_of_isQuote hquote
  rw [staysOpen_iff, map_fst_marked]
  simp only [closing_firstPass_iff hlexed hclean hstrips]
  constructor
  · rintro h s hs ⟨rest, rfl⟩
    obtain ⟨pre, rfl⟩ := List.mem_tails _ _ |>.mp hs
    have hclosing := h (quote :: pre) (rest ++ [quote]) (by simp [Token.text])
    rwa [List.append_assoc] at hclosing
  · intro h pre rest heq
    obtain ⟨pre, rfl⟩ : ∃ pre', pre = quote :: pre' := by
      cases pre with
      | nil => exact absurd (List.cons.inj heq).1 hslash
      | cons c pre => exact ⟨pre, by rw [(List.cons.inj heq).1]⟩
    have hbody : body ++ [quote] = pre ++ '/' :: '*' :: rest := (List.cons.inj heq).2
    obtain rfl | ⟨rest, c, rfl⟩ := List.eq_nil_or_concat rest
    · have hlast := congrArg List.getLast? hbody
      rw [List.getLast?_concat] at hlast
      simp at hlast
      exact absurd hlast hstar
    · have hsplit : body ++ [quote] = (pre ++ '/' :: '*' :: rest) ++ [c] := by
        rw [hbody]
        simp
      obtain ⟨rfl, hc⟩ := List.append_inj' hsplit rfl
      cases hc
      have hclosing := h ('/' :: '*' :: rest)
        (List.mem_tails _ _ |>.mpr (List.suffix_append pre _)) ⟨rest, rfl⟩
      rw [List.concat_eq_append, List.append_assoc]
      exact hclosing

/-- **The two passes, element by element.** -/
theorem strips_iff_clean (h : Lexed ts) (lost : Bool) : Strips lost ts ↔ Clean lost ts := by
  induction ts generalizing lost with
  | nil => exact strips_nil
  | cons t ts ih =>
      obtain ⟨hends, hlexed⟩ := h
      cases t with
      | code c =>
          cases lost with
          | true => exact iff_of_false (not_strips_of_lost rfl) nofun
          | false =>
              rw [strips_code hends, ih hlexed false]
              exact (and_iff_right rfl).symm
      | literal quote body =>
          cases lost with
          | true => exact iff_of_false (not_strips_of_lost rfl) nofun
          | false =>
              have hstays : Strips false ts → (StaysOpen Prod.fst
                  (Token.literal quote body).marked (firstPass false ts) ↔
                  OpensNothing quote body ts) := fun hstrips =>
                staysOpen_literal_iff hends hlexed ((ih hlexed false).mp hstrips) hstrips
              rw [strips_literal hends, and_congr_left hstays, ih hlexed false]
              exact (and_iff_right rfl).symm
      | lineComment body =>
          cases lost with
          | true =>
              rw [strips_lineComment hends]
              refine iff_of_false ?_ nofun
              -- the line goes on to its terminator, or the text ends
              rcases hends.2 with rfl | ⟨c, rest, -, rfl⟩
              · intro h
                exact nomatch strips_nil.mp h
              · exact not_strips_of_lost rfl
          | false =>
              rw [strips_lineComment hends, ih hlexed false]
              exact (and_iff_right rfl).symm
      | blockComment body =>
          rw [strips_blockComment hends]
          exact ih hlexed _

end Clean

end BrowCast
