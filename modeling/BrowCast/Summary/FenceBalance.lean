import BrowCast.Summary.Splitter
import Mathlib.Algebra.Ring.Parity

/-! # Parts and code blocks

A part that is cut between code blocks has an even number of fences. The look-ahead keeps a code
block whole when the limit falls on a line of code, but at a heading, or a comment that looks like
one, it stops or passes fences without noting them. -/

namespace BrowCast

namespace Splitter

/-- The number of fences among some lines. -/
def fences (lines : List Line) : ℕ := lines.countP isFence

/-- No line is a fence. -/
@[simp] theorem fences_nil : fences [] = 0 := rfl

/-- A first line counts if it is a fence. -/
theorem fences_cons (line : Line) (lines : List Line) :
    fences (line :: lines) = fences lines + if isFence line then 1 else 0 := List.countP_cons

/-- The fences of two lists of lines add up. -/
theorem fences_append (lines more : List Line) :
    fences (lines ++ more) = fences lines + fences more := List.countP_append

/-- Parts with evenly many fences have evenly many together. -/
theorem fences_flatMap_even {parts : List Part} (h : ∀ part ∈ parts, Even (fences part.lines)) :
    Even (fences (parts.flatMap Part.lines)) := by
  induction parts with
  | nil => exact ⟨0, rfl⟩
  | cons part parts ih =>
      rw [List.flatMap_cons, fences_append]
      have hrest := ih fun part hpart => h part (List.mem_cons_of_mem _ hpart)
      exact (h part List.mem_cons_self).add hrest

section Ahead

variable {rest : List Line}

/-- At a heading outside code, the look-ahead passes headings and fences. -/
theorem ahead_heading (rest : List Line) :
    ahead true false rest = (rest.takeWhile (fun l => isHeading l || isFence l), false) := by
  induction rest with
  | nil => rfl
  | cons next rest ih =>
      rw [ahead, ih]
      cases hheading : isHeading next <;> cases hfence : isFence next <;> simp [hheading, hfence]

/-- The line after the headings is a fence. -/
def ClosesAfterHeadings (rest : List Line) : Prop :=
  ∃ next ∈ (rest.dropWhile isHeading).head?, isFence next = true

/-- Headings before the closing fence do not matter. -/
theorem closesAfterHeadings_cons_of_heading {next : Line} (h : isHeading next = true) :
    ClosesAfterHeadings (next :: rest) ↔ ClosesAfterHeadings rest := by
  rw [ClosesAfterHeadings, List.dropWhile_cons_of_pos h, ClosesAfterHeadings]

/-- The first line that is no heading has to be the fence. -/
theorem closesAfterHeadings_cons_of_not {next : Line} (h : isHeading next = false) :
    ClosesAfterHeadings (next :: rest) ↔ isFence next = true := by
  rw [ClosesAfterHeadings, List.dropWhile_cons_of_neg (by simp [h])]
  simp

/-- At a heading in code, the look-ahead closes the code block if a fence follows the headings, and
passes no fence otherwise. -/
theorem ahead_heading_snippet (rest : List Line) :
    (ClosesAfterHeadings rest → fences (ahead true true rest).1 = 1 ∧
      (ahead true true rest).2 = false) ∧
    (¬ ClosesAfterHeadings rest → fences (ahead true true rest).1 = 0) := by
  induction rest with
  | nil => exact ⟨fun ⟨_, hnext, _⟩ => (by cases hnext), fun _ => rfl⟩
  | cons next rest ih =>
      cases hheading : isHeading next with
      | true =>
          have hfence := not_isFence_of_isHeading hheading
          rw [closesAfterHeadings_cons_of_heading hheading]
          simpa [ahead, hheading, hfence, fences_cons] using ih
      | false =>
          rw [closesAfterHeadings_cons_of_not hheading]
          cases hfence : isFence next <;> simp [ahead, hheading, hfence, fences_cons]

/-- In code, the look-ahead passes the lines up to the closing fence. -/
theorem ahead_snippet (h : 0 < fences rest) :
    fences (ahead false true rest).1 = 1 ∧ (ahead false true rest).2 = false := by
  induction rest with
  | nil => cases h
  | cons next rest ih =>
      rw [fences_cons] at h
      cases hfence : isFence next with
      | true => simp [ahead, hfence, fences_cons]
      | false =>
          simp only [hfence, Bool.false_eq_true, if_false, Nat.add_zero] at h
          simpa [ahead, hfence, fences_cons] using ih h

end Ahead

/-! ## Parts with an even number of fences -/

/-- The fence flag says whether the part at hand has an odd number of fences, and no part written
has. -/
structure Balanced (v : Variables) : Prop where
  inSnippet : v.inSnippet = true ↔ Odd (fences v.currentPart)
  written : ∀ part ∈ v.written, Even (fences part.lines)

variable (lines : List Line) (maxLinesPerPart : ℕ)

/-- What has to follow a heading at which a part ends: in code, the closing fence after nothing but
headings; outside code, an even number of fences before the first other line. -/
def HeadingCutsWell (inSnippet : Bool) (rest : List Line) : Prop :=
  if inSnippet then ClosesAfterHeadings rest
  else Even (fences (rest.takeWhile fun l => isHeading l || isFence l))

/-- At the line `line` the limit does not fall on a heading, or what follows is as it has to be. -/
def CutsWell (v : Variables) (line : Line) : Prop :=
  isHeading line = true → maxLinesPerPart ≤ v.currentPartLineCount + 1 →
    HeadingCutsWell v.inSnippet (lines.drop (v.i + 1))

/-- No code block is cut: at the start of each iteration `inSnippet` says whether an odd number of
fences has been consumed, and each part has an even number of them. -/
def KeepsBlocksWhole (maxLinesPerPart : ℕ) (fileContent : List Char) : Prop :=
  let lines := splitLines fileContent
  (∀ v, Reached lines maxLinesPerPart v → v.i < lines.length →
    (v.inSnippet = true ↔ Odd (fences (lines.take v.i)))) ∧
  ∀ fuel parts, splitMarkdownFile maxLinesPerPart fuel fileContent = some parts →
    ∀ part ∈ parts, Even (fences part.lines)

variable {lines maxLinesPerPart}

section Tail

variable {line : Line} {inSnippet : Bool} {rest : List Line}

/-- A tail that is right about fences ends outside code, with the fence that was missing. -/
theorem tail_balanced (hopen : inSnippet = true → 0 < fences rest)
    (hcut : isHeading line = true → HeadingCutsWell inSnippet rest) :
    (tail line inSnippet rest).2 = false ∧
      (inSnippet = true ↔ Odd (fences (tail line inSnippet rest).1)) := by
  rw [tail]
  cases hheading : isHeading line with
  | false =>
      cases inSnippet with
      | false => exact ⟨rfl, iff_of_false Bool.false_ne_true (by simp)⟩
      | true =>
          obtain ⟨hone, hclosed⟩ := ahead_snippet (hopen rfl)
          refine ⟨hclosed, iff_of_true rfl ?_⟩
          show Odd (fences (ahead false true rest).1)
          rw [hone]
          exact odd_one
  | true =>
      have hcut := hcut hheading
      cases inSnippet with
      | false =>
          show (ahead true false rest).2 = false ∧ (_ ↔ Odd (fences (ahead true false rest).1))
          rw [ahead_heading]
          exact ⟨rfl, iff_of_false Bool.false_ne_true (Nat.not_odd_iff_even.mpr hcut)⟩
      | true =>
          obtain ⟨hone, hclosed⟩ := (ahead_heading_snippet rest).1 hcut
          refine ⟨hclosed, iff_of_true rfl ?_⟩
          show Odd (fences (ahead true true rest).1)
          rw [hone]
          exact odd_one

/-- And a tail with the fence that was missing was right about fences. -/
theorem headingCutsWell_of_tail (hheading : isHeading line = true)
    (htail : inSnippet = true ↔ Odd (fences (tail line inSnippet rest).1)) :
    HeadingCutsWell inSnippet rest := by
  rw [tail, hheading, Bool.or_true, if_pos rfl] at htail
  cases inSnippet with
  | false =>
      rw [ahead_heading] at htail
      have hno := mt htail.mpr Bool.false_ne_true
      exact Nat.not_odd_iff_even.mp hno
  | true =>
      by_contra hopen
      have hodd := htail.mp rfl
      rw [(ahead_heading_snippet rest).2 hopen] at hodd
      exact absurd hodd (by decide)

end Tail

section Iteration

variable {v : Variables} {line : Line}

/-- As many fences have been consumed as are in the part at hand, up to an even number. -/
theorem odd_consumed_iff (hsplit : Split lines v)
    (hwritten : ∀ part ∈ v.written, Even (fences part.lines)) :
    Odd (fences (lines.take v.i)) ↔ Odd (fences v.currentPart) := by
  rw [← hsplit.inOrder, fences_append, Nat.odd_add]
  have heven := fences_flatMap_even hwritten
  rw [← Nat.not_even_iff_odd, ← Nat.not_even_iff_odd]
  tauto

/-- The fence flag with the line of the iteration is right about the part at hand with it. -/
theorem odd_enter_iff (hb : v.inSnippet = true ↔ Odd (fences v.currentPart)) :
    (v.inSnippet ^^ isFence line) = true ↔ Odd (fences (v.currentPart ++ [line])) := by
  rw [fences_append, fences_cons, fences_nil]
  cases hfence : isFence line with
  | false => simpa using hb
  | true =>
      simp only [Bool.xor_true, Bool.not_eq_true', if_true, Nat.zero_add]
      rw [Nat.odd_add_one, ← hb]
      simp

/-- The part that an iteration writes has an even number of fences when its tail has the fence that
was missing, and only then. -/
theorem even_written_iff {tail : List Line}
    (hb : v.inSnippet = true ↔ Odd (fences v.currentPart)) :
    Even (fences (v.currentPart ++ line :: tail)) ↔
      ((v.inSnippet ^^ isFence line) = true ↔ Odd (fences tail)) := by
  have happend : v.currentPart ++ line :: tail = (v.currentPart ++ [line]) ++ tail := by simp
  rw [happend, fences_append, Nat.even_add', odd_enter_iff hb]

/-- In code, a fence is still to come. -/
theorem fences_pos_of_odd (hsplit : Split lines v) (hb : Balanced v) (heven : Even (fences lines))
    (hline : lines[v.i]? = some line) (hopen : (v.inSnippet ^^ isFence line) = true) :
    0 < fences (lines.drop (v.i + 1)) := by
  have htaken : lines.take (v.i + 1) = lines.take v.i ++ [line] := by
    rw [List.take_add_one, hline, Option.toList_some]
  have hodd : Odd (fences (lines.take (v.i + 1))) := by
    have hpart := (odd_enter_iff hb.inSnippet).mp hopen
    have hconsumed := odd_consumed_iff hsplit hb.written
    rw [fences_append, Nat.odd_add] at hpart
    rw [htaken, fences_append, Nat.odd_add, hconsumed]
    exact hpart
  have htotal := fences_append (lines.take (v.i + 1)) (lines.drop (v.i + 1))
  rw [List.take_append_drop] at htotal
  rw [htotal] at heven
  have hrest : Odd (fences (lines.drop (v.i + 1))) := (Nat.even_add'.mp heven).mp hodd
  exact hrest.pos

/-- **One iteration** that cuts well keeps the balance. -/
theorem Balanced.next (hb : Balanced v) (hsplit : Split lines v) (heven : Even (fences lines))
    (hline : lines[v.i]? = some line) (hcut : CutsWell lines maxLinesPerPart v line) :
    Balanced (v.next lines maxLinesPerPart line) := by
  unfold Variables.next
  dsimp only
  split
  · next hlimit =>
      obtain ⟨hclosed, htail⟩ := tail_balanced
        (fences_pos_of_odd hsplit hb heven hline) fun hheading => by
          rw [not_isFence_of_isHeading hheading, Bool.xor_false]
          exact hcut hheading hlimit
      refine ⟨?_, ?_⟩
      · show (tail _ _ _).2 = true ↔ Odd (fences [])
        rw [hclosed]
        exact iff_of_false nofun (by simp)
      · intro part hpart
        rcases List.mem_append.mp hpart with hold | hnew
        · exact hb.written part hold
        · rw [List.mem_singleton.mp hnew]
          exact (even_written_iff hb.inSnippet).mpr htail
  · exact ⟨odd_enter_iff hb.inSnippet, hb.written⟩

/-- An iteration whose parts have an even number of fences each cuts well. -/
theorem cutsWell_of_written (hopen : v.inSnippet = true ↔ Odd (fences v.currentPart))
    (hwritten : ∀ part ∈ (v.next lines maxLinesPerPart line).written, Even (fences part.lines)) :
    CutsWell lines maxLinesPerPart v line := by
  intro hheading hlimit
  have hnext : Even (fences (v.currentPart ++
      line :: (tail line (v.inSnippet ^^ isFence line) (lines.drop (v.i + 1))).1)) := by
    refine hwritten ⟨v.fileIndex, _⟩ ?_
    unfold Variables.next
    dsimp only
    rw [if_pos hlimit]
    exact List.mem_append_right _ (List.mem_singleton.mpr rfl)
  have hcuts := headingCutsWell_of_tail hheading ((even_written_iff hopen).mp hnext)
  rw [not_isFence_of_isHeading hheading, Bool.xor_false] at hcuts
  exact hcuts

end Iteration

/-- Where every cut is well placed, the fences are balanced at every iteration. -/
theorem Reached.balanced {v : Variables} (h : Reached lines maxLinesPerPart v)
    (heven : Even (fences lines))
    (hcut : ∀ v line, Reached lines maxLinesPerPart v → lines[v.i]? = some line →
      CutsWell lines maxLinesPerPart v line) : Balanced v := by
  induction h with
  | start => exact ⟨iff_of_false nofun (by simp), nofun⟩
  | next hv hline ih => exact ih.next hv.split heven hline (hcut _ _ hv hline)

/-- The files in the end have an even number of fences each, if the lines have altogether. -/
theorem Balanced.files {v : Variables} (hb : Balanced v) (hsplit : Split lines v)
    (hend : v.i = lines.length) (heven : Even (fences lines)) :
    ∀ part ∈ v.files, Even (fences part.lines) := by
  have hpart : Even (fences v.currentPart) := by
    have hconsumed := odd_consumed_iff hsplit hb.written
    rw [hend, List.take_length] at hconsumed
    rw [← Nat.not_odd_iff_even, ← hconsumed, Nat.not_odd_iff_even]
    exact heven
  rw [Variables.files]
  split
  · intro part hmem
    rcases List.mem_append.mp hmem with hold | hnew
    · exact hb.written part hold
    · rw [List.mem_singleton.mp hnew]
      exact hpart
  · exact hb.written

/-- **When splitting keeps code blocks whole**: for a text with balanced fences, exactly when every
iteration cuts well. -/
theorem keepsBlocksWhole_iff {fileContent : List Char}
    (heven : Even (fences (splitLines fileContent))) :
    KeepsBlocksWhole maxLinesPerPart fileContent ↔
      ∀ v line, Reached (splitLines fileContent) maxLinesPerPart v →
        (splitLines fileContent)[v.i]? = some line →
        CutsWell (splitLines fileContent) maxLinesPerPart v line := by
  obtain ⟨w, hw, hend, hwritten, hfiles, hunique⟩ := exists_files maxLinesPerPart fileContent
  constructor
  · rintro ⟨hflag, hparts⟩ v line hv hline
    have hpart := hparts _ _ (hfiles _ (Nat.lt_succ_self _))
    have hmem : ∀ part ∈ w.written, part ∈ w.files := by
      intro part hpart
      rw [Variables.files]
      split
      · exact List.mem_append_left _ hpart
      · exact hpart
    have heach : ∀ u, Reached (splitLines fileContent) maxLinesPerPart u →
        ∀ part ∈ u.written, Even (fences part.lines) :=
      fun u hu part h => hpart part (hmem part (hwritten u hu h))
    obtain ⟨hlt, -⟩ := List.getElem?_eq_some_iff.mp hline
    have hopen := (hflag v hv hlt).trans (odd_consumed_iff hv.split (heach v hv))
    exact cutsWell_of_written hopen (heach _ (hv.next hline))
  · intro hcut
    refine ⟨fun v hv _ => ?_, fun fuel parts hsplit => ?_⟩
    · have hb := hv.balanced heven hcut
      rw [odd_consumed_iff hv.split hb.written]
      exact hb.inSnippet
    · rw [hunique fuel parts hsplit]
      exact (hw.balanced heven hcut).files hw.split hend heven

/-- A code block without headings is kept whole, with one line for each part. -/
theorem keepsBlocksWhole_codeBlock : KeepsBlocksWhole 1 "```\ncode\n```".toList := by
  have heven : Even (fences (splitLines "```\ncode\n```".toList)) := ⟨1, by decide⟩
  refine (keepsBlocksWhole_iff heven).mpr fun v line _ hline hheading _ => ?_
  have hnone : (splitLines "```\ncode\n```".toList).all (fun l => !isHeading l) = true := by decide
  have hno := List.all_eq_true.mp hnone line (List.mem_of_getElem? hline)
  rw [hheading] at hno
  cases hno

/-- A title before a code block: with one line for each part, the opening fence is passed unnoted
and goes with the title, so that the code is cut out of its block. -/
theorem codeBlock_is_cut : ¬ KeepsBlocksWhole 1 "# Title\n```\ncode\n```".toList := by
  rintro ⟨-, hparts⟩
  obtain ⟨n, hn⟩ := hparts 5 [⟨1, ["# Title".toList, "```".toList]⟩, ⟨2, ["code".toList]⟩,
    ⟨3, ["```".toList]⟩] (by decide) ⟨3, ["```".toList]⟩ (by simp)
  have hone : fences ["```".toList] = 1 := by decide
  rw [hone] at hn
  omega

end Splitter

end BrowCast
