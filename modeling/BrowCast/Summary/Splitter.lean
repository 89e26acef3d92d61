import BrowCast.JavaScript.Lines
import BrowCast.JavaScript.Number

/-! # Splitting a Markdown file

`splitMarkdownFile` of `Splitter.js`: its loop over the lines, and the look-ahead that moves the end
of a part. An iteration takes in the line it is at and, at the end of a part, the lines the
look-ahead passes (`ahead`); the parts are the lines of the file in order, with none missing and
none twice. -/

namespace BrowCast

/-- A line of a file. -/
abbrev Line := List Char

namespace Splitter

/-- `line.trim().startsWith('```')`. -/
def isFence (line : Line) : Bool := "```".toList.isPrefixOf (Number.trim line)

/-- `line.trim().startsWith('#')`. -/
def isHeading (line : Line) : Bool := "#".toList.isPrefixOf (Number.trim line)

/-- `line.trim() === ''`. -/
def isBlank (line : Line) : Bool := (Number.trim line).isEmpty

/-- A file that is written. -/
structure Part where
  fileIndex : ℕ
  lines : List Line
  deriving DecidableEq

/-- `currentPart.join('\n')`. -/
def Part.content (part : Part) : List Char := joinLines part.lines

/-- The variables of `splitMarkdownFile`, and the files it has written. -/
structure Variables where
  i : ℕ := 0
  currentPart : List Line := []
  currentPartLineCount : ℕ := 0
  fileIndex : ℕ := 1
  inSnippet : Bool := false
  written : List Part := []
  deriving DecidableEq

namespace Variables

/-- `currentPart.push(line); currentPartLineCount++`. -/
def push (line : Line) (v : Variables) : Variables :=
  { v with
    currentPart := v.currentPart ++ [line], currentPartLineCount := v.currentPartLineCount + 1 }

/-- Take in the line of the iteration: push it, and open or close a snippet if it is a fence. -/
def enter (line : Line) (v : Variables) : Variables :=
  let v := v.push line
  if isFence line then { v with inSnippet := !v.inSnippet } else v

/-- Write the current part and start the next one. -/
def writePart (v : Variables) : Variables :=
  { v with
    written := v.written ++ [⟨v.fileIndex, v.currentPart⟩]
    currentPart := [], currentPartLineCount := 0, fileIndex := v.fileIndex + 1 }

/-- The files in the end: what is left of the lines is written too. -/
def files (v : Variables) : List Part :=
  if 0 < v.currentPart.length then v.writePart.written else v.written

end Variables

variable (lines : List Line) (maxLinesPerPart : ℕ)

/-- The look-ahead loop from index `j` on, at the line `line`. -/
def lookAhead (line : Line) : ℕ → ℕ → Variables → Option Variables
  | 0, _, _ => none
  | fuel + 1, j, v =>
      match lines[j]? with
      | none => some v
      | some nextLine =>
          if v.inSnippet && isFence nextLine then
            some { v.push nextLine with i := j, inSnippet := false }
          else if isHeading line && !isHeading nextLine && !isBlank nextLine &&
              !isFence nextLine then
            some v
          else if isHeading line && isBlank nextLine then some v
          -- `j++; i = j - 1`
          else lookAhead line fuel (j + 1) { v.push nextLine with i := j + 1 - 1 }

/-- The body of the loop over the lines, at the line `line`, and `i++`. The look-ahead has fuel for
every line there is. -/
def iteration (line : Line) (v : Variables) : Option Variables := do
  let v := v.enter line
  if maxLinesPerPart ≤ v.currentPartLineCount then
    let v ← if v.inSnippet || isHeading line then lookAhead lines line lines.length (v.i + 1) v
      else some v
    let v := v.writePart
    return { v with i := v.i + 1 }
  else return { v with i := v.i + 1 }

/-- The loop over the lines. -/
def loop : ℕ → Variables → Option Variables
  | 0, _ => none
  | fuel + 1, v =>
      match lines[v.i]? with
      | none => some v
      | some line => do
          let v ← iteration lines maxLinesPerPart line v
          loop fuel v

/-- `splitMarkdownFile`, from the content of the file to the files it writes. -/
def splitMarkdownFile (fuel : ℕ) (fileContent : List Char) : Option (List Part) := do
  let lines := splitLines fileContent
  let v ← loop lines maxLinesPerPart fuel {}
  return v.files

/-! ## What an iteration takes in -/

/-- The lines the look-ahead passes, of those that follow, and `inSnippet` after it. -/
def ahead (heading inSnippet : Bool) : List Line → List Line × Bool
  | [] => ([], inSnippet)
  | next :: rest =>
      if inSnippet && isFence next then ([next], false)
      else if heading && !isHeading next && !isFence next then ([], inSnippet)
      else (next :: (ahead heading inSnippet rest).1, (ahead heading inSnippet rest).2)

/-- What follows the line itself, when it is the last the limit allows. -/
def tail (line : Line) (inSnippet : Bool) (rest : List Line) : List Line × Bool :=
  if inSnippet || isHeading line then ahead (isHeading line) inSnippet rest else ([], inSnippet)

namespace Variables

/-- Take in some lines. -/
def takeIn (taken : List Line) (inSnippet : Bool) (v : Variables) : Variables :=
  { v with
    i := v.i + taken.length
    currentPart := v.currentPart ++ taken
    currentPartLineCount := v.currentPartLineCount + taken.length
    inSnippet }

/-- The variables after an iteration at the line `line`. -/
def next (line : Line) (v : Variables) : Variables :=
  let inSnippet := v.inSnippet ^^ isFence line
  if maxLinesPerPart ≤ v.currentPartLineCount + 1 then
    let t := tail line inSnippet (lines.drop (v.i + 1))
    (v.takeIn (line :: t.1) t.2).writePart
  else v.takeIn [line] inSnippet

end Variables

section Lemmas

variable {lines maxLinesPerPart}

/-- A blank line is neither a fence nor a heading. -/
theorem isBlank_of_isFence_of_isHeading {line : Line} (h : isBlank line = true) :
    isFence line = false ∧ isHeading line = false := by
  have htrim : Number.trim line = [] := List.isEmpty_iff.mp h
  rw [isFence, isHeading, htrim]
  exact ⟨rfl, rfl⟩

/-- A heading is no fence. -/
theorem not_isFence_of_isHeading {line : Line} (h : isHeading line = true) :
    isFence line = false := by
  rw [isHeading] at h
  rw [isFence]
  cases htrim : Number.trim line with
  | nil => rfl
  | cons c cs =>
      rw [htrim] at h
      have hc : '#' = c := by simpa [List.isPrefixOf] using h
      subst hc
      rfl

/-- The two tests that end the look-ahead are one: the next line is neither heading nor fence. -/
theorem lookAhead_succ {line : Line} {fuel j : ℕ} {v : Variables} :
    lookAhead lines line (fuel + 1) j v =
      match lines[j]? with
      | none => some v
      | some nextLine =>
          if v.inSnippet && isFence nextLine then
            some { v.push nextLine with i := j, inSnippet := false }
          else if isHeading line && !isHeading nextLine && !isFence nextLine then some v
          else lookAhead lines line fuel (j + 1) { v.push nextLine with i := j } := by
  rw [lookAhead]
  cases lines[j]? with
  | none => rfl
  | some nextLine =>
      by_cases hblank : isBlank nextLine = true
      · obtain ⟨hfence, hheading⟩ := isBlank_of_isFence_of_isHeading hblank
        simp [hblank, hfence, hheading]
      · simp [hblank]

/-- The look-ahead takes in what it passes, if it has enough fuel. -/
theorem lookAhead_eq {line : Line} {fuel : ℕ} {v : Variables} (hpos : 0 < fuel)
    (hfuel : lines.length < fuel + (v.i + 1)) :
    lookAhead lines line fuel (v.i + 1) v =
      let t := ahead (isHeading line) v.inSnippet (lines.drop (v.i + 1))
      some (v.takeIn t.1 t.2) := by
  -- by the fuel; each line that is passed moves the start of the rest
  induction fuel generalizing v with
  | zero => exact absurd hpos (Nat.lt_irrefl 0)
  | succ fuel ih =>
      rw [lookAhead_succ]
      cases hnext : lines[v.i + 1]? with
      | none =>
          have hdrop : lines.drop (v.i + 1) = [] :=
            List.drop_eq_nil_of_le (List.getElem?_eq_none_iff.mp hnext)
          rw [hdrop]
          simp [ahead, Variables.takeIn]
      | some nextLine =>
          obtain ⟨hlt, hget⟩ := List.getElem?_eq_some_iff.mp hnext
          have hdrop : lines.drop (v.i + 1) = nextLine :: lines.drop (v.i + 1 + 1) := by
            rw [List.drop_eq_getElem_cons hlt, hget]
          rw [hdrop, ahead]
          -- the fence that closes the code is the last line that is passed
          by_cases hclose : (v.inSnippet && isFence nextLine) = true
          · simp [hclose, Variables.takeIn, Variables.push]
          · -- after a heading, a line that is neither heading nor fence is not passed
            by_cases hstop : (isHeading line && !isHeading nextLine && !isFence nextLine) = true
            · simp [hclose, hstop, Variables.takeIn]
            · have hpos : 0 < fuel := by omega
              have hfuel : lines.length < fuel + (v.i + 1 + 1) := by omega
              have hrest := ih (v := { v.push nextLine with i := v.i + 1 }) hpos hfuel
              simp only [hclose, hstop, Bool.false_eq_true, if_false]
              apply hrest.trans
              simp only [Variables.takeIn, Variables.push, List.append_assoc, List.singleton_append,
                List.length_cons, Option.some.injEq, Variables.mk.injEq, true_and, and_true]
              omega

/-- The look-ahead passes lines that are there. -/
theorem prefix_ahead (heading inSnippet : Bool) (rest : List Line) :
    (ahead heading inSnippet rest).1 <+: rest := by
  induction rest with
  | nil => exact List.prefix_refl []
  | cons next rest ih =>
      rw [ahead]
      split
      · exact List.prefix_cons_iff.mpr (Or.inr ⟨[], rfl, List.nil_prefix⟩)
      · split
        · exact List.nil_prefix
        · exact (List.prefix_cons_inj next).mpr ih

/-- What the lookahead takes are the next lines. -/
theorem prefix_tail (line : Line) (inSnippet : Bool) (rest : List Line) :
    (tail line inSnippet rest).1 <+: rest := by
  rw [tail]
  split
  · exact prefix_ahead _ _ _
  · exact List.nil_prefix

section Enter

variable (line : Line) (v : Variables)

/-- Taking in the current line leaves the index. -/
theorem enter_i : (v.enter line).i = v.i := by
  unfold Variables.enter
  split <;> rfl

/-- Taking in the current line counts it. -/
theorem enter_currentPartLineCount :
    (v.enter line).currentPartLineCount = v.currentPartLineCount + 1 := by
  unfold Variables.enter
  split <;> rfl

/-- A fence that is taken in begins or ends a snippet. -/
theorem enter_inSnippet : (v.enter line).inSnippet = (v.inSnippet ^^ isFence line) := by
  unfold Variables.enter
  cases hfence : isFence line <;> simp [Variables.push]

/-- Entering a line and taking in more is taking in all of them, before `i++`. -/
theorem enter_takeIn (taken : List Line) (inSnippet : Bool) :
    let w := (v.enter line).takeIn taken inSnippet
    { w with i := w.i + 1 } = v.takeIn (line :: taken) inSnippet := by
  unfold Variables.enter
  split <;>
    · simp only [Variables.takeIn, Variables.push, List.append_assoc, List.singleton_append,
        List.length_cons, Variables.mk.injEq, true_and, and_true]
      omega

end Enter

/-- **What an iteration does.** -/
theorem iteration_eq {line : Line} {v : Variables} (hline : lines[v.i]? = some line) :
    iteration lines maxLinesPerPart line v = some (v.next lines maxLinesPerPart line) := by
  obtain ⟨hlt, -⟩ := List.getElem?_eq_some_iff.mp hline
  have hi := enter_i line v
  have hsnippet := enter_inSnippet line v
  have hself : (v.enter line).takeIn [] (v.inSnippet ^^ isFence line) = v.enter line := by
    rw [← hsnippet]
    simp [Variables.takeIn]
  rw [iteration, Variables.next, enter_currentPartLineCount, hsnippet, tail, hi]
  by_cases hlimit : maxLinesPerPart ≤ v.currentPartLineCount + 1
  · rw [if_pos hlimit, if_pos hlimit]
    -- at the limit: in code or at a heading the look-ahead moves the end of the part
    by_cases hlook : ((v.inSnippet ^^ isFence line) || isHeading line) = true
    · have hahead : lookAhead lines line lines.length ((v.enter line).i + 1) (v.enter line) = _ :=
        lookAhead_eq (by omega) (by omega)
      rw [hi, hsnippet] at hahead
      rw [if_pos hlook, if_pos hlook, hahead]
      dsimp only
      rw [← enter_takeIn]
      rfl
    · rw [if_neg hlook, if_neg hlook]
      dsimp only
      rw [← enter_takeIn, hself]
      rfl
  · -- below the limit: the next line, with nothing taken in
    rw [if_neg hlimit, if_neg hlimit, ← enter_takeIn, hself, hi, hsnippet,
      enter_currentPartLineCount]
    rfl

end Lemmas

/-! ## Nothing is lost -/

/-- The variables at the start of an iteration, or after the last one. -/
inductive Reached : Variables → Prop where
  | start : Reached {}
  | next {v : Variables} {line : Line} :
      Reached v → lines[v.i]? = some line → Reached (v.next lines maxLinesPerPart line)

/-- The files written and the part at hand are the lines so far, in order. -/
structure Split (v : Variables) : Prop where
  inOrder : v.written.flatMap Part.lines ++ v.currentPart = lines.take v.i
  bound : v.i ≤ lines.length
  fileIndex : v.fileIndex = v.written.length + 1
  numbered : v.written.map Part.fileIndex = List.range' 1 v.written.length
  nonempty : ∀ part ∈ v.written, part.lines ≠ []

variable {lines maxLinesPerPart}

/-- Before the first iteration nothing is taken. -/
theorem split_start : Split lines {} where
  inOrder := rfl
  bound := Nat.zero_le _
  fileIndex := rfl
  numbered := rfl
  nonempty := nofun

/-- Lines that are next may be taken in. -/
theorem Split.takeIn {v : Variables} (h : Split lines v) {taken : List Line}
    (htaken : taken <+: lines.drop v.i) (inSnippet : Bool) :
    Split lines (v.takeIn taken inSnippet) where
  inOrder := by
    obtain ⟨rest, hrest⟩ := htaken
    show v.written.flatMap Part.lines ++ (v.currentPart ++ taken) = _
    rw [← List.append_assoc, h.inOrder]
    show _ = lines.take (v.i + taken.length)
    rw [List.take_add, ← hrest, List.take_left]
  bound := by
    have hle := htaken.length_le
    rw [List.length_drop] at hle
    have hbound := h.bound
    show v.i + taken.length ≤ lines.length
    omega
  fileIndex := h.fileIndex
  numbered := h.numbered
  nonempty := h.nonempty

/-- A part with lines in it may be written. -/
theorem Split.writePart {v : Variables} (h : Split lines v) (hpart : v.currentPart ≠ []) :
    Split lines v.writePart where
  inOrder := by
    show (v.written ++ [Part.mk v.fileIndex v.currentPart]).flatMap Part.lines ++ [] =
      lines.take v.i
    rw [List.append_nil, List.flatMap_append, List.flatMap_singleton, h.inOrder]
  bound := h.bound
  fileIndex := by
    show v.fileIndex + 1 = (v.written ++ [Part.mk v.fileIndex v.currentPart]).length + 1
    rw [h.fileIndex, List.length_append, List.length_singleton]
  numbered := by
    show (v.written ++ [Part.mk v.fileIndex v.currentPart]).map Part.fileIndex =
      List.range' 1 (v.written ++ [Part.mk v.fileIndex v.currentPart]).length
    rw [List.map_append, h.numbered, List.length_append, List.length_singleton, List.range'_concat,
      List.map_singleton, h.fileIndex, Nat.one_mul, Nat.add_comm]
  nonempty := by
    intro part hmem
    rcases List.mem_append.mp hmem with hold | hnew
    · exact h.nonempty part hold
    · rw [List.mem_singleton.mp hnew]
      exact hpart

/-- An iteration takes in the line it is at, and lines that follow it. -/
theorem Split.next {v : Variables} (h : Split lines v) {line : Line}
    (hline : lines[v.i]? = some line) : Split lines (v.next lines maxLinesPerPart line) := by
  obtain ⟨hlt, hget⟩ := List.getElem?_eq_some_iff.mp hline
  have hdrop : lines.drop v.i = line :: lines.drop (v.i + 1) := by
    rw [List.drop_eq_getElem_cons hlt, hget]
  unfold Variables.next
  dsimp only
  split
  · refine (h.takeIn ?_ _).writePart (by simp [Variables.takeIn])
    rw [hdrop]
    exact (List.prefix_cons_inj line).mpr (prefix_tail _ _ _)
  · refine h.takeIn ?_ _
    rw [hdrop]
    exact (List.prefix_cons_inj line).mpr List.nil_prefix

/-- At every iteration, what was written and the current part are the lines so far. -/
theorem Reached.split {v : Variables} (h : Reached lines maxLinesPerPart v) : Split lines v := by
  induction h with
  | start => exact split_start
  | next _ hline ih => exact ih.next hline

/-- Every iteration moves on. -/
theorem lt_next_i {v : Variables} {line : Line} : v.i < (v.next lines maxLinesPerPart line).i := by
  unfold Variables.next
  dsimp only
  split <;> simp [Variables.takeIn, Variables.writePart]

/-- No part is taken back. -/
theorem written_next {v : Variables} {line : Line} :
    v.written ⊆ (v.next lines maxLinesPerPart line).written := by
  unfold Variables.next
  dsimp only
  split
  · exact List.subset_append_left _ _
  · exact List.Subset.refl _

/-- **The loops end**: with fuel for every line, in a state that has been reached and is past the
last line, and in which no file is unwritten. -/
theorem exists_loop {v : Variables} (h : Reached lines maxLinesPerPart v) :
    ∃ w, Reached lines maxLinesPerPart w ∧ w.i = lines.length ∧ v.written ⊆ w.written ∧
      ∀ fuel, lines.length < fuel + v.i → loop lines maxLinesPerPart fuel v = some w := by
  -- by the number of lines left, which every iteration brings down
  induction hleft : lines.length - v.i using Nat.strongRecOn generalizing v with
  | ind left ih =>
      cases hline : lines[v.i]? with
      | none =>
          have hbound := h.split.bound
          have hle := List.getElem?_eq_none_iff.mp hline
          refine ⟨v, h, by omega, List.Subset.refl _, fun fuel hfuel => ?_⟩
          cases fuel with
          | zero => omega
          | succ fuel => rw [loop, hline]
      | some line =>
          obtain ⟨hlt, -⟩ := List.getElem?_eq_some_iff.mp hline
          have hi : v.i < (v.next lines maxLinesPerPart line).i := lt_next_i
          obtain ⟨w, hw, hend, hwritten, hloop⟩ := ih _ (by omega) (h.next hline) rfl
          refine ⟨w, hw, hend, List.Subset.trans written_next hwritten, fun fuel hfuel => ?_⟩
          cases fuel with
          | zero => omega
          | succ fuel =>
              rw [loop, hline]
              simp only [iteration_eq hline]
              exact hloop fuel (by omega)

/-- The loop from the start comes past every state that is reached. -/
theorem Reached.loop_eq {v : Variables} (h : Reached lines maxLinesPerPart v) :
    ∃ n, ∀ fuel, loop lines maxLinesPerPart (n + fuel) {} = loop lines maxLinesPerPart fuel v := by
  induction h with
  | start => exact ⟨0, fun fuel => by rw [Nat.zero_add]⟩
  | @next v line _ hline ih =>
      obtain ⟨n, hn⟩ := ih
      refine ⟨n + 1, fun fuel => ?_⟩
      rw [Nat.add_assoc, Nat.add_comm 1 fuel, hn, loop, hline]
      simp only [iteration_eq hline]
      rfl

/-- What the loop returns does not depend on the fuel. -/
theorem loop_unique {v w u : Variables} {fuel more : ℕ}
    (hw : loop lines maxLinesPerPart fuel v = some w)
    (hu : loop lines maxLinesPerPart more v = some u) : w = u := by
  induction fuel generalizing more v with
  | zero => cases hw
  | succ fuel ih =>
      cases more with
      | zero => cases hu
      | succ more =>
          rw [loop] at hw hu
          cases hline : lines[v.i]? with
          | none =>
              rw [hline] at hw hu
              rw [← Option.some.inj hw, ← Option.some.inj hu]
          | some line =>
              rw [hline] at hw hu
              simp only [iteration_eq hline] at hw hu
              exact ih hw hu

/-- The files of a text are those of a state that has been reached and is past its last line, and
every file that is written on the way is among them. -/
theorem exists_files (maxLinesPerPart : ℕ) (fileContent : List Char) :
    ∃ w, Reached (splitLines fileContent) maxLinesPerPart w ∧
      w.i = (splitLines fileContent).length ∧
      (∀ v, Reached (splitLines fileContent) maxLinesPerPart v → v.written ⊆ w.written) ∧
      (∀ fuel, (splitLines fileContent).length < fuel →
        splitMarkdownFile maxLinesPerPart fuel fileContent = some w.files) ∧
      ∀ fuel parts, splitMarkdownFile maxLinesPerPart fuel fileContent = some parts →
        parts = w.files := by
  have hstart : Reached (splitLines fileContent) maxLinesPerPart {} := .start
  obtain ⟨w, hw, hend, -, hloop⟩ := exists_loop hstart
  refine ⟨w, hw, hend, fun v hv => ?_, fun fuel hfuel => ?_, fun fuel parts hparts => ?_⟩
  · -- the loop from a state on its way ends where the loop from the start does
    obtain ⟨n, hn⟩ := hv.loop_eq
    obtain ⟨u, -, -, hwritten, hu⟩ := exists_loop hv
    have hsame := (hn ((splitLines fileContent).length + 1)).trans (hu _ (by omega))
    have hwhole := hloop (n + ((splitLines fileContent).length + 1)) (by
      show (splitLines fileContent).length < _ + 0
      omega)
    rw [Option.some.inj (hwhole.symm.trans hsame)]
    exact hwritten
  · rw [splitMarkdownFile, hloop fuel hfuel]
    rfl
  · -- with less fuel there is no result, or the same one
    rw [splitMarkdownFile] at hparts
    cases hrun : loop (splitLines fileContent) maxLinesPerPart fuel {} with
    | none =>
        rw [hrun] at hparts
        cases hparts
    | some u =>
        have hwhole := hloop ((splitLines fileContent).length + 1) (Nat.lt_succ_self _)
        rw [hrun, loop_unique hrun hwhole] at hparts
        exact (Option.some.inj hparts).symm

/-- The lines of the files are the lines, whether or not some are left at the end. -/
theorem Split.files {v : Variables} (h : Split lines v) (hend : v.i = lines.length) :
    v.files.map Part.fileIndex = List.range' 1 v.files.length ∧
      v.files.flatMap Part.lines = lines ∧ ∀ part ∈ v.files, part.lines ≠ [] := by
  have hall : lines.take v.i = lines := by rw [hend, List.take_length]
  rw [Variables.files]
  split
  · next hpos =>
      have hwritten := h.writePart (List.length_pos_iff.mp hpos)
      have horder := hwritten.inOrder
      rw [show v.writePart.currentPart = [] from rfl, List.append_nil] at horder
      exact ⟨hwritten.numbered, horder.trans hall, hwritten.nonempty⟩
  · next hpos =>
      have hnil : v.currentPart = [] := by simpa using hpos
      have horder := h.inOrder
      rw [hnil, List.append_nil] at horder
      exact ⟨h.numbered, horder.trans hall, h.nonempty⟩

/-- **Splitting loses nothing**: the loops end, the files are numbered in order, none is without
lines, and their lines are those of the text; joined they are the text with plain line ends. -/
theorem splitMarkdownFile_complete (maxLinesPerPart : ℕ) (fileContent : List Char) :
    ∃ parts : List Part,
      (∀ fuel, (splitLines fileContent).length < fuel →
        splitMarkdownFile maxLinesPerPart fuel fileContent = some parts) ∧
      parts.map Part.fileIndex = List.range' 1 parts.length ∧
      parts.flatMap Part.lines = splitLines fileContent ∧
      joinLines (parts.map Part.content) = plainLineEnds fileContent ∧
      ∀ part ∈ parts, part.lines ≠ [] := by
  obtain ⟨v, hv, hend, -, hfiles, -⟩ := exists_files maxLinesPerPart fileContent
  obtain ⟨hnumbered, horder, hnonempty⟩ := hv.split.files hend
  refine ⟨v.files, hfiles, hnumbered, horder, ?_, hnonempty⟩
  have hgroups : ∀ g ∈ v.files.map Part.lines, g ≠ [] := by
    intro g hg
    obtain ⟨part, hpart, rfl⟩ := List.mem_map.mp hg
    exact hnonempty part hpart
  calc joinLines (v.files.map Part.content)
      = joinLines ((v.files.map Part.lines).map joinLines) := by rw [List.map_map]; rfl
    _ = joinLines (v.files.flatMap Part.lines) := by
        rw [joinLines_map_joinLines hgroups, List.flatMap_def]
    _ = plainLineEnds fileContent := by rw [horder, joinLines_splitLines]

end Splitter

end BrowCast
