import Mathlib.Data.List.Basic

/-! # Lines of a text

A text is split at its line ends, a line feed with or without a carriage return before it, and lines
are joined with line feeds. Joining the lines of a text gives the text back, with plain line feeds;
and lines may be joined in groups first, as long as no group is empty. -/

namespace BrowCast

/-- `text.split(/\r?\n/)`. -/
def splitLines : List Char → List (List Char)
  | [] => [[]]
  | '\r' :: '\n' :: cs => [] :: splitLines cs
  | '\n' :: cs => [] :: splitLines cs
  | c :: cs => (splitLines cs).modifyHead (c :: ·)

/-- The text with each CRLF turned into LF. -/
def plainLineEnds : List Char → List Char
  | [] => []
  | '\r' :: '\n' :: cs => '\n' :: plainLineEnds cs
  | c :: cs => c :: plainLineEnds cs

/-- `lines.join('\n')`. -/
def joinLines (lines : List (List Char)) : List Char := ['\n'].intercalate lines

section Lines

variable {line : List Char} {lines more : List (List Char)}

/-- One line is its own text. -/
theorem joinLines_singleton (line : List Char) : joinLines [line] = line :=
  List.intercalate_singleton

/-- The first line is followed by a newline and the other lines. -/
theorem joinLines_cons (line : List Char) (h : lines ≠ []) :
    joinLines (line :: lines) = line ++ '\n' :: joinLines lines := by
  rw [joinLines, List.intercalate_cons_of_ne_nil h, List.append_assoc]
  rfl

/-- A character in front of the first line. -/
theorem joinLines_modifyHead_cons (c : Char) (h : lines ≠ []) :
    joinLines (lines.modifyHead (c :: ·)) = c :: joinLines lines := by
  obtain ⟨line, rest, rfl⟩ := List.exists_cons_of_ne_nil h
  cases rest with
  | nil => rfl
  | cons next rest =>
      rw [List.modifyHead_cons, joinLines_cons _ (List.cons_ne_nil _ _),
        joinLines_cons _ (List.cons_ne_nil _ _)]
      rfl

/-- Two parts of a text meet at a newline. -/
theorem joinLines_append (h : lines ≠ []) (hmore : more ≠ []) :
    joinLines (lines ++ more) = joinLines lines ++ '\n' :: joinLines more := by
  induction lines with
  | nil => exact absurd rfl h
  | cons line lines ih =>
      by_cases hnil : lines = []
      · subst hnil
        rw [List.singleton_append, joinLines_cons line hmore, joinLines_singleton]
      · rw [List.cons_append, joinLines_cons line (by simp [hnil]), ih hnil,
          joinLines_cons line hnil, List.append_assoc, List.cons_append]

/-- Lines joined in groups are the lines joined. -/
theorem joinLines_map_joinLines {groups : List (List (List Char))} (h : ∀ g ∈ groups, g ≠ []) :
    joinLines (groups.map joinLines) = joinLines groups.flatten := by
  induction groups with
  | nil => rfl
  | cons g groups ih =>
      have hg := h g List.mem_cons_self
      have hrest : ∀ g ∈ groups, g ≠ [] := fun g hg => h g (List.mem_cons_of_mem _ hg)
      cases groups with
      | nil => rw [List.map_singleton, joinLines_singleton, List.flatten_singleton]
      | cons next groups =>
          have hflat : (next :: groups).flatten ≠ [] := by
            rw [List.flatten_cons]
            exact List.append_ne_nil_of_left_ne_nil (hrest next List.mem_cons_self) _
          rw [List.map_cons, joinLines_cons _ (by simp), ih hrest, ← joinLines_append hg hflat]
          rfl

end Lines

/-- Every text has a line. -/
theorem splitLines_ne_nil (cs : List Char) : splitLines cs ≠ [] := by
  induction cs using splitLines.induct with
  | case1 => simp [splitLines]
  | case2 cs _ => simp [splitLines]
  | case3 cs _ => simp [splitLines]
  | case4 c cs hcrlf hlf ih =>
      rw [splitLines.eq_4 c cs hcrlf hlf]
      obtain ⟨line, lines, h⟩ := List.exists_cons_of_ne_nil ih
      simp [h]

/-- **Joined lines**: the text itself, with plain line ends. -/
theorem joinLines_splitLines (cs : List Char) : joinLines (splitLines cs) = plainLineEnds cs := by
  induction cs using splitLines.induct with
  | case1 => rfl
  | case2 cs ih =>
      rw [splitLines, joinLines_cons _ (splitLines_ne_nil cs), ih, plainLineEnds]
      rfl
  | case3 cs ih =>
      rw [splitLines, joinLines_cons _ (splitLines_ne_nil cs), ih, plainLineEnds.eq_3]
      · rfl
      · rintro ds ⟨⟩
  | case4 c cs hcrlf hlf ih =>
      rw [splitLines.eq_4 c cs hcrlf hlf, joinLines_modifyHead_cons c (splitLines_ne_nil cs), ih,
        plainLineEnds.eq_3 c cs hcrlf]

end BrowCast
