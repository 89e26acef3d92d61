import BrowCast.Encodings.PercentEncoding
import BrowCast.Server.RequestUrl

/-! # The query string

What `querystring.parse` makes of the query of a request target, as far as the server reads it: the
member `sessionId`. -/

namespace BrowCast.QueryString

/-- `querystring.parse` stops after this many parts. -/
def maxKeys : ℕ := 1000

/-- A part is a key and a value: the value is what follows the first `=`. -/
def entry (part : List Char) : List Char × List Char :=
  (PercentEncoding.decode (part.takeWhile (· ≠ '=')),
    PercentEncoding.decode (part.dropWhile (· ≠ '=')).tail)

/-- The entries of a query; parts without a character are skipped. -/
def entries (query : List Char) : List (List Char × List Char) :=
  (((query.splitOn '&').take maxKeys).filter (· ≠ [])).map entry

/-- The values of one key, in order. -/
def valuesOf (key : List Char) (query : List Char) : List (List Char) :=
  ((entries query).filter (·.1 = key)).map Prod.snd

/-- The member `sessionId` of the parsed query. -/
def sessionIdOf (query : String) : QueryValue :=
  match valuesOf "sessionId".toList query.toList with
  | [] => .absent
  | [value] => .one (.ofList value)
  | values => .many (values.map .ofList)

/-! ## A query that starts with an entry of the key -/

variable {key text : List Char}

/-- An entry is split at its first `=`, and both sides are decoded. -/
theorem entry_key (hkey : '=' ∉ key) (text : List Char) :
    entry (key ++ '=' :: text) = (PercentEncoding.decode key, PercentEncoding.decode text) := by
  have hall : ∀ c ∈ key, decide (c ≠ '=') = true := by
    intro c hc
    simp only [decide_eq_true_eq]
    rintro rfl
    exact hkey hc
  rw [entry, List.takeWhile_append_of_pos hall, List.dropWhile_append_of_pos hall]
  simp

/-- The first part of a query, and what follows it. -/
theorem exists_splitOn_eq_cons (key text : List Char) (hkey : '&' ∉ key) :
    ∃ parts, (key ++ '=' :: text).splitOn '&' = (key ++ '=' :: text.takeWhile (· ≠ '&')) :: parts ∧
      ('&' ∉ text → parts = []) := by
  have hfirst : '&' ∉ key ++ '=' :: text.takeWhile (· ≠ '&') := by
    intro hmem
    rcases List.mem_append.mp hmem with hmem | hmem
    · exact hkey hmem
    · rcases List.mem_cons.mp hmem with heq | hmem
      · exact absurd heq (by decide)
      · exact absurd (List.mem_takeWhile_imp hmem) (by decide)
  have hsplit : key ++ '=' :: text =
      (key ++ '=' :: text.takeWhile (· ≠ '&')) ++ text.dropWhile (· ≠ '&') := by
    rw [List.append_assoc, List.cons_append, List.takeWhile_append_dropWhile]
  -- either the text has no separator, or the rest starts with one
  cases hrest : text.dropWhile (· ≠ '&') with
  | nil =>
      refine ⟨[], ?_, fun _ => rfl⟩
      rw [hsplit, hrest, List.append_nil, List.splitOn_eq_singleton hfirst]
  | cons c rest =>
      have hc : c = '&' := by
        have hhead := List.head?_dropWhile_not (· ≠ '&') text
        rw [hrest] at hhead
        simpa using hhead
      subst hc
      refine ⟨rest.splitOn '&', ?_, fun hplain => ?_⟩
      · rw [hsplit, hrest, List.splitOn_append_cons_self_of_not_mem hfirst]
      · have hmem : '&' ∈ text.dropWhile (· ≠ '&') := by
          rw [hrest]
          exact List.mem_cons_self
        exact absurd ((List.dropWhile_sublist _).subset hmem) hplain

/-- So its value comes first, up to the next `&`, and is the only one when there is none. -/
theorem exists_valuesOf_eq_cons (key : List Char) (hkey : '=' ∉ key) (hamp : '&' ∉ key)
    (hplain : PercentEncoding.decode key = key) (text : List Char) :
    ∃ values, valuesOf key (key ++ '=' :: text) =
        PercentEncoding.decode (text.takeWhile (· ≠ '&')) :: values ∧
      ('&' ∉ text → values = []) := by
  obtain ⟨parts, hparts, halone⟩ := exists_splitOn_eq_cons key text hamp
  have hentry := entry_key hkey (text.takeWhile (· ≠ '&'))
  rw [hplain] at hentry
  refine ⟨((((parts.take (maxKeys - 1)).filter (· ≠ [])).map entry).filter (·.1 = key)).map
    Prod.snd, ?_, ?_⟩
  · rw [valuesOf, entries, hparts, maxKeys, List.take_succ_cons, List.filter_cons_of_pos (by simp),
      List.map_cons, hentry, List.filter_cons_of_pos (by simp), List.map_cons]
  · intro hnone
    simp [halone hnone]

/-- The session id of a query that starts with one. -/
theorem sessionIdOf_eq (text : List Char) :
    sessionIdOf (.ofList ("sessionId=".toList ++ text)) =
        .one (.ofList (PercentEncoding.decode (text.takeWhile (· ≠ '&')))) ∨
      '&' ∈ text ∧ ∃ values,
        sessionIdOf (.ofList ("sessionId=".toList ++ text)) = .many values := by
  obtain ⟨values, hvalues, halone⟩ := exists_valuesOf_eq_cons "sessionId".toList (by decide)
    (by decide) (by decide) text
  have hquery : (String.ofList ("sessionId=".toList ++ text)).toList =
      "sessionId".toList ++ '=' :: text := String.toList_ofList
  rw [sessionIdOf, hquery, hvalues]
  cases values with
  | nil => exact .inl rfl
  | cons value values =>
      refine .inr ⟨?_, _, rfl⟩
      by_contra hnone
      cases halone hnone

/-- Blanks can be written in two ways, and a part may lack a value or a key. -/
example : sessionIdOf "x=1&sessionId=room+1%2" = .one "room 1%2" ∧
    sessionIdOf "sessionId=a%20b=c&&sessionId" = .many ["a b=c", ""] ∧
    sessionIdOf "session%49d=%e2%82%AC%ff&=" = .one "€\uFFFD" := by decide

end BrowCast.QueryString
