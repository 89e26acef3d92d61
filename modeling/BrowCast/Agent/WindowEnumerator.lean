import BrowCast.CPlusPlus.InputStream

/-! # Choosing a window

`WindowEnumerator::SelectWindowFromList` prints the windows with their numbers and asks for one
until it reads a number it has printed. Nothing ends the loop when the input has ended: it returns
exactly when some line starts with such a number. -/

namespace BrowCast

/-- A window handle. -/
abbrev HWND := ℕ

/-- `WindowInfo`. -/
structure WindowInfo where
  hwnd : HWND
  title : String
  deriving DecidableEq

/-- What `SelectWindowFromList` ends with. -/
inductive Selection where
  /-- `NULL`. -/
  | fullScreen
  /-- `windows[choice - 1]`. -/
  | window (choice : ℤ) (selected : WindowInfo)
  /-- `windows[choice - 1]`, for an index that is out of range: undefined behaviour. -/
  | undefined
  deriving DecidableEq

/-- The list that is printed: every window under its number. -/
def menu (windows : List WindowInfo) : List (ℕ × WindowInfo) :=
  windows.zipIdx.map fun (window, i) => (i + 1, window)

/-- Neither `choice < 0` nor `choice > static_cast<int>(windows.size())`. -/
def isSelection (windows : List WindowInfo) (choice : ℤ) : Bool :=
  !(choice < 0) && !(CInt.wrap windows.length < choice)

/-- The input validation loop, for as many rounds as there is fuel. -/
def inputLoop (windows : List WindowInfo) : ℕ → ℤ → IStream → Option (ℤ × IStream)
  | 0, _, _ => none
  | fuel + 1, choice, cin =>
      let (choice, cin) := cin.extractInt choice
      if cin.failbit || choice < 0 || CInt.wrap windows.length < choice then
        inputLoop windows fuel choice cin.clear.ignoreLine
      else some (choice, cin)

/-- `SelectWindowFromList`, with what `choice` holds before it is read. -/
def selectWindowFromList (windows : List WindowInfo) (fuel : ℕ) (choice : ℤ) (cin : IStream) :
    Option (Selection × IStream) := do
  let (choice, cin) ← inputLoop windows fuel choice cin
  let cin := cin.ignoreLine
  if choice = 0 then return (.fullScreen, cin)
  match windows[(choice - 1).toNat]? with
  | some selected => return (.window choice selected, cin)
  | none => return (.undefined, cin)

/-- It is the full screen, or a window with the number it is printed under. -/
def Selection.Printed (windows : List WindowInfo) : Selection → Prop
  | .fullScreen => True
  | .window choice selected => ∃ number : ℕ, choice = number ∧ (number, selected) ∈ menu windows
  | .undefined => False

section Loop

variable {windows : List WindowInfo} {fuel : ℕ} {choice : ℤ} {cin : IStream}

/-- The loop is the one that asks again until it has read an acceptable number. -/
theorem inputLoop_eq_readUntil :
    inputLoop windows fuel choice cin = cin.readUntil (isSelection windows) fuel choice := by
  induction fuel generalizing choice cin with
  | zero => rfl
  | succ fuel ih =>
      rw [inputLoop, IStream.readUntil]
      simp only [ih, isSelection, Bool.or_assoc, Bool.not_and, Bool.not_not]

/-- Wrapping a natural number around makes it no larger. -/
theorem wrap_le (n : ℕ) : CInt.wrap n ≤ 2147483647 ∧ (0 ≤ CInt.wrap n → CInt.wrap n ≤ n) := by
  unfold CInt.wrap
  rw [Int.bmod_def]
  split <;> omega

/-- The accepted numbers are those from zero to the number of windows, as an `int`. -/
theorem isSelection_iff : isSelection windows choice = true ↔
    0 ≤ choice ∧ choice ≤ CInt.wrap windows.length := by
  simp [isSelection]

/-- A number that is accepted is an `int`. -/
theorem fitsInt_of_isSelection (h : isSelection windows choice = true) : CInt.FitsInt choice := by
  obtain ⟨hnonneg, hle⟩ := isSelection_iff.mp h
  have hwrap := (wrap_le windows.length).1
  exact ⟨by omega, by omega⟩

/-- The menu numbers the windows from one on. -/
theorem mem_menu_iff {number : ℕ} {window : WindowInfo} : (number, window) ∈ menu windows ↔
    ∃ i, number = i + 1 ∧ windows[i]? = some window := by
  simp only [menu, List.mem_map, Prod.exists, Prod.mk.injEq, List.mem_zipIdx_iff_getElem?]
  constructor
  · rintro ⟨w, i, hw, rfl, rfl⟩
    exact ⟨i, rfl, hw⟩
  · rintro ⟨i, rfl, hw⟩
    exact ⟨window, i, hw, rfl, rfl⟩

/-- A number that was accepted leads to the full screen or to the window it was printed for. -/
theorem printed_of_isSelection (h : isSelection windows choice = true) (cin : IStream) :
    ∃ selection, selection.Printed windows ∧
      (if choice = 0 then some (Selection.fullScreen, cin)
        else match windows[(choice - 1).toNat]? with
          | some selected => some (.window choice selected, cin)
          | none => some (.undefined, cin)) = some (selection, cin) := by
  obtain ⟨hnonneg, hle⟩ := isSelection_iff.mp h
  by_cases hzero : choice = 0
  · exact ⟨.fullScreen, trivial, if_pos hzero⟩
  · have hlength := (wrap_le windows.length).2 (by omega)
    have hindex : (choice - 1).toNat < windows.length := by omega
    refine ⟨.window choice windows[(choice - 1).toNat], ⟨choice.toNat, by omega, ?_⟩, ?_⟩
    · exact mem_menu_iff.mpr ⟨(choice - 1).toNat, by omega, List.getElem?_eq_getElem hindex⟩
    · rw [if_neg hzero, List.getElem?_eq_getElem hindex]

/-- What is returned is the full screen, or a window under its printed number. -/
theorem printed_of_selectWindowFromList {r : Selection × IStream}
    (h : selectWindowFromList windows fuel choice cin = some r) : r.1.Printed windows := by
  unfold selectWindowFromList at h
  cases hloop : inputLoop windows fuel choice cin with
  | none =>
      rw [hloop] at h
      cases h
  | some p =>
      obtain ⟨chosen, left⟩ := p
      rw [hloop] at h
      rw [inputLoop_eq_readUntil] at hloop
      obtain ⟨selection, hprinted, heq⟩ :=
        printed_of_isSelection (IStream.accepts_of_readUntil hloop) left.ignoreLine
      have hr : some (selection, left.ignoreLine) = some r := heq.symm.trans h
      rw [← Option.some.inj hr]
      exact hprinted

/-- The selection ends when its input loop does. -/
theorem selectWindowFromList_isSome_iff :
    (∃ r, selectWindowFromList windows fuel choice cin = some r) ↔
    ∃ r, inputLoop windows fuel choice cin = some r := by
  unfold selectWindowFromList
  cases hloop : inputLoop windows fuel choice cin with
  | none => simp
  | some p =>
      rw [inputLoop_eq_readUntil] at hloop
      obtain ⟨selection, -, heq⟩ :=
        printed_of_isSelection (IStream.accepts_of_readUntil hloop) p.2.ignoreLine
      exact iff_of_true ⟨_, heq⟩ ⟨p, rfl⟩

end Loop

/-- Choosing a window ends, and ends with the full screen or a window under its printed number. -/
def SelectsPrinted (windows : List WindowInfo) (choice : ℤ) (cin : IStream) : Prop :=
  (∃ fuel r, selectWindowFromList windows fuel choice cin = some r) ∧
    ∀ fuel r, selectWindowFromList windows fuel choice cin = some r → r.1.Printed windows

/-- Some number of rounds is enough exactly when a line offers a valid choice. -/
theorem ends_iff_offers (windows : List WindowInfo) (choice : ℤ) (cin : IStream) :
    (∃ fuel r, selectWindowFromList windows fuel choice cin = some r) ↔
      IStream.Offers (isSelection windows) cin.lines := by
  simp only [selectWindowFromList_isSome_iff, inputLoop_eq_readUntil]
  exact IStream.readUntil_ends_iff (fun _ h => fitsInt_of_isSelection h) choice cin

/-- **When window selection ends**: exactly when a line of the input that is still to be read
starts, after white space, with an integer from 0 to the number of windows as an `int`. -/
theorem selectsPrinted_iff_offers (windows : List WindowInfo) (choice : ℤ) (cin : IStream) :
    SelectsPrinted windows choice cin ↔ ∃ line ∈ cin.lines, ∃ v ∈ IStream.lineInt line,
      0 ≤ v ∧ v ≤ CInt.wrap windows.length := by
  have hends := ends_iff_offers windows choice cin
  simp only [IStream.Offers, isSelection_iff] at hends
  rw [← hends]
  exact and_iff_left fun _ _ h => printed_of_selectWindowFromList h

/-- On an input that has ended the loop never does. -/
theorem selectWindow_never_ends :
    ¬ SelectsPrinted [⟨1, "Editor"⟩] 0 { rest := [] } := by
  intro h
  obtain ⟨line, hline, v, hv, -⟩ := (ends_iff_offers _ 0 _).mp h.1
  rw [List.mem_singleton.mp hline] at hv
  cases hv

end BrowCast
