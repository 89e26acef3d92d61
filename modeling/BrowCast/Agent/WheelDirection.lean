import BrowCast.Agent.MouseMessages
import Mathlib.Tactic.Linarith

/-! # The direction of the wheel

A browser counts scrolling down as positive, Windows a rotation forward, that is up. The injector
takes the browser's number as it is: read as an `int`, scaled in doubles, and converted to the
unsigned `mouseData`, which is defined for doubles that are not negative. -/

namespace BrowCast

/-! ## The rotation -/

/-- The rotation of a wheel event: `mouseData`, signed. -/
def MouseInput.rotation (mi : MouseInput) : ℤ := mi.mouseData.toBitVec.toInt

/-- The conversion of a `double` to a `DWORD` is defined. -/
def FitsDWORD (q : ℚ) : Prop := 0 ≤ truncated q ∧ truncated q ≤ 4294967295

/-- The doubles that are converted for a wheel event. -/
def wheelConversions (deltaY : ℤ) : List ℚ :=
  if 0 < deltaY.natAbs then [scaledDelta deltaY] else []

section Scaling

variable {n : ℤ}

/-- From a hundredth on, numbers are in the normal range of a `double`. -/
theorem normal_of_le {q : ℚ} (hle : 1 / 100 ≤ |q|) : (2 : ℚ) ^ (-1022 : ℤ) ≤ |q| := by
  have hsmall : (2 : ℚ) ^ (-1022 : ℤ) ≤ 2 ^ (-7 : ℤ) :=
    zpow_le_zpow_right₀ (by norm_num) (by norm_num)
  have hvalue : (2 : ℚ) ^ (-7 : ℤ) ≤ 1 / 100 := by norm_num
  exact hsmall.trans (hvalue.trans hle)

/-- Two roundings move the scaled number by less than a fifth. -/
theorem abs_scaledDelta_sub_lt (hne : n ≠ 0) (hfits : CInt.FitsInt n) :
    |scaledDelta n - 6 * n / 5| < 1 / 5 := by
  obtain ⟨hlower, hupper⟩ := hfits
  have hone : (1 : ℚ) ≤ |(n : ℚ)| := by exact_mod_cast Int.one_le_abs hne
  have hsize : |(n : ℚ)| ≤ 2147483648 := by exact_mod_cast abs_le.mpr ⟨hlower, by omega⟩
  -- the quotient
  have hquotient : |(n : ℚ) / 100| = |(n : ℚ)| / 100 := by
    rw [abs_div]
    norm_num
  have hfirst := abs_toDouble_sub_le (normal_of_le (q := n / 100) (by rw [hquotient]; linarith))
  rw [hquotient] at hfirst
  obtain ⟨hfirstLower, hfirstUpper⟩ := abs_le.mp hfirst
  generalize hd : toDouble (n / 100) = d at hfirst hfirstLower hfirstUpper
  have hd_lower : |(n : ℚ)| / 200 ≤ |d| := by
    have hsub := abs_sub_abs_le_abs_sub ((n : ℚ) / 100) d
    rw [abs_sub_comm, hquotient] at hsub
    linarith
  have hd_upper : |d| ≤ |(n : ℚ)| / 50 := by
    have hsub := abs_sub_abs_le_abs_sub d ((n : ℚ) / 100)
    rw [hquotient] at hsub
    linarith
  -- the product
  have hproduct : |d * 120| = |d| * 120 := by
    rw [abs_mul]
    norm_num
  have hsecond := abs_toDouble_sub_le (normal_of_le (q := d * 120) (by rw [hproduct]; linarith))
  rw [hproduct] at hsecond
  obtain ⟨hsecondLower, hsecondUpper⟩ := abs_le.mp hsecond
  rw [scaledDelta, hd, abs_lt]
  constructor <;> linarith

/-- What is converted for a positive number: six fifths of it, or one less. -/
theorem truncated_scaledDelta (hpos : 0 < n) (hfits : CInt.FitsInt n) :
    6 * n - 6 < 5 * truncated (scaledDelta n) ∧ 5 * truncated (scaledDelta n) < 6 * n + 1 := by
  obtain ⟨hlower, hupper⟩ := abs_lt.mp (abs_scaledDelta_sub_lt hpos.ne' hfits)
  have hone : (1 : ℚ) ≤ n := by exact_mod_cast hpos
  have hfloor : (⌊scaledDelta n⌋ : ℚ) ≤ scaledDelta n := Int.floor_le _
  have hnext : scaledDelta n < ⌊scaledDelta n⌋ + 1 := Int.lt_floor_add_one _
  rw [truncated_of_nonneg (by linarith)]
  have hbelow : (6 * n - 6 : ℚ) < 5 * ⌊scaledDelta n⌋ := by linarith
  have habove : (5 * ⌊scaledDelta n⌋ : ℚ) < 6 * n + 1 := by linarith
  exact ⟨by exact_mod_cast hbelow, by exact_mod_cast habove⟩

/-- What is converted for a negative number is negative. -/
theorem truncated_scaledDelta_neg (hneg : n < 0) (hfits : CInt.FitsInt n) :
    truncated (scaledDelta n) < 0 := by
  obtain ⟨-, hupper⟩ := abs_lt.mp (abs_scaledDelta_sub_lt hneg.ne hfits)
  have hone : (n : ℚ) ≤ -1 := by exact_mod_cast Int.le_sub_one_of_lt hneg
  have hfloor : (1 : ℤ) ≤ ⌊-scaledDelta n⌋ := by
    rw [Int.le_floor]
    push_cast
    linarith
  have hopposite := truncated_neg (scaledDelta n)
  rw [truncated_of_nonneg (by linarith)] at hopposite
  omega

/-- The signed `mouseData` of a wheel event for a positive number is the number that is converted,
wrapped around. -/
theorem toInt_wheelData (hpos : 0 < n) (hfits : CInt.FitsInt n) :
    (wheelData n).toBitVec.toInt =
      if truncated (scaledDelta n) < 2147483648 then truncated (scaledDelta n)
      else truncated (scaledDelta n) - 4294967296 := by
  obtain ⟨hlower, hupper⟩ := truncated_scaledDelta hpos hfits
  have hle := hfits.2
  rw [wheelData, if_pos (by omega), doubleToDWORD]
  generalize truncated (scaledDelta n) = t at hlower hupper
  have hnat : (UInt32.ofInt t).toBitVec.toNat = t.toNat := by
    rw [UInt32.ofInt, Int.emod_eq_of_lt (by omega) (by omega)]
    have hsize : t.toNat < 4294967296 := by omega
    exact UInt32.toNat_ofNat_of_lt' hsize
  rw [BitVec.toInt_eq_toNat_cond, hnat]
  split <;> split <;> omega

end Scaling

/-! ## Wheel messages -/

/-- A message of the wheel listener: the digits of its `deltaY` say any number but zero, and the
other fields can be read. -/
structure WheelMessage (json : JsonLibrary) where
  message : Message
  members : List (String × Json)
  deltaY : ℚ
  x : ℤ
  y : ℤ
  button : ℤ
  object : message.json = some (.obj members)
  type : (Json.obj members).member "type" = some (.str "input")
  inputType : (Json.obj members).member "inputType" = some (.str "wheel")
  delta : (Json.obj members).member "deltaY" = some (.num (.ofRat deltaY))
  deltaY_ne : deltaY ≠ 0
  readX : json.valueInt (.obj members) "x" 0 = .ok x
  readY : json.valueInt (.obj members) "y" 0 = .ok y
  readButton : json.valueInt (.obj members) "button" (-1) = .ok button

namespace WheelMessage

variable {json : JsonLibrary} (w : WheelMessage json)

/-- One wheel event is injected, which turns the wheel against the sign of `deltaY`, and the
conversions on the way are defined: that of `deltaY` to `int`, and those to `DWORD`. -/
def KeepsDirection (host : Host) : Prop :=
  (∃ mi, w.message.inputs host = [.mouse mi] ∧ hasFlag mi.dwFlags MOUSEEVENTF_WHEEL = true ∧
    (0 < w.deltaY → mi.rotation < 0) ∧ (w.deltaY < 0 → 0 < mi.rotation)) ∧
  ReadsAsInt w.deltaY ∧
  ∃ e, w.message.mouseEvent host.json = some e ∧ ∀ q ∈ wheelConversions e.deltaY, FitsDWORD q

/-- The handler reads the fields of the message. -/
theorem mouseEvent_eq (hjson : json.Documented) (hreads : ReadsAsInt w.deltaY) :
    w.message.mouseEvent json =
      some ⟨"wheel", w.x, w.y, w.button, CInt.wrap (truncated w.deltaY)⟩ := by
  have hdelta : json.valueInt (.obj w.members) "deltaY" 0 =
      .ok (CInt.wrap (truncated w.deltaY)) := hjson.int 0 w.delta hreads
  rw [Message.mouseEvent, w.object]
  simp only [Option.bind_eq_bind, Option.bind_some]
  rw [hjson.string "" w.type, hjson.string "" w.inputType, w.readX, w.readY, w.readButton, hdelta]
  simp only [Except.toOption]
  rfl

/-- What is injected for it. -/
theorem inputs_eq (hjson : json.Documented) (hreads : ReadsAsInt w.deltaY) {host : Host}
    (hlibrary : host.json = json)
    (hscreen : ¬ (host.metrics.cxScreen = 0 ∨ host.metrics.cyScreen = 0)) :
    w.message.inputs host = [.mouse {
      dx := normalized w.x host.metrics.cxScreen
      dy := normalized w.y host.metrics.cyScreen
      mouseData := wheelData (CInt.wrap (truncated w.deltaY))
      dwFlags := MOUSEEVENTF_ABSOLUTE ||| MOUSEEVENTF_VIRTUALDESK ||| MOUSEEVENTF_WHEEL }] := by
  have hinputs := w.message.inputs_eq host
  rw [hlibrary, w.mouseEvent_eq hjson hreads] at hinputs
  simp only at hinputs
  rw [hinputs, MouseEvent.inputs, injectMouseInput, if_neg hscreen]
  rfl

/-- The number the injector is given is an `int`. -/
theorem fitsInt_wrap (z : ℤ) : CInt.FitsInt (CInt.wrap z) := by
  have hlower := Int.le_bmod (x := z) (m := 4294967296) (by decide)
  have hupper := Int.bmod_lt (x := z) (m := 4294967296) (by decide)
  rw [CInt.FitsInt, CInt.wrap]
  omega

/-- For a positive number the conversion is defined, and the rotation is positive unless it wraps
around. -/
theorem rotation_of_pos {n : ℤ} (hpos : 0 < n) (hfits : CInt.FitsInt n) :
    (∀ q ∈ wheelConversions n, FitsDWORD q) ∧
      (0 < (wheelData n).toBitVec.toInt ↔ n < 1789569707) ∧
      ((wheelData n).toBitVec.toInt < 0 ↔ 1789569707 ≤ n) := by
  obtain ⟨hlower, hupper⟩ := truncated_scaledDelta hpos hfits
  have hle := hfits.2
  refine ⟨?_, ?_, ?_⟩
  · rw [wheelConversions, if_pos (by omega), List.forall_mem_singleton, FitsDWORD]
    omega
  · rw [toInt_wheelData hpos hfits]
    split <;> omega
  · rw [toInt_wheelData hpos hfits]
    split <;> omega

/-- For any other number there is no rotation, or the conversion is undefined. -/
theorem rotation_of_nonpos {n : ℤ} (hneg : ¬ 0 < n) (hfits : CInt.FitsInt n) :
    (wheelData n).toBitVec.toInt = 0 ∨ ∃ q ∈ wheelConversions n, ¬ FitsDWORD q := by
  by_cases hzero : n = 0
  · subst hzero
    exact Or.inl rfl
  · refine Or.inr ⟨scaledDelta n, ?_, fun hdefined => ?_⟩
    · rw [wheelConversions, if_pos (by omega)]
      exact List.mem_singleton.mpr rfl
    · have hbelow : truncated (scaledDelta n) < 0 := truncated_scaledDelta_neg (by omega) hfits
      exact absurd hdefined.1 (not_le.mpr hbelow)

/-- **When the wheel keeps its direction**: only for numbers that read as an `int`, and are so large
that they wrap around to the other sign, on the way to `int` or on the way to `DWORD`. -/
theorem keepsDirection_iff (hjson : json.Documented) (desktop : Desktop)
    (mapVirtualKey : WORD → WORD) :
    w.KeepsDirection ⟨desktop.metrics, mapVirtualKey, json⟩ ↔
      ReadsAsInt w.deltaY ∧
        ((0 < w.deltaY ∧ 1789569707 ≤ CInt.wrap (truncated w.deltaY)) ∨
          (w.deltaY < 0 ∧ 0 < CInt.wrap (truncated w.deltaY) ∧
            CInt.wrap (truncated w.deltaY) < 1789569707)) := by
  have hfits := fitsInt_wrap (truncated w.deltaY)
  have hsign : 0 < w.deltaY ∨ w.deltaY < 0 := (lt_or_gt_of_ne w.deltaY_ne).symm
  rw [KeepsDirection, and_left_comm]
  refine and_congr_right fun hreads => ?_
  rw [w.inputs_eq hjson hreads rfl desktop.screen_ne_zero, w.mouseEvent_eq hjson hreads]
  generalize CInt.wrap (truncated w.deltaY) = n at hfits
  constructor
  · rintro ⟨⟨mi, hmi, -, hdown, hup⟩, e, he, hconversions⟩
    obtain ⟨rfl⟩ := Input.mouse.inj (List.singleton_inj.mp hmi)
    obtain ⟨rfl⟩ := Option.some.inj he
    rw [MouseInput.rotation] at hdown hup
    by_cases hpos : 0 < n
    · obtain ⟨-, hforward, hback⟩ := rotation_of_pos hpos hfits
      rcases hsign with hpositive | hnegative
      · exact Or.inl ⟨hpositive, hback.mp (hdown hpositive)⟩
      · exact Or.inr ⟨hnegative, hpos, hforward.mp (hup hnegative)⟩
    · rcases rotation_of_nonpos hpos hfits with hnone | ⟨q, hq, hundefined⟩
      · rw [hnone] at hdown hup
        rcases hsign with hpositive | hnegative
        · exact absurd (hdown hpositive) (Int.lt_irrefl 0)
        · exact absurd (hup hnegative) (Int.lt_irrefl 0)
      · exact absurd (hconversions q hq) hundefined
  · intro hcondition
    have hpos : 0 < n := by
      rcases hcondition with ⟨-, hlarge⟩ | ⟨-, hpos, -⟩
      · omega
      · exact hpos
    have hflag : hasFlag (MOUSEEVENTF_ABSOLUTE ||| MOUSEEVENTF_VIRTUALDESK ||| MOUSEEVENTF_WHEEL)
        MOUSEEVENTF_WHEEL = true := by decide
    obtain ⟨hconversions, hforward, hback⟩ := rotation_of_pos hpos hfits
    refine ⟨⟨_, rfl, hflag, fun hpositive => ?_, fun hnegative => ?_⟩, _, rfl, hconversions⟩
    · rcases hcondition with ⟨-, hlarge⟩ | ⟨hnegative, -⟩
      · exact hback.mpr hlarge
      · exact absurd hpositive (not_lt.mpr hnegative.le)
    · rcases hcondition with ⟨hpositive, -⟩ | ⟨-, -, hsmall⟩
      · exact absurd hpositive (not_lt.mpr hnegative.le)
      · exact hforward.mpr hsmall

end WheelMessage

/-! ## Two scrolls -/

/-- The message for a wheel event with this `deltaY`. -/
def scrolled (deltaY : ℤ) (hne : deltaY ≠ 0) : WheelMessage .lowBits where
  message := {
    data := "\x7b\"type\":\"input\",\"inputType\":\"wheel\",\"deltaY\":" ++ toString deltaY ++
      ",\"x\":0,\"y\":0\x7d"
    json := some (.obj [("type", .str "input"), ("inputType", .str "wheel"),
      ("deltaY", .num (.ofRat deltaY)), ("x", .num (.finite false (0 : ℕ))),
      ("y", .num (.finite false (0 : ℕ)))]) }
  members := [("type", .str "input"), ("inputType", .str "wheel"), ("deltaY", .num (.ofRat deltaY)),
    ("x", .num (.finite false (0 : ℕ))), ("y", .num (.finite false (0 : ℕ)))]
  deltaY := deltaY
  x := (0 : ℕ)
  y := (0 : ℕ)
  button := -1
  object := rfl
  type := rfl
  inputType := rfl
  delta := rfl
  deltaY_ne := by exact_mod_cast hne
  readX := JsonLibrary.lowBits_documented.natCast 0 rfl (by decide)
  readY := JsonLibrary.lowBits_documented.natCast 0 rfl (by decide)
  readButton := JsonLibrary.lowBits_documented.missing (-1) rfl

/-- A very large number wraps around, and turns the wheel back. -/
theorem keepsDirection_far :
    (scrolled 1800000000 (by decide)).KeepsDirection
      ⟨(Desktop.single 1920 1080 (by decide)).metrics, id, .lowBits⟩ :=
  ((scrolled 1800000000 (by decide)).keepsDirection_iff JsonLibrary.lowBits_documented _ _).mpr
    ⟨by decide +kernel, Or.inl (by decide +kernel)⟩

/-- A notch of the wheel towards the user turns the wheel forward, as for scrolling up. -/
theorem scrolledDown_turns_forward :
    ¬ ∀ (json : JsonLibrary), json.Documented → ∀ (w : WheelMessage json) (desktop : Desktop)
      (mapVirtualKey : WORD → WORD),
      w.KeepsDirection ⟨desktop.metrics, mapVirtualKey, json⟩ := by
  intro h
  have hjson := JsonLibrary.lowBits_documented
  obtain ⟨⟨mi, hmi, -, hdown, -⟩, hreads, -⟩ :=
    h .lowBits hjson (scrolled 100 (by decide)) (.single 1920 1080 (by decide)) id
  rw [WheelMessage.inputs_eq _ hjson hreads rfl (Desktop.screen_ne_zero _)] at hmi
  obtain ⟨rfl⟩ := Input.mouse.inj (List.singleton_inj.mp hmi)
  exact absurd (hdown (by decide +kernel)) (by decide +kernel)

end BrowCast
