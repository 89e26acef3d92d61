import BrowCast.Agent.KeyMessages

/-! # Simulating the viewer's keyboard

The agent holds the keys the viewer holds, under one identification of physical keys with scan codes
or virtual keys, exactly when the events of a key all map to the same thing and those of different
keys do not. For keys whose code is in `browserCodeToVkMap` this is settled by the code; the others
go by their `key` strings, which change with the modifiers. -/

namespace BrowCast

/-! ## Scan-code set 1 -/

/-- Consecutive scan codes. -/
def scanCodeRow (first : WORD) (codes : List String) : List (String × WORD) :=
  codes.zipIdx.map fun e => (e.1, first + .ofNat e.2)

/-- The keys with a plain scan code. -/
def plainScanCodes : List (String × WORD) :=
  scanCodeRow 0x01 ["Escape", "Digit1", "Digit2", "Digit3", "Digit4", "Digit5", "Digit6", "Digit7",
    "Digit8", "Digit9", "Digit0", "Minus", "Equal", "Backspace", "Tab"] ++
  scanCodeRow 0x10 ["KeyQ", "KeyW", "KeyE", "KeyR", "KeyT", "KeyY", "KeyU", "KeyI", "KeyO", "KeyP",
    "BracketLeft", "BracketRight", "Enter", "ControlLeft"] ++
  scanCodeRow 0x1E ["KeyA", "KeyS", "KeyD", "KeyF", "KeyG", "KeyH", "KeyJ", "KeyK", "KeyL",
    "Semicolon", "Quote", "Backquote", "ShiftLeft", "Backslash"] ++
  scanCodeRow 0x2C ["KeyZ", "KeyX", "KeyC", "KeyV", "KeyB", "KeyN", "KeyM", "Comma", "Period",
    "Slash", "ShiftRight", "NumpadMultiply", "AltLeft", "Space", "CapsLock"] ++
  scanCodeRow 0x3B ["F1", "F2", "F3", "F4", "F5", "F6", "F7", "F8", "F9", "F10", "NumLock",
    "ScrollLock", "Numpad7", "Numpad8", "Numpad9", "NumpadSubtract", "Numpad4", "Numpad5",
    "Numpad6", "NumpadAdd", "Numpad1", "Numpad2", "Numpad3", "Numpad0", "NumpadDecimal"] ++
  scanCodeRow 0x57 ["F11", "F12"] ++
  scanCodeRow 0x64 ["F13", "F14", "F15", "F16", "F17", "F18", "F19", "F20", "F21", "F22", "F23"] ++
  scanCodeRow 0x76 ["F24"]

/-- The keys with the prefix `E0`. `Pause`, with its prefix `E1`, is in neither list. -/
def prefixedScanCodes : List (String × WORD) :=
  [("NumpadEnter", 0x1C), ("ControlRight", 0x1D), ("NumpadDivide", 0x35), ("PrintScreen", 0x37),
    ("AltRight", 0x38), ("Home", 0x47), ("ArrowUp", 0x48), ("PageUp", 0x49), ("ArrowLeft", 0x4B),
    ("ArrowRight", 0x4D), ("End", 0x4F), ("ArrowDown", 0x50), ("PageDown", 0x51), ("Insert", 0x52),
    ("Delete", 0x53), ("MetaLeft", 0x5B), ("MetaRight", 0x5C)]

/-- The scan codes of set 1 for the codes of the map: the unprefixed code, and whether it has the
prefix `E0`. -/
def scanCodes : List (String × WORD × Bool) :=
  plainScanCodes.map (fun e => (e.1, e.2, false)) ++ prefixedScanCodes.map fun e => (e.1, e.2, true)

/-- The key has the prefix `E0`. -/
def isPrefixed (code : String) : Bool := (scanCodes.lookup code).any (·.2)

/-- `MapVirtualKey` returns the unprefixed scan code of a key. -/
def ReturnsScanCodes (mapVirtualKey : WORD → WORD) : Prop :=
  ∀ code vk, (code, vk) ∈ browserCodeToVkMap → ∀ scan e0, scanCodes.lookup code = some (scan, e0) →
    mapVirtualKey vk = scan

/-! ## The simulation -/

section

variable {K : Type*} (host : Host) (code : K → String) (layout : Set (K × String))

/-- The keyboard is simulated. `layout` holds the physical keys with the `key` strings their events
can carry. For all sequences of such events, the keys held on the agent are those held at the
viewer, under one identification; and a key in the map has the extended bit exactly with the
prefix. -/
def SimulatesKeyboard : Prop :=
  (∃ ι : K → Option KeyTarget, TellsApart ι ∧
    ∀ events : List (KeyEvent K), (∀ e ∈ events, (e.physical, e.key) ∈ layout) →
      KeyEvent.heldOnAgent code host events = labels ι (KeyEvent.held events)) ∧
    ∀ p ∈ layout, (browserCodeToVkMap.lookup (code p.1)).isSome →
      ∀ ki, keyboardInput host.mapVirtualKey p.2 (code p.1) = .ok (some ki) →
        hasFlag ki.dwFlags KEYEVENTF_EXTENDEDKEY = isPrefixed (code p.1)

/-- The virtual key the fallback finds; none when it finds none, or throws. -/
def fallbackKey (key : String) : Option WORD := (fallbackVk key).toOption.filter (· ≠ 0)

/-- When the keyboard is simulated. -/
structure Mappable : Prop where
  /-- No key has one of the codes whose extended bit is wrong. -/
  extended : ∀ p ∈ layout, code p.1 ∉ ["ShiftRight", "BracketRight", "MetaLeft"]
  /-- Different keys have different codes of the map. -/
  codes : ∀ p ∈ layout, ∀ q ∈ layout, code p.1 = code q.1 →
    (browserCodeToVkMap.lookup (code p.1)).isSome → p.1 = q.1
  /-- The scan code of the pause key is not that of another plain key. -/
  pause : ∀ p ∈ layout, ∀ q ∈ layout, code p.1 = "Pause" →
    ∀ scan, scanCodes.lookup (code q.1) = some (scan, false) → host.mapVirtualKey VK_PAUSE ≠ scan
  /-- The `key` strings of a key outside the map all lead to one virtual key, or none does. -/
  strings : ∀ p ∈ layout, ∀ q ∈ layout, p.1 = q.1 → browserCodeToVkMap.lookup (code p.1) = none →
    fallbackKey p.2 = fallbackKey q.2
  /-- Different keys outside the map do not lead to the same virtual key. -/
  virtualKeys : ∀ p ∈ layout, ∀ q ∈ layout, browserCodeToVkMap.lookup (code p.1) = none →
    browserCodeToVkMap.lookup (code q.1) = none →
      ∀ vk, fallbackKey p.2 = some vk → fallbackKey q.2 = some vk → p.1 = q.1

end

/-! ## The table -/

section Table

/-- What is found in a list of pairs is one of them. -/
theorem mem_of_lookup {α β : Type*} [BEq α] [LawfulBEq α] {l : List (α × β)} {a : α} {b : β}
    (hlookup : l.lookup a = some b) : (a, b) ∈ l := by
  obtain ⟨before, after, rfl, -⟩ := List.lookup_eq_some_iff.mp hlookup
  exact List.mem_append_right _ List.mem_cons_self

/-- What a code of the map leads to, checked entry by entry: a virtual key, an extended bit that is
right but for three codes, and, but for the pause key, a scan code. -/
theorem browserCodeToVkMap_spec : ∀ e ∈ browserCodeToVkMap,
    e.2 ≠ 0 ∧
      (isExtendedCode e.1 = isPrefixed e.1 ↔
        e.1 ∉ ["ShiftRight", "BracketRight", "MetaLeft"]) ∧
      (e.1 = "Pause" ∧ e.2 = VK_PAUSE ∨ (scanCodes.lookup e.1).isSome) := by
  decide +kernel

/-- The keys with a scan code, and those whose extended bit is wrong, are in the map. -/
theorem isSome_lookup_of_scanCodes : ∀ e ∈ scanCodes, (browserCodeToVkMap.lookup e.1).isSome := by
  decide +kernel

/-- The codes whose extended bit is wrong are in the map. -/
theorem isSome_lookup_of_wrongBit : ∀ c ∈ ["ShiftRight", "BracketRight", "MetaLeft"],
    (browserCodeToVkMap.lookup c).isSome := by
  decide +kernel

/-- No two keys have the same scan code and the same prefix. -/
theorem nodup_scanCodes : (scanCodes.map Prod.snd).Nodup := by decide +kernel

/-- Keys with the same scan code and the same prefix are one key. -/
theorem eq_of_lookup_scanCodes {c c' : String} {scan : WORD × Bool}
    (h : scanCodes.lookup c = some scan) (h' : scanCodes.lookup c' = some scan) : c = c' :=
  congrArg Prod.fst
    (List.inj_on_of_nodup_map nodup_scanCodes (mem_of_lookup h) (mem_of_lookup h') rfl)

end Table

/-! ## The target of a key -/

section Target

variable {mapVirtualKey : WORD → WORD} {key c : String}

/-- A code of the map leads to a scan code, whatever the `key` string. -/
theorem keyboardInput_of_code {vk : WORD} (hlookup : browserCodeToVkMap.lookup c = some vk) :
    ∃ ki, keyboardInput mapVirtualKey key c = .ok (some ki) ∧
      ki.target = .scan (mapVirtualKey vk) (isExtendedCode c) ∧
      hasFlag ki.dwFlags KEYEVENTF_EXTENDEDKEY = isExtendedCode c := by
  obtain ⟨hvk, -, -⟩ := browserCodeToVkMap_spec _ (mem_of_lookup hlookup)
  have hscan : hasFlag (KEYEVENTF_SCANCODE ||| KEYEVENTF_EXTENDEDKEY) KEYEVENTF_SCANCODE = true ∧
      hasFlag KEYEVENTF_SCANCODE KEYEVENTF_SCANCODE = true := by decide
  have hextended : hasFlag (KEYEVENTF_SCANCODE ||| KEYEVENTF_EXTENDEDKEY) KEYEVENTF_EXTENDEDKEY =
      true ∧ hasFlag KEYEVENTF_SCANCODE KEYEVENTF_EXTENDEDKEY = false := by decide
  rw [keyboardInput, hlookup]
  simp only [if_neg hvk]
  refine ⟨_, rfl, ?_, ?_⟩
  · cases isExtendedCode c <;> simp [KeybdInput.target, hscan, hextended]
  · cases isExtendedCode c <;> simp [hextended]

/-- A code of the map leads to its scan code and its extended bit. -/
theorem keyTarget_of_code {vk : WORD} (hlookup : browserCodeToVkMap.lookup c = some vk) :
    keyTarget mapVirtualKey key c = some (.scan (mapVirtualKey vk) (isExtendedCode c)) := by
  obtain ⟨ki, hki, htarget, -⟩ :=
    @keyboardInput_of_code mapVirtualKey key c vk hlookup
  rw [keyTarget, hki]
  exact congrArg some htarget

/-- Any other code leaves it to the `key` string, which leads to a virtual key or to nothing. -/
theorem keyTarget_of_key (hlookup : browserCodeToVkMap.lookup c = none) :
    keyTarget mapVirtualKey key c =
      (fallbackKey key).map fun vk => .virtual vk (isExtendedVk mapVirtualKey vk) := by
  have hvirtual : hasFlag KEYEVENTF_EXTENDEDKEY KEYEVENTF_SCANCODE = false ∧
      hasFlag KEYEVENTF_EXTENDEDKEY KEYEVENTF_EXTENDEDKEY = true ∧
      hasFlag 0 KEYEVENTF_SCANCODE = false ∧ hasFlag 0 KEYEVENTF_EXTENDEDKEY = false := by decide
  rw [keyTarget, keyboardInput, hlookup, fallbackKey]
  cases hvk : fallbackVk key with
  | error e => rfl
  | ok vk =>
      by_cases hzero : vk = 0
      · simp [bind, Except.bind, pure, Except.pure, Except.toOption, hzero]
      · cases hext : isExtendedVk mapVirtualKey vk <;>
          simp [bind, Except.bind, pure, Except.pure, Except.toOption, hzero, hext,
            KeybdInput.target, hvirtual]

end Target

/-! ## When the keyboard is simulated -/

section Simulates

variable {K : Type*} {host : Host} {code : K → String} {layout : Set (K × String)}
  {p q : K × String} {vk vk' : WORD}

/-- What a key with a `key` string is on the agent. -/
def targetOf (host : Host) (code : K → String) (p : K × String) : Option KeyTarget :=
  keyTarget host.mapVirtualKey p.2 (code p.1)

/-- A key with a code of the map goes by that code. -/
theorem targetOf_of_code (hvk : browserCodeToVkMap.lookup (code p.1) = some vk) :
    targetOf host code p = some (.scan (host.mapVirtualKey vk) (isExtendedCode (code p.1))) :=
  keyTarget_of_code hvk

/-- A key with another code goes by its `key` string. -/
theorem targetOf_of_key (hnone : browserCodeToVkMap.lookup (code p.1) = none) :
    targetOf host code p =
      (fallbackKey p.2).map fun vk => .virtual vk (isExtendedVk host.mapVirtualKey vk) :=
  keyTarget_of_key hnone

/-- The first half, over sequences of presses and releases. -/
theorem simulation_iff_events (hjson : host.json.Documented) :
    (∃ ι : K → Option KeyTarget, TellsApart ι ∧
      ∀ events : List (KeyEvent K), (∀ e ∈ events, (e.physical, e.key) ∈ layout) →
        KeyEvent.heldOnAgent code host events = labels ι (KeyEvent.held events)) ↔
      LabelsByName Prod.fst (targetOf host code) layout := by
  rw [← simulation_iff_labelsByName]
  refine exists_congr fun ι => and_congr_right fun _ => ?_
  constructor
  · intro hsimulates presses hallowed
    -- events with these keys and strings
    have hevents := hsimulates
      (presses.map fun e => ⟨e.1.1, e.1.2, e.2, 0, false, false, false, false⟩) fun e he => by
        obtain ⟨press, hpress, rfl⟩ := List.mem_map.mp he
        exact hallowed press hpress
    rw [heldOnAgent_eq hjson, KeyEvent.held, List.map_map, List.filterMap_map] at hevents
    exact hevents
  · intro hsimulates events hallowed
    have hpresses := hsimulates (events.map fun e => ((e.physical, e.key), e.down))
      (by simpa using hallowed)
    rw [relabel, List.filterMap_map, List.map_map] at hpresses
    rw [heldOnAgent_eq hjson]
    exact hpresses

/-- A keyboard that is simulated is mappable. -/
theorem mappable_of_simulates (hscan : ReturnsScanCodes host.mapVirtualKey)
    (hnames : LabelsByName Prod.fst (targetOf host code) layout)
    (hbit : ∀ p ∈ layout, (browserCodeToVkMap.lookup (code p.1)).isSome →
      isExtendedCode (code p.1) = isPrefixed (code p.1)) : Mappable host code layout where
  extended p hp hmem := by
    have hsome := isSome_lookup_of_wrongBit _ hmem
    obtain ⟨vk, hvk⟩ := Option.isSome_iff_exists.mp hsome
    obtain ⟨-, hspec, -⟩ := browserCodeToVkMap_spec _ (mem_of_lookup hvk)
    exact hspec.mp (hbit p hp hsome) hmem
  codes p hp q hq hcode hsome := by
    obtain ⟨vk, hvk⟩ := Option.isSome_iff_exists.mp hsome
    refine (hnames p hp q hq).2 _ (targetOf_of_code hvk) ?_
    rw [targetOf_of_code (hcode ▸ hvk), hcode]
  pause p hp q hq hpause scan hlookup hsame := by
    have hsome : (browserCodeToVkMap.lookup (code q.1)).isSome :=
      isSome_lookup_of_scanCodes _ (mem_of_lookup hlookup)
    obtain ⟨vk, hvk⟩ := Option.isSome_iff_exists.mp hsome
    have hpauseVk : browserCodeToVkMap.lookup (code p.1) = some VK_PAUSE := by
      rw [hpause]
      decide +kernel
    -- both keys have the same scan code, and neither has the extended bit
    have hplain : isExtendedCode (code p.1) = false ∧ isExtendedCode (code q.1) = false := by
      rw [hbit q hq hsome, isPrefixed, hlookup, hpause]
      exact ⟨by decide +kernel, rfl⟩
    have hkeys : p.1 = q.1 := by
      refine (hnames p hp q hq).2 _ (targetOf_of_code hpauseVk) ?_
      rw [targetOf_of_code hvk, hsame, hscan _ _ (mem_of_lookup hvk) _ _ hlookup, hplain.1,
        hplain.2]
    have hnone : scanCodes.lookup "Pause" = none := by decide +kernel
    rw [← hkeys, hpause, hnone] at hlookup
    cases hlookup
  strings p hp q hq hsame hnone := by
    have htargets := (hnames p hp q hq).1 hsame
    rw [targetOf_of_key hnone, targetOf_of_key (hsame ▸ hnone)] at htargets
    exact Option.map_injective (fun vk vk' h => (KeyTarget.virtual.inj h).1) htargets
  virtualKeys p hp q hq hnone hnone' vk hvk hvk' := by
    refine (hnames p hp q hq).2 (.virtual vk (isExtendedVk host.mapVirtualKey vk)) ?_ ?_
    · rw [targetOf_of_key hnone, hvk]
      rfl
    · rw [targetOf_of_key hnone', hvk']
      rfl

/-- A code of the map that is not the pause key's has the scan code its virtual key maps to, with
the prefix its extended bit says. -/
theorem lookup_scanCodes_of_code (hscan : ReturnsScanCodes host.mapVirtualKey)
    (hmappable : Mappable host code layout) (hp : p ∈ layout)
    (hvk : browserCodeToVkMap.lookup (code p.1) = some vk) :
    code p.1 = "Pause" ∧ vk = VK_PAUSE ∨
      scanCodes.lookup (code p.1) = some (host.mapVirtualKey vk, isExtendedCode (code p.1)) := by
  obtain ⟨-, hspec, hpause | hsome⟩ := browserCodeToVkMap_spec _ (mem_of_lookup hvk)
  · exact Or.inl hpause
  · obtain ⟨⟨scan, e0⟩, hlookup⟩ := Option.isSome_iff_exists.mp hsome
    have hbit : isExtendedCode (code p.1) = e0 := by
      rw [hspec.mpr (hmappable.extended p hp), isPrefixed, hlookup]
      rfl
    rw [hscan _ _ (mem_of_lookup hvk) _ _ hlookup, hbit]
    exact Or.inr hlookup

/-- In a mappable layout, two codes of the map with the same target are the same code. -/
theorem code_eq_of_scan_eq (hscan : ReturnsScanCodes host.mapVirtualKey)
    (hmappable : Mappable host code layout) (hp : p ∈ layout) (hq : q ∈ layout)
    (hvk : browserCodeToVkMap.lookup (code p.1) = some vk)
    (hvk' : browserCodeToVkMap.lookup (code q.1) = some vk')
    (hsame : host.mapVirtualKey vk = host.mapVirtualKey vk')
    (hbits : isExtendedCode (code p.1) = isExtendedCode (code q.1)) : code p.1 = code q.1 := by
  have hplain : isExtendedCode "Pause" = false := by decide +kernel
  rcases lookup_scanCodes_of_code hscan hmappable hp hvk with ⟨hpause, rfl⟩ | hlookup
  · rcases lookup_scanCodes_of_code hscan hmappable hq hvk' with ⟨hpause', -⟩ | hlookup'
    · rw [hpause, hpause']
    · rw [← hbits, hpause, hplain] at hlookup'
      exact absurd hsame (hmappable.pause p hp q hq hpause _ hlookup')
  · rcases lookup_scanCodes_of_code hscan hmappable hq hvk' with ⟨hpause', rfl⟩ | hlookup'
    · rw [hbits, hpause', hplain] at hlookup
      exact absurd hsame.symm (hmappable.pause q hq p hp hpause' _ hlookup)
    · rw [← hsame, ← hbits] at hlookup'
      exact eq_of_lookup_scanCodes hlookup hlookup'

/-- In a mappable layout, targets go by the physical key. -/
theorem labelsByName_of_mappable (hscan : ReturnsScanCodes host.mapVirtualKey)
    (hmappable : Mappable host code layout) :
    LabelsByName Prod.fst (targetOf host code) layout := by
  intro p hp q hq
  constructor
  · intro hsame
    -- keys of one name: both are found by their code, or both by their key string
    cases hvk : browserCodeToVkMap.lookup (code p.1) with
    | none =>
        rw [targetOf_of_key hvk, targetOf_of_key (hsame ▸ hvk),
          hmappable.strings p hp q hq hsame hvk]
    | some vk => rw [targetOf_of_code hvk, targetOf_of_code (hsame ▸ hvk), hsame]
  · intro t hpt hqt
    cases hvk : browserCodeToVkMap.lookup (code p.1) with
    | some vk =>
        rw [targetOf_of_code hvk] at hpt
        obtain rfl := Option.some.inj hpt
        cases hvk' : browserCodeToVkMap.lookup (code q.1) with
        | some vk' =>
            rw [targetOf_of_code hvk'] at hqt
            obtain ⟨hsame, hbits⟩ := KeyTarget.scan.inj (Option.some.inj hqt)
            -- scan codes of the map are apart, so equal targets have equal codes
            exact hmappable.codes p hp q hq
              (code_eq_of_scan_eq hscan hmappable hp hq hvk hvk' hsame.symm hbits.symm)
              (Option.isSome_iff_exists.mpr ⟨vk, hvk⟩)
        | none =>
            rw [targetOf_of_key hvk', Option.map_eq_some_iff] at hqt
            obtain ⟨vk', -, heq⟩ := hqt
            cases heq
    | none =>
        rw [targetOf_of_key hvk, Option.map_eq_some_iff] at hpt
        obtain ⟨vk, hkey, rfl⟩ := hpt
        cases hvk' : browserCodeToVkMap.lookup (code q.1) with
        | some vk' =>
            rw [targetOf_of_code hvk'] at hqt
            cases hqt
        | none =>
            rw [targetOf_of_key hvk', Option.map_eq_some_iff] at hqt
            obtain ⟨vk', hkey', heq⟩ := hqt
            rw [(KeyTarget.virtual.inj heq).1] at hkey'
            exact hmappable.virtualKeys p hp q hq hvk hvk' vk hkey hkey'

/-- **The keyboard is simulated** exactly by the layouts that are mappable. -/
theorem simulatesKeyboard_iff_mappable (hscan : ReturnsScanCodes host.mapVirtualKey)
    (hjson : host.json.Documented) :
    SimulatesKeyboard host code layout ↔ Mappable host code layout := by
  rw [SimulatesKeyboard, simulation_iff_events hjson]
  constructor
  · rintro ⟨hnames, hextended⟩
    refine mappable_of_simulates hscan hnames fun p hp hsome => ?_
    obtain ⟨vk, hvk⟩ := Option.isSome_iff_exists.mp hsome
    obtain ⟨ki, hki, -, hbit⟩ := @keyboardInput_of_code _ p.2 _ vk hvk
    rw [← hbit]
    exact hextended p hp hsome ki hki
  · intro hmappable
    refine ⟨labelsByName_of_mappable hscan hmappable, fun p hp hsome ki hki => ?_⟩
    obtain ⟨vk, hvk⟩ := Option.isSome_iff_exists.mp hsome
    obtain ⟨ki', hki', -, hbit⟩ := @keyboardInput_of_code _ p.2 _ vk hvk
    obtain rfl := Option.some.inj (Except.ok.inj (hki.symm.trans hki'))
    obtain ⟨-, hspec, -⟩ := browserCodeToVkMap_spec _ (mem_of_lookup hvk)
    rw [hbit]
    exact hspec.mpr (hmappable.extended p hp)

end Simulates

/-! ## Two keyboards -/

/-- A `MapVirtualKey` that knows the keys of the map. -/
def mapVirtualKeySetOne (vk : WORD) : WORD :=
  ((browserCodeToVkMap.find? (·.2 = vk)).bind fun e => scanCodes.lookup e.1).elim 0 (·.1)

/-- It returns the scan codes of set 1. -/
theorem returnsScanCodes_setOne : ReturnsScanCodes mapVirtualKeySetOne := by
  have htable : (browserCodeToVkMap.all fun e =>
      (scanCodes.lookup e.1).all fun s => mapVirtualKeySetOne e.2 = s.1) = true := by
    decide +kernel
  intro c vk hmem scan e0 hlookup
  have hrow := List.all_eq_true.mp htable (c, vk) hmem
  rw [hlookup] at hrow
  exact of_decide_eq_true hrow

/-- An agent on one monitor. -/
def Host.setOne : Host := ⟨⟨1920, 1080, 0, 0, 1920, 1080⟩, mapVirtualKeySetOne, .lowBits⟩

/-- Both enter keys, an arrow key, a letter with both of its `key` strings, and two keys whose codes
are not in the map, a letter and one that cannot be mapped, with both of theirs. -/
def sixKeys : List (String × String) :=
  [("Enter", "Enter"), ("NumpadEnter", "Enter"), ("ArrowLeft", "ArrowLeft"), ("KeyA", "a"),
    ("KeyA", "A"), ("Unidentified", "q"), ("Unidentified", "Q"), ("IntlBackslash", "<"),
    ("IntlBackslash", ">")]

/-- A keyboard with these keys is simulated. -/
theorem simulatesKeyboard_sixKeys :
    SimulatesKeyboard Host.setOne id {p | p ∈ sixKeys} := by
  refine (simulatesKeyboard_iff_mappable returnsScanCodes_setOne
    JsonLibrary.lowBits_documented).mpr ⟨?_, ?_, ?_, ?_, ?_⟩
  · have hcodes : ∀ p ∈ sixKeys, p.1 ∉ ["ShiftRight", "BracketRight", "MetaLeft"] := by decide
    exact hcodes
  · intro p _ q _ hcode _
    exact hcode
  · have hcodes : ∀ p ∈ sixKeys, p.1 ≠ "Pause" := by decide
    intro p hp q _ hpause
    exact absurd hpause (hcodes p hp)
  · -- of the keys outside the map, `q` and `Q` lead to one key, `<` and `>` to none
    have hstrings : ∀ p ∈ sixKeys, ∀ q ∈ sixKeys, p.1 = q.1 →
        browserCodeToVkMap.lookup p.1 = none → fallbackKey p.2 = fallbackKey q.2 := by
      decide +kernel
    exact hstrings
  · have hkeys : ∀ p ∈ sixKeys, ∀ q ∈ sixKeys, browserCodeToVkMap.lookup p.1 = none →
        browserCodeToVkMap.lookup q.1 = none → (fallbackKey p.2).isSome →
          fallbackKey p.2 = fallbackKey q.2 → p.1 = q.1 := by
      decide +kernel
    intro p hp q hq hnone hnone' vk hvk hvk'
    exact hkeys p hp q hq hnone hnone' (Option.isSome_of_mem hvk) (hvk.trans hvk'.symm)

/-- A key whose code is unknown goes down as a digit, and comes up, with shift held, as a sign. -/
def digitThenSign : List (KeyEvent String) :=
  [{ physical := "", key := "1", down := true }, { physical := "", key := "!", down := false }]

/-- The right shift key goes out with the extended bit, and the digit stays held on the agent. -/
theorem simulatesKeyboard_shift :
    ¬ SimulatesKeyboard Host.setOne id {("ShiftRight", "Shift")} ∧
      KeyEvent.held digitThenSign = ∅ ∧
      KeyTarget.virtual 0x31 false ∈ KeyEvent.heldOnAgent id Host.setOne digitThenSign := by
  refine ⟨fun ⟨_, hextended⟩ => ?_, ?_, ?_⟩
  · have hbit := hextended ("ShiftRight", "Shift") rfl (by decide +kernel)
      { wScan := 0x36, dwFlags := KEYEVENTF_SCANCODE ||| KEYEVENTF_EXTENDEDKEY }
      (by decide +kernel)
    revert hbit
    decide +kernel
  · simp [KeyEvent.held, digitThenSign, heldAfter]
  · have hdown : keyTarget Host.setOne.mapVirtualKey "1" "" = some (.virtual 0x31 false) := by
      decide +kernel
    have hup : keyTarget Host.setOne.mapVirtualKey "!" "" = none := by decide +kernel
    rw [heldOnAgent_eq JsonLibrary.lowBits_documented]
    simp [digitThenSign, hdown, hup, heldAfter]

end BrowCast
