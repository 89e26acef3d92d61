import BrowCast.JavaScript.Arithmetic
import BrowCast.Web.Page

/-! # Input events of the viewer

`sendInput`: the listeners of the canvas and of the document hand it their events, and it sends them
on the socket stored in `ws`, the coordinates scaled to pixels of the remote screen. -/

namespace BrowCast

/-- What `JSON.stringify` writes for a number: `null` for NaN and the infinities, `0` for `-0`. -/
def Json.ofNumber : Number → Json
  | .finite s m => .num (if m = 0 then .finite false 0 else .finite s m)
  | .nan | .infinity _ => .null

/-- A finite number is written as the rational it stands for. -/
theorem Json.ofNumber_eq {a : Number} (ha : a.IsFinite) :
    Json.ofNumber a = .num (.ofRat a.toRat) := by
  obtain ⟨s, m, rfl⟩ := ha
  rw [Json.ofNumber]
  by_cases hm : m = 0
  · subst hm
    have hzero : (Number.finite s 0).toRat = 0 := by cases s <;> simp
    rw [if_pos rfl, hzero, Number.ofRat_zero]
  · rw [if_neg hm, Number.ofRat_toRat hm]

end BrowCast

namespace BrowCast.Web

/-! ## Events of the mouse and the keyboard -/

/-- The types of mouse events the canvas listens to, the wheel apart. -/
inductive MouseType where
  | mousemove
  | mousedown
  | mouseup
  | click
  | contextmenu
  deriving DecidableEq

/-- An event of the canvas or of the document. -/
inductive DomEvent where
  | mouse (type : MouseType) (clientX clientY : ℚ) (button : ℕ)
  | wheel (deltaY clientX clientY : ℚ)
  | key (down : Bool) (keyName code : String) (keyCode : ℕ) (ctrlKey shiftKey altKey metaKey : Bool)

namespace DomEvent

/-- The type a listener hands to `sendInput`. -/
def inputType : DomEvent → String
  | .mouse .mousemove _ _ _ => "mousemove"
  | .mouse .mousedown _ _ _ => "mousedown"
  | .mouse .mouseup _ _ _ => "mouseup"
  | .mouse .click _ _ _ => "click"
  | .mouse .contextmenu _ _ _ => "contextmenu"
  | .wheel _ _ _ => "wheel"
  | .key true .. => "keydown"
  | .key false .. => "keyup"

/-- The data a listener hands to `sendInput`. -/
def data : DomEvent → List (String × Json)
  | .mouse .mousemove clientX clientY _ =>
      [("x", .num (.ofRat clientX)), ("y", .num (.ofRat clientY))]
  | .mouse _ clientX clientY button =>
      [("x", .num (.ofRat clientX)), ("y", .num (.ofRat clientY)),
        ("button", .num (.finite false button))]
  | .wheel deltaY clientX clientY =>
      [("deltaY", .num (.ofRat deltaY)), ("x", .num (.ofRat clientX)), ("y", .num (.ofRat clientY))]
  | .key _ keyName code keyCode ctrlKey shiftKey altKey metaKey =>
      [("key", .str keyName), ("code", .str code), ("keyCode", .num (.finite false keyCode)),
        ("ctrlKey", .bool ctrlKey), ("shiftKey", .bool shiftKey), ("altKey", .bool altKey),
        ("metaKey", .bool metaKey)]

/-- The event carries coordinates. -/
def hasCoordinates : DomEvent → Bool
  | .mouse _ _ _ _ | .wheel _ _ _ => true
  | .key .. => false

end DomEvent

/-! ## The letterbox -/

/-- `getBoundingClientRect()` of the canvas. -/
structure DomRect where
  left : ℚ
  top : ℚ
  width : ℚ
  height : ℚ

/-- The size of the image as displayed, and its offset inside the canvas element. -/
structure DisplayedImage where
  displayedImageWidth : Number
  displayedImageHeight : Number
  displayOffsetX : Number
  displayOffsetY : Number

/-- The image fills the canvas element on one axis and is centred on the other. -/
def displayedImage (rect : DomRect) (imageAspectRatio : Number) : DisplayedImage :=
  let width := Number.ofRat rect.width
  let height := Number.ofRat rect.height
  if imageAspectRatio.greater (width.div height) then
    let displayedImageHeight := width.div imageAspectRatio
    ⟨width, displayedImageHeight, .ofRat 0, (height.sub displayedImageHeight).div (.ofRat 2)⟩
  else
    let displayedImageWidth := height.mul imageAspectRatio
    ⟨displayedImageWidth, height, (width.sub displayedImageWidth).div (.ofRat 2), .ofRat 0⟩

/-- A client coordinate, scaled back to the remote screen and clamped: `start` is where the canvas
element starts, `offset` where the displayed image starts in it, `displayed` how long that is. -/
def scaledCoordinate (original displayed offset start client : Number) : Number :=
  let relative := (client.sub start).sub offset
  let scale := original.div displayed
  let scaled := (relative.mul scale).round
  Number.max (.ofRat 0) (Number.min scaled (original.sub (.ofRat 1)))

/-- The scaled coordinates of a client point. -/
def scaledCoordinates (rect : DomRect) (originalWidth originalHeight x y : Number) :
    Number × Number :=
  let shown := displayedImage rect (originalWidth.div originalHeight)
  (scaledCoordinate originalWidth shown.displayedImageWidth shown.displayOffsetX
      (.ofRat rect.left) x,
    scaledCoordinate originalHeight shown.displayedImageHeight shown.displayOffsetY
      (.ofRat rect.top) y)

/-! ## `sendInput` -/

/-- The types whose coordinates are scaled. -/
def isMouseType (inputType : String) : Bool :=
  "mouse".toList.isPrefixOf inputType.toList || inputType = "click" ||
    inputType = "contextmenu" || inputType = "wheel"

/-- `{ ...data }`, with `x` and `y` scaled when both are there. -/
def scaledData (rect : DomRect) (originalWidth originalHeight : Number) (inputType : String)
    (data : List (String × Json)) : Except JsError (List (String × Json)) :=
  if isMouseType inputType then
    match data.lookup "x", data.lookup "y" with
    | some x, some y => do
        let x ← Json.toNumber (some x)
        let y ← Json.toNumber (some y)
        let scaled := scaledCoordinates rect originalWidth originalHeight x y
        return Json.withMember "y" (some (.ofNumber scaled.2))
          (Json.withMember "x" (some (.ofNumber scaled.1)) data)
    | _, _ => .ok data
  else .ok data

/-- `{ type: 'input', inputType, ...data }`. -/
def inputObject (inputType : String) (data : List (String × Json)) : Json :=
  .obj (data.foldl (fun members e => Json.withMember e.1 (some e.2) members)
    [("type", .str "input"), ("inputType", .str inputType)])

namespace Page

variable (p : Page)

/-- The message `sendInput` sends; none when the guard does not let it through. -/
def inputMessage (inputType : String) (data : List (String × Json)) (rect : DomRect) :
    Except JsError (Option Json) := do
  if p.wsState ≠ some .open then return none
  let originalWidth ← Json.toNumber p.originalWidth
  if !originalWidth.greater (.ofRat 0) then return none
  let originalHeight ← Json.toNumber p.originalHeight
  if !originalHeight.greater (.ofRat 0) then return none
  let data ← scaledData rect originalWidth originalHeight inputType data
  return some (inputObject inputType data)

/-- `sendInput`; an exception ends the listener. -/
def sendInput (inputType : String) (data : List (String × Json)) (rect : DomRect) : Page :=
  match p.inputMessage inputType data rect with
  | .ok (some message) => p.send message
  | _ => p

end Page

/-! ## What is sent -/

namespace DomEvent

/-- Where the event happened; events of keys have no place. -/
def client : DomEvent → ℚ × ℚ
  | .mouse _ clientX clientY _ | .wheel _ clientX clientY => (clientX, clientY)
  | .key .. => (0, 0)

/-- The data with other coordinates. -/
def dataAt (x y : Json) : DomEvent → List (String × Json)
  | .mouse .mousemove _ _ _ => [("x", x), ("y", y)]
  | .mouse _ _ _ button => [("x", x), ("y", y), ("button", .num (.finite false button))]
  | .wheel deltaY _ _ => [("deltaY", .num (.ofRat deltaY)), ("x", x), ("y", y)]
  | .key down keyName code keyCode ctrlKey shiftKey altKey metaKey =>
      data (.key down keyName code keyCode ctrlKey shiftKey altKey metaKey)

/-- The scaled coordinates of the event. -/
def scaled (event : DomEvent) (rect : DomRect) (originalWidth originalHeight : Number) :
    Number × Number :=
  scaledCoordinates rect originalWidth originalHeight (.ofRat event.client.1)
    (.ofRat event.client.2)

variable (event : DomEvent) (rect : DomRect) (width height : Number)

/-- The coordinates of an event of the mouse are scaled. -/
theorem isMouseType_inputType : isMouseType event.inputType = event.hasCoordinates := by
  cases event with
  | mouse type clientX clientY button =>
      cases type <;> simp only [inputType, hasCoordinates] <;> decide
  | wheel deltaY clientX clientY =>
      simp only [inputType, hasCoordinates]
      decide
  | key down keyName code keyCode ctrlKey shiftKey altKey metaKey =>
      cases down <;> simp only [inputType, hasCoordinates] <;> decide

/-- Scaling replaces the coordinates, if there are any. -/
theorem scaledData_data : scaledData rect width height event.inputType event.data =
    .ok (event.dataAt (.ofNumber (event.scaled rect width height).1)
      (.ofNumber (event.scaled rect width height).2)) := by
  rw [scaledData, isMouseType_inputType]
  cases event with
  | mouse type clientX clientY button =>
      cases type <;>
        simp [hasCoordinates, data, List.lookup_cons, Json.toNumber_num, dataAt, scaled, client,
          Json.withMember, bind, Except.bind, pure, Except.pure]
  | wheel deltaY clientX clientY =>
      simp [hasCoordinates, data, List.lookup_cons, Json.toNumber_num, dataAt, scaled, client,
        Json.withMember, bind, Except.bind, pure, Except.pure]
  | key down keyName code keyCode ctrlKey shiftKey altKey metaKey => rfl

/-- What `sendInput` sends for the event. -/
def object : Json :=
  inputObject event.inputType (event.dataAt (.ofNumber (event.scaled rect width height).1)
    (.ofNumber (event.scaled rect width height).2))

/-- The coordinates are members of the data, if the event has a place. -/
theorem lookup_dataAt (x y : Json) :
    (event.dataAt x y).lookup "x" = (if event.hasCoordinates then some x else none) ∧
      (event.dataAt x y).lookup "y" = if event.hasCoordinates then some y else none := by
  cases event with
  | mouse type clientX clientY button => cases type <;> exact ⟨rfl, rfl⟩
  | wheel deltaY clientX clientY => exact ⟨rfl, rfl⟩
  | key down keyName code keyCode ctrlKey shiftKey altKey metaKey => exact ⟨rfl, rfl⟩

/-- The members of the message for an event. -/
theorem member_object (key : String) : (event.object rect width height).member key =
    if key = "type" then some (.str "input")
    else if key = "inputType" then some (.str event.inputType)
    else (event.dataAt (.ofNumber (event.scaled rect width height).1)
      (.ofNumber (event.scaled rect width height).2)).lookup key := by
  cases event with
  | mouse type clientX clientY button =>
      cases type <;>
        simp [object, inputObject, dataAt, Json.member, Json.withMember, Json.lookup_cons_eq_ite]
  | wheel deltaY clientX clientY =>
      simp [object, inputObject, dataAt, Json.member, Json.withMember, Json.lookup_cons_eq_ite]
  | key down keyName code keyCode ctrlKey shiftKey altKey metaKey =>
      simp [object, inputObject, dataAt, data, Json.member, Json.withMember,
        Json.lookup_cons_eq_ite]

/-- What is sent has scaled coordinates, if the event has a place. -/
theorem member_coordinates :
    (event.object rect width height).member "x" =
        (if event.hasCoordinates then some (.ofNumber (event.scaled rect width height).1)
          else none) ∧
      (event.object rect width height).member "y" =
        if event.hasCoordinates then some (.ofNumber (event.scaled rect width height).2)
          else none := by
  obtain ⟨hx, hy⟩ := event.lookup_dataAt (.ofNumber (event.scaled rect width height).1)
    (.ofNumber (event.scaled rect width height).2)
  rw [member_object, member_object]
  exact ⟨hx, hy⟩

end DomEvent

namespace Page

variable {p : Page}

/-- `sendInput` lets events through, and takes the remote screen for `width` by `height` pixels. -/
structure Accepts (p : Page) (width height : Number) : Prop where
  isOpen : p.wsState = some .open
  originalWidth : Json.toNumber p.originalWidth = .ok width
  width_pos : width.greater (.ofRat 0) = true
  originalHeight : Json.toNumber p.originalHeight = .ok height
  height_pos : height.greater (.ofRat 0) = true

/-- Events that are let through are sent. -/
theorem Accepts.inputMessage {width height : Number} (h : p.Accepts width height)
    (event : DomEvent) (rect : DomRect) :
    p.inputMessage event.inputType event.data rect =
      .ok (some (event.object rect width height)) := by
  simp [Page.inputMessage, h.isOpen, h.originalWidth, h.width_pos, h.originalHeight, h.height_pos,
    bind, Except.bind, pure, Except.pure, DomEvent.scaledData_data, DomEvent.object]

/-- What is sent was let through. -/
theorem exists_accepts {inputType : String} {data : List (String × Json)} {rect : DomRect}
    {message : Json} (h : p.inputMessage inputType data rect = .ok (some message)) :
    ∃ width height, p.Accepts width height := by
  unfold inputMessage at h
  by_cases hopen : p.wsState = some .open
  · cases hwidth : Json.toNumber p.originalWidth with
    | error e => simp [hopen, hwidth, bind, Except.bind] at h
    | ok width =>
        cases hwidth_pos : width.greater (.ofRat 0) with
        | false => simp [hopen, hwidth, hwidth_pos, bind, Except.bind, pure, Except.pure] at h
        | true =>
            cases hheight : Json.toNumber p.originalHeight with
            | error e => simp [hopen, hwidth, hwidth_pos, hheight, bind, Except.bind] at h
            | ok height =>
                refine ⟨width, height, hopen, hwidth, hwidth_pos, hheight, ?_⟩
                cases hheight_pos : height.greater (.ofRat 0) with
                | false =>
                    simp [hopen, hwidth, hwidth_pos, hheight, hheight_pos, bind, Except.bind, pure,
                      Except.pure] at h
                | true => rfl
  · simp [hopen, pure, Except.pure] at h

end Page

example : scaledCoordinates ⟨10, 20, 400, 400⟩ (.ofRat 800) (.ofRat 400) (.ofRat 110) (.ofRat 200) =
    (.ofRat 200, .ofRat 160) := by decide +kernel

end BrowCast.Web
