import BrowCast.JavaScript.JsonValue
import BrowCast.Server.State

/-! # The viewer's page

The page of `Web/script.js`: the sockets it has created, the global `ws`, the dimensions of the
remote screen, and what is displayed. All handlers of all sockets work on this one state.

The page keeps a record of what has happened: which images were drawn, what was sent on which
socket, and whether the connection was closed after the last socket was created. No handler reads
it. -/

namespace BrowCast.Web

/-! ## Sockets -/

/-- `readyState` of a WebSocket. -/
inductive ReadyState where
  | connecting
  | open
  | closing
  | closed
  deriving DecidableEq

/-- A socket is named by its place in the order of creation. -/
abbrev SocketId := ℕ

/-- A WebSocket, with what its handlers have captured. -/
structure Socket where
  url : String
  sessionId : String
  serverIp : String
  readyState : ReadyState := .connecting
  /-- The close event has been fired. -/
  closeFired : Bool := false

/-! ## What is displayed -/

/-- The text colour of the status message. -/
inductive TextClass where
  | success
  | danger
  | warning
  | muted
  deriving DecidableEq

/-- The status message. -/
structure Status where
  text : String
  textClass : TextClass
  deriving DecidableEq

/-- What the user sees of the connection: the status message, the overlay, the buttons, and the
dialog that asks for an address. -/
@[ext]
structure Display where
  status : Status
  overlayHidden : Bool
  controlsHidden : Bool
  dialogShown : Bool
  dialogStatus : String
  deriving DecidableEq

/-- An image whose loading was started for a frame. -/
structure Image where
  /-- `message.image`. -/
  src : Option Json
  /-- `message.width` and `message.height`. -/
  width : Option Json
  height : Option Json
  /-- The socket the frame came on, and its place among all frames. -/
  socket : SocketId
  number : ℕ
  /-- The frame came after the connection was closed. -/
  late : Bool

/-- What the canvas shows. -/
inductive Picture where
  | waiting
  | disconnected
  | image (img : Image)

/-- The canvas: the size of its drawing buffer, what was last drawn, and how often it was drawn
on. -/
structure Canvas where
  width : ℕ := 800
  height : ℕ := 600
  picture : Picture := .waiting
  paints : ℕ := 0

/-! ## The page -/

/-- The state of the page. -/
structure Page where
  /-- `window.location.protocol === 'https:'`. -/
  https : Bool
  sockets : List Socket := []
  ws : Option SocketId := none
  originalWidth : Option Json := some (.num (.finite false 0))
  originalHeight : Option Json := some (.num (.finite false 0))
  canvas : Canvas := {}
  display : Display := {
    status := ⟨"Disconnected. Enter a session ID and click Connect.", .muted⟩
    overlayHidden := true
    controlsHidden := true
    dialogShown := false
    dialogStatus := "" }
  /-- The images that are loading, oldest first. -/
  images : List Image := []
  /-- What was sent, and on which socket. -/
  sent : List (SocketId × Json) := []
  /-- The images of all frames that have come, oldest first. -/
  received : List Image := []
  /-- The images drawn so far, the last one first. -/
  drawn : List Image := []
  /-- The connection was closed, and no socket created since. -/
  disconnected : Bool := false

namespace Page

variable (p : Page)

/-- `readyState` of a socket. -/
def readyState (i : SocketId) : Option ReadyState := p.sockets[i]?.map (·.readyState)

/-- `readyState` of the socket stored in `ws`. -/
def wsState : Option ReadyState := p.ws.bind p.readyState

/-- Change a socket. -/
def modifySocket (i : SocketId) (f : Socket → Socket) : Page :=
  { p with sockets := p.sockets.modify i f }

/-- Set the state of a socket. -/
def setReadyState (i : SocketId) (r : ReadyState) : Page :=
  p.modifySocket i fun socket => { socket with readyState := r }

/-- `updateStatus`: types other than the three listed get the muted colour. -/
def updateStatus (message : String) (type : String := "info") : Page :=
  let textClass : TextClass :=
    if type = "success" then .success
    else if type = "error" then .danger
    else if type = "warning" then .warning
    else .muted
  { p with display := { p.display with status := ⟨message, textClass⟩ } }

/-- Hides or shows `overlay`. -/
def setOverlay (hidden : Bool) : Page :=
  { p with display := { p.display with overlayHidden := hidden } }

/-- Hides or shows the controls. -/
def setControls (hidden : Bool) : Page :=
  { p with display := { p.display with controlsHidden := hidden } }

/-- `if (ws && ws.readyState === WebSocket.OPEN) ws.close()`. -/
def closeIfOpen : Page :=
  match p.ws with
  | none => p
  | some i => if p.readyState i = some .open then p.setReadyState i .closing else p

/-- `ws.send`: on an open socket. A socket that is connecting throws, one that is closing or closed
drops the data. -/
def send (message : Json) : Page :=
  match p.ws with
  | none => p
  | some i => if p.readyState i = some .open then { p with sent := p.sent ++ [(i, message)] } else p

/-- Draw on the canvas, after setting its size. -/
def paint (width height : ℕ) (picture : Picture) : Page :=
  { p with canvas := ⟨width, height, picture, p.canvas.paints + 1⟩ }

/-- `showIpInputDialog`. -/
def showIpInputDialog : Page :=
  { p with display := { p.display with dialogShown := true, dialogStatus := "" } }

/-- The text of the dialog's status. -/
def setDialogStatus (text : String) : Page :=
  { p with display := { p.display with dialogStatus := text } }

/-- Hides the dialog. -/
def hideDialog : Page := { p with display := { p.display with dialogShown := false } }

/-- `closeConnection`. -/
def closeConnection : Page :=
  let p := ((p.closeIfOpen.setControls true).setOverlay true).updateStatus "Disconnected" "info"
  { p.paint 800 600 .disconnected with disconnected := true }

/-- `value.trim()`. -/
def trim (text : String) : String := String.ofList (Number.trim text.toList)

/-- The URL of the viewer endpoint. -/
def wsUrl (https : Bool) (serverIp sessionId : String) : String :=
  (if https then "wss:" else "ws:") ++ "//" ++ serverIp ++ ":8080/viewer?sessionId=" ++ sessionId

/-- `connectWebSocket`, with the text of the session id field. `accepted` says that the browser
accepts the URL; else the constructor throws. -/
def connectWebSocket (serverIp sessionIdInput : String) (accepted : Bool) : Page :=
  let sessionId := trim sessionIdInput
  if sessionId = "" then p.updateStatus "Please enter a session ID." "warning"
  else
    let p := (p.closeIfOpen.setOverlay false).updateStatus "Connecting..." "info"
    if accepted then
      { p with
        sockets := p.sockets ++ [⟨wsUrl p.https serverIp sessionId, sessionId, serverIp,
          .connecting, false⟩]
        ws := some p.sockets.length
        disconnected := false }
    else p

/-- The click on the button of the dialog, with the text of its field. When the constructor throws,
the dialog stays. -/
def dialogConnect (ipInput sessionIdInput : String) (accepted : Bool) : Page :=
  let ip := trim ipInput
  if ip = "" then p.setDialogStatus "IP address cannot be empty."
  else
    let connected := (p.setDialogStatus "").connectWebSocket ip sessionIdInput accepted
    if accepted ∨ trim sessionIdInput = "" then connected.hideDialog else connected

/-! ## The handlers of a socket -/

/-- `ws.onopen`, of a socket created for this session. -/
def onopen (sessionId : String) : Page :=
  let p := ((p.updateStatus "Connected!" "success").setOverlay true).setControls false
  p.send (.obj [("type", .str "viewer_ready"), ("sessionId", .str sessionId)])

/-- What a message of the server is. -/
inductive Received where
  /-- A frame, with its `image`, `width` and `height`. -/
  | frame (src width height : Option Json)
  | agentStatus (connected : Bool)
  | unknown

/-- Read a message. Setting `img.src` throws when the image has no text. -/
def readMessage (message : Message) : Except JsError Received := do
  let message ← match message.json with
    | some v => .ok v
    | none => .error .syntaxError
  let type ← Json.property "type" (some message)
  if Json.isText "frame" type && Json.truthy (message.member "image") then do
    Json.toText (message.member "image")
    return .frame (message.member "image") (message.member "width") (message.member "height")
  else if Json.isText "agent_status" type then
    return .agentStatus (Json.truthy (message.member "connected"))
  else
    return .unknown

/-- `ws.onmessage`, of the socket `i`. -/
def onmessage (i : SocketId) (message : Message) : Page :=
  match readMessage message with
  | .error _ => p.updateStatus "Error receiving data." "danger"
  | .ok (.frame src width height) =>
      let img : Image := ⟨src, width, height, i, p.received.length, p.disconnected⟩
      { p with images := p.images ++ [img], received := p.received ++ [img] }
  | .ok (.agentStatus true) => p.updateStatus "Agent Connected" "success"
  | .ok (.agentStatus false) => p.updateStatus "Agent Disconnected" "warning"
  | .ok .unknown => p

/-- `img.onload`, for an image that turns out to be `width` by `height` pixels. -/
def onload (img : Image) (width height : ℕ) : Page :=
  { p.paint width height (.image img) with
    originalWidth := img.width
    originalHeight := img.height
    drawn := img :: p.drawn }

/-- `ws.onerror`, of a socket for the address `serverIp`. -/
def onerror (serverIp : String) : Page :=
  let p := p.updateStatus "Connection Error. Check server status or session ID." "danger"
  let p := p.setOverlay true
  if serverIp = "localhost" then p.showIpInputDialog else p

end Page

end BrowCast.Web
