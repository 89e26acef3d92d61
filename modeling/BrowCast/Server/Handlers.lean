import BrowCast.Server.State
import BrowCast.Runs.Effects

/-! # The handlers of the relay server

`Server/index.js`, function by function. A handler is a computation on the server process that may
throw (`Handler`); console output is left out, except that the templates which convert client data
are evaluated for the exceptions they can raise. -/

namespace BrowCast

/-- Code of the server process: it changes the process state and may throw. -/
abbrev Handler := EStateM JsError Server

/-! ## The WebSocket interface -/

/-- `ws.on(event, listener)`. -/
def on (ws : ConnId) (listener : Listener) : Handler Unit :=
  modify (Server.modifyConn ws fun w => { w with listeners := w.listeners ++ [listener] })

/-- `ws.send(data)`. -/
def send (ws : ConnId) (data : Outgoing) : Handler Unit := modify (Server.send ws data)

/-- `ws.close(code, reason)` on an OPEN socket: the socket is CLOSING when the close frame is built,
and a reason of more than 123 bytes throws there. Other sockets are left alone. -/
def closeSocket (ws : ConnId) (code : ℕ) (reason : String) : Handler Unit := do
  if (← readState fun σ => (σ.conn ws).readyState) = .OPEN then
    modify (Server.modifyConn ws fun w => { w with readyState := .CLOSING })
    if 123 < reason.utf8ByteSize then
      throw .rangeError
    else
      modify (Server.modifyConn ws fun w => { w with sent := w.sent ++ [.close code reason] })

/-- `session.viewers.forEach(…)`, with `ws.send(data)` for every OPEN viewer. -/
def sendToViewers (session : SessionRef) (data : Server → Outgoing) : Handler Unit := do
  let viewers ← readState fun σ => (σ.sessionAt session).viewers.values
  forM viewers fun viewerWs => do
    if (← readState fun σ => (σ.conn viewerWs).readyState) = .OPEN then
      send viewerWs (← readState data)

/-! ## Scales -/

/-- `calculateOptimalScale`, the second of the two declarations of that name: it is the one the name
is bound to when the handlers run. -/
def calculateOptimalScale (agentScreen : AgentScreen) (viewerScreen : Option Json) :
    Except JsError Number := do
  let windowWidth ← Json.toNumber (← Json.property "windowWidth" viewerScreen)
  let width ← Json.toNumber agentScreen.width
  let scaleX := (windowWidth.mul (.ofMagnitude (9 / 10))).div width
  let windowHeight ← Json.toNumber (← Json.property "windowHeight" viewerScreen)
  let height ← Json.toNumber agentScreen.height
  let scaleY := (windowHeight.mul (.ofMagnitude (9 / 10))).div height
  let scale := Number.min scaleX scaleY
  return Number.max (.ofMagnitude (1 / 10)) (Number.min scale (.ofMagnitude 2))

/-! ## Keeping connections alive -/

/-- `setupPingPong`, up to its interval callback. -/
def setupPingPong (ws : ConnId) : Handler Unit := do
  modify (Server.modifyConn ws fun w => { w with isAlive := true, pingInterval := true })
  on ws .heartbeatPong
  on ws .heartbeatClose

/-- `clearInterval(pingInterval)`. -/
def clearPingInterval (ws : ConnId) : Handler Unit :=
  modify (Server.modifyConn ws fun w => { w with pingInterval := false })

/-- The interval callback of `setupPingPong`. -/
def pingTick (ws : ConnId) : Handler Unit := do
  if (← readState fun σ => (σ.conn ws).readyState) = .OPEN then
    if ← readState fun σ => (σ.conn ws).isAlive then
      modify (Server.modifyConn ws fun w => { w with isAlive := false })
      send ws .ping
    else
      -- `ws.terminate()`
      modify (Server.modifyConn ws fun w => { w with readyState := .CLOSING })
      clearPingInterval ws
  else
    clearPingInterval ws

/-! ## Sessions -/

/-- `cleanupSessionIfEmpty`. -/
def cleanupSessionIfEmpty (sessionId : SessionId) : Handler Unit := do
  match ← readState fun σ => σ.sessions.get? sessionId with
  | none => return
  | some session =>
      if ← readState fun σ =>
          (σ.sessionAt session).agent.isNone && (σ.sessionAt session).viewers.size == 0 then
        modify fun σ => { σ with sessions := σ.sessions.delete sessionId }

/-- `session.lastActivity = new Date().toISOString()`. -/
def touch (session : SessionRef) (now : ℕ) : Handler Unit :=
  modify (Server.modifySession session fun s => { s with lastActivity := now })

/-! ## Agent connections -/

/-- The object a `screen_info` message stores. -/
def screenOf (msg : Json) : AgentScreen where
  width := msg.member "width"
  height := msg.member "height"
  dpi := Json.orElse (msg.member "dpi") (.num (.ofMagnitude 96))

/-- The loop of the `screen_info` branch over `session.clientScreens`. -/
def updateClientScales (session : SessionRef) (agentScreen : AgentScreen) : Handler Unit := do
  let clientScreens ← readState fun σ => (σ.sessionAt session).clientScreens.entries
  forM clientScreens fun entry => do
    if (← readState fun σ => (σ.conn entry.1).readyState) = .OPEN then
      let scale ← orThrow (calculateOptimalScale agentScreen entry.2)
      send entry.1 (.setScale scale agentScreen.width agentScreen.height)

/-- The `screen_info` branch of the agent's message handler. -/
def onScreenInfo (session : SessionRef) (msg : Json) : Handler Unit := do
  let agentScreen := screenOf msg
  -- the screen is stored before anything is read from it that may throw
  modify (Server.modifySession session fun s => { s with agentScreen := some agentScreen })
  orThrow (Json.toText (msg.member "width"))
  orThrow (Json.toText (msg.member "height"))
  orThrow (Json.toText agentScreen.dpi)
  updateClientScales session agentScreen

/-- `{ ...msg, originalWidth: session.agentScreen?.width, originalHeight: … }` as it is written. -/
def forwardCopy (msg : Json) (agentScreen : Option AgentScreen) : List (String × Json) :=
  Json.withMember "originalHeight" (agentScreen.bind AgentScreen.height)
    (Json.withMember "originalWidth" (agentScreen.bind AgentScreen.width) (Json.spread msg))

/-- `JSON.parse(message.toString())`. -/
def Message.parse (message : Message) : Except JsError Json :=
  match message.json with
  | some msg => .ok msg
  | none => .error .syntaxError

/-- The `try` block of the agent's message handler. -/
def agentMessageBody (ws : ConnId) (session : SessionRef) (message : Message) : Handler Unit := do
  let msg ← orThrow message.parse
  if Json.isText "screen_info" (← orThrow (Json.property "type" (some msg))) then
    onScreenInfo session msg
  sendToViewers session fun σ =>
    .forward ws (forwardCopy msg (σ.sessionAt session).agentScreen)

/-- The agent's message handler. -/
def agentMessage (ws : ConnId) (session : SessionRef) (message : Message) (now : ℕ) :
    Handler Unit := do
  touch session now
  swallow (agentMessageBody ws session message)

/-- The agent's close handler. -/
def agentClose (sessionId : SessionId) (session : SessionRef) : Handler Unit := do
  -- whoever is in the slot, also when that is the successor of the agent that closes
  modify (Server.modifySession session fun s => { s with agent := none })
  modify (Server.count fun n => { n with
    agentConnections := n.agentConnections - 1, activeConnections := n.activeConnections - 1 })
  sendToViewers session fun _ => .agentStatus false
  cleanupSessionIfEmpty sessionId

/-- The agent's error handler. -/
def agentError : Handler Unit :=
  modify (Server.count fun n => { n with
    activeConnections := n.activeConnections - 1, agentConnections := n.agentConnections - 1 })

/-- `handleAgentConnection`. -/
def handleAgentConnection (ws : ConnId) (sessionId : SessionId) (session : SessionRef) :
    Handler Unit := do
  if ← readState fun σ => σ.agentOpen session then
    closeSocket ws 1008 ("Agent already connected for session " ++ sessionId.toText)
    modify (Server.count fun n => { n with activeConnections := n.activeConnections - 1 })
  else
    -- an agent that is CLOSING is replaced, with its close event still to come
    modify (Server.modifySession session fun s => { s with agent := some ws })
    modify (Server.count fun n => { n with agentConnections := n.agentConnections + 1 })
    sendToViewers session fun _ => .agentStatus true
    on ws (.agentMessage session)
    on ws (.agentClose sessionId session)
    on ws .agentError
    setupPingPong ws

/-! ## Viewer connections -/

/-- The `client_info` branch of the viewer's message handler. -/
def onClientInfo (ws : ConnId) (session : SessionRef) (msg : Json) : Handler Unit := do
  let screen := msg.member "screen"
  modify (Server.modifyConn ws fun w => { w with
    viewerInfo := w.viewerInfo.map fun info => { info with screenInfo := screen } })
  modify (Server.modifySession session fun s => { s with
    clientScreens := s.clientScreens.set ws screen })
  -- from here on `msg.screen.width` and its like may throw, with the screen stored
  orThrow (Json.toText (← orThrow (Json.property "width" screen)))
  orThrow (Json.toText (← orThrow (Json.property "height" screen)))
  orThrow (Json.toText
    (Json.orElse (← orThrow (Json.property "devicePixelRatio" screen)) (.num (.ofMagnitude 1))))
  match ← readState fun σ => (σ.sessionAt session).agentScreen with
  | none => return
  | some agentScreen =>
      let scale ← orThrow (calculateOptimalScale agentScreen screen)
      send ws (.setScale scale agentScreen.width agentScreen.height)

/-- The forwarding branch of the viewer's message handler. -/
def forwardInput (ws : ConnId) (session : SessionRef) (message : Message) : Handler Unit := do
  match ← readState fun σ => (σ.sessionAt session).agent with
  | none => return
  | some agent =>
      if (← readState fun σ => (σ.conn agent).readyState) = .OPEN then
        send agent (.input ws message)

/-- The `try` block of the viewer's message handler. -/
def viewerMessageBody (ws : ConnId) (session : SessionRef) (message : Message) : Handler Unit := do
  let msg ← orThrow message.parse
  if Json.isText "client_info" (← orThrow (Json.property "type" (some msg))) then
    onClientInfo ws session msg
  else
    forwardInput ws session message

/-- The viewer's message handler. -/
def viewerMessage (ws : ConnId) (session : SessionRef) (message : Message) (now : ℕ) :
    Handler Unit := do
  touch session now
  swallow (viewerMessageBody ws session message)

/-- The viewer's close handler. -/
def viewerClose (ws : ConnId) (sessionId : SessionId) (session : SessionRef) (viewerId : String) :
    Handler Unit := do
  modify (Server.modifySession session fun s => { s with
    viewers := s.viewers.delete viewerId, clientScreens := s.clientScreens.delete ws })
  modify (Server.count fun n => { n with
    viewerConnections := n.viewerConnections - 1, activeConnections := n.activeConnections - 1 })
  cleanupSessionIfEmpty sessionId

/-- The viewer's error handler. -/
def viewerError (ws : ConnId) (session : SessionRef) (viewerId : String) : Handler Unit := do
  modify (Server.modifySession session fun s => { s with
    viewers := s.viewers.delete viewerId, clientScreens := s.clientScreens.delete ws })
  modify (Server.count fun n => { n with
    activeConnections := n.activeConnections - 1, viewerConnections := n.viewerConnections - 1 })

/-- `handleViewerConnection`, at the clock reading `now`. -/
def handleViewerConnection (ws : ConnId) (sessionId : SessionId) (session : SessionRef) (now : ℕ) :
    Handler Unit := do
  -- the clock is the only source of the id: two viewers of one millisecond share it
  let viewerId := toString now
  modify (Server.modifyConn ws fun w => { w with
    viewerInfo := some { id := viewerId, screenInfo := some .null } })
  modify (Server.modifySession session fun s => { s with viewers := s.viewers.set viewerId ws })
  modify (Server.count fun n => { n with viewerConnections := n.viewerConnections + 1 })
  on ws (.viewerMessage session)
  if ← readState fun σ => σ.agentOpen session then
    send ws (.agentStatus true)
  else
    send ws (.agentStatus false)
  on ws (.viewerClose sessionId session viewerId)
  on ws (.viewerError session viewerId)
  setupPingPong ws

/-! ## New connections -/

/-- `${path}`. -/
def pathText : Option String → String
  | some path => path
  | none => "null"

/-- `sessions.set(sessionId, { … })`, creating the session object `ws`. -/
def createSession (ws : ConnId) (sessionId : SessionId) (now : ℕ) : Handler Unit := do
  modify (Server.modifySession ws fun _ => { createdAt := now, lastActivity := now })
  modify fun σ => { σ with sessions := σ.sessions.set sessionId ws }

/-- The listener of `wss.on('connection', …)`, at the clock reading `now`. `url.parse(req.url,
true)` gives `parsedUrl` or throws. -/
def onConnection (ws : ConnId) (parsedUrl : Except JsError ParsedUrl) (now : ℕ) :
    Handler Unit := do
  modify (Server.count fun n => { n with
    totalConnections := n.totalConnections + 1, activeConnections := n.activeConnections + 1 })
  -- the connection is counted before its URL is looked at
  let parsedUrl ← orThrow parsedUrl
  match parsedUrl.sessionId.key ws with
  | none =>
      -- no listener is attached here, nor on the other ways out that close the socket
      closeSocket ws 1008 "Connection attempt without sessionId. Closing connection."
      modify (Server.count fun n => { n with activeConnections := n.activeConnections - 1 })
  | some sessionId =>
      -- the session is there before the path is looked at, and stays when the path is unknown
      if !(← readState fun σ => σ.sessions.has sessionId) then
        createSession ws sessionId now
      match ← readState fun σ => σ.sessions.get? sessionId with
      -- `session.lastActivity = …` on `undefined`; never taken, the id was just set
      | none => throw .typeError
      | some session =>
          touch session now
          if parsedUrl.pathname = some "/agent" then
            handleAgentConnection ws sessionId session
          else if parsedUrl.pathname = some "/viewer" then
            handleViewerConnection ws sessionId session now
          else
            closeSocket ws 1000 ("Unknown connection path: " ++ pathText parsedUrl.pathname)
            modify (Server.count fun n => { n with activeConnections := n.activeConnections - 1 })

end BrowCast
