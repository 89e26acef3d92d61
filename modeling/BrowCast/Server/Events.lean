import BrowCast.Server.Handlers
import BrowCast.Runs.GuardedMachine

/-! # The relay server as a guarded machine

The events `ws` and the clock feed to the handlers, which of them may fire, and the step each takes:
dispatch to the attached listeners, as `EventEmitter` does. An exception that leaves a listener of
the `'connection'` handler, or an `'error'` event without a listener, ends the process: no event
fires after that. -/

namespace BrowCast

/-- What can happen to the server. -/
inductive Event where
  /-- A WebSocket with this request URL is handed to the `'connection'` handler. -/
  | connect (ws : ConnId) (parsedUrl : ParsedUrl) (now : ℕ)
  /-- A WebSocket is handed to the `'connection'` handler, and `url.parse` throws on its request
  URL. -/
  | unparsable (ws : ConnId)
  /-- A socket moves from OPEN to CLOSING. -/
  | closing (ws : ConnId)
  /-- `'message'`. -/
  | message (ws : ConnId) (message : Message) (now : ℕ)
  /-- `'pong'`. -/
  | pong (ws : ConnId)
  /-- The interval of `setupPingPong` elapses. -/
  | tick (ws : ConnId)
  /-- `'error'`. -/
  | error (ws : ConnId)
  /-- `'close'`. -/
  | close (ws : ConnId)

/-- The socket an event is about. -/
def Event.subject : Event → ConnId
  | .connect ws _ _ | .unparsable ws | .closing ws | .message ws _ _ | .pong ws | .tick ws
  | .error ws | .close ws => ws

/-! ## Dispatch -/

/-- What a listener does on `'message'`. -/
def Listener.onMessage (ws : ConnId) (message : Message) (now : ℕ) : Listener → Handler Unit
  | .agentMessage session => BrowCast.agentMessage ws session message now
  | .viewerMessage session => BrowCast.viewerMessage ws session message now
  | _ => pure ()

/-- What a listener does on `'pong'`. -/
def Listener.onPong (ws : ConnId) : Listener → Handler Unit
  | .heartbeatPong => modify (Server.modifyConn ws fun w => { w with isAlive := true })
  | _ => pure ()

/-- What a listener does on `'error'`. -/
def Listener.onError (ws : ConnId) : Listener → Handler Unit
  | .agentError => BrowCast.agentError
  | .viewerError session viewerId => BrowCast.viewerError ws session viewerId
  | _ => pure ()

/-- What a listener does on `'close'`. -/
def Listener.onClose (ws : ConnId) : Listener → Handler Unit
  | .agentClose sessionId session => BrowCast.agentClose sessionId session
  | .viewerClose sessionId session viewerId => BrowCast.viewerClose ws sessionId session viewerId
  | .heartbeatClose => clearPingInterval ws
  | _ => pure ()

/-- `ws.emit(event, …)`: the attached listeners run in the order they were attached. -/
def emit (ws : ConnId) (run : Listener → Handler Unit) : Handler Unit := do
  let listeners ← readState fun σ => (σ.conn ws).listeners
  forM listeners run

/-- `ws.emit('error', …)`: throws when nobody listens. -/
def emitError (ws : ConnId) : Handler Unit := do
  if ← readState fun σ => (σ.conn ws).hasErrorListener then
    emit ws (Listener.onError ws)
  else
    throw .unhandledError

namespace Server

/-- A new socket: OPEN, with nothing attached. -/
def arrive (ws : ConnId) (parsedUrl : ParsedUrl) (σ : Server) : Server :=
  { σ with
    conn := Function.update σ.conn ws
      { readyState := .OPEN, sessionId := parsedUrl.sessionId.key ws }
    arrivals := ws :: σ.arrivals }

/-- The socket that arrives is OPEN and has the session id of its URL. -/
theorem conn_arrive_self (σ : Server) (ws : ConnId) (parsedUrl : ParsedUrl) :
    (σ.arrive ws parsedUrl).conn ws =
      { readyState := .OPEN, sessionId := parsedUrl.sessionId.key ws } := Function.update_self ..

/-- The socket that arrives is OPEN. -/
theorem readyState_arrive (σ : Server) (ws : ConnId) (parsedUrl : ParsedUrl) :
    ((σ.arrive ws parsedUrl).conn ws).readyState = .OPEN := by rw [conn_arrive_self]

/-- The socket that arrives has no listeners yet. -/
theorem listeners_arrive (σ : Server) (ws : ConnId) (parsedUrl : ParsedUrl) :
    ((σ.arrive ws parsedUrl).conn ws).listeners = [] := by rw [conn_arrive_self]

/-- An arrival leaves the other sockets as they are. -/
theorem conn_arrive_of_ne (σ : Server) {ws c : ConnId} (h : c ≠ ws) (parsedUrl : ParsedUrl) :
    (σ.arrive ws parsedUrl).conn c = σ.conn c := Function.update_of_ne h ..

/-- An arrival leaves the session objects as they are. -/
theorem sessionAt_arrive (σ : Server) (ws : ConnId) (parsedUrl : ParsedUrl) :
    (σ.arrive ws parsedUrl).sessionAt = σ.sessionAt := rfl

/-- The process after a listener returned or threw. -/
def settle : EStateM.Result JsError Server Unit → Server
  | .ok _ σ => σ
  | .error _ σ => { σ with crashed := true }

/-- Which events may fire. Messages, pongs and errors come from sockets that are OPEN or CLOSING, an
error at most once, and the close event from a socket that is CLOSING. -/
def Enabled (σ : Server) (e : Event) : Prop :=
  σ.crashed = false ∧
    match e with
    | .connect ws _ _ | .unparsable ws => ws ∉ σ.arrivals
    | .closing ws => (σ.conn ws).readyState = .OPEN
    | .message ws _ _ | .pong ws => (σ.conn ws).isPending = true
    | .tick ws => (σ.conn ws).pingInterval = true
    | .error ws => (σ.conn ws).isPending = true ∧ (σ.conn ws).errored = false
    | .close ws => (σ.conn ws).readyState = .CLOSING

instance (σ : Server) (e : Event) : Decidable (σ.Enabled e) := by
  unfold Enabled
  cases e <;> infer_instance

/-- The step an event takes. -/
def step (σ : Server) : Event → Server
  | .connect ws parsedUrl now =>
      settle ((onConnection ws (.ok parsedUrl) now).run (σ.arrive ws parsedUrl))
  -- `ERR_INVALID_URL` is a `TypeError`; neither a session id nor the clock is read
  | .unparsable ws =>
      settle ((onConnection ws (.error .typeError) 0).run (σ.arrive ws ⟨none, .absent⟩))
  | .closing ws => σ.modifyConn ws fun w => { w with readyState := .CLOSING }
  | .message ws message now => settle ((emit ws (Listener.onMessage ws message now)).run σ)
  | .pong ws => settle ((emit ws (Listener.onPong ws)).run σ)
  | .tick ws => settle ((pingTick ws).run σ)
  | .error ws =>
      settle ((emitError ws).run (σ.modifyConn ws fun w => { w with errored := true }))
  | .close ws =>
      settle ((emit ws (Listener.onClose ws)).run
        (σ.modifyConn ws fun w => { w with readyState := .CLOSED }))

end Server

/-- The relay server. -/
def relay : GuardedMachine Server Event where
  start := {}
  Enabled := Server.Enabled
  step := Server.step

instance (σ : Server) (e : Event) : Decidable (relay.Enabled σ e) :=
  inferInstanceAs (Decidable (σ.Enabled e))

instance (es : List Event) : Decidable (relay.IsRun es) :=
  inferInstanceAs (Decidable (relay.Steps relay.Enabled relay.start es))

end BrowCast
