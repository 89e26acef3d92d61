import BrowCast.JavaScript.InsertionMap
import BrowCast.JavaScript.JsonValue
import Mathlib.Logic.Function.Basic

/-! # The state of the relay server

The data of `Server/index.js`: the `sessions` map and the session objects it points to, the
connection counters, and the WebSockets with everything the handlers attach to them. Session objects
live in a store of their own, since handlers keep a reference to the object after the map has
forgotten the id.

Two names are chosen by the environment: a `ConnId` for every WebSocket handed to the `'connection'`
handler, and with it the identity of the session object that handler may create (`SessionRef`). -/

namespace BrowCast

/-- A WebSocket handed to the `'connection'` handler. -/
abbrev ConnId := ℕ

/-- A session object, named by the connection whose handler created it. -/
abbrev SessionRef := ConnId

/-- `ws.readyState`. -/
inductive ReadyState where
  | CONNECTING
  | OPEN
  | CLOSING
  | CLOSED
  deriving DecidableEq

/-- A value of `parsedUrl.query`: missing, given once, or given several times. -/
inductive QueryValue where
  | absent
  | one (s : String)
  | many (ss : List String)
  deriving DecidableEq

/-- What the handler reads of `url.parse(req.url, true)`. -/
structure ParsedUrl where
  /-- `pathname`, which may be `null`. -/
  pathname : Option String
  /-- `query.sessionId`. -/
  sessionId : QueryValue
  deriving DecidableEq

/-- A key of the `sessions` map. A repeated query parameter makes the key an array, and arrays are
compared by identity: each request has its own. -/
inductive SessionId where
  | text (s : String)
  | array (owner : ConnId) (ss : List String)
  deriving DecidableEq

/-- The key a truthy `sessionId` value is; `none` when `!sessionId`. -/
def QueryValue.key (ws : ConnId) : QueryValue → Option SessionId
  | .absent => none
  | .one s => if s = "" then none else some (.text s)
  | .many ss => some (.array ws ss)

/-- `${sessionId}`. -/
def SessionId.toText : SessionId → String
  | .text s => s
  | .array _ ss => ",".intercalate ss

/-- A received frame: its text, and what `JSON.parse` makes of it (`none` for a `SyntaxError`). -/
structure Message where
  data : String
  json : Option Json

/-- What a handler hands to `ws.send`, `ws.ping` or `ws.close`. The sender of a relayed message is
recorded next to it; it is not part of the frame. -/
inductive Outgoing where
  /-- `{ type: 'agent_status', connected }`. -/
  | agentStatus (connected : Bool)
  /-- `{ type: 'set_scale', scale, originalWidth, originalHeight }`. -/
  | setScale (scale : Number) (originalWidth originalHeight : Option Json)
  /-- `{ ...msg, originalWidth, originalHeight }`, for a message of the agent `source`. -/
  | forward (source : ConnId) (members : List (String × Json))
  /-- The frame of the viewer `source`, as it came. -/
  | input (source : ConnId) (message : Message)
  /-- A ping frame. -/
  | ping
  /-- A close frame. -/
  | close (code : ℕ) (reason : String)

/-- `session.agentScreen`. -/
structure AgentScreen where
  width : Option Json
  height : Option Json
  dpi : Option Json

/-- A session object. `viewers` maps a viewer id to the connection its `viewerInfo` holds. -/
structure Session where
  agent : Option ConnId := none
  viewers : InsertionMap String ConnId := .empty
  agentScreen : Option AgentScreen := none
  clientScreens : InsertionMap ConnId (Option Json) := .empty
  createdAt : ℕ := 0
  lastActivity : ℕ := 0

/-- A listener the server attaches to a WebSocket, with the variables its closure captures. -/
inductive Listener where
  /-- `ws.on('message', …)` in `handleAgentConnection`. -/
  | agentMessage (session : SessionRef)
  /-- `ws.on('close', …)` in `handleAgentConnection`. -/
  | agentClose (sessionId : SessionId) (session : SessionRef)
  /-- `ws.on('error', …)` in `handleAgentConnection`. -/
  | agentError
  /-- `ws.on('message', …)` in `handleViewerConnection`. -/
  | viewerMessage (session : SessionRef)
  /-- `ws.on('close', …)` in `handleViewerConnection`. -/
  | viewerClose (sessionId : SessionId) (session : SessionRef) (viewerId : String)
  /-- `ws.on('error', …)` in `handleViewerConnection`. -/
  | viewerError (session : SessionRef) (viewerId : String)
  /-- `ws.on('pong', …)` in `setupPingPong`. -/
  | heartbeatPong
  /-- `ws.on('close', …)` in `setupPingPong`. -/
  | heartbeatClose
  deriving DecidableEq

/-- The listener is one for `'error'` events. -/
def Listener.isError : Listener → Bool
  | .agentError | .viewerError _ _ => true
  | _ => false

/-- The `viewerInfo` object of a viewer connection; its `ws` is the connection itself. -/
structure ViewerInfo where
  id : String
  screenInfo : Option Json

/-- A WebSocket. The fields `sessionId` and `errored` record its past for the statements below; no
handler reads them. -/
structure Conn where
  readyState : ReadyState := .CONNECTING
  /-- The session id it arrived with, when that is truthy. -/
  sessionId : Option SessionId := none
  listeners : List Listener := []
  viewerInfo : Option ViewerInfo := none
  /-- `isAlive` of `setupPingPong`. -/
  isAlive : Bool := true
  /-- The interval of `setupPingPong` is running. -/
  pingInterval : Bool := false
  /-- Its `'error'` event has fired. -/
  errored : Bool := false
  /-- Everything sent on it, oldest first. -/
  sent : List Outgoing := []

/-- `connectionState`. -/
structure ConnectionState where
  totalConnections : ℤ := 0
  activeConnections : ℤ := 0
  agentConnections : ℤ := 0
  viewerConnections : ℤ := 0
  deriving DecidableEq

/-- The server process. -/
structure Server where
  connectionState : ConnectionState := {}
  /-- The `sessions` map, from id to session object. -/
  sessions : InsertionMap SessionId SessionRef := .empty
  /-- The session objects. -/
  sessionAt : SessionRef → Session := fun _ => {}
  /-- The WebSockets. -/
  conn : ConnId → Conn := fun _ => {}
  /-- The connections handed to the `'connection'` handler, newest first. -/
  arrivals : List ConnId := []
  /-- An exception escaped a handler and ended the process. -/
  crashed : Bool := false

/-- The role handler that accepted a connection, with what its listeners captured. -/
inductive Acceptance where
  | agent (sessionId : SessionId) (session : SessionRef)
  | viewer (sessionId : SessionId) (session : SessionRef) (viewerId : String)
  deriving DecidableEq

/-- The session id captured at acceptance. -/
def Acceptance.sessionId : Acceptance → SessionId
  | .agent k _ | .viewer k _ _ => k

/-- The session object captured at acceptance. -/
def Acceptance.session : Acceptance → SessionRef
  | .agent _ o | .viewer _ o _ => o

/-- The session object a connection is an agent of. -/
def Acceptance.agentSession : Option Acceptance → Option SessionRef
  | some (.agent _ o) => some o
  | _ => none

/-- The session object and the viewer id a connection is a viewer under. -/
def Acceptance.viewerPlace : Option Acceptance → Option (SessionRef × String)
  | some (.viewer _ o i) => some (o, i)
  | _ => none

/-- Only agents have a session object as their agents. -/
theorem Acceptance.agentSession_eq_some {a : Option Acceptance} {o : SessionRef} :
    agentSession a = some o ↔ ∃ k, a = some (.agent k o) := by
  rcases a with _ | ⟨k, p⟩ | ⟨k, p, i⟩ <;> simp [agentSession]

/-- Only viewers have a place in a session object. -/
theorem Acceptance.viewerPlace_eq_some {a : Option Acceptance} {p : SessionRef × String} :
    viewerPlace a = some p ↔ ∃ k, a = some (.viewer k p.1 p.2) := by
  rcases a with _ | ⟨k, o⟩ | ⟨k, o, i⟩ <;> simp [viewerPlace, Prod.ext_iff]

/-- The acceptance a `'close'` listener of a role handler witnesses. -/
def Listener.acceptance : Listener → Option Acceptance
  | .agentClose k o => some (.agent k o)
  | .viewerClose k o i => some (.viewer k o i)
  | _ => none

namespace Conn

/-- How the connection was accepted, read off the listeners attached to it. -/
def acceptance (w : Conn) : Option Acceptance := w.listeners.findSome? Listener.acceptance

/-- The connection was handed over and its close event has not fired. -/
def isPending (w : Conn) : Bool := w.readyState == .OPEN || w.readyState == .CLOSING

/-- A connection is pending while its socket is OPEN or CLOSING. -/
theorem isPending_iff (w : Conn) :
    w.isPending = true ↔ w.readyState = .OPEN ∨ w.readyState = .CLOSING := by
  simp [isPending]

/-- Some `'error'` listener is attached. -/
def hasErrorListener (w : Conn) : Bool := w.listeners.any Listener.isError

end Conn

namespace Server

/-- Change one WebSocket. -/
def modifyConn (ws : ConnId) (f : Conn → Conn) (σ : Server) : Server :=
  { σ with conn := Function.update σ.conn ws (f (σ.conn ws)) }

/-- Change one session object. -/
def modifySession (session : SessionRef) (f : Session → Session) (σ : Server) : Server :=
  { σ with sessionAt := Function.update σ.sessionAt session (f (σ.sessionAt session)) }

/-- Change the counters. -/
def count (f : ConnectionState → ConnectionState) (σ : Server) : Server :=
  { σ with connectionState := f σ.connectionState }

/-- `ws.send(data)`: transmitted on an OPEN socket, dropped otherwise. -/
def send (ws : ConnId) (data : Outgoing) (σ : Server) : Server :=
  if (σ.conn ws).readyState = .OPEN then
    σ.modifyConn ws fun w => { w with sent := w.sent ++ [data] }
  else σ

/-- `session.agent && session.agent.readyState === WebSocket.OPEN`. -/
def agentOpen (σ : Server) (session : SessionRef) : Bool :=
  match (σ.sessionAt session).agent with
  | some agent => (σ.conn agent).readyState == .OPEN
  | none => false

/-! ### What the updates leave alone -/

section Updates

variable (σ : Server) (ws c : ConnId) (o p : SessionRef)

/-- The connection that was changed. -/
@[simp] theorem conn_modifyConn_self (f : Conn → Conn) :
    (σ.modifyConn ws f).conn ws = f (σ.conn ws) := Function.update_self ..

/-- Changing a connection leaves the others. -/
theorem conn_modifyConn_of_ne {ws c : ConnId} (h : c ≠ ws) (f : Conn → Conn) :
    (σ.modifyConn ws f).conn c = σ.conn c := Function.update_of_ne h ..

/-- A connection after one was changed. -/
theorem conn_modifyConn (f : Conn → Conn) :
    (σ.modifyConn ws f).conn c = if c = ws then f (σ.conn ws) else σ.conn c := by
  simp [modifyConn, Function.update_apply]

/-- What a change keeps of the socket it is made to, it keeps of every socket. -/
theorem modifyConn_keeps {α : Type} (g : Conn → α) {f : Conn → Conn}
    (hkeeps : g (f (σ.conn ws)) = g (σ.conn ws)) :
    g ((σ.modifyConn ws f).conn c) = g (σ.conn c) := by
  rw [conn_modifyConn]
  split
  · rename_i hc
    rw [hkeeps, hc]
  · rfl

/-- Changing a connection leaves the session objects. -/
@[simp] theorem sessionAt_modifyConn (f : Conn → Conn) :
    (σ.modifyConn ws f).sessionAt = σ.sessionAt := rfl

/-- Changing a connection leaves the session map. -/
@[simp] theorem sessions_modifyConn (f : Conn → Conn) :
    (σ.modifyConn ws f).sessions = σ.sessions := rfl

/-- Changing a connection leaves the arrivals. -/
@[simp] theorem arrivals_modifyConn (f : Conn → Conn) :
    (σ.modifyConn ws f).arrivals = σ.arrivals := rfl

/-- Changing a connection leaves the counters. -/
@[simp] theorem connectionState_modifyConn (f : Conn → Conn) :
    (σ.modifyConn ws f).connectionState = σ.connectionState := rfl

/-- Changing a connection does not crash the process. -/
@[simp] theorem crashed_modifyConn (f : Conn → Conn) :
    (σ.modifyConn ws f).crashed = σ.crashed := rfl

/-- The session object that was changed. -/
@[simp] theorem sessionAt_modifySession_self (f : Session → Session) :
    (σ.modifySession o f).sessionAt o = f (σ.sessionAt o) := Function.update_self ..

/-- A session object after one was changed. -/
theorem sessionAt_modifySession (f : Session → Session) :
    (σ.modifySession o f).sessionAt p = if p = o then f (σ.sessionAt o) else σ.sessionAt p := by
  simp [modifySession, Function.update_apply]

/-- What a change keeps of the session object it is made to, it keeps of every object. -/
theorem modifySession_keeps {α : Type} (g : Session → α) {f : Session → Session}
    (hkeeps : g (f (σ.sessionAt o)) = g (σ.sessionAt o)) :
    g ((σ.modifySession o f).sessionAt p) = g (σ.sessionAt p) := by
  rw [sessionAt_modifySession]
  split
  · rename_i hp
    rw [hkeeps, hp]
  · rfl

/-- Changing a session object leaves the connections. -/
@[simp] theorem conn_modifySession (f : Session → Session) :
    (σ.modifySession o f).conn = σ.conn := rfl

/-- Changing a session object leaves the session map. -/
@[simp] theorem sessions_modifySession (f : Session → Session) :
    (σ.modifySession o f).sessions = σ.sessions := rfl

/-- Changing a session object leaves the arrivals. -/
@[simp] theorem arrivals_modifySession (f : Session → Session) :
    (σ.modifySession o f).arrivals = σ.arrivals := rfl

/-- Changing a session object leaves the counters. -/
@[simp] theorem connectionState_modifySession (f : Session → Session) :
    (σ.modifySession o f).connectionState = σ.connectionState := rfl

/-- Changing a session object does not crash the process. -/
@[simp] theorem crashed_modifySession (f : Session → Session) :
    (σ.modifySession o f).crashed = σ.crashed := rfl

/-- Counting leaves the connections. -/
@[simp] theorem conn_count (f : ConnectionState → ConnectionState) :
    (σ.count f).conn = σ.conn := rfl

/-- Counting leaves the session objects. -/
@[simp] theorem sessionAt_count (f : ConnectionState → ConnectionState) :
    (σ.count f).sessionAt = σ.sessionAt := rfl

/-- Counting leaves the session map. -/
@[simp] theorem sessions_count (f : ConnectionState → ConnectionState) :
    (σ.count f).sessions = σ.sessions := rfl

/-- Counting leaves the arrivals. -/
@[simp] theorem arrivals_count (f : ConnectionState → ConnectionState) :
    (σ.count f).arrivals = σ.arrivals := rfl

/-- Counting does not crash the process. -/
@[simp] theorem crashed_count (f : ConnectionState → ConnectionState) :
    (σ.count f).crashed = σ.crashed := rfl

end Updates

end Server

end BrowCast
