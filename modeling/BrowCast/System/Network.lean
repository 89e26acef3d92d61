import BrowCast.Agent.Joining
import BrowCast.Agent.MainThread
import BrowCast.Agent.MessageHandler
import BrowCast.Runs.Channel
import BrowCast.Server.InputRelay
import BrowCast.Web.SessionIds
import BrowCast.Web.Viewer

/-! # The whole system

Viewer pages, the relay server and the agent in one machine. Each connection of the server has a
peer: a socket of a page, a connection of the agent, or a client of another kind, of which nothing
is known. Messages travel on channels that keep the order: the server handles the next message of a
connection that its peer has sent, and the peer receives the next frame the server has sent. Sending
and receiving are separate steps, so messages are under way for as long as one likes, and are lost
when their connection ends. -/

namespace BrowCast

open Web (Browser Page PageEvent SocketId)

/-- A page, in some browser window. -/
abbrev PageId := ℕ

/-- Who is at the other end of a connection. -/
inductive Peer where
  /-- A socket of a page. -/
  | viewer (p : PageId) (i : SocketId)
  | agent
  /-- A client of another kind. -/
  | stranger
  deriving DecidableEq

/-- What stays the same: how values are written as texts, by `JSON.stringify` and by the `dump` of
the agent's library, the browser and how the pages are loaded, the host the agent runs on, whose
library reads fields as documented, and the host of the server that it was given. -/
structure Setting where
  stringify : Json → String
  dump : Json → String
  browser : Browser
  https : Bool
  host : Host
  documented : host.json.Documented
  serverHost : String

/-- The request of the agent, as the server parses it. -/
def Setting.AgentRequests (S : Setting) (parsedUrl : ParsedUrl) : Prop :=
  ∃ target, requestTarget (serverUrl S.serverHost) = some target ∧
    urlParse QueryString.sessionIdOf target = some parsedUrl

/-- The members of a `set_scale` message. -/
def setScaleMembers (scale : Number) (originalWidth originalHeight : Option Json) :
    List (String × Json) :=
  Json.withMember "originalHeight" originalHeight (Json.withMember "originalWidth" originalWidth
    [("type", .str "set_scale"), ("scale", Json.ofNumber scale)])

/-- The message that a frame of the server is to its receiver. Pings and close frames are none. -/
def Outgoing.received (stringify : Json → String) : Outgoing → Option Message
  | .agentStatus connected =>
      let v : Json := .obj [("type", .str "agent_status"), ("connected", .bool connected)]
      some ⟨stringify v, some v⟩
  | .setScale scale originalWidth originalHeight =>
      let v : Json := .obj (setScaleMembers scale originalWidth originalHeight)
      some ⟨stringify v, some v⟩
  | .forward _ members => some ⟨stringify (.obj members), some (.obj members)⟩
  | .input _ message => some message
  | .ping | .close _ _ => none

/-- The pages, the server and the agent, with the records of the channels. -/
structure System where
  server : Server := {}
  page : PageId → Page
  /-- The main thread of the agent, and what its message handler works on. -/
  main : MainThread := {}
  agent : Agent := {}
  /-- The connection of the agent's client, and whether its handshake is over. -/
  link : Option ConnId := none
  connected : Bool := false
  /-- The other ends of the server's connections. -/
  peer : ConnId → Option Peer := fun _ => none
  /-- The messages of a connection that the server has handled. -/
  taken : ConnId → List Message := fun _ => []
  /-- How many of the frames sent on a connection its peer has received. -/
  heard : ConnId → ℕ := fun _ => 0
  /-- What the agent has sent on a connection. -/
  said : ConnId → List AgentMessage := fun _ => []
  /-- The frames that the agent has received, over all its connections. -/
  handled : List Outgoing := []

/-- What can happen. -/
inductive SystemEvent where
  /-- An event of a page that is no open event and no message. -/
  | page (p : PageId) (e : PageEvent)
  /-- The request of a socket of a page reaches the server. -/
  | viewerArrives (p : PageId) (i : SocketId) (ws : ConnId) (parsedUrl : ParsedUrl) (now : ℕ)
  /-- The handshake of a viewer is over. -/
  | viewerOpens (ws : ConnId)
  /-- A page receives the next frame. -/
  | viewerHears (ws : ConnId)
  /-- A round of the agent's main thread. -/
  | main (e : MainThread.Event)
  /-- The request of the agent reaches the server. -/
  | agentArrives (ws : ConnId) (parsedUrl : ParsedUrl) (now : ℕ)
  /-- The handshake of the agent is over. -/
  | agentOpens
  /-- The agent receives the next frame. -/
  | agentHears
  /-- The connection of the agent fails or is closed. -/
  | agentLeaves
  /-- The server handles the next message of a page or of the agent. -/
  | handles (ws : ConnId) (now : ℕ)
  /-- An event of the server that no page and no agent takes part in. -/
  | server (e : Event)

/-- The client has been told to connect. -/
def Stage.hasClient : Stage → Bool
  | .waiting _ | .waited | .selecting | .sharing => true
  | .starting | .connecting | .returned _ => false

namespace MainThread

/-- A round finds the client and the source as they are. -/
def Event.Finds (connected : Bool) (selected_hwnd : Option Window) : Event → Prop
  | .wait isConnected | .check isConnected | .select _ isConnected _ _ => isConnected = connected
  | .share hwnd isConnected _ _ => isConnected = connected ∧ hwnd.isSome = selected_hwnd.isSome
  | .initializeCompressor _ | .connect _ => True

/-- The source after a round. -/
def Event.selected (selected_hwnd : Option Window) : Event → Option Window
  | .select hwnd _ _ _ => hwnd
  | _ => selected_hwnd

end MainThread

namespace System

variable (S : Setting) (s : System)

/-- What a page has sent on a socket. -/
def sentOn (p : PageId) (i : SocketId) : List Json := fromSource i (s.page p).sent

/-- What the peer of a connection has sent on it, if it is known. -/
def outbox (ws : ConnId) : Option (List Message) :=
  match s.peer ws with
  | some (.viewer p i) => some ((s.sentOn p i).map fun v => ⟨S.stringify v, some v⟩)
  | some .agent => some ((s.said ws).map fun m => ⟨S.dump m.json, some m.json⟩)
  | some .stranger | none => none

/-- The message of a connection that the server is to handle next. -/
def nextMessage (ws : ConnId) : Option Message :=
  (s.outbox S ws).bind fun log => log[(s.taken ws).length]?

/-- The frame that the peer of a connection is to receive next. -/
def nextFrame (ws : ConnId) : Option Outgoing := (s.server.conn ws).sent[s.heard ws]?

/-- The server handles a message. -/
def handle (ws : ConnId) (message : Message) (now : ℕ) : System :=
  { s with
    server := s.server.step (.message ws message now)
    taken := Function.update s.taken ws (s.taken ws ++ [message]) }

/-- A page takes a step. -/
def stepPage (p : PageId) (e : PageEvent) : System :=
  { s with page := Function.update s.page p ((s.page p).step e) }

/-- A connection arrives at the server by the event `e`. -/
def arrive (peer : Peer) (e : Event) : System :=
  { s with
    server := s.server.step e
    peer := Function.update s.peer e.subject (some peer) }

/-- The next frame of a connection has been received. -/
def hear (ws : ConnId) : System :=
  { s with heard := Function.update s.heard ws (s.heard ws + 1) }

/-- The client of the agent gets a connection. -/
def connectAgent (ws : ConnId) (parsedUrl : ParsedUrl) (now : ℕ) : System :=
  { s.arrive .agent (.connect ws parsedUrl now) with link := some ws, connected := false }

/-- The agent receives a frame. -/
def hearAgent (ws : ConnId) (f : Outgoing) : System :=
  { s.hear ws with
    agent := match f.received S.stringify with
      | some message => s.agent.receive S.host message
      | none => s.agent
    handled := s.handled ++ [f] }

/-- The request of a page's socket, as the server parses it. -/
def Requests (url : String) (parsedUrl : ParsedUrl) : Prop :=
  ∃ target, S.browser.requestTarget url = some target ∧
    urlParse QueryString.sessionIdOf target = some parsedUrl

/-- The agent's process is there, with its client. -/
def agentRuns : Prop := s.agent.exited = false ∧ s.main.stage.hasClient = true

/-- When an event can happen. -/
def Enabled : SystemEvent → Prop
  | .page p e => (s.page p).Enabled e ∧ (∀ i, e ≠ .opened i) ∧ ∀ i m, e ≠ .message i m
  | .viewerArrives p i ws parsedUrl now =>
      s.server.Enabled (.connect ws parsedUrl now) ∧ (∀ c, s.peer c ≠ some (.viewer p i)) ∧
        ∃ socket, (s.page p).sockets[i]? = some socket ∧ socket.readyState = .connecting ∧
          Requests S socket.url parsedUrl
  | .viewerOpens ws => ∃ p i, s.peer ws = some (.viewer p i) ∧ (s.page p).Enabled (.opened i)
  | .viewerHears ws => ∃ p i f, s.peer ws = some (.viewer p i) ∧ s.nextFrame ws = some f ∧
      ∀ m, f.received S.stringify = some m → (s.page p).Enabled (.message i m)
  | .main e => s.main.Enabled e ∧ s.agent.exited = false ∧
      e.Finds s.connected s.agent.selected_hwnd
  | .agentArrives ws parsedUrl now =>
      s.server.Enabled (.connect ws parsedUrl now) ∧ s.link = none ∧ s.agentRuns ∧
        S.AgentRequests parsedUrl
  | .agentOpens => s.link.isSome ∧ s.connected = false ∧ s.agentRuns
  | .agentHears => ∃ ws f, s.link = some ws ∧ s.connected = true ∧ s.nextFrame ws = some f ∧
      s.agentRuns
  | .agentLeaves => s.link.isSome
  | .handles ws now =>
      ∃ message, s.nextMessage S ws = some message ∧ s.server.Enabled (.message ws message now)
  | .server e => s.server.Enabled e ∧
      ∀ ws message now, e = .message ws message now → s.peer ws = some .stranger

/-- The system after an event. -/
def step : SystemEvent → System
  | .page p e => s.stepPage p e
  | .viewerArrives p i ws parsedUrl now => s.arrive (.viewer p i) (.connect ws parsedUrl now)
  | .viewerOpens ws =>
      match s.peer ws with
      | some (.viewer p i) => s.stepPage p (.opened i)
      | _ => s
  | .viewerHears ws =>
      match s.peer ws, s.nextFrame ws with
      | some (.viewer p i), some f =>
          match f.received S.stringify with
          | some message => (s.stepPage p (.message i message)).hear ws
          | none => s.hear ws
      | _, _ => s
  | .main e =>
      let main := s.main.step e
      { s with
        main := main
        agent := { s.agent with selected_hwnd := e.selected s.agent.selected_hwnd }
        said := match s.link with
          | some ws =>
              Function.update s.said ws (s.said ws ++ main.sent.drop s.main.sent.length)
          | none => s.said }
  | .agentArrives ws parsedUrl now => s.connectAgent ws parsedUrl now
  | .agentOpens => { s with connected := true }
  | .agentHears =>
      match s.link with
      | some ws =>
          match s.nextFrame ws with
          | some f => s.hearAgent S ws f
          | none => s
      | none => s
  | .agentLeaves => { s with link := none, connected := false }
  | .handles ws now =>
      match s.nextMessage S ws with
      | some message => s.handle ws message now
      | none => s
  | .server e =>
      match e with
      | .connect _ _ _ | .unparsable _ => s.arrive .stranger e
      | .message ws message now => s.handle ws message now
      | e => { s with server := s.server.step e }

end System

/-- The system. -/
def network (S : Setting) : GuardedMachine System SystemEvent where
  start := { page := fun _ => (Web.viewer S.https).start }
  Enabled := System.Enabled S
  step := System.step S

end BrowCast
