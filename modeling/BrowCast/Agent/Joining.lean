import BrowCast.Agent.ServerUrl
import BrowCast.Server.RequestUrl
import BrowCast.Server.RegistryRefinement

/-! # Joining a session as its agent

When a request makes the server store the socket in the agent slot of a session, and what becomes of
the request that the agent sends. -/

namespace BrowCast

namespace Server

/-! ## Requests that join -/

/-- The socket `ws` with this request URL becomes the agent of the session `sessionId`: it is
accepted by `handleAgentConnection` for the session object under that id, and stored in its agent
slot. -/
def JoinsAsAgent (σ : Server) (ws : ConnId) (parsedUrl : ParsedUrl) (now : ℕ)
    (sessionId : SessionId) : Prop :=
  ∃ session,
    ((σ.step (.connect ws parsedUrl now)).conn ws).acceptance = some (.agent sessionId session) ∧
      (σ.step (.connect ws parsedUrl now)).sessions.get? sessionId = some session ∧
      ((σ.step (.connect ws parsedUrl now)).sessionAt session).agent = some ws

variable {σ : Server} {ws : ConnId} {parsedUrl : ParsedUrl} {sessionId : SessionId} {now : ℕ}

/-- The session that is looked up is the one the map has afterwards. -/
theorem get?_enter (hkey : parsedUrl.sessionId.key ws = some sessionId) :
    (σ.enter ws parsedUrl now).sessions.get? sessionId = some (σ.sessionFor sessionId ws) := by
  unfold enter
  simp only [hkey]
  cases hget : σ.sessions.get? sessionId with
  | some o =>
      have hcounted : ∀ f, (σ.count f).sessions.get? sessionId = some o := fun _ => hget
      rw [joinSession_of_some (hcounted _)]
      simp [sessionFor, hget]
  | none =>
      rw [joinSession_of_none (by exact hget)]
      simp [sessionFor, hget, InsertionMap.get?_set_self]

/-- **The requests that join.** A socket becomes the agent of a session exactly when its URL names
the agent's path and the session, and the session has no OPEN agent. -/
theorem joinsAsAgent_iff : σ.JoinsAsAgent ws parsedUrl now sessionId ↔
    parsedUrl.sessionId.key ws = some sessionId ∧ parsedUrl.pathname = some "/agent" ∧
      (σ.arrive ws parsedUrl).agentTaken sessionId = false := by
  have hnil := listeners_arrive σ ws parsedUrl
  rw [← verdict_eq_agent_iff, JoinsAsAgent, step_connect, decided]
  cases hverdict : (σ.arrive ws parsedUrl).verdict ws parsedUrl with
  | agent k =>
      have hkey := ((verdict_eq_agent_iff ..).mp hverdict).1
      have hacceptance (o : SessionRef) :
          ((((σ.arrive ws parsedUrl).enter ws parsedUrl now).acceptAgent ws k o).conn
            ws).acceptance = some (.agent k o) :=
        acceptance_of_listeners (by simp [acceptAgent, hnil])
      simp only [settle, hacceptance, Option.some.injEq, Acceptance.agent.injEq,
        Verdict.agent.injEq]
      constructor
      · rintro ⟨session, ⟨rfl, -⟩, -⟩
        rfl
      · rintro rfl
        refine ⟨_, ⟨rfl, rfl⟩, ?_, ?_⟩
        · simpa [acceptAgent] using get?_enter hkey
        · simp [acceptAgent]
  | viewer k =>
      -- a viewer's listeners witness that it is no agent
      have hacceptance : ((((σ.arrive ws parsedUrl).enter ws parsedUrl now).acceptViewer ws k
          ((σ.arrive ws parsedUrl).sessionFor k ws) (toString now)).conn ws).acceptance =
            some (.viewer k ((σ.arrive ws parsedUrl).sessionFor k ws) (toString now)) :=
        acceptance_of_listeners (by simp [acceptViewer, hnil])
      simp only [settle, hacceptance, Option.some.injEq, reduceCtorEq, false_and, exists_false]
  | turnedAway code reason =>
      have hacceptance : ((settle (((σ.arrive ws parsedUrl).enter ws parsedUrl now).turnAway ws code
          reason)).conn ws).acceptance = none := by
        unfold turnAway
        split <;> simp [settle, Conn.acceptance, hnil]
      simp only [hacceptance, reduceCtorEq, false_and, exists_false]

end Server

/-! ## The request of the agent -/

/-- The agent that is given `serverHost` joins its session: its URL has a request target, which the
server parses, and the socket `ws` with that request becomes the agent of `DEFAULT_SESSION_ID`. -/
def AgentJoins (parseQuery : String → QueryValue) (serverHost : String) (σ : Server) (ws : ConnId)
    (now : ℕ) : Prop :=
  ∃ target parsedUrl, requestTarget (serverUrl serverHost) = some target ∧
    urlParse parseQuery target = some parsedUrl ∧
      σ.JoinsAsAgent ws parsedUrl now (.text defaultSessionId)

/-- The root without a query carries no session id. -/
theorem key_of_root {parseQuery : String → QueryValue} {parsedUrl : ParsedUrl}
    (hparse : urlParse parseQuery "/" = some parsedUrl) (ws : ConnId) :
    parsedUrl.sessionId.key ws = none := by
  rw [urlParse_sessionId_of_no_query (by decide) hparse]
  rfl

/-- So it joins no session. -/
theorem not_joinsAsAgent_root {parseQuery : String → QueryValue} {parsedUrl : ParsedUrl}
    (hparse : urlParse parseQuery "/" = some parsedUrl) (σ : Server) (ws : ConnId) (now : ℕ)
    (sessionId : SessionId) : ¬ σ.JoinsAsAgent ws parsedUrl now sessionId := by
  intro hjoins
  have hkey := (Server.joinsAsAgent_iff.mp hjoins).1
  rw [key_of_root hparse ws] at hkey
  cases hkey

/-- What becomes of the agent that was given a host alone: the server listens to nothing on its
socket, and closes it with a text that asks for the session id. -/
theorem agent_turnedAway {serverHost : String} (hhost : HostOnly serverHost)
    {parseQuery : String → QueryValue} {target : String} {parsedUrl : ParsedUrl}
    (htarget : requestTarget (serverUrl serverHost) = some target)
    (hparse : urlParse parseQuery target = some parsedUrl) (σ : Server) (ws : ConnId) (now : ℕ) :
    (σ.step (.connect ws parsedUrl now)).conn ws = {
      readyState := .CLOSING
      sent := [.close 1008 "Connection attempt without sessionId. Closing connection."] } := by
  rw [requestTarget_serverUrl hhost] at htarget
  obtain rfl := Option.some.inj htarget
  exact Server.conn_connect_of_no_key (key_of_root hparse ws) now

/-- **The agent never joins.** With a host alone, and whatever the state of the server: the URL
carries neither the path of an agent nor the session id. -/
theorem not_agentJoins_of_hostOnly {serverHost : String} (hhost : HostOnly serverHost)
    (parseQuery : String → QueryValue) (σ : Server) (ws : ConnId) (now : ℕ) :
    ¬ AgentJoins parseQuery serverHost σ ws now := by
  rintro ⟨target, parsedUrl, htarget, hparse, hjoins⟩
  rw [requestTarget_serverUrl hhost] at htarget
  obtain rfl := Option.some.inj htarget
  exact not_joinsAsAgent_root hparse σ ws now _ hjoins

/-- An address on the local network. -/
theorem not_agentJoins_localNetwork :
    ¬ AgentJoins (fun _ => .absent) "192.168.0.7" relay.start 0 0 :=
  not_agentJoins_of_hostOnly (by decide) (fun _ => .absent) relay.start 0 0

/-- The default host, and a server that has just started: the slot is free, and the agent is turned
away without a session. -/
theorem not_agentJoins_localhost :
    HostOnly "localhost" ∧ relay.start.agentTaken (.text defaultSessionId) = false ∧
      requestTarget (serverUrl "localhost") = some "/" ∧
      urlParse (fun _ => .absent) "/" = some ⟨some "/", .absent⟩ ∧
      ((relay.start.step (.connect 0 ⟨some "/", .absent⟩ 0)).conn 0).readyState = .CLOSING ∧
      ¬ AgentJoins (fun _ => .absent) "localhost" relay.start 0 0 := by
  refine ⟨by decide, by decide, by decide, by decide, by decide, ?_⟩
  rintro ⟨target, parsedUrl, htarget, hparse, hjoins⟩
  have hroot : requestTarget (serverUrl "localhost") = some "/" := by decide
  rw [hroot] at htarget
  obtain rfl := Option.some.inj htarget
  exact not_joinsAsAgent_root hparse relay.start 0 0 _ hjoins

/-- What the URL lacks can be put into the host: then the agent joins. -/
example : AgentJoins (fun _ => .one "def_pas") "10.0.0.2:8080/agent?sessionId=def_pas&_="
    relay.start 0 0 :=
  ⟨"/agent?sessionId=def_pas&_=:8080", ⟨some "/agent", .one "def_pas"⟩, by decide, by decide,
    Server.joinsAsAgent_iff.mpr ⟨rfl, rfl, by decide⟩⟩

end BrowCast
