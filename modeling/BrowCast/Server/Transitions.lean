import BrowCast.Server.Sending

/-! # What each event does to the server

One closed form for each event of the relay other than `'message'`: how a connection is decided
(`verdict`), the states the two role handlers accept it in, and what the close and error handlers
leave behind. Later modules read these and do not run the handlers again. -/

namespace BrowCast

/-- The listeners an accepted connection ends up with, in the order they were attached. -/
def Acceptance.listeners : Acceptance → List Listener
  | .agent k o => [.agentMessage o, .agentClose k o, .agentError, .heartbeatPong, .heartbeatClose]
  | .viewer k o i =>
      [.viewerMessage o, .viewerClose k o i, .viewerError o i, .heartbeatPong, .heartbeatClose]

/-- An accepted connection can be told from its listeners, and it has an `'error'` listener. -/
@[simp] theorem Acceptance.findSome?_listeners (a : Acceptance) :
    a.listeners.findSome? Listener.acceptance = some a := by cases a <;> rfl

/-- Every acceptance comes with an `'error'` listener. -/
@[simp] theorem Acceptance.any_isError_listeners (a : Acceptance) :
    a.listeners.any Listener.isError = true := by cases a <;> rfl

/-- How the `'connection'` handler decides. -/
inductive Verdict where
  | agent (sessionId : SessionId)
  | viewer (sessionId : SessionId)
  | turnedAway (code : ℕ) (reason : String)
  deriving DecidableEq

namespace Server

/-! ## New connections -/

/-- The session object for an id: the one in the map, or else the one `ws` creates. -/
def sessionFor (sessionId : SessionId) (ws : ConnId) (σ : Server) : SessionRef :=
  (σ.sessions.get? sessionId).getD ws

/-- The agent slot of the session with this id, if there is one, holds an OPEN agent. -/
def agentTaken (sessionId : SessionId) (σ : Server) : Bool :=
  match σ.sessions.get? sessionId with
  | some session => σ.agentOpen session
  | none => false

/-- How the `'connection'` handler decides about a socket that has just arrived. -/
def verdict (ws : ConnId) (parsedUrl : ParsedUrl) (σ : Server) : Verdict :=
  match parsedUrl.sessionId.key ws with
  | none => .turnedAway 1008 "Connection attempt without sessionId. Closing connection."
  | some sessionId =>
      if parsedUrl.pathname = some "/agent" then
        if σ.agentTaken sessionId then
          .turnedAway 1008 ("Agent already connected for session " ++ sessionId.toText)
        else .agent sessionId
      else if parsedUrl.pathname = some "/viewer" then .viewer sessionId
      else .turnedAway 1000 ("Unknown connection path: " ++ pathText parsedUrl.pathname)

/-- The server takes a connection for an agent when it has an id, asks for `/agent` and the id is
not taken. -/
theorem verdict_eq_agent_iff (ws : ConnId) (parsedUrl : ParsedUrl) (σ : Server) (k : SessionId) :
    σ.verdict ws parsedUrl = .agent k ↔ parsedUrl.sessionId.key ws = some k ∧
      parsedUrl.pathname = some "/agent" ∧ σ.agentTaken k = false := by
  unfold verdict
  cases hkey : parsedUrl.sessionId.key ws with
  | none => simp
  | some l =>
      by_cases hagent : parsedUrl.pathname = some "/agent"
      · by_cases htaken : σ.agentTaken l = true
        · simp only [hagent, htaken, if_true, reduceCtorEq, Option.some.injEq, true_and, false_iff]
          rintro ⟨rfl, hfree⟩
          simp [htaken] at hfree
        · simp only [hagent, htaken, if_true, Bool.false_eq_true, if_false, Verdict.agent.injEq,
            Option.some.injEq, true_and]
          refine ⟨fun h => ⟨h, ?_⟩, fun h => h.1⟩
          rw [← h]
          simpa using htaken
      · simp only [hagent, if_false, false_and, and_false, iff_false]
        split <;> simp

/-- The server takes a connection for a viewer when it has an id and asks for `/viewer`. -/
theorem verdict_eq_viewer_iff (ws : ConnId) (parsedUrl : ParsedUrl) (σ : Server) (k : SessionId) :
    σ.verdict ws parsedUrl = .viewer k ↔
      parsedUrl.sessionId.key ws = some k ∧ parsedUrl.pathname = some "/viewer" := by
  unfold verdict
  cases hkey : parsedUrl.sessionId.key ws with
  | none => simp
  | some l =>
      by_cases hagent : parsedUrl.pathname = some "/agent"
      · simp only [hagent, if_true]
        split <;> simp
      · by_cases hviewer : parsedUrl.pathname = some "/viewer" <;> simp [hagent, hviewer]

/-- The state in which the session object is looked up: created when the map lacks the id, and its
activity time set. -/
def joinSession (ws : ConnId) (sessionId : SessionId) (now : ℕ) (σ : Server) : Server :=
  Server.modifySession (σ.sessionFor sessionId ws) (fun s => { s with lastActivity := now })
    (if σ.sessions.has sessionId then σ
      else { σ.modifySession ws fun _ => { createdAt := now, lastActivity := now } with
        sessions := σ.sessions.set sessionId ws })

/-- What every connection changes before it is decided. -/
def enter (ws : ConnId) (parsedUrl : ParsedUrl) (now : ℕ) (σ : Server) : Server :=
  let σ := σ.count fun n => { n with
    totalConnections := n.totalConnections + 1, activeConnections := n.activeConnections + 1 }
  match parsedUrl.sessionId.key ws with
  | none => σ
  | some sessionId => σ.joinSession ws sessionId now

/-- An accepted agent: it takes the slot, the viewers are told, and the listeners are attached. -/
def acceptAgent (ws : ConnId) (sessionId : SessionId) (session : SessionRef)
    (σ : Server) : Server :=
  let σ := (σ.modifySession session fun s => { s with agent := some ws }).count fun n =>
    { n with agentConnections := n.agentConnections + 1 }
  (σ.deliver (broadcast (σ.sessionAt session).viewers.values (.agentStatus true))).modifyConn ws
    fun w => { w with
      isAlive := true, pingInterval := true
      listeners := w.listeners ++ (Acceptance.agent sessionId session).listeners }

/-- An accepted viewer: it is stored under its id, told whether there is an agent, and the listeners
are attached. -/
def acceptViewer (ws : ConnId) (sessionId : SessionId) (session : SessionRef) (viewerId : String)
    (σ : Server) : Server :=
  ((σ.modifySession session fun s => { s with viewers := s.viewers.set viewerId ws }).count
    fun n => { n with viewerConnections := n.viewerConnections + 1 }).modifyConn ws
    fun w => { w with
      viewerInfo := some { id := viewerId, screenInfo := some .null }
      isAlive := true, pingInterval := true
      sent := w.sent ++ [.agentStatus (σ.agentOpen session)]
      listeners := w.listeners ++ (Acceptance.viewer sessionId session viewerId).listeners }

/-- The result of turning a connection away. -/
def turnAway (ws : ConnId) (code : ℕ) (reason : String) (σ : Server) :
    EStateM.Result JsError Server Unit :=
  if 123 < reason.utf8ByteSize then
    .error .rangeError (σ.modifyConn ws fun w => { w with readyState := .CLOSING })
  else
    .ok () ((σ.modifyConn ws fun w => { w with
      readyState := .CLOSING, sent := w.sent ++ [.close code reason] }).count fun n => { n with
        activeConnections := n.activeConnections - 1 })

/-- The result of the `'connection'` handler, by its decision. -/
def decided (ws : ConnId) (parsedUrl : ParsedUrl) (now : ℕ) (σ : Server) :
    EStateM.Result JsError Server Unit :=
  let entered := σ.enter ws parsedUrl now
  match σ.verdict ws parsedUrl with
  | .agent sessionId => .ok () (entered.acceptAgent ws sessionId (σ.sessionFor sessionId ws))
  | .viewer sessionId =>
      .ok () (entered.acceptViewer ws sessionId (σ.sessionFor sessionId ws) (toString now))
  | .turnedAway code reason => entered.turnAway ws code reason

/-- Two changes of a connection are one. -/
theorem modifyConn_modifyConn (σ : Server) (ws : ConnId) (f g : Conn → Conn) :
    (σ.modifyConn ws f).modifyConn ws g = σ.modifyConn ws fun w => g (f w) := by
  simp [modifyConn]

/-- Changes of a connection and of a session object may be swapped. -/
theorem modifySession_modifyConn (σ : Server) (ws : ConnId) (session : SessionRef)
    (f : Conn → Conn) (g : Session → Session) :
    (σ.modifyConn ws f).modifySession session g = (σ.modifySession session g).modifyConn ws f := rfl

/-- Counting and changing a connection may be swapped. -/
theorem count_modifyConn (σ : Server) (ws : ConnId) (f : Conn → Conn)
    (g : ConnectionState → ConnectionState) :
    (σ.modifyConn ws f).count g = (σ.count g).modifyConn ws f := rfl

/-- Whether a slot holds an OPEN agent depends on the slot and the socket states only. -/
theorem agentOpen_congr {σ τ : Server} {o : SessionRef}
    (hagent : (τ.sessionAt o).agent = (σ.sessionAt o).agent)
    (hstate : ∀ c, (τ.conn c).readyState = (σ.conn c).readyState) :
    τ.agentOpen o = σ.agentOpen o := by
  unfold agentOpen
  rw [hagent]
  simp only [hstate]

/-- A frame for an OPEN socket is added to its record. -/
theorem send_of_open {σ : Server} {ws : ConnId} (h : (σ.conn ws).readyState = .OPEN)
    (data : Outgoing) :
    σ.send ws data = σ.modifyConn ws fun w => { w with sent := w.sent ++ [data] } := if_pos h

end Server

variable {σ : Server} {ws : ConnId}

/-- Turning a connection away closes its socket and takes it off the count, unless the reason is too
long. -/
theorem run_turnAway (hopen : (σ.conn ws).readyState = .OPEN) (code : ℕ) (reason : String) :
    (do closeSocket ws code reason
        modify (Server.count fun n => { n with
          activeConnections := n.activeConnections - 1 }) : Handler Unit).run σ =
      σ.turnAway ws code reason := by
  rw [EStateM.run_bind, run_closeSocket hopen, Server.turnAway]
  by_cases hlong : 123 < reason.utf8ByteSize
  · simp only [hlong, if_true]
  · simp only [hlong, if_false, Server.modifyConn_modifyConn, EStateM.run_modify]

/-- An agent is turned away if its session has an OPEN agent, else accepted. -/
theorem run_handleAgentConnection (hopen : (σ.conn ws).readyState = .OPEN) (sessionId : SessionId)
    (session : SessionRef) :
    (handleAgentConnection ws sessionId session).run σ =
      if σ.agentOpen session then
        σ.turnAway ws 1008 ("Agent already connected for session " ++ sessionId.toText)
      else .ok () (σ.acceptAgent ws sessionId session) := by
  unfold handleAgentConnection
  rw [EStateM.run_bind, run_readState]
  by_cases htaken : σ.agentOpen session = true
  · rw [if_pos htaken]
    simp only [htaken, if_true]
    exact run_turnAway hopen 1008 _
  · rw [if_neg htaken]
    simp only [htaken, Bool.false_eq_true, if_false]
    rw [EStateM.run_bind, EStateM.run_modify]
    simp only [EStateM.run_bind, EStateM.run_modify]
    rw [run_sendToViewers _ _ (fun _ _ _ => rfl)]
    simp only [run_on, run_setupPingPong, Server.modifyConn_modifyConn, List.append_assoc]
    rfl

/-- A viewer is accepted under the time of its arrival. -/
theorem run_handleViewerConnection (hopen : (σ.conn ws).readyState = .OPEN) (sessionId : SessionId)
    (session : SessionRef) (now : ℕ) :
    (handleViewerConnection ws sessionId session now).run σ =
      .ok () (σ.acceptViewer ws sessionId session (toString now)) := by
  unfold handleViewerConnection
  simp only [EStateM.run_bind, EStateM.run_modify, run_on, run_readState]
  rw [Server.modifySession_modifyConn, Server.count_modifyConn, Server.modifyConn_modifyConn]
  -- nothing done so far touches the agent slot or a socket state
  rw [Server.agentOpen_congr (σ := σ) (by simp) fun c => by
    rw [Server.conn_modifyConn]; split <;> simp_all]
  by_cases hstatus : σ.agentOpen session = true
  · simp only [hstatus, if_true, EStateM.run_bind, run_send, run_on, run_setupPingPong]
    rw [Server.send_of_open (by simpa using hopen)]
    simp only [Server.modifyConn_modifyConn, Server.acceptViewer, hstatus, List.append_assoc]
    rfl
  · simp only [hstatus, Bool.false_eq_true, if_false, EStateM.run_bind, run_send, run_on,
      run_setupPingPong]
    rw [Server.send_of_open (by simpa using hopen)]
    simp only [Server.modifyConn_modifyConn, Server.acceptViewer, hstatus, List.append_assoc]
    rfl

namespace Server

variable {sessionId : SessionId} {session : SessionRef} {now : ℕ}

/-- Joining a session that exists notes the time of activity. -/
theorem joinSession_of_some (hget : σ.sessions.get? sessionId = some session) :
    σ.joinSession ws sessionId now =
      σ.modifySession session fun s => { s with lastActivity := now } := by
  simp [joinSession, sessionFor, InsertionMap.has, hget]

/-- Joining a session that does not exist creates it, with a new object. -/
theorem joinSession_of_none (hget : σ.sessions.get? sessionId = none) :
    σ.joinSession ws sessionId now =
      { σ.modifySession ws fun _ => { createdAt := now, lastActivity := now } with
        sessions := σ.sessions.set sessionId ws } := by
  simp [joinSession, sessionFor, InsertionMap.has, hget, modifySession]

/-- Joining a session leaves the connections. -/
@[simp] theorem conn_joinSession : (σ.joinSession ws sessionId now).conn = σ.conn := by
  unfold joinSession; split <;> rfl

/-- The bookkeeping of a new connection leaves the connections. -/
@[simp] theorem conn_enter (parsedUrl : ParsedUrl) : (σ.enter ws parsedUrl now).conn = σ.conn := by
  unfold enter
  cases parsedUrl.sessionId.key ws with
  | none => rfl
  | some k => exact conn_joinSession

/-- The accept test of `handleAgentConnection`, read in the state before the session lookup. -/
theorem agentOpen_joinSession :
    (σ.joinSession ws sessionId now).agentOpen (σ.sessionFor sessionId ws) =
      σ.agentTaken sessionId := by
  cases hget : σ.sessions.get? sessionId with
  | none =>
      rw [joinSession_of_none hget]
      simp [sessionFor, agentTaken, agentOpen, modifySession, hget]
  | some session =>
      rw [joinSession_of_some hget]
      have hfor : σ.sessionFor sessionId ws = session := by rw [sessionFor, hget, Option.getD_some]
      have htaken : σ.agentTaken sessionId = σ.agentOpen session := by rw [agentTaken, hget]
      rw [hfor, htaken]
      exact agentOpen_congr (by simp) fun c => rfl

end Server

/-- The session lookup of the `'connection'` handler, followed by the role handler `f`. -/
theorem run_lookUpSession (σ : Server) (ws : ConnId) (sessionId : SessionId) (now : ℕ)
    (f : SessionRef → Handler Unit) :
    (do if !(← readState fun σ => σ.sessions.has sessionId) then
          createSession ws sessionId now
        match ← readState fun σ => σ.sessions.get? sessionId with
        | none => throw .typeError
        | some session =>
            touch session now
            f session : Handler Unit).run σ =
      (f (σ.sessionFor sessionId ws)).run (σ.joinSession ws sessionId now) := by
  cases hget : σ.sessions.get? sessionId with
  | none =>
      have hnot : σ.sessions.has sessionId = false := by simp [InsertionMap.has, hget]
      rw [Server.joinSession_of_none hget, Server.sessionFor, hget]
      simp [EStateM.run_bind, hnot, createSession, InsertionMap.get?_set_self, Server.modifySession]
  | some session =>
      have hhas : σ.sessions.has sessionId = true := by simp [InsertionMap.has, hget]
      rw [Server.joinSession_of_some hget, Server.sessionFor, hget]
      simp [EStateM.run_bind, hhas, hget]

/-- The whole `'connection'` handler on a socket that is OPEN. -/
theorem run_onConnection (hopen : (σ.conn ws).readyState = .OPEN) (parsedUrl : ParsedUrl)
    (now : ℕ) : (onConnection ws (.ok parsedUrl) now).run σ = σ.decided ws parsedUrl now := by
  unfold onConnection Server.decided Server.enter Server.verdict
  simp only [EStateM.run_bind, EStateM.run_modify, run_orThrow_ok]
  cases hkey : parsedUrl.sessionId.key ws with
  | none => exact run_turnAway (by exact hopen) _ _
  | some sessionId =>
      -- the three ways on from the lookup, as one handler of the session object
      refine (run_lookUpSession _ ws sessionId now fun session =>
        if parsedUrl.pathname = some "/agent" then handleAgentConnection ws sessionId session
        else if parsedUrl.pathname = some "/viewer" then
          handleViewerConnection ws sessionId session now
        else do
          closeSocket ws 1000 ("Unknown connection path: " ++ pathText parsedUrl.pathname)
          modify (Server.count fun n => { n with
            activeConnections := n.activeConnections - 1 })).trans ?_
      by_cases hagent : parsedUrl.pathname = some "/agent"
      · simp only [hagent, if_true]
        rw [run_handleAgentConnection (by simpa using hopen), Server.agentOpen_joinSession]
        show (if σ.agentTaken sessionId = true then _ else _) = _
        by_cases htaken : σ.agentTaken sessionId = true
        · simp only [htaken, if_true]
        · simp only [htaken, Bool.false_eq_true, if_false]
          rfl
      · by_cases hviewer : parsedUrl.pathname = some "/viewer"
        · simp only [hviewer, if_true]
          exact run_handleViewerConnection (by simpa using hopen) _ _ _
        · simp only [hagent, hviewer, if_false]
          exact run_turnAway (by simpa using hopen) _ _

/-- The step of a connection that arrives. -/
theorem Server.step_connect (σ : Server) (ws : ConnId) (parsedUrl : ParsedUrl) (now : ℕ) :
    σ.step (.connect ws parsedUrl now) =
      settle ((σ.arrive ws parsedUrl).decided ws parsedUrl now) := by
  show settle _ = _
  rw [run_onConnection (readyState_arrive σ ws parsedUrl)]

/-- A connection with a URL that cannot be parsed is counted, and ends the process. -/
theorem Server.step_unparsable (σ : Server) (ws : ConnId) :
    σ.step (.unparsable ws) = { (σ.arrive ws ⟨none, .absent⟩).count fun n => { n with
      totalConnections := n.totalConnections + 1
      activeConnections := n.activeConnections + 1 } with crashed := true } := rfl

/-! ## Departures, errors and pongs -/

namespace Server

/-- What the close listeners of an accepted connection do. -/
def leave (ws : ConnId) : Acceptance → Server → Server
  | .agent sessionId session, σ =>
      let σ := (σ.modifySession session fun s => { s with agent := none }).count fun n => { n with
        agentConnections := n.agentConnections - 1, activeConnections := n.activeConnections - 1 }
      let σ := σ.deliver (broadcast (σ.sessionAt session).viewers.values (.agentStatus false))
      (σ.dropIfEmpty sessionId).modifyConn ws fun w => { w with pingInterval := false }
  | .viewer sessionId session viewerId, σ =>
      let σ := (σ.modifySession session fun s => { s with
          viewers := s.viewers.delete viewerId
          clientScreens := s.clientScreens.delete ws }).count fun n => { n with
        viewerConnections := n.viewerConnections - 1, activeConnections := n.activeConnections - 1 }
      (σ.dropIfEmpty sessionId).modifyConn ws fun w => { w with pingInterval := false }

/-- What the error listeners of an accepted connection do. -/
def fail (ws : ConnId) : Acceptance → Server → Server
  | .agent _ _, σ => σ.count fun n => { n with
      activeConnections := n.activeConnections - 1, agentConnections := n.agentConnections - 1 }
  | .viewer _ session viewerId, σ =>
      (σ.modifySession session fun s => { s with
          viewers := s.viewers.delete viewerId
          clientScreens := s.clientScreens.delete ws }).count fun n => { n with
        activeConnections := n.activeConnections - 1, viewerConnections := n.viewerConnections - 1 }

end Server

/-- One tick of the heartbeat: a ping, or the end of a connection that did not answer the last one,
or the end of the interval. -/
theorem run_pingTick (σ : Server) (ws : ConnId) :
    (pingTick ws).run σ = .ok () (
      if (σ.conn ws).readyState = .OPEN then
        if (σ.conn ws).isAlive then
          (σ.modifyConn ws fun w => { w with isAlive := false }).send ws .ping
        else σ.modifyConn ws fun w => { w with readyState := .CLOSING, pingInterval := false }
      else σ.modifyConn ws fun w => { w with pingInterval := false }) := by
  unfold pingTick clearPingInterval
  by_cases hopen : (σ.conn ws).readyState = .OPEN
  · by_cases halive : (σ.conn ws).isAlive = true
    · simp only [EStateM.run_bind, run_readState, hopen, halive, if_true, EStateM.run_modify,
        run_send]
    · simp only [EStateM.run_bind, run_readState, hopen, halive, if_true, EStateM.run_modify,
        Bool.false_eq_true, if_false, Server.modifyConn_modifyConn]
  · simp only [EStateM.run_bind, run_readState, hopen, if_false, EStateM.run_modify]

/-- `agentClose` returns, with the slot empty, the viewers told and the session cleaned up. -/
theorem run_agentClose (σ : Server) (sessionId : SessionId) (session : SessionRef) :
    (agentClose sessionId session).run σ = .ok () (
      let σ := (σ.modifySession session fun s => { s with agent := none }).count fun n => { n with
        agentConnections := n.agentConnections - 1, activeConnections := n.activeConnections - 1 }
      (σ.deliver (broadcast (σ.sessionAt session).viewers.values
        (.agentStatus false))).dropIfEmpty sessionId) := by
  unfold agentClose
  simp only [EStateM.run_bind, EStateM.run_modify]
  rw [run_sendToViewers _ _ (fun _ _ _ => rfl)]
  simp only [run_cleanupSessionIfEmpty]

/-- `viewerClose` returns, with the viewer removed and the session cleaned up. -/
theorem run_viewerClose (σ : Server) (ws : ConnId) (sessionId : SessionId) (session : SessionRef)
    (viewerId : String) :
    (viewerClose ws sessionId session viewerId).run σ = .ok () (
      ((σ.modifySession session fun s => { s with
          viewers := s.viewers.delete viewerId
          clientScreens := s.clientScreens.delete ws }).count fun n => { n with
        viewerConnections := n.viewerConnections - 1
        activeConnections := n.activeConnections - 1 }).dropIfEmpty sessionId) := by
  unfold viewerClose
  simp only [EStateM.run_bind, EStateM.run_modify, run_cleanupSessionIfEmpty]

section Emit

variable {a : Acceptance}

/-- An event on a socket without listeners does nothing. -/
theorem run_emit_nil (hnil : (σ.conn ws).listeners = []) (run : Listener → Handler Unit) :
    (emit ws run).run σ = .ok () σ := by
  unfold emit
  rw [EStateM.run_bind, run_readState, hnil]
  rfl

/-- An event runs the listeners of its connection in order. -/
theorem run_emit_of_listeners {ls : List Listener} (hls : (σ.conn ws).listeners = ls)
    (run : Listener → Handler Unit) : (emit ws run).run σ = (forM ls run).run σ := by
  unfold emit
  rw [EStateM.run_bind, run_readState, hls]

/-- At an accepted connection a close event is its leaving. -/
theorem run_emit_onClose (hls : (σ.conn ws).listeners = a.listeners) :
    (emit ws (Listener.onClose ws)).run σ = .ok () (σ.leave ws a) := by
  rw [run_emit_of_listeners hls]
  cases a with
  | agent k o =>
      simp only [Acceptance.listeners, List.forM_cons, List.forM_nil, Listener.onClose,
        EStateM.run_bind, EStateM.run_pure, run_agentClose, clearPingInterval, EStateM.run_modify]
      rfl
  | viewer k o i =>
      simp only [Acceptance.listeners, List.forM_cons, List.forM_nil, Listener.onClose,
        EStateM.run_bind, EStateM.run_pure, run_viewerClose, clearPingInterval, EStateM.run_modify]
      rfl

/-- Only the first listener of an accepted connection listens to `'message'`. -/
theorem run_emit_onMessage (hls : (σ.conn ws).listeners = a.listeners) (message : Message)
    (now : ℕ) :
    (emit ws (Listener.onMessage ws message now)).run σ =
      match a with
      | .agent _ session => (agentMessage ws session message now).run σ
      | .viewer _ session _ => (viewerMessage ws session message now).run σ := by
  rw [run_emit_of_listeners hls]
  cases a <;>
    simp only [Acceptance.listeners, List.forM_cons, List.forM_nil, Listener.onMessage, pure_bind,
      bind_pure_unit]

/-- At an accepted connection an error event is its failing. -/
theorem run_emitError (hls : (σ.conn ws).listeners = a.listeners) :
    (emitError ws).run σ = .ok () (σ.fail ws a) := by
  have hlistens : (σ.conn ws).hasErrorListener = true := by rw [Conn.hasErrorListener, hls]; simp
  unfold emitError
  rw [EStateM.run_bind, run_readState]
  simp only [hlistens, if_true]
  rw [run_emit_of_listeners hls]
  -- of the five listeners one is for errors, the others pass
  cases a <;> rfl

/-- An error nobody listens to leaves the handler as an exception. -/
theorem run_emitError_nil (hnil : (σ.conn ws).listeners = []) :
    (emitError ws).run σ = .error .unhandledError σ := by
  have hlistens : (σ.conn ws).hasErrorListener = false := by rw [Conn.hasErrorListener, hnil]; rfl
  unfold emitError
  rw [EStateM.run_bind, run_readState]
  simp only [hlistens, Bool.false_eq_true, if_false]
  rfl

end Emit

end BrowCast
