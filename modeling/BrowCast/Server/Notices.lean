import BrowCast.Server.Isolation

/-! # Events that are no messages

Arrivals, departures, errors, pongs and ticks make the server send status messages, pings and close
frames, and nothing else. They change no screen either, except that the error and the close event of
a viewer drop the screen it has reported. -/

namespace BrowCast

/-- A status message, a ping or a close frame: what is not sent on account of a message. -/
def Outgoing.isNotice : Outgoing → Bool
  | .agentStatus _ | .ping | .close _ _ => true
  | _ => false

namespace Server

variable {σ τ υ : Server} {ws v : ConnId} {o : SessionRef} {e : Event}

/-! ## Steps that leave the screens alone -/

/-- No screen changes, except that the client screens of some connections may be dropped, and only
notices are sent. -/
structure Still (dropped : ConnId → Prop) (σ τ : Server) : Prop where
  agentScreen : ∀ o, (τ.sessionAt o).agentScreen = (σ.sessionAt o).agentScreen
  clientScreens : ∀ o v,
    (τ.sessionAt o).clientScreens.get? v = (σ.sessionAt o).clientScreens.get? v ∨
      dropped v ∧ (τ.sessionAt o).clientScreens.get? v = none
  sent : ∀ v, ∃ frames, (τ.conn v).sent = (σ.conn v).sent ++ frames ∧
    ∀ f ∈ frames, f.isNotice = true

namespace Still

variable {dropped : ConnId → Prop}

/-- Nothing changes where sockets and session objects stay. -/
theorem of_eq (hconn : τ.conn = σ.conn) (hsessionAt : τ.sessionAt = σ.sessionAt) :
    Still dropped σ τ where
  agentScreen o := by rw [hsessionAt]
  clientScreens o v := Or.inl (by rw [hsessionAt])
  sent v := ⟨[], by rw [hconn, List.append_nil], by simp⟩

/-- Nothing changes without a step. -/
theorem refl (σ : Server) : Still dropped σ σ := of_eq rfl rfl

/-- Two steps that change no screen are one. -/
theorem trans (h : Still dropped σ τ) (h' : Still dropped τ υ) : Still dropped σ υ where
  agentScreen o := (h'.agentScreen o).trans (h.agentScreen o)
  clientScreens o v := by
    rcases h'.clientScreens o v with heq | hnone
    · rw [heq]
      exact h.clientScreens o v
    · exact Or.inr hnone
  sent v := by
    obtain ⟨frames, hsent, hframes⟩ := h.sent v
    obtain ⟨frames', hsent', hframes'⟩ := h'.sent v
    refine ⟨frames ++ frames', by rw [hsent', hsent, List.append_assoc], fun f hf => ?_⟩
    rcases List.mem_append.mp hf with hf | hf
    · exact hframes f hf
    · exact hframes' f hf

/-- More connections may be dropped. -/
theorem mono {dropped' : ConnId → Prop} (h : Still dropped σ τ)
    (himp : ∀ v, dropped v → dropped' v) : Still dropped' σ τ where
  agentScreen := h.agentScreen
  clientScreens o v := (h.clientScreens o v).imp id fun hv => ⟨himp v hv.1, hv.2⟩
  sent := h.sent

/-- Changing a socket, and sending a list of notices on it. -/
theorem modifyConn {f : Conn → Conn} (frames : List Outgoing)
    (hsent : (f (σ.conn ws)).sent = (σ.conn ws).sent ++ frames)
    (hframes : ∀ f ∈ frames, f.isNotice = true) : Still dropped σ (σ.modifyConn ws f) where
  agentScreen o := rfl
  clientScreens o v := Or.inl rfl
  sent v := by
    rw [conn_modifyConn]
    split
    · rename_i hv
      subst hv
      exact ⟨frames, hsent, hframes⟩
    · exact ⟨[], (List.append_nil _).symm, by simp⟩

/-- Changing a socket without sending anything. -/
theorem modifyConn_of_sent {f : Conn → Conn} (hsent : (f (σ.conn ws)).sent = (σ.conn ws).sent) :
    Still dropped σ (σ.modifyConn ws f) :=
  modifyConn [] (by rw [hsent, List.append_nil]) (by simp)

/-- A change of a session object that leaves its screens, but for dropped ones. -/
theorem modifySession {f : Session → Session}
    (hagent : (f (σ.sessionAt o)).agentScreen = (σ.sessionAt o).agentScreen)
    (hclient : ∀ v,
      (f (σ.sessionAt o)).clientScreens.get? v = (σ.sessionAt o).clientScreens.get? v ∨
        dropped v ∧ (f (σ.sessionAt o)).clientScreens.get? v = none) :
    Still dropped σ (σ.modifySession o f) where
  agentScreen p := modifySession_keeps σ o p Session.agentScreen hagent
  clientScreens p v := by
    rw [sessionAt_modifySession]
    split
    · rename_i hp
      subst hp
      exact hclient v
    · exact Or.inl rfl
  sent v := ⟨[], (List.append_nil _).symm, by simp⟩

/-- Sending notices. -/
theorem deliver {frames : List (ConnId × Outgoing)} (hframes : ∀ f ∈ frames, f.2.isNotice = true) :
    Still dropped σ (σ.deliver frames) where
  agentScreen o := by rw [sessionAt_deliver]
  clientScreens o v := Or.inl (by rw [sessionAt_deliver])
  sent v := by
    refine ⟨_, congrArg Conn.sent (conn_deliver σ v frames), fun f hf => ?_⟩
    split at hf
    · exact hframes (v, f) (mem_addressed_iff.mp hf)
    · cases hf

/-- The counters hold no screens. -/
theorem count (h : Still dropped σ τ) (f : ConnectionState → ConnectionState) :
    Still dropped σ (τ.count f) := h.trans (of_eq rfl rfl)

/-- Status messages are notices. -/
theorem status (viewers : List ConnId) (connected : Bool) :
    Still dropped σ (σ.deliver (broadcast viewers (.agentStatus connected))) := by
  refine deliver fun f hf => ?_
  obtain ⟨v, -, rfl⟩ := List.mem_map.mp hf
  rfl

end Still

/-! ## Connections -/

/-- An arrival changes no screen. -/
theorem still_arrive (hσ : σ.Owned) (hnew : ws ∉ σ.arrivals) (parsedUrl : ParsedUrl)
    (dropped : ConnId → Prop) : Still dropped σ (σ.arrive ws parsedUrl) where
  agentScreen o := rfl
  clientScreens o v := Or.inl rfl
  sent v := by
    refine ⟨[], ?_, by simp⟩
    rw [List.append_nil]
    by_cases hv : v = ws
    · -- nothing was sent on a socket before it arrived
      subst hv
      rw [conn_arrive_self, (hσ.fresh v hnew).1]
    · rw [conn_arrive_of_ne σ hv]

/-- The object of a new session has no screens, and had none before it was created. -/
theorem still_joinSession (hempty : σ.sessionAt ws = {}) (k : SessionId) (now : ℕ)
    (dropped : ConnId → Prop) : Still dropped σ (σ.joinSession ws k now) := by
  cases hget : σ.sessions.get? k with
  | some session =>
      rw [joinSession_of_some hget]
      exact Still.modifySession rfl fun v => Or.inl rfl
  | none =>
      rw [joinSession_of_none hget]
      have hcreated : Still dropped σ
          (σ.modifySession ws fun _ => { createdAt := now, lastActivity := now }) := by
        refine Still.modifySession ?_ fun v => Or.inl ?_
        · rw [hempty]
        · rw [hempty]
      exact hcreated.trans (Still.of_eq rfl rfl)

/-- Entering the server changes no screen. -/
theorem still_enter (hempty : σ.sessionAt ws = {}) (parsedUrl : ParsedUrl) (now : ℕ)
    (dropped : ConnId → Prop) : Still dropped σ (σ.enter ws parsedUrl now) := by
  have hcounted := (Still.refl σ : Still dropped σ σ).count fun n => { n with
    totalConnections := n.totalConnections + 1, activeConnections := n.activeConnections + 1 }
  unfold enter
  cases parsedUrl.sessionId.key ws with
  | none => exact hcounted
  | some k =>
      apply hcounted.trans
      exact still_joinSession (by exact hempty) k now dropped

/-- Accepting an agent changes no screen. -/
theorem still_acceptAgent (k : SessionId) (o : SessionRef) (dropped : ConnId → Prop) :
    Still dropped σ (σ.acceptAgent ws k o) := by
  have hslot : Still dropped σ (σ.modifySession o fun s => { s with agent := some ws }) :=
    Still.modifySession rfl fun v => Or.inl rfl
  have hcounted := hslot.count fun n => { n with agentConnections := n.agentConnections + 1 }
  unfold acceptAgent
  refine Still.trans ?_ (Still.modifyConn_of_sent ?_)
  · exact hcounted.trans (Still.status _ true)
  · rfl

/-- Accepting a viewer changes no screen. -/
theorem still_acceptViewer (k : SessionId) (o : SessionRef) (i : String)
    (dropped : ConnId → Prop) : Still dropped σ (σ.acceptViewer ws k o i) := by
  have hstored : Still dropped σ
      (σ.modifySession o fun s => { s with viewers := s.viewers.set i ws }) :=
    Still.modifySession rfl fun v => Or.inl rfl
  have hcounted := hstored.count fun n => { n with viewerConnections := n.viewerConnections + 1 }
  apply hcounted.trans
  exact Still.modifyConn [.agentStatus (σ.agentOpen o)] (by rfl) (by simp [Outgoing.isNotice])

/-- Turning a connection away changes no screen. -/
theorem still_turnAway (code : ℕ) (reason : String) (dropped : ConnId → Prop) :
    Still dropped σ (finalState (σ.turnAway ws code reason)) := by
  unfold turnAway
  split
  · rw [finalState_error]
    exact Still.modifyConn_of_sent (by rfl)
  · have hclosed : Still dropped σ (σ.modifyConn ws fun w => { w with
        readyState := .CLOSING, sent := w.sent ++ [.close code reason] }) :=
      Still.modifyConn [.close code reason] rfl (by simp [Outgoing.isNotice])
    rw [finalState_ok]
    exact hclosed.count _

/-- An uncaught exception changes no screen. -/
theorem still_settle (result : EStateM.Result JsError Server Unit) (dropped : ConnId → Prop) :
    Still dropped (finalState result) (settle result) := by
  cases result with
  | ok a τ => exact Still.refl τ
  | error err τ => exact Still.of_eq rfl rfl

/-- The event of an arrival changes no screen. -/
theorem still_step_connect (hσ : σ.Owned) (hnew : ws ∉ σ.arrivals) (parsedUrl : ParsedUrl)
    (now : ℕ) (dropped : ConnId → Prop) :
    Still dropped σ (σ.step (.connect ws parsedUrl now)) := by
  rw [step_connect]
  have hempty : (σ.arrive ws parsedUrl).sessionAt ws = {} := (hσ.fresh ws hnew).2
  have hentered := (still_arrive hσ hnew parsedUrl dropped).trans
    (still_enter hempty parsedUrl now dropped)
  refine Still.trans ?_ (still_settle _ dropped)
  unfold decided
  cases (σ.arrive ws parsedUrl).verdict ws parsedUrl with
  | agent k => exact hentered.trans (still_acceptAgent k _ dropped)
  | viewer k => exact hentered.trans (still_acceptViewer k _ _ dropped)
  | turnedAway code reason => exact hentered.trans (still_turnAway code reason dropped)

/-! ## Departures, errors, pongs and ticks -/

/-- The stored screen of a viewer is dropped with the viewer. -/
theorem still_dropViewer (ws : ConnId) (o : SessionRef) (i : String) :
    Still (fun v => v = ws) σ (σ.modifySession o fun s => { s with
      viewers := s.viewers.delete i, clientScreens := s.clientScreens.delete ws }) := by
  refine Still.modifySession rfl fun v => ?_
  rw [InsertionMap.get?_delete]
  by_cases hv : v = ws
  · exact Or.inr ⟨hv, if_pos hv⟩
  · exact Or.inl (if_neg hv)

/-- A connection that leaves drops its own client screen at most. -/
theorem still_leave (ws : ConnId) (a : Acceptance) :
    Still (fun v => v = ws) σ (σ.leave ws a) := by
  cases a with
  | agent k o =>
      have hslot : Still (fun v => v = ws) σ
          (σ.modifySession o fun s => { s with agent := none }) :=
        Still.modifySession rfl fun v => Or.inl rfl
      have hcounted := hslot.count fun n => { n with
        agentConnections := n.agentConnections - 1, activeConnections := n.activeConnections - 1 }
      unfold leave
      refine Still.trans ?_ (Still.modifyConn_of_sent ?_)
      · refine Still.trans ?_ (Still.of_eq (conn_dropIfEmpty _ k) (sessionAt_dropIfEmpty _ k))
        exact hcounted.trans (Still.status _ false)
      · rfl
  | viewer k o i =>
      have hcounted := (still_dropViewer (σ := σ) ws o i).count fun n => { n with
        viewerConnections := n.viewerConnections - 1
        activeConnections := n.activeConnections - 1 }
      unfold leave
      refine Still.trans ?_ (Still.modifyConn_of_sent ?_)
      · exact hcounted.trans (Still.of_eq (conn_dropIfEmpty _ k) (sessionAt_dropIfEmpty _ k))
      · rfl

/-- A connection that fails drops its own client screen at most. -/
theorem still_fail (ws : ConnId) (a : Acceptance) : Still (fun v => v = ws) σ (σ.fail ws a) := by
  cases a with
  | agent k o =>
      unfold fail
      exact (Still.refl σ).count _
  | viewer k o i =>
      unfold fail
      exact (still_dropViewer ws o i).count _

/-- A tick changes no screen. -/
theorem still_step_tick (ws : ConnId) (dropped : ConnId → Prop) :
    Still dropped σ (σ.step (.tick ws)) := by
  show Still dropped σ (settle ((pingTick ws).run σ))
  rw [run_pingTick]
  show Still dropped σ (ite _ _ _)
  split
  · split
    · have hasked : Still dropped σ (σ.modifyConn ws fun w => { w with isAlive := false }) :=
        Still.modifyConn_of_sent rfl
      have hping : ∀ f ∈ [(ws, Outgoing.ping)], f.2.isNotice = true := by
        simp [Outgoing.isNotice]
      exact hasked.trans (Still.deliver hping)
    · exact Still.modifyConn_of_sent (by rfl)
  · exact Still.modifyConn_of_sent (by rfl)

/-- A pong changes no screen. -/
theorem still_step_pong (hwf : σ.WellFormed) (ws : ConnId) (dropped : ConnId → Prop) :
    Still dropped σ (σ.step (.pong ws)) := by
  show Still dropped σ (settle ((emit ws (Listener.onPong ws)).run σ))
  rcases hwf.attached ws with hnil | ⟨a, ha⟩
  · rw [run_emit_nil hnil]
    exact Still.refl σ
  · -- of the five listeners one is for pongs
    have halive : Still dropped σ (σ.modifyConn ws fun w => { w with isAlive := true }) :=
      Still.modifyConn_of_sent rfl
    rw [run_emit_of_listeners ha]
    cases a <;> exact halive

/-- An error event drops the client screen of its own connection at most. -/
theorem still_step_error (hwf : σ.WellFormed) (ws : ConnId) :
    Still (fun v => v = ws) σ (σ.step (.error ws)) := by
  have herrored : Still (fun v => v = ws) σ (σ.modifyConn ws fun w => { w with errored := true }) :=
    Still.modifyConn_of_sent rfl
  show Still _ σ (settle _)
  rcases hwf.attached ws with hnil | ⟨a, ha⟩
  · rw [run_emitError_nil (by simpa using hnil)]
    exact herrored.trans (Still.of_eq rfl rfl)
  · rw [run_emitError (a := a) (by simpa using ha)]
    exact herrored.trans (still_fail ws a)

/-- A close event drops the client screen of its own connection at most. -/
theorem still_step_close (hwf : σ.WellFormed) (ws : ConnId) :
    Still (fun v => v = ws) σ (σ.step (.close ws)) := by
  have hclosed : Still (fun v => v = ws) σ
      (σ.modifyConn ws fun w => { w with readyState := .CLOSED }) := Still.modifyConn_of_sent rfl
  show Still _ σ (settle _)
  rcases hwf.attached ws with hnil | ⟨a, ha⟩
  · rw [run_emit_nil (by simpa using hnil)]
    exact hclosed
  · rw [run_emit_onClose (a := a) (by simpa using ha)]
    exact hclosed.trans (still_leave ws a)

/-! ## Any event -/

/-- **Events that are no messages.** They leave the screens alone, except that the error and the
close event of a viewer drop its screen, and send notices only. -/
theorem still_step (hwf : σ.WellFormed) (hσ : σ.Owned) (he : σ.Enabled e)
    (hno : e.isMessage ≠ true) :
    Still (fun v => e = .error v ∨ e = .close v) σ (σ.step e) := by
  cases e with
  | connect ws parsedUrl now => exact still_step_connect hσ he.2 parsedUrl now _
  | unparsable ws => exact (still_arrive hσ he.2 _ _).trans (Still.of_eq rfl rfl)
  | closing ws =>
      have hclosing : Still (fun v => Event.closing ws = .error v ∨ Event.closing ws = .close v) σ
          (σ.modifyConn ws fun w => { w with readyState := .CLOSING }) :=
        Still.modifyConn_of_sent rfl
      exact hclosing
  | message ws message now => exact absurd rfl hno
  | pong ws => exact still_step_pong hwf ws _
  | tick ws => exact still_step_tick ws _
  | error ws => exact (still_step_error hwf ws).mono fun v hv => Or.inl (by rw [hv])
  | close ws => exact (still_step_close hwf ws).mono fun v hv => Or.inr (by rw [hv])

end Server

end BrowCast
