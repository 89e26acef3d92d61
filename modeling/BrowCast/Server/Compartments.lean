import BrowCast.Server.RegistryRefinement

/-! # Compartments: what the handlers of one session can reach

A compartment is a session id with the sockets that arrived with it. The handlers of those sockets
read and write nothing else: from two states that agree on the compartment they do the same to it,
and the rest of the process is left alone. `Compartment.policy` states this as a policy, and every
handler is confined to it. Sockets without a session id form a compartment of their own. -/

namespace BrowCast

/-- The frame is a message passed on from another connection. -/
def Outgoing.isRelayed : Outgoing → Bool
  | .forward _ _ | .input _ _ => true
  | _ => false

/-- A session id with its sockets, and whether messages may be passed on among them meanwhile. -/
structure Compartment where
  key : Option SessionId
  members : ConnId → Prop
  relays : Prop

/-- The session objects and ids a listener captured are those of the compartment. -/
def Listener.Within (C : Compartment) : Listener → Prop
  | .agentMessage o | .viewerMessage o | .viewerError o _ => C.members o
  | .agentClose k o | .viewerClose k o _ => C.members o ∧ C.key = some k
  | .agentError | .heartbeatPong | .heartbeatClose => True

namespace Compartment

variable (C : Compartment)

/-- Whatever the members and their session objects lead to is in the compartment. -/
structure Closed (σ : Server) : Prop where
  arrived : ∀ c, C.members c → c ∈ σ.arrivals
  listeners : ∀ c, C.members c → ∀ l ∈ (σ.conn c).listeners, l.Within C
  agent : ∀ o, C.members o → ∀ c ∈ (σ.sessionAt o).agent, C.members c
  viewers : ∀ o, C.members o → ∀ c ∈ (σ.sessionAt o).viewers.values, C.members c
  clientScreens : ∀ o, C.members o → ∀ e ∈ (σ.sessionAt o).clientScreens.entries, C.members e.1
  sessions : ∀ k, C.key = some k → ∀ o ∈ σ.sessions.get? k, C.members o

/-- The two states look alike from inside the compartment. -/
structure Agree (σ τ : Server) : Prop where
  conn : ∀ c, C.members c → σ.conn c = τ.conn c
  sessionAt : ∀ o, C.members o → σ.sessionAt o = τ.sessionAt o
  sessions : ∀ k, C.key = some k → σ.sessions.get? k = τ.sessions.get? k

/-- Nothing outside the compartment changes; the sockets keep their ids and what was sent on
them. -/
structure Frame (σ τ : Server) : Prop where
  arrivals : τ.arrivals = σ.arrivals
  sessionId : ∀ c, (τ.conn c).sessionId = (σ.conn c).sessionId
  conn : ∀ c, ¬ C.members c → τ.conn c = σ.conn c
  sessionAt : ∀ o, ¬ C.members o → τ.sessionAt o = σ.sessionAt o
  sessions : ∀ k, C.key ≠ some k → τ.sessions.get? k = σ.sessions.get? k
  sent : ∀ c, ∃ frames, (τ.conn c).sent = (σ.conn c).sent ++ frames ∧
    (¬ C.relays → ∀ f ∈ frames, f.isRelayed = false)

/-- Where nothing was sent, nothing was relayed. -/
theorem nothing_sent (sent : List Outgoing) : ∃ frames, sent = sent ++ frames ∧
    (¬ C.relays → ∀ f ∈ frames, f.isRelayed = false) :=
  ⟨[], (List.append_nil _).symm, fun _ f hf => by cases hf⟩

/-- A state looks like itself. -/
theorem Agree.refl (σ : Server) : C.Agree σ σ := ⟨fun _ _ => rfl, fun _ _ => rfl, fun _ _ => rfl⟩

/-- A state is in its own frame. -/
theorem Frame.refl (σ : Server) : C.Frame σ σ :=
  ⟨rfl, fun _ => rfl, fun _ _ => rfl, fun _ _ => rfl, fun _ _ => rfl,
    fun _ => C.nothing_sent _⟩

variable {C} {σ τ υ : Server}

/-- Two changes inside the compartment are one. -/
theorem Frame.trans (h : C.Frame σ τ) (h' : C.Frame τ υ) : C.Frame σ υ where
  arrivals := h'.arrivals.trans h.arrivals
  sessionId := fun c => (h'.sessionId c).trans (h.sessionId c)
  conn := fun c hc => (h'.conn c hc).trans (h.conn c hc)
  sessionAt := fun o ho => (h'.sessionAt o ho).trans (h.sessionAt o ho)
  sessions := fun k hk => (h'.sessions k hk).trans (h.sessions k hk)
  sent := by
    intro c
    obtain ⟨frames, hsent, hframes⟩ := h.sent c
    obtain ⟨frames', hsent', hframes'⟩ := h'.sent c
    refine ⟨frames ++ frames', by rw [hsent', hsent, List.append_assoc], fun hno f hf => ?_⟩
    rcases List.mem_append.mp hf with hf | hf
    · exact hframes hno f hf
    · exact hframes' hno f hf

/-- Staying inside a compartment. -/
def policy (C : Compartment) : Policy Server where
  Inv := C.Closed
  Agree := C.Agree
  Frame := C.Frame
  agree_refl := Agree.refl C
  frame_refl := Frame.refl C
  frame_trans := Frame.trans

/-- A handler that stays inside the compartment. -/
abbrev Confines (C : Compartment) {α : Type} (Q : α → Prop) (x : Handler α) : Prop :=
  Confined C.policy Q x

/-! ## The primitive handlers -/

variable {ws o : ConnId} {k : SessionId}

/-- The counters are outside every compartment's view. -/
theorem confines_count (f : ConnectionState → ConnectionState) :
    C.Confines (fun _ => True) (modify (Server.count f)) := by
  refine Confined.modify fun σ τ hσ _ h => ⟨?_, ?_, ?_⟩
  · exact ⟨hσ.arrived, hσ.listeners, hσ.agent, hσ.viewers, hσ.clientScreens, hσ.sessions⟩
  · exact ⟨rfl, fun _ => rfl, fun _ _ => rfl, fun _ _ => rfl, fun _ _ => rfl,
      fun _ => C.nothing_sent _⟩
  · exact ⟨h.conn, h.sessionAt, h.sessions⟩

/-- Changing a member. -/
theorem confines_modifyConn (hws : C.members ws) {f : Conn → Conn}
    (hsessionId : ∀ w, (f w).sessionId = w.sessionId)
    (hlisteners : ∀ w, ∀ l ∈ (f w).listeners, l ∈ w.listeners ∨ l.Within C)
    (hsent : ∀ w, ∃ frames, (f w).sent = w.sent ++ frames ∧
      (¬ C.relays → ∀ f ∈ frames, f.isRelayed = false)) :
    C.Confines (fun _ => True) (modify (Server.modifyConn ws f)) := by
  refine Confined.modify fun σ τ hσ _ h => ⟨?_, ?_, ?_⟩
  · -- listeners added are within the compartment
    refine ⟨hσ.arrived, fun c hc l hl => ?_, hσ.agent, hσ.viewers, hσ.clientScreens, hσ.sessions⟩
    rw [Server.conn_modifyConn] at hl
    split at hl
    · rename_i hcws
      rcases hlisteners _ l hl with hold | hnew
      · exact hσ.listeners ws hws l hold
      · exact hnew
    · exact hσ.listeners c hc l hl
  · refine ⟨rfl, fun c => ?_, fun c hc => ?_, fun _ _ => rfl, fun _ _ => rfl, fun c => ?_⟩
    · exact Server.modifyConn_keeps σ ws c Conn.sessionId (hsessionId _)
    · exact Server.conn_modifyConn_of_ne σ (fun hcws : c = ws => hc (hcws ▸ hws)) f
    · rw [Server.conn_modifyConn]
      split
      · rename_i hcws
        rw [hcws]
        exact hsent _
      · exact C.nothing_sent _
  · -- and the change is the same on both sides
    refine ⟨fun c hc => ?_, h.sessionAt, h.sessions⟩
    rw [Server.conn_modifyConn, Server.conn_modifyConn, h.conn c hc, h.conn ws hws]

/-- Changing a member's state only. -/
theorem confines_modifyConn_of_same (hws : C.members ws) {f : Conn → Conn}
    (hsessionId : ∀ w, (f w).sessionId = w.sessionId)
    (hlisteners : ∀ w, (f w).listeners = w.listeners) (hsent : ∀ w, (f w).sent = w.sent) :
    C.Confines (fun _ => True) (modify (Server.modifyConn ws f)) :=
  confines_modifyConn hws hsessionId (fun w l hl => Or.inl (hlisteners w ▸ hl)) fun w =>
    ⟨[], by rw [hsent, List.append_nil], fun _ f hf => by cases hf⟩

/-- A member may be given a listener that stays inside. -/
theorem confines_on (hws : C.members ws) {l : Listener} (hl : l.Within C) :
    C.Confines (fun _ => True) (on ws l) := by
  refine confines_modifyConn hws (fun _ => rfl) (fun w m hm => ?_) fun w =>
    C.nothing_sent w.sent
  rcases List.mem_append.mp hm with hold | hnew
  · exact Or.inl hold
  · exact Or.inr (List.mem_singleton.mp hnew ▸ hl)

/-- Changing a session object of the compartment. -/
theorem confines_modifySession (ho : C.members o) {f : Session → Session}
    (hagent : ∀ s, ∀ c ∈ (f s).agent, c ∈ s.agent ∨ C.members c)
    (hviewers : ∀ s, ∀ c ∈ (f s).viewers.values, c ∈ s.viewers.values ∨ C.members c)
    (hscreens : ∀ s, ∀ e ∈ (f s).clientScreens.entries,
      e ∈ s.clientScreens.entries ∨ C.members e.1) :
    C.Confines (fun _ => True) (modify (Server.modifySession o f)) := by
  refine Confined.modify fun σ τ hσ _ h => ⟨?_, ?_, ?_⟩
  · -- what is stored afterwards was stored before or is a member
    refine ⟨hσ.arrived, hσ.listeners, fun p hp c hc => ?_, fun p hp c hc => ?_,
      fun p hp e he => ?_, hσ.sessions⟩
    · rw [Server.sessionAt_modifySession] at hc
      split at hc
      · exact (hagent _ c hc).elim (hσ.agent o ho c) id
      · exact hσ.agent p hp c hc
    · rw [Server.sessionAt_modifySession] at hc
      split at hc
      · exact (hviewers _ c hc).elim (hσ.viewers o ho c) id
      · exact hσ.viewers p hp c hc
    · rw [Server.sessionAt_modifySession] at he
      split at he
      · exact (hscreens _ e he).elim (hσ.clientScreens o ho e) id
      · exact hσ.clientScreens p hp e he
  · -- nothing changes outside
    refine ⟨rfl, fun _ => rfl, fun _ _ => rfl, fun p hp => ?_, fun _ _ => rfl,
      fun _ => C.nothing_sent _⟩
    rw [Server.sessionAt_modifySession, if_neg fun hpo : p = o => hp (hpo ▸ ho)]
  · -- and the change is the same on both sides
    refine ⟨h.conn, fun p hp => ?_, h.sessions⟩
    rw [Server.sessionAt_modifySession, Server.sessionAt_modifySession, h.sessionAt p hp,
      h.sessionAt o ho]

/-- Changing the `sessions` map at the id of the compartment. -/
theorem confines_sessions (hk : C.key = some k)
    {f : InsertionMap SessionId SessionRef → InsertionMap SessionId SessionRef}
    (hself : ∀ m n, m.get? k = n.get? k → (f m).get? k = (f n).get? k)
    (hmem : ∀ m, ∀ o ∈ (f m).get? k, o ∈ m.get? k ∨ C.members o)
    (hother : ∀ m l, l ≠ k → (f m).get? l = m.get? l) :
    C.Confines (fun _ => True) (modify fun σ => { σ with sessions := f σ.sessions }) := by
  refine Confined.modify fun σ τ hσ _ h => ⟨?_, ?_, ?_⟩
  · refine ⟨hσ.arrived, hσ.listeners, hσ.agent, hσ.viewers, hσ.clientScreens, fun l hl o ho => ?_⟩
    obtain rfl : k = l := Option.some.inj (hk.symm.trans hl)
    exact (hmem _ o ho).elim (hσ.sessions k hk o) id
  · refine ⟨rfl, fun _ => rfl, fun _ _ => rfl, fun _ _ => rfl, fun l hl => ?_,
      fun _ => C.nothing_sent _⟩
    exact hother _ l fun hlk => hl (hlk ▸ hk)
  · refine ⟨h.conn, h.sessionAt, fun l hl => ?_⟩
    obtain rfl : k = l := Option.some.inj (hk.symm.trans hl)
    exact hself _ _ (h.sessions k hk)

/-- Reading a member. -/
theorem confines_readConn {α : Type} (hws : C.members ws) (g : Conn → α) :
    C.Confines (fun _ => True) (readState fun σ => g (σ.conn ws)) :=
  Confined.readState fun _ _ _ _ h => ⟨congrArg g (h.conn ws hws), trivial⟩

/-- Reading a session object of the compartment. -/
theorem confines_readSession {α : Type} (ho : C.members o) (g : Session → α) {Q : α → Prop}
    (hQ : ∀ σ, C.Closed σ → Q (g (σ.sessionAt o))) :
    C.Confines Q (readState fun σ => g (σ.sessionAt o)) :=
  Confined.readState fun σ _ hσ _ h => ⟨congrArg g (h.sessionAt o ho), hQ σ hσ⟩

/-- Members may ask whether their agent is open. -/
theorem confines_agentOpen (ho : C.members o) :
    C.Confines (fun _ => True) (readState fun σ => σ.agentOpen o) := by
  refine Confined.readState fun σ τ hσ _ h => ⟨?_, trivial⟩
  unfold Server.agentOpen
  rw [← h.sessionAt o ho]
  cases hagent : (σ.sessionAt o).agent with
  | none => rfl
  | some c =>
      -- the agent in the slot is a member, so both states know the same of it
      simp only [h.conn c (hσ.agent o ho c hagent)]

/-- A handler that branches on the state of a member. -/
theorem confines_ifOpen (hws : C.members ws) {x : Handler Unit}
    (hx : C.Confines (fun _ => True) x) :
    C.Confines (fun _ => True)
      (do if (← readState fun σ => (σ.conn ws).readyState) = .OPEN then x) := by
  refine (confines_readConn hws Conn.readyState).bind fun state _ => ?_
  exact Confined.ite hx (Confined.pure trivial)

/-- Sending looks at the state of the socket first. -/
theorem send_eq (ws : ConnId) (data : Outgoing) : send ws data =
    (do if (← readState fun σ : Server => (σ.conn ws).readyState) = .OPEN then
          modify (Server.modifyConn ws fun w => { w with sent := w.sent ++ [data] })) := by
  funext σ
  refine (run_send σ ws data).trans ?_
  show _ = EStateM.run _ σ
  rw [EStateM.run_bind, run_readState]
  by_cases hopen : (σ.conn ws).readyState = .OPEN
  · rw [Server.send_of_open hopen]
    simp [hopen]
  · rw [Server.send_eq_self hopen]
    simp [hopen]

/-- A member may be sent data, relayed data only where messages are passed on. -/
theorem confines_send (hws : C.members ws) {data : Outgoing}
    (hdata : C.relays ∨ data.isRelayed = false) : C.Confines (fun _ => True) (send ws data) := by
  -- as a handler that branches on the state of a member and then changes the member
  rw [send_eq]
  refine confines_ifOpen hws (confines_modifyConn hws (fun _ => rfl) (fun _ _ hl => Or.inl hl) ?_)
  refine fun w => ⟨[data], rfl, fun hno f hf => ?_⟩
  rw [List.mem_singleton.mp hf]
  exact hdata.resolve_left hno

/-- A fallible value does not look at the state. -/
theorem confines_orThrow {α : Type} (r : Except JsError α) :
    C.Confines (fun _ => True) (orThrow r : Handler α) := Confined.orThrow fun _ _ => trivial

/-- Closing a member stays inside. -/
theorem confines_closeSocket (hws : C.members ws) (code : ℕ) (reason : String) :
    C.Confines (fun _ => True) (closeSocket ws code reason) := by
  refine confines_ifOpen hws ?_
  refine Confined.bind (confines_modifyConn_of_same hws (fun _ => rfl) (fun _ => rfl) fun _ => rfl)
    fun _ _ => ?_
  refine Confined.ite (Confined.throw _) ?_
  refine confines_modifyConn hws (fun _ => rfl) (fun _ _ hl => Or.inl hl) fun w => ?_
  exact ⟨[.close code reason], rfl, fun _ f hf => by rw [List.mem_singleton.mp hf]; rfl⟩

/-- The loops over the viewers of a session object. -/
theorem confines_sendToViewers (ho : C.members o) {data : Server → Outgoing}
    (hsame : ∀ σ τ, C.Agree σ τ → data σ = data τ)
    (hdata : C.relays ∨ ∀ σ, (data σ).isRelayed = false) :
    C.Confines (fun _ => True) (sendToViewers o data) := by
  refine (confines_readSession (Q := fun vs => ∀ v ∈ vs, C.members v) ho
    (fun s => s.viewers.values) fun σ hσ => hσ.viewers o ho).bind fun viewers hviewers => ?_
  refine Confined.forM fun v hv => confines_ifOpen (hviewers v hv) ?_
  refine (Confined.readState (Q := fun d => C.relays ∨ d.isRelayed = false) fun σ τ _ _ h =>
    ⟨hsame σ τ h, hdata.imp id fun hall => hall σ⟩).bind fun d hd => ?_
  exact confines_send (hviewers v hv) hd

/-- Starting the heartbeat of a member stays inside. -/
theorem confines_setupPingPong (hws : C.members ws) :
    C.Confines (fun _ => True) (setupPingPong ws) := by
  refine Confined.bind (confines_modifyConn_of_same hws (fun _ => rfl) (fun _ => rfl) fun _ => rfl)
    fun _ _ => ?_
  exact Confined.bind (confines_on hws (l := .heartbeatPong) trivial) fun _ _ =>
    confines_on hws (l := .heartbeatClose) trivial

/-- Stopping the heartbeat of a member stays inside. -/
theorem confines_clearPingInterval (hws : C.members ws) :
    C.Confines (fun _ => True) (clearPingInterval ws) :=
  confines_modifyConn_of_same hws (fun _ => rfl) (fun _ => rfl) fun _ => rfl

/-- A tick of a member stays inside. -/
theorem confines_pingTick (hws : C.members ws) : C.Confines (fun _ => True) (pingTick ws) := by
  refine (confines_readConn hws Conn.readyState).bind fun state _ => ?_
  refine Confined.ite ?_ (confines_clearPingInterval hws)
  refine (confines_readConn hws Conn.isAlive).bind fun alive _ => Confined.ite ?_ ?_
  · refine Confined.bind
      (confines_modifyConn_of_same hws (fun _ => rfl) (fun _ => rfl) fun _ => rfl) fun _ _ => ?_
    exact confines_send hws (Or.inr rfl)
  · refine Confined.bind
      (confines_modifyConn_of_same hws (fun _ => rfl) (fun _ => rfl) fun _ => rfl) fun _ _ => ?_
    exact confines_clearPingInterval hws

/-- The activity time of a session object of the compartment is inside. -/
theorem confines_touch (ho : C.members o) (now : ℕ) : C.Confines (fun _ => True) (touch o now) :=
  confines_modifySession ho (fun _ _ hc => Or.inl hc) (fun _ _ hc => Or.inl hc)
    fun _ _ he => Or.inl he

/-- Looking up the id of the compartment. -/
theorem confines_lookUp (hk : C.key = some k) :
    C.Confines (fun found => ∀ o ∈ found, C.members o)
      (readState fun σ => σ.sessions.get? k) :=
  Confined.readState fun _ _ hσ _ h => ⟨h.sessions k hk, hσ.sessions k hk⟩

/-- Dropping the compartment's own session stays inside. -/
theorem confines_cleanupSessionIfEmpty (hk : C.key = some k) :
    C.Confines (fun _ => True) (cleanupSessionIfEmpty k) := by
  refine (confines_lookUp hk).bind fun found hfound => ?_
  cases found with
  | none => exact Confined.pure trivial
  | some o =>
      have ho : C.members o := hfound o rfl
      -- whether the object is vacant is read off the object alone
      refine (confines_readSession (Q := fun _ => True) ho
        (fun s => s.agent.isNone && s.viewers.size == 0) fun _ _ => trivial).bind fun empty _ => ?_
      refine Confined.ite ?_ (Confined.pure trivial)
      refine confines_sessions hk (f := fun m => m.delete k) (fun m n _ => ?_) (fun m p hp => ?_)
        fun m l hl => ?_
      · rw [InsertionMap.get?_delete, InsertionMap.get?_delete, if_pos rfl, if_pos rfl]
      · rw [InsertionMap.get?_delete, if_pos rfl] at hp
        cases hp
      · rw [InsertionMap.get?_delete, if_neg hl]

/-! ## The message handlers -/

/-- Sending scales to the viewers of a session object stays inside. -/
theorem confines_updateClientScales (ho : C.members o) (agentScreen : AgentScreen) :
    C.Confines (fun _ => True) (updateClientScales o agentScreen) := by
  refine Confined.bind (confines_readSession (Q := fun es => ∀ e ∈ es, C.members e.1) ho
    (fun s => s.clientScreens.entries) fun σ hσ => hσ.clientScreens o ho) fun entries hentries => ?_
  refine Confined.forM fun e he => confines_ifOpen (hentries e he) ?_
  exact (confines_orThrow _).bind fun scale _ => confines_send (hentries e he) (Or.inr rfl)

/-- The branch for the screen of an agent stays inside. -/
theorem confines_onScreenInfo (ho : C.members o) (msg : Json) :
    C.Confines (fun _ => True) (onScreenInfo o msg) := by
  refine Confined.bind (confines_modifySession ho (fun _ _ hc => Or.inl hc)
    (fun _ _ hc => Or.inl hc) fun _ _ he => Or.inl he) fun _ _ => ?_
  refine (confines_orThrow _).bind fun _ _ => (confines_orThrow _).bind fun _ _ =>
    (confines_orThrow _).bind fun _ _ => ?_
  exact confines_updateClientScales ho (screenOf msg)

/-- The message handler of an agent stays inside. -/
theorem confines_agentMessage (hrelays : C.relays) (ho : C.members o) (message : Message)
    (now : ℕ) : C.Confines (fun _ => True) (agentMessage ws o message now) := by
  refine (confines_touch ho now).bind fun _ _ => Confined.swallow ?_
  refine (confines_orThrow _).bind fun msg _ => (confines_orThrow _).bind fun type _ => ?_
  have hforward : C.Confines (fun _ => True) (sendToViewers o fun σ =>
      .forward ws (forwardCopy msg (σ.sessionAt o).agentScreen)) :=
    confines_sendToViewers ho (fun σ τ h => by rw [h.sessionAt o ho]) (Or.inl hrelays)
  exact Confined.ite ((confines_onScreenInfo ho msg).bind fun _ _ => hforward) hforward

/-- The branch for the screen of a viewer stays inside. -/
theorem confines_onClientInfo (hws : C.members ws) (ho : C.members o) (msg : Json) :
    C.Confines (fun _ => True) (onClientInfo ws o msg) := by
  refine Confined.bind (confines_modifyConn_of_same hws (fun _ => rfl) (fun _ => rfl)
    fun _ => rfl) fun _ _ => ?_
  refine Confined.bind (confines_modifySession ho (fun _ _ hc => Or.inl hc)
    (fun _ _ hc => Or.inl hc) fun s e he => ?_) fun _ _ => ?_
  · -- the entry is an old one, or the one that was just set for `ws`
    have hget := (InsertionMap.mem_entries_iff _ e.1 e.2).mp he
    rw [InsertionMap.get?_set] at hget
    by_cases he' : e.1 = ws
    · exact Or.inr (he' ▸ hws)
    · rw [if_neg he'] at hget
      exact Or.inl ((InsertionMap.mem_entries_iff _ e.1 e.2).mpr hget)
  refine (confines_orThrow _).bind fun _ _ => (confines_orThrow _).bind fun _ _ =>
    (confines_orThrow _).bind fun _ _ => (confines_orThrow _).bind fun _ _ =>
    (confines_orThrow _).bind fun _ _ => (confines_orThrow _).bind fun _ _ => ?_
  refine Confined.bind (confines_readSession (Q := fun _ => True) ho Session.agentScreen
    fun _ _ => trivial) fun screen _ => ?_
  cases screen with
  | none => exact Confined.pure trivial
  | some agentScreen =>
      exact (confines_orThrow _).bind fun scale _ => confines_send hws (Or.inr rfl)

/-- Reading the agent slot. -/
theorem confines_readAgent (ho : C.members o) :
    C.Confines (fun slot => ∀ c ∈ slot, C.members c) (readState fun σ => (σ.sessionAt o).agent) :=
  confines_readSession ho Session.agent fun _ hσ => hσ.agent o ho

/-- The message handler of a viewer stays inside. -/
theorem confines_viewerMessage (hrelays : C.relays) (hws : C.members ws) (ho : C.members o)
    (message : Message) (now : ℕ) :
    C.Confines (fun _ => True) (viewerMessage ws o message now) := by
  refine (confines_touch ho now).bind fun _ _ => Confined.swallow ?_
  refine (confines_orThrow _).bind fun msg _ => (confines_orThrow _).bind fun type _ => ?_
  refine Confined.ite (confines_onClientInfo hws ho msg) ?_
  refine (confines_readAgent ho).bind fun slot hslot => ?_
  cases slot with
  | none => exact Confined.pure trivial
  | some agent =>
      exact confines_ifOpen (hslot agent rfl) (confines_send (hslot agent rfl) (Or.inl hrelays))

/-! ## The close and error handlers -/

/-- The close handler of an agent stays inside. -/
theorem confines_agentClose (ho : C.members o) (hk : C.key = some k) :
    C.Confines (fun _ => True) (agentClose k o) := by
  refine Confined.bind (confines_modifySession ho (fun _ _ hc => by cases hc)
    (fun _ _ hc => Or.inl hc) fun _ _ he => Or.inl he) fun _ _ => ?_
  refine (confines_count _).bind fun _ _ => ?_
  refine Confined.bind (confines_sendToViewers ho (fun _ _ _ => rfl) (Or.inr fun _ => rfl))
    fun _ _ => ?_
  exact confines_cleanupSessionIfEmpty hk

/-- Taking a viewer out of a session object. -/
theorem confines_removeViewer (ho : C.members o) (viewerId : String) :
    C.Confines (fun _ => True) (modify (Server.modifySession o fun s => { s with
      viewers := s.viewers.delete viewerId, clientScreens := s.clientScreens.delete ws })) := by
  refine confines_modifySession ho (fun _ _ hc => Or.inl hc) (fun s c hc => ?_) fun s e he => ?_
  · obtain ⟨i, hi⟩ := (InsertionMap.mem_values_iff _ c).mp hc
    rw [InsertionMap.get?_delete] at hi
    split at hi
    · cases hi
    · exact Or.inl ((InsertionMap.mem_values_iff _ c).mpr ⟨i, hi⟩)
  · exact Or.inl (List.mem_of_mem_filter he)

/-- The close handler of a viewer stays inside. -/
theorem confines_viewerClose (ho : C.members o) (hk : C.key = some k) (viewerId : String) :
    C.Confines (fun _ => True) (viewerClose ws k o viewerId) := by
  refine (confines_removeViewer ho viewerId).bind fun _ _ => (confines_count _).bind fun _ _ => ?_
  exact confines_cleanupSessionIfEmpty hk

/-- The error handler of a viewer stays inside. -/
theorem confines_viewerError (ho : C.members o) (viewerId : String) :
    C.Confines (fun _ => True) (viewerError ws o viewerId) :=
  (confines_removeViewer ho viewerId).bind fun _ _ => confines_count _

/-! ## The connection handler -/

/-- Turning a member away stays inside. -/
theorem confines_turnAway (hws : C.members ws) (code : ℕ) (reason : String) :
    C.Confines (fun _ => True) (do
      closeSocket ws code reason
      modify (Server.count fun n => { n with activeConnections := n.activeConnections - 1 })) :=
  (confines_closeSocket hws code reason).bind fun _ _ => confines_count _

/-- Accepting an agent stays inside. -/
theorem confines_handleAgentConnection (hws : C.members ws) (ho : C.members o)
    (hk : C.key = some k) : C.Confines (fun _ => True) (handleAgentConnection ws k o) := by
  refine (confines_agentOpen ho).bind fun taken _ => ?_
  refine Confined.ite (confines_turnAway hws _ _) ?_
  -- the slot gets the member `ws`, the viewers and the screens stay
  refine Confined.bind (confines_modifySession ho
    (fun _ c hc => Or.inr (Option.some.inj hc ▸ hws)) (fun _ _ hc => Or.inl hc)
    fun _ _ he => Or.inl he) fun _ _ => ?_
  refine (confines_count _).bind fun _ _ => ?_
  refine Confined.bind (confines_sendToViewers ho (fun _ _ _ => rfl) (Or.inr fun _ => rfl))
    fun _ _ => ?_
  refine Confined.bind (confines_on hws (l := .agentMessage o) ho) fun _ _ => ?_
  refine Confined.bind (confines_on hws (l := .agentClose k o) ⟨ho, hk⟩) fun _ _ => ?_
  refine Confined.bind (confines_on hws (l := .agentError) trivial) fun _ _ => ?_
  exact confines_setupPingPong hws

/-- Accepting a viewer stays inside. -/
theorem confines_handleViewerConnection (hws : C.members ws) (ho : C.members o)
    (hk : C.key = some k) (now : ℕ) :
    C.Confines (fun _ => True) (handleViewerConnection ws k o now) := by
  refine Confined.bind (confines_modifyConn_of_same hws (fun _ => rfl) (fun _ => rfl)
    fun _ => rfl) fun _ _ => ?_
  refine Confined.bind (confines_modifySession ho (fun _ _ hc => Or.inl hc)
    (fun s c hc => ?_) fun _ _ he => Or.inl he) fun _ _ => ?_
  · obtain ⟨i, hi⟩ := (InsertionMap.mem_values_iff _ c).mp hc
    rw [InsertionMap.get?_set] at hi
    split at hi
    · exact Or.inr (Option.some.inj hi ▸ hws)
    · exact Or.inl ((InsertionMap.mem_values_iff _ c).mpr ⟨i, hi⟩)
  refine (confines_count _).bind fun _ _ => ?_
  refine Confined.bind (confines_on hws (l := .viewerMessage o) ho) fun _ _ => ?_
  refine (confines_agentOpen ho).bind fun connected _ => ?_
  refine Confined.ite
    (Confined.bind (confines_send hws (Or.inr rfl)) fun _ _ => ?_)
    (Confined.bind (confines_send hws (Or.inr rfl)) fun _ _ => ?_)
  -- both branches go on with the same three calls
  all_goals
    refine Confined.bind (confines_on hws (l := .viewerClose k o (toString now)) ⟨ho, hk⟩)
      fun _ _ => ?_
    refine Confined.bind (confines_on hws (l := .viewerError o (toString now)) ho) fun _ _ => ?_
    exact confines_setupPingPong hws

/-- Finding or making the compartment's own session stays inside. -/
theorem confines_createSession (hws : C.members ws) (hk : C.key = some k) (now : ℕ) :
    C.Confines (fun _ => True) (createSession ws k now) := by
  refine Confined.bind (confines_modifySession hws (fun _ _ hc => by cases hc)
    (fun _ _ hc => by cases hc) fun _ _ he => by cases he) fun _ _ => ?_
  refine confines_sessions hk (f := fun m => m.set k ws) (fun m n _ => ?_) (fun m p hp => ?_)
    fun m l hl => ?_
  · rw [InsertionMap.get?_set_self, InsertionMap.get?_set_self]
  · rw [InsertionMap.get?_set_self] at hp
    exact Or.inr (Option.some.inj hp ▸ hws)
  · exact InsertionMap.get?_set_of_ne m hl ws

/-- The `'connection'` handler stays with the session id it reads, if it gets that far. -/
theorem confines_onConnection (hws : C.members ws) {parsed : Except JsError ParsedUrl}
    (hkey : ∀ parsedUrl, parsed = .ok parsedUrl → C.key = parsedUrl.sessionId.key ws) (now : ℕ) :
    C.Confines (fun _ => True) (onConnection ws parsed now) := by
  refine Confined.bind (confines_count _) fun _ _ => ?_
  refine Confined.bind (Confined.orThrow hkey) fun parsedUrl hkey => ?_
  cases hparsed : parsedUrl.sessionId.key ws with
  | none => exact confines_turnAway hws _ _
  | some k =>
      have hk : C.key = some k := hkey.trans hparsed
      have hhas : C.Confines (fun _ => True) (readState fun σ => σ.sessions.has k) :=
        Confined.readState fun σ τ _ _ h => ⟨congrArg Option.isSome (h.sessions k hk), trivial⟩
      refine hhas.bind fun found _ => ?_
      refine Confined.ite
        (Confined.bind (confines_createSession hws hk now) fun _ _ => ?_) ?_
      -- both branches go on with the session lookup
      all_goals
        refine (confines_lookUp hk).bind fun session hsession => ?_
        cases session with
        | none => exact Confined.throw _
        | some o =>
            have ho : C.members o := hsession o rfl
            refine (confines_touch ho now).bind fun _ _ => ?_
            refine Confined.ite (confines_handleAgentConnection hws ho hk) ?_
            exact Confined.ite (confines_handleViewerConnection hws ho hk now)
              (confines_turnAway hws _ _)

end Compartment

end BrowCast
