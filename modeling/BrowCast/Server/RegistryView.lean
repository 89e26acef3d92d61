import BrowCast.Server.Registry
import BrowCast.Server.Transitions

/-! # The registry of a server process

`Server.registry` reads the bookkeeping off the process state. Each update of the process shows in
it as the corresponding part of a registry step, and the message handlers do not show in it at
all. -/

namespace BrowCast

/-- The status a frame tells its receiver, when it is an `agent_status` frame of the server. -/
def Outgoing.status : Outgoing → Option Bool
  | .agentStatus connected => some connected
  | _ => none

/-- The last `agent_status` among frames. -/
def lastStatus (sent : List Outgoing) : Option Bool := (sent.filterMap Outgoing.status).getLast?

/-- The last status of a longer record is that of the newer part, if it has one. -/
theorem lastStatus_append (sent frames : List Outgoing) :
    lastStatus (sent ++ frames) = (lastStatus frames).or (lastStatus sent) := by
  rw [lastStatus, List.filterMap_append, List.getLast?_append]
  rfl

/-- Frames that tell no status leave the last one. -/
theorem lastStatus_append_of_quiet {frames : List Outgoing} (h : ∀ f ∈ frames, f.status = none)
    (sent : List Outgoing) : lastStatus (sent ++ frames) = lastStatus sent := by
  have hnil : frames.filterMap Outgoing.status = [] := List.filterMap_eq_nil_iff.mpr h
  rw [lastStatus_append, lastStatus, hnil]
  rfl

/-- Repeating a status leaves it the last. -/
theorem lastStatus_replicate (n : ℕ) (connected : Bool) :
    lastStatus (List.replicate n (.agentStatus connected)) =
      if n = 0 then none else some connected := by
  rw [lastStatus, List.filterMap_replicate_of_some (f := Outgoing.status) (b := connected) rfl]
  exact List.getLast?_replicate

namespace Server

/-- The bookkeeping of the process. -/
def registry (σ : Server) : Registry where
  arrivals := σ.arrivals
  readyState c := (σ.conn c).readyState
  errored c := (σ.conn c).errored
  acceptance c := (σ.conn c).acceptance
  agent o := (σ.sessionAt o).agent
  viewers o i := (σ.sessionAt o).viewers.get? i
  sessions k := σ.sessions.get? k
  told c := lastStatus (σ.conn c).sent

/-! ## How the updates of the process read in the registry -/

section Updates

variable (σ : Server) (ws : ConnId) (o : SessionRef) (i : String)

/-- The counters are not in the registry's view. -/
@[simp] theorem registry_count (f : ConnectionState → ConnectionState) :
    (σ.count f).registry = σ.registry := rfl

/-- A change to a session object shows in its slot and its viewers. -/
theorem registry_modifySession (f : Session → Session) :
    (σ.modifySession o f).registry =
      { σ.registry with
        agent := Function.update σ.registry.agent o (f (σ.sessionAt o)).agent
        viewers := Function.update σ.registry.viewers o (f (σ.sessionAt o)).viewers.get? } := by
  ext1 <;> try rfl
  · funext p
    simp only [registry, sessionAt_modifySession, Function.update_apply]
    split <;> rfl
  · funext p j
    simp only [registry, sessionAt_modifySession, Function.update_apply]
    split <;> rfl

/-- A change that keeps the slot and the viewers is not seen. -/
theorem registry_modifySession_of_same {f : Session → Session}
    (hagent : (f (σ.sessionAt o)).agent = (σ.sessionAt o).agent)
    (hviewers : (f (σ.sessionAt o)).viewers = (σ.sessionAt o).viewers) :
    (σ.modifySession o f).registry = σ.registry := by
  rw [registry_modifySession, hagent, hviewers]
  ext1 <;> try rfl
  · exact Function.update_eq_self o σ.registry.agent
  · exact Function.update_eq_self o σ.registry.viewers

/-- Writing the slot of a session object writes the registry's. -/
theorem registry_setAgent (c : Option ConnId) :
    (σ.modifySession o fun s => { s with agent := c }).registry = σ.registry.setAgent o c := by
  rw [registry_modifySession]
  ext1 <;> try rfl
  exact Function.update_eq_self o σ.registry.viewers

/-- Changes to the viewers and the screens of a session object that write one viewer id. -/
theorem registry_setViewer {f : Session → Session} (c : Option ConnId)
    (hagent : (f (σ.sessionAt o)).agent = (σ.sessionAt o).agent)
    (hviewers : ∀ j, (f (σ.sessionAt o)).viewers.get? j =
      if j = i then c else (σ.sessionAt o).viewers.get? j) :
    (σ.modifySession o f).registry = σ.registry.setViewer o i c := by
  rw [registry_modifySession, hagent]
  ext1 <;> try rfl
  · exact Function.update_eq_self o σ.registry.agent
  · funext p j
    simp only [Registry.setViewer_viewers, Function.update_apply]
    by_cases hp : p = o
    · rw [if_pos hp, hviewers, hp]
      simp [registry]
    · rw [if_neg hp, if_neg fun h => hp h.1]

/-- A change to a socket shows in its state, its error flag, its listeners and what it was told. -/
theorem registry_modifyConn (f : Conn → Conn) :
    (σ.modifyConn ws f).registry =
      { σ.registry with
        readyState := Function.update σ.registry.readyState ws (f (σ.conn ws)).readyState
        errored := Function.update σ.registry.errored ws (f (σ.conn ws)).errored
        acceptance := Function.update σ.registry.acceptance ws (f (σ.conn ws)).acceptance
        told := Function.update σ.registry.told ws (lastStatus (f (σ.conn ws)).sent) } := by
  ext1 <;> try rfl
  all_goals
    funext c
    simp only [registry, conn_modifyConn, Function.update_apply]
    split <;> rfl

/-- A change to a socket that keeps its error flag, its listeners and what it was told. -/
theorem registry_setState {f : Conn → Conn} {state : ReadyState}
    (hstate : (f (σ.conn ws)).readyState = state)
    (herrored : (f (σ.conn ws)).errored = (σ.conn ws).errored)
    (hlisteners : (f (σ.conn ws)).listeners = (σ.conn ws).listeners)
    (hsent : lastStatus (f (σ.conn ws)).sent = lastStatus (σ.conn ws).sent) :
    (σ.modifyConn ws f).registry = σ.registry.setState ws state := by
  have hacceptance : (f (σ.conn ws)).acceptance = (σ.conn ws).acceptance := by
    rw [Conn.acceptance, hlisteners, Conn.acceptance]
  rw [registry_modifyConn, hstate, herrored, hacceptance, hsent]
  ext1 <;> try rfl
  · exact Function.update_eq_self ws σ.registry.errored
  · exact Function.update_eq_self ws σ.registry.acceptance
  · exact Function.update_eq_self ws σ.registry.told

/-- When it keeps its state as well, nothing is seen. -/
theorem registry_modifyConn_of_same {f : Conn → Conn}
    (hstate : (f (σ.conn ws)).readyState = (σ.conn ws).readyState)
    (herrored : (f (σ.conn ws)).errored = (σ.conn ws).errored)
    (hlisteners : (f (σ.conn ws)).listeners = (σ.conn ws).listeners)
    (hsent : lastStatus (f (σ.conn ws)).sent = lastStatus (σ.conn ws).sent) :
    (σ.modifyConn ws f).registry = σ.registry := by
  rw [registry_setState σ ws hstate herrored hlisteners hsent]
  ext1 <;> try rfl
  exact Function.update_eq_self ws σ.registry.readyState

/-- Marking a socket as failed marks it in the registry. -/
theorem registry_setErrored :
    (σ.modifyConn ws fun w => { w with errored := true }).registry = σ.registry.setErrored ws := by
  rw [registry_modifyConn]
  ext1 <;> try rfl
  · exact Function.update_eq_self ws σ.registry.readyState
  · exact Function.update_eq_self ws σ.registry.acceptance
  · exact Function.update_eq_self ws σ.registry.told

/-- Sending shows in what the receivers were told only. -/
theorem registry_deliver (frames : List (ConnId × Outgoing)) :
    (σ.deliver frames).registry =
      { σ.registry with
        told := fun c =>
          if (σ.conn c).readyState = .OPEN then
            (lastStatus (addressed c frames)).or (σ.registry.told c)
          else σ.registry.told c } := by
  ext1 <;> simp only [registry, arrivals_deliver, sessionAt_deliver, sessions_deliver, conn_deliver]
  · rfl
  · funext c
    rw [lastStatus_append]
    split <;> rfl

/-- Frames that carry no status are not seen. -/
theorem registry_deliver_of_quiet {frames : List (ConnId × Outgoing)}
    (h : ∀ f ∈ frames, f.2.status = none) : (σ.deliver frames).registry = σ.registry := by
  have hquiet : ∀ c, lastStatus (addressed c frames) = none := by
    intro c
    have hnil : (addressed c frames).filterMap Outgoing.status = [] := by
      refine List.filterMap_eq_nil_iff.mpr fun data hdata => ?_
      exact h (c, data) (mem_addressed_iff.mp hdata)
    rw [lastStatus, hnil]
    rfl
  rw [registry_deliver]
  ext1 <;> try rfl
  funext c
  simp [hquiet]

/-- A status broadcast tells exactly the OPEN stored viewers. -/
theorem registry_broadcast_status (connected : Bool) :
    (σ.deliver (broadcast (σ.sessionAt o).viewers.values (.agentStatus connected))).registry =
      σ.registry.tell o connected := by
  rw [registry_deliver]
  ext1 <;> try rfl
  funext c
  -- a socket that is listed under several ids hears the same several times
  simp only [Registry.tell_told, addressed_broadcast, lastStatus_replicate]
  have hstored : (σ.sessionAt o).viewers.values.count c = 0 ↔
      ¬ ∃ i, σ.registry.viewers o i = some c := by
    rw [List.count_eq_zero, InsertionMap.mem_values_iff]
    rfl
  by_cases hhears : σ.registry.Hears o c
  · have hcount : ¬ (σ.sessionAt o).viewers.values.count c = 0 := fun h =>
      hstored.mp h hhears.2
    have hopen : (σ.conn c).readyState = .OPEN := hhears.1
    rw [if_pos hhears, if_pos hopen, if_neg hcount, Option.some_or]
  · rw [if_neg hhears]
    by_cases hopen : (σ.conn c).readyState = .OPEN
    · have hcount : (σ.sessionAt o).viewers.values.count c = 0 :=
        hstored.mpr fun hex => hhears ⟨hopen, hex⟩
      rw [if_pos hopen, if_pos hcount, Option.none_or]
    · rw [if_neg hopen]

/-- Cleaning up an empty session drops it from the registry when it is vacant. -/
theorem registry_dropIfEmpty (k : SessionId) :
    (σ.dropIfEmpty k).registry = σ.registry.dropIfVacant k := by
  -- vacant in the registry is empty in the store
  have hvacant : σ.registry.Vacant k ↔ ∃ o, σ.sessions.get? k = some o ∧
      (σ.sessionAt o).agent = none ∧ (σ.sessionAt o).viewers.size = 0 := by
    simp only [Registry.Vacant, registry, InsertionMap.size_eq_zero_iff]
  unfold dropIfEmpty
  cases hget : σ.sessions.get? k with
  | none =>
      have hnot : ¬ σ.registry.Vacant k := by rw [hvacant]; simp [hget]
      ext1 <;> try rfl
      funext l
      simp [hnot]
  | some o =>
      rw [hget] at hvacant
      simp only [Option.some.injEq, exists_eq_left'] at hvacant
      by_cases hempty : (σ.sessionAt o).agent = none ∧ (σ.sessionAt o).viewers.size = 0
      · simp only [hempty, and_self, if_true]
        ext1 <;> try rfl
        funext l
        have hdropped : (l = k ∧ σ.registry.Vacant k) = (l = k) := by simp [hvacant.mpr hempty]
        simp only [Registry.dropIfVacant_sessions, hdropped]
        exact σ.sessions.get?_delete k l
      · simp only [hempty, if_false]
        ext1 <;> try rfl
        funext l
        rw [Registry.dropIfVacant_sessions, if_neg fun h => hempty (hvacant.mp h.2)]

end Updates

/-- Whether an exception ended the process is not seen. -/
theorem registry_settle (result : EStateM.Result JsError Server Unit) :
    (settle result).registry = (finalState result).registry := by cases result <;> rfl

/-- Settling a result touches no connection. -/
theorem conn_settle (result : EStateM.Result JsError Server Unit) :
    (settle result).conn = (finalState result).conn := by cases result <;> rfl

/-! ## Messages change nothing in the registry -/

/-- The registry and the attached listeners are the same. -/
structure Quiet (σ τ : Server) : Prop where
  registry : τ.registry = σ.registry
  listeners : ∀ c, (τ.conn c).listeners = (σ.conn c).listeners

namespace Quiet

variable {σ : Server}

/-- Changing a session object other than its agent and viewers is quiet. -/
theorem modifySession (o : SessionRef) {f : Session → Session}
    (hagent : ∀ s, (f s).agent = s.agent) (hviewers : ∀ s, (f s).viewers = s.viewers) :
    Quiet σ (σ.modifySession o f) :=
  ⟨registry_modifySession_of_same σ o (hagent _) (hviewers _), fun _ => rfl⟩

/-- Changing a connection other than its state, error mark, listeners and last status is quiet. -/
theorem modifyConn (ws : ConnId) {f : Conn → Conn} (hstate : ∀ w, (f w).readyState = w.readyState)
    (herrored : ∀ w, (f w).errored = w.errored) (hlisteners : ∀ w, (f w).listeners = w.listeners)
    (hsent : ∀ w, lastStatus (f w).sent = lastStatus w.sent) : Quiet σ (σ.modifyConn ws f) where
  registry := registry_modifyConn_of_same σ ws (hstate _) (herrored _) (hlisteners _) (hsent _)
  listeners := fun c => modifyConn_keeps σ ws c Conn.listeners (hlisteners _)

/-- Sending a frame that is no status is quiet. -/
theorem send (ws : ConnId) {data : Outgoing} (hdata : data.status = none) :
    Quiet σ (σ.send ws data) := by
  have hquiet : ∀ f ∈ [(ws, data)], f.2.status = none := by simpa using hdata
  exact ⟨registry_deliver_of_quiet σ hquiet, fun c => listeners_deliver σ c [(ws, data)]⟩

end Quiet

/-- Handlers that leave the registry and the listeners alone. -/
def quietly : Policy Server where
  Inv _ := True
  Agree := Eq
  Frame := Quiet
  agree_refl _ := rfl
  frame_refl _ := ⟨rfl, fun _ => rfl⟩
  frame_trans h h' :=
    ⟨h'.registry.trans h.registry, fun c => (h'.listeners c).trans (h.listeners c)⟩

/-- A handler that leaves the registry and the listeners alone. -/
abbrev IsQuiet {α : Type} (x : Handler α) : Prop := Confined quietly (fun _ => True) x

end Server

open Server

/-- A handler made of a quiet change is quiet. -/
theorem isQuiet_modify {f : Server → Server} (h : ∀ σ, Quiet σ (f σ)) :
    IsQuiet (modify f) :=
  Confined.modify fun s _ _ _ hst => ⟨trivial, h s, congrArg f hst⟩

/-- Reading the state is quiet. -/
theorem isQuiet_readState {α : Type} (g : Server → α) : IsQuiet (readState g) :=
  Confined.readState fun _ _ _ _ hst => ⟨congrArg g hst, trivial⟩

/-- Throwing is quiet. -/
theorem isQuiet_orThrow {α : Type} (r : Except JsError α) : IsQuiet (orThrow r : Handler α) :=
  Confined.orThrow fun _ _ => trivial

/-- So is sending a frame that is no status. -/
theorem isQuiet_send (ws : ConnId) {data : Outgoing} (hdata : data.status = none) :
    IsQuiet (send ws data) := isQuiet_modify fun _ => Quiet.send ws hdata

/-- So is sending one to all viewers. -/
theorem isQuiet_sendToViewers (session : SessionRef) {data : Server → Outgoing}
    (hdata : ∀ σ, (data σ).status = none) : IsQuiet (sendToViewers session data) := by
  refine (isQuiet_readState _).bind fun viewers _ => Confined.forM fun viewerWs _ => ?_
  refine (isQuiet_readState _).bind fun state _ => Confined.ite ?_ (Confined.pure trivial)
  exact (Confined.readState (Q := fun d => d.status = none) fun σ τ _ _ hst =>
    ⟨congrArg data hst, hdata σ⟩).bind fun d hd => isQuiet_send viewerWs hd

/-- So is noting the time of activity. -/
theorem isQuiet_touch (session : SessionRef) (now : ℕ) : IsQuiet (touch session now) :=
  isQuiet_modify fun _ => Quiet.modifySession session (fun _ => rfl) fun _ => rfl

/-- So is telling the viewers their scales. -/
theorem isQuiet_updateClientScales (session : SessionRef) (agentScreen : AgentScreen) :
    IsQuiet (updateClientScales session agentScreen) := by
  refine (isQuiet_readState _).bind fun entries _ => Confined.forM fun entry _ => ?_
  refine (isQuiet_readState _).bind fun state _ => Confined.ite ?_ (Confined.pure trivial)
  exact (isQuiet_orThrow _).bind fun scale _ => isQuiet_send entry.1 rfl

/-- The branch for an announced screen is quiet. -/
theorem isQuiet_onScreenInfo (session : SessionRef) (msg : Json) :
    IsQuiet (onScreenInfo session msg) := by
  refine (isQuiet_modify fun _ => Quiet.modifySession session
    (f := fun s => { s with agentScreen := some (screenOf msg) }) (fun _ => rfl)
    fun _ => rfl).bind fun _ _ => ?_
  refine (isQuiet_orThrow _).bind fun _ _ => (isQuiet_orThrow _).bind fun _ _ =>
    (isQuiet_orThrow _).bind fun _ _ => ?_
  exact isQuiet_updateClientScales session (screenOf msg)

/-- Every message of an agent is quiet. -/
theorem isQuiet_agentMessage (ws : ConnId) (session : SessionRef) (message : Message) (now : ℕ) :
    IsQuiet (agentMessage ws session message now) := by
  refine (isQuiet_touch session now).bind fun _ _ => Confined.swallow ?_
  refine (isQuiet_orThrow _).bind fun msg _ => (isQuiet_orThrow _).bind fun type _ => ?_
  have hforward : IsQuiet (sendToViewers session fun σ =>
      .forward ws (forwardCopy msg (σ.sessionAt session).agentScreen)) :=
    isQuiet_sendToViewers session fun _ => rfl
  exact Confined.ite ((isQuiet_onScreenInfo session msg).bind fun _ _ => hforward) hforward

/-- The branch for a viewer's report is quiet. -/
theorem isQuiet_onClientInfo (ws : ConnId) (session : SessionRef) (msg : Json) :
    IsQuiet (onClientInfo ws session msg) := by
  refine (isQuiet_modify fun _ => Quiet.modifyConn ws (f := fun w => { w with
    viewerInfo := w.viewerInfo.map fun info => { info with screenInfo := msg.member "screen" } })
    (fun _ => rfl) (fun _ => rfl) (fun _ => rfl) fun _ => rfl).bind fun _ _ => ?_
  refine (isQuiet_modify fun _ => Quiet.modifySession session (f := fun s => { s with
    clientScreens := s.clientScreens.set ws (msg.member "screen") })
    (fun _ => rfl) fun _ => rfl).bind fun _ _ => ?_
  refine (isQuiet_orThrow _).bind fun _ _ => (isQuiet_orThrow _).bind fun _ _ =>
    (isQuiet_orThrow _).bind fun _ _ => (isQuiet_orThrow _).bind fun _ _ =>
    (isQuiet_orThrow _).bind fun _ _ => (isQuiet_orThrow _).bind fun _ _ => ?_
  refine (isQuiet_readState _).bind fun agentScreen _ => ?_
  cases agentScreen with
  | none =>
      -- no agent has announced its screen yet: there is nothing to scale to
      exact Confined.pure trivial
  | some screen => exact (isQuiet_orThrow _).bind fun scale _ => isQuiet_send ws rfl

/-- Passing on input is quiet. -/
theorem isQuiet_forwardInput (ws : ConnId) (session : SessionRef) (message : Message) :
    IsQuiet (forwardInput ws session message) := by
  refine (isQuiet_readState _).bind fun agent _ => ?_
  cases agent with
  | none => exact Confined.pure trivial
  | some agent =>
      refine (isQuiet_readState _).bind fun state _ => ?_
      exact Confined.ite (isQuiet_send agent rfl) (Confined.pure trivial)

/-- Every message of a viewer is quiet. -/
theorem isQuiet_viewerMessage (ws : ConnId) (session : SessionRef) (message : Message) (now : ℕ) :
    IsQuiet (viewerMessage ws session message now) := by
  refine (isQuiet_touch session now).bind fun _ _ => Confined.swallow ?_
  refine (isQuiet_orThrow _).bind fun msg _ => (isQuiet_orThrow _).bind fun type _ => ?_
  exact Confined.ite (isQuiet_onClientInfo ws session msg) (isQuiet_forwardInput ws session message)

/-- An event is quiet when its listeners are. -/
theorem isQuiet_emit (ws : ConnId) {run : Listener → Handler Unit} (h : ∀ l, IsQuiet (run l)) :
    IsQuiet (emit ws run) :=
  (isQuiet_readState _).bind fun _ _ => Confined.forM fun l _ => h l

/-- A message event is quiet, whatever is attached to the socket. -/
theorem isQuiet_onMessage (ws : ConnId) (message : Message) (now : ℕ) :
    IsQuiet (emit ws (Listener.onMessage ws message now)) := by
  refine isQuiet_emit ws fun l => ?_
  cases l with
  | agentMessage o => exact isQuiet_agentMessage ws o message now
  | viewerMessage o => exact isQuiet_viewerMessage ws o message now
  | _ => exact Confined.pure trivial

/-- A pong is quiet. -/
theorem isQuiet_onPong (ws : ConnId) : IsQuiet (emit ws (Listener.onPong ws)) := by
  refine isQuiet_emit ws fun l => ?_
  cases l with
  | heartbeatPong =>
      exact isQuiet_modify fun _ => Quiet.modifyConn ws (f := fun w => { w with isAlive := true })
        (fun _ => rfl) (fun _ => rfl) (fun _ => rfl) fun _ => rfl
  | _ => exact Confined.pure trivial

/-- What a quiet handler leaves behind, also when it throws. -/
theorem quiet_settle {x : Handler Unit} (hx : IsQuiet x) (σ : Server) :
    Quiet σ (settle (x.run σ)) := by
  have h := (Confined.frame hx (s := σ) trivial).1
  exact ⟨(registry_settle _).trans h.registry, fun c => by rw [conn_settle]; exact h.listeners c⟩

end BrowCast
