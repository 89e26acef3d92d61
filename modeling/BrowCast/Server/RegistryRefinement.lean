import BrowCast.Server.RegistryView

/-! # The relay server refines its registry

`Server.action` says what an event means for the bookkeeping. Every step of the relay is the
registry step of its action (`relay_mapsTo_registry`), so what is proved about runs of the registry
holds of runs of the server. -/

namespace BrowCast

namespace Server

/-- What the error event of a connection means, by its acceptance. -/
def errorAction (ws : ConnId) : Option Acceptance → Registry.Action
  | some (.viewer k o i) => .failViewer ws k o i
  | _ => .fail ws

/-- What the close event of a connection means, by its acceptance. -/
def closeAction (ws : ConnId) : Option Acceptance → Registry.Action
  | none => .leave ws
  | some (.agent k o) => .leaveAgent ws k o
  | some (.viewer k o i) => .leaveViewer ws k o i

/-- What an event means for the bookkeeping. -/
def action (σ : Server) : Event → Registry.Action
  | .connect ws parsedUrl now =>
      match (σ.arrive ws parsedUrl).verdict ws parsedUrl with
      | .agent sessionId => .admitAgent ws sessionId
      | .viewer sessionId => .admitViewer ws sessionId (toString now)
      | .turnedAway _ _ => .turnAway ws (parsedUrl.sessionId.key ws)
  | .unparsable ws => .arrive ws
  | .closing ws => .closing ws
  | .message _ _ _ | .pong _ => .rest
  | .tick ws =>
      -- a socket that did not answer the last ping is terminated
      if (σ.conn ws).readyState = .OPEN ∧ (σ.conn ws).isAlive = false then .closing ws else .rest
  | .error ws => errorAction ws (σ.conn ws).acceptance
  | .close ws => closeAction ws (σ.conn ws).acceptance

section Actions

/-- The event an action of the bookkeeping comes from. -/
def ComesFrom (σ : Server) (e : Event) : Registry.Action → Prop
  | .admitAgent c k => ∃ parsedUrl now, e = .connect c parsedUrl now ∧
      (σ.arrive c parsedUrl).verdict c parsedUrl = .agent k
  | .admitViewer c k i => ∃ parsedUrl now, e = .connect c parsedUrl now ∧ i = toString now ∧
      (σ.arrive c parsedUrl).verdict c parsedUrl = .viewer k
  | .turnAway c k => ∃ parsedUrl now, e = .connect c parsedUrl now ∧
      k = parsedUrl.sessionId.key c ∧
        ∃ code reason, (σ.arrive c parsedUrl).verdict c parsedUrl = .turnedAway code reason
  | .failViewer c k o i => e = .error c ∧ (σ.conn c).acceptance = some (.viewer k o i)
  | .leaveAgent c k o => e = .close c ∧ (σ.conn c).acceptance = some (.agent k o)
  | .leaveViewer c k o i => e = .close c ∧ (σ.conn c).acceptance = some (.viewer k o i)
  | .arrive c => e = .unparsable c
  | .closing _ | .fail _ | .leave _ | .rest => True

/-- The action of an event comes from it. -/
theorem comesFrom_action (σ : Server) (e : Event) : σ.ComesFrom e (σ.action e) := by
  cases e with
  | connect ws parsedUrl now =>
      -- an arrival is what its verdict says
      cases hverdict : (σ.arrive ws parsedUrl).verdict ws parsedUrl with
      | agent k =>
          simp only [action, hverdict]
          exact ⟨parsedUrl, now, rfl, hverdict⟩
      | viewer k =>
          simp only [action, hverdict]
          exact ⟨parsedUrl, now, rfl, rfl, hverdict⟩
      | turnedAway code reason =>
          simp only [action, hverdict]
          exact ⟨parsedUrl, now, rfl, rfl, code, reason, hverdict⟩
  | unparsable ws => rfl
  | tick ws =>
      show σ.ComesFrom _ (ite _ _ _)
      split <;> trivial
  | error ws =>
      -- errors are of consequence to viewers only
      show σ.ComesFrom _ (errorAction ws (σ.conn ws).acceptance)
      rcases hacc : (σ.conn ws).acceptance with _ | ⟨k, o⟩ | ⟨k, o, i⟩
      · trivial
      · trivial
      · exact ⟨rfl, hacc⟩
  | close ws =>
      show σ.ComesFrom _ (closeAction ws (σ.conn ws).acceptance)
      rcases hacc : (σ.conn ws).acceptance with _ | ⟨k, o⟩ | ⟨k, o, i⟩
      · trivial
      · exact ⟨rfl, hacc⟩
      · exact ⟨rfl, hacc⟩
  | _ => trivial

variable {σ : Server} {e : Event} {c : ConnId} {k : SessionId} {o : SessionRef} {i : String}

/-- So does an action known to be equal to it. -/
theorem comesFrom_of_action_eq {a : Registry.Action} (h : σ.action e = a) : σ.ComesFrom e a :=
  h ▸ σ.comesFrom_action e

/-- An agent is admitted at a connect whose verdict says so. -/
theorem action_eq_admitAgent_iff : σ.action e = .admitAgent c k ↔
    ∃ parsedUrl now, e = .connect c parsedUrl now ∧
      (σ.arrive c parsedUrl).verdict c parsedUrl = .agent k := by
  refine ⟨comesFrom_of_action_eq, ?_⟩
  rintro ⟨parsedUrl, now, rfl, hverdict⟩
  simp only [action, hverdict]

/-- A viewer is admitted at a connect whose verdict says so, under the clock reading of that moment.
-/
theorem action_eq_admitViewer_iff : σ.action e = .admitViewer c k i ↔
    ∃ parsedUrl now, e = .connect c parsedUrl now ∧ i = toString now ∧
      (σ.arrive c parsedUrl).verdict c parsedUrl = .viewer k := by
  refine ⟨comesFrom_of_action_eq, ?_⟩
  rintro ⟨parsedUrl, now, rfl, rfl, hverdict⟩
  simp only [action, hverdict]

/-- A connection is turned away at a connect whose verdict gives a code and a reason. -/
theorem action_eq_turnAway_iff {l : Option SessionId} : σ.action e = .turnAway c l ↔
    ∃ parsedUrl now, e = .connect c parsedUrl now ∧ l = parsedUrl.sessionId.key c ∧
      ∃ code reason, (σ.arrive c parsedUrl).verdict c parsedUrl = .turnedAway code reason := by
  refine ⟨comesFrom_of_action_eq, ?_⟩
  rintro ⟨parsedUrl, now, rfl, rfl, code, reason, hverdict⟩
  simp only [action, hverdict]

/-- A connection merely arrives when its URL does not parse. -/
theorem action_eq_arrive_iff : σ.action e = .arrive c ↔ e = .unparsable c :=
  ⟨comesFrom_of_action_eq, by rintro rfl; rfl⟩

/-- A viewer fails at its error event. -/
theorem action_eq_failViewer_iff : σ.action e = .failViewer c k o i ↔
    e = .error c ∧ (σ.conn c).acceptance = some (.viewer k o i) := by
  refine ⟨comesFrom_of_action_eq, ?_⟩
  rintro ⟨rfl, hacc⟩
  simp only [action, hacc, errorAction]

/-- An agent leaves at its close event. -/
theorem action_eq_leaveAgent_iff : σ.action e = .leaveAgent c k o ↔
    e = .close c ∧ (σ.conn c).acceptance = some (.agent k o) := by
  refine ⟨comesFrom_of_action_eq, ?_⟩
  rintro ⟨rfl, hacc⟩
  simp only [action, hacc, closeAction]

/-- A viewer leaves at its close event. -/
theorem action_eq_leaveViewer_iff : σ.action e = .leaveViewer c k o i ↔
    e = .close c ∧ (σ.conn c).acceptance = some (.viewer k o i) := by
  refine ⟨comesFrom_of_action_eq, ?_⟩
  rintro ⟨rfl, hacc⟩
  simp only [action, hacc, closeAction]

end Actions

/-- The listeners attached to a socket are none, or those of one acceptance; and the bookkeeping is
sound. -/
structure WellFormed (σ : Server) : Prop where
  attached : ∀ c, (σ.conn c).listeners = [] ∨ ∃ a : Acceptance, (σ.conn c).listeners = a.listeners
  sound : σ.registry.Sound

/-- A server that has seen nothing is well formed. -/
theorem wellFormed_start : relay.start.WellFormed where
  attached := fun _ => Or.inl rfl
  sound := Registry.sound_initial

section Acceptance

variable {σ : Server} {c : ConnId} {a : Acceptance}

/-- The acceptance of a connection can be read off its listeners. -/
theorem acceptance_of_listeners (h : (σ.conn c).listeners = a.listeners) :
    (σ.conn c).acceptance = some a := by rw [Conn.acceptance, h, Acceptance.findSome?_listeners]

/-- An accepted connection has the listeners of its acceptance. -/
theorem WellFormed.listeners_of_acceptance (h : σ.WellFormed)
    (ha : (σ.conn c).acceptance = some a) : (σ.conn c).listeners = a.listeners := by
  rcases h.attached c with hnil | ⟨b, hb⟩
  · rw [Conn.acceptance, hnil] at ha
    cases ha
  · rw [acceptance_of_listeners hb] at ha
    rw [hb, Option.some.inj ha]

/-- A connection that was not accepted has none. -/
theorem WellFormed.listeners_of_none (h : σ.WellFormed) (ha : (σ.conn c).acceptance = none) :
    (σ.conn c).listeners = [] := by
  rcases h.attached c with hnil | ⟨b, hb⟩
  · exact hnil
  · rw [acceptance_of_listeners hb] at ha
    cases ha

end Acceptance

/-! ## Arrivals -/

section Arrivals

variable {σ : Server} {ws : ConnId}

/-- A socket that has not arrived has no place in the registry yet. -/
theorem registry_arrive (hsound : σ.registry.Sound) (hnew : ws ∉ σ.arrivals)
    (parsedUrl : ParsedUrl) : (σ.arrive ws parsedUrl).registry = σ.registry.enter ws .OPEN := by
  have herrored : σ.registry.errored ws = false := by
    cases h : σ.registry.errored ws with
    | false => rfl
    | true => exact absurd (hsound.failed ws h) hnew
  have hacceptance : σ.registry.acceptance ws = none :=
    Option.eq_none_iff_forall_ne_some.mpr fun a h => hnew (hsound.accepted ws a h).1
  have htold : σ.registry.told ws = none :=
    Option.eq_none_iff_forall_ne_some.mpr fun b h => hnew (hsound.informed ws b h)
  ext1 <;> try rfl
  all_goals
    funext c
    simp only [registry, arrive, Registry.enter, Function.update_apply]
    split
    · rename_i hc
      subst hc
      first | exact herrored.symm | exact hacceptance.symm | exact htold.symm | rfl
    · rfl

/-- Finding or creating the session object is a join of the registry. -/
theorem registry_joinSession (hagent : σ.registry.agent ws = none)
    (hviewers : ∀ i, σ.registry.viewers ws i = none) (k : SessionId) (now : ℕ) :
    (σ.joinSession ws k now).registry = σ.registry.join (some k) ws := by
  cases hget : σ.sessions.get? k with
  | some o =>
      rw [joinSession_of_some hget, registry_modifySession_of_same _ _ (by rfl) (by rfl)]
      ext1 <;> try rfl
      funext l
      rw [Registry.join_sessions]
      by_cases hl : k = l
      · subst hl
        simp [Registry.sessionFor, registry, hget]
      · simp [hl]
  | none =>
      rw [joinSession_of_none hget]
      -- writing the new object does not show: its slot and viewers were empty before
      have hcreated : (σ.modifySession ws fun _ =>
          { createdAt := now, lastActivity := now }).registry = σ.registry := by
        rw [registry_modifySession]
        ext1 <;> try rfl
        · exact Function.update_eq_self_iff.mpr hagent.symm
        · exact Function.update_eq_self_iff.mpr (funext fun i => (hviewers i).symm)
      have hset : ∀ τ : Server, { τ with sessions := σ.sessions.set k ws }.registry =
          { τ.registry with sessions := fun l => (σ.sessions.set k ws).get? l } := fun _ => rfl
      rw [hset, hcreated]
      ext1 <;> try rfl
      funext l
      rw [Registry.join_sessions]
      by_cases hl : l = k
      · subst hl
        simp [Registry.sessionFor, registry, hget, InsertionMap.get?_set]
      · have hkl : k ≠ l := fun h => hl h.symm
        simp [registry, InsertionMap.get?_set, hl, hkl]

/-- The bookkeeping of a new connection is an entry and a join of the registry. -/
theorem registry_enter (hsound : σ.registry.Sound) (hnew : ws ∉ σ.arrivals) (parsedUrl : ParsedUrl)
    (now : ℕ) :
    ((σ.arrive ws parsedUrl).enter ws parsedUrl now).registry =
      (σ.registry.enter ws .OPEN).join (parsedUrl.sessionId.key ws) ws := by
  obtain ⟨hagent, hviewers⟩ := hsound.empty_of_new hnew
  unfold enter
  cases hkey : parsedUrl.sessionId.key ws with
  | none =>
      simp only [registry_count, registry_arrive hsound hnew]
      rfl
  | some k =>
      simp only
      rw [registry_joinSession (by exact hagent) (by exact hviewers), registry_count,
        registry_arrive hsound hnew]

/-- Attaching the listeners of an acceptance to a socket without listeners accepts it. -/
theorem registry_attach {f : Conn → Conn} {a : Acceptance} (hnil : (σ.conn ws).listeners = [])
    (hstate : (f (σ.conn ws)).readyState = (σ.conn ws).readyState)
    (herrored : (f (σ.conn ws)).errored = (σ.conn ws).errored)
    (hlisteners : (f (σ.conn ws)).listeners = (σ.conn ws).listeners ++ a.listeners) :
    (σ.modifyConn ws f).registry =
      { σ.registry.accept ws a with
        told := Function.update σ.registry.told ws (lastStatus (f (σ.conn ws)).sent) } := by
  have hacceptance : (f (σ.conn ws)).acceptance = some a := by
    rw [Conn.acceptance, hlisteners, hnil, List.nil_append, Acceptance.findSome?_listeners]
  rw [registry_modifyConn, hstate, herrored, hacceptance]
  ext1 <;> try rfl
  · exact Function.update_eq_self ws σ.registry.readyState
  · exact Function.update_eq_self ws σ.registry.errored

/-- When it was told nothing meanwhile, nothing else is seen. -/
theorem registry_attach_of_quiet {f : Conn → Conn} {a : Acceptance}
    (hnil : (σ.conn ws).listeners = [])
    (hstate : (f (σ.conn ws)).readyState = (σ.conn ws).readyState)
    (herrored : (f (σ.conn ws)).errored = (σ.conn ws).errored)
    (hlisteners : (f (σ.conn ws)).listeners = (σ.conn ws).listeners ++ a.listeners)
    (hsent : (f (σ.conn ws)).sent = (σ.conn ws).sent) :
    (σ.modifyConn ws f).registry = σ.registry.accept ws a := by
  rw [registry_attach hnil hstate herrored hlisteners, hsent]
  ext1 <;> try rfl
  exact Function.update_eq_self ws σ.registry.told

/-- Accepting an agent fills the slot, tells the viewers and records the acceptance. -/
theorem registry_acceptAgent (hnil : (σ.conn ws).listeners = []) (k : SessionId) (o : SessionRef) :
    (σ.acceptAgent ws k o).registry =
      ((σ.registry.setAgent o (some ws)).tell o true).accept ws (.agent k o) := by
  unfold acceptAgent
  simp only
  rw [registry_attach_of_quiet (by simpa using hnil) rfl rfl rfl rfl, registry_broadcast_status,
    registry_count, registry_setAgent]

/-- Accepting a viewer stores it, records the acceptance and tells it about the agent. -/
theorem registry_acceptViewer (hnil : (σ.conn ws).listeners = []) (k : SessionId) (o : SessionRef)
    (i : String) :
    (σ.acceptViewer ws k o i).registry =
      let r := (σ.registry.setViewer o i (some ws)).accept ws (.viewer k o i)
      { r with told := Function.update r.told ws (some (σ.registry.agentOpen o)) } := by
  unfold acceptViewer
  rw [registry_attach (a := .viewer k o i) (by simpa using hnil) rfl rfl rfl, registry_count,
    registry_setViewer σ o i (some ws) rfl fun j => InsertionMap.get?_set ..]
  ext1 <;> try rfl
  show Function.update _ ws _ = _
  rw [lastStatus_append]
  rfl

/-- Turning a connection away only starts closing its socket. -/
theorem registry_turnAway (code : ℕ) (reason : String) :
    (finalState (σ.turnAway ws code reason)).registry = σ.registry.setState ws .CLOSING := by
  unfold turnAway
  split
  · exact registry_setState σ ws (f := fun w => { w with readyState := .CLOSING }) rfl rfl rfl rfl
  · rw [finalState_ok, registry_count]
    exact registry_setState σ ws rfl rfl rfl
      (lastStatus_append_of_quiet (by simp [Outgoing.status]) _)

/-- The registry step of a connection. -/
theorem registry_decided (hsound : σ.registry.Sound) (hnew : ws ∉ σ.arrivals)
    (parsedUrl : ParsedUrl) (now : ℕ) :
    (finalState ((σ.arrive ws parsedUrl).decided ws parsedUrl now)).registry =
      σ.registry.step (σ.action (.connect ws parsedUrl now)) := by
  have hentered := registry_enter hsound hnew parsedUrl now
  -- nobody listens to the newcomer yet
  have hfresh : (((σ.arrive ws parsedUrl).enter ws parsedUrl now).conn ws).listeners = [] := by
    rw [conn_enter]
    simp [arrive]
  unfold decided action
  cases hverdict : (σ.arrive ws parsedUrl).verdict ws parsedUrl with
  | agent k =>
      obtain ⟨hkey, -⟩ := (verdict_eq_agent_iff ..).mp hverdict
      rw [hkey] at hentered
      simp only [hverdict, finalState_ok]
      rw [registry_acceptAgent hfresh, hentered]
      rfl
  | viewer k =>
      obtain ⟨hkey, -⟩ := (verdict_eq_viewer_iff ..).mp hverdict
      rw [hkey] at hentered
      simp only [hverdict, finalState_ok]
      rw [registry_acceptViewer hfresh, hentered]
      rfl
  | turnedAway code reason =>
      simp only [hverdict]
      rw [registry_turnAway, hentered]
      rfl

/-- The registry step of a connection with a URL that cannot be parsed. -/
theorem registry_step_unparsable (hsound : σ.registry.Sound) (hnew : ws ∉ σ.arrivals) :
    (σ.step (.unparsable ws)).registry = σ.registry.step (σ.action (.unparsable ws)) := by
  rw [step_unparsable]
  exact registry_arrive hsound hnew _

end Arrivals

/-! ## Departures and errors -/

section Departures

variable {σ : Server} {ws : ConnId}

/-- An agent that leaves empties the slot, tells the viewers and drops the session if it is vacant.
-/
theorem registry_leave_agent (k : SessionId) (o : SessionRef) :
    (σ.leave ws (.agent k o)).registry =
      ((σ.registry.setAgent o none).tell o false).dropIfVacant k := by
  unfold leave
  simp only
  rw [registry_modifyConn_of_same _ ws rfl rfl rfl rfl, registry_dropIfEmpty,
    registry_broadcast_status, registry_count, registry_setAgent]

/-- A viewer that leaves is removed and drops the session if it is vacant. -/
theorem registry_leave_viewer (k : SessionId) (o : SessionRef) (i : String) :
    (σ.leave ws (.viewer k o i)).registry = (σ.registry.setViewer o i none).dropIfVacant k := by
  unfold leave
  simp only
  rw [registry_modifyConn_of_same _ ws rfl rfl rfl rfl, registry_dropIfEmpty, registry_count,
    registry_setViewer σ o i none rfl fun j => InsertionMap.get?_delete ..]

/-- A viewer that fails is removed, and nothing else. -/
theorem registry_fail_viewer (k : SessionId) (o : SessionRef) (i : String) :
    (σ.fail ws (.viewer k o i)).registry = σ.registry.setViewer o i none := by
  unfold fail
  rw [registry_count, registry_setViewer σ o i none rfl fun j => InsertionMap.get?_delete ..]

/-- The registry step of a close event. -/
theorem registry_step_close (hwf : σ.WellFormed) :
    (σ.step (.close ws)).registry = σ.registry.step (σ.action (.close ws)) := by
  have hclosed : (σ.modifyConn ws fun w => { w with readyState := .CLOSED }).registry =
      σ.registry.setState ws .CLOSED := registry_setState σ ws rfl rfl rfl rfl
  show (settle _).registry = σ.registry.step (closeAction ws (σ.conn ws).acceptance)
  rw [registry_settle]
  cases hacc : (σ.conn ws).acceptance with
  | none =>
      rw [run_emit_nil (by simpa using hwf.listeners_of_none hacc)]
      exact hclosed
  | some a =>
      rw [run_emit_onClose (a := a) (by simpa using hwf.listeners_of_acceptance hacc),
        finalState_ok]
      cases a with
      | agent k o => rw [registry_leave_agent, hclosed]; rfl
      | viewer k o i => rw [registry_leave_viewer, hclosed]; rfl

/-- The registry step of an error event. -/
theorem registry_step_error (hwf : σ.WellFormed) :
    (σ.step (.error ws)).registry = σ.registry.step (σ.action (.error ws)) := by
  have herrored := registry_setErrored σ ws
  show (settle _).registry = σ.registry.step (errorAction ws (σ.conn ws).acceptance)
  rw [registry_settle]
  cases hacc : (σ.conn ws).acceptance with
  | none =>
      rw [run_emitError_nil (by simpa using hwf.listeners_of_none hacc)]
      exact herrored
  | some a =>
      rw [run_emitError (a := a) (by simpa using hwf.listeners_of_acceptance hacc), finalState_ok]
      cases a with
      | agent k o => exact herrored
      | viewer k o i => rw [registry_fail_viewer, herrored]; rfl

end Departures

/-! ## Every step -/

section Step

variable {σ : Server}

/-- A heartbeat tick is an action of the registry: it closes the socket or does nothing. -/
theorem registry_step_tick (ws : ConnId) :
    (σ.step (.tick ws)).registry = σ.registry.step (σ.action (.tick ws)) := by
  show (settle ((pingTick ws).run σ)).registry = σ.registry.step (ite _ _ _)
  rw [run_pingTick]
  by_cases hopen : (σ.conn ws).readyState = .OPEN
  · by_cases halive : (σ.conn ws).isAlive = true
    · have hquiet : Quiet σ
          ((σ.modifyConn ws fun w => { w with isAlive := false }).send ws .ping) :=
        quietly.frame_trans (Quiet.modifyConn ws (f := fun w => { w with isAlive := false })
          (fun _ => rfl) (fun _ => rfl) (fun _ => rfl) fun _ => rfl) (Quiet.send ws rfl)
      simp only [settle, hopen, halive, if_true, Bool.true_eq_false, and_false, if_false]
      exact hquiet.registry
    · have hdead : (σ.conn ws).isAlive = false := by simpa using halive
      simp only [settle, hopen, hdead, if_true, Bool.false_eq_true, and_self, if_false]
      exact registry_setState σ ws rfl rfl rfl rfl
  · simp only [settle, hopen, if_false, false_and]
    exact registry_modifyConn_of_same σ ws rfl rfl rfl rfl

/-- **The registry step of every event.** -/
theorem registry_step (hwf : σ.WellFormed) {e : Event} (he : σ.Enabled e) :
    (σ.step e).registry = σ.registry.step (σ.action e) := by
  cases e with
  | connect ws parsedUrl now =>
      rw [step_connect, registry_settle]
      exact registry_decided hwf.sound he.2 parsedUrl now
  | unparsable ws => exact registry_step_unparsable hwf.sound he.2
  | closing ws => exact registry_setState σ ws rfl rfl rfl rfl
  | message ws message now => exact (quiet_settle (isQuiet_onMessage ws message now) σ).registry
  | pong ws => exact (quiet_settle (isQuiet_onPong ws) σ).registry
  | tick ws => exact registry_step_tick ws
  | error ws => exact registry_step_error hwf
  | close ws => exact registry_step_close hwf

/-- The listeners a connection that arrives ends up with: none, or all of one acceptance. -/
theorem listeners_decided {ws : ConnId} (hnil : (σ.conn ws).listeners = []) (parsedUrl : ParsedUrl)
    (now : ℕ) (c : ConnId) :
    ((finalState (σ.decided ws parsedUrl now)).conn c).listeners = (σ.conn c).listeners ∨
      ∃ a : Acceptance,
        ((finalState (σ.decided ws parsedUrl now)).conn c).listeners = a.listeners := by
  unfold decided
  by_cases hc : c = ws
  · subst hc
    cases σ.verdict c parsedUrl with
    | agent k => exact Or.inr ⟨.agent k (σ.sessionFor k c), by simp [acceptAgent, hnil]⟩
    | viewer k =>
        exact Or.inr ⟨.viewer k (σ.sessionFor k c) (toString now), by simp [acceptViewer, hnil]⟩
    | turnedAway code reason =>
        left
        simp only [turnAway]
        split <;> simp
  · left
    cases σ.verdict ws parsedUrl with
    | agent k => simp [acceptAgent, conn_modifyConn, hc]
    | viewer k => simp [acceptViewer, conn_modifyConn, hc]
    | turnedAway code reason =>
        simp only [turnAway]
        split <;> simp [conn_modifyConn, hc]

/-- Leaving detaches no listener. -/
theorem listeners_leave (ws c : ConnId) (a : Acceptance) :
    ((σ.leave ws a).conn c).listeners = (σ.conn c).listeners := by
  cases a <;> simp only [leave, conn_modifyConn] <;> split <;> simp_all

/-- Failing detaches no listener. -/
theorem listeners_fail (ws c : ConnId) (a : Acceptance) :
    ((σ.fail ws a).conn c).listeners = (σ.conn c).listeners := by
  cases a <;> simp [fail]

/-- A change of a connection that keeps its own listeners keeps all of them. -/
theorem listeners_modifyConn (ws c : ConnId) {f : Conn → Conn}
    (h : (f (σ.conn ws)).listeners = (σ.conn ws).listeners) :
    ((σ.modifyConn ws f).conn c).listeners = (σ.conn c).listeners :=
  modifyConn_keeps σ ws c Conn.listeners h

/-- A tick attaches no listener. -/
theorem listeners_step_tick (ws c : ConnId) :
    ((σ.step (.tick ws)).conn c).listeners = (σ.conn c).listeners := by
  show ((settle ((pingTick ws).run σ)).conn c).listeners = _
  rw [conn_settle, run_pingTick, finalState_ok]
  split
  · split
    · rw [listeners_send]
      exact listeners_modifyConn ws c rfl
    · exact listeners_modifyConn ws c rfl
  · exact listeners_modifyConn ws c rfl

/-- An error event attaches no listener. -/
theorem listeners_step_error (hwf : σ.WellFormed) (ws c : ConnId) :
    ((σ.step (.error ws)).conn c).listeners = (σ.conn c).listeners := by
  have herrored :=
    listeners_modifyConn (σ := σ) ws c (f := fun w => { w with errored := true }) rfl
  show ((settle _).conn c).listeners = _
  rw [conn_settle]
  rcases hwf.attached ws with hnil | ⟨a, ha⟩
  · rw [run_emitError_nil (by simpa using hnil)]
    exact herrored
  · rw [run_emitError (a := a) (by simpa using ha), finalState_ok, listeners_fail]
    exact herrored

/-- A close event attaches no listener. -/
theorem listeners_step_close (hwf : σ.WellFormed) (ws c : ConnId) :
    ((σ.step (.close ws)).conn c).listeners = (σ.conn c).listeners := by
  have hclosed :=
    listeners_modifyConn (σ := σ) ws c (f := fun w => { w with readyState := .CLOSED }) rfl
  show ((settle _).conn c).listeners = _
  rw [conn_settle]
  rcases hwf.attached ws with hnil | ⟨a, ha⟩
  · rw [run_emit_nil (by simpa using hnil)]
    exact hclosed
  · rw [run_emit_onClose (a := a) (by simpa using ha), finalState_ok, listeners_leave]
    exact hclosed

/-- The newcomer starts without listeners and ends with none or those of its acceptance; the others
keep theirs. -/
theorem attached_step_connect (hwf : σ.WellFormed) (ws : ConnId) (parsedUrl : ParsedUrl) (now : ℕ)
    (c : ConnId) : ((σ.step (.connect ws parsedUrl now)).conn c).listeners = [] ∨
      ∃ a : Acceptance,
        ((σ.step (.connect ws parsedUrl now)).conn c).listeners = a.listeners := by
  have hnil := listeners_arrive σ ws parsedUrl
  rw [step_connect, conn_settle]
  rcases listeners_decided hnil parsedUrl now c with hold | ha
  · rw [hold]
    by_cases hc : c = ws
    · exact Or.inl (hc ▸ hnil)
    · rw [conn_arrive_of_ne σ hc]
      exact hwf.attached c
  · exact Or.inr ha

/-- A connection with a URL that cannot be parsed gets no listener. -/
theorem attached_step_unparsable (hwf : σ.WellFormed) (ws c : ConnId) :
    ((σ.step (.unparsable ws)).conn c).listeners = [] ∨
      ∃ a : Acceptance, ((σ.step (.unparsable ws)).conn c).listeners = a.listeners := by
  show ((σ.arrive ws _).conn c).listeners = [] ∨
    ∃ a : Acceptance, ((σ.arrive ws _).conn c).listeners = _
  by_cases hc : c = ws
  · exact Or.inl (hc ▸ listeners_arrive σ ws _)
  · rw [conn_arrive_of_ne σ hc]
    exact hwf.attached c

/-- Only a connection that arrives gets listeners. -/
theorem attached_step (hwf : σ.WellFormed) (e : Event) (c : ConnId) :
    ((σ.step e).conn c).listeners = [] ∨
      ∃ a : Acceptance, ((σ.step e).conn c).listeners = a.listeners := by
  have hkept : ((σ.step e).conn c).listeners = (σ.conn c).listeners →
      ((σ.step e).conn c).listeners = [] ∨
        ∃ a : Acceptance, ((σ.step e).conn c).listeners = a.listeners := by
    intro h
    rw [h]
    exact hwf.attached c
  cases e with
  | connect ws parsedUrl now => exact attached_step_connect hwf ws parsedUrl now c
  | unparsable ws => exact attached_step_unparsable hwf ws c
  | closing ws =>
      exact hkept (listeners_modifyConn ws c (f := fun w => { w with readyState := .CLOSING }) rfl)
  | message ws message now =>
      exact hkept ((quiet_settle (isQuiet_onMessage ws message now) σ).listeners c)
  | pong ws => exact hkept ((quiet_settle (isQuiet_onPong ws) σ).listeners c)
  | tick ws => exact hkept (listeners_step_tick ws c)
  | error ws => exact hkept (listeners_step_error hwf ws c)
  | close ws => exact hkept (listeners_step_close hwf ws c)

/-- The accept test reads the same before and after the socket arrived. -/
theorem agentTaken_arrive (hsound : σ.registry.Sound) {ws : ConnId} (hnew : ws ∉ σ.arrivals)
    (parsedUrl : ParsedUrl) (k : SessionId) :
    (σ.arrive ws parsedUrl).agentTaken k = σ.agentTaken k := by
  have hopen : ∀ o, (σ.arrive ws parsedUrl).agentOpen o = σ.agentOpen o := by
    intro o
    unfold agentOpen
    rw [sessionAt_arrive]
    cases hslot : (σ.sessionAt o).agent with
    | none => rfl
    | some d =>
        -- the holder of a slot has arrived, so it is not the newcomer
        have hd : d ∈ σ.arrivals := (hsound.arrived_of_agentOf (hsound.slot o d hslot).1).1
        have hne : d ≠ ws := fun h => hnew (h ▸ hd)
        simp only [conn_arrive_of_ne σ hne]
  have hsessions : (σ.arrive ws parsedUrl).sessions = σ.sessions := rfl
  unfold agentTaken
  rw [hsessions]
  cases σ.sessions.get? k with
  | none => rfl
  | some o => exact hopen o

/-- A connection that is accepted as an agent has passed the accept test. -/
theorem enabled_action_connect (hwf : σ.WellFormed) {ws : ConnId} (hnew : ws ∉ σ.arrivals)
    (parsedUrl : ParsedUrl) (now : ℕ) :
    σ.registry.Enabled (σ.action (.connect ws parsedUrl now)) := by
  unfold action
  cases hverdict : (σ.arrive ws parsedUrl).verdict ws parsedUrl with
  | agent k =>
      simp only [hverdict]
      refine ⟨hnew, fun o ho => ?_⟩
      obtain ⟨-, -, hfree⟩ := (verdict_eq_agent_iff ..).mp hverdict
      -- the test reads the slot of the object the id is bound to
      have hbound : σ.sessions.get? k = some o := ho
      rw [agentTaken_arrive hwf.sound hnew, agentTaken, hbound] at hfree
      exact hfree
  | viewer k =>
      simp only [hverdict]
      exact hnew
  | turnedAway code reason =>
      simp only [hverdict]
      exact hnew

/-- A pending connection may fail. -/
theorem enabled_errorAction {ws : ConnId} (hpending : σ.registry.Pending ws) :
    σ.registry.Enabled (errorAction ws (σ.conn ws).acceptance) := by
  rcases hacc : (σ.conn ws).acceptance with _ | ⟨k, o⟩ | ⟨k, o, i⟩
  · refine ⟨hpending, fun o i => ?_⟩
    simp [Registry.ViewerOf, registry, hacc, Acceptance.viewerPlace]
  · refine ⟨hpending, fun p i => ?_⟩
    simp [Registry.ViewerOf, registry, hacc, Acceptance.viewerPlace]
  · exact ⟨hpending, hacc⟩

/-- A closing connection may leave. -/
theorem enabled_closeAction {ws : ConnId} (hclosing : (σ.conn ws).readyState = .CLOSING) :
    σ.registry.Enabled (closeAction ws (σ.conn ws).acceptance) := by
  rcases hacc : (σ.conn ws).acceptance with _ | ⟨k, o⟩ | ⟨k, o, i⟩
  · exact ⟨hclosing, hacc⟩
  · exact ⟨hclosing, hacc⟩
  · exact ⟨hclosing, hacc⟩

/-- The action of an event that may happen may be taken. -/
theorem enabled_action (hwf : σ.WellFormed) {e : Event} (he : σ.Enabled e) :
    σ.registry.Enabled (σ.action e) := by
  obtain ⟨-, he⟩ := he
  cases e with
  | connect ws parsedUrl now => exact enabled_action_connect hwf he parsedUrl now
  | unparsable ws => exact he
  | closing ws => exact he
  | message ws message now => trivial
  | pong ws => trivial
  | tick ws =>
      show σ.registry.Enabled (ite _ _ _)
      split
      · rename_i hdead
        exact hdead.1
      · trivial
  | error ws => exact enabled_errorAction ((σ.conn ws).isPending_iff.mp he.1)
  | close ws => exact enabled_closeAction he

/-- Every step keeps the server well formed. -/
theorem wellFormed_step (hwf : σ.WellFormed) {e : Event} (he : σ.Enabled e) :
    (σ.step e).WellFormed where
  attached := attached_step hwf e
  sound := by
    rw [registry_step hwf he]
    exact hwf.sound.step (enabled_action hwf he)

end Step

end Server

/-- **The relay server refines its registry.** -/
theorem relay_mapsTo_registry :
    relay.MapsTo registryMachine Server.WellFormed Server.registry Server.action where
  start := rfl
  enabled := fun _ _ hwf he => Server.enabled_action hwf he
  step := fun _ _ hwf he => Server.registry_step hwf he

/-- Every state of every run is well formed. -/
theorem relay_wellFormed {es : List Event} (hrun : relay.IsRun es) :
    relay.States Server.WellFormed relay.start es :=
  relay.states_of_invariant Server.wellFormed_start
    (fun _ _ hwf he => Server.wellFormed_step hwf he) hrun

/-- The events of a run as what they mean for the bookkeeping. -/
def registryRun (es : List Event) : List Registry.Action :=
  relay.labels Server.action relay.start es

variable {es : List Event} (hrun : relay.IsRun es)

include hrun

/-- The actions of a run of the server are a run of the registry. -/
theorem registryRun_isRun : registryMachine.IsRun (registryRun es) :=
  relay_mapsTo_registry.steps_enabled (relay_wellFormed hrun) hrun

/-- Statements about the states of a run of the server that only read its registry. -/
theorem registry_states_iff {I : Server → Prop} {J : Registry → Prop}
    (h : ∀ σ, I σ ↔ J σ.registry) : relay.States I relay.start es ↔
      registryMachine.States J Registry.initial (registryRun es) := by
  have hI : I = fun σ => J σ.registry := funext fun σ => propext (h σ)
  rw [hI]
  exact relay_mapsTo_registry.states_iff J (relay_wellFormed hrun) hrun

/-- Statements about the steps of a run of the server that only read its registry. -/
theorem registry_steps_iff {P : Server → Event → Prop} {Q : Registry → Registry.Action → Prop}
    (h : ∀ σ e, P σ e ↔ Q σ.registry (σ.action e)) : relay.Steps P relay.start es ↔
      registryMachine.Steps Q Registry.initial (registryRun es) := by
  have hP : P = fun σ e => Q σ.registry (σ.action e) :=
    funext fun σ => funext fun e => propext (h σ e)
  rw [hP]
  exact relay_mapsTo_registry.steps_iff Q (relay_wellFormed hrun) hrun

end BrowCast
