import BrowCast.Server.Compartments

/-! # Who owns what

Every socket, and every session object, belongs to the session id it arrived with (or to none).
`Owned` says that whatever a socket or a session object leads to belongs to the same id; it holds in
every state of every run, and each event stays inside the compartment of its socket. -/

namespace BrowCast

namespace Event

/-- The listener of `wss` or of the socket that an event runs. -/
def handler : Event → Handler Unit
  | .connect ws parsedUrl now => onConnection ws (.ok parsedUrl) now
  | .unparsable ws => onConnection ws (.error .typeError) 0
  | .closing ws => modify (Server.modifyConn ws fun w => { w with readyState := .CLOSING })
  | .message ws msg now => emit ws (Listener.onMessage ws msg now)
  | .pong ws => emit ws (Listener.onPong ws)
  | .tick ws => pingTick ws
  | .error ws => do
      modify (Server.modifyConn ws fun w => { w with errored := true })
      emitError ws
  | .close ws => do
      modify (Server.modifyConn ws fun w => { w with readyState := .CLOSED })
      emit ws (Listener.onClose ws)

/-- The event brings a message. -/
def isMessage : Event → Bool
  | .message _ _ _ => true
  | _ => false

/-- The event is the arrival of a socket. -/
def isArrival : Event → Bool
  | .connect _ _ _ | .unparsable _ => true
  | _ => false

/-- An arrival is no message. -/
theorem isMessage_of_isArrival {e : Event} (h : e.isArrival = true) : e.isMessage = false := by
  cases e <;> first | rfl | cases h

/-- The events that count as messages are the message events. -/
theorem eq_message_of_isMessage {e : Event} (h : e.isMessage = true) :
    ∃ ws message now, e = .message ws message now := by
  cases e with
  | message ws message now => exact ⟨ws, message, now, rfl⟩
  | _ => cases h

end Event

namespace Server

variable (σ : Server)

/-- The state an event's listener starts in: a new socket has arrived. -/
def before : Event → Server
  | .connect ws parsedUrl _ => σ.arrive ws parsedUrl
  | .unparsable ws => σ.arrive ws ⟨none, .absent⟩
  | _ => σ

/-- The listener of an event starts in the state before it, or, for an arrival, in the one with the
new socket. -/
theorem before_cases (e : Event) : (∀ τ : Server, τ.before e = τ) ∨
    ∃ parsedUrl, ∀ τ : Server, τ.before e = τ.arrive e.subject parsedUrl ∧
      (τ.Enabled e → e.subject ∉ τ.arrivals) := by
  cases e with
  | connect ws parsedUrl now => exact Or.inr ⟨parsedUrl, fun _ => ⟨rfl, fun he => he.2⟩⟩
  | unparsable ws => exact Or.inr ⟨⟨none, .absent⟩, fun _ => ⟨rfl, fun he => he.2⟩⟩
  | _ => exact Or.inl fun _ => rfl

/-- A socket that arrives is new. -/
theorem notMem_of_isArrival {e : Event} (he : σ.Enabled e) (harrival : e.isArrival = true) :
    e.subject ∉ σ.arrivals := by
  cases e with
  | connect ws parsedUrl now => exact he.2
  | unparsable ws => exact he.2
  | _ => cases harrival

/-- A step runs the handler of the event and settles what it returned or threw. -/
theorem step_eq_settle (e : Event) : σ.step e = settle (e.handler.run (σ.before e)) := by
  cases e <;> rfl

/-- The sockets that arrived with this session id. -/
def compartment (key : Option SessionId) (relays : Bool) : Compartment where
  key := key
  members c := c ∈ σ.arrivals ∧ (σ.conn c).sessionId = key
  relays := relays = true

/-- The compartment an event takes place in. -/
def place (e : Event) : Compartment :=
  (σ.before e).compartment ((σ.before e).conn e.subject).sessionId e.isMessage

/-- Nothing is known about sockets that have not arrived, and nothing leads from one session id to
another. -/
structure Owned : Prop where
  fresh : ∀ c, c ∉ σ.arrivals → σ.conn c = {} ∧ σ.sessionAt c = {}
  closed : ∀ key relays, (σ.compartment key relays).Closed σ

end Server

namespace Compartment

variable {C : Compartment} {ws : ConnId}

/-- An event at a member stays inside the compartment when each of its listeners does. -/
theorem confines_emit (hws : C.members ws) {run : Listener → Handler Unit}
    (hrun : ∀ l : Listener, l.Within C → C.Confines (fun _ => True) (run l)) :
    C.Confines (fun _ => True) (emit ws run) := by
  refine Confined.bind (Q := fun ls => ∀ l ∈ ls, l.Within C) ?_ fun ls hls => ?_
  · exact Confined.readState fun σ τ hσ _ h =>
      ⟨congrArg Conn.listeners (h.conn ws hws), hσ.listeners ws hws⟩
  · exact Confined.forM fun l hl => hrun l (hls l hl)

/-- A message at a member of a compartment that relays stays inside. -/
theorem confines_onMessage (hrelays : C.relays) (hws : C.members ws) (message : Message) (now : ℕ)
    {l : Listener} (hl : l.Within C) :
    C.Confines (fun _ => True) (l.onMessage ws message now) := by
  cases l with
  | agentMessage o => exact confines_agentMessage hrelays hl message now
  | viewerMessage o => exact confines_viewerMessage hrelays hws hl message now
  | _ => exact Confined.pure trivial

/-- A pong at a member stays inside. -/
theorem confines_onPong (hws : C.members ws) (l : Listener) :
    C.Confines (fun _ => True) (l.onPong ws) := by
  cases l with
  | heartbeatPong =>
      exact confines_modifyConn_of_same hws (fun _ => rfl) (fun _ => rfl) fun _ => rfl
  | _ => exact Confined.pure trivial

/-- An error at a listener of the compartment stays inside. -/
theorem confines_onError {l : Listener} (hl : l.Within C) :
    C.Confines (fun _ => True) (l.onError ws) := by
  cases l with
  | agentError => exact confines_count _
  | viewerError o i => exact confines_viewerError hl i
  | _ => exact Confined.pure trivial

/-- A close event at a member stays inside. -/
theorem confines_onClose (hws : C.members ws) {l : Listener} (hl : l.Within C) :
    C.Confines (fun _ => True) (l.onClose ws) := by
  cases l with
  | agentClose k o => exact confines_agentClose hl.1 hl.2
  | viewerClose k o i => exact confines_viewerClose hl.1 hl.2 i
  | heartbeatClose => exact confines_clearPingInterval hws
  | _ => exact Confined.pure trivial

/-- An error event at a member stays inside. -/
theorem confines_emitError (hws : C.members ws) :
    C.Confines (fun _ => True) (emitError ws) := by
  refine (confines_readConn hws Conn.hasErrorListener).bind fun listens _ => ?_
  exact Confined.ite (confines_emit hws fun _ hl => confines_onError hl) (Confined.throw _)

/-- Every event stays inside the compartment of its socket. -/
theorem confines_handler (e : Event) (hws : C.members e.subject)
    (hrelays : e.isMessage = true → C.relays)
    (hkey : ∀ ws parsedUrl now, e = .connect ws parsedUrl now →
      C.key = parsedUrl.sessionId.key ws) :
    C.Confines (fun _ => True) e.handler := by
  cases e with
  | connect ws parsedUrl now =>
      refine confines_onConnection hws (fun url hurl => ?_) now
      cases hurl
      exact hkey ws parsedUrl now rfl
  | unparsable ws => exact confines_onConnection hws (fun _ hurl => by cases hurl) 0
  | closing ws => exact confines_modifyConn_of_same hws (fun _ => rfl) (fun _ => rfl) fun _ => rfl
  | message ws message now =>
      exact confines_emit hws fun l hl => confines_onMessage (hrelays rfl) hws message now hl
  | pong ws => exact confines_emit hws fun l _ => confines_onPong hws l
  | tick ws => exact confines_pingTick hws
  | error ws =>
      refine Confined.bind
        (confines_modifyConn_of_same hws (fun _ => rfl) (fun _ => rfl) fun _ => rfl) fun _ _ => ?_
      exact confines_emitError hws
  | close ws =>
      refine Confined.bind
        (confines_modifyConn_of_same hws (fun _ => rfl) (fun _ => rfl) fun _ => rfl) fun _ _ => ?_
      exact confines_emit hws fun _ hl => confines_onClose hws hl

end Compartment

/-! ## The invariant -/

/-- A listener within a compartment is within every larger one of the same session. -/
theorem Listener.Within.mono {C D : Compartment} (hmembers : ∀ c, C.members c → D.members c)
    (hkey : C.key = D.key) {l : Listener} (hl : l.Within C) : l.Within D := by
  cases l with
  | agentMessage o => exact hmembers o hl
  | viewerMessage o => exact hmembers o hl
  | viewerError o i => exact hmembers o hl
  | agentClose k o => exact ⟨hmembers o hl.1, hkey ▸ hl.2⟩
  | viewerClose k o i => exact ⟨hmembers o hl.1, hkey ▸ hl.2⟩
  | _ => trivial

namespace Server

variable {σ τ : Server} {e : Event}

/-- At first there is nothing to own. -/
theorem owned_start : relay.start.Owned where
  fresh := fun _ _ => ⟨rfl, rfl⟩
  closed := fun key relays =>
    ⟨fun c hc => hc.1, fun c hc => absurd hc.1 List.not_mem_nil,
      fun o ho => absurd ho.1 List.not_mem_nil, fun o ho => absurd ho.1 List.not_mem_nil,
      fun o ho => absurd ho.1 List.not_mem_nil, fun k _ o ho => by cases ho⟩

/-- A socket with a session id has arrived. -/
theorem Owned.arrived (h : σ.Owned) {c : ConnId} (hc : (σ.conn c).sessionId ≠ none) :
    c ∈ σ.arrivals := by
  by_contra hnew
  rw [(h.fresh c hnew).1] at hc
  exact hc rfl

/-- The arrival of a socket leads nowhere yet. -/
theorem Owned.arrive (h : σ.Owned) {ws : ConnId} (hnew : ws ∉ σ.arrivals) (parsedUrl : ParsedUrl) :
    (σ.arrive ws parsedUrl).Owned where
  fresh := by
    intro c hc
    have hcws : c ≠ ws := fun hcws => hc (hcws ▸ List.mem_cons_self)
    have hold := h.fresh c fun hmem => hc (List.mem_cons_of_mem ws hmem)
    exact ⟨(σ.conn_arrive_of_ne hcws parsedUrl).trans hold.1, hold.2⟩
  closed := by
    intro key relays
    have hC := h.closed key relays
    -- members of the compartment stay, and the newcomer may be one more
    have hmembers : ∀ c, (σ.compartment key relays).members c →
        ((σ.arrive ws parsedUrl).compartment key relays).members c := by
      rintro c ⟨hmem, hkey⟩
      have hcws : c ≠ ws := fun hcws => hnew (hcws ▸ hmem)
      refine ⟨List.mem_cons_of_mem ws hmem, ?_⟩
      rw [← hkey, conn_arrive_of_ne σ hcws]
    have hcases : ∀ c, ((σ.arrive ws parsedUrl).compartment key relays).members c →
        c = ws ∨ c ≠ ws ∧ (σ.compartment key relays).members c := by
      rintro c ⟨hmem, hkey⟩
      by_cases hcws : c = ws
      · exact Or.inl hcws
      · rw [conn_arrive_of_ne σ hcws] at hkey
        exact Or.inr ⟨hcws, (List.mem_cons.mp hmem).resolve_left hcws, hkey⟩
    have hempty : σ.sessionAt ws = {} := (h.fresh ws hnew).2
    refine ⟨fun c hc => hc.1, fun c hc l hl => ?_, fun o ho c hc => ?_, fun o ho c hc => ?_,
      fun o ho x hx => ?_, fun k hk o ho => hmembers o (hC.sessions k hk o ho)⟩
    · rcases hcases c hc with rfl | ⟨hcws, hold⟩
      · rw [conn_arrive_self] at hl
        cases hl
      · rw [conn_arrive_of_ne σ hcws] at hl
        exact (hC.listeners c hold l hl).mono hmembers rfl
    · rcases hcases o ho with rfl | ⟨-, hold⟩
      · rw [sessionAt_arrive, hempty] at hc
        cases hc
      · exact hmembers c (hC.agent o hold c hc)
    · rcases hcases o ho with rfl | ⟨-, hold⟩
      · rw [sessionAt_arrive, hempty] at hc
        cases hc
      · exact hmembers c (hC.viewers o hold c hc)
    · rcases hcases o ho with rfl | ⟨-, hold⟩
      · rw [sessionAt_arrive, hempty] at hx
        cases hx
      · exact hmembers x.1 (hC.clientScreens o hold x hx)

/-- The bookkeeping ahead of the handler keeps ownership. -/
theorem Owned.before (h : σ.Owned) (he : σ.Enabled e) : (σ.before e).Owned := by
  rcases before_cases e with hsame | ⟨parsedUrl, harrive⟩
  · rw [hsame]
    exact h
  · rw [(harrive σ).1]
    exact h.arrive ((harrive σ).2 he) parsedUrl

/-- The socket of an event has arrived when its listener runs. -/
theorem Owned.subject_mem (h : σ.Owned) (he : σ.Enabled e) : (σ.place e).members e.subject := by
  refine ⟨?_, rfl⟩
  obtain ⟨-, he⟩ := he
  cases e
  case connect ws parsedUrl now => exact List.mem_cons_self
  case unparsable ws => exact List.mem_cons_self
  all_goals
    -- nothing happens on a socket that has not arrived
    by_contra hnew
    have hfresh := (h.fresh _ hnew).1
    simp only [Event.subject] at hfresh
    simp [hfresh, Conn.isPending] at he

/-- The handler of an enabled event is confined to the compartment the event takes place in. -/
theorem Owned.confines (h : σ.Owned) (he : σ.Enabled e) :
    (σ.place e).Confines (fun _ => True) e.handler := by
  refine Compartment.confines_handler e (h.subject_mem he) (fun hm => hm) ?_
  rintro ws parsedUrl now rfl
  exact congrArg Conn.sessionId (conn_arrive_self ..)

/-- **Every event stays inside its compartment.** -/
theorem Owned.frame (h : σ.Owned) (he : σ.Enabled e) :
    (σ.place e).Frame (σ.before e) (σ.step e) := by
  have hframe := ((h.confines he).frame ((h.before he).closed _ _)).1
  rw [step_eq_settle]
  generalize e.handler.run (σ.before e) = result at hframe ⊢
  cases result with
  | ok a τ => exact hframe
  | error err τ => exact ⟨hframe.1, hframe.2, hframe.3, hframe.4, hframe.5, hframe.6⟩

/-- After a step the compartment of the event is still closed. -/
theorem Owned.closed_step (h : σ.Owned) (he : σ.Enabled e) :
    (σ.place e).Closed (σ.step e) := by
  have hclosed := ((h.confines he).frame ((h.before he).closed _ _)).2
  rw [step_eq_settle]
  generalize e.handler.run (σ.before e) = result at hclosed ⊢
  cases result with
  | ok a τ => exact hclosed
  | error err τ => exact ⟨hclosed.1, hclosed.2, hclosed.3, hclosed.4, hclosed.5, hclosed.6⟩

/-- The members of a compartment do not change while it runs. -/
theorem members_eq_of_frame {C : Compartment} (h : C.Frame σ τ) (key : Option SessionId)
    (relays : Bool) : τ.compartment key relays = σ.compartment key relays := by
  unfold compartment
  simp only [h.arrivals, h.sessionId]

/-- What an event leaves alone stays closed. -/
theorem closed_of_frame {C : Compartment} (hframe : C.Frame σ τ) {key : Option SessionId}
    {relays : Bool} (hdisjoint : ∀ c, (σ.compartment key relays).members c → ¬ C.members c)
    (hkey : ∀ k, key = some k → C.key ≠ some k) (h : (σ.compartment key relays).Closed σ) :
    (σ.compartment key relays).Closed τ where
  arrived := fun c hc => hframe.arrivals ▸ h.arrived c hc
  listeners := fun c hc => hframe.conn c (hdisjoint c hc) ▸ h.listeners c hc
  agent := fun o ho => hframe.sessionAt o (hdisjoint o ho) ▸ h.agent o ho
  viewers := fun o ho => hframe.sessionAt o (hdisjoint o ho) ▸ h.viewers o ho
  clientScreens := fun o ho => hframe.sessionAt o (hdisjoint o ho) ▸ h.clientScreens o ho
  sessions := fun k hk => hframe.sessions k (hkey k hk) ▸ h.sessions k hk

/-- Every step keeps ownership: what it touches is in one compartment, the rest is as before. -/
theorem Owned.step (h : σ.Owned) (he : σ.Enabled e) : (σ.step e).Owned where
  fresh := by
    intro c hc
    have hframe := h.frame he
    rw [hframe.arrivals] at hc
    have hout : ¬ (σ.place e).members c := fun hmem => hc hmem.1
    rw [hframe.conn c hout, hframe.sessionAt c hout]
    exact (h.before he).fresh c hc
  closed := by
    intro key relays
    have hframe := h.frame he
    rw [members_eq_of_frame hframe]
    by_cases hkey : key = ((σ.before e).conn e.subject).sessionId
    · -- the compartment of the event: its handler kept it closed
      subst hkey
      have hclosed := h.closed_step he
      exact ⟨hclosed.1, hclosed.2, hclosed.3, hclosed.4, hclosed.5, hclosed.6⟩
    · -- any other compartment shares no socket with it, and no id
      refine closed_of_frame hframe (fun c hc hmem => hkey (hc.2.symm.trans hmem.2)) ?_
        ((h.before he).closed key relays)
      rintro k rfl hk
      exact hkey hk.symm

end Server

/-- Every state of every run is owned. -/
theorem relay_owned {es : List Event} (hrun : relay.IsRun es) :
    relay.States Server.Owned relay.start es :=
  relay.states_of_invariant Server.owned_start (fun _ _ h he => h.step he) hrun

end BrowCast
