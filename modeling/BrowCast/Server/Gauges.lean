import BrowCast.Server.Messages
import BrowCast.Server.Rejection
import BrowCast.Runs.Tally

/-! # The connection gauges

`connectionState` counts connections: `agentConnections` and `viewerConnections` go up when a
connection is accepted, `activeConnections` when it arrives, and the close handlers, the error
handlers and the rejections count down. What the gauges show is computed for every run: each
accepted connection contributes one while it is pending, and *minus* one from its error event on,
since its close event counts it a second time. -/

namespace BrowCast

/-- The connection was accepted as an agent. -/
def Acceptance.isAgent : Acceptance → Bool
  | .agent _ _ => true
  | .viewer _ _ _ => false

/-- The connection was accepted as a viewer. -/
def Acceptance.isViewer (a : Acceptance) : Bool := !a.isAgent

/-! ## What the gauges are to show -/

namespace Server

variable (σ : Server)

/-- The number of accepted connections in a role whose close event has not fired. -/
def pendingIn (role : Acceptance → Bool) : ℕ :=
  σ.arrivals.countP fun c => (σ.conn c).isPending && (σ.conn c).acceptance.any role

/-- No socket is between its error event and its close event. -/
def NoneFailing : Prop := ∀ c, ¬ ((σ.conn c).isPending = true ∧ (σ.conn c).errored = true)

/-- The close event of every connection that arrived has fired. -/
def AllClosed : Prop := ∀ c ∈ σ.arrivals, (σ.conn c).readyState = .CLOSED

/-- The gauges are exact: while no socket is between its error and its close event they show the
pending connections of each role and of both, they are never negative, and they are zero when
everything has closed. -/
structure GaugesExact : Prop where
  agents : σ.NoneFailing → σ.connectionState.agentConnections = σ.pendingIn Acceptance.isAgent
  viewers : σ.NoneFailing → σ.connectionState.viewerConnections = σ.pendingIn Acceptance.isViewer
  active : σ.NoneFailing → σ.connectionState.activeConnections =
    σ.connectionState.agentConnections + σ.connectionState.viewerConnections
  nonneg : 0 ≤ σ.connectionState.agentConnections ∧ 0 ≤ σ.connectionState.viewerConnections ∧
    0 ≤ σ.connectionState.activeConnections
  closed : σ.AllClosed → σ.connectionState.agentConnections = 0 ∧
    σ.connectionState.viewerConnections = 0 ∧ σ.connectionState.activeConnections = 0

/-- The event is not the error event of an accepted connection, not the arrival of a connection that
is rejected with a text too long for a close frame, and not the arrival of one whose request URL
cannot be parsed. -/
structure CountedOnce (e : Event) : Prop where
  error : ∀ c, e = .error c → (σ.conn c).acceptance = none
  fits : ∀ c parsedUrl now, e = .connect c parsedUrl now →
    (σ.arrive c parsedUrl).Rejects c parsedUrl → FitsCloseFrame c parsedUrl
  parsable : ∀ c, e ≠ .unparsable c

instance (e : Event) : Decidable (σ.CountedOnce e) :=
  match e with
  | .connect c parsedUrl _ =>
      decidable_of_iff
        ((σ.arrive c parsedUrl).Rejects c parsedUrl → FitsCloseFrame c parsedUrl)
        ⟨fun h => ⟨fun _ he => (by cases he), fun _ _ _ he => (by cases he; exact h),
          fun _ he => (by cases he)⟩, fun h => h.fits c parsedUrl _ rfl⟩
  | .error c =>
      decidable_of_iff ((σ.conn c).acceptance = none)
        ⟨fun h => ⟨fun _ he => (by cases he; exact h), fun _ _ _ he => (by cases he),
          fun _ he => (by cases he)⟩, fun h => h.error c rfl⟩
  | .unparsable c => .isFalse fun h => h.parsable c rfl
  | .closing _ | .message _ _ _ | .pong _ | .tick _ | .close _ =>
      .isTrue ⟨fun _ he => (by cases he), fun _ _ _ he => (by cases he),
        fun _ he => (by cases he)⟩

end Server

/-! ## The ledger of the registry -/

namespace Registry

variable (r : Registry) (p q : ℤ) (role : Acceptance → Bool)

/-- The connection has arrived and its close event has not fired. -/
def isPending (c : ConnId) : Bool := r.readyState c == .OPEN || r.readyState c == .CLOSING

/-- The weight of a connection of the role: `p` while it is pending, and `q` from its error event
on. -/
def weight (c : ConnId) : ℤ :=
  if (r.acceptance c).any role then p * indicator (r.isPending c) + q * indicator (r.errored c)
  else 0

/-- The weight of all connections. -/
def ledger : ℤ := tally r.arrivals (r.weight p q role)

/-- The connection whose error event fires. -/
def Action.fails : Action → Option ConnId
  | .fail c | .failViewer c _ _ _ => some c
  | _ => none

/-- What an action adds to the ledger. -/
def charge : Action → ℤ
  | .admitAgent c k => p * indicator (role (.agent k (r.sessionFor k c)))
  | .admitViewer c k i => p * indicator (role (.viewer k (r.sessionFor k c) i))
  | .fail c => q * indicator ((r.acceptance c).any role)
  | .failViewer _ k o i => q * indicator (role (.viewer k o i))
  | .leaveAgent _ k o => -p * indicator (role (.agent k o))
  | .leaveViewer _ k o i => -p * indicator (role (.viewer k o i))
  | .turnAway _ _ | .arrive _ | .closing _ | .leave _ | .rest => 0

variable {r p q role} {a : Action}

/-- The weight of a connection depends on its state, its error and its acceptance only. -/
theorem weight_congr {r s : Registry} {c : ConnId} (hstate : s.readyState c = r.readyState c)
    (herrored : s.errored c = r.errored c) (haccept : s.acceptance c = r.acceptance c) :
    s.weight p q role c = r.weight p q role c := by
  rw [weight, weight, isPending, isPending, hstate, herrored, haccept]

/-- A connection that was not accepted weighs nothing. -/
theorem weight_of_none {c : ConnId} (h : r.acceptance c = none) : r.weight p q role c = 0 := by
  simp [weight, h]

/-- A newcomer adds its weight. -/
theorem ledger_of_arrival {s : Registry} {c : ConnId} (hnew : c ∉ r.arrivals)
    (harrivals : s.arrivals = c :: r.arrivals)
    (hsame : ∀ d, d ≠ c → s.weight p q role d = r.weight p q role d) :
    s.ledger p q role = r.ledger p q role + s.weight p q role c := by
  rw [ledger, ledger, harrivals, tally_cons, add_comm]
  congr 1
  exact tally_congr fun d hd => hsame d fun h => hnew (h ▸ hd)

/-- A change of one connection that has arrived. -/
theorem ledger_of_change {s : Registry} {c : ConnId} (hnodup : r.arrivals.Nodup)
    (hc : c ∈ r.arrivals) (harrivals : s.arrivals = r.arrivals)
    (hsame : ∀ d, d ≠ c → s.weight p q role d = r.weight p q role d) :
    s.ledger p q role =
      r.ledger p q role + (s.weight p q role c - r.weight p q role c) := by
  rw [ledger, ledger, harrivals]
  exact tally_of_change hnodup hc hsame

/-- The connection an action is about. -/
def Action.subject : Action → Option ConnId
  | .admitAgent c _ | .admitViewer c _ _ | .turnAway c _ | .arrive c | .closing c | .fail c
  | .failViewer c _ _ _ | .leave c | .leaveAgent c _ _ | .leaveViewer c _ _ _ => some c
  | .rest => none

/-- The other connections keep their weight. -/
theorem weight_step_of_ne {c d : ConnId} (hc : a.subject = some c) (hd : d ≠ c) :
    (r.step a).weight p q role d = r.weight p q role d := by
  cases a with
  | rest => cases hc
  | _ =>
      cases hc
      apply weight_congr <;> simp [step, hd]

/-- **The ledger of a step.** An action adds its charge to the ledger, provided that an error event
fires once for each connection. -/
theorem ledger_step (hsound : r.Sound) (hnodup : r.arrivals.Nodup) (ha : r.Enabled a)
    (hfails : ∀ c, a.fails = some c → r.errored c = false) :
    (r.step a).ledger p q role = r.ledger p q role + r.charge p q role a := by
  -- a newcomer has not failed, and nothing has accepted it
  have hnew : ∀ {c}, c ∉ r.arrivals → r.errored c = false ∧ r.acceptance c = none := by
    intro c hc
    refine ⟨?_, Option.eq_none_iff_forall_ne_some.mpr fun b hb => hc (hsound.accepted c b hb).1⟩
    by_contra h
    exact hc (hsound.failed c (by simpa using h))
  -- the socket of any other event has arrived
  have hold : ∀ {c}, r.readyState c = .OPEN ∨ r.readyState c = .CLOSING → c ∈ r.arrivals := by
    intro c hc
    refine (hsound.arrived c).mpr fun h => ?_
    rcases hc with hc | hc <;> simp [h] at hc
  -- and one that is left is not pending any more
  have hclosed : indicator (ReadyState.CLOSED == .OPEN || ReadyState.CLOSED == .CLOSING) = 0 := rfl
  cases a with
  | admitAgent c k =>
      obtain ⟨herrored, -⟩ := hnew ha.1
      rw [ledger_of_arrival (c := c) ha.1 rfl]
      · simp [step, weight, charge, isPending, herrored, indicator]
      · intro d hd
        exact weight_step_of_ne rfl hd
  | admitViewer c k i =>
      obtain ⟨herrored, -⟩ := hnew ha
      rw [ledger_of_arrival (c := c) ha rfl]
      · simp [step, weight, charge, isPending, herrored, indicator]
      · intro d hd
        exact weight_step_of_ne rfl hd
  | turnAway c k =>
      obtain ⟨-, hnone⟩ := hnew ha
      rw [ledger_of_arrival (c := c) ha rfl, weight_of_none (by simpa [step] using hnone)]
      · rfl
      · intro d hd
        exact weight_step_of_ne rfl hd
  | arrive c =>
      obtain ⟨-, hnone⟩ := hnew ha
      rw [ledger_of_arrival (c := c) ha rfl, weight_of_none (by simpa [step] using hnone)]
      · rfl
      · intro d hd
        exact weight_step_of_ne rfl hd
  | closing c =>
      rw [ledger_of_change (s := r.step _) (c := c) hnodup (hold (Or.inl ha)) rfl]
      · -- OPEN and CLOSING weigh the same
        have hstate : r.readyState c = .OPEN := ha
        simp [step, weight, charge, isPending, hstate]
      · intro d hd
        exact weight_step_of_ne rfl hd
  | fail c =>
      rw [ledger_of_change (s := r.step _) (c := c) hnodup (hold ha.1) rfl]
      · have herrored := hfails c rfl
        by_cases hrole : (r.acceptance c).any role = true
        · simp [step, weight, charge, isPending, herrored, hrole]
        · simp [step, weight, charge, hrole]
      · intro d hd
        exact weight_step_of_ne rfl hd
  | failViewer c k o i =>
      rw [ledger_of_change (s := r.step _) (c := c) hnodup (hold ha.1) rfl]
      · have herrored := hfails c rfl
        by_cases hrole : role (.viewer k o i) = true
        · simp [step, weight, charge, isPending, herrored, ha.2, hrole]
        · simp [step, weight, charge, ha.2, hrole]
      · intro d hd
        exact weight_step_of_ne rfl hd
  | leave c =>
      rw [ledger_of_change (s := r.step _) (c := c) hnodup (hold (Or.inr ha.1)) rfl]
      · rw [weight_of_none ha.2, weight_of_none (by simpa [step] using ha.2)]
        rfl
      · intro d hd
        exact weight_step_of_ne rfl hd
  | leaveAgent c k o =>
      rw [ledger_of_change (s := r.step _) (c := c) hnodup (hold (Or.inr ha.1)) rfl]
      · by_cases hrole : role (.agent k o) = true
        · simp [step, weight, charge, isPending, ha.1, ha.2, hrole, hclosed]
        · simp [step, weight, charge, ha.2, hrole]
      · intro d hd
        exact weight_step_of_ne rfl hd
  | leaveViewer c k o i =>
      rw [ledger_of_change (s := r.step _) (c := c) hnodup (hold (Or.inr ha.1)) rfl]
      · by_cases hrole : role (.viewer k o i) = true
        · simp [step, weight, charge, isPending, ha.1, ha.2, hrole, hclosed]
        · simp [step, weight, charge, ha.2, hrole]
      · intro d hd
        exact weight_step_of_ne rfl hd
  | rest => simp [step, charge]

end Registry

/-! ## What an event adds to the gauges -/

namespace Server

variable (σ : Server)

/-- What the arrival of a connection leaves in `activeConnections` when the handler throws. -/
def overrun : Event → ℤ
  | .connect c parsedUrl _ =>
      indicator (decide
        ((σ.arrive c parsedUrl).Rejects c parsedUrl ∧ ¬ FitsCloseFrame c parsedUrl))
  | .unparsable _ => 1
  | _ => 0

/-- The three gauges, one by one, after the event `e`. -/
structure Charged (e : Event) (τ : Server) : Prop where
  agents : τ.connectionState.agentConnections =
    σ.connectionState.agentConnections + σ.registry.charge 1 (-1) Acceptance.isAgent (σ.action e)
  viewers : τ.connectionState.viewerConnections =
    σ.connectionState.viewerConnections + σ.registry.charge 1 (-1) Acceptance.isViewer (σ.action e)
  active : τ.connectionState.activeConnections =
    σ.connectionState.activeConnections + σ.registry.charge 1 (-1) Acceptance.isAgent (σ.action e) +
      σ.registry.charge 1 (-1) Acceptance.isViewer (σ.action e) + σ.overrun e

variable {σ} {ws : ConnId}

/-- An event that is no rejection, with its charges, leaves nothing over. -/
theorem charged_of {e : Event} {τ : Server} (agents viewers : ℤ)
    (hagents : σ.registry.charge 1 (-1) Acceptance.isAgent (σ.action e) = agents)
    (hviewers : σ.registry.charge 1 (-1) Acceptance.isViewer (σ.action e) = viewers)
    (hover : σ.overrun e = 0)
    (h : τ.connectionState.agentConnections = σ.connectionState.agentConnections + agents ∧
      τ.connectionState.viewerConnections = σ.connectionState.viewerConnections + viewers ∧
      τ.connectionState.activeConnections =
        σ.connectionState.activeConnections + agents + viewers) : σ.Charged e τ := by
  obtain ⟨hagent, hviewer, hactive⟩ := h
  exact ⟨by rw [hagent, hagents], by rw [hviewer, hviewers],
    by rw [hactive, hagents, hviewers, hover, add_zero]⟩

/-- An uncaught exception leaves the counters. -/
theorem connectionState_settle (result : EStateM.Result JsError Server Unit) :
    (settle result).connectionState = (finalState result).connectionState := by
  cases result <;> rfl

/-- An arrival counts one more connection, in all and at present. -/
theorem connectionState_enter (parsedUrl : ParsedUrl) (now : ℕ) :
    (σ.enter ws parsedUrl now).connectionState =
      { σ.connectionState with
        totalConnections := σ.connectionState.totalConnections + 1
        activeConnections := σ.connectionState.activeConnections + 1 } := by
  unfold enter
  cases parsedUrl.sessionId.key ws with
  | none => rfl
  | some k =>
      simp only [joinSession]
      split <;> rfl

/-- Accepting an agent counts one more agent. -/
theorem connectionState_acceptAgent (k : SessionId) (o : SessionRef) :
    (σ.acceptAgent ws k o).connectionState =
      { σ.connectionState with
        agentConnections := σ.connectionState.agentConnections + 1 } := by
  simp [acceptAgent, count]

/-- Accepting a viewer counts one more viewer. -/
theorem connectionState_acceptViewer (k : SessionId) (o : SessionRef) (i : String) :
    (σ.acceptViewer ws k o i).connectionState =
      { σ.connectionState with
        viewerConnections := σ.connectionState.viewerConnections + 1 } := by
  simp [acceptViewer, count]

/-- A rejection gives back the connection it counted, unless it throws. -/
theorem connectionState_turnAway (code : ℕ) (reason : String) :
    (finalState (σ.turnAway ws code reason)).connectionState =
      if 123 < reason.utf8ByteSize then σ.connectionState
      else { σ.connectionState with
        activeConnections := σ.connectionState.activeConnections - 1 } := by
  unfold turnAway
  split <;> rfl

/-- A connection that is not rejected leaves nothing over. -/
theorem overrun_of_not_rejects {parsedUrl : ParsedUrl} {now : ℕ}
    (h : ¬ (σ.arrive ws parsedUrl).Rejects ws parsedUrl) :
    σ.overrun (.connect ws parsedUrl now) = 0 := by
  simp [overrun, h]

/-- What a connection leaves in the gauges is decided by its verdict. -/
theorem connectionState_step_connect (σ : Server) (ws : ConnId) (parsedUrl : ParsedUrl) (now : ℕ) :
    (σ.step (.connect ws parsedUrl now)).connectionState =
      (finalState ((σ.arrive ws parsedUrl).decided ws parsedUrl now)).connectionState := by
  rw [step_connect, connectionState_settle]

/-- A connection that is turned away is counted down again, unless its text is too long. -/
theorem charged_step_turnedAway {parsedUrl : ParsedUrl} {code : ℕ} {reason : String} (now : ℕ)
    (hverdict : (σ.arrive ws parsedUrl).verdict ws parsedUrl = .turnedAway code reason) :
    σ.Charged (.connect ws parsedUrl now) (σ.step (.connect ws parsedUrl now)) := by
  have hstart : (σ.arrive ws parsedUrl).connectionState = σ.connectionState := rfl
  have hstep := connectionState_step_connect σ ws parsedUrl now
  have hrejects := rejects_iff.mpr ⟨code, reason, hverdict⟩
  obtain ⟨code', hreason⟩ := hrejects.verdict
  rw [hverdict] at hreason
  obtain ⟨rfl, rfl⟩ := Verdict.turnedAway.inj hreason
  have haction : σ.action (.connect ws parsedUrl now) = .turnAway ws (parsedUrl.sessionId.key ws) :=
    action_eq_turnAway_iff.mpr ⟨parsedUrl, now, rfl, rfl, code, _, hverdict⟩
  rw [decided] at hstep
  simp only [hverdict, connectionState_turnAway, connectionState_enter, hstart] at hstep
  by_cases hfits : FitsCloseFrame ws parsedUrl
  · have hover : σ.overrun (.connect ws parsedUrl now) = 0 := by simp [overrun, hfits]
    rw [if_neg (closeReason_fits_iff.mpr hfits)] at hstep
    apply charged_of 0 0 <;> try rw [haction]; rfl
    · exact hover
    · rw [hstep]
      simp
  · -- the text is too long: what was counted at the arrival stays counted
    have hlong : 123 < (closeReason ws parsedUrl).utf8ByteSize := by
      by_contra h
      exact hfits (closeReason_fits_iff.mp h)
    have hover : σ.overrun (.connect ws parsedUrl now) = 1 := by
      simp [overrun, hrejects, hfits]
    rw [if_pos hlong] at hstep
    constructor
    · rw [hstep, haction]
      exact (add_zero _).symm
    · rw [hstep, haction]
      exact (add_zero _).symm
    · rw [hstep, haction, hover]
      simp [Registry.charge]

/-- The gauges after an arrival. -/
theorem charged_step_connect (parsedUrl : ParsedUrl) (now : ℕ) :
    σ.Charged (.connect ws parsedUrl now) (σ.step (.connect ws parsedUrl now)) := by
  have hstart : (σ.arrive ws parsedUrl).connectionState = σ.connectionState := rfl
  have hstep := connectionState_step_connect σ ws parsedUrl now
  -- an accepted connection is not rejected
  have hover : (∀ code reason, (σ.arrive ws parsedUrl).verdict ws parsedUrl ≠
      .turnedAway code reason) → σ.overrun (.connect ws parsedUrl now) = 0 := by
    intro hne
    refine overrun_of_not_rejects fun hrejects => ?_
    obtain ⟨code, reason, hverdict⟩ := rejects_iff.mp hrejects
    exact hne code reason hverdict
  rw [decided] at hstep
  cases hverdict : (σ.arrive ws parsedUrl).verdict ws parsedUrl with
  | agent k =>
      have haction : σ.action (.connect ws parsedUrl now) = .admitAgent ws k :=
        action_eq_admitAgent_iff.mpr ⟨parsedUrl, now, rfl, hverdict⟩
      simp only [hverdict, finalState_ok, connectionState_acceptAgent, connectionState_enter,
        hstart] at hstep
      apply charged_of 1 0
      · rw [haction]; rfl
      · rw [haction]; rfl
      · exact hover fun code reason h => by rw [hverdict] at h; cases h
      · rw [hstep]
        exact ⟨rfl, (add_zero _).symm, (add_zero _).symm⟩
  | viewer k =>
      have haction : σ.action (.connect ws parsedUrl now) = .admitViewer ws k (toString now) :=
        action_eq_admitViewer_iff.mpr ⟨parsedUrl, now, rfl, rfl, hverdict⟩
      simp only [hverdict, finalState_ok, connectionState_acceptViewer, connectionState_enter,
        hstart] at hstep
      apply charged_of 0 1
      · rw [haction]; rfl
      · rw [haction]; rfl
      · exact hover fun code reason h => by rw [hverdict] at h; cases h
      · rw [hstep]
        refine ⟨(add_zero _).symm, rfl, ?_⟩
        rw [add_zero]
  | turnedAway code reason => exact charged_step_turnedAway now hverdict

/-- A connection with a URL that cannot be parsed is counted, and never counted down. -/
theorem charged_step_unparsable : σ.Charged (.unparsable ws) (σ.step (.unparsable ws)) := by
  rw [step_unparsable]
  refine ⟨(add_zero _).symm, (add_zero _).symm, ?_⟩
  show σ.connectionState.activeConnections + 1 = σ.connectionState.activeConnections + 0 + 0 + 1
  rw [add_zero, add_zero]

/-- An event without a charge that leaves the gauges alone. -/
theorem charged_of_same {e : Event} {τ : Server} (hsame : τ.connectionState = σ.connectionState)
    (hcharge : ∀ role, σ.registry.charge 1 (-1) role (σ.action e) = 0) (hover : σ.overrun e = 0) :
    σ.Charged e τ := by
  apply charged_of 0 0 (hcharge _) (hcharge _) hover
  rw [hsame]
  simp

/-- The gauges after a message. -/
theorem charged_step_message (hwf : σ.WellFormed) (message : Message) (now : ℕ) :
    σ.Charged (.message ws message now) (σ.step (.message ws message now)) := by
  apply charged_of_same _ (fun _ => rfl) rfl
  cases hacc : (σ.conn ws).acceptance with
  | none => rw [step_message_of_none hwf hacc]
  | some a =>
      cases a with
      | agent k o =>
          rw [step_agentMessage hwf hacc, connectionState_deliver]
          unfold noteScreen
          split
          · split <;> rfl
          · rfl
      | viewer k o i =>
          rw [step_viewerMessage hwf hacc, connectionState_deliver]
          unfold noteClient
          split
          · split <;> rfl
          · rfl

/-- The gauges after a pong. -/
theorem charged_step_pong (hwf : σ.WellFormed) :
    σ.Charged (.pong ws) (σ.step (.pong ws)) := by
  apply charged_of_same _ (fun _ => rfl) rfl
  show (settle ((emit ws (Listener.onPong ws)).run σ)).connectionState = _
  rcases hwf.attached ws with hnil | ⟨a, ha⟩
  · rw [run_emit_nil hnil]
    rfl
  · -- of the five listeners one is for pongs
    rw [run_emit_of_listeners ha]
    cases a <;> rfl

/-- The gauges after a tick. -/
theorem charged_step_tick : σ.Charged (.tick ws) (σ.step (.tick ws)) := by
  refine charged_of_same ?_ (fun role => ?_) rfl
  · show (settle ((pingTick ws).run σ)).connectionState = _
    rw [run_pingTick]
    show Server.connectionState (ite _ _ _) = _
    split
    · split
      · rw [connectionState_send]
        rfl
      · rfl
    · rfl
  · show σ.registry.charge 1 (-1) role (ite _ _ _) = 0
    split <;> rfl

/-- Dropping an empty session leaves the counters. -/
theorem connectionState_dropIfEmpty (k : SessionId) :
    (σ.dropIfEmpty k).connectionState = σ.connectionState := by
  unfold dropIfEmpty
  split
  · rfl
  · split <;> rfl

/-- The gauges after an error event. -/
theorem charged_step_error (hwf : σ.WellFormed) : σ.Charged (.error ws) (σ.step (.error ws)) := by
  have hstep : σ.step (.error ws) = settle ((emitError ws).run
      (σ.modifyConn ws fun w => { w with errored := true })) := rfl
  have haction : σ.action (.error ws) = errorAction ws (σ.conn ws).acceptance := rfl
  cases hacc : (σ.conn ws).acceptance with
  | none =>
      -- nobody listens: the error ends the process
      rw [hstep, run_emitError_nil (by simpa using hwf.listeners_of_none hacc)]
      refine charged_of_same rfl (fun role => ?_) rfl
      have hnone : σ.registry.acceptance ws = none := hacc
      simp [haction, hacc, errorAction, Registry.charge, hnone]
  | some a =>
      rw [hstep, run_emitError (a := a) (by simpa using hwf.listeners_of_acceptance hacc)]
      have hsome : σ.registry.acceptance ws = some a := hacc
      cases a with
      | agent k o =>
          apply charged_of (-1) 0 _ _ rfl
          · exact ⟨rfl, (add_zero _).symm, (add_zero _).symm⟩
          · simp [haction, hacc, errorAction, Registry.charge, hsome, Acceptance.isAgent]
          · simp [haction, hacc, errorAction, Registry.charge, hsome, Acceptance.isViewer,
              Acceptance.isAgent]
      | viewer k o i =>
          apply charged_of 0 (-1) _ _ rfl
          · exact ⟨(add_zero _).symm, rfl, by simp [fail, count, settle]; rfl⟩
          · simp [haction, hacc, errorAction, Registry.charge, Acceptance.isAgent]
          · simp [haction, hacc, errorAction, Registry.charge, Acceptance.isViewer,
              Acceptance.isAgent]

/-- The gauges after a close event. -/
theorem charged_step_close (hwf : σ.WellFormed) : σ.Charged (.close ws) (σ.step (.close ws)) := by
  have hstep : σ.step (.close ws) = settle ((emit ws (Listener.onClose ws)).run
      (σ.modifyConn ws fun w => { w with readyState := .CLOSED })) := rfl
  have haction : σ.action (.close ws) = closeAction ws (σ.conn ws).acceptance := rfl
  cases hacc : (σ.conn ws).acceptance with
  | none =>
      -- nobody listens to the close of a connection that was turned away
      rw [hstep, run_emit_nil (by simpa using hwf.listeners_of_none hacc)]
      refine charged_of_same rfl (fun role => ?_) rfl
      simp [haction, hacc, closeAction, Registry.charge]
  | some a =>
      rw [hstep, run_emit_onClose (a := a) (by simpa using hwf.listeners_of_acceptance hacc)]
      cases a with
      | agent k o =>
          apply charged_of (-1) 0 _ _ rfl
          · simp [settle, leave, connectionState_dropIfEmpty, count, sub_eq_add_neg]
          · simp [haction, hacc, closeAction, Registry.charge, Acceptance.isAgent]
          · simp [haction, hacc, closeAction, Registry.charge, Acceptance.isViewer,
              Acceptance.isAgent]
      | viewer k o i =>
          apply charged_of 0 (-1) _ _ rfl
          · simp [settle, leave, connectionState_dropIfEmpty, count, sub_eq_add_neg]
          · simp [haction, hacc, closeAction, Registry.charge, Acceptance.isAgent]
          · simp [haction, hacc, closeAction, Registry.charge, Acceptance.isViewer,
              Acceptance.isAgent]

/-- **What an event adds to the gauges.** -/
theorem charged_step (hwf : σ.WellFormed) (e : Event) : σ.Charged e (σ.step e) := by
  cases e with
  | connect ws parsedUrl now => exact charged_step_connect parsedUrl now
  | unparsable ws => exact charged_step_unparsable
  | closing ws => exact charged_of_same rfl (fun _ => rfl) rfl
  | message ws message now => exact charged_step_message hwf message now
  | pong ws => exact charged_step_pong hwf
  | tick ws => exact charged_step_tick
  | error ws => exact charged_step_error hwf
  | close ws => exact charged_step_close hwf

/-! ## The gauges of a run -/

/-- An error event is the only event that fails a connection. -/
theorem error_of_fails {e : Event} {c : ConnId} (h : (σ.action e).fails = some c) :
    e = .error c := by
  cases e with
  | connect ws parsedUrl now =>
      simp only [action] at h
      split at h <;> cases h
  | tick ws =>
      simp only [action] at h
      split at h <;> cases h
  | error ws =>
      simp only [action, errorAction] at h
      split at h <;> · cases h; rfl
  | close ws =>
      simp only [action, closeAction] at h
      split at h <;> cases h
  | _ => cases h

/-- The ledgers after an event. -/
theorem ledger_step (hwf : σ.WellFormed) (hnodup : σ.arrivals.Nodup) {e : Event}
    (he : σ.Enabled e) (p q : ℤ) (role : Acceptance → Bool) :
    (σ.step e).registry.ledger p q role =
      σ.registry.ledger p q role + σ.registry.charge p q role (σ.action e) := by
  rw [registry_step hwf he]
  refine Registry.ledger_step hwf.sound hnodup (enabled_action hwf he) fun c hc => ?_
  -- an error event fires at most once
  obtain rfl := error_of_fails hc
  exact he.2.2

/-- A connection arrives once. -/
theorem nodup_step (hwf : σ.WellFormed) (hnodup : σ.arrivals.Nodup) {e : Event}
    (he : σ.Enabled e) : (σ.step e).arrivals.Nodup := by
  have harrivals : (σ.step e).arrivals = (σ.registry.step (σ.action e)).arrivals := by
    rw [← registry_step hwf he]
    rfl
  rw [harrivals]
  rcases Registry.arrivals_step (enabled_action hwf he) with hsame | ⟨c, hc, hcons⟩
  · rw [hsame]
    exact hnodup
  · rw [hcons]
    exact List.nodup_cons.mpr ⟨hc, hnodup⟩

/-- **What the gauges show**, in every reachable state: each role's gauge is the number of its
pending connections less the number of those that failed, and `activeConnections` is not below the
sum of the two. -/
structure Gauged (σ : Server) : Prop where
  nodup : σ.arrivals.Nodup
  agents : σ.connectionState.agentConnections = σ.registry.ledger 1 (-1) Acceptance.isAgent
  viewers : σ.connectionState.viewerConnections = σ.registry.ledger 1 (-1) Acceptance.isViewer
  active : σ.connectionState.agentConnections + σ.connectionState.viewerConnections ≤
    σ.connectionState.activeConnections

/-- At first the gauges are zero. -/
theorem gauged_start : relay.start.Gauged := ⟨List.nodup_nil, rfl, rfl, le_refl _⟩

/-- What an event leaves over is not negative. -/
theorem overrun_nonneg (σ : Server) (e : Event) : 0 ≤ σ.overrun e := by
  cases e with
  | connect ws parsedUrl now => exact indicator_nonneg _
  | unparsable ws => exact zero_le_one
  | _ => exact le_refl 0

/-- Every event keeps the gauges in line with the ledger. -/
theorem Gauged.step (hwf : σ.WellFormed) (hσ : σ.Gauged) {e : Event} (he : σ.Enabled e) :
    (σ.step e).Gauged := by
  obtain ⟨hagents, hviewers, hactive⟩ := charged_step hwf e
  constructor
  · exact nodup_step hwf hσ.nodup he
  · rw [hagents, hσ.agents, ledger_step hwf hσ.nodup he]
  · rw [hviewers, hσ.viewers, ledger_step hwf hσ.nodup he]
  · have hover := overrun_nonneg σ e
    have hbefore := hσ.active
    omega

/-- How far the gauges are off: the failures of both roles, and what rejections left over. -/
def excess (σ : Server) : ℤ :=
  σ.registry.ledger 0 1 Acceptance.isAgent + σ.registry.ledger 0 1 Acceptance.isViewer +
    (σ.connectionState.activeConnections - σ.connectionState.agentConnections -
      σ.connectionState.viewerConnections)

end Server

namespace Registry

variable {r : Registry} {role : Acceptance → Bool} {a : Action}

/-- What errors weigh never goes down. -/
theorem charge_failures_nonneg : 0 ≤ r.charge 0 1 role a := by
  cases a <;> simp [charge, indicator_nonneg]

/-- What errors weigh is not negative. -/
theorem ledger_failures_nonneg : 0 ≤ r.ledger 0 1 role := by
  apply tally_nonneg
  intro c _
  rw [weight]
  split
  · simp [indicator_nonneg]
  · exact le_refl 0

/-- The gauge of a role is what is pending less what has failed. -/
theorem ledger_gauge : r.ledger 1 (-1) role = r.ledger 1 0 role - r.ledger 0 1 role := by
  rw [ledger, ledger, ledger, ← tally_sub]
  apply tally_congr
  intro c _
  rw [weight, weight, weight]
  split
  · ring
  · rfl

end Registry

namespace Server

variable {σ : Server} {e : Event}

/-- What is pending is what is counted. -/
theorem ledger_pending (σ : Server) (role : Acceptance → Bool) :
    σ.registry.ledger 1 0 role = σ.pendingIn role := by
  rw [Registry.ledger, pendingIn, ← tally_eq_countP]
  apply tally_congr
  intro c _
  have hacceptance : σ.registry.acceptance c = (σ.conn c).acceptance := rfl
  have hpending : σ.registry.isPending c = (σ.conn c).isPending := rfl
  rw [Registry.weight, hacceptance, hpending]
  cases (σ.conn c).acceptance.any role <;> simp

/-- What an event adds to the excess: its failures and what it leaves over. -/
def added (σ : Server) (e : Event) : ℤ :=
  σ.registry.charge 0 1 Acceptance.isAgent (σ.action e) +
    σ.registry.charge 0 1 Acceptance.isViewer (σ.action e) + σ.overrun e

/-- The gauges never get closer again. -/
theorem added_nonneg (σ : Server) (e : Event) : 0 ≤ σ.added e := by
  have hagents : 0 ≤ σ.registry.charge 0 1 Acceptance.isAgent (σ.action e) :=
    Registry.charge_failures_nonneg
  have hviewers : 0 ≤ σ.registry.charge 0 1 Acceptance.isViewer (σ.action e) :=
    Registry.charge_failures_nonneg
  have hover := overrun_nonneg σ e
  unfold added
  omega

/-- Every event adds to what the gauges are off by. -/
theorem excess_step (hwf : σ.WellFormed) (hnodup : σ.arrivals.Nodup) (he : σ.Enabled e) :
    (σ.step e).excess = σ.excess + σ.added e := by
  obtain ⟨hagents, hviewers, hactive⟩ := charged_step hwf e
  rw [excess, excess, added, ledger_step hwf hnodup he, ledger_step hwf hnodup he, hagents,
    hviewers, hactive]
  ring

/-- An error event adds a failure when its connection was accepted. -/
theorem added_error (ws : ConnId) :
    σ.added (.error ws) = indicator (σ.conn ws).acceptance.isSome := by
  have haction : σ.action (.error ws) = errorAction ws (σ.conn ws).acceptance := rfl
  have hacceptance : σ.registry.acceptance ws = (σ.conn ws).acceptance := rfl
  have hover : σ.overrun (.error ws) = 0 := rfl
  rw [added, haction, hover]
  rcases hacc : (σ.conn ws).acceptance with _ | ⟨k, o⟩ | ⟨k, o, i⟩
  · simp [errorAction, Registry.charge, hacceptance, hacc]
  · simp [errorAction, Registry.charge, hacceptance, hacc, Acceptance.isViewer, Acceptance.isAgent]
  · simp [errorAction, Registry.charge, Acceptance.isViewer, Acceptance.isAgent]

/-- An arrival adds what it leaves over. -/
theorem added_connect (ws : ConnId) (parsedUrl : ParsedUrl) (now : ℕ) :
    σ.added (.connect ws parsedUrl now) = σ.overrun (.connect ws parsedUrl now) := by
  unfold added action
  simp only
  split <;> simp [Registry.charge]

/-- An event adds nothing exactly when it counts its connection once. -/
theorem countedOnce_iff : σ.CountedOnce e ↔ σ.added e = 0 := by
  constructor
  · rintro ⟨herror, hconnect, hparsable⟩
    cases e with
    | connect ws parsedUrl now =>
        -- a rejection that fits its close frame adds nothing
        have hfits := hconnect ws parsedUrl now rfl
        rw [added_connect, overrun]
        rw [decide_eq_false fun h => h.2 (hfits h.1)]
        rfl
    | unparsable ws => exact absurd rfl (hparsable ws)
    | error ws =>
        rw [added_error, herror ws rfl]
        rfl
    | tick ws =>
        unfold added action
        simp only
        split <;> rfl
    | close ws =>
        unfold added action closeAction
        simp only
        split <;> simp [Registry.charge, overrun]
    | _ => rfl
  · intro hnone
    constructor
    · rintro c rfl
      rw [added_error] at hnone
      -- the error of an accepted connection is counted again at its close
      cases hacc : (σ.conn c).acceptance with
      | none => rfl
      | some a =>
          rw [hacc] at hnone
          cases hnone
    · rintro c parsedUrl now rfl hrejects
      by_contra hfits
      rw [added_connect, overrun, decide_eq_true ⟨hrejects, hfits⟩] at hnone
      cases hnone
    · -- an arrival that throws at its URL stays counted
      rintro c rfl
      cases hnone

/-- What has no excess is exact. -/
theorem gaugesExact_of_excess_eq_zero (hσ : σ.Gauged) (hzero : σ.excess = 0) : σ.GaugesExact := by
  have hagents : 0 ≤ σ.registry.ledger 0 1 Acceptance.isAgent := Registry.ledger_failures_nonneg
  have hviewers : 0 ≤ σ.registry.ledger 0 1 Acceptance.isViewer := Registry.ledger_failures_nonneg
  have hactive := hσ.active
  unfold excess at hzero
  have hagent : σ.connectionState.agentConnections = σ.pendingIn Acceptance.isAgent := by
    rw [hσ.agents, Registry.ledger_gauge, ledger_pending]
    omega
  have hviewer : σ.connectionState.viewerConnections = σ.pendingIn Acceptance.isViewer := by
    rw [hσ.viewers, Registry.ledger_gauge, ledger_pending]
    omega
  have hsum : σ.connectionState.activeConnections =
      σ.connectionState.agentConnections + σ.connectionState.viewerConnections := by omega
  have hclosed : σ.AllClosed → ∀ role, σ.pendingIn role = 0 := by
    intro hall role
    apply List.countP_eq_zero.mpr
    intro c hc
    simp [Conn.isPending, hall c hc]
  refine ⟨fun _ => hagent, fun _ => hviewer, fun _ => hsum, by omega, fun hall => ?_⟩
  have hnone := hclosed hall Acceptance.isAgent
  have hnone' := hclosed hall Acceptance.isViewer
  omega

/-- What is exact, with no socket between its error and its close event, has no excess. -/
theorem excess_eq_zero_of_gaugesExact (hσ : σ.Gauged) (hquiet : σ.NoneFailing)
    (hexact : σ.GaugesExact) : σ.excess = 0 := by
  have hagents := hexact.agents hquiet
  have hviewers := hexact.viewers hquiet
  have hactive := hexact.active hquiet
  rw [hσ.agents, Registry.ledger_gauge, ledger_pending] at hagents
  rw [hσ.viewers, Registry.ledger_gauge, ledger_pending] at hviewers
  unfold excess
  omega

/-- The gauges follow the ledger in every state of a run. -/
theorem relay_gauged {es : List Event} (hrun : relay.IsRun es) :
    relay.States (fun σ => σ.WellFormed ∧ σ.Gauged) relay.start es :=
  relay.states_of_invariant ⟨wellFormed_start, gauged_start⟩
    (fun _ _ h he => ⟨wellFormed_step h.1 he, h.2.step h.1 he⟩) hrun

end Server

open Server

/-- **When the gauges are exact.** In every run in which no accepted connection has an error event,
no connection is rejected with a text too long for a close frame and every request URL can be
parsed, the gauges are exact in every state; and if the gauges are exact throughout a run that ends
with no socket between its error and its close event, then the run was of this kind. -/
theorem gaugesExact_iff_countedOnce {es : List Event} (hrun : relay.IsRun es) :
    (relay.Steps CountedOnce relay.start es → relay.States GaugesExact relay.start es) ∧
      ((relay.after relay.start es).NoneFailing → relay.States GaugesExact relay.start es →
        relay.Steps CountedOnce relay.start es) := by
  have hgauged := relay_gauged hrun
  constructor
  · intro hcounted
    -- no event adds to the excess
    have hstates :
        relay.States (fun σ => (σ.WellFormed ∧ σ.Gauged) ∧ σ.excess = 0) relay.start es := by
      refine relay.states_of_steps ?_ ⟨⟨wellFormed_start, gauged_start⟩, rfl⟩ hrun hcounted
      rintro σ e ⟨⟨hwf, hσ⟩, hzero⟩ he hcounted
      refine ⟨⟨wellFormed_step hwf he, hσ.step hwf he⟩, ?_⟩
      show (σ.step e).excess = 0
      rw [excess_step hwf hσ.nodup he, hzero, countedOnce_iff.mp hcounted]
      rfl
    exact GuardedMachine.States.mono _
      (fun σ h => gaugesExact_of_excess_eq_zero h.1.2 h.2) hstates
  · intro hquiet hexact
    -- the excess never goes down and is zero in the end, so no event has added to it
    refine relay.steps_of_measure excess ?_ ?_ hgauged hrun ?_
    · rintro σ e ⟨hwf, hσ⟩ he
      have hstep := excess_step hwf hσ.nodup he
      have hadded := added_nonneg σ e
      show σ.excess ≤ (σ.step e).excess
      omega
    · rintro σ e ⟨hwf, hσ⟩ he hle
      have hstep := excess_step hwf hσ.nodup he
      have hadded := added_nonneg σ e
      have hle : (σ.step e).excess ≤ σ.excess := hle
      exact countedOnce_iff.mpr (by omega)
    · rw [excess_eq_zero_of_gaugesExact hgauged.last.2 hquiet hexact.last]
      exact le_refl 0

/-- An agent and a viewer connect and leave again. -/
theorem gaugesExact_meeting :
    relay.States GaugesExact relay.start [.connect 0 ⟨some "/agent", .one "s"⟩ 0,
      .connect 1 ⟨some "/viewer", .one "s"⟩ 1, .closing 1, .close 1, .closing 0, .close 0] :=
  (gaugesExact_iff_countedOnce (by decide)).1 (by decide)

/-- A viewer connects, fails and is closed: both handlers count it down. -/
theorem gaugesExact_failedViewer :
    let es : List Event := [.connect 0 ⟨some "/viewer", .one "s"⟩ 0, .error 0, .closing 0, .close 0]
    relay.IsRun es ∧ (relay.after relay.start es).AllClosed ∧
      (relay.after relay.start es).connectionState.viewerConnections = -1 ∧
      (relay.after relay.start es).connectionState.activeConnections = -1 ∧
      ¬ relay.States GaugesExact relay.start es := by
  refine ⟨by decide, by unfold AllClosed; decide, by decide, by decide, fun h => ?_⟩
  have hnonneg := h.last.nonneg.2.1
  revert hnonneg
  decide

end BrowCast
