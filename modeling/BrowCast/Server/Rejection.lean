import BrowCast.Server.RegistryRefinement

/-! # Rejected connections

The three ways a connection is turned away, and what they leave behind: the state of the process,
and a socket that is closing. A rejection is meant to change nothing, and no socket is meant to be
without an `'error'` listener. -/

namespace BrowCast

namespace Server

variable (σ : Server) (ws : ConnId) (parsedUrl : ParsedUrl)

/-- The connection handler rejects the socket `ws`, which has just arrived: there is no session id,
or the path is unknown, or an agent connects to a session whose agent is OPEN. -/
def Rejects : Prop :=
  parsedUrl.sessionId.key ws = none ∨
    (parsedUrl.pathname ≠ some "/agent" ∧ parsedUrl.pathname ≠ some "/viewer") ∨
    parsedUrl.pathname = some "/agent" ∧ ∃ sessionId session,
      parsedUrl.sessionId.key ws = some sessionId ∧
        σ.sessions.get? sessionId = some session ∧ σ.agentOpen session = true

/-- The text a rejected connection is closed with. -/
def closeReason : String :=
  match parsedUrl.sessionId.key ws with
  | none => "Connection attempt without sessionId. Closing connection."
  | some sessionId =>
      if parsedUrl.pathname = some "/agent" then
        "Agent already connected for session " ++ sessionId.toText
      else "Unknown connection path: " ++ pathText parsedUrl.pathname

/-- The text fits in a close frame: a session id of at most 87 bytes, or a path of at most 98. -/
def FitsCloseFrame : Prop :=
  match parsedUrl.sessionId.key ws with
  | none => True
  | some sessionId =>
      if parsedUrl.pathname = some "/agent" then sessionId.toText.utf8ByteSize ≤ 87
      else (pathText parsedUrl.pathname).utf8ByteSize ≤ 98

instance : Decidable (FitsCloseFrame ws parsedUrl) := by
  unfold FitsCloseFrame
  split <;> infer_instance

/-- Everything but `totalConnections` and the activity times is the same. -/
structure Untouched (τ : Server) : Prop where
  sessions : τ.sessions = σ.sessions
  agent : ∀ session, (τ.sessionAt session).agent = (σ.sessionAt session).agent
  viewers : ∀ session, (τ.sessionAt session).viewers = (σ.sessionAt session).viewers
  agentScreen : ∀ session, (τ.sessionAt session).agentScreen = (σ.sessionAt session).agentScreen
  clientScreens : ∀ session,
    (τ.sessionAt session).clientScreens = (σ.sessionAt session).clientScreens
  activeConnections :
    τ.connectionState.activeConnections = σ.connectionState.activeConnections
  agentConnections : τ.connectionState.agentConnections = σ.connectionState.agentConnections
  viewerConnections : τ.connectionState.viewerConnections = σ.connectionState.viewerConnections

variable {σ ws parsedUrl}

/-- An id is taken when its session has an OPEN agent. -/
theorem agentTaken_eq_true_iff {sessionId : SessionId} : σ.agentTaken sessionId = true ↔
    ∃ session, σ.sessions.get? sessionId = some session ∧ σ.agentOpen session = true := by
  unfold agentTaken
  cases σ.sessions.get? sessionId <;> simp

/-- A rejected connection is decided so, with its close reason. -/
theorem Rejects.verdict (h : σ.Rejects ws parsedUrl) :
    ∃ code, σ.verdict ws parsedUrl = .turnedAway code (closeReason ws parsedUrl) := by
  unfold Server.verdict closeReason
  cases hkey : parsedUrl.sessionId.key ws with
  | none => exact ⟨1008, rfl⟩
  | some k =>
      rcases h with hnone | ⟨hagent, hviewer⟩ | ⟨hagent, l, o, hl, ho, hopen⟩
      · rw [hkey] at hnone
        cases hnone
      · exact ⟨1000, by simp [hagent, hviewer]⟩
      · rw [hkey] at hl
        obtain rfl := Option.some.inj hl
        exact ⟨1008, by simp [hagent, agentTaken_eq_true_iff.mpr ⟨o, ho, hopen⟩]⟩

/-- A connection that is not rejected is accepted. -/
theorem verdict_of_not_rejects (h : ¬ σ.Rejects ws parsedUrl) :
    ∃ k, σ.verdict ws parsedUrl = .agent k ∨ σ.verdict ws parsedUrl = .viewer k := by
  unfold Rejects at h
  push Not at h
  obtain ⟨hkey, hpath, hfree⟩ := h
  obtain ⟨k, hk⟩ := Option.ne_none_iff_exists'.mp hkey
  refine ⟨k, ?_⟩
  by_cases hagent : parsedUrl.pathname = some "/agent"
  · left
    refine (verdict_eq_agent_iff ..).mpr ⟨hk, hagent, ?_⟩
    rw [← Bool.not_eq_true, agentTaken_eq_true_iff]
    rintro ⟨o, ho, hopen⟩
    exact hfree hagent k o hk ho hopen
  · exact Or.inr ((verdict_eq_viewer_iff ..).mpr ⟨hk, hpath hagent⟩)

/-- The connection is rejected exactly when it is decided to be turned away. -/
theorem rejects_iff : σ.Rejects ws parsedUrl ↔
    ∃ code reason, σ.verdict ws parsedUrl = .turnedAway code reason := by
  constructor
  · intro h
    obtain ⟨code, hcode⟩ := h.verdict
    exact ⟨code, _, hcode⟩
  · rintro ⟨code, reason, hverdict⟩
    by_contra hnot
    obtain ⟨k, hk | hk⟩ := verdict_of_not_rejects hnot
    · rw [hk] at hverdict
      cases hverdict
    · rw [hk] at hverdict
      cases hverdict

instance : Decidable (σ.Rejects ws parsedUrl) :=
  match h : σ.verdict ws parsedUrl with
  | .agent _ | .viewer _ => .isFalse fun hrejects => by
      obtain ⟨code, reason, hverdict⟩ := rejects_iff.mp hrejects
      rw [h] at hverdict
      cases hverdict
  | .turnedAway code reason => .isTrue (rejects_iff.mpr ⟨code, reason, h⟩)

/-- A close reason fits its frame when it is at most 123 bytes long. -/
theorem closeReason_fits_iff :
    ¬ 123 < (closeReason ws parsedUrl).utf8ByteSize ↔ FitsCloseFrame ws parsedUrl := by
  -- 123 = 36 + 87 = 25 + 98
  have hnone : "Connection attempt without sessionId. Closing connection.".utf8ByteSize = 57 := by
    decide
  have hagent : "Agent already connected for session ".utf8ByteSize = 36 := by decide
  have hpath : "Unknown connection path: ".utf8ByteSize = 25 := by decide
  unfold closeReason FitsCloseFrame
  cases parsedUrl.sessionId.key ws with
  | none => simp [hnone]
  | some k =>
      by_cases h : parsedUrl.pathname = some "/agent"
      · simp only [h, if_true, String.utf8ByteSize_append, hagent]
        omega
      · simp only [h, if_false, String.utf8ByteSize_append, hpath]
        omega

/-- The run of the handler on a connection it rejects. -/
theorem run_onConnection_of_rejects (hopen : (σ.conn ws).readyState = .OPEN)
    (h : σ.Rejects ws parsedUrl) (now : ℕ) : ∃ code, (onConnection ws (.ok parsedUrl) now).run σ =
      (σ.enter ws parsedUrl now).turnAway ws code (closeReason ws parsedUrl) := by
  obtain ⟨code, hcode⟩ := h.verdict
  exact ⟨code, by rw [run_onConnection hopen, decided, hcode]⟩

/-! ## What a rejection changes -/

/-- Turning a connection away returns when its text fits in a close frame. -/
theorem turnAway_eq_ok_iff {code : ℕ} {τ : Server} :
    σ.turnAway ws code (closeReason ws parsedUrl) = .ok () τ ↔
      FitsCloseFrame ws parsedUrl ∧
        τ = (σ.modifyConn ws fun w => { w with
            readyState := .CLOSING
            sent := w.sent ++ [.close code (closeReason ws parsedUrl)] }).count
          fun n => { n with activeConnections := n.activeConnections - 1 } := by
  unfold turnAway
  by_cases hlong : 123 < (closeReason ws parsedUrl).utf8ByteSize
  · have hfits : ¬ FitsCloseFrame ws parsedUrl := fun h => closeReason_fits_iff.mpr h hlong
    simp [hlong, hfits]
  · have hfits : FitsCloseFrame ws parsedUrl := closeReason_fits_iff.mp hlong
    simp [hlong, hfits, eq_comm]

/-- Looking up a session that exists changes its activity time only. -/
theorem untouched_enter_of_has {k : SessionId} (hkey : parsedUrl.sessionId.key ws = some k)
    (hhas : σ.sessions.has k = true) (now : ℕ) :
    σ.Untouched ((σ.enter ws parsedUrl now).count fun n => { n with
      activeConnections := n.activeConnections - 1 }) := by
  obtain ⟨o, ho⟩ := Option.isSome_iff_exists.mp hhas
  -- entering counts the arrival and touches the session, no more
  have henter : σ.enter ws parsedUrl now =
      (σ.count fun n => { n with
        totalConnections := n.totalConnections + 1
        activeConnections := n.activeConnections + 1 }).modifySession o
          fun s => { s with lastActivity := now } := by
    unfold enter
    simp only [hkey]
    exact joinSession_of_some ho
  rw [henter]
  constructor
  case sessions => rfl
  case activeConnections => exact add_sub_cancel_right ..
  case agentConnections => rfl
  case viewerConnections => rfl
  all_goals
    intro session
    simp only [sessionAt_count, sessionAt_modifySession]
    split
    · rename_i h
      rw [h]
    · rfl

/-- Looking up a session that does not exist creates it. -/
theorem has_enter {k : SessionId} (hkey : parsedUrl.sessionId.key ws = some k) (now : ℕ) :
    (σ.enter ws parsedUrl now).sessions.has k = true := by
  unfold enter
  simp only [hkey]
  cases hget : (σ.count fun n => { n with
      totalConnections := n.totalConnections + 1
      activeConnections := n.activeConnections + 1 }).sessions.get? k with
  | some o =>
      rw [joinSession_of_some hget]
      simpa [InsertionMap.has] using Option.isSome_iff_exists.mpr ⟨o, hget⟩
  | none =>
      rw [joinSession_of_none hget]
      simp [InsertionMap.has, InsertionMap.get?_set_self]

end Server

open Server

/-- **When a rejected connection leaves the server as it was.** The handler returns, and nothing but
`totalConnections` and an activity time changed, exactly when there was no session id, or the
session existed already and the text the connection is closed with fits in a close frame. -/
theorem rejection_untouched_iff {σ : Server} {ws : ConnId} {parsedUrl : ParsedUrl}
    (hrejects : (σ.arrive ws parsedUrl).Rejects ws parsedUrl) (now : ℕ) :
    (∃ τ, (onConnection ws (.ok parsedUrl) now).run (σ.arrive ws parsedUrl) = .ok () τ ∧
        σ.Untouched τ) ↔
      parsedUrl.sessionId.key ws = none ∨
        (∃ sessionId, parsedUrl.sessionId.key ws = some sessionId ∧
          σ.sessions.has sessionId = true) ∧ FitsCloseFrame ws parsedUrl := by
  have hopen := readyState_arrive σ ws parsedUrl
  obtain ⟨code, hrun⟩ := run_onConnection_of_rejects hopen hrejects now
  simp only [hrun, turnAway_eq_ok_iff]
  cases hkey : parsedUrl.sessionId.key ws with
  | none =>
      refine iff_of_true ⟨_, ⟨by simp [FitsCloseFrame, hkey], rfl⟩, ?_⟩ (Or.inl rfl)
      simp only [enter, hkey]
      constructor
      case activeConnections => exact add_sub_cancel_right ..
      all_goals first | rfl | exact fun _ => rfl
  | some k =>
      simp only [reduceCtorEq, Option.some.injEq, exists_eq_left', false_or]
      constructor
      · rintro ⟨τ, ⟨hfits, rfl⟩, huntouched⟩
        refine ⟨?_, hfits⟩
        -- after the lookup the id is in the map, and the map is the one from before
        have hmap : ((σ.arrive ws parsedUrl).enter ws parsedUrl now).sessions = σ.sessions :=
          huntouched.sessions
        rw [← hmap]
        exact has_enter hkey now
      · rintro ⟨hhas, hfits⟩
        refine ⟨_, ⟨hfits, rfl⟩, ?_⟩
        have hentered := untouched_enter_of_has (σ := σ.arrive ws parsedUrl) hkey hhas now
        exact ⟨hentered.sessions, hentered.agent, hentered.viewers, hentered.agentScreen,
          hentered.clientScreens, hentered.activeConnections, hentered.agentConnections,
          hentered.viewerConnections⟩

/-- A connection with an unknown path to a session that exists. -/
theorem rejection_untouched_unknownPath :
    let σ := relay.after relay.start [.connect 0 ⟨some "/viewer", .one "s"⟩ 0]
    ∃ τ, (onConnection 1 (.ok ⟨some "/", .one "s"⟩) 1).run
        (σ.arrive 1 ⟨some "/", .one "s"⟩) = .ok () τ ∧ σ.Untouched τ :=
  (rejection_untouched_iff (Or.inr (Or.inl (by decide))) 1).mpr
    (Or.inr ⟨⟨.text "s", rfl, by decide⟩, by decide⟩)

/-- A connection with an unknown path to a session that does not exist creates the session, and
leaves it behind. -/
theorem rejection_createsSession :
    (relay.start.arrive 0 ⟨some "/", .one "s"⟩).Rejects 0 ⟨some "/", .one "s"⟩ ∧
      (finalState ((onConnection 0 (.ok ⟨some "/", .one "s"⟩) 0).run
        (relay.start.arrive 0 ⟨some "/", .one "s"⟩))).sessions.has (.text "s") = true ∧
      ¬ ∃ τ, (onConnection 0 (.ok ⟨some "/", .one "s"⟩) 0).run
          (relay.start.arrive 0 ⟨some "/", .one "s"⟩) = .ok () τ ∧ relay.start.Untouched τ := by
  refine ⟨Or.inr (Or.inl (by decide)), by decide, ?_⟩
  rintro ⟨τ, hrun, huntouched⟩
  have hhas : (finalState ((onConnection 0 (.ok ⟨some "/", .one "s"⟩) 0).run
      (relay.start.arrive 0 ⟨some "/", .one "s"⟩))).sessions.has (.text "s") = true := by decide
  rw [hrun, finalState_ok, huntouched.sessions] at hhas
  revert hhas
  decide

/-! ## Error listeners -/

namespace Registry

variable {r : Registry} {a : Action}

/-- Every pending connection was accepted. -/
def PendingAccepted (r : Registry) : Prop := ∀ c, r.Pending c → r.acceptance c ≠ none

/-- A connection is pending from its arrival on. -/
theorem pending_step (ha : r.Enabled a) {c : ConnId} (hc : (r.step a).Pending c) :
    (∃ k, a = .admitAgent c k) ∨ (∃ k i, a = .admitViewer c k i) ∨ (∃ k, a = .turnAway c k) ∨
      a = .arrive c ∨ r.Pending c := by
  unfold Pending at *
  cases a <;> simp [Registry.step, Function.update_apply, Enabled, Pending] at ha hc ⊢ <;> grind

/-- Only a connection that is turned away, or left as it arrived, is pending without having been
accepted. -/
theorem PendingAccepted.step (hsound : r.Sound) (ha : r.Enabled a) (h : r.PendingAccepted)
    (hnone : ∀ c k, a ≠ .turnAway c k) (hdecided : ∀ c, a ≠ .arrive c) :
    (r.step a).PendingAccepted := by
  intro c hc
  rw [Option.ne_none_iff_exists']
  rcases pending_step ha hc with ⟨k, rfl⟩ | ⟨k, i, rfl⟩ | ⟨k, hk⟩ | hk | hold
  · exact ⟨_, (acceptance_step hsound ha c _).mpr (Or.inl ⟨k, rfl, rfl⟩)⟩
  · exact ⟨_, (acceptance_step hsound ha c _).mpr (Or.inr (Or.inl ⟨k, i, rfl, rfl⟩))⟩
  · exact absurd hk (hnone c k)
  · exact absurd hk (hdecided c)
  · obtain ⟨b, hb⟩ := Option.ne_none_iff_exists'.mp (h c hold)
    exact ⟨b, (acceptance_step hsound ha c b).mpr (Or.inr (Or.inr hb))⟩

end Registry

namespace Server

variable (σ : Server)

/-- While the process runs, every socket that was handed to the `'connection'` handler and whose
close event has not fired has an `'error'` listener. -/
def Listened : Prop :=
  σ.crashed = false → ∀ c, c ∈ σ.arrivals → (σ.conn c).isPending = true →
    (σ.conn c).hasErrorListener = true

/-- An `'error'` event has a listener. -/
def ErrorHandled (e : Event) : Prop := ∀ c, e = .error c → (σ.conn c).hasErrorListener = true

/-- No connection is rejected with a text that fits in a close frame. (With a longer text the
handler does not return.) -/
def NoneTurnedAway (e : Event) : Prop :=
  ∀ c parsedUrl now, e = .connect c parsedUrl now → (σ.arrive c parsedUrl).Rejects c parsedUrl →
    ¬ FitsCloseFrame c parsedUrl

instance (e : Event) : Decidable (σ.NoneTurnedAway e) :=
  match e with
  | .connect c parsedUrl _ =>
      decidable_of_iff
        ((σ.arrive c parsedUrl).Rejects c parsedUrl → ¬ FitsCloseFrame c parsedUrl)
        ⟨fun h _ _ _ he => by cases he; exact h, fun h => h c parsedUrl _ rfl⟩
  | .unparsable _ | .closing _ | .message _ _ _ | .pong _ | .tick _ | .error _ | .close _ =>
      .isTrue fun _ _ _ he => by cases he

variable {σ}

/-- A socket has an `'error'` listener exactly when it was accepted. -/
theorem WellFormed.hasErrorListener_iff (hwf : σ.WellFormed) (c : ConnId) :
    (σ.conn c).hasErrorListener = true ↔ (σ.conn c).acceptance ≠ none := by
  rcases hwf.attached c with hnil | ⟨a, ha⟩
  · simp [Conn.hasErrorListener, Conn.acceptance, hnil]
  · simp [Conn.hasErrorListener, Conn.acceptance, ha]

/-- The server listens for errors wherever its registry has every pending connection accepted. -/
theorem WellFormed.listened_iff (hwf : σ.WellFormed) :
    σ.Listened ↔ (σ.crashed = false → σ.registry.PendingAccepted) := by
  refine imp_congr Iff.rfl (forall_congr' fun c => ?_)
  rw [Conn.isPending_iff, hwf.hasErrorListener_iff]
  constructor
  · intro h hpending
    refine h ((hwf.sound.arrived c).mpr ?_) hpending
    rcases hpending with hc | hc <;> simp [hc]
  · intro h _
    exact h

/-- Joining a session does not crash the process. -/
@[simp] theorem crashed_joinSession (ws : ConnId) (sessionId : SessionId) (now : ℕ) :
    (σ.joinSession ws sessionId now).crashed = σ.crashed := by
  unfold joinSession; split <;> rfl

/-- The bookkeeping of a new connection does not crash the process. -/
@[simp] theorem crashed_enter (ws : ConnId) (parsedUrl : ParsedUrl) (now : ℕ) :
    (σ.enter ws parsedUrl now).crashed = σ.crashed := by
  unfold enter
  cases parsedUrl.sessionId.key ws with
  | none => rfl
  | some k => exact crashed_joinSession ws k now

/-- A rejected connection whose text does not fit in a close frame ends the process, and otherwise
the process goes on. -/
theorem crashed_step_of_rejects {ws : ConnId} {parsedUrl : ParsedUrl} {now : ℕ}
    (he : σ.Enabled (.connect ws parsedUrl now))
    (h : (σ.arrive ws parsedUrl).Rejects ws parsedUrl) :
    (σ.step (.connect ws parsedUrl now)).crashed = false ↔ FitsCloseFrame ws parsedUrl := by
  have hopen := readyState_arrive σ ws parsedUrl
  obtain ⟨code, hrun⟩ := run_onConnection_of_rejects hopen h now
  have hrunning : (σ.arrive ws parsedUrl).crashed = false := he.1
  show (settle _).crashed = false ↔ _
  rw [hrun, ← closeReason_fits_iff, turnAway]
  by_cases hlong : 123 < (closeReason ws parsedUrl).utf8ByteSize
  · simp [hlong, settle]
  · simp [hlong, settle, crashed_enter, hrunning]

/-- While every rejection has too long a text, each socket has its listener. -/
theorem Listened.step (hwf : σ.WellFormed) {e : Event} (he : σ.Enabled e) (h : σ.Listened)
    (hnone : σ.NoneTurnedAway e) : (σ.step e).Listened := by
  rw [(wellFormed_step hwf he).listened_iff, registry_step hwf he]
  intro hrunning
  refine Registry.PendingAccepted.step hwf.sound (enabled_action hwf he)
    (hwf.listened_iff.mp h he.1) (fun c k hact => ?_) fun c hact => ?_
  · -- a rejection that let the process go on had a text that fits, which is excluded
    obtain ⟨parsedUrl, now, rfl, -, hverdict⟩ := action_eq_turnAway_iff.mp hact
    have hrejects := rejects_iff.mpr hverdict
    exact hnone c parsedUrl now rfl hrejects ((crashed_step_of_rejects he hrejects).mp hrunning)
  · -- a URL that cannot be parsed ends the process
    obtain rfl := action_eq_arrive_iff.mp hact
    cases hrunning

/-- A connection that was turned away has no listener. -/
theorem Listened.noneTurnedAway (hwf : σ.WellFormed) {e : Event} (he : σ.Enabled e)
    (h : (σ.step e).Listened) : σ.NoneTurnedAway e := by
  rintro c parsedUrl now rfl hrejects hfits
  have hact : σ.action (.connect c parsedUrl now) = .turnAway c (parsedUrl.sessionId.key c) :=
    action_eq_turnAway_iff.mpr ⟨parsedUrl, now, rfl, rfl, rejects_iff.mp hrejects⟩
  rw [(wellFormed_step hwf he).listened_iff, registry_step hwf he, hact] at h
  refine h ((crashed_step_of_rejects he hrejects).mpr hfits) c ?_ ?_
  · exact Or.inr (Function.update_self ..)
  · -- nothing had accepted the newcomer before
    exact Option.eq_none_iff_forall_ne_some.mpr fun a ha => he.2 (hwf.sound.accepted c a ha).1

end Server

/-- **When every socket has an `'error'` listener.** Along a run of the server every socket has one
from the return of the `'connection'` handler to its close event, and every `'error'` event finds
one, exactly when no connection is rejected with a text that fits in a close frame. -/
theorem errorListeners_iff_noneTurnedAway {es : List Event} (hrun : relay.IsRun es) :
    (relay.States Listened relay.start es ∧ relay.Steps ErrorHandled relay.start es) ↔
      relay.Steps NoneTurnedAway relay.start es := by
  have hwf := relay_wellFormed hrun
  constructor
  · rintro ⟨hlistened, -⟩
    refine relay.steps_of_states (A := fun σ => σ.WellFormed ∧ σ.Listened) ?_ hrun
      (GuardedMachine.States.and _ hwf hlistened)
    intro σ e h he h'
    exact h'.2.noneTurnedAway h.1 he
  · intro hnone
    have hstates : relay.States (fun σ => σ.WellFormed ∧ σ.Listened) relay.start es := by
      refine relay.states_of_steps ?_ ⟨wellFormed_start, ?_⟩ hrun hnone
      · intro σ e h he hnone
        exact ⟨wellFormed_step h.1 he, h.2.step h.1 he hnone⟩
      · intro _ c hc
        exact absurd hc List.not_mem_nil
    refine ⟨GuardedMachine.States.mono _ (fun σ h => h.2) hstates,
      GuardedMachine.States.steps _ ?_ hstates hrun⟩
    rintro σ e ⟨hwf, hlistened⟩ he c rfl
    refine hlistened he.1 c ((hwf.sound.arrived c).mpr ?_) he.2.1
    rcases (Conn.isPending_iff _).mp he.2.1 with hc | hc <;>
      simp [registry, hc]

/-- An agent and a viewer connect, and both fail. -/
theorem errorListeners_meeting :
    let es : List Event := [.connect 0 ⟨some "/agent", .one "s"⟩ 0,
      .connect 1 ⟨some "/viewer", .one "s"⟩ 1, .error 0, .error 1]
    relay.States Listened relay.start es ∧ relay.Steps ErrorHandled relay.start es :=
  (errorListeners_iff_noneTurnedAway (by decide)).mpr (by decide)

/-- A protocol violation on a socket that was turned away is an `'error'` event without a listener:
it ends the process. -/
theorem errorListeners_turnedAway :
    relay.IsRun [.connect 0 ⟨some "/", .one "s"⟩ 0, .error 0] ∧
      (relay.after relay.start [.connect 0 ⟨some "/", .one "s"⟩ 0, .error 0]).crashed = true ∧
      ¬ relay.States Listened relay.start [.connect 0 ⟨some "/", .one "s"⟩ 0, .error 0] ∧
      ¬ relay.Steps ErrorHandled relay.start [.connect 0 ⟨some "/", .one "s"⟩ 0, .error 0] := by
  refine ⟨by decide, by decide, fun h => ?_, fun h => ?_⟩
  · have hlistens := h.2.1 (by decide) 0 (by decide) (by decide)
    revert hlistens
    decide
  · have hlistens := h.2.1 0 rfl
    revert hlistens
    decide

end BrowCast
