import BrowCast.Server.Messages

/-! # Messages whose processing fails

A message handler catches every exception of its `try` block, after what it has already written and
sent. Which messages leave a trace although their processing ended in the `catch` block, and which
do not. -/

namespace BrowCast

namespace Server

variable (σ : Server)

/-- Neither the session object nor the sender's screen differs, and nothing was sent. -/
structure NoTrace (ws : ConnId) (session : SessionRef) (τ : Server) : Prop where
  agent : (τ.sessionAt session).agent = (σ.sessionAt session).agent
  viewers : (τ.sessionAt session).viewers = (σ.sessionAt session).viewers
  agentScreen : (τ.sessionAt session).agentScreen = (σ.sessionAt session).agentScreen
  clientScreens : (τ.sessionAt session).clientScreens = (σ.sessionAt session).clientScreens
  screenInfo : (τ.conn ws).viewerInfo.map ViewerInfo.screenInfo =
    (σ.conn ws).viewerInfo.map ViewerInfo.screenInfo
  sent : ∀ c, (τ.conn c).sent = (σ.conn c).sent

/-- The `try` block of the handler of an accepted connection ends in the `catch` block. -/
def Caught (ws : ConnId) (message : Message) (now : ℕ) : Acceptance → Prop
  | .agent _ session =>
      ∃ e τ, (agentMessageBody ws session message).run (σ.touched session now) = .error e τ
  | .viewer _ session _ =>
      ∃ e τ, (viewerMessageBody ws session message).run (σ.touched session now) = .error e τ

/-- A message whose processing ends in the `catch` block leaves no trace. -/
def FailsWithoutTrace (e : Event) : Prop :=
  ∀ ws message now a, e = .message ws message now → (σ.conn ws).acceptance = some a →
    σ.Caught ws message now a → σ.NoTrace ws a.session (σ.step e)

/-- The agent's screen can be reported, and a scale computed for every OPEN client screen. -/
def ScreenAccepted (session : SessionRef) (msg : Json) : Prop :=
  (screenOf msg).printable = true ∧
    ∀ e ∈ σ.openScreens session, (screenOf msg).canScale e.2 = true

/-- The stored agent screen is this one already, and no scale is sent before the exception. -/
def ScreenRepeated (session : SessionRef) (msg : Json) : Prop :=
  (σ.sessionAt session).agentScreen = some (screenOf msg) ∧
    ((screenOf msg).printable = false ∨
      ∀ e ∈ (σ.openScreens session).head?, (screenOf msg).canScale e.2 = false)

/-- The viewer's screen can be reported, and a scale computed for it. -/
def ClientAccepted (session : SessionRef) (screen : Option Json) : Prop :=
  Json.printableScreen screen = true ∧
    ∀ agentScreen ∈ (σ.sessionAt session).agentScreen, agentScreen.canScale screen = true

/-- The stored screen of the viewer is this one already. -/
def ClientRepeated (ws : ConnId) (session : SessionRef) (screen : Option Json) : Prop :=
  (σ.sessionAt session).clientScreens.get? ws = some screen ∧
    ∀ info ∈ (σ.conn ws).viewerInfo, info.screenInfo = screen

/-- A `screen_info` or `client_info` message has nothing wrong with it, or says what is stored
already. -/
def AcceptedOrRepeated (e : Event) : Prop :=
  ∀ ws message now msg, e = .message ws message now → message.json = some msg →
    (∀ sessionId session, (σ.conn ws).acceptance = some (.agent sessionId session) →
      msg.announcesScreen = true →
        σ.ScreenAccepted session msg ∨ σ.ScreenRepeated session msg) ∧
    ∀ sessionId session viewerId,
      (σ.conn ws).acceptance = some (.viewer sessionId session viewerId) →
      msg.announcesClient = true →
        σ.ClientAccepted session (msg.member "screen") ∨
          σ.ClientRepeated ws session (msg.member "screen")

variable {σ} {ws : ConnId} {session : SessionRef} {message : Message} {now : ℕ}

/-- Frames for OPEN sockets leave a trace unless there are none. -/
theorem sent_deliver_eq_iff {frames : List (ConnId × Outgoing)}
    (hopen : ∀ f ∈ frames, (σ.conn f.1).readyState = .OPEN) :
    (∀ c, ((σ.deliver frames).conn c).sent = (σ.conn c).sent) ↔ frames = [] := by
  constructor
  · intro h
    cases frames with
    | nil => rfl
    | cons f fs =>
        -- the socket of the first frame has at least this one more
        have hsame := h f.1
        rw [conn_deliver, if_pos (hopen f List.mem_cons_self)] at hsame
        have hnil : addressed f.1 (f :: fs) = [] := by simpa using hsame
        rw [addressed_cons, if_pos rfl] at hnil
        cases hnil
  · rintro rfl
    exact fun c => rfl

/-- The screens that scales are computed for are those of OPEN sockets. -/
theorem mem_openScreens {e : ConnId × Option Json} (h : e ∈ σ.openScreens session) :
    (σ.conn e.1).readyState = .OPEN := by
  simpa using (List.mem_filter.mp h).2

/-! ## Messages of agents -/

/-- Reporting an agent's screen fails unless it is accepted. -/
theorem screenSending_failure_eq_none_iff {msg : Json} :
    (σ.screenSending session msg).failure = none ↔ σ.ScreenAccepted session msg := by
  unfold screenSending ScreenAccepted
  by_cases h : (screenOf msg).printable = true
  · simp [h, scaleUpdates_failure_eq_none_iff]
  · simp [h]

/-- No scale is sent when the screen cannot be reported, or when the first scale cannot be computed.
-/
theorem screenSending_frames_eq_nil_iff {msg : Json} :
    (σ.screenSending session msg).frames = [] ↔ (screenOf msg).printable = false ∨
      ∀ e ∈ (σ.openScreens session).head?, (screenOf msg).canScale e.2 = false := by
  unfold screenSending
  by_cases h : (screenOf msg).printable = true
  · simp [h, scaleUpdates_frames_eq_nil_iff]
  · simp [h]

/-- Scales are sent on OPEN sockets. -/
theorem screenSending_open {msg : Json} :
    ∀ f ∈ (σ.screenSending session msg).frames, (σ.conn f.1).readyState = .OPEN := by
  intro f hf
  unfold screenSending at hf
  split at hf
  · obtain ⟨e, he, hfst⟩ := List.mem_map.mp (scaleUpdates_frames f hf).1
    rw [← hfst]
    exact mem_openScreens he
  · cases hf

/-- The handler of an agent's message ends in the `catch` block when the text is no JSON or JSON
`null`, or a `screen_info` message is not accepted. -/
theorem agentSending_failure_ne_none_iff {json : Option Json} :
    (σ.agentSending ws session json).failure ≠ none ↔
      json = none ∨ json = some .null ∨
        ∃ msg, json = some msg ∧ msg.announcesScreen = true ∧ ¬ σ.ScreenAccepted session msg := by
  rcases json with _ | msg
  · simp [agentSending]
  · by_cases hnull : msg = .null
    · subst hnull
      simp [agentSending]
    · rw [agentSending_of_ne_null hnull, Sending.andThen_failure]
      by_cases hscreen : msg.announcesScreen = true
      · simp [hscreen, hnull, screenSending_failure_eq_none_iff]
      · simp [hscreen, hnull]

/-- A message that fails before it has written anything changes the activity time only. -/
theorem noTrace_of_touched {f : Session → Session}
    (hf : ∀ s, f s = { s with lastActivity := now }) :
    σ.NoTrace ws session (σ.modifySession session f) := by
  constructor
  case screenInfo => rfl
  case sent => exact fun c => rfl
  all_goals rw [sessionAt_modifySession_self, hf]

/-- A `screen_info` message that is not accepted leaves no trace exactly when it says what is stored
already and fails before it sends. -/
theorem noTrace_screen_iff (hwf : σ.WellFormed) {msg : Json} {sessionId : SessionId}
    (hagent : (σ.conn ws).acceptance = some (.agent sessionId session))
    (hjson : message.json = some msg) (hscreen : msg.announcesScreen = true)
    (hnot : ¬ σ.ScreenAccepted session msg) :
    σ.NoTrace ws session (σ.step (.message ws message now)) ↔ σ.ScreenRepeated session msg := by
  have hnull : msg ≠ .null := by rintro rfl; cases hscreen
  -- the copies come after the scales, so an exception leaves the scales sent before it
  have hframes : (σ.agentSending ws session (some msg)).frames =
      (σ.screenSending session msg).frames := by
    rw [agentSending_of_ne_null hnull, if_pos hscreen, Sending.andThen_of_failed]
    intro h
    exact hnot (screenSending_failure_eq_none_iff.mp h)
  have hnote : (σ.touched session now).noteScreen session (some msg) =
      (σ.touched session now).modifySession session
        fun s => { s with agentScreen := some (screenOf msg) } := by simp [noteScreen, hscreen]
  rw [step_agentMessage hwf hagent, hjson, hframes, hnote]
  have hopen : ∀ f ∈ (σ.screenSending session msg).frames,
      (((σ.touched session now).modifySession session fun s =>
        { s with agentScreen := some (screenOf msg) }).conn f.1).readyState = .OPEN :=
    fun f hf => screenSending_open (σ := σ) f hf
  have hsent := sent_deliver_eq_iff hopen
  constructor
  · intro h
    refine ⟨?_, screenSending_frames_eq_nil_iff.mp (hsent.mp h.sent)⟩
    have hstored := h.agentScreen
    rw [sessionAt_deliver, sessionAt_modifySession_self] at hstored
    exact hstored.symm
  · rintro ⟨hstored, hfirst⟩
    rw [screenSending_frames_eq_nil_iff.mpr hfirst, deliver_nil]
    constructor
    case screenInfo => rfl
    case sent => exact fun c => rfl
    all_goals rw [sessionAt_modifySession_self, sessionAt_touched]
    exact hstored.symm

/-! ## Messages of viewers -/

/-- Reporting a viewer's screen fails unless it is accepted. -/
theorem clientSending_failure_eq_none_iff {screen : Option Json} :
    (σ.clientSending ws session screen).failure = none ↔ σ.ClientAccepted session screen := by
  unfold clientSending ClientAccepted
  by_cases h : Json.printableScreen screen = true
  · cases (σ.sessionAt session).agentScreen with
    | none => simp [h]
    | some agentScreen => simp [h, scaleUpdates_failure_eq_none_iff]
  · simp [h]

/-- The scale is the last thing the branch sends: an exception comes before it. -/
theorem clientSending_frames_of_failed {screen : Option Json}
    (h : (σ.clientSending ws session screen).failure ≠ none) :
    (σ.clientSending ws session screen).frames = [] := by
  rw [ne_eq, clientSending_failure_eq_none_iff] at h
  unfold ClientAccepted at h
  unfold clientSending
  by_cases hprintable : Json.printableScreen screen = true
  · cases hagent : (σ.sessionAt session).agentScreen with
    | none => simp [hprintable]
    | some agentScreen =>
        simp only [hprintable, if_true, scaleUpdates_frames_eq_nil_iff]
        simpa [hprintable, hagent] using h
  · simp [hprintable]

/-- The handler of a viewer's message ends in the `catch` block when the text is no JSON or JSON
`null`, or a `client_info` message is not accepted. -/
theorem viewerSending_failure_ne_none_iff :
    (σ.viewerSending ws session message).failure ≠ none ↔
      message.json = none ∨ message.json = some .null ∨
        ∃ msg, message.json = some msg ∧ msg.announcesClient = true ∧
          ¬ σ.ClientAccepted session (msg.member "screen") := by
  rcases hjson : message.json with _ | msg
  · simp [viewerSending, hjson]
  · by_cases hnull : msg = .null
    · subst hnull
      simp [viewerSending, hjson]
    · rw [viewerSending_of_ne_null hjson hnull]
      by_cases hclient : msg.announcesClient = true
      · simp [hclient, hnull, clientSending_failure_eq_none_iff]
      · cases (σ.sessionAt session).agent <;> simp [hclient, hnull]

/-- A `client_info` message that is not accepted leaves no trace exactly when it says what is stored
already. -/
theorem noTrace_client_iff (hwf : σ.WellFormed) {msg : Json} {sessionId : SessionId}
    {viewerId : String}
    (hviewer : (σ.conn ws).acceptance = some (.viewer sessionId session viewerId))
    (hjson : message.json = some msg) (hclient : msg.announcesClient = true)
    (hnot : ¬ σ.ClientAccepted session (msg.member "screen")) :
    σ.NoTrace ws session (σ.step (.message ws message now)) ↔
      σ.ClientRepeated ws session (msg.member "screen") := by
  have hnull : msg ≠ .null := by rintro rfl; cases hclient
  have hframes : (σ.viewerSending ws session message).frames = [] := by
    rw [viewerSending_of_ne_null hjson hnull, if_pos hclient]
    exact clientSending_frames_of_failed fun h => hnot (clientSending_failure_eq_none_iff.mp h)
  rw [step_viewerMessage hwf hviewer, hjson, hframes, deliver_nil]
  simp only [noteClient, hclient, if_true]
  constructor
  · intro h
    have hscreens := h.clientScreens
    have hinfo := h.screenInfo
    rw [sessionAt_modifySession_self, sessionAt_modifyConn, sessionAt_touched] at hscreens
    rw [conn_modifySession, conn_modifyConn_self] at hinfo
    refine ⟨(InsertionMap.set_eq_self_iff _ _ _).mp hscreens, fun info hi => ?_⟩
    have hsome : (σ.conn ws).viewerInfo = some info := hi
    -- both sides are the screen in `viewerInfo`, as it was set and as it was
    change ((σ.conn ws).viewerInfo.map _).map _ = _ at hinfo
    rw [hsome] at hinfo
    exact (Option.some.inj hinfo).symm
  · rintro ⟨hstored, hinfo⟩
    have hset := (InsertionMap.set_eq_self_iff _ _ _).mpr hstored
    constructor
    case screenInfo =>
      rw [conn_modifySession, conn_modifyConn_self]
      show ((σ.conn ws).viewerInfo.map _).map _ = _
      cases hsome : (σ.conn ws).viewerInfo with
      | none => rfl
      | some info => exact congrArg some (hinfo info hsome).symm
    case sent =>
      intro c
      rw [conn_modifySession]
      exact modifyConn_keeps _ ws c Conn.sent rfl
    all_goals
      rw [sessionAt_modifySession_self, sessionAt_modifyConn, sessionAt_touched]
    exact hset

/-! ## Steps and runs -/

/-- A message of an agent ends in the `catch` block when what it sends fails. -/
theorem caught_agent_iff {sessionId : SessionId} :
    σ.Caught ws message now (.agent sessionId session) ↔
      (σ.agentSending ws session message.json).failure ≠ none := by
  show (∃ e τ, (agentMessageBody ws session message).run (σ.touched session now) = .error e τ) ↔ _
  simp only [run_agentMessageBody, Sending.result_eq_error_iff, agentSending_touched]

/-- A message of a viewer ends in the `catch` block when what it sends fails. -/
theorem caught_viewer_iff {sessionId : SessionId} {viewerId : String} :
    σ.Caught ws message now (.viewer sessionId session viewerId) ↔
      (σ.viewerSending ws session message).failure ≠ none := by
  show (∃ e τ, (viewerMessageBody ws session message).run (σ.touched session now) = .error e τ) ↔ _
  simp only [run_viewerMessageBody, Sending.result_eq_error_iff, viewerSending_touched]

/-- A text that is no JSON, or JSON `null`, changes the activity time only. -/
theorem noTrace_of_unread (hwf : σ.WellFormed) {a : Acceptance}
    (ha : (σ.conn ws).acceptance = some a)
    (hjson : message.json = none ∨ message.json = some .null) :
    σ.NoTrace ws a.session (σ.step (.message ws message now)) := by
  have hstep : σ.step (.message ws message now) = σ.touched a.session now := by
    cases a with
    | agent k o =>
        rw [step_agentMessage hwf ha]
        rcases hjson with hjson | hjson <;> rw [hjson] <;> rfl
    | viewer k o i =>
        rw [step_viewerMessage hwf ha]
        rcases hjson with hjson | hjson <;> simp only [viewerSending, hjson] <;> rfl
  rw [hstep]
  exact noTrace_of_touched fun s => rfl

/-- Whether a failed message leaves a trace, at one step. -/
theorem failsWithoutTrace_iff (hwf : σ.WellFormed) (e : Event) :
    σ.FailsWithoutTrace e ↔ σ.AcceptedOrRepeated e := by
  constructor
  · rintro h ws message now msg rfl hjson
    refine ⟨fun k o hagent hscreen => ?_, fun k o i hviewer hclient => ?_⟩
    · -- a screen that is not accepted is caught, and leaves no trace only when it repeats
      by_cases haccepted : σ.ScreenAccepted o msg
      · exact Or.inl haccepted
      · have hcaught : σ.Caught ws message now (.agent k o) :=
          caught_agent_iff.mpr (agentSending_failure_ne_none_iff.mpr
            (Or.inr (Or.inr ⟨msg, hjson, hscreen, haccepted⟩)))
        exact Or.inr ((noTrace_screen_iff hwf hagent hjson hscreen haccepted).mp
          (h ws message now _ rfl hagent hcaught))
    · by_cases haccepted : σ.ClientAccepted o (msg.member "screen")
      · exact Or.inl haccepted
      · have hcaught : σ.Caught ws message now (.viewer k o i) :=
          caught_viewer_iff.mpr (viewerSending_failure_ne_none_iff.mpr
            (Or.inr (Or.inr ⟨msg, hjson, hclient, haccepted⟩)))
        exact Or.inr ((noTrace_client_iff hwf hviewer hjson hclient haccepted).mp
          (h ws message now _ rfl hviewer hcaught))
  · rintro h ws message now a rfl ha hcaught
    -- unread messages leave no trace; for the others the condition decides
    cases a with
    | agent k o =>
        rcases agentSending_failure_ne_none_iff.mp (caught_agent_iff.mp hcaught) with
          hnone | hnull | ⟨msg, hjson, hscreen, hnot⟩
        · exact noTrace_of_unread hwf ha (Or.inl hnone)
        · exact noTrace_of_unread hwf ha (Or.inr hnull)
        · have hclean := (h ws message now msg rfl hjson).1 k o ha hscreen
          exact (noTrace_screen_iff hwf ha hjson hscreen hnot).mpr (hclean.resolve_left hnot)
    | viewer k o i =>
        rcases viewerSending_failure_ne_none_iff.mp (caught_viewer_iff.mp hcaught) with
          hnone | hnull | ⟨msg, hjson, hclient, hnot⟩
        · exact noTrace_of_unread hwf ha (Or.inl hnone)
        · exact noTrace_of_unread hwf ha (Or.inr hnull)
        · have hclean := (h ws message now msg rfl hjson).2 k o i ha hclient
          exact (noTrace_client_iff hwf ha hjson hclient hnot).mpr (hclean.resolve_left hnot)

end Server

open Server

/-- **When failed messages leave no trace.** Along a run of the server no message whose processing
ends in the `catch` block leaves a trace, exactly when every `screen_info` message of an agent and
every `client_info` message of a viewer has nothing wrong with it or says what is stored already. -/
theorem failedMessages_iff_acceptedOrRepeated {es : List Event} (hrun : relay.IsRun es) :
    relay.Steps FailsWithoutTrace relay.start es ↔ relay.Steps AcceptedOrRepeated relay.start es :=
  GuardedMachine.States.steps_congr relay (fun _ e hwf _ => failsWithoutTrace_iff hwf e)
    (relay_wellFormed hrun) hrun

/-- A viewer sends a text that is no JSON. -/
theorem failedMessages_badJson :
    relay.Steps FailsWithoutTrace relay.start
      [.connect 0 ⟨some "/viewer", .one "s"⟩ 0, .message 0 ⟨"\x7b", none⟩ 1] := by
  refine (failedMessages_iff_acceptedOrRepeated (by decide)).mpr ⟨?_, ?_, trivial⟩
  · intro ws message now msg he
    cases he
  · rintro ws message now msg he hjson
    cases he
    cases hjson

/-- A viewer sends `client_info` with the screen `null`: the handler throws after it has stored that
screen. -/
def nullScreen : List Event :=
  [.connect 0 ⟨some "/viewer", .one "s"⟩ 0,
    .message 0 ⟨"\x7b\"type\":\"client_info\",\"screen\":null\x7d",
      some (.obj [("type", .str "client_info"), ("screen", .null)])⟩ 1]

/-- A message that fails leaves the screen of its sender behind. -/
theorem failedMessages_nullScreen :
    relay.IsRun nullScreen ∧
      ((relay.after relay.start nullScreen).sessionAt 0).clientScreens.has 0 = true ∧
      ¬ relay.Steps FailsWithoutTrace relay.start nullScreen := by
  refine ⟨by decide, by decide, fun h => ?_⟩
  have hcaught : (relay.after relay.start (nullScreen.take 1)).Caught 0
      ⟨"\x7b\"type\":\"client_info\",\"screen\":null\x7d",
        some (.obj [("type", .str "client_info"), ("screen", .null)])⟩ 1
      (.viewer (.text "s") 0 "0") := ⟨_, _, rfl⟩
  have htrace := h.2.1 0 _ 1 (.viewer (.text "s") 0 "0") rfl (by decide) hcaught
  have hscreens := congrArg (fun m => m.has 0) htrace.clientScreens
  revert hscreens
  decide

end BrowCast
