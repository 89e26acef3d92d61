import BrowCast.Server.FailedMessages
import BrowCast.Server.Isolation

/-! # Forwarding the agent's messages

Each message of the agent is copied to the viewers of its session, after the scales of a
`screen_info` message have been sent. When every viewer gets its copy, and what happens when one of
the scales cannot be computed. -/

namespace BrowCast

/-- The sender and the members of a forwarded copy. -/
def Outgoing.copy : Outgoing → Option (ConnId × List (String × Json))
  | .forward source members => some (source, members)
  | _ => none

/-- A member of a forwarded copy: the dimensions are those of the agent's screen, the others are
those of the message. -/
theorem lookup_forwardCopy (msg : Json) (agentScreen : Option AgentScreen) (key : String) :
    (forwardCopy msg agentScreen).lookup key =
      if key = "originalHeight" then agentScreen.bind AgentScreen.height
      else if key = "originalWidth" then agentScreen.bind AgentScreen.width
      else (Json.spread msg).lookup key := by
  rw [forwardCopy, Json.lookup_withMember, Json.lookup_withMember]

namespace Server

variable (σ : Server)

/-- The forwarded copies sent on a socket, oldest first. -/
def copies (v : ConnId) : List (ConnId × List (String × Json)) :=
  (σ.conn v).sent.filterMap Outgoing.copy

/-- Every OPEN stored viewer is sent exactly one copy of an agent's object: the object with the
dimensions of the agent's screen as it stands after the message. -/
def Delivers (e : Event) : Prop :=
  ∀ ws message now sessionId session members, e = .message ws message now →
    (σ.conn ws).acceptance = some (.agent sessionId session) →
    message.json = some (.obj members) →
    ∀ v ∈ (σ.sessionAt session).viewers.values, (σ.conn v).readyState = .OPEN →
      ∃ copy, (σ.step e).copies v = σ.copies v ++ [(ws, copy)] ∧
        ∀ key, copy.lookup key =
          if key = "originalHeight" then
            ((σ.step e).sessionAt session).agentScreen.bind AgentScreen.height
          else if key = "originalWidth" then
            ((σ.step e).sessionAt session).agentScreen.bind AgentScreen.width
          else members.lookup key

/-- A `screen_info` message of an agent comes while none of its viewers is OPEN, or nothing in it
and in the screens of its OPEN clients keeps it from being reported and the scales from being
computed. -/
def ScalesComputable (e : Event) : Prop :=
  ∀ ws message now sessionId session msg, e = .message ws message now →
    (σ.conn ws).acceptance = some (.agent sessionId session) → message.json = some msg →
    msg.announcesScreen = true →
    ∀ v ∈ (σ.sessionAt session).viewers.values, (σ.conn v).readyState = .OPEN →
      σ.ScreenAccepted session msg

/-- The copies an event is to make for a socket. -/
def copiesFor (v : ConnId) : Event → List (ConnId × List (String × Json))
  | .message ws message now =>
      match (σ.conn ws).acceptance, message.json with
      | _, some .null => []
      | some (.agent _ session), some msg =>
          if v ∈ (σ.sessionAt session).viewers.values ∧ (σ.conn v).readyState = .OPEN then
            [(ws, forwardCopy msg
              ((σ.step (.message ws message now)).sessionAt session).agentScreen)]
          else []
      | _, _ => []
  | _ => []

variable {σ} {ws v : ConnId} {session : SessionRef} {message : Message} {now : ℕ} {e : Event}

/-! ## The copies of one message -/

/-- Scales are no copies. -/
theorem copies_screenSending (v : ConnId) (msg : Json) :
    (addressed v (σ.screenSending session msg).frames).filterMap Outgoing.copy = [] := by
  refine List.filterMap_eq_nil_iff.mpr fun f hf => ?_
  have hframe := mem_addressed_iff.mp hf
  unfold screenSending at hframe
  split at hframe
  · obtain ⟨-, scale, hscale⟩ := scaleUpdates_frames _ hframe
    rw [show f = _ from hscale]
    rfl
  · cases hframe

/-- An agent's message that is not stopped by a scale makes a copy for each place of a viewer. -/
theorem copies_agentSending {msg : Json} (hnull : msg ≠ .null)
    (haccepted : msg.announcesScreen = true → σ.ScreenAccepted session msg) (v : ConnId) :
    (addressed v (σ.agentSending ws session (some msg)).frames).filterMap Outgoing.copy =
      List.replicate ((σ.sessionAt session).viewers.values.count v)
        (ws,
          forwardCopy msg ((σ.noteScreen session (some msg)).sessionAt session).agentScreen) := by
  rw [agentSending_of_ne_null hnull]
  generalize forwardCopy msg _ = copy
  have hbroadcast : (addressed v (broadcast (σ.sessionAt session).viewers.values
      (.forward ws copy))).filterMap Outgoing.copy =
      List.replicate ((σ.sessionAt session).viewers.values.count v) (ws, copy) := by
    rw [addressed_broadcast]
    exact List.filterMap_replicate_of_some rfl
  by_cases hscreen : msg.announcesScreen = true
  · have hok := screenSending_failure_eq_none_iff.mpr (haccepted hscreen)
    rw [if_pos hscreen, Sending.andThen_of_ok _ hok, addressed_append, List.filterMap_append,
      copies_screenSending, List.nil_append, hbroadcast]
  · rw [if_neg hscreen]
    exact hbroadcast

/-- One that is stopped makes no copy. -/
theorem copies_agentSending_of_stopped {msg : Json} (hscreen : msg.announcesScreen = true)
    (hnot : ¬ σ.ScreenAccepted session msg) (v : ConnId) :
    (addressed v (σ.agentSending ws session (some msg)).frames).filterMap Outgoing.copy = [] := by
  have hnull : msg ≠ .null := by rintro rfl; cases hscreen
  have hfailed : (σ.screenSending session msg).failure ≠ none := fun h =>
    hnot (screenSending_failure_eq_none_iff.mp h)
  rw [agentSending_of_ne_null hnull, if_pos hscreen, Sending.andThen_of_failed _ hfailed]
  exact copies_screenSending v msg

/-- The copies after an agent's message. -/
theorem copies_step_agentMessage (hwf : σ.WellFormed) {sessionId : SessionId}
    (hagent : (σ.conn ws).acceptance = some (.agent sessionId session)) (v : ConnId) :
    (σ.step (.message ws message now)).copies v = σ.copies v ++
      if (σ.conn v).readyState = .OPEN then
        (addressed v (σ.agentSending ws session message.json).frames).filterMap Outgoing.copy
      else [] := by
  unfold copies
  rw [step_agentMessage hwf hagent, conn_deliver, conn_noteScreen]
  simp only [List.filterMap_append]
  split <;> rfl

/-- After a message of an agent its screen is what the message notes, whether or not sending fails.
-/
theorem agentScreen_step_agentMessage (hwf : σ.WellFormed) {sessionId : SessionId}
    (hagent : (σ.conn ws).acceptance = some (.agent sessionId session)) :
    ((σ.step (.message ws message now)).sessionAt session).agentScreen =
      ((σ.noteScreen session message.json).sessionAt session).agentScreen := by
  rw [step_agentMessage hwf hagent, sessionAt_deliver]
  unfold noteScreen
  split
  · split
    · rw [sessionAt_modifySession_self, sessionAt_modifySession_self]
    · rw [sessionAt_touched]
  · rw [sessionAt_touched]

/-- A stored viewer is stored once. -/
theorem count_viewers (hwf : σ.WellFormed) (hv : v ∈ (σ.sessionAt session).viewers.values) :
    (σ.sessionAt session).viewers.values.count v = 1 := by
  refine List.count_eq_one_of_mem (InsertionMap.nodup_values fun i j c hi hj => ?_) hv
  -- the acceptance of a stored viewer names the id it is stored under
  have hplace := (hwf.sound.stored session i c hi).1
  rw [Registry.ViewerOf, (hwf.sound.stored session j c hj).1] at hplace
  exact (Prod.ext_iff.mp (Option.some.inj hplace)).2.symm

/-- Copies are relayed frames. -/
theorem copy_eq_none_of_unrelayed {f : Outgoing} (h : f.isRelayed = false) : f.copy = none := by
  cases f <;> first | rfl | cases h

/-- Frames that are no copies do not count. -/
theorem copies_of_append {τ : Server} {frames : List Outgoing}
    (hsent : (τ.conn v).sent = (σ.conn v).sent ++ frames)
    (hframes : ∀ f ∈ frames, f.copy = none) : τ.copies v = σ.copies v := by
  unfold copies
  rw [hsent, List.filterMap_append, List.filterMap_eq_nil_iff.mpr hframes, List.append_nil]

/-- Events that are no messages make no copies. -/
theorem copies_step_of_not_message (hσ : σ.Owned) (he : σ.Enabled e) (hno : e.isMessage ≠ true)
    (v : ConnId) : (σ.step e).copies v = σ.copies v := by
  -- nothing is relayed by any other event, and copies are relayed
  obtain ⟨frames, hsent, hplain⟩ := (hσ.frame he).sent v
  rw [hσ.sent_before he v] at hsent
  exact copies_of_append hsent fun f hf => copy_eq_none_of_unrelayed (hplain hno f hf)

/-- Messages of viewers make no copies. -/
theorem copies_step_viewerMessage (hwf : σ.WellFormed) {sessionId : SessionId} {viewerId : String}
    (hviewer : (σ.conn ws).acceptance = some (.viewer sessionId session viewerId)) (v : ConnId) :
    (σ.step (.message ws message now)).copies v = σ.copies v := by
  have hstep := congrArg (fun τ => (τ.conn v).sent) (step_viewerMessage hwf hviewer message now)
  simp only [conn_deliver, sent_noteClient] at hstep
  refine copies_of_append hstep fun f hf => ?_
  split at hf
  · by_contra hcopy
    have hrelayed : f.isRelayed = true := by
      by_contra hnot
      exact hcopy (copy_eq_none_of_unrelayed (by simpa using hnot))
    obtain ⟨-, rfl⟩ := mem_viewerSending (mem_addressed_iff.mp hf) hrelayed
    exact hcopy rfl
  · cases hf

/-! ## One step -/

/-- Whether the OPEN viewers get their copies, at one step. -/
theorem delivers_iff (hwf : σ.WellFormed) (e : Event) : σ.Delivers e ↔ σ.ScalesComputable e := by
  constructor
  · rintro h ws message now k o msg rfl hagent hjson hscreen v hv hopen
    -- a scale that cannot be computed stops the copies of every viewer
    by_contra hnot
    obtain ⟨members, rfl⟩ : ∃ members, msg = .obj members := by
      cases msg <;> first | exact ⟨_, rfl⟩ | cases hscreen
    obtain ⟨copy, hcopies, -⟩ := h ws message now k o members rfl hagent hjson v hv hopen
    rw [copies_step_agentMessage hwf hagent, hjson, if_pos hopen,
      copies_agentSending_of_stopped hscreen hnot] at hcopies
    simp at hcopies
  · rintro h ws message now k o members rfl hagent hjson v hv hopen
    have hnull : Json.obj members ≠ .null := nofun
    have haccepted : (Json.obj members).announcesScreen = true →
        σ.ScreenAccepted o (.obj members) :=
      fun hscreen => h ws message now k o _ rfl hagent hjson hscreen v hv hopen
    refine ⟨forwardCopy (.obj members)
      ((σ.step (.message ws message now)).sessionAt o).agentScreen, ?_, fun key => ?_⟩
    · rw [copies_step_agentMessage hwf hagent, agentScreen_step_agentMessage hwf hagent, hjson,
        if_pos hopen, copies_agentSending hnull haccepted, count_viewers hwf hv]
      rfl
    · rw [lookup_forwardCopy]
      rfl

/-- Messages of other connections make no copies. -/
theorem copiesFor_of_not_agent (h : ∀ k o, (σ.conn ws).acceptance ≠ some (.agent k o)) :
    σ.copiesFor v (.message ws message now) = [] := by
  simp only [copiesFor]
  split
  · rfl
  · rename_i k o msg hnull hacc hjson
    exact absurd hacc (h k o)
  · rfl

/-- An object of an agent is to make one copy for every OPEN stored viewer. -/
theorem copiesFor_of_ne_null {sessionId : SessionId} {msg : Json}
    (hagent : (σ.conn ws).acceptance = some (.agent sessionId session))
    (hjson : message.json = some msg) (hnull : msg ≠ .null) :
    σ.copiesFor v (.message ws message now) =
      if v ∈ (σ.sessionAt session).viewers.values ∧ (σ.conn v).readyState = .OPEN then
        [(ws, forwardCopy msg ((σ.step (.message ws message now)).sessionAt session).agentScreen)]
      else [] := by
  simp only [copiesFor, hagent, hjson]

/-- The copies an agent's message is to make are those it makes, when nothing stops it. -/
theorem copiesFor_of_agent (hwf : σ.WellFormed) {sessionId : SessionId}
    (hagent : (σ.conn ws).acceptance = some (.agent sessionId session))
    (hclean : σ.ScalesComputable (.message ws message now)) :
    σ.copiesFor v (.message ws message now) =
      if (σ.conn v).readyState = .OPEN then
        (addressed v (σ.agentSending ws session message.json).frames).filterMap Outgoing.copy
      else [] := by
  rcases hjson : message.json with _ | msg
  · simp [copiesFor, hagent, hjson, agentSending]
  · by_cases hnull : msg = .null
    · simp [copiesFor, hagent, hjson, hnull, agentSending]
    · rw [copiesFor_of_ne_null hagent hjson hnull, agentScreen_step_agentMessage hwf hagent, hjson]
      by_cases hopen : (σ.conn v).readyState = .OPEN
      · rw [if_pos hopen]
        by_cases hv : v ∈ (σ.sessionAt session).viewers.values
        · -- a socket that is stored gets one copy
          rw [if_pos ⟨hv, hopen⟩, copies_agentSending hnull fun hscreen =>
            hclean ws message now sessionId session msg rfl hagent hjson hscreen v hv hopen,
            count_viewers hwf hv]
          rfl
        · -- a socket that is not stored gets no copy, whether or not the message is stopped
          rw [if_neg fun h => hv h.1]
          by_cases hstopped : msg.announcesScreen = true ∧ ¬ σ.ScreenAccepted session msg
          · rw [copies_agentSending_of_stopped hstopped.1 hstopped.2]
          · rw [copies_agentSending hnull fun hscreen => by_contra fun h => hstopped ⟨hscreen, h⟩,
              List.count_eq_zero_of_not_mem hv]
            rfl
      · rw [if_neg hopen, if_neg fun h => hopen h.2]

/-- The copies after any event, when nothing stops the agent's messages. -/
theorem copies_step (hwf : σ.WellFormed) (hσ : σ.Owned) (he : σ.Enabled e)
    (hclean : σ.ScalesComputable e) (v : ConnId) :
    (σ.step e).copies v = σ.copies v ++ σ.copiesFor v e := by
  by_cases hmessage : e.isMessage = true
  · obtain ⟨ws, message, now, rfl⟩ := Event.eq_message_of_isMessage hmessage
    rcases hacc : (σ.conn ws).acceptance with _ | ⟨k, o⟩ | ⟨k, o, i⟩
    · rw [step_message_of_none hwf hacc, copiesFor_of_not_agent (by simp [hacc]),
        List.append_nil]
    · rw [copies_step_agentMessage hwf hacc, copiesFor_of_agent hwf hacc hclean]
    · rw [copies_step_viewerMessage hwf hacc, copiesFor_of_not_agent (by simp [hacc]),
        List.append_nil]
  · have hnone : σ.copiesFor v e = [] := by cases e <;> first | rfl | exact absurd rfl hmessage
    rw [hnone, List.append_nil]
    exact copies_step_of_not_message hσ he hmessage v

end Server

open Server

/-- A `screen_info` message of 1920 by 1080. -/
def fullHd : Message where
  data := "\x7b\"type\":\"screen_info\",\"width\":1920,\"height\":1080\x7d"
  json := some (.obj [("type", .str "screen_info"), ("width", .num (.ofMagnitude 1920)),
    ("height", .num (.ofMagnitude 1080))])

/-- One viewer has sent `client_info` with the screen `null`: the next `screen_info` message of the
agent reaches no viewer at all. -/
def nullClient : List Event :=
  [.connect 0 ⟨some "/agent", .one "s"⟩ 0, .connect 1 ⟨some "/viewer", .one "s"⟩ 1,
    .connect 2 ⟨some "/viewer", .one "s"⟩ 2,
    .message 2 ⟨"\x7b\"type\":\"client_info\",\"screen\":null\x7d",
      some (.obj [("type", .str "client_info"), ("screen", .null)])⟩ 3,
    .message 0 fullHd 4]

end BrowCast
