import BrowCast.Server.Broadcast
import BrowCast.Server.Screens
import BrowCast.Server.SentFrames

/-! # Negotiating the scales

A scale is sent from two handlers, each of which has one half of the data: that of `screen_info`
goes through the stored client screens, and that of `client_info` reads the stored screen of the
agent. As long as no message handler throws, the last scale an OPEN viewer was sent is the one for
the current screen of the agent and the last screen of the viewer. -/

namespace BrowCast

open ScreenReport

/-- The contents of a `set_scale` message. -/
def Outgoing.scaleMessage : Outgoing → Option (Number × Option Json × Option Json)
  | .setScale scale originalWidth originalHeight => some (scale, originalWidth, originalHeight)
  | _ => none

namespace Server

variable (σ : Server)

/-- The last `set_scale` message that was sent on a socket. -/
def lastScale (v : ConnId) : Option (Number × Option Json × Option Json) :=
  latest Outgoing.scaleMessage (σ.conn v).sent

/-- The connection is an OPEN viewer of the session object without an error event. -/
def Watches (session : SessionRef) (v : ConnId) : Prop :=
  (∃ sessionId viewerId, (σ.conn v).acceptance = some (.viewer sessionId session viewerId)) ∧
    (σ.conn v).readyState = .OPEN ∧ (σ.conn v).errored = false

/-- The event is not a message whose handler throws. -/
def NoneThrows (e : Event) : Prop :=
  ∀ ws message now a, e = .message ws message now → (σ.conn ws).acceptance = some a →
    ¬ σ.Caught ws message now a

/-- Every OPEN viewer that has reported its screen was last sent the scale for the current screen of
the agent and its own last screen, when the session object has a screen of an agent. -/
def ScalesCurrent (s : Server × List ScreenReport) : Prop :=
  ∀ session v, s.1.Watches session v → ∀ agentScreen ∈ (s.1.sessionAt session).agentScreen,
    ∀ screen ∈ latest (ofViewer v) s.2, ∃ scale,
      calculateOptimalScale agentScreen screen = .ok scale ∧
        s.1.lastScale v = some (scale, agentScreen.width, agentScreen.height)

/-- The stored client screens are the last ones reported, and the scales are current. -/
structure Negotiated (s : Server × List ScreenReport) : Prop where
  recorded : Recorded s
  clients : ∀ session v, s.1.Watches session v → ∀ screen ∈ latest (ofViewer v) s.2,
    (s.1.sessionAt session).clientScreens.get? v = some screen
  scales : ScalesCurrent s

variable {σ} {s : Server × List ScreenReport} {ws v : ConnId} {o p : SessionRef} {e : Event}
  {k : SessionId} {i : String} {message : Message} {now : ℕ} {f : Outgoing}

/-! ## What an event sends -/

/-- Every event appends its new frames. -/
theorem sent_step (hσ : σ.Owned) (he : σ.Enabled e) (v : ConnId) :
    ((σ.step e).conn v).sent = (σ.conn v).sent ++ σ.newFrames e v := by
  obtain ⟨frames, hsent, -⟩ := (hσ.frame he).sent v
  rw [hσ.sent_before he v] at hsent
  rw [newFrames_of_sent hsent, hsent]

/-- The last scale is the last one among the new frames, or the one before. -/
theorem lastScale_step (hσ : σ.Owned) (he : σ.Enabled e) (v : ConnId) :
    (σ.step e).lastScale v =
      (latest Outgoing.scaleMessage (σ.newFrames e v)).or (σ.lastScale v) := by
  rw [lastScale, sent_step hσ he v, latest_append, lastScale]

/-- An event that sends no scale leaves the last one as it is. -/
theorem lastScale_step_of_none (hσ : σ.Owned) (he : σ.Enabled e)
    (hnone : ∀ f ∈ σ.newFrames e v, f.scaleMessage = none) :
    (σ.step e).lastScale v = σ.lastScale v := by
  rw [lastScale_step hσ he, latest_eq_none_iff.mpr hnone, Option.none_or]

/-- An event that sends one scale, perhaps repeatedly, makes it the last one. -/
theorem lastScale_step_of_mem (hσ : σ.Owned) (he : σ.Enabled e)
    {scale : Number} {width height : Option Json}
    (hmem : .setScale scale width height ∈ σ.newFrames e v)
    (hall : ∀ f ∈ σ.newFrames e v, ∀ d, f.scaleMessage = some d → d = (scale, width, height)) :
    (σ.step e).lastScale v = some (scale, width, height) := by
  have hlast : latest Outgoing.scaleMessage (σ.newFrames e v) = some (scale, width, height) :=
    latest_eq_of_forall hmem rfl hall
  rw [lastScale_step hσ he, hlast, Option.some_or]

/-- A notice is no scale. -/
theorem scaleMessage_of_isNotice (h : f.isNotice = true) : f.scaleMessage = none := by
  cases f <;> first | rfl | cases h

/-- A scale that an agent's message sends is for the stored screen of a viewer of its session
object, and for the screen that the message reports. -/
theorem scale_of_agentMessage (hwf : σ.WellFormed)
    (hagent : (σ.conn ws).acceptance = some (.agent k o)) {d : Number × Option Json × Option Json}
    (hf : f ∈ σ.newFrames (.message ws message now) v) (hd : f.scaleMessage = some d) :
    ∃ msg screen, message.json = some msg ∧ msg.announcesScreen = true ∧
      (σ.sessionAt o).clientScreens.get? v = some screen ∧
      calculateOptimalScale (screenOf msg) screen = .ok d.1 ∧
      d.2 = ((screenOf msg).width, (screenOf msg).height) := by
  obtain ⟨-, hmem⟩ := (mem_newFrames_agent hwf hagent).mp hf
  rcases hjson : message.json with _ | msg
  · rw [hjson] at hmem
    cases hmem
  by_cases hnull : msg = .null
  · rw [hjson, hnull] at hmem
    cases hmem
  rw [hjson, mem_agentSending_iff hnull] at hmem
  rcases hmem with ⟨hscreen, hmem⟩ | ⟨-, -, rfl⟩
  · obtain ⟨-, -, screen, scale, hclient, hscale, rfl⟩ := mem_screenSending hmem
    cases hd
    exact ⟨msg, screen, rfl, hscreen, hclient, hscale, rfl⟩
  · cases hd

/-- A scale that a viewer's message sends is its own, for the screen it reports. -/
theorem scale_of_viewerMessage (hwf : σ.WellFormed)
    (hviewer : (σ.conn ws).acceptance = some (.viewer k o i))
    {d : Number × Option Json × Option Json}
    (hf : f ∈ σ.newFrames (.message ws message now) v) (hd : f.scaleMessage = some d) :
    v = ws ∧ ∃ msg agentScreen, message.json = some msg ∧ msg.announcesClient = true ∧
      (σ.sessionAt o).agentScreen = some agentScreen ∧
      calculateOptimalScale agentScreen (msg.member "screen") = .ok d.1 ∧
      d.2 = (agentScreen.width, agentScreen.height) := by
  obtain ⟨-, hmem⟩ := (mem_newFrames_viewer hwf hviewer).mp hf
  rcases mem_viewerSending_iff.mp hmem with hscale | ⟨-, -, -, -, -, rfl⟩
  · obtain ⟨msg, agentScreen, scale, hjson, hclient, -, hstored, hcalc, rfl, rfl⟩ := hscale
    cases hd
    exact ⟨rfl, msg, agentScreen, hjson, hclient, hstored, hcalc, rfl⟩
  · cases hd

/-! ## Viewers of a session object -/

/-- A viewer that has reported its screen and watches after an event has watched before it, and the
event was neither its error nor its close event. -/
theorem watches_of_step (h : Recorded s) (he : s.1.Enabled e)
    (hwatches : (s.1.step e).Watches o v) {screen : Option Json}
    (hreport : screen ∈ latest (ofViewer v) (s.2 ++ s.1.reports e)) :
    s.1.Watches o v ∧ e ≠ .error v ∧ e ≠ .close v := by
  -- it has reported a screen, so it had been accepted before
  obtain ⟨r, hr, hrv⟩ := exists_mem_of_latest hreport
  have hbefore : ∃ k p i, (s.1.conn v).acceptance = some (.viewer k p i) := by
    cases r with
    | agent => cases hrv
    | viewer w screen' =>
        simp only [ofViewer, Option.ite_none_right_eq_some] at hrv
        obtain ⟨rfl, -⟩ := hrv
        exact (List.mem_append.mp hr).elim (h.viewers w screen') viewer_mem_reports
  obtain ⟨k, p, i, hacc⟩ := hbefore
  obtain ⟨⟨k', i', hacc'⟩, hopen, herrored⟩ := hwatches
  cases (acceptance_step_of_some h.wellFormed he hacc).symm.trans hacc'
  have harrived := (h.wellFormed.sound.accepted v _ hacc).1
  have hlive : (s.1.registry.step (s.1.action e)).LiveViewer o i v := by
    rw [← registry_step h.wellFormed he]
    refine ⟨⟨Or.inl hopen, herrored⟩, ?_⟩
    exact Acceptance.viewerPlace_eq_some.mpr ⟨k, hacc'⟩
  have haction := enabled_action h.wellFormed he
  rcases (Registry.liveViewer_step h.wellFormed.sound haction o i v).mp hlive with
    ⟨l, hjoins, -⟩ | ⟨hold, hfail, hleave⟩
  · rw [hjoins] at haction
    exact absurd harrived haction
  · have hopen' : s.1.registry.readyState v = .OPEN := by
      refine Registry.open_step haction harrived ?_
      rw [← registry_step h.wellFormed he]
      exact hopen
    refine ⟨⟨⟨k, i, hacc⟩, hopen', hold.1.2⟩, ?_, ?_⟩
    · rintro rfl
      exact hfail k o i (action_eq_failViewer_iff.mpr ⟨rfl, hacc⟩)
    · rintro rfl
      exact hleave k o i (action_eq_leaveViewer_iff.mpr ⟨rfl, hacc⟩)

/-! ## One step -/

section Step

variable (h : Negotiated s) (he : s.1.Enabled e) {screen : Option Json} {agentScreen : AgentScreen}

include h he

/-- What an event that reports nothing about them, and sends no scale, leaves current. -/
theorem scale_step_of_none (hwatches : s.1.Watches o v)
    (hsession : latest (ofSession o) (s.1.reports e) = none)
    (hviewer : latest (ofViewer v) (s.1.reports e) = none)
    (hnone : ∀ f ∈ s.1.newFrames e v, f.scaleMessage = none)
    (hstored : ((s.1.step e).sessionAt o).agentScreen = some agentScreen)
    (hreport : latest (ofViewer v) (s.2 ++ s.1.reports e) = some screen) :
    ∃ scale, calculateOptimalScale agentScreen screen = .ok scale ∧
      (s.1.step e).lastScale v = some (scale, agentScreen.width, agentScreen.height) := by
  rw [agentScreen_step h.recorded.wellFormed h.recorded.owned he, hsession] at hstored
  rw [latest_append, hviewer, Option.none_or] at hreport
  rw [lastScale_step_of_none h.recorded.owned he hnone]
  exact h.scales o v hwatches agentScreen hstored screen hreport

end Step

/-- A `screen_info` message that is processed to the end brings the scales of its viewers up to
date. -/
theorem scale_step_of_screenInfo (h : Negotiated s) (he : s.1.Enabled (.message ws message now))
    (hwatches : s.1.Watches o v) (hagent : (s.1.conn ws).acceptance = some (.agent k o))
    {msg : Json} (hjson : message.json = some msg) (hscreen : msg.announcesScreen = true)
    (haccepted : s.1.ScreenAccepted o msg) {screen : Option Json}
    (hreport : latest (ofViewer v) s.2 = some screen) :
    ∃ scale, calculateOptimalScale (screenOf msg) screen = .ok scale ∧
      (s.1.step (.message ws message now)).lastScale v =
        some (scale, (screenOf msg).width, (screenOf msg).height) := by
  have hwf := h.recorded.wellFormed
  have hclient := h.clients o v hwatches screen hreport
  -- the screen of the viewer is among those the loop visits
  have hvisited : (v, screen) ∈ s.1.openScreens o := by
    refine List.mem_filter.mpr ⟨(InsertionMap.mem_entries_iff _ _ _).mpr hclient, ?_⟩
    simpa using hwatches.2.1
  obtain ⟨scale, hscale, hmem⟩ :=
    scaleUpdates_of_ok (scaleUpdates_failure_eq_none_iff.mpr haccepted.2) hvisited
  refine ⟨scale, hscale, lastScale_step_of_mem h.recorded.owned he ?_ ?_⟩
  · refine (mem_newFrames_agent hwf hagent).mpr ⟨hwatches.2.1, ?_⟩
    have hnull : msg ≠ .null := by
      rintro rfl
      cases hscreen
    rw [hjson, mem_agentSending_iff hnull, screenSending, if_pos haccepted.1]
    exact Or.inl ⟨hscreen, hmem⟩
  · intro f hf d hd
    obtain ⟨msg', screen', hjson', -, hclient', hscale', hdims⟩ :=
      scale_of_agentMessage hwf hagent hf hd
    cases hjson.symm.trans hjson'
    cases hclient.symm.trans hclient'
    cases hscale.symm.trans hscale'
    exact Prod.ext rfl hdims

/-- A `client_info` message that is processed to the end brings the scale of the viewer up to
date. -/
theorem scale_step_of_clientInfo (h : Negotiated s) (he : s.1.Enabled (.message v message now))
    (hwatches : s.1.Watches o v) (hviewer : (s.1.conn v).acceptance = some (.viewer k o i))
    {msg : Json} (hjson : message.json = some msg) (hclient : msg.announcesClient = true)
    (haccepted : s.1.ClientAccepted o (msg.member "screen")) {agentScreen : AgentScreen}
    (hstored : (s.1.sessionAt o).agentScreen = some agentScreen) :
    ∃ scale, calculateOptimalScale agentScreen (msg.member "screen") = .ok scale ∧
      (s.1.step (.message v message now)).lastScale v =
        some (scale, agentScreen.width, agentScreen.height) := by
  have hwf := h.recorded.wellFormed
  obtain ⟨scale, hscale⟩ := canScale_iff.mp (haccepted.2 agentScreen hstored)
  refine ⟨scale, hscale, lastScale_step_of_mem h.recorded.owned he ?_ ?_⟩
  · refine (mem_newFrames_viewer hwf hviewer).mpr ⟨hwatches.2.1, ?_⟩
    exact mem_viewerSending_iff.mpr (Or.inl
      ⟨msg, agentScreen, scale, hjson, hclient, haccepted.1, hstored, hscale, rfl, rfl⟩)
  · intro f hf d hd
    obtain ⟨-, msg', agentScreen', hjson', -, hstored', hscale', hdims⟩ :=
      scale_of_viewerMessage hwf hviewer hf hd
    cases hjson.symm.trans hjson'
    cases hstored.symm.trans hstored'
    cases hscale.symm.trans hscale'
    exact Prod.ext rfl hdims

/-- Nothing is wrong with a `screen_info` message whose handler does not throw. -/
theorem screenAccepted_of_not_caught {msg : Json} (hjson : message.json = some msg)
    (hscreen : msg.announcesScreen = true) (hcalm : ¬ σ.Caught ws message now (.agent k o)) :
    σ.ScreenAccepted o msg := by
  by_contra hrejected
  exact hcalm (caught_agent_iff.mpr (agentSending_failure_ne_none_iff.mpr
    (Or.inr (Or.inr ⟨msg, hjson, hscreen, hrejected⟩))))

/-- A viewer's screen whose handler does not throw is accepted. -/
theorem clientAccepted_of_not_caught {msg : Json} (hjson : message.json = some msg)
    (hclient : msg.announcesClient = true) (hcalm : ¬ σ.Caught ws message now (.viewer k o i)) :
    σ.ClientAccepted o (msg.member "screen") := by
  by_contra hrejected
  exact hcalm (caught_viewer_iff.mpr (viewerSending_failure_ne_none_iff.mpr
    (Or.inr (Or.inr ⟨msg, hjson, hclient, hrejected⟩))))

section Messages

variable (h : Negotiated s) (he : s.1.Enabled (.message ws message now))
  (hcalm : s.1.NoneThrows (.message ws message now)) (hwatches : s.1.Watches o v)
  {agentScreen : AgentScreen} {screen : Option Json}
  (hstored : ((s.1.step (.message ws message now)).sessionAt o).agentScreen = some agentScreen)
  (hreport : latest (ofViewer v) (s.2 ++ s.1.reports (.message ws message now)) = some screen)

include h he hcalm hwatches hstored hreport

/-- An agent's message that is processed to the end keeps the scales current. -/
theorem scale_step_of_agentMessage (hagent : (s.1.conn ws).acceptance = some (.agent k p)) :
    ∃ scale, calculateOptimalScale agentScreen screen = .ok scale ∧
      (s.1.step (.message ws message now)).lastScale v =
        some (scale, agentScreen.width, agentScreen.height) := by
  have hwf := h.recorded.wellFormed
  by_cases hinfo : ∃ msg, message.json = some msg ∧ msg.announcesScreen = true ∧ p = o
  · -- a new screen of the agent makes new scales for all its viewers
    obtain ⟨msg, hjson, hscreen, rfl⟩ := hinfo
    have haccepted := screenAccepted_of_not_caught hjson hscreen
      (hcalm ws message now _ rfl hagent)
    rw [agentScreen_step hwf h.recorded.owned he, latest_reports_agent hagent, hjson] at hstored
    simp only [hscreen, and_self, if_true, Option.map_some, Option.some_or,
      Option.some.injEq] at hstored
    subst hstored
    rw [latest_append, latest_ofViewer_agent hagent, Option.none_or] at hreport
    exact scale_step_of_screenInfo h he hwatches hagent hjson hscreen haccepted hreport
  · refine scale_step_of_none h he hwatches ?_ (latest_ofViewer_agent hagent) ?_ hstored hreport
    · rw [latest_reports_agent hagent]
      cases hjson : message.json with
      | none => rfl
      | some msg => exact if_neg fun hmsg => hinfo ⟨msg, hjson, hmsg.1, hmsg.2.symm⟩
    · -- a scale would be for a stored screen, and those are of viewers of the agent's object
      intro f hf
      by_contra hscale
      obtain ⟨d, hd⟩ := Option.ne_none_iff_exists'.mp hscale
      obtain ⟨msg, screen', hjson, hscreen, hclient, -⟩ := scale_of_agentMessage hwf hagent hf hd
      obtain ⟨l, j, hviewer⟩ := h.recorded.clients p v screen' hclient
      obtain ⟨l', j', hviewer'⟩ := hwatches.1
      cases hviewer.symm.trans hviewer'
      exact hinfo ⟨msg, hjson, hscreen, rfl⟩

/-- A viewer's message that is processed to the end keeps the scales current. -/
theorem scale_step_of_viewerMessage
    (hviewer : (s.1.conn ws).acceptance = some (.viewer k p i)) :
    ∃ scale, calculateOptimalScale agentScreen screen = .ok scale ∧
      (s.1.step (.message ws message now)).lastScale v =
        some (scale, agentScreen.width, agentScreen.height) := by
  have hwf := h.recorded.wellFormed
  by_cases hinfo : ∃ msg, message.json = some msg ∧ msg.announcesClient = true ∧ v = ws
  · obtain ⟨msg, hjson, hclient, rfl⟩ := hinfo
    obtain ⟨l, j, hviewer'⟩ := hwatches.1
    cases hviewer.symm.trans hviewer'
    have haccepted := clientAccepted_of_not_caught hjson hclient
      (hcalm v message now _ rfl hviewer)
    rw [agentScreen_step hwf h.recorded.owned he, latest_ofSession_viewer hviewer] at hstored
    rw [latest_append, latest_reports_viewer hviewer, hjson] at hreport
    simp only [hclient, and_self, if_true, Option.some_or, Option.some.injEq] at hreport
    subst hreport
    exact scale_step_of_clientInfo h he hwatches hviewer hjson hclient haccepted hstored
  · refine scale_step_of_none h he hwatches (latest_ofSession_viewer hviewer) ?_ ?_ hstored
      hreport
    · rw [latest_reports_viewer hviewer]
      cases hjson : message.json with
      | none => rfl
      | some msg => exact if_neg fun hmsg => hinfo ⟨msg, hjson, hmsg⟩
    · intro f hf
      by_contra hscale
      obtain ⟨d, hd⟩ := Option.ne_none_iff_exists'.mp hscale
      obtain ⟨rfl, msg, -, hjson, hclient, -⟩ := scale_of_viewerMessage hwf hviewer hf hd
      exact hinfo ⟨msg, hjson, hclient, rfl⟩

/-- A report that does not fail sends the viewer its scale. -/
theorem scale_step_of_message :
    ∃ scale, calculateOptimalScale agentScreen screen = .ok scale ∧
      (s.1.step (.message ws message now)).lastScale v =
        some (scale, agentScreen.width, agentScreen.height) := by
  rcases hacc : (s.1.conn ws).acceptance with _ | ⟨k, p⟩ | ⟨k, p, i⟩
  · -- a socket without listeners
    refine scale_step_of_none h he hwatches ?_ ?_ (fun f hf => ?_) hstored hreport
    · rw [reports_of_none hacc]
      rfl
    · rw [reports_of_none hacc]
      rfl
    · rw [newFrames, step_message_of_none h.recorded.wellFormed hacc, List.drop_length] at hf
      cases hf
  · exact scale_step_of_agentMessage h he hcalm hwatches hstored hreport hacc
  · exact scale_step_of_viewerMessage h he hcalm hwatches hstored hreport hacc

end Messages

/-- Every event that throws nothing keeps the scales negotiated. -/
theorem Negotiated.step (h : Negotiated s) (he : s.1.Enabled e) (hcalm : s.1.NoneThrows e) :
    Negotiated (recordedRelay.step s e) where
  recorded := h.recorded.step he
  clients := by
    intro o v hwatches screen hreport
    obtain ⟨hbefore, herror, hclose⟩ := watches_of_step h.recorded he hwatches hreport
    obtain ⟨k, i, hacc⟩ := hbefore.1
    rcases clientScreens_step_of_viewer h.recorded.wellFormed h.recorded.owned he hacc with
      hstored | ⟨hgone, -⟩
    · -- the screen of the event is stored, or else the one before was
      apply hstored.trans
      rw [snd_recordedStep, latest_append] at hreport
      cases hnew : latest (ofViewer v) (s.1.reports e) with
      | some screen' =>
          rw [hnew] at hreport
          exact hreport
      | none =>
          rw [hnew] at hreport
          exact h.clients o v hbefore screen hreport
    · exact absurd hgone (not_or.mpr ⟨herror, hclose⟩)
  scales := by
    intro o v hwatches agentScreen hstored screen hreport
    obtain ⟨hbefore, -⟩ := watches_of_step h.recorded he hwatches hreport
    by_cases hmessage : e.isMessage = true
    · obtain ⟨ws, message, now, rfl⟩ := Event.eq_message_of_isMessage hmessage
      exact scale_step_of_message h he hcalm hbefore hstored hreport
    · -- what is no message reports nothing and sends no scale
      have hnothing := reports_of_not_message (σ := s.1) hmessage
      refine scale_step_of_none h he hbefore ?_ ?_ (fun f hf => ?_) hstored hreport
      · rw [hnothing]
        rfl
      · rw [hnothing]
        rfl
      · exact scaleMessage_of_isNotice (isNotice_of_mem_newFrames h.recorded.wellFormed
          h.recorded.owned he hmessage hf)

/-- At first there is nothing to negotiate. -/
theorem negotiated_start : Negotiated recordedRelay.start where
  recorded := Recorded.start
  clients := fun _ _ _ _ h => by cases h
  scales := fun _ _ _ _ h => by cases h

end Server

open Server

/-- The scales are negotiated in every state of a run in which nothing throws. -/
theorem relay_negotiated {es : List Event} (hrun : relay.IsRun es)
    (hcalm : relay.Steps NoneThrows relay.start es) :
    recordedRelay.States Negotiated recordedRelay.start es :=
  recordedRelay.states_of_steps (C := fun s e => s.1.NoneThrows e)
    (fun _ _ h he hnone => h.step he hnone) negotiated_start
    (GuardedMachine.isRun_recording_iff.mpr hrun) (GuardedMachine.steps_recording_iff.mpr hcalm)

/-- **Scales converge.** In every state of a run in which no message handler throws, the last scale
of every OPEN viewer that has reported its screen is the one for the current screen of the agent and
the last screen of the viewer. So two such runs with the same last reports of agent and viewer, in
whatever order, end with the same scale. -/
theorem scalesCurrent_of_noneThrows {es fs : List Event} (hes : relay.IsRun es)
    (hfs : relay.IsRun fs) (hesCalm : relay.Steps NoneThrows relay.start es)
    (hfsCalm : relay.Steps NoneThrows relay.start fs) :
    recordedRelay.States ScalesCurrent recordedRelay.start es ∧
      ∀ o p v w, (relay.after relay.start es).Watches o v →
        (relay.after relay.start fs).Watches p w →
        ∀ d d' agentScreen screen,
          latest (ofSession o) (relay.labels reports relay.start es).flatten =
            some (d, agentScreen) →
          latest (ofSession p) (relay.labels reports relay.start fs).flatten =
            some (d', agentScreen) →
          latest (ofViewer v) (relay.labels reports relay.start es).flatten = some screen →
          latest (ofViewer w) (relay.labels reports relay.start fs).flatten = some screen →
          (relay.after relay.start es).lastScale v = (relay.after relay.start fs).lastScale w := by
  -- the last scale of a viewer is a function of the two screens reported last
  have hlast {gs : List Event} (hgs : relay.IsRun gs)
      (hcalm : relay.Steps NoneThrows relay.start gs) {o v : ConnId} {d : ConnId}
      {agentScreen : AgentScreen} {screen : Option Json}
      (hwatches : (relay.after relay.start gs).Watches o v)
      (hsession : latest (ofSession o) (relay.labels reports relay.start gs).flatten =
        some (d, agentScreen))
      (hviewer : latest (ofViewer v) (relay.labels reports relay.start gs).flatten = some screen) :
      ∃ scale, calculateOptimalScale agentScreen screen = .ok scale ∧
        (relay.after relay.start gs).lastScale v =
          some (scale, agentScreen.width, agentScreen.height) := by
    have hend := GuardedMachine.States.last recordedRelay (relay_negotiated hgs hcalm)
    have hstate : recordedRelay.after recordedRelay.start gs =
        (relay.after relay.start gs, (relay.labels reports relay.start gs).flatten) :=
      GuardedMachine.after_recording relay reports relay.start [] gs
    rw [hstate] at hend
    have hstored := hend.recorded.agentScreen o
    rw [show latest (ofSession o) _ = _ from hsession] at hstored
    exact hend.scales o v hwatches agentScreen hstored screen hviewer
  refine ⟨GuardedMachine.States.mono recordedRelay (fun _ h => h.scales)
    (relay_negotiated hes hesCalm), ?_⟩
  intro o p v w hv hw d d' agentScreen screen hse hsf hve hvf
  obtain ⟨scale, hscale, hend⟩ := hlast hes hesCalm hv hse hve
  obtain ⟨scale', hscale', hend'⟩ := hlast hfs hfsCalm hw hsf hvf
  cases hscale.symm.trans hscale'
  rw [hend, hend']

/-- A `client_info` message of a window of 800 by 600. -/
def smallWindow : Message where
  data :=
    "\x7b\"type\":\"client_info\",\"screen\":\x7b\"windowWidth\":800,\"windowHeight\":600\x7d\x7d"
  json := some (.obj [("type", .str "client_info"),
    ("screen", .obj [("windowWidth", .num (.ofMagnitude 800)),
      ("windowHeight", .num (.ofMagnitude 600))])])

/-- The agent announces its screen first. -/
def agentFirst : List Event :=
  [.connect 0 ⟨some "/agent", .one "s"⟩ 0, .connect 1 ⟨some "/viewer", .one "s"⟩ 1,
    .message 0 fullHd 2, .message 1 smallWindow 3]

/-- The viewer announces its window first. -/
def viewerFirst : List Event :=
  [.connect 0 ⟨some "/agent", .one "s"⟩ 0, .connect 1 ⟨some "/viewer", .one "s"⟩ 1,
    .message 1 smallWindow 2, .message 0 fullHd 3]

/-- An agent's object with an accepted screen throws nothing. -/
theorem noneThrows_agent {σ : Server} {ws : ConnId} {k : SessionId} {o : SessionRef}
    {message : Message} {now : ℕ} {msg : Json}
    (hagent : (σ.conn ws).acceptance = some (.agent k o)) (hjson : message.json = some msg)
    (hnull : msg ≠ .null) (haccepted : σ.ScreenAccepted o msg) :
    σ.NoneThrows (.message ws message now) := by
  rintro ws' message' now' a heq hacc hcaught
  cases heq
  cases hagent.symm.trans hacc
  rcases agentSending_failure_ne_none_iff.mp (caught_agent_iff.mp hcaught) with
    hnone | hnone | ⟨msg', hjson', -, hrejected⟩
  · cases hjson.symm.trans hnone
  · cases hjson.symm.trans hnone
    exact hnull rfl
  · cases hjson.symm.trans hjson'
    exact hrejected haccepted

/-- A viewer's object with an accepted screen throws nothing. -/
theorem noneThrows_viewer {σ : Server} {ws : ConnId} {k : SessionId} {o : SessionRef} {i : String}
    {message : Message} {now : ℕ} {msg : Json}
    (hviewer : (σ.conn ws).acceptance = some (.viewer k o i)) (hjson : message.json = some msg)
    (hnull : msg ≠ .null) (haccepted : σ.ClientAccepted o (msg.member "screen")) :
    σ.NoneThrows (.message ws message now) := by
  rintro ws' message' now' a heq hacc hcaught
  cases heq
  cases hviewer.symm.trans hacc
  rcases viewerSending_failure_ne_none_iff.mp (caught_viewer_iff.mp hcaught) with
    hnone | hnone | ⟨msg', hjson', -, hrejected⟩
  · cases hjson.symm.trans hnone
  · cases hjson.symm.trans hnone
    exact hnull rfl
  · cases hjson.symm.trans hjson'
    exact hrejected haccepted

/-- The viewer is sent a scale in both runs, and it is the same. -/
theorem scalesCurrent_anyOrder :
    ((relay.after relay.start agentFirst).lastScale 1).isSome = true ∧
      (relay.after relay.start agentFirst).lastScale 1 =
        (relay.after relay.start viewerFirst).lastScale 1 := by
  have hconnect (σ : Server) (ws : ConnId) (parsedUrl : ParsedUrl) (now : ℕ) :
      σ.NoneThrows (.connect ws parsedUrl now) := fun _ _ _ _ heq => by cases heq
  have hagentFirst : relay.Steps NoneThrows relay.start agentFirst := by
    refine ⟨hconnect _ _ _ _, hconnect _ _ _ _, ?_, ?_, trivial⟩
    · refine noneThrows_agent (k := .text "s") (o := 0) (by decide) rfl nofun ⟨by decide, ?_⟩
      intro entry hentry
      cases hentry
    · refine noneThrows_viewer (k := .text "s") (o := 0) (i := "1") (by decide) rfl nofun
        ⟨by decide, fun agentScreen hstored => ?_⟩
      cases hstored
      decide
  have hviewerFirst : relay.Steps NoneThrows relay.start viewerFirst := by
    refine ⟨hconnect _ _ _ _, hconnect _ _ _ _, ?_, ?_, trivial⟩
    · refine noneThrows_viewer (k := .text "s") (o := 0) (i := "1") (by decide) rfl nofun
        ⟨by decide, fun agentScreen hstored => ?_⟩
      cases hstored
    · refine noneThrows_agent (k := .text "s") (o := 0) (by decide) rfl nofun
        ⟨by decide, fun entry hentry => ?_⟩
      cases List.mem_singleton.mp hentry
      decide
  refine ⟨rfl, ?_⟩
  exact (scalesCurrent_of_noneThrows (by decide) (by decide) hagentFirst hviewerFirst).2 0 0 1 1
    ⟨⟨.text "s", "1", by decide⟩, by decide, by decide⟩
    ⟨⟨.text "s", "1", by decide⟩, by decide, by decide⟩ 0 0
    (screenOf (.obj [("type", .str "screen_info"), ("width", .num (.ofMagnitude 1920)),
      ("height", .num (.ofMagnitude 1080))]))
    (some (.obj [("windowWidth", .num (.ofMagnitude 800)),
      ("windowHeight", .num (.ofMagnitude 600))]))
    rfl rfl rfl rfl

end BrowCast
