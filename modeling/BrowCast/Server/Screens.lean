import BrowCast.Server.Notices
import BrowCast.Runs.History

/-! # The screens the server was told of

A `screen_info` message of an agent is stored in its session object, and a `client_info` message of
a viewer beside it; nothing else writes an agent's screen, and a viewer's screen is dropped by the
error and the close event of the viewer only. A run is recorded with the screens its messages
report (`reports`): the stored screen of the agent is the last one that any agent of the session
object reported. -/

namespace BrowCast

/-! ## What the messages report -/

/-- A screen that a message reports. -/
inductive ScreenReport where
  /-- The `screen_info` message of an agent of the session object. -/
  | agent (session : SessionRef) (ws : ConnId) (agentScreen : AgentScreen)
  /-- The `client_info` message of a viewer. -/
  | viewer (ws : ConnId) (screen : Option Json)

namespace ScreenReport

/-- What agents of the session object report, with the agent. -/
def ofSession (session : SessionRef) : ScreenReport → Option (ConnId × AgentScreen)
  | .agent o ws agentScreen => if o = session then some (ws, agentScreen) else none
  | .viewer _ _ => none

/-- What one agent reports. -/
def ofAgent (c : ConnId) : ScreenReport → Option AgentScreen
  | .agent _ ws agentScreen => if ws = c then some agentScreen else none
  | .viewer _ _ => none

/-- What one viewer reports. -/
def ofViewer (v : ConnId) : ScreenReport → Option (Option Json)
  | .agent _ _ _ => none
  | .viewer ws screen => if ws = v then some screen else none

end ScreenReport

open ScreenReport

namespace Server

/-- The screens that an event reports. -/
def reports (σ : Server) : Event → List ScreenReport
  | .message ws message _ =>
      match (σ.conn ws).acceptance, message.json with
      | some (.agent _ session), some msg =>
          if msg.announcesScreen then [.agent session ws (screenOf msg)] else []
      | some (.viewer _ _ _), some msg =>
          if msg.announcesClient then [.viewer ws (msg.member "screen")] else []
      | _, _ => []
  | _ => []

end Server

/-- The relay server, recorded with the screens it was told of. -/
def recordedRelay : GuardedMachine (Server × List ScreenReport) Event :=
  relay.recording Server.reports

namespace Server

variable {σ : Server} {ws v c : ConnId} {o p : SessionRef} {e : Event} {k : SessionId} {i : String}
  {message : Message} {now : ℕ} {log : List ScreenReport}

/-- The state of the server after a recorded step. -/
theorem fst_recordedStep (s : Server × List ScreenReport) (e : Event) :
    (recordedRelay.step s e).1 = s.1.step e := rfl

/-- A step of the recorded server adds the reports of its event. -/
theorem snd_recordedStep (s : Server × List ScreenReport) (e : Event) :
    (recordedRelay.step s e).2 = s.2 ++ s.1.reports e := rfl

/-- Only messages bring reports. -/
theorem reports_of_not_message (hno : e.isMessage ≠ true) : σ.reports e = [] := by
  cases e <;> first | rfl | exact absurd rfl hno

/-- A connection that was not accepted reports nothing. -/
theorem reports_of_none (hnone : (σ.conn ws).acceptance = none) :
    σ.reports (.message ws message now) = [] := by simp only [reports, hnone]

/-- A message of an agent reports the screen it announces. -/
theorem reports_of_agent (hagent : (σ.conn ws).acceptance = some (.agent k o)) :
    σ.reports (.message ws message now) = match message.json with
      | some msg => if msg.announcesScreen then [.agent o ws (screenOf msg)] else []
      | none => [] := by
  simp only [reports, hagent]
  cases message.json <;> rfl

/-- A message of a viewer reports the screen in it. -/
theorem reports_of_viewer (hviewer : (σ.conn ws).acceptance = some (.viewer k o i)) :
    σ.reports (.message ws message now) = match message.json with
      | some msg => if msg.announcesClient then [.viewer ws (msg.member "screen")] else []
      | none => [] := by
  simp only [reports, hviewer]
  cases message.json <;> rfl

/-- What an agent reports is a screen for its session object. -/
theorem eq_agent_of_mem_reports (hagent : (σ.conn ws).acceptance = some (.agent k o))
    {r : ScreenReport} (hr : r ∈ σ.reports (.message ws message now)) :
    ∃ msg, r = .agent o ws (screenOf msg) := by
  rw [reports_of_agent hagent] at hr
  split at hr
  · next msg hjson =>
      split at hr
      · exact ⟨msg, List.mem_singleton.mp hr⟩
      · cases hr
  · cases hr

/-- What a viewer reports is a screen of its own. -/
theorem eq_viewer_of_mem_reports (hviewer : (σ.conn ws).acceptance = some (.viewer k o i))
    {r : ScreenReport} (hr : r ∈ σ.reports (.message ws message now)) :
    ∃ msg : Json, r = .viewer ws (msg.member "screen") := by
  rw [reports_of_viewer hviewer] at hr
  split at hr
  · next msg hjson =>
      split at hr
      · exact ⟨msg, List.mem_singleton.mp hr⟩
      · cases hr
  · cases hr

/-- Agents of a session object report its screens. -/
theorem agent_mem_reports {S : AgentScreen} (h : .agent o c S ∈ σ.reports e) :
    ∃ k, (σ.conn c).acceptance = some (.agent k o) := by
  cases e with
  | message ws message now =>
      rcases hacc : (σ.conn ws).acceptance with _ | ⟨k, p⟩ | ⟨k, p, i⟩
      · rw [reports_of_none hacc] at h
        cases h
      · obtain ⟨msg, heq⟩ := eq_agent_of_mem_reports hacc h
        cases heq
        exact ⟨k, hacc⟩
      · obtain ⟨msg, heq⟩ := eq_viewer_of_mem_reports hacc h
        cases heq
  | _ => cases h

/-- Viewers report their own screens. -/
theorem viewer_mem_reports {screen : Option Json} (h : .viewer v screen ∈ σ.reports e) :
    ∃ k o i, (σ.conn v).acceptance = some (.viewer k o i) := by
  cases e with
  | message ws message now =>
      rcases hacc : (σ.conn ws).acceptance with _ | ⟨k, p⟩ | ⟨k, p, i⟩
      · rw [reports_of_none hacc] at h
        cases h
      · obtain ⟨msg, heq⟩ := eq_agent_of_mem_reports hacc h
        cases heq
      · obtain ⟨msg, heq⟩ := eq_viewer_of_mem_reports hacc h
        cases heq
        exact ⟨k, p, i, hacc⟩
  | _ => cases h

/-! ### The stored screens after a message -/

/-- An announced screen is written to the agent's session object alone. -/
theorem agentScreen_noteScreen (σ : Server) (o p : SessionRef) (json : Option Json) :
    ((σ.noteScreen o json).sessionAt p).agentScreen =
      match json with
      | some msg => if msg.announcesScreen ∧ p = o then some (screenOf msg)
          else (σ.sessionAt p).agentScreen
      | none => (σ.sessionAt p).agentScreen := by
  cases json with
  | none => rfl
  | some msg =>
      by_cases hscreen : msg.announcesScreen = true
      · simp only [noteScreen, hscreen, if_true, sessionAt_modifySession, true_and]
        split <;> rfl
      · simp [noteScreen, hscreen]

/-- An announced screen leaves those of the viewers. -/
theorem clientScreens_noteScreen (σ : Server) (o p : SessionRef) (json : Option Json) :
    ((σ.noteScreen o json).sessionAt p).clientScreens = (σ.sessionAt p).clientScreens := by
  unfold noteScreen
  split
  · split
    · exact modifySession_keeps σ o p Session.clientScreens rfl
    · rfl
  · rfl

/-- A viewer's report leaves the agent's screen. -/
theorem agentScreen_noteClient (σ : Server) (ws : ConnId) (o p : SessionRef) (json : Option Json) :
    ((σ.noteClient ws o json).sessionAt p).agentScreen = (σ.sessionAt p).agentScreen := by
  unfold noteClient
  split
  · split
    · exact modifySession_keeps _ o p Session.agentScreen rfl
    · rfl
  · rfl

/-- A viewer's report is stored under the viewer, in its session object alone. -/
theorem clientScreens_noteClient (σ : Server) (ws v : ConnId) (o p : SessionRef)
    (json : Option Json) :
    ((σ.noteClient ws o json).sessionAt p).clientScreens.get? v =
      match json with
      | some msg => if msg.announcesClient ∧ p = o ∧ v = ws then some (msg.member "screen")
          else (σ.sessionAt p).clientScreens.get? v
      | none => (σ.sessionAt p).clientScreens.get? v := by
  cases json with
  | none => rfl
  | some msg =>
      by_cases hclient : msg.announcesClient = true
      · simp only [noteClient, hclient, if_true, sessionAt_modifySession, true_and]
        by_cases hp : p = o
        · subst hp
          simp [InsertionMap.get?_set]
        · simp [hp]
      · simp [noteClient, hclient]

/-- Noting the time leaves the agent's screen. -/
theorem agentScreen_touched (σ : Server) (o p : SessionRef) (now : ℕ) :
    ((σ.touched o now).sessionAt p).agentScreen = (σ.sessionAt p).agentScreen := by
  rw [sessionAt_touched]

/-- Noting the time leaves the viewers' screens. -/
theorem clientScreens_touched (σ : Server) (o p : SessionRef) (now : ℕ) :
    ((σ.touched o now).sessionAt p).clientScreens = (σ.sessionAt p).clientScreens := by
  rw [sessionAt_touched]

/-! ### The stored screens after any event -/

/-- The latest report of a session object in a message of an agent. -/
theorem latest_reports_agent (hagent : (σ.conn ws).acceptance = some (.agent k o)) :
    latest (ofSession p) (σ.reports (.message ws message now)) =
      match message.json with
      | some msg => if msg.announcesScreen ∧ p = o then some (ws, screenOf msg) else none
      | none => none := by
  rw [reports_of_agent hagent]
  cases message.json with
  | none => rfl
  | some msg =>
      by_cases hscreen : msg.announcesScreen = true
      · simp only [hscreen, if_true, latest_singleton, ofSession, true_and, eq_comm]
      · simp [hscreen]

/-- The latest report of a viewer in a message of a viewer. -/
theorem latest_reports_viewer (hviewer : (σ.conn ws).acceptance = some (.viewer k o i)) :
    latest (ofViewer v) (σ.reports (.message ws message now)) =
      match message.json with
      | some msg => if msg.announcesClient ∧ v = ws then some (msg.member "screen") else none
      | none => none := by
  rw [reports_of_viewer hviewer]
  cases message.json with
  | none => rfl
  | some msg =>
      by_cases hclient : msg.announcesClient = true
      · simp only [hclient, if_true, latest_singleton, ofViewer, true_and, eq_comm]
      · simp [hclient]

/-- Only agents report screens of session objects. -/
theorem latest_ofSession_viewer (hviewer : (σ.conn ws).acceptance = some (.viewer k o i)) :
    latest (ofSession p) (σ.reports (.message ws message now)) = none := by
  rw [latest_eq_none_iff]
  intro r hr
  obtain ⟨msg, rfl⟩ := eq_viewer_of_mem_reports hviewer hr
  rfl

/-- Only viewers report client screens. -/
theorem latest_ofViewer_agent (hagent : (σ.conn ws).acceptance = some (.agent k o)) :
    latest (ofViewer v) (σ.reports (.message ws message now)) = none := by
  rw [latest_eq_none_iff]
  intro r hr
  obtain ⟨msg, rfl⟩ := eq_agent_of_mem_reports hagent hr
  rfl

section Step

variable (hwf : σ.WellFormed) (hσ : σ.Owned) (he : σ.Enabled e)

include hwf hσ he

/-- The stored screen of the agent after an event: the one it reports, if it reports one. -/
theorem agentScreen_step (p : SessionRef) : ((σ.step e).sessionAt p).agentScreen =
    ((latest (ofSession p) (σ.reports e)).map Prod.snd).or (σ.sessionAt p).agentScreen := by
  by_cases hmessage : e.isMessage = true
  · obtain ⟨ws, message, now, rfl⟩ := Event.eq_message_of_isMessage hmessage
    rcases hacc : (σ.conn ws).acceptance with _ | ⟨k, o⟩ | ⟨k, o, i⟩
    · rw [step_message_of_none hwf hacc, reports_of_none hacc]
      rfl
    · rw [step_agentMessage hwf hacc, sessionAt_deliver, agentScreen_noteScreen,
        agentScreen_touched, latest_reports_agent hacc]
      cases message.json with
      | none => rfl
      | some msg =>
          simp only
          split <;> rfl
    · rw [step_viewerMessage hwf hacc, sessionAt_deliver, agentScreen_noteClient,
        agentScreen_touched, latest_ofSession_viewer hacc]
      rfl
  · rw [reports_of_not_message hmessage]
    exact (still_step hwf hσ he hmessage).agentScreen p

/-- The stored screen of a viewer after an event: the one it reports, if it reports one; and none
after its error and its close event, if it does not stay. -/
theorem clientScreens_step_of_viewer (hv : (σ.conn v).acceptance = some (.viewer k p i)) :
    ((σ.step e).sessionAt p).clientScreens.get? v =
        (latest (ofViewer v) (σ.reports e)).or ((σ.sessionAt p).clientScreens.get? v) ∨
      (e = .error v ∨ e = .close v) ∧ ((σ.step e).sessionAt p).clientScreens.get? v = none := by
  by_cases hmessage : e.isMessage = true
  · left
    obtain ⟨ws, message, now, rfl⟩ := Event.eq_message_of_isMessage hmessage
    rcases hacc : (σ.conn ws).acceptance with _ | ⟨l, o⟩ | ⟨l, o, j⟩
    · rw [step_message_of_none hwf hacc, reports_of_none hacc]
      rfl
    · -- messages of agents report no screens of viewers
      rw [step_agentMessage hwf hacc, sessionAt_deliver, clientScreens_noteScreen,
        clientScreens_touched, latest_ofViewer_agent hacc]
      rfl
    · rw [step_viewerMessage hwf hacc, sessionAt_deliver, clientScreens_noteClient,
        clientScreens_touched, latest_reports_viewer hacc]
      cases message.json with
      | none => rfl
      | some msg =>
          by_cases hvws : v = ws
          · -- the message is one of the viewer, and goes to its own session object
            subst hvws
            rw [hv] at hacc
            cases hacc
            simp only [and_true]
            split <;> rfl
          · simp [hvws]
  · rw [reports_of_not_message hmessage]
    exact (still_step hwf hσ he hmessage).clientScreens p v

/-- A connection that is no viewer of the session object has no screen stored in it by an event. -/
theorem clientScreens_step_of_not_viewer
    (hv : ∀ k i, (σ.conn v).acceptance ≠ some (.viewer k p i)) :
    ((σ.step e).sessionAt p).clientScreens.get? v = (σ.sessionAt p).clientScreens.get? v ∨
      ((σ.step e).sessionAt p).clientScreens.get? v = none := by
  by_cases hmessage : e.isMessage = true
  · left
    obtain ⟨ws, message, now, rfl⟩ := Event.eq_message_of_isMessage hmessage
    rcases hacc : (σ.conn ws).acceptance with _ | ⟨l, o⟩ | ⟨l, o, j⟩
    · rw [step_message_of_none hwf hacc]
    · rw [step_agentMessage hwf hacc, sessionAt_deliver, clientScreens_noteScreen,
        clientScreens_touched]
    · rw [step_viewerMessage hwf hacc, sessionAt_deliver, clientScreens_noteClient,
        clientScreens_touched]
      cases message.json with
      | none => rfl
      | some msg =>
          apply if_neg
          rintro ⟨-, rfl, rfl⟩
          exact hv l j hacc
  · exact ((still_step hwf hσ he hmessage).clientScreens p v).imp id And.right

end Step

end Server

/-! ## The invariant of the record -/

/-- The record names agents and viewers of the session objects; the stored screen of the agent is
the last one that is reported for the session object, and stored client screens are of viewers of
the object. -/
structure Recorded (s : Server × List ScreenReport) : Prop where
  wellFormed : s.1.WellFormed
  owned : s.1.Owned
  agents : ∀ o c S, .agent o c S ∈ s.2 → ∃ k, (s.1.conn c).acceptance = some (.agent k o)
  viewers : ∀ v screen, .viewer v screen ∈ s.2 →
    ∃ k o i, (s.1.conn v).acceptance = some (.viewer k o i)
  agentScreen : ∀ o, (s.1.sessionAt o).agentScreen = (latest (ofSession o) s.2).map Prod.snd
  clients : ∀ o v screen, (s.1.sessionAt o).clientScreens.get? v = some screen →
    ∃ k i, (s.1.conn v).acceptance = some (.viewer k o i)

open Server

namespace Recorded

variable {s : Server × List ScreenReport} {e : Event}

/-- At first nothing is reported and nothing stored. -/
theorem start : Recorded recordedRelay.start where
  wellFormed := wellFormed_start
  owned := owned_start
  agents := fun _ _ _ h => by cases h
  viewers := fun _ _ h => by cases h
  agentScreen := fun _ => rfl
  clients := fun _ _ _ h => by cases h

/-- Every step stores what it reports. -/
theorem step (h : Recorded s) (he : s.1.Enabled e) : Recorded (recordedRelay.step s e) where
  wellFormed := wellFormed_step h.wellFormed he
  owned := h.owned.step he
  agents := by
    intro o c S hmem
    have hacc : ∃ k, (s.1.conn c).acceptance = some (.agent k o) :=
      (List.mem_append.mp hmem).elim (h.agents o c S) agent_mem_reports
    obtain ⟨k, hk⟩ := hacc
    exact ⟨k, acceptance_step_of_some h.wellFormed he hk⟩
  viewers := by
    intro v screen hmem
    have hacc : ∃ k o i, (s.1.conn v).acceptance = some (.viewer k o i) :=
      (List.mem_append.mp hmem).elim (h.viewers v screen) viewer_mem_reports
    obtain ⟨k, o, i, hk⟩ := hacc
    exact ⟨k, o, i, acceptance_step_of_some h.wellFormed he hk⟩
  agentScreen := by
    intro o
    show ((s.1.step e).sessionAt o).agentScreen =
      (latest (ofSession o) (s.2 ++ s.1.reports e)).map Prod.snd
    -- the screen of the event, or else the one before
    rw [agentScreen_step h.wellFormed h.owned he o, latest_append, h.agentScreen o]
    cases latest (ofSession o) (s.1.reports e) <;> rfl
  clients := by
    intro o v screen hget
    by_cases hv : ∃ k i, (s.1.conn v).acceptance = some (.viewer k o i)
    · obtain ⟨k, i, hacc⟩ := hv
      exact ⟨k, i, acceptance_step_of_some h.wellFormed he hacc⟩
    · -- no screen of such a connection is stored by the event, so it was there before
      exfalso
      have hnot : ∀ k i, (s.1.conn v).acceptance ≠ some (.viewer k o i) :=
        fun k i hacc => hv ⟨k, i, hacc⟩
      rcases clientScreens_step_of_not_viewer h.wellFormed h.owned he hnot with hsame | hnone
      · exact hv (h.clients o v screen (hsame.symm.trans hget))
      · exact absurd (hnone.symm.trans hget) (by simp)

/-- Every state of every run is recorded. -/
theorem states {es : List Event} (hrun : relay.IsRun es) :
    recordedRelay.States Recorded recordedRelay.start es :=
  recordedRelay.states_of_invariant start (fun _ _ h he => h.step he)
    (GuardedMachine.isRun_recording_iff.mpr hrun)

/-- An agent's own last report is the last one of its session object, if that one is of the
agent. -/
theorem latest_ofAgent (h : Recorded s) {o : SessionRef} {c : ConnId} {S : AgentScreen}
    (hlast : latest (ofSession o) s.2 = some (c, S)) : latest (ofAgent c) s.2 = some S := by
  obtain ⟨r, hr, hrc⟩ := exists_mem_of_latest hlast
  cases r with
  | viewer ws screen => cases hrc
  | agent p ws S' =>
      simp only [ofSession, Option.ite_none_right_eq_some, Option.some.injEq, Prod.mk.injEq] at hrc
      obtain ⟨rfl, rfl, rfl⟩ := hrc
      obtain ⟨k, hk⟩ := h.agents p ws S' hr
      refine latest_of_latest hlast (fun r hmem hnone => ?_) fun r hmem hsome => ?_
      · cases r with
        | viewer => rfl
        | agent q d T =>
            -- an agent reports for one session object only
            refine if_neg fun hdc => ?_
            obtain ⟨l, hl⟩ := h.agents q d T hmem
            rw [hdc, hk] at hl
            cases hl
            simp [ofSession] at hnone
      · cases r with
        | viewer => cases hsome
        | agent q d T =>
            simp only [ofSession, Option.ite_none_right_eq_some, Option.some.injEq,
              Prod.mk.injEq] at hsome
            obtain ⟨-, rfl, rfl⟩ := hsome
            exact if_pos rfl

end Recorded

end BrowCast
