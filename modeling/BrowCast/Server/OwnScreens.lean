import BrowCast.Server.Broadcast
import BrowCast.Server.Screens
import BrowCast.Server.SentFrames

/-! # Whose screen a frame is about

The copies of an agent's message and the scales carry the dimensions of the stored screen, which is
the last one that any agent of the session object reported. They are those of the agent itself
exactly when that report was its own, or gave the same dimensions. -/

namespace BrowCast

open ScreenReport

/-- The dimensions of a screen, absent if there is none. -/
def AgentScreen.dimensions (screen : Option AgentScreen) : Option Json × Option Json :=
  (screen.bind AgentScreen.width, screen.bind AgentScreen.height)

/-- A copy carries the dimensions of the last screen its source reported. A scale for a viewer is
computed from the last screen that the agent in the slot of its session object reported, if an agent
is in the slot. -/
def Outgoing.IsOfOwnScreen (s : Server × List ScreenReport) (v : ConnId) : Outgoing → Prop
  | .forward source members =>
      (members.lookup "originalWidth", members.lookup "originalHeight") =
        AgentScreen.dimensions (latest (ofAgent source) s.2)
  | .setScale scale originalWidth originalHeight =>
      ∀ sessionId session viewerId,
        (s.1.conn v).acceptance = some (.viewer sessionId session viewerId) →
        ∀ agent ∈ (s.1.sessionAt session).agent,
          ∃ own ∈ latest (ofAgent agent) s.2,
            ∃ screen ∈ (s.1.sessionAt session).clientScreens.get? v,
              calculateOptimalScale own screen = .ok scale ∧
                originalWidth = own.width ∧ originalHeight = own.height
  | _ => True

namespace Server

/-- Every frame that the event sends is of the screen of the agent itself. -/
def SendsOwnScreens (s : Server × List ScreenReport) (e : Event) : Prop :=
  ∀ v, ∀ f ∈ s.1.newFrames e v, f.IsOfOwnScreen (recordedRelay.step s e) v

/-- The last report for the session object is of this agent, or gave the dimensions of the agent's
own last report. -/
def SpeaksLast (log : List ScreenReport) (session : SessionRef) (agent : ConnId) : Prop :=
  ∀ d screen, latest (ofSession session) log = some (d, screen) → d = agent ∨
    AgentScreen.dimensions (latest (ofAgent agent) log) = AgentScreen.dimensions (some screen)

/-- The event is a message of the agent, other than `screen_info`, and a stored viewer is OPEN. -/
def MakesCopies (σ : Server) (session : SessionRef) (agent : ConnId) (e : Event) : Prop :=
  ∃ message now msg sessionId, e = .message agent message now ∧ message.json = some msg ∧
    (σ.conn agent).acceptance = some (.agent sessionId session) ∧
    msg ≠ .null ∧ msg.announcesScreen = false ∧
    ∃ v ∈ (σ.sessionAt session).viewers.values, (σ.conn v).readyState = .OPEN

/-- The event is a `screen_info` message for the session object and a scale can be computed for the
first OPEN client screen, or it is a `client_info` message of an OPEN viewer and a scale can be
computed for it. -/
def MakesScales (σ : Server) (session : SessionRef) (e : Event) : Prop :=
  ∃ ws message now msg, e = .message ws message now ∧ message.json = some msg ∧
    ((∃ sessionId, (σ.conn ws).acceptance = some (.agent sessionId session) ∧
        msg.announcesScreen = true ∧ (screenOf msg).printable = true ∧
        ∃ entry ∈ (σ.openScreens session).head?, (screenOf msg).canScale entry.2 = true) ∨
      ∃ sessionId viewerId, (σ.conn ws).acceptance = some (.viewer sessionId session viewerId) ∧
        msg.announcesClient = true ∧ (σ.conn ws).readyState = .OPEN ∧
        Json.printableScreen (msg.member "screen") = true ∧
        ∃ agentScreen ∈ (σ.sessionAt session).agentScreen,
          agentScreen.canScale (msg.member "screen") = true)

/-- An agent whose message is copied speaks last in its session object, and so does an agent in the
slot when scales are sent, which has reported a screen. -/
def AgentsSpeakLast (s : Server × List ScreenReport) (e : Event) : Prop :=
  ∀ session,
    (∀ agent, s.1.MakesCopies session agent e →
      SpeaksLast (s.2 ++ s.1.reports e) session agent) ∧
    (s.1.MakesScales session e → ∀ agent ∈ (s.1.sessionAt session).agent,
      latest (ofAgent agent) (s.2 ++ s.1.reports e) ≠ none ∧
        SpeaksLast (s.2 ++ s.1.reports e) session agent)

variable {σ : Server} {s : Server × List ScreenReport} {ws v c : ConnId} {o : SessionRef}
  {e : Event} {k : SessionId} {i : String} {message : Message} {now : ℕ} {f : Outgoing}

/-! ## What a message leaves alone -/

/-- A message changes neither the slots nor the roles. -/
theorem registry_step_message (σ : Server) (ws : ConnId) (message : Message) (now : ℕ) :
    (σ.step (.message ws message now)).registry = σ.registry :=
  (quiet_settle (isQuiet_onMessage ws message now) σ).registry

/-- Messages leave every session object its agent. -/
theorem agent_step_message (σ : Server) (ws : ConnId) (message : Message) (now : ℕ)
    (o : SessionRef) : ((σ.step (.message ws message now)).sessionAt o).agent =
      (σ.sessionAt o).agent :=
  congrFun (congrArg Registry.agent (registry_step_message σ ws message now)) o

/-! ## When a frame is of the agent's own screen -/

/-- A notice carries no screen, so there is nothing foreign in it. -/
theorem isOfOwnScreen_of_isNotice (h : f.isNotice = true) : f.IsOfOwnScreen s v := by
  cases f <;> trivial

/-- The dimensions of the last report for the session object are those of the agent's own last
report. -/
theorem speaksLast_iff (h : Recorded s) :
    SpeaksLast s.2 o c ↔ ∀ d screen, latest (ofSession o) s.2 = some (d, screen) →
      AgentScreen.dimensions (latest (ofAgent c) s.2) = AgentScreen.dimensions (some screen) := by
  constructor
  · intro hspeaks d screen hlast
    rcases hspeaks d screen hlast with rfl | hsame
    · rw [h.latest_ofAgent hlast]
    · exact hsame
  · intro hsame d screen hlast
    exact Or.inr (hsame d screen hlast)

/-- A copy with the stored screen is of its source's own screen exactly when the source speaks
last. -/
theorem isOfOwnScreen_copy_iff (h : Recorded s) (msg : Json)
    (hagent : (s.1.conn c).acceptance = some (.agent k o)) :
    (Outgoing.forward c (forwardCopy msg (s.1.sessionAt o).agentScreen)).IsOfOwnScreen s v ↔
      SpeaksLast s.2 o c := by
  have hcopy : ((forwardCopy msg (s.1.sessionAt o).agentScreen).lookup "originalWidth",
      (forwardCopy msg (s.1.sessionAt o).agentScreen).lookup "originalHeight") =
        AgentScreen.dimensions (s.1.sessionAt o).agentScreen := by
    rw [lookup_forwardCopy, lookup_forwardCopy]
    rfl
  rw [speaksLast_iff h]
  show _ = _ ↔ _
  rw [hcopy, h.agentScreen o]
  cases hlast : latest (ofSession o) s.2 with
  | some p =>
      obtain ⟨d, screen⟩ := p
      constructor
      · rintro heq _ _ h'
        cases h'
        exact heq.symm
      · intro h'
        exact (h' d screen rfl).symm
  | none =>
      -- nobody has reported a screen, so the source has not
      have hown : latest (ofAgent c) s.2 = none := by
        rw [latest_eq_none_iff] at hlast ⊢
        intro r hr
        cases r with
        | viewer => rfl
        | agent p d S =>
            apply if_neg
            rintro rfl
            obtain ⟨l, hl⟩ := h.agents p d S hr
            rw [hagent] at hl
            cases hl
            have hfirst := hlast _ hr
            simp [ofSession] at hfirst
      rw [hown]
      exact iff_of_true rfl fun _ _ h' => by cases h'

/-- A scale computed from the stored screen is of the screen of the agent in the slot exactly when
that agent has reported one and speaks last. -/
theorem isOfOwnScreen_scale_iff (h : Recorded s) {agentScreen : AgentScreen} {screen : Option Json}
    {scale : Number} (hstored : (s.1.sessionAt o).agentScreen = some agentScreen)
    (hviewer : (s.1.conn v).acceptance = some (.viewer k o i))
    (hclient : (s.1.sessionAt o).clientScreens.get? v = some screen)
    (hscale : calculateOptimalScale agentScreen screen = .ok scale) :
    (Outgoing.setScale scale agentScreen.width agentScreen.height).IsOfOwnScreen s v ↔
      ∀ agent ∈ (s.1.sessionAt o).agent,
        latest (ofAgent agent) s.2 ≠ none ∧ SpeaksLast s.2 o agent := by
  -- the stored screen is the last one reported in the session
  obtain ⟨p, hlast, hp⟩ := Option.map_eq_some_iff.mp ((h.agentScreen o).symm.trans hstored)
  obtain ⟨d, S⟩ := p
  obtain rfl : S = agentScreen := hp
  constructor
  · intro hframe agent hslot
    obtain ⟨own, hown, -, -, -, hwidth, hheight⟩ := hframe k o i hviewer agent hslot
    rw [Option.mem_def] at hown
    rw [speaksLast_iff h, hown]
    refine ⟨by simp, fun d' S' hlast' => ?_⟩
    cases hlast.symm.trans hlast'
    show (own.width, own.height) = (S.width, S.height)
    rw [hwidth, hheight]
  · intro hspeaks l p j hviewer' agent hslot
    cases hviewer.symm.trans hviewer'
    obtain ⟨hreported, hlast'⟩ := hspeaks agent hslot
    obtain ⟨own, hown⟩ := Option.ne_none_iff_exists'.mp hreported
    have hsame := (speaksLast_iff h).mp hlast' d S hlast
    rw [hown] at hsame
    obtain ⟨hwidth, hheight⟩ := Prod.mk.inj hsame
    refine ⟨own, hown, screen, hclient, ?_, hwidth.symm, hheight.symm⟩
    -- the scale depends on the size of the screen only
    rw [calculateOptimalScale_congr hwidth hheight, hscale]

/-! ## One step -/

/-- A message that copies are made of is one of a single agent. -/
theorem makesCopies_iff (hagent : (σ.conn ws).acceptance = some (.agent k o)) {p : SessionRef} :
    σ.MakesCopies p c (.message ws message now) ↔ (p = o ∧ c = ws) ∧
      ∃ msg, message.json = some msg ∧ msg ≠ .null ∧ msg.announcesScreen = false ∧
        ∃ v ∈ (σ.sessionAt o).viewers.values, (σ.conn v).readyState = .OPEN := by
  constructor
  · rintro ⟨m, n, msg, l, heq, hjson, hacc, hrest⟩
    cases heq
    cases hagent.symm.trans hacc
    exact ⟨⟨rfl, rfl⟩, msg, hjson, hrest⟩
  · rintro ⟨⟨rfl, rfl⟩, msg, hjson, hrest⟩
    exact ⟨message, now, msg, k, rfl, hjson, hagent, hrest⟩

/-- A message of an agent makes scales in its own session object when it announces a printable
screen and the first OPEN viewer's screen can be scaled. -/
theorem makesScales_agent_iff (hagent : (σ.conn ws).acceptance = some (.agent k o))
    {p : SessionRef} : σ.MakesScales p (.message ws message now) ↔ p = o ∧
      ∃ msg, message.json = some msg ∧ msg.announcesScreen = true ∧
        (screenOf msg).printable = true ∧
        ∃ entry ∈ (σ.openScreens o).head?, (screenOf msg).canScale entry.2 = true := by
  constructor
  · rintro ⟨w, m, n, msg, heq, hjson, hcases⟩
    cases heq
    rcases hcases with ⟨l, hacc, hrest⟩ | ⟨l, j, hacc, -⟩
    · cases hagent.symm.trans hacc
      exact ⟨rfl, msg, hjson, hrest⟩
    · cases hagent.symm.trans hacc
  · rintro ⟨rfl, msg, hjson, hrest⟩
    exact ⟨ws, message, now, msg, rfl, hjson, Or.inl ⟨k, hagent, hrest⟩⟩

/-- A message of an OPEN viewer makes its scale when it announces a printable screen and the session
has an agent screen to compare it with. -/
theorem makesScales_viewer_iff (hviewer : (σ.conn ws).acceptance = some (.viewer k o i))
    {p : SessionRef} : σ.MakesScales p (.message ws message now) ↔ p = o ∧
      ∃ msg, message.json = some msg ∧ msg.announcesClient = true ∧
        (σ.conn ws).readyState = .OPEN ∧ Json.printableScreen (msg.member "screen") = true ∧
        ∃ agentScreen ∈ (σ.sessionAt o).agentScreen,
          agentScreen.canScale (msg.member "screen") = true := by
  constructor
  · rintro ⟨w, m, n, msg, heq, hjson, hcases⟩
    cases heq
    rcases hcases with ⟨l, hacc, -⟩ | ⟨l, j, hacc, hrest⟩
    · cases hviewer.symm.trans hacc
    · cases hviewer.symm.trans hacc
      exact ⟨rfl, msg, hjson, hrest⟩
  · rintro ⟨rfl, msg, hjson, hrest⟩
    exact ⟨ws, message, now, msg, rfl, hjson, Or.inr ⟨k, i, hviewer, hrest⟩⟩

/-- A text that is no JSON, or JSON `null`, makes no frames. -/
theorem sendsOwnScreens_agent_of_unread (h : Recorded s)
    (hagent : (s.1.conn ws).acceptance = some (.agent k o))
    (hjson : message.json = none ∨ message.json = some .null) :
    SendsOwnScreens s (.message ws message now) ↔
      AgentsSpeakLast s (.message ws message now) := by
  refine iff_of_true (fun v f hf => ?_) fun p => ⟨fun c hmakes => ?_, fun hmakes => ?_⟩
  · obtain ⟨-, hmem⟩ := (mem_newFrames_agent h.wellFormed hagent).mp hf
    rcases hjson with hjson | hjson <;> rw [hjson] at hmem <;> cases hmem
  · obtain ⟨-, msg, hmsg, hnull, -⟩ := (makesCopies_iff hagent).mp hmakes
    rcases hjson with hjson | hjson
    · cases hjson.symm.trans hmsg
    · cases hjson.symm.trans hmsg
      exact absurd rfl hnull
  · obtain ⟨-, msg, hmsg, hscreen, -⟩ := (makesScales_agent_iff hagent).mp hmakes
    rcases hjson with hjson | hjson
    · cases hjson.symm.trans hmsg
    · cases hjson.symm.trans hmsg
      cases hscreen

/-- Right after a message, a scale computed from the stored screens is of the screen of the agent in
the slot exactly when that agent has reported one and speaks last. -/
theorem isOfOwnScreen_scale_step_iff (h : Recorded s) (he : s.1.Enabled (.message ws message now))
    {agentScreen : AgentScreen} {screen : Option Json} {scale : Number}
    (hstored : ((s.1.step (.message ws message now)).sessionAt o).agentScreen = some agentScreen)
    (hviewer : (s.1.conn v).acceptance = some (.viewer k o i))
    (hclient : ((s.1.step (.message ws message now)).sessionAt o).clientScreens.get? v =
      some screen)
    (hscale : calculateOptimalScale agentScreen screen = .ok scale) :
    (Outgoing.setScale scale agentScreen.width agentScreen.height).IsOfOwnScreen
        (recordedRelay.step s (.message ws message now)) v ↔
      ∀ agent ∈ (s.1.sessionAt o).agent,
        latest (ofAgent agent) (s.2 ++ s.1.reports (.message ws message now)) ≠ none ∧
          SpeaksLast (s.2 ++ s.1.reports (.message ws message now)) o agent := by
  rw [isOfOwnScreen_scale_iff (h.step he) hstored
    (acceptance_step_of_some h.wellFormed he hviewer) hclient hscale, fst_recordedStep,
    agent_step_message, snd_recordedStep]

/-! ### The messages of agents -/

section AgentMessages

variable (h : Recorded s) (he : s.1.Enabled (.message ws message now))
  (hagent : (s.1.conn ws).acceptance = some (.agent k o)) {msg : Json}
  (hjson : message.json = some msg)

include h he hagent hjson

/-- A scale that a `screen_info` message sends is for the screen it reports, which is stored. -/
theorem isOfOwnScreen_screenSending_iff {screen : Option Json} {scale : Number}
    (hscreen : msg.announcesScreen = true)
    (hclient : (s.1.sessionAt o).clientScreens.get? v = some screen)
    (hscale : calculateOptimalScale (screenOf msg) screen = .ok scale) :
    (Outgoing.setScale scale (screenOf msg).width (screenOf msg).height).IsOfOwnScreen
        (recordedRelay.step s (.message ws message now)) v ↔
      ∀ agent ∈ (s.1.sessionAt o).agent,
        latest (ofAgent agent) (s.2 ++ s.1.reports (.message ws message now)) ≠ none ∧
          SpeaksLast (s.2 ++ s.1.reports (.message ws message now)) o agent := by
  obtain ⟨l, j, hviewer⟩ := h.clients o v screen hclient
  refine isOfOwnScreen_scale_step_iff h he ?_ hviewer ?_ hscale
  · rw [agentScreen_step_agentMessage h.wellFormed hagent, hjson, agentScreen_noteScreen]
    exact if_pos ⟨hscreen, rfl⟩
  · rw [step_agentMessage h.wellFormed hagent, sessionAt_deliver, clientScreens_noteScreen,
      clientScreens_touched, hclient]

/-- A copy carries the screen that is stored after the message. -/
theorem isOfOwnScreen_copying_iff :
    (Outgoing.forward ws (forwardCopy msg
        ((s.1.noteScreen o (some msg)).sessionAt o).agentScreen)).IsOfOwnScreen
        (recordedRelay.step s (.message ws message now)) v ↔
      SpeaksLast (s.2 ++ s.1.reports (.message ws message now)) o ws := by
  rw [← hjson, ← agentScreen_step_agentMessage h.wellFormed hagent]
  exact isOfOwnScreen_copy_iff (h.step he) msg (acceptance_step_of_some h.wellFormed he hagent)

/-- Where a message sends frames of the agents' own screens only, the agents it is about speak last.
-/
theorem agentsSpeakLast_of_sendsOwnScreens (hnull : msg ≠ .null)
    (hown : SendsOwnScreens s (.message ws message now)) :
    AgentsSpeakLast s (.message ws message now) := by
  intro p
  constructor
  · intro c hmakes
    -- a copy that is made goes to some open viewer
    obtain ⟨⟨rfl, rfl⟩, msg', hjson', -, hscreen, v, hv, hopen⟩ :=
      (makesCopies_iff hagent).mp hmakes
    cases hjson.symm.trans hjson'
    refine (isOfOwnScreen_copying_iff h he hagent hjson).mp
      (hown v _ ((mem_newFrames_agent h.wellFormed hagent).mpr ⟨hopen, ?_⟩))
    rw [hjson]
    exact (mem_agentSending_iff hnull).mpr (Or.inr ⟨by simp [hscreen], hv, rfl⟩)
  · intro hmakes
    obtain ⟨rfl, msg', hjson', hscreen, hprintable, ⟨v, screen⟩, hentry, hcan⟩ :=
      (makesScales_agent_iff hagent).mp hmakes
    cases hjson.symm.trans hjson'
    -- and so does the first scale
    obtain ⟨scale, hscale, hmem⟩ := mem_screenSending_head hprintable hentry hcan
    have hopened := List.mem_of_mem_head? hentry
    have hclient := (InsertionMap.mem_entries_iff _ _ _).mp (List.mem_filter.mp hopened).1
    refine (isOfOwnScreen_screenSending_iff h he hagent hjson hscreen hclient hscale).mp
      (hown v _ ((mem_newFrames_agent h.wellFormed hagent).mpr ⟨mem_openScreens hopened, ?_⟩))
    rw [hjson]
    exact (mem_agentSending_iff hnull).mpr (Or.inl ⟨hscreen, hmem⟩)

/-- The converse: where the agents speak last, every frame sent is of the agent's own screen. -/
theorem sendsOwnScreens_of_agentsSpeakLast (hnull : msg ≠ .null)
    (hspeak : AgentsSpeakLast s (.message ws message now)) :
    SendsOwnScreens s (.message ws message now) := by
  intro v f hf
  obtain ⟨hopen, hmem⟩ := (mem_newFrames_agent h.wellFormed hagent).mp hf
  rw [hjson, mem_agentSending_iff hnull] at hmem
  rcases hmem with ⟨hscreen, hmem⟩ | ⟨-, hv, rfl⟩
  · obtain ⟨hprintable, hhead, screen, scale, hclient, hscale, rfl⟩ := mem_screenSending hmem
    refine (isOfOwnScreen_screenSending_iff h he hagent hjson hscreen hclient hscale).mpr
      ((hspeak o).2 ?_)
    exact (makesScales_agent_iff hagent).mpr ⟨rfl, msg, hjson, hscreen, hprintable, hhead⟩
  · refine (isOfOwnScreen_copying_iff h he hagent hjson).mpr ?_
    by_cases hscreen : msg.announcesScreen = true
    · -- a `screen_info` message is itself the last report
      intro d S hlast
      rw [latest_append, latest_reports_agent hagent, hjson] at hlast
      simp only [hscreen, and_self, if_true, Option.some_or, Option.some.injEq,
        Prod.mk.injEq] at hlast
      exact Or.inl hlast.1.symm
    · have hother : msg.announcesScreen = false := by simpa using hscreen
      exact (hspeak o).1 ws ((makesCopies_iff hagent).mpr
        ⟨⟨rfl, rfl⟩, msg, hjson, hnull, hother, v, hv, hopen⟩)

end AgentMessages

/-- For a message of an agent the two are the same. -/
theorem sendsOwnScreens_agent_iff (h : Recorded s) (he : s.1.Enabled (.message ws message now))
    (hagent : (s.1.conn ws).acceptance = some (.agent k o)) :
    SendsOwnScreens s (.message ws message now) ↔
      AgentsSpeakLast s (.message ws message now) := by
  rcases hjson : message.json with _ | msg
  · exact sendsOwnScreens_agent_of_unread h hagent (Or.inl hjson)
  by_cases hnull : msg = .null
  · exact sendsOwnScreens_agent_of_unread h hagent (Or.inr (hnull ▸ hjson))
  exact ⟨agentsSpeakLast_of_sendsOwnScreens h he hagent hjson hnull,
    sendsOwnScreens_of_agentsSpeakLast h he hagent hjson hnull⟩

/-! ### The messages of viewers -/

/-- A scale that a `client_info` message sends is computed from the stored screen of the agent, and
from the one the message reports. -/
theorem isOfOwnScreen_clientSending_iff (h : Recorded s)
    (he : s.1.Enabled (.message ws message now))
    (hviewer : (s.1.conn ws).acceptance = some (.viewer k o i)) {msg : Json}
    (hjson : message.json = some msg) (hclient : msg.announcesClient = true)
    {agentScreen : AgentScreen} {scale : Number}
    (hstored : (s.1.sessionAt o).agentScreen = some agentScreen)
    (hscale : calculateOptimalScale agentScreen (msg.member "screen") = .ok scale) :
    (Outgoing.setScale scale agentScreen.width agentScreen.height).IsOfOwnScreen
        (recordedRelay.step s (.message ws message now)) ws ↔
      ∀ agent ∈ (s.1.sessionAt o).agent,
        latest (ofAgent agent) (s.2 ++ s.1.reports (.message ws message now)) ≠ none ∧
          SpeaksLast (s.2 ++ s.1.reports (.message ws message now)) o agent := by
  refine isOfOwnScreen_scale_step_iff h he ?_ hviewer ?_ hscale
  · rw [agentScreen_step h.wellFormed h.owned he o, latest_ofSession_viewer hviewer, hstored]
    rfl
  · rw [step_viewerMessage h.wellFormed hviewer, sessionAt_deliver, clientScreens_noteClient,
      hjson]
    exact if_pos ⟨hclient, rfl, rfl⟩

/-- For a message of a viewer the two are the same. -/
theorem sendsOwnScreens_viewer_iff (h : Recorded s) (he : s.1.Enabled (.message ws message now))
    (hviewer : (s.1.conn ws).acceptance = some (.viewer k o i)) :
    SendsOwnScreens s (.message ws message now) ↔
      AgentsSpeakLast s (.message ws message now) := by
  constructor
  · intro hown p
    constructor
    · -- the sender is a viewer, so no agent is copied
      rintro c ⟨m, n, msg, l, heq, -, hagent, -⟩
      cases heq
      cases hviewer.symm.trans hagent
    · intro hmakes
      obtain ⟨rfl, msg, hjson, hclient, hopen, hprintable, agentScreen, hstored, hcan⟩ :=
        (makesScales_viewer_iff hviewer).mp hmakes
      obtain ⟨scale, hscale⟩ := canScale_iff.mp hcan
      refine (isOfOwnScreen_clientSending_iff h he hviewer hjson hclient hstored hscale).mp
        (hown ws _ ((mem_newFrames_viewer h.wellFormed hviewer).mpr ⟨hopen, ?_⟩))
      exact mem_viewerSending_iff.mpr
        (Or.inl ⟨msg, agentScreen, scale, hjson, hclient, hprintable, hstored, hscale, rfl, rfl⟩)
  · intro hspeak v f hf
    obtain ⟨hopen, hmem⟩ := (mem_newFrames_viewer h.wellFormed hviewer).mp hf
    rcases mem_viewerSending_iff.mp hmem with hscales | ⟨-, -, -, -, -, rfl⟩
    · obtain ⟨msg, agentScreen, scale, hjson, hclient, hprintable, hstored, hscale, rfl, rfl⟩ :=
        hscales
      refine (isOfOwnScreen_clientSending_iff h he hviewer hjson hclient hstored hscale).mpr
        ((hspeak o).2 ?_)
      exact (makesScales_viewer_iff hviewer).mpr ⟨rfl, msg, hjson, hclient, hopen, hprintable,
        agentScreen, hstored, canScale_iff.mpr ⟨scale, hscale⟩⟩
    · -- input for the agent carries no screen
      trivial

/-! ### Any event -/

/-- Events that are no messages make neither copies nor scales. -/
theorem agentsSpeakLast_of_not_message (hno : e.isMessage ≠ true) : AgentsSpeakLast s e := by
  refine fun p => ⟨fun c hmakes => ?_, fun hmakes => ?_⟩
  · obtain ⟨m, n, msg, l, rfl, -⟩ := hmakes
    exact absurd rfl hno
  · obtain ⟨w, m, n, msg, rfl, -⟩ := hmakes
    exact absurd rfl hno

/-- **Whose screens one event sends.** -/
theorem sendsOwnScreens_iff (h : Recorded s) (he : s.1.Enabled e) :
    SendsOwnScreens s e ↔ AgentsSpeakLast s e := by
  by_cases hmessage : e.isMessage = true
  · obtain ⟨ws, message, now, rfl⟩ := Event.eq_message_of_isMessage hmessage
    rcases hacc : (s.1.conn ws).acceptance with _ | ⟨k, o⟩ | ⟨k, o, i⟩
    · -- a socket that was turned away has no listeners
      refine iff_of_true (fun v f hf => ?_) fun p => ⟨fun c hmakes => ?_, fun hmakes => ?_⟩
      · have hnothing : s.1.newFrames (.message ws message now) v = [] := by
          rw [newFrames, step_message_of_none h.wellFormed hacc, List.drop_length]
        rw [hnothing] at hf
        cases hf
      · obtain ⟨m, n, msg, l, heq, -, hagent, -⟩ := hmakes
        cases heq
        cases hacc.symm.trans hagent
      · obtain ⟨w, m, n, msg, heq, -, hcases⟩ := hmakes
        cases heq
        rcases hcases with ⟨l, hagent, -⟩ | ⟨l, j, hviewer, -⟩
        · cases hacc.symm.trans hagent
        · cases hacc.symm.trans hviewer
    · exact sendsOwnScreens_agent_iff h he hacc
    · exact sendsOwnScreens_viewer_iff h he hacc
  · refine iff_of_true (fun v f hf => ?_) (agentsSpeakLast_of_not_message hmessage)
    exact isOfOwnScreen_of_isNotice
      (isNotice_of_mem_newFrames h.wellFormed h.owned he hmessage hf)

end Server

open Server

/-! ## Runs -/

/-- **Whose screens a run sends.** Every copy carries the dimensions its source reported last, and
every scale that is sent while an agent is in the slot is computed from the screen that agent
reported last, exactly when agents whose messages are copied, and agents in the slot when scales are
sent, speak last in their session object. -/
theorem sendsOwnScreens_iff_agentsSpeakLast {es : List Event} (hrun : relay.IsRun es) :
    recordedRelay.Steps SendsOwnScreens recordedRelay.start es ↔
      recordedRelay.Steps AgentsSpeakLast recordedRelay.start es :=
  GuardedMachine.States.steps_congr recordedRelay (P := SendsOwnScreens) (Q := AgentsSpeakLast)
    (fun _ _ h he => sendsOwnScreens_iff h he) (Recorded.states hrun)
    (GuardedMachine.isRun_recording_iff.mpr hrun)

/-- An agent announces its screen to a viewer. -/
theorem sendsOwnScreens_fullHd :
    recordedRelay.Steps SendsOwnScreens recordedRelay.start
      [.connect 0 ⟨some "/agent", .one "s"⟩ 0, .connect 1 ⟨some "/viewer", .one "s"⟩ 1,
        .message 0 fullHd 2] := by
  refine (sendsOwnScreens_iff_agentsSpeakLast (by decide)).mpr
    ⟨agentsSpeakLast_of_not_message (by decide), agentsSpeakLast_of_not_message (by decide),
      fun o => ⟨fun c hmakes => ?_, fun hmakes => ?_⟩, trivial⟩
  · -- the message is a `screen_info` message
    obtain ⟨m, n, msg, k, heq, hjson, -, -, hscreen, -⟩ := hmakes
    cases heq
    cases hjson
    exact absurd hscreen (by decide)
  · -- and no viewer has reported its screen
    obtain ⟨w, m, n, msg, heq, hjson, hcases⟩ := hmakes
    cases heq
    rcases hcases with ⟨k, hagent, -, -, entry, hentry, -⟩ | ⟨k, i, hviewer, -⟩
    · have hacc : some (Acceptance.agent (.text "s") 0) = some (.agent k o) := hagent
      cases hacc
      cases hentry
    · have hacc : some (Acceptance.agent (.text "s") 0) = some (.viewer k o i) := hviewer
      cases hacc

/-- The agent announces its screen and leaves, and another one takes its place in the session that
the viewer keeps alive. It has not said anything about its screen when it sends its first frame. -/
def replacedAgent : List Event :=
  [.connect 0 ⟨some "/agent", .one "s"⟩ 0, .connect 1 ⟨some "/viewer", .one "s"⟩ 1,
    .message 0 fullHd 2, .closing 0, .close 0, .connect 2 ⟨some "/agent", .one "s"⟩ 3,
    .message 2 ⟨"\x7b\"type\":\"frame\"\x7d", some (.obj [("type", .str "frame")])⟩ 4]

/-- The copy of the frame carries the dimensions of the first agent's screen. -/
theorem sendsOwnScreens_replacedAgent :
    relay.IsRun replacedAgent ∧
      ((relay.after relay.start replacedAgent).copies 1).getLast? =
        some (2, forwardCopy (.obj [("type", .str "frame")]) (some (screenOf (.obj
          [("type", .str "screen_info"), ("width", .num (.ofMagnitude 1920)),
            ("height", .num (.ofMagnitude 1080))])))) ∧
      ¬ recordedRelay.Steps SendsOwnScreens recordedRelay.start replacedAgent := by
  refine ⟨by decide, rfl, fun h => ?_⟩
  have hframe := h.2.2.2.2.2.2.1 1 (.forward 2 (forwardCopy (.obj [("type", .str "frame")])
    (some (screenOf (.obj [("type", .str "screen_info"), ("width", .num (.ofMagnitude 1920)),
      ("height", .num (.ofMagnitude 1080))]))))) (List.mem_of_getLast? rfl)
  have hwidth := (Prod.mk.inj hframe).1
  cases hwidth

end BrowCast
