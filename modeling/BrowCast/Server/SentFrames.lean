import BrowCast.Server.FailedMessages
import BrowCast.Server.Notices
import Mathlib.Tactic.ByContra

/-! # What one event sends

Each frame that is appended to what a socket was sent. A message of an agent sends scales and
copies, a message of a viewer its scale or the input for the agent, and other events send notices
only. -/

namespace BrowCast

namespace Server

/-- What an event sends on a socket. -/
def newFrames (σ : Server) (e : Event) (v : ConnId) : List Outgoing :=
  ((σ.step e).conn v).sent.drop (σ.conn v).sent.length

variable {σ : Server} {ws v : ConnId} {o : SessionRef} {e : Event} {k : SessionId} {i : String}
  {message : Message} {now : ℕ} {f : Outgoing}

/-- What a step adds to a record are its new frames. -/
theorem newFrames_of_sent {frames : List Outgoing}
    (hsent : ((σ.step e).conn v).sent = (σ.conn v).sent ++ frames) :
    σ.newFrames e v = frames := by
  rw [newFrames, hsent, List.drop_left]

/-- The new frames of a step that delivers a list are those for OPEN sockets in the list. -/
theorem mem_newFrames_of_deliver {τ : Server} {frames : List (ConnId × Outgoing)}
    (hstep : σ.step e = τ.deliver frames) (hsent : (τ.conn v).sent = (σ.conn v).sent)
    (hstate : (τ.conn v).readyState = (σ.conn v).readyState) :
    f ∈ σ.newFrames e v ↔ (σ.conn v).readyState = .OPEN ∧ (v, f) ∈ frames := by
  have hnew := congrArg (fun υ => (υ.conn v).sent) hstep
  simp only [conn_deliver, hsent, hstate] at hnew
  rw [newFrames_of_sent hnew]
  split
  · rename_i hopen
    rw [mem_addressed_iff]
    exact (and_iff_right hopen).symm
  · rename_i hnot
    exact iff_of_false List.not_mem_nil fun h => hnot h.1

/-- A message of an agent brings OPEN sockets the frames of its sending. -/
theorem mem_newFrames_agent (hwf : σ.WellFormed)
    (hagent : (σ.conn ws).acceptance = some (.agent k o)) :
    f ∈ σ.newFrames (.message ws message now) v ↔
      (σ.conn v).readyState = .OPEN ∧ (v, f) ∈ (σ.agentSending ws o message.json).frames :=
  mem_newFrames_of_deliver (step_agentMessage hwf hagent message now) (by rw [conn_noteScreen])
    (by rw [conn_noteScreen])

/-- A message of a viewer brings OPEN sockets the frames of its sending. -/
theorem mem_newFrames_viewer (hwf : σ.WellFormed)
    (hviewer : (σ.conn ws).acceptance = some (.viewer k o i)) :
    f ∈ σ.newFrames (.message ws message now) v ↔
      (σ.conn v).readyState = .OPEN ∧ (v, f) ∈ (σ.viewerSending ws o message).frames :=
  mem_newFrames_of_deliver (step_viewerMessage hwf hviewer message now)
    (sent_noteClient σ ws o message.json now v) (readyState_noteClient σ ws o message.json now v)

/-- Events that are no messages send notices only. -/
theorem isNotice_of_mem_newFrames (hwf : σ.WellFormed) (hσ : σ.Owned) (he : σ.Enabled e)
    (hno : e.isMessage ≠ true) (hf : f ∈ σ.newFrames e v) : f.isNotice = true := by
  obtain ⟨frames, hsent, hframes⟩ := (still_step hwf hσ he hno).sent v
  rw [newFrames_of_sent hsent] at hf
  exact hframes f hf

/-! ## The messages of agents -/

/-- What an agent's message sends: scales if it is a `screen_info` message, and copies if nothing
stops it before. -/
theorem mem_agentSending_iff {msg : Json} (hnull : msg ≠ .null) :
    (v, f) ∈ (σ.agentSending ws o (some msg)).frames ↔
      (msg.announcesScreen = true ∧ (v, f) ∈ (σ.screenSending o msg).frames) ∨
      (msg.announcesScreen = true → σ.ScreenAccepted o msg) ∧
        v ∈ (σ.sessionAt o).viewers.values ∧ f = .forward ws
          (forwardCopy msg ((σ.noteScreen o (some msg)).sessionAt o).agentScreen) := by
  have hcopies (data : Outgoing) : (v, f) ∈ broadcast (σ.sessionAt o).viewers.values data ↔
      v ∈ (σ.sessionAt o).viewers.values ∧ f = data := by
    simp only [broadcast, List.mem_map, Prod.mk.injEq]
    constructor
    · rintro ⟨w, hw, rfl, rfl⟩
      exact ⟨hw, rfl⟩
    · rintro ⟨hv, rfl⟩
      exact ⟨v, hv, rfl, rfl⟩
  rw [agentSending_of_ne_null hnull]
  by_cases hscreen : msg.announcesScreen = true
  · rw [if_pos hscreen]
    -- copies follow the scales unless making these throws
    by_cases hok : (σ.screenSending o msg).failure = none
    · have haccepted := screenSending_failure_eq_none_iff.mp hok
      rw [Sending.andThen_of_ok _ hok, List.mem_append, hcopies]
      simp [hscreen, haccepted]
    · have hrejected : ¬ σ.ScreenAccepted o msg :=
        fun h => hok (screenSending_failure_eq_none_iff.mpr h)
      rw [Sending.andThen_of_failed _ hok]
      simp [hscreen, hrejected]
  · rw [if_neg hscreen, Sending.andThen_of_ok _ rfl, List.nil_append, hcopies]
    simp [hscreen]

/-- A frame sent for an announced screen gives a viewer the scale for its stored screen. -/
theorem mem_screenSending {msg : Json} (hf : (v, f) ∈ (σ.screenSending o msg).frames) :
    (screenOf msg).printable = true ∧
      (∃ entry ∈ (σ.openScreens o).head?, (screenOf msg).canScale entry.2 = true) ∧
      ∃ screen scale, (σ.sessionAt o).clientScreens.get? v = some screen ∧
        calculateOptimalScale (screenOf msg) screen = .ok scale ∧
        f = .setScale scale (screenOf msg).width (screenOf msg).height := by
  unfold screenSending at hf
  split at hf
  · rename_i hprintable
    refine ⟨hprintable, ?_, ?_⟩
    · by_contra hnone
      have hnil : (scaleUpdates (screenOf msg) (σ.openScreens o)).frames = [] := by
        refine scaleUpdates_frames_eq_nil_iff.mpr fun entry hentry => ?_
        by_contra hcan
        exact hnone ⟨entry, hentry, by simpa using hcan⟩
      rw [hnil] at hf
      cases hf
    · obtain ⟨⟨c, screen⟩, hentry, scale, hscale, heq⟩ := mem_scaleUpdates hf
      cases heq
      have hstored := (InsertionMap.mem_entries_iff _ _ _).mp (List.mem_filter.mp hentry).1
      exact ⟨screen, scale, hstored, hscale, rfl⟩
  · cases hf

/-- The first OPEN viewer is told its scale when that can be computed. -/
theorem mem_screenSending_head {msg : Json} {entry : ConnId × Option Json}
    (hprintable : (screenOf msg).printable = true)
    (hentry : entry ∈ (σ.openScreens o).head?)
    (hcan : (screenOf msg).canScale entry.2 = true) :
    ∃ scale, calculateOptimalScale (screenOf msg) entry.2 = .ok scale ∧
      (entry.1, .setScale scale (screenOf msg).width (screenOf msg).height) ∈
        (σ.screenSending o msg).frames := by
  obtain ⟨scale, hscale⟩ := canScale_iff.mp hcan
  obtain ⟨rest, hrest⟩ := List.head?_eq_some_iff.mp hentry
  refine ⟨scale, hscale, ?_⟩
  rw [screenSending, if_pos hprintable, hrest]
  exact scaleUpdates_head hscale

/-! ## The messages of viewers -/

/-- What a viewer's message sends: its scale if it is a `client_info` message, or the input. -/
theorem mem_viewerSending_iff : (v, f) ∈ (σ.viewerSending ws o message).frames ↔
    (∃ msg agentScreen scale, message.json = some msg ∧ msg.announcesClient = true ∧
      Json.printableScreen (msg.member "screen") = true ∧
      (σ.sessionAt o).agentScreen = some agentScreen ∧
      calculateOptimalScale agentScreen (msg.member "screen") = .ok scale ∧
      v = ws ∧ f = .setScale scale agentScreen.width agentScreen.height) ∨
    ∃ msg, message.json = some msg ∧ msg ≠ .null ∧ msg.announcesClient = false ∧
      (σ.sessionAt o).agent = some v ∧ f = .input ws message := by
  rcases hjson : message.json with _ | msg
  · simp [viewerSending, hjson]
  by_cases hnull : msg = .null
  · subst hnull
    have hno : Json.null.announcesClient = false := rfl
    simp [viewerSending, hjson, hno]
  rw [viewerSending_of_ne_null hjson hnull]
  by_cases hclient : msg.announcesClient = true
  · -- a screen is answered with a scale if the agent of the session has sent its own
    rw [if_pos hclient, clientSending]
    by_cases hprintable : Json.printableScreen (msg.member "screen") = true
    · rw [if_pos hprintable]
      cases hstored : (σ.sessionAt o).agentScreen with
      | none => simp [hclient]
      | some agentScreen =>
          cases hscale : calculateOptimalScale agentScreen (msg.member "screen") with
          | error err => simp [scaleUpdates, hscale, hclient]
          | ok scale => simp [scaleUpdates, hscale, hclient, hprintable, Sending.andThen_of_ok]
    · simp [hprintable, hclient]
  · -- anything else goes on to the agent
    rw [if_neg hclient]
    cases hslot : (σ.sessionAt o).agent with
    | none => simp [hclient]
    | some agent =>
        constructor
        · intro hmem
          cases List.mem_singleton.mp hmem
          exact Or.inr ⟨msg, rfl, hnull, by simpa using hclient, rfl, rfl⟩
        · rintro (⟨_, _, _, heq, hannounced, -⟩ | ⟨_, -, -, -, heq, rfl⟩)
          · cases heq
            exact absurd hannounced hclient
          · cases heq
            exact List.mem_singleton.mpr rfl

end Server

end BrowCast
