import BrowCast.Server.Broadcast
import BrowCast.Server.SentFrames
import BrowCast.Server.Screens

/-! # Messages that fit

What the server does as long as its clients send nothing but objects, no `client_info`, and
`screen_info` only with a screen that can be reported: no client screen is ever stored, so no scale
is computed or sent, no handler ends in its `catch` block, and every agent's message is passed on to
every viewer. -/

namespace BrowCast

/-- A message that is read without an exception and announces no client. -/
structure Message.IsPlain (message : Message) (msg : Json) : Prop where
  json : message.json = some msg
  ne_null : msg ≠ .null
  noClient : msg.announcesClient = false
  printable : msg.announcesScreen = true → (screenOf msg).printable = true

namespace Server

open ScreenReport

variable {σ : Server} {ws c v : ConnId} {e : Event} {message : Message} {msg : Json} {now : ℕ}

/-- If the event brings a message, it is a plain one. -/
def BringsPlain (e : Event) : Prop :=
  ∀ ws message now, e = .message ws message now → ∃ msg, message.IsPlain msg

/-- There are no client screens, and no scale was ever sent. -/
structure Unscaled (σ : Server) : Prop where
  clientScreens : ∀ o v, (σ.sessionAt o).clientScreens.get? v = none
  sent : ∀ c scale originalWidth originalHeight,
    .setScale scale originalWidth originalHeight ∉ (σ.conn c).sent

/-- At first no viewer has reported a screen. -/
theorem unscaled_start : relay.start.Unscaled where
  clientScreens _ _ := rfl
  sent _ _ _ _ := List.not_mem_nil

/-! ## One message -/

/-- Without reports there are no screens to compute scales from. -/
theorem Unscaled.openScreens (h : σ.Unscaled) (o : SessionRef) : σ.openScreens o = [] := by
  refine List.filter_eq_nil_iff.mpr fun entry hentry => ?_
  have hget := ((σ.sessionAt o).clientScreens.mem_entries_iff entry.1 entry.2).mp hentry
  rw [h.clientScreens] at hget
  cases hget

/-- A plain `screen_info` message is accepted. -/
theorem Unscaled.screenAccepted (h : σ.Unscaled) (hplain : message.IsPlain msg)
    (hscreen : msg.announcesScreen = true) (o : SessionRef) : σ.ScreenAccepted o msg :=
  ⟨hplain.printable hscreen, fun entry hentry => by
    rw [h.openScreens] at hentry
    cases hentry⟩

/-- A plain message does not end in the `catch` block. -/
theorem Unscaled.not_caught (h : σ.Unscaled) (hplain : message.IsPlain msg) (a : Acceptance) :
    ¬ σ.Caught ws message now a := by
  intro hcaught
  cases a with
  | agent k o =>
      rcases agentSending_failure_ne_none_iff.mp (caught_agent_iff.mp hcaught) with
        hnone | hnull | ⟨msg', hjson, hscreen, hnot⟩
      · cases hplain.json.symm.trans hnone
      · exact hplain.ne_null (Option.some.inj (hplain.json.symm.trans hnull))
      · obtain rfl := Option.some.inj (hplain.json.symm.trans hjson)
        exact hnot (h.screenAccepted hplain hscreen o)
  | viewer k o i =>
      rcases viewerSending_failure_ne_none_iff.mp (caught_viewer_iff.mp hcaught) with
        hnone | hnull | ⟨msg', hjson, hclient, -⟩
      · cases hplain.json.symm.trans hnone
      · exact hplain.ne_null (Option.some.inj (hplain.json.symm.trans hnull))
      · obtain rfl := Option.some.inj (hplain.json.symm.trans hjson)
        cases hplain.noClient.symm.trans hclient

/-- And it does not stop any copies. -/
theorem Unscaled.scalesComputable (h : σ.Unscaled) (he : BringsPlain e) :
    σ.ScalesComputable e := by
  intro ws message now k o msg heq _ hjson hscreen _ _ _
  obtain ⟨msg', hplain⟩ := he ws message now heq
  obtain rfl := Option.some.inj (hjson.symm.trans hplain.json)
  exact h.screenAccepted hplain hscreen o

/-! ## One event -/

/-- A plain message reports no client screen. -/
theorem latest_ofViewer_plain (hplain : message.IsPlain msg) (v : ConnId) :
    latest (ofViewer v) (σ.reports (.message ws message now)) = none := by
  rcases hacc : (σ.conn ws).acceptance with _ | ⟨k, o⟩ | ⟨k, o, i⟩
  · rw [reports_of_none hacc]
    rfl
  · exact latest_ofViewer_agent hacc
  · rw [latest_reports_viewer hacc, hplain.json]
    simp only [hplain.noClient, Bool.false_eq_true, false_and, if_false]

/-- An event without a screen report stores no screen. -/
theorem Unscaled.clientScreens_step (h : σ.Unscaled) (hwf : σ.WellFormed) (hσ : σ.Owned)
    (he : σ.Enabled e) (hplain : BringsPlain e) (o : SessionRef) (v : ConnId) :
    ((σ.step e).sessionAt o).clientScreens.get? v = none := by
  by_cases hmessage : e.isMessage = true
  · obtain ⟨ws, message, now, rfl⟩ := Event.eq_message_of_isMessage hmessage
    obtain ⟨msg, hmsg⟩ := hplain ws message now rfl
    by_cases hviewer : ∃ k i, (σ.conn v).acceptance = some (.viewer k o i)
    · obtain ⟨k, i, hv⟩ := hviewer
      rcases clientScreens_step_of_viewer hwf hσ he hv with hstep | ⟨-, hstep⟩
      · rw [hstep, latest_ofViewer_plain hmsg, h.clientScreens]
        rfl
      · exact hstep
    · rcases clientScreens_step_of_not_viewer hwf hσ he
        fun k i hv => hviewer ⟨k, i, hv⟩ with hstep | hstep
      · exact hstep.trans (h.clientScreens o v)
      · exact hstep
  · rcases (still_step hwf hσ he hmessage).clientScreens o v with hstep | ⟨-, hstep⟩
    · exact hstep.trans (h.clientScreens o v)
    · exact hstep

/-- Without client screens, plain messages send no scale. -/
theorem Unscaled.setScale_notMem_newFrames (h : σ.Unscaled) (hwf : σ.WellFormed) (hσ : σ.Owned)
    (he : σ.Enabled e) (hplain : BringsPlain e) (c : ConnId) (scale : Number)
    (originalWidth originalHeight : Option Json) :
    .setScale scale originalWidth originalHeight ∉ σ.newFrames e c := by
  intro hnew
  by_cases hmessage : e.isMessage = true
  · obtain ⟨ws, message, now, rfl⟩ := Event.eq_message_of_isMessage hmessage
    obtain ⟨msg, hmsg⟩ := hplain ws message now rfl
    rcases hacc : (σ.conn ws).acceptance with _ | ⟨k, o⟩ | ⟨k, o, i⟩
    · have hsent : ((σ.step (.message ws message now)).conn c).sent = (σ.conn c).sent ++ [] := by
        rw [step_message_of_none hwf hacc, List.append_nil]
      rw [newFrames_of_sent hsent] at hnew
      cases hnew
    · obtain ⟨-, hframe⟩ := (mem_newFrames_agent hwf hacc).mp hnew
      rw [hmsg.json, mem_agentSending_iff hmsg.ne_null] at hframe
      rcases hframe with ⟨-, hscale⟩ | ⟨-, -, heq⟩
      · obtain ⟨-, -, screen, -, hget, -⟩ := mem_screenSending hscale
        rw [h.clientScreens] at hget
        cases hget
      · cases heq
    · obtain ⟨-, hframe⟩ := (mem_newFrames_viewer hwf hacc).mp hnew
      rcases mem_viewerSending_iff.mp hframe with
        ⟨msg', -, -, hjson, hclient, -⟩ | ⟨-, -, -, -, -, heq⟩
      · obtain rfl := Option.some.inj (hmsg.json.symm.trans hjson)
        cases hmsg.noClient.symm.trans hclient
      · cases heq
  · cases isNotice_of_mem_newFrames hwf hσ he hmessage hnew

/-- **One event that brings no other message keeps the server without scales.** -/
theorem Unscaled.step (h : σ.Unscaled) (hwf : σ.WellFormed) (hσ : σ.Owned) (he : σ.Enabled e)
    (hplain : BringsPlain e) : (σ.step e).Unscaled where
  clientScreens := h.clientScreens_step hwf hσ he hplain
  sent c scale originalWidth originalHeight hmem := by
    obtain ⟨frames, hsent, -⟩ := (hσ.frame he).sent c
    rw [hσ.sent_before he c] at hsent
    rw [hsent] at hmem
    rcases List.mem_append.mp hmem with hold | hnew
    · exact h.sent c scale originalWidth originalHeight hold
    · rw [← newFrames_of_sent hsent] at hnew
      exact h.setScale_notMem_newFrames hwf hσ he hplain c scale originalWidth originalHeight hnew

end Server

end BrowCast
