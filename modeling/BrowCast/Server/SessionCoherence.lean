import BrowCast.Server.AgentSlot
import BrowCast.Server.ViewerRegistry

/-! # One session object for each session id

The handlers of a live connection are meant to work on the session object its id is bound to. An id
is dropped when its object has no agent and no viewers, so this rests on the slot and the viewers
being right: it holds along every run in which viewer ids stay apart and no agent's close event
fires while another live agent of its session object is there. -/

namespace BrowCast

namespace Registry

variable {r : Registry} {a : Action} {o : SessionRef}

/-- A live agent of the session object. -/
def LiveAgent (r : Registry) (o : SessionRef) (c : ConnId) : Prop := r.Live c ∧ r.AgentOf o c

/-- The id of every live connection is bound to its session object. -/
def Coherent (r : Registry) : Prop :=
  ∀ c b, r.acceptance c = some b → r.Live c → r.sessions b.sessionId = some b.session

/-- No agent's close event fires while another agent of its session object is live. -/
def ClosesLast (r : Registry) (a : Action) : Prop :=
  ∀ c k o, a = .leaveAgent c k o → ∀ d, d ≠ c → ¬ r.LiveAgent o d

/-- Live connections are counted where the cleanup looks for them, and are where their ids say. -/
structure Kept (r : Registry) : Prop where
  sound : r.Sound
  /-- The slot of a session object with a live agent is not empty. -/
  slot : ∀ o c, r.LiveAgent o c → r.agent o ≠ none
  viewers : r.ViewersStored
  coherent : r.Coherent

/-- At first there is no session to keep. -/
theorem kept_initial : initial.Kept where
  sound := sound_initial
  slot := fun o c h => by simp [LiveAgent, Live, Pending, initial] at h
  viewers := viewersStored_initial
  coherent := fun c b h => by simp [initial] at h

section Step

variable (h : r.Sound) (ha : r.Enabled a)

include h ha

/-- A slot with a live agent is only written to hold another agent. -/
theorem slot_step (hslot : ∀ o c, r.LiveAgent o c → r.agent o ≠ none) (hlast : r.ClosesLast a)
    (c : ConnId) (hc : (r.step a).LiveAgent o c) : (r.step a).agent o ≠ none := by
  rcases (pendingAgent_step h ha o c).mp ⟨hc.1.1, hc.2⟩ with ⟨k, rfl, hfor⟩ | ⟨hold, hstays⟩
  · rw [(agent_step _ o c).mpr (Or.inl ⟨k, rfl, hfor⟩)]
    simp
  · have hlive : r.LiveAgent o c :=
      ⟨live_step ha (h.arrived_of_agentOf hold.2).1 hc.1, hold.2⟩
    obtain ⟨d, hd⟩ := Option.ne_none_iff_exists'.mp (hslot o c hlive)
    -- whoever is in the slot stays there, unless another agent takes it over
    by_cases hjoin : ∃ b k, a = .admitAgent b k ∧ r.sessionFor k b = o
    · obtain ⟨b, k, hb, hfor⟩ := hjoin
      rw [(agent_step a o b).mpr (Or.inl ⟨k, hb, hfor⟩)]
      simp
    · have hkept : (r.step a).agent o = some d := by
        refine (agent_step a o d).mpr (Or.inr ⟨hd, fun b k hb hfor => hjoin ⟨b, k, hb, hfor⟩, ?_⟩)
        intro b k hb
        by_cases hcb : c = b
        · exact hstays k o (hcb ▸ hb)
        · exact hlast b k o hb c hcb hlive
      rw [hkept]
      simp

/-- The cleanup drops no id of a live connection, since it is counted in the slot or the viewers. -/
theorem coherent_step (hcoherent : r.Coherent)
    (hslot : ∀ o c, (r.step a).LiveAgent o c → (r.step a).agent o ≠ none)
    (hviewers : (r.step a).ViewersStored) : (r.step a).Coherent := by
  intro c b hc hlive
  rcases (acceptance_step h ha c b).mp hc with ⟨k, rfl, rfl⟩ | ⟨k, i, rfl, rfl⟩ | hold
  · exact sessions_admitAgent c k
  · exact sessions_admitViewer c k i
  · have hbefore := hcoherent c b hold (live_step ha (h.accepted c b hold).1 hlive)
    rcases sessions_step a hbefore with hsame | ⟨-, hempty, hnone⟩
    · exact hsame
    · -- the id was dropped, so neither the slot nor a viewer id holds anybody
      cases b with
      | agent k o =>
          exact absurd hempty
            (hslot o c ⟨hlive, Acceptance.agentSession_eq_some.mpr ⟨k, hc⟩⟩)
      | viewer k o i =>
          have hstored := hviewers o i c ⟨hlive, Acceptance.viewerPlace_eq_some.mpr ⟨k, hc⟩⟩
          rw [show (r.step a).viewers o i = none from hnone i] at hstored
          cases hstored

omit h in
/-- Sessions stay kept while ids are apart and close events come last. -/
theorem Kept.step (hkept : r.Kept) (hapart : r.IdsApart a) (hlast : r.ClosesLast a) :
    (r.step a).Kept := by
  have hslot := fun o c => slot_step (o := o) hkept.sound ha hkept.slot hlast c
  have hviewers := hkept.viewers.step hkept.sound ha hapart
  exact ⟨hkept.sound.step ha, hslot, hviewers,
    coherent_step hkept.sound ha hkept.coherent hslot hviewers⟩

end Step

/-- Over a run that meets both conditions at every action, sessions are kept in every state. -/
theorem kept_of_steps {as : List Action} (hrun : registryMachine.IsRun as)
    (hsteps : registryMachine.Steps (fun r a => r.IdsApart a ∧ r.ClosesLast a) initial as) :
    registryMachine.States Kept initial as :=
  registryMachine.states_of_steps (fun _ _ hr ha hstep => hr.step ha hstep.1 hstep.2) kept_initial
    hrun hsteps

end Registry

/-! ## Runs of the server -/

namespace Server

variable (σ : Server)

/-- Neither the error nor the close event of the connection has fired. -/
def isLive (c : ConnId) : Bool := (σ.conn c).isPending && !(σ.conn c).errored

/-- For every live accepted connection, `sessions` has its id, and the object it holds is the one
the connection's handlers captured. -/
def SessionCoherent : Prop :=
  ∀ c a, (σ.conn c).acceptance = some a → σ.isLive c = true →
    σ.sessions.get? a.sessionId = some a.session

/-- Live connections with one session id share one session object. -/
def SharesSessions : Prop :=
  ∀ c d a b, (σ.conn c).acceptance = some a → σ.isLive c = true →
    (σ.conn d).acceptance = some b → σ.isLive d = true →
    a.sessionId = b.sessionId → a.session = b.session

/-- A session is only removed when no accepted connection of it is live. -/
def RemovesDeadSessions (e : Event) : Prop :=
  ∀ sessionId, σ.sessions.has sessionId = true → (σ.step e).sessions.has sessionId = false →
    ∀ c a, ((σ.step e).conn c).acceptance = some a → a.sessionId = sessionId →
      (σ.step e).isLive c = false

/-- When an agent's close event fires, no other agent of its session object is live. -/
def ClosesLast (e : Event) : Prop :=
  ∀ c session, e = .close c → Acceptance.agentSession (σ.conn c).acceptance = some session →
    ∀ d, d ≠ c → ¬ (σ.isPendingAgent session d = true ∧ σ.isLive d = true)

variable {σ : Server}

/-- The live connections of the server are those of its registry. -/
theorem isLive_iff {c : ConnId} : σ.isLive c = true ↔ σ.registry.Live c := by
  rw [isLive, Bool.and_eq_true, Conn.isPending_iff, Bool.not_eq_true']
  rfl

/-- The server is coherent when its registry is. -/
theorem sessionCoherent_iff : σ.SessionCoherent ↔ σ.registry.Coherent := by
  simp only [SessionCoherent, isLive_iff]
  rfl

/-- In a coherent state, connections with the same id share the session object. -/
theorem SessionCoherent.sharesSessions (h : σ.SessionCoherent) : σ.SharesSessions := by
  intro c d a b hc hclive hd hdlive hid
  have hca := h c a hc hclive
  have hdb := h d b hd hdlive
  rw [hid] at hca
  exact Option.some.inj (hca.symm.trans hdb)

/-- A step into a coherent state leaves no session without connections. -/
theorem SessionCoherent.removesDeadSessions {e : Event} (h : (σ.step e).SessionCoherent) :
    σ.RemovesDeadSessions e := by
  intro k _ hgone c a hc hid
  by_contra hlive
  have hbound := h c a hc (by simpa using hlive)
  rw [hid] at hbound
  simp [InsertionMap.has, hbound] at hgone

/-- A close event comes last when the action it is does. -/
theorem closesLast_iff {e : Event} : σ.ClosesLast e ↔ σ.registry.ClosesLast (σ.action e) := by
  constructor
  · intro h c k o hact d hdc hd
    obtain ⟨rfl, hacc⟩ := action_eq_leaveAgent_iff.mp hact
    exact h c o rfl (by rw [hacc]; rfl) d hdc
      ⟨isPendingAgent_iff.mpr ⟨hd.1.1, hd.2⟩, isLive_iff.mpr hd.1⟩
  · rintro h c o rfl hagent d hdc ⟨hpending, hlive⟩
    obtain ⟨k, hk⟩ := Acceptance.agentSession_eq_some.mp hagent
    have hact : σ.action (.close c) = .leaveAgent c k o := action_eq_leaveAgent_iff.mpr ⟨rfl, hk⟩
    exact h c k o hact d hdc ⟨isLive_iff.mp hlive, (isPendingAgent_iff.mp hpending).2⟩

end Server

open Server

/-- **When sessions are coherent.** Along every run of the server in which viewer ids stay apart and
no agent's close event fires while another agent of its session object is live, the id of every live
connection is bound to the session object of its handlers, live connections with one id share one
object, and only sessions without live connections are removed. -/
theorem sessionCoherent_of_idsApart_of_closesLast {es : List Event} (hrun : relay.IsRun es)
    (hids : relay.Steps IdsApart relay.start es) (hlast : relay.Steps ClosesLast relay.start es) :
    relay.States SessionCoherent relay.start es ∧ relay.States SharesSessions relay.start es ∧
      relay.Steps RemovesDeadSessions relay.start es := by
  rw [registry_steps_iff hrun fun _ _ => idsApart_iff] at hids
  rw [registry_steps_iff hrun fun _ _ => closesLast_iff] at hlast
  have hkept : relay.States (fun σ => σ.registry.Kept) relay.start es :=
    (registry_states_iff hrun fun _ => Iff.rfl).mpr (Registry.kept_of_steps
      (registryRun_isRun hrun) (GuardedMachine.Steps.imp _ (fun _ _ hi hl => ⟨hi, hl⟩) hids hlast))
  have hcoherent : relay.States SessionCoherent relay.start es :=
    GuardedMachine.States.mono relay (fun σ h => sessionCoherent_iff.mpr h.coherent) hkept
  refine ⟨hcoherent, GuardedMachine.States.mono relay (fun σ h => h.sharesSessions) hcoherent, ?_⟩
  exact relay.steps_of_states (fun σ e _ _ h => h.removesDeadSessions) hrun hcoherent

/-- An agent and a viewer meet in one session, and the agent starts to close. -/
theorem sessionCoherent_meeting :
    let meeting : List Event := [.connect 0 ⟨some "/agent", .one "s"⟩ 1,
      .connect 1 ⟨some "/viewer", .one "s"⟩ 2, .closing 0]
    relay.States SessionCoherent relay.start meeting ∧
      relay.States SharesSessions relay.start meeting ∧
        relay.Steps RemovesDeadSessions relay.start meeting := by
  intro meeting
  refine sessionCoherent_of_idsApart_of_closesLast (by decide) ⟨?_, ?_, trivial, trivial⟩ ?_
  · intro k hpath
    exact absurd hpath (by decide)
  · intro k _ hkey d
    cases hkey
    cases d with
    | zero => rfl
    | succ d => rfl
  · exact ⟨fun c o he => (by cases he), fun c o he => (by cases he), fun c o he => (by cases he),
      trivial⟩

/-- The late close event of a replaced agent drops the session of its successor, and a viewer that
joins after that is given a second session object under the same id. -/
theorem sessionCoherent_splitBrain :
    let splitBrain : List Event :=
      replacement ++ [.close 0, .connect 2 ⟨some "/viewer", .one "s"⟩ 2]
    let σ := relay.after relay.start splitBrain
    relay.IsRun splitBrain ∧
      ((σ.conn 1).acceptance = some (.agent (.text "s") 0) ∧ σ.isLive 1 = true) ∧
      ((σ.conn 2).acceptance = some (.viewer (.text "s") 2 "2") ∧ σ.isLive 2 = true) ∧
      ¬ relay.States SessionCoherent relay.start splitBrain ∧
      ¬ relay.States SharesSessions relay.start splitBrain := by
  intro splitBrain σ
  have hagent : (σ.conn 1).acceptance = some (.agent (.text "s") 0) ∧ σ.isLive 1 = true := by decide
  have hviewer : (σ.conn 2).acceptance = some (.viewer (.text "s") 2 "2") ∧ σ.isLive 2 = true := by
    decide
  have hdiffer : ¬ σ.SharesSessions := fun h => by
    have hsame := h 1 2 _ _ hagent.1 hagent.2 hviewer.1 hviewer.2 rfl
    exact absurd hsame (by decide)
  refine ⟨by decide, hagent, hviewer, fun h => ?_, fun h => ?_⟩
  · exact hdiffer (GuardedMachine.States.last relay h).sharesSessions
  · exact hdiffer (GuardedMachine.States.last relay h)

end BrowCast
