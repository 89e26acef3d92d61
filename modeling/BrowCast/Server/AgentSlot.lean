import BrowCast.Server.RegistryRefinement

/-! # The agent slot of a session

What `session.agent` is meant to be: the most recently accepted agent of the session object whose
close event has not fired. The close handler clears the slot whoever is in it, so this holds along a
run exactly when no agent's close event fires while another accepted agent of the same session
object is still waiting for its own. -/

namespace BrowCast

namespace Registry

variable {r : Registry} {a : Action} {o : SessionRef}

instance (r : Registry) (o : SessionRef) (c : ConnId) : Decidable (r.PendingAgent o c) := by
  unfold PendingAgent Pending AgentOf
  infer_instance

/-- The most recently accepted agent of the session object whose close event has not fired. -/
def newestAgent (r : Registry) (o : SessionRef) : Option ConnId :=
  r.arrivals.find? fun c => decide (r.PendingAgent o c)

/-- The slot of every session object is what it is meant to be. -/
def SlotExact (r : Registry) : Prop := ∀ o, r.agent o = r.newestAgent o

/-- No agent's close event fires while another agent of its session object is pending. -/
def ClosesAlone (r : Registry) (a : Action) : Prop :=
  ∀ c k o, a = .leaveAgent c k o → ∀ d, d ≠ c → ¬ r.PendingAgent o d

/-- There is no newest agent exactly when none is pending. -/
theorem Sound.newestAgent_eq_none_iff (h : r.Sound) (o : SessionRef) :
    r.newestAgent o = none ↔ ∀ c, ¬ r.PendingAgent o c := by
  rw [newestAgent, List.find?_eq_none]
  simp only [decide_eq_true_eq]
  exact ⟨fun hno c hc => hno c (h.arrived_of_agentOf hc.2).1 hc, fun hno c _ => hno c⟩

section Step

variable (h : r.Sound) (ha : r.Enabled a)

include h ha

/-- Only admissions to a session object and departures of its agents matter to its pending
agents. -/
theorem pendingAgent_step_of_untouched
    (hjoin : ∀ d k, a = .admitAgent d k → r.sessionFor k d ≠ o)
    (hleave : ∀ d k, a ≠ .leaveAgent d k o) (c : ConnId) :
    (r.step a).PendingAgent o c ↔ r.PendingAgent o c := by
  rw [pendingAgent_step h ha]
  constructor
  · rintro (⟨k, rfl, hfor⟩ | ⟨hc, -⟩)
    · exact absurd hfor (hjoin c k rfl)
    · exact hc
  · intro hc
    refine Or.inr ⟨hc, ?_⟩
    rintro k p rfl
    -- `c` is an agent of `o`, so the departure would be one of an agent of `o`
    obtain rfl := hc.2.session_eq ha
    exact hleave c k rfl

/-- Other actions leave the newest agent of a session object. -/
theorem newestAgent_step_of_untouched
    (hjoin : ∀ d k, a = .admitAgent d k → r.sessionFor k d ≠ o)
    (hleave : ∀ d k, a ≠ .leaveAgent d k o) : (r.step a).newestAgent o = r.newestAgent o := by
  have hsame := pendingAgent_step_of_untouched h ha hjoin hleave
  have hpred : (fun c => decide ((r.step a).PendingAgent o c)) =
      fun c => decide (r.PendingAgent o c) := by
    funext c
    simp only [hsame c]
  unfold newestAgent
  rw [hpred]
  rcases arrivals_step ha with hold | ⟨c, hnew, hcons⟩
  · rw [hold]
  · -- the newcomer is no agent of `o`
    have hc : ¬ r.PendingAgent o c := fun hc => hnew (h.arrived_of_agentOf hc.2).1
    rw [hcons, List.find?_cons_of_neg (by simpa using hc)]

/-- Admitting an agent makes it the newest one of its session object. -/
theorem newestAgent_admitAgent {c : ConnId} {k : SessionId} (hjoin : a = .admitAgent c k) :
    (r.step a).newestAgent (r.sessionFor k c) = some c := by
  have hc : (r.step a).PendingAgent (r.sessionFor k c) c :=
    (pendingAgent_step h ha _ c).mpr (Or.inl ⟨k, hjoin, rfl⟩)
  subst hjoin
  unfold newestAgent
  rw [show (r.step (.admitAgent c k)).arrivals = c :: r.arrivals from rfl]
  exact List.find?_cons_of_pos (by simpa using hc)

/-- Slots stay exact across a step unless an agent leaves while another one is pending. -/
theorem SlotExact.step (hexact : r.SlotExact) (halone : r.ClosesAlone a) :
    (r.step a).SlotExact := by
  intro o
  -- an agent comes to `o`, an agent of `o` leaves, or neither
  by_cases hjoin : ∃ c k, a = .admitAgent c k ∧ r.sessionFor k c = o
  · obtain ⟨c, k, hak, rfl⟩ := hjoin
    rw [newestAgent_admitAgent h ha hak]
    exact (agent_step a _ c).mpr (Or.inl ⟨k, hak, rfl⟩)
  · by_cases hleave : ∃ c k, a = .leaveAgent c k o
    · obtain ⟨c, k, rfl⟩ := hleave
      have hempty : (r.step (.leaveAgent c k o)).agent o = none := by simp [Registry.step]
      rw [hempty]
      -- the slot is cleared, so no agent of `o` may be pending afterwards
      refine (((h.step ha).newestAgent_eq_none_iff o).mpr fun d hd => ?_).symm
      rcases (pendingAgent_step h ha o d).mp hd with ⟨l, hl, -⟩ | ⟨hpending, hstays⟩
      · cases hl
      · exact halone c k o rfl d (fun hdc => hstays k o (hdc ▸ rfl)) hpending
    · have hjoin' : ∀ d k, a = .admitAgent d k → r.sessionFor k d ≠ o :=
        fun d k hd hfor => hjoin ⟨d, k, hd, hfor⟩
      have hleave' : ∀ d k, a ≠ .leaveAgent d k o := fun d k hd => hleave ⟨d, k, hd⟩
      rw [newestAgent_step_of_untouched h ha hjoin' hleave', ← hexact o]
      refine Option.ext fun c => ?_
      rw [agent_step]
      constructor
      · rintro (⟨k, hk, hfor⟩ | hc)
        · exact absurd hfor (hjoin' c k hk)
        · exact hc.1
      · intro hc
        exact Or.inr ⟨hc, hjoin', hleave'⟩

/-- Conversely, slots that are exact before and after a step show that the step was harmless. -/
theorem SlotExact.closesAlone (hexact : (r.step a).SlotExact) : r.ClosesAlone a := by
  rintro c k o rfl d hdc hd
  have hempty : (r.step (.leaveAgent c k o)).agent o = none := by simp [Registry.step]
  have hnone := (hexact o).symm.trans hempty
  -- an agent that was pending beside `c` would still be, with the slot empty
  refine ((h.step ha).newestAgent_eq_none_iff o).mp hnone d ?_
  refine (pendingAgent_step h ha o d).mpr (Or.inr ⟨hd, fun l p hl => ?_⟩)
  cases hl
  exact hdc rfl

end Step

/-! ## One OPEN agent for each session id -/

/-- Agents are where their slots and their ids say. -/
structure AgentsHome (r : Registry) : Prop where
  /-- An OPEN agent is in the slot of its session object. -/
  current : ∀ o c, r.AgentOf o c → r.readyState c = .OPEN → r.agent o = some c
  /-- The id of a pending agent is bound to its session object. -/
  home : ∀ c k o, r.acceptance c = some (.agent k o) → r.Pending c → r.sessions k = some o

section Step

variable (h : r.Sound) (ha : r.Enabled a)

include h ha

/-- An agent that is OPEN keeps its slot: it is not replaced, and by assumption no other agent of
the object leaves. -/
theorem AgentsHome.current_step (hhome : r.AgentsHome) (halone : r.ClosesAlone a) (c : ConnId)
    (hagent : (r.step a).AgentOf o c) (hopen : (r.step a).readyState c = .OPEN) :
    (r.step a).agent o = some c := by
  obtain ⟨k, hk⟩ := Acceptance.agentSession_eq_some.mp hagent
  rcases (acceptance_step h ha c _).mp hk with ⟨l, rfl, hl⟩ | ⟨l, i, -, hl⟩ | hold
  · cases hl
    exact (agent_step _ _ c).mpr (Or.inl ⟨k, rfl, rfl⟩)
  · cases hl
  · have hof : r.AgentOf o c := Acceptance.agentSession_eq_some.mpr ⟨k, hold⟩
    have hbefore : r.readyState c = .OPEN := open_step ha (h.accepted c _ hold).1 hopen
    have hslot : r.agent o = some c := hhome.current o c hof hbefore
    refine (agent_step a o c).mpr (Or.inr ⟨hslot, ?_, ?_⟩)
    · rintro d l rfl hfor
      rcases r.sessionFor_eq_or l d with hsome | ⟨-, hself⟩
      · -- the accept test saw the OPEN agent
        have hfree : r.agentOpen o = false := hfor ▸ ha.2 _ hsome
        simp [agentOpen, hslot, hbefore] at hfree
      · exact ha.1 (hself.symm.trans hfor ▸ (h.accepted c _ hold).2)
    · rintro d l rfl
      by_cases hdc : c = d
      · have hclosing : r.readyState d = .CLOSING := ha.1
        rw [← hdc, hbefore] at hclosing
        cases hclosing
      · -- an agent does not leave alone while another is pending
        exact halone d l o rfl c hdc ⟨Or.inl hbefore, hof⟩

/-- After an action that leaves the slots exact, the ids of pending agents are still bound to their
session objects. -/
theorem AgentsHome.home_step (hhome : r.AgentsHome) (hexact : (r.step a).SlotExact) (c : ConnId)
    (k : SessionId) (hc : (r.step a).acceptance c = some (.agent k o))
    (hpending : (r.step a).Pending c) : (r.step a).sessions k = some o := by
  rcases (acceptance_step h ha c _).mp hc with ⟨l, rfl, hl⟩ | ⟨l, i, -, hl⟩ | hold
  · cases hl
    exact sessions_admitAgent c k
  · cases hl
  · have hof : (r.step a).AgentOf o c := Acceptance.agentSession_eq_some.mpr ⟨k, hc⟩
    have hbefore : r.PendingAgent o c := by
      rcases (pendingAgent_step h ha o c).mp ⟨hpending, hof⟩ with ⟨l, rfl, -⟩ | hb
      · exact absurd (h.accepted c _ hold).1 ha.1
      · exact hb.1
    rcases sessions_step a (hhome.home c k o hold hbefore.1) with hsame | ⟨-, hempty, -⟩
    · exact hsame
    · -- the slot is not empty while an agent of the object is pending
      have hnone := (hexact o).symm.trans hempty
      exact absurd ⟨hpending, hof⟩ (((h.step ha).newestAgent_eq_none_iff o).mp hnone c)

/-- A close event that fires alone keeps the agents at home. -/
theorem AgentsHome.step (hhome : r.AgentsHome) (hexact : r.SlotExact) (halone : r.ClosesAlone a) :
    (r.step a).AgentsHome where
  current := fun _ => hhome.current_step h ha halone
  home := fun c k _ => hhome.home_step h ha (hexact.step h ha halone) c k

end Step

/-- Two OPEN agents accepted for one session id are one. -/
theorem AgentsHome.eq_of_open (hhome : r.AgentsHome) {c d : ConnId} {k : SessionId}
    {o p : SessionRef} (hc : r.acceptance c = some (.agent k o)) (hopen : r.readyState c = .OPEN)
    (hd : r.acceptance d = some (.agent k p)) (hopen' : r.readyState d = .OPEN) : c = d := by
  -- both ids lead to one object, whose slot holds one connection
  have hop : o = p := Option.some.inj
    ((hhome.home c k o hc (Or.inl hopen)).symm.trans (hhome.home d k p hd (Or.inl hopen')))
  subst hop
  have hslot := hhome.current o c (Acceptance.agentSession_eq_some.mpr ⟨k, hc⟩) hopen
  have hslot' := hhome.current o d (Acceptance.agentSession_eq_some.mpr ⟨k, hd⟩) hopen'
  exact Option.some.inj (hslot.symm.trans hslot')

/-! ## Runs of the registry -/

/-- Agents, their slots and their ids agree. -/
structure AgentsInOrder (r : Registry) : Prop where
  sound : r.Sound
  slots : r.SlotExact
  home : r.AgentsHome

/-- At first there are no agents. -/
theorem agentsInOrder_initial : initial.AgentsInOrder where
  sound := sound_initial
  slots := fun _ => rfl
  home := ⟨fun o c h => by simp [AgentOf, initial, Acceptance.agentSession] at h,
    fun c k o h => by simp [initial] at h⟩

/-- Where all close events fire alone, the agents are in order in every state. -/
theorem agentsInOrder_of_closesAlone {as : List Action} (hrun : registryMachine.IsRun as)
    (halone : registryMachine.Steps ClosesAlone initial as) :
    registryMachine.States AgentsInOrder initial as := by
  refine registryMachine.states_of_steps ?_ agentsInOrder_initial hrun halone
  intro r a hr ha halone
  exact ⟨hr.sound.step ha, hr.slots.step hr.sound ha halone,
    hr.home.step hr.sound ha hr.slots halone⟩

/-- Where the slots are exact in every state, all close events fire alone. -/
theorem closesAlone_of_slotExact {as : List Action} (hrun : registryMachine.IsRun as)
    (hexact : registryMachine.States SlotExact initial as) :
    registryMachine.Steps ClosesAlone initial as := by
  have hsound : registryMachine.States Sound initial as :=
    registryMachine.states_of_invariant sound_initial (fun _ _ h ha => h.step ha) hrun
  refine registryMachine.steps_of_states (A := fun r => r.Sound ∧ r.SlotExact) ?_ hrun
    (GuardedMachine.States.and _ hsound hexact)
  intro r a hr ha hr'
  exact hr'.2.closesAlone hr.1 ha

end Registry

/-! ## Runs of the server -/

namespace Server

variable (σ : Server)

/-- The connection is an accepted agent of the session object whose close event has not fired. -/
def isPendingAgent (session : SessionRef) (c : ConnId) : Bool :=
  (σ.conn c).isPending &&
    decide (Acceptance.agentSession (σ.conn c).acceptance = some session)

/-- The most recently accepted agent of the session object whose close event has not fired. -/
def newestAgent (session : SessionRef) : Option ConnId :=
  σ.arrivals.find? (σ.isPendingAgent session)

/-- `session.agent` of every session object is its newest agent. -/
def SlotExact : Prop := ∀ session, (σ.sessionAt session).agent = σ.newestAgent session

/-- No two accepted OPEN agents have one session id. -/
def OneOpenAgent : Prop :=
  ∀ c d sessionId session session',
    (σ.conn c).acceptance = some (.agent sessionId session) → (σ.conn c).readyState = .OPEN →
    (σ.conn d).acceptance = some (.agent sessionId session') → (σ.conn d).readyState = .OPEN → c = d

/-- The close event of an agent does not clear a slot that holds another one. -/
def KeepsOtherAgents (e : Event) : Prop :=
  ∀ c d session, e = .close c → (σ.sessionAt session).agent = some d → d ≠ c →
    ((σ.step e).sessionAt session).agent = some d

/-- When an agent's close event fires, no other accepted agent of its session object is waiting for
its own close event. -/
def ClosesAlone (e : Event) : Prop :=
  ∀ c session, e = .close c → Acceptance.agentSession (σ.conn c).acceptance = some session →
    ∀ d, d ≠ c → σ.isPendingAgent session d = false

variable {σ : Server}

/-- The pending agents of the server are those of its registry. -/
theorem isPendingAgent_iff {session : SessionRef} {c : ConnId} :
    σ.isPendingAgent session c = true ↔ σ.registry.PendingAgent session c := by
  rw [isPendingAgent, Bool.and_eq_true, Conn.isPending_iff, decide_eq_true_eq]
  rfl

/-- The newest agent of the server is that of its registry. -/
theorem newestAgent_eq (session : SessionRef) :
    σ.newestAgent session = σ.registry.newestAgent session := by
  have hpred : σ.isPendingAgent session = fun c => decide (σ.registry.PendingAgent session c) := by
    funext c
    exact (Bool.decide_congr isPendingAgent_iff).symm ▸ (Bool.decide_eq_true).symm
  rw [newestAgent, hpred]
  rfl

/-- The slots of the server are exact when those of its registry are. -/
theorem slotExact_iff : σ.SlotExact ↔ σ.registry.SlotExact :=
  forall_congr' fun session => by rw [newestAgent_eq]; rfl

/-- A close event fires alone when the action it is does. -/
theorem closesAlone_iff {e : Event} :
    σ.ClosesAlone e ↔ σ.registry.ClosesAlone (σ.action e) := by
  constructor
  · intro h c k o hact d hdc hd
    obtain ⟨rfl, hacc⟩ := action_eq_leaveAgent_iff.mp hact
    have hfalse := h c o rfl (by rw [hacc]; rfl) d hdc
    rw [isPendingAgent_iff.mpr hd] at hfalse
    cases hfalse
  · rintro h c o rfl hagent d hdc
    obtain ⟨k, hk⟩ := Acceptance.agentSession_eq_some.mp hagent
    by_contra hd
    have hact : σ.action (.close c) = .leaveAgent c k o := action_eq_leaveAgent_iff.mpr ⟨rfl, hk⟩
    exact h c k o hact d hdc (isPendingAgent_iff.mp (by simpa using hd))

/-- Where the slots are exact, a close event that fires alone finds its own agent in the slot, or
none. -/
theorem ClosesAlone.keepsOtherAgents (hwf : σ.WellFormed) {e : Event} (he : σ.Enabled e)
    (halone : σ.ClosesAlone e) : σ.KeepsOtherAgents e := by
  rintro c d o rfl hslot hdc
  have hreg := registry_step hwf he
  have hkept : (σ.registry.step (σ.action (.close c))).agent o = some d := by
    refine (Registry.agent_step _ o d).mpr (Or.inr ⟨hslot, ?_, ?_⟩)
    · intro b k hact
      simp [action_eq_admitAgent_iff] at hact
    · intro b k hact
      obtain ⟨hb, hacc⟩ := action_eq_leaveAgent_iff.mp hact
      cases hb
      -- the agent in the slot is pending, so the close event of `c` did not fire alone
      have hfalse := halone c o rfl (by rw [hacc]; rfl) d hdc
      obtain ⟨hof, hpending⟩ := hwf.sound.slot o d hslot
      rw [isPendingAgent_iff.mpr ⟨hpending, hof⟩] at hfalse
      cases hfalse
  rw [← hreg] at hkept
  exact hkept

end Server

open Server

/-- **When the agent slot is right.** Along a run of the server the slot of every session object
holds its newest pending agent, no agent's close event clears a slot that holds another agent, and
no two OPEN agents have one session id, exactly when every agent's close event fires while no other
agent of its session object is pending. -/
theorem agentSlot_iff_closesAlone {es : List Event} (hrun : relay.IsRun es) :
    (relay.States SlotExact relay.start es ∧ relay.Steps KeepsOtherAgents relay.start es ∧
      relay.States OneOpenAgent relay.start es) ↔ relay.Steps ClosesAlone relay.start es := by
  have hwf := relay_wellFormed hrun
  have hslots := registry_states_iff hrun fun _ => slotExact_iff
  have hcloses := registry_steps_iff hrun fun _ _ => closesAlone_iff
  constructor
  · rintro ⟨hexact, -, -⟩
    rw [hslots] at hexact
    exact hcloses.mpr (Registry.closesAlone_of_slotExact (registryRun_isRun hrun) hexact)
  · intro halone
    have hkeeps : relay.Steps KeepsOtherAgents relay.start es :=
      GuardedMachine.Steps.mono relay (fun σ e hσ he h => h.keepsOtherAgents hσ he) hwf hrun halone
    have horder : relay.States (fun σ => σ.registry.AgentsInOrder) relay.start es :=
      (registry_states_iff hrun fun _ => Iff.rfl).mpr
        (Registry.agentsInOrder_of_closesAlone (registryRun_isRun hrun) (hcloses.mp halone))
    refine ⟨?_, hkeeps, ?_⟩
    · exact GuardedMachine.States.mono relay (fun σ h => slotExact_iff.mpr h.slots) horder
    · refine GuardedMachine.States.mono relay (fun σ h => ?_) horder
      intro c d k o p hc hopen hd hopen'
      exact h.home.eq_of_open hc hopen hd hopen'

/-- An agent is replaced while it is closing, and its own close event has not fired yet. -/
def replacement : List Event :=
  [.connect 0 ⟨some "/agent", .one "s"⟩ 0, .closing 0, .connect 1 ⟨some "/agent", .one "s"⟩ 1]

/-- With the replaced agent's close event still to come, the slot holds its successor. -/
theorem agentSlot_replacement :
    relay.States SlotExact relay.start replacement ∧
      relay.Steps KeepsOtherAgents relay.start replacement ∧
        relay.States OneOpenAgent relay.start replacement := by
  refine (agentSlot_iff_closesAlone (by decide)).mpr ⟨?_, ?_, ?_, trivial⟩ <;>
    exact fun c o he => by cases he

/-- Then the close event of the replaced agent clears the slot of its successor, which stays
OPEN. -/
theorem agentSlot_lateClose :
    relay.IsRun (replacement ++ [.close 0]) ∧
      ((relay.after relay.start (replacement ++ [.close 0])).sessionAt 0).agent = none ∧
      (relay.after relay.start (replacement ++ [.close 0])).newestAgent 0 = some 1 ∧
      ¬ relay.States SlotExact relay.start (replacement ++ [.close 0]) := by
  refine ⟨by decide, by decide, by decide, fun h => ?_⟩
  have hexact := GuardedMachine.States.last relay h 0
  revert hexact
  decide

end BrowCast
