import BrowCast.Server.SessionCoherence

/-! # What viewers are told about the agent

Once no connection of a session is closing, every live OPEN viewer of it is meant to have last been
told whether the session has an OPEN agent. The status is pushed when an agent is accepted, when one
leaves, and when a viewer joins; the three agree along every run in which viewer ids stay apart and
agents' close events fire alone. -/

namespace BrowCast

namespace Registry

variable {r : Registry} {a : Action} {o : SessionRef}

/-- Every live OPEN viewer was told about the agent, and what it was told last still stands: after
"connected" the slot is not empty, after "disconnected" no OPEN agent is in it. -/
def Informed (r : Registry) : Prop :=
  ∀ o i v, r.LiveViewer o i v → r.readyState v = .OPEN →
    ∃ connected, r.told v = some connected ∧
      (connected = true → r.agent o ≠ none) ∧ (connected = false → r.agentOpen o = false)

/-- At first there is nobody to be told. -/
theorem informed_initial : initial.Informed := by
  intro o i v hv
  simp [LiveViewer, Live, Pending, initial] at hv

/-- An agent is open when the slot holds one whose socket is OPEN. -/
theorem agentOpen_eq_true_iff : r.agentOpen o = true ↔
    ∃ c, r.agent o = some c ∧ r.readyState c = .OPEN := by
  unfold agentOpen
  cases r.agent o <;> simp

section Step

variable (h : r.Sound) (ha : r.Enabled a)

include h ha

/-- A slot that held no OPEN agent gets one by an admission only. -/
theorem agentOpen_step (hno : r.agentOpen o = false)
    (hjoin : ∀ c k, a = .admitAgent c k → r.sessionFor k c ≠ o) :
    (r.step a).agentOpen o = false := by
  rw [← Bool.not_eq_true, agentOpen_eq_true_iff]
  rintro ⟨c, hc, hopen⟩
  rcases (agent_step a o c).mp hc with ⟨k, hk, hfor⟩ | ⟨hslot, -⟩
  · exact hjoin c k hk hfor
  · have hbefore := open_step ha (h.arrived_of_agentOf (h.slot o c hslot).1).1 hopen
    rw [agentOpen_eq_true_iff.mpr ⟨c, hslot, hbefore⟩] at hno
    cases hno

variable {i : String} {v : ConnId}

omit ha in
/-- A stored viewer of `o` hears what is told to the viewers of `o` only. -/
theorem not_hears_of_viewerOf {p : SessionRef} (hv : r.ViewerOf o i v) (hne : p ≠ o) :
    ¬ r.Hears p v := by
  rintro ⟨-, j, hj⟩
  have hplace : some (p, j) = some (o, i) := (h.stored p j v hj).1.symm.trans hv
  exact hne (Prod.mk.inj (Option.some.inj hplace)).1

omit h ha in
/-- The viewers that hear the admission of an agent, which arrives meanwhile. -/
theorem told_admitAgent {c : ConnId} {k : SessionId} (hvc : v ≠ c) :
    (r.step (.admitAgent c k)).told v =
      if r.Hears (r.sessionFor k c) v then some true else r.told v := by
  have hhears : (((r.enter c .OPEN).join (some k) c).setAgent (r.sessionFor k c) (some c)).Hears
      (r.sessionFor k c) v ↔ r.Hears (r.sessionFor k c) v := by
    simp [Hears, hvc]
  simp only [Registry.step, accept_told, tell_told, hhears]
  rfl

omit h ha in
/-- The viewers that hear the departure of an agent. -/
theorem told_leaveAgent {c : ConnId} {k : SessionId} {p : SessionRef} (hvc : v ≠ c) :
    (r.step (.leaveAgent c k p)).told v = if r.Hears p v then some false else r.told v := by
  have hhears : ((r.setState c .CLOSED).setAgent p none).Hears p v ↔ r.Hears p v := by
    simp [Hears, hvc]
  simp only [Registry.step, dropIfVacant_told, tell_told, hhears]
  rfl

/-- What a viewer of `o` was told last only changes when an agent of `o` comes or goes. -/
theorem told_step_of_untouched (hv : r.ViewerOf o i v)
    (hjoin : ∀ c k, a = .admitAgent c k → r.sessionFor k c ≠ o)
    (hleave : ∀ c k, a ≠ .leaveAgent c k o) : (r.step a).told v = r.told v := by
  have harrived : v ∈ r.arrivals := (h.arrived_of_viewerOf hv).1
  cases a with
  | admitAgent c k =>
      have hvc : v ≠ c := fun hvc => ha.1 (hvc ▸ harrived)
      rw [told_admitAgent hvc, if_neg (not_hears_of_viewerOf h hv (hjoin c k rfl))]
  | leaveAgent c k p =>
      have hvc : v ≠ c := by
        rintro rfl
        rw [ViewerOf, ha.2] at hv
        cases hv
      have hne : p ≠ o := fun hpo => hleave c k (hpo ▸ rfl)
      rw [told_leaveAgent hvc, if_neg (not_hears_of_viewerOf h hv hne)]
  | admitViewer c k j =>
      have hvc : v ≠ c := fun hvc => ha (hvc ▸ harrived)
      simp [Registry.step, hvc]
  | _ => simp [Registry.step]

/-- Every action keeps the viewers informed, as long as they are stored. -/
theorem Informed.step (hinformed : r.Informed) (hstored : r.ViewersStored) :
    (r.step a).Informed := by
  intro o i v hv hopen
  rcases (liveViewer_step h ha o i v).mp hv with ⟨k, rfl, rfl⟩ | ⟨hold, -⟩
  · -- a viewer that joins is told whether the slot holds an OPEN agent
    refine ⟨(r.enter v .OPEN).agentOpen (r.sessionFor k v), by simp [Registry.step], ?_, fun h => h⟩
    intro htrue
    obtain ⟨c, hc, -⟩ := agentOpen_eq_true_iff.mp htrue
    have hslot : (r.step (.admitViewer v k i)).agent (r.sessionFor k v) = some c := hc
    rw [hslot]
    simp
  · have harrived : v ∈ r.arrivals := (h.arrived_of_viewerOf hold.2).1
    have hbefore : r.readyState v = .OPEN := open_step ha harrived hopen
    have hhears : r.Hears o v := ⟨hbefore, i, hstored o i v hold⟩
    by_cases hjoin : ∃ c k, a = .admitAgent c k ∧ r.sessionFor k c = o
    · -- an agent comes: the OPEN stored viewers are told so
      obtain ⟨c, k, rfl, rfl⟩ := hjoin
      have hvc : v ≠ c := fun hvc => ha.1 (hvc ▸ harrived)
      refine ⟨true, ?_, fun _ => ?_, fun hno => (by cases hno)⟩
      · rw [told_admitAgent hvc, if_pos hhears]
      · rw [(agent_step _ _ c).mpr (Or.inl ⟨k, rfl, rfl⟩)]
        simp
    · by_cases hleave : ∃ c k, a = .leaveAgent c k o
      · -- an agent leaves: they are told that, and the slot is empty
        obtain ⟨c, k, rfl⟩ := hleave
        have hvc : v ≠ c := by
          rintro rfl
          have hclosing : r.readyState v = .CLOSING := ha.1
          rw [hbefore] at hclosing
          cases hclosing
        refine ⟨false, ?_, fun hno => (by cases hno), fun _ => ?_⟩
        · rw [told_leaveAgent hvc, if_pos hhears]
        · simp [agentOpen, Registry.step]
      · -- nobody comes to or goes from the slot of `o`
        have hjoin' : ∀ c k, a = .admitAgent c k → r.sessionFor k c ≠ o :=
          fun c k hc hfor => hjoin ⟨c, k, hc, hfor⟩
        have hleave' : ∀ c k, a ≠ .leaveAgent c k o := fun c k hc => hleave ⟨c, k, hc⟩
        obtain ⟨connected, htold, htrue, hfalse⟩ := hinformed o i v hold hbefore
        refine ⟨connected, ?_, fun hc => ?_, fun hc => ?_⟩
        · rw [told_step_of_untouched h ha hold.2 hjoin' hleave', htold]
        · obtain ⟨d, hd⟩ := Option.ne_none_iff_exists'.mp (htrue hc)
          rw [(agent_step a o d).mpr (Or.inr ⟨hd, hjoin', hleave'⟩)]
          simp
        · exact agentOpen_step h ha (hfalse hc) hjoin'

end Step

/-- Agents, viewers and ids are in order, and viewers are told so. -/
structure InStep (r : Registry) : Prop where
  agents : r.AgentsInOrder
  kept : r.Kept
  informed : r.Informed

/-- An agent that closes alone is the last one. -/
theorem ClosesAlone.closesLast (h : r.ClosesAlone a) : r.ClosesLast a :=
  fun c k o hact d hdc hd => h c k o hact d hdc ⟨hd.1.1, hd.2⟩

/-- Where ids are apart and close events fire alone, viewers and slots are in step in every state.
-/
theorem inStep_of_steps {as : List Action} (hrun : registryMachine.IsRun as)
    (hsteps : registryMachine.Steps (fun r a => r.IdsApart a ∧ r.ClosesAlone a) initial as) :
    registryMachine.States InStep initial as := by
  refine registryMachine.states_of_steps ?_ ⟨agentsInOrder_initial, kept_initial, informed_initial⟩
    hrun hsteps
  rintro r a ⟨hagents, hkept, hinformed⟩ ha ⟨hapart, halone⟩
  have hsound := hkept.sound
  exact ⟨⟨hsound.step ha, hagents.slots.step hsound ha halone,
      hagents.home.step hsound ha hagents.slots halone⟩,
    hkept.step ha hapart halone.closesLast, hinformed.step hsound ha hkept.viewers⟩

/-- When no agent of a session is closing, its live OPEN viewers know whether it has an OPEN
agent. -/
theorem InStep.told_iff (h : r.InStep) {k : SessionId} {i : String} {v : ConnId}
    (hquiet : ∀ c b, r.acceptance c = some b → b.sessionId = k → r.readyState c ≠ .CLOSING)
    (hv : r.acceptance v = some (.viewer k o i)) (hlive : r.Live v)
    (hopen : r.readyState v = .OPEN) :
    ∃ connected, r.told v = some connected ∧ (connected = true ↔
      ∃ c p, r.acceptance c = some (.agent k p) ∧ r.readyState c = .OPEN) := by
  have hbound : r.sessions k = some o := h.kept.coherent v _ hv hlive
  have hviewer : r.LiveViewer o i v := ⟨hlive, Acceptance.viewerPlace_eq_some.mpr ⟨k, hv⟩⟩
  obtain ⟨connected, htold, htrue, hfalse⟩ := h.informed o i v hviewer hopen
  refine ⟨connected, htold, fun hc => ?_, ?_⟩
  · -- the slot holds a pending agent of this id, and it is not closing
    obtain ⟨c, hslot⟩ := Option.ne_none_iff_exists'.mp (htrue hc)
    obtain ⟨hagent, hpending⟩ := h.kept.sound.slot o c hslot
    obtain ⟨l, hl⟩ := Acceptance.agentSession_eq_some.mp hagent
    have hlk : l = k := h.kept.sound.injective l k o (h.agents.home.home c l o hl hpending) hbound
    subst hlk
    rcases hpending with hcopen | hclosing
    · exact ⟨c, o, hl, hcopen⟩
    · exact absurd hclosing (hquiet c _ hl rfl)
  · -- an OPEN agent of this id is in the slot of the one object the id is bound to
    rintro ⟨c, p, hc, hcopen⟩
    have hp : r.sessions k = some p := h.agents.home.home c k p hc (Or.inl hcopen)
    have hpo : p = o := Option.some.inj (hp.symm.trans hbound)
    subst hpo
    have hslot := h.agents.home.current p c (Acceptance.agentSession_eq_some.mpr ⟨k, hc⟩) hcopen
    by_contra hno
    have hnone := hfalse (by simpa using hno)
    rw [agentOpen_eq_true_iff.mpr ⟨c, hslot, hcopen⟩] at hnone
    cases hnone

end Registry

/-! ## Runs of the server -/

namespace Server

variable (σ : Server)

/-- For every session id no accepted connection of which is closing: each live OPEN viewer accepted
for it was last told whether there is an OPEN agent accepted for it. -/
def StatusAgrees : Prop :=
  ∀ sessionId,
    (∀ c a, (σ.conn c).acceptance = some a → a.sessionId = sessionId →
      (σ.conn c).readyState ≠ .CLOSING) →
    ∀ v session viewerId, (σ.conn v).acceptance = some (.viewer sessionId session viewerId) →
      σ.isLive v = true → (σ.conn v).readyState = .OPEN →
      ∃ connected, lastStatus (σ.conn v).sent = some connected ∧
        (connected = true ↔ ∃ c session', (σ.conn c).acceptance = some (.agent sessionId session') ∧
          (σ.conn c).readyState = .OPEN)

end Server

open Server

/-- **When the agent status agrees**: along every run of the server in which viewer ids stay apart
and agents' close events fire alone. -/
theorem statusAgrees_of_idsApart_of_closesAlone {es : List Event} (hrun : relay.IsRun es)
    (hids : relay.Steps IdsApart relay.start es) (halone : relay.Steps ClosesAlone relay.start es) :
    relay.States StatusAgrees relay.start es := by
  rw [registry_steps_iff hrun fun _ _ => idsApart_iff] at hids
  rw [registry_steps_iff hrun fun _ _ => closesAlone_iff] at halone
  have hinStep : relay.States (fun σ => σ.registry.InStep) relay.start es :=
    (registry_states_iff hrun fun _ => Iff.rfl).mpr (Registry.inStep_of_steps
      (registryRun_isRun hrun) (GuardedMachine.Steps.imp _ (fun _ _ hi hl => ⟨hi, hl⟩) hids halone))
  refine GuardedMachine.States.mono relay (fun σ h => ?_) hinStep
  intro k hquiet v o i hv hlive hopen
  exact h.told_iff hquiet hv (isLive_iff.mp hlive) hopen

/-- A viewer joins, then an agent, and the agent starts to close. -/
theorem statusAgrees_meeting :
    relay.States StatusAgrees relay.start [.connect 0 ⟨some "/viewer", .one "s"⟩ 1,
      .connect 1 ⟨some "/agent", .one "s"⟩ 2, .closing 1] := by
  refine statusAgrees_of_idsApart_of_closesAlone (by decide) ⟨?_, ?_, trivial, trivial⟩ ?_
  · intro k _ _ d
    rfl
  · intro k hpath
    exact absurd hpath (by decide)
  · exact ⟨fun c o he => (by cases he), fun c o he => (by cases he), fun c o he => (by cases he),
      trivial⟩

/-- A viewer is told that the agent has gone when the replaced one closes late, while its successor
is OPEN and nothing is closing. -/
theorem statusAgrees_lateClose :
    let lateClose : List Event :=
      [.connect 2 ⟨some "/viewer", .one "s"⟩ 5] ++ replacement ++ [.close 0]
    let σ := relay.after relay.start lateClose
    relay.IsRun lateClose ∧ lastStatus (σ.conn 2).sent = some false ∧
      (σ.conn 1).acceptance = some (.agent (.text "s") 2) ∧ (σ.conn 1).readyState = .OPEN ∧
      ¬ relay.States StatusAgrees relay.start lateClose := by
  intro lateClose σ
  have hagent : (σ.conn 1).acceptance = some (.agent (.text "s") 2) ∧
      (σ.conn 1).readyState = .OPEN := by decide
  refine ⟨by decide, by decide, hagent.1, hagent.2, fun h => ?_⟩
  have hquiet : ∀ c, (σ.conn c).readyState ≠ .CLOSING := by
    intro c
    match c with
    | 0 => decide
    | 1 => decide
    | 2 => decide
    | c + 3 => exact nofun
  obtain ⟨connected, htold, hiff⟩ := GuardedMachine.States.last relay h (.text "s")
    (fun c _ _ _ => hquiet c) 2 2 "5" (by decide) (by decide) (by decide)
  have hfalse : connected = false := by
    have hlast : lastStatus (σ.conn 2).sent = some false := by decide
    exact Option.some.inj (htold.symm.trans hlast)
  have htrue := hiff.mpr ⟨1, 2, hagent⟩
  rw [hfalse] at htrue
  cases htrue

end BrowCast
