import BrowCast.Server.RegistryRefinement

/-! # The viewers of a session

What `session.viewers` is meant to hold: the viewers accepted into the session object for which
neither the error nor the close event has fired, each once. The map is keyed by the clock reading at
which a viewer was accepted, so this holds along a run exactly when no viewer comes under, or goes
from under, an id that another live viewer of the session object has. -/

namespace BrowCast

namespace Registry

variable {r : Registry} {a : Action}

/-- Every live viewer is stored under its id. (A stored viewer is live in every reachable state.) -/
def ViewersStored (r : Registry) : Prop := ∀ o i c, r.LiveViewer o i c → r.viewers o i = some c

/-- No viewer is admitted under the id of a live viewer of its session object, and none fails or
leaves while another live viewer of its object has its id. -/
structure IdsApart (r : Registry) (a : Action) : Prop where
  arriving : ∀ c k i, a = .admitViewer c k i → ∀ d, ¬ r.LiveViewer (r.sessionFor k c) i d
  fail : ∀ c k o i, a = .failViewer c k o i → ∀ d, d ≠ c → ¬ r.LiveViewer o i d
  leave : ∀ c k o i, a = .leaveViewer c k o i → ∀ d, d ≠ c → ¬ r.LiveViewer o i d

/-- A stored viewer stays stored when its id is not touched. -/
theorem IdsApart.keeps (hapart : r.IdsApart a) {o : SessionRef} {i : String} {c : ConnId}
    (hc : r.viewers o i = some c) (hlive : r.LiveViewer o i c)
    (hfail : ∀ k p j, a ≠ .failViewer c k p j) (hleave : ∀ k p j, a ≠ .leaveViewer c k p j) :
    (r.step a).viewers o i = some c := by
  refine (viewers_step a o i c).mpr (Or.inr ⟨hc, ?_, ?_, ?_⟩)
  · rintro d k hd rfl
    exact hapart.arriving d k i hd c hlive
  · intro d k hd
    by_cases hcd : c = d
    · exact hfail k o i (hcd ▸ hd)
    · exact hapart.fail d k o i hd c hcd hlive
  · intro d k hd
    by_cases hcd : c = d
    · exact hleave k o i (hcd ▸ hd)
    · exact hapart.leave d k o i hd c hcd hlive

section Step

variable (h : r.Sound) (ha : r.Enabled a)

include h ha

/-- Viewers stay stored exactly while ids are apart. -/
theorem ViewersStored.step (hstored : r.ViewersStored) (hapart : r.IdsApart a) :
    (r.step a).ViewersStored := by
  intro o i c hc
  rcases (liveViewer_step h ha o i c).mp hc with ⟨k, rfl, hfor⟩ | ⟨hlive, hfail, hleave⟩
  · exact (viewers_step _ o i c).mpr (Or.inl ⟨k, rfl, hfor⟩)
  · exact hapart.keeps (hstored o i c hlive) hlive hfail hleave

/-- Conversely, when all live viewers are stored after a step, no two of them shared the id it
touched. -/
theorem ViewersStored.idsApart (hstored : (r.step a).ViewersStored) : r.IdsApart a where
  arriving := by
    rintro c k i rfl d hd
    have hstays : (r.step (.admitViewer c k i)).LiveViewer (r.sessionFor k c) i d :=
      (liveViewer_step h ha _ i d).mpr
        (Or.inr ⟨hd, fun _ _ _ he => (by cases he), fun _ _ _ he => (by cases he)⟩)
    have hnew := (viewers_step (.admitViewer c k i) (r.sessionFor k c) i c).mpr
      (Or.inl ⟨k, rfl, rfl⟩)
    have hdc : d = c := Option.some.inj ((hstored _ _ _ hstays).symm.trans hnew)
    -- a live viewer has arrived, the newcomer has not
    exact ha (hdc ▸ (h.arrived_of_viewerOf hd.2).1)
  fail := by
    rintro c k o i rfl d hdc hd
    have hstays : (r.step (.failViewer c k o i)).LiveViewer o i d :=
      (liveViewer_step h ha o i d).mpr (Or.inr ⟨hd,
        fun l p j hl => hdc (by cases hl; rfl), fun _ _ _ he => (by cases he)⟩)
    -- the error handler deletes the id, whoever is stored under it
    have hgone : (r.step (.failViewer c k o i)).viewers o i = none := by simp [Registry.step]
    rw [hstored o i d hstays] at hgone
    cases hgone
  leave := by
    rintro c k o i rfl d hdc hd
    have hstays : (r.step (.leaveViewer c k o i)).LiveViewer o i d :=
      (liveViewer_step h ha o i d).mpr (Or.inr ⟨hd, fun _ _ _ he => (by cases he),
        fun l p j hl => hdc (by cases hl; rfl)⟩)
    have hgone : (r.step (.leaveViewer c k o i)).viewers o i = none := by simp [Registry.step]
    rw [hstored o i d hstays] at hgone
    cases hgone

end Step

/-- At first there are no viewers. -/
theorem viewersStored_initial : initial.ViewersStored := by
  intro o i c hc
  simp [LiveViewer, Live, Pending, initial] at hc

/-- **When all live viewers are stored**, over runs of the registry. -/
theorem viewersStored_iff_idsApart {as : List Action} (hrun : registryMachine.IsRun as) :
    registryMachine.States ViewersStored initial as ↔
      registryMachine.Steps IdsApart initial as := by
  have hsound : registryMachine.States Sound initial as :=
    registryMachine.states_of_invariant sound_initial (fun _ _ h ha => h.step ha) hrun
  constructor
  · intro hstored
    refine registryMachine.steps_of_states (A := fun r => r.Sound ∧ r.ViewersStored) ?_ hrun
      (GuardedMachine.States.and _ hsound hstored)
    intro r a hr ha hr'
    exact hr'.2.idsApart hr.1 ha
  · intro hapart
    have hboth : registryMachine.States (fun r => r.Sound ∧ r.ViewersStored) initial as := by
      refine registryMachine.states_of_steps ?_ ⟨sound_initial, viewersStored_initial⟩ hrun hapart
      intro r a hr ha hapart
      exact ⟨hr.1.step ha, hr.2.step hr.1 ha hapart⟩
    exact GuardedMachine.States.mono _ (fun r hr => hr.2) hboth

end Registry

/-! ## Runs of the server -/

namespace Server

variable (σ : Server)

/-- The connection is a viewer accepted into the session object under this id, and neither its error
nor its close event has fired. -/
def isLiveViewer (session : SessionRef) (viewerId : String) (c : ConnId) : Bool :=
  (σ.conn c).isPending && !(σ.conn c).errored &&
    decide (Acceptance.viewerPlace (σ.conn c).acceptance = some (session, viewerId))

/-- `session.viewers` of every session object holds exactly its live viewers, each once. -/
def ViewersExact : Prop :=
  ∀ session, (σ.sessionAt session).viewers.values.Nodup ∧
    ∀ c, c ∈ (σ.sessionAt session).viewers.values ↔
      ∃ viewerId, σ.isLiveViewer session viewerId c = true

/-- No viewer but the one the event is about is unregistered. -/
def KeepsOtherViewers (e : Event) : Prop :=
  ∀ session c, c ∈ (σ.sessionAt session).viewers.values → c ≠ e.subject →
    c ∈ ((σ.step e).sessionAt session).viewers.values

/-- No viewer is accepted at a clock reading that is the id of a live viewer of its session object,
and no viewer's error or close event fires while another live viewer of its session object has the
same id. -/
def IdsApart : Event → Prop
  | .connect ws parsedUrl now =>
      ∀ sessionId, parsedUrl.pathname = some "/viewer" →
        parsedUrl.sessionId.key ws = some sessionId →
          ∀ d, σ.isLiveViewer (σ.sessionFor sessionId ws) (toString now) d = false
  | .error ws | .close ws =>
      ∀ session viewerId, Acceptance.viewerPlace (σ.conn ws).acceptance = some (session, viewerId) →
        ∀ d, d ≠ ws → σ.isLiveViewer session viewerId d = false
  | _ => True

variable {σ : Server}

/-- The live viewers of the server are those of its registry. -/
theorem isLiveViewer_iff {session : SessionRef} {viewerId : String} {c : ConnId} :
    σ.isLiveViewer session viewerId c = true ↔ σ.registry.LiveViewer session viewerId c := by
  rw [isLiveViewer, Bool.and_eq_true, Bool.and_eq_true, Conn.isPending_iff, decide_eq_true_eq,
    Bool.not_eq_true']
  rfl

/-- A viewer that is not live in the server is not in its registry. -/
theorem isLiveViewer_eq_false_iff {session : SessionRef} {viewerId : String} {c : ConnId} :
    σ.isLiveViewer session viewerId c = false ↔ ¬ σ.registry.LiveViewer session viewerId c := by
  rw [← isLiveViewer_iff, Bool.not_eq_true]

/-- The viewers of the server are exact when those of its registry are stored. -/
theorem viewersExact_iff (hsound : σ.registry.Sound) :
    σ.ViewersExact ↔ σ.registry.ViewersStored := by
  constructor
  · intro hexact o i c hc
    have hmem := ((hexact o).2 c).mpr ⟨i, isLiveViewer_iff.mpr hc⟩
    obtain ⟨j, hj⟩ := (InsertionMap.mem_values_iff _ _).mp hmem
    -- a stored viewer is stored under the id it was accepted under
    have hplace : some (o, i) = some (o, j) := hc.2.symm.trans (hsound.stored o j c hj).1
    rw [(Prod.mk.inj (Option.some.inj hplace)).2]
    exact hj
  · intro hstored o
    constructor
    · refine InsertionMap.nodup_values fun i j c hi hj => ?_
      have hplace : some (o, i) = some (o, j) :=
        (hsound.stored o i c hi).1.symm.trans (hsound.stored o j c hj).1
      exact (Prod.mk.inj (Option.some.inj hplace)).2
    · intro c
      rw [InsertionMap.mem_values_iff]
      refine exists_congr fun i => ?_
      rw [isLiveViewer_iff]
      exact ⟨fun hi => ⟨(hsound.stored o i c hi).2, (hsound.stored o i c hi).1⟩, hstored o i c⟩

/-- An event keeps ids apart when the action it is does. -/
theorem idsApart_iff {e : Event} : σ.IdsApart e ↔ σ.registry.IdsApart (σ.action e) := by
  constructor
  · intro h
    constructor
    · -- each action of the registry on a viewer comes from one kind of event
      rintro c k i hact d
      obtain ⟨parsedUrl, now, rfl, rfl, hverdict⟩ := action_eq_admitViewer_iff.mp hact
      obtain ⟨hkey, hpath⟩ := (verdict_eq_viewer_iff ..).mp hverdict
      exact isLiveViewer_eq_false_iff.mp (h k hpath hkey d)
    · rintro c k o i hact d hdc
      obtain ⟨rfl, hacc⟩ := action_eq_failViewer_iff.mp hact
      exact isLiveViewer_eq_false_iff.mp (h o i (by rw [hacc]; rfl) d hdc)
    · rintro c k o i hact d hdc
      obtain ⟨rfl, hacc⟩ := action_eq_leaveViewer_iff.mp hact
      exact isLiveViewer_eq_false_iff.mp (h o i (by rw [hacc]; rfl) d hdc)
  · intro h
    -- and each of these events acts on the registry
    cases e with
    | connect ws parsedUrl now =>
        intro k hpath hkey d
        have hact : σ.action (.connect ws parsedUrl now) = .admitViewer ws k (toString now) :=
          action_eq_admitViewer_iff.mpr ⟨parsedUrl, now, rfl, rfl,
            (verdict_eq_viewer_iff ..).mpr ⟨hkey, hpath⟩⟩
        exact isLiveViewer_eq_false_iff.mpr (h.arriving ws k _ hact d)
    | error ws =>
        intro o i hplace d hdw
        obtain ⟨k, hacc⟩ := Acceptance.viewerPlace_eq_some.mp hplace
        have hact : σ.action (.error ws) = .failViewer ws k o i :=
          action_eq_failViewer_iff.mpr ⟨rfl, hacc⟩
        exact isLiveViewer_eq_false_iff.mpr (h.fail ws k o i hact d hdw)
    | close ws =>
        intro o i hplace d hdw
        obtain ⟨k, hacc⟩ := Acceptance.viewerPlace_eq_some.mp hplace
        have hact : σ.action (.close ws) = .leaveViewer ws k o i :=
          action_eq_leaveViewer_iff.mpr ⟨rfl, hacc⟩
        exact isLiveViewer_eq_false_iff.mpr (h.leave ws k o i hact d hdw)
    | _ => trivial

/-- A step that keeps ids apart removes and replaces no other viewer. -/
theorem IdsApart.keepsOtherViewers (hwf : σ.WellFormed) {e : Event} (he : σ.Enabled e)
    (hapart : σ.IdsApart e) : σ.KeepsOtherViewers e := by
  intro o c hc hne
  obtain ⟨i, hi⟩ := (InsertionMap.mem_values_iff _ _).mp hc
  have hstored := hwf.sound.stored o i c hi
  have hkept : (σ.registry.step (σ.action e)).viewers o i = some c := by
    refine (idsApart_iff.mp hapart).keeps hi ⟨hstored.2, hstored.1⟩ ?_ ?_
    · intro k p j hact
      obtain ⟨rfl, -⟩ := action_eq_failViewer_iff.mp hact
      exact hne rfl
    · intro k p j hact
      obtain ⟨rfl, -⟩ := action_eq_leaveViewer_iff.mp hact
      exact hne rfl
  rw [← registry_step hwf he] at hkept
  exact (InsertionMap.mem_values_iff _ _).mpr ⟨i, hkept⟩

end Server

open Server

/-- **When the viewer registry is right.** Along a run of the server every session object stores
exactly its live viewers, each once, and no step unregisters a viewer other than the one it is
about, exactly when viewer ids stay apart. -/
theorem viewersExact_iff_idsApart {es : List Event} (hrun : relay.IsRun es) :
    (relay.States ViewersExact relay.start es ∧ relay.Steps KeepsOtherViewers relay.start es) ↔
      relay.Steps IdsApart relay.start es := by
  have hwf := relay_wellFormed hrun
  have hstored : relay.States (fun σ => σ.registry.ViewersStored) relay.start es ↔
      relay.Steps IdsApart relay.start es := by
    rw [registry_states_iff hrun fun _ => Iff.rfl, registry_steps_iff hrun fun _ _ => idsApart_iff]
    exact Registry.viewersStored_iff_idsApart (registryRun_isRun hrun)
  constructor
  · rintro ⟨hexact, -⟩
    refine hstored.mp (GuardedMachine.States.mono relay ?_
      (GuardedMachine.States.and relay hwf hexact))
    intro σ hσ
    exact (viewersExact_iff hσ.1.sound).mp hσ.2
  · intro hapart
    constructor
    · refine GuardedMachine.States.mono relay ?_
        (GuardedMachine.States.and relay hwf (hstored.mpr hapart))
      intro σ hσ
      exact (viewersExact_iff hσ.1.sound).mpr hσ.2
    · exact GuardedMachine.Steps.mono relay (fun σ e hσ he h => h.keepsOtherViewers hσ he) hwf hrun
        hapart

/-- Two viewers join one session at different milliseconds. -/
def twoViewers : List Event :=
  [.connect 0 ⟨some "/viewer", .one "s"⟩ 5, .connect 1 ⟨some "/viewer", .one "s"⟩ 6]

/-- Their ids differ, so both are registered. -/
theorem viewersExact_twoViewers :
    relay.States ViewersExact relay.start twoViewers ∧
      relay.Steps KeepsOtherViewers relay.start twoViewers := by
  refine (viewersExact_iff_idsApart (by decide)).mpr ⟨?_, ?_, trivial⟩
  · intro k _ _ d
    rfl
  · intro k _ hkey d
    cases hkey
    cases d with
    | zero => rfl
    | succ d => rfl

/-- Two viewers that join within one millisecond get one id, and the first is unregistered. -/
theorem viewersExact_sameMillisecond :
    relay.IsRun [.connect 0 ⟨some "/viewer", .one "s"⟩ 5, .connect 1 ⟨some "/viewer", .one "s"⟩ 5] ∧
      ¬ relay.States ViewersExact relay.start
        [.connect 0 ⟨some "/viewer", .one "s"⟩ 5, .connect 1 ⟨some "/viewer", .one "s"⟩ 5] := by
  refine ⟨by decide, fun h => ?_⟩
  have hexact := ((GuardedMachine.States.last relay h 0).2 0).mpr ⟨"5", by decide⟩
  revert hexact
  decide

end BrowCast
