import BrowCast.Server.State
import BrowCast.Runs.GuardedMachine

/-! # The connection registry: what the relay server keeps track of

An abstract account of the server's bookkeeping. A registry knows which connections have arrived and
in which state they are, how each was accepted, and for every session object who is in its agent
slot and under its viewer ids; the session ids point to session objects; and each viewer remembers
what it was last told about its agent. Messages, screens, counters and timers are not part of it.

`Registry.step` says what one event does to this bookkeeping, with the same decisions as the
handlers of the server: the agent slot is cleared by the close event of *any* agent of the object,
and viewers are stored under an id that need not be theirs alone. What follows from that is proved
over this machine. -/

namespace BrowCast

/-- The bookkeeping of the relay server. -/
@[ext] structure Registry where
  /-- The connections that have arrived, newest first. -/
  arrivals : List ConnId
  readyState : ConnId → ReadyState
  /-- The error event of the connection has fired. -/
  errored : ConnId → Bool
  acceptance : ConnId → Option Acceptance
  /-- The agent slot of each session object. -/
  agent : SessionRef → Option ConnId
  /-- The viewers of each session object, by viewer id. -/
  viewers : SessionRef → String → Option ConnId
  sessions : SessionId → Option SessionRef
  /-- What the connection was last told about its agent. -/
  told : ConnId → Option Bool

namespace Registry

variable (r : Registry)

/-- The connection has arrived and its close event has not fired. -/
def Pending (c : ConnId) : Prop := r.readyState c = .OPEN ∨ r.readyState c = .CLOSING

/-- Neither the close event nor the error event of the connection has fired. -/
def Live (c : ConnId) : Prop := r.Pending c ∧ r.errored c = false

/-- The connection was accepted as an agent of the session object. -/
def AgentOf (o : SessionRef) (c : ConnId) : Prop :=
  Acceptance.agentSession (r.acceptance c) = some o

/-- The connection was accepted as a viewer of the session object, under this viewer id. -/
def ViewerOf (o : SessionRef) (i : String) (c : ConnId) : Prop :=
  Acceptance.viewerPlace (r.acceptance c) = some (o, i)

/-- The agent slot holds an OPEN connection. -/
def agentOpen (o : SessionRef) : Bool :=
  match r.agent o with
  | some c => r.readyState c == .OPEN
  | none => false

/-- The session object for an id: the one in the map, or else the one `c` creates. -/
def sessionFor (k : SessionId) (c : ConnId) : SessionRef := (r.sessions k).getD c

/-- A connection joins the object its id is bound to, or founds one of its own. -/
theorem sessionFor_eq_or (k : SessionId) (c : ConnId) :
    r.sessions k = some (r.sessionFor k c) ∨ r.sessions k = none ∧ r.sessionFor k c = c := by
  unfold sessionFor
  cases r.sessions k <;> simp

/-- The session object is in the map under this id and holds no connection. -/
def Vacant (k : SessionId) : Prop :=
  ∃ o, r.sessions k = some o ∧ r.agent o = none ∧ ∀ i, r.viewers o i = none

/-- The connection is OPEN and stored among the viewers of the session object. -/
def Hears (o : SessionRef) (v : ConnId) : Prop :=
  r.readyState v = .OPEN ∧ ∃ i, r.viewers o i = some v

noncomputable instance (k : SessionId) : Decidable (r.Vacant k) := Classical.propDecidable _

noncomputable instance (o : SessionRef) (v : ConnId) : Decidable (r.Hears o v) :=
  Classical.propDecidable _

/-! ## The parts of a step -/

/-- A connection arrives. -/
@[simps] def enter (c : ConnId) (state : ReadyState) : Registry :=
  { r with arrivals := c :: r.arrivals, readyState := Function.update r.readyState c state }

/-- The session id, if there is one, is looked up, and bound when it is missing. -/
@[simps] def join (k : Option SessionId) (c : ConnId) : Registry :=
  { r with sessions := fun l => if k = some l then some (r.sessionFor l c) else r.sessions l }

/-- A connection is accepted. -/
@[simps] def accept (c : ConnId) (a : Acceptance) : Registry :=
  { r with acceptance := Function.update r.acceptance c (some a) }

/-- The agent slot is written. -/
@[simps] def setAgent (o : SessionRef) (c : Option ConnId) : Registry :=
  { r with agent := Function.update r.agent o c }

/-- The place of a viewer id is written. -/
@[simps] def setViewer (o : SessionRef) (i : String) (c : Option ConnId) : Registry :=
  { r with viewers := fun p j => if p = o ∧ j = i then c else r.viewers p j }

/-- A connection changes its state. -/
@[simps] def setState (c : ConnId) (state : ReadyState) : Registry :=
  { r with readyState := Function.update r.readyState c state }

/-- The error event of a connection fires. -/
@[simps] def setErrored (c : ConnId) : Registry :=
  { r with errored := Function.update r.errored c true }

/-- Every OPEN stored viewer of the session object is told about the agent. -/
@[simps] noncomputable def tell (o : SessionRef) (connected : Bool) : Registry :=
  { r with told := fun v => if r.Hears o v then some connected else r.told v }

section Hears

variable (c d v : ConnId) (o p : SessionRef)

/-- Joining tells nobody anything. -/
@[simp] theorem hears_join (k : Option SessionId) : (r.join k c).Hears o v ↔ r.Hears o v := Iff.rfl

/-- Writing the slot tells nobody anything. -/
@[simp] theorem hears_setAgent (h : Option ConnId) :
    (r.setAgent p h).Hears o v ↔ r.Hears o v := Iff.rfl

end Hears

/-- The id is dropped when its session object is vacant. -/
@[simps] noncomputable def dropIfVacant (k : SessionId) : Registry :=
  { r with sessions := fun l => if l = k ∧ r.Vacant k then none else r.sessions l }

/-! ## The machine -/

/-- What can happen to the registry. -/
inductive Action where
  /-- `c` arrives with the session id `k` and is accepted as an agent. -/
  | admitAgent (c : ConnId) (k : SessionId)
  /-- `c` arrives with the session id `k` and is accepted as a viewer under the viewer id `i`. -/
  | admitViewer (c : ConnId) (k : SessionId) (i : String)
  /-- `c` arrives and is turned away, after its session id (if any) was looked up. -/
  | turnAway (c : ConnId) (k : Option SessionId)
  /-- `c` arrives and is left as it is. -/
  | arrive (c : ConnId)
  /-- `c` moves from OPEN to CLOSING. -/
  | closing (c : ConnId)
  /-- The error event of `c`, which is no viewer, fires. -/
  | fail (c : ConnId)
  /-- The error event of the viewer `c` fires. -/
  | failViewer (c : ConnId) (k : SessionId) (o : SessionRef) (i : String)
  /-- The close event of `c`, which was not accepted, fires. -/
  | leave (c : ConnId)
  /-- The close event of the agent `c` fires. -/
  | leaveAgent (c : ConnId) (k : SessionId) (o : SessionRef)
  /-- The close event of the viewer `c` fires. -/
  | leaveViewer (c : ConnId) (k : SessionId) (o : SessionRef) (i : String)
  /-- Nothing the registry knows about changes. -/
  | rest

/-- The connection that arrives and the session id it is looked up under, if there are any. -/
def Action.joins : Action → Option (ConnId × SessionId)
  | .admitAgent c k | .admitViewer c k _ | .turnAway c (some k) => some (c, k)
  | _ => none

/-- When an action may happen. -/
def Enabled : Action → Prop
  | .admitAgent c k => c ∉ r.arrivals ∧ ∀ o, r.sessions k = some o → r.agentOpen o = false
  | .admitViewer c _ _ | .turnAway c _ | .arrive c => c ∉ r.arrivals
  | .closing c => r.readyState c = .OPEN
  | .fail c => r.Pending c ∧ ∀ o i, ¬ r.ViewerOf o i c
  | .failViewer c k o i => r.Pending c ∧ r.acceptance c = some (.viewer k o i)
  | .leave c => r.readyState c = .CLOSING ∧ r.acceptance c = none
  | .leaveAgent c k o => r.readyState c = .CLOSING ∧ r.acceptance c = some (.agent k o)
  | .leaveViewer c k o i => r.readyState c = .CLOSING ∧ r.acceptance c = some (.viewer k o i)
  | .rest => True

/-- What an action does. -/
noncomputable def step : Action → Registry
  | .admitAgent c k =>
      let o := r.sessionFor k c
      ((((r.enter c .OPEN).join (some k) c).setAgent o (some c)).tell o true).accept c (.agent k o)
  | .admitViewer c k i =>
      let o := r.sessionFor k c
      -- the newcomer is told whether the slot holds an OPEN agent, nobody else hears of it
      let told := (r.enter c .OPEN).agentOpen o
      let r := (((r.enter c .OPEN).join (some k) c).setViewer o i (some c)).accept c (.viewer k o i)
      { r with told := Function.update r.told c (some told) }
  -- the session looked up for a connection that is turned away is not given back
  | .turnAway c k => ((r.enter c .OPEN).join k c).setState c .CLOSING
  | .arrive c => r.enter c .OPEN
  | .closing c => r.setState c .CLOSING
  | .fail c => r.setErrored c
  -- a failed viewer gives up its place, and an object it leaves vacant keeps its id
  | .failViewer c _ o i => (r.setErrored c).setViewer o i none
  | .leave c => r.setState c .CLOSED
  -- the slot and the viewer id are cleared by what was captured, not by who is there
  | .leaveAgent c k o => (((r.setState c .CLOSED).setAgent o none).tell o false).dropIfVacant k
  | .leaveViewer c k o i => ((r.setState c .CLOSED).setViewer o i none).dropIfVacant k
  | .rest => r

/-- The registry before anything arrives. -/
def initial : Registry where
  arrivals := []
  readyState := fun _ => .CONNECTING
  errored := fun _ => false
  acceptance := fun _ => none
  agent := fun _ => none
  viewers := fun _ _ => none
  sessions := fun _ => none
  told := fun _ => none

end Registry

/-- The registry as a guarded machine. -/
noncomputable def registryMachine : GuardedMachine Registry Registry.Action where
  start := Registry.initial
  Enabled := Registry.Enabled
  step := Registry.step

namespace Registry

/-! ## What holds of every reachable registry -/

/-- The bookkeeping is about connections that exist, and only live ones are stored. -/
structure Sound (r : Registry) : Prop where
  /-- The connections that have arrived are those that are past CONNECTING. -/
  arrived : ∀ c, c ∈ r.arrivals ↔ r.readyState c ≠ .CONNECTING
  /-- Accepted connections have arrived, and so have the creators of their session objects. -/
  accepted : ∀ c a, r.acceptance c = some a → c ∈ r.arrivals ∧ a.session ∈ r.arrivals
  /-- A slot holds a pending agent of its object. -/
  slot : ∀ o c, r.agent o = some c → r.AgentOf o c ∧ r.Pending c
  /-- A viewer id holds a live viewer of its object that was accepted under this id. -/
  stored : ∀ o i c, r.viewers o i = some c → r.ViewerOf o i c ∧ r.Live c
  /-- The session objects in the map were created by connections that have arrived. -/
  mapped : ∀ k o, r.sessions k = some o → o ∈ r.arrivals
  /-- No session object is in the map under two ids. -/
  injective : ∀ k l o, r.sessions k = some o → r.sessions l = some o → k = l
  /-- Only connections that have arrived fail. -/
  failed : ∀ c, r.errored c = true → c ∈ r.arrivals
  /-- Only connections that have arrived are told anything. -/
  informed : ∀ c b, r.told c = some b → c ∈ r.arrivals

/-- The empty registry is sound. -/
theorem sound_initial : initial.Sound := by
  constructor <;> simp [initial]

section

variable {r : Registry} (h : r.Sound)

include h

/-- An accepted agent has arrived, and so has the founder of its session object. -/
theorem Sound.arrived_of_agentOf {o : SessionRef} {c : ConnId} (hc : r.AgentOf o c) :
    c ∈ r.arrivals ∧ o ∈ r.arrivals := by
  obtain ⟨k, hk⟩ := Acceptance.agentSession_eq_some.mp hc
  exact h.accepted c _ hk

/-- An accepted viewer has arrived, and so has the founder of its session object. -/
theorem Sound.arrived_of_viewerOf {o : SessionRef} {i : String} {c : ConnId}
    (hc : r.ViewerOf o i c) : c ∈ r.arrivals ∧ o ∈ r.arrivals := by
  obtain ⟨k, hk⟩ := Acceptance.viewerPlace_eq_some.mp hc
  exact h.accepted c _ hk

/-- The object a connection would create holds nobody before the connection arrives. -/
theorem Sound.empty_of_new {c : ConnId} (hnew : c ∉ r.arrivals) :
    r.agent c = none ∧ ∀ i, r.viewers c i = none := by
  constructor
  · exact Option.eq_none_iff_forall_ne_some.mpr fun d hd =>
      hnew (h.arrived_of_agentOf (h.slot c d hd).1).2
  · exact fun i => Option.eq_none_iff_forall_ne_some.mpr fun d hd =>
      hnew (h.arrived_of_viewerOf (h.stored c i d hd).1).2

/-- The object for an id is in the map or named by the newcomer. -/
theorem Sound.sessionFor_mem (k : SessionId) (c : ConnId) : r.sessionFor k c ∈ c :: r.arrivals := by
  rcases r.sessionFor_eq_or k c with hk | ⟨-, hk⟩
  · exact List.mem_cons_of_mem _ (h.mapped k _ hk)
  · rw [hk]
    exact List.mem_cons_self

end

/-! ## What one step does to slots, viewers and ids -/

/-- A pending agent of the session object. -/
def PendingAgent (r : Registry) (o : SessionRef) (c : ConnId) : Prop := r.Pending c ∧ r.AgentOf o c

/-- A live viewer of the session object, accepted under this viewer id. -/
def LiveViewer (r : Registry) (o : SessionRef) (i : String) (c : ConnId) : Prop :=
  r.Live c ∧ r.ViewerOf o i c

section

variable {r : Registry} {a : Action}

/-- The slot of a session object is filled by admitting an agent to it, and cleared by the close
event of any of its agents. -/
theorem agent_step (a : Action) (o : SessionRef) (c : ConnId) : (r.step a).agent o = some c ↔
    (∃ k, a = .admitAgent c k ∧ r.sessionFor k c = o) ∨
      r.agent o = some c ∧ (∀ d k, a = .admitAgent d k → r.sessionFor k d ≠ o) ∧
        ∀ d k, a ≠ .leaveAgent d k o := by
  cases a <;> simp [Registry.step, Function.update_apply] <;> grind

/-- A viewer id of a session object is written by admitting a viewer under it, and cleared by the
error or close event of any viewer that was admitted under it. -/
theorem viewers_step (a : Action) (o : SessionRef) (i : String) (c : ConnId) :
    (r.step a).viewers o i = some c ↔
      (∃ k, a = .admitViewer c k i ∧ r.sessionFor k c = o) ∨
        r.viewers o i = some c ∧ (∀ d k, a = .admitViewer d k i → r.sessionFor k d ≠ o) ∧
          (∀ d k, a ≠ .failViewer d k o i) ∧ ∀ d k, a ≠ .leaveViewer d k o i := by
  cases a <;> simp [Registry.step] <;> grind

/-- The arrivals after a step are those before it, with at most one newcomer in front. -/
theorem arrivals_step (ha : r.Enabled a) : (r.step a).arrivals = r.arrivals ∨
    ∃ c, c ∉ r.arrivals ∧ (r.step a).arrivals = c :: r.arrivals := by
  cases a with
  | admitAgent c k => exact Or.inr ⟨c, ha.1, rfl⟩
  | admitViewer c k i => exact Or.inr ⟨c, ha, rfl⟩
  | turnAway c k => exact Or.inr ⟨c, ha, rfl⟩
  | arrive c => exact Or.inr ⟨c, ha, rfl⟩
  | _ => exact Or.inl rfl

/-- Arrivals are never forgotten. -/
theorem arrivals_subset_step (ha : r.Enabled a) : r.arrivals ⊆ (r.step a).arrivals := by
  rcases arrivals_step ha with hsame | ⟨c, -, hcons⟩
  · rw [hsame]
    intro _
    exact id
  · rw [hcons]
    exact List.subset_cons_self ..

/-- The connection that is looked up is a newcomer. -/
theorem arrivals_of_joins (ha : r.Enabled a) {c : ConnId} {k : SessionId}
    (hjoins : a.joins = some (c, k)) :
    c ∉ r.arrivals ∧ (r.step a).arrivals = c :: r.arrivals := by
  cases a with
  | admitAgent d l => cases hjoins; exact ⟨ha.1, rfl⟩
  | admitViewer d l i => cases hjoins; exact ⟨ha, rfl⟩
  | turnAway d l =>
      cases l with
      | none => cases hjoins
      | some l => cases hjoins; exact ⟨ha, rfl⟩
  | _ => cases hjoins

/-- Dropping a vacant session binds no id. -/
theorem sessions_of_dropIfVacant {k l : SessionId} {o : SessionRef}
    (ho : (r.dropIfVacant l).sessions k = some o) : r.sessions k = some o := by
  rw [dropIfVacant_sessions] at ho
  split at ho
  · cases ho
  · exact ho

/-- An id is bound to what it was bound to before, or to the object of the newcomer that is looked
up under it. -/
theorem sessions_of_step {k : SessionId} {o : SessionRef} (ho : (r.step a).sessions k = some o) :
    r.sessions k = some o ∨ a.joins = some (o, k) := by
  -- a join binds its own id only, to the object there or to a new one
  have hjoin : ∀ {c : ConnId} {l : SessionId}, (if some l = some k then
      some (r.sessionFor k c) else r.sessions k) = some o →
      r.sessions k = some o ∨ l = k ∧ o = c := by
    intro c l hl
    split at hl
    · rename_i hlk
      rcases r.sessionFor_eq_or k c with hbound | ⟨-, hself⟩
      · exact Or.inl (hbound.trans hl)
      · exact Or.inr ⟨Option.some.inj hlk, by rw [← Option.some.inj hl, hself]⟩
    · exact Or.inl hl
  cases a with
  | admitAgent c l => exact (hjoin ho).imp_right fun h => by rw [h.1, h.2]; rfl
  | admitViewer c l i => exact (hjoin ho).imp_right fun h => by rw [h.1, h.2]; rfl
  | turnAway c l =>
      cases l with
      | none => exact Or.inl (by simpa [Registry.step] using ho)
      | some l => exact (hjoin ho).imp_right fun h => by rw [h.1, h.2]; rfl
  | leaveAgent c l p =>
      exact Or.inl (sessions_of_dropIfVacant
        (r := ((r.setState c .CLOSED).setAgent p none).tell p false) ho)
  | leaveViewer c l p i =>
      exact Or.inl (sessions_of_dropIfVacant
        (r := (r.setState c .CLOSED).setViewer p i none) ho)
  | _ => exact Or.inl ho

/-- An id loses its session object only when that is vacant. -/
theorem sessions_dropIfVacant {k : SessionId} {o : SessionRef} (hk : r.sessions k = some o)
    (l : SessionId) : (r.dropIfVacant l).sessions k = some o ∨
      (r.dropIfVacant l).sessions k = none ∧ r.agent o = none ∧ ∀ i, r.viewers o i = none := by
  rw [dropIfVacant_sessions]
  by_cases hdrop : k = l ∧ r.Vacant l
  · obtain ⟨p, hp, hagent, hviewers⟩ := hdrop.2
    -- the object found vacant under the id is `o`
    have hop : o = p := Option.some.inj (hk.symm.trans (hdrop.1 ▸ hp))
    exact Or.inr ⟨if_pos hdrop, hop ▸ hagent, hop ▸ hviewers⟩
  · exact Or.inl ((if_neg hdrop).trans hk)

/-- An id keeps its session object until the object holds nobody. -/
theorem sessions_step (a : Action) {k : SessionId} {o : SessionRef} (hk : r.sessions k = some o) :
    (r.step a).sessions k = some o ∨
      (r.step a).sessions k = none ∧ (r.step a).agent o = none ∧
        ∀ i, (r.step a).viewers o i = none := by
  cases a with
  | leaveAgent c l p =>
      exact sessions_dropIfVacant (r := ((r.setState c .CLOSED).setAgent p none).tell p false) hk l
  | leaveViewer c l p i =>
      exact sessions_dropIfVacant (r := (r.setState c .CLOSED).setViewer p i none) hk l
  | _ => simp [Registry.step, sessionFor, hk]

/-- The slot an agent of `o` clears when it leaves is the slot of `o`. -/
theorem AgentOf.session_eq {o p : SessionRef} {c : ConnId} {k : SessionId} (hof : r.AgentOf o c)
    (ha : r.Enabled (.leaveAgent c k p)) : p = o := by
  rw [AgentOf, ha.2] at hof
  exact Option.some.inj hof

/-- The id a connection was accepted under is bound to its session object. -/
theorem sessions_admitAgent (c : ConnId) (k : SessionId) :
    (r.step (.admitAgent c k)).sessions k = some (r.sessionFor k c) := by
  simp [Registry.step, sessionFor]

/-- An admitted viewer's id is bound to the object it joined. -/
theorem sessions_admitViewer (c : ConnId) (k : SessionId) (i : String) :
    (r.step (.admitViewer c k i)).sessions k = some (r.sessionFor k c) := by
  simp [Registry.step, sessionFor]

section

variable (h : r.Sound) (ha : r.Enabled a)

include h ha

/-- A connection is accepted when it arrives, and stays so. -/
theorem acceptance_step (c : ConnId) (b : Acceptance) : (r.step a).acceptance c = some b ↔
    (∃ k, a = .admitAgent c k ∧ b = .agent k (r.sessionFor k c)) ∨
      (∃ k i, a = .admitViewer c k i ∧ b = .viewer k (r.sessionFor k c) i) ∨
        r.acceptance c = some b := by
  have haccepted := h.accepted c
  cases a <;> simp [Registry.step, Function.update_apply, Enabled] at ha ⊢ <;> grind

omit h in
/-- A connection is OPEN from its arrival on. -/
theorem open_step {c : ConnId} (hc : c ∈ r.arrivals) (hopen : (r.step a).readyState c = .OPEN) :
    r.readyState c = .OPEN := by
  cases a <;> simp [Registry.step, Function.update_apply, Enabled] at ha hopen <;> grind

omit h in
/-- A connection that is live after a step was live before it, once it has arrived. -/
theorem live_step {c : ConnId} (hc : c ∈ r.arrivals) (hlive : (r.step a).Live c) : r.Live c := by
  unfold Live Pending at *
  cases a <;> simp [Registry.step, Function.update_apply, Enabled, Pending] at ha hlive <;> grind

/-- The pending agents after an action: the one just admitted, and those before that did not leave.
-/
theorem pendingAgent_step (o : SessionRef) (c : ConnId) : (r.step a).PendingAgent o c ↔
    (∃ k, a = .admitAgent c k ∧ r.sessionFor k c = o) ∨
      r.PendingAgent o c ∧ ∀ k p, a ≠ .leaveAgent c k p := by
  have hnew := h.arrived c
  have haccepted := fun hc : r.AgentOf o c => (h.arrived_of_agentOf hc).1
  unfold PendingAgent AgentOf Pending at *
  cases a <;> simp [Registry.step, Function.update_apply, Enabled, Pending] at ha ⊢ <;>
    grind [Acceptance.agentSession]

/-- The live viewers after an action: the one just admitted, and those before that neither failed
nor left. -/
theorem liveViewer_step (o : SessionRef) (i : String) (c : ConnId) : (r.step a).LiveViewer o i c ↔
    (∃ k, a = .admitViewer c k i ∧ r.sessionFor k c = o) ∨
      r.LiveViewer o i c ∧ (∀ k p j, a ≠ .failViewer c k p j) ∧
        ∀ k p j, a ≠ .leaveViewer c k p j := by
  have hnew := h.arrived c
  have haccepted := fun hc : r.ViewerOf o i c => (h.arrived_of_viewerOf hc).1
  have hfailed := h.failed c
  unfold LiveViewer ViewerOf Live Pending at *
  cases a <;> simp [Registry.step, Function.update_apply, Enabled, Pending, ViewerOf] at ha ⊢ <;>
    grind [Acceptance.viewerPlace]

end

end

/-! ## Soundness is kept -/

section

variable {r : Registry} {a : Action} (h : r.Sound) (ha : r.Enabled a)

include h ha

/-- After an action, too, a connection has arrived when its socket is past CONNECTING. -/
theorem Sound.arrived_step (c : ConnId) :
    c ∈ (r.step a).arrivals ↔ (r.step a).readyState c ≠ .CONNECTING := by
  -- every action but an arrival needs its connection past CONNECTING already
  have hc := h.arrived c
  cases a <;> simp [Registry.step, Function.update_apply, Enabled, Pending] at ha ⊢ <;> grind

/-- After an action, too, accepted connections and their founders have arrived. -/
theorem Sound.accepted_step (c : ConnId) (b : Acceptance) (hc : (r.step a).acceptance c = some b) :
    c ∈ (r.step a).arrivals ∧ b.session ∈ (r.step a).arrivals := by
  have hnew : ∀ k, a.joins = some (c, k) →
      c ∈ (r.step a).arrivals ∧ r.sessionFor k c ∈ (r.step a).arrivals := by
    intro k hjoins
    rw [(arrivals_of_joins ha hjoins).2]
    exact ⟨List.mem_cons_self, h.sessionFor_mem k c⟩
  rcases (acceptance_step h ha c b).mp hc with ⟨k, rfl, rfl⟩ | ⟨k, i, rfl, rfl⟩ | hold
  · exact hnew k rfl
  · exact hnew k rfl
  · obtain ⟨harrived, hcreated⟩ := h.accepted c b hold
    exact ⟨arrivals_subset_step ha harrived, arrivals_subset_step ha hcreated⟩

/-- The close event of an agent clears the slot of its object, so no closed agent stays there. -/
theorem Sound.slot_step (o : SessionRef) (c : ConnId) (hc : (r.step a).agent o = some c) :
    (r.step a).AgentOf o c ∧ (r.step a).Pending c := by
  refine ((pendingAgent_step h ha o c).mpr ?_).symm
  rcases (agent_step a o c).mp hc with hadmitted | ⟨hslot, -, hleave⟩
  · exact Or.inl hadmitted
  · obtain ⟨hof, hpending⟩ := h.slot o c hslot
    refine Or.inr ⟨⟨hpending, hof⟩, ?_⟩
    rintro k p rfl
    obtain rfl := hof.session_eq ha
    exact hleave c k rfl

/-- A viewer that fails or leaves clears its id, even when another one took it over. -/
theorem Sound.stored_step (o : SessionRef) (i : String) (c : ConnId)
    (hc : (r.step a).viewers o i = some c) : (r.step a).ViewerOf o i c ∧ (r.step a).Live c := by
  refine ((liveViewer_step h ha o i c).mpr ?_).symm
  rcases (viewers_step a o i c).mp hc with hadmitted | ⟨hstored, -, hfail, hleave⟩
  · exact Or.inl hadmitted
  · obtain ⟨hof, hlive⟩ := h.stored o i c hstored
    have hplace : ∀ {k p j}, r.acceptance c = some (.viewer k p j) → p = o ∧ j = i := by
      intro k p j hacc
      have hpj : some (p, j) = some (o, i) :=
        hof ▸ (Acceptance.viewerPlace_eq_some.mpr ⟨k, hacc⟩).symm
      exact Prod.mk.inj (Option.some.inj hpj)
    refine Or.inr ⟨⟨hlive, hof⟩, ?_, ?_⟩
    · rintro k p j rfl
      obtain ⟨rfl, rfl⟩ := hplace ha.2
      exact hfail c k rfl
    · rintro k p j rfl
      obtain ⟨rfl, rfl⟩ := hplace ha.2
      exact hleave c k rfl

/-- After an action, too, ids are bound to objects whose founder has arrived. -/
theorem Sound.mapped_step (k : SessionId) (o : SessionRef)
    (ho : (r.step a).sessions k = some o) : o ∈ (r.step a).arrivals := by
  rcases sessions_of_step ho with hold | hjoins
  · exact arrivals_subset_step ha (h.mapped k o hold)
  · rw [(arrivals_of_joins ha hjoins).2]
    exact List.mem_cons_self

/-- A new id is bound to an object that is named by a connection not seen before. -/
theorem Sound.injective_step (k l : SessionId) (o : SessionRef)
    (hk : (r.step a).sessions k = some o) (hl : (r.step a).sessions l = some o) : k = l := by
  rcases sessions_of_step hk with hkold | hkjoins
  · rcases sessions_of_step hl with hlold | hljoins
    · exact h.injective k l o hkold hlold
    · exact absurd (h.mapped k o hkold) (arrivals_of_joins ha hljoins).1
  · rcases sessions_of_step hl with hlold | hljoins
    · exact absurd (h.mapped l o hlold) (arrivals_of_joins ha hkjoins).1
    · rw [hkjoins] at hljoins
      exact (Prod.mk.inj (Option.some.inj hljoins)).2

/-- After an action, too, only connections that have arrived can have failed. -/
theorem Sound.failed_step (c : ConnId) (hc : (r.step a).errored c = true) :
    c ∈ (r.step a).arrivals := by
  have hfailed := h.failed c
  have hnew := h.arrived c
  cases a <;> simp [Registry.step, Function.update_apply, Enabled, Pending] at ha hc ⊢ <;> grind

/-- Only an OPEN connection is told anything, and the viewer that arrives. -/
theorem Sound.informed_step (c : ConnId) (b : Bool) (hc : (r.step a).told c = some b) :
    c ∈ (r.step a).arrivals := by
  have hinformed := h.informed c
  have hnew := h.arrived c
  cases a <;> simp [Registry.step, Function.update_apply, Enabled] at ha hc ⊢ <;>
    grind [Hears, enter_readyState, setState_readyState, Function.update_apply]

/-- Every enabled action keeps the registry sound. -/
theorem Sound.step : (r.step a).Sound where
  arrived := h.arrived_step ha
  accepted := h.accepted_step ha
  slot := h.slot_step ha
  stored := h.stored_step ha
  mapped := h.mapped_step ha
  injective := h.injective_step ha
  failed := h.failed_step ha
  informed := h.informed_step ha

end

end Registry

end BrowCast
