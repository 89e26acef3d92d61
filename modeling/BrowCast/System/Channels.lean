import BrowCast.System.Network
import BrowCast.Web.PageLog

/-! # The channels of the system

What one event can do to the system (`Effect`), and what holds of the channels in every state: the
server has handled a prefix of what the peer of a connection has sent, the peers have received no
more than the server has sent, and connections and their peers belong together. -/

namespace BrowCast

open Web (Page PageEvent SocketId)

namespace System

variable {S : Setting} {s s' : System}

/-! ## What an event can do -/

/-- The effects of the events, with what is known when they happen. -/
inductive Effect (S : Setting) (s : System) : System → Prop where
  | page {p : PageId} {e : PageEvent} (he : (s.page p).Enabled e)
      (hmessage : ∀ i m, e ≠ .message i m) : Effect S s (s.stepPage p e)
  | arrive {peer : Peer} {e : Event} (he : s.server.Enabled e) (harrival : e.isArrival = true)
      (hagent : peer ≠ .agent) (hpeer : ∀ p i, peer = .viewer p i →
        ∀ c, s.peer c ≠ some (.viewer p i)) : Effect S s (s.arrive peer e)
  | receive {ws : ConnId} {p : PageId} {i : SocketId} {f : Outgoing} {message : Message}
      (hpeer : s.peer ws = some (.viewer p i)) (hnext : s.nextFrame ws = some f)
      (hmessage : f.received S.stringify = some message)
      (he : (s.page p).Enabled (.message i message)) :
      Effect S s ((s.stepPage p (.message i message)).hear ws)
  | skip {ws : ConnId} {p : PageId} {i : SocketId} {f : Outgoing}
      (hpeer : s.peer ws = some (.viewer p i)) (hnext : s.nextFrame ws = some f)
      (hmessage : f.received S.stringify = none) : Effect S s (s.hear ws)
  | main {e : MainThread.Event} (he : s.main.Enabled e) : Effect S s (s.step S (.main e))
  | agentArrives {ws : ConnId} {parsedUrl : ParsedUrl} {now : ℕ}
      (he : s.server.Enabled (.connect ws parsedUrl now)) (hlink : s.link = none)
      (hrequest : S.AgentRequests parsedUrl) :
      Effect S s (s.connectAgent ws parsedUrl now)
  | agentOpens : Effect S s { s with connected := true }
  | agentHears {ws : ConnId} {f : Outgoing} (hlink : s.link = some ws)
      (hnext : s.nextFrame ws = some f) (hexited : s.agent.exited = false) :
      Effect S s (s.hearAgent S ws f)
  | agentLeaves : Effect S s { s with link := none, connected := false }
  | handle {ws : ConnId} {message : Message} {now : ℕ}
      (he : s.server.Enabled (.message ws message now))
      (hnext : s.nextMessage S ws = some message ∨ s.peer ws = some .stranger) :
      Effect S s (s.handle ws message now)
  | server {e : Event} (he : s.server.Enabled e) (harrival : e.isArrival = false)
      (hmessage : e.isMessage = false) : Effect S s { s with server := s.server.step e }

/-- **Every event has one of the effects.** -/
theorem effect_of_enabled {e : SystemEvent} (he : s.Enabled S e) : Effect S s (s.step S e) := by
  cases e with
  | page p e => exact .page he.1 he.2.2
  | viewerArrives p i ws parsedUrl now =>
      obtain ⟨hserver, hfree, -⟩ := he
      refine .arrive hserver rfl Peer.noConfusion fun q j heq => ?_
      cases heq
      exact hfree
  | viewerOpens ws =>
      obtain ⟨p, i, hpeer, hpage⟩ := he
      simp only [step, hpeer]
      exact .page hpage fun _ _ => PageEvent.noConfusion
  | viewerHears ws =>
      obtain ⟨p, i, f, hpeer, hnext, hpage⟩ := he
      simp only [step, hpeer, hnext]
      cases hmessage : f.received S.stringify with
      | some message => exact .receive hpeer hnext hmessage (hpage message hmessage)
      | none => exact .skip hpeer hnext hmessage
  | main e => exact .main he.1
  | agentArrives ws parsedUrl now => exact .agentArrives he.1 he.2.1 he.2.2.2
  | agentOpens => exact .agentOpens
  | agentHears =>
      obtain ⟨ws, f, hlink, -, hnext, hruns⟩ := he
      simp only [step, hlink, hnext]
      exact .agentHears hlink hnext hruns.1
  | agentLeaves => exact .agentLeaves
  | handles ws now =>
      obtain ⟨message, hnext, hserver⟩ := he
      simp only [step, hnext]
      exact .handle hserver (Or.inl hnext)
  | server e =>
      obtain ⟨hserver, hstranger⟩ := he
      cases e with
      | connect ws parsedUrl now =>
          exact .arrive hserver rfl Peer.noConfusion fun _ _ => Peer.noConfusion
      | unparsable ws => exact .arrive hserver rfl Peer.noConfusion fun _ _ => Peer.noConfusion
      | message ws message now => exact .handle hserver (Or.inr (hstranger ws message now rfl))
      | closing _ | pong _ | tick _ | error _ | close _ =>
          exact .server hserver rfl rfl

/-! ## The invariant -/

/-- What holds of the connections and their channels. -/
structure Sound (S : Setting) (s : System) : Prop where
  wellFormed : s.server.WellFormed
  owned : s.server.Owned
  /-- Nothing is known of connections that have not arrived. -/
  fresh : ∀ ws, ws ∉ s.server.arrivals →
    s.peer ws = none ∧ s.taken ws = [] ∧ s.said ws = []
  /-- A connection that has arrived has a peer. -/
  known : ∀ ws ∈ s.server.arrivals, s.peer ws ≠ none
  /-- The server handles what was sent, in order. -/
  taken : ∀ ws log, s.outbox S ws = some log → s.taken ws <+: log
  /-- Nobody receives more than was sent. -/
  heard : ∀ ws, s.heard ws ≤ (s.server.conn ws).sent.length
  /-- A socket has one connection. -/
  unique : ∀ c d p i, s.peer c = some (.viewer p i) → s.peer d = some (.viewer p i) → c = d
  /-- The link is a connection of the agent. -/
  link : ∀ ws, s.link = some ws → s.peer ws = some .agent

variable {ws c : ConnId} {e : Event}

/-- A connection with a peer has arrived. -/
theorem Sound.arrived (h : Sound S s) {peer : Peer} (hpeer : s.peer ws = some peer) :
    ws ∈ s.server.arrivals := by
  by_contra hnot
  rw [(h.fresh ws hnot).1] at hpeer
  cases hpeer

/-- The connection of a viewer is not the agent's. -/
theorem Sound.link_ne (h : Sound S s) {p : PageId} {i : SocketId}
    (hpeer : s.peer ws = some (.viewer p i)) : s.link ≠ some ws := by
  intro hlink
  cases hpeer.symm.trans (h.link ws hlink)

/-- The server takes back nothing that it has sent. -/
theorem sent_le_step (h : Sound S s) (he : s.server.Enabled e) (ws : ConnId) :
    (s.server.conn ws).sent.length ≤ ((s.server.step e).conn ws).sent.length := by
  obtain ⟨frames, hsent, -⟩ := Server.exists_frames_step h.wellFormed h.owned he ws
  rw [hsent, List.length_append]
  exact Nat.le_add_right _ _

/-- An arrival adds its socket. -/
theorem arrivals_arrive (h : Sound S s) (he : s.server.Enabled e) (harrival : e.isArrival = true) :
    (s.server.step e).arrivals = e.subject :: s.server.arrivals := by
  have harrivals := (h.owned.frame he).arrivals
  cases e with
  | connect _ _ _ | unparsable _ => exact harrivals
  | message _ _ _ | closing _ | pong _ | tick _ | error _ | close _ => cases harrival

/-- Other events add none. -/
theorem arrivals_step (h : Sound S s) (he : s.server.Enabled e) (harrival : e.isArrival = false) :
    (s.server.step e).arrivals = s.server.arrivals := by
  have harrivals := (h.owned.frame he).arrivals
  cases e with
  | connect _ _ _ | unparsable _ => cases harrival
  | message _ _ _ | closing _ | pong _ | tick _ | error _ | close _ => exact harrivals

/-- The server of the system takes a step. -/
theorem Sound.server (h : Sound S s) (he : s.server.Enabled e)
    (harrival : e.isArrival = false) :
    Sound S { s with server := s.server.step e } where
  wellFormed := Server.wellFormed_step h.wellFormed he
  owned := h.owned.step he
  fresh ws hws := h.fresh ws (arrivals_step h he harrival ▸ hws)
  known ws hws := h.known ws (arrivals_step h he harrival ▸ hws)
  taken := h.taken
  heard ws := (h.heard ws).trans (sent_le_step h he ws)
  unique := h.unique
  link := h.link

/-- A connection arrives. -/
theorem Sound.arrive (h : Sound S s) {peer : Peer} (he : s.server.Enabled e)
    (harrival : e.isArrival = true)
    (hpeer : ∀ p i, peer = .viewer p i → ∀ c, s.peer c ≠ some (.viewer p i)) :
    Sound S (s.arrive peer e) where
  wellFormed := Server.wellFormed_step h.wellFormed he
  owned := h.owned.step he
  fresh c hc := by
    have hne : c ≠ e.subject ∧ c ∉ s.server.arrivals := by
      rw [System.arrive, arrivals_arrive h he harrival, List.mem_cons, not_or] at hc
      exact hc
    obtain ⟨hnone, htaken, hsaid⟩ := h.fresh c hne.2
    exact ⟨(Function.update_of_ne hne.1 _ _).trans hnone, htaken, hsaid⟩
  known c hc := by
    rw [System.arrive, arrivals_arrive h he harrival] at hc
    simp only [System.arrive]
    by_cases hcw : c = e.subject
    · rw [hcw, Function.update_self]
      exact Option.some_ne_none peer
    · rw [Function.update_of_ne hcw]
      exact h.known c ((List.mem_cons.mp hc).resolve_left hcw)
  taken c log hlog := by
    by_cases hc : c = e.subject
    · subst hc
      show s.taken e.subject <+: log
      rw [(h.fresh _ (Server.notMem_of_isArrival _ he harrival)).2.1]
      exact List.nil_prefix
    · refine h.taken c log ?_
      rw [← hlog]
      simp only [outbox, System.arrive, Function.update_of_ne hc]
      rfl
  heard c := (h.heard c).trans (sent_le_step h he c)
  unique c d p i hc hd := by
    -- a socket that has a connection does not arrive
    have hold : ∀ b, Function.update s.peer e.subject (some peer) b = some (.viewer p i) →
        b ≠ e.subject → s.peer b = some (.viewer p i) := by
      intro b hb hne
      rwa [Function.update_of_ne hne] at hb
    have hnew : ∀ b, Function.update s.peer e.subject (some peer) e.subject = some (.viewer p i) →
        s.peer b ≠ some (.viewer p i) := by
      intro b hb
      rw [Function.update_self] at hb
      exact hpeer p i (Option.some.inj hb) b
    by_cases hcw : c = e.subject
    · subst hcw
      by_cases hdw : d = e.subject
      · exact hdw.symm
      · exact absurd (hold d hd hdw) (hnew d hc)
    · by_cases hdw : d = e.subject
      · subst hdw
        exact absurd (hold c hc hcw) (hnew c hd)
      · exact h.unique c d p i (hold c hc hcw) (hold d hd hdw)
  link c hc := by
    have hpeer := h.link c hc
    have hne : c ≠ e.subject := by
      rintro rfl
      exact Server.notMem_of_isArrival _ he harrival (h.arrived hpeer)
    exact (Function.update_of_ne hne _ _).trans hpeer

/-- A page takes a step. -/
theorem Sound.page (h : Sound S s) {p : PageId} {e : PageEvent} (he : (s.page p).Enabled e) :
    Sound S (s.stepPage p e) where
  wellFormed := h.wellFormed
  owned := h.owned
  fresh := h.fresh
  known := h.known
  taken c log hlog := by
    have hgrows : ∀ q i, s.sentOn q i <+: (s.stepPage p e).sentOn q i := by
      intro q i
      by_cases hq : q = p
      · subst hq
        simp only [sentOn, stepPage, Function.update_self]
        exact Page.fromSource_sent_prefix_step he i
      · simp only [sentOn, stepPage, Function.update_of_ne hq]
        exact List.prefix_refl _
    unfold outbox at hlog
    have hold := h.taken c
    unfold outbox at hold
    cases hpeer : s.peer c with
    | none =>
        simp only [stepPage, hpeer] at hlog
        cases hlog
    | some peer =>
        cases peer with
        | viewer q i =>
            simp only [stepPage, hpeer, Option.some.injEq] at hlog
            subst hlog
            rw [hpeer] at hold
            exact (hold _ rfl).trans ((hgrows q i).map _)
        | agent =>
            simp only [stepPage, hpeer, Option.some.injEq] at hlog
            subst hlog
            rw [hpeer] at hold
            exact hold _ rfl
        | stranger =>
            simp only [stepPage, hpeer] at hlog
            cases hlog
  heard := h.heard
  unique := h.unique
  link := h.link

/-- A frame has been received. -/
theorem Sound.hear (h : Sound S s) {f : Outgoing} (hnext : s.nextFrame ws = some f) :
    Sound S (s.hear ws) where
  wellFormed := h.wellFormed
  owned := h.owned
  fresh := h.fresh
  known := h.known
  taken := h.taken
  heard c := by
    by_cases hc : c = ws
    · subst hc
      simp only [System.hear, Function.update_self]
      exact (List.getElem?_eq_some_iff.mp hnext).1
    · simp only [System.hear, Function.update_of_ne hc]
      exact h.heard c
  unique := h.unique
  link := h.link

/-- A connection with an outbox has a peer. -/
theorem peer_of_outbox {log : List Message} (h : s.outbox S ws = some log) :
    ∃ peer, s.peer ws = some peer := by
  unfold outbox at h
  cases hpeer : s.peer ws with
  | none => simp only [hpeer, reduceCtorEq] at h
  | some peer => exact ⟨peer, rfl⟩

/-- Hearing a frame counts it. -/
@[simp] theorem heard_hear (s : System) (ws : ConnId) : (s.hear ws).heard ws = s.heard ws + 1 :=
  Function.update_self ..

/-- Hearing a frame on one connection leaves the count of the others. -/
theorem heard_hear_of_ne (s : System) (hc : c ≠ ws) : (s.hear ws).heard c = s.heard c :=
  Function.update_of_ne hc ..

/-- The server handles a message. -/
theorem Sound.handle (h : Sound S s) {message : Message} {now : ℕ}
    (he : s.server.Enabled (.message ws message now))
    (hnext : s.nextMessage S ws = some message ∨ s.peer ws = some .stranger) :
    Sound S (s.handle ws message now) where
  wellFormed := Server.wellFormed_step h.wellFormed he
  owned := h.owned.step he
  fresh c hc := by
    rw [System.handle, arrivals_step h he rfl] at hc
    obtain ⟨hnone, htaken, hsaid⟩ := h.fresh c hc
    have hne : c ≠ ws := by
      rintro rfl
      rcases hnext with hnext | hstranger
      · obtain ⟨log, hlog, -⟩ := Option.bind_eq_some_iff.mp hnext
        obtain ⟨peer, hpeer⟩ := peer_of_outbox hlog
        rw [hnone] at hpeer
        cases hpeer
      · rw [hnone] at hstranger
        cases hstranger
    exact ⟨hnone, (Function.update_of_ne hne _ _).trans htaken, hsaid⟩
  known c hc := h.known c (arrivals_step h he rfl ▸ hc)
  taken c log hlog := by
    have hold : s.outbox S c = some log := hlog
    simp only [System.handle]
    by_cases hc : c = ws
    · subst hc
      rw [Function.update_self]
      rcases hnext with hnext | hstranger
      · obtain ⟨log', hlog', hmessage⟩ := Option.bind_eq_some_iff.mp hnext
        obtain rfl := Option.some.inj (hlog'.symm.trans hold)
        exact prefix_concat_of_next (h.taken c log' hold) hmessage
      · -- nothing is known of what a stranger sends
        rw [outbox, hstranger] at hold
        cases hold
    · rw [Function.update_of_ne hc]
      exact h.taken c log hold
  heard c := (h.heard c).trans (sent_le_step h he c)
  unique := h.unique
  link := h.link

/-- The main thread of the agent takes a round. -/
theorem Sound.main (h : Sound S s) (e : MainThread.Event) : Sound S (s.step S (.main e)) where
  wellFormed := h.wellFormed
  owned := h.owned
  fresh c hc := by
    obtain ⟨hnone, htaken, hsaid⟩ := h.fresh c hc
    refine ⟨hnone, htaken, ?_⟩
    simp only [step]
    cases hlink : s.link with
    | none => exact hsaid
    | some ws =>
        have hne : c ≠ ws := by
          rintro rfl
          exact hc (h.arrived (h.link c hlink))
        simp only
        rwa [Function.update_of_ne hne]
  known := h.known
  taken c log hlog := by
    have hmore : s.said c <+: (s.step S (.main e)).said c := by
      simp only [step]
      cases s.link with
      | none => exact List.prefix_refl _
      | some ws =>
          simp only
          by_cases hc : c = ws
          · subst hc
            rw [Function.update_self]
            exact List.prefix_append _ _
          · exact (Function.update_of_ne hc _ s.said).symm ▸ List.prefix_refl _
    have hold := h.taken c
    unfold outbox at hold hlog
    have hpeers : (s.step S (.main e)).peer c = s.peer c := rfl
    rw [hpeers] at hlog
    cases hpeer : s.peer c with
    | none => simp only [hpeer, reduceCtorEq] at hlog
    | some peer =>
        rw [hpeer] at hold hlog
        cases peer with
        | viewer p i => exact hold log hlog
        | agent =>
            obtain rfl := Option.some.inj hlog
            exact (hold _ rfl).trans (hmore.map _)
        | stranger => cases hlog
  heard := h.heard
  unique := h.unique
  link := h.link

/-- The agent's client gets a connection. -/
theorem Sound.agentArrives (h : Sound S s) {parsedUrl : ParsedUrl} {now : ℕ}
    (he : s.server.Enabled (.connect ws parsedUrl now)) :
    Sound S (s.connectAgent ws parsedUrl now) :=
  have harrive : Sound S (s.arrive .agent (.connect ws parsedUrl now)) :=
    h.arrive he rfl fun _ _ => Peer.noConfusion
  { harrive with
    link := fun c hc => by
      obtain rfl := Option.some.inj hc
      exact Function.update_self _ _ _ }

/-- **One event keeps the channels sound.** -/
theorem Sound.step (h : Sound S s) (heffect : Effect S s s') : Sound S s' := by
  cases heffect with
  | page he _ => exact h.page he
  | arrive he harrival _ hpeer => exact h.arrive he harrival hpeer
  | receive hpeer hnext hmessage he => exact (h.page he).hear hnext
  | skip hpeer hnext _ => exact h.hear hnext
  | main _ => exact h.main _
  | agentArrives he _ _ => exact h.agentArrives he
  | agentOpens => exact { h with }
  | agentHears _ hnext _ => exact { h.hear hnext with }
  | agentLeaves => exact { h with link := fun _ hlink => by cases hlink }
  | handle he hnext => exact h.handle he hnext
  | server he harrival _ => exact h.server he harrival

/-- What holds at the start and is kept by every effect holds in every state of every run. -/
theorem states_of_effect {I : System → Prop} (hstart : I (network S).start)
    (hstep : ∀ s s', I s → Effect S s s' → I s') {es : List SystemEvent}
    (hrun : (network S).IsRun es) : (network S).States I (network S).start es :=
  (network S).states_of_invariant hstart
    (fun _ _ h he => hstep _ _ h (effect_of_enabled he)) hrun

/-- At first nothing is under way. -/
theorem sound_start : Sound S (network S).start where
  wellFormed := Server.wellFormed_start
  owned := Server.owned_start
  fresh _ _ := ⟨rfl, rfl, rfl⟩
  known _ hws := absurd hws List.not_mem_nil
  taken _ _ hlog := by cases hlog
  heard _ := Nat.zero_le _
  unique _ _ _ _ hc := by cases hc
  link _ hws := by cases hws

end System

end BrowCast
