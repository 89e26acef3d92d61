import BrowCast.Server.Ownership
import BrowCast.Server.Messages

/-! # Sessions are isolated

What happens to the sockets of one session id depends on the events of that id alone, and messages
are passed on between an agent and the viewers of one id only. -/

namespace BrowCast

namespace Server

variable (s : String) (σ τ : Server)

/-- The socket arrived with the session id `s`. -/
def OfSession (c : ConnId) : Prop := (σ.conn c).sessionId = some (.text s)

/-- The event concerns the session id `s`: a socket arrives with this id, or the event is about a
socket that did. -/
def Concerns : Event → Prop
  | .connect ws parsedUrl _ => parsedUrl.sessionId.key ws = some (.text s)
  | .unparsable _ => False
  | e => σ.OfSession s e.subject

instance (c : ConnId) : Decidable (OfSession s σ c) :=
  inferInstanceAs (Decidable ((σ.conn c).sessionId = some (.text s)))

instance (e : Event) : Decidable (Concerns s σ e) :=
  match e with
  | .connect ws parsedUrl _ =>
      inferInstanceAs (Decidable (parsedUrl.sessionId.key ws = some (.text s)))
  | .unparsable _ => .isFalse not_false
  | .closing ws | .message ws _ _ | .pong ws | .tick ws | .error ws | .close ws =>
      inferInstanceAs (Decidable (σ.OfSession s ws))

/-- The two states look alike to the session id `s`. -/
structure Alike : Prop where
  conn : ∀ c, σ.OfSession s c ∨ τ.OfSession s c → σ.conn c = τ.conn c
  sessionAt : ∀ o, σ.OfSession s o ∨ τ.OfSession s o → σ.sessionAt o = τ.sessionAt o
  sessions : σ.sessions.get? (.text s) = τ.sessions.get? (.text s)

variable {s σ τ} {e : Event}

/-- A state looks like itself. -/
theorem Alike.refl (s : String) (σ : Server) : Alike s σ σ :=
  ⟨fun _ _ => rfl, fun _ _ => rfl, rfl⟩

/-- States look alike to each other. -/
theorem Alike.symm (h : Alike s σ τ) : Alike s τ σ :=
  ⟨fun c hc => (h.conn c hc.symm).symm, fun o ho => (h.sessionAt o ho.symm).symm, h.sessions.symm⟩

/-- An event concerns an id when its socket has the id, once it has arrived. -/
theorem concerns_iff : Concerns s σ e ↔ (σ.before e).OfSession s e.subject := by
  cases e with
  | connect ws parsedUrl now =>
      show _ ↔ ((σ.arrive ws parsedUrl).conn ws).sessionId = _
      rw [conn_arrive_self]
      rfl
  | unparsable ws =>
      show False ↔ ((σ.arrive ws _).conn ws).sessionId = _
      rw [conn_arrive_self]
      exact ⟨False.elim, fun h => by cases h⟩
  | _ => exact Iff.rfl

/-- Sockets that have arrived are not touched by an arrival. -/
theorem conn_before (hσ : σ.Owned) (he : σ.Enabled e) {c : ConnId} (hc : σ.OfSession s c) :
    (σ.before e).conn c = σ.conn c := by
  have harrived : c ∈ σ.arrivals := hσ.arrived (by rw [hc]; exact Option.some_ne_none _)
  rcases before_cases e with hsame | ⟨parsedUrl, harrive⟩
  · rw [hsame]
  · rw [(harrive σ).1]
    have hne : c ≠ e.subject := fun h => (harrive σ).2 he (h ▸ harrived)
    exact conn_arrive_of_ne σ hne parsedUrl

/-- An arrival leaves the session objects as they are. -/
theorem sessionAt_before (σ : Server) (e : Event) : (σ.before e).sessionAt = σ.sessionAt := by
  cases e <;> rfl

/-- An arrival leaves the map of sessions as it is. -/
theorem sessions_before (σ : Server) (e : Event) : (σ.before e).sessions = σ.sessions := by
  cases e <;> rfl

/-- An event of no concern brings no socket with the id. -/
theorem ofSession_of_before (hnot : ¬ Concerns s σ e) {c : ConnId}
    (hc : (σ.before e).OfSession s c) : σ.OfSession s c := by
  rcases before_cases e with hsame | ⟨parsedUrl, harrive⟩
  · rwa [hsame] at hc
  · by_cases hcws : c = e.subject
    · subst hcws
      exact absurd (concerns_iff.mpr hc) hnot
    · rwa [(harrive σ).1, OfSession, conn_arrive_of_ne σ hcws] at hc

/-! ## Events of other sessions -/

/-- An event that does not concern the session leaves its part of the state alone. -/
theorem Alike.step_left (h : Alike s σ τ) (hσ : σ.Owned) (he : σ.Enabled e)
    (hnot : ¬ Concerns s σ e) : Alike s (σ.step e) τ := by
  have hframe := hσ.frame he
  -- a socket of the session in either state is one in `σ`
  have hold : ∀ c, (σ.step e).OfSession s c ∨ τ.OfSession s c → σ.OfSession s c := by
    rintro c (hc | hc)
    · exact ofSession_of_before hnot ((hframe.sessionId c).symm.trans hc)
    · rw [OfSession, h.conn c (Or.inr hc)]
      exact hc
  have hout : ∀ c, σ.OfSession s c → ¬ (σ.place e).members c := by
    intro c hc hmem
    have hkey := hmem.2
    rw [conn_before hσ he hc] at hkey
    exact hnot (concerns_iff.mpr (hkey.symm.trans hc))
  have hkey : (σ.place e).key ≠ some (.text s) := fun hk => hnot (concerns_iff.mpr hk)
  constructor
  · intro c hc
    rw [hframe.conn c (hout c (hold c hc)), conn_before hσ he (hold c hc)]
    exact h.conn c (Or.inl (hold c hc))
  · intro o ho
    rw [hframe.sessionAt o (hout o (hold o ho)), sessionAt_before]
    exact h.sessionAt o (Or.inl (hold o ho))
  · rw [hframe.sessions _ hkey, sessions_before]
    exact h.sessions

/-! ## Events of the session -/

/-- The sockets of the session are the same in states that look alike to it. -/
theorem Alike.compartment_eq (h : Alike s σ τ) (hσ : σ.Owned) (hτ : τ.Owned) (relays : Bool) :
    τ.compartment (some (.text s)) relays = σ.compartment (some (.text s)) relays := by
  have harrived : ∀ {υ : Server}, υ.Owned → ∀ c,
      (c ∈ υ.arrivals ∧ (υ.conn c).sessionId = some (.text s)) ↔ υ.OfSession s c := by
    intro υ hυ c
    refine ⟨fun hc => hc.2, fun hc => ⟨hυ.arrived ?_, hc⟩⟩
    rw [show (υ.conn c).sessionId = some (.text s) from hc]
    exact Option.some_ne_none _
  unfold compartment
  congr 1
  funext c
  refine propext ((harrived hτ c).trans (Iff.trans ?_ (harrived hσ c).symm))
  unfold OfSession
  constructor
  · intro hc
    rw [h.conn c (Or.inr hc)]
    exact hc
  · intro hc
    rw [← h.conn c (Or.inl hc)]
    exact hc

/-- States that look alike to the session agree on its compartment. -/
theorem Alike.agree (h : Alike s σ τ) (relays : Bool) :
    (σ.compartment (some (.text s)) relays).Agree σ τ where
  conn := fun c hc => h.conn c (Or.inl hc.2)
  sessionAt := fun o ho => h.sessionAt o (Or.inl ho.2)
  sessions := by
    rintro k hk
    obtain rfl := Option.some.inj hk
    exact h.sessions

/-- The arrival of an event's socket keeps the states alike. -/
theorem Alike.before (h : Alike s σ τ) (hσ : σ.Owned) (hτ : τ.Owned) (hes : σ.Enabled e)
    (het : τ.Enabled e) : Alike s (σ.before e) (τ.before e) := by
  rcases before_cases e with hsame | ⟨parsedUrl, harrive⟩
  · rw [hsame, hsame]
    exact h
  · rw [(harrive σ).1, (harrive τ).1]
    constructor
    · intro c hc
      by_cases hcws : c = e.subject
      · rw [hcws, conn_arrive_self, conn_arrive_self]
      · simp only [OfSession, conn_arrive_of_ne _ hcws] at hc
        rw [conn_arrive_of_ne σ hcws, conn_arrive_of_ne τ hcws]
        exact h.conn c hc
    · intro o ho
      rw [sessionAt_arrive, sessionAt_arrive]
      by_cases hows : o = e.subject
      · -- the object the newcomer may create is blank in both states
        rw [hows, (hσ.fresh _ ((harrive σ).2 hes)).2, (hτ.fresh _ ((harrive τ).2 het)).2]
      · simp only [OfSession, conn_arrive_of_ne _ hows] at ho
        exact h.sessionAt o ho
    · exact h.sessions

/-- After an event of the session, its sockets are members of the place of the event. -/
theorem mem_place (hσ : σ.Owned) (he : σ.Enabled e) (hconcerns : Concerns s σ e) {c : ConnId}
    (hc : (σ.step e).OfSession s c) : (σ.place e).members c := by
  have hbefore : ((σ.before e).conn c).sessionId = some (.text s) :=
    ((hσ.frame he).sessionId c).symm.trans hc
  refine ⟨(hσ.before he).arrived ?_, hbefore.trans (concerns_iff.mp hconcerns).symm⟩
  rw [hbefore]
  exact Option.some_ne_none _

/-- An event of the session does the same to its part of both states. -/
theorem Alike.step_both (h : Alike s σ τ) (hσ : σ.Owned) (hτ : τ.Owned) (hes : σ.Enabled e)
    (het : τ.Enabled e) (hconcerns : Concerns s σ e) : Alike s (σ.step e) (τ.step e) := by
  have hbefore := h.before hσ hτ hes het
  have hkey : ((σ.before e).conn e.subject).sessionId = some (.text s) := concerns_iff.mp hconcerns
  have hconn := hbefore.conn e.subject (Or.inl hkey)
  -- the event takes place in the same compartment in both states
  have hσplace : σ.place e = (σ.before e).compartment (some (.text s)) e.isMessage := by
    rw [place, hkey]
  have hτplace : τ.place e = σ.place e := by
    rw [hσplace, place, ← hconn, hkey]
    exact hbefore.compartment_eq (hσ.before hes) (hτ.before het) _
  have hagree : (σ.place e).Agree (σ.step e) (τ.step e) := by
    have hruns := (hσ.confines hes).agree ((hσ.before hes).closed _ _)
      (hτplace ▸ (hτ.before het).closed _ _) (hσplace ▸ hbefore.agree _)
    rw [step_eq_settle, step_eq_settle]
    generalize e.handler.run (σ.before e) = r at hruns ⊢
    generalize e.handler.run (τ.before e) = q at hruns ⊢
    -- whether the process crashed is not part of the session's state
    cases r <;> cases q <;> exact ⟨hruns.1, hruns.2, hruns.3⟩
  have hconcerns' : Concerns s τ e := by
    rw [concerns_iff, OfSession, ← hconn]
    exact hkey
  have hmem : ∀ c, (σ.step e).OfSession s c ∨ (τ.step e).OfSession s c → (σ.place e).members c :=
    fun c hc => hc.elim (mem_place hσ hes hconcerns)
      fun hc => hτplace ▸ mem_place hτ het hconcerns' hc
  exact ⟨fun c hc => hagree.conn c (hmem c hc), fun o ho => hagree.sessionAt o (hmem o ho),
    hagree.sessions _ (by rw [hσplace]; rfl)⟩

/-! ## Where relayed messages come from -/

/-- An accepted connection and the creator of its session object arrived with the id it was accepted
under. -/
theorem Owned.acceptance (h : σ.Owned) {c : ConnId} {a : Acceptance}
    (ha : (σ.conn c).acceptance = some a) :
    (σ.conn c).sessionId = some a.sessionId ∧ (σ.conn a.session).sessionId = some a.sessionId := by
  obtain ⟨l, hl, hla⟩ := List.exists_of_findSome?_eq_some ha
  have harrived : c ∈ σ.arrivals := by
    by_contra hnew
    rw [(h.fresh c hnew).1] at hl
    cases hl
  have hwithin := (h.closed (σ.conn c).sessionId false).listeners c ⟨harrived, rfl⟩ l hl
  cases l with
  | agentClose k o =>
      obtain rfl := Option.some.inj hla
      exact ⟨hwithin.2, hwithin.1.2.trans hwithin.2⟩
  | viewerClose k o i =>
      obtain rfl := Option.some.inj hla
      exact ⟨hwithin.2, hwithin.1.2.trans hwithin.2⟩
  | _ => cases hla

/-- The frame `f` reached the socket `c` by the event `e`: a message of a connection of the opposite
role, accepted under the same session id `k`. -/
def PassedOn (σ : Server) (e : Event) (c : ConnId) (k : SessionId) : Outgoing → Prop
  | .forward source members => ∃ o i message now msg screen,
      (σ.conn c).acceptance = some (.viewer k o i) ∧
      (σ.conn source).acceptance = some (.agent k o) ∧
      e = .message source message now ∧ message.json = some msg ∧ members = forwardCopy msg screen
  | .input source message => ∃ o i now,
      (σ.conn c).acceptance = some (.agent k o) ∧
      (σ.conn source).acceptance = some (.viewer k o i) ∧ e = .message source message now
  | _ => True

variable {ws c : ConnId} {session : SessionRef} {f : Outgoing} {k : SessionId}

/-- Of what an agent's message sends, only the copies for the stored viewers are relayed. -/
theorem mem_agentSending {json : Option Json}
    (hf : (c, f) ∈ (σ.agentSending ws session json).frames) (hrelayed : f.isRelayed = true) :
    ∃ msg screen, json = some msg ∧
      c ∈ (σ.sessionAt session).viewers.values ∧ f = .forward ws (forwardCopy msg screen) := by
  rcases json with _ | msg
  · cases hf
  · by_cases hnull : msg = .null
    · subst hnull
      cases hf
    · rw [agentSending_of_ne_null hnull] at hf
      -- scales are not relayed
      have hscales : (c, f) ∉
          (if msg.announcesScreen then σ.screenSending session msg else {}).frames := by
        intro hscale
        split at hscale
        · unfold screenSending at hscale
          split at hscale
          · obtain ⟨-, scale, hset⟩ := scaleUpdates_frames _ hscale
            rw [show f = _ from hset] at hrelayed
            cases hrelayed
          · cases hscale
        · cases hscale
      generalize (if msg.announcesScreen then σ.screenSending session msg else {}) = scales
        at hf hscales
      unfold Sending.andThen at hf
      split at hf
      · rcases List.mem_append.mp hf with hscale | hcopy
        · exact absurd hscale hscales
        · obtain ⟨v, hv, hcf⟩ := List.mem_map.mp hcopy
          cases hcf
          exact ⟨msg, _, rfl, hv, rfl⟩
      · exact absurd hf hscales

/-- Of what a viewer's message sends, only the input for the agent in the slot is relayed. -/
theorem mem_viewerSending {message : Message}
    (hf : (c, f) ∈ (σ.viewerSending ws session message).frames) (hrelayed : f.isRelayed = true) :
    (σ.sessionAt session).agent = some c ∧ f = .input ws message := by
  rcases hjson : message.json with _ | msg
  · simp [viewerSending, hjson] at hf
  · by_cases hnull : msg = .null
    · subst hnull
      simp [viewerSending, hjson] at hf
    · rw [viewerSending_of_ne_null hjson hnull] at hf
      split at hf
      · unfold clientSending at hf
        split at hf
        · split at hf
          · cases hf
          · obtain ⟨-, scale, hset⟩ := scaleUpdates_frames _ hf
            rw [show f = _ from hset] at hrelayed
            cases hrelayed
        · cases hf
      · split at hf
        · cases hf
        · rename_i agent hagent
          cases List.mem_singleton.mp hf
          exact ⟨hagent, rfl⟩

/-- What was sent when an event starts was sent before it. -/
theorem sent_before (hf : f ∈ ((σ.before e).conn c).sent) : f ∈ (σ.conn c).sent := by
  rcases before_cases e with hsame | ⟨parsedUrl, harrive⟩
  · rwa [hsame] at hf
  · rw [(harrive σ).1] at hf
    by_cases hcws : c = e.subject
    · rw [hcws, conn_arrive_self] at hf
      cases hf
    · rwa [conn_arrive_of_ne σ hcws] at hf

/-- Nothing was sent on a socket before it arrived. -/
theorem Owned.sent_before (hσ : σ.Owned) (he : σ.Enabled e) (c : ConnId) :
    ((σ.before e).conn c).sent = (σ.conn c).sent := by
  rcases before_cases e with hsame | ⟨parsedUrl, harrive⟩
  · rw [hsame]
  · rw [(harrive σ).1]
    by_cases hcws : c = e.subject
    · rw [hcws, (hσ.fresh _ ((harrive σ).2 he)).1, conn_arrive_self]
    · rw [conn_arrive_of_ne σ hcws parsedUrl]

/-- Connections accepted into one session object were accepted under one id: that of its creator. -/
theorem Owned.sessionId_eq (h : σ.Owned) {d : ConnId} {a b : Acceptance}
    (ha : (σ.conn c).acceptance = some a) (hb : (σ.conn d).acceptance = some b)
    (hsame : a.session = b.session) : a.sessionId = b.sessionId := by
  have hcreator := (h.acceptance ha).2
  rw [hsame] at hcreator
  exact Option.some.inj (hcreator.symm.trans (h.acceptance hb).2)

/-- A relayed frame that an agent's message sends. -/
theorem passedOn_of_agent (hwf : σ.WellFormed) (hσ : σ.Owned) {message : Message} {now : ℕ}
    {o : SessionRef} (hagent : (σ.conn ws).acceptance = some (.agent k o))
    (hrelayed : f.isRelayed = true) (hnew : f ∉ (σ.conn c).sent)
    (hsent : f ∈ ((σ.step (.message ws message now)).conn c).sent) :
    PassedOn σ (.message ws message now) c k f := by
  rw [step_agentMessage hwf hagent, conn_deliver, conn_noteScreen] at hsent
  have hf := (List.mem_append.mp hsent).resolve_left hnew
  split at hf
  · obtain ⟨msg, screen, hjson, hviewer, rfl⟩ :=
      mem_agentSending (mem_addressed_iff.mp hf) hrelayed
    -- a stored viewer was accepted into this session object
    obtain ⟨i, hi⟩ := (InsertionMap.mem_values_iff _ c).mp hviewer
    obtain ⟨l, hl⟩ := Acceptance.viewerPlace_eq_some.mp (hwf.sound.stored o i c hi).1
    obtain rfl : k = l := hσ.sessionId_eq hagent hl rfl
    exact ⟨o, i, message, now, msg, screen, hl, hagent, rfl, hjson, rfl⟩
  · cases hf

/-- A relayed frame that a viewer's message sends. -/
theorem passedOn_of_viewer (hwf : σ.WellFormed) (hσ : σ.Owned) {message : Message} {now : ℕ}
    {o : SessionRef} {i : String} (hviewer : (σ.conn ws).acceptance = some (.viewer k o i))
    (hrelayed : f.isRelayed = true) (hnew : f ∉ (σ.conn c).sent)
    (hsent : f ∈ ((σ.step (.message ws message now)).conn c).sent) :
    PassedOn σ (.message ws message now) c k f := by
  rw [step_viewerMessage hwf hviewer, conn_deliver, sent_noteClient] at hsent
  have hf := (List.mem_append.mp hsent).resolve_left hnew
  split at hf
  · obtain ⟨hagent, rfl⟩ := mem_viewerSending (mem_addressed_iff.mp hf) hrelayed
    -- the agent in the slot was accepted into this session object
    obtain ⟨l, hl⟩ := Acceptance.agentSession_eq_some.mp (hwf.sound.slot o c hagent).1
    obtain rfl : k = l := hσ.sessionId_eq hviewer hl rfl
    exact ⟨o, i, now, hl, hviewer, rfl⟩
  · cases hf

/-- **Where a relayed frame comes from.** A relayed frame that is sent at a step is the message of
the event, and sender and receiver were accepted in opposite roles under one session id. -/
theorem passedOn_of_new (hwf : σ.WellFormed) (hσ : σ.Owned) (he : σ.Enabled e)
    (hrelayed : f.isRelayed = true) (hnew : f ∉ (σ.conn c).sent)
    (hsent : f ∈ ((σ.step e).conn c).sent) : ∃ k, PassedOn σ e c k f := by
  by_cases hmessage : e.isMessage = true
  · obtain ⟨ws, message, now, rfl⟩ := Event.eq_message_of_isMessage hmessage
    rcases hacc : (σ.conn ws).acceptance with _ | ⟨k, o⟩ | ⟨k, o, i⟩
    · rw [step_message_of_none hwf hacc] at hsent
      exact absurd hsent hnew
    · exact ⟨k, passedOn_of_agent hwf hσ hacc hrelayed hnew hsent⟩
    · exact ⟨k, passedOn_of_viewer hwf hσ hacc hrelayed hnew hsent⟩
  · -- any other event sends nothing that is relayed
    obtain ⟨frames, happend, hplain⟩ := (hσ.frame he).sent c
    rw [happend] at hsent
    rcases List.mem_append.mp hsent with hold | hadded
    · exact absurd (sent_before hold) hnew
    · rw [hplain hmessage f hadded] at hrelayed
      cases hrelayed

/-- An accepted connection stays accepted as it was. -/
theorem acceptance_step_of_some (hwf : σ.WellFormed) (he : σ.Enabled e) {a : Acceptance}
    (ha : (σ.conn c).acceptance = some a) : ((σ.step e).conn c).acceptance = some a := by
  have hkept := (Registry.acceptance_step hwf.sound (enabled_action hwf he) c a).mpr
    (Or.inr (Or.inr ha))
  rw [← registry_step hwf he] at hkept
  exact hkept

/-- What was passed on stays so. -/
theorem PassedOn.step (hwf : σ.WellFormed) {e' : Event} (he : σ.Enabled e)
    (h : PassedOn σ e' c k f) : PassedOn (σ.step e) e' c k f := by
  cases f with
  | forward source members =>
      obtain ⟨o, i, message, now, msg, screen, hviewer, hagent, hfrom⟩ := h
      exact ⟨o, i, message, now, msg, screen, acceptance_step_of_some hwf he hviewer,
        acceptance_step_of_some hwf he hagent, hfrom⟩
  | input source message =>
      obtain ⟨o, i, now, hagent, hviewer, hfrom⟩ := h
      exact ⟨o, i, now, acceptance_step_of_some hwf he hagent,
        acceptance_step_of_some hwf he hviewer, hfrom⟩
  | _ => trivial

/-- A relayed frame has reached a socket of the session id its sender was accepted under. -/
theorem PassedOn.ofSession (hσ : σ.Owned) (hrelayed : f.isRelayed = true)
    (h : PassedOn σ e c k f) : (σ.conn c).sessionId = some k := by
  cases f with
  | forward source members =>
      obtain ⟨o, i, message, now, msg, screen, hviewer, -⟩ := h
      exact (hσ.acceptance hviewer).1
  | input source message =>
      obtain ⟨o, i, now, hagent, -⟩ := h
      exact (hσ.acceptance hagent).1
  | _ => cases hrelayed

end Server

open Server

/-- Every relayed frame of a run was passed on at some event of it. -/
theorem exists_passedOn {es : List Event} (hrun : relay.IsRun es) {c : ConnId} {f : Outgoing}
    (hf : f ∈ ((relay.after relay.start es).conn c).sent) (hrelayed : f.isRelayed = true) :
    ∃ e ∈ es, ∃ k, PassedOn (relay.after relay.start es) e c k f := by
  obtain ⟨pre, e, post, rfl, hnew, hsent⟩ :=
    relay.exists_step_of_after (P := fun σ => f ∈ (σ.conn c).sent) List.not_mem_nil hf
  obtain ⟨hpre, he, hpost⟩ := GuardedMachine.IsRun.split relay hrun
  have hwf := GuardedMachine.States.last relay (relay_wellFormed hpre)
  have howned := GuardedMachine.States.last relay (relay_owned hpre)
  obtain ⟨k, hpassed⟩ := passedOn_of_new hwf howned he hrelayed hnew hsent
  -- acceptances last until the end of the run
  have hend : relay.States (fun σ => σ.WellFormed ∧ PassedOn σ e c k f)
      (relay.step (relay.after relay.start pre) e) post := by
    refine relay.states_of_steps (C := relay.Enabled) ?_
      ⟨wellFormed_step hwf he, hpassed.step hwf he⟩ hpost hpost
    intro σ e' h he' _
    exact ⟨wellFormed_step h.1 he', h.2.step h.1 he'⟩
  refine ⟨e, List.mem_append_right _ List.mem_cons_self, k, ?_⟩
  rw [relay.after_append]
  exact (GuardedMachine.States.last relay hend).2

/-- **Sessions are isolated.** Two runs with the same events of the session id `s` end with the same
record for every socket of `s`: its listeners (from which the decision about it is read), its state
and everything sent on it. And every relayed message that reached a socket of `s` was sent by a
connection of the opposite role that was accepted under `s`. -/
theorem sessionIsolation {es fs : List Event} (hes : relay.IsRun es) (hfs : relay.IsRun fs)
    (s : String)
    (hview : relay.view (Concerns s) relay.start es = relay.view (Concerns s) relay.start fs) :
    (∀ c, OfSession s (relay.after relay.start es) c ∨ OfSession s (relay.after relay.start fs) c →
      (relay.after relay.start es).conn c = (relay.after relay.start fs).conn c) ∧
    ∀ c, OfSession s (relay.after relay.start es) c →
      ∀ f ∈ ((relay.after relay.start es).conn c).sent, f.isRelayed = true →
        ∃ e ∈ es, PassedOn (relay.after relay.start es) e c (.text s) f := by
  constructor
  · refine Alike.conn (relay.related_of_view_eq (I := Owned) (R := Alike s) ?_ ?_ ?_ ?_ owned_start
      owned_start (Alike.refl s _) hes hfs hview)
    · intro σ e h he
      exact h.step he
    · intro σ τ h
      exact h.symm
    · intro σ τ e hσ hτ h hes het hconcerns
      exact h.step_both hσ hτ hes het hconcerns
    · intro σ τ e hσ h he hnot
      exact h.step_left hσ he hnot
  · intro c hc f hf hrelayed
    obtain ⟨e, he, k, hpassed⟩ := exists_passedOn hes hf hrelayed
    have hk := hpassed.ofSession (GuardedMachine.States.last relay (relay_owned hes)) hrelayed
    obtain rfl : k = .text s := Option.some.inj (hk.symm.trans hc)
    exact ⟨e, he, hpassed⟩

/-- The agent of the session `s` sends a message to its viewer. -/
def alone : List Event :=
  [.connect 0 ⟨some "/agent", .one "s"⟩ 0, .connect 1 ⟨some "/viewer", .one "s"⟩ 1,
    .message 0 ⟨"[1]", some (.arr [.num (.ofMagnitude 1)])⟩ 2]

/-- The same with another session around. -/
def among : List Event :=
  [.connect 2 ⟨some "/viewer", .one "t"⟩ 0, .connect 0 ⟨some "/agent", .one "s"⟩ 0,
    .connect 3 ⟨some "/agent", .one "t"⟩ 1, .connect 1 ⟨some "/viewer", .one "s"⟩ 1,
    .message 3 ⟨"[1]", some (.arr [.num (.ofMagnitude 1)])⟩ 2,
    .message 0 ⟨"[1]", some (.arr [.num (.ofMagnitude 1)])⟩ 2, .closing 3]

/-- The agent of one session is sent the same with another session around. -/
theorem sessionIsolation_neighbours :
    (relay.after relay.start alone).conn 1 = (relay.after relay.start among).conn 1 := by
  have halone : relay.view (Concerns "s") relay.start alone = alone := by
    unfold alone
    rw [relay.view_cons_of (by decide), relay.view_cons_of (by decide),
      relay.view_cons_of (by decide), relay.view_nil]
  have hamong : relay.view (Concerns "s") relay.start among = alone := by
    unfold among alone
    rw [relay.view_cons_of_not (by decide), relay.view_cons_of (by decide),
      relay.view_cons_of_not (by decide), relay.view_cons_of (by decide),
      relay.view_cons_of_not (by decide), relay.view_cons_of (by decide),
      relay.view_cons_of_not (by decide), relay.view_nil]
  exact (sessionIsolation (by decide) (by decide) "s" (halone.trans hamong.symm)).1 1
    (Or.inl (by decide))

end BrowCast
