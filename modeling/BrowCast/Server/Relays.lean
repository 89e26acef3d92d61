import BrowCast.Server.Broadcast
import BrowCast.Server.InputRelay
import BrowCast.Server.Isolation

/-! # What one event relays

Whatever the clients send: a connection is accepted in the role that its path asks for, a relayed
frame is the message of an accepted connection of the other role, and the copies of an agent's
message that one event makes for a socket are one at most. -/

namespace BrowCast

/-- The path that a connection of this kind has asked for. -/
def Acceptance.path : Acceptance → String
  | .agent _ _ => "/agent"
  | .viewer _ _ _ => "/viewer"

/-! ## What a copy says -/

namespace Json

variable {key : String} {c : Char}

/-- The number of an element or of a character is no key that has another character than digits. -/
theorem toString_ne_of_not_isDigit (hc : c ∈ key.toList) (hdigit : c.isDigit = false) (n : ℕ) :
    toString n ≠ key := by
  rintro rfl
  rw [Nat.toString_eq_ofList_toDigits, String.toList_ofList] at hc
  rw [Nat.isDigit_of_mem_toDigits (by decide) (by decide) hc] at hdigit
  cases hdigit

/-- The decimal keys of an indexed list contain no name with another character in it. -/
theorem lookup_map_toString {α : Type*} (hc : c ∈ key.toList) (hdigit : c.isDigit = false)
    (f : α → Json) (indexed : List (α × ℕ)) :
    (indexed.map fun e => (toString e.2, f e.1)).lookup key = none := by
  induction indexed with
  | nil => rfl
  | cons e es ih =>
      have hne := (toString_ne_of_not_isDigit hc hdigit e.2).symm
      rw [List.map_cons, lookup_cons_eq_ite, if_neg hne, ih]

/-- The members that `{ ...value }` copies are those that the value has. -/
theorem lookup_spread (hc : c ∈ key.toList) (hdigit : c.isDigit = false) (v : Json) :
    (spread v).lookup key = v.member key := by
  cases v with
  | obj members => rfl
  | arr elements => exact lookup_map_toString hc hdigit (fun v => v) _
  | str s => exact lookup_map_toString hc hdigit (fun d => .str (String.singleton d)) _
  | null | bool _ | num _ => rfl

end Json

/-- A copy has the members of the message, the dimensions apart. -/
theorem lookup_forwardCopy_of_ne {key : String} {c : Char} (hc : c ∈ key.toList)
    (hdigit : c.isDigit = false) (hheight : key ≠ "originalHeight") (hwidth : key ≠ "originalWidth")
    (msg : Json) (agentScreen : Option AgentScreen) :
    (forwardCopy msg agentScreen).lookup key = msg.member key := by
  rw [lookup_forwardCopy, if_neg hheight, if_neg hwidth, Json.lookup_spread hc hdigit]

namespace Server

variable {σ : Server} {ws c v : ConnId} {e : Event} {k : SessionId}

/-! ## Acceptance -/

/-- A connection is accepted when it arrives, by its path, or was accepted before. -/
theorem acceptance_step_cases (hwf : σ.WellFormed) (he : σ.Enabled e) {a : Acceptance}
    (ha : ((σ.step e).conn c).acceptance = some a) :
    (σ.conn c).acceptance = some a ∨
      ∃ parsedUrl now, e = .connect c parsedUrl now ∧ parsedUrl.pathname = some a.path := by
  have hregistry : (σ.step e).registry.acceptance c = some a := ha
  rw [registry_step hwf he] at hregistry
  rcases (Registry.acceptance_step hwf.sound (enabled_action hwf he) c a).mp hregistry with
    ⟨l, haction, rfl⟩ | ⟨l, i, haction, rfl⟩ | hold
  · obtain ⟨parsedUrl, now, rfl, hverdict⟩ := action_eq_admitAgent_iff.mp haction
    exact Or.inr ⟨parsedUrl, now, rfl, ((verdict_eq_agent_iff ..).mp hverdict).2.1⟩
  · obtain ⟨parsedUrl, now, rfl, -, hverdict⟩ := action_eq_admitViewer_iff.mp haction
    exact Or.inr ⟨parsedUrl, now, rfl, ((verdict_eq_viewer_iff ..).mp hverdict).2⟩
  · exact Or.inl hold

/-! ## Relayed frames -/

/-- Every relayed frame on a socket came by some event from a connection of the other role. -/
def Traced (σ : Server) : Prop :=
  ∀ c, ∀ f ∈ (σ.conn c).sent, f.isRelayed = true → ∃ e k, PassedOn σ e c k f

/-- At first nothing was sent, so everything sent can be traced. -/
theorem traced_start : relay.start.Traced := fun _ _ hf => absurd hf List.not_mem_nil

/-- Every step sends only frames that can be traced. -/
theorem Traced.step (h : σ.Traced) (hwf : σ.WellFormed) (hσ : σ.Owned) (he : σ.Enabled e) :
    (σ.step e).Traced := by
  intro c f hf hrelayed
  by_cases hold : f ∈ (σ.conn c).sent
  · obtain ⟨e', k, hpassed⟩ := h c f hold hrelayed
    exact ⟨e', k, hpassed.step hwf he⟩
  · obtain ⟨k, hpassed⟩ := passedOn_of_new hwf hσ he hrelayed hold hf
    exact ⟨e, k, hpassed.step hwf he⟩

/-! ## Copies -/

/-- The copies of an agent's message for one socket. -/
theorem copies_agentSending_cases (hwf : σ.WellFormed) (ws v : ConnId) (o : SessionRef)
    (json : Option Json) :
    (addressed v (σ.agentSending ws o json).frames).filterMap Outgoing.copy = [] ∨
      ∃ msg screen, json = some msg ∧
        (addressed v (σ.agentSending ws o json).frames).filterMap Outgoing.copy =
          [(ws, forwardCopy msg screen)] := by
  rcases json with _ | msg
  · exact Or.inl rfl
  by_cases hnull : msg = .null
  · subst hnull
    exact Or.inl rfl
  by_cases hstopped : msg.announcesScreen = true ∧ ¬ σ.ScreenAccepted o msg
  · exact Or.inl (copies_agentSending_of_stopped hstopped.1 hstopped.2 v)
  · have haccepted : msg.announcesScreen = true → σ.ScreenAccepted o msg :=
      fun hscreen => by_contra fun hnot => hstopped ⟨hscreen, hnot⟩
    rw [copies_agentSending hnull haccepted]
    by_cases hv : v ∈ (σ.sessionAt o).viewers.values
    · rw [count_viewers hwf hv]
      exact Or.inr ⟨msg, _, rfl, rfl⟩
    · rw [List.count_eq_zero_of_not_mem hv]
      exact Or.inl rfl

/-- **The copies of one event.** For each socket there is one at most: of the message of the event,
with the dimensions of some screen. -/
theorem copies_step_cases (hwf : σ.WellFormed) (hσ : σ.Owned) (he : σ.Enabled e) (v : ConnId) :
    (σ.step e).copies v = σ.copies v ∨
      ∃ ws message now msg screen, e = .message ws message now ∧ message.json = some msg ∧
        (σ.step e).copies v = σ.copies v ++ [(ws, forwardCopy msg screen)] := by
  by_cases hmessage : e.isMessage = true
  · obtain ⟨ws, message, now, rfl⟩ := Event.eq_message_of_isMessage hmessage
    rcases hacc : (σ.conn ws).acceptance with _ | ⟨k, o⟩ | ⟨k, o, i⟩
    · exact Or.inl (congrArg (fun τ => τ.copies v) (step_message_of_none hwf hacc ..))
    · rw [copies_step_agentMessage hwf hacc]
      by_cases hopen : (σ.conn v).readyState = .OPEN
      · rw [if_pos hopen]
        rcases copies_agentSending_cases hwf ws v o message.json with
          hnone | ⟨msg, screen, hjson, hone⟩
        · rw [hnone, List.append_nil]
          exact Or.inl rfl
        · rw [hone]
          exact Or.inr ⟨ws, message, now, msg, screen, rfl, hjson, rfl⟩
      · rw [if_neg hopen, List.append_nil]
        exact Or.inl rfl
    · exact Or.inl (copies_step_viewerMessage hwf hacc v)
  · exact Or.inl (copies_step_of_not_message hσ he hmessage v)

end Server

end BrowCast
