import BrowCast.Runs.Channel
import BrowCast.Server.SentFrames

/-! # Passing on the viewers' input

What reaches the agent of the messages of its viewers. Each message that a viewer's handler does not
keep for itself goes to the socket in the agent slot, as it came and once, if that socket is OPEN;
the log of a socket is exactly what the messages of a run say, in the order in which the server
handled them. -/

namespace BrowCast

/-- The sender and the message of a relayed input. -/
def Outgoing.inputFrame : Outgoing → Option (ConnId × Message)
  | .input source message => some (source, message)
  | _ => none

/-- The message is one that the viewer's handler passes on: it parses, to a value other than `null`
that is no `client_info`. -/
def Message.isRelayed (message : Message) : Bool :=
  match message.json with
  | none | some .null => false
  | some msg => !msg.announcesClient

/-- A viewer's message is passed on when it parses, is not `null`, and is no `client_info`. -/
theorem Message.isRelayed_iff {message : Message} : message.isRelayed = true ↔
    ∃ msg, message.json = some msg ∧ msg ≠ .null ∧ msg.announcesClient = false := by
  unfold isRelayed
  rcases message.json with _ | msg
  · simp
  · by_cases hnull : msg = .null
    · subst hnull
      simp
    · cases msg <;> first | exact absurd rfl hnull | simp

namespace Server

variable (σ : Server)

/-- The inputs sent on a socket with their senders, oldest first. -/
def inputs (c : ConnId) : List (ConnId × Message) :=
  (σ.conn c).sent.filterMap Outgoing.inputFrame

/-- The inputs of one viewer sent on a socket. -/
def inputsFrom (v c : ConnId) : List Message := fromSource v (σ.inputs c)

/-- The inputs an event is to make for a socket. -/
def inputsFor (c : ConnId) : Event → List (ConnId × Message)
  | .message ws message _ =>
      match (σ.conn ws).acceptance with
      | some (.viewer _ session _) =>
          if message.isRelayed ∧ (σ.sessionAt session).agent = some c ∧
              (σ.conn c).readyState = .OPEN then
            [(ws, message)]
          else []
      | _ => []
  | _ => []

/-- The messages of a socket that are passed on, among those of a list of events. -/
def relayedMessages (v : ConnId) (es : List Event) : List Message :=
  es.flatMap fun
    | .message ws message _ => if ws = v ∧ message.isRelayed = true then [message] else []
    | _ => []

/-- The session object has the socket `a` in its agent slot, and that socket is OPEN. -/
def ServedBy (o : SessionRef) (a : ConnId) : Prop :=
  (σ.sessionAt o).agent = some a ∧ (σ.conn a).readyState = .OPEN

variable {σ} {ws v c a : ConnId} {k : SessionId} {o : SessionRef} {i : String}
  {message : Message} {now : ℕ} {e : Event}

/-! ## The inputs of one event -/

/-- What a viewer's message makes for a socket, before it is seen whether the socket is OPEN. -/
theorem inputs_viewerSending (c : ConnId) :
    (addressed c (σ.viewerSending ws o message).frames).filterMap Outgoing.inputFrame =
      if message.isRelayed ∧ (σ.sessionAt o).agent = some c then [(ws, message)] else [] := by
  by_cases hrelayed : message.isRelayed = true
  · obtain ⟨msg, hjson, hnull, hclient⟩ := Message.isRelayed_iff.mp hrelayed
    rw [viewerSending_of_ne_null hjson hnull, hclient, if_neg Bool.false_ne_true]
    cases hslot : (σ.sessionAt o).agent with
    | none => simp
    | some agent =>
        rw [addressed_cons]
        by_cases hc : agent = c
        · subst hc
          simp [hrelayed, Outgoing.inputFrame]
        · simp [hc]
  · -- a message that is kept sends a scale at most
    rw [if_neg fun h => hrelayed h.1]
    refine List.filterMap_eq_nil_iff.mpr fun f hf => ?_
    rcases mem_viewerSending_iff.mp (mem_addressed_iff.mp hf) with
      ⟨_, _, _, -, -, -, -, -, -, rfl⟩ | ⟨msg, hjson, hnull, hclient, -⟩
    · rfl
    · exact absurd (Message.isRelayed_iff.mpr ⟨msg, hjson, hnull, hclient⟩) hrelayed

/-- A message of a viewer adds what it is to send to the inputs of every connection. -/
theorem inputs_step_viewerMessage (hwf : σ.WellFormed)
    (hviewer : (σ.conn ws).acceptance = some (.viewer k o i)) (c : ConnId) :
    (σ.step (.message ws message now)).inputs c =
      σ.inputs c ++ σ.inputsFor c (.message ws message now) := by
  unfold inputs
  rw [step_viewerMessage hwf hviewer, conn_deliver, readyState_noteClient, sent_noteClient]
  simp only [List.filterMap_append, inputsFor, hviewer]
  congr 1
  by_cases hopen : (σ.conn c).readyState = .OPEN
  · rw [if_pos hopen, inputs_viewerSending]
    simp [hopen]
  · simp [hopen]

/-- An agent's message makes scales and copies, and no input. -/
theorem inputs_step_agentMessage (hwf : σ.WellFormed)
    (hagent : (σ.conn ws).acceptance = some (.agent k o)) (c : ConnId) :
    (σ.step (.message ws message now)).inputs c = σ.inputs c := by
  unfold inputs
  rw [step_agentMessage hwf hagent, conn_deliver, conn_noteScreen]
  simp only [List.filterMap_append]
  refine (congrArg _ ?_).trans (List.append_nil _)
  split
  · refine List.filterMap_eq_nil_iff.mpr fun f hf => ?_
    have hframe := mem_addressed_iff.mp hf
    rcases hjson : message.json with _ | msg
    · rw [hjson] at hframe
      cases hframe
    · by_cases hnull : msg = .null
      · subst hnull
        rw [hjson] at hframe
        cases hframe
      · rw [hjson, mem_agentSending_iff hnull] at hframe
        rcases hframe with ⟨-, hscreen⟩ | ⟨-, -, rfl⟩
        · obtain ⟨-, -, screen, scale, -, -, rfl⟩ := mem_screenSending hscreen
          rfl
        · rfl
  · rfl

/-- Events that are no messages pass nothing on. -/
theorem inputs_step_of_not_message (hwf : σ.WellFormed) (hσ : σ.Owned) (he : σ.Enabled e)
    (hno : e.isMessage ≠ true) (c : ConnId) : (σ.step e).inputs c = σ.inputs c := by
  obtain ⟨frames, hsent, hframes⟩ := (still_step hwf hσ he hno).sent c
  unfold inputs
  rw [hsent, List.filterMap_append]
  refine (congrArg _ (List.filterMap_eq_nil_iff.mpr fun f hf => ?_)).trans (List.append_nil _)
  have hnotice := hframes f hf
  cases f <;> first | rfl | cases hnotice

/-- **One event.** It adds to the inputs sent on a socket those it is to make. -/
theorem inputs_step (hwf : σ.WellFormed) (hσ : σ.Owned) (he : σ.Enabled e) (c : ConnId) :
    (σ.step e).inputs c = σ.inputs c ++ σ.inputsFor c e := by
  by_cases hmessage : e.isMessage = true
  · obtain ⟨ws, message, now, rfl⟩ := Event.eq_message_of_isMessage hmessage
    rcases hacc : (σ.conn ws).acceptance with _ | ⟨k, o⟩ | ⟨k, o, i⟩
    · rw [step_message_of_none hwf hacc]
      simp [inputsFor, hacc]
    · rw [inputs_step_agentMessage hwf hacc]
      simp [inputsFor, hacc]
    · exact inputs_step_viewerMessage hwf hacc c
  · have hnone : σ.inputsFor c e = [] := by
      cases e <;> first | rfl | exact absurd rfl hmessage
    rw [inputs_step_of_not_message hwf hσ he hmessage, hnone, List.append_nil]

/-- What an event sends on a socket, with the inputs among it. -/
theorem exists_frames_step (hwf : σ.WellFormed) (hσ : σ.Owned) (he : σ.Enabled e) (c : ConnId) :
    ∃ frames, ((σ.step e).conn c).sent = (σ.conn c).sent ++ frames ∧
      frames.filterMap Outgoing.inputFrame = σ.inputsFor c e := by
  obtain ⟨frames, hsent, -⟩ := (hσ.frame he).sent c
  rw [hσ.sent_before he c] at hsent
  refine ⟨frames, hsent, ?_⟩
  have hinputs := inputs_step hwf hσ he c
  rw [inputs, hsent, List.filterMap_append, inputs] at hinputs
  exact List.append_cancel_left hinputs

/-- An event makes an input for a socket only as the message of a viewer that it is the agent of. -/
theorem mem_inputsFor_iff {f : ConnId × Message} : f ∈ σ.inputsFor c e ↔
    ∃ ws message now k o i, e = .message ws message now ∧
      (σ.conn ws).acceptance = some (.viewer k o i) ∧ message.isRelayed = true ∧ σ.ServedBy o c ∧
      f = (ws, message) := by
  constructor
  · intro hf
    cases e with
    | message ws message now =>
        simp only [inputsFor] at hf
        split at hf
        · rename_i k o i hviewer
          split at hf
          · rename_i h
            exact ⟨ws, message, now, k, o, i, rfl, hviewer, h.1, h.2, List.mem_singleton.mp hf⟩
          · cases hf
        · cases hf
    | connect _ _ _ | unparsable _ | closing _ | pong _ | tick _ | error _ | close _ => cases hf
  · rintro ⟨ws, message, now, k, o, i, rfl, hviewer, hrelayed, hserved, rfl⟩
    simp only [inputsFor, hviewer]
    rw [if_pos ⟨hrelayed, hserved⟩]
    exact List.mem_singleton.mpr rfl

/-- A message makes one input for a socket at most, of itself. -/
theorem inputsFor_message_cases (σ : Server) (c ws : ConnId) (message : Message) (now : ℕ) :
    σ.inputsFor c (.message ws message now) = [] ∨
    σ.inputsFor c (.message ws message now) = [(ws, message)] := by
  simp only [inputsFor]
  split
  · split
    · exact Or.inr rfl
    · exact Or.inl rfl
  · exact Or.inl rfl

/-- An input reaches one socket at most. -/
theorem inputsFor_eq_nil_of_ne {d : ConnId} (hcd : c ≠ d) (hc : σ.inputsFor c e ≠ []) :
    σ.inputsFor d e = [] := by
  obtain ⟨f, hf⟩ := List.exists_mem_of_ne_nil _ hc
  obtain ⟨ws, message, now, k, o, i, rfl, hviewer, -, hserved, -⟩ := mem_inputsFor_iff.mp hf
  refine List.eq_nil_iff_forall_not_mem.mpr fun g hg => ?_
  obtain ⟨ws', message', now', k', o', i', heq, hviewer', -, hserved', -⟩ :=
    mem_inputsFor_iff.mp hg
  cases heq
  obtain ⟨-, rfl, -⟩ := Acceptance.viewer.inj (Option.some.inj (hviewer.symm.trans hviewer'))
  exact hcd (Option.some.inj (hserved.1.symm.trans hserved'.1))

end Server

open Server

/-! ## Runs -/

/-- The log of a run. -/
theorem inputs_after {es : List Event} {σ : Server}
    (hinv : relay.States (fun σ => σ.WellFormed ∧ σ.Owned) σ es)
    (hrun : relay.Steps relay.Enabled σ es) (c : ConnId) :
    (relay.after σ es).inputs c =
      σ.inputs c ++ (relay.labels (fun σ e => σ.inputsFor c e) σ es).flatten :=
  relay.record_after (fun σ => σ.inputs c) (fun σ e => σ.inputsFor c e)
    (GuardedMachine.States.steps relay (fun _ _ h he => inputs_step h.1 h.2 he c) hinv hrun)

/-- While a session is served by one agent, the messages of a viewer are its inputs, one for one. -/
theorem inputsFrom_labels {es : List Event} {σ : Server} {v a : ConnId} {k : SessionId}
    {o : SessionRef} {i : String} (hwf : σ.WellFormed)
    (hrun : relay.Steps relay.Enabled σ es)
    (hviewer : (σ.conn v).acceptance = some (.viewer k o i))
    (hserved : relay.States (fun σ => σ.ServedBy o a) σ es) :
    fromSource v (relay.labels (fun σ e => σ.inputsFor a e) σ es).flatten =
      relayedMessages v es := by
  induction es generalizing σ with
  | nil => rfl
  | cons e es ih =>
      have hrest := ih (wellFormed_step hwf hrun.1) hrun.2
        (acceptance_step_of_some hwf hrun.1 hviewer) hserved.2
      have hhead : fromSource v (σ.inputsFor a e) = relayedMessages v [e] := by
        cases e with
        | message ws message now =>
            by_cases hws : ws = v
            · subst hws
              simp only [inputsFor, hviewer, hserved.1.1, hserved.1.2, and_true, relayedMessages]
              by_cases hrelayed : message.isRelayed = true
              · simp [hrelayed, fromSource_singleton]
              · simp [hrelayed]
            · -- the message of another socket
              have hother : relayedMessages v [.message ws message now] = [] := by
                simp [relayedMessages, hws]
              rw [hother]
              refine List.filterMap_eq_nil_iff.mpr fun f hf => if_neg ?_
              obtain ⟨_, _, _, _, _, _, heq, -, -, -, rfl⟩ := mem_inputsFor_iff.mp hf
              cases heq
              exact hws
        | connect _ _ _ | unparsable _ | closing _ | pong _ | tick _ | error _ | close _ => rfl
      rw [GuardedMachine.labels, List.flatten_cons, fromSource_append, hhead]
      exact (congrArg _ hrest).trans (List.flatMap_append ..).symm

/-- **Input is passed on exactly.** In every run, what a socket was sent of the viewers' input is
what the messages say, in the order in which they were handled: each message that is passed on goes
once, as it came, to the socket in the agent slot of its viewer's session, if that is OPEN, and to
no other. So as long as one agent serves a session, no message of its viewers that is passed on is
lost, and none is repeated or overtaken. -/
theorem inputs_exact {es : List Event} (hrun : relay.IsRun es) :
    (∀ c, (relay.after relay.start es).inputs c =
      (relay.labels (fun σ e => σ.inputsFor c e) relay.start es).flatten) ∧
    relay.Steps (fun σ e => ∀ c d, c ≠ d → σ.inputsFor c e ≠ [] → σ.inputsFor d e = [])
      relay.start es ∧
    ∀ pre post v a k o i, es = pre ++ post →
      ((relay.after relay.start pre).conn v).acceptance = some (.viewer k o i) →
      relay.States (fun σ => σ.ServedBy o a) (relay.after relay.start pre) post →
      (relay.after relay.start es).inputsFrom v a =
        (relay.after relay.start pre).inputsFrom v a ++ relayedMessages v post := by
  have hinv := (relay_wellFormed hrun).and relay (relay_owned hrun)
  refine ⟨fun c => inputs_after hinv hrun c, ?_, ?_⟩
  · exact GuardedMachine.States.steps relay
      (fun _ _ _ _ _ _ hcd hc => inputsFor_eq_nil_of_ne hcd hc) hinv hrun
  rintro pre post v a k o i rfl hviewer hserved
  obtain ⟨hpre, hpost⟩ := (relay.steps_append _ _ _ _).mp hrun
  have hwf := GuardedMachine.States.last relay (relay_wellFormed hpre)
  have howned := GuardedMachine.States.last relay (relay_owned hpre)
  -- the run goes on from the states after its first part
  have hmid :
      relay.States (fun σ => σ.WellFormed ∧ σ.Owned) (relay.after relay.start pre) post := by
    refine relay.states_of_steps (C := relay.Enabled) ?_ ⟨hwf, howned⟩ hpost hpost
    intro σ e h he _
    exact ⟨wellFormed_step h.1 he, h.2.step he⟩
  rw [relay.after_append, inputsFrom, inputs_after hmid hpost, fromSource_append,
    inputsFrom_labels hwf hpost hviewer hserved]
  rfl

/-- A message of a viewer, with this text. -/
def keyMessage (key : String) : Message where
  data := "\x7b\"type\":\"input\",\"key\":\"" ++ key ++ "\"\x7d"
  json := some (.obj [("type", .str "input"), ("key", .str key)])

/-- Two viewers type at the same time. -/
theorem inputs_exact_twoViewers :
    (relay.after relay.start [.connect 0 ⟨some "/agent", .one "s"⟩ 0,
      .connect 1 ⟨some "/viewer", .one "s"⟩ 1, .connect 2 ⟨some "/viewer", .one "s"⟩ 2,
      .message 1 (keyMessage "a") 3, .message 2 (keyMessage "b") 3,
      .message 1 (keyMessage "c") 4]).inputsFrom 1 0 = [keyMessage "a", keyMessage "c"] :=
  (inputs_exact (by decide)).2.2
    [.connect 0 ⟨some "/agent", .one "s"⟩ 0, .connect 1 ⟨some "/viewer", .one "s"⟩ 1,
      .connect 2 ⟨some "/viewer", .one "s"⟩ 2]
    [.message 1 (keyMessage "a") 3, .message 2 (keyMessage "b") 3, .message 1 (keyMessage "c") 4]
    1 0 (.text "s") 0 "1" rfl (by decide) ⟨⟨rfl, rfl⟩, ⟨rfl, rfl⟩, ⟨rfl, rfl⟩, ⟨rfl, rfl⟩, trivial⟩

end BrowCast
