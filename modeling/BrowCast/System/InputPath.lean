import BrowCast.Server.Relays
import BrowCast.System.Channels

/-! # The way of the input

From the sockets of the pages to `SendInput`. The server passes the messages of the viewers on to
the agent, connections come and go, and messages are under way in between; still, what the agent has
injected are events of messages that its viewers have sent, each message at most once and those of a
socket in their order. -/

namespace BrowCast

open Web (PageEvent)

/-- The events that a frame of the server makes the agent inject. -/
def Outgoing.injects (S : Setting) (f : Outgoing) : List Input :=
  match f.received S.stringify with
  | some message => message.inputs S.host
  | none => []

/-- The agent's request is not that of a viewer. -/
def Setting.AsksAsAgent (S : Setting) : Prop :=
  ∀ parsedUrl, S.AgentRequests parsedUrl → parsedUrl.pathname ≠ some "/viewer"

namespace System

/-- The viewers' messages that the agent has received, with the connections they came from. -/
def handledInputs (s : System) : List (ConnId × Message) := s.handled.filterMap Outgoing.inputFrame

/-- Those on a connection that its peer has not received yet. -/
def comingOn (s : System) (a : ConnId) : List (ConnId × Message) :=
  ((s.server.conn a).sent.drop (s.heard a)).filterMap Outgoing.inputFrame

/-- Those that the agent has received or can still receive. -/
def passedInputs (s : System) : List (ConnId × Message) :=
  s.handledInputs ++ (s.link.map s.comingOn).getD []

variable {S : Setting} {s s' : System} {ws v a : ConnId} {e : Event}

/-! ## The record of the inputs -/

/-- What was passed to a connected agent is what it has handled and what still comes. -/
theorem passedInputs_of_link (hlink : s.link = some a) :
    s.passedInputs = s.handledInputs ++ s.comingOn a := by
  rw [passedInputs, hlink]
  rfl

/-- A step of the server adds the inputs that it makes for the connection. -/
theorem comingOn_server (s' : System) (h : Sound S s) (he : s.server.Enabled e)
    (hserver : s'.server = s.server.step e) (hheard : s'.heard = s.heard) (a : ConnId) :
    s'.comingOn a = s.comingOn a ++ s.server.inputsFor a e := by
  obtain ⟨frames, hsent, hinputs⟩ := Server.exists_frames_step h.wellFormed h.owned he a
  rw [comingOn, hserver, hheard, hsent, List.drop_append_of_le_length (h.heard a),
    List.filterMap_append, hinputs]
  rfl

/-- The same, of everything that has been passed to the agent. -/
theorem passedInputs_server (s' : System) (h : Sound S s) (he : s.server.Enabled e)
    (hserver : s'.server = s.server.step e) (hheard : s'.heard = s.heard)
    (hlink : s'.link = s.link) (hhandled : s'.handled = s.handled) :
    s'.passedInputs =
      s.passedInputs ++ (s.link.map fun a => s.server.inputsFor a e).getD [] := by
  unfold passedInputs handledInputs
  rw [hlink, hhandled]
  cases s.link with
  | none => simp
  | some a =>
      simp only [Option.map_some, Option.getD_some]
      rw [comingOn_server s' h he hserver hheard a, List.append_assoc]

/-- Events that are no messages pass nothing on. -/
theorem passedInputs_quiet (s' : System) (h : Sound S s) (he : s.server.Enabled e)
    (hmessage : e.isMessage = false) (hserver : s'.server = s.server.step e)
    (hheard : s'.heard = s.heard) (hlink : s'.link = s.link) (hhandled : s'.handled = s.handled) :
    s'.passedInputs = s.passedInputs := by
  have hnone : ∀ a, s.server.inputsFor a e = [] := by
    intro a
    cases e <;> first | rfl | cases hmessage
  rw [passedInputs_server s' h he hserver hheard hlink hhandled]
  cases s.link <;> simp [hnone]

/-- A new connection of the agent has nothing coming. -/
theorem passedInputs_connectAgent (h : Sound S s) {parsedUrl : ParsedUrl} {now : ℕ}
    (he : s.server.Enabled (.connect ws parsedUrl now)) (hlink : s.link = none) :
    (s.connectAgent ws parsedUrl now).passedInputs = s.passedInputs := by
  have hempty : s.comingOn ws = [] := by
    rw [comingOn, (h.owned.fresh ws he.2).1]
    exact congrArg (List.filterMap Outgoing.inputFrame) List.drop_nil
  have hcoming : (s.arrive .agent (.connect ws parsedUrl now)).comingOn ws = s.comingOn ws ++ [] :=
    comingOn_server (s.arrive .agent (.connect ws parsedUrl now)) h he rfl rfl ws
  rw [hempty] at hcoming
  rw [passedInputs_of_link rfl, passedInputs, hlink]
  exact congrArg (s.handledInputs ++ ·) hcoming

/-- A frame that the agent receives is no longer under way. -/
theorem passedInputs_hearAgent {f : Outgoing} (hlink : s.link = some ws)
    (hnext : s.nextFrame ws = some f) : (s.hearAgent S ws f).passedInputs = s.passedInputs := by
  have hlink' : (s.hearAgent S ws f).link = some ws := hlink
  rw [passedInputs_of_link hlink', passedInputs_of_link hlink]
  simp only [handledInputs, comingOn, hearAgent, heard_hear]
  rw [drop_eq_cons_of_next hnext, ← List.filterMap_append, ← List.filterMap_append,
    List.append_assoc]
  rfl

/-- A frame that somebody else receives does not matter to the agent. -/
theorem passedInputs_hear (hne : s.link ≠ some ws) : (s.hear ws).passedInputs = s.passedInputs := by
  unfold passedInputs handledInputs
  simp only [hear]
  cases hlink : s.link with
  | none => rfl
  | some a =>
      have hother : a ≠ ws := fun heq => hne (heq ▸ hlink)
      simp only [Option.map_some, Option.getD_some, comingOn, Function.update_of_ne hother]

/-! ## The invariant -/

/-- What holds of the input, everywhere on its way. -/
structure InputPath (S : Setting) (s : System) : Prop where
  sound : Sound S s
  traced : s.server.Traced
  /-- What is passed to the agent of a connection's messages is part of what the server has
  handled of them, in order. -/
  ordered : ∀ ws, (fromSource ws s.passedInputs).Sublist (s.taken ws)
  /-- The agent injects what it is told to. -/
  injected : s.agent.injected.flatten = s.handled.flatMap (Outgoing.injects S)
  /-- The agent has received its frames over its own connections. -/
  received : ∀ f ∈ s.handled, ∃ a, s.peer a = some .agent ∧ f ∈ (s.server.conn a).sent
  /-- The connections of the agent are not accepted as viewers. -/
  asAgent : S.AsksAsAgent → ∀ a k o i, s.peer a = some .agent →
    (s.server.conn a).acceptance ≠ some (.viewer k o i)

/-- What was received stays received when the server takes a step. -/
theorem InputPath.received_server (h : InputPath S s) (he : s.server.Enabled e)
    (hserver : s'.server = s.server.step e) (hhandled : s'.handled = s.handled)
    (hpeer : ∀ c, c ∈ s.server.arrivals → s'.peer c = s.peer c) :
    ∀ f ∈ s'.handled, ∃ a, s'.peer a = some .agent ∧ f ∈ (s'.server.conn a).sent := by
  intro f hf
  obtain ⟨a, hagent, hsent⟩ := h.received f (hhandled ▸ hf)
  obtain ⟨frames, hframes, -⟩ :=
    Server.exists_frames_step h.sound.wellFormed h.sound.owned he a
  refine ⟨a, (hpeer a (h.sound.arrived hagent)).trans hagent, ?_⟩
  rw [hserver, hframes]
  exact List.mem_append_left _ hsent

/-- A step of the server that is no arrival of an agent accepts none of its connections. -/
theorem InputPath.asAgent_server (h : InputPath S s) (he : s.server.Enabled e)
    (hserver : s'.server = s.server.step e)
    (hpeer : ∀ c, s'.peer c = some .agent → s.peer c = some .agent ∨
      ∃ parsedUrl now, e = .connect c parsedUrl now ∧ S.AgentRequests parsedUrl) :
    S.AsksAsAgent → ∀ a k o i, s'.peer a = some .agent →
      (s'.server.conn a).acceptance ≠ some (.viewer k o i) := by
  intro hasks a k o i hagent hviewer
  rw [hserver] at hviewer
  have hcases := Server.acceptance_step_cases h.sound.wellFormed he hviewer
  rcases hpeer a hagent with hbefore | ⟨parsedUrl, now, rfl, hrequest⟩
  · rcases hcases with hold | ⟨parsedUrl, now, rfl, -⟩
    · exact h.asAgent hasks a k o i hbefore hold
    · exact he.2 (h.sound.arrived hbefore)
  · -- the agent's request is accepted now, and not as a viewer
    rcases hcases with hold | ⟨parsedUrl', now', heq, hpath⟩
    · exact he.2 (h.sound.wellFormed.sound.accepted a _ hold).1
    · cases heq
      exact hasks parsedUrl hrequest hpath

/-- A connection arrives that is not the agent's. -/
theorem InputPath.arrive (h : InputPath S s) {peer : Peer} (he : s.server.Enabled e)
    (harrival : e.isArrival = true) (hagent : peer ≠ .agent)
    (hpeer : ∀ p i, peer = .viewer p i → ∀ c, s.peer c ≠ some (.viewer p i)) :
    InputPath S (s.arrive peer e) where
  sound := h.sound.arrive he harrival hpeer
  traced := h.traced.step h.sound.wellFormed h.sound.owned he
  ordered c := by
    rw [passedInputs_quiet (s.arrive peer e) h.sound he (Event.isMessage_of_isArrival harrival)
      rfl rfl rfl rfl]
    exact h.ordered c
  injected := h.injected
  received := h.received_server he rfl rfl fun c hc => by
    have hne : c ≠ e.subject := fun heq => Server.notMem_of_isArrival _ he harrival (heq ▸ hc)
    exact Function.update_of_ne hne _ _
  asAgent := h.asAgent_server he rfl fun c hc => by
    by_cases hcw : c = e.subject
    · subst hcw
      simp only [System.arrive, Function.update_self, Option.some.injEq] at hc
      exact absurd hc hagent
    · simp only [System.arrive, Function.update_of_ne hcw] at hc
      exact Or.inl hc

/-- The agent's client gets a connection. -/
theorem InputPath.connectAgent (h : InputPath S s) {parsedUrl : ParsedUrl} {now : ℕ}
    (he : s.server.Enabled (.connect ws parsedUrl now)) (hlink : s.link = none)
    (hrequest : S.AgentRequests parsedUrl) :
    InputPath S (s.connectAgent ws parsedUrl now) where
  sound := h.sound.agentArrives he
  traced := h.traced.step h.sound.wellFormed h.sound.owned he
  ordered c := by
    rw [passedInputs_connectAgent h.sound he hlink]
    exact h.ordered c
  injected := h.injected
  received := h.received_server he rfl rfl fun c hc => by
    have hne : c ≠ ws := fun heq => he.2 (heq ▸ hc)
    exact Function.update_of_ne hne _ _
  asAgent := h.asAgent_server he rfl fun c hc => by
    by_cases hcw : c = ws
    · subst hcw
      exact Or.inr ⟨parsedUrl, now, rfl, hrequest⟩
    · have hold : (s.connectAgent ws parsedUrl now).peer c = s.peer c :=
        Function.update_of_ne hcw _ _
      exact Or.inl (hold.symm.trans hc)

/-- The server handles a message. -/
theorem InputPath.handle (h : InputPath S s) {message : Message} {now : ℕ}
    (he : s.server.Enabled (.message ws message now))
    (hnext : s.nextMessage S ws = some message ∨ s.peer ws = some .stranger) :
    InputPath S (s.handle ws message now) where
  sound := h.sound.handle he hnext
  traced := h.traced.step h.sound.wellFormed h.sound.owned he
  ordered c := by
    rw [passedInputs_server (s.handle ws message now) h.sound he rfl rfl rfl rfl,
      fromSource_append]
    have hmore : (s.link.map fun a => s.server.inputsFor a (.message ws message now)).getD [] = [] ∨
        (s.link.map fun a => s.server.inputsFor a (.message ws message now)).getD [] =
          [(ws, message)] := by
      cases s.link with
      | none => exact Or.inl rfl
      | some a => exact s.server.inputsFor_message_cases a ws message now
    by_cases hc : c = ws
    · subst hc
      simp only [System.handle, Function.update_self]
      exact relay_sublist c (h.ordered c) hmore
    · -- the message of another connection
      have hnone : fromSource c ((s.link.map fun a =>
          s.server.inputsFor a (.message ws message now)).getD []) = [] := by
        rcases hmore with hmore | hmore
        · rw [hmore, fromSource_nil]
        · rw [hmore, fromSource_singleton, if_neg fun heq => hc heq.symm]
      simp only [System.handle, Function.update_of_ne hc]
      rw [hnone, List.append_nil]
      exact h.ordered c
  injected := h.injected
  received := h.received_server he rfl rfl fun _ _ => rfl
  asAgent := h.asAgent_server he rfl fun _ => Or.inl

/-- The agent receives a frame. -/
theorem InputPath.hearAgent (h : InputPath S s) {f : Outgoing} (hlink : s.link = some ws)
    (hnext : s.nextFrame ws = some f) (hexited : s.agent.exited = false) :
    InputPath S (s.hearAgent S ws f) where
  sound := { h.sound.hear hnext with }
  traced := h.traced
  ordered c := by
    rw [passedInputs_hearAgent hlink hnext]
    exact h.ordered c
  injected := by
    simp only [System.hearAgent, List.flatMap_append, List.flatMap_singleton, ← h.injected,
      Outgoing.injects]
    cases f.received S.stringify with
    | none => exact (List.append_nil _).symm
    | some message =>
        simp only [Agent.receive, hexited]
        exact injected_onMessage S.host message s.agent
  received g hg := by
    rcases List.mem_append.mp hg with hold | hlast
    · exact h.received g hold
    · obtain rfl := List.mem_singleton.mp hlast
      exact ⟨ws, h.sound.link ws hlink, List.mem_of_getElem? hnext⟩
  asAgent := h.asAgent

/-- A page receives a frame. -/
theorem InputPath.hear (h : InputPath S s) {f : Outgoing} (hne : s.link ≠ some ws)
    (hnext : s.nextFrame ws = some f) : InputPath S (s.hear ws) where
  sound := h.sound.hear hnext
  traced := h.traced
  ordered c := by
    rw [passedInputs_hear hne]
    exact h.ordered c
  injected := h.injected
  received := h.received
  asAgent := h.asAgent

/-- The agent loses its connection, and what was under way on it. -/
theorem InputPath.agentLeaves (h : InputPath S s) :
    InputPath S { s with link := none, connected := false } where
  sound := { h.sound with link := fun _ hlink => by cases hlink }
  traced := h.traced
  ordered c := by
    refine List.Sublist.trans ?_ (h.ordered c)
    rw [passedInputs, passedInputs, fromSource_append, fromSource_append]
    exact (List.Sublist.refl _).append (List.nil_sublist _)
  injected := h.injected
  received := h.received
  asAgent := h.asAgent

/-- A step of the server that no page and no agent takes part in. -/
theorem InputPath.server (h : InputPath S s) (he : s.server.Enabled e)
    (harrival : e.isArrival = false) (hmessage : e.isMessage = false) :
    InputPath S { s with server := s.server.step e } where
  sound := h.sound.server he harrival
  traced := h.traced.step h.sound.wellFormed h.sound.owned he
  ordered c := by
    rw [passedInputs_quiet { s with server := s.server.step e } h.sound he hmessage rfl rfl rfl rfl]
    exact h.ordered c
  injected := h.injected
  received := h.received_server he rfl rfl fun _ _ => rfl
  asAgent := h.asAgent_server he rfl fun _ => Or.inl

/-- **One event keeps the way of the input.** -/
theorem InputPath.step (h : InputPath S s) (heffect : Effect S s s') : InputPath S s' := by
  cases heffect with
  | page he _ => exact { h with sound := h.sound.page he }
  | arrive he harrival hagent hpeer => exact h.arrive he harrival hagent hpeer
  | receive hpeer hnext hmessage he =>
      have hpage : InputPath S (s.stepPage _ _) := { h with sound := h.sound.page he }
      exact hpage.hear (h.sound.link_ne hpeer) hnext
  | skip hpeer hnext _ => exact h.hear (h.sound.link_ne hpeer) hnext
  | main he => exact { h with sound := h.sound.main _ }
  | agentArrives he hlink hrequest => exact h.connectAgent he hlink hrequest
  | agentOpens => exact { h with sound := { h.sound with } }
  | agentHears hlink hnext hexited => exact h.hearAgent hlink hnext hexited
  | agentLeaves => exact h.agentLeaves
  | handle he hnext => exact h.handle he hnext
  | server he harrival hmessage => exact h.server he harrival hmessage

/-- At first there is no input. -/
theorem inputPath_start : InputPath S (network S).start where
  sound := sound_start
  traced := Server.traced_start
  ordered _ := List.Sublist.refl _
  injected := rfl
  received f hf := absurd hf List.not_mem_nil
  asAgent _ _ _ _ _ hagent := by cases hagent

/-! ## What the agent injects -/

/-- The agent injects what the viewers of its session have sent. -/
structure InjectsInput (S : Setting) (s : System) : Prop where
  /-- The agent injects the events of the viewers' messages it has received, and no others. -/
  injected : s.agent.injected.flatten = s.handledInputs.flatMap fun f => f.2.inputs S.host
  /-- They were sent on connections that are accepted as viewers of a session of which a connection
  of the agent is accepted as the agent. -/
  accepted : ∀ f ∈ s.handledInputs, ∃ a k o i, s.peer a = some .agent ∧
    (s.server.conn a).acceptance = some (.agent k o) ∧
    (s.server.conn f.1).acceptance = some (.viewer k o i)
  /-- Of what a page has sent on a socket, each message is received at most once, and in order. -/
  ordered : ∀ ws p i, s.peer ws = some (.viewer p i) →
    (fromSource ws s.handledInputs).Sublist
      ((s.sentOn p i).map fun v => ⟨S.stringify v, some v⟩)
  /-- There is one connection for the socket. -/
  single : ∀ c d p i, s.peer c = some (.viewer p i) → s.peer d = some (.viewer p i) → c = d

/-- A scale is of type `set_scale`. -/
theorem lookup_setScaleMembers (scale : Number) (originalWidth originalHeight : Option Json) :
    (setScaleMembers scale originalWidth originalHeight).lookup "type" =
      some (.str "set_scale") := by
  rw [setScaleMembers, Json.lookup_withMember, if_neg (by decide), Json.lookup_withMember,
    if_neg (by decide)]
  rfl

/-- A message of another type injects nothing. -/
theorem inputs_of_type_ne {message : Message} {v : Json} {type : String}
    (hjson : message.json = some v) (htype : v.member "type" = some (.str type))
    (hne : type ≠ "input") {host : Host} (hdocumented : host.json.Documented) :
    message.inputs host = [] := by
  unfold Message.inputs
  simp only [hjson, hdocumented.string "" htype, if_neg hne]

/-- A `set_scale` message is of no type that the agent knows. -/
theorem inputs_setScale {message : Message} {scale : Number}
    {originalWidth originalHeight : Option Json}
    (hjson : message.json = some (.obj (setScaleMembers scale originalWidth originalHeight)))
    {host : Host} (hdocumented : host.json.Documented) : message.inputs host = [] :=
  inputs_of_type_ne hjson (lookup_setScaleMembers scale originalWidth originalHeight) (by decide)
    hdocumented

/-- Copies of an agent's messages apart, a frame injects what the viewer's message in it says. -/
theorem injects_eq {f : Outgoing} (hcopy : f.copy = none) :
    f.injects S = f.inputFrame.toList.flatMap fun g => g.2.inputs S.host := by
  cases f with
  | forward source members => cases hcopy
  | input source message => exact (List.flatMap_singleton ..).symm
  | setScale scale originalWidth originalHeight =>
      let v : Json := .obj (setScaleMembers scale originalWidth originalHeight)
      have hjson : Message.json ⟨S.stringify v, some v⟩ = some v := rfl
      exact inputs_setScale hjson S.documented
  | agentStatus connected =>
      let v : Json := .obj [("type", .str "agent_status"), ("connected", .bool connected)]
      have hjson : Message.json ⟨S.stringify v, some v⟩ = some v := rfl
      exact inputs_of_type_ne hjson rfl (by decide) S.documented
  | ping | close _ _ => rfl

/-- The agent gets no copies. -/
theorem InputPath.copy_eq_none (h : InputPath S s) (hasks : S.AsksAsAgent) {f : Outgoing}
    (hf : f ∈ s.handled) : f.copy = none := by
  obtain ⟨a, hagent, hsent⟩ := h.received f hf
  cases f with
  | forward source members =>
      obtain ⟨e, k, o, i, message, now, msg, screen, hviewer, -⟩ := h.traced a _ hsent rfl
      exact absurd hviewer (h.asAgent hasks a k o i hagent)
  | _ => rfl

/-- The agent injects what the viewers of its session have sent, where it asks as an agent. -/
theorem InputPath.injectsInput (h : InputPath S s) (hasks : S.AsksAsAgent) :
    InjectsInput S s where
  injected := by
    rw [h.injected, handledInputs, List.filterMap_eq_flatMap_toList, List.flatMap_assoc]
    exact List.flatMap_congr fun f hf => injects_eq (h.copy_eq_none hasks hf)
  accepted := by
    intro f hf
    obtain ⟨g, hg, hinput⟩ := List.mem_filterMap.mp hf
    obtain ⟨a, hagent, hsent⟩ := h.received g hg
    cases g with
    | input source message =>
        obtain rfl := Option.some.inj hinput
        obtain ⟨e, k, o, i, now, hslot, hviewer, -⟩ := h.traced a _ hsent rfl
        exact ⟨a, k, o, i, hagent, hslot, hviewer⟩
    | _ => cases hinput
  ordered ws p i hpeer := by
    have hpassed : (fromSource ws s.handledInputs).Sublist (fromSource ws s.passedInputs) := by
      rw [passedInputs, fromSource_append]
      exact List.sublist_append_left _ _
    have hlog : s.outbox S ws = some ((s.sentOn p i).map fun v => ⟨S.stringify v, some v⟩) := by
      rw [outbox, hpeer]
    exact (hpassed.trans (h.ordered ws)).trans (h.sound.taken ws _ hlog).sublist
  single := h.sound.unique

/-! ## While one agent serves a session -/

/-- The agent is connected, by a connection that serves the session object. -/
def Serves (o : SessionRef) (a : ConnId) (s : System) : Prop :=
  s.link = some a ∧ s.server.ServedBy o a

/-- From the one state to the other, what the server has handled of a connection's messages has been
passed to the agent, as far as it is to be passed on. -/
def PassesAll (v : ConnId) (s s' : System) : Prop :=
  ∃ more, s'.taken v = s.taken v ++ more ∧
    fromSource v s'.passedInputs = fromSource v s.passedInputs ++ more.filter Message.isRelayed

/-- Nothing has to be passed where nothing was handled. -/
theorem passesAll_of_eq (htaken : s'.taken v = s.taken v)
    (hpassed : s'.passedInputs = s.passedInputs) : PassesAll v s s' :=
  ⟨[], by rw [htaken, List.append_nil], by rw [hpassed, List.filter_nil, List.append_nil]⟩

/-- Two spans in each of which everything is passed are one. -/
theorem PassesAll.trans {s'' : System} (h : PassesAll v s s') (h' : PassesAll v s' s'') :
    PassesAll v s s'' := by
  obtain ⟨more, htaken, hpassed⟩ := h
  obtain ⟨more', htaken', hpassed'⟩ := h'
  refine ⟨more ++ more', ?_, ?_⟩
  · rw [htaken', htaken, List.append_assoc]
  · rw [hpassed', hpassed, List.filter_append, List.append_assoc]

variable {k : SessionId} {o : SessionRef} {i : String}

/-- An accepted connection stays accepted as it was. -/
theorem acceptance_of_effect (h : Sound S s) (heffect : Effect S s s') {x : Acceptance}
    (hx : (s.server.conn v).acceptance = some x) : (s'.server.conn v).acceptance = some x := by
  cases heffect with
  | arrive he _ _ _ => exact Server.acceptance_step_of_some h.wellFormed he hx
  | agentArrives he _ _ => exact Server.acceptance_step_of_some h.wellFormed he hx
  | handle he _ => exact Server.acceptance_step_of_some h.wellFormed he hx
  | server he _ _ => exact Server.acceptance_step_of_some h.wellFormed he hx
  | page _ _ | receive _ _ _ _ | skip _ _ _ | main _ | agentOpens | agentHears _ _ _
    | agentLeaves => exact hx

/-- The message of a viewer goes to the agent that serves it. -/
theorem passesAll_handle (h : Sound S s) {message : Message} {now : ℕ}
    (he : s.server.Enabled (.message ws message now)) (hserves : Serves o a s)
    (hviewer : (s.server.conn v).acceptance = some (.viewer k o i)) :
    PassesAll v s (s.handle ws message now) := by
  have hpassed := passedInputs_server (s.handle ws message now) h he rfl rfl rfl rfl
  rw [hserves.1, Option.map_some, Option.getD_some] at hpassed
  by_cases hws : ws = v
  · subst hws
    refine ⟨[message], Function.update_self .., ?_⟩
    rw [hpassed, fromSource_append]
    simp only [Server.inputsFor, hviewer, hserves.2.1, hserves.2.2, and_true]
    by_cases hrelayed : message.isRelayed = true
    · simp [hrelayed, fromSource_singleton]
    · simp [hrelayed]
  · refine ⟨[], ?_, ?_⟩
    · rw [List.append_nil]
      exact Function.update_of_ne (Ne.symm hws) _ _
    · rw [hpassed, fromSource_append]
      rcases s.server.inputsFor_message_cases a ws message now with hnone | hone
      · rw [hnone, fromSource_nil, List.filter_nil]
      · rw [hone, fromSource_singleton, if_neg hws, List.filter_nil]

/-- **One event loses nothing**, as long as the connection that serves the session is the agent's,
before and after it. -/
theorem passesAll_step (h : Sound S s) (heffect : Effect S s s') (hserves : Serves o a s)
    (hserves' : Serves o a s') (hviewer : (s.server.conn v).acceptance = some (.viewer k o i)) :
    PassesAll v s s' := by
  cases heffect with
  | page _ _ | main _ | agentOpens => exact passesAll_of_eq rfl rfl
  | receive hpeer _ _ _ => exact passesAll_of_eq rfl (passedInputs_hear (h.link_ne hpeer))
  | skip hpeer _ _ => exact passesAll_of_eq rfl (passedInputs_hear (h.link_ne hpeer))
  | arrive he harrival _ _ =>
      exact passesAll_of_eq rfl (passedInputs_quiet _ h he (Event.isMessage_of_isArrival harrival)
        rfl rfl rfl rfl)
  | agentArrives _ hlink _ => cases hlink.symm.trans hserves.1
  | agentHears hlink hnext _ => exact passesAll_of_eq rfl (passedInputs_hearAgent hlink hnext)
  | agentLeaves => cases hserves'.1
  | handle he _ => exact passesAll_handle h he hserves hviewer
  | server he _ hmessage =>
      exact passesAll_of_eq rfl (passedInputs_quiet _ h he hmessage rfl rfl rfl rfl)

end System

/-- A value that is no array and no object, as text; of numbers the integers. -/
def scalarText : Json → String
  | .bool b => toString b
  | .num (.finite negative m) => (if negative then "-" else "") ++ toString m.num
  | .str s => "\"" ++ s ++ "\""
  | _ => "null"

/-- An object with such members, as text. -/
def flatText : Json → String
  | .obj members =>
      "\x7b" ++ ",".intercalate (members.map fun e => "\"" ++ e.1 ++ "\":" ++ scalarText e.2) ++
        "\x7d"
  | v => scalarText v

/-- An agent that joins: its host puts the path and the session id into the URL. -/
def joiningSetting : Setting where
  stringify := flatText
  dump := flatText
  browser := ⟨fun _ => true, false⟩
  https := false
  host := ⟨⟨1920, 1080, 0, 0, 1920, 1080⟩, fun _ => 0, .lowBits⟩
  documented := JsonLibrary.lowBits_documented
  serverHost := "10.0.0.2:8080/agent?sessionId=def_pas&_="

/-- In this setting the agent asks as an agent. -/
theorem asksAsAgent_joiningSetting : joiningSetting.AsksAsAgent := by
  rintro parsedUrl ⟨target, htarget, hparse⟩
  have hagent : requestTarget (serverUrl joiningSetting.serverHost) =
      some "/agent?sessionId=def_pas&_=:8080" := by decide
  obtain rfl := Option.some.inj (hagent.symm.trans htarget)
  have hurl : urlParse QueryString.sessionIdOf "/agent?sessionId=def_pas&_=:8080" =
      some ⟨some "/agent", .one "def_pas"⟩ := by decide
  obtain rfl := Option.some.inj (hurl.symm.trans hparse)
  decide

/-- The agent arrives, and then a viewer. -/
def bothArrive : List SystemEvent :=
  [.main (.initializeCompressor true), .main (.connect false),
    .agentArrives 0 ⟨some "/agent", .one "def_pas"⟩ 0, .agentOpens,
    .page 0 (.connect "10.0.0.2" "def_pas" true),
    .viewerArrives 0 0 1 ⟨some "/viewer", .one "def_pas"⟩ 1, .viewerOpens 1]

/-- The greeting of the viewer reaches the agent. -/
def greeting : List SystemEvent := [.handles 1 2, .agentHears]

/-- The viewer may greet the agent so. -/
theorem isRun_greeting : (network joiningSetting).IsRun (bothArrive ++ greeting) := by
  refine ⟨?_, ?_, ?_, ?_, ?_, ?_, ?_, ?_, ?_, trivial⟩
  · exact ⟨rfl, rfl, trivial⟩
  · exact ⟨rfl, rfl, trivial⟩
  · exact ⟨by decide, rfl, ⟨rfl, rfl⟩, "/agent?sessionId=def_pas&_=:8080", by decide, by decide⟩
  · exact ⟨rfl, rfl, rfl, rfl⟩
  · exact ⟨trivial, fun _ => PageEvent.noConfusion, fun _ _ => PageEvent.noConfusion⟩
  · refine ⟨by decide, ?_, _, rfl, rfl, "/viewer?sessionId=def_pas", by decide, by decide⟩
    intro c hc
    have hpeer : Function.update (fun _ => none) 0 (some Peer.agent) c =
        some (Peer.viewer 0 0) := hc
    rw [Function.update_apply] at hpeer
    split at hpeer <;> cases hpeer
  · exact ⟨0, 0, rfl, rfl⟩
  · exact ⟨_, rfl, by decide⟩
  · exact ⟨0, _, rfl, rfl, rfl, rfl, rfl⟩

/-- **Nothing is lost on the way to an agent that stays.** While the agent is connected and serves a
session, every message of the session's viewers that the server handles and is to pass on has been
received by the agent or is still coming to it, in the order in which it was sent. -/
theorem inputs_complete {S : Setting} {pre post : List SystemEvent}
    (hrun : (network S).IsRun (pre ++ post)) {v a : ConnId} {k : SessionId} {o : SessionRef}
    {i : String}
    (hviewer : (((network S).after (network S).start pre).server.conn v).acceptance =
      some (.viewer k o i))
    (hserves : (network S).States (System.Serves o a) ((network S).after (network S).start pre)
      post) :
    System.PassesAll v ((network S).after (network S).start pre)
      ((network S).after (network S).start (pre ++ post)) := by
  obtain ⟨hpre, hpost⟩ := ((network S).steps_append _ _ _ _).mp hrun
  have hsound := GuardedMachine.States.last (network S)
    (System.states_of_effect System.sound_start (fun _ _ h heffect => h.step heffect) hpre)
  rw [(network S).after_append]
  -- the viewer stays accepted, and the channels stay sound
  have hstates : (network S).States
      (fun s => System.Sound S s ∧ (s.server.conn v).acceptance = some (.viewer k o i))
      ((network S).after (network S).start pre) post := by
    refine (network S).states_of_steps (C := (network S).Enabled) ?_ ⟨hsound, hviewer⟩ hpost hpost
    intro s e h he _
    have heffect := System.effect_of_enabled he
    exact ⟨h.1.step heffect, System.acceptance_of_effect h.1 heffect h.2⟩
  refine (network S).related_after (fun s => System.passesAll_of_eq rfl rfl)
    (fun _ _ _ h h' => h.trans h') ?_
  refine (network S).steps_of_states (A := fun s => (System.Sound S s ∧
    (s.server.conn v).acceptance = some (.viewer k o i)) ∧ System.Serves o a s) ?_ hpost
    (GuardedMachine.States.and (network S) hstates hserves)
  intro s e h he h'
  exact System.passesAll_step h.1.1 (System.effect_of_enabled he) h.2 h'.2 h.1.2

/-- All of that greeting is passed on. -/
theorem inputs_complete_greeting :
    System.PassesAll 1 ((network joiningSetting).after (network joiningSetting).start bothArrive)
      ((network joiningSetting).after (network joiningSetting).start (bothArrive ++ greeting)) :=
  inputs_complete (a := 0) (k := .text "def_pas") (o := 0) (i := "1") isRun_greeting (by decide)
    ⟨⟨rfl, rfl, rfl⟩, ⟨rfl, rfl, rfl⟩, ⟨rfl, rfl, rfl⟩, trivial⟩

end BrowCast
