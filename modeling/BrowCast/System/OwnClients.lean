import BrowCast.Server.PlainMessages
import BrowCast.System.FramePath

/-! # The pages and the agent among themselves

Runs in which no client of another kind connects. What the pages and the agent say is known then,
and every message fits what its receiver expects: no handler of the server fails, every viewer gets
every message of its agent, no scale is ever negotiated, and nothing a page sends ends the agent or
takes its source away. -/

namespace BrowCast

open Web (Page PageEvent SocketId)

/-! ## What is said -/

/-- A message of a page or of the agent. -/
def Message.IsOwn (message : Message) : Prop :=
  ∃ v, message.json = some v ∧ (Page.Says v ∨ ∃ m : AgentMessage, v = m.json)

/-- The types of these messages, and of the server's status messages. -/
def ownTypes : List String := ["viewer_ready", "input", "screen_info", "frame", "agent_status"]

/-- The members of an object with this type, which is one of them. -/
structure HasOwnType (members : List (String × Json)) (type : String) : Prop where
  lookup : members.lookup "type" = some (.str type)
  mem : type ∈ ownTypes

/-- They are such objects, and a screen in them can be reported. -/
theorem Message.IsOwn.exists_type {message : Message} (h : message.IsOwn) :
    ∃ members type, message.json = some (.obj members) ∧ HasOwnType members type ∧
      (type = "screen_info" → (screenOf (.obj members)).printable = true) := by
  obtain ⟨v, hjson, hsaid | ⟨m, rfl⟩⟩ := h
  · cases hsaid with
    | ready sessionId =>
        exact ⟨_, "viewer_ready", hjson, ⟨rfl, by decide⟩, fun heq => absurd heq (by decide)⟩
    | input event rect width height =>
        have htype : (event.object rect width height).member "type" = some (.str "input") :=
          (event.member_object rect width height "type").trans (if_pos rfl)
        exact ⟨_, "input", hjson, ⟨htype, by decide⟩, fun heq => absurd heq (by decide)⟩
  · cases m with
    | screenInfo _ _ _ _ => exact ⟨_, "screen_info", hjson, ⟨rfl, by decide⟩, fun _ => rfl⟩
    | frame _ _ _ => exact ⟨_, "frame", hjson, ⟨rfl, by decide⟩, fun heq => absurd heq (by decide)⟩

/-- They are plain messages to the server. -/
theorem Message.IsOwn.exists_plain {message : Message} (h : message.IsOwn) :
    ∃ msg, message.IsPlain msg := by
  obtain ⟨members, type, hjson, htype, hprintable⟩ := h.exists_type
  refine ⟨.obj members, hjson, Json.noConfusion, ?_, ?_⟩
  · have hne : type ≠ "client_info" := by
      rintro rfl
      exact absurd htype.mem (by decide)
    rw [Json.announcesClient, Json.member, htype.lookup]
    exact beq_false_of_ne hne
  · intro hscreen
    rw [Json.announcesScreen, Json.member, htype.lookup] at hscreen
    exact hprintable (eq_of_beq hscreen)

/-- The agent stays and keeps its source when it receives an object of one of the types. -/
theorem keeps_receive {members : List (String × Json)} {type : String}
    (htype : HasOwnType members type) {host : Host} (hdocumented : host.json.Documented)
    {message : Message} (hjson : message.json = some (.obj members)) (a : Agent)
    (hexited : a.exited = false) : (a.receive host message).exited = false ∧
      (a.receive host message).selected_hwnd = a.selected_hwnd := by
  have hvalue : host.json.valueString (.obj members) "type" "" = .ok type :=
    hdocumented.string "" htype.lookup
  have hne : type ≠ "close_connection" ∧ type ≠ "toggle_fullscreen" := by
    constructor <;> rintro rfl <;> exact absurd htype.mem (by decide)
  obtain ⟨hexit, hselected⟩ := keeps_onMessage host hjson hvalue hne.1 hne.2 a
  rw [Agent.receive, if_neg (by simp [hexited])]
  exact ⟨hexit.trans hexited, hselected⟩

/-! ## The invariant -/

/-- The event is not the arrival of a client of another kind. -/
def SystemEvent.isOwn : SystemEvent → Bool
  | .server e => !e.isArrival
  | _ => true

namespace System

/-- What holds while there are no other clients. -/
structure Own (S : Setting) (s : System) : Prop where
  inputs : InputPath S s
  frames : FramePath S s
  noStranger : ∀ ws, s.peer ws ≠ some .stranger
  /-- Everything that a page has sent is what pages say. -/
  said : ∀ p, ∀ f ∈ (s.page p).sent, Page.Says f.2
  /-- Everything that the server has handled was said by a page or by the agent. -/
  spoken : ∀ ws, ∀ message ∈ s.taken ws, message.IsOwn
  unscaled : s.server.Unscaled
  running : s.agent.exited = false

variable {S : Setting} {s s' : System} {ws a : ConnId} {e : SystemEvent}

/-- The next message of a connection was said by a page or by the agent. -/
theorem Own.isOwn_next (h : Own S s) {message : Message}
    (hnext : s.nextMessage S ws = some message) : message.IsOwn := by
  obtain ⟨log, hlog, hmessage⟩ := Option.bind_eq_some_iff.mp hnext
  have hmem : message ∈ log := List.mem_of_getElem? hmessage
  unfold outbox at hlog
  cases hpeer : s.peer ws with
  | none => simp only [hpeer, reduceCtorEq] at hlog
  | some peer =>
      rw [hpeer] at hlog
      cases peer with
      | viewer p i =>
          obtain rfl := Option.some.inj hlog
          obtain ⟨v, hv, rfl⟩ := List.mem_map.mp hmem
          exact ⟨v, rfl, Or.inl (h.said p (i, v) ((mem_fromSource i).mp hv))⟩
      | agent =>
          obtain rfl := Option.some.inj hlog
          obtain ⟨m, -, rfl⟩ := List.mem_map.mp hmem
          exact ⟨m.json, rfl, Or.inr ⟨m, rfl⟩⟩
      | stranger => cases hlog

/-- The next message of the agent is of one of the types. -/
theorem Own.type_next (h : Own S s) {f : Outgoing} {message : Message} (hlink : s.link = some ws)
    (hnext : s.nextFrame ws = some f) (hmessage : f.received S.stringify = some message) :
    ∃ members type, message.json = some (.obj members) ∧ HasOwnType members type := by
  have hsent : f ∈ (s.server.conn ws).sent := List.mem_of_getElem? hnext
  cases f with
  | agentStatus connected =>
      obtain rfl := Option.some.inj hmessage
      exact ⟨_, "agent_status", rfl, rfl, by decide⟩
  | ping | close _ _ => cases hmessage
  | setScale scale originalWidth originalHeight =>
      exact absurd hsent (h.unscaled.sent ws scale originalWidth originalHeight)
  | input source message' =>
      obtain rfl := Option.some.inj hmessage
      -- it is coming to the agent, so it was handled
      have hcoming : (source, message') ∈ s.passedInputs := by
        rw [passedInputs_of_link hlink, comingOn, drop_eq_cons_of_next hnext]
        exact List.mem_append_right _ List.mem_cons_self
      have htaken := (h.inputs.ordered source).subset ((mem_fromSource source).mpr hcoming)
      obtain ⟨members, type, hjson, htype, -⟩ := (h.spoken source message' htaken).exists_type
      exact ⟨members, type, hjson, htype⟩
  | forward source members =>
      obtain rfl := Option.some.inj hmessage
      -- it is a copy of a message that was handled
      obtain ⟨origins, hcopyOf, hordered⟩ := h.frames.origins ws
      obtain ⟨origin, horigin, -, msg, screen, hjson, rfl⟩ := exists_origin_of_forall₂ hcopyOf
        (List.mem_filterMap.mpr ⟨_, hsent, rfl⟩)
      have htaken := (hordered origin.1).subset ((mem_fromSource origin.1).mpr horigin)
      obtain ⟨members', type, hjson', htype, -⟩ := (h.spoken _ _ htaken).exists_type
      obtain rfl := Option.some.inj (hjson.symm.trans hjson')
      refine ⟨_, type, rfl, ?_, htype.mem⟩
      rw [lookup_forwardCopy_of_ne (c := 't') (by decide) rfl (by decide) (by decide)]
      exact htype.lookup

/-! ## One event -/

/-- No client of another kind appears. -/
theorem noStranger_step (h : ∀ ws, s.peer ws ≠ some .stranger) (hown : e.isOwn = true)
    (c : ConnId) : (s.step S e).peer c ≠ some .stranger := by
  have hupdate : ∀ ws peer, peer ≠ .stranger →
      Function.update s.peer ws (some peer) c ≠ some .stranger := by
    intro ws peer hpeer
    rw [Function.update_apply]
    split
    · intro heq
      exact hpeer (Option.some.inj heq)
    · exact h c
  cases e with
  | viewerArrives p i ws parsedUrl now => exact hupdate ws _ Peer.noConfusion
  | agentArrives ws parsedUrl now => exact hupdate ws _ Peer.noConfusion
  | viewerOpens ws =>
      simp only [step]
      split <;> exact h c
  | viewerHears ws =>
      simp only [step]
      split
      · split <;> exact h c
      · exact h c
  | agentHears =>
      simp only [step]
      split
      · split <;> exact h c
      · exact h c
  | handles ws now =>
      simp only [step]
      split <;> exact h c
  | server e =>
      cases e with
      | connect _ _ _ | unparsable _ => cases hown
      | message _ _ _ | closing _ | pong _ | tick _ | error _ | close _ => exact h c
  | page _ _ | main _ | agentOpens | agentLeaves => exact h c

/-- After a step of a page, too, pages have sent only what pages say. -/
theorem Own.said_stepPage (h : Own S s) {p : PageId} {e : PageEvent} (he : (s.page p).Enabled e)
    (q : PageId) : ∀ f ∈ ((s.stepPage p e).page q).sent, Page.Says f.2 := by
  intro f hf
  by_cases hq : q = p
  · subst hq
    simp only [stepPage, Function.update_self] at hf
    rcases Page.mem_sent_step_cases he hf with hold | hnew
    · exact h.said q f hold
    · exact hnew
  · simp only [stepPage, Function.update_of_ne hq] at hf
    exact h.said q f hf

/-- A message that the server handles. -/
theorem Own.isOwn_handled (h : Own S s) {message : Message}
    (hnext : s.nextMessage S ws = some message ∨ s.peer ws = some .stranger) : message.IsOwn := by
  rcases hnext with hnext | hstranger
  · exact h.isOwn_next hnext
  · exact absurd hstranger (h.noStranger ws)

/-- **One event keeps the pages and the agent among themselves.** -/
theorem Own.step (h : Own S s) (heffect : Effect S s s')
    (hpeers : ∀ ws, s'.peer ws ≠ some .stranger) : Own S s' := by
  have hinputs := h.inputs.step heffect
  have hframes := h.frames.step heffect
  have hsound := h.inputs.sound
  cases heffect with
  | page he _ =>
      exact { h with inputs := hinputs, frames := hframes, said := h.said_stepPage he }
  | receive _ _ _ he =>
      exact { h with inputs := hinputs, frames := hframes, said := h.said_stepPage he }
  | skip _ _ _ => exact { h with inputs := hinputs, frames := hframes }
  | main _ => exact { h with inputs := hinputs, frames := hframes }
  | agentOpens => exact { h with inputs := hinputs, frames := hframes }
  | agentLeaves => exact { h with inputs := hinputs, frames := hframes }
  | arrive he harrival _ _ =>
      refine { h with inputs := hinputs, frames := hframes, noStranger := hpeers, unscaled := ?_ }
      refine h.unscaled.step hsound.wellFormed hsound.owned he ?_
      rintro c m n rfl
      cases harrival
  | agentArrives he _ _ =>
      refine { h with inputs := hinputs, frames := hframes, noStranger := hpeers, unscaled := ?_ }
      exact h.unscaled.step hsound.wellFormed hsound.owned he fun _ _ _ => Event.noConfusion
  | agentHears hlink hnext hexited =>
      refine { h with inputs := hinputs, frames := hframes, running := ?_ }
      simp only [hearAgent]
      split
      · rename_i message hmessage
        obtain ⟨members, type, hjson, htype⟩ := h.type_next hlink hnext hmessage
        exact (keeps_receive htype S.documented hjson s.agent hexited).1
      · exact hexited
  | @handle ws message now he hnext =>
      have hmessage := h.isOwn_handled hnext
      refine { h with inputs := hinputs, frames := hframes, spoken := ?_, unscaled := ?_ }
      · intro c m hm
        simp only [handle] at hm
        by_cases hc : c = ws
        · subst hc
          rw [Function.update_self] at hm
          rcases List.mem_append.mp hm with hold | hnew
          · exact h.spoken c m hold
          · exact List.mem_singleton.mp hnew ▸ hmessage
        · rw [Function.update_of_ne hc] at hm
          exact h.spoken c m hm
      · refine h.unscaled.step hsound.wellFormed hsound.owned he ?_
        rintro c m n heq
        cases heq
        exact hmessage.exists_plain
  | server he _ hmessage =>
      refine { h with inputs := hinputs, frames := hframes, unscaled := ?_ }
      refine h.unscaled.step hsound.wellFormed hsound.owned he ?_
      rintro c m n rfl
      cases hmessage

/-- At first nobody has said anything. -/
theorem own_start : Own S (network S).start where
  inputs := inputPath_start
  frames := framePath_start
  noStranger _ hpeer := by cases hpeer
  said _ _ hf := absurd hf List.not_mem_nil
  spoken _ _ hm := absurd hm List.not_mem_nil
  unscaled := Server.unscaled_start
  running := rfl

/-- While no client of another kind connects, every state is among the pages and the agent. -/
theorem states_own {es : List SystemEvent} (hrun : (network S).IsRun es)
    (hown : ∀ e ∈ es, e.isOwn = true) : (network S).States (Own S) (network S).start es := by
  refine (network S).states_of_steps (C := fun _ e => e.isOwn = true) ?_ own_start hrun
    ((network S).steps_iff_forall_mem.mpr hown)
  intro s e h he hown
  exact h.step (effect_of_enabled he) (noStranger_step h.noStranger hown)

/-! ## What the agent obeys -/

/-- The connection of an accepted viewer is that of a page. -/
theorem Own.exists_page (h : Own S s) (hasks : S.AsksAsAgent) {k : SessionId} {o : SessionRef}
    {n : String} (hviewer : (s.server.conn ws).acceptance = some (.viewer k o n)) :
    ∃ p i, s.peer ws = some (.viewer p i) := by
  have harrived := (h.inputs.sound.wellFormed.sound.accepted ws _ hviewer).1
  cases hpeer : s.peer ws with
  | none => exact absurd hpeer (h.inputs.sound.known ws harrived)
  | some peer =>
      cases peer with
      | viewer p i => exact ⟨p, i, rfl⟩
      | agent => exact absurd hviewer (h.inputs.asAgent hasks ws k o n hpeer)
      | stranger => exact absurd hpeer (h.noStranger ws)

/-- The agent does what the users of the pages do, and nothing else. -/
structure ObeysUsers (S : Setting) (s : System) : Prop where
  /-- It injects the events of the messages it has received. -/
  injected : s.agent.injected.flatten = s.handledInputs.flatMap fun f => f.2.inputs S.host
  /-- A message that injects anything is the object of an event on the page of a viewer, which the
  page has sent. -/
  users : ∀ f ∈ s.handledInputs, f.2.inputs S.host ≠ [] →
    ∃ p i event rect width height, s.peer f.1 = some (.viewer p i) ∧
      (Web.DomEvent.object event rect width height) ∈ s.sentOn p i ∧
      f.2.json = some (Web.DomEvent.object event rect width height)
  /-- The process goes on. -/
  running : s.agent.exited = false

/-- Where all clients are the repository's own, the agent does what the users do. -/
theorem Own.obeysUsers (h : Own S s) (hasks : S.AsksAsAgent) : ObeysUsers S s where
  injected := (h.inputs.injectsInput hasks).injected
  users := by
    have hinjects := h.inputs.injectsInput hasks
    intro f hf hinputs
    obtain ⟨a, k, o, n, -, -, hviewer⟩ := hinjects.accepted f hf
    obtain ⟨p, i, hpeer⟩ := h.exists_page hasks hviewer
    have hmem := (hinjects.ordered f.1 p i hpeer).subset ((mem_fromSource f.1).mpr hf)
    obtain ⟨v, hv, heq⟩ := List.mem_map.mp hmem
    have hjson : f.2.json = some v := heq ▸ rfl
    cases h.said p (i, v) ((mem_fromSource i).mp hv) with
    | ready sessionId =>
        -- a greeting injects nothing
        exact absurd (inputs_of_type_ne hjson rfl (by decide) S.documented) hinputs
    | input event rect width height => exact ⟨p, i, event, rect, width, height, hpeer, hv, hjson⟩
  running := h.running

/-- The source of the agent changes when its user chooses one. -/
theorem Own.selected_step (h : Own S s) (he : s.Enabled S e)
    (hchanges : (s.step S e).agent.selected_hwnd ≠ s.agent.selected_hwnd) :
    ∃ hwnd isConnected metrics dpi, e = .main (.select hwnd isConnected metrics dpi) := by
  cases e with
  | main e =>
      cases e with
      | select hwnd isConnected metrics dpi => exact ⟨hwnd, isConnected, metrics, dpi, rfl⟩
      | initializeCompressor _ | connect _ | wait _ | check _ | share _ _ _ _ =>
          exact absurd rfl hchanges
  | agentHears =>
      obtain ⟨ws, f, hlink, -, hnext, hruns⟩ := he
      simp only [System.step, hlink, hnext, hearAgent] at hchanges
      split at hchanges
      · rename_i message hmessage
        obtain ⟨members, type, hjson, htype⟩ := h.type_next hlink hnext hmessage
        exact absurd (keeps_receive htype S.documented hjson s.agent hruns.1).2 hchanges
      · exact absurd rfl hchanges
  | viewerOpens ws =>
      refine absurd ?_ hchanges
      simp only [System.step]
      split <;> rfl
  | viewerHears ws =>
      refine absurd ?_ hchanges
      simp only [System.step]
      split
      · split <;> rfl
      · rfl
  | handles ws now =>
      refine absurd ?_ hchanges
      simp only [System.step]
      split <;> rfl
  | server e => cases e <;> exact absurd rfl hchanges
  | page _ _ | viewerArrives _ _ _ _ _ | agentArrives _ _ _ | agentOpens | agentLeaves =>
      exact absurd rfl hchanges

/-! ## While a viewer stays -/

/-- The connection is a stored viewer of the session object, and its socket is OPEN. -/
def Watches (o : SessionRef) (v : ConnId) (s : System) : Prop :=
  v ∈ (s.server.sessionAt o).viewers.values ∧ (s.server.conn v).readyState = .OPEN

/-- From the one state to the other, the viewer `v` has been sent a copy of each message of the
agent `a` that the server has handled, in order. -/
def CopiesAll (a v : ConnId) (s s' : System) : Prop :=
  ∃ more copies, s'.taken a = s.taken a ++ more ∧
    fromSource a (s'.server.copies v) = fromSource a (s.server.copies v) ++ copies ∧
    List.Forall₂ (fun copy message => ∃ msg screen, Message.json message = some msg ∧
      copy = forwardCopy msg screen) copies more

/-- Nothing has to be copied where nothing was handled. -/
theorem copiesAll_of_eq {v : ConnId} (htaken : s'.taken a = s.taken a)
    (hcopies : s'.server.copies v = s.server.copies v) : CopiesAll a v s s' :=
  ⟨[], [], by rw [htaken, List.append_nil], by rw [hcopies, List.append_nil], .nil⟩

/-- Two spans in each of which everything is copied are one. -/
theorem CopiesAll.trans {v : ConnId} {s'' : System} (h : CopiesAll a v s s')
    (h' : CopiesAll a v s' s'') : CopiesAll a v s s'' := by
  obtain ⟨more, copies, htaken, hcopies, hof⟩ := h
  obtain ⟨more', copies', htaken', hcopies', hof'⟩ := h'
  refine ⟨more ++ more', copies ++ copies', ?_, ?_, List.rel_append hof hof'⟩
  · rw [htaken', htaken, List.append_assoc]
  · rw [hcopies', hcopies, List.append_assoc]

variable {v : ConnId} {k : SessionId} {o : SessionRef}

/-- A message of the agent is copied to the viewer; those of others are not the agent's. -/
theorem Own.copiesAll_handle (h : Own S s) {message : Message} {now : ℕ}
    (he : s.server.Enabled (.message ws message now))
    (hnext : s.nextMessage S ws = some message ∨ s.peer ws = some .stranger)
    (hagent : (s.server.conn a).acceptance = some (.agent k o)) (hwatches : Watches o v s) :
    CopiesAll a v s (s.handle ws message now) := by
  have hsound := h.inputs.sound
  obtain ⟨msg, hplain⟩ := (h.isOwn_handled hnext).exists_plain
  by_cases hws : ws = a
  · subst hws
    have hclean : s.server.ScalesComputable (.message ws message now) := by
      refine h.unscaled.scalesComputable ?_
      rintro c m n heq
      cases heq
      exact ⟨msg, hplain⟩
    have hcopies := Server.copies_step hsound.wellFormed hsound.owned he hclean v
    rw [Server.copiesFor_of_ne_null hagent hplain.json hplain.ne_null,
      if_pos ⟨hwatches.1, hwatches.2⟩] at hcopies
    refine ⟨[message], [forwardCopy msg ((s.server.step (.message ws message now)).sessionAt
      o).agentScreen], Function.update_self .., ?_, .cons ⟨msg, _, hplain.json, rfl⟩ .nil⟩
    simp only [System.handle]
    rw [hcopies, fromSource_append, fromSource_singleton, if_pos rfl]
  · have htaken : (s.handle ws message now).taken a = s.taken a :=
      Function.update_of_ne (Ne.symm hws) _ _
    refine ⟨[], [], by rw [htaken, List.append_nil], ?_, .nil⟩
    simp only [System.handle]
    rw [List.append_nil]
    rcases Server.copies_step_cases hsound.wellFormed hsound.owned he v with
      hsame | ⟨ws', message', now', msg', screen, heq, -, hone⟩
    · rw [hsame]
    · cases heq
      rw [hone, fromSource_append, fromSource_singleton, if_neg hws, List.append_nil]

/-- **One event skips no copy**, as long as the viewer stays. -/
theorem Own.copiesAll_step (h : Own S s) (heffect : Effect S s s')
    (hagent : (s.server.conn a).acceptance = some (.agent k o)) (hwatches : Watches o v s) :
    CopiesAll a v s s' := by
  have hsound := h.inputs.sound
  -- events that are no messages make no copies
  have hquiet : ∀ e, s.server.Enabled e → e.isMessage = false →
      (s.server.step e).copies v = s.server.copies v := fun e he hmessage =>
    Server.copies_step_of_not_message hsound.owned he (by simp [hmessage]) v
  cases heffect with
  | page _ _ | receive _ _ _ _ | skip _ _ _ | main _ | agentOpens | agentHears _ _ _
    | agentLeaves => exact copiesAll_of_eq rfl rfl
  | arrive he harrival _ _ =>
      exact copiesAll_of_eq rfl (hquiet _ he (Event.isMessage_of_isArrival harrival))
  | agentArrives he _ _ => exact copiesAll_of_eq rfl (hquiet _ he rfl)
  | handle he hnext => exact h.copiesAll_handle he hnext hagent hwatches
  | server he _ hmessage => exact copiesAll_of_eq rfl (hquiet _ he hmessage)

end System

/-- **Among the pages and the agent nothing fails.** While no client of another kind connects, no
handler of the server ends in its `catch` block, every message of the agent is copied once to every
viewer whose socket is OPEN, no screen of a viewer is ever stored and no scale is ever sent. -/
theorem nothing_fails {S : Setting} {es : List SystemEvent} (hrun : (network S).IsRun es)
    (hown : ∀ e ∈ es, e.isOwn = true) :
    (network S).States (fun s => s.server.Unscaled) (network S).start es ∧
      (network S).Steps (fun s e => ∀ ws now message, e = .handles ws now →
        s.nextMessage S ws = some message →
          s.server.Delivers (.message ws message now) ∧
            ∀ a, (s.server.conn ws).acceptance = some a → ¬ s.server.Caught ws message now a)
        (network S).start es := by
  have hstates := System.states_own hrun hown
  refine ⟨GuardedMachine.States.mono (network S) (fun _ h => h.unscaled) hstates, ?_⟩
  refine GuardedMachine.States.steps (network S) ?_ hstates hrun
  intro s e h _ ws now message _ hnext
  obtain ⟨msg, hplain⟩ := (h.isOwn_next hnext).exists_plain
  have hbrings : Server.BringsPlain (.message ws message now) := by
    rintro c m n heq
    cases heq
    exact ⟨msg, hplain⟩
  have hcomputable := h.unscaled.scalesComputable hbrings
  exact ⟨(Server.delivers_iff h.inputs.sound.wellFormed _).mpr hcomputable,
    fun a _ => h.unscaled.not_caught hplain a⟩

/-- **A viewer that stays gets everything.** While no client of another kind connects, and as long
as a viewer stays stored with an OPEN socket, it is sent a copy of every message of an agent of its
session that the server handles, once and in order. -/
theorem copies_complete {S : Setting} {pre post : List SystemEvent}
    (hrun : (network S).IsRun (pre ++ post)) (hown : ∀ e ∈ pre ++ post, e.isOwn = true)
    {a v : ConnId} {k : SessionId} {o : SessionRef}
    (hagent : (((network S).after (network S).start pre).server.conn a).acceptance =
      some (.agent k o))
    (hwatches : (network S).States (System.Watches o v) ((network S).after (network S).start pre)
      post) :
    System.CopiesAll a v ((network S).after (network S).start pre)
      ((network S).after (network S).start (pre ++ post)) := by
  obtain ⟨hpre, hpost⟩ := ((network S).steps_append _ _ _ _).mp hrun
  have hstart := GuardedMachine.States.last (network S)
    (System.states_own hpre fun e he => hown e (List.mem_append_left _ he))
  rw [(network S).after_append]
  have hstates : (network S).States
      (fun s => System.Own S s ∧ (s.server.conn a).acceptance = some (.agent k o))
      ((network S).after (network S).start pre) post := by
    refine (network S).states_of_steps (C := fun _ e => e.isOwn = true) ?_ ⟨hstart, hagent⟩ hpost
      ((network S).steps_iff_forall_mem.mpr fun e he => hown e (List.mem_append_right _ he))
    intro s e h he hown
    have heffect := System.effect_of_enabled he
    exact ⟨h.1.step heffect (System.noStranger_step h.1.noStranger hown),
      System.acceptance_of_effect h.1.inputs.sound heffect h.2⟩
  refine (network S).related_after (fun s => System.copiesAll_of_eq rfl rfl)
    (fun _ _ _ h h' => h.trans h') ?_
  refine GuardedMachine.States.steps (network S) ?_
    (GuardedMachine.States.and (network S) hstates hwatches) hpost
  intro s e h he
  exact h.1.1.copiesAll_step (System.effect_of_enabled he) h.1.2 h.2

/-- A frame fails for nobody. -/
theorem nothing_fails_hearImage :
    ((network joiningSetting).after (network joiningSetting).start
      (bothArrive ++ (imageEvents ++ .handles 0 3 :: hearImage))).server.Unscaled :=
  GuardedMachine.States.last (network joiningSetting)
    (nothing_fails isRun_hearImage (by decide)).1

/-- All that the agent says before its first frame is copied. -/
theorem copies_complete_hearImage :
    System.CopiesAll 0 1 ((network joiningSetting).after (network joiningSetting).start bothArrive)
      ((network joiningSetting).after (network joiningSetting).start
        (bothArrive ++ imageEvents)) :=
  copies_complete (k := .text "def_pas") (o := 0) isRun_imageEvents (by decide) (by decide)
    ⟨⟨by decide, by decide⟩, ⟨by decide, by decide⟩, ⟨by decide, by decide⟩,
      ⟨by decide, by decide⟩, ⟨by decide, by decide⟩, ⟨by decide, by decide⟩, trivial⟩

end BrowCast
