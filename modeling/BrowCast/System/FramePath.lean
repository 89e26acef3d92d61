import BrowCast.System.InputPath

/-! # The way of the frames

From the compressor of the agent to the images of the pages. A page starts an image for each copy of
a frame message that it receives, and for nothing else. The copies are those of messages of accepted
agents of the session, each message at most once and those of a connection in their order; and where
the connection is the agent's, the image decodes to what the library has compressed. -/

namespace BrowCast

open Web (Page PageEvent SocketId)

/-- The frame that a frame of the server is to a page. -/
def Outgoing.image (S : Setting) (f : Outgoing) :
    Option (Option Json × Option Json × Option Json) :=
  (f.received S.stringify).bind Page.frameOf

/-- The data of an image, from a source as the agent makes it. -/
def imageData : Option Json → Option (List UInt8)
  | some (.str src) =>
      if imageHeader.isPrefixOf src.toList then
        Base64.decode (src.toList.drop imageHeader.length)
      else none
  | _ => none

/-- A page finds the bytes of an image that the agent has encoded. -/
theorem imageData_encode (bytes : List UInt8) :
    imageData (some (.str (.ofList (imageHeader ++ Base64.encode bytes)))) = some bytes := by
  simp only [imageData, String.toList_ofList]
  rw [if_pos (List.isPrefixOf_iff_prefix.mpr (List.prefix_append _ _)), List.drop_left,
    Base64.decode_encode]

/-- A copy of a message of an agent. -/
def CopyOf (copy : ConnId × List (String × Json)) (origin : ConnId × Message) : Prop :=
  copy.1 = origin.1 ∧ ∃ msg screen, origin.2.json = some msg ∧ copy.2 = forwardCopy msg screen

/-- What makes a message a frame. -/
theorem frameOf_eq {message : Message} {v : Json} (hjson : message.json = some v) :
    Page.frameOf message =
      if Json.isText "frame" (v.member "type") && Json.truthy (v.member "image") &&
          Json.convertible (v.member "image") then
        some (v.member "image", v.member "width", v.member "height")
      else none := by
  unfold Page.frameOf Page.readMessage
  rw [hjson]
  by_cases hnull : v = .null
  · subst hnull
    rfl
  · have hproperty : Json.property "type" (some v) = .ok (v.member "type") := by
      cases v <;> first | exact absurd rfl hnull | rfl
    simp only [hproperty, Json.toText, bind, Except.bind]
    cases hframe : Json.isText "frame" (v.member "type") && Json.truthy (v.member "image") with
    | false =>
        simp only [Bool.false_eq_true, if_false, Bool.false_and]
        cases Json.isText "agent_status" (v.member "type") <;> rfl
    | true =>
        simp only [if_true, Bool.true_and]
        cases Json.convertible (v.member "image") <;> rfl

/-- A copy of a message is the frame that the message is. -/
theorem frameOf_of_copyOf {copy : ConnId × List (String × Json)} {origin : ConnId × Message}
    (h : CopyOf copy origin) (text : String) :
    Page.frameOf ⟨text, some (.obj copy.2)⟩ = Page.frameOf origin.2 := by
  obtain ⟨-, msg, screen, hjson, hcopy⟩ := h
  have hmember : ∀ key c, c ∈ key.toList → c.isDigit = false → key ≠ "originalHeight" →
      key ≠ "originalWidth" → (Json.obj copy.2).member key = msg.member key := by
    intro key c hc hdigit hheight hwidth
    rw [hcopy]
    exact lookup_forwardCopy_of_ne hc hdigit hheight hwidth msg screen
  rw [frameOf_eq hjson, frameOf_eq rfl,
    hmember "type" 't' (by decide) rfl (by decide) (by decide),
    hmember "image" 'i' (by decide) rfl (by decide) (by decide),
    hmember "width" 'w' (by decide) rfl (by decide) (by decide),
    hmember "height" 'h' (by decide) rfl (by decide) (by decide)]

namespace System

/-- The copies that the peer of a connection has received. -/
def heardCopies (s : System) (ws : ConnId) : List (ConnId × List (String × Json)) :=
  ((s.server.conn ws).sent.take (s.heard ws)).filterMap Outgoing.copy

/-- The copies of a record come from these messages: each is of one of them, in order, and of a
connection's messages each is used once at most, in order. -/
structure Origins (s : System) (copies : List (ConnId × List (String × Json)))
    (origins : List (ConnId × Message)) : Prop where
  copyOf : List.Forall₂ CopyOf copies origins
  ordered : ∀ a, (fromSource a origins).Sublist (s.taken a)

/-- What holds of the frames, everywhere on their way. -/
structure FramePath (S : Setting) (s : System) : Prop where
  sound : Sound S s
  traced : s.server.Traced
  /-- A page has started the images of the frames it has received. -/
  shown : ∀ ws p i, s.peer ws = some (.viewer p i) →
    (s.page p).framesOn i =
      ((s.server.conn ws).sent.take (s.heard ws)).filterMap (Outgoing.image S)
  unshown : ∀ p i, (∀ ws, s.peer ws ≠ some (.viewer p i)) → (s.page p).framesOn i = []
  /-- The copies for a viewer come from messages that the server has handled. -/
  origins : ∀ v, ∃ origins, s.Origins (s.server.copies v) origins
  /-- The main thread is in one of its states, and the frames it has sent are images. -/
  tidy : s.main.Tidy
  images : ∀ m ∈ s.main.sent, m.isFrame = true → ∃ jpegBuf width height, jpegBuf ≠ [] ∧
    0 < width ∧ 0 < height ∧ m = .frame (Base64.encode jpegBuf) width height
  /-- What was sent on a connection of the agent was sent by its main thread, in this order. -/
  said : ∀ a, (s.said a).Sublist s.main.sent

variable {S : Setting} {s s' : System} {ws v a : ConnId} {e : Event}

/-! ## The copies -/

/-- Copies keep their origins while more messages are handled. -/
theorem Origins.mono {copies : List (ConnId × List (String × Json))}
    {origins : List (ConnId × Message)} (h : s.Origins copies origins)
    (htaken : ∀ a, (s.taken a).Sublist (s'.taken a)) : s'.Origins copies origins :=
  ⟨h.copyOf, fun a => (h.ordered a).trans (htaken a)⟩

/-- Handling a message takes none back. -/
theorem taken_sublist_handle (s : System) (ws : ConnId) (message : Message) (now : ℕ) (a : ConnId) :
    (s.taken a).Sublist ((s.handle ws message now).taken a) := by
  by_cases ha : a = ws
  · subst ha
    simp only [handle, Function.update_self]
    exact List.sublist_append_left _ _
  · simp only [handle, Function.update_of_ne ha]
    exact List.Sublist.refl _

/-- A message that the server handles is the origin of the copies of it. -/
theorem FramePath.origins_handle (h : FramePath S s) {message : Message} {now : ℕ}
    (he : s.server.Enabled (.message ws message now)) (v : ConnId) :
    ∃ origins, (s.handle ws message now).Origins ((s.handle ws message now).server.copies v)
      origins := by
  obtain ⟨origins, horigins⟩ := h.origins v
  have hmore := fun a => taken_sublist_handle s ws message now a
  rcases Server.copies_step_cases h.sound.wellFormed h.sound.owned he v with
    hsame | ⟨ws', message', now', msg, screen, heq, hjson, hone⟩
  · refine ⟨origins, ?_⟩
    simp only [handle] at hmore ⊢
    rw [hsame]
    exact horigins.mono hmore
  · cases heq
    refine ⟨origins ++ [(ws, message)], ?_, fun a => ?_⟩
    · simp only [handle]
      rw [hone]
      exact List.rel_append horigins.copyOf (.cons ⟨rfl, msg, screen, hjson, rfl⟩ .nil)
    · rw [fromSource_append]
      by_cases ha : a = ws
      · subst ha
        simp only [handle, Function.update_self]
        exact relay_sublist a (horigins.ordered a) (Or.inr rfl)
      · rw [fromSource_singleton, if_neg fun heq => ha heq.symm, List.append_nil]
        exact (horigins.ordered a).trans (hmore a)

/-- Nothing else makes copies. -/
theorem FramePath.origins_quiet (h : FramePath S s) (he : s.server.Enabled e)
    (hmessage : e.isMessage = false) (htaken : s'.taken = s.taken)
    (hserver : s'.server = s.server.step e) (v : ConnId) :
    ∃ origins, s'.Origins (s'.server.copies v) origins := by
  obtain ⟨origins, horigins⟩ := h.origins v
  refine ⟨origins, ?_⟩
  rw [hserver, Server.copies_step_of_not_message h.sound.owned he (by simp [hmessage]) v]
  exact horigins.mono fun a => htaken ▸ List.Sublist.refl _

/-- Where the server and what it has handled stay, copies keep their origins. -/
theorem FramePath.origins_of_eq (h : FramePath S s) (htaken : s'.taken = s.taken)
    (hserver : s'.server = s.server) (v : ConnId) :
    ∃ origins, s'.Origins (s'.server.copies v) origins := by
  obtain ⟨origins, horigins⟩ := h.origins v
  rw [hserver]
  exact ⟨origins, horigins.mono fun a => htaken ▸ List.Sublist.refl _⟩

/-! ## The images -/

/-- What the server sends comes behind what was received. -/
theorem take_sent_server (h : Sound S s) (he : s.server.Enabled e) (c : ConnId) :
    ((s.server.step e).conn c).sent.take (s.heard c) =
      (s.server.conn c).sent.take (s.heard c) := by
  obtain ⟨frames, hsent, -⟩ := Server.exists_frames_step h.wellFormed h.owned he c
  rw [hsent, List.take_append_of_le_length (h.heard c)]

/-- A page that receives a message starts the image of it. -/
theorem framesOn_receive (s : System) (p q : PageId) (i j : SocketId) (message : Message) :
    ((s.stepPage p (.message i message)).page q).framesOn j =
      (s.page q).framesOn j ++ if q = p ∧ i = j then (Page.frameOf message).toList else [] := by
  by_cases hq : q = p
  · subst hq
    simp only [stepPage, Function.update_self, true_and]
    exact Page.framesOn_onmessage ..
  · simp only [stepPage, Function.update_of_ne hq, hq, false_and, if_false, List.append_nil]

/-- Other events of the pages start none. -/
theorem framesOn_stepPage {p : PageId} {e : PageEvent} (he : (s.page p).Enabled e)
    (hmessage : ∀ i m, e ≠ .message i m) (q : PageId) (j : SocketId) :
    ((s.stepPage p e).page q).framesOn j = (s.page q).framesOn j := by
  by_cases hq : q = p
  · subst hq
    simp only [stepPage, Function.update_self]
    exact Page.framesOn_step he hmessage
  · simp only [stepPage, Function.update_of_ne hq]

/-- The frame that is received next is the last one received. -/
theorem filterMap_take_hear {f : Outgoing} (hnext : s.nextFrame ws = some f) (c : ConnId) :
    ((s.server.conn c).sent.take ((s.hear ws).heard c)).filterMap (Outgoing.image S) =
      ((s.server.conn c).sent.take (s.heard c)).filterMap (Outgoing.image S) ++
        if c = ws then (f.image S).toList else [] := by
  by_cases hc : c = ws
  · subst hc
    rw [heard_hear, take_succ_of_next hnext, List.filterMap_append, if_pos rfl]
    cases himage : f.image S <;> simp [himage]
  · rw [if_neg hc, List.append_nil, heard_hear_of_ne s hc]

/-! ## The effects -/

/-- A frame is received that starts no image. -/
theorem FramePath.hear (h : FramePath S s) {f : Outgoing} (hnext : s.nextFrame ws = some f)
    (hnone : (∃ p i, s.peer ws = some (.viewer p i)) → f.image S = none) :
    FramePath S (s.hear ws) where
  sound := h.sound.hear hnext
  traced := h.traced
  shown c p i hpeer := by
    refine (h.shown c p i hpeer).trans (Eq.trans ?_ (filterMap_take_hear hnext c).symm)
    by_cases hc : c = ws
    · subst hc
      rw [hnone ⟨p, i, hpeer⟩, Option.toList_none, ite_self, List.append_nil]
    · rw [if_neg hc, List.append_nil]
  unshown := h.unshown
  origins := h.origins_of_eq rfl rfl
  tidy := h.tidy
  images := h.images
  said := h.said

/-- A page receives a message. -/
theorem FramePath.receive (h : FramePath S s) {p : PageId} {i : SocketId} {f : Outgoing}
    {message : Message} (hpeer : s.peer ws = some (.viewer p i)) (hnext : s.nextFrame ws = some f)
    (hmessage : f.received S.stringify = some message)
    (he : (s.page p).Enabled (.message i message)) :
    FramePath S ((s.stepPage p (.message i message)).hear ws) where
  sound := (h.sound.page he).hear hnext
  traced := h.traced
  shown c q j hc := by
    have himage : f.image S = Page.frameOf message := by
      rw [Outgoing.image, hmessage]
      rfl
    refine (framesOn_receive s p q i j message).trans ?_
    refine Eq.trans ?_ (filterMap_take_hear (s := s) hnext c).symm
    rw [h.shown c q j hc, himage]
    by_cases hcw : c = ws
    · subst hcw
      obtain ⟨rfl, rfl⟩ := Peer.viewer.inj (Option.some.inj (hpeer.symm.trans hc))
      rw [if_pos ⟨rfl, rfl⟩, if_pos rfl]
    · -- another connection is that of another socket
      have hother : ¬ (q = p ∧ i = j) := by
        rintro ⟨rfl, rfl⟩
        exact hcw (h.sound.unique c ws q i hc hpeer)
      rw [if_neg hother, if_neg hcw]
  unshown q j hno := by
    have hother : ¬ (q = p ∧ i = j) := by
      rintro ⟨rfl, rfl⟩
      exact hno ws hpeer
    refine (framesOn_receive s p q i j message).trans ?_
    rw [if_neg hother, List.append_nil]
    exact h.unshown q j hno
  origins := h.origins_of_eq rfl rfl
  tidy := h.tidy
  images := h.images
  said := h.said

/-- A page takes another step. -/
theorem FramePath.page (h : FramePath S s) {p : PageId} {e : PageEvent}
    (he : (s.page p).Enabled e) (hmessage : ∀ i m, e ≠ .message i m) :
    FramePath S (s.stepPage p e) where
  sound := h.sound.page he
  traced := h.traced
  shown c q j hc := (framesOn_stepPage he hmessage q j).trans (h.shown c q j hc)
  unshown q j hno := (framesOn_stepPage he hmessage q j).trans (h.unshown q j hno)
  origins := h.origins_of_eq rfl rfl
  tidy := h.tidy
  images := h.images
  said := h.said

/-- A connection arrives. -/
theorem FramePath.arrive (h : FramePath S s) {peer : Peer} (he : s.server.Enabled e)
    (harrival : e.isArrival = true)
    (hpeer : ∀ p i, peer = .viewer p i → ∀ c, s.peer c ≠ some (.viewer p i)) :
    FramePath S (s.arrive peer e) where
  sound := h.sound.arrive he harrival hpeer
  traced := h.traced.step h.sound.wellFormed h.sound.owned he
  shown c p i hc := by
    have htake := congrArg (List.filterMap (Outgoing.image S)) (take_sent_server h.sound he c)
    refine Eq.trans ?_ htake.symm
    by_cases hcw : c = e.subject
    · -- nothing was received on the new connection, nor by its socket
      subst hcw
      simp only [System.arrive, Function.update_self, Option.some.injEq] at hc
      have hnew := h.sound.owned.fresh _ (Server.notMem_of_isArrival _ he harrival)
      have hsent : (s.server.conn e.subject).sent = [] := congrArg Conn.sent hnew.1
      rw [hsent, List.take_nil]
      exact h.unshown p i (hpeer p i hc)
    · simp only [System.arrive, Function.update_of_ne hcw] at hc
      exact h.shown c p i hc
  unshown p i hno := by
    refine h.unshown p i fun c hc => ?_
    have hne : c ≠ e.subject := by
      rintro rfl
      exact Server.notMem_of_isArrival _ he harrival (h.sound.arrived hc)
    exact hno c ((Function.update_of_ne hne _ _).trans hc)
  origins := h.origins_quiet he (Event.isMessage_of_isArrival harrival) rfl rfl
  tidy := h.tidy
  images := h.images
  said := h.said

/-- The server takes a step. -/
theorem FramePath.shown_server (h : FramePath S s) (he : s.server.Enabled e)
    (ws : ConnId) (p : PageId) (i : SocketId) (hpeer : s.peer ws = some (.viewer p i)) :
    (s.page p).framesOn i =
      (((s.server.step e).conn ws).sent.take (s.heard ws)).filterMap (Outgoing.image S) := by
  rw [take_sent_server h.sound he]
  exact h.shown ws p i hpeer

/-- The server handles a message. -/
theorem FramePath.handle (h : FramePath S s) {message : Message} {now : ℕ}
    (he : s.server.Enabled (.message ws message now))
    (hnext : s.nextMessage S ws = some message ∨ s.peer ws = some .stranger) :
    FramePath S (s.handle ws message now) where
  sound := h.sound.handle he hnext
  traced := h.traced.step h.sound.wellFormed h.sound.owned he
  shown := h.shown_server he
  unshown := h.unshown
  origins := h.origins_handle he
  tidy := h.tidy
  images := h.images
  said := h.said

/-- A step of the server that no page and no agent takes part in. -/
theorem FramePath.server (h : FramePath S s) (he : s.server.Enabled e)
    (harrival : e.isArrival = false) (hmessage : e.isMessage = false) :
    FramePath S { s with server := s.server.step e } where
  sound := h.sound.server he harrival
  traced := h.traced.step h.sound.wellFormed h.sound.owned he
  shown := h.shown_server he
  unshown := h.unshown
  origins := h.origins_quiet he hmessage rfl rfl
  tidy := h.tidy
  images := h.images
  said := h.said

/-- What a round sends that is a frame is the encoding of a compressed image, with the sizes of what
was captured. -/
theorem exists_image_of_isFrame {e : MainThread.Event} {m : AgentMessage} (hm : m ∈ e.messages)
    (hframe : m.isFrame = true) : ∃ jpegBuf width height, jpegBuf ≠ [] ∧ 0 < width ∧ 0 < height ∧
      m = .frame (Base64.encode jpegBuf) width height := by
  cases e with
  | share hwnd isConnected win32 answer =>
      obtain ⟨jpegBuf, hbuf, -, hwidth, hheight, rfl⟩ :=
        MainThread.exists_image_of_mem_messages hm
      exact ⟨jpegBuf, _, _, hbuf, hwidth, hheight, rfl⟩
  | select hwnd isConnected metrics dpi =>
      cases isConnected with
      | true =>
          obtain rfl := List.mem_singleton.mp hm
          cases hframe
      | false => cases hm
  | initializeCompressor _ | connect _ | wait _ | check _ => cases hm

/-- The main thread of the agent takes a round. -/
theorem FramePath.main (h : FramePath S s) {e : MainThread.Event} (he : s.main.Enabled e) :
    FramePath S (s.step S (.main e)) where
  sound := h.sound.main e
  traced := h.traced
  shown := h.shown
  unshown := h.unshown
  origins := h.origins_of_eq rfl rfl
  tidy := h.tidy.step he
  images m hm hframe := by
    rw [show (s.step S (.main e)).main.sent = _ from h.tidy.sent_step he] at hm
    rcases List.mem_append.mp hm with hold | hnew
    · exact h.images m hold hframe
    · exact exists_image_of_isFrame hnew hframe
  said a := by
    have hsent := h.tidy.sent_step he
    have hold : (s.said a).Sublist (s.main.step e).sent := by
      rw [hsent]
      exact (h.said a).trans (List.sublist_append_left _ _)
    simp only [step]
    cases s.link with
    | none => exact hold
    | some ws =>
        simp only
        by_cases ha : a = ws
        · subst ha
          rw [Function.update_self, hsent, List.drop_left]
          exact (h.said a).append (List.Sublist.refl _)
        · rw [Function.update_of_ne ha]
          exact hold

/-- **One event keeps the way of the frames.** -/
theorem FramePath.step (h : FramePath S s) (heffect : Effect S s s') : FramePath S s' := by
  cases heffect with
  | page he hmessage => exact h.page he hmessage
  | arrive he harrival _ hpeer => exact h.arrive he harrival hpeer
  | receive hpeer hnext hmessage he => exact h.receive hpeer hnext hmessage he
  | skip _ hnext hmessage =>
      refine h.hear hnext fun _ => ?_
      rw [Outgoing.image, hmessage]
      rfl
  | main he => exact h.main he
  | agentArrives he _ _ =>
      have harrive : FramePath S (s.arrive .agent _) :=
        h.arrive he rfl fun _ _ => Peer.noConfusion
      exact { harrive with
        sound := h.sound.agentArrives he
        origins := harrive.origins_of_eq rfl rfl }
  | agentOpens =>
      exact { h with sound := { h.sound with }, origins := h.origins_of_eq rfl rfl }
  | agentHears hlink hnext _ =>
      have hhear := h.hear hnext fun hpeer => by
        obtain ⟨p, i, hpeer⟩ := hpeer
        cases hpeer.symm.trans (h.sound.link _ hlink)
      exact { hhear with
        sound := { hhear.sound with }
        origins := hhear.origins_of_eq rfl rfl }
  | agentLeaves =>
      exact { h with
        sound := { h.sound with link := fun _ hlink => by cases hlink }
        origins := h.origins_of_eq rfl rfl }
  | handle he hnext => exact h.handle he hnext
  | server he harrival hmessage => exact h.server he harrival hmessage

/-- At first there are no frames. -/
theorem framePath_start : FramePath S (network S).start where
  sound := sound_start
  traced := Server.traced_start
  shown _ _ _ hpeer := by cases hpeer
  unshown _ _ _ := rfl
  origins _ := ⟨[], .nil, fun _ => List.Sublist.refl _⟩
  tidy := MainThread.tidy_start
  images m hm := absurd hm List.not_mem_nil
  said _ := List.Sublist.refl _

/-! ## What a page shows -/

/-- The messages that the frames of a page's socket come from, if its connection is `ws`, accepted
as a viewer of the session object `o`. -/
structure ShowsFrames (S : Setting) (s : System) (ws : ConnId) (p : PageId) (i : SocketId)
    (k : SessionId) (o : SessionRef) (origins : List (ConnId × Message)) : Prop where
  /-- The page has started an image for each of them that is a frame, and no other. -/
  shown : (s.page p).framesOn i = origins.filterMap fun f => Page.frameOf f.2
  /-- They are messages of agents of the same session. -/
  accepted : ∀ f ∈ origins, (s.server.conn f.1).acceptance = some (.agent k o)
  /-- Each message of a connection is among them at most once, and they are in order. -/
  ordered : ∀ a, (fromSource a origins).Sublist (s.taken a)
  /-- On a connection of the agent they are messages of its main thread, in order. -/
  fromAgent : ∀ a, s.peer a = some .agent → (fromSource a origins).Sublist
    (s.main.sent.map fun m => ⟨S.dump m.json, some m.json⟩)
  /-- And then the image of a frame decodes to what was compressed. -/
  images : ∀ f ∈ origins, s.peer f.1 = some .agent → ∀ src width height,
    Page.frameOf f.2 = some (src, width, height) → ∃ jpegBuf w h, jpegBuf ≠ [] ∧ 0 < w ∧ 0 < h ∧
      imageData src = some jpegBuf ∧ width = some (.ofInt w) ∧ height = some (.ofInt h)

/-- The messages of the frames that have been received. -/
theorem FramePath.exists_origins (h : FramePath S s) (ws : ConnId) :
    ∃ origins, s.Origins (s.heardCopies ws) origins := by
  obtain ⟨origins, hcopyOf, hordered⟩ := h.origins ws
  -- what was received are the first copies
  have hcopies : s.server.copies ws = s.heardCopies ws ++
      ((s.server.conn ws).sent.drop (s.heard ws)).filterMap Outgoing.copy := by
    rw [heardCopies, ← List.filterMap_append, List.take_append_drop]
    rfl
  refine ⟨origins.take (s.heardCopies ws).length, ?_, fun a => ?_⟩
  · have htake := List.forall₂_take (s.heardCopies ws).length hcopyOf
    rwa [hcopies, List.take_left] at htake
  · exact ((List.take_sublist _ _).filterMap _).trans (hordered a)

/-- A viewer's connection receives images as copies only. -/
theorem FramePath.image_eq (h : FramePath S s) {k : SessionId} {o : SessionRef} {n : String}
    (hviewer : (s.server.conn ws).acceptance = some (.viewer k o n)) {f : Outgoing}
    (hf : f ∈ (s.server.conn ws).sent) : f.image S = f.copy.bind fun copy =>
      Page.frameOf ⟨S.stringify (.obj copy.2), some (.obj copy.2)⟩ := by
  cases f with
  | forward source members => rfl
  | input source message =>
      obtain ⟨e, k', o', i, now, hagent, -⟩ := h.traced ws _ hf rfl
      cases hviewer.symm.trans hagent
  | setScale scale originalWidth originalHeight =>
      -- a scale is no frame
      show Page.frameOf ⟨_, some (.obj (setScaleMembers scale originalWidth originalHeight))⟩ = none
      rw [frameOf_eq rfl, Json.member, lookup_setScaleMembers]
      rfl
  | agentStatus connected => rfl
  | ping | close _ _ => rfl

/-- What a connection of the agent sends are messages of its main thread. -/
theorem FramePath.taken_agent (h : FramePath S s) (hagent : s.peer a = some .agent) :
    (s.taken a).Sublist (s.main.sent.map fun m => ⟨S.dump m.json, some m.json⟩) := by
  have hlog : s.outbox S a = some ((s.said a).map fun m => ⟨S.dump m.json, some m.json⟩) := by
    rw [outbox, hagent]
  exact (h.sound.taken a _ hlog).sublist.trans ((h.said a).map _)

/-- A message of the main thread that is a frame to a page is an image. -/
theorem FramePath.image_of_frameOf (h : FramePath S s) {m : AgentMessage} (hm : m ∈ s.main.sent)
    {text : String} {src width height : Option Json}
    (hframe : Page.frameOf ⟨text, some m.json⟩ = some (src, width, height)) :
    ∃ jpegBuf w h, jpegBuf ≠ [] ∧ 0 < w ∧ 0 < h ∧ imageData src = some jpegBuf ∧
      width = some (.ofInt w) ∧ height = some (.ofInt h) := by
  rw [frameOf_eq rfl] at hframe
  cases m with
  | screenInfo _ _ _ _ => cases hframe
  | frame base64_image _ _ =>
      obtain ⟨jpegBuf, width', height', hbuf, hwidth, hheight, heq⟩ := h.images _ hm rfl
      cases heq
      split at hframe
      · cases hframe
        exact ⟨jpegBuf, _, _, hbuf, hwidth, hheight, imageData_encode jpegBuf, rfl, rfl⟩
      · cases hframe

/-- A page shows the frames that its connection was sent, and these have origins. -/
theorem FramePath.exists_showsFrames (h : FramePath S s) {p : PageId} {i : SocketId}
    {k : SessionId} {o : SessionRef} {n : String} (hpeer : s.peer ws = some (.viewer p i))
    (hviewer : (s.server.conn ws).acceptance = some (.viewer k o n)) :
    ∃ origins, ShowsFrames S s ws p i k o origins := by
  obtain ⟨origins, hcopyOf, hordered⟩ := h.exists_origins ws
  have hagent : ∀ a, s.peer a = some .agent → (fromSource a origins).Sublist
      (s.main.sent.map fun m => ⟨S.dump m.json, some m.json⟩) :=
    fun a ha => (hordered a).trans (h.taken_agent ha)
  refine ⟨origins, ?_, ?_, hordered, hagent, ?_⟩
  · -- the images are read off the copies, and these off the messages
    have himages : ((s.server.conn ws).sent.take (s.heard ws)).filterMap (Outgoing.image S) =
        (s.heardCopies ws).filterMap fun copy =>
          Page.frameOf ⟨S.stringify (.obj copy.2), some (.obj copy.2)⟩ := by
      rw [heardCopies, List.filterMap_filterMap]
      exact List.filterMap_congr fun f hf => h.image_eq hviewer (List.mem_of_mem_take hf)
    rw [h.shown ws p i hpeer, himages]
    exact filterMap_eq_of_forall₂ hcopyOf fun _ _ hcopy => frameOf_of_copyOf hcopy _
  · intro f hf
    obtain ⟨copy, hcopy, hsource, -⟩ := exists_copy_of_forall₂ hcopyOf hf
    obtain ⟨g, hg, heq⟩ := List.mem_filterMap.mp hcopy
    cases g with
    | forward source members =>
        obtain rfl := Option.some.inj heq
        obtain ⟨e, k', o', i', message, now, msg, screen, hviewer', hslot, -⟩ :=
          h.traced ws _ (List.mem_of_mem_take hg) rfl
        obtain ⟨rfl, rfl, -⟩ :=
          Acceptance.viewer.inj (Option.some.inj (hviewer.symm.trans hviewer'))
        rwa [← hsource]
    | _ => cases heq
  · intro f hf hpeerAgent src width height hframe
    have hmem := (hagent f.1 hpeerAgent).subset ((mem_fromSource f.1).mpr hf)
    obtain ⟨m, hm, heq⟩ := List.mem_map.mp hmem
    rw [← heq] at hframe
    exact h.image_of_frameOf hm hframe

end System

/-- The main thread up to the choice of a source, and its first round of sharing. -/
def beforeImage : List MainThread.Event :=
  [.initializeCompressor true, .connect false, .wait true, .check true,
    .select none true ⟨4, 2, 0, 0, 4, 2⟩ ⟨true, 96, 96, none⟩]

/-- A round of the main thread that captures and encodes an image. -/
def imageRound : MainThread.Event :=
  .share none true (Win32.plain 4 2) ⟨false, some [0xFF, 0xD8]⟩

/-- A source is chosen, and a frame of it is sent. -/
def imageEvents : List SystemEvent :=
  [.main (.wait true), .main (.check true),
    .main (.select none true ⟨4, 2, 0, 0, 4, 2⟩ ⟨true, 96, 96, none⟩), .main imageRound,
    .handles 0 2]

/-- The state before the server handles the frame. -/
def imageSent : System :=
  (network joiningSetting).after ((network joiningSetting).after (network joiningSetting).start
    bothArrive) imageEvents

/-- The message of the frame. -/
def imageMessage : Message :=
  let v := (AgentMessage.frame (Base64.encode [0xFF, 0xD8]) 4 2).json
  ⟨flatText v, some v⟩

/-- The frame reaches the page. -/
def hearImage : List SystemEvent := [.viewerHears 1, .viewerHears 1, .viewerHears 1]

/-- The message in front of the server is then that image. -/
theorem nextMessage_imageSent : imageSent.nextMessage joiningSetting 0 = some imageMessage := by
  have hrun : agentMain.IsRun beforeImage := ⟨rfl, rfl, ⟨0, rfl⟩, rfl, rfl, trivial⟩
  have htidy := GuardedMachine.States.last agentMain
    (agentMain.states_of_invariant MainThread.tidy_start (fun _ _ h he => h.step he) hrun)
  have hsent := htidy.sent_step (e := imageRound) rfl
  have hsaid : imageSent.said 0 =
      [announcement none ⟨4, 2, 0, 0, 4, 2⟩ ⟨true, 96, 96, none⟩] ++
        ((agentMain.after agentMain.start beforeImage).step imageRound).sent.drop 1 := rfl
  rw [hsent] at hsaid
  have hlog : imageSent.outbox joiningSetting 0 =
      some ((imageSent.said 0).map fun m => ⟨flatText m.json, some m.json⟩) := rfl
  rw [System.nextMessage, hlog, hsaid]
  rfl

/-- The server handles it. -/
theorem step_imageSent : (network joiningSetting).step imageSent (.handles 0 3) =
    imageSent.handle 0 imageMessage 3 := by
  simp only [network, System.step, nextMessage_imageSent]

/-- The main thread may do all this. -/
theorem isRun_imageEvents : (network joiningSetting).IsRun (bothArrive ++ imageEvents) := by
  have harrived := (((network joiningSetting).steps_append _ _ _ _).mp isRun_greeting).1
  refine ((network joiningSetting).steps_append _ _ _ _).mpr ⟨harrived, ?_, ?_, ?_, ?_, ?_, trivial⟩
  · exact ⟨⟨0, rfl⟩, rfl, rfl⟩
  · exact ⟨rfl, rfl, rfl⟩
  · exact ⟨rfl, rfl, rfl⟩
  · exact ⟨rfl, rfl, rfl, rfl⟩
  · exact ⟨_, rfl, by decide⟩

/-- The page may then hear the image. -/
theorem isRun_hearImage : (network joiningSetting).IsRun
    (bothArrive ++ (imageEvents ++ .handles 0 3 :: hearImage)) := by
  have hbefore := ((network joiningSetting).steps_append _ _ _ _).mp isRun_imageEvents
  refine ((network joiningSetting).steps_append _ _ _ _).mpr ⟨hbefore.1, ?_⟩
  refine ((network joiningSetting).steps_append _ _ _ _).mpr ⟨hbefore.2, ?_⟩
  show (network joiningSetting).Steps (network joiningSetting).Enabled imageSent _
  refine ⟨⟨imageMessage, nextMessage_imageSent, by decide⟩, ?_⟩
  rw [step_imageSent]
  refine ⟨?_, ?_, ?_, trivial⟩
  · exact ⟨0, 0, _, rfl, rfl, fun _ _ => rfl⟩
  · exact ⟨0, 0, _, rfl, rfl, fun _ _ => rfl⟩
  · exact ⟨0, 0, _, rfl, rfl, fun _ _ => rfl⟩

/-- What that run leads to. -/
theorem after_hearImage : (network joiningSetting).after (network joiningSetting).start
    (bothArrive ++ (imageEvents ++ .handles 0 3 :: hearImage)) =
      (network joiningSetting).after (imageSent.handle 0 imageMessage 3) hearImage := by
  rw [(network joiningSetting).after_append, (network joiningSetting).after_append,
    (network joiningSetting).after_cons, ← step_imageSent]
  rfl

end BrowCast
