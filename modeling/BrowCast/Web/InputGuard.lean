import BrowCast.JavaScript.Arithmetic
import BrowCast.Web.Viewer

/-! # The guard of `sendInput`

`sendInput` lets an event through when the stored socket is open and the dimensions are positive.
The dimensions are those of the frame drawn last, whichever socket it came on: they outlive the
connection. Input is sent after a frame of the same connection, and inside it, when the events come
late enough. -/

namespace BrowCast.Web

/-! ## Frames and the dimensions -/

/-- The invariant: images are those of frames that came, and the dimensions are those of the frame
drawn last. -/
structure Dimensioned (p : Page) : Prop where
  loading : ∀ img ∈ p.images, img ∈ p.received
  drawn : ∀ img ∈ p.drawn, img ∈ p.received
  initial : p.drawn = [] → p.originalWidth = some (.num (.finite false 0))
  last : ∀ img ∈ p.drawn.head?, p.originalWidth = img.width ∧ p.originalHeight = img.height

section Steps

variable {p : Page} {e : PageEvent}

/-- What leaves the frames leaves their dimensions. -/
theorem Dimensioned.of_sameFrames {p' : Page} (h : Dimensioned p) (hsame : Page.SameFrames p p') :
    Dimensioned p' where
  loading := hsame.images ▸ hsame.received ▸ h.loading
  drawn := hsame.drawn ▸ hsame.received ▸ h.drawn
  initial := hsame.drawn ▸ hsame.originalWidth ▸ h.initial
  last := hsame.drawn ▸ hsame.originalWidth ▸ hsame.originalHeight ▸ h.last

/-- A message draws no frame. -/
theorem Dimensioned.message (h : Dimensioned p) (i : SocketId) (message : Message) :
    Dimensioned (p.onmessage i message) := by
  obtain ⟨display, hdisplay⟩ | ⟨img, -, -, himg⟩ := Page.exists_onmessage_eq p i message
  · rw [hdisplay]
    exact ⟨h.loading, h.drawn, h.initial, h.last⟩
  · rw [himg]
    refine ⟨?_, fun old hold => List.mem_append_left _ (h.drawn old hold), h.initial, h.last⟩
    intro other hother
    rcases List.mem_append.mp hother with hold | hnew
    · exact List.mem_append_left _ (h.loading other hold)
    · exact List.mem_append_right _ hnew

/-- A frame that is drawn brings its dimensions. -/
theorem Dimensioned.loaded (h : Dimensioned p) {n width height : ℕ} {img : Image}
    (himg : p.images[n]? = some img) : Dimensioned ((p.dropImage n).onload img width height) where
  loading other hother := h.loading other (List.mem_of_mem_eraseIdx hother)
  drawn other hother := by
    rcases List.mem_cons.mp hother with rfl | hold
    · exact h.loading other (List.mem_of_getElem? himg)
    · exact h.drawn other hold
  initial hnone := absurd hnone (List.cons_ne_nil _ _)
  last other hother := by
    cases hother
    exact ⟨rfl, rfl⟩

/-- Every step keeps the invariant. -/
theorem Dimensioned.step (h : Dimensioned p) (he : p.Enabled e) : Dimensioned (p.step e) := by
  cases e with
  | message i message => exact h.message i message
  | loaded n width height =>
      obtain ⟨img, himg, hstep⟩ := Page.exists_step_loaded he
      rw [hstep]
      exact h.loaded himg
  | _ => exact h.of_sameFrames (Page.sameFrames_step he (fun _ _ h => (by cases h))
      fun _ _ _ h => (by cases h))

/-! ## What a step sends -/

/-- What a step sends, and on which socket. -/
def Page.sentBy (p : Page) (e : PageEvent) : List (SocketId × Json) :=
  (p.step e).sent.drop p.sent.length

/-- Only open events and input events send. -/
theorem sentBy_eq_nil (he : p.Enabled e) (hopened : ∀ i, e ≠ .opened i)
    (hinput : ∀ event rect, e ≠ .input event rect) : p.sentBy e = [] := by
  have hsent : (p.step e).sent = p.sent := by
    by_cases hmessage : ∃ i message, e = .message i message
    · obtain ⟨i, message, rfl⟩ := hmessage
      show (p.onmessage i message).sent = p.sent
      obtain ⟨display, hdisplay⟩ | ⟨img, -, -, himg⟩ := Page.exists_onmessage_eq p i message
      · rw [hdisplay]
      · rw [himg]
    · by_cases hloaded : ∃ n width height, e = .loaded n width height
      · obtain ⟨n, width, height, rfl⟩ := hloaded
        obtain ⟨img, -, hstep⟩ := Page.exists_step_loaded he
        rw [hstep]
        rfl
      · obtain ⟨_, _, _, _, sent, _, -, hsent, hstep⟩ := Page.exists_step_eq he
          (fun i message h => hmessage ⟨i, message, h⟩)
          fun n width height h => hloaded ⟨n, width, height, h⟩
        rw [hstep]
        exact hsent hopened hinput
  rw [Page.sentBy, hsent, List.drop_length]

/-- A page that sends, sends on the socket stored in `ws`. -/
theorem mem_send {message sent : Json} {i : SocketId}
    (h : (i, sent) ∈ (p.send message).sent.drop p.sent.length) :
    sent = message ∧ p.ws = some i ∧ p.wsState = some .open := by
  by_cases hopen : p.wsState = some .open
  · obtain ⟨j, hws, hsend⟩ := Page.send_of_open message hopen
    rw [hsend, List.drop_left, List.mem_singleton] at h
    cases h
    exact ⟨rfl, hws, hopen⟩
  · rw [Page.send_of_not_open message hopen, List.drop_length] at h
    cases h

/-- **Input is sent by input events**, on the socket stored in `ws`, when the page accepts them. -/
theorem input_of_mem_sentBy (he : p.Enabled e) {i : SocketId} {message : Json}
    (hmem : (i, message) ∈ p.sentBy e)
    (htype : Json.isText "input" (message.member "type") = true) :
    ∃ event rect width height, e = .input event rect ∧ p.ws = some i ∧ p.Accepts width height ∧
      message = event.object rect width height := by
  by_cases hopened : ∃ j, e = .opened j
  · -- what an open event sends is no input
    obtain ⟨j, rfl⟩ := hopened
    obtain ⟨socket, -, hstep⟩ := Page.exists_step_opened he
    rw [Page.sentBy, hstep, Page.onopen] at hmem
    obtain ⟨rfl, -⟩ := mem_send (p := (((p.setReadyState j .open).updateStatus "Connected!"
      "success").setOverlay true).setControls false) hmem
    cases htype
  · by_cases hinput : ∃ event rect, e = .input event rect
    · obtain ⟨event, rect, rfl⟩ := hinput
      -- an event of the user is sent if the page accepts it
      rw [Page.sentBy, Page.step, Page.sendInput] at hmem
      split at hmem
      · next sent hsent =>
          obtain ⟨width, height, haccepts⟩ := Page.exists_accepts hsent
          obtain ⟨rfl, hws, -⟩ := mem_send hmem
          have hobject := haccepts.inputMessage event rect
          rw [hsent] at hobject
          cases hobject
          exact ⟨event, rect, width, height, rfl, hws, haccepts, rfl⟩
      · rw [List.drop_length] at hmem
        cases hmem
    · rw [sentBy_eq_nil he (fun j h => hopened ⟨j, h⟩) fun event rect h =>
        hinput ⟨event, rect, h⟩] at hmem
      cases hmem

end Steps

/-! ## Input and frames of the same connection -/

/-- The coordinate, if it is a number, is at least zero and less than the dimension. -/
def Within (coordinate dimension : Option Json) : Prop :=
  ∀ n, coordinate = some (.num n) → ∃ m d, n = .finite false m ∧
    Json.toNumber dimension = .ok d ∧ d.greater (.finite false m) = true

/-- Input that is sent on a socket is sent after a frame of that socket was drawn, and its
coordinates lie within a frame of that socket. -/
def InputAfterFrame (p : Page) (e : PageEvent) : Prop :=
  ∀ i message, (i, message) ∈ p.sentBy e → Json.isText "input" (message.member "type") = true →
    (∃ img ∈ p.drawn, img.socket = i) ∧
      ∃ img ∈ p.received, img.socket = i ∧ Within (message.member "x") img.width ∧
        Within (message.member "y") img.height

/-- The dimension is a positive number. -/
def positive (dimension : Option Json) : Bool :=
  match Json.toNumber dimension with
  | .ok d => d.greater (.ofRat 0)
  | .error _ => false

/-- The dimension is a number, and at most the other one. -/
def noLarger (dimension bound : Option Json) : Bool :=
  match Json.toNumber dimension, Json.toNumber bound with
  | .ok d, .ok b => b ≠ .nan && !d.greater b
  | _, _ => false

/-- A frame of the socket stored in `ws` was drawn. -/
def Page.frameDrawn (p : Page) : Prop := ∃ img ∈ p.drawn, p.ws = some img.socket

/-- The frame is no larger than some frame of the socket stored in `ws`. -/
def Page.covers (p : Page) (last : Image) : Prop :=
  ∃ img ∈ p.received, p.ws = some img.socket ∧ noLarger last.width img.width = true ∧
    noLarger last.height img.height = true

/-- An event that `sendInput` lets through comes after a frame of the socket stored in `ws` was
drawn, and one with coordinates while the frame drawn last, of whichever socket, is no larger than
some frame of that socket. -/
def Current (p : Page) : PageEvent → Prop
  | .input event _ => p.wsState = some .open → ∀ last ∈ p.drawn.head?,
      positive last.width = true → positive last.height = true →
        p.frameDrawn ∧ (event.hasCoordinates = true → p.covers last)
  | _ => True

instance (p : Page) : Decidable p.frameDrawn :=
  inferInstanceAs (Decidable (∃ img ∈ p.drawn, p.ws = some img.socket))

instance (p : Page) (last : Image) : Decidable (p.covers last) :=
  inferInstanceAs (Decidable (∃ img ∈ p.received, p.ws = some img.socket ∧
    noLarger last.width img.width = true ∧ noLarger last.height img.height = true))

instance (p : Page) (e : PageEvent) : Decidable (Current p e) :=
  match e with
  | .input event _ =>
      inferInstanceAs (Decidable (p.wsState = some .open → ∀ last ∈ p.drawn.head?,
        positive last.width = true → positive last.height = true →
          p.frameDrawn ∧ (event.hasCoordinates = true → p.covers last)))
  | .connect _ _ _ | .dialogConnect _ _ _ | .disconnect | .opened _ | .message _ _ | .closing _
  | .errored _ | .closed _ | .loaded _ _ _ => .isTrue trivial

section Guard

variable {p : Page} {width height : Number}

/-- What lies below a dimension lies below a larger one. -/
theorem within_of_noLarger {dimension bound : Option Json} {d : Number}
    (hd : Json.toNumber dimension = .ok d) (hle : noLarger dimension bound = true) {c : Number}
    (hc : ∀ s m, c = .finite s m → s = false ∧ d.greater (.finite false m) = true) :
    Within (some (.ofNumber c)) bound := by
  unfold noLarger at hle
  rw [hd] at hle
  cases hb : Json.toNumber bound with
  | error error => simp [hb] at hle
  | ok b =>
      simp only [hb, Bool.and_eq_true, decide_eq_true_eq, Bool.not_eq_true'] at hle
      intro n hn
      rcases c with _ | s | ⟨s, m⟩
      · cases hn
      · cases hn
      · obtain ⟨rfl, hgreater⟩ := hc s m rfl
        refine ⟨m, b, ?_, hb ▸ rfl, Number.greater_of_not_greater hle.1 hle.2 hgreater⟩
        cases hn
        split_ifs with hzero
        · rw [hzero]
        · rfl

/-- The dimensions `sendInput` scales to are positive. -/
theorem exists_last (h : Dimensioned p) (haccepts : p.Accepts width height) :
    ∃ last, p.drawn.head? = some last ∧ Json.toNumber last.width = .ok width ∧
      Json.toNumber last.height = .ok height := by
  cases hdrawn : p.drawn with
  | nil =>
      -- before any frame the width is zero, and nothing is let through
      have hwidth := haccepts.originalWidth
      rw [h.initial hdrawn, Json.toNumber_num] at hwidth
      cases hwidth
      have hpos := haccepts.width_pos
      simp [Number.ofRat_zero, Number.greater] at hpos
  | cons last drawn =>
      obtain ⟨hwidth, hheight⟩ := h.last last (by rw [hdrawn, List.head?_cons]; rfl)
      exact ⟨last, rfl, hwidth ▸ haccepts.originalWidth, hheight ▸ haccepts.originalHeight⟩

/-- A dimension that passes the guard is positive. -/
theorem positive_of_greater {dimension : Option Json} {d : Number}
    (hd : Json.toNumber dimension = .ok d) (hpos : d.greater (.ofRat 0) = true) :
    positive dimension = true := by
  rw [positive, hd]
  exact hpos

/-- Scaled coordinates lie below the dimensions they are scaled to. -/
theorem greater_scaled (event : DomEvent) (rect : DomRect) (haccepts : p.Accepts width height) :
    (∀ s m, (event.scaled rect width height).1 = .finite s m →
      s = false ∧ width.greater (.finite false m) = true) ∧
    ∀ s m, (event.scaled rect width height).2 = .finite s m →
      s = false ∧ height.greater (.finite false m) = true :=
  ⟨fun _ _ h => Number.greater_of_clamp haccepts.width_pos h,
    fun _ _ h => Number.greater_of_clamp haccepts.height_pos h⟩

/-- Input is current, and so it is sent after a frame of its socket, and inside one. -/
theorem inputAfterFrame_of_current {e : PageEvent} (h : Dimensioned p) (he : p.Enabled e)
    (hcurrent : Current p e) : InputAfterFrame p e := by
  intro i message hmem htype
  obtain ⟨event, rect, width, height, rfl, hws, haccepts, rfl⟩ := input_of_mem_sentBy he hmem htype
  obtain ⟨last, hlast, hwidth, hheight⟩ := exists_last h haccepts
  obtain ⟨⟨img, himg, hsocket⟩, hcovers⟩ := hcurrent haccepts.isOpen last hlast
    (positive_of_greater hwidth haccepts.width_pos)
    (positive_of_greater hheight haccepts.height_pos)
  have hi : img.socket = i := Option.some.inj (hsocket.symm.trans hws)
  refine ⟨⟨img, himg, hi⟩, ?_⟩
  obtain ⟨hx, hy⟩ := event.member_coordinates rect width height
  rw [hx, hy]
  by_cases hplace : event.hasCoordinates = true
  · obtain ⟨bound, hbound, hof, hwide, hhigh⟩ := hcovers hplace
    obtain ⟨hleft, htop⟩ := greater_scaled event rect haccepts
    rw [if_pos hplace, if_pos hplace]
    exact ⟨bound, hbound, Option.some.inj (hof.symm.trans hws),
      within_of_noLarger hwidth hwide hleft, within_of_noLarger hheight hhigh htop⟩
  · -- a key has no coordinates, and any frame will do
    rw [if_neg hplace, if_neg hplace]
    exact ⟨img, h.drawn img himg, hi, fun _ h => (by cases h), fun _ h => (by cases h)⟩

/-- An event that is let through is sent on the socket stored in `ws`. -/
theorem sentBy_input (haccepts : p.Accepts width height) (event : DomEvent) (rect : DomRect) :
    ∃ i, p.ws = some i ∧
      p.sentBy (.input event rect) = [(i, event.object rect width height)] := by
  obtain ⟨i, hws, hsend⟩ := Page.send_of_open (event.object rect width height) haccepts.isOpen
  have hstep : p.step (.input event rect) = p.send (event.object rect width height) := by
    rw [Page.step, Page.sendInput, haccepts.inputMessage]
  refine ⟨i, hws, ?_⟩
  rw [Page.sentBy, hstep, hsend, List.drop_left]

/-- Input that is let through before a frame of its socket was drawn breaks the rule. -/
theorem frameDrawn_of_inputAfterFrame (haccepts : p.Accepts width height) {event : DomEvent}
    {rect : DomRect} (h : InputAfterFrame p (.input event rect)) : p.frameDrawn := by
  obtain ⟨i, hws, hsent⟩ := sentBy_input haccepts event rect
  have hmem : (i, event.object rect width height) ∈ p.sentBy (.input event rect) :=
    hsent ▸ List.mem_singleton_self _
  obtain ⟨⟨img, himg, hsocket⟩, -⟩ := h i _ hmem (by rw [DomEvent.member_object]; rfl)
  exact ⟨img, himg, hsocket ▸ hws⟩

end Guard

/-- **Input comes after a frame of its connection** in a run whose input events are current. -/
theorem steps_inputAfterFrame_of_current {https : Bool} {es : List PageEvent}
    (hrun : (viewer https).IsRun es)
    (hcurrent : (viewer https).Steps Current (viewer https).start es) :
    (viewer https).Steps InputAfterFrame (viewer https).start es := by
  have hstart : Dimensioned (viewer https).start :=
    ⟨fun _ h => (by cases h), fun _ h => (by cases h), fun _ => rfl, fun _ h => (by cases h)⟩
  have hstates := (viewer https).states_of_invariant hstart (fun _ _ h he => h.step he) hrun
  exact GuardedMachine.Steps.mono _
    (fun p e h he => inputAfterFrame_of_current (p := p) (e := e) h he) hstates hrun hcurrent

/-- Clicking on the frame, once it is drawn. -/
def looking : List PageEvent :=
  [.connect "localhost" "a" true, .opened 0, .message 0 (frameMessage 4 3), .loaded 0 4 3,
    .input (.mouse .mousedown 150 150 0) ⟨0, 0, 400, 300⟩]

/-- A user who points at frames. -/
theorem steps_inputAfterFrame_looking :
    (viewer false).Steps InputAfterFrame (viewer false).start looking :=
  steps_inputAfterFrame_of_current (by decide +kernel) (by decide +kernel)

/-- Typing after connecting to another session, before its first frame: the dimensions are those of
the session before. -/
def blind : List PageEvent :=
  [.connect "localhost" "a" true, .opened 0, .message 0 (frameMessage 4 3), .loaded 0 4 3,
    .connect "localhost" "b" true, .opened 1,
    .input (.key true "a" "KeyA" 65 false false false false) ⟨0, 0, 400, 300⟩]

/-- A user who points before there is one. -/
theorem not_inputAfterFrame_blind :
    (viewer false).IsRun blind ∧
      ¬ (viewer false).Steps InputAfterFrame (viewer false).start blind := by
  refine ⟨by decide +kernel, ?_⟩
  rintro ⟨-, -, -, -, -, -, htyped, -⟩
  have hdrawn := frameDrawn_of_inputAfterFrame
    ⟨by decide +kernel, Json.toNumber_num (.finite false 4), by decide +kernel,
      Json.toNumber_num (.finite false 3), by decide +kernel⟩ htyped
  revert hdrawn
  decide +kernel

end BrowCast.Web
