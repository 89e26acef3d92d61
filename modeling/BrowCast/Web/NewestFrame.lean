import BrowCast.Web.Viewer

/-! # The newest frame

Every frame starts an image of its own, and whichever image has loaded last is the one shown. The
frames of a connection are shown in order, and the newest one in the end, exactly when the images
load in the order their frames came in. -/

namespace BrowCast.Web

/-- The image is on the canvas. -/
def Page.shows (p : Page) (img : Image) : Prop := p.canvas.picture = .image img

/-- The event is a message on the socket `i`, or an image that has loaded. -/
def PageEvent.ofConnection (i : SocketId) : PageEvent → Prop
  | .message j _ => j = i
  | .loaded _ _ _ => True
  | _ => False

/-- An image that has loaded is the oldest one of those loading. -/
def PageEvent.loadsOldest : PageEvent → Bool
  | .loaded n _ _ => n = 0
  | _ => true

/-- The canvas does not go back to the image of an earlier frame. -/
def Forward (p : Page) (e : PageEvent) : Prop :=
  ∀ img img', p.shows img → (p.step e).shows img' → img.number ≤ img'.number

/-- The frame that came last is shown, and the dimensions are its own. -/
def ShowsNewest (p : Page) : Prop :=
  ∀ img, p.received.getLast? = some img →
    p.shows img ∧ p.originalWidth = img.width ∧ p.originalHeight = img.height

/-- Along the events the canvas never goes back, and after them it shows the newest frame, if there
was one. -/
structure NewestWins (https : Bool) (p : Page) (es : List PageEvent) : Prop where
  newest : p.received.length < ((viewer https).after p es).received.length →
    ShowsNewest ((viewer https).after p es)
  forward : (viewer https).Steps Forward p es

/-! ## Numbers of frames -/

/-- Frames are numbered as they come; the images that are loading are in that order; and the canvas
shows an image of a frame. -/
structure Numbered (p : Page) : Prop where
  increasing : p.received.Pairwise (·.number < ·.number)
  bounded : ∀ img ∈ p.received, img.number < p.received.length
  loading : p.images.Sublist p.received
  shown : ∀ img, p.shows img → img ∈ p.received

section Numbers

variable {p : Page} {e : PageEvent}

/-- What leaves the frames leaves their numbers. -/
theorem Numbered.of_sameFrames {p' : Page} (h : Numbered p) (hsame : Page.SameFrames p p') :
    Numbered p' where
  increasing := hsame.received ▸ h.increasing
  bounded := hsame.received ▸ h.bounded
  loading := hsame.images ▸ hsame.received ▸ h.loading
  shown img himg := by
    rw [hsame.received]
    unfold Page.shows at himg
    rcases hsame.picture with hpicture | hpicture
    · exact h.shown img (hpicture.symm.trans himg)
    · rw [hpicture] at himg
      cases himg

/-- A message leaves the canvas as it is. -/
theorem canvas_onmessage (p : Page) (i : SocketId) (message : Message) :
    (p.onmessage i message).canvas = p.canvas := by
  obtain ⟨display, hdisplay⟩ | ⟨img, -, -, himg⟩ := Page.exists_onmessage_eq p i message
  · rw [hdisplay]
  · rw [himg]

/-- A message gives its frame the next number. -/
theorem Numbered.message (h : Numbered p) (i : SocketId) (message : Message) :
    Numbered (p.onmessage i message) := by
  obtain ⟨display, hdisplay⟩ | ⟨img, hnumber, -, himg⟩ := Page.exists_onmessage_eq p i message
  · rw [hdisplay]
    exact ⟨h.increasing, h.bounded, h.loading, h.shown⟩
  · rw [himg]
    refine ⟨?_, fun other hother => ?_, h.loading.append (List.Sublist.refl _), ?_⟩
    · refine List.pairwise_append.mpr ⟨h.increasing, List.pairwise_singleton _ _, ?_⟩
      intro old hold new hnew
      rw [List.mem_singleton.mp hnew, hnumber]
      exact h.bounded old hold
    · show other.number < (p.received ++ [img]).length
      rw [List.length_append, List.length_singleton]
      rcases List.mem_append.mp hother with hold | hnew
      · exact Nat.lt_succ_of_lt (h.bounded other hold)
      · rw [List.mem_singleton.mp hnew, hnumber]
        exact Nat.lt_succ_self _
    · intro other hother
      exact List.mem_append_left _ (h.shown other hother)

/-- Every event keeps the frames numbered. -/
theorem Numbered.step (h : Numbered p) (he : p.Enabled e) : Numbered (p.step e) := by
  by_cases hmessage : ∃ i m, e = .message i m
  · obtain ⟨i, m, rfl⟩ := hmessage
    exact h.message i m
  · by_cases hloaded : ∃ n w k, e = .loaded n w k
    · obtain ⟨n, w, k, rfl⟩ := hloaded
      obtain ⟨img, hn, hstep⟩ := Page.exists_step_loaded he
      rw [hstep]
      refine ⟨h.increasing, h.bounded, (List.eraseIdx_sublist ..).trans h.loading, ?_⟩
      intro other hother
      cases hother
      exact h.loading.subset (List.mem_of_getElem? hn)
    · exact h.of_sameFrames (Page.sameFrames_step he
        (fun i m heq => hmessage ⟨i, m, heq⟩) fun n w k heq => hloaded ⟨n, w, k, heq⟩)

/-- Over a run the frames are numbered in order. -/
theorem numbered_after {https : Bool} {es : List PageEvent} (hrun : (viewer https).IsRun es) :
    Numbered ((viewer https).after (viewer https).start es) := by
  have hstart : Numbered (viewer https).start :=
    ⟨List.Pairwise.nil, fun _ h => (by cases h), List.Sublist.refl _, fun _ h => (by cases h)⟩
  exact ((viewer https).states_of_invariant hstart (fun _ _ h he => h.step he) hrun).last

end Numbers

/-! ## Loading in order -/

/-- The frames that came are those that are done and then those that are loading. What the canvas
shows is done; and when more than the first `n` are done, it shows the last of them. -/
def Front (n : ℕ) (p : Page) : Prop :=
  ∃ finished, p.received = finished ++ p.images ∧ (∀ img, p.shows img → img ∈ finished) ∧
    (n < finished.length → ∃ img, finished.getLast? = some img ∧ p.shows img ∧
      p.originalWidth = img.width ∧ p.originalHeight = img.height)

section InOrder

variable {p : Page} {e : PageEvent} {n : ℕ} {i : SocketId}

/-- A message starts a newer frame. -/
theorem Front.message (h : Front n p) (message : Message) : Front n (p.onmessage i message) := by
  obtain ⟨display, hdisplay⟩ | ⟨img, -, -, himg⟩ := Page.exists_onmessage_eq p i message
  · rw [hdisplay]
    exact h
  · rw [himg]
    obtain ⟨finished, hsplit, hshown, hlast⟩ := h
    refine ⟨finished, ?_, hshown, hlast⟩
    show p.received ++ [img] = finished ++ (p.images ++ [img])
    rw [hsplit, List.append_assoc]

/-- The oldest of the loading images is loaded, and shown. -/
theorem Front.loaded (h : Front n p) {img : Image} (himg : p.images[0]? = some img)
    (width height : ℕ) : Front n ((p.dropImage 0).onload img width height) := by
  obtain ⟨finished, hsplit, hshown, -⟩ := h
  obtain ⟨rest, hrest⟩ : ∃ rest, p.images = img :: rest := by
    cases himages : p.images with
    | nil => simp [himages] at himg
    | cons first rest =>
        rw [himages, List.getElem?_cons_zero] at himg
        exact ⟨rest, by rw [Option.some.inj himg]⟩
  refine ⟨finished ++ [img], ?_, fun other hother => ?_, fun _ => ?_⟩
  · show p.received = finished ++ [img] ++ p.images.eraseIdx 0
    rw [hsplit, hrest, List.eraseIdx_cons_zero, List.append_assoc]
    rfl
  · cases hother
    exact List.mem_append_right _ List.mem_cons_self
  · exact ⟨img, List.getLast?_concat, rfl, rfl, rfl⟩

/-- What is shown came before what is loading. -/
theorem number_lt_of_front (h : Front n p) (hnumbered : Numbered p) {img other : Image}
    (himg : p.shows img) (hother : other ∈ p.images) : img.number < other.number := by
  obtain ⟨finished, hsplit, hshown, -⟩ := h
  have hincreasing := hnumbered.increasing
  rw [hsplit, List.pairwise_append] at hincreasing
  exact hincreasing.2.2 img (hshown img himg) other hother

/-- **One step** in order keeps the front, and goes forward. -/
theorem Front.step (h : Front n p) (hnumbered : Numbered p) (he : p.Enabled e)
    (hone : e.ofConnection i) (horder : e.loadsOldest = true) :
    Front n (p.step e) ∧ Forward p e := by
  cases e with
  | message j message =>
      refine ⟨h.message message, fun img img' himg himg' => ?_⟩
      have hcanvas := canvas_onmessage p j message
      have hsame : p.shows img' := (congrArg Canvas.picture hcanvas).symm.trans himg'
      cases himg.symm.trans hsame
      exact le_rfl
  | loaded k width height =>
      obtain rfl : k = 0 := by simpa [PageEvent.loadsOldest] using horder
      obtain ⟨img, himg, hstep⟩ := Page.exists_step_loaded he
      refine ⟨hstep ▸ h.loaded himg width height, fun old new hold hnew => ?_⟩
      rw [hstep] at hnew
      cases hnew
      exact le_of_lt (number_lt_of_front h hnumbered hold (List.mem_of_getElem? himg))
  | connect _ _ _ | dialogConnect _ _ _ | disconnect | opened _ | closing _ | errored _ | closed _
  | input _ _ => exact absurd hone id

end InOrder

/-! ## Loading out of order -/

/-- Something is loading whose frame came before the one shown. -/
def Behind (p : Page) : Prop :=
  ∃ img other, p.shows img ∧ other ∈ p.images ∧ other.number < img.number

section OutOfOrder

variable {p : Page} {e : PageEvent} {i : SocketId}

/-- Going forward, what is behind stays behind. -/
theorem Behind.step (h : Behind p) (he : p.Enabled e) (hone : e.ofConnection i)
    (hforward : Forward p e) : Behind (p.step e) := by
  obtain ⟨img, other, himg, hother, hlt⟩ := h
  cases e with
  | message j message =>
      show Behind (p.onmessage j message)
      obtain ⟨display, hdisplay⟩ | ⟨new, -, -, hnew⟩ := Page.exists_onmessage_eq p j message
      · rw [hdisplay]
        exact ⟨img, other, himg, hother, hlt⟩
      · rw [hnew]
        exact ⟨img, other, himg, List.mem_append_left _ hother, hlt⟩
  | loaded k width height =>
      obtain ⟨new, hnew, hstep⟩ := Page.exists_step_loaded he
      have hshows : (p.step (.loaded k width height)).shows new := by
        rw [hstep]
        rfl
      have hle := hforward img new himg hshows
      refine ⟨new, other, hshows, ?_, lt_of_lt_of_le hlt hle⟩
      -- the image that has loaded is another one, so `other` is still loading
      obtain ⟨m, hm⟩ := List.mem_iff_getElem?.mp hother
      have hne : m ≠ k := by
        rintro rfl
        have hsame := Option.some.inj (hm.symm.trans hnew)
        rw [hsame] at hlt
        omega
      rw [hstep]
      exact List.mem_eraseIdx_iff_getElem?.mpr ⟨m, hne, hm⟩
  | connect _ _ _ | dialogConnect _ _ _ | disconnect | opened _ | closing _ | errored _ | closed _
  | input _ _ => exact absurd hone id

/-- Loading another image than the oldest leaves the oldest behind. -/
theorem behind_of_loaded (hnumbered : Numbered p) {k width height : ℕ}
    (he : p.Enabled (.loaded k width height)) (hk : k ≠ 0) :
    Behind (p.step (.loaded k width height)) := by
  obtain ⟨img, himg, hstep⟩ := Page.exists_step_loaded he
  have hpos : 0 < p.images.length := Nat.lt_of_le_of_lt (Nat.zero_le k) he
  have hfirst : p.images[0]? = some (p.images.get ⟨0, hpos⟩) := List.getElem?_eq_getElem hpos
  refine ⟨img, p.images.get ⟨0, hpos⟩, hstep ▸ rfl, ?_, ?_⟩
  · rw [hstep]
    exact List.mem_eraseIdx_iff_getElem?.mpr ⟨0, hk.symm, hfirst⟩
  · have hsorted := hnumbered.increasing.sublist hnumbered.loading
    obtain ⟨hlt, rfl⟩ := List.getElem?_eq_some_iff.mp himg
    exact List.pairwise_iff_getElem.mp hsorted 0 k hpos hlt (Nat.pos_of_ne_zero hk)

end OutOfOrder

/-! ## Runs -/

section Runs

variable {https : Bool} {p : Page} {es : List PageEvent} {i : SocketId}

/-- Once something is behind, going forward never leaves the loading images empty. -/
theorem images_ne_nil_of_behind (hbehind : Behind p)
    (hrun : (viewer https).Steps Page.Enabled p es) (hone : ∀ e ∈ es, e.ofConnection i)
    (hforward : (viewer https).Steps Forward p es) :
    ((viewer https).after p es).images ≠ [] := by
  have hsteps := GuardedMachine.Steps.and _ ((viewer https).steps_iff_forall_mem.mpr hone) hforward
  obtain ⟨_, other, -, hother, -⟩ := ((viewer https).states_of_steps
    (fun _ _ h he hC => h.step he hC.1 hC.2) hbehind hrun hsteps).last
  exact List.ne_nil_of_mem hother

/-- When the canvas only goes forward and all images load, they load in order. -/
theorem loadsOldest_of_forward (hnumbered : Numbered p)
    (hrun : (viewer https).Steps Page.Enabled p es) (hone : ∀ e ∈ es, e.ofConnection i)
    (hforward : (viewer https).Steps Forward p es)
    (hall : ((viewer https).after p es).images = []) : ∀ e ∈ es, e.loadsOldest = true := by
  induction es generalizing p with
  | nil => exact fun _ h => (by cases h)
  | cons e es ih =>
      obtain ⟨-, hrest⟩ := List.forall_mem_cons.mp hone
      refine List.forall_mem_cons.mpr
        ⟨?_, ih (hnumbered.step hrun.1) hrun.2 hrest hforward.2 hall⟩
      cases e with
      | loaded k width height =>
          by_contra horder
          have hk : k ≠ 0 := by simpa [PageEvent.loadsOldest] using horder
          have hbehind := behind_of_loaded hnumbered hrun.1 hk
          exact images_ne_nil_of_behind hbehind hrun.2 hrest hforward.2 hall
      | connect _ _ _ | dialogConnect _ _ _ | disconnect | opened _ | message _ _ | closing _
      | errored _ | closed _ | input _ _ => rfl

/-- When the images load in order, the newest frame wins. -/
theorem newestWins_of_loadsOldest (hnumbered : Numbered p) (hbefore : p.images = [])
    (hrun : (viewer https).Steps Page.Enabled p es) (hone : ∀ e ∈ es, e.ofConnection i)
    (hall : ((viewer https).after p es).images = [])
    (horder : ∀ e ∈ es, e.loadsOldest = true) : NewestWins https p es := by
  have hfront : Front p.received.length p := by
    refine ⟨p.received, by rw [hbefore, List.append_nil], hnumbered.shown, fun h => ?_⟩
    exact absurd h (lt_irrefl _)
  have hevents := (viewer https).steps_iff_forall_mem (s := p).mpr fun e he =>
    And.intro (hone e he) (horder e he)
  have hstates : (viewer https).States (fun q => Front p.received.length q ∧ Numbered q) p es :=
    (viewer https).states_of_steps (fun _ _ h he hC => ⟨(h.1.step h.2 he hC.1 hC.2).1, h.2.step he⟩)
      ⟨hfront, hnumbered⟩ hrun hevents
  refine ⟨fun hmore img hlast => ?_, ?_⟩
  · obtain ⟨⟨finished, hsplit, -, hshown⟩, -⟩ := hstates.last
    rw [hall, List.append_nil] at hsplit
    obtain ⟨newest, hget, hshows, hwidth, hheight⟩ := hshown (hsplit ▸ hmore)
    rw [hsplit, hget] at hlast
    obtain rfl := Option.some.inj hlast
    exact ⟨hshows, hwidth, hheight⟩
  · exact GuardedMachine.Steps.mono _ (fun _ _ h he hC => (h.1.step h.2 he hC.1 hC.2).2) hstates
      hrun hevents

end Runs

/-- **The newest frame wins**, for the messages of one connection and the load events of all their
images, exactly when the images load in the order their frames came in. The events before may be any
run after which no image is loading. -/
theorem newestWins_iff_loadsOldest {https : Bool} {before es : List PageEvent} {i : SocketId}
    (hrun : (viewer https).IsRun (before ++ es)) (hone : ∀ e ∈ es, e.ofConnection i)
    (hbefore : ((viewer https).after (viewer https).start before).images = [])
    (hall : ((viewer https).after (viewer https).start (before ++ es)).images = []) :
    NewestWins https ((viewer https).after (viewer https).start before) es ↔
      ∀ e ∈ es, e.loadsOldest = true := by
  obtain ⟨hpast, hnow⟩ := ((viewer https).steps_append _ _ _ _).mp hrun
  rw [(viewer https).after_append] at hall
  have hnumbered := numbered_after hpast
  exact ⟨fun h => loadsOldest_of_forward hnumbered hnow hone h.forward hall,
    newestWins_of_loadsOldest hnumbered hbefore hnow hone hall⟩

/-- The page connects. -/
def connected : List PageEvent := [.connect "localhost" "a" true, .opened 0]

/-- Two frames whose images load in order. -/
theorem newestWins_inOrder :
    NewestWins false ((viewer false).after (viewer false).start connected)
      [.message 0 (frameMessage 4 3), .message 0 (frameMessage 8 6), .loaded 0 4 3,
        .loaded 0 8 6] :=
  (newestWins_iff_loadsOldest (i := 0) (by decide +kernel)
    (by simp [PageEvent.ofConnection]) (List.isEmpty_iff.mp (by decide +kernel))
    (List.isEmpty_iff.mp (by decide +kernel))).mpr (by decide)

/-- The image of the second frame loads first: the canvas goes back to the first frame, whose
dimensions stay. -/
def outOfOrder : List PageEvent :=
  [.message 0 (frameMessage 4 3), .message 0 (frameMessage 8 6), .loaded 1 8 6, .loaded 0 4 3]

/-- Two frames that load in the other order leave the older one. -/
theorem not_newestWins_outOfOrder :
    (viewer false).IsRun (connected ++ outOfOrder) ∧
      ¬ NewestWins false ((viewer false).after (viewer false).start connected) outOfOrder := by
  have hrun : (viewer false).IsRun (connected ++ outOfOrder) := by decide +kernel
  refine ⟨hrun, fun h => ?_⟩
  obtain ⟨hpast, hnow⟩ := ((viewer false).steps_append _ _ _ _).mp hrun
  have horder := loadsOldest_of_forward (i := 0) (numbered_after hpast) hnow
    (by simp [outOfOrder, PageEvent.ofConnection]) h.forward
    (List.isEmpty_iff.mp (by decide +kernel))
  revert horder
  decide

end BrowCast.Web
