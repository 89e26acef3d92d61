import BrowCast.Runs.Channel
import BrowCast.Web.InputGuard

/-! # The records of a page

What the records of a page say after a step: what was sent stays sent, what is sent is a greeting or
an input message, the images of frames come with the messages of their socket only, and a socket
keeps the address it was created for. -/

namespace BrowCast.Web

namespace Page

variable {p : Page} {e : PageEvent} {i j : SocketId}

/-! ## What was sent -/

/-- Sending takes back nothing that was sent. -/
theorem sent_prefix_send (p : Page) (message : Json) : p.sent <+: (p.send message).sent := by
  by_cases hopen : p.wsState = some .open
  · obtain ⟨i, -, hsend⟩ := send_of_open message hopen
    rw [hsend]
    exact List.prefix_append _ _
  · exact (send_of_not_open message hopen).symm ▸ List.prefix_refl _

/-- A message starts an image at most. -/
theorem sent_onmessage (p : Page) (i : SocketId) (message : Message) :
    (p.onmessage i message).sent = p.sent := by
  obtain ⟨display, hdisplay⟩ | ⟨img, -, -, himg⟩ := exists_onmessage_eq p i message
  · rw [hdisplay]
  · rw [himg]

/-- What was sent stays sent. -/
theorem sent_prefix_step (he : p.Enabled e) : p.sent <+: (p.step e).sent := by
  cases e with
  | opened i =>
      obtain ⟨socket, -, hstep⟩ := exists_step_opened he
      rw [hstep]
      exact sent_prefix_send ((((p.setReadyState i .open).updateStatus "Connected!"
        "success").setOverlay true).setControls false) _
  | input event rect =>
      show p.sent <+: (p.sendInput event.inputType event.data rect).sent
      unfold sendInput
      split
      · exact sent_prefix_send p _
      · exact List.prefix_refl _
  | message i message =>
      exact (sent_onmessage p i message).symm ▸ List.prefix_refl p.sent
  | loaded n width height =>
      obtain ⟨img, -, hstep⟩ := exists_step_loaded he
      rw [hstep]
      exact List.prefix_refl _
  | connect _ _ _ | dialogConnect _ _ _ | disconnect | closing _ | errored _ | closed _ =>
      obtain ⟨_, _, _, _, sent, _, -, hsent, hstep⟩ :=
        exists_step_eq he (fun _ _ => PageEvent.noConfusion) fun _ _ _ => PageEvent.noConfusion
      rw [hstep]
      exact hsent (fun _ => PageEvent.noConfusion) (fun _ _ => PageEvent.noConfusion) ▸
        List.prefix_refl _

/-- So is what was sent on one socket. -/
theorem fromSource_sent_prefix_step (he : p.Enabled e) (i : SocketId) :
    fromSource i p.sent <+: fromSource i (p.step e).sent :=
  (sent_prefix_step he).filterMap _

/-- What a page says: its greeting, or an event of the user. -/
inductive Says : Json → Prop where
  | ready (sessionId : String) :
      Says (.obj [("type", .str "viewer_ready"), ("sessionId", .str sessionId)])
  | input (event : DomEvent) (rect : DomRect) (width height : Number) :
      Says (event.object rect width height)

/-- What is sent afterwards was sent before, or it is the message. -/
theorem mem_sent_send {f : SocketId × Json} {message : Json}
    (hf : f ∈ (p.send message).sent) : f ∈ p.sent ∨ f.2 = message := by
  by_cases hopen : p.wsState = some .open
  · obtain ⟨i, -, hsend⟩ := send_of_open message hopen
    rw [hsend] at hf
    rcases List.mem_append.mp hf with hold | hnew
    · exact Or.inl hold
    · exact Or.inr (congrArg Prod.snd (List.mem_singleton.mp hnew))
  · rw [send_of_not_open message hopen] at hf
    exact Or.inl hf

/-- A page says nothing else. -/
theorem mem_sent_step_cases (he : p.Enabled e) {f : SocketId × Json}
    (hf : f ∈ (p.step e).sent) : f ∈ p.sent ∨ Says f.2 := by
  cases e with
  | opened i =>
      obtain ⟨socket, -, hstep⟩ := exists_step_opened he
      rw [hstep] at hf
      rcases mem_sent_send hf with hold | hnew
      · exact Or.inl hold
      · exact Or.inr (hnew ▸ Says.ready socket.sessionId)
  | input event rect =>
      have hf : f ∈ (p.sendInput event.inputType event.data rect).sent := hf
      unfold sendInput at hf
      split at hf
      · rename_i message hmessage
        rcases mem_sent_send hf with hold | hnew
        · exact Or.inl hold
        · -- what the guard lets through is the object of the event
          obtain ⟨width, height, haccepts⟩ := exists_accepts hmessage
          rw [haccepts.inputMessage event rect] at hmessage
          obtain rfl := Option.some.inj (Except.ok.inj hmessage)
          exact Or.inr (hnew ▸ Says.input event rect width height)
      · exact Or.inl hf
  | message i message =>
      exact Or.inl (sent_onmessage p i message ▸ hf)
  | loaded n width height =>
      obtain ⟨img, -, hstep⟩ := exists_step_loaded he
      rw [hstep] at hf
      exact Or.inl hf
  | connect _ _ _ | dialogConnect _ _ _ | disconnect | closing _ | errored _ | closed _ =>
      obtain ⟨_, _, _, _, sent, _, -, hsent, hstep⟩ :=
        exists_step_eq he (fun _ _ => PageEvent.noConfusion) fun _ _ _ => PageEvent.noConfusion
      rw [hstep, hsent (fun _ => PageEvent.noConfusion) fun _ _ => PageEvent.noConfusion] at hf
      exact Or.inl hf

/-! ## What was received -/

/-- The image, the width and the height of a frame message. -/
def frameOf (message : Message) : Option (Option Json × Option Json × Option Json) :=
  match readMessage message with
  | .ok (.frame src width height) => some (src, width, height)
  | _ => none

/-- The frames that have come on a socket, with their sizes. -/
def framesOn (p : Page) (i : SocketId) : List (Option Json × Option Json × Option Json) :=
  (p.received.filter fun img => img.socket = i).map fun img => (img.src, img.width, img.height)

/-- A frame message is a frame of its socket. -/
theorem framesOn_onmessage (p : Page) (i : SocketId) (message : Message) :
    (p.onmessage i message).framesOn j =
      p.framesOn j ++ if i = j then (frameOf message).toList else [] := by
  have hsame : p.framesOn j = p.framesOn j ++ if i = j then [] else [] := by simp
  unfold onmessage frameOf
  cases readMessage message with
  | error e => exact hsame
  | ok received =>
      cases received with
      | frame src width height =>
          simp only [framesOn, List.filter_append, List.map_append, List.append_cancel_left_eq]
          by_cases hij : i = j <;> simp [hij]
      | agentStatus connected => cases connected <;> exact hsame
      | unknown => exact hsame

/-- Nothing else brings frames. -/
theorem framesOn_step (he : p.Enabled e) (hmessage : ∀ i m, e ≠ .message i m) :
    (p.step e).framesOn j = p.framesOn j := by
  by_cases hloaded : ∃ n width height, e = .loaded n width height
  · obtain ⟨n, width, height, rfl⟩ := hloaded
    obtain ⟨img, -, hstep⟩ := exists_step_loaded he
    rw [hstep]
    rfl
  · have hsame := sameFrames_step he hmessage fun n w h heq => hloaded ⟨n, w, h, heq⟩
    rw [framesOn, hsame.received, framesOn]

end Page

end BrowCast.Web
