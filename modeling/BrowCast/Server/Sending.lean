import BrowCast.Server.Events

/-! # What the sending loops do

Closed forms for the parts of the handlers that only send. A send changes nothing but the record of
what was sent on an OPEN socket, so a loop that sends is a list of addressed frames (`deliver`), and
a broadcast appends the same frame to each OPEN viewer as often as the viewer is listed. -/

namespace BrowCast

/-- The data among addressed frames that is meant for one socket. -/
def addressed (c : ConnId) (frames : List (ConnId × Outgoing)) : List Outgoing :=
  frames.filterMap fun f => if f.1 = c then some f.2 else none

/-- The same data for every listed socket. -/
def broadcast (viewers : List ConnId) (data : Outgoing) : List (ConnId × Outgoing) :=
  viewers.map fun viewerWs => (viewerWs, data)

/-- Nothing is addressed to anybody. -/
@[simp] theorem addressed_nil (c : ConnId) : addressed c [] = [] := List.filterMap_nil

/-- A first frame counts for the connection it is addressed to. -/
theorem addressed_cons (c : ConnId) (f : ConnId × Outgoing) (frames : List (ConnId × Outgoing)) :
    addressed c (f :: frames) =
      if f.1 = c then f.2 :: addressed c frames else addressed c frames := by
  by_cases h : f.1 = c <;> simp [addressed, h]

/-- The frames of two lists for a connection, one list after the other. -/
theorem addressed_append (c : ConnId) (frames rest : List (ConnId × Outgoing)) :
    addressed c (frames ++ rest) = addressed c frames ++ addressed c rest :=
  List.filterMap_append

/-- The data for a connection are those listed with it. -/
theorem mem_addressed_iff {c : ConnId} {frames : List (ConnId × Outgoing)} {data : Outgoing} :
    data ∈ addressed c frames ↔ (c, data) ∈ frames := by
  simp [addressed, List.mem_filterMap, Prod.exists]

/-- A broadcast reaches a socket as often as it is listed. -/
theorem addressed_broadcast (c : ConnId) (viewers : List ConnId) (data : Outgoing) :
    addressed c (broadcast viewers data) = List.replicate (viewers.count c) data := by
  induction viewers with
  | nil => rfl
  | cons v vs ih =>
      rw [broadcast, List.map_cons, addressed_cons]
      rw [broadcast] at ih
      by_cases hv : v = c
      · subst hv
        simp [ih, List.replicate_succ]
      · rw [if_neg hv, ih, List.count_cons_of_ne hv]

namespace Server

/-- Send every frame of the list, in order. -/
def deliver (frames : List (ConnId × Outgoing)) (σ : Server) : Server :=
  frames.foldl (fun σ f => σ.send f.1 f.2) σ

section Send

variable (σ : Server) (ws c : ConnId) (data : Outgoing) (frames : List (ConnId × Outgoing))

/-- A frame is added to the record of its connection if that is OPEN. -/
theorem conn_send : (σ.send ws data).conn c =
    if c = ws ∧ (σ.conn c).readyState = .OPEN then
      { σ.conn c with sent := (σ.conn c).sent ++ [data] }
    else σ.conn c := by
  unfold send
  by_cases hopen : (σ.conn ws).readyState = .OPEN
  · rw [if_pos hopen, conn_modifyConn]
    by_cases hc : c = ws
    · subst hc; simp [hopen]
    · simp [hc]
  · rw [if_neg hopen]
    by_cases hc : c = ws
    · subst hc; simp [hopen]
    · simp [hc]

/-- Sending to a socket that is not OPEN does nothing. -/
theorem send_eq_self {σ : Server} {ws : ConnId} (h : (σ.conn ws).readyState ≠ .OPEN)
    (data : Outgoing) : σ.send ws data = σ := if_neg h

/-- Sending leaves the session objects. -/
@[simp] theorem sessionAt_send : (σ.send ws data).sessionAt = σ.sessionAt := by
  unfold send; split <;> rfl

/-- Sending leaves the session map. -/
@[simp] theorem sessions_send : (σ.send ws data).sessions = σ.sessions := by
  unfold send; split <;> rfl

/-- Sending leaves the arrivals. -/
@[simp] theorem arrivals_send : (σ.send ws data).arrivals = σ.arrivals := by
  unfold send; split <;> rfl

/-- Sending leaves the counters. -/
@[simp] theorem connectionState_send : (σ.send ws data).connectionState = σ.connectionState := by
  unfold send; split <;> rfl

/-- Sending does not crash the process. -/
@[simp] theorem crashed_send : (σ.send ws data).crashed = σ.crashed := by
  unfold send; split <;> rfl

/-- Sending leaves the states of the sockets. -/
@[simp] theorem readyState_send :
    ((σ.send ws data).conn c).readyState = (σ.conn c).readyState := by
  rw [conn_send]; split <;> rfl

/-- Sending leaves the listeners. -/
@[simp] theorem listeners_send :
    ((σ.send ws data).conn c).listeners = (σ.conn c).listeners := by
  rw [conn_send]; split <;> rfl

/-- Delivering nothing does nothing. -/
@[simp] theorem deliver_nil : σ.deliver [] = σ := rfl

/-- Frames are delivered from the first on. -/
@[simp] theorem deliver_cons (f : ConnId × Outgoing) :
    σ.deliver (f :: frames) = (σ.send f.1 f.2).deliver frames := rfl

/-- Two lists are delivered one after the other. -/
theorem deliver_append (rest : List (ConnId × Outgoing)) :
    σ.deliver (frames ++ rest) = (σ.deliver frames).deliver rest := List.foldl_append

/-- Nothing but what was sent differs, and only on an OPEN socket. -/
theorem conn_deliver : (σ.deliver frames).conn c =
    { σ.conn c with
      sent := (σ.conn c).sent ++
        if (σ.conn c).readyState = .OPEN then addressed c frames else [] } := by
  induction frames generalizing σ with
  | nil => simp
  | cons f fs ih =>
      rw [deliver_cons, ih, readyState_send, conn_send, addressed_cons]
      by_cases hopen : (σ.conn c).readyState = .OPEN
      · by_cases hc : f.1 = c
        · simp [hopen, hc]
        · have hcf : c ≠ f.1 := fun h => hc h.symm
          simp [hopen, hc, hcf]
      · simp [hopen]

/-- Delivering leaves the session objects. -/
@[simp] theorem sessionAt_deliver : (σ.deliver frames).sessionAt = σ.sessionAt := by
  induction frames generalizing σ with
  | nil => rfl
  | cons f fs ih => exact (ih (σ.send f.1 f.2)).trans (sessionAt_send σ f.1 f.2)

/-- Delivering leaves the session map. -/
@[simp] theorem sessions_deliver : (σ.deliver frames).sessions = σ.sessions := by
  induction frames generalizing σ with
  | nil => rfl
  | cons f fs ih => exact (ih (σ.send f.1 f.2)).trans (sessions_send σ f.1 f.2)

/-- Delivering leaves the arrivals. -/
@[simp] theorem arrivals_deliver : (σ.deliver frames).arrivals = σ.arrivals := by
  induction frames generalizing σ with
  | nil => rfl
  | cons f fs ih => exact (ih (σ.send f.1 f.2)).trans (arrivals_send σ f.1 f.2)

/-- Delivering leaves the counters. -/
@[simp] theorem connectionState_deliver :
    (σ.deliver frames).connectionState = σ.connectionState := by
  induction frames generalizing σ with
  | nil => rfl
  | cons f fs ih => exact (ih (σ.send f.1 f.2)).trans (connectionState_send σ f.1 f.2)

/-- Delivering does not crash the process. -/
@[simp] theorem crashed_deliver : (σ.deliver frames).crashed = σ.crashed := by
  induction frames generalizing σ with
  | nil => rfl
  | cons f fs ih => exact (ih (σ.send f.1 f.2)).trans (crashed_send σ f.1 f.2)

/-- Delivering leaves the states of the sockets. -/
@[simp] theorem readyState_deliver :
    ((σ.deliver frames).conn c).readyState = (σ.conn c).readyState := by rw [conn_deliver]

/-- Delivering leaves the listeners. -/
@[simp] theorem listeners_deliver :
    ((σ.deliver frames).conn c).listeners = (σ.conn c).listeners := by rw [conn_deliver]

/-- Delivering leaves the error marks. -/
@[simp] theorem errored_deliver :
    ((σ.deliver frames).conn c).errored = (σ.conn c).errored := by rw [conn_deliver]

end Send

end Server

/-! ## Runs of the primitive handlers -/

variable (σ : Server)

/-- `on` returns, with the listener added last. -/
@[simp] theorem run_on (ws : ConnId) (listener : Listener) :
    (on ws listener).run σ =
      .ok () (σ.modifyConn ws fun w => { w with listeners := w.listeners ++ [listener] }) :=
  EStateM.run_modify _ _

/-- `send` returns. -/
@[simp] theorem run_send (ws : ConnId) (data : Outgoing) :
    (send ws data).run σ = .ok () (σ.send ws data) := rfl

/-- `touch` returns, with the time noted. -/
@[simp] theorem run_touch (session : SessionRef) (now : ℕ) :
    (touch session now).run σ =
      .ok () (σ.modifySession session fun s => { s with lastActivity := now }) := rfl

/-- The guarded send of the viewer loops is a send: the guard is the one `ws.send` has. -/
theorem run_guarded_send (ws : ConnId) (data : Server → Outgoing) :
    (do if (← readState fun σ : Server => (σ.conn ws).readyState) = .OPEN then
          send ws (← readState data) : Handler Unit).run σ = .ok () (σ.send ws (data σ)) := by
  by_cases h : (σ.conn ws).readyState = .OPEN
  · simp [EStateM.run_bind, h]
  · simp [EStateM.run_bind, h, Server.send_eq_self h]

/-- A loop over the viewers, when the data it sends does not depend on what was sent before. -/
theorem run_sendToViewers (session : SessionRef) {data : Server → Outgoing}
    (hdata : ∀ σ ws m, data (σ.send ws m) = data σ) :
    (sendToViewers session data).run σ =
      .ok () (σ.deliver (broadcast (σ.sessionAt session).viewers.values (data σ))) := by
  unfold sendToViewers
  rw [EStateM.run_bind, run_readState]
  -- the loop reads its data anew for each viewer, and reads the same each time
  refine (run_forM_eq_foldl (fun ws σ => run_guarded_send σ ws data) _ _).trans ?_
  have hfold : ∀ (vs : List ConnId) (τ : Server), data τ = data σ →
      vs.foldl (fun σ ws => σ.send ws (data σ)) τ = τ.deliver (broadcast vs (data σ)) := by
    intro vs
    induction vs with
    | nil => intro τ _; rfl
    | cons v vs ih =>
        intro τ hτ
        rw [List.foldl_cons, ih _ ((hdata τ v _).trans hτ), hτ]
        rfl
  rw [hfold _ σ rfl]

/-- Closing an OPEN socket starts the handshake and throws when the reason is too long for it. -/
@[simp] theorem run_closeSocket {σ : Server} {ws : ConnId} (hopen : (σ.conn ws).readyState = .OPEN)
    (code : ℕ) (reason : String) :
    (closeSocket ws code reason).run σ =
      if 123 < reason.utf8ByteSize then
        .error .rangeError (σ.modifyConn ws fun w => { w with readyState := .CLOSING })
      else
        .ok () ((σ.modifyConn ws fun w => { w with readyState := .CLOSING }).modifyConn ws
          fun w => { w with sent := w.sent ++ [.close code reason] }) := by
  unfold closeSocket
  simp only [EStateM.run_bind, run_readState, hopen, if_true, EStateM.run_modify]
  split <;> rfl

/-- `setupPingPong` returns, with the socket alive, its timer started and the listener for pongs
added. -/
theorem run_setupPingPong (ws : ConnId) :
    (setupPingPong ws).run σ = .ok () (σ.modifyConn ws fun w => { w with
      isAlive := true, pingInterval := true,
      listeners := w.listeners ++ [.heartbeatPong] ++ [.heartbeatClose] }) := by
  unfold setupPingPong
  simp [EStateM.run_bind, Server.modifyConn]

/-- The process with the session dropped from the map when its object has no agent and no
viewers. -/
def Server.dropIfEmpty (sessionId : SessionId) (σ : Server) : Server :=
  match σ.sessions.get? sessionId with
  | none => σ
  | some session =>
      if (σ.sessionAt session).agent = none ∧ (σ.sessionAt session).viewers.size = 0 then
        { σ with sessions := σ.sessions.delete sessionId }
      else σ

/-- Cleaning up a session leaves the connections. -/
@[simp] theorem Server.conn_dropIfEmpty (sessionId : SessionId) :
    (σ.dropIfEmpty sessionId).conn = σ.conn := by
  unfold Server.dropIfEmpty
  split
  · rfl
  · split <;> rfl

/-- Cleaning up a session leaves the session objects. -/
@[simp] theorem Server.sessionAt_dropIfEmpty (sessionId : SessionId) :
    (σ.dropIfEmpty sessionId).sessionAt = σ.sessionAt := by
  unfold Server.dropIfEmpty
  split
  · rfl
  · split <;> rfl

/-- `cleanupSessionIfEmpty` returns. -/
theorem run_cleanupSessionIfEmpty (sessionId : SessionId) :
    (cleanupSessionIfEmpty sessionId).run σ = .ok () (σ.dropIfEmpty sessionId) := by
  unfold cleanupSessionIfEmpty Server.dropIfEmpty
  rw [EStateM.run_bind, run_readState]
  cases hget : σ.sessions.get? sessionId with
  | none => rfl
  | some session =>
      by_cases h : (σ.sessionAt session).agent = none ∧ (σ.sessionAt session).viewers.size = 0
      · simp [EStateM.run_bind, h]
      · simp [EStateM.run_bind, h]

end BrowCast
