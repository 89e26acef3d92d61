import BrowCast.Server.SentFrames
import BrowCast.Runs.History

/-! # The heartbeat

`setupPingPong` pings a connection on every tick of an interval and terminates it when the last ping
was not answered. Of a connection it uses the ready state, the flag `isAlive` and the interval
(`Heart`); every event changes these by one function (`Heart.next`), and a run is recorded with the
pings and the pongs of all connections: the flag says whether the latest of them is a ping. -/

namespace BrowCast

/-! ## The heart of a connection -/

/-- What the heartbeat of a connection uses: whether it is heard at all, and its variables. -/
structure Heart where
  readyState : ReadyState
  isAlive : Bool
  running : Bool
  heard : Bool

/-- What an event is for the heartbeat of a connection. -/
inductive Pulse where
  /-- The connection arrives, and is accepted or turned away. -/
  | arrives (accepted : Bool)
  /-- It arrives, and its handler does not get to a decision. -/
  | enters
  /-- It moves from OPEN to CLOSING. -/
  | leaves
  | pong
  | tick
  | closes
  | rest

/-- The change an event makes to the heart of a connection. -/
def Heart.next (h : Heart) : Pulse → Heart
  | .arrives accepted => ⟨if accepted then .OPEN else .CLOSING, true, accepted, accepted⟩
  | .enters => ⟨.OPEN, true, false, false⟩
  | .leaves => { h with readyState := .CLOSING }
  | .pong => { h with isAlive := h.heard || h.isAlive }
  | .tick =>
      if h.readyState = .OPEN then
        if h.isAlive then { h with isAlive := false }
        else { h with readyState := .CLOSING, running := false }
      else { h with running := false }
  | .closes => { h with readyState := .CLOSED, running := h.running && !h.heard }
  | .rest => h

/-- The heart of a connection. -/
def Conn.heart (w : Conn) : Heart := ⟨w.readyState, w.isAlive, w.pingInterval, !w.listeners.isEmpty⟩

namespace Server

/-- The connection is turned away. -/
def turnsAway (σ : Server) (ws : ConnId) (parsedUrl : ParsedUrl) : Bool :=
  match (σ.arrive ws parsedUrl).verdict ws parsedUrl with
  | .turnedAway _ _ => true
  | _ => false

/-- What an event is for the heartbeat of its connection. -/
def ownPulse (σ : Server) : Event → Pulse
  | .connect ws parsedUrl _ => .arrives (!σ.turnsAway ws parsedUrl)
  | .unparsable _ => .enters
  | .closing _ => .leaves
  | .pong _ => .pong
  | .tick _ => .tick
  | .close _ => .closes
  | .message _ _ _ | .error _ => .rest

/-- What an event is for the heartbeat of the connection `c`. -/
def pulse (c : ConnId) (σ : Server) (e : Event) : Pulse :=
  if e.subject = c then σ.ownPulse e else .rest

section Hearts

variable {σ : Server} {ws c : ConnId}

/-- Changing a socket changes its own heart only. -/
theorem heart_modifyConn (f : Conn → Conn) :
    ((σ.modifyConn ws f).conn c).heart =
      if ws = c then (f (σ.conn c)).heart else (σ.conn c).heart := by
  by_cases hc : ws = c
  · subst hc
    rw [conn_modifyConn_self, if_pos rfl]
  · rw [conn_modifyConn_of_ne _ (Ne.symm hc), if_neg hc]

/-- A change that leaves the heart of its socket leaves all of them. -/
theorem heart_modifyConn_of_eq {f : Conn → Conn} (hf : (f (σ.conn ws)).heart = (σ.conn ws).heart) :
    ((σ.modifyConn ws f).conn c).heart = (σ.conn c).heart := by
  rw [heart_modifyConn]
  split
  · next hc => rw [← hc, hf]
  · rfl

/-- Sending leaves the hearts. -/
theorem heart_deliver (frames : List (ConnId × Outgoing)) :
    ((σ.deliver frames).conn c).heart = (σ.conn c).heart := by
  rw [conn_deliver]
  rfl

/-- An uncaught exception leaves the hearts. -/
theorem heart_settle (result : EStateM.Result JsError Server Unit) :
    ((settle result).conn c).heart = ((finalState result).conn c).heart := by
  cases result <;> rfl

/-- A change that is a pulse for its socket is rest for the others. -/
theorem heart_modifyConn_next {f : Conn → Conn} {p : Pulse}
    (hf : (f (σ.conn ws)).heart = (σ.conn ws).heart.next p) :
    ((σ.modifyConn ws f).conn c).heart =
      (σ.conn c).heart.next (if ws = c then p else .rest) := by
  rw [heart_modifyConn]
  split
  · next hc => rw [← hc, hf]
  · rfl

/-- What the heart of a connection that arrives becomes, when its socket is changed like this. -/
theorem heart_arrived {τ : Server} (parsedUrl : ParsedUrl) {accepted : Bool} {f : Conn → Conn}
    (hconn : ∀ d, (τ.conn d).heart = ((σ.arrive ws parsedUrl).conn d).heart)
    (hf : (f (τ.conn ws)).heart =
      ⟨if accepted then .OPEN else .CLOSING, true, accepted, accepted⟩) :
    ((τ.modifyConn ws f).conn c).heart =
      (σ.conn c).heart.next (if ws = c then .arrives accepted else .rest) := by
  rw [heart_modifyConn]
  split
  · next hc =>
      rw [← hc, hf]
      rfl
  · next hc =>
      rw [hconn, conn_arrive_of_ne σ (Ne.symm hc) parsedUrl]
      rfl

section Arrivals

variable {τ : Server} {parsedUrl : ParsedUrl} (hconn : τ.conn = (σ.arrive ws parsedUrl).conn)

include hconn

/-- Accepting an agent starts its heartbeat. -/
theorem heart_acceptAgent (k : SessionId) (o : SessionRef) :
    ((τ.acceptAgent ws k o).conn c).heart =
      (σ.conn c).heart.next (if ws = c then .arrives true else .rest) := by
  have hself := conn_arrive_self σ ws parsedUrl
  unfold acceptAgent
  refine heart_arrived parsedUrl (fun d => ?_) ?_
  · rw [heart_deliver, conn_count, conn_modifySession]
    exact congrArg Conn.heart (congrFun hconn d)
  · simp [Conn.heart, conn_deliver, hconn, hself, Acceptance.listeners]

/-- Accepting a viewer starts its heartbeat. -/
theorem heart_acceptViewer (k : SessionId) (o : SessionRef) (i : String) :
    ((τ.acceptViewer ws k o i).conn c).heart =
      (σ.conn c).heart.next (if ws = c then .arrives true else .rest) := by
  have hself := conn_arrive_self σ ws parsedUrl
  unfold acceptViewer
  refine heart_arrived parsedUrl (fun d => ?_) ?_
  · rw [conn_count, conn_modifySession]
    exact congrArg Conn.heart (congrFun hconn d)
  · simp [Conn.heart, hconn, hself, Acceptance.listeners]

/-- A connection that is turned away gets no heartbeat. -/
theorem heart_turnAway (code : ℕ) (reason : String) :
    ((finalState (τ.turnAway ws code reason)).conn c).heart =
      (σ.conn c).heart.next (if ws = c then .arrives false else .rest) := by
  have hself := conn_arrive_self σ ws parsedUrl
  rw [turnAway]
  split
  · rw [finalState_error]
    refine heart_arrived parsedUrl (fun d => congrArg Conn.heart (congrFun hconn d)) ?_
    simp [Conn.heart, hconn, hself]
  · rw [finalState_ok, conn_count]
    refine heart_arrived parsedUrl (fun d => congrArg Conn.heart (congrFun hconn d)) ?_
    simp [Conn.heart, hconn, hself]

end Arrivals

/-- A connection that arrives starts its heartbeat, or is turned away. -/
theorem heart_connect (parsedUrl : ParsedUrl) (now : ℕ) :
    ((σ.step (.connect ws parsedUrl now)).conn c).heart =
      (σ.conn c).heart.next (σ.pulse c (.connect ws parsedUrl now)) := by
  show _ = (σ.conn c).heart.next (if ws = c then .arrives (!σ.turnsAway ws parsedUrl) else .rest)
  rw [step_connect, heart_settle]
  have hconn : ((σ.arrive ws parsedUrl).enter ws parsedUrl now).conn =
      (σ.arrive ws parsedUrl).conn := conn_enter parsedUrl
  unfold decided turnsAway
  cases (σ.arrive ws parsedUrl).verdict ws parsedUrl with
  | agent k => exact heart_acceptAgent hconn k _
  | viewer k => exact heart_acceptViewer hconn k _ _
  | turnedAway code reason => exact heart_turnAway hconn code reason

/-- A connection with a URL that cannot be parsed has no heartbeat. -/
theorem heart_unparsable : ((σ.step (.unparsable ws)).conn c).heart =
    (σ.conn c).heart.next (σ.pulse c (.unparsable ws)) := by
  show ((σ.arrive ws _).conn c).heart = (σ.conn c).heart.next (if ws = c then .enters else .rest)
  split
  · next hc =>
      rw [← hc, conn_arrive_self]
      rfl
  · next hc =>
      rw [conn_arrive_of_ne σ (Ne.symm hc)]
      rfl

/-- A tick is a pulse of its connection. -/
theorem heart_tick :
    ((σ.step (.tick ws)).conn c).heart = (σ.conn c).heart.next (σ.pulse c (.tick ws)) := by
  show ((settle ((pingTick ws).run σ)).conn c).heart =
    (σ.conn c).heart.next (if ws = c then .tick else .rest)
  rw [run_pingTick]
  show ((ite _ _ _ : Server).conn c).heart = _
  by_cases hopen : (σ.conn ws).readyState = .OPEN
  · by_cases halive : (σ.conn ws).isAlive = true
    · rw [if_pos hopen, if_pos halive]
      refine (heart_deliver [(ws, .ping)]).trans (heart_modifyConn_next ?_)
      simp [Heart.next, Conn.heart, hopen, halive]
    · rw [if_pos hopen, if_neg halive]
      apply heart_modifyConn_next
      simp [Heart.next, Conn.heart, hopen, halive]
  · rw [if_neg hopen]
    apply heart_modifyConn_next
    simp [Heart.next, Conn.heart, hopen]

/-- A pong is a pulse of its connection. -/
theorem heart_pong (hwf : σ.WellFormed) :
    ((σ.step (.pong ws)).conn c).heart = (σ.conn c).heart.next (σ.pulse c (.pong ws)) := by
  show ((settle ((emit ws (Listener.onPong ws)).run σ)).conn c).heart =
    (σ.conn c).heart.next (if ws = c then .pong else .rest)
  rcases hwf.attached ws with hnil | ⟨a, ha⟩
  · rw [run_emit_nil hnil]
    show (σ.conn c).heart = _
    split
    · next hc =>
        subst hc
        simp [Heart.next, Conn.heart, hnil]
    · rfl
  · have halive : ((σ.modifyConn ws fun w => { w with isAlive := true }).conn c).heart =
        (σ.conn c).heart.next (if ws = c then .pong else .rest) := by
      apply heart_modifyConn_next
      cases a <;> simp [Heart.next, Conn.heart, ha, Acceptance.listeners]
    rw [run_emit_of_listeners ha]
    cases a <;> exact halive

/-- Messages leave the heart of every connection as it is. -/
theorem heart_message (hwf : σ.WellFormed) (message : Message) (now : ℕ) :
    ((σ.step (.message ws message now)).conn c).heart = (σ.conn c).heart := by
  cases hacceptance : (σ.conn ws).acceptance with
  | none =>
      show ((settle ((emit ws _).run σ)).conn c).heart = _
      rw [run_emit_nil (hwf.listeners_of_none hacceptance)]
      rfl
  | some a =>
      cases a with
      | agent k o => rw [step_agentMessage hwf hacceptance, heart_deliver, conn_noteScreen]
      | viewer k o i =>
          rw [step_viewerMessage hwf hacceptance, heart_deliver]
          exact noteClient_keeps Conn.heart (fun _ _ => rfl) σ ws o message.json now c

/-- And so do errors. -/
theorem heart_error (hwf : σ.WellFormed) :
    ((σ.step (.error ws)).conn c).heart = (σ.conn c).heart := by
  have herrored : ((σ.modifyConn ws fun w => { w with errored := true }).conn c).heart =
      (σ.conn c).heart := heart_modifyConn_of_eq rfl
  show ((settle _).conn c).heart = _
  rcases hwf.attached ws with hnil | ⟨a, ha⟩
  · rw [run_emitError_nil (by simpa using hnil)]
    exact herrored
  · rw [run_emitError (a := a) (by simpa using ha)]
    cases a <;> exact herrored

/-- The close listeners of an accepted connection clear its interval. -/
theorem heart_leave (a : Acceptance) :
    ((σ.leave ws a).conn c).heart =
      if ws = c then { (σ.conn c).heart with running := false } else (σ.conn c).heart := by
  cases a with
  | agent k o =>
      rw [leave, heart_modifyConn]
      split
      · next hc =>
          subst hc
          simp [Conn.heart, conn_deliver]
      · simp [Conn.heart, conn_deliver]
  | viewer k o i =>
      rw [leave, heart_modifyConn]
      split
      · next hc =>
          subst hc
          simp [Conn.heart]
      · simp

/-- A close event is a pulse of its connection. -/
theorem heart_close (hwf : σ.WellFormed) :
    ((σ.step (.close ws)).conn c).heart = (σ.conn c).heart.next (σ.pulse c (.close ws)) := by
  show ((settle ((emit ws (Listener.onClose ws)).run
      (σ.modifyConn ws fun w => { w with readyState := .CLOSED }))).conn c).heart =
    (σ.conn c).heart.next (if ws = c then .closes else .rest)
  rcases hwf.attached ws with hnil | ⟨a, ha⟩
  · rw [run_emit_nil (by simpa using hnil), heart_settle, finalState_ok]
    apply heart_modifyConn_next
    simp [Heart.next, Conn.heart, hnil]
  · rw [run_emit_onClose (a := a) (by simpa using ha), heart_settle, finalState_ok, heart_leave,
      heart_modifyConn]
    split
    · next hc =>
        subst hc
        cases a <;> simp [Heart.next, Conn.heart, ha, Acceptance.listeners]
    · rfl

/-- **What an event does to the heart of a connection.** -/
theorem heart_step (hwf : σ.WellFormed) (e : Event) :
    ((σ.step e).conn c).heart = (σ.conn c).heart.next (σ.pulse c e) := by
  cases e with
  | connect ws parsedUrl now => exact heart_connect parsedUrl now
  | unparsable ws => exact heart_unparsable
  | closing ws =>
      show ((σ.modifyConn ws fun w => { w with readyState := .CLOSING }).conn c).heart =
        (σ.conn c).heart.next (if ws = c then .leaves else .rest)
      exact heart_modifyConn_next rfl
  | message ws message now =>
      rw [heart_message hwf, pulse]
      split <;> rfl
  | pong ws => exact heart_pong hwf
  | tick ws => exact heart_tick
  | error ws =>
      rw [heart_error hwf, pulse]
      split <;> rfl
  | close ws => exact heart_close hwf

end Hearts

end Server

/-! ## The last beat -/

/-- What the heartbeat of a connection leaves behind. -/
inductive Beat where
  /-- A ping was sent. -/
  | ping
  /-- A pong arrived. -/
  | pong
  deriving DecidableEq

namespace Heart

/-- When an event may happen to a connection. -/
def Allows (h : Heart) : Pulse → Prop
  | .arrives _ | .enters => h.readyState = .CONNECTING
  | .leaves => h.readyState = .OPEN
  | .pong => h.readyState = .OPEN ∨ h.readyState = .CLOSING
  | .tick => h.running = true
  | .closes => h.readyState = .CLOSING
  | .rest => True

/-- What an event adds to the beats of a connection. -/
def beat (h : Heart) : Pulse → Option Beat
  | .pong => some .pong
  | .tick => if h.readyState = .OPEN ∧ h.isAlive = true then some .ping else none
  | _ => none

/-- The flag of a connection follows its last beat. -/
structure Follows (h : Heart) (last : Option Beat) : Prop where
  flag : h.isAlive = false ↔ last = some .ping
  heard : h.running = true → h.heard = true
  arrived : h.running = true → h.readyState ≠ .CONNECTING
  unheard : h.heard = false → h.isAlive = true
  fresh : h.readyState = .CONNECTING → last = none

/-- The heartbeat is over. -/
def Stopped (h : Heart) : Prop := h.running = false ∧ h.readyState ≠ .CONNECTING

variable {h : Heart} {p : Pulse} {last : Option Beat}

/-- **The flag follows the last beat**, whatever happens to the connection. -/
theorem Follows.next (hf : h.Follows last) (hp : h.Allows p) :
    (h.next p).Follows ((h.beat p).or last) := by
  obtain ⟨state, alive, running, heard⟩ := h
  obtain ⟨hflag, hheard, harrived, hunheard, hfresh⟩ := hf
  simp only at hflag hheard harrived hunheard hfresh
  cases p with
  | arrives accepted =>
      -- a connection that arrives has no beats yet
      have hlast : last = none := hfresh hp
      subst hlast
      cases accepted <;> exact ⟨by simp [Heart.next, beat], by simp [Heart.next],
        by simp [Heart.next], by simp [Heart.next], by simp [Heart.next, beat]⟩
  | enters =>
      have hlast : last = none := hfresh hp
      subst hlast
      exact ⟨by simp [Heart.next, beat], by simp [Heart.next], by simp [Heart.next],
        by simp [Heart.next], by simp [Heart.next, beat]⟩
  | leaves => exact ⟨hflag, hheard, fun _ => nofun, hunheard, nofun⟩
  | pong =>
      refine ⟨?_, hheard, harrived, ?_, ?_⟩
      · -- without a listener the flag has never been cleared
        have halive : (heard || alive) = true := by
          cases heard with
          | true => rfl
          | false => exact hunheard rfl
        simp [Heart.next, beat, halive]
      · intro hno
        have hno : heard = false := hno
        simp [Heart.next, hunheard hno]
      · intro hstate
        have hstate : state = .CONNECTING := hstate
        subst hstate
        simp [Allows] at hp
  | tick =>
      -- the interval runs, so the connection listens for pongs
      have hheard := hheard hp
      have harrived := harrived hp
      by_cases hopen : state = .OPEN
      · cases alive with
        | true =>
            simp only [Heart.next, beat, hopen, and_self, if_true, Option.some_or]
            exact ⟨iff_of_true rfl rfl, fun _ => hheard, fun _ => nofun,
              fun hno => by simp [hheard] at hno, nofun⟩
        | false =>
            simp only [Heart.next, beat, hopen, Bool.false_eq_true, and_false, if_true, if_false,
              Option.none_or]
            exact ⟨hflag, nofun, nofun, hunheard, nofun⟩
      · simp only [Heart.next, beat, hopen, false_and, if_false, Option.none_or]
        exact ⟨hflag, nofun, nofun, hunheard, hfresh⟩
  | closes =>
      refine ⟨hflag, fun hrun => ?_, fun _ => nofun, hunheard, nofun⟩
      have hrun : (running && !heard) = true := hrun
      -- only the interval of a connection that does not listen would go on
      rw [Bool.and_eq_true] at hrun
      exact hheard hrun.1
  | rest => exact ⟨hflag, hheard, harrived, hunheard, hfresh⟩

/-- A heartbeat that is over does not start again. -/
theorem Stopped.next (hs : h.Stopped) (hp : h.Allows p) : (h.next p).Stopped := by
  obtain ⟨hrunning, harrived⟩ := hs
  cases p with
  | arrives accepted => exact absurd hp harrived
  | enters => exact absurd hp harrived
  | leaves => exact ⟨hrunning, nofun⟩
  | pong => exact ⟨hrunning, harrived⟩
  | tick =>
      have hrun : h.running = true := hp
      rw [hrunning] at hrun
      cases hrun
  | closes =>
      refine ⟨?_, nofun⟩
      show (h.running && !h.heard) = false
      rw [hrunning, Bool.false_and]
  | rest => exact ⟨hrunning, harrived⟩

/-- A tick stops the heartbeat unless it pings, and the close event does. -/
theorem Follows.stopped_tick (hf : h.Follows last) (hp : h.Allows .tick)
    (hno : h.readyState ≠ .OPEN ∨ h.isAlive = false) : (h.next .tick).Stopped := by
  have harrived := hf.arrived hp
  by_cases hopen : h.readyState = .OPEN
  · have hdead : h.isAlive = false := hno.resolve_left (fun hne => hne hopen)
    simp only [Heart.next, hopen, hdead, Bool.false_eq_true, if_true, if_false]
    exact ⟨rfl, nofun⟩
  · simp only [Heart.next, hopen, if_false]
    exact ⟨rfl, harrived⟩

/-- The close event ends the heartbeat. -/
theorem Follows.stopped_closes (hf : h.Follows last) : (h.next .closes).Stopped := by
  refine ⟨?_, nofun⟩
  show (h.running && !h.heard) = false
  cases hrun : h.running with
  | true => rw [hf.heard hrun]; rfl
  | false => rfl

end Heart

/-! ## Beats of the server -/

/-- The frame is a ping. -/
def Outgoing.isPing : Outgoing → Bool
  | .ping => true
  | _ => false

/-- What a beat says about the connection `ws`. -/
def beatOf (ws : ConnId) (beat : ConnId × Beat) : Option Beat :=
  if beat.1 = ws then some beat.2 else none

namespace Server

variable (σ : Server) (ws : ConnId)

/-- A tick of the connection sends it a ping. -/
def pings : Bool := (σ.newFrames (.tick ws) ws).any Outgoing.isPing

/-- A tick of the connection terminates it: `ws.terminate()` ends the state OPEN. -/
def terminates : Bool := ((σ.step (.tick ws)).conn ws).readyState != (σ.conn ws).readyState

/-- The beats of an event. -/
def beats : Event → List (ConnId × Beat)
  | .pong ws => [(ws, .pong)]
  | .tick ws => if σ.pings ws then [(ws, .ping)] else []
  | _ => []

/-- The event is the last the heartbeat of a connection takes notice of: a tick that terminates it
or finds it not OPEN, or its close event. -/
def EndsHeartbeat (e : Event) : Prop :=
  e = .close ws ∨ e = .tick ws ∧ (σ.terminates ws = true ∨ (σ.conn ws).readyState ≠ .OPEN)

variable {σ ws} {c : ConnId}

/-- A ping goes to an OPEN socket whose flag is set. -/
theorem pings_eq_true_iff : σ.pings ws = true ↔
    (σ.conn ws).readyState = .OPEN ∧ (σ.conn ws).isAlive = true := by
  have hsent : ∃ frames, ((σ.step (.tick ws)).conn ws).sent = (σ.conn ws).sent ++ frames ∧
      (frames.any Outgoing.isPing = true ↔
        (σ.conn ws).readyState = .OPEN ∧ (σ.conn ws).isAlive = true) := by
    show ∃ frames, ((settle ((pingTick ws).run σ)).conn ws).sent = _ ∧ _
    rw [run_pingTick, settle]
    by_cases hopen : (σ.conn ws).readyState = .OPEN
    · by_cases halive : (σ.conn ws).isAlive = true
      · rw [if_pos hopen, if_pos halive, send_of_open (by simpa using hopen)]
        exact ⟨[.ping], by simp, by simp [Outgoing.isPing, hopen, halive]⟩
      · rw [if_pos hopen, if_neg halive]
        exact ⟨[], by simp, by simp [halive]⟩
    · rw [if_neg hopen]
      exact ⟨[], by simp, by simp [hopen]⟩
  obtain ⟨frames, hframes, hping⟩ := hsent
  rw [pings, newFrames_of_sent hframes, hping]

/-- An OPEN socket whose flag is not set is terminated. -/
theorem terminates_eq_true_iff : σ.terminates ws = true ↔
    (σ.conn ws).readyState = .OPEN ∧ (σ.conn ws).isAlive = false := by
  have hstate : ((σ.step (.tick ws)).conn ws).readyState =
      ((σ.conn ws).heart.next .tick).readyState := by
    have hheart : ((σ.step (.tick ws)).conn ws).heart = (σ.conn ws).heart.next .tick := by
      rw [heart_tick, pulse, Event.subject, if_pos rfl, ownPulse]
    exact congrArg Heart.readyState hheart
  rw [terminates, hstate, bne_iff_ne]
  by_cases hopen : (σ.conn ws).readyState = .OPEN
  · cases halive : (σ.conn ws).isAlive with
    | true => simp [Heart.next, Conn.heart, hopen, halive]
    | false => simp [Heart.next, Conn.heart, hopen, halive]
  · simp [Heart.next, Conn.heart, hopen]

/-- The last beat an event adds for a connection. -/
theorem latest_beats (e : Event) :
    latest (beatOf c) (σ.beats e) = (σ.conn c).heart.beat (σ.pulse c e) := by
  cases e with
  | pong ws =>
      rw [beats, latest_singleton, beatOf, pulse, Event.subject]
      by_cases hc : ws = c <;> simp [hc, ownPulse, Heart.beat]
  | tick ws =>
      rw [beats, pulse, Event.subject]
      by_cases hc : ws = c
      · subst hc
        rw [if_pos rfl, ownPulse, Heart.beat]
        -- a tick is a beat when it pings
        by_cases hping : σ.pings ws = true
        · rw [if_pos hping, latest_singleton, beatOf, if_pos rfl, if_pos]
          exact pings_eq_true_iff.mp hping
        · rw [if_neg hping, latest_nil, if_neg]
          intro h
          exact hping (pings_eq_true_iff.mpr h)
      · rw [if_neg hc]
        split
        · rw [latest_singleton, beatOf, if_neg hc]
          rfl
        · rfl
  | _ =>
      show none = _
      rw [pulse]
      split <;> rfl

/-- What can happen to the server is allowed to the hearts. -/
theorem allows_pulse (hwf : σ.WellFormed) {e : Event} (he : σ.Enabled e) :
    (σ.conn c).heart.Allows (σ.pulse c e) := by
  rw [pulse]
  split
  · next hc =>
      subst hc
      obtain ⟨-, he⟩ := he
      cases e with
      | connect ws parsedUrl now =>
          by_contra hstate
          exact he ((hwf.sound.arrived ws).mpr hstate)
      | unparsable ws =>
          by_contra hstate
          exact he ((hwf.sound.arrived ws).mpr hstate)
      | pong ws => exact (Conn.isPending_iff _).mp he
      | message ws message now => trivial
      | error ws => trivial
      | _ => exact he
  · trivial

/-- Every connection's flag follows its last beat. -/
structure InRhythm (σ : Server) (log : List (ConnId × Beat)) : Prop where
  wellFormed : σ.WellFormed
  follows : ∀ c, (σ.conn c).heart.Follows (latest (beatOf c) log)

/-- At first no heart beats. -/
theorem inRhythm_start : relay.start.InRhythm [] where
  wellFormed := wellFormed_start
  follows := fun _ => ⟨iff_of_false nofun nofun, nofun, nofun, fun _ => rfl, fun _ => rfl⟩

/-- Every event keeps the flags in line with the beats. -/
theorem InRhythm.step {log : List (ConnId × Beat)} (h : σ.InRhythm log) {e : Event}
    (he : σ.Enabled e) : (σ.step e).InRhythm (log ++ σ.beats e) where
  wellFormed := wellFormed_step h.wellFormed he
  follows := fun c => by
    rw [heart_step h.wellFormed, latest_append, latest_beats]
    exact (h.follows c).next (allows_pulse h.wellFormed he)

end Server

/-! ## Runs of the server -/

open Server

/-- The beats of a run. -/
def beatsOf (es : List Event) : List (ConnId × Beat) :=
  (relay.labels Server.beats relay.start es).flatten

/-- The peer answers every ping before the next tick. -/
def AnswersInTime (ws : ConnId) (es : List Event) : Prop :=
  ∀ pre mid post, es = pre ++ .tick ws :: (mid ++ .tick ws :: post) →
    (relay.after relay.start pre).pings ws = true → .tick ws ∉ mid → .pong ws ∈ mid

/-- After every run the flags follow the beats. -/
theorem inRhythm_after {es : List Event} (hrun : relay.IsRun es) :
    (relay.after relay.start es).InRhythm (beatsOf es) := by
  have hstates : (relay.recording Server.beats).States (fun p => p.1.InRhythm p.2)
      (relay.recording Server.beats).start es :=
    GuardedMachine.states_of_invariant _ inRhythm_start (fun _ _ h he => h.step he)
      (GuardedMachine.isRun_recording_iff.mpr hrun)
  have hlast := GuardedMachine.States.last _ hstates
  have hafter := GuardedMachine.after_recording relay Server.beats relay.start [] es
  rw [show (relay.recording Server.beats).start = (relay.start, []) from rfl, hafter] at hlast
  exact hlast

/-- A heartbeat that is over ticks no more. -/
theorem tick_notMem_of_stopped {σ : Server} {ws : ConnId} {es : List Event} (hwf : σ.WellFormed)
    (hstopped : (σ.conn ws).heart.Stopped) (hrun : relay.Steps relay.Enabled σ es) :
    .tick ws ∉ es := by
  have hsteps : relay.Steps (fun _ e => e ≠ .tick ws) σ es := by
    have hstates := relay.states_of_steps (C := relay.Enabled)
      (I := fun σ => σ.WellFormed ∧ (σ.conn ws).heart.Stopped)
      (fun σ e h he _ => ⟨wellFormed_step h.1 he, by
        show ((σ.step e).conn ws).heart.Stopped
        rw [heart_step h.1]
        exact h.2.next (allows_pulse h.1 he)⟩) ⟨hwf, hstopped⟩ hrun hrun
    refine GuardedMachine.States.steps relay (fun σ e h he heq => ?_) hstates hrun
    subst heq
    have hrunning : (σ.conn ws).pingInterval = true := he.2
    have hstop : (σ.conn ws).pingInterval = false := h.2.1
    rw [hrunning] at hstop
    cases hstop
  intro hmem
  exact relay.steps_iff_forall_mem.mp hsteps _ hmem rfl

/-- A tick terminates exactly the OPEN connections whose last beat is a ping. -/
theorem terminates_iff_unanswered {es : List Event} {ws : ConnId} (hrun : relay.IsRun es) :
    (relay.after relay.start es).terminates ws = true ↔
      ((relay.after relay.start es).conn ws).readyState = .OPEN ∧
        latest (beatOf ws) (beatsOf es) = some .ping := by
  rw [terminates_eq_true_iff]
  exact and_congr_right fun _ => ((inRhythm_after hrun).follows ws).flag

/-- After the end of a heartbeat there are no ticks. -/
theorem tick_notMem_of_endsHeartbeat {pre post : List Event} {e : Event} {ws : ConnId}
    (hrun : relay.IsRun (pre ++ e :: post))
    (hends : (relay.after relay.start pre).EndsHeartbeat ws e) : .tick ws ∉ post := by
  obtain ⟨hpre, he, hpost⟩ := GuardedMachine.IsRun.split relay hrun
  have hrhythm := inRhythm_after hpre
  have hfollows := hrhythm.follows ws
  have hallows := allows_pulse (c := ws) hrhythm.wellFormed he
  refine tick_notMem_of_stopped (wellFormed_step hrhythm.wellFormed he) ?_ hpost
  show ((Server.step _ e).conn ws).heart.Stopped
  rw [heart_step hrhythm.wellFormed]
  rcases hends with rfl | ⟨rfl, hends⟩
  · rw [pulse, Event.subject, if_pos rfl, ownPulse]
    exact hfollows.stopped_closes
  · rw [pulse, Event.subject, if_pos rfl, ownPulse] at hallows ⊢
    refine hfollows.stopped_tick hallows ?_
    rcases hends with hterm | hnot
    · exact Or.inr (terminates_eq_true_iff.mp hterm).2
    · exact Or.inl hnot

/-- A tick that does not ping has ended the heartbeat. -/
theorem endsHeartbeat_of_beats {σ : Server} {ws : ConnId}
    (hnone : latest (beatOf ws) (σ.beats (.tick ws)) = none) : σ.EndsHeartbeat ws (.tick ws) := by
  refine Or.inr ⟨rfl, ?_⟩
  rw [beats] at hnone
  by_cases hping : σ.pings ws = true
  · rw [if_pos hping, latest_singleton, beatOf, if_pos rfl] at hnone
    cases hnone
  · rw [pings_eq_true_iff, not_and] at hping
    by_cases hopen : (σ.conn ws).readyState = .OPEN
    · exact Or.inl (terminates_eq_true_iff.mpr ⟨hopen, by simpa using hping hopen⟩)
    · exact Or.inr hopen

/-- The beat that is a ping comes from a tick that pings. -/
theorem eq_tick_of_latest_ping {σ : Server} {ws : ConnId} {e : Event}
    (h : latest (beatOf ws) (σ.beats e) = some .ping) : e = .tick ws ∧ σ.pings ws = true := by
  cases e with
  | pong c =>
      rw [beats, latest_singleton, beatOf] at h
      split at h <;> cases h
  | tick c =>
      rw [beats] at h
      split at h
      · next hpings =>
          rw [latest_singleton, beatOf] at h
          split at h
          · next hc =>
              have hc : c = ws := hc
              subst hc
              exact ⟨rfl, hpings⟩
          · cases h
      · cases h
  | _ => cases h

/-- A peer that answers in time is not terminated. -/
theorem not_terminates_of_answersInTime {pre post : List Event} {ws : ConnId}
    (hrun : relay.IsRun (pre ++ .tick ws :: post))
    (hanswers : AnswersInTime ws (pre ++ .tick ws :: post)) :
    (relay.after relay.start pre).terminates ws = false := by
  by_contra hterm
  obtain ⟨hpre, -, -⟩ := GuardedMachine.IsRun.split relay hrun
  have hlast := ((terminates_iff_unanswered hpre).mp (by simpa using hterm)).2
  obtain ⟨before, e, mid, rfl, hreport, hnone⟩ := GuardedMachine.exists_report_of_latest hlast
  -- the last beat was the ping of a tick
  obtain ⟨rfl, hpings⟩ := eq_tick_of_latest_ping hreport
  -- no tick came since, for it would have ended the heartbeat
  have htick : .tick ws ∉ mid := by
    intro hmem
    obtain ⟨mid, later, rfl⟩ := List.append_of_mem hmem
    have hends := endsHeartbeat_of_beats (GuardedMachine.latest_report_eq_none hnone)
    have hafter : relay.after (relay.step (relay.after relay.start before) (.tick ws)) mid =
        relay.after relay.start (before ++ .tick ws :: mid) := by
      rw [GuardedMachine.after_append, GuardedMachine.after_cons]
    rw [hafter] at hends
    have hsplit : (before ++ .tick ws :: (mid ++ .tick ws :: later)) ++ .tick ws :: post =
        (before ++ .tick ws :: mid) ++ .tick ws :: (later ++ .tick ws :: post) := by simp
    rw [hsplit] at hrun
    exact tick_notMem_of_endsHeartbeat hrun hends (by simp)
  have hpong : .pong ws ∈ mid :=
    hanswers before mid post (by simp) hpings htick
  -- and no pong
  obtain ⟨mid, later, rfl⟩ := List.append_of_mem hpong
  have hsilent := GuardedMachine.latest_report_eq_none hnone
  rw [beats, latest_singleton, beatOf, if_pos rfl] at hsilent
  cases hsilent

/-- **Heartbeat verdicts are exact**: in every run, a tick terminates a connection if and only if it
is OPEN and its last beat is a ping; a peer that answers in time is never terminated; and after a
tick that terminates it or finds it not OPEN, or after its close event, it is not ticked again. -/
theorem heartbeat_exact {es : List Event} (hrun : relay.IsRun es) (ws : ConnId) :
    (∀ pre post, es = pre ++ .tick ws :: post →
      ((relay.after relay.start pre).terminates ws = true ↔
        ((relay.after relay.start pre).conn ws).readyState = .OPEN ∧
          latest (beatOf ws) (beatsOf pre) = some .ping)) ∧
    (AnswersInTime ws es → ∀ pre post, es = pre ++ .tick ws :: post →
      (relay.after relay.start pre).terminates ws = false) ∧
    ∀ pre e post, es = pre ++ e :: post →
      (relay.after relay.start pre).EndsHeartbeat ws e → .tick ws ∉ post := by
  refine ⟨?_, ?_, ?_⟩
  · rintro pre post rfl
    exact terminates_iff_unanswered (GuardedMachine.IsRun.split relay hrun).1
  · rintro hanswers pre post rfl
    exact not_terminates_of_answersInTime hrun hanswers
  · rintro pre e post rfl hends
    exact tick_notMem_of_endsHeartbeat hrun hends

/-- A viewer answers its first ping and not its second. -/
theorem heartbeat_exact_unanswered :
    let answered : List Event :=
      [.connect 0 ⟨some "/viewer", .one "s"⟩ 1, .tick 0, .pong 0, .tick 0]
    relay.IsRun (answered ++ [.tick 0]) ∧
      (relay.after relay.start answered).terminates 0 = true ∧ .tick 0 ∉ ([] : List Event) := by
  intro answered
  have hrun : relay.IsRun (answered ++ [.tick 0]) := by decide
  obtain ⟨hexact, -, hends⟩ := heartbeat_exact hrun 0
  have hterm : (relay.after relay.start answered).terminates 0 = true :=
    (hexact answered [] rfl).mpr (by decide)
  exact ⟨hrun, hterm, hends answered (.tick 0) [] rfl (Or.inr ⟨rfl, Or.inl hterm⟩)⟩

end BrowCast
