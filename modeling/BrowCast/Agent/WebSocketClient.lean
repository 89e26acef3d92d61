import BrowCast.Agent.ServerUrl
import BrowCast.Runs.GuardedMachine

/-! # The agent's client

The connections of the client, the flag and the handle it keeps, and the event loop that serves
them. After a failed attempt the client makes another one, inside the loop; after the close of an
open connection it makes none, the loop ends, and its thread is never started again. -/

namespace BrowCast

/-! ## The client -/

/-- How far a connection has come: its opening handshake is pending, it is open, or it has failed
or been closed. -/
inductive Progress where
  | pending
  | opened
  | over
  deriving DecidableEq

/-- The event loop, in the thread that `connect` starts: the thread has not been started, it runs
the loop, or the loop has ended. -/
inductive EventLoop where
  | notStarted
  | running
  | ended
  deriving DecidableEq

/-- The client. A connection is named by its place in the order of creation. -/
structure WebSocketClient where
  uri : String
  connected : Bool := false
  hdl : Option ℕ := none
  loop : EventLoop := .notStarted
  connections : List Progress := []
  deriving DecidableEq

namespace WebSocketClient

variable (c : WebSocketClient)

/-- `m_thread.joinable()`: a thread that has finished can still be joined. -/
def joinable : Bool := c.loop ≠ .notStarted

/-- The handle is expired unless its connection is alive. -/
def expired : Bool :=
  match c.hdl.bind (c.connections[·]?) with
  | some .pending | some .opened => false
  | some .over | none => true

/-- `isConnected`. -/
def isConnected : Bool := c.connected && !c.expired

/-- `connect`; `none` when it throws, which `get_connection` decides by the URL. -/
def connect : Option WebSocketClient :=
  if (requestTarget c.uri).isSome then some {
    c with
    hdl := some c.connections.length
    connections := c.connections ++ [.pending]
    loop := if c.joinable then c.loop else .running }
  else none

/-- `onOpen`, of the connection `i`. -/
def onOpen (i : ℕ) : WebSocketClient := { c with hdl := some i, connected := true }

/-- The close handler. -/
def onClose : WebSocketClient := { c with connected := false }

/-- `onFail`: the exception of `connect` is caught. -/
def onFail : WebSocketClient :=
  let c := { c with connected := false }
  c.connect.getD c

/-! ## The events -/

/-- What can happen: calls of `connect`, what the network does to a connection, and the end of the
loop. -/
inductive Event where
  | connect
  | opened (i : ℕ)
  | failed (i : ℕ)
  | closed (i : ℕ)
  | loopEnds
  deriving DecidableEq

/-- A connection that is pending or open is work for the loop. -/
def hasWork : Bool := c.connections.any (· ≠ .over)

/-- The connection `i` is at this point. -/
def setProgress (i : ℕ) (progress : Progress) : WebSocketClient :=
  { c with connections := c.connections.set i progress }

/-- The loop delivers what happens to connections, and ends when it has no work. -/
def Enabled : Event → Prop
  | .connect => True
  | .opened i | .failed i => c.loop = .running ∧ c.connections[i]? = some .pending
  | .closed i => c.loop = .running ∧ c.connections[i]? = some .opened
  | .loopEnds => c.loop = .running ∧ c.hasWork = false

instance : ∀ e, Decidable (c.Enabled e)
  | .connect => inferInstanceAs (Decidable True)
  | .opened _ | .failed _ | .closed _ | .loopEnds => inferInstanceAs (Decidable (_ ∧ _))

/-- The client after an event. -/
def step : Event → WebSocketClient
  | .connect => c.connect.getD c
  | .opened i => (c.setProgress i .opened).onOpen i
  | .failed i => (c.setProgress i .over).onFail
  | .closed i => (c.setProgress i .over).onClose
  | .loopEnds => { c with loop := .ended }

end WebSocketClient

/-- A client from some state on. -/
def agentClient (c : WebSocketClient) : GuardedMachine WebSocketClient WebSocketClient.Event where
  start := c
  Enabled := WebSocketClient.Enabled
  step := WebSocketClient.step

namespace WebSocketClient

instance (c : WebSocketClient) (es : List Event) : Decidable ((agentClient c).IsRun es) :=
  inferInstanceAs (Decidable ((agentClient c).Steps WebSocketClient.Enabled c es))

variable {c c' : WebSocketClient} {uri : String}

/-! ## Attempts -/

/-- A client that is not connected has an attempt pending, on a running loop. -/
def Returning (c : WebSocketClient) : Prop :=
  c.isConnected = false → .pending ∈ c.connections ∧ c.loop = .running

/-- The event is no close while no attempt is pending. -/
def AttemptPending (c : WebSocketClient) : Event → Prop
  | .closed _ => .pending ∈ c.connections
  | .connect | .opened _ | .failed _ | .loopEnds => True

instance (c : WebSocketClient) : ∀ e, Decidable (AttemptPending c e)
  | .closed _ => inferInstanceAs (Decidable (_ ∈ _))
  | .connect | .opened _ | .failed _ | .loopEnds => inferInstanceAs (Decidable True)

/-- What `connect` does when it does not throw, which depends on the URL alone. -/
theorem connect_eq_some_iff : c.connect = some c' ↔ (requestTarget c.uri).isSome ∧ c' = {
    c with
    hdl := some c.connections.length
    connections := c.connections ++ [.pending]
    loop := if c.joinable then c.loop else .running } := by
  unfold connect
  split
  · next h => rw [Option.some.injEq, eq_comm, and_iff_right h]
  · next h => simp [h]

/-! ## The invariant -/

/-- A client that has work for its loop: the handle of a connected client is alive, and one that is
not connected has an attempt pending. -/
structure Working (c : WebSocketClient) : Prop where
  valid : (requestTarget c.uri).isSome
  running : c.loop = .running
  alive : c.connected = true → c.expired = false
  attempt : c.connected = false → .pending ∈ c.connections

/-- A working client returns. -/
theorem Working.returning (h : Working c) : Returning c := by
  intro hnot
  refine ⟨h.attempt ?_, h.running⟩
  by_contra hconnected
  rw [Bool.not_eq_false] at hconnected
  rw [isConnected, hconnected, h.alive hconnected] at hnot
  cases hnot

/-- An attempt is work. -/
theorem hasWork_of_mem (h : .pending ∈ c.connections) : c.hasWork = true :=
  List.any_eq_true.mpr ⟨.pending, h, rfl⟩

/-- So is a connection that is alive. -/
theorem hasWork_of_not_expired (h : c.expired = false) : c.hasWork = true := by
  unfold expired at h
  split at h
  · next hget =>
      obtain ⟨i, -, hi⟩ := Option.bind_eq_some_iff.mp hget
      exact List.any_eq_true.mpr ⟨_, List.mem_of_getElem? hi, rfl⟩
  · next hget =>
      obtain ⟨i, -, hi⟩ := Option.bind_eq_some_iff.mp hget
      exact List.any_eq_true.mpr ⟨_, List.mem_of_getElem? hi, rfl⟩
  · cases h
  · cases h

/-- A working client has work for its loop. -/
theorem Working.hasWork (h : Working c) : c.hasWork = true := by
  cases hconnected : c.connected with
  | true => exact hasWork_of_not_expired (h.alive hconnected)
  | false => exact hasWork_of_mem (h.attempt hconnected)

/-- The attempts are the same after an open connection was closed. -/
theorem pending_mem_set_iff {connections : List Progress} {i : ℕ}
    (hi : connections[i]? = some .opened) :
    .pending ∈ connections.set i .over ↔ .pending ∈ connections := by
  constructor
  · intro hmem
    rcases List.mem_or_eq_of_mem_set hmem with hmem | heq
    · exact hmem
    · cases heq
  · intro hmem
    obtain ⟨j, hj⟩ := List.mem_iff_getElem?.mp hmem
    have hne : i ≠ j := by
      rintro rfl
      rw [hi] at hj
      cases hj
    exact List.mem_iff_getElem?.mpr ⟨j, by rw [List.getElem?_set_ne hne, hj]⟩

/-- A successful `connect` on a running loop. -/
theorem Working.of_connect (hvalid : (requestTarget c.uri).isSome) (hloop : c.loop ≠ .ended)
    (h : c.connect = some c') : Working c' := by
  obtain ⟨-, rfl⟩ := connect_eq_some_iff.mp h
  refine ⟨hvalid, ?_, fun _ => ?_, fun _ => List.mem_append_right _ List.mem_cons_self⟩
  · cases hc : c.loop with
    | notStarted => simp [joinable, hc]
    | running => simp [joinable, hc]
    | ended => exact absurd hc hloop
  · simp [expired]

/-- Every event but a close keeps the loop at work. -/
theorem Working.step (h : Working c) {e : Event} (he : c.Enabled e)
    (hattempt : AttemptPending c e) : Working (c.step e) := by
  -- an attempt is work for the loop
  have hconnect (d : WebSocketClient) (hd : d.uri = c.uri ∧ d.loop = c.loop) :
      Working (d.connect.getD d) := by
    have hvalid : (requestTarget d.uri).isSome := hd.1 ▸ h.valid
    have hsome := connect_eq_some_iff.mpr ⟨hvalid, rfl⟩
    rw [hsome, Option.getD_some]
    refine Working.of_connect hvalid ?_ hsome
    rw [hd.2, h.running]
    decide
  cases e with
  | connect => exact hconnect c ⟨rfl, rfl⟩
  | opened i =>
      refine ⟨h.valid, h.running, fun _ => ?_, fun hnot => by cases hnot⟩
      have hi := (List.getElem?_eq_some_iff.mp he.2).1
      simp [WebSocketClient.step, onOpen, setProgress, expired, hi]
  | failed i => exact hconnect _ ⟨rfl, rfl⟩
  | closed i =>
      refine ⟨h.valid, h.running, fun hconnected => (by cases hconnected), fun _ => ?_⟩
      exact (pending_mem_set_iff he.2).mpr hattempt
  | loopEnds =>
      -- there is work, so the loop does not end
      have hnone := he.2
      rw [h.hasWork] at hnone
      cases hnone

/-- A close that leaves the client on its way back found an attempt pending. -/
theorem attemptPending_of_returning {e : Event} (he : c.Enabled e) (h : Returning (c.step e)) :
    AttemptPending c e := by
  cases e with
  | closed i => exact (pending_mem_set_iff he.2).mp (h rfl).1
  | connect | opened _ | failed _ | loopEnds => exact trivial

/-! ## Runs -/

/-- A client whose first `connect` returned. -/
theorem working_of_connect (h : WebSocketClient.connect { uri := uri } = some c) : Working c :=
  Working.of_connect (connect_eq_some_iff.mp h).1 (fun hended => nomatch hended) h

/-- **Always on its way back.** In all states of a run the client is connected or has an attempt
pending on a running loop, exactly when every close finds an attempt pending. -/
theorem states_returning_iff (h : WebSocketClient.connect { uri := uri } = some c)
    {es : List Event} (hrun : (agentClient c).IsRun es) :
    (agentClient c).States Returning c es ↔ (agentClient c).Steps AttemptPending c es := by
  constructor
  · exact (agentClient c).steps_of_states
      (fun c e _ he hreturning => attemptPending_of_returning he hreturning) hrun
  · intro hattempt
    exact ((agentClient c).states_of_steps (fun c e hworking he hpending =>
      hworking.step he hpending) (working_of_connect h) hrun hattempt).mono _
        fun c hworking => hworking.returning

/-- Nothing happens to the connections of a loop that has ended, and no `connect` starts it. -/
theorem step_of_ended {e : Event} (hended : c.loop = .ended) (he : c.Enabled e) :
    (c.step e).loop = .ended := by
  cases e with
  | connect =>
      cases hconnect : c.connect with
      | none => rwa [step, hconnect]
      | some c' =>
          obtain ⟨-, rfl⟩ := connect_eq_some_iff.mp hconnect
          simp [step, hconnect, joinable, hended]
  | opened _ | failed _ | closed _ | loopEnds =>
      have hrunning := he.1
      rw [hended] at hrunning
      cases hrunning

/-- So attempts made later wait for ever. -/
theorem states_ended (hended : c.loop = .ended) {es : List Event}
    (hrun : (agentClient c).IsRun es) : (agentClient c).States (·.loop = .ended) c es :=
  (agentClient c).states_of_invariant hended (fun _ _ h he => step_of_ended h he) hrun

/-! ## Two runs -/

/-- The client of the default host, after the first `connect`. -/
def localClient : WebSocketClient := {
  uri := serverUrl "localhost"
  hdl := some 0
  loop := .running
  connections := [.pending] }

/-- Connecting to the local server yields this client. -/
theorem connect_localClient :
    WebSocketClient.connect { uri := serverUrl "localhost" } = some localClient := by decide

/-- Two attempts fail, and the third succeeds. -/
theorem states_returning_persistent : (agentClient localClient).States Returning localClient
    [.failed 0, .failed 1, .opened 2] :=
  (states_returning_iff connect_localClient (by decide)).mpr (by decide)

/-- The server closes the connection: no attempt is made, the loop ends, and an attempt that is made
then waits on a loop that does not run. -/
theorem not_returning_closed :
    (agentClient localClient).IsRun [.opened 0, .closed 0, .loopEnds, .connect] ∧
      ((agentClient localClient).after localClient [.opened 0, .closed 0]).isConnected = false ∧
      ((agentClient localClient).after localClient [.opened 0, .closed 0]).connections = [.over] ∧
      ((agentClient localClient).after localClient
        [.opened 0, .closed 0, .loopEnds, .connect]).connections = [.over, .pending] ∧
      ((agentClient localClient).after localClient
        [.opened 0, .closed 0, .loopEnds, .connect]).loop = .ended ∧
      ¬ (agentClient localClient).States Returning localClient
        [.opened 0, .closed 0, .loopEnds, .connect] := by
  have hended : ((agentClient localClient).after localClient
      [.opened 0, .closed 0, .loopEnds, .connect]).loop = .ended := by decide
  refine ⟨by decide, by decide, by decide, by decide, hended, fun h => ?_⟩
  have hrunning := (h.last _ (by decide)).2
  rw [hended] at hrunning
  cases hrunning

end WebSocketClient

end BrowCast
