import Mathlib.Algebra.Group.Int.Defs
import Mathlib.Data.List.Basic

/-! # The URL the agent connects to

`main` builds a WebSocket URL from the host it was given, and the vendored `websocketpp` takes it
apart again: the constructor of `uri` finds the scheme, the host, the port and the resource, and the
resource is what the client puts into the request line. -/

namespace BrowCast

/-! ## The URL built by `main` -/

/-- `DEFAULT_SESSION_ID`. -/
def defaultSessionId : String := "def_pas"

/-- `SERVER_PORT`. -/
def serverPort : String := "8080"

/-- `server_url`. -/
def serverUrl (serverHost : String) : String := "ws://" ++ serverHost ++ ":" ++ serverPort

/-- A host without the characters that end a host in a URL or start an address literal. -/
def HostOnly (serverHost : String) : Prop :=
  ∀ c ∈ serverHost.toList, c ≠ '/' ∧ c ≠ ':' ∧ c ≠ '['

instance (serverHost : String) : Decidable (HostOnly serverHost) :=
  List.decidableBAll (fun c => c ≠ '/' ∧ c ≠ ':' ∧ c ≠ '[') serverHost.toList

/-! ## `websocketpp::uri` -/

/-- A valid `websocketpp::uri`. -/
structure Uri where
  scheme : String
  secure : Bool
  host : String
  port : UInt16
  resource : String
  deriving DecidableEq

namespace Uri

/-- Behind a scheme there must be something left. -/
def stripScheme (scheme : String) (uri : List Char) : Option (List Char) :=
  if scheme.toList.isPrefixOf uri ∧ scheme.length < uri.length then some (uri.drop scheme.length)
  else none

/-- The scheme, whether it is a secure one, and the rest. -/
def readScheme (uri : List Char) : Option (String × Bool × List Char) :=
  ((stripScheme "wss://" uri).map ("wss", true, ·)).orElse fun _ =>
  ((stripScheme "ws://" uri).map ("ws", false, ·)).orElse fun _ =>
  ((stripScheme "http://" uri).map ("http", false, ·)).orElse fun _ =>
  (stripScheme "https://" uri).map ("https", true, ·)

/-- The loop of state 0: a host, whether a port follows it, and the rest. -/
def readHost : List Char → List Char × Bool × List Char
  | [] => ([], false, [])
  | c :: it =>
      -- the slash is consumed, and put back in front of the resource
      if c = '/' then ([], false, it)
      else if c = ':' then ([], true, it)
      else (c :: (readHost it).1, (readHost it).2)

/-- An IPv6 literal, up to the bracket that closes it, in place of a host. -/
def readLiteral (it : List Char) : Option (List Char × Bool × List Char) :=
  match it.dropWhile (· ≠ ']') with
  | [_] => some (it.takeWhile (· ≠ ']'), false, [])
  | _ :: '/' :: rest => some (it.takeWhile (· ≠ ']'), false, rest)
  | _ :: ':' :: rest => some (it.takeWhile (· ≠ ']'), true, rest)
  | _ => none

/-- The branch on the first character behind the scheme. -/
def readAuthority : List Char → Option (List Char × Bool × List Char)
  | '[' :: it => readLiteral it
  | it => some (readHost it)

/-- The loop of state 1: the text of a port, and the rest. -/
def readPort : List Char → List Char × List Char
  | [] => ([], [])
  | c :: it => if c = '/' then ([], it) else (c :: (readPort it).1, (readPort it).2)

/-- `isspace` of the C locale. -/
def isSpace (c : Char) : Bool := c = ' ' || (9 ≤ c.toNat && c.toNat ≤ 13)

/-- The value of the digits at the front. -/
def leadingDigits (value : ℕ) : List Char → ℕ
  | [] => value
  | c :: cs => if c.isDigit then leadingDigits (10 * value + (c.toNat - '0'.toNat)) cs else value

/-- `atoi`; a value out of range becomes the nearest `int`, as the Microsoft runtime has it. -/
def atoi (port : List Char) : ℤ :=
  match port.dropWhile isSpace with
  | '-' :: digits => max (-2 ^ 31) (-leadingDigits 0 digits)
  | '+' :: digits => min (2 ^ 31 - 1) (leadingDigits 0 digits)
  | digits => min (2 ^ 31 - 1) (leadingDigits 0 digits)

/-- `get_port_from_string`; `none` is `invalid_port`. -/
def getPortFromString (secure : Bool) (port : List Char) : Option UInt16 :=
  if port = [] then some (if secure then 443 else 80)
  else
    -- the cast to `unsigned int`
    let tPort := (atoi port % 2 ^ 32).toNat
    if 65535 < tPort ∨ tPort = 0 then none else some (UInt16.ofNat tPort)

/-- The constructor of `uri`; `none` when the result is not valid. -/
def parse (uri : String) : Option Uri := do
  let (scheme, secure, it) ← readScheme uri.toList
  let (host, portFollows, it) ← readAuthority it
  let (port, it) := if portFollows then readPort it else ([], it)
  let port ← getPortFromString secure port
  return { scheme, secure, host := .ofList host, port, resource := "/" ++ .ofList it }

end Uri

/-- `get_connection` of a client without TLS, and the target its request names: the resource of the
URL. There is no connection when the URL is not valid, or a secure one. -/
def requestTarget (uri : String) : Option String := do
  let location ← Uri.parse uri
  if location.secure then none else some location.resource

/-! ## The request of the agent -/

namespace Uri

/-- A scheme is stripped off a text that starts with it and goes on. -/
theorem stripScheme_append (scheme : String) {rest : List Char} (hrest : rest ≠ []) :
    stripScheme scheme (scheme.toList ++ rest) = some rest := by
  have hpos : 0 < rest.length := List.length_pos_iff.mpr hrest
  have hstarts : scheme.toList.isPrefixOf (scheme.toList ++ rest) = true :=
    List.isPrefixOf_iff_prefix.mpr (List.prefix_append ..)
  have hlen : scheme.length < (scheme.toList ++ rest).length := by
    rw [List.length_append, String.length_toList]
    omega
  unfold stripScheme
  rw [if_pos ⟨hstarts, hlen⟩, ← String.length_toList, List.drop_left]

/-- The scheme of the agent's URL is `ws`, which is not secure. -/
theorem readScheme_ws {rest : List Char} (hrest : rest ≠ []) :
    readScheme ("ws://".toList ++ rest) = some ("ws", false, rest) := by
  have hwss : stripScheme "wss://" ("ws://".toList ++ rest) = none := by
    simp [stripScheme, List.isPrefixOf]
  rw [readScheme, hwss, stripScheme_append "ws://" hrest]
  rfl

/-- A host ends at the first colon. -/
theorem readHost_append_colon {host : List Char} (hhost : ∀ c ∈ host, c ≠ '/' ∧ c ≠ ':')
    (rest : List Char) : readHost (host ++ ':' :: rest) = (host, true, rest) := by
  induction host with
  | nil => simp [readHost]
  | cons c host ih =>
      have hc := hhost c List.mem_cons_self
      have htail := ih fun d hd => hhost d (List.mem_cons_of_mem _ hd)
      rw [List.cons_append, readHost, if_neg hc.1, if_neg hc.2, htail]

/-- A host that does not start with a bracket is read up to its end. -/
theorem readAuthority_of_ne {it : List Char} (h : ∀ rest, it ≠ '[' :: rest) :
    readAuthority it = some (readHost it) := by
  unfold readAuthority
  split
  · exact absurd rfl (h _)
  · rfl

/-- The URL of a host alone: the port is the server's, and there is no path and no query. -/
theorem parse_serverUrl {serverHost : String} (hhost : HostOnly serverHost) :
    parse (serverUrl serverHost) = some {
      scheme := "ws", secure := false, host := serverHost, port := 8080, resource := "/" } := by
  have hlist : (serverUrl serverHost).toList =
      "ws://".toList ++ (serverHost.toList ++ ':' :: serverPort.toList) := by
    simp [serverUrl]
  have hscheme : readScheme ("ws://".toList ++ (serverHost.toList ++ ':' :: serverPort.toList)) =
      some ("ws", false, serverHost.toList ++ ':' :: serverPort.toList) := readScheme_ws (by simp)
  have hauthority : readAuthority (serverHost.toList ++ ':' :: serverPort.toList) =
      some (serverHost.toList, true, serverPort.toList) := by
    rw [readAuthority_of_ne, readHost_append_colon fun c hc => ⟨(hhost c hc).1, (hhost c hc).2.1⟩]
    intro rest hrest
    cases hchars : serverHost.toList with
    | nil => simp [hchars] at hrest
    | cons c cs =>
        rw [hchars, List.cons_append, List.cons.injEq] at hrest
        exact (hhost c (hchars ▸ List.mem_cons_self)).2.2 hrest.1
  have hport : readPort serverPort.toList = (serverPort.toList, []) := by decide
  have hvalue : getPortFromString false serverPort.toList = some 8080 := by decide
  unfold parse
  rw [hlist, hscheme]
  simp [hauthority, hport, hvalue]

end Uri

/-- **The request of the agent.** For a host alone it names the root, without a query. -/
theorem requestTarget_serverUrl {serverHost : String} (hhost : HostOnly serverHost) :
    requestTarget (serverUrl serverHost) = some "/" := by
  rw [requestTarget, Uri.parse_serverUrl hhost]
  rfl

/-- A host with a path and a query in it is not one alone. -/
example : requestTarget (serverUrl "10.0.0.2:8080/agent?sessionId=def_pas&_=") =
    some "/agent?sessionId=def_pas&_=:8080" := by decide

end BrowCast
