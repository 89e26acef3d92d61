import BrowCast.Server.Transitions
import Mathlib.Data.List.TakeWhile

/-! # The request URL

What the `'connection'` handler makes of `req.url`, and the requests it turns away whatever the
state of the server: those that carry no query carry no session id. -/

namespace BrowCast

/-! ## `url.parse` -/

/-- A character that `\s` matches, or a control character. -/
def isBlank (c : Char) : Bool :=
  c.toNat ≤ 0x20 || Number.isWhiteSpace c

/-- A path starts with one slash or two. -/
def isSimplePath : List Char → Bool
  | '/' :: '/' :: '/' :: _ => false
  | '/' :: _ => true
  | _ => false

/-- `url.parse(target, true)` on a request target that is a path with perhaps a query: there, up to
the first question mark, is the `pathname`, and `querystring.parse` reads what follows it.
`parseQuery` is the `sessionId` member of that. A target with a fragment, a user or blanks is not a
simple path, and `none` here. -/
def urlParse (parseQuery : String → QueryValue) (target : String) : Option ParsedUrl :=
  let path := (target.toList.takeWhile (· ≠ '?')).map fun c => if c = '\\' then '/' else c
  let search := target.toList.dropWhile (· ≠ '?')
  if '#' ∈ target.toList ∨ '@' ∈ path ∨ target.toList.any isBlank ∨ !isSimplePath path then none
  else some {
    pathname := some (.ofList path)
    sessionId := match search with
      | [] => .absent
      | _ :: query => parseQuery (.ofList query) }

/-- Without a question mark there is no session id. -/
theorem urlParse_sessionId_of_no_query {parseQuery : String → QueryValue} {target : String}
    {parsedUrl : ParsedUrl} (hquery : '?' ∉ target.toList)
    (hparse : urlParse parseQuery target = some parsedUrl) : parsedUrl.sessionId = .absent := by
  have hsearch : target.toList.dropWhile (· ≠ '?') = [] := by
    rw [List.dropWhile_eq_nil_iff]
    intro c hc
    simp only [decide_eq_true_eq]
    rintro rfl
    exact hquery hc
  -- where a URL comes out, its `sessionId` is read off the empty search part
  simp only [urlParse] at hparse
  split at hparse
  · cases hparse
  · obtain rfl := Option.some.inj hparse
    simp only [hsearch]

/-! ## Requests without a session id -/

namespace Server

variable {σ : Server} {ws : ConnId} {parsedUrl : ParsedUrl}

/-- What becomes of a connection without a session id: nothing listens to it, and it is closed with
a text that asks for the id. -/
theorem conn_connect_of_no_key (hkey : parsedUrl.sessionId.key ws = none) (now : ℕ) :
    (σ.step (.connect ws parsedUrl now)).conn ws = {
      readyState := .CLOSING
      sent := [.close 1008 "Connection attempt without sessionId. Closing connection."] } := by
  have hfits :
      ¬ 123 < "Connection attempt without sessionId. Closing connection.".utf8ByteSize := by decide
  rw [step_connect, decided, verdict, hkey]
  simp only [turnAway, hfits, if_false]
  simp [settle, arrive, hkey]

end Server

end BrowCast
