import BrowCast.Server.QueryString
import BrowCast.Web.Page
import Mathlib.Data.List.DropRight

/-! # Session ids in the address

The text of the session id field, put into the address of the viewer endpoint, requested by the
browser, and read off the query by the server. It comes back as it was entered when it means nothing
to any of them, and only then. -/

namespace BrowCast.Web

/-! ## The request of a browser -/

/-- Addresses lose these characters at both ends. -/
def isControlOrBlank (c : Char) : Bool := c.toNat ≤ 0x20

/-- Addresses lose these characters everywhere. -/
def isTabOrNewline (c : Char) : Bool := c = '\t' || c = '\n' || c = '\r'

/-- Host and port end here. -/
def endsAuthority (c : Char) : Bool := c = '/' || c = '\\' || c = '?' || c = '#'

/-- The visible characters, but for some. -/
def keptBut (encoded : List ℕ) (c : Char) : Bool :=
  0x21 ≤ c.toNat && c.toNat ≤ 0x7E && !encoded.contains c.toNat

/-- What is not encoded in a path. -/
def keptInPath : Char → Bool := keptBut [0x22, 0x23, 0x3C, 0x3E, 0x3F, 0x5E, 0x60, 0x7B, 0x7D]

/-- What is not encoded in a query. -/
def keptInQuery : Char → Bool := keptBut [0x22, 0x23, 0x27, 0x3C, 0x3E]

/-- An address without what is dropped from it. -/
def cleaned (url : List Char) : List Char :=
  ((url.dropWhile isControlOrBlank).rdropWhile isControlOrBlank).filter (!isTabOrNewline ·)

/-- What follows the scheme of a socket. -/
def afterScheme (url : List Char) : Option (List Char) :=
  if "ws://".toList.isPrefixOf url then some (url.drop 5)
  else if "wss://".toList.isPrefixOf url then some (url.drop 6)
  else none

/-- The path and the query of a request; the path is one without dots. -/
def targetOf (rest : List Char) : List Char :=
  let path := (rest.takeWhile (· ≠ '?')).map fun c => if c = '\\' then '/' else c
  let query := (rest.dropWhile (· ≠ '?')).tail
  (if path = [] then ['/'] else PercentEncoding.encode keptInPath path) ++
    if query = [] then [] else '?' :: PercentEncoding.encode keptInQuery query

/-- A browser: which hosts with ports it accepts, and whether it rejects a socket whose address has
a fragment. -/
structure Browser where
  acceptsHost : List Char → Bool
  rejectsFragment : Bool

/-- `new WebSocket(url)`: the target of the request, or `none` when the constructor throws. -/
def Browser.requestTarget (b : Browser) (url : String) : Option String := do
  let address ← afterScheme (cleaned url.toList)
  let authority := address.takeWhile (!endsAuthority ·)
  let rest := address.dropWhile (!endsAuthority ·)
  if b.acceptsHost authority && !(b.rejectsFragment && rest.contains '#') then
    some (.ofList (targetOf (rest.takeWhile (· ≠ '#'))))
  else none

/-- The `sessionId` value the server obtains from the request that a click makes, for the texts of
the two fields. -/
def Browser.obtainedSessionId (b : Browser) (p : Page) (serverIp sessionIdInput : String) :
    Option QueryValue := do
  let accepted :=
    (b.requestTarget (Page.wsUrl p.https serverIp (Page.trim sessionIdInput))).isSome
  let socket ← (p.connectWebSocket serverIp sessionIdInput accepted).sockets[p.sockets.length]?
  let target ← b.requestTarget socket.url
  let parsedUrl ← urlParse QueryString.sessionIdOf target
  return parsedUrl.sessionId

/-- The text names a host, which the browser accepts with the port of the server. -/
structure Browser.AcceptsAddress (b : Browser) (serverIp : String) : Prop where
  plain : ∀ c ∈ serverIp.toList, endsAuthority c = false
  host : b.acceptsHost ((serverIp.toList ++ ":8080".toList).filter (!isTabOrNewline ·)) = true

/-! ## The part of an id that is read -/

/-- What the browser leaves of an id at the end of an address. -/
def kept (text : List Char) : List Char :=
  (text.rdropWhile isControlOrBlank).filter (!isTabOrNewline ·)

/-- The part of an id that reaches the server as its value, encoded. -/
def effective (text : List Char) : List Char :=
  ((kept text).takeWhile (· ≠ '#')).takeWhile (· ≠ '&')

/-- An id in which no character means anything to the browser or to the parser of the query. -/
structure UrlSafe (text : List Char) : Prop where
  separator : '&' ∉ text
  fragment : '#' ∉ text
  blank : '+' ∉ text
  escape : PercentEncoding.hasEscape text = false
  dropped : ∀ c ∈ text, isTabOrNewline c = false
  last : ∀ c ∈ text.getLast?, isControlOrBlank c = false

variable {b : Browser} {serverIp : String} {text : List Char}

/-- Only characters of the text are kept. -/
theorem kept_sublist (text : List Char) : (kept text).Sublist text :=
  List.filter_sublist.trans (List.rdropWhile_prefix _ _).sublist

/-- Only characters of the text take effect. -/
theorem effective_sublist (text : List Char) : (effective text).Sublist text :=
  (List.takeWhile_sublist _).trans <| (List.takeWhile_sublist _).trans (kept_sublist text)

/-- Of two steps that only drop characters neither drops any, if both together do not. -/
theorem comp_eq_self_iff {f g : List Char → List Char} (hf : ∀ cs, (f cs).Sublist cs)
    (hg : ∀ cs, (g cs).Sublist cs) {cs : List Char} : f (g cs) = cs ↔ g cs = cs ∧ f cs = cs := by
  constructor
  · intro hboth
    have hfirst : g cs = cs := by
      refine (hg cs).eq_of_length_le ?_
      calc cs.length = (f (g cs)).length := by rw [hboth]
        _ ≤ (g cs).length := (hf _).length_le
    exact ⟨hfirst, by rw [← hfirst, hboth, hfirst]⟩
  · rintro ⟨hfirst, hsecond⟩
    rw [hfirst, hsecond]

/-- A text is all in front of a character when it does not occur. -/
theorem takeWhile_ne_eq_self_iff {c : Char} {cs : List Char} :
    cs.takeWhile (· ≠ c) = cs ↔ c ∉ cs := by
  simp only [List.takeWhile_eq_self_iff, decide_eq_true_eq, ne_eq]
  exact ⟨fun hall hmem => hall c hmem rfl, fun hnot d hd heq => hnot (heq ▸ hd)⟩

/-- Nothing is lost from an id that has nothing to lose. -/
theorem effective_eq_self_iff (text : List Char) : effective text = text ↔
    ((∀ c ∈ text.getLast?, isControlOrBlank c = false) ∧ ∀ c ∈ text, isTabOrNewline c = false) ∧
      '#' ∉ text ∧ '&' ∉ text := by
  have hkept : kept text = text ↔ (∀ c ∈ text.getLast?, isControlOrBlank c = false) ∧
      ∀ c ∈ text, isTabOrNewline c = false := by
    rw [kept, comp_eq_self_iff (fun _ => List.filter_sublist)
      fun _ => (List.rdropWhile_prefix _ _).sublist, List.rdropWhile_eq_self_iff,
      List.filter_eq_self]
    refine and_congr ?_ (by simp)
    rcases List.eq_nil_or_concat text with rfl | ⟨cs, c, rfl⟩ <;> simp
  have hcut : ((text.takeWhile (· ≠ '#')).takeWhile (· ≠ '&')) = text ↔
      '#' ∉ text ∧ '&' ∉ text := by
    rw [comp_eq_self_iff (fun _ => List.takeWhile_sublist _) fun _ => List.takeWhile_sublist _,
      takeWhile_ne_eq_self_iff, takeWhile_ne_eq_self_iff]
  rw [effective, comp_eq_self_iff (f := fun cs => (cs.takeWhile (· ≠ '#')).takeWhile (· ≠ '&'))
    (fun _ => (List.takeWhile_sublist _).trans (List.takeWhile_sublist _)) kept_sublist]
  exact and_congr hkept hcut

/-- The query keeps percent-encoded bytes as they are. -/
theorem keepsEscapes_keptInQuery : PercentEncoding.KeepsEscapes keptInQuery where
  percent := by decide
  digit := by
    intro c hdigit
    have hrange := PercentEncoding.toNat_of_isSome_hexValue hdigit
    have hencoded : c.toNat ∉ [0x22, 0x23, 0x27, 0x3C, 0x3E] := by
      simp only [List.mem_cons, List.not_mem_nil, or_false]
      omega
    have hvisible : 0x21 ≤ c.toNat ∧ c.toNat ≤ 0x7E := by omega
    simp [keptInQuery, keptBut, hencoded, hvisible]
  plus := by decide

/-- **The part that is read.** It comes back exactly when the id is safe. -/
theorem decode_effective_eq_iff (text : List Char) :
    PercentEncoding.decode (PercentEncoding.encode keptInQuery (effective text)) = text ↔
      UrlSafe text := by
  constructor
  · intro hback
    -- what is read is no longer than the part it is read off
    have hlength : effective text = text := by
      refine (effective_sublist text).eq_of_length_le ?_
      have hle := PercentEncoding.length_decode_encode keepsEscapes_keptInQuery none
        (effective text)
      rw [← Utf8.decode, ← PercentEncoding.decode, hback] at hle
      simp only [Utf8.owed, Option.isSome_none, Bool.false_eq_true, if_false] at hle
      omega
    rw [hlength] at hback
    obtain ⟨hescape, hplus⟩ :=
      (PercentEncoding.decode_encode_eq_iff keepsEscapes_keptInQuery text).mp hback
    obtain ⟨⟨hlast, hdropped⟩, hfragment, hseparator⟩ := (effective_eq_self_iff text).mp hlength
    exact ⟨hseparator, hfragment, hplus, hescape, hdropped, hlast⟩
  · intro hsafe
    rw [(effective_eq_self_iff text).mpr
      ⟨⟨hsafe.last, hsafe.dropped⟩, hsafe.fragment, hsafe.separator⟩]
    exact (PercentEncoding.decode_encode_eq_iff keepsEscapes_keptInQuery text).mpr
      ⟨hsafe.escape, hsafe.blank⟩

/-! ## The request for an id -/

/-- Trimming the end of a text goes no further than its last part that stays. -/
theorem rdropWhile_append {p : Char → Bool} {cs : List Char}
    (hlast : ∀ c ∈ cs.getLast?, p c = false) (text : List Char) :
    (cs ++ text).rdropWhile p = cs ++ text.rdropWhile p := by
  induction text using List.reverseRecOn with
  | nil =>
      rw [List.append_nil, List.rdropWhile_nil, List.append_nil, List.rdropWhile_eq_self_iff]
      intro hne
      rw [hlast _ (List.getLast?_eq_getLast_of_ne_nil hne), Bool.false_eq_true]
      exact not_false
  | append_singleton text c ih =>
      rw [← List.append_assoc, List.rdropWhile_concat, List.rdropWhile_concat, ih]
      split
      · rfl
      · rw [List.append_assoc]

/-- The address up to the id is left as it is, but for tabs and line ends. -/
theorem cleaned_append {c : Char} {cs : List Char} (hfirst : isControlOrBlank c = false)
    (hlast : ∀ d ∈ (c :: cs).getLast?, isControlOrBlank d = false) (text : List Char) :
    cleaned (c :: cs ++ text) = (c :: cs).filter (!isTabOrNewline ·) ++ kept text := by
  have hstart : (c :: cs ++ text).dropWhile isControlOrBlank = c :: cs ++ text := by
    rw [List.cons_append, List.dropWhile_cons_of_neg (by rw [hfirst, Bool.false_eq_true]; exact id)]
  rw [cleaned, hstart, rdropWhile_append hlast, List.filter_append, kept]

/-- The address without its scheme. -/
theorem afterScheme_wsUrl (https : Bool) (serverIp sessionId : String) :
    afterScheme (cleaned (Page.wsUrl https serverIp sessionId).toList) =
      some ((serverIp.toList ++ ":8080".toList).filter (!isTabOrNewline ·) ++
        ("/viewer?sessionId=".toList ++ kept sessionId.toList)) := by
  -- blanks are trimmed at the ends only, where the fixed parts have none but after the id
  have hcleaned (scheme : List Char) : cleaned ('w' :: scheme ++ serverIp.toList ++
      ":8080/viewer?sessionId=".toList ++ sessionId.toList) =
        ('w' :: scheme).filter (!isTabOrNewline ·) ++
          ((serverIp.toList ++ ":8080".toList).filter (!isTabOrNewline ·) ++
            ("/viewer?sessionId=".toList ++ kept sessionId.toList)) := by
    rw [List.cons_append, List.cons_append, cleaned_append (by decide)]
    · simp [isTabOrNewline]
    · intro c hc
      rw [← List.cons_append, List.getLast?_append] at hc
      obtain rfl : '=' = c := by simpa using hc
      decide
  cases https with
  | false =>
      have hurl : (Page.wsUrl false serverIp sessionId).toList =
          'w' :: "s://".toList ++ serverIp.toList ++ ":8080/viewer?sessionId=".toList ++
            sessionId.toList := by
        simp [Page.wsUrl]
      rw [hurl, hcleaned]
      simp [afterScheme, isTabOrNewline]
  | true =>
      have hurl : (Page.wsUrl true serverIp sessionId).toList =
          'w' :: "ss://".toList ++ serverIp.toList ++ ":8080/viewer?sessionId=".toList ++
            sessionId.toList := by
        simp [Page.wsUrl]
      rw [hurl, hcleaned]
      simp [afterScheme, isTabOrNewline]

/-- A visible character is neither blank nor the mark of a fragment. -/
theorem isBlank_eq_false_of_keptInQuery {c : Char} (hc : keptInQuery c = true) :
    isBlank c = false ∧ c ≠ '#' := by
  obtain ⟨⟨hlower, hupper⟩, hencoded⟩ := by
    simpa only [keptInQuery, keptBut, Bool.and_eq_true, decide_eq_true_eq] using hc
  constructor
  · simp only [isBlank, Number.isWhiteSpace, Bool.or_eq_false_iff, Bool.and_eq_false_iff,
      decide_eq_false_iff_not, beq_eq_false_iff_ne]
    omega
  · rintro rfl
    exact absurd hencoded (by decide)

/-- The target names the viewer endpoint and the id, encoded. -/
theorem targetOf_viewer (text : List Char) : targetOf ("/viewer?sessionId=".toList ++ text) =
    "/viewer?sessionId=".toList ++ PercentEncoding.encode keptInQuery text := by
  have hpath : ("/viewer?sessionId=".toList ++ text).takeWhile (· ≠ '?') = "/viewer".toList := by
    simp
  have hquery : (("/viewer?sessionId=".toList ++ text).dropWhile (· ≠ '?')).tail =
      "sessionId=".toList ++ text := by
    simp
  have hencodedPath : PercentEncoding.encode keptInPath
      ("/viewer".toList.map fun c => if c = '\\' then '/' else c) = "/viewer".toList := by decide
  have hencodedKey : PercentEncoding.encode keptInQuery "sessionId=".toList =
      "sessionId=".toList := by decide
  unfold targetOf
  simp only [hpath, hquery, hencodedPath, PercentEncoding.encode_append, hencodedKey]
  simp

/-- The server reads the id off the query. -/
theorem urlParse_target (text : List Char) : (urlParse QueryString.sessionIdOf
      (.ofList ("/viewer?sessionId=".toList ++ PercentEncoding.encode keptInQuery text))).map
        (·.sessionId) =
    some (QueryString.sessionIdOf
      (.ofList ("sessionId=".toList ++ PercentEncoding.encode keptInQuery text))) := by
  have hplain : ∀ c ∈ "/viewer?sessionId=".toList, isBlank c = false ∧ c ≠ '#' := by
    simpa using (by decide : "/viewer?sessionId=".toList.all fun c => !isBlank c && c ≠ '#')
  have hall : ∀ c ∈ "/viewer?sessionId=".toList ++ PercentEncoding.encode keptInQuery text,
      isBlank c = false ∧ c ≠ '#' := by
    intro c hc
    rcases List.mem_append.mp hc with hc | hc
    · exact hplain c hc
    · exact isBlank_eq_false_of_keptInQuery
        (PercentEncoding.keep_of_mem_encode keepsEscapes_keptInQuery hc)
  have hfragment : '#' ∉ "/viewer?sessionId=".toList ++ PercentEncoding.encode keptInQuery text :=
    fun hmem => (hall _ hmem).2 rfl
  have hblank : ("/viewer?sessionId=".toList ++ PercentEncoding.encode keptInQuery text).any
      isBlank = false := by
    rw [List.any_eq_false]
    intro c hc
    rw [(hall c hc).1, Bool.false_eq_true]
    exact not_false
  generalize PercentEncoding.encode keptInQuery text = encoded at hfragment hblank ⊢
  -- the text is cut at its only question mark
  have hpath : (("/viewer?sessionId=".toList ++ encoded).takeWhile (· ≠ '?')).map
      (fun c => if c = '\\' then '/' else c) = "/viewer".toList := by
    simp
  have hsearch : ("/viewer?sessionId=".toList ++ encoded).dropWhile (· ≠ '?') =
      '?' :: ("sessionId=".toList ++ encoded) := by
    simp
  have hsimple : isSimplePath "/viewer".toList = true ∧ '@' ∉ "/viewer".toList := by decide
  unfold urlParse
  simp only [String.toList_ofList, hpath, hsearch, hfragment, hblank, hsimple.1, hsimple.2]
  rfl

/-- The request, unless the browser rejects the address for what it takes as a fragment. -/
theorem requestTarget_wsUrl (hb : b.AcceptsAddress serverIp) (https : Bool) (sessionId : String) :
    b.requestTarget (Page.wsUrl https serverIp sessionId) =
      if b.rejectsFragment && (kept sessionId.toList).contains '#' then none
      else some (.ofList ("/viewer?sessionId=".toList ++
        PercentEncoding.encode keptInQuery ((kept sessionId.toList).takeWhile (· ≠ '#')))) := by
  have hport : ∀ c ∈ ":8080".toList, (!endsAuthority c) = true :=
    List.all_eq_true.mp (by decide)
  -- the authority ends where the address and the port do
  have hauthority : ∀ c ∈ (serverIp.toList ++ ":8080".toList).filter (!isTabOrNewline ·),
      (!endsAuthority c) = true := by
    intro c hc
    rcases List.mem_append.mp (List.mem_filter.mp hc).1 with hc | hc
    · rw [hb.plain c hc, Bool.not_false]
    · exact hport c hc
  have hstart (text : List Char) : ("/viewer?sessionId=".toList ++ text).takeWhile
      (!endsAuthority ·) = [] := by
    simp [endsAuthority]
  have hrest (text : List Char) : ("/viewer?sessionId=".toList ++ text).dropWhile
      (!endsAuthority ·) = "/viewer?sessionId=".toList ++ text := by
    simp [endsAuthority]
  -- the fixed start of the target has no fragment
  have hcontains (text : List Char) : ("/viewer?sessionId=".toList ++ text).contains '#' =
      text.contains '#' := by
    simp
  have hbefore (text : List Char) : ("/viewer?sessionId=".toList ++ text).takeWhile (· ≠ '#') =
      "/viewer?sessionId=".toList ++ text.takeWhile (· ≠ '#') := by
    simp
  unfold Browser.requestTarget
  rw [afterScheme_wsUrl, Option.bind_eq_bind, Option.bind_some]
  simp only [List.takeWhile_append_of_pos hauthority, List.dropWhile_append_of_pos hauthority,
    hstart, hrest, hcontains, hbefore, targetOf_viewer, List.append_nil, hb.host, Bool.true_and]
  cases b.rejectsFragment && (kept sessionId.toList).contains '#' <;> rfl

/-- The socket that a click creates. -/
theorem getElem?_connectWebSocket (p : Page) (serverIp : String) {sessionIdInput : String}
    (hid : Page.trim sessionIdInput ≠ "") (accepted : Bool) :
    ((p.connectWebSocket serverIp sessionIdInput accepted).sockets[p.sockets.length]?).map
        (·.url) =
      if accepted then some (Page.wsUrl p.https serverIp (Page.trim sessionIdInput)) else none := by
  -- the socket that is closed before keeps its place
  have hlength : p.closeIfOpen.sockets.length = p.sockets.length := by
    unfold Page.closeIfOpen Page.setReadyState Page.modifySocket
    cases p.ws with
    | none => rfl
    | some i =>
        simp only
        split
        · exact List.length_modify ..
        · rfl
  have hhttps : p.closeIfOpen.https = p.https := by
    unfold Page.closeIfOpen Page.setReadyState Page.modifySocket
    cases p.ws with
    | none => rfl
    | some i =>
        simp only
        split <;> rfl
  rw [Page.connectWebSocket, if_neg hid]
  cases accepted with
  | true => simp [Page.setOverlay, Page.updateStatus, ← hlength, hhttps]
  | false => simp [Page.setOverlay, Page.updateStatus, ← hlength]

/-- What the server obtains: the part of the id that is read, decoded. -/
theorem obtainedSessionId_eq (hb : b.AcceptsAddress serverIp) (p : Page) {sessionIdInput : String}
    (hid : Page.trim sessionIdInput ≠ "") : b.obtainedSessionId p serverIp sessionIdInput =
      if b.rejectsFragment && (kept (Page.trim sessionIdInput).toList).contains '#' then none
      else some (QueryString.sessionIdOf (.ofList ("sessionId=".toList ++
        PercentEncoding.encode keptInQuery
          ((kept (Page.trim sessionIdInput).toList).takeWhile (· ≠ '#'))))) := by
  have htarget := requestTarget_wsUrl hb p.https (Page.trim sessionIdInput)
  have hsocket := getElem?_connectWebSocket p serverIp hid
    (b.requestTarget (Page.wsUrl p.https serverIp (Page.trim sessionIdInput))).isSome
  unfold Browser.obtainedSessionId
  split at htarget
  · next hrejected =>
    -- the address is rejected, so there is no socket
    rw [if_pos hrejected, htarget]
    rw [htarget] at hsocket
    have hnone := Option.map_eq_none_iff.mp hsocket
    simp only [hnone, Option.bind_eq_bind, Option.bind_none]
  · next haccepted =>
      rw [if_neg haccepted, htarget]
      rw [htarget] at hsocket
      obtain ⟨socket, hsome, hurl⟩ := Option.map_eq_some_iff.mp hsocket
      have hparse := urlParse_target ((kept (Page.trim sessionIdInput).toList).takeWhile (· ≠ '#'))
      obtain ⟨parsedUrl, hparsed, hvalue⟩ := Option.map_eq_some_iff.mp hparse
      simp only [hsome, hurl, htarget, hparsed, hvalue, Option.bind_eq_bind, Option.bind_some]
      rfl

/-! ## Which ids come back -/

/-- The server obtains the trimmed id exactly when it is safe. -/
theorem obtainedSessionId_eq_trim_iff (hb : b.AcceptsAddress serverIp) (p : Page)
    {sessionIdInput : String} (hid : Page.trim sessionIdInput ≠ "") :
    b.obtainedSessionId p serverIp sessionIdInput = some (.one (Page.trim sessionIdInput)) ↔
      UrlSafe (Page.trim sessionIdInput).toList := by
  rw [obtainedSessionId_eq hb p hid]
  generalize Page.trim sessionIdInput = sessionId at hid ⊢
  have hread := QueryString.sessionIdOf_eq (PercentEncoding.encode keptInQuery
    ((kept sessionId.toList).takeWhile (· ≠ '#')))
  rw [PercentEncoding.takeWhile_ne_encode (by decide) (by decide) (by decide),
    ← effective] at hread
  constructor
  · intro hone
    -- what is read back is a single value, so that nothing was lost on the way
    split at hone
    · cases hone
    · rw [Option.some.injEq] at hone
      rcases hread with heq | ⟨-, values, heq⟩
      · rw [heq, QueryValue.one.injEq] at hone
        have hback := congrArg String.toList hone
        rw [String.toList_ofList] at hback
        exact (decode_effective_eq_iff _).mp hback
      · rw [heq] at hone
        cases hone
  · intro hsafe
    -- what is sent has no fragment either
    have hfragment : (kept sessionId.toList).contains '#' = false := by
      rw [List.contains_eq_mem, decide_eq_false_iff_not]
      intro hmem
      exact hsafe.fragment ((kept_sublist _).subset hmem)
    rw [hfragment, Bool.and_false, if_neg Bool.false_ne_true, Option.some.injEq]
    rcases hread with heq | ⟨hmem, -⟩
    · rw [heq, (decode_effective_eq_iff _).mpr hsafe, String.ofList_toList]
    · -- an `&` in what is sent was one in the id
      rcases PercentEncoding.mem_or_of_mem_encode hmem with ⟨hin, -⟩ | heq | hdigit
      · exact absurd ((kept_sublist _).subset ((List.takeWhile_sublist _).subset hin))
          hsafe.separator
      · exact absurd heq (by decide)
      · exact absurd hdigit (by decide)

/-- The session that a safe id joins. -/
theorem key_obtainedSessionId (hb : b.AcceptsAddress serverIp) (p : Page) {sessionIdInput : String}
    (hid : Page.trim sessionIdInput ≠ "") (hsafe : UrlSafe (Page.trim sessionIdInput).toList)
    (conn : ConnId) : (b.obtainedSessionId p serverIp sessionIdInput).bind (·.key conn) =
      some (.text (Page.trim sessionIdInput)) := by
  rw [(obtainedSessionId_eq_trim_iff hb p hid).mpr hsafe, Option.bind_some, QueryValue.key,
    if_neg hid]

/-- **The ids that survive.** The server obtains the id that was entered, trimmed, exactly when no
character of it means anything on the way. Of two such ids that differ, each joins a session of its
own. -/
theorem sessionId_survives_iff (hb : b.AcceptsAddress serverIp) (p : Page) {sessionIdInput : String}
    (hid : Page.trim sessionIdInput ≠ "") :
    (b.obtainedSessionId p serverIp sessionIdInput = some (.one (Page.trim sessionIdInput)) ↔
      UrlSafe (Page.trim sessionIdInput).toList) ∧
    (UrlSafe (Page.trim sessionIdInput).toList →
      ∀ (b' : Browser) (p' : Page) (serverIp' otherInput : String), b'.AcceptsAddress serverIp' →
        Page.trim otherInput ≠ "" → UrlSafe (Page.trim otherInput).toList →
        Page.trim otherInput ≠ Page.trim sessionIdInput → ∀ conn conn' : ConnId,
          (b'.obtainedSessionId p' serverIp' otherInput).bind (·.key conn') ≠
            (b.obtainedSessionId p serverIp sessionIdInput).bind (·.key conn)) := by
  refine ⟨obtainedSessionId_eq_trim_iff hb p hid, ?_⟩
  intro hsafe b' p' serverIp' otherInput hb' hid' hsafe' hne conn conn' heq
  rw [key_obtainedSessionId hb p hid hsafe, key_obtainedSessionId hb' p' hid' hsafe',
    Option.some.injEq, SessionId.text.injEq] at heq
  exact hne heq

/-- A browser that accepts every host. -/
theorem acceptsAddress_localhost : Browser.AcceptsAddress ⟨fun _ => true, false⟩ "localhost" where
  plain := by simp [endsAuthority]
  host := rfl

instance (text : List Char) : Decidable (UrlSafe text) :=
  decidable_of_iff (('&' ∉ text ∧ '#' ∉ text ∧ '+' ∉ text) ∧
    PercentEncoding.hasEscape text = false ∧ text.all (!isTabOrNewline ·) = true ∧
      text.getLast?.toList.all (!isControlOrBlank ·) = true)
    ⟨fun ⟨⟨separator, fragment, blank⟩, escape, dropped, last⟩ =>
      ⟨separator, fragment, blank, escape, by simpa using dropped, by simpa using last⟩,
    fun hsafe => ⟨⟨hsafe.separator, hsafe.fragment, hsafe.blank⟩, hsafe.escape,
      by simpa using hsafe.dropped, by simpa using hsafe.last⟩⟩

/-- An id with a blank and a letter of several bytes. -/
theorem sessionId_survives_blank : UrlSafe "Büro 1".toList ∧
    Browser.obtainedSessionId ⟨fun _ => true, false⟩ { https := false } "localhost" "  Büro 1 " =
      some (.one "Büro 1") := by
  have hsafe : UrlSafe "Büro 1".toList := by decide
  have htrim : Page.trim "  Büro 1 " = "Büro 1" := by decide
  have hid : Page.trim "  Büro 1 " ≠ "" := by decide
  have hiff := (sessionId_survives_iff acceptsAddress_localhost { https := false } hid).1
  rw [htrim] at hiff
  exact ⟨hsafe, hiff.mpr hsafe⟩

/-- Two ids that join one session: the plus sign of the first is read as the blank of the second. -/
theorem sessionId_plus_read_as_blank :
    Page.trim "a+b" = "a+b" ∧ Page.trim "a b" = "a b" ∧
      Browser.obtainedSessionId ⟨fun _ => true, false⟩ { https := false } "localhost" "a+b" =
        some (.one "a b") ∧
      Browser.obtainedSessionId ⟨fun _ => true, false⟩ { https := false } "localhost" "a b" =
        some (.one "a b") := by decide

/-- An id is cut off at the number sign and at `&`. -/
example :
    Browser.obtainedSessionId ⟨fun _ => true, false⟩ { https := true } "localhost" "room#1" =
      some (.one "room") ∧
    Browser.obtainedSessionId ⟨fun _ => true, false⟩ { https := true } "localhost" "R&D" =
      some (.one "R") := by decide

end BrowCast.Web
