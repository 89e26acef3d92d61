import BrowCast.Agent.Base64Encoding
import BrowCast.Agent.ImageProcessor
import BrowCast.JavaScript.JsonValue
import BrowCast.Runs.GuardedMachine
import BrowCast.Runs.Ledger

/-! # The agent's main thread

`main` of `Agent/src/main.cpp`, from `InitializeCompressor` on: the compressor is created, the
client connects and is waited for, a source is chosen and announced, and from then on one frame
after the other is captured, compressed and sent. What the library calls answer is data of the
events; what the TurboJPEG library hands out, the compressor and the buffers of the images, is a
ledger. -/

namespace BrowCast

/-! ## Messages -/

/-- An `int` in JSON. -/
def Json.ofInt (n : ℤ) : Json := .num (.finite (decide (n < 0)) n.natAbs)

/-- What the main thread sends. -/
inductive AgentMessage where
  /-- `screen_info`. -/
  | screenInfo (width height : ℤ) (scaleX scaleY : ℚ≥0)
  /-- `frame_msg`. -/
  | frame (base64_image : List Char) (width height : ℤ)

/-- The start of the `image` of a frame. -/
def imageHeader : List Char := "data:image/jpeg;base64,".toList

/-- The JSON value; the members of an object are sorted by their keys. -/
def AgentMessage.json : AgentMessage → Json
  | .screenInfo width height scaleX scaleY =>
      .obj [("height", .ofInt height), ("scaleX", .num (.ofMagnitude scaleX)),
        ("scaleY", .num (.ofMagnitude scaleY)), ("type", .str "screen_info"),
        ("width", .ofInt width)]
  | .frame base64_image width height =>
      .obj [("height", .ofInt height), ("image", .str (.ofList (imageHeader ++ base64_image))),
        ("type", .str "frame"), ("width", .ofInt width)]

/-- The message is a frame. -/
def AgentMessage.isFrame : AgentMessage → Bool
  | .frame _ _ _ => true
  | .screenInfo _ _ _ _ => false

/-- What the calls about the resolution answer: whether there is a screen device context, its
`LOGPIXELSX` and `LOGPIXELSY`, and `GetDpiForWindow`, if the library has it. -/
structure DpiAnswers where
  screenDC : Bool
  logPixelsX : ℕ
  logPixelsY : ℕ
  getDpiForWindow : Option ℕ

/-- `currentDpiX` and `currentDpiY`. -/
def DpiAnswers.currentDpi (dpi : DpiAnswers) : Option Window → ℕ × ℕ
  | none => if dpi.screenDC then (dpi.logPixelsX, dpi.logPixelsY) else (0, 0)
  | some _ =>
      let currentDpiX := dpi.getDpiForWindow.getD dpi.logPixelsX
      (currentDpiX, currentDpiX)

/-- `scaleX` or `scaleY`, of a resolution. -/
def dpiScale (currentDpi : ℕ) : ℚ≥0 := if 0 < currentDpi then currentDpi / (96 : ℕ) else 1

/-- The message that announces the chosen source. -/
def announcement (hwnd : Option Window) (metrics : SystemMetrics) (dpi : DpiAnswers) :
    AgentMessage :=
  let primary := metrics.cxVirtualScreen ≤ 0 ∨ metrics.cyVirtualScreen ≤ 0
  .screenInfo (if primary then metrics.cxScreen else metrics.cxVirtualScreen)
    (if primary then metrics.cyScreen else metrics.cyVirtualScreen)
    (dpiScale (dpi.currentDpi hwnd).1) (dpiScale (dpi.currentDpi hwnd).2)

/-! ## The compressor -/

/-- What `tjCompress2` answers: whether it failed, and the buffer it has allocated, if any. -/
structure TjAnswer where
  failed : Bool
  jpegBuf : Option (List UInt8)

/-- `CompressToJpeg`, of a frame. -/
def compressToJpeg (s_jpegCompressor : Option ℕ) (frame : Frame) (answer : TjAnswer)
    (tj : Ledger) : List UInt8 × Ledger :=
  if s_jpegCompressor.isNone then ([], tj)
  else if frame.pixels.isEmpty || decide (frame.width ≤ 0) || decide (frame.height ≤ 0) then
    ([], tj)
  else
    match answer.jpegBuf with
    -- there is nothing to copy, and `tjFree(NULL)` does nothing
    | none => ([], tj)
    | some jpegBuf =>
        let buffer := tj.next
        let tj := tj.acquire
        if answer.failed then ([], tj.free buffer) else (jpegBuf, tj.free buffer)

/-! ## The thread -/

/-- How far `main` has come. -/
inductive Stage where
  /-- Before `InitializeCompressor`. -/
  | starting
  /-- Before `connect`. -/
  | connecting
  /-- In the loop that waits for the connection. -/
  | waiting (elapsed_ms : ℕ)
  /-- Behind that loop. -/
  | waited
  /-- Before a source is chosen. -/
  | selecting
  /-- In the loop that shares it. -/
  | sharing
  | returned (code : ℕ)
  deriving DecidableEq

/-- The stages in which there is a compressor. -/
def Stage.hasCompressor : Stage → Bool
  | .starting | .returned _ => false
  | .connecting | .waiting _ | .waited | .selecting | .sharing => true

/-- The main thread, with the static compressor, the ledger of the library, and what was handed to
`ws_client.send` so far. -/
structure MainThread where
  stage : Stage := .starting
  s_jpegCompressor : Option ℕ := none
  tj : Ledger := .empty
  sent : List AgentMessage := []

namespace MainThread

/-- One round of the main thread, with what the calls in it answer. -/
inductive Event where
  /-- `InitializeCompressor`; `success` is that of `tjInitCompress`. -/
  | initializeCompressor (success : Bool)
  | connect (throws : Bool)
  /-- The condition of the waiting loop, and its body when that holds. -/
  | wait (isConnected : Bool)
  /-- The test behind that loop. -/
  | check (isConnected : Bool)
  /-- A source was chosen; it is announced if the client is connected. -/
  | select (hwnd : Option Window) (isConnected : Bool) (metrics : SystemMetrics) (dpi : DpiAnswers)
  /-- One round of the sharing loop, with `selected_hwnd` as it is then. -/
  | share (hwnd : Option Window) (isConnected : Bool) (win32 : Win32) (answer : TjAnswer)

/-- `connect_timeout_ms`. -/
def connectTimeoutMs : ℕ := 5000

variable (t : MainThread)

/-- `InitializeCompressor`; `none` when it throws. -/
def initializeCompressor (success : Bool) : Option MainThread :=
  if t.s_jpegCompressor.isSome then some t
  else if success then some { t with s_jpegCompressor := some t.tj.next, tj := t.tj.acquire }
  else none

/-- `ShutdownCompressor`. -/
def shutdownCompressor : MainThread :=
  match t.s_jpegCompressor with
  | some h => { t with s_jpegCompressor := none, tj := t.tj.free h }
  | none => t

/-- One round of the sharing loop, for a client that is connected. -/
def shareFrame (hwnd : Option Window) (win32 : Win32) (answer : TjAnswer) : MainThread :=
  let frame := capturePixelsInternal win32 hwnd
  if frame.pixels ≠ [] ∧ 0 < frame.width ∧ 0 < frame.height then
    let (jpeg_data, tj) := compressToJpeg t.s_jpegCompressor frame answer t.tj
    let t := { t with tj := tj }
    if jpeg_data = [] then t
    else
      match encodeToBase64 jpeg_data with
      -- never taken: the encoder is defined on all bytes
      | none => t
      | some base64_image =>
          { t with sent := t.sent ++ [.frame base64_image frame.width frame.height] }
  else t

/-- The round that `main` has come to. -/
def Enabled : Event → Prop
  | .initializeCompressor _ => t.stage = .starting
  | .connect _ => t.stage = .connecting
  | .wait _ => ∃ elapsed_ms, t.stage = .waiting elapsed_ms
  | .check _ => t.stage = .waited
  | .select _ _ _ _ => t.stage = .selecting
  | .share _ _ _ _ => t.stage = .sharing

/-- What the round does. -/
def step : Event → MainThread
  | .initializeCompressor success =>
      match t.initializeCompressor success with
      | some t => { t with stage := .connecting }
      | none => { t with stage := .returned 1 }
  | .connect throws =>
      if throws then { t.shutdownCompressor with stage := .returned 1 }
      else { t with stage := .waiting 0 }
  | .wait isConnected =>
      match t.stage with
      | .waiting elapsed_ms =>
          if !isConnected && decide (elapsed_ms < connectTimeoutMs) then
            { t with stage := .waiting (elapsed_ms + 100) }
          else { t with stage := .waited }
      | _ => t
  | .check isConnected =>
      if isConnected then { t with stage := .selecting }
      else { t.shutdownCompressor with stage := .returned 1 }
  | .select hwnd isConnected metrics dpi =>
      { t with
        stage := .sharing
        sent := if isConnected then t.sent ++ [announcement hwnd metrics dpi] else t.sent }
  | .share hwnd isConnected win32 answer =>
      if isConnected then t.shareFrame hwnd win32 answer else t

end MainThread

/-- The main thread of the agent. -/
def agentMain : GuardedMachine MainThread MainThread.Event where
  start := {}
  Enabled := MainThread.Enabled
  step := MainThread.step

namespace MainThread

/-! ## What is sent -/

/-- What a round sends: the announcement of the source, or a frame, when there is one and the
library has compressed it. -/
def Event.messages : Event → List AgentMessage
  | .select hwnd true metrics dpi => [announcement hwnd metrics dpi]
  | .share hwnd true win32 ⟨false, some jpegBuf⟩ =>
      let frame := capturePixelsInternal win32 hwnd
      if frame.pixels ≠ [] ∧ 0 < frame.width ∧ 0 < frame.height ∧ jpegBuf ≠ [] then
        [.frame (Base64.encode jpegBuf) frame.width frame.height]
      else []
  | _ => []

/-! ## The invariant -/

/-- Between two rounds, the compressor is there from its creation until the thread returns, and it
is all that is left of what the library has handed out. -/
structure Tidy (t : MainThread) : Prop where
  compressor : t.s_jpegCompressor.isSome = t.stage.hasCompressor
  kept : t.tj.Keeps t.s_jpegCompressor.toList

variable {t : MainThread}

/-- The buffer of an image is freed whether or not it was copied. -/
theorem keeps_compressToJpeg {kept : List ℕ} (hkept : t.tj.Keeps kept) (frame : Frame)
    (answer : TjAnswer) : (compressToJpeg t.s_jpegCompressor frame answer t.tj).2.Keeps kept := by
  unfold compressToJpeg
  split
  · exact hkept
  · split
    · exact hkept
    · split
      · exact hkept
      · simp only
        split
        · exact hkept.acquire.free
        · exact hkept.acquire.free

/-- With a compressor, a frame that has pixels becomes what the library answers. -/
theorem fst_compressToJpeg {frame : Frame} (hsome : t.s_jpegCompressor.isSome = true)
    (hpixels : frame.pixels ≠ []) (hwidth : 0 < frame.width) (hheight : 0 < frame.height)
    (answer : TjAnswer) : (compressToJpeg t.s_jpegCompressor frame answer t.tj).1 =
      if answer.failed then [] else answer.jpegBuf.getD [] := by
  obtain ⟨h, hcompressor⟩ := Option.isSome_iff_exists.mp hsome
  have hvalid : (frame.pixels.isEmpty || decide (frame.width ≤ 0) ||
      decide (frame.height ≤ 0)) = false := by
    simp [hpixels, hwidth, hheight]
  simp only [compressToJpeg, hcompressor, Option.isNone_some, Bool.false_eq_true, if_false, hvalid]
  cases answer.jpegBuf with
  | none => simp
  | some jpegBuf =>
      simp only [Option.getD_some]
      split <;> rfl

/-- Where there is no compressor one is created, if the library succeeds. -/
theorem initializeCompressor_of_none (hnone : t.s_jpegCompressor = none) (success : Bool) :
    t.initializeCompressor success =
      if success then some { t with s_jpegCompressor := some t.tj.next, tj := t.tj.acquire }
      else none := by
  rw [initializeCompressor, hnone]
  rfl

/-- Shutting down leaves no compressor. -/
theorem shutdownCompressor_eq (t : MainThread) : ∃ tj,
    t.shutdownCompressor = { t with s_jpegCompressor := none, tj := tj } := by
  unfold shutdownCompressor
  split
  · exact ⟨_, rfl⟩
  · rename_i hnone
    exact ⟨t.tj, by rw [← hnone]⟩

/-- The compressor is destroyed on the ways out. -/
theorem Tidy.shutdown (h : Tidy t) (code : ℕ) :
    Tidy { t.shutdownCompressor with stage := .returned code } := by
  have hkept := h.kept
  unfold shutdownCompressor
  cases hcompressor : t.s_jpegCompressor with
  | none =>
      rw [hcompressor] at hkept
      refine ⟨?_, ?_⟩
      · simp only [hcompressor]
        rfl
      · simpa only [hcompressor] using hkept
  | some handle =>
      rw [hcompressor] at hkept
      exact ⟨rfl, hkept.free⟩

/-- One round of the sharing loop. -/
theorem shareFrame_eq (hwnd : Option Window) (win32 : Win32) (answer : TjAnswer)
    (hsome : t.s_jpegCompressor.isSome = true) : ∃ tj,
    (∀ kept, t.tj.Keeps kept → tj.Keeps kept) ∧
      t.shareFrame hwnd win32 answer = { t with
        tj := tj
        sent := t.sent ++ (Event.share hwnd true win32 answer).messages } := by
  unfold shareFrame
  by_cases hframe : (capturePixelsInternal win32 hwnd).pixels ≠ [] ∧
      0 < (capturePixelsInternal win32 hwnd).width ∧ 0 < (capturePixelsInternal win32 hwnd).height
  · obtain ⟨hpixels, hwidth, hheight⟩ := hframe
    rw [if_pos ⟨hpixels, hwidth, hheight⟩]
    have hjpeg := fst_compressToJpeg hsome hpixels hwidth hheight answer
    refine ⟨(compressToJpeg t.s_jpegCompressor (capturePixelsInternal win32 hwnd) answer t.tj).2,
      fun kept hkept => keeps_compressToJpeg hkept _ answer, ?_⟩
    simp only [hjpeg]
    obtain ⟨failed, jpegBuf⟩ := answer
    cases failed with
    | true => simp [Event.messages]
    | false =>
        cases jpegBuf with
        | none => simp [Event.messages]
        | some jpegBuf =>
            obtain ⟨text, hencode, rfl, -⟩ := encodeToBase64_correct jpegBuf
            by_cases hempty : jpegBuf = []
            · simp [Event.messages, hempty]
            · simp [Event.messages, hempty, hencode, hpixels, hwidth, hheight]
  · rw [if_neg hframe]
    have hnone : (Event.share hwnd true win32 answer).messages = [] := by
      obtain ⟨failed, jpegBuf⟩ := answer
      cases failed with
      | true => rfl
      | false =>
          cases jpegBuf with
          | none => rfl
          | some jpegBuf =>
              exact if_neg fun h => hframe ⟨h.1, h.2.1, h.2.2.1⟩
    exact ⟨t.tj, fun _ hkept => hkept, by rw [hnone, List.append_nil]⟩

/-- At first there is no compressor and nothing is allocated. -/
theorem tidy_start : Tidy agentMain.start := ⟨rfl, Ledger.keeps_empty⟩

/-- Every event leaves the allocations of the compressor in order. -/
theorem Tidy.step (h : Tidy t) {e : Event} (he : t.Enabled e) : Tidy (t.step e) := by
  have hcompressor := h.compressor
  have hkept := h.kept
  cases e with
  | initializeCompressor success =>
      rw [show t.stage = .starting from he] at hcompressor
      have hnone : t.s_jpegCompressor = none := Option.not_isSome_iff_eq_none.mp (by
        rw [hcompressor]
        exact Bool.false_ne_true)
      rw [hnone] at hkept
      cases success with
      | true =>
          simp only [MainThread.step, initializeCompressor_of_none hnone, if_true]
          exact ⟨rfl, hkept.acquire⟩
      | false =>
          simp only [MainThread.step, initializeCompressor_of_none hnone, Bool.false_eq_true,
            if_false]
          rw [← hnone] at hkept
          exact ⟨congrArg Option.isSome hnone, hkept⟩
  | connect throws =>
      cases throws with
      | true => exact h.shutdown 1
      | false =>
          rw [show t.stage = .connecting from he] at hcompressor
          exact ⟨hcompressor, hkept⟩
  | wait isConnected =>
      obtain ⟨elapsed_ms, hstage⟩ := he
      rw [hstage] at hcompressor
      simp only [MainThread.step, hstage]
      split
      · exact ⟨hcompressor, hkept⟩
      · exact ⟨hcompressor, hkept⟩
  | check isConnected =>
      cases isConnected with
      | true =>
          rw [show t.stage = .waited from he] at hcompressor
          exact ⟨hcompressor, hkept⟩
      | false => exact h.shutdown 1
  | select hwnd isConnected metrics dpi =>
      rw [show t.stage = .selecting from he] at hcompressor
      exact ⟨hcompressor, hkept⟩
  | share hwnd isConnected win32 answer =>
      cases isConnected with
      | true =>
          rw [show t.stage = .sharing from he] at hcompressor
          obtain ⟨tj, htj, hstep⟩ := shareFrame_eq hwnd win32 answer hcompressor
          simp only [MainThread.step, hstep]
          exact ⟨h.compressor, htj _ hkept⟩
      | false => exact h

/-- The announcement and the frames are handed over in the order of the rounds. -/
theorem Tidy.sent_step (h : Tidy t) {e : Event} (he : t.Enabled e) :
    (t.step e).sent = t.sent ++ e.messages := by
  cases e with
  | initializeCompressor success =>
      have hsent : ∀ t', t.initializeCompressor success = some t' → t'.sent = t.sent := by
        intro t' ht'
        unfold initializeCompressor at ht'
        split at ht'
        · cases ht'
          rfl
        · split at ht'
          · cases ht'
            rfl
          · cases ht'
      simp only [MainThread.step]
      split
      · rename_i t' ht'
        exact (hsent t' ht').trans (List.append_nil _).symm
      · exact (List.append_nil _).symm
  | connect throws =>
      obtain ⟨tj, htj⟩ := shutdownCompressor_eq t
      cases throws with
      | true =>
          simp only [MainThread.step, htj]
          exact (List.append_nil _).symm
      | false => exact (List.append_nil _).symm
  | wait isConnected =>
      obtain ⟨elapsed_ms, hstage⟩ := he
      simp only [MainThread.step, hstage]
      split
      · exact (List.append_nil _).symm
      · exact (List.append_nil _).symm
  | check isConnected =>
      obtain ⟨tj, htj⟩ := shutdownCompressor_eq t
      cases isConnected with
      | true => exact (List.append_nil _).symm
      | false =>
          simp only [MainThread.step, htj]
          exact (List.append_nil _).symm
  | select hwnd isConnected metrics dpi =>
      cases isConnected with
      | true => rfl
      | false => exact (List.append_nil _).symm
  | share hwnd isConnected win32 answer =>
      cases isConnected with
      | true =>
          have hcompressor := h.compressor
          rw [show t.stage = .sharing from he] at hcompressor
          obtain ⟨tj, -, hstep⟩ := shareFrame_eq hwnd win32 answer hcompressor
          simp only [MainThread.step, if_true, hstep]
      | false =>
          have hnone : (Event.share hwnd false win32 answer).messages = [] := by
            simp [Event.messages]
          rw [hnone, List.append_nil]
          rfl

/-! ## The order of the messages -/

/-- The source is announced once at most, and no frame comes before that. -/
structure Announced (t : MainThread) : Prop where
  silent : t.stage ≠ .sharing → t.sent = []
  ordered : ∃ announced frames, t.sent = announced ++ frames ∧ announced.length ≤ 1 ∧
    (∀ m ∈ announced, m.isFrame = false) ∧ ∀ m ∈ frames, m.isFrame = true

/-- What the rounds of the sharing loop send: the encoding of a compressed image, with the sizes of
the frame that was captured. -/
theorem exists_image_of_mem_messages {hwnd : Option Window} {isConnected : Bool} {win32 : Win32}
    {answer : TjAnswer} {m : AgentMessage}
    (hm : m ∈ (Event.share hwnd isConnected win32 answer).messages) :
    ∃ jpegBuf, jpegBuf ≠ [] ∧ answer = ⟨false, some jpegBuf⟩ ∧
      0 < (capturePixelsInternal win32 hwnd).width ∧
      0 < (capturePixelsInternal win32 hwnd).height ∧
      m = .frame (Base64.encode jpegBuf) (capturePixelsInternal win32 hwnd).width
        (capturePixelsInternal win32 hwnd).height := by
  obtain ⟨failed, jpegBuf⟩ := answer
  cases isConnected with
  | false => cases hm
  | true =>
      cases failed with
      | true => cases hm
      | false =>
          cases jpegBuf with
          | none => cases hm
          | some jpegBuf =>
              simp only [Event.messages] at hm
              split at hm
              · rename_i hvalid
                exact ⟨jpegBuf, hvalid.2.2.2, rfl, hvalid.2.1, hvalid.2.2.1,
                  List.mem_singleton.mp hm⟩
              · cases hm

/-- Sharing sends frames only. -/
theorem isFrame_of_mem_messages {hwnd : Option Window} {isConnected : Bool} {win32 : Win32}
    {answer : TjAnswer} {m : AgentMessage}
    (hm : m ∈ (Event.share hwnd isConnected win32 answer).messages) : m.isFrame = true := by
  obtain ⟨jpegBuf, -, -, -, -, rfl⟩ := exists_image_of_mem_messages hm
  rfl

/-- Who has sent nothing owes no announcement. -/
theorem announced_of_silent (hsilent : t.sent = []) : Announced t :=
  ⟨fun _ => hsilent, [], [], hsilent, Nat.zero_le 1, by simp, by simp⟩

/-- Every event keeps the announcement of the source before its frames. -/
theorem announced_step (htidy : Tidy t) (h : Announced t) {e : Event} (he : t.Enabled e) :
    Announced (t.step e) := by
  have hsent := htidy.sent_step he
  cases e with
  | share hwnd isConnected win32 answer =>
      obtain ⟨announced, frames, hold, hlength, hannounced, hframes⟩ := h.ordered
      have hstage : (t.step (.share hwnd isConnected win32 answer)).stage = .sharing := by
        have hcompressor := htidy.compressor
        rw [show t.stage = .sharing from he] at hcompressor
        cases isConnected with
        | true =>
            obtain ⟨tj, -, hstep⟩ := shareFrame_eq hwnd win32 answer hcompressor
            simp only [MainThread.step, if_true, hstep]
            exact he
        | false => exact he
      refine ⟨fun hnot => absurd hstage hnot, announced,
        frames ++ (Event.share hwnd isConnected win32 answer).messages, ?_, hlength, hannounced,
        ?_⟩
      · rw [hsent, hold, List.append_assoc]
      · intro m hm
        rcases List.mem_append.mp hm with hm | hm
        · exact hframes m hm
        · exact isFrame_of_mem_messages hm
  | select hwnd isConnected metrics dpi =>
      have hnil := h.silent (by rw [show t.stage = .selecting from he]; decide)
      rw [hnil, List.nil_append] at hsent
      refine ⟨fun hnot => absurd rfl hnot, _, [], hsent.trans (List.append_nil _).symm, ?_, ?_,
        by simp⟩
      · cases isConnected with
        | true => exact Nat.le_refl 1
        | false => exact Nat.zero_le 1
      · intro m hm
        cases isConnected with
        | true =>
            rw [List.mem_singleton.mp hm]
            rfl
        | false => cases hm
  | initializeCompressor _ =>
      have hnil := h.silent (by rw [show t.stage = .starting from he]; decide)
      exact announced_of_silent (by rw [hsent, hnil]; rfl)
  | connect _ =>
      have hnil := h.silent (by rw [show t.stage = .connecting from he]; decide)
      exact announced_of_silent (by rw [hsent, hnil]; rfl)
  | wait _ =>
      obtain ⟨elapsed_ms, hstage⟩ := he
      have hnil := h.silent (by rw [hstage]; exact Stage.noConfusion)
      exact announced_of_silent (by rw [hsent, hnil]; rfl)
  | check _ =>
      have hnil := h.silent (by rw [show t.stage = .waited from he]; decide)
      exact announced_of_silent (by rw [hsent, hnil]; rfl)

end MainThread

/-- **The runs of the main thread.** Between any two rounds the compressor is there from its
creation until the thread returns, and besides it everything the library has handed out has been
freed exactly once: also the buffers of images that could not be compressed, and on every way out
the compressor itself. What is sent is, round by round, what the calls in the rounds have answered:
one announcement at most, and then only frames, each the encoding of a compressed image that is not
empty, with the sizes of the captured frame. -/
theorem agentMain_runs {es : List MainThread.Event} (hrun : agentMain.IsRun es) :
    agentMain.States MainThread.Tidy agentMain.start es ∧
      (agentMain.after agentMain.start es).sent = es.flatMap MainThread.Event.messages ∧
      (agentMain.after agentMain.start es).Announced := by
  have htidy : agentMain.States MainThread.Tidy agentMain.start es :=
    agentMain.states_of_invariant MainThread.tidy_start (fun _ _ h he => h.step he) hrun
  refine ⟨htidy, ?_, ?_⟩
  · have hrecord := agentMain.record_after MainThread.sent (fun _ e => e.messages)
      (GuardedMachine.States.steps agentMain (fun _ _ h he => h.sent_step he) htidy hrun)
    rw [agentMain.labels_eq_map, List.flatten_eq_flatMap, List.flatMap_map] at hrecord
    exact hrecord
  · have hboth : agentMain.States (fun t => t.Tidy ∧ t.Announced) agentMain.start es :=
      agentMain.states_of_invariant
        ⟨MainThread.tidy_start, MainThread.announced_of_silent rfl⟩
        (fun _ _ h he => ⟨h.1.step he, MainThread.announced_step h.1 h.2 he⟩) hrun
    exact (GuardedMachine.States.last agentMain hboth).2

/-- The connection takes two rounds; then the library fails once, with a buffer to be freed, and
compresses the next frame. -/
def secondTry : List MainThread.Event :=
  [.initializeCompressor true, .connect false, .wait false, .wait false, .wait true, .check true,
    .select none true ⟨4, 2, 0, 0, 4, 2⟩ ⟨true, 96, 96, none⟩,
    .share none true (Win32.plain 4 2) ⟨true, some [0xFF]⟩,
    .share none true (Win32.plain 4 2) ⟨false, some [0xFF, 0xD8]⟩]

/-- That run sends the announcement and one frame, and ends tidy. -/
theorem agentMain_runs_secondTry : agentMain.IsRun secondTry ∧
    (agentMain.after agentMain.start secondTry).Tidy ∧
    (agentMain.after agentMain.start secondTry).sent.length = 2 := by
  have hrun : agentMain.IsRun secondTry :=
    ⟨rfl, rfl, ⟨0, rfl⟩, ⟨100, rfl⟩, ⟨200, rfl⟩, rfl, rfl, rfl, rfl, trivial⟩
  obtain ⟨htidy, hsent, -⟩ := agentMain_runs hrun
  refine ⟨hrun, GuardedMachine.States.last agentMain htidy, ?_⟩
  rw [hsent]
  decide

end BrowCast
