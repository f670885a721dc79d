import FlanTerminal.Foundation.Utf8
import FlanTerminal.Server.OutputFrames

/-!
# Input frames of the client

The terminal hands every text it receives to `sendInput`, whatever its length:
a key, an answer of the terminal, a paste.  The server refuses input above
`MAX_INPUT_BYTES` and frames above `MAX_WS_PAYLOAD_BYTES`, and closes the
connection when it refuses.  This module finds which texts pass.
-/

namespace FlanTerminal
namespace Client

open Foundation
open Shared
open Server

inductive ConnectionStatus where
  | connecting
  | connected
  | reconnecting
  | disconnected
  | error
  deriving DecidableEq, Repr

/-- `socketRef.current`, with whether its `readyState` is `OPEN`. -/
structure TerminalSocket where
  sessionId : JsString
  socket : Option Bool
  deriving DecidableEq

/-- The frame handed to the socket, if any; `send` returns whether there is
one. -/
def TerminalSocket.send (t : TerminalSocket) (message : ClientMessage) :
    Option JsString :=
  match t.socket with
  | some true => some message.frame
  | _ => none

def TerminalSocket.sendInput (t : TerminalSocket) (data : JsString) :
    Option JsString :=
  t.send (ClientMessage.input t.sessionId data)

/-- The listener of `terminal.onData`. -/
def TerminalSocket.onData (t : TerminalSocket) (status : ConnectionStatus)
    (data : JsString) : Option JsString :=
  if status = ConnectionStatus.connected then t.sendInput data else none

theorem TerminalSocket.sendInput_eq {t : TerminalSocket}
    {data frame : JsString} (h : t.sendInput data = some frame) :
    frame = (ClientMessage.input t.sessionId data).frame := by
  unfold sendInput send at h
  split at h
  · cases h
    rfl
  · cases h

/-!
## The text of an input frame
-/

def inputHead : JsString :=
  js "\x7b\"v\":1,\"type\":\"input\",\"sessionId\":\""

theorem frame_input (id data : JsString) :
    (ClientMessage.input id data).frame =
      inputHead ++ (Json.escape id ++ (TerminalBridge.frameMiddle ++
        (Json.escape data ++ [34, 125]))) := by
  have hversion : Json.stringify (Json.num (JsNumber.finite PROTOCOL_VERSION)) =
      js "1" := by
    simpa only [Json.stringify] using TerminalBridge.version_text
  simp only [ClientMessage.frame, ClientMessage.members, Json.stringify,
    Json.stringifyMembers]
  simp only [Json.stringify] at hversion
  rw [hversion]
  simp only [Json.quote, List.append_assoc, List.cons_append, List.nil_append]
  rfl

theorem frame_input_bytes {id : JsString} (hid : isSessionId id = true)
    (data : JsString) :
    utf8ByteLength (ClientMessage.input id data).frame =
      83 + Json.escapedBytes data := by
  have hhead : forall u, u ∈ inputHead -> u.toNat < 0x80 := ascii_of_all rfl
  have hmiddle : forall u, u ∈ TerminalBridge.frameMiddle ->
      u.toNat < 0x80 := ascii_of_all rfl
  have hplain : forall u, u ∈ id -> TerminalBridge.Plain u := by
    intro u hu
    exact TerminalBridge.plain_of_idUnit (isSessionId_units hid u hu)
  rw [frame_input, utf8ByteLength_ascii_append hhead,
    Json.utf8ByteLength_escape, utf8ByteLength_ascii_append hmiddle,
    Json.utf8ByteLength_escape, TerminalBridge.escapedBytes_plain hplain,
    isSessionId_length hid]
  have hheadLength : inputHead.length = 35 := by decide
  have hmiddleLength : TerminalBridge.frameMiddle.length = 10 := by decide
  have hend : utf8ByteLength [34, 125] = 2 := by decide
  rw [hheadLength, hmiddleLength, hend]
  omega

/-!
## Reading it on the server
-/

def inputMembers (id data : JsString) : List (JsString × Json) :=
  [(js "v", Json.num (JsNumber.finite 1)),
    (js "type", Json.str (js "input")), (js "sessionId", Json.str id),
    (js "data", Json.str data)]

theorem run_inputHead :
    Json.run ⟨Json.Mode.value, [], none⟩ inputHead =
      some ⟨Json.Mode.str false [],
        [Json.Open.obj [(js "v", Json.num (JsNumber.finite 1)),
          (js "type", Json.str (js "input"))] (js "sessionId")], none⟩ := by
  rw [← TerminalBridge.one_toNumber]
  rfl

theorem run_inputMiddle (id : JsString) :
    Json.run (Json.deliver (Json.str id)
        [Json.Open.obj [(js "v", Json.num (JsNumber.finite 1)),
          (js "type", Json.str (js "input"))] (js "sessionId")])
      (TerminalBridge.frameMiddle.drop 1) =
      some ⟨Json.Mode.str false [],
        [Json.Open.obj [(js "v", Json.num (JsNumber.finite 1)),
          (js "type", Json.str (js "input")),
          (js "sessionId", Json.str id)] (js "data")], none⟩ := by
  rfl

theorem parse_frame_input (id data : JsString) :
    Json.parse (ClientMessage.input id data).frame =
      some (Json.obj (inputMembers id data)) := by
  have htext : (ClientMessage.input id data).frame =
      inputHead ++ ((Json.escape id ++ [34]) ++
        (TerminalBridge.frameMiddle.drop 1 ++
          ((Json.escape data ++ [34]) ++ [125]))) := by
    rw [frame_input]
    simp only [List.append_assoc]
    rfl
  unfold Json.parse
  rw [htext, Json.run_append, run_inputHead, Option.bind_some,
    Json.run_append, Json.run_quote]
  simp only [Json.endString, Option.bind_some]
  rw [Json.run_append, run_inputMiddle, Option.bind_some, Json.run_append,
    Json.run_quote]
  rfl

theorem schema_inputMembers {id : JsString} (hid : isSessionId id = true)
    (data : JsString) :
    clientMessageSchema (Json.obj (inputMembers id data)) =
      if utf8ByteLength data ≤ MAX_INPUT_BYTES then
        some (ClientMessage.input id data)
      else none := by
  have hversion : versionOk (inputMembers id data) = true := by
    show decide ((1 : ℚ) = PROTOCOL_VERSION) = true
    exact decide_eq_true rfl
  have hsession : sessionIdMember (inputMembers id data) = some id := by
    show (if isSessionId id then some id else none) = some id
    rw [if_pos hid]
  have hdata : stringMember (inputMembers id data) (js "data") =
      some data := rfl
  have htype : stringMember (inputMembers id data) (js "type") =
      some (js "input") := rfl
  have hstrict : strict [js "v", js "type", js "sessionId", js "data"]
      (inputMembers id data) = true := rfl
  unfold clientMessageSchema
  simp only [htype, hstrict, hversion, hsession, hdata, if_true,
    Bool.and_self]

theorem parseClientMessage_frame {id : JsString}
    (hid : isSessionId id = true) (data : JsString) :
    parseClientMessage
        (RawData.text (ClientMessage.input id data).frame) false =
      if 65453 < Json.escapedBytes data then
        Except.error ProtocolParseErrorCode.payload_too_large
      else if MAX_INPUT_BYTES < utf8ByteLength data then
        Except.error ProtocolParseErrorCode.invalid_message
      else Except.ok (ClientMessage.input id data) := by
  have hbytes := frame_input_bytes hid data
  have hlarge : MAX_WS_PAYLOAD_BYTES < 83 + Json.escapedBytes data <->
      65453 < Json.escapedBytes data := by
    simp only [MAX_WS_PAYLOAD_BYTES]
    omega
  simp only [parseClientMessage, decodeTextFrame, parseMessage,
    Bool.false_eq_true, if_false, hbytes, hlarge, parse_frame_input,
    schema_inputMembers hid]
  by_cases hframe : 65453 < Json.escapedBytes data
  · simp only [hframe, if_true]
  · by_cases hinput : MAX_INPUT_BYTES < utf8ByteLength data
    · simp only [hframe, hinput, not_le.mpr hinput, if_true, if_false]
    · simp only [hframe, hinput, not_lt.mp hinput, if_true, if_false]

/-!
## The frames a client sends
-/

def accepted (data : JsString) : TerminalBridge.Code Unit := do
  let s ← Prog.read
  if s.closed then pure ()
  else do
    let authenticated ← TerminalBridge.authenticateInput
    if authenticated then do
      TerminalBridge.markActivity
      TerminalBridge.write data
    else pure ()

/-- What a bridge does with a frame it refuses: it closes with 1008. -/
def refused (code : ProtocolParseErrorCode) : TerminalBridge.Code Unit := do
  let s ← Prog.read
  if s.closed then pure ()
  else do
    TerminalBridge.logger (TerminalBridge.LogEvent.protocol_message_rejected
      (TerminalBridge.RejectCategory.protocol code))
    TerminalBridge.shutdown 1008 TerminalBridge.Reason.invalid_message true

theorem handleMessage_accepted {o : TerminalBridge.Options}
    {raw : RawData} {data : JsString}
    (h : parseClientMessage raw false =
      Except.ok (ClientMessage.input o.sessionId data)) :
    TerminalBridge.handleMessage o raw false = accepted data := by
  unfold TerminalBridge.handleMessage accepted
  simp only [h, ClientMessage.sessionId, ne_eq, not_true_eq_false, if_false]

theorem handleMessage_refused {o : TerminalBridge.Options}
    {raw : RawData} {code : ProtocolParseErrorCode}
    (h : parseClientMessage raw false = Except.error code) :
    TerminalBridge.handleMessage o raw false = refused code := by
  unfold TerminalBridge.handleMessage refused
  simp only [h]

/-- A frame that the client sends for a text is accepted, as input of this
text, exactly when the text has at most 16384 bytes and its escaped form at
most 65453.  A bridge then forwards it, and otherwise closes with 1008. -/
theorem sent_input_accepted_iff {t : TerminalSocket}
    (hid : isSessionId t.sessionId = true) {status : ConnectionStatus}
    {data frame : JsString}
    (hsent : t.onData status data = some frame) :
    (parseClientMessage (RawData.text frame) false =
        Except.ok (ClientMessage.input t.sessionId data) <->
      utf8ByteLength data ≤ MAX_INPUT_BYTES ∧
        Json.escapedBytes data ≤ 65453) ∧
      forall limit : ℚ,
        (utf8ByteLength data ≤ MAX_INPUT_BYTES ∧
            Json.escapedBytes data ≤ 65453 ->
          TerminalBridge.handleMessage ⟨t.sessionId, limit⟩
            (RawData.text frame) false = accepted data) ∧
        (¬ (utf8ByteLength data ≤ MAX_INPUT_BYTES ∧
            Json.escapedBytes data ≤ 65453) ->
          exists code, TerminalBridge.handleMessage ⟨t.sessionId, limit⟩
            (RawData.text frame) false = refused code) := by
  have hframe : frame = (ClientMessage.input t.sessionId data).frame := by
    unfold TerminalSocket.onData at hsent
    split at hsent
    · exact TerminalSocket.sendInput_eq hsent
    · cases hsent
  have hparse := parseClientMessage_frame hid data
  rw [← hframe] at hparse
  by_cases hlarge : 65453 < Json.escapedBytes data
  · rw [if_pos hlarge] at hparse
    have hnot : ¬ (utf8ByteLength data ≤ MAX_INPUT_BYTES ∧
        Json.escapedBytes data ≤ 65453) := fun h => absurd hlarge (not_lt.mpr h.2)
    simp only [hparse, hnot, reduceCtorEq, true_and, false_implies,
      not_false_eq_true, true_implies]
    intro limit
    exact ⟨_, handleMessage_refused hparse⟩
  · rw [if_neg hlarge] at hparse
    by_cases hinput : MAX_INPUT_BYTES < utf8ByteLength data
    · rw [if_pos hinput] at hparse
      have hnot : ¬ (utf8ByteLength data ≤ MAX_INPUT_BYTES ∧
          Json.escapedBytes data ≤ 65453) :=
        fun h => absurd hinput (not_lt.mpr h.1)
      simp only [hparse, hnot, reduceCtorEq, true_and, false_implies,
        not_false_eq_true, true_implies]
      intro limit
      exact ⟨_, handleMessage_refused hparse⟩
    · rw [if_neg hinput] at hparse
      have hfits : utf8ByteLength data ≤ MAX_INPUT_BYTES ∧
          Json.escapedBytes data ≤ 65453 :=
        ⟨not_lt.mp hinput, not_lt.mp hlarge⟩
      simp only [hparse, hfits, and_self, true_and, true_implies,
        not_true_eq_false, false_implies, and_true]
      intro limit
      exact handleMessage_accepted hparse

def sampleSocket : TerminalSocket :=
  ⟨TerminalBridge.sampleSession, some true⟩

theorem utf8ByteLength_replicate (n : Nat) :
    utf8ByteLength (List.replicate n 97) = n := by
  have hascii : forall u, u ∈ List.replicate n (97 : UInt16) ->
      u.toNat < 0x80 := by
    intro u hu
    rw [(List.mem_replicate.mp hu).2]
    decide
  have hbytes := utf8ByteLength_ascii_append hascii []
  simpa [utf8ByteLength] using hbytes

theorem isWellFormed_replicate (n : Nat) :
    isWellFormed (List.replicate n 97) = true := by
  induction n with
  | zero => rfl
  | succ n ih =>
      cases n with
      | zero => rfl
      | succ n =>
          have hstep : isWellFormed (97 :: 97 :: List.replicate n 97) =
              isWellFormed (97 :: List.replicate n 97) := rfl
          rw [List.replicate_succ, List.replicate_succ, hstep]
          exact ih

theorem sent_input_accepted_iff_largest :
    exists frame, sampleSocket.onData ConnectionStatus.connected
        (List.replicate 16384 97) = some frame ∧
      parseClientMessage (RawData.text frame) false =
        Except.ok (ClientMessage.input TerminalBridge.sampleSession
          (List.replicate 16384 97)) := by
  have hbytes := utf8ByteLength_replicate 16384
  have hescaped := TerminalBridge.escapedBytes_replicate 16384
  generalize List.replicate 16384 (97 : UInt16) = data at hbytes hescaped
  refine ⟨_, rfl, ?_⟩
  have hsample := sent_input_accepted_iff (t := sampleSocket)
    TerminalBridge.sampleSession_valid
    (rfl : sampleSocket.onData ConnectionStatus.connected data = some _)
  apply hsample.1.mpr
  constructor
  · simp only [hbytes, MAX_INPUT_BYTES]
    omega
  · omega

/-- One letter more: a paste the client sends and the server refuses. -/
theorem sent_input_refused :
    isSessionId sampleSocket.sessionId = true ∧
      isWellFormed (List.replicate 16385 97) = true ∧
      exists frame, sampleSocket.onData ConnectionStatus.connected
          (List.replicate 16385 97) = some frame ∧
        parseClientMessage (RawData.text frame) false =
          Except.error ProtocolParseErrorCode.invalid_message ∧
        TerminalBridge.handleMessage TerminalBridge.sampleOptions
            (RawData.text frame) false =
          refused ProtocolParseErrorCode.invalid_message := by
  have hbytes := utf8ByteLength_replicate 16385
  have hescaped := TerminalBridge.escapedBytes_replicate 16385
  have hformed := isWellFormed_replicate 16385
  generalize List.replicate 16385 (97 : UInt16) = data at hbytes hescaped hformed
  have hparse := parseClientMessage_frame TerminalBridge.sampleSession_valid data
  rw [if_neg (by omega), if_pos (by simp only [hbytes, MAX_INPUT_BYTES]; omega)]
    at hparse
  exact ⟨TerminalBridge.sampleSession_valid, hformed, _, rfl, hparse,
    handleMessage_refused hparse⟩

end Client
end FlanTerminal
