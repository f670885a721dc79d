import FlanTerminal.Foundation.Schema
import FlanTerminal.Shared.Tabs

/-!
# The terminal protocol

Messages between browser and server, and the parsers both sides share.  Each
parser checks the size of the frame, reads it as JSON and then matches one of
the strict object schemas; the discriminator is the member `type`.
-/

namespace FlanTerminal
namespace Shared

open Foundation

def PROTOCOL_VERSION : ℚ := 1
def MAX_WS_PAYLOAD_BYTES : Nat := 65536
def MAX_INPUT_BYTES : Nat := 16384
def MIN_COLS : Nat := 2
def MAX_COLS : Nat := 500
def MIN_ROWS : Nat := 2
def MAX_ROWS : Nat := 200

inductive ClientMessage where
  | input (sessionId data : JsString)
  | resize (sessionId : JsString) (cols rows : Nat)
  deriving DecidableEq

def ClientMessage.sessionId : ClientMessage -> JsString
  | input id _ => id
  | resize id _ _ => id

inductive ServerMessage where
  | ready (sessionId : JsString)
  | output (sessionId data : JsString)
  | error (sessionId code : JsString)
  deriving DecidableEq

inductive ProtocolParseErrorCode where
  | binary_payload
  | payload_too_large
  | invalid_json
  | invalid_message
  deriving DecidableEq, Repr

/-- The data of a frame: a string, one buffer or view, or an array whose
entries are views or something else. -/
inductive RawData where
  | text (s : JsString)
  | bytes (b : List UInt8)
  | views (vs : List (Option (List UInt8)))
  | other
  deriving DecidableEq

/-!
## Schemas

A strict schema lists the members an object must have; an object with any
other member but `__proto__` is rejected.
-/

def member (ms : List (JsString × Json)) (k : JsString) : Option Json :=
  (ms.find? fun m => m.1 = k).map Prod.snd

def strict (keys : List JsString) (ms : List (JsString × Json)) : Bool :=
  ms.all fun m => Schema.listed keys m.1

def versionOk (ms : List (JsString × Json)) : Bool :=
  match member ms (js "v") with
  | some (Json.num (JsNumber.finite q)) => q = PROTOCOL_VERSION
  | _ => false

def stringMember (ms : List (JsString × Json)) (k : JsString) :
    Option JsString :=
  match member ms k with
  | some (Json.str s) => some s
  | _ => none

def sessionIdMember (ms : List (JsString × Json)) : Option JsString :=
  match stringMember ms (js "sessionId") with
  | some id => if isSessionId id then some id else none
  | none => none

/-- `z.number().int().min(low).max(high)`. -/
def integerMember (ms : List (JsString × Json)) (k : JsString)
    (low high : Nat) : Option Nat :=
  match member ms k with
  | some (Json.num (JsNumber.finite q)) =>
      if q.den = 1 ∧ (low : Int) ≤ q.num ∧ q.num ≤ high then some q.num.toNat
      else none
  | _ => none

def clientMessageSchema (v : Json) : Option ClientMessage :=
  match v with
  | Json.obj ms =>
      match stringMember ms (js "type") with
      | some t =>
          if t = js "input" then
            if strict [js "v", js "type", js "sessionId", js "data"] ms &&
                versionOk ms then
              match sessionIdMember ms, stringMember ms (js "data") with
              | some id, some data =>
                  if utf8ByteLength data ≤ MAX_INPUT_BYTES then
                    some (ClientMessage.input id data)
                  else none
              | _, _ => none
            else none
          else if t = js "resize" then
            if strict [js "v", js "type", js "sessionId", js "cols",
                js "rows"] ms && versionOk ms then
              match sessionIdMember ms,
                  integerMember ms (js "cols") MIN_COLS MAX_COLS,
                  integerMember ms (js "rows") MIN_ROWS MAX_ROWS with
              | some id, some cols, some rows =>
                  some (ClientMessage.resize id cols rows)
              | _, _, _ => none
            else none
          else none
      | none => none
  | _ => none

def serverMessageSchema (v : Json) : Option ServerMessage :=
  match v with
  | Json.obj ms =>
      match stringMember ms (js "type") with
      | some t =>
          if t = js "ready" then
            if strict [js "v", js "type", js "sessionId"] ms &&
                versionOk ms then
              (sessionIdMember ms).map ServerMessage.ready
            else none
          else if t = js "output" then
            if strict [js "v", js "type", js "sessionId", js "data"] ms &&
                versionOk ms then
              match sessionIdMember ms, stringMember ms (js "data") with
              | some id, some data => some (ServerMessage.output id data)
              | _, _ => none
            else none
          else if t = js "error" then
            if strict [js "v", js "type", js "sessionId", js "code"] ms &&
                versionOk ms then
              match sessionIdMember ms, stringMember ms (js "code") with
              | some id, some code =>
                  if 1 ≤ code.length ∧ code.length ≤ 100 then
                    some (ServerMessage.error id code)
                  else none
              | _, _ => none
            else none
          else none
      | none => none
  | _ => none

/-!
## Decoding

`TextDecoder('utf-8', { fatal: true })`: malformed bytes are an error and a
leading byte order mark is dropped.
-/

def isContinuation (b : UInt8) : Bool :=
  0x80 ≤ b.toNat && b.toNat ≤ 0xBF

def codePointUnits (c : Nat) : JsString :=
  if c < 0x10000 then [UInt16.ofNat c]
  else [UInt16.ofNat (0xD800 + (c - 0x10000) / 0x400),
    UInt16.ofNat (0xDC00 + (c - 0x10000) % 0x400)]

def decodeUtf8 : List UInt8 -> Option JsString
  | [] => some []
  | b0 :: rest0 =>
      if b0.toNat < 0x80 then
        (decodeUtf8 rest0).map (UInt16.ofNat b0.toNat :: ·)
      else
        match rest0 with
        | [] => none
        | b1 :: rest1 =>
            if !isContinuation b1 then none
            else if 0xC2 ≤ b0.toNat ∧ b0.toNat ≤ 0xDF then
              (decodeUtf8 rest1).map
                (UInt16.ofNat ((b0.toNat - 0xC0) * 64 + (b1.toNat - 0x80)) :: ·)
            else
              match rest1 with
              | [] => none
              | b2 :: rest2 =>
                  if !isContinuation b2 then none
                  else if 0xE0 ≤ b0.toNat ∧ b0.toNat ≤ 0xEF then
                    let c := (b0.toNat - 0xE0) * 4096 +
                      (b1.toNat - 0x80) * 64 + (b2.toNat - 0x80)
                    if c < 0x800 ∨ (0xD800 ≤ c ∧ c ≤ 0xDFFF) then none
                    else (decodeUtf8 rest2).map (UInt16.ofNat c :: ·)
                  else
                    match rest2 with
                    | [] => none
                    | b3 :: rest3 =>
                        let c := (b0.toNat - 0xF0) * 262144 +
                          (b1.toNat - 0x80) * 4096 + (b2.toNat - 0x80) * 64 +
                          (b3.toNat - 0x80)
                        if isContinuation b3 ∧ 0xF0 ≤ b0.toNat ∧
                            0x10000 ≤ c ∧ c ≤ 0x10FFFF then
                          (decodeUtf8 rest3).map (codePointUnits c ++ ·)
                        else none

def dropByteOrderMark : JsString -> JsString
  | 0xFEFF :: rest => rest
  | s => s

inductive DecodedFrame where
  | ok (text : JsString) (byteLength : Nat)
  | tooLarge
  | failed
  deriving DecidableEq

def decodeTextFrame (raw : RawData) : DecodedFrame :=
  match raw with
  | RawData.text s => DecodedFrame.ok s (utf8ByteLength s)
  | RawData.bytes b => decodeViews [some b]
  | RawData.views vs => decodeViews vs
  | RawData.other => decodeViews [none]
where
  decodeViews (vs : List (Option (List UInt8))) : DecodedFrame :=
    match vs.mapM id with
    | none => DecodedFrame.failed
    | some bs =>
        let byteLength := (bs.map List.length).sum
        if MAX_WS_PAYLOAD_BYTES < byteLength then DecodedFrame.tooLarge
        else
          match decodeUtf8 bs.flatten with
          | some s => DecodedFrame.ok (dropByteOrderMark s) byteLength
          | none => DecodedFrame.failed

/-!
## Parsers
-/

def parseMessage {message : Type} (input : RawData)
    (schema : Json -> Option message) :
    Except ProtocolParseErrorCode message :=
  match input with
  | RawData.text s =>
      if MAX_WS_PAYLOAD_BYTES < utf8ByteLength s then
        Except.error ProtocolParseErrorCode.payload_too_large
      else
        match Json.parse s with
        | none => Except.error ProtocolParseErrorCode.invalid_json
        | some parsed =>
            match schema parsed with
            | some data => Except.ok data
            | none => Except.error ProtocolParseErrorCode.invalid_message
  | _ => Except.error ProtocolParseErrorCode.binary_payload

def parseClientMessage (raw : RawData) (isBinary : Bool) :
    Except ProtocolParseErrorCode ClientMessage :=
  if isBinary then Except.error ProtocolParseErrorCode.binary_payload
  else
    match decodeTextFrame raw with
    | DecodedFrame.tooLarge =>
        Except.error ProtocolParseErrorCode.payload_too_large
    | DecodedFrame.failed => Except.error ProtocolParseErrorCode.invalid_message
    | DecodedFrame.ok text byteLength =>
        if MAX_WS_PAYLOAD_BYTES < byteLength then
          Except.error ProtocolParseErrorCode.payload_too_large
        else parseMessage (RawData.text text) clientMessageSchema

def parseServerMessage (input : RawData) :
    Except ProtocolParseErrorCode ServerMessage :=
  parseMessage input serverMessageSchema

/-!
## Writing server messages

The server builds each message as an object literal; its members are written
in the order they stand there.
-/

def ServerMessage.members : ServerMessage -> List (JsString × Json)
  | ready id =>
      [(js "v", Json.num (JsNumber.finite PROTOCOL_VERSION)),
        (js "type", Json.str (js "ready")), (js "sessionId", Json.str id)]
  | output id data =>
      [(js "v", Json.num (JsNumber.finite PROTOCOL_VERSION)),
        (js "type", Json.str (js "output")), (js "sessionId", Json.str id),
        (js "data", Json.str data)]
  | error id code =>
      [(js "v", Json.num (JsNumber.finite PROTOCOL_VERSION)),
        (js "type", Json.str (js "error")), (js "sessionId", Json.str id),
        (js "code", Json.str code)]

def ServerMessage.frame (m : ServerMessage) : JsString :=
  Json.stringify (Json.obj m.members)

/-!
## Writing client messages
-/

def ClientMessage.members : ClientMessage -> List (JsString × Json)
  | input id data =>
      [(js "v", Json.num (JsNumber.finite PROTOCOL_VERSION)),
        (js "type", Json.str (js "input")), (js "sessionId", Json.str id),
        (js "data", Json.str data)]
  | resize id cols rows =>
      [(js "v", Json.num (JsNumber.finite PROTOCOL_VERSION)),
        (js "type", Json.str (js "resize")), (js "sessionId", Json.str id),
        (js "cols", Json.num (JsNumber.finite cols)),
        (js "rows", Json.num (JsNumber.finite rows))]

def ClientMessage.frame (m : ClientMessage) : JsString :=
  Json.stringify (Json.obj m.members)

end Shared
end FlanTerminal
