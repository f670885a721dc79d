import FlanTerminal.Foundation.EventLoop
import FlanTerminal.Shared.Protocol

/-!
# The terminal bridge

A terminal bridge joins one websocket and one pseudo terminal.  It listens to
both, checks the frames of the client, forwards input and output, and shuts
down once, for one of many reasons.

Every port of the bridge can throw.  The ports that do something (writing,
sending, closing, killing, subscribing, authenticating) may also call back into
the bridge before they return; reading a property of the socket, the activity
hook and the logger do not, and the logger does not throw.
-/

namespace FlanTerminal
namespace Server
namespace TerminalBridge

open Foundation
open Shared

def MAX_BUFFER_BYTES : ℚ := 1048576

structure Options where
  sessionId : JsString
  maxBufferedBytes : ℚ

/-- `this.maxBufferedBytes`. -/
def Options.limit (o : Options) : ℚ :=
  min o.maxBufferedBytes MAX_BUFFER_BYTES

/-- The five subscriptions of the constructor, in their order. -/
inductive Source where
  | message
  | data
  | exit
  | close
  | error
  deriving DecidableEq, Repr

inductive RejectCategory where
  | protocol (code : ProtocolParseErrorCode)
  | session_mismatch
  deriving DecidableEq, Repr

inductive LogEvent where
  | terminal_exited (exitCode : Int) (signal : Option Int)
  | socket_error
  | terminal_setup_failed
  | terminal_opened
  | terminal_write_failed
  | terminal_resize_failed
  | protocol_message_rejected (category : RejectCategory)
  | terminal_backpressure (bufferedAmount : Nat)
  | terminal_send_failed
  | terminal_activity_failed
  | subscription_dispose_failed
  | terminal_kill_failed
  | socket_close_failed
  | socket_terminate_failed
  | terminal_closed (code : Nat)
  deriving DecidableEq, Repr

inductive Reason where
  | terminal_exited
  | socket_closed
  | socket_error
  | terminal_setup_failed
  | terminal_write_failed
  | terminal_resize_failed
  | invalid_message
  | authentication_required
  | terminal_backpressure
  | terminal_send_failed
  | terminal_closed
  | terminal_unavailable
  | session_replaced
  | bridge_restart
  | session_stopped
  | session_restarting
  | registration_failed
  | server_shutdown
  deriving DecidableEq, Repr

/-- The port calls that return nothing. -/
inductive Effect where
  | subscribe (src : Source)
  | dispose (i : Nat)
  | send (frame : JsString)
  | closeSocket (code : Nat) (reason : Reason)
  | terminate
  | write (data : JsString)
  | resize (cols rows : Nat)
  | kill
  | onActivity
  deriving DecidableEq

inductive PortCall where
  | effect (e : Effect)
  | readyState
  | bufferedAmount
  | authenticate
  | log (event : LogEvent)
  deriving DecidableEq

/-- What a port answers; an error is an exception.  The reply to `readyState`
is whether it equals `OPEN`, the reply to `authenticate` whether it returned
exactly `true`. -/
abbrev PortReply : PortCall -> Type
  | PortCall.effect _ => Except Unit Unit
  | PortCall.readyState => Except Unit Bool
  | PortCall.bufferedAmount => Except Unit Nat
  | PortCall.authenticate => Except Unit Bool
  | PortCall.log _ => Unit

def ports : Interface := ⟨PortCall, PortReply⟩

inductive Event where
  | construct
  | message (data : RawData) (isBinary : Bool)
  | data (data : JsString)
  | exit (exitCode : Int) (signal : Option Int)
  | socketClosed
  | socketError
  | close (code : Nat) (reason : Reason)
  deriving DecidableEq

/-- What happens at the ports of one bridge, with the number of the event that
is being handled. -/
inductive Entry where
  | received (n : Nat) (ev : Event)
  | called (n : Nat) (c : PortCall)
  | returned (n : Nat) (c : PortCall) (r : PortReply c)
  | closed
  | ended (n : Nat)

structure State where
  constructed : Bool
  closed : Bool
  disposables : Nat
  log : List Entry

def State.initial : State :=
  ⟨false, false, 0, []⟩

def State.record (s : State) (e : Entry) : State :=
  { s with log := s.log ++ [e] }

/-- `this.closed = true`. -/
def State.markClosed (s : State) : State :=
  { s with closed := true, log := s.log ++ [Entry.closed] }

def State.pushDisposable (s : State) : State :=
  { s with disposables := s.disposables + 1 }

inductive Thrown where
  | port
  | invalidSession
  | invalidBufferLimit
  | setupFailed
  deriving DecidableEq, Repr

abbrev Code := Prog State ports Thrown

def logger (event : LogEvent) : Code Unit := do
  let _ ← Prog.ask (I := ports) (PortCall.log event)
  pure ()

/-- A port call whose exception is caught and logged. -/
def guarded (e : Effect) (failure : Code Unit) : Code Unit := do
  match ← Prog.ask (I := ports) (PortCall.effect e) with
  | Except.ok _ => pure ()
  | Except.error _ => failure

def socketIsOpen : Code Bool := do
  match ← Prog.ask (I := ports) PortCall.readyState with
  | Except.ok isOpen => pure isOpen
  | Except.error _ => throw Thrown.port

def bufferedAmount : Code Nat := do
  match ← Prog.ask (I := ports) PortCall.bufferedAmount with
  | Except.ok amount => pure amount
  | Except.error _ => throw Thrown.port

def disposeEach : List Nat -> Code Unit
  | [] => pure ()
  | i :: rest => do
      guarded (Effect.dispose i) (logger LogEvent.subscription_dispose_failed)
      disposeEach rest

def shutdown (code : Nat) (reason : Reason) (closeSocket : Bool) :
    Code Unit := do
  let s ← Prog.read
  if s.closed then pure ()
  else do
    Prog.modify State.markClosed
    disposeEach (List.range s.disposables)
    guarded Effect.kill (logger LogEvent.terminal_kill_failed)
    let isOpen ← if closeSocket then socketIsOpen else pure false
    if isOpen then do
      guarded (Effect.closeSocket code reason)
        (logger LogEvent.socket_close_failed)
      let stillOpen ← socketIsOpen
      if stillOpen then
        guarded Effect.terminate
          (logger LogEvent.socket_terminate_failed)
      else pure ()
    else pure ()
    logger (LogEvent.terminal_closed code)

def write (data : JsString) : Code Unit := do
  let s ← Prog.read
  if s.closed then pure ()
  else
    guarded (Effect.write data) do
      logger LogEvent.terminal_write_failed
      shutdown 1011 Reason.terminal_write_failed true

def resize (cols rows : Nat) : Code Unit := do
  let s ← Prog.read
  if s.closed then pure ()
  else
    guarded (Effect.resize cols rows) do
      logger LogEvent.terminal_resize_failed
      shutdown 1011 Reason.terminal_resize_failed true

def markActivity : Code Unit :=
  guarded Effect.onActivity (logger LogEvent.terminal_activity_failed)

def authenticateInput : Code Bool := do
  match ← Prog.ask (I := ports) PortCall.authenticate with
  | Except.ok true => pure true
  | _ => do
      shutdown AUTHENTICATION_REQUIRED Reason.authentication_required true
      pure false

def handleMessage (o : Options) (data : RawData) (isBinary : Bool) :
    Code Unit := do
  let s ← Prog.read
  if s.closed then pure ()
  else
    match parseClientMessage data isBinary with
    | Except.error code => do
        logger (LogEvent.protocol_message_rejected
          (RejectCategory.protocol code))
        shutdown 1008 Reason.invalid_message true
    | Except.ok parsed =>
        if parsed.sessionId ≠ o.sessionId then do
          logger (LogEvent.protocol_message_rejected
            RejectCategory.session_mismatch)
          shutdown 1008 Reason.invalid_message true
        else
          match parsed with
          | ClientMessage.input _ d => do
              let authenticated ← authenticateInput
              if authenticated then do
                markActivity
                write d
              else pure ()
          | ClientMessage.resize _ cols rows => do
              markActivity
              resize cols rows

def handleOutput (o : Options) (data : JsString) : Code Unit := do
  let s ← Prog.read
  if s.closed then pure ()
  else do
    markActivity
    let isOpen ← socketIsOpen
    if isOpen then do
      let serialized := (ServerMessage.output o.sessionId data).frame
      let buffered ← bufferedAmount
      let pendingBytes := buffered + utf8ByteLength serialized
      if o.limit ≤ (pendingBytes : ℚ) then do
        let reported ← bufferedAmount
        logger (LogEvent.terminal_backpressure reported)
        shutdown 4002 Reason.terminal_backpressure true
      else
        guarded (Effect.send serialized) do
          logger LogEvent.terminal_send_failed
          shutdown 1011 Reason.terminal_send_failed true
    else pure ()

def lifecycleErrorFrame (o : Options) : JsString :=
  (ServerMessage.error o.sessionId (js "terminal_unavailable")).frame

def sendLifecycleError (o : Options) : Code Unit := do
  let s ← Prog.read
  let isOpen ← if s.closed then pure false else socketIsOpen
  if isOpen then do
    let serialized := lifecycleErrorFrame o
    let buffered ← bufferedAmount
    let pendingBytes := buffered + utf8ByteLength serialized
    if o.limit ≤ (pendingBytes : ℚ) then pure ()
    else
      guarded (Effect.send serialized)
        (logger LogEvent.terminal_send_failed)
  else pure ()

def subscribeAll : List Source -> Code Unit
  | [] => pure ()
  | src :: rest => do
      match ← Prog.ask (I := ports)
          (PortCall.effect (Effect.subscribe src)) with
      | Except.ok _ => do
          Prog.modify State.pushDisposable
          subscribeAll rest
      | Except.error _ => throw Thrown.port

def construct (o : Options) : Code Unit := do
  if !isSessionId o.sessionId then throw Thrown.invalidSession
  else if o.maxBufferedBytes.den ≠ 1 ∨ o.maxBufferedBytes ≤ 0 then
    throw Thrown.invalidBufferLimit
  else do
    tryCatch
      (subscribeAll [Source.message, Source.data, Source.exit, Source.close,
        Source.error])
      fun _ => do
        logger LogEvent.terminal_setup_failed
        shutdown 1011 Reason.terminal_setup_failed true
        throw Thrown.setupFailed
    logger LogEvent.terminal_opened

def handle (o : Options) : Event -> Code Unit
  | Event.construct => construct o
  | Event.message data isBinary => handleMessage o data isBinary
  | Event.data data => handleOutput o data
  | Event.exit exitCode signal => do
      let s ← Prog.read
      if s.closed then pure ()
      else do
        logger (LogEvent.terminal_exited exitCode signal)
        sendLifecycleError o
        shutdown 1011 Reason.terminal_exited true
  | Event.socketClosed => shutdown 1000 Reason.socket_closed false
  | Event.socketError => do
      let s ← Prog.read
      if s.closed then pure ()
      else do
        logger LogEvent.socket_error
        shutdown 1011 Reason.socket_error false
  | Event.close code reason => shutdown code reason true

/-!
## The bridge and its ports

The bridge is constructed once; then events come in any order, also from inside
a port call.  Nothing is promised about the replies.
-/

def boundary : PortCall -> Boundary
  | PortCall.effect Effect.onActivity => Boundary.sync
  | PortCall.effect _ => Boundary.callback
  | PortCall.readyState => Boundary.sync
  | PortCall.bufferedAmount => Boundary.sync
  | PortCall.authenticate => Boundary.callback
  | PortCall.log _ => Boundary.sync

def bridge (o : Options) : Machine State ports Thrown Unit Event where
  body _ ev := handle o ev
  boundary := boundary
  admits s ev := ev = Event.construct <-> s.constructed = false
  enter n ev s := { s with constructed := true }.record (Entry.received n ev)
  issue n c s := s.record (Entry.called n c)
  allowed _ _ _ _ := True
  reply n c r s := s.record (Entry.returned n c r)
  leave n _ _ s := s.record (Entry.ended n)
  env _ _ := False

def Run (o : Options) (cfg : Config State ports Thrown Unit Event) : Prop :=
  Reachable (bridge o) State.initial cfg

end TerminalBridge
end Server
end FlanTerminal
