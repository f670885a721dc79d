import Mathlib.Logic.Function.Basic
import Mathlib.Logic.Relation
import FlanTerminal.Client.TerminalInput

/-!
# The terminal socket of the client

`useTerminalSocket` keeps a socket to the terminal of one tab.  Its refs are
changed by the events of its sockets, by the retry timer, by a microtask, by
two commands, and by the effects of a render.

A socket and a timer go by their number.  What the browser holds, the sockets,
the pending timers and the microtasks, is part of the state.
-/

namespace FlanTerminal
namespace Client
namespace UseTerminalSocket

open Foundation
open Shared

def INITIAL_RETRY_DELAY_MS : Nat := 500
def INITIAL_RETRY_STEPS : Nat := 5

def PROTOCOL_ERROR : JsString := js "Terminal connection protocol error."

def SERVER_ERROR : JsString := js "Terminal server reported an error."

def SESSION_REPLACED_ERROR : JsString :=
  js "Terminal opened in another browser. Reconnect to take control."

def UNABLE_TO_OPEN : JsString := js "Unable to open terminal connection."

def INTERRUPTED : JsString := js "Terminal connection interrupted."

inductive ReconnectBehavior where
  | automatic
  | manual
  deriving DecidableEq, Repr

/-- What `connect` closes over.  The factory, the location and the callbacks
count by their identity. -/
structure Dependencies where
  basePath : JsString
  sessionId : JsString
  reconnectMaxSeconds : Nat
  callbacks : Nat
  deriving DecidableEq

structure Socket where
  generation : Nat
  /-- The dependencies of the `connect` that made it. -/
  deps : Dependencies
  listening : Bool
  closeCalled : Bool
  closeDelivered : Bool
  deriving DecidableEq

/-- What the hook tells others, and what is counted of it. -/
inductive Entry where
  | created (socket : Nat)
  | scheduled (delay : Nat)
  /-- An event after which retries count from the first. -/
  | restarted
  | output (data : JsString)
  | suspendTerminalAuthLifecycle (sessionId : JsString)
  | clearTerminalAuthSuspension (sessionId : JsString)
  | onAuthenticationRequired
  | onSessionStopped
  | onSessionRestarting
  deriving DecidableEq

structure State where
  status : ConnectionStatus
  error : Option JsString
  restoredManualSuspension : Bool
  /-- The dependencies of the last commit. -/
  deps : Dependencies
  mounted : Bool
  socketRef : Option Nat
  retryTimerRef : Option Nat
  retryAttemptRef : Nat
  generationRef : Nat
  stoppedRef : Bool
  authenticationSuspendedRef : Bool
  manualSuspendedRef : Bool
  reconnectBehaviorRef : ReconnectBehavior
  /-- The socket whose listeners are removed. -/
  removeSocketListenersRef : Option Nat
  connectRef : Option Dependencies
  sockets : Nat -> Socket
  nextSocket : Nat
  /-- The timers that are pending, with their delays. -/
  timers : List (Nat × Nat)
  nextTimer : Nat
  /-- The generations that the queued microtasks have captured. -/
  microtasks : List Nat
  log : List Entry

namespace State

def record (s : State) (e : Entry) : State :=
  { s with log := s.log ++ [e] }

def setSocket (s : State) (i : Nat) (f : Socket -> Socket) : State :=
  { s with sockets := Function.update s.sockets i (f (s.sockets i)) }

def isCurrent (s : State) (i : Nat) : Prop :=
  (s.sockets i).generation = s.generationRef

instance (s : State) (i : Nat) : Decidable (s.isCurrent i) :=
  inferInstanceAs (Decidable (_ = _))

/-- `socket.close()`. -/
def close (s : State) (i : Nat) : State :=
  s.setSocket i fun socket => { socket with closeCalled := true }

end State

/-!
## Retries
-/

def cancelRetry (s : State) : State :=
  match s.retryTimerRef with
  | none => s
  | some t =>
      { s with
        timers := s.timers.filter fun timer => timer.1 ≠ t
        retryTimerRef := none }

def retryDelay (d : Dependencies) (attempt : Nat) : Nat :=
  let configuredCap := d.reconnectMaxSeconds * 1000
  if attempt < INITIAL_RETRY_STEPS then
    min (INITIAL_RETRY_DELAY_MS * 2 ^ attempt) configuredCap
  else configuredCap

/-- The `setTimeout` of the browser. -/
def setTimeout (delay : Nat) (s : State) : State :=
  { s with
    timers := s.timers ++ [(s.nextTimer, delay)]
    nextTimer := s.nextTimer + 1
    log := s.log ++ [Entry.scheduled delay] }

def setTimer (d : Dependencies) (s : State) : State :=
  setTimeout (retryDelay d s.retryAttemptRef)
    { s with
      retryAttemptRef := s.retryAttemptRef + 1
      retryTimerRef := some s.nextTimer }

def scheduleRetry (d : Dependencies) (message : Option JsString) (s : State) :
    State :=
  if s.stoppedRef then { s with status := ConnectionStatus.disconnected }
  else if s.reconnectBehaviorRef = ReconnectBehavior.manual then
    let s := cancelRetry
      { s with
        stoppedRef := true
        manualSuspendedRef := true }
    { s with
      status := ConnectionStatus.disconnected
      error := message.or s.error }
  else
    let s := cancelRetry s
    setTimer d
      { s with
        status := ConnectionStatus.reconnecting
        error := message.or s.error }

/-!
## Connections
-/

def createSocket (d : Dependencies) (s : State) : State :=
  { s with
    sockets := Function.update s.sockets s.nextSocket
      ⟨s.generationRef, d, true, false, false⟩
    nextSocket := s.nextSocket + 1
    socketRef := some s.nextSocket
    removeSocketListenersRef := some s.nextSocket
    log := s.log ++ [Entry.created s.nextSocket] }

/-- `made` tells whether the factory returns a socket. -/
def connect (d : Dependencies) (made : Bool) (s : State) : State :=
  if s.stoppedRef || s.authenticationSuspendedRef then s
  else
    let s := cancelRetry s
    let s :=
      { s with
        generationRef := s.generationRef + 1
        status := if s.retryAttemptRef = 0 then ConnectionStatus.connecting
          else ConnectionStatus.reconnecting
        error := none }
    if made then createSocket d s
    else scheduleRetry d (some UNABLE_TO_OPEN) { s with socketRef := none }

/-- `connectRef.current()`. -/
def runConnect (made : Bool) (s : State) : State :=
  match s.connectRef with
  | none => s
  | some d => connect d made s

/-- `removeSocketListenersRef.current()`, which is then replaced. -/
def removeSocketListeners (s : State) : State :=
  match s.removeSocketListenersRef with
  | none => s
  | some i =>
      { s.setSocket i (fun socket => { socket with listening := false }) with
        removeSocketListenersRef := none }

def closeCurrent (s : State) : State :=
  match s.socketRef with
  | none => s
  | some i => { s.close i with socketRef := none }

/-- The lines that the clean-up and both commands share. -/
def release (s : State) : State :=
  let s := cancelRetry s
  closeCurrent (removeSocketListeners
    { s with generationRef := s.generationRef + 1 })

/-!
## Events of a socket
-/

def onOpen (i : Nat) (s : State) : State :=
  if s.isCurrent i then { s with retryAttemptRef := 0 } else s

def protocolFailure (i : Nat) (s : State) : State :=
  { s.close i with
    status := ConnectionStatus.error
    error := some PROTOCOL_ERROR }

def onServerMessage (i : Nat) (s : State) : ServerMessage -> State
  | ServerMessage.ready _ =>
      { s with
        retryAttemptRef := 0
        status := ConnectionStatus.connected
        error := none }
  | ServerMessage.output _ data => s.record (Entry.output data)
  | ServerMessage.error _ _ =>
      { s.close i with
        status := ConnectionStatus.error
        error := some SERVER_ERROR }

def sessionOf : ServerMessage -> JsString
  | ServerMessage.ready id => id
  | ServerMessage.output id _ => id
  | ServerMessage.error id _ => id

def onMessage (i : Nat) (data : RawData) (s : State) : State :=
  if s.isCurrent i then
    match parseServerMessage data with
    | Except.error _ => protocolFailure i s
    | Except.ok message =>
        if sessionOf message ≠ (s.sockets i).deps.sessionId then
          protocolFailure i s
        else onServerMessage i s message
  else s

def onError (i : Nat) (s : State) : State :=
  if s.isCurrent i then { s with error := some INTERRUPTED } else s

/-- Where the handler goes on with the code of the event. -/
def onCloseCode (d : Dependencies) (code : Nat) (s : State) : State :=
  if code = AUTHENTICATION_REQUIRED then
    let s := cancelRetry
      { s.record (Entry.suspendTerminalAuthLifecycle d.sessionId) with
        authenticationSuspendedRef := true
        stoppedRef := true }
    { s.record Entry.onAuthenticationRequired with
      generationRef := s.generationRef + 1
      status := ConnectionStatus.disconnected
      error := none }
  else if code = SESSION_REPLACED then
    { cancelRetry { s with stoppedRef := true } with
      status := ConnectionStatus.disconnected
      error := some SESSION_REPLACED_ERROR }
  else if code = SESSION_STOPPED ∨ code = SESSION_RESTARTING then
    let s := cancelRetry { s with stoppedRef := true }
    { s.record (if code = SESSION_STOPPED then Entry.onSessionStopped
        else Entry.onSessionRestarting) with
      status := ConnectionStatus.disconnected
      error := none }
  else if code = BRIDGE_RESTART then scheduleRetry d none s
  else if s.stoppedRef then { s with status := ConnectionStatus.disconnected }
  else scheduleRetry d none s

def onClose (i : Nat) (code : Nat) (s : State) : State :=
  if s.isCurrent i then
    let s := removeSocketListeners s
    onCloseCode (s.sockets i).deps code { s with socketRef := none }
  else s

/-!
## Effects
-/

def connectRefEffect (d : Dependencies) (s : State) : State :=
  { s with connectRef := some d }

def resume (s : State) : State :=
  let s := cancelRetry
    { s with
      manualSuspendedRef := false
      stoppedRef := false }
  { s with retryAttemptRef := 0 }

def reconnectBehaviorEffect (b : ReconnectBehavior) (made : Bool) (s : State) :
    State :=
  let s := { s with reconnectBehaviorRef := b }
  if s.authenticationSuspendedRef then s
  else
    match b with
    | ReconnectBehavior.manual =>
        if s.retryTimerRef = none then s
        else
          let s := cancelRetry s
          { s with
            generationRef := s.generationRef + 1
            stoppedRef := true
            manualSuspendedRef := true
            microtasks := s.microtasks ++ [s.generationRef + 1] }
    | ReconnectBehavior.automatic =>
        if s.manualSuspendedRef then runConnect made (resume s) else s

def connectionEffect (made : Bool) (s : State) : State :=
  let s :=
    { s with
      stoppedRef := s.restoredManualSuspension
      manualSuspendedRef := s.restoredManualSuspension
      authenticationSuspendedRef := false }
  if s.restoredManualSuspension then s else runConnect made s

def connectionCleanup (s : State) : State :=
  release { s with stoppedRef := true }

/-- A commit: all clean-ups, then all effects in order.  `made` and `made'`
tell what the factory does when the second and the third effect connect. -/
def commit (d : Dependencies) (b : ReconnectBehavior) (made made' : Bool)
    (s : State) : State :=
  let connectChanged := decide (d ≠ s.deps)
  let behaviorChanged := decide (b ≠ s.reconnectBehaviorRef)
  let s := if connectChanged then connectionCleanup s else s
  let s := { s with deps := d }
  let s := if connectChanged then connectRefEffect d s else s
  let s := if behaviorChanged then reconnectBehaviorEffect b made s else s
  if connectChanged then connectionEffect made' s else s

def firstRender (d : Dependencies) (b : ReconnectBehavior)
    (isTerminalAuthSuspended : Bool) : State :=
  let restored := decide (b = ReconnectBehavior.manual) &&
    isTerminalAuthSuspended
  { status := if restored then ConnectionStatus.disconnected
      else ConnectionStatus.connecting
    error := none
    restoredManualSuspension := restored
    deps := d
    mounted := true
    socketRef := none
    retryTimerRef := none
    retryAttemptRef := 0
    generationRef := 0
    stoppedRef := restored
    authenticationSuspendedRef := false
    manualSuspendedRef := restored
    reconnectBehaviorRef := b
    removeSocketListenersRef := none
    connectRef := none
    sockets := fun _ => ⟨0, d, false, false, false⟩
    nextSocket := 0
    timers := []
    nextTimer := 0
    microtasks := []
    log := if b = ReconnectBehavior.automatic then
        [Entry.clearTerminalAuthSuspension d.sessionId]
      else [] }

def mount (d : Dependencies) (b : ReconnectBehavior)
    (isTerminalAuthSuspended made made' : Bool) : State :=
  connectionEffect made' (reconnectBehaviorEffect b made
    (connectRefEffect d (firstRender d b isTerminalAuthSuspended)))

def unmount (s : State) : State :=
  { connectionCleanup s with mounted := false }

/-!
## Commands
-/

def disconnect (s : State) : State :=
  { release
      { s with
        stoppedRef := true
        manualSuspendedRef := false } with
    status := ConnectionStatus.disconnected }

def reconnect (made : Bool) (s : State) : State :=
  if s.authenticationSuspendedRef then s
  else
    let s := release
      { s.record (Entry.clearTerminalAuthSuspension s.deps.sessionId) with
        stoppedRef := false
        manualSuspendedRef := false }
    runConnect made
      { s with
        retryAttemptRef := 0
        status := ConnectionStatus.connecting }

def runMicrotask (generation : Nat) (s : State) : State :=
  if generation = s.generationRef ∧ s.stoppedRef ∧ s.manualSuspendedRef ∧
      s.reconnectBehaviorRef = ReconnectBehavior.manual then
    { s with status := ConnectionStatus.disconnected }
  else s

/-!
## Runs
-/

inductive SocketEvent where
  | opened
  | message (data : RawData)
  | error
  | closed (code : Nat)
  deriving DecidableEq

inductive Event where
  | socket (i : Nat) (e : SocketEvent)
  | timer (t : Nat) (made : Bool)
  | microtask
  | reconnect (made : Bool)
  | disconnect
  | commit (d : Dependencies) (b : ReconnectBehavior) (made made' : Bool)
  | unmount

def Admits (s : State) : Event -> Prop
  | Event.socket i _ => i < s.nextSocket
  | Event.timer t _ => exists delay, (t, delay) ∈ s.timers
  | Event.microtask => s.microtasks ≠ []
  | Event.commit _ _ _ _ => s.mounted = true
  | Event.unmount => s.mounted = true
  | _ => True

/-- The browser dispatches an event to the listeners that are there. -/
def handler (i : Nat) : SocketEvent -> State -> State
  | SocketEvent.opened, s => onOpen i s
  | SocketEvent.message data, s => onMessage i data s
  | SocketEvent.error, s => onError i s
  | SocketEvent.closed code, s => onClose i code s

def dispatch (i : Nat) (e : SocketEvent) (s : State) : State :=
  if (s.sockets i).listening then handler i e s else s

def delivered (i : Nat) : SocketEvent -> State -> State
  | SocketEvent.closed _, s =>
      s.setSocket i fun socket => { socket with closeDelivered := true }
  | _, s => s

def perform : Event -> State -> State
  | Event.socket i e, s => dispatch i e (delivered i e s)
  | Event.timer t made, s =>
      runConnect made
        { s with timers := s.timers.filter fun timer => timer.1 ≠ t }
  | Event.microtask, s =>
      match s.microtasks with
      | [] => s
      | generation :: rest => runMicrotask generation { s with microtasks := rest }
  | Event.reconnect made, s => reconnect made s
  | Event.disconnect, s => disconnect s
  | Event.commit d b made made', s => commit d b made made' s
  | Event.unmount, s => unmount s

def isReady (sessionId : JsString) (data : RawData) : Bool :=
  match parseServerMessage data with
  | Except.ok (ServerMessage.ready id) => id = sessionId
  | _ => false

/-- The current socket opens or becomes ready, `reconnect()` is called, or a
manual suspension ends. -/
def restarts (s : State) : Event -> Bool
  | Event.socket i SocketEvent.opened => s.socketRef = some i
  | Event.socket i (SocketEvent.message data) =>
      s.socketRef = some i ∧ isReady s.deps.sessionId data = true
  | Event.reconnect _ => !s.authenticationSuspendedRef
  | Event.commit _ b _ _ =>
      b = ReconnectBehavior.automatic ∧ b ≠ s.reconnectBehaviorRef ∧
        s.manualSuspendedRef = true ∧ s.authenticationSuspendedRef = false
  | _ => false

def noted (e : Event) (s : State) : State :=
  if restarts s e then s.record Entry.restarted else s

/-- An event is written down, and then it is handled. -/
def step (e : Event) (s : State) : State :=
  perform e (noted e s)

def Run (permitted : State -> Event -> Prop) : State -> State -> Prop :=
  Relation.ReflTransGen fun s s' =>
    exists e, Admits s e ∧ permitted s e ∧ s' = step e s

end UseTerminalSocket
end Client
end FlanTerminal
