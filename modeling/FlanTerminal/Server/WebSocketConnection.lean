import FlanTerminal.Server.BridgeRegistry
import FlanTerminal.Server.WebSocketAuthIndex

/-!
# A terminal connection

The handler of one accepted connection asks the session manager for a bridge.
Until the bridge is there, and after, the socket may close or fail, the session
of its user may be revoked and other connections may take the terminal over.
Whoever learns last that the connection is over closes the bridge and removes it
from the registry.

The registry and the index are components that run beside the handler: their
runs are part of its state, and the handler calls them.
-/

namespace FlanTerminal
namespace Server
namespace WebSocketConnection

open Foundation
open TerminalBridge (Reason)
open WebSocketAuthIndex (ApplicationSessionAuthority Options)

def AUTHENTICATION_REQUIRED : Nat := 4003

abbrev RegistryRun := Config BridgeRegistry.State BridgeRegistry.ports
  BridgeRegistry.Thrown Unit BridgeRegistry.Op

abbrev IndexRun := Config WebSocketAuthIndex.State WebSocketAuthIndex.ports
  Empty (Option Bool) WebSocketAuthIndex.Op

structure Connection where
  sessionId : JsString
  authority : ApplicationSessionAuthority
  port : Nat

/-- Where the handler asks whether the authority is active. -/
inductive Site where
  | acceptUpgrade
  | removeRegistration
  | connected
  | failed
  deriving DecidableEq, Repr

/-- The calls of the handler.  Calls of the registry and of the index have the
number that their operation gets there at the least, and a call of the socket
the owner whose clean-up the operation has begun. -/
inductive PortCall where
  | verdict
  | revoking (site : Site)
  | registerIfActive
  | rejectPort
  | connect
  | unregister (since : Nat)
  | closeAuthenticationRequired (site : Site) (since : Nat)
  | startClose (owner code : Nat) (reason : Reason)
  | closed (owner : Nat)
  | remove (operation owner : Nat)
  | cleanupPromise (k : Nat)
  | closePort (target : Option Nat) (code : Nat) (reason : Reason)
  | sendReady
  | sendConnectionError
  deriving DecidableEq

abbrev PortReply : PortCall -> Type
  | PortCall.verdict => Bool
  | PortCall.registerIfActive => Bool
  | PortCall.connect => Except Unit Nat
  | PortCall.closeAuthenticationRequired _ _ => Bool
  | PortCall.startClose _ _ _ => Except Unit Unit
  | PortCall.closed _ => Except Unit Unit
  | PortCall.remove _ _ => Except Unit Unit
  | PortCall.closePort _ _ _ => Except Unit Unit
  | _ => Unit

abbrev ports : Interface := ⟨PortCall, PortReply⟩

inductive Op where
  | connection
  | closeEvent
  | errorEvent
  deriving DecidableEq, Repr

inductive Entry where
  /-- The close or the error event of the socket comes to the handler. -/
  | handled (n : Nat)
  | connected (owner : Nat)
  | connectFailed
  /-- The clean-up calls `close` on the owner. -/
  | cleanup (owner : Nat)
  | ready (isOpen active : Bool)
  deriving DecidableEq

structure State where
  owner : Option Nat
  ended : Bool
  authenticationEnded : Bool
  /-- The operation that cleans up. -/
  cleanupPromise : Option Nat
  closeListener : Bool
  errorListener : Bool
  listenersDisposed : Bool
  /-- The handler has been called, and has installed its listeners. -/
  started : Bool
  installed : Bool
  /-- The index is asked to register the port. -/
  registering : Bool
  /-- The code is inside `owner.close`. -/
  closing : Bool
  socketOpen : Bool
  active : Bool
  registry : RegistryRun
  index : IndexRun
  log : List Entry

def State.record (s : State) (e : Entry) : State :=
  { s with log := s.log ++ [e] }

def State.initial : State where
  owner := none
  ended := false
  authenticationEnded := false
  cleanupPromise := none
  closeListener := false
  errorListener := false
  listenersDisposed := false
  started := false
  installed := false
  registering := false
  closing := false
  socketOpen := true
  active := true
  registry := Config.initial BridgeRegistry.State.initial
  index := Config.initial WebSocketAuthIndex.State.initial
  log := []

abbrev Code := Prog State ports Empty

/-- `authIndex.isActive`, which may revoke sessions before it says no. -/
def isActive (site : Site) : Code Bool := do
  if ← Prog.ask (I := ports) PortCall.verdict then pure true
  else do
    let _ ← Prog.ask (I := ports) (PortCall.revoking site)
    pure false

inductive Cleanup where
  | running (k : Nat)
  | nothing
  | started (target : Nat) (res : Except Unit Unit)

def Cleanup.target : Cleanup -> Option Nat
  | Cleanup.started target _ => some target
  | _ => none

/-- The synchronous part of `cleanupOwner`. -/
def cleanupOwner (n code : Nat) (reason : Reason) : Code Cleanup := do
  let s ← Prog.read
  match s.cleanupPromise with
  | some k => pure (Cleanup.running k)
  | none =>
      match s.owner with
      | none => pure Cleanup.nothing
      | some target => do
          let res ← Prog.ask (I := ports)
            (PortCall.startClose target code reason)
          Prog.modify fun s => { s with cleanupPromise := some n }
          pure (Cleanup.started target res)

/-- `registry.remove` after the owner has closed, or has failed to. -/
def removeOwner (target : Nat) : Code Unit := do
  let s ← Prog.read
  let _ ← Prog.ask (I := ports) (PortCall.remove s.registry.next target)
  pure ()

/-- The asynchronous part of `cleanupOwner`. -/
def cleanupRest : Cleanup -> Code Unit
  | Cleanup.running _ => pure ()
  | Cleanup.nothing => pure ()
  | Cleanup.started target (Except.error _) => removeOwner target
  | Cleanup.started target (Except.ok _) => do
      let _ ← Prog.ask (I := ports) (PortCall.closed target)
      removeOwner target

def disposeSocketListeners : Code Unit := do
  let s ← Prog.read
  if s.listenersDisposed then pure ()
  else
    Prog.modify fun s =>
      { s with
        listenersDisposed := true
        closeListener := false
        errorListener := false }

def cleanupConnection (n : Nat) : Code Cleanup := do
  let s ← Prog.read
  if s.authenticationEnded then
    cleanupOwner n AUTHENTICATION_REQUIRED Reason.authentication_required
  else cleanupOwner n 1001 Reason.socket_closed

def removeRegistration (n : Nat) : Code Cleanup := do
  disposeSocketListeners
  Prog.modify fun s => { s with ended := true }
  let active ← isActive Site.removeRegistration
  Prog.modify fun s => { s with authenticationEnded := !active }
  let s ← Prog.read
  let _ ← Prog.ask (I := ports) (PortCall.unregister s.index.next)
  cleanupConnection n

def closeEvent (n : Nat) : Code Unit := do
  let cleanup ← removeRegistration n
  cleanupRest cleanup

def onSocketError (n : Nat) : Code Unit := do
  let cleanup ← removeRegistration n
  let s ← Prog.read
  if s.socketOpen then do
    let _ ← Prog.ask (I := ports)
      (PortCall.closePort cleanup.target 1011 Reason.socket_error)
    cleanupRest cleanup
  else cleanupRest cleanup

def closeAuthenticationRequired (site : Site) : Code Unit := do
  let s ← Prog.read
  let _ ← Prog.ask (I := ports)
    (PortCall.closeAuthenticationRequired site s.index.next)
  pure ()

def settleConnected (n : Nat) : Code Unit := do
  let s ← Prog.read
  if s.ended || !s.socketOpen then do
    match ← cleanupConnection n with
    | Cleanup.running k => do
        let _ ← Prog.ask (I := ports) (PortCall.cleanupPromise k)
        pure ()
    | cleanup => cleanupRest cleanup
  else do
    let _ ← Prog.ask (I := ports) PortCall.sendReady
    pure ()

/-- The continuation of `connect`. -/
def connected (n connectedOwner : Nat) : Code Unit := do
  Prog.modify fun s => { s with owner := some connectedOwner }
  if ← isActive Site.connected then settleConnected n
  else do
    Prog.modify fun s => { s with authenticationEnded := true }
    Prog.modify fun s => { s with ended := true }
    closeAuthenticationRequired Site.connected
    settleConnected n

def reportFailure : Code Unit := do
  let _ ← Prog.ask (I := ports) PortCall.sendConnectionError
  let s ← Prog.read
  if s.socketOpen then do
    let _ ← Prog.ask (I := ports)
      (PortCall.closePort none 1011 Reason.terminal_unavailable)
    pure ()
  else pure ()

def failed : Code Unit := do
  let s ← Prog.read
  if s.ended then closeAuthenticationRequired Site.failed
  else if ← isActive Site.failed then reportFailure
  else closeAuthenticationRequired Site.failed

/-- The end of `acceptUpgrade`, and the handler. -/
def connection (n : Nat) : Code Unit := do
  if !(← isActive Site.acceptUpgrade) then do
    let _ ← Prog.ask (I := ports) PortCall.rejectPort
    pure ()
  else if !(← Prog.ask (I := ports) PortCall.registerIfActive) then do
    let _ ← Prog.ask (I := ports) PortCall.rejectPort
    pure ()
  else do
    Prog.modify fun s =>
      { s with closeListener := true, errorListener := true,
               installed := true }
    match ← Prog.ask (I := ports) PortCall.connect with
    | Except.ok connectedOwner => connected n connectedOwner
    | Except.error _ => failed

/-!
## The handler and what surrounds it

The events of the socket are tasks of the event loop; none comes from inside
`owner.close`.  The registry and the index go on with their own operations at
any time.  The session manager passes a bridge to the registry before it
returns it, never after, and the port is registered by the handler only.
-/

section Machine

variable (options : Options) (x : Connection)

def body (n : Nat) : Op -> Code Unit
  | Op.connection => connection n
  | Op.closeEvent => closeEvent n
  | Op.errorEvent => onSocketError n

def boundary : PortCall -> Boundary
  | PortCall.verdict => Boundary.sync
  | PortCall.sendReady => Boundary.sync
  | PortCall.sendConnectionError => Boundary.sync
  | PortCall.connect => Boundary.await
  | PortCall.closed _ => Boundary.await
  | PortCall.remove _ _ => Boundary.await
  | PortCall.cleanupPromise _ => Boundary.await
  | _ => Boundary.callback

def admits (s : State) : Op -> Prop
  | Op.connection => s.started = false
  | Op.closeEvent => s.closeListener = true ∧ s.closing = false
  | Op.errorEvent => s.errorListener = true ∧ s.closing = false

def enter (n : Nat) (o : Op) (s : State) : State :=
  match o with
  | Op.connection => { s with started := true }
  | Op.closeEvent => { s with
      closeListener := false
      log := s.log ++ [Entry.handled n] }
  | Op.errorEvent => { s with
      errorListener := false
      log := s.log ++ [Entry.handled n] }

def issue (_ : Nat) (c : PortCall) (s : State) : State :=
  match c with
  | PortCall.registerIfActive => { s with registering := true }
  | PortCall.startClose owner _ _ => { s with
      closing := true
      log := s.log ++ [Entry.cleanup owner] }
  | PortCall.remove _ owner => { s with
      registry := s.registry.start BridgeRegistry.alone
        (BridgeRegistry.Op.remove x.sessionId owner) }
  | PortCall.sendReady => s.record (Entry.ready s.socketOpen s.active)
  | _ => s

def allowed (s : State) (_ : Nat) : (c : PortCall) -> PortReply c -> Prop
  | PortCall.verdict, active => active = true ->
      s.active = true ∧ s.index.shared.index.disposed = false
  | PortCall.registerIfActive, res =>
      exists m index, WebSocketAuthIndex.Entry.ended m
        (WebSocketAuthIndex.Op.registerIfActive x.authority x.sessionId
          x.port) (Except.ok (some res)) index ∈ s.index.shared.log
  | PortCall.unregister since, _ =>
      exists m res index, since ≤ m ∧ WebSocketAuthIndex.Entry.ended m
        (WebSocketAuthIndex.Op.unregister x.port) res index ∈
          s.index.shared.log
  | PortCall.closeAuthenticationRequired _ since, res =>
      exists m index, since ≤ m ∧ WebSocketAuthIndex.Entry.ended m
        (WebSocketAuthIndex.Op.closeAuthenticationRequired x.port)
          (Except.ok (some res)) index ∈ s.index.shared.log
  | PortCall.remove operation owner, _ =>
      exists res owners, BridgeRegistry.Entry.ended operation
        (BridgeRegistry.Op.remove x.sessionId owner) res owners ∈
          s.registry.shared.log
  | _, _ => True

def reply (_ : Nat) : (c : PortCall) -> PortReply c -> State -> State
  | PortCall.registerIfActive, _, s => { s with registering := false }
  | PortCall.connect, Except.ok owner, s => s.record (Entry.connected owner)
  | PortCall.connect, Except.error _, s => s.record Entry.connectFailed
  | PortCall.startClose _ _ _, _, s => { s with closing := false }
  | _, _, s => s

inductive Beside (s : State) : State -> Prop where
  | registry (r : RegistryRun) :
      Step BridgeRegistry.alone s.registry r ->
      (forall m owner flag, s.owner = some owner ->
        BridgeRegistry.Entry.entered m
          (BridgeRegistry.Op.replace x.sessionId owner) flag ∈ r.shared.log ->
        BridgeRegistry.Entry.entered m
          (BridgeRegistry.Op.replace x.sessionId owner) flag ∈
            s.registry.shared.log) ->
      Beside s { s with registry := r }
  | index (i : IndexRun) :
      Step (WebSocketAuthIndex.alone options) s.index i ->
      (forall m authority t registrations, s.registering = false ->
        WebSocketAuthIndex.Entry.entered m
          (WebSocketAuthIndex.Op.registerIfActive authority t x.port)
          registrations ∈ i.shared.log ->
        WebSocketAuthIndex.Entry.entered m
          (WebSocketAuthIndex.Op.registerIfActive authority t x.port)
          registrations ∈ s.index.shared.log) ->
      Beside s { s with index := i }
  | revoked : Beside s { s with active := false }
  | socket : Beside s { s with socketOpen := false }

def handler : Machine State ports Empty Unit Op where
  body := body
  boundary := boundary
  admits := admits
  enter := enter
  issue := issue x
  allowed := allowed x
  reply := reply
  leave _ _ _ s := s
  env := Beside options x

def Run (cfg : Config State ports Empty Unit Op) : Prop :=
  Reachable (handler options x) State.initial cfg

end Machine

end WebSocketConnection
end Server
end FlanTerminal
