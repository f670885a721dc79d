import FlanTerminal.Foundation.EventLoop
import FlanTerminal.Foundation.JsMap
import FlanTerminal.Foundation.JsSet
import FlanTerminal.Foundation.JsString

/-!
# The index of authenticated sockets

Every socket of a terminal belongs to an application session.  The index finds
the sockets of a session when the session is revoked, and counts the sockets of
each tab for the clean-up.

Sockets are known by a number.  A set of registrations is an object that the
code holds on to while others change the map it is in, so the sets are kept in
a heap and the map has their addresses; a registration has an address too.  As
the index is part of a larger state, its code is written over a host that says
where the index is and what surrounds it.
-/

namespace FlanTerminal
namespace Server
namespace WebSocketAuthIndex

open Foundation

def HARD_MAX_APPLICATION_SESSIONS : Nat := 256
def HARD_MAX_SOCKETS : Nat := 1024
def MAX_CLEANUP_GENERATIONS : Nat := 64

structure ApplicationSessionAuthority where
  applicationSessionId : JsString
  generation : Nat
  expiresAt : Nat
  deriving DecidableEq

structure Options where
  maxApplicationSessions : Nat
  maxSockets : Nat
  validSessions : 1 ≤ maxApplicationSessions ∧
    maxApplicationSessions ≤ HARD_MAX_APPLICATION_SESSIONS
  validSockets : 1 ≤ maxSockets ∧ maxSockets ≤ HARD_MAX_SOCKETS

/-- The events a registration listens to. -/
inductive Event where
  | close
  | error
  deriving DecidableEq, Repr

structure Registration where
  address : Nat
  authority : ApplicationSessionAuthority
  terminalTabId : JsString
  socket : Nat
  disposables : List Event
  deriving DecidableEq

structure Index where
  bySession : JsMap JsString Nat
  /-- The heap of sets. -/
  sets : JsMap Nat (JsSet Registration)
  bySocket : JsMap Nat Registration
  tabCounts : JsMap JsString Int
  disposed : Bool
  cleanupEvictionGeneration : Nat
  cleanupGenerations : JsMap JsString Nat
  /-- The next address of an object. -/
  nextAddress : Nat
  deriving DecidableEq

def Index.initial : Index :=
  ⟨[], [], [], [], false, 0, [], 0⟩

namespace Index

/-- The registrations in the set at an address. -/
def set (x : Index) (address : Nat) : JsSet Registration :=
  (x.sets.get address).getD []

def advanceCleanupGeneration (x : Index) (terminalTabId : JsString) :
    Index :=
  let generation := (x.cleanupGenerations.get terminalTabId).getD
    x.cleanupEvictionGeneration + 1
  let generations :=
    (x.cleanupGenerations.delete terminalTabId).set terminalTabId generation
  if generations.length ≤ MAX_CLEANUP_GENERATIONS then
    { x with cleanupGenerations := generations }
  else
    match generations.head? with
    | none => { x with cleanupGenerations := generations }
    | some oldest =>
        { x with
          cleanupGenerations := generations.delete oldest.1
          cleanupEvictionGeneration :=
            max (x.cleanupEvictionGeneration + 1) oldest.2 }

/-- `new Set()`, which becomes the set of a session. -/
def newSession (x : Index) (applicationSessionId : JsString) : Index :=
  { x with
    bySession := x.bySession.set applicationSessionId x.nextAddress
    sets := x.sets.set x.nextAddress []
    nextAddress := x.nextAddress + 1 }

/-- Forget a session whose set, at this address, is empty. -/
def dropSession (x : Index) (applicationSessionId : JsString)
    (session : Nat) : Index :=
  if (x.set session).length = 0 then
    { x with bySession := x.bySession.delete applicationSessionId }
  else x

def insert (x : Index) (session : Nat) (r : Registration) : Index :=
  advanceCleanupGeneration
    { x with
      sets := x.sets.set session ((x.set session).add r)
      bySocket := x.bySocket.set r.socket r
      tabCounts := x.tabCounts.set r.terminalTabId
        ((x.tabCounts.get r.terminalTabId).getD 0 + 1)
      nextAddress := x.nextAddress + 1 }
    r.terminalTabId

/-- The changes of `unregister` for a registration of this socket. -/
def removeFromSession (x : Index) (r : Registration) : Index :=
  match x.bySession.get r.authority.applicationSessionId with
  | none => x
  | some session =>
      dropSession
        { x with
          sets := x.sets.set session ((x.set session).delete r) }
        r.authority.applicationSessionId session

def uncount (x : Index) (terminalTabId : JsString) : Index :=
  let count := (x.tabCounts.get terminalTabId).getD 1 - 1
  if count = 0 then { x with tabCounts := x.tabCounts.delete terminalTabId }
  else { x with tabCounts := x.tabCounts.set terminalTabId count }

def remove (x : Index) (r : Registration) : Index :=
  advanceCleanupGeneration
    (uncount
      (removeFromSession
        { x with bySocket := x.bySocket.delete r.socket } r)
      r.terminalTabId)
    r.terminalTabId

end Index

structure WebSocketCleanupSnapshot where
  generation : Nat
  count : Int
  deriving DecidableEq

def cleanupSnapshot (x : Index) (terminalTabId : JsString) :
    WebSocketCleanupSnapshot :=
  ⟨(x.cleanupGenerations.get terminalTabId).getD x.cleanupEvictionGeneration,
    (x.tabCounts.get terminalTabId).getD 0⟩

/-- Where the code asks whether an authority is active. -/
inductive Site where
  | first (terminalTabId : JsString) (socket : Nat)
  /-- `registerIfActive` holds the set of the session at this address. -/
  | second (terminalTabId : JsString) (socket session : Nat)
  | sweep
  deriving DecidableEq

structure Host (state : Type) (I : Interface) (error : Type) where
  index : state -> Index
  update : (Index -> Index) -> state -> state
  isOpen : Nat -> Prog state I error Bool
  /-- What the authentication says about an authority. -/
  verdict : ApplicationSessionAuthority -> Prog state I error Bool
  /-- The authentication revokes sessions before it says no. -/
  revoking : ApplicationSessionAuthority -> Site -> Prog state I error Unit
  listen : Event -> Nat -> Prog state I error (Except Unit Unit)
  unlisten : Event -> Nat -> Prog state I error (Except Unit Unit)
  close : Nat -> Prog state I error (Except Unit Unit)
  terminate : Nat -> Prog state I error (Except Unit Unit)
  sweepExpired : Prog state I error (Except Unit Unit)
  unsubscribe : Prog state I error (Except Unit Unit)

section Code

variable {state : Type} {I : Interface} {error : Type}
variable (H : Host state I error) (options : Options)

def isActive (authority : ApplicationSessionAuthority) (site : Site) :
    Prog state I error Bool := do
  if ← H.verdict authority then pure true
  else do
    H.revoking authority site
    pure false

def disposeAll (socket : Nat) : List Event -> Prog state I error Unit
  | [] => pure ()
  | e :: rest => do
      let _ ← H.unlisten e socket
      disposeAll socket rest

/-- Both listeners of a socket, or none if one of them cannot be added. -/
def listen (socket : Nat) : Prog state I error (Option (List Event)) := do
  match ← H.listen Event.close socket with
  | Except.error _ => pure none
  | Except.ok _ =>
      match ← H.listen Event.error socket with
      | Except.error _ => pure none
      | Except.ok _ => pure (some [Event.close, Event.error])

/-- `registerIfActive`, once the session has a set. -/
def complete (authority : ApplicationSessionAuthority)
    (terminalTabId : JsString) (socket session : Nat) :
    Prog state I error Bool := do
  match ← listen H socket with
  | none => do
      Prog.modify (H.update fun x =>
        x.dropSession authority.applicationSessionId session)
      pure false
  | some disposables => do
      let active ← do
        if ← H.isOpen socket then
          isActive H authority (Site.second terminalTabId socket session)
        else pure false
      if active then do
        Prog.modify (H.update fun x => x.insert session
          ⟨x.nextAddress, authority, terminalTabId, socket, disposables⟩)
        pure true
      else do
        disposeAll H socket disposables
        Prog.modify (H.update fun x =>
          x.dropSession authority.applicationSessionId session)
        pure false

/-- `registerIfActive`, once the authority was found active: the set of the
session. -/
def joinSession (authority : ApplicationSessionAuthority)
    (terminalTabId : JsString) (socket : Nat) : Prog state I error Bool := do
  let s ← Prog.read
  match (H.index s).bySession.get authority.applicationSessionId with
  | none =>
      if options.maxApplicationSessions ≤ (H.index s).bySession.length then
        pure false
      else do
        Prog.modify (H.update fun x =>
          x.newSession authority.applicationSessionId)
        complete H authority terminalTabId socket (H.index s).nextAddress
  | some session =>
      if (((H.index s).set session).head?.map fun r =>
          r.authority.generation) ≠ some authority.generation then
        pure false
      else complete H authority terminalTabId socket session

def registerIfActive (authority : ApplicationSessionAuthority)
    (terminalTabId : JsString) (socket : Nat) : Prog state I error Bool := do
  let s ← Prog.read
  if (H.index s).disposed then pure false
  else if !(← H.isOpen socket) then pure false
  else if (H.index s).bySocket.has socket then pure false
  else if options.maxSockets ≤ (H.index s).bySocket.length then pure false
  else if !(← isActive H authority (Site.first terminalTabId socket)) then
    pure false
  else joinSession H options authority terminalTabId socket

def unregister (socket : Nat) : Prog state I error Unit := do
  let s ← Prog.read
  match (H.index s).bySocket.get socket with
  | none => pure ()
  | some r => do
      Prog.modify (H.update fun x => x.remove r)
      disposeAll H socket r.disposables

def secureAuthenticationClosure (socket : Nat) :
    Prog state I error Bool := do
  if !(← H.isOpen socket) then pure true
  else do
    let _ ← H.close socket
    if !(← H.isOpen socket) then pure true
    else do
      let _ ← H.terminate socket
      let isOpen ← H.isOpen socket
      pure (!isOpen)

def closeAuthenticationRequired (socket : Nat) : Prog state I error Bool := do
  let secured ← secureAuthenticationClosure H socket
  if secured then do
    unregister H socket
    pure secured
  else pure secured

def closeEach : List Nat -> Prog state I error Unit
  | [] => pure ()
  | socket :: rest => do
      let _ ← closeAuthenticationRequired H socket
      closeEach rest

def closeSession (applicationSessionId : JsString) :
    Prog state I error Unit := do
  let s ← Prog.read
  match (H.index s).bySession.get applicationSessionId with
  | none => pure ()
  | some session =>
      closeEach H (((H.index s).set session).map fun r => r.socket)

def sweepEach : List Registration -> Prog state I error Unit
  | [] => pure ()
  | r :: rest => do
      if ← isActive H r.authority Site.sweep then pure ()
      else do
        let _ ← closeAuthenticationRequired H r.socket
        pure ()
      sweepEach rest

def sweepExpired : Prog state I error Unit := do
  let _ ← H.sweepExpired
  let s ← Prog.read
  sweepEach H (H.index s).bySocket.values

def dispose : Prog state I error Unit := do
  let s ← Prog.read
  if (H.index s).disposed then pure ()
  else do
    Prog.modify (H.update fun x => { x with disposed := true })
    let _ ← H.unsubscribe
    let s ← Prog.read
    closeEach H (H.index s).bySocket.keys

end Code

/-!
## The index alone

A socket that is closed or terminated may fire the listeners of any socket, and
the authentication may revoke sessions whenever it is called and does not say
yes; so every operation but a registration can also come from inside another
one.
-/

inductive PortCall where
  | isOpen (socket : Nat)
  | verdict (authority : ApplicationSessionAuthority)
  | revoking (authority : ApplicationSessionAuthority) (site : Site)
  | listen (event : Event) (socket : Nat)
  | unlisten (event : Event) (socket : Nat)
  | close (socket : Nat)
  | terminate (socket : Nat)
  | sweepExpired
  | unsubscribe
  deriving DecidableEq

abbrev PortReply : PortCall -> Type
  | PortCall.isOpen _ => Bool
  | PortCall.verdict _ => Bool
  | PortCall.revoking _ _ => Unit
  | _ => Except Unit Unit

abbrev ports : Interface := ⟨PortCall, PortReply⟩

inductive Op where
  | registerIfActive (authority : ApplicationSessionAuthority)
      (terminalTabId : JsString) (socket : Nat)
  | unregister (socket : Nat)
  | closeSession (applicationSessionId : JsString)
  | closeAuthenticationRequired (socket : Nat)
  | sweepExpired
  | dispose
  deriving DecidableEq

/-- The registrations when an operation starts and the index when it ends. -/
inductive Entry where
  | entered (n : Nat) (o : Op) (registrations : List Registration)
  | ended (n : Nat) (o : Op) (res : Except Empty (Option Bool)) (index : Index)
  deriving DecidableEq

structure State where
  index : Index
  /-- The operations in progress. -/
  active : List Nat
  log : List Entry

def State.initial : State :=
  ⟨Index.initial, [], []⟩

abbrev Code := Prog State ports Empty

def host : Host State ports Empty where
  index := State.index
  update f s := { s with index := f s.index }
  isOpen socket := Prog.ask (I := ports) (PortCall.isOpen socket)
  verdict authority := Prog.ask (I := ports) (PortCall.verdict authority)
  revoking authority site :=
    Prog.ask (I := ports) (PortCall.revoking authority site)
  listen e socket := Prog.ask (I := ports) (PortCall.listen e socket)
  unlisten e socket := Prog.ask (I := ports) (PortCall.unlisten e socket)
  close socket := Prog.ask (I := ports) (PortCall.close socket)
  terminate socket := Prog.ask (I := ports) (PortCall.terminate socket)
  sweepExpired := Prog.ask (I := ports) PortCall.sweepExpired
  unsubscribe := Prog.ask (I := ports) PortCall.unsubscribe

def body (options : Options) (_ : Nat) : Op -> Code (Option Bool)
  | Op.registerIfActive authority terminalTabId socket => do
      let res ← registerIfActive host options authority terminalTabId socket
      pure (some res)
  | Op.unregister socket => do
      unregister host socket
      pure none
  | Op.closeSession applicationSessionId => do
      closeSession host applicationSessionId
      pure none
  | Op.closeAuthenticationRequired socket => do
      let res ← closeAuthenticationRequired host socket
      pure (some res)
  | Op.sweepExpired => do
      sweepExpired host
      pure none
  | Op.dispose => do
      dispose host
      pure none

def boundary : PortCall -> Boundary
  | PortCall.revoking _ _ => Boundary.callback
  | PortCall.close _ => Boundary.callback
  | PortCall.terminate _ => Boundary.callback
  | PortCall.sweepExpired => Boundary.callback
  | PortCall.unsubscribe => Boundary.callback
  | _ => Boundary.sync

def alone (options : Options) :
    Machine State ports Empty (Option Bool) Op where
  body := body options
  boundary := boundary
  admits s
    | Op.registerIfActive _ _ _ => s.active = []
    | _ => True
  enter n o s :=
    { s with
      active := n :: s.active
      log := s.log ++ [Entry.entered n o s.index.bySocket.values] }
  issue _ _ s := s
  allowed _ _ _ _ := True
  reply _ _ _ s := s
  leave n o res s :=
    { s with
      active := s.active.filter fun m => decide (m ≠ n)
      log := s.log ++ [Entry.ended n o res s.index] }
  env _ _ := False

def Run (options : Options)
    (cfg : Config State ports Empty (Option Bool) Op) : Prop :=
  Reachable (alone options) State.initial cfg

end WebSocketAuthIndex
end Server
end FlanTerminal
