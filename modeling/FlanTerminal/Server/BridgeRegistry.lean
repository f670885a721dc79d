import FlanTerminal.Foundation.JsMap
import FlanTerminal.Server.TerminalBridge

/-!
# The bridge registry

The registry knows the bridge of every session.  Operations on one session run
one after the other, in the order of their calls; closing the registry waits
for the operations that are queued and then closes every owner.

Owners are known by a number.  The registry is part of a larger state, so its
code is written over a host that says where the registry is and how it waits
and closes owners; an operation has a number, which stands for its promise.
-/

namespace FlanTerminal
namespace Server
namespace BridgeRegistry

open Foundation
open TerminalBridge (Reason)

structure Registry where
  owners : JsMap JsString Nat
  /-- `operationQueues`: the operations that are not over, in the order of
  their calls. -/
  queue : List (JsString × Nat)
  shuttingDown : Bool
  /-- The operation that has closed the registry. -/
  shutdownResult : Option Nat
  deriving DecidableEq

def Registry.initial : Registry :=
  ⟨[], [], false, none⟩

inductive Job where
  | replace (sessionId : JsString) (owner : Nat)
  | remove (sessionId : JsString) (owner : Nat)
  | close (sessionId : JsString) (code : Nat) (reason : Reason)
  deriving DecidableEq

def Job.sessionId : Job -> JsString
  | replace id _ => id
  | remove id _ => id
  | close id _ _ => id

inductive Why where
  /-- `replace` closes the owner before the new one. -/
  | prior (sessionId : JsString) (owner : Nat)
  /-- `replace` has failed and closes the new owner. -/
  | rejected (sessionId : JsString) (owner : Nat)
  /-- `replace` comes after the shutdown. -/
  | late (sessionId : JsString) (owner : Nat)
  | close (sessionId : JsString)
  /-- The entry of this session in `closeAll`, the entries after it and those
  that are being closed. -/
  | shutdown (sessionId : JsString) (rest closing : List (JsString × Nat))
      (failed : Bool)
  deriving DecidableEq

structure Host (state : Type) (I : Interface) (error : Type) where
  registry : state -> Registry
  update : (Registry -> Registry) -> state -> state
  /-- Wait for the operations before this one. -/
  turn : Job -> Prog state I error Unit
  /-- The call of `owner.close`, which may throw. -/
  startClose : Why -> Nat -> Nat -> Reason ->
    Prog state I error (Except Unit Unit)
  /-- The promise that `owner.close` has returned. -/
  closed : Why -> Nat -> Prog state I error (Except Unit Unit)
  barrier : Job -> Prog state I error Unit
  /-- Wait for these operations. -/
  drained : List Nat -> Prog state I error Unit
  /-- The next of these owners to be closed, with its outcome. -/
  nextClosed : List (JsString × Nat) -> Bool ->
    Prog state I error (Nat × Bool)
  /-- The promise that the first `closeAll` has returned. -/
  shutdownResult : Nat -> Prog state I error Unit
  closeFailed : error
  shuttingDownError : error

section Code

variable {state : Type} {I : Interface} {error : Type}
variable (H : Host state I error)

def serialize (n : Nat) (job : Job) (operation : Prog state I error Unit) :
    Prog state I error Unit := do
  Prog.modify (H.update fun r =>
    { r with queue := r.queue ++ [(job.sessionId, n)] })
  H.turn job
  Prog.always operation
    (Prog.modify (H.update fun r =>
      { r with queue := r.queue.erase (job.sessionId, n) }))

def closeOwner (why : Why) (owner code : Nat) (reason : Reason) :
    Prog state I error Unit := do
  match ← H.startClose why owner code reason with
  | Except.error _ => throw H.closeFailed
  | Except.ok _ =>
      match ← H.closed why owner with
      | Except.error _ => throw H.closeFailed
      | Except.ok _ => pure ()

def closeRejectedOwner (why : Why) (owner code : Nat) (reason : Reason) :
    Prog state I error Unit :=
  tryCatch (closeOwner H why owner code reason) fun _ => pure ()

def registered (sessionId : JsString) :
    Prog state I error (Option Nat) := do
  let s ← Prog.read
  pure ((H.registry s).owners.get sessionId)

/-- Delete the entry of a session if it is still this owner. -/
def forget (sessionId : JsString) (owner : Nat) :
    Prog state I error Unit := do
  let current ← registered H sessionId
  if current = some owner then
    Prog.modify (H.update fun r =>
      { r with owners := r.owners.delete sessionId })
  else pure ()

/-- The queued part of `replace`. -/
def register (sessionId : JsString) (owner : Nat) :
    Prog state I error Unit :=
  tryCatch
    (do
      let prior ← registered H sessionId
      match prior with
      | some p =>
          if p ≠ owner then
            closeOwner H (Why.prior sessionId owner) p 4001
              Reason.session_replaced
          else pure ()
      | none => pure ()
      let current ← registered H sessionId
      if current = prior then
        Prog.modify (H.update fun r =>
          { r with owners := r.owners.set sessionId owner })
      else pure ())
    fun e => do
      closeRejectedOwner H (Why.rejected sessionId owner) owner 1011
        Reason.registration_failed
      throw e

def replace (n : Nat) (sessionId : JsString) (owner : Nat) :
    Prog state I error Unit := do
  let s ← Prog.read
  if (H.registry s).shuttingDown then do
    H.barrier (Job.replace sessionId owner)
    closeRejectedOwner H (Why.late sessionId owner) owner 1001
      Reason.server_shutdown
    throw H.shuttingDownError
  else
    serialize H n (Job.replace sessionId owner) (register H sessionId owner)

def remove (n : Nat) (sessionId : JsString) (owner : Nat) :
    Prog state I error Unit := do
  let s ← Prog.read
  if (H.registry s).shuttingDown then
    H.barrier (Job.remove sessionId owner)
  else
    serialize H n (Job.remove sessionId owner) (forget H sessionId owner)

/-- The queued part of `close`. -/
def closeRegistered (sessionId : JsString) (code : Nat) (reason : Reason) :
    Prog state I error Unit := do
  match ← registered H sessionId with
  | none => pure ()
  | some owner => do
      closeOwner H (Why.close sessionId) owner code reason
      forget H sessionId owner

def close (n : Nat) (sessionId : JsString) (code : Nat) (reason : Reason) :
    Prog state I error Unit := do
  let s ← Prog.read
  if (H.registry s).shuttingDown then
    H.barrier (Job.close sessionId code reason)
  else
    serialize H n (Job.close sessionId code reason)
      (closeRegistered H sessionId code reason)

/-- `closeAll` calls `close` on one owner after the other.  An owner that
throws is forgotten at once. -/
def closeEach : List (JsString × Nat) -> List (JsString × Nat) -> Bool ->
    Prog state I error (List (JsString × Nat) × Bool)
  | [], closing, failed => pure (closing, failed)
  | (sessionId, owner) :: rest, closing, failed => do
      match ← H.startClose (Why.shutdown sessionId rest closing failed) owner
          1001 Reason.server_shutdown with
      | Except.ok _ =>
          closeEach rest (closing ++ [(sessionId, owner)]) failed
      | Except.error _ => do
          forget H sessionId owner
          closeEach rest closing true

/-- The promises of the owners settle in any order. -/
def settleEach : Nat -> List (JsString × Nat) -> Bool ->
    Prog state I error Bool
  | 0, _, failed => pure failed
  | k + 1, closing, failed => do
      let next ← H.nextClosed closing failed
      match closing[next.1]? with
      | none => pure failed
      | some (sessionId, owner) => do
          forget H sessionId owner
          settleEach k (closing.eraseIdx next.1) (failed || !next.2)

def closeAll (n : Nat) : Prog state I error Unit := do
  let s ← Prog.read
  match (H.registry s).shutdownResult with
  | some k => H.shutdownResult k
  | none => do
      Prog.modify (H.update fun r => { r with shuttingDown := true })
      Prog.modify (H.update fun r => { r with shutdownResult := some n })
      H.drained ((H.registry s).queue.map Prod.snd)
      let s ← Prog.read
      let started ← closeEach H (H.registry s).owners [] false
      let failed ← settleEach H started.1.length started.1 started.2
      if failed then throw H.closeFailed else pure ()

end Code

/-!
## The registry alone

Replacements, removals, closings and shutdowns come in any order, also from
inside an owner that is being closed; owners may be slow, fail or throw.
-/

inductive PortCall where
  | turn (job : Job)
  | startClose (why : Why) (owner code : Nat) (reason : Reason)
  | closed (why : Why) (owner : Nat)
  | barrier (job : Job)
  | drained (operations : List Nat)
  | nextClosed (closing : List (JsString × Nat)) (failed : Bool)
  | shutdownResult (k : Nat)
  deriving DecidableEq

abbrev PortReply : PortCall -> Type
  | PortCall.turn _ => Unit
  | PortCall.startClose _ _ _ _ => Except Unit Unit
  | PortCall.closed _ _ => Except Unit Unit
  | PortCall.barrier _ => Unit
  | PortCall.drained _ => Unit
  | PortCall.nextClosed _ _ => Nat × Bool
  | PortCall.shutdownResult _ => Except Unit Unit

abbrev ports : Interface := ⟨PortCall, PortReply⟩

inductive Thrown where
  | closeFailed
  | shuttingDown
  deriving DecidableEq, Repr

inductive Op where
  | replace (sessionId : JsString) (owner : Nat)
  | remove (sessionId : JsString) (owner : Nat)
  | close (sessionId : JsString) (code : Nat) (reason : Reason)
  | closeAll
  deriving DecidableEq

/-- What happens to the registry, with the number of the operation and the
owners at that moment. -/
inductive Entry where
  | entered (n : Nat) (o : Op) (shuttingDown : Bool)
  | queued (n : Nat) (sessionId : JsString)
  | began (n : Nat) (sessionId : JsString) (owners : JsMap JsString Nat)
  | passed (n : Nat) (owners : JsMap JsString Nat)
  | closeCalled (owner : Nat)
  | drained (n : Nat) (owners : JsMap JsString Nat)
  | ended (n : Nat) (o : Op) (res : Except Thrown Unit)
      (owners : JsMap JsString Nat)
  deriving DecidableEq

structure State where
  registry : Registry
  log : List Entry
  deriving DecidableEq

def State.initial : State :=
  ⟨Registry.initial, []⟩

def State.record (s : State) (e : Entry) : State :=
  { s with log := s.log ++ [e] }

abbrev Code := Prog State ports Thrown

def host : Host State ports Thrown where
  registry := State.registry
  update f s := { s with registry := f s.registry }
  turn job := Prog.ask (I := ports) (PortCall.turn job)
  startClose why owner code reason :=
    Prog.ask (I := ports) (PortCall.startClose why owner code reason)
  closed why owner := Prog.ask (I := ports) (PortCall.closed why owner)
  barrier job := Prog.ask (I := ports) (PortCall.barrier job)
  drained operations := Prog.ask (I := ports) (PortCall.drained operations)
  nextClosed closing failed :=
    Prog.ask (I := ports) (PortCall.nextClosed closing failed)
  shutdownResult k := do
    match ← Prog.ask (I := ports) (PortCall.shutdownResult k) with
    | Except.ok _ => pure ()
    | Except.error _ => throw Thrown.closeFailed
  closeFailed := Thrown.closeFailed
  shuttingDownError := Thrown.shuttingDown

def body (n : Nat) : Op -> Code Unit
  | Op.replace sessionId owner => replace host n sessionId owner
  | Op.remove sessionId owner => remove host n sessionId owner
  | Op.close sessionId code reason => close host n sessionId code reason
  | Op.closeAll => closeAll host n

def boundary : PortCall -> Boundary
  | PortCall.startClose _ _ _ _ => Boundary.callback
  | _ => Boundary.await

/-- The operation of a session that is first in the queue. -/
def firstOf (queue : List (JsString × Nat)) (sessionId : JsString) :
    Option Nat :=
  (queue.find? fun x => x.1 = sessionId).map Prod.snd

def issue (n : Nat) (c : PortCall) (s : State) : State :=
  match c with
  | PortCall.turn job => s.record (Entry.queued n job.sessionId)
  | PortCall.startClose _ owner _ _ => s.record (Entry.closeCalled owner)
  | _ => s

/-- The outcome of a shutdown, as its promise reports it. -/
def settledAs (res : Except Thrown Unit) : Except Unit Unit :=
  match res with
  | Except.ok _ => Except.ok ()
  | Except.error _ => Except.error ()

def allowed (s : State) (n : Nat) : (c : PortCall) -> PortReply c -> Prop
  | PortCall.turn job, _ =>
      firstOf s.registry.queue job.sessionId = some n
  | PortCall.barrier _, _ =>
      exists k res owners, s.registry.shutdownResult = some k ∧
        Entry.ended k Op.closeAll res owners ∈ s.log
  | PortCall.drained operations, _ =>
      forall x, x ∈ s.registry.queue -> x.2 ∉ operations
  | PortCall.nextClosed closing _, next => next.1 < closing.length
  | PortCall.shutdownResult k, outcome =>
      exists res owners, Entry.ended k Op.closeAll res owners ∈ s.log ∧
        outcome = settledAs res
  | _, _ => True

def reply (n : Nat) : (c : PortCall) -> PortReply c -> State -> State
  | PortCall.turn job, _, s =>
      s.record (Entry.began n job.sessionId s.registry.owners)
  | PortCall.barrier _, _, s => s.record (Entry.passed n s.registry.owners)
  | PortCall.drained _, _, s => s.record (Entry.drained n s.registry.owners)
  | _, _, s => s

def alone : Machine State ports Thrown Unit Op where
  body := body
  boundary := boundary
  admits _ _ := True
  enter n o s := s.record (Entry.entered n o s.registry.shuttingDown)
  issue := issue
  allowed := allowed
  reply := reply
  leave n o res s := s.record (Entry.ended n o res s.registry.owners)
  env _ _ := False

def Run (cfg : Config State ports Thrown Unit Op) : Prop :=
  Reachable alone State.initial cfg

end BridgeRegistry
end Server
end FlanTerminal
