import Mathlib.Logic.Function.Basic
import Mathlib.Tactic.Simps.Basic
import FlanTerminal.Foundation.EventLoop

/-!
# Start and shutdown of the server

A lifecycle listens once, and tears the server down once.  The teardown runs
its four phases one after the other; when its deadline is reached it starts the
phases that are left and does not wait for them.

A run of the teardown goes by the number of the operation that runs it, and so
does an attempt to listen.  The calls of its steps are written down with their
replies, by the surroundings.
-/

namespace FlanTerminal
namespace Server
namespace ServerLifecycle

open Foundation

structure TeardownResources where
  httpServer : Bool
  websocket : Bool
  cleaner : Bool
  activity : Bool
  registry : Bool
  disposeServices : Bool
  deriving DecidableEq

inductive CleanupStep where
  | stopAccepting
  | stopHeartbeat
  | closeClients
  | disposeServices
  | closeAllConnections
  | clearTimeout
  deriving DecidableEq

inductive AsyncStep where
  | httpClose
  | cleaner
  | activity
  | registry
  | websocket
  deriving DecidableEq

inductive Phase where
  | durability
  | clients
  | websocket
  | services
  deriving DecidableEq

def phases : List Phase :=
  [Phase.durability, Phase.clients, Phase.websocket, Phase.services]

/-- The steps whose promises make up the promise of the phase. -/
def Phase.steps : Phase -> List AsyncStep
  | durability => [AsyncStep.cleaner, AsyncStep.activity]
  | clients => [AsyncStep.registry]
  | websocket => [AsyncStep.websocket]
  | services => []

inductive Racer where
  | completed
  | deadline
  deriving DecidableEq

/-- What `setTimeout` did.  It may have called back at once (`fired`), and the
handle may be `undefined`. -/
inductive TimerSet where
  | threw (fired : Bool)
  | handle (fired defined : Bool)
  deriving DecidableEq

/-- A step is a call to a resource of the teardown `n`. -/
inductive PortCall where
  | run (n : Nat) (step : CleanupStep)
  | begin (n : Nat) (step : AsyncStep)
  | setTimeout (n timeoutMs : Nat)
  /-- The promises of these steps against the deadline. -/
  | race (steps : List AsyncStep)
  | listen
  | listenPromise (attempt : Nat)
  | shutdownPromise (run : Nat)
  | durabilityReady
  deriving DecidableEq

/-- The steps and `listen` reply whether they have thrown. -/
abbrev PortReply : PortCall -> Type
  | PortCall.run _ _ => Bool
  | PortCall.begin _ _ => Bool
  | PortCall.setTimeout _ _ => TimerSet
  | PortCall.race _ => Racer
  | PortCall.listen => Bool
  | PortCall.listenPromise _ => Bool
  | PortCall.shutdownPromise _ => Bool
  | PortCall.durabilityReady => Option Bool

abbrev ports : Interface := ⟨PortCall, PortReply⟩

inductive Failure where
  | step (s : CleanupStep)
  | asyncStep (s : AsyncStep)
  | scheduler
  /-- `Teardown deadline exceeded`. -/
  | deadline
  deriving DecidableEq

inductive Life where
  | new
  | starting
  | running
  | stopping
  | stopped
  deriving DecidableEq

inductive Attempt where
  | none
  | pending
  | resolved
  | rejected
  deriving DecidableEq

inductive Op where
  | start
  | shutdown
  | isReady
  /-- The rollback of a start that has failed before there was a lifecycle. -/
  | rollback (r : TeardownResources)
  /-- The scheduler calls back; it may do so late, or after `clearTimeout`. -/
  | deadline (run : Nat)
  deriving DecidableEq

inductive Value where
  | undefined
  | flag (b : Bool)
  deriving DecidableEq

inductive Ending where
  | value (v : Value)
  | thrown
  deriving DecidableEq

/-- What happens; besides operations the number is that of the teardown or of
the attempt. -/
inductive Entry where
  | entered (m : Nat) (op : Op)
  | left (m : Nat) (op : Op) (ending : Ending)
  /-- `byLifecycle` tells a shutdown from the rollback of a failed start. -/
  | teardown (n : Nat) (byLifecycle : Bool) (r : TeardownResources)
  | ran (n : Nat) (step : CleanupStep) (threw : Bool)
  | begun (n : Nat) (step : AsyncStep) (threw : Bool)
  | timer (n : Nat) (set : TimerSet)
  | settled (n : Nat) (step : AsyncStep) (ok : Bool)
  | waits (n : Nat)
  | unscheduled (n : Nat)
  | deadline (n : Nat)
  | exceeded (n : Nat)
  | returned (n : Nat) (ok : Bool)
  | listening (n : Nat)
  deriving DecidableEq

/-- The variables of one call of `performBoundedTeardown`. -/
structure Teardown where
  resources : TeardownResources
  errors : List Failure
  deadlineReached : Bool
  timer : Bool
  /-- The scheduler has been given the callback. -/
  scheduled : Bool
  /-- The promises that are not settled. -/
  pending : AsyncStep -> Bool

structure State where
  life : Life
  listenAttempt : Option Nat
  shutdownPromise : Option Nat
  attempts : Nat -> Attempt
  teardowns : Nat -> Teardown
  log : List Entry

def Teardown.fresh (r : TeardownResources) : Teardown :=
  ⟨r, [], false, false, false, fun _ => false⟩

def State.initial : State where
  life := Life.new
  listenAttempt := none
  shutdownPromise := none
  attempts := fun _ => Attempt.none
  teardowns := fun _ =>
    Teardown.fresh ⟨false, false, false, false, false, false⟩
  log := []

namespace State

@[simps] def record (s : State) (e : Entry) : State :=
  { s with log := s.log ++ [e] }

@[simps] def setTeardown (s : State) (n : Nat) (f : Teardown -> Teardown) :
    State :=
  { s with teardowns := Function.update s.teardowns n (f (s.teardowns n)) }

@[simps] def setAttempt (s : State) (n : Nat) (a : Attempt) : State :=
  { s with attempts := Function.update s.attempts n a }

@[simps] def setLife (s : State) (l : Life) : State :=
  { s with life := l }

end State

inductive Thrown where
  /-- `Server lifecycle unavailable`. -/
  | unavailable
  /-- `Server startup failed`. -/
  | startup
  /-- `Server shutdown failed`. -/
  | shutdown
  deriving DecidableEq

abbrev Code := Prog State ports Thrown

/-!
## The teardown
-/

def pushError (n : Nat) (failure : Failure) (s : State) : State :=
  s.setTeardown n fun t => { t with errors := t.errors ++ [failure] }

def runCleanup (n : Nat) (step : CleanupStep) : Code Unit := do
  let threw ← Prog.ask (I := ports) (PortCall.run n step)
  if threw = true then Prog.modify (pushError n (Failure.step step))
  else pure ()

/-- `beginHttpClose` does not throw; its promise is rejected instead. -/
def startAsyncCleanup (n : Nat) (step : AsyncStep) : Code Unit := do
  let threw ← Prog.ask (I := ports) (PortCall.begin n step)
  if threw = true then Prog.modify (pushError n (Failure.asyncStep step))
  else pure ()

def reachDeadline (n : Nat) : Code Unit := do
  let s ← Prog.read
  if (s.teardowns n).deadlineReached = true then pure ()
  else
    Prog.modify fun s => (s.setTeardown n fun t =>
      { t with deadlineReached := true }).record (Entry.deadline n)
    if (s.teardowns n).resources.httpServer = true then
      runCleanup n CleanupStep.closeAllConnections
    else pure ()

def when_ (b : Bool) (p : Code Unit) : Code Unit :=
  if b = true then p else pure ()

def keepTimer (n : Nat) : TimerSet -> Code Unit
  | TimerSet.threw fired => do
      when_ fired (reachDeadline n)
      Prog.modify fun s =>
        (pushError n Failure.scheduler s).record (Entry.unscheduled n)
      reachDeadline n
  | TimerSet.handle fired defined => do
      when_ fired (reachDeadline n)
      Prog.modify fun s => s.setTeardown n fun t => { t with timer := defined }

def startPhase (n : Nat) (r : TeardownResources) : Phase -> Code Unit
  | Phase.durability => do
      when_ r.cleaner (startAsyncCleanup n AsyncStep.cleaner)
      when_ r.websocket (runCleanup n CleanupStep.stopHeartbeat)
      when_ r.activity (startAsyncCleanup n AsyncStep.activity)
  | Phase.clients => do
      when_ r.websocket (runCleanup n CleanupStep.closeClients)
      when_ r.registry (startAsyncCleanup n AsyncStep.registry)
  | Phase.websocket =>
      when_ r.websocket (startAsyncCleanup n AsyncStep.websocket)
  | Phase.services =>
      when_ r.disposeServices (runCleanup n CleanupStep.disposeServices)

/-- The loop over the phases from `nextPhase` on; it returns those from the
final `nextPhase` on. -/
def runPhases (n : Nat) (r : TeardownResources) :
    List Phase -> Code (List Phase)
  | [] => pure []
  | ph :: rest => do
      let s ← Prog.read
      if (s.teardowns n).deadlineReached = true then pure (ph :: rest)
      else
        startPhase n r ph
        let outcome ← Prog.ask (I := ports) (PortCall.race ph.steps)
        if outcome = Racer.deadline then pure rest
        else runPhases n r rest

def drainPhases (n : Nat) (r : TeardownResources) : List Phase -> Code Unit
  | [] => pure ()
  | ph :: rest => do
      startPhase n r ph
      drainPhases n r rest

def awaitHttpClose (n : Nat) : Code Unit := do
  let s ← Prog.read
  if (s.teardowns n).deadlineReached = true then pure ()
  else
    let _ ← Prog.ask (I := ports) (PortCall.race [AsyncStep.httpClose])

/-- The last look at `deadlineReached`. -/
def endPhases (n : Nat) (r : TeardownResources) (left : List Phase)
    (t : Teardown) : Code Unit :=
  if t.deadlineReached = true then do
    drainPhases n r left
    Prog.modify fun s =>
      (pushError n Failure.deadline s).record (Entry.exceeded n)
  else when_ t.timer (runCleanup n CleanupStep.clearTimeout)

def throwErrors (n : Nat) : Code Unit := do
  let s ← Prog.read
  let ok := decide ((s.teardowns n).errors = [])
  Prog.modify fun s => s.record (Entry.returned n ok)
  if ok = true then pure () else throw Thrown.shutdown

def performBoundedTeardown (timeoutMs n : Nat) (byLifecycle : Bool)
    (r : TeardownResources) : Code Unit := do
  Prog.modify fun s => (s.setTeardown n fun _ => Teardown.fresh r).record
    (Entry.teardown n byLifecycle r)
  when_ r.websocket (runCleanup n CleanupStep.stopAccepting)
  when_ r.httpServer (startAsyncCleanup n AsyncStep.httpClose)
  let set ← Prog.ask (I := ports) (PortCall.setTimeout n timeoutMs)
  keepTimer n set
  let left ← runPhases n r phases
  awaitHttpClose n
  let s ← Prog.read
  endPhases n r left (s.teardowns n)
  throwErrors n

/-!
## The lifecycle
-/

structure Options where
  disposeServices : Bool
  closeTimeoutMs : Nat

def Options.resources (o : Options) : TeardownResources :=
  ⟨true, true, true, true, true, o.disposeServices⟩

/-- `listenAttempt?.cancel()`. -/
def cancelAttempt (s : State) : State :=
  match s.listenAttempt with
  | none => s
  | some k =>
      if s.attempts k = Attempt.pending then s.setAttempt k Attempt.rejected
      else s

def stopped (res : Except Thrown Unit) : Code Unit := do
  Prog.modify fun s => s.setLife Life.stopped
  match res with
  | Except.ok _ => pure ()
  | Except.error _ => throw Thrown.shutdown

def awaitShutdown (k : Nat) : Code Unit := do
  let ok ← Prog.ask (I := ports) (PortCall.shutdownPromise k)
  if ok = true then pure () else throw Thrown.shutdown

/-- The promise is assigned before the teardown runs up to its first `await`:
nothing that runs there reads it. -/
def beginShutdown (n : Nat) (s : State) : State :=
  { cancelAttempt (s.setLife Life.stopping) with shutdownPromise := some n }

def settleShutdown (o : Options) (n : Nat) : Code Unit := do
  let res ← tryCatch
    (Except.ok <$> performBoundedTeardown o.closeTimeoutMs n true o.resources)
    fun e => pure (Except.error e)
  stopped res

def shutdown (o : Options) (n : Nat) : Code Unit := do
  let s ← Prog.read
  match s.shutdownPromise with
  | some k => awaitShutdown k
  | none => do
      Prog.modify (beginShutdown n)
      settleShutdown o n

/-- The listeners are attached, and `listen` is called or has thrown. -/
def createListenAttempt (n : Nat) : Code Unit := do
  let threw ← Prog.ask (I := ports) PortCall.listen
  Prog.modify fun s => s.setAttempt n
    (if threw = true then Attempt.rejected else Attempt.pending)

/-- The `try` block of `start`. -/
def awaitListening (n : Nat) : Code Unit := do
  let resolved ← Prog.ask (I := ports) (PortCall.listenPromise n)
  if resolved = true then
    let s ← Prog.read
    if s.life = Life.starting then
      Prog.modify fun s => s.setLife Life.running
    else throw Thrown.startup
  else throw Thrown.startup

def failStart (o : Options) (n : Nat) : Code Unit := do
  tryCatch (shutdown o n) fun _ => pure ()
  throw Thrown.startup

def forgetAttempt (n : Nat) : Code Unit :=
  Prog.modify fun s =>
    if s.listenAttempt = some n then { s with listenAttempt := none } else s

def start (o : Options) (n : Nat) : Code Unit := do
  let s ← Prog.read
  if s.life = Life.new then
    Prog.modify fun s => s.setLife Life.starting
    createListenAttempt n
    Prog.modify fun s => { s with listenAttempt := some n }
    (tryCatch (awaitListening n) fun _ => failStart o n).always
      (forgetAttempt n)
  else throw Thrown.unavailable

def isReady : Code Bool := do
  let s ← Prog.read
  if s.life = Life.running then
    let ready ← Prog.ask (I := ports) PortCall.durabilityReady
    pure (ready = some true)
  else pure false

/-!
## The machine
-/

def body (o : Options) (n : Nat) : Op -> Code Value
  | Op.start => (fun _ => Value.undefined) <$> start o n
  | Op.shutdown => (fun _ => Value.undefined) <$> shutdown o n
  | Op.isReady => Value.flag <$> isReady
  | Op.rollback r => (fun _ => Value.undefined) <$>
      performBoundedTeardown o.closeTimeoutMs n false r
  | Op.deadline k => (fun _ => Value.undefined) <$> reachDeadline k

def boundary : PortCall -> Boundary
  | PortCall.race _ => Boundary.await
  | PortCall.listenPromise _ => Boundary.await
  | PortCall.shutdownPromise _ => Boundary.await
  | _ => Boundary.sync

def issue (n : Nat) (c : PortCall) (s : State) : State :=
  match c with
  | PortCall.race _ => s.record (Entry.waits n)
  | _ => s

def reply : (c : PortCall) -> PortReply c -> State -> State
  | PortCall.run k step, threw, s => s.record (Entry.ran k step threw)
  | PortCall.begin k step, threw, s =>
      (if threw = true then s else s.setTeardown k fun t =>
        { t with pending := Function.update t.pending step true }).record
          (Entry.begun k step threw)
  | PortCall.setTimeout k _, set, s =>
      (s.setTeardown k fun t => { t with scheduled := true }).record
        (Entry.timer k set)
  | _, _, s => s

def Ending.of : Except Thrown Value -> Ending
  | Except.ok v => value v
  | Except.error _ => thrown

/-- A racer that wins is settled. -/
def allowed (s : State) (n : Nat) : (c : PortCall) -> PortReply c -> Prop
  | PortCall.begin _ AsyncStep.httpClose, threw => threw = false
  | PortCall.race steps, Racer.completed =>
      forall step, step ∈ steps -> (s.teardowns n).pending step = false
  | PortCall.race _, Racer.deadline =>
      (s.teardowns n).deadlineReached = true
  | PortCall.listenPromise k, resolved =>
      s.attempts k = if resolved then Attempt.resolved else Attempt.rejected
  | PortCall.shutdownPromise k, ok => Entry.returned k ok ∈ s.log
  | _, _ => True

/-- A step settles, or the server listens or fails to. -/
inductive Env : State -> State -> Prop where
  | settle {s : State} (n : Nat) (step : AsyncStep) (ok : Bool) :
      (s.teardowns n).pending step = true ->
      Env s (((if ok then s else pushError n (Failure.asyncStep step)
        s).setTeardown n fun t =>
          { t with pending := Function.update t.pending step false }).record
            (Entry.settled n step ok))
  | listening {s : State} (n : Nat) : s.attempts n = Attempt.pending ->
      Env s ((s.setAttempt n Attempt.resolved).record (Entry.listening n))
  | error {s : State} (n : Nat) : s.attempts n = Attempt.pending ->
      Env s (s.setAttempt n Attempt.rejected)

def server (o : Options) : Machine State ports Thrown Value Op where
  body := body o
  boundary := boundary
  admits s op :=
    forall k, op = Op.deadline k -> (s.teardowns k).scheduled = true
  enter m op s := s.record (Entry.entered m op)
  issue := issue
  allowed := allowed
  reply _ c r s := reply c r s
  leave m op res s := s.record (Entry.left m op (Ending.of res))
  env := Env

end ServerLifecycle
end Server
end FlanTerminal
