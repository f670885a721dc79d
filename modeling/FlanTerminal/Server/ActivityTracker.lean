import FlanTerminal.Foundation.EventLoop
import FlanTerminal.Foundation.JsMap
import FlanTerminal.Foundation.JsSet
import FlanTerminal.Foundation.JsString

/-!
# The activity tracker

Terminals mark their tab as active, often.  The tracker collects the marked
tabs and writes them to the store in batches: a timer starts a flush, a flush
that fails puts its tabs back, and a shutdown waits for the flush in flight and
writes what is left.

The number of an operation stands for the promise it makes: `inFlight` is the
operation whose flush is in flight.
-/

namespace FlanTerminal
namespace Server
namespace ActivityTracker

open Foundation

def MAX_CLEANUP_GENERATIONS : Nat := 64

/-- The jobs a flush leaves in the microtask queue. -/
inductive Job where
  | flush (ids : JsSet JsString)
  /-- The store has succeeded, and `catch` passes the value on. -/
  | passed (ids : JsSet JsString)
  /-- The store has failed, and `catch` puts the tabs back. -/
  | rejected (ids : JsSet JsString)
  | settled (ids : JsSet JsString)
  deriving DecidableEq

/-- Where the code calls the store. -/
inductive Site where
  | startFlush
  | finishShutdown
  deriving DecidableEq, Repr

inductive PortCall where
  | setTimeout
  | clearTimeout (handle : Nat)
  | now
  | microtask (job : Job)
  | flushActivity (site : Site) (ids : JsSet JsString) (now : JsString)
  /-- `await this.inFlight`, the promise of operation `k`. -/
  | inFlight (k : Nat)
  /-- The promise that the first shutdown, operation `k`, has returned. -/
  | shutdownPromise (k : Nat)
  deriving DecidableEq

abbrev PortReply : PortCall -> Type
  | PortCall.setTimeout => Nat
  | PortCall.clearTimeout _ => Unit
  | PortCall.now => Except Unit JsString
  | PortCall.microtask _ => Unit
  | PortCall.flushActivity _ _ _ => Except Unit Unit
  | PortCall.inFlight _ => Unit
  | PortCall.shutdownPromise _ => Except Unit Unit

def ports : Interface := ⟨PortCall, PortReply⟩

inductive Op where
  | mark (tabId : JsString)
  /-- The timer with this handle fires. -/
  | fire (handle : Nat)
  | shutdown
  deriving DecidableEq

/-- What happens to the tracker and its ports, with the number of the
operation. -/
inductive Entry where
  /-- A mark that was accepted. -/
  | marked (tabId : JsString)
  | shutdown (n : Nat)
  | flush (n : Nat) (ids : JsSet JsString)
  | flushed (n : Nat)
  | failed (n : Nat)
  | ended (n : Nat) (o : Op) (res : Except Unit Unit)
  deriving DecidableEq

structure State where
  dirtyIds : JsSet JsString
  flushingIds : JsSet JsString
  timer : Option Nat
  inFlight : Option Nat
  shutdownPromise : Option Nat
  accepting : Bool
  cleanupClock : Nat
  cleanupEvictionGeneration : Nat
  cleanupGenerations : JsMap JsString Nat
  /-- The timers of the scheduler that can still fire. -/
  armed : List Nat
  log : List Entry
  deriving DecidableEq

def State.initial : State :=
  ⟨[], [], none, none, none, true, 0, 0, [], [], []⟩

def State.record (s : State) (e : Entry) : State :=
  { s with log := s.log ++ [e] }

structure ActivityCleanupSnapshot where
  generation : Nat
  pending : Bool
  deriving DecidableEq

def cleanupSnapshot (s : State) (tabId : JsString) : ActivityCleanupSnapshot :=
  ⟨(s.cleanupGenerations.get tabId).getD s.cleanupEvictionGeneration,
    decide (tabId ∈ s.dirtyIds) || decide (tabId ∈ s.flushingIds)⟩

def advanceCleanupGeneration (s : State) (id : JsString) : State :=
  let clock := s.cleanupClock + 1
  let generations := (s.cleanupGenerations.delete id).set id clock
  if generations.length ≤ MAX_CLEANUP_GENERATIONS then
    { s with cleanupClock := clock, cleanupGenerations := generations }
  else
    { s with
      cleanupClock := clock
      cleanupEvictionGeneration := clock
      cleanupGenerations :=
        match generations.keys.head? with
        | some oldest => generations.delete oldest
        | none => generations }

def advanceCleanupGenerations (s : State) (ids : JsSet JsString) : State :=
  ids.foldl advanceCleanupGeneration s

abbrev Code := Prog State ports Unit

def schedule : Code Unit := do
  let s ← Prog.read
  if !s.accepting || s.timer.isSome || s.inFlight.isSome ||
      s.dirtyIds.isEmpty then pure ()
  else do
    let handle : Nat ← Prog.ask (I := ports) PortCall.setTimeout
    Prog.modify fun s => { s with timer := some handle }

def mark (tabId : JsString) : Code Unit := do
  let s ← Prog.read
  if !s.accepting then pure ()
  else do
    Prog.modify fun s => { s with dirtyIds := s.dirtyIds.add tabId }
    Prog.modify fun s => advanceCleanupGeneration s tabId
    schedule

def takeDirtySnapshot : Code (JsSet JsString) := do
  let s ← Prog.read
  Prog.modify fun s => { s with dirtyIds := [] }
  pure s.dirtyIds

def hold (ids : JsSet JsString) : Code Unit := do
  Prog.modify fun s => { s with flushingIds := s.flushingIds.addAll ids }
  Prog.modify fun s => advanceCleanupGenerations s ids

def putBack (ids : JsSet JsString) : Code Unit :=
  Prog.modify fun s => { s with dirtyIds := s.dirtyIds.addAll ids }

def release (ids : JsSet JsString) : Code Unit := do
  Prog.modify fun s => { s with flushingIds := s.flushingIds.deleteAll ids }
  Prog.modify fun s => advanceCleanupGenerations s ids

/-- `this.options.store.flushActivity(ids, this.now())`. -/
def flushStore (site : Site) (ids : JsSet JsString) :
    Code (Except Unit Unit) := do
  match ← Prog.ask (I := ports) PortCall.now with
  | Except.ok now =>
      Prog.ask (I := ports) (PortCall.flushActivity site ids now)
  | Except.error _ => pure (Except.error ())

def microtask (job : Job) : Code Unit := do
  let _ ← Prog.ask (I := ports) (PortCall.microtask job)
  pure ()

/-- The end of a flush: the job of `finally`. -/
def settle (n : Nat) (ids : JsSet JsString) : Code Unit := do
  microtask (Job.settled ids)
  release ids
  let s ← Prog.read
  if s.inFlight ≠ some n then pure ()
  else do
    Prog.modify fun s => { s with inFlight := none }
    schedule

/-- The promise chain of a flush. -/
def operation (n : Nat) (ids : JsSet JsString) : Code Unit := do
  microtask (Job.flush ids)
  match ← flushStore Site.startFlush ids with
  | Except.ok _ => do
      microtask (Job.passed ids)
      settle n ids
  | Except.error _ => do
      microtask (Job.rejected ids)
      putBack ids
      settle n ids

def startFlush (n : Nat) : Code Unit := do
  let s ← Prog.read
  if s.inFlight.isSome || s.dirtyIds.isEmpty then pure ()
  else do
    let ids ← takeDirtySnapshot
    hold ids
    Prog.modify fun s => { s with inFlight := some n }
    operation n ids

def fire (n : Nat) : Code Unit := do
  Prog.modify fun s => { s with timer := none }
  startFlush n

def cancelTimer : Code Unit := do
  let s ← Prog.read
  match s.timer with
  | none => pure ()
  | some handle => do
      let _ ← Prog.ask (I := ports) (PortCall.clearTimeout handle)
      Prog.modify fun s => { s with timer := none }

/-- The last flush of a shutdown. -/
def flushRest : Code Unit := do
  let s ← Prog.read
  if s.dirtyIds.isEmpty then pure ()
  else do
    let ids ← takeDirtySnapshot
    hold ids
    match ← flushStore Site.finishShutdown ids with
    | Except.ok _ => release ids
    | Except.error _ => do
        putBack ids
        release ids
        throw ()

def finishShutdown : Code Unit := do
  let s ← Prog.read
  match s.inFlight with
  | some k => do
      let _ ← Prog.ask (I := ports) (PortCall.inFlight k)
      flushRest
  | none => flushRest

def shutdown (n : Nat) : Code Unit := do
  let s ← Prog.read
  match s.shutdownPromise with
  | some k => do
      match ← Prog.ask (I := ports) (PortCall.shutdownPromise k) with
      | Except.ok _ => pure ()
      | Except.error _ => throw ()
  | none => do
      Prog.modify fun s => { s with accepting := false }
      cancelTimer
      Prog.modify fun s => { s with shutdownPromise := some n }
      finishShutdown

/-!
## The tracker and its ports

Marks, timers and shutdowns come in any order.  The scheduler does not throw
and a timer that was cleared does not fire; the clock and the store may fail.
-/

def boundary : PortCall -> Boundary
  | PortCall.setTimeout => Boundary.sync
  | PortCall.clearTimeout _ => Boundary.sync
  | PortCall.now => Boundary.sync
  | PortCall.microtask _ => Boundary.await
  | PortCall.flushActivity _ _ _ => Boundary.await
  | PortCall.inFlight _ => Boundary.await
  | PortCall.shutdownPromise _ => Boundary.await

def body (n : Nat) : Op -> Code Unit
  | Op.mark tabId => mark tabId
  | Op.fire _ => fire n
  | Op.shutdown => shutdown n

def admits (s : State) : Op -> Prop
  | Op.fire handle => handle ∈ s.armed
  | _ => True

def enter (n : Nat) (o : Op) (s : State) : State :=
  match o with
  | Op.mark tabId => if s.accepting then s.record (Entry.marked tabId) else s
  | Op.fire handle =>
      { s with armed := s.armed.filter fun h => decide (h ≠ handle) }
  | Op.shutdown => s.record (Entry.shutdown n)

def issue (n : Nat) (c : PortCall) (s : State) : State :=
  match c with
  | PortCall.clearTimeout handle =>
      { s with armed := s.armed.filter fun h => decide (h ≠ handle) }
  | PortCall.flushActivity _ ids _ => s.record (Entry.flush n ids)
  | _ => s

def allowed (s : State) (_ : Nat) : (c : PortCall) -> PortReply c -> Prop
  | PortCall.setTimeout, handle => handle ∉ s.armed
  | PortCall.inFlight k, _ => exists o res, Entry.ended k o res ∈ s.log
  | PortCall.shutdownPromise k, res =>
      Entry.ended k Op.shutdown res ∈ s.log
  | _, _ => True

def reply (n : Nat) : (c : PortCall) -> PortReply c -> State -> State
  | PortCall.setTimeout, handle, s =>
      { s with armed := s.armed ++ [handle] }
  | PortCall.flushActivity _ _ _, Except.ok _, s => s.record (Entry.flushed n)
  | PortCall.flushActivity _ _ _, Except.error _, s => s.record (Entry.failed n)
  | _, _, s => s

def tracker : Machine State ports Unit Unit Op where
  body := body
  boundary := boundary
  admits := admits
  enter := enter
  issue := issue
  allowed := allowed
  reply := reply
  leave n o res s := s.record (Entry.ended n o res)
  env _ _ := False

def Run (cfg : Config State ports Unit Unit Op) : Prop :=
  Reachable tracker State.initial cfg

end ActivityTracker
end Server
end FlanTerminal
