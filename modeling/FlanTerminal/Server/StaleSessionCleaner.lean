import FlanTerminal.Server.SessionManager

/-!
# The cleaner of stale sessions

A timer, or an administrator, starts a run over the tabs.  While a run is in
flight no timer is set, and the end of the run sets the next one.  Settings,
tabs, the reader of the eligibility and the session manager are ports.

The number of an operation stands for the run it starts, and a number stands
for the registration of a timer.
-/

namespace FlanTerminal
namespace Server
namespace StaleSessionCleaner

open Foundation
open SessionManager (EligibilityRequest EligibilitySnapshot)

def hourMs : Int := 60 * 60 * 1000

def maxThresholdHours : Int := 8760

def maxSessionsLimit : Nat := 20

def maxSafeInteger : Int := 2 ^ 53 - 1

/-- The last time a `Date` can show. -/
def maxTime : Int := 8640000000000000

/-- What the constructor accepts. -/
structure Options where
  maxSessions : Nat
  intervalMs : Nat
  sessions : 1 ≤ maxSessions ∧ maxSessions ≤ maxSessionsLimit
  interval : 1 ≤ intervalMs ∧ (intervalMs : Int) ≤ maxSafeInteger

/-- What `now` returns; without a value, a number that is not an integer. -/
inductive Reading where
  | threw
  | number (ms : Option Int)
  deriving DecidableEq

/-- What `clearTimeout` did.  When it throws, the timer may still be there. -/
inductive Cleared where
  | ok
  | threw (gone : Bool)
  deriving DecidableEq

structure CleanupResult where
  disabled : Bool
  examined : Nat
  terminated : Nat
  skipped : Nat
  failed : Nat
  startedAt : Int
  finishedAt : Int
  deriving DecidableEq

inductive CleanupDependencyFailure where
  | settings_unavailable
  | tabs_unavailable
  deriving DecidableEq

structure CleanupStatus where
  enabled : Bool
  running : Bool
  lastRunAt : Option Int
  dependencyFailure : Option CleanupDependencyFailure
  deriving DecidableEq

inductive Thrown where
  /-- `Cleanup unavailable`. -/
  | unavailable
  | disabled
  /-- `Cleanup has not run`. -/
  | notRun
  /-- `now` has thrown. -/
  | clock
  /-- `toISOString` has thrown. -/
  | range
  /-- What the eligibility reader or the session manager has thrown. -/
  | port
  deriving DecidableEq

inductive PortCall where
  | now
  | settings
  | tabs
  | setTimeout (registration : Nat) (delayMs : Nat)
  | clearTimeout (registration : Nat)
  | read (request : EligibilityRequest)
  | terminateIfStale (id : JsString) (snapshot : EligibilitySnapshot)
  /-- The promise of the own run is settled, and its reaction is to come. -/
  | settledRun (res : Except Thrown CleanupResult)
  /-- The promise of a run. -/
  | promise (run : Nat)
  /-- `shutdownPromise`, made from the promise of a run or fulfilled. -/
  | shutdownPromise (run : Option Nat)
  deriving DecidableEq

/-- The threshold is absent when `snapshot` throws, or is not an integer; an
outcome is absent when it is not a string. -/
abbrev PortReply : PortCall -> Type
  | PortCall.now => Reading
  | PortCall.settings => Option Int
  | PortCall.tabs => Option (List JsString)
  | PortCall.setTimeout _ _ => Bool
  | PortCall.clearTimeout _ => Cleared
  | PortCall.read _ => Option EligibilitySnapshot
  | PortCall.terminateIfStale _ _ => Option (Option JsString)
  | PortCall.settledRun _ => Unit
  | PortCall.promise _ => Except Thrown CleanupResult
  | PortCall.shutdownPromise _ => Unit

abbrev ports : Interface := ⟨PortCall, PortReply⟩

inductive Entry where
  | started (n : Nat)
  | listed (n : Nat) (tabs : Nat)
  | completed (n : Nat) (res : Except Thrown CleanupResult)
  /-- The reaction to the promise of the run begins. -/
  | finished (n : Nat)
  | shutdown
  /-- A caller of `shutdown` sees the promise fulfilled. -/
  | resolved
  deriving DecidableEq

structure Timers where
  timer : Option Nat
  /-- The registrations whose `handle` is defined. -/
  handle : Nat -> Bool
  cancelling : Nat -> Bool
  next : Nat
  armed : List Nat
  thrown : Bool

structure State where
  timers : Timers
  inFlight : Option Nat
  inFlightThresholdHours : Option Int
  inFlightDependencyFailure : Option CleanupDependencyFailure
  lastResult : Option CleanupResult
  lastDependencyFailure : Option CleanupDependencyFailure
  shutdownPromise : Option (Option Nat)
  shuttingDown : Bool
  log : List Entry

def Timers.empty : Timers :=
  ⟨none, fun _ => false, fun _ => false, 0, [], false⟩

def State.empty : State :=
  ⟨Timers.empty, none, none, none, none, none, none, false, []⟩

def State.record (s : State) (e : Entry) : State :=
  { s with log := s.log ++ [e] }

def State.setTimers (s : State) (f : Timers -> Timers) : State :=
  { s with timers := f s.timers }

inductive CleanupThreshold where
  | available (hours : Int)
  | unavailable
  deriving DecidableEq

inductive Value where
  | result (r : CleanupResult)
  | status (s : CleanupStatus)
  | void
  deriving DecidableEq

abbrev Code := Prog State ports Thrown

/-!
## Ports
-/

def validNow : Code Int := do
  match ← Prog.ask (I := ports) PortCall.now with
  | Reading.threw => throw Thrown.clock
  | Reading.number none => pure 0
  | Reading.number (some ms) =>
      pure (if -maxSafeInteger ≤ ms ∧ ms ≤ maxSafeInteger then ms else 0)

/-- The text is left as the time it shows. -/
def toISOString (ms : Int) : Code Int :=
  if -maxTime ≤ ms ∧ ms ≤ maxTime then pure ms else throw Thrown.range

def thresholdOf : Option Int -> CleanupThreshold
  | none => CleanupThreshold.unavailable
  | some value =>
      if 0 ≤ value ∧ value ≤ maxThresholdHours then
        CleanupThreshold.available value
      else CleanupThreshold.unavailable

def thresholdSnapshot : Code CleanupThreshold := do
  let value ← Prog.ask (I := ports) PortCall.settings
  pure (thresholdOf value)

/-!
## The timer
-/

/-- What follows `setTimeout`. -/
def keepHandle (r : Nat) : Bool -> Code Unit
  | true => Prog.modify fun s => s.setTimers fun t =>
      { t with handle := Function.update t.handle r true }
  | false => Prog.modify fun s => s.setTimers fun t =>
      if t.timer = some r then { t with timer := none } else t

def schedule (o : Options) : Code Unit := do
  let s ← Prog.read
  if s.shuttingDown = true ∨ s.timers.timer ≠ none then pure ()
  else
    let r := s.timers.next
    Prog.modify fun s => s.setTimers fun t =>
      { t with
        timer := some r
        handle := Function.update t.handle r false
        cancelling := Function.update t.cancelling r false
        next := r + 1 }
    let set ← Prog.ask (I := ports) (PortCall.setTimeout r o.intervalMs)
    keepHandle r set

/-- What follows `clearTimeout`. -/
def dropTimer (r : Nat) : Cleared -> Code Unit
  | Cleared.threw _ => Prog.modify fun s => s.setTimers fun t =>
      { t with cancelling := Function.update t.cancelling r false }
  | Cleared.ok => Prog.modify fun s => s.setTimers fun t =>
      if t.timer = some r then { t with timer := none } else t

def cancelTimer : Code Unit := do
  let s ← Prog.read
  match s.timers.timer with
  | none => pure ()
  | some r =>
      if s.timers.handle r = true then
        Prog.modify fun s => s.setTimers fun t =>
          { t with cancelling := Function.update t.cancelling r true }
        let cleared ← Prog.ask (I := ports) (PortCall.clearTimeout r)
        dropTimer r cleared
      else pure ()

/-!
## A run
-/

structure Counts where
  examined : Nat
  terminated : Nat
  skipped : Nat
  failed : Nat
  deriving DecidableEq

def result (disabled : Bool) (counts : Counts) (startedAt : Int) :
    Code CleanupResult := do
  let finishedMs ← validNow
  let finishedAt ← toISOString finishedMs
  pure ⟨disabled, counts.examined, counts.terminated, counts.skipped,
    counts.failed, startedAt, finishedAt⟩

inductive Verdict where
  | terminated
  | skipped
  | failed
  deriving DecidableEq

def Counts.add (counts : Counts) : Verdict -> Counts
  | Verdict.terminated =>
      { counts with terminated := counts.terminated + 1 }
  | Verdict.skipped => { counts with skipped := counts.skipped + 1 }
  | Verdict.failed => { counts with failed := counts.failed + 1 }

/-- `startsWith` throws when the outcome is not a string. -/
def verdictOf : Option (Option JsString) -> Code Verdict
  | none => throw Thrown.port
  | some none => throw Thrown.port
  | some (some outcome) =>
      if outcome = js "terminated" then pure Verdict.terminated
      else if (js "skipped:").isPrefixOf outcome then pure Verdict.skipped
      else pure Verdict.failed

def terminateEligible (id : JsString) :
    Option EligibilitySnapshot -> Code Verdict
  | none => throw Thrown.port
  | some snapshot =>
      if snapshot.eligible = true then do
        let outcome ← Prog.ask (I := ports)
          (PortCall.terminateIfStale id snapshot)
        verdictOf outcome
      else pure Verdict.skipped

def examineTab (thresholdMs cutoffMs : Int) (id : JsString) : Code Verdict := do
  let snapshot ← Prog.ask (I := ports)
    (PortCall.read ⟨id, thresholdMs, cutoffMs⟩)
  terminateEligible id snapshot

def examine (thresholdMs cutoffMs : Int) :
    List JsString -> Counts -> Code Counts
  | [], counts => pure counts
  | id :: rest, counts => do
      let verdict ← tryCatch (examineTab thresholdMs cutoffMs id)
        fun _ => pure Verdict.failed
      examine thresholdMs cutoffMs rest
        ({ counts with examined := counts.examined + 1 }.add verdict)

def executeOver (o : Options) (thresholdMs cutoffMs startedAt : Int) :
    Option (List JsString) -> Code CleanupResult
  | none => do
      Prog.modify fun s =>
        { s with
          inFlightDependencyFailure :=
            some CleanupDependencyFailure.tabs_unavailable }
      result false ⟨0, 0, 0, 1⟩ startedAt
  | some tabs => do
      let counts ← examine thresholdMs cutoffMs (tabs.take o.maxSessions)
        ⟨0, 0, 0, 0⟩
      result false counts startedAt

def execute (o : Options) (threshold : CleanupThreshold) :
    Code CleanupResult := do
  let startedMs ← validNow
  let startedAt ← toISOString startedMs
  match threshold with
  | CleanupThreshold.unavailable => result false ⟨0, 0, 0, 1⟩ startedAt
  | CleanupThreshold.available hours =>
      if hours = 0 then result true ⟨0, 0, 0, 0⟩ startedAt
      else
        let tabs ← Prog.ask (I := ports) PortCall.tabs
        executeOver o (hours * hourMs) (startedMs - hours * hourMs) startedAt
          tabs

/-- What `finishRun` does to the fields. -/
def State.settle (s : State) (res : Except Thrown CleanupResult) : State :=
  let s := match res with
    | Except.ok r =>
        { s with
          lastResult := some r
          lastDependencyFailure := s.inFlightDependencyFailure }
    | Except.error _ => s
  { s with
    inFlight := none
    inFlightThresholdHours := none
    inFlightDependencyFailure := none }

def finishRun (o : Options) (n : Nat) (res : Except Thrown CleanupResult) :
    Code Unit := do
  let s ← Prog.read
  if s.inFlight = some n then
    Prog.modify fun s => s.settle res
    schedule o
  else pure ()

def hoursOf : CleanupThreshold -> Option Int
  | CleanupThreshold.available hours => some hours
  | CleanupThreshold.unavailable => none

def failureOf : CleanupThreshold -> Option CleanupDependencyFailure
  | CleanupThreshold.available _ => none
  | CleanupThreshold.unavailable =>
      some CleanupDependencyFailure.settings_unavailable

def ofPromise : Except Thrown CleanupResult -> Code Value
  | Except.ok r => pure (Value.result r)
  | Except.error e => throw e

def awaitRun (k : Nat) : Code Value := do
  let res ← Prog.ask (I := ports) (PortCall.promise k)
  ofPromise res

def runToEnd (o : Options) (n : Nat) (threshold : CleanupThreshold) :
    Code Value := do
  let res ← tryCatch (Except.ok <$> execute o threshold)
    fun e => pure (Except.error e)
  Prog.ask (I := ports) (PortCall.settledRun res)
  finishRun o n res
  ofPromise res

/-- The promise of the run is assigned to `inFlight` here: `execute` does not
read the field, and nothing else runs before its first `await`. -/
def begin (n : Nat) (threshold : CleanupThreshold) (s : State) : State :=
  { s with
    inFlightThresholdHours := hoursOf threshold
    inFlightDependencyFailure := failureOf threshold
    inFlight := some n
    log := s.log ++ [Entry.started n] }

def startRun (o : Options) (n : Nat) (threshold : CleanupThreshold) :
    Code Value := do
  let s ← Prog.read
  match s.inFlight with
  | some k => awaitRun k
  | none => do
      cancelTimer
      Prog.modify (begin n threshold)
      runToEnd o n threshold

/-!
## Operations
-/

def runNow (o : Options) (n : Nat) : Code Value := do
  let s ← Prog.read
  if s.shuttingDown = true then throw Thrown.unavailable
  else match s.inFlight with
  | some k =>
      if s.inFlightThresholdHours = some 0 ∧
          s.inFlightDependencyFailure = none then
        throw Thrown.disabled
      else awaitRun k
  | none => do
      let threshold ← thresholdSnapshot
      if threshold = CleanupThreshold.available 0 then throw Thrown.disabled
      else startRun o n threshold

def waitForIdle : Code Value := do
  let s ← Prog.read
  match s.inFlight, s.lastResult with
  | some k, _ => awaitRun k
  | none, some r => pure (Value.result r)
  | none, none => throw Thrown.notRun

def statusOf (s : State) (threshold : CleanupThreshold) : CleanupStatus where
  enabled := match threshold with
    | CleanupThreshold.available hours => decide (0 < hours)
    | CleanupThreshold.unavailable => false
  running := s.inFlight.isSome
  lastRunAt := s.lastResult.map CleanupResult.startedAt
  dependencyFailure := match threshold with
    | CleanupThreshold.available _ =>
        if s.inFlight.isSome then s.inFlightDependencyFailure
        else s.lastDependencyFailure
    | CleanupThreshold.unavailable =>
        some CleanupDependencyFailure.settings_unavailable

def status : Code Value := do
  let threshold ← thresholdSnapshot
  let s ← Prog.read
  pure (Value.status (statusOf s threshold))

def awaitShutdown (current : Option Nat) : Code Value := do
  Prog.ask (I := ports) (PortCall.shutdownPromise current)
  pure Value.void

def shutdown : Code Value := do
  let s ← Prog.read
  match s.shutdownPromise with
  | some current => awaitShutdown current
  | none => do
      let current := s.inFlight
      Prog.modify fun s =>
        { s with
          shuttingDown := true
          shutdownPromise := some current
          log := s.log ++ [Entry.shutdown] }
      cancelTimer
      awaitShutdown current

def fireTimer (o : Options) (n r : Nat) : Code Value := do
  let s ← Prog.read
  if s.timers.timer = some r then
    Prog.modify fun s => s.setTimers fun t => { t with timer := none }
    if s.timers.cancelling r = true ∨ s.shuttingDown = true then pure Value.void
    else
      let threshold ← thresholdSnapshot
      startRun o n threshold
  else pure Value.void

/-- What remains of the constructor when the options are valid. -/
def construct (o : Options) : Code Value := do
  schedule o
  pure Value.void

/-!
## The machine

A timer may fire more than once, and after it was cleared.  The scheduler does
not call back while a timer is set or cleared.
-/

inductive Op where
  | runNow
  | waitForIdle
  | status
  | shutdown
  | fire (registration : Nat)
  deriving DecidableEq

def body (o : Options) (n : Nat) : Op -> Code Value
  | Op.runNow => runNow o n
  | Op.waitForIdle => waitForIdle
  | Op.status => status
  | Op.shutdown => shutdown
  | Op.fire r => fireTimer o n r

def boundary : PortCall -> Boundary
  | PortCall.read _ => Boundary.await
  | PortCall.terminateIfStale _ _ => Boundary.await
  | PortCall.settledRun _ => Boundary.await
  | PortCall.promise _ => Boundary.await
  | PortCall.shutdownPromise _ => Boundary.await
  | _ => Boundary.sync

/-- The scheduler gives up a timer when it fires. -/
def enter (_ : Nat) : Op -> State -> State
  | Op.fire r, s => s.setTimers fun t => { t with armed := t.armed.erase r }
  | _, s => s

/-- The clock decides what `now` returns.  A promise made from the one of a run
is settled after it. -/
def allowed (clock : Reading -> Prop) (s : State) (_ : Nat) :
    (c : PortCall) -> PortReply c -> Prop
  | PortCall.now, r => clock r
  | PortCall.promise k, res => Entry.completed k res ∈ s.log
  | PortCall.shutdownPromise (some k), _ =>
      exists res, Entry.completed k res ∈ s.log
  | _, _ => True

def issue (n : Nat) : PortCall -> State -> State
  | PortCall.settledRun res, s => s.record (Entry.completed n res)
  | _, s => s

def reply (n : Nat) : (c : PortCall) -> PortReply c -> State -> State
  | PortCall.setTimeout r _, true, s => s.setTimers fun t =>
      { t with armed := r :: t.armed }
  | PortCall.setTimeout _ _, false, s => s.setTimers fun t =>
      { t with thrown := true }
  | PortCall.clearTimeout r, Cleared.ok, s => s.setTimers fun t =>
      { t with armed := t.armed.erase r }
  | PortCall.clearTimeout r, Cleared.threw gone, s => s.setTimers fun t =>
      { t with
        armed := if gone then t.armed.erase r else t.armed
        thrown := true }
  | PortCall.tabs, some tabs, s => s.record (Entry.listed n tabs.length)
  | PortCall.settledRun _, _, s => s.record (Entry.finished n)
  | _, _, s => s

def leave (_ : Nat) : Op -> Except Thrown Value -> State -> State
  | Op.shutdown, Except.ok _, s => s.record Entry.resolved
  | _, _, s => s

def cleaner (o : Options) (clock : Reading -> Prop) :
    Machine State ports Thrown Value Op where
  body := body o
  boundary := boundary
  admits s op := forall r, op = Op.fire r -> r < s.timers.next
  enter := enter
  issue := issue
  allowed := allowed clock
  reply := reply
  leave := leave
  env _ _ := False

def Constructed (o : Options) (clock : Reading -> Prop) (s : State) : Prop :=
  Seg (cleaner o clock) 0 (construct o) State.empty s
    (Outcome.done (Except.ok Value.void))

/-- The reading is taken for a time that `Date` can show, and one that is no
safe integer is taken for 0. -/
def Reading.IsTime : Reading -> Prop
  | threw => False
  | number none => True
  | number (some ms) => -maxSafeInteger ≤ ms ∧ ms ≤ maxSafeInteger ->
      -maxTime ≤ ms ∧ ms ≤ maxTime

end StaleSessionCleaner
end Server
end FlanTerminal
