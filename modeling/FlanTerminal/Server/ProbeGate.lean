import Mathlib.Data.Finset.Card
import Mathlib.Data.Finset.Range
import Mathlib.Logic.Function.Basic
import Mathlib.Logic.Relation
import Mathlib.Tactic.Simps.Basic
import FlanTerminal.Foundation.Trace

/-!
# Probes with a bounded number of permits

A probe of the administration page waits for a permit, runs its operation and
gives the permit back.  It reports a timeout when its timer fires first.  Then
its operation may still be running, and keeps the permit until it settles.

A probe, its waiter and its lease go by one number, the order in which the
probes have been made.
-/

namespace FlanTerminal
namespace Server
namespace ProbeGate

open Foundation

/-- `cancelled` and `granted` are fields of the waiter; `released` is the
variable of the closure that gives the permit back. -/
structure ProbeWaiter where
  cancelled : Bool
  granted : Bool
  released : Bool
  deriving DecidableEq

structure Probe where
  timer : Bool
  started : Bool
  returned : Bool
  deriving DecidableEq

/-- The job of a probe that is next in the queue. -/
inductive Stage where
  | idle
  /-- The promise of the grant is fulfilled. -/
  | granted
  /-- `Promise.resolve().then(operation)`. -/
  | starting
  /-- The operation has been called. -/
  | running
  | done
  deriving DecidableEq

inductive Outcome (value error : Type) where
  | resolved (v : value)
  | rejected (e : error)
  | timedOut
  deriving DecidableEq

inductive Entry (value error : Type) where
  | acquired (n : Nat)
  | cancelled (n : Nat)
  | granted (n : Nat)
  | released (n : Nat)
  /-- The callback of the grant has found the probe still open. -/
  | began (n : Nat)
  | invoked (n : Nat)
  | settled (n : Nat) (res : Except error value)
  | reported (n : Nat) (outcome : Outcome value error)
  deriving DecidableEq

structure State (value error : Type) where
  active : Int
  waiters : List Nat
  waiter : Nat -> ProbeWaiter
  probe : Nat -> Probe
  stage : Nat -> Stage
  /-- The probes whose timer has been set.  It may fire later than it was
  cleared, when clearing it has failed. -/
  timers : List Nat
  next : Nat
  log : List (Entry value error)

variable {value error : Type}

namespace State

def initial : State value error :=
  ⟨0, [], fun _ => ⟨false, false, false⟩, fun _ => ⟨false, false, false⟩,
    fun _ => Stage.idle, [], 0, []⟩

@[simps] def record (s : State value error) (e : Entry value error) :
    State value error :=
  { s with log := s.log ++ [e] }

@[simps] def setWaiter (s : State value error) (n : Nat) (w : ProbeWaiter) :
    State value error :=
  { s with waiter := Function.update s.waiter n w }

@[simps] def setProbe (s : State value error) (n : Nat) (p : Probe) :
    State value error :=
  { s with probe := Function.update s.probe n p }

@[simps] def setStage (s : State value error) (n : Nat) (stage : Stage) :
    State value error :=
  { s with stage := Function.update s.stage n stage }

end State

/-!
## The gate
-/

section Gate

variable (capacity : Nat)

/-- The body of the loop in `drain`. -/
def grant (n : Nat) (s : State value error) : State value error :=
  ((({ s with active := s.active + 1 }).setWaiter n
    { s.waiter n with granted := true }).setStage n Stage.granted).record
      (Entry.granted n)

def drainFrom : List Nat -> State value error -> State value error
  | [], s => { s with waiters := [] }
  | n :: rest, s =>
      if s.active < capacity then
        if (s.waiter n).cancelled = true then drainFrom rest s
        else drainFrom rest (grant n s)
      else { s with waiters := n :: rest }

def drain (s : State value error) : State value error :=
  drainFrom capacity s.waiters s

def release (n : Nat) (s : State value error) : State value error :=
  if (s.waiter n).released = true then s
  else
    drain capacity ((({ s with active := s.active - 1 }).setWaiter n
      { s.waiter n with released := true }).record (Entry.released n))

def acquire (n : Nat) (s : State value error) : State value error :=
  drain capacity
    (({ s with waiters := s.waiters ++ [n] }).record (Entry.acquired n))

def cancel (n : Nat) (s : State value error) : State value error :=
  if (s.waiter n).cancelled = true then s
  else
    let s := (s.setWaiter n { s.waiter n with cancelled := true }).record
      (Entry.cancelled n)
    if (s.waiter n).granted = true then release capacity n s
    else { s with waiters := s.waiters.erase n }

/-!
## The probe
-/

/-- An exception of `clearTimeout` is ignored. -/
def finish (n : Nat) (outcome : Outcome value error) (s : State value error) :
    State value error :=
  if (s.probe n).returned = true then s
  else
    (s.setProbe n { s.probe n with timer := false, returned := true }).record
      (Entry.reported n outcome)

/-- A new probe, for which `setTimeout` throws or returns a handle. -/
def boundedProbe (threw : Bool) (s : State value error) : State value error :=
  let n := s.next
  let s := { s with next := s.next + 1 }
  if threw then s.record (Entry.reported n Outcome.timedOut)
  else
    acquire capacity n
      (({ s with timers := n :: s.timers }).setProbe n
        { s.probe n with timer := true })

/-- The callback of the timer. -/
def fire (n : Nat) (s : State value error) : State value error :=
  let s := s.setProbe n { s.probe n with timer := false }
  let s := if (s.probe n).started = true then s else cancel capacity n s
  finish n Outcome.timedOut s

/-- The callback of the grant. -/
def react (n : Nat) (s : State value error) : State value error :=
  if (s.probe n).returned = true then
    release capacity n (s.setStage n Stage.done)
  else
    ((s.setStage n Stage.starting).setProbe n
      { s.probe n with started := true }).record (Entry.began n)

def invoke (n : Nat) (s : State value error) : State value error :=
  (s.setStage n Stage.running).record (Entry.invoked n)

def outcomeOf : Except error value -> Outcome value error
  | Except.ok v => Outcome.resolved v
  | Except.error e => Outcome.rejected e

/-- The callbacks of the operation. -/
def settle (n : Nat) (res : Except error value) (s : State value error) :
    State value error :=
  finish n (outcomeOf res)
    (release capacity n ((s.setStage n Stage.done).record
      (Entry.settled n res)))

/-- Probes are made, timers fire, and jobs run, in any order.  An operation
that never settles takes no further step. -/
inductive Step : State value error -> State value error -> Prop where
  | probe {s} (threw : Bool) : Step s (boundedProbe capacity threw s)
  | fire {s n} : n ∈ s.timers -> Step s (fire capacity n s)
  | react {s n} : s.stage n = Stage.granted -> Step s (react capacity n s)
  | invoke {s n} : s.stage n = Stage.starting -> Step s (invoke n s)
  | settle {s n} (res : Except error value) : s.stage n = Stage.running ->
      Step s (settle capacity n res s)

def Reachable (s : State value error) : Prop :=
  Relation.ReflTransGen (Step capacity) State.initial s

end Gate

end ProbeGate
end Server
end FlanTerminal
