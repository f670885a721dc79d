import Mathlib.Logic.Function.Basic
import FlanTerminal.Foundation.EventLoop
import FlanTerminal.Foundation.JsMap

/-!
# The keyed mutex

Operations on one key run one after the other.  Every call leaves a tail, a
promise that is fulfilled when the tail before it is and the gate of the call
has been opened; the next call on the key waits for it.  The map of tails holds
the last tail of each key.

The number of a call stands for the promises it makes, its gate and its tail.
-/

namespace FlanTerminal
namespace Server
namespace KeyedMutex

open Foundation

section Model

variable (key value error : Type)

inductive PortCall where
  /-- `await prior.catch(() => undefined)`; without a number, the promise is a
  fulfilled one. -/
  | wait (k : key) (prior : Option Nat)
  /-- The operation of the caller is called. -/
  | operation (k : key)
  /-- The promise that the operation has returned. -/
  | promise (k : key)

def PortCall.keyOf {key : Type} : PortCall key -> key
  | wait k _ => k
  | operation k => k
  | promise k => k

/-- An operation throws, or it returns a promise. -/
abbrev PortReply : PortCall key -> Type
  | PortCall.wait _ _ => Unit
  | PortCall.operation _ => Option error
  | PortCall.promise _ => Except error value

abbrev ports : Interface := ⟨PortCall key, PortReply key value error⟩

inductive Entry where
  | called (n : Nat) (k : key)
  | started (n : Nat) (k : key)
  /-- The operation has thrown, or its promise is settled. -/
  | finished (n : Nat) (res : Except error value)
  | returned (n : Nat) (res : Except error value)
  deriving DecidableEq

structure Mutex where
  tails : JsMap key Nat
  /-- The promise that a tail goes on from. -/
  prior : Nat -> Option Nat
  /-- The gates that are open. -/
  released : List Nat
  log : List (Entry key value error)

def Mutex.initial : Mutex key value error :=
  ⟨[], fun _ => none, [], []⟩

variable {key value error}

def Mutex.record (s : Mutex key value error) (e : Entry key value error) :
    Mutex key value error :=
  { s with log := s.log ++ [e] }

/-- `prior.catch(() => undefined).then(() => gate)` is fulfilled. -/
inductive Settled (s : Mutex key value error) : Nat -> Prop where
  | first {n : Nat} : n ∈ s.released -> s.prior n = none -> Settled s n
  | after {n p : Nat} : n ∈ s.released -> s.prior n = some p ->
      Settled s p -> Settled s n

end Model

section Code

variable {key value error : Type} [DecidableEq key]

abbrev Code (key value error : Type) :=
  Prog (Mutex key value error) (ports key value error) error

def awaitOperation (k : key) : Option error -> Code key value error value
  | some e => throw e
  | none => do
      match ← Prog.ask (I := ports key value error) (PortCall.promise k) with
      | Except.ok v => pure v
      | Except.error e => throw e

/-- `return await operation()`. -/
def runOperation (k : key) : Code key value error value := do
  let thrown ← Prog.ask (I := ports key value error) (PortCall.operation k)
  awaitOperation k thrown

/-- The `finally` clause of call `n`. -/
def release (n : Nat) (k : key) : Code key value error Unit := do
  Prog.modify fun s => { s with released := n :: s.released }
  let s ← Prog.read
  if s.tails.get k = some n then
    Prog.modify fun s => { s with tails := s.tails.delete k }
  else pure ()

def runExclusive (n : Nat) (k : key) : Code key value error value := do
  let s ← Prog.read
  let prior := s.tails.get k
  Prog.modify fun s =>
    { s with
      tails := s.tails.set k n
      prior := Function.update s.prior n prior }
  let _ ← Prog.ask (I := ports key value error) (PortCall.wait k prior)
  (runOperation k).always (release n k)

/-!
## The machine

Any call may be made at any time, also from inside an operation.
-/

def boundary : PortCall key -> Boundary
  | PortCall.wait _ _ => Boundary.await
  | PortCall.operation _ => Boundary.callback
  | PortCall.promise _ => Boundary.await

def issue (n : Nat) : PortCall key -> Mutex key value error ->
    Mutex key value error
  | PortCall.operation k, s => s.record (Entry.started n k)
  | _, s => s

def allowed (s : Mutex key value error) (_ : Nat) :
    (c : PortCall key) -> PortReply key value error c -> Prop
  | PortCall.wait _ (some p), _ => Settled s p
  | _, _ => True

def reply (n : Nat) : (c : PortCall key) -> PortReply key value error c ->
    Mutex key value error -> Mutex key value error
  | PortCall.operation _, some e, s =>
      s.record (Entry.finished n (Except.error e))
  | PortCall.promise _, res, s => s.record (Entry.finished n res)
  | _, _, s => s

def mutex : Machine (Mutex key value error) (ports key value error) error value
    key where
  body := runExclusive
  boundary := boundary
  admits _ _ := True
  enter n k s := s.record (Entry.called n k)
  issue := issue
  allowed := allowed
  reply := reply
  leave n _ res s := s.record (Entry.returned n res)
  env _ _ := False

end Code

end KeyedMutex
end Server
end FlanTerminal
