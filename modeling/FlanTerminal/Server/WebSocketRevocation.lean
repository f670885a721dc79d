import FlanTerminal.Foundation.Lift
import FlanTerminal.Foundation.Trace
import FlanTerminal.Foundation.Triple
import FlanTerminal.Server.WebSocketAuthIndexSafety

/-!
# Sockets that are closed with their session

The index runs here among sockets that have a state of their own.  A socket is
open until it is lost from the other side, or until a call to close or to
terminate it succeeds; such a call may as well throw, and may leave the socket
open.  Once a socket is not open its listeners can fire.

The calls in progress form a stack, and the call on top of it is the one that
is answered.
-/

namespace FlanTerminal
namespace Server
namespace WebSocketAuthIndex
namespace Revocation

open Foundation

/-- What happens in a run, with the index and the sockets that are not open
where an operation starts and where it ends. -/
inductive Event where
  | entered (n : Nat) (o : Op) (index : Index) (closed : List Nat)
  | called (n : Nat) (c : PortCall)
  | asked (n : Nat) (authority : ApplicationSessionAuthority) (active : Bool)
  | ended (n : Nat) (o : Op) (index : Index) (closed : List Nat)
  deriving DecidableEq

structure World where
  base : State
  /-- Sockets that the other side has closed. -/
  lost : List Nat
  /-- Sockets that a call has closed, each with the operation that called. -/
  shut : List (Nat × Nat)
  /-- The operations in progress, the innermost one first, each with the call
  that it waits for. -/
  calls : List (Nat × Option PortCall)
  trail : List Event

namespace World

def initial : World :=
  ⟨State.initial, [], [], [], []⟩

abbrev index (w : World) : Index :=
  w.base.index

/-- The sockets that are not open. -/
def closed (w : World) : List Nat :=
  w.lost ++ w.shut.map Prod.fst

def isOpen (w : World) (socket : Nat) : Bool :=
  decide (socket ∉ w.closed)

def setCall (w : World) (n : Nat) (c : Option PortCall) : World :=
  { w with calls := w.calls.map fun f => if f.1 = n then (n, c) else f }

def record (w : World) (e : Event) : World :=
  { w with trail := w.trail ++ [e] }

end World

def place : Place World State where
  view := World.base
  update f w := { w with base := f w.base }
  view_update _ _ := rfl
  update_id _ := rfl

def Closes (c : PortCall) (socket : Nat) : Prop :=
  c = PortCall.close socket ∨ c = PortCall.terminate socket

inductive Happens : World -> World -> Prop where
  /-- Nothing runs. -/
  | lose {w : World} (socket : Nat) : w.base.active = [] ->
      Happens w { w with lost := socket :: w.lost }
  /-- The call on top of the stack closes its socket. -/
  | shut {w : World} (n socket : Nat) (c : PortCall) :
      w.calls.head? = some (n, some c) -> Closes c socket ->
      Happens w { w with shut := (socket, n) :: w.shut }

/-- Operations on top of others are those of listeners and of the
authentication; a listener fires when its socket is not open. -/
def admits (w : World) : Op -> Prop
  | Op.registerIfActive _ _ _ => w.base.active = []
  | Op.unregister socket => w.base.active = [] ∨ socket ∈ w.closed
  | Op.closeSession _ => True
  | Op.closeAuthenticationRequired _ => True
  | Op.sweepExpired => w.base.active = []
  | Op.dispose => w.base.active = []

def watched (options : Options) :
    Machine World ports Empty (Option Bool) Op where
  body n o := (body options n o).lift place
  boundary := boundary
  admits := admits
  enter n o w :=
    { w with
      base := (alone options).enter n o w.base
      calls := (n, none) :: w.calls
      trail := w.trail ++ [Event.entered n o w.index w.closed] }
  issue n c w :=
    if boundary c = Boundary.sync then w
    else (w.setCall n (some c)).record (Event.called n c)
  allowed w n
    | PortCall.isOpen socket, r => r = w.isOpen socket
    | PortCall.verdict _, _ => True
    | PortCall.listen _ _, _ => True
    | PortCall.unlisten _ _, _ => True
    | c, _ => w.calls.head? = some (n, some c)
  reply n
    | PortCall.isOpen _, _, w => w
    | PortCall.verdict authority, active, w =>
        w.record (Event.asked n authority active)
    | PortCall.listen _ _, _, w => w
    | PortCall.unlisten _ _, _, w => w
    | _, _, w => w.setCall n none
  leave n o res w :=
    { w with
      base := (alone options).leave n o res w.base
      calls := w.calls.filter fun f => decide (f.1 ≠ n)
      trail := w.trail ++ [Event.ended n o w.index w.closed] }
  env := Happens

def Run (options : Options)
    (cfg : Config World ports Empty (Option Bool) Op) : Prop :=
  Reachable (watched options) World.initial cfg

end Revocation
end WebSocketAuthIndex
end Server
end FlanTerminal
