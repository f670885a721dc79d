import Mathlib.Logic.Relation

/-!
# Programs of a single-threaded event loop

A program of an event loop runs synchronous code on a shared state and, from
time to time, calls something outside itself: a port, a clock, a promise it
awaits.  This module gives such programs as trees.  An interface lists the
calls and the type of the reply to each of them; a program is then a value, an
exception, a synchronous update of the shared state, or a call together with
the continuation that receives the reply.

The trees form a monad with exceptions, so that a program is written in
`do` notation next to the code it models.
-/

namespace FlanTerminal
namespace Foundation

/-- The calls a program can make, with the type of the reply to each call. -/
structure Interface where
  Call : Type
  Reply : Call -> Type

inductive Prog (state : Type) (I : Interface) (error value : Type) : Type where
  | ret (a : value)
  | raise (e : error)
  /-- Update the shared state; the continuation sees the state before. -/
  | act (f : state -> state) (k : state -> Prog state I error value)
  | call (c : I.Call) (k : I.Reply c -> Prog state I error value)

namespace Prog

variable {state : Type} {I : Interface} {error value result : Type}

def bind : Prog state I error value ->
    (value -> Prog state I error result) -> Prog state I error result
  | ret a, g => g a
  | raise e, _ => raise e
  | act f k, g => act f (fun s => bind (k s) g)
  | call c k, g => call c (fun r => bind (k r) g)

/-- Run a handler on the exception a program ends with. -/
def handle : Prog state I error value ->
    (error -> Prog state I error value) -> Prog state I error value
  | ret a, _ => ret a
  | raise e, h => h e
  | act f k, h => act f (fun s => handle (k s) h)
  | call c k, h => call c (fun r => handle (k r) h)

/-- The `finally` clause: `q` runs after `p`, however it ends. -/
def always (p : Prog state I error value) (q : Prog state I error Unit) :
    Prog state I error value :=
  match p with
  | ret a => bind q (fun _ => ret a)
  | raise e => bind q (fun _ => raise e)
  | act f k => act f (fun s => always (k s) q)
  | call c k => call c (fun r => always (k r) q)

instance : Monad (Prog state I error) where
  pure := ret
  bind := bind

instance : MonadExceptOf error (Prog state I error) where
  throw := raise
  tryCatch := handle

def read : Prog state I error state :=
  act id ret

def modify (f : state -> state) : Prog state I error Unit :=
  act f (fun _ => ret ())

def ask (c : I.Call) : Prog state I error (I.Reply c) :=
  call c ret

/-!
## Computation rules

The monad operations compute on the constructors.  These equations turn a
program written in `do` notation into its tree.
-/

@[simp] theorem pure_eq (a : value) :
    (pure a : Prog state I error value) = ret a := rfl

@[simp] theorem throw_eq (e : error) :
    (throw e : Prog state I error value) = raise e := rfl

@[simp] theorem ret_bind (a : value)
    (g : value -> Prog state I error result) :
    (ret a : Prog state I error value) >>= g = g a := rfl

@[simp] theorem raise_bind (e : error)
    (g : value -> Prog state I error result) :
    (raise e : Prog state I error value) >>= g = raise e := rfl

@[simp] theorem act_bind (f : state -> state)
    (k : state -> Prog state I error value)
    (g : value -> Prog state I error result) :
    act f k >>= g = act f (fun s => k s >>= g) := rfl

@[simp] theorem call_bind (c : I.Call)
    (k : I.Reply c -> Prog state I error value)
    (g : value -> Prog state I error result) :
    call c k >>= g = call c (fun r => k r >>= g) := rfl

@[simp] theorem tryCatch_ret (a : value)
    (h : error -> Prog state I error value) :
    tryCatch (ret a : Prog state I error value) h = ret a := rfl

@[simp] theorem tryCatch_raise (e : error)
    (h : error -> Prog state I error value) :
    tryCatch (raise e : Prog state I error value) h = h e := rfl

@[simp] theorem tryCatch_act (f : state -> state)
    (k : state -> Prog state I error value)
    (h : error -> Prog state I error value) :
    tryCatch (act f k) h = act f (fun s => tryCatch (k s) h) := rfl

@[simp] theorem tryCatch_call (c : I.Call)
    (k : I.Reply c -> Prog state I error value)
    (h : error -> Prog state I error value) :
    tryCatch (call c k) h = call c (fun r => tryCatch (k r) h) := rfl

@[simp] theorem read_bind (g : state -> Prog state I error result) :
    read >>= g = act id g := rfl

@[simp] theorem modify_bind (f : state -> state)
    (g : Unit -> Prog state I error result) :
    modify f >>= g = act f (fun _ => g ()) := rfl

@[simp] theorem ask_bind (c : I.Call)
    (g : I.Reply c -> Prog state I error result) :
    ask c >>= g = call c g := rfl

theorem bind_ret (p : Prog state I error value) : p >>= ret = p := by
  induction p with
  | ret a => rfl
  | raise e => rfl
  | act f k ih => exact congrArg (act f) (funext ih)
  | call c k ih => exact congrArg (call c) (funext ih)

end Prog

end Foundation
end FlanTerminal
