import FlanTerminal.Foundation.Alone

/-!
# Triples for a program that runs alone

What holds where a program ends, for all replies that its calls can get.  A
program ends with a value or with an exception, and a postcondition says what
holds after each.
-/

namespace FlanTerminal
namespace Foundation

/-- What can be replied to a call, and what a reply does to the state. -/
structure Solo (state : Type) (I : Interface) where
  allowed : state -> (c : I.Call) -> I.Reply c -> Prop
  reply : (c : I.Call) -> I.Reply c -> state -> state

namespace Solo

variable {state : Type} {I : Interface} {error value result : Type}

def after (W : Solo state I) (Q : Except error value -> state -> Prop) :
    Prog state I error value -> state -> Prop
  | Prog.ret a, s => Q (Except.ok a) s
  | Prog.raise e, s => Q (Except.error e) s
  | Prog.act f k, s => after W Q (k s) (f s)
  | Prog.call c k, s => forall r, W.allowed s c r ->
      after W Q (k r) (W.reply c r s)

/-- `M` after a value, `E` after an exception. -/
def ends (M : value -> state -> Prop) (E : error -> state -> Prop) :
    Except error value -> state -> Prop
  | Except.ok a => M a
  | Except.error e => E e

def triple (W : Solo state I) (P : state -> Prop)
    (p : Prog state I error value) (M : value -> state -> Prop)
    (E : error -> state -> Prop) : Prop :=
  forall s, P s -> W.after (ends M E) p s

variable {W : Solo state I} {P P' : state -> Prop}
variable {M M' : value -> state -> Prop} {E E' F : error -> state -> Prop}
variable {N : result -> state -> Prop}

theorem after_mono {Q Q' : Except error value -> state -> Prop}
    (h : forall res s, Q res s -> Q' res s) {p : Prog state I error value} :
    forall {s : state}, W.after Q p s -> W.after Q' p s := by
  induction p with
  | ret a => exact fun hp => h _ _ hp
  | raise e => exact fun hp => h _ _ hp
  | act f k ih => exact fun hp => ih _ hp
  | call c k ih => exact fun hp r hr => ih r (hp r hr)

theorem triple_mono (h : W.triple P' p M' E') (hP : forall s, P s -> P' s)
    (hM : forall a s, M' a s -> M a s) (hE : forall e s, E' e s -> E e s) :
    W.triple P p M E := by
  intro s hs
  refine after_mono ?_ (h s (hP s hs))
  intro res s' hres
  cases res with
  | ok a => exact hM a s' hres
  | error e => exact hE e s' hres

/-- What the precondition says apart from the state. -/
theorem triple_known {C : Prop} {p : Prog state I error value}
    (hP : forall s, P s -> C) (h : C -> W.triple P p M E) :
    W.triple P p M E :=
  fun s hs => h (hP s hs) s hs

theorem triple_exists {choice : Type} {P : choice -> state -> Prop}
    {p : Prog state I error value} (h : forall x, W.triple (P x) p M E) :
    W.triple (fun s => exists x, P x s) p M E := by
  intro s hs
  obtain ⟨x, hx⟩ := hs
  exact h x s hx

theorem triple_ret {a : value} (h : forall s, P s -> M a s) :
    W.triple P (Prog.ret a : Prog state I error value) M E :=
  h

theorem triple_raise {e : error} (h : forall s, P s -> E e s) :
    W.triple P (Prog.raise e : Prog state I error value) M E :=
  h

theorem triple_bind {p : Prog state I error value}
    {g : value -> Prog state I error result} (hp : W.triple P p M E)
    (hg : forall a, W.triple (M a) (g a) N E) : W.triple P (p >>= g) N E := by
  intro s hs
  have h := hp s hs
  clear hp hs
  induction p generalizing s with
  | ret a => exact hg a s h
  | raise e => exact h
  | act f k ih => exact ih s (f s) h
  | call c k ih => exact fun r hr => ih r _ (h r hr)

theorem triple_catch {p : Prog state I error value}
    {h : error -> Prog state I error value} (hp : W.triple P p M E)
    (hh : forall e, W.triple (E e) (h e) M F) :
    W.triple P (tryCatch p h) M F := by
  intro s hs
  have hafter := hp s hs
  clear hp hs
  induction p generalizing s with
  | ret a => exact hafter
  | raise e => exact hh e s hafter
  | act f k ih => exact ih s (f s) hafter
  | call c k ih => exact fun r hr => ih r _ (hafter r hr)

theorem triple_ask {c : I.Call} {R : I.Reply c -> state -> Prop}
    (h : forall s r, P s -> W.allowed s c r -> R r (W.reply c r s)) :
    W.triple P (Prog.ask c : Prog state I error (I.Reply c)) R E :=
  fun s hs r hr => h s r hs hr

/-- The outcome of a program as a value. -/
def attempt (p : Prog state I error value) :
    Prog state I error (Except error value) :=
  tryCatch (p >>= fun a => Prog.ret (Except.ok a))
    fun e => Prog.ret (Except.error e)

theorem triple_attempt {p : Prog state I error value}
    (hp : W.triple P p M E) : W.triple P (attempt p) (ends M E) F :=
  triple_catch (triple_bind (N := ends M E) hp fun _ => triple_ret fun _ h => h)
    fun _ => triple_ret fun _ h => h

theorem triple_ends {p : Prog state I error value} {s s' : state}
    {res : Except error value} (hp : W.triple P p M E) (hs : P s)
    (h : p.Ends W.allowed W.reply s res s') : ends M E res s' := by
  have hafter := hp s hs
  clear hp hs
  induction h with
  | ret => exact hafter
  | raise => exact hafter
  | act _ ih => exact ih hafter
  | call r hr _ ih => exact ih (hafter r hr)

def play (W : Solo state I) (pick : state -> (c : I.Call) -> I.Reply c) :
    Prog state I error value -> state -> Except error value × state
  | Prog.ret a, s => (Except.ok a, s)
  | Prog.raise e, s => (Except.error e, s)
  | Prog.act f k, s => play W pick (k s) (f s)
  | Prog.call c k, s => play W pick (k (pick s c)) (W.reply c (pick s c) s)

theorem play_ends {pick : state -> (c : I.Call) -> I.Reply c}
    (hpick : forall s c, W.allowed s c (pick s c))
    (p : Prog state I error value) (s : state) :
    p.Ends W.allowed W.reply s (W.play pick p s).1 (W.play pick p s).2 := by
  induction p generalizing s with
  | ret a => exact Prog.Ends.ret
  | raise e => exact Prog.Ends.raise
  | act f k ih => exact Prog.Ends.act (ih s (f s))
  | call c k ih => exact Prog.Ends.call (pick s c) (hpick s c) (ih _ _)

end Solo
end Foundation
end FlanTerminal
