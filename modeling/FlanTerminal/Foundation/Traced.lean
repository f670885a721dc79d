import FlanTerminal.Foundation.Prog

/-!
# Runs with the calls that are made

A run of a program gives the calls that it makes, with the replies, and how it
ends.  Replies come with the state in which the program goes on, so that others
may run while a callback is at work.
-/

namespace FlanTerminal
namespace Foundation
namespace Prog

variable {state : Type} {I : Interface} {error value result : Type}

/-- The reply to a call, and the state in which the program goes on. -/
abbrev Answers (state : Type) (I : Interface) : Type :=
  state -> (c : I.Call) -> I.Reply c -> state -> Prop

inductive Runs (A : Answers state I) : Prog state I error value -> state ->
    List (Sigma I.Reply) -> Except error value -> state -> Prop where
  | ret {a s} : Runs A (ret a) s [] (Except.ok a) s
  | raise {e s} : Runs A (raise e) s [] (Except.error e) s
  | act {f k s cs res s'} : Runs A (k s) (f s) cs res s' ->
      Runs A (act f k) s cs res s'
  | call {c k s s' cs res s''} (r : I.Reply c) : A s c r s' ->
      Runs A (k r) s' cs res s'' -> Runs A (call c k) s (⟨c, r⟩ :: cs) res s''

def After (A : Answers state I) :
    (List (Sigma I.Reply) -> Except error value -> state -> Prop) ->
      Prog state I error value -> state -> Prop
  | Q, ret a, s => Q [] (Except.ok a) s
  | Q, raise e, s => Q [] (Except.error e) s
  | Q, act f k, s => After A Q (k s) (f s)
  | Q, call c k, s => forall r s', A s c r s' ->
      After A (fun cs => Q (⟨c, r⟩ :: cs)) (k r) s'

section After

variable {A : Answers state I} {p : Prog state I error value} {s s' : state}
variable {Q R : List (Sigma I.Reply) -> Except error value -> state -> Prop}
variable {cs : List (Sigma I.Reply)} {res : Except error value}

theorem after_mono (hp : p.After A R s)
    (h : forall cs res s, R cs res s -> Q cs res s) : p.After A Q s := by
  induction p generalizing Q R s with
  | ret a => exact h _ _ _ hp
  | raise e => exact h _ _ _ hp
  | act f k ih => exact ih _ hp h
  | call c k ih =>
      intro r s' hr
      exact ih r (hp r s' hr) fun cs res s hR => h _ res s hR

theorem after_and (hp : p.After A Q s) (hp' : p.After A R s) :
    p.After A (fun cs res s' => Q cs res s' ∧ R cs res s') s := by
  induction p generalizing Q R s with
  | ret a => exact ⟨hp, hp'⟩
  | raise e => exact ⟨hp, hp'⟩
  | act f k ih => exact ih _ hp hp'
  | call c k ih =>
      intro r s' hr
      exact ih r (hp r s' hr) (hp' r s' hr)

theorem after_bind {g : value -> Prog state I error result}
    {Q : List (Sigma I.Reply) -> Except error result -> state -> Prop}
    (hp : p.After A R s)
    (herror : forall cs e s', R cs (Except.error e) s' ->
      Q cs (Except.error e) s')
    (hok : forall cs a s', R cs (Except.ok a) s' ->
      (g a).After A (fun cs' => Q (cs ++ cs')) s') :
    (p >>= g).After A Q s := by
  induction p generalizing Q R s with
  | ret a => exact hok [] a s hp
  | raise e => exact herror [] e s hp
  | act f k ih => exact ih _ hp herror hok
  | call c k ih =>
      intro r s' hr
      exact ih r (hp r s' hr) (fun cs e s'' h => herror (⟨c, r⟩ :: cs) e s'' h)
        fun cs a s'' h => hok (⟨c, r⟩ :: cs) a s'' h

theorem after_read {g : state -> Prog state I error value}
    (h : (g s).After A Q s) : (read >>= g).After A Q s :=
  h

theorem after_of_runs (hrun : p.Runs A s cs res s') (hp : p.After A Q s) :
    Q cs res s' := by
  induction hrun generalizing Q with
  | ret => exact hp
  | raise => exact hp
  | act _ ih => exact ih hp
  | call r hr _ ih => exact ih (hp r _ hr)

theorem after_runs (p : Prog state I error value) (s : state) :
    p.After A (fun cs res s' => p.Runs A s cs res s') s := by
  induction p generalizing s with
  | ret a => exact Runs.ret
  | raise e => exact Runs.raise
  | act f k ih => exact after_mono (ih s (f s)) fun _ _ _ => Runs.act
  | call c k ih =>
      intro r s' hr
      exact after_mono (ih r s') fun _ _ _ => Runs.call r hr

end After

/-!
## More calls
-/

def plus (I K : Interface) : Interface :=
  ⟨I.Call ⊕ K.Call, Sum.elim I.Reply K.Reply⟩

/-- The program as one that could make more calls. -/
def left (K : Interface) :
    Prog state I error value -> Prog state (plus I K) error value
  | ret a => ret a
  | raise e => raise e
  | act f k => act f fun s => left K (k s)
  | call c k => call (Sum.inl c) fun r => left K (k r)

def leftCalls (K : Interface) (cs : List (Sigma I.Reply)) :
    List (Sigma (plus I K).Reply) :=
  cs.map fun c => ⟨Sum.inl c.1, c.2⟩

theorem after_left {K : Interface} {A : Answers state (plus I K)}
    {Q : List (Sigma I.Reply) -> Except error value -> state -> Prop}
    {p : Prog state I error value} {s : state}
    (hp : p.After (fun s c r s' => A s (Sum.inl c) r s') Q s) :
    (p.left K).After A (fun cs res s' => exists cs', cs = leftCalls K cs' ∧
      Q cs' res s') s := by
  induction p generalizing Q s with
  | ret a => exact ⟨[], rfl, hp⟩
  | raise e => exact ⟨[], rfl, hp⟩
  | act f k ih => exact ih _ hp
  | call c k ih =>
      intro r s' hr
      refine after_mono (ih r (hp r s' hr)) fun cs res s'' h => ?_
      obtain ⟨cs', hcs, hQ⟩ := h
      refine ⟨⟨c, r⟩ :: cs', ?_, hQ⟩
      rw [hcs]
      rfl

def playing (pick : state -> (c : I.Call) -> I.Reply c)
    (reply : (c : I.Call) -> I.Reply c -> state -> state) :
    Prog state I error value -> state ->
      List (Sigma I.Reply) × Except error value × state
  | ret a, s => ([], Except.ok a, s)
  | raise e, s => ([], Except.error e, s)
  | act f k, s => playing pick reply (k s) (f s)
  | call c k, s =>
      let run := playing pick reply (k (pick s c)) (reply c (pick s c) s)
      (⟨c, pick s c⟩ :: run.1, run.2)

theorem playing_runs {A : Answers state I}
    {pick : state -> (c : I.Call) -> I.Reply c}
    {reply : (c : I.Call) -> I.Reply c -> state -> state}
    (hpick : forall s c, A s c (pick s c) (reply c (pick s c) s))
    (p : Prog state I error value) (s : state) :
    p.Runs A s (playing pick reply p s).1 (playing pick reply p s).2.1
      (playing pick reply p s).2.2 := by
  induction p generalizing s with
  | ret a => exact Runs.ret
  | raise e => exact Runs.raise
  | act f k ih => exact Runs.act (ih s (f s))
  | call c k ih => exact Runs.call (pick s c) (hpick s c) (ih _ _)

end Prog
end Foundation
end FlanTerminal
