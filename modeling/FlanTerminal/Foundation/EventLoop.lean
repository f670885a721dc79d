import FlanTerminal.Foundation.Prog

/-!
# Runs of an event loop

One thread runs many operations.  A synchronous segment of an operation runs to
its end without interruption; it stops when the operation returns or throws,
when it awaits something, or when it calls back into code that may itself start
further operations on the same thread.  Awaiting operations are parked and
resume in any order, but only when the call stack is empty; operations started
from inside a callback are stacked on top of the operation that called back.
-/

namespace FlanTerminal
namespace Foundation

/-- How a call gives up control. -/
inductive Boundary where
  /-- The reply comes at once and nothing else runs in between. -/
  | sync
  /-- Other operations may start, on top of the stack, before the reply. -/
  | callback
  /-- The operation is parked until its reply comes. -/
  | await
  deriving DecidableEq, Repr

/-- Whether an operation has already been parked once. -/
inductive Phase where
  | first
  | later
  deriving DecidableEq, Repr

/--
The operations of a component and what surrounds them.  The hooks `enter`,
`issue`, `reply` and `leave` are what the surroundings record or do when an
operation starts, makes a call, receives a reply and ends; `allowed` says which
replies can come, and `env` what can happen without any operation.
-/
structure Machine (state : Type) (I : Interface)
    (error value op : Type) where
  body : Nat -> op -> Prog state I error value
  boundary : I.Call -> Boundary
  admits : state -> op -> Prop
  enter : Nat -> op -> state -> state
  issue : Nat -> I.Call -> state -> state
  allowed : state -> Nat -> (c : I.Call) -> I.Reply c -> Prop
  reply : Nat -> (c : I.Call) -> I.Reply c -> state -> state
  leave : Nat -> op -> Except error value -> state -> state
  env : state -> state -> Prop

variable {state : Type} {I : Interface} {error value op : Type}

inductive Outcome (state : Type) (I : Interface) (error value : Type) where
  | done (res : Except error value)
  | wait (c : I.Call) (k : I.Reply c -> Prog state I error value)

/-- An operation that has made a call and waits for the reply. -/
structure Frame (state : Type) (I : Interface) (error value op : Type) where
  id : Nat
  task : op
  phase : Phase
  call : I.Call
  cont : I.Reply call -> Prog state I error value

structure Config (state : Type) (I : Interface) (error value op : Type) where
  shared : state
  stack : List (Frame state I error value op)
  parked : List (Frame state I error value op)
  next : Nat

/-- A synchronous segment, from a program and a state to where it stops. -/
inductive Seg (M : Machine state I error value op) (n : Nat) :
    Prog state I error value -> state -> state ->
      Outcome state I error value -> Prop where
  | ret {a s} : Seg M n (Prog.ret a) s s (Outcome.done (Except.ok a))
  | raise {e s} : Seg M n (Prog.raise e) s s (Outcome.done (Except.error e))
  | act {f k s s' o} :
      Seg M n (k s) (f s) s' o -> Seg M n (Prog.act f k) s s' o
  | sync {c k s s' o} (r : I.Reply c) :
      M.boundary c = Boundary.sync ->
      M.allowed (M.issue n c s) n c r ->
      Seg M n (k r) (M.reply n c r (M.issue n c s)) s' o ->
      Seg M n (Prog.call c k) s s' o
  | stop {c k s} :
      M.boundary c ≠ Boundary.sync ->
      Seg M n (Prog.call c k) s (M.issue n c s) (Outcome.wait c k)

theorem Seg.of_eq {M : Machine state I error value op} {n : Nat}
    {p q : Prog state I error value} {s s' : state}
    {out : Outcome state I error value} (h : p = q)
    (hseg : Seg M n q s s' out) : Seg M n p s s' out := by
  rw [h]
  exact hseg

/-- Where an operation goes when its segment has stopped. -/
def Config.settle (M : Machine state I error value op)
    (stack parked : List (Frame state I error value op)) (next : Nat)
    (n : Nat) (o : op) (ph : Phase) (s : state) :
    Outcome state I error value -> Config state I error value op
  | Outcome.done res => ⟨M.leave n o res s, stack, parked, next⟩
  | Outcome.wait c k =>
      if M.boundary c = Boundary.await then
        ⟨s, stack, parked ++ [⟨n, o, Phase.later, c, k⟩], next⟩
      else
        ⟨s, ⟨n, o, ph, c, k⟩ :: stack, parked, next⟩

inductive Step (M : Machine state I error value op) :
    Config state I error value op -> Config state I error value op -> Prop where
  | enter {cfg : Config state I error value op} (o : op) {s' out} :
      M.admits cfg.shared o ->
      Seg M cfg.next (M.body cfg.next o) (M.enter cfg.next o cfg.shared)
        s' out ->
      Step M cfg (Config.settle M cfg.stack cfg.parked (cfg.next + 1)
        cfg.next o Phase.first s' out)
  | answer {s f stack parked next s' out} (r : I.Reply f.call) :
      M.allowed s f.id f.call r ->
      Seg M f.id (f.cont r) (M.reply f.id f.call r s) s' out ->
      Step M ⟨s, f :: stack, parked, next⟩
        (Config.settle M stack parked next f.id f.task f.phase s' out)
  | resume {s front f back next s' out} (r : I.Reply f.call) :
      M.allowed s f.id f.call r ->
      Seg M f.id (f.cont r) (M.reply f.id f.call r s) s' out ->
      Step M ⟨s, [], front ++ f :: back, next⟩
        (Config.settle M [] (front ++ back) next f.id f.task f.phase s' out)
  | env {cfg : Config state I error value op} {s'} :
      M.env cfg.shared s' ->
      Step M cfg { cfg with shared := s' }

/-!
## Calls from another component

A component whose calls all give up control runs to its first call at once,
whatever surrounds it.
-/

def toCall (M : Machine state I error value op) (n : Nat) :
    Prog state I error value -> state -> state × Outcome state I error value
  | Prog.ret a, s => (s, Outcome.done (Except.ok a))
  | Prog.raise e, s => (s, Outcome.done (Except.error e))
  | Prog.act f k, s => toCall M n (k s) (f s)
  | Prog.call c k, s => (M.issue n c s, Outcome.wait c k)

theorem toCall_seg {M : Machine state I error value op}
    (hM : forall c, M.boundary c ≠ Boundary.sync) (n : Nat)
    (p : Prog state I error value) (s : state) :
    Seg M n p s (toCall M n p s).1 (toCall M n p s).2 := by
  induction p generalizing s with
  | ret a => exact Seg.ret
  | raise e => exact Seg.raise
  | act f k ih => exact Seg.act (ih s (f s))
  | call c k ih => exact Seg.stop (hM c)

def Config.start (M : Machine state I error value op)
    (cfg : Config state I error value op) (o : op) :
    Config state I error value op :=
  let stop := toCall M cfg.next (M.body cfg.next o)
    (M.enter cfg.next o cfg.shared)
  Config.settle M cfg.stack cfg.parked (cfg.next + 1) cfg.next o Phase.first
    stop.1 stop.2

theorem Config.start_step {M : Machine state I error value op}
    (hM : forall c, M.boundary c ≠ Boundary.sync)
    (cfg : Config state I error value op) {o : op}
    (ho : M.admits cfg.shared o) : Step M cfg (cfg.start M o) :=
  Step.enter o ho (toCall_seg hM _ _ _)

def Config.initial (s : state) : Config state I error value op :=
  ⟨s, [], [], 0⟩

def Reachable (M : Machine state I error value op) (s : state)
    (cfg : Config state I error value op) : Prop :=
  Relation.ReflTransGen (Step M) (Config.initial s) cfg

/-!
## What every step keeps

A program whose updates all stay within a preorder, such as a log that only
grows, moves along it in every step of a run.
-/

def Prog.Within (R : state -> state -> Prop) :
    Prog state I error value -> Prop
  | Prog.ret _ => True
  | Prog.raise _ => True
  | Prog.act f k => forall s, R s (f s) ∧ Within R (k s)
  | Prog.call _ k => forall r, Within R (k r)

namespace Prog

variable {R : state -> state -> Prop} {result : Type}

theorem within_bind {p : Prog state I error value}
    {g : value -> Prog state I error result} (hp : p.Within R)
    (hg : forall a, (g a).Within R) : (p >>= g).Within R := by
  induction p with
  | ret a => exact hg a
  | raise e => trivial
  | act f k ih => exact fun s => ⟨(hp s).1, ih s (hp s).2⟩
  | call c k ih => exact fun r => ih r (hp r)

theorem within_always {p : Prog state I error value}
    {q : Prog state I error Unit} (hp : p.Within R) (hq : q.Within R) :
    (p.always q).Within R := by
  induction p with
  | ret a => exact within_bind hq fun _ => trivial
  | raise e => exact within_bind hq fun _ => trivial
  | act f k ih => exact fun s => ⟨(hp s).1, ih s (hp s).2⟩
  | call c k ih => exact fun r => ih r (hp r)

theorem within_tryCatch {p : Prog state I error value}
    {h : error -> Prog state I error value} (hp : p.Within R)
    (hh : forall e, (h e).Within R) : (tryCatch p h).Within R := by
  induction p with
  | ret a => trivial
  | raise e => exact hh e
  | act f k ih => exact fun s => ⟨(hp s).1, ih s (hp s).2⟩
  | call c k ih => exact fun r => ih r (hp r)

theorem within_modify {f : state -> state} (hf : forall s, R s (f s)) :
    (Prog.modify f : Prog state I error Unit).Within R :=
  fun s => ⟨hf s, trivial⟩

theorem within_read (hrefl : forall s, R s s)
    {g : state -> Prog state I error value} (hg : forall s, (g s).Within R) :
    (Prog.read >>= g).Within R :=
  fun s => ⟨hrefl s, hg s⟩

end Prog

structure Machine.Within (M : Machine state I error value op)
    (R : state -> state -> Prop) : Prop where
  refl : forall s, R s s
  trans : forall {a b c}, R a b -> R b c -> R a c
  body : forall n o, (M.body n o).Within R
  enter : forall n o s, R s (M.enter n o s)
  issue : forall n c s, R s (M.issue n c s)
  reply : forall n c r s, R s (M.reply n c r s)
  leave : forall n o res s, R s (M.leave n o res s)
  env : forall {s s'}, M.env s s' -> R s s'

namespace Machine.Within

variable {M : Machine state I error value op} {R : state -> state -> Prop}

theorem seg (h : M.Within R) {n : Nat} {p : Prog state I error value}
    {s s' : state} {out : Outcome state I error value}
    (hseg : Seg M n p s s' out) (hp : p.Within R) :
    R s s' ∧ forall c k, out = Outcome.wait c k -> forall r,
      (k r).Within R := by
  induction hseg with
  | ret => exact ⟨h.refl _, nofun⟩
  | raise => exact ⟨h.refl _, nofun⟩
  | @act f k s s' out _ ih =>
      have hrest := ih (hp s).2
      exact ⟨h.trans (hp s).1 hrest.1, hrest.2⟩
  | @sync c k s s' out r hc hr _ ih =>
      have hrest := ih (hp r)
      exact ⟨h.trans (h.issue n c s) (h.trans (h.reply n c r _) hrest.1),
        hrest.2⟩
  | @stop c k s hc =>
      refine ⟨h.issue n c s, ?_⟩
      intro c' k' heq
      cases heq
      exact hp

theorem settle (h : M.Within R)
    {stack parked : List (Frame state I error value op)} (next n : Nat)
    (o : op) (ph : Phase) (s : state) {out : Outcome state I error value}
    (hframes : forall f, f ∈ stack ++ parked -> forall r,
      (f.cont r).Within R)
    (hout : forall c k, out = Outcome.wait c k -> forall r, (k r).Within R) :
    R s (Config.settle M stack parked next n o ph s out).shared ∧
      forall f, f ∈ (Config.settle M stack parked next n o ph s out).stack ++
        (Config.settle M stack parked next n o ph s out).parked ->
        forall r, (f.cont r).Within R := by
  cases out with
  | done res => exact ⟨h.leave n o res s, hframes⟩
  | wait c k =>
      have hnew := hout c k rfl
      simp only [Config.settle]
      split
      · refine ⟨h.refl s, ?_⟩
        intro f hf
        rw [← List.append_assoc] at hf
        rcases List.mem_append.mp hf with hf | hf
        · exact hframes f hf
        · rw [List.mem_singleton.mp hf]
          exact hnew
      · refine ⟨h.refl s, ?_⟩
        intro f hf
        rcases List.mem_cons.mp hf with hf | hf
        · rw [hf]
          exact hnew
        · exact hframes f hf

theorem step (h : M.Within R) {cfg cfg' : Config state I error value op}
    (hstep : Step M cfg cfg')
    (hframes : forall f, f ∈ cfg.stack ++ cfg.parked -> forall r,
      (f.cont r).Within R) :
    R cfg.shared cfg'.shared ∧
      forall f, f ∈ cfg'.stack ++ cfg'.parked -> forall r,
        (f.cont r).Within R := by
  cases hstep with
  | @enter _ o s' out _ hseg =>
      have hrest := h.seg hseg (h.body _ o)
      have hsettle := h.settle (cfg.next + 1) cfg.next o Phase.first s'
        hframes hrest.2
      exact ⟨h.trans (h.enter _ o _) (h.trans hrest.1 hsettle.1), hsettle.2⟩
  | @answer s f stack parked next s' out r _ hseg =>
      have hrest := h.seg hseg (hframes f List.mem_cons_self r)
      have hsettle := h.settle next f.id f.task f.phase s'
        (fun g hg => hframes g (List.mem_cons_of_mem f hg)) hrest.2
      exact ⟨h.trans (h.reply _ _ r _) (h.trans hrest.1 hsettle.1),
        hsettle.2⟩
  | @resume s front f back next s' out r _ hseg =>
      have hrest := h.seg hseg
        (hframes f (List.mem_append_right front List.mem_cons_self) r)
      have hother : forall g, g ∈ [] ++ (front ++ back) -> forall r,
          (g.cont r).Within R := by
        intro g hg
        rw [List.nil_append] at hg
        have hmem : g ∈ front ++ f :: back := by
          rcases List.mem_append.mp hg with hg | hg
          · exact List.mem_append_left _ hg
          · exact List.mem_append_right _ (List.mem_cons_of_mem f hg)
        exact hframes g hmem
      have hsettle := h.settle next f.id f.task f.phase s' hother hrest.2
      exact ⟨h.trans (h.reply _ _ r _) (h.trans hrest.1 hsettle.1),
        hsettle.2⟩
  | env henv => exact ⟨h.env henv, hframes⟩

theorem frames (h : M.Within R) {s : state}
    {cfg : Config state I error value op} (hreach : Reachable M s cfg) :
    forall f, f ∈ cfg.stack ++ cfg.parked -> forall r,
      (f.cont r).Within R := by
  induction hreach with
  | refl => exact fun f hf => absurd hf List.not_mem_nil
  | tail _ hstep ih => exact (h.step hstep ih).2

theorem reachable (h : M.Within R) {s : state}
    {cfg cfg' : Config state I error value op} (hreach : Reachable M s cfg)
    (hstep : Step M cfg cfg') : R cfg.shared cfg'.shared :=
  (h.step hstep (h.frames hreach)).1

end Machine.Within

/-!
## Where an operation waits

What a waiting operation goes on with is a rest of its own program.
-/

/-- The program can come to the call `c` and go on with `k` from there. -/
inductive Prog.Stops : Prog state I error value -> (c : I.Call) ->
    (I.Reply c -> Prog state I error value) -> Prop where
  | here {c k} : Stops (Prog.call c k) c k
  | act {f k c g} (s : state) : Stops (k s) c g -> Stops (Prog.act f k) c g
  | call {d k c g} (r : I.Reply d) :
      Stops (k r) c g -> Stops (Prog.call d k) c g

theorem Prog.Stops.trans {p : Prog state I error value} {c d : I.Call}
    {k : I.Reply c -> Prog state I error value}
    {g : I.Reply d -> Prog state I error value} (h : p.Stops c k)
    (r : I.Reply c) (hrest : (k r).Stops d g) : p.Stops d g := by
  induction h with
  | here => exact Stops.call r hrest
  | act s _ ih => exact Stops.act s (ih r hrest)
  | call r' _ ih => exact Stops.call r' (ih r hrest)

theorem Seg.stops {M : Machine state I error value op} {n : Nat}
    {p : Prog state I error value} {s s' : state}
    {out : Outcome state I error value} (h : Seg M n p s s' out) {c : I.Call}
    {k : I.Reply c -> Prog state I error value}
    (hout : out = Outcome.wait c k) : p.Stops c k := by
  induction h with
  | ret => cases hout
  | raise => cases hout
  | act _ ih => exact Prog.Stops.act _ (ih hout)
  | sync r _ _ _ ih => exact Prog.Stops.call r (ih hout)
  | stop =>
      cases hout
      exact Prog.Stops.here

/-- Every waiting operation is somewhere in its own program. -/
def Config.Resting (M : Machine state I error value op)
    (cfg : Config state I error value op) : Prop :=
  forall f, f ∈ cfg.stack ++ cfg.parked ->
    (M.body f.id f.task).Stops f.call f.cont

theorem Config.settle_resting {M : Machine state I error value op}
    {stack parked : List (Frame state I error value op)} {next n : Nat}
    {o : op} {ph : Phase} {s : state} {out : Outcome state I error value}
    (hframes : forall f, f ∈ stack ++ parked ->
      (M.body f.id f.task).Stops f.call f.cont)
    (hout : forall c k, out = Outcome.wait c k -> (M.body n o).Stops c k) :
    (Config.settle M stack parked next n o ph s out).Resting M := by
  cases out with
  | done res => exact hframes
  | wait c k =>
      intro f hf
      simp only [Config.settle] at hf
      split at hf
      · rw [← List.append_assoc] at hf
        cases List.mem_append.mp hf with
        | inl hold => exact hframes f hold
        | inr hnew =>
            rw [List.mem_singleton.mp hnew]
            exact hout c k rfl
      · cases List.mem_cons.mp hf with
        | inl hnew =>
            rw [hnew]
            exact hout c k rfl
        | inr hold => exact hframes f hold

theorem Step.resting {M : Machine state I error value op}
    {cfg cfg' : Config state I error value op} (hstep : Step M cfg cfg')
    (h : cfg.Resting M) : cfg'.Resting M := by
  cases hstep with
  | enter o _ hseg =>
      exact Config.settle_resting h fun c k hout => hseg.stops hout
  | @answer s f stack parked next s' out r _ hseg =>
      apply Config.settle_resting
        (fun g hg => h g (List.mem_cons_of_mem f hg))
      intro c k hout
      exact (h f List.mem_cons_self).trans r (hseg.stops hout)
  | @resume s front f back next s' out r _ hseg =>
      have hmem : forall g, g ∈ [] ++ (front ++ back) ->
          g ∈ [] ++ (front ++ f :: back) := by
        intro g hg
        simp only [List.nil_append, List.mem_append, List.mem_cons] at hg ⊢
        exact hg.imp id Or.inr
      apply Config.settle_resting (fun g hg => h g (hmem g hg))
      intro c k hout
      exact (h f (List.mem_append_right front List.mem_cons_self)).trans r
        (hseg.stops hout)
  | env _ => exact h

theorem Reachable.resting {M : Machine state I error value op} {s : state}
    {cfg : Config state I error value op} (hreach : Reachable M s cfg) :
    cfg.Resting M := by
  induction hreach with
  | refl => exact fun f hf => absurd hf List.not_mem_nil
  | tail _ hstep ih => exact hstep.resting ih

end Foundation
end FlanTerminal
