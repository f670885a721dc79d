import Mathlib.Data.List.Nodup
import Mathlib.Logic.Function.Basic
import FlanTerminal.Foundation.EventLoop

/-!
# Invariants over outstanding calls

A call that carries what its operation needs later says all about that
operation while it waits.  An invariant may then speak of the shared state and
of the calls that are outstanding, and nothing has to be assumed about the
other operations: whoever runs finds the invariant and leaves it where it
stops.
-/

namespace FlanTerminal
namespace Foundation

variable {state : Type} {I : Interface} {error value op : Type}

/-- The first operation number not in use, and the call each operation waits
for. -/
structure Ledger (I : Interface) where
  next : Nat
  pending : Nat -> Option I.Call

namespace Ledger

def put (L : Ledger I) (n : Nat) (c : Option I.Call) : Ledger I :=
  { L with pending := Function.update L.pending n c }

@[simp] theorem put_next (L : Ledger I) (n : Nat) (c : Option I.Call) :
    (L.put n c).next = L.next := rfl

@[simp] theorem put_same (L : Ledger I) (n : Nat) (c : Option I.Call) :
    (L.put n c).pending n = c := by
  simp [put]

theorem put_other (L : Ledger I) {n m : Nat} (c : Option I.Call)
    (hne : m ≠ n) : (L.put n c).pending m = L.pending m := by
  simp [put, hne]

theorem put_pending (L : Ledger I) (n : Nat) (c : Option I.Call) (m : Nat) :
    (L.put n c).pending m = if m = n then c else L.pending m := by
  simp [put, Function.update_apply]

theorem pending_put {L : Ledger I} {n m : Nat} {x : Option I.Call}
    {c : I.Call} : (L.put n x).pending m = some c <->
      m = n ∧ x = some c ∨ m ≠ n ∧ L.pending m = some c := by
  rw [put_pending]
  by_cases hm : m = n
  · simp [hm]
  · simp [hm]

theorem put_put (L : Ledger I) (n : Nat) (c d : Option I.Call) :
    (L.put n c).put n d = L.put n d := by
  simp [put]

def of (frames : List (Frame state I error value op)) (next : Nat) :
    Ledger I :=
  ⟨next, fun n => (frames.find? fun f => f.id = n).map Frame.call⟩

def empty : Ledger I :=
  ⟨0, fun _ => none⟩

theorem of_cons (f : Frame state I error value op)
    (frames : List (Frame state I error value op)) (next : Nat) :
    of (f :: frames) next = (of frames next).put f.id (some f.call) := by
  simp only [of, put, mk.injEq, true_and]
  funext n
  by_cases hn : n = f.id
  · simp [hn]
  · have hne : ¬ f.id = n := fun h => hn h.symm
    simp [hn, hne]

theorem of_absent {frames : List (Frame state I error value op)} {n : Nat}
    (next : Nat) (h : forall f, f ∈ frames -> f.id ≠ n) :
    (of frames next).pending n = none := by
  have hnone : frames.find? (fun f => f.id = n) = none := by
    rw [List.find?_eq_none]
    intro f hf
    simpa using h f hf
  simp [of, hnone]

theorem mem_of {frames : List (Frame state I error value op)} {next n : Nat}
    {c : I.Call} (h : (of frames next).pending n = some c) :
    exists f, f ∈ frames ∧ f.id = n ∧ f.call = c := by
  rcases Option.map_eq_some_iff.mp h with ⟨f, hfind, hcall⟩
  have hid := List.find?_some hfind
  exact ⟨f, List.mem_of_find?_eq_some hfind, by simpa using hid, hcall⟩

theorem of_mem {frames : List (Frame state I error value op)}
    (hdistinct : (frames.map Frame.id).Nodup) (next : Nat)
    {f : Frame state I error value op} (hf : f ∈ frames) :
    (of frames next).pending f.id = some f.call := by
  induction frames with
  | nil => cases hf
  | cons g frames ih =>
      rw [of_cons, put_pending]
      rcases List.nodup_cons.mp hdistinct with ⟨hg, hrest⟩
      rcases List.mem_cons.mp hf with hf | hf
      · rw [hf, if_pos rfl]
      · have hne : f.id ≠ g.id := by
          intro heq
          exact hg (heq ▸ List.mem_map_of_mem hf)
        rw [if_neg hne]
        exact ih hrest hf

theorem of_perm {frames frames' : List (Frame state I error value op)}
    (hdistinct : (frames.map Frame.id).Nodup) (h : frames.Perm frames')
    (next : Nat) : of frames next = of frames' next := by
  have hdistinct' : (frames'.map Frame.id).Nodup :=
    (h.map Frame.id).nodup_iff.mp hdistinct
  have hpending : (of frames next).pending = (of frames' next).pending := by
    funext n
    by_cases hn : exists f, f ∈ frames ∧ f.id = n
    · rcases hn with ⟨f, hf, hid⟩
      rw [← hid, of_mem hdistinct next hf,
        of_mem hdistinct' next (h.mem_iff.mp hf)]
    · have habsent : forall f, f ∈ frames -> f.id ≠ n :=
        fun f hf hid => hn ⟨f, hf, hid⟩
      rw [of_absent next habsent,
        of_absent next (fun f hf => habsent f (h.mem_iff.mpr hf))]
  exact congrArg (mk next) hpending

theorem put_absent {frames : List (Frame state I error value op)}
    {next n : Nat} (h : forall f, f ∈ frames -> f.id ≠ n) (c : Option I.Call) :
    ((of frames next).put n c).put n none = of frames next := by
  rw [put_put]
  have hnone := of_absent (I := I) next h
  simp only [put, of, mk.injEq, true_and]
  rw [Function.update_eq_self_iff]
  exact hnone.symm

theorem put_none {L : Ledger I} {n : Nat} (h : L.pending n = none) :
    L.put n none = L := by
  rcases L with ⟨next, pending⟩
  simp only [put, mk.injEq, true_and]
  rw [Function.update_eq_self_iff]
  exact h.symm

/-- No operation is inside a callback. -/
def Calm (M : Machine state I error value op) (L : Ledger I) : Prop :=
  forall n c, L.pending n = some c -> M.boundary c = Boundary.await

/-- What an operation finds where it goes on after the call `c`: if it was
parked no operation is inside a callback, and if it was inside a callback those
that still are have started before it. -/
def Settled (M : Machine state I error value op) (L : Ledger I) (n : Nat)
    (c : I.Call) : Prop :=
  (M.boundary c = Boundary.await -> L.Calm M) ∧
    (M.boundary c = Boundary.callback -> forall m d, L.pending m = some d ->
      M.boundary d = Boundary.callback -> m ≤ n)

end Ledger

namespace Prog

/--
What a program of operation `n` owes: the invariant wherever it waits, and the
postcondition at its end.  In exchange it finds the invariant after a wait,
with its own call still outstanding until then; and it knows which operations
can still be inside a callback.
-/
def owes (M : Machine state I error value op)
    (Inv : Ledger I -> state -> Prop) (n : Nat) {result : Type}
    (Q : Except error result -> Ledger I -> state -> Prop) :
    Prog state I error result -> Ledger I -> state -> Prop
  | ret a, L, s => Q (Except.ok a) L s
  | raise e, L, s => Q (Except.error e) L s
  | act f k, L, s => owes M Inv n Q (k s) L (f s)
  | call c k, L, s =>
      (M.boundary c = Boundary.sync ->
        forall r, M.allowed (M.issue n c s) n c r ->
          owes M Inv n Q (k r) L (M.reply n c r (M.issue n c s))) ∧
      (M.boundary c ≠ Boundary.sync ->
        Inv (L.put n (some c)) (M.issue n c s) ∧
          forall L' s' r, L'.pending n = some c -> n < L'.next ->
            L'.Settled M n c ->
            Inv L' s' -> M.allowed s' n c r ->
            owes M Inv n Q (k r) (L'.put n none) (M.reply n c r s'))

variable {M : Machine state I error value op}
variable {Inv : Ledger I -> state -> Prop} {n : Nat} {result other : Type}
variable {Q R : Except error result -> Ledger I -> state -> Prop}
variable {L : Ledger I} {s : state}

@[simp] theorem owes_ret (a : result) :
    owes M Inv n Q (ret a) L s <-> Q (Except.ok a) L s :=
  Iff.rfl

@[simp] theorem owes_raise (e : error) :
    owes M Inv n Q (raise e) L s <-> Q (Except.error e) L s :=
  Iff.rfl

@[simp] theorem owes_act (f : state -> state)
    (k : state -> Prog state I error result) :
    owes M Inv n Q (act f k) L s <-> owes M Inv n Q (k s) L (f s) :=
  Iff.rfl

theorem owes_sync {c : I.Call} {k : I.Reply c -> Prog state I error result}
    (hc : M.boundary c = Boundary.sync) :
    owes M Inv n Q (call c k) L s <->
      forall r, M.allowed (M.issue n c s) n c r ->
        owes M Inv n Q (k r) L (M.reply n c r (M.issue n c s)) := by
  constructor
  · intro h
    exact h.1 hc
  · intro h
    exact ⟨fun _ => h, fun hne => absurd hc hne⟩

theorem owes_wait {c : I.Call} {k : I.Reply c -> Prog state I error result}
    (hc : M.boundary c ≠ Boundary.sync) :
    owes M Inv n Q (call c k) L s <->
      Inv (L.put n (some c)) (M.issue n c s) ∧
        forall L' s' r, L'.pending n = some c -> n < L'.next ->
          L'.Settled M n c ->
          Inv L' s' -> M.allowed s' n c r ->
          owes M Inv n Q (k r) (L'.put n none) (M.reply n c r s') := by
  constructor
  · intro h
    exact h.2 hc
  · intro h
    exact ⟨fun hsync => absurd hsync hc, fun _ => h⟩

theorem owes_mono {p : Prog state I error result}
    (hQR : forall res L s, Q res L s -> R res L s)
    (h : owes M Inv n Q p L s) : owes M Inv n R p L s := by
  induction p generalizing L s with
  | ret a => exact hQR _ _ _ h
  | raise e => exact hQR _ _ _ h
  | act f k ih => exact ih s h
  | call c k ih =>
      constructor
      · intro hc r hr
        exact ih r (h.1 hc r hr)
      · intro hc
        refine ⟨(h.2 hc).1, ?_⟩
        intro L' s' r hpending hn hsettled hinv hr
        exact ih r ((h.2 hc).2 L' s' r hpending hn hsettled hinv hr)

def thenOwes (M : Machine state I error value op)
    (Inv : Ledger I -> state -> Prop) (n : Nat)
    (g : result -> Prog state I error other)
    (Q : Except error other -> Ledger I -> state -> Prop) :
    Except error result -> Ledger I -> state -> Prop
  | Except.ok a, L, s => owes M Inv n Q (g a) L s
  | Except.error e, L, s => Q (Except.error e) L s

theorem owes_bind {p : Prog state I error result}
    {g : result -> Prog state I error other}
    {Q : Except error other -> Ledger I -> state -> Prop} :
    owes M Inv n Q (p >>= g) L s <->
      owes M Inv n (thenOwes M Inv n g Q) p L s := by
  induction p generalizing L s with
  | ret a => exact Iff.rfl
  | raise e => exact Iff.rfl
  | act f k ih => exact ih s
  | call c k ih =>
      rw [call_bind]
      simp only [owes, ih]

def catchOwes (M : Machine state I error value op)
    (Inv : Ledger I -> state -> Prop) (n : Nat)
    (h : error -> Prog state I error result)
    (Q : Except error result -> Ledger I -> state -> Prop) :
    Except error result -> Ledger I -> state -> Prop
  | Except.ok a, L, s => Q (Except.ok a) L s
  | Except.error e, L, s => owes M Inv n Q (h e) L s

theorem owes_tryCatch {p : Prog state I error result}
    {h : error -> Prog state I error result} :
    owes M Inv n Q (tryCatch p h) L s <->
      owes M Inv n (catchOwes M Inv n h Q) p L s := by
  induction p generalizing L s with
  | ret a => exact Iff.rfl
  | raise e => exact Iff.rfl
  | act f k ih => exact ih s
  | call c k ih =>
      rw [tryCatch_call]
      simp only [owes, ih]

/-- After the `finally` clause of a program that ended in `res`: an error of
the clause takes the place of the result. -/
def closeOwes (Q : Except error result -> Ledger I -> state -> Prop)
    (res : Except error result) :
    Except error Unit -> Ledger I -> state -> Prop
  | Except.ok _, L, s => Q res L s
  | Except.error e, L, s => Q (Except.error e) L s

theorem owes_always {p : Prog state I error result}
    {q : Prog state I error Unit} :
    owes M Inv n Q (always p q) L s <->
      owes M Inv n (fun res => owes M Inv n (closeOwes Q res) q) p L s := by
  induction p generalizing L s with
  | ret a =>
      have hpost : thenOwes M Inv n (fun _ => ret a) Q =
          closeOwes Q (Except.ok a) := by
        funext res
        cases res with
        | ok u => rfl
        | error e => rfl
      show owes M Inv n Q (q >>= fun _ => ret a) L s <-> _
      rw [owes_bind, hpost]
      exact Iff.rfl
  | raise e =>
      have hpost : thenOwes M Inv n (fun _ => raise e) Q =
          closeOwes Q (Except.error e) := by
        funext res
        cases res with
        | ok u => rfl
        | error e => rfl
      show owes M Inv n Q (q >>= fun _ => raise e) L s <-> _
      rw [owes_bind, hpost]
      exact Iff.rfl
  | act f k ih => exact ih s
  | call c k ih =>
      show owes M Inv n Q (call c fun r => always (k r) q) L s <-> _
      simp only [owes, ih]

end Prog

/-!
## Soundness
-/

def finalOwes (M : Machine state I error value op)
    (Inv : Ledger I -> state -> Prop) (n : Nat) (o : op)
    (res : Except error value) (L : Ledger I) (s : state) : Prop :=
  Inv L (M.leave n o res s)

/-- An invariant is inductive when every operation pays what it owes and what
happens without an operation keeps it. -/
structure Inductive (M : Machine state I error value op)
    (Inv : Ledger I -> state -> Prop) : Prop where
  env : forall {L s s'}, Inv L s -> M.env s s' -> Inv L s'
  body : forall {L : Ledger I} {s o}, L.pending L.next = none -> Inv L s ->
    M.admits s o ->
    (M.body L.next o).owes M Inv L.next (finalOwes M Inv L.next o)
      { L with next := L.next + 1 } (M.enter L.next o s)

namespace Inductive

/-- A waiting operation can go on whenever the invariant holds. -/
def FrameOk (M : Machine state I error value op)
    (Inv : Ledger I -> state -> Prop)
    (f : Frame state I error value op) : Prop :=
  forall L s r, Ledger.pending L f.id = some f.call -> f.id < L.next ->
    L.Settled M f.id f.call ->
    Inv L s -> M.allowed s f.id f.call r ->
    (f.cont r).owes M Inv f.id (finalOwes M Inv f.id f.task) (L.put f.id none)
      (M.reply f.id f.call r s)

structure Ok (M : Machine state I error value op)
    (Inv : Ledger I -> state -> Prop)
    (cfg : Config state I error value op) : Prop where
  ids : forall f, f ∈ cfg.stack ++ cfg.parked -> f.id < cfg.next
  distinct : ((cfg.stack ++ cfg.parked).map Frame.id).Nodup
  stacked : forall f, f ∈ cfg.stack -> M.boundary f.call = Boundary.callback
  sorted : (cfg.stack.map Frame.id).Pairwise fun a b => b < a
  parked : forall f, f ∈ cfg.parked -> M.boundary f.call = Boundary.await
  frames : forall f, f ∈ cfg.stack ++ cfg.parked -> FrameOk M Inv f
  inv : Inv (Ledger.of (cfg.stack ++ cfg.parked) cfg.next) cfg.shared

def Stopped (M : Machine state I error value op)
    (Inv : Ledger I -> state -> Prop) (n : Nat) (o : op) (L : Ledger I)
    (s : state) : Outcome state I error value -> Prop
  | Outcome.done res => finalOwes M Inv n o res L s
  | Outcome.wait c k =>
      M.boundary c ≠ Boundary.sync ∧ Inv (L.put n (some c)) s ∧
        forall ph, FrameOk M Inv ⟨n, o, ph, c, k⟩

theorem stopped {M : Machine state I error value op}
    {Inv : Ledger I -> state -> Prop} {n : Nat} {o : op} {L : Ledger I}
    {p : Prog state I error value} {s s' : state}
    {out : Outcome state I error value} (hseg : Seg M n p s s' out)
    (howes : p.owes M Inv n (finalOwes M Inv n o) L s) :
    Stopped M Inv n o L s' out := by
  induction hseg with
  | ret => exact howes
  | raise => exact howes
  | act _ ih => exact ih howes
  | sync r hc hr _ ih => exact ih ((Prog.owes_sync hc).mp howes r hr)
  | stop hc =>
      have hwait := (Prog.owes_wait hc).mp howes
      exact ⟨hc, hwait.1, fun ph L' s' r => hwait.2 L' s' r⟩

theorem settle {M : Machine state I error value op}
    {Inv : Ledger I -> state -> Prop}
    {stack parked : List (Frame state I error value op)} {next n : Nat}
    {o : op} {ph : Phase} {s : state} {out : Outcome state I error value}
    (hn : n < next)
    (hids : forall f, f ∈ stack ++ parked -> f.id < next)
    (hdistinct : ((stack ++ parked).map Frame.id).Nodup)
    (hstacked : forall f, f ∈ stack -> M.boundary f.call = Boundary.callback)
    (hsorted : (stack.map Frame.id).Pairwise fun a b => b < a)
    (habove : forall f, f ∈ stack -> f.id < n)
    (hparked : forall f, f ∈ parked -> M.boundary f.call = Boundary.await)
    (hframes : forall f, f ∈ stack ++ parked -> FrameOk M Inv f)
    (hfresh : forall f, f ∈ stack ++ parked -> f.id ≠ n)
    (hstop : Stopped M Inv n o (Ledger.of (stack ++ parked) next) s out) :
    Ok M Inv (Config.settle M stack parked next n o ph s out) := by
  cases out with
  | done res =>
      exact ⟨hids, hdistinct, hstacked, hsorted, hparked, hframes, hstop⟩
  | wait c k =>
      rcases hstop with ⟨hsync, hinv, hframe⟩
      have hnotin : n ∉ (stack ++ parked).map Frame.id := by
        intro hmem
        rcases List.mem_map.mp hmem with ⟨f, hf, hid⟩
        exact hfresh f hf hid
      have hcons : forall ph', ((⟨n, o, ph', c, k⟩ ::
          (stack ++ parked) : List (Frame state I error value op)).map
            Frame.id).Nodup :=
        fun ph' => List.nodup_cons.mpr ⟨hnotin, hdistinct⟩
      have hmem : forall ph' f, f ∈ (⟨n, o, ph', c, k⟩ ::
          (stack ++ parked) : List (Frame state I error value op)) ->
          f.id < next ∧ FrameOk M Inv f := by
        intro ph' f hf
        rcases List.mem_cons.mp hf with hf | hf
        · rw [hf]
          exact ⟨hn, hframe ph'⟩
        · exact ⟨hids f hf, hframes f hf⟩
      simp only [Config.settle]
      split
      · rename_i hawait
        have hperm : forall f : Frame state I error value op,
            (stack ++ (parked ++ [f])).Perm (f :: (stack ++ parked)) := by
          intro f
          rw [← List.append_assoc]
          exact List.perm_append_singleton _ _
        have hnodup := ((hperm _).map Frame.id).nodup_iff.mpr
          (hcons Phase.later)
        refine ⟨?_, hnodup, hstacked, hsorted, ?_, ?_, ?_⟩
        · intro f hf
          exact (hmem Phase.later f ((hperm _).mem_iff.mp hf)).1
        · intro f hf
          rcases List.mem_append.mp hf with hf | hf
          · exact hparked f hf
          · rw [List.mem_singleton.mp hf]
            exact hawait
        · intro f hf
          exact (hmem Phase.later f ((hperm _).mem_iff.mp hf)).2
        · show Inv (Ledger.of (stack ++ (parked ++ [_])) next) s
          rw [Ledger.of_perm hnodup (hperm _), Ledger.of_cons]
          exact hinv
      · rename_i hawait
        have hcallback : M.boundary c = Boundary.callback := by
          cases hb : M.boundary c with
          | sync => exact absurd hb hsync
          | callback => rfl
          | await => exact absurd hb hawait
        refine ⟨fun f hf => (hmem ph f hf).1, hcons ph, ?_, ?_, hparked,
          fun f hf => (hmem ph f hf).2, ?_⟩
        · intro f hf
          rcases List.mem_cons.mp hf with hf | hf
          · rw [hf]
            exact hcallback
          · exact hstacked f hf
        · refine List.pairwise_cons.mpr ⟨?_, hsorted⟩
          intro m hm
          rcases List.mem_map.mp hm with ⟨f, hf, hid⟩
          rw [← hid]
          exact habove f hf
        · show Inv (Ledger.of (_ :: (stack ++ parked)) next) s
          rw [Ledger.of_cons]
          exact hinv

theorem goOn {M : Machine state I error value op}
    {Inv : Ledger I -> state -> Prop}
    {stack stack' parked parked' : List (Frame state I error value op)}
    {next : Nat} {f : Frame state I error value op} {s s' : state}
    {r : I.Reply f.call} {out : Outcome state I error value}
    (hok : Ok M Inv ⟨s, stack, parked, next⟩)
    (hperm : (stack ++ parked).Perm (f :: (stack' ++ parked')))
    (hstack : stack'.Sublist stack)
    (hparked : forall g, g ∈ parked' -> g ∈ parked)
    (habove : forall g, g ∈ stack' -> g.id < f.id)
    (htop : forall g, g ∈ stack -> g.id ≤ f.id)
    (hcalm : M.boundary f.call = Boundary.await -> stack = [])
    (hr : M.allowed s f.id f.call r)
    (hseg : Seg M f.id (f.cont r) (M.reply f.id f.call r s) s' out) :
    Ok M Inv (Config.settle M stack' parked' next f.id f.task f.phase s'
      out) := by
  have hmem : forall g, g ∈ f :: (stack' ++ parked') ->
      g ∈ stack ++ parked := fun g hg => hperm.mem_iff.mpr hg
  have hf : f ∈ stack ++ parked := hmem f List.mem_cons_self
  have hdistinct : ((f :: (stack' ++ parked')).map Frame.id).Nodup :=
    (hperm.map Frame.id).nodup_iff.mp hok.distinct
  have hsplit := List.nodup_cons.mp hdistinct
  have hfresh : forall g, g ∈ stack' ++ parked' -> g.id ≠ f.id := by
    intro g hg hid
    exact hsplit.1 (List.mem_map.mpr ⟨g, hg, hid⟩)
  have hledger : Ledger.of (stack ++ parked) next =
      (Ledger.of (stack' ++ parked') next).put f.id (some f.call) := by
    rw [Ledger.of_perm hok.distinct hperm, Ledger.of_cons]
  have hinv : Inv (Ledger.of (stack ++ parked) next) s := hok.inv
  apply settle (hok.ids f hf)
    (fun g hg => hok.ids g (hmem g (List.mem_cons_of_mem f hg))) hsplit.2
    (fun g hg => hok.stacked g (hstack.subset hg))
    (hok.sorted.sublist (hstack.map Frame.id)) habove
    (fun g hg => hok.parked g (hparked g hg))
    (fun g hg => hok.frames g (hmem g (List.mem_cons_of_mem f hg))) hfresh
  have hcalm' : M.boundary f.call = Boundary.await ->
      (Ledger.of (stack ++ parked) next).Calm M := by
    intro hawait m c hm
    rcases Ledger.mem_of hm with ⟨g, hg, _, hcall⟩
    rw [hcalm hawait, List.nil_append] at hg
    rw [← hcall]
    exact hok.parked g hg
  have htop' : M.boundary f.call = Boundary.callback ->
      forall m d, (Ledger.of (stack ++ parked) next).pending m = some d ->
        M.boundary d = Boundary.callback -> m ≤ f.id := by
    intro _ m d hm hd
    rcases Ledger.mem_of hm with ⟨g, hg, hid, hcall⟩
    rw [← hid]
    rcases List.mem_append.mp hg with hg | hg
    · exact htop g hg
    · have hawait := hok.parked g hg
      rw [hcall, hd] at hawait
      cases hawait
  have howes := hok.frames f hf (Ledger.of (stack ++ parked) next) s r
    (Ledger.of_mem hok.distinct next hf) (hok.ids f hf) ⟨hcalm', htop'⟩ hinv
    hr
  rw [hledger, Ledger.put_absent hfresh] at howes
  exact stopped hseg howes

theorem step {M : Machine state I error value op}
    {Inv : Ledger I -> state -> Prop} (h : Inductive M Inv)
    {cfg cfg' : Config state I error value op} (hstep : Step M cfg cfg')
    (hok : Ok M Inv cfg) : Ok M Inv cfg' := by
  cases hstep with
  | enter o hadmits hseg =>
      have hfresh : forall f, f ∈ cfg.stack ++ cfg.parked ->
          f.id ≠ cfg.next := fun f hf => Nat.ne_of_lt (hok.ids f hf)
      apply settle (Nat.lt_succ_self _)
        (fun f hf => Nat.lt_succ_of_lt (hok.ids f hf)) hok.distinct
        hok.stacked hok.sorted
        (fun f hf => hok.ids f (List.mem_append_left _ hf)) hok.parked
        hok.frames hfresh
      exact stopped hseg
        (h.body (Ledger.of_absent _ hfresh) hok.inv hadmits)
  | @answer s f stack parked next s' out r hr hseg =>
      have hcallback := hok.stacked f List.mem_cons_self
      have habove : forall g, g ∈ stack -> g.id < f.id := by
        intro g hg
        exact (List.pairwise_cons.mp hok.sorted).1 g.id
          (List.mem_map.mpr ⟨g, hg, rfl⟩)
      refine goOn hok (List.Perm.refl (f :: (stack ++ parked)))
        (List.sublist_cons_self f stack) (fun g hg => hg) habove ?_ ?_ hr hseg
      · intro g hg
        rcases List.mem_cons.mp hg with hg | hg
        · exact Nat.le_of_eq (congrArg Frame.id hg)
        · exact Nat.le_of_lt (habove g hg)
      · intro hawait
        rw [hcallback] at hawait
        cases hawait
  | @resume s front f back next s' out r hr hseg =>
      have hperm : (front ++ f :: back).Perm (f :: (front ++ back)) :=
        List.perm_middle
      have hidle : Ok M Inv ⟨s, [], front ++ f :: back, next⟩ := hok
      exact goOn hidle hperm (List.Sublist.refl [])
        (fun g hg => hperm.mem_iff.mpr (List.mem_cons_of_mem f hg)) nofun
        nofun (fun _ => rfl) hr hseg
  | env henv =>
      exact ⟨hok.ids, hok.distinct, hok.stacked, hok.sorted, hok.parked,
        hok.frames, h.env hok.inv henv⟩

theorem reachable {M : Machine state I error value op}
    {Inv : Ledger I -> state -> Prop} (h : Inductive M Inv) {s : state}
    (hinit : Inv Ledger.empty s) {cfg : Config state I error value op}
    (hreach : Reachable M s cfg) : Ok M Inv cfg := by
  induction hreach with
  | refl =>
      exact ⟨fun f hf => absurd hf List.not_mem_nil, List.nodup_nil,
        fun f hf => absurd hf List.not_mem_nil, List.Pairwise.nil,
        fun f hf => absurd hf List.not_mem_nil,
        fun f hf => absurd hf List.not_mem_nil, hinit⟩
  | tail _ hstep ih => exact h.step hstep ih

/-- Without callbacks nothing is ever stacked. -/
theorem Ok.stack_nil {M : Machine state I error value op}
    {Inv : Ledger I -> state -> Prop}
    {cfg : Config state I error value op} (hok : Ok M Inv cfg)
    (h : forall c, M.boundary c ≠ Boundary.callback) : cfg.stack = [] := by
  cases hstack : cfg.stack with
  | nil => rfl
  | cons f rest =>
      have hf : f ∈ cfg.stack := by
        rw [hstack]
        exact List.mem_cons_self
      exact absurd (hok.stacked f hf) (h f.call)

end Inductive

end Foundation
end FlanTerminal
