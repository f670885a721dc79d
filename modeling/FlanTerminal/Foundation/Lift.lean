import FlanTerminal.Foundation.EventLoop

/-!
# A component inside a larger state

The code of a component runs unchanged where the state of the component is part
of a larger one.  When a machine runs the lifted code and treats that part as
the machine of the component does, its runs are runs of the component,
whatever else it keeps and however it restricts its surroundings.
-/

namespace FlanTerminal
namespace Foundation

variable {outer inner : Type} {I : Interface} {error value op : Type}

/-- Where a state is inside a larger one. -/
structure Place (outer inner : Type) where
  view : outer -> inner
  update : (inner -> inner) -> outer -> outer
  view_update : forall f s, view (update f s) = f (view s)
  update_id : forall s, update id s = s

namespace Prog

def lift (P : Place outer inner) :
    Prog inner I error value -> Prog outer I error value
  | ret a => ret a
  | raise e => raise e
  | act f k => act (P.update f) fun s => lift P (k (P.view s))
  | call c k => call c fun r => lift P (k r)

variable {P : Place outer inner} {result : Type}

theorem lift_bind (p : Prog inner I error value)
    (g : value -> Prog inner I error result) :
    (p >>= g).lift P = p.lift P >>= fun a => (g a).lift P := by
  induction p with
  | ret a => rfl
  | raise e => rfl
  | act f k ih => exact congrArg (act (P.update f)) (funext fun s => ih _)
  | call c k ih => exact congrArg (call c) (funext ih)

theorem lift_modify (f : inner -> inner) :
    (modify f : Prog inner I error Unit).lift P = modify (P.update f) := rfl

theorem lift_read (g : inner -> Prog inner I error value) :
    (read >>= g).lift P = read >>= fun s => (g (P.view s)).lift P := by
  have hid : P.update id = id := funext P.update_id
  show act (P.update id) _ = act id _
  rw [hid]
  rfl

end Prog

def Outcome.lift (P : Place outer inner) :
    Outcome inner I error value -> Outcome outer I error value
  | Outcome.done res => Outcome.done res
  | Outcome.wait c k => Outcome.wait c fun r => (k r).lift P

def Frame.lift (P : Place outer inner) (f : Frame inner I error value op) :
    Frame outer I error value op :=
  ⟨f.id, f.task, f.phase, f.call, fun r => (f.cont r).lift P⟩

/-- The machine `M'` runs the code of `M` on a part of its state. -/
structure Hosts (P : Place outer inner) (M' : Machine outer I error value op)
    (M : Machine inner I error value op) : Prop where
  body : forall n o, M'.body n o = (M.body n o).lift P
  boundary : M'.boundary = M.boundary
  admits : forall s o, M'.admits s o -> M.admits (P.view s) o
  enter : forall n o s, P.view (M'.enter n o s) = M.enter n o (P.view s)
  issue : forall n c s, P.view (M'.issue n c s) = M.issue n c (P.view s)
  allowed : forall s n c r, M'.allowed s n c r -> M.allowed (P.view s) n c r
  reply : forall n c r s, P.view (M'.reply n c r s) = M.reply n c r (P.view s)
  leave : forall n o res s,
    P.view (M'.leave n o res s) = M.leave n o res (P.view s)
  env : forall s s', M'.env s s' ->
    P.view s' = P.view s ∨ M.env (P.view s) (P.view s')

structure Config.Shows (P : Place outer inner)
    (cfg' : Config outer I error value op)
    (cfg : Config inner I error value op) : Prop where
  shared : cfg.shared = P.view cfg'.shared
  stack : cfg'.stack = cfg.stack.map (Frame.lift P)
  parked : cfg'.parked = cfg.parked.map (Frame.lift P)
  next : cfg'.next = cfg.next

namespace Hosts

variable {P : Place outer inner} {M' : Machine outer I error value op}
variable {M : Machine inner I error value op}

theorem seg (h : Hosts P M' M) {n : Nat} {p : Prog inner I error value}
    {s s' : outer} {out : Outcome outer I error value}
    (hseg : Seg M' n (p.lift P) s s' out) :
    exists out0, out = out0.lift P ∧
      Seg M n p (P.view s) (P.view s') out0 := by
  induction p generalizing s with
  | ret a =>
      cases hseg with
      | ret => exact ⟨Outcome.done (Except.ok a), rfl, Seg.ret⟩
  | raise e =>
      cases hseg with
      | raise => exact ⟨Outcome.done (Except.error e), rfl, Seg.raise⟩
  | act f k ih =>
      cases hseg with
      | act hseg =>
          rcases ih _ hseg with ⟨out0, hout, hseg⟩
          rw [P.view_update] at hseg
          exact ⟨out0, hout, Seg.act hseg⟩
  | call c k ih =>
      cases hseg with
      | sync r hc hr hseg =>
          rcases ih r hseg with ⟨out0, hout, hseg⟩
          rw [h.reply, h.issue] at hseg
          have hallowed := h.allowed _ _ _ _ hr
          rw [h.issue] at hallowed
          rw [h.boundary] at hc
          exact ⟨out0, hout, Seg.sync r hc hallowed hseg⟩
      | stop hc =>
          rw [h.boundary] at hc
          refine ⟨Outcome.wait c k, rfl, ?_⟩
          rw [h.issue]
          exact Seg.stop hc

theorem settle (h : Hosts P M' M)
    (stack parked : List (Frame inner I error value op)) (next n : Nat)
    (o : op) (ph : Phase) (s : outer) (out : Outcome inner I error value) :
    (Config.settle M' (stack.map (Frame.lift P))
      (parked.map (Frame.lift P)) next n o ph s (out.lift P)).Shows P
      (Config.settle M stack parked next n o ph (P.view s) out) := by
  cases out with
  | done res => exact ⟨(h.leave n o res s).symm, rfl, rfl, rfl⟩
  | wait c k =>
      simp only [Outcome.lift, Config.settle]
      rw [h.boundary]
      split
      · exact ⟨rfl, rfl, by simp [Frame.lift], rfl⟩
      · exact ⟨rfl, rfl, rfl, rfl⟩

theorem step (h : Hosts P M' M) {cfg' next' : Config outer I error value op}
    {cfg : Config inner I error value op} (hshows : cfg'.Shows P cfg)
    (hstep : Step M' cfg' next') :
    exists next, next'.Shows P next ∧
      Relation.ReflTransGen (Step M) cfg next := by
  rcases cfg with ⟨shared, stack, parked, next⟩
  rcases hshows with ⟨hshared, hstack, hparked, hnext⟩
  simp only at hshared hstack hparked hnext
  rw [hshared]
  clear hshared shared
  cases hstep with
  | enter o hadmits hseg =>
      rw [h.body] at hseg
      rcases h.seg hseg with ⟨out0, hout, hseg⟩
      rw [h.enter, hnext] at hseg
      rw [hout, hstack, hparked, hnext]
      exact ⟨_, h.settle _ _ _ _ _ _ _ _,
        Relation.ReflTransGen.single
          (Step.enter o (h.admits _ _ hadmits) hseg)⟩
  | answer r hr hseg =>
      cases stack with
      | nil => cases hstack
      | cons f stack =>
          dsimp only at hparked hnext
          rcases List.cons_eq_cons.mp hstack with ⟨hf, hrest⟩
          cases hf
          rcases h.seg (p := f.cont r) hseg with ⟨out0, hout, hseg⟩
          rw [h.reply] at hseg
          rw [hout, hrest, hparked, hnext]
          exact ⟨_, h.settle _ _ _ _ _ _ _ _,
            Relation.ReflTransGen.single
              (Step.answer r (h.allowed _ _ _ _ hr) hseg)⟩
  | resume r hr hseg =>
      dsimp only at hparked hnext
      have hempty := List.map_eq_nil_iff.mp hstack.symm
      rcases List.map_eq_append_iff.mp hparked.symm with
        ⟨front, rest, hsplit, hfront, hrest⟩
      rcases List.map_eq_cons_iff.mp hrest with ⟨f, back, hcons, hf, hback⟩
      rw [hempty, hsplit, hcons, hnext]
      cases hf
      cases hfront
      cases hback
      rcases h.seg (p := f.cont r) hseg with ⟨out0, hout, hseg⟩
      rw [h.reply] at hseg
      rw [hout, ← List.map_append]
      exact ⟨_, h.settle [] _ _ _ _ _ _ _,
        Relation.ReflTransGen.single
          (Step.resume r (h.allowed _ _ _ _ hr) hseg)⟩
  | env henv =>
      rcases h.env _ _ henv with hsame | henv
      · refine ⟨_, ⟨?_, hstack, hparked, hnext⟩, Relation.ReflTransGen.refl⟩
        exact hsame.symm
      · refine ⟨⟨P.view _, stack, parked, next⟩,
          ⟨rfl, hstack, hparked, hnext⟩, Relation.ReflTransGen.single ?_⟩
        exact @Step.env _ _ _ _ _ M ⟨P.view cfg'.shared, stack, parked, next⟩
          _ henv

theorem reachable (h : Hosts P M' M) {s : outer}
    {cfg' : Config outer I error value op} (hreach : Reachable M' s cfg') :
    exists cfg, cfg'.Shows P cfg ∧ Reachable M (P.view s) cfg := by
  induction hreach with
  | refl => exact ⟨_, ⟨rfl, rfl, rfl, rfl⟩, Relation.ReflTransGen.refl⟩
  | tail _ hstep ih =>
      rcases ih with ⟨cfg, hshows, hreach⟩
      rcases h.step hshows hstep with ⟨next, hshows', hpath⟩
      exact ⟨next, hshows', hreach.trans hpath⟩

end Hosts

/-!
## Assumptions

What holds in every state of a run may be assumed where an operation starts.
-/

/-- Operations start only in states that satisfy `P`. -/
def Machine.assuming (M : Machine inner I error value op)
    (P : inner -> Prop) : Machine inner I error value op :=
  { M with admits := fun s o => M.admits s o ∧ P s }

theorem Seg.assuming {M : Machine inner I error value op} {P : inner -> Prop}
    {n : Nat} {p : Prog inner I error value} {s s' : inner}
    {out : Outcome inner I error value} (h : Seg M n p s s' out) :
    Seg (M.assuming P) n p s s' out := by
  induction h with
  | ret => exact Seg.ret
  | raise => exact Seg.raise
  | act _ ih => exact Seg.act ih
  | sync r hc hr _ ih => exact Seg.sync r hc hr ih
  | stop hc => exact Seg.stop hc

theorem Step.assuming {M : Machine inner I error value op} {P : inner -> Prop}
    {cfg next : Config inner I error value op} (hP : P cfg.shared)
    (hstep : Step M cfg next) : Step (M.assuming P) cfg next := by
  have hsettle : forall stack parked next n o ph s
      (out : Outcome inner I error value),
      Config.settle (M.assuming P) stack parked next n o ph s out =
        Config.settle M stack parked next n o ph s out := by
    intro stack parked next n o ph s out
    cases out with
    | done res => rfl
    | wait c k => rfl
  cases hstep with
  | enter o hadmits hseg =>
      rw [← hsettle]
      exact Step.enter o ⟨hadmits, hP⟩ hseg.assuming
  | answer r hr hseg =>
      rw [← hsettle]
      exact Step.answer r hr hseg.assuming
  | resume r hr hseg =>
      rw [← hsettle]
      exact Step.resume r hr hseg.assuming
  | env henv => exact Step.env henv

theorem Reachable.assuming {M : Machine inner I error value op}
    {P : inner -> Prop} {s : inner}
    (hP : forall cfg : Config inner I error value op, Reachable M s cfg ->
      P cfg.shared) {cfg : Config inner I error value op}
    (hreach : Reachable M s cfg) : Reachable (M.assuming P) s cfg := by
  induction hreach with
  | refl => exact Relation.ReflTransGen.refl
  | tail hreach hstep ih => exact ih.tail (hstep.assuming (hP _ hreach))

end Foundation
end FlanTerminal
