import FlanTerminal.Foundation.EventLoop

/-!
# Runs from a script

A script fixes the replies of the surroundings, so that a list of moves can be
carried out by computation.  What is computed is a run.
-/

namespace FlanTerminal
namespace Foundation

variable {state : Type} {I : Interface} {error value op : Type}

/-- Replies, and tests for what the surroundings of a machine permit. -/
structure Script (M : Machine state I error value op) where
  reply : state -> Nat -> (c : I.Call) -> I.Reply c
  fair : state -> Nat -> I.Call -> Bool
  admits : state -> op -> Bool
  nudge : state -> Option state
  fair_allowed : forall s n c, fair s n c = true ->
    M.allowed s n c (reply s n c)
  admits_sound : forall s o, admits s o = true -> M.admits s o
  nudge_env : forall s s', nudge s = some s' -> M.env s s'

inductive Move (op : Type) where
  | enter (o : op)
  | answer
  /-- The operation parked at this place goes on. -/
  | resume (place : Nat)
  | env

namespace Script

variable {M : Machine state I error value op}

def exec (sc : Script M) (n : Nat) : Prog state I error value -> state ->
    Option (state × Outcome state I error value)
  | Prog.ret a, s => some (s, Outcome.done (Except.ok a))
  | Prog.raise e, s => some (s, Outcome.done (Except.error e))
  | Prog.act f k, s => exec sc n (k s) (f s)
  | Prog.call c k, s =>
      if M.boundary c = Boundary.sync then
        if sc.fair (M.issue n c s) n c then
          exec sc n (k (sc.reply (M.issue n c s) n c))
            (M.reply n c (sc.reply (M.issue n c s) n c) (M.issue n c s))
        else none
      else some (M.issue n c s, Outcome.wait c k)

/-- A waiting operation receives its reply. -/
def goOn (sc : Script M) (f : Frame state I error value op)
    (stack parked : List (Frame state I error value op)) (next : Nat)
    (s : state) : Option (Config state I error value op) :=
  if sc.fair s f.id f.call then
    (sc.exec f.id (f.cont (sc.reply s f.id f.call))
      (M.reply f.id f.call (sc.reply s f.id f.call) s)).map fun r =>
        Config.settle M stack parked next f.id f.task f.phase r.1 r.2
  else none

def move (sc : Script M) (cfg : Config state I error value op) :
    Move op -> Option (Config state I error value op)
  | Move.enter o =>
      if sc.admits cfg.shared o then
        (sc.exec cfg.next (M.body cfg.next o)
          (M.enter cfg.next o cfg.shared)).map fun r =>
            Config.settle M cfg.stack cfg.parked (cfg.next + 1) cfg.next o
              Phase.first r.1 r.2
      else none
  | Move.answer =>
      match cfg.stack with
      | [] => none
      | f :: stack => sc.goOn f stack cfg.parked cfg.next cfg.shared
  | Move.resume place =>
      match cfg.stack, cfg.parked.drop place with
      | [], f :: back =>
          sc.goOn f [] (cfg.parked.take place ++ back) cfg.next cfg.shared
      | _, _ => none
  | Move.env =>
      (sc.nudge cfg.shared).map fun s => { cfg with shared := s }

def play (sc : Script M) : List (Move op) -> Config state I error value op ->
    Option (Config state I error value op)
  | [], cfg => some cfg
  | m :: rest, cfg => (sc.move cfg m).bind (play sc rest)

theorem exec_seg {sc : Script M} {n : Nat} {p : Prog state I error value}
    {s : state} {r : state × Outcome state I error value}
    (h : sc.exec n p s = some r) : Seg M n p s r.1 r.2 := by
  induction p generalizing s with
  | ret a =>
      cases h
      exact Seg.ret
  | raise e =>
      cases h
      exact Seg.raise
  | act f k ih => exact Seg.act (ih s h)
  | call c k ih =>
      unfold exec at h
      split at h
      · rename_i hsync
        split at h
        · rename_i hfair
          exact Seg.sync _ hsync (sc.fair_allowed _ _ _ hfair) (ih _ h)
        · cases h
      · rename_i hstop
        cases h
        exact Seg.stop hstop

theorem move_step {sc : Script M} {cfg cfg' : Config state I error value op}
    {m : Move op} (h : sc.move cfg m = some cfg') : Step M cfg cfg' := by
  cases m with
  | enter o =>
      simp only [move] at h
      split at h
      · rename_i hadmits
        rcases Option.map_eq_some_iff.mp h with ⟨r, hr, hcfg⟩
        rw [← hcfg]
        exact Step.enter o (sc.admits_sound _ _ hadmits) (exec_seg hr)
      · cases h
  | answer =>
      rcases cfg with ⟨s, stack, parked, next⟩
      cases stack with
      | nil => cases h
      | cons f stack =>
          simp only [move, goOn] at h
          split at h
          · rename_i hfair
            rcases Option.map_eq_some_iff.mp h with ⟨r, hr, hcfg⟩
            rw [← hcfg]
            exact Step.answer _ (sc.fair_allowed _ _ _ hfair) (exec_seg hr)
          · cases h
  | resume place =>
      rcases cfg with ⟨s, stack, parked, next⟩
      cases stack with
      | cons f stack => cases h
      | nil =>
          cases hdrop : parked.drop place with
          | nil =>
              simp only [move, hdrop] at h
              cases h
          | cons f back =>
              simp only [move, hdrop, goOn] at h
              split at h
              · rename_i hfair
                rcases Option.map_eq_some_iff.mp h with ⟨r, hr, hcfg⟩
                have hsplit : parked = parked.take place ++ f :: back := by
                  rw [← hdrop, List.take_append_drop]
                rw [← hcfg]
                have hstep := @Step.resume _ _ _ _ _ M s (parked.take place) f back
                  next _ _ _ (sc.fair_allowed _ _ _ hfair) (exec_seg hr)
                rw [← hsplit] at hstep
                exact hstep
              · cases h
  | env =>
      rcases Option.map_eq_some_iff.mp h with ⟨s', hs', hcfg⟩
      rw [← hcfg]
      exact Step.env (sc.nudge_env _ _ hs')

theorem play_reachable {sc : Script M} {moves : List (Move op)}
    {cfg cfg' : Config state I error value op}
    (h : sc.play moves cfg = some cfg') :
    Relation.ReflTransGen (Step M) cfg cfg' := by
  induction moves generalizing cfg with
  | nil =>
      cases h
      exact Relation.ReflTransGen.refl
  | cons m rest ih =>
      rcases Option.bind_eq_some_iff.mp h with ⟨mid, hmove, hrest⟩
      exact Relation.ReflTransGen.head (move_step hmove) (ih hrest)

end Script

end Foundation
end FlanTerminal
