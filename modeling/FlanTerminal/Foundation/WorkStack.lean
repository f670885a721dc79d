import Mathlib.Tactic.Common

/-!
# Work stacks

A loop that pops an item, may push others in its place, and changes a state.
It ends because each item that pushes spends something that the state has a
bound on.  What is on the stack below an item waits: a stack is worked through
as its upper part and then its lower part.
-/

namespace FlanTerminal
namespace Foundation

structure WorkStack (item state error : Type) where
  step : item -> state -> Except error (List item × state)
  /-- What the state can still spend. -/
  left : state -> Nat
  spends : forall {i s pushed t}, step i s = Except.ok (pushed, t) ->
    left t < left s ∨ (pushed = [] ∧ left t = left s)

namespace WorkStack

variable {item state error : Type} (W : WorkStack item state error)

theorem bind_ok_iff {a b : Type} {x : Except error a} {f : a -> Except error b}
    {y : b} : (x >>= f) = Except.ok y <->
      exists z, x = Except.ok z ∧ f z = Except.ok y := by
  cases x with
  | error e =>
      constructor
      · intro h
        cases h
      · intro h
        obtain ⟨z, hz, _⟩ := h
        cases hz
  | ok z =>
      constructor
      · intro h
        exact ⟨z, rfl, h⟩
      · intro h
        obtain ⟨z', hz, hf⟩ := h
        cases hz
        exact hf

/-- Works the stack through; the head of the list is the top. -/
def drain : List item -> state -> Except error state
  | [], s => Except.ok s
  | i :: work, s =>
      match _h : W.step i s with
      | Except.error e => Except.error e
      | Except.ok (pushed, t) => drain (pushed ++ work) t
termination_by work s => (W.left s, work.length)
decreasing_by
  rcases W.spends _h with hlt | ⟨hp, heq⟩
  · exact Prod.Lex.left _ _ hlt
  · rw [hp, heq]
    exact Prod.Lex.right _ (Nat.lt_succ_self _)

@[simp] theorem drain_nil (s : state) : W.drain [] s = Except.ok s := by
  rw [drain]

theorem drain_cons (i : item) (work : List item) (s : state) :
    W.drain (i :: work) s =
      W.step i s >>= fun r => W.drain (r.1 ++ work) r.2 := by
  rw [drain]
  split
  · rename_i e h
    rw [h]
    rfl
  · rename_i pushed t h
    rw [h]
    rfl

/-- The lower part of the stack waits for the upper part. -/
theorem drain_append (upper lower : List item) (s : state) :
    W.drain (upper ++ lower) s = W.drain upper s >>= W.drain lower := by
  induction upper, s using drain.induct W with
  | case1 s =>
      rw [drain_nil]
      rfl
  | case2 i work s e h =>
      rw [List.cons_append, drain_cons, drain_cons, h]
      rfl
  | case3 i work s pushed t h ih =>
      rw [List.cons_append, drain_cons, drain_cons, h]
      show W.drain (pushed ++ (work ++ lower)) t =
        W.drain (pushed ++ work) t >>= W.drain lower
      rw [<- List.append_assoc, ih]

theorem drain_push (i : item) (work : List item) (s : state) :
    W.drain (i :: work) s = W.drain [i] s >>= W.drain work :=
  W.drain_append [i] work s

theorem drain_one (i : item) (s : state) :
    W.drain [i] s = W.step i s >>= fun r => W.drain r.1 r.2 := by
  rw [drain_cons]
  simp only [List.append_nil]

/-- A stack is worked through exactly when its top is, and then the rest. -/
theorem drain_push_ok {i : item} {work : List item} {s t : state} :
    W.drain (i :: work) s = Except.ok t <->
      exists u, W.drain [i] s = Except.ok u ∧ W.drain work u = Except.ok t := by
  rw [drain_push, bind_ok_iff]

end WorkStack
end Foundation
end FlanTerminal
