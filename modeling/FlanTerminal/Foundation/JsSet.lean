import Mathlib.Data.List.Nodup

/-!
# Sets that keep the order of insertion

The `Set` of the language: adding a value that is there changes nothing, a new
value goes to the end.
-/

namespace FlanTerminal
namespace Foundation

abbrev JsSet (value : Type) := List value

namespace JsSet

variable {value : Type} [DecidableEq value]

def add (s : JsSet value) (a : value) : JsSet value :=
  if a ∈ s then s else s ++ [a]

def delete (s : JsSet value) (a : value) : JsSet value :=
  s.filter fun b => decide (b ≠ a)

/-- `for (const a of more) s.add(a)`. -/
def addAll (s more : JsSet value) : JsSet value :=
  more.foldl add s

/-- `for (const a of more) s.delete(a)`. -/
def deleteAll (s more : JsSet value) : JsSet value :=
  more.foldl delete s

@[simp] theorem mem_add {s : JsSet value} {a b : value} :
    b ∈ add s a <-> b ∈ s ∨ b = a := by
  unfold add
  split
  · rename_i ha
    constructor
    · exact Or.inl
    · rintro (hb | hb)
      · exact hb
      · rw [hb]
        exact ha
  · simp

@[simp] theorem mem_delete {s : JsSet value} {a b : value} :
    b ∈ delete s a <-> b ∈ s ∧ b ≠ a := by
  simp [delete]

@[simp] theorem mem_addAll {s more : JsSet value} {b : value} :
    b ∈ addAll s more <-> b ∈ s ∨ b ∈ more := by
  unfold addAll
  induction more generalizing s with
  | nil => simp
  | cons a more ih =>
      rw [List.foldl_cons, ih, mem_add, List.mem_cons, or_assoc]

@[simp] theorem mem_deleteAll {s more : JsSet value} {b : value} :
    b ∈ deleteAll s more <-> b ∈ s ∧ b ∉ more := by
  unfold deleteAll
  induction more generalizing s with
  | nil => simp
  | cons a more ih =>
      rw [List.foldl_cons, ih, mem_delete, List.mem_cons, not_or, and_assoc]

theorem length_add_le (s : JsSet value) (a : value) :
    (add s a).length ≤ s.length + 1 := by
  unfold add
  split
  · exact Nat.le_succ _
  · simp

theorem length_addAll_le (s more : JsSet value) :
    (addAll s more).length ≤ s.length + more.length := by
  unfold addAll
  induction more generalizing s with
  | nil => exact Nat.le_refl _
  | cons a more ih =>
      have hrest := ih (add s a)
      have hadd := length_add_le s a
      rw [List.foldl_cons, List.length_cons]
      omega

theorem length_addAll {s more : JsSet value} (h : (s ++ more).Nodup) :
    (addAll s more).length = s.length + more.length := by
  induction more generalizing s with
  | nil => rfl
  | cons a more ih =>
      have ha : a ∉ s := by
        intro hmem
        exact (List.nodup_append.mp h).2.2 a hmem a List.mem_cons_self rfl
      have hsnoc : add s a = s ++ [a] := if_neg ha
      have hstep : addAll s (a :: more) = addAll (add s a) more := rfl
      rw [hstep, hsnoc, ih (by simpa using h), List.length_append,
        List.length_singleton, List.length_cons]
      omega

theorem nodup_of_length_addAll {s more : JsSet value}
    (h : (addAll s more).length = s.length + more.length) :
    more.Nodup ∧ forall a, a ∈ more -> a ∉ s := by
  induction more generalizing s with
  | nil => exact ⟨List.nodup_nil, fun a ha => absurd ha List.not_mem_nil⟩
  | cons a more ih =>
      have hstep : addAll s (a :: more) = addAll (add s a) more := rfl
      rw [hstep, List.length_cons] at h
      have hle := length_addAll_le (add s a) more
      by_cases ha : a ∈ s
      · have hsame : add s a = s := if_pos ha
        rw [hsame] at hle h
        omega
      · have hsnoc : add s a = s ++ [a] := if_neg ha
        rw [hsnoc] at h
        have hlength : (addAll (s ++ [a]) more).length =
            (s ++ [a]).length + more.length := by
          rw [h, List.length_append, List.length_singleton]
          omega
        rcases ih hlength with ⟨hnodup, hfresh⟩
        constructor
        · rw [List.nodup_cons]
          refine ⟨?_, hnodup⟩
          intro hmem
          exact hfresh a hmem (List.mem_append_right s List.mem_cons_self)
        · intro b hb
          rcases List.mem_cons.mp hb with hb | hb
          · rw [hb]
            exact ha
          · intro hs
            exact hfresh b hb (List.mem_append_left _ hs)

end JsSet

end Foundation
end FlanTerminal
