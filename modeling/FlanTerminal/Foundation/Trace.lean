import Mathlib.Data.List.Basic

/-!
# Properties of every entry of a log

A log grows at its end.  A property of one entry that depends only on the
entries before it can be checked when the entry is written, and then holds of
the log for good.
-/

namespace FlanTerminal
namespace Foundation

variable {entry : Type}

/-- Every entry is good with respect to the entries before it. -/
def EveryEntry (good : List entry -> entry -> Prop) (log : List entry) : Prop :=
  forall before e after, log = before ++ e :: after -> good before e

theorem everyEntry_nil (good : List entry -> entry -> Prop) :
    EveryEntry good [] := by
  intro before e after h
  cases before with
  | nil => cases h
  | cons x before => cases h

theorem everyEntry_snoc {good : List entry -> entry -> Prop}
    {log : List entry} {e : entry} :
    EveryEntry good (log ++ [e]) <-> EveryEntry good log ∧ good log e := by
  constructor
  · intro h
    constructor
    · intro before x after hlog
      apply h before x (after ++ [e])
      rw [hlog]
      simp
    · exact h log e [] rfl
  · rintro ⟨hlog, he⟩ before x after hsplit
    rcases List.eq_nil_or_concat after with hnil | ⟨front, last, hconcat⟩
    · subst hnil
      rcases List.append_inj' hsplit rfl with ⟨hbefore, hx⟩
      cases hx
      rw [← hbefore]
      exact he
    · subst hconcat
      have hsplit' : log ++ [e] = (before ++ x :: front) ++ [last] := by
        rw [hsplit]
        simp
      rcases List.append_inj' hsplit' rfl with ⟨hlog', _⟩
      exact hlog before x front hlog'

theorem EveryEntry.mono {good good' : List entry -> entry -> Prop}
    {log : List entry} (h : EveryEntry good log)
    (himp : forall before e, good before e -> good' before e) :
    EveryEntry good' log :=
  fun before e after hlog => himp before e (h before e after hlog)

theorem EveryEntry.front {good : List entry -> entry -> Prop}
    {log more : List entry} (h : EveryEntry good (log ++ more)) :
    EveryEntry good log := by
  intro before e after hlog
  apply h before e (after ++ more)
  rw [hlog]
  simp

/-- Two entries of a log are the same one, or one comes before the other. -/
theorem split_cases {before before' after after' : List entry} {e e' : entry}
    (h : before ++ e :: after = before' ++ e' :: after') :
    (before = before' ∧ e = e') ∨
      (exists mid, before' = before ++ e :: mid) ∨
      exists mid, before = before' ++ e' :: mid := by
  rcases List.append_eq_append_iff.mp h with ⟨mid, hbefore, hafter⟩ |
    ⟨mid, hbefore, hafter⟩
  · cases mid with
    | nil =>
        cases hafter
        exact Or.inl ⟨by rw [hbefore, List.append_nil], rfl⟩
    | cons x mid =>
        cases hafter
        exact Or.inr (Or.inl ⟨mid, hbefore⟩)
  · cases mid with
    | nil =>
        cases hafter
        exact Or.inl ⟨by rw [hbefore, List.append_nil], rfl⟩
    | cons x mid =>
        cases hafter
        exact Or.inr (Or.inr ⟨mid, hbefore⟩)

/-- Every entry is good with respect to the entries after it. -/
def EveryAfter (good : entry -> List entry -> Prop) (log : List entry) : Prop :=
  forall before e after, log = before ++ e :: after -> good e after

theorem everyAfter_nil (good : entry -> List entry -> Prop) :
    EveryAfter good [] := by
  intro before e after h
  cases before with
  | nil => cases h
  | cons x before => cases h

theorem everyAfter_snoc {good : entry -> List entry -> Prop}
    {log : List entry} {e : entry} :
    EveryAfter good (log ++ [e]) <->
      EveryAfter (fun x after => good x (after ++ [e])) log ∧ good e [] := by
  constructor
  · intro h
    constructor
    · intro before x after hlog
      apply h before x (after ++ [e])
      rw [hlog]
      simp
    · exact h log e [] rfl
  · rintro ⟨hlog, he⟩ before x after hsplit
    rcases List.eq_nil_or_concat after with hnil | ⟨front, last, hconcat⟩
    · subst hnil
      rcases List.append_inj' hsplit rfl with ⟨_, hx⟩
      cases hx
      exact he
    · subst hconcat
      have hsplit' : log ++ [e] = (before ++ x :: front) ++ [last] := by
        rw [hsplit]
        simp
      rcases List.append_inj' hsplit' rfl with ⟨hlog', hlast⟩
      cases hlast
      rw [List.concat_eq_append]
      exact hlog before x front hlog'

theorem EveryAfter.mono {good good' : entry -> List entry -> Prop}
    {log : List entry} (h : EveryAfter good log)
    (himp : forall e after, good e after -> good' e after) :
    EveryAfter good' log :=
  fun before e after hlog => himp e after (h before e after hlog)

end Foundation
end FlanTerminal
