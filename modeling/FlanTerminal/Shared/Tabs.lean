import FlanTerminal.Foundation.JsString

/-!
# Tab identifiers

The shared package validates tab ids with one pattern, and a session id is a
tab id.  This module also names the close codes that belong to tabs.
-/

namespace FlanTerminal
namespace Shared

open Foundation

def SESSION_REPLACED : Nat := 4001
def AUTHENTICATION_REQUIRED : Nat := 4003
def BRIDGE_RESTART : Nat := 4010
def SESSION_STOPPED : Nat := 4011
def SESSION_RESTARTING : Nat := 4012

def isHexLower (u : UInt16) : Bool :=
  (48 ≤ u.toNat && u.toNat ≤ 57) || (97 ≤ u.toNat && u.toNat ≤ 102)

def isDash (u : UInt16) : Bool :=
  u == 45

/-- The digit that gives the version of the identifier, `[1-8]`. -/
def isVersionDigit (u : UInt16) : Bool :=
  49 ≤ u.toNat && u.toNat ≤ 56

/-- The digit that gives the variant, `[89ab]`. -/
def isVariantDigit (u : UInt16) : Bool :=
  u == 56 || u == 57 || u == 97 || u == 98

/-- `TAB_ID_PATTERN`, one test for each code unit. -/
def tabIdPattern : List (UInt16 -> Bool) :=
  List.replicate 8 isHexLower ++ [isDash] ++
    List.replicate 4 isHexLower ++ [isDash] ++
    [isVersionDigit] ++ List.replicate 3 isHexLower ++ [isDash] ++
    [isVariantDigit] ++ List.replicate 3 isHexLower ++ [isDash] ++
    List.replicate 12 isHexLower

def matchesAll : List (UInt16 -> Bool) -> JsString -> Bool
  | [], [] => true
  | p :: ps, u :: us => p u && matchesAll ps us
  | _, _ => false

def isSessionId (id : JsString) : Bool :=
  matchesAll tabIdPattern id

theorem matchesAll_length {ps : List (UInt16 -> Bool)} {us : JsString}
    (h : matchesAll ps us = true) : us.length = ps.length := by
  induction ps generalizing us with
  | nil =>
      cases us with
      | nil => rfl
      | cons u us => simp [matchesAll] at h
  | cons p ps ih =>
      cases us with
      | nil => simp [matchesAll] at h
      | cons u us =>
          simp [matchesAll] at h
          simp [ih h.2]

theorem matchesAll_forall {P : UInt16 -> Prop} {ps : List (UInt16 -> Bool)}
    {us : JsString}
    (hP : forall p, p ∈ ps -> forall u, p u = true -> P u)
    (h : matchesAll ps us = true) : forall u, u ∈ us -> P u := by
  induction ps generalizing us with
  | nil =>
      cases us with
      | nil =>
          intro u hu
          cases hu
      | cons v us => simp [matchesAll] at h
  | cons p ps ih =>
      cases us with
      | nil => simp [matchesAll] at h
      | cons v us =>
          simp [matchesAll] at h
          intro u hu
          rcases List.mem_cons.mp hu with hu | hu
          · rw [hu]
            exact hP p List.mem_cons_self v h.1
          · exact ih (fun q hq => hP q (List.mem_cons_of_mem p hq)) h.2 u hu

theorem isSessionId_length {id : JsString} (h : isSessionId id = true) :
    id.length = 36 :=
  matchesAll_length h

def IsIdUnit (u : UInt16) : Prop :=
  u = 45 ∨ (48 ≤ u.toNat ∧ u.toNat ≤ 57) ∨ (97 ≤ u.toNat ∧ u.toNat ≤ 102)

theorem isSessionId_units {id : JsString} (h : isSessionId id = true) :
    forall u, u ∈ id -> IsIdUnit u := by
  apply matchesAll_forall (P := IsIdUnit) _ h
  intro p hp u hu
  have hcase : p = isHexLower ∨ p = isDash ∨ p = isVersionDigit ∨
      p = isVariantDigit := by
    simp only [tabIdPattern, List.mem_append, List.mem_replicate,
      List.mem_singleton] at hp
    tauto
  rcases hcase with hp | hp | hp | hp <;> subst hp
  · simp [isHexLower] at hu
    exact Or.inr hu
  · simp [isDash] at hu
    exact Or.inl hu
  · simp [isVersionDigit] at hu
    exact Or.inr (Or.inl ⟨by omega, by omega⟩)
  · simp [isVariantDigit] at hu
    rcases hu with ((hu | hu) | hu) | hu <;> subst hu <;>
      simp [IsIdUnit]

end Shared
end FlanTerminal
