import Mathlib.Algebra.Order.Field.Basic
import Mathlib.Tactic.Linarith
import Mathlib.Tactic.Ring

/-!
# Token buckets

A bucket holds tokens up to a capacity and is filled at a constant rate, but
only when someone looks at it.  Over any stretch of time, what has been taken
out is bounded by the capacity and by what has flowed in.
-/

namespace FlanTerminal
namespace Foundation
namespace TokenBucket

variable {time : Type} [Field time] [LinearOrder time]
  [IsStrictOrderedRing time]

structure Config (time : Type) where
  capacity : time
  rate : time

structure Level (time : Type) where
  tokens : time
  updatedAt : time

def refill (config : Config time) (now : time) (level : Level time) :
    Level time :=
  ⟨min config.capacity
    (level.tokens + max 0 (now - level.updatedAt) * config.rate), now⟩

def spend (granted : Bool) (level : Level time) : Level time :=
  if granted then ⟨level.tokens - 1, level.updatedAt⟩ else level

omit [IsStrictOrderedRing time] in
@[simp] theorem refill_updatedAt (config : Config time) (now : time)
    (level : Level time) : (refill config now level).updatedAt = now := rfl

omit [LinearOrder time] [IsStrictOrderedRing time] in
@[simp] theorem spend_updatedAt (granted : Bool) (level : Level time) :
    (spend granted level).updatedAt = level.updatedAt := by
  unfold spend
  split
  · rfl
  · rfl

structure Bounded (config : Config time) (level : Level time) : Prop where
  nonneg : 0 ≤ level.tokens
  le : level.tokens ≤ config.capacity

variable {config : Config time} {level : Level time} {now start : time}
variable {granted : Bool} {taken : Nat}

theorem Bounded.refill (hrate : 0 ≤ config.rate)
    (hcapacity : 0 ≤ config.capacity) (h : 0 ≤ level.tokens) :
    Bounded config (refill config now level) := by
  constructor
  · apply le_min hcapacity
    have hflow := mul_nonneg (le_max_left 0 (now - level.updatedAt)) hrate
    exact add_nonneg h hflow
  · exact min_le_left _ _

theorem Bounded.spend (h : Bounded config level)
    (hgranted : granted = true -> 1 ≤ level.tokens) :
    Bounded config (spend granted level) := by
  cases granted with
  | false => exact h
  | true =>
      have hone := hgranted rfl
      constructor
      · exact sub_nonneg.mpr hone
      · have hle := h.le
        show level.tokens - 1 ≤ config.capacity
        linarith

/-!
## What has been taken
-/

/-- What was taken since `start`, and what is left. -/
def Account (config : Config time) (start : time) (taken : Nat)
    (level : Level time) : Prop :=
  (taken : time) + level.tokens ≤
    config.capacity + config.rate * (level.updatedAt - start)

/-- A bucket that is looked at for the first time holds its capacity at
most. -/
theorem account_first (hrate : 0 ≤ config.rate) (hstart : start ≤ now) :
    Account config start 0 (refill config now level) := by
  have hfull : (TokenBucket.refill config now level).tokens ≤
      config.capacity := min_le_left _ _
  have hflow := mul_nonneg hrate (sub_nonneg.mpr hstart)
  show ((0 : Nat) : time) + _ ≤ config.capacity + config.rate * (now - start)
  rw [Nat.cast_zero]
  linarith

theorem Account.refill (h : Account config start taken level)
    (hnow : level.updatedAt ≤ now) :
    Account config start taken (refill config now level) := by
  have hlevel : (TokenBucket.refill config now level).tokens ≤
      level.tokens + (now - level.updatedAt) * config.rate := by
    have hmax : max 0 (now - level.updatedAt) = now - level.updatedAt :=
      max_eq_right (sub_nonneg.mpr hnow)
    show min config.capacity
      (level.tokens + max 0 (now - level.updatedAt) * config.rate) ≤ _
    rw [hmax]
    exact min_le_right _ _
  have hflow : config.rate * (now - start) =
      config.rate * (level.updatedAt - start) +
        (now - level.updatedAt) * config.rate := by ring
  show (taken : time) + _ ≤ config.capacity + config.rate * (now - start)
  have hbefore : (taken : time) + level.tokens ≤
      config.capacity + config.rate * (level.updatedAt - start) := h
  rw [hflow]
  linarith

theorem Account.spend (h : Account config start taken level) :
    Account config start (taken + if granted then 1 else 0)
      (spend granted level) := by
  cases granted with
  | false => exact h
  | true =>
      have hbefore : (taken : time) + level.tokens ≤
          config.capacity + config.rate * (level.updatedAt - start) := h
      show ((taken + 1 : Nat) : time) + (level.tokens - 1) ≤
        config.capacity + config.rate * (level.updatedAt - start)
      rw [Nat.cast_add, Nat.cast_one]
      linarith

/-- The bound on what was taken in a stretch of time. -/
theorem Account.bound (h : Account config start taken level)
    (hrate : 0 ≤ config.rate) (htokens : 0 ≤ level.tokens)
    (hnow : level.updatedAt ≤ now) :
    (taken : time) ≤ config.capacity + config.rate * (now - start) := by
  have hflow : config.rate * (level.updatedAt - start) ≤
      config.rate * (now - start) :=
    mul_le_mul_of_nonneg_left (sub_le_sub_right hnow start) hrate
  have hbefore : (taken : time) + level.tokens ≤
      config.capacity + config.rate * (level.updatedAt - start) := h
  linarith

end TokenBucket
end Foundation
end FlanTerminal
