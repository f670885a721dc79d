import Mathlib.Data.Nat.ModEq
import Mathlib.Tactic.Ring

/-!
# Blocks of numbers with the same first bits

The numbers that agree with a number but for the last `k` bits are a block.
The first number of a block and `k` say which block it is.
-/

namespace FlanTerminal
namespace Foundation
namespace Blocks

def clear (k n : Nat) : Nat :=
  n / 2 ^ k * 2 ^ k

variable {j k n m w a : Nat}

theorem clear_le (k n : Nat) : clear k n ≤ n :=
  Nat.div_mul_le_self n (2 ^ k)

theorem clear_div (k n : Nat) : clear k n / 2 ^ k = n / 2 ^ k :=
  Nat.mul_div_cancel _ (Nat.two_pow_pos k)

theorem clear_clear (k n : Nat) : clear k (clear k n) = clear k n := by
  unfold clear
  rw [Nat.mul_div_cancel _ (Nat.two_pow_pos k)]

theorem clear_congr (h : n / 2 ^ k = m / 2 ^ k) : clear k n = clear k m := by
  unfold clear
  rw [h]

theorem clear_div_of_le (h : k ≤ j) : clear k n / 2 ^ j = n / 2 ^ j := by
  have hpow : 2 ^ j = 2 ^ k * 2 ^ (j - k) := by
    rw [<- pow_add, Nat.add_sub_cancel' h]
  rw [hpow, <- Nat.div_div_eq_div_mul, <- Nat.div_div_eq_div_mul, clear_div]

theorem clear_add (h : k ≤ j) :
    clear k (a * 2 ^ j + n) = a * 2 ^ j + clear k n := by
  have hpow : a * 2 ^ j = a * 2 ^ (j - k) * 2 ^ k := by
    rw [mul_assoc, <- pow_add, Nat.sub_add_cancel h]
  unfold clear
  rw [hpow, Nat.add_comm, Nat.add_mul_div_right _ _ (Nat.two_pow_pos k),
    add_mul, Nat.add_comm]

theorem le_of_subset (hn : n < 2 ^ w) (hj : j ≤ w)
    (h : forall x, x < 2 ^ w -> x / 2 ^ j = n / 2 ^ j ->
      x / 2 ^ k = m / 2 ^ k) : j ≤ k := by
  by_contra hlt
  rw [not_le] at hlt
  have hpow : 2 ^ k < 2 ^ j := Nat.pow_lt_pow_right (by decide) hlt
  have hquotient : n / 2 ^ j < 2 ^ (w - j) := by
    apply Nat.div_lt_of_lt_mul
    rw [<- pow_add, Nat.add_sub_cancel' hj]
    exact hn
  -- the first number of the block and the one `2 ^ k` after it
  have hfirst := h (clear j n) ((clear_le j n).trans_lt hn) (clear_div j n)
  have hnext : (clear j n + 2 ^ k) / 2 ^ j = n / 2 ^ j := by
    unfold clear
    rw [Nat.add_comm, Nat.add_mul_div_right _ _ (Nat.two_pow_pos j),
      Nat.div_eq_of_lt hpow, Nat.zero_add]
  have hbound : clear j n + 2 ^ k < 2 ^ w := by
    calc clear j n + 2 ^ k
        < n / 2 ^ j * 2 ^ j + 2 ^ j := Nat.add_lt_add_left hpow _
      _ = (n / 2 ^ j + 1) * 2 ^ j := (Nat.succ_mul _ _).symm
      _ ≤ 2 ^ (w - j) * 2 ^ j := Nat.mul_le_mul_right _ hquotient
      _ = 2 ^ w := by rw [<- pow_add, Nat.sub_add_cancel hj]
  have hsecond := h _ hbound hnext
  rw [Nat.add_div_right _ (Nat.two_pow_pos k), <- hfirst] at hsecond
  exact Nat.succ_ne_self _ hsecond

/-- Two descriptions of one block agree. -/
theorem block_unique (hn : n < 2 ^ w) (hm : m < 2 ^ w) (hj : j ≤ w)
    (hk : k ≤ w) (h : forall x, x < 2 ^ w ->
      (x / 2 ^ j = n / 2 ^ j <-> x / 2 ^ k = m / 2 ^ k)) :
    j = k ∧ clear j n = clear j m := by
  have heq : j = k := Nat.le_antisymm
    (le_of_subset hn hj fun x hx => (h x hx).mp)
    (le_of_subset hm hk fun x hx => (h x hx).mpr)
  refine ⟨heq, clear_congr ?_⟩
  rw [<- heq] at h
  exact (h n hn).mp rfl

end Blocks
end Foundation
end FlanTerminal
