import FlanTerminal.Foundation.Json

/-!
# Naturals as text

A natural below `2 ^ 53` is a double, its text is its decimal digits, and the
digits are read back as the same number.
-/

namespace FlanTerminal
namespace Foundation

/-!
## Digits
-/

theorem decimalDigits_small {n : Nat} (h : n < 10) :
    decimalDigits n = [UInt16.ofNat (48 + n)] := by
  have hall : forall m, m < 10 ->
      decimalDigits m = [UInt16.ofNat (48 + m)] := by decide
  exact hall n h

theorem decimalDigits_step {n : Nat} (h : 10 ≤ n) :
    decimalDigits n =
      decimalDigits (n / 10) ++ [UInt16.ofNat (48 + n % 10)] := by
  have hlast : UInt16.ofNat (Nat.digitChar (n % 10)).toNat =
      UInt16.ofNat (48 + n % 10) := by
    have hall : forall m, m < 10 -> UInt16.ofNat (Nat.digitChar m).toNat =
        UInt16.ofNat (48 + m) := by decide
    exact hall _ (Nat.mod_lt _ (by decide))
  unfold decimalDigits
  rw [Nat.toDigits_of_base_le (by decide) h, List.map_append, List.map_singleton,
    hlast]

theorem decimalDigits_append_zero {n : Nat} (h : 0 < n) :
    decimalDigits (10 * n) = decimalDigits n ++ [48] := by
  rw [decimalDigits_step (by omega), Nat.mul_div_cancel_left n (by decide),
    Nat.mul_mod_right]
  rfl

theorem decimalDigits_mul_pow {n : Nat} (h : 0 < n) (k : Nat) :
    decimalDigits (n * 10 ^ k) = decimalDigits n ++ List.replicate k 48 := by
  induction k with
  | zero => simp
  | succ k ih =>
      have hpos : 0 < n * 10 ^ k := Nat.mul_pos h (Nat.pow_pos (by decide))
      rw [show n * 10 ^ (k + 1) = 10 * (n * 10 ^ k) by ring,
        decimalDigits_append_zero hpos, ih, List.append_assoc,
        ← List.replicate_succ']

theorem length_decimalDigits_le {n k : Nat} (hk : 0 < k) :
    (decimalDigits n).length ≤ k <-> n < 10 ^ k := by
  unfold decimalDigits
  rw [List.length_map]
  exact Nat.length_toDigits_le_iff (by decide) hk

theorem decimalDigits_ascii (n : Nat) :
    forall u, u ∈ decimalDigits n -> 48 ≤ u.toNat ∧ u.toNat ≤ 57 := by
  have hdigit : forall m, m < 10 -> 48 ≤ (UInt16.ofNat (48 + m)).toNat ∧
      (UInt16.ofNat (48 + m)).toNat ≤ 57 := by decide
  induction n using Nat.strongRecOn with
  | ind n ih =>
      intro u hu
      by_cases h : n < 10
      · rw [decimalDigits_small h] at hu
        rw [List.mem_singleton.mp hu]
        exact hdigit n h
      · rw [decimalDigits_step (by omega)] at hu
        rcases List.mem_append.mp hu with hu | hu
        · exact ih (n / 10) (by omega) u hu
        · rw [List.mem_singleton.mp hu]
          exact hdigit _ (Nat.mod_lt _ (by decide))

def decimalValue (s : JsString) : Nat :=
  s.foldl (fun n u => 10 * n + (u.toNat - 48)) 0

theorem decimalValue_digits (n : Nat) : decimalValue (decimalDigits n) = n := by
  have hdigit : forall m, m < 10 -> (UInt16.ofNat (48 + m)).toNat = 48 + m := by
    decide
  induction n using Nat.strongRecOn with
  | ind n ih =>
      by_cases h : n < 10
      · rw [decimalDigits_small h]
        show 10 * 0 + ((UInt16.ofNat (48 + n)).toNat - 48) = n
        rw [hdigit n h]
        omega
      · have hlast : n % 10 < 10 := Nat.mod_lt _ (by decide)
        rw [decimalDigits_step (by omega), decimalValue, List.foldl_append]
        show 10 * decimalValue (decimalDigits (n / 10)) +
          ((UInt16.ofNat (48 + n % 10)).toNat - 48) = n
        rw [ih (n / 10) (by omega), hdigit _ hlast]
        omega

theorem decimalDigits_injective {n m : Nat}
    (h : decimalDigits n = decimalDigits m) : n = m := by
  rw [<- decimalValue_digits n, <- decimalValue_digits m, h]

/-!
## Naturals are doubles
-/

theorem binaryExponent_one {n : Nat} (h : 0 < n) :
    binaryExponent n 1 = n.log2 := by
  have hone : (1 : Nat).log2 = 0 := by decide
  have hle : 1 * 2 ^ n.log2 ≤ n := by
    rw [Nat.one_mul]
    exact Nat.log2_self_le (by omega)
  unfold binaryExponent
  dsimp only
  rw [hone]
  simp only [Nat.cast_zero, sub_zero, Nat.cast_nonneg, if_true, Int.toNat_natCast,
    if_pos hle]

theorem roundHalfEven_one (a : Nat) : roundHalfEven a 1 = a := by
  unfold roundHalfEven
  simp [Nat.mod_one]

theorem le_roundHalfEven (a b : Nat) : a / b ≤ roundHalfEven a b := by
  unfold roundHalfEven
  dsimp only
  split
  · exact Nat.le_refl _
  · split
    · exact Nat.le_succ _
    · split
      · exact Nat.le_refl _
      · exact Nat.le_succ _

theorem roundToDouble_nat {n : Nat} (h : n < 2 ^ 53) :
    roundToDouble (n : ℚ) = JsNumber.finite n := by
  by_cases hzero : n = 0
  · rw [hzero]
    simp [roundToDouble]
  · have hpos : 0 < n := Nat.pos_of_ne_zero hzero
    have hlog : n.log2 < 53 := (Nat.log2_lt hzero).mpr h
    have hq : (n : ℚ) ≠ 0 := by exact_mod_cast hzero
    obtain ⟨j, hj⟩ : exists j : Nat, (n.log2 : Int) - 52 = -(j : Int) :=
      ⟨52 - n.log2, by omega⟩
    have hsmall : j ≤ 52 := by omega
    have hmax : max ((n.log2 : Int) - 52) (-1074) = -(j : Int) := by
      rw [hj]
      omega
    unfold roundToDouble
    rw [if_neg hq]
    simp only [Rat.num_natCast, Rat.den_natCast, Int.natAbs_natCast,
      binaryExponent_one hpos, hmax, neg_neg, Int.toNat_natCast]
    have hsize : (((if (0 : Int) ≤ -(j : Int) then
        roundHalfEven n (1 * 2 ^ (-(j : Int)).toNat)
        else roundHalfEven (n * 2 ^ j) 1 : Nat) : ℚ)) * (2 : ℚ) ^ (-(j : Int)) =
          n := by
      split
      · have hj0 : j = 0 := by omega
        subst hj0
        simp [roundHalfEven_one]
      · rw [roundHalfEven_one]
        push_cast
        rw [zpow_neg, zpow_natCast]
        field_simp
    rw [hsize]
    have hbound : ¬ (2 : ℚ) ^ (1024 : Nat) ≤ n := by
      rw [not_le]
      have hpow : (n : ℚ) < 2 ^ 53 := by exact_mod_cast h
      exact hpow.trans (pow_lt_pow_right₀ (by norm_num) (by norm_num))
    rw [if_neg hbound]
    have hm : ¬ (if (0 : Int) ≤ -(j : Int) then
        roundHalfEven n (1 * 2 ^ (-(j : Int)).toNat)
        else roundHalfEven (n * 2 ^ j) 1) = 0 := by
      intro hm
      rw [hm] at hsize
      simp at hsize
      exact hq hsize.symm
    rw [if_neg hm, if_neg (by exact_mod_cast Nat.not_lt_zero n)]

theorem roundToDouble_large {x : Nat} (h : 2 ^ 53 ≤ x) {q : ℚ}
    (hq : roundToDouble (x : ℚ) = JsNumber.finite q) : (2 : ℚ) ^ 53 ≤ q := by
  have hpos : 0 < x := lt_of_lt_of_le (by decide) h
  have hx : (x : ℚ) ≠ 0 := by exact_mod_cast Nat.ne_of_gt hpos
  have hlog : 53 ≤ x.log2 := by
    by_contra hnot
    have := (Nat.log2_lt (Nat.ne_of_gt hpos)).mp (Nat.lt_of_not_le hnot)
    omega
  obtain ⟨j, hj⟩ : exists j : Nat, x.log2 = j + 52 := ⟨x.log2 - 52, by omega⟩
  have hmax : max ((x.log2 : Int) - 52) (-1074) = (j : Int) := by
    rw [hj]
    omega
  unfold roundToDouble at hq
  rw [if_neg hx] at hq
  simp only [Rat.num_natCast, Rat.den_natCast, Int.natAbs_natCast,
    binaryExponent_one hpos, hmax, Nat.cast_nonneg, if_true, Int.toNat_natCast,
    one_mul, zpow_natCast] at hq
  have hm : 2 ^ 52 ≤ roundHalfEven x (2 ^ j) := by
    apply Nat.le_trans _ (le_roundHalfEven _ _)
    rw [Nat.le_div_iff_mul_le (Nat.pow_pos (by decide)), ← pow_add,
      Nat.add_comm, ← hj]
    exact Nat.log2_self_le (Nat.ne_of_gt hpos)
  split at hq
  · cases hq
  · rw [if_neg (by omega)] at hq
    have hneg : ¬ (x : ℚ) < 0 := not_lt.mpr (Nat.cast_nonneg x)
    cases hq
    rw [if_neg hneg]
    have hj1 : 1 ≤ j := by omega
    calc (2 : ℚ) ^ 53 = 2 ^ 52 * 2 ^ 1 := by norm_num
      _ ≤ (roundHalfEven x (2 ^ j) : ℚ) * 2 ^ j := by
          apply mul_le_mul
          · exact_mod_cast hm
          · exact pow_le_pow_right₀ (by norm_num) hj1
          · norm_num
          · exact Nat.cast_nonneg _

/-- Distinct naturals are told apart as long as one of them is small. -/
theorem roundToDouble_eq_nat {x n : Nat} (hn : n < 2 ^ 53) :
    roundToDouble (x : ℚ) = JsNumber.finite n <-> x = n := by
  constructor
  · intro h
    by_cases hx : x < 2 ^ 53
    · rw [roundToDouble_nat hx] at h
      exact_mod_cast JsNumber.finite.inj h
    · have hlarge := roundToDouble_large (Nat.le_of_not_lt hx) h
      have hsmall : (n : ℚ) < 2 ^ 53 := by exact_mod_cast hn
      exact absurd hlarge (not_le.mpr hsmall)
  · intro h
    rw [h]
    exact roundToDouble_nat hn

/-!
## The shortest digits of a natural
-/

section Shortest

variable {n places : Nat}

theorem decimalExponent_nat (hlow : 10 ^ places ≤ n)
    (hhigh : n < 10 ^ (places + 1)) :
    decimalExponent (n : ℚ) = (places + 1 : Nat) := by
  have hpos : 1 ≤ n := Nat.le_trans (Nat.pow_pos (by decide)) hlow
  have hone : (1 : ℚ) ≤ n := by exact_mod_cast hpos
  unfold decimalExponent
  rw [if_pos hone]
  simp only [Rat.num_natCast, Rat.den_natCast, Int.natAbs_natCast, Nat.div_one]
  have hlog : Nat.log 10 n = places :=
    (Nat.log_eq_iff (Or.inr ⟨by decide, by omega⟩)).mpr ⟨hlow, hhigh⟩
  rw [hlog]
  push_cast
  rfl

/-- With `k` digits a natural of more places is found exactly when the rest are
zeros. -/
theorem digitsAt_nat (hn : n < 2 ^ 53) {k : Nat} (hk : k ≤ places) :
    digitsAt (n : ℚ) places k =
      if n % 10 ^ (places - k) = 0 then some (n / 10 ^ (places - k))
      else none := by
  obtain ⟨zeros, hzeros⟩ : exists zeros, places - k = zeros := ⟨_, rfl⟩
  have hunit : (10 : ℚ) ^ ((places : Int) - k) = ((10 ^ zeros : Nat) : ℚ) := by
    rw [show (places : Int) - k = (zeros : Int) by omega, zpow_natCast]
    push_cast
    rfl
  have hfloor : ((n : ℚ) / ((10 ^ zeros : Nat) : ℚ)).floor.toNat =
      n / 10 ^ zeros := by
    rw [show ((n : ℚ) / ((10 ^ zeros : Nat) : ℚ)).floor =
      ((n / 10 ^ zeros : Nat) : Int) from Rat.floor_natCast_div_natCast n _]
    exact Int.toNat_natCast _
  have hcast : forall d : Nat, ((d : ℚ) * ((10 ^ zeros : Nat) : ℚ)) =
      ((d * 10 ^ zeros : Nat) : ℚ) := fun d => by push_cast; rfl
  have htest : forall d : Nat,
      (roundToDouble ((d : ℚ) * ((10 ^ zeros : Nat) : ℚ)) ==
        JsNumber.finite (n : ℚ)) = decide (d * 10 ^ zeros = n) := by
    intro d
    rw [hcast]
    rw [Bool.eq_iff_iff, beq_iff_eq, decide_eq_true_eq]
    exact roundToDouble_eq_nat hn
  rw [hzeros]
  unfold digitsAt
  dsimp only
  rw [hunit, hfloor]
  simp only [htest]
  have hpow : 0 < 10 ^ zeros := Nat.pow_pos (by decide)
  by_cases hmod : n % 10 ^ zeros = 0
  · have hexact : n / 10 ^ zeros * 10 ^ zeros = n :=
      Nat.div_mul_cancel (Nat.dvd_of_mod_eq_zero hmod)
    have hfrac : (n : ℚ) / ((10 ^ zeros : Nat) : ℚ) -
        ((n / 10 ^ zeros : Nat) : ℚ) ≤ 1 / 2 := by
      have heq : (n : ℚ) / ((10 ^ zeros : Nat) : ℚ) =
          ((n / 10 ^ zeros : Nat) : ℚ) := by
        rw [div_eq_iff (by exact_mod_cast Nat.ne_of_gt hpow)]
        exact_mod_cast hexact.symm
      rw [heq, sub_self]
      norm_num
    rw [if_pos hmod, if_pos hfrac]
    simp [hexact]
  · have hlow : n / 10 ^ zeros * 10 ^ zeros ≠ n := by
      intro h
      exact hmod (Nat.mod_eq_zero_of_dvd ⟨n / 10 ^ zeros, by
        rw [Nat.mul_comm]; exact h.symm⟩)
    have hhigh : (n / 10 ^ zeros + 1) * 10 ^ zeros ≠ n := by
      intro h
      exact hmod (Nat.mod_eq_zero_of_dvd ⟨n / 10 ^ zeros + 1, by
        rw [Nat.mul_comm]; exact h.symm⟩)
    rw [if_neg hmod]
    split
    · simp [hlow, hhigh]
    · simp [hlow, hhigh]

theorem shortestDigits_nat (hn : n < 2 ^ 53) (hlow : 10 ^ places ≤ n)
    (hhigh : n < 10 ^ (places + 1)) :
    exists k, 1 ≤ k ∧ k ≤ places + 1 ∧ n % 10 ^ (places + 1 - k) = 0 ∧
      shortestDigits (n : ℚ) =
        (n / 10 ^ (places + 1 - k), k, ((places + 1 : Nat) : Int)) := by
  have hplaces : places < 16 := by
    by_contra hnot
    have : 10 ^ 16 ≤ n := Nat.le_trans
      (Nat.pow_le_pow_right (by decide) (Nat.le_of_not_lt hnot)) hlow
    omega
  let f : Nat -> Option (Nat × Nat) := fun i =>
    (digitsAt (n : ℚ) (places + 1 : Nat) (i + 1)).map fun d => (d, i + 1)
  have hlast : f places = some (n, places + 1) := by
    show (digitsAt (n : ℚ) (places + 1 : Nat) (places + 1)).map _ = _
    rw [digitsAt_nat hn (Nat.le_refl _), Nat.sub_self, pow_zero, Nat.mod_one,
      if_pos rfl, Nat.div_one]
    rfl
  have hsome : ((List.range (places + 1)).findSome? f).isSome = true := by
    rw [List.findSome?_isSome_iff]
    exact ⟨places, List.mem_range.mpr (Nat.lt_succ_self _), by rw [hlast]; rfl⟩
  obtain ⟨r, hr⟩ := Option.isSome_iff_exists.mp hsome
  have hall : (List.range 17).findSome? f = some r := by
    have hsplit : List.range 17 = List.range (places + 1) ++
        (List.range (17 - (places + 1))).map (places + 1 + ·) := by
      rw [← List.range_add]
      congr 1
      omega
    rw [hsplit, List.findSome?_append, hr]
    rfl
  obtain ⟨i, hi, hfi⟩ := List.exists_of_findSome?_eq_some hr
  have hi' := List.mem_range.mp hi
  have hdigits : (digitsAt (n : ℚ) (places + 1 : Nat) (i + 1)).map
      (fun d => (d, i + 1)) = some r := hfi
  rw [digitsAt_nat hn (by omega)] at hdigits
  split at hdigits
  · rename_i hmod
    cases hdigits
    refine ⟨i + 1, by omega, by omega, hmod, ?_⟩
    have hlt : n / 10 ^ (places + 1 - (i + 1)) < 10 ^ (i + 1) := by
      rw [Nat.div_lt_iff_lt_mul (Nat.pow_pos (by decide)), ← pow_add]
      have hsum : i + 1 + (places + 1 - (i + 1)) = places + 1 := by omega
      rw [hsum]
      exact hhigh
    unfold shortestDigits
    rw [decimalExponent_nat hlow hhigh]
    have hfound : ((List.range 17).findSome? fun i =>
        (digitsAt (n : ℚ) ((places + 1 : Nat) : Int) (i + 1)).map
          fun d => (d, i + 1)) =
        some (n / 10 ^ (places + 1 - (i + 1)), i + 1) := hall
    simp only [hfound, Option.getD_some]
    rw [if_neg (Nat.ne_of_lt hlt)]
  · cases hdigits

end Shortest

theorem text_nat {n : Nat} (hn : n < 2 ^ 53) :
    (JsNumber.finite (n : ℚ)).text = decimalDigits n := by
  by_cases hzero : n = 0
  · rw [hzero]
    decide
  · have hpos : 0 < n := Nat.pos_of_ne_zero hzero
    obtain ⟨places, hplaces⟩ : exists places, Nat.log 10 n = places := ⟨_, rfl⟩
    obtain ⟨hlow, hhigh⟩ :=
      (Nat.log_eq_iff (Or.inr ⟨by decide, hzero⟩)).mp hplaces
    obtain ⟨k, hk, hle, hmod, hdigits⟩ := shortestDigits_nat hn hlow hhigh
    have hbound : places < 16 := by
      by_contra hnot
      have : 10 ^ 16 ≤ n := Nat.le_trans
        (Nat.pow_le_pow_right (by decide) (Nat.le_of_not_lt hnot)) hlow
      omega
    have hq : (n : ℚ) ≠ 0 := by exact_mod_cast hzero
    have hexact : n / 10 ^ (places + 1 - k) * 10 ^ (places + 1 - k) = n :=
      Nat.div_mul_cancel (Nat.dvd_of_mod_eq_zero hmod)
    have hfront : 0 < n / 10 ^ (places + 1 - k) := by
      apply Nat.pos_of_ne_zero
      intro h
      rw [h, Nat.zero_mul] at hexact
      exact hzero hexact.symm
    have htext := decimalDigits_mul_pow hfront (places + 1 - k)
    rw [hexact] at htext
    have hneg : ¬ (n : ℚ) < 0 := not_lt.mpr (Nat.cast_nonneg n)
    show (if (n : ℚ) = 0 then [48] else if (n : ℚ) < 0 then
      45 :: positiveText (-(n : ℚ)) else positiveText n) = _
    rw [if_neg hq, if_neg hneg]
    unfold positiveText
    rw [hdigits]
    dsimp only
    rw [if_pos (by omega), htext]
    congr 2
    omega

end Foundation
end FlanTerminal
