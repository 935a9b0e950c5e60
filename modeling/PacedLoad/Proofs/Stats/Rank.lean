import PacedLoad.Proofs.Binary64
import PacedLoad.Stats.Summary

/-!
# The rank of a percentile

A percentile is looked up at a rank that is computed in double precision.  The fraction
`p / 100` is rounded, its product with the number of samples is rounded again, and yet the
least whole number that is not below the product is the exact one, as long as there are no
more than `2 ^ 45` samples.
-/

namespace PacedLoad.Stats

open Binary64

def percentiles : List ℕ := [50, 90, 95, 99]

/-- The product in double precision gives the least whole number that is not below `p / 100 * n`,
for each percentile of a summary. -/
def ExactRanks (n : ℕ) : Prop :=
  ∀ p ∈ percentiles, (((ofNat p).div (ofNat 100)).mul (ofNat n)).ceilNat = ⌈(p * n : ℚ) / 100⌉₊

variable {x : Binary64} {c : ℚ} {p n : ℕ}

theorem ceil_hundredths_le_iff {j : ℕ} : ⌈(p * n : ℚ) / 100⌉₊ ≤ j ↔ p * n ≤ 100 * j := by
  rw [Nat.ceil_le, div_le_iff₀ (by norm_num), mul_comm (j : ℚ)]
  exact_mod_cast Iff.rfl

theorem ceil_hundredths_bounds (some : 0 < n) (least : 0 < p) :
    p * n ≤ 100 * ⌈(p * n : ℚ) / 100⌉₊ ∧ 100 * ⌈(p * n : ℚ) / 100⌉₊ < p * n + 100 := by
  have here : p * n ≤ 100 * ⌈(p * n : ℚ) / 100⌉₊ := ceil_hundredths_le_iff.mp le_rfl
  have pos := Nat.mul_pos least some
  have below := mt ceil_hundredths_le_iff.mpr
    (by omega : ¬ ⌈(p * n : ℚ) / 100⌉₊ ≤ ⌈(p * n : ℚ) / 100⌉₊ - 1)
  omega

section Mantissa

/-! The product is a whole number `m` of units, of which `2 ^ t` make one, and within half a unit
of `c * n`. -/

variable {k m t : ℕ}

/-- The product is not above the exact rank `k`: the fraction is too great by less than half a
unit of the product. -/
theorem mantissa_le (upper : (c - p / 100) * 2 ^ 54 ≤ c) (near : (m : ℚ) - c * n * 2 ^ t ≤ 1 / 2)
    (bound : c * n * 2 ^ t < 2 ^ 53) (rank : p * n ≤ 100 * k) : m ≤ k * 2 ^ t := by
  have excess : (c - p / 100) * n * 2 ^ t < 1 / 2 := by
    have scaled : (c - p / 100) * n * 2 ^ t * 2 ^ 54 < 2 ^ 53 := by
      calc (c - p / 100) * n * 2 ^ t * 2 ^ 54
          = (c - p / 100) * 2 ^ 54 * (n * 2 ^ t) := by ring
        _ ≤ c * (n * 2 ^ t) := mul_le_mul_of_nonneg_right upper (by positivity)
        _ = c * n * 2 ^ t := (mul_assoc _ _ _).symm
        _ < 2 ^ 53 := bound
    linarith
  have exact : (p / 100 : ℚ) * n * 2 ^ t ≤ k * 2 ^ t := by
    have rank' : (p * n : ℚ) ≤ 100 * k := by exact_mod_cast rank
    have : (p / 100 : ℚ) * n ≤ k := by linarith
    gcongr
  have parts : c * n * 2 ^ t = (c - p / 100) * n * 2 ^ t + p / 100 * n * 2 ^ t := by ring
  have below : (m : ℚ) < (k * 2 ^ t + 1 : ℕ) := by
    push_cast
    linarith
  exact Nat.le_of_lt_succ (by exact_mod_cast below)

/-- The product is above the next lower whole number: the exact one is above it by a hundredth or
more, which the fraction does not make up for by being too small. -/
theorem lt_mantissa (lower : (p / 100 - c) * 2 ^ 54 ≤ 1) (near : -(1 / 2) ≤ (m : ℚ) - c * n * 2 ^ t)
    (unit : (2 : ℚ) ^ 7 ≤ 2 ^ t) (few : (n : ℚ) ≤ 2 ^ 45) (rank : 100 * k < p * n + 100) :
    ((k : ℚ) - 1) * 2 ^ t < m := by
  have deficit : (p / 100 - c) * n ≤ 1 / 2 ^ 9 := by
    have scaled := mul_le_mul_of_nonneg_right lower (Nat.cast_nonneg (α := ℚ) n)
    linarith
  have rank' : (100 * k + 1 : ℚ) ≤ p * n + 100 := by exact_mod_cast rank
  have distance : (1 / 128 : ℚ) ≤ c * n - (k - 1) := by linarith
  have scaled := mul_le_mul distance unit (by positivity) (by linarith)
  linarith

end Mantissa

/-- A fraction near `p / 100` gives the exact rank. -/
theorem ceilNat_mul_of_near (stands : x.Stands c) (half : 1 / 2 ≤ c) (one : c ≤ 1) (least : 0 < p)
    (greatest : p ≤ 100) (upper : (c - p / 100) * 2 ^ 54 ≤ c) (lower : (p / 100 - c) * 2 ^ 54 ≤ 1)
    (some : 0 < n) (few : n ≤ 2 ^ 45) :
    (x.mul (ofNat n)).ceilNat = ⌈(p * n : ℚ) / 100⌉₊ := by
  have some' : (1 : ℚ) ≤ n := by exact_mod_cast some
  have few' : (n : ℚ) ≤ 2 ^ 45 := by exact_mod_cast few
  have product_lo : (1 / 2 : ℚ) ≤ c * n := half.trans (le_mul_of_one_le_right (by linarith) some')
  have product_hi : c * n ≤ 2 ^ 45 := (mul_le_of_le_one_left (by linarith) one).trans few'
  obtain ⟨e, m, below, above, rounded, near⟩ := rounds_mul stands
    (stands_ofNat some (by omega))
    ((zpow_le_zpow_right₀ (n := -1) one_le_two (by decide)).trans (by norm_num; linarith))
    (product_hi.trans_lt (by
      rw [← zpow_natCast]
      exact zpow_lt_zpow_right₀ one_lt_two (by decide)))
  have top : e < 46 := (zpow_lt_zpow_iff_right₀ (one_lt_two (α := ℚ))).mp
    (below.trans_lt (product_hi.trans_lt (by norm_num)))
  have bound := (scaled_bounds below above).2
  obtain ⟨t, units⟩ : ∃ t : ℕ, (t : ℤ) = 52 - e := ⟨(52 - e).toNat, by omega⟩
  rw [← units, zpow_natCast] at near bound
  obtain ⟨near_lo, near_hi⟩ := abs_le.mp near
  obtain ⟨enough, tight⟩ := ceil_hundredths_bounds some least
  set k := ⌈(p * n : ℚ) / 100⌉₊
  have pos : 0 < k := by
    have := Nat.mul_pos least some
    omega
  have value : (m : ℚ) * 2 ^ (e - 52) = m / 2 ^ t := by
    rw [show e - 52 = -(t : ℤ) by omega, zpow_neg, zpow_natCast, div_eq_mul_inv]
  have ceil : ⌈(m : ℚ) * 2 ^ (e - 52)⌉₊ = k := by
    rw [value, Nat.ceil_eq_iff pos.ne', lt_div_iff₀ (by positivity), div_le_iff₀ (by positivity),
      Nat.cast_sub pos, Nat.cast_one]
    exact ⟨lt_mantissa lower near_lo (pow_le_pow_right₀ one_le_two (by omega)) few' tight,
      by exact_mod_cast mantissa_le upper near_hi bound enough⟩
  rw [ceilNat_of_stands rounded, ceil, Nat.min_eq_left]
  have : p * n ≤ 100 * 2 ^ 45 := Nat.mul_le_mul greatest few
  omega

/-- The fractions of the four percentiles, in 53 bits. -/
theorem content_fraction :
    ((ofNat 50).div (ofNat 100)).content = .finite false 4503599627370496 (-53) ∧
    ((ofNat 90).div (ofNat 100)).content = .finite false 8106479329266893 (-53) ∧
    ((ofNat 95).div (ofNat 100)).content = .finite false 8556839292003942 (-53) ∧
    ((ofNat 99).div (ofNat 100)).content = .finite false 8917127262193582 (-53) := by
  decide +kernel

/-- Double precision is enough for all ranks among up to `2 ^ 45` samples. -/
theorem exactRanks (some : 0 < n) (few : n ≤ 2 ^ 45) : ExactRanks n := by
  obtain ⟨half, ninety, ninetyFive, ninetyNine⟩ := content_fraction
  intro p member
  simp only [percentiles, List.mem_cons, List.not_mem_nil, or_false] at member
  rcases member with rfl | rfl | rfl | rfl
  · exact ceilNat_mul_of_near ⟨_, _, half, rfl⟩ (by norm_num) (by norm_num) (by norm_num)
      (by norm_num) (by norm_num) (by norm_num) some few
  · exact ceilNat_mul_of_near ⟨_, _, ninety, rfl⟩ (by norm_num) (by norm_num) (by norm_num)
      (by norm_num) (by norm_num) (by norm_num) some few
  · exact ceilNat_mul_of_near ⟨_, _, ninetyFive, rfl⟩ (by norm_num) (by norm_num) (by norm_num)
      (by norm_num) (by norm_num) (by norm_num) some few
  · exact ceilNat_mul_of_near ⟨_, _, ninetyNine, rfl⟩ (by norm_num) (by norm_num) (by norm_num)
      (by norm_num) (by norm_num) (by norm_num) some few

end PacedLoad.Stats
