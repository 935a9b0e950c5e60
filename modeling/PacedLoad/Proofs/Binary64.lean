import Mathlib.Algebra.Order.Field.Power
import Mathlib.Algebra.Order.Floor.Div
import Mathlib.Data.Rat.Floor
import Mathlib.Tactic.FieldSimp
import Mathlib.Tactic.Linarith
import Mathlib.Tactic.NormNum
import Mathlib.Tactic.Ring
import PacedLoad.Binary64

/-!
# Rounding to double precision

A finite double that is not negative stands for a rational number.  A quotient of whole
numbers and a product of doubles are rounded to a whole number of units in the last place,
at most half a unit away from the exact result.
-/

namespace PacedLoad.Binary64

/-- A finite double that is not negative and stands for `v`. -/
def Stands (x : Binary64) (v : ℚ) : Prop :=
  ∃ m q, x.content = .finite false m q ∧ (m : ℚ) * 2 ^ q = v

/-- A double that `v` is rounded to: with 53 bits in front of the point, where the fraction of `v`
is cut off, it is a whole number at most a half away. -/
def Rounds (x : Binary64) (v : ℚ) : Prop :=
  ∃ (e : ℤ) (m : ℕ), 2 ^ e ≤ v ∧ v < 2 ^ (e + 1) ∧ x.Stands (m * 2 ^ (e - 52)) ∧
    |(m : ℚ) - v * 2 ^ (52 - e)| ≤ 1 / 2

/-! ## Powers of two -/

theorem zpow_eq_div (g : ℤ) : (2 : ℚ) ^ g = 2 ^ g.toNat / 2 ^ (-g).toNat := by
  rcases le_total 0 g with up | down
  · rw [Int.toNat_of_nonpos (by omega : -g ≤ 0), pow_zero, div_one, ← zpow_natCast,
      Int.toNat_of_nonneg up]
  · rw [Int.toNat_of_nonpos down, pow_zero, one_div, ← zpow_natCast,
      Int.toNat_of_nonneg (by omega), zpow_neg, inv_inv]

theorem sized_div (m : ℕ) (q : ℤ) : ((sized m q).1 : ℚ) / (sized m q).2 = m * 2 ^ q := by
  simp only [sized, Nat.pow_eq, Nat.cast_mul, Nat.cast_pow, Nat.cast_ofNat, zpow_eq_div q,
    mul_div_assoc]

theorem sized_pos (m : ℕ) (q : ℤ) : 0 < (sized m q).2 := Nat.two_pow_pos _

/-- The quotient lies between two neighbouring powers of two. -/
theorem floorLog2_spec {num den : ℕ} (some : 0 < num) (pos : 0 < den) :
    (2 : ℚ) ^ floorLog2 num den ≤ num / den ∧ (num : ℚ) / den < 2 ^ (floorLog2 num den + 1) := by
  have den' : (0 : ℚ) < den := by exact_mod_cast pos
  have num_lo : (2 : ℚ) ^ (num.log2 : ℤ) ≤ num := by
    rw [zpow_natCast]; exact_mod_cast Nat.log2_self_le (by omega)
  have num_hi : (num : ℚ) < 2 ^ ((num.log2 : ℤ) + 1) := by
    exact_mod_cast Nat.lt_log2_self (n := num)
  have den_lo : (2 : ℚ) ^ (den.log2 : ℤ) ≤ den := by
    rw [zpow_natCast]; exact_mod_cast Nat.log2_self_le (by omega)
  have den_hi : (den : ℚ) < 2 ^ ((den.log2 : ℤ) + 1) := by
    exact_mod_cast Nat.lt_log2_self (n := den)
  set g : ℤ := (num.log2 : ℤ) - den.log2 with guess
  have test : num * Nat.pow 2 (-g).toNat < den * Nat.pow 2 g.toNat ↔ (num : ℚ) / den < 2 ^ g := by
    rw [div_lt_iff₀ den', zpow_eq_div, div_mul_eq_mul_div, lt_div_iff₀ (by positivity),
      mul_comm _ (den : ℚ)]
    exact_mod_cast Iff.rfl
  have above : (num : ℚ) / den < 2 ^ (g + 1) := by
    rw [div_lt_iff₀ den']
    calc (num : ℚ) < 2 ^ ((num.log2 : ℤ) + 1) := num_hi
      _ = 2 ^ (g + 1) * 2 ^ (den.log2 : ℤ) := by rw [← zpow_add₀ two_ne_zero]; congr 1; omega
      _ ≤ 2 ^ (g + 1) * den := by gcongr
  have below : (2 : ℚ) ^ (g - 1) ≤ num / den := by
    rw [le_div_iff₀ den']
    calc (2 : ℚ) ^ (g - 1) * den ≤ 2 ^ (g - 1) * 2 ^ ((den.log2 : ℤ) + 1) := by gcongr
      _ = 2 ^ (num.log2 : ℤ) := by rw [← zpow_add₀ two_ne_zero]; congr 1; omega
      _ ≤ num := num_lo
  simp only [floorLog2, ← guess, test]
  split
  next under => exact ⟨below, by rwa [sub_add_cancel]⟩
  next more => exact ⟨not_lt.mp more, above⟩

/-! ## Rounding -/

theorem roundDiv_near {num den : ℕ} (pos : 0 < den) :
    |(roundDiv num den : ℚ) - num / den| ≤ 1 / 2 := by
  have split := Nat.div_add_mod num den
  have rest := Nat.mod_lt num pos
  have bounds : 2 * (roundDiv num den * den) ≤ 2 * num + den ∧
      2 * num ≤ 2 * (roundDiv num den * den) + den := by
    have even := Nat.mod_lt (num / den) two_pos
    rw [Nat.mul_comm] at split
    unfold roundDiv
    dsimp only
    split
    · omega
    · split
      · rw [Nat.add_mul]; omega
      · have half : num / den % 2 = 0 ∨ num / den % 2 = 1 := by omega
        rcases half with zero | one
        · rw [zero, Nat.add_zero]; omega
        · rw [one, Nat.add_mul]; omega
  have den' : (0 : ℚ) < den := by exact_mod_cast pos
  have low : (2 : ℚ) * (roundDiv num den * den) ≤ 2 * num + den := by exact_mod_cast bounds.1
  have high : (2 : ℚ) * num ≤ 2 * (roundDiv num den * den) + den := by exact_mod_cast bounds.2
  have quotient : (num : ℚ) / den * den = num := div_mul_cancel₀ _ den'.ne'
  rw [abs_le]
  constructor
  · refine le_of_mul_le_mul_right ?_ den'
    rw [sub_mul, quotient]
    linarith
  · refine le_of_mul_le_mul_right ?_ den'
    rw [sub_mul, quotient]
    linarith

/-- What the bits of a normal number stand for. -/
theorem content_normal {exponent fraction : ℕ} (least : 1 ≤ exponent) (greatest : exponent < 2047)
    (small : fraction < fractions) :
    (ofParts false (exponent * fractions + fraction)).content =
      .finite false (fractions + fraction) ((exponent : ℤ) - 1075) := by
  have bits : (ofParts false (exponent * fractions + fraction)).bits.toNat =
      exponent * fractions + fraction := by
    simp only [ofParts, signBit, Bool.false_eq_true, if_false, Nat.zero_add]
    refine UInt64.toNat_ofNat_of_lt' ?_
    simp only [fractions, UInt64.size] at small ⊢
    omega
  have upper : (exponent * fractions + fraction) / fractions % 2048 = exponent := by
    simp only [fractions] at small ⊢
    omega
  have lower : (exponent * fractions + fraction) % fractions = fraction := by
    simp only [fractions] at small ⊢
    omega
  have positive : ¬ signBit true ≤ exponent * fractions + fraction := by
    simp only [signBit, if_true, fractions] at small ⊢
    omega
  simp only [content, bits, upper, lower, positive, decide_false]
  rw [if_neg (by omega), if_neg (by omega)]

/-- Rounding up to 53 bits carries over into the exponent. -/
theorem stands_ofParts {a m : ℕ} (range : a ≤ 2044) (least : 2 ^ 52 ≤ m) (greatest : m ≤ 2 ^ 53) :
    (ofParts false (a * fractions + m)).Stands (m * 2 ^ ((a : ℤ) - 1074)) := by
  rcases greatest.lt_or_eq with inside | carry
  · refine ⟨m, (a : ℤ) - 1074, ?_, rfl⟩
    have parts : a * fractions + m = (a + 1) * fractions + (m - fractions) := by
      simp only [fractions]; omega
    have hidden : fractions + (m - fractions) = m := by simp only [fractions]; omega
    have place : ((a + 1 : ℕ) : ℤ) - 1075 = (a : ℤ) - 1074 := by omega
    rw [parts, content_normal (by omega) (by omega) (by simp only [fractions]; omega), hidden, place]
  · refine ⟨fractions, (a : ℤ) - 1073, ?_, ?_⟩
    · have parts : a * fractions + m = (a + 2) * fractions + 0 := by
        simp only [fractions]; omega
      have place : ((a + 2 : ℕ) : ℤ) - 1075 = (a : ℤ) - 1073 := by omega
      rw [parts, content_normal (by omega) (by omega) (Nat.two_pow_pos 52), place, Nat.add_zero]
    · rw [carry, show (a : ℤ) - 1073 = a - 1074 + 1 by ring, zpow_add_one₀ two_ne_zero]
      simp only [fractions]
      push_cast
      ring

/-- A number between two neighbouring powers of two has 53 bits in front of the point, when they
are moved there. -/
theorem scaled_bounds {e : ℤ} {v : ℚ} (below : 2 ^ e ≤ v) (above : v < 2 ^ (e + 1)) :
    2 ^ 52 ≤ v * 2 ^ (52 - e) ∧ v * 2 ^ (52 - e) < 2 ^ 53 := by
  constructor
  · calc (2 : ℚ) ^ 52 = 2 ^ e * 2 ^ (52 - e) := by
          rw [← zpow_add₀ two_ne_zero, ← zpow_natCast]; congr 1; omega
      _ ≤ v * 2 ^ (52 - e) := by gcongr
  · calc v * 2 ^ (52 - e) < 2 ^ (e + 1) * 2 ^ (52 - e) := by gcongr
      _ = 2 ^ 53 := by
          rw [← zpow_add₀ two_ne_zero, ← zpow_natCast]; congr 1; omega

theorem bounds_of_near {m : ℕ} {v : ℚ} (near : |(m : ℚ) - v| ≤ 1 / 2) (low : 2 ^ 52 ≤ v)
    (high : v < 2 ^ 53) : 2 ^ 52 ≤ m ∧ m ≤ 2 ^ 53 := by
  obtain ⟨near_lo, near_hi⟩ := abs_le.mp near
  have least : (2 ^ 52 : ℚ) < m + 1 := by linarith
  have greatest : (m : ℚ) < 2 ^ 53 + 1 := by linarith
  have least : 2 ^ 52 < m + 1 := by exact_mod_cast least
  have greatest : m < 2 ^ 53 + 1 := by exact_mod_cast greatest
  omega

/-- A quotient in the range of the normal numbers is rounded. -/
theorem rounds_ofRatio {num den : ℕ} (some : 0 < num) (pos : 0 < den)
    (lo : (2 : ℚ) ^ (-1022 : ℤ) ≤ num / den) (hi : (num : ℚ) / den < 2 ^ (1023 : ℤ)) :
    (ofRatio false num den).Rounds (num / den) := by
  obtain ⟨below, above⟩ := floorLog2_spec some pos
  set e := floorLog2 num den with exponent
  have least : -1022 < e + 1 :=
    (zpow_lt_zpow_iff_right₀ (one_lt_two (α := ℚ))).mp (lo.trans_lt above)
  have greatest : e < 1023 :=
    (zpow_lt_zpow_iff_right₀ (one_lt_two (α := ℚ))).mp (below.trans_lt hi)
  set m := roundDiv (num * 2 ^ (-(e - 52)).toNat) (den * 2 ^ (e - 52).toNat) with rounded
  have near : |(m : ℚ) - num / den * 2 ^ (52 - e)| ≤ 1 / 2 := by
    have scaled : ((num * 2 ^ (-(e - 52)).toNat : ℕ) : ℚ) / (den * 2 ^ (e - 52).toNat : ℕ) =
        num / den * 2 ^ (52 - e) := by
      rw [show 52 - e = -(e - 52) by ring, zpow_neg, zpow_eq_div (e - 52), inv_div]
      push_cast
      rw [mul_div_mul_comm]
    rw [← scaled]
    exact roundDiv_near (Nat.mul_pos pos (Nat.two_pow_pos _))
  obtain ⟨low, high⟩ := scaled_bounds below above
  obtain ⟨m_lo, m_hi⟩ := bounds_of_near near low high
  obtain ⟨a, biased⟩ : ∃ a : ℕ, (a : ℤ) = e + 1022 := ⟨(e + 1022).toNat, by omega⟩
  have bits : ofRatio false num den = ofParts false (a * fractions + m) := by
    have q : max (e - 52) (-1074) = e - 52 := by omega
    have place : (e - 52 + 1074).toNat = a := by omega
    simp only [ofRatio, if_neg some.ne', ← exponent, q, place, Nat.pow_eq, ← rounded]
    rw [Nat.min_eq_right]
    simp only [infiniteMagnitude, fractions]
    omega
  refine ⟨e, m, below, above, ?_, near⟩
  have units : (a : ℤ) - 1074 = e - 52 := by omega
  rw [bits, ← units]
  exact stands_ofParts (by omega) m_lo m_hi

/-- A product in the range of the normal numbers is rounded. -/
theorem rounds_mul {x y : Binary64} {v w : ℚ} (left : x.Stands v) (right : y.Stands w)
    (lo : (2 : ℚ) ^ (-1022 : ℤ) ≤ v * w) (hi : v * w < 2 ^ (1023 : ℤ)) :
    (x.mul y).Rounds (v * w) := by
  obtain ⟨m, p, first, rfl⟩ := left
  obtain ⟨n, q, second, rfl⟩ := right
  have exact : ((sized (m * n) (p + q)).1 : ℚ) / (sized (m * n) (p + q)).2 =
      m * 2 ^ p * (n * 2 ^ q) := by
    rw [sized_div, zpow_add₀ two_ne_zero]
    push_cast
    ring
  have some : 0 < (sized (m * n) (p + q)).1 := by
    rw [Nat.pos_iff_ne_zero]
    intro none
    rw [none, Nat.cast_zero, zero_div] at exact
    rw [← exact] at lo
    exact absurd lo (not_le_of_gt (by positivity))
  have product : x.mul y = ofRatio false (sized (m * n) (p + q)).1 (sized (m * n) (p + q)).2 := by
    simp only [mul, first, second, bne_self_eq_false]
  rw [product, ← exact]
  exact rounds_ofRatio some (sized_pos _ _) (exact ▸ lo) (exact ▸ hi)

/-- Whole numbers of up to 53 bits are represented. -/
theorem stands_ofNat {n : ℕ} (some : 0 < n) (small : n < 2 ^ 53) : (ofNat n).Stands n := by
  have one : (1 : ℚ) ≤ n := by exact_mod_cast some
  have bound : (n : ℚ) < 2 ^ 53 := by exact_mod_cast small
  have rounds := rounds_ofRatio some one_pos
    (by rw [Nat.cast_one, div_one]; exact (zpow_le_one_of_nonpos₀ one_le_two (by decide)).trans one)
    (by
      rw [Nat.cast_one, div_one]
      exact bound.trans_le (zpow_le_zpow_right₀ (m := 53) one_le_two (by decide)))
  rw [Nat.cast_one, div_one] at rounds
  obtain ⟨e, m, below, -, stands, near⟩ := rounds
  have top : e < 53 := (zpow_lt_zpow_iff_right₀ (one_lt_two (α := ℚ))).mp
    (below.trans_lt (by exact_mod_cast bound))
  obtain ⟨k, units⟩ : ∃ k : ℕ, (k : ℤ) = 52 - e := ⟨(52 - e).toNat, by omega⟩
  -- Both sides are whole numbers, and they differ by less than one.
  have whole : m = n * 2 ^ k := by
    rw [← units, zpow_natCast] at near
    obtain ⟨near_lo, near_hi⟩ := abs_le.mp near
    have less : (m : ℚ) < (n * 2 ^ k : ℕ) + 1 := by push_cast; linarith
    have more : ((n * 2 ^ k : ℕ) : ℚ) < m + 1 := by push_cast; linarith
    have less : m < n * 2 ^ k + 1 := by exact_mod_cast less
    have more : n * 2 ^ k < m + 1 := by exact_mod_cast more
    omega
  have value : (m : ℚ) * 2 ^ (e - 52) = n := by
    rw [whole, show e - 52 = -(k : ℤ) by omega, zpow_neg, zpow_natCast]
    push_cast
    field_simp
  exact value ▸ stands

/-- The least whole number that is not below a double. -/
theorem ceilNat_of_stands {x : Binary64} {v : ℚ} (stands : x.Stands v) :
    x.ceilNat = min ⌈v⌉₊ 18446744073709551615 := by
  obtain ⟨m, q, content, value⟩ := stands
  have pos := sized_pos m q
  have pos' : (0 : ℚ) < (sized m q).2 := by exact_mod_cast pos
  have ceil : ((sized m q).1 + (sized m q).2 - 1) / (sized m q).2 = ⌈v⌉₊ := by
    rw [← value, ← sized_div]
    refine eq_of_forall_ge_iff fun c => ?_
    rw [Nat.ceil_le, div_le_iff₀ pos', ← Nat.ceilDiv_eq_add_pred_div, ceilDiv_le_iff_le_mul pos,
      Nat.mul_comm]
    exact_mod_cast Iff.rfl
  simp only [ceilNat, content, Bool.false_eq_true, if_false, ceil]

end PacedLoad.Binary64
