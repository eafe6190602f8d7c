import Mathlib.Algebra.Order.Floor.Semiring
import Mathlib.Data.Int.Log
import Mathlib.Data.Rat.Floor
import Mathlib.Tactic.FieldSimp
import Mathlib.Tactic.Linarith
import Mathlib.Tactic.NormNum
import Mathlib.Tactic.Positivity
import Mathlib.Tactic.Ring

/-! # Rounding to binary64

The figures of a program that computes in `f64`: an operation yields its exact result
rounded to a significand of 53 bits, and of two nearest ones to the even one (`round`). The
range of the exponent is left out, as in figures that are neither tiny nor huge. A chain of
operations drifts from the exact value by at most one factor an operation (`Within`). -/

namespace JaspyNexus.Lib

/-- An `f64`: a number, an infinity or not a number. -/
inductive F64 where
  | finite (v : Rat)
  | infinite (negative : Bool)
  | nan
  deriving DecidableEq, Repr

namespace F64

/-- `p >= threshold`. -/
def reachedBy (threshold : F64) (p : Rat) : Bool :=
  match threshold with
  | .finite v => decide (v ≤ p)
  | .infinite negative => negative
  | .nan => false

/-- A threshold is reached by the higher of two figures when by one of them. -/
theorem reachedBy_max (threshold : F64) (p q : Rat) :
    threshold.reachedBy (max p q) = (threshold.reachedBy p || threshold.reachedBy q) := by
  cases threshold with
  | finite v => simp [reachedBy]
  | infinite negative => cases negative <;> rfl
  | nan => rfl

/-! ## Rounding -/

/-- The nearest integer, and the even one of two. -/
def nearest (q : Rat) : Int :=
  let rest := q - ⌊q⌋
  if rest < 1 / 2 then ⌊q⌋
  else if 1 / 2 < rest then ⌊q⌋ + 1
  else if ⌊q⌋ % 2 = 0 then ⌊q⌋ else ⌊q⌋ + 1

/-- What the last of the 53 bits of a number is worth. -/
def ulp (q : Rat) : Rat := 2 ^ (Int.log 2 |q| - 52)

/-- The nearest number of 53 bits. -/
def round (q : Rat) : Rat := nearest (q / ulp q) * ulp q

def mul (a b : Rat) : Rat := round (a * b)

def div (a b : Rat) : Rat := round (a / b)

theorem nearest_close (q : Rat) : |(nearest q : Rat) - q| ≤ 1 / 2 := by
  have hfloor := Int.floor_le q
  have hlt := Int.lt_floor_add_one q
  unfold nearest
  dsimp only
  rw [abs_le]
  split
  · constructor <;> linarith
  · split
    · push_cast; constructor <;> linarith
    · split
      · constructor <;> linarith
      · push_cast; constructor <;> linarith

theorem nearest_intCast (n : Int) : nearest n = n := by
  unfold nearest
  dsimp only
  rw [Int.floor_intCast, sub_self, if_pos (by norm_num)]

theorem ulp_pos (q : Rat) : 0 < ulp q := zpow_pos (by norm_num) _

/-- The first of the 53 bits is not above the number. -/
theorem ulp_mul_le {q : Rat} (hq : q ≠ 0) : ulp q * 2 ^ 52 ≤ |q| := by
  have hlog := Int.zpow_log_le_self (b := 2) (by norm_num) (abs_pos.mpr hq)
  have hsplit : ulp q * 2 ^ 52 = (2 : Rat) ^ Int.log 2 |q| := by
    rw [ulp, zpow_sub₀ (by norm_num)]
    norm_num
  rw [hsplit]
  exact_mod_cast hlog

theorem round_zero : round 0 = 0 := by
  rw [round, zero_div, show (0 : Rat) = ((0 : Int) : Rat) from rfl, nearest_intCast, Int.cast_zero, zero_mul]

/-- **A number is rounded by at most half of its last bit.** -/
theorem round_close (q : Rat) : |round q - q| ≤ |q| / 2 ^ 53 := by
  by_cases hq : q = 0
  · rw [hq, round_zero]
    simp
  have hulp := ulp_pos q
  have hscaled : round q - q = (nearest (q / ulp q) - q / ulp q) * ulp q := by
    rw [round, sub_mul, div_mul_cancel₀ _ hulp.ne']
  rw [hscaled, abs_mul, abs_of_pos hulp]
  calc |(nearest (q / ulp q) : Rat) - q / ulp q| * ulp q
      ≤ 1 / 2 * ulp q := mul_le_mul_of_nonneg_right (nearest_close _) hulp.le
    _ = ulp q * 2 ^ 52 / 2 ^ 53 := by ring
    _ ≤ |q| / 2 ^ 53 := div_le_div_of_nonneg_right (ulp_mul_le hq) (by norm_num)

/-- An integer that fits 53 bits is what it was. -/
theorem round_intCast {n : Int} (h : |n| < 2 ^ 53) : round n = n := by
  by_cases hn : n = 0
  · rw [hn, Int.cast_zero, round_zero]
  have hexp : Int.log 2 |(n : Rat)| ≤ 52 := by
    have hlt : |(n : Rat)| < ((2 : Nat) : Rat) ^ (53 : Int) := by exact_mod_cast h
    have := (Int.lt_zpow_iff_log_lt (b := 2) (by norm_num) (abs_pos.mpr (Int.cast_ne_zero.mpr hn))).mp hlt
    omega
  obtain ⟨k, hk⟩ : ∃ k : Nat, Int.log 2 |(n : Rat)| - 52 = -(k : Int) :=
    ⟨(52 - Int.log 2 |(n : Rat)|).toNat, by omega⟩
  have hulp : ulp n = 1 / 2 ^ k := by rw [ulp, hk, zpow_neg, zpow_natCast, one_div]
  have hquot : (n : Rat) / ulp n = ((n * 2 ^ k : Int) : Rat) := by
    rw [hulp]
    push_cast
    field_simp
  rw [round, hquot, nearest_intCast, hulp]
  push_cast
  field_simp

theorem round_natCast {n : Nat} (h : n < 2 ^ 53) : round n = n := by
  have := round_intCast (n := n) (by rw [Nat.abs_cast]; exact_mod_cast h)
  exact_mod_cast this

/-! ## Drift -/

/-- One operation's factor. -/
def shrink : Rat := 1 - 1 / 2 ^ 53

theorem shrink_pos : 0 < shrink := by norm_num [shrink]

/-- A figure is an exact value up to what `k` operations round. -/
structure Within (k : Nat) (q x : Rat) : Prop where
  nonneg : 0 ≤ x
  low : x * shrink ^ k ≤ q
  high : q * shrink ^ k ≤ x

namespace Within
variable {j k : Nat} {a b q x y : Rat}

theorem figure_nonneg (h : Within k q x) : 0 ≤ q :=
  le_trans (mul_nonneg h.nonneg (pow_nonneg shrink_pos.le k)) h.low

theorem figure_pos (h : Within k q x) (hx : 0 < x) : 0 < q :=
  lt_of_lt_of_le (mul_pos hx (pow_pos shrink_pos k)) h.low

theorem refl (h : 0 ≤ x) : Within 0 x x := ⟨h, by simp, by simp⟩

theorem of_round (h : 0 ≤ x) : Within 1 (round x) x := by
  obtain ⟨hlow, hhigh⟩ := abs_le.mp (round_close x)
  rw [abs_of_nonneg h] at hlow hhigh
  have hroom : 0 ≤ x / 2 ^ 53 / 2 ^ 53 := by positivity
  refine ⟨h, ?_, ?_⟩
  · rw [pow_one, shrink]
    linarith
  · rw [pow_one]
    calc round x * shrink ≤ (x + x / 2 ^ 53) * shrink :=
          mul_le_mul_of_nonneg_right (by linarith) shrink_pos.le
      _ = x - x / 2 ^ 53 / 2 ^ 53 := by rw [shrink]; ring
      _ ≤ x := by linarith

theorem trans (hq : Within j q y) (hy : Within k y x) : Within (j + k) q x := by
  refine ⟨hy.nonneg, ?_, ?_⟩
  · calc x * shrink ^ (j + k) = x * shrink ^ k * shrink ^ j := by ring
      _ ≤ y * shrink ^ j := mul_le_mul_of_nonneg_right hy.low (pow_nonneg shrink_pos.le j)
      _ ≤ q := hq.low
  · calc q * shrink ^ (j + k) = q * shrink ^ j * shrink ^ k := by ring
      _ ≤ y * shrink ^ k := mul_le_mul_of_nonneg_right hq.high (pow_nonneg shrink_pos.le k)
      _ ≤ x := hy.high

/-- Rounding counts one more. -/
theorem round (h : Within k q x) : Within (1 + k) (F64.round q) x := (of_round h.figure_nonneg).trans h

theorem mul_exact (ha : Within j a x) (hb : Within k b y) : Within (j + k) (a * b) (x * y) := by
  have hj := pow_nonneg shrink_pos.le j
  have hk := pow_nonneg shrink_pos.le k
  refine ⟨mul_nonneg ha.nonneg hb.nonneg, ?_, ?_⟩
  · calc x * y * shrink ^ (j + k) = x * shrink ^ j * (y * shrink ^ k) := by ring
      _ ≤ a * b := mul_le_mul ha.low hb.low (mul_nonneg hb.nonneg hk) ha.figure_nonneg
  · calc a * b * shrink ^ (j + k) = a * shrink ^ j * (b * shrink ^ k) := by ring
      _ ≤ x * y := mul_le_mul ha.high hb.high (mul_nonneg hb.figure_nonneg hk) ha.nonneg

theorem inv (h : Within k b y) (hy : 0 < y) : Within k b⁻¹ y⁻¹ := by
  have hb := h.figure_pos hy
  refine ⟨inv_nonneg.mpr h.nonneg, ?_, ?_⟩
  · rw [inv_mul_le_iff₀ hy, ← div_eq_mul_inv, le_div_iff₀ hb, mul_comm]
    exact h.high
  · rw [inv_mul_le_iff₀ hb, ← div_eq_mul_inv, le_div_iff₀ hy, mul_comm]
    exact h.low

theorem mul (ha : Within j a x) (hb : Within k b y) : Within (1 + (j + k)) (F64.mul a b) (x * y) :=
  (ha.mul_exact hb).round

theorem div (ha : Within j a x) (hb : Within k b y) (hy : 0 < y) :
    Within (1 + (j + k)) (F64.div a b) (x / y) := by
  rw [div_eq_mul_inv x y, F64.div, div_eq_mul_inv a b]
  exact (ha.mul_exact (hb.inv hy)).round

end Within

end F64

end JaspyNexus.Lib
