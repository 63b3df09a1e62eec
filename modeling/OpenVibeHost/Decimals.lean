import Mathlib.Algebra.Order.Round
import Mathlib.Data.Rat.Floor
import Mathlib.Tactic.Linarith
import Mathlib.Tactic.FieldSimp
import Mathlib.Tactic.Ring
import Mathlib.Tactic.Positivity

/-! Decimal numbers with a fixed number of places, as SQL keeps them: what is
written is rounded to the nearest one, halves away from zero. -/
namespace OpenVibeHost.Decimals

/-- The nearest number with that many places. -/
def rounded (places : Nat) (x : ℚ) : ℚ :=
  if x < 0 then -((round (-x * 10 ^ places) : ℤ) / 10 ^ places)
  else (round (x * 10 ^ places) : ℤ) / 10 ^ places

/-- The number has no more places than that. -/
def Exact (places : Nat) (x : ℚ) : Prop := rounded places x = x

instance (places : Nat) (x : ℚ) : Decidable (Exact places x) :=
  inferInstanceAs (Decidable (rounded places x = x))

variable {places : Nat} {x y : ℚ}

theorem scale_pos (places : Nat) : (0 : ℚ) < 10 ^ places := by positivity

theorem rounded_of_nonneg (nonneg : 0 ≤ x) :
    rounded places x = (round (x * 10 ^ places) : ℤ) / 10 ^ places := by
  rw [rounded, if_neg (not_lt.mpr nonneg)]

theorem round_nonneg (nonneg : 0 ≤ x) : 0 ≤ round x := by
  rw [round_eq]
  exact Int.floor_nonneg.mpr (by linarith)

theorem rounded_nonneg (nonneg : 0 ≤ x) : 0 ≤ rounded places x := by
  rw [rounded_of_nonneg nonneg]
  have scaled : 0 ≤ round (x * 10 ^ places) := round_nonneg (by positivity)
  exact div_nonneg (by exact_mod_cast scaled) (scale_pos places).le

/-- The numbers with that many places are the multiples of its last place. -/
theorem exact_of_multiple {n : ℤ} (nonneg : 0 ≤ n) : Exact places ((n : ℚ) / 10 ^ places) := by
  have positive : 0 ≤ (n : ℚ) / 10 ^ places :=
    div_nonneg (by exact_mod_cast nonneg) (scale_pos places).le
  rw [Exact, rounded_of_nonneg positive, div_mul_cancel₀ _ (scale_pos places).ne', round_intCast]

theorem rounded_exact (nonneg : 0 ≤ x) : Exact places (rounded places x) := by
  rw [rounded_of_nonneg nonneg]
  exact exact_of_multiple (round_nonneg (by positivity))

@[simp] theorem rounded_rounded (nonneg : 0 ≤ x) :
    rounded places (rounded places x) = rounded places x := rounded_exact nonneg

/-- A number is written as `y` just when it lies within half a last place of it. -/
theorem rounded_eq_iff (exact : Exact places y) (nonneg : 0 ≤ x) (other : 0 ≤ y) :
    rounded places x = y ↔
      y - 1 / (2 * 10 ^ places) ≤ x ∧ x < y + 1 / (2 * 10 ^ places) := by
  have scale := scale_pos places
  obtain ⟨n, multiple⟩ : ∃ n : ℤ, y = n / 10 ^ places := by
    rw [Exact, rounded_of_nonneg other] at exact
    exact ⟨_, exact.symm⟩
  have half : (1 : ℚ) / (2 * 10 ^ places) = 1 / 2 / 10 ^ places := by rw [div_div]
  rw [rounded_of_nonneg nonneg, multiple, div_left_inj' scale.ne', Int.cast_inj, round_eq_iff,
    Set.mem_Ico, half, ← sub_div, ← add_div, div_le_iff₀ scale, lt_div_iff₀ scale]

end OpenVibeHost.Decimals
