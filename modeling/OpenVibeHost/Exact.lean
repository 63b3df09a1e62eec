import Mathlib.Algebra.Order.Field.Rat
import Mathlib.Tactic.Ring
import Mathlib.Tactic.Positivity

/-! Numbers that are not rounded: the rational ones, the two infinite ones and no number at all. Zero has no sign here.
What is finite was made of finite numbers, but for a division by an infinite one. -/
namespace Exact

inductive Number
  | finite (value : Rat)
  | infinite (negative : Bool)
  | nan
  deriving DecidableEq, Repr

def add : Number → Number → Number
  | .nan, _ => .nan
  | _, .nan => .nan
  | .infinite a, .infinite b => if a = b then .infinite a else .nan
  | .infinite a, .finite _ => .infinite a
  | .finite _, .infinite b => .infinite b
  | .finite a, .finite b => .finite (a + b)

def neg : Number → Number
  | .nan => .nan
  | .infinite a => .infinite !a
  | .finite a => .finite (-a)

def sub (a b : Number) : Number := add a (neg b)

def mul : Number → Number → Number
  | .nan, _ => .nan
  | _, .nan => .nan
  | .infinite a, .infinite b => .infinite (a != b)
  | .infinite a, .finite b => if b = 0 then .nan else .infinite (a != decide (b < 0))
  | .finite a, .infinite b => if a = 0 then .nan else .infinite (decide (a < 0) != b)
  | .finite a, .finite b => .finite (a * b)

def div : Number → Number → Number
  | .nan, _ => .nan
  | _, .nan => .nan
  | .infinite _, .infinite _ => .nan
  | .infinite a, .finite b => .infinite (a != decide (b < 0))
  | .finite _, .infinite _ => .finite 0
  | .finite a, .finite b =>
    if b = 0 then (if a = 0 then .nan else .infinite (decide (a < 0))) else .finite (a / b)

/-- The sum of values, from the first on. -/
def sum (values : List Number) : Number := values.foldl add (.finite 0)

/-! ### Finite numbers -/

def Finite (n : Number) : Prop := ∃ q, n = .finite q

section
variable {a b : Number}

theorem Finite.of_add (whole : Finite (add a b)) : Finite a ∧ Finite b := by
  obtain ⟨q, shape⟩ := whole
  cases a <;> cases b <;> simp only [add, reduceCtorEq] at shape
  · exact ⟨⟨_, rfl⟩, ⟨_, rfl⟩⟩
  · split at shape <;> exact nomatch shape

theorem Finite.of_mul (whole : Finite (mul a b)) : Finite a ∧ Finite b := by
  obtain ⟨q, shape⟩ := whole
  cases a <;> cases b <;> simp only [mul, reduceCtorEq] at shape
  · exact ⟨⟨_, rfl⟩, ⟨_, rfl⟩⟩
  · split at shape <;> exact nomatch shape
  · split at shape <;> exact nomatch shape

/-- The divisor of a finite number is a number, and not zero. -/
theorem Finite.of_div (whole : Finite (div a b)) : Finite a ∧ b ≠ .nan ∧ b ≠ .finite 0 := by
  obtain ⟨q, shape⟩ := whole
  cases a <;> cases b <;> simp only [div, reduceCtorEq] at shape
  · rename_i p r
    refine ⟨⟨p, rfl⟩, by simp, fun zero => ?_⟩
    rw [if_pos (Number.finite.inj zero)] at shape
    split at shape <;> exact nomatch shape
  · exact ⟨⟨_, rfl⟩, by simp, by simp⟩

end

/-! ### Amounts -/

/-- A finite number from zero up. -/
def Amount (n : Number) : Prop := ∃ q, n = .finite q ∧ 0 ≤ q

/-- A finite number above zero. -/
def Positive (n : Number) : Prop := ∃ q, n = .finite q ∧ 0 < q

section
variable {a b : Number}

theorem Amount.finite (amount : Amount a) : Finite a := amount.imp fun _ both => both.1

theorem Positive.amount (positive : Positive a) : Amount a := positive.imp fun _ both => ⟨both.1, both.2.le⟩

theorem amount_finite {q : Rat} (nonneg : 0 ≤ q) : Amount (.finite q) := ⟨q, rfl, nonneg⟩

theorem positive_finite {q : Rat} (positive : 0 < q) : Positive (.finite q) := ⟨q, rfl, positive⟩

theorem Amount.add (first : Amount a) (second : Amount b) : Amount (add a b) := by
  obtain ⟨p, rfl, low⟩ := first
  obtain ⟨q, rfl, low'⟩ := second
  exact ⟨p + q, rfl, add_nonneg low low'⟩

theorem Amount.mul (first : Amount a) (second : Amount b) : Amount (mul a b) := by
  obtain ⟨p, rfl, low⟩ := first
  obtain ⟨q, rfl, low'⟩ := second
  exact ⟨p * q, rfl, mul_nonneg low low'⟩

theorem div_finite {p q : Rat} (positive : 0 < q) : div (.finite p) (.finite q) = .finite (p / q) := if_neg positive.ne'

theorem Amount.div (first : Amount a) (second : Positive b) : Amount (div a b) := by
  obtain ⟨p, rfl, low⟩ := first
  obtain ⟨q, rfl, above⟩ := second
  exact ⟨p / q, div_finite above, div_nonneg low above.le⟩

theorem Amount.sum {values : List Number} (amounts : ∀ value ∈ values, Amount value) : Amount (sum values) := by
  suffices run : ∀ start, Amount start → Amount (values.foldl Exact.add start) from run _ (amount_finite (le_refl 0))
  induction values with
  | nil => exact fun start amount => amount
  | cons value values ih =>
    intro start amount
    refine ih (fun other among => amounts other (List.mem_cons_of_mem _ among)) _ ?_
    exact amount.add (amounts value List.mem_cons_self)

end

end Exact
