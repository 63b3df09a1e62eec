import Mathlib.Data.Int.Log
import Mathlib.Data.Nat.Sqrt
import Mathlib.Data.Rat.Floor
import Mathlib.Algebra.Order.Field.Power

/-! The double-precision numbers of IEEE 754, each by the rational that it is. Zero has no sign here. -/
namespace Doubles

inductive Double
  | finite (value : Rat)
  | infinite (negative : Bool)
  | nan
  deriving DecidableEq, Repr

/-- The exponent of the spacing of the doubles around a number. -/
def spacing (q : Rat) : Int := max (Int.log 2 |q| - 52) (-1074)

/-- The nearest integer, and of two the even one. -/
def nearest (q : Rat) : Int :=
  if q - q.floor < 1 / 2 then q.floor
  else if 1 / 2 < q - q.floor ∨ q.floor % 2 ≠ 0 then q.floor + 1
  else q.floor

/-- The double nearest to a number. -/
def ofRat (q : Rat) : Double :=
  let unit := (2 : Rat) ^ spacing q
  let value := nearest (q / unit) * unit
  if |value| < 2 ^ 1024 then .finite value else .infinite (decide (q < 0))

def add : Double → Double → Double
  | .nan, _ => .nan
  | _, .nan => .nan
  | .infinite a, .infinite b => if a = b then .infinite a else .nan
  | .infinite a, .finite _ => .infinite a
  | .finite _, .infinite b => .infinite b
  | .finite a, .finite b => ofRat (a + b)

def neg : Double → Double
  | .nan => .nan
  | .infinite a => .infinite !a
  | .finite a => .finite (-a)

def sub (a b : Double) : Double := add a (neg b)

def mul : Double → Double → Double
  | .nan, _ => .nan
  | _, .nan => .nan
  | .infinite a, .infinite b => .infinite (a != b)
  | .infinite a, .finite b => if b = 0 then .nan else .infinite (a != decide (b < 0))
  | .finite a, .infinite b => if a = 0 then .nan else .infinite (decide (a < 0) != b)
  | .finite a, .finite b => ofRat (a * b)

def div : Double → Double → Double
  | .nan, _ => .nan
  | _, .nan => .nan
  | .infinite _, .infinite _ => .nan
  | .infinite a, .finite b => .infinite (a != decide (b < 0))
  | .finite _, .infinite _ => .finite 0
  | .finite a, .finite b =>
    if b = 0 then (if a = 0 then .nan else .infinite (decide (a < 0))) else ofRat (a / b)

/-- The integer nearest to the root of a number: no root of an integer is half way between two. -/
def nearestRoot (q : Rat) : Nat :=
  let root := Nat.sqrt q.floor.toNat
  if ((2 * root + 1 : Nat) : Rat) ^ 2 < 4 * q then root + 1 else root

/-- The square root. The number is scaled by an even power, so that its root has the digits of a double. -/
def sqrt : Double → Double
  | .nan => .nan
  | .infinite negative => if negative then .nan else .infinite false
  | .finite q =>
    if q < 0 then .nan
    else
      let scale := (Int.log 2 q) / 2 - 52
      .finite (nearestRoot (q / (4 : Rat) ^ scale) * (2 : Rat) ^ scale)

def ceil : Double → Double
  | .finite q => .finite ⌈q⌉
  | other => other

/-- To the nearest integer, half of one up. -/
def round : Double → Double
  | .finite q => .finite (⌊q + 1 / 2⌋)
  | other => other

def less : Double → Double → Bool
  | .finite a, .finite b => decide (a < b)
  | .finite _, .infinite negative => !negative
  | .infinite negative, .finite _ => negative
  | .infinite a, .infinite b => a && !b
  | _, _ => false

def ofInt (n : Int) : Double := ofRat n

/-! ### Never below zero -/

/-- Zero, above, or no number. -/
def Nonnegative : Double → Prop
  | .finite q => 0 ≤ q
  | .infinite negative => negative = false
  | .nan => True

theorem nearest_nonneg {q : Rat} (nonneg : 0 ≤ q) : 0 ≤ nearest q := by
  have low : 0 ≤ q.floor := Rat.le_floor_iff.mpr (by simpa using nonneg)
  unfold nearest
  split
  · exact low
  split <;> omega

theorem ofRat_nonneg {q : Rat} (nonneg : 0 ≤ q) : Nonnegative (ofRat q) := by
  have unit : (0 : Rat) < 2 ^ spacing q := by positivity
  have scaled := nearest_nonneg (div_nonneg nonneg unit.le)
  unfold ofRat
  dsimp only
  split
  · exact mul_nonneg (by exact_mod_cast scaled) unit.le
  · exact decide_eq_false (not_lt.mpr nonneg)

variable {a b : Double}

theorem Nonnegative.add (first : Nonnegative a) (second : Nonnegative b) : Nonnegative (add a b) := by
  cases a <;> cases b <;> try trivial
  case finite.finite x y => exact ofRat_nonneg (add_nonneg (first : 0 ≤ x) (second : 0 ≤ y))
  case infinite.infinite x y =>
    obtain rfl : x = false := first
    obtain rfl : y = false := second
    rfl

theorem Nonnegative.mul (first : Nonnegative a) (second : Nonnegative b) : Nonnegative (mul a b) := by
  cases a <;> cases b <;> try trivial
  case finite.finite x y => exact ofRat_nonneg (mul_nonneg (first : 0 ≤ x) (second : 0 ≤ y))
  case finite.infinite x y =>
    obtain rfl : y = false := second
    have above : ¬ x < 0 := not_lt.mpr first
    change Nonnegative (if x = 0 then .nan else .infinite (decide (x < 0) != false))
    split
    · trivial
    · simp [Nonnegative, above]
  case infinite.finite x y =>
    obtain rfl : x = false := first
    have above : ¬ y < 0 := not_lt.mpr second
    change Nonnegative (if y = 0 then .nan else .infinite (false != decide (y < 0)))
    split
    · trivial
    · simp [Nonnegative, above]
  case infinite.infinite x y =>
    obtain rfl : x = false := first
    obtain rfl : y = false := second
    rfl

theorem Nonnegative.div (first : Nonnegative a) (second : Nonnegative b) : Nonnegative (div a b) := by
  cases a <;> cases b <;> try trivial
  case finite.finite x y =>
    have above : ¬ x < 0 := not_lt.mpr first
    change Nonnegative (if y = 0 then (if x = 0 then .nan else .infinite (decide (x < 0))) else ofRat (x / y))
    split
    · split
      · trivial
      · simp [Nonnegative, above]
    · exact ofRat_nonneg (div_nonneg first second)
  case infinite.finite x y =>
    obtain rfl : x = false := first
    have above : ¬ y < 0 := not_lt.mpr second
    simp [Doubles.div, Nonnegative, above]

theorem sqrt_nonneg (a : Double) : Nonnegative (sqrt a) := by
  cases a with
  | finite q =>
    unfold sqrt
    dsimp only
    split
    · trivial
    · exact mul_nonneg (Nat.cast_nonneg _) (by positivity)
  | infinite negative => cases negative <;> trivial
  | nan => trivial

theorem Nonnegative.ceil (above : Nonnegative a) : Nonnegative (ceil a) := by
  cases a with
  | finite q => exact (Int.cast_nonneg (Int.ceil_nonneg above) : (0 : Rat) ≤ ⌈q⌉)
  | infinite => exact above
  | nan => trivial

theorem Nonnegative.round (above : Nonnegative a) : Nonnegative (round a) := by
  cases a with
  | finite q =>
    have half : (0 : Rat) ≤ q + 1 / 2 := add_nonneg above (by norm_num)
    exact (Int.cast_nonneg (Int.floor_nonneg.mpr half) : (0 : Rat) ≤ ⌊q + 1 / 2⌋)
  | infinite => exact above
  | nan => trivial

end Doubles
