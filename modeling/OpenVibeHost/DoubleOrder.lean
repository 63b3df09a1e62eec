import OpenVibeHost.Doubles
import Mathlib.Tactic.Linarith

/-! Rounding to a double keeps the order of numbers, and the integers up to 2 ^ 53 are doubles. -/
namespace Doubles

/-! ### The nearest integer -/

theorem floor_bounds (q : Rat) : (q.floor : Rat) ≤ q ∧ q < q.floor + 1 := by
  refine ⟨Rat.le_floor_iff.1 (le_refl _), ?_⟩
  by_contra above
  have more : q.floor + 1 ≤ q.floor := Rat.le_floor_iff.2 (by push_cast; exact not_lt.1 above)
  omega

theorem nearest_floor (q : Rat) : nearest q = q.floor ∨ nearest q = q.floor + 1 := by
  unfold nearest
  split
  · exact .inl rfl
  split
  · exact .inr rfl
  · exact .inl rfl

theorem nearest_intCast (n : Int) : nearest n = n := by
  have floor : (n : Rat).floor = n := Rat.floor_intCast n
  rw [nearest, floor, if_pos]
  norm_num

theorem nearest_mono {q r : Rat} (le : q ≤ r) : nearest q ≤ nearest r := by
  obtain ⟨lowQ, highQ⟩ := floor_bounds q
  obtain ⟨lowR, highR⟩ := floor_bounds r
  have floors : q.floor ≤ r.floor := Rat.le_floor_iff.2 (lowQ.trans le)
  rcases floors.eq_or_lt with same | less
  · -- In one unit the later number rounds up where the earlier one does.
    unfold nearest
    rw [← same]
    rw [← same] at lowR highR
    by_cases downR : r - q.floor < 1 / 2
    · have downQ : q - q.floor < 1 / 2 := by linarith
      rw [if_pos downR, if_pos downQ]
    · rw [if_neg downR]
      by_cases upR : 1 / 2 < r - q.floor ∨ q.floor % 2 ≠ 0
      · rw [if_pos upR]
        split
        · omega
        split <;> omega
      · rw [if_neg upR]
        obtain ⟨half, even⟩ := not_or.1 upR
        have notUp : ¬(1 / 2 < q - q.floor ∨ q.floor % 2 ≠ 0) :=
          not_or.2 ⟨fun up => half (by linarith), even⟩
        rw [if_neg notUp]
        split <;> omega
  · rcases nearest_floor q with isQ | isQ <;> rcases nearest_floor r with isR | isR <;> omega

/-! ### Rounding -/

/-- A number rounded to a multiple of a power of two. -/
def roundAt (e : Int) (q : Rat) : Rat := nearest (q / (2 : Rat) ^ e) * (2 : Rat) ^ e

theorem roundAt_mono (e : Int) {q r : Rat} (le : q ≤ r) : roundAt e q ≤ roundAt e r := by
  have unit : (0 : Rat) < 2 ^ e := by positivity
  have scaled : nearest (q / 2 ^ e) ≤ nearest (r / 2 ^ e) := nearest_mono (div_le_div_of_nonneg_right le unit.le)
  exact mul_le_mul_of_nonneg_right (by exact_mod_cast scaled) unit.le

/-- A multiple of the unit is not changed. -/
theorem roundAt_mul (e : Int) (n : Int) : roundAt e (n * (2 : Rat) ^ e) = n * (2 : Rat) ^ e := by
  have unit : (2 : Rat) ^ e ≠ 0 := by positivity
  rw [roundAt, mul_div_cancel_right₀ _ unit, nearest_intCast]

theorem roundAt_int {e : Int} (fine : e ≤ 0) (n : Int) : roundAt e n = n := by
  obtain ⟨k, hk⟩ := Int.eq_ofNat_of_zero_le (neg_nonneg.2 fine)
  have shape : (n : Rat) = (n * 2 ^ k : Int) * (2 : Rat) ^ e := by
    have unit : (2 : Rat) ^ (k : Int) * 2 ^ e = 1 := by
      rw [← zpow_add₀ (by norm_num), show (k : Int) + e = 0 by omega, zpow_zero]
    push_cast
    rw [mul_assoc, ← zpow_natCast, unit, mul_one]
  rw [shape, roundAt_mul]

theorem roundAt_pow {e f : Int} (coarse : e ≤ f) : roundAt e ((2 : Rat) ^ f) = 2 ^ f ∧ roundAt e (-(2 : Rat) ^ f) = -2 ^ f := by
  obtain ⟨k, hk⟩ := Int.eq_ofNat_of_zero_le (sub_nonneg.2 coarse)
  have shape : (2 : Rat) ^ f = (2 ^ k : Int) * (2 : Rat) ^ e := by
    push_cast
    rw [← zpow_natCast, ← zpow_add₀ (by norm_num), show (k : Int) + e = f by omega]
  have negated : -(2 : Rat) ^ f = (-2 ^ k : Int) * (2 : Rat) ^ e := by
    rw [shape]
    push_cast
    ring
  exact ⟨by rw [shape, roundAt_mul], by rw [negated, roundAt_mul]⟩

/-- The value of a double, before it may be beyond all of them. -/
def rounded (q : Rat) : Rat := roundAt (spacing q) q

theorem ofRat_eq (q : Rat) :
    ofRat q = if |rounded q| < 2 ^ 1024 then .finite (rounded q) else .infinite (decide (q < 0)) := rfl

theorem spacing_mono {q r : Rat} (positive : 0 < |q|) (le : |q| ≤ |r|) : spacing q ≤ spacing r := by
  have logs := Int.log_mono_right (b := 2) positive le
  unfold spacing
  omega

/-- A coarser number is beyond a power of two that a finer one does not reach. -/
theorem spacing_lt {q r : Rat} (other : 0 < |r|) (finer : spacing q < spacing r) :
    |q| < 2 ^ (spacing r + 52) ∧ (2 : Rat) ^ (spacing r + 52) ≤ |r| := by
  unfold spacing at finer ⊢
  have log : Int.log 2 |q| + 1 ≤ Int.log 2 |r| ∧ max (Int.log 2 |r| - 52) (-1074) + 52 = Int.log 2 |r| := by omega
  rw [log.2]
  refine ⟨?_, Int.zpow_log_le_self (by norm_num) other⟩
  have below := Int.lt_zpow_succ_log_self (b := 2) (by norm_num) |q|
  exact below.trans_le (zpow_le_zpow_right₀ (by norm_num) log.1)

theorem roundAt_zero (e : Int) : roundAt e 0 = 0 := by
  have none := roundAt_mul e 0
  simpa using none

theorem rounded_mono {q r : Rat} (le : q ≤ r) : rounded q ≤ rounded r := by
  unfold rounded
  rcases lt_or_ge 0 q with positive | notPositive
  · have sizes : |q| = q ∧ |r| = r := ⟨abs_of_pos positive, abs_of_pos (positive.trans_le le)⟩
    have spacings : spacing q ≤ spacing r := spacing_mono (by rwa [sizes.1]) (by rwa [sizes.1, sizes.2])
    rcases spacings.eq_or_lt with same | finer
    · rw [same]
      exact roundAt_mono _ le
    · obtain ⟨short, beyond⟩ := spacing_lt (by rw [sizes.2]; exact positive.trans_le le) finer
      rw [sizes.1] at short
      rw [sizes.2] at beyond
      have first := roundAt_mono (spacing q) short.le
      have last := roundAt_mono (spacing r) beyond
      rw [(roundAt_pow (by omega)).1] at first last
      exact first.trans last
  rcases lt_or_ge r 0 with negative | notNegative
  · have sizes : |q| = -q ∧ |r| = -r := ⟨abs_of_neg (le.trans_lt negative), abs_of_neg negative⟩
    have spacings : spacing r ≤ spacing q := spacing_mono (by rw [sizes.2]; linarith) (by rw [sizes.1, sizes.2]; linarith)
    rcases spacings.eq_or_lt with same | finer
    · rw [same]
      exact roundAt_mono _ le
    · obtain ⟨short, beyond⟩ := spacing_lt (by rw [sizes.1]; linarith) finer
      rw [sizes.2] at short
      rw [sizes.1] at beyond
      have first := roundAt_mono (spacing q) (show q ≤ -2 ^ (spacing q + 52) by linarith)
      have last := roundAt_mono (spacing r) (show -2 ^ (spacing q + 52) ≤ r by linarith)
      rw [(roundAt_pow (by omega)).2] at first last
      exact first.trans last
  · have first := roundAt_mono (spacing q) notPositive
    have last := roundAt_mono (spacing r) notNegative
    rw [roundAt_zero] at first last
    exact first.trans last

/-- Rounding keeps the order, beyond the doubles as well. -/
theorem ofRat_mono {q r : Rat} (le : q ≤ r) : less (ofRat r) (ofRat q) = false := by
  have order := rounded_mono le
  have belowZero {q : Rat} (negative : q < 0) : rounded q ≤ 0 := by
    have mono := rounded_mono negative.le
    rwa [show rounded 0 = 0 from roundAt_zero _] at mono
  have aboveZero {q : Rat} (nonneg : 0 ≤ q) : 0 ≤ rounded q := by
    have mono := rounded_mono nonneg
    rwa [show rounded 0 = 0 from roundAt_zero _] at mono
  rw [ofRat_eq, ofRat_eq]
  split_ifs with insideR insideQ insideQ
  · exact decide_eq_false (not_lt.2 order)
  · -- The first is beyond the doubles: below them.
    have negative : q < 0 := by
      by_contra nonneg
      rw [abs_of_nonneg (aboveZero (not_lt.1 nonneg))] at insideQ
      exact insideQ ((order.trans (le_abs_self _)).trans_lt insideR)
    simp [less, negative]
  · have nonneg : ¬r < 0 := fun negative => by
      rw [abs_of_nonpos (belowZero negative)] at insideR
      exact insideR ((neg_le_neg order).trans (neg_le_abs _) |>.trans_lt insideQ)
    simp [less, nonneg]
  · by_cases negative : r < 0
    · simp [less, negative, le.trans_lt negative]
    · simp [less, negative]

theorem rounded_int {n : Int} (small : n.natAbs ≤ 2 ^ 53) : rounded n = n := by
  unfold rounded
  by_cases zero : n = 0
  · rw [zero, Int.cast_zero, roundAt_zero]
  have positive : (0 : Rat) < |(n : Rat)| := abs_pos.2 (by exact_mod_cast zero)
  have size : |(n : Rat)| = (n.natAbs : Rat) := by
    rw [Nat.cast_natAbs, Int.cast_abs]
  rcases small.lt_or_eq with less | most
  · have short : |(n : Rat)| < (2 : Nat) ^ (53 : Int) := by
      rw [size]
      exact_mod_cast less
    have log : Int.log 2 |(n : Rat)| < 53 := (Int.lt_zpow_iff_log_lt (by norm_num) positive).1 short
    refine roundAt_int ?_ n
    unfold spacing
    omega
  · have power : |(n : Rat)| = (2 : Rat) ^ (53 : Int) := by
      rw [size, most]
      norm_num
    have log : Int.log 2 |(n : Rat)| = 53 := by
      rw [power]
      exact_mod_cast Int.log_zpow (R := Rat) (b := 2) (by norm_num) 53
    have step : spacing n ≤ 53 := by
      unfold spacing
      omega
    rcases eq_or_eq_neg_of_abs_eq power with is | is
    · rw [is] at step ⊢
      exact (roundAt_pow step).1
    · rw [is] at step ⊢
      exact (roundAt_pow step).2

/-- The integers up to 2 ^ 53 are doubles. -/
theorem ofRat_int {n : Int} (small : n.natAbs ≤ 2 ^ 53) : ofRat n = .finite n := by
  have size : |(n : Rat)| = (n.natAbs : Rat) := by
    rw [Nat.cast_natAbs, Int.cast_abs]
  have bound : |(n : Rat)| < 2 ^ 1024 := by
    have most : |(n : Rat)| ≤ 2 ^ 53 := by
      rw [size]
      exact_mod_cast small
    exact most.trans_lt (pow_lt_pow_right₀ (by norm_num) (by norm_num))
  rw [ofRat_eq, rounded_int small, if_pos bound]

/-- A number is told from an integer below 2 ^ 53 by their doubles. -/
theorem compare_int {n m : Nat} (small : n < 2 ^ 53) :
    less (ofInt n) (ofInt m) = decide (n < m) ∧ (ofInt n = ofInt m ↔ n = m) := by
  have first : ofInt n = .finite n := by
    have exact' := @ofRat_int n (by omega)
    exact_mod_cast exact'
  by_cases within : m < 2 ^ 53
  · have second : ofInt m = .finite m := by
      have exact' := @ofRat_int m (by omega)
      exact_mod_cast exact'
    rw [first, second]
    simp [less]
  · have limit : ofRat ((2 ^ 53 : Nat) : Rat) = .finite (2 ^ 53 : Nat) := by
      have exact' := @ofRat_int (2 ^ 53 : Nat) (le_refl _)
      exact_mod_cast exact'
    have order : less (ofInt m) (ofRat ((2 ^ 53 : Nat) : Rat)) = false := ofRat_mono (by
      have large : 2 ^ 53 ≤ m := not_lt.1 within
      exact_mod_cast large)
    rw [limit] at order
    have apart : n < m := small.trans_le (not_lt.1 within)
    have beyond : (n : Rat) < (2 ^ 53 : Nat) := by exact_mod_cast small
    rw [first]
    cases shape : ofInt m with
    | finite value =>
      rw [shape] at order
      have above : ((2 ^ 53 : Nat) : Rat) ≤ value := by simpa [less] using order
      have strict := beyond.trans_le above
      simp [less, strict, apart, strict.ne, apart.ne]
    | infinite negative =>
      rw [shape] at order
      simp [less] at order
      simp [less, order, apart, apart.ne]
    | nan =>
      rw [ofInt, ofRat_eq] at shape
      split at shape <;> cases shape

/-! ### The order of doubles -/

/-- Below or the same. -/
def AtMost (a b : Double) : Prop := less a b = true ∨ a = b

theorem AtMost.refl (a : Double) : AtMost a a := .inr rfl

theorem finite_atMost {q r : Rat} : AtMost (.finite q) (.finite r) ↔ q ≤ r := by
  simp [AtMost, less, le_iff_lt_or_eq]

theorem ofRat_ne_nan (q : Rat) : ofRat q ≠ .nan := by
  rw [ofRat_eq]
  split <;> simp

theorem ofRat_atMost {q r : Rat} (le : q ≤ r) : AtMost (ofRat q) (ofRat r) := by
  have order := ofRat_mono le
  cases first : ofRat q with
  | nan => exact absurd first (ofRat_ne_nan q)
  | finite a =>
    cases second : ofRat r with
    | nan => exact absurd second (ofRat_ne_nan r)
    | finite b =>
      rw [first, second] at order
      exact finite_atMost.2 (not_lt.1 (of_decide_eq_false order))
    | infinite negative =>
      rw [first, second] at order
      exact .inl (by simpa [less] using order)
  | infinite negative =>
    cases second : ofRat r with
    | nan => exact absurd second (ofRat_ne_nan r)
    | finite b =>
      rw [first, second] at order
      exact .inl (by simpa [less] using order)
    | infinite negative' =>
      rw [first, second] at order
      revert order
      cases negative <;> cases negative' <;> simp [less, AtMost]

theorem round_atMost {a b : Double} (order : AtMost a b) : AtMost (round a) (round b) := by
  rcases order with lower | rfl
  · cases a <;> cases b <;> simp only [less, decide_eq_true_eq, Bool.false_eq_true] at lower
    · rename_i q r
      have up : ⌊q + 1 / 2⌋ ≤ ⌊r + 1 / 2⌋ := Int.floor_le_floor (by linarith)
      exact finite_atMost.2 (by exact_mod_cast up)
    · exact .inl lower
    · exact .inl lower
    · exact .inl lower
  · exact .refl _

theorem atMost_top {a : Double} (number : a ≠ .nan) : AtMost a (.infinite false) := by
  cases a with
  | nan => exact absurd rfl number
  | finite q => exact .inl rfl
  | infinite negative => cases negative <;> simp [AtMost, less]

theorem bottom_atMost {a : Double} (number : a ≠ .nan) : AtMost (.infinite true) a := by
  cases a with
  | nan => exact absurd rfl number
  | finite q => exact .inl rfl
  | infinite negative => cases negative <;> simp [AtMost, less]

theorem div_finite {q c : Rat} (positive : 0 < c) : div (.finite q) (.finite c) = ofRat (q / c) := if_neg positive.ne'

theorem div_infinite {negative : Bool} {c : Rat} (positive : 0 < c) :
    div (.infinite negative) (.finite c) = .infinite negative := by
  simp [div, not_lt.2 positive.le]

theorem div_atMost {a b : Double} {c : Rat} (positive : 0 < c) (order : AtMost a b) :
    AtMost (div a (.finite c)) (div b (.finite c)) := by
  rcases order with lower | rfl
  · cases a with
    | nan => cases b <;> cases lower
    | finite q =>
      cases b with
      | nan => cases lower
      | finite r =>
        rw [div_finite positive, div_finite positive]
        exact ofRat_atMost (div_le_div_of_nonneg_right (of_decide_eq_true lower).le positive.le)
      | infinite negative =>
        obtain rfl : negative = false := by simpa [less] using lower
        rw [div_finite positive, div_infinite positive]
        exact atMost_top (ofRat_ne_nan _)
    | infinite negative =>
      cases b with
      | nan => cases lower
      | finite r =>
        obtain rfl : negative = true := lower
        rw [div_finite positive, div_infinite positive]
        exact bottom_atMost (ofRat_ne_nan _)
      | infinite negative' =>
        rw [div_infinite positive, div_infinite positive]
        exact .inl lower
  · exact .refl _

end Doubles
