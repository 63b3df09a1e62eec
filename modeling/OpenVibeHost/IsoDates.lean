import OpenVibeHost.Calendar

/-! A time that `toISOString` writes is read back by `Date.parse`. -/
namespace OpenVibeHost.Dates

/-! ### The calendar -/

theorem day_lt_year (year : Int) : dayFromYear (year + 1) ≤ dayFromYear year + 366 := by
  unfold dayFromYear
  omega

theorem year_between {day : Int} (since1970 : 0 ≤ day) (late : day ≤ 100000000) :
    1970 ≤ yearFromDay day ∧ yearFromDay day ≤ 275760 := by
  have spec := yearFromDay_spec day
  have near := dayFromYear_bounds (yearFromDay day)
  have near' := dayFromYear_bounds (yearFromDay day + 1)
  have epoch : dayFromYear 1970 = 0 := rfl
  refine ⟨?_, by omega⟩
  by_contra early
  have last : yearFromDay day + 1 = 1970 := by omega
  rw [last, epoch] at spec
  omega

/-- The month of a day of a year begins at that day or before it, not longer than a month ago. -/
theorem monthOf_spec : ∀ leap : Bool, ∀ n < 366, monthOf leap (n : Nat) < 12 ∧
    monthStart leap (monthOf leap (n : Nat)) ≤ (n : Nat) ∧ (n : Nat) - monthStart leap (monthOf leap (n : Nat)) < 60 := by
  decide +kernel

/-! ### Digits -/

theorem digit_spec (n : Nat) : (digit n).isDigit = true ∧ (digit n).toNat - '0'.toNat = n % 10 ∧ digit n ≠ '+' := by
  have all : ∀ k < 10, (Char.ofNat ('0'.toNat + k)).isDigit = true ∧
      (Char.ofNat ('0'.toNat + k)).toNat - '0'.toNat = k ∧ Char.ofNat ('0'.toNat + k) ≠ '+' := by decide
  exact all _ (Nat.mod_lt _ (by decide))

theorem digits_snoc (text : List Char) (n : Nat) :
    digits (text ++ [digit n]) = (digits text).map fun value => 10 * value + n % 10 := by
  obtain ⟨is, value, -⟩ := digit_spec n
  unfold digits
  rw [List.foldlM_append]
  cases text.foldlM (fun n c => if c.isDigit then some (10 * n + (c.toNat - '0'.toNat)) else none) 0 with
  | none => rfl
  | some first =>
    simp only [Option.bind_eq_bind, Option.bind_some, List.foldlM_cons, List.foldlM_nil, is, if_true, value]
    rfl

theorem digits_pad (width n : Nat) : digits (pad width n) = some (n % 10 ^ width) := by
  induction width generalizing n with
  | zero => simp [pad, digits, Nat.mod_one]
  | succ width ih =>
    rw [pad, digits_snoc, ih, Option.map_some, Nat.pow_succ, Nat.mul_comm (10 ^ width) 10, Nat.mod_mul,
      Nat.add_comm]

theorem yearOf_four {c y₂ y₃ y₄ : Char} (plain : c ≠ '+') (rest : List Char) :
    yearOf (c :: y₂ :: y₃ :: y₄ :: rest) = (digits [c, y₂, y₃, y₄]).map (·, rest) := by
  unfold yearOf
  split
  · rename_i shape
    exact absurd (List.cons.inj shape).1 plain
  · rename_i shape
    simp only [List.cons.injEq] at shape
    obtain ⟨rfl, rfl, rfl, rfl, rfl⟩ := shape
    rfl
  · rename_i short
    exact (short _ _ _ _ _ rfl).elim

theorem yearOf_yearText {year : Nat} (six : year < 1000000) (rest : List Char) :
    yearOf (yearText year ++ rest) = some (year, rest) := by
  unfold yearText
  split
  · have read := digits_pad 4 year
    rw [Nat.mod_eq_of_lt (by omega)] at read
    exact (yearOf_four (digit_spec _).2.2 rest).trans (congrArg (Option.map (·, rest)) read)
  · have read := digits_pad 6 year
    rw [Nat.mod_eq_of_lt (show year < 10 ^ 6 from six)] at read
    exact congrArg (Option.map (·, rest)) read

/-- The text of `toISOString`, of its fields. -/
theorem dateParse_fields {year month day hour minute second ms : Nat} (six : year < 1000000) (months : month < 100)
    (days : day < 100) (hours : hour < 100) (minutes : minute < 100) (seconds : second < 100) (fraction : ms < 1000) :
    dateParse (String.ofList (yearText year ++ ['-'] ++ pad 2 month ++ ['-'] ++ pad 2 day ++ ['T'] ++
      pad 2 hour ++ [':'] ++ pad 2 minute ++ [':'] ++ pad 2 second ++ ['.'] ++ pad 3 ms ++ ['Z'])) =
    some ((makeDay year (month - 1) day * 86400 + ((hour * 60 + minute) * 60 + second : Nat)) * 1000 + ms) := by
  have two {n : Nat} (small : n < 100) : digits (pad 2 n) = some n := by
    rw [digits_pad, Nat.mod_eq_of_lt (show n < 10 ^ 2 from small)]
  have three : digits (pad 3 ms) = some ms := by
    rw [digits_pad, Nat.mod_eq_of_lt (show ms < 10 ^ 3 from fraction)]
  unfold dateParse
  simp only [List.append_assoc, String.toList_ofList, yearOf_yearText six]
  show (do
    let month' ← digits (pad 2 month)
    let day' ← digits (pad 2 day)
    let hour' ← digits (pad 2 hour)
    let minute' ← digits (pad 2 minute)
    let second' ← digits (pad 2 second)
    let ms' ← digits (pad 3 ms)
    return (makeDay year (month' - 1) day' * 86400 + ((hour' * 60 + minute') * 60 + second' : Nat)) * 1000 + ms' : Option Int) = _
  rw [two months, two days, two hours, two minutes, two seconds, three]
  rfl

/-- A day is made of its year, its month and its day in the month. -/
theorem makeDay_monthOf {year : Int} {n : Nat} (short : n < 366) (positive : 0 ≤ year) :
    let month := monthOf (inLeapYear year) (n : Int)
    makeDay (year.toNat : Int) ((month + 1 : Nat) - 1) (((n : Int) - monthStart (inLeapYear year) month).toNat + 1 : Nat) =
      dayFromYear year + n := by
  obtain ⟨twelve, starts, -⟩ := monthOf_spec (inLeapYear year) n short
  intro month
  have starts : monthStart (inLeapYear year) month ≤ n := starts
  have index : ((month + 1 : Nat) : Int) - 1 = (month : Nat) := by omega
  have first : (month : Int) / 12 = 0 := by omega
  have same : (month : Int) % 12 = month := by omega
  unfold makeDay
  dsimp only
  rw [index, first, same, Int.toNat_of_nonneg positive, Int.add_zero, Int.toNat_natCast]
  omega

/-- `Date.parse` of `toISOString`, up to the last time that a `Date` can have. -/
theorem dateParse_isoString {ms : Nat} (valid : ms ≤ 8640000000000000) : dateParse (isoString ms) = some (ms : Int) := by
  generalize isDay : ms / 1000 / 86400 = day
  have spec := yearFromDay_spec (day : Int)
  have between := @year_between (day : Int) (by omega) (by omega)
  have within := day_lt_year (yearFromDay (day : Int))
  obtain ⟨n, dayInYear⟩ : ∃ n : Nat, (day : Int) - dayFromYear (yearFromDay (day : Int)) = n :=
    ⟨_, (Int.toNat_of_nonneg (by omega)).symm⟩
  have short : n < 366 := by omega
  obtain ⟨month, starts, near⟩ := monthOf_spec (inLeapYear (yearFromDay (day : Int))) n short
  have made := @makeDay_monthOf (yearFromDay (day : Int)) n short (by omega)
  unfold isoString fieldsOf
  dsimp only at made ⊢
  rw [isDay, dayInYear, dateParse_fields (by omega) (by omega) (by omega) (by omega) (by omega) (by omega) (by omega),
    made]
  congr 1
  omega

end OpenVibeHost.Dates
