import OpenVibeHost.IsoDates

/-! The dates of the calendar: the day after a date, the number of its day since 1970 and its text. A run of dates has
consecutive numbers, across months and years, and a date is read back from its number and from its text. -/
namespace OpenVibeHost.Dates

@[ext]
structure CalendarDate where
  year : Nat
  month : Nat
  day : Nat
  months : 1 ≤ month ∧ month ≤ 12
  days : 1 ≤ day ∧ day ≤ daysIn (inLeapYear year) (month - 1)
  deriving DecidableEq, Repr

namespace CalendarDate

/-! ### Numbers -/

/-- The day, in days since 1970. -/
def number (d : CalendarDate) : Int :=
  dayFromYear d.year + monthStart (inLeapYear d.year) (d.month - 1) + d.day - 1

theorem daysIn_pos : ∀ leap : Bool, ∀ month < 12, 1 ≤ daysIn leap month := by decide

/-- The day after. -/
def next (d : CalendarDate) : CalendarDate :=
  if more : d.day < daysIn (inLeapYear d.year) (d.month - 1) then
    { d with day := d.day + 1, days := ⟨by omega, more⟩ }
  else if left : d.month < 12 then
    { d with month := d.month + 1, day := 1, months := by omega, days := ⟨le_refl 1, daysIn_pos _ d.month left⟩ }
  else
    { year := d.year + 1, month := 1, day := 1, months := by decide, days := ⟨le_refl 1, daysIn_pos _ 0 (by decide)⟩ }

theorem monthStart_succ : ∀ leap : Bool, ∀ month < 11, monthStart leap (month + 1) = monthStart leap month + daysIn leap month := by
  decide

theorem december : ∀ leap : Bool, monthStart leap 11 + daysIn leap 11 = 365 + (if leap then 1 else 0) := by decide

theorem number_next (d : CalendarDate) : d.next.number = d.number + 1 := by
  obtain ⟨year, month, day, months, days⟩ := d
  unfold next
  dsimp only at days ⊢
  split
  · unfold number
    push_cast
    ring
  rename_i last
  split
  · rename_i left
    obtain ⟨m, rfl⟩ : ∃ m, month = m + 1 := ⟨month - 1, by omega⟩
    have starts := monthStart_succ (inLeapYear year) m (by omega)
    unfold number
    simp only [Nat.add_sub_cancel] at last days ⊢
    omega
  · obtain rfl : month = 12 := by omega
    have ends := december (inLeapYear year)
    have year' := dayFromYear_succ year
    have january : monthStart (inLeapYear ((year + 1 : Nat) : Int)) 0 = 0 := by
      cases inLeapYear ((year + 1 : Nat) : Int) <;> rfl
    unfold number
    dsimp only at last days ⊢
    rw [show 12 - 1 = 11 from rfl] at last days ⊢
    rw [Nat.sub_self, january]
    push_cast
    omega

/-- In the order of the calendar. -/
def Before (d e : CalendarDate) : Prop :=
  d.year < e.year ∨ d.year = e.year ∧ (d.month < e.month ∨ d.month = e.month ∧ d.day < e.day)

section
variable {d e : CalendarDate}

theorem number_lt (before : d.Before e) : d.number < e.number := by
  have months := d.months
  have months' := e.months
  have less := @dayInYear_lt d.year e.year (d.month - 1) (e.month - 1) d.day e.day (by omega)
    (by have := d.days; have := e.days; omega) (by have := d.days; have := e.days; omega)
    (by unfold Before at before; omega)
  unfold number
  omega

theorem trichotomy (d e : CalendarDate) : d.Before e ∨ d = e ∨ e.Before d := by
  by_cases same : d.year = e.year ∧ d.month = e.month ∧ d.day = e.day
  · exact .inr (.inl (CalendarDate.ext same.1 same.2.1 same.2.2))
  · have apart : d.Before e ∨ e.Before d := by
      unfold Before
      omega
    exact apart.imp_right .inr

theorem number_inj : d.number = e.number ↔ d = e := by
  refine ⟨fun same => ?_, fun same => congrArg number same⟩
  rcases trichotomy d e with before | equal | after
  · exact absurd same (number_lt before).ne
  · exact equal
  · exact absurd same (number_lt after).ne'

/-- The number of a day is within its year. -/
theorem number_in_year (d : CalendarDate) :
    dayFromYear d.year ≤ d.number ∧ d.number < dayFromYear (d.year + 1) := by
  have month := months_within (inLeapYear d.year) (d.month - 1) (by have := d.months; omega)
  have year := dayFromYear_succ d.year
  have day := d.days
  unfold number
  omega

theorem year_le_iff (d : CalendarDate) (year : Nat) : year ≤ d.year ↔ dayFromYear year ≤ d.number := by
  obtain ⟨starts, ends⟩ := d.number_in_year
  constructor
  · intro late
    have first := dayFromYear_mono (show (year : Int) ≤ d.year by omega)
    omega
  · intro late
    by_contra early
    have first := dayFromYear_mono (show (d.year + 1 : Int) ≤ year by omega)
    omega

end

/-! ### From numbers -/

/-- The month of a day of a year lasts at least until it. -/
theorem monthOf_within : ∀ leap : Bool, ∀ n < 365 + (if leap then 1 else 0),
    (n : Nat) - monthStart leap (monthOf leap (n : Nat)) < daysIn leap (monthOf leap (n : Nat)) := by
  decide +kernel

/-- The date of a day since 1970 is its year, its month from 1 and its day in the month. -/
theorem exists_number {day : Int} (late : dayFromYear 0 ≤ day) : ∃ d : CalendarDate, d.number = day ∧
    (d.year : Int) = yearFromDay day ∧ d.month = monthOf (inLeapYear (yearFromDay day)) (day - dayFromYear (yearFromDay day)) + 1 ∧
    (d.day : Int) = day - dayFromYear (yearFromDay day) -
      monthStart (inLeapYear (yearFromDay day)) (monthOf (inLeapYear (yearFromDay day)) (day - dayFromYear (yearFromDay day))) + 1 := by
  obtain ⟨starts, ends⟩ := yearFromDay_spec day
  obtain ⟨year, isYear⟩ := Int.eq_ofNat_of_zero_le (Retention.year_le_of_day late)
  rw [isYear] at starts ends ⊢
  have length := dayFromYear_succ year
  obtain ⟨n, isN⟩ := Int.eq_ofNat_of_zero_le (sub_nonneg.2 starts)
  rw [isN]
  have short : n < 365 + (if inLeapYear year then 1 else 0) := by
    by_cases leap : inLeapYear year = true
    · rw [if_pos leap] at length ⊢
      omega
    · rw [if_neg leap] at length ⊢
      omega
  have short' : n < 366 := by
    split at short <;> omega
  obtain ⟨twelve, from0, -⟩ := monthOf_spec (inLeapYear year) n short'
  have within := monthOf_within (inLeapYear year) n short
  generalize monthOf (inLeapYear year) n = month at twelve from0 within ⊢
  obtain ⟨rest, isRest⟩ := Int.eq_ofNat_of_zero_le (sub_nonneg.2 from0)
  rw [isRest] at within ⊢
  refine ⟨{ year := year, month := month + 1, day := rest + 1, months := by omega, days := ?_ }, ?_, rfl, rfl, rfl⟩
  · rw [Nat.add_sub_cancel]
    omega
  · unfold number
    dsimp only
    rw [Nat.add_sub_cancel]
    push_cast
    omega

theorem makeDay_number (d : CalendarDate) : makeDay d.year (d.month - 1) d.day = d.number := by
  have months := d.months
  have index : ((d.month : Int) - 1) = ((d.month - 1 : Nat) : Int) := by omega
  rw [index, makeDay_month (by omega)]
  rfl

/-! ### Runs -/

/-- So many days from a date on. -/
def run (d : CalendarDate) : Nat → List CalendarDate
  | 0 => []
  | n + 1 => d :: d.next.run n

@[simp] theorem length_run (d : CalendarDate) (n : Nat) : (d.run n).length = n := by
  induction n generalizing d with
  | zero => rfl
  | succ n ih => simp [run, ih]

theorem mem_run {d e : CalendarDate} {n : Nat} : e ∈ d.run n ↔ d.number ≤ e.number ∧ e.number < d.number + n := by
  induction n generalizing d with
  | zero =>
    simp only [run, List.not_mem_nil, false_iff]
    omega
  | succ n ih =>
    have after := d.number_next
    rw [run, List.mem_cons, ih, ← number_inj]
    omega

theorem run_succ (d : CalendarDate) (n : Nat) : ∃ e : CalendarDate, e.number = d.number + n ∧ d.run (n + 1) = d.run n ++ [e] := by
  induction n generalizing d with
  | zero => exact ⟨d, by simp, rfl⟩
  | succ n ih =>
    obtain ⟨e, isLast, shape⟩ := ih d.next
    refine ⟨e, ?_, ?_⟩
    · rw [isLast, number_next]
      push_cast
      ring
    · rw [run, shape, run, List.cons_append]

/-! ### Texts -/

/-- `YYYY-MM-DD`. -/
def text (d : CalendarDate) : String :=
  String.ofList (yearText d.year ++ ['-'] ++ pad 2 d.month ++ ['-'] ++ pad 2 d.day)

end CalendarDate

theorem length_pad (width n : Nat) : (pad width n).length = width := by
  induction width generalizing n with
  | zero => rfl
  | succ width ih => rw [pad, List.length_append, ih, List.length_singleton]

/-- Digits are those of the number that they write. -/
theorem digits_iff {text : List Char} {n : Nat} :
    digits text = some n ↔ n < 10 ^ text.length ∧ text = pad text.length n := by
  constructor
  · intro read
    have small := digits_lt read
    have padded := digits_pad text.length n
    rw [Nat.mod_eq_of_lt small] at padded
    exact ⟨small, ((digits_order (length_pad _ n).symm read padded).2).2 rfl⟩
  · rintro ⟨small, shape⟩
    have padded := digits_pad text.length n
    rwa [← shape, Nat.mod_eq_of_lt small] at padded

/-- The day made of a year, a month from 0 and a date is not before the year before. -/
theorem makeDay_late (year : Int) (month : Nat) (date : Nat) : dayFromYear (year - 1) - 1 ≤ makeDay year (month - 1) date := by
  have within := (months_within (inLeapYear (year + (month - 1) / 12)) (((month : Int) - 1) % 12).toNat (by omega)).1
  have first : dayFromYear (year - 1) ≤ dayFromYear (year + ((month : Int) - 1) / 12) := dayFromYear_mono (by omega)
  unfold makeDay
  dsimp only
  omega

end OpenVibeHost.Dates
