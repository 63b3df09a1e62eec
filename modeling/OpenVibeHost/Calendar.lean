import OpenVibeHost.Retention
import Mathlib.Tactic.Ring
import Mathlib.Tactic.Linarith

/-! The calendar under `lib/retention.js`: texts of digits order as the numbers they write, so stamps order as
their times; a key of `isoWeek` stands for one week from Monday to Sunday, across the years. -/
namespace OpenVibeHost.Dates

/-! ### Digits in order -/

theorem append_lt_append_iff {α : Type} [LT α] [Std.Irrefl (· < · : α → α → Prop)] {a b u v : List α}
    (same : a.length = b.length) : a ++ u < b ++ v ↔ a < b ∨ a = b ∧ u < v := by
  induction a generalizing b with
  | nil =>
    obtain rfl := List.eq_nil_of_length_eq_zero same.symm
    simp
  | cons c a ih =>
    cases b with
    | nil => simp at same
    | cons d b =>
      simp only [List.cons_append, List.cons_lt_cons_iff, ih (by simpa using same), List.cons.injEq]
      tauto

theorem digits_from (text : List Char) (start : Nat) :
    text.foldlM (fun n c => if c.isDigit then some (10 * n + (c.toNat - '0'.toNat)) else none) start =
      (digits text).map fun n => start * 10 ^ text.length + n := by
  unfold digits
  induction text generalizing start with
  | nil => simp
  | cons c rest ih =>
    simp only [List.foldlM_cons]
    split
    · simp only [Option.bind_eq_bind, Option.bind_some]
      rw [ih, ih (10 * 0 + _), Option.map_map]
      congr 1
      funext n
      simp only [Function.comp, List.length_cons, pow_succ]
      ring
    · rfl

theorem digits_cons {c : Char} {text : List Char} {n : Nat} (read : digits (c :: text) = some n) :
    c.isDigit = true ∧ ∃ v, digits text = some v ∧ n = (c.toNat - '0'.toNat) * 10 ^ text.length + v := by
  unfold digits at read
  rw [List.foldlM_cons] at read
  split at read
  · rename_i digit
    simp only [Option.bind_eq_bind, Option.bind_some, digits_from, Option.map_eq_some_iff] at read
    obtain ⟨v, found, rfl⟩ := read
    exact ⟨digit, v, found, by simp⟩
  · exact nomatch read

theorem digit_le {c : Char} (digit : c.isDigit = true) : '0'.toNat ≤ c.toNat ∧ c.toNat ≤ '9'.toNat := by
  simp only [Char.isDigit, Bool.and_eq_true, decide_eq_true_eq] at digit
  exact digit

theorem digits_lt {text : List Char} {n : Nat} (read : digits text = some n) : n < 10 ^ text.length := by
  induction text generalizing n with
  | nil =>
    obtain rfl : 0 = n := by simpa [digits] using read
    simp
  | cons c rest ih =>
    obtain ⟨digit, v, found, rfl⟩ := digits_cons read
    have small := ih found
    have nine : c.toNat - '0'.toNat ≤ 9 := Nat.sub_le_sub_right (digit_le digit).2 _
    rw [List.length_cons, pow_succ]
    nlinarith

/-- Texts of as many digits order as their numbers. -/
theorem digits_order {a b : List Char} {m n : Nat} (same : a.length = b.length) (first : digits a = some m)
    (second : digits b = some n) : (a < b ↔ m < n) ∧ (a = b ↔ m = n) := by
  induction a generalizing b m n with
  | nil =>
    obtain rfl := List.eq_nil_of_length_eq_zero same.symm
    obtain rfl := Option.some.inj (first.symm.trans second)
    simp
  | cons c a ih =>
    cases b with
    | nil => simp at same
    | cons d b =>
      obtain ⟨digit, v, found, rfl⟩ := digits_cons first
      obtain ⟨digit', w, found', rfl⟩ := digits_cons second
      have lengths : a.length = b.length := by simpa using same
      obtain ⟨before, equal⟩ := ih lengths found found'
      have small := digits_lt found
      have small' := digits_lt found'
      rw [← lengths] at small' ⊢
      obtain ⟨low, -⟩ := digit_le digit
      obtain ⟨low', -⟩ := digit_le digit'
      have chars : c < d ↔ c.toNat < d.toNat := Iff.rfl
      have codes : c = d ↔ c.toNat = d.toNat := ⟨congrArg _, Char.toNat_inj.mp⟩
      rw [List.cons_lt_cons_iff, List.cons.injEq, before, equal, chars, codes]
      generalize 10 ^ a.length = size at small small'
      obtain less | same' | more := lt_trichotomy c.toNat d.toNat
      · have gap : (c.toNat - '0'.toNat + 1) * size ≤ (d.toNat - '0'.toNat) * size :=
          Nat.mul_le_mul_right _ (by omega)
        rw [Nat.add_mul, Nat.one_mul] at gap
        omega
      · rw [same']
        omega
      · have gap : (d.toNat - '0'.toNat + 1) * size ≤ (c.toNat - '0'.toNat) * size :=
          Nat.mul_le_mul_right _ (by omega)
        rw [Nat.add_mul, Nat.one_mul] at gap
        omega

/-! ### Days in order -/

theorem dayFromYear_succ (year : Int) :
    dayFromYear (year + 1) = dayFromYear year + 365 + (if inLeapYear year then 1 else 0) := by
  unfold dayFromYear
  by_cases leap : inLeapYear year = true
  · have known := leap
    simp only [inLeapYear, Bool.and_eq_true, Bool.or_eq_true, decide_eq_true_eq] at known
    rw [if_pos leap]
    omega
  · have known := leap
    simp only [inLeapYear, Bool.and_eq_true, Bool.or_eq_true, decide_eq_true_eq] at known
    rw [if_neg leap]
    omega

theorem dayFromYear_mono {year year' : Int} (later : year ≤ year') : dayFromYear year ≤ dayFromYear year' := by
  unfold dayFromYear
  omega

/-- Years are 146097 days for every 400, and never far off. -/
theorem dayFromYear_bounds (year : Int) : 146097 * (year - 1970) - 506 ≤ 400 * dayFromYear year ∧
    400 * dayFromYear year ≤ 146097 * (year - 1970) + 589 := by
  unfold dayFromYear
  omega

/-- A day lies in its year. -/
theorem yearFromDay_spec (day : Int) :
    dayFromYear (yearFromDay day) ≤ day ∧ day < dayFromYear (yearFromDay day + 1) := by
  unfold yearFromDay
  dsimp only
  have guess : 146097 * (day * 400 / 146097) ≤ day * 400 ∧ day * 400 < 146097 * (day * 400 / 146097) + 146097 := by
    omega
  generalize day * 400 / 146097 = years at guess
  split
  · have bounds := dayFromYear_bounds (1970 + years - 1)
    rw [Int.sub_add_cancel]
    omega
  · split
    · have bounds := dayFromYear_bounds (1970 + years + 1 + 1)
      omega
    · omega

/-- The days of a month, from 0. -/
def daysIn (leap : Bool) (month : Nat) : Nat :=
  [31, if leap then 29 else 28, 31, 30, 31, 30, 31, 31, 30, 31, 30, 31].getD month 0

theorem months_apart (leap : Bool) : ∀ month' < 12, ∀ month < month',
    monthStart leap month + daysIn leap month ≤ monthStart leap month' := by
  cases leap <;> decide

theorem months_within (leap : Bool) : ∀ month < 12, 0 ≤ monthStart leap month ∧
    monthStart leap month + daysIn leap month ≤ 365 + (if leap then 1 else 0) := by
  cases leap <;> decide

theorem makeDay_month {year : Int} {month : Nat} (within : month < 12) (date : Int) :
    makeDay year month date = dayFromYear year + monthStart (inLeapYear year) month + date - 1 := by
  have stays : year + (month : Int) / 12 = year := by omega
  have same : ((month : Int) % 12).toNat = month := by omega
  unfold makeDay
  rw [stays, same]

/-- A day of an earlier year, of an earlier month of the year or earlier in the month comes first. -/
theorem dayInYear_lt {year year' : Int} {month month' : Nat} {day day' : Int} (months : month < 12 ∧ month' < 12)
    (first : 1 ≤ day ∧ 1 ≤ day')
    (last : day ≤ daysIn (inLeapYear year) month ∧ day' ≤ daysIn (inLeapYear year') month')
    (before : year < year' ∨ year = year' ∧ (month < month' ∨ month = month' ∧ day < day')) :
    dayFromYear year + monthStart (inLeapYear year) month + day <
      dayFromYear year' + monthStart (inLeapYear year') month' + day' := by
  rcases before with years | ⟨rfl, earlier | ⟨rfl, days⟩⟩
  · have next := dayFromYear_succ year
    have far : dayFromYear (year + 1) ≤ dayFromYear year' := dayFromYear_mono (by omega)
    have ends := (months_within (inLeapYear year) month months.1).2
    have starts := (months_within (inLeapYear year') month' months.2).1
    omega
  · have apart := months_apart (inLeapYear year) month' months.2 month earlier
    omega
  · omega

/-- A date of the calendar, from the year 1000 on. -/
structure Calendar (f : Fields) : Prop where
  year : 1000 ≤ f.year
  month : 1 ≤ f.month ∧ f.month ≤ 12
  day : 1 ≤ f.day ∧ f.day ≤ daysIn (inLeapYear f.year) (f.month - 1)
  hour : f.hour < 24
  minute : f.minute < 60
  second : f.second < 60

/-- The days since 1970 of a date. -/
def dayNumber (f : Fields) : Int := makeDay f.year (f.month - 1) f.day

section
variable {f g : Fields}

theorem Calendar.dayNumber_eq (valid : Calendar f) : dayNumber f =
    dayFromYear f.year + monthStart (inLeapYear f.year) (f.month - 1) + f.day - 1 := by
  have index : ((f.month : Int) - 1) = ((f.month - 1 : Nat) : Int) := by
    have := valid.month.1
    omega
  rw [dayNumber, index, makeDay_month (by have := valid.month; omega)]

theorem Calendar.utc_eq (valid : Calendar f) :
    utc f = (dayNumber f * 86400 + ((f.hour * 60 + f.minute) * 60 + f.second : Nat)) * 1000 := by
  have late : ¬ f.year ≤ 99 := by
    have := valid.year
    omega
  simp only [utc, if_neg late, dayNumber]

theorem Calendar.utc_div (valid : Calendar f) : utc f / 86400000 = dayNumber f := by
  have hour := valid.hour
  have minute := valid.minute
  have second := valid.second
  rw [valid.utc_eq]
  omega

/-- An earlier date. -/
def DayBefore (f g : Fields) : Prop :=
  f.year < g.year ∨ f.year = g.year ∧ (f.month < g.month ∨ f.month = g.month ∧ f.day < g.day)

def SameDay (f g : Fields) : Prop := f.year = g.year ∧ f.month = g.month ∧ f.day = g.day

theorem Calendar.dayNumber_lt (valid : Calendar f) (valid' : Calendar g) (before : DayBefore f g) :
    dayNumber f < dayNumber g := by
  have day := valid.day
  have day' := valid'.day
  have month := valid.month
  have month' := valid'.month
  have less := @dayInYear_lt f.year g.year (f.month - 1) (g.month - 1) f.day g.day (by omega) (by omega) (by omega)
    (by unfold DayBefore at before; omega)
  rw [valid.dayNumber_eq, valid'.dayNumber_eq]
  omega

theorem dayBefore_trichotomy (f g : Fields) : DayBefore f g ∨ SameDay f g ∨ DayBefore g f := by
  unfold DayBefore SameDay
  omega

theorem SameDay.dayNumber_eq (same : SameDay f g) : dayNumber f = dayNumber g := by
  rw [dayNumber, dayNumber, same.1, same.2.1, same.2.2]

theorem Calendar.dayNumber_inj (valid : Calendar f) (valid' : Calendar g) :
    dayNumber f = dayNumber g ↔ SameDay f g := by
  refine ⟨fun equal => ?_, SameDay.dayNumber_eq⟩
  rcases dayBefore_trichotomy f g with before | same | after
  · exact absurd equal (valid.dayNumber_lt valid' before).ne
  · exact same
  · exact absurd equal (valid'.dayNumber_lt valid after).ne'

/-- An earlier time. -/
def Before (f g : Fields) : Prop :=
  DayBefore f g ∨ SameDay f g ∧ (f.hour < g.hour ∨ f.hour = g.hour ∧
    (f.minute < g.minute ∨ f.minute = g.minute ∧ f.second < g.second))

theorem Calendar.utc_lt (valid : Calendar f) (valid' : Calendar g) (before : Before f g) : utc f < utc g := by
  rw [valid.utc_eq, valid'.utc_eq]
  have hour := valid.hour
  have minute := valid.minute
  have second := valid.second
  have minute' := valid'.minute
  have second' := valid'.second
  rcases before with days | ⟨same, times⟩
  · have days' := valid.dayNumber_lt valid' days
    omega
  · rw [same.dayNumber_eq]
    omega

theorem Calendar.utc_lt_iff (valid : Calendar f) (valid' : Calendar g) : utc f < utc g ↔ Before f g := by
  refine ⟨fun less => ?_, valid.utc_lt valid'⟩
  by_contra not
  have rest : f = g ∨ Before g f := by
    obtain ⟨y, m, d, h, i, s⟩ := f
    obtain ⟨y', m', d', h', i', s'⟩ := g
    simp only [Before, DayBefore, SameDay, Fields.mk.injEq] at not ⊢
    omega
  rcases rest with rfl | after
  · exact lt_irrefl _ less
  · exact lt_asymm less (valid'.utc_lt valid after)

end

end OpenVibeHost.Dates

namespace OpenVibeHost.Retention
open Newest Dates

/-! ### Stamps in order -/

/-- A stamp of the calendar, from the year 1000 on. -/
def ValidStamp (stamp : String) : Prop := ∃ fields, stampRe stamp = some fields ∧ Calendar fields

/-- What `STAMP_RE` takes apart. -/
structure Groups (text : List Char) (f : Fields) where
  year : List Char
  month : List Char
  day : List Char
  hour : List Char
  minute : List Char
  second : List Char
  whole : text = year ++ (month ++ (day ++ (['-'] ++ (hour ++ (minute ++ second)))))
  lengths : year.length = 4 ∧ month.length = 2 ∧ day.length = 2 ∧ hour.length = 2 ∧ minute.length = 2 ∧ second.length = 2
  years : digits year = some f.year
  months : digits month = some f.month
  days : digits day = some f.day
  hours : digits hour = some f.hour
  minutes : digits minute = some f.minute
  seconds : digits second = some f.second

theorem groups_of_stampRe {text : String} {f : Fields} (read : stampRe text = some f) : Nonempty (Groups text.toList f) := by
  unfold stampRe at read
  split at read
  · rename_i y₁ y₂ y₃ y₄ m₁ m₂ d₁ d₂ h₁ h₂ i₁ i₂ s₁ s₂ whole
    simp only [Option.bind_eq_bind, Option.bind_eq_some_iff] at read
    obtain ⟨y, years, m, months, d, days, h, hours, i, minutes, s, seconds, same⟩ := read
    obtain rfl := Option.some.inj same
    exact ⟨⟨[y₁, y₂, y₃, y₄], [m₁, m₂], [d₁, d₂], [h₁, h₂], [i₁, i₂], [s₁, s₂], whole, by simp, years, months, days,
      hours, minutes, seconds⟩⟩
  · exact nomatch read

section
variable {s t : String} {f g : Fields}

theorem stamp_lt_iff (first : stampRe s = some f) (second : stampRe t = some g) : s < t ↔ Before f g := by
  obtain ⟨a⟩ := groups_of_stampRe first
  obtain ⟨b⟩ := groups_of_stampRe second
  obtain ⟨ly, lm, ld, lh, li, ls⟩ := a.lengths
  obtain ⟨ly', lm', ld', lh', li', ls'⟩ := b.lengths
  obtain ⟨years, years'⟩ := digits_order (ly.trans ly'.symm) a.years b.years
  obtain ⟨months, months'⟩ := digits_order (lm.trans lm'.symm) a.months b.months
  obtain ⟨days, days'⟩ := digits_order (ld.trans ld'.symm) a.days b.days
  obtain ⟨hours, hours'⟩ := digits_order (lh.trans lh'.symm) a.hours b.hours
  obtain ⟨minutes, minutes'⟩ := digits_order (li.trans li'.symm) a.minutes b.minutes
  obtain ⟨seconds, -⟩ := digits_order (ls.trans ls'.symm) a.seconds b.seconds
  rw [String.lt_iff_toList_lt, a.whole, b.whole, append_lt_append_iff (ly.trans ly'.symm), append_lt_append_iff (lm.trans lm'.symm),
    append_lt_append_iff (ld.trans ld'.symm), append_lt_append_iff rfl, append_lt_append_iff (lh.trans lh'.symm),
    append_lt_append_iff (li.trans li'.symm), years, years', months, months', days, days', hours, hours', minutes, minutes', seconds]
  simp only [Before, DayBefore, SameDay, List.lt_irrefl, true_and, false_or, and_or_left, or_assoc, and_assoc]

theorem dayOf_eq_iff (first : stampRe s = some f) (second : stampRe t = some g) : dayOf s = dayOf t ↔ SameDay f g := by
  obtain ⟨a⟩ := groups_of_stampRe first
  obtain ⟨b⟩ := groups_of_stampRe second
  obtain ⟨ly, lm, ld, -⟩ := a.lengths
  obtain ⟨ly', lm', ld', -⟩ := b.lengths
  have eight {year month day rest : List Char} (y : year.length = 4) (m : month.length = 2) (d : day.length = 2) :
      (year ++ (month ++ (day ++ rest))).take 8 = year ++ (month ++ day) := by
    rw [List.take_append, y, List.take_of_length_le (by omega), List.take_append, m, List.take_of_length_le (by omega),
      List.take_append, d, List.take_of_length_le (by omega)]
    simp
  obtain ⟨-, years⟩ := digits_order (ly.trans ly'.symm) a.years b.years
  obtain ⟨-, months⟩ := digits_order (lm.trans lm'.symm) a.months b.months
  obtain ⟨-, days⟩ := digits_order (ld.trans ld'.symm) a.days b.days
  rw [dayOf, dayOf, a.whole, b.whole, eight ly lm ld, eight ly' lm' ld', SameDay, ← years, ← months, ← days]
  constructor
  · intro same
    obtain ⟨year, rest⟩ := List.append_inj (String.ofList_injective same) (ly.trans ly'.symm)
    obtain ⟨month, day⟩ := List.append_inj rest (lm.trans lm'.symm)
    exact ⟨year, month, day⟩
  · rintro ⟨year, month, day⟩
    rw [year, month, day]

end

/-! ### Weeks -/

/-- The week from Monday to Sunday that a time lies in, counted from that of 1970-01-01. -/
def mondayWeek (ms : Int) : Int := (ms / 86400000 + 3) / 7

theorem monthOf_lt (leap : Bool) (dayInYear : Int) : monthOf leap dayInYear < 12 := by
  have fewer : ((List.range 12).filter fun month => 1 ≤ month ∧ monthStart leap month ≤ dayInYear).length <
      (List.range 12).length :=
    List.length_filter_lt_length_iff_exists.mpr ⟨0, by simp, by simp⟩
  simpa [monthOf] using fewer

theorem utcDay_late {year : Int} (late : 100 ≤ year) (month date : Int) : utcDay year month date = makeDay year month date := by
  rw [utcDay, if_neg (by omega)]

/-- No day after the first of a year is in an earlier year. -/
theorem year_le_of_day {year day : Int} (after : dayFromYear year ≤ day) : year ≤ yearFromDay day := by
  by_contra earlier
  have next := (yearFromDay_spec day).2
  have before : dayFromYear (yearFromDay day + 1) ≤ dayFromYear year := dayFromYear_mono (by omega)
  omega

theorem thursday_eq {day : Int} (late : dayFromYear 100 ≤ day) : thursday day = day - (day + 3) % 7 + 3 := by
  unfold thursday
  dsimp only
  rw [utcDay_late (year_le_of_day late), makeDay_month (monthOf_lt _ _)]
  ring

/-- The number of a week is that of its Thursday in the year, from 1 to 53. -/
theorem weekNumber_bounds {thursday : Int} :
    1 ≤ (thursday - dayFromYear (yearFromDay thursday)) / 7 + 1 ∧
      (thursday - dayFromYear (yearFromDay thursday)) / 7 + 1 ≤ 53 := by
  have year := yearFromDay_spec thursday
  have next := dayFromYear_succ (yearFromDay thursday)
  split at next <;> omega

/-- Two digits for every week. -/
theorem padStart_week : ∀ week < 54, (padStart 2 (toString (week : Nat))).toList.length = 2 ∧
    digits (padStart 2 (toString week)).toList = some week := by
  decide

theorem int_toString {n : Int} (positive : 0 ≤ n) : toString n = Nat.repr n.toNat := by
  obtain ⟨m, rfl⟩ := Int.eq_ofNat_of_zero_le positive
  rfl

theorem repr_inj {m n : Nat} (same : Nat.repr m = Nat.repr n) : m = n := by
  have texts := congrArg String.toList same
  rw [Nat.toList_repr, Nat.toList_repr] at texts
  have read := congrArg (Nat.ofDigitChars 10 · 0) texts
  simpa using read

/-- A key stands for one year and one week. -/
theorem key_inj {year year' week week' : Int} (ad : 0 ≤ year) (ad' : 0 ≤ year') (within : 1 ≤ week ∧ week ≤ 53)
    (within' : 1 ≤ week' ∧ week' ≤ 53)
    (same : toString year ++ "-W" ++ padStart 2 (toString week) = toString year' ++ "-W" ++ padStart 2 (toString week')) :
    year = year' ∧ week = week' := by
  obtain ⟨n, rfl⟩ := Int.eq_ofNat_of_zero_le (show 0 ≤ week by omega)
  obtain ⟨n', rfl⟩ := Int.eq_ofNat_of_zero_le (show 0 ≤ week' by omega)
  obtain ⟨two, read⟩ := padStart_week n (by omega)
  obtain ⟨two', read'⟩ := padStart_week n' (by omega)
  have texts := congrArg String.toList same
  rw [String.toList_append, String.toList_append, String.toList_append, String.toList_append] at texts
  obtain ⟨front, back⟩ := List.append_inj' texts (two.trans two'.symm)
  have years := String.toList_injective (List.append_inj' front rfl).1
  rw [int_toString ad, int_toString ad'] at years
  have numbers := repr_inj years
  have weeks : some n = some n' := by rw [← read, ← read']; exact congrArg digits back
  exact ⟨by omega, by simpa using weeks⟩

/-- What a key is made of, from the year 100 on. -/
theorem isoWeek_eq {ms : Int} (late : dayFromYear 101 ≤ ms / 86400000) :
    0 ≤ yearFromDay (7 * mondayWeek ms) ∧ isoWeek ms = toString (yearFromDay (7 * mondayWeek ms)) ++ "-W" ++
      padStart 2 (toString ((7 * mondayWeek ms - dayFromYear (yearFromDay (7 * mondayWeek ms))) / 7 + 1)) := by
  have year : dayFromYear 101 = dayFromYear 100 + 365 := dayFromYear_succ 100
  have same : ms / 86400000 - (ms / 86400000 + 3) % 7 + 3 = 7 * mondayWeek ms := by
    unfold mondayWeek
    omega
  have after : 100 ≤ yearFromDay (7 * mondayWeek ms) := year_le_of_day (by omega)
  have start : utcDay (yearFromDay (7 * mondayWeek ms)) 0 1 = dayFromYear (yearFromDay (7 * mondayWeek ms)) := by
    have january := @makeDay_month (yearFromDay (7 * mondayWeek ms)) 0 (by decide) 1
    rw [utcDay_late after]
    simpa [monthStart] using january
  refine ⟨by omega, ?_⟩
  unfold isoWeek
  rw [thursday_eq (by omega), same]
  dsimp only
  rw [start]

/-- Two dates have the same key exactly when they lie in the same week from Monday to Sunday. -/
theorem isoWeek_eq_iff {a b : Int} (late : dayFromYear 101 ≤ a / 86400000) (late' : dayFromYear 101 ≤ b / 86400000) :
    isoWeek a = isoWeek b ↔ mondayWeek a = mondayWeek b := by
  obtain ⟨ad, key⟩ := isoWeek_eq late
  obtain ⟨ad', key'⟩ := isoWeek_eq late'
  rw [key, key']
  refine ⟨fun same => ?_, fun same => by rw [same]⟩
  obtain ⟨years, weeks⟩ := key_inj ad ad' weekNumber_bounds weekNumber_bounds same
  rw [years] at weeks
  -- Both are Thursdays: in one year, with one number, they are less than a week apart.
  omega

/-! ### What is kept, by the calendar -/

/-- The time of a stamp. -/
def time (stamp : String) : Int := (parseStamp stamp).getD 0

def dayCount (ms : Int) : Int := ms / 86400000

/-- The newest of one of the last `n` distinct days, or weeks, that there are. -/
def NewestIn (period : Int → Int) (n : Nat) (stamps : List String) (stamp : String) : Prop :=
  stamp ∈ stamps ∧ (∀ other ∈ stamps, period (time other) = period (time stamp) → time other ≤ time stamp) ∧
    ((stamps.toFinset.image fun other => period (time other)).filter (period (time stamp) < ·)).card < n

theorem time_eq {stamp : String} {f : Fields} (read : stampRe stamp = some f) : time stamp = utc f := by
  rw [time, parseStamp, read]
  rfl

theorem ValidStamp.lt_iff {s t : String} (valid : ValidStamp s) (valid' : ValidStamp t) : s < t ↔ time s < time t := by
  obtain ⟨f, read, calendar⟩ := valid
  obtain ⟨g, read', calendar'⟩ := valid'
  rw [stamp_lt_iff read read', time_eq read, time_eq read', calendar.utc_lt_iff calendar']

theorem ValidStamp.le_iff {s t : String} (valid : ValidStamp s) (valid' : ValidStamp t) : s ≤ t ↔ time s ≤ time t := by
  rw [← not_lt, ← not_lt, valid'.lt_iff valid]

theorem ValidStamp.dayOf_eq_iff {s t : String} (valid : ValidStamp s) (valid' : ValidStamp t) :
    dayOf s = dayOf t ↔ dayCount (time s) = dayCount (time t) := by
  obtain ⟨f, read, calendar⟩ := valid
  obtain ⟨g, read', calendar'⟩ := valid'
  rw [Retention.dayOf_eq_iff read read', time_eq read, time_eq read', dayCount, dayCount, calendar.utc_div,
    calendar'.utc_div, calendar.dayNumber_inj calendar']

theorem ValidStamp.late {s : String} (valid : ValidStamp s) : dayFromYear 1000 ≤ time s / 86400000 := by
  obtain ⟨f, read, calendar⟩ := valid
  have starts : dayFromYear 1000 ≤ dayFromYear f.year := dayFromYear_mono (by have := calendar.year; omega)
  have month := (months_within (inLeapYear f.year) (f.month - 1) (by have := calendar.month; omega)).1
  have day := calendar.day
  rw [time_eq read, calendar.utc_div, calendar.dayNumber_eq]
  omega

theorem late_of_thousand {day : Int} (late : dayFromYear 1000 ≤ day) : dayFromYear 101 ≤ day :=
  le_trans (dayFromYear_mono (by decide)) late

theorem ValidStamp.weekOf_eq_iff {s t : String} (valid : ValidStamp s) (valid' : ValidStamp t) :
    weekOf s = weekOf t ↔ mondayWeek (time s) = mondayWeek (time t) :=
  isoWeek_eq_iff (late_of_thousand valid.late) (late_of_thousand valid'.late)

theorem newestOfLast_iff {stamps : List String} (valid : ∀ stamp ∈ stamps, ValidStamp stamp) (period : Int → Int) (n : Nat)
    (stamp : String) : NewestOfLast (fun s => period (time s)) n stamps.toFinset stamp ↔ NewestIn period n stamps stamp := by
  unfold NewestOfLast NewestIn
  rw [List.mem_toFinset]
  refine and_congr_right fun member => and_congr_left fun _ => ?_
  simp only [List.mem_toFinset]
  refine forall₂_congr fun other inside => imp_congr_right fun _ => ?_
  exact (valid other inside).le_iff (valid stamp member)

/-- `keep` keeps the newest of each of the last days and of each of the last weeks, and a key of `isoWeek` stands for one
week, whatever years it lies in. -/
theorem keep_calendar {stamps : List String} (valid : ∀ stamp ∈ stamps, ValidStamp stamp) (daily weekly : Nat) :
    (∀ stamp, stamp ∈ keep stamps daily weekly ↔
      NewestIn dayCount daily stamps stamp ∨ NewestIn mondayWeek weekly stamps stamp) ∧
    ∀ a b, dayFromYear 1000 ≤ dayCount a → dayFromYear 1000 ≤ dayCount b →
      (isoWeek a = isoWeek b ↔ mondayWeek a = mondayWeek b) := by
  refine ⟨fun stamp => ?_, fun a b late late' => isoWeek_eq_iff (late_of_thousand late) (late_of_thousand late')⟩
  have all : Retention.valid stamps = stamps.toFinset := by
    rw [Retention.valid, List.filter_eq_self.mpr]
    intro s member
    obtain ⟨f, read, -⟩ := valid s member
    rw [parseStamp, read]
    rfl
  have known {s : String} (inside : s ∈ stamps.toFinset) : ValidStamp s := valid s (List.mem_toFinset.mp inside)
  have later (s : String) (one : s ∈ stamps.toFinset) (t : String) (two : t ∈ stamps.toFinset) (le : s ≤ t) : time s ≤ time t :=
    ((known one).le_iff (known two)).mp le
  rw [mem_keep, Retained, all, ← newestOfLast_iff valid, ← newestOfLast_iff valid]
  refine or_congr (latest_iff_newestOfLast ?_ ?_) (latest_iff_newestOfLast ?_ ?_)
  · exact fun s one t two => (known one).dayOf_eq_iff (known two)
  · exact fun s one t two le => Int.ediv_le_ediv (by decide) (later s one t two le)
  · exact fun s one t two => (known one).weekOf_eq_iff (known two)
  · intro s one t two le
    have days := Int.ediv_le_ediv (show (0 : Int) < 86400000 by decide) (later s one t two le)
    unfold mondayWeek
    omega

instance (f : Fields) : Decidable (Calendar f) :=
  decidable_of_iff (1000 ≤ f.year ∧ (1 ≤ f.month ∧ f.month ≤ 12) ∧
    (1 ≤ f.day ∧ f.day ≤ daysIn (inLeapYear f.year) (f.month - 1)) ∧ f.hour < 24 ∧ f.minute < 60 ∧ f.second < 60)
    ⟨fun ⟨a, b, c, d, e, g⟩ => ⟨a, b, c, d, e, g⟩, fun ⟨a, b, c, d, e, g⟩ => ⟨a, b, c, d, e, g⟩⟩

instance (stamp : String) : Decidable (ValidStamp stamp) :=
  decidable_of_iff (∃ f ∈ stampRe stamp, Calendar f) (by simp [ValidStamp])

/-- The last days of 2020 are in its week 53, with the first of 2021. -/
theorem new_year_kept :
    (∀ stamp, stamp ∈ keep ["20201231-010000", "20210103-230000", "20210104-010000"] 1 2 ↔
      NewestIn dayCount 1 ["20201231-010000", "20210103-230000", "20210104-010000"] stamp ∨
        NewestIn mondayWeek 2 ["20201231-010000", "20210103-230000", "20210104-010000"] stamp) ∧
    ∀ a b, dayFromYear 1000 ≤ dayCount a → dayFromYear 1000 ≤ dayCount b →
      (isoWeek a = isoWeek b ↔ mondayWeek a = mondayWeek b) :=
  keep_calendar (by decide) 1 2

end OpenVibeHost.Retention
