import OpenVibeHost.DailySeries
import Mathlib.Algebra.Order.BigOperators.Group.List

/-! The demand feed, `server/inference-planner-feed.js`: the usage rows that the AI endpoint answers become the daily
series that the planner forecasts. The series is one run of days, and the planner takes it unless a day has more
requests than the planner counts. -/
namespace OpenVibeHost.DemandFeed
open Dates Doubles InferencePlanner
open Answers (bind_ok mapM_ok_iff exists_pair exists_ok)

/-! ### The feed -/

inductive Failure
  | demandFeed (message : String)
  | range (message : String)
  deriving DecidableEq, Repr

/-- `DATE_RE`, and the date that it takes apart. -/
def dayOf (value : Option Json) : Option String :=
  match value with
  | some (.str text) =>
    match dateFields text with
    | some (year, month, day) =>
      let ms := utc { year := year, month := month, day := day, hour := 0, minute := 0, second := 0 }
      if calendar (ms / dayMs) = ((year : Int), month, (day : Int)) then some text else none
    | none => none
  | _ => none

/-- `toISOString` throws where a time is not one of a `Date`. No year below 0 gets here. -/
def isoDay (ms : Int) : Except Failure String :=
  if ms.natAbs ≤ 8640000000000000 then .ok (isoDate ms) else .error (.range "Invalid time value")

/-- `Date.parse` of the first moment of a day. What `isoDay` cuts off of a year with six digits is read as a month. -/
def dayStart (day : String) : Option Int :=
  match dateFields day with
  | some (year, month, date) => some (makeDay year (month - 1) date * dayMs)
  | none =>
    match day.toList with
    | ['+', y₁, y₂, y₃, y₄, y₅, y₆, '-', m₁, m₂] => do
      return makeDay (← digits [y₁, y₂, y₃, y₄, y₅, y₆]) ((← digits [m₁, m₂]) - 1) 1 * dayMs
    | _ => none

/-- `Number(row.requests)`, where it is a safe integer from zero up; nothing is zero. -/
def requestsOf (row : Json) : Option Nat :=
  match row.field "requests" with
  | none => some 0
  | some value =>
    match (Json.number (some value)).map ofRat with
    | some (.finite v) => if v.den = 1 ∧ isSafe v.num ∧ 0 ≤ v.num then some v.num.toNat else none
    | _ => none

/-- The requests of each day so far. -/
abbrev Totals := String → Double

def addRow (totals : Totals) (row : Json) : Except Failure Totals :=
  match row with
  | .obj _ | .arr _ =>
    match dayOf (row.field "day") with
    | none => .error (.demandFeed "a usage feed row has no UTC day")
    | some day =>
      match requestsOf row with
      | none => .error (.demandFeed ("the usage feed's requests on " ++ day ++ " is not a non-negative integer"))
      | some requests => .ok (Function.update totals day (add (totals day) (ofInt requests)))
  | _ => .error (.demandFeed "a usage feed row is not an object")

structure Feed where
  days : Int
  fromDay : String
  toDay : String
  series : List (String × Double)

/-- A `Date.parse`d time that is used; of none `toISOString` throws. -/
def timeOf (ms : Option Int) : Except Failure Int :=
  match ms with
  | some ms => .ok ms
  | none => .error (.range "Invalid time value")

def seriesOf (body : Json) (days now : Nat) : Except Failure Feed := do
  let some (.arr rows) := body.field "series" | .error (.demandFeed "the usage feed did not return a series")
  let totals ← rows.foldlM addRow fun _ => zero
  let toDay ← (dayOf (body.field "to")).elim (isoDay now) .ok
  let some requestedFrom := dayOf (body.field "from") | .error (.demandFeed "the usage feed did not return its window")
  let first ← timeOf (dayStart requestedFrom)
  let last ← timeOf (dayStart toDay)
  let fromDay ← isoDay (max first (last - (days - 1) * dayMs))
  let start ← timeOf (dayStart fromDay)
  -- `Math.round` of the days between, both ends with them
  let span := (2 * (last - start) + dayMs) / (2 * dayMs) + 1
  if span < 14 then
    .error (.demandFeed ("the usage feed covers " ++ toString span ++ " day" ++ (if span = 1 then "" else "s") ++
      "; the planner needs at least 14"))
  else if 90 < span then .error (.demandFeed "the usage feed covers more than 90 days")
  else
    let series ← (List.range span.toNat).mapM fun (i : Nat) => do
      let date ← isoDay (start + i * dayMs)
      return (date, totals date)
    return { days := span, fromDay := fromDay, toDay := toDay, series := series }

/-- A number as a value of a document. An infinite one is beyond all doubles. -/
def jsonOf (value : Double) : Json :=
  match value with
  | .finite v => .num v
  | .infinite negative => .num (if negative then -2 ^ 1024 else 2 ^ 1024)
  | .nan => .null

/-- An entry of a series, as the planner is given it. -/
def entryOf (entry : String × Double) : Json := .obj [("date", .str entry.1), ("requests", jsonOf entry.2)]

/-! ### Days -/

theorem dayOf_iff {value : Option Json} {text : String} :
    dayOf value = some text ↔ value = some (.str text) ∧ ∃ d, Dated text d ∧ 100 ≤ d.year := by
  have read {text : String} : (∃ ms, parseDate text "" = .ok ms) ↔ ∃ d, Dated text d ∧ 100 ≤ d.year := by
    simp only [parseDate_iff]
    exact ⟨fun ⟨_, d, dated, late, _⟩ => ⟨d, dated, late⟩, fun ⟨d, dated, late⟩ => ⟨_, d, dated, late, rfl⟩⟩
  rw [← read]
  unfold dayOf
  split
  · rename_i written
    unfold parseDate
    cases fields : dateFields written with
    | none =>
      refine iff_of_false (fun absent => nomatch absent) fun ⟨same, ms, found⟩ => ?_
      obtain rfl : written = text := by simpa using same
      rw [fields] at found
      exact nomatch found
    | some date =>
      obtain ⟨year, month, day⟩ := date
      dsimp only
      split
      · rename_i real
        constructor
        · intro same
          obtain rfl := Option.some.inj same
          refine ⟨rfl, utc { year := year, month := month, day := day, hour := 0, minute := 0, second := 0 }, ?_⟩
          rw [fields]
          exact if_pos real
        · rintro ⟨same, -⟩
          exact congrArg some (by simpa using same)
      · rename_i unreal
        refine iff_of_false (fun absent => nomatch absent) fun ⟨same, ms, found⟩ => ?_
        obtain rfl : written = text := by simpa using same
        rw [fields] at found
        exact nomatch found.symm.trans (if_neg unreal)
  · rename_i other
    exact iff_of_false (fun absent => nomatch absent) fun both => (other _ both.1).elim

theorem dayStart_dated {text : String} {d : CalendarDate} (dated : Dated text d) :
    dayStart text = some (d.number * dayMs) := by
  unfold dayStart
  rw [dated.fields]
  dsimp only
  rw [CalendarDate.makeDay_number]

/-- The first ten characters of the text of a date. -/
theorem isoDate_eq {ms : Int} (late : dayFromYear 0 ≤ ms / dayMs) :
    ∃ d : CalendarDate, d.number = ms / dayMs ∧
      isoDate ms = String.ofList ((yearText d.year ++ ['-'] ++ pad 2 d.month ++ ['-'] ++ pad 2 d.day).take 10) := by
  obtain ⟨d, number, shown⟩ := calendar_spec late
  refine ⟨d, number, ?_⟩
  unfold isoDate
  rw [shown]
  rfl

theorem isoDate_text {ms : Int} {d : CalendarDate} (number : d.number = ms / dayMs) (early : d.year ≤ 9999) :
    isoDate ms = d.text := by
  have late := (d.year_le_iff 0).1 (Nat.zero_le _)
  obtain ⟨e, same, shown⟩ := @isoDate_eq ms (number ▸ late)
  obtain rfl := CalendarDate.number_inj.1 (same.trans number.symm)
  rw [shown, CalendarDate.text, List.take_of_length_le]
  simp only [yearText, if_pos early, List.length_append, length_pad, List.length_cons, List.length_nil]
  decide

/-- A year from 10000 on has a sign and six digits, and leaves no room for the day. -/
theorem isoDate_far {ms : Int} {d : CalendarDate} (number : d.number = ms / dayMs) (far : 9999 < d.year) :
    isoDate ms = String.ofList ('+' :: pad 6 d.year ++ '-' :: pad 2 d.month) := by
  have late := (d.year_le_iff 0).1 (Nat.zero_le _)
  obtain ⟨e, same, shown⟩ := @isoDate_eq ms (number ▸ late)
  obtain rfl := CalendarDate.number_inj.1 (same.trans number.symm)
  rw [shown, yearText, if_neg (not_le.2 far)]
  rfl

/-- A text with a sign is no date. -/
theorem far_unread (year month : Nat) : dateFields (String.ofList ('+' :: pad 6 year ++ '-' :: pad 2 month)) = none := by
  cases read : dateFields (String.ofList ('+' :: pad 6 year ++ '-' :: pad 2 month)) with
  | none => rfl
  | some date =>
    have shape := (dateFields_iff.1 read).2
    have first : '+' = digit (date.1 / 10 / 10 / 10) := (List.cons.inj (String.ofList_injective shape)).1
    exact absurd first.symm (digit_spec _).2.2

theorem far_start {year month : Nat} (six : year < 1000000) (two : month < 100) :
    dayStart (String.ofList ('+' :: pad 6 year ++ '-' :: pad 2 month)) = some (makeDay year (month - 1) 1 * dayMs) := by
  have years : digits (pad 6 year) = some year := by
    rw [digits_pad, Nat.mod_eq_of_lt (show year < 10 ^ 6 from six)]
  have months : digits (pad 2 month) = some month := by
    rw [digits_pad, Nat.mod_eq_of_lt (show month < 10 ^ 2 from two)]
  unfold dayStart
  rw [far_unread]
  dsimp only
  rw [String.toList_ofList]
  show (do return makeDay (← digits (pad 6 year)) ((← digits (pad 2 month)) - 1) 1 * dayMs : Option Int) = _
  rw [years, months]
  rfl

/-- The day that is cut off of a time after 1970, up to the year 10000 the day of the time. -/
theorem isoDay_spec {ms : Int} {text : String} (late : dayFromYear 0 ≤ ms / dayMs)
    (shown : isoDay ms = .ok text) : ∃ d : CalendarDate, d.number = ms / dayMs ∧
      if d.year ≤ 9999 then text = d.text
      else ∃ s, dayStart text = some s ∧ dayFromYear 10000 * dayMs ≤ s := by
  unfold isoDay at shown
  split at shown
  · rename_i valid
    obtain ⟨d, number, -⟩ := isoDate_eq late
    refine ⟨d, number, ?_⟩
    split
    · rename_i early
      rw [← isoDate_text number early, Except.ok.inj shown]
    · rename_i far
      have far := not_le.1 far
      have within : d.number ≤ 100000000 := by
        rw [number, dayMs]
        omega
      have since : 0 ≤ d.number := by
        have first : dayFromYear 10000 ≤ d.number := (d.year_le_iff 10000).1 far
        have epoch : 0 ≤ dayFromYear 10000 := by decide
        exact epoch.trans first
      have six : d.year < 1000000 := by
        obtain ⟨starts, -⟩ := d.number_in_year
        have near := dayFromYear_bounds d.year
        omega
      have months := d.months
      rw [← Except.ok.inj shown, isoDate_far number far]
      refine ⟨_, far_start six (show d.month < 100 by omega), ?_⟩
      obtain ⟨first, isFirst⟩ : ∃ first : CalendarDate, first.year = d.year ∧ first.month = d.month ∧ first.day = 1 :=
        ⟨{ d with day := 1, days := ⟨le_refl 1, CalendarDate.daysIn_pos _ _ (by omega)⟩ }, rfl, rfl, rfl⟩
      obtain ⟨year, month, day⟩ := isFirst
      have made := first.makeDay_number
      rw [year, month, day] at made
      rw [Nat.cast_one] at made
      rw [made]
      refine Int.mul_le_mul_of_nonneg_right ?_ (by decide)
      exact (first.year_le_iff 10000).1 (by omega)
  · exact nomatch shown

/-! ### Totals -/

/-- The requests that a row counts on a day. -/
def countOf (row : Json) (date : String) : Nat :=
  if dayOf (row.field "day") = some date then (requestsOf row).getD 0 else 0

def totalOf (rows : List Json) (date : String) : Nat := (rows.map fun row => countOf row date).sum

/-- Totals that are the counts of each day, as far as a number is exact. -/
def Counts (count : String → Nat) (totals : Totals) : Prop :=
  ∀ date, count date ≤ 2 ^ 53 → totals date = .finite (count date)

theorem ofInt_finite {n : Nat} (small : n ≤ 2 ^ 53) : ofInt n = .finite n := by
  have exact' := @ofRat_int n (by omega)
  exact_mod_cast exact'

theorem addRow_ok {totals totals' : Totals} {row : Json} (added : addRow totals row = .ok totals') :
    ∃ day requests, dayOf (row.field "day") = some day ∧ requestsOf row = some requests ∧
      totals' = Function.update totals day (add (totals day) (ofInt requests)) := by
  have read : (match dayOf (row.field "day") with
      | none => .error (.demandFeed "a usage feed row has no UTC day")
      | some day =>
        match requestsOf row with
        | none => .error (.demandFeed ("the usage feed's requests on " ++ day ++ " is not a non-negative integer"))
        | some requests => .ok (Function.update totals day (add (totals day) (ofInt requests))) : Except Failure Totals) =
      .ok totals' := by
    unfold addRow at added
    split at added
    · exact added
    · exact added
    · exact nomatch added
  cases isDay : dayOf (row.field "day") with
  | none =>
    rw [isDay] at read
    exact nomatch read
  | some day =>
    rw [isDay] at read
    cases isCount : requestsOf row with
    | none =>
      rw [isCount] at read
      exact nomatch read
    | some requests =>
      rw [isCount] at read
      exact ⟨day, requests, rfl, rfl, (Except.ok.inj read).symm⟩

theorem Counts.addRow {count : String → Nat} {totals totals' : Totals} {row : Json} (counts : Counts count totals)
    (added : addRow totals row = .ok totals') : Counts (fun date => count date + countOf row date) totals' := by
  obtain ⟨day, requests, isDay, isCount, rfl⟩ := addRow_ok added
  intro date small
  dsimp only at small ⊢
  unfold countOf at small ⊢
  rw [isDay, isCount] at small ⊢
  by_cases same : day = date
  · subst same
    rw [if_pos rfl, Option.getD_some] at small ⊢
    rw [Function.update_self, counts day (by omega), ofInt_finite (show requests ≤ 2 ^ 53 by omega)]
    have sum := ofInt_finite small
    rw [ofInt] at sum
    push_cast at sum ⊢
    exact sum
  · rw [if_neg (fun equal => same (Option.some.inj equal))] at small ⊢
    rw [Function.update_of_ne (Ne.symm same)]
    exact counts date small

theorem Counts.addRows {count : String → Nat} {totals totals' : Totals} {rows : List Json} (counts : Counts count totals)
    (added : rows.foldlM DemandFeed.addRow totals = .ok totals') :
    Counts (fun date => count date + totalOf rows date) totals' := by
  induction rows generalizing count totals with
  | nil =>
    obtain rfl := Except.ok.inj added
    exact counts
  | cons row rows ih =>
    rw [List.foldlM_cons, bind_ok] at added
    obtain ⟨next, first, later⟩ := added
    have sums := ih (counts.addRow first) later
    have assoc (date : String) : count date + totalOf (row :: rows) date = count date + countOf row date + totalOf rows date := by
      rw [totalOf, List.map_cons, List.sum_cons, ← totalOf, Nat.add_assoc]
    intro date small
    dsimp only at small ⊢
    rw [assoc] at small ⊢
    exact sums date small

/-- Each day's total is the sum of the rows of that day. -/
theorem addRows_total {rows : List Json} {totals : Totals} {date : String}
    (added : rows.foldlM addRow (fun _ => zero) = .ok totals) (small : totalOf rows date ≤ 2 ^ 53) :
    totals date = .finite (totalOf rows date) := by
  have none : Counts (fun _ => 0) fun _ => zero := fun _ _ => rfl
  have sums := none.addRows added date
  simp only [Nat.zero_add] at sums
  exact sums small

/-! ### Windows -/

/-- The day of the last date of a feed: the one that it names, or that of the clock. -/
def IsLast (body : Json) (now : Nat) (d : CalendarDate) : Prop :=
  d.year ≤ 9999 ∧ (dayOf (body.field "to") = some d.text ∨
    dayOf (body.field "to") = none ∧ d.number = (now : Int) / dayMs)

/-- The days of the window that is planned: from the first date of the feed on, and no more than are asked for. -/
def InWindow (body : Json) (days now : Nat) (d : CalendarDate) : Prop :=
  ∃ first last : CalendarDate, dayOf (body.field "from") = some first.text ∧ first.year ≤ 9999 ∧ IsLast body now last ∧
    first.number ≤ d.number ∧ d.number ≤ last.number ∧ last.number < d.number + days

/-- The days of a run, by their places. -/
theorem run_range (d : CalendarDate) (a n : Nat) :
    List.Forall₂ (fun (i : Nat) e => e.number = d.number + i - a ∧ e ∈ d.run n) (List.range' a n) (d.run n) := by
  induction n generalizing a d with
  | zero => exact .nil
  | succ n ih =>
    refine .cons ⟨by omega, List.mem_cons_self⟩ ((ih d.next (a + 1)).imp fun i e ⟨number, among⟩ => ?_)
    refine ⟨?_, List.mem_cons_of_mem _ among⟩
    rw [number, d.number_next]
    push_cast
    ring

/-- What a returned feed was built of. -/
structure Built (body : Json) (days now : Nat) (feed : Feed) (rows : List Json) (totals : Totals) (first : CalendarDate)
    (last start : Int) (span : Nat) : Prop where
  series : body.field "series" = some (.arr rows)
  added : rows.foldlM addRow (fun _ => zero) = .ok totals
  ending : feed.toDay = (dayOf (body.field "to")).getD (isoDate now)
  opens : Dated first.text first ∧ 100 ≤ first.year ∧ dayOf (body.field "from") = some first.text
  closes : dayStart feed.toDay = some last
  starts : ∃ text, isoDay (max (first.number * dayMs) (last - (days - 1) * dayMs)) = .ok text ∧
    dayStart text = some start
  spans : (span : Int) = (2 * (last - start) + dayMs) / (2 * dayMs) + 1
  within : 14 ≤ span ∧ span ≤ 90
  entries : List.Forall₂ (fun (i : Nat) entry => isoDay (start + i * dayMs) = .ok entry.1 ∧
    entry.2 = totals entry.1) (List.range span) feed.series

theorem timeOf_ok {time : Option Int} {ms : Int} (ok : timeOf time = .ok ms) : time = some ms := by
  cases time with
  | none => exact nomatch ok
  | some other => exact congrArg some (Except.ok.inj ok)

theorem seriesOf_ok {body : Json} {days now : Nat} {feed : Feed} (ok : seriesOf body days now = .ok feed) :
    ∃ rows totals first last start span, Built body days now feed rows totals first last start span := by
  unfold seriesOf at ok
  split at ok
  case h_2 => exact nomatch ok
  rename_i rows series
  obtain ⟨totals, added, ok⟩ := bind_ok.1 ok
  obtain ⟨toDay, isTo, ok⟩ := bind_ok.1 ok
  split at ok
  case h_2 => exact nomatch ok
  rename_i requestedFrom isFrom
  simp only [bind_ok] at ok
  obtain ⟨firstMs, isFirst, last, isLast, fromDay, isFromDay, start, isStart, ok⟩ := ok
  obtain ⟨-, first, dated, late⟩ := dayOf_iff.1 isFrom
  obtain rfl : requestedFrom = first.text := dated.2
  obtain rfl : firstMs = first.number * dayMs :=
    Option.some.inj ((timeOf_ok isFirst).symm.trans (dayStart_dated dated))
  split at ok
  · exact nomatch ok
  rename_i enough
  split at ok
  · exact nomatch ok
  rename_i few
  obtain ⟨entries, read, done⟩ := bind_ok.1 ok
  obtain rfl := Except.ok.inj done
  obtain ⟨span, isSpan⟩ := Int.eq_ofNat_of_zero_le ((show (0 : Int) ≤ 14 by decide).trans (not_lt.1 enough))
  rw [isSpan] at enough few read
  refine ⟨rows, totals, first, last, start, span, series, added, ?_, ⟨dated, late, isFrom⟩, timeOf_ok isLast,
    ⟨fromDay, isFromDay, timeOf_ok isStart⟩, isSpan.symm, by omega, ?_⟩
  · dsimp only
    cases named : dayOf (body.field "to") with
    | some day =>
      rw [named] at isTo
      exact (Except.ok.inj isTo).symm
    | none =>
      rw [named] at isTo
      have shown : isoDay now = .ok toDay := isTo
      unfold isoDay at shown
      split at shown
      · exact (Except.ok.inj shown).symm
      · exact nomatch shown
  · refine (mapM_ok_iff.1 read).imp fun i entry built => ?_
    obtain ⟨date, isDate, same⟩ := bind_ok.1 built
    obtain rfl := Except.ok.inj same
    exact ⟨isDate, rfl⟩

theorem year_lt_of_le {d e : CalendarDate} {year : Nat} (before : d.number ≤ e.number) (early : e.year < year) :
    d.year < year := by
  by_contra late
  have starts := (d.year_le_iff year).1 (not_lt.1 late)
  exact absurd ((e.year_le_iff year).2 (starts.trans before)) (not_le.2 early)

section
variable {body : Json} {days now : Nat} {feed : Feed} {rows : List Json} {totals : Totals} {first l : CalendarDate}
  {last start : Int} {span : Nat}

/-- The window begins on its first day, or so many days before its last. -/
theorem Built.start_eq (built : Built body days now feed rows totals first last start span) (dated : Dated feed.toDay l) :
    ∃ s : CalendarDate, s.number = max first.number (l.number - (days - 1)) ∧ start = s.number * dayMs ∧
      s.number + span = l.number + 1 := by
  obtain rfl : last = l.number * dayMs := Option.some.inj (built.closes.symm.trans (dayStart_dated dated))
  obtain ⟨text, shown, started⟩ := built.starts
  have scaled : max (first.number * dayMs) (l.number * dayMs - (days - 1) * dayMs) =
      max first.number (l.number - (days - 1)) * dayMs := by
    unfold dayMs
    omega
  rw [scaled] at shown
  have epoch : dayFromYear 0 ≤ first.number := (first.year_le_iff 0).1 (Nat.zero_le _)
  obtain ⟨s, number, spec⟩ := isoDay_spec (by rw [number_div]; omega) shown
  rw [number_div] at number
  have spans := built.spans
  have within := built.within
  refine ⟨s, number, ?_⟩
  split at spec
  · rename_i early
    obtain rfl : start = s.number * dayMs :=
      Option.some.inj (started.symm.trans (dayStart_dated ⟨early, spec⟩))
    refine ⟨rfl, ?_⟩
    unfold dayMs at spans
    omega
  · -- A window that begins in the year 10000 ends before it begins.
    obtain ⟨start', again, far⟩ := spec
    obtain rfl := Option.some.inj (started.symm.trans again)
    have before : l.number < dayFromYear 10000 := by
      by_contra late
      have year := (l.year_le_iff 10000).2 (not_lt.1 late)
      have early := dated.1
      omega
    unfold dayMs at spans far
    omega

/-- The entries are those of a run of days, the last day of the feed its last. -/
theorem Built.entries_run (built : Built body days now feed rows totals first last start span) (dated : Dated feed.toDay l) :
    ∃ s : CalendarDate, s.number = max first.number (l.number - (days - 1)) ∧ s.number + span = l.number + 1 ∧
      List.Forall₂ (fun entry d => entry.1 = d.text ∧ entry.2 = totals d.text ∧ 100 ≤ d.year ∧ d.year ≤ 9999)
        feed.series (s.run span) := by
  obtain ⟨s, number, rfl, length⟩ := built.start_eq dated
  have pair (i : Nat) (entry : String × Double) (d : CalendarDate)
      (shown : isoDay (s.number * dayMs + i * dayMs) = .ok entry.1 ∧ entry.2 = totals entry.1)
      (place : d.number = s.number + i - (0 : Nat) ∧ d ∈ s.run span) :
      ∃ e, (entry.1 = e.text ∧ entry.2 = totals e.text ∧ 100 ≤ e.year ∧ e.year ≤ 9999) ∧ d = e := by
    obtain ⟨⟨isDate, isTotal⟩, isNumber, among⟩ := shown, place
    have inside := CalendarDate.mem_run.1 among
    have early : d.year ≤ 9999 := Nat.le_of_lt_succ (year_lt_of_le (e := l) (by omega) (Nat.lt_succ_of_le dated.1))
    have late : 100 ≤ d.year := by
      refine (d.year_le_iff 100).2 ?_
      have opens := (first.year_le_iff 100).1 built.opens.2.1
      omega
    have day : d.number = (s.number * dayMs + i * dayMs) / dayMs := by
      rw [← Int.add_mul, number_div]
      omega
    have text : entry.1 = d.text := by
      unfold isoDay at isDate
      split at isDate
      · rw [← isoDate_text day early, Except.ok.inj isDate]
      · exact nomatch isDate
    exact ⟨d, ⟨text, text ▸ isTotal, late, early⟩, rfl⟩
  have entries := built.entries
  rw [List.range_eq_range'] at entries
  obtain ⟨ds, related, same⟩ := exists_thirds pair entries (run_range s 0 span)
  rw [List.forall₂_eq_eq_eq] at same
  subst same
  exact ⟨s, number, length, related⟩

end

/-! ### What the planner takes -/

/-- The rows of a feed; a feed without a series has none. -/
def rowsOf (body : Json) : List Json :=
  match body.field "series" with
  | some (.arr rows) => rows
  | _ => []

/-- A feed of consecutive days up to its last one, each with the sum of its rows, that the planner takes. -/
structure Agrees (body : Json) (days now : Nat) (feed : Feed) : Prop where
  consecutive : ∃ start : CalendarDate, feed.series.map Prod.fst = (start.run feed.series.length).map CalendarDate.text
  last : (feed.series.map Prod.fst).getLast? = some ((dayOf (body.field "to")).getD (isoDate now))
  length : 14 ≤ feed.series.length ∧ feed.series.length ≤ min days 90
  sums : ∀ entry ∈ feed.series, entry.2 = .finite (totalOf (rowsOf body) entry.1)
  accepted : ∀ f : Json, (∃ fields, f = .obj fields) → f.field "series" = some (.arr (feed.series.map entryOf)) →
    Optional (f.field "horizon_days") 1 365 → Optional (f.field "window_days") 7 feed.series.length →
    ∃ s, validateForecast (some f) = .ok s

/-- The last date has a year of four digits, and no day of the window has more requests than the planner counts. -/
structure Plannable (body : Json) (days now : Nat) : Prop where
  written : dayOf (body.field "to") ≠ none ∨ now < 253402300800000
  few : ∀ d, InWindow body days now d → totalOf (rowsOf body) d.text ≤ 1000000000

section
variable {body : Json} {days now : Nat} {feed : Feed}

/-- The date of the clock. -/
theorem exists_clock (now : Nat) :
    ∃ d : CalendarDate, d.number = (now : Int) / dayMs ∧ (d.year ≤ 9999 ↔ now < 253402300800000) := by
  have epoch : dayFromYear 0 ≤ (now : Int) / dayMs := by
    have first : dayFromYear 0 ≤ 0 := by decide
    unfold dayMs
    omega
  obtain ⟨d, number, -⟩ := isoDate_eq epoch
  have starts := d.year_le_iff 10000
  have millennium : dayFromYear (10000 : Nat) = 2932897 := by decide
  rw [millennium, number, dayMs] at starts
  exact ⟨d, number, by omega⟩

/-- The last date, and that it is written with a year of four digits. -/
theorem exists_last (written : dayOf (body.field "to") ≠ none ∨ now < 253402300800000) :
    ∃ l, IsLast body now l := by
  cases named : dayOf (body.field "to") with
  | some day =>
    obtain ⟨-, l, dated, -⟩ := dayOf_iff.1 named
    exact ⟨l, dated.1, .inl (named.trans (congrArg some dated.2))⟩
  | none =>
    obtain ⟨l, number, early⟩ := exists_clock now
    exact ⟨l, early.2 (written.resolve_left (not_not.2 named)), .inr ⟨named, number⟩⟩

theorem IsLast.dated {l : CalendarDate} (isLast : IsLast body now l) :
    Dated ((dayOf (body.field "to")).getD (isoDate now)) l := by
  obtain ⟨early, named | ⟨none, number⟩⟩ := isLast
  · rw [named]
    exact ⟨early, rfl⟩
  · rw [none]
    exact ⟨early, isoDate_text number early⟩

/-- The date of a clock that is far ahead is none of the planner's. -/
theorem clock_unread (far : 253402300800000 ≤ now) (l : CalendarDate) : ¬Dated (isoDate now) l := by
  intro dated
  obtain ⟨d, number, early⟩ := exists_clock now
  have read := dated.fields
  rw [isoDate_far number (by omega), far_unread] at read
  exact nomatch read

/-- A feed that is returned for a window with a last date of four digits. -/
theorem seriesOf_run {l : CalendarDate} (ok : seriesOf body days now = .ok feed) (isLast : IsLast body now l) :
    ∃ (first s : CalendarDate) (totals : Totals), dayOf (body.field "from") = some first.text ∧ first.year ≤ 9999 ∧
      (rowsOf body).foldlM addRow (fun _ => zero) = .ok totals ∧
      s.number = max first.number (l.number - (days - 1)) ∧ s.number + feed.series.length = l.number + 1 ∧
      14 ≤ feed.series.length ∧ feed.series.length ≤ 90 ∧
      List.Forall₂ (fun entry d => entry.1 = d.text ∧ entry.2 = totals d.text ∧ 100 ≤ d.year ∧ d.year ≤ 9999)
        feed.series (s.run feed.series.length) := by
  obtain ⟨rows, totals, first, last, start, span, built⟩ := seriesOf_ok ok
  obtain ⟨s, number, length, entries⟩ := built.entries_run (built.ending ▸ isLast.dated)
  obtain rfl : feed.series.length = span := entries.length_eq.trans (s.length_run span)
  have added := built.added
  rw [show rows = rowsOf body by rw [rowsOf, built.series]] at added
  exact ⟨first, s, totals, built.opens.2.2, built.opens.1.1, added, number, length, built.within.1, built.within.2, entries⟩

/-- A count that is read as no more than a bound is no more than it. -/
theorem le_of_writes {n m : Nat} {bound : Nat} (few : bound < 2 ^ 53) (written : Writes (some (.num n)) m) (within : m ≤ bound) :
    n ≤ bound := by
  obtain ⟨v, same, read⟩ := written
  obtain rfl := Option.some.inj same
  by_contra more
  have order := ofRat_atMost (show ((bound + 1 : Nat) : Rat) ≤ (n : Rat) by exact_mod_cast not_le.1 more)
  have least := @ofInt_finite (bound + 1) (by omega)
  rw [ofInt, Int.cast_natCast] at least
  rw [least] at order
  unfold integerOf at read
  dsimp only at read
  split at read
  · rename_i value isValue
    split at read
    · rename_i whole
      obtain isCount := Option.some.inj read
      rw [isValue, finite_atMost] at order
      have isInt : value = m := by
        rw [← Rat.coe_int_num_of_den_eq_one whole.1, isCount, Int.cast_natCast]
      rw [isInt] at order
      have above : bound + 1 ≤ m := by exact_mod_cast order
      omega
    · cases read
  · cases read

/-- An entry that the planner takes has a date, and a count that is not too large. -/
theorem entry_accepted {f : Json} {s : Series} (series : f.field "series" = some (.arr (feed.series.map entryOf)))
    (read : validateForecast (some f) = .ok s) {entry : String × Double} (among : entry ∈ feed.series) :
    (∃ d, Dated entry.1 d) ∧ ∀ total : Nat, entry.2 = .finite total → total ≤ 1000000000 := by
  obtain ⟨_, rows, points, same, accepted⟩ := validateForecast_iff.1 read
  obtain rfl := Option.some.inj same
  obtain rfl : feed.series.map entryOf = rows := by simpa using series.symm.trans accepted.series
  obtain ⟨p, -, date, d, requests, row, dated, -, -⟩ := exists_pair accepted.read.flip (List.mem_map_of_mem among)
  have isDate : some (Json.str entry.1) = some (Json.str date) := row.dated
  obtain rfl : entry.1 = date := by simpa using isDate
  refine ⟨⟨d, dated⟩, fun total isTotal => ?_⟩
  have counted : Writes (some (jsonOf entry.2)) requests := row.counted
  rw [isTotal] at counted
  exact le_of_writes (by decide) counted row.within

/-- Entries of a run of days that are few enough are daily rows of a document. -/
theorem daily_entries {f : Json} (object : ∃ fields, f = .obj fields)
    (series : f.field "series" = some (.arr (feed.series.map entryOf))) (horizon : Optional (f.field "horizon_days") 1 365)
    (window : Optional (f.field "window_days") 7 feed.series.length)
    (few : ∀ entry ∈ feed.series, ∃ total : Nat, entry.2 = .finite total ∧ total ≤ 1000000000) :
    Daily f (feed.series.map entryOf) (feed.series.map Prod.fst) := by
  refine ⟨object, series, ?_, horizon, (List.length_map entryOf) ▸ window⟩
  rw [List.forall₂_map_left_iff, List.forall₂_map_right_iff, List.forall₂_same]
  intro entry among
  obtain ⟨total, isTotal, within⟩ := few entry among
  refine ⟨total, ⟨_, rfl⟩, rfl, ?_, within⟩
  have counted : Writes (some (.num (total : Rat))) total := writes_num (within.trans (by decide))
  show Writes (some (jsonOf entry.2)) total
  rw [isTotal]
  exact counted

theorem Plannable.agrees (plannable : Plannable body days now) (ok : seriesOf body days now = .ok feed) :
    Agrees body days now feed := by
  obtain ⟨l, isLast⟩ := exists_last plannable.written
  obtain ⟨first, s, totals, opens, early, added, number, length, enough, most, entries⟩ := seriesOf_run ok isLast
  have dates : feed.series.map Prod.fst = (s.run feed.series.length).map CalendarDate.text := by
    have same : List.Forall₂ Eq (feed.series.map Prod.fst) ((s.run feed.series.length).map CalendarDate.text) := by
      rw [List.forall₂_map_left_iff, List.forall₂_map_right_iff]
      exact entries.imp fun _ _ related => related.1
    rwa [List.forall₂_eq_eq_eq] at same
  -- A day of the run is one of the window.
  have few (d : CalendarDate) (among : d ∈ s.run feed.series.length) : totalOf (rowsOf body) d.text ≤ 1000000000 := by
    have inside := CalendarDate.mem_run.1 among
    exact plannable.few d ⟨first, l, opens, early, isLast, by omega, by omega, by omega⟩
  have sums : ∀ entry ∈ feed.series, entry.2 = .finite (totalOf (rowsOf body) entry.1) ∧
      totalOf (rowsOf body) entry.1 ≤ 1000000000 := by
    intro entry among
    obtain ⟨d, inside, text, isTotal, -⟩ := exists_pair entries.flip among
    have within := few d inside
    rw [text, isTotal]
    exact ⟨addRows_total added (within.trans (by decide)), within⟩
  refine ⟨⟨s, dates⟩, ?_, ⟨enough, by omega⟩, fun entry among => (sums entry among).1, fun f object series horizon window => ?_⟩
  · obtain ⟨n, isLength⟩ : ∃ n, feed.series.length = n + 1 := ⟨feed.series.length - 1, by omega⟩
    rw [isLength] at dates length
    obtain ⟨e, final, shape⟩ := s.run_succ n
    have same : e = l := CalendarDate.number_inj.1 (by omega)
    rw [dates, shape, same, List.map_append, List.map_cons, List.map_nil, List.getLast?_concat, isLast.dated.2]
  · have daily : Daily f (feed.series.map entryOf) (feed.series.map Prod.fst) :=
      daily_entries object series horizon window fun entry among => ⟨_, sums entry among⟩
    have dated : List.Forall₂ Dated (feed.series.map Prod.fst) (s.run feed.series.length) := by
      rw [List.forall₂_map_left_iff]
      exact entries.imp fun _ _ related => ⟨related.2.2.2, related.1⟩
    refine daily.accepted_iff.2 ⟨⟨by rwa [List.length_map], _, dated, s, by rw [CalendarDate.length_run]⟩, ?_⟩
    intro date among d isDate
    obtain ⟨entry, inside, rfl⟩ := List.mem_map.1 among
    obtain ⟨e, -, text, -, late, written⟩ := exists_pair entries.flip inside
    rwa [isDate.unique ⟨written, text⟩]

theorem Agrees.plannable (agrees : Agrees body days now feed) (ok : seriesOf body days now = .ok feed) :
    Plannable body days now := by
  obtain ⟨s, read⟩ := agrees.accepted (.obj [("series", .arr (feed.series.map entryOf))]) ⟨_, rfl⟩ rfl (.inl rfl) (.inl rfl)
  have taken {entry : String × Double} (among : entry ∈ feed.series) := entry_accepted rfl read among
  constructor
  · by_contra neither
    obtain ⟨unnamed, far⟩ := not_or.1 neither
    have none := not_not.1 unnamed
    have final := List.mem_of_getLast? agrees.last
    obtain ⟨entry, among, text⟩ := List.mem_map.1 final
    obtain ⟨d, dated⟩ := (taken among).1
    rw [text, none] at dated
    exact clock_unread (not_lt.1 far) d dated
  · rintro d ⟨first, l, opens, early, isLast, after, before, near⟩
    obtain ⟨first', s, totals, opens', early', -, number, length, -, -, entries⟩ := seriesOf_run ok isLast
    have same : first.text = first'.text := Option.some.inj (opens.symm.trans opens')
    obtain rfl : first = first' := Dated.unique ⟨early, rfl⟩ ⟨early', same⟩
    obtain ⟨entry, among, text, -⟩ := exists_pair entries (CalendarDate.mem_run.2 (show s.number ≤ d.number ∧ _ by omega))
    have sum := agrees.sums entry among
    rw [text] at sum
    exact (taken among).2 _ sum

/-- A returned feed is what the planner takes where its last date has a year of four digits and no day of its window more
than a thousand million requests. -/
theorem seriesOf_agrees_iff (ok : seriesOf body days now = .ok feed) : Agrees body days now feed ↔ Plannable body days now :=
  ⟨fun agrees => agrees.plannable ok, fun plannable => plannable.agrees ok⟩

end

/-! ### Two weeks -/

theorem totalOf_le (rows : List Json) (date : String) :
    totalOf rows date ≤ (rows.map fun row => (requestsOf row).getD 0).sum := by
  refine List.sum_le_sum fun row _ => ?_
  unfold countOf
  split
  · exact le_refl _
  · exact Nat.zero_le _

def usage (day : String) (requests : Nat) : Json := .obj [("day", .str day), ("requests", .num requests)]

/-- Two weeks from the fifth of October 2026. -/
def usageFeed (rows : List Json) : Json := .obj [("from", .str "2026-10-05"), ("to", .str "2026-10-18"), ("series", .arr rows)]

def quiet : Json := usageFeed [usage "2026-10-06" 3, usage "2026-10-09" 5, usage "2026-10-06" 4]

theorem quiet_agrees : ∃ feed, seriesOf quiet 28 0 = .ok feed ∧ Agrees quiet 28 0 feed := by
  obtain ⟨feed, ok⟩ := exists_ok (show (seriesOf quiet 28 0).isOk = true by decide +kernel)
  refine ⟨feed, ok, (seriesOf_agrees_iff ok).2 ⟨.inr (by decide), fun d _ => ?_⟩⟩
  exact (totalOf_le (rowsOf quiet) d.text).trans (by decide +kernel)

/-- A day with two thousand million requests. -/
def busy : Json := usageFeed [usage "2026-10-06" 2000000000]

/-- Its feed is returned, and is nothing that the planner takes. -/
theorem busy_refused : ¬∀ body days now feed, seriesOf body days now = .ok feed → Agrees body days now feed := by
  intro always
  obtain ⟨feed, ok⟩ := exists_ok (show (seriesOf busy 28 0).isOk = true by decide +kernel)
  have few := ((always busy 28 0 feed ok).plannable ok).few
    { year := 2026, month := 10, day := 6, months := by decide, days := by decide }
    ⟨october, { year := 2026, month := 10, day := 18, months := by decide, days := by decide }, by decide, by decide,
      ⟨by decide, .inl (by decide)⟩, by decide, by decide, by decide⟩
  exact absurd few (by decide +kernel)

end OpenVibeHost.DemandFeed
