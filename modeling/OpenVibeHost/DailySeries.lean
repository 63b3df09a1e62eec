import OpenVibeHost.Answers
import OpenVibeHost.CalendarDates
import OpenVibeHost.DoubleOrder
import OpenVibeHost.InferencePlanner

/-! The daily series of a planning document. A series is accepted where its dates are one run of days of the calendar
and its years have three digits at least; the order of its rows makes no difference. -/
namespace OpenVibeHost.InferencePlanner
open Dates Doubles
open Answers (bind_ok mapM_ok_iff exists_pair)

/-! ### Dates -/

theorem dateFields_iff {value : String} {year month day : Nat} : dateFields value = some (year, month, day) ↔
    (year < 10000 ∧ month < 100 ∧ day < 100) ∧
      value = String.ofList (pad 4 year ++ ['-'] ++ pad 2 month ++ ['-'] ++ pad 2 day) := by
  constructor
  · intro read
    unfold dateFields at read
    split at read
    · rename_i y₁ y₂ y₃ y₄ m₁ m₂ d₁ d₂ shape
      simp only [Option.bind_eq_bind, Option.bind_eq_some_iff] at read
      obtain ⟨y, years, m, months, d, days, same⟩ := read
      obtain ⟨rfl, rfl, rfl⟩ : y = year ∧ m = month ∧ d = day := by simpa using Option.some.inj same
      obtain ⟨yearBound, yearShape⟩ := digits_iff.1 years
      obtain ⟨monthBound, monthShape⟩ := digits_iff.1 months
      obtain ⟨dayBound, dayShape⟩ := digits_iff.1 days
      refine ⟨⟨by simpa using yearBound, by simpa using monthBound, by simpa using dayBound⟩, ?_⟩
      have whole : value.toList = pad 4 y ++ ['-'] ++ pad 2 m ++ ['-'] ++ pad 2 d := by
        simp only [List.length_cons, List.length_nil, Nat.zero_add, Nat.reduceAdd] at yearShape monthShape dayShape
        rw [shape, ← yearShape, ← monthShape, ← dayShape]
        rfl
      rw [← whole, String.ofList_toList]
    · exact nomatch read
  · rintro ⟨⟨years, months, days⟩, rfl⟩
    have read {width n : Nat} (small : n < 10 ^ width) : digits (pad width n) = some n := by
      rw [digits_pad, Nat.mod_eq_of_lt small]
    unfold dateFields
    rw [String.toList_ofList]
    show (do return (← digits (pad 4 year), ← digits (pad 2 month), ← digits (pad 2 day)) : Option (Nat × Nat × Nat)) = _
    rw [read years, read months, read days]
    rfl

/-- A day since 1970 is the number of the date that the calendar gives for it. -/
theorem calendar_spec {day : Int} (late : dayFromYear 0 ≤ day) :
    ∃ d : CalendarDate, d.number = day ∧ calendar day = ((d.year : Int), d.month, (d.day : Int)) := by
  obtain ⟨d, number, year, month, date⟩ := CalendarDate.exists_number late
  refine ⟨d, number, ?_⟩
  unfold calendar
  dsimp only
  rw [year, month, date]

theorem calendar_number (d : CalendarDate) : calendar d.number = ((d.year : Int), d.month, (d.day : Int)) := by
  have late : dayFromYear 0 ≤ d.number := (d.year_le_iff 0).1 (Nat.zero_le _)
  obtain ⟨e, same, shown⟩ := calendar_spec late
  rw [shown, CalendarDate.number_inj.1 same]

theorem utc_date (year month day : Nat) :
    utc { year := year, month := month, day := day, hour := 0, minute := 0, second := 0 } =
      makeDay (if year ≤ 99 then 1900 + year else year : Nat) (month - 1) day * dayMs := by
  unfold utc dayMs
  dsimp only
  split <;> push_cast <;> ring

theorem number_div (n : Int) : n * dayMs / dayMs = n := Int.mul_ediv_cancel n (by decide)

/-- A text that is the date of a day. -/
def Dated (text : String) (d : CalendarDate) : Prop := d.year ≤ 9999 ∧ text = d.text

theorem Dated.fields {text : String} {d : CalendarDate} (dated : Dated text d) :
    dateFields text = some (d.year, d.month, d.day) := by
  have months := d.months
  have days := d.days
  have most : ∀ leap : Bool, ∀ month < 12, daysIn leap month < 100 := by decide
  have day := most (inLeapYear d.year) (d.month - 1) (by omega)
  refine dateFields_iff.2 ⟨⟨by have := dated.1; omega, by omega, by omega⟩, ?_⟩
  rw [dated.2, CalendarDate.text, yearText, if_pos dated.1]

theorem Dated.unique {text : String} {d e : CalendarDate} (first : Dated text d) (second : Dated text e) : d = e := by
  have same := first.fields.symm.trans second.fields
  simp only [Option.some.injEq, Prod.mk.injEq] at same
  exact CalendarDate.ext same.1 same.2.1 same.2.2

/-- A date of the calendar is read where its year has three digits at least: `Date.UTC` takes a year below 100 for one
of the twentieth century. -/
theorem parseDate_iff {text place : String} {ms : Int} :
    parseDate text place = .ok ms ↔ ∃ d, Dated text d ∧ 100 ≤ d.year ∧ ms = d.number * dayMs := by
  constructor
  · intro read
    unfold parseDate at read
    split at read
    · exact nomatch read
    rename_i year month day fields
    obtain ⟨⟨years, months, days⟩, shape⟩ := dateFields_iff.1 fields
    obtain ⟨era, isEra⟩ : ∃ era : Nat, era = if year ≤ 99 then 1900 + year else year := ⟨_, rfl⟩
    dsimp only at read
    rw [utc_date, ← isEra, number_div] at read
    by_cases shown : calendar (makeDay era (month - 1) day) = ((year : Int), month, (day : Int))
    · rw [if_pos shown] at read
      obtain rfl := Except.ok.inj read
      have after := makeDay_late era month day
      have hundred : dayFromYear 0 + 1 ≤ dayFromYear ((era : Int) - 1) := by
        have first : dayFromYear 0 + 1 ≤ dayFromYear 99 := by decide
        refine first.trans (dayFromYear_mono ?_)
        split at isEra <;> omega
      obtain ⟨d, number, same⟩ := calendar_spec (show dayFromYear 0 ≤ makeDay era (month - 1) day by omega)
      rw [shown] at same
      simp only [Prod.mk.injEq, Nat.cast_inj] at same
      obtain ⟨rfl, rfl, rfl⟩ := same
      have late : 100 ≤ d.year := by
        by_contra early
        rw [if_pos (by omega)] at isEra
        have far : dayFromYear 100 + 1 ≤ dayFromYear ((era : Int) - 1) := by
          have first : dayFromYear 100 + 1 ≤ dayFromYear 1899 := by decide
          exact first.trans (dayFromYear_mono (by omega))
        exact early ((d.year_le_iff 100).2 (by rw [number]; push_cast; omega))
      refine ⟨d, ⟨by omega, ?_⟩, late, by rw [number]⟩
      rw [shape, CalendarDate.text, yearText, if_pos (by omega)]
    · rw [if_neg shown] at read
      exact nomatch read
  · rintro ⟨d, dated, late, rfl⟩
    have made : utc { year := d.year, month := d.month, day := d.day, hour := 0, minute := 0, second := 0 } =
        d.number * dayMs := by
      rw [utc_date, if_neg (by omega), CalendarDate.makeDay_number]
    unfold parseDate
    rw [dated.fields]
    dsimp only
    rw [made, number_div, if_pos (calendar_number d)]
    rfl

/-! ### Fields -/

theorem given_eq_some {value : Option Json} {v : Json} : given value = some v ↔ value = some v ∧ v ≠ .null := by
  unfold given
  split
  · exact ⟨fun absent => (nomatch absent), fun ⟨same, other⟩ => absurd (Option.some.inj same).symm other⟩
  · rename_i other
    exact ⟨fun same => ⟨same, fun null => other (null ▸ same)⟩, fun both => both.1⟩

theorem record_iff {value : Option Json} {place : String} {f : Json} :
    record value place = .ok f ↔ value = some f ∧ ∃ fields, f = .obj fields := by
  unfold record
  split
  · exact ⟨fun refused => (nomatch refused), fun ⟨absent, _⟩ => (nomatch absent)⟩
  · rename_i fields
    refine ⟨fun same => ?_, fun ⟨same, _⟩ => congrArg Except.ok (Option.some.inj same)⟩
    obtain rfl := Except.ok.inj same
    exact ⟨rfl, fields, rfl⟩
  · rename_i other
    refine ⟨fun refused => (nomatch refused), fun ⟨same, fields, shape⟩ => ?_⟩
    exact (other fields ((Option.some.inj same).trans shape)).elim

theorem list_iff {value : Option Json} {place : String} {min : Nat} {items : List Json} :
    list value place min = .ok items ↔ value = some (.arr items) ∧ min ≤ items.length := by
  unfold list
  split
  · exact ⟨fun refused => (nomatch refused), fun ⟨absent, _⟩ => (nomatch absent)⟩
  · rename_i found
    split
    · rename_i short
      refine ⟨fun refused => (nomatch refused), fun ⟨same, enough⟩ => ?_⟩
      obtain rfl : found = items := by simpa using same
      omega
    · rename_i enough
      refine ⟨fun same => ?_, fun ⟨same, _⟩ => ?_⟩
      · obtain rfl := Except.ok.inj same
        exact ⟨rfl, not_lt.1 enough⟩
      · exact congrArg Except.ok (by simpa using same)
  · rename_i other
    exact ⟨fun refused => (nomatch refused), fun ⟨same, _⟩ => (other items (Option.some.inj same)).elim⟩

theorem text_iff {value : Option Json} {place written : String} :
    text value place = .ok written ↔ value = some (.str written) := by
  unfold text
  rw [bind_ok]
  constructor
  · rintro ⟨found, read, done⟩
    unfold optionalText at read
    split at read
    · obtain rfl := Except.ok.inj read
      exact nomatch done
    · rename_i present
      obtain rfl := Except.ok.inj read
      obtain rfl := Except.ok.inj done
      exact (given_eq_some.1 present).1
    · exact nomatch read
  · rintro rfl
    exact ⟨some written, rfl, rfl⟩

/-- An integer of a document: a number, or a text that writes one. -/
def Writes (value : Option Json) (n : Int) : Prop := ∃ v, value = some v ∧ integerOf v = some n

theorem integer_iff {value : Option Json} {place : String} {min : Int} {max : Option Int} {n : {n : Int // min ≤ n}} :
    integer value place min max = .ok n ↔ Writes value n.val ∧ ∀ top ∈ max, n.val ≤ top := by
  have present (m : Int) : Writes value m ↔ ∃ v, given value = some v ∧ integerOf v = some m := by
    refine exists_congr fun v => and_congr_left fun reads => ?_
    rw [given_eq_some, and_iff_left]
    rintro rfl
    exact nomatch reads
  rw [present]
  unfold integer
  cases given value with
  | none => exact ⟨fun refused => (nomatch refused), fun ⟨⟨v, absent, _⟩, _⟩ => (nomatch absent)⟩
  | some v =>
    dsimp only
    cases reads : integerOf v with
    | none =>
      refine ⟨fun refused => (nomatch refused), fun ⟨⟨w, same, other⟩, _⟩ => ?_⟩
      rw [← Option.some.inj same, reads] at other
      exact nomatch other
    | some m =>
      dsimp only
      have value (k : Int) : (∃ w, some v = some w ∧ integerOf w = some k) ↔ m = k := by simp [reads]
      rw [value]
      by_cases below : m < min
      · rw [dif_pos below]
        refine ⟨fun refused => (nomatch refused), fun ⟨same, _⟩ => ?_⟩
        have above := n.property
        omega
      · rw [dif_neg below]
        cases beyond : max.filter (m > ·) with
        | some top =>
          obtain ⟨isMax, larger⟩ := Option.filter_eq_some_iff.1 beyond
          refine ⟨fun refused => (nomatch refused), fun ⟨same, within⟩ => ?_⟩
          have least := within top isMax
          have more : top < m := by simpa using larger
          omega
        | none =>
          have within : ∀ top ∈ max, m ≤ top := fun top isMax => by
            simpa using Option.filter_eq_none_iff.1 beyond top isMax
          refine ⟨fun same => ?_, fun ⟨same, _⟩ => congrArg Except.ok (Subtype.ext same)⟩
          rw [← Except.ok.inj same]
          exact ⟨rfl, within⟩

theorem Writes.given {value : Option Json} {n : Int} (writes : Writes value n) : given value ≠ none := by
  obtain ⟨v, rfl, reads⟩ := writes
  intro absent
  have null : v = .null := by
    by_contra other
    rw [given_eq_some.2 ⟨rfl, other⟩] at absent
    cases absent
  rw [null] at reads
  cases reads

/-- The integers that a number is exact for. -/
def safe : Nat := 9007199254740991

/-- What a count comes to: what stands for an absent one, or an integer of its range. -/
def Chosen (value : Option Json) (min : Nat) (max : Int) (fallback : Option Nat) (n : Nat) : Prop :=
  (given value = none ∧ fallback = some n) ∨ (Writes value n ∧ min ≤ n ∧ n ≤ max ∧ n ≤ safe)

theorem count_iff {value : Option Json} {place : String} {min n : Nat} {max : Int} {fallback : Option Nat} :
    count value place min max fallback = .ok n ↔ Chosen value min max fallback n := by
  have read : (do let m ← integer value place min (some max)
                  if isSafe m.val then return m.val.toNat else fail place "is too large" : Except String Nat) = .ok n ↔
      Writes value n ∧ min ≤ n ∧ n ≤ max ∧ n ≤ safe := by
    rw [bind_ok]
    constructor
    · rintro ⟨m, found, done⟩
      obtain ⟨writes, within⟩ := integer_iff.1 found
      have top := within max rfl
      have least := m.property
      by_cases small : isSafe m.val = true
      · rw [if_pos small] at done
        obtain rfl := Except.ok.inj done
        have few : m.val.natAbs ≤ safe := of_decide_eq_true small
        rw [Int.toNat_of_nonneg (by omega)]
        exact ⟨writes, by omega, top, by omega⟩
      · rw [if_neg small] at done
        exact nomatch done
    · rintro ⟨writes, least, top, few⟩
      refine ⟨⟨n, by exact_mod_cast least⟩, integer_iff.2 ⟨writes, fun _ isMax => Option.some.inj isMax ▸ top⟩, ?_⟩
      exact if_pos (decide_eq_true few)
  unfold count Chosen
  split
  · rename_i m absent
    rw [absent]
    refine ⟨fun same => .inl ⟨rfl, congrArg some (Except.ok.inj same)⟩, fun either => ?_⟩
    rcases either with ⟨-, same⟩ | ⟨writes, -⟩
    · exact congrArg Except.ok (Option.some.inj same)
    · exact absurd absent writes.given
  · rename_i not
    rw [read]
    exact ⟨.inr, fun either => either.resolve_left fun ⟨absent, same⟩ => not n absent same⟩

/-! ### Rows -/

/-- A row that counts the requests of a day. -/
structure Row (row : Json) (date : String) (requests : Nat) : Prop where
  object : ∃ fields, row = .obj fields
  dated : row.field "date" = some (.str date)
  counted : Writes (row.field "requests") requests
  within : requests ≤ 1000000000

/-- The point of a day. -/
def pointOf (d : CalendarDate) (requests : Nat) : Point :=
  { date := d.text, ms := d.number * dayMs, requests := requests, dow := dayOfWeek d.number }

/-- A row that is read, and the point it is read as. -/
def Reads (row : Json) (p : Point) : Prop :=
  ∃ date d requests, Row row date requests ∧ Dated date d ∧ 100 ≤ d.year ∧ p = pointOf d requests

theorem readPoint_iff {row : Json} {i : Nat} {p : Point} : readPoint row i = .ok p ↔ Reads row p := by
  unfold readPoint Reads
  dsimp only
  simp only [bind_ok, record_iff, text_iff, parseDate_iff, count_iff]
  constructor
  · rintro ⟨_, ⟨same, object⟩, date, dated, ms, ⟨d, isDate, late, rfl⟩, requests, counted, done⟩
    obtain rfl := Option.some.inj same
    obtain rfl := Except.ok.inj done
    obtain ⟨writes, -, within, -⟩ := counted.resolve_left (fun none => nomatch none.2)
    refine ⟨date, d, requests, ⟨object, dated, writes, by exact_mod_cast within⟩, isDate, late, ?_⟩
    rw [pointOf, number_div, isDate.2]
  · rintro ⟨date, d, requests, ⟨object, dated, writes, within⟩, isDate, late, rfl⟩
    refine ⟨row, ⟨rfl, object⟩, date, dated, _, ⟨d, isDate, late, rfl⟩, requests,
      .inr ⟨writes, Nat.zero_le _, by exact_mod_cast within, within.trans (by decide)⟩, ?_⟩
    rw [pointOf, number_div, isDate.2]
    rfl

theorem readPoints_iff {rows : List Json} {points : List Point} :
    (rows.zipIdx.mapM fun (row, i) => readPoint row i) = .ok points ↔ List.Forall₂ Reads rows points := by
  rw [mapM_ok_iff]
  simp only [readPoint_iff]
  rw [← List.forall₂_map_left_iff (f := Prod.fst) (R := Reads), List.zipIdx_map_fst]

theorem consecutive_iff {i : Nat} {points : List Point} {done : Unit} :
    consecutive i points = .ok done ↔ points.IsChain fun a b => b.ms = a.ms + dayMs := by
  induction points generalizing i with
  | nil => exact iff_of_true rfl .nil
  | cons a points ih =>
    cases points with
    | nil => exact iff_of_true rfl (.singleton a)
    | cons b rest =>
      rw [List.isChain_cons_cons, ← ih, consecutive]
      by_cases same : b.ms = a.ms
      · rw [if_pos same]
        have apart : b.ms ≠ a.ms + dayMs := by
          unfold dayMs
          omega
        exact iff_of_false (fun refused => nomatch refused) fun both => apart both.1
      · rw [if_neg same]
        by_cases next : b.ms = a.ms + dayMs
        · rw [if_neg (not_not.2 next)]
          exact ⟨fun later => ⟨next, later⟩, And.right⟩
        · rw [if_pos next]
          exact iff_of_false (fun refused => nomatch refused) fun both => next both.1

/-- The points of a document, by their times. -/
def sorted (points : List Point) : List Point := points.insertionSort (·.ms ≤ ·.ms)

/-- A document whose points are those of its rows, one day after the other. -/
structure Accepted (f : Json) (rows : List Json) (points : List Point) (s : Series) : Prop where
  object : ∃ fields, f = .obj fields
  series : f.field "series" = some (.arr rows)
  enough : 14 ≤ rows.length
  read : List.Forall₂ Reads rows points
  chain : (sorted points).IsChain fun a b => b.ms = a.ms + dayMs
  horizon : Chosen (f.field "horizon_days") 1 365 (some 30) s.horizonDays
  window : Chosen (f.field "window_days") 7 rows.length (some 28) s.windowDays
  points : s.points = sorted points

theorem validateForecast_iff {value : Option Json} {s : Series} :
    validateForecast value = .ok s ↔ ∃ f rows points, value = some f ∧ Accepted f rows points s := by
  unfold validateForecast
  simp only [bind_ok, record_iff, list_iff, readPoints_iff, consecutive_iff, count_iff]
  have length {rows : List Json} {points : List Point} (read : List.Forall₂ Reads rows points) :
      (sorted points).length = rows.length := by
    rw [sorted, List.length_insertionSort, read.length_eq]
  constructor
  · rintro ⟨f, ⟨same, object⟩, rows, ⟨series, enough⟩, points, read, -, chain, horizonDays, horizon, windowDays, window, done⟩
    obtain rfl := Except.ok.inj done
    refine ⟨f, rows, points, same, object, series, enough, read, chain, horizon, ?_, rfl⟩
    rw [← length read]
    exact window
  · rintro ⟨f, rows, points, same, object, series, enough, read, chain, horizon, window, isSorted⟩
    rw [← length read] at window
    refine ⟨f, ⟨same, object⟩, rows, ⟨series, enough⟩, points, read, (), chain, _, horizon, _, window, ?_⟩
    rw [← sorted, ← isSorted]
    rfl

/-! ### Runs of days -/

/-- A point of a day. -/
def Stands (p : Point) (d : CalendarDate) : Prop := p.date = d.text ∧ p.ms = d.number * dayMs

theorem Stands.unique {p : Point} {d e : CalendarDate} (first : Stands p d) (second : Stands p e) : d = e := by
  have same : d.number * dayMs = e.number * dayMs := first.2.symm.trans second.2
  exact CalendarDate.number_inj.1 (mul_right_cancel₀ (by decide) same)

/-- Points a day apart stand for a run of days. -/
theorem chain_run {p : Point} {points : List Point} {d : CalendarDate} (first : Stands p d)
    (others : ∀ q ∈ points, ∃ e, Stands q e) (chain : (p :: points).IsChain fun a b => b.ms = a.ms + dayMs) :
    List.Forall₂ Stands (p :: points) (d.run (points.length + 1)) := by
  induction points generalizing p d with
  | nil => exact .cons first .nil
  | cons q points ih =>
    obtain ⟨next, later⟩ := List.isChain_cons_cons.1 chain
    obtain ⟨e, stands⟩ := others q List.mem_cons_self
    have number : e.number * dayMs = (d.number + 1) * dayMs := by
      rw [← stands.2, next, first.2]
      ring
    have same : e = d.next := by
      rw [← CalendarDate.number_inj, d.number_next]
      exact mul_right_cancel₀ (by decide) number
    exact .cons first (ih (same ▸ stands) (fun r among => others r (List.mem_cons_of_mem _ among)) later)

theorem run_chain {points : List Point} {d : CalendarDate} {n : Nat} (stand : List.Forall₂ Stands points (d.run n)) :
    points.IsChain fun a b => b.ms = a.ms + dayMs := by
  induction n generalizing points d with
  | zero =>
    cases stand
    exact .nil
  | succ n ih =>
    obtain ⟨p, rest, first, later, rfl⟩ := List.forall₂_cons_right_iff.1 stand
    have chain := ih later
    cases n with
    | zero =>
      cases later
      exact .singleton p
    | succ n =>
      obtain ⟨q, rest, second, -, rfl⟩ := List.forall₂_cons_right_iff.1 later
      refine List.isChain_cons_cons.2 ⟨?_, chain⟩
      rw [second.2, first.2, d.number_next]
      ring

theorem chain_lt {points : List Point} (chain : points.IsChain fun a b => b.ms = a.ms + dayMs) :
    points.Pairwise fun a b => a.ms < b.ms := by
  have rising : points.IsChain fun a b => a.ms < b.ms := chain.imp fun a b next => by
    rw [next]
    exact Int.lt_add_of_pos_right _ (by decide)
  have trans : IsTrans Point fun a b => a.ms < b.ms := ⟨fun _ _ _ => lt_trans⟩
  exact rising.pairwise

/-- Points with times of their own are sorted in one way only. -/
theorem sorted_eq {points ordered : List Point} (perm : points.Perm ordered)
    (strict : ordered.Pairwise fun a b => a.ms < b.ms) : sorted points = ordered := by
  have apart : (ordered.map Point.ms).Nodup :=
    (List.pairwise_map.2 strict).imp ne_of_lt
  have total : Std.Total fun a b : Point => a.ms ≤ b.ms := ⟨fun a b => le_total a.ms b.ms⟩
  have trans : IsTrans Point fun a b => a.ms ≤ b.ms := ⟨fun _ _ _ => le_trans⟩
  have shuffled : (sorted points).Perm ordered := (List.perm_insertionSort _ points).trans perm
  refine shuffled.eq_of_pairwise ?_ (List.pairwise_insertionSort _ points) (strict.imp le_of_lt)
  intro a b among among' below above
  exact List.inj_on_of_nodup_map apart (shuffled.mem_iff.1 among) among' (le_antisymm below above)

theorem Stands.exists_run {points : List Point} {days : List CalendarDate} (stand : List.Forall₂ Stands points days)
    (nonempty : points ≠ []) (chain : (sorted points).IsChain fun a b => b.ms = a.ms + dayMs) :
    ∃ start : CalendarDate, days.Perm (start.run days.length) := by
  have perm : (sorted points).Perm points := List.perm_insertionSort _ points
  obtain ⟨ordered, standing, shuffled⟩ := List.perm_comp_forall₂ perm stand
  have known (q : Point) (among : q ∈ sorted points) : ∃ e, Stands q e := by
    obtain ⟨e, -, stands⟩ := exists_pair standing.flip among
    exact ⟨e, stands⟩
  have length := perm.length_eq
  rw [stand.length_eq] at length
  cases isSorted : sorted points with
  | nil =>
    rw [isSorted] at perm
    exact absurd perm.nil_eq.symm nonempty
  | cons p rest =>
    rw [isSorted] at chain standing known length
    obtain ⟨start, first⟩ := known p List.mem_cons_self
    have run := chain_run first (fun q among => known q (List.mem_cons_of_mem _ among)) chain
    have unique : Relator.RightUnique Stands := fun _ _ _ => Stands.unique
    have same := unique.forall₂ standing run
    refine ⟨start, ?_⟩
    rw [← length, List.length_cons, ← same]
    exact shuffled.symm

/-- Pairs over the same first items are pairs with the same third ones. -/
theorem exists_thirds {α β γ δ : Type} {A : α → β → Prop} {B : α → γ → Prop} {C : β → δ → Prop} {D : γ → δ → Prop}
    (pair : ∀ a b c, A a b → B a c → ∃ d, C b d ∧ D c d) {as : List α} {bs : List β} {cs : List γ}
    (first : List.Forall₂ A as bs) (second : List.Forall₂ B as cs) :
    ∃ ds, List.Forall₂ C bs ds ∧ List.Forall₂ D cs ds := by
  induction first generalizing cs with
  | nil =>
    cases second
    exact ⟨[], .nil, .nil⟩
  | cons related _ ih =>
    obtain ⟨c, rest, related', later, rfl⟩ := List.forall₂_cons_left_iff.1 second
    obtain ⟨d, one, two⟩ := pair _ _ _ related related'
    obtain ⟨ds, ones, twos⟩ := ih later
    exact ⟨d :: ds, .cons one ones, .cons two twos⟩

/-! ### Accepted series -/

/-- Dates of the calendar that are, in some order, consecutive days, two weeks of them at least. -/
def OneRun (dates : List String) : Prop :=
  14 ≤ dates.length ∧ ∃ days, List.Forall₂ Dated dates days ∧ ∃ start : CalendarDate, days.Perm (start.run days.length)

/-- No date is one of the first hundred years. -/
def Modern (dates : List String) : Prop := ∀ date ∈ dates, ∀ d, Dated date d → 100 ≤ d.year

/-- An option that is absent, or an integer of its range. -/
def Optional (value : Option Json) (min max : Nat) : Prop :=
  given value = none ∨ ∃ n : Nat, Writes value n ∧ min ≤ n ∧ n ≤ max ∧ n ≤ safe

theorem Optional.chosen {value : Option Json} {min max : Nat} (option : Optional value min max) (fallback : Nat) :
    ∃ n, Chosen value min max (some fallback) n := by
  rcases option with absent | ⟨n, writes, least, most, small⟩
  · exact ⟨fallback, .inl ⟨absent, rfl⟩⟩
  · exact ⟨n, .inr ⟨writes, least, by exact_mod_cast most, small⟩⟩

/-- A document of daily rows, each with a date and a count in range, and options in their ranges. -/
structure Daily (f : Json) (rows : List Json) (dates : List String) : Prop where
  object : ∃ fields, f = .obj fields
  series : f.field "series" = some (.arr rows)
  counted : List.Forall₂ (fun row date => ∃ requests, Row row date requests) rows dates
  horizon : Optional (f.field "horizon_days") 1 365
  window : Optional (f.field "window_days") 7 rows.length

section
variable {f : Json} {rows : List Json} {dates : List String}

theorem Daily.oneRun (daily : Daily f rows dates) {points : List Point} {s : Series} (accepted : Accepted f rows points s) :
    OneRun dates ∧ Modern dates := by
  have pair (row : Json) (date : String) (p : Point) (counts : ∃ requests, Row row date requests) (reads : Reads row p) :
      ∃ d, (Dated date d ∧ 100 ≤ d.year) ∧ Stands p d := by
    obtain ⟨_, isRow⟩ := counts
    obtain ⟨date', d, _, isRow', dated, late, rfl⟩ := reads
    obtain rfl : date = date' := by simpa using isRow.dated.symm.trans isRow'.dated
    exact ⟨d, ⟨dated, late⟩, rfl, rfl⟩
  obtain ⟨days, dated, stand⟩ := exists_thirds pair daily.counted accepted.read
  have lengths := accepted.read.length_eq
  have enough := accepted.enough
  have nonempty : points ≠ [] := by
    rintro rfl
    simp only [List.length_nil] at lengths
    omega
  refine ⟨⟨?_, days, dated.imp fun _ _ both => both.1, Stands.exists_run stand nonempty accepted.chain⟩, ?_⟩
  · rw [← daily.counted.length_eq]
    exact enough
  · intro date among e isDate
    obtain ⟨d, -, isDate', late⟩ := exists_pair dated.flip among
    rwa [isDate.unique isDate']

/-- Rows of a run of days, from the year 100 on, are accepted. -/
theorem Daily.exists_accepted (daily : Daily f rows dates) (run : OneRun dates) (modern : Modern dates) :
    ∃ points s, Accepted f rows points s := by
  obtain ⟨enough, days, dated, start, perm⟩ := run
  have known : List.Forall₂ (fun date d => (Dated date d ∧ 100 ≤ d.year)) dates days := by
    refine (List.forall₂_and_left (p := fun date => ∀ d, Dated date d → 100 ≤ d.year) dates days).2 ⟨modern, dated⟩
      |>.imp fun date d both => ⟨both.2, both.1 d both.2⟩
  have pair (date : String) (row : Json) (d : CalendarDate) (counts : ∃ requests, Row row date requests)
      (isDay : Dated date d ∧ 100 ≤ d.year) : ∃ p, Reads row p ∧ Stands p d := by
    obtain ⟨requests, isRow⟩ := counts
    exact ⟨pointOf d requests, ⟨date, d, requests, isRow, isDay.1, isDay.2, rfl⟩, rfl, rfl⟩
  obtain ⟨points, read, stand⟩ := exists_thirds pair daily.counted.flip known
  obtain ⟨ordered, standing, shuffled⟩ := List.perm_comp_forall₂ perm.symm stand
  have chain : ordered.IsChain fun a b => b.ms = a.ms + dayMs := run_chain standing.flip
  have isSorted := sorted_eq shuffled.symm (chain_lt chain)
  obtain ⟨horizonDays, horizon⟩ := daily.horizon.chosen 30
  obtain ⟨windowDays, window⟩ := daily.window.chosen 28
  refine ⟨points, ⟨horizonDays, windowDays, sorted points⟩, daily.object, daily.series, ?_, read, ?_, horizon, window, rfl⟩
  · rw [daily.counted.length_eq]
    exact enough
  · rw [isSorted]
    exact chain

/-- Rows in another order have the same points. -/
theorem Accepted.perm {points : List Point} {s : Series} (accepted : Accepted f rows points s) {g : Json}
    {rows' : List Json} (object : ∃ fields, g = .obj fields) (series : g.field "series" = some (.arr rows'))
    (shuffled : rows'.Perm rows) (horizon : g.field "horizon_days" = f.field "horizon_days")
    (window : g.field "window_days" = f.field "window_days") : ∃ points', Accepted g rows' points' s := by
  obtain ⟨points', read, same⟩ := List.perm_comp_forall₂ shuffled accepted.read
  have isSorted : sorted points' = sorted points :=
    sorted_eq (same.trans (List.perm_insertionSort _ points).symm) (chain_lt accepted.chain)
  have length := shuffled.length_eq
  refine ⟨points', object, series, length ▸ accepted.enough, read, isSorted ▸ accepted.chain, horizon ▸ accepted.horizon, ?_,
    isSorted ▸ accepted.points⟩
  rw [window, length]
  exact accepted.window

/-- The same document with its rows in another order. -/
structure Reordered (f g : Json) : Prop where
  object : ∃ fields, g = .obj fields
  series : ∃ rows rows', f.field "series" = some (.arr rows) ∧ g.field "series" = some (.arr rows') ∧ rows'.Perm rows
  horizon : g.field "horizon_days" = f.field "horizon_days"
  window : g.field "window_days" = f.field "window_days"

/-- A document is accepted exactly where its dates are one run, and with its rows in any order it is the same series
with the same forecast. -/
structure Steady (f : Json) (dates : List String) : Prop where
  accepted : (∃ s, validateForecast (some f) = .ok s) ↔ OneRun dates
  permuted : ∀ s g, validateForecast (some f) = .ok s → Reordered f g →
    validateForecast (some g) = .ok s ∧ (validateForecast (some g)).map forecast = .ok (forecast s)

theorem Reordered.same {g : Json} {s : Series} (reordered : Reordered f g) (read : validateForecast (some f) = .ok s) :
    validateForecast (some g) = .ok s := by
  obtain ⟨_, rows, points, same, accepted⟩ := validateForecast_iff.1 read
  obtain rfl := Option.some.inj same
  obtain ⟨rows₁, rows', series, series', shuffled⟩ := reordered.series
  obtain rfl : rows₁ = rows := by simpa using series.symm.trans accepted.series
  obtain ⟨points', again⟩ := accepted.perm reordered.object series' shuffled reordered.horizon reordered.window
  exact validateForecast_iff.2 ⟨g, rows', points', rfl, again⟩

theorem Daily.accepted_iff (daily : Daily f rows dates) :
    (∃ s, validateForecast (some f) = .ok s) ↔ OneRun dates ∧ Modern dates := by
  constructor
  · rintro ⟨s, read⟩
    obtain ⟨_, rows', points, same, accepted⟩ := validateForecast_iff.1 read
    obtain rfl := Option.some.inj same
    obtain rfl : rows' = rows := by simpa using accepted.series.symm.trans daily.series
    exact daily.oneRun accepted
  · rintro ⟨run, modern⟩
    obtain ⟨points, s, accepted⟩ := daily.exists_accepted run modern
    exact ⟨s, validateForecast_iff.2 ⟨f, rows, points, rfl, accepted⟩⟩

/-- A daily series is accepted where its dates are one run, whatever their order, unless the run is one of the first
hundred years. -/
theorem validateForecast_steady_iff (daily : Daily f rows dates) : Steady f dates ↔ (OneRun dates → Modern dates) := by
  constructor
  · intro steady run
    exact (daily.accepted_iff.1 (steady.accepted.2 run)).2
  · intro modern
    refine ⟨daily.accepted_iff.trans (and_iff_left_of_imp modern), fun s g read reordered => ?_⟩
    have same := reordered.same read
    exact ⟨same, by rw [same]; rfl⟩

end

/-! ### Documents -/

theorem writes_num {n : Nat} (small : n ≤ safe) : Writes (some (.num n)) n := by
  refine ⟨_, rfl, ?_⟩
  have bound : (n : Int).natAbs ≤ 2 ^ 53 := by
    have few : safe ≤ 2 ^ 53 := by decide
    rw [Int.natAbs_natCast]
    exact small.trans few
  have exact' : ofRat (n : Rat) = .finite n := by exact_mod_cast ofRat_int bound
  unfold integerOf
  dsimp only
  rw [exact']
  dsimp only
  rw [if_pos ⟨Rat.den_natCast n, decide_eq_true (by rwa [Rat.num_natCast, Int.natAbs_natCast])⟩, Rat.num_natCast]

def rowOf (day : CalendarDate × Nat) : Json := .obj [("date", .str day.1.text), ("requests", .num day.2)]

/-- A forecast document of days and their counts. -/
def documentOf (days : List (CalendarDate × Nat)) : Json := .obj [("series", .arr (days.map rowOf))]

theorem daily_documentOf {days : List (CalendarDate × Nat)} (few : ∀ day ∈ days, day.2 ≤ 1000000000) :
    Daily (documentOf days) (days.map rowOf) (days.map fun day => day.1.text) := by
  refine ⟨⟨_, rfl⟩, rfl, ?_, .inl rfl, .inl rfl⟩
  rw [List.forall₂_map_left_iff, List.forall₂_map_right_iff, List.forall₂_same]
  intro day among
  have within := few day among
  exact ⟨day.2, ⟨_, rfl⟩, rfl, writes_num (within.trans (by decide)), within⟩

section
variable {days : List (CalendarDate × Nat)} {start : CalendarDate} {n : Nat}

theorem oneRun_of_run (perm : (days.map Prod.fst).Perm (start.run n)) (enough : 14 ≤ n)
    (written : ∀ d ∈ start.run n, d.year ≤ 9999) : OneRun (days.map fun day => day.1.text) := by
  have length := perm.length_eq
  rw [List.length_map, CalendarDate.length_run] at length
  refine ⟨by rwa [List.length_map, length], days.map Prod.fst, ?_, start, by rwa [List.length_map, length]⟩
  rw [List.forall₂_map_left_iff, List.forall₂_map_right_iff, List.forall₂_same]
  exact fun day among => ⟨written _ (perm.mem_iff.1 (List.mem_map_of_mem among)), rfl⟩

theorem modern_of_run (perm : (days.map Prod.fst).Perm (start.run n))
    (written : ∀ d ∈ start.run n, 100 ≤ d.year ∧ d.year ≤ 9999) : Modern (days.map fun day => day.1.text) := by
  intro date among e dated
  obtain ⟨day, inside, rfl⟩ := List.mem_map.1 among
  obtain ⟨late, early⟩ := written _ (perm.mem_iff.1 (List.mem_map_of_mem inside))
  rwa [dated.unique ⟨early, rfl⟩]

end

/-- So many days of two weeks, the last one first. -/
def fortnight (start : CalendarDate) (requests : CalendarDate → Nat) : List (CalendarDate × Nat) :=
  (start.run 14).reverse.map fun d => (d, requests d)

theorem fortnight_perm (start : CalendarDate) (requests : CalendarDate → Nat) :
    ((fortnight start requests).map Prod.fst).Perm (start.run 14) := by
  have days : (fortnight start requests).map Prod.fst = (start.run 14).reverse := by
    rw [fortnight, List.map_map]
    exact List.map_id _
  rw [days]
  exact List.reverse_perm _

/-- The fifth of October 2026, a Monday. -/
def october : CalendarDate := { year := 2026, month := 10, day := 5, months := by decide, days := by decide }

/-- Requests of two weeks, a few more on the first day than on the second Monday. -/
def uneven : List (CalendarDate × Nat) := fortnight october fun d => if d = october then 120 else 100

theorem daily_uneven : Daily (documentOf uneven) (uneven.map rowOf) (uneven.map fun day => day.1.text) :=
  daily_documentOf (by decide)

theorem modern_uneven : Modern (uneven.map fun day => day.1.text) := modern_of_run (fortnight_perm _ _) (by decide)

theorem uneven_steady : Steady (documentOf uneven) (uneven.map fun day => day.1.text) :=
  (validateForecast_steady_iff daily_uneven).2 fun _ => modern_uneven

theorem january : 1 ≤ 1 ∧ 1 ≤ 12 := by decide

/-- The first two weeks of the year 50. -/
def yearFifty : List (CalendarDate × Nat) :=
  fortnight { year := 50, month := 1, day := 1, months := january, days := by decide } fun _ => 100

/-- They are one run of dates, and are refused. -/
theorem yearFifty_refused : ¬∀ f rows dates, Daily f rows dates → Steady f dates := by
  intro always
  have daily : Daily (documentOf yearFifty) (yearFifty.map rowOf) (yearFifty.map fun day => day.1.text) :=
    daily_documentOf (by decide)
  have run : OneRun (yearFifty.map fun day => day.1.text) := oneRun_of_run (fortnight_perm _ _) (le_refl 14) (by decide)
  have steady := always _ _ _ daily
  obtain ⟨-, modern⟩ := daily.accepted_iff.1 (steady.accepted.2 run)
  have early := modern "0050-01-01" (by decide) { year := 50, month := 1, day := 1, months := by decide, days := by decide }
    ⟨by decide, by decide⟩
  exact absurd early (by decide)

end OpenVibeHost.InferencePlanner
