import OpenVibeHost.DailySeries

/-! The variance under a forecast's band. It divides by the window that is asked for, and a default window may be longer
than the series, so that the band is narrower than the days it was measured on allow. -/
namespace OpenVibeHost.InferencePlanner
open Dates Doubles

/-! ### What a forecast divides -/

namespace Series

/-- The days that a forecast looks at. -/
def window (s : Series) : List Point := s.points.drop (s.points.length - s.windowDays)

def level (s : Series) : Double := div (sum (s.window.map fun p => ofInt p.requests)) (ofInt s.window.length)

/-- The means of the weekdays, from Sunday. -/
def means (s : Series) : List Double :=
  (List.range 7).map fun dow =>
    let rows := s.window.filter (·.dow = dow)
    if rows.length = 0 then s.level else div (sum (rows.map fun p => ofInt p.requests)) (ofInt rows.length)

/-- The squares of how far the days of the window are from a mean. -/
def squares (s : Series) (mean : Point → Double) : Double :=
  sum (s.window.map fun p => mul (sub (ofInt p.requests) (mean p)) (sub (ofInt p.requests) (mean p)))

/-- From the mean of the weekday. -/
def residualSquares (s : Series) : Double := s.squares fun p => s.means.getD p.dow .nan

/-- From the level. -/
def levelSquares (s : Series) : Double := s.squares fun _ => s.level

end Series

/-- A variance, by what is divided and what it is divided by. -/
structure Variance where
  squares : Double
  divisor : Nat

def Variance.value (v : Variance) : Double := div v.squares (ofInt v.divisor)

/-- The `spread` of a forecast. -/
def Series.variance (s : Series) : Variance :=
  if 7 < s.windowDays then ⟨s.residualSquares, s.windowDays - 7⟩ else ⟨s.levelSquares, max 1 (s.window.length - 1)⟩

/-- A variance that the deviation and the band of a forecast are made of, beside the days that it says it looked at. -/
structure Measured (s : Series) (v : Variance) : Prop where
  deviation : (forecast s).window.residualSd = rounded (sqrt v.value) 4
  band : (forecast s).monthly.band = ceil (mul (mul (ofRat 1.96) (sqrt v.value)) (sqrt (ofInt s.horizonDays)))
  days : (forecast s).window.days = s.window.length

theorem forecast_measured (s : Series) : Measured s s.variance := by
  have spread : s.variance.value =
      if 7 < s.windowDays then div s.residualSquares (ofInt (s.windowDays - 7 : Nat))
      else div s.levelSquares (ofInt (max 1 (s.window.length - 1) : Nat)) := by
    unfold Series.variance
    split <;> rfl
  refine ⟨?_, ?_, rfl⟩
  · rw [spread]
    rfl
  · rw [spread]
    rfl

/-! ### What the window allows -/

/-- A variance as the days in the window allow it: seven means take seven of them, and seven days or fewer leave none,
so that they are measured from the level. -/
structure Justified (s : Series) (v : Variance) : Prop where
  residuals : 7 < s.window.length → v = ⟨s.residualSquares, s.window.length - 7⟩
  fallback : s.window.length ≤ 7 → v = ⟨s.levelSquares, max 1 (s.window.length - 1)⟩
  bounded : v.divisor ≤ if 7 < s.window.length then s.window.length - 7 else max 1 (s.window.length - 1)

theorem length_window (s : Series) : s.window.length = min s.windowDays s.points.length := by
  rw [Series.window, List.length_drop]
  omega

section
variable {s : Series}

theorem variance_justified_iff (enough : 7 < s.points.length) :
    Justified s s.variance ↔ s.windowDays ≤ s.points.length := by
  have length := length_window s
  constructor
  · intro justified
    by_contra longer
    have wide : 7 < s.windowDays := by omega
    have divisor := congrArg Variance.divisor (justified.residuals (by omega))
    rw [Series.variance, if_pos wide] at divisor
    dsimp only at divisor
    omega
  · intro within
    have same : s.window.length = s.windowDays := by omega
    by_cases wide : 7 < s.windowDays
    · have divided : s.variance = ⟨s.residualSquares, s.window.length - 7⟩ := by rw [Series.variance, if_pos wide, same]
      refine ⟨fun _ => divided, fun narrow => absurd narrow (by omega), ?_⟩
      rw [divided, if_pos (by omega)]
    · have spread : s.variance = ⟨s.levelSquares, max 1 (s.window.length - 1)⟩ := by rw [Series.variance, if_neg wide]
      refine ⟨fun wide' => absurd wide' (by omega), fun _ => spread, ?_⟩
      rw [spread, if_neg (by omega)]

/-- The window is asked for, or the series is as long as the one that stands for it. -/
def WindowCovered (f : Json) : Prop :=
  given (f.field "window_days") ≠ none ∨ ∃ rows, f.field "series" = some (.arr rows) ∧ 28 ≤ rows.length

theorem Accepted.covered_iff {f : Json} {rows : List Json} {points : List Point} (accepted : Accepted f rows points s) :
    WindowCovered f ↔ s.windowDays ≤ s.points.length := by
  have length : s.points.length = rows.length := by
    rw [accepted.points, sorted, List.length_insertionSort, accepted.read.length_eq]
  rw [length]
  constructor
  · intro covered
    rcases accepted.window with ⟨absent, default⟩ | ⟨-, -, within, -⟩
    · obtain ⟨rows', series, long⟩ := covered.resolve_left (not_not.2 absent)
      obtain rfl : rows' = rows := by simpa using series.symm.trans accepted.series
      exact Option.some.inj default ▸ long
    · exact_mod_cast within
  · intro within
    rcases accepted.window with ⟨absent, default⟩ | ⟨writes, -⟩
    · exact .inr ⟨rows, accepted.series, Option.some.inj default ▸ within⟩
    · exact .inl writes.given

/-- The variance of an accepted document's forecast is the one that its days allow exactly where its window is no longer
than they are. -/
theorem validateForecast_justified_iff {f : Json} (read : validateForecast (some f) = .ok s) :
    Measured s s.variance ∧ (Justified s s.variance ↔ WindowCovered f) := by
  obtain ⟨_, rows, points, same, accepted⟩ := validateForecast_iff.1 read
  obtain rfl := Option.some.inj same
  have enough : 7 < s.points.length := by
    have least := accepted.enough
    rw [accepted.points, sorted, List.length_insertionSort, ← accepted.read.length_eq]
    omega
  refine ⟨forecast_measured s, ?_⟩
  rw [accepted.covered_iff, variance_justified_iff enough]

end

/-- Four weeks of October 2026. -/
def fourWeeks : List (CalendarDate × Nat) := (october.run 28).map (·, 100)

theorem fourWeeks_justified : ∃ s, validateForecast (some (documentOf fourWeeks)) = .ok s ∧ Justified s s.variance := by
  have days : fourWeeks.map Prod.fst = october.run 28 := by
    rw [fourWeeks, List.map_map]
    exact List.map_id _
  have run := List.Perm.of_eq days
  have daily : Daily (documentOf fourWeeks) (fourWeeks.map rowOf) (fourWeeks.map fun day => day.1.text) :=
    daily_documentOf (by decide)
  obtain ⟨s, read⟩ := daily.accepted_iff.2 ⟨oneRun_of_run run (by decide) (by decide), modern_of_run run (by decide)⟩
  exact ⟨s, read, (validateForecast_justified_iff read).2.2 (.inr ⟨_, rfl, by decide⟩)⟩

/-! ### A default window that is too long -/

/-- The deviation of a series of two weeks is stated as 3, and the seven degrees that it has allow one above 5. -/
theorem uneven_narrowed : ((validateForecast (some (documentOf uneven))).toOption.map fun s =>
    (s.window.length, s.variance.divisor, less (sqrt s.variance.value) (ofRat 3.1),
      less (ofRat 5.3) (sqrt (Variance.value ⟨s.residualSquares, s.window.length - 7⟩)))) =
    some (14, 21, true, true) := by
  decide +kernel

theorem uneven_unjustified : ¬∀ f s, validateForecast (some f) = .ok s → Justified s s.variance := by
  intro always
  cases read : validateForecast (some (documentOf uneven)) with
  | error message =>
    have narrowed := uneven_narrowed
    rw [read] at narrowed
    exact nomatch narrowed
  | ok s =>
    have narrowed := uneven_narrowed
    rw [read] at narrowed
    obtain ⟨length, divisor, -⟩ : s.window.length = 14 ∧ s.variance.divisor = 21 ∧ _ := by
      simpa only [Except.toOption, Option.map_some, Option.some.injEq, Prod.mk.injEq] using narrowed
    have bounded := (always _ s read).bounded
    rw [length, divisor] at bounded
    exact absurd bounded (by decide)

end OpenVibeHost.InferencePlanner
