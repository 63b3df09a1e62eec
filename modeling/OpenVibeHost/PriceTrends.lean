import OpenVibeHost.Answers
import OpenVibeHost.DoubleOrder
import OpenVibeHost.Histories
import Mathlib.Data.List.Induction

/-! The price of a plan over time, `trend` and `planTrend` of `server/catalog/trend.js`. A price is a number and a time
is a number of milliseconds; a double that a row holds is the rational that it is. -/
namespace OpenVibeHost.Trends
open Doubles

/-- What a row holds in a field: a number, null, or what is none as a number. -/
inductive Cell (α : Type) where
  | other
  | null
  | value (a : α)

/-- `finite`. `Number(null)` is zero. -/
def Cell.finite {α : Type} [Zero α] : Cell α → Option α
  | .other => none
  | .null => some 0
  | .value a => some a

/-- A time that a `Date` can have, by which an ISO date-time stands here. -/
structure Instant where
  ms : Int
  valid : ms.natAbs ≤ 8640000000000000

inductive Fault where
  | rangeError
  deriving DecidableEq

/-- `at`: `toISOString` of a time that is too far away throws. -/
def instant (ms : Int) : Except Fault Instant :=
  if valid : ms.natAbs ≤ 8640000000000000 then .ok ⟨ms, valid⟩ else .error .rangeError

def round4 (n : Double) : Double := div (round (mul n (.finite 10000))) (.finite 10000)

/-- A price at a time. -/
structure Moment where
  time : Int
  price : Rat
  deriving DecidableEq

structure Point where
  time : Instant
  price : Double

structure Change where
  amount : Double
  percent : Option Double

structure Trend where
  points : List Point
  currency : Option String
  now : Double
  low : Double
  high : Double
  change : Option Change

/-- One price per moment, the last written wins. -/
def add (byTime : List Moment) (p : Moment) : List Moment :=
  if byTime.getLast?.map (·.time) = some p.time then byTime.dropLast ++ [p] else byTime ++ [p]

/-- The points with a time and a price, in the order of time. -/
def clean (points : List (Cell Int × Cell Rat)) : List Moment :=
  (points.filterMap fun (time, price) => time.finite.bind fun time => price.finite.map (Moment.mk time)).insertionSort
    (·.time ≤ ·.time)

/-- `currency || null`. -/
def orNull (currency : Option String) : Option String := currency.filter (· ≠ "")

/-- `trend`, where the moments are not none. -/
def trendOf (first : Moment) (rest : List Moment) (currency : Option String) : Except Fault Trend := do
  let last := (first :: rest).getLast (List.cons_ne_nil _ _)
  let low := rest.foldl (fun a p => if p.price < a.price then p else a) first
  let high := rest.foldl (fun a p => if a.price < p.price then p else a) first
  let amount := round4 (sub (.finite last.price) (.finite first.price))
  let points ← (first :: rest).mapM fun p => do
    return { time := ← instant p.time, price := round4 (.finite p.price) }
  return {
    points := points
    currency := orNull currency
    now := round4 (.finite last.price)
    low := round4 (.finite low.price)
    high := round4 (.finite high.price)
    change := if rest = [] then none else some {
      amount := amount
      percent := if 0 < first.price then some (round (mul (div amount (.finite first.price)) (.finite 100))) else none } }

def trend (points : List (Cell Int × Cell Rat)) (currency : Option String) : Except Fault (Option Trend) :=
  match (clean points).foldl add [] with
  | [] => .ok none
  | first :: rest => (trendOf first rest currency).map some

/-- A row of `catalog_plans`, as far as its trend reads it. -/
structure Plan where
  currency : Option String
  priceMonthly : Cell Rat
  firstSeenAt : Cell Int
  checkedAt : Cell Int

/-- A row of `catalog_price_changes`. -/
structure Row where
  currency : Option String
  observedAt : Cell Int
  before : Cell Rat
  after : Cell Rat

def Row.time (c : Row) : Int := c.observedAt.finite.getD 0

/-- The rows in the currency, in the order of time. -/
def rowsIn (currency : Option String) (changes : List Row) : List Row :=
  (changes.filter fun c => decide (orNull c.currency = orNull currency) && c.observedAt.finite.isSome).insertionSort
    (·.time ≤ ·.time)

/-- The price before the first change, and the price after each. -/
def changePoints (firstAt : Int) (rows : List Row) : List Moment :=
  ((rows.head?.bind fun c => c.before.finite).map (Moment.mk firstAt)).toList ++
    rows.filterMap fun c => c.after.finite.map (Moment.mk c.time)

/-- The current price is the last point. -/
def withCurrent (points : List Moment) (current : Rat) (now : Int) : List Moment :=
  let last : Moment := ⟨(points.map (·.time)).foldl max now, current⟩
  if points.getLast? = some last then points else points ++ [last]

def planPoints (plan : Plan) (current : Rat) (changes : List Row) (now : Int) : List Moment :=
  let rows := rowsIn plan.currency changes
  let firstAt := (plan.firstSeenAt.finite.or plan.checkedAt.finite).getD now
  if rows = [] then [⟨firstAt, current⟩] else withCurrent (changePoints firstAt rows) current now

def planTrend (plan : Plan) (changes : List Row) (now : Int) : Except Fault (Option Trend) :=
  match plan.priceMonthly.finite with
  | none => .ok none
  | some current =>
    trend ((planPoints plan current changes now).map fun p => (.value p.time, .value p.price)) plan.currency

/-! ### One price per moment -/

/-- The moments in the order of time, each later than the one before it. -/
structure Distinct (moments byTime : List Moment) : Prop where
  strict : byTime.Pairwise (·.time < ·.time)
  within : ∀ p ∈ byTime, p ∈ moments
  last : byTime.getLast? = moments.getLast?

theorem distinct_add {moments byTime : List Moment} {p : Moment} (distinct : Distinct moments byTime)
    (later : ∀ q ∈ moments, q.time ≤ p.time) : Distinct (moments ++ [p]) (add byTime p) := by
  unfold add
  split
  · rename_i same
    obtain ⟨last, isLast, sameTime⟩ := Option.map_eq_some_iff.1 same
    obtain ⟨before, rfl⟩ := List.getLast?_eq_some_iff.1 isLast
    obtain ⟨strict, -, below⟩ := List.pairwise_append.1 distinct.strict
    rw [List.dropLast_concat]
    refine ⟨List.pairwise_append.2 ⟨strict, List.pairwise_singleton _ _, fun q among r isP => ?_⟩, fun q among => ?_,
      by simp⟩
    · rw [List.mem_singleton.1 isP, ← sameTime]
      exact below q among last (List.mem_singleton_self _)
    · rcases List.mem_append.1 among with inside | isP
      · exact List.mem_append_left _ (distinct.within q (List.mem_append_left _ inside))
      · exact List.mem_append_right _ isP
  · rename_i apart
    refine ⟨List.pairwise_append.2 ⟨distinct.strict, List.pairwise_singleton _ _, fun q among r isP => ?_⟩,
      fun q among => ?_, by simp⟩
    · rw [List.mem_singleton.1 isP]
      -- the last is no earlier than this one, no later than the new one and not at its time
      obtain ⟨before, last, rfl⟩ := List.eq_nil_or_concat' byTime |>.resolve_left (List.ne_nil_of_mem among)
      have below := later last (distinct.within last (by simp))
      have other : last.time ≠ p.time := fun same => apart (by simp [same])
      obtain ⟨-, -, front⟩ := List.pairwise_append.1 distinct.strict
      rcases List.mem_append.1 among with inside | isLast
      · exact (front q inside last (List.mem_singleton_self _)).trans_le below
      · exact List.mem_singleton.1 isLast ▸ below.lt_of_ne other
    · rcases List.mem_append.1 among with inside | isP
      · exact List.mem_append_left _ (distinct.within q inside)
      · exact List.mem_append_right _ isP

theorem distinct_byTime {moments : List Moment} (sorted : moments.Pairwise (·.time ≤ ·.time)) :
    Distinct moments (moments.foldl add []) := by
  induction moments using List.reverseRecOn with
  | nil => exact ⟨List.Pairwise.nil, fun p among => among, rfl⟩
  | append_singleton moments p ih =>
    obtain ⟨sorted, -, later⟩ := List.pairwise_append.1 sorted
    rw [List.foldl_append]
    exact distinct_add (ih sorted) fun q among => later q among p (List.mem_singleton_self _)

/-! ### The trend of moments -/

/-- What a fold keeps that takes the next one where it is strictly better. -/
theorem best (key : Moment → Rat) (first : Moment) (rest : List Moment) :
    (rest.foldl (fun a p => if key p < key a then p else a) first) ∈ first :: rest ∧
      ∀ p ∈ first :: rest, key (rest.foldl (fun a p => if key p < key a then p else a) first) ≤ key p := by
  induction rest generalizing first with
  | nil => simp
  | cons next rest ih =>
    rw [List.foldl_cons]
    split
    · rename_i lower
      obtain ⟨among, least⟩ := ih next
      refine ⟨List.mem_cons_of_mem _ among, fun p inside => ?_⟩
      rcases List.mem_cons.1 inside with rfl | later
      · exact (least next (List.mem_cons_self ..)).trans lower.le
      · exact least p later
    · rename_i notLower
      obtain ⟨among, least⟩ := ih first
      refine ⟨?_, fun p inside => ?_⟩
      · rcases List.mem_cons.1 among with same | later
        · rw [same]
          exact List.mem_cons_self ..
        · exact List.mem_cons_of_mem _ (List.mem_cons_of_mem _ later)
      · rcases List.mem_cons.1 inside with rfl | later
        · exact least p (List.mem_cons_self ..)
        · rcases List.mem_cons.1 later with rfl | later
          · exact (least first (List.mem_cons_self ..)).trans (not_lt.1 notLower)
          · exact least p (List.mem_cons_of_mem _ later)

theorem round4_mono {q r : Rat} (le : q ≤ r) : AtMost (round4 (.finite q)) (round4 (.finite r)) :=
  div_atMost (by norm_num) (round_atMost (ofRat_atMost (mul_le_mul_of_nonneg_right le (by norm_num))))

/-- The points of a trend are its moments, the prices rounded. -/
def Shows (points : List Point) (moments : List Moment) : Prop :=
  points.map (fun p => (p.time.ms, p.price)) = moments.map fun p => (p.time, round4 (.finite p.price))

theorem mapM_shows {moments : List Moment} (valid : ∀ p ∈ moments, p.time.natAbs ≤ 8640000000000000) :
    ∃ points, (moments.mapM fun p => do
      return { time := ← instant p.time, price := round4 (.finite p.price) : Point } : Except Fault (List Point)) =
        .ok points ∧ Shows points moments := by
  induction moments with
  | nil => exact ⟨[], rfl, rfl⟩
  | cons p rest ih =>
    obtain ⟨points, made, shows⟩ := ih fun q among => valid q (List.mem_cons_of_mem _ among)
    have here := valid p (List.mem_cons_self ..)
    refine ⟨⟨⟨p.time, here⟩, round4 (.finite p.price)⟩ :: points, ?_, ?_⟩
    · rw [List.mapM_cons, made, instant, dif_pos here]
      rfl
    · exact congrArg _ shows

/-- Points in the order of time, a low and a high among their prices that are below and above all of them, and the
price that is stated now. -/
structure Sound (t : Trend) (current : Rat) : Prop where
  times : t.points.Pairwise fun p q => p.time.ms < q.time.ms
  low : ∀ p ∈ t.points, AtMost t.low p.price
  high : ∀ p ∈ t.points, AtMost p.price t.high
  lowOf : ∃ p ∈ t.points, p.price = t.low
  highOf : ∃ p ∈ t.points, p.price = t.high
  now : t.now = round4 (.finite current)

theorem Shows.times {points : List Point} {moments : List Moment} (shows : Shows points moments) :
    points.map (·.time.ms) = moments.map (·.time) := by
  have firsts := congrArg (List.map Prod.fst) shows
  rwa [List.map_map, List.map_map] at firsts

theorem Shows.exists_point {points : List Point} {moments : List Moment} (shows : Shows points moments) {m : Moment}
    (among : m ∈ moments) : ∃ p ∈ points, p.price = round4 (.finite m.price) := by
  have there : (m.time, round4 (.finite m.price)) ∈ points.map fun p => (p.time.ms, p.price) := by
    rw [shows]
    exact List.mem_map.2 ⟨m, among, rfl⟩
  obtain ⟨p, isPoint, same⟩ := List.mem_map.1 there
  exact ⟨p, isPoint, (Prod.mk.inj same).2⟩

theorem Shows.exists_moment {points : List Point} {moments : List Moment} (shows : Shows points moments) {p : Point}
    (among : p ∈ points) : ∃ m ∈ moments, p.time.ms = m.time ∧ p.price = round4 (.finite m.price) := by
  have there : (p.time.ms, p.price) ∈ moments.map fun m => (m.time, round4 (.finite m.price)) := by
    rw [← shows]
    exact List.mem_map.2 ⟨p, among, rfl⟩
  obtain ⟨m, isMoment, same⟩ := List.mem_map.1 there
  exact ⟨m, isMoment, (Prod.mk.inj same).1.symm, (Prod.mk.inj same).2.symm⟩

theorem trendOf_sound {first : Moment} {rest : List Moment} (currency : Option String)
    (strict : (first :: rest).Pairwise (·.time < ·.time))
    (valid : ∀ p ∈ first :: rest, p.time.natAbs ≤ 8640000000000000) :
    ∃ t, trendOf first rest currency = .ok t ∧ Sound t ((first :: rest).getLast (List.cons_ne_nil _ _)).price ∧
      Shows t.points (first :: rest) := by
  obtain ⟨points, made, shows⟩ := mapM_shows valid
  refine ⟨_, by rw [trendOf, made]; rfl, ?_, shows⟩
  have lowest := best (·.price) first rest
  have highest := best (fun p => -p.price) first rest
  simp only [neg_lt_neg_iff, neg_le_neg_iff] at highest
  constructor
  · exact List.pairwise_map.1 (shows.times ▸ List.pairwise_map.2 strict)
  · intro p among
    obtain ⟨m, inside, -, price⟩ := shows.exists_moment among
    rw [price]
    exact round4_mono (lowest.2 m inside)
  · intro p among
    obtain ⟨m, inside, -, price⟩ := shows.exists_moment among
    rw [price]
    exact round4_mono (highest.2 m inside)
  · exact shows.exists_point lowest.1
  · exact shows.exists_point highest.1
  · rfl

theorem clean_values (moments : List Moment) :
    clean (moments.map fun p => (.value p.time, .value p.price)) = Histories.ordered (·.time) moments := by
  have same : (moments.map fun p => ((.value p.time : Cell Int), (.value p.price : Cell Rat))).filterMap
      (fun (time, price) => time.finite.bind fun time => price.finite.map (Moment.mk time)) = moments := by
    rw [List.filterMap_map]
    exact List.filterMap_some
  rw [clean, same, Histories.ordered]

/-- A trend of moments with the last no earlier than the others. -/
theorem trend_sound (moments : List Moment) (last : Moment) (currency : Option String)
    (later : ∀ p ∈ moments, p.time ≤ last.time)
    (valid : ∀ p ∈ moments ++ [last], p.time.natAbs ≤ 8640000000000000) :
    ∃ t, trend ((moments ++ [last]).map fun p => (.value p.time, .value p.price)) currency = .ok (some t) ∧
      Sound t last.price ∧ ∀ p ∈ t.points, ∃ m ∈ moments ++ [last], p.time.ms = m.time ∧
        p.price = round4 (.finite m.price) := by
  have sorted : (Histories.ordered (·.time) (moments ++ [last])).Pairwise (·.time ≤ ·.time) :=
    List.pairwise_insertionSort (fun p q : Moment => p.time ≤ q.time) _
  have distinct := distinct_byTime sorted
  have atEnd := distinct.last
  rw [Histories.ordered_append later, List.getLast?_concat] at atEnd
  unfold trend
  rw [clean_values, Histories.ordered_append later]
  rw [Histories.ordered_append later] at distinct
  split
  · rename_i nothing
    rw [nothing] at atEnd
    cases atEnd
  · rename_i first rest byTime
    rw [byTime] at atEnd distinct
    have within : ∀ p ∈ first :: rest, p ∈ moments ++ [last] := by
      intro p among
      rcases List.mem_append.1 (distinct.within p among) with inside | isLast
      · exact List.mem_append_left _ ((List.mem_insertionSort _).1 inside)
      · exact List.mem_append_right _ isLast
    obtain ⟨t, made, sound, shows⟩ := trendOf_sound currency distinct.strict fun p among => valid p (within p among)
    rw [List.getLast?_eq_getLast_of_ne_nil (List.cons_ne_nil _ _)] at atEnd
    rw [Option.some.inj atEnd] at sound
    refine ⟨t, by rw [made]; rfl, sound, fun p among => ?_⟩
    obtain ⟨m, inside, same⟩ := shows.exists_moment among
    exact ⟨m, within m inside, same⟩

/-- A number among the moments' prices, rounded. -/
def Among (moments : List Moment) (shown : Double) : Prop := ∃ m ∈ moments, shown = round4 (.finite m.price)

/-- Every price that a trend reports is one of its moments'. -/
structure Within (t : Trend) (moments : List Moment) : Prop where
  points : ∀ p ∈ t.points, Among moments p.price
  low : Among moments t.low
  high : Among moments t.high
  now : Among moments t.now

theorem trendOf_within {first : Moment} {rest : List Moment} {currency : Option String} {t : Trend}
    (made : trendOf first rest currency = .ok t) : Within t (first :: rest) ∧ t.currency = orNull currency := by
  obtain ⟨points, dated, made⟩ := Answers.bind_ok.mp made
  cases made
  have lowest := best (·.price) first rest
  have highest := best (fun p => -p.price) first rest
  simp only [neg_lt_neg_iff] at highest
  refine ⟨⟨fun p among => ?_, ⟨_, lowest.1, rfl⟩, ⟨_, highest.1, rfl⟩, ⟨_, List.getLast_mem _, rfl⟩⟩, rfl⟩
  obtain ⟨m, inside, shown⟩ := Answers.mapM_ok dated among
  obtain ⟨time, -, shown⟩ := Answers.bind_ok.mp shown
  cases shown
  exact ⟨m, inside, rfl⟩

theorem trend_within {moments : List Moment} {currency : Option String} {t : Trend}
    (made : trend (moments.map fun p => (.value p.time, .value p.price)) currency = .ok (some t)) :
    Within t moments ∧ t.currency = orNull currency := by
  have distinct := distinct_byTime (List.pairwise_insertionSort (fun p q : Moment => p.time ≤ q.time) moments)
  unfold trend at made
  rw [clean_values] at made
  split at made
  · cases made
  · rename_i first rest byTime
    obtain ⟨_, isTrend, same⟩ := Answers.map_ok.mp made
    cases same
    obtain ⟨within, currency⟩ := trendOf_within isTrend
    have inside {shown : Double} : Among (first :: rest) shown → Among moments shown := by
      rintro ⟨m, among, same⟩
      rw [← byTime] at among
      exact ⟨m, (List.mem_insertionSort _).1 (distinct.within m among), same⟩
    exact ⟨⟨fun p among => inside (within.points p among), inside within.low, inside within.high,
      inside within.now⟩, currency⟩

/-! ### The trend of a plan -/

/-- Every time that is given is one that a date can have. -/
def Dated (time : Cell Int) : Prop := ∀ ms, time.finite = some ms → ms.natAbs ≤ 8640000000000000

theorem le_foldl_max (times : List Int) (now : Int) :
    now ≤ times.foldl max now ∧ (∀ t ∈ times, t ≤ times.foldl max now) ∧
      (times.foldl max now = now ∨ times.foldl max now ∈ times) := by
  induction times generalizing now with
  | nil => simp
  | cons t rest ih =>
    obtain ⟨low, all, is⟩ := ih (max now t)
    rw [List.foldl_cons]
    refine ⟨(le_max_left _ _).trans low, fun u among => ?_, ?_⟩
    · rcases List.mem_cons.1 among with rfl | later
      · exact (le_max_right _ _).trans low
      · exact all u later
    · rcases is with is | later
      · rcases max_choice now t with isNow | isT
        · exact .inl (is.trans isNow)
        · exact .inr (List.mem_cons.2 (.inl (is.trans isT)))
      · exact .inr (List.mem_cons_of_mem _ later)

/-- The moments of a plan end in its current price, at a time no earlier than the others. -/
theorem planPoints_shape (plan : Plan) (current : Rat) (changes : List Row) (now : Int) (first : Dated plan.firstSeenAt)
    (checked : Dated plan.checkedAt) (rows : ∀ c ∈ changes, Dated c.observedAt) (today : now.natAbs ≤ 8640000000000000) :
    ∃ moments last, planPoints plan current changes now = moments ++ [last] ∧ last.price = current ∧
      (∀ p ∈ moments, p.time ≤ last.time) ∧ ∀ p ∈ moments ++ [last], p.time.natAbs ≤ 8640000000000000 := by
  have firstAt : ((plan.firstSeenAt.finite.or plan.checkedAt.finite).getD now).natAbs ≤ 8640000000000000 := by
    cases seen : plan.firstSeenAt.finite with
    | some ms => exact first ms seen
    | none =>
      cases found : plan.checkedAt.finite with
      | some ms => exact checked ms found
      | none => exact today
  unfold planPoints
  dsimp only
  generalize (plan.firstSeenAt.finite.or plan.checkedAt.finite).getD now = firstAt' at firstAt ⊢
  split
  · exact ⟨[], ⟨firstAt', current⟩, rfl, rfl, by simp, by simpa using firstAt⟩
  · have dated : ∀ p ∈ changePoints firstAt' (rowsIn plan.currency changes), p.time.natAbs ≤ 8640000000000000 := by
      intro p among
      have row {c : Row} (kept : c ∈ rowsIn plan.currency changes) : c.time.natAbs ≤ 8640000000000000 := by
        obtain ⟨inside, fits⟩ := List.mem_filter.1 ((List.mem_insertionSort _).1 kept)
        obtain ⟨ms, isTime⟩ := Option.isSome_iff_exists.1 (Bool.and_eq_true_iff.1 fits).2
        rw [Row.time, isTime]
        exact rows c inside ms isTime
      rcases List.mem_append.1 among with before | after
      · obtain ⟨price, -, rfl⟩ := Option.map_eq_some_iff.1 (Option.mem_toList.1 before)
        exact firstAt
      · obtain ⟨c, kept, made⟩ := List.mem_filterMap.1 after
        obtain ⟨price, -, rfl⟩ := Option.map_eq_some_iff.1 made
        exact row kept
    generalize changePoints firstAt' (rowsIn plan.currency changes) = points at dated
    obtain ⟨-, top, isTop⟩ := le_foldl_max (points.map (·.time)) now
    have below : ∀ p ∈ points, p.time ≤ (points.map (·.time)).foldl max now := fun p among =>
      top p.time (List.mem_map_of_mem among)
    have inRange : ((points.map (·.time)).foldl max now).natAbs ≤ 8640000000000000 := by
      rcases isTop with same | among
      · rwa [same]
      · obtain ⟨p, isPoint, same⟩ := List.mem_map.1 among
        rw [← same]
        exact dated p isPoint
    unfold withCurrent
    dsimp only
    split
    · rename_i ends
      obtain ⟨moments, whole⟩ := List.getLast?_eq_some_iff.1 ends
      refine ⟨moments, _, whole, rfl, fun p among => below p ?_, fun p among => dated p (by rwa [whole])⟩
      rw [whole]
      exact List.mem_append_left _ among
    · refine ⟨points, _, rfl, rfl, below, fun p among => ?_⟩
      rcases List.mem_append.1 among with inside | isLast
      · exact dated p inside
      · rw [List.mem_singleton.1 isLast]
        exact inRange

/-- A price of the plan's trend is the current one, or one of a row in the plan's currency. -/
theorem mem_planPoints {plan : Plan} {current : Rat} {changes : List Row} {now : Int} {m : Moment}
    (among : m ∈ planPoints plan current changes now) : m.price = current ∨
      ∃ c ∈ changes, orNull c.currency = orNull plan.currency ∧
        (c.before.finite = some m.price ∨ c.after.finite = some m.price) := by
  have ofRow {c : Row} (kept : c ∈ rowsIn plan.currency changes) :
      c ∈ changes ∧ orNull c.currency = orNull plan.currency := by
    obtain ⟨inside, fits⟩ := List.mem_filter.1 ((List.mem_insertionSort _).1 kept)
    exact ⟨inside, of_decide_eq_true (Bool.and_eq_true_iff.1 fits).1⟩
  have change {firstAt : Int} (point : m ∈ changePoints firstAt (rowsIn plan.currency changes)) :
      ∃ c ∈ changes, orNull c.currency = orNull plan.currency ∧
        (c.before.finite = some m.price ∨ c.after.finite = some m.price) := by
    rcases List.mem_append.1 point with before | after
    · obtain ⟨price, isBefore, rfl⟩ := Option.map_eq_some_iff.1 (Option.mem_toList.1 before)
      obtain ⟨c, first, stated⟩ := Option.bind_eq_some_iff.1 isBefore
      obtain ⟨inside, same⟩ := ofRow (List.mem_of_head? first)
      exact ⟨c, inside, same, .inl stated⟩
    · obtain ⟨c, kept, made⟩ := List.mem_filterMap.1 after
      obtain ⟨price, stated, rfl⟩ := Option.map_eq_some_iff.1 made
      obtain ⟨inside, same⟩ := ofRow kept
      exact ⟨c, inside, same, .inr stated⟩
  unfold planPoints at among
  dsimp only at among
  split at among
  · exact .inl (congrArg Moment.price (List.mem_singleton.1 among))
  · unfold withCurrent at among
    dsimp only at among
    split at among
    · exact .inr (change among)
    · rcases List.mem_append.1 among with point | isLast
      · exact .inr (change point)
      · exact .inl (congrArg Moment.price (List.mem_singleton.1 isLast))

theorem planTrend_within {plan : Plan} {changes : List Row} {now : Int} {t : Trend}
    (made : planTrend plan changes now = .ok (some t)) :
    ∃ current, plan.priceMonthly.finite = some current ∧ Within t (planPoints plan current changes now) ∧
      t.currency = orNull plan.currency := by
  unfold planTrend at made
  split at made
  · cases made
  · rename_i current stated
    exact ⟨current, stated, trend_within made⟩

/-- With dates for times and for today, a plan that states its price has a trend, and the trend is sound. -/
theorem planTrend_sound (plan : Plan) (current : Rat) (changes : List Row) (now : Int)
    (stated : plan.priceMonthly = .value current) (first : Dated plan.firstSeenAt) (checked : Dated plan.checkedAt)
    (rows : ∀ c ∈ changes, Dated c.observedAt) (today : now.natAbs ≤ 8640000000000000) :
    ∃ t, planTrend plan changes now = .ok (some t) ∧ Sound t current := by
  obtain ⟨moments, last, made, price, later, valid⟩ := planPoints_shape plan current changes now first checked rows today
  obtain ⟨t, isTrend, sound, -⟩ := trend_sound moments last plan.currency later valid
  rw [price] at sound
  refine ⟨t, ?_, sound⟩
  unfold planTrend
  rw [stated]
  dsimp only [Cell.finite]
  rw [made, isTrend]

/-- A plan of ten dollars that cost eight. -/
def tenDollars : Plan := ⟨some "USD", .value 10, .value 1000, .null⟩

def fromEight : Row := ⟨some "USD", .value 2000, .value 8, .value 10⟩

theorem tenDollars_dated : Dated tenDollars.firstSeenAt ∧ Dated tenDollars.checkedAt ∧
    ∀ c ∈ [fromEight], Dated c.observedAt := by
  refine ⟨fun ms is => Option.some.inj is ▸ by decide, fun ms is => Option.some.inj is ▸ by decide, fun c among ms is => ?_⟩
  rw [List.mem_singleton.1 among] at is
  exact Option.some.inj is ▸ by decide

theorem tenDollars_sound : ∃ t, planTrend tenDollars [fromEight] 3000 = .ok (some t) ∧ Sound t 10 :=
  planTrend_sound tenDollars 10 [fromEight] 3000 rfl tenDollars_dated.1 tenDollars_dated.2.1 tenDollars_dated.2.2 (by decide)

/-- Past the last date there is no trend: the time of the last point is none that can be written. -/
theorem today_too_late : ¬∀ (plan : Plan) (current : Rat) (changes : List Row) (now : Int),
    plan.priceMonthly = .value current → Dated plan.firstSeenAt → Dated plan.checkedAt →
    (∀ c ∈ changes, Dated c.observedAt) → ∃ t, planTrend plan changes now = .ok (some t) ∧ Sound t current := by
  intro always
  have thrown : planTrend tenDollars [fromEight] 8640000000000001 = .error .rangeError := rfl
  obtain ⟨t, made, -⟩ := always tenDollars 10 [fromEight] 8640000000000001 rfl tenDollars_dated.1 tenDollars_dated.2.1
    tenDollars_dated.2.2
  rw [thrown] at made
  cases made

end OpenVibeHost.Trends
