import OpenVibeHost.Pieces
import OpenVibeHost.PriceTrends
import Mathlib.Data.List.Dedup

/-! The cheapest price of a domain ending over time, `tldTrend` of `server/catalog/trend.js`: each registrar's price is
a step function of time, and the market's is the lowest of the steps. -/
namespace OpenVibeHost.Trends
open Doubles

/-! ### The rows -/

inductive Field where
  | register
  | renew

/-- A time that a date can have, with one before it. -/
abbrev Time : Type := {ms : Int // -8640000000000000 < ms ∧ ms ≤ 8640000000000000}

/-- A row of `catalog_tld_prices`, as far as the trend reads it. -/
structure Registrar where
  id : String
  currency : Option String
  register : Option Rat
  renew : Option Rat
  firstSeenAt : Time
  checkedAt : Int

/-- A row of `catalog_tld_price_changes`. -/
structure TldChange where
  priceId : String
  currency : Option String
  observedAt : Time
  registerBefore : Option Rat
  registerAfter : Option Rat
  renewBefore : Option Rat
  renewAfter : Option Rat

def Registrar.price (r : Registrar) : Field → Option Rat
  | .register => r.register
  | .renew => r.renew

def TldChange.before (c : TldChange) : Field → Option Rat
  | .register => c.registerBefore
  | .renew => c.renewBefore

def TldChange.after (c : TldChange) : Field → Option Rat
  | .register => c.registerAfter
  | .renew => c.renewAfter

/-- A price of the database, which is a number or null. -/
def cell : Option Rat → Cell Rat
  | none => .null
  | some q => .value q

/-! ### The trend -/

structure Step where
  time : Int
  value : Option Rat

/-- The changes of a registrar's price, in the order of time. -/
def ownChanges (row : Registrar) (changes : List TldChange) : List TldChange :=
  (changes.filter fun c => decide (c.priceId = row.id) && decide (orNull c.currency = orNull row.currency)).insertionSort
    (·.observedAt.val ≤ ·.observedAt.val)

/-- What is pushed when it is not null. -/
def stated (time : Int) (value : Option Rat) : List Step := (value.map fun v => Step.mk time (some v)).toList

def registrarSteps (row : Registrar) (changes : List TldChange) (field : Field) : List Step :=
  let steps :=
    match ownChanges row changes with
    | [] => stated row.firstSeenAt.val (cell (row.price field)).finite
    | c :: rest => stated row.firstSeenAt.val (cell (c.before field)).finite ++
        (c :: rest).map fun c => Step.mk c.observedAt.val (cell (c.after field)).finite
  -- the current value still holds at `now`
  if steps.isEmpty then [] else steps ++ [Step.mk row.checkedAt (cell (row.price field)).finite]

/-- `stepAt`, with the value so far. -/
def stepFrom (value : Option Rat) : List Step → Int → Option Rat
  | [], _ => value
  | s :: rest, time => if time < s.time then value else stepFrom s.value rest time

def stepAt (steps : List Step) (time : Int) : Option Rat := stepFrom none steps time

/-- `valueAt` of a field. -/
def valueAt (prices : List Registrar) (changes : List TldChange) (field : Field) (t : Int) : Option Rat :=
  (prices.filterMap fun row => stepAt (registrarSteps row changes field) t).min?

/-- What a market value function shows at an event. -/
def eventPoints (value : Int → Option Rat) (first : Bool) (t : Int) : List Moment :=
  if first then (value t).toList.map (Moment.mk t)
  else if value (t - 1) = value t then []
  else (value (t - 1)).toList.map (Moment.mk (t - 1)) ++ (value t).toList.map (Moment.mk t)

def marketSteps (events : List Int) (value : Int → Option Rat) (now : Int) : List Moment :=
  let points := events.flatMap fun t => eventPoints value (decide (events.head? = some t)) t
  match value now with
  | none => points
  | some current =>
    if points.getLast?.all (·.time < now) then points ++ [⟨now, current⟩] else points

/-- `prices`: the rows in dollars. -/
def inDollars (rows : List Registrar) : List Registrar := rows.filter fun r => decide (orNull r.currency = some "USD")

def times (prices : List Registrar) (changes : List TldChange) (now : Time) : List Int :=
  (prices.map (·.firstSeenAt.val) ++ changes.map (·.observedAt.val) ++ [now.val]).dedup.insertionSort (· ≤ ·)

def market (prices : List Registrar) (changes : List TldChange) (now : Time) (field : Field) : List Moment :=
  marketSteps (times prices changes now) (valueAt prices changes field) now.val

/-- The trend of points, none when there are none. -/
def trendOfPoints (points : List Moment) : Except Fault (Option Trend) :=
  if points = [] then .ok none else trend (points.map fun p => (.value p.time, .value p.price)) (some "USD")

structure TldTrend where
  register : Option Trend
  renew : Option Trend

def tldTrend (rows : List Registrar) (changes : List TldChange) (now : Time) : Except Fault (Option TldTrend) :=
  let prices := inDollars rows
  if prices = [] then .ok none
  else do
    let register ← trendOfPoints (market prices changes now .register)
    let renew ← trendOfPoints (market prices changes now .renew)
    return some { register := register, renew := renew }

def TldTrend.get (t : TldTrend) : Field → Option Trend
  | .register => t.register
  | .renew => t.renew

/-! ### What a registrar states -/

/-- The price of a registrar at a time, which can be unknown: the current one when it has been checked and no change is
still to come, the one after the last change, or the one before the first. -/
def inForce (row : Registrar) (changes : List TldChange) (field : Field) (t : Int) : Option (Option Rat) :=
  let own := ownChanges row changes
  if t < row.firstSeenAt.val then none
  else if (∀ c ∈ own, c.observedAt.val ≤ t) ∧ row.checkedAt ≤ t then some (row.price field)
  else
    match (own.filter fun c => c.observedAt.val ≤ t).getLast? with
    | some c => some (c.after field)
    | none => some (own.head?.elim (row.price field) (·.before field))

/-- The prices that registrars state at a time. -/
def Stated (prices : List Registrar) (changes : List TldChange) (field : Field) (t : Int) : Set Rat :=
  {p | ∃ row ∈ prices, inForce row changes field t = some (some p)}

/-- The lowest price that a registrar states. -/
def lowest (prices : List Registrar) (changes : List TldChange) (field : Field) (t : Int) : Option Rat :=
  (prices.filterMap fun row => (inForce row changes field t).join).min?

/-- The market price is the lowest that is stated at each time, and the trend shows it: at its points, and now. -/
structure Shown (rows : List Registrar) (changes : List TldChange) (now : Time) (field : Field) : Prop where
  market : ∀ t, valueAt (inDollars rows) changes field t = lowest (inDollars rows) changes field t
  trend : ∃ result, tldTrend rows changes now = .ok result ∧
    (result.bind (·.get field)).map (·.now) =
      (lowest (inDollars rows) changes field now.val).map (fun p => round4 (.finite p)) ∧
    ∀ t, result.bind (·.get field) = some t → ∀ p ∈ t.points, ∃ m,
      lowest (inDollars rows) changes field p.time.ms = some m ∧ p.price = round4 (.finite m)

/-- An unknown price is in force at no time, unless a registrar states a price of zero or less then. -/
def Known (prices : List Registrar) (changes : List TldChange) (field : Field) : Prop :=
  ∀ t, (∃ row ∈ prices, inForce row changes field t = some none) → ∃ p ∈ Stated prices changes field t, p ≤ 0

/-- No change of the market price is dated after now, or the last such leads back to the price of now. -/
def Returns (prices : List Registrar) (changes : List TldChange) (now : Time) (field : Field) : Prop :=
  ∀ t ∈ times prices changes now, now.val < t →
    lowest prices changes field (t - 1) ≠ lowest prices changes field t →
    (∀ later ∈ times prices changes now, t < later →
      lowest prices changes field (later - 1) = lowest prices changes field later) →
    (lowest prices changes field t).map (fun p => round4 (.finite p)) =
      (lowest prices changes field now.val).map fun p => round4 (.finite p)

/-! ### Steps and what is stated -/

theorem cell_finite (price : Option Rat) : (cell price).finite = some (price.getD 0) := by
  cases price <;> rfl

/-- The steps of a registrar: the first sighting, the changes, the current price. -/
theorem registrarSteps_eq (row : Registrar) (changes : List TldChange) (field : Field) :
    registrarSteps row changes field =
      ⟨row.firstSeenAt.val, some (((ownChanges row changes).head?.elim (row.price field) (·.before field)).getD 0)⟩ ::
        ((ownChanges row changes).map (fun c => ⟨c.observedAt.val, some ((c.after field).getD 0)⟩) ++
          [⟨row.checkedAt, some ((row.price field).getD 0)⟩]) := by
  unfold registrarSteps
  cases ownChanges row changes with
  | nil => simp [stated, cell_finite]
  | cons c rest => simp [stated, cell_finite]

theorem stepFrom_own {own : List TldChange} (sorted : own.Pairwise (·.observedAt.val ≤ ·.observedAt.val)) (field : Field)
    (value current : Option Rat) (checkedAt t : Int) :
    stepFrom value (own.map (fun c => ⟨c.observedAt.val, some ((c.after field).getD 0)⟩) ++ [⟨checkedAt, current⟩]) t =
      if (∀ c ∈ own, c.observedAt.val ≤ t) ∧ checkedAt ≤ t then current
      else
        match (own.filter fun c => c.observedAt.val ≤ t).getLast? with
        | some c => some ((c.after field).getD 0)
        | none => value := by
  induction own generalizing value with
  | nil =>
    rw [List.map_nil, List.nil_append, stepFrom, stepFrom]
    by_cases early : t < checkedAt
    · rw [if_pos early, if_neg (fun all => not_le.2 early all.2)]
      rfl
    · rw [if_neg early, if_pos ⟨by simp, not_lt.1 early⟩]
  | cons c rest ih =>
    obtain ⟨later, sorted⟩ := List.pairwise_cons.1 sorted
    rw [List.map_cons, List.cons_append, stepFrom]
    by_cases early : t < c.observedAt.val
    · have none_yet : (c :: rest).filter (fun c => c.observedAt.val ≤ t) = [] := by
        refine List.filter_eq_nil_iff.2 fun d among => ?_
        rcases List.mem_cons.1 among with rfl | inside
        · simpa using early
        · simpa using early.trans_le (later d inside)
      rw [if_pos early, none_yet, if_neg]
      · rfl
      · exact fun all => absurd (all.1 c (List.mem_cons_self ..)) (not_le.2 early)
    · have reached : c.observedAt.val ≤ t := not_lt.1 early
      rw [if_neg early, ih sorted, List.filter_cons_of_pos (by simpa using reached), List.getLast?_cons]
      simp only [List.forall_mem_cons, reached, true_and]
      cases (rest.filter fun c => c.observedAt.val ≤ t).getLast? <;> rfl

/-- A step function takes a registrar's price in force, and zero for an unknown one. -/
theorem stepAt_eq (row : Registrar) (changes : List TldChange) (field : Field) (t : Int) :
    stepAt (registrarSteps row changes field) t = (inForce row changes field t).map (·.getD 0) := by
  have sorted : (ownChanges row changes).Pairwise (·.observedAt.val ≤ ·.observedAt.val) :=
    List.pairwise_insertionSort (fun c d : TldChange => c.observedAt.val ≤ d.observedAt.val) _
  rw [stepAt, registrarSteps_eq, stepFrom, inForce]
  split
  · rfl
  · rw [stepFrom_own sorted]
    split
    · rfl
    · split <;> rfl

/-! ### The market -/

variable {prices : List Registrar} {changes : List TldChange} {field : Field} {now : Time} {t : Int}

/-- The least with zeros for what is unknown is the least of what is known, just when what is unknown makes no
difference. -/
theorem min_zeros_iff (values : List (Option Rat)) :
    (values.map (·.getD 0)).min? = (values.filterMap id).min? ↔
      (none ∈ values → ∃ p, some p ∈ values ∧ p ≤ 0) := by
  constructor
  · intro same unknown
    cases least : (values.map (·.getD 0)).min? with
    | none =>
      rw [List.map_eq_nil_iff.1 (List.min?_eq_none_iff.1 least)] at unknown
      cases unknown
    | some m =>
      obtain ⟨-, below⟩ := List.min?_eq_some_iff.1 least
      obtain ⟨among, -⟩ := List.min?_eq_some_iff.1 (same.symm.trans least)
      exact ⟨m, by simpa using among, below 0 (List.mem_map.2 ⟨none, unknown, rfl⟩)⟩
  · intro harmless
    cases least : (values.filterMap id).min? with
    | none =>
      -- then nothing at all is in force, since what is unknown would need a price beside it
      have unstated (p : Rat) : some p ∉ values := fun among => by
        have there : p ∈ values.filterMap id := by simpa using among
        rw [List.min?_eq_none_iff.1 least] at there
        cases there
      have known : none ∉ values := fun unknown => by
        obtain ⟨p, isStated, -⟩ := harmless unknown
        exact unstated p isStated
      have nothing : values = [] := List.eq_nil_iff_forall_not_mem.2 fun value => by
        cases value with
        | none => exact known
        | some p => exact unstated p
      rw [nothing]
      rfl
    | some m =>
      obtain ⟨among, below⟩ := List.min?_eq_some_iff.1 least
      refine List.min?_eq_some_iff.2 ⟨List.mem_map.2 ⟨some m, by simpa using among, rfl⟩, fun b inside => ?_⟩
      obtain ⟨value, isValue, rfl⟩ := List.mem_map.1 inside
      cases value with
      | some p => exact below p (by simpa using isValue)
      | none =>
        obtain ⟨p, isStated, notAbove⟩ := harmless isValue
        exact (below p (by simpa using isStated)).trans notAbove

theorem valueAt_eq (prices : List Registrar) (changes : List TldChange) (field : Field) (t : Int) :
    valueAt prices changes field t =
      ((prices.filterMap fun row => inForce row changes field t).map (·.getD 0)).min? := by
  rw [valueAt, List.map_filterMap]
  simp only [stepAt_eq]

theorem lowest_eq (prices : List Registrar) (changes : List TldChange) (field : Field) (t : Int) :
    lowest prices changes field t = ((prices.filterMap fun row => inForce row changes field t).filterMap id).min? := by
  rw [lowest, List.filterMap_filterMap]
  rfl

/-- The lowest price is the least of those that are stated. -/
theorem lowest_eq_some_iff {m : Rat} :
    lowest prices changes field t = some m ↔ IsLeast (Stated prices changes field t) m := by
  rw [lowest, List.min?_eq_some_iff]
  simp [IsLeast, lowerBounds, Stated, List.mem_filterMap, Option.join_eq_some_iff]

theorem market_iff : (∀ t, valueAt prices changes field t = lowest prices changes field t) ↔ Known prices changes field := by
  refine forall_congr' fun t => ?_
  rw [valueAt_eq, lowest_eq, min_zeros_iff]
  simp [Stated, List.mem_filterMap]

/-! ### The points of the market -/

section Points

variable {value : Int → Option Rat} {events : List Int} {today : Int}

theorem eventPoints_value {first : Bool} {p : Moment} (among : p ∈ eventPoints value first t) :
    value p.time = some p.price ∧ (p.time = t ∨ p.time = t - 1 ∧ first = false) := by
  have shown {time : Int} (inside : p ∈ (value time).toList.map (Moment.mk time)) :
      value p.time = some p.price ∧ p.time = time := by
    obtain ⟨price, isPrice, rfl⟩ := List.mem_map.1 inside
    exact ⟨Option.mem_toList.1 isPrice, rfl⟩
  unfold eventPoints at among
  split at among
  · exact ⟨(shown among).1, .inl (shown among).2⟩
  · rename_i notFirst
    split at among
    · cases among
    · rcases List.mem_append.1 among with before | here
      · exact ⟨(shown before).1, .inr ⟨(shown before).2, by simpa using notFirst⟩⟩
      · exact ⟨(shown here).1, .inl (shown here).2⟩

/-- What the events show, before the price of today is added. -/
def shownAt (events : List Int) (value : Int → Option Rat) : List Moment :=
  events.flatMap fun t => eventPoints value (decide (events.head? = some t)) t

theorem mem_shownAt {p : Moment} (among : p ∈ shownAt events value) :
    value p.time = some p.price ∧ ∃ t ∈ events, p.time = t ∨ (p.time = t - 1 ∧ events.head? ≠ some t) := by
  obtain ⟨t, isEvent, here⟩ := List.mem_flatMap.1 among
  obtain ⟨isPrice, time⟩ := eventPoints_value here
  exact ⟨isPrice, t, isEvent, time.imp id fun ⟨time, other⟩ => ⟨time, of_decide_eq_false other⟩⟩

theorem marketSteps_eq : marketSteps events value today = shownAt events value ++
    (if (shownAt events value).getLast?.all (·.time < today) then (value today).toList.map (Moment.mk today) else []) := by
  unfold marketSteps shownAt
  cases value today with
  | none => simp
  | some current =>
    dsimp only
    split <;> simp

/-- Each point shows the market at its time. -/
theorem mem_marketSteps {p : Moment} (among : p ∈ marketSteps events value today) : value p.time = some p.price := by
  rw [marketSteps_eq] at among
  rcases List.mem_append.1 among with inside | added
  · exact (mem_shownAt inside).1
  · split at added
    · obtain ⟨price, isPrice, rfl⟩ := List.mem_map.1 added
      exact Option.mem_toList.1 isPrice
    · cases added

theorem eventPoints_sorted (value : Int → Option Rat) (first : Bool) (t : Int) :
    (eventPoints value first t).Pairwise (·.time ≤ ·.time) := by
  have single (time : Int) : ((value time).toList.map (Moment.mk time)).Pairwise (·.time ≤ ·.time) := by
    cases value time <;> simp
  unfold eventPoints
  split
  · exact single t
  · split
    · exact List.Pairwise.nil
    · refine List.pairwise_append.2 ⟨single _, single _, fun p before q here => ?_⟩
      obtain ⟨_, -, rfl⟩ := List.mem_map.1 before
      obtain ⟨_, -, rfl⟩ := List.mem_map.1 here
      exact (sub_one_lt t).le

/-- The points are in the order of time. -/
theorem shownAt_sorted (sorted : events.Pairwise (· < ·)) : (shownAt events value).Pairwise (·.time ≤ ·.time) := by
  refine List.pairwise_flatMap.2 ⟨fun t _ => eventPoints_sorted value _ t, sorted.imp fun {t u} lower p first q second => ?_⟩
  have one := (eventPoints_value first).2
  have two := (eventPoints_value second).2
  omega

/-- The last event after today at which the market changes. -/
structure Late (events : List Int) (value : Int → Option Rat) (today t : Int) : Prop where
  event : t ∈ events
  after : today < t
  changes : value (t - 1) ≠ value t
  last : ∀ later ∈ events, t < later → value (later - 1) = value later

theorem eventPoints_same {later : Int} (same : value (later - 1) = value later) :
    eventPoints value false later = [] := by
  rw [eventPoints, if_neg Bool.false_ne_true, if_pos same]

theorem head_le (sorted : events.Pairwise (· < ·)) {first : Int} (isFirst : events.head? = some first) :
    ∀ t ∈ events, first ≤ t := by
  cases events with
  | nil => cases isFirst
  | cons e rest =>
    obtain rfl := Option.some.inj isFirst
    intro t among
    rcases List.mem_cons.1 among with rfl | later
    · exact le_refl _
    · exact ((List.pairwise_cons.1 sorted).1 t later).le

theorem not_first (sorted : events.Pairwise (· < ·)) (there : today ∈ events) {t : Int} (after : today < t) :
    decide (events.head? = some t) = false :=
  decide_eq_false fun first => not_le.2 after (head_le sorted first today there)

/-- The last point is that of the last change after today. -/
theorem shownAt_late (sorted : events.Pairwise (· < ·)) (there : today ∈ events) (late : Late events value today t)
    {price : Rat} (isPrice : value t = some price) : (shownAt events value).getLast? = some ⟨t, price⟩ := by
  obtain ⟨before, after, split⟩ := List.append_of_mem late.event
  have laterOnes : ∀ later ∈ after, later ∈ events ∧ t < later := by
    intro later among
    have order := sorted
    rw [split] at order ⊢
    exact ⟨List.mem_append_right _ (List.mem_cons_of_mem _ among),
      (List.pairwise_cons.1 (List.pairwise_append.1 order).2.1).1 later among⟩
  have nothing : after.flatMap (fun t => eventPoints value (decide (events.head? = some t)) t) = [] := by
    refine List.flatMap_eq_nil_iff.2 fun later among => ?_
    obtain ⟨isEvent, beyond⟩ := laterOnes later among
    rw [not_first sorted there (late.after.trans beyond)]
    exact eventPoints_same (late.last later isEvent beyond)
  have here : eventPoints value (decide (events.head? = some t)) t =
      (value (t - 1)).toList.map (Moment.mk (t - 1)) ++ [⟨t, price⟩] := by
    rw [not_first sorted there late.after, eventPoints, if_neg Bool.false_ne_true, if_neg late.changes, isPrice]
    rfl
  rw [shownAt, congrArg (List.flatMap _) split, List.flatMap_append, List.flatMap_cons, nothing, here]
  simp

/-- Without a change after today no point is after today. -/
theorem shownAt_until (sorted : events.Pairwise (· < ·)) (there : today ∈ events)
    (none : ∀ t, ¬Late events value today t) : ∀ p ∈ shownAt events value, p.time ≤ today := by
  have still : ∀ t ∈ events, today < t → value (t - 1) = value t := by
    intro t isEvent after
    by_contra changes
    obtain ⟨before, u, later, split, ⟨isAfter, isChange⟩, rest⟩ :=
      Pieces.exists_last (p := fun t => today < t ∧ value (t - 1) ≠ value t) ⟨t, isEvent, after, changes⟩
    refine none u ⟨split ▸ (by simp), isAfter, isChange, fun v isLater beyond => ?_⟩
    by_contra apart
    rw [split] at isLater sorted
    have inside : v ∈ later := by
      rcases List.mem_append.1 isLater with inBefore | inRest
      · have lower := (List.pairwise_append.1 sorted).2.2 v inBefore u (List.mem_cons_self ..)
        omega
      · rcases List.mem_cons.1 inRest with rfl | inLater
        · exact absurd beyond (lt_irrefl _)
        · exact inLater
    exact rest v inside ⟨isAfter.trans beyond, apart⟩
  intro p among
  obtain ⟨t, isEvent, here⟩ := List.mem_flatMap.1 among
  by_cases after : today < t
  · rw [not_first sorted there after, eventPoints_same (still t isEvent after)] at here
    cases here
  · have time := (eventPoints_value here).2
    omega

/-- Where the market has a price today, the last point is that of the last change after today, or of today. -/
theorem marketSteps_last (sorted : events.Pairwise (· < ·)) (there : today ∈ events) {current : Rat}
    (isCurrent : value today = some current) (stays : ∀ t, today < t → value t ≠ none) :
    ∃ last, (marketSteps events value today).getLast? = some last ∧
      ((∀ t, ¬Late events value today t) ∧ last.price = current ∨
        ∃ t, Late events value today t ∧ value t = some last.price) := by
  rw [marketSteps_eq]
  by_cases late : ∃ t, Late events value today t
  · obtain ⟨t, late⟩ := late
    obtain ⟨price, isPrice⟩ := Option.ne_none_iff_exists'.1 (stays t late.after)
    have last := shownAt_late sorted there late isPrice
    rw [last, Option.all_some, if_neg (by simpa using late.after.le), List.append_nil]
    exact ⟨_, last, .inr ⟨t, late, isPrice⟩⟩
  · have none : ∀ t, ¬Late events value today t := fun t isLate => late ⟨t, isLate⟩
    have until_today := shownAt_until sorted there none
    split
    · exact ⟨⟨today, current⟩, by simp [isCurrent], .inl ⟨none, rfl⟩⟩
    · rename_i notBefore
      cases isLast : (shownAt events value).getLast? with
      | none => exact absurd (by rw [isLast]; rfl) notBefore
      | some last =>
        have among := List.mem_of_getLast? isLast
        rw [isLast, Option.all_some, decide_eq_true_eq] at notBefore
        have time : last.time = today := le_antisymm (until_today last among) (not_lt.1 notBefore)
        have price := (mem_shownAt among).1
        rw [time, isCurrent] at price
        rw [List.append_nil]
        exact ⟨last, isLast, .inl ⟨none, (Option.some.inj price).symm⟩⟩

end Points

/-! ### The trend of the market -/

theorem inForce_eq_none_iff {row : Registrar} : inForce row changes field t = none ↔ t < row.firstSeenAt.val := by
  unfold inForce
  dsimp only
  split
  · simpa
  · rename_i seen
    simp only [seen, iff_false]
    split
    · simp
    · split <;> simp

/-- The market has a price from the first sighting on. -/
theorem valueAt_eq_none_iff : valueAt prices changes field t = none ↔ ∀ row ∈ prices, t < row.firstSeenAt.val := by
  rw [valueAt_eq, List.min?_eq_none_iff, List.map_eq_nil_iff, List.filterMap_eq_nil_iff]
  exact forall₂_congr fun row _ => inForce_eq_none_iff

theorem mem_times : t ∈ times prices changes now ↔
    (∃ row ∈ prices, row.firstSeenAt.val = t) ∨ (∃ c ∈ changes, c.observedAt.val = t) ∨ t = now.val := by
  simp [times, List.mem_insertionSort]

theorem times_sorted (prices : List Registrar) (changes : List TldChange) (now : Time) :
    (times prices changes now).Pairwise (· < ·) := by
  have order := List.pairwise_insertionSort (fun a b : Int => a ≤ b)
    (prices.map (·.firstSeenAt.val) ++ changes.map (·.observedAt.val) ++ [now.val]).dedup
  have once : (times prices changes now).Nodup :=
    ((List.perm_insertionSort (fun a b : Int => a ≤ b) _).nodup_iff).2 (List.nodup_dedup _)
  exact order.imp₂ (fun _ _ le ne => lt_of_le_of_ne le ne) once

theorem times_dated (among : t ∈ times prices changes now) : -8640000000000000 < t ∧ t ≤ 8640000000000000 := by
  rcases mem_times.1 among with ⟨row, -, rfl⟩ | ⟨c, -, rfl⟩ | rfl
  · exact row.firstSeenAt.property
  · exact c.observedAt.property
  · exact now.property

theorem market_dated {p : Moment} (among : p ∈ market prices changes now field) :
    p.time.natAbs ≤ 8640000000000000 := by
  rw [market, marketSteps_eq] at among
  rcases List.mem_append.1 among with inside | added
  · obtain ⟨-, t, isEvent, time⟩ := mem_shownAt inside
    have dated := times_dated isEvent
    omega
  · split at added
    · obtain ⟨price, -, rfl⟩ := List.mem_map.1 added
      have dated := now.property
      dsimp only
      omega
    · cases added

theorem market_sorted (prices : List Registrar) (changes : List TldChange) (now : Time) (field : Field) :
    (market prices changes now field).Pairwise (·.time ≤ ·.time) := by
  have sorted := @shownAt_sorted (valueAt prices changes field) _ (times_sorted prices changes now)
  rw [market, marketSteps_eq]
  split
  · rename_i before
    refine List.pairwise_append.2 ⟨sorted, by cases valueAt prices changes field now.val <;> simp, fun p among q added => ?_⟩
    obtain ⟨price, -, rfl⟩ := List.mem_map.1 added
    obtain ⟨moments, last, split⟩ := (List.eq_nil_or_concat' _).resolve_left (List.ne_nil_of_mem among)
    rw [split, List.getLast?_concat, Option.all_some, decide_eq_true_eq] at before
    rw [split] at among sorted
    rcases List.mem_append.1 among with inside | isLast
    · exact ((List.pairwise_append.1 sorted).2.2 p inside last (List.mem_singleton_self _)).trans before.le
    · exact List.mem_singleton.1 isLast ▸ before.le
  · rwa [List.append_nil]

/-- The trend shows the market at its points, and now the last of its points. -/
theorem trendOfPoints_market (prices : List Registrar) (changes : List TldChange) (now : Time) (field : Field) :
    ∃ result, trendOfPoints (market prices changes now field) = .ok result ∧
      result.map (·.now) = (market prices changes now field).getLast?.map (fun p => round4 (.finite p.price)) ∧
      ∀ t, result = some t → ∀ p ∈ t.points, ∃ m,
        valueAt prices changes field p.time.ms = some m ∧ p.price = round4 (.finite m) := by
  have sorted := market_sorted prices changes now field
  have dated : ∀ p ∈ market prices changes now field, p.time.natAbs ≤ 8640000000000000 := fun p among => market_dated among
  have shown : ∀ p ∈ market prices changes now field, valueAt prices changes field p.time = some p.price := fun p among =>
    mem_marketSteps among
  generalize market prices changes now field = points at sorted dated shown ⊢
  rcases List.eq_nil_or_concat' points with rfl | ⟨moments, last, rfl⟩
  · exact ⟨none, rfl, rfl, fun t isTrend => by cases isTrend⟩
  · obtain ⟨-, -, later⟩ := List.pairwise_append.1 sorted
    obtain ⟨t, made, sound, within⟩ := trend_sound moments last (some "USD")
      (fun p among => later p among last (List.mem_singleton_self _)) dated
    refine ⟨some t, ?_, ?_, fun t' isTrend p among => ?_⟩
    · rw [trendOfPoints, if_neg (by simp), made]
    · simp [sound.now]
    · obtain rfl := Option.some.inj isTrend
      obtain ⟨m, inside, time, price⟩ := within p among
      exact ⟨m.price, time ▸ shown m inside, price⟩

/-! ### What is shown -/

/-- A registrar in dollars has been seen by now, if there is one. -/
def Seen (prices : List Registrar) (now : Time) : Prop :=
  prices = [] ∨ ∃ row ∈ prices, row.firstSeenAt.val ≤ now.val

theorem tldTrend_cases (rows : List Registrar) (changes : List TldChange) (now : Time) (field : Field) :
    ∃ result, tldTrend rows changes now = .ok result ∧
      (inDollars rows = [] ∧ result = none ∨ inDollars rows ≠ [] ∧
        trendOfPoints (market (inDollars rows) changes now field) = .ok (result.bind (·.get field))) := by
  unfold tldTrend
  dsimp only
  split
  · rename_i nobody
    exact ⟨none, rfl, .inl ⟨nobody, rfl⟩⟩
  · rename_i somebody
    obtain ⟨register, made, -⟩ := trendOfPoints_market (inDollars rows) changes now .register
    obtain ⟨renew, made', -⟩ := trendOfPoints_market (inDollars rows) changes now .renew
    refine ⟨some ⟨register, renew⟩, by rw [made, made']; rfl, .inr ⟨somebody, ?_⟩⟩
    cases field with
    | register => exact made
    | renew => exact made'

/-- Someone who is first seen after now is shown then. -/
theorem market_ne_nil (somebody : prices ≠ []) (unseen : ∀ row ∈ prices, now.val < row.firstSeenAt.val) :
    market prices changes now field ≠ [] := by
  obtain ⟨first, isFirst⟩ := Option.ne_none_iff_exists'.1
    (show (prices.map (·.firstSeenAt.val)).min? ≠ none by simpa [List.min?_eq_none_iff] using somebody)
  obtain ⟨among, least⟩ := List.min?_eq_some_iff.1 isFirst
  obtain ⟨row, isRow, rfl⟩ := List.mem_map.1 among
  have earliest : ∀ other ∈ prices, row.firstSeenAt.val ≤ other.firstSeenAt.val := fun other isOther =>
    least _ (List.mem_map_of_mem isOther)
  have before : valueAt prices changes field (row.firstSeenAt.val - 1) = none :=
    valueAt_eq_none_iff.2 fun other isOther => by have := earliest other isOther; omega
  obtain ⟨price, here⟩ := Option.ne_none_iff_exists'.1
    (show valueAt prices changes field row.firstSeenAt.val ≠ none from fun nothing =>
      lt_irrefl _ (valueAt_eq_none_iff.1 nothing row isRow))
  have point : (⟨row.firstSeenAt.val, price⟩ : Moment) ∈
      shownAt (times prices changes now) (valueAt prices changes field) := by
    refine List.mem_flatMap.2 ⟨row.firstSeenAt.val, mem_times.2 (.inl ⟨row, isRow, rfl⟩), ?_⟩
    rw [not_first (times_sorted prices changes now) (mem_times.2 (.inr (.inr rfl))) (unseen row isRow), eventPoints,
      if_neg Bool.false_ne_true, before, here, if_neg (by simp)]
    simp
  rw [market, marketSteps_eq]
  exact List.ne_nil_of_mem (List.mem_append_left _ point)

theorem Late.unique {value : Int → Option Rat} {events : List Int} {today t u : Int} (one : Late events value today t)
    (two : Late events value today u) : t = u := by
  rcases lt_trichotomy t u with lower | same | higher
  · exact absurd (one.last u two.event lower) two.changes
  · exact same
  · exact absurd (two.last t one.event higher) one.changes

/-- Where someone has been seen by now, the trend ends in the price of the last change after now, or of now. -/
theorem market_last (seen : ∃ row ∈ prices, row.firstSeenAt.val ≤ now.val) :
    ∃ last, (market prices changes now field).getLast? = some last ∧
      ((∀ t, ¬Late (times prices changes now) (valueAt prices changes field) now.val t) ∧
          valueAt prices changes field now.val = some last.price ∨
        ∃ t, Late (times prices changes now) (valueAt prices changes field) now.val t ∧
          valueAt prices changes field t = some last.price) := by
  obtain ⟨row, isRow, byNow⟩ := seen
  have stays (t : Int) (later : now.val ≤ t) : valueAt prices changes field t ≠ none := fun nothing =>
    not_lt.2 (byNow.trans later) (valueAt_eq_none_iff.1 nothing row isRow)
  obtain ⟨current, isCurrent⟩ := Option.ne_none_iff_exists'.1 (stays now.val (le_refl _))
  obtain ⟨last, isLast, shows⟩ := marketSteps_last (times_sorted prices changes now) (mem_times.2 (.inr (.inr rfl)))
    isCurrent fun t after => stays t after.le
  exact ⟨last, isLast, shows.imp (fun ⟨quiet, price⟩ => ⟨quiet, price ▸ isCurrent⟩) id⟩

/-- The trend shows the lowest prices that are stated just when no unknown price is in force without a price of zero
beside it, someone has been seen by now, and no change after now leads to another price than that of now. -/
theorem shown_iff (rows : List Registrar) (changes : List TldChange) (now : Time) (field : Field) :
    Shown rows changes now field ↔
      Known (inDollars rows) changes field ∧ Seen (inDollars rows) now ∧ Returns (inDollars rows) changes now field := by
  obtain ⟨result, made, cases⟩ := tldTrend_cases rows changes now field
  constructor
  · rintro ⟨same, result', made', isNow, -⟩
    obtain rfl : result = result' := Except.ok.inj (made.symm.trans made')
    refine ⟨market_iff.1 same, ?_⟩
    have same : valueAt (inDollars rows) changes field = lowest (inDollars rows) changes field := funext same
    rcases cases with ⟨nobody, -⟩ | ⟨somebody, trend⟩
    · refine ⟨.inl nobody, fun t _ _ apart => absurd ?_ apart⟩
      rw [nobody]
      rfl
    obtain ⟨result', made', isLast, -⟩ := trendOfPoints_market (inDollars rows) changes now field
    obtain rfl := Except.ok.inj (trend.symm.trans made')
    rw [isNow] at isLast
    have seen : ∃ row ∈ inDollars rows, row.firstSeenAt.val ≤ now.val := by
      by_contra unseen
      push Not at unseen
      have nothing := (@valueAt_eq_none_iff (inDollars rows) changes field now.val).2 unseen
      rw [same] at nothing
      rw [nothing] at isLast
      exact market_ne_nil somebody unseen (List.getLast?_eq_none_iff.1 (Option.map_eq_none_iff.1 isLast.symm))
    refine ⟨.inr seen, fun t isEvent after changes' last => ?_⟩
    have late : Late (times (inDollars rows) changes now) (valueAt (inDollars rows) changes field) now.val t :=
      same ▸ ⟨isEvent, after, changes', last⟩
    obtain ⟨point, isPoint, ⟨quiet, -⟩ | ⟨u, isLate, price⟩⟩ :=
      @market_last (inDollars rows) changes field now seen
    · exact absurd late (quiet t)
    · obtain rfl := late.unique isLate
      rw [isLast, isPoint, ← same, price]
      rfl
  · rintro ⟨known, seen, returns⟩
    have same := market_iff.2 known
    refine ⟨same, result, made, ?_⟩
    have same : valueAt (inDollars rows) changes field = lowest (inDollars rows) changes field := funext same
    rcases cases with ⟨nobody, rfl⟩ | ⟨somebody, trend⟩
    · rw [nobody]
      exact ⟨rfl, fun t isTrend => by cases isTrend⟩
    obtain ⟨result', made', isLast, points⟩ := trendOfPoints_market (inDollars rows) changes now field
    obtain rfl := Except.ok.inj (trend.symm.trans made')
    rw [same] at points
    refine ⟨?_, points⟩
    obtain ⟨point, isPoint, ⟨-, price⟩ | ⟨t, late, price⟩⟩ :=
      @market_last (inDollars rows) changes field now (seen.resolve_left somebody)
    · rw [isLast, isPoint, ← same, price]
      rfl
    · rw [same] at late price
      rw [isLast, isPoint, ← returns t late.event late.after late.changes late.last, price]
      rfl

/-- A registrar that states a renewal price and none for a registration. -/
def renewalOnly : Registrar := ⟨"tlp_1", some "USD", none, some 12, ⟨1000, by decide⟩, 2000⟩

/-- Its unknown registration price is shown as zero. -/
theorem unknown_as_zero : ¬∀ (rows : List Registrar) (changes : List TldChange) (now : Time) (field : Field),
    Shown rows changes now field := by
  intro always
  have market := (always [renewalOnly] [] ⟨3000, by decide⟩ .register).market 3000
  have zero : valueAt (inDollars [renewalOnly]) [] .register 3000 = some 0 := rfl
  have nothing : lowest (inDollars [renewalOnly]) [] .register 3000 = none := rfl
  rw [zero, nothing] at market
  cases market

end OpenVibeHost.Trends
