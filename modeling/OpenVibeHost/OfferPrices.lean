import OpenVibeHost.Doubles
import OpenVibeHost.EnvFile
import OpenVibeHost.Mapping
import OpenVibeHost.Matching
import Mathlib.Data.List.Sort

/-! The prices that an offer states (server/catalog/offers.js), found by two regular expressions: the currency before
the number, and the currency after it. A reported price keeps the place of the digits it was read from. -/
namespace OpenVibeHost.Catalog.Offers

open Doubles (Double)
open EnvFile (space)
open Matching

/-! ### Reading prices -/

def digit (c : Char) : Bool := c.isDigit

def point (c : Char) : Bool := c = '.' || c = ','

/-- `AMOUNT`. -/
def amount : Reader (List Char) := joined (many digit 1 5) (optional (joined (one point) (many digit 1 2)))

/-- `CURRENCY`, under the symbols of `SYMBOL` in small letters. -/
def currencies : List (List Char × String) :=
  [("us$".toList, "USD"), ("$".toList, "USD"), ("€".toList, "EUR"), ("£".toList, "GBP"), ("usd".toList, "USD"),
   ("eur".toList, "EUR"), ("gbp".toList, "GBP")]

inductive Period where
  | month
  | year
  deriving DecidableEq

/-- `PERIOD`. -/
def periods : List (List Char × Period) :=
  [("mo".toList, .month), ("mon".toList, .month), ("mth".toList, .month), ("month".toList, .month),
   ("monthly".toList, .month), ("yr".toList, .year), ("year".toList, .year), ("yearly".toList, .year),
   ("annually".toList, .year), ("annum".toList, .year)]

def links : List (List Char) := ["/".toList, "per".toList, "a".toList, "an".toList, "each".toList]

/-- `\b` behind a letter. -/
def wordEnd {α : Type} (a : α) : Reader α := fun text =>
  if text.head?.any fun c => c.isAlphanum || c = '_' then [] else [(a, text)]

def gap : Reader (List Char) := optional (one space)

def symbol : Reader (List Char) := anyWord (currencies.map (·.1))

/-- `PER`. -/
def per : Reader (List Char) :=
  andThen (star space) fun _ => andThen (anyWord links) fun _ => andThen (star space) fun _ =>
    andThen (anyWord (periods.map (·.1))) wordEnd

/-- What a match reads: what stands before the digits, the digits, the symbol, and the period. -/
structure Reading where
  lead : List Char
  amount : List Char
  symbol : List Char
  period : List Char

/-- `BEFORE`. -/
def before : Reader Reading :=
  andThen symbol fun symbol => andThen gap fun gap => andThen amount fun amount => andThen per fun period text =>
    [(⟨symbol ++ gap, amount, symbol, period⟩, text)]

/-- A symbol and a period, behind a number. -/
def phrase : Reader (List Char × List Char) :=
  andThen gap fun _ => andThen symbol fun symbol => andThen per fun period text => [((symbol, period), text)]

/-- `AFTER`. -/
def after : Reader Reading :=
  andThen amount fun amount => andThen phrase fun (symbol, period) text => [(⟨[], amount, symbol, period⟩, text)]

/-- `replace(/\s+/g, ' ')`, behind white space or not. -/
def collapseFrom : Bool → List Char → List Char
  | _, [] => []
  | blank, c :: text =>
    if space c then (if blank then collapseFrom true text else ' ' :: collapseFrom true text)
    else c :: collapseFrom false text

def collapse (text : List Char) : List Char := collapseFrom false text

/-- `Number(amount.replace(',', '.'))`. -/
def amountOf (digits : List Char) : Double :=
  match Json.numberOfText (String.ofList (digits.map fun c => if c = ',' then '.' else c)) with
  | some x => Doubles.ofRat x
  | none => .nan

structure StatedPrice where
  text : String
  amount : Double
  currency : String
  period : Period
  monthly : Double

/-- A price, and the digits that it was read from between the rest of the text. -/
structure Reported where
  price : StatedPrice
  left : List Char
  digits : List Char
  right : List Char

/-- The amount of a match is a price. -/
def counts (digits : List Char) : Bool := Doubles.less (.finite 0) (amountOf digits)

def monthlyOf (n : Double) (period : Period) : Double :=
  let month := match period with
    | .year => Doubles.div n (.finite 12)
    | .month => n
  Doubles.div (Doubles.round (Doubles.mul month (.finite 10000))) (.finite 10000)

/-- `add`. -/
def report (f : Found Reading) : Option Reported := do
  let currency ← currencies.lookup (f.value.symbol.map Char.toLower)
  let period ← periods.lookup (f.value.period.map Char.toLower)
  let n := amountOf f.value.amount
  if counts f.value.amount then
    some {
      price := { text := String.ofList (EnvFile.trim f.whole), amount := n, currency, period, monthly := monthlyOf n period }
      left := f.seen.reverse ++ f.value.lead
      digits := f.value.amount
      right := f.whole.drop (f.value.lead.length + f.value.amount.length) ++ f.rest }
  else none

/-- The prices that a text states, the cheapest first, with their places in the collapsed text. -/
def reported (text : String) : List Reported :=
  let s := collapse text.toList
  ((matchAll before s ++ matchAll after s).filterMap report).insertionSort fun a b =>
    ! Doubles.less b.price.monthly a.price.monthly

/-- `statedPrices`. -/
def statedPrices (text : String) : List StatedPrice := (reported text).map (·.price)

/-! ### Whole numbers -/

/-- What numbers are made of. -/
def numeric (c : Char) : Bool := digit c || point c

/-- What may stand between groups of three digits, besides a point. -/
def grouping (c : Char) : Bool := c = ' ' || c = '\u0027' || c = '\u2019'

/-- A number goes on before some digits of it: with a digit, with a point that is its own first character or stands
behind a digit, or with a group of digits before three of them. The text before is given backwards. -/
def goesOnBefore (digits : List Char) : List Char → Bool
  | [] => false
  | c :: earlier =>
    digit c || (point c && earlier.head?.all fun d => digit d || d = ' ') ||
      (grouping c && (digits.takeWhile digit).length = 3 && earlier.head?.any digit)

/-- A number goes on behind some digits of it: with a digit, or with a separator and a digit. -/
def goesOnAfter : List Char → Bool
  | [] => false
  | c :: later => digit c || ((point c || grouping c) && later.head?.any digit)

/-- The digits are all of their number. -/
def Reported.Whole (r : Reported) : Prop :=
  goesOnBefore r.digits r.left.reverse = false ∧ goesOnAfter r.right = false

instance (r : Reported) : Decidable r.Whole := inferInstanceAs (Decidable (_ ∧ _))

/-- One to five digits, alone or with one or two more behind a point. -/
def IsAmount (number : List Char) : Prop :=
  ∃ whole decimals, number = whole ++ decimals ∧
    (1 ≤ whole.length ∧ whole.length ≤ 5 ∧ ∀ c ∈ whole, digit c = true) ∧
    (decimals = [] ∨ ∃ p more, decimals = p :: more ∧ point p = true ∧
      1 ≤ more.length ∧ more.length ≤ 2 ∧ ∀ c ∈ more, digit c = true)

/-- Wherever a currency and a period follow a number, what is before the longest amount that ends there is none of the
number, or the amount is zero. -/
def Clear (s : List Char) : Prop :=
  ∀ left digits rest, s = left ++ digits ++ rest → IsAmount digits → phrase rest ≠ [] → counts digits = true →
    (∀ more, more ≠ [] → more <:+ left → ¬ IsAmount (more ++ digits)) → goesOnBefore digits left.reverse = false

theorem mem_amount {text number rest : List Char} :
    (number, rest) ∈ amount text ↔ text = number ++ rest ∧ IsAmount number := by
  simp only [amount, mem_joined, mem_many, mem_optional, mem_one, IsAmount]
  constructor
  · rintro ⟨whole, decimals, between, rfl, ⟨rfl, some, few, digits⟩, ⟨_, more, after, rfl, ⟨p, rfl, rfl, pointed⟩, rfl,
      least, most, all⟩ | ⟨rfl, rfl⟩⟩
    · exact ⟨by simp, whole, _, rfl, ⟨some, few, digits⟩, .inr ⟨p, more, rfl, pointed, least, most, all⟩⟩
    · exact ⟨by simp, whole, [], by simp, ⟨some, few, digits⟩, .inl rfl⟩
  · rintro ⟨rfl, whole, decimals, rfl, ⟨some, few, digits⟩, none | ⟨p, more, shape, pointed, least, most, all⟩⟩
    · exact ⟨whole, decimals, decimals ++ rest, rfl, ⟨by simp, some, few, digits⟩, .inr ⟨none, by simp [none]⟩⟩
    · subst shape
      exact ⟨whole, p :: more, p :: more ++ rest, rfl, ⟨by simp, some, few, digits⟩,
        .inl ⟨[p], more, more ++ rest, rfl, ⟨p, rfl, rfl, pointed⟩, rfl, least, most, all⟩⟩

theorem IsAmount.numeric {number : List Char} (amount : IsAmount number) : ∀ c ∈ number, numeric c = true := by
  obtain ⟨whole, decimals, rfl, ⟨-, -, digits⟩, none | ⟨p, more, rfl, pointed, -, -, all⟩⟩ := amount
  · intro c mem
    simp [Offers.numeric, digits c (by simpa [none] using mem)]
  · intro c mem
    rcases List.mem_append.mp mem with inside | inside
    · simp [Offers.numeric, digits c inside]
    · rcases List.mem_cons.mp inside with rfl | inside
      · simp [Offers.numeric, pointed]
      · simp [Offers.numeric, all c inside]

/-- An amount begins with a digit. -/
theorem IsAmount.first {number : List Char} (amount : IsAmount number) :
    ∃ c more, number = c :: more ∧ digit c = true := by
  obtain ⟨whole, decimals, rfl, ⟨some, -, digits⟩, -⟩ := amount
  cases whole with
  | nil => simp at some
  | cons c whole => exact ⟨c, whole ++ decimals, rfl, digits c List.mem_cons_self⟩

/-! ### Words between numbers -/

/-- What is in no word. -/
def unworded (c : Char) : Bool := numeric c || grouping c

theorem lower_unworded {c : Char} (kind : unworded c = true) : c.toLower = c := by
  have letters : 'A'.val.toNat = 65 ∧ 'Z'.val.toNat = 90 := by decide
  unfold Char.toLower
  rw [dif_neg]
  rintro ⟨low, high⟩
  have range : ∀ n < 91, 65 ≤ n → unworded (Char.ofNat n) = false := by decide
  rw [ge_iff_le, UInt32.le_iff_toNat_le] at low
  rw [UInt32.le_iff_toNat_le] at high
  have code := range c.toNat (by simp only [Char.toNat]; omega) (by simp only [Char.toNat]; omega)
  rw [Char.ofNat_toNat, kind] at code
  cases code

/-- The words of a list are without numbers and blanks. -/
def wordy (words : List (List Char)) : Bool := words.all fun letters => letters.all fun c => ! unworded c

theorem worded {words : List (List Char)} (clean : wordy words = true) {text : List Char}
    (read : text.map Char.toLower ∈ words) : ∀ c ∈ text, unworded c = false := by
  intro c mem
  by_contra kind
  have letter := List.all_eq_true.mp (List.all_eq_true.mp clean _ read) c.toLower (List.mem_map_of_mem mem)
  rw [lower_unworded (by simpa using kind)] at letter
  simp [kind] at letter

theorem plain_of_worded {c : Char} (kind : unworded c = false) : numeric c = false := by
  simp_all [unworded]

theorem blank_plain {c : Char} (blank : space c = true) : numeric c = false := by
  have points : space '.' = false ∧ space ',' = false := by decide
  by_contra kind
  simp only [numeric, point, digit, Bool.not_eq_false, Bool.or_eq_true, decide_eq_true_eq] at kind
  rcases kind with digits | rfl | rfl
  · rw [EnvFile.digit_black digits] at blank
    cases blank
  · rw [points.1] at blank
    cases blank
  · rw [points.2] at blank
    cases blank

/-- A text of two characters at least, and no number. -/
structure Plain (text : List Char) : Prop where
  long : 2 ≤ text.length
  plain : ∀ c ∈ text, numeric c = false

theorem Plain.append {first second : List Char} (later : Plain second) (plain : ∀ c ∈ first, numeric c = false) :
    Plain (first ++ second) := by
  refine ⟨?_, fun c mem => ?_⟩
  · rw [List.length_append]
    exact later.long.trans (Nat.le_add_left _ _)
  · exact (List.mem_append.mp mem).elim (plain c) (later.plain c)

theorem Plain.stops {text : List Char} (plain : Plain text) (rest : List Char) : goesOnAfter (text ++ rest) = false := by
  obtain ⟨long, kinds⟩ := plain
  match text, long with
  | a :: b :: more, _ =>
    have first := kinds a (by simp)
    have second := kinds b (by simp)
    simp only [numeric, Bool.or_eq_false_iff] at first second
    simp [goesOnAfter, first.1, second.1]

/-! ### What a match reads -/

theorem mem_wordEnd {α : Type} {a b : α} {text rest : List Char} (read : (b, rest) ∈ wordEnd a text) :
    b = a ∧ rest = text := by
  unfold wordEnd at read
  split at read
  · cases read
  · simpa using read

theorem mem_per {text period rest : List Char} (read : (period, rest) ∈ per text) :
    ∃ taken, text = taken ++ rest ∧ Plain taken ∧ period.map Char.toLower ∈ periods.map (·.1) := by
  simp only [per, mem_andThen] at read
  obtain ⟨first, text₁, blanks, link, text₂, linked, second, text₃, blanks', word, text₄, read, ended⟩ := read
  obtain ⟨rfl, rfl⟩ := mem_wordEnd ended
  obtain ⟨rfl, plain⟩ := mem_star blanks
  obtain ⟨rfl, link_mem⟩ := mem_anyWord.mp linked
  obtain ⟨rfl, plain'⟩ := mem_star blanks'
  obtain ⟨rfl, period_mem⟩ := mem_anyWord.mp read
  have linkPlain := @worded links (by decide) _ link_mem
  have periodPlain := @worded (periods.map (·.1)) (by decide) _ period_mem
  have long : (periods.map (·.1)).all (fun letters => 2 ≤ letters.length) = true := by decide
  have long := of_decide_eq_true (List.all_eq_true.mp long _ period_mem)
  rw [List.length_map] at long
  refine ⟨first ++ (link ++ (second ++ period)), by simp, ?_, period_mem⟩
  refine Plain.append (Plain.append (Plain.append ⟨long, ?_⟩ ?_) ?_) ?_
  · exact fun c mem => plain_of_worded (periodPlain c mem)
  · exact fun c mem => blank_plain (plain' c mem)
  · exact fun c mem => plain_of_worded (linkPlain c mem)
  · exact fun c mem => blank_plain (plain c mem)

theorem mem_gap {text taken rest : List Char} (read : (taken, rest) ∈ gap text) :
    text = taken ++ rest ∧ (taken = [] ∨ ∃ c, taken = [c] ∧ space c = true) := by
  rcases mem_optional.mp read with one | ⟨rfl, rfl⟩
  · obtain ⟨c, rfl, rfl, blank⟩ := mem_one.mp one
    exact ⟨rfl, .inr ⟨c, rfl, blank⟩⟩
  · exact ⟨rfl, .inl rfl⟩

theorem mem_symbol {text taken rest : List Char} (read : (taken, rest) ∈ symbol text) :
    text = taken ++ rest ∧ taken.map Char.toLower ∈ currencies.map (·.1) ∧ ∀ c ∈ taken, unworded c = false := by
  obtain ⟨rfl, mem⟩ := mem_anyWord.mp read
  exact ⟨rfl, mem, @worded (currencies.map (·.1)) (by decide) _ mem⟩

theorem mem_phrase {text symbol period rest : List Char} (read : ((symbol, period), rest) ∈ phrase text) :
    ∃ taken, text = taken ++ rest ∧ Plain taken ∧ symbol.map Char.toLower ∈ currencies.map (·.1) ∧
      period.map Char.toLower ∈ periods.map (·.1) := by
  simp only [phrase, mem_andThen, List.mem_singleton, Prod.mk.injEq] at read
  obtain ⟨blank, text₁, gapped, _, text₂, currency, _, _, timed, ⟨rfl, rfl⟩, rfl⟩ := read
  obtain ⟨rfl, blanks⟩ := mem_gap gapped
  obtain ⟨rfl, listed, plain⟩ := mem_symbol currency
  obtain ⟨taken, rfl, more, known⟩ := mem_per timed
  refine ⟨blank ++ (symbol ++ taken), by simp, (more.append ?_).append ?_, listed, known⟩
  · exact fun c mem => plain_of_worded (plain c mem)
  · rcases blanks with rfl | ⟨c, rfl, blanks⟩
    · simp
    · simpa using blank_plain blanks

/-- A currency and a period begin with none of a number. -/
theorem phrase_stops {text : List Char} (stated : phrase text ≠ []) : text.takeWhile numeric = [] := by
  obtain ⟨⟨⟨symbol, period⟩, rest⟩, mem⟩ := List.exists_mem_of_ne_nil _ stated
  obtain ⟨taken, rfl, ⟨long, plain⟩, -⟩ := mem_phrase mem
  cases taken with
  | nil => simp at long
  | cons c taken => simp [plain c List.mem_cons_self]

theorem mem_after {text rest : List Char} {reading : Reading} :
    (reading, rest) ∈ after text ↔ ∃ between, text = reading.amount ++ between ∧ IsAmount reading.amount ∧
      ((reading.symbol, reading.period), rest) ∈ phrase between ∧ reading.lead = [] := by
  simp only [after, mem_andThen, mem_amount, List.mem_singleton, Prod.mk.injEq, Prod.exists]
  constructor
  · rintro ⟨number, between, ⟨rfl, amount⟩, symbol, period, _, stated, rfl, rfl⟩
    exact ⟨between, rfl, amount, stated, rfl⟩
  · rintro ⟨between, rfl, amount, stated, none⟩
    obtain ⟨lead, number, symbol, period⟩ := reading
    subst none
    exact ⟨number, between, ⟨rfl, amount⟩, symbol, period, rest, stated, rfl, rfl⟩

theorem mem_before {text rest : List Char} {reading : Reading} (read : (reading, rest) ∈ before text) :
    ∃ symbol blank taken, reading.lead = symbol ++ blank ∧ (blank = [] ∨ ∃ c, blank = [c] ∧ space c = true) ∧
      symbol ≠ [] ∧ (∀ c ∈ symbol, unworded c = false) ∧ Plain taken ∧
      text = reading.lead ++ reading.amount ++ taken ++ rest ∧ IsAmount reading.amount ∧
      reading.symbol.map Char.toLower ∈ currencies.map (·.1) ∧
      reading.period.map Char.toLower ∈ periods.map (·.1) := by
  simp only [before, mem_andThen, mem_amount, List.mem_singleton, Prod.mk.injEq] at read
  obtain ⟨symbol, text₁, currency, blank, text₂, gapped, number, text₃, ⟨rfl, amount⟩, period, _, timed, rfl, rfl⟩ := read
  obtain ⟨rfl, listed, plain⟩ := mem_symbol currency
  obtain ⟨rfl, blanks⟩ := mem_gap gapped
  obtain ⟨taken, rfl, more, known⟩ := mem_per timed
  have nonempty : (currencies.map (·.1)).all (fun letters => letters ≠ []) = true := by decide
  have nonempty := of_decide_eq_true (List.all_eq_true.mp nonempty _ listed)
  exact ⟨symbol, blank, taken, rfl, blanks, by simpa using nonempty, plain, more, by simp, amount, listed, known⟩

theorem after_proper : Proper after := by
  intro text reading rest read
  obtain ⟨between, rfl, amount, stated, -⟩ := mem_after.mp read
  obtain ⟨taken, rfl, -⟩ := mem_phrase stated
  obtain ⟨c, more, shape, -⟩ := amount.first
  exact ⟨reading.amount ++ taken, by simp [shape], by simp⟩

theorem before_proper : Proper before := by
  intro text reading rest read
  obtain ⟨symbol, blank, taken, lead, -, nonempty, -, -, rfl, -⟩ := mem_before read
  exact ⟨reading.lead ++ reading.amount ++ taken, by simp [lead, nonempty], rfl⟩

/-! ### What is reported -/

theorem lookup_of_mem {β : Type} {table : List (List Char × β)} {key : List Char} (mem : key ∈ table.map (·.1)) :
    ∃ value, table.lookup key = some value := by
  cases found : table.lookup key with
  | some value => exact ⟨value, rfl⟩
  | none =>
    obtain ⟨⟨_, value⟩, inside, rfl⟩ := List.mem_map.mp mem
    have differ := List.lookup_eq_none_iff.mp found _ inside
    simp at differ

/-- A match is reported, if its amount counts: with what is before and behind its digits. -/
theorem report_iff {f : Found Reading} (currency : f.value.symbol.map Char.toLower ∈ currencies.map (·.1))
    (period : f.value.period.map Char.toLower ∈ periods.map (·.1)) :
    (∃ r, report f = some r) ↔ counts f.value.amount = true := by
  obtain ⟨currency, known⟩ := lookup_of_mem currency
  obtain ⟨period, timed⟩ := lookup_of_mem period
  by_cases positive : counts f.value.amount = true
  · simp [report, known, timed, positive]
  · simp [report, known, timed, positive]

theorem report_eq {f : Found Reading} {r : Reported} (reported : report f = some r) :
    counts f.value.amount = true ∧ r.price.amount = amountOf f.value.amount ∧
      r.left = f.seen.reverse ++ f.value.lead ∧ r.digits = f.value.amount ∧
      r.right = f.whole.drop (f.value.lead.length + f.value.amount.length) ++ f.rest := by
  simp only [report, Option.bind_eq_bind, Option.bind_eq_some_iff] at reported
  obtain ⟨currency, -, period, -, chosen⟩ := reported
  split at chosen
  · rename_i positive
    obtain rfl := Option.some.inj chosen
    exact ⟨positive, rfl, rfl, rfl, rfl⟩
  · cases chosen

/-! ### Numbers before their currency -/

/-- A match of a number and what follows it. -/
structure Followed (f : Found Reading) (s taken : List Char) : Prop where
  plain : Plain taken
  whole : f.whole = f.value.amount ++ taken
  split : s = f.seen.reverse ++ (f.value.amount ++ (taken ++ f.rest))
  amount : IsAmount f.value.amount
  stated : phrase (taken ++ f.rest) ≠ []
  lead : f.value.lead = []
  currency : f.value.symbol.map Char.toLower ∈ currencies.map (·.1)
  period : f.value.period.map Char.toLower ∈ periods.map (·.1)

theorem followed {s : List Char} {f : Found Reading} (found : f ∈ matchAll after s) : ∃ taken, Followed f s taken := by
  obtain ⟨split, read, -⟩ := matchAll_in after_proper found
  obtain ⟨between, parts, amount, stated, lead⟩ := mem_after.mp (List.mem_of_head? read)
  obtain ⟨taken, rfl, plain, currency, period⟩ := mem_phrase stated
  rw [← List.append_assoc] at parts
  have whole := List.append_cancel_right parts
  refine ⟨taken, plain, whole, ?_, amount, List.ne_nil_of_mem stated, lead, currency, period⟩
  rw [split, whole]
  simp

/-- What is read of it as a price. -/
theorem Followed.reported {s taken : List Char} {f : Found Reading} (read : Followed f s taken) {r : Reported}
    (chosen : report f = some r) :
    r.left = f.seen.reverse ∧ r.digits = f.value.amount ∧ r.right = taken ++ f.rest := by
  obtain ⟨-, -, left, digits, right⟩ := report_eq chosen
  rw [read.lead, List.append_nil] at left
  refine ⟨left, digits, ?_⟩
  rw [right, read.lead, read.whole]
  simp

/-- The digits before what is no number are the last ones of the number. -/
theorem last_digits {a b rest rest' : List Char} (same : a ++ rest = b ++ rest') (first : ∀ c ∈ a, numeric c = true)
    (second : ∀ c ∈ b, numeric c = true) (stops : rest.takeWhile numeric = [])
    (stops' : rest'.takeWhile numeric = []) : a = b := by
  have taken := congrArg (List.takeWhile numeric) same
  rwa [List.takeWhile_append_of_pos first, List.takeWhile_append_of_pos second, stops, stops', List.append_nil,
    List.append_nil] at taken

/-- Every amount before a currency and a period is the end of one that is read. -/
theorem covered {s left digits rest : List Char} (split : s = left ++ digits ++ rest) (amount : IsAmount digits)
    (stated : phrase rest ≠ []) :
    ∃ f ∈ matchAll after s, ∃ more, left = f.seen.reverse ++ more ∧ f.value.amount = more ++ digits := by
  obtain ⟨c, later, shape, first⟩ := amount.first
  obtain ⟨⟨⟨symbol, period⟩, remains⟩, mem⟩ := List.exists_mem_of_ne_nil _ stated
  have reads : (⟨[], digits, symbol, period⟩, remains) ∈ after (c :: (later ++ rest)) :=
    mem_after.mpr ⟨rest, by simp [shape], amount, mem, rfl⟩
  obtain ⟨f, found, low, high⟩ := @matchAll_covers _ after after_proper left (later ++ rest) c (List.ne_nil_of_mem reads)
  rw [← List.cons_append, ← shape, ← List.append_assoc, ← split] at found
  obtain ⟨taken, read⟩ := followed found
  have same := split.symm.trans read.split
  rw [List.append_assoc] at same
  simp only [Found.start, Found.stop, read.whole, List.length_append] at low high
  obtain ⟨more, rfl, remaining⟩ : ∃ more, left = f.seen.reverse ++ more ∧
      f.value.amount ++ (taken ++ f.rest) = more ++ (digits ++ rest) := by
    rcases List.append_eq_append_iff.mp same with ⟨none, seen, later'⟩ | ⟨more, rfl, remaining⟩
    · have empty : none = [] := by
        have lengths := congrArg List.length seen
        rw [List.length_append, List.length_reverse] at lengths
        exact List.length_eq_zero_iff.mp (by omega)
      subst empty
      exact ⟨[], by simpa using seen.symm, later'.symm⟩
    · exact ⟨more, rfl, remaining⟩
  refine ⟨f, found, more, rfl, ?_⟩
  rw [List.length_append, List.length_reverse] at low high
  rcases List.append_eq_append_iff.mp remaining with ⟨between, rfl, later'⟩ | ⟨own, parts, later'⟩
  · -- the digits would begin within a currency and a period
    rw [List.length_append] at high
    rw [shape] at later'
    rcases List.append_eq_append_iff.mp later' with ⟨tail, rfl, -⟩ | ⟨tail, rfl, behind⟩
    · rw [List.length_append] at high
      omega
    · cases tail with
      | nil =>
        rw [List.append_nil] at high
        omega
      | cons d tail =>
        obtain ⟨rfl, -⟩ := List.cons.inj behind
        have plain := read.plain.plain c (by simp)
        simp [numeric, first] at plain
  · rw [parts]
    have numbers : ∀ c ∈ own, numeric c = true := fun c mem => read.amount.numeric c (by simp [parts, mem])
    rw [last_digits later' amount.numeric numbers (phrase_stops stated) (phrase_stops read.stated)]

/-! ### Whole prices -/

theorem mem_reported {text : String} {r : Reported} :
    r ∈ reported text ↔ ∃ f, (f ∈ matchAll before (collapse text.toList) ∨ f ∈ matchAll after (collapse text.toList)) ∧
      report f = some r := by
  simp only [reported, List.mem_insertionSort, List.mem_filterMap, List.mem_append]

/-- What is read with the currency first: nothing of the number is before or behind the digits. -/
theorem before_whole {s : List Char} {f : Found Reading} (found : f ∈ matchAll before s) {r : Reported}
    (chosen : report f = some r) : s = r.left ++ r.digits ++ r.right ∧ r.Whole := by
  obtain ⟨split, read, -⟩ := matchAll_in before_proper found
  obtain ⟨symbol, blank, taken, lead, blanks, nonempty, plain, more, parts, -⟩ :=
    mem_before (List.mem_of_head? read)
  have whole := List.append_cancel_right parts
  obtain ⟨-, -, left, digits, right⟩ := report_eq chosen
  have right : r.right = taken ++ f.rest := by
    rw [right, whole, ← List.length_append, List.drop_left]
  refine ⟨?_, ?_, ?_⟩
  · rw [split, whole, left, digits, right]
    simp
  · rw [left, lead, ← List.append_assoc]
    obtain ⟨first, last, rfl⟩ := (List.eq_nil_or_concat symbol).resolve_left nonempty
    have kind := plain last (by simp)
    simp only [unworded, numeric, Bool.or_eq_false_iff] at kind
    obtain ⟨⟨digits, points⟩, groups⟩ := kind
    rcases blanks with rfl | ⟨c, rfl, blank⟩
    · simp [goesOnBefore, digits, points, groups]
    · have kind := blank_plain blank
      simp only [numeric, Bool.or_eq_false_iff] at kind
      simp [goesOnBefore, kind.1, kind.2, digits]
  · rw [right]
    exact more.stops f.rest

/-- What is read with the currency behind: a number may go on before the digits. -/
theorem after_whole {s : List Char} {f : Found Reading} (found : f ∈ matchAll after s) {r : Reported}
    (chosen : report f = some r) :
    s = r.left ++ r.digits ++ r.right ∧ (r.Whole ↔ goesOnBefore r.digits r.left.reverse = false) := by
  obtain ⟨taken, read⟩ := followed found
  obtain ⟨left, digits, right⟩ := read.reported chosen
  refine ⟨?_, and_iff_left ?_⟩
  · rw [read.split, left, digits, right]
    simp
  · rw [right]
    exact read.plain.stops f.rest

/-- No amount that ends where a match's does is longer. -/
theorem longest {s more : List Char} {f : Found Reading} (found : f ∈ matchAll after s) (some : more ≠ [])
    (before : more <:+ f.seen.reverse) : ¬ IsAmount (more ++ f.value.amount) := by
  intro amount
  obtain ⟨taken, read⟩ := followed found
  obtain ⟨left, parts⟩ := before
  have long := List.length_pos_of_ne_nil some
  have lengths := congrArg List.length parts
  rw [List.length_append, List.length_reverse] at lengths
  obtain ⟨g, found', u, rfl, value⟩ : ∃ f' ∈ matchAll after s, ∃ u, left = f'.seen.reverse ++ u ∧
      f'.value.amount = u ++ (more ++ f.value.amount) :=
    covered (by rw [read.split, ← parts]; simp) amount read.stated
  obtain ⟨taken', read'⟩ := followed found'
  have short := congrArg List.length value
  have stop := congrArg List.length read'.whole
  simp only [List.length_append, List.length_reverse] at lengths short stop
  have positive : 0 < f.value.amount.length := by
    obtain ⟨c, rest, shape, -⟩ := read.amount.first
    rw [shape]
    exact Nat.succ_pos _
  rcases matchAll_apart after_proper found found' with rfl | apart | apart
  · omega
  · simp only [Found.start, Found.stop] at apart
    omega
  · simp only [Found.start, Found.stop] at apart
    omega

/-- A reported price is read from digits of the text; all of them are whole numbers just where nothing of a number is
before the longest amount before a currency and a period. -/
theorem stated_whole_iff (text : String) :
    (∀ r ∈ reported text, collapse text.toList = r.left ++ r.digits ++ r.right ∧ r.price.amount = amountOf r.digits) ∧
      ((∀ r ∈ reported text, r.Whole) ↔ Clear (collapse text.toList)) := by
  refine ⟨fun r mem => ?_, fun whole left digits rest split amount stated positive maximal => ?_, fun clear r mem => ?_⟩
  · obtain ⟨f, found, chosen⟩ := mem_reported.mp mem
    obtain ⟨-, value, -, digits, -⟩ := report_eq chosen
    refine ⟨?_, digits ▸ value⟩
    rcases found with found | found
    · exact (before_whole found chosen).1
    · exact (after_whole found chosen).1
  · obtain ⟨f, found, more, rfl, value⟩ := covered split amount stated
    obtain ⟨taken, read⟩ := followed found
    have empty : more = [] := by
      by_contra some
      exact maximal more some (List.suffix_append _ _) (value ▸ read.amount)
    subst empty
    rw [List.nil_append] at value
    obtain ⟨r, chosen⟩ := (report_iff read.currency read.period).mpr (value ▸ positive)
    obtain ⟨left, digits, -⟩ := read.reported chosen
    have begins := (whole r (mem_reported.mpr ⟨f, .inr found, chosen⟩)).1
    rwa [left, digits, value, ← List.append_nil f.seen.reverse] at begins
  · obtain ⟨f, found | found, chosen⟩ := mem_reported.mp mem
    · exact (before_whole found chosen).2
    · obtain ⟨split, whole⟩ := after_whole found chosen
      obtain ⟨taken, read⟩ := followed found
      obtain ⟨left, digits, right⟩ := read.reported chosen
      refine whole.mpr (clear _ _ _ split ?_ ?_ ?_ ?_)
      · exact digits ▸ read.amount
      · exact right ▸ read.stated
      · exact digits ▸ (report_eq chosen).1
      · rw [left, digits]
        exact fun more some before => longest found some before

/-- Of a thousand and more, the last three digits are a price. -/
theorem thousand_fragment :
    (reported "Dedicated server 1,299€/mo").map (fun r => (String.ofList r.digits, r.price.amount)) =
        [("299", .finite 299)] ∧
      ¬ ∀ r ∈ reported "Dedicated server 1,299€/mo", r.Whole := by
  decide +kernel

/-! ### Offers -/

/-- The keys of `SOURCES`. -/
def sourceKeys : List String := ["lowendspirit-offers", "lowendtalk-offers", "lowendbox-posts"]

/-- `MAX_AGE_DAYS`, in milliseconds. -/
def maxAgeMs : Int := 120 * 86400000

/-- Where a price was stated. -/
inductive Stated where
  | title
  | post
  deriving DecidableEq

/-- The values of an offer's row. -/
structure Offer where
  sourceKey : String
  externalId : String
  sourceItemId : Value
  title : String
  poster : Option String
  url : String
  publishedAt : Int
  priceText : Option String
  priceFrom : Option Stated
  priceAmount : Option Double
  priceCurrency : Option String
  pricePeriod : Option Period
  priceMonthly : Option Double
  checkedAt : Int
  firstSeenAt : Int

/-- `LEB_OFFER_CATEGORY`. -/
def offerCategory (text : String) : Bool := "low end ".toList.isPrefixOf (text.toList.map Char.toLower)

/-- `LEB_GIVEAWAY`. -/
def giveaway (text : String) : Bool :=
  text.toList.map Char.toLower ∈ ["giveaway".toList, "giveaways".toList]

/-- `String(value || '')`. -/
def textOf (value : Json) : String := if value.truthy then value.shown else ""

def categoriesOf (item : Json) : List String :=
  match Mapping.get (Mapping.get item "fields") "categories" with
  | .arr items => items.map Json.shown
  | _ => []

def posterOf (item : Json) : Option String :=
  match Mapping.get item "authors" with
  | .arr (.str author :: _) =>
    let name := String.ofList (slice 100 (EnvFile.trim author.toList))
    if name = "" then none else some name
  | _ => none

/-- `Date.parse(value || '')`. -/
def dateOf (rt : Runtime) (value : Json) : Option Int := if value.truthy then rt.parseDate value else none

/-- A LowEndBox post is an offer: it is filed as one, or its headline states a price and it is no giveaway. -/
def isOffer (item : Json) (inTitle : List StatedPrice) : Bool :=
  Mapping.textOr (Mapping.get item "source_key") ≠ "lowendbox-posts" ||
    (categoriesOf item).any offerCategory || (! inTitle.isEmpty && ! (categoriesOf item).any giveaway)

/-- The price of an offer: of its title, or else of its summary. -/
def priceOf (item : Json) (title : String) : Option StatedPrice :=
  match statedPrices title with
  | first :: _ => some first
  | [] => (statedPrices (textOf (Mapping.get item "summary"))).head?

/-- The values that `mapOffer` gives. -/
def offerOf (rt : Runtime) (item : Json) (key title url id : String) (published : Int) : Offer :=
  let provenance := Mapping.get item "provenance"
  let price := priceOf item title
  { sourceKey := key
    externalId := id
    sourceItemId := if (Mapping.get item "id").truthy then Mapping.itemId rt item else .null
    title
    poster := posterOf item
    url
    publishedAt := published
    priceText := price.map fun p => String.ofList (slice 80 p.text.toList)
    priceFrom := price.map fun _ => if (statedPrices title).isEmpty then .post else .title
    priceAmount := price.map (·.amount)
    priceCurrency := price.map (·.currency)
    pricePeriod := price.map (·.period)
    priceMonthly := price.map (·.monthly)
    checkedAt := (rt.parseDate (Mapping.get provenance "retrieved_at")).getD 0
    firstSeenAt := (rt.parseDate (Mapping.get provenance "first_seen_at")).getD 0 }

/-- `mapOffer`: none is no offer, or one that is too old. -/
def mapOffer (rt : Runtime) (item : Json) (now : Int) : Except Fault (Option Offer) :=
  let key := Mapping.textOr (Mapping.get item "source_key")
  let provenance := Mapping.get item "provenance"
  let title := String.ofList (slice 300 (EnvFile.trim (collapse (Mapping.textOr (Mapping.get item "title")).toList)))
  let url := Mapping.textOr (Mapping.get item "canonical_url")
  let id := String.ofList (EnvFile.trim (Mapping.textOr (Mapping.get item "identity")).toList)
  if key ∉ sourceKeys then .ok none
  else if ! (Mapping.get item "category").same (.str "hosting") || ! provenance.truthy ||
      ! (Mapping.get provenance "retrieved_at").truthy || ! (Mapping.get provenance "first_seen_at").truthy then
    .error (Mapping.typeError "incomplete hosting item")
  else
    match dateOf rt (Mapping.get item "published_at") with
    | none => .error (Mapping.typeError "offer needs a title, link, id and date")
    | some published =>
      if title = "" || id = "" || 2048 < units id || ! "https://".toList.isPrefixOf url.toList then
        .error (Mapping.typeError "offer needs a title, link, id and date")
      else if published < now - maxAgeMs || ! isOffer item (statedPrices title) then .ok none
      else .ok (some (offerOf rt item key title url id published))

theorem priceOf_stated (item : Json) (title : String) : ∃ text, priceOf item title = (statedPrices text).head? := by
  unfold priceOf
  cases stated : statedPrices title with
  | nil => exact ⟨_, rfl⟩
  | cons first others => exact ⟨title, by rw [stated, List.head?_cons]⟩

theorem mapOffer_some {rt : Runtime} {item : Json} {now : Int} {o : Offer} (mapped : mapOffer rt item now = .ok (some o)) :
    ∃ key title url id published, o = offerOf rt item key title url id published := by
  unfold mapOffer at mapped
  dsimp only at mapped
  split at mapped
  · cases mapped
  split at mapped
  · cases mapped
  split at mapped
  · cases mapped
  split at mapped
  · cases mapped
  split at mapped
  · cases mapped
  exact ⟨_, _, _, _, _, (Option.some.inj (Except.ok.inj mapped)).symm⟩

/-- The price of an offer is the cheapest that a text states. -/
theorem offer_price {rt : Runtime} {item : Json} {now : Int} {o : Offer} (mapped : mapOffer rt item now = .ok (some o)) :
    ∃ text, o.priceAmount = (statedPrices text).head?.map (·.amount) ∧
      o.priceMonthly = (statedPrices text).head?.map (·.monthly) := by
  obtain ⟨key, title, url, id, published, rfl⟩ := mapOffer_some mapped
  obtain ⟨text, stated⟩ := priceOf_stated item title
  exact ⟨text, by rw [← stated]; rfl, by rw [← stated]; rfl⟩

end OpenVibeHost.Catalog.Offers
