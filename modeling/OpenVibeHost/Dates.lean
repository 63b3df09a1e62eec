import Mathlib.Data.String.Basic

/-! Dates as ECMAScript computes them: days since 1970, `Date.UTC`, and the text
of `toISOString` in both directions. -/
namespace OpenVibeHost.Dates

structure Fields where
  year : Nat
  month : Nat
  day : Nat
  hour : Nat
  minute : Nat
  second : Nat
  deriving DecidableEq, Repr

/-- The number that decimal digits write; none when a character is no digit. -/
def digits (text : List Char) : Option Nat :=
  text.foldlM (fun n c => if c.isDigit then some (10 * n + (c.toNat - '0'.toNat)) else none) 0

/-- `DayFromYear`, in days since 1970. -/
def dayFromYear (year : Int) : Int :=
  365 * (year - 1970) + (year - 1969) / 4 - (year - 1901) / 100 + (year - 1601) / 400

def inLeapYear (year : Int) : Bool :=
  year % 4 = 0 && (year % 100 ≠ 0 || year % 400 = 0)

/-- Where month `month`, from 0, starts in its year. -/
def monthStart (leap : Bool) (month : Nat) : Int :=
  [0, 31, 59, 90, 120, 151, 181, 212, 243, 273, 304, 334].getD month 0 +
    (if leap && 2 ≤ month then 1 else 0)

/-- `MakeDay`: months beyond a year and dates beyond a month run on. -/
def makeDay (year month date : Int) : Int :=
  let y := year + month / 12
  dayFromYear y + monthStart (inLeapYear y) (month % 12).toNat + date - 1

/-- `Date.UTC` in milliseconds. A year below 100 is taken in the twentieth century. -/
def utc (fields : Fields) : Int :=
  let year : Int := if fields.year ≤ 99 then 1900 + fields.year else fields.year
  let seconds := (fields.hour * 60 + fields.minute) * 60 + fields.second
  (makeDay year (fields.month - 1) fields.day * 86400 + seconds) * 1000

/-- The year a day lies in: the guess from the mean year is off by at most one. -/
def yearFromDay (day : Int) : Int :=
  let year := 1970 + day * 400 / 146097
  if day < dayFromYear year then year - 1
  else if dayFromYear (year + 1) ≤ day then year + 1
  else year

/-- The month, from 0, of a day of a year. -/
def monthOf (leap : Bool) (dayInYear : Int) : Nat :=
  ((List.range 12).filter fun month => 1 ≤ month ∧ monthStart leap month ≤ dayInYear).length

/-- The fields of a time since 1970. -/
def fieldsOf (ms : Nat) : Fields :=
  let seconds := ms / 1000
  let day : Int := (seconds / 86400 : Nat)
  let year := yearFromDay day
  let dayInYear := day - dayFromYear year
  let month := monthOf (inLeapYear year) dayInYear
  { year := year.toNat
    month := month + 1
    day := (dayInYear - monthStart (inLeapYear year) month).toNat + 1
    hour := seconds % 86400 / 3600
    minute := seconds % 3600 / 60
    second := seconds % 60 }

def digit (n : Nat) : Char := Char.ofNat ('0'.toNat + n % 10)

/-- The last `width` decimal digits of a number. -/
def pad : Nat → Nat → List Char
  | 0, _ => []
  | width + 1, n => pad width (n / 10) ++ [digit n]

/-- The year of `toISOString`: from the year 10000 on, with a sign and six digits. -/
def yearText (year : Nat) : List Char := if year ≤ 9999 then pad 4 year else '+' :: pad 6 year

/-- `toISOString` of a time since 1970. -/
def isoString (ms : Nat) : String :=
  let f := fieldsOf ms
  String.ofList (yearText f.year ++ ['-'] ++ pad 2 f.month ++ ['-'] ++ pad 2 f.day ++ ['T'] ++
    pad 2 f.hour ++ [':'] ++ pad 2 f.minute ++ [':'] ++ pad 2 f.second ++ ['.'] ++
    pad 3 (ms % 1000) ++ ['Z'])

/-- The year an ISO text starts with, and the rest of it. -/
def yearOf : List Char → Option (Nat × List Char)
  | '+' :: y₁ :: y₂ :: y₃ :: y₄ :: y₅ :: y₆ :: rest =>
    (digits [y₁, y₂, y₃, y₄, y₅, y₆]).map (·, rest)
  | y₁ :: y₂ :: y₃ :: y₄ :: rest => (digits [y₁, y₂, y₃, y₄]).map (·, rest)
  | _ => none

/-- `Date.parse` of the text of `toISOString`; of other texts none. -/
def dateParse (text : String) : Option Int :=
  match yearOf text.toList with
  | some (year, ['-', m₁, m₂, '-', d₁, d₂, 'T', h₁, h₂, ':', i₁, i₂, ':', s₁, s₂, '.',
      f₁, f₂, f₃, 'Z']) => do
    let month ← digits [m₁, m₂]
    let day ← digits [d₁, d₂]
    let hour ← digits [h₁, h₂]
    let minute ← digits [i₁, i₂]
    let second ← digits [s₁, s₂]
    let ms ← digits [f₁, f₂, f₃]
    let seconds := (hour * 60 + minute) * 60 + second
    return (makeDay year (month - 1) day * 86400 + seconds) * 1000 + ms
  | _ => none

/-- `stamp` of `commands/backup.js`: the text of `toISOString` up to the seconds,
without its dashes and colons. -/
def stamp (ms : Nat) : String :=
  let f := fieldsOf ms
  String.ofList (yearText f.year ++ pad 2 f.month ++ pad 2 f.day ++ ['-'] ++
    pad 2 f.hour ++ pad 2 f.minute ++ pad 2 f.second)

end OpenVibeHost.Dates
