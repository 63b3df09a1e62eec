import OpenVibeHost.Decimals
import OpenVibeHost.Json

/-! The catalog's tables as the server sees them: values and rows, the columns
they are kept in, and the errors a request ends with. -/
namespace OpenVibeHost.Catalog

/-! ### Errors -/

/-- `ApiError`: a refusal with a stable problem code. -/
structure ApiError where
  status : Nat
  code : String
  message : String
  deriving DecidableEq

/-- What a request that does not answer ends with: a refusal, another error that
JavaScript threw, or one of the database. -/
inductive Fault where
  | api (error : ApiError)
  | thrown (message : String)
  | database (constraint : String)
  deriving DecidableEq

def invalid (message : String) : Fault := .api ⟨422, "host.catalog.invalid", message⟩

def missing : Fault := .api ⟨404, "host.catalog.not_found", "Catalog entry not found"⟩

/-! ### Values -/

/-- A JavaScript value on its way into or out of a row. Of an object, or an array
that holds anything but texts, the catalog looks at nothing. -/
inductive Value where
  | null
  | bool (value : Bool)
  | num (value : Rat)
  /-- The text of a numeric column, which the driver hands over; it reads as `value`. -/
  | decimal (value : Rat)
  | str (text : String)
  | texts (items : List String)
  | object
  deriving DecidableEq

namespace Value

/-- `Number(value)` where it is finite. -/
def number : Value → Option Rat
  | .null => some 0
  | .bool value => some (if value then 1 else 0)
  | .num value | .decimal value => some value
  | .str text => Json.numberOfText text
  | .texts items => Json.number (some (.arr (items.map .str)))
  | .object => none

/-- `typeof value === 'string'`. -/
def isText : Value → Bool
  | .str _ | .decimal _ => true
  | _ => false

/-- `Number.isSafeInteger(value)`. -/
def isSafeInteger : Value → Bool
  | .num value => value.den = 1 ∧ |value| ≤ 9007199254740991
  | _ => false

def ofText : Option String → Value
  | some text => .str text
  | none => .null

def ofNumber : Option Rat → Value
  | some value => .num value
  | none => .null

end Value

/-- A stored row: each column with the value the driver reads it as. -/
abbrev Row := String → Value

namespace Row

/-- The row with these columns, and NULL in the others. -/
def of (columns : List (String × Value)) : Row := fun k => (columns.lookup k).getD .null

def text (row : Row) (column : String) : Option String :=
  match row column with
  | .str text => some text
  | _ => none

def number (row : Row) (column : String) : Option Rat :=
  match row column with
  | .null => none
  | value => value.number

def id (row : Row) : String := (row.text "id").getD ""

end Row

/-! ### Columns -/

inductive Column where
  | text
  | boolean
  | integer
  | bigint
  /-- `numeric` without a scale, and not below zero. -/
  | numeric
  /-- `numeric(digits, places)`, and not below zero. -/
  | fixed (digits places : Nat)
  | textArray

/-- The texts that a PostgreSQL text can hold. -/
def storableText (text : String) : Bool := text.toList.all (· ≠ '\x00')

def storableInteger (bits : Nat) (x : Rat) : Bool :=
  x.den = 1 ∧ -(2 ^ (bits - 1)) ≤ x ∧ x < 2 ^ (bits - 1)

/-- `numeric(digits, places)` holds the number once it is rounded. -/
def storableFixed (digits places : Nat) (x : Rat) : Bool :=
  0 ≤ x ∧ Decimals.rounded places x < 10 ^ (digits - places)

/-- What a written value reads as afterwards; none where the column refuses it. -/
def Column.write : Column → Value → Option Value
  | _, .null => some .null
  | .text, .str s => if storableText s then some (.str s) else none
  | .boolean, .bool b => some (.bool b)
  | .integer, .num x => if storableInteger 32 x then some (.num x) else none
  | .bigint, .num x => if storableInteger 64 x then some (.num x) else none
  | .numeric, .num x | .numeric, .decimal x => if 0 ≤ x then some (.decimal x) else none
  | .fixed digits places, .num x | .fixed digits places, .decimal x =>
    if storableFixed digits places x then some (.decimal (Decimals.rounded places x)) else none
  | .textArray, .texts items => if items.all storableText then some (.texts items) else none
  | _, _ => none

/-- The columns `type` writes as values from `value`, or the first that refuses. -/
def written (type : String → Column) (columns : List String) (required : List String)
    (value : String → Value) (row : Row) : Except Fault Row :=
  match columns.find? fun k =>
      ((type k).write (value k)).isNone || (required.contains k && value k == .null) with
  | some k => .error (.database k)
  | none => .ok fun k => if k ∈ columns then ((type k).write (value k)).getD .null else row k

/-! ### Numbers -/

/-- Multiplication and division of doubles, which round where the result is none. -/
structure Floats where
  mul : Rat → Rat → Rat
  div : Rat → Rat → Rat

/-- `Math.round`. -/
def nearest (x : Rat) : Rat := ⌊x + 1 / 2⌋

/-! ### Texts -/

/-- `text.slice(0, count)`, in UTF-16 units; of a character that does not fit whole
nothing is kept. -/
def slice (count : Nat) : List Char → List Char
  | [] => []
  | c :: rest => if Json.units c ≤ count then c :: slice (count - Json.units c) rest else []

/-- The length of a text in UTF-16 units. -/
def units (text : String) : Nat := (text.toList.map Json.units).sum

/-- `text(v, max)` of server/catalog/benchmarks.js: a text that is not blank, its
control characters turned into spaces. -/
def text (value : Option Json) (max : Nat) : Option String :=
  match value with
  | some (.str raw) =>
    let trimmed := Json.trimChars raw.toList
    if trimmed.isEmpty then none
    else some (String.ofList (slice max (trimmed.map fun c =>
      if c.toNat < 0x20 ∨ c.toNat = 0x7f then ' ' else c)))
  | _ => none

end OpenVibeHost.Catalog
