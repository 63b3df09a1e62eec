import Mathlib.Algebra.GroupWithZero.Nat
import Mathlib.Data.Rat.Defs
import Mathlib.Data.String.Basic

/-! JSON values, `JSON.parse`, and the few conversions of JavaScript that the
code applies to what it parsed. Numbers are kept exact. -/
namespace OpenVibeHost

inductive Json where
  | null
  | bool (value : Bool)
  | num (value : Rat)
  | str (text : String)
  | arr (items : List Json)
  | obj (fields : List (String × Json))

namespace Json

/-! ### Reading -/

def skipBlank : List Char → List Char
  | c :: rest => if c == ' ' || c == '\n' || c == '\r' || c == '\t' then skipBlank rest else c :: rest
  | [] => []

def hexDigit (c : Char) : Option Nat :=
  if c.isDigit then some (c.toNat - '0'.toNat)
  else if 'a' ≤ c ∧ c ≤ 'f' then some (c.toNat - 'a'.toNat + 10)
  else if 'A' ≤ c ∧ c ≤ 'F' then some (c.toNat - 'A'.toNat + 10)
  else none

/-- The rest of a string, after its opening quote, and the text after it. An escaped surrogate that is not one of a pair
is no character and reads as U+FFFD. -/
def readString (done : List Char) : List Char → Option (String × List Char)
  | '"' :: rest => some (String.ofList done.reverse, rest)
  | '\\' :: 'u' :: a :: b :: c :: d :: rest => do
    let code := ((← hexDigit a) * 16 + (← hexDigit b)) * 256 + (← hexDigit c) * 16 + (← hexDigit d)
    if 0xd800 ≤ code ∧ code < 0xdc00 then
      match rest with
      | '\\' :: 'u' :: e :: f :: g :: h :: after => do
        let low := ((← hexDigit e) * 16 + (← hexDigit f)) * 256 + (← hexDigit g) * 16 + (← hexDigit h)
        if 0xdc00 ≤ low ∧ low < 0xe000 then
          readString (Char.ofNat (0x10000 + (code - 0xd800) * 0x400 + (low - 0xdc00)) :: done) after
        else readString ('\ufffd' :: done) ('\\' :: 'u' :: e :: f :: g :: h :: after)
      | other => readString ('\ufffd' :: done) other
    else if 0xdc00 ≤ code ∧ code < 0xe000 then readString ('\ufffd' :: done) rest
    else readString (Char.ofNat code :: done) rest
  | '\\' :: c :: rest =>
    match c with
    | '"' | '\\' | '/' => readString (c :: done) rest
    | 'b' => readString ('\x08' :: done) rest
    | 'f' => readString ('\x0c' :: done) rest
    | 'n' => readString ('\n' :: done) rest
    | 'r' => readString ('\r' :: done) rest
    | 't' => readString ('\t' :: done) rest
    | _ => none
  | c :: rest => if c.toNat < 32 then none else readString (c :: done) rest
  | [] => none

/-- Decimal digits: their number, how many they are, and the text after them. -/
def readDigits (value count : Nat) : List Char → Nat × Nat × List Char
  | c :: rest =>
    if c.isDigit then readDigits (10 * value + (c.toNat - '0'.toNat)) (count + 1) rest
    else (value, count, c :: rest)
  | [] => (value, count, [])

def scale (value : Rat) (negative : Bool) (power : Nat) : Rat :=
  if negative then value / 10 ^ power else value * 10 ^ power

def readExponent (value : Rat) (text : List Char) : Option (Rat × List Char) :=
  let (negative, digits) := match text with
    | '+' :: rest => (false, rest)
    | '-' :: rest => (true, rest)
    | _ => (false, text)
  match readDigits 0 0 digits with
  | (_, 0, _) => none
  | (power, _, rest) => some (scale value negative power, rest)

/-- A number without its sign. -/
def readNumber (text : List Char) : Option (Rat × List Char) :=
  match readDigits 0 0 text with
  | (_, 0, _) => none
  | (whole, count, rest) =>
    if count > 1 ∧ text.head? = some '0' then none
    else
      let fraction : Option (Rat × List Char) := match rest with
        | '.' :: more =>
          match readDigits 0 0 more with
          | (_, 0, _) => none
          | (part, places, after) => some (whole + (part : Rat) / 10 ^ places, after)
        | _ => some (whole, rest)
      fraction.bind fun (value, after) =>
        match after with
        | 'e' :: more | 'E' :: more => readExponent value more
        | _ => some (value, after)

mutual
/-- One value; `fuel` bounds the depth, and the length of the text is enough. -/
def readValue : Nat → List Char → Option (Json × List Char)
  | 0, _ => none
  | fuel + 1, text =>
    match skipBlank text with
    | 'n' :: 'u' :: 'l' :: 'l' :: rest => some (.null, rest)
    | 't' :: 'r' :: 'u' :: 'e' :: rest => some (.bool true, rest)
    | 'f' :: 'a' :: 'l' :: 's' :: 'e' :: rest => some (.bool false, rest)
    | '"' :: rest => (readString [] rest).map fun (text, after) => (.str text, after)
    | '-' :: rest => (readNumber rest).map fun (value, after) => (.num (-value), after)
    | '[' :: rest =>
      match skipBlank rest with
      | ']' :: after => some (.arr [], after)
      | _ => (readItems fuel rest).map fun (items, after) => (.arr items, after)
    | '\x7b' :: rest =>
      match skipBlank rest with
      | '\x7d' :: after => some (.obj [], after)
      | _ => (readFields fuel rest).map fun (fields, after) => (.obj fields, after)
    | other => (readNumber other).map fun (value, after) => (.num value, after)

def readItems : Nat → List Char → Option ((List Json) × List Char)
  | 0, _ => none
  | fuel + 1, text => do
    let (item, rest) ← readValue fuel text
    match skipBlank rest with
    | ',' :: more =>
      let (items, after) ← readItems fuel more
      return (item :: items, after)
    | ']' :: after => return ([item], after)
    | _ => none

def readFields : Nat → List Char → Option ((List (String × Json)) × List Char)
  | 0, _ => none
  | fuel + 1, text => do
    let '"' :: opened := skipBlank text | none
    let (name, rest) ← readString [] opened
    let ':' :: colon := skipBlank rest | none
    let (value, rest) ← readValue fuel colon
    match skipBlank rest with
    | ',' :: more =>
      let (fields, after) ← readFields fuel more
      return ((name, value) :: fields, after)
    | '\x7d' :: after => return ([(name, value)], after)
    | _ => none
end

/-- `JSON.parse`; none where it throws. -/
def parse (text : String) : Option Json :=
  match readValue (text.toList.length + 1) text.toList with
  | some (value, rest) => if (skipBlank rest).isEmpty then some value else none
  | none => none

/-- `JSON.parse` of a file that may be absent: it reads `null` as the text null. -/
def parseFile (text : Option String) : Option Json :=
  match text with
  | some text => parse text
  | none => some .null

/-! ### Writing -/

def escape (c : Char) : List Char :=
  if c = '"' then ['\\', '"']
  else if c = '\\' then ['\\', '\\']
  else if c = '\n' then ['\\', 'n']
  else if c = '\r' then ['\\', 'r']
  else if c = '\t' then ['\\', 't']
  else if c = '\x08' then ['\\', 'b']
  else if c = '\x0c' then ['\\', 'f']
  else if c.toNat < 32 then
    "\\u00".toList ++ [Nat.digitChar (c.toNat / 16), Nat.digitChar (c.toNat % 16)]
  else [c]

def quote (text : String) : String :=
  String.ofList (['"'] ++ text.toList.flatMap escape ++ ['"'])

/-- The decimal places of `rest / den`, as far as it has them. -/
def places (den : Nat) : Nat → Nat → List Char
  | 0, _ => []
  | fuel + 1, rest =>
    if rest = 0 then [] else Nat.digitChar (10 * rest / den) :: places den fuel (10 * rest % den)

def numberText (value : Rat) : String :=
  let whole := toString (value.num.natAbs / value.den)
  let text := if value.den = 1 then whole
    else whole ++ "." ++ String.ofList (places value.den value.den (value.num.natAbs % value.den))
  if value.num < 0 then "-" ++ text else text

mutual
/-- `JSON.stringify`. -/
def stringify : Json → String
  | .null => "null"
  | .bool value => if value then "true" else "false"
  | .num value => numberText value
  | .str text => quote text
  | .arr items => "[" ++ ",".intercalate (stringifyItems items) ++ "]"
  | .obj fields => "\x7b" ++ ",".intercalate (stringifyFields fields) ++ "\x7d"

def stringifyItems : List Json → List String
  | [] => []
  | item :: rest => stringify item :: stringifyItems rest

def stringifyFields : List (String × Json) → List String
  | [] => []
  | (name, value) :: rest => (quote name ++ ":" ++ stringify value) :: stringifyFields rest
end

/-- A text, or null. -/
def ofText : Option String → Json
  | some text => .str text
  | none => .null

/-! ### Using a value -/

/-- The index that a key spells. -/
def index? (key : String) : Option Nat := key.toNat?.filter fun i => toString i = key

/-- The UTF-16 units of a character. -/
def units (c : Char) : Nat := if c.toNat < 0x10000 then 1 else 2

/-- `value[key]`: of repeated names the last counts. -/
def field (key : String) : Json → Option Json
  | .obj fields => (fields.reverse.find? (·.1 = key)).map (·.2)
  | .arr items =>
    if key = "length" then some (.num items.length)
    else (index? key).bind fun i => items[i]?
  | .str text =>
    if key = "length" then some (.num (text.toList.map units).sum)
    else (index? key).bind fun i => (text.toList[i]?).map fun c => .str (String.singleton c)
  | _ => none

/-- `Boolean(value)`. -/
def truthy : Json → Bool
  | .null => false
  | .bool value => value
  | .num value => value ≠ 0
  | .str text => text ≠ ""
  | .arr _ | .obj _ => true

/-- `===` of parsed values: two objects or arrays are never the same one. -/
def same : Json → Json → Bool
  | .null, .null => true
  | .bool a, .bool b => a == b
  | .num a, .num b => a == b
  | .str a, .str b => a == b
  | _, _ => false

mutual
/-- Whether two values have the same text under `JSON.stringify`. -/
def sameText : Json → Json → Bool
  | .null, .null => true
  | .bool a, .bool b => a == b
  | .num a, .num b => a == b
  | .str a, .str b => a == b
  | .arr a, .arr b => sameItems a b
  | .obj a, .obj b => sameFields a b
  | _, _ => false

def sameItems : List Json → List Json → Bool
  | [], [] => true
  | a :: as, b :: bs => sameText a b && sameItems as bs
  | _, _ => false

def sameFields : List (String × Json) → List (String × Json) → Bool
  | [], [] => true
  | (k, a) :: as, (l, b) :: bs => k == l && sameText a b && sameFields as bs
  | _, _ => false
end

/-- `value[key] || {}`. -/
def fieldOrEmpty (key : String) (value : Json) : Json :=
  match value.field key with
  | some found => if found.truthy then found else .obj []
  | none => .obj []

/-- `Object.keys`: of an array or a text its indices. -/
def keys : Json → List String
  | .obj fields => (fields.map (·.1)).dedup
  | .arr items => (List.range items.length).map toString
  | .str text => (List.range (text.toList.map units).sum).map toString
  | _ => []

def blank (c : Char) : Bool :=
  c.isWhitespace || c == '\x0b' || c == '\x0c' || c == '\u00a0' || c == '\ufeff'

def trimChars (text : List Char) : List Char :=
  ((text.dropWhile blank).reverse.dropWhile blank).reverse

/-- A decimal literal as `Number` reads it: `5.` and `.5` are ones too. -/
def readLiteral (text : List Char) : Option Rat :=
  let (whole, count, rest) := readDigits 0 0 text
  let (value, places, after) : Rat × Nat × List Char := match rest with
    | '.' :: more =>
      let (part, places, after) := readDigits 0 0 more
      (whole + (part : Rat) / 10 ^ places, places, after)
    | _ => ((whole : Rat), 0, rest)
  if count + places = 0 then none
  else match after with
    | [] => some value
    | 'e' :: more | 'E' :: more =>
      match readExponent value more with
      | some (scaled, []) => some scaled
      | _ => none
    | _ => none

/-- A literal in base 16, 8 or 2, after its `0x`, `0o` or `0b`. -/
def readRadix (base : Nat) (text : List Char) : Option Rat :=
  if text.isEmpty then none
  else (text.foldlM (fun value c => do
    let digit ← hexDigit c
    if digit < base then some (base * value + digit) else none) 0).map fun value : Nat => (value : Rat)

/-- `Number(text)` where it is finite. -/
def numberOfText (text : String) : Option Rat :=
  match trimChars text.toList with
  | [] => some 0
  | '0' :: 'x' :: rest | '0' :: 'X' :: rest => readRadix 16 rest
  | '0' :: 'o' :: rest | '0' :: 'O' :: rest => readRadix 8 rest
  | '0' :: 'b' :: rest | '0' :: 'B' :: rest => readRadix 2 rest
  | '-' :: rest => (readLiteral rest).map (- ·)
  | '+' :: rest => readLiteral rest
  | other => readLiteral other

/-- `Number(value)` where it is finite; `undefined` is none. An array is its text: of none
the empty one, of one item that item's. -/
def number : Option Json → Option Rat
  | none => none
  | some .null => some 0
  | some (.bool value) => some (if value then 1 else 0)
  | some (.num value) => some value
  | some (.str text) => numberOfText text
  | some (.arr items) => numberOfItems items
  | some (.obj _) => none
where
  /-- `Number(String(items))`. -/
  numberOfItems : List Json → Option Rat
    | [] => some 0
    | [.null] => some 0
    | [.num value] => some value
    | [.str text] => numberOfText text
    | [.arr items] => numberOfItems items
    | _ => none

/-- Whether `String(value).trim()` is one of the texts. Of an array only that of one item can be. -/
def isText (texts : List String) : Json → Bool
  | .str text => decide (String.ofList (trimChars text.toList) ∈ texts)
  | .arr items => isItems items
  | _ => false
where
  isItems : List Json → Bool
    | [.str text] => decide (String.ofList (trimChars text.toList) ∈ texts)
    | [.arr items] => isItems items
    | _ => false

/-- `String(value)`. -/
def shown : Json → String
  | .null => "null"
  | .bool value => toString value
  | .num value => numberText value
  | .str text => text
  | .arr items => ",".intercalate (shownItems items)
  | .obj _ => "[object Object]"
where
  shownItems : List Json → List String
    | [] => []
    | .null :: rest => "" :: shownItems rest
    | item :: rest => shown item :: shownItems rest

end Json

end OpenVibeHost
