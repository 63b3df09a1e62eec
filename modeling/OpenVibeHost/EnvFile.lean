import Mathlib.Data.List.DropRight
import Mathlib.Data.String.Basic
import Mathlib.Tactic.Tauto

/-! Environment files and the `Environment=` lines of unit files, `lib/envfile.js`. A text is its characters. -/
namespace OpenVibeHost.EnvFile

/-! ### Characters -/

/-- `\s` of a regular expression, which is what `trim` takes off as well. -/
def space (c : Char) : Bool :=
  c.isWhitespace || c = '\x0b' || c = '\x0c' || c = '\u00a0' || c = '\u1680' || ('\u2000' ≤ c && c ≤ '\u200a') ||
    c = '\u2028' || c = '\u2029' || c = '\u202f' || c = '\u205f' || c = '\u3000' || c = '\ufeff'

/-- What `.` does not match. -/
def terminator (c : Char) : Bool := c = '\n' || c = '\r' || c = '\u2028' || c = '\u2029'

def trim (text : List Char) : List Char := ((text.dropWhile space).reverse.dropWhile space).reverse

/-- What `trim` leaves, between the white space that it takes off. -/
theorem trim_within (text : List Char) : ∃ left right, text = left ++ trim text ++ right ∧
    (∀ c ∈ left, space c = true) ∧ ∀ c ∈ right, space c = true := by
  refine ⟨text.takeWhile space, ((text.dropWhile space).reverse.takeWhile space).reverse, ?_,
    fun c among => List.mem_takeWhile_imp among, fun c among => List.mem_takeWhile_imp (List.mem_reverse.1 among)⟩
  rw [List.append_assoc, trim, ← List.reverse_append, List.takeWhile_append_dropWhile, List.reverse_reverse,
    List.takeWhile_append_dropWhile]

theorem space_printed {c : Char} (low : 0x20 ≤ c.toNat) (high : c.toNat ≤ 0x7e) : space c = true → c = ' ' := by
  have listed : ∀ n < 127, 32 ≤ n → space (Char.ofNat n) = true → n = 32 := by decide
  intro blank
  rw [← Char.ofNat_toNat c] at blank ⊢
  rw [listed c.toNat (by omega) low blank]

theorem digit_black {c : Char} (digit : c.isDigit = true) : space c = false := by
  have letters : '0'.val.toNat = 48 ∧ '9'.val.toNat = 57 := by decide
  simp only [Char.isDigit, Bool.and_eq_true, decide_eq_true_eq, ge_iff_le, UInt32.le_iff_toNat_le] at digit
  have range : 0x20 ≤ c.toNat ∧ c.toNat ≤ 0x7e := by
    simp only [Char.toNat]
    omega
  by_contra blank
  rw [space_printed range.1 range.2 (by simpa using blank)] at digit
  exact absurd digit (by decide)

def nameStart (c : Char) : Bool := c.isAlpha || c = '_'

def nameChar (c : Char) : Bool := c.isAlphanum || c = '_'

def lines (text : List Char) : List (List Char) := text.splitOn '\n'

/-- `name.toUpperCase()` as far as `/i` folds letters into ASCII. -/
def folded (name : List Char) : List Char := name.map Char.toUpper

/-- `SECRET_NAME_RE`. -/
def secretName (name : List Char) : Bool :=
  ["SECRET", "PASSWORD", "PASSWD", "TOKEN", "KEY", "CREDENTIAL", "PRIVATE", "COOKIE", "SALT", "DSN"].any (fun word =>
      (folded name).tails.any word.toList.isPrefixOf) || "PASS".toList.isSuffixOf (folded name)

/-! ### Env files -/

/-- `NAME =value` after `^\s*`: the name and the value. -/
def assignment (line : List Char) : Option (List Char × List Char) :=
  match line.dropWhile space with
  | [] => none
  | c :: rest =>
    if nameStart c then
      match (rest.dropWhile nameChar).dropWhile space with
      | '=' :: value => if value.any terminator then none else some (c :: rest.takeWhile nameChar, value)
      | _ => none
    else none

/-- What follows `export\s+`. -/
def exported (line : List Char) : Option (List Char) :=
  match line.dropWhile space with
  | 'e' :: 'x' :: 'p' :: 'o' :: 'r' :: 't' :: c :: rest => if space c then some rest else none
  | _ => none

/-- `LINE_RE`: the name and the value of a line. -/
def lineRe (line : List Char) : Option (List Char × List Char) :=
  ((exported line).bind assignment).or (assignment line)

/-- `v.replace(/\s+#.*$/, '')`, where `before` are the white spaces just read. -/
def uncommentFrom (before : List Char) : List Char → List Char
  | [] => before
  | c :: rest =>
    if space c then uncommentFrom (before ++ [c]) rest
    else if c = '#' ∧ before ≠ [] then []
    else before ++ c :: uncommentFrom [] rest

def uncomment (text : List Char) : List Char := uncommentFrom [] text

/-- Between quotes of one kind. -/
def quoted (v : List Char) : Bool :=
  decide (2 ≤ v.length) && ((v.head? = some '"' && v.getLast? = some '"') ||
    (v.head? = some '\'' && v.getLast? = some '\''))

/-- `v.slice(1, -1)`. -/
def inner (v : List Char) : List Char := (v.drop 1).dropLast

def isEmptyValue (raw : List Char) : Bool :=
  let v := trim raw
  let v := if v.head? = some '"' ∨ v.head? = some '\'' then v
    else if v.head? = some '#' then [] else uncomment v
  let v := if quoted v then inner v else v
  decide (trim v = [])

/-- `map.set(key, value)`: a key keeps its place. -/
def setKey {β : Type} (entries : List (List Char × β)) (key : List Char) (value : β) : List (List Char × β) :=
  if entries.any (·.1 = key) then entries.map fun entry => if entry.1 = key then (key, value) else entry
  else entries ++ [(key, value)]

/-- `parseNames`: the names, and whether the value of each is empty. -/
def parseNames (text : List Char) : List (List Char × Bool) :=
  (lines text).foldl (fun seen line =>
    match lineRe line with
    | some (name, value) => setKey seen name (isEmptyValue value)
    | none => seen) []

/-! ### Unit files -/

/-- `splitAssignments`, in the middle of a part and perhaps of a quote. -/
def splitFrom (cur : List Char) : Option Char → List Char → List (List Char)
  | _, [] => if cur = [] then [] else [cur]
  | some quote, c :: rest =>
    if c = quote then splitFrom cur none rest else splitFrom (cur ++ [c]) (some quote) rest
  | none, c :: rest =>
    if c = '"' ∨ c = '\'' then splitFrom cur (some c) rest
    else if space c then if cur = [] then splitFrom [] none rest else cur :: splitFrom [] none rest
    else splitFrom (cur ++ [c]) none rest

def splitAssignments (s : List Char) : List (List Char) := splitFrom [] none s

/-- A text after what it begins with. -/
def after? (begins text : List Char) : Option (List Char) :=
  if begins.isPrefixOf text then some (text.drop begins.length) else none

/-- The value of a line that sets a directive. -/
def directive (key : String) (line : List Char) : Option (List Char) :=
  (after? (key.toList ++ ['=']) (line.dropWhile space)).filter fun value => !value.any terminator

structure Directives where
  execStart : Option (List (List Char)) := none
  rawExecStart : Option (List Char) := none
  workingDirectory : Option (List Char) := none
  user : Option (List Char) := none
  environment : List (List Char × List Char) := []

/-- `value || null`. -/
def orNull (value : List Char) : Option (List Char) := if value = [] then none else some value

/-- An assignment to the environment; the last one to a name counts, and has its place. -/
def addAssignment (environment : List (List Char × List Char)) (part : List Char) : List (List Char × List Char) :=
  let name := part.takeWhile (· ≠ '=')
  if name = [] ∨ name = part then environment
  else environment.filter (·.1 ≠ name) ++ [(name, part.drop (name.length + 1))]

def directLine (out : Directives) (line : List Char) : Directives :=
  match directive "ExecStart" line, directive "WorkingDirectory" line, directive "User" line,
    directive "Environment" line with
  | some raw, _, _, _ =>
    let value := trim raw
    { out with
      rawExecStart := orNull value
      execStart := if value = [] then none else
        some (splitAssignments (value.dropWhile fun c => c = '-' || c = '@' || c = ':' || c = '+' || c = '!')) }
  | none, some raw, _, _ =>
    let value := trim raw
    { out with workingDirectory := orNull (if value.head? = some '-' then value.drop 1 else value) }
  | none, none, some raw, _ => { out with user := orNull (trim raw) }
  | none, none, none, some raw =>
    { out with environment := (splitAssignments (trim raw)).foldl addAssignment out.environment }
  | none, none, none, none => out

def unitDirectives (texts : List (List Char)) : Directives :=
  texts.foldl (fun out text => (lines text).foldl directLine out) {}

def mask : List Char := "<redacted>".toList

/-- A part of a line with its value masked, where the name says that it is a secret. -/
def redactPart (a : List Char) : List Char :=
  let name := a.takeWhile (· ≠ '=')
  if name = a then a
  else if secretName name then name ++ '=' :: mask
  else a

/-- A part as the redacted line has it. -/
def requote (p : List Char) : List Char := if p.any space then '"' :: (p ++ ['"']) else p

def joinParts (parts : List (List Char)) : List Char := [' '].intercalate (parts.map requote)

def redactLine (line : List Char) : List Char :=
  match directive "Environment" line with
  | none => line
  | some value =>
    line.takeWhile space ++ ("Environment=".toList ++ joinParts ((splitAssignments value).map redactPart))

def redactUnit (unitText : List Char) : List Char := ['\n'].intercalate ((lines unitText).map redactLine)

end OpenVibeHost.EnvFile
