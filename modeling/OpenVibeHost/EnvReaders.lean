import OpenVibeHost.EnvFile
import OpenVibeHost.Pieces
import Mathlib

/-! The readers of service env files: `parseEnv` of `lib/announce.js`, `parseEnv` of `lib/media.js` and `parseNames`
of `lib/envfile.js`, on the variables that they are asked for. -/
namespace OpenVibeHost.EnvFile

/-! ### The readers -/

/-- What both `parseEnv` make of the value of a line. -/
def valueOf (raw : List Char) : List Char :=
  let v := trim raw
  if quoted v then inner v else uncomment v

namespace Announce

/-- `WANTED`. -/
def wanted : List (List Char) :=
  ["OV_OAUTH_CLIENT_ID", "OV_OAUTH_CLIENT_SECRET", "EVENTS_URL", "OV_NETWORK_INTERNAL_URL"].map String.toList

/-- What decides whether a name is a wanted one. -/
local instance lawfulNames : LawfulBEq (List Char) := inferInstance

/-- `parseEnv` of `lib/announce.js`. -/
def parseEnv (text : List Char) : List (List Char × List Char) :=
  (lines text).foldl (fun out line =>
    match lineRe line with
    | some (name, value) => if name ∈ wanted then setKey out name (valueOf value) else out
    | none => out) []

end Announce

namespace Media

/-- What `loadCredentials` reads. -/
def asked : List (List Char) :=
  ["OV_OAUTH_CLIENT_SECRET", "OV_NETWORK_INTERNAL_URL", "MEDIA_INTERNAL_URL", "OV_MEDIA_INTERNAL_URL",
    "OV_OAUTH_CLIENT_ID"].map String.toList

def upperStart (c : Char) : Bool := c.isUpper || c = '_'

def upperChar (c : Char) : Bool := c.isUpper || c.isDigit || c = '_'

/-- The expression of `lib/media.js`: the name and the value of a line. -/
def lineRe (line : List Char) : Option (List Char × List Char) :=
  match line.dropWhile space with
  | [] => none
  | c :: rest =>
    if upperStart c then
      match (rest.dropWhile upperChar).dropWhile space with
      | '=' :: value =>
        -- `\s*` may take a carriage return, `.` may not
        if (value.dropWhile space).any terminator then none
        else some (c :: rest.takeWhile upperChar, value.dropWhile space)
      | _ => none
    else none

/-- `parseEnv` of `lib/media.js`. -/
def parseEnv (text : List Char) : List (List Char × List Char) :=
  (lines text).foldl (fun out line =>
    match lineRe line with
    | some (name, value) => setKey out name (valueOf value)
    | none => out) []

end Media

/-- `out[name]`. -/
def get {β : Type} (entries : List (List Char × β)) (name : List Char) : Option β :=
  (entries.find? (·.1 = name)).map (·.2)

/-! ### What the readers are for -/

/-- The readers agree on a variable, those that are asked for it: on its value, and on whether it is there and empty. -/
structure AgreeOn (text name : List Char) : Prop where
  values : name ∈ Announce.wanted → name ∈ Media.asked → get (Announce.parseEnv text) name = get (Media.parseEnv text) name
  announced : name ∈ Announce.wanted →
    get (parseNames text) name = (get (Announce.parseEnv text) name).map fun value => decide (value = [])
  asked : name ∈ Media.asked →
    get (parseNames text) name = (get (Media.parseEnv text) name).map fun value => decide (value = [])

/-- The readers agree on every variable that they are asked for. -/
def Agree (text : List Char) : Prop := ∀ name ∈ Announce.wanted ++ Media.asked, AgreeOn text name

/-- A value that is no comment from its beginning, and no white space between quotes. -/
def Clear (value : List Char) : Prop :=
  (trim value).head? ≠ some '#' ∧ (quoted (trim value) = true → trim (inner (trim value)) = [] → inner (trim value) = [])

/-- A line `NAME=value` with white space at most around the name, and no end of a line in the value. -/
def Plain (name line : List Char) : Prop :=
  ∃ before between value, line = before ++ name ++ between ++ '=' :: value ∧ before.all space = true ∧
    between.all space = true ∧ value.any terminator = false ∧ Clear value

/-- The line is spelled so that those who are asked for the variable all read it. -/
def Fit (name line : List Char) : Prop :=
  (name ∈ Media.asked → Plain name line) ∧
    (name ∉ Media.asked → ∀ value, lineRe line = some (name, value) → Clear value)

/-- One who is asked for the variable takes the line for it. -/
def Taken (name line : List Char) : Prop :=
  (∃ value, lineRe line = some (name, value)) ∨ (name ∈ Media.asked ∧ ∃ value, Media.lineRe line = some (name, value))

/-! ### The last line counts -/

theorem get_setKey {β : Type} (entries : List (List Char × β)) (key name : List Char) (value : β) :
    get (setKey entries key value) name = if name = key then some value else get entries name := by
  unfold get setKey
  split
  · rename_i there
    obtain ⟨old, isOld, hasKey⟩ := List.any_eq_true.1 there
    rw [List.find?_map]
    have same : ((fun entry : List Char × β => decide (entry.1 = name)) ∘ fun entry =>
        if entry.1 = key then (key, value) else entry) = fun entry => decide (entry.1 = name) := by
      funext entry
      by_cases hit : entry.1 = key <;> simp [hit]
    rw [same]
    split
    · rename_i isKey
      cases found : entries.find? (·.1 = name) with
      | none =>
        have missing := List.find?_eq_none.1 found old isOld
        simp_all
      | some entry =>
        have named : entry.1 = name := by simpa using List.find?_some found
        simp [named, isKey]
    · rename_i other
      cases found : entries.find? (·.1 = name) with
      | none => rfl
      | some entry =>
        have named : entry.1 = name := by simpa using List.find?_some found
        simp [named, other]
  · rename_i absent
    rw [List.find?_append]
    split
    · rename_i isKey
      have missing : entries.find? (·.1 = name) = none := by
        refine List.find?_eq_none.2 fun entry member => ?_
        simpa [isKey] using fun hit => absent (List.any_eq_true.2 ⟨entry, member, by simpa using hit⟩)
      rw [missing, isKey]
      simp
    · rename_i other
      have last : [(key, value)].find? (·.1 = name) = none := by simpa using Ne.symm other
      rw [last, Option.or_none]

/-- The value that an expression takes from a line for a variable. -/
def valueFor (re : List Char → Option (List Char × List Char)) (name line : List Char) : Option (List Char) :=
  (re line).bind fun (key, value) => if key = name then some value else none

/-- The value of the last line that an expression takes for a variable. -/
def lastValue (re : List Char → Option (List Char × List Char)) (name : List Char) (ls : List (List Char)) :
    Option (List Char) :=
  ls.reverse.findSome? (valueFor re name)

theorem lastValue_snoc (re : List Char → Option (List Char × List Char)) (name : List Char) (ls : List (List Char))
    (line : List Char) : lastValue re name (ls ++ [line]) = (valueFor re name line).or (lastValue re name ls) := by
  simp [lastValue, List.reverse_append, List.findSome?_cons]
  cases valueFor re name line <;> rfl

/-- A reader gives of each variable that it keeps the value of the last line that it takes for it. -/
theorem get_reader {β : Type} (re : List Char → Option (List Char × List Char)) (kept : List Char → Bool)
    (made : List Char → β) (ls : List (List Char)) {name : List Char} (keeps : kept name = true) :
    get (ls.foldl (fun out line =>
      match re line with
      | some (key, value) => if kept key then setKey out key (made value) else out
      | none => out) []) name = (lastValue re name ls).map made := by
  induction ls using List.reverseRecOn with
  | nil => rfl
  | append_singleton ls line ih =>
    rw [List.foldl_append, lastValue_snoc, List.foldl_cons, List.foldl_nil, valueFor]
    cases taken : re line with
    | none => simpa using ih
    | some found =>
      obtain ⟨key, value⟩ := found
      by_cases isKept : kept key = true
      · simp only [isKept, if_true, get_setKey, Option.bind_some]
        by_cases same : name = key
        · simp [same]
        · simp [same, Ne.symm same, ih]
      · have other : key ≠ name := fun same => isKept (same ▸ keeps)
        simp [isKept, other, ih]

theorem get_announce (text : List Char) {name : List Char} (wanted : name ∈ Announce.wanted) :
    get (Announce.parseEnv text) name = (lastValue lineRe name (lines text)).map valueOf := by
  have read := get_reader lineRe (fun key => decide (key ∈ Announce.wanted)) valueOf (lines text) (decide_eq_true wanted)
  simpa [Announce.parseEnv] using read

theorem get_media (text name : List Char) :
    get (Media.parseEnv text) name = (lastValue Media.lineRe name (lines text)).map valueOf :=
  get_reader Media.lineRe (fun _ => true) valueOf (lines text) rfl

theorem get_names (text name : List Char) :
    get (parseNames text) name = (lastValue lineRe name (lines text)).map isEmptyValue :=
  get_reader lineRe (fun _ => true) isEmptyValue (lines text) rfl

/-! ### Values -/

theorem head_trim {text rest : List Char} {c : Char} (begins : trim text = c :: rest) : space c = false := by
  have within : trim text <+: text.dropWhile space := List.rdropWhile_prefix space (text.dropWhile space)
  rw [begins] at within
  obtain ⟨more, same⟩ := within
  have head := List.head?_dropWhile_not space text
  rw [← same] at head
  simpa using head

theorem trim_dropWhile (text : List Char) : trim (text.dropWhile space) = trim text := by
  rw [trim, trim, List.dropWhile_idempotent]

theorem trim_ne_nil {c : Char} {rest : List Char} (black : space c = false) : trim (c :: rest) ≠ [] := by
  intro empty
  have all := List.rdropWhile_eq_nil_iff.1 (show ((c :: rest).dropWhile space).rdropWhile space = [] from empty)
  rw [List.dropWhile_cons_of_neg (by simp [black])] at all
  exact absurd (all c (List.mem_cons_self ..)) (by simp [black])

/-- What has not begun with white space stays. -/
theorem uncomment_cons {c : Char} {rest : List Char} (black : space c = false) :
    uncomment (c :: rest) = c :: uncomment rest := by
  simp [uncomment, uncommentFrom, black]

theorem not_quoted {c : Char} {rest : List Char} (double : c ≠ '"') (single : c ≠ '\'') : quoted (c :: rest) = false := by
  simp [quoted, double, single]

/-- The one who looks for emptiness agrees on a value with those who read it just when the value is clear. -/
theorem isEmptyValue_iff (value : List Char) :
    isEmptyValue value = decide (valueOf value = []) ↔ Clear value := by
  unfold isEmptyValue valueOf Clear
  cases begins : trim value with
  | nil => simp [quoted, uncomment, uncommentFrom, trim]
  | cons c rest =>
    have black := head_trim begins
    by_cases within : quoted (c :: rest) = true
    · have quote : c = '"' ∨ c = '\'' := by
        by_contra other
        exact absurd within (by simp [not_quoted (fun e => other (.inl e)) fun e => other (.inr e)])
      have sign : c ≠ '#' := by rcases quote with rfl | rfl <;> decide
      simp only [quote, within, if_true, List.head?_cons, ne_eq, Option.some.injEq, sign, not_false_eq_true, true_and,
        forall_const, decide_eq_decide]
      constructor
      · exact fun same => same.1
      · intro clear
        refine ⟨clear, fun empty => ?_⟩
        rw [empty]
        rfl
    · rw [if_neg within, uncomment_cons black]
      by_cases quote : c = '"' ∨ c = '\''
      · have sign : c ≠ '#' := by rcases quote with rfl | rfl <;> decide
        simp [within, quote, sign, trim_ne_nil black]
      · by_cases sign : c = '#'
        · subst sign
          simp [quoted, trim]
        · obtain ⟨double, single⟩ := not_or.1 quote
          simp [within, double, single, sign, uncomment_cons black, not_quoted double single, trim_ne_nil black]

/-! ### Lines -/

theorem space_outside {c : Char} (white : space c = true) : c.toNat ≤ 32 ∨ 160 ≤ c.toNat := by
  simp only [space, Char.isWhitespace, Bool.or_eq_true, decide_eq_true_eq, Bool.and_eq_true] at white
  casesm* _ ∨ _
  all_goals try (subst white; decide)
  have low : '\u2000'.toNat ≤ c.toNat := UInt32.le_iff_toNat_le.1 white.1
  exact .inr (Nat.le_trans (by decide) low)

theorem nameChar_bounds {c : Char} (named : nameChar c = true) : 48 ≤ c.toNat ∧ c.toNat ≤ 122 := by
  simp only [nameChar, Char.isAlphanum, Char.isAlpha, Char.isUpper, Char.isLower, Char.isDigit, Bool.or_eq_true,
    Bool.and_eq_true, decide_eq_true_eq, ge_iff_le, UInt32.le_iff_toNat_le] at named
  rcases named with ((upper | lower) | digit) | rfl
  · exact ⟨Nat.le_trans (by decide) upper.1, Nat.le_trans upper.2 (by decide)⟩
  · exact ⟨Nat.le_trans (by decide) lower.1, Nat.le_trans lower.2 (by decide)⟩
  · exact ⟨Nat.le_trans (by decide) digit.1, Nat.le_trans digit.2 (by decide)⟩
  · decide

theorem nameChar_of_upper {c : Char} (upper : Media.upperChar c = true) : nameChar c = true := by
  simp only [Media.upperChar, nameChar, Char.isAlphanum, Char.isAlpha, Bool.or_eq_true] at upper ⊢
  tauto

theorem upperChar_of_start {c : Char} (upper : Media.upperStart c = true) : Media.upperChar c = true := by
  simp only [Media.upperStart, Media.upperChar, Bool.or_eq_true] at upper ⊢
  tauto

theorem space_name {c : Char} (white : space c = true) : nameChar c = false := by
  by_contra named
  have bounds := nameChar_bounds (by simpa using named)
  have outside := space_outside white
  omega

theorem space_upper {c : Char} (white : space c = true) : Media.upperChar c = false := by
  by_contra upper
  exact absurd (space_name white) (by simp [nameChar_of_upper (by simpa using upper)])

/-- What is taken from a text goes until the first character that is not. -/
theorem taken_until {p : Char → Bool} {xs ys : List Char} (all : xs.all p = true) (next : ∀ c ∈ ys.head?, p c = false) :
    (xs ++ ys).takeWhile p = xs ∧ (xs ++ ys).dropWhile p = ys := by
  have each := List.all_eq_true.1 all
  rw [List.takeWhile_append_of_pos each, List.dropWhile_append_of_pos each]
  cases ys with
  | nil => simp
  | cons c rest =>
    have stop := next c rfl
    simp [stop]

/-- A line that assigns a value to an upper-case name, without `export`. -/
structure Spelled (line before : List Char) (c : Char) (rest between value : List Char) : Prop where
  line : line = before ++ c :: (rest ++ (between ++ '=' :: value))
  before : before.all space = true
  start : Media.upperStart c = true
  rest : rest.all Media.upperChar = true
  between : between.all space = true

variable {line before rest between value : List Char} {c : Char}

theorem Spelled.begun (spelled : Spelled line before c rest between value) :
    line.dropWhile space = c :: (rest ++ (between ++ '=' :: value)) := by
  have black : space c = false := by
    by_contra white
    exact absurd (upperChar_of_start spelled.start) (by simp [space_upper (by simpa using white)])
  rw [spelled.line]
  exact (taken_until spelled.before (by simpa using black)).2

theorem Spelled.next (spelled : Spelled line before c rest between value) {p : Char → Bool}
    (whites : ∀ d, space d = true → p d = false) (sign : p '=' = false) :
    ∀ d ∈ (between ++ '=' :: value).head?, p d = false := by
  intro d first
  cases between with
  | nil =>
    obtain rfl : d = '=' := by simpa using first.symm
    exact sign
  | cons b more =>
    obtain rfl : d = b := by simpa using first.symm
    exact whites d (List.all_eq_true.1 spelled.between d (List.mem_cons_self ..))

/-- The line has no `export`. -/
theorem Spelled.alone (spelled : Spelled line before c rest between value) : exported line = none := by
  unfold exported
  rw [spelled.begun]
  split
  · rename_i same
    obtain rfl := (List.cons.inj same).1
    exact absurd spelled.start (by decide)
  · rfl

theorem Spelled.named (spelled : Spelled line before c rest between value) :
    lineRe line = if value.any terminator then none else some (c :: rest, value) := by
  have letters : rest.all nameChar = true :=
    List.all_eq_true.2 fun d among => nameChar_of_upper (List.all_eq_true.1 spelled.rest d among)
  have name := taken_until letters (spelled.next (fun _ => space_name) (by decide))
  have sign := @taken_until space between ('=' :: value) spelled.between (by simp [show space '=' = false by decide])
  have first : nameStart c = true := by
    have upper := spelled.start
    simp only [Media.upperStart, nameStart, Char.isAlpha, Bool.or_eq_true] at upper ⊢
    tauto
  rw [lineRe, spelled.alone, Option.bind_none, Option.none_or, assignment, spelled.begun]
  dsimp only
  rw [if_pos first, name.2, sign.2, name.1]
  rfl

theorem Spelled.read (spelled : Spelled line before c rest between value) :
    Media.lineRe line = if (value.dropWhile space).any terminator then none
      else some (c :: rest, value.dropWhile space) := by
  have name := taken_until spelled.rest (spelled.next (fun _ => space_upper) (by decide))
  have sign := @taken_until space between ('=' :: value) spelled.between (by simp [show space '=' = false by decide])
  rw [Media.lineRe, spelled.begun]
  dsimp only
  rw [if_pos spelled.start, name.2, sign.2, name.1]
  rfl

theorem spelled_of_media {name raw : List Char} (taken : Media.lineRe line = some (name, raw)) :
    ∃ before c rest between value, Spelled line before c rest between value ∧ name = c :: rest ∧
      raw = value.dropWhile space := by
  unfold Media.lineRe at taken
  split at taken
  · cases taken
  rename_i c rest begun
  split at taken
  · rename_i start
    split at taken
    · rename_i value sign
      split at taken
      · cases taken
      cases taken
      refine ⟨line.takeWhile space, c, rest.takeWhile Media.upperChar, (rest.dropWhile Media.upperChar).takeWhile space,
        value, ⟨?_, ?_, start, ?_, ?_⟩, rfl, rfl⟩
      · rw [← sign, List.takeWhile_append_dropWhile, List.takeWhile_append_dropWhile, ← begun,
          List.takeWhile_append_dropWhile]
      · exact List.all_takeWhile
      · exact List.all_takeWhile
      · exact List.all_takeWhile
    · cases taken
  · cases taken

/-! ### Agreement -/

/-- The names that are asked for are in upper case. -/
theorem upper_asked : (Announce.wanted ++ Media.asked).all (fun
    | [] => false
    | c :: rest => Media.upperStart c && rest.all Media.upperChar) = true := by decide

theorem spelled_of_plain {name line : List Char} (known : name ∈ Announce.wanted ++ Media.asked) (plain : Plain name line) :
    ∃ before c rest between value, Spelled line before c rest between value ∧ name = c :: rest ∧
      value.any terminator = false ∧ Clear value := by
  obtain ⟨before, between, value, isLine, whiteBefore, whiteBetween, oneLine, clear⟩ := plain
  have upper := List.all_eq_true.1 upper_asked name known
  split at upper
  · cases upper
  · rename_i c rest
    obtain ⟨start, others⟩ := Bool.and_eq_true_iff.1 upper
    exact ⟨before, c, rest, between, value, ⟨by simp [isLine], whiteBefore, start, others, whiteBetween⟩, rfl, oneLine,
      clear⟩

theorem not_any_dropWhile {value : List Char} (none : value.any terminator = false) :
    (value.dropWhile space).any terminator = false := by
  rw [List.any_eq_false] at none ⊢
  exact fun c among => none c ((List.dropWhile_sublist space).mem among)

theorem valueOf_dropWhile (value : List Char) : valueOf (value.dropWhile space) = valueOf value := by
  rw [valueOf, valueOf, trim_dropWhile]

/-- Of two lists of lines, the second without any that an expression takes, the value is that of the first. -/
theorem lastValue_append {re : List Char → Option (List Char × List Char)} {name : List Char} {ls after : List (List Char)}
    (untaken : ∀ l ∈ after, valueFor re name l = none) : lastValue re name (ls ++ after) = lastValue re name ls := by
  rw [lastValue, List.reverse_append, List.findSome?_append,
    List.findSome?_eq_none_iff.2 fun l among => untaken l (List.mem_reverse.1 among), Option.none_or, lastValue]

theorem valueFor_eq_some {re : List Char → Option (List Char × List Char)} {name line value : List Char} :
    valueFor re name line = some value ↔ re line = some (name, value) := by
  unfold valueFor
  cases re line with
  | none => simp
  | some found =>
    obtain ⟨key, kept⟩ := found
    simp

theorem untaken_named {name line : List Char} (untaken : ¬ Taken name line) : valueFor lineRe name line = none := by
  by_contra some_value
  obtain ⟨value, isValue⟩ := Option.ne_none_iff_exists'.1 some_value
  exact untaken (.inl ⟨value, valueFor_eq_some.1 isValue⟩)

theorem untaken_read {name line : List Char} (asked : name ∈ Media.asked) (untaken : ¬ Taken name line) :
    valueFor Media.lineRe name line = none := by
  by_contra some_value
  obtain ⟨value, isValue⟩ := Option.ne_none_iff_exists'.1 some_value
  exact untaken (.inr ⟨asked, value, valueFor_eq_some.1 isValue⟩)

theorem lastValue_none {re : List Char → Option (List Char × List Char)} {name : List Char} {ls : List (List Char)}
    (none : ∀ l ∈ ls, valueFor re name l = none) : lastValue re name ls = .none :=
  List.findSome?_eq_none_iff.2 fun l among => none l (List.mem_reverse.1 among)

/-- Where none is taken after it, the value of a line that is taken counts. -/
theorem lastValue_here {re : List Char → Option (List Char × List Char)} {name line value : List Char}
    {before after : List (List Char)} (here : re line = some (name, value))
    (untaken : ∀ l ∈ after, valueFor re name l = none) : lastValue re name (before ++ line :: after) = some value := by
  rw [List.append_cons, lastValue_append untaken, lastValue_snoc, valueFor_eq_some.2 here, Option.some_or]

/-- What the readers have of a variable is from the last line that one who is asked for it takes. -/
theorem agreeOn_of_last {text name : List Char} (known : name ∈ Announce.wanted ++ Media.asked)
    (fit : ∀ before line after, lines text = before ++ line :: after → Taken name line →
      (∀ l ∈ after, ¬ Taken name l) → Fit name line) : AgreeOn text name := by
  by_cases some_line : ∃ line ∈ lines text, Taken name line
  · obtain ⟨before, line, after, parts, taken, none⟩ := Pieces.exists_last some_line
    have fits := fit before line after parts taken none
    by_cases asked : name ∈ Media.asked
    · obtain ⟨_, c, rest, _, value, spelled, rfl, oneLine, clear⟩ := spelled_of_plain known (fits.1 asked)
      have named : lineRe line = some (c :: rest, value) := by rw [spelled.named, oneLine]; rfl
      have read : Media.lineRe line = some (c :: rest, value.dropWhile space) := by
        rw [spelled.read, not_any_dropWhile oneLine]
        rfl
      have byName : lastValue lineRe (c :: rest) (lines text) = some value :=
        parts ▸ lastValue_here named fun l among => untaken_named (none l among)
      have byMedia : lastValue Media.lineRe (c :: rest) (lines text) = some (value.dropWhile space) :=
        parts ▸ lastValue_here read fun l among => untaken_read asked (none l among)
      have empty := (isEmptyValue_iff value).2 clear
      constructor
      · intro wanted _
        simp [get_announce text wanted, get_media, byName, byMedia, valueOf_dropWhile]
      · intro wanted
        simp [get_announce text wanted, get_names, byName, empty]
      · intro _
        simp [get_media, get_names, byName, byMedia, valueOf_dropWhile, empty]
    · obtain ⟨value, named⟩ := taken.resolve_right fun read => asked read.1
      have byName : lastValue lineRe name (lines text) = some value :=
        parts ▸ lastValue_here named fun l among => untaken_named (none l among)
      have empty := (isEmptyValue_iff value).2 (fits.2 asked value named)
      constructor
      · exact fun _ isAsked => absurd isAsked asked
      · intro wanted
        simp [get_announce text wanted, get_names, byName, empty]
      · exact fun isAsked => absurd isAsked asked
  · have byName : lastValue lineRe name (lines text) = none :=
      lastValue_none fun l among => untaken_named fun taken => some_line ⟨l, among, taken⟩
    have byMedia (asked : name ∈ Media.asked) : lastValue Media.lineRe name (lines text) = none :=
      lastValue_none fun l among => untaken_read asked fun taken => some_line ⟨l, among, taken⟩
    constructor
    · intro wanted asked
      simp [get_announce text wanted, get_media, byName, byMedia asked]
    · intro wanted
      simp [get_announce text wanted, get_names, byName]
    · intro asked
      simp [get_media, get_names, byName, byMedia asked]

theorem lastValue_alone {re : List Char → Option (List Char × List Char)} {name line : List Char}
    {before after : List (List Char)} (others : ∀ l ∈ before ++ after, valueFor re name l = none) :
    lastValue re name (before ++ line :: after) = valueFor re name line := by
  rw [List.append_cons, lastValue_append fun l among => others l (List.mem_append_right _ among), lastValue_snoc,
    lastValue_none fun l among => others l (List.mem_append_left _ among), Option.or_none]

/-- A variable that only one line is taken for is agreed on only where that line is fit. -/
theorem fit_of_agreeOn {text name line : List Char} {before after : List (List Char)}
    (known : name ∈ Announce.wanted ++ Media.asked) (parts : lines text = before ++ line :: after)
    (taken : Taken name line) (alone : ∀ l ∈ before ++ after, ¬ Taken name l) (agree : AgreeOn text name) :
    Fit name line := by
  have byName : lastValue lineRe name (lines text) = valueFor lineRe name line :=
    parts ▸ lastValue_alone fun l among => untaken_named (alone l among)
  refine ⟨fun asked => ?_, fun unasked value named => ?_⟩
  · have byMedia : lastValue Media.lineRe name (lines text) = valueFor Media.lineRe name line :=
      parts ▸ lastValue_alone fun l among => untaken_read asked (alone l among)
    have same := agree.asked asked
    rw [get_names, get_media, byName, byMedia, Option.map_map] at same
    obtain ⟨value, raw, named, read⟩ : ∃ value raw, lineRe line = some (name, value) ∧
        Media.lineRe line = some (name, raw) := by
      rcases taken with ⟨value, named⟩ | ⟨-, raw, read⟩
      · rw [valueFor_eq_some.2 named] at same
        obtain ⟨raw, isRaw, -⟩ := Option.map_eq_some_iff.1 same.symm
        exact ⟨value, raw, named, valueFor_eq_some.1 isRaw⟩
      · rw [valueFor_eq_some.2 read] at same
        obtain ⟨value, isValue, -⟩ := Option.map_eq_some_iff.1 same
        exact ⟨value, raw, valueFor_eq_some.1 isValue, read⟩
    obtain ⟨whites, c, rest, between, value', spelled, rfl, rfl⟩ := spelled_of_media read
    have oneLine : value'.any terminator = false := by
      by_contra several
      rw [spelled.named, if_pos (by simpa using several)] at named
      cases named
    have isValue : value' = value := by
      rw [spelled.named, oneLine] at named
      exact (Prod.mk.inj (Option.some.inj named)).2
    rw [valueFor_eq_some.2 named, valueFor_eq_some.2 read, Option.map_some, Option.map_some] at same
    refine ⟨whites, between, value', by simp [spelled.line], spelled.before, spelled.between, oneLine, ?_⟩
    refine (isEmptyValue_iff value').1 ?_
    rw [← valueOf_dropWhile]
    simpa [isValue] using Option.some.inj same
  · have wanted : name ∈ Announce.wanted := (List.mem_append.1 known).resolve_right unasked
    have same := agree.announced wanted
    rw [get_names, get_announce text wanted, byName, valueFor_eq_some.2 named] at same
    exact (isEmptyValue_iff value).1 (Option.some.inj same)

/-- The readers agree on every variable that they are asked for where the last line that is taken for each is fit; and
where no two lines are taken for one variable, only there. -/
theorem agree_iff_fit (text : List Char) :
    ((∀ name ∈ Announce.wanted ++ Media.asked, ∀ before line after, lines text = before ++ line :: after →
      Taken name line → (∀ l ∈ after, ¬ Taken name l) → Fit name line) → Agree text) ∧
    ((∀ name ∈ Announce.wanted ++ Media.asked, ∀ before line after, lines text = before ++ line :: after →
      Taken name line → ∀ l ∈ before ++ after, ¬ Taken name l) →
      (Agree text ↔ ∀ name ∈ Announce.wanted ++ Media.asked, ∀ line ∈ lines text, Taken name line → Fit name line)) := by
  refine ⟨fun fit name known => agreeOn_of_last known (fit name known), fun alone => ⟨?_, ?_⟩⟩
  · intro agree name known line among taken
    obtain ⟨before, after, parts⟩ := List.append_of_mem among
    exact fit_of_agreeOn known parts taken (alone name known before line after parts taken) (agree name known)
  · intro fit name known
    refine agreeOn_of_last known fun before line after parts taken _ => fit name known line ?_ taken
    rw [parts]
    exact List.mem_append_right _ (List.mem_cons_self ..)

/-- A secret that is exported is one to the announcements, and none to the media client. -/
theorem exported_secret_missing : ¬ ∀ text, Agree text := by
  intro always
  have agree := (always "export OV_OAUTH_CLIENT_SECRET=abc".toList "OV_OAUTH_CLIENT_SECRET".toList (by decide)).values
    (by decide) (by decide)
  exact absurd agree (by decide +kernel)

end OpenVibeHost.EnvFile
