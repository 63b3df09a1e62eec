import OpenVibeHost.EnvFile
import OpenVibeHost.Paths
import OpenVibeHost.Pieces
import Mathlib

/-! What a restore drill asks of the listing of an object archive before it extracts it as root, `tarMemberProblem` of
`lib/commands/drill.js`, and the listing as `tar -tvz` prints it in the locale `C`. -/
namespace OpenVibeHost.TarListing
open EnvFile (space terminator trim lines trim_within space_printed digit_black)
open Pieces

/-! ### The check -/

/-- `(\S+)\s+`: a word, and what follows the white space after it. -/
def word (text : List Char) : Option (List Char × List Char) :=
  match text.takeWhile (!space ·), text.dropWhile (!space ·) with
  | [], _ => none
  | _, [] => none
  | w, rest => some (w, rest.dropWhile space)

/-- `^(\S+)\s+\S+\s+\d+\s+\S+\s+\S+\s+(.*)$`. -/
def columns (line : List Char) : Option (List Char × List Char) :=
  (word line).bind fun (modes, rest) =>
  (word rest).bind fun (_, rest) =>
  (word rest).bind fun (size, rest) =>
  (word rest).bind fun (_, rest) =>
  (word rest).bind fun (_, rest) =>
  if size.all Char.isDigit ∧ rest.any terminator = false then some (modes, rest) else none

/-- `replace(/ -> .*$/, '')`. -/
def beforeArrow : List Char → List Char
  | [] => []
  | ' ' :: '-' :: '>' :: ' ' :: _ => []
  | c :: rest => c :: beforeArrow rest

/-- Whether a name is absolute or goes up. -/
def Escapes (name : List Char) : Prop := name.head? = some '/' ∨ ['.', '.'] ∈ name.splitOn '/'

instance : DecidablePred Escapes := fun name =>
  inferInstanceAs (Decidable (name.head? = some '/' ∨ ['.', '.'] ∈ name.splitOn '/'))

/-- What is wrong with a line. -/
def lineProblem (line : List Char) : Option String :=
  if trim line = [] then none
  else match columns line with
    | none => some ("unparsable tar listing line: " ++ String.ofList ((trim line).take 80))
    | some (modes, rest) =>
      let name := trim (beforeArrow rest)
      if modes.head? ≠ some '-' ∧ modes.head? ≠ some 'd' then
        some ("member " ++ String.ofList name ++ " is not a regular file or directory (" ++
          String.ofList (modes.take 1) ++ ")")
      else if Escapes name then some ("member " ++ String.ofList name ++ " is not a safe relative path")
      else none

/-- The first problem of a listing. -/
def tarMemberProblem (listing : List Char) : Option String := (lines listing).findSome? lineProblem

/-! ### The listing -/

/-- What a member is, with what tar prints of it. -/
inductive Kind where
  | regular (size : Nat)
  | directory (size : Nat)
  | symlink (target : List UInt8)
  | hardlink (target : List UInt8)
  | character (major minor : Nat)
  | block (major minor : Nat)
  | fifo
  | contiguous (size : Nat)
  | volume
  | continued (start size : Nat)
  | unknown (flag : UInt8) (size : Nat)

/-- When a member was changed: what the calendar cannot say is printed in seconds. -/
inductive Stamp where
  | calendar (year : Int) (month day hour minute : Nat)
  | seconds (count : Int)

/-- A member of an archive. The names of its owner and its group are printed as the archive has them. -/
structure Member where
  kind : Kind
  mode : Nat
  user : List Char
  group : List Char
  stamp : Stamp
  name : List UInt8

/-- A byte of a name in the quoting style `escape`. -/
def escapeByte (b : UInt8) : List Char :=
  if b = 0x5c then ['\\', '\\']
  else if 0x20 ≤ b ∧ b ≤ 0x7e then [Char.ofNat b.toNat]
  else if b = 0x07 then ['\\', 'a']
  else if b = 0x08 then ['\\', 'b']
  else if b = 0x09 then ['\\', 't']
  else if b = 0x0a then ['\\', 'n']
  else if b = 0x0b then ['\\', 'v']
  else if b = 0x0c then ['\\', 'f']
  else if b = 0x0d then ['\\', 'r']
  else ['\\', Nat.digitChar (b.toNat / 64), Nat.digitChar (b.toNat / 8 % 8), Nat.digitChar (b.toNat % 8)]

def escaped (name : List UInt8) : List Char := name.flatMap escapeByte

/-- The first letter of a line: a regular file whose name ends in a slash is a directory. -/
def Member.letter (m : Member) : Char :=
  match m.kind with
  | .regular _ => if m.name.getLast? = some 0x2f then 'd' else '-'
  | .directory _ => 'd'
  | .symlink _ => 'l'
  | .hardlink _ => 'h'
  | .character .. => 'c'
  | .block .. => 'b'
  | .fifo => 'p'
  | .contiguous _ => 'C'
  | .volume => 'V'
  | .continued .. => 'M'
  | .unknown .. => '?'

/-- Three letters of the permissions, the last of which a special bit changes. -/
def triple (r w x special : Bool) (small big : Char) : List Char :=
  [if r then 'r' else '-', if w then 'w' else '-',
    if special then if x then small else big else if x then 'x' else '-']

def permissions (mode : Nat) : List Char :=
  triple (mode.testBit 8) (mode.testBit 7) (mode.testBit 6) (mode.testBit 11) 's' 'S' ++
    triple (mode.testBit 5) (mode.testBit 4) (mode.testBit 3) (mode.testBit 10) 's' 'S' ++
    triple (mode.testBit 2) (mode.testBit 1) (mode.testBit 0) (mode.testBit 9) 't' 'T'

def decimal (n : Nat) : List Char := Nat.toDigits 10 n

/-- The size, or the number of a device. -/
def Kind.size : Kind → List Char
  | .regular size | .directory size | .contiguous size | .continued _ size | .unknown _ size => decimal size
  | .character major minor | .block major minor => decimal major ++ ',' :: decimal minor
  | .symlink _ | .hardlink _ | .fifo | .volume => decimal 0

/-- What follows the name. -/
def Kind.suffix : Kind → List Char
  | .symlink target => " -> ".toList ++ escaped target
  | .hardlink target => " link to ".toList ++ escaped target
  | .unknown flag _ =>
    " unknown file type '".toList ++ ((if flag = 0x27 then ['\\', '\''] else escapeByte flag) ++ ['\''])
  | .volume => "--Volume Header--".toList
  | .continued start _ => "--Continued at byte ".toList ++ decimal start ++ "--".toList
  | _ => []

/-- `%0*d`. -/
def zeros (width n : Nat) : List Char := List.replicate (width - (decimal n).length) '0' ++ decimal n

def Stamp.text : Stamp → List Char
  | .calendar year month day hour minute =>
    ((if year < 0 then '-' :: zeros 3 year.natAbs else zeros 4 year.natAbs) ++ '-' :: zeros 2 month ++ '-' :: zeros 2 day) ++
      ' ' :: (zeros 2 hour ++ ':' :: zeros 2 minute)
  | .seconds count => (if count < 0 then ['-'] else []) ++ decimal count.natAbs

def Member.owner (m : Member) : List Char := m.user ++ '/' :: m.group

/-- A line, with the widths of the columns so far. -/
def Member.line (m : Member) (width dates : Nat) : List Char :=
  (m.letter :: permissions m.mode) ++ ' ' :: (m.owner ++ ' ' ::
    (List.replicate (width - (m.owner.length + 1 + m.kind.size.length)) ' ' ++ (m.kind.size ++ ' ' ::
      (m.stamp.text ++ (List.replicate (dates - m.stamp.text.length) ' ' ++ ' ' :: (escaped m.name ++ m.kind.suffix))))))

/-- A listing; a column grows with the longest entry yet. -/
def printFrom (width dates : Nat) : List Member → List Char
  | [] => []
  | m :: rest =>
    let width := max width (m.owner.length + 1 + m.kind.size.length)
    let dates := max dates m.stamp.text.length
    m.line width dates ++ '\n' :: printFrom width dates rest

/-- What `tar -tvz` prints of an archive. -/
def listing (members : List Member) : List Char := printFrom 19 16 members

/-! ### What the check is for -/

/-- A regular file or a directory that is extracted below the directory of the extraction. -/
def Member.Safe (m : Member) : Prop :=
  (∃ size, m.kind = .regular size ∨ m.kind = .directory size) ∧ m.name.head? ≠ some 0x2f ∧
    [0x2e, 0x2e] ∉ m.name.splitOn 0x2f

/-- A member whose name goes up only behind an arrow. -/
def Member.Hides (m : Member) : Prop :=
  ∃ first later, escaped m.name = first ++ " -> ".toList ++ later ∧ ['.', '.'] ∈ (later.splitOn '/').tail

/-- A member that is no regular file and no directory, or whose name is seen to be unsafe up to its first arrow. -/
def Member.Refused (m : Member) : Prop :=
  (∀ size, m.kind ≠ .regular size ∧ m.kind ≠ .directory size) ∨
    Escapes (trim (beforeArrow ((escaped m.name).dropWhile space)))

/-- A member whose owner and group have no white space in their names, and whose time a calendar can show. -/
def Member.Plain (m : Member) : Prop :=
  m.owner.all (!space ·) = true ∧ ∃ year month day hour minute, m.stamp = .calendar year month day hour minute

/-! ### Components of a name -/

/-- Two dots in a text of two pieces stand in one of them, or there is a dot on each side. -/
theorem dots_append {before after first later : List Char} (whole : before ++ ['.', '.'] ++ after = first ++ later) :
    (∃ more, first = before ++ ['.', '.'] ++ more ∧ after = more ++ later) ∨
      (∃ more, later = more ++ ['.', '.'] ++ after ∧ before = first ++ more) ∨
      ∃ less more, first = less ++ ['.'] ∧ later = '.' :: more := by
  rcases List.append_eq_append_iff.1 whole with ⟨more, isFirst, isAfter⟩ | ⟨more, isBefore, isLater⟩
  · exact .inl ⟨more, isFirst, isAfter⟩
  · rcases List.eq_nil_or_concat more with rfl | ⟨more, d, rfl⟩
    · exact .inl ⟨[], by rw [isBefore]; simp, by rw [isLater]; simp⟩
    · have cut : before ++ ['.'] = first ++ more ∧ '.' = d := by
        have same : (before ++ ['.']) ++ ['.'] = (first ++ more) ++ [d] := by simpa using isBefore
        exact ⟨(List.append_inj' same rfl).1, by simpa using (List.append_inj' same rfl).2⟩
      obtain ⟨short, rfl⟩ := cut
      rcases List.eq_nil_or_concat more with rfl | ⟨more, e, rfl⟩
      · exact .inr (.inr ⟨before, after, by simpa using short.symm, by rw [isLater]; simp⟩)
      · have same : before ++ ['.'] = (first ++ more) ++ [e] := by simpa using short
        obtain ⟨prior, isDot⟩ := List.append_inj' same rfl
        obtain rfl : '.' = e := by simpa using isDot
        exact .inr (.inl ⟨more, by rw [isLater]; simp, prior⟩)

/-! ### Escaped names -/

theorem escapeByte_shape (b : UInt8) :
    (0x20 ≤ b ∧ b ≤ 0x7e ∧ escapeByte b = [Char.ofNat b.toNat]) ∨
      ∃ rest, escapeByte b = '\\' :: rest ∧ ∀ c ∈ rest, c = '\\' ∨ c.isAlphanum = true := by
  have digit (n : Nat) (small : n < 10) : (Nat.digitChar n).isAlphanum = true :=
    (by decide : ∀ n < 10, (Nat.digitChar n).isAlphanum = true) n small
  have letter (c : Char) (known : c.isAlphanum = true) : ∃ rest, ['\\', c] = '\\' :: rest ∧
      ∀ d ∈ rest, d = '\\' ∨ d.isAlphanum = true :=
    ⟨[c], rfl, List.forall_mem_singleton.2 (.inr known)⟩
  generalize is : escapeByte b = text
  unfold escapeByte at is
  subst is
  by_cases slash : b = 0x5c
  · rw [if_pos slash]
    exact .inr ⟨['\\'], rfl, List.forall_mem_singleton.2 (.inl rfl)⟩
  rw [if_neg slash]
  by_cases printed : 0x20 ≤ b ∧ b ≤ 0x7e
  · rw [if_pos printed]
    exact .inl ⟨printed.1, printed.2, rfl⟩
  rw [if_neg printed]
  refine .inr ?_
  split
  · exact letter 'a' (by decide)
  split
  · exact letter 'b' (by decide)
  split
  · exact letter 't' (by decide)
  split
  · exact letter 'n' (by decide)
  split
  · exact letter 'v' (by decide)
  split
  · exact letter 'f' (by decide)
  split
  · exact letter 'r' (by decide)
  · refine ⟨_, rfl, List.forall_mem_cons.2 ⟨.inr (digit _ ?_), List.forall_mem_cons.2 ⟨.inr (digit _ ?_),
      List.forall_mem_singleton.2 (.inr (digit _ ?_))⟩⟩⟩
    · have := b.toNat_lt
      omega
    · omega
    · omega

theorem toNat_printed : ∀ n < 127, (Char.ofNat n).toNat = n := by decide

/-- An escaped name is written in printable characters. -/
theorem printed_escaped {name : List UInt8} {c : Char} (among : c ∈ escaped name) : 0x20 ≤ c.toNat ∧ c.toNat ≤ 0x7e := by
  obtain ⟨b, -, inside⟩ := List.mem_flatMap.1 among
  rcases escapeByte_shape b with ⟨low, high, same⟩ | ⟨rest, same, each⟩
  · rw [same, List.mem_singleton] at inside
    have small : b.toNat ≤ 126 := UInt8.le_iff_toNat_le.1 high
    have large : 32 ≤ b.toNat := UInt8.le_iff_toNat_le.1 low
    rw [inside, toNat_printed b.toNat (by omega)]
    exact ⟨large, small⟩
  · rw [same, List.mem_cons] at inside
    have slash : (0x20 : Nat) ≤ '\\'.toNat ∧ '\\'.toNat ≤ 0x7e := by decide
    rcases inside with rfl | inside
    · exact slash
    · rcases each c inside with rfl | plain
      · exact slash
      · simp only [Char.isAlphanum, Char.isAlpha, Char.isUpper, Char.isLower, Char.isDigit, Bool.or_eq_true,
          Bool.and_eq_true, decide_eq_true_eq, ge_iff_le, UInt32.le_iff_toNat_le] at plain
        have letters : 'A'.val.toNat = 65 ∧ 'Z'.val.toNat = 90 ∧ 'a'.val.toNat = 97 ∧ 'z'.val.toNat = 122 ∧
          '0'.val.toNat = 48 ∧ '9'.val.toNat = 57 := by decide
        simp only [Char.toNat]
        omega

theorem escapeByte_slash {b : UInt8} : '/' ∈ escapeByte b ↔ b = 0x2f := by
  constructor
  · intro inside
    rcases escapeByte_shape b with ⟨low, high, same⟩ | ⟨rest, same, each⟩
    · rw [same, List.mem_singleton] at inside
      have small : b.toNat ≤ 126 := UInt8.le_iff_toNat_le.1 high
      have number := congrArg Char.toNat inside
      rw [toNat_printed b.toNat (by omega)] at number
      exact UInt8.toNat_inj.1 number.symm
    · rw [same, List.mem_cons] at inside
      rcases inside with slash | inside
      · exact absurd slash (by decide)
      · rcases each _ inside with slash | plain
        · exact absurd slash (by decide)
        · exact absurd plain (by decide)
  · rintro rfl
    decide

/-- The components of a name are escaped one by one. -/
theorem splitOn_escaped (name : List UInt8) : (escaped name).splitOn '/' = (name.splitOn 0x2f).map escaped := by
  induction name with
  | nil => rfl
  | cons b rest ih =>
    have front : escaped (b :: rest) = escapeByte b ++ escaped rest := List.flatMap_cons
    rw [front, List.splitOn_cons_eq_if_modifyHead]
    by_cases slash : b = 0x2f
    · subst slash
      rw [if_pos (by decide), List.map_cons, ← ih]
      exact @List.splitOn_append_cons_self _ _ _ '/' [] (escaped rest)
    · rw [if_neg (by simpa using slash), splitOn_append_of_not_mem (fun inside => slash (escapeByte_slash.1 inside)), ih]
      cases rest.splitOn 0x2f with
      | nil => rfl
      | cons head tail => rfl

theorem head_escaped {name : List UInt8} {c : Char} (plain : c ≠ '\\')
    (isHead : (escaped name).head? = some c) : ∃ rest, name = UInt8.ofNat c.toNat :: rest ∧
      escaped name = c :: escaped rest := by
  cases name with
  | nil => cases isHead
  | cons b rest =>
    have front : escaped (b :: rest) = escapeByte b ++ escaped rest := List.flatMap_cons
    rcases escapeByte_shape b with ⟨-, high, same⟩ | ⟨more, same, -⟩
    · rw [front, same, List.singleton_append, List.head?_cons, Option.some.injEq] at isHead
      have small : b.toNat ≤ 126 := UInt8.le_iff_toNat_le.1 high
      refine ⟨rest, ?_, by rw [front, same, isHead]; rfl⟩
      rw [← isHead, toNat_printed b.toNat (by omega), UInt8.ofNat_toNat]
    · rw [front, same, List.cons_append, List.head?_cons, Option.some.injEq] at isHead
      exact absurd isHead.symm plain

theorem escaped_dots {part : List UInt8} : escaped part = ['.', '.'] ↔ part = [0x2e, 0x2e] := by
  constructor
  · intro dots
    obtain ⟨rest, rfl, shorter⟩ := @head_escaped part '.' (by decide) (by rw [dots]; rfl)
    obtain ⟨last, rfl, shortest⟩ := @head_escaped rest '.' (by decide) (by
      rw [dots] at shorter
      rw [← (List.cons.inj shorter).2]
      rfl)
    have none' : escaped last = [] := by
      rw [dots, shortest] at shorter
      simpa using shorter.symm
    cases last with
    | nil => rfl
    | cons b more =>
      have front : escaped (b :: more) = escapeByte b ++ escaped more := List.flatMap_cons
      rcases escapeByte_shape b with ⟨-, -, same⟩ | ⟨_, same, -⟩ <;> simp [front, same] at none'
  · rintro rfl
    decide

/-! ### The name that is read -/

theorem beforeArrow_append (text : List Char) :
    ∃ rest, text = beforeArrow text ++ rest ∧ (rest = [] ∨ ∃ later, rest = " -> ".toList ++ later) := by
  fun_induction beforeArrow text with
  | case1 => exact ⟨[], rfl, .inl rfl⟩
  | case2 later => exact ⟨_, rfl, .inr ⟨later, rfl⟩⟩
  | case3 c rest _ ih =>
    obtain ⟨after, whole, arrow⟩ := ih
    exact ⟨after, congrArg (c :: ·) whole, arrow⟩

/-- The name that the check looks at, in the middle of the one that is printed. -/
theorem seen_within (printed : List Char) : ∃ left right rest,
    printed = left ++ trim (beforeArrow (printed.dropWhile space)) ++ (right ++ rest) ∧
      (∀ c ∈ left, space c = true) ∧ (∀ c ∈ right, space c = true) ∧
      (rest = [] ∨ ∃ later, rest = " -> ".toList ++ later) := by
  obtain ⟨rest, whole, arrow⟩ := beforeArrow_append (printed.dropWhile space)
  obtain ⟨left, right, same, blankL, blankR⟩ := trim_within (beforeArrow (printed.dropWhile space))
  refine ⟨printed.takeWhile space ++ left, right, rest, ?_, fun c among => ?_, blankR, arrow⟩
  · conv_lhs => rw [← List.takeWhile_append_dropWhile (p := space) (l := printed), whole, same]
    simp
  · exact (List.mem_append.1 among).elim (fun early => List.mem_takeWhile_imp early) (blankL c)

theorem not_blank_dot {blanks : List Char} (blank : ∀ c ∈ blanks, space c = true) {c : Char} (black : space c = false) :
    c ∉ blanks := fun inside => by simp [blank c inside] at black

theorem not_blank_of_plain {word : List Char} (plain : ∀ c ∈ word, space c = false) {c : Char} (blank : space c = true) :
    c ∉ word := fun inside => by simp [plain c inside] at blank

/-- A name whose visible part does not go up goes up only behind an arrow. -/
theorem hides_of_dots {printed : List Char} (dots : ['.', '.'] ∈ printed.splitOn '/')
    (seen : ['.', '.'] ∉ (trim (beforeArrow (printed.dropWhile space))).splitOn '/') :
    ∃ first later, printed = first ++ " -> ".toList ++ later ∧ ['.', '.'] ∈ (later.splitOn '/').tail := by
  obtain ⟨left, right, rest, whole, blankL, blankR, arrow⟩ := seen_within printed
  generalize trim (beforeArrow (printed.dropWhile space)) = name at whole seen
  obtain ⟨before, after, place, begins, ends⟩ := of_mem_splitOn dots
  have noDotL : '.' ∉ left := not_blank_dot blankL (by decide)
  have noDotR : '.' ∉ right := not_blank_dot blankR (by decide)
  have noSlashL : '/' ∉ left := not_blank_dot blankL (by decide)
  rw [place] at whole
  rcases dots_append whole with ⟨more, inName, isAfter⟩ | ⟨more, inRest, isBefore⟩ | ⟨less, more, -, onEdge⟩
  · -- The dots stand before the arrow: the check sees them.
    refine absurd ?_ seen
    have endsMore : Ends '/' more := by
      rcases ends with none' | ⟨tail, isTail⟩
      · exact .inl (List.append_eq_nil_iff.1 (isAfter ▸ none')).1
      · cases more with
        | nil => exact .inl rfl
        | cons d more =>
          rw [isAfter, List.cons_append] at isTail
          exact .inr ⟨more, by rw [(List.cons.inj isTail).1]⟩
    rcases dots_append inName.symm with ⟨_, inLeft, -⟩ | ⟨start, isName, isBefore⟩ | ⟨less, tail, inLeft, -⟩
    · exact absurd (by rw [inLeft]; simp) noDotL
    · have beginsStart : Begins '/' start := by
        rcases List.eq_nil_or_concat start with none' | ⟨short, d, isStart⟩
        · exact .inl none'
        · rcases begins with none'' | ⟨tail, isTail⟩
          · rw [none'', isStart] at isBefore
            simp at isBefore
          · have last : left ++ short ++ [d] = tail ++ ['/'] := by rw [← isTail, isBefore, isStart]; simp
            exact .inr ⟨short, by rw [isStart, List.concat_eq_append, (List.append_inj' last rfl).2]⟩
      rw [isName]
      exact mem_splitOn_of (by decide) beginsStart endsMore
    · exact absurd (by rw [inLeft]; simp) noDotL
  · -- They stand behind it, and behind a slash, since an arrow is no component.
    rcases dots_append inRest.symm with ⟨_, inRight, -⟩ | ⟨start, isRest, isMore⟩ | ⟨less, _, inRight, -⟩
    · exact absurd (by rw [inRight]; simp) noDotR
    · rcases arrow with rfl | ⟨later, rfl⟩
      · simp at isRest
      · rcases dots_append isRest.symm with ⟨_, inArrow, -⟩ | ⟨begun, isLater, isStart⟩ | ⟨less, _, inArrow, -⟩
        · exact absurd (show '.' ∈ " -> ".toList by rw [inArrow]; simp) (by decide)
        · rw [isMore, isStart] at isBefore
          rcases begins with none' | ⟨short, isShort⟩
          · rw [none'] at isBefore
            simp at isBefore
          · rcases List.eq_nil_or_concat begun with rfl | ⟨up, d, rfl⟩
            · rw [isShort] at isBefore
              have last := congrArg List.getLast? isBefore
              simp at last
            · have last : short ++ ['/'] = (left ++ name ++ right ++ " -> ".toList ++ up) ++ [d] := by
                rw [← isShort, isBefore]
                simp
              obtain rfl : '/' = d := by simpa using (List.append_inj' last rfl).2
              refine ⟨left ++ name ++ right, later, ?_, ?_⟩
              · rw [place, isBefore, isLater]
                simp
              · rw [isLater, List.concat_eq_append, List.append_assoc, List.append_assoc, List.singleton_append]
                exact mem_tail_splitOn_of (by decide) ends
        · exact absurd (show '.' ∈ " -> ".toList by rw [inArrow]; simp) (by decide)
    · exact absurd (by rw [inRight]; simp) noDotR
  · cases right with
    | nil =>
      rcases arrow with rfl | ⟨later, rfl⟩
      · cases onEdge
      · exact absurd (List.cons.inj onEdge).1 (by decide)
    | cons d right =>
      refine absurd ?_ noDotR
      rw [(List.cons.inj onEdge).1]
      exact List.mem_cons_self ..

theorem head_trim {c : Char} (black : space c = false) (text : List Char) : (trim (c :: text)).head? = some c := by
  obtain ⟨left, right, whole, blankL, blankR⟩ := trim_within (c :: text)
  cases left with
  | cons d left =>
    have same : c = d := (List.cons.inj whole).1
    exact absurd (blankL d (List.mem_cons_self ..)) (by simp [← same, black])
  | nil =>
    cases shape : trim (c :: text) with
    | nil =>
      rw [shape, List.nil_append, List.nil_append] at whole
      exact absurd (blankR c (whole ▸ List.mem_cons_self ..)) (by simp [black])
    | cons d more =>
      rw [shape, List.nil_append, List.cons_append] at whole
      rw [(List.cons.inj whole).1]
      rfl

/-- A member whose visible name is safe is itself safe, unless an arrow hides where it goes up. -/
theorem safe_iff_not_hides {m : Member} (file : ∃ size, m.kind = .regular size ∨ m.kind = .directory size)
    (seen : ¬Escapes (trim (beforeArrow ((escaped m.name).dropWhile space)))) : m.Safe ↔ ¬m.Hides := by
  have dots : ['.', '.'] ∈ (escaped m.name).splitOn '/' ↔ [0x2e, 0x2e] ∈ m.name.splitOn 0x2f := by
    rw [splitOn_escaped, List.mem_map]
    constructor
    · rintro ⟨part, among, isDots⟩
      rwa [← escaped_dots.1 isDots]
    · exact fun among => ⟨_, among, escaped_dots.2 rfl⟩
  constructor
  · rintro ⟨-, -, level⟩ ⟨first, later, whole, up⟩
    obtain ⟨before, after, isLater, ends⟩ := of_mem_tail up
    refine level (dots.1 ?_)
    rw [whole, isLater, ← List.append_assoc]
    exact List.mem_of_mem_tail (mem_tail_splitOn_of (by decide) ends)
  · intro open'
    refine ⟨file, fun absolute => ?_, fun up => ?_⟩
    · refine seen (.inl ?_)
      have begins : ∃ rest, escaped m.name = '/' :: rest := by
        cases shape : m.name with
        | nil => rw [shape] at absolute; cases absolute
        | cons b rest =>
          rw [shape, List.head?_cons, Option.some.injEq] at absolute
          exact ⟨escaped rest, by rw [absolute]; rfl⟩
      obtain ⟨rest, begins⟩ := begins
      rw [begins, List.dropWhile_cons_of_neg (by decide)]
      exact head_trim (by decide) _
    · exact open' (hides_of_dots (dots.2 up) fun among => seen (.inr among))

/-! ### Reading a line -/

theorem word_append {w rest : List Char} {c : Char} (named : w ≠ []) (plain : ∀ d ∈ w, space d = false)
    (blank : space c = true) : word (w ++ c :: rest) = some (w, rest.dropWhile space) := by
  have kept : ∀ d ∈ w, (!space d) = true := fun d among => by rw [plain d among]; rfl
  have taken : (c :: rest).takeWhile (!space ·) = [] := List.takeWhile_cons_of_neg (by simp [blank])
  have dropped : (c :: rest).dropWhile (!space ·) = c :: rest := List.dropWhile_cons_of_neg (by simp [blank])
  unfold word
  rw [List.takeWhile_append_of_pos kept, List.dropWhile_append_of_pos kept, taken, dropped, List.append_nil]
  cases w with
  | nil => exact absurd rfl named
  | cons d w =>
    dsimp only
    rw [List.dropWhile_cons_of_pos blank]

theorem dropWhile_plain {w rest : List Char} (named : w ≠ []) (plain : ∀ d ∈ w, space d = false) :
    (w ++ rest).dropWhile space = w ++ rest := by
  cases w with
  | nil => exact absurd rfl named
  | cons d w => exact List.dropWhile_cons_of_neg (by simp [plain d (List.mem_cons_self ..)])

theorem dropWhile_blanks (k : Nat) (rest : List Char) :
    (List.replicate k ' ' ++ rest).dropWhile space = rest.dropWhile space :=
  List.dropWhile_append_of_pos fun c among => by rw [List.eq_of_mem_replicate among]; decide

/-- The next word, behind any number of blanks. -/
theorem word_padded {w : List Char} (named : w ≠ []) (plain : ∀ d ∈ w, space d = false) (k : Nat) (rest : List Char) :
    word ((List.replicate k ' ' ++ (w ++ ' ' :: rest)).dropWhile space) = some (w, rest.dropWhile space) := by
  rw [dropWhile_blanks, dropWhile_plain named plain]
  exact word_append named plain (by decide)

theorem decimal_digits (n : Nat) : ∀ c ∈ decimal n, c.isDigit = true := fun _ among =>
  Nat.isDigit_of_mem_toDigits (by decide) (by decide) among

theorem zeros_digits (width n : Nat) : ∀ c ∈ zeros width n, c.isDigit = true := by
  intro c among
  rcases List.mem_append.1 among with zero | digit
  · rw [List.eq_of_mem_replicate zero]
    decide
  · exact decimal_digits n c digit

theorem triple_plain (r w x special : Bool) {small big : Char} (plain : space small = false ∧ space big = false) :
    ∀ c ∈ triple r w x special small big, space c = false := by
  unfold triple
  have dash : space '-' = false ∧ space 'r' = false ∧ space 'w' = false ∧ space 'x' = false := by decide
  intro c among
  rcases List.mem_cons.1 among with rfl | among
  · split <;> simp [dash]
  rcases List.mem_cons.1 among with rfl | among
  · split <;> simp [dash]
  obtain rfl := List.mem_singleton.1 among
  split <;> split <;> simp [dash, plain]

theorem modes_plain (m : Member) : ∀ c ∈ m.letter :: permissions m.mode, space c = false := by
  intro c among
  rcases List.mem_cons.1 among with rfl | among
  · unfold Member.letter
    split
    · split <;> decide
    all_goals decide
  · rcases List.mem_append.1 among with among | others
    · rcases List.mem_append.1 among with user | group
      · exact triple_plain _ _ _ _ (by decide) c user
      · exact triple_plain _ _ _ _ (by decide) c group
    · exact triple_plain _ _ _ _ (by decide) c others

/-- The first column of a line is the letters of its mode. -/
theorem word_line (m : Member) (width dates : Nat) :
    ∃ rest, word (m.line width dates) = some (m.letter :: permissions m.mode, rest) :=
  ⟨_, word_append (List.cons_ne_nil _ _) (modes_plain m) (by decide)⟩

theorem calendar_words (year : Int) (month day hour minute : Nat) : ∃ date clock, date ≠ [] ∧ clock ≠ [] ∧
    (∀ c ∈ date, space c = false) ∧ (∀ c ∈ clock, space c = false) ∧
    (Stamp.calendar year month day hour minute).text = date ++ ' ' :: clock := by
  have sign : space '-' = false ∧ space ':' = false := by decide
  refine ⟨_, _, ?_, ?_, ?_, ?_, rfl⟩
  · simp
  · simp
  · intro c among
    have dashed (n : Nat) (inside : c ∈ '-' :: zeros 2 n) : space c = false := by
      rcases List.mem_cons.1 inside with rfl | digits
      · exact sign.1
      · exact digit_black (zeros_digits _ _ c digits)
    rcases List.mem_append.1 among with first | isDay
    · rcases List.mem_append.1 first with isYear | isMonth
      · split at isYear
        · rcases List.mem_cons.1 isYear with rfl | digits
          · exact sign.1
          · exact digit_black (zeros_digits _ _ c digits)
        · exact digit_black (zeros_digits _ _ c isYear)
      · exact dashed month isMonth
    · exact dashed day isDay
  · intro c among
    rcases List.mem_append.1 among with hour | later
    · exact digit_black (zeros_digits _ _ c hour)
    · rcases List.mem_cons.1 later with rfl | minute
      · exact sign.2
      · exact digit_black (zeros_digits _ _ c minute)

theorem columns_of_words {line modes owner size date clock r₁ r₂ r₃ r₄ r₅ : List Char} (one : word line = some (modes, r₁))
    (two : word r₁ = some (owner, r₂)) (three : word r₂ = some (size, r₃)) (four : word r₃ = some (date, r₄))
    (five : word r₄ = some (clock, r₅)) (digits : size.all Char.isDigit = true) (noBreak : r₅.any terminator = false) :
    columns line = some (modes, r₅) := by
  simp only [columns, one, two, three, four, five, Option.bind_some, digits, noBreak, and_self, if_true]

theorem word_of_columns {line modes rest : List Char} (read : columns line = some (modes, rest)) :
    ∃ more, word line = some (modes, more) := by
  obtain ⟨⟨first, r₁⟩, one, read⟩ := Option.bind_eq_some_iff.1 read
  obtain ⟨⟨owner, r₂⟩, two, read⟩ := Option.bind_eq_some_iff.1 read
  obtain ⟨⟨size, r₃⟩, three, read⟩ := Option.bind_eq_some_iff.1 read
  obtain ⟨⟨date, r₄⟩, four, read⟩ := Option.bind_eq_some_iff.1 read
  obtain ⟨⟨clock, r₅⟩, five, read⟩ := Option.bind_eq_some_iff.1 read
  dsimp only at read
  split at read
  · obtain rfl := (Prod.mk.inj (Option.some.inj read)).1
    exact ⟨r₁, one⟩
  · cases read

/-- The columns of a plain file or directory are read as they were printed. -/
theorem columns_line {m : Member} (plain : m.Plain) (file : ∃ size, m.kind = .regular size ∨ m.kind = .directory size)
    (width dates : Nat) : columns (m.line width dates) =
      some (m.letter :: permissions m.mode, (escaped m.name).dropWhile space) := by
  obtain ⟨owner, year, month, day, hour, minute, dated⟩ := plain
  obtain ⟨date, clock, dateNamed, clockNamed, datePlain, clockPlain, stamp⟩ := calendar_words year month day hour minute
  obtain ⟨size, isFile⟩ := file
  have sized : m.kind.size = decimal size ∧ m.kind.suffix = [] := by rcases isFile with is | is <;> rw [is] <;> exact ⟨rfl, rfl⟩
  have ownerPlain : ∀ c ∈ m.owner, space c = false := fun c among => by simpa using List.all_eq_true.1 owner c among
  have ownerNamed : m.owner ≠ [] := by simp [Member.owner]
  have sizePlain : ∀ c ∈ decimal size, space c = false := fun c among => digit_black (decimal_digits size c among)
  have blank : space ' ' = true := by decide
  have gap (k : Nat) (rest : List Char) : List.replicate k ' ' ++ ' ' :: rest = ' ' :: (List.replicate k ' ' ++ rest) := by
    rw [← List.singleton_append, ← List.append_assoc, ← List.replicate_succ', List.replicate_succ, List.cons_append]
  have noBreak : ((escaped m.name).dropWhile space).any terminator = false := by
    rw [List.any_eq_false]
    intro c among
    have range := printed_escaped ((List.dropWhile_sublist _).mem among)
    have listed : ∀ n < 127, 32 ≤ n → terminator (Char.ofNat n) = false := by decide
    have plain := listed c.toNat (by omega) range.1
    rw [Char.ofNat_toNat] at plain
    simp [plain]
  have digits : (decimal size).all Char.isDigit = true := List.all_eq_true.2 fun c among => decimal_digits size c among
  have columnsAre : m.line width dates = (m.letter :: permissions m.mode) ++ ' ' :: (m.owner ++ ' ' ::
      (List.replicate (width - (m.owner.length + 1 + (decimal size).length)) ' ' ++ (decimal size ++ ' ' ::
        (date ++ ' ' :: (clock ++ ' ' :: (List.replicate (dates - (date ++ ' ' :: clock).length) ' ' ++ escaped m.name)))))) := by
    rw [Member.line, dated, stamp, sized.1, sized.2, List.append_nil, gap, List.append_assoc date]
    rfl
  have last := word_padded clockNamed clockPlain 0
    (List.replicate (dates - (date ++ ' ' :: clock).length) ' ' ++ escaped m.name)
  rw [dropWhile_blanks (dates - (date ++ ' ' :: clock).length)] at last
  rw [columnsAre]
  exact columns_of_words (word_append (List.cons_ne_nil _ _) (modes_plain m) blank) (word_padded ownerNamed ownerPlain 0 _)
    (word_padded Nat.toDigits_ne_nil sizePlain _ _) (word_padded dateNamed datePlain 0 _) last digits noBreak

/-- A line of a plain member has no problem unless the member is refused. -/
theorem lineProblem_line {m : Member} (plain : m.Plain) (width dates : Nat) :
    lineProblem (m.line width dates) = none ↔ ¬m.Refused := by
  have some_text : trim (m.line width dates) ≠ [] := by
    have isHead : (trim (m.line width dates)).head? = some m.letter :=
      head_trim (modes_plain m m.letter (List.mem_cons_self ..)) _
    intro none'
    rw [none'] at isHead
    cases isHead
  rw [lineProblem, if_neg some_text]
  by_cases file : ∃ size, m.kind = .regular size ∨ m.kind = .directory size
  · have allowed : m.letter = '-' ∨ m.letter = 'd' := by
      obtain ⟨size, is | is⟩ := file
      · rw [Member.letter, is]
        dsimp only
        split
        · exact .inr rfl
        · exact .inl rfl
      · rw [Member.letter, is]
        exact .inr rfl
    have some_file : ¬∀ size, m.kind ≠ .regular size ∧ m.kind ≠ .directory size := fun other => by
      obtain ⟨size, is⟩ := file
      exact is.elim (other size).1 (other size).2
    rw [columns_line plain file]
    dsimp only
    rw [if_neg (by simpa [or_iff_not_imp_left] using allowed), Member.Refused, or_iff_right some_file]
    split <;> simp_all
  · have other : ∀ size, m.kind ≠ .regular size ∧ m.kind ≠ .directory size := fun size =>
      ⟨fun is => file ⟨size, .inl is⟩, fun is => file ⟨size, .inr is⟩⟩
    have letter : m.letter ≠ '-' ∧ m.letter ≠ 'd' := by
      unfold Member.letter
      split
      · rename_i size is
        exact absurd is (other size).1
      · rename_i size is
        exact absurd is (other size).2
      all_goals decide
    refine iff_of_false ?_ (not_not.2 (.inl other))
    cases read : columns (m.line width dates) with
    | none => simp
    | some both =>
      obtain ⟨modes, name⟩ := both
      have isModes : modes = m.letter :: permissions m.mode := by
        obtain ⟨rest, one⟩ := word_line m width dates
        obtain ⟨more, same⟩ := word_of_columns read
        exact (Prod.mk.inj (Option.some.inj (same.symm.trans one))).1
      rw [isModes]
      simp [letter]

theorem newline_decimal (n : Nat) : '\n' ∉ decimal n := fun inside => absurd (decimal_digits n _ inside) (by decide)

theorem newline_escaped (name : List UInt8) : '\n' ∉ escaped name := fun inside =>
  absurd (printed_escaped inside).1 (by decide)

theorem newline_size (kind : Kind) : '\n' ∉ kind.size := by
  unfold Kind.size
  split <;> simp [newline_decimal]

theorem newline_suffix (kind : Kind) : '\n' ∉ kind.suffix := by
  unfold Kind.suffix
  split
  · rename_i target
    exact fun inside => (List.mem_append.1 inside).elim (by decide) (newline_escaped target)
  · rename_i target
    exact fun inside => (List.mem_append.1 inside).elim (by decide) (newline_escaped target)
  · rename_i flag size
    intro inside
    rcases List.mem_append.1 inside with text | inside
    · exact absurd text (by decide)
    rcases List.mem_append.1 inside with shown | text
    · split at shown
      · exact absurd shown (by decide)
      · exact newline_escaped [flag] (List.mem_flatMap.2 ⟨flag, List.mem_singleton_self _, shown⟩)
    · exact absurd text (by decide)
  · decide
  · rename_i start size
    intro inside
    rcases List.mem_append.1 inside with inside | text
    · exact (List.mem_append.1 inside).elim (by decide) (newline_decimal start)
    · exact absurd text (by decide)
  · exact List.not_mem_nil

theorem newline_line {m : Member} (plain : m.Plain) (width dates : Nat) : '\n' ∉ m.line width dates := by
  obtain ⟨owner, year, month, day, hour, minute, dated⟩ := plain
  obtain ⟨date, clock, -, -, datePlain, clockPlain, stamp⟩ := calendar_words year month day hour minute
  have blank : space '\n' = true := by decide
  have modes : '\n' ∉ m.letter :: permissions m.mode := not_blank_of_plain (modes_plain m) blank
  have owners : '\n' ∉ m.owner := fun inside => by simpa [blank] using List.all_eq_true.1 owner _ inside
  have dates' : '\n' ∉ m.stamp.text := by
    rw [dated, stamp, List.mem_append, List.mem_cons]
    exact fun inside => inside.elim (not_blank_of_plain datePlain blank)
      (fun inside => inside.elim (by decide) (not_blank_of_plain clockPlain blank))
  have gap (k : Nat) : '\n' ∉ List.replicate k ' ' := fun inside => absurd (List.eq_of_mem_replicate inside) (by decide)
  have sign : '\n' ≠ ' ' := by decide
  simp only [Member.line, List.mem_append, List.mem_cons, not_or]
  rw [List.mem_cons, not_or] at modes
  exact ⟨⟨modes.1, modes.2⟩, sign, owners, sign, gap _, newline_size _, sign, dates', gap _, sign, newline_escaped _,
    newline_suffix _⟩

/-- No line of a listing has a problem where no member is refused. -/
theorem tarMemberProblem_none {members : List Member} (plain : ∀ m ∈ members, m.Plain) (width dates : Nat) :
    tarMemberProblem (printFrom width dates members) = none ↔ ∀ m ∈ members, ¬m.Refused := by
  induction members generalizing width dates with
  | nil => simp [tarMemberProblem, printFrom, lines, lineProblem, trim]
  | cons m rest ih =>
    have here := plain m (List.mem_cons_self ..)
    rw [List.forall_mem_cons, ← ih (fun other among => plain other (List.mem_cons_of_mem _ among))
        (max width (m.owner.length + 1 + m.kind.size.length)) (max dates m.stamp.text.length),
      ← lineProblem_line here (max width (m.owner.length + 1 + m.kind.size.length)) (max dates m.stamp.text.length),
      tarMemberProblem, printFrom, lines, List.splitOn_append_cons_self,
      List.splitOn_eq_singleton (newline_line here _ _), List.singleton_append, List.findSome?_cons]
    cases lineProblem _ with
    | none => simp [tarMemberProblem, lines]
    | some problem => simp

/-- A file of a store, under a name of bytes. -/
def stored (name : List UInt8) : Member :=
  { kind := .regular 5, mode := 0o644, user := "ov".toList, group := "ov".toList,
    stamp := .calendar 2026 1 2 3 4, name }

end OpenVibeHost.TarListing
