import Mathlib.Data.List.Basic

/-! Files of lines `name value`, one metric a line, and how a program reads one of its own values back. -/
namespace MetricFiles

/-- What ends a line for a pattern in multiline mode. -/
def breaks (c : Char) : Bool := c = '\n' || c = '\r' || c = '\u2028' || c = '\u2029'

def linesOf (text : List Char) : List (List Char) := text.splitOnP breaks

/-- The number of a line `name digits`. -/
def reading (name line : List Char) : Option Nat :=
  if (name ++ [' ']).isPrefixOf line then
    let digits := line.drop (name.length + 1)
    if digits ≠ [] ∧ digits.all Char.isDigit then some (Nat.ofDigitChars 10 digits 0) else none
  else none

/-- The number of the first such line in a text. -/
def readingIn (name text : List Char) : Option Nat := (linesOf text).findSome? (reading name)

/-- The lines as a file has them. -/
def fileOf (lines : List (List Char)) : List Char := lines.flatMap (· ++ ['\n'])

/-- A gauge with its help and its value. -/
def gauge (name help value : List Char) : List (List Char) :=
  ["# HELP ".toList ++ name ++ ' ' :: help, "# TYPE ".toList ++ name ++ " gauge".toList, name ++ ' ' :: value]

/-- What a metric may be called here. -/
def isName (name : List Char) : Bool := name ≠ [] && name.all fun c => c.isAlphanum || c = '_'

/-- A text on one line. -/
def plain (line : List Char) : Bool := line.all fun c => !breaks c

variable {name other help value : List Char} {lines : List (List Char)}

theorem linesOf_fileOf (one : ∀ line ∈ lines, plain line = true) : linesOf (fileOf lines) = lines ++ [[]] := by
  induction lines with
  | nil => rfl
  | cons line rest ih =>
    have unbroken : ∀ c ∈ line, breaks c = false := fun c mem => by
      simpa using List.all_eq_true.mp (one line List.mem_cons_self) c mem
    have first := List.splitOnP_eq_singleton unbroken
    have later := ih fun other mem => one other (List.mem_cons_of_mem _ mem)
    unfold linesOf fileOf at later ⊢
    rw [List.flatMap_cons, List.append_assoc, List.singleton_append, List.splitOnP_append_cons _ _ (by decide), first,
      later]
    rfl

/-- What the lines of a file say is read from the file. -/
theorem readingIn_fileOf (one : ∀ line ∈ lines, plain line = true) :
    readingIn name (fileOf lines) = lines.findSome? (reading name) := by
  have empty : reading name [] = none := by
    unfold reading
    rw [if_neg]
    simp
  rw [readingIn, linesOf_fileOf one, List.findSome?_append]
  simp [empty]

/-! ### Names -/

theorem isName_mem {c : Char} (named : isName name = true) (mem : c ∈ name) : c.isAlphanum = true ∨ c = '_' := by
  simp only [isName, Bool.and_eq_true, List.all_eq_true, Bool.or_eq_true, decide_eq_true_eq] at named
  exact named.2 c mem

theorem space_notMem (named : isName name = true) : ' ' ∉ name := fun mem =>
  (isName_mem named mem).elim (by decide) (by decide)

theorem hash_notMem (named : isName name = true) : '#' ∉ name := fun mem =>
  (isName_mem named mem).elim (by decide) (by decide)

theorem plain_of_isName (named : isName name = true) : plain name = true := by
  refine List.all_eq_true.mpr fun c mem => ?_
  by_contra broken
  have broken : breaks c = true := by simpa using broken
  simp only [breaks, Bool.or_eq_true, decide_eq_true_eq] at broken
  rcases broken with ((rfl | rfl) | rfl) | rfl <;> exact (isName_mem named mem).elim (by decide) (by decide)

theorem plain_toDigits (n : Nat) : plain (Nat.toDigits 10 n) = true := by
  refine plain_of_isName (Bool.and_eq_true_iff.mpr ⟨by simp [Nat.toDigits_ne_nil],
    List.all_eq_true.mpr fun c mem => ?_⟩)
  have digit := Nat.isDigit_of_mem_toDigits (by decide) (by decide) mem
  simp [Char.isAlphanum, digit]

/-- The names of two values on one line are one name. -/
theorem name_unique {rest : List Char} (named : isName name = true) (others : isName other = true)
    (same : name ++ ' ' :: rest = other ++ ' ' :: value) : name = other := by
  have upTo : ∀ (rest : List Char) {name : List Char}, isName name = true →
      (name ++ ' ' :: rest).takeWhile (· ≠ ' ') = name := by
    intro rest name named
    have apart : ∀ c ∈ name, decide (c ≠ ' ') = true := fun c mem => decide_eq_true fun eq =>
      space_notMem named (eq ▸ mem)
    rw [List.takeWhile_append_of_pos apart]
    simp
  rw [← upTo rest named, same, upTo value others]

/-! ### Reading a gauge back -/

theorem reading_comment (named : isName name = true) (rest : List Char) : reading name ('#' :: rest) = none := by
  unfold reading
  refine if_neg fun starts => ?_
  obtain ⟨more, whole⟩ := List.isPrefixOf_iff_prefix.mp starts
  cases name with
  | nil => cases named
  | cons c name =>
    cases whole
    exact hash_notMem named List.mem_cons_self

theorem reading_other (named : isName name = true) (others : isName other = true) (ne : name ≠ other) :
    reading name (other ++ ' ' :: value) = none := by
  unfold reading
  refine if_neg fun starts => ?_
  obtain ⟨more, whole⟩ := List.isPrefixOf_iff_prefix.mp starts
  exact ne (name_unique named others (by simpa using whole))

theorem reading_number (name : List Char) (n : Nat) : reading name (name ++ ' ' :: Nat.toDigits 10 n) = some n := by
  have here : (name ++ [' ']).isPrefixOf (name ++ ' ' :: Nat.toDigits 10 n) = true := by
    rw [List.isPrefixOf_iff_prefix]
    exact ⟨Nat.toDigits 10 n, by simp⟩
  have digits : (name ++ ' ' :: Nat.toDigits 10 n).drop (name.length + 1) = Nat.toDigits 10 n := by
    simp [List.drop_append]
  have all : (Nat.toDigits 10 n).all Char.isDigit = true :=
    List.all_eq_true.mpr fun c mem => Nat.isDigit_of_mem_toDigits (by decide) (by decide) mem
  simp only [reading, here, if_true, digits]
  rw [if_pos ⟨Nat.toDigits_ne_nil, all⟩, Nat.ofDigitChars_ten_toDigits]

theorem findSome_gauge_other (named : isName name = true) (others : isName other = true) (ne : name ≠ other) :
    (gauge other help value).findSome? (reading name) = none := by
  refine List.findSome?_eq_none_iff.mpr fun line mem => ?_
  rcases List.mem_cons.mp mem with rfl | mem
  · exact reading_comment named _
  rcases List.mem_cons.mp mem with rfl | mem
  · exact reading_comment named _
  obtain rfl := List.mem_singleton.mp mem
  exact reading_other named others ne

theorem findSome_gauge (named : isName name = true) (n : Nat) :
    (gauge name help (Nat.toDigits 10 n)).findSome? (reading name) = some n := by
  have first := reading_comment named ("# HELP ".toList.tail ++ name ++ ' ' :: help)
  have second := reading_comment named ("# TYPE ".toList.tail ++ name ++ " gauge".toList)
  rw [gauge, List.findSome?_cons_of_isNone (by simpa using first), List.findSome?_cons_of_isNone (by simpa using second),
    List.findSome?_singleton, reading_number]

theorem gauge_plain (named : isName name = true) (helps : plain help = true) (valued : plain value = true) :
    ∀ line ∈ gauge name help value, plain line = true := by
  have joined : ∀ {a b : List Char}, plain a = true → plain b = true → plain (a ++ b) = true := by
    intro a b first second
    rw [plain, List.all_append]
    exact Bool.and_eq_true_iff.mpr ⟨first, second⟩
  have spaced : ∀ {b : List Char}, plain b = true → plain (' ' :: b) = true := fun only => only
  have called := plain_of_isName named
  intro line mem
  rcases List.mem_cons.mp mem with rfl | mem
  · exact joined (joined (by decide) called) (spaced helps)
  rcases List.mem_cons.mp mem with rfl | mem
  · exact joined (joined (by decide) called) (by decide)
  obtain rfl := List.mem_singleton.mp mem
  exact joined called (spaced valued)

end MetricFiles
