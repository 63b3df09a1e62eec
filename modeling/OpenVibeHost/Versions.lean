import OpenVibeHost.EnvFile
import OpenVibeHost.DoubleOrder
import Mathlib.Data.Prod.Lex

/-! Versions and the ranges that they satisfy, `satisfies` of `lib/lifecycle.js`. -/
namespace OpenVibeHost.Lifecycle
open Doubles
open EnvFile (space trim trim_within)

/-! ### The check -/

structure Version (α : Type) where
  major : α
  minor : α
  patch : α

/-- `Number` of digits. -/
def number (digits : List Char) : Double := ofInt (Nat.ofDigitChars 10 digits 0)

/-- `(\d+)`: a number, and what follows it. -/
def component (text : List Char) : Option (Double × List Char) :=
  match text.takeWhile Char.isDigit with
  | [] => none
  | digits => some (number digits, text.dropWhile Char.isDigit)

/-- `VERSION_RE`. -/
def readVersion (text : List Char) : Option (Version Double) :=
  match component text with
  | some (major, '.' :: rest) =>
    match component rest with
    | some (minor, '.' :: rest) =>
      match component rest with
      | some (patch, []) => some { major, minor, patch }
      | _ => none
    | _ => none
  | _ => none

/-- The order of two versions, as -1, 0 or 1. -/
def cmp (a b : Version Double) : Int :=
  if a.major ≠ b.major then if less a.major b.major then -1 else 1
  else if a.minor ≠ b.minor then if less a.minor b.minor then -1 else 1
  else if a.patch ≠ b.patch then if less a.patch b.patch then -1 else 1
  else 0

inductive Op where
  | caret
  | atLeast
  | atMost
  | above
  | below
  | exactly

def readOp : List Char → Op × List Char
  | '^' :: rest => (.caret, rest)
  | '>' :: '=' :: rest => (.atLeast, rest)
  | '<' :: '=' :: rest => (.atMost, rest)
  | '>' :: rest => (.above, rest)
  | '<' :: rest => (.below, rest)
  | '=' :: rest => (.exactly, rest)
  | rest => (.exactly, rest)

def readTerm (part : List Char) : Option (Op × Version Double) :=
  (readVersion (readOp part).2).map ((readOp part).1, ·)

/-- `range.split('||')`. -/
def splitBars (cur : List Char) : List Char → List (List Char)
  | [] => [cur]
  | '|' :: '|' :: rest => cur :: splitBars [] rest
  | c :: rest => splitBars (cur ++ [c]) rest

/-- What stands between white space. -/
def words (text : List Char) : List (List Char) := (text.splitOnP space).filter (· ≠ [])

/-- `alt.trim().split(/\s+/)`. -/
def parts (alt : List Char) : List (List Char) := if trim alt = [] then [[]] else words (trim alt)

def parseRange (range : List Char) : Option (List (List (Op × Version Double))) :=
  (splitBars [] range).mapM fun alt => (parts alt).mapM readTerm

/-- Whether a version is what a term asks for. -/
def meets (v : Version Double) (term : Op × Version Double) : Bool :=
  let w := term.2
  let zero := ofInt 0
  match term.1 with
  | .caret => decide (0 ≤ cmp v w) &&
      if less zero w.major then v.major = w.major
      else if less zero w.minor then v.major = zero && v.minor = w.minor
      else cmp v w = 0
  | .atLeast => 0 ≤ cmp v w
  | .above => 0 < cmp v w
  | .atMost => cmp v w ≤ 0
  | .below => cmp v w < 0
  | .exactly => cmp v w = 0

/-- `version.replace(/^v/, '')`. -/
def withoutV : List Char → List Char
  | 'v' :: rest => rest
  | text => text

def satisfies (version range : List Char) : Bool :=
  match readVersion (withoutV version), parseRange range with
  | some v, some alts => alts.any fun terms => terms.all (meets v)
  | _, _ => false

/-! ### Ranges as they are built -/

structure Numeral where
  text : List Char
  named : text ≠ []
  digits : ∀ c ∈ text, c.isDigit = true

def Numeral.value (n : Numeral) : Nat := Nat.ofDigitChars 10 n.text 0

/-- How a version is written. -/
def Version.text (v : Version Numeral) : List Char := v.major.text ++ '.' :: (v.minor.text ++ '.' :: v.patch.text)

/-- A version by its numbers, in their order. -/
def Version.value (v : Version Numeral) : Nat ×ₗ Nat ×ₗ Nat :=
  toLex (v.major.value, toLex (v.minor.value, v.patch.value))

/-- The first later version that may break what a version keeps. -/
def breaking (w : Version Numeral) : Nat ×ₗ Nat ×ₗ Nat :=
  if 0 < w.major.value then toLex (w.major.value + 1, toLex (0, 0))
  else if 0 < w.minor.value then toLex (0, toLex (w.minor.value + 1, 0))
  else toLex (0, toLex (0, w.patch.value + 1))

/-- How an operator is written; the one for equality may be left out. -/
def Op.text (spelled : Bool) : Op → List Char
  | .caret => ['^']
  | .atLeast => ['>', '=']
  | .atMost => ['<', '=']
  | .above => ['>']
  | .below => ['<']
  | .exactly => if spelled then ['='] else []

structure Term where
  op : Op
  spelled : Bool
  version : Version Numeral

def Term.text (t : Term) : List Char := t.op.text t.spelled ++ t.version.text

def Term.Holds (t : Term) (v : Nat ×ₗ Nat ×ₗ Nat) : Prop :=
  match t.op with
  | .caret => t.version.value ≤ v ∧ v < breaking t.version
  | .atLeast => t.version.value ≤ v
  | .atMost => v ≤ t.version.value
  | .above => t.version.value < v
  | .below => v < t.version.value
  | .exactly => v = t.version.value

/-- White space. -/
def Blanks : Type := {text : List Char // ∀ c ∈ text, space c = true}

/-- White space between two terms. -/
def Gap : Type := {text : Blanks // text.val ≠ []}

/-- Terms that hold together, with white space between them and perhaps around them. -/
structure Alternative where
  before : Blanks
  first : Term
  rest : List (Gap × Term)
  after : Blanks

def Alternative.terms (a : Alternative) : List Term := a.first :: a.rest.map (·.2)

def Alternative.text (a : Alternative) : List Char :=
  a.before.val ++ (a.first.text ++ (a.rest.flatMap (fun next => next.1.val.val ++ next.2.text) ++ a.after.val))

structure Range where
  first : Alternative
  rest : List Alternative

def Range.alternatives (r : Range) : List Alternative := r.first :: r.rest

def Range.text (r : Range) : List Char := r.first.text ++ r.rest.flatMap fun a => '|' :: '|' :: a.text

/-! ### The order of versions -/

/-- The numbers of a version, as the code keeps them. -/
def Version.doubles (v : Version Numeral) : Version Double :=
  { major := ofInt v.major.value, minor := ofInt v.minor.value, patch := ofInt v.patch.value }

/-- A version whose numbers are kept as they are. -/
def Version.Small (v : Version Numeral) : Prop :=
  v.major.value < 2 ^ 53 ∧ v.minor.value < 2 ^ 53 ∧ v.patch.value < 2 ^ 53

theorem value_lt {v w : Version Numeral} : v.value < w.value ↔ v.major.value < w.major.value ∨
    v.major.value = w.major.value ∧ (v.minor.value < w.minor.value ∨
      v.minor.value = w.minor.value ∧ v.patch.value < w.patch.value) := by
  rw [Version.value, Version.value, Prod.Lex.toLex_lt_toLex, Prod.Lex.toLex_lt_toLex]

theorem value_eq {v w : Version Numeral} : v.value = w.value ↔ v.major.value = w.major.value ∧
    v.minor.value = w.minor.value ∧ v.patch.value = w.patch.value := by
  simp [Version.value]

/-- The comparison says how two versions are ordered. -/
theorem cmp_doubles {v w : Version Numeral} (small : v.Small) :
    (cmp v.doubles w.doubles = -1 ∧ v.value < w.value) ∨ (cmp v.doubles w.doubles = 0 ∧ v.value = w.value) ∨
      (cmp v.doubles w.doubles = 1 ∧ w.value < v.value) := by
  have major := @compare_int v.major.value w.major.value small.1
  have minor := @compare_int v.minor.value w.minor.value small.2.1
  have patch := @compare_int v.patch.value w.patch.value small.2.2
  rw [value_lt, value_eq, value_lt]
  simp only [cmp, Version.doubles, ne_eq, major.1, major.2, minor.1, minor.2, patch.1, patch.2, decide_eq_true_eq]
  split_ifs <;> omega

/-- From a version up to its breaking one there are those that keep its first number that is not zero. -/
theorem caret_iff (v w : Version Numeral) : w.value ≤ v.value ∧ v.value < breaking w ↔
    w.value ≤ v.value ∧ if 0 < w.major.value then v.major.value = w.major.value
      else if 0 < w.minor.value then v.major.value = 0 ∧ v.minor.value = w.minor.value else v.value = w.value := by
  refine and_congr_right fun le => ?_
  rw [← not_lt, value_lt] at le
  rw [value_eq]
  unfold breaking Version.value
  split
  · rw [Prod.Lex.toLex_lt_toLex, Prod.Lex.toLex_lt_toLex]
    omega
  split
  · rw [Prod.Lex.toLex_lt_toLex, Prod.Lex.toLex_lt_toLex]
    omega
  · rw [Prod.Lex.toLex_lt_toLex, Prod.Lex.toLex_lt_toLex]
    omega

/-- What a term asks for, the code checks. -/
theorem meets_iff {v : Version Numeral} (small : v.Small) (t : Term) :
    meets v.doubles (t.op, t.version.doubles) = true ↔ t.Holds v.value := by
  have order := @cmp_doubles v t.version small
  have atLeast : 0 ≤ cmp v.doubles t.version.doubles ↔ t.version.value ≤ v.value := by
    rcases order with ⟨is, lt⟩ | ⟨is, eq⟩ | ⟨is, lt⟩ <;> rw [is]
    · exact iff_of_false (by decide) (not_le.2 lt)
    · exact iff_of_true (by decide) eq.ge
    · exact iff_of_true (by decide) lt.le
  have atMost : cmp v.doubles t.version.doubles ≤ 0 ↔ v.value ≤ t.version.value := by
    rcases order with ⟨is, lt⟩ | ⟨is, eq⟩ | ⟨is, lt⟩ <;> rw [is]
    · exact iff_of_true (by decide) lt.le
    · exact iff_of_true (by decide) eq.le
    · exact iff_of_false (by decide) (not_le.2 lt)
  have exactly : cmp v.doubles t.version.doubles = 0 ↔ v.value = t.version.value := by
    rw [le_antisymm_iff, le_antisymm_iff, atLeast, atMost]
  unfold meets Term.Holds
  dsimp only
  cases t.op with
  | atLeast => rw [decide_eq_true_iff, atLeast]
  | atMost => rw [decide_eq_true_iff, atMost]
  | above => rw [decide_eq_true_iff, ← not_le, atMost, not_le]
  | below => rw [decide_eq_true_iff, ← not_le, atLeast, not_le]
  | exactly => rw [decide_eq_true_iff, exactly]
  | caret =>
    have major : v.doubles.major = t.version.doubles.major ↔ v.major.value = t.version.major.value :=
      (compare_int small.1).2
    have minor : v.doubles.minor = t.version.doubles.minor ↔ v.minor.value = t.version.minor.value :=
      (compare_int small.2.1).2
    have none : v.doubles.major = ofInt 0 ↔ v.major.value = 0 := (@compare_int _ 0 small.1).2
    have positive (n : Nat) : less (ofInt 0) (ofInt n) = decide (0 < n) := (@compare_int 0 n (by norm_num)).1
    have first : less (ofInt 0) t.version.doubles.major = decide (0 < t.version.major.value) := positive _
    have second : less (ofInt 0) t.version.doubles.minor = decide (0 < t.version.minor.value) := positive _
    rw [caret_iff, Bool.and_eq_true, decide_eq_true_iff, atLeast]
    refine and_congr_right fun _ => ?_
    rw [first, second]
    simp only [decide_eq_true_eq]
    split
    · rw [decide_eq_true_iff, major]
    split
    · rw [Bool.and_eq_true, decide_eq_true_iff, decide_eq_true_iff, none, minor]
    · rw [decide_eq_true_iff]
      exact exactly

/-! ### Reading what is written -/

theorem component_text (n : Numeral) {rest : List Char} (stops : ∀ c ∈ rest.head?, c.isDigit = false) :
    component (n.text ++ rest) = some (ofInt n.value, rest) := by
  have head : rest.takeWhile Char.isDigit = [] ∧ rest.dropWhile Char.isDigit = rest := by
    cases rest with
    | nil => exact ⟨rfl, rfl⟩
    | cons c rest =>
      have plain : ¬c.isDigit = true := by simp [stops c rfl]
      exact ⟨List.takeWhile_cons_of_neg plain, List.dropWhile_cons_of_neg plain⟩
  unfold component
  rw [List.takeWhile_append_of_pos n.digits, List.dropWhile_append_of_pos n.digits, head.1, head.2, List.append_nil]
  cases shape : n.text with
  | nil => exact absurd shape n.named
  | cons c more =>
    dsimp only
    rw [← shape]
    rfl

theorem readVersion_text (v : Version Numeral) : readVersion v.text = some v.doubles := by
  have dot (rest : List Char) : ∀ c ∈ ('.' :: rest).head?, c.isDigit = false := by
    rintro c ⟨⟩
    decide
  have last := @component_text v.patch [] (by simp)
  rw [List.append_nil] at last
  simp only [readVersion, Version.text, component_text v.major (dot _), component_text v.minor (dot _), last]
  rfl

theorem digit_apart {c : Char} (digit : c.isDigit = true) {d : Char} (other : d.isDigit = false) : c ≠ d := fun same => by
  rw [same, other] at digit
  cases digit

theorem version_head (v : Version Numeral) : ∃ c more, v.text = c :: more ∧ c.isDigit = true := by
  obtain ⟨c, more, shape⟩ := List.exists_cons_of_ne_nil v.major.named
  exact ⟨c, more ++ '.' :: (v.minor.text ++ '.' :: v.patch.text), by rw [Version.text, shape]; rfl,
    v.major.digits c (shape ▸ List.mem_cons_self ..)⟩

theorem readOp_text (t : Term) : readOp t.text = (t.op, t.version.text) := by
  obtain ⟨c, more, shape, digit⟩ := version_head t.version
  have plain : c ≠ '^' ∧ c ≠ '>' ∧ c ≠ '<' ∧ c ≠ '=' := ⟨digit_apart digit (by decide), digit_apart digit (by decide),
    digit_apart digit (by decide), digit_apart digit (by decide)⟩
  unfold Term.text
  rw [shape]
  cases t.op with
  | exactly => cases t.spelled <;> simp [Op.text, readOp, plain]
  | _ => simp [Op.text, readOp, plain]

theorem readTerm_text (t : Term) : readTerm t.text = some (t.op, t.version.doubles) := by
  rw [readTerm, readOp_text, readVersion_text]
  rfl

theorem digit_plain {c : Char} (digit : c.isDigit = true) : space c = false ∧ c ≠ '|' :=
  ⟨EnvFile.digit_black digit, digit_apart digit (by decide)⟩

/-- A term is written in signs that are neither white space nor a bar. -/
theorem term_plain (t : Term) : t.text ≠ [] ∧ ∀ c ∈ t.text, space c = false ∧ c ≠ '|' := by
  have dot : space '.' = false ∧ '.' ≠ '|' := by decide
  have digits (n : Numeral) : ∀ c ∈ n.text, space c = false ∧ c ≠ '|' := fun c among => digit_plain (n.digits c among)
  have signs (op : Op) (spelled : Bool) : (op.text spelled).all (fun c => !space c && c != '|') = true := by
    cases op <;> cases spelled <;> decide
  constructor
  · obtain ⟨c, more, shape, -⟩ := version_head t.version
    simp [Term.text, shape]
  · intro c among
    rcases List.mem_append.1 among with sign | among
    · simpa using List.all_eq_true.1 (signs t.op t.spelled) c sign
    rcases List.mem_append.1 among with major | among
    · exact digits _ c major
    rcases List.mem_cons.1 among with rfl | among
    · exact dot
    rcases List.mem_append.1 among with minor | among
    · exact digits _ c minor
    rcases List.mem_cons.1 among with rfl | patch
    · exact dot
    · exact digits _ c patch

/-! ### Words -/

theorem words_blank {c : Char} (blank : space c = true) (rest : List Char) : words (c :: rest) = words rest := by
  have cut := @List.splitOnP_append_cons_of_forall_mem _ space [] (by simp) c blank rest
  rw [List.nil_append] at cut
  rw [words, cut, List.filter_cons_of_neg (by simp), words]

theorem words_blanks {blanks : List Char} (blank : ∀ c ∈ blanks, space c = true) (rest : List Char) :
    words (blanks ++ rest) = words rest := by
  induction blanks with
  | nil => rfl
  | cons c blanks ih =>
    rw [List.cons_append, words_blank (blank c (List.mem_cons_self ..)), ih fun d among => blank d (List.mem_cons_of_mem _ among)]

theorem words_append_blank {w : List Char} (named : w ≠ []) (plain : ∀ c ∈ w, space c = false) {c : Char}
    (blank : space c = true) (rest : List Char) : words (w ++ c :: rest) = w :: words rest := by
  rw [words, List.splitOnP_append_cons_of_forall_mem plain c blank rest, List.filter_cons_of_pos (by simpa using named), words]

theorem words_single {w : List Char} (named : w ≠ []) (plain : ∀ c ∈ w, space c = false) : words w = [w] := by
  rw [words, List.splitOnP_eq_singleton plain, List.filter_cons_of_pos (by simpa using named), List.filter_nil]

theorem words_append_blanks (text : List Char) {blanks : List Char} (blank : ∀ c ∈ blanks, space c = true) :
    words (text ++ blanks) = words text := by
  cases blanks with
  | nil => rw [List.append_nil]
  | cons c blanks =>
    have none := words_blanks (fun d among => blank d (List.mem_cons_of_mem _ among)) []
    rw [List.append_nil] at none
    unfold words at none ⊢
    rw [List.splitOnP_append_cons _ _ (blank c (List.mem_cons_self ..)), List.filter_append, none]
    simp

theorem words_trim (text : List Char) : words (trim text) = words text := by
  obtain ⟨left, right, whole, blankL, blankR⟩ := trim_within text
  conv_rhs => rw [whole]
  rw [List.append_assoc, words_blanks blankL, words_append_blanks _ blankR]

/-- The words of an alternative are its terms. -/
theorem words_alternative (a : Alternative) : words a.text = a.terms.map Term.text := by
  obtain ⟨before, first, rest, after⟩ := a
  rw [Alternative.text, words_blanks before.property, Alternative.terms, List.map_cons, List.map_map, ← List.append_assoc,
    words_append_blanks _ after.property]
  dsimp only
  induction rest generalizing first with
  | nil =>
    rw [List.flatMap_nil, List.append_nil, words_single (term_plain first).1 fun c among => ((term_plain first).2 c among).1]
    rfl
  | cons next rest ih =>
    obtain ⟨⟨⟨blanks, blank⟩, some_blank⟩, term⟩ := next
    obtain ⟨c, more, rfl⟩ := List.exists_cons_of_ne_nil some_blank
    rw [List.flatMap_cons, List.cons_append, List.cons_append,
      words_append_blank (term_plain first).1 (fun d among => ((term_plain first).2 d among).1)
        (blank c (List.mem_cons_self ..)),
      List.append_assoc, words_blanks fun d among => blank d (List.mem_cons_of_mem _ among), ih term]
    rfl

theorem parts_alternative (a : Alternative) : parts a.text = a.terms.map Term.text := by
  have same := (words_trim a.text).trans (words_alternative a)
  rw [parts, if_neg, same]
  intro none
  rw [none] at same
  cases same

/-! ### Alternatives -/

theorem splitBars_append {cur text rest : List Char} (plain : '|' ∉ text) :
    splitBars cur (text ++ rest) = splitBars (cur ++ text) rest := by
  induction text generalizing cur with
  | nil => rw [List.nil_append, List.append_nil]
  | cons c text ih =>
    obtain ⟨other, later⟩ := not_or.1 fun inside => plain (List.mem_cons.2 inside)
    rw [List.cons_append, splitBars.eq_3 _ _ _ (fun _ same _ => other same.symm), ih later, List.append_assoc,
      List.singleton_append]

theorem bar_alternative (a : Alternative) : '|' ∉ a.text := by
  have blanks (b : Blanks) : '|' ∉ b.val := fun inside => absurd (b.property _ inside) (by decide)
  have term (t : Term) : '|' ∉ t.text := fun inside => ((term_plain t).2 _ inside).2 rfl
  intro inside
  rcases List.mem_append.1 inside with inside | inside
  · exact blanks _ inside
  rcases List.mem_append.1 inside with inside | inside
  · exact term _ inside
  rcases List.mem_append.1 inside with inside | inside
  · obtain ⟨next, -, inside⟩ := List.mem_flatMap.1 inside
    rcases List.mem_append.1 inside with inside | inside
    · exact blanks _ inside
    · exact term _ inside
  · exact blanks _ inside

theorem splitBars_range (r : Range) : splitBars [] r.text = r.alternatives.map Alternative.text := by
  obtain ⟨first, rest⟩ := r
  rw [Range.text, Range.alternatives]
  dsimp only
  induction rest generalizing first with
  | nil =>
    have one := @splitBars_append [] first.text [] (bar_alternative first)
    simpa [splitBars] using one
  | cons next rest ih =>
    rw [List.flatMap_cons, splitBars_append (bar_alternative first), List.cons_append, List.cons_append, splitBars, ih next]
    rfl

theorem mapM_map {α β : Type} {f : List Char → Option β} {text : α → List Char} {value : α → β} (items : List α)
    (each : ∀ item, f (text item) = some (value item)) : (items.map text).mapM f = some (items.map value) := by
  induction items with
  | nil => rfl
  | cons item rest ih =>
    rw [List.map_cons, List.mapM_cons, each, ih]
    rfl

theorem parseRange_text (r : Range) :
    parseRange r.text = some (r.alternatives.map fun a => a.terms.map fun t => (t.op, t.version.doubles)) := by
  rw [parseRange, splitBars_range]
  refine mapM_map r.alternatives fun a => ?_
  rw [parts_alternative]
  exact mapM_map a.terms readTerm_text

/-- A version satisfies a range exactly where all terms of one of its alternatives hold of it. -/
theorem satisfies_iff (spelledV : Bool) (v : Version Numeral) (r : Range) (small : v.Small) :
    satisfies ((if spelledV then ['v'] else []) ++ v.text) r.text = true ↔
      ∃ a ∈ r.alternatives, ∀ t ∈ a.terms, t.Holds v.value := by
  have bare : withoutV ((if spelledV then ['v'] else []) ++ v.text) = v.text := by
    cases spelledV with
    | true => rfl
    | false =>
      obtain ⟨c, more, shape, digit⟩ := version_head v
      have other : c ≠ 'v' := digit_apart digit (by decide)
      simp [shape, withoutV, other]
  rw [satisfies, bare, readVersion_text, parseRange_text]
  simp only [List.any_map, List.any_eq_true, Function.comp_apply, List.all_map, List.all_eq_true, meets_iff small]

def Numeral.one : Numeral := { text := ['1'], named := by simp, digits := List.forall_mem_singleton.2 (by decide) }

def Version.ones : Version Numeral := { major := .one, minor := .one, patch := .one }

/-- `^1.1.1`. -/
def onesOnward : Range where
  first := { before := ⟨[], by simp⟩, first := { op := .caret, spelled := false, version := .ones }, rest := [],
             after := ⟨[], by simp⟩ }
  rest := []

theorem ones_satisfies : satisfies ((if true then ['v'] else []) ++ Version.ones.text) onesOnward.text = true ↔
    ∃ a ∈ onesOnward.alternatives, ∀ t ∈ a.terms, t.Holds Version.ones.value :=
  satisfies_iff true .ones onesOnward ⟨by decide, by decide, by decide⟩

end OpenVibeHost.Lifecycle
