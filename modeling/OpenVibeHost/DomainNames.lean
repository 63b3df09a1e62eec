import OpenVibeHost.EnvFile
import OpenVibeHost.Json
import OpenVibeHost.Paths
import Mathlib.Data.Finset.Basic

/-! A domain name that a person typed, `server/catalog/domains.js`: what surrounds the host is taken off, and the label
before the longest known ending is the name. A name that is read is read back as itself. -/
namespace OpenVibeHost.Catalog.DomainNames
open EnvFile (trim space terminator)

/-! ### Reading a name -/

def isAscii (text : List Char) : Bool := text.all fun c => c.toNat < 128

/-- What is used of the runtime: `toLowerCase`, of which only what it does to ASCII text matters here, and
`url.domainToASCII`. -/
structure Runtime where
  toLowerCase : List Char → List Char
  domainToASCII : List Char → List Char
  lowers : ∀ text, isAscii text = true → toLowerCase text = text.map Char.toLower

def schemeStart (c : Char) : Bool := 'a' ≤ c && c ≤ 'z'

def schemeChar (c : Char) : Bool := schemeStart c || c.isDigit || c = '+' || c = '.' || c = '-'

/-- `.replace(/^[a-z][a-z0-9+.-]*:\/\//, '')`. -/
def withoutScheme (text : List Char) : List Char :=
  match text with
  | [] => []
  | c :: rest =>
    match rest.dropWhile schemeChar with
    | ':' :: '/' :: '/' :: after => if schemeStart c then after else text
    | _ => text

/-- `.replace(/[/?#].*$/, '')`: `.` does not match the end of a line. -/
def withoutPath : List Char → List Char
  | [] => []
  | c :: rest =>
    if c ∈ ['/', '?', '#'] ∧ rest.all (fun d => !terminator d) then [] else c :: withoutPath rest

/-- `.replace(/:\d+$/, '')`. -/
def withoutPort : List Char → List Char
  | [] => []
  | c :: rest => if c = ':' ∧ rest ≠ [] ∧ rest.all Char.isDigit then [] else c :: withoutPort rest

/-- `.replace(/\.$/, '')`. -/
def withoutDot (text : List Char) : List Char := if text.getLast? = some '.' then text.dropLast else text

def labelChar (c : Char) : Bool := schemeStart c || c.isDigit

/-- `[a-z0-9]([a-z0-9-]{0,61}[a-z0-9])?`. -/
def isWord (text : List Char) : Bool :=
  match text with
  | [] => false
  | c :: rest =>
    labelChar c && (rest = [] || (rest.length ≤ 62 && rest.all (fun d => labelChar d || d = '-') &&
      (rest.getLast?.map labelChar).getD false))

/-- `LABEL_RE`. -/
def isLabel (text : List Char) : Bool := isWord text || (text.take 4 = ['x', 'n', '-', '-'] && isWord (text.drop 4))

/-- Two characters and two hyphens. -/
def hyphened (text : List Char) : Bool :=
  match text with
  | a :: b :: '-' :: '-' :: _ => !terminator a && !terminator b
  | _ => false

def refused (label : List Char) : Bool := !isLabel label || (hyphened label && !label.take 4 = ['x', 'n', '-', '-'])

def join (labels : List (List Char)) : List Char := ['.'].intercalate labels

/-- The first of the endings that is known, from the longest on. -/
def knownSuffix (known : Finset (List Char)) : List (List Char) → Option (List Char)
  | [] => none
  | label :: rest => if join (label :: rest) ∈ known then some (join (label :: rest)) else knownSuffix known rest

structure Parsed where
  label : List Char
  tld : Option (List Char)
  name : Option (List Char)
  deriving DecidableEq

/-- The name of labels: the label that sits right before the longest known ending, or before the last label. -/
def registrable (known : Finset (List Char)) (labels : List (List Char)) : Option Parsed :=
  let tld := (knownSuffix known labels.tail).getD (labels.getLast?.getD [])
  let before := labels.take (labels.length - (tld.splitOn '.').length)
  match before.getLast? with
  | none | some [] => none
  | some label => some { label := label, tld := some tld, name := some (label ++ '.' :: tld) }

/-- The host of a typed text, in ASCII. -/
def hostOf (runtime : Runtime) (typed : List Char) : List Char :=
  let host := withoutDot (withoutPort (withoutPath (withoutScheme typed)))
  if isAscii host then host else runtime.domainToASCII host

def parseName (runtime : Runtime) (known : Finset (List Char)) (input : Json) : Option Parsed :=
  match input with
  | .str text =>
    let typed := runtime.toLowerCase (trim text.toList)
    if typed = [] ∨ 253 < (typed.map Json.units).sum then none
    else
      let ascii := hostOf runtime typed
      if ascii = [] then none
      else
        let labels := ascii.splitOn '.'
        if labels.any refused then none
        else
          match labels with
          | [label] => some { label := label, tld := none, name := none }
          | _ => registrable known labels
  | _ => none

/-! ### Endings -/

/-- A proper ending of labels. -/
def Ending (labels other : List (List Char)) : Prop := other ≠ [] ∧ other ≠ labels ∧ other <:+ labels

/-- The label right before the longest ending that is known, or right before the last label where none is. -/
structure Reading (known : Finset (List Char)) (labels : List (List Char)) (label tld : List Char)
    (suffix : List (List Char)) : Prop where
  some' : suffix ≠ []
  within : label :: suffix <:+ labels
  ending : tld = join suffix
  longest : (tld ∈ known ∧ ∀ other, Ending labels other → join other ∈ known → other.length ≤ suffix.length) ∨
    (∀ other, Ending labels other → join other ∉ known) ∧ suffix.length = 1

section
variable {known : Finset (List Char)} {labels other suffix : List (List Char)} {label tld : List Char}

theorem ending_iff (nonempty : labels ≠ []) : Ending labels other ↔ other ≠ [] ∧ other <:+ labels.tail := by
  cases labels with
  | nil => exact absurd rfl nonempty
  | cons first rest =>
    rw [Ending, List.tail_cons, List.suffix_cons_iff]
    constructor
    · rintro ⟨some', proper, whole | within⟩
      · exact absurd whole proper
      · exact ⟨some', within⟩
    · rintro ⟨some', within⟩
      refine ⟨some', ?_, .inr within⟩
      rintro rfl
      have longer := within.length_le
      simp at longer

theorem Reading.isEnding (reading : Reading known labels label tld suffix) : Ending labels suffix := by
  have longer := reading.within.length_le
  refine ⟨reading.some', ?_, (List.suffix_cons label suffix).trans reading.within⟩
  rintro rfl
  simp at longer

/-- What is found is the longest known ending. -/
theorem knownSuffix_some (found : knownSuffix known labels = some tld) : ∃ suffix, suffix ≠ [] ∧ suffix <:+ labels ∧
    tld = join suffix ∧ tld ∈ known ∧ ∀ other, other ≠ [] → other <:+ labels → join other ∈ known → other.length ≤ suffix.length := by
  induction labels with
  | nil => exact nomatch found
  | cons first rest ih =>
    unfold knownSuffix at found
    split at found
    · rename_i isKnown
      obtain rfl := Option.some.inj found
      exact ⟨first :: rest, by simp, List.suffix_refl _, rfl, isKnown, fun other _ within _ => within.length_le⟩
    · rename_i unknown
      obtain ⟨suffix, some', within, isTld, isKnown, longest⟩ := ih found
      refine ⟨suffix, some', within.trans (List.suffix_cons first rest), isTld, isKnown, fun other some'' inside among => ?_⟩
      rcases List.suffix_cons_iff.1 inside with rfl | inside
      · exact absurd among unknown
      · exact longest other some'' inside among

theorem knownSuffix_none (none : knownSuffix known labels = none) (some' : other ≠ []) (within : other <:+ labels) :
    join other ∉ known := by
  induction labels with
  | nil => exact absurd (List.suffix_nil.1 within) some'
  | cons first rest ih =>
    unfold knownSuffix at none
    split at none
    · exact nomatch none
    · rename_i unknown
      rcases List.suffix_cons_iff.1 within with rfl | within
      · exact unknown
      · exact ih none within

theorem splitOn_join (plain : ∀ label ∈ labels, '.' ∉ label) (nonempty : labels ≠ []) : (join labels).splitOn '.' = labels :=
  List.splitOn_intercalate '.' plain nonempty

/-- The label before an ending. -/
theorem registrable_eq (plain : ∀ label ∈ labels, '.' ∉ label) (named : ∀ label ∈ labels, label ≠ [])
    (isTld : (knownSuffix known labels.tail).getD (labels.getLast?.getD []) = join suffix) (some' : suffix ≠ [])
    (within : label :: suffix <:+ labels) :
    registrable known labels = some { label := label, tld := some (join suffix), name := some (label ++ '.' :: join suffix) } := by
  obtain ⟨before, shape⟩ := within
  have dotless : ∀ label ∈ suffix, '.' ∉ label := fun other among => plain other (by simp [← shape, among])
  have length : labels.length - suffix.length = before.length + 1 := by
    rw [← shape]
    simp
    omega
  have nonempty : label ≠ [] := named label (by simp [← shape])
  unfold registrable
  dsimp only
  rw [isTld, splitOn_join dotless some', length, ← shape, List.take_append, List.take_of_length_le (Nat.le_succ _),
    Nat.add_sub_cancel_left, List.take_succ_cons, List.take_zero, List.getLast?_concat]
  cases label with
  | nil => exact absurd rfl nonempty
  | cons c rest => rfl

theorem registrable_of_reading (plain : ∀ label ∈ labels, '.' ∉ label) (named : ∀ label ∈ labels, label ≠ [])
    (reading : Reading known labels label tld suffix) :
    registrable known labels = some { label := label, tld := some tld, name := some (label ++ '.' :: tld) } := by
  have nonempty : labels ≠ [] := by
    rintro rfl
    exact nomatch List.suffix_nil.1 reading.within
  obtain ⟨some', inside⟩ := (ending_iff nonempty).1 reading.isEnding
  obtain rfl := reading.ending
  refine registrable_eq plain named ?_ some' reading.within
  cases found : knownSuffix known labels.tail with
  | some other =>
    obtain ⟨longest, some'', within, rfl, isKnown, most⟩ := knownSuffix_some found
    rcases reading.longest with ⟨among, least⟩ | ⟨none, -⟩
    · have least := least longest ((ending_iff nonempty).2 ⟨some'', within⟩) isKnown
      have most := most suffix some' inside among
      have same : suffix = longest := (List.suffix_of_suffix_length_le inside within most).eq_of_length (le_antisymm most least)
      rw [same]
      rfl
    · exact absurd isKnown (none longest ((ending_iff nonempty).2 ⟨some'', within⟩))
  | none =>
    rcases reading.longest with ⟨among, -⟩ | ⟨-, one⟩
    · exact absurd among (knownSuffix_none found some' inside)
    · obtain ⟨last, rfl⟩ := List.length_eq_one_iff.1 one
      obtain ⟨before, shape⟩ := inside.trans (List.tail_suffix labels)
      rw [← shape, List.getLast?_concat]
      simp [join]

/-- There is a label before an ending. -/
theorem exists_before (nonempty : labels ≠ []) (inside : suffix <:+ labels.tail) : ∃ label, label :: suffix <:+ labels := by
  obtain ⟨before, shape⟩ := inside
  cases labels with
  | nil => exact absurd rfl nonempty
  | cons first rest =>
    obtain rfl : before ++ suffix = rest := shape
    rcases List.eq_nil_or_concat' (first :: before) with none | ⟨more, label, whole⟩
    · exact nomatch none
    · refine ⟨label, more, ?_⟩
      rw [List.append_cons, ← whole, List.cons_append]

theorem exists_reading (many : 2 ≤ labels.length) : ∃ label tld suffix, Reading known labels label tld suffix := by
  obtain ⟨first, rest, rfl⟩ := List.exists_cons_of_length_pos (show 0 < labels.length by omega)
  cases found : knownSuffix known rest with
  | some tld =>
    obtain ⟨suffix, some', within, isTld, isKnown, longest⟩ := knownSuffix_some found
    obtain ⟨label, before⟩ := exists_before (List.cons_ne_nil first rest) within
    refine ⟨label, tld, suffix, some', before, isTld, .inl ⟨isKnown, fun other isEnding among => ?_⟩⟩
    obtain ⟨some'', inside⟩ := (ending_iff (List.cons_ne_nil first rest)).1 isEnding
    exact longest other some'' inside among
  | none =>
    rcases List.eq_nil_or_concat' rest with rfl | ⟨more, last, rfl⟩
    · simp at many
    · obtain ⟨label, before⟩ := exists_before (List.cons_ne_nil first _) (List.suffix_append more [last])
      refine ⟨label, join [last], [last], by simp, before, rfl, .inr ⟨fun other isEnding => ?_, rfl⟩⟩
      obtain ⟨some'', inside⟩ := (ending_iff (List.cons_ne_nil first _)).1 isEnding
      exact knownSuffix_none found some'' inside

/-- A name has the same reading as the labels that it is read from. -/
theorem Reading.name (reading : Reading known labels label tld suffix) : Reading known (label :: suffix) label tld suffix := by
  have still {other : List (List Char)} (ending : Ending (label :: suffix) other) : Ending labels other := by
    obtain ⟨some', proper, within⟩ := ending
    refine ⟨some', ?_, within.trans reading.within⟩
    rintro rfl
    exact proper (within.eq_of_length_le reading.within.length_le)
  refine ⟨reading.some', List.suffix_refl _, reading.ending, ?_⟩
  rcases reading.longest with ⟨among, longest⟩ | ⟨none, one⟩
  · exact .inl ⟨among, fun other ending => longest other (still ending)⟩
  · exact .inr ⟨fun other ending => none other (still ending), one⟩

end

/-! ### Labels -/

theorem labelChar_spec {c : Char} (is : labelChar c = true) : c.toNat < 128 ∧ c.toLower = c ∧ space c = false ∧
    c ∉ ['-', '.', ':', '/', '?', '#'] := by
  have low : c.toNat < 128 := by
    simp only [labelChar, schemeStart, Char.isDigit, Bool.or_eq_true, Bool.and_eq_true, decide_eq_true_eq, Char.le_def,
      UInt32.le_iff_toNat_le, ge_iff_le] at is
    have letters : 'z'.val.toNat = 122 ∧ '9'.val.toNat = 57 := by decide
    simp only [Char.toNat]
    omega
  have all : ∀ n < 128, labelChar (Char.ofNat n) = true → (Char.ofNat n).toLower = Char.ofNat n ∧
      space (Char.ofNat n) = false ∧ Char.ofNat n ∉ ['-', '.', ':', '/', '?', '#'] := by decide
  have spec := all c.toNat low
  rw [Char.ofNat_toNat] at spec
  exact ⟨low, spec is⟩

/-- A label: letters and digits at its ends, and hyphens between them. -/
structure Label (text : List Char) : Prop where
  chars : ∀ c ∈ text, labelChar c = true ∨ c = '-'
  first : ∃ c rest, text = c :: rest ∧ labelChar c = true
  last : ∃ before c, text = before ++ [c] ∧ labelChar c = true
  short : text.length ≤ 67

theorem label_of_word {text : List Char} (word : isWord text = true) : Label text ∧ text.length ≤ 63 := by
  cases text with
  | nil => cases word
  | cons c rest =>
    simp only [isWord, Bool.and_eq_true, Bool.or_eq_true, decide_eq_true_eq, List.all_eq_true] at word
    obtain ⟨first, rfl | ⟨⟨short, chars⟩, last⟩⟩ := word
    · exact ⟨⟨by simpa using .inl first, ⟨c, [], rfl, first⟩, ⟨[], c, rfl, first⟩, by simp⟩, by simp⟩
    · rcases List.eq_nil_or_concat' rest with rfl | ⟨more, d, rfl⟩
      · cases last
      · rw [List.getLast?_concat] at last
        have length : (c :: (more ++ [d])).length ≤ 63 := Nat.succ_le_succ short
        refine ⟨⟨fun e among => ?_, ⟨c, _, rfl, first⟩, ⟨c :: more, d, rfl, last⟩, length.trans (by decide)⟩, length⟩
        rcases List.mem_cons.1 among with rfl | among
        · exact .inl first
        · simpa using chars e among

theorem label_of_isLabel {text : List Char} (is : isLabel text = true) : Label text := by
  simp only [isLabel, Bool.or_eq_true, Bool.and_eq_true, decide_eq_true_eq] at is
  rcases is with word | ⟨begins, word⟩
  · exact (label_of_word word).1
  · obtain ⟨⟨chars, first, ⟨before, c, shape, last⟩, -⟩, short⟩ := label_of_word word
    have whole := List.take_append_drop 4 text
    rw [begins] at whole
    refine ⟨fun d among => ?_, ?_, ?_, ?_⟩
    · rw [← whole, List.mem_append] at among
      rcases among with prefixed | among
      · have each : (['x', 'n', '-', '-'].all fun e => labelChar e || e = '-') = true := by decide
        simpa using List.all_eq_true.1 each d prefixed
      · exact chars d among
    · exact ⟨'x', 'n' :: '-' :: '-' :: text.drop 4, whole.symm, by decide⟩
    · exact ⟨'x' :: 'n' :: '-' :: '-' :: before, c, by rw [← whole, shape]; rfl, last⟩
    · rw [← whole, List.length_append]
      exact Nat.add_le_add_left short 4

theorem label_of_accepted {text : List Char} (accepted : refused text = false) : Label text := by
  simp only [refused, Bool.or_eq_false_iff, Bool.not_eq_false'] at accepted
  exact label_of_isLabel accepted.1

theorem Label.dotless {text : List Char} (label : Label text) : '.' ∉ text := by
  intro among
  rcases label.chars _ among with is | is
  · exact absurd is (by decide)
  · exact absurd is (by decide)

theorem Label.nonempty {text : List Char} (label : Label text) : text ≠ [] := by
  obtain ⟨c, rest, rfl, -⟩ := label.first
  exact List.cons_ne_nil c rest

/-! ### Names -/

/-- A text that nothing is taken off of. -/
structure Bare (text : List Char) : Prop where
  chars : ∀ c ∈ text, c.toNat < 128 ∧ c.toLower = c ∧ c ∉ [':', '/', '?', '#']
  first : ∃ c rest, text = c :: rest ∧ space c = false
  last : ∃ before c, text = before ++ [c] ∧ space c = false ∧ c ≠ '.'

section
variable {text : List Char}

theorem withoutScheme_self (plain : ':' ∉ text) : withoutScheme text = text := by
  unfold withoutScheme
  split
  · rfl
  rename_i c rest
  split
  · rename_i after shape
    have among : ':' ∈ rest.dropWhile schemeChar := by simp [shape]
    exact absurd (List.mem_cons_of_mem c (List.dropWhile_subset _ among)) plain
  · rfl

theorem withoutPath_self (plain : ∀ c ∈ text, c ∉ ['/', '?', '#']) : withoutPath text = text := by
  induction text with
  | nil => rfl
  | cons c rest ih =>
    rw [withoutPath, if_neg fun both => plain c List.mem_cons_self both.1,
      ih fun d among => plain d (List.mem_cons_of_mem _ among)]

theorem withoutPort_self (plain : ':' ∉ text) : withoutPort text = text := by
  induction text with
  | nil => rfl
  | cons c rest ih =>
    obtain ⟨other, later⟩ := not_or.1 (List.mem_cons.not.1 plain)
    rw [withoutPort, if_neg fun all => other all.1.symm, ih later]

theorem Bare.trim (bare : Bare text) : trim text = text := by
  obtain ⟨c, rest, first, black⟩ := bare.first
  obtain ⟨before, d, last, black', -⟩ := bare.last
  have ahead : text.dropWhile space = text := by
    rw [first, List.dropWhile_cons_of_neg (by simp [black])]
  have behind : text.reverse.dropWhile space = text.reverse := by
    rw [last, List.reverse_concat, List.dropWhile_cons_of_neg (by simp [black'])]
  rw [EnvFile.trim, ahead, behind, List.reverse_reverse]

theorem Bare.isAscii (bare : Bare text) : isAscii text = true :=
  List.all_eq_true.2 fun c among => decide_eq_true (bare.chars c among).1

theorem Bare.lowered (bare : Bare text) (runtime : Runtime) : runtime.toLowerCase text = text := by
  rw [runtime.lowers text bare.isAscii]
  exact (List.map_congr_left fun c among => (bare.chars c among).2.1).trans (List.map_id text)

theorem Bare.units (bare : Bare text) : (text.map Json.units).sum = text.length := by
  have one : text.map Json.units = text.map fun _ => 1 := List.map_congr_left fun c among => by
    have low := (bare.chars c among).1
    rw [Json.units, if_pos (by omega)]
  rw [one]
  simp

theorem Bare.hostOf (bare : Bare text) (runtime : Runtime) : hostOf runtime text = text := by
  have colon : ':' ∉ text := fun among => absurd (by simp) (bare.chars _ among).2.2
  have path : ∀ c ∈ text, c ∉ ['/', '?', '#'] := fun c among inside =>
    (bare.chars c among).2.2 (List.mem_cons_of_mem _ inside)
  have dot : withoutDot text = text := by
    obtain ⟨before, c, rfl, -, other⟩ := bare.last
    rw [withoutDot, List.getLast?_concat, if_neg (by simpa using other)]
  unfold DomainNames.hostOf
  rw [withoutScheme_self colon, withoutPath_self path, withoutPort_self colon, dot, if_pos bare.isAscii]

end

/-! ### Read again -/

section
variable {runtime : Runtime} {known : Finset (List Char)} {labels suffix : List (List Char)} {label tld name : List Char}

theorem join_cons (nonempty : labels ≠ []) : join (label :: labels) = label ++ '.' :: join labels := by
  rw [join, List.intercalate_cons_of_ne_nil nonempty, List.append_assoc]
  rfl

theorem join_suffix (within : suffix <:+ labels) (nonempty : suffix ≠ []) : join suffix <:+ join labels := by
  induction labels with
  | nil => exact absurd (List.suffix_nil.1 within) nonempty
  | cons first rest ih =>
    rcases List.suffix_cons_iff.1 within with rfl | within
    · exact List.suffix_refl _
    · have some' : rest ≠ [] := by
        rintro rfl
        exact nonempty (List.suffix_nil.1 within)
      rw [join_cons some', List.append_cons]
      exact (ih within).trans (List.suffix_append _ _)

theorem Label.bare {text : List Char} (label : Label text) : Bare text := by
  obtain ⟨c, rest, first, is⟩ := label.first
  obtain ⟨before, d, last, is'⟩ := label.last
  refine ⟨fun e among => ?_, ⟨c, rest, first, (labelChar_spec is).2.2.1⟩, ⟨before, d, last, (labelChar_spec is').2.2.1, ?_⟩⟩
  · rcases label.chars e among with is | rfl
    · obtain ⟨low, lower, -, other⟩ := labelChar_spec is
      exact ⟨low, lower, fun inside => other (by simp only [List.mem_cons] at inside ⊢; tauto)⟩
    · decide
  · rintro rfl
    exact absurd is' (by decide)

theorem bare_join (each : ∀ label ∈ labels, Label label) (nonempty : labels ≠ []) : Bare (join labels) := by
  induction labels with
  | nil => exact absurd rfl nonempty
  | cons label rest ih =>
    have one := (each label List.mem_cons_self).bare
    by_cases alone : rest = []
    · rw [alone, join, List.intercalate_singleton]
      exact one
    · have others := ih (fun other among => each other (List.mem_cons_of_mem _ among)) alone
      obtain ⟨c, more, first, black⟩ := one.first
      obtain ⟨before, d, last, black'⟩ := others.last
      rw [join_cons alone]
      refine ⟨fun e among => ?_, ⟨c, more ++ '.' :: join rest, by rw [first]; rfl, black⟩,
        ⟨label ++ '.' :: before, d, by rw [last]; simp, black'⟩⟩
      rcases List.mem_append.1 among with among | among
      · exact one.chars e among
      rcases List.mem_cons.1 among with rfl | among
      · decide
      · exact others.chars e among

/-- Labels that are joined are read as they are. -/
theorem parseName_join (many : 2 ≤ labels.length) (accepted : ∀ label ∈ labels, refused label = false)
    (short : (join labels).length ≤ 253) :
    parseName runtime known (.str (String.ofList (join labels))) = registrable known labels := by
  have each : ∀ label ∈ labels, Label label := fun label among => label_of_accepted (accepted label among)
  have nonempty : labels ≠ [] := by
    rintro rfl
    simp at many
  have bare := bare_join each nonempty
  have some' : join labels ≠ [] := by
    obtain ⟨c, rest, shape, -⟩ := bare.first
    rw [shape]
    exact List.cons_ne_nil c rest
  have split := splitOn_join (fun label among => (each label among).dotless) nonempty
  have none : labels.any refused = false := by
    rw [List.any_eq_false]
    exact fun label among => by simp [accepted label among]
  unfold parseName
  dsimp only
  rw [String.toList_ofList, bare.trim, bare.lowered, bare.units, if_neg (not_or.2 ⟨some', not_lt.2 short⟩), bare.hostOf, if_neg some', split, none]
  obtain ⟨first, second, rest, rfl⟩ : ∃ first second rest, labels = first :: second :: rest := by
    match labels, many with
    | first :: second :: rest, _ => exact ⟨first, second, rest, rfl⟩
  rfl

/-- The host that a person typed. -/
def typedHost (runtime : Runtime) (text : String) : List Char := hostOf runtime (runtime.toLowerCase (trim text.toList))

/-- A name is that of two labels at least, none of which is refused. -/
theorem parseName_named {text : String} {p : Parsed} (parsed : parseName runtime known (.str text) = some p)
    (named : p.name = some name) :
    let labels := (typedHost runtime text).splitOn '.'
    2 ≤ labels.length ∧ (∀ label ∈ labels, refused label = false) ∧ registrable known labels = some p := by
  unfold parseName at parsed
  unfold typedHost
  dsimp only at parsed ⊢
  split at parsed
  · exact nomatch parsed
  split at parsed
  · exact nomatch parsed
  generalize (hostOf runtime (runtime.toLowerCase (trim text.toList))).splitOn '.' = labels at parsed
  split at parsed
  · exact nomatch parsed
  rename_i accepted
  have each : ∀ label ∈ labels, refused label = false := by simpa using accepted
  split at parsed
  · obtain rfl := Option.some.inj parsed
    exact nomatch named
  · rename_i several
    refine ⟨?_, each, parsed⟩
    match labels with
    | [] =>
      have none : registrable known [] = none := rfl
      exact nomatch none.symm.trans parsed
    | [label] => exact absurd rfl (several label)
    | _ :: _ :: rest => exact Nat.le_add_left 2 rest.length

theorem Reading.joined (reading : Reading known labels label tld suffix) : label ++ '.' :: tld = join (label :: suffix) := by
  rw [join_cons reading.some', reading.ending]

/-- A name is not long where no known ending is. -/
theorem Reading.length_le (reading : Reading known labels label tld suffix) (each : ∀ label ∈ labels, Label label)
    (stored : ∀ tld ∈ known, tld.length ≤ 120) : (label ++ '.' :: tld).length ≤ 253 := by
  have first := (each label (reading.within.subset List.mem_cons_self)).short
  have last : tld.length ≤ 120 := by
    rcases reading.longest with ⟨isKnown, -⟩ | ⟨-, one⟩
    · exact stored tld isKnown
    · obtain ⟨last, rfl⟩ := List.length_eq_one_iff.1 one
      have short := (each last (reading.within.subset (by simp))).short
      rw [reading.ending, join, List.intercalate_singleton]
      omega
  simp only [List.length_append, List.length_cons]
  omega

/-- A name is the label before the longest known ending of the host, or before its last label, and it is read again as
the same name where it is not too long: where the host or each known ending is not. -/
theorem parseName_stable {text : String} {p : Parsed} (parsed : parseName runtime known (.str text) = some p)
    (named : p.name = some name)
    (short : (typedHost runtime text).length ≤ 253 ∨ ∀ tld ∈ known, tld.length ≤ 120) :
    ∃ tld suffix, p.tld = some tld ∧ name = p.label ++ '.' :: tld ∧
      Reading known ((typedHost runtime text).splitOn '.') p.label tld suffix ∧
      name.splitOn '.' = p.label :: suffix ∧ name <:+ typedHost runtime text ∧
      parseName runtime known (.str (String.ofList name)) = some p := by
  obtain ⟨many, accepted, found⟩ := parseName_named parsed named
  generalize typedHost runtime text = host at *
  have whole : join (host.splitOn '.') = host := List.intercalate_splitOn '.'
  generalize host.splitOn '.' = labels at *
  have each : ∀ label ∈ labels, Label label := fun label among => label_of_accepted (accepted label among)
  obtain ⟨label, tld, suffix, reading⟩ := @exists_reading known labels many
  have read := registrable_of_reading (fun label among => (each label among).dotless)
    (fun label among => (each label among).nonempty) reading
  obtain rfl := Option.some.inj (found.symm.trans read)
  obtain rfl : label ++ '.' :: tld = name := Option.some.inj named
  have among : ∀ other ∈ label :: suffix, other ∈ labels := fun other inside => reading.within.subset inside
  have split : (join (label :: suffix)).splitOn '.' = label :: suffix :=
    splitOn_join (fun other inside => (each other (among other inside)).dotless) (List.cons_ne_nil _ _)
  have within : label ++ '.' :: tld <:+ host := by
    rw [reading.joined, ← whole]
    exact join_suffix reading.within (List.cons_ne_nil _ _)
  have length : (join (label :: suffix)).length ≤ 253 := by
    rw [← reading.joined]
    exact short.elim within.length_le.trans (reading.length_le each)
  refine ⟨tld, suffix, rfl, rfl, reading, reading.joined ▸ split, within, ?_⟩
  have several : 2 ≤ (label :: suffix).length := Nat.succ_le_succ (List.length_pos_of_ne_nil reading.some')
  rw [reading.joined, parseName_join several (fun other inside => accepted other (among other inside)) length,
    registrable_of_reading (fun other inside => (each other (among other inside)).dotless)
      (fun other inside => (each other (among other inside)).nonempty) reading.name, ← reading.joined]

end

/-- A runtime for texts of ASCII. -/
def plain : Runtime where
  toLowerCase := List.map Char.toLower
  domainToASCII := id
  lowers _ _ := rfl

def stored : Finset (List Char) := {"com".toList, "uk".toList, "co.uk".toList}

theorem address_stable : ∃ tld suffix, Reading stored ("www.example.co.uk".toList.splitOn '.') "example".toList tld suffix ∧
    parseName plain stored (.str "example.co.uk") =
      some { label := "example".toList, tld := some "co.uk".toList, name := some "example.co.uk".toList } := by
  have parsed : parseName plain stored (.str "https://www.Example.co.uk/path?x") =
      some { label := "example".toList, tld := some "co.uk".toList, name := some "example.co.uk".toList } := by decide
  obtain ⟨tld, suffix, -, -, reading, -, -, again⟩ := parseName_stable parsed rfl (.inl (by decide))
  exact ⟨tld, suffix, reading, again⟩

end OpenVibeHost.Catalog.DomainNames
