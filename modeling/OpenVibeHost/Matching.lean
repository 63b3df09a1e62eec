import Mathlib.Data.List.Basic
import Mathlib.Data.List.Infix
import Mathlib.Tactic.Common

/-! Backtracking, as a regular expression does it: a reader gives all the ways in which it can read the beginning of a
text, the preferred one first. A scan takes the leftmost match, goes on after it, and so on; what it leaves out is
inside of what it takes. -/
namespace OpenVibeHost.Matching

/-- What was read, and what is left. -/
abbrev Reader (α : Type) := List Char → List (α × List Char)

variable {α β : Type}

def andThen (first : Reader α) (next : α → Reader β) : Reader β :=
  fun text => (first text).flatMap fun (a, rest) => next a rest

/-- One text after another. -/
def joined (first second : Reader (List Char)) : Reader (List Char) :=
  andThen first fun a text => (second text).map fun (b, rest) => (a ++ b, rest)

/-- A character of a kind. -/
def one (kind : Char → Bool) : Reader (List Char)
  | [] => []
  | c :: rest => if kind c then [([c], rest)] else []

/-- From `least` to `most` characters of a kind, as many as possible. -/
def many (kind : Char → Bool) (least most : Nat) : Reader (List Char) := fun text =>
  ((List.range' least (most + 1 - least)).reverse.filter (· ≤ (text.takeWhile kind).length)).map fun n =>
    (text.take n, text.drop n)

/-- Any number of them. -/
def star (kind : Char → Bool) : Reader (List Char) := fun text => many kind 0 (text.takeWhile kind).length text

/-- With it, or else without. -/
def optional (reader : Reader (List Char)) : Reader (List Char) := fun text => reader text ++ [([], text)]

/-- A word in small letters, read in any case. -/
def word (letters : List Char) : Reader (List Char) := fun text =>
  if (text.take letters.length).map Char.toLower = letters then [(text.take letters.length, text.drop letters.length)]
  else []

def anyWord (words : List (List Char)) : Reader (List Char) := fun text => words.flatMap fun letters => word letters text

/-! ### What is read -/

theorem mem_andThen {first : Reader α} {next : α → Reader β} {text rest : List Char} {b : β} :
    (b, rest) ∈ andThen first next text ↔ ∃ a between, (a, between) ∈ first text ∧ (b, rest) ∈ next a between := by
  simp [andThen, List.mem_flatMap]

theorem mem_joined {first second : Reader (List Char)} {text taken rest : List Char} :
    (taken, rest) ∈ joined first second text ↔
      ∃ a b between, taken = a ++ b ∧ (a, between) ∈ first text ∧ (b, rest) ∈ second between := by
  simp only [joined, mem_andThen, List.mem_map, Prod.mk.injEq, Prod.exists]
  constructor
  · rintro ⟨a, between, read, b, rest, later, rfl, rfl⟩
    exact ⟨a, b, between, rfl, read, later⟩
  · rintro ⟨a, b, between, rfl, read, later⟩
    exact ⟨a, between, read, b, rest, later, rfl, rfl⟩

theorem mem_one {kind : Char → Bool} {text taken rest : List Char} :
    (taken, rest) ∈ one kind text ↔ ∃ c, taken = [c] ∧ text = c :: rest ∧ kind c = true := by
  cases text with
  | nil => simp [one]
  | cons c more =>
    by_cases fits : kind c = true
    · simp only [one, fits, if_true, List.mem_singleton, Prod.mk.injEq, List.cons.injEq]
      constructor
      · rintro ⟨rfl, rfl⟩
        exact ⟨c, rfl, ⟨rfl, rfl⟩, fits⟩
      · rintro ⟨d, rfl, ⟨rfl, rfl⟩, -⟩
        exact ⟨rfl, rfl⟩
    · simp only [one, fits, Bool.false_eq_true, if_false, List.not_mem_nil, List.cons.injEq, false_iff]
      rintro ⟨d, -, ⟨rfl, -⟩, kept⟩
      exact fits kept

theorem le_takeWhile_iff {kind : Char → Bool} {text : List Char} {n : Nat} :
    n ≤ (text.takeWhile kind).length ↔ n ≤ text.length ∧ ∀ c ∈ text.take n, kind c = true := by
  induction text generalizing n with
  | nil => simp
  | cons c rest ih =>
    cases n with
    | zero => simp
    | succ n =>
      by_cases fits : kind c = true
      · simp [fits, ih]
      · simp [fits]

theorem mem_many {kind : Char → Bool} {least most : Nat} {text taken rest : List Char} :
    (taken, rest) ∈ many kind least most text ↔
      text = taken ++ rest ∧ least ≤ taken.length ∧ taken.length ≤ most ∧ ∀ c ∈ taken, kind c = true := by
  simp only [many, List.mem_map, List.mem_filter, List.mem_reverse, List.mem_range'_1, decide_eq_true_eq,
    le_takeWhile_iff, Prod.mk.injEq]
  constructor
  · rintro ⟨n, ⟨bounds, long, fits⟩, rfl, rfl⟩
    rw [List.length_take, min_eq_left long]
    exact ⟨(List.take_append_drop n text).symm, by omega, by omega, fits⟩
  · rintro ⟨rfl, least, most, fits⟩
    exact ⟨taken.length, ⟨by omega, by simp, by simpa using fits⟩, by simp, by simp⟩

theorem mem_star {kind : Char → Bool} {text taken rest : List Char} (mem : (taken, rest) ∈ star kind text) :
    text = taken ++ rest ∧ ∀ c ∈ taken, kind c = true := by
  obtain ⟨split, -, -, fits⟩ := mem_many.mp mem
  exact ⟨split, fits⟩

theorem mem_optional {reader : Reader (List Char)} {text taken rest : List Char} :
    (taken, rest) ∈ optional reader text ↔ (taken, rest) ∈ reader text ∨ taken = [] ∧ rest = text := by
  simp [optional]

theorem mem_word {letters text taken rest : List Char} :
    (taken, rest) ∈ word letters text ↔ text = taken ++ rest ∧ taken.map Char.toLower = letters := by
  unfold word
  split
  · rename_i same
    simp only [List.mem_singleton, Prod.mk.injEq]
    constructor
    · rintro ⟨rfl, rfl⟩
      exact ⟨(List.take_append_drop _ _).symm, same⟩
    · rintro ⟨rfl, rfl⟩
      simp
  · rename_i differ
    simp only [List.not_mem_nil, false_iff, not_and]
    rintro rfl rfl
    simp at differ

theorem mem_anyWord {words : List (List Char)} {text taken rest : List Char} :
    (taken, rest) ∈ anyWord words text ↔ text = taken ++ rest ∧ taken.map Char.toLower ∈ words := by
  simp only [anyWord, List.mem_flatMap, mem_word]
  constructor
  · rintro ⟨letters, mem, split, rfl⟩
    exact ⟨split, mem⟩
  · rintro ⟨split, mem⟩
    exact ⟨_, mem, split, rfl⟩

/-! ### Scanning -/

/-- A match in a text: what is before it, the nearest first, what it reads, what it says, and what is after it. -/
structure Found (α : Type) where
  seen : List Char
  whole : List Char
  value : α
  rest : List Char

/-- `matchAll`: the leftmost match, then the leftmost one after it, and so on. The first `skip` characters are those
of the last match. -/
def scan (reader : Reader α) : List Char → Nat → List Char → List (Found α)
  | _, _, [] => []
  | seen, skip + 1, c :: text => scan reader (c :: seen) skip text
  | seen, 0, c :: text =>
    match (reader (c :: text)).head? with
    | some (a, rest) =>
      ⟨seen, (c :: text).take ((c :: text).length - rest.length), a, rest⟩ ::
        scan reader (c :: seen) (text.length - rest.length) text
    | none => scan reader (c :: seen) 0 text

def matchAll (reader : Reader α) (text : List Char) : List (Found α) := scan reader [] 0 text

namespace Found

def start (f : Found α) : Nat := f.seen.length
def stop (f : Found α) : Nat := f.seen.length + f.whole.length

/-- The match is the reader's first in a text. -/
structure In (f : Found α) (reader : Reader α) (text : List Char) : Prop where
  split : text = f.seen.reverse ++ f.whole ++ f.rest
  read : (reader (f.whole ++ f.rest)).head? = some (f.value, f.rest)
  nonempty : f.whole ≠ []

end Found

/-- What a reader reads is a beginning of the text, and not nothing. -/
def Proper (reader : Reader α) : Prop :=
  ∀ text a rest, (a, rest) ∈ reader text → ∃ whole, whole ≠ [] ∧ text = whole ++ rest

variable {reader : Reader α}

theorem Proper.first (proper : Proper reader) {text rest : List Char} {a : α}
    (first : (reader text).head? = some (a, rest)) : ∃ whole, whole ≠ [] ∧ text = whole ++ rest :=
  proper text a rest (List.mem_of_head? first)

theorem scan_in (proper : Proper reader) {seen text : List Char} {skip : Nat} {f : Found α}
    (found : f ∈ scan reader seen skip text) : f.In reader (seen.reverse ++ text) ∧ seen.length + skip ≤ f.start := by
  induction text generalizing seen skip with
  | nil => cases skip <;> cases found
  | cons c text ih =>
    have again {skip : Nat} (later : f ∈ scan reader (c :: seen) skip text) :
        f.In reader (seen.reverse ++ c :: text) ∧ seen.length + 1 + skip ≤ f.start := by
      have holds := ih later
      simpa [List.append_assoc, List.length_cons] using holds
    cases skip with
    | succ skip =>
      obtain ⟨inside, after⟩ := again found
      exact ⟨inside, by omega⟩
    | zero =>
      rw [scan] at found
      split at found
      · rename_i a rest first
        rcases List.mem_cons.mp found with rfl | later
        · obtain ⟨whole, nonempty, split⟩ := proper.first first
          have taken : (c :: text).take ((c :: text).length - rest.length) = whole := by
            rw [split, List.length_append, Nat.add_sub_cancel, List.take_left]
          refine ⟨⟨?_, ?_, ?_⟩, le_rfl⟩
          · dsimp only
            rw [taken, List.append_assoc, ← split]
          · dsimp only
            rw [taken, ← split, first]
          · dsimp only
            rwa [taken]
        · obtain ⟨inside, after⟩ := again later
          exact ⟨inside, by omega⟩
      · obtain ⟨inside, after⟩ := again found
        exact ⟨inside, by omega⟩

/-- Each match starts where the ones before it have stopped. -/
theorem scan_ordered (proper : Proper reader) (seen text : List Char) (skip : Nat) :
    (scan reader seen skip text).Pairwise fun f g => f.stop ≤ g.start := by
  induction text generalizing seen skip with
  | nil => cases skip <;> exact List.Pairwise.nil
  | cons c text ih =>
    cases skip with
    | succ skip => exact ih (c :: seen) skip
    | zero =>
      rw [scan]
      split
      · rename_i a rest first
        refine List.pairwise_cons.mpr ⟨fun g later => ?_, ih _ _⟩
        have after := (scan_in proper later).2
        simp only [Found.stop, List.length_take, List.length_cons] at after ⊢
        omega
      · exact ih _ _

/-- Where a reader can read, it is inside of a match. -/
theorem scan_covers (proper : Proper reader) {seen text : List Char} {skip : Nat} {before rest : List Char} {c : Char}
    (split : text = before ++ c :: rest) (past : skip ≤ before.length) (reads : reader (c :: rest) ≠ []) :
    ∃ f ∈ scan reader seen skip text, f.start ≤ seen.length + before.length ∧ seen.length + before.length < f.stop := by
  induction text generalizing seen skip before with
  | nil => simp at split
  | cons d text ih =>
    have again {left : Nat} {b : Char} {more : List Char} (shape : before = b :: more) (near : left ≤ more.length) :
        ∃ f ∈ scan reader (d :: seen) left text, f.start ≤ seen.length + before.length ∧
          seen.length + before.length < f.stop := by
      subst shape
      obtain ⟨rfl, later⟩ := List.cons.inj split
      obtain ⟨f, mem, low, high⟩ := @ih (d :: seen) left more later near
      refine ⟨f, mem, ?_, ?_⟩
      · simp only [List.length_cons] at low ⊢
        omega
      · simp only [List.length_cons] at high ⊢
        omega
    cases skip with
    | succ skip =>
      cases before with
      | nil => simp at past
      | cons b more => exact again rfl (by simpa using past)
    | zero =>
      rw [scan]
      split
      · rename_i a left first
        obtain ⟨whole, nonempty, parts⟩ := proper.first first
        have bound : left.length ≤ text.length := by
          have lengths := congrArg List.length parts
          have long := List.length_pos_of_ne_nil nonempty
          simp only [List.length_cons, List.length_append] at lengths
          omega
        by_cases inside : before.length < (d :: text).length - left.length
        · refine ⟨_, List.mem_cons_self, ?_, ?_⟩
          · simp [Found.start]
          · simp only [Found.stop, List.length_take]
            omega
        · cases before with
          | nil =>
            simp only [List.length_nil, List.length_cons] at inside
            omega
          | cons b more =>
            obtain ⟨f, mem, low, high⟩ := @again (text.length - left.length) _ _ rfl (by
              simp only [List.length_cons] at inside
              omega)
            exact ⟨f, List.mem_cons_of_mem _ mem, low, high⟩
      · rename_i nothing
        cases before with
        | nil =>
          obtain ⟨rfl, rfl⟩ := List.cons.inj split
          exact absurd (List.head?_eq_none_iff.mp nothing) reads
        | cons b more => exact again rfl (Nat.zero_le _)

/-! ### All matches of a text -/

theorem matchAll_in (proper : Proper reader) {text : List Char} {f : Found α} (found : f ∈ matchAll reader text) :
    f.In reader text := by
  simpa using (scan_in proper found).1

/-- Of two matches, one stops before the other starts. -/
theorem matchAll_apart (proper : Proper reader) {text : List Char} {f g : Found α} (found : f ∈ matchAll reader text)
    (other : g ∈ matchAll reader text) : f = g ∨ f.stop ≤ g.start ∨ g.stop ≤ f.start := by
  have ordered := scan_ordered proper [] text 0
  refine List.Pairwise.forall_of_forall_of_flip (R := fun f g => f = g ∨ f.stop ≤ g.start ∨ g.stop ≤ f.start)
    (fun _ _ => .inl rfl) (ordered.imp fun first => .inr (.inl first)) (ordered.imp fun first => ?_) found other
  exact .inr (.inr first)

theorem matchAll_covers (proper : Proper reader) {before rest : List Char} {c : Char} (reads : reader (c :: rest) ≠ []) :
    ∃ f ∈ matchAll reader (before ++ c :: rest), f.start ≤ before.length ∧ before.length < f.stop := by
  simpa [matchAll] using @scan_covers _ reader proper [] _ 0 before rest c rfl (Nat.zero_le _) reads

end OpenVibeHost.Matching
