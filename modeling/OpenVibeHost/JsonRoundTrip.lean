import OpenVibeHost.Json
import Mathlib.Algebra.Field.Rat
import Mathlib.Tactic.LinearCombination
import Mathlib.Tactic.Ring
import Mathlib.Tactic.FieldSimp

/-! What `JSON.stringify` writes, `JSON.parse` reads back, for values whose numbers are decimal fractions. -/
namespace OpenVibeHost.Json

/-! ### Strings -/

theorem hexDigit_digitChar : ∀ n < 16, hexDigit (Nat.digitChar n) = some n := by decide

theorem readString_escape (c : Char) (done rest : List Char) :
    readString done (escape c ++ rest) = readString (c :: done) rest := by
  unfold escape
  split_ifs with quoted slashed broken returned tabbed back form control
  · subst c; simp [readString]
  · subst c; simp [readString]
  · subst c; simp [readString]
  · subst c; simp [readString]
  · subst c; simp [readString]
  · subst c; simp [readString]
  · subst c; simp [readString]
  · have high := hexDigit_digitChar (c.toNat / 16) (by omega)
    have low := hexDigit_digitChar (c.toNat % 16) (Nat.mod_lt _ (by decide))
    have zero : hexDigit '0' = some 0 := rfl
    have code : ((0 * 16 + 0) * 256 + c.toNat / 16 * 16 + c.toNat % 16) = c.toNat := by omega
    have single : ¬(0xd800 ≤ c.toNat ∧ c.toNat < 0xdc00) := by omega
    have low_single : ¬(0xdc00 ≤ c.toNat ∧ c.toNat < 0xe000) := by omega
    have spelled : "\\u00".toList ++ [Nat.digitChar (c.toNat / 16), Nat.digitChar (c.toNat % 16)] ++ rest =
        '\\' :: 'u' :: '0' :: '0' :: Nat.digitChar (c.toNat / 16) :: Nat.digitChar (c.toNat % 16) :: rest := rfl
    rw [spelled, readString]
    simp only [high, low, zero, Option.bind_eq_bind, Option.bind_some, code, if_neg single, if_neg low_single,
      Char.ofNat_toNat]
  · rw [List.cons_append, List.nil_append, readString.eq_def]
    split <;> simp_all

theorem readString_quote (text : List Char) (done rest : List Char) :
    readString done (text.flatMap escape ++ '"' :: rest) = some (String.ofList (done.reverse ++ text), rest) := by
  induction text generalizing done with
  | nil => simp [readString]
  | cons c text ih =>
    rw [List.flatMap_cons, List.append_assoc, readString_escape, ih]
    simp

/-! ### Numbers -/

/-- What may follow a value: nothing that would go on with a number. -/
def Stops : List Char → Prop
  | [] => True
  | c :: _ => c = ',' ∨ c = ']' ∨ c = '\x7d' ∨ c = '\n'

theorem Stops.halts {rest : List Char} (stops : Stops rest) : ∀ c ∈ rest.head?, c.isDigit = false := by
  cases rest with
  | nil => exact fun c none' => nomatch none'
  | cons d rest =>
    rintro c same
    obtain rfl := Option.some.inj same
    rcases stops with rfl | rfl | rfl | rfl <;> decide

theorem readDigits_digits (digits rest : List Char) (halts : ∀ c ∈ rest.head?, c.isDigit = false) (value count : Nat)
    (all : ∀ c ∈ digits, c.isDigit = true) :
    readDigits value count (digits ++ rest) =
      (Nat.ofDigitChars 10 digits value, count + digits.length, rest) := by
  induction digits generalizing value count with
  | nil =>
    cases rest with
    | nil => simp [readDigits]
    | cons c rest =>
      have other : c.isDigit = false := halts c rfl
      simp [readDigits, other]
  | cons c digits ih =>
    obtain ⟨digit, others⟩ := List.forall_mem_cons.mp all
    rw [List.cons_append, readDigits, if_pos digit, ih _ _ others, Nat.ofDigitChars_cons, List.length_cons]
    congr 2
    omega

/-- A number of more than one digit does not begin with a zero. -/
theorem head_toDigits (n : Nat) (long : 10 ≤ n) : (Nat.toDigits 10 n).head? ≠ some '0' := by
  induction n using Nat.strong_induction_on with
  | _ n ih =>
    rw [Nat.toDigits_of_base_le (by decide) long, List.head?_append_of_ne_nil _ Nat.toDigits_ne_nil]
    by_cases one : n / 10 < 10
    · have first : ∀ d < 10, 1 ≤ d → [Nat.digitChar d].head? ≠ some '0' := by decide
      rw [Nat.toDigits_of_lt_base one]
      exact first _ one (by omega)
    · exact ih (n / 10) (by omega) (by omega)

theorem unpadded (n : Nat) (rest : List Char) :
    ¬ ((Nat.toDigits 10 n).length > 1 ∧ (Nat.toDigits 10 n ++ rest).head? = some '0') := by
  rintro ⟨long, zero⟩
  rw [List.head?_append_of_ne_nil _ Nat.toDigits_ne_nil] at zero
  by_cases small : n < 10
  · simp [Nat.toDigits_of_lt_base small] at long
  · exact head_toDigits n (by omega) zero

theorem readNumber_digits (n : Nat) (rest : List Char) (stops : Stops rest) :
    readNumber (Nat.toDigits 10 n ++ rest) = some ((n : Rat), rest) := by
  have read := readDigits_digits (Nat.toDigits 10 n) rest stops.halts 0 0
    fun c mem => Nat.isDigit_of_mem_toDigits (by decide) (by decide) mem
  rw [Nat.ofDigitChars_ten_toDigits, Nat.zero_add] at read
  have some : (Nat.toDigits 10 n).length ≠ 0 := Nat.length_toDigits_pos.ne'
  unfold readNumber
  rw [read]
  split
  · rename_i same
    simp only [Prod.mk.injEq] at same
    exact absurd same.2.1 some
  · rename_i same
    simp only [Prod.mk.injEq] at same
    obtain ⟨rfl, rfl, rfl⟩ := same
    rw [if_neg (unpadded n rest)]
    cases rest with
    | nil => rfl
    | cons c rest => rcases stops with rfl | rfl | rfl | rfl <;> rfl

/-- The digits after the point are the fraction, if it has as many. -/
theorem ofDigitChars_places {den rest fuel : Nat} (proper : rest < den) (exact' : den ∣ rest * 10 ^ fuel) (value : Nat) :
    Nat.ofDigitChars 10 (places den fuel rest) value * den =
      value * 10 ^ (places den fuel rest).length * den + rest * 10 ^ (places den fuel rest).length := by
  induction fuel generalizing rest value with
  | zero =>
    have none' : rest = 0 := Nat.eq_zero_of_dvd_of_lt (by simpa using exact') proper
    simp [places, none']
  | succ fuel ih =>
    rw [places]
    split
    · simp [*]
    have digit : 10 * rest / den < 10 := Nat.div_lt_of_lt_mul (by omega)
    have parts : 10 * rest = den * (10 * rest / den) + 10 * rest % den := (Nat.div_add_mod _ _).symm
    have onward : den ∣ 10 * rest % den * 10 ^ fuel := by
      have whole : rest * 10 ^ (fuel + 1) = den * (10 * rest / den * 10 ^ fuel) + 10 * rest % den * 10 ^ fuel := by
        calc rest * 10 ^ (fuel + 1) = 10 * rest * 10 ^ fuel := by ring
          _ = (den * (10 * rest / den) + 10 * rest % den) * 10 ^ fuel := by rw [← parts]
          _ = _ := by ring
      rw [whole] at exact'
      exact (Nat.dvd_add_right (Nat.dvd_mul_right _ _)).mp exact'
    have rec' := ih (Nat.mod_lt _ (by omega)) onward (10 * value + 10 * rest / den)
    rw [Nat.ofDigitChars_cons_digitChar_of_lt_ten digit, rec', List.length_cons]
    calc (10 * value + 10 * rest / den) * 10 ^ (places den fuel (10 * rest % den)).length * den +
          10 * rest % den * 10 ^ (places den fuel (10 * rest % den)).length
        = value * 10 ^ ((places den fuel (10 * rest % den)).length + 1) * den +
          (den * (10 * rest / den) + 10 * rest % den) * 10 ^ (places den fuel (10 * rest % den)).length := by ring
      _ = _ := by rw [← parts]; ring

theorem places_digits {den rest fuel : Nat} (proper : rest < den) : ∀ c ∈ places den fuel rest, c.isDigit = true := by
  induction fuel generalizing rest with
  | zero => exact fun c none' => nomatch none'
  | succ fuel ih =>
    rw [places]
    split
    · exact fun c none' => nomatch none'
    intro c member
    obtain rfl | later := List.mem_cons.mp member
    · have digit : 10 * rest / den < 10 := Nat.div_lt_of_lt_mul (by omega)
      exact (by decide : ∀ d < 10, (Nat.digitChar d).isDigit = true) _ digit
    · exact ih (Nat.mod_lt _ (by omega)) c later

/-- A number without its sign. -/
def magnitude (n den : Nat) : List Char :=
  if den = 1 then Nat.toDigits 10 n else Nat.toDigits 10 (n / den) ++ '.' :: places den den (n % den)

theorem toList_numberText (value : Rat) : (numberText value).toList =
    (if value.num < 0 then ['-'] else []) ++ magnitude value.num.natAbs value.den := by
  unfold numberText magnitude
  have whole (n : Nat) : (toString n).toList = Nat.toDigits 10 n := Nat.toList_repr
  by_cases one : value.den = 1
  · by_cases negative : value.num < 0 <;> simp [one, negative]
  · by_cases negative : value.num < 0 <;> simp [one, negative]

theorem readNumber_magnitude {n den : Nat} {rest : List Char} (positive : 0 < den) (lowest : n.Coprime den)
    (decimal : den ∣ 10 ^ den) (stops : Stops rest) :
    readNumber (magnitude n den ++ rest) = some ((n : Rat) / den, rest) := by
  unfold magnitude
  split
  · rename_i one
    rw [readNumber_digits n rest stops, one]
    simp
  rename_i several
  have whole := readDigits_digits (Nat.toDigits 10 (n / den)) ('.' :: (places den den (n % den) ++ rest))
    (fun c same => by obtain rfl := Option.some.inj same; decide) 0 0
    fun c member => Nat.isDigit_of_mem_toDigits (by decide) (by decide) member
  have part := readDigits_digits (places den den (n % den)) rest stops.halts 0 0 (places_digits (Nat.mod_lt _ positive))
  rw [Nat.ofDigitChars_ten_toDigits, Nat.zero_add] at whole
  rw [Nat.zero_add] at part
  have some' : (places den den (n % den)).length ≠ 0 := by
    intro none'
    have zero : n % den = 0 := by
      by_contra more
      obtain ⟨fuel, same⟩ : ∃ fuel, den = fuel + 1 := ⟨den - 1, by omega⟩
      rw [same, places, if_neg (same ▸ more)] at none'
      exact nomatch none'
    exact several (Nat.Coprime.eq_one_of_dvd (Nat.Coprime.symm lowest) (Nat.dvd_of_mod_eq_zero zero))
  have digits : (Nat.toDigits 10 (n / den)).length ≠ 0 := Nat.length_toDigits_pos.ne'
  have fraction := ofDigitChars_places (Nat.mod_lt n positive) (decimal.mul_left _) 0
  have value : ((n / den : Nat) : Rat) + (Nat.ofDigitChars 10 (places den den (n % den)) 0 : Nat) /
      10 ^ (places den den (n % den)).length = n / den := by
    have scaled : (Nat.ofDigitChars 10 (places den den (n % den)) 0 : Rat) * den =
        (n % den : Nat) * 10 ^ (places den den (n % den)).length := by
      rw [Nat.zero_mul, Nat.zero_mul, Nat.zero_add] at fraction
      exact_mod_cast fraction
    have parts : (n : Rat) = den * (n / den : Nat) + (n % den : Nat) := by
      exact_mod_cast (Nat.div_add_mod n den).symm
    have nonzero : (den : Rat) ≠ 0 := by exact_mod_cast positive.ne'
    have power : (10 : Rat) ^ (places den den (n % den)).length ≠ 0 := pow_ne_zero _ (by decide)
    rw [parts]
    field_simp
    linear_combination scaled
  rw [List.append_assoc, List.cons_append]
  unfold readNumber
  rw [whole]
  split
  · rename_i same
    simp only [Prod.mk.injEq] at same
    exact absurd same.2.1 digits
  · rename_i same
    simp only [Prod.mk.injEq] at same
    obtain ⟨rfl, rfl, rfl⟩ := same
    rw [if_neg (unpadded _ _)]
    dsimp only
    split
    · rename_i more same
      obtain rfl := (List.cons.inj same).2
      rw [part]
      split
      · rename_i same
        simp only [Prod.mk.injEq] at same
        exact absurd same.2.1 some'
      · rename_i same
        simp only [Prod.mk.injEq] at same
        obtain ⟨rfl, rfl, rfl⟩ := same
        rw [Option.bind_some, value]
        cases rest with
        | nil => rfl
        | cons c rest => rcases stops with rfl | rfl | rfl | rfl <;> rfl
    · rename_i other
      exact absurd rfl (other _)

theorem readLiteral_digits (n : Nat) : readLiteral (Nat.toDigits 10 n) = some (n : Rat) := by
  have read := readDigits_digits (Nat.toDigits 10 n) [] (fun c none' => nomatch none') 0 0
    fun c mem => Nat.isDigit_of_mem_toDigits (by decide) (by decide) mem
  rw [Nat.ofDigitChars_ten_toDigits, Nat.zero_add, List.append_nil] at read
  have some : (Nat.toDigits 10 n).length ≠ 0 := Nat.length_toDigits_pos.ne'
  simp [readLiteral, read, some]

theorem dropWhile_blank {text : List Char} (digits : ∀ c ∈ text, c.isDigit = true) :
    text.dropWhile blank = text := by
  cases text with
  | nil => rfl
  | cons c rest =>
    have digit := digits c List.mem_cons_self
    have seen : blank c = false := by
      simp only [Char.isDigit, Bool.and_eq_true, decide_eq_true_eq, UInt32.le_iff_toNat_le, ge_iff_le] at digit
      simp only [blank, Bool.or_eq_false_iff, beq_eq_false_iff_ne, Char.isWhitespace, decide_eq_false_iff_not]
      refine ⟨⟨⟨⟨⟨⟨⟨?_, ?_⟩, ?_⟩, ?_⟩, ?_⟩, ?_⟩, ?_⟩, ?_⟩ <;> (rintro rfl; revert digit; decide)
    simp [List.dropWhile, seen]

/-- `Number(String(n))` of a whole number. -/
theorem numberOfText_toString (n : Nat) : numberOfText (toString n) = some (n : Rat) := by
  have digits : ∀ c ∈ Nat.toDigits 10 n, c.isDigit = true :=
    fun c mem => Nat.isDigit_of_mem_toDigits (by decide) (by decide) mem
  have text : (toString n).toList = Nat.toDigits 10 n := Nat.toList_repr
  have trimmed : trimChars (Nat.toDigits 10 n) = Nat.toDigits 10 n := by
    rw [trimChars, dropWhile_blank digits, dropWhile_blank (by simpa using digits), List.reverse_reverse]
  have none_of (c : Char) (other : c.isDigit = false) : c ∉ Nat.toDigits 10 n := fun mem =>
    Bool.noConfusion ((digits c mem).symm.trans other)
  rw [numberOfText, text, trimmed]
  split
  · rename_i same
    exact absurd same Nat.toDigits_ne_nil
  · rename_i same
    exact absurd (by simp [same]) (none_of 'x' rfl)
  · rename_i same
    exact absurd (by simp [same]) (none_of 'X' rfl)
  · rename_i same
    exact absurd (by simp [same]) (none_of 'o' rfl)
  · rename_i same
    exact absurd (by simp [same]) (none_of 'O' rfl)
  · rename_i same
    exact absurd (by simp [same]) (none_of 'b' rfl)
  · rename_i same
    exact absurd (by simp [same]) (none_of 'B' rfl)
  · rename_i same
    exact absurd (by simp [same]) (none_of '-' rfl)
  · rename_i same
    exact absurd (by simp [same]) (none_of '+' rfl)
  · exact readLiteral_digits n

/-! ### Values -/

mutual
/-- All its numbers are decimal fractions, as those of JavaScript are. -/
def Decimal : Json → Prop
  | .num value => value.den ∣ 10 ^ value.den
  | .arr items => DecimalItems items
  | .obj fields => DecimalFields fields
  | _ => True

def DecimalItems : List Json → Prop
  | [] => True
  | item :: rest => Decimal item ∧ DecimalItems rest

def DecimalFields : List (String × Json) → Prop
  | [] => True
  | (_, value) :: rest => Decimal value ∧ DecimalFields rest
end

/-- What is written of a list of items or fields, with commas between them. -/
def joined (texts : List String) : List Char := (",".intercalate texts).toList

theorem joined_cons (text : String) (texts : List String) :
    joined (text :: texts) = text.toList ++ if texts = [] then [] else ',' :: joined texts := by
  cases texts with
  | nil => simp [joined]
  | cons next texts => simp [joined, String.intercalate_cons_cons]

theorem toList_quote (text : String) (rest : List Char) :
    (quote text).toList ++ rest = '"' :: (text.toList.flatMap escape ++ '"' :: rest) := by
  simp [quote]

/-- A value begins with no blank, and with no bracket that closes. -/
def Opens : List Char → Prop
  | [] => False
  | c :: _ => c ≠ ' ' ∧ c ≠ '\n' ∧ c ≠ '\r' ∧ c ≠ '\t' ∧ c ≠ ']' ∧ c ≠ '\x7d'

theorem opens_digit {c : Char} (digit : c.isDigit = true) (rest : List Char) : Opens (c :: rest) := by
  refine ⟨?_, ?_, ?_, ?_, ?_, ?_⟩ <;> rintro rfl <;> exact absurd digit (by decide)

theorem magnitude_digit (n den : Nat) : ∃ c rest, magnitude n den = c :: rest ∧ c.isDigit = true := by
  have first (n : Nat) (more : List Char) : ∃ c rest, Nat.toDigits 10 n ++ more = c :: rest ∧ c.isDigit = true := by
    cases digits : Nat.toDigits 10 n with
    | nil => exact absurd digits Nat.toDigits_ne_nil
    | cons c rest =>
      exact ⟨c, rest ++ more, rfl, Nat.isDigit_of_mem_toDigits (b := 10) (n := n) (by decide) (by decide) (by simp [digits])⟩
  unfold magnitude
  split
  · simpa using first n []
  · exact first _ _

theorem opens_stringify (v : Json) : Opens (stringify v).toList := by
  cases v with
  | null => simp [stringify, Opens]
  | bool value => cases value <;> simp [stringify, Opens]
  | num value =>
    rw [stringify, toList_numberText]
    split
    · simp [Opens]
    · obtain ⟨c, rest, same, digit⟩ := magnitude_digit value.num.natAbs value.den
      rw [List.nil_append, same]
      exact opens_digit digit rest
  | str text => simp [stringify, quote, Opens]
  | arr items => simp [stringify, Opens]
  | obj fields => simp [stringify, Opens]

theorem skipBlank_opens {text : List Char} (opens : Opens text) (rest : List Char) : skipBlank (text ++ rest) = text ++ rest := by
  cases text with
  | nil => exact opens.elim
  | cons c text =>
    obtain ⟨h1, h2, h3, h4, -, -⟩ := opens
    simp [skipBlank, h1, h2, h3, h4]

theorem readValue_magnitude {n den fuel : Nat} {rest : List Char} (positive : 0 < den) (lowest : n.Coprime den)
    (decimal : den ∣ 10 ^ den) (stops : Stops rest) :
    readValue (fuel + 1) (magnitude n den ++ rest) = some (.num ((n : Rat) / den), rest) := by
  have read := readNumber_magnitude positive lowest decimal stops
  obtain ⟨c, more, same, digit⟩ := magnitude_digit n den
  have kept := skipBlank_opens (opens_digit digit more) rest
  rw [List.cons_append] at kept
  rw [same, List.cons_append] at read ⊢
  rw [readValue, kept]
  split <;> rename_i same <;> first
    | (obtain ⟨rfl, -⟩ := List.cons.inj same; exact absurd digit (by decide))
    | rw [read]; rfl

theorem opens_append {text : List Char} (opens : Opens text) (more : List Char) : Opens (text ++ more) := by
  cases text with
  | nil => exact opens.elim
  | cons c text => exact opens

theorem opens_items (item : Json) (items : List Json) : Opens (joined (stringifyItems (item :: items))) := by
  rw [stringifyItems, joined_cons]
  exact opens_append (opens_stringify item) _

theorem opens_fields (name : String) (value : Json) (fields : List (String × Json)) :
    Opens (joined (stringifyFields ((name, value) :: fields))) := by
  rw [stringifyFields, joined_cons, String.toList_append, String.toList_append, List.append_assoc,
    List.append_assoc, toList_quote]
  simp [Opens]

theorem readValue_bracket (fuel : Nat) (text : List Char) :
    readValue (fuel + 1) ('[' :: text) = match skipBlank text with
      | ']' :: after => some (.arr [], after)
      | _ => (readItems fuel text).map fun (items, after) => (.arr items, after) := by
  rw [readValue]
  rfl

theorem readValue_brace (fuel : Nat) (text : List Char) :
    readValue (fuel + 1) ('\x7b' :: text) = match skipBlank text with
      | '\x7d' :: after => some (.obj [], after)
      | _ => (readFields fuel text).map fun (fields, after) => (.obj fields, after) := by
  rw [readValue]
  rfl

theorem readValue_items {text rest : List Char} (opens : Opens text) (fuel : Nat) :
    readValue (fuel + 1) ('[' :: (text ++ rest)) =
      (readItems fuel (text ++ rest)).map fun (items, after) => (.arr items, after) := by
  have kept := skipBlank_opens opens rest
  rw [readValue_bracket, kept]
  split
  · rename_i same
    cases text with
    | nil => exact opens.elim
    | cons c text => exact absurd (List.cons.inj same).1 opens.2.2.2.2.1
  · rfl

theorem readValue_fields {text rest : List Char} (opens : Opens text) (fuel : Nat) :
    readValue (fuel + 1) ('\x7b' :: (text ++ rest)) =
      (readFields fuel (text ++ rest)).map fun (fields, after) => (.obj fields, after) := by
  have kept := skipBlank_opens opens rest
  rw [readValue_brace, kept]
  split
  · rename_i same
    cases text with
    | nil => exact opens.elim
    | cons c text => exact absurd (List.cons.inj same).1 opens.2.2.2.2.2
  · rfl

theorem length_opens {text : List Char} (opens : Opens text) : 0 < text.length := by
  cases text with
  | nil => exact opens.elim
  | cons c text => simp

mutual
/-- What is written of a value is read back, whatever stands after it that cannot go on with it. -/
theorem readValue_stringify (v : Json) (decimal : Decimal v) (fuel : Nat) (rest : List Char)
    (enough : (stringify v).toList.length ≤ fuel) (stops : Stops rest) :
    readValue fuel ((stringify v).toList ++ rest) = some (v, rest) := by
  obtain ⟨fuel, rfl⟩ : ∃ n, fuel = n + 1 :=
    Nat.exists_eq_add_one.mpr (Nat.lt_of_lt_of_le (length_opens (opens_stringify v)) enough)
  cases v with
  | null => simp [stringify, readValue, skipBlank]
  | bool value => cases value <;> simp [stringify, readValue, skipBlank]
  | num value =>
    have lowest : value.num.natAbs.Coprime value.den := value.reduced
    rw [stringify, toList_numberText]
    by_cases negative : value.num < 0
    · have signed (digits : List Char) : readValue (fuel + 1) ('-' :: digits) =
          (readNumber digits).map fun (value, after) => (.num (-value), after) := by
        rw [readValue]
        rfl
      have size : (value.num.natAbs : Int) = -value.num := by omega
      have same : -((value.num.natAbs : Rat) / value.den) = value := by
        rw [← Int.cast_natCast, size, Int.cast_neg, neg_div, neg_neg, Rat.num_div_den]
      rw [if_pos negative, List.cons_append, List.cons_append, List.nil_append, signed,
        readNumber_magnitude value.den_pos lowest decimal stops]
      simp only [Option.map_some, same]
    · have size : (value.num.natAbs : Int) = value.num := by omega
      have same : (value.num.natAbs : Rat) / value.den = value := by
        rw [← Int.cast_natCast, size, Rat.num_div_den]
      rw [if_neg negative, List.nil_append, readValue_magnitude value.den_pos lowest decimal stops, same]
  | str text =>
    rw [stringify, toList_quote]
    simp [readValue, skipBlank, readString_quote]
  | arr items =>
    cases items with
    | nil => simp [stringify, stringifyItems, readValue, skipBlank]
    | cons item items =>
      have shown : (stringify (.arr (item :: items))).toList ++ rest =
          '[' :: (joined (stringifyItems (item :: items)) ++ ']' :: rest) := by
        simp [stringify, joined]
      have size : (stringify (.arr (item :: items))).toList.length =
          (joined (stringifyItems (item :: items))).length + 2 := by
        simp [stringify, joined]
      rw [shown, readValue_items (opens_items item items),
        readItems_stringify item items decimal.1 decimal.2 fuel rest (by omega)]
      rfl
  | obj fields =>
    cases fields with
    | nil => simp [stringify, stringifyFields, readValue, skipBlank]
    | cons field fields =>
      obtain ⟨name, value⟩ := field
      have shown : (stringify (.obj ((name, value) :: fields))).toList ++ rest =
          '\x7b' :: (joined (stringifyFields ((name, value) :: fields)) ++ '\x7d' :: rest) := by
        simp [stringify, joined]
      have size : (stringify (.obj ((name, value) :: fields))).toList.length =
          (joined (stringifyFields ((name, value) :: fields))).length + 2 := by
        simp [stringify, joined]
      rw [shown, readValue_fields (opens_fields name value fields),
        readFields_stringify name value fields decimal.1 decimal.2 fuel rest (by omega)]
      rfl
termination_by fuel

theorem readItems_stringify (item : Json) (items : List Json) (decimal : Decimal item) (others : DecimalItems items)
    (fuel : Nat) (rest : List Char) (enough : (joined (stringifyItems (item :: items))).length + 1 ≤ fuel) :
    readItems fuel (joined (stringifyItems (item :: items)) ++ ']' :: rest) = some (item :: items, rest) := by
  obtain ⟨fuel, rfl⟩ : ∃ n, fuel = n + 1 := ⟨fuel - 1, by omega⟩
  rw [stringifyItems, joined_cons] at enough ⊢
  rw [List.append_assoc]
  rw [List.length_append] at enough
  rw [readItems]
  cases items with
  | nil =>
    rw [stringifyItems, if_pos rfl, List.nil_append,
      readValue_stringify item decimal fuel (']' :: rest) (by omega) (by simp [Stops])]
    rfl
  | cons next items =>
    have more : stringifyItems (next :: items) ≠ [] := by simp [stringifyItems]
    rw [if_neg more] at enough ⊢
    rw [List.length_cons] at enough
    rw [List.cons_append, readValue_stringify item decimal fuel _ (by omega) (by simp [Stops])]
    have following := readItems_stringify next items others.1 others.2 fuel rest (by omega)
    simp [skipBlank, following]
termination_by fuel

theorem readFields_stringify (name : String) (value : Json) (fields : List (String × Json)) (decimal : Decimal value)
    (others : DecimalFields fields) (fuel : Nat) (rest : List Char)
    (enough : (joined (stringifyFields ((name, value) :: fields))).length + 1 ≤ fuel) :
    readFields fuel (joined (stringifyFields ((name, value) :: fields)) ++ '\x7d' :: rest) =
      some ((name, value) :: fields, rest) := by
  obtain ⟨fuel, rfl⟩ : ∃ n, fuel = n + 1 := ⟨fuel - 1, by omega⟩
  rw [stringifyFields, joined_cons] at enough ⊢
  rw [List.length_append, String.toList_append, String.toList_append, List.length_append, List.length_append]
    at enough
  rw [String.toList_append, String.toList_append, List.append_assoc, List.append_assoc, List.append_assoc,
    toList_quote, readFields]
  have named := fun after => readString_quote name.toList [] after
  cases fields with
  | nil =>
    have read := readValue_stringify value decimal fuel ('\x7d' :: rest) (by omega) (by simp [Stops])
    simp [skipBlank, named, stringifyFields, read]
  | cons field fields =>
    obtain ⟨next, following⟩ := field
    have more : stringifyFields ((next, following) :: fields) ≠ [] := by simp [stringifyFields]
    rw [if_neg more] at enough ⊢
    rw [List.length_cons] at enough
    have read := readValue_stringify value decimal fuel
      (',' :: (joined (stringifyFields ((next, following) :: fields)) ++ '\x7d' :: rest)) (by omega) (by simp [Stops])
    have later := readFields_stringify next following fields others.1 others.2 fuel rest (by omega)
    simp [skipBlank, named, read, later]
termination_by fuel
end

theorem parse_written (v : Json) (decimal : Decimal v) : parse (stringify v) = some v := by
  have read := readValue_stringify v decimal ((stringify v).toList.length + 1) [] (by omega) trivial
  rw [List.append_nil] at read
  rw [parse, read]
  rfl

/-- A record is written on a line of its own. -/
theorem parse_stringify (v : Json) (decimal : Decimal v) : parse (stringify v ++ "\n") = some v := by
  have read := readValue_stringify v decimal (((stringify v).toList ++ ['\n']).length + 1) ['\n'] (by simp; omega)
    (by simp [Stops])
  rw [parse, String.toList_append]
  simp only [show "\n".toList = ['\n'] from rfl]
  rw [read]
  rfl

/-! ### Values of decimal fractions -/

theorem decimal_fields_append {fields more : List (String × Json)} (first : DecimalFields fields)
    (second : DecimalFields more) : DecimalFields (fields ++ more) := by
  induction fields with
  | nil => exact second
  | cons field fields ih => exact ⟨first.1, ih first.2⟩

theorem decimal_item_of_mem {items : List Json} (each : ∀ item ∈ items, Decimal item) : DecimalItems items := by
  induction items with
  | nil => trivial
  | cons item items ih => exact ⟨each item List.mem_cons_self, ih fun i m => each i (List.mem_cons_of_mem _ m)⟩

theorem decimal_option {α : Type} (value : Option α) (key : String) {json : α → Json}
    (each : ∀ a, Decimal (json a)) : DecimalFields (value.map fun a => (key, json a)).toList := by
  cases value with
  | none => trivial
  | some a => exact ⟨each a, trivial⟩

theorem decimal_text (value : Option String) : Decimal (ofText value) := by
  cases value <;> trivial

end OpenVibeHost.Json
