import Mathlib.Data.List.Infix

/-! UTF-8 read leniently: what is not UTF-8 is read as replacement characters, one for each longest
beginning of a character that does not go on. -/
namespace Utf8
open String (utf8EncodeChar)

/-- The text in UTF-8. -/
def encode (text : List Char) : List UInt8 := text.flatMap utf8EncodeChar

/-- The character that the bytes are. -/
def charOf (bytes : List UInt8) : Option Char :=
  match bytes.toByteArray.utf8DecodeChar? 0 with
  | some c => if utf8EncodeChar c = bytes then some c else none
  | none => none

/-- What the second byte of a character may be. -/
def second (a b : UInt8) : Bool :=
  decide ((if a = 0xE0 then 0xA0 else if a = 0xF0 then 0x90 else 0x80) ≤ b) &&
    decide (b ≤ (if a = 0xED then 0x9F else if a = 0xF4 then 0x8F else 0xBF))

def tail (b : UInt8) : Bool := decide (0x80 ≤ b) && decide (b ≤ 0xBF)

/-- Whether a character may begin so and go on. -/
def leads : List UInt8 → Bool
  | [a] => decide (0xC2 ≤ a) && decide (a ≤ 0xF4)
  | [a, b] => decide (0xE0 ≤ a) && decide (a ≤ 0xF4) && second a b
  | [a, b, c] => decide (0xF0 ≤ a) && decide (a ≤ 0xF4) && second a b && tail c
  | _ => false

def replacement : Char := '\uFFFD'

/-- What a byte between characters gives, and what is open after it. -/
def start (b : UInt8) : List Char × List UInt8 :=
  match charOf [b] with
  | some c => ([c], [])
  | none => if leads [b] then ([], [b]) else ([replacement], [])

/-- What a byte gives after the open bytes. -/
def step (seen : List UInt8) (b : UInt8) : List Char × List UInt8 :=
  match charOf (seen ++ [b]) with
  | some c => ([c], [])
  | none =>
    if leads (seen ++ [b]) then ([], seen ++ [b])
    else if seen = [] then ([replacement], [])
    else (replacement :: (start b).1, (start b).2)

def decodeFrom (seen : List UInt8) : List UInt8 → List Char
  | [] => if seen = [] then [] else [replacement]
  | b :: rest => (step seen b).1 ++ decodeFrom (step seen b).2 rest

/-- The text that the bytes are read as. -/
def decode (bytes : List UInt8) : List Char := decodeFrom [] bytes

/-! ### Characters and their bytes -/

theorem charOf_iff {bytes : List UInt8} {c : Char} : charOf bytes = some c ↔ utf8EncodeChar c = bytes := by
  constructor
  · intro is
    unfold charOf at is
    split at is
    · split at is
      · rename_i d _ same
        obtain rfl := Option.some.inj is
        exact same
      · exact nomatch is
    · exact nomatch is
  · rintro rfl
    have reads : (utf8EncodeChar c).toByteArray.utf8DecodeChar? 0 = some c := by
      have reads := @ByteArray.utf8DecodeChar?_utf8EncodeChar_append .empty c
      rwa [ByteArray.append_empty] at reads
    unfold charOf
    rw [reads]
    exact if_pos rfl

theorem char_ne_nil (c : Char) : utf8EncodeChar c ≠ [] := by
  have pos := c.utf8Size_pos
  intro empty
  rw [← String.length_utf8EncodeChar, empty] at pos
  exact absurd pos (by decide)

/-- No character's bytes begin another's. -/
theorem char_begins {c d : Char} (first : utf8EncodeChar d <+: utf8EncodeChar c) : d = c := by
  obtain ⟨rest, same⟩ := first
  have bytes : (utf8EncodeChar c).toByteArray = (utf8EncodeChar d).toByteArray ++ rest.toByteArray := by
    rw [← same, List.toByteArray_append]
  have reads := @ByteArray.utf8DecodeChar?_utf8EncodeChar_append .empty c
  rw [ByteArray.append_empty, bytes, ByteArray.utf8DecodeChar?_utf8EncodeChar_append] at reads
  exact Option.some.inj reads

theorem toNat_ofNat {n : Nat} (small : n < 256) : (UInt8.ofNat n).toNat = n := by
  rw [UInt8.toNat_ofNat', Nat.mod_eq_of_lt small]

theorem tail_iff {b : UInt8} : tail b = true ↔ 0x80 ≤ b.toNat ∧ b.toNat ≤ 0xBF := by
  simp only [tail, Bool.and_eq_true, decide_eq_true_eq, UInt8.le_iff_toNat_le]
  exact Iff.rfl

theorem second_iff {a b : UInt8} : second a b = true ↔
    (if a.toNat = 0xE0 then 0xA0 else if a.toNat = 0xF0 then 0x90 else 0x80) ≤ b.toNat ∧
      b.toNat ≤ (if a.toNat = 0xED then 0x9F else if a.toNat = 0xF4 then 0x8F else 0xBF) := by
  have is (n : UInt8) : a = n ↔ a.toNat = n.toNat := UInt8.toNat_inj.symm
  simp only [second, Bool.and_eq_true, decide_eq_true_eq, UInt8.le_iff_toNat_le, is]
  refine and_congr ?_ ?_
  · repeat' split
    all_goals simp_all
  · repeat' split
    all_goals simp_all

theorem lead_iff {a : UInt8} {low high : UInt8} :
    (decide (low ≤ a) && decide (a ≤ high)) = true ↔ low.toNat ≤ a.toNat ∧ a.toNat ≤ high.toNat := by
  simp only [Bool.and_eq_true, decide_eq_true_eq, UInt8.le_iff_toNat_le]

/-- How the bytes of a character look. -/
theorem char_bytes (c : Char) :
    (∃ a, utf8EncodeChar c = [a] ∧ a.toNat < 0x80) ∨
    (∃ a b, utf8EncodeChar c = [a, b] ∧ 0xC2 ≤ a.toNat ∧ a.toNat ≤ 0xDF ∧ tail b = true) ∨
    (∃ a b d, utf8EncodeChar c = [a, b, d] ∧ 0xE0 ≤ a.toNat ∧ a.toNat ≤ 0xEF ∧ second a b = true ∧ tail d = true) ∨
    ∃ a b d e, utf8EncodeChar c = [a, b, d, e] ∧ 0xF0 ≤ a.toNat ∧ a.toNat ≤ 0xF4 ∧ second a b = true ∧
      tail d = true ∧ tail e = true := by
  have valid : c.val.toNat < 0xD800 ∨ 0xDFFF < c.val.toNat ∧ c.val.toNat < 0x110000 := c.valid
  simp only [tail_iff, second_iff]
  unfold utf8EncodeChar
  dsimp only
  generalize c.val.toNat = v at valid
  split
  · exact .inl ⟨_, rfl, by rw [toNat_ofNat] <;> omega⟩
  split
  · refine .inr (.inl ⟨_, _, rfl, ?_⟩)
    rw [toNat_ofNat (by omega), toNat_ofNat (by omega)]
    omega
  split
  · refine .inr (.inr (.inl ⟨_, _, _, rfl, ?_⟩))
    rw [toNat_ofNat (by omega), toNat_ofNat (by omega), toNat_ofNat (by omega)]
    refine ⟨by omega, by omega, ⟨?_, ?_⟩, by omega⟩
    · repeat' split
      all_goals omega
    · repeat' split
      all_goals omega
  · refine .inr (.inr (.inr ⟨_, _, _, _, rfl, ?_⟩))
    rw [toNat_ofNat (by omega), toNat_ofNat (by omega), toNat_ofNat (by omega), toNat_ofNat (by omega)]
    refine ⟨by omega, by omega, ⟨?_, ?_⟩, by omega⟩
    · repeat' split
      all_goals omega
    · repeat' split
      all_goals omega

/-- A beginning of the bytes of a character leads on. -/
theorem leads_of_prefix {c : Char} {seen rest : List UInt8} (split : utf8EncodeChar c = seen ++ rest)
    (begun : seen ≠ []) (more : rest ≠ []) : leads seen = true := by
  have one {a : UInt8} (low : 0xC2 ≤ a.toNat) (high : a.toNat ≤ 0xF4) : leads [a] = true :=
    lead_iff.mpr ⟨low, high⟩
  have two {a b : UInt8} (low : 0xE0 ≤ a.toNat) (high : a.toNat ≤ 0xF4) (within : second a b = true) :
      leads [a, b] = true := by
    simp only [leads, within, Bool.and_true]
    exact lead_iff.mpr ⟨low, high⟩
  obtain ⟨a, bytes, -⟩ | ⟨a, b, bytes, low, high, -⟩ | ⟨a, b, d, bytes, low, high, within, -⟩ |
    ⟨a, b, d, e, bytes, low, high, within, third, -⟩ := char_bytes c
  all_goals
    rw [bytes] at split
    obtain ⟨rfl, -⟩ | ⟨seen, rfl, after1⟩ := List.cons_eq_append_iff.mp split
    · exact absurd rfl begun
  · exact absurd (List.append_eq_nil_iff.mp after1.symm).2 more
  · obtain ⟨rfl, -⟩ | ⟨seen, rfl, after2⟩ := List.cons_eq_append_iff.mp after1
    · exact one low (by omega)
    · exact absurd (List.append_eq_nil_iff.mp after2.symm).2 more
  · obtain ⟨rfl, -⟩ | ⟨seen, rfl, after2⟩ := List.cons_eq_append_iff.mp after1
    · exact one (by omega) (by omega)
    obtain ⟨rfl, -⟩ | ⟨seen, rfl, after3⟩ := List.cons_eq_append_iff.mp after2
    · exact two low (by omega) within
    · exact absurd (List.append_eq_nil_iff.mp after3.symm).2 more
  · obtain ⟨rfl, -⟩ | ⟨seen, rfl, after2⟩ := List.cons_eq_append_iff.mp after1
    · exact one (by omega) high
    obtain ⟨rfl, -⟩ | ⟨seen, rfl, after3⟩ := List.cons_eq_append_iff.mp after2
    · exact two (by omega) high within
    obtain ⟨rfl, -⟩ | ⟨seen, rfl, after4⟩ := List.cons_eq_append_iff.mp after3
    · simp only [leads, within, third, Bool.and_true]
      exact lead_iff.mpr ⟨low, high⟩
    · exact absurd (List.append_eq_nil_iff.mp after4.symm).2 more

/-! ### What is UTF-8 -/

theorem decodeFrom_char {c : Char} {seen rest : List UInt8} (bytes : List UInt8)
    (split : utf8EncodeChar c = seen ++ rest) (more : rest ≠ []) :
    decodeFrom seen (rest ++ bytes) = c :: decodeFrom [] bytes := by
  induction rest generalizing seen with
  | nil => exact absurd rfl more
  | cons b rest ih =>
    have onward : utf8EncodeChar c = (seen ++ [b]) ++ rest := by rw [split, List.append_assoc]; rfl
    rw [List.cons_append, decodeFrom]
    by_cases last : rest = []
    · subst last
      have is : charOf (seen ++ [b]) = some c := charOf_iff.mpr (by rw [onward, List.append_nil])
      simp only [step, is]
      rfl
    · have leads' : leads (seen ++ [b]) = true :=
        leads_of_prefix onward (List.append_ne_nil_of_right_ne_nil _ (List.cons_ne_nil b [])) last
      have open' : charOf (seen ++ [b]) = none := by
        cases is : charOf (seen ++ [b]) with
        | none => rfl
        | some d =>
          have first : utf8EncodeChar d <+: utf8EncodeChar c := by
            rw [charOf_iff.mp is, onward]
            exact List.prefix_append _ _
          obtain rfl := char_begins first
          rw [charOf_iff.mp is] at onward
          exact absurd (List.append_right_eq_self.mp onward.symm) last
      simp only [step, open', leads', if_true]
      exact ih onward last

theorem decode_char_append (c : Char) (bytes : List UInt8) :
    decode (utf8EncodeChar c ++ bytes) = c :: decode bytes :=
  decodeFrom_char bytes rfl (char_ne_nil c)

theorem decode_encode_append (text : List Char) (bytes : List UInt8) :
    decode (encode text ++ bytes) = text ++ decode bytes := by
  induction text with
  | nil => rfl
  | cons c text ih =>
    have parts : encode (c :: text) ++ bytes = utf8EncodeChar c ++ (encode text ++ bytes) := by
      simp [encode, List.flatMap_cons]
    rw [parts, decode_char_append, ih]
    rfl

theorem decode_encode (text : List Char) : decode (encode text) = text := by
  have reads := decode_encode_append text []
  rwa [List.append_nil, show decode [] = [] from rfl, List.append_nil] at reads

/-! ### What stands on its own -/

theorem tail_plain {b : UInt8} (plain : b.toNat < 0x80) : tail b = false := by
  by_contra is
  have low := (tail_iff.mp (Bool.not_eq_false _ ▸ is)).1
  omega

theorem second_plain {b : UInt8} (plain : b.toNat < 0x80) (a : UInt8) : second a b = false := by
  by_contra is
  have low := (second_iff.mp (Bool.not_eq_false _ ▸ is)).1
  split at low
  · omega
  · split at low <;> omega

/-- A plain character is read of its own byte only. -/
theorem mem_decodeFrom {c : Char} {b : UInt8} (bytes : utf8EncodeChar c = [b]) (plain : b.toNat < 0x80)
    {seen rest : List UInt8} (read : c ∈ decodeFrom seen rest) : b ∈ rest := by
  have notReplacement : c ≠ replacement := by
    rintro rfl
    have long : (utf8EncodeChar replacement).length = 1 := congrArg List.length bytes
    exact absurd long (by decide)
  have whole {seen : List UInt8} {x : UInt8} {d : Char} (is : charOf (seen ++ [x]) = some d) (same : c = d) : x = b := by
    subst same
    have ends := congrArg List.getLast? ((charOf_iff.mp is).symm.trans bytes)
    simpa using ends
  induction rest generalizing seen with
  | nil =>
    rw [decodeFrom] at read
    split at read
    · exact nomatch read
    · exact absurd (List.mem_singleton.mp read) notReplacement
  | cons x rest ih =>
    rw [decodeFrom] at read
    obtain first | later := List.mem_append.mp read
    · suffices x = b from this ▸ List.mem_cons_self
      unfold step at first
      cases is : charOf (seen ++ [x]) with
      | some d =>
        rw [is] at first
        exact whole is (List.mem_singleton.mp first)
      | none =>
        rw [is] at first
        dsimp only at first
        split at first
        · exact nomatch first
        split at first
        · exact absurd (List.mem_singleton.mp first) notReplacement
        obtain same | first := List.mem_cons.mp first
        · exact absurd same notReplacement
        unfold start at first
        cases alone : charOf [x] with
        | some d =>
          rw [alone] at first
          exact @whole [] x d alone (List.mem_singleton.mp first)
        | none =>
          rw [alone] at first
          dsimp only at first
          split at first
          · exact nomatch first
          · exact absurd (List.mem_singleton.mp first) notReplacement
    · exact List.mem_cons_of_mem _ (ih later)

/-- The byte of a plain character is written for that character only. -/
theorem mem_encode {c : Char} {b : UInt8} (bytes : utf8EncodeChar c = [b]) (plain : b.toNat < 0x80) {text : List Char}
    (written : b ∈ encode text) : c ∈ text := by
  obtain ⟨d, member, within⟩ := List.mem_flatMap.mp written
  suffices d = c from this ▸ member
  have notTail : ¬ tail b = true := Bool.eq_false_iff.mp (tail_plain plain)
  have notSecond (a : UInt8) : ¬ second a b = true := Bool.eq_false_iff.mp (second_plain plain a)
  obtain ⟨a, whole, -⟩ | ⟨a, x, whole, low, -, is1⟩ | ⟨a, x, y, whole, low, -, is1, is2⟩ |
    ⟨a, x, y, z, whole, low, -, is1, is2, is3⟩ := char_bytes d
  · rw [whole, List.mem_singleton] at within
    exact char_begins (by rw [whole, bytes, within])
  all_goals
    rw [whole] at within
    simp only [List.mem_cons, List.not_mem_nil, or_false] at within
    exfalso
  · obtain rfl | rfl := within
    · omega
    · exact notTail is1
  · obtain rfl | rfl | rfl := within
    · omega
    · exact notSecond a is1
    · exact notTail is2
  · obtain rfl | rfl | rfl | rfl := within
    · omega
    · exact notSecond a is1
    · exact notTail is2
    · exact notTail is3

/-! ### What is not -/

/-- Bytes that are read without a replacement are those of the text they are read as. -/
theorem encode_decodeFrom {bytes : List UInt8} (seen : List UInt8)
    (clean : replacement ∉ decodeFrom seen bytes) : encode (decodeFrom seen bytes) = seen ++ bytes := by
  induction bytes generalizing seen with
  | nil =>
    by_cases none' : seen = []
    · subst none'
      rfl
    · exact absurd (by simp [decodeFrom, none']) clean
  | cons b rest ih =>
    rw [decodeFrom] at clean ⊢
    have rest' : replacement ∉ decodeFrom (step seen b).2 rest := fun member =>
      clean (List.mem_append_right _ member)
    have first : replacement ∉ (step seen b).1 := fun member => clean (List.mem_append_left _ member)
    have goes := ih _ rest'
    unfold encode at goes ⊢
    rw [List.flatMap_append, goes]
    unfold step at first ⊢
    cases is : charOf (seen ++ [b]) with
    | some c =>
      have bytes := charOf_iff.mp is
      simp [bytes]
    | none =>
      rw [is] at first
      dsimp only at first ⊢
      split
      · simp
      · rename_i stops
        rw [if_neg stops] at first
        split at first <;> simp at first

theorem encode_decode {bytes : List UInt8} (clean : replacement ∉ decode bytes) : encode (decode bytes) = bytes :=
  encode_decodeFrom [] clean

/-- A byte that no character has. -/
theorem decode_stray (bytes : List UInt8) : decode (0xFF :: bytes) = replacement :: decode bytes := by
  have alone : step [] 0xFF = ([replacement], []) := by decide
  rw [decode, decodeFrom, alone]
  rfl

end Utf8
