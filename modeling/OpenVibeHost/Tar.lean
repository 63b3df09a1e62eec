import OpenVibeHost.Json
import OpenVibeHost.Utf8
import Mathlib.Data.List.TakeWhile

/-! The archives of config snapshots, `lib/tar.js`: a ustar writer, and the reader that gives an archive's
files back. gzip is a parameter. -/
namespace OpenVibeHost.Tar
open Utf8

abbrev Bytes := List UInt8

/-! ### Writing -/

/-- `Buffer.write`, which stays inside the buffer. -/
def write (buf : Bytes) (offset : Nat) (bytes : Bytes) : Bytes :=
  (buf.take offset ++ bytes ++ buf.drop (offset + bytes.length)).take buf.length

/-- `n.toString(8).padStart(width, '0')`. -/
def octal (width n : Nat) : List Char :=
  List.replicate (width - (Nat.toDigits 8 n).length) '0' ++ Nat.toDigits 8 n

/-- The fields of a header, all but its checksum, each with its offset. -/
def headerFields (name : String) (size mtime : Nat) : List (Nat × List Char) := [
  (0, name.toList),
  (100, "0000640\x00".toList),
  (108, "0000000\x00".toList),
  (116, "0000000\x00".toList),
  (124, octal 11 size ++ ['\x00']),
  (136, octal 11 (mtime / 1000) ++ ['\x00']),
  (148, "        ".toList),
  (156, ['0']),
  (257, "ustar\x00".toList),
  (263, "00".toList)]

@[irreducible] def block : Bytes := List.replicate 512 0

def header (name : String) (size mtime : Nat) : Except String Bytes :=
  if 99 < (encode name.toList).length then .error ("tar: name too long: " ++ name)
  else
    let buf := (headerFields name size mtime).foldl (fun buf field => write buf field.1 (encode field.2)) block
    let sum := (buf.map UInt8.toNat).sum
    .ok (write buf 148 (encode (octal 6 sum ++ ['\x00', ' '])))

inductive Content where
  | text (content : String)
  | buffer (content : Bytes)

def Content.data : Content → Bytes
  | .text content => encode content.toList
  | .buffer content => content

structure File where
  name : String
  content : Content

/-- What follows the data, up to a whole block. -/
def padding (length : Nat) : Bytes := List.replicate ((512 - length % 512) % 512) 0

/-- A file's header, its data and what fills its last block. -/
def entry (mtime : Nat) (f : File) : Except String Bytes := do
  return (← header f.name f.content.data.length mtime) ++ f.content.data ++ padding f.content.data.length

def createTarGz (gzip : Bytes → Bytes) (files : List File) (mtime : Nat) : Except String Bytes := do
  return gzip ((← files.mapM (entry mtime)).flatten ++ List.replicate 1024 0)

/-! ### Reading -/

/-- Where an index points to; a negative one counts from the end. -/
def index (length : Nat) (i : Int) : Nat := if i < 0 then (length + i).toNat else min i.toNat length

/-- `buf.subarray(start, stop)`. -/
def subarray (bytes : Bytes) (start stop : Int) : Bytes :=
  (bytes.drop (index bytes.length start)).take (index bytes.length stop - index bytes.length start)

/-- The text up to the first NUL. -/
def untilNul (bytes : Bytes) : List Char := (decode bytes).takeWhile (· ≠ '\x00')

/-- `parseInt(text, 8)`, of a trimmed text; none where it is `NaN`. -/
def parseOctal (text : List Char) : Option Int :=
  let (sign, digits) : Int × List Char := match text with
    | '-' :: rest => (-1, rest)
    | '+' :: rest => (1, rest)
    | _ => (1, text)
  match digits.takeWhile fun c => decide ('0' ≤ c) && decide (c ≤ '7') with
  | [] => none
  | octals => some (sign * Nat.ofDigitChars 8 octals 0)

structure Entry where
  name : String
  content : String
  deriving DecidableEq, Repr

/-- The loop of `readTarGz` for a number of turns; none when it goes on. A size that is `NaN` gives no data
and ends it. -/
def readLoop (tar : Bytes) : Nat → Int → Option (List Entry)
  | 0, _ => none
  | turns + 1, off =>
    if off + 512 ≤ tar.length then
      let name := untilNul (subarray tar off (off + 100))
      if name = [] then some []
      else
        match parseOctal (Json.trimChars (untilNul (subarray tar (off + 124) (off + 136)))) with
        | none => some [{ name := String.ofList name, content := "" }]
        | some size =>
          let content := decode (subarray tar (off + 512) (off + 512 + size))
          (readLoop tar turns (off + 512 + -(-size / 512) * 512)).map
            ({ name := String.ofList name, content := String.ofList content } :: ·)
    else some []

def readTarGz (gunzip : Bytes → Bytes) (turns : Nat) (buf : Bytes) : Option (List Entry) :=
  readLoop (gunzip buf) turns 0

/-! ### Where a field stands -/

/-- A part of a buffer. -/
def slice (buf : Bytes) (start length : Nat) : Bytes := (buf.drop start).take length

section
variable {buf bytes : Bytes} {offset start length : Nat}

theorem length_write (inside : offset ≤ buf.length) : (write buf offset bytes).length = buf.length := by
  simp only [write, List.length_take, List.length_append, List.length_drop]
  omega

theorem slice_write_before (inside : offset ≤ buf.length) (before : start + length ≤ offset) :
    slice (write buf offset bytes) start length = slice buf start length := by
  refine List.ext_getElem? fun i => ?_
  simp only [slice, write, List.getElem?_take, List.getElem?_drop, List.append_assoc]
  split
  · rw [if_pos (by omega), List.getElem?_append_left (by simp; omega), List.getElem?_take, if_pos (by omega)]
  · rfl

theorem slice_write_after (inside : offset ≤ buf.length) (fits : start + length ≤ buf.length)
    (after : offset + bytes.length ≤ start) : slice (write buf offset bytes) start length = slice buf start length := by
  refine List.ext_getElem? fun i => ?_
  have there : (buf.take offset ++ bytes).length = offset + bytes.length := by simp; omega
  simp only [slice, write, List.getElem?_take, List.getElem?_drop]
  split
  · rw [if_pos (by omega), List.getElem?_append_right (by omega), there, List.getElem?_drop]
    congr 1
    omega
  · rfl

theorem slice_write_same (fits : offset + bytes.length ≤ buf.length) :
    slice (write buf offset bytes) offset bytes.length = bytes := by
  have there : (buf.take offset).length = offset := by simp; omega
  refine List.ext_getElem? fun i => ?_
  simp only [slice, write, List.getElem?_take, List.getElem?_drop, List.append_assoc]
  split
  · rename_i within
    rw [if_pos (by omega), List.getElem?_append_right (by omega), there, List.getElem?_append_left (by omega)]
    congr 1
    omega
  · rw [List.getElem?_eq_none (by omega)]

/-- One field after another. -/
def place (buf : Bytes) (fields : List (Nat × List Char)) : Bytes :=
  fields.foldl (fun buf field => write buf field.1 (encode field.2)) buf

theorem place_cons (buf : Bytes) (field : Nat × List Char) (fields : List (Nat × List Char)) :
    place buf (field :: fields) = place (write buf field.1 (encode field.2)) fields := rfl

theorem place_append (buf : Bytes) (fields more : List (Nat × List Char)) :
    place buf (fields ++ more) = place (place buf fields) more := List.foldl_append

theorem length_place {fields : List (Nat × List Char)} (inside : ∀ field ∈ fields, field.1 ≤ buf.length) :
    (place buf fields).length = buf.length := by
  induction fields generalizing buf with
  | nil => rfl
  | cons field fields ih =>
    have first := @length_write buf (encode field.2) field.1 (inside field List.mem_cons_self)
    have later := @ih (write buf field.1 (encode field.2)) fun other member =>
      first ▸ inside other (List.mem_cons_of_mem _ member)
    exact later.trans first

/-- A part that no field touches. -/
theorem slice_place {fields : List (Nat × List Char)} (fits : start + length ≤ buf.length)
    (inside : ∀ field ∈ fields, field.1 ≤ buf.length)
    (apart : ∀ field ∈ fields, start + length ≤ field.1 ∨ field.1 + (encode field.2).length ≤ start) :
    slice (place buf fields) start length = slice buf start length := by
  induction fields generalizing buf with
  | nil => rfl
  | cons field fields ih =>
    have here := inside field List.mem_cons_self
    have first := @length_write buf (encode field.2) field.1 here
    have later := @ih (write buf field.1 (encode field.2)) (first ▸ fits)
      (fun other member => first ▸ inside other (List.mem_cons_of_mem _ member))
      (fun other member => apart other (List.mem_cons_of_mem _ member))
    refine later.trans ?_
    rcases apart field List.mem_cons_self with before | after
    · exact slice_write_before here before
    · exact slice_write_after here fits after

end

/-! ### What a header says -/

section
variable {name : String} {size mtime : Nat} {h : Bytes}

theorem length_block : block.length = 512 := by
  unfold block
  exact List.length_replicate

theorem header_ok (short : (encode name.toList).length ≤ 99) :
    ∃ sum, header name size mtime =
      .ok (place block (headerFields name size mtime ++ [(148, octal 6 sum ++ ['\x00', ' '])])) := by
  refine ⟨((place block (headerFields name size mtime)).map UInt8.toNat).sum, ?_⟩
  rw [header, if_neg (by omega)]
  simp only [place, List.foldl_append, List.foldl_cons, List.foldl_nil]

theorem fields_inside (sum : Nat) (field : Nat × List Char)
    (member : field ∈ headerFields name size mtime ++ [(148, octal 6 sum ++ ['\x00', ' '])]) :
    field.1 ≤ block.length := by
  rw [length_block]
  simp only [headerFields, List.cons_append, List.nil_append, List.mem_cons, List.not_mem_nil, or_false] at member
  rcases member with rfl | rfl | rfl | rfl | rfl | rfl | rfl | rfl | rfl | rfl | rfl <;> dsimp only <;> omega

theorem header_written (made : header name size mtime = .ok h) : (encode name.toList).length ≤ 99 ∧
    ∃ sum, h = place block (headerFields name size mtime ++ [(148, octal 6 sum ++ ['\x00', ' '])]) := by
  have short : (encode name.toList).length ≤ 99 := by
    by_contra long
    rw [header, if_pos (by omega)] at made
    exact nomatch made
  obtain ⟨sum, written⟩ := @header_ok name size mtime short
  exact ⟨short, sum, Except.ok.inj (made.symm.trans written)⟩

theorem length_header (made : header name size mtime = .ok h) : h.length = 512 := by
  obtain ⟨-, sum, written⟩ := header_written made
  rw [written, length_place (fields_inside sum), length_block]

/-- The name, and zeros up to the next field. -/
theorem header_name (made : header name size mtime = .ok h) :
    slice h 0 100 = encode name.toList ++ List.replicate (100 - (encode name.toList).length) 0 := by
  obtain ⟨short, sum, written⟩ := header_written made
  have first : (write block 0 (encode name.toList)).length = block.length := length_write (Nat.zero_le _)
  have inside := @fields_inside name size mtime sum
  unfold headerFields at written inside
  rw [List.cons_append] at written inside
  have kept : slice h 0 100 = slice (write block 0 (encode name.toList)) 0 100 := by
    rw [written, place_cons]
    refine slice_place (by rw [first, length_block]; omega) (fun field member => ?_) fun field member => .inl ?_
    · exact first ▸ inside field (List.mem_cons_of_mem _ member)
    · simp only [List.cons_append, List.nil_append, List.mem_cons, List.not_mem_nil, or_false] at member
      rcases member with rfl | rfl | rfl | rfl | rfl | rfl | rfl | rfl | rfl | rfl <;> dsimp only <;> omega
  rw [kept, slice, write, List.take_zero, List.nil_append, Nat.zero_add, List.drop_zero, List.take_take, length_block,
    List.take_append]
  unfold block
  rw [List.take_of_length_le (by omega), List.drop_replicate, List.take_replicate]
  congr 2
  omega

theorem length_encode_plain {text : List Char} (each : ∀ c ∈ text, c.utf8Size = 1) :
    (encode text).length = text.length := by
  induction text with
  | nil => rfl
  | cons c text ih =>
    have rest := ih fun other member => each other (List.mem_cons_of_mem _ member)
    rw [encode, List.flatMap_cons, List.length_append, String.length_utf8EncodeChar, each c List.mem_cons_self,
      ← encode, rest, List.length_cons, Nat.add_comm]

theorem digit_of_mem_toDigits {n : Nat} {c : Char} (member : c ∈ Nat.toDigits 8 n) : '0' ≤ c ∧ c ≤ '7' := by
  have digit : ∀ d < 8, '0' ≤ Nat.digitChar d ∧ Nat.digitChar d ≤ '7' := by decide
  induction n using Nat.strongRecOn with
  | ind n ih =>
    rw [Nat.toDigits_eq_if (by decide)] at member
    split at member
    · rename_i small
      obtain rfl := List.mem_singleton.mp member
      exact digit n small
    · rcases List.mem_append.mp member with high | low
      · exact ih (n / 8) (by omega) high
      · obtain rfl := List.mem_singleton.mp low
        exact digit _ (Nat.mod_lt n (by decide))

theorem digit_of_mem_octal {width n : Nat} {c : Char} (member : c ∈ octal width n) : '0' ≤ c ∧ c ≤ '7' := by
  rcases List.mem_append.mp member with zero | digit
  · obtain rfl := List.eq_of_mem_replicate zero
    decide
  · exact digit_of_mem_toDigits digit

theorem length_octal {width n : Nat} (positive : 0 < width) (small : n < 8 ^ width) : (octal width n).length = width := by
  have short := (Nat.length_toDigits_le_iff (b := 8) (by decide) positive).mpr small
  rw [octal, List.length_append, List.length_replicate]
  omega

theorem size_digit {c : Char} (digit : c ≤ '7') : c.utf8Size = 1 := by
  rw [Char.utf8Size_eq_one_iff]
  exact UInt32.le_trans digit (by decide)

/-- The size, in octal digits and a NUL. -/
theorem header_size (made : header name size mtime = .ok h) (small : size < 8 ^ 11) :
    slice h 124 12 = encode (octal 11 size ++ ['\x00']) := by
  obtain ⟨-, sum, written⟩ := header_written made
  have inside := @fields_inside name size mtime sum
  have length : (encode (octal 11 size ++ ['\x00'])).length = 12 := by
    rw [length_encode_plain, List.length_append, length_octal (by decide) small]
    · rfl
    · intro c member
      rcases List.mem_append.mp member with digit | nul
      · exact size_digit (digit_of_mem_octal digit).2
      · obtain rfl := List.mem_singleton.mp nul
        rfl
  obtain ⟨front, rest, split, after⟩ : ∃ front rest,
      headerFields name size mtime ++ [(148, octal 6 sum ++ ['\x00', ' '])] =
        front ++ (124, octal 11 size ++ ['\x00']) :: rest ∧ ∀ field ∈ rest, 136 ≤ field.1 := by
    refine ⟨[(0, name.toList), (100, "0000640\x00".toList), (108, "0000000\x00".toList), (116, "0000000\x00".toList)],
      [(136, octal 11 (mtime / 1000) ++ ['\x00']), (148, "        ".toList), (156, ['0']), (257, "ustar\x00".toList),
        (263, "00".toList), (148, octal 6 sum ++ ['\x00', ' '])], rfl, fun field member => ?_⟩
    simp only [List.mem_cons, List.not_mem_nil, or_false] at member
    rcases member with rfl | rfl | rfl | rfl | rfl | rfl <;> dsimp only <;> omega
  rw [split] at written inside
  have whole : (place block front).length = 512 :=
    (length_place fun field member => inside field (List.mem_append_left _ member)).trans length_block
  have again : (write (place block front) 124 (encode (octal 11 size ++ ['\x00']))).length = 512 :=
    (length_write (by omega)).trans whole
  have same := @slice_write_same (place block front) (encode (octal 11 size ++ ['\x00'])) 124 (by omega)
  rw [length] at same
  rw [written, place_append, place_cons]
  dsimp only
  rw [slice_place (by omega) (fun field member => ?_) fun field member => .inl (after field member)]
  · exact same
  · have within := inside field (List.mem_append_right _ (List.mem_cons_of_mem _ member))
    rw [length_block] at within
    exact again ▸ within

end

/-! ### What the reader makes of it -/

theorem subarray_append {before rest : Bytes} {i j : Int} (start length : Nat) (first : i = before.length + start)
    (last : j = before.length + start + length) (fits : start + length ≤ rest.length) :
    subarray (before ++ rest) i j = slice rest start length := by
  have first' : index (before ++ rest).length i = before.length + start := by
    rw [index, if_neg (by omega), List.length_append]
    omega
  have last' : index (before ++ rest).length j = before.length + start + length := by
    rw [index, if_neg (by omega), List.length_append]
    omega
  rw [subarray, first', last', slice, ← List.drop_drop, List.drop_left]
  congr 1
  omega

theorem decode_zeros (n : Nat) : decode (List.replicate n 0) = List.replicate n '\x00' := by
  have nul : encode (List.replicate n '\x00') = List.replicate n 0 := by
    induction n with
    | zero => rfl
    | succ n ih =>
      rw [List.replicate_succ, List.replicate_succ, encode, List.flatMap_cons, ← encode, ih]
      rfl
  rw [← nul, decode_encode]

/-- A text that ends in NULs is read up to the first of them. -/
theorem untilNul_encode {text : List Char} (plain : '\x00' ∉ text) (n : Nat) :
    untilNul (encode text ++ List.replicate n 0) = text := by
  have all : ∀ c ∈ text, (decide (c ≠ '\x00')) = true := fun c member =>
    decide_eq_true fun same => plain (same ▸ member)
  rw [untilNul, decode_encode_append, decode_zeros, List.takeWhile_append_of_pos all]
  cases n with
  | zero => simp
  | succ n => simp [List.replicate_succ]

theorem parseOctal_octal {n : Nat} (small : n < 8 ^ 11) : parseOctal (octal 11 n) = some (n : Int) := by
  have digits : ∀ c ∈ octal 11 n, (decide ('0' ≤ c) && decide (c ≤ '7')) = true := fun c member => by
    simpa using digit_of_mem_octal member
  have whole := List.takeWhile_eq_self_iff.mpr digits
  have value : Nat.ofDigitChars 8 (octal 11 n) 0 = n := by
    rw [octal, Nat.ofDigitChars_append, Nat.ofDigitChars_replicate_zero, Nat.mul_zero,
      Nat.ofDigitChars_toDigits (by decide) (by decide)]
  have length : (octal 11 n).length = 11 := length_octal (by decide) small
  cases text : octal 11 n with
  | nil =>
    rw [text] at length
    exact nomatch length
  | cons c rest =>
    rw [text] at digits whole value
    have first := digits c List.mem_cons_self
    unfold parseOctal
    split
    rename_i sign chosen same
    have plain : (sign, chosen) = (1, c :: rest) := by
      rw [← same]
      split
      · rename_i dash
        rw [(List.cons.inj dash).1] at first
        exact absurd first (by decide)
      · rename_i plus
        rw [(List.cons.inj plus).1] at first
        exact absurd first (by decide)
      · rfl
    obtain ⟨rfl, rfl⟩ := Prod.mk.inj plain
    rw [whole]
    simp [value]

theorem blank_digit {c : Char} (digit : '0' ≤ c ∧ c ≤ '7') : Json.blank c = false := by
  have other (d : Char) (apart : ¬ ('0' ≤ d ∧ d ≤ '7')) : c ≠ d := fun same => apart (same ▸ digit)
  simp [Json.blank, Char.isWhitespace, other ' ' (by decide), other '\t' (by decide), other '\r' (by decide),
    other '\n' (by decide), other '\x0b' (by decide), other '\x0c' (by decide), other '\u00a0' (by decide),
    other '\ufeff' (by decide)]

theorem trim_octal (width n : Nat) : Json.trimChars (octal width n) = octal width n := by
  have keeps (text : List Char) (digits : ∀ c ∈ text, '0' ≤ c ∧ c ≤ '7') : text.dropWhile Json.blank = text := by
    cases text with
    | nil => rfl
    | cons c rest => rw [List.dropWhile_cons_of_neg (by simp [blank_digit (digits c List.mem_cons_self)])]
  rw [Json.trimChars, keeps _ fun c => digit_of_mem_octal, keeps _ fun c member =>
    digit_of_mem_octal (List.mem_reverse.mp member), List.reverse_reverse]

/-! ### The round trip -/

/-- The names and the texts that an archive takes. -/
def Named (name : String) : Prop :=
  name ≠ "" ∧ '\x00' ∉ name.toList ∧ (encode name.toList).length ≤ 99

def Fits (content : String) : Prop := (encode content.toList).length < 8 ^ 11

def textFile (e : Entry) : File := { name := e.name, content := .text e.content }

theorem slice_left {front rest : Bytes} {start length : Nat} (within : start + length ≤ front.length) :
    slice (front ++ rest) start length = slice front start length := by
  rw [slice, slice, List.drop_append_of_le_length (by omega), List.take_append_of_le_length (by simp; omega)]

theorem entry_cases {mtime : Nat} {e : Entry} {bytes : Bytes} (made : entry mtime (textFile e) = .ok bytes) :
    ∃ h, header e.name (encode e.content.toList).length mtime = .ok h ∧
      bytes = h ++ encode e.content.toList ++ padding (encode e.content.toList).length := by
  change (header e.name (encode e.content.toList).length mtime >>= fun h =>
    pure (h ++ encode e.content.toList ++ padding (encode e.content.toList).length)) = .ok bytes at made
  cases written : header e.name (encode e.content.toList).length mtime with
  | error message =>
    rw [written] at made
    exact nomatch made
  | ok h =>
    rw [written] at made
    exact ⟨h, rfl, (Except.ok.inj made).symm⟩

/-- One turn of the reader at an entry. -/
theorem readLoop_entry {mtime turns : Nat} {e : Entry} {bytes : Bytes} (made : entry mtime (textFile e) = .ok bytes)
    (named : Named e.name) (fits : Fits e.content) (before rest : Bytes) :
    readLoop (before ++ (bytes ++ rest)) (turns + 1) before.length =
      (readLoop ((before ++ bytes) ++ rest) turns (before ++ bytes).length).map (e :: ·) := by
  obtain ⟨h, written, rfl⟩ := entry_cases made
  have whole := length_header written
  have pad : (padding (encode e.content.toList).length).length = (512 - (encode e.content.toList).length % 512) % 512 :=
    List.length_replicate
  generalize data : encode e.content.toList = content at *
  have inside : (h ++ content ++ padding content.length ++ rest).length = 512 + content.length +
      (padding content.length).length + rest.length := by
    simp only [List.length_append, whole]
  have name : untilNul (subarray (before ++ (h ++ content ++ padding content.length ++ rest)) before.length
      (before.length + 100)) = e.name.toList := by
    rw [subarray_append 0 100 (by omega) (by omega) (by omega), List.append_assoc, List.append_assoc,
      slice_left (by omega), header_name written, untilNul_encode named.2.1]
  have size : parseOctal (Json.trimChars (untilNul (subarray
      (before ++ (h ++ content ++ padding content.length ++ rest)) (before.length + 124) (before.length + 136)))) =
        some (content.length : Int) := by
    have plain : '\x00' ∉ octal 11 content.length := fun member =>
      absurd (digit_of_mem_octal member).1 (by decide)
    have field : encode (octal 11 content.length ++ ['\x00']) = encode (octal 11 content.length) ++ List.replicate 1 0 := by
      rw [encode, List.flatMap_append]
      rfl
    rw [subarray_append 124 12 (by omega) (by omega) (by omega), List.append_assoc, List.append_assoc,
      slice_left (by omega), header_size written (data ▸ fits), field, untilNul_encode plain, trim_octal,
      parseOctal_octal (data ▸ fits)]
  have kept : subarray (before ++ (h ++ content ++ padding content.length ++ rest)) (before.length + 512)
      (before.length + 512 + content.length) = content := by
    rw [subarray_append 512 content.length (by omega) (by omega) (by omega), List.append_assoc, List.append_assoc,
      slice, ← whole, List.drop_left, List.take_left]
  have next : (before.length : Int) + 512 + -(-(content.length : Int) / 512) * 512 =
      (before ++ (h ++ content ++ padding content.length)).length := by
    simp only [List.length_append, whole, pad]
    omega
  have some' : e.name.toList ≠ [] := fun none' => named.1 (String.toList_eq_nil_iff.mp none')
  rw [readLoop, if_pos (by rw [List.length_append, inside]; omega)]
  dsimp only
  rw [name, if_neg some', size]
  dsimp only
  rw [kept, next, String.ofList_toList, ← data, decode_encode, String.ofList_toList, List.append_assoc before]

theorem readLoop_end (before : Bytes) (turns : Nat) :
    readLoop (before ++ List.replicate 1024 0) (turns + 1) before.length = some [] := by
  have zeros : slice (List.replicate 1024 0) 0 100 = List.replicate 100 0 := by
    rw [slice, List.drop_zero, List.take_replicate]
    rfl
  have nothing : untilNul (subarray (before ++ List.replicate 1024 0) before.length (before.length + 100)) = [] := by
    rw [subarray_append 0 100 (by omega) (by omega) (by rw [List.length_replicate]; omega), zeros]
    exact @untilNul_encode [] (fun member => nomatch member) 100
  rw [readLoop, if_pos (by rw [List.length_append, List.length_replicate]; omega)]
  dsimp only
  rw [nothing, if_pos rfl]

/-- The reader gives the entries back, from wherever they begin. -/
theorem readLoop_entries {mtime : Nat} {es : List Entry} {parts : List Bytes}
    (made : (es.map textFile).mapM (entry mtime) = .ok parts) (named : ∀ e ∈ es, Named e.name)
    (fits : ∀ e ∈ es, Fits e.content) (before : Bytes) {turns : Nat} (enough : es.length < turns) :
    readLoop (before ++ (parts.flatten ++ List.replicate 1024 0)) turns before.length = some es := by
  obtain ⟨turns, rfl⟩ : ∃ fewer, turns = fewer + 1 := ⟨turns - 1, by omega⟩
  induction es generalizing parts before turns with
  | nil =>
    have none' : [] = parts := Except.ok.inj made
    rw [← none', List.flatten_nil, List.nil_append, readLoop_end]
  | cons e es ih =>
    rw [List.map_cons, List.mapM_cons] at made
    cases first : entry mtime (textFile e) with
    | error message =>
      rw [first] at made
      exact nomatch made
    | ok bytes =>
      cases later : (es.map textFile).mapM (entry mtime) with
      | error message =>
        rw [first, later] at made
        exact nomatch made
      | ok rest =>
        rw [first, later] at made
        have all : bytes :: rest = parts := Except.ok.inj made
        obtain ⟨fewer, rfl⟩ : ∃ fewer, turns = fewer + 1 := ⟨turns - 1, by simp at enough; omega⟩
        have tail := ih later (fun other member => named other (List.mem_cons_of_mem _ member))
          (fun other member => fits other (List.mem_cons_of_mem _ member)) (before ++ bytes) fewer (by simpa using enough)
        rw [← all, List.flatten_cons, List.append_assoc, readLoop_entry first (named e List.mem_cons_self)
          (fits e List.mem_cons_self), tail]
        rfl

theorem entries_made {es : List Entry} (named : ∀ e ∈ es, Named e.name) (mtime : Nat) :
    ∃ parts, (es.map textFile).mapM (entry mtime) = .ok parts := by
  induction es with
  | nil => exact ⟨[], rfl⟩
  | cons e es ih =>
    obtain ⟨rest, later⟩ := ih fun other member => named other (List.mem_cons_of_mem _ member)
    obtain ⟨sum, written⟩ := @header_ok e.name (encode e.content.toList).length mtime (named e List.mem_cons_self).2.2
    have first : entry mtime (textFile e) = .ok _ := congrArg (· >>= fun h => pure (h ++ encode e.content.toList ++
      padding (encode e.content.toList).length)) written
    exact ⟨_, by rw [List.map_cons, List.mapM_cons, first, later]; rfl⟩

/-- What an archive was made of is what is read from it, in the same order. -/
theorem readTarGz_createTarGz {gzip gunzip : Bytes → Bytes} (undone : ∀ bytes, gunzip (gzip bytes) = bytes)
    {es : List Entry} (named : ∀ e ∈ es, Named e.name) (fits : ∀ e ∈ es, Fits e.content) (mtime : Nat) {turns : Nat}
    (enough : es.length < turns) :
    ∃ archive, createTarGz gzip (es.map textFile) mtime = .ok archive ∧ readTarGz gunzip turns archive = some es := by
  obtain ⟨parts, made⟩ := entries_made named mtime
  refine ⟨gzip (parts.flatten ++ List.replicate 1024 0), ?_, ?_⟩
  · rw [createTarGz, made]
    rfl
  · rw [readTarGz, undone]
    exact readLoop_entries made named fits [] enough

/-- Two vhosts, the second empty and named beyond ASCII, with gzip left out. -/
def snapshot : List Entry := [
  { name := "sites-available/docs.conf", content := "server { server_name docs.example; }\n" },
  { name := "notes/über.txt", content := "" }]

theorem snapshot_named : ∀ e ∈ snapshot, Named e.name := by
  intro e member
  unfold Named
  rcases List.mem_cons.mp member with rfl | member
  · exact ⟨by decide, by decide, by decide⟩
  · obtain rfl := List.mem_singleton.mp member
    exact ⟨by decide, by decide, by decide⟩

theorem snapshot_fits : ∀ e ∈ snapshot, Fits e.content := by
  intro e member
  unfold Fits
  rcases List.mem_cons.mp member with rfl | member
  · decide
  · obtain rfl := List.mem_singleton.mp member
    decide

theorem snapshot_read : ∃ archive, createTarGz id (snapshot.map textFile) 1790417700000 = .ok archive ∧
    readTarGz id 3 archive = some snapshot :=
  readTarGz_createTarGz (fun _ => rfl) snapshot_named snapshot_fits 1790417700000 (by decide)

end OpenVibeHost.Tar
