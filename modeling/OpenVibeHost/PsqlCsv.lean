import Mathlib.Data.List.Basic
import Mathlib.Data.String.Basic

/-! The rows of `psql --csv`, as `parseCsv` of `lib/executor.js` reads them. -/
namespace OpenVibeHost.PsqlCsv

/-! ### Reading -/

/-- Where the reading stands: the rows before, the row and the field that are open, and whether it
is between quotes. -/
structure Reading where
  rows : List (List String) := []
  row : List String := []
  field : List Char := []
  quoted : Bool := false

def Reading.add (s : Reading) (c : Char) : Reading := { s with field := s.field ++ [c] }

/-- The field that is open ends. -/
def Reading.endField (s : Reading) : Reading := { s with row := s.row ++ [String.ofList s.field], field := [] }

/-- The row that is open ends. -/
def Reading.endRow (s : Reading) : Reading :=
  { s with rows := s.rows ++ [s.row ++ [String.ofList s.field]], row := [], field := [] }

/-- The loop of `parseCsv`. -/
def read : Reading → List Char → Reading
  | s, [] => s
  | s, '"' :: '"' :: rest =>
    if s.quoted then read (s.add '"') rest else read { s with quoted := true } ('"' :: rest)
  | s, c :: rest =>
    if s.quoted then
      if c = '"' then read { s with quoted := false } rest else read (s.add c) rest
    else if c = '"' then read { s with quoted := true } rest
    else if c = ',' then read s.endField rest
    else if c = '\n' then read s.endRow rest
    else if c ≠ '\r' then read (s.add c) rest
    else read s rest

/-- The rows of a text, with the last one if no newline ends it. -/
def rowsOf (text : String) : List (List String) :=
  let s := read {} text.toList
  if s.field ≠ [] ∨ s.row ≠ [] then s.endRow.rows else s.rows

/-- `parseCsv`: the first row names the values of the others. -/
def parseCsv (text : String) : List (List (String × Option String)) :=
  match rowsOf text with
  | [] => []
  | header :: rows =>
    (rows.filter fun row => row.length > 1 || row.head? ≠ some "").map fun row =>
      header.zipIdx.map fun (name, i) => (name, row[i]?)

/-! ### What `psql` prints -/

/-- A table of values without nulls, whose columns have different names. -/
structure Table where
  columns : List String
  rows : List (List String)
  some_column : columns ≠ []
  named_apart : columns.Nodup
  full : ∀ row ∈ rows, row.length = columns.length

/-- A field is put between quotes where it has a comma, a quote or an end of a line, or is the end of data. -/
def printField (value : String) : List Char :=
  if value.toList.any (fun c => c = ',' || c = '"' || c = '\n' || c = '\r') || value = "\\." then
    ['"'] ++ value.toList.flatMap (fun c => if c = '"' then ['"', '"'] else [c]) ++ ['"']
  else value.toList

def printFields : List String → List Char
  | [] => []
  | [value] => printField value
  | value :: rest => printField value ++ ',' :: printFields rest

/-- What `psql --csv` prints: the names of the columns and the rows, each on a line. -/
def print (t : Table) : String :=
  String.ofList ((t.columns :: t.rows).flatMap fun row => printFields row ++ ['\n'])

/-- The rows of a table, their values by the names of the columns. -/
def Table.records (t : Table) : List (List (String × Option String)) :=
  t.rows.map fun row => t.columns.zip (row.map some)

/-! ### What is read of what is printed -/

/-- A field stands before a comma or the end of its line. -/
def Ends (rest : List Char) : Prop := rest.head? = some ',' ∨ rest.head? = some '\n'

theorem read_doubled {s : Reading} (open' : s.quoted = true) (rest : List Char) :
    read s ('"' :: '"' :: rest) = read (s.add '"') rest := by
  rw [read, if_pos open']

/-- One character, that is not the first of two quotes. -/
theorem read_cons (s : Reading) (c : Char) (rest : List Char)
    (single : s.quoted = true → c = '"' → rest.head? ≠ some '"') :
    read s (c :: rest) =
      if s.quoted then
        if c = '"' then read { s with quoted := false } rest else read (s.add c) rest
      else if c = '"' then read { s with quoted := true } rest
      else if c = ',' then read s.endField rest
      else if c = '\n' then read s.endRow rest
      else if c ≠ '\r' then read (s.add c) rest
      else read s rest := by
  by_cases twice : c = '"' ∧ rest.head? = some '"'
  · obtain ⟨rfl, second⟩ := twice
    obtain ⟨more, rfl⟩ := List.head?_eq_some_iff.mp second
    cases inside : s.quoted with
    | true => exact absurd second (single inside rfl)
    | false => rw [read, if_neg (by simp [inside]), if_neg Bool.false_ne_true, if_pos rfl]
  · rw [read]
    rintro more rfl rfl
    exact twice ⟨rfl, rfl⟩

theorem read_outside {s : Reading} (closed : s.quoted = false) (c : Char) (rest : List Char) :
    read s (c :: rest) =
      if c = '"' then read { s with quoted := true } rest
      else if c = ',' then read s.endField rest
      else if c = '\n' then read s.endRow rest
      else if c ≠ '\r' then read (s.add c) rest
      else read s rest := by
  have outside : ¬ s.quoted = true := by simp [closed]
  rw [read_cons _ _ _ fun inside => absurd inside outside, if_neg outside]

theorem read_quoted {s : Reading} (open' : s.quoted = true) (value rest : List Char) (ends : Ends rest) :
    read s (value.flatMap (fun c => if c = '"' then ['"', '"'] else [c]) ++ '"' :: rest) =
      read { s with field := s.field ++ value, quoted := false } rest := by
  induction value generalizing s with
  | nil =>
    obtain ⟨rows, row, field, quoted⟩ := s
    obtain rfl : quoted = true := open'
    cases rest with
    | nil => simp [Ends] at ends
    | cons c rest =>
      have other : (c :: rest).head? ≠ some '"' := by
        rintro same
        obtain rfl := Option.some.inj same
        simp [Ends] at ends
      rw [List.flatMap_nil, List.nil_append, read_cons _ _ _ fun _ _ => other, if_pos rfl, if_pos rfl, List.append_nil]
  | cons c value ih =>
    have added : (s.add c).quoted = true := open'
    have same : ({ s.add c with field := (s.add c).field ++ value, quoted := false } : Reading) =
        { s with field := s.field ++ c :: value, quoted := false } := by simp [Reading.add]
    rw [← same, ← ih added, List.flatMap_cons, List.append_assoc]
    by_cases quote : c = '"'
    · subst quote
      exact read_doubled open' _
    · rw [if_neg quote, List.cons_append, List.nil_append, read_cons _ _ _ fun _ is => absurd is quote, if_pos open',
        if_neg quote]

theorem read_plain {s : Reading} (closed : s.quoted = false) {value : List Char}
    (plain : ∀ c ∈ value, c ≠ ',' ∧ c ≠ '"' ∧ c ≠ '\n' ∧ c ≠ '\r') (rest : List Char) :
    read s (value ++ rest) = read { s with field := s.field ++ value } rest := by
  induction value generalizing s with
  | nil => simp
  | cons c value ih =>
    obtain ⟨⟨comma, quote, newline, carriage⟩, others⟩ := List.forall_mem_cons.mp plain
    have same : ({ s.add c with field := (s.add c).field ++ value } : Reading) = { s with field := s.field ++ c :: value } := by
      simp [Reading.add]
    rw [List.cons_append, read_outside closed, if_neg quote, if_neg comma, if_neg newline, if_pos carriage,
      ih (s := s.add c) closed others, same]

theorem read_printField {s : Reading} (closed : s.quoted = false) (fresh : s.field = []) (value : String)
    {rest : List Char} (ends : Ends rest) :
    read s (printField value ++ rest) = read { s with field := value.toList } rest := by
  obtain ⟨rows, row, field, quoted⟩ := s
  obtain rfl : quoted = false := closed
  obtain rfl : field = [] := fresh
  unfold printField
  split
  · rw [List.append_assoc, List.append_assoc, List.cons_append, List.nil_append, read_outside rfl, if_pos rfl,
      List.cons_append, List.nil_append, read_quoted rfl value.toList rest ends]
    rfl
  · rename_i plain
    simp only [Bool.or_eq_true, List.any_eq_true, decide_eq_true_eq, not_or, not_exists, not_and] at plain
    refine read_plain rfl (fun c member => ?_) rest
    obtain ⟨⟨⟨comma, quote⟩, newline⟩, carriage⟩ := plain.1 c member
    exact ⟨comma, quote, newline, carriage⟩

/-- A line is read as its row. -/
theorem read_printFields (values : List String) (some' : values ≠ []) (rows : List (List String)) (row : List String)
    (rest : List Char) :
    read { rows, row } (printFields values ++ '\n' :: rest) = read { rows := rows ++ [row ++ values] } rest := by
  induction values generalizing row with
  | nil => exact absurd rfl some'
  | cons value values ih =>
    cases values with
    | nil =>
      rw [printFields, read_printField rfl rfl value (.inr rfl), read_outside rfl]
      simp [Reading.endRow]
    | cons next values =>
      rw [printFields.eq_3 _ _ (List.cons_ne_nil _ _), List.append_assoc, List.cons_append, read_printField rfl rfl value (.inl rfl),
        read_outside rfl]
      have onward := ih (List.cons_ne_nil _ _) (row ++ [value])
      simpa [Reading.endField] using onward

theorem read_print (lines : List (List String)) (some' : ∀ line ∈ lines, line ≠ []) (rows : List (List String)) :
    read { rows } (lines.flatMap fun row => printFields row ++ ['\n']) = { rows := rows ++ lines } := by
  induction lines generalizing rows with
  | nil => simp [read]
  | cons line lines ih =>
    obtain ⟨first, others⟩ := List.forall_mem_cons.mp some'
    rw [List.flatMap_cons, List.append_assoc, List.cons_append, List.nil_append, read_printFields line first, ih others]
    simp

theorem rowsOf_print (t : Table) : rowsOf (print t) = t.columns :: t.rows := by
  have lines : ∀ line ∈ t.columns :: t.rows, line ≠ [] := by
    refine List.forall_mem_cons.mpr ⟨t.some_column, fun row member none' => t.some_column ?_⟩
    rw [← List.length_eq_zero_iff, ← t.full row member, none', List.length_nil]
  unfold rowsOf print
  rw [String.toList_ofList, read_print _ lines]
  simp

/-- The values of a full row, by the names of the columns. -/
theorem zipIdx_eq_zip (columns row : List String) (full : row.length = columns.length) :
    (columns.zipIdx.map fun (name, i) => (name, row[i]?)) = columns.zip (row.map some) := by
  refine List.ext_getElem (by simp [full]) fun i first second => ?_
  have within : i < row.length := by simpa [full] using first
  simp [within]

/-- Rows are read as long as none is dropped as an empty line. -/
theorem parseCsv_print (t : Table) : parseCsv (print t) =
    (t.rows.filter fun row => row.length > 1 || row.head? ≠ some "").map fun row => t.columns.zip (row.map some) := by
  unfold parseCsv
  rw [rowsOf_print]
  refine List.map_congr_left fun row member => ?_
  exact zipIdx_eq_zip _ _ (t.full row (List.mem_filter.mp member).1)

/-- A table is read back as it was printed unless a row is one empty value. -/
theorem table_back_iff (t : Table) : parseCsv (print t) = t.records ↔ 1 < t.columns.length ∨ ∀ row ∈ t.rows, row ≠ [""] := by
  rw [parseCsv_print, Table.records]
  have kept (row : List String) (member : row ∈ t.rows) :
      (row.length > 1 || row.head? ≠ some "") = true ↔ 1 < t.columns.length ∨ row ≠ [""] := by
    have full := t.full row member
    by_cases several : 1 < t.columns.length
    · simp [several, full]
    have one : row.length = 1 := by
      have positive := List.length_pos_of_ne_nil t.some_column
      omega
    obtain ⟨value, rfl⟩ := List.length_eq_one_iff.mp one
    simp [several]
  constructor
  · intro same
    have lengths := congrArg List.length same
    rw [List.length_map, List.length_map, List.length_filter_eq_length_iff] at lengths
    by_cases several : 1 < t.columns.length
    · exact .inl several
    · exact .inr fun row member => ((kept row member).mp (lengths row member)).resolve_left several
  · intro none'
    rw [List.filter_eq_self.mpr fun row member => (kept row member).mpr (none'.imp_right fun each => each row member)]

/-- One column whose only value is empty. -/
def emptyNote : Table where
  columns := ["note"]
  rows := [[""]]
  some_column := List.cons_ne_nil _ _
  named_apart := by simp
  full := by simp

/-- Its row is lost. -/
theorem empty_note_lost : parseCsv (print emptyNote) = [] ∧ emptyNote.records = [[("note", some "")]] := by
  decide +kernel

end OpenVibeHost.PsqlCsv
