import Mathlib.Data.String.Basic

/-! Paths as texts, with `path.join`, `path.dirname` and `path.basename` on the
paths that ovhost builds. -/
namespace OpenVibeHost

def endsWith (text ending : String) : Bool := ending.toList.isSuffixOf text.toList

def beginsWith (text start : String) : Bool := start.toList.isPrefixOf text.toList

/-- `path.basename`. -/
def baseName (path : String) : String :=
  String.ofList ((path.toList.reverse.dropWhile (· = '/')).takeWhile (· ≠ '/')).reverse

/-- `path.dirname` of a path without a trailing slash. -/
def dirName (path : String) : String :=
  match (path.toList.reverse.dropWhile (· ≠ '/')).reverse with
  | [] => "."
  | ['/'] => "/"
  | upTo => String.ofList upTo.dropLast

/-- `path.join` of two paths, of which the second has no `..`. -/
def joinPath (dir rest : String) : String :=
  if rest = "." ∨ rest = "" then dir
  else if dir = "." ∨ dir = "" then rest
  else dir ++ "/" ++ rest

/-- One more segment of a path, with `.` and `..` resolved. -/
def takeSegment (absolute : Bool) (done : List (List Char)) (part : List Char) : List (List Char) :=
  if part = [] ∨ part = ['.'] then done
  else if part = ['.', '.'] then
    if done = [] ∨ done.getLast? = some ['.', '.'] then
      if absolute then done else done ++ [part]
    else done.dropLast
  else done ++ [part]

/-- The segments of a path, with `.` and `..` resolved. -/
def normalSegments (absolute : Bool) (path : String) : List (List Char) :=
  (path.toList.splitOn '/').foldl (takeSegment absolute) []

/-- `path.normalize`. -/
def normalize (path : String) : String :=
  let absolute := beginsWith path "/"
  let trailing := endsWith path "/"
  let segments := normalSegments absolute path
  if segments = [] then if absolute then "/" else if path ≠ "" ∧ trailing then "./" else "."
  else
    (if absolute then "/" else "") ++ String.ofList (['/'].intercalate segments) ++
      (if trailing then "/" else "")

/-- `path.join` of two paths that are not empty. -/
def pathJoin (dir rest : String) : String := normalize (dir ++ "/" ++ rest)

/-- A name of one path segment. -/
structure Segment (name : String) : Prop where
  plain : '/' ∉ name.toList
  named : name ≠ "" ∧ name ≠ "."

/-- A path a name can be joined to. -/
def Joinable (dir : String) : Prop := dir ≠ "" ∧ dir ≠ "."

theorem toList_ne_nil {text : String} (named : text ≠ "") : text.toList ≠ [] := by
  simpa using named

theorem toList_joinPath {dir name : String} (joinable : Joinable dir) (segment : Segment name) :
    (joinPath dir name).toList = dir.toList ++ '/' :: name.toList := by
  have named : ¬ (name = "." ∨ name = "") := fun same => same.elim segment.named.2 segment.named.1
  have below : ¬ (dir = "." ∨ dir = "") := fun same => same.elim joinable.2 joinable.1
  rw [joinPath, if_neg named, if_neg below]
  simp

private theorem reverse_plain {name : String} (segment : Segment name) :
    ∀ c ∈ name.toList.reverse, decide (c ≠ '/') = true := by
  intro c member
  have : c ≠ '/' := fun same => segment.plain (same ▸ List.mem_reverse.mp member)
  simpa using this

/-- What joins a name to a directory takes both apart again. -/
theorem dirName_joinPath {dir name : String} (joinable : Joinable dir) (segment : Segment name) :
    dirName (joinPath dir name) = dir := by
  have reversed : (joinPath dir name).toList.reverse =
      name.toList.reverse ++ '/' :: dir.toList.reverse := by
    rw [toList_joinPath joinable segment]
    simp
  have upTo : ((joinPath dir name).toList.reverse.dropWhile (· ≠ '/')).reverse =
      dir.toList ++ ['/'] := by
    rw [reversed, List.dropWhile_append_of_pos (reverse_plain segment),
      List.dropWhile_cons_of_neg (by decide)]
    simp
  rw [dirName, upTo]
  split
  · rename_i nothing
    simp at nothing
  · rename_i root
    exact absurd (by simpa using root) joinable.1
  · simp

theorem baseName_joinPath {dir name : String} (joinable : Joinable dir) (segment : Segment name) :
    baseName (joinPath dir name) = name := by
  have reversed : (joinPath dir name).toList.reverse =
      name.toList.reverse ++ '/' :: dir.toList.reverse := by
    rw [toList_joinPath joinable segment]
    simp
  have whole : (name.toList.reverse ++ '/' :: dir.toList.reverse).dropWhile (· = '/') =
      name.toList.reverse ++ '/' :: dir.toList.reverse := by
    cases shape : name.toList.reverse with
    | nil => exact absurd (List.reverse_eq_nil_iff.mp shape) (toList_ne_nil segment.named.1)
    | cons c rest =>
      have plain := reverse_plain segment c (by simp [shape])
      rw [List.cons_append, List.dropWhile_cons_of_neg (by simpa using plain)]
  rw [baseName, reversed, whole, List.takeWhile_append_of_pos (reverse_plain segment),
    List.takeWhile_cons_of_neg (by decide)]
  simp

/-- No part of a text that is cut at a sign has the sign. -/
theorem splitOn_plain {text part : List Char} {c : Char} (member : part ∈ text.splitOn c) : c ∉ part := by
  induction text generalizing part with
  | nil =>
    obtain rfl : part = [] := by simpa using member
    exact List.not_mem_nil
  | cons first rest ih =>
    rw [List.splitOn_cons_eq_if_modifyHead] at member
    split at member
    · obtain rfl | member := List.mem_cons.mp member
      · exact List.not_mem_nil
      · exact ih member
    · rename_i other
      cases shape : rest.splitOn c with
      | nil => exact absurd shape (List.splitOn_ne_nil _ _)
      | cons head tail =>
        rw [shape, List.modifyHead_cons] at member
        obtain rfl | member := List.mem_cons.mp member
        · have plain : c ∉ head := ih (shape ▸ List.mem_cons_self)
          simp only [List.mem_cons, not_or]
          exact ⟨fun same => other (by simp [same]), plain⟩
        · exact ih (shape ▸ List.mem_cons_of_mem _ member)

end OpenVibeHost
