import Mathlib.Data.List.Basic
import Mathlib.Algebra.Order.Ring.Nat

/-! Listings that are read page by page. A page is a stretch of the ordered rows and
the cursor of the next stretch, which is its offset; a listing refuses cursors beyond a
last offset. Following the cursors as they are issued reads every row once, in order,
just when the rows end within the last page whose cursor is accepted. -/
namespace OpenVibeHost.Pages

variable {α γ ε : Type}

structure Page (α γ : Type) where
  rows : List α
  /-- The cursor of the next page. -/
  next : Option γ

/-- Cursors followed as they are issued, every request accepted, until none is issued:
the rows read. -/
inductive Walk (serve : Option γ → Except ε (Page α γ)) : Option γ → List α → Prop
  | ends {cursor : Option γ} {page : Page α γ} (served : serve cursor = .ok page)
      (last : page.next = none) : Walk serve cursor page.rows
  | follows {cursor : Option γ} {page : Page α γ} {next : γ} {rest : List α}
      (served : serve cursor = .ok page) (issued : page.next = some next)
      (walk : Walk serve (some next) rest) : Walk serve cursor (page.rows ++ rest)

/-- The page at an offset of the ordered rows: one row more than it holds is read, to
know whether another page follows. -/
def pageAt (cursor : Nat → γ) (size : Nat) (rows : List α) (offset : Nat) : Page α γ :=
  let read := (rows.drop offset).take (size + 1)
  { rows := read.take size, next := if size < read.length then some (cursor (offset + size)) else none }

/-- A listing that serves these pages up to a last offset. -/
structure Serves (serve : Option γ → Except ε (Page α γ)) (cursor : Nat → γ) (size last : Nat)
    (rows : List α) : Prop where
  first : serve none = .ok (pageAt cursor size rows 0)
  accepts : ∀ offset, offset ≤ last → serve (some (cursor offset)) = .ok (pageAt cursor size rows offset)
  refuses : ∀ offset, last < offset → ∃ error, serve (some (cursor offset)) = .error error

section
variable (cursor : Nat → γ) (size : Nat) (rows : List α) (offset : Nat)

theorem pageAt_rows : (pageAt cursor size rows offset).rows = (rows.drop offset).take size := by
  simp [pageAt, List.take_take]

theorem pageAt_next : (pageAt cursor size rows offset).next =
    if offset + size < rows.length then some (cursor (offset + size)) else none := by
  have more : size < ((rows.drop offset).take (size + 1)).length ↔ offset + size < rows.length := by
    simp only [List.length_take, List.length_drop]
    omega
  simp only [pageAt, more]
end

variable {serve : Option γ → Except ε (Page α γ)} {cursor : Nat → γ} {size last : Nat} {rows : List α}

/-- The offset of the last page that is served. -/
def lastPage (size last : Nat) : Nat := last / size * size

/-- From a page that is served, a walk reads the rest of the rows. -/
theorem Serves.walk_from (serves : Serves serve cursor size last rows) (positive : 0 < size)
    (within : rows.length ≤ lastPage size last + size) (request : Option γ) (k : Nat)
    (reached : k * size ≤ lastPage size last)
    (served : serve request = .ok (pageAt cursor size rows (k * size))) :
    Walk serve request (rows.drop (k * size)) := by
  induction left : last / size - k generalizing k request with
  | zero =>
    have here : k * size = lastPage size last := by
      have above : last / size ≤ k := Nat.le_of_sub_eq_zero left
      exact le_antisymm reached (Nat.mul_le_mul_right size above)
    have short : ¬ k * size + size < rows.length := by omega
    have walk := Walk.ends served (by rw [pageAt_next, if_neg short])
    rwa [pageAt_rows, List.take_of_length_le (by rw [List.length_drop]; omega)] at walk
  | succ n ih =>
    by_cases more : k * size + size < rows.length
    · have next : (k + 1) * size = k * size + size := Nat.succ_mul k size
      have below : (k + 1) * size ≤ lastPage size last := Nat.mul_le_mul_right size (by omega)
      have accepted := serves.accepts ((k + 1) * size)
        (below.trans (Nat.div_mul_le_self last size))
      have walk := Walk.follows served (by rw [pageAt_next, if_pos more, ← next])
        (ih (some (cursor ((k + 1) * size))) (k + 1) below accepted (by omega))
      rwa [pageAt_rows, next, ← List.drop_drop, List.take_append_drop] at walk
    · have walk := Walk.ends served (by rw [pageAt_next, if_neg more])
      rwa [pageAt_rows, List.take_of_length_le (by rw [List.length_drop]; omega)] at walk

/-- A walk that ends has met no cursor beyond the last page. -/
theorem Serves.within_of_walk (serves : Serves serve cursor size last rows) {request : Option γ}
    {all : List α} (walk : Walk serve request all) (k : Nat) (reached : k * size ≤ last)
    (served : serve request = .ok (pageAt cursor size rows (k * size))) (positive : 0 < size) :
    rows.length ≤ lastPage size last + size := by
  induction walk generalizing k with
  | ends there none =>
    cases there.symm.trans served
    rw [pageAt_next] at none
    have short : ¬ k * size + size < rows.length := by
      intro more
      simp [more] at none
    have before : k ≤ last / size := (Nat.le_div_iff_mul_le positive).mpr reached
    have below : k * size ≤ lastPage size last := Nat.mul_le_mul_right size before
    omega
  | @follows _ page next _ there issued walk ih =>
    cases there.symm.trans served
    rw [pageAt_next] at issued
    split at issued
    · have same : (k + 1) * size = k * size + size := Nat.succ_mul k size
      cases issued
      rw [← same] at walk ih
      by_cases accepted : (k + 1) * size ≤ last
      · exact ih (k + 1) accepted (serves.accepts _ accepted)
      · obtain ⟨error, refused⟩ := serves.refuses _ (not_le.mp accepted)
        cases walk with
        | ends there => cases there.symm.trans refused
        | follows there => cases there.symm.trans refused
    · cases issued

/-- A listing is read whole by following its cursors just when the rows end within the
last page it serves. -/
theorem Serves.walk_iff (serves : Serves serve cursor size last rows) (positive : 0 < size) :
    Walk serve none rows ↔ rows.length ≤ lastPage size last + size := by
  have first : serve none = .ok (pageAt cursor size rows (0 * size)) := by
    rw [Nat.zero_mul]
    exact serves.first
  constructor
  · exact fun walk => serves.within_of_walk walk 0 (by omega) first positive
  · intro within
    have walk := serves.walk_from positive within none 0 (by omega) first
    rwa [Nat.zero_mul, List.drop_zero] at walk

/-- Whatever a walk reads is read in order and once: it is the rows. -/
theorem Serves.walk_reads (serves : Serves serve cursor size last rows) {all : List α}
    (positive : 0 < size) (walk : Walk serve none all) : all = rows := by
  have deterministic : ∀ {request : Option γ} {first second : List α}, Walk serve request first →
      Walk serve request second → first = second := by
    intro request first second one
    induction one generalizing second with
    | ends served last =>
      intro two
      cases two with
      | ends served' => cases served.symm.trans served'; rfl
      | follows served' issued =>
        cases served.symm.trans served'
        cases last.symm.trans issued
    | follows served issued walk ih =>
      intro two
      cases two with
      | ends served' last =>
        cases served.symm.trans served'
        cases last.symm.trans issued
      | follows served' issued' walk' =>
        cases served.symm.trans served'
        cases issued.symm.trans issued'
        rw [ih walk']
  have first : serve none = .ok (pageAt cursor size rows (0 * size)) := by
    rw [Nat.zero_mul]
    exact serves.first
  exact deterministic walk ((serves.walk_iff positive).mpr
    (serves.within_of_walk walk 0 (by omega) first positive))

end OpenVibeHost.Pages
