import OpenVibeHost.NodeModules

/-! Absolute paths as the texts of their segments: when one text, with a slash after it, begins
another. -/
namespace OpenVibeHost.Locations

/-- The segments of a path, each after its slash. -/
def flat (segments : List (List Char)) : List Char := segments.flatMap ('/' :: ·)

/-- A slash at the end of a path, or none. -/
def closing (slash : Bool) : List Char := if slash then ['/'] else []

/-- A path that is normalised: its segments, and a slash at its end or none. The root is its
slash. -/
structure Spells (path : String) (segments : List (List Char)) (slash : Bool) : Prop where
  text : path.toList = flat segments ++ closing slash
  resolved : ∀ part ∈ segments, Resolved part
  root : segments = [] → slash = true

section
variable {a b : List (List Char)} {s t : Bool} {p q path : String} {more : List Char}

@[simp] theorem flat_nil : flat [] = [] := rfl

@[simp] theorem flat_cons (part : List Char) (rest : List (List Char)) :
    flat (part :: rest) = '/' :: part ++ flat rest := by simp [flat]

@[simp] theorem flat_append (a b : List (List Char)) : flat (a ++ b) = flat a ++ flat b := by simp [flat]

/-- What follows a segment is nothing, or a slash. -/
theorem follows_segment (a : List (List Char)) (s : Bool) : ∀ c ∈ (flat a ++ closing s).head?, c = '/' := by
  cases a with
  | nil => cases s <;> simp [closing]
  | cons part rest => simp

/-- A segment that begins what begins with another is that other. -/
theorem segment_prefix {one other tail rest : List Char} (plain : '/' ∉ one) (plain' : '/' ∉ other)
    (opens : tail.head? = some '/') (follows : ∀ c ∈ rest.head?, c = '/') :
    one ++ tail <+: other ++ rest ↔ one = other ∧ tail <+: rest := by
  induction one generalizing other with
  | nil =>
    cases other with
    | nil => simp
    | cons c other =>
      cases tail with
      | nil => exact nomatch opens
      | cons d tail =>
        obtain rfl := Option.some.inj opens
        have differ : '/' ≠ c := fun same => plain' (same ▸ List.mem_cons_self)
        simp [List.cons_prefix_cons, differ]
  | cons c one ih =>
    cases other with
    | nil =>
      have differ : ¬ c :: (one ++ tail) <+: rest := by
        intro starts
        cases rest with
        | nil => simp at starts
        | cons d rest =>
          obtain rfl := follows d rfl
          exact plain ((List.cons_prefix_cons.mp starts).1 ▸ List.mem_cons_self)
      simp [differ]
    | cons d other =>
      have one' : '/' ∉ one := fun member => plain (List.mem_cons_of_mem _ member)
      have other' : '/' ∉ other := fun member => plain' (List.mem_cons_of_mem _ member)
      rw [List.cons_append, List.cons_append, List.cons_prefix_cons, ih one' other', List.cons.injEq, and_assoc]

/-- A path and a slash begin another path where its segments do, and more follows them. -/
theorem flat_prefix (first : ∀ part ∈ a, Resolved part) (second : ∀ part ∈ b, Resolved part) :
    flat a ++ '/' :: more <+: flat b ++ closing t ↔
      ∃ rest, b = a ++ rest ∧ '/' :: more <+: flat rest ++ closing t := by
  induction a generalizing b with
  | nil => simp
  | cons part a ih =>
    cases b with
    | nil =>
      constructor
      · intro starts
        obtain ⟨named, -⟩ := first part List.mem_cons_self
        obtain ⟨c, rest, shape⟩ := List.exists_cons_of_ne_nil named
        have short := starts.length_le
        cases t <;> simp [closing, shape] at short
      · rintro ⟨rest, wrong, -⟩
        simp at wrong
    | cons other b =>
      have known := first part List.mem_cons_self
      have known' := second other List.mem_cons_self
      have opens : (flat a ++ '/' :: more).head? = some '/' := by
        cases a <;> simp
      rw [flat_cons, flat_cons, List.cons_append, List.cons_append, List.cons_append, List.cons_append,
        List.cons_prefix_cons, List.append_assoc, List.append_assoc,
        segment_prefix known.2.1 known'.2.1 opens (follows_segment b t),
        ih (fun other member => first other (List.mem_cons_of_mem _ member))
          (fun other member => second other (List.mem_cons_of_mem _ member))]
      constructor
      · rintro ⟨-, rfl, rest, rfl, starts⟩
        exact ⟨rest, rfl, starts⟩
      · rintro ⟨rest, same, starts⟩
        obtain ⟨rfl, rfl⟩ := List.cons.inj same
        exact ⟨rfl, rfl, rest, rfl, starts⟩

/-- No path has two slashes in a row. -/
theorem no_double (known : ∀ part ∈ a, Resolved part) : ¬ ['/', '/'] <+: flat a ++ closing s := by
  cases a with
  | nil => cases s <;> simp [closing]
  | cons part rest =>
    obtain ⟨named, plain, -⟩ := known part List.mem_cons_self
    obtain ⟨c, more, rfl⟩ := List.exists_cons_of_ne_nil named
    have differ : '/' ≠ c := fun same => plain (same ▸ List.mem_cons_self)
    simp [List.cons_prefix_cons, differ]

/-- A path, with a slash after it, begins what lies at it or below, unless it ends with one. -/
theorem Spells.begins_iff (first : Spells p a s) (second : Spells q b t) :
    beginsWith q (p ++ "/") = true ↔ s = false ∧ a <+: b ∧ (a = b → t = true) := by
  rw [beginsWith, List.isPrefixOf_iff_prefix, String.toList_append, first.text, second.text, List.append_assoc,
    show "/".toList = ['/'] from rfl]
  cases s with
  | true =>
    simp only [closing, if_true, List.cons_append, List.nil_append, Bool.true_eq_false, false_and, iff_false]
    rw [← closing, flat_prefix first.resolved second.resolved]
    rintro ⟨rest, rfl, starts⟩
    exact no_double (fun part member => second.resolved part (List.mem_append_right _ member)) starts
  | false =>
    simp only [closing, Bool.false_eq_true, if_false, List.nil_append, true_and]
    rw [← closing, flat_prefix first.resolved second.resolved]
    constructor
    · rintro ⟨rest, rfl, starts⟩
      refine ⟨List.prefix_append _ _, fun same => ?_⟩
      obtain rfl : rest = [] := by simpa using same
      cases t with
      | true => rfl
      | false => simp [closing] at starts
    · rintro ⟨⟨rest, rfl⟩, slash⟩
      refine ⟨rest, rfl, ?_⟩
      cases rest with
      | nil =>
        rw [slash (by simp)]
        exact List.prefix_refl _
      | cons part rest => simp [List.cons_prefix_cons]

/-! ### The location of a path -/

/-- Where an absolute path leads: its segments, with `.` and `..` resolved. -/
def location (path : String) : List (List Char) := normalSegments true path

theorem takeSegment_resolved {done : List (List Char)} {part : List Char} (known : Resolved part) :
    takeSegment true done part = done ++ [part] := by
  unfold takeSegment
  rw [if_neg (not_or.mpr ⟨known.1, known.2.2.1⟩), if_neg known.2.2.2]

@[simp] theorem takeSegment_empty (done : List (List Char)) : takeSegment true done [] = done := if_pos (.inl rfl)

theorem splitOn_slash (rest : List Char) : ('/' :: rest).splitOn '/' = [] :: rest.splitOn '/' :=
  @List.splitOn_append_cons_self _ _ _ '/' [] rest

/-- The segments of a text after the one it begins with. -/
theorem foldl_segment {done : List (List Char)} {part rest : List Char} (known : Resolved part)
    (follows : ∀ c ∈ rest.head?, c = '/') : ((part ++ rest).splitOn '/').foldl (takeSegment true) done =
      (rest.splitOn '/').foldl (takeSegment true) (done ++ [part]) := by
  have alone : (['/'].intercalate [part]).splitOn '/' = [part] :=
    List.splitOn_intercalate '/' (by simpa using known.2.1) (by simp)
  rw [List.intercalate_singleton] at alone
  cases rest with
  | nil => simp [alone, takeSegment_resolved known]
  | cons c rest =>
    obtain rfl := follows c rfl
    rw [List.splitOn_append_cons_self, alone, splitOn_slash]
    simp [takeSegment_resolved known]

theorem foldl_flat (known : ∀ part ∈ a, Resolved part) (done : List (List Char)) :
    ((flat a ++ closing s).splitOn '/').foldl (takeSegment true) done = done ++ a := by
  induction a generalizing done with
  | nil =>
    cases s with
    | false => simp [closing]
    | true => simp [closing, splitOn_slash]
  | cons part rest ih =>
    rw [flat_cons, List.cons_append, List.cons_append, List.append_assoc, splitOn_slash, List.foldl_cons,
      takeSegment_empty, foldl_segment (known part List.mem_cons_self) (follows_segment rest s),
      ih fun other member => known other (List.mem_cons_of_mem _ member)]
    simp

/-- A normalised path leads where its segments say. -/
theorem Spells.location_eq (spelled : Spells p a s) : location p = a := by
  rw [location, normalSegments, spelled.text, foldl_flat spelled.resolved, List.nil_append]

theorem Spells.slash_eq (spelled : Spells p a s) : endsWith p "/" = s := by
  rw [endsWith, spelled.text, show "/".toList = ['/'] from rfl]
  cases s with
  | true => simp [closing]
  | false =>
    obtain rfl | ⟨init, part, rfl⟩ := a.eq_nil_or_concat'
    · cases spelled.root rfl
    obtain ⟨named, plain, -⟩ := spelled.resolved part (by simp)
    obtain ⟨front, c, rfl⟩ := part.eq_nil_or_concat'.resolve_left named
    have differ : '/' ≠ c := fun same => plain (List.mem_append_right _ (List.mem_singleton.mpr same))
    simp only [closing, Bool.false_eq_true, if_false, List.append_nil, ← Bool.not_eq_true,
      List.isSuffixOf_iff_suffix]
    rintro ⟨before, whole⟩
    have ends : flat (init ++ [front ++ [c]]) = flat init ++ '/' :: front ++ [c] := by simp
    rw [ends] at whole
    exact differ (List.singleton_inj.mp (List.append_inj' whole rfl).2)

theorem flat_eq_intercalate (some' : a ≠ []) : '/' :: ['/'].intercalate a = flat a := by
  induction a with
  | nil => exact absurd rfl some'
  | cons part rest ih =>
    cases rest with
    | nil => simp [List.intercalate_singleton]
    | cons next rest =>
      rw [List.intercalate_cons_cons, flat_cons, ← ih (by simp)]
      simp

/-- What `normalize` makes of an absolute path. -/
theorem spells_normalize {path : String} (absolute : beginsWith path "/" = true) :
    ∃ slash, Spells (normalize path) (location path) slash := by
  have resolved := @resolved_segments path
  unfold normalize location
  rw [absolute]
  dsimp only
  generalize normalSegments true path = segments at resolved
  by_cases none' : segments = []
  · subst none'
    exact ⟨true, by rw [if_pos rfl, if_pos rfl]; rfl, resolved, fun _ => rfl⟩
  · refine ⟨endsWith path "/", ?_, resolved, fun empty => absurd empty none'⟩
    have joined := flat_eq_intercalate none'
    rw [if_neg none', if_pos rfl]
    by_cases trailing : endsWith path "/" = true
    · rw [if_pos trailing, trailing]
      simp [← joined, closing]
    · rw [if_neg trailing, Bool.eq_false_of_not_eq_true trailing]
      simp [← joined, closing]

/-- Two paths, as locations: one is the other, or holds it. -/
def Overlap (a b : List (List Char)) : Prop := a <+: b ∨ b <+: a

/-- What two texts tell of the overlap of the paths: the one above is seen unless a slash ends it. -/
theorem Spells.overlap_iff (first : Spells p a s) (second : Spells q b t) :
    (p = q ∨ beginsWith q (p ++ "/") = true ∨ beginsWith p (q ++ "/") = true) ↔
      a = b ∨ (s = false ∧ a <+: b) ∨ (t = false ∧ b <+: a) := by
  rw [first.begins_iff second, second.begins_iff first]
  constructor
  · rintro (rfl | ⟨plain, above, -⟩ | ⟨plain, above, -⟩)
    · exact .inl (first.location_eq.symm.trans second.location_eq)
    · exact .inr (.inl ⟨plain, above⟩)
    · exact .inr (.inr ⟨plain, above⟩)
  · intro seen
    by_cases same : a = b
    · subst same
      cases s with
      | false =>
        cases t with
        | false => exact .inl (String.toList_injective (first.text.trans second.text.symm))
        | true => exact .inr (.inl ⟨rfl, List.prefix_refl _, fun _ => rfl⟩)
      | true =>
        cases t with
        | false => exact .inr (.inr ⟨rfl, List.prefix_refl _, fun _ => rfl⟩)
        | true => exact .inl (String.toList_injective (first.text.trans second.text.symm))
    · obtain equal | ⟨plain, above⟩ | ⟨plain, above⟩ := seen
      · exact absurd equal same
      · exact .inr (.inl ⟨plain, above, fun equal => absurd equal same⟩)
      · exact .inr (.inr ⟨plain, above, fun equal => absurd equal.symm same⟩)

end

end OpenVibeHost.Locations
