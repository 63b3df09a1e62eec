import Mathlib.Data.Set.Basic

/-! Trees of files with links: the place that a path leads to, and the places that a recursive
removal of a path takes away. -/
namespace OpenVibeHost.FileTree

/-- One step of a path. -/
inductive Step (Name : Type) where
  | into (name : Name)
  | up

/-- What a link says: steps, from the root or from the directory that the link is in. -/
structure Target (Name : Type) where
  absolute : Bool
  steps : List (Step Name)

/-- The links of a tree, by the place each is at: the names from the root down to it. -/
abbrev Links (Name : Type) := List Name → Option (Target Name)

variable {Name : Type} {links : Links Name}

/-- From the directory `at'`, the steps lead to `place`; the links on the way are followed, the
last one too. -/
inductive Leads (links : Links Name) : List Name → List (Step Name) → List Name → Prop
  | here {at' : List Name} : Leads links at' [] at'
  | up {at' place : List Name} {rest : List (Step Name)} (onward : Leads links at'.dropLast rest place) :
      Leads links at' (.up :: rest) place
  | into {at' place : List Name} {name : Name} {rest : List (Step Name)} (plain : links (at' ++ [name]) = none)
      (onward : Leads links (at' ++ [name]) rest place) : Leads links at' (.into name :: rest) place
  | along {at' place : List Name} {name : Name} {rest : List (Step Name)} {target : Target Name}
      (link : links (at' ++ [name]) = some target)
      (onward : Leads links (if target.absolute then [] else at') (target.steps ++ rest) place) :
      Leads links at' (.into name :: rest) place

def down (names : List Name) : List (Step Name) := names.map .into

@[simp] theorem down_append (first second : List Name) : down (first ++ second) = down first ++ down second :=
  List.map_append

/-- A path of two parts leads where the second part leads from where the first does. -/
theorem Leads.split {at' place : List Name} {first second : List (Step Name)}
    (leads : Leads links at' (first ++ second) place) :
    ∃ between, Leads links at' first between ∧ Leads links between second place := by
  generalize whole : first ++ second = steps at leads
  induction leads generalizing first with
  | here =>
    obtain ⟨rfl, rfl⟩ := List.append_eq_nil_iff.mp whole
    exact ⟨_, .here, .here⟩
  | up onward ih =>
    cases first with
    | nil =>
      obtain rfl : second = _ := whole
      exact ⟨_, .here, .up onward⟩
    | cons step first =>
      obtain ⟨rfl, rest⟩ := List.cons.inj whole
      obtain ⟨between, before, after⟩ := ih rest
      exact ⟨between, .up before, after⟩
  | into plain onward ih =>
    cases first with
    | nil =>
      obtain rfl : second = _ := whole
      exact ⟨_, .here, .into plain onward⟩
    | cons step first =>
      obtain ⟨rfl, rest⟩ := List.cons.inj whole
      obtain ⟨between, before, after⟩ := ih rest
      exact ⟨between, .into plain before, after⟩
  | @along _ _ _ _ target link onward ih =>
    cases first with
    | nil =>
      obtain rfl : second = _ := whole
      exact ⟨_, .here, .along link onward⟩
    | cons step first =>
      obtain ⟨rfl, rest⟩ := List.cons.inj whole
      obtain ⟨between, before, after⟩ := @ih (target.steps ++ first) ((List.append_assoc _ _ _).trans (congrArg _ rest))
      exact ⟨between, .along link before, after⟩

/-- Where there are no links, names lead to the place that they spell. -/
theorem leads_plain {at' place : List Name} {names : List Name} :
    Leads (fun _ => none) at' (down names) place ↔ place = at' ++ names := by
  induction names generalizing at' with
  | nil =>
    rw [List.append_nil]
    exact ⟨fun leads => by cases leads; rfl, fun same => same ▸ .here⟩
  | cons name rest ih =>
    rw [List.append_cons, ← ih]
    constructor
    · intro leads
      cases leads with
      | into plain onward => exact onward
      | along link onward => exact nomatch link
    · exact .into rfl

/-- The entry that a path names, from a directory: of its last name, in the directory that the
names before it lead to. With a slash at its end, a path names what its last name leads to. -/
def Names (links : Links Name) (at' path : List Name) (slash : Bool) (place : List Name) : Prop :=
  if slash then Leads links at' (down path) place
  else ∃ upTo last dir, path = upTo ++ [last] ∧ Leads links at' (down upTo) dir ∧ place = dir ++ [last]

/-- What a recursive removal of a path takes away. The root cannot be removed. -/
def Removal (links : Links Name) (path : List Name) (slash : Bool) : Set (List Name) :=
  {file | path ≠ [] ∧ ∃ place, Names links [] path slash place ∧ place <+: file}

/-- A directory, as the entry that its path names and as the directory that it leads to, with all
that is in it. -/
def Under (links : Links Name) (path : List Name) : Set (List Name) :=
  {file | ∃ slash place, Names links [] path slash place ∧ place <+: file}

/-- The way down from a directory stays in it. -/
def StaysIn (links : Links Name) (dir path : List Name) (slash : Bool) : Prop :=
  ∀ home place, Leads links [] (down dir) home → Names links home path slash place → home <+: place

theorem names_append {at' dir path place : List Name} {slash : Bool} (some' : path ≠ [])
    (names : Names links at' (dir ++ path) slash place) :
    ∃ home, Leads links at' (down dir) home ∧ Names links home path slash place := by
  cases slash with
  | true =>
    have leads : Leads links at' (down dir ++ down path) place := down_append dir path ▸ names
    exact leads.split
  | false =>
    obtain ⟨upTo, last, inner, whole, leads, rfl⟩ := names
    obtain ⟨start, end', rfl⟩ := List.eq_nil_or_concat path |>.resolve_left some'
    rw [List.concat_eq_append, ← List.append_assoc] at whole
    obtain ⟨rfl, same⟩ := List.append_inj' whole rfl
    obtain rfl : end' = last := by simpa using same
    obtain ⟨home, before, after⟩ := Leads.split (down_append dir start ▸ leads)
    exact ⟨home, before, start, end', inner, List.concat_eq_append, after, rfl⟩

theorem names_plain {path place : List Name} {slash : Bool} (some' : slash = true ∨ path ≠ []) :
    Names (fun _ => none) [] path slash place ↔ place = path := by
  cases slash with
  | true => exact leads_plain
  | false =>
    obtain ⟨start, last, rfl⟩ := List.eq_nil_or_concat path |>.resolve_left (some'.resolve_left nofun)
    constructor
    · rintro ⟨upTo, last', dir, whole, leads, rfl⟩
      rw [leads_plain.mp leads, whole, List.nil_append]
    · rintro rfl
      exact ⟨start, last, start, List.concat_eq_append, leads_plain.mpr rfl, List.concat_eq_append⟩

/-- Whatever the links are, the removal of a path takes nothing from outside a directory, as far
as the way down from the directory stays in it, exactly where the path is the directory's or
one under it. -/
theorem removal_inside_iff {dir path : List Name} {slash : Bool} (named : path ≠ []) (some' : dir ≠ []) :
    (∀ links : Links Name, (∀ rest, path = dir ++ rest → rest ≠ [] → StaysIn links dir rest slash) →
      Removal links path slash ⊆ Under links dir) ↔ dir <+: path := by
  constructor
  · intro inside
    have there : path ∈ Removal (fun _ => none) path slash :=
      ⟨named, path, (names_plain (.inr named)).mpr rfl, List.prefix_rfl⟩
    have stays : ∀ rest, path = dir ++ rest → rest ≠ [] → StaysIn (fun _ => none) dir rest slash := by
      intro rest _ some'' home place leads names
      cases slash with
      | true => exact leads_plain.mp names ▸ List.prefix_append _ _
      | false =>
        obtain ⟨upTo, last, inner, -, inner', rfl⟩ := names
        rw [leads_plain.mp inner', List.append_assoc]
        exact List.prefix_append _ _
    obtain ⟨slash', place, names, onward⟩ := inside _ stays there
    rwa [(names_plain (.inr some')).mp names] at onward
  · rintro ⟨rest, rfl⟩ links stays file ⟨-, place, names, onward⟩
    by_cases none' : rest = []
    · subst none'
      exact ⟨slash, place, by rwa [List.append_nil] at names, onward⟩
    · obtain ⟨home, leads, within⟩ := names_append none' names
      exact ⟨true, home, leads, (stays rest rfl none' home place leads within).trans onward⟩

end OpenVibeHost.FileTree
