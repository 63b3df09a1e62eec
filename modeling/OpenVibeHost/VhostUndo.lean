import OpenVibeHost.Vhosts
import OpenVibeHost.Footprints

/-! What `nginx.install` leaves where `nginx -t` fails: each step that was put in place is taken back, the last one
first. A file comes back as the text that was read of it. -/
namespace OpenVibeHost.Nginx
open Effects Program

/-! ### Taking back -/

def Undo.path : Undo → String
  | .remove path | .write path _ | .link _ path => path

/-- What is there once the step is taken back. -/
def Undo.node : Undo → Option Node
  | .remove _ => none
  | .write _ content => some (.file (bytesOf content))
  | .link target _ => some (.link target)

def Undo.apply (d : Disk) (u : Undo) : Disk := d.set u.path u.node

/-- What is written back where something was read. -/
def reread : Option Node → Option Node
  | some (.file bytes) => some (.file (bytesOf (textOf bytes)))
  | node => node

/-- Of several steps at one path, the first is taken back last. -/
theorem foldl_reverse_apply (undo : List Undo) (d : Disk) (p : String) :
    undo.reverse.foldl Undo.apply d p = ((undo.find? fun u => u.path = p).map Undo.node).getD (d p) := by
  induction undo with
  | nil => rfl
  | cons u rest ih =>
    rw [List.reverse_cons, List.foldl_append, List.foldl_cons, List.foldl_nil, List.find?_cons]
    by_cases same : u.path = p
    · simp [same, Undo.apply]
    · have other : p ≠ u.path := fun eq => same eq.symm
      rw [Undo.apply, Disk.set_other _ _ other, ih]
      simp [same]

def Touched (undo : List Undo) (p : String) : Prop := ∃ u ∈ undo, u.path = p

theorem touched_append {undo : List Undo} {u : Undo} {p : String} : Touched (undo ++ [u]) p ↔ Touched undo p ∨ u.path = p := by
  simp [Touched, or_and_right, exists_or]

/-! ### Where the files lie -/

section
variable (inv : Inventory)

abbrev available (name : String) : String := joinPath inv.sitesAvailable name

abbrev enabled (name : String) : String := joinPath inv.sitesEnabled name

/-- sites-available is a directory of files. -/
structure Sites (d₀ : Disk) : Prop where
  available : Joinable inv.sitesAvailable
  enabled : Joinable inv.sitesEnabled
  dir : d₀ inv.sitesAvailable = some .dir
  plain : ∀ name, Segment name → NoLink d₀ (joinPath inv.sitesAvailable name)

/-- A path that never becomes a link. -/
def Solid (files : List VhostFile) (d₀ : Disk) (p : String) : Prop :=
  NoLink d₀ p ∧ ((∃ name, Segment name ∧ p = available inv name) ∨ ∀ f ∈ files, p ≠ enabled inv f.name)

/-- The files that a call rewrites or removes. -/
def Rewrites (files : List VhostFile) (remove : List String) (p : String) (bytes : List UInt8) : Prop :=
  (∃ name ∈ remove, p = available inv name ∨ p = enabled inv name) ∨
    ∃ f ∈ files, p = available inv f.name ∧ f.text ≠ some (textOf bytes)

end

theorem joinPath_left_inj {dir a b : String} (joinable : Joinable dir) (segment : Segment b)
    (same : joinPath dir a = joinPath dir b) : a = b := by
  have right := toList_joinPath joinable segment
  by_cases named : a = "." ∨ a = ""
  · rw [← same, joinPath, if_pos named] at right
    exact absurd (congrArg List.length right) (by simp)
  · rw [← same, joinPath, if_neg named, if_neg (fun below => below.elim joinable.2 joinable.1)] at right
    simpa [String.toList_inj] using right

theorem joinPath_inj {dir dir' a b : String} (joinable : Joinable dir) (joinable' : Joinable dir') (segment : Segment a)
    (segment' : Segment b) (same : joinPath dir a = joinPath dir' b) : dir = dir' ∧ a = b := by
  constructor
  · rw [← dirName_joinPath joinable segment, same, dirName_joinPath joinable' segment']
  · rw [← baseName_joinPath joinable segment, same, baseName_joinPath joinable' segment']

theorem segment_of_plainName {name : String} (plain : plainName name = true) (named : name ≠ ".") : Segment name := by
  simp only [plainName, Bool.and_eq_true, Bool.not_eq_true', List.all_eq_true] at plain
  refine ⟨fun slash => ?_, fun empty => ?_, named⟩
  · exact absurd (plain.2 '/' slash) (by decide)
  · simp [empty] at plain

/-! ### While the files are put in place -/

section
variable {inv : Inventory} {files : List VhostFile} {remove : List String} {d₀ d d' : Disk} {undo : List Undo}

/-- What is to be taken back, and how the disk stands. -/
structure Placed (inv : Inventory) (files : List VhostFile) (remove : List String) (d₀ : Disk) (undo : List Undo) (d : Disk) :
    Prop where
  first : ∀ p u, undo.find? (fun u => u.path = p) = some u → u.node = reread (d₀ p)
  untouched : ∀ p, ¬ Touched undo p → d p = d₀ p
  solid : ∀ p, Solid inv files d₀ p → NoLink d p
  dirs : ∀ p, d₀ p = some .dir → d p = some .dir
  writes : ∀ p content, .write p content ∈ undo → Solid inv files d₀ p
  links : ∀ target p, .link target p ∈ undo → d₀ p = some (.link target)
  wanted : ∀ p, Touched undo p → ∀ bytes, d₀ p = some (.file bytes) → Rewrites inv files remove p bytes

theorem placed_start : Placed inv files remove d₀ [] d₀ where
  first := by simp
  untouched _ _ := rfl
  solid _ solid := solid.1
  dirs _ := id
  writes := by simp
  links := by simp
  wanted := by simp [Touched]

/-- One more step that may be taken back. -/
theorem Placed.add (placed : Placed inv files remove d₀ undo d) {u : Undo}
    (node : ¬ Touched undo u.path → u.node = reread (d₀ u.path)) (other : ∀ p, p ≠ u.path → d' p = d p)
    (solid : Solid inv files d₀ u.path → NoLink d' u.path) (dir : d₀ u.path ≠ some .dir)
    (writes : ∀ content, u = .write u.path content → Solid inv files d₀ u.path)
    (links : ∀ target, u = .link target u.path → d₀ u.path = some (.link target))
    (wanted : ¬ Touched undo u.path → ∀ bytes, d₀ u.path = some (.file bytes) → Rewrites inv files remove u.path bytes) :
    Placed inv files remove d₀ (undo ++ [u]) d' where
  first p v found := by
    rw [List.find?_append, Option.or_eq_some_iff] at found
    rcases found with before | ⟨none, last⟩
    · exact placed.first p v before
    · obtain ⟨same, rfl⟩ : u.path = p ∧ u = v := by simpa using last
      subst same
      refine node fun ⟨w, member, equal⟩ => ?_
      exact absurd equal (by simpa using List.find?_eq_none.mp none w member)
  untouched p not := by
    rw [touched_append, not_or] at not
    rw [other p fun same => not.2 same.symm]
    exact placed.untouched p not.1
  solid p holds := by
    by_cases same : p = u.path
    · exact same ▸ solid (same ▸ holds)
    · intro target linked
      exact placed.solid p holds target (other p same ▸ linked)
  dirs p isDir := by
    rw [other p fun same => dir (same ▸ isDir)]
    exact placed.dirs p isDir
  writes p content member := by
    rcases List.mem_append.mp member with before | last
    · exact placed.writes p content before
    · obtain rfl := List.mem_singleton.mp last
      exact writes content rfl
  links target p member := by
    rcases List.mem_append.mp member with before | last
    · exact placed.links target p before
    · obtain rfl := List.mem_singleton.mp last
      exact links target rfl
  wanted p touched := by
    by_cases before : Touched undo p
    · exact placed.wanted p before
    · obtain rfl := (touched_append.mp touched).resolve_left before
      exact wanted before

theorem Placed.noLink (placed : Placed inv files remove d₀ undo d) (sites : Sites inv d₀) {name : String}
    (plain : plainName name = true) : NoLink d (available inv name) := by
  by_cases dot : name = "."
  · subst dot
    have dir := placed.dirs inv.sitesAvailable sites.dir
    intro target linked
    have same : available inv "." = inv.sitesAvailable := rfl
    rw [same, dir] at linked
    simp at linked
  · have segment := segment_of_plainName plain dot
    exact placed.solid _ ⟨sites.plain name segment, .inl ⟨name, segment, rfl⟩⟩

/-- A name whose file could be read is that of a file. -/
theorem Placed.segment (placed : Placed inv files remove d₀ undo d) (sites : Sites inv d₀) {name : String}
    (plain : plainName name = true) (file : d (available inv name) ≠ some .dir) : Segment name := by
  refine segment_of_plainName plain fun dot => file ?_
  subst dot
  exact placed.dirs inv.sitesAvailable sites.dir

theorem textAt_eq_some {p text : String} : textAt d p = some text ↔ ∃ bytes, d p = some (.file bytes) ∧ text = textOf bytes := by
  unfold textAt
  split
  · rename_i bytes here
    simp [here, eq_comm]
  · rename_i other
    exact ⟨nofun, fun ⟨bytes, here, _⟩ => (other bytes here).elim⟩

theorem linkAt_eq_some {p target : String} : linkAt d p = some target ↔ d p = some (.link target) := by
  unfold linkAt
  split
  · rename_i found here
    simp [here]
  · rename_i other
    exact ⟨nofun, fun here => (other target here).elim⟩

theorem present_of_noLink {resolves : Disk → String → Bool} {p : String} (noLink : NoLink d p) :
    present resolves d p = (d p).isSome := by
  unfold present
  split
  · rename_i here
    simp [here]
  · rename_i target here
    exact absurd here (noLink target)
  · rename_i here
    simp [here]

theorem noLink_of_linkAt {p : String} (none : linkAt d p = none) : NoLink d p := by
  intro target linked
  rw [linkAt_eq_some.mpr linked] at none
  exact nomatch none

theorem textAt_of_noLink {p : String} (noLink : NoLink d p) (file : d p ≠ some .dir) :
    (d p = none ∧ textAt d p = none) ∨ ∃ bytes, d p = some (.file bytes) ∧ textAt d p = some (textOf bytes) := by
  unfold textAt
  cases here : d p with
  | none => exact .inl ⟨rfl, rfl⟩
  | some node =>
    cases node with
    | file bytes => exact .inr ⟨bytes, rfl, rfl⟩
    | link target => exact absurd here (noLink target)
    | dir => exact absurd here file

/-! ### Removing -/

/-- A step that puts back what was at its path at first. -/
structure Fits (inv : Inventory) (files : List VhostFile) (d₀ : Disk) (u : Undo) : Prop where
  node : u.node = reread (d₀ u.path)
  dir : d₀ u.path ≠ some .dir
  writes : ∀ content, u = .write u.path content → Solid inv files d₀ u.path
  links : ∀ target, u = .link target u.path → d₀ u.path = some (.link target)

/-- While vhosts are taken out, what is not as at first is gone. -/
def Removing (inv : Inventory) (files : List VhostFile) (remove : List String) (d₀ : Disk) (undo : List Undo) (d : Disk) :
    Prop :=
  Placed inv files remove d₀ undo d ∧ ∀ p, d p = d₀ p ∨ d p = none

theorem Removing.add (removing : Removing inv files remove d₀ undo d) {u : Undo} {name : String} (fits : Fits inv files d₀ u)
    (named : name ∈ remove) (path : u.path = available inv name ∨ u.path = enabled inv name)
    (gone : d' = d ∨ d' = d.set u.path none) : Removing inv files remove d₀ (undo ++ [u]) d' := by
  obtain ⟨placed, only⟩ := removing
  have other (p : String) (differs : p ≠ u.path) : d' p = d p := by
    rcases gone with rfl | rfl
    · rfl
    · exact Disk.set_other d none differs
  have own : d' u.path = d u.path ∨ d' u.path = none := by
    rcases gone with rfl | rfl
    · exact .inl rfl
    · exact .inr (Disk.set_same d u.path none)
  refine ⟨placed.add (fun _ => fits.node) other (fun solid target linked => ?_) fits.dir fits.writes fits.links
    fun _ _ _ => .inl ⟨name, named, path⟩, fun p => ?_⟩
  · rcases own with same | none
    · exact placed.solid _ solid target (same ▸ linked)
    · exact nomatch none.symm.trans linked
  · by_cases same : p = u.path
    · subst same
      rcases own with same | none
      · exact same ▸ only u.path
      · exact .inr none
    · exact other p same ▸ only p

/-- Where there was a file, there is a step that brings it back. -/
def Covers (d₀ : Disk) (p : String) (undo : List Undo) : Prop := ∀ bytes, d₀ p = some (.file bytes) → Touched undo p

section
variable {env : Environment Machine} {resolves : Disk → String → Bool} {bin : String} {fs : Files env resolves bin}
  {base : List (Event Machine)}

theorem anyhow {P : Disk → Prop} (w : World Machine Unit) (stands : Stands fs base P w) : Stands fs base (fun _ => True) w :=
  stands.mono fun _ _ => trivial

/-- A name that is not refused. -/
theorem removable {name : String} (allowed : ¬ (¬ plainName name = true ∨ (files.any (·.name = name)) = true)) :
    plainName name = true ∧ ∀ f ∈ files, f.name ≠ name := by
  simpa [not_or, List.any_eq_true] using allowed

/-- A vhost that is taken out may be put back. -/
theorem meets_removeOne (sites : Sites inv d₀) {name : String} (named : name ∈ remove) (done : Installed) :
    Meets env (Stands fs base (Removing inv files remove d₀ done.undo)) (removeOne inv files done name)
      (fun done' => Stands fs base fun d => Removing inv files remove d₀ done'.undo d ∧
        (∀ p, Touched done.undo p → Touched done'.undo p) ∧ Covers d₀ (available inv name) done'.undo ∧
        Covers d₀ (enabled inv name) done'.undo)
      (fun _ => Stands fs base fun _ => True) := by
  unfold removeOne
  split
  · exact meets_throw anyhow
  · rename_i allowed
    obtain ⟨plain, others⟩ := removable allowed
    refine meets_bind ((meets_readFile fun d removing => removing.1.noLink sites plain).weaken (fun _ => id) (fun _ _ => id)
      fun _ => anyhow) fun prevText => ?_
    refine meets_given (F := Segment name ∧
      (∀ text, prevText = some text → ∃ bytes, d₀ (available inv name) = some (.file bytes) ∧ text = textOf bytes) ∧
      (prevText = none → Covers d₀ (available inv name) done.undo)) ?_ ?_
    · rintro w ⟨more, -, -, ⟨placed, only⟩, file, rfl⟩
      refine ⟨placed.segment sites plain file, fun text read => ?_, fun nothing bytes first => ?_⟩
      · obtain ⟨bytes, here, same⟩ := textAt_eq_some.mp read
        rcases only (available inv name) with unchanged | gone
        · exact ⟨bytes, unchanged ▸ here, same⟩
        · exact nomatch gone.symm.trans here
      · by_contra untouched
        have read := textAt_eq_some.mpr ⟨bytes, (placed.untouched _ untouched).trans first, rfl⟩
        exact nomatch nothing.symm.trans read
    rintro ⟨segment, prevSome, prevNone⟩
    refine meets_bind ((meets_readlink (P := Removing inv files remove d₀ done.undo)).weaken
      (fun w stands => stands.mono fun d now => now.1) (fun _ _ => id) fun _ _ => id) fun target => ?_
    refine meets_given (F := ∀ destination, target = some destination → d₀ (enabled inv name) = some (.link destination)) ?_ ?_
    · rintro w ⟨more, -, -, ⟨placed, only⟩, rfl⟩ destination found
      have linked := linkAt_eq_some.mp found
      rcases only (enabled inv name) with unchanged | gone
      · exact unchanged ▸ linked
      · exact nomatch gone.symm.trans linked
    intro linked
    refine meets_bind (M := fun there => Stands fs base fun d => Removing inv files remove d₀ done.undo d ∧
      (target = none → NoLink d (enabled inv name) ∧ there = (d (enabled inv name)).isSome) ∧
      (target ≠ none → there = true)) ?_ fun there => ?_
    · cases target with
      | some destination => exact meets_ret fun w stands => stands.mono fun d now => ⟨now.1, nofun, fun _ => rfl⟩
      | none =>
        refine meets_bind meets_stat fun found => meets_ret fun w stands => stands.mono ?_
        rintro d ⟨⟨removing, none⟩, found⟩
        refine ⟨removing, fun _ => ⟨noLink_of_linkAt none.symm, ?_⟩, fun some => absurd rfl some⟩
        rw [found, present_of_noLink (noLink_of_linkAt none.symm)]
    refine meets_bind (M := fun unlinked => Stands fs base fun d => Removing inv files remove d₀ unlinked d ∧
      (∀ p, Touched done.undo p → Touched unlinked p) ∧ Covers d₀ (enabled inv name) unlinked) ?_ fun unlinked => ?_
    · split
      · rename_i there
        refine meets_bind (M := fun undo => Stands fs base fun d => Removing inv files remove d₀ done.undo d ∧
          undo.path = enabled inv name ∧ Fits inv files d₀ undo) ?_ fun undo => ?_
        · cases target with
          | some destination =>
            have first := linked destination rfl
            refine meets_ret fun w stands => stands.mono fun d now => ⟨now.1, rfl, ?_⟩
            exact ⟨by rw [Undo.path, first]; rfl, by rw [Undo.path, first]; simp, nofun, fun _ same => by cases same; exact first⟩
          | none =>
            refine meets_bind ((meets_readFile fun d now => (now.2.1 rfl).1).weaken (fun _ => id) (fun _ _ => id)
              fun _ => anyhow) fun copy => meets_ret fun w stands => stands.mono ?_
            rintro d ⟨⟨⟨placed, only⟩, plainFile, -⟩, file, rfl⟩
            obtain ⟨noLink, found⟩ := plainFile rfl
            rcases textAt_of_noLink noLink file with ⟨nothing, -⟩ | ⟨bytes, here, read⟩
            · rw [nothing] at found
              exact absurd (there.symm.trans found) (by decide)
            · have first : d₀ (enabled inv name) = some (.file bytes) := by
                rcases only (enabled inv name) with unchanged | gone
                · exact unchanged ▸ here
                · exact nomatch gone.symm.trans here
              rw [read]
              refine ⟨⟨placed, only⟩, rfl, by rw [Undo.path, first]; rfl, by rw [Undo.path, first]; simp, fun _ _ => ?_, nofun⟩
              refine ⟨fun target linked => (nomatch first.symm.trans linked), .inr fun f member same => ?_⟩
              exact others f member (joinPath_left_inj sites.enabled segment same.symm)
        · refine meets_bind (meets_removeFile.weaken (fun _ => id) (fun _ _ => id) fun _ => anyhow) fun _ =>
            meets_pure fun w stands => stands.mono ?_
          rintro d ⟨d₁, ⟨removing, path, fits⟩, gone⟩
          refine ⟨removing.add fits named (.inr path) (path ▸ gone), fun p before => touched_append.mpr (.inl before),
            fun _ _ => touched_append.mpr (.inr path)⟩
      · rename_i absent
        refine meets_pure fun w stands => stands.mono ?_
        rintro d ⟨removing, plainFile, isThere⟩
        refine ⟨removing, fun _ => id, fun bytes first => ?_⟩
        by_contra untouched
        have here := (removing.1.untouched _ untouched).trans first
        cases target with
        | some destination => exact absent (isThere (by simp))
        | none => exact absent (by rw [(plainFile rfl).2, here]; rfl)
    · refine meets_bind (M := fun undo => Stands fs base fun d => Removing inv files remove d₀ undo d ∧
        (∀ p, Touched done.undo p → Touched undo p) ∧ Covers d₀ (available inv name) undo ∧
        Covers d₀ (enabled inv name) undo) ?_ fun undo => meets_pure fun _ => id
      cases prevText with
      | some text =>
        obtain ⟨bytes, first, rfl⟩ := prevSome text rfl
        refine meets_bind (meets_removeFile.weaken (fun _ => id) (fun _ _ => id) fun _ => anyhow) fun _ =>
          meets_pure fun w stands => stands.mono ?_
        rintro d ⟨d₁, ⟨removing, grows, covers⟩, gone⟩
        have fits : Fits inv files d₀ (.write (available inv name) (textOf bytes)) := by
          refine ⟨by rw [Undo.path, first]; rfl, by rw [Undo.path, first]; simp, fun _ _ => ?_, nofun⟩
          exact ⟨sites.plain name segment, .inl ⟨name, segment, rfl⟩⟩
        exact ⟨removing.add fits named (.inl rfl) gone, fun p before => touched_append.mpr (.inl (grows p before)),
          fun _ _ => touched_append.mpr (.inr rfl), fun b there => touched_append.mpr (.inl (covers b there))⟩
      | none =>
        refine meets_pure fun w stands => stands.mono ?_
        rintro d ⟨removing, grows, covers⟩
        exact ⟨removing, grows, fun bytes first => grows _ (prevNone rfl bytes first), covers⟩

/-- Where a file was changed, there is a step that brings it back. -/
def Rewritten (inv : Inventory) (d₀ : Disk) (f : VhostFile) (undo : List Undo) : Prop :=
  ∀ bytes, d₀ (available inv f.name) = some (.file bytes) → f.text ≠ some (textOf bytes) → Touched undo (available inv f.name)

/-- The step that is noted for a file that is written brings back what was there. -/
theorem undo_node {p : String} {prev : Option String} (noLink : NoLink d₀ p) (dir : d₀ p ≠ some .dir)
    (first : prev = textAt d₀ p) :
    (match prev with
      | none => Undo.remove p
      | some content => .write p content).node = reread (d₀ p) := by
  rw [first]
  rcases textAt_of_noLink noLink dir with ⟨nothing, none⟩ | ⟨bytes, here, read⟩
  · rw [none, nothing]
    rfl
  · rw [read, here]
    rfl

/-- A vhost that is installed may be taken back. -/
theorem meets_installOne (sites : Sites inv d₀) {f : VhostFile} (member : f ∈ files) (given : f.text ≠ none) (done : Installed) :
    Meets env (Stands fs base (Placed inv files remove d₀ done.undo)) (installOne inv done f)
      (fun done' => Stands fs base fun d => Placed inv files remove d₀ done'.undo d ∧
        (∀ p, Touched done.undo p → Touched done'.undo p) ∧ Rewritten inv d₀ f done'.undo)
      (fun _ => Stands fs base fun _ => True) := by
  unfold installOne
  split
  · exact meets_throw anyhow
  · rename_i allowed
    have plain : plainName f.name = true := by simpa using allowed
    refine meets_bind ((meets_readFile fun d placed => placed.noLink sites plain).weaken (fun _ => id) (fun _ _ => id)
      fun _ => anyhow) fun prev => ?_
    refine meets_given (F := Segment f.name ∧ d₀ (available inv f.name) ≠ some .dir ∧
      (¬ Touched done.undo (available inv f.name) → prev = textAt d₀ (available inv f.name))) ?_ ?_
    · rintro w ⟨more, -, -, placed, file, rfl⟩
      refine ⟨placed.segment sites plain file, fun dir => file (placed.dirs _ dir), fun untouched => ?_⟩
      rw [textAt, textAt, placed.untouched _ untouched]
    rintro ⟨segment, dir, first⟩
    have noLink := sites.plain f.name segment
    refine meets_bind (M := fun written => Stands fs base fun d => Placed inv files remove d₀ written.undo d ∧
      (∀ p, Touched done.undo p → Touched written.undo p) ∧ Rewritten inv d₀ f written.undo ∧
      (∃ bytes, d (available inv f.name) = some (.file bytes))) ?_ fun written => ?_
    · split
      · rename_i differs
        cases text : f.text with
        | none => exact absurd text given
        | some content =>
          refine meets_bind ((meets_writeFile fun d now => now.1.noLink sites plain).weaken (fun _ => id) (fun _ _ => id)
            fun _ => anyhow) fun _ => meets_pure fun w stands => stands.mono ?_
          rintro d ⟨d₁, ⟨placed, file, read⟩, rfl⟩
          have solid : Solid inv files d₀ (available inv f.name) := ⟨noLink, .inl ⟨f.name, segment, rfl⟩⟩
          refine ⟨?_, fun p before => touched_append.mpr (.inl before), fun _ _ _ => touched_append.mpr (.inr ?_),
            bytesOf content, Disk.set_same _ _ _⟩
          · have node (untouched : ¬ Touched done.undo (available inv f.name)) := undo_node noLink dir (first untouched)
            have wanted (untouched : ¬ Touched done.undo (available inv f.name)) (bytes : List UInt8)
                (here : d₀ (available inv f.name) = some (.file bytes)) :
                Rewrites inv files remove (available inv f.name) bytes := by
              refine .inr ⟨f, member, rfl, fun same => differs ?_⟩
              rw [first untouched, same]
              exact textAt_eq_some.mpr ⟨bytes, here, rfl⟩
            cases prev with
            | none =>
              exact placed.add node (fun p other => Disk.set_other _ _ other)
                (fun _ target linked => nomatch (Disk.set_same _ _ _).symm.trans linked) dir nofun nofun wanted
            | some before =>
              exact placed.add node (fun p other => Disk.set_other _ _ other)
                (fun _ target linked => nomatch (Disk.set_same _ _ _).symm.trans linked) dir (fun _ _ => solid) nofun wanted
          · cases prev <;> rfl
      · rename_i same
        have same : prev = f.text := not_not.mp same
        refine meets_pure fun w stands => stands.mono ?_
        rintro d ⟨placed, file, read⟩
        refine ⟨placed, fun _ => id, fun bytes there differs => ?_, ?_⟩
        · by_contra untouched
          refine differs (same ▸ first untouched ▸ ?_)
          exact textAt_eq_some.mpr ⟨bytes, there, rfl⟩
        · cases text : f.text with
          | none => exact absurd text given
          | some content =>
            obtain ⟨bytes, here, -⟩ := textAt_eq_some.mp (read.symm.trans (same.trans text))
            exact ⟨bytes, here⟩
    · refine meets_bind meets_stat fun found => ?_
      cases found with
      | some stat => exact meets_pure fun w stands => stands.mono fun d now => ⟨now.1.1, now.1.2.1, now.1.2.2.1⟩
      | none =>
        refine meets_bind (meets_symlink.weaken (fun _ => id) (fun _ _ => id) fun _ => anyhow) fun _ =>
          meets_pure fun w stands => stands.mono ?_
        rintro d ⟨d₁, ⟨⟨placed, grows, rewritten, bytes, here⟩, -⟩, absent, rfl⟩
        refine ⟨placed.add (u := .remove (enabled inv f.name)) (fun untouched => ?_) (fun p other => Disk.set_other _ _ other)
          (fun solid => ?_) (fun dir => ?_) nofun nofun (fun untouched bytes first => ?_),
          fun p before => touched_append.mpr (.inl (grows p before)),
          fun bytes there differs => touched_append.mpr (.inl (rewritten bytes there differs))⟩
        · show none = reread (d₀ (enabled inv f.name))
          rw [← placed.untouched (enabled inv f.name) untouched, absent]
          rfl
        · obtain ⟨-, ⟨name, segment', same⟩ | other⟩ := solid
          · obtain ⟨dirs, names⟩ := joinPath_inj sites.enabled sites.available segment segment' same
            rw [available, ← dirs] at here
            exact nomatch absent.symm.trans here
          · exact absurd rfl (other f member)
        · exact nomatch absent.symm.trans (placed.dirs _ dir)
        · exact nomatch absent.symm.trans ((placed.untouched _ untouched).trans first)

/-! ### Taking it all back -/

/-- A step that was taken back in effect. -/
def Undid (fs : Files env resolves bin) (past : List (Event Machine)) : Event Machine → Prop
  | ⟨.writeFile .., answer, _⟩ => answer = .ok ()
  | ⟨.symlink .., answer, _⟩ => answer = .ok ()
  | ⟨.removeFile path privileged, answer, clock⟩ =>
    answer = .ok () ∧ fs.disk (past ++ [⟨.removeFile path privileged, answer, clock⟩]) path = none
  | _ => True

def Effective (fs : Files env resolves bin) (base more : List (Event Machine)) : Prop :=
  Each (fun _ => True) (fun earlier event => Undid fs (base ++ earlier) event) more

/-- The disk, where all was taken back in effect. -/
def TakenBack (fs : Files env resolves bin) (base : List (Event Machine)) (d : Disk) : World Machine Unit → Prop :=
  Since base fun more _ => (∀ event ∈ more, places event.call = true) ∧ (Effective fs base more → fs.disk (base ++ more) = d)

/-- Something could not be taken back. -/
def Hindered (fs : Files env resolves bin) (base : List (Event Machine)) : World Machine Unit → Prop :=
  Since base fun more _ => (∀ event ∈ more, places event.call = true) ∧ ¬ Effective fs base more

theorem takenBack_call {call : Call} {read : Machine.Answer call → Except String Unit} {before after : Disk}
    (placing : places call = true)
    (answered : ∀ past clock, read (env.answer past call) = .ok () → Undid fs past ⟨call, env.answer past call, clock⟩ →
      fs.disk past = before → fs.disk (past ++ [⟨call, env.answer past call, clock⟩]) = after)
    (rejected : ∀ past clock message, read (env.answer past call) = .error message →
      ¬ Undid fs past ⟨call, env.answer past call, clock⟩) :
    Meets env (TakenBack fs base before) (Exec.orReject call read) (fun _ => TakenBack fs base after)
      (fun _ => Hindered fs base) := by
  refine meets_orReject_at (fun more clock _ ⟨all, now⟩ answer => ⟨places_concat all placing, fun effective => ?_⟩)
    fun more clock message ⟨all, _⟩ answer => ⟨places_concat all placing, fun effective => ?_⟩
  · obtain ⟨earlier, last⟩ := each_snoc.mp effective
    rw [← List.append_assoc]
    exact answered _ _ answer (last trivial) (now earlier)
  · exact rejected _ _ message answer ((each_snoc.mp effective).2 trivial)

theorem meets_undo {u : Undo} (noLink : ∀ content path, u = .write path content → NoLink d path) :
    Meets env (TakenBack fs base d) u.run (fun _ => TakenBack fs base (u.apply d)) (fun _ => Hindered fs base) := by
  cases u with
  | remove path =>
    refine takenBack_call rfl (fun past clock answered undid before => ?_) fun past clock message rejected undid => ?_
    · subst before
      rcases fs.removed past path true clock answered with unchanged | gone
      · funext p
        by_cases same : p = path
        · subst same
          exact undid.2.trans (Disk.set_same _ _ _).symm
        · exact (congrFun unchanged p).trans (Disk.set_other _ _ same).symm
      · exact gone
    · exact nomatch rejected.symm.trans undid.1
  | write path content =>
    refine takenBack_call rfl (fun past clock answered _ before => ?_) fun past clock message rejected undid => ?_
    · subst before
      exact fs.wrote past path content true clock answered (noLink content path rfl)
    · exact nomatch rejected.symm.trans undid
  | link target path =>
    refine takenBack_call rfl (fun past clock answered _ before => ?_) fun past clock message rejected undid => ?_
    · subst before
      exact (fs.linked past target path true clock answered).2
    · exact nomatch rejected.symm.trans undid

theorem Placed.noLink_foldl (placed : Placed inv files remove d₀ undo d) {us : List Undo} (within : ∀ u ∈ us, u ∈ undo)
    {p : String} (solid : Solid inv files d₀ p) : NoLink (us.foldl Undo.apply d) p := by
  have step (d' : Disk) (noLink : NoLink d' p) (u : Undo) (member : u ∈ undo) : NoLink (u.apply d') p := by
    by_cases same : p = u.path
    · subst same
      rw [Undo.apply, NoLink, Disk.set_same]
      cases u with
      | remove path => exact nofun
      | write path content => exact nofun
      | link target path => exact absurd (placed.links target path member) (solid.1 target)
    · rw [Undo.apply, NoLink, Disk.set_other _ _ same]
      exact noLink
  induction us using List.reverseRecOn with
  | nil => exact placed.solid p solid
  | append_singleton us u ih =>
    rw [List.foldl_append]
    exact step _ (ih fun v member => within v (by simp [member])) u (within u (by simp))

/-- All that was put in place is taken back, the last step first. -/
theorem meets_takeBack (placed : Placed inv files remove d₀ undo d) :
    Meets env (TakenBack fs base d) (forEach undo.reverse Undo.run)
      (fun _ => TakenBack fs base (undo.reverse.foldl Undo.apply d)) (fun _ => Hindered fs base) := by
  refine (meets_forEach_upto (I := fun us w => (∀ u ∈ us, u ∈ undo) ∧ TakenBack fs base (us.foldl Undo.apply d) w)
    fun us u member => ?_).weaken (fun w back => ⟨by simp, back⟩) (fun _ w back => back.2) fun _ _ => id
  refine meets_given (fun w back => back.1) fun within => ?_
  refine (meets_undo (d := us.foldl Undo.apply d) fun content path same => ?_).weaken (fun w back => back.2)
    (fun _ w back => ⟨fun v inside => ?_, ?_⟩) fun _ _ => id
  · subst same
    exact placed.noLink_foldl within (placed.writes path content (List.mem_reverse.mp member))
  · rcases List.mem_append.mp inside with before | last
    · exact within v before
    · exact List.mem_singleton.mp last ▸ List.mem_reverse.mp member
  · rw [List.foldl_append]
    exact back

end

/-- The bytes of every file that is rewritten or removed are those of a text. -/
def Lossless (inv : Inventory) (files : List VhostFile) (remove : List String) (d₀ : Disk) : Prop :=
  ∀ p bytes, d₀ p = some (.file bytes) → Rewrites inv files remove p bytes → bytesOf (textOf bytes) = bytes

/-- What was taken back is as it was, exactly where the texts are the files. -/
theorem Placed.restored_iff (placed : Placed inv files remove d₀ undo d)
    (all : ∀ p bytes, d₀ p = some (.file bytes) → Rewrites inv files remove p bytes → Touched undo p) :
    undo.reverse.foldl Undo.apply d = d₀ ↔ Lossless inv files remove d₀ := by
  have back (p : String) (touched : Touched undo p) : undo.reverse.foldl Undo.apply d p = reread (d₀ p) := by
    rw [foldl_reverse_apply]
    cases found : undo.find? fun u => u.path = p with
    | some u => exact placed.first p u found
    | none =>
      obtain ⟨u, member, same⟩ := touched
      exact absurd same (by simpa using List.find?_eq_none.mp found u member)
  constructor
  · intro same p bytes here rewrites
    have again := (back p (all p bytes here rewrites)).symm.trans (congrFun same p)
    rw [here] at again
    simpa [reread] using again
  · intro lossless
    funext p
    by_cases touched : Touched undo p
    · rw [back p touched]
      cases here : d₀ p with
      | none => rfl
      | some node =>
        cases node with
        | file bytes => exact congrArg (some ∘ Node.file) (lossless p bytes here (placed.wanted p touched bytes here))
        | link target => rfl
        | dir => rfl
    · rw [foldl_reverse_apply, List.find?_eq_none.mpr fun u member => by simpa using fun same => touched ⟨u, member, same⟩]
      exact placed.untouched p touched

/-! ### The whole call -/

/-- `nginx -t`. -/
def tests (inv : Inventory) : Call := .run inv.nginxBin ["-t"] { privileged := true }

/-- A test failed, and all was taken back in effect after it. -/
def TestFailed {env : Environment Machine} {resolves : Disk → String → Bool} {bin : String} (fs : Files env resolves bin)
    (inv : Inventory) (base events : List (Event Machine)) : Prop :=
  ∃ before clock after, ∃ t : RunResult, events = before ++ ⟨tests inv, t, clock⟩ :: after ∧ t.code ≠ 0 ∧
    Effective fs (base ++ before ++ [⟨tests inv, t, clock⟩]) after

def controls : Call → Bool
  | .systemctl .. => true
  | _ => false

theorem emits_reload : Emits controls Systemd.reloadNginx := by
  unfold Systemd.reloadNginx
  refine emits_bind ?_ fun r => emits_must _ r
  rw [systemctl_service rfl]
  exact emits_ask rfl

/-- A list splits in one way only at the one thing of its kind. -/
theorem split_unique {α : Type} {p : α → Prop} {a b c d : List α} {x y : α} (same : a ++ x :: b = c ++ y :: d) (_ : p x)
    (py : p y) (first : ∀ e ∈ a, ¬ p e) (last : ∀ e ∈ b, ¬ p e) : a = c ∧ x = y ∧ b = d := by
  rcases List.append_eq_append_iff.mp same with ⟨k, rfl, rest⟩ | ⟨k, rfl, rest⟩
  · cases k with
    | nil => simpa using rest
    | cons z k =>
      obtain ⟨rfl, rfl⟩ := List.cons.inj rest
      exact absurd py (last y (by simp))
  · cases k with
    | nil => simpa [eq_comm] using rest
    | cons z k =>
      obtain ⟨rfl, rfl⟩ := List.cons.inj rest
      exact absurd py (first y (by simp))

section
variable {env : Environment Machine} {resolves : Disk → String → Bool}

/-- What holds of a call that got to a failing test: all is as before exactly where the texts are the files. -/
def Settled (fs : Files env resolves inv.nginxBin) (files : List VhostFile) (remove : List String)
    (base events : List (Event Machine)) : Prop :=
  TestFailed fs inv base events →
    ((fs.disk (base ++ events) = fs.disk base ∧ ∀ event ∈ events, ∀ unit, event.call ≠ .systemctl .reload unit) ↔
      Lossless inv files remove (fs.disk base))

variable {fs : Files env resolves inv.nginxBin} {base : List (Event Machine)}

theorem settled_of_places {events : List (Event Machine)} (all : ∀ event ∈ events, places event.call = true) :
    Settled fs files remove base events := by
  rintro ⟨before, clock, after, t, rfl, -⟩
  exact nomatch (all ⟨tests inv, t, clock⟩ (by simp) : false = true)

/-- The vhosts to remove, and then those to install. -/
theorem meets_placed (sites : Sites inv d₀) (texts : ∀ f ∈ files, f.text ≠ none) {done : Installed → Exec Unit}
    {ok : Unit → World Machine Unit → Prop} {err : Failure → World Machine Unit → Prop}
    (gives : ∀ w, Stands fs base (fun _ => True) w → ∀ e, err e w)
    (next : ∀ d, Meets env (Stands fs base fun disk => Placed inv files remove d₀ d.undo disk ∧
      ∀ p bytes, d₀ p = some (.file bytes) → Rewrites inv files remove p bytes → Touched d.undo p) (done d) ok err) :
    Meets env (Stands fs base fun disk => disk = d₀) (do
      let removed ← fold remove {} (removeOne inv files)
      let d ← fold files removed (installOne inv)
      done d) ok err := by
  refine meets_bind ((meets_fold_upto (I := fun names (done : Installed) => Stands fs base fun d =>
    Removing inv files remove d₀ done.undo d ∧ ∀ name ∈ names, Covers d₀ (available inv name) done.undo ∧
      Covers d₀ (enabled inv name) done.undo) fun names name done named => ?_).weaken (fun w stands => stands.mono ?_)
    (fun _ _ => id) fun e w stands => gives w stands e) fun removed => ?_
  · refine meets_given (F := ∀ other ∈ names, Covers d₀ (available inv other) done.undo ∧
      Covers d₀ (enabled inv other) done.undo) (fun w ⟨_, _, _, _, covers⟩ => covers) fun covers => ?_
    refine (meets_removeOne sites named done).weaken (fun w stands => stands.mono fun d now => now.1)
      (fun done' w stands => stands.mono ?_) fun _ _ => id
    rintro d ⟨removing, grows, first, second⟩
    refine ⟨removing, fun other member => ?_⟩
    rcases List.mem_append.mp member with before | last
    · exact ⟨fun bytes here => grows _ ((covers other before).1 bytes here),
        fun bytes here => grows _ ((covers other before).2 bytes here)⟩
    · obtain rfl := List.mem_singleton.mp last
      exact ⟨first, second⟩
  · rintro d rfl
    exact ⟨⟨placed_start, fun _ => .inl rfl⟩, by simp⟩
  · refine meets_bind ((meets_fold_upto (I := fun vhosts (done : Installed) => Stands fs base fun d =>
      Placed inv files remove d₀ done.undo d ∧ (∀ name ∈ remove, Covers d₀ (available inv name) done.undo ∧
        Covers d₀ (enabled inv name) done.undo) ∧ ∀ f ∈ vhosts, Rewritten inv d₀ f done.undo)
      fun vhosts f done member => ?_).weaken (fun w stands => stands.mono ?_) (fun _ _ => id)
      fun e w stands => gives w stands e) fun d => (next d).weaken (fun w stands => stands.mono ?_) (fun _ _ => id) fun _ _ => id
    · refine meets_given (F := (∀ name ∈ remove, Covers d₀ (available inv name) done.undo ∧
        Covers d₀ (enabled inv name) done.undo) ∧ ∀ f ∈ vhosts, Rewritten inv d₀ f done.undo)
        (fun w ⟨_, _, _, _, covers⟩ => covers) fun ⟨covers, rewritten⟩ => ?_
      refine (meets_installOne sites member (texts f member) done).weaken (fun w stands => stands.mono fun d now => now.1)
        (fun done' w stands => stands.mono ?_) fun _ _ => id
      rintro d ⟨placed, grows, last⟩
      refine ⟨placed, fun name named => ⟨fun bytes here => grows _ ((covers name named).1 bytes here),
        fun bytes here => grows _ ((covers name named).2 bytes here)⟩, fun g inside => ?_⟩
      rcases List.mem_append.mp inside with before | same
      · exact fun bytes here differs => grows _ (rewritten g before bytes here differs)
      · obtain rfl := List.mem_singleton.mp same
        exact last
    · exact fun d now => ⟨now.1.1, now.2, by simp⟩
    · rintro disk ⟨placed, covers, rewritten⟩
      refine ⟨placed, ?_⟩
      rintro p bytes here (⟨name, named, rfl | rfl⟩ | ⟨f, member, rfl, differs⟩)
      · exact (covers name named).1 bytes here
      · exact (covers name named).2 bytes here
      · exact rewritten f member bytes here differs

/-- After a test that failed, what is taken back in effect is as it was. -/
theorem settled_of_takenBack {undo : List Undo} {placing later : List (Event Machine)} {t : RunResult} {clock : Nat}
    (places' : ∀ event ∈ placing, places event.call = true) (placed : Placed inv files remove (fs.disk base) undo d)
    (all : ∀ p bytes, fs.disk base p = some (.file bytes) → Rewrites inv files remove p bytes → Touched undo p)
    (calm : ∀ event ∈ later, places event.call = true)
    (back : Effective fs (base ++ (placing ++ [⟨tests inv, t, clock⟩])) later →
      fs.disk (base ++ (placing ++ [⟨tests inv, t, clock⟩]) ++ later) = undo.reverse.foldl Undo.apply d) :
    Settled fs files remove base (placing ++ ⟨tests inv, t, clock⟩ :: later) := by
  rintro ⟨before, clock', after, t', split, -, effective⟩
  have other (events : List (Event Machine)) (all : ∀ event ∈ events, places event.call = true) :
      ∀ event ∈ events, ¬ event.call = tests inv := by
    intro event member same
    exact nomatch (same ▸ all event member : places (tests inv) = true)
  obtain ⟨rfl, same, rfl⟩ := split_unique (p := fun event => event.call = tests inv) split rfl rfl (other _ places')
    (other _ calm)
  obtain rfl : t = t' := by cases same; rfl
  obtain rfl : clock = clock' := by cases same; rfl
  rw [List.append_assoc] at effective
  have final := back effective
  rw [List.append_assoc, List.append_assoc, List.singleton_append] at final
  rw [final, placed.restored_iff all]
  refine and_iff_left ?_
  intro event member unit reload
  rcases List.mem_append.mp member with first | last
  · exact nomatch (reload ▸ places' event first : places (.systemctl .reload unit) = true)
  · rcases List.mem_cons.mp last with rfl | rest
    · exact nomatch reload
    · exact nomatch (reload ▸ calm event rest : places (.systemctl .reload unit) = true)

theorem settled_of_clean {placing later : List (Event Machine)} {t : RunResult} {clock : Nat} (clean : t.code = 0)
    (places' : ∀ event ∈ placing, places event.call = true) (calm : ∀ event ∈ later, controls event.call = true) :
    Settled fs files remove base (placing ++ ⟨tests inv, t, clock⟩ :: later) := by
  rintro ⟨before, clock', after, t', split, failed, -⟩
  obtain ⟨-, same, -⟩ := split_unique (p := fun event => event.call = tests inv) split rfl rfl
    (fun event member same => nomatch (same ▸ places' event member : places (tests inv) = true))
    (fun event member same => nomatch (same ▸ calm event member : controls (tests inv) = true))
  obtain rfl : t = t' := by cases same; rfl
  exact absurd clean failed

/-- `nginx.install` in whole. -/
theorem meets_install (sites : Sites inv (fs.disk base)) (texts : ∀ f ∈ files, f.text ≠ none) :
    Meets env (Stands fs base fun disk => disk = fs.disk base) (install inv files remove)
      (fun _ => Since base fun more _ => Settled fs files remove base more)
      (fun _ => Since base fun more _ => Settled fs files remove base more) := by
  unfold install
  refine meets_placed sites texts (fun w stands _ => Since.mono stands fun more _ now => settled_of_places now.1)
    fun done => ?_
  refine meets_ite (fun _ => ?_) fun _ => ?_
  · exact meets_pure fun w stands => Since.mono stands fun more _ now => settled_of_places now.1
  · refine meets_bind (M := fun t => Since base fun more _ => ∃ placing clock, more = placing ++ [⟨tests inv, t, clock⟩] ∧
      (∀ event ∈ placing, places event.call = true) ∧ Placed inv files remove (fs.disk base) done.undo (fs.disk (base ++ more)) ∧
      ∀ p bytes, fs.disk base p = some (.file bytes) → Rewrites inv files remove p bytes → Touched done.undo p) ?_ fun t => ?_
    · refine meets_ask_at fun more clock ⟨all, placed, covers⟩ => ⟨more, clock, rfl, all, ?_, covers⟩
      have same := fs.tested (base ++ more) { privileged := true } clock
      rw [List.append_assoc] at same
      exact (congrArg (Placed inv files remove (fs.disk base) done.undo) same).mpr placed
    · refine meets_ite (fun failed => ?_) fun clean => ?_
      · rintro w ⟨_, trace, placing, clock, rfl, all, placed, covers⟩
        have start : TakenBack fs w.trace (fs.disk w.trace) w := ⟨[], (List.append_nil _).symm, by simp, by simp⟩
        rw [← trace] at placed
        have settles {later : List (Event Machine)} (calm : ∀ event ∈ later, places event.call = true)
            (back : Effective fs w.trace later → fs.disk (w.trace ++ later) = done.undo.reverse.foldl Undo.apply (fs.disk w.trace)) :
            Settled fs files remove base (placing ++ ⟨tests inv, t, clock⟩ :: later) :=
          settled_of_takenBack all placed covers calm (trace ▸ back)
        refine (meets_bind ((meets_takeBack placed).weaken (fun _ => id) (fun _ _ => id) fun e w' hindered => ?_)
          fun _ => meets_throw fun w' back => ?_) w start
        · obtain ⟨later, onward, calm, not⟩ := hindered
          exact ⟨_, by rw [onward, trace, List.append_assoc]; simp, settles calm fun effective => absurd effective not⟩
        · obtain ⟨later, onward, calm, back⟩ := back
          exact ⟨_, by rw [onward, trace, List.append_assoc]; simp, settles calm back⟩
      · refine (emits_reload.meets_events (H := fun more => ∃ placing clock later, more = placing ++ ⟨tests inv, t, clock⟩ :: later ∧
          (∀ event ∈ placing, places event.call = true) ∧ ∀ event ∈ later, controls event.call = true) ?_).weaken
            (fun w since => since.mono ?_) (fun _ w since => since.mono ?_) fun _ w since => since.mono ?_
        · rintro _ event quiet ⟨placing, clock, later, rfl, all, calm⟩
          refine ⟨placing, clock, later ++ [event], by simp, all, fun e member => ?_⟩
          rcases List.mem_append.mp member with before | last
          · exact calm e before
          · exact List.mem_singleton.mp last ▸ quiet
        · rintro _ _ ⟨placing, clock, rfl, all, -⟩
          exact ⟨placing, clock, [], rfl, all, by simp⟩
        · rintro _ _ ⟨placing, clock, later, rfl, all, calm⟩
          exact settled_of_clean (by simpa using clean) all calm
        · rintro _ _ ⟨placing, clock, later, rfl, all, calm⟩
          exact settled_of_clean (by simpa using clean) all calm

end

end

/-- When `nginx -t` fails and all is taken back in effect, nginx is not reloaded and the files and links are as before,
exactly where every file that was to be rewritten or removed holds a text. -/
theorem install_restored_iff {env : Environment Machine} {resolves : Disk → String → Bool} {inv : Inventory}
    (fs : Files env resolves inv.nginxBin) {files : List VhostFile} (remove : List String) (texts : ∀ f ∈ files, f.text ≠ none)
    (w : World Machine Unit) (sites : Sites inv (fs.disk w.trace)) {events : List (Event Machine)}
    (ran : (Program.run (install inv files remove) env w).2.trace = w.trace ++ events) (failed : TestFailed fs inv w.trace events) :
    (fs.disk (w.trace ++ events) = fs.disk w.trace ∧ ∀ event ∈ events, ∀ unit, event.call ≠ .systemctl .reload unit) ↔
      Lossless inv files remove (fs.disk w.trace) := by
  have start : Stands fs w.trace (fun disk => disk = fs.disk w.trace) w := ⟨[], (List.append_nil _).symm, by simp, by simp⟩
  have settled : Since w.trace (fun more _ => Settled fs files remove w.trace more)
      (Program.run (install inv files remove) env w).2 := Ends.always (meets_install sites texts w start)
  exact settled.at_end ran failed

/-! ### One vhost -/

def proxy : Inventory where
  stateDir := "/var/lib/openvibe"
  backupDir := "/var/backups/openvibe"
  backupStagingDir := "/var/backups/openvibe/.staging"
  services := []
  backup_absolute := backups_absolute

/-- The file of one vhost, which is not enabled. -/
def oneSite (bytes : List UInt8) : Disk := fun path =>
  if path = "/etc/nginx/sites-available" then some .dir
  else if path = "/etc/nginx/sites-available/a.conf" then some (.file bytes)
  else none

abbrev oneMachine (bytes : List UInt8) : Environment Machine := machineOf (oneSite bytes) (fun _ _ => true) (fun _ => false) 1

abbrev oneDisk (bytes : List UInt8) : Files (oneMachine bytes) (fun _ _ => true) proxy.nginxBin :=
  filesOf (oneSite bytes) (fun _ _ => true) (fun _ => false) 1 proxy.nginxBin

def oneRun (bytes : List UInt8) : List (Event Machine) :=
  (Program.run (install proxy [⟨"a.conf", some "listen"⟩] []) (oneMachine bytes) ⟨(), 0, []⟩).2.trace

theorem oneSite_sites (bytes : List UInt8) : Sites proxy (oneSite bytes) where
  available := ⟨by decide, by decide⟩
  enabled := ⟨by decide, by decide⟩
  dir := rfl
  plain name _ target linked := by
    unfold oneSite at linked
    split at linked
    · simp at linked
    · split at linked <;> simp at linked

theorem effective_pair {env : Environment Machine} {resolves : Disk → String → Bool} {bin : String} {fs : Files env resolves bin}
    {base : List (Event Machine)} {first second : Event Machine} (one : Undid fs base first)
    (two : Undid fs (base ++ [first]) second) : Effective fs base [first, second] := by
  have pair : [first, second] = [] ++ [first] ++ [second] := rfl
  rw [Effective, pair]
  exact each_snoc.mpr ⟨each_snoc.mpr ⟨each_nil, fun _ => by simpa using one⟩, fun _ => two⟩

def onePlaced (bytes : List UInt8) : List (Event Machine) :=
  [⟨.readFile "/etc/nginx/sites-available/a.conf" true, .ok (some (textOf bytes)), 0⟩,
    ⟨.writeFile "/etc/nginx/sites-available/a.conf" "listen" true, .ok (), 0⟩,
    ⟨.stat "/etc/nginx/sites-enabled/a.conf", none, 0⟩,
    ⟨.symlink "/etc/nginx/sites-available/a.conf" "/etc/nginx/sites-enabled/a.conf" true, .ok (), 0⟩]

def oneUnlinked : Event Machine := ⟨.removeFile "/etc/nginx/sites-enabled/a.conf" true, .ok (), 0⟩

def oneRewritten (bytes : List UInt8) : Event Machine :=
  ⟨.writeFile "/etc/nginx/sites-available/a.conf" (textOf bytes) true, .ok (), 0⟩

theorem one_failed {bytes : List UInt8} (ran : oneRun bytes =
    onePlaced bytes ++ ⟨tests proxy, ({ code := 1 } : RunResult), 0⟩ :: [oneUnlinked, oneRewritten bytes]) :
    TestFailed (oneDisk bytes) proxy [] (oneRun bytes) := by
  refine ⟨onePlaced bytes, 0, [oneUnlinked, oneRewritten bytes], { code := 1 }, ran, by decide, effective_pair ⟨rfl, ?_⟩ rfl⟩
  show diskAfter (oneSite bytes) _ "/etc/nginx/sites-enabled/a.conf" = none
  rw [diskAfter_snoc]
  rfl

theorem one_site_restored_iff :
    ((oneDisk [0x61]).disk ([] ++ oneRun [0x61]) = (oneDisk [0x61]).disk [] ∧
      ∀ event ∈ oneRun [0x61], ∀ unit, event.call ≠ .systemctl .reload unit) ↔
      Lossless proxy [⟨"a.conf", some "listen"⟩] [] ((oneDisk [0x61]).disk []) :=
  install_restored_iff (oneDisk [0x61]) [] (by simp) ⟨(), 0, []⟩ (oneSite_sites [0x61]) (List.nil_append _).symm (one_failed rfl)

/-- A comment in Latin-1 comes back as another. -/
theorem latin_lost : TestFailed (oneDisk [0xE9]) proxy [] (oneRun [0xE9]) ∧
    (oneDisk [0xE9]).disk (oneRun [0xE9]) "/etc/nginx/sites-available/a.conf" ≠
      (oneDisk [0xE9]).disk [] "/etc/nginx/sites-available/a.conf" :=
  ⟨one_failed rfl, by decide +kernel⟩

end OpenVibeHost.Nginx
