import OpenVibeHost.VhostUndo

/-! What `nginx.install` leaves where it throws before `nginx -t` has run: nothing is taken back then, so all is as
before only where nothing could have been changed before a call that fails. -/
namespace OpenVibeHost.Nginx
open Effects Program

/-! ### When nothing is left half done -/

section
variable (inv : Inventory) (files : List VhostFile) (resolves : Disk → String → Bool) (d₀ : Disk)

/-- A name that is refused, or that stands for a directory. -/
def BlockedName (name : String) : Prop :=
  plainName name = false ∨ (∃ f ∈ files, f.name = name) ∨ d₀ (available inv name) = some .dir ∨
    d₀ (enabled inv name) = some .dir

/-- A vhost that is there no more. -/
def Gone (name : String) : Prop := d₀ (available inv name) = none ∧ d₀ (enabled inv name) = none

/-- A vhost of which there is one thing to remove. -/
def HalfThere (name : String) : Prop :=
  (d₀ (available inv name) = none ∧ d₀ (enabled inv name) ≠ none) ∨
    ((d₀ (available inv name)).isSome ∧ d₀ (enabled inv name) = none)

/-- A vhost that cannot be installed: its name is refused or stands for a directory, or a link that leads nowhere is in
the way of its own. -/
def BlockedFile (f : VhostFile) : Prop :=
  plainName f.name = false ∨ d₀ (available inv f.name) = some .dir ∨
    (textAt d₀ (available inv f.name) = f.text ∧ (linkAt d₀ (enabled inv f.name)).isSome ∧
      resolves d₀ (enabled inv f.name) = false)

/-- A vhost that is installed. -/
def InPlace (f : VhostFile) : Prop :=
  textAt d₀ (available inv f.name) = f.text ∧ present resolves d₀ (enabled inv f.name) = true

/-- A vhost of which there is one thing to do: to write it, or to link it. -/
def HalfPlaced (f : VhostFile) : Prop :=
  (∃ content, f.text = some content ∧ textAt d₀ (available inv f.name) ≠ f.text ∧
    present resolves (d₀.set (available inv f.name) (some (.file (bytesOf content)))) (enabled inv f.name) = true) ∨
  (textAt d₀ (available inv f.name) = f.text ∧ d₀ (enabled inv f.name) = none)

/-- Of the vhosts to install, only the last one has something to do, and one thing only; or one before them is refused. -/
def SafeFiles : List VhostFile → Prop
  | [] => True
  | f :: rest => BlockedFile inv resolves d₀ f ∨ (InPlace inv resolves d₀ f ∧ SafeFiles rest) ∨
      (HalfPlaced inv resolves d₀ f ∧ rest = [])

/-- The same with the vhosts to remove before them. -/
def Safe : List String → Prop
  | [] => SafeFiles inv resolves d₀ files
  | name :: rest => BlockedName inv files d₀ name ∨ (Gone inv d₀ name ∧ Safe rest) ∨
      (HalfThere inv d₀ name ∧ rest = [] ∧ files = [])

end

/-! ### Where it is safe -/

section
variable {inv : Inventory} {files : List VhostFile} {d₀ : Disk} {env : Environment Machine}
  {resolves : Disk → String → Bool} {bin : String} {fs : Files env resolves bin} {base : List (Event Machine)}

/-- Nothing was changed. -/
abbrev Still (fs : Files env resolves bin) (base : List (Event Machine)) (d₀ : Disk) : World Machine Unit → Prop :=
  Stands fs base (· = d₀)

theorem noLink_available (sites : Sites inv d₀) {name : String} (plain : plainName name = true) :
    NoLink d₀ (available inv name) :=
  (@placed_start inv [] [] d₀).noLink sites plain

/-- What taking one vhost out leaves. -/
theorem still_removeOne (sites : Sites inv d₀) (name : String) (done : Installed) :
    Meets env (Still fs base d₀) (removeOne inv files done name)
      (fun _ => Stands fs base fun d => ¬ BlockedName inv files d₀ name ∧ (Gone inv d₀ name → d = d₀))
      (fun _ => Stands fs base fun d =>
        BlockedName inv files d₀ name ∨ Gone inv d₀ name ∨ HalfThere inv d₀ name → d = d₀) := by
  have kept {Q : Prop} (w : World Machine Unit) (still : Still fs base d₀ w) : Stands fs base (fun d => Q → d = d₀) w :=
    still.mono fun d same _ => same
  unfold removeOne
  split
  · exact meets_throw kept
  · rename_i allowed
    obtain ⟨plain, others⟩ := removable allowed
    have noLink := noLink_available sites plain
    refine meets_bind ((meets_readFile (by rintro d rfl; exact noLink)).weaken (fun _ => id) (fun _ _ => id)
      fun _ => kept) fun prevText => ?_
    refine meets_given (F := d₀ (available inv name) ≠ some .dir ∧ prevText = textAt d₀ (available inv name)) ?_ ?_
    · rintro w ⟨more, -, -, same, file, read⟩
      rw [same] at file read
      exact ⟨file, read⟩
    rintro ⟨file, rfl⟩
    refine meets_bind ((meets_readlink (P := (· = d₀))).weaken (fun w stands => stands.mono fun d now => now.1)
      (fun _ _ => id) fun _ _ => id) fun target => ?_
    refine meets_given (F := target = linkAt d₀ (enabled inv name)) ?_ ?_
    · rintro w ⟨more, -, -, same, found⟩
      rw [same] at found
      exact found
    rintro rfl
    refine meets_bind (M := fun there => Stands fs base fun d => d = d₀ ∧ there = (d₀ (enabled inv name)).isSome) ?_
      fun there => ?_
    · cases target : linkAt d₀ (enabled inv name) with
      | some destination =>
        refine meets_ret fun w stands => stands.mono fun d now => ⟨now.1, ?_⟩
        rw [linkAt_eq_some.mp target]
        rfl
      | none =>
        refine meets_bind meets_stat fun found => meets_ret fun w stands => stands.mono ?_
        rintro d ⟨⟨rfl, -⟩, found⟩
        exact ⟨rfl, found.trans (present_of_noLink (noLink_of_linkAt target))⟩
    refine meets_given (F := there = (d₀ (enabled inv name)).isSome) (fun w ⟨_, _, _, now⟩ => now.2) ?_
    rintro rfl
    refine meets_bind (M := fun _ => Stands fs base fun d => d₀ (enabled inv name) ≠ some .dir ∧
      (d₀ (enabled inv name) = none → d = d₀)) ?_ fun unlinked => ?_
    · split
      · rename_i there
        refine meets_bind (M := fun _ => Stands fs base fun d => d = d₀ ∧ d₀ (enabled inv name) ≠ some .dir) ?_ fun undo => ?_
        · cases target : linkAt d₀ (enabled inv name) with
          | some destination =>
            refine meets_ret fun w stands => stands.mono fun d now => ⟨now.1, ?_⟩
            rw [linkAt_eq_some.mp target]
            simp
          | none =>
            have plainFile := noLink_of_linkAt target
            refine meets_bind ((meets_readFile (by rintro d ⟨rfl, -⟩; exact plainFile)).weaken (fun _ => id) (fun _ _ => id)
              fun _ w stands => kept w (stands.mono fun d now => now.1)) fun copy => meets_ret fun w stands => stands.mono ?_
            rintro d ⟨⟨rfl, -⟩, file', -⟩
            exact ⟨rfl, file'⟩
        · refine meets_bind (meets_removeFile.weaken (fun _ => id) (fun _ _ => id)
            fun _ w stands => kept w (stands.mono fun d now => now.1)) fun _ => meets_pure fun w stands => stands.mono ?_
          rintro d ⟨d₁, ⟨-, notDir⟩, -⟩
          exact ⟨notDir, fun none => absurd there (by simp [none])⟩
      · rename_i absent
        have none : d₀ (enabled inv name) = none := by simpa using absent
        exact meets_pure fun w stands => stands.mono fun d now => ⟨by simp [none], fun _ => now.1⟩
    · have allowed' (notDir : d₀ (enabled inv name) ≠ some .dir) : ¬ BlockedName inv files d₀ name := by
        rintro (bad | ⟨f, member, same⟩ | dir | dir)
        · exact nomatch bad.symm.trans plain
        · exact others f member same
        · exact file dir
        · exact notDir dir
      rcases textAt_of_noLink noLink file with ⟨nothing, read⟩ | ⟨bytes, here, read⟩
      · rw [read]
        refine meets_bind (M := fun _ => Stands fs base fun d => d₀ (enabled inv name) ≠ some .dir ∧
          (d₀ (enabled inv name) = none → d = d₀)) (meets_pure fun _ => id) fun _ => meets_pure fun w stands => stands.mono ?_
        rintro d ⟨notDir, same⟩
        exact ⟨allowed' notDir, fun gone => same gone.2⟩
      · rw [read]
        refine meets_bind (M := fun _ => Stands fs base fun _ => d₀ (enabled inv name) ≠ some .dir) (meets_bind
          (meets_removeFile.weaken (fun _ => id) (fun _ _ => id) fun _ w stands => stands.mono ?_) fun _ =>
            meets_pure fun w stands => stands.mono ?_) fun _ => meets_pure fun w stands => stands.mono ?_
        · rintro d ⟨notDir, same⟩ (blocked | gone | ⟨absent, -⟩ | ⟨-, none⟩)
          · exact absurd blocked (allowed' notDir)
          · exact nomatch gone.1.symm.trans here
          · exact nomatch absent.symm.trans here
          · exact same none
        · rintro d ⟨d₁, ⟨notDir, -⟩, -⟩
          exact notDir
        · exact fun d notDir => ⟨allowed' notDir, fun gone => nomatch gone.1.symm.trans here⟩

/-- What installing one vhost leaves. -/
theorem still_installOne (sites : Sites inv d₀) (f : VhostFile) (given : f.text ≠ none) (done : Installed) :
    Meets env (Still fs base d₀) (installOne inv done f)
      (fun _ => Stands fs base fun d => ¬ BlockedFile inv resolves d₀ f ∧ (InPlace inv resolves d₀ f → d = d₀))
      (fun _ => Stands fs base fun d =>
        BlockedFile inv resolves d₀ f ∨ InPlace inv resolves d₀ f ∨ HalfPlaced inv resolves d₀ f → d = d₀) := by
  have kept {Q : Prop} (w : World Machine Unit) (still : Still fs base d₀ w) : Stands fs base (fun d => Q → d = d₀) w :=
    still.mono fun d same _ => same
  unfold installOne
  split
  · exact meets_throw kept
  · rename_i allowed
    have plain : plainName f.name = true := by simpa using allowed
    have noLink := noLink_available sites plain
    refine meets_bind ((meets_readFile (by rintro d rfl; exact noLink)).weaken (fun _ => id) (fun _ _ => id)
      fun _ => kept) fun prev => ?_
    refine meets_given (F := d₀ (available inv f.name) ≠ some .dir ∧ prev = textAt d₀ (available inv f.name)) ?_ ?_
    · rintro w ⟨more, -, -, same, file, read⟩
      rw [same] at file read
      exact ⟨file, read⟩
    rintro ⟨file, rfl⟩
    refine meets_bind (M := fun _ => Stands fs base fun d => (textAt d₀ (available inv f.name) = f.text ∧ d = d₀) ∨
      ∃ content, f.text = some content ∧ textAt d₀ (available inv f.name) ≠ f.text ∧
        d = d₀.set (available inv f.name) (some (.file (bytesOf content)))) ?_ fun written => ?_
    · split
      · rename_i differs
        cases text : f.text with
        | none => exact absurd text given
        | some content =>
          refine meets_bind ((meets_writeFile (by rintro d ⟨rfl, -⟩; exact noLink)).weaken (fun _ => id) (fun _ _ => id)
            fun _ w stands => kept w (stands.mono fun d now => now.1)) fun _ => meets_pure fun w stands => stands.mono ?_
          rintro d ⟨d₁, ⟨rfl, -⟩, rfl⟩
          exact .inr ⟨content, rfl, text ▸ differs, rfl⟩
      · rename_i same
        exact meets_pure fun w stands => stands.mono fun d now => .inl ⟨not_not.mp same, now.1⟩
    · refine meets_bind meets_stat fun found => ?_
      cases found with
      | some stat =>
        refine meets_pure fun w stands => stands.mono ?_
        rintro d ⟨⟨same, rfl⟩ | ⟨content, -, differs, rfl⟩, found⟩
        · refine ⟨?_, fun _ => rfl⟩
          rintro (bad | dir | ⟨-, linked, unresolved⟩)
          · exact nomatch bad.symm.trans plain
          · exact file dir
          · obtain ⟨target, link⟩ := Option.isSome_iff_exists.mp linked
            rw [present, linkAt_eq_some.mp link] at found
            exact nomatch found.trans unresolved
        · refine ⟨?_, fun inPlace => absurd inPlace.1 differs⟩
          rintro (bad | dir | ⟨same, -⟩)
          · exact nomatch bad.symm.trans plain
          · exact file dir
          · exact differs same
      | none =>
        refine meets_bind (meets_symlink.weaken (fun _ => id) (fun _ _ => id) fun _ w stands => stands.mono ?_) fun _ =>
          meets_pure fun w stands => stands.mono ?_
        · rintro d ⟨⟨same, rfl⟩ | ⟨content, text, differs, rfl⟩, absent⟩ cases'
          · rfl
          · rcases cases' with (bad | dir | ⟨same, -⟩) | ⟨same, -⟩ | ⟨content', text', -, there⟩ | ⟨same, -⟩
            · exact nomatch bad.symm.trans plain
            · exact absurd dir file
            · exact absurd same differs
            · exact absurd same differs
            · obtain rfl := Option.some.inj (text'.symm.trans text)
              exact nomatch absent.trans there
            · exact absurd same differs
        · rintro d ⟨d₁, ⟨⟨same, rfl⟩ | ⟨content, -, differs, -⟩, absent⟩, free, -⟩
          · refine ⟨?_, fun inPlace => nomatch absent.trans inPlace.2⟩
            rintro (bad | dir | ⟨-, linked, -⟩)
            · exact nomatch bad.symm.trans plain
            · exact file dir
            · obtain ⟨target, link⟩ := Option.isSome_iff_exists.mp linked
              exact nomatch free.symm.trans (linkAt_eq_some.mp link)
          · refine ⟨?_, fun inPlace => absurd inPlace.1 differs⟩
            rintro (bad | dir | ⟨same, -⟩)
            · exact nomatch bad.symm.trans plain
            · exact file dir
            · exact differs same

theorem safe_files (sites : Sites inv d₀) (texts : ∀ f ∈ files, f.text ≠ none) (safe : SafeFiles inv resolves d₀ files)
    (done : Installed) : Meets env (Still fs base d₀) (fold files done (installOne inv))
      (fun _ => Stands fs base fun _ => True) (fun _ => Still fs base d₀) := by
  induction files generalizing done with
  | nil => exact meets_ret fun w still => still.mono fun _ _ => trivial
  | cons f rest ih =>
    refine meets_andThen ((still_installOne sites f (texts f (by simp)) done).weaken (fun _ => id) (fun _ _ => id)
      fun e w stands => stands.mono fun d same => same ?_) fun done' => ?_
    · rcases safe with blocked | ⟨inPlace, -⟩ | ⟨half, -⟩
      · exact .inl blocked
      · exact .inr (.inl inPlace)
      · exact .inr (.inr half)
    · rcases safe with blocked | ⟨inPlace, later⟩ | ⟨-, rfl⟩
      · exact fun w ⟨_, _, _, allowed, _⟩ => absurd blocked allowed
      · exact (ih (fun g member => texts g (by simp [member])) later done').weaken
          (fun w stands => stands.mono fun d now => now.2 inPlace) (fun _ _ => id) fun _ _ => id
      · exact meets_ret fun w stands => stands.mono fun _ _ => trivial

theorem safe_remove (sites : Sites inv d₀) {remove : List String} (safe : Safe inv files resolves d₀ remove) (done : Installed) :
    Meets env (Still fs base d₀) (fold remove done (removeOne inv files))
      (fun _ => Stands fs base fun d => files = [] ∨ SafeFiles inv resolves d₀ files ∧ d = d₀) (fun _ => Still fs base d₀) := by
  induction remove generalizing done with
  | nil => exact meets_ret fun w still => still.mono fun d same => .inr ⟨safe, same⟩
  | cons name rest ih =>
    refine meets_andThen ((still_removeOne sites name done).weaken (fun _ => id) (fun _ _ => id)
      fun e w stands => stands.mono fun d same => same ?_) fun done' => ?_
    · rcases safe with blocked | ⟨gone, -⟩ | ⟨half, -⟩
      · exact .inl blocked
      · exact .inr (.inl gone)
      · exact .inr (.inr half)
    · rcases safe with blocked | ⟨gone, later⟩ | ⟨-, rfl, none⟩
      · exact fun w ⟨_, _, _, allowed, _⟩ => absurd blocked allowed
      · exact (ih later done').weaken (fun w stands => stands.mono fun d now => now.2 gone) (fun _ _ => id) fun _ _ => id
      · exact meets_ret fun w stands => stands.mono fun _ _ => .inl none

/-- What holds of a call that throws before the test: all is as before. -/
def Untested (inv : Inventory) (fs : Files env resolves bin) (base : List (Event Machine)) (d₀ : Disk) (more : List (Event Machine)) :
    Prop :=
  (∀ event ∈ more, event.call ≠ tests inv) → fs.disk (base ++ more) = d₀

theorem safe_install (sites : Sites inv d₀) (texts : ∀ f ∈ files, f.text ≠ none) {remove : List String}
    (safe : Safe inv files resolves d₀ remove) :
    Meets env (Still fs base d₀) (install inv files remove) (fun _ _ => True)
      (fun _ => Since base fun more _ => Untested inv fs base d₀ more) := by
  have untested (w : World Machine Unit) (still : Still fs base d₀ w) : Since base (fun more _ => Untested inv fs base d₀ more) w :=
    Since.mono still fun _ _ now _ => now.2
  unfold install
  refine meets_bind ((safe_remove sites safe {}).weaken (fun _ => id) (fun _ _ => id) fun _ => untested) fun removed => ?_
  refine meets_bind (M := fun _ => Since base fun _ _ => True) ?_ fun done => ?_
  · rintro w ⟨more, trace, all, none | ⟨later, same⟩⟩
    · subst none
      exact ⟨more, trace, trivial⟩
    · exact (safe_files sites texts later removed w ⟨more, trace, all, same⟩).mono (fun _ _ => Since.onward) fun _ => untested
  · refine meets_ite (fun _ => meets_pure fun _ _ => trivial) fun _ => ?_
    -- The test is made: nothing is claimed of what comes after it.
    refine meets_bind (M := fun _ => Since base fun more _ => ∃ event ∈ more, event.call = tests inv)
      (meets_ask_at fun more clock _ => ⟨_, List.mem_append_right _ (List.mem_singleton_self _), rfl⟩) fun t => ?_
    have made {p : Exec Unit} : Meets env (Since base fun more _ => ∃ event ∈ more, event.call = tests inv) p
        (fun _ _ => True) (fun _ => Since base fun more _ => Untested inv fs base d₀ more) := by
      have kept : Meets env (Since base fun more _ => ∃ event ∈ more, event.call = tests inv) p
          (fun _ => Since base fun more _ => (∃ event ∈ more, event.call = tests inv) ∧ True)
          (fun _ => Since base fun more _ => (∃ event ∈ more, event.call = tests inv) ∧ True) :=
        Meets.with_kept (fun more later ⟨event, member, same⟩ => ⟨event, List.mem_append_left _ member, same⟩) (meets_onward p)
      refine kept.weaken (fun _ => id) (fun _ _ _ => trivial) fun _ w since => since.mono ?_
      rintro more _ ⟨⟨event, member, same⟩, -⟩ none
      exact absurd same (none event member)
    exact made

end

/-! ### Where it is not safe -/

/-- A change that was made. -/
def changed : Event Machine → Bool
  | ⟨.writeFile .., .ok _, _⟩ | ⟨.removeFile .., .ok _, _⟩ | ⟨.symlink .., .ok _, _⟩ => true
  | _ => false

/-- A machine that refuses everything once one thing was changed. -/
def touchy (d₀ : Disk) (resolves : Disk → String → Bool) : Environment Machine :=
  machineOf d₀ resolves (fun past => past.any changed) 0

section
variable {inv : Inventory} {files : List VhostFile} {d₀ : Disk} {resolves : Disk → String → Bool} {path : String}
  {privileged : Bool}

/-- Nothing was changed yet. -/
def Calm (d₀ : Disk) (more : List (Event Machine)) : Prop :=
  (∀ event ∈ more, places event.call = true) ∧ more.any changed = false ∧ diskAfter d₀ more = d₀

/-- Something was changed. -/
def Moved (d₀ : Disk) (more : List (Event Machine)) : Prop :=
  (∀ event ∈ more, places event.call = true) ∧ more.any changed = true ∧ diskAfter d₀ more ≠ d₀

/-- The events as `P` says. -/
abbrev Events (P : List (Event Machine) → Prop) : World Machine Unit → Prop := Since [] fun more _ => P more

theorem Calm.next {more : List (Event Machine)} {event : Event Machine} (calm : Calm d₀ more) (placing : places event.call = true)
    (quiet : changed event = false) (same : nextDisk d₀ event = d₀) : Calm d₀ (more ++ [event]) := by
  obtain ⟨all, none, disk⟩ := calm
  exact ⟨places_concat all placing, by simp [none, quiet], by rw [diskAfter_snoc, disk, same]⟩

theorem Calm.moves {more : List (Event Machine)} {event : Event Machine} (calm : Calm d₀ more) (placing : places event.call = true)
    (change : changed event = true) (differs : nextDisk d₀ event ≠ d₀) : Moved d₀ (more ++ [event]) := by
  obtain ⟨all, -, disk⟩ := calm
  exact ⟨places_concat all placing, by simp [change], by rw [diskAfter_snoc, disk]; exact differs⟩

theorem Moved.next {more : List (Event Machine)} {event : Event Machine} (moved : Moved d₀ more) (placing : places event.call = true)
    (same : ∀ d, nextDisk d event = d) : Moved d₀ (more ++ [event]) := by
  obtain ⟨all, change, differs⟩ := moved
  exact ⟨places_concat all placing, by simp [change], by rw [diskAfter_snoc, same]; exact differs⟩

theorem never {w : World Machine Unit} : ¬ Events (fun _ => False) w := fun ⟨_, _, no⟩ => no

/-- What is not refused, and changes nothing. -/
theorem calm_call {α : Type} {call : Call} {read : Machine.Answer call → Except String α} {a : α}
    {err : Failure → World Machine Unit → Prop} (placing : places call = true)
    (answer : ∀ more, Calm d₀ more → read ((touchy d₀ resolves).answer more call) = .ok a)
    (quiet : ∀ past clock, changed ⟨call, (touchy d₀ resolves).answer past call, clock⟩ = false ∧
      nextDisk d₀ ⟨call, (touchy d₀ resolves).answer past call, clock⟩ = d₀) :
    Meets (touchy d₀ resolves) (Events (Calm d₀)) (Exec.orReject call read) (fun b => Events fun more => Calm d₀ more ∧ b = a) err := by
  have meets : Meets (touchy d₀ resolves) (Events (Calm d₀)) (Exec.orReject call read)
      (fun b => Events fun more => Calm d₀ more ∧ b = a) (fun _ => Events fun _ => False) := by
    refine meets_orReject_at (fun more clock b calm read => ?_) fun more clock message calm read => ?_
    · exact ⟨calm.next placing (quiet _ clock).1 (quiet _ clock).2, Except.ok.inj (read.symm.trans (answer more calm))⟩
    · exact nomatch read.symm.trans (answer more calm)
  exact meets.weaken (fun _ => id) (fun _ _ => id) fun _ _ no => absurd no never

/-- What is not refused, and changes something. -/
theorem calm_change {call : Call} {read : Machine.Answer call → Except String Unit} {d : Disk}
    {err : Failure → World Machine Unit → Prop} (placing : places call = true) (differs : d ≠ d₀)
    (answer : ∀ more, Calm d₀ more → read ((touchy d₀ resolves).answer more call) = .ok ())
    (change : ∀ more clock, Calm d₀ more → changed ⟨call, (touchy d₀ resolves).answer more call, clock⟩ = true ∧
      nextDisk d₀ ⟨call, (touchy d₀ resolves).answer more call, clock⟩ = d) :
    Meets (touchy d₀ resolves) (Events (Calm d₀)) (Exec.orReject call read)
      (fun _ => Events fun more => Moved d₀ more ∧ diskAfter d₀ more = d) err := by
  have meets : Meets (touchy d₀ resolves) (Events (Calm d₀)) (Exec.orReject call read)
      (fun _ => Events fun more => Moved d₀ more ∧ diskAfter d₀ more = d) (fun _ => Events fun _ => False) := by
    refine meets_orReject_at (fun more clock b calm read => ?_) fun more clock message calm read => ?_
    · obtain ⟨moves, next⟩ := change more clock calm
      refine ⟨calm.moves placing moves (next ▸ differs), ?_⟩
      rw [diskAfter_snoc, calm.2.2]
      exact next
    · exact nomatch read.symm.trans (answer more calm)
  exact meets.weaken (fun _ => id) (fun _ _ => id) fun _ _ no => absurd no never

/-- What is refused, once something was changed. -/
theorem moved_call {α : Type} {call : Call} {read : Machine.Answer call → Except String α}
    {ok : α → World Machine Unit → Prop} (placing : places call = true)
    (answer : ∀ more, more.any changed = true → ∃ message, read ((touchy d₀ resolves).answer more call) = .error message)
    (same : ∀ more clock, more.any changed = true → ∀ d, nextDisk d ⟨call, (touchy d₀ resolves).answer more call, clock⟩ = d) :
    Meets (touchy d₀ resolves) (Events (Moved d₀)) (Exec.orReject call read) ok (fun _ => Events (Moved d₀)) := by
  have meets : Meets (touchy d₀ resolves) (Events (Moved d₀)) (Exec.orReject call read)
      (fun _ => Events fun _ => False) (fun _ => Events (Moved d₀)) := by
    refine meets_orReject_at (fun more clock b moved read => ?_) fun more clock message moved read => ?_
    · obtain ⟨message, refusal⟩ := answer more moved.2.1
      exact nomatch read.symm.trans refusal
    · exact moved.next placing (same more clock moved.2.1)
  exact meets.weaken (fun _ => id) (fun _ _ no => absurd no never) fun _ _ => id

theorem reading_eq {d : Disk} (noLink : NoLink d path) (file : d path ≠ some .dir) : reading d path = .ok (textAt d path) := by
  unfold reading
  split
  · exact absurd ‹_› file
  · exact absurd ‹_› (noLink _)
  · rfl

theorem calm_readFile {err : Failure → World Machine Unit → Prop} (noLink : NoLink d₀ path) (file : d₀ path ≠ some .dir) :
    Meets (touchy d₀ resolves) (Events (Calm d₀)) (Exec.readFile path privileged)
      (fun text => Events fun more => Calm d₀ more ∧ text = textAt d₀ path) err := by
  refine calm_call rfl (fun more calm => ?_) fun _ _ => ⟨rfl, rfl⟩
  show unrefused (more.any changed) (reading (diskAfter d₀ more) path) = _
  rw [calm.2.1, calm.2.2]
  exact reading_eq noLink file

theorem calm_readDir {ok : Option String → World Machine Unit → Prop} (dir : d₀ path = some .dir) :
    Meets (touchy d₀ resolves) (Events (Calm d₀)) (Exec.readFile path privileged) ok (fun _ => Events (Calm d₀)) := by
  have answer (more : List (Event Machine)) (calm : Calm d₀ more) :
      (touchy d₀ resolves).answer more (.readFile path privileged) = Except.error "EISDIR" := by
    show unrefused (more.any changed) (reading (diskAfter d₀ more) path) = _
    rw [calm.2.1, calm.2.2]
    show reading d₀ path = _
    rw [reading, dir]
  have meets : Meets (touchy d₀ resolves) (Events (Calm d₀)) (Exec.readFile path privileged)
      (fun _ => Events fun _ => False) (fun _ => Events (Calm d₀)) := by
    refine meets_orReject_at (fun more clock b calm read => ?_) fun more clock message calm read => ?_
    · exact nomatch read.symm.trans (answer more calm)
    · exact calm.next rfl rfl rfl
  exact meets.weaken (fun _ => id) (fun _ _ no => absurd no never) fun _ _ => id

theorem moved_readFile {ok : Option String → World Machine Unit → Prop} :
    Meets (touchy d₀ resolves) (Events (Moved d₀)) (Exec.readFile path privileged) ok (fun _ => Events (Moved d₀)) := by
  refine moved_call rfl (fun more change => ⟨"EACCES", ?_⟩) fun _ _ _ _ => rfl
  show unrefused (more.any changed) _ = _
  rw [change]
  rfl

theorem set_ne {d : Disk} {node : Option Node} (differs : d path ≠ node) : d.set path node ≠ d :=
  fun same => differs ((congrFun same path).symm.trans (Disk.set_same d path node))

theorem calm_readlink {err : Failure → World Machine Unit → Prop} :
    Meets (touchy d₀ resolves) (Events (Calm d₀)) (Exec.readlink path)
      (fun target => Events fun more => Calm d₀ more ∧ target = linkAt d₀ path) err := by
  refine meets_ask_at fun more clock calm => ⟨calm.next rfl rfl rfl, ?_⟩
  show linkAt (diskAfter d₀ more) path = _
  rw [calm.2.2]

theorem stat_isSome {d : Disk} : Option.isSome (if present resolves d path then some ({} : Stat) else none) =
    present resolves d path := by
  split <;> simp_all

theorem calm_stat {err : Failure → World Machine Unit → Prop} :
    Meets (touchy d₀ resolves) (Events (Calm d₀)) (Exec.stat path)
      (fun found => Events fun more => Calm d₀ more ∧ found.isSome = present resolves d₀ path) err := by
  refine meets_ask_at fun more clock calm => ⟨calm.next rfl rfl rfl, ?_⟩
  exact (stat_isSome (d := diskAfter d₀ more)).trans (by rw [calm.2.2])

theorem moved_stat {d : Disk} {err : Failure → World Machine Unit → Prop} :
    Meets (touchy d₀ resolves) (Events fun more => Moved d₀ more ∧ diskAfter d₀ more = d) (Exec.stat path)
      (fun found => Events fun more => Moved d₀ more ∧ found.isSome = present resolves d path) err := by
  refine meets_ask_at fun more clock ⟨moved, disk⟩ => ⟨moved.next rfl fun _ => rfl, ?_⟩
  exact (stat_isSome (d := diskAfter d₀ more)).trans (by rw [disk])

theorem calm_removeFile {err : Failure → World Machine Unit → Prop} (there : d₀ path ≠ none) (file : d₀ path ≠ some .dir) :
    Meets (touchy d₀ resolves) (Events (Calm d₀)) (Exec.removeFile path privileged) (fun _ => Events (Moved d₀)) err := by
  have answer (more : List (Event Machine)) (calm : Calm d₀ more) :
      (touchy d₀ resolves).answer more (.removeFile path privileged) = Except.ok () := by
    show unrefused (more.any changed) (removing (diskAfter d₀ more) path) = _
    rw [calm.2.1, calm.2.2]
    show removing d₀ path = _
    unfold removing
    split
    · exact absurd ‹_› file
    · rfl
  refine (calm_change rfl (set_ne there) answer fun more clock calm => ?_).weaken (fun _ => id)
    (fun _ _ since => since.mono fun _ _ now => now.1) fun _ _ => id
  rw [answer more calm]
  exact ⟨rfl, rfl⟩

theorem calm_writeFile {content : String} {err : Failure → World Machine Unit → Prop} (noLink : NoLink d₀ path)
    (file : d₀ path ≠ some .dir) (differs : d₀ path ≠ some (.file (bytesOf content))) :
    Meets (touchy d₀ resolves) (Events (Calm d₀)) (Exec.writeFile path content privileged)
      (fun _ => Events fun more => Moved d₀ more ∧ diskAfter d₀ more = d₀.set path (some (.file (bytesOf content)))) err := by
  have answer (more : List (Event Machine)) (calm : Calm d₀ more) :
      (touchy d₀ resolves).answer more (.writeFile path content privileged) = Except.ok () := by
    show unrefused (more.any changed) (writing (diskAfter d₀ more) path) = _
    rw [calm.2.1, calm.2.2]
    show writing d₀ path = _
    unfold writing
    split
    · exact absurd ‹_› file
    · exact absurd ‹_› (noLink _)
    · rfl
  refine calm_change rfl (set_ne differs) answer fun more clock calm => ?_
  rw [answer more calm]
  exact ⟨rfl, rfl⟩

theorem calm_symlink {target : String} {err : Failure → World Machine Unit → Prop} (free : d₀ path = none) :
    Meets (touchy d₀ resolves) (Events (Calm d₀)) (Exec.symlink target path privileged) (fun _ => Events (Moved d₀)) err := by
  have answer (more : List (Event Machine)) (calm : Calm d₀ more) :
      (touchy d₀ resolves).answer more (.symlink target path privileged) = Except.ok () := by
    show unrefused (more.any changed) (linking (diskAfter d₀ more) path) = _
    rw [calm.2.1, calm.2.2]
    show linking d₀ path = _
    rw [linking, free]
  have differs : d₀ path ≠ some (.link target) := by simp [free]
  refine (calm_change rfl (set_ne differs) answer fun more clock calm => ?_).weaken (fun _ => id)
    (fun _ _ since => since.mono fun _ _ now => now.1) fun _ _ => id
  rw [answer more calm]
  exact ⟨rfl, rfl⟩

/-- What stands where a link is to be made is in its way. -/
theorem calm_inTheWay {target : String} {ok : Unit → World Machine Unit → Prop} (there : d₀ path ≠ none) :
    Meets (touchy d₀ resolves) (Events (Calm d₀)) (Exec.symlink target path privileged) ok (fun _ => Events (Calm d₀)) := by
  have answer (more : List (Event Machine)) (calm : Calm d₀ more) :
      (touchy d₀ resolves).answer more (.symlink target path privileged) = Except.error "EEXIST" := by
    show unrefused (more.any changed) (linking (diskAfter d₀ more) path) = _
    rw [calm.2.1, calm.2.2]
    show linking d₀ path = _
    unfold linking
    split
    · exact absurd ‹_› there
    · rfl
  have meets : Meets (touchy d₀ resolves) (Events (Calm d₀)) (Exec.symlink target path privileged)
      (fun _ => Events fun _ => False) (fun _ => Events (Calm d₀)) := by
    refine meets_orReject_at (fun more clock b calm read => ?_) fun more clock message calm read => ?_
    · exact nomatch read.symm.trans (answer more calm)
    · refine calm.next rfl ?_ ?_
      · exact congrArg (fun given => changed ⟨.symlink target path privileged, given, clock⟩) (answer more calm)
      · exact congrArg (fun given => nextDisk d₀ ⟨.symlink target path privileged, given, clock⟩) (answer more calm)
  exact meets.weaken (fun _ => id) (fun _ _ no => absurd no never) fun _ _ => id

theorem moved_removeFile {ok : Unit → World Machine Unit → Prop} :
    Meets (touchy d₀ resolves) (Events (Moved d₀)) (Exec.removeFile path privileged) ok (fun _ => Events (Moved d₀)) := by
  have answer (more : List (Event Machine)) (change : more.any changed = true) :
      (touchy d₀ resolves).answer more (.removeFile path privileged) = Except.error "EACCES" := by
    show unrefused (more.any changed) _ = _
    rw [change]
    rfl
  refine moved_call rfl (fun more change => ⟨_, answer more change⟩) fun more clock change d => ?_
  rw [answer more change]
  rfl

theorem moved_symlink {target : String} {ok : Unit → World Machine Unit → Prop} :
    Meets (touchy d₀ resolves) (Events (Moved d₀)) (Exec.symlink target path privileged) ok (fun _ => Events (Moved d₀)) := by
  have answer (more : List (Event Machine)) (change : more.any changed = true) :
      (touchy d₀ resolves).answer more (.symlink target path privileged) = Except.error "EACCES" := by
    show unrefused (more.any changed) _ = _
    rw [change]
    rfl
  refine moved_call rfl (fun more change => ⟨_, answer more change⟩) fun more clock change d => ?_
  rw [answer more change]
  rfl

/-- Taking a vhost out, on that machine. -/
theorem calm_removeOne (sites : Sites inv d₀) (name : String) (done : Installed) :
    Meets (touchy d₀ resolves) (Events (Calm d₀)) (removeOne inv files done name)
      (fun _ => Events fun more => (Calm d₀ more ∧ Gone inv d₀ name) ∨ (Moved d₀ more ∧ HalfThere inv d₀ name))
      (fun _ => Events fun more => (Calm d₀ more ∧ BlockedName inv files d₀ name) ∨ Moved d₀ more) := by
  unfold removeOne
  split
  · rename_i refused
    refine meets_throw fun w since => since.mono fun more _ calm => .inl ⟨calm, ?_⟩
    rcases refused with bad | known
    · exact .inl (by simpa using bad)
    · exact .inr (.inl (by simpa [List.any_eq_true] using known))
  · rename_i allowed
    obtain ⟨plain, others⟩ := removable allowed
    have noLink := noLink_available sites plain
    have blocked (why : BlockedName inv files d₀ name) (w : World Machine Unit) (calm : Events (Calm d₀) w) :
        Events (fun more => (Calm d₀ more ∧ BlockedName inv files d₀ name) ∨ Moved d₀ more) w :=
      calm.mono fun more _ now => .inl ⟨now, why⟩
    have moved (w : World Machine Unit) (moved : Events (Moved d₀) w) :
        Events (fun more => (Calm d₀ more ∧ BlockedName inv files d₀ name) ∨ Moved d₀ more) w :=
      moved.mono fun more _ now => .inr now
    by_cases dir : d₀ (available inv name) = some .dir
    · refine meets_bind (calm_readDir dir |>.weaken (fun _ => id) (fun _ _ => id)
        fun _ => blocked (.inr (.inr (.inl dir)))) fun prevText => meets_absurd
    refine meets_bind (calm_readFile noLink dir) fun prevText => ?_
    refine meets_given (F := prevText = textAt d₀ (available inv name)) (fun w ⟨_, _, now⟩ => now.2) ?_
    rintro rfl
    refine meets_bind (calm_readlink.weaken (fun w since => since.mono fun _ _ now => now.1) (fun _ _ => id) fun _ _ => id)
      fun target => ?_
    refine meets_given (F := target = linkAt d₀ (enabled inv name)) (fun w ⟨_, _, now⟩ => now.2) ?_
    rintro rfl
    refine meets_bind (M := fun there => Events fun more => Calm d₀ more ∧ there = (d₀ (enabled inv name)).isSome) ?_
      fun there => ?_
    · cases target : linkAt d₀ (enabled inv name) with
      | some destination =>
        refine meets_ret fun w since => since.mono fun more _ now => ⟨now.1, ?_⟩
        rw [linkAt_eq_some.mp target]
        rfl
      | none =>
        refine meets_bind (calm_stat.weaken (fun w since => since.mono fun _ _ now => now.1) (fun _ _ => id) fun _ _ => id)
          fun found => meets_ret fun w since => since.mono ?_
        rintro more _ ⟨calm, found⟩
        exact ⟨calm, found.trans (present_of_noLink (noLink_of_linkAt target))⟩
    refine meets_given (F := there = (d₀ (enabled inv name)).isSome) (fun w ⟨_, _, now⟩ => now.2) ?_
    rintro rfl
    by_cases absent : d₀ (enabled inv name) = none
    · refine meets_bind (M := fun _ => Events (Calm d₀)) ?_ fun unlinked => ?_
      · rw [absent]
        exact meets_pure fun w since => since.mono fun _ _ now => now.1
      · rcases textAt_of_noLink noLink dir with ⟨nothing, read⟩ | ⟨bytes, here, read⟩
        · rw [read]
          refine meets_bind (M := fun _ => Events (Calm d₀)) (meets_pure fun _ => id) fun _ => meets_pure fun w since =>
            since.mono fun more _ calm => .inl ⟨calm, nothing, absent⟩
        · rw [read]
          refine meets_bind (M := fun _ => Events (Moved d₀)) (meets_bind (calm_removeFile (by simp [here]) dir) fun _ =>
            meets_pure fun _ => id) fun _ => meets_pure fun w since => since.mono fun more _ moved => .inr ⟨moved, .inr ⟨?_, absent⟩⟩
          rw [here]
          rfl
    · rw [if_pos (Option.isSome_iff_ne_none.mpr absent)]
      refine meets_bind (M := fun _ => Events (Moved d₀)) ?_ fun unlinked => ?_
      · by_cases dir' : d₀ (enabled inv name) = some .dir
        · have unlinked : linkAt d₀ (enabled inv name) = none := by rw [linkAt, dir']
          rw [unlinked]
          refine meets_bind (meets_bind ((calm_readDir dir').weaken (fun w since => since.mono fun _ _ now => now.1)
            (fun _ _ => id) fun _ => blocked (.inr (.inr (.inr dir')))) fun _ => meets_absurd) fun _ => meets_absurd
        · refine meets_bind (M := fun _ => Events (Calm d₀)) ?_ fun undo => meets_bind (calm_removeFile absent dir')
            fun _ => meets_pure fun _ => id
          cases target : linkAt d₀ (enabled inv name) with
          | some destination => exact meets_ret fun w since => since.mono fun _ _ now => now.1
          | none =>
            refine meets_bind ((calm_readFile (noLink_of_linkAt target) dir').weaken (fun w since => since.mono fun _ _ now => now.1)
              (fun _ _ => id) fun _ _ => id) fun copy => meets_ret fun w since => since.mono fun _ _ now => now.1
      · rcases textAt_of_noLink noLink dir with ⟨nothing, read⟩ | ⟨bytes, here, read⟩
        · rw [read]
          refine meets_bind (M := fun _ => Events (Moved d₀)) (meets_pure fun _ => id) fun _ => meets_pure fun w since =>
            since.mono fun more _ moved => .inr ⟨moved, .inl ⟨nothing, absent⟩⟩
        · rw [read]
          refine meets_bind (meets_bind (moved_removeFile.weaken (fun _ => id) (fun _ _ => id) fun _ => moved) fun _ =>
            meets_absurd) fun _ => meets_absurd

theorem textOf_bytesOf (text : String) : textOf (bytesOf text) = text := by
  rw [textOf, bytesOf, Utf8.decode_encode, String.ofList_toList]

/-- Installing a vhost, on that machine. -/
theorem calm_installOne (sites : Sites inv d₀) (f : VhostFile) (given : f.text ≠ none) (done : Installed) :
    Meets (touchy d₀ resolves) (Events (Calm d₀)) (installOne inv done f)
      (fun _ => Events fun more => (Calm d₀ more ∧ InPlace inv resolves d₀ f) ∨ (Moved d₀ more ∧ HalfPlaced inv resolves d₀ f))
      (fun _ => Events fun more => (Calm d₀ more ∧ BlockedFile inv resolves d₀ f) ∨ Moved d₀ more) := by
  have blocked (why : BlockedFile inv resolves d₀ f) (w : World Machine Unit) (calm : Events (Calm d₀) w) :
      Events (fun more => (Calm d₀ more ∧ BlockedFile inv resolves d₀ f) ∨ Moved d₀ more) w :=
    calm.mono fun more _ now => .inl ⟨now, why⟩
  unfold installOne
  split
  · rename_i bad
    exact meets_throw (blocked (.inl (by simpa using bad)))
  · rename_i allowed
    have noLink := noLink_available sites (show plainName f.name = true by simpa using allowed)
    by_cases dir : d₀ (available inv f.name) = some .dir
    · refine meets_bind (calm_readDir dir |>.weaken (fun _ => id) (fun _ _ => id)
        fun _ => blocked (.inr (.inl dir))) fun prevText => meets_absurd
    refine meets_bind (calm_readFile noLink dir) fun prev => ?_
    refine meets_given (F := prev = textAt d₀ (available inv f.name)) (fun w ⟨_, _, now⟩ => now.2) ?_
    rintro rfl
    by_cases same : textAt d₀ (available inv f.name) = f.text
    · refine meets_bind (M := fun _ => Events (Calm d₀)) ?_ fun written => ?_
      · rw [if_neg (not_not.mpr same)]
        exact meets_pure fun w since => since.mono fun _ _ now => now.1
      refine meets_bind calm_stat fun found => ?_
      cases found with
      | some stat =>
        exact meets_pure fun w since => since.mono fun more _ now => .inl ⟨now.1, same, now.2.symm⟩
      | none =>
        by_cases free : d₀ (enabled inv f.name) = none
        · refine meets_bind ((calm_symlink free).weaken (fun w since => since.mono fun _ _ now => now.1) (fun _ _ => id)
            fun _ _ => id) fun _ => meets_pure fun w since => since.mono fun more _ moved => .inr ⟨moved, .inr ⟨same, free⟩⟩
        · refine meets_given (F := present resolves d₀ (enabled inv f.name) = false) (fun w ⟨_, _, now⟩ => now.2.symm)
            fun nowhere => ?_
          have link : (linkAt d₀ (enabled inv f.name)).isSome ∧ resolves d₀ (enabled inv f.name) = false := by
            unfold present at nowhere
            split at nowhere
            · exact absurd ‹_› free
            · rename_i target here
              exact ⟨by rw [linkAt, here]; rfl, nowhere⟩
            · exact nomatch nowhere
          refine meets_bind ((calm_inTheWay free).weaken (fun w since => since.mono fun _ _ now => now.1) (fun _ _ => id)
            fun _ => blocked (.inr (.inr ⟨same, link⟩))) fun _ => meets_absurd
    · cases text : f.text with
      | none => exact absurd text given
      | some content =>
        have differs : d₀ (available inv f.name) ≠ some (.file (bytesOf content)) := by
          intro here
          refine same (text ▸ textAt_eq_some.mpr ⟨bytesOf content, here, ?_⟩)
          rw [textOf_bytesOf]
        refine meets_bind (M := fun _ => Events fun more => Moved d₀ more ∧
          diskAfter d₀ more = d₀.set (available inv f.name) (some (.file (bytesOf content)))) ?_ fun written => ?_
        · rw [if_pos (text ▸ same)]
          refine meets_bind ((calm_writeFile noLink dir differs).weaken (fun w since => since.mono fun _ _ now => now.1)
            (fun _ _ => id) fun _ _ => id) fun _ => meets_pure fun _ => id
        refine meets_bind moved_stat fun found => ?_
        cases found with
        | some stat =>
          exact meets_pure fun w since => since.mono fun more _ now =>
            .inr ⟨now.1, .inl ⟨content, text, same, now.2.symm⟩⟩
        | none =>
          refine meets_bind (moved_symlink.weaken (fun w since => since.mono fun _ _ now => now.1) (fun _ _ => id)
            fun _ w since => since.mono fun _ _ now => .inr now) fun _ => meets_absurd

theorem moved_removeOne (name : String) (done : Installed) {ok : Installed → World Machine Unit → Prop} :
    Meets (touchy d₀ resolves) (Events (Moved d₀)) (removeOne inv files done name) ok (fun _ => Events (Moved d₀)) := by
  unfold removeOne
  split
  · exact meets_throw fun _ => id
  · exact meets_bind moved_readFile fun _ => meets_absurd

theorem moved_installOne (f : VhostFile) (done : Installed) {ok : Installed → World Machine Unit → Prop} :
    Meets (touchy d₀ resolves) (Events (Moved d₀)) (installOne inv done f) ok (fun _ => Events (Moved d₀)) := by
  unfold installOne
  split
  · exact meets_throw fun _ => id
  · exact meets_bind moved_readFile fun _ => meets_absurd

theorem moved_files (some' : files ≠ []) (done : Installed) {ok : Installed → World Machine Unit → Prop} :
    Meets (touchy d₀ resolves) (Events (Moved d₀)) (fold files done (installOne inv)) ok (fun _ => Events (Moved d₀)) := by
  cases files with
  | nil => exact absurd rfl some'
  | cons f rest => exact meets_andThen (moved_installOne f done) fun _ => meets_absurd

/-- Where it is not safe, something is changed before a call is refused. -/
theorem unsafe_files (sites : Sites inv d₀) (texts : ∀ f ∈ files, f.text ≠ none) (open' : ¬ SafeFiles inv resolves d₀ files)
    (done : Installed) {ok : Installed → World Machine Unit → Prop} :
    Meets (touchy d₀ resolves) (Events (Calm d₀)) (fold files done (installOne inv)) ok (fun _ => Events (Moved d₀)) := by
  induction files generalizing done with
  | nil => exact absurd trivial open'
  | cons f rest ih =>
    simp only [SafeFiles, not_or, not_and] at open'
    obtain ⟨allowed, later, last⟩ := open'
    refine meets_andThen ((calm_installOne sites f (texts f (by simp)) done).weaken (fun _ => id) (fun _ _ => id)
      fun e w since => since.mono ?_) fun done' => ?_
    · rintro more _ (⟨-, blocked⟩ | moved)
      · exact absurd blocked allowed
      · exact moved
    · rintro w ⟨more, trace, ⟨calm, inPlace⟩ | ⟨moved, half⟩⟩
      · exact ih (fun g member => texts g (by simp [member])) (later inPlace) done' w ⟨more, trace, calm⟩
      · exact moved_files (last half) done' w ⟨more, trace, moved⟩

theorem unsafe_remove (sites : Sites inv d₀) {remove : List String} (open' : ¬ Safe inv files resolves d₀ remove)
    (done : Installed) :
    Meets (touchy d₀ resolves) (Events (Calm d₀)) (fold remove done (removeOne inv files))
      (fun _ => Events fun more => (Calm d₀ more ∧ ¬ SafeFiles inv resolves d₀ files) ∨ (Moved d₀ more ∧ files ≠ []))
      (fun _ => Events (Moved d₀)) := by
  induction remove generalizing done with
  | nil => exact meets_ret fun w since => since.mono fun more _ calm => .inl ⟨calm, open'⟩
  | cons name rest ih =>
    simp only [Safe, not_or, not_and] at open'
    obtain ⟨allowed, later, last⟩ := open'
    refine meets_andThen ((calm_removeOne sites name done).weaken (fun _ => id) (fun _ _ => id)
      fun e w since => since.mono ?_) fun done' => ?_
    · rintro more _ (⟨-, blocked⟩ | moved)
      · exact absurd blocked allowed
      · exact moved
    · rintro w ⟨more, trace, ⟨calm, gone⟩ | ⟨moved, half⟩⟩
      · exact ih (later gone) done' w ⟨more, trace, calm⟩
      · cases rest with
        | nil => exact ⟨more, trace, .inr ⟨moved, last half rfl⟩⟩
        | cons other rest =>
          exact (meets_andThen (moved_removeOne other done') fun _ => meets_absurd)
            w ⟨more, trace, moved⟩

theorem unsafe_install (sites : Sites inv d₀) (texts : ∀ f ∈ files, f.text ≠ none) {remove : List String}
    (open' : ¬ Safe inv files resolves d₀ remove) :
    Meets (touchy d₀ resolves) (Events (Calm d₀)) (install inv files remove) (fun _ _ => False) (fun _ => Events (Moved d₀)) := by
  unfold install
  refine meets_bind (unsafe_remove sites open' {}) fun removed => ?_
  refine meets_bind (M := fun _ _ => False) ?_ fun done => meets_absurd
  rintro w ⟨more, trace, ⟨calm, later⟩ | ⟨moved, some'⟩⟩
  · exact unsafe_files sites texts later removed w ⟨more, trace, calm⟩
  · exact moved_files some' removed w ⟨more, trace, moved⟩

end

/-- On whatever machine has the disk: when `nginx.install` throws before the test, all is as before. -/
def PutBack (inv : Inventory) (files : List VhostFile) (remove : List String) (resolves : Disk → String → Bool) (d₀ : Disk) : Prop :=
  ∀ (env : Environment Machine) (fs : Files env resolves inv.nginxBin) (w w' : World Machine Unit) (e : Failure)
    (events : List (Event Machine)), fs.disk w.trace = d₀ → Program.run (install inv files remove) env w = (.error e, w') →
    w'.trace = w.trace ++ events → (∀ event ∈ events, event.call ≠ tests inv) → fs.disk w'.trace = d₀

/-- All is put back, whatever fails, exactly where nothing that can fail comes after the first change. -/
theorem install_throws_iff {inv : Inventory} {files : List VhostFile} (remove : List String) {d₀ : Disk}
    (resolves : Disk → String → Bool) (texts : ∀ f ∈ files, f.text ≠ none) (sites : Sites inv d₀) :
    PutBack inv files remove resolves d₀ ↔ Safe inv files resolves d₀ remove := by
  constructor
  · intro restored
    by_contra open'
    have start : Events (Calm d₀) ⟨(), 0, []⟩ := ⟨[], rfl, by simp, rfl, rfl⟩
    have ended := unsafe_install sites texts open' _ start
    cases ran : Program.run (install inv files remove) (touchy d₀ resolves) ⟨(), 0, []⟩ with
    | mk result next =>
      rw [ran] at ended
      cases result with
      | ok _ => exact ended
      | error e =>
        obtain ⟨events, trace, all, -, differs⟩ := ended
        refine differs ?_
        have same := restored _ (filesOf d₀ resolves (fun past => past.any changed) 0 inv.nginxBin) _ _ e events rfl ran trace
          fun event member test => nomatch (test ▸ all event member : places (tests inv) = true)
        rw [trace] at same
        exact same
  · rintro safe env fs w w' e events disk ran trace untested
    have start : Still fs w.trace d₀ w := ⟨[], (List.append_nil _).symm, by simp, by simpa using disk⟩
    have ended := safe_install sites texts safe w start
    rw [ran] at ended
    obtain ⟨more, trace', holds⟩ := ended
    obtain rfl : events = more := List.append_cancel_left (trace.symm.trans trace')
    rw [trace]
    exact holds untested

theorem one_putBack_iff : PutBack proxy [⟨"a.conf", some "a"⟩] [] (fun _ _ => true) (oneSite [0x61]) ↔
    Safe proxy [⟨"a.conf", some "a"⟩] (fun _ _ => true) (oneSite [0x61]) [] :=
  install_throws_iff [] (fun _ _ => true) (by simp) (oneSite_sites [0x61])

def twoRun : Except Failure Unit × World Machine Unit :=
  Program.run (install proxy [⟨"a.conf", some "listen"⟩, ⟨"b c", some "listen"⟩] []) (oneMachine [0x61]) ⟨(), 0, []⟩

/-- A bad second name leaves the first vhost rewritten and enabled. -/
theorem first_left : (∃ e, twoRun.1 = .error e) ∧ (∀ event ∈ twoRun.2.trace, event.call ≠ tests proxy) ∧
    (oneDisk [0x61]).disk twoRun.2.trace "/etc/nginx/sites-available/a.conf" ≠
      (oneDisk [0x61]).disk [] "/etc/nginx/sites-available/a.conf" ∧
    (oneDisk [0x61]).disk twoRun.2.trace "/etc/nginx/sites-enabled/a.conf" ≠
      (oneDisk [0x61]).disk [] "/etc/nginx/sites-enabled/a.conf" := by
  refine ⟨⟨_, rfl⟩, ?_, by decide +kernel, by decide +kernel⟩
  have placing : (twoRun.2.trace.all fun event => places event.call) = true := by decide +kernel
  intro event member test
  exact nomatch (test ▸ List.all_eq_true.mp placing event member : places (tests proxy) = true)

end OpenVibeHost.Nginx
