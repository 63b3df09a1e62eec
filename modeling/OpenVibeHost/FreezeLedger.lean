import OpenVibeHost.Incidents

/-! The freeze directory against the ledger of who holds what. One record per
service cannot tell that an operator and a window both hold it: the second write
replaces the first, and lifting either lifts both. While the two kinds are kept
apart, the directory reports exactly what the ledger holds. -/
namespace OpenVibeHost.Incidents
open Transition

/-! ### What each command does to the directory -/

/-- The record an accepted freeze writes. -/
def FreezeOptions.record (options : FreezeOptions) (id : String) : Freeze :=
  ⟨id, trim (options.reason.getD ""), options.incident, options.setBy, options.now⟩

theorem checkId_valid {id : String} (valid : id = "all" ∨ serviceRe id = true) :
    checkId id = .ok () := by
  unfold checkId
  rw [if_neg]
  rcases valid with rfl | named <;> simp_all

theorem freeze_accepted {id : String} {options : FreezeOptions} (directory : Directory)
    (accepted : Accepted id options) :
    freeze directory id options = .ok (directory.insert id (options.record id)) := by
  obtain ⟨valid, reason, given, present⟩ := accepted
  simp only [freeze, checkId_valid valid, needText, given, if_neg present, FreezeOptions.record]
  rfl

theorem freeze_refused {id : String} {options : FreezeOptions} (directory : Directory)
    (refused : ¬ Accepted id options) : ∃ error, freeze directory id options = .error error := by
  by_cases valid : id = "all" ∨ serviceRe id = true
  · simp only [freeze, checkId_valid valid]
    cases given : options.reason with
    | none => exact ⟨_, rfl⟩
    | some reason =>
      have empty : trim reason = "" := by
        by_contra present
        exact refused ⟨valid, reason, given, present⟩
      exact ⟨_, by simp only [needText, empty]; rfl⟩
  · have bad : id ≠ "all" ∧ serviceRe id = false := by simpa using valid
    exact ⟨_, by simp only [freeze, checkId, if_pos bad]; rfl⟩

theorem lookup_freeze (directory : Directory) (id other : String) (options : FreezeOptions) :
    (apply directory (.freeze id options)).lookup other =
      if Accepted id options ∧ other = id then some (options.record id)
      else directory.lookup other := by
  by_cases accepted : Accepted id options
  · simp only [apply, freeze_accepted directory accepted, accepted, true_and]
    split
    · rename_i same
      rw [same, AList.lookup_insert]
    · rename_i differs
      exact AList.lookup_insert_ne differs
  · obtain ⟨error, refused⟩ := freeze_refused directory accepted
    simp [apply, refused, accepted]

theorem unfreeze_valid {id : String} (directory : Directory)
    (valid : id = "all" ∨ serviceRe id = true) :
    ∃ had, unfreeze directory id = .ok (directory.erase id, had) := by
  simp only [unfreeze, checkId_valid valid]
  cases there : frozen directory id true with
  | some held => exact ⟨true, rfl⟩
  | none =>
    have absent : id ∉ directory := by
      rw [← AList.lookup_eq_none]
      simpa [frozen] using there
    refine ⟨false, ?_⟩
    have same : directory.erase id = directory := by
      apply AList.ext
      exact List.kerase_of_notMem_keys absent
    rw [same]
    rfl

/-- A window's ids are service ids, so each of its freezes is accepted. -/
theorem window_accepted {window : Window} {id : String} (covered : id ∈ window.services)
    (setBy : Option String) (now : Nat) :
    Accepted id { reason := some ("maintenance: " ++ window.title), incident := some window.id,
                  setBy, now } := by
  refine ⟨.inr (window.named id covered), _, rfl, ?_⟩
  have starts : ("maintenance: " ++ window.title).toList =
      'm' :: ("aintenance: ".toList ++ window.title.toList) := by
    rw [String.toList_append]
    rfl
  intro empty
  have gone := congrArg String.toList empty
  rw [trim, starts, String.toList_ofList, List.dropWhile_cons_of_neg (by decide)] at gone
  rw [List.reverse_cons, List.dropWhile_append] at gone
  split at gone
  · simp [List.dropWhile, show isBlank 'm' = false from rfl] at gone
  · simp at gone

theorem lookup_freezeAll (options : FreezeOptions) (services : List String) (directory : Directory)
    (other : String) (accepted : ∀ id ∈ services, Accepted id options) :
    (freezeAll directory options services).1.lookup other =
      if other ∈ services then some (options.record other) else directory.lookup other := by
  induction services generalizing directory with
  | nil => simp [freezeAll]
  | cons service rest ih =>
    have first := freeze_accepted directory (accepted service (by simp))
    rw [freezeAll, first, ih _ fun id member => accepted id (by simp [member])]
    by_cases same : other = service
    · subst same
      simp
    · simp only [List.mem_cons, same, false_or]
      split
      · rfl
      · exact AList.lookup_insert_ne same

theorem lookup_unfreezeAll (lifted : List Freeze) (directory : Directory) (other : String)
    (valid : ∀ held ∈ lifted, held.service = "all" ∨ serviceRe held.service = true) :
    (unfreezeAll directory lifted).1.lookup other =
      if ∃ held ∈ lifted, held.service = other then none else directory.lookup other := by
  induction lifted generalizing directory with
  | nil => simp [unfreezeAll]
  | cons held rest ih =>
    obtain ⟨had, first⟩ := unfreeze_valid directory (valid held (by simp))
    rw [unfreezeAll, first]
    simp only []
    rw [ih _ fun later member => valid later (by simp [member])]
    by_cases same : held.service = other
    · subst same
      simp
    · simp only [List.mem_cons, exists_eq_or_imp, same, false_or]
      split
      · rfl
      · exact AList.lookup_erase_ne (Ne.symm same)

theorem mem_freezes {directory : Directory} {held : Freeze} :
    held ∈ freezes directory ↔ ∃ id, directory.lookup id = some held := by
  simp only [freezes, List.mem_map]
  constructor
  · rintro ⟨⟨id, record⟩, member, rfl⟩
    exact ⟨id, AList.mem_lookup_iff.mpr member⟩
  · rintro ⟨id, found⟩
    exact ⟨⟨id, held⟩, AList.mem_lookup_iff.mp found, rfl⟩

/-! ### The directory agrees with the ledger -/

/-- While the two kinds are kept apart, each record stands for one named id, and
a window's record carries the window. -/
structure Agreed (host : Host) : Prop where
  recorded : ∀ id held, host.directory.lookup id = some held →
    held.service = id ∧ (id = "all" ∨ serviceRe id = true) ∧ host.ledger.Names id
  named : ∀ id, host.ledger.Names id → ∃ held, host.directory.lookup id = some held
  apart : ∀ window ∈ host.ledger.windows, ∀ id ∈ window.services, id ∉ host.ledger.operator
  marked : ∀ window ∈ host.ledger.windows, ∀ id ∈ window.services, ∀ held,
    host.directory.lookup id = some held → held.incident = some window.id

theorem lookup_unfreeze (directory : Directory) (id other : String) :
    (apply directory (.unfreeze id)).lookup other =
      if (id = "all" ∨ serviceRe id = true) ∧ other = id then none else directory.lookup other := by
  by_cases valid : id = "all" ∨ serviceRe id = true
  · obtain ⟨had, lifted⟩ := unfreeze_valid directory valid
    simp only [apply, lifted, valid, true_and]
    split
    · rename_i same
      rw [same, AList.lookup_erase]
    · rename_i differs
      exact AList.lookup_erase_ne differs
  · have bad : id ≠ "all" ∧ serviceRe id = false := by simpa using valid
    have refused : ∃ error, unfreeze directory id = .error error :=
      ⟨_, by simp only [unfreeze, checkId, if_pos bad]; rfl⟩
    obtain ⟨error, refused⟩ := refused
    simp only [apply, refused, valid, false_and, if_false]

theorem lookup_schedule (directory : Directory) (window : Window) (setBy : Option String)
    (now : Nat) (other : String) :
    ∃ held : Freeze, held.service = other ∧ held.incident = some window.id ∧
      (apply directory (.schedule window setBy now)).lookup other =
        if other ∈ window.services then some held else directory.lookup other :=
  ⟨_, rfl, rfl, lookup_freezeAll _ window.services directory other fun _ covered =>
    window_accepted covered setBy now⟩

theorem lookup_complete {host : Host} (agreed : Agreed host) (incident other : String) :
    (apply host.directory (.complete incident)).lookup other =
      if ∃ held, host.directory.lookup other = some held ∧ held.incident = some incident then none
      else host.directory.lookup other := by
  have lifted : (∃ held ∈ (freezes host.directory).filter (·.incident = some incident),
      held.service = other) ↔
      ∃ held, host.directory.lookup other = some held ∧ held.incident = some incident := by
    simp only [List.mem_filter, mem_freezes, decide_eq_true_eq]
    constructor
    · rintro ⟨held, ⟨⟨id, found⟩, carries⟩, rfl⟩
      exact ⟨held, by rw [(agreed.recorded id held found).1]; exact found, carries⟩
    · rintro ⟨held, found, carries⟩
      exact ⟨held, ⟨⟨other, found⟩, carries⟩, (agreed.recorded other held found).1⟩
  rw [apply, complete, lookup_unfreezeAll]
  · simp only [lifted]
  · intro held member
    obtain ⟨id, found⟩ := mem_freezes.mp (List.mem_filter.mp member).1
    obtain ⟨same, valid, -⟩ := agreed.recorded id held found
    rwa [same]

theorem agreed_nothingFrozen : Agreed nothingFrozen where
  recorded _ _ found := by simp [nothingFrozen] at found
  named id names := by simp [nothingFrozen, Ledger.Names] at names
  apart _ member := by simp [nothingFrozen] at member
  marked _ member := by simp [nothingFrozen] at member

theorem agreed_freeze {host : Host} (agreed : Agreed host) (id : String) (options : FreezeOptions)
    (allowed : KeptApart host (.freeze id options)) :
    Agreed (step host (.freeze id options)) := by
  by_cases accepted : Accepted id options
  · have free := allowed accepted
    have looked : ∀ other, (step host (.freeze id options)).directory.lookup other =
        if other = id then some (options.record id) else host.directory.lookup other := by
      intro other
      have written := lookup_freeze host.directory id other options
      simp only [accepted, true_and] at written
      exact written
    have names : ∀ other, (step host (.freeze id options)).ledger.Names other ↔
        other = id ∨ host.ledger.Names other := by
      intro other
      simp [step, Ledger.apply, accepted, Ledger.Names, or_assoc]
    have windows : (step host (.freeze id options)).ledger.windows = host.ledger.windows := by
      simp [step, Ledger.apply, accepted]
    constructor
    · intro other held found
      rw [looked] at found
      rw [names]
      split at found
      · rename_i same
        cases found
        exact ⟨same.symm, same ▸ accepted.1, .inl same⟩
      · obtain ⟨same, valid, named⟩ := agreed.recorded other held found
        exact ⟨same, valid, .inr named⟩
    · intro other named
      rw [looked]
      split
      · exact ⟨_, rfl⟩
      · rename_i differs
        exact agreed.named other (((names other).mp named).resolve_left differs)
    · intro window member other covered
      rw [windows] at member
      have differs : other ≠ id := fun same => free window member (same ▸ covered)
      simpa [step, Ledger.apply, accepted, differs] using agreed.apart window member other covered
    · intro window member other covered held found
      rw [windows] at member
      have differs : other ≠ id := fun same => free window member (same ▸ covered)
      rw [looked, if_neg differs] at found
      exact agreed.marked window member other covered held found
  · obtain ⟨error, refused⟩ := freeze_refused host.directory accepted
    simpa [step, apply, refused, Ledger.apply, accepted] using agreed

theorem agreed_unfreeze {host : Host} (agreed : Agreed host) (id : String)
    (allowed : KeptApart host (.unfreeze id)) : Agreed (step host (.unfreeze id)) := by
  have looked : ∀ other, (step host (.unfreeze id)).directory.lookup other =
      if other = id then none else host.directory.lookup other := by
    intro other
    have found : (step host (.unfreeze id)).directory.lookup other = _ :=
      lookup_unfreeze host.directory id other
    rw [found]
    by_cases same : other = id
    · subst same
      by_cases valid : other = "all" ∨ serviceRe other = true
      · simp [valid]
      · simp only [valid, false_and, if_false, if_true]
        cases there : host.directory.lookup other with
        | none => rfl
        | some held => exact absurd (agreed.recorded other held there).2.1 valid
    · simp [same]
  have names : ∀ other, (step host (.unfreeze id)).ledger.Names other ↔
      other ≠ id ∧ host.ledger.Names other := by
    intro other
    simp only [step, Ledger.apply, Ledger.Names, List.mem_filter, decide_eq_true_eq]
    constructor
    · rintro (⟨member, differs⟩ | ⟨window, member, covered⟩)
      · exact ⟨differs, .inl member⟩
      · exact ⟨fun same => allowed window member (same ▸ covered), .inr ⟨window, member, covered⟩⟩
    · rintro ⟨differs, member | open'⟩
      · exact .inl ⟨member, differs⟩
      · exact .inr open'
  constructor
  · intro other held found
    rw [looked] at found
    split at found
    · cases found
    · rename_i differs
      obtain ⟨same, valid, named⟩ := agreed.recorded other held found
      exact ⟨same, valid, (names other).mpr ⟨differs, named⟩⟩
  · intro other named
    obtain ⟨differs, named⟩ := (names other).mp named
    rw [looked, if_neg differs]
    exact agreed.named other named
  · intro window member other covered
    have before := agreed.apart window member other covered
    simp [step, Ledger.apply, before]
  · intro window member other covered held found
    rw [looked] at found
    split at found
    · cases found
    · exact agreed.marked window member other covered held found

theorem agreed_schedule {host : Host} (agreed : Agreed host) (window : Window)
    (setBy : Option String) (now : Nat) (allowed : KeptApart host (.schedule window setBy now)) :
    Agreed (step host (.schedule window setBy now)) := by
  have looked : ∀ other, ∃ held : Freeze, held.service = other ∧ held.incident = some window.id ∧
      (step host (.schedule window setBy now)).directory.lookup other =
        if other ∈ window.services then some held else host.directory.lookup other :=
    lookup_schedule host.directory window setBy now
  have names : ∀ other, (step host (.schedule window setBy now)).ledger.Names other ↔
      other ∈ window.services ∨ host.ledger.Names other := by
    intro other
    simp [step, Ledger.apply, Ledger.Names, or_left_comm]
  constructor
  · intro other held found
    obtain ⟨written, same, -, now⟩ := looked other
    rw [now] at found
    rw [names]
    split at found
    · rename_i covered
      cases found
      exact ⟨same, .inr (window.named other covered), .inl covered⟩
    · obtain ⟨same, valid, named⟩ := agreed.recorded other held found
      exact ⟨same, valid, .inr named⟩
  · intro other named
    obtain ⟨written, -, -, now⟩ := looked other
    rw [now]
    split
    · exact ⟨_, rfl⟩
    · rename_i free
      exact agreed.named other (((names other).mp named).resolve_left free)
  · intro opened member other covered
    simp only [step, Ledger.apply, List.mem_cons] at member ⊢
    rcases member with rfl | earlier
    · exact fun held => allowed other covered (.inl held)
    · exact agreed.apart opened earlier other covered
  · intro opened member other covered held found
    obtain ⟨written, -, carries, now⟩ := looked other
    rw [now] at found
    simp only [step, Ledger.apply, List.mem_cons] at member
    rcases member with rfl | earlier
    · rw [if_pos covered] at found
      cases found
      exact carries
    · have free : other ∉ window.services :=
        fun both => allowed other both (.inr ⟨opened, earlier, covered⟩)
      rw [if_neg free] at found
      exact agreed.marked opened earlier other covered held found

theorem agreed_complete {host : Host} (agreed : Agreed host) (incident : String)
    (allowed : KeptApart host (.complete incident)) : Agreed (step host (.complete incident)) := by
  have looked : ∀ other, (step host (.complete incident)).directory.lookup other =
      if ∃ held, host.directory.lookup other = some held ∧ held.incident = some incident then none
      else host.directory.lookup other := lookup_complete agreed incident
  have stays : ∀ {other held}, host.directory.lookup other = some held →
      held.incident ≠ some incident →
      (step host (.complete incident)).directory.lookup other = some held := by
    intro other held found differs
    rw [looked, if_neg, found]
    rintro ⟨same, also, carries⟩
    rw [found] at also
    cases also
    exact differs carries
  constructor
  · intro other held found
    rw [looked] at found
    split at found
    · cases found
    · rename_i kept
      have differs : held.incident ≠ some incident := fun carries => kept ⟨held, found, carries⟩
      obtain ⟨same, valid, named⟩ := agreed.recorded other held found
      refine ⟨same, valid, ?_⟩
      rcases named with operator | ⟨window, member, covered⟩
      · exact .inl operator
      · have carries := agreed.marked window member other covered held found
        refine .inr ⟨window, List.mem_filter.mpr ⟨member, ?_⟩, covered⟩
        simpa [carries] using differs
  · rintro other (operator | ⟨window, member, covered⟩)
    · obtain ⟨held, found⟩ := agreed.named other (.inl operator)
      exact ⟨held, stays found (allowed other operator held found)⟩
    · obtain ⟨member, differs⟩ := List.mem_filter.mp member
      obtain ⟨held, found⟩ := agreed.named other (.inr ⟨window, member, covered⟩)
      have carries := agreed.marked window member other covered held found
      exact ⟨held, stays found (by simpa [carries] using differs)⟩
  · intro window member other covered
    exact agreed.apart window (List.mem_filter.mp member).1 other covered
  · intro window member other covered held found
    rw [looked] at found
    split at found
    · cases found
    · exact agreed.marked window (List.mem_filter.mp member).1 other covered held found

theorem agreed_step (host : Host) (operation : Operation) (agreed : Agreed host)
    (allowed : KeptApart host operation) : Agreed (step host operation) := by
  cases operation with
  | freeze id options => exact agreed_freeze agreed id options allowed
  | unfreeze id => exact agreed_unfreeze agreed id allowed
  | schedule window setBy now => exact agreed_schedule agreed window setBy now allowed
  | complete incident => exact agreed_complete agreed incident allowed

/-! ### What is reported, and what is kept -/

theorem reports_of_agreed (host : Host) (agreed : Agreed host) : Reports host := by
  have named : ∀ id, (host.directory.lookup id).isSome ↔ host.ledger.Names id := by
    intro id
    rw [Option.isSome_iff_exists]
    exact ⟨fun ⟨held, found⟩ => (agreed.recorded id held found).2.2, agreed.named id⟩
  intro service
  rw [Ledger.Holds, ← named service, ← named "all"]
  cases own : host.directory.lookup service <;> simp [frozen, own]

theorem keepsOthers_of_agreed (host : Host) (operation : Operation) (agreed : Agreed host)
    (allowed : KeptApart host operation) : KeepsOthers host operation := by
  intro other held found
  cases operation with
  | freeze id options =>
    show other = id ∧ _ ∨ _
    rw [lookup_freeze]
    by_cases written : Accepted id options ∧ other = id
    · obtain ⟨accepted, rfl⟩ := written
      refine .inl ⟨rfl, ?_⟩
      rcases (agreed.recorded other held found).2.2 with operator | ⟨window, member, covered⟩
      · exact operator
      · exact absurd covered (allowed accepted window member)
    · exact .inr (by rw [if_neg written, found])
  | unfreeze id => trivial
  | schedule window setBy now =>
    obtain ⟨written, -, -, after⟩ := lookup_schedule host.directory window setBy now other
    have free : other ∉ window.services :=
      fun covered => allowed other covered (agreed.recorded other held found).2.2
    show (apply host.directory _).lookup other = some held
    rw [after, if_neg free, found]
  | complete incident =>
    intro otherwise
    rw [lookup_complete agreed, if_neg, found]
    rintro ⟨same, also, carries⟩
    rw [found] at also
    cases also
    rcases otherwise with operator | ⟨window, member, differs, covered⟩
    · exact allowed other operator held found carries
    · rw [agreed.marked window member other covered held found] at carries
      exact differs (Option.some.inj carries)

/-- In a run whose operations keep the two kinds of freezes apart, a service is
reported frozen exactly while an operator freeze or an open window holds it, and
no freeze is lost to another. -/
theorem freezes_reported_while_kept_apart (operations : List Operation)
    (apart : Along step KeptApart nothingFrozen operations) :
    Always step Reports nothingFrozen operations ∧
      Along step KeepsOthers nothingFrozen operations := by
  have always := always_of_invariant agreed_step operations agreed_nothingFrozen apart
  exact ⟨always_mono reports_of_agreed operations always,
    along_of_always keepsOthers_of_agreed operations always apart⟩

/-- A window that covers `live`. -/
def liveUpgrade : Window where
  id := "41"
  title := "database upgrade"
  services := ["live"]
  named := by decide

/-- A window on `live` that is completed, then an operator freeze that is lifted. -/
theorem freezes_reported_around_one_window :
    Along step KeptApart nothingFrozen
        [.schedule liveUpgrade none 5, .complete "41",
          .freeze "live" { reason := some "incident" }, .unfreeze "live"] ∧
      Always step Reports nothingFrozen
        [.schedule liveUpgrade none 5, .complete "41",
          .freeze "live" { reason := some "incident" }, .unfreeze "live"] := by
  have apart : Along step KeptApart nothingFrozen
      [.schedule liveUpgrade none 5, .complete "41",
        .freeze "live" { reason := some "incident" }, .unfreeze "live"] := by
    refine ⟨?_, ?_, ?_, ?_, trivial⟩
    · intro id _ names
      simp [nothingFrozen, Ledger.Names] at names
    · intro id member
      simp [step, nothingFrozen, Ledger.apply] at member
    · intro _ window member
      simp [step, nothingFrozen, Ledger.apply, liveUpgrade] at member
    · intro window member
      have accepted : Accepted "live" { reason := some "incident" } := by decide
      simp [step, nothingFrozen, Ledger.apply, liveUpgrade, accepted] at member
  exact ⟨apart, (freezes_reported_while_kept_apart _ apart).1⟩

/-- An operator freezes `live` for an incident; a freezing window on `live` is
scheduled and completed. The window replaced the record, and completing it
lifted the operator's freeze. -/
theorem window_lifts_operator_freeze :
    ¬ Always step Reports nothingFrozen
        [.freeze "live" { reason := some "incident" }, .schedule liveUpgrade none 5,
          .complete "41"] ∧
      ¬ Along step KeepsOthers nothingFrozen
        [.freeze "live" { reason := some "incident" }, .schedule liveUpgrade none 5,
          .complete "41"] := by
  have accepted : Accepted "live" { reason := some "incident" } := by decide
  constructor
  · intro always
    have last : Reports (run step nothingFrozen _) := always_last _ always
    have frozenLive := (last "live").mpr <| .inl <| .inl <| by
      simp [run, step, Ledger.apply, accepted, nothingFrozen]
    exact absurd frozenLive (by decide)
  · rintro ⟨-, scheduled, -⟩
    have kept := scheduled "live" _ rfl
    exact absurd kept (by decide)

end OpenVibeHost.Incidents
