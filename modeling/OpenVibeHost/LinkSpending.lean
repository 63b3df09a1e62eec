import OpenVibeHost.Benchmarks

/-! Submissions to one benchmark link that run together: the row lock that each
takes on the link before it looks at it lets one at a time go past the check, and
the two writes of the one that does commit together. -/
namespace OpenVibeHost.Benchmarks

open Catalog (Fault Floats)
open Session (Phase World Event)

/-! ### The program of one submission -/

/-- What is left of a submission once it has checked the link. -/
def spending (link : Link) (yabs : Yabs) (posted : Posted) : Client String := do
  Session.execute (some link.tokenHash) fun tables => .ok (tables.spend link.tokenHash posted.now)
  Session.execute none (Tables.insertBenchmark (resultOf link yabs posted))
  pure posted.id

/-- What is left of it once it has marked the link. -/
def recording (link : Link) (yabs : Yabs) (posted : Posted) : Client String := do
  Session.execute none (Tables.insertBenchmark (resultOf link yabs posted))
  pure posted.id

theorem store_eq (hash : String) (yabs : Yabs) (posted : Posted) :
    store hash yabs posted = .stmt (some hash) id fun seen =>
      match usable (seen.link hash) posted.now with
      | .ok link => spending link yabs posted
      | .error fault => .fail fault := by
  simp only [store, Session.selectForUpdate_bind]
  congr 1
  funext seen
  cases usable (seen.link hash) posted.now <;> rfl

theorem spending_eq (link : Link) (yabs : Yabs) (posted : Posted) :
    spending link yabs posted = .stmt (some link.tokenHash)
      (fun tables => tables.spend link.tokenHash posted.now) fun _ => recording link yabs posted := rfl

theorem recording_eq (link : Link) (yabs : Yabs) (posted : Posted) :
    recording link yabs posted = .stmt none
      (Session.attempt (Tables.insertBenchmark (resultOf link yabs posted)))
      (Session.after (Tables.insertBenchmark (resultOf link yabs posted)) (.ret posted.id)) := by
  rw [recording, Session.execute_bind]
  rfl

/-- The tables once the link is spent on the result. -/
def completed (tables : Tables) (link : Link) (yabs : Yabs) (posted : Posted) : Tables :=
  { tables.spend link.tokenHash posted.now with
    benchmarks := tables.benchmarks ++ [resultOf link yabs posted] }

theorem insert_after_spend {tables written : Tables} {link : Link} {yabs : Yabs} {posted : Posted}
    (inserted : Tables.insertBenchmark (resultOf link yabs posted)
      (tables.spend link.tokenHash posted.now) = .ok written) :
    written = completed tables link yabs posted := by
  unfold Tables.insertBenchmark at inserted
  split at inserted
  · cases inserted
  · exact (Except.ok.inj inserted).symm

theorem usable_ok {found : Option Link} {now : Int} {link : Link}
    (ok : usable found now = .ok link) :
    found = some link ∧ link.usedAt = none ∧ now < link.expiresAt := by
  cases found with
  | none => cases ok
  | some there =>
    simp only [usable] at ok
    split at ok
    · cases ok
    · rename_i unused
      split at ok
      · cases ok
      · rename_i fresh
        cases ok
        exact ⟨rfl, by simpa using unused, by omega⟩

namespace Tables

theorem link_hash {tables : Tables} {hash : String} {link : Link}
    (found : tables.link hash = some link) : link.tokenHash = hash := by
  simpa using List.find?_some found

theorem link_spend (tables : Tables) (hash : String) (now : Int) :
    (tables.spend hash now).link hash =
      (tables.link hash).map fun link => { link with usedAt := some now } := by
  simp only [link, spend, List.find?_map]
  have same : ((fun link : Link => decide (link.tokenHash = hash)) ∘ fun link : Link =>
      if link.tokenHash = hash then { link with usedAt := some now } else link) =
      fun link => decide (link.tokenHash = hash) := by
    funext link
    by_cases h : link.tokenHash = hash <;> simp [h]
  rw [same]
  cases found : tables.links.find? fun link => link.tokenHash = hash with
  | none => rfl
  | some link =>
    have at_hash : link.tokenHash = hash := by simpa using List.find?_some found
    simp [at_hash]

end Tables

theorem link_completed {tables : Tables} {link : Link} (yabs : Yabs) (posted : Posted)
    (found : tables.link link.tokenHash = some link) :
    (completed tables link yabs posted).link link.tokenHash =
      some { link with usedAt := some posted.now } := by
  have spent := tables.link_spend link.tokenHash posted.now
  rw [found] at spent
  exact spent

/-! ### Where a submission can stand -/

section
variable {ι : Type} (floats : Floats) (sha : String → String) (token : String)
  (posted : ι → Posted)

/-- A submission before the check, or at its end. -/
inductive Stage (posted : Posted) : Phase Tables String Fault String → Prop
  | waiting : Stage posted (.running true 0 id (submit floats sha token posted))
  | refused (turns : Nat) (wrote : Tables → Tables) (fault : Fault) :
    Stage posted (.running true turns wrote (.fail fault))
  | returned (id : String) : Stage posted (.returned id)
  | failed (fault : Fault) : Stage posted (.failed fault)

/-- A submission past the check: the link that is committed is the one it checked. -/
inductive Past (tables : Tables) (posted : Posted) : Phase Tables String Fault String → Prop
  | checked (link : Link) (yabs : Yabs) (ok : usable (tables.link (sha token)) posted.now = .ok link) :
    Past tables posted (.running true 1 id (spending link yabs posted))
  | marked (link : Link) (yabs : Yabs) (ok : usable (tables.link (sha token)) posted.now = .ok link) :
    Past tables posted (.running true 2 (fun rows => rows.spend link.tokenHash posted.now)
      (recording link yabs posted))
  | stored (link : Link) (yabs : Yabs) (wrote : Tables → Tables)
      (ok : usable (tables.link (sha token)) posted.now = .ok link)
      (writes : wrote tables = completed tables link yabs posted) :
    Past tables posted (.running true 3 wrote (.ret posted.id))

/-- What holds while submissions to the link run. -/
structure Kept (tables : Tables) (w : World ι Tables String Fault String) : Prop where
  /-- The link is spent at most once. -/
  once : ∀ i j a b, w.phase i = .returned a → w.phase j = .returned b → i = j
  /-- Until a submission succeeds, every table is as it was. -/
  untouched : (∀ i a, w.phase i ≠ .returned a) → w.rows = tables
  /-- The one that succeeds finds the link unspent and in time, and leaves it spent on its
  own result. -/
  success : ∀ i a, w.phase i = .returned a → ∃ link yabs, tables.link (sha token) = some link ∧
    link.usedAt = none ∧ (posted i).now < link.expiresAt ∧ w.rows = completed tables link yabs (posted i)
  /-- One that failed keeps nobody from the link. -/
  freed : ∀ i fault, w.phase i = .failed fault → w.holder (sha token) ≠ some i

/-- The link is marked. -/
def Spent (w : World ι Tables String Fault String) : Prop :=
  ∃ link, w.rows.link (sha token) = some link ∧ link.usedAt.isSome

/-- A result is stored that was not. -/
def Stored (tables : Tables) (w : World ι Tables String Fault String) : Prop :=
  ∃ result, w.rows.benchmarks = tables.benchmarks ++ [result]

/-- A link works once, and only for a result that is stored. -/
structure SpentOnce (tables : Tables) (w : World ι Tables String Fault String) : Prop where
  once : ∀ i j a b, w.phase i = .returned a → w.phase j = .returned b → i = j
  stored_iff : (∀ link, tables.link (sha token) = some link → link.usedAt = none) →
    (Spent sha token w ↔ Stored tables w)
  /-- Submissions that failed leave the link as they found it, and to the next one. -/
  unspent : (∀ i a, w.phase i ≠ .returned a) →
    w.rows = tables ∧ w.rows.link (sha token) = tables.link (sha token)
  freed : ∀ i fault, w.phase i = .failed fault → w.holder (sha token) ≠ some i

/-- The invariant: every submission stands before the check, past it with the lock,
or at its end. -/
structure Guarded (tables : Tables) (w : World ι Tables String Fault String) : Prop where
  kept : Kept sha token posted tables w
  stands : ∀ i, Stage floats sha token (posted i) (w.phase i) ∨
    (Past sha token w.rows (posted i) (w.phase i) ∧ w.holder (sha token) = some i)

variable {floats sha token posted} {tables : Tables} {w : World ι Tables String Fault String}

theorem Past.not_returned {posted : Posted} {phase : Phase Tables String Fault String}
    (past : Past sha token tables posted phase) (a : String) : phase ≠ .returned a := by
  cases past <;> simp

theorem Past.usable {posted : Posted} {phase : Phase Tables String Fault String}
    (past : Past sha token tables posted phase) :
    ∃ seen, usable (tables.link (sha token)) posted.now = .ok seen := by
  cases past with
  | checked seen _ ok | marked seen _ ok | stored seen _ _ ok => exact ⟨seen, ok⟩

/-- Once a submission has succeeded, no other one is past the check. -/
theorem Guarded.rows_of_past (g : Guarded floats sha token posted tables w) {i : ι}
    (past : Past sha token w.rows (posted i) (w.phase i)) : w.rows = tables := by
  apply g.kept.untouched
  intro j a returned
  obtain ⟨link, yabs, found, -, -, rows⟩ := g.kept.success j a returned
  have at_hash := Tables.link_hash found
  have spent : w.rows.link (sha token) = some { link with usedAt := some (posted j).now } := by
    rw [rows, ← at_hash]
    exact link_completed yabs (posted j) (at_hash ▸ found)
  obtain ⟨seen, ok⟩ := past.usable
  rw [spent] at ok
  obtain ⟨same, unused, -⟩ := usable_ok ok
  cases same
  cases unused

variable [DecidableEq ι]

/-- A step of one submission that commits nothing. -/
theorem Guarded.moved (g : Guarded floats sha token posted tables w) (i : ι)
    {phase : Phase Tables String Fault String} {holder : String → Option ι}
    (stands : Stage floats sha token (posted i) phase ∨
      (Past sha token w.rows (posted i) phase ∧ holder (sha token) = some i))
    (unended : ∀ a, phase ≠ .returned a) (before : ∀ a, w.phase i ≠ .returned a)
    (others : ∀ j, j ≠ i → (holder (sha token) = some j ↔ w.holder (sha token) = some j))
    (ended : ∀ fault, phase = .failed fault → holder (sha token) ≠ some i) :
    Guarded floats sha token posted tables { w with holder, phase := w.holds i phase } := by
  have at_other : ∀ j, j ≠ i → w.holds i phase j = w.phase j := fun j other =>
    Function.update_of_ne other _ _
  have at_own : w.holds i phase i = phase := Function.update_self ..
  have was : ∀ j a, w.holds i phase j = .returned a → w.phase j = .returned a := by
    intro j a returned
    by_cases own : j = i
    · subst own
      exact absurd (at_own ▸ returned) (unended a)
    · rwa [at_other j own] at returned
  refine ⟨⟨?_, ?_, ?_, ?_⟩, ?_⟩
  · exact fun j k a b first second => g.kept.once j k a b (was j a first) (was k b second)
  · intro none_returned
    apply g.kept.untouched
    intro j a returned
    by_cases own : j = i
    · exact before a (own ▸ returned)
    · exact none_returned j a ((at_other j own).trans returned)
  · exact fun j a returned => g.kept.success j a (was j a returned)
  · intro j fault failed
    by_cases own : j = i
    · subst own
      exact ended fault (at_own ▸ failed)
    · have before_too := (at_other j own).symm.trans failed
      exact fun held => g.kept.freed j fault before_too ((others j own).mp held)
  · intro j
    by_cases own : j = i
    · subst own
      simp only [at_own]
      exact stands
    · simp only [at_other j own]
      exact (g.stands j).imp_right (And.imp_right (others j own).mpr)

theorem released_other (i j : ι) (other : j ≠ i) :
    w.released i (sha token) = some j ↔ w.holder (sha token) = some j := by
  unfold Session.World.released
  split
  · rename_i own
    rw [own]
    exact ⟨nofun, fun same => absurd (Option.some.inj same).symm other⟩
  · rfl

theorem released_own (i : ι) : w.released i (sha token) ≠ some i := by
  unfold Session.World.released
  split
  · nofun
  · assumption

/-- A submission that fails drops what it wrote. -/
theorem Guarded.fails (g : Guarded floats sha token posted tables w) (i : ι) (fault : Fault)
    (before : ∀ a, w.phase i ≠ .returned a) :
    Guarded floats sha token posted tables
      { w with holder := w.released i, phase := w.holds i (.failed fault) } :=
  g.moved i (.inl (.failed fault)) nofun before (fun j other => released_other i j other)
    fun _ _ => released_own i

/-- The commit: the submission was past the check, so nobody else was, and the tables
were still as at the start. -/
theorem Guarded.commits (g : Guarded floats sha token posted tables w) (i : ι) {link : Link}
    {yabs : Yabs} {wrote : Tables → Tables} (phase : w.phase i = .running true 3 wrote (.ret (posted i).id))
    (ok : usable (w.rows.link (sha token)) (posted i).now = .ok link)
    (writes : wrote w.rows = completed w.rows link yabs (posted i))
    (held : w.holder (sha token) = some i) :
    Guarded floats sha token posted tables
      { rows := wrote w.rows, holder := w.released i, phase := w.holds i (.returned (posted i).id) } := by
  have past : Past sha token w.rows (posted i) (w.phase i) := phase ▸ .stored link yabs wrote ok writes
  have rows := g.rows_of_past past
  have at_other : ∀ j, j ≠ i → w.holds i (.returned (posted i).id) j = w.phase j := fun j other =>
    Function.update_of_ne other _ _
  have at_own : w.holds i (.returned (posted i).id) i = .returned (posted i).id := Function.update_self ..
  obtain ⟨found, unused, fresh⟩ := usable_ok ok
  rw [rows] at writes found
  have none_before : ∀ j a, w.phase j ≠ .returned a := by
    intro j a returned
    obtain ⟨first, firstYabs, there, -, -, spent⟩ := g.kept.success j a returned
    have at_hash := Tables.link_hash there
    have marked := link_completed firstYabs (posted j) (at_hash ▸ there)
    rw [← spent, at_hash, rows, there] at marked
    rw [there] at found
    cases found
    rw [Option.some.injEq] at marked
    rw [marked] at unused
    cases unused
  have only : ∀ j a, w.holds i (.returned (posted i).id) j = .returned a → j = i := by
    intro j a returned
    by_contra other
    exact none_before j a ((at_other j other).symm.trans returned)
  refine ⟨⟨?_, ?_, ?_, ?_⟩, ?_⟩
  · exact fun j k a b first second => (only j a first).trans (only k b second).symm
  · exact fun none_returned => absurd at_own (none_returned i _)
  · intro j a returned
    obtain rfl := only j a returned
    exact ⟨link, yabs, found, unused, fresh, by rw [← writes, rows]⟩
  · intro j fault failed
    by_cases own : j = i
    · subst own
      exact released_own j
    · have before_too := (at_other j own).symm.trans failed
      exact fun still => g.kept.freed j fault before_too ((released_other i j own).mp still)
  · intro j
    by_cases own : j = i
    · subst own
      simp only [at_own]
      exact .inl (.returned _)
    · simp only [at_other j own]
      refine .inl ((g.stands j).resolve_right ?_)
      rintro ⟨-, other⟩
      exact own (Option.some.inj (other.symm.trans held))

theorem locked_other (i j : ι) (other : j ≠ i) (free : w.free i (some (sha token)) = true) :
    w.locked i (some (sha token)) (sha token) = some j ↔ w.holder (sha token) = some j := by
  simp only [Session.World.locked, Function.update_self]
  simp only [Session.World.free] at free
  constructor
  · exact fun same => absurd (Option.some.inj same).symm other
  · intro held
    simp only [held, decide_eq_true_eq] at free
    exact absurd free other

/-- The first step: a post that is no result fails, any other one locks the link and
looks at it. -/
theorem Guarded.begins (g : Guarded floats sha token posted tables w) (i : ι)
    (phase : w.phase i = .running true 0 id (submit floats sha token (posted i))) :
    Guarded floats sha token posted tables (w.turn i) := by
  have before : ∀ a, w.phase i ≠ .returned a := by simp [phase]
  unfold submit at phase
  split at phase
  · rw [Session.World.turn_fail phase]
    exact g.fails i _ before
  · split at phase
    · rw [Session.World.turn_fail phase]
      exact g.fails i _ before
    · rename_i yabs _
      rw [store_eq] at phase
      cases free : w.free i (some (sha token)) with
      | false => rwa [Session.World.turn_waits phase free]
      | true =>
        rw [Session.World.turn_stmt phase free]
        refine g.moved i ?_ (by simp) before (fun j other => locked_other i j other free) (by simp)
        cases ok : usable (w.rows.link (sha token)) (posted i).now with
        | error fault =>
          simp only [id_eq, ok]
          exact .inl (.refused _ _ _)
        | ok link =>
          simp only [id_eq, ok]
          exact .inr ⟨.checked link yabs ok, Function.update_self ..⟩

/-- A step past the check. -/
theorem Guarded.goes_on (g : Guarded floats sha token posted tables w) (i : ι)
    (past : Past sha token w.rows (posted i) (w.phase i)) (held : w.holder (sha token) = some i) :
    Guarded floats sha token posted tables (w.turn i) := by
  have before := past.not_returned
  generalize phase : w.phase i = stage at past
  cases past with
  | checked link yabs ok =>
    have at_hash := Tables.link_hash (usable_ok ok).1
    rw [spending_eq] at phase
    have free : w.free i (some link.tokenHash) = true := by simp [Session.World.free, at_hash, held]
    rw [Session.World.turn_stmt phase free]
    have kept : w.locked i (some link.tokenHash) (sha token) = some i := by
      simp [Session.World.locked, at_hash]
    refine g.moved i (.inr ⟨.marked link yabs ok, kept⟩) (by simp) before ?_ (by simp)
    intro j other
    rw [kept, held]
  | marked link yabs ok =>
    rw [recording_eq] at phase
    rw [Session.World.turn_stmt phase rfl]
    refine g.moved i ?_ (by simp) before (fun _ _ => Iff.rfl) (by simp)
    cases inserted : Tables.insertBenchmark (resultOf link yabs (posted i))
        (w.rows.spend link.tokenHash (posted i).now) with
    | error fault =>
      rw [Session.after_error inserted]
      exact .inl (.refused _ _ _)
    | ok written =>
      rw [Session.after_ok inserted]
      refine .inr ⟨.stored link yabs _ ok ?_, held⟩
      exact (Session.attempt_ok inserted).trans (insert_after_spend inserted)
  | stored link yabs wrote ok writes =>
    rw [Session.World.turn_ret phase]
    exact g.commits i phase ok writes held

/-- One step, whatever it is. -/
theorem Guarded.step (g : Guarded floats sha token posted tables w) (event : Event ι Fault) :
    Guarded floats sha token posted tables (w.step event) := by
  cases event with
  | turn i =>
    rcases g.stands i with stage | ⟨past, held⟩
    · generalize phase : w.phase i = stands at stage
      cases stage with
      | waiting => exact g.begins i phase
      | refused turns wrote fault =>
        have turned := Session.World.turn_fail phase
        simp only [Session.World.step, turned]
        exact g.fails i fault (by simp [phase])
      | returned id => rwa [Session.World.step, Session.World.turn_returned phase]
      | failed fault => rwa [Session.World.step, Session.World.turn_failed phase]
    · exact g.goes_on i past held
  | fault i fault =>
    cases phase : w.phase i with
    | running atomic turns wrote rest =>
      simp only [Session.World.step, Session.World.fault, phase]
      exact g.fails i fault (by simp [phase])
    | returned id => simpa only [Session.World.step, Session.World.fault, phase] using g
    | failed error => simpa only [Session.World.step, Session.World.fault, phase] using g

omit [DecidableEq ι] in
theorem guarded_start : Guarded floats sha token posted tables
    (Session.start tables (fun _ => true) fun i => submit floats sha token (posted i)) where
  kept := ⟨nofun, fun _ => rfl, nofun, nofun⟩
  stands _ := .inl .waiting

omit [DecidableEq ι] in
theorem Kept.spentOnce (kept : Kept sha token posted tables w) : SpentOnce sha token tables w where
  once := kept.once
  freed := kept.freed
  stored_iff unspent := by
    by_cases returned : ∃ i a, w.phase i = .returned a
    · obtain ⟨i, a, returned⟩ := returned
      obtain ⟨link, yabs, found, -, -, rows⟩ := kept.success i a returned
      have at_hash := Tables.link_hash found
      have marked := link_completed yabs (posted i) (at_hash ▸ found)
      rw [← rows, at_hash] at marked
      exact ⟨fun _ => ⟨resultOf link yabs (posted i), by rw [rows]; rfl⟩, fun _ => ⟨_, marked, rfl⟩⟩
    · have rows := kept.untouched fun i a h => returned ⟨i, a, h⟩
      rw [Spent, Stored, rows]
      constructor
      · rintro ⟨link, found, used⟩
        rw [unspent link found] at used
        cases used
      · rintro ⟨result, same⟩
        simp at same
  unspent none_returned := ⟨kept.untouched none_returned, by rw [kept.untouched none_returned]⟩

/-- Submissions to one link, in any order of their steps and with faults anywhere:
the link is spent at most once, together with the one result that is stored; what
fails leaves every table as it was. -/
theorem link_spent_once (floats : Floats) (sha : String → String) (token : String)
    (posted : ι → Posted) (tables : Tables) (schedule : List (Event ι Fault)) :
    Transition.Always Session.World.step (SpentOnce sha token tables)
      (Session.start tables (fun _ => true) fun i => submit floats sha token (posted i)) schedule :=
  Transition.always_mono
    (fun _ (g : Guarded floats sha token posted tables _) => g.kept.spentOnce) schedule
    (Transition.always_of_preserved (fun _ event g => g.step event) schedule guarded_start)
end

end OpenVibeHost.Benchmarks
