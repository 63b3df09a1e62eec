import OpenVibeHost.Sessions

/-! Clients that each write what one lock guards at most once. Whoever wrote it in a
transaction holds the lock until the transaction ends, so what is guarded has one latest
version at a time: the committed one, or that of the holder. Every turn leaves the latest
version as it is, or is the one write of a client. -/
namespace OpenVibeHost.Session

variable {σ κ ε α τ ι : Type}

/-! ### Programs -/

section Programs

variable (guarded : σ → τ) (lock : κ) (good : τ → Prop) (later : τ → τ → Prop)

/-- A client that is past its write: it neither fails nor writes again. -/
def Settled : τ → Session σ κ ε α → Prop
  | _, .ret _ => True
  | _, .fail _ => False
  | base, .stmt asked effect next => asked = .none ∧ ∀ seen, good (guarded seen) → later base (guarded seen) →
      guarded (effect seen) = guarded seen ∧ Settled (guarded seen) (next seen)

/-- A client that has not written yet: the write it comes to is one of `Writes`, and it
returns without one only where it `quits`. -/
def Pending (Writes : (τ → Option τ) → Prop) (quits : τ → Prop) : τ → Session σ κ ε α → Prop
  | base, .ret _ => quits base
  | _, .fail _ => True
  | base, .stmt asked effect next =>
    (asked = .none ∧ ∀ seen, good (guarded seen) → later base (guarded seen) →
      guarded (effect seen) = guarded seen ∧ Pending Writes quits (guarded seen) (next seen)) ∨
    (asked = .some lock ∧ ∃ write, Writes write ∧ ∀ seen, good (guarded seen) → later base (guarded seen) →
      match write (guarded seen) with
      | none => guarded (effect seen) = guarded seen ∧ ∃ error, next seen = .fail error
      | some written => guarded (effect seen) = written ∧ Settled guarded good later written (next seen))

/-- A client whose first statement reads. -/
def Begins (Writes : τ → (τ → Option τ) → Prop) (quits : τ → Prop) : Session σ κ ε α → Prop
  | .stmt .none effect next => ∀ seen, good (guarded seen) → guarded (effect seen) = guarded seen ∧
      Pending guarded lock good later (Writes (guarded seen)) quits (guarded seen) (next seen)
  | _ => False

/-- A program that only reads, or writes something else. -/
def Quiet : Session σ κ ε α → Prop
  | .ret _ | .fail _ => True
  | .stmt asked effect next => asked = .none ∧ (∀ seen, guarded (effect seen) = guarded seen) ∧ ∀ seen, Quiet (next seen)

end Programs

section

variable {β : Type} {guarded : σ → τ} {lock : κ} {good : τ → Prop} {later : τ → τ → Prop}
  {Writes : (τ → Option τ) → Prop} {quits : τ → Prop}

theorem Quiet.bind {first : Session σ κ ε α} {rest : α → Session σ κ ε β} (quiet : Quiet guarded first)
    (also : ∀ result, Quiet guarded (rest result)) : Quiet guarded (first >>= rest) := by
  induction first with
  | ret result => exact also result
  | fail error => trivial
  | stmt asked effect next ih =>
    obtain ⟨unasked, same, later⟩ := quiet
    exact ⟨unasked, same, fun seen => ih seen (later seen)⟩

theorem quiet_select (read : σ → α) : Quiet guarded (select read : Session σ κ ε α) :=
  ⟨rfl, fun _ => rfl, fun _ => trivial⟩

/-- A quiet program goes before the write. -/
theorem Quiet.pending {first : Session σ κ ε α} {rest : α → Session σ κ ε β} (quiet : Quiet guarded first)
    (waits : ∀ result base, Pending guarded lock good later Writes quits base (rest result)) (base : τ) :
    Pending guarded lock good later Writes quits base (first >>= rest) := by
  induction first generalizing base with
  | ret result => exact waits result base
  | fail error => trivial
  | stmt asked effect next ih =>
    obtain ⟨unasked, same, later⟩ := quiet
    exact .inl ⟨unasked, fun seen _ _ => ⟨same seen, ih seen (later seen) _⟩⟩

end

/-! ### Worlds that remember what was read -/

/-- The rows that the first statement of each client saw. -/
structure Watched (ι σ κ ε α : Type) where
  world : World ι σ κ ε α
  read : ι → σ

namespace Watched

variable [DecidableEq ι] [DecidableEq κ]

/-- The client's next statement is its first. -/
def fresh (o : Watched ι σ κ ε α) (i : ι) : Bool :=
  match o.world.phase i with
  | .running _ 0 _ _ => true
  | _ => false

def turn (o : Watched ι σ κ ε α) (i : ι) : Watched ι σ κ ε α where
  world := o.world.turn i
  read := if o.fresh i then Function.update o.read i o.world.rows else o.read

def start (rows : σ) (atomic : ι → Bool) (client : ι → Session σ κ ε α) : Watched ι σ κ ε α :=
  ⟨Session.start rows atomic client, fun _ => rows⟩

/-- The client is at its write, and nobody keeps it waiting. -/
def Writing (o : Watched ι σ κ ε α) (lock : κ) (i : ι) : Prop :=
  ∃ atomic turns wrote effect next, o.world.phase i = .running atomic turns wrote (.stmt (.some lock) effect next) ∧
    o.world.free i (.some lock) = true

def Returned (o : Watched ι σ κ ε α) (i : ι) : Prop := ∃ result, o.world.phase i = .returned result

end Watched

/-! ### Stages -/

/-- Clients with their writes, and what is to hold once each of them has written. -/
structure Family (ι σ κ ε α τ : Type) where
  guarded : σ → τ
  lock : κ
  good : τ → Prop
  later : τ → τ → Prop
  atomic : ι → Bool
  client : ι → Session σ κ ε α
  writes : ι → τ → (τ → Option τ) → Prop
  quits : ι → τ → Prop
  done : ι → τ → Prop
  refl : ∀ x, later x x
  trans : ∀ {x y z}, later x y → later y z → later x z
  quit : ∀ {i base x}, quits i base → later base x → done i x
  begins : ∀ i, Begins guarded lock good later (writes i) (quits i) (client i)

namespace Family

variable (f : Family ι σ κ ε α τ)

/-- How far a client is, where `committed` is what is guarded and `latest` its latest version. -/
inductive Stage (i : ι) (read : σ) (held : Prop) (committed latest : τ) : Phase σ κ ε α → Prop
  | fresh (unheld : ¬ held) : Stage i read held committed latest (.running (f.atomic i) 0 id (f.client i))
  | pending {turns : Nat} {wrote : σ → σ} {rest : Session σ κ ε α} {base : τ} (started : turns ≠ 0)
      (since : f.later base committed)
      (neutral : ∀ rows, f.good (f.guarded rows) → f.later base (f.guarded rows) → f.guarded (wrote rows) = f.guarded rows)
      (waits : Pending f.guarded f.lock f.good f.later (f.writes i (f.guarded read)) (f.quits i) base rest)
      (unheld : ¬ held) : Stage i read held committed latest (.running (f.atomic i) turns wrote rest)
  | refused {turns : Nat} {wrote : σ → σ} {error : ε} (started : turns ≠ 0) (same : held → latest = committed) :
      Stage i read held committed latest (.running (f.atomic i) turns wrote (.fail error))
  | written {turns : Nat} {wrote : σ → σ} {rest : Session σ κ ε α} (started : turns ≠ 0) (atomic : f.atomic i = true)
      (holds : held) (effect : ∀ rows, f.guarded rows = committed → f.guarded (wrote rows) = latest)
      (settled : Settled f.guarded f.good f.later latest rest) (done : f.done i latest) :
      Stage i read held committed latest (.running (f.atomic i) turns wrote rest)
  | committed {turns : Nat} {wrote : σ → σ} {rest : Session σ κ ε α} {base : τ} (started : turns ≠ 0)
      (atomic : f.atomic i = false) (unheld : ¬ held) (since : f.later base committed)
      (neutral : ∀ rows, f.good (f.guarded rows) → f.later base (f.guarded rows) → f.guarded (wrote rows) = f.guarded rows)
      (settled : Settled f.guarded f.good f.later base rest) (done : f.done i committed) (ahead : f.done i latest) :
      Stage i read held committed latest (.running (f.atomic i) turns wrote rest)
  | returned {result : α} (unheld : ¬ held) (done : f.done i committed) (ahead : f.done i latest) :
      Stage i read held committed latest (.returned result)
  | failed {error : ε} (unheld : ¬ held) : Stage i read held committed latest (.failed error)

variable {f}

/-- A client's stage while another takes its turn. -/
theorem Stage.moves {i : ι} {read : σ} {held : Prop} {committed latest committed' latest' : τ} {phase : Phase σ κ ε α}
    (stage : f.Stage i read held committed latest phase) (unheld : ¬ held) (onward : f.later committed committed')
    (commits : committed' = committed ∨ committed' = latest')
    (keeps : (f.atomic i = false ∨ ∃ result, phase = .returned result) → f.done i latest → f.done i latest') :
    f.Stage i read held committed' latest' phase := by
  cases stage with
  | fresh unheld => exact .fresh unheld
  | pending started since neutral waits unheld =>
    exact .pending started (f.trans since onward) neutral waits unheld
  | refused started same => exact .refused started fun held => absurd held unheld
  | written started atomic held effect settled done => exact absurd held unheld
  | committed started atomic unheld since neutral settled done ahead =>
    refine .committed started atomic unheld (f.trans since onward) neutral settled ?_ (keeps (.inl atomic) ahead)
    rcases commits with same | same
    · exact same ▸ done
    · exact same ▸ keeps (.inl atomic) ahead
  | returned unheld done ahead =>
    refine .returned unheld ?_ (keeps (.inr ⟨_, rfl⟩) ahead)
    rcases commits with same | same
    · exact same ▸ done
    · exact same ▸ keeps (.inr ⟨_, rfl⟩) ahead
  | failed unheld => exact .failed unheld

variable [DecidableEq ι] [DecidableEq κ]

/-- What holds of the clients after every turn. -/
structure Inv (f : Family ι σ κ ε α τ) (o : Watched ι σ κ ε α) (latest : τ) : Prop where
  committed_good : f.good (f.guarded o.world.rows)
  good : f.good latest
  onward : f.later (f.guarded o.world.rows) latest
  free : o.world.holder f.lock = .none → latest = f.guarded o.world.rows
  stages : ∀ i, f.Stage i (o.read i) (o.world.holder f.lock = .some i) (f.guarded o.world.rows) latest (o.world.phase i)

/-- The write that a client is at may be done. -/
def Permits (f : Family ι σ κ ε α τ) (o : Watched ι σ κ ε α) (i : ι) : Prop :=
  o.Writing f.lock i → ∀ write written, f.writes i (f.guarded (o.read i)) write →
    write (f.guarded o.world.rows) = some written →
    f.good written ∧ f.later (f.guarded o.world.rows) written ∧ f.done i written ∧
      ∀ j, j ≠ i → (f.atomic j = false ∨ o.Returned j) → f.done j (f.guarded o.world.rows) → f.done j written

variable {o : Watched ι σ κ ε α} {latest : τ} {i : ι}

omit [DecidableEq κ] in
theorem holder_released (w : World ι σ κ ε α) {i j : ι} (ne : j ≠ i) (lock : κ) :
    w.released i lock = .some j ↔ w.holder lock = .some j := by
  unfold World.released
  split
  · rename_i mine
    simp [mine, Ne.symm ne]
  · rfl

omit [DecidableEq κ] in
theorem unheld_released (w : World ι σ κ ε α) (i : ι) (lock : κ) : w.released i lock ≠ .some i := by
  unfold World.released
  split
  · simp
  · assumption

omit [DecidableEq κ] in
theorem free_released {w : World ι σ κ ε α} {i : ι} {lock : κ} (released : w.released i lock = .none) :
    w.holder lock = .none ∨ w.holder lock = .some i := by
  unfold World.released at released
  split at released
  · rename_i mine
    exact .inr mine
  · exact .inl released

theorem read_other (o : Watched ι σ κ ε α) {i j : ι} (ne : j ≠ i) : (o.turn i).read j = o.read j := by
  unfold Watched.turn
  dsimp only
  split
  · exact Function.update_of_ne ne _ _
  · rfl

/-- The invariant after a turn, from the stage of who took it and those of the others. -/
theorem Inv.of_turn {w : World ι σ κ ε α} {phase : Phase σ κ ε α} {latest' : τ} (turned : o.world.turn i = w)
    (phases : w.phase = o.world.holds i phase) (committed_good : f.good (f.guarded w.rows)) (good : f.good latest')
    (onward : f.later (f.guarded w.rows) latest') (free : w.holder f.lock = .none → latest' = f.guarded w.rows)
    (mine : f.Stage i ((o.turn i).read i) (w.holder f.lock = .some i) (f.guarded w.rows) latest' phase)
    (others : ∀ j, j ≠ i → f.Stage j (o.read j) (w.holder f.lock = .some j) (f.guarded w.rows) latest' (o.world.phase j)) :
    f.Inv (o.turn i) latest' := by
  have world : (o.turn i).world = w := turned
  refine ⟨?_, good, ?_, ?_, ?_⟩
  · rwa [world]
  · rwa [world]
  · rwa [world]
  · intro j
    rw [world, phases]
    by_cases same : j = i
    · subst same
      rw [World.holds, Function.update_self]
      exact mine
    · rw [World.holds, Function.update_of_ne same, read_other o same]
      exact others j same

/-- A turn that leaves what is guarded and its latest version as they are. -/
theorem Inv.same (inv : f.Inv o latest) {w : World ι σ κ ε α} {phase : Phase σ κ ε α} (turned : o.world.turn i = w)
    (phases : w.phase = o.world.holds i phase) (rows : f.guarded w.rows = f.guarded o.world.rows)
    (holders : ∀ j, j ≠ i → (w.holder f.lock = .some j ↔ o.world.holder f.lock = .some j))
    (free : w.holder f.lock = .none → latest = f.guarded o.world.rows)
    (mine : f.Stage i ((o.turn i).read i) (w.holder f.lock = .some i) (f.guarded o.world.rows) latest phase) :
    f.Inv (o.turn i) latest := by
  apply Inv.of_turn turned phases
  · exact rows ▸ inv.committed_good
  · exact inv.good
  · exact rows ▸ inv.onward
  · exact fun none => (free none).trans rows.symm
  · exact rows.symm ▸ mine
  · intro j ne
    rw [rows, propext (holders j ne)]
    exact inv.stages j

omit [DecidableEq κ] in
theorem unheld_other (free : o.world.free i (.some f.lock) = true)
    (unheld : o.world.holder f.lock ≠ .some i) : o.world.holder f.lock = .none := by
  cases holder : o.world.holder f.lock with
  | none => rfl
  | some j =>
    simp only [World.free, holder, decide_eq_true_eq] at free
    exact absurd (free ▸ holder) unheld

/-- A turn of a client that reads, or writes something else, on its way to its write. -/
theorem Inv.waits (inv : f.Inv o latest) {turns : Nat} {wrote effect : σ → σ} {next : σ → Session σ κ ε α} {base : τ}
    (phase : o.world.phase i = .running (f.atomic i) turns wrote (.stmt .none effect next))
    (unheld : o.world.holder f.lock ≠ .some i) (since : f.later base (f.guarded o.world.rows))
    (neutral : ∀ rows, f.good (f.guarded rows) → f.later base (f.guarded rows) → f.guarded (wrote rows) = f.guarded rows)
    (acts : ∀ seen, f.good (f.guarded seen) → f.later base (f.guarded seen) → f.guarded (effect seen) = f.guarded seen)
    (waits : Pending f.guarded f.lock f.good f.later (f.writes i (f.guarded ((o.turn i).read i))) (f.quits i)
      (f.guarded o.world.rows) (next (if f.atomic i then wrote o.world.rows else o.world.rows))) :
    f.Inv (o.turn i) latest := by
  have here := f.refl (f.guarded o.world.rows)
  cases atomic : f.atomic i with
  | true =>
    rw [atomic] at phase waits
    refine inv.same (o.world.turn_stmt phase rfl) rfl rfl (fun _ _ => .rfl) inv.free ?_
    rw [← atomic]
    refine .pending (by omega) here ?_ waits unheld
    intro rows good later
    have first := neutral rows good (f.trans since later)
    rw [Function.comp_apply, acts _ (first ▸ good) (first ▸ f.trans since later), first]
  | false =>
    rw [atomic] at phase waits
    have rows := acts _ inv.committed_good since
    refine inv.same (o.world.turn_commits phase rfl) rfl rows (fun _ _ => .rfl) inv.free ?_
    rw [← atomic]
    exact .pending (by omega) here (fun rows good later => neutral rows good (f.trans since later)) waits unheld

omit [DecidableEq ι] [DecidableEq κ] in
theorem not_fresh {atomic : Bool} {turns : Nat} {wrote : σ → σ} {rest : Session σ κ ε α} (started : turns ≠ 0)
    (phase : o.world.phase i = .running atomic turns wrote rest) : o.fresh i = false := by
  unfold Watched.fresh
  rw [phase]
  cases turns with
  | zero => exact absurd rfl started
  | succ n => rfl

theorem read_kept (fresh : o.fresh i = false) : (o.turn i).read i = o.read i := by
  simp [Watched.turn, fresh]

theorem Inv.stays (inv : f.Inv o latest) (fresh : o.fresh i = false) (stays : o.world.turn i = o.world) :
    f.Inv (o.turn i) latest := by
  have same : o.turn i = o := by
    unfold Watched.turn
    rw [stays, fresh]
    rfl
  rwa [same]

/-- A turn of a client at its write. -/
theorem Inv.writes (inv : f.Inv o latest) {turns : Nat} {wrote effect : σ → σ} {next : σ → Session σ κ ε α} {base : τ}
    {write : τ → Option τ} (started : turns ≠ 0)
    (phase : o.world.phase i = .running (f.atomic i) turns wrote (.stmt (.some f.lock) effect next))
    (unheld : o.world.holder f.lock ≠ .some i) (since : f.later base (f.guarded o.world.rows))
    (neutral : ∀ rows, f.good (f.guarded rows) → f.later base (f.guarded rows) → f.guarded (wrote rows) = f.guarded rows)
    (known : f.writes i (f.guarded (o.read i)) write)
    (acts : ∀ seen, f.good (f.guarded seen) → f.later base (f.guarded seen) →
      match write (f.guarded seen) with
      | none => f.guarded (effect seen) = f.guarded seen ∧ ∃ error, next seen = .fail error
      | some written => f.guarded (effect seen) = written ∧ Settled f.guarded f.good f.later written (next seen))
    (permits : f.Permits o i) : ∃ latest', f.Inv (o.turn i) latest' := by
  have fresh := not_fresh started phase
  cases free : o.world.free i (.some f.lock) with
  | false => exact ⟨latest, inv.stays fresh (o.world.turn_waits phase free)⟩
  | true =>
    have nobody := unheld_other free unheld
    have unheld_by : ∀ j, o.world.holder f.lock ≠ .some j := fun j mine => by rw [nobody] at mine; cases mine
    have now := inv.free nobody
    have seen := neutral _ inv.committed_good since
    have holders : ∀ j, j ≠ i → (Function.update o.world.holder f.lock (.some i) f.lock = .some j ↔
        o.world.holder f.lock = .some j) := by
      intro j ne
      simp [nobody, Ne.symm ne]
    cases result : write (f.guarded o.world.rows) with
    | none =>
      refine ⟨latest, ?_⟩
      cases atomic : f.atomic i with
      | true =>
        rw [atomic] at phase
        have refused := acts (wrote o.world.rows) (seen ▸ inv.committed_good) (seen ▸ since)
        rw [seen, result] at refused
        obtain ⟨-, error, fails⟩ := refused
        refine inv.same (o.world.turn_stmt phase free) rfl rfl holders (fun _ => now) ?_
        rw [← atomic, fails]
        exact .refused (by omega) fun _ => now
      | false =>
        rw [atomic] at phase
        have refused := acts o.world.rows inv.committed_good since
        rw [result] at refused
        obtain ⟨rows, error, fails⟩ := refused
        refine inv.same (o.world.turn_commits phase free) rfl rows (fun _ _ => .rfl) inv.free ?_
        rw [← atomic, fails]
        exact .refused (by omega) fun _ => now
    | some written =>
      obtain ⟨good, onward, done, keeps⟩ := permits ⟨_, _, _, _, _, phase, free⟩ write written known result
      refine ⟨written, ?_⟩
      have others : ∀ j, j ≠ i → (f.atomic j = false ∨ ∃ result, o.world.phase j = .returned result) →
          f.done j latest → f.done j written := fun j ne ended before => keeps j ne ended (now ▸ before)
      cases atomic : f.atomic i with
      | true =>
        rw [atomic] at phase
        refine Inv.of_turn (o.world.turn_stmt phase free) rfl inv.committed_good good onward ?_ ?_ ?_
        · intro none
          simp [World.locked] at none
        · rw [← atomic]
          have acted := acts (wrote o.world.rows) (seen ▸ inv.committed_good) (seen ▸ since)
          rw [seen, result] at acted
          refine .written (by omega) atomic (by simp [World.locked]) ?_ acted.2 done
          intro rows same
          have first := neutral rows (same ▸ inv.committed_good) (same ▸ since)
          have acted := acts (wrote rows) (first ▸ same ▸ inv.committed_good) (first ▸ same ▸ since)
          rw [first, same, result] at acted
          exact acted.1
        · intro j ne
          exact propext (holders j ne) ▸
            (inv.stages j).moves (unheld_by j) (f.refl _) (.inl rfl) (others j ne)
      | false =>
        rw [atomic] at phase
        have acted := acts o.world.rows inv.committed_good since
        rw [result] at acted
        refine Inv.of_turn (o.world.turn_commits phase free) rfl ?_ good ?_ ?_ ?_ ?_
        · rw [acted.1]; exact good
        · rw [acted.1]; exact f.refl _
        · intro _; exact acted.1.symm
        · rw [← atomic, acted.1]
          exact .committed (by omega) atomic unheld (f.refl _)
            (fun rows good later => neutral rows good (f.trans since (f.trans onward later))) acted.2 done done
        · intro j ne
          rw [acted.1]
          exact (inv.stages j).moves (unheld_by j) onward (.inr rfl) (others j ne)

/-- A client that returns without having written in an open transaction, or that has
written statement by statement. -/
theorem Inv.returns (inv : f.Inv o latest) {atomic : Bool} {turns : Nat} {wrote : σ → σ} {result : α} {base : τ}
    (phase : o.world.phase i = .running atomic turns wrote (.ret result))
    (unheld : o.world.holder f.lock ≠ .some i) (since : f.later base (f.guarded o.world.rows))
    (neutral : ∀ rows, f.good (f.guarded rows) → f.later base (f.guarded rows) → f.guarded (wrote rows) = f.guarded rows)
    (done : f.done i (f.guarded o.world.rows)) (ahead : f.done i latest) : f.Inv (o.turn i) latest := by
  refine inv.same (o.world.turn_ret phase) rfl (neutral _ inv.committed_good since)
    (fun j ne => holder_released o.world ne f.lock) ?_ ?_
  · intro released
    rcases free_released released with none | mine
    · exact inv.free none
    · exact absurd mine unheld
  · exact .returned (unheld_released o.world i f.lock) done ahead

theorem Inv.fails (inv : f.Inv o latest) {atomic : Bool} {turns : Nat} {wrote : σ → σ} {error : ε}
    (phase : o.world.phase i = .running atomic turns wrote (.fail error))
    (same : o.world.holder f.lock = .some i → latest = f.guarded o.world.rows) : f.Inv (o.turn i) latest := by
  refine inv.same (o.world.turn_fail phase) rfl rfl (fun j ne => holder_released o.world ne f.lock) ?_ ?_
  · intro released
    rcases free_released released with none | mine
    · exact inv.free none
    · exact same mine
  · exact .failed (unheld_released o.world i f.lock)

/-- A turn of a client that has written in its transaction. -/
theorem Inv.settles (inv : f.Inv o latest) {turns : Nat} {wrote : σ → σ} {rest : Session σ κ ε α} (started : turns ≠ 0)
    (atomic : f.atomic i = true) (phase : o.world.phase i = .running (f.atomic i) turns wrote rest)
    (holds : o.world.holder f.lock = .some i)
    (effect : ∀ rows, f.guarded rows = f.guarded o.world.rows → f.guarded (wrote rows) = latest)
    (settled : Settled f.guarded f.good f.later latest rest) (done : f.done i latest) : f.Inv (o.turn i) latest := by
  cases rest with
  | fail error => exact settled.elim
  | ret result =>
    have rows := effect o.world.rows rfl
    refine Inv.of_turn (o.world.turn_ret phase) rfl ?_ inv.good ?_ (fun _ => rows.symm) ?_ ?_
    · rw [rows]; exact inv.good
    · rw [rows]; exact f.refl latest
    · exact .returned (unheld_released o.world i f.lock) (rows ▸ done) done
    · intro j ne
      have unheld : o.world.holder f.lock ≠ .some j := by
        rw [holds]
        simp [Ne.symm ne]
      rw [propext (holder_released o.world ne f.lock), rows]
      exact (inv.stages j).moves unheld inv.onward (.inr rfl) fun _ done => done
  | stmt asked act next =>
    obtain ⟨rfl, acts⟩ := settled
    have seen := effect o.world.rows rfl
    have acted := acts (wrote o.world.rows) (seen ▸ inv.good) (seen ▸ f.refl latest)
    have fresh := read_kept (not_fresh started phase)
    rw [atomic] at phase
    refine inv.same (o.world.turn_stmt phase rfl) rfl rfl (fun _ _ => .rfl) inv.free ?_
    rw [← atomic]
    refine .written (by omega) atomic holds ?_ (seen ▸ acted.2) done
    intro rows same
    have here := effect rows same
    rw [Function.comp_apply, (acts (wrote rows) (here ▸ inv.good) (here ▸ f.refl latest)).1, here]

/-- A turn of a client that has written, each statement committed by itself. -/
theorem Inv.goes_on (inv : f.Inv o latest) {turns : Nat} {wrote : σ → σ} {rest : Session σ κ ε α} {base : τ}
    (atomic : f.atomic i = false) (phase : o.world.phase i = .running (f.atomic i) turns wrote rest)
    (unheld : o.world.holder f.lock ≠ .some i) (since : f.later base (f.guarded o.world.rows))
    (neutral : ∀ rows, f.good (f.guarded rows) → f.later base (f.guarded rows) → f.guarded (wrote rows) = f.guarded rows)
    (settled : Settled f.guarded f.good f.later base rest) (done : f.done i (f.guarded o.world.rows))
    (ahead : f.done i latest) : f.Inv (o.turn i) latest := by
  cases rest with
  | fail error => exact settled.elim
  | ret result => exact inv.returns phase unheld since neutral done ahead
  | stmt asked act next =>
    obtain ⟨rfl, acts⟩ := settled
    obtain ⟨rows, settled⟩ := acts o.world.rows inv.committed_good since
    rw [atomic] at phase
    refine inv.same (o.world.turn_commits phase rfl) rfl rows (fun _ _ => .rfl) inv.free ?_
    rw [← atomic]
    exact .committed (by omega) atomic unheld (f.refl _)
      (fun rows good later => neutral rows good (f.trans since later)) settled done ahead

/-- A client's first turn. -/
theorem Inv.begins (inv : f.Inv o latest) (phase : o.world.phase i = .running (f.atomic i) 0 id (f.client i))
    (unheld : o.world.holder f.lock ≠ .some i) : f.Inv (o.turn i) latest := by
  have begins := f.begins i
  have fresh : o.fresh i = true := by simp [Watched.fresh, phase]
  have read : (o.turn i).read i = o.world.rows := by simp [Watched.turn, fresh]
  cases client : f.client i with
  | ret result =>
    rw [client] at begins
    exact begins.elim
  | fail error =>
    rw [client] at begins
    exact begins.elim
  | stmt asked effect next =>
    rw [client] at begins phase
    cases asked with
    | some lock => exact begins.elim
    | none =>
      apply inv.waits phase unheld (f.refl _) (fun _ _ _ => rfl) fun seen good _ => (begins seen good).1
      rw [read]
      simpa using (begins o.world.rows inv.committed_good).2

/-- Every turn keeps the invariant, where the write that it may be is permitted. -/
theorem Inv.turn (inv : f.Inv o latest) (permits : f.Permits o i) : ∃ latest', f.Inv (o.turn i) latest' := by
  generalize phase : o.world.phase i = p
  have stage := inv.stages i
  rw [phase] at stage
  cases stage with
  | fresh unheld => exact ⟨latest, inv.begins phase unheld⟩
  | @pending turns wrote rest base started since neutral waits unheld =>
    have kept := read_kept (not_fresh started phase)
    cases rest with
    | fail error => exact ⟨latest, inv.fails phase fun held => absurd held unheld⟩
    | ret result =>
      exact ⟨latest, inv.returns phase unheld since neutral (f.quit waits since)
        (f.quit waits (f.trans since inv.onward))⟩
    | stmt asked effect next =>
      rcases waits with ⟨rfl, acts⟩ | ⟨rfl, write, known, acts⟩
      · refine ⟨latest, inv.waits phase unheld since neutral (fun seen good later => (acts seen good later).1) ?_⟩
        have seen : f.guarded (if f.atomic i then wrote o.world.rows else o.world.rows) = f.guarded o.world.rows := by
          split
          · exact neutral _ inv.committed_good since
          · rfl
        rw [kept]
        have next_waits := (acts _ (seen ▸ inv.committed_good) (seen ▸ since)).2
        rwa [seen] at next_waits
      · exact inv.writes started phase unheld since neutral known acts permits
  | refused _ same => exact ⟨latest, inv.fails phase same⟩
  | written started atomic holds effect settled done =>
    exact ⟨latest, inv.settles started atomic phase holds effect settled done⟩
  | committed _ atomic unheld since neutral settled done ahead =>
    exact ⟨latest, inv.goes_on atomic phase unheld since neutral settled done ahead⟩
  | returned unheld done ahead =>
    exact ⟨latest, inv.stays (by simp [Watched.fresh, phase]) (o.world.turn_returned phase)⟩
  | failed unheld =>
    exact ⟨latest, inv.stays (by simp [Watched.fresh, phase]) (o.world.turn_failed phase)⟩

omit [DecidableEq ι] [DecidableEq κ] in
theorem Inv.start (rows : σ) (good : f.good (f.guarded rows)) :
    f.Inv (Watched.start rows f.atomic f.client) (f.guarded rows) := by
  refine ⟨good, good, f.refl _, fun _ => rfl, fun i => ?_⟩
  exact .fresh (by simp [Watched.start, Session.start])

/-- In every state that a run reaches, what is to hold once a client has written holds of
the rows committed, for each client that has returned. -/
theorem done_along {allowed : Watched ι σ κ ε α → ι → Prop} {rows : σ} (good : f.good (f.guarded rows))
    (permits : ∀ o latest i, f.Inv o latest → allowed o i → f.Permits o i) (turns : List ι)
    (along : Transition.Along Watched.turn allowed (Watched.start rows f.atomic f.client) turns) :
    f.good (f.guarded (Transition.run Watched.turn (Watched.start rows f.atomic f.client) turns).world.rows) ∧
      ∀ i, (Transition.run Watched.turn (Watched.start rows f.atomic f.client) turns).Returned i →
        f.done i (f.guarded (Transition.run Watched.turn (Watched.start rows f.atomic f.client) turns).world.rows) := by
  have keeps : ∀ (o : Watched ι σ κ ε α) (i : ι), (∃ latest, f.Inv o latest) → allowed o i →
      ∃ latest, f.Inv (o.turn i) latest := by
    rintro o i ⟨latest, inv⟩ allowed
    exact inv.turn (permits o latest i inv allowed)
  obtain ⟨latest, inv⟩ :=
    Transition.always_last turns (Transition.always_of_invariant keeps turns ⟨_, .start rows good⟩ along)
  refine ⟨inv.committed_good, fun i ⟨result, phase⟩ => ?_⟩
  have stage := inv.stages i
  rw [phase] at stage
  cases stage with
  | returned unheld done ahead => exact done

end Family

end OpenVibeHost.Session
