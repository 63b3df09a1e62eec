import Mathlib.Data.Fintype.Defs
import OpenVibeHost.Sessions

/-! Clients that look whether there is room and then add one row. Looking and adding
are two statements, so room seen may be gone when the row is added; it is not
where nobody adds a row that another client between the two would have counted. -/
namespace OpenVibeHost.CountGates

open Session (Phase World Event)

variable {σ κ ε α ι : Type}

/-- Nothing more is done. -/
inductive Over : Session σ κ ε α → Prop
  | ret (result : α) : Over (.ret result)
  | fail (error : ε) : Over (.fail error)

/-- At most one row is added, and the program ends there. -/
inductive Adds (adds : σ → σ → Prop) : Session σ κ ε α → Prop
  | ended {rest : Session σ κ ε α} (ended : Over rest) : Adds adds rest
  | read {next : σ → Session σ κ ε α} (goes_on : ∀ seen, Adds adds (next seen)) :
    Adds adds (.stmt none id next)
  | add {effect : σ → σ} {next : σ → Session σ κ ε α}
      (row : ∀ seen, effect seen = seen ∨ adds seen (effect seen)) (ended : ∀ seen, Over (next seen)) :
    Adds adds (.stmt none effect next)

/-- Nothing is written. -/
inductive Reads : Session σ κ ε α → Prop
  | ret (result : α) : Reads (.ret result)
  | fail (error : ε) : Reads (.fail error)
  | read {next : σ → Session σ κ ε α} (goes_on : ∀ seen, Reads (next seen)) : Reads (.stmt none id next)

theorem Reads.then_adds {β : Type} {adds : σ → σ → Prop} {first : Session σ κ ε α}
    {rest : α → Session σ κ ε β} (reads : Reads first) (tail : ∀ a, Adds adds (rest a)) :
    Adds adds (first >>= rest) := by
  induction reads with
  | ret result => exact tail result
  | fail error => exact .ended (.fail error)
  | read _ ih => exact .read ih

/-- A program that first looks for room, and adds only where there is. -/
inductive Gated (room : σ → Prop) (adds : σ → σ → Prop) : Session σ κ ε α → Prop
  | refused (error : ε) : Gated room adds (.fail error)
  | looks {next : σ → Session σ κ ε α} (full : ∀ seen, ¬ room seen → Over (next seen))
      (free : ∀ seen, room seen → Adds adds (next seen)) :
    Gated room adds (.stmt none id next)

/-- Between its look and its end. -/
def Midway : Phase σ κ ε α → Prop
  | .running _ turns _ (.stmt ..) => 0 < turns
  | _ => False

/-- A client of each kind `ι`: what counts as room for it, the rows it adds, and whose
rows count against it. -/
structure Gates (σ ι : Type) where
  room : ι → σ → Prop
  adds : ι → σ → σ → Prop
  rival : ι → ι → Prop
  /-- A row takes room only from rivals. -/
  others : ∀ i j s s', ¬ rival i j → adds i s s' → room j s → room j s'

variable [DecidableEq ι] [DecidableEq κ]

/-- A step that adds a row is taken only while no other client whose room it may take is
midway. -/
def Apart (gates : Gates σ ι) (w : World ι σ κ ε α) : Event ι ε → Prop
  | .turn i => (w.turn i).rows ≠ w.rows → ∀ j, j ≠ i → gates.rival i j → ¬ Midway (w.phase j)
  | .fault _ _ => True

instance (phase : Phase σ κ ε α) : Decidable (Midway phase) :=
  match phase with
  | .running _ turns _ (.stmt ..) => inferInstanceAs (Decidable (0 < turns))
  | .running _ _ _ (.ret _) | .running _ _ _ (.fail _) => isFalse id
  | .returned _ | .failed _ => isFalse id

/-- Nobody else is midway when a client takes a step. -/
def Alone (w : World ι σ κ ε α) : Event ι ε → Prop
  | .turn i => ∀ j, j ≠ i → ¬ Midway (w.phase j)
  | .fault _ _ => True

instance [Fintype ι] (w : World ι σ κ ε α) (event : Event ι ε) : Decidable (Alone w event) :=
  match event with
  | .turn i => inferInstanceAs (Decidable (∀ j, j ≠ i → ¬ Midway (w.phase j)))
  | .fault _ _ => isTrue trivial

theorem Alone.apart {gates : Gates σ ι} {w : World ι σ κ ε α} {event : Event ι ε}
    (alone : Alone w event) : Apart gates w event := by
  cases event with
  | turn i => exact fun _ j other _ => alone j other
  | fault i error => trivial

/-- Where a client stands. Midway, the room it saw is still there. -/
inductive Stands (room : σ → Prop) (adds : σ → σ → Prop) (rows : σ) : Phase σ κ ε α → Prop
  | before {client : Session σ κ ε α} (gated : Gated room adds client) :
    Stands room adds rows (.running false 0 id client)
  | midway {turns : Nat} {rest : Session σ κ ε α} (tail : Adds adds rest) (free : room rows) :
    Stands room adds rows (.running false (turns + 1) id rest)
  | ended {turns : Nat} {rest : Session σ κ ε α} (ended : Over rest) :
    Stands room adds rows (.running false turns id rest)
  | returned (result : α) : Stands room adds rows (.returned result)
  | failed (error : ε) : Stands room adds rows (.failed error)

structure Guarded (gates : Gates σ ι) (inv : σ → Prop) (w : World ι σ κ ε α) : Prop where
  rows : inv w.rows
  stands : ∀ i, Stands (gates.room i) (gates.adds i) w.rows (w.phase i)

variable {gates : Gates σ ι} {inv : σ → Prop} {w : World ι σ κ ε α}

omit [DecidableEq ι] [DecidableEq κ] in
/-- A client that is not midway stands as it does whatever rows are added. -/
theorem Stands.of_added {room : σ → Prop} {adds : σ → σ → Prop} {rows rows' : σ}
    {phase : Phase σ κ ε α} (stands : Stands room adds rows phase)
    (keeps : Midway phase → room rows → room rows') : Stands room adds rows' phase := by
  cases stands with
  | before gated => exact .before gated
  | ended ended => exact .ended ended
  | returned result => exact .returned result
  | failed error => exact .failed error
  | midway tail free =>
    cases tail with
    | ended ended => exact .ended ended
    | read goes_on => exact .midway (.read goes_on) (keeps (Nat.succ_pos _) free)
    | add row ended => exact .midway (.add row ended) (keeps (Nat.succ_pos _) free)

omit [DecidableEq κ] in
/-- A step of one client, its new place checked and the rows kept right. -/
theorem Guarded.moved (g : Guarded gates inv w) (i : ι) {phase : Phase σ κ ε α} {rows : σ}
    {holder : κ → Option ι} (fine : inv rows) (own : Stands (gates.room i) (gates.adds i) rows phase)
    (others : ∀ j, j ≠ i → Midway (w.phase j) → gates.room j w.rows → gates.room j rows) :
    Guarded gates inv { rows, holder, phase := w.holds i phase } where
  rows := fine
  stands j := by
    by_cases same : j = i
    · subst same
      simpa only [World.holds, Function.update_self] using own
    · simp only [World.holds, Function.update_of_ne same]
      exact (g.stands j).of_added (others j same)

omit [DecidableEq κ] in
theorem Guarded.stays (g : Guarded gates inv w) (i : ι) {phase : Phase σ κ ε α}
    {holder : κ → Option ι} (own : Stands (gates.room i) (gates.adds i) w.rows phase) :
    Guarded gates inv { w with holder, phase := w.holds i phase } :=
  g.moved i g.rows own fun _ _ _ => id

theorem Guarded.turn (kept : ∀ i s s', inv s → gates.room i s → gates.adds i s s' → inv s')
    (g : Guarded gates inv w) (i : ι) (apart : Apart gates w (.turn i)) :
    Guarded gates inv (w.turn i) := by
  have stands := g.stands i
  generalize phase : w.phase i = stage at stands
  cases stands with
  | before gated =>
    cases gated with
    | refused error =>
      rw [World.turn_fail phase]
      exact g.stays i (.failed error)
    | @looks next full free =>
      rw [World.turn_commits phase rfl]
      apply g.stays i
      by_cases room : gates.room i w.rows
      · exact .midway (free w.rows room) room
      · exact .ended (full w.rows room)
  | ended ended =>
    cases ended with
    | ret result =>
      rw [World.turn_ret phase]
      exact g.stays i (.returned result)
    | fail error =>
      rw [World.turn_fail phase]
      exact g.stays i (.failed error)
  | returned result => rwa [World.turn_returned phase]
  | failed error => rwa [World.turn_failed phase]
  | midway tail free =>
    cases tail with
    | ended ended =>
      cases ended with
      | ret result =>
        rw [World.turn_ret phase]
        exact g.stays i (.returned result)
      | fail error =>
        rw [World.turn_fail phase]
        exact g.stays i (.failed error)
    | read goes_on =>
      rw [World.turn_commits phase rfl]
      exact g.stays i (.midway (goes_on w.rows) free)
    | @add effect next row ended =>
      rw [World.turn_commits phase rfl]
      rcases row w.rows with same | added
      · rw [same]
        exact g.stays i (.ended (ended w.rows))
      · apply g.moved i (kept i _ _ g.rows free added) (.ended (ended w.rows))
        intro j other midway room
        by_cases changed : effect w.rows = w.rows
        · rwa [changed]
        · have alone := apart (by rw [World.turn_commits phase rfl]; exact changed) j other
          exact gates.others i j _ _ (fun rival => alone rival midway) added room

theorem Guarded.step (kept : ∀ i s s', inv s → gates.room i s → gates.adds i s s' → inv s')
    (g : Guarded gates inv w) (event : Event ι ε) (apart : Apart gates w event) :
    Guarded gates inv (w.step event) := by
  cases event with
  | turn i => exact g.turn kept i apart
  | fault i error =>
    cases phase : w.phase i with
    | running atomic turns wrote rest =>
      simp only [World.step, World.fault, phase]
      exact g.stays i (.failed error)
    | returned result => simpa only [World.step, World.fault, phase] using g
    | failed error => simpa only [World.step, World.fault, phase] using g

/-- What one addition with room keeps, every run keeps whose clients add apart. -/
theorem always_kept (kept : ∀ i s s', inv s → gates.room i s → gates.adds i s s' → inv s')
    {rows : σ} {client : ι → Session σ κ ε α} (fine : inv rows)
    (gated : ∀ i, Gated (gates.room i) (gates.adds i) (client i)) (schedule : List (Event ι ε))
    (apart : Transition.Along World.step (Apart gates) (Session.start rows (fun _ => false) client) schedule) :
    Transition.Always World.step (fun w => inv w.rows)
      (Session.start rows (fun _ => false) client) schedule :=
  Transition.always_mono (fun _ (g : Guarded gates inv _) => g.rows) schedule
    (Transition.always_of_invariant (fun _ event g => g.step kept event) schedule
      ⟨fine, fun i => .before (gated i)⟩ apart)

end OpenVibeHost.CountGates
