import Mathlib.Logic.Basic
import Mathlib.Data.List.Basic

/-! Runs of a deterministic system driven by a schedule of actions. A property
of every state a run reaches follows from an invariant that each allowed
action preserves; a property of every action taken follows from what the
invariant says in the state the action is taken from. -/
namespace OpenVibeHost.Transition

variable {State Action : Type*} {step : State → Action → State}

/-- The state at the end of a schedule. -/
def run (step : State → Action → State) (state : State) (schedule : List Action) : State :=
  schedule.foldl step state

/-- Every state of the run satisfies `holds`, the first and the last included. -/
def Always (step : State → Action → State) (holds : State → Prop) : State → List Action → Prop
  | state, [] => holds state
  | state, action :: rest => holds state ∧ Always step holds (step state action) rest

/-- Every action of the run meets `allowed` in the state it is taken from. -/
def Along (step : State → Action → State) (allowed : State → Action → Prop) :
    State → List Action → Prop
  | _, [] => True
  | state, action :: rest => allowed state action ∧ Along step allowed (step state action) rest

instance decidableAlways {holds : State → Prop} [DecidablePred holds] :
    ∀ state schedule, Decidable (Always step holds state schedule)
  | state, [] => inferInstanceAs (Decidable (holds state))
  | state, action :: rest =>
    have : Decidable (Always step holds (step state action) rest) :=
      decidableAlways (step state action) rest
    inferInstanceAs (Decidable (holds state ∧ Always step holds (step state action) rest))

instance decidableAlong {allowed : State → Action → Prop}
    [∀ state action, Decidable (allowed state action)] :
    ∀ state schedule, Decidable (Along step allowed state schedule)
  | _, [] => inferInstanceAs (Decidable True)
  | state, action :: rest =>
    have : Decidable (Along step allowed (step state action) rest) :=
      decidableAlong (step state action) rest
    inferInstanceAs (Decidable (allowed state action ∧ Along step allowed (step state action) rest))

/-- An invariant that every allowed action preserves holds throughout. -/
theorem always_of_invariant {inv : State → Prop} {allowed : State → Action → Prop}
    (keeps : ∀ state action, inv state → allowed state action → inv (step state action))
    (schedule : List Action) {state : State} (start : inv state)
    (along : Along step allowed state schedule) : Always step inv state schedule := by
  induction schedule generalizing state with
  | nil => exact start
  | cons action rest ih =>
    obtain ⟨first, later⟩ := along
    exact ⟨start, ih (keeps state action start first) later⟩

/-- An invariant that every action preserves holds throughout. -/
theorem always_of_preserved {inv : State → Prop}
    (keeps : ∀ state action, inv state → inv (step state action))
    (schedule : List Action) {state : State} (start : inv state) :
    Always step inv state schedule := by
  induction schedule generalizing state with
  | nil => exact start
  | cons action rest ih => exact ⟨start, ih (keeps state action start)⟩

theorem always_mono {first second : State → Prop} (implies : ∀ state, first state → second state)
    (schedule : List Action) {state : State} (always : Always step first state schedule) :
    Always step second state schedule := by
  induction schedule generalizing state with
  | nil => exact implies state always
  | cons action rest ih => exact ⟨implies state always.1, ih always.2⟩

/-- Properties that the invariant makes equivalent hold throughout together. -/
theorem always_congr {inv first second : State → Prop}
    (same : ∀ state, inv state → (first state ↔ second state)) (schedule : List Action)
    {state : State} (always : Always step inv state schedule) :
    Always step first state schedule ↔ Always step second state schedule := by
  induction schedule generalizing state with
  | nil => exact same state always
  | cons action rest ih => exact and_congr (same state always.1) (ih always.2)

/-- What the invariant gives in a state, every action taken from that state has. -/
theorem along_of_always {inv : State → Prop} {allowed wanted : State → Action → Prop}
    (gives : ∀ state action, inv state → allowed state action → wanted state action)
    (schedule : List Action) {state : State} (always : Always step inv state schedule)
    (along : Along step allowed state schedule) : Along step wanted state schedule := by
  induction schedule generalizing state with
  | nil => trivial
  | cons action rest ih =>
    exact ⟨gives state action always.1 along.1, ih always.2 along.2⟩

theorem along_mono {first second : State → Action → Prop}
    (implies : ∀ state action, first state action → second state action)
    (schedule : List Action) {state : State} (along : Along step first state schedule) :
    Along step second state schedule := by
  induction schedule generalizing state with
  | nil => trivial
  | cons action rest ih => exact ⟨implies state action along.1, ih along.2⟩

theorem always_last {holds : State → Prop} (schedule : List Action) {state : State}
    (always : Always step holds state schedule) : holds (run step state schedule) := by
  induction schedule generalizing state with
  | nil => exact always
  | cons action rest ih => exact ih always.2

/-! ### Logs -/

/-- In a log with its latest entry first, every entry has its grounds in what came before it. -/
def Grounded {Event : Type*} (grounds : List Event → Event → Prop) : List Event → Prop
  | [] => True
  | event :: earlier => grounds earlier event ∧ Grounded grounds earlier

theorem Grounded.entry {Event : Type*} {grounds : List Event → Event → Prop} {later earlier : List Event} {event : Event}
    (grounded : Grounded grounds (later ++ event :: earlier)) : grounds earlier event := by
  induction later with
  | nil => exact grounded.1
  | cons _ _ ih => exact ih grounded.2

end OpenVibeHost.Transition
