import OpenVibeHost.Transition
import Mathlib.Data.List.AList

/-! Freezes and freezing maintenance windows, `lib/incidents.js` and the
`maintenance` command of `lib/cli.js`. One record per service stands in
`<stateDir>/freeze/<service>.json` (or `all.json`); `ovhost freeze` and
`maintenance schedule --freeze` both write it, `ovhost unfreeze` and
`maintenance complete` both remove it. The status page's answers are part of
each operation: what it refuses changes nothing here. -/
namespace OpenVibeHost.Incidents
open Transition

structure IncidentsError where
  message : String
  exitCode : Nat := 2
  deriving DecidableEq, Repr

/-- `SERVICE_RE`, `^[a-z][a-z0-9-]{1,39}$`. -/
def serviceRe (id : String) : Bool :=
  match id.toList with
  | [] => false
  | first :: rest =>
    first.isLower && decide (1 ≤ rest.length ∧ rest.length ≤ 39) &&
      rest.all fun c => c.isLower || c.isDigit || c == '-'

/-- What `String.prototype.trim` takes off. -/
def isBlank (c : Char) : Bool :=
  c.isWhitespace || c == '\x0b' || c == '\x0c' || c == '\u00a0' || c == '\ufeff'

def trim (text : String) : String :=
  String.ofList ((text.toList.dropWhile isBlank).reverse.dropWhile isBlank).reverse

/-- The flag's value, trimmed; refused when it says nothing. -/
def needText (value : Option String) (flag : String) : Except IncidentsError String :=
  match value with
  | none => .error { message := flag ++ " is required", exitCode := 1 }
  | some text =>
    if trim text = "" then .error { message := flag ++ " is required", exitCode := 1 }
    else .ok (trim text)

/-- One freeze file. -/
structure Freeze where
  service : String
  reason : String
  incident : Option String
  setBy : Option String
  setAt : Nat
  deriving DecidableEq, Repr

/-- The freeze directory, by file name without `.json`. -/
abbrev Directory := AList fun _ : String => Freeze

/-- What `ovhost freeze` passes on. -/
structure FreezeOptions where
  reason : Option String
  incident : Option String := none
  setBy : Option String := none
  now : Nat := 0
  deriving DecidableEq, Repr

def checkId (id : String) : Except IncidentsError Unit :=
  if id ≠ "all" ∧ serviceRe id = false then
    .error { message := "not a service id: " ++ id, exitCode := 1 }
  else .ok ()

def freeze (directory : Directory) (id : String) (options : FreezeOptions) :
    Except IncidentsError Directory := do
  checkId id
  let reason ← needText options.reason "--reason"
  return directory.insert id ⟨id, reason, options.incident, options.setBy, options.now⟩

/-- The freeze that holds a service: its own, else the one on `all`; `exact`
asks for its own file only. -/
def frozen (directory : Directory) (id : String) (exact : Bool := false) : Option Freeze :=
  (if exact then [id] else [id, "all"]).findSome? directory.lookup

/-- Also says whether there was a freeze to lift. -/
def unfreeze (directory : Directory) (id : String) : Except IncidentsError (Directory × Bool) := do
  checkId id
  match frozen directory id true with
  | some _ => return (directory.erase id, true)
  | none => return (directory, false)

/-- Every freeze in the directory. The command sorts them by service, for the
operator who reads the list. -/
def freezes (directory : Directory) : List Freeze :=
  directory.entries.map (·.snd)

/-- A maintenance window as the status page answers it. It echoes the services
that were posted, which `services` had checked. -/
structure Window where
  id : String
  title : String
  services : List String
  named : ∀ service ∈ services, serviceRe service = true

/-- `for (const s of r.services) await inc.freeze(ctx, s, …)`. -/
def freezeAll (directory : Directory) (options : FreezeOptions) :
    List String → Directory × Except IncidentsError Unit
  | [] => (directory, .ok ())
  | service :: rest =>
    match freeze directory service options with
    | .ok written => freezeAll written options rest
    | .error refused => (directory, .error refused)

/-- `maintenance schedule --freeze` after the status page accepted the window. -/
def schedule (directory : Directory) (window : Window) (setBy : Option String) (now : Nat) :
    Directory × Except IncidentsError Unit :=
  freezeAll directory
    { reason := some ("maintenance: " ++ window.title), incident := some window.id, setBy, now }
    window.services

/-- `for (const f of await inc.freezes(ctx)) if (f.incident === r.id) await inc.unfreeze(ctx, f.service)`. -/
def unfreezeAll (directory : Directory) : List Freeze → Directory × Except IncidentsError Unit
  | [] => (directory, .ok ())
  | held :: rest =>
    match unfreeze directory held.service with
    | .ok (lifted, _) => unfreezeAll lifted rest
    | .error refused => (directory, .error refused)

/-- `maintenance complete` after the status page accepted it for window `incident`. -/
def complete (directory : Directory) (incident : String) : Directory × Except IncidentsError Unit :=
  unfreezeAll directory ((freezes directory).filter (·.incident = some incident))

/-- One command of an operator. -/
inductive Operation where
  | freeze (id : String) (options : FreezeOptions)
  | unfreeze (id : String)
  | schedule (window : Window) (setBy : Option String) (now : Nat)
  | complete (incident : String)

/-- The directory after a command; a refused one leaves it as it is. -/
def apply (directory : Directory) : Operation → Directory
  | .freeze id options =>
    match freeze directory id options with
    | .ok written => written
    | .error _ => directory
  | .unfreeze id =>
    match unfreeze directory id with
    | .ok (lifted, _) => lifted
    | .error _ => directory
  | .schedule window setBy now => (schedule directory window setBy now).1
  | .complete incident => (complete directory incident).1

/-! ## What the freezes are for -/

/-- Who holds what: operator freezes that nobody lifted, and freezing windows
that are not completed. -/
structure Ledger where
  operator : List String := []
  windows : List Window := []

/-- A freeze that `ovhost freeze` accepts. -/
def Accepted (id : String) (options : FreezeOptions) : Prop :=
  (id = "all" ∨ serviceRe id = true) ∧ ∃ reason, options.reason = some reason ∧ trim reason ≠ ""

instance (id : String) (options : FreezeOptions) : Decidable (Accepted id options) :=
  match reason : options.reason with
  | none => isFalse fun accepted => by simp [Accepted, reason] at accepted
  | some text => decidable_of_iff ((id = "all" ∨ serviceRe id = true) ∧ trim text ≠ "")
      (by simp [Accepted, reason])

def Ledger.apply (ledger : Ledger) : Operation → Ledger
  | .freeze id options =>
    if Accepted id options then { ledger with operator := id :: ledger.operator } else ledger
  | .unfreeze id => { ledger with operator := ledger.operator.filter (· ≠ id) }
  | .schedule window _ _ => { ledger with windows := window :: ledger.windows }
  | .complete incident => { ledger with windows := ledger.windows.filter (·.id ≠ incident) }

/-- An operator freeze or a window names exactly this id. -/
def Ledger.Names (ledger : Ledger) (id : String) : Prop :=
  id ∈ ledger.operator ∨ ∃ window ∈ ledger.windows, id ∈ window.services

/-- A service is held by what names it or names `all`. -/
def Ledger.Holds (ledger : Ledger) (service : String) : Prop :=
  ledger.Names service ∨ ledger.Names "all"

structure Host where
  directory : Directory
  ledger : Ledger

def step (host : Host) (operation : Operation) : Host :=
  ⟨apply host.directory operation, host.ledger.apply operation⟩

/-- Nothing is frozen yet. -/
def nothingFrozen : Host := ⟨∅, {}⟩

/-- A service is reported frozen exactly while something holds it. -/
def Reports (host : Host) : Prop :=
  ∀ service, (frozen host.directory service).isSome ↔ host.ledger.Holds service

/-- Setting a freeze loses no other, and completing a window lifts none that was
set for another reason. An operator may set a freeze of their own anew. -/
def KeepsOthers (host : Host) (operation : Operation) : Prop :=
  ∀ other held, host.directory.lookup other = some held →
    match operation with
    | .freeze id _ => other = id ∧ other ∈ host.ledger.operator ∨
        (apply host.directory operation).lookup other = some held
    | .unfreeze _ => True
    | .schedule .. => (apply host.directory operation).lookup other = some held
    | .complete incident => other ∈ host.ledger.operator ∨
        (∃ window ∈ host.ledger.windows, window.id ≠ incident ∧ other ∈ window.services) →
        (apply host.directory operation).lookup other = some held

/-- The two kinds of freezes keep apart: an operator sets and lifts no freeze
where an open window has one, a window covers nothing that is frozen already,
and no operator freeze carries the incident of a window that is completed. -/
def KeptApart (host : Host) : Operation → Prop
  | .freeze id options => Accepted id options →
      ∀ window ∈ host.ledger.windows, id ∉ window.services
  | .unfreeze id => ∀ window ∈ host.ledger.windows, id ∉ window.services
  | .schedule window _ _ => ∀ id ∈ window.services, ¬ host.ledger.Names id
  | .complete incident => ∀ id ∈ host.ledger.operator, ∀ held,
      host.directory.lookup id = some held → held.incident ≠ some incident

end OpenVibeHost.Incidents
