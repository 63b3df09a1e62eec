import OpenVibeHost.ReleaseLayout

/-! `ovhost deploy`, `ovhost rollback` and `ovhost plan`: the entry points of
`lib/release-ops.js`, and the exit codes that `lib/cli.js` gives their errors. -/
namespace OpenVibeHost.Operations
open Effects Program Releases ReleaseOps

/-- `apply`: the engine of the service's strategy. -/
def apply (inv : Inventory) (pid : Nat) (svc : Service) (mode : Mode) (opts : Options) :
    Ops Applied :=
  if layout : svc.strategy = .releaseLayout then
    ReleaseLayout.apply inv pid svc (svc.release.get (svc.laid_out layout)) mode opts
  else applyInPlace inv pid svc mode opts

def freezeFile (inv : Inventory) (id : String) : String := inv.stateDir ++ "/freeze/" ++ id ++ ".json"

/-- The freeze that holds a service: its own, else the one on `all`. -/
def frozen (inv : Inventory) (id : String) : Exec (Option Json) :=
  firstOf [id, "all"] fun name =>
    attempt
      (do return (Json.parseFile (← Exec.readFile (freezeFile inv name))).filter Json.truthy)
      fun _ => pure none

/-- `deploy`: a freeze holds it, unless forced. -/
def deploy (inv : Inventory) (pid : Nat) (id : String) (opts : Options) : Ops Applied := do
  let svc ← orThrow (inv.service id)
  match ← frozen inv svc.id with
  | some hold =>
    if opts.force = false then
      throw (opError (svc.id ++ " is frozen since " ++ (textField hold "at").getD "undefined" ++ ": " ++
        (textField hold "reason").getD "undefined" ++ ". ovhost unfreeze " ++
        (textField hold "service").getD "undefined" ++ ", or --force") .frozen)
    else apply inv pid svc .deploy opts
  | none => apply inv pid svc .deploy opts

/-- `rollback`: in place, to the commit the log names where none is given. -/
def rollback (inv : Inventory) (pid : Nat) (id : String) (opts : Options) : Ops Applied := do
  let svc ← orThrow (inv.service id)
  if svc.managed = true ∧ svc.strategy = .releaseLayout then apply inv pid svc .rollback opts
  else
    match opts.target.filter (· ≠ "") with
    | some target => apply inv pid svc .rollback { opts with target := some target }
    | none =>
      let current ← Git.getHead svc.checkout
      let records ← Releases.list inv id
      match ← orThrow (previousFor records.reverse current) with
      | some target => apply inv pid svc .rollback { opts with target := some target }
      | none =>
        throw (opError ("no deploy in the release log brought " ++ id ++ " to " ++ sha12 current ++
          "; pass --to <sha>") .usage)

/-- What `ovhost plan` and the deploy controller read of a plan. -/
structure Planned where
  fromSha : String
  toSha : String
  upToDate : Bool
  changed : List String

/-- `plan`. -/
def plan (inv : Inventory) (id : String) (opts : Options) : Exec Planned := do
  let svc ← orThrow (inv.service id)
  if layout : svc.strategy = .releaseLayout then
    let rel := svc.release.get (svc.laid_out layout)
    let p ← ReleaseLayout.computePlan inv svc rel .deploy opts
    return { fromSha := p.fromSha, toSha := p.toSha, upToDate := p.upToDate, changed := p.changed }
  else
    let p ← computePlan svc .deploy opts
    return { fromSha := p.fromSha, toSha := p.toSha, upToDate := p.upToDate, changed := p.changed }

/-- The exit code of `ovhost`. -/
def exitCode : Except Failure Applied → Nat
  | .ok applied => applied.exitCode
  | .error (.op _ code _) => code
  | .error (.locked _) | .error (.inventory _) | .error (.socketGuard _) => 1
  | .error (.plain _) | .error (.backup _ _) => 2

end OpenVibeHost.Operations
