import OpenVibeHost.Adapters
import Mathlib.Algebra.Ring.Rat

/-! Readiness, `lib/readiness.js`, and protected-session probes, `lib/probes.js`. -/
namespace OpenVibeHost
open Effects Program

namespace Readiness

structure Probed where
  ok : Option Bool
  status : Nat := 0
  error : String := ""
  deriving DecidableEq, Repr

def probe (svc : Service) : Exec Probed :=
  match svc.ready with
  | none => pure { ok := none }
  | some ready => do
    let r ← Exec.http ready.url ready.headers
    return { ok := some (decide (200 ≤ r.status ∧ r.status < 300)), status := r.status, error := r.error }

/-- `new URL('/release.json', url).href` of an http URL: what follows its host is replaced. -/
def releaseUrl (url : String) : String :=
  let scheme := "http://".toList
  let host := (url.toList.drop scheme.length).takeWhile fun c => c ≠ '/' && c ≠ '?' && c ≠ '#'
  String.ofList (scheme ++ host) ++ "/release.json"

/-- `String((m && m.release) || '').toLowerCase()`; of a number, only a whole one can
be read as a sha. -/
def releaseName (m : Json) : String :=
  match m.field "release" with
  | some (.str name) => String.ofList (name.toList.map Char.toLower)
  | some (.num value) => if value = 0 ∨ value.den ≠ 1 then "" else toString value.num
  | some (.arr [.str name]) => String.ofList (name.toList.map Char.toLower)
  | _ => ""

def isHex (c : Char) : Bool := c.isDigit || ('a' ≤ c && c ≤ 'f')

/-- `^[0-9a-f]{low,high}$`. -/
def hexName (low high : Nat) (name : String) : Bool :=
  decide (low ≤ name.toList.length ∧ name.toList.length ≤ high) && name.toList.all isHex

/-- Why `/release.json` does not name `sha`, or none when it does. -/
def releaseMismatch (ready : Ready) (sha : String) : Exec (Option String) := do
  let r ← Exec.http (releaseUrl ready.url) ready.headers
  if r.status ≠ 200 then
    return some ("/release.json answered " ++
      if r.status ≠ 0 then toString r.status else if r.error ≠ "" then r.error else "nothing")
  else
    match Json.parse r.body with
    | none => return some "/release.json is not JSON"
    | some m =>
      let name := releaseName m
      if hexName 7 40 name && beginsWith sha name then return none
      else
        return some ("/release.json names " ++ (if name ≠ "" then name else "no release") ++
          ", not " ++ sha12 sha)

structure Waited where
  ok : Bool
  skipped : Bool := false
  seconds : Nat := 0
  reason : Option String := none
  deriving DecidableEq, Repr

/-- What a ready answer still lacks: a unit that is not active, or the release; and
the states of the units when it asked for them. -/
def missing (ready : Ready) (units : List String) (expectSha : Option String) :
    Exec (Option String × Option (List Systemd.UnitState)) := do
  let states ← (if ready.allUnits then some <$> Systemd.showUnits units else pure none :
    Exec (Option (List Systemd.UnitState)))
  let down := (states.getD []).filter (·.active ≠ "active")
  if down ≠ [] then
    return (some ("not active: " ++ ", ".intercalate (down.map fun st =>
      st.unit ++ " (" ++ st.active ++ ")")), states)
  else
    match expectSha with
    | some sha =>
      if ready.release then
        let reason ← releaseMismatch ready sha
        return (reason, states)
      else return (none, states)
    | none => return (none, states)

/-- One turn of `waitReady`: the verdict, or why it is not ready yet. -/
def waitTurn (svc : Service) (ready : Ready) (units : List String) (expectSha : Option String)
    (start : Nat) (_ : Option String) : Exec (Option String ⊕ Waited) := do
  let last ← probe svc
  let (reason, states) ← (if last.ok = some true then missing ready units expectSha
    else pure (some (if last.status ≠ 0 then "HTTP " ++ toString last.status
      else if last.error ≠ "" then last.error else "unreachable"), none) :
    Exec (Option String × Option (List Systemd.UnitState)))
  let t ← now
  let seconds := (t - start + 500) / 1000
  match reason with
  | none => return .inr { ok := true, seconds }
  | some reason =>
    let states ← (match states with
      | some shown => pure shown
      | none => Systemd.showUnits units : Exec (List Systemd.UnitState))
    match states.find? (·.active = "failed") with
    | some st => return .inr { ok := false, reason := some (st.unit ++ " failed"), seconds }
    | none =>
      Exec.sleep 1000
      return .inl (some reason)

/-- Polls until the service is ready, a unit failed or the time is over. -/
def waitReady (svc : Service) (timeoutSeconds : Option Nat) (expectSha : Option String)
    (units : List String) : Exec Waited :=
  match svc.ready with
  | none => pure { ok := true, skipped := true }
  | some ready => do
    let seconds := match timeoutSeconds with
      | some (n + 1) => n + 1
      | _ => if ready.timeoutSeconds ≠ 0 then ready.timeoutSeconds else 90
    let start ← now
    match ← whileWithin start (seconds * 1000) (waitTurn svc ready units expectSha start)
        (some "never probed") with
    | .inr verdict => return verdict
    | .inl reason =>
      let t ← now
      return { ok := false, reason, seconds := (t - start + 500) / 1000 }

end Readiness

namespace Probes

/-- `at(obj, 'a.b.c')`: none is undefined. -/
def valueAt (body : Json) (dotted : String) : Option Json :=
  ((dotted.toList.splitOn '.').filter (· ≠ [])).foldl
    (fun found key => match found with
      | none | some .null => none
      | some value => value.field (String.ofList key))
    (some body)

/-- Whether an item of the array counts: `true` matches any truthy value but `'0'`. -/
def whereMatches (whereFields : List (String × Json)) (item : Json) : Bool :=
  whereFields.all fun (key, wanted) =>
    let actual := match item with
      | .null => none
      | value => value.field key
    match wanted with
    | .bool true => match actual with
      | some value => value.truthy && !(value.same (.str "0"))
      | none => false
    | _ => match actual with
      | some value => value.same wanted
      | none => false

/-- A count, or why it is unknown. -/
abbrev Counted := Except String Rat

/-- `total` and every field that is present. -/
def addAll (body : Json) : Rat → List String → Counted
  | total, [] => .ok total
  | total, field :: rest =>
    match valueAt body field with
    | none => addAll body total rest
    | some .null => .error ("unknown at \"" ++ field ++ "\"")
    | some raw =>
      match Json.number (some raw) with
      | none => .error ("no number at \"" ++ field ++ "\"")
      | some extra => addAll body (total + extra) rest

/-- The count in an answer's body. -/
def countBody (array : Option String) (whereFields : List (String × Json)) (countField : String)
    (addFields : List String) (body : Json) : Counted :=
  match array with
  | some path =>
    match valueAt body path with
    | some (.arr items) => .ok (items.filter (whereMatches whereFields)).length
    | _ => .error ("no array at \"" ++ path ++ "\"")
  | none =>
    match Json.number (valueAt body countField) with
    | none => .error ("no number at \"" ++ countField ++ "\"")
    | some total => addAll body total addFields

def countOne : CountProbe → Exec Counted
  | .httpJsonCount url headers array whereFields countField addFields => do
    let r ← Exec.http url headers
    if r.status < 200 ∨ 300 ≤ r.status then
      return .error (if r.status ≠ 0 then "HTTP " ++ toString r.status
        else if r.error ≠ "" then r.error else "unreachable")
    else
      match Json.parse r.body with
      | none => return .error "response is not JSON"
      | some body => return countBody array whereFields countField addFields body
  | .postgresqlCount database sql =>
    attempt
      (do
        let rows ← Exec.psql database sql
        let first := (rows.head?.bind (·.head?)).map (·.2)
        match first with
        | none => return .error "query returned no number"
        | some value =>
          match Json.number (some (match value with
            | some text => .str text
            | none => .null)) with
          | none => return .error "query returned no number"
          | some n => return .ok n)
      fun err => pure (.error err.message)

def countSum : Nat → Rat → List CountProbe → Exec Counted
  | _, total, [] => pure (.ok total)
  | i, total, part :: rest => do
    match ← countOne part with
    | .error unknown => return .error ("part " ++ toString (i + 1) ++ ": " ++ unknown)
    | .ok n => countSum (i + 1) (total + n) rest

/-- Whether a unit of the service runs; the first that does settles it. -/
def running (svc : Service) : Exec Bool := do
  let found ← firstOf svc.units fun unit => do
    let st ← Systemd.showUnit unit
    return if st.active ∈ ["active", "activating", "reloading", "deactivating"] then some () else none
  return found.isSome

/-- The sessions a restart would cut. -/
structure Sessions where
  count : Counted
  label : String
  notRunning : Bool := false

/-- `r.notRunning || r.count === 0`. -/
def Sessions.idle (sessions : Sessions) : Bool :=
  sessions.notRunning || (match sessions.count with
    | .ok n => decide (n = 0)
    | .error _ => false)

def countProtected (svc : Service) : Exec Sessions :=
  match svc.sessions with
  | none => pure { count := .ok 0, label := "protected sessions" }
  | some p => do
    let label := if p.label ≠ "" then p.label else "protected sessions"
    if ¬ (← running svc) then return { count := .ok 0, label, notRunning := true }
    else
      match p.probe with
      | .one probe => return { count := ← countOne probe, label }
      | .sum probes => return { count := ← countSum 0 0 probes, label }

end Probes

end OpenVibeHost
