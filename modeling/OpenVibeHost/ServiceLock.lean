import OpenVibeHost.Transition
import Mathlib.Tactic.Common

/-! The per-service lock of `lib/lock.js` under any interleaving of processes.
`acquire` creates `<stateDir>/locks/<service>.lock` exclusively; when the file
exists it reads it, asks whether the pid it names is alive, and otherwise
removes the file and tries once more. Each executor call is one step; between
two of them any other process may run. `release` removes the file by its path.

Serial numbers tell two files at the path apart. The code has no such number:
it is what lets a statement say whose file a removal takes. -/
namespace OpenVibeHost.ServiceLock
open Transition

/-- What stands at the lock path. `pid` is the holder the contents name: none
when they do not parse or carry no pid, which `acquire` treats as stale. -/
structure LockFile where
  pid : Option Nat
  serial : Nat
  deriving DecidableEq, Repr

/-- Where a process is in `acquire`, by the executor call it makes next. -/
inductive Phase where
  /-- Not in the section: the next call is the first `createExclusive`. -/
  | idle
  /-- `createExclusive` found a file: `readFile` is next. -/
  | reading
  /-- The file named a pid: `pidAlive` is next. -/
  | checking (seen : LockFile) (pid : Nat)
  /-- Judged stale, or gone when it was read: `removeFile` is next. -/
  | removing (seen : Option LockFile)
  /-- Removed: the second `createExclusive` is next. -/
  | retrying
  /-- Between a successful `acquire` and its `release`. -/
  | holding (serial : Nat)
  deriving DecidableEq, Repr

structure State where
  file : Option LockFile
  /-- How many lock files the processes have made. -/
  made : Nat
  alive : Nat → Bool
  phase : Nat → Phase

inductive Action where
  /-- The process makes its next executor call. -/
  | call (pid : Nat)
  /-- The process ends; a holder stays alive while it holds. -/
  | exit (pid : Nat)
  deriving DecidableEq, Repr

def State.goto (state : State) (pid : Nat) (phase : Phase) : State :=
  { state with phase := Function.update state.phase pid phase }

/-- `createExclusive(file, body)` with the process's own pid in the body. -/
def createExclusive (state : State) (pid : Nat) (taken : Phase) : State :=
  match state.file with
  | none =>
    { state with
      file := some ⟨some pid, state.made + 1⟩
      made := state.made + 1
      phase := Function.update state.phase pid (.holding (state.made + 1)) }
  | some _ => state.goto pid taken

/-- One executor call of `acquire` or `release`, or the end of a process. A
dead process makes no call. -/
def step (state : State) : Action → State
  | .exit pid =>
    match state.phase pid with
    | .holding _ => state
    | _ => { state.goto pid .idle with alive := Function.update state.alive pid false }
  | .call pid =>
    if state.alive pid then
      match state.phase pid with
      | .idle => createExclusive state pid .reading
      | .reading =>
        match state.file with
        | some seen =>
          match seen.pid with
          | some holder => state.goto pid (.checking seen holder)
          | none => state.goto pid (.removing (some seen))
        | none => state.goto pid (.removing none)
      | .checking seen holder =>
        -- A live holder: `acquire` throws LockedError.
        if state.alive holder then state.goto pid .idle
        else state.goto pid (.removing (some seen))
      | .removing _ => { state.goto pid .retrying with file := none }
      -- Taken again in between: `acquire` throws LockedError.
      | .retrying => createExclusive state pid .idle
      | .holding _ => { state.goto pid .idle with file := none }
    else state

/-- No process is in `acquire` yet; the file at the path, if there is one, was
left by somebody else. -/
def Initial (state : State) : Prop :=
  state.made = 0 ∧ (∀ pid, state.phase pid = .idle) ∧ ∀ file, state.file = some file → file.serial = 0

/-- At most one process is between a successful `acquire` and its `release`. -/
def Exclusive (state : State) : Prop :=
  ∀ first second m n, state.phase first = .holding m → state.phase second = .holding n →
    first = second

/-- The file names no process that is alive. -/
def NamesNoLive (state : State) (file : LockFile) : Prop :=
  ∀ holder, file.pid = some holder → state.alive holder = false

/-- A removal takes only a file that the process wrote itself or that names no
live process. -/
def RemovesOwnOrDead (state : State) : Action → Prop
  | .exit _ => True
  | .call pid => state.alive pid = true →
    match state.phase pid with
    | .removing _ => ∀ file, state.file = some file → NamesNoLive state file
    | .holding serial => ∀ file, state.file = some file →
        file.serial = serial ∨ NamesNoLive state file
    | _ => True

/-- When a process removes a lock that it judged stale, the file at the path is
still the one it read, or none is there. -/
def StillTheOneRead (state : State) : Action → Prop
  | .exit _ => True
  | .call pid => state.alive pid = true →
    match state.phase pid with
    | .removing seen => ∀ file, state.file = some file → seen = some file
    | _ => True

end OpenVibeHost.ServiceLock
