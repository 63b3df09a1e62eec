import OpenVibeHost.Effects
import OpenVibeHost.Json
import OpenVibeHost.Paths

/-! The system executor, `lib/executor.js`: the only module that touches the
machine. Each function of its interface is a call here, with what it resolves
to as the answer; one that can reject answers the error's message instead.
git and systemctl commands keep their structure, with the argv they stand for;
what the code logs is left out. -/
namespace OpenVibeHost
open Effects

/-! ### Commands -/

/-- The git commands of `lib/git.js`. -/
inductive Git where
  | head
  | branch
  | revParse (ref : String)
  | hasCommit (sha : String)
  | dirty
  | skipWorktree
  | noSkipWorktree (file : String)
  | rmCached (file : String)
  | fetch (remote branch : String)
  | changedFiles (source target : String)
  | addedFiles (source target : String)
  | log (source target : String)
  | show (sha file : String)
  | ffMerge (sha : String)
  | resetHard (sha : String)
  | checkout (files : List String)
  | worktreeAdd (dir sha : String)
  | worktreeRemove (dir : String)
  | worktreePrune
  | remoteUrl (remote : String)
  deriving DecidableEq, Repr

/-- The arguments after `git -C <dir>`. -/
def Git.args : Git → List String
  | .head => ["rev-parse", "HEAD"]
  | .branch => ["rev-parse", "--abbrev-ref", "HEAD"]
  | .revParse ref => ["rev-parse", "--verify", ref ++ "^\x7bcommit\x7d"]
  | .hasCommit sha => ["cat-file", "-e", sha ++ "^\x7bcommit\x7d"]
  | .dirty => ["status", "--porcelain", "--untracked-files=no"]
  | .skipWorktree => ["ls-files", "-v"]
  | .noSkipWorktree file => ["update-index", "--no-skip-worktree", "--", file]
  | .rmCached file => ["rm", "--cached", "-q", "-r", "--", file]
  | .fetch remote tracked => ["fetch", "--quiet", remote, tracked]
  | .changedFiles source target => ["diff", "--name-only", source, target]
  | .addedFiles source target => ["diff", "--name-only", "--diff-filter=A", source, target]
  | .log source target => ["log", "--oneline", "--no-decorate", source ++ ".." ++ target]
  | .show sha file => ["show", sha ++ ":" ++ file]
  | .ffMerge sha => ["merge", "--ff-only", "--quiet", sha]
  | .resetHard sha => ["reset", "--hard", "--quiet", sha]
  | .checkout files => ["checkout", "--"] ++ files
  | .worktreeAdd dir sha => ["worktree", "add", "--detach", "--quiet", dir, sha]
  | .worktreeRemove dir => ["worktree", "remove", "--force", dir]
  | .worktreePrune => ["worktree", "prune"]
  | .remoteUrl remote => ["config", "--get", "remote." ++ remote ++ ".url"]

/-- The actions ovhost gives systemctl. -/
inductive Action where
  | show
  | start
  | stop
  | restart
  | reload
  | enable
  | daemonReload
  | listUnits
  | listUnitFiles
  deriving DecidableEq, Repr

/-- How `run` starts a command. -/
structure RunOptions where
  asUser : Option String := none
  privileged : Bool := false
  cwd : Option String := none
  input : Option String := none
  deriving DecidableEq, Repr

structure RunResult where
  code : Nat := 0
  stdout : String := ""
  stderr : String := ""
  deriving DecidableEq, Repr

structure Stat where
  isFile : Bool := true
  isDir : Bool := false
  isSymlink : Bool := false
  nlink : Nat := 1
  size : Nat := 0
  mtime : Nat := 0
  owner : Option String := none
  deriving DecidableEq, Repr

structure Entry where
  name : String
  isDir : Bool := false
  deriving DecidableEq, Repr

/-- An answer without a status is an error. -/
structure HttpAnswer where
  status : Nat := 0
  body : String := ""
  error : String := ""
  deriving DecidableEq, Repr

structure Listener where
  pid : Option Nat
  process : Option String
  deriving DecidableEq, Repr

inductive Call where
  | git (dir : String) (safeDirectory : Bool) (owner : String) (command : Git)
  | systemctl (action : Action) (unit : Option String)
  | run (cmd : String) (args : List String) (options : RunOptions)
  | readFile (path : String) (privileged : Bool)
  | writeFile (path content : String) (privileged : Bool)
  | appendFile (path text : String)
  | removeFile (path : String) (privileged : Bool)
  | symlink (target path : String) (privileged : Bool)
  | readlink (path : String)
  | stat (path : String)
  | readdir (path : String)
  | mkdir (path : String) (owner : Option String)
  | createExclusive (path content : String)
  | pidAlive (pid : Nat)
  | http (url : String) (headers : List (String × String))
  | request (url : String) (headers : List (String × String))
  | psql (database sql : String)
  | statfs (path : String)
  | listeners (port : Nat)
  | acquireDeployLock (service : String) (seconds : Nat)
  | releaseDeployLock
  | memAvailableBytes
  | sleep (ms : Nat)
  | hostname
  | operatorName
  | randomId
  | isRoot
  | kill (pid : Nat) (signal : String)
  | sha256 (path : String)
  deriving DecidableEq, Repr

/-- What a call resolves to, or the message it rejects with. -/
abbrev Call.Answer : Call → Type
  | .git .. | .systemctl .. | .run .. => RunResult
  | .readFile .. => Except String (Option String)
  | .writeFile .. | .appendFile .. | .removeFile .. | .symlink .. | .mkdir .. => Except String Unit
  | .readlink _ => Option String
  | .stat _ => Option Stat
  | .readdir _ => Option (List Entry)
  | .createExclusive .. => Except String Bool
  | .pidAlive _ => Bool
  | .http .. | .request .. => HttpAnswer
  | .psql .. => Except String (List (List (String × Option String)))
  | .statfs _ => Except String Nat
  | .listeners _ => Except String (List Listener)
  | .acquireDeployLock .. => Except String Unit
  | .releaseDeployLock | .sleep _ => Unit
  | .memAvailableBytes => Except String (Option Nat)
  | .hostname | .operatorName | .randomId => String
  | .isRoot | .kill .. => Bool
  | .sha256 _ => Except String String

/-- A timer waits its time, and a millisecond at least. -/
def Call.least : Call → Nat
  | .sleep ms => max ms 1
  | _ => 0

/-- The machine, as ovhost sees it. -/
def Machine : Signature := ⟨Call, Call.Answer, Call.least⟩

/-! ### Errors -/

/-- An entry of `files` in a backup record. -/
structure BackupFile where
  name : String
  source : String
  dest : Option String := none
  file : Option String := none
  kind : Option String := none
  skipped : Option String := none
  error : Option String := none
  sourceBytes : Option Nat := none
  bytes : Option Nat := none
  deriving DecidableEq, Repr

/-- What the pgBackRest verification of a run found: the newest backup, and whether the WAL
archiver's failed count stayed, when it came to these. -/
structure Verified where
  type : Option String := none
  stop : Option String := none
  walOk : Option Bool := none
  ok : Bool
  error : Option String := none
  deriving DecidableEq, Repr

/-- One line of `<stateDir>/backups/<service>.jsonl`. `good` is `ok !== false`: lines
from before `ok` was written are good. -/
structure BackupRecord where
  service : String
  madeAt : Option String
  reason : String := ""
  engine : Option String := none
  good : Bool
  dir : Option String := none
  files : List BackupFile := []
  verified : Option Verified := none
  deriving DecidableEq, Repr

/-- The `result` of a deploy or rollback. -/
inductive Result where
  | unchanged
  | unitsInstalled
  | prepared
  | deployed
  | rolledBack
  | failed
  | refused
  | gaveUpWaiting
  | restoreFailed
  | failedRolledBack
  | rollbackFailed
  deriving DecidableEq, Repr

def Result.name : Result → String
  | .unchanged => "unchanged"
  | .unitsInstalled => "units-installed"
  | .prepared => "prepared"
  | .deployed => "deployed"
  | .rolledBack => "rolled-back"
  | .failed => "failed"
  | .refused => "refused"
  | .gaveUpWaiting => "gave-up-waiting"
  | .restoreFailed => "restore-failed"
  | .failedRolledBack => "failed-rolled-back"
  | .rollbackFailed => "rollback-failed"

/-- What was thrown: a plain `Error`, or one of the classes that callers tell apart. -/
inductive Failure where
  | plain (message : String)
  | op (message : String) (exitCode : Nat) (result : Option Result)
  | locked (message : String)
  | socketGuard (message : String)
  | inventory (message : String)
  | backup (message : String) (record : BackupRecord)
  deriving DecidableEq, Repr

def Failure.message : Failure → String
  | .plain message | .op message .. | .locked message | .socketGuard message | .inventory message
  | .backup message _ => message

/-- `err.result`, which only an `OpError` carries. -/
def Failure.result : Failure → Option Result
  | .op _ _ result => result
  | _ => none

/-- A program of ovhost, with a state `σ` of its own. -/
abbrev Ovhost (σ α : Type) := Program Machine σ Failure α

/-- Code that keeps nothing of its own. -/
abbrev Exec (α : Type) := Ovhost Unit α

namespace Exec
open Program

/-- A call that can reject; a rejection throws. -/
def orReject (call : Call) (read : Machine.Answer call → Except String α) : Exec α := do
  match ← ask (S := Machine) call read with
  | .ok value => ret value
  | .error message => throw (.plain message)

def run (cmd : String) (args : List String) (options : RunOptions) : Exec RunResult :=
  ask (S := Machine) (.run cmd args options) fun answer => answer

def readFile (path : String) (privileged : Bool := false) : Exec (Option String) :=
  orReject (.readFile path privileged) fun answer => answer

def writeFile (path content : String) (privileged : Bool := false) : Exec Unit :=
  orReject (.writeFile path content privileged) fun answer => answer

def appendFile (path text : String) : Exec Unit :=
  orReject (.appendFile path text) fun answer => answer

def removeFile (path : String) (privileged : Bool := false) : Exec Unit :=
  orReject (.removeFile path privileged) fun answer => answer

def symlink (target path : String) (privileged : Bool := false) : Exec Unit :=
  orReject (.symlink target path privileged) fun answer => answer

def readlink (path : String) : Exec (Option String) :=
  ask (S := Machine) (.readlink path) fun answer => answer

def stat (path : String) : Exec (Option Stat) := ask (S := Machine) (.stat path) fun answer => answer

def readdir (path : String) : Exec (Option (List Entry)) :=
  ask (S := Machine) (.readdir path) fun answer => answer

def mkdir (path : String) (owner : Option String := none) : Exec Unit :=
  orReject (.mkdir path owner) fun answer => answer

def createExclusive (path content : String) : Exec Bool :=
  orReject (.createExclusive path content) fun answer => answer

def pidAlive (pid : Nat) : Exec Bool := ask (S := Machine) (.pidAlive pid) fun answer => answer

def http (url : String) (headers : List (String × String) := []) : Exec HttpAnswer :=
  ask (S := Machine) (.http url headers) fun answer => answer

def request (url : String) (headers : List (String × String) := []) : Exec HttpAnswer :=
  ask (S := Machine) (.request url headers) fun answer => answer

def psql (database sql : String) : Exec (List (List (String × Option String))) :=
  orReject (.psql database sql) fun answer => answer

def statfs (path : String) : Exec Nat :=
  orReject (.statfs path) fun answer => answer

def listeners (port : Nat) : Exec (List Listener) :=
  orReject (.listeners port) fun answer => answer

def memAvailableBytes : Exec (Option Nat) :=
  orReject .memAvailableBytes fun answer => answer

def sleep (ms : Nat) : Exec Unit := ask (S := Machine) (.sleep ms) fun answer => answer

def hostname : Exec String := ask (S := Machine) .hostname fun answer => answer

def operatorName : Exec String := ask (S := Machine) .operatorName fun answer => answer

def isRoot : Exec Bool := ask (S := Machine) .isRoot fun answer => answer

def kill (pid : Nat) (signal : String) : Exec Bool := ask (S := Machine) (.kill pid signal) fun answer => answer

/-- The digest of a file's bytes, read as a stream. -/
def sha256 (path : String) : Exec String := orReject (.sha256 path) fun answer => answer

end Exec

/-! ### Text -/

/-- `text.split('\n').filter(Boolean)`. -/
def linesOf (text : String) : List String :=
  ((text.toList.splitOn '\n').filter (· ≠ [])).map String.ofList

/-- `text.trim()`. -/
def trimText (text : String) : String := String.ofList (Json.trimChars text.toList)

/-- `text.slice(0, 12)`. -/
def sha12 (sha : String) : String := String.ofList (sha.toList.take 12)

end OpenVibeHost
