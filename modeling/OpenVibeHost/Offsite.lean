import OpenVibeHost.Paths
import OpenVibeHost.Retention
import OpenVibeHost.Transition
import Mathlib.Data.List.AList

/-! Off-host copies of backup runs, `lib/offsite.js`. Objects stand in the
bucket under `<prefix>/<host>/<run>/<service>/<file>.ovbk`, and each run has a
`<prefix>/<host>/<run>/manifest.json`. A key is the list of its parts between
the slashes. Whatever the bucket lists is complete: an object appears when its
one PutObject, or its CompleteMultipartUpload, has gone through. -/
namespace OpenVibeHost.Offsite
open Retention

abbrev Key := List String

/-- The bucket: the size of every object. -/
abbrev Bucket := AList fun _ : Key => Nat

/-- What `loadConfig` gives `push` and `pruneRemote`. -/
structure Config where
  keyPrefix : List String
  retentionDays : Nat := 30
  prune : Bool := true
  positive : 1 ≤ retentionDays

def minKeepRuns : Nat := 7

/-- `SEGMENT_RE`, `^[A-Za-z0-9._-]+$`. -/
def segmentRe (text : String) : Bool :=
  !text.toList.isEmpty && text.toList.all fun c =>
    c.isAlphanum || c == '.' || c == '_' || c == '-'

/-- `<prefix>/<host>/`. -/
def hostPrefix (cfg : Config) (host : String) : Key := cfg.keyPrefix ++ [host]

/-- Where a run lives: `<prefix>/<host>/<run>/`. -/
def runPrefix (cfg : Config) (host run : String) : Key := hostPrefix cfg host ++ [run]

/-- `key.startsWith(base)` for a `base` that ends in a slash. -/
def startsWith (key base : Key) : Bool :=
  base.isPrefixOf key && decide (base.length < key.length)

/-! ### Listing -/

def listAll (bucket : Bucket) (base : Key) : List (Key × Nat) :=
  (bucket.entries.map fun object => (object.1, object.2)).filter (startsWith ·.1 base)

structure Run where
  run : String
  objects : Nat := 0
  bytes : Nat := 0
  manifest : Bool := false
  services : List String := []
  keys : List Key := []
  deriving DecidableEq, Repr

/-- One more object of a run; `rest` is what follows the run in its key. -/
def Run.count (r : Run) (rest : List String) (key : Key) (size : Nat) : Run :=
  { r with
    objects := r.objects + 1
    bytes := r.bytes + size
    keys := r.keys ++ [key]
    manifest := r.manifest || decide (rest = ["manifest.json"])
    services := match rest with
      | [service, _] => if service ∈ r.services then r.services else r.services ++ [service]
      | _ => r.services }

/-- The loop of `listRuns`: one object into the map of runs. -/
def tally (base : Key) (runs : List Run) (object : Key × Nat) : List Run :=
  match object.1.drop base.length with
  | [] => runs
  | run :: rest =>
    if (stampRe run).isNone then runs
    else if runs.any (·.run = run) then
      runs.map fun r => if r.run = run then r.count rest object.1 object.2 else r
    else runs ++ [({ run } : Run).count rest object.1 object.2]

/-- The runs stored off-host for a host, newest first. -/
def listRuns (bucket : Bucket) (cfg : Config) (host : String) : List Run :=
  (((listAll bucket (hostPrefix cfg host)).foldl (tally (hostPrefix cfg host)) []).insertionSort
    (fun a b => b.run ≤ a.run)).map fun r =>
      { r with services := r.services.insertionSort (· ≤ ·) }

/-! ### Pruning -/

/-- What the store answers to a `DeleteObjectCommand`. -/
abbrev Deletes := Key → Except String Unit

def deleteKeys (bucket : Bucket) (deletes : Deletes) (base : Key) :
    List Key → Bucket × Except String Unit
  | [] => (bucket, .ok ())
  | key :: rest =>
    if startsWith key base then
      match deletes key with
      | .ok () => deleteKeys (bucket.erase key) deletes base rest
      | .error refused => (bucket, .error refused)
    else deleteKeys bucket deletes base rest

/-- The loop of `pruneRemote` over the runs; answers the runs it pruned. -/
def pruneRuns (cfg : Config) (host : String) (deletes : Deletes) (protectedRuns : List String)
    (cutoff : Int) (bucket : Bucket) : List Run → Bucket × Except String (List String)
  | [] => (bucket, .ok [])
  | r :: rest =>
    if r.run ∈ protectedRuns then pruneRuns cfg host deletes protectedRuns cutoff bucket rest
    else
      match parseStamp r.run with
      | none => pruneRuns cfg host deletes protectedRuns cutoff bucket rest
      | some taken =>
        if cutoff ≤ taken then pruneRuns cfg host deletes protectedRuns cutoff bucket rest
        else
          match deleteKeys bucket deletes (runPrefix cfg host r.run) r.keys with
          | (left, .error refused) => (left, .error refused)
          | (left, .ok ()) =>
            let (last, pruned) := pruneRuns cfg host deletes protectedRuns cutoff left rest
            (last, pruned.map (r.run :: ·))

/-- A call of `pruneRemote`: its arguments, the clock and the store's answers. -/
structure Prune where
  cfg : Config
  host : String
  current : String
  now : Int
  deletes : Deletes := fun _ => .ok ()

def Prune.cutoff (call : Prune) : Int := call.now - call.cfg.retentionDays * 86400000

def pruneRemote (call : Prune) (bucket : Bucket) : Bucket × Except String (List String) :=
  let runs := listRuns bucket call.cfg call.host
  let protectedRuns := call.current :: ((runs.filter (·.manifest)).take minKeepRuns).map (·.run)
  pruneRuns call.cfg call.host call.deletes protectedRuns call.cutoff bucket runs

/-! ### Uploading -/

/-- One entry of a service's `files` in the run summary. -/
structure File where
  name : String
  dest : Option String := none
  error : Option String := none

structure ServiceEntry where
  service : String
  files : List File

/-- The summary of a backup run, as far as `push` reads it. -/
structure Summary where
  run : String
  services : List ServiceEntry

structure Failure where
  service : Option String := none
  file : String
  error : String
  deriving DecidableEq, Repr

/-- A push: its arguments, what each upload answers (the bytes stored, or an
error that stored nothing) and what the pruning meets. -/
structure Push where
  cfg : Config
  host : String
  summary : Summary
  uploads : String → String → Except String Nat := fun _ _ => .ok 1
  manifestUpload : Except String Nat := .ok 1
  now : Int
  deletes : Deletes := fun _ => .ok ()

structure Progress where
  bucket : Bucket
  uploaded : List Key := []
  failures : List Failure := []

/-- One file of the summary; a file without a copy is passed over. -/
def pushFile (push : Push) (service : String) (done : Progress) (f : File) : Progress :=
  match f.dest, f.error with
  | some dest, none =>
    let name := baseName dest
    if segmentRe service ∧ segmentRe name then
      let key := runPrefix push.cfg push.host push.summary.run ++ [service, name ++ ".ovbk"]
      match push.uploads service name with
      | .ok size =>
        { done with bucket := done.bucket.insert key size, uploaded := done.uploaded ++ [key] }
      | .error error =>
        { done with failures := done.failures ++ [⟨some service, name, error⟩] }
    else { done with failures := done.failures ++ [⟨some service, name, "unsafe name"⟩] }
  | _, _ => done

def pushFiles (push : Push) (bucket : Bucket) : Progress :=
  push.summary.services.foldl
    (fun done svc => svc.files.foldl (pushFile push svc.service) done) { bucket }

structure Pushed where
  bucket : Bucket
  ok : Bool
  uploaded : List Key
  failures : List Failure
  manifest : Option Key
  pruned : List String

/-- `push`, once the key was loaded and the host name accepted. -/
def push (push : Push) (bucket : Bucket) : Pushed :=
  let done := pushFiles push bucket
  let manifestKey := runPrefix push.cfg push.host push.summary.run ++ ["manifest.json"]
  let (stored, manifest, failures) : Bucket × Option Key × List Failure :=
    match push.manifestUpload with
    | .ok size => (done.bucket.insert manifestKey size, some manifestKey, done.failures)
    | .error error => (done.bucket, none, done.failures ++ [⟨none, "manifest.json", error⟩])
  if failures.isEmpty ∧ push.cfg.prune then
    match pruneRemote { push with current := push.summary.run } stored with
    | (left, .ok pruned) => ⟨left, true, done.uploaded, failures, manifest, pruned⟩
    | (left, .error refused) =>
      ⟨left, false, done.uploaded, failures ++ [⟨none, "(prune)", refused⟩], manifest, []⟩
  else ⟨stored, failures.isEmpty, done.uploaded, failures, manifest, []⟩

/-- The bucket after a push. -/
def step (bucket : Bucket) (next : Push) : Bucket := (push next bucket).bucket

/-! ### What the copies are for -/

/-- A run of the host holds a complete copy of an artifact. -/
def Holds (bucket : Bucket) (cfg : Config) (host run service name : String) : Prop :=
  (stampRe run).isSome ∧ runPrefix cfg host run ++ [service, name ++ ".ovbk"] ∈ bucket

def HasManifest (bucket : Bucket) (cfg : Config) (host run : String) : Prop :=
  (stampRe run).isSome ∧ runPrefix cfg host run ++ ["manifest.json"] ∈ bucket

/-- Every artifact that had a complete copy before still has one. -/
def Remain (cfg : Config) (host : String) (before after : Bucket) : Prop :=
  ∀ service name, (∃ run, Holds before cfg host run service name) →
    ∃ run, Holds after cfg host run service name

/-- Among the newest `minKeepRuns` runs that have a manifest. -/
def AmongNewest (bucket : Bucket) (cfg : Config) (host run : String) : Prop :=
  HasManifest bucket cfg host run ∧ ∀ others : Finset String,
    (∀ other ∈ others, run < other ∧ HasManifest bucket cfg host other) →
      others.card < minKeepRuns

/-- A run that the policy keeps: the one just made, one of the newest, or one
that is not older than the retention. -/
def Spared (call : Prune) (bucket : Bucket) (run : String) : Prop :=
  run = call.current ∨ AmongNewest bucket call.cfg call.host run ∨
    ∀ taken, parseStamp run = some taken → call.cutoff ≤ taken

/-- Every artifact with a complete copy has one in a run that the policy keeps. -/
def Covered (call : Prune) (bucket : Bucket) : Prop :=
  ∀ service name, (∃ run, Holds bucket call.cfg call.host run service name) →
    ∃ run, Holds bucket call.cfg call.host run service name ∧ Spared call bucket run

end OpenVibeHost.Offsite
