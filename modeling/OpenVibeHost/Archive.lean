import OpenVibeHost.BackupCrypto
import OpenVibeHost.BackupPrune
import OpenVibeHost.Offsite

/-! Archives of retired files, `lib/archive.js`: each push puts its files, encrypted, and a manifest
into the bucket, and a restore reads one file back. An object is complete when it is in the bucket;
a manifest is kept as what its text says. -/
namespace OpenVibeHost.Archive
open BackupCrypto Retention

def allowedRoots : List String := ["/opt/", "/var/lib/", "/root/", "/srv/", "/home/"]

/-- `NAME_RE`, `^[A-Za-z0-9._-]+(__[A-Za-z0-9._-]+)*$`. An underscore is also in the class before the
group, so the group adds nothing. -/
def nameRe (text : String) : Bool := Offsite.segmentRe text

/-- The path without its leading slashes, with `__` for each other slash. -/
def objectName (file : String) : String :=
  String.ofList ((file.toList.dropWhile (· = '/')).flatMap fun c => if c = '/' then ['_', '_'] else [c])

/-! ### What is stored -/

structure FileEntry where
  path : String
  object : String
  mtime : Option String
  plainBytes : Nat
  plainSha256 : String
  cipherBytes : Nat
  cipherSha256 : String
  deriving DecidableEq, Repr

structure Failure where
  path : String
  error : String
  deriving DecidableEq, Repr

/-- A manifest without its HMAC. -/
structure Body where
  format : String := "openvibe-archive-manifest/1"
  encryption : String := "OVBKAES1"
  host : String
  stamp : String
  createdAt : String
  keyId : String
  note : String
  files : List FileEntry
  failures : List Failure

structure Manifest extends Body where
  hmac : String

inductive Object where
  | file (bytes : Bytes)
  | manifest (m : Manifest)

/-- Objects by their keys; storing under a key replaces what was there. -/
abbrev Bucket := AList fun _ : String => Object

/-- The host: its name, its backup key, the configuration of its bucket, and what node computes. -/
structure Site where
  crypto : NodeCrypto
  sha256 : Bytes → String
  hmacManifest : Bytes → Body → String
  cut : Bytes → List Bytes
  cut_flatten : ∀ bytes, (cut bytes).flatten = bytes
  bucketName : String
  keyPrefix : String
  host : String
  master : Bytes
  master_length : master.length = 32

/-- `<prefix>-archive/<host>/`. -/
def archivePrefix (site : Site) : String := site.keyPrefix ++ "-archive/" ++ site.host ++ "/"

/-- Where an archive lives. -/
def archiveBase (site : Site) (stamp : String) : String := archivePrefix site ++ stamp ++ "/"

def objectKey (site : Site) (stamp file : String) : String :=
  archiveBase site stamp ++ objectName file ++ ".ovbk"

def manifestKey (site : Site) (stamp : String) : String := archiveBase site stamp ++ "manifest.json"

/-- `listAll`: the objects under a prefix. -/
def listAll (bucket : Bucket) (base : String) : List (String × Object) :=
  (bucket.entries.map fun object => (object.1, object.2)).filter fun object => beginsWith object.1 base

/-- The size that a listing shows. Of a manifest it is not looked at. -/
def Object.size : Object → Nat
  | .file bytes => bytes.length
  | .manifest _ => 0

/-! ### Pushing -/

structure Stat where
  isSymlink : Bool := false
  isFile : Bool := true
  mtime : Nat
  deriving DecidableEq, Repr

/-- A push: what was named, the two readings of the clock, and what the host and the store answer for
each file. `note` is at most 300 characters. -/
structure Push where
  files : List String
  note : String := ""
  now : Nat
  created : Nat
  stat : String → Option Stat
  fuser : String → Int := fun _ => 1
  restat : String → Option Stat
  content : String → Except String Bytes
  salt : String → Bytes
  salt_length : ∀ file, (salt file).length = 32
  stored : String → Except String Unit := fun _ => .ok ()
  recorded : Except String Unit := .ok ()

/-- Why a file may not be archived. -/
def refusal (call : Push) (file : String) : Option String :=
  if ¬ beginsWith file "/" ∨ normalize file ≠ file then some "not a normalised absolute path"
  else if ¬ allowedRoots.any (beginsWith file ·) then some ("outside " ++ ", ".intercalate allowedRoots)
  else if ¬ nameRe (objectName file) then some "the path has characters an object name cannot carry"
  else
    match call.stat file with
    | none => some "no such file"
    | some st =>
      if st.isSymlink ∨ ¬ st.isFile then some "not a regular file"
      else if call.fuser file = 0 then some "open by a running process"
      else if call.fuser file ≠ 1 then
        some ("could not tell whether it is open (fuser exited " ++ toString (call.fuser file) ++ ")")
      else none

/-- `[...new Set(files)]`. -/
def Push.unique (call : Push) : List String := call.files.reverse.dedup.reverse

def Push.stamp (call : Push) : String := Dates.stamp call.now

/-- `toISOString` of a modification time, and none of a zero. -/
def mtimeText (mtime : Nat) : Option String := if mtime = 0 then none else some (Dates.isoString mtime)

structure Progress where
  bucket : Bucket
  files : List FileEntry := []
  failures : List Failure := []

/-- What the `try` of one file leaves in the bucket, and its entry or the error. -/
def archiveFile (site : Site) (call : Push) (bucket : Bucket) (file : String) : Bucket × Except String FileEntry :=
  let key := objectKey site call.stamp file
  match call.content file with
  | .error unread => (bucket, .error unread)
  | .ok plain =>
    match encrypt site.crypto site.master defaultChunk (call.salt file) (site.cut plain) with
    | .error refused => (bucket, .error refused)
    | .ok cipher =>
      match call.stored key with
      | .error refused => (bucket, .error refused)
      | .ok () =>
        let bucket := bucket.insert key (.file cipher)
        match (listAll bucket key).find? (·.1 = key) with
        | none =>
          (bucket, .error ("the stored object is missing, expected " ++ toString cipher.length ++ " bytes"))
        | some listed =>
          if listed.2.size ≠ cipher.length then
            (bucket, .error ("the stored object is " ++ toString listed.2.size ++ ", expected " ++
              toString cipher.length ++ " bytes"))
          else
            match call.restat file with
            | none => (bucket, .error "Cannot read properties of null (reading 'mtime')")
            | some s =>
              (bucket, .ok { path := file, object := key, mtime := mtimeText s.mtime, plainBytes := plain.length,
                             plainSha256 := site.sha256 plain, cipherBytes := cipher.length,
                             cipherSha256 := site.sha256 cipher })

/-- A turn of the loop over the files. -/
def pushFile (site : Site) (call : Push) (done : Progress) (file : String) : Progress :=
  match archiveFile site call done.bucket file with
  | (bucket, .ok entry) => { done with bucket, files := done.files ++ [entry] }
  | (bucket, .error error) => { done with bucket, failures := done.failures ++ [⟨file, error⟩] }

/-- The local record of an archive, and what `push` answers. -/
structure Record where
  ok : Bool
  stamp : String
  host : String
  location : String
  note : String
  files : List (String × Nat × String)
  failures : List Failure
  deriving DecidableEq, Repr

/-- The time in milliseconds beyond which a `Date` is invalid. -/
def maxDate : Nat := 8640000000000000

/-- `push`, once the key was loaded and the host name accepted. -/
def push (site : Site) (call : Push) (bucket : Bucket) : Bucket × Except String Record :=
  if call.files = [] then (bucket, .error "name at least one file")
  else
    let problems := call.unique.filterMap fun file => (refusal call file).map (file ++ ": " ++ ·)
    if problems ≠ [] then
      (bucket, .error ("refusing (nothing uploaded):\n  " ++ "\n  ".intercalate problems))
    else if maxDate < call.now ∨ maxDate < call.created then (bucket, .error "Invalid time value")
    else
      let done := call.unique.foldl (pushFile site call) { bucket }
      let body : Body :=
        { host := site.host, stamp := call.stamp, createdAt := Dates.isoString call.created,
          keyId := hexText (site.crypto.keyId site.master), note := call.note, files := done.files,
          failures := done.failures }
      let key := manifestKey site call.stamp
      match call.stored key with
      | .error refused => (done.bucket, .error refused)
      | .ok () =>
        let bucket := done.bucket.insert key (.manifest { body with hmac := site.hmacManifest site.master body })
        match call.recorded with
        | .error refused => (bucket, .error refused)
        | .ok () =>
          (bucket, .ok { ok := done.failures.isEmpty, stamp := call.stamp, host := site.host,
                         location := "s3://" ++ site.bucketName ++ "/" ++ archiveBase site call.stamp,
                         note := call.note, files := done.files.map fun f => (f.path, f.plainBytes, f.plainSha256),
                         failures := done.failures })

/-! ### Restoring -/

def readManifest (site : Site) (bucket : Bucket) (stamp : String) : Except String Manifest :=
  match bucket.lookup (manifestKey site stamp) with
  | none => .error "NoSuchKey"
  | some (.file _) => .error "not a JSON text"
  | some (.manifest m) =>
    if m.hmac ≠ site.hmacManifest site.master m.toBody then
      .error ("archive " ++ stamp ++ ": the manifest's HMAC does not match this host's backup key")
    else .ok m

structure Restored where
  file : String
  content : Bytes
  sha256 : String
  deriving DecidableEq, Repr

/-- `restore` into `out`, which is there already or not; `content` is what the new file holds. -/
def restore (site : Site) (bucket : Bucket) (stamp file out : String) (taken : Bool) : Except String Restored :=
  if (stampRe stamp).isNone then .error "<stamp> looks like 20260926-101500"
  else if ¬ beginsWith out "/" then .error "--out must be an absolute path"
  else
    match readManifest site bucket stamp with
    | .error unread => .error unread
    | .ok m =>
      match m.files.find? (·.path = file) with
      | none => .error ("archive " ++ stamp ++ " has no " ++ file)
      | some f =>
        if f.object ≠ objectKey site stamp file then .error "the manifest names an unexpected object"
        else if taken then .error (out ++ " already exists; restore never overwrites")
        else
          match bucket.lookup f.object with
          | some (.file cipher) =>
            match decrypt site.crypto site.master (site.cut cipher) with
            | .error refused => .error refused
            | .ok plain =>
              if site.sha256 plain ≠ f.plainSha256 ∨ site.sha256 cipher ≠ f.cipherSha256 ∨
                  plain.length ≠ f.plainBytes then
                .error (file ++ ": the download does not match the manifest")
              else .ok { file := pathJoin out (baseName file), content := plain, sha256 := site.sha256 plain }
          | _ => .error "NoSuchKey"

end OpenVibeHost.Archive
