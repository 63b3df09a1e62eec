import OpenVibeHost.Preparation
import OpenVibeHost.Retention

/-! `ovhost backup`, `lib/commands/backup.js`: each run verifies the cluster's own
backup layer, dumps the databases when the last good dump is over seven days old,
and archives the object directories. -/
namespace OpenVibeHost.Backup
open Effects Program Dates

def dayMs : Nat := 86400000

def logicalDumpIntervalDays : Nat := 7

/-- `scrubbed`: what a command said of its failure. -/
def scrubbed (r : RunResult) : String :=
  let said := String.ofList ((trimText (if r.stderr ≠ "" then r.stderr else r.stdout)).toList.take 300)
  if said ≠ "" then said else "exit " ++ toString r.code

/-- `dbengine.fileName`. -/
def fileName (db : Database) : String := db.name ++ ".dump"

/-! ### The backup log -/

def logPath (inv : Inventory) (id : String) : String := inv.stateDir ++ "/backups/" ++ id ++ ".jsonl"

def BackupFile.json (f : BackupFile) : Json :=
  .obj ([("name", .str f.name), ("source", .str f.source)] ++
    (f.dest.map fun dest => ("dest", Json.str dest)).toList ++
    (f.file.map fun file => ("file", Json.str file)).toList ++
    (f.kind.map fun kind => ("kind", Json.str kind)).toList ++
    (f.skipped.map fun skipped => ("skipped", Json.str skipped)).toList ++
    (f.error.map fun error => ("error", Json.str error)).toList ++
    (f.sourceBytes.map fun bytes => ("sourceBytes", Json.num bytes)).toList ++
    (f.bytes.map fun bytes => ("bytes", Json.num bytes)).toList)

def Verified.json (v : Verified) : Json :=
  .obj ((v.type.map fun type => ("type", Json.str type)).toList ++
    (v.stop.map fun stop => ("stop", Json.str stop)).toList ++
    (v.walOk.map fun walOk => ("walOk", Json.bool walOk)).toList ++ [("ok", .bool v.ok)] ++
    (v.error.map fun error => ("error", Json.str error)).toList)

def recordJson (r : BackupRecord) : Json :=
  .obj ([("service", .str r.service), ("at", Json.ofText r.madeAt), ("reason", .str r.reason),
      ("engine", Json.ofText r.engine), ("ok", .bool r.good)] ++
    (r.dir.map fun dir => ("dir", Json.str dir)).toList ++
    [("files", .arr (r.files.map BackupFile.json))] ++
    (r.verified.map fun v => ("verified", Verified.json v)).toList)

/-- A text that is not empty. -/
def textOf : Option Json → Option String
  | some (.str text) => if text ≠ "" then some text else none
  | _ => none

/-- A string of a `files` entry, as `typeof f.file === 'string'` and `===` see it. -/
def stringOf : Option Json → Option String
  | some (.str text) => some text
  | _ => none

def readFileEntry (f : Json) : BackupFile where
  name := (stringOf (f.field "name")).getD ""
  source := (stringOf (f.field "source")).getD ""
  dest := stringOf (f.field "dest")
  file := stringOf (f.field "file")
  kind := stringOf (f.field "kind")
  skipped := stringOf (f.field "skipped")
  error := stringOf (f.field "error")

/-- A line of the log; none where it does not parse or is falsy. -/
def readRecord (line : String) : Option BackupRecord :=
  match Json.parse line with
  | some r =>
    if r.truthy then
      some {
        service := (stringOf (r.field "service")).getD ""
        madeAt := textOf (r.field "at")
        reason := (stringOf (r.field "reason")).getD ""
        good := match r.field "ok" with
          | some (.bool false) => false
          | _ => true
        dir := textOf (r.field "dir")
        files := match r.field "files" with
          | some (.arr items) => items.map readFileEntry
          | _ => [] }
    else none
  | none => none

def readLog (text : Option String) : List BackupRecord := (linesOf (text.getD "")).filterMap readRecord

/-- A record of a good logical dump. -/
def holdsDump (r : BackupRecord) : Bool :=
  r.good && r.files.any fun f => (f.file.map (endsWith · ".dump")).getD false

/-- `lastGoodDumpAt`, of the records of the log, oldest first. -/
def lastGoodDumpAt (records : List BackupRecord) : Option String :=
  (records.reverse.find? holdsDump).bind (·.madeAt)

/-- The cadence: a dump is due when asked for, when none is known, or when the last
is over seven days old. -/
def dumpDue (records : List BackupRecord) (now : Nat) (logical : Bool) : Bool :=
  logical || match (lastGoodDumpAt records).bind dateParse with
    | none => true
    | some made => decide ((logicalDumpIntervalDays * dayMs : Nat) < (now : Int) - made)

/-! ### Verifying the cluster's own backups -/

def pgUser : String := "postgres"

/-- The newest backup in a stanza's `info`: its type, and its end in epoch seconds. -/
def newestBackup (stanza : Json) : Option (String × Rat) :=
  match stanza.field "backup" with
  | some (.arr items) => items.foldl
      (fun best b =>
        match b.field "timestamp" with
        | some timestamp =>
          match Json.number (timestamp.field "stop") with
          | some stop =>
            let found := ((textOf (b.field "type")).getD "unknown", stop)
            match best with
            | some newest => if newest.2 < stop then some found else best
            | none => some found
          | none => best
        | none => best)
      none
  | _ => none

/-- `Number((stanza.status && stanza.status.code) || 0)`, where it is finite. -/
def statusCode (stanza : Json) : Option Rat :=
  match (stanza.field "status").bind (·.field "code") with
  | some code => if code.truthy then Json.number (some code) else some 0
  | none => some 0

/-- `value.toFixed(1)` of a positive number. -/
def toFixed1 (value : Rat) : String :=
  let tenths := (value * 10 + 1 / 2).floor
  toString (tenths / 10) ++ "." ++ toString (tenths % 10)

/-- `verifyPgBackRest`: the stanza is ok and its newest backup under 26 hours old. It answers the
type and the end of that backup. -/
def verifyPgBackRest : Exec (String × String) := do
  let t ← now
  let r ← Exec.run "pgbackrest" ["--stanza=openvibe", "info", "--output=json"]
    { asUser := some pgUser }
  if r.code ≠ 0 then throw (.plain ("pgbackrest info failed: " ++ scrubbed r))
  else
    match Json.parse r.stdout with
    | none =>
      throw (.plain ("pgbackrest info did not answer JSON: " ++
        String.ofList ((trimText r.stdout).toList.take 200)))
    | some stanzas =>
      let list := match stanzas with
        | .arr items => items
        | _ => []
      let isOurs (s : Json) : Bool := match s.field "name" with
        | some (.str name) => name = "openvibe"
        | _ => false
      match list.find? isOurs with
      | none => throw (.plain "pgBackRest has no stanza openvibe: the cluster is not being backed up")
      | some stanza =>
        let code := statusCode stanza
        if code ≠ some 0 then
          throw (.plain ("pgBackRest stanza openvibe is not ok: " ++
            ((textOf ((stanza.field "status").bind (·.field "message"))).getD
              ("status code " ++ (code.map fun n => Json.stringify (.num n)).getD "NaN"))))
        else
          match newestBackup stanza with
          | none => throw (.plain "pgBackRest stanza openvibe holds no backup at all")
          | some (type, stop) =>
            let age := ((t / 1000 : Nat) : Rat) - stop
            if age > 26 * 3600 then
              throw (.plain ("the newest pgBackRest backup (" ++ type ++ ") stopped " ++
                toFixed1 (age / 3600) ++ "h ago (limit 26h)"))
            else pure (type, isoString (stop * 1000).floor.toNat)

def countSql : String := "SELECT failed_count::text AS n FROM pg_stat_archiver"

/-- `Number(rows[0].n)`, where it is finite. -/
def countIn (rows : List (List (String × Option String))) : Option Rat :=
  (rows.head?.bind fun row => row.find? (·.1 = "n")).bind fun column => column.2.bind Json.numberOfText

/-- `walFailedCount`. -/
def walFailedCount : Exec Rat := do
  let rows ← Exec.psql "postgres" countSql
  match countIn rows with
  | some count => return count
  | none => throw (.plain "pg_stat_archiver returned no failed_count")

def archiverPath (inv : Inventory) : String := inv.stateDir ++ "/pgbackrest-archiver.json"

/-- The count that the stored text holds. -/
def archiverCount (text : Option String) : Option Rat :=
  text.bind fun content =>
    match (Json.parse content).bind (·.field "failedCount") with
    | some (.num count) => some count
    | _ => none

/-- The failed count the last run recorded. -/
def readArchiver (inv : Inventory) : Exec (Option Rat) := do
  return archiverCount (← Exec.readFile (archiverPath inv))

def writeArchiver (inv : Inventory) (failedCount : Rat) : Exec Unit := do
  Exec.mkdir inv.stateDir
  let t ← now
  Exec.writeFile (archiverPath inv) ((Json.stringify (.obj
    [("failedCount", .num failedCount), ("at", .str (isoString t))])) ++ "\n")

/-- `verifyPostgres`; an error is an answer here, not a throw. -/
def verifyPostgres (inv : Inventory) : Exec Verified :=
  attempt
    (do
      let (type, stop) ← verifyPgBackRest
      let failed ← walFailedCount
      let previous ← readArchiver inv
      writeArchiver inv failed
      let found : Verified := { type := some type, stop := some stop, ok := true }
      match previous with
      | some count =>
        if count < failed then
          return { found with
            walOk := some false
            ok := false
            error := some ("the WAL archiver failed_count rose from " ++ Json.stringify (.num count) ++
              " to " ++ Json.stringify (.num failed)) }
        else return { found with walOk := some true }
      | none => return { found with walOk := some true })
    fun err => pure { ok := false, error := some err.message }

/-! ### One service -/

def lockDown (path mode : String) : Exec Unit := do
  let owner ← Exec.run "chown" ["root:root", "--", path] { privileged := true }
  if owner.code ≠ 0 then
    throw (.plain ("chown " ++ path ++ " failed: " ++ trimText owner.stderr))
  else
    let r ← Exec.run "chmod" [mode, "--", path] { privileged := true }
    if r.code ≠ 0 then throw (.plain ("chmod " ++ path ++ " failed: " ++ trimText r.stderr))
    else pure ()

def privateDir (path : String) : Exec Unit := do
  Exec.mkdir path (some "root")
  lockDown path "0700"

/-- `dbengine.dump` and its entry in the record. -/
def dumpOne (dir stage : String) (db : Database) : Exec BackupFile := do
  let file := fileName db
  let r ← Exec.run "pg_dump" ["-w", "-Fc", "-f", joinPath stage file, "-d", db.database]
    { asUser := some pgUser }
  let entry : BackupFile := { name := db.name, source := db.database, dest := some (joinPath dir file) }
  if r.code ≠ 0 then
    return { entry with error := some ("pg_dump " ++ db.database ++ " failed: " ++ scrubbed r) }
  else return { entry with file := some file }

/-- tar's warnings about files that changed while it read are no failures. -/
def tarWarningsOnly (stderr : String) : Bool :=
  let lines := (linesOf stderr).map trimText |>.filter (· ≠ "")
  let benign (line : String) : Bool :=
    let lower := line.toList.map Char.toLower
    ["file changed as we read it", "file removed before we read it",
      "cannot stat: no such file or directory"].any fun warning => lower.tails.any (warning.toList.isPrefixOf ·)
  !lines.isEmpty && lines.all benign

def archiveHeadroom : Nat := 1024 * 1024

/-- The room in the staging directory and the room needed, where that is too little for what `du`
found. -/
def shortOfSpace (inv : Inventory) (sourceBytes : Option Nat) : Exec (Option (Nat × Nat)) :=
  match sourceBytes with
  | some bytes => do
    let free ← Exec.statfs inv.backupStagingDir
    return if free < bytes + archiveHeadroom then some (free, bytes + archiveHeadroom) else none
  | none => pure none

/-- The archive of one object directory and its entry in the record. -/
def archiveOne (inv : Inventory) (dir stage : String) (obj : ObjectDirectory) : Exec BackupFile := do
  let file := obj.name ++ ".tar.gz"
  let archive := joinPath stage file
  let entry : BackupFile := { name := obj.name, source := obj.path, dest := some (joinPath dir file) }
  match ← Exec.stat obj.path with
  | none => return { name := obj.name, source := obj.path, skipped := some "not found" }
  | some _ =>
    let du ← Exec.run "du" ["-sb", "--", obj.path] { privileged := true }
    let sourceBytes := if du.code = 0 then
        (Json.numberOfText ((Systemd.words du.stdout).head?.getD "")).map (·.floor.toNat)
      else none
    match ← shortOfSpace inv sourceBytes with
    | some (free, needed) =>
      return { entry with error := some ("not enough free space under " ++ inv.backupStagingDir ++ ": " ++
        toString free ++ " bytes free, need " ++ toString needed ++ " for " ++ obj.name) }
    | none =>
      let _ ← Exec.run "rm" ["-rf", "--", archive] { privileged := true }
      let r ← Exec.run "tar" ["-czf", archive, "-C", obj.path, "--exclude=./tmp",
        "--exclude=./tmp/*", "."] { privileged := true }
      if r.code ≠ 0 ∧ ¬ (r.code = 1 ∧ tarWarningsOnly r.stderr = true) then
        return { entry with error := some ("tar: " ++ String.ofList ((trimText r.stderr).toList.take 200)) }
      else return { entry with file := some file, kind := some "objects", sourceBytes }

/-- A copy that is not a plain file is refused; the others become root's. -/
def checkCopy (stage : String) (f : BackupFile) : Exec BackupFile :=
  match f.file, f.error with
  | some file, none => do
    match ← Exec.stat (joinPath stage file) with
    | some st =>
      if st.isFile && !st.isSymlink && st.nlink == 1 then
        lockDown (joinPath stage file) "0600"
        return { f with bytes := some st.size }
      else return { f with error := some "the copy is not a plain file" }
    | none => return { f with error := some "the copy is not a plain file" }
  | _, _ => pure f

/-- The copies of one run, made in the staging directory and moved into place. -/
def copyAll (inv : Inventory) (svc : Service) (due : Bool) (dir stage : String) :
    Exec (List BackupFile) := do
  let dumps ← fold (if due then svc.databases else []) [] fun files db => do
    return files ++ [← dumpOne dir stage db]
  lockDown stage "0700"
  let made ← fold svc.objects dumps fun files obj => do
    return files ++ [← archiveOne inv dir stage obj]
  let files ← fold made [] fun files f => do return files ++ [← checkCopy stage f]
  let wanted := (files.filter (·.error = none)).filterMap (·.file)
  forEach ((← Exec.readdir stage).getD []) fun e =>
    if e.name ∈ wanted then pure ()
    else do
      let _ ← Exec.run "rm" ["-rf", "--", joinPath stage e.name] { privileged := true }
  whenever (wanted ≠ []) do
    let mv ← Exec.run "mv" ["-T", "--", stage, dir] { privileged := true }
    if mv.code ≠ 0 then
      throw (.plain ("moving " ++ stage ++ " to " ++ dir ++ " failed: " ++ trimText mv.stderr))
    else lockDown dir "0700"
  return files

def clearStage (stage : String) : Exec Unit := do
  match ← Exec.stat stage with
  | some _ =>
    let _ ← Exec.run "rm" ["-rf", "--", stage] { privileged := true }
  | none => pure ()

def appendRecord (inv : Inventory) (id : String) (record : BackupRecord) : Exec Unit :=
  Exec.appendFile (logPath inv id) (Json.stringify (recordJson record) ++ "\n")

/-- The `engine` of a record. -/
def engineOf (svc : Service) : Option String := if svc.databases ≠ [] then some "postgresql" else none

/-- `f.dest && !f.error`. -/
def copied (f : BackupFile) : Bool := f.dest.isSome && f.error.isNone

/-- The copies of a run, once it is known which are due. -/
def makeCopies (inv : Inventory) (svc : Service) (reason : String) (due : Bool)
    (verified : Option Verified) : Exec BackupRecord := do
  let st := stamp (← now)
  let dir := joinPath (joinPath inv.backupDir svc.id) st
  if (← Exec.stat dir).isSome then
    throw (.plain (dir ++ " already exists; a backup never overwrites another"))
  else
    privateDir inv.backupDir
    privateDir (joinPath inv.backupDir svc.id)
    Exec.mkdir inv.backupStagingDir (some "root")
    lockDown inv.backupStagingDir "0711"
    let stage := joinPath inv.backupStagingDir (svc.id ++ "-" ++ st)
    clearStage stage
    Exec.mkdir stage (some (if svc.databases ≠ [] then pgUser else "root"))
    let files ← ensure (copyAll inv svc due dir stage) (clearStage stage)
    let failed := files.filter (·.error.isSome)
    let record : BackupRecord := {
      service := svc.id
      madeAt := some (isoString (← now))
      reason
      engine := engineOf svc
      good := failed.isEmpty && files.any copied
      dir := some dir
      files
      verified }
    appendRecord inv svc.id record
    if failed ≠ [] then
      throw (.backup ("; ".intercalate (failed.map fun f => f.name ++ ": " ++ f.error.getD "")) record)
    else return record

/-- `backup`. -/
def backup (inv : Inventory) (svc : Service) (reason : String) (logical : Bool) :
    Exec BackupRecord := do
  if svc.databases = [] ∧ svc.objects = [] then
    throw (.plain (svc.id ++ " declares no databases or object directories"))
  else
    let verified ← (if svc.databases ≠ [] then some <$> verifyPostgres inv else pure none :
      Exec (Option Verified))
    if (verified.map (·.ok)).getD true = false then
      let record : BackupRecord := {
        service := svc.id
        madeAt := some (isoString (← now))
        reason
        engine := engineOf svc
        good := false
        verified }
      appendRecord inv svc.id record
      throw (.backup ("PostgreSQL verification failed: " ++
        ((verified.bind (·.error)).getD "")) record)
    else
      let due ← (if svc.databases ≠ [] then do
          let records := readLog (← Exec.readFile (logPath inv svc.id))
          return dumpDue records (← now) logical
        else pure false : Exec Bool)
      if due = false ∧ svc.objects = [] then
        let record : BackupRecord := {
          service := svc.id
          madeAt := some (isoString (← now))
          reason
          engine := engineOf svc
          good := true
          verified }
        appendRecord inv svc.id record
        return record
      else makeCopies inv svc reason due verified

end OpenVibeHost.Backup
