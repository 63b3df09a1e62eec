import OpenVibeHost.Answers
import OpenVibeHost.DrillScratch
import OpenVibeHost.KeyedTables
import OpenVibeHost.Calendar
import Mathlib.Data.List.Nodup

/-! The environment of a drill's instance: the `drill` block as `normaliseDrill` of `lib/inventory.js` checks it, the
override file that `lib/commands/drill.js` writes, and what systemd reads of it. -/
namespace OpenVibeHost.Drill

open Answers (bind_ok)

/-! ### The drill block -/

/-- The variables of a database, which are what the inventory has: not only texts pass the check of their names. -/
structure Target where
  url : Json
  directUrl : Json

/-- The fields of a drill block that its start reads. -/
structure Plan where
  port : Rat
  databases : Table Target
  env : List (String × String)

def letter (c : Char) : Bool := ('A' ≤ c && c ≤ 'Z') || ('a' ≤ c && c ≤ 'z') || c = '_'

def nameChar (c : Char) : Bool := letter c || ('0' ≤ c && c ≤ '9')

/-- `ENV_NAME_RE`. -/
def envNameRe (name : String) : Bool :=
  match name.toList with
  | [] => false
  | c :: rest => letter c && rest.all nameChar

/-- `{db:…}` in a text. -/
def dbPlaceholder : List Char → Bool
  | [] => false
  | '{' :: 'd' :: 'b' :: ':' :: rest => (rest.head? ≠ some '}' && rest.contains '}') || dbPlaceholder rest
  | _ :: rest => dbPlaceholder rest

/-- `value.includes('{port}')`. -/
def takesPort : List Char → Bool
  | [] => false
  | '{' :: 'p' :: 'o' :: 'r' :: 't' :: '}' :: _ => true
  | _ :: rest => takesPort rest

/-- `Object.entries`, of what an inventory can have here. -/
def entriesOf : Json → List (String × Json)
  | .obj fields => fields
  | .arr items => items.zipIdx.map fun (item, i) => (toString i, item)
  | .str text => text.toList.zipIdx.map fun (c, i) => (toString i, .str (String.singleton c))
  | _ => []

/-- What every object has without own properties. -/
def objectNames : List String :=
  ["__defineGetter__", "__defineSetter__", "hasOwnProperty", "__lookupGetter__", "__lookupSetter__", "isPrototypeOf",
    "propertyIsEnumerable", "toString", "valueOf", "toLocaleString", "__proto__", "constructor"]

/-- What an array has besides. -/
def arrayNames : List String :=
  ["length", "at", "concat", "copyWithin", "fill", "find", "findIndex", "findLast", "findLastIndex", "lastIndexOf", "pop",
    "push", "reverse", "shift", "unshift", "slice", "sort", "splice", "includes", "indexOf", "join", "keys", "entries",
    "values", "forEach", "filter", "flat", "flatMap", "map", "every", "some", "reduce", "reduceRight", "toReversed",
    "toSorted", "toSpliced", "with"]

/-- `name in value`; the operator refuses what is no object. -/
def nameIn (name : String) : Json → Except Failure Bool
  | .obj fields => .ok (decide (name ∈ fields.map (·.1)) || decide (name ∈ objectNames))
  | .arr items => .ok (decide (name ∈ arrayNames ++ objectNames) || ((Json.index? name).any (· < items.length)))
  | value => .error (.plain ("Cannot use 'in' operator to search for '" ++ name ++ "' in " ++ Json.shown value))

/-- `value && typeof value === 'object'`. -/
def isObject : Json → Bool
  | .obj _ | .arr _ => true
  | _ => false

/-- `value || {}`. -/
def orEmpty : Option Json → Json
  | some value => if value.truthy then value else .obj []
  | none => .obj []

/-- `ENV_NAME_RE.test(value || '')`. -/
def namesVariable (value : Option Json) : Bool :=
  match value with
  | some value => value.truthy && envNameRe (Json.shown value)
  | none => false

section
variable (w : String)

/-- The check of one entry of `drill.databases`. -/
def checkTarget (id : String) (dbNames : List String) (name : String) (target : Json) : Except Failure Target :=
  if name ∉ dbNames then
    .error (.inventory (w ++ ".databases: \"" ++ name ++ "\" is not one of " ++ id ++ "'s databases (" ++
      ", ".intercalate dbNames ++ ")"))
  else
    match target with
    | .obj _ =>
      match target.field "url", target.field "directUrl" with
      | some url, some directUrl =>
        if !namesVariable (some url) then .error (.inventory (w ++ ".databases." ++ name ++ ".url must be an env var name"))
        else if !namesVariable (some directUrl) then
          .error (.inventory (w ++ ".databases." ++ name ++ ".directUrl must be an env var name"))
        else if url.same directUrl then
          .error (.inventory (w ++ ".databases." ++ name ++ ": url and directUrl must be different env vars"))
        else .ok { url, directUrl }
      | some url, none =>
        if !namesVariable (some url) then .error (.inventory (w ++ ".databases." ++ name ++ ".url must be an env var name"))
        else .error (.inventory (w ++ ".databases." ++ name ++ ".directUrl must be an env var name"))
      | none, _ => .error (.inventory (w ++ ".databases." ++ name ++ ".url must be an env var name"))
    | _ => .error (.inventory (w ++ ".databases." ++ name ++
        " must be \x7b \"url\": \"<NAME>\", \"directUrl\": \"<NAME>\" \x7d for a postgresql database"))

/-- `databases[name] = …`; the name `__proto__` leaves no property. -/
def keep (databases : Table Target) (name : String) (target : Target) : Table Target :=
  if name = "__proto__" then databases
  else (databases.add name target).getD (databases.set name target)

def checkTargets (id : String) (dbNames : List String) (databases : Table Target) :
    List (String × Json) → Except Failure (Table Target)
  | [] => .ok databases
  | (name, target) :: rest => do
    checkTargets id dbNames (keep databases name (← checkTarget w id dbNames name target)) rest

/-- The check of one entry of `drill.env`. -/
def checkEnv (k : String) (v : Json) : Except Failure (String × String) :=
  if !envNameRe k then .error (.inventory (w ++ ".env: \"" ++ k ++ "\" is not an env var name"))
  else
    match v with
    | .str text =>
      if text.toList.any fun c => c = '\n' || c = '\r' || c = '\x00' then
        .error (.inventory (w ++ ".env." ++ k ++ " must be a one-line string"))
      else if dbPlaceholder text.toList then
        .error (.inventory (w ++ ".env." ++ k ++
          ": database file placeholders are unsupported; use drill.databases URL settings"))
      else .ok (k, text)
    | _ => .error (.inventory (w ++ ".env." ++ k ++ " must be a one-line string"))

def checkEnvs : List (String × Json) → Except Failure (List (String × String))
  | [] => .ok []
  | (k, v) :: rest => do
    let entry ← checkEnv w k v
    let others ← checkEnvs rest
    .ok (entry :: others)

/-- `(raw.command || []).some((a) => String(a).includes('{port}'))`. -/
def commandTakesPort (command : Option Json) : Except Failure Bool :=
  match command.filter Json.truthy with
  | none => .ok false
  | some (.arr items) => .ok (items.any fun a => takesPort (Json.shown a).toList)
  | some _ => .error (.plain "(raw.command || []).some is not a function")

def checkUnowned (env : Json) (name : String) : Except Failure Unit := do
  if ← nameIn name env then throw (.inventory (w ++ ".env." ++ name ++ " is already set by drill.databases"))

/-- The drill writes the variables of its databases itself. -/
def checkOwned (env : Json) : List Target → Except Failure Unit
  | [] => .ok ()
  | target :: rest => do
    checkUnowned w env (Json.shown target.url)
    checkUnowned w env (Json.shown target.directUrl)
    checkOwned env rest

/-- Both parts of the check that the instance listens on the drill's own port. -/
def checkPort (command : Option Json) (env : List (String × String)) : Except Failure Unit := do
  if !env.any (fun entry => takesPort entry.2.toList) then
    if !(← commandTakesPort command) then
      throw (.inventory (w ++
        ".env must point the instance at its port with \x7bport\x7d (e.g. \"PORT\": \"\x7bport\x7d\")"))

/-- The plan of a drill that is supported, as far as the variables are checked. -/
def planOf (raw : Json) (svc : Service) (port : Rat) : Except Failure Plan :=
  match orEmpty (raw.field "databases") with
  | .obj (first :: more) => do
    let databases ← checkTargets w svc.id (svc.databases.map (·.name)) Table.empty (first :: more)
    let given := orEmpty (raw.field "env")
    let env ← checkEnvs w (entriesOf given)
    checkPort w (raw.field "command") env
    checkOwned w given (databases.entries.map (·.2))
    .ok { port, databases, env }
  | _ => .error (.inventory (w ++ ".databases must map at least one database name to its URL env var names"))

/-- `normaliseDrill` as far as the variables are checked; the checks after these only refuse more. None is a drill
that is declared unsupported. -/
def normaliseDrill (raw : Json) (svc : Service) : Except Failure (Option Plan) :=
  if !isObject raw then .error (.inventory (w ++ " must be an object"))
  else if (raw.field "supported").any (Json.same (.bool false)) then
    match raw.field "reason" with
    | some (.str reason) =>
      if Json.trimChars reason.toList = [] then .error (.inventory (w ++ ".reason is required when supported is false"))
      else .ok none
    | _ => .error (.inventory (w ++ ".reason is required when supported is false"))
  else
    match (Json.number (raw.field "port")).filter fun port => port.den = 1 ∧ 1024 ≤ port ∧ port < 65536 with
    | none => .error (.inventory (w ++ ".port must be a TCP port from 1024"))
    | some port =>
      if svc.port.any fun own => (own : Rat) = port then
        .error (.inventory (w ++ ".port must differ from the service's own port"))
      else if svc.databases = [] then
        .error (.inventory (w ++ ": a drill restores databases, and " ++ svc.id ++ " declares none"))
      else (planOf w raw svc port).map some

end

/-! ### The start -/

/-- The checks of a drill's overrides before anything is created. -/
def checkOverrides (svc : Service) (plan : Plan) : Except Failure Unit := do
  let pgRestored := svc.databases.filter fun db => (plan.databases.get db.name).isSome
  let pgUnmapped := svc.databases.filter fun db => (plan.databases.get db.name).isNone
  if pgUnmapped ≠ [] then
    throw (.plain (svc.id ++ ": drill.databases must map every PostgreSQL database (" ++
      ", ".intercalate (pgUnmapped.map (·.name)) ++
      " is missing): otherwise the drill instance would run on production's database"))
  if pgRestored ≠ [] then
    let unnamed := pgRestored.flatMap fun db =>
      match plan.databases.get db.name with
      | none => []
      | some target =>
        (if target.url.truthy then [] else ["postgresql " ++ db.database ++ " has no url env var"]) ++
          if target.directUrl.truthy then [] else ["postgresql " ++ db.database ++ " has no directUrl env var"]
    let valkey := if plan.env.any fun entry => entry.1 = "VALKEY_URL" ∧ entry.2 ≠ "" then []
      else ["VALKEY_URL: without it the drill instance would write into the production Valkey keyspace"]
    if unnamed ++ valkey ≠ [] then
      throw (.plain (svc.id ++ ": drill.env must set " ++ "; ".intercalate (unnamed ++ valkey)))

/-- A database that a drill restored into. -/
structure Scratch where
  name : String
  database : String
  role : String
  password : String

/-- The scratch copies of a drill, in the order of its databases. -/
def scratchesOf (id at' : String) (plan : Plan) (passwords : Nat → String) : List Scratch :=
  plan.databases.entries.zipIdx.map fun (entry, i) =>
    let name := scratchName id at' (if 1 < plan.databases.entries.length then some i else none)
    { name := entry.1, database := name, role := name, password := passwords i }

def scratchFor (scratches : List Scratch) (name : String) : Option Scratch := scratches.find? (·.name = name)

def unreserved (c : Char) : Bool := c.isAlphanum || "-_.!~*'()".toList.contains c

def hexPair (b : UInt8) : List Char :=
  ['%', (Nat.digitChar (b.toNat / 16)).toUpper, (Nat.digitChar (b.toNat % 16)).toUpper]

def encodeURIComponent (text : String) : String :=
  String.ofList (text.toList.flatMap fun c => if unreserved c then [c] else (String.utf8EncodeChar c).flatMap hexPair)

/-- `databaseUrl` of `lib/dbengine.js`. -/
def databaseUrl (s : Scratch) : String :=
  "postgresql://" ++ encodeURIComponent s.role ++ ":" ++ encodeURIComponent s.password ++ "@127.0.0.1:5432/" ++
    encodeURIComponent s.database

/-- `{tmp}` and `{port}` in a value. -/
def expand (tmp port : List Char) : List Char → List Char
  | [] => []
  | '{' :: 't' :: 'm' :: 'p' :: '}' :: rest => tmp ++ expand tmp port rest
  | '{' :: 'p' :: 'o' :: 'r' :: 't' :: '}' :: rest => port ++ expand tmp port rest
  | c :: rest => c :: expand tmp port rest

def plainChar (c : Char) : Bool := c.isAlphanum || "_./:,@%+=-".toList.contains c

def escaped (c : Char) : List Char := if c = '"' ∨ c = '\\' ∨ c = '$' ∨ c = '\x60' then ['\\', c] else [c]

/-- A line for a systemd EnvironmentFile. -/
def envLine (name : String) (value : List Char) : List Char :=
  if value = [] then name.toList ++ ['=']
  else if value.all plainChar then name.toList ++ '=' :: value
  else name.toList ++ '=' :: '"' :: (value.flatMap escaped ++ ['"'])

/-- `map.set(key, value)`. -/
def assign (entries : List (Json × String)) (key : Json) (value : String) : List (Json × String) :=
  if entries.any (·.1.same key) then entries.map fun entry => if entry.1.same key then (entry.1, value) else entry
  else entries ++ [(key, value)]

/-- What the drill writes for the variables of its databases, one after another. -/
def settings (scratches : List Scratch) (entries : List (String × Target)) : List (Json × String) :=
  entries.flatMap fun (name, target) =>
    match scratchFor scratches name with
    | some s => [(target.url, databaseUrl s), (target.directUrl, databaseUrl s)]
    | none => []

def dbEnvOf (sets : List (Json × String)) : List (Json × String) :=
  sets.foldl (fun entries set => assign entries set.1 set.2) []

/-- The first line of the override file, after its `#`. -/
def heading : List Char :=
  " written by ovhost drill; no secret values: the production env file is loaded separately".toList

/-- The override file. -/
def drillEnvText (tmp : String) (plan : Plan) (dbEnv : List (Json × String)) : List Char :=
  let lines := ('#' :: heading) ::
    (plan.env.map fun (k, v) => envLine k (expand tmp.toList (Json.numberText plan.port).toList v.toList)) ++
    dbEnv.map fun (k, v) => envLine (Json.shown k) v.toList
  lines.flatMap (· ++ ['\n'])

/-! ### What systemd reads -/

/-- Where systemd is in an EnvironmentFile; the blanks are those that it may drop. -/
inductive Reading where
  | preKey
  | key (done blanks : List Char)
  | preValue (key done : List Char)
  | value (key done blanks : List Char)
  | valueEscape (key done : List Char)
  | singleQuote (key done : List Char)
  | doubleQuote (key done : List Char)
  | doubleEscape (key done : List Char)
  | comment
  | commentEscape

def lineEnd (c : Char) : Bool := c = '\n' || c = '\r'

def spacing (c : Char) : Bool := c = ' ' || c = '\t' || lineEnd c

/-- The assignments of an EnvironmentFile from some place in it. -/
def readFrom : Reading → List Char → List (List Char × List Char)
  | .preKey, [] | .key .., [] | .comment, [] | .commentEscape, [] => []
  | .preValue key done, [] | .value key done _, [] | .valueEscape key done, [] | .singleQuote key done, []
  | .doubleQuote key done, [] | .doubleEscape key done, [] => [(key, done)]
  | .preKey, c :: rest =>
    if c = '#' ∨ c = ';' then readFrom .comment rest
    else if spacing c then readFrom .preKey rest
    else readFrom (.key [c] []) rest
  | .key done blanks, c :: rest =>
    if lineEnd c then readFrom .preKey rest
    else if c = '=' then readFrom (.preValue done []) rest
    else if spacing c then readFrom (.key done (blanks ++ [c])) rest
    else readFrom (.key (done ++ blanks ++ [c]) []) rest
  | .preValue key done, c :: rest =>
    if lineEnd c then (key, done) :: readFrom .preKey rest
    else if c = '\'' then readFrom (.singleQuote key done) rest
    else if c = '"' then readFrom (.doubleQuote key done) rest
    else if c = '\\' then readFrom (.valueEscape key done) rest
    else if spacing c then readFrom (.preValue key done) rest
    else readFrom (.value key (done ++ [c]) []) rest
  | .value key done blanks, c :: rest =>
    if lineEnd c then (key, done) :: readFrom .preKey rest
    else if c = '\\' then readFrom (.valueEscape key (done ++ blanks)) rest
    else if spacing c then readFrom (.value key done (blanks ++ [c])) rest
    else readFrom (.value key (done ++ blanks ++ [c]) []) rest
  | .valueEscape key done, c :: rest =>
    -- an escaped end of a line is dropped
    if lineEnd c then readFrom (.value key done []) rest else readFrom (.value key (done ++ [c]) []) rest
  | .singleQuote key done, c :: rest =>
    if c = '\'' then readFrom (.preValue key done) rest else readFrom (.singleQuote key (done ++ [c])) rest
  | .doubleQuote key done, c :: rest =>
    if c = '"' then readFrom (.preValue key done) rest
    else if c = '\\' then readFrom (.doubleEscape key done) rest
    else readFrom (.doubleQuote key (done ++ [c])) rest
  | .doubleEscape key done, c :: rest =>
    if c = '"' ∨ c = '\\' ∨ c = '\x60' ∨ c = '$' then readFrom (.doubleQuote key (done ++ [c])) rest
    else if c = '\n' then readFrom (.doubleQuote key done) rest
    else readFrom (.doubleQuote key (done ++ ['\\', c])) rest
  | .comment, c :: rest =>
    if c = '\\' then readFrom .commentEscape rest
    else if lineEnd c then readFrom .preKey rest
    else readFrom .comment rest
  | .commentEscape, _ :: rest => readFrom .comment rest

/-- The assignments of an EnvironmentFile, in order. -/
def environmentFile (text : List Char) : List (String × String) :=
  (readFrom .preKey text).map fun (key, value) => (String.ofList key, String.ofList value)

/-- The value of the last assignment to a variable. -/
def lastOf (assignments : List (String × String)) (name : String) : Option String :=
  (assignments.reverse.find? (·.1 = name)).map (·.2)

/-- What a drill has besides its plan: its start, its directory, the passwords of its roles, the environment of the
production unit and the text of the production environment file. -/
structure Circumstances where
  at' : String
  tmp : String
  passwords : Nat → String
  unitEnvironment : List (String × String)
  envFile : Option String

/-- The environment that the drill starts the restored service with. An EnvironmentFile wins against `Environment=`, and
the later file against the earlier one. -/
def instanceEnvironment (svc : Service) (plan : Plan) (given : Circumstances) : Except Failure (String → Option String) := do
  checkOverrides svc plan
  let dbEnv := dbEnvOf (settings (scratchesOf svc.id given.at' plan given.passwords) plan.databases.entries)
  let passedOn := given.unitEnvironment.filter fun e =>
    !(plan.env.any (·.1 = e.1) || dbEnv.any fun entry => entry.1.same (.str e.1))
  let production := (given.envFile.map fun text => environmentFile text.toList).getD []
  .ok (lastOf (passedOn ++ production ++ environmentFile (drillEnvText given.tmp plan dbEnv)))

/-! ### What the start is for -/

/-- The variables of a database. -/
def Target.names (target : Target) : List String := [Json.shown target.url, Json.shown target.directUrl]

/-- The variables of every database name its own scratch copy. -/
def NamesOwn (scratches : List Scratch) (plan : Plan) (environment : String → Option String) : Prop :=
  ∀ entry ∈ plan.databases.entries, ∀ name ∈ entry.2.names,
    ∃ s, scratchFor scratches entry.1 = some s ∧ environment name = some (databaseUrl s)

/-- No two databases have a variable in common. -/
def Apart (plan : Plan) : Prop :=
  plan.databases.entries.Pairwise fun a b => ∀ name ∈ a.2.names, name ∉ b.2.names

instance (plan : Plan) : Decidable (Apart plan) := inferInstanceAs (Decidable (List.Pairwise _ _))

/-! ### The override file is read back -/

section
attribute [local simp] readFrom

/-- A character that means nothing to systemd in a value without quotes. -/
structure Ordinary (c : Char) : Prop where
  line : lineEnd c = false
  blank : spacing c = false
  backslash : c ≠ '\\'
  single : c ≠ '\''
  double : c ≠ '"'

theorem ne_of_taken (taken : Char → Bool) {c d : Char} (this : taken c = true) (other : taken d = false) : c ≠ d := by
  rintro rfl
  exact absurd (this.symm.trans other) (by decide)

/-- The characters that are not ordinary. -/
def special : List Char := ['\n', '\r', ' ', '\t', '\\', '\'', '"']

theorem ordinary_of_taken (taken : Char → Bool) {c : Char} (this : taken c = true)
    (others : special.all (fun d => !taken d) = true) : Ordinary c := by
  have ne (d : Char) (among : d ∈ special) : c ≠ d :=
    ne_of_taken taken this (by simpa using List.all_eq_true.1 others d among)
  exact {
    line := by simp [lineEnd, ne '\n' (by decide), ne '\r' (by decide)]
    blank := by simp [spacing, lineEnd, ne '\n' (by decide), ne '\r' (by decide), ne ' ' (by decide), ne '\t' (by decide)]
    backslash := ne _ (by decide)
    single := ne _ (by decide)
    double := ne _ (by decide) }

theorem ordinary_plain {c : Char} (plain : plainChar c = true) : Ordinary c :=
  ordinary_of_taken plainChar plain (by decide)

theorem readFrom_value {key done text rest : List Char} (plain : ∀ c ∈ text, plainChar c = true) :
    readFrom (.value key done []) (text ++ '\n' :: rest) = (key, done ++ text) :: readFrom .preKey rest := by
  induction text generalizing done with
  | nil => simp [readFrom, lineEnd]
  | cons c text ih =>
    have here := ordinary_plain (plain c (List.mem_cons_self ..))
    simp [readFrom, here.line, here.backslash, here.blank, ih fun d among => plain d (List.mem_cons_of_mem _ among)]

/-- The escapes of a quoted value are undone. -/
theorem readFrom_escaped {key done text rest : List Char} :
    readFrom (.doubleQuote key done) (text.flatMap escaped ++ '"' :: '\n' :: rest) =
      (key, done ++ text) :: readFrom .preKey rest := by
  induction text generalizing done with
  | nil => simp [readFrom, lineEnd]
  | cons c text ih =>
    by_cases quoted : c = '"' ∨ c = '\\' ∨ c = '$' ∨ c = '\x60'
    · have undone : c = '"' ∨ c = '\\' ∨ c = '\x60' ∨ c = '$' := by tauto
      simp only [List.flatMap_cons, escaped, quoted, if_true, List.cons_append, List.nil_append]
      rw [readFrom, if_neg (by decide), if_pos rfl, readFrom, if_pos undone, ih]
      simp
    · simp only [List.flatMap_cons, escaped, quoted, if_false, List.cons_append, List.nil_append]
      push Not at quoted
      rw [readFrom, if_neg quoted.1, if_neg quoted.2.1, ih]
      simp

/-- The name of a variable ends at the equals sign. -/
theorem readFrom_key {done text rest : List Char} (named : ∀ c ∈ text, nameChar c = true) :
    readFrom (.key done []) (text ++ '=' :: rest) = readFrom (.preValue (done ++ text) []) rest := by
  induction text generalizing done with
  | nil => simp [readFrom, lineEnd]
  | cons c text ih =>
    have here := named c (List.mem_cons_self ..)
    have ordinary : Ordinary c := ordinary_of_taken nameChar here (by decide)
    have ne : c ≠ '=' := ne_of_taken nameChar here (by decide)
    simp [readFrom, ordinary.line, ne, ordinary.blank, ih fun d among => named d (List.mem_cons_of_mem _ among)]

theorem readFrom_name {name : String} {rest : List Char} (named : envNameRe name = true) :
    readFrom .preKey (name.toList ++ '=' :: rest) = readFrom (.preValue name.toList []) rest := by
  unfold envNameRe at named
  split at named
  · cases named
  · rename_i c text isName
    rw [isName]
    obtain ⟨first, others⟩ := Bool.and_eq_true_iff.1 named
    have ordinary : Ordinary c := ordinary_of_taken letter first (by decide)
    have comment : ¬ (c = '#' ∨ c = ';') :=
      not_or.2 ⟨ne_of_taken letter first (by decide), ne_of_taken letter first (by decide)⟩
    rw [List.cons_append, readFrom, if_neg comment, if_neg (by simp [ordinary.blank]),
      readFrom_key (List.all_eq_true.1 others)]
    rfl

/-- A line of the override file is read as the assignment that it was written for. -/
theorem readFrom_envLine {name : String} {value rest : List Char} (named : envNameRe name = true) :
    readFrom .preKey (envLine name value ++ '\n' :: rest) = (name.toList, value) :: readFrom .preKey rest := by
  unfold envLine
  split
  · rename_i empty
    rw [List.append_assoc, List.cons_append, List.nil_append, readFrom_name named, empty]
    simp [readFrom, lineEnd]
  · rename_i some_text
    split
    · rename_i plain
      rw [List.append_assoc, List.cons_append, readFrom_name named]
      obtain ⟨c, text, rfl⟩ := List.exists_cons_of_ne_nil some_text
      have each := List.all_eq_true.1 plain
      have here := ordinary_plain (each c (List.mem_cons_self ..))
      have ordinary := @readFrom_value name.toList [c] text rest fun d among =>
        each d (List.mem_cons_of_mem _ among)
      simp [readFrom, here.line, here.single, here.double, here.backslash, here.blank, ordinary]
    · rw [List.append_assoc, List.cons_append, readFrom_name named, List.cons_append, readFrom, if_neg (by decide),
        if_neg (by decide), if_pos rfl, List.append_assoc, List.cons_append, List.nil_append, readFrom_escaped,
        List.nil_append]

theorem readFrom_comment {text rest : List Char} (plain : ∀ c ∈ text, c ≠ '\\' ∧ lineEnd c = false) :
    readFrom .comment (text ++ '\n' :: rest) = readFrom .preKey rest := by
  induction text with
  | nil => simp [readFrom, lineEnd]
  | cons c text ih =>
    obtain ⟨backslash, line⟩ := plain c (List.mem_cons_self ..)
    simp [readFrom, backslash, line, ih fun d among => plain d (List.mem_cons_of_mem _ among)]

theorem readFrom_lines {assignments : List (String × List Char)} {rest : List Char}
    (named : ∀ a ∈ assignments, envNameRe a.1 = true) :
    readFrom .preKey ((assignments.map fun a => envLine a.1 a.2).flatMap (· ++ ['\n']) ++ rest) =
      (assignments.map fun a => (a.1.toList, a.2)) ++ readFrom .preKey rest := by
  induction assignments with
  | nil => rfl
  | cons a others ih =>
    simp only [List.map_cons, List.flatMap_cons, List.append_assoc, List.cons_append, List.nil_append]
    rw [readFrom_envLine (named a (List.mem_cons_self ..)), ih fun b among => named b (List.mem_cons_of_mem _ among)]

/-- What the checks leave of the names of the variables. -/
structure Checked (plan : Plan) : Prop where
  targets : ∀ entry ∈ plan.databases.entries, ∀ name ∈ entry.2.names, envNameRe name = true
  env : ∀ entry ∈ plan.env, envNameRe entry.1 = true

theorem heading_plain : ∀ c ∈ heading, c ≠ '\\' ∧ lineEnd c = false := by
  have all : heading.all (fun c => c ≠ '\\' && !lineEnd c) = true := by decide +kernel
  intro c among
  simpa using List.all_eq_true.1 all c among

/-- systemd reads the assignments of the drill, those of the databases last. -/
theorem environmentFile_drillEnvText {tmp : String} {plan : Plan} {dbEnv : List (Json × String)}
    (checked : Checked plan) (named : ∀ entry ∈ dbEnv, envNameRe (Json.shown entry.1) = true) :
    ∃ own, environmentFile (drillEnvText tmp plan dbEnv) = own ++ dbEnv.map fun entry => (Json.shown entry.1, entry.2) := by
  let value (v : String) : List Char := expand tmp.toList (Json.numberText plan.port).toList v.toList
  let own : List (String × List Char) := plan.env.map fun entry => (entry.1, value entry.2)
  let urls : List (String × List Char) := dbEnv.map fun entry => (Json.shown entry.1, entry.2.toList)
  have each : ∀ a ∈ own ++ urls, envNameRe a.1 = true := by
    intro a among
    rcases List.mem_append.1 among with ofEnv | ofUrls
    · obtain ⟨entry, member, rfl⟩ := List.mem_map.1 ofEnv
      exact checked.env entry member
    · obtain ⟨entry, member, rfl⟩ := List.mem_map.1 ofUrls
      exact named entry member
  have text : drillEnvText tmp plan dbEnv =
      '#' :: (heading ++ '\n' :: (((own ++ urls).map fun a => envLine a.1 a.2).flatMap (· ++ ['\n']) ++ [])) := by
    simp [drillEnvText, own, urls, value, Function.comp_def]
  refine ⟨own.map fun a => (a.1, String.ofList a.2), ?_⟩
  rw [environmentFile, text, readFrom, if_pos (.inl rfl), readFrom_comment heading_plain, readFrom_lines each, readFrom,
    List.append_nil, List.map_map, List.map_append]
  simp [own, urls, Function.comp_def]

end

/-! ### What the checks leave -/

section
variable {w : String}

theorem mem_keep {databases : Table Target} {name : String} {target : Target} {entry : String × Target}
    (member : entry ∈ (keep databases name target).entries) : entry ∈ databases.entries ∨ entry.2 = target := by
  unfold keep at member
  split at member
  · exact .inl member
  · cases added : databases.add name target with
    | some larger =>
      rw [added, Option.getD_some] at member
      unfold Table.add at added
      split at added
      · cases added
      · cases added
        rcases List.mem_append.1 member with before | last
        · exact .inl before
        · rw [List.mem_singleton.1 last]
          exact .inr rfl
    | none =>
      rw [added, Option.getD_none] at member
      obtain ⟨before, isBefore, rfl⟩ := List.mem_map.1 member
      split
      · exact .inr rfl
      · exact .inl isBefore

theorem named_of_checkTarget {id : String} {dbNames : List String} {name : String} {given : Json} {target : Target}
    (accepted : checkTarget w id dbNames name given = .ok target) : ∀ name ∈ target.names, envNameRe name = true := by
  have named {value : Json} (passes : ¬ (!namesVariable (some value)) = true) : envNameRe (Json.shown value) = true := by
    simp only [namesVariable, Bool.not_eq_true', Bool.not_eq_false, Bool.and_eq_true] at passes
    exact passes.2
  unfold checkTarget at accepted
  split at accepted
  · cases accepted
  split at accepted
  · split at accepted
    · split at accepted
      · cases accepted
      split at accepted
      · cases accepted
      split at accepted
      · cases accepted
      rename_i urlNamed directNamed _
      cases accepted
      intro name among
      simp only [Target.names, List.mem_cons, List.not_mem_nil, or_false] at among
      rcases among with rfl | rfl
      · exact named urlNamed
      · exact named directNamed
    · split at accepted <;> cases accepted
    · cases accepted
  · cases accepted

theorem named_of_checkTargets {id : String} {dbNames : List String} {databases kept : Table Target}
    {given : List (String × Json)} (accepted : checkTargets w id dbNames databases given = .ok kept)
    (before : ∀ entry ∈ databases.entries, ∀ name ∈ entry.2.names, envNameRe name = true) :
    ∀ entry ∈ kept.entries, ∀ name ∈ entry.2.names, envNameRe name = true := by
  induction given generalizing databases with
  | nil =>
    cases accepted
    exact before
  | cons first rest ih =>
    obtain ⟨target, one, accepted⟩ := bind_ok.mp accepted
    refine ih accepted fun entry member => ?_
    rcases mem_keep member with old | new
    · exact before entry old
    · rw [new]
      exact named_of_checkTarget one

theorem named_of_checkEnv {k : String} {v : Json} {entry : String × String} (accepted : checkEnv w k v = .ok entry) :
    envNameRe entry.1 = true := by
  unfold checkEnv at accepted
  split at accepted
  · cases accepted
  · rename_i named
    split at accepted
    · split at accepted
      · cases accepted
      split at accepted
      · cases accepted
      cases accepted
      simpa using named
    · cases accepted

theorem named_of_checkEnvs {given : List (String × Json)} {env : List (String × String)}
    (accepted : checkEnvs w given = .ok env) : ∀ entry ∈ env, envNameRe entry.1 = true := by
  induction given generalizing env with
  | nil =>
    cases accepted
    exact fun entry member => absurd member List.not_mem_nil
  | cons first rest ih =>
    obtain ⟨entry, one, accepted⟩ := bind_ok.mp accepted
    obtain ⟨more, others, accepted⟩ := bind_ok.mp accepted
    cases accepted
    exact List.forall_mem_cons.2 ⟨named_of_checkEnv one, ih others⟩

theorem checked_of_planOf {raw : Json} {svc : Service} {port : Rat} {plan : Plan}
    (accepted : planOf w raw svc port = .ok plan) : Checked plan := by
  unfold planOf at accepted
  split at accepted
  · obtain ⟨databases, targets, accepted⟩ := bind_ok.mp accepted
    obtain ⟨env, named, accepted⟩ := bind_ok.mp accepted
    obtain ⟨_, -, accepted⟩ := bind_ok.mp accepted
    obtain ⟨_, -, accepted⟩ := bind_ok.mp accepted
    cases accepted
    exact {
      targets := named_of_checkTargets targets fun entry member => absurd member List.not_mem_nil
      env := named_of_checkEnvs named }
  · cases accepted

theorem checked_of_normaliseDrill {raw : Json} {svc : Service} {plan : Plan}
    (accepted : normaliseDrill w raw svc = .ok (some plan)) : Checked plan := by
  unfold normaliseDrill at accepted
  split at accepted
  · cases accepted
  split at accepted
  · split at accepted
    · split at accepted <;> cases accepted
    · cases accepted
  split at accepted
  · cases accepted
  split at accepted
  · cases accepted
  split at accepted
  · cases accepted
  rename_i port _ _ _
  cases made : planOf w raw svc port with
  | error e =>
    rw [made] at accepted
    cases accepted
  | ok plan' =>
    rw [made] at accepted
    cases accepted
    exact checked_of_planOf made

end

/-! ### The last assignment counts -/

theorem lastOf_mem {assignments : List (String × String)} {name value : String}
    (last : lastOf assignments name = some value) : (name, value) ∈ assignments := by
  obtain ⟨entry, found, rfl⟩ := Option.map_eq_some_iff.1 last
  have isName : entry.1 = name := by simpa using List.find?_some found
  exact isName ▸ List.mem_reverse.1 (List.mem_of_find?_eq_some found)

theorem lastOf_append {first second : List (String × String)} {name : String} (later : name ∈ second.map (·.1)) :
    ∃ value, lastOf (first ++ second) name = some value ∧ (name, value) ∈ second := by
  obtain ⟨entry, member, rfl⟩ := List.mem_map.1 later
  have found : (second.reverse.find? (·.1 = entry.1)).isSome = true :=
    List.find?_isSome.2 ⟨entry, List.mem_reverse.2 member, by simp⟩
  obtain ⟨last, isLast⟩ := Option.isSome_iff_exists.1 found
  have value : lastOf second entry.1 = some last.2 := by rw [lastOf, isLast, Option.map_some]
  refine ⟨last.2, ?_, lastOf_mem value⟩
  rw [lastOf, List.reverse_append, List.find?_append, isLast, Option.some_or, Option.map_some]

theorem shown_of_same {a b : Json} (same : a.same b = true) : Json.shown a = Json.shown b := by
  cases a <;> cases b <;> simp [Json.same] at same <;> simp [Json.shown, same]

theorem mem_assign {entries : List (Json × String)} {key : Json} {value : String} {entry : Json × String}
    (member : entry ∈ assign entries key value) :
    entry ∈ entries ∨ (Json.shown entry.1 = Json.shown key ∧ entry.2 = value) := by
  unfold assign at member
  split at member
  · obtain ⟨before, isBefore, rfl⟩ := List.mem_map.1 member
    split
    · rename_i same
      exact .inr ⟨shown_of_same same, rfl⟩
    · exact .inl isBefore
  · rcases List.mem_append.1 member with before | last
    · exact .inl before
    · rw [List.mem_singleton.1 last]
      exact .inr ⟨rfl, rfl⟩

theorem named_assign (entries : List (Json × String)) (key : Json) (value : String) :
    (∃ entry ∈ assign entries key value, Json.shown entry.1 = Json.shown key) ∧
      ∀ entry ∈ entries, ∃ kept ∈ assign entries key value, kept.1 = entry.1 := by
  unfold assign
  split
  · rename_i there
    obtain ⟨entry, member, same⟩ := List.any_eq_true.1 there
    refine ⟨⟨_, List.mem_map.2 ⟨entry, member, rfl⟩, ?_⟩, fun other isOther => ⟨_, List.mem_map.2 ⟨other, isOther, rfl⟩, ?_⟩⟩
    · rw [if_pos same]
      exact shown_of_same same
    · split <;> rfl
  · exact ⟨⟨_, List.mem_append_right _ (List.mem_singleton_self _), rfl⟩,
      fun other isOther => ⟨other, List.mem_append_left _ isOther, rfl⟩⟩

/-- Every entry of the map was set, under a name that is written in the same way. -/
theorem mem_dbEnvOf {sets : List (Json × String)} {entry : Json × String} (member : entry ∈ dbEnvOf sets) :
    ∃ set ∈ sets, Json.shown set.1 = Json.shown entry.1 ∧ set.2 = entry.2 := by
  have along (entries : List (Json × String))
      (among : entry ∈ sets.foldl (fun entries set => assign entries set.1 set.2) entries) :
      entry ∈ entries ∨ ∃ set ∈ sets, Json.shown set.1 = Json.shown entry.1 ∧ set.2 = entry.2 := by
    clear member
    induction sets generalizing entries with
    | nil => exact .inl among
    | cons set sets ih =>
      rcases ih _ among with before | ⟨later, isSet, same⟩
      · rcases mem_assign before with old | ⟨named, value⟩
        · exact .inl old
        · exact .inr ⟨set, List.mem_cons_self .., named.symm, value.symm⟩
      · exact .inr ⟨later, List.mem_cons_of_mem _ isSet, same⟩
  exact (along [] member).resolve_left List.not_mem_nil

/-- What was set is in the map. -/
theorem named_dbEnvOf {sets : List (Json × String)} {set : Json × String} (member : set ∈ sets) :
    ∃ entry ∈ dbEnvOf sets, Json.shown entry.1 = Json.shown set.1 := by
  have along (entries : List (Json × String))
      (known : set ∈ sets ∨ ∃ entry ∈ entries, Json.shown entry.1 = Json.shown set.1) :
      ∃ entry ∈ sets.foldl (fun entries set => assign entries set.1 set.2) entries,
        Json.shown entry.1 = Json.shown set.1 := by
    clear member
    induction sets generalizing entries with
    | nil => exact known.resolve_left List.not_mem_nil
    | cons first sets ih =>
      obtain ⟨here, kept⟩ := named_assign entries first.1 first.2
      refine ih _ ?_
      rcases known with among | ⟨entry, isEntry, named⟩
      · rcases List.mem_cons.1 among with rfl | later
        · exact .inr here
        · exact .inl later
      · obtain ⟨entry', isKept, same⟩ := kept entry isEntry
        exact .inr ⟨entry', isKept, same ▸ named⟩
  exact along [] (.inl member)

/-! ### The scratch copies -/

theorem encodeURIComponent_append (a b : String) :
    encodeURIComponent (a ++ b) = encodeURIComponent a ++ encodeURIComponent b := by
  simp [encodeURIComponent, String.toList_append, List.flatMap_append, String.ofList_append]

theorem encodeURIComponent_digits (n : Nat) : encodeURIComponent (toString n) = toString n := by
  have each : ∀ c ∈ (toString n).toList, unreserved c = true := by
    intro c among
    have inDigits : c ∈ Nat.toDigits 10 n := by simpa [Nat.toString_eq_repr, Nat.repr] using among
    simp [unreserved, Char.isAlphanum, Nat.isDigit_of_mem_toDigits (by decide) (by decide) inDigits]
  have same : (toString n).toList.flatMap (fun c => if unreserved c then [c] else (String.utf8EncodeChar c).flatMap hexPair) =
      (toString n).toList.flatMap fun c => [c] :=
    List.flatMap_congr fun c among => by rw [if_pos (each c among)]
  rw [encodeURIComponent, same, List.flatMap_singleton', String.ofList_toList]

theorem no_colon (text : String) : ':' ∉ (encodeURIComponent text).toList := by
  have pairs : ∀ n < 16, (Nat.digitChar n).toUpper ≠ ':' := by decide
  rw [encodeURIComponent, String.toList_ofList]
  intro among
  obtain ⟨c, -, inside⟩ := List.mem_flatMap.1 among
  split at inside
  · rename_i free
    obtain rfl := List.mem_singleton.1 inside
    exact absurd free (by decide)
  · obtain ⟨b, -, digits⟩ := List.mem_flatMap.1 inside
    simp only [hexPair, List.mem_cons, List.not_mem_nil, or_false] at digits
    rcases digits with percent | high | low
    · exact absurd percent (by decide)
    · exact pairs _ (by have := b.toNat_lt; omega) high.symm
    · exact pairs _ (Nat.mod_lt _ (by decide)) low.symm

/-- Where a text ends at a sign that is not in it, it is determined. -/
theorem before_sign {sign : Char} {a b rest rest' : List Char} (notA : sign ∉ a) (notB : sign ∉ b)
    (same : a ++ sign :: rest = b ++ sign :: rest') : a = b := by
  have cut {text more : List Char} (free : sign ∉ text) : (text ++ sign :: more).takeWhile (· ≠ sign) = text := by
    rw [List.takeWhile_append_of_pos fun c among => by simpa using ne_of_mem_of_not_mem among free]
    simp
  rw [← cut notA, same, cut notB]

theorem databaseUrl_role {s s' : Scratch} (same : databaseUrl s = databaseUrl s') :
    encodeURIComponent s.role = encodeURIComponent s'.role := by
  have shape (t : Scratch) : databaseUrl t = "postgresql://" ++ encodeURIComponent t.role ++ ":" ++
      encodeURIComponent t.password ++ "@127.0.0.1:5432/" ++ encodeURIComponent t.database := rfl
  have texts := congrArg String.toList same
  simp only [shape, String.toList_append, List.append_assoc, List.append_cancel_left_eq] at texts
  exact String.toList_inj.1 (before_sign (no_colon _) (no_colon _) texts)

section
variable {id at' : String} {plan : Plan} {passwords : Nat → String}

theorem length_scratchesOf : (scratchesOf id at' plan passwords).length = plan.databases.entries.length := by
  simp [scratchesOf]

theorem scratchFor_getElem {scratches : List Scratch} (distinct : (scratches.map (·.name)).Nodup) {i : Nat}
    (here : i < scratches.length) : scratchFor scratches scratches[i].name = some scratches[i] := by
  refine List.find?_eq_some_iff_getElem.2 ⟨by simp, i, here, rfl, fun j before => ?_⟩
  have first : j < (scratches.map (·.name)).length := by rw [List.length_map]; omega
  have second : i < (scratches.map (·.name)).length := by rw [List.length_map]; omega
  have apart : (scratches.map (·.name))[j] ≠ (scratches.map (·.name))[i] := by
    rw [Ne, distinct.getElem_inj_iff]
    omega
  simpa using apart

/-- The scratch copy of a database is the one at its place. -/
theorem scratchFor_scratchesOf {i : Nat} (here : i < plan.databases.entries.length) :
    ∃ s, scratchFor (scratchesOf id at' plan passwords) plan.databases.entries[i].1 = some s ∧
      s.role = scratchName id at' (if 1 < plan.databases.entries.length then some i else none) := by
  have names : (scratchesOf id at' plan passwords).map (·.name) = plan.databases.entries.map (·.1) :=
    List.ext_getElem (by simp [scratchesOf]) fun j _ _ => by simp [scratchesOf]
  have within : i < (scratchesOf id at' plan passwords).length := length_scratchesOf.symm ▸ here
  have found := scratchFor_getElem (names ▸ plan.databases.distinct) within
  refine ⟨(scratchesOf id at' plan passwords)[i], ?_, ?_⟩
  · rw [← found]
    simp [scratchesOf]
  · simp [scratchesOf]

/-- The scratch copies of two databases have different URLs. -/
theorem urls_apart {i j : Nat} {s s' : Scratch} (first : i < plan.databases.entries.length)
    (second : j < plan.databases.entries.length)
    (one : scratchFor (scratchesOf id at' plan passwords) plan.databases.entries[i].1 = some s)
    (other : scratchFor (scratchesOf id at' plan passwords) plan.databases.entries[j].1 = some s')
    (same : databaseUrl s = databaseUrl s') : i = j := by
  obtain ⟨_, found, role⟩ := @scratchFor_scratchesOf id at' plan passwords i first
  obtain ⟨_, found', role'⟩ := @scratchFor_scratchesOf id at' plan passwords j second
  obtain rfl := Option.some.inj (one.symm.trans found)
  obtain rfl := Option.some.inj (other.symm.trans found')
  by_contra ne
  have several : 1 < plan.databases.entries.length := by omega
  have roles := databaseUrl_role same
  rw [role, role', if_pos several, if_pos several, scratchName, scratchName] at roles
  simp only [encodeURIComponent_append, encodeURIComponent_digits, String.append_right_inj] at roles
  exact ne (Retention.repr_inj roles)

end

/-! ### The start -/

/-- What is set for the databases: the URL of its scratch copy under both variables of each. -/
theorem mem_settings {scratches : List Scratch} {entries : List (String × Target)} {set : Json × String} :
    set ∈ settings scratches entries ↔ ∃ entry ∈ entries, ∃ s, scratchFor scratches entry.1 = some s ∧
      (set.1 = entry.2.url ∨ set.1 = entry.2.directUrl) ∧ set.2 = databaseUrl s := by
  obtain ⟨key, value⟩ := set
  rw [settings, List.mem_flatMap]
  refine exists_congr fun entry => and_congr_right fun _ => ?_
  cases found : scratchFor scratches entry.1 with
  | none => simp [found]
  | some s => simp [found, ← or_and_right]

/-- Of the variables that the drill sets for the databases, systemd has the last value. -/
theorem environment_name {svc : Service} {plan : Plan} {given : Circumstances} {environment : String → Option String}
    (checked : Checked plan) (starts : instanceEnvironment svc plan given = .ok environment) {name : String}
    (isName : ∃ set ∈ settings (scratchesOf svc.id given.at' plan given.passwords) plan.databases.entries,
      Json.shown set.1 = name) :
    ∃ set ∈ settings (scratchesOf svc.id given.at' plan given.passwords) plan.databases.entries,
      Json.shown set.1 = name ∧ environment name = some set.2 := by
  have named : ∀ entry ∈ dbEnvOf (settings (scratchesOf svc.id given.at' plan given.passwords) plan.databases.entries),
      envNameRe (Json.shown entry.1) = true := by
    intro entry member
    obtain ⟨set, isSet, same, -⟩ := mem_dbEnvOf member
    obtain ⟨database, isDatabase, _, -, variable', -⟩ := mem_settings.1 isSet
    refine checked.targets database isDatabase _ ?_
    rw [← same]
    rcases variable' with url | directUrl
    · simp [Target.names, url]
    · simp [Target.names, directUrl]
  obtain ⟨-, -, starts⟩ := bind_ok.mp starts
  obtain ⟨own, file⟩ := @environmentFile_drillEnvText given.tmp _ _ checked named
  obtain ⟨set, isSet, rfl⟩ := isName
  obtain ⟨entry, member, same⟩ := named_dbEnvOf isSet
  have isLater : Json.shown set.1 ∈ ((dbEnvOf (settings (scratchesOf svc.id given.at' plan given.passwords)
      plan.databases.entries)).map fun entry => (Json.shown entry.1, entry.2)).map (·.1) :=
    List.mem_map.2 ⟨_, List.mem_map.2 ⟨entry, member, rfl⟩, same⟩
  obtain ⟨value, last, among⟩ := lastOf_append isLater
  obtain ⟨entry', member', isEntry⟩ := List.mem_map.1 among
  obtain ⟨set', isSet', same', value'⟩ := mem_dbEnvOf member'
  obtain ⟨shown, isValue⟩ := Prod.mk.inj isEntry
  refine ⟨set', isSet', same'.trans shown, ?_⟩
  rw [← Except.ok.inj starts, file, ← List.append_assoc, value', isValue]
  exact last

/-- The variables of every database name its own scratch copy just when no two databases share one. -/
theorem namesOwn_iff {svc : Service} {plan : Plan} {given : Circumstances} {environment : String → Option String}
    (checked : Checked plan) (starts : instanceEnvironment svc plan given = .ok environment) :
    NamesOwn (scratchesOf svc.id given.at' plan given.passwords) plan environment ↔ Apart plan := by
  constructor
  · intro own
    refine List.pairwise_iff_getElem.2 fun i j first second before name shared also => ?_
    obtain ⟨s, isScratch, value⟩ := own _ (List.getElem_mem first) name shared
    obtain ⟨s', isScratch', value'⟩ := own _ (List.getElem_mem second) name also
    exact absurd (urls_apart first second isScratch isScratch' (Option.some.inj (value.symm.trans value'))) before.ne
  · intro apart entry member name among
    obtain ⟨i, here, rfl⟩ := List.getElem_of_mem member
    obtain ⟨s, isScratch, -⟩ := @scratchFor_scratchesOf svc.id given.at' plan given.passwords i here
    have isSet : ∃ set ∈ settings (scratchesOf svc.id given.at' plan given.passwords) plan.databases.entries,
        Json.shown set.1 = name := by
      simp only [Target.names, List.mem_cons, List.not_mem_nil, or_false] at among
      rcases among with rfl | rfl
      · exact ⟨(_, _), mem_settings.2 ⟨_, member, s, isScratch, .inl rfl, rfl⟩, rfl⟩
      · exact ⟨(_, _), mem_settings.2 ⟨_, member, s, isScratch, .inr rfl, rfl⟩, rfl⟩
    obtain ⟨set, isSet, isName, value⟩ := environment_name checked starts isSet
    obtain ⟨other, isOther, s', isScratch', variable', isUrl⟩ := mem_settings.1 isSet
    have otherNames : name ∈ other.2.names := by
      rcases variable' with url | directUrl
      · simp [Target.names, ← isName, url]
      · simp [Target.names, ← isName, directUrl]
    obtain ⟨j, there, rfl⟩ := List.getElem_of_mem isOther
    have free := List.pairwise_iff_getElem.1 apart
    rcases Nat.lt_trichotomy i j with before | rfl | after
    · exact absurd otherNames (free i j here there before name among)
    · exact ⟨s', isScratch', by rw [value, isUrl]⟩
    · exact absurd among (free j i there here after name otherNames)

/-- With the drill of an accepted inventory, the instance has the scratch copy of each database under the variables of
that database just when no two databases share a variable. -/
theorem restored_apart_iff {w : String} {raw : Json} {svc : Service} {plan : Plan} {given : Circumstances}
    {environment : String → Option String} (accepted : normaliseDrill w raw svc = .ok (some plan))
    (starts : instanceEnvironment svc plan given = .ok environment) :
    NamesOwn (scratchesOf svc.id given.at' plan given.passwords) plan environment ↔ Apart plan :=
  namesOwn_iff (checked_of_normaliseDrill accepted) starts

/-! ### A service with two databases -/

def trade : Service where
  id := "trade"
  repo := "/opt/trade"
  owner := "trade"
  runAs := "trade"
  units := ["trade.service"]
  port := some 3100
  databases := [{ name := "main", database := "ov_trade" }, { name := "jobs", database := "ov_trade_jobs" }]
  unit_service := by decide
  socket_socket := Service.no_socket
  auxiliary_apart := by simp
  workers_service := Service.no_unit
  workers_apart := by simp
  auxiliary_no_worker := Service.no_auxiliary_worker
  sources_apart := Service.no_source
  sources_named := Service.no_source_named
  laid_out := Service.no_layout

/-- A drill block for it, with the url variable of the second database. -/
def tradeDrill (url : String) : Json :=
  .obj [("port", .num 4100),
    ("databases", .obj [("main", .obj [("url", .str "DATABASE_URL"), ("directUrl", .str "DIRECT_URL")]),
      ("jobs", .obj [("url", .str url), ("directUrl", .str "JOBS_DIRECT_URL")])]),
    ("env", .obj [("PORT", .str "\x7bport\x7d"), ("VALKEY_URL", .str "redis://127.0.0.1:6379/9")]),
    ("counts", .arr [.obj [("db", .str "main"), ("table", .str "orders")]])]

def tradePlan (url : String) : Plan where
  port := 4100
  databases :=
    { entries := [("main", { url := .str "DATABASE_URL", directUrl := .str "DIRECT_URL" }),
        ("jobs", { url := .str url, directUrl := .str "JOBS_DIRECT_URL" })]
      distinct := by simp }
  env := [("PORT", "\x7bport\x7d"), ("VALKEY_URL", "redis://127.0.0.1:6379/9")]

def someDay : Circumstances where
  at' := "20260101-010000"
  tmp := "/var/tmp/ovhost-drill/trade-20260101-010000"
  passwords i := if i = 0 then "1f" else "2e"
  unitEnvironment := []
  envFile := none

theorem trade_accepted : normaliseDrill "services[0].drill" (tradeDrill "DATABASE_URL") trade =
      .ok (some (tradePlan "DATABASE_URL")) ∧
    normaliseDrill "services[0].drill" (tradeDrill "JOBS_URL") trade = .ok (some (tradePlan "JOBS_URL")) :=
  ⟨rfl, rfl⟩

theorem trade_starts {url : String} (named : url ≠ "") :
    ∃ environment, instanceEnvironment trade (tradePlan url) someDay = .ok environment := by
  have passes : checkOverrides trade (tradePlan url) = .ok () := by
    simp [checkOverrides, tradePlan, trade, Table.get, Json.truthy, named]
    rfl
  simp [instanceEnvironment, passes, bind, Except.bind]

/-- Each with its own variables, both have their own copy. -/
theorem own_variables_own_copies : ∃ environment,
    instanceEnvironment trade (tradePlan "JOBS_URL") someDay = .ok environment ∧
      NamesOwn (scratchesOf "trade" someDay.at' (tradePlan "JOBS_URL") someDay.passwords) (tradePlan "JOBS_URL")
        environment := by
  obtain ⟨environment, starts⟩ := @trade_starts "JOBS_URL" (by decide)
  exact ⟨environment, starts, (restored_apart_iff trade_accepted.2 starts).2 (by decide)⟩

/-- The check accepts two databases with one url variable, and the first then names the copy of the second. -/
theorem shared_variable_misleads :
    ¬ ∀ (w : String) (raw : Json) (svc : Service) (plan : Plan) (given : Circumstances)
        (environment : String → Option String), normaliseDrill w raw svc = .ok (some plan) →
      instanceEnvironment svc plan given = .ok environment →
      NamesOwn (scratchesOf svc.id given.at' plan given.passwords) plan environment := by
  intro always
  obtain ⟨environment, starts⟩ := @trade_starts "DATABASE_URL" (by decide)
  have own := always _ _ _ _ _ _ trade_accepted.1 starts
  have apart := (namesOwn_iff (checked_of_normaliseDrill trade_accepted.1) starts).1 own
  exact absurd apart (by decide)

end OpenVibeHost.Drill
