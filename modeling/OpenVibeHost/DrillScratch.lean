import OpenVibeHost.Backup
import OpenVibeHost.Runs

/-! The scratch databases and roles of restore drills, `lib/dbengine.js` and the sweep of
`lib/commands/drill.js`: a drill first drops what earlier drills of the service left, which it finds
by the beginning of the name. -/
namespace OpenVibeHost.Drill
open Effects Program Backup

/-! ### Names -/

def scratchIdChar (c : Char) : Char :=
  if ('a' ≤ c ∧ c ≤ 'z') ∨ ('0' ≤ c ∧ c ≤ '9') ∨ c = '_' then c else '_'

/-- `id.replace(/[^a-z0-9_]/g, '_')`. -/
def scratchId (id : String) : String := String.ofList (id.toList.map scratchIdChar)

/-- What the names of a service's scratch databases and roles begin with. -/
def scratchPrefix (id : String) : String := "ov_" ++ scratchId id ++ "_drill_"

/-- The scratch name of a drill that began at `at'`; a drill with several databases numbers them. -/
def scratchName (id at' : String) (index : Option Nat) : String :=
  scratchPrefix id ++ at' ++ (match index with
    | some i => "_" ++ toString i
    | none => "")

/-! ### The cluster's commands -/

def ident (name : String) : String :=
  "\"" ++ String.ofList (name.toList.flatMap fun c => if c = '"' then ['"', '"'] else [c]) ++ "\""

def literal (value : String) : String :=
  "'" ++ String.ofList (value.toList.flatMap fun c => if c = '\'' then ['\'', '\''] else [c]) ++ "'"

/-- `psql` on standard input, as `createRole` and `dropRole` call it. -/
def psqlInput (sql : String) : Machine.Call :=
  .run "psql" ["-X", "-q", "-v", "ON_ERROR_STOP=1", "-d", "postgres", "-f", "-"]
    { asUser := some pgUser, input := some sql }

def createRoleCall (role password : String) : Machine.Call :=
  psqlInput ("CREATE ROLE " ++ ident role ++ " LOGIN PASSWORD " ++ literal password ++ ";\n")

/-- `createRole`; it answers the password. -/
def createRole (role : String) : Exec String := do
  let password ← ask (S := Machine) .randomId fun answer => answer
  let r ← ask (S := Machine) (createRoleCall role password) fun answer => answer
  if r.code ≠ 0 then throw (.plain ("creating role " ++ role ++ " failed: " ++ scrubbed r))
  else return password

def createDatabaseCall (database owner : String) : Machine.Call :=
  .run "createdb" ["-w", "--owner=" ++ owner, database] { asUser := some pgUser }

def createDatabase (database owner : String) : Exec Unit := do
  let r ← ask (S := Machine) (createDatabaseCall database owner) fun answer => answer
  if r.code ≠ 0 then throw (.plain ("createdb " ++ database ++ " failed: " ++ scrubbed r))
  else pure ()

def dropDatabaseCall (database : String) : Machine.Call :=
  .run "dropdb" ["-w", "--if-exists", "--force", database] { asUser := some pgUser }

def dropDatabase (database : String) : Exec Unit := do
  let r ← ask (S := Machine) (dropDatabaseCall database) fun answer => answer
  if r.code ≠ 0 then throw (.plain ("dropdb " ++ database ++ " failed: " ++ scrubbed r))
  else pure ()

def dropRoleCall (role : String) : Machine.Call := psqlInput ("DROP ROLE IF EXISTS " ++ ident role ++ ";\n")

def dropRole (role : String) : Exec Unit := do
  let r ← ask (S := Machine) (dropRoleCall role) fun answer => answer
  if r.code ≠ 0 then throw (.plain ("dropping role " ++ role ++ " failed: " ++ scrubbed r))
  else pure ()

/-! ### The sweep -/

def databasesSql (pre : String) : String :=
  "SELECT datname AS name FROM pg_database WHERE left(datname, length(" ++ literal pre ++ ")) = " ++ literal pre

def rolesSql (pre : String) : String :=
  "SELECT rolname AS name FROM pg_roles WHERE left(rolname, length(" ++ literal pre ++ ")) = " ++ literal pre

/-- The names of some rows that begin so. -/
def namesIn (pre : String) (rows : List (List (String × Option String))) : List String :=
  (rows.filterMap fun row => (row.find? (·.1 = "name")).bind (·.2)).filter (beginsWith · pre)

structure Leftovers where
  databases : List String
  roles : List String
  deriving DecidableEq, Repr

/-- `scratchLeftovers`. -/
def scratchLeftovers (pre : String) : Exec Leftovers := do
  let databases ← Exec.psql "postgres" (databasesSql pre)
  let roles ← Exec.psql "postgres" (rolesSql pre)
  return { databases := namesIn pre databases, roles := namesIn pre roles }

/-- The sweep at the start of a drill. -/
def sweep (id : String) : Exec Unit := do
  let left ← scratchLeftovers (scratchPrefix id)
  forEach left.databases dropDatabase
  forEach left.roles dropRole

/-! ### What a sweep drops -/

/-- Where a database or a role of the cluster comes from. -/
inductive Origin where
  /-- A service declares it as its own. -/
  | declared (service : String)
  /-- A drill of the service made it as its scratch. -/
  | drill (service : String)
  | other
  deriving DecidableEq, Repr

/-- The databases and roles of a cluster, each with where it comes from. What a service of the inventory declares
as its database is that. -/
structure Cluster (inv : Inventory) where
  databases : List (String × Origin)
  roles : List (String × Origin)
  declared : ∀ svc ∈ inv.services, ∀ db ∈ svc.databases, ∀ origin, (db.database, origin) ∈ databases →
    ∃ service, origin = .declared service
  databases_apart : (databases.map (·.1)).Nodup
  roles_apart : (roles.map (·.1)).Nodup

/-- The names that begin so. -/
def under (pre : String) (names : List (String × Origin)) : List String :=
  (names.map (·.1)).filter (beginsWith · pre)

/-- The rows of a query for the names that begin so. -/
def rowsOf (pre : String) (names : List (String × Origin)) : List (List (String × Option String)) :=
  (under pre names).map fun name => [("name", some name)]

variable {inv : Inventory}

/-- The queries of a sweep are answered from the cluster. -/
structure Serves (env : Environment Machine) (cluster : Cluster inv) (id : String) : Prop where
  databases : ∀ past rows, env.answer past (.psql "postgres" (databasesSql (scratchPrefix id))) = .ok rows →
    rows = rowsOf (scratchPrefix id) cluster.databases
  roles : ∀ past rows, env.answer past (.psql "postgres" (rolesSql (scratchPrefix id))) = .ok rows →
    rows = rowsOf (scratchPrefix id) cluster.roles

/-- Only scratch of the service's own drills is dropped, no database that a service declares, and nothing that a
drill of another service made. -/
structure DropsOwn (id : String) (cluster : Cluster inv) (events : List (Event Machine)) : Prop where
  databases : ∀ event ∈ events, ∀ name, event.call = dropDatabaseCall name → (name, .drill id) ∈ cluster.databases
  roles : ∀ event ∈ events, ∀ name, event.call = dropRoleCall name → (name, .drill id) ∈ cluster.roles
  undeclared : ∀ event ∈ events, ∀ name, event.call = dropDatabaseCall name →
    ∀ svc ∈ inv.services, ∀ db ∈ svc.databases, db.database ≠ name
  databases_of_others : ∀ event ∈ events, ∀ name, event.call = dropDatabaseCall name →
    ∀ other, (name, .drill other) ∈ cluster.databases → other = id
  roles_of_others : ∀ event ∈ events, ∀ name, event.call = dropRoleCall name →
    ∀ other, (name, .drill other) ∈ cluster.roles → other = id

/-- Every name that begins as the scratch names of the service do is one. -/
def KeptApart (id : String) (names : List (String × Origin)) : Prop :=
  ∀ entry ∈ names, beginsWith entry.1 (scratchPrefix id) = true → entry.2 = .drill id

theorem namesIn_rowsOf (pre : String) (names : List (String × Origin)) :
    namesIn pre (rowsOf pre names) = under pre names := by
  have read : (rowsOf pre names).filterMap (fun row => (row.find? (·.1 = "name")).bind (·.2)) = under pre names := by
    simp [rowsOf, List.filterMap_map, Function.comp_def]
  rw [namesIn, read]
  simp [under]

/-- The calls of a sweep that drops these. -/
def sweepCalls (left : Leftovers) (call : Machine.Call) : Prop :=
  (∃ sql, call = .psql "postgres" sql) ∨ (∃ name ∈ left.databases, call = dropDatabaseCall name) ∨
    ∃ name ∈ left.roles, call = dropRoleCall name

/-- The names of the cluster that a sweep finds. -/
def found (id : String) (cluster : Cluster inv) : Leftovers where
  databases := under (scratchPrefix id) cluster.databases
  roles := under (scratchPrefix id) cluster.roles

section
variable {env : Environment Machine} {base : List (Event Machine)} {cluster : Cluster inv} {id : String}

/-- Only the calls of such a sweep. -/
def Sweeping (id : String) (cluster : Cluster inv) (more : List (Event Machine)) : Prop :=
  ∀ event ∈ more, sweepCalls (found id cluster) event.call

theorem Sweeping.snoc {more : List (Event Machine)} {event : Event Machine} (sweeping : Sweeping id cluster more)
    (call : sweepCalls (found id cluster) event.call) : Sweeping id cluster (more ++ [event]) := by
  intro each member
  rcases List.mem_append.mp member with before | last
  · exact sweeping each before
  · exact List.mem_singleton.mp last ▸ call

theorem meets_names {sql pre : String} {names : List (String × Origin)}
    (answers : ∀ past rows, env.answer past (.psql "postgres" sql) = .ok rows → rows = rowsOf pre names) :
    Meets env (Since base fun more _ => Sweeping id cluster more) (Exec.psql "postgres" sql)
      (fun rows => Since base fun more _ => Sweeping id cluster more ∧ namesIn pre rows = under pre names)
      (fun _ => Since base fun more _ => Sweeping id cluster more) := by
  unfold Exec.psql Exec.orReject
  refine meets_since_answer_then fun past clock => ?_
  cases answered : env.answer past (.psql "postgres" sql) with
  | ok rows =>
    refine meets_ret fun _ since => since.mono fun _ _ ⟨before, split, now⟩ => ⟨split ▸ now.snoc (.inl ⟨sql, rfl⟩), ?_⟩
    rw [answers past rows answered, namesIn_rowsOf]
  | error message =>
    exact meets_throw fun _ since => since.mono fun _ _ ⟨before, split, now⟩ => split ▸ now.snoc (.inl ⟨sql, rfl⟩)

theorem meets_dropDatabase {name : String} (member : name ∈ (found id cluster).databases) :
    Meets env (Since base fun more _ => Sweeping id cluster more) (dropDatabase name)
      (fun _ => Since base fun more _ => Sweeping id cluster more)
      (fun _ => Since base fun more _ => Sweeping id cluster more) := by
  unfold dropDatabase
  refine meets_since_ask_then fun r clock => ?_
  have dropped : ∀ w : World Machine Unit, Since base (fun more _ => ∃ before, more = before ++
      [⟨dropDatabaseCall name, r, clock⟩] ∧ Sweeping id cluster before) w →
      Since base (fun more _ => Sweeping id cluster more) w := fun _ since =>
    since.mono fun _ _ ⟨before, split, now⟩ => split ▸ now.snoc (.inr (.inl ⟨name, member, rfl⟩))
  exact meets_ite (fun _ => meets_throw dropped) fun _ => meets_pure dropped

theorem meets_dropRole {name : String} (member : name ∈ (found id cluster).roles) :
    Meets env (Since base fun more _ => Sweeping id cluster more) (dropRole name)
      (fun _ => Since base fun more _ => Sweeping id cluster more)
      (fun _ => Since base fun more _ => Sweeping id cluster more) := by
  unfold dropRole
  refine meets_since_ask_then fun r clock => ?_
  have dropped : ∀ w : World Machine Unit, Since base (fun more _ => ∃ before, more = before ++
      [⟨dropRoleCall name, r, clock⟩] ∧ Sweeping id cluster before) w →
      Since base (fun more _ => Sweeping id cluster more) w := fun _ since =>
    since.mono fun _ _ ⟨before, split, now⟩ => split ▸ now.snoc (.inr (.inr ⟨name, member, rfl⟩))
  exact meets_ite (fun _ => meets_throw dropped) fun _ => meets_pure dropped

/-- Only what the cluster has under the prefix is dropped. -/
theorem meets_sweep (serves : Serves env cluster id) :
    Meets env (Since base fun more _ => Sweeping id cluster more) (sweep id)
      (fun _ => Since base fun more _ => Sweeping id cluster more)
      (fun _ => Since base fun more _ => Sweeping id cluster more) := by
  unfold sweep scratchLeftovers
  refine meets_bind (M := fun left => Since base fun more _ => Sweeping id cluster more ∧ left = found id cluster)
    ?_ fun left => meets_given (fun _ ⟨_, _, now⟩ => now.2) fun isFound => ?_
  · refine meets_bind (meets_names serves.databases) fun databases => ?_
    refine meets_given (fun _ ⟨_, _, now⟩ => now.2) fun read => ?_
    refine meets_bind ((meets_names serves.roles).weaken (fun _ since => since.mono fun _ _ now => now.1)
      (fun _ _ h => h) fun _ _ h => h) fun roles => ?_
    refine meets_pure fun _ since => since.mono fun _ _ now => ⟨now.1, ?_⟩
    rw [read, now.2]
    rfl
  · subst isFound
    refine (meets_bind (meets_forEach fun name member => meets_dropDatabase member) fun _ =>
      meets_forEach fun name member => meets_dropRole member).weaken (fun _ since => since.mono fun _ _ now => now.1)
      (fun _ _ h => h) fun _ _ h => h

/-! ### A cluster where every drop succeeds -/

theorem sql_ne (pre : String) : rolesSql pre ≠ databasesSql pre := by
  intro same
  have lengths := congrArg String.length same
  have roles : "SELECT rolname AS name FROM pg_roles WHERE left(rolname, length(".length = 64 := by decide +kernel
  have databases : "SELECT datname AS name FROM pg_database WHERE left(datname, length(".length = 67 := by
    decide +kernel
  unfold rolesSql databasesSql at lengths
  rw [String.length_append, String.length_append, String.length_append, String.length_append, String.length_append,
    String.length_append, roles, databases] at lengths
  generalize (literal pre).length = quoted at lengths
  generalize ")) = ".length = rest at lengths
  omega

/-- The queries are answered from the cluster, and every drop succeeds. -/
structure Complies (env : Environment Machine) (cluster : Cluster inv) (id : String) : Prop where
  databases : ∀ past, env.answer past (.psql "postgres" (databasesSql (scratchPrefix id))) =
    .ok (rowsOf (scratchPrefix id) cluster.databases)
  roles : ∀ past, env.answer past (.psql "postgres" (rolesSql (scratchPrefix id))) =
    .ok (rowsOf (scratchPrefix id) cluster.roles)
  drops : ∀ past name (r : RunResult), env.answer past (dropDatabaseCall name) = r → r.code = 0
  dropsRole : ∀ past name (r : RunResult), env.answer past (dropRoleCall name) = r → r.code = 0

theorem Complies.serves {cluster : Cluster inv} (complies : Complies env cluster id) : Serves env cluster id where
  databases past _ answered := (Except.ok.inj ((complies.databases past).symm.trans answered)).symm
  roles past _ answered := (Except.ok.inj ((complies.roles past).symm.trans answered)).symm

/-- A call was made. -/
def Called (call : Machine.Call) (more : List (Event Machine)) : Prop := ∃ event ∈ more, event.call = call

theorem Called.snoc {call : Machine.Call} {more : List (Event Machine)} (event : Event Machine)
    (called : Called call more) : Called call (more ++ [event]) :=
  let ⟨e, member, is⟩ := called
  ⟨e, List.mem_append_left _ member, is⟩

/-- A loop that makes a call for each item, none of which fails. -/
theorem meets_each_called {names : List String} {drop : String → Exec Unit} (call : String → Machine.Call)
    {K : List (Event Machine) → Prop} (grows : ∀ more event, K more → K (more ++ [event]))
    (drops : ∀ name, ∀ H : List (Event Machine) → Prop, Meets env (Since base fun more _ => H more) (drop name)
      (fun _ => Since base fun more _ => ∃ before event, more = before ++ [event] ∧ event.call = call name ∧ H before)
      (fun _ _ => False)) :
    Meets env (Since base fun more _ => K more) (forEach names drop)
      (fun _ => Since base fun more _ => K more ∧ ∀ name ∈ names, Called (call name) more) (fun _ _ => False) := by
  refine (meets_forEach_upto (I := fun done => Since base fun more _ => K more ∧ ∀ name ∈ done, Called (call name) more)
    fun done name _ => ?_).weaken (fun _ since => since.mono fun _ _ now => ⟨now, nofun⟩) (fun _ _ h => h) fun _ _ h => h
  refine (drops name fun more => K more ∧ ∀ name ∈ done, Called (call name) more).weaken (fun _ h => h)
    (fun _ _ since => since.mono fun more _ ⟨before, event, split, is, now⟩ => ?_) fun _ _ h => h
  subst split
  refine ⟨grows _ _ now.1, fun later member => ?_⟩
  rcases List.mem_append.mp member with earlier | last
  · exact (now.2 later earlier).snoc event
  · obtain rfl := List.mem_singleton.mp last
    exact ⟨event, by simp, is⟩

/-- What follows a command that succeeded. -/
theorem meets_succeeded {e : Failure} {r : RunResult} (succeeded : r.code = 0) {pre : World Machine Unit → Prop} :
    Meets env pre (if r.code ≠ 0 then Program.throw e else pure () : Exec Unit) (fun _ => pre) (fun _ _ => False) :=
  meets_ite (fun failed => absurd succeeded failed) fun _ => meets_pure fun _ h => h

/-- Everything that the cluster has under the prefix is dropped. -/
theorem meets_sweep_all (complies : Complies env cluster id) :
    Meets env (Since base fun _ _ => True) (sweep id)
      (fun _ => Since base fun more _ => (∀ name ∈ (found id cluster).databases, Called (dropDatabaseCall name) more) ∧
        ∀ name ∈ (found id cluster).roles, Called (dropRoleCall name) more) (fun _ _ => False) := by
  have query {sql : String} {names : List (String × Origin)}
      (answered : ∀ past, env.answer past (.psql "postgres" sql) = .ok (rowsOf (scratchPrefix id) names)) :
      Meets env (Since base fun _ _ => True) (Exec.psql "postgres" sql)
        (fun rows => Since base fun _ _ => namesIn (scratchPrefix id) rows = under (scratchPrefix id) names)
        (fun _ _ => False) := by
    unfold Exec.psql Exec.orReject
    refine meets_since_answer_then fun past clock => ?_
    rw [answered]
    exact meets_ret fun _ since => since.mono fun _ _ _ => namesIn_rowsOf _ _
  unfold sweep scratchLeftovers
  refine meets_bind (M := fun left => Since base fun _ _ => left = found id cluster)
    ?_ fun left => meets_given (fun _ ⟨_, _, now⟩ => now) fun isFound => ?_
  · refine meets_bind (query complies.databases) fun first => meets_given (fun _ ⟨_, _, now⟩ => now) fun isFirst => ?_
    refine meets_bind ((query complies.roles).weaken (fun _ since => since.onward) (fun _ _ h => h) fun _ _ h => h)
      fun second => ?_
    refine meets_pure fun _ since => since.mono fun _ _ isSecond => ?_
    rw [isFirst, isSecond]
    rfl
  · subst isFound
    refine meets_bind ((meets_each_called (K := fun _ => True) dropDatabaseCall (fun _ _ h => h)
      fun name H => ?_).weaken (fun _ since => since.onward) (fun _ _ h => h) fun _ _ h => h) fun _ => ?_
    · unfold dropDatabase
      refine meets_since_answer_then fun past clock => ?_
      exact (meets_succeeded (complies.drops past name _ rfl)).weaken (fun _ since => since.mono
        fun _ _ ⟨before, split, now⟩ => ⟨before, _, split, rfl, now⟩) (fun _ _ h => h) fun _ _ h => h
    · refine (meets_each_called dropRoleCall
        (fun more event now name member => (now name member).snoc event) fun name H => ?_).weaken
        (fun _ since => since.mono fun _ _ now => now.2) (fun _ _ h => h) fun _ _ h => h
      unfold dropRole
      refine meets_since_answer_then fun past clock => ?_
      exact (meets_succeeded (complies.dropsRole past name _ rfl)).weaken (fun _ since => since.mono
        fun _ _ ⟨before, split, now⟩ => ⟨before, _, split, rfl, now⟩) (fun _ _ h => h) fun _ _ h => h

end

/-- The queries are answered from the cluster, and every command succeeds. -/
def serving (cluster : Cluster inv) (id : String) : Environment Machine where
  takes _ _ := 0
  answer _
    | .psql _ sql => .ok (rowsOf (scratchPrefix id)
        (if sql = databasesSql (scratchPrefix id) then cluster.databases else cluster.roles))
    | other => steady other

theorem serving_complies (cluster : Cluster inv) (id : String) : Complies (serving cluster id) cluster id where
  databases _ := congrArg _ (congrArg _ (if_pos rfl))
  roles _ := congrArg _ (congrArg _ (if_neg (sql_ne _)))
  drops _ _ _ answered := answered ▸ rfl
  dropsRole _ _ _ answered := answered ▸ rfl

/-! ### When a sweep keeps to its own -/

theorem quoted_injective {chars chars' : List Char}
    (same : chars.flatMap (fun c => if c = '"' then ['"', '"'] else [c]) =
      chars'.flatMap fun c => if c = '"' then ['"', '"'] else [c]) : chars = chars' := by
  induction chars generalizing chars' with
  | nil =>
    cases chars' with
    | nil => rfl
    | cons c rest =>
      by_cases quote : c = '"' <;> simp [quote] at same
  | cons c rest ih =>
    cases chars' with
    | nil => by_cases quote : c = '"' <;> simp [quote] at same
    | cons c' rest' =>
      by_cases quote : c = '"'
      · by_cases quote' : c' = '"'
        · simp only [List.flatMap_cons, quote, quote', if_true, List.cons_append, List.nil_append, List.cons.injEq,
            true_and] at same
          rw [quote, quote', ih same]
        · simp only [List.flatMap_cons, quote, quote', if_true, if_false, List.cons_append, List.nil_append,
            List.cons.injEq] at same
          exact absurd same.1.symm quote'
      · by_cases quote' : c' = '"'
        · simp only [List.flatMap_cons, quote, quote', if_true, if_false, List.cons_append, List.nil_append,
            List.cons.injEq] at same
          exact same.1.elim
        · simp only [List.flatMap_cons, quote, quote', if_false, List.cons_append, List.nil_append,
            List.cons.injEq] at same
          rw [same.1, ih same.2]

theorem ident_injective {name name' : String} (same : ident name = ident name') : name = name' := by
  have chars := congrArg String.toList same
  simp only [ident, String.toList_append, String.toList_ofList] at chars
  have inner := List.append_cancel_right chars
  exact String.toList_injective (quoted_injective (List.append_cancel_left inner))

theorem dropDatabaseCall_injective {name name' : String} (same : dropDatabaseCall name = dropDatabaseCall name') :
    name = name' := by
  obtain ⟨-, args, -⟩ := Call.run.inj same
  simpa using args

theorem dropRoleCall_injective {name name' : String} (same : dropRoleCall name = dropRoleCall name') : name = name' := by
  have input : "DROP ROLE IF EXISTS " ++ ident name ++ ";\n" = "DROP ROLE IF EXISTS " ++ ident name' ++ ";\n" := by
    obtain ⟨-, -, options⟩ := Call.run.inj same
    exact Option.some.inj (congrArg RunOptions.input options)
  have chars := congrArg String.toList input
  rw [String.toList_append, String.toList_append, String.toList_append, String.toList_append] at chars
  have named := List.append_cancel_left (List.append_cancel_right chars)
  exact ident_injective (String.toList_injective named)

theorem drops_ne (database role : String) : dropDatabaseCall database ≠ dropRoleCall role := by
  intro same
  obtain ⟨wrong, -⟩ := Call.run.inj same
  exact absurd wrong (by decide)

theorem mem_under {pre name : String} {names : List (String × Origin)} :
    name ∈ under pre names ↔ beginsWith name pre = true ∧ ∃ origin, (name, origin) ∈ names := by
  simp [under, and_comm]

/-- A name has one origin. -/
theorem origin_unique {names : List (String × Origin)} (apart : (names.map (·.1)).Nodup) {name : String}
    {origin origin' : Origin} (here : (name, origin) ∈ names) (there : (name, origin') ∈ names) : origin = origin' :=
  (Prod.mk.inj (List.inj_on_of_nodup_map apart here there rfl)).2

/-- What a sweep drops as a database is under the prefix. -/
theorem Sweeping.database {cluster : Cluster inv} {id name : String} {more : List (Event Machine)}
    (sweeping : Sweeping id cluster more) {event : Event Machine} (member : event ∈ more)
    (dropped : event.call = dropDatabaseCall name) : name ∈ (found id cluster).databases := by
  rcases sweeping event member with ⟨sql, asked⟩ | ⟨name', under, call⟩ | ⟨role, under, call⟩
  · rw [dropped] at asked
    exact nomatch asked
  · exact dropDatabaseCall_injective (dropped.symm.trans call) ▸ under
  · exact absurd (dropped.symm.trans call) (drops_ne _ _)

theorem Sweeping.role {cluster : Cluster inv} {id name : String} {more : List (Event Machine)}
    (sweeping : Sweeping id cluster more) {event : Event Machine} (member : event ∈ more)
    (dropped : event.call = dropRoleCall name) : name ∈ (found id cluster).roles := by
  rcases sweeping event member with ⟨sql, asked⟩ | ⟨database, under, call⟩ | ⟨name', under, call⟩
  · rw [dropped] at asked
    exact nomatch asked
  · exact absurd (call.symm.trans dropped) (drops_ne _ _)
  · exact dropRoleCall_injective (dropped.symm.trans call) ▸ under

theorem KeptApart.own {names : List (String × Origin)} {id name : String} (kept : KeptApart id names)
    (under' : name ∈ under (scratchPrefix id) names) : (name, .drill id) ∈ names := by
  obtain ⟨begins, origin, member⟩ := mem_under.mp under'
  obtain rfl : origin = .drill id := kept (name, origin) member begins
  exact member

theorem sweep_drops {env : Environment Machine} {cluster : Cluster inv} {id : String}
    (complies : Complies env cluster id) (w : World Machine Unit) :
    ∃ events, (Program.run (sweep id) env w).2.trace = w.trace ++ events ∧
      (∀ name ∈ (found id cluster).databases, Called (dropDatabaseCall name) events) ∧
      ∀ name ∈ (found id cluster).roles, Called (dropRoleCall name) events := by
  have ended := meets_sweep_all complies w ⟨[], (List.append_nil _).symm, trivial⟩
  cases ran : Program.run (sweep id) env w with
  | mk result next =>
    rw [ran] at ended
    cases result with
    | ok done => exact ended
    | error e => exact ended.elim

/-- Every sweep of a service's drills drops nothing but the service's own scratch exactly when every database and
role of the cluster that begins as the service's scratch names do is one. -/
theorem sweeps_own_iff (inv : Inventory) (id : String) (cluster : Cluster inv) :
    (∀ (env : Environment Machine) (w : World Machine Unit) (events : List (Event Machine)), Serves env cluster id →
      (Program.run (sweep id) env w).2.trace = w.trace ++ events → DropsOwn id cluster events) ↔
      KeptApart id cluster.databases ∧ KeptApart id cluster.roles := by
  constructor
  · intro own
    have complies := serving_complies cluster id
    obtain ⟨events, trace, databases, roles⟩ := sweep_drops complies ⟨(), 0, []⟩
    have drops := own (serving cluster id) ⟨(), 0, []⟩ events complies.serves trace
    refine ⟨fun entry member begins => ?_, fun entry member begins => ?_⟩
    · obtain ⟨event, among, call⟩ := databases entry.1 (mem_under.mpr ⟨begins, entry.2, member⟩)
      exact origin_unique cluster.databases_apart member (drops.databases event among entry.1 call)
    · obtain ⟨event, among, call⟩ := roles entry.1 (mem_under.mpr ⟨begins, entry.2, member⟩)
      exact origin_unique cluster.roles_apart member (drops.roles event among entry.1 call)
  · rintro ⟨keptDatabases, keptRoles⟩ env w events serves trace
    have ended : Ends (fun _ => Since w.trace fun more _ => Sweeping id cluster more) _ (Program.run (sweep id) env w) :=
      meets_sweep serves w ⟨[], (List.append_nil _).symm, nofun⟩
    have sweeping : Sweeping id cluster events := ended.always.at_end trace
    have database {event : Event Machine} (among : event ∈ events) {name : String}
        (call : event.call = dropDatabaseCall name) : (name, .drill id) ∈ cluster.databases :=
      keptDatabases.own (sweeping.database among call)
    have role {event : Event Machine} (among : event ∈ events) {name : String}
        (call : event.call = dropRoleCall name) : (name, .drill id) ∈ cluster.roles :=
      keptRoles.own (sweeping.role among call)
    refine ⟨fun _ among _ => database among, fun _ among _ => role among, ?_, ?_, ?_⟩
    · rintro event among name call svc member db isDb rfl
      obtain ⟨service, wrong⟩ := cluster.declared svc member db isDb _ (database among call)
      exact nomatch wrong
    · intro event among name call other there
      exact Origin.drill.inj (origin_unique cluster.databases_apart there (database among call))
    · intro event among name call other there
      exact Origin.drill.inj (origin_unique cluster.roles_apart there (role among call))

/-! ### Two services that meet under a prefix -/

/-- A service with one database. -/
def serviceOf (id database : String) : Service where
  id
  repo := "/opt/" ++ id
  owner := id
  runAs := id
  databases := [{ name := "main", database }]
  unit_service := Service.no_unit
  socket_socket := Service.no_socket
  auxiliary_apart := Service.no_auxiliary
  workers_service := Service.no_unit
  workers_apart := Service.no_worker
  auxiliary_no_worker := Service.no_auxiliary_worker
  sources_apart := Service.no_source
  sources_named := Service.no_source_named
  laid_out := Service.no_layout

/-- Every id and every database name here is one that `normalise` accepts. -/
def shops : Inventory where
  stateDir := "/var/lib/openvibe-host"
  backupDir := "/var/backups/openvibe"
  backupStagingDir := "/var/backups/openvibe.staging"
  services := [serviceOf "shop" "ov_shop", serviceOf "shop-drill" "ov_shop_drill_stock"]
  backup_absolute := backups_absolute

/-- The databases of both, and the scratch of a drill of the second that runs. -/
def shopCluster : Cluster shops where
  databases := [("ov_shop", .declared "shop"), ("ov_shop_drill_stock", .declared "shop-drill"),
    ("ov_shop_drill_drill_20260101-010000", .drill "shop-drill")]
  roles := [("ov_shop_drill_drill_20260101-010000", .drill "shop-drill")]
  declared := by
    intro svc member db isDb origin among
    simp only [shops, List.mem_cons, List.not_mem_nil, or_false] at member
    rcases member with rfl | rfl <;> obtain rfl := List.mem_singleton.mp isDb <;> simp at among <;> exact ⟨_, among⟩
  databases_apart := by decide +kernel
  roles_apart := by decide +kernel

instance : DecidableEq Machine.Call := inferInstanceAs (DecidableEq Call)

/-- A drill of the one service drops the database of the other, and the scratch of the other's drill. -/
theorem shop_drops_stock : scratchName "shop-drill" "20260101-010000" none = "ov_shop_drill_drill_20260101-010000" ∧
    Serves (serving shopCluster "shop") shopCluster "shop" ∧
    ((Program.run (sweep "shop") (serving shopCluster "shop") ⟨(), 0, []⟩).2.trace.map (·.call)).drop 2 =
      [dropDatabaseCall "ov_shop_drill_stock", dropDatabaseCall "ov_shop_drill_drill_20260101-010000",
        dropRoleCall "ov_shop_drill_drill_20260101-010000"] :=
  ⟨by decide +kernel, (serving_complies _ _).serves, by decide +kernel⟩

end OpenVibeHost.Drill
