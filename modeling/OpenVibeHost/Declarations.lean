import OpenVibeHost.Inventory
import OpenVibeHost.Json
import OpenVibeHost.Paths

/-! What `normalise` makes of the paths, the databases and the object directories that an
inventory declares. A name that is no string is kept as the text it is spelled as, which is what
the file names are made of. -/
namespace OpenVibeHost.Declared

/-- `path.dirname` of an absolute path that is normalised. -/
def parent (path : String) : String :=
  dirName (if endsWith path "/" ∧ path ≠ "/" then String.ofList path.toList.dropLast else path)

/-- `abs`. -/
def abs (value : Option Json) (at' : String) : Except Failure String :=
  match value with
  | some (.str text) =>
    if beginsWith text "/" ∧ '\x00' ∉ text.toList then .ok (normalize text)
    else .error (.inventory (at' ++ " must be an absolute path"))
  | _ => .error (.inventory (at' ++ " must be an absolute path"))

/-- The `repo` of a service: the release root where a release layout names its `current` link. -/
def repoOf (value : Option Json) (where' : String) (releaseLayout namesCurrent : Bool) :
    Except Failure String := do
  let repo ← abs value (where' ++ ".repo")
  return if releaseLayout && baseName repo = "current" && !namesCurrent then parent repo else repo

/-- `value != null`. -/
def present : Option Json → Bool
  | none | some .null => false
  | some _ => true

/-- The text of `d[key] || ''`. -/
def shownOr (d : Json) (key : String) : String :=
  match d.field key with
  | some value => if value.truthy then value.shown else ""
  | none => ""

/-- `FILE_NAME_RE`. -/
def fileNameRe (name : String) : Bool :=
  name ≠ "" && name.toList.all fun c => c.isAlphanum || c = '.' || c = '_' || c = '-'

/-- `PG_DATABASE_RE`. -/
def pgDatabaseRe (text : String) : Bool :=
  match text.toList with
  | 'o' :: 'v' :: '_' :: rest => rest ≠ [] && rest.all fun c => c.isLower || c.isDigit || c = '_'
  | _ => false

/-- The pattern of a role, `^[a-z_][a-z0-9_-]*$`. -/
def roleRe (text : String) : Bool :=
  match text.toList with
  | c :: rest => (c.isLower || c = '_') && rest.all fun c => c.isLower || c.isDigit || c = '_' || c = '-'
  | [] => false

/-- `d.name || String(d.database).slice(3)`. -/
def databaseName (d : Json) : String :=
  if (d.field "name").any Json.truthy then shownOr d "name"
  else String.ofList ((shownOr d "database").toList.drop 3)

/-- One entry of `databases`. -/
def normaliseDatabase (at' : String) (d : Json) : Except Failure Database :=
  if ¬ (d.field "engine").any (Json.same (.str "postgresql")) then
    .error (.inventory (at' ++ ".engine must be \"postgresql\"; use \x7b name, engine: \"postgresql\", " ++
      "database: \"ov_<service>\" \x7d"))
  else if present (d.field "path") then
    .error (.inventory (at' ++ ": a postgresql database has no path (it lives in the cluster, named by \"database\")"))
  else if ¬ pgDatabaseRe (shownOr d "database") then
    .error (.inventory (at' ++ ".database must match /^ov_[a-z0-9_]+$/ (e.g. ov_trade)"))
  else if ¬ fileNameRe (databaseName d) then
    .error (.inventory (at' ++ ".name must be a plain name"))
  else
    match d.field "role" with
    | none | some .null => .ok { name := databaseName d, database := shownOr d "database" }
    | some role =>
      if roleRe role.shown then
        .ok { name := databaseName d, database := shownOr d "database", role := some role.shown }
      else .error (.inventory (at' ++ ".role must be a database role name"))

def normaliseDatabasesFrom (where' : String) : Nat → List Json → Except Failure (List Database)
  | _, [] => .ok []
  | i, d :: rest => do
    let db ← normaliseDatabase (where' ++ ".databases[" ++ toString i ++ "]") d
    let others ← normaliseDatabasesFrom where' (i + 1) rest
    return db :: others

/-- `databases` of a service. -/
def normaliseDatabases (where' : String) (raw : Option Json) : Except Failure (List Database) :=
  match raw.filter Json.truthy with
  | none => .ok []
  | some (.arr items) => normaliseDatabasesFrom where' 0 items
  | some _ => .error (.plain "(s.databases || []).map is not a function")

/-- `o.name`. -/
def nameOf (o : Json) : Json := (o.field "name").getD .null

/-- One entry of `objects`, after the names that were `seen`. -/
def normaliseObject (at' : String) (seen : List Json) (o : Json) : Except Failure ObjectDirectory :=
  match o with
  | .obj _ =>
    if ¬ fileNameRe (shownOr o "name") then .error (.inventory (at' ++ ".name must be a plain name"))
    else if seen.any (Json.same (nameOf o)) then
      .error (.inventory (at' ++ ".name \"" ++ (nameOf o).shown ++ "\" is listed twice"))
    else
      match o.field "verify" with
      | none | some .null => do
        let path ← abs (o.field "path") (at' ++ ".path")
        return { name := shownOr o "name", path }
      | some (.bool verify) => do
        let path ← abs (o.field "path") (at' ++ ".path")
        return { name := shownOr o "name", path, verify }
      | some _ => .error (.inventory (at' ++ ".verify must be true or false"))
  | _ => .error (.inventory (at' ++ " must be an object"))

def normaliseObjectsFrom (where' : String) : Nat → List Json → List Json → Except Failure (List ObjectDirectory)
  | _, _, [] => .ok []
  | i, seen, o :: rest => do
    let obj ← normaliseObject (where' ++ ".objects[" ++ toString i ++ "]") seen o
    let others ← normaliseObjectsFrom where' (i + 1) (seen ++ [nameOf o]) rest
    return obj :: others

/-- `normaliseObjects`. -/
def normaliseObjects (raw : Option Json) (where' : String) : Except Failure (List ObjectDirectory) :=
  match raw with
  | none | some .null => .ok []
  | some (.arr items) => normaliseObjectsFrom where' 0 [] items
  | some _ => .error (.inventory (where' ++ ".objects must be a list of directories"))

/-- The entries of a list that is given. -/
def entries : Option Json → List Json
  | some (.arr items) => items
  | _ => []

section
variable {where' at' : String} {d o : Json} {db : Database} {obj : ObjectDirectory} {value : Option Json}

/-! ### What an accepted entry is -/

theorem abs_ok {path : String} (accepted : abs value at' = .ok path) :
    ∃ text, beginsWith text "/" = true ∧ path = normalize text := by
  unfold abs at accepted
  split at accepted
  · rename_i text
    split at accepted
    · rename_i absolute
      exact ⟨text, absolute.1, (Except.ok.inj accepted).symm⟩
    · exact nomatch accepted
  · exact nomatch accepted

theorem normaliseDatabase_ok (accepted : normaliseDatabase at' d = .ok db) :
    db.name = databaseName d ∧ fileNameRe db.name = true := by
  unfold normaliseDatabase at accepted
  split at accepted
  · exact nomatch accepted
  split at accepted
  · exact nomatch accepted
  split at accepted
  · exact nomatch accepted
  split at accepted
  · exact nomatch accepted
  rename_i plain
  have plain : fileNameRe (databaseName d) = true := by simpa using plain
  split at accepted
  · cases accepted
    exact ⟨rfl, plain⟩
  · cases accepted
    exact ⟨rfl, plain⟩
  · split at accepted
    · cases accepted
      exact ⟨rfl, plain⟩
    · exact nomatch accepted

theorem normaliseDatabasesFrom_ok {items : List Json} {i : Nat} {databases : List Database}
    (accepted : normaliseDatabasesFrom where' i items = .ok databases) :
    databases.map (·.name) = items.map databaseName ∧ ∀ db ∈ databases, fileNameRe db.name = true := by
  induction items generalizing i databases with
  | nil =>
    cases accepted
    exact ⟨rfl, nofun⟩
  | cons d rest ih =>
    rw [normaliseDatabasesFrom] at accepted
    cases first : normaliseDatabase (where' ++ ".databases[" ++ toString i ++ "]") d with
    | error refused =>
      rw [first] at accepted
      exact nomatch accepted
    | ok db =>
      cases more : normaliseDatabasesFrom where' (i + 1) rest with
      | error refused =>
        rw [first, more] at accepted
        exact nomatch accepted
      | ok others =>
        rw [first, more] at accepted
        cases accepted
        obtain ⟨named, plain⟩ := normaliseDatabase_ok first
        obtain ⟨names, plains⟩ := ih more
        refine ⟨by rw [List.map_cons, List.map_cons, named, names], fun other member => ?_⟩
        obtain rfl | member := List.mem_cons.mp member
        · exact plain
        · exact plains other member

theorem normaliseDatabases_ok {databases : List Database} (accepted : normaliseDatabases where' value = .ok databases) :
    databases.map (·.name) = (entries value).map databaseName ∧ ∀ db ∈ databases, fileNameRe db.name = true := by
  unfold normaliseDatabases at accepted
  split at accepted
  · rename_i falsy
    cases accepted
    refine ⟨?_, by simp⟩
    cases value with
    | none => rfl
    | some value =>
      cases value with
      | arr items => simp [Option.filter, Json.truthy] at falsy
      | _ => rfl
  · rename_i items given
    obtain ⟨given, -⟩ := Option.filter_eq_some_iff.mp given
    rw [given]
    exact normaliseDatabasesFrom_ok accepted
  · cases accepted

/-- The name of an object directory is that of its entry, and no name that was seen. -/
theorem normaliseObject_ok {seen : List Json} (accepted : normaliseObject at' seen o = .ok obj) :
    obj.name = (nameOf o).shown ∧ fileNameRe obj.name = true ∧
      (∀ other ∈ seen, Json.same (nameOf o) other = false) ∧ abs (o.field "path") (at' ++ ".path") = .ok obj.path := by
  unfold normaliseObject at accepted
  split at accepted
  · rename_i fields
    split at accepted
    · exact nomatch accepted
    rename_i plain
    have plain : fileNameRe (shownOr (.obj fields) "name") = true := by simpa using plain
    have named : shownOr (.obj fields) "name" = (nameOf (.obj fields)).shown := by
      unfold shownOr at plain ⊢
      unfold nameOf
      split at plain
      · split at plain
        · rename_i value found truthy
          rw [found, Option.getD_some, if_pos truthy]
        · exact absurd plain (by decide)
      · exact absurd plain (by decide)
    split at accepted
    · exact nomatch accepted
    rename_i unseen
    have unseen : ∀ other ∈ seen, Json.same (nameOf (.obj fields)) other = false := by simpa using unseen
    have result : ∀ verify, (do
        let path ← abs ((Json.obj fields).field "path") (at' ++ ".path")
        return { name := shownOr (.obj fields) "name", path, verify } : Except Failure ObjectDirectory) = .ok obj →
        obj.name = (nameOf (.obj fields)).shown ∧ fileNameRe obj.name = true ∧
          (∀ other ∈ seen, Json.same (nameOf (.obj fields)) other = false) ∧
          abs ((Json.obj fields).field "path") (at' ++ ".path") = .ok obj.path := by
      intro verify accepted
      cases located : abs ((Json.obj fields).field "path") (at' ++ ".path") with
      | error refused =>
        rw [located] at accepted
        exact nomatch accepted
      | ok path =>
        rw [located] at accepted
        cases accepted
        exact ⟨named, plain, unseen, rfl⟩
    split at accepted
    · exact result true accepted
    · exact result true accepted
    · exact result _ accepted
    · exact nomatch accepted
  · exact nomatch accepted

/-- The names of accepted entries are values that differ from each other and from those seen. -/
theorem normaliseObjectsFrom_ok {items seen : List Json} {i : Nat} {objects : List ObjectDirectory}
    (accepted : normaliseObjectsFrom where' i seen items = .ok objects) :
    objects.map (·.name) = items.map (fun o => (nameOf o).shown) ∧
      (∀ obj ∈ objects, fileNameRe obj.name = true ∧ ∃ value at', abs value at' = .ok obj.path) ∧
      (∀ o ∈ items, ∀ other ∈ seen, Json.same (nameOf o) other = false) ∧
      items.Pairwise fun a b => Json.same (nameOf b) (nameOf a) = false := by
  induction items generalizing i seen objects with
  | nil =>
    cases accepted
    exact ⟨rfl, nofun, nofun, .nil⟩
  | cons o rest ih =>
    rw [normaliseObjectsFrom] at accepted
    cases first : normaliseObject (where' ++ ".objects[" ++ toString i ++ "]") seen o with
    | error refused =>
      rw [first] at accepted
      exact nomatch accepted
    | ok obj =>
      cases more : normaliseObjectsFrom where' (i + 1) (seen ++ [nameOf o]) rest with
      | error refused =>
        rw [first, more] at accepted
        exact nomatch accepted
      | ok others =>
        rw [first, more] at accepted
        cases accepted
        obtain ⟨named, plain, unseen, located⟩ := normaliseObject_ok first
        obtain ⟨names, plains, later, apart⟩ := ih more
        refine ⟨by rw [List.map_cons, List.map_cons, named, names], fun other member => ?_,
          fun other member => ?_, List.pairwise_cons.mpr ⟨fun other member => ?_, apart⟩⟩
        · obtain rfl | member := List.mem_cons.mp member
          · exact ⟨plain, _, _, located⟩
          · exact plains other member
        · obtain rfl | member := List.mem_cons.mp member
          · exact unseen
          · exact fun known among => later other member known (List.mem_append_left _ among)
        · exact later other member _ (List.mem_append_right _ (List.mem_singleton_self _))

theorem normaliseObjects_ok {objects : List ObjectDirectory} (accepted : normaliseObjects value where' = .ok objects) :
    objects.map (·.name) = (entries value).map (fun o => (nameOf o).shown) ∧
      (∀ obj ∈ objects, fileNameRe obj.name = true ∧ ∃ value at', abs value at' = .ok obj.path) ∧
      (entries value).Pairwise fun a b => Json.same (nameOf b) (nameOf a) = false := by
  unfold normaliseObjects at accepted
  split at accepted
  · cases accepted
    exact ⟨rfl, nofun, .nil⟩
  · cases accepted
    exact ⟨rfl, nofun, .nil⟩
  · obtain ⟨names, plains, -, apart⟩ := normaliseObjectsFrom_ok accepted
    exact ⟨names, plains, apart⟩
  · exact nomatch accepted

end

end OpenVibeHost.Declared
