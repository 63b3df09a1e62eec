import OpenVibeHost.Executor
import OpenVibeHost.Paths

/-! The check of a restored object directory, `walkFiles` and `verifyObjectBlobs` of
`lib/commands/drill.js`, over any tree that was restored. -/
namespace OpenVibeHost.Drill

/-- What a restored directory holds. -/
inductive Node where
  | file (links : Nat) (content : List UInt8)
  | dir (entries : List (String × Node))
  /-- A symlink, with what it leads to; a dangling one leads to nothing. -/
  | symlink (target : Option Stat)
  /-- A device, a fifo or a socket. -/
  | special (links : Nat)

/-- The longest path that the system resolves, and its end. -/
def pathMax : Nat := 4096

/-- `exec.stat`: a symlink is followed, and what cannot be resolved is null. -/
def statOf (path : String) (node : Node) : Option Stat :=
  if pathMax ≤ path.utf8ByteSize then none
  else
    match node with
    | .file links content => some { nlink := links, size := content.length }
    | .dir _ => some { isFile := false, isDir := true }
    | .symlink target => target.map fun st => { st with isSymlink := true, nlink := 1 }
    | .special links => some { isFile := false, nlink := links }

mutual
/-- The turn of `walkFiles` for one entry of a directory. -/
def walkOne (p : String) : Node → List (String × Node)
  | .dir entries =>
    match statOf p (.dir entries) with
    | some st => if st.isDir && !st.isSymlink then walkFiles p entries else [(p, .dir entries)]
    | none => []
  | leaf =>
    match statOf p leaf with
    -- `readdir` answers null for what is not a directory
    | some st => if st.isDir && !st.isSymlink then [] else [(p, leaf)]
    | none => []

/-- Every entry under `dir` that is not a directory. -/
def walkFiles (dir : String) : List (String × Node) → List (String × Node)
  | [] => []
  | (name, node) :: rest => walkOne (joinPath dir name) node ++ walkFiles dir rest
end

/-- `BLOB_RE`. -/
def blobRe (name : String) : Bool :=
  name.toList.length = 64 && name.toList.all fun c => c.isDigit || ('a' ≤ c && c ≤ 'f')

/-- The counts of an entry of the drill's record, and the bad blobs. -/
structure Checking where
  blobs : Nat := 0
  skipped : Nat := 0
  bytes : Nat := 0
  bad : List String := []

/-- `path.relative`, of a path inside. -/
def relative (dir p : String) : String := String.ofList (p.toList.drop (dir.toList.length + 1))

section
variable (sha256 : List UInt8 → String)

/-- `sha256Stream`. -/
def sha256Stream : Node → String
  | .file _ content => sha256 content
  | _ => sha256 []

/-- The turn of `verifyObjectBlobs` for one file. -/
def checkOne (dir : String) (s : Checking) (item : String × Node) : Checking :=
  let (p, node) := item
  match statOf p node with
  | none => s
  | some st =>
    let name := baseName p
    if st.isSymlink || !st.isFile then
      { s with bad := s.bad ++ [relative dir p ++ " (symlink or special file)"] }
    else if !blobRe name then { s with skipped := s.skipped + 1, bytes := s.bytes + st.size }
    else if st.nlink ≠ 1 then { s with bad := s.bad ++ [relative dir p ++ " (not a plain file)"] }
    else
      let hash := sha256Stream sha256 node
      if hash ≠ name then
        { s with bytes := s.bytes + st.size, bad := s.bad ++ [relative dir p ++ " (sha256 " ++ hash ++ ")"] }
      else { s with bytes := s.bytes + st.size, blobs := s.blobs + 1 }

/-- `verifyObjectBlobs` of a directory with some entries. -/
def verifyObjectBlobs (dir : String) (entries : List (String × Node)) : Except String Checking :=
  let s := (walkFiles dir entries).foldl (checkOne sha256 dir) {}
  if s.bad ≠ [] then
    .error (toString s.bad.length ++ " blob(s) do not match their name: " ++ ", ".intercalate (s.bad.take 3) ++
      (if 3 < s.bad.length then ", …" else ""))
  else .ok s

end

/-! ### What the check is for -/

mutual
/-- An entry, or all that is below it, with the paths. -/
def leavesOf (p : String) : Node → List (String × Node)
  | .dir entries => leaves p entries
  | leaf => [(p, leaf)]

/-- Every entry of a tree that is not a directory, at any depth. -/
def leaves (dir : String) : List (String × Node) → List (String × Node)
  | [] => []
  | (name, node) :: rest => leavesOf (joinPath dir name) node ++ leaves dir rest
end

/-- A regular file and no symlink, which has one link and hashes to its name if that names a blob. -/
def Sound (sha256 : List UInt8 → String) (leaf : String × Node) : Prop :=
  ∃ links content, leaf.2 = .file links content ∧
    (blobRe (baseName leaf.1) = true → links = 1 ∧ sha256 content = baseName leaf.1)

/-- An entry that the system resolves. -/
def Reached (leaf : String × Node) : Prop := (statOf leaf.1 leaf.2).isSome = true

instance (leaf : String × Node) : Decidable (Reached leaf) := inferInstanceAs (Decidable (_ = true))

/-! ### The walk -/

theorem long_joinPath {dir : String} (name : String) (long : pathMax ≤ dir.utf8ByteSize) :
    pathMax ≤ (joinPath dir name).utf8ByteSize := by
  unfold joinPath
  split
  · exact long
  · split
    · rename_i here
      rcases here with rfl | rfl <;> exact absurd long (by decide)
    · simp only [String.utf8ByteSize_append]
      omega

theorem not_reached_of_long {leaf : String × Node} (long : pathMax ≤ leaf.1.utf8ByteSize) : ¬ Reached leaf := by
  simp [Reached, statOf, long]

mutual
/-- Below a path that is too long nothing is resolved. -/
theorem not_reached_leavesOf {p : String} (long : pathMax ≤ p.utf8ByteSize) (node : Node) :
    ∀ leaf ∈ leavesOf p node, ¬ Reached leaf := by
  cases node with
  | dir entries => exact not_reached_leaves long entries
  | file links content | symlink target | special links =>
    intro leaf among
    obtain rfl := List.mem_singleton.1 among
    exact not_reached_of_long long

theorem not_reached_leaves {dir : String} (long : pathMax ≤ dir.utf8ByteSize) (entries : List (String × Node)) :
    ∀ leaf ∈ leaves dir entries, ¬ Reached leaf := by
  cases entries with
  | nil => exact fun leaf among => absurd among List.not_mem_nil
  | cons entry rest =>
    intro leaf among
    rcases List.mem_append.1 among with here | later
    · exact not_reached_leavesOf (long_joinPath entry.1 long) entry.2 leaf here
    · exact not_reached_leaves long rest leaf later
end

/-- The walk does not look into what is no directory. -/
theorem walkOne_leaf {p : String} {node : Node} (leaf : leavesOf p node = [(p, node)])
    (walked : walkOne p node = match statOf p node with
      | some st => if st.isDir && !st.isSymlink then [] else [(p, node)]
      | none => [])
    (plain : ∀ st, statOf p node = some st → (st.isDir && !st.isSymlink) = false) :
    walkOne p node = (leavesOf p node).filter fun leaf => decide (Reached leaf) := by
  rw [leaf, walked]
  cases found : statOf p node with
  | none => simp [Reached, found]
  | some st => simp [Reached, found, plain st found]

mutual
theorem walkOne_eq (p : String) (node : Node) :
    walkOne p node = (leavesOf p node).filter fun leaf => decide (Reached leaf) := by
  cases node with
  | dir entries =>
    by_cases long : pathMax ≤ p.utf8ByteSize
    · have none_reached : (leavesOf p (.dir entries)).filter (fun leaf => decide (Reached leaf)) = [] :=
        List.filter_eq_nil_iff.2 fun leaf among => by
          simpa using not_reached_leavesOf long (.dir entries) leaf among
      rw [none_reached]
      simp [walkOne, statOf, long]
    · have inside := walkFiles_eq p entries
      simp only [walkOne, statOf, long, if_false, leavesOf]
      exact inside
  | file links content =>
    refine walkOne_leaf rfl rfl fun st found => ?_
    unfold statOf at found
    split at found <;> cases found
    rfl
  | symlink target =>
    refine walkOne_leaf rfl rfl fun st found => ?_
    unfold statOf at found
    split at found
    · cases found
    · obtain ⟨led, -, rfl⟩ := Option.map_eq_some_iff.1 found
      simp
  | special links =>
    refine walkOne_leaf rfl rfl fun st found => ?_
    unfold statOf at found
    split at found <;> cases found
    rfl

/-- The walk finds the entries that the system resolves, and no others. -/
theorem walkFiles_eq (dir : String) (entries : List (String × Node)) :
    walkFiles dir entries = (leaves dir entries).filter fun leaf => decide (Reached leaf) := by
  cases entries with
  | nil => rfl
  | cons entry rest =>
    have one := walkOne_eq (joinPath dir entry.1) entry.2
    have others := walkFiles_eq dir rest
    rw [walkFiles, leaves, List.filter_append, one, others]
end

/-! ### The check -/

section
variable (sha256 : List UInt8 → String)

/-- What the check says against an entry that it looks at. -/
def blame (dir : String) (leaf : String × Node) : Option String :=
  (checkOne sha256 dir {} leaf).bad.head?

/-- A turn adds what there is to say against the entry, and takes nothing back. -/
theorem bad_checkOne (dir : String) (s : Checking) (leaf : String × Node) :
    (checkOne sha256 dir s leaf).bad = s.bad ++ (blame sha256 dir leaf).toList := by
  cases found : statOf leaf.1 leaf.2 with
  | none => simp [blame, checkOne, found]
  | some st =>
    by_cases refused : (st.isSymlink || !st.isFile) = true
    · simp only [blame, checkOne, found, refused, if_true]
      rfl
    · by_cases named : blobRe (baseName leaf.1) = true
      · by_cases single : st.nlink = 1
        · by_cases same : sha256Stream sha256 leaf.2 = baseName leaf.1 <;>
            simp [blame, checkOne, found, refused, named, single, same]
        · simp [blame, checkOne, found, refused, named, single]
      · simp [blame, checkOne, found, refused, named]

theorem bad_foldl (dir : String) (items : List (String × Node)) (s : Checking) :
    (items.foldl (checkOne sha256 dir) s).bad = s.bad ++ items.filterMap (blame sha256 dir) := by
  induction items generalizing s with
  | nil => simp
  | cons leaf rest ih =>
    rw [List.foldl_cons, ih, bad_checkOne]
    cases told : blame sha256 dir leaf with
    | none => rw [List.filterMap_cons_none told]; simp
    | some message => rw [List.filterMap_cons_some told]; simp

/-- The check has nothing against an entry that it looks at just when the entry is sound. -/
theorem blame_none_iff {dir : String} {leaf : String × Node} (reached : Reached leaf)
    (leafLike : ∀ entries, leaf.2 ≠ .dir entries) :
    blame sha256 dir leaf = none ↔ Sound sha256 leaf := by
  obtain ⟨p, node⟩ := leaf
  obtain ⟨st, found⟩ := Option.isSome_iff_exists.1 reached
  dsimp only at found leafLike
  have met := found
  unfold statOf at found
  split at found
  · cases found
  cases node with
  | dir entries => exact absurd rfl (leafLike entries)
  | file links content =>
    cases found
    by_cases named : blobRe (baseName p) = true
    · by_cases single : links = 1
      · subst single
        by_cases same : sha256 content = baseName p
        · simp [blame, checkOne, met, Sound, named, sha256Stream, same]
        · simp [blame, checkOne, met, Sound, named, sha256Stream, same]
      · simp [blame, checkOne, met, Sound, named, single]
    · simp [blame, checkOne, met, Sound, named]
  | symlink target =>
    obtain ⟨led, -, rfl⟩ := Option.map_eq_some_iff.1 found
    simp [blame, checkOne, met, Sound]
  | special links =>
    cases found
    simp [blame, checkOne, met, Sound]

end

mutual
theorem not_dir_leavesOf (p : String) (node : Node) : ∀ leaf ∈ leavesOf p node, ∀ entries, leaf.2 ≠ .dir entries := by
  cases node with
  | dir entries => exact not_dir_leaves p entries
  | file links content | symlink target | special links =>
    intro leaf among entries
    obtain rfl := List.mem_singleton.1 among
    nofun

theorem not_dir_leaves (dir : String) (entries : List (String × Node)) :
    ∀ leaf ∈ leaves dir entries, ∀ below, leaf.2 ≠ .dir below := by
  cases entries with
  | nil => exact fun leaf among => absurd among List.not_mem_nil
  | cons entry rest =>
    intro leaf among
    rcases List.mem_append.1 among with here | later
    · exact not_dir_leavesOf (joinPath dir entry.1) entry.2 leaf here
    · exact not_dir_leaves dir rest leaf later
end

/-- The check passes just when everything that is resolved is sound. -/
theorem passes_iff (sha256 : List UInt8 → String) (dir : String) (entries : List (String × Node)) :
    (∃ s, verifyObjectBlobs sha256 dir entries = .ok s) ↔
      ∀ leaf ∈ leaves dir entries, Reached leaf → Sound sha256 leaf := by
  have judged : ((walkFiles dir entries).foldl (checkOne sha256 dir) {}).bad = [] ↔
      ∀ leaf ∈ leaves dir entries, Reached leaf → Sound sha256 leaf := by
    rw [bad_foldl, List.nil_append, List.filterMap_eq_nil_iff, walkFiles_eq]
    constructor
    · intro none_bad leaf among reached
      have silent := none_bad leaf (List.mem_filter.2 ⟨among, by simpa using reached⟩)
      exact (blame_none_iff sha256 reached (not_dir_leaves dir entries leaf among)).1 silent
    · intro sound leaf walked
      obtain ⟨among, reached⟩ := List.mem_filter.1 walked
      have reached : Reached leaf := by simpa using reached
      exact (blame_none_iff sha256 reached (not_dir_leaves dir entries leaf among)).2 (sound leaf among reached)
  rw [← judged]
  unfold verifyObjectBlobs
  dsimp only
  split
  · rename_i some_bad
    exact iff_of_false nofun some_bad
  · rename_i none_bad
    exact iff_of_true ⟨_, rfl⟩ (not_not.1 none_bad)

/-- The check passes exactly the trees in which every entry is sound, just when each entry that the system does
not resolve is sound or another one is refused. -/
theorem passes_sound_iff (sha256 : List UInt8 → String) (dir : String) (entries : List (String × Node)) :
    ((∃ s, verifyObjectBlobs sha256 dir entries = .ok s) ↔ ∀ leaf ∈ leaves dir entries, Sound sha256 leaf) ↔
      (∀ leaf ∈ leaves dir entries, ¬ Reached leaf → Sound sha256 leaf) ∨
        ∃ leaf ∈ leaves dir entries, Reached leaf ∧ ¬ Sound sha256 leaf := by
  rw [passes_iff]
  constructor
  · intro exact_check
    by_cases passed : ∀ leaf ∈ leaves dir entries, Reached leaf → Sound sha256 leaf
    · exact .inl fun leaf among _ => exact_check.1 passed leaf among
    · push Not at passed
      exact .inr passed
  · rintro (unresolved_sound | ⟨refused, among, reached, unsound⟩)
    · constructor
      · intro passed leaf among
        by_cases reached : Reached leaf
        · exact passed leaf among reached
        · exact unresolved_sound leaf among reached
      · exact fun sound leaf among _ => sound leaf among
    · exact iff_of_false (fun passed => unsound (passed refused among reached))
        fun sound => unsound (sound refused among)

/-- A restored directory with a symlink that leads nowhere passes the check, although the symlink is refused whatever
its name. -/
theorem dangling_symlink_passes :
    ¬ ∀ (sha256 : List UInt8 → String) (dir : String) (entries : List (String × Node)),
      (∃ s, verifyObjectBlobs sha256 dir entries = .ok s) ↔ ∀ leaf ∈ leaves dir entries, Sound sha256 leaf := by
  intro exact_check
  have passed : ∃ s, verifyObjectBlobs (fun _ => "") "/var/tmp/drill/objects" [("current", .symlink none)] = .ok s :=
    ⟨_, rfl⟩
  obtain ⟨links, content, isFile, -⟩ := (exact_check _ _ _).1 passed _ (List.mem_cons_self ..)
  cases isFile

end OpenVibeHost.Drill
