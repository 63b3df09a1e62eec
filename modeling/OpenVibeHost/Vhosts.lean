import OpenVibeHost.EffectLogic
import OpenVibeHost.Preparation
import OpenVibeHost.Runs
import OpenVibeHost.Utf8

/-! The directories `nginx.install` of `lib/nginx.js` works on: what its calls read and change of them. A disk has
at each path a file, a link or a directory; a machine's answers are those of its disk. -/
namespace OpenVibeHost.Nginx
open Effects Program

inductive Node where
  | file (bytes : List UInt8)
  | link (target : String)
  | dir
  deriving DecidableEq, Repr

abbrev Disk := String → Option Node

def Disk.set (d : Disk) (path : String) (node : Option Node) : Disk := fun p => if p = path then node else d p

@[simp] theorem Disk.set_same (d : Disk) (path : String) (node : Option Node) : d.set path node path = node := if_pos rfl

@[simp] theorem Disk.set_other (d : Disk) {path other : String} (node : Option Node) (differs : other ≠ path) :
    d.set path node other = d other := if_neg differs

/-- What `readFile` makes of bytes. -/
def textOf (bytes : List UInt8) : String := String.ofList (Utf8.decode bytes)

/-- What `writeFile` makes of a text. -/
def bytesOf (text : String) : List UInt8 := Utf8.encode text.toList

def textAt (d : Disk) (path : String) : Option String :=
  match d path with
  | some (.file bytes) => some (textOf bytes)
  | _ => none

def linkAt (d : Disk) (path : String) : Option String :=
  match d path with
  | some (.link target) => some target
  | _ => none

/-- Whether `stat` finds something; of a link, whether what it leads to is there. -/
def present (resolves : Disk → String → Bool) (d : Disk) (path : String) : Bool :=
  match d path with
  | none => false
  | some (.link _) => resolves d path
  | some _ => true

def NoLink (d : Disk) (path : String) : Prop := ∀ target, d path ≠ some (.link target)

/-- The calls that only look. -/
def looks : Call → Bool
  | .readFile .. | .readlink _ | .stat _ => true
  | _ => false

/-- A change that was refused. -/
def refused : Event Machine → Bool
  | ⟨.writeFile .., .error _, _⟩ | ⟨.removeFile .., .error _, _⟩ | ⟨.symlink .., .error _, _⟩ => true
  | _ => false

/-- A machine's disk, after all that was done, as its answers show it and its calls change it. A call that is refused
changes nothing; of an `rm` it is not asked whether it did. -/
structure Files (env : Environment Machine) (resolves : Disk → String → Bool) (bin : String) where
  disk : List (Event Machine) → Disk
  readFile : ∀ past path privileged text, env.answer past (.readFile path privileged) = .ok text →
    NoLink (disk past) path → disk past path ≠ some .dir ∧ text = textAt (disk past) path
  readlink : ∀ past path, env.answer past (.readlink path) = linkAt (disk past) path
  stat : ∀ past path, Option.isSome (env.answer past (.stat path)) = present resolves (disk past) path
  looked : ∀ past call clock, looks call = true → disk (past ++ [⟨call, env.answer past call, clock⟩]) = disk past
  tested : ∀ past options clock,
    disk (past ++ [⟨.run bin ["-t"] options, env.answer past (.run bin ["-t"] options), clock⟩]) = disk past
  refused : ∀ past call clock, refused ⟨call, env.answer past call, clock⟩ = true →
    disk (past ++ [⟨call, env.answer past call, clock⟩]) = disk past
  wrote : ∀ past path content privileged clock, env.answer past (.writeFile path content privileged) = .ok () →
    NoLink (disk past) path →
    disk (past ++ [⟨.writeFile path content privileged, env.answer past (.writeFile path content privileged), clock⟩]) =
      (disk past).set path (some (.file (bytesOf content)))
  removed : ∀ past path privileged clock, env.answer past (.removeFile path privileged) = .ok () →
    disk (past ++ [⟨.removeFile path privileged, env.answer past (.removeFile path privileged), clock⟩]) = disk past ∨
      disk (past ++ [⟨.removeFile path privileged, env.answer past (.removeFile path privileged), clock⟩]) =
        (disk past).set path none
  linked : ∀ past target path privileged clock, env.answer past (.symlink target path privileged) = .ok () →
    disk past path = none ∧
      disk (past ++ [⟨.symlink target path privileged, env.answer past (.symlink target path privileged), clock⟩]) =
        (disk past).set path (some (.link target))

/-- A call, whose answer is that to all that was done before. -/
theorem meets_ask_at {env : Environment Machine} {base : List (Event Machine)} {α : Type} {call : Call}
    {read : Machine.Answer call → α} {holds : List (Event Machine) → Prop} {ok : α → List (Event Machine) → Prop}
    {err : Failure → World Machine Unit → Prop}
    (step : ∀ more clock, holds more →
      ok (read (env.answer (base ++ more) call)) (more ++ [⟨call, env.answer (base ++ more) call, clock⟩])) :
    Meets env (Since base fun more _ => holds more) (ask (S := Machine) call read)
      (fun a => Since base fun more _ => ok a more) err := by
  rintro ⟨own, clock, trace⟩ ⟨more, rfl, now⟩
  exact ⟨_, List.append_assoc _ _ _, step more _ now⟩

/-- The same of a call that may be refused. -/
theorem meets_orReject_at {env : Environment Machine} {base : List (Event Machine)} {α : Type} {call : Call}
    {read : Machine.Answer call → Except String α} {holds : List (Event Machine) → Prop}
    {ok : α → List (Event Machine) → Prop} {err : List (Event Machine) → Prop}
    (answered : ∀ more clock a, holds more → read (env.answer (base ++ more) call) = .ok a →
      ok a (more ++ [⟨call, env.answer (base ++ more) call, clock⟩]))
    (rejected : ∀ more clock message, holds more → read (env.answer (base ++ more) call) = .error message →
      err (more ++ [⟨call, env.answer (base ++ more) call, clock⟩])) :
    Meets env (Since base fun more _ => holds more) (Exec.orReject call read)
      (fun a => Since base fun more _ => ok a more) (fun _ => Since base fun more _ => err more) := by
  unfold Exec.orReject
  refine meets_bind (M := fun answer => Since base fun more _ =>
      (∀ a, answer = .ok a → ok a more) ∧ ∀ message, answer = .error message → err more)
    (meets_ask_at fun more clock now => ⟨fun a => answered more clock a now, fun message => rejected more clock message now⟩)
    fun answer => ?_
  cases answer with
  | ok a => exact meets_ret fun _ since => since.mono fun _ _ now => now.1 a rfl
  | error message => exact meets_throw fun _ since => since.mono fun _ _ now => now.2 message rfl

/-! ### What each call finds and does -/

/-- The calls that put files in place. -/
def places : Call → Bool
  | .readFile .. | .readlink _ | .stat _ | .writeFile .. | .removeFile .. | .symlink .. => true
  | _ => false

theorem places_concat {more : List (Event Machine)} {event : Event Machine} (all : ∀ e ∈ more, places e.call = true)
    (last : places event.call = true) : ∀ e ∈ more ++ [event], places e.call = true := by
  intro e member
  rcases List.mem_append.mp member with before | same
  · exact all e before
  · exact List.mem_singleton.mp same ▸ last

section
variable {env : Environment Machine} {resolves : Disk → String → Bool} {bin : String} (fs : Files env resolves bin)
  {base : List (Event Machine)} {P : Disk → Prop} {path : String} {privileged : Bool}

/-- Only files were put in place since, and the disk is as `P` says. -/
def Stands (base : List (Event Machine)) (P : Disk → Prop) : World Machine Unit → Prop :=
  Since base fun more _ => (∀ event ∈ more, places event.call = true) ∧ P (fs.disk (base ++ more))

variable {fs}

theorem Stands.mono {Q : Disk → Prop} {w : World Machine Unit} (stands : Stands fs base P w) (implies : ∀ d, P d → Q d) :
    Stands fs base Q w :=
  Since.mono stands fun _ _ now => ⟨now.1, implies _ now.2⟩

/-- One more call. -/
theorem stands_call {α : Type} {call : Call} {read : Machine.Answer call → α} {Q : α → Disk → Prop}
    {err : Failure → World Machine Unit → Prop} (placing : places call = true)
    (step : ∀ past clock, P (fs.disk past) →
      Q (read (env.answer past call)) (fs.disk (past ++ [⟨call, env.answer past call, clock⟩]))) :
    Meets env (Stands fs base P) (ask (S := Machine) call read) (fun a => Stands fs base (Q a)) err := by
  refine meets_ask_at fun more clock ⟨all, now⟩ => ⟨places_concat all placing, ?_⟩
  rw [← List.append_assoc]
  exact step _ clock now

/-- A call that may be refused. -/
theorem stands_orReject {α : Type} {call : Call} {read : Machine.Answer call → Except String α} {Q : α → Disk → Prop}
    (placing : places call = true)
    (answered : ∀ past clock a, P (fs.disk past) → read (env.answer past call) = .ok a →
      Q a (fs.disk (past ++ [⟨call, env.answer past call, clock⟩])))
    (rejected : ∀ past clock message, P (fs.disk past) → read (env.answer past call) = .error message →
      P (fs.disk (past ++ [⟨call, env.answer past call, clock⟩]))) :
    Meets env (Stands fs base P) (Exec.orReject call read) (fun a => Stands fs base (Q a)) (fun _ => Stands fs base P) := by
  refine meets_orReject_at (fun more clock a ⟨all, now⟩ answer => ⟨places_concat all placing, ?_⟩)
    fun more clock message ⟨all, now⟩ answer => ⟨places_concat all placing, ?_⟩
  · rw [← List.append_assoc]
    exact answered _ clock a now answer
  · rw [← List.append_assoc]
    exact rejected _ clock message now answer

theorem meets_readFile (plain : ∀ d, P d → NoLink d path) :
    Meets env (Stands fs base P) (Exec.readFile path privileged)
      (fun text => Stands fs base fun d => P d ∧ d path ≠ some .dir ∧ text = textAt d path) (fun _ => Stands fs base P) := by
  refine stands_orReject rfl (fun past clock text now answered => ?_) fun past clock message now _ => ?_
  · rw [fs.looked past _ clock rfl]
    exact ⟨now, fs.readFile past path privileged text answered (plain _ now)⟩
  · rw [fs.looked past _ clock rfl]
    exact now

theorem meets_readlink {err : Failure → World Machine Unit → Prop} :
    Meets env (Stands fs base P) (Exec.readlink path)
      (fun target => Stands fs base fun d => P d ∧ target = linkAt d path) err := by
  refine stands_call rfl fun past clock now => ?_
  rw [fs.looked past _ clock rfl]
  exact ⟨now, fs.readlink past path⟩

theorem meets_stat {err : Failure → World Machine Unit → Prop} :
    Meets env (Stands fs base P) (Exec.stat path)
      (fun found => Stands fs base fun d => P d ∧ found.isSome = present resolves d path) err := by
  refine stands_call rfl fun past clock now => ?_
  rw [fs.looked past _ clock rfl]
  exact ⟨now, fs.stat past path⟩

theorem meets_writeFile {content : String} (plain : ∀ d, P d → NoLink d path) :
    Meets env (Stands fs base P) (Exec.writeFile path content privileged)
      (fun _ => Stands fs base fun d => ∃ d₁, P d₁ ∧ d = d₁.set path (some (.file (bytesOf content))))
      (fun _ => Stands fs base P) := by
  refine stands_orReject rfl (fun past clock _ now answered => ?_) fun past clock message now rejected => ?_
  · exact ⟨_, now, fs.wrote past path content privileged clock answered (plain _ now)⟩
  · have same := fs.refused past (.writeFile path content privileged) clock
      (congrArg (fun answer => refused ⟨.writeFile path content privileged, answer, clock⟩) rejected)
    exact (congrArg P same).mpr now

theorem meets_removeFile :
    Meets env (Stands fs base P) (Exec.removeFile path privileged)
      (fun _ => Stands fs base fun d => ∃ d₁, P d₁ ∧ (d = d₁ ∨ d = d₁.set path none)) (fun _ => Stands fs base P) := by
  refine stands_orReject rfl (fun past clock _ now answered => ?_) fun past clock message now rejected => ?_
  · exact ⟨_, now, fs.removed past path privileged clock answered⟩
  · have same := fs.refused past (.removeFile path privileged) clock
      (congrArg (fun answer => refused ⟨.removeFile path privileged, answer, clock⟩) rejected)
    exact (congrArg P same).mpr now

theorem meets_symlink {target : String} :
    Meets env (Stands fs base P) (Exec.symlink target path privileged)
      (fun _ => Stands fs base fun d => ∃ d₁, P d₁ ∧ d₁ path = none ∧ d = d₁.set path (some (.link target)))
      (fun _ => Stands fs base P) := by
  refine stands_orReject rfl (fun past clock _ now answered => ?_) fun past clock message now rejected => ?_
  · exact ⟨_, now, fs.linked past target path privileged clock answered⟩
  · have same := fs.refused past (.symlink target path privileged) clock
      (congrArg (fun answer => refused ⟨.symlink target path privileged, answer, clock⟩) rejected)
    exact (congrArg P same).mpr now

end

/-! ### A machine with such a disk -/

def nextDisk (d : Disk) : Event Machine → Disk
  | ⟨.writeFile path content _, .ok (), _⟩ => d.set path (some (.file (bytesOf content)))
  | ⟨.removeFile path _, .ok (), _⟩ => d.set path none
  | ⟨.symlink target path _, .ok (), _⟩ => d.set path (some (.link target))
  | _ => d

def diskAfter (d₀ : Disk) (past : List (Event Machine)) : Disk := past.foldl nextDisk d₀

def reading (d : Disk) (path : String) : Except String (Option String) :=
  match d path with
  | some .dir => .error "EISDIR"
  | some (.link _) => .error "ELOOP"
  | _ => .ok (textAt d path)

def writing (d : Disk) (path : String) : Except String Unit :=
  match d path with
  | some .dir => .error "EISDIR"
  | some (.link _) => .error "ELOOP"
  | _ => .ok ()

def removing (d : Disk) (path : String) : Except String Unit :=
  match d path with
  | some .dir => .error "EISDIR"
  | _ => .ok ()

def linking (d : Disk) (path : String) : Except String Unit :=
  match d path with
  | none => .ok ()
  | some _ => .error "EEXIST"

def unrefused (refused : Bool) {α : Type} (answer : Except String α) : Except String α :=
  if refused then .error "EACCES" else answer

/-- A machine that has the disk, and refuses what it is told to; its commands end with one code. -/
def machineOf (d₀ : Disk) (resolves : Disk → String → Bool) (refuses : List (Event Machine) → Bool) (code : Nat) :
    Environment Machine where
  takes _ _ := 0
  answer past
    | .readFile path _ => unrefused (refuses past) (reading (diskAfter d₀ past) path)
    | .readlink path => linkAt (diskAfter d₀ past) path
    | .stat path => if present resolves (diskAfter d₀ past) path then some ({} : Stat) else none
    | .writeFile path _ _ => unrefused (refuses past) (writing (diskAfter d₀ past) path)
    | .removeFile path _ => unrefused (refuses past) (removing (diskAfter d₀ past) path)
    | .symlink _ path _ => unrefused (refuses past) (linking (diskAfter d₀ past) path)
    | .run .. => { code := code }
    | other => steady other

section
variable {d₀ : Disk}

theorem unrefused_ok {refused : Bool} {α : Type} {answer : Except String α} {a : α} (ok : unrefused refused answer = .ok a) :
    answer = .ok a := by
  unfold unrefused at ok
  split at ok
  · exact nomatch ok
  · exact ok

theorem diskAfter_snoc (past : List (Event Machine)) (event : Event Machine) :
    diskAfter d₀ (past ++ [event]) = nextDisk (diskAfter d₀ past) event := by
  simp [diskAfter]

theorem reading_ok {d : Disk} {path : String} {text : Option String} (read : reading d path = .ok text) :
    d path ≠ some .dir ∧ text = textAt d path := by
  unfold reading at read
  split at read
  · exact nomatch read
  · exact nomatch read
  · rename_i file _
    exact ⟨file, (Except.ok.inj read).symm⟩

theorem linking_ok {d : Disk} {path : String} (linked : linking d path = .ok ()) : d path = none := by
  unfold linking at linked
  split at linked
  · assumption
  · exact nomatch linked

theorem nextDisk_refused (d : Disk) {event : Event Machine} (hindered : refused event = true) : nextDisk d event = d := by
  obtain ⟨call, answer, clock⟩ := event
  cases call <;> first | rfl | skip
  all_goals
    cases answer with
    | ok _ => exact nomatch hindered
    | error _ => rfl

/-- Its answers are those of its disk. -/
def filesOf (d₀ : Disk) (resolves : Disk → String → Bool) (refuses : List (Event Machine) → Bool) (code : Nat) (bin : String) :
    Files (machineOf d₀ resolves refuses code) resolves bin where
  disk := diskAfter d₀
  readFile past path privileged text read noLink := reading_ok (unrefused_ok read)
  readlink past path := rfl
  stat past path := by
    show Option.isSome (if present resolves (diskAfter d₀ past) path then some ({} : Stat) else none) = _
    split <;> simp_all
  looked past call clock look := by
    rw [diskAfter_snoc]
    cases call <;> first | rfl | exact nomatch look
  tested past options clock := diskAfter_snoc past _
  refused past call clock hindered := (diskAfter_snoc past _).trans (nextDisk_refused _ hindered)
  wrote past path content privileged clock answered noLink := by
    rw [diskAfter_snoc]
    exact congrArg (fun answer => nextDisk (diskAfter d₀ past) ⟨.writeFile path content privileged, answer, clock⟩) answered
  removed past path privileged clock answered := by
    rw [diskAfter_snoc]
    exact .inr (congrArg (fun answer => nextDisk (diskAfter d₀ past) ⟨.removeFile path privileged, answer, clock⟩) answered)
  linked past target path privileged clock answered := by
    rw [diskAfter_snoc]
    refine ⟨linking_ok (unrefused_ok answered), ?_⟩
    exact congrArg (fun answer => nextDisk (diskAfter d₀ past) ⟨.symlink target path privileged, answer, clock⟩) answered

end

end OpenVibeHost.Nginx
