import Mathlib.Logic.Function.Basic
import OpenVibeHost.Transition

/-! Clients of one database. A client is a program of statements, each atomic,
that runs in a transaction or commits each statement by itself. Under READ
COMMITTED a statement sees the rows that are committed when it starts and what
its own transaction wrote; a row that a transaction has locked is out of every
other client's reach until the transaction ends. -/
namespace OpenVibeHost

/-- A program of statements over rows `σ`, with row locks named by `κ`. A
statement may first ask for a lock; `effect` is what it writes, and `next` goes
on from the rows it saw. -/
inductive Session (σ κ ε α : Type) where
  | ret (result : α)
  | fail (error : ε)
  | stmt (lock : Option κ) (effect : σ → σ) (next : σ → Session σ κ ε α)

namespace Session

variable {σ κ ε α β ι : Type}

def bind : Session σ κ ε α → (α → Session σ κ ε β) → Session σ κ ε β
  | .ret result, rest => rest result
  | .fail error, _ => .fail error
  | .stmt lock effect next, rest => .stmt lock effect fun seen => (next seen).bind rest

instance : Monad (Session σ κ ε) where
  pure := .ret
  bind := bind

@[simp] theorem pure_eq (result : α) : (pure result : Session σ κ ε α) = .ret result := rfl

@[simp] theorem ret_bind (result : α) (rest : α → Session σ κ ε β) :
    (Session.ret result : Session σ κ ε α) >>= rest = rest result := rfl

@[simp] theorem fail_bind (error : ε) (rest : α → Session σ κ ε β) :
    (Session.fail error : Session σ κ ε α) >>= rest = .fail error := rfl

@[simp] theorem stmt_bind (lock : Option κ) (effect : σ → σ) (next : σ → Session σ κ ε α)
    (rest : α → Session σ κ ε β) :
    Session.stmt lock effect next >>= rest = .stmt lock effect fun seen => next seen >>= rest := rfl

/-- A SELECT. -/
def select (read : σ → α) : Session σ κ ε α := .stmt .none id fun seen => .ret (read seen)

/-- A SELECT … FOR UPDATE. -/
def selectForUpdate (lock : κ) (read : σ → α) : Session σ κ ε α :=
  .stmt (.some lock) id fun seen => .ret (read seen)

/-- The rows after a statement that may fail: then they stay. -/
def attempt (write : σ → Except ε σ) (seen : σ) : σ :=
  match write seen with
  | .ok written => written
  | .error _ => seen

theorem attempt_ok {write : σ → Except ε σ} {seen written : σ} (ok : write seen = .ok written) :
    attempt write seen = written := by
  rw [attempt, ok]

theorem attempt_error {write : σ → Except ε σ} {seen : σ} {error : ε}
    (fails : write seen = .error error) : attempt write seen = seen := by
  rw [attempt, fails]

/-- What follows such a statement: where it fails, the client does. -/
def after (write : σ → Except ε σ) (rest : Session σ κ ε α) (seen : σ) : Session σ κ ε α :=
  match write seen with
  | .ok _ => rest
  | .error error => .fail error

theorem after_ok {write : σ → Except ε σ} {rest : Session σ κ ε α} {seen written : σ}
    (ok : write seen = .ok written) : after write rest seen = rest := by
  rw [after, ok]

theorem after_error {write : σ → Except ε σ} {rest : Session σ κ ε α} {seen : σ} {error : ε}
    (fails : write seen = .error error) : after write rest seen = .fail error := by
  rw [after, fails]

/-- A statement that writes, or fails and writes nothing. -/
def execute (lock : Option κ) (write : σ → Except ε σ) : Session σ κ ε Unit :=
  .stmt lock (attempt write) (after write (.ret ()))

/-- What JavaScript computes between two statements: a value, or an error thrown. -/
def ofExcept : Except ε α → Session σ κ ε α
  | .ok result => .ret result
  | .error error => .fail error

@[simp] theorem ofExcept_ok (result : α) :
    (ofExcept (.ok result) : Session σ κ ε α) = .ret result := rfl

@[simp] theorem ofExcept_error (error : ε) :
    (ofExcept (.error error) : Session σ κ ε α) = .fail error := rfl

theorem select_bind (read : σ → α) (rest : α → Session σ κ ε β) :
    select read >>= rest = .stmt .none id fun seen => rest (read seen) := rfl

theorem selectForUpdate_bind (lock : κ) (read : σ → α) (rest : α → Session σ κ ε β) :
    selectForUpdate lock read >>= rest = .stmt (.some lock) id fun seen => rest (read seen) := rfl

theorem execute_bind (lock : Option κ) (write : σ → Except ε σ) (rest : Unit → Session σ κ ε β) :
    execute lock write >>= rest = .stmt lock (attempt write) (after write (rest ())) := by
  simp only [execute, stmt_bind]
  congr 1
  funext seen
  unfold after
  cases write seen <;> rfl

/-! ### What the statements of a client do -/

/-- Whatever a statement of the client sees, `rel` relates it to what it leaves. -/
def Steps (rel : σ → σ → Prop) : Session σ κ ε α → Prop
  | .ret _ | .fail _ => True
  | .stmt _ effect next => (∀ seen, rel seen (effect seen)) ∧ ∀ seen, (next seen).Steps rel

section
variable {rel : σ → σ → Prop}

theorem Steps.mono {wider : σ → σ → Prop} (implies : ∀ a b, rel a b → wider a b) {client : Session σ κ ε α}
    (steps : client.Steps rel) : client.Steps wider := by
  induction client with
  | ret result => trivial
  | fail error => trivial
  | stmt lock effect next ih =>
    exact ⟨fun seen => implies _ _ (steps.1 seen), fun seen => ih seen (steps.2 seen)⟩

theorem Steps.bind {first : Session σ κ ε α} {rest : α → Session σ κ ε β} (steps : first.Steps rel)
    (later : ∀ result, (rest result).Steps rel) : (first >>= rest).Steps rel := by
  induction first with
  | ret result => exact later result
  | fail error => trivial
  | stmt lock effect next ih => exact ⟨steps.1, fun seen => ih seen (steps.2 seen)⟩

theorem steps_select (same : ∀ seen, rel seen seen) (read : σ → α) :
    (select read : Session σ κ ε α).Steps rel :=
  ⟨same, fun _ => trivial⟩

theorem steps_ofExcept (answer : Except ε α) : (ofExcept answer : Session σ κ ε α).Steps rel := by
  cases answer <;> trivial

theorem steps_execute (same : ∀ seen, rel seen seen) (lock : Option κ) {write : σ → Except ε σ}
    (writes : ∀ seen written, write seen = .ok written → rel seen written) :
    (execute lock write).Steps rel := by
  constructor
  · intro seen
    cases result : write seen with
    | ok written => rw [attempt_ok result]; exact writes seen written result
    | error error => rw [attempt_error result]; exact same seen
  · intro seen
    cases result : write seen with
    | ok written => rw [after_ok result]; trivial
    | error error => rw [after_error result]; trivial

end

/-! ### A client alone -/

/-- The rows and the result of a client that nobody interrupts, each statement
committed by itself. -/
def alone : Session σ κ ε α → σ → σ × Except ε α
  | .ret result, rows => (rows, .ok result)
  | .fail error, rows => (rows, .error error)
  | .stmt _ effect next, rows => alone (next rows) (effect rows)

/-- The same in a transaction: what fails leaves the rows as they were. -/
def atomically (client : Session σ κ ε α) (rows : σ) : σ × Except ε α :=
  match client.alone rows with
  | (written, .ok result) => (written, .ok result)
  | (_, .error error) => (rows, .error error)

@[simp] theorem alone_ret (result : α) (rows : σ) :
    (Session.ret result : Session σ κ ε α).alone rows = (rows, .ok result) := rfl

@[simp] theorem alone_fail (error : ε) (rows : σ) :
    (Session.fail error : Session σ κ ε α).alone rows = (rows, .error error) := rfl

@[simp] theorem alone_select (read : σ → α) (rest : α → Session σ κ ε β) (rows : σ) :
    (select read >>= rest).alone rows = (rest (read rows)).alone rows := rfl

theorem alone_execute (lock : Option κ) (write : σ → Except ε σ) (rest : Unit → Session σ κ ε β)
    (rows : σ) : (execute lock write >>= rest).alone rows =
      match write rows with
      | .ok written => (rest ()).alone written
      | .error error => (rows, .error error) := by
  cases h : write rows <;> simp [execute_bind, attempt, after, alone, h]

@[simp] theorem alone_ofExcept (answer : Except ε α) (rest : α → Session σ κ ε β) (rows : σ) :
    (ofExcept answer >>= rest).alone rows =
      match answer with
      | .ok result => (rest result).alone rows
      | .error error => (rows, .error error) := by
  cases answer <;> rfl

/-- What comes of a program that goes on with `rest`. -/
theorem alone_bind (first : Session σ κ ε α) (rest : α → Session σ κ ε β) (rows : σ) :
    (first >>= rest).alone rows =
      match first.alone rows with
      | (written, .ok result) => (rest result).alone written
      | (written, .error error) => (written, .error error) := by
  induction first generalizing rows with
  | ret result => rfl
  | fail error => rfl
  | stmt lock effect next ih => exact ih rows (effect rows)

/-- What every statement does, the client does. -/
theorem Steps.alone {rel : σ → σ → Prop} (same : ∀ seen, rel seen seen)
    (trans : ∀ a b c, rel a b → rel b c → rel a c) {client : Session σ κ ε α} (steps : client.Steps rel)
    (rows : σ) : rel rows (client.alone rows).1 := by
  induction client generalizing rows with
  | ret result => exact same rows
  | fail error => exact same rows
  | stmt lock effect next ih =>
    exact trans _ _ _ (steps.1 rows) (ih rows (steps.2 rows) (effect rows))

theorem Steps.atomically {rel : σ → σ → Prop} (same : ∀ seen, rel seen seen)
    (trans : ∀ a b c, rel a b → rel b c → rel a c) {client : Session σ κ ε α} (steps : client.Steps rel)
    (rows : σ) : rel rows (client.atomically rows).1 := by
  have related := steps.alone same trans rows
  unfold Session.atomically
  cases ended : client.alone rows with
  | mk written result =>
    rw [ended] at related
    cases result with
    | ok result => exact related
    | error error => exact same rows

/-! ### Clients together -/

/-- How far a client is: `turns` statements done, `wrote` what its open
transaction wrote. Outside a transaction nothing is kept back. -/
inductive Phase (σ κ ε α : Type) where
  | running (atomic : Bool) (turns : Nat) (wrote : σ → σ) (rest : Session σ κ ε α)
  | returned (result : α)
  | failed (error : ε)

/-- The rows committed, who holds each row lock, and every client. -/
structure World (ι σ κ ε α : Type) where
  rows : σ
  holder : κ → Option ι
  phase : ι → Phase σ κ ε α

/-- A client takes its next step, or something outside its program stops it. -/
inductive Event (ι ε : Type) where
  | turn (client : ι)
  | fault (client : ι) (error : ε)

/-- Nobody has taken a step. -/
def start (rows : σ) (atomic : ι → Bool) (client : ι → Session σ κ ε α) : World ι σ κ ε α :=
  { rows, holder := fun _ => .none, phase := fun i => .running (atomic i) 0 id (client i) }

namespace World

variable [DecidableEq ι] [DecidableEq κ]

def holds (w : World ι σ κ ε α) (i : ι) (phase : Phase σ κ ε α) : ι → Phase σ κ ε α :=
  Function.update w.phase i phase

/-- The client may go on: nobody else holds the lock it asks for. -/
def free (w : World ι σ κ ε α) (i : ι) : Option κ → Bool
  | .none => true
  | .some lock =>
    match w.holder lock with
    | .none => true
    | .some j => j = i

def locked (w : World ι σ κ ε α) (i : ι) : Option κ → κ → Option ι
  | .none => w.holder
  | .some lock => Function.update w.holder lock (.some i)

/-- The locks once the client's transaction has ended. -/
def released (w : World ι σ κ ε α) (i : ι) : κ → Option ι := fun lock =>
  if w.holder lock = .some i then .none else w.holder lock

/-- One step of a client. One that waits for a lock stays where it is. -/
def turn (w : World ι σ κ ε α) (i : ι) : World ι σ κ ε α :=
  match w.phase i with
  | .running atomic turns wrote (.stmt lock effect next) =>
    if w.free i lock then
      if atomic then
        { w with
          holder := w.locked i lock
          phase := w.holds i (.running true (turns + 1) (effect ∘ wrote) (next (wrote w.rows))) }
      else
        { w with
          rows := effect w.rows
          phase := w.holds i (.running false (turns + 1) wrote (next w.rows)) }
    else w
  | .running _ _ wrote (.ret result) =>
    { rows := wrote w.rows, holder := w.released i, phase := w.holds i (.returned result) }
  | .running _ _ _ (.fail error) =>
    { w with holder := w.released i, phase := w.holds i (.failed error) }
  | .returned _ | .failed _ => w

/-- What its transaction wrote is dropped; statements that committed stay. -/
def fault (w : World ι σ κ ε α) (i : ι) (error : ε) : World ι σ κ ε α :=
  match w.phase i with
  | .running .. => { w with holder := w.released i, phase := w.holds i (.failed error) }
  | .returned _ | .failed _ => w

def step (w : World ι σ κ ε α) : Event ι ε → World ι σ κ ε α
  | .turn i => w.turn i
  | .fault i error => w.fault i error

section
variable {w : World ι σ κ ε α} {i : ι} {turns : Nat} {wrote : σ → σ} {atomic : Bool}

theorem turn_stmt {lock : Option κ} {effect : σ → σ} {next : σ → Session σ κ ε α}
    (phase : w.phase i = .running true turns wrote (.stmt lock effect next)) (free : w.free i lock = true) :
    w.turn i = { w with
      holder := w.locked i lock
      phase := w.holds i (.running true (turns + 1) (effect ∘ wrote) (next (wrote w.rows))) } := by
  simp [turn, phase, free]

/-- A statement outside a transaction commits at once. -/
theorem turn_commits {lock : Option κ} {effect : σ → σ} {next : σ → Session σ κ ε α}
    (phase : w.phase i = .running false turns wrote (.stmt lock effect next)) (free : w.free i lock = true) :
    w.turn i = { w with
      rows := effect w.rows
      phase := w.holds i (.running false (turns + 1) wrote (next w.rows)) } := by
  simp [turn, phase, free]

theorem turn_waits {lock : Option κ} {effect : σ → σ} {next : σ → Session σ κ ε α}
    (phase : w.phase i = .running atomic turns wrote (.stmt lock effect next))
    (held : w.free i lock = false) : w.turn i = w := by
  simp [turn, phase, held]

theorem turn_ret {result : α} (phase : w.phase i = .running atomic turns wrote (.ret result)) :
    w.turn i = { rows := wrote w.rows, holder := w.released i, phase := w.holds i (.returned result) } := by
  simp [turn, phase]

theorem turn_fail {error : ε} (phase : w.phase i = .running atomic turns wrote (.fail error)) :
    w.turn i = { w with holder := w.released i, phase := w.holds i (.failed error) } := by
  simp [turn, phase]

theorem turn_returned {result : α} (phase : w.phase i = .returned result) : w.turn i = w := by
  simp [turn, phase]

theorem turn_failed {error : ε} (phase : w.phase i = .failed error) : w.turn i = w := by
  simp [turn, phase]

end

end World

end Session

end OpenVibeHost
