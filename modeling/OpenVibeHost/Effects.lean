import Mathlib.Data.List.Basic
import Mathlib.Logic.Basic

/-! Programs that call the outside world. A program has a state of its own, may
throw, and performs calls whose answers an environment chooses, freely, from
all that was done before. Every call and its answer is kept in a trace, and
every call takes time. Claims about a program are claims about all environments:
every pattern of failures, answers and delays is one. -/
namespace OpenVibeHost.Effects

/-- The calls a program can make, what each answers, and the least time it takes. -/
structure Signature where
  Call : Type
  Answer : Call → Type
  least : Call → Nat

/-- A call, its answer, and what the clock read when it came. -/
structure Event (S : Signature) where
  call : S.Call
  answer : S.Answer call
  clock : Nat

/-- Whatever answers the calls. -/
structure Environment (S : Signature) where
  answer : List (Event S) → (call : S.Call) → S.Answer call
  takes : List (Event S) → S.Call → Nat

structure World (S : Signature) (σ : Type) where
  own : σ
  clock : Nat
  trace : List (Event S)

/-- A program moves the clock and the trace onward only. -/
structure Program (S : Signature) (σ ε α : Type) where
  run : Environment S → World S σ → Except ε α × World S σ
  onward : ∀ env w, w.clock ≤ (run env w).2.clock ∧ w.trace <+: (run env w).2.trace

variable {S : Signature} {σ τ ε δ α β : Type}

namespace Program

theorem ext {p q : Program S σ ε α} (same : ∀ env w, p.run env w = q.run env w) : p = q := by
  cases p
  cases q
  congr
  funext env w
  exact same env w

/-! ### Building programs -/

def ret (a : α) : Program S σ ε α where
  run _ w := (.ok a, w)
  onward _ _ := ⟨Nat.le_refl _, List.prefix_rfl⟩

def andThen (p : Program S σ ε α) (f : α → Program S σ ε β) : Program S σ ε β where
  run env w :=
    match p.run env w with
    | (.ok a, next) => (f a).run env next
    | (.error e, next) => (.error e, next)
  onward env w := by
    obtain ⟨later, extends'⟩ := p.onward env w
    split <;> rename_i next ran <;> rw [ran] at later extends'
    · obtain ⟨later', extends''⟩ := (f _).onward env next
      exact ⟨Nat.le_trans later later', extends'.trans extends''⟩
    · exact ⟨later, extends'⟩

instance : Monad (Program S σ ε) where
  pure := ret
  bind := andThen

def throw (e : ε) : Program S σ ε α where
  run _ w := (.error e, w)
  onward _ _ := ⟨Nat.le_refl _, List.prefix_rfl⟩

/-- `try … catch`. -/
def attempt (p : Program S σ ε α) (handler : ε → Program S σ ε α) : Program S σ ε α where
  run env w :=
    match p.run env w with
    | (.ok a, next) => (.ok a, next)
    | (.error e, next) => (handler e).run env next
  onward env w := by
    obtain ⟨later, extends'⟩ := p.onward env w
    split <;> rename_i next ran <;> rw [ran] at later extends'
    · exact ⟨later, extends'⟩
    · obtain ⟨later', extends''⟩ := (handler _).onward env next
      exact ⟨Nat.le_trans later later', extends'.trans extends''⟩

/-- `try … finally`: what `last` throws replaces what `p` answered or threw. -/
def ensure (p : Program S σ ε α) (last : Program S σ ε Unit) : Program S σ ε α where
  run env w :=
    match p.run env w with
    | (result, next) =>
      match last.run env next with
      | (.ok (), final) => (result, final)
      | (.error e, final) => (.error e, final)
  onward env w := by
    obtain ⟨later, extends'⟩ := p.onward env w
    obtain ⟨later', extends''⟩ := last.onward env (p.run env w).2
    dsimp only
    split <;> rename_i final ran <;> rw [ran] at later' extends'' <;>
      exact ⟨Nat.le_trans later later', extends'.trans extends''⟩

/-- Makes a call, and reads its answer. -/
def ask (call : S.Call) (read : S.Answer call → α) : Program S σ ε α where
  run env w :=
    let answer := env.answer w.trace call
    let clock := w.clock + max (S.least call) (env.takes w.trace call)
    (.ok (read answer), { w with clock, trace := w.trace ++ [⟨call, answer, clock⟩] })
  onward _ _ := ⟨Nat.le_add_right _ _, List.prefix_append _ _⟩

def now : Program S σ ε Nat where
  run _ w := (.ok w.clock, w)
  onward _ _ := ⟨Nat.le_refl _, List.prefix_rfl⟩

def own : Program S σ ε σ where
  run _ w := (.ok w.own, w)
  onward _ _ := ⟨Nat.le_refl _, List.prefix_rfl⟩

def update (f : σ → σ) : Program S σ ε Unit where
  run _ w := (.ok (), { w with own := f w.own })
  onward _ _ := ⟨Nat.le_refl _, List.prefix_rfl⟩

/-- A program without a state of its own, run beside one. -/
def beside (p : Program S Unit ε α) : Program S σ ε α where
  run env w :=
    match p.run env ⟨(), w.clock, w.trace⟩ with
    | (result, next) => (result, ⟨w.own, next.clock, next.trace⟩)
  onward env w := p.onward env ⟨(), w.clock, w.trace⟩

instance : MonadLift (Program S Unit ε) (Program S σ ε) := ⟨beside⟩

/-- A program with a state of its own, run inside one; it answers its last state too. -/
def within (start : τ) (p : Program S τ ε α) : Program S σ ε (α × τ) where
  run env w :=
    match p.run env ⟨start, w.clock, w.trace⟩ with
    | (.ok a, next) => (.ok (a, next.own), ⟨w.own, next.clock, next.trace⟩)
    | (.error e, next) => (.error e, ⟨w.own, next.clock, next.trace⟩)
  onward env w := by
    have moves := p.onward env ⟨start, w.clock, w.trace⟩
    split <;> rename_i next ran <;> rw [ran] at moves <;> exact moves

/-- What an expression with an error answers. -/
def orThrow (result : Except ε α) : Program S σ ε α :=
  match result with
  | .ok a => ret a
  | .error e => throw e

/-- Runs under a condition. -/
def whenever (condition : Prop) [Decidable condition] (p : Program S σ ε Unit) :
    Program S σ ε Unit :=
  if condition then p else ret ()

def forEach (items : List α) (turn : α → Program S σ ε Unit) : Program S σ ε Unit :=
  match items with
  | [] => ret ()
  | item :: rest => andThen (turn item) fun _ => forEach rest turn

/-- A loop that carries a value. -/
def fold (items : List α) (start : β) (turn : β → α → Program S σ ε β) : Program S σ ε β :=
  match items with
  | [] => ret start
  | item :: rest => andThen (turn start item) fun next => fold rest next turn

/-- A loop that stops at the first turn with an answer. -/
def firstOf (items : List α) (turn : α → Program S σ ε (Option β)) : Program S σ ε (Option β) :=
  match items with
  | [] => ret none
  | item :: rest => andThen (turn item) fun
    | some found => ret (some found)
    | none => firstOf rest turn

/-- A loop that carries a value until a turn has an answer; it answers the value
carried when `fuel` turns had none (`loop_answers` says when there are enough). -/
def loop (turn : β → Program S σ ε (β ⊕ α)) : Nat → β → Program S σ ε (β ⊕ α)
  | 0, carried => ret (.inl carried)
  | fuel + 1, carried => andThen (turn carried) fun
    | .inl next => loop turn fuel next
    | .inr found => ret (.inr found)

/-- One turn of `whileWithin`. -/
def timed (start limit : Nat) (turn : β → Program S σ ε (β ⊕ α)) (carried : β) :
    Program S σ ε (β ⊕ (β ⊕ α)) :=
  andThen now fun t =>
    if t - start < limit then
      andThen (turn carried) fun
        | .inl next => ret (.inl next)
        | .inr found => ret (.inr (.inr found))
    else ret (.inr (.inl carried))

/-- `while (now - start < limit)`, with a `return` in the loop. -/
def whileWithin (start limit : Nat) (turn : β → Program S σ ε (β ⊕ α)) (carried : β) :
    Program S σ ε (β ⊕ α) :=
  andThen (loop (timed start limit turn) (limit + 1) carried) fun
    | .inl last => ret (.inl last)
    | .inr ended => ret ended

/-! ### What each construct does -/

theorem pure_eq (a : α) : (pure a : Program S σ ε α) = ret a := rfl

theorem bind_eq (p : Program S σ ε α) (f : α → Program S σ ε β) : p >>= f = andThen p f := rfl

@[simp] theorem throw_bind (e : ε) (f : α → Program S σ ε β) :
    (throw e : Program S σ ε α) >>= f = throw e := rfl

theorem liftM_eq (p : Program S Unit ε α) : (liftM p : Program S σ ε α) = beside p := rfl

@[simp] theorem run_ret (env : Environment S) (w : World S σ) (a : α) :
    (ret a : Program S σ ε α).run env w = (.ok a, w) := rfl

@[simp] theorem run_throw (env : Environment S) (w : World S σ) (e : ε) :
    (throw e : Program S σ ε α).run env w = (.error e, w) := rfl

@[simp] theorem run_now (env : Environment S) (w : World S σ) :
    (now : Program S σ ε Nat).run env w = (.ok w.clock, w) := rfl

@[simp] theorem run_own (env : Environment S) (w : World S σ) :
    (own : Program S σ ε σ).run env w = (.ok w.own, w) := rfl

@[simp] theorem run_update (env : Environment S) (w : World S σ) (f : σ → σ) :
    (update f : Program S σ ε Unit).run env w = (.ok (), { w with own := f w.own }) := rfl

theorem run_andThen_ok {p : Program S σ ε α} {f : α → Program S σ ε β} {env : Environment S}
    {w next : World S σ} {a : α} (ran : p.run env w = (.ok a, next)) :
    (andThen p f).run env w = (f a).run env next := by
  simp [andThen, ran]

/-- A run of two programs that ends well is a run of each. -/
theorem run_bind_ok {p : Program S σ ε α} {f : α → Program S σ ε β} {env : Environment S}
    {w final : World S σ} {b : β} :
    (p >>= f).run env w = (.ok b, final) ↔
      ∃ a next, p.run env w = (.ok a, next) ∧ (f a).run env next = (.ok b, final) := by
  rw [bind_eq]
  cases ran : p.run env w with
  | mk result next =>
    cases result with
    | ok a => simp [andThen, ran]
    | error e => simp [andThen, ran]

/-- A run of two programs ends where the first throws, or goes on with its answer. -/
theorem run_bind {p : Program S σ ε α} {f : α → Program S σ ε β} {env : Environment S}
    {w final : World S σ} {result : Except ε β} (ran : (p >>= f).run env w = (result, final)) :
    (∃ e, p.run env w = (.error e, final) ∧ result = .error e) ∨
      ∃ a next, p.run env w = (.ok a, next) ∧ (f a).run env next = (result, final) := by
  rw [bind_eq] at ran
  cases first : p.run env w with
  | mk answer next =>
    cases answer with
    | ok a => exact .inr ⟨a, next, rfl, by simpa [andThen, first] using ran⟩
    | error e =>
      simp only [andThen, first, Prod.mk.injEq] at ran
      exact .inl ⟨e, by rw [ran.2], ran.1.symm⟩

/-- A run without a state of its own, beside one. -/
theorem run_liftM {p : Program S Unit ε α} {env : Environment S} {w final : World S σ}
    {result : Except ε α} (ran : (liftM p : Program S σ ε α).run env w = (result, final)) :
    ∃ last, p.run env ⟨(), w.clock, w.trace⟩ = (result, last) ∧ final.own = w.own ∧
      final.clock = last.clock ∧ final.trace = last.trace := by
  obtain ⟨rfl, rfl⟩ := Prod.mk.inj ran
  exact ⟨_, rfl, rfl, rfl, rfl⟩

theorem run_attempt {p : Program S σ ε α} {handler : ε → Program S σ ε α} {env : Environment S}
    {w final : World S σ} {result : Except ε α}
    (ran : (attempt p handler).run env w = (result, final)) :
    (∃ a, p.run env w = (.ok a, final) ∧ result = .ok a) ∨
      ∃ e next, p.run env w = (.error e, next) ∧ (handler e).run env next = (result, final) := by
  cases first : p.run env w with
  | mk answer next =>
    cases answer with
    | ok a =>
      simp only [attempt, first, Prod.mk.injEq] at ran
      exact .inl ⟨a, by rw [ran.2], ran.1.symm⟩
    | error e => exact .inr ⟨e, next, rfl, by simpa [attempt, first] using ran⟩

theorem run_ensure {p : Program S σ ε α} {last : Program S σ ε Unit} {env : Environment S}
    {w final : World S σ} {result : Except ε α} (ran : (ensure p last).run env w = (result, final)) :
    ∃ r next, p.run env w = (r, next) ∧
      ((last.run env next = (.ok (), final) ∧ result = r) ∨
        ∃ e, last.run env next = (.error e, final) ∧ result = .error e) := by
  refine ⟨_, _, rfl, ?_⟩
  have runs : (ensure p last).run env w = match last.run env (p.run env w).2 with
    | (.ok (), final) => ((p.run env w).1, final)
    | (.error e, final) => (.error e, final) := rfl
  rw [runs] at ran
  split at ran <;> rename_i after <;> obtain ⟨rfl, rfl⟩ := Prod.mk.inj ran
  · exact .inl ⟨after, rfl⟩
  · exact .inr ⟨_, after, rfl⟩

theorem run_firstOf_some {item : α} {rest : List α} {turn : α → Program S σ ε (Option β)}
    {env : Environment S} {w next : World S σ} {b : β}
    (ran : (turn item).run env w = (.ok (some b), next)) :
    (firstOf (item :: rest) turn).run env w = (.ok (some b), next) := by
  rw [firstOf, run_andThen_ok ran]
  rfl

theorem run_firstOf_none {item : α} {rest : List α} {turn : α → Program S σ ε (Option β)}
    {env : Environment S} {w next : World S σ} (ran : (turn item).run env w = (.ok none, next)) :
    (firstOf (item :: rest) turn).run env w = (firstOf rest turn).run env next := by
  rw [firstOf, run_andThen_ok ran]

theorem run_andThen_error {p : Program S σ ε α} {f : α → Program S σ ε β} {env : Environment S}
    {w next : World S σ} {e : ε} (ran : p.run env w = (.error e, next)) :
    (andThen p f).run env w = (.error e, next) := by
  simp [andThen, ran]

instance : LawfulMonad (Program S σ ε) := by
  refine LawfulMonad.mk' _ (fun p => ext fun env w => ?_) (fun _ _ => rfl)
    fun p f g => ext fun env w => ?_
  · simp only [Functor.map, andThen]
    split <;> simp_all
  · simp only [bind_eq, andThen]
    rcases p.run env w with ⟨_ | _, _⟩ <;> rfl

/-- A call whose answer may be a failure, with what stands for it then. -/
theorem attempt_ask {call : S.Call} {read : S.Answer call → α} {failed : α → Prop}
    [DecidablePred failed] {error : α → ε} {f : α → β} {b : β} :
    attempt (ask call read >>= fun a => if failed a then throw (error a) else pure (f a))
        (fun _ => pure b) =
      (ask call fun answer => if failed (read answer) then b else f (read answer) :
        Program S σ ε β) := by
  refine ext fun env w => ?_
  by_cases wrong : failed (read (env.answer w.trace call)) <;>
    simp [attempt, andThen, ask, bind_eq, pure_eq, wrong]

/-- A turn without an answer takes time, and there is none once `deadline` is past. -/
def Settles (deadline : Nat) (turn : β → Program S σ ε (β ⊕ α)) : Prop :=
  ∀ env w carried next, ((turn carried).run env w).1 = .ok (.inl next) →
    w.clock < deadline ∧ w.clock < ((turn carried).run env w).2.clock

/-- With a turn for every millisecond up to the deadline, a loop does not run out. -/
theorem loop_answers {deadline : Nat} {turn : β → Program S σ ε (β ⊕ α)}
    (settles : Settles deadline turn) {env : Environment S} (fuel : Nat) {w : World S σ}
    (carried last : β) (enough : deadline ≤ w.clock + fuel) :
    ((loop turn (fuel + 1) carried).run env w).1 ≠ .ok (.inl last) := by
  induction fuel generalizing w carried with
  | zero =>
    intro out
    rw [loop] at out
    cases ran : (turn carried).run env w with
    | mk result after =>
      cases result with
      | error e => simp [run_andThen_error ran] at out
      | ok answer =>
        rw [run_andThen_ok ran] at out
        cases answer with
        | inr found => cases out
        | inl next =>
          have early := (settles env w carried next (by rw [ran])).1
          omega
  | succ fuel ih =>
    intro out
    rw [loop] at out
    cases ran : (turn carried).run env w with
    | mk result after =>
      cases result with
      | error e => simp [run_andThen_error ran] at out
      | ok answer =>
        rw [run_andThen_ok ran] at out
        cases answer with
        | inr found => cases out
        | inl next =>
          have later := (settles env w carried next (by rw [ran])).2
          rw [ran] at later
          exact ih next (by simp only at later; omega) out

end Program

end OpenVibeHost.Effects
