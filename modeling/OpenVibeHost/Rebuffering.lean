import Mathlib.Data.List.Basic
import Mathlib.Data.Nat.Basic
import Mathlib.Tactic.Ring

/-! Bytes in fixed-size blocks. Numbers are written big-endian, and a stream in pieces is cut into
blocks again, where a block is taken as soon as more follows it: what is taken, and what is left
for the end, depends on the whole stream only and not on its pieces. -/
namespace OpenVibeHost.Rebuffering

/-! ### Numbers -/

/-- A number in `width` bytes, the highest first. -/
def bigEndian : Nat → Nat → List UInt8
  | 0, _ => []
  | width + 1, n => bigEndian width (n / 256) ++ [UInt8.ofNat (n % 256)]

/-- The number that bytes write. -/
def ofBigEndian (bytes : List UInt8) : Nat := bytes.foldl (fun n byte => 256 * n + byte.toNat) 0

@[simp] theorem length_bigEndian (width n : Nat) : (bigEndian width n).length = width := by
  induction width generalizing n with
  | zero => rfl
  | succ width ih => simp [bigEndian, ih]

theorem ofBigEndian_bigEndian (width n : Nat) : ofBigEndian (bigEndian width n) = n % 256 ^ width := by
  induction width generalizing n with
  | zero => simp [bigEndian, ofBigEndian, Nat.mod_one]
  | succ width ih =>
    have last : (UInt8.ofNat (n % 256)).toNat = n % 256 := by simp
    rw [bigEndian, ofBigEndian, List.foldl_append, ← ofBigEndian, ih, List.foldl_cons, List.foldl_nil, last,
      pow_succ, mul_comm (256 ^ width) 256, Nat.mod_mul]
    ring

theorem bigEndian_inj {width n m : Nat} (small : n < 256 ^ width) (small' : m < 256 ^ width)
    (same : bigEndian width n = bigEndian width m) : n = m := by
  have read := congrArg ofBigEndian same
  rwa [ofBigEndian_bigEndian, ofBigEndian_bigEndian, Nat.mod_eq_of_lt small, Nat.mod_eq_of_lt small'] at read

/-! ### Blocks -/

section
variable {α β σ : Type} {m : Type → Type} [Monad m]

/-- `while (buf.length > size)`: the blocks that more follows, each handed to `turn`; the state,
the rest and what the turns gave. -/
def drain (size : Nat) (turn : σ → List α → m (σ × List β)) (s : σ) (buf : List α) :
    m (σ × List α × List β) :=
  if size < buf.length ∧ 0 < size then do
    let (s', out) ← turn s (buf.take size)
    let (last, rest, more) ← drain size turn s' (buf.drop size)
    return (last, rest, out ++ more)
  else pure (s, buf, [])
termination_by buf.length
decreasing_by simp; omega

/-- One piece after another, from a buffer on. -/
def feed (size : Nat) (turn : σ → List α → m (σ × List β)) (s : σ) (buf : List α) :
    List (List α) → m (σ × List α × List β)
  | [] => pure (s, buf, [])
  | piece :: pieces => do
    let (s', rest, out) ← drain size turn s (buf ++ piece)
    let (last, left, more) ← feed size turn s' rest pieces
    return (last, left, out ++ more)

variable {size : Nat} {turn : σ → List α → m (σ × List β)}

theorem drain_short {s : σ} {buf : List α} (short : buf.length ≤ size) :
    drain size turn s buf = pure (s, buf, []) := by
  rw [drain, if_neg (by omega)]

theorem drain_long {s : σ} {buf : List α} (long : size < buf.length) (pos : 0 < size) :
    drain size turn s buf = (do
      let (s', out) ← turn s (buf.take size)
      let (last, rest, more) ← drain size turn s' (buf.drop size)
      return (last, rest, out ++ more)) := by
  rw [drain, if_pos ⟨long, pos⟩]

variable [LawfulMonad m]

/-- Draining may stop anywhere and go on with what is left and what comes. -/
theorem drain_append (pos : 0 < size) (s : σ) (buf more : List α) :
    drain size turn s (buf ++ more) = (do
      let (s', rest, out) ← drain size turn s buf
      let (last, left, after) ← drain size turn s' (rest ++ more)
      return (last, left, out ++ after)) := by
  induction bound : buf.length using Nat.strong_induction_on generalizing s buf with
  | _ n ih =>
    subst bound
    by_cases long : size < buf.length
    · have longer : size < (buf ++ more).length := by simp; omega
      have fewer : (buf.drop size).length < buf.length := by simp; omega
      have again := fun s' => ih _ fewer s' (buf.drop size) rfl
      rw [drain_long longer pos, drain_long long pos, List.take_append_of_le_length long.le,
        List.drop_append_of_le_length long.le]
      simp only [again, bind_assoc, pure_bind, List.append_assoc]
    · have short : drain size turn s buf = pure (s, buf, []) := drain_short (by omega)
      simp [short]

/-- Pieces after a buffer that was drained. -/
theorem drain_feed (pos : 0 < size) (s : σ) (buf : List α) (pieces : List (List α)) :
    (do
      let (s', rest, out) ← drain size turn s buf
      let (last, left, more) ← feed size turn s' rest pieces
      return (last, left, out ++ more)) = drain size turn s (buf ++ pieces.flatten) := by
  induction pieces generalizing s buf with
  | nil => simp [feed]
  | cons piece pieces ih =>
    rw [List.flatten_cons, ← List.append_assoc, ← ih s (buf ++ piece), drain_append pos s buf piece]
    simp [feed]

/-- The pieces of a stream do not matter. -/
theorem feed_eq_drain (pos : 0 < size) (s : σ) (pieces : List (List α)) :
    feed size turn s [] pieces = drain size turn s pieces.flatten := by
  have nothing : drain size turn s [] = pure (s, [], []) := drain_short (Nat.zero_le _)
  have fed := @drain_feed α β σ m _ size turn _ pos s [] pieces
  simpa [nothing] using fed

end

end OpenVibeHost.Rebuffering
