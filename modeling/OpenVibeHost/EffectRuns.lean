import OpenVibeHost.EffectLogic

/-! Runs of programs with the events that they made. Each construct has a rule that takes a run of it apart, so that a
program is followed call by call. -/
namespace OpenVibeHost.Effects

variable {S : Signature} {σ ε α β : Type}

namespace Program

/-- The world after a call. -/
def called (env : Environment S) (call : S.Call) (w : World S σ) : World S σ :=
  let clock := w.clock + max (S.least call) (env.takes w.trace call)
  { w with clock, trace := w.trace ++ [⟨call, env.answer w.trace call, clock⟩] }

/-- The event of a call. -/
def eventOf (env : Environment S) (call : S.Call) (w : World S σ) : Event S :=
  ⟨call, env.answer w.trace call, w.clock + max (S.least call) (env.takes w.trace call)⟩

/-- From `w` the program ends with `result` in `final`, and `made` is what it did. -/
structure Goes (env : Environment S) (p : Program S σ ε α) (w : World S σ) (result : Except ε α)
    (made : List (Event S)) (final : World S σ) : Prop where
  ran : p.run env w = (result, final)
  trace : final.trace = w.trace ++ made

variable {env : Environment S} {w final : World S σ} {made : List (Event S)} {call : S.Call}

theorem goes (env : Environment S) (p : Program S σ ε α) (w : World S σ) :
    ∃ result made final, Goes env p w result made final := by
  obtain ⟨made, trace⟩ := (p.onward env w).2
  exact ⟨_, made, _, rfl, trace.symm⟩

theorem Goes.onward {p : Program S σ ε α} {result : Except ε α} (run : Goes env p w result made final) :
    w.clock ≤ final.clock := by
  have later := (p.onward env w).1
  rwa [run.ran] at later

theorem Goes.ends {p : Program S σ ε α} {result : Except ε α} {pre : World S σ → Prop} {ok : α → World S σ → Prop}
    {err : ε → World S σ → Prop} (run : Goes env p w result made final) (meets : Meets env pre p ok err) (start : pre w) :
    Ends ok err (result, final) := run.ran ▸ meets w start

theorem Goes.emitted {p : Program S σ ε α} {result : Except ε α} {calls : S.Call → Bool}
    (run : Goes env p w result made final) (emits : Emits calls p) : ∀ event ∈ made, calls event.call = true := by
  obtain ⟨more, trace, all⟩ := emits env w
  rw [run.ran, run.trace] at trace
  obtain rfl := List.append_cancel_left trace
  exact all

theorem goes_pure {a : α} {result : Except ε α} :
    Goes env (pure a : Program S σ ε α) w result made final ↔ result = .ok a ∧ made = [] ∧ final = w := by
  constructor
  · rintro ⟨ran, trace⟩
    obtain ⟨rfl, rfl⟩ := Prod.mk.inj ran
    exact ⟨rfl, List.append_right_eq_self.mp trace.symm, rfl⟩
  · rintro ⟨rfl, rfl, rfl⟩
    exact ⟨rfl, (List.append_nil _).symm⟩

theorem goes_throw {e : ε} {result : Except ε α} :
    Goes env (throw e : Program S σ ε α) w result made final ↔ result = .error e ∧ made = [] ∧ final = w := by
  constructor
  · rintro ⟨ran, trace⟩
    obtain ⟨rfl, rfl⟩ := Prod.mk.inj ran
    exact ⟨rfl, List.append_right_eq_self.mp trace.symm, rfl⟩
  · rintro ⟨rfl, rfl, rfl⟩
    exact ⟨rfl, (List.append_nil _).symm⟩

theorem goes_ask {read : S.Answer call → α} {result : Except ε α} :
    Goes env (ask call read : Program S σ ε α) w result made final ↔
      result = .ok (read (env.answer w.trace call)) ∧ made = [eventOf env call w] ∧ final = called env call w := by
  constructor
  · rintro ⟨ran, trace⟩
    obtain ⟨rfl, rfl⟩ := Prod.mk.inj ran
    exact ⟨rfl, (List.append_cancel_left trace).symm, rfl⟩
  · rintro ⟨rfl, rfl, rfl⟩
    exact ⟨rfl, rfl⟩

/-- A run of two programs ends where the first throws, or goes on with its answer. -/
theorem goes_bind {p : Program S σ ε α} {f : α → Program S σ ε β} {result : Except ε β} :
    Goes env (p >>= f) w result made final ↔
      (∃ e, Goes env p w (.error e) made final ∧ result = .error e) ∨
      ∃ a first mid rest, Goes env p w (.ok a) first mid ∧ Goes env (f a) mid result rest final ∧
        made = first ++ rest := by
  constructor
  · rintro ⟨ran, trace⟩
    rcases run_bind ran with ⟨e, failed, rfl⟩ | ⟨a, mid, first, second⟩
    · exact .inl ⟨e, ⟨failed, trace⟩, rfl⟩
    · obtain ⟨one, before⟩ := (p.onward env w).2
      obtain ⟨two, after⟩ := ((f a).onward env mid).2
      rw [first] at before
      rw [second] at after
      have whole : w.trace ++ made = w.trace ++ (one ++ two) := by
        rw [← trace, ← List.append_assoc, before, after]
      exact .inr ⟨a, one, mid, two, ⟨first, before.symm⟩, ⟨second, after.symm⟩, List.append_cancel_left whole⟩
  · rintro (⟨e, ⟨ran, trace⟩, rfl⟩ | ⟨a, first, mid, rest, ⟨ran, before⟩, ⟨ran', after⟩, rfl⟩)
    · exact ⟨run_andThen_error ran, trace⟩
    · exact ⟨(run_andThen_ok ran).trans ran', by rw [after, before, List.append_assoc]⟩

theorem goes_now_bind {f : Nat → Program S σ ε β} {result : Except ε β} :
    Goes env (now >>= f) w result made final ↔ Goes env (f w.clock) w result made final :=
  ⟨fun run => ⟨run.ran, run.trace⟩, fun run => ⟨run.ran, run.trace⟩⟩

theorem goes_ask_bind {read : S.Answer call → α} {f : α → Program S σ ε β} {result : Except ε β} :
    Goes env (ask call read >>= f) w result made final ↔
      ∃ rest, Goes env (f (read (env.answer w.trace call))) (called env call w) result rest final ∧
        made = eventOf env call w :: rest := by
  rw [goes_bind]
  constructor
  · rintro (⟨e, failed, _⟩ | ⟨a, first, mid, rest, one, two, rfl⟩)
    · obtain ⟨no, _⟩ := goes_ask.mp failed
      cases no
    · obtain ⟨same, rfl, rfl⟩ := goes_ask.mp one
      cases same
      exact ⟨rest, two, rfl⟩
  · rintro ⟨rest, run, rfl⟩
    exact .inr ⟨_, _, _, rest, goes_ask.mpr ⟨rfl, rfl, rfl⟩, run, rfl⟩

end Program

end OpenVibeHost.Effects
