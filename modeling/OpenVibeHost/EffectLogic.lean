import OpenVibeHost.EffectFrames

/-! What holds before and after a program: `Meets`, with a rule for each construct. `Since`
states what the events since some point are, and `Each` what held whenever a call of a
kind was made. -/
namespace OpenVibeHost.Effects

variable {S : Signature} {σ τ ε δ α β : Type}

namespace Program

/-! ### Before and after -/

variable {env : Environment S} {pre : World S σ → Prop}

/-- How a run may end: with an answer, or with an error. -/
def Ends (ok : α → World S σ → Prop) (err : ε → World S σ → Prop) : Except ε α × World S σ → Prop
  | (.ok a, w) => ok a w
  | (.error e, w) => err e w

/-- From a world that meets `pre`, the program ends as `ok` and `err` say. -/
def Meets (env : Environment S) (pre : World S σ → Prop) (p : Program S σ ε α)
    (ok : α → World S σ → Prop) (err : ε → World S σ → Prop) : Prop :=
  ∀ w, pre w → Ends ok err (p.run env w)

section Meets
variable {ok : α → World S σ → Prop} {err : ε → World S σ → Prop}

theorem Ends.mono {ok' : α → World S σ → Prop} {err' : ε → World S σ → Prop}
    {end' : Except ε α × World S σ} (ends : Ends ok' err' end') (good : ∀ a w, ok' a w → ok a w)
    (bad : ∀ e w, err' e w → err e w) : Ends ok err end' := by
  obtain ⟨a | e, w⟩ := end'
  · exact bad _ _ ends
  · exact good _ _ ends

/-- What holds however a run ends. -/
theorem Ends.always {holds : World S σ → Prop} {end' : Except ε α × World S σ}
    (ends : Ends (fun _ => holds) (fun _ => holds) end') : holds end'.2 := by
  obtain ⟨a | e, w⟩ := end' <;> exact ends

theorem Meets.weaken {pre' : World S σ → Prop} {ok' : α → World S σ → Prop}
    {err' : ε → World S σ → Prop} {p : Program S σ ε α} (meets : Meets env pre' p ok' err')
    (first : ∀ w, pre w → pre' w) (good : ∀ a w, ok' a w → ok a w)
    (bad : ∀ e w, err' e w → err e w) : Meets env pre p ok err :=
  fun w start => (meets w (first w start)).mono good bad

theorem Meets.and {ok' : α → World S σ → Prop} {err' : ε → World S σ → Prop} {p : Program S σ ε α}
    (meets : Meets env pre p ok err) (meets' : Meets env pre p ok' err') :
    Meets env pre p (fun a w => ok a w ∧ ok' a w) (fun e w => err e w ∧ err' e w) := by
  intro w start
  have ended := meets w start
  have ended' := meets' w start
  cases ran : p.run env w with
  | mk result next =>
    rw [ran] at ended ended'
    cases result <;> exact ⟨ended, ended'⟩

theorem meets_anyhow (p : Program S σ ε α) : Meets env pre p (fun _ _ => True) (fun _ _ => True) := by
  intro w _
  cases p.run env w with
  | mk result next => cases result <;> trivial

/-- What follows from the world before may be used. -/
theorem meets_given {p : Program S σ ε α} {F : Prop} (known : ∀ w, pre w → F)
    (meets : F → Meets env pre p ok err) : Meets env pre p ok err :=
  fun w start => meets (known w start) w start

/-- What never starts meets anything. -/
theorem meets_absurd {p : Program S σ ε α} : Meets env (fun _ => False) p ok err := fun _ no => no.elim

theorem meets_ret {a : α} (done : ∀ w, pre w → ok a w) :
    Meets env pre (ret a : Program S σ ε α) ok err := done

theorem meets_pure {a : α} (done : ∀ w, pre w → ok a w) :
    Meets env pre (pure a : Program S σ ε α) ok err := done

theorem meets_throw {e : ε} (done : ∀ w, pre w → err e w) :
    Meets env pre (throw e : Program S σ ε α) ok err := done

theorem meets_now {ok : Nat → World S σ → Prop} (done : ∀ w, pre w → ok w.clock w) :
    Meets env pre (now : Program S σ ε Nat) ok err := done

theorem meets_update {f : σ → σ} {ok : Unit → World S σ → Prop}
    (done : ∀ w, pre w → ok () { w with own := f w.own }) :
    Meets env pre (update f : Program S σ ε Unit) ok err := done

theorem meets_andThen {p : Program S σ ε α} {f : α → Program S σ ε β}
    {M : α → World S σ → Prop} {ok : β → World S σ → Prop}
    (first : Meets env pre p M err) (second : ∀ a, Meets env (M a) (f a) ok err) :
    Meets env pre (andThen p f) ok err := by
  intro w start
  have reached := first w start
  cases ran : p.run env w with
  | mk result next =>
    rw [ran] at reached
    cases result with
    | ok a => exact run_andThen_ok ran ▸ second a next reached
    | error e => exact run_andThen_error ran ▸ reached

theorem meets_bind {p : Program S σ ε α} {f : α → Program S σ ε β}
    {M : α → World S σ → Prop} {ok : β → World S σ → Prop}
    (first : Meets env pre p M err) (second : ∀ a, Meets env (M a) (f a) ok err) :
    Meets env pre (p >>= f) ok err := meets_andThen first second

theorem meets_map {f : α → β} {p : Program S σ ε α} {ok : β → World S σ → Prop}
    (meets : Meets env pre p (fun a => ok (f a)) err) : Meets env pre (f <$> p) ok err :=
  meets_andThen meets fun _ => meets_ret fun _ => id

theorem meets_attempt {p : Program S σ ε α} {handler : ε → Program S σ ε α}
    {T : ε → World S σ → Prop} (first : Meets env pre p ok T)
    (second : ∀ e, Meets env (T e) (handler e) ok err) :
    Meets env pre (attempt p handler) ok err := by
  intro w start
  have reached := first w start
  cases ran : p.run env w with
  | mk result next =>
    rw [ran] at reached
    cases result with
    | ok a => simpa [attempt, ran, Ends] using reached
    | error e => simpa [attempt, ran] using second e next reached

theorem meets_ensure {p : Program S σ ε α} {last : Program S σ ε Unit}
    {good : α → World S σ → Prop} {bad : ε → World S σ → Prop} (first : Meets env pre p good bad)
    (returned : ∀ a, Meets env (good a) last (fun _ => ok a) err)
    (thrown : ∀ e, Meets env (bad e) last (fun _ => err e) err) :
    Meets env pre (ensure p last) ok err := by
  intro w start
  have reached := first w start
  cases ran : (ensure p last).run env w with
  | mk result final =>
    obtain ⟨r, next, tried, ⟨settled, rfl⟩ | ⟨e, failed, rfl⟩⟩ := run_ensure ran
    · rw [tried] at reached
      cases result with
      | ok a =>
        have ended := returned a next reached
        rwa [settled] at ended
      | error e =>
        have ended := thrown e next reached
        rwa [settled] at ended
    · rw [tried] at reached
      cases r with
      | ok a =>
        have ended := returned a next reached
        rwa [failed] at ended
      | error e' =>
        have ended := thrown e' next reached
        rwa [failed] at ended

theorem meets_whenever {condition : Prop} [Decidable condition] {p : Program S σ ε Unit}
    {ok : Unit → World S σ → Prop} (runs : condition → Meets env pre p ok err)
    (skips : ¬ condition → ∀ w, pre w → ok () w) : Meets env pre (whenever condition p) ok err := by
  unfold whenever
  split
  · exact runs ‹_›
  · exact skips ‹_›

theorem meets_ite {condition : Prop} [Decidable condition] {p q : Program S σ ε α}
    (runs : condition → Meets env pre p ok err) (other : ¬ condition → Meets env pre q ok err) :
    Meets env pre (if condition then p else q) ok err := by
  split
  · exact runs ‹_›
  · exact other ‹_›

theorem meets_forEach {items : List α} {turn : α → Program S σ ε Unit} {inv : World S σ → Prop}
    (each : ∀ item ∈ items, Meets env inv (turn item) (fun _ => inv) err) :
    Meets env inv (forEach items turn) (fun _ => inv) err := by
  induction items with
  | nil => exact fun _ start => start
  | cons item rest ih =>
    exact meets_andThen (each item List.mem_cons_self)
      fun _ => ih fun later member => each later (List.mem_cons_of_mem _ member)

theorem meets_fold {items : List α} {b : β} {turn : β → α → Program S σ ε β}
    {I : β → World S σ → Prop}
    (each : ∀ carried, ∀ item ∈ items, Meets env (I carried) (turn carried item) I err) :
    Meets env (I b) (fold items b turn) I err := by
  induction items generalizing b with
  | nil => exact fun _ begins => begins
  | cons item rest ih =>
    exact meets_andThen (each b item List.mem_cons_self)
      fun next => ih fun carried later member => each carried later (List.mem_cons_of_mem _ member)

/-- A loop, with what holds of the items before and after the one it is at. -/
theorem meets_fold_split {items : List α} {b : β} {turn : β → α → Program S σ ε β}
    {I : List α → β → World S σ → Prop}
    (each : ∀ done item rest carried, items = done ++ item :: rest →
      Meets env (I done carried) (turn carried item) (I (done ++ [item])) err) :
    Meets env (I [] b) (fold items b turn) (I items) err := by
  have go : ∀ (rest done : List α) (carried : β), items = done ++ rest →
      Meets env (I done carried) (fold rest carried turn) (I (done ++ rest)) err := by
    intro rest
    induction rest with
    | nil => exact fun done carried _ w begins => by rwa [List.append_nil]
    | cons item rest ih =>
      intro done carried whole
      refine meets_andThen (each done item rest carried whole) fun next => ?_
      have onward := ih (done ++ [item]) next (by simp [whole])
      rwa [List.append_assoc] at onward
  exact go items [] b rfl

/-- A loop, with what holds of the items it is through with. -/
theorem meets_fold_upto {items : List α} {b : β} {turn : β → α → Program S σ ε β}
    {I : List α → β → World S σ → Prop}
    (each : ∀ done item carried, item ∈ items →
      Meets env (I done carried) (turn carried item) (I (done ++ [item])) err) :
    Meets env (I [] b) (fold items b turn) (I items) err :=
  meets_fold_split fun done item _ carried whole => each done item carried (by simp [whole])

/-- A loop without a value, with what holds of the items it is through with. -/
theorem meets_forEach_upto {items : List α} {turn : α → Program S σ ε Unit} {I : List α → World S σ → Prop}
    (each : ∀ done, ∀ item ∈ items, Meets env (I done) (turn item) (fun _ => I (done ++ [item])) err) :
    Meets env (I []) (forEach items turn) (fun _ => I items) err := by
  have go : ∀ (rest done : List α), (∀ item ∈ rest, item ∈ items) →
      Meets env (I done) (forEach rest turn) (fun _ => I (done ++ rest)) err := by
    intro rest
    induction rest with
    | nil => exact fun done _ w begins => by rwa [List.append_nil]
    | cons item rest ih =>
      intro done within
      refine meets_andThen (each done item (within item List.mem_cons_self)) fun _ => ?_
      have onward := ih (done ++ [item]) fun later member => within later (List.mem_cons_of_mem _ member)
      rwa [List.append_assoc] at onward
  exact go items [] fun _ member => member

/-- A loop against the clock keeps of the value it carries what each of its turns keeps. -/
theorem meets_whileWithin_carried {start limit : Nat} {turn : β → Program S σ ε (β ⊕ α)} {carried : β}
    {I : β → World S σ → Prop} {ok : α → World S σ → Prop}
    (each : ∀ b, Meets env (I b) (turn b) (Sum.elim I ok) err) :
    Meets env (I carried) (whileWithin start limit turn carried) (Sum.elim I ok) err := by
  have loops (fuel : Nat) (carried : β) : Meets env (I carried)
      (loop (timed start limit turn) fuel carried) (Sum.elim I (Sum.elim I ok)) err := by
    induction fuel generalizing carried with
    | zero => exact meets_ret fun _ => id
    | succ fuel ih =>
      refine meets_andThen (M := Sum.elim I (Sum.elim I ok)) ?_ fun answer => ?_
      · refine meets_andThen (M := fun _ => I carried) (meets_now fun _ => id) fun t => ?_
        split
        · refine meets_andThen (each carried) fun answer => ?_
          cases answer <;> exact meets_ret fun _ => id
        · exact meets_ret fun _ => id
      · cases answer with
        | inl next => exact ih next
        | inr found => exact meets_ret fun _ => id
  refine meets_andThen (loops _ _) fun ended => ?_
  cases ended <;> exact meets_ret fun _ => id

/-- How a turn of a loop ends: it goes on, or it has an answer. -/
def Turned (I : World S σ → Prop) (ok : α → World S σ → Prop) : β ⊕ α → World S σ → Prop
  | .inl _, w => I w
  | .inr a, w => ok a w

/-- A loop against the clock keeps what each of its turns keeps. -/
theorem meets_whileWithin {start limit : Nat} {turn : β → Program S σ ε (β ⊕ α)} {carried : β}
    {I : World S σ → Prop} {ok : α → World S σ → Prop}
    (each : ∀ b, Meets env I (turn b) (Turned I ok) err) :
    Meets env I (whileWithin start limit turn carried) (Turned I ok) err := by
  have turned (ended : β ⊕ α) (w : World S σ) : Sum.elim (fun _ => I) ok ended w ↔ Turned I ok ended w := by
    cases ended <;> exact Iff.rfl
  have loops := @meets_whileWithin_carried S σ ε α β env err start limit turn carried (fun _ => I) ok
    fun b => (each b).weaken (fun _ => id) (fun ended w => (turned ended w).mpr) fun _ _ => id
  exact loops.weaken (fun _ => id) (fun ended w => (turned ended w).mp) fun _ _ => id

/-- What no further call of a kind can undo, while `view` of the state stays. -/
def Stable (calls : S.Call → Bool) (view : σ → τ) (holds : World S σ → Prop) : Prop :=
  ∀ w w', holds w → view w'.own = view w.own →
    (∃ more, w'.trace = w.trace ++ more ∧ ∀ event ∈ more, calls event.call = true) → holds w'

/-- A program with a footprint keeps what its calls cannot undo. -/
theorem Emits.meets {calls : S.Call → Bool} {view : σ → τ} {p : Program S σ ε α}
    (emits : Emits calls p) (keeps : Keeps view p) (stable : Stable calls view pre) :
    Meets env pre p (fun _ => pre) (fun _ => pre) := by
  intro w start
  have after := stable w (p.run env w).2 start (keeps env w) (emits env w)
  cases ran : p.run env w with
  | mk result next =>
    rw [ran] at after
    cases result <;> exact after

end Meets

/-! ### What was done since -/

section Since
variable {base : List (Event S)} {holds : List (Event S) → σ → Prop}

/-- The events since `base`, with the program's own state, are as `holds` says. -/
def Since (base : List (Event S)) (holds : List (Event S) → σ → Prop) (w : World S σ) : Prop :=
  ∃ more, w.trace = base ++ more ∧ holds more w.own

theorem since_start {w : World S σ} (start : holds [] w.own) : Since w.trace holds w :=
  ⟨[], (List.append_nil _).symm, start⟩

theorem Since.mono {later : List (Event S) → σ → Prop} {w : World S σ} (since : Since base holds w)
    (implies : ∀ more s, holds more s → later more s) : Since base later w := by
  obtain ⟨more, trace, now⟩ := since
  exact ⟨more, trace, implies _ _ now⟩

theorem Since.onward {w : World S σ} (since : Since base holds w) : Since base (fun _ _ => True) w :=
  since.mono fun _ _ _ => trivial

theorem Since.at_end {w : World S σ} {more : List (Event S)} (since : Since base holds w)
    (trace : w.trace = base ++ more) : holds more w.own := by
  obtain ⟨more', trace', now⟩ := since
  rwa [List.append_cancel_left (trace ▸ trace' : base ++ more = base ++ more')]

theorem Since.and {also : List (Event S) → σ → Prop} {w : World S σ} (since : Since base holds w)
    (since' : Since base also w) : Since base (fun more s => holds more s ∧ also more s) w := by
  obtain ⟨more, trace, now⟩ := since
  exact ⟨more, trace, now, since'.at_end trace⟩

/-- Whatever a program does, it does onward. -/
theorem meets_onward (p : Program S σ ε α) :
    Meets env (Since base holds) p (fun _ => Since base fun _ _ => True)
      (fun _ => Since base fun _ _ => True) := by
  rintro w ⟨more, trace, -⟩
  obtain ⟨new, onward⟩ := (p.onward env w).2
  have split : (p.run env w).2.trace = base ++ (more ++ new) := by
    rw [← onward, trace, List.append_assoc]
  cases ran : p.run env w with
  | mk result next =>
    rw [ran] at split
    cases result <;> exact ⟨_, split, trivial⟩

/-- What no event of a kind undoes, is stable. -/
theorem stable_since {calls : S.Call → Bool} {view : σ → τ}
    (sees : ∀ more s event, calls event.call = true → holds more s → holds (more ++ [event]) s)
    (views : ∀ more s s', view s' = view s → holds more s → holds more s') :
    Stable calls view (Since base holds) := by
  rintro w w' ⟨more, trace, now⟩ own ⟨new, trace', quiet⟩
  have stays : ∀ more, holds more w.own → holds (more ++ new) w.own := by
    clear trace'
    induction new with
    | nil => exact fun more now => by simpa using now
    | cons event rest ih =>
      intro more now
      have one := sees more _ event (quiet event List.mem_cons_self) now
      have all := ih (fun later member => quiet later (List.mem_cons_of_mem _ member)) _ one
      rwa [List.append_assoc] at all
  exact ⟨more ++ new, by rw [trace', trace, List.append_assoc], views _ _ _ own (stays _ now)⟩

/-- What is said of the events alone, and no call of the program undoes. -/
theorem Emits.meets_events {calls : S.Call → Bool} {p : Program S σ ε α}
    {H : List (Event S) → Prop} (emits : Emits calls p)
    (sees : ∀ more event, calls event.call = true → H more → H (more ++ [event])) :
    Meets env (Since base fun more _ => H more) p (fun _ => Since base fun more _ => H more)
      (fun _ => Since base fun more _ => H more) :=
  emits.meets (show Keeps (fun _ => ()) p from fun _ _ => rfl)
    (stable_since (fun more _ event quiet => sees more event quiet) fun _ _ _ _ => id)

/-- What no further event undoes, holds beside what a program brings about. -/
theorem Meets.with_kept {p : Program S σ ε α} {K : List (Event S) → Prop}
    {ok : α → List (Event S) → Prop} {err : ε → List (Event S) → Prop}
    (grows : ∀ more later, K more → K (more ++ later))
    (meets : Meets env (Since base fun _ _ => True) p (fun a => Since base fun more _ => ok a more)
      (fun e => Since base fun more _ => err e more)) :
    Meets env (Since base fun more _ => K more) p (fun a => Since base fun more _ => K more ∧ ok a more)
      (fun e => Since base fun more _ => K more ∧ err e more) := by
  rintro w ⟨more, trace, kept⟩
  obtain ⟨later, onward⟩ := (p.onward env w).2
  have ended := meets w ⟨more, trace, trivial⟩
  have split : (p.run env w).2.trace = base ++ (more ++ later) := by
    rw [← onward, trace, List.append_assoc]
  cases ran : p.run env w with
  | mk result next =>
    rw [ran] at ended split
    cases result with
    | ok a =>
      have since : Since base (fun more _ => ok a more) next := ended
      exact ⟨_, split, grows _ _ kept, since.at_end split⟩
    | error e =>
      have since : Since base (fun more _ => err e more) next := ended
      exact ⟨_, split, grows _ _ kept, since.at_end split⟩

/-- What a program does from wherever it starts, with what held there. -/
theorem Emits.meets_from {calls : S.Call → Bool} {p : Program S σ ε α} {K : List (Event S) → σ → Prop}
    {ok : σ → α → List (Event S) → σ → Prop} {err : σ → ε → List (Event S) → σ → Prop}
    (emits : Emits calls p)
    (starts : ∀ base s, Meets env (Since base fun more s' => more = [] ∧ s' = s) p
      (fun a => Since base fun after s' => ok s a after s')
      (fun e => Since base fun after s' => err s e after s')) :
    Meets env (Since base K) p
      (fun a => Since base fun more s' => ∃ before after s, more = before ++ after ∧ K before s ∧
        (∀ event ∈ after, calls event.call = true) ∧ ok s a after s')
      (fun e => Since base fun more s' => ∃ before after s, more = before ++ after ∧ K before s ∧
        (∀ event ∈ after, calls event.call = true) ∧ err s e after s') := by
  rintro w ⟨before, trace, kept⟩
  obtain ⟨after, onward, all⟩ := emits env w
  have ended := starts w.trace w.own w ⟨[], (List.append_nil _).symm, rfl, rfl⟩
  have split : (p.run env w).2.trace = base ++ (before ++ after) := by
    rw [onward, trace, List.append_assoc]
  cases ran : p.run env w with
  | mk result next =>
    rw [ran] at ended split onward
    cases result with
    | ok a =>
      have since : Since w.trace (fun after s' => ok w.own a after s') next := ended
      exact ⟨_, split, before, after, w.own, rfl, kept, all, since.at_end onward⟩
    | error e =>
      have since : Since w.trace (fun after s' => err w.own e after s') next := ended
      exact ⟨_, split, before, after, w.own, rfl, kept, all, since.at_end onward⟩

/-- The same, where the program's own state does not matter. -/
theorem Emits.meets_split {calls : S.Call → Bool} {p : Program S σ ε α} {K : List (Event S) → Prop}
    {ok : α → List (Event S) → Prop} {err : ε → List (Event S) → Prop} (emits : Emits calls p)
    (starts : ∀ base, Meets env (Since base fun more _ => more = []) p
      (fun a => Since base fun after _ => ok a after) (fun e => Since base fun after _ => err e after)) :
    Meets env (Since base fun more _ => K more) p
      (fun a => Since base fun more _ => ∃ before after, more = before ++ after ∧ K before ∧
        (∀ event ∈ after, calls event.call = true) ∧ ok a after)
      (fun e => Since base fun more _ => ∃ before after, more = before ++ after ∧ K before ∧
        (∀ event ∈ after, calls event.call = true) ∧ err e after) := by
  refine (emits.meets_from fun base s => (starts base).weaken (fun w since => ?_) (fun _ _ => id)
    fun _ _ => id).weaken (fun _ => id) (fun a w since => ?_) fun e w since => ?_
  · exact since.mono fun _ _ now => now.1
  · exact since.mono fun _ _ ⟨before, after, _, now⟩ => ⟨before, after, now⟩
  · exact since.mono fun _ _ ⟨before, after, _, now⟩ => ⟨before, after, now⟩

theorem meets_since_update {f : σ → σ} {L : List (Event S) → σ → Prop}
    {err : ε → World S σ → Prop} (done : ∀ more s, holds more s → L more (f s)) :
    Meets env (Since base holds) (update f : Program S σ ε Unit)
      (fun _ => Since base L) err := by
  rintro w ⟨more, trace, now⟩
  exact ⟨more, trace, done _ _ now⟩

theorem meets_since_own {L : σ → List (Event S) → σ → Prop} {err : ε → World S σ → Prop}
    (done : ∀ more s, holds more s → L s more s) :
    Meets env (Since base holds) (own : Program S σ ε σ) (fun s => Since base (L s)) err := by
  rintro w ⟨more, trace, now⟩
  exact ⟨more, trace, done _ _ now⟩

/-- A call and what follows from its answer, which the environment gives. -/
theorem meets_since_answer_then {call : S.Call} {read : S.Answer call → α} {f : α → Program S σ ε β}
    {ok : β → World S σ → Prop} {err : ε → World S σ → Prop}
    (each : ∀ past clock, Meets env (Since base fun more s =>
        ∃ before, more = before ++ [⟨call, env.answer past call, clock⟩] ∧ holds before s)
      (f (read (env.answer past call))) ok err) :
    Meets env (Since base holds) (ask call read >>= f) ok err := by
  rintro w ⟨more, trace, now⟩
  exact each w.trace _ _ ⟨more ++ [_],
    (congrArg (· ++ _) trace).trans (List.append_assoc _ _ _), more, rfl, now⟩

/-- A call and what follows from its answer, whatever that is. -/
theorem meets_since_ask_then {call : S.Call} {read : S.Answer call → α} {f : α → Program S σ ε β}
    {ok : β → World S σ → Prop} {err : ε → World S σ → Prop}
    (each : ∀ answer clock, Meets env
      (Since base fun more s => ∃ before, more = before ++ [⟨call, answer, clock⟩] ∧ holds before s)
      (f (read answer)) ok err) :
    Meets env (Since base holds) (ask call read >>= f) ok err :=
  meets_since_answer_then fun past clock => each (env.answer past call) clock

theorem meets_since_liftM {p : Program S Unit ε α} {ok : α → List (Event S) → σ → Prop}
    {err : ε → List (Event S) → σ → Prop}
    (inner : ∀ s, Meets env (Since base fun more _ => holds more s) p
      (fun a => Since base fun more _ => ok a more s)
      (fun e => Since base fun more _ => err e more s)) :
    Meets env (Since base holds) (liftM p : Program S σ ε α)
      (fun a => Since base (ok a)) (fun e => Since base (err e)) := by
  rintro w ⟨more, trace, now⟩
  have ended := inner w.own ⟨(), w.clock, w.trace⟩ ⟨more, trace, now⟩
  have runs : (liftM p : Program S σ ε α).run env w =
      ((p.run env ⟨(), w.clock, w.trace⟩).1,
        ⟨w.own, (p.run env ⟨(), w.clock, w.trace⟩).2.clock,
          (p.run env ⟨(), w.clock, w.trace⟩).2.trace⟩) := rfl
  rw [runs]
  cases ran : p.run env ⟨(), w.clock, w.trace⟩ with
  | mk result next =>
    rw [ran] at ended
    cases result <;> exact ended

end Since

/-- A program that throws only after a failure, among calls that undo nothing. -/
theorem Blames.meets {fails : Event S → Prop} {calls : S.Call → Bool} {view : σ → τ}
    {base : List (Event S)} {holds failed : List (Event S) → σ → Prop} {p : Program S σ ε α}
    (blames : Blames fails p) (frame : Frame calls view p)
    (stable : Stable calls view (Since base holds))
    (breaks : ∀ more new s s', holds more s → view s' = view s →
      (∀ event ∈ new, calls event.call = true) → (∃ event ∈ new, fails event) →
      failed (more ++ new) s') :
    Meets env (Since base holds) p (fun _ => Since base holds) (fun _ => Since base failed) := by
  rintro w ⟨more, trace, now⟩
  obtain ⟨new, trace', quiet⟩ := frame.emits env w
  have after := stable w _ ⟨more, trace, now⟩ (frame.keeps env w) ⟨new, trace', quiet⟩
  have kept := frame.keeps env w
  have blamed := blames env w
  cases ran : p.run env w with
  | mk result next =>
    rw [ran] at after kept blamed trace'
    cases result with
    | ok a => exact after
    | error e =>
      obtain ⟨new', trace'', failing⟩ := blamed e rfl
      have same : new' = new := List.append_cancel_left (trace''.symm.trans trace')
      exact ⟨more ++ new, by rw [trace', trace, List.append_assoc],
        breaks more new _ _ now kept quiet (same ▸ failing)⟩

/-- A program that never throws keeps what no further event undoes. -/
theorem Blames.meets_kept {base : List (Event S)} {holds : List (Event S) → Prop}
    {p : Program S σ ε α} {err : ε → World S σ → Prop} (never : Blames (fun _ => False) p)
    (grows : ∀ more later, holds more → holds (more ++ later)) :
    Meets env (Since base fun more _ => holds more) p (fun _ => Since base fun more _ => holds more)
      err := by
  rintro w ⟨more, trace, now⟩
  obtain ⟨new, onward⟩ := (p.onward env w).2
  have thrown := never env w
  cases ran : p.run env w with
  | mk result next =>
    rw [ran] at onward thrown
    cases result with
    | ok a => exact ⟨more ++ new, by rw [← onward, trace, List.append_assoc], grows _ _ now⟩
    | error e =>
      obtain ⟨-, -, -, -, failed⟩ := thrown e rfl
      exact failed.elim

/-- A program that never throws keeps what its calls do not undo. -/
theorem Emits.meets_never {calls : S.Call → Bool} {base : List (Event S)} {H : List (Event S) → Prop}
    {p : Program S σ ε α} {err : ε → World S σ → Prop} (emits : Emits calls p)
    (never : Blames (fun _ => False) p)
    (sees : ∀ more event, calls event.call = true → H more → H (more ++ [event])) :
    Meets env (Since base fun more _ => H more) p (fun _ => Since base fun more _ => H more) err := by
  intro w since
  have kept : Meets env (Since base fun more _ => H more) p (fun _ => Since base fun more _ => H more)
    (fun _ => Since base fun more _ => H more) := emits.meets_events sees
  have ended := kept w since
  have thrown := never env w
  cases ran : p.run env w with
  | mk result next =>
    rw [ran] at ended thrown
    cases result with
    | ok a => exact ended
    | error e =>
      obtain ⟨-, -, -, -, failed⟩ := thrown e rfl
      exact failed.elim

/-- A program that never throws, where nothing need hold after it. -/
theorem Blames.meets_onward {base : List (Event S)} {p : Program S σ ε α}
    {err : ε → World S σ → Prop} (never : Blames (fun _ => False) p) :
    Meets env (Since base fun _ _ => True) p (fun _ => Since base fun _ _ => True) err :=
  never.meets_kept fun _ _ => id

theorem Frame.meets {calls : S.Call → Bool} {view : σ → τ} {p : Program S σ ε α}
    (frame : Frame calls view p) (stable : Stable calls view pre) :
    Meets env pre p (fun _ => pre) (fun _ => pre) := frame.emits.meets frame.keeps stable

/-! ### What ran in the course of it -/

/-- A run of `p` that answered `a` is among `events`. -/
def RanIn (env : Environment S) (p : Program S σ ε α) (a : α) (events : List (Event S)) : Prop :=
  ∃ w w' before among after, p.run env w = (.ok a, w') ∧ w'.trace = w.trace ++ among ∧
    events = before ++ among ++ after

theorem RanIn.append {p : Program S σ ε α} {a : α} {events : List (Event S)}
    (ran : RanIn env p a events) (more : List (Event S)) : RanIn env p a (events ++ more) := by
  obtain ⟨w, w', before, among, after, done, trace, rfl⟩ := ran
  exact ⟨w, w', before, among, after ++ more, done, trace, by simp⟩

theorem meets_ranIn {base : List (Event S)} (p : Program S σ ε α) :
    Meets env (Since base fun _ _ => True) p (fun a => Since base fun more _ => RanIn env p a more)
      (fun _ => Since base fun _ _ => True) := by
  rintro w ⟨before, trace, -⟩
  obtain ⟨among, onward⟩ := (p.onward env w).2
  have split : (p.run env w).2.trace = base ++ (before ++ among) := by
    rw [← onward, trace, List.append_assoc]
  cases ran : p.run env w with
  | mk result next =>
    rw [ran] at split onward
    cases result with
    | ok a => exact ⟨_, split, w, next, before, among, [], ran, onward.symm, (List.append_nil _).symm⟩
    | error e => exact ⟨_, split, trivial⟩

/-! ### Whenever a call was made -/

section Each
variable {picks : Event S → Prop} {held : List (Event S) → Event S → Prop}

/-- `held` of the events before, whenever a call that is picked was made. -/
def Each (picks : Event S → Prop) (held : List (Event S) → Event S → Prop)
    (events : List (Event S)) : Prop :=
  ∀ earlier event later, events = earlier ++ event :: later → picks event → held earlier event

theorem each_nil : Each picks held [] := by
  intro earlier event later split
  simp at split

theorem each_snoc {events : List (Event S)} {event : Event S} :
    Each picks held (events ++ [event]) ↔
      Each picks held events ∧ (picks event → held events event) := by
  constructor
  · intro each
    refine ⟨fun earlier other later split picked => ?_, fun picked => each events event [] rfl picked⟩
    exact each earlier other (later ++ [event]) (by simp [split]) picked
  · rintro ⟨each, last⟩ earlier other later split picked
    rcases List.eq_nil_or_concat later with rfl | ⟨later, final, rfl⟩
    · obtain ⟨rfl, same⟩ := List.append_inj' split rfl
      obtain rfl := List.singleton_inj.mp same
      exact last picked
    · rw [List.concat_eq_append, ← List.cons_append, ← List.append_assoc] at split
      exact each earlier other later (List.append_inj' split rfl).1 picked

theorem Each.mono {held' : List (Event S) → Event S → Prop} {events : List (Event S)}
    (each : Each picks held events) (implies : ∀ earlier event, held earlier event → held' earlier event) :
    Each picks held' events :=
  fun earlier event later split picked => implies _ _ (each earlier event later split picked)

end Each

end Program

end OpenVibeHost.Effects
