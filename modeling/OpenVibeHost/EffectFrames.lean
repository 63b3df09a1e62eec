import OpenVibeHost.Effects

/-! What a program cannot do: which calls it makes at most (`Emits`), which part of its
state it leaves as it was (`Keeps`), and what must have failed before it throws
(`Blames`). Each construct has a rule, so that a function's frame follows from those of
what it calls. -/
namespace OpenVibeHost.Effects

variable {S : Signature} {σ τ ε δ α β : Type}

namespace Program

/-! ### Which calls a program makes -/

/-- Every call the program makes is one of `calls`. -/
def Emits (calls : S.Call → Bool) (p : Program S σ ε α) : Prop :=
  ∀ env w, ∃ more, (p.run env w).2.trace = w.trace ++ more ∧
    ∀ event ∈ more, calls event.call = true

section Emits
variable {calls : S.Call → Bool}

theorem Emits.mono {more : S.Call → Bool} {p : Program S σ ε α} (emits : Emits calls p)
    (wider : ∀ call, calls call = true → more call = true) : Emits more p := by
  intro env w
  obtain ⟨new, extends', all⟩ := emits env w
  exact ⟨new, extends', fun event member => wider _ (all event member)⟩

theorem emits_any (p : Program S σ ε α) : Emits (fun _ => true) p := by
  intro env w
  obtain ⟨more, trace⟩ := (p.onward env w).2
  exact ⟨more, trace.symm, fun _ _ => rfl⟩

@[grind ←] theorem emits_ret (a : α) : Emits calls (ret a : Program S σ ε α) :=
  fun _ w => ⟨[], (List.append_nil _).symm, by simp⟩

@[grind ←] theorem emits_pure (a : α) : Emits calls (pure a : Program S σ ε α) := emits_ret a

@[grind ←] theorem emits_throw (e : ε) : Emits calls (throw e : Program S σ ε α) :=
  fun _ w => ⟨[], (List.append_nil _).symm, by simp⟩

@[grind ←] theorem emits_now : Emits calls (now : Program S σ ε Nat) :=
  fun _ w => ⟨[], (List.append_nil _).symm, by simp⟩

@[grind ←] theorem emits_own : Emits calls (own : Program S σ ε σ) :=
  fun _ w => ⟨[], (List.append_nil _).symm, by simp⟩

@[grind ←] theorem emits_update (f : σ → σ) : Emits calls (update f : Program S σ ε Unit) :=
  fun _ w => ⟨[], (List.append_nil _).symm, by simp⟩

theorem emits_ask {call : S.Call} {read : S.Answer call → α} (one : calls call = true) :
    Emits calls (ask call read : Program S σ ε α) :=
  fun _ _ => ⟨[_], rfl, by simpa using one⟩

@[grind ←] theorem emits_andThen {p : Program S σ ε α} {f : α → Program S σ ε β} (first : Emits calls p)
    (second : ∀ a, Emits calls (f a)) : Emits calls (andThen p f) := by
  intro env w
  obtain ⟨new, extends', all⟩ := first env w
  cases ran : p.run env w with
  | mk result next =>
    rw [ran] at extends'
    cases result with
    | error e => exact ⟨new, by rw [run_andThen_error ran]; exact extends', all⟩
    | ok a =>
      obtain ⟨new', extends'', all'⟩ := second a env next
      refine ⟨new ++ new', ?_, ?_⟩
      · rw [run_andThen_ok ran, extends'', extends', List.append_assoc]
      · intro event member
        exact (List.mem_append.mp member).elim (all event) (all' event)

@[grind ←] theorem emits_bind {p : Program S σ ε α} {f : α → Program S σ ε β} (first : Emits calls p)
    (second : ∀ a, Emits calls (f a)) : Emits calls (p >>= f) := emits_andThen first second

@[grind ←] theorem emits_map {f : α → β} {p : Program S σ ε α} (emits : Emits calls p) :
    Emits calls (f <$> p) := emits_andThen emits fun a => emits_ret (f a)

@[grind ←] theorem emits_attempt {p : Program S σ ε α} {handler : ε → Program S σ ε α}
    (first : Emits calls p) (second : ∀ e, Emits calls (handler e)) :
    Emits calls (attempt p handler) := by
  intro env w
  obtain ⟨new, extends', all⟩ := first env w
  cases ran : p.run env w with
  | mk result next =>
    rw [ran] at extends'
    cases result with
    | ok a => exact ⟨new, by simpa [attempt, ran] using extends', all⟩
    | error e =>
      obtain ⟨new', extends'', all'⟩ := second e env next
      refine ⟨new ++ new', ?_, ?_⟩
      · simp only [attempt, ran]
        rw [extends'', extends', List.append_assoc]
      · intro event member
        exact (List.mem_append.mp member).elim (all event) (all' event)

@[grind ←] theorem emits_ensure {p : Program S σ ε α} {last : Program S σ ε Unit} (first : Emits calls p)
    (second : Emits calls last) : Emits calls (ensure p last) := by
  intro env w
  obtain ⟨new, extends', all⟩ := first env w
  obtain ⟨new', extends'', all'⟩ := second env (p.run env w).2
  refine ⟨new ++ new', ?_, ?_⟩
  · have same : ((ensure p last).run env w).2 = (last.run env (p.run env w).2).2 := by
      simp only [ensure]
      split <;> simp_all
    rw [same, extends'', extends', List.append_assoc]
  · intro event member
    exact (List.mem_append.mp member).elim (all event) (all' event)

theorem emits_beside {p : Program S Unit ε α} (emits : Emits calls p) :
    Emits calls (beside p : Program S σ ε α) :=
  fun env w => emits env ⟨(), w.clock, w.trace⟩

@[grind ←] theorem emits_liftM {p : Program S Unit ε α} (emits : Emits calls p) :
    Emits calls (liftM p : Program S σ ε α) := emits_beside emits

@[grind ←] theorem emits_orThrow (result : Except ε α) : Emits calls (orThrow result : Program S σ ε α) := by
  cases result with
  | ok a => exact emits_ret a
  | error e => exact emits_throw e

@[grind ←] theorem emits_whenever {condition : Prop} [Decidable condition]
    {p : Program S σ ε Unit} (emits : condition → Emits calls p) :
    Emits calls (whenever condition p) := by
  unfold whenever
  split
  · exact emits ‹_›
  · exact emits_ret ()

@[grind ←] theorem emits_forEach {items : List α} {turn : α → Program S σ ε Unit}
    (each : ∀ item ∈ items, Emits calls (turn item)) : Emits calls (forEach items turn) := by
  induction items with
  | nil => exact emits_ret ()
  | cons item rest ih =>
    exact emits_andThen (each item List.mem_cons_self)
      fun _ => ih fun later member => each later (List.mem_cons_of_mem _ member)

@[grind ←] theorem emits_fold {items : List α} {start : β} {turn : β → α → Program S σ ε β}
    (each : ∀ carried, ∀ item ∈ items, Emits calls (turn carried item)) :
    Emits calls (fold items start turn) := by
  induction items generalizing start with
  | nil => exact emits_ret start
  | cons item rest ih =>
    exact emits_andThen (each start item List.mem_cons_self)
      fun _ => ih fun carried later member => each carried later (List.mem_cons_of_mem _ member)

@[grind ←] theorem emits_firstOf {items : List α} {turn : α → Program S σ ε (Option β)}
    (each : ∀ item ∈ items, Emits calls (turn item)) : Emits calls (firstOf items turn) := by
  induction items with
  | nil => exact emits_ret none
  | cons item rest ih =>
    refine emits_andThen (each item List.mem_cons_self) fun answer => ?_
    cases answer with
    | some found => exact emits_ret _
    | none => exact ih fun later member => each later (List.mem_cons_of_mem _ member)

@[grind ←] theorem emits_loop {turn : β → Program S σ ε (β ⊕ α)} (each : ∀ b, Emits calls (turn b))
    (fuel : Nat) (carried : β) : Emits calls (loop turn fuel carried) := by
  induction fuel generalizing carried with
  | zero => exact emits_ret _
  | succ fuel ih =>
    refine emits_andThen (each carried) fun answer => ?_
    cases answer with
    | inl next => exact ih next
    | inr found => exact emits_ret _

@[grind ←] theorem emits_whileWithin {start limit : Nat} {turn : β → Program S σ ε (β ⊕ α)}
    (each : ∀ b, Emits calls (turn b)) (carried : β) :
    Emits calls (whileWithin start limit turn carried) := by
  refine emits_andThen (emits_loop (fun b => ?_) _ _) fun ended => ?_
  · refine emits_andThen emits_now fun t => ?_
    split
    · refine emits_andThen (each b) fun answer => ?_
      cases answer <;> exact emits_ret _
    · exact emits_ret _
  · cases ended <;> exact emits_ret _

@[grind ←] theorem emits_within {start : τ} {p : Program S τ ε α} (emits : Emits calls p) :
    Emits calls (within start p : Program S σ ε (α × τ)) := by
  intro env w
  obtain ⟨new, extends', all⟩ := emits env ⟨start, w.clock, w.trace⟩
  refine ⟨new, ?_, all⟩
  simp only [within]
  split <;> rename_i next ran <;> rw [ran] at extends' <;> exact extends'

end Emits

/-! ### What a program leaves alone -/

/-- However it ends, the program leaves `view` of its own state as it was. -/
def Keeps (view : σ → τ) (p : Program S σ ε α) : Prop :=
  ∀ env w, view (p.run env w).2.own = view w.own

section Keeps
variable {view : σ → τ}

@[grind ←] theorem keeps_ret (a : α) : Keeps view (ret a : Program S σ ε α) := fun _ _ => rfl

@[grind ←] theorem keeps_pure (a : α) : Keeps view (pure a : Program S σ ε α) := fun _ _ => rfl

@[grind ←] theorem keeps_throw (e : ε) : Keeps view (throw e : Program S σ ε α) := fun _ _ => rfl

@[grind ←] theorem keeps_now : Keeps view (now : Program S σ ε Nat) := fun _ _ => rfl

@[grind ←] theorem keeps_own : Keeps view (own : Program S σ ε σ) := fun _ _ => rfl

@[grind ←] theorem keeps_ask {call : S.Call} {read : S.Answer call → α} :
    Keeps view (ask call read : Program S σ ε α) := fun _ _ => rfl

@[grind ←] theorem keeps_liftM (p : Program S Unit ε α) :
    Keeps view (liftM p : Program S σ ε α) := fun _ _ => rfl

@[grind ←] theorem keeps_update {f : σ → σ} (same : ∀ s, view (f s) = view s) :
    Keeps view (update f : Program S σ ε Unit) := fun _ w => same w.own

@[grind ←] theorem keeps_orThrow (result : Except ε α) :
    Keeps view (orThrow result : Program S σ ε α) := by
  cases result with
  | ok a => exact keeps_ret a
  | error e => exact keeps_throw e

@[grind ←] theorem keeps_andThen {p : Program S σ ε α} {f : α → Program S σ ε β}
    (first : Keeps view p) (second : ∀ a, Keeps view (f a)) : Keeps view (andThen p f) := by
  intro env w
  have kept := first env w
  cases ran : p.run env w with
  | mk result next =>
    rw [ran] at kept
    cases result with
    | error e => exact run_andThen_error ran ▸ kept
    | ok a => exact run_andThen_ok ran ▸ (second a env next).trans kept

@[grind ←] theorem keeps_bind {p : Program S σ ε α} {f : α → Program S σ ε β}
    (first : Keeps view p) (second : ∀ a, Keeps view (f a)) : Keeps view (p >>= f) :=
  keeps_andThen first second

@[grind ←] theorem keeps_map {f : α → β} {p : Program S σ ε α} (keeps : Keeps view p) :
    Keeps view (f <$> p) := keeps_andThen keeps fun a => keeps_ret (f a)

@[grind ←] theorem keeps_attempt {p : Program S σ ε α} {handler : ε → Program S σ ε α}
    (first : Keeps view p) (second : ∀ e, Keeps view (handler e)) :
    Keeps view (attempt p handler) := by
  intro env w
  have kept := first env w
  simp only [attempt]
  split <;> rename_i next ran <;> rw [ran] at kept
  · exact kept
  · exact (second _ env next).trans kept

@[grind ←] theorem keeps_ensure {p : Program S σ ε α} {last : Program S σ ε Unit}
    (first : Keeps view p) (second : Keeps view last) : Keeps view (ensure p last) := by
  intro env w
  have kept := (second env (p.run env w).2).trans (first env w)
  simp only [ensure]
  split <;> rename_i final ran <;> rw [ran] at kept <;> exact kept

@[grind ←] theorem keeps_whenever {condition : Prop} [Decidable condition]
    {p : Program S σ ε Unit} (keeps : condition → Keeps view p) :
    Keeps view (whenever condition p) := by
  unfold whenever
  split
  · exact keeps ‹_›
  · exact keeps_ret ()

@[grind ←] theorem keeps_forEach {items : List α} {turn : α → Program S σ ε Unit}
    (each : ∀ item ∈ items, Keeps view (turn item)) : Keeps view (forEach items turn) := by
  induction items with
  | nil => exact keeps_ret ()
  | cons item rest ih =>
    exact keeps_andThen (each item List.mem_cons_self)
      fun _ => ih fun later member => each later (List.mem_cons_of_mem _ member)

@[grind ←] theorem keeps_fold {items : List α} {start : β} {turn : β → α → Program S σ ε β}
    (each : ∀ carried item, Keeps view (turn carried item)) :
    Keeps view (fold items start turn) := by
  induction items generalizing start with
  | nil => exact keeps_ret start
  | cons item rest ih => exact keeps_andThen (each start item) fun _ => ih

@[grind ←] theorem keeps_loop {turn : β → Program S σ ε (β ⊕ α)} (each : ∀ b, Keeps view (turn b))
    (fuel : Nat) (carried : β) : Keeps view (loop turn fuel carried) := by
  induction fuel generalizing carried with
  | zero => exact keeps_ret _
  | succ fuel ih =>
    refine keeps_andThen (each carried) fun answer => ?_
    cases answer with
    | inl next => exact ih next
    | inr found => exact keeps_ret _

@[grind ←] theorem keeps_whileWithin {start limit : Nat} {turn : β → Program S σ ε (β ⊕ α)}
    (each : ∀ b, Keeps view (turn b)) (carried : β) :
    Keeps view (whileWithin start limit turn carried) := by
  refine keeps_andThen (keeps_loop (fun b => ?_) _ _) fun ended => ?_
  · refine keeps_andThen keeps_now fun t => ?_
    split
    · refine keeps_andThen (each b) fun answer => ?_
      cases answer <;> exact keeps_ret _
    · exact keeps_ret _
  · cases ended <;> exact keeps_ret _

end Keeps

/-! ### What fails before a program throws -/

/-- When the program throws, one of the calls it made has failed. With no failure at all
it never throws. -/
def Blames (fails : Event S → Prop) (p : Program S σ ε α) : Prop :=
  ∀ env w e, (p.run env w).1 = .error e → ∃ more, (p.run env w).2.trace = w.trace ++ more ∧
    ∃ event ∈ more, fails event

section Blames
variable {fails : Event S → Prop}

@[grind ←] theorem blames_ret (a : α) : Blames fails (ret a : Program S σ ε α) :=
  fun _ _ _ thrown => nomatch thrown

@[grind ←] theorem blames_pure (a : α) : Blames fails (pure a : Program S σ ε α) := blames_ret a

@[grind ←] theorem blames_now : Blames fails (now : Program S σ ε Nat) :=
  fun _ _ _ thrown => nomatch thrown

@[grind ←] theorem blames_own : Blames fails (own : Program S σ ε σ) :=
  fun _ _ _ thrown => nomatch thrown

@[grind ←] theorem blames_update (f : σ → σ) : Blames fails (update f : Program S σ ε Unit) :=
  fun _ _ _ thrown => nomatch thrown

@[grind ←] theorem blames_ask {call : S.Call} {read : S.Answer call → α} :
    Blames fails (ask call read : Program S σ ε α) := fun _ _ _ thrown => nomatch thrown

theorem Blames.mono {fails' : Event S → Prop} {p : Program S σ ε α} (blames : Blames fails p)
    (implies : ∀ event, fails event → fails' event) : Blames fails' p := by
  intro env w e thrown
  obtain ⟨more, onward, event, member, failed⟩ := blames env w e thrown
  exact ⟨more, onward, event, member, implies event failed⟩

/-- What follows need only blame for the answers that a run gives. -/
theorem blames_bind_ran {p : Program S σ ε α} {f : α → Program S σ ε β} (first : Blames fails p)
    (second : ∀ env w w' a, p.run env w = (.ok a, w') → Blames fails (f a)) :
    Blames fails (p >>= f) := by
  rw [bind_eq]
  intro env w e thrown
  cases ran : p.run env w with
  | mk result next =>
    cases result with
    | error e' =>
      rw [run_andThen_error ran] at thrown ⊢
      have blamed := first env w e' (by rw [ran])
      rwa [ran] at blamed
    | ok a =>
      rw [run_andThen_ok ran] at thrown ⊢
      obtain ⟨more, extends', event, member, failed⟩ := second env w next a ran env next e thrown
      obtain ⟨new, extends''⟩ := (p.onward env w).2
      rw [ran] at extends''
      refine ⟨new ++ more, ?_, event, List.mem_append_right _ member, failed⟩
      rw [extends', ← extends'', List.append_assoc]

@[grind ←] theorem blames_andThen {p : Program S σ ε α} {f : α → Program S σ ε β}
    (first : Blames fails p) (second : ∀ a, Blames fails (f a)) : Blames fails (andThen p f) :=
  blames_bind_ran first fun _ _ _ a _ => second a

@[grind ←] theorem blames_bind {p : Program S σ ε α} {f : α → Program S σ ε β}
    (first : Blames fails p) (second : ∀ a, Blames fails (f a)) : Blames fails (p >>= f) :=
  blames_andThen first second

@[grind ←] theorem blames_map {f : α → β} {p : Program S σ ε α} (blames : Blames fails p) :
    Blames fails (f <$> p) := blames_andThen blames fun a => blames_ret (f a)

/-- A call whose answer decides whether what follows may throw. -/
theorem blames_ask_then {call : S.Call} {read : S.Answer call → α} {f : α → Program S σ ε β}
    (each : ∀ answer clock, fails ⟨call, answer, clock⟩ ∨ Blames fails (f (read answer))) :
    Blames fails (ask call read >>= f) := by
  intro env w e thrown
  have runs : ((ask call read >>= f : Program S σ ε β)).run env w =
      (f (read (env.answer w.trace call))).run env ((ask call read : Program S σ ε α).run env w).2 :=
    rfl
  rw [runs] at thrown ⊢
  rcases each (env.answer w.trace call) (w.clock + max (S.least call) (env.takes w.trace call)) with
    failed | blames
  · obtain ⟨new, extends'⟩ :=
      ((f (read (env.answer w.trace call))).onward env
        ((ask call read : Program S σ ε α).run env w).2).2
    exact ⟨_ :: new, by rw [← extends']; exact List.append_assoc _ _ _, _, List.mem_cons_self, failed⟩
  · obtain ⟨new, extends', event, member, failed⟩ := blames env _ e thrown
    exact ⟨_ :: new, by rw [extends']; exact List.append_assoc _ _ _, event,
      List.mem_cons_of_mem _ member, failed⟩

@[grind ←] theorem blames_attempt {p : Program S σ ε α} {handler : ε → Program S σ ε α}
    (second : ∀ e, Blames fails (handler e)) : Blames fails (attempt p handler) := by
  intro env w e thrown
  cases ran : p.run env w with
  | mk result next =>
    cases result with
    | ok a => simp [attempt, ran] at thrown
    | error e' =>
      have runs : (attempt p handler).run env w = (handler e').run env next := by
        simp [attempt, ran]
      rw [runs] at thrown ⊢
      obtain ⟨more, extends', event, member, failed⟩ := second e' env next e thrown
      obtain ⟨new, extends''⟩ := (p.onward env w).2
      rw [ran] at extends''
      refine ⟨new ++ more, ?_, event, List.mem_append_right _ member, failed⟩
      rw [extends', ← extends'', List.append_assoc]

@[grind ←] theorem blames_liftM {p : Program S Unit ε α} (blames : Blames fails p) :
    Blames fails (liftM p : Program S σ ε α) :=
  fun env w e thrown => blames env ⟨(), w.clock, w.trace⟩ e thrown

@[grind ←] theorem blames_whenever {condition : Prop} [Decidable condition]
    {p : Program S σ ε Unit} (blames : condition → Blames fails p) :
    Blames fails (whenever condition p) := by
  unfold whenever
  split
  · exact blames ‹_›
  · exact blames_ret ()

@[grind ←] theorem blames_forEach {items : List α} {turn : α → Program S σ ε Unit}
    (each : ∀ item ∈ items, Blames fails (turn item)) : Blames fails (forEach items turn) := by
  induction items with
  | nil => exact blames_ret ()
  | cons item rest ih =>
    exact blames_andThen (each item List.mem_cons_self)
      fun _ => ih fun later member => each later (List.mem_cons_of_mem _ member)

@[grind ←] theorem blames_fold {items : List α} {start : β} {turn : β → α → Program S σ ε β}
    (each : ∀ carried, ∀ item ∈ items, Blames fails (turn carried item)) :
    Blames fails (fold items start turn) := by
  induction items generalizing start with
  | nil => exact blames_ret start
  | cons item rest ih =>
    exact blames_andThen (each start item List.mem_cons_self)
      fun _ => ih fun carried later member => each carried later (List.mem_cons_of_mem _ member)

@[grind ←] theorem blames_firstOf {items : List α} {turn : α → Program S σ ε (Option β)}
    (each : ∀ item ∈ items, Blames fails (turn item)) : Blames fails (firstOf items turn) := by
  induction items with
  | nil => exact blames_ret none
  | cons item rest ih =>
    refine blames_andThen (each item List.mem_cons_self) fun answer => ?_
    cases answer with
    | some found => exact blames_ret _
    | none => exact ih fun later member => each later (List.mem_cons_of_mem _ member)

@[grind ←] theorem blames_whileWithin {start limit : Nat} {turn : β → Program S σ ε (β ⊕ α)}
    (each : ∀ b, Blames fails (turn b)) (carried : β) :
    Blames fails (whileWithin start limit turn carried) := by
  have loops (fuel : Nat) (carried : β) :
      Blames fails (loop (timed start limit turn) fuel carried) := by
    induction fuel generalizing carried with
    | zero => exact blames_ret _
    | succ fuel ih =>
      refine blames_andThen (blames_andThen blames_now fun t => ?_) fun answer => ?_
      · split
        · refine blames_andThen (each carried) fun answer => ?_
          cases answer <;> exact blames_ret _
        · exact blames_ret _
      · cases answer with
        | inl next => exact ih next
        | inr found => exact blames_ret _
  refine blames_andThen (loops _ _) fun ended => ?_
  cases ended <;> exact blames_ret _

end Blames

/-! ### Frames -/

/-- The calls a program makes at most, and the part of its state that it leaves alone. -/
structure Frame (calls : S.Call → Bool) (view : σ → τ) (p : Program S σ ε α) : Prop where
  emits : Emits calls p
  keeps : Keeps view p

section Frame
variable {calls : S.Call → Bool} {view : σ → τ}

@[grind ←] theorem frame_ret (a : α) : Frame calls view (ret a : Program S σ ε α) :=
  ⟨emits_ret a, keeps_ret a⟩

@[grind ←] theorem frame_pure (a : α) : Frame calls view (pure a : Program S σ ε α) :=
  ⟨emits_pure a, keeps_pure a⟩

@[grind ←] theorem frame_throw (e : ε) : Frame calls view (throw e : Program S σ ε α) :=
  ⟨emits_throw e, keeps_throw e⟩

@[grind ←] theorem frame_now : Frame calls view (now : Program S σ ε Nat) := ⟨emits_now, keeps_now⟩

@[grind ←] theorem frame_own : Frame calls view (own : Program S σ ε σ) := ⟨emits_own, keeps_own⟩

@[grind ←] theorem frame_ask {call : S.Call} {read : S.Answer call → α} (one : calls call = true) :
    Frame calls view (ask call read : Program S σ ε α) := ⟨emits_ask one, keeps_ask⟩

@[grind ←] theorem frame_liftM {p : Program S Unit ε α} (emits : Emits calls p) :
    Frame calls view (liftM p : Program S σ ε α) := ⟨emits_liftM emits, keeps_liftM p⟩

theorem frame_update {f : σ → σ} (same : ∀ s, view (f s) = view s) :
    Frame calls view (update f : Program S σ ε Unit) := ⟨emits_update f, keeps_update same⟩

@[grind ←] theorem frame_orThrow (result : Except ε α) :
    Frame calls view (orThrow result : Program S σ ε α) :=
  ⟨emits_orThrow result, keeps_orThrow result⟩

@[grind ←] theorem frame_bind {p : Program S σ ε α} {f : α → Program S σ ε β}
    (first : Frame calls view p) (second : ∀ a, Frame calls view (f a)) :
    Frame calls view (p >>= f) :=
  ⟨emits_bind first.emits fun a => (second a).emits, keeps_bind first.keeps fun a => (second a).keeps⟩

@[grind ←] theorem frame_map {f : α → β} {p : Program S σ ε α} (frame : Frame calls view p) :
    Frame calls view (f <$> p) := ⟨emits_map frame.emits, keeps_map frame.keeps⟩

@[grind ←] theorem frame_attempt {p : Program S σ ε α} {handler : ε → Program S σ ε α}
    (first : Frame calls view p) (second : ∀ e, Frame calls view (handler e)) :
    Frame calls view (attempt p handler) :=
  ⟨emits_attempt first.emits fun e => (second e).emits,
    keeps_attempt first.keeps fun e => (second e).keeps⟩

@[grind ←] theorem frame_ensure {p : Program S σ ε α} {last : Program S σ ε Unit}
    (first : Frame calls view p) (second : Frame calls view last) :
    Frame calls view (ensure p last) :=
  ⟨emits_ensure first.emits second.emits, keeps_ensure first.keeps second.keeps⟩

@[grind ←] theorem frame_whenever {condition : Prop} [Decidable condition]
    {p : Program S σ ε Unit} (frame : condition → Frame calls view p) :
    Frame calls view (whenever condition p) :=
  ⟨emits_whenever fun holds => (frame holds).emits, keeps_whenever fun holds => (frame holds).keeps⟩

@[grind ←] theorem frame_forEach {items : List α} {turn : α → Program S σ ε Unit}
    (each : ∀ item ∈ items, Frame calls view (turn item)) : Frame calls view (forEach items turn) :=
  ⟨emits_forEach fun item member => (each item member).emits,
    keeps_forEach fun item member => (each item member).keeps⟩

@[grind ←] theorem frame_whileWithin {start limit : Nat} {turn : β → Program S σ ε (β ⊕ α)}
    (each : ∀ b, Frame calls view (turn b)) (carried : β) :
    Frame calls view (whileWithin start limit turn carried) :=
  ⟨emits_whileWithin (fun b => (each b).emits) carried,
    keeps_whileWithin (fun b => (each b).keeps) carried⟩

end Frame

end Program

end OpenVibeHost.Effects
