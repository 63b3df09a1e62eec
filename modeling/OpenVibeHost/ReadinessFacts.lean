import OpenVibeHost.Runs

/-! What readiness says: a wait that ends well has seen the ready URL answer. -/
namespace OpenVibeHost.Readiness
open Effects Program

variable {env : Environment Machine} {base : List (Event Machine)} {svc : Service}

/-- A probe of the service's ready URL that is answered ok. -/
def Responds (svc : Service) (event : Event Machine) : Prop :=
  ∃ ready answer t, svc.ready = some ready ∧ event = ⟨.http ready.url ready.headers, answer, t⟩ ∧
    200 ≤ HttpAnswer.status answer ∧ HttpAnswer.status answer < 300

/-- The ready URL answered ok among these events, if the service declares one. -/
def Responded (svc : Service) (events : List (Event Machine)) : Prop :=
  svc.ready = none ∨ ∃ event ∈ events, Responds svc event

theorem Responded.append {events : List (Event Machine)} (answered : Responded svc events)
    (later : List (Event Machine)) : Responded svc (events ++ later) :=
  answered.imp id fun ⟨event, member, answers⟩ => ⟨event, List.mem_append_left _ member, answers⟩

theorem Responded.after {events : List (Event Machine)} (answered : Responded svc events)
    (earlier : List (Event Machine)) : Responded svc (earlier ++ events) :=
  answered.imp id fun ⟨event, member, answers⟩ => ⟨event, List.mem_append_right _ member, answers⟩

theorem meets_probe {err : Failure → World Machine Unit → Prop} :
    Meets env (Since base fun _ _ => True) (probe svc)
      (fun p => Since base fun more _ => p.ok = some true → Responded svc more) err := by
  unfold probe
  cases declared : svc.ready with
  | none => exact meets_pure fun w since => since.mono fun _ _ _ none => nomatch none
  | some ready =>
    refine meets_since_ask_then fun answer t => meets_pure fun w since => since.mono ?_
    rintro _ _ ⟨before, rfl, -⟩ ok
    have within : 200 ≤ HttpAnswer.status answer ∧ HttpAnswer.status answer < 300 := by simpa using ok
    exact .inr ⟨_, by simp, ready, answer, t, declared, rfl, within⟩

theorem never_probe : Blames (fun _ => False) (probe svc) := by
  unfold probe
  split
  · exact blames_pure _
  · exact blames_bind blames_ask fun r => blames_pure _

theorem never_showUnits (units : List String) : Blames (fun _ => False) (Systemd.showUnits units) := by
  unfold Systemd.showUnits
  refine blames_fold fun shown unit _ => blames_bind ?_ fun st => blames_pure _
  unfold Systemd.showUnit
  rw [systemctl_safe rfl rfl]
  exact blames_bind blames_ask fun r => blames_pure _

theorem never_missing (ready : Ready) (units : List String) (expectSha : Option String) :
    Blames (fun _ => False) (missing ready units expectSha) := by
  unfold missing
  refine blames_bind ?_ fun states => ?_
  · split
    · exact blames_map (never_showUnits units)
    · exact blames_pure _
  · dsimp only
    split
    · exact blames_pure _
    · split
      · split
        · refine blames_bind ?_ fun reason => blames_pure _
          unfold releaseMismatch
          refine blames_bind blames_ask fun r => ?_
          split
          · exact blames_pure _
          · split
            · exact blames_pure _
            · dsimp only
              split <;> exact blames_pure _
        · exact blames_pure _
      · exact blames_pure _

theorem never_waitReady (timeout : Option Nat) (expectSha : Option String) (units : List String) :
    Blames (fun _ => False) (waitReady svc timeout expectSha units) := by
  unfold waitReady
  split
  · exact blames_pure _
  · refine blames_bind blames_now fun start => blames_bind (blames_whileWithin (fun last => ?_) _)
      fun ended => ?_
    · unfold waitTurn
      refine blames_bind never_probe fun last => blames_bind ?_ fun found => ?_
      · split
        · exact never_missing _ _ _
        · exact blames_pure _
      · refine blames_bind blames_now fun t => ?_
        dsimp only
        split
        · exact blames_pure _
        · refine blames_bind ?_ fun states => ?_
          · split
            · exact blames_pure _
            · exact never_showUnits units
          · split
            · exact blames_pure _
            · exact blames_bind blames_ask fun _ => blames_pure _
    · split
      · exact blames_pure _
      · exact blames_bind blames_now fun t => blames_pure _

theorem meets_waitTurn {ready : Ready} {units : List String} {expectSha : Option String} {start : Nat}
    {last : Option String} {err : Failure → World Machine Unit → Prop} :
    Meets env (Since base fun _ _ => True) (waitTurn svc ready units expectSha start last)
      (Turned (Since base fun _ _ => True) fun verdict => Since base fun more _ =>
        verdict.ok = true → Responded svc more) err := by
  unfold waitTurn
  refine meets_bind meets_probe fun last => ?_
  refine meets_bind (M := fun found => Since base fun more _ => found.1 = none → Responded svc more)
    ?_ fun found => ?_
  · split
    · rename_i ok
      refine ((never_missing ready units expectSha).meets_kept
        fun more later answered => answered.append later).weaken (fun w since => ?_)
          (fun found w since => since.mono fun _ _ answered _ => answered) fun _ _ => id
      exact since.mono fun _ _ answered => answered ok
    · exact meets_pure fun w since => since.mono fun _ _ _ none => nomatch none
  · obtain ⟨reason, states⟩ := found
    refine meets_bind (M := fun _ => Since base fun more _ => reason = none → Responded svc more)
      (meets_now fun _ => id) fun t => ?_
    dsimp only
    cases reason with
    | none => exact meets_pure fun w since => since.mono fun _ _ answered _ => answered rfl
    | some reason =>
      have onward : ∀ w : World Machine Unit, Since base (fun more _ => some reason = none → Responded svc more) w →
        Since base (fun _ _ => True) w := fun w since => since.mono fun _ _ _ => trivial
      refine meets_bind (M := fun _ => Since base fun _ _ => True) ?_ fun shown => ?_
      · refine Meets.weaken (Blames.meets_onward ?_) onward (fun _ _ => id) fun _ _ => id
        split
        · exact blames_pure _
        · exact never_showUnits units
      · split
        · refine meets_pure fun w ⟨more, trace, _⟩ => ⟨more, trace, fun failed => ?_⟩
          exact nomatch failed
        · refine meets_bind (Blames.meets_onward blames_ask) fun _ => meets_pure fun _ => id

/-- A service that gets ready has answered; without a ready URL it is ready at once. -/
theorem meets_waitReady {timeout : Option Nat} {expectSha : Option String} {units : List String}
    {err : Failure → World Machine Unit → Prop} :
    Meets env (Since base fun _ _ => True) (waitReady svc timeout expectSha units)
      (fun verdict => Since base fun more _ => (verdict.ok = true → Responded svc more) ∧
        (svc.ready = none → verdict.ok = true)) err := by
  unfold waitReady
  cases declared : svc.ready with
  | none => exact meets_pure fun w since => since.mono fun _ _ _ => ⟨fun _ => .inl declared, fun _ => rfl⟩
  | some ready =>
    refine meets_bind (Blames.meets_onward blames_now) fun start => ?_
    refine meets_bind (meets_whileWithin fun last => meets_waitTurn) fun ended => ?_
    cases ended with
    | inl reason =>
      refine meets_bind (Blames.meets_onward blames_now) fun t => meets_pure fun w since => ?_
      exact since.mono fun _ _ _ => ⟨(nomatch ·), (nomatch ·)⟩
    | inr verdict =>
      refine meets_pure fun w since => ?_
      have seen : Since base (fun more _ => verdict.ok = true → Responded svc more) w := since
      exact seen.mono fun _ _ answered => ⟨answered, fun none => nomatch none⟩

end OpenVibeHost.Readiness
