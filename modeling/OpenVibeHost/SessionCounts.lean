import Mathlib.Algebra.Order.Ring.Unbundled.Rat
import OpenVibeHost.Runs

/-! What a count of protected sessions rests on: the values of the replies that it adds up,
and the counts after which the guard lets a restart go ahead. -/
namespace OpenVibeHost.Probes
open Effects Program Releases

/-! ### The parts of a reply -/

/-- What a reply has for one of the numbers of a probe. -/
inductive Part where
  | missing
  | items (matching : Nat)
  | field (added : Bool) (value : Json)
  | column (text : Option String)

/-- The number that the code reads off a part. -/
def Part.taken : Part → Option Rat
  | missing => none
  | items matching => some matching
  | field true .null => none
  | field _ value => Json.number (some value)
  | column text => Json.number (some (Json.ofText text))

/-- The number that a part states, where it is not a negative one: a JSON number, or in a
column the text of a number. -/
def Part.stated : Part → Option Rat
  | missing => none
  | items matching => some matching
  | field _ (.num value) => if 0 ≤ value then some value else none
  | field _ _ => none
  | column none => none
  | column (some text) =>
    if Json.trimChars text.toList = [] then none else (Json.numberOfText text).filter (0 ≤ ·)

theorem Part.taken_of_stated {part : Part} {n : Rat} (stated : part.stated = some n) :
    part.taken = some n ∧ 0 ≤ n := by
  cases part with
  | missing => exact nomatch stated
  | items matching =>
    obtain rfl := Option.some.inj stated
    exact ⟨rfl, Rat.natCast_nonneg⟩
  | field added value =>
    cases value with
    | num value =>
      simp only [Part.stated] at stated
      split at stated
      · obtain rfl := Option.some.inj stated
        exact ⟨by cases added <;> rfl, ‹_›⟩
      · exact nomatch stated
    | _ => exact nomatch stated
  | column text =>
    cases text with
    | none => exact nomatch stated
    | some text =>
      simp only [Part.stated] at stated
      split at stated
      · exact nomatch stated
      · obtain ⟨number, positive⟩ := Option.filter_eq_some_iff.mp stated
        exact ⟨number, of_decide_eq_true positive⟩

/-- The sum of what is read off the parts, if each can be read. -/
def tally : List Part → Option Rat
  | [] => some 0
  | part :: rest => part.taken.bind fun n => (tally rest).map (n + ·)

theorem tally_append (first second : List Part) :
    tally (first ++ second) = (tally first).bind fun n => (tally second).map (n + ·) := by
  induction first with
  | nil => simp [tally]
  | cons part rest ih =>
    simp only [List.cons_append, tally, ih]
    cases part.taken with
    | none => rfl
    | some n => cases tally rest <;> cases tally second <;> simp [add_assoc]

theorem tally_none {parts : List Part} : tally parts = none ↔ ∃ part ∈ parts, part.taken = none := by
  induction parts with
  | nil => simp [tally]
  | cons part rest ih =>
    cases read : part.taken with
    | none => simp [tally, read]
    | some n => simp [tally, read, ih]

/-- Where each part states a number, the sum is theirs. -/
theorem tally_stated {parts : List Part} (stated : ∀ part ∈ parts, part.stated.isSome) :
    tally parts = some (parts.map fun part => part.stated.getD 0).sum := by
  induction parts with
  | nil => rfl
  | cons part rest ih =>
    obtain ⟨n, number⟩ := Option.isSome_iff_exists.mp (stated part List.mem_cons_self)
    have rest' := ih fun other member => stated other (List.mem_cons_of_mem _ member)
    simp [tally, (Part.taken_of_stated number).1, rest', number]

/-! ### What the replies have -/

/-- The parts of an answer's body. A field that is added where it is present is no part
where it is absent. -/
def bodyParts (array : Option String) (whereFields : List (String × Json)) (countField : String)
    (addFields : List String) (body : Json) : List Part :=
  match array with
  | some path =>
    match valueAt body path with
    | some (.arr items) => [.items (items.filter (whereMatches whereFields)).length]
    | _ => [.missing]
  | none =>
    (match valueAt body countField with
      | some value => .field false value
      | none => .missing) :: (addFields.filterMap (valueAt body)).map (.field true)

theorem taken_field {value : Json} (some' : value ≠ .null) : (Part.field true value).taken = Json.number (some value) := by
  cases value <;> first | rfl | exact absurd rfl some'

theorem addAll_tally (body : Json) (total : Rat) (fields : List String) :
    (addAll body total fields).toOption =
      (tally ((fields.filterMap (valueAt body)).map (.field true))).map (total + ·) := by
  induction fields generalizing total with
  | nil => simp [addAll, tally, Except.toOption]
  | cons field rest ih =>
    cases found : valueAt body field with
    | none => simp [addAll, found, ih]
    | some value =>
      simp only [addAll, found, List.filterMap_cons_some found, List.map_cons, tally]
      cases value with
      | null => rfl
      | _ =>
        rw [taken_field (by simp)]
        dsimp only
        split
        · rename_i unread
          rw [unread]
          rfl
        · rename_i extra number
          rw [number, ih]
          cases tally ((rest.filterMap (valueAt body)).map (.field true)) <;> simp [add_assoc]

theorem countBody_tally (array : Option String) (whereFields : List (String × Json)) (countField : String)
    (addFields : List String) (body : Json) :
    (countBody array whereFields countField addFields body).toOption =
      tally (bodyParts array whereFields countField addFields body) := by
  unfold countBody bodyParts
  cases array with
  | some path =>
    dsimp only
    cases valueAt body path with
    | none => rfl
    | some value => cases value <;> simp [tally, Part.taken, Except.toOption]
  | none =>
    cases found : valueAt body countField with
    | none => rfl
    | some value =>
      simp only [tally, Part.taken]
      split
      · rename_i unread
        rw [unread]
        rfl
      · rename_i total number
        rw [number, addAll_tally]
        rfl

/-- What a probe asks. -/
def asks : CountProbe → Machine.Call
  | .httpJsonCount url headers .. => .http url headers
  | .postgresqlCount database sql => .psql database sql

/-- The parts of the reply to a probe. -/
def replied (probe : CountProbe) (event : Event Machine) : List Part :=
  match probe, event with
  | .httpJsonCount _ _ array whereFields countField addFields, ⟨.http .., r, _⟩ =>
    if HttpAnswer.status r < 200 ∨ 300 ≤ HttpAnswer.status r then [.missing]
    else
      match Json.parse (HttpAnswer.body r) with
      | none => [.missing]
      | some body => bodyParts array whereFields countField addFields body
  | .postgresqlCount .., ⟨.psql .., .ok rows, _⟩ =>
    match rows.head?.bind (·.head?) with
    | none => [.missing]
    | some column => [.column column.2]
  | _, _ => [.missing]

/-- The parts of the replies to the probes that were asked, in turn. -/
def partsIn (probes : List CountProbe) (events : List (Event Machine)) : List Part :=
  (probes.zip events).flatMap fun (probe, event) => replied probe event

section
variable {env : Environment Machine} {base : List (Event Machine)}

theorem meets_countOne (probe : CountProbe) :
    Meets env (fun w : World Machine Unit => w.trace = base) (countOne probe)
      (fun count w => ∃ event, w.trace = base ++ [event] ∧ event.call = asks probe ∧
        count.toOption = tally (replied probe event)) (fun _ _ => False) := by
  unfold countOne
  cases probe with
  | httpJsonCount url headers array whereFields countField addFields =>
    refine meets_bind (M := fun r w => ∃ t, w.trace = base ++ [⟨.http url headers, r, t⟩])
      (fun w start => ⟨_, congrArg (· ++ _) start⟩) fun r => ?_
    have event (t : Nat) : (⟨Call.http url headers, r, t⟩ : Event Machine).call =
        asks (.httpJsonCount url headers array whereFields countField addFields) := rfl
    split
    · rename_i bad
      exact meets_pure fun w ⟨t, trace⟩ => ⟨_, trace, event t, by
        simp [replied, bad, tally, Part.taken, Except.toOption]⟩
    · rename_i good
      split
      · rename_i unparsed
        exact meets_pure fun w ⟨t, trace⟩ => ⟨_, trace, event t, by
          simp [replied, good, unparsed, tally, Part.taken, Except.toOption]⟩
      · rename_i body parsed
        refine meets_pure fun w ⟨t, trace⟩ => ⟨_, trace, event t, ?_⟩
        simp only [replied, good, if_false, parsed]
        exact countBody_tally array whereFields countField addFields body
  | postgresqlCount database sql =>
    refine meets_attempt (T := fun _ w => ∃ refused t, w.trace = base ++ [⟨.psql database sql, .error refused, t⟩])
      ?_ fun e => meets_pure fun w ⟨refused, t, trace⟩ => ⟨_, trace, rfl, rfl⟩
    refine meets_bind (M := fun rows w => ∃ t, w.trace = base ++ [⟨.psql database sql, .ok rows, t⟩]) ?_ fun rows => ?_
    · unfold Exec.psql Exec.orReject
      refine meets_bind (M := fun r w => ∃ t, w.trace = base ++ [⟨.psql database sql, r, t⟩])
        (fun w start => ⟨_, congrArg (· ++ _) start⟩) fun r => ?_
      cases r with
      | ok rows => exact meets_ret fun w => id
      | error refused => exact meets_throw fun w ⟨t, trace⟩ => ⟨refused, t, trace⟩
    · dsimp only
      cases found : rows.head?.bind (·.head?) with
      | none => exact meets_pure fun w ⟨t, trace⟩ => ⟨_, trace, rfl, by
          simp [replied, found, tally, Part.taken, Except.toOption]⟩
      | some column =>
        dsimp only [Option.map]
        have read : (Part.column column.2).taken = Json.number (some (match column.2 with
          | some text => .str text
          | none => .null)) := by cases column.2 <;> rfl
        split
        · rename_i unread
          exact meets_pure fun w ⟨t, trace⟩ => ⟨_, trace, rfl, by
            simp [replied, found, tally, read.trans unread, Except.toOption]⟩
        · rename_i n number
          exact meets_pure fun w ⟨t, trace⟩ => ⟨_, trace, rfl, by
            simp [replied, found, tally, read.trans number, Except.toOption]⟩

/-- The probes of a sum are asked in turn, up to one whose count is unknown. -/
theorem meets_countSum (i : Nat) (total : Rat) (probes : List CountProbe) :
    Meets env (fun w : World Machine Unit => w.trace = base) (countSum i total probes)
      (fun count w => ∃ events, w.trace = base ++ events ∧ events.map (·.call) <+: probes.map asks ∧
        count.toOption = (tally (partsIn probes events)).map (total + ·) ∧
          ((∃ n, count = .ok n) → events.length = probes.length)) (fun _ _ => False) := by
  induction probes generalizing i total base with
  | nil =>
    exact meets_pure fun w start => ⟨[], by simpa using start, List.prefix_rfl, by
      simp [partsIn, tally, Except.toOption], fun _ => rfl⟩
  | cons probe rest ih =>
    unfold countSum
    refine meets_bind (meets_countOne probe) fun count => ?_
    rintro w ⟨event, trace, asked, counted⟩
    cases count with
    | error unknown =>
      have unread : tally (replied probe event) = none := counted.symm
      exact ⟨[event], trace, by simp [asked], by simp [partsIn, unread, Except.toOption], by simp⟩
    | ok n =>
      have read : tally (replied probe event) = some n := counted.symm
      refine (ih (i + 1) (total + n) w trace).mono ?_ fun _ _ => id
      rintro count w' ⟨events, trace', asked', counted', all⟩
      refine ⟨event :: events, by simp [trace'], ?_, ?_, fun known => congrArg (· + 1) (all known)⟩
      · rw [List.map_cons, List.map_cons, asked]
        exact List.prefix_cons_inj _ |>.mpr asked'
      · have parts : partsIn (probe :: rest) (event :: events) = replied probe event ++ partsIn rest events := rfl
        rw [parts, tally_append, read, counted']
        cases tally (partsIn rest events) <;> simp [add_assoc]

end

/-! ### What a count says of a running service -/

/-- The probes of a source. -/
def probesOf : SessionProbe → List CountProbe
  | .one probe => [probe]
  | .sum probes => probes

/-- A count is zero only where every probe was asked and every part states a number, and the
numbers sum to zero; and it is unknown where a part does not state one. -/
structure Faithful (probes : List CountProbe) (events : List (Event Machine)) (count : Counted) : Prop where
  zero : count = .ok 0 → events.length = probes.length ∧
    (∀ part ∈ partsIn probes events, part.stated.isSome) ∧
      ((partsIn probes events).map fun part => part.stated.getD 0).sum = 0
  unknown : (∃ part ∈ partsIn probes events, part.stated = none) → ∃ reason, count = .error reason

/-- No part is taken for a number that it does not state, unless another one cannot be read. -/
def Plain (parts : List Part) : Prop :=
  (∀ part ∈ parts, part.taken ≠ none) → ∀ part ∈ parts, part.stated ≠ none

theorem faithful_iff {probes : List CountProbe} {events : List (Event Machine)} {count : Counted}
    (counted : count.toOption = tally (partsIn probes events))
    (all : (∃ n, count = .ok n) → events.length = probes.length) :
    Faithful probes events count ↔ Plain (partsIn probes events) := by
  constructor
  · intro faithful readable part member unstated
    obtain ⟨reason, rfl⟩ := faithful.unknown ⟨part, member, unstated⟩
    obtain ⟨other, member', unread⟩ := tally_none.mp counted.symm
    exact readable other member' unread
  · intro plain
    have stated (n : Rat) (known : count = .ok n) :
        ∀ part ∈ partsIn probes events, part.stated ≠ none := by
      refine plain fun part member unread => ?_
      rw [known, tally_none.mpr ⟨part, member, unread⟩] at counted
      exact nomatch counted
    refine ⟨fun zero => ⟨all ⟨0, zero⟩, ?_, ?_⟩, fun ⟨part, member, unstated⟩ => ?_⟩
    · exact fun part member => Option.isSome_iff_ne_none.mpr (stated 0 zero part member)
    · rw [zero, tally_stated fun part member =>
        Option.isSome_iff_ne_none.mpr (stated 0 zero part member)] at counted
      exact (Option.some.inj counted).symm
    · cases count with
      | error reason => exact ⟨reason, rfl⟩
      | ok n => exact absurd unstated (stated n rfl part member)

/-- The replies that a count of a running service rests on. -/
def CountedOn (p : Protected) (base : List (Event Machine)) (sessions : Sessions)
    (trace events : List (Event Machine)) : Prop :=
  trace = base ++ events ∧ events.map (·.call) <+: (probesOf p.probe).map asks ∧
    sessions.count.toOption = tally (partsIn (probesOf p.probe) events) ∧
      ((∃ n, sessions.count = .ok n) → events.length = (probesOf p.probe).length)

section
variable {env : Environment Machine} {svc : Service} {p : Protected} {w0 : World Machine Unit}

theorem never_running (svc : Service) : Blames (fun _ => False) (running svc) := by
  unfold running
  refine blames_map (blames_firstOf fun unit _ => blames_bind ?_ fun st => blames_pure _)
  unfold Systemd.showUnit
  rw [systemctl_safe rfl rfl]
  exact blames_bind blames_ask fun r => blames_pure _

/-- A count of a service with protected sessions. -/
theorem meets_countProtected (declared : svc.sessions = some p) :
    Meets env (· = w0) (countProtected svc)
      (fun sessions w => (sessions.notRunning = true ∧ sessions.count = .ok 0) ∨
        sessions.notRunning = false ∧ ∃ w1 events, Program.run (running svc) env w0 = (.ok true, w1) ∧
          CountedOn p w1.trace sessions w.trace events) (fun _ _ => False) := by
  unfold countProtected
  rw [declared]
  refine meets_bind (M := fun runs w => Program.run (running svc) env w0 = (.ok runs, w)) ?_ fun runs => ?_
  · rintro w rfl
    cases ran : Program.run (running svc) env w with
    | mk result w1 =>
      cases result with
      | ok runs => rfl
      | error e =>
        obtain ⟨more, -, event, -, impossible⟩ := never_running svc env w e (congrArg Prod.fst ran)
        exact impossible.elim
  · cases runs with
    | false => exact meets_pure fun w _ => .inl ⟨rfl, rfl⟩
    | true =>
      simp only [not_true_eq_false, if_false]
      cases source : p.probe with
      | one probe =>
        intro w1 runs
        refine (meets_bind (meets_countOne probe) fun count => meets_pure ?_) w1 rfl
        rintro v ⟨event, trace, asked, counted⟩
        refine .inr ⟨rfl, w1, [event], runs, trace, ?_, ?_, fun _ => ?_⟩
        · simp [source, probesOf, asked]
        · simpa [source, probesOf, partsIn] using counted
        · simp [source, probesOf]
      | sum probes =>
        intro w1 runs
        refine (meets_bind (meets_countSum 0 0 probes) fun count => meets_pure ?_) w1 rfl
        rintro v ⟨events, trace, asked, counted, all⟩
        refine .inr ⟨rfl, w1, events, runs, trace, ?_, ?_, ?_⟩
        · simpa [source, probesOf] using asked
        · simpa [source, probesOf] using counted
        · simpa [source, probesOf] using all

/-- An idle count is a known one. -/
theorem idle_known {sessions : Sessions} {w w' : World Machine Unit}
    (ran : Program.run (countProtected svc) env w = (.ok sessions, w')) (idle : sessions.idle = true) :
    ∃ n, sessions.count = .ok n := by
  cases declared : svc.sessions with
  | none =>
    unfold countProtected at ran
    rw [declared] at ran
    obtain ⟨same, -⟩ := Prod.mk.inj ran
    obtain rfl := Except.ok.inj same
    exact ⟨0, rfl⟩
  | some p =>
    have counted := @meets_countProtected env svc p w declared w rfl
    rw [ran] at counted
    obtain ⟨-, known⟩ | ⟨runs, -⟩ := counted
    · exact ⟨0, known⟩
    · cases count : sessions.count with
      | ok n => exact ⟨n, rfl⟩
      | error reason => simp [Sessions.idle, runs, count] at idle

end

/-! ### What the guard lets go ahead -/

/-- A call that counts no sessions. -/
def noCount (call : Machine.Call) : Bool :=
  match call with
  | .http .. | .psql .. => false
  | _ => true

/-- The last `n` counts of sessions were known, and found the service idle. -/
inductive Idled (env : Environment Machine) (svc : Service) (base : List (Event Machine)) :
    Nat → List (Event Machine) → Prop
  | start {trace : List (Event Machine)} (onward : base <+: trace) : Idled env svc base 0 trace
  | again {n : Nat} {w w' : World Machine Unit} {sessions : Sessions} {count : Rat}
      {after : List (Event Machine)} (earlier : Idled env svc base n w.trace)
      (ran : Program.run (countProtected svc) env w = (.ok sessions, w')) (known : sessions.count = .ok count)
      (idle : sessions.idle = true) (uncounted : ∀ event ∈ after, noCount event.call = true) :
      Idled env svc base (n + 1) (w'.trace ++ after)

/-- The guard let a restart go ahead on known counts: the first one, which was idle or which
the policy reports, or so many idle ones in a row as the drain asks for. -/
def Cleared (env : Environment Machine) (svc : Service) (opts : Options)
    (base trace : List (Event Machine)) : Prop :=
  (∃ (w w' : World Machine Unit) (sessions : Sessions) (n : Rat), w.trace = base ∧
    Program.run (countProtected svc) env w = (.ok sessions, w') ∧ sessions.count = .ok n ∧ trace = w'.trace ∧
      (sessions.idle = true ∨ (svc.drain.policy = .report ∧ opts.waitIdle = false))) ∨
  ∃ n, svc.drain.enough n = true ∧ Idled env svc base n trace

section
variable {env : Environment Machine} {svc : Service} {base : List (Event Machine)} {n : Nat}

theorem Idled.onward {trace : List (Event Machine)} (idled : Idled env svc base n trace) : base <+: trace := by
  induction idled with
  | start onward => exact onward
  | again _ ran _ _ _ ih =>
    exact ih.trans ((ran_onward ran).trans (List.prefix_append _ _))

theorem Idled.append {trace more : List (Event Machine)} (idled : Idled env svc base n trace)
    (uncounted : ∀ event ∈ more, noCount event.call = true) : Idled env svc base n (trace ++ more) := by
  cases idled with
  | start onward => exact .start (onward.trans (List.prefix_append _ _))
  | again earlier ran known idle quiet =>
    rw [List.append_assoc]
    refine .again earlier ran known idle fun event member => ?_
    obtain early | late := List.mem_append.mp member
    · exact quiet event early
    · exact uncounted event late

/-- What counts no sessions leaves the counts the last ones. -/
theorem meets_uncounted {σ α : Type} {p : Program Machine σ Failure α} (emits : Emits noCount p) :
    Meets env (fun w => Idled env svc base n w.trace) p (fun _ w => Idled env svc base n w.trace)
      (fun _ w => Idled env svc base n w.trace) := by
  refine emits.meets (show Keeps (fun _ => ()) p from fun _ _ => rfl) ?_
  rintro w w' idled - ⟨more, trace, quiet⟩
  rw [trace]
  exact idled.append quiet

/-- A count, from a run of several. -/
theorem meets_count {trace : List (Event Machine)} :
    Meets env (fun w : World Machine Deploy => w.trace = trace) (liftM (countProtected svc) : Ops Sessions)
      (fun sessions w => ∃ v v' : World Machine Unit, v.trace = trace ∧
        Program.run (countProtected svc) env v = (.ok sessions, v') ∧ w.trace = v'.trace) (fun _ _ => True) := by
  rintro w rfl
  cases ran : (liftM (countProtected svc) : Ops Sessions).run env w with
  | mk result final =>
    obtain ⟨last, counted, -, -, trace⟩ := run_liftM ran
    cases result with
    | error e => trivial
    | ok sessions => exact ⟨_, last, rfl, counted, trace⟩

theorem meets_pollTurn (start : Nat) (carried : Nat × Sessions) :
    Meets env (fun w => Idled env svc base carried.1 w.trace) (ReleaseOps.pollTurn svc start carried)
      (Sum.elim (fun carried w => Idled env svc base carried.1 w.trace)
        fun _ w => ∃ n, svc.drain.enough n = true ∧ Idled env svc base n w.trace) (fun _ _ => True) := by
  unfold ReleaseOps.pollTurn
  refine meets_bind (M := fun _ w => Idled env svc base carried.1 w.trace)
    ((meets_uncounted (emits_liftM (emits_ask rfl))).weaken (fun _ => id) (fun _ _ => id) fun _ _ _ => trivial) fun _ => ?_
  refine meets_bind (M := fun last w => Idled env svc base (if last.idle then carried.1 + 1 else 0) w.trace) ?_ fun last => ?_
  · intro w idled
    refine (meets_count w rfl).mono ?_ fun _ _ => id
    rintro last w' ⟨v, v', same, counted, trace⟩
    rw [trace]
    split
    · rename_i idle
      obtain ⟨n, known⟩ := idle_known counted idle
      rw [← List.append_nil v'.trace]
      exact .again (same ▸ idled) counted known idle (by simp)
    · exact .start ((same ▸ idled.onward).trans (ran_onward counted))
  · dsimp only
    generalize (if last.idle = true then carried.1 + 1 else 0) = quiet
    split
    · rename_i enough
      refine meets_bind (M := fun _ w => ∃ n, svc.drain.enough n = true ∧ Idled env svc base n w.trace)
        (meets_now fun w idled => ⟨_, enough, idled⟩) fun t => ?_
      exact meets_bind (M := fun _ w => ∃ n, svc.drain.enough n = true ∧ Idled env svc base n w.trace)
        (fun w now => now) fun _ => meets_pure fun w => id
    · exact meets_pure fun w => id

theorem meets_poll (start : Nat) (first : Sessions) :
    Meets env (fun w => base <+: w.trace) (ReleaseOps.poll svc start first)
      (fun _ w => ∃ n, svc.drain.enough n = true ∧ Idled env svc base n w.trace) (fun _ _ => True) := by
  unfold ReleaseOps.poll
  refine meets_bind ((meets_whileWithin_carried (meets_pollTurn start)).weaken
    (fun w onward => Idled.start onward) (fun _ _ => id) fun _ _ => id) fun ended => ?_
  cases ended with
  | inl carried => exact meets_throw fun _ _ => trivial
  | inr done => exact meets_pure fun w => id

theorem lock_uncounted : Allows noCount .lock := by
  intro call same
  cases call <;> first | rfl | exact nomatch same

/-- The wait lets go of the host lock, and takes it back after its last count. -/
theorem meets_waits (inv : Inventory) (start : Nat) (first : Sessions) :
    Meets env (fun w => base <+: w.trace)
      (ReleaseOps.waitOutsideLock inv svc (ReleaseOps.poll svc start first))
      (fun _ w => ∃ n, svc.drain.enough n = true ∧ Idled env svc base n w.trace) (fun _ _ => True) := by
  have lets : Meets env (fun w : World Machine Deploy => base <+: w.trace)
      (liftM Locks.releaseHost : Ops Unit) (fun _ w => base <+: w.trace) (fun _ _ => True) :=
    fun w onward => onward.trans (List.prefix_append _ _)
  have takes (n : Nat) : Meets env (fun w : World Machine Deploy => Idled env svc base n w.trace)
      (do
        liftM (Locks.acquireHost inv svc)
        update fun s => { s with hostLock := true } : Ops Unit)
      (fun _ w => Idled env svc base n w.trace) (fun _ _ => True) :=
    meets_bind ((meets_uncounted (emits_liftM (emits_acquireHost lock_uncounted inv svc))).weaken
      (fun _ => id) (fun _ _ => id) fun _ _ _ => trivial) fun _ => meets_update fun w => id
  unfold ReleaseOps.waitOutsideLock
  refine meets_bind lets fun _ => meets_bind (M := fun _ w => base <+: w.trace)
    (meets_update fun w => id) fun _ => meets_ensure (meets_poll start _) (fun _ => ?_) fun e => meets_anyhow _
  rintro w ⟨n, enough, idled⟩
  exact (takes n w idled).mono (fun _ w' idled => ⟨n, enough, idled⟩) fun _ _ => id

/-- A guard that returns, and does not force, rests on known counts. -/
theorem meets_guardSessions {inv : Inventory} {opts : Options} {checkedWhen : String}
    (unforced : opts.force = false) :
    Meets env (fun w => w.trace = base) (ReleaseOps.guardSessions inv svc opts checkedWhen)
      (fun _ w => Cleared env svc opts base w.trace) (fun _ _ => True) := by
  unfold ReleaseOps.guardSessions
  refine meets_bind meets_count fun first => ?_
  refine meets_bind (M := fun _ w => ∃ v v' : World Machine Unit, v.trace = base ∧
    Program.run (countProtected svc) env v = (.ok first, v') ∧ w.trace = v'.trace)
    (fun w now => now) fun _ => ?_
  refine meets_ite (fun idle => ?_) fun _ => ?_
  · refine meets_pure ?_
    rintro w ⟨v, v', same, counted, trace⟩
    obtain ⟨n, known⟩ := idle_known counted idle
    exact .inl ⟨v, v', first, n, same, counted, known, trace, .inl idle⟩
  · rw [unforced, if_neg Bool.false_ne_true]
    refine meets_ite (fun reports => ?_) fun _ => meets_ite (fun _ => ?_) fun _ => ?_
    · refine meets_pure ?_
      rintro w ⟨v, v', same, counted, trace⟩
      obtain ⟨policy, known, waitIdle⟩ := reports
      split at known
      · rename_i n count
        exact .inl ⟨v, v', first, n, same, counted, count, trace, .inr ⟨policy, waitIdle⟩⟩
      · exact nomatch known
    · exact meets_throw fun _ _ => trivial
    · refine meets_bind (M := fun _ w => base <+: w.trace) (meets_now ?_) fun start => ?_
      · rintro w ⟨v, v', rfl, counted, trace⟩
        exact trace ▸ ran_onward counted
      · exact (meets_waits inv start first).weaken (fun _ => id) (fun _ w cleared => .inr cleared)
          fun _ _ => id

end

/-- A count of a running service says what its replies state exactly where none of their parts
is taken for a number that it does not state; and with a drain that asks for idle checks, the
guard goes by known counts. -/
theorem counts_what_is_stated (env : Environment Machine) (svc : Service) :
    (∀ p, svc.sessions = some p → ∀ w : World Machine Unit, ∃ sessions final,
      Program.run (countProtected svc) env w = (.ok sessions, final) ∧
        (sessions.notRunning = true ∨ ∃ w1 events, Program.run (running svc) env w = (.ok true, w1) ∧
          final.trace = w1.trace ++ events ∧ events.map (·.call) <+: (probesOf p.probe).map asks ∧
            (Faithful (probesOf p.probe) events sessions.count ↔ Plain (partsIn (probesOf p.probe) events)))) ∧
    (svc.drain.enough 0 = false → ∀ inv opts checkedWhen (w final : World Machine Deploy), opts.force = false →
      (ReleaseOps.guardSessions inv svc opts checkedWhen).run env w = (.ok (), final) →
        Cleared env svc opts w.trace final.trace ∧
          ∃ (v v' : World Machine Unit) (sessions : Sessions) (n : Rat) (after : List (Event Machine)),
            Program.run (countProtected svc) env v = (.ok sessions, v') ∧ sessions.count = .ok n ∧
              w.trace <+: v.trace ∧ final.trace = v'.trace ++ after ∧ ∀ event ∈ after, noCount event.call = true) := by
  constructor
  · intro p declared w
    have counted := @meets_countProtected env svc p w declared w rfl
    cases ran : Program.run (countProtected svc) env w with
    | mk result final =>
      rw [ran] at counted
      cases result with
      | error e => exact counted.elim
      | ok sessions =>
        refine ⟨sessions, final, rfl, counted.imp And.left ?_⟩
        rintro ⟨-, w1, events, runs, trace, asked, counted, all⟩
        exact ⟨w1, events, runs, trace, asked, faithful_iff counted all⟩
  · intro checks inv opts checkedWhen w final unforced ran
    have cleared := @meets_guardSessions env svc w.trace inv opts checkedWhen unforced w rfl
    rw [ran] at cleared
    refine ⟨cleared, ?_⟩
    obtain ⟨v, v', sessions, n, same, counted, known, trace, -⟩ | ⟨n, enough, idled⟩ := cleared
    · exact ⟨v, v', sessions, n, [], counted, known, same ▸ List.prefix_rfl, by simp [trace], by simp⟩
    · generalize final.trace = trace at idled
      cases idled with
      | start => exact nomatch checks.symm.trans enough
      | again earlier counted known idle uncounted =>
        exact ⟨_, _, _, _, _, counted, known, earlier.onward, rfl, uncounted⟩

/-! ### A reply that is read as zero -/

/-- A service with the sessions that its health page names. -/
def chat : Service where
  id := "chat"
  repo := "/srv/chat"
  owner := "chat"
  runAs := "chat"
  units := ["chat.service"]
  sessions := some { probe := .one (.httpJsonCount "http://127.0.0.1:9004/ready" [] none [] "calls" []) }
  unit_service := by decide
  socket_socket := Service.no_socket
  auxiliary_apart := by decide
  workers_service := Service.no_unit
  workers_apart := by decide
  auxiliary_no_worker := Service.no_auxiliary_worker
  sources_apart := Service.no_source
  sources_named := Service.no_source_named
  laid_out := Service.no_layout

/-- The service is up, and cannot tell its sessions. -/
def cannotTell : Environment Machine where
  answer _ call := match call with
    | .systemctl .show _ => { stdout := "ActiveState=active\nSubState=running" }
    | .http .. => { status := 200, body := "\x7b\"calls\":null\x7d" }
    | other => steady other
  takes _ _ := 0

theorem chat_counted : (match (Program.run (countProtected chat) cannotTell ⟨(), 0, []⟩).1 with
    | .ok sessions => !sessions.notRunning && sessions.idle
    | .error _ => false) = true := by decide +kernel

theorem chat_unstated : ((partsIn (probesOf (chat.sessions.get rfl).probe)
    ((Program.run (countProtected chat) cannotTell ⟨(), 0, []⟩).2.trace.drop
      (Program.run (running chat) cannotTell ⟨(), 0, []⟩).2.trace.length)).any (·.stated.isNone)) = true := by
  decide +kernel

/-- The count is zero, and its part states no number. -/
theorem null_read_as_zero : ¬ ∀ (env : Environment Machine) (svc : Service) (p : Protected),
    svc.sessions = some p → ∀ w : World Machine Unit, ∃ sessions final,
      Program.run (countProtected svc) env w = (.ok sessions, final) ∧
        (sessions.notRunning = true ∨ ∃ w1 events, Program.run (running svc) env w = (.ok true, w1) ∧
          final.trace = w1.trace ++ events ∧ events.map (·.call) <+: (probesOf p.probe).map asks ∧
            Faithful (probesOf p.probe) events sessions.count) := by
  intro claim
  obtain ⟨sessions, final, ran, ended⟩ := claim cannotTell chat _ rfl ⟨(), 0, []⟩
  have counted := chat_counted
  have unstated := chat_unstated
  rw [ran] at counted unstated
  obtain ⟨up, idle⟩ := Bool.and_eq_true_iff.mp counted
  have up : sessions.notRunning = false := by simpa using up
  obtain down | ⟨w1, events, runs, trace, -, faithful⟩ := ended
  · exact nomatch up.symm.trans down
  · rw [runs] at unstated
    dsimp only at unstated
    rw [trace, List.drop_left] at unstated
    obtain ⟨part, member, missing⟩ := List.any_eq_true.mp unstated
    obtain ⟨reason, unknown⟩ := faithful.unknown ⟨part, member, Option.isNone_iff_eq_none.mp missing⟩
    simp [Sessions.idle, up, unknown] at idle

end OpenVibeHost.Probes
