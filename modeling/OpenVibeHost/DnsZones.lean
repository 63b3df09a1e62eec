import OpenVibeHost.DnsChanges
import OpenVibeHost.JsonRoundTrip

/-! What the changes of `ovhost dns` make of a zone that keeps what it is told. -/
namespace OpenVibeHost.Dns
open Effects Program Operator

section
variable {env : Environment Operator} {runtime : Runtime} {host : Host} {options : Options}
  {w final : World Operator Unit} {made : List (Event Operator)} {token name type : String}

structure Zone where
  id : String
  name : String

structure Record where
  id : String
  name : String
  type : String
  content : String
  proxied : Bool
  ttl : Rat

/-- What a record is found under. -/
def Record.key (r : Record) : String × String := (r.name, r.type)

/-- How an answer tells of a record. -/
structure Record.Told (r : Record) (json : Json) : Prop where
  there : json.truthy = true
  id : json.field "id" = some (.str r.id)
  content : json.field "content" = some (.str r.content)
  proxied : (json.field "proxied").any Json.truthy = r.proxied
  ttl : json.field "ttl" = some (.num r.ttl)

/-- A record that is as wanted; the `ttl` of one that is proxied may be automatic. -/
structure Record.Is (r : Record) (want : Wanted) : Prop where
  key : r.key = (want.name, want.type)
  content : r.content = want.content
  proxied : want.type ∈ proxyable → r.proxied = want.proxied.getD false
  ttl : r.ttl = want.ttl.getD 1 ∨ want.type ∈ proxyable ∧ want.proxied = some true ∧ r.ttl = 1

/-- A call that changes nothing at Cloudflare. -/
def Apart (call : Operator.Call) : Prop :=
  ∀ sent : Request, call = .request sent → beginsWith sent.url api = true → sent.method = "GET"

theorem apart_of_reading {call : Operator.Call} (reads : reading call = true) : Apart call := by
  rintro sent rfl -
  simpa [reading] using reads

/-- What a request leaves: what is done, though it may be done and seem refused, or what was there, if it is refused. -/
def Takes {α : Type} (answer : HttpAnswer) (before done after : α) : Prop :=
  after = done ∨ resultIn answer = none ∧ after = before

/-- Cloudflare: it refuses a request, or does what it is asked. -/
structure Cloudflare (env : Environment Operator) (runtime : Runtime) where
  zones : List Zone
  /-- The records of a zone, by its id, after what happened. -/
  records : List (Event Operator) → String → List Record
  distinct : ∀ past zone, ((records past zone).map Record.id).Nodup
  stays : ∀ (past : List (Event Operator)) (event : Event Operator), Apart event.call →
    records (past ++ [event]) = records past
  zoned : ∀ past token labels result,
    resultIn (env.answer past (.request (apiRequest token "GET" (zoneRoute runtime labels) none))) = some result →
      ∃ rows, result = some (.arr rows) ∧
        List.Forall₂ (fun zone row => Json.field "id" row = some (.str zone.id))
          (zones.filter fun zone => zone.name = dotted labels) rows
  found : ∀ past token, ∀ zone ∈ zones, ∀ name, ∀ type ∈ types, ∀ result,
    resultIn (env.answer past (.request (apiRequest token "GET" (findRoute runtime (some (.str zone.id)) name type)
      none))) = some result →
      ∃ rows, result = some (.arr rows) ∧
        List.Forall₂ Record.Told ((records past zone.id).filter fun r => r.key = (name, type)) rows
  created : ∀ (w : World Operator Unit) token, ∀ zone ∈ zones, ∀ want : Wanted, want.ttl.any isTtl = true →
    let sent := apiRequest token "POST" (recordsRoute (some (.str zone.id))) (some (bodyOf want))
    ∃ new : Record, new.Is want ∧
      Takes (replied env w sent) (records w.trace)
        (Function.update (records w.trace) zone.id (records w.trace zone.id ++ [new]))
        (records (called env (.request sent) w).trace)
  replaced : ∀ (w : World Operator Unit) token, ∀ zone ∈ zones, ∀ record ∈ records w.trace zone.id, ∀ want : Wanted,
    want.ttl.any isTtl = true →
    let sent := apiRequest token "PUT" (recordRoute (some (.str zone.id)) (some (.str record.id))) (some (bodyOf want))
    ∃ new : Record, new.Is want ∧
      Takes (replied env w sent) (records w.trace)
        (Function.update (records w.trace) zone.id
          ((records w.trace zone.id).map fun r => if r.id = record.id then new else r))
        (records (called env (.request sent) w).trace)
  deleted : ∀ (w : World Operator Unit) token, ∀ zone ∈ zones, ∀ record ∈ records w.trace zone.id,
    let sent := apiRequest token "DELETE" (recordRoute (some (.str zone.id)) (some (.str record.id))) none
    Takes (replied env w sent) (records w.trace)
      (Function.update (records w.trace) zone.id ((records w.trace zone.id).filter fun r => r.id ≠ record.id))
      (records (called env (.request sent) w).trace)

namespace Cloudflare

variable (cloud : Cloudflare env runtime)

theorem stays_all {more : List (Event Operator)} (past : List (Event Operator)) (apart : ∀ event ∈ more, Apart event.call) :
    cloud.records (past ++ more) = cloud.records past := by
  induction more generalizing past with
  | nil => rw [List.append_nil]
  | cons event rest ih =>
    have split : past ++ event :: rest = (past ++ [event]) ++ rest := by simp
    rw [split, ih _ fun later mem => apart later (List.mem_cons_of_mem _ mem),
      cloud.stays past event (apart event List.mem_cons_self)]

/-- The zone of the longest suffix that is one. -/
def zoneOf : List (List Char) → Option Zone
  | label :: next :: rest =>
    (cloud.zones.find? fun zone => zone.name = dotted (label :: next :: rest)).or (zoneOf (next :: rest))
  | _ => none

/-- The records under a name and a type, in the zone of the name. -/
def held (key : String × String) (past : List (Event Operator)) : List Record :=
  (cloud.zoneOf (labelsOf key.1)).elim [] fun zone => (cloud.records past zone.id).filter fun r => r.key = key

theorem zoneAmong_goes {labels : List (List Char)} {zone : Json}
    (run : Goes env (zoneAmong runtime token name labels) w (.ok zone) made final) :
    ∃ z ∈ cloud.zones, cloud.zoneOf labels = some z ∧ zone.field "id" = some (.str z.id) := by
  induction labels generalizing w made with
  | nil =>
    unfold zoneAmong at run
    cases (goes_throw.mp run).1
  | cons label more ih =>
    cases more with
    | nil =>
      unfold zoneAmong at run
      cases (goes_throw.mp run).1
    | cons next rest =>
      unfold zoneAmong at run
      rcases goes_cf run with ⟨-, ⟨message, failed⟩, -⟩ | ⟨answered, later, took, after, -⟩
      · cases failed
      · obtain ⟨rows, rfl, told⟩ := cloud.zoned w.trace token _ _ took
        rw [zoneOf, ← List.head?_filter]
        cases rows with
        | nil =>
          rw [List.forall₂_nil_right_iff.mp told]
          exact ih after
        | cons row others =>
          obtain ⟨z, zones, first, -, whole⟩ := List.forall₂_cons_right_iff.mp told
          have mem : z ∈ cloud.zones.filter fun zone => zone.name = dotted (label :: next :: rest) := by
            rw [whole]
            exact List.mem_cons_self
          obtain ⟨same, -, -⟩ := goes_pure.mp after
          cases same
          refine ⟨z, List.mem_of_mem_filter mem, ?_, first⟩
          rw [whole]
          rfl

/-- What is found is what is held. -/
theorem looked {zone : Json} {id existing : Option Json} {first : List (Event Operator)} {mid : World Operator Unit}
    (looked : Looked env runtime token name type w zone id existing first mid) (typed : type ∈ types) :
    ∃ z ∈ cloud.zones, cloud.zoneOf (labelsOf name) = some z ∧ id = some (.str z.id) ∧
      cloud.records mid.trace = cloud.records w.trace ∧
      ∃ rows, existing = some (.arr rows) ∧ List.Forall₂ Record.Told (cloud.held (name, type) mid.trace) rows := by
  have unchanged : cloud.records mid.trace = cloud.records w.trace := by
    rw [looked.trace]
    exact cloud.stays_all w.trace fun event mem => apart_of_reading (looked.silent event mem)
  obtain ⟨start, more, -, run⟩ := looked.found
  unfold find at run
  rcases goes_bind.mp run with ⟨e, failed, same⟩ | ⟨zone', one, next, rest, zones, after, rfl⟩
  · cases same
  obtain ⟨z, mem, is, told⟩ := cloud.zoneAmong_goes zones
  rcases goes_bind.mp after with ⟨e, failed, same⟩ | ⟨id', two, next', rest', ids, last, rfl⟩
  · cases same
  obtain ⟨rfl, rfl, named⟩ := property_goes ids
  obtain ⟨there, same, rfl⟩ := named id' rfl
  cases same
  rcases goes_cf last with ⟨-, ⟨message, failed⟩, -⟩ | ⟨answered, rest, took, ends, -⟩
  · cases failed
  · obtain ⟨same, -, rfl⟩ := goes_pure.mp ends
    cases same
    rw [told] at took
    obtain ⟨rows, rfl, holds⟩ := cloud.found _ token z mem _ _ typed _ took
    refine ⟨z, mem, is, told, unchanged, rows, rfl, ?_⟩
    have asked : cloud.records (called env (.request (apiRequest token "GET" (findRoute runtime (zone.field "id") name type)
        none)) next').trace = cloud.records next'.trace := cloud.stays _ _ (apart_of_reading rfl)
    rw [held, is, Option.elim_some, asked]
    exact holds

/-! ### What a change leaves -/

variable {past after : List (Event Operator)} {zone : Zone} {key own : String × String} {left : List Record}

theorem key_of_held {record : Record} (mem : record ∈ cloud.held key past) : record.key = key := by
  unfold held at mem
  cases is : cloud.zoneOf (labelsOf key.1) with
  | none =>
    rw [is] at mem
    cases mem
  | some zone =>
    rw [is] at mem
    simpa using (List.mem_filter.mp mem).2

theorem held_own (is : cloud.zoneOf (labelsOf own.1) = some zone)
    (updated : cloud.records after = Function.update (cloud.records past) zone.id left) :
    cloud.held own after = left.filter fun r => r.key = own := by
  rw [held, is, Option.elim_some, updated, Function.update_self]

theorem held_other (updated : cloud.records after = Function.update (cloud.records past) zone.id left)
    (kept : (left.filter fun r => r.key = key) = (cloud.records past zone.id).filter fun r => r.key = key) :
    cloud.held key after = cloud.held key past := by
  unfold held
  cases cloud.zoneOf (labelsOf key.1) with
  | none => rfl
  | some z =>
    rw [Option.elim_some, Option.elim_some, updated]
    by_cases same : z.id = zone.id
    · rw [same, Function.update_self, kept]
    · rw [Function.update_of_ne same]

theorem filter_replaced (new : Record) {records : List Record} {record : Record} {p : Record → Bool}
    (distinct : (records.map Record.id).Nodup) (mem : record ∈ records) (same : p new = p record) :
    (records.map fun r => if r.id = record.id then new else r).filter p =
      (records.filter p).map fun r => if r.id = record.id then new else r := by
  rw [List.filter_map]
  congr 1
  refine List.filter_congr fun r there => ?_
  by_cases here : r.id = record.id
  · have only := List.inj_on_of_nodup_map distinct there mem here
    simp [same, only]
  · simp [here]

theorem filter_deleted {records : List Record} {record : Record} {p : Record → Bool}
    (distinct : (records.map Record.id).Nodup) (mem : record ∈ records) (out : p record = false) :
    (records.filter fun r => r.id ≠ record.id).filter p = records.filter p := by
  rw [List.filter_filter]
  refine List.filter_congr fun r there => ?_
  by_cases here : r.id = record.id
  · rw [List.inj_on_of_nodup_map distinct there mem here, out]
    simp
  · simp [here]

/-- What a write leaves under each key, where it keeps all others. -/
structure Wrote (own : String × String) (past after : List (Event Operator)) (took : Prop) (left : List Record → Prop) :
    Prop where
  others : ∀ key, key ≠ own → cloud.held key after = cloud.held key past
  own : took → left (cloud.held own after)

theorem takes_wrote {answer : HttpAnswer} (own : String × String) (is : cloud.zoneOf (labelsOf own.1) = some zone)
    (takes : Takes answer (cloud.records past) (Function.update (cloud.records past) zone.id left) (cloud.records after))
    (kept : ∀ key, key ≠ own →
      (left.filter fun r => r.key = key) = (cloud.records past zone.id).filter fun r => r.key = key) :
    cloud.Wrote own past after ((resultIn answer).isSome = true) (· = left.filter fun r => r.key = own) := by
  rcases takes with updated | ⟨refused, same⟩
  · exact ⟨fun key other => cloud.held_other updated (kept key other), fun _ => cloud.held_own is updated⟩
  · refine ⟨fun key _ => ?_, fun took => ?_⟩
    · unfold held
      rw [same]
    · rw [refused] at took
      cases took

theorem create_wrote {want : Wanted} (mem : zone ∈ cloud.zones) (ttl : want.ttl.any isTtl = true)
    (is : cloud.zoneOf (labelsOf want.name) = some zone)
    (free : cloud.held (want.name, want.type) w.trace = []) :
    let sent := apiRequest token "POST" (recordsRoute (some (.str zone.id))) (some (bodyOf want))
    cloud.Wrote (want.name, want.type) w.trace (called env (.request sent) w).trace
      ((resultIn (replied env w sent)).isSome = true) fun left => ∃ r, left = [r] ∧ r.Is want := by
  obtain ⟨new, same, takes⟩ := cloud.created w token zone mem want ttl
  have wrote := cloud.takes_wrote (want.name, want.type) is takes fun key other => by
    rw [List.filter_append, List.filter_cons_of_neg (by simpa [same.key] using Ne.symm other), List.filter_nil,
      List.append_nil]
  refine ⟨wrote.others, fun took => ⟨new, ?_, same⟩⟩
  rw [held, is, Option.elim_some] at free
  rw [wrote.own took, List.filter_append, free, List.filter_cons_of_pos (by simp [same.key]), List.filter_nil]
  rfl

theorem replace_wrote {want : Wanted} {record : Record} (mem : zone ∈ cloud.zones) (ttl : want.ttl.any isTtl = true)
    (is : cloud.zoneOf (labelsOf want.name) = some zone)
    (single : cloud.held (want.name, want.type) w.trace = [record]) :
    let sent := apiRequest token "PUT" (recordRoute (some (.str zone.id)) (some (.str record.id))) (some (bodyOf want))
    cloud.Wrote (want.name, want.type) w.trace (called env (.request sent) w).trace
      ((resultIn (replied env w sent)).isSome = true) fun left => ∃ r, left = [r] ∧ r.Is want := by
  rw [held, is, Option.elim_some] at single
  have there : record ∈ (cloud.records w.trace zone.id).filter fun r => r.key = (want.name, want.type) := by
    rw [single]
    exact List.mem_cons_self
  obtain ⟨there, keyed⟩ := List.mem_filter.mp there
  have keyed : record.key = (want.name, want.type) := by simpa using keyed
  obtain ⟨new, same, takes⟩ := cloud.replaced w token zone mem record there want ttl
  have replaced := fun key => filter_replaced new (p := fun r => r.key = key) (cloud.distinct w.trace zone.id)
    there (by rw [same.key, keyed])
  have wrote := cloud.takes_wrote (want.name, want.type) is takes fun key other => by
    rw [replaced]
    refine (List.map_congr_left fun r mem => if_neg fun here => ?_).trans (List.map_id' _)
    obtain ⟨mem, at'⟩ := List.mem_filter.mp mem
    have only := List.inj_on_of_nodup_map (cloud.distinct w.trace zone.id) mem there here
    have at' : r.key = key := by simpa using at'
    exact other (by rw [← at', only, keyed])
  refine ⟨wrote.others, fun took => ⟨new, ?_, same⟩⟩
  rw [wrote.own took, replaced, single]
  simp

theorem delete_wrote {record : Record} (mem : zone ∈ cloud.zones) (is : cloud.zoneOf (labelsOf own.1) = some zone)
    (single : cloud.held own w.trace = [record]) :
    let sent := apiRequest token "DELETE" (recordRoute (some (.str zone.id)) (some (.str record.id))) none
    cloud.Wrote own w.trace (called env (.request sent) w).trace
      ((resultIn (replied env w sent)).isSome = true) (· = []) := by
  rw [held, is, Option.elim_some] at single
  have there : record ∈ (cloud.records w.trace zone.id).filter fun r => r.key = own := by
    rw [single]
    exact List.mem_cons_self
  obtain ⟨there, keyed⟩ := List.mem_filter.mp there
  have keyed : record.key = own := by simpa using keyed
  have takes := cloud.deleted w token zone mem record there
  have wrote := cloud.takes_wrote own is takes fun key other =>
    filter_deleted (cloud.distinct w.trace zone.id) there (by simpa [keyed] using Ne.symm other)
  refine ⟨wrote.others, fun took => ?_⟩
  rw [wrote.own took, List.filter_comm, single]
  simp

/-- At most one record is held where at most one was found. -/
theorem held_le {records : List Record} {rows : List Json} (told : List.Forall₂ Record.Told records rows)
    (single : ¬ (Json.number (countOf (some (.arr rows)))).any (1 < ·)) :
    (records = [] ∧ rows = []) ∨ ∃ record row, records = [record] ∧ rows = [row] ∧ record.Told row := by
  cases told with
  | nil => exact .inl ⟨rfl, rfl⟩
  | @cons record row records rows first others =>
    cases others with
    | nil => exact .inr ⟨record, row, rfl, rfl, first⟩
    | @cons _ second _ more _ _ =>
      have count : countOf (some (.arr (row :: second :: more))) = some (.num ((more.length + 2 : Nat) : Rat)) := by
        rw [countOf, Option.bind_some, Json.field, if_pos rfl]
        rfl
      refine absurd ?_ single
      rw [count]
      have positive : (0 : Rat) ≤ (more.length : Rat) := Nat.cast_nonneg _
      refine decide_eq_true ?_
      push_cast
      linarith

/-- None is held where none was found. -/
theorem held_nil {records : List Record} {rows : List Json} (told : List.Forall₂ Record.Told records rows)
    (absent : (countOf (some (.arr rows))).any Json.truthy = false) : records = [] := by
  cases told with
  | nil => rfl
  | @cons _ row _ more _ _ =>
    have count : countOf (some (.arr (row :: more))) = some (.num ((more.length + 1 : Nat) : Rat)) := by
      rw [countOf, Option.bind_some, Json.field, if_pos rfl]
      rfl
    have positive : ((more.length + 1 : Nat) : Rat) ≠ 0 := Nat.cast_ne_zero.mpr (Nat.succ_ne_zero _)
    rw [count] at absent
    exact absurd (decide_eq_true positive) (by simpa [Json.truthy] using absent)

theorem same_is {want : Wanted} {record : Record} {row : Json} (told : record.Told row)
    (key : record.key = (want.name, want.type)) (as : same want row = true) : record.Is want := by
  simp only [same, Bool.and_eq_true, Bool.or_eq_true, decide_eq_true_eq] at as
  obtain ⟨⟨content, proxied⟩, ttl⟩ := as
  rw [told.content] at content
  rw [told.ttl] at ttl
  refine ⟨key, ?_, fun web => ?_, ?_⟩
  · exact (eq_of_beq (show (want.content == record.content) = true from content)).symm
  · rcases proxied with plain | equal
    · exact absurd web plain
    · rw [told.proxied] at equal
      simpa using equal
  · rcases ttl with equal | ⟨web, automatic⟩
    · exact .inl (eq_of_beq (show (want.ttl.getD 1 == record.ttl) = true from equal)).symm
    · exact .inr ⟨web.1, web.2, (eq_of_beq (show ((1 : Rat) == record.ttl) = true from automatic)).symm⟩

end Cloudflare

/-- What is changed. -/
def Change.key (runtime : Runtime) : Change → String × String
  | .ensure rec => ((wantedOf runtime rec).name, (wantedOf runtime rec).type)
  | .remove name type => (runtime.toLowerCase name, runtime.toUpperCase type)

/-- A run with `--apply` for a name and a type. -/
def applies (runtime : Runtime) (key : String × String) (run : Ran (Options × Change) Outcome) : Bool :=
  run.input.1.apply && decide (run.input.2.key runtime = key)

/-- What a run that ended well leaves under its name and type. -/
structure Ended (runtime : Runtime) (asked : Change) (outcome : Except String Outcome) (left : List Record) : Prop where
  ensured : ∀ rec out, asked = .ensure rec → outcome = .ok out → ∃ r, left = [r] ∧ r.Is (wantedOf runtime rec)
  removed : ∀ name type out, asked = .remove name type → outcome = .ok out → left = []

variable (cloud : Cloudflare env runtime) {asked : Change} {outcome : Except String Outcome}

/-- A run that fails need not have written, and may have. -/
theorem ended_error {message : String} {left : List Record} : Ended runtime asked (.error message) left where
  ensured rec out is ok := by cases ok
  removed name type out is ok := by cases ok

theorem ended_ensure {rec : Given} {left : List Record} (own : ∃ r, left = [r] ∧ r.Is (wantedOf runtime rec)) :
    Ended runtime (.ensure rec) outcome left where
  ensured other out is ok := by
    cases is
    exact own
  removed name type out is ok := by cases is

theorem ended_remove {left : List Record} (none : left = []) : Ended runtime (.remove name type) outcome left where
  ensured rec out is ok := by cases is
  removed name type out is ok := none

/-- A run that wrote nothing. -/
theorem leaves_kept {past after : List (Event Operator)} (key : String × String)
    (same : cloud.records after = cloud.records past)
    (ended : options.apply = true → asked.key runtime = key → Ended runtime asked outcome (cloud.held key past)) :
    Leaves (options.apply && decide (asked.key runtime = key)) (Ended runtime asked outcome) (cloud.held key past)
      (cloud.held key after) := by
  have kept : cloud.held key after = cloud.held key past := by
    unfold Cloudflare.held
    rw [same]
  refine ⟨fun counts => ?_, fun _ => kept⟩
  rw [Bool.and_eq_true, decide_eq_true_eq] at counts
  rw [kept]
  exact ended counts.1 counts.2

/-- A run that wrote, with `--apply`. -/
theorem leaves_wrote {past mid after : List (Event Operator)} {took : Prop} {left : List Record → Prop}
    (key : String × String) (before : cloud.records mid = cloud.records past) (applied : options.apply = true)
    (wrote : cloud.Wrote (asked.key runtime) mid after took left)
    (ended : ∀ out, outcome = .ok out → took) (own : ∀ records, left records → Ended runtime asked outcome records) :
    Leaves (options.apply && decide (asked.key runtime = key)) (Ended runtime asked outcome) (cloud.held key past)
      (cloud.held key after) := by
  have earlier : cloud.held key mid = cloud.held key past := by
    unfold Cloudflare.held
    rw [before]
  refine ⟨fun counts => ?_, fun other => ?_⟩
  · rw [applied, Bool.true_and, decide_eq_true_eq] at counts
    cases outcome with
    | error e => exact ended_error
    | ok out => exact own _ (counts ▸ wrote.own (ended out rfl))
  · rw [applied, Bool.true_and, decide_eq_false_iff_not] at other
    rw [wrote.others key (Ne.symm other), earlier]

theorem ensure_leaves {rec : Given} (key : String × String)
    (run : Goes env (ensure runtime host options rec) w outcome made final) :
    Leaves (options.apply && decide ((Change.ensure rec).key runtime = key)) (Ended runtime (.ensure rec) outcome)
      (cloud.held key w.trace) (cloud.held key final.trace) := by
  rcases ensure_goes run with ⟨⟨message, rfl⟩, silent⟩ | ⟨token, zone, id, existing, first, mid, rest, allowed, looked,
    single, settled, rfl⟩
  · refine leaves_kept cloud key ?_ fun _ _ => ended_error
    rw [run.trace]
    exact cloud.stays_all w.trace fun event mem => apart_of_reading (silent event mem)
  obtain ⟨z, mem, is, rfl, same, rows, rfl, told⟩ := cloud.looked looked allowed.type
  have asIs : ∀ key, cloud.held key w.trace = cloud.held key mid.trace := by
    intro key
    unfold Cloudflare.held
    rw [same]
  rcases Cloudflare.held_le told single with ⟨free, rfl⟩ | ⟨record, row, one, rfl, tells⟩
  · have absent : current (some (.arr [])) = none := rfl
    rw [absent] at settled
    cases settled with
    | kept why =>
      refine leaves_kept cloud key same fun applied own => ?_
      cases outcome with
      | error message => exact ended_error
      | ok out =>
        rcases why out rfl with dry | ⟨-, record, there, -⟩
        · rw [dry] at applied
          cases applied
        · cases there
    | wrote applied differs took =>
      exact leaves_wrote cloud key same applied (cloud.create_wrote mem allowed.ttl is free) (fun out ok => (took out ok).1)
        fun _ => ended_ensure
  · have here : current (some (.arr [row])) = some row := by
      simp [current, firstOf, tells.there]
    rw [here] at settled
    cases settled with
    | kept why =>
      refine leaves_kept cloud key same fun applied own => ?_
      cases outcome with
      | error message => exact ended_error
      | ok out =>
        rcases why out rfl with dry | ⟨-, other, there, as⟩
        · rw [dry] at applied
          cases applied
        · cases there
          have keyed : record ∈ cloud.held ((wantedOf runtime rec).name, (wantedOf runtime rec).type) final.trace := by
            rw [one]
            exact List.mem_cons_self
          rw [asIs, ← own]
          exact ended_ensure ⟨record, one, Cloudflare.same_is tells (cloud.key_of_held keyed) as⟩
    | wrote applied differs took =>
      have sent : writing token (wantedOf runtime rec) (some (.str z.id)) (some row) = apiRequest token "PUT"
          (recordRoute (some (.str z.id)) (some (.str record.id))) (some (bodyOf (wantedOf runtime rec))) := by
        rw [writing, tells.id]
      rw [sent] at took ⊢
      exact leaves_wrote cloud key same applied (cloud.replace_wrote mem allowed.ttl is one) (fun out ok => (took out ok).1)
        fun _ => ended_ensure

theorem remove_leaves (key : String × String)
    (run : Goes env (remove runtime options name type) w outcome made final) :
    Leaves (options.apply && decide ((Change.remove name type).key runtime = key))
      (Ended runtime (.remove name type) outcome) (cloud.held key w.trace) (cloud.held key final.trace) := by
  rcases remove_goes run with ⟨⟨message, rfl⟩, silent⟩ | ⟨token, zone, id, existing, first, mid, rest, named, typed, looked,
    removed, rfl⟩
  · refine leaves_kept cloud key ?_ fun _ _ => ended_error
    rw [run.trace]
    exact cloud.stays_all w.trace fun event mem => apart_of_reading (silent event mem)
  obtain ⟨z, mem, is, rfl, same, rows, rfl, told⟩ := cloud.looked looked typed
  have asIs : ∀ key, cloud.held key w.trace = cloud.held key mid.trace := by
    intro key
    unfold Cloudflare.held
    rw [same]
  cases removed with
  | kept why =>
    refine leaves_kept cloud key same fun applied own => ?_
    cases outcome with
    | error message => exact ended_error
    | ok out =>
      rcases why out rfl with dry | absent
      · rw [dry] at applied
        cases applied
      · rw [asIs, ← own]
        exact ended_remove (Cloudflare.held_nil told absent)
  | @deleted row applied single there took =>
    rcases Cloudflare.held_le told single with ⟨free, rfl⟩ | ⟨record, only, one, rfl, tells⟩
    · cases there
    · cases there
      rw [tells.id] at took ⊢
      exact leaves_wrote cloud key same applied (cloud.delete_wrote mem is one) took fun _ => ended_remove

theorem change_leaves {input : Options × Change} (key : String × String)
    (run : Goes env (change runtime host input) w outcome made final) :
    Leaves (applies runtime key ⟨input, outcome, w.clock, final.clock⟩) (Ended runtime input.2 outcome)
      (cloud.held key w.trace) (cloud.held key final.trace) := by
  obtain ⟨options, asked⟩ := input
  cases asked with
  | ensure rec => exact ensure_leaves cloud key run
  | remove name type => exact remove_leaves cloud key run

/-- However many changes are asked for: what is held under a name and a type is what the last applied change for it made of
it, where that ended well, and nothing else touches it. -/
theorem zone_follows {runs : List (Ran (Options × Change) Outcome)}
    (history : History env (change runtime host) Apart w runs final) (key : String × String) :
    Lasts (applies runtime key) (fun run => Ended runtime run.input.2 run.outcome) runs (cloud.held key w.trace)
      (cloud.held key final.trace) := by
  refine history_lasts history (Nat.zero_le w.clock) (fun {trace more} silent => ?_)
    fun _ run => change_leaves cloud key run
  unfold Cloudflare.held
  rw [cloud.stays_all trace silent]

/-! ### A Cloudflare that takes one record -/

def exampleZone : Zone := ⟨"z1", "example.org"⟩

def kept : Record := ⟨"r1", "www.example.org", "A", "203.0.113.5", true, 1⟩

def recordsOf (past : List (Event Operator)) (zone : String) : List Record :=
  if zone = exampleZone.id ∧ keeps past = true then [kept] else []

theorem resultIn_succeeded {result : Json} (decimal : Json.Decimal result) :
    resultIn (succeeded result) = some (some result) := by
  have written : Json.parse (succeeded result).body = some (.obj [("success", .bool true), ("result", result)]) :=
    Json.parse_written _ ⟨trivial, decimal, trivial⟩
  rw [resultIn, written]
  rfl

theorem decimal_bodyOf {want : Wanted} (ttl : want.ttl.any isTtl = true) : Json.Decimal (bodyOf want) := by
  have whole : (want.ttl.getD 1).den = 1 := by
    cases given : want.ttl with
    | none => rfl
    | some ttl' =>
      rw [given] at ttl
      exact of_decide_eq_true (Bool.and_eq_true_iff.mp ttl).1
  have number : Json.Decimal (.num (want.ttl.getD 1)) := by
    show (want.ttl.getD 1).den ∣ 10 ^ (want.ttl.getD 1).den
    rw [whole]
    exact one_dvd _
  refine Json.decimal_fields_append ⟨trivial, trivial, trivial, number, trivial⟩ ?_
  split
  · exact ⟨trivial, trivial⟩
  · trivial

theorem decimal_keptRow : Json.Decimal keptRow :=
  ⟨trivial, trivial, trivial, trivial, trivial, one_dvd _, trivial⟩

theorem kept_told : kept.Told keptRow := ⟨rfl, rfl, rfl, rfl, rfl⟩

/-- Who sends the same body wants the same. -/
theorem kept_is {want : Wanted} (ttl : want.ttl.any isTtl = true)
    (same : Json.stringify (bodyOf want) = Json.stringify (bodyOf wwwWanted)) : kept.Is want := by
  have bodies : bodyOf want = bodyOf wwwWanted := by
    have one := Json.parse_written _ (decimal_bodyOf ttl)
    have decimal : Json.Decimal (bodyOf wwwWanted) := decimal_bodyOf (by decide +kernel)
    have two := Json.parse_written _ decimal
    rw [same, two] at one
    exact (Option.some.inj one).symm
  have fields := Json.obj.inj bodies
  have www : bodyOf wwwWanted = .obj [("type", .str "A"), ("name", .str "www.example.org"),
      ("content", .str "203.0.113.5"), ("ttl", .num 1), ("proxied", .bool true)] := rfl
  rw [www] at bodies
  unfold bodyOf at bodies
  simp only [List.cons_append, List.nil_append, Json.obj.injEq, List.cons.injEq, Prod.mk.injEq, true_and, Json.str.injEq,
    Json.num.injEq] at bodies
  obtain ⟨type, name, content, ttl, mode⟩ := bodies
  refine ⟨by rw [name, type]; rfl, content.symm, fun web => ?_, .inl ttl.symm⟩
  rw [if_pos web] at mode
  simpa [kept] using mode

theorem serving_distinct (past : List (Event Operator)) (zone : String) : ((recordsOf past zone).map Record.id).Nodup := by
  unfold recordsOf
  split
  · exact List.nodup_singleton _
  · exact List.nodup_nil

theorem serving_stays (past : List (Event Operator)) (event : Event Operator) (apart : Apart event.call) :
    recordsOf (past ++ [event]) = recordsOf past := by
  have other : createsIt event.call = false := by
    obtain ⟨call, answer, clock⟩ := event
    cases call with
    | request sent =>
      by_contra asks
      have asks : asksForIt sent = true := by simpa [createsIt] using asks
      simp only [asksForIt, Bool.and_eq_true, decide_eq_true_eq] at asks
      have get := apart sent rfl (by rw [asks.1.2]; decide +kernel)
      rw [asks.1.1] at get
      exact absurd get (by decide)
    | _ => rfl
  funext zone
  simp [recordsOf, keeps, List.any_append, other]


theorem find_ne_zones (name type : String) :
    api ++ findRoute onTerminal (some (.str exampleZone.id)) name type ≠ api ++ "/zones?name=example.org&per_page=5" := by
  intro same
  have texts := congrArg String.toList same
  simp [findRoute, recordsRoute, String.toList_append] at texts

theorem find_kept {name type : String} (typed : type ∈ types) :
    api ++ findRoute onTerminal (some (.str exampleZone.id)) name type =
      api ++ findRoute onTerminal (some (.str exampleZone.id)) kept.name kept.type ↔ kept.key = (name, type) := by
  constructor
  · intro same
    have texts := congrArg String.toList same
    simp only [findRoute, recordsRoute, String.toList_append, List.append_assoc, List.append_cancel_left_eq, onTerminal] at texts
    simp only [types, List.mem_cons, List.not_mem_nil, or_false] at typed
    rcases typed with rfl | rfl | rfl | rfl | rfl | rfl
    · have rest : name.toList = kept.name.toList := by simpa [kept] using texts
      rw [String.toList_injective rest]
      rfl
    all_goals simp [kept] at texts
  · intro same
    cases same
    rfl

theorem serving_reads (past : List (Event Operator)) (token route : String) :
    resultIn (serving.answer past (.request (apiRequest token "GET" route none))) =
      some (some (.arr (rowsAt past (api ++ route)))) := by
  have decimal : Json.Decimal (.arr (rowsAt past (api ++ route))) := by
    refine Json.decimal_item_of_mem fun row mem => ?_
    unfold rowsAt at mem
    split at mem
    · obtain rfl := List.mem_singleton.mp mem
      exact ⟨trivial, trivial, trivial⟩
    · split at mem
      · obtain rfl := List.mem_singleton.mp mem
        exact decimal_keptRow
      · cases mem
  exact resultIn_succeeded decimal

theorem serving_zoned (past : List (Event Operator)) (token : String) (labels : List (List Char)) (result : Option Json)
    (took : resultIn (serving.answer past (.request (apiRequest token "GET" (zoneRoute onTerminal labels) none))) =
      some result) : ∃ rows, result = some (.arr rows) ∧
        List.Forall₂ (fun zone row => Json.field "id" row = some (.str zone.id))
          ([exampleZone].filter fun zone => zone.name = dotted labels) rows := by
  rw [serving_reads] at took
  refine ⟨_, (Option.some.inj took).symm, ?_⟩
  have other : api ++ zoneRoute onTerminal labels ≠
      api ++ findRoute onTerminal (some (.str exampleZone.id)) kept.name kept.type := by
    intro same
    have texts := congrArg String.toList same
    simp [findRoute, recordsRoute, zoneRoute, String.toList_append] at texts
  by_cases here : exampleZone.name = dotted labels
  · have url : api ++ zoneRoute onTerminal labels = api ++ "/zones?name=example.org&per_page=5" := by
      rw [zoneRoute, ← here]
      decide +kernel
    rw [List.filter_cons_of_pos (by simpa using here), List.filter_nil, rowsAt, if_pos url]
    exact .cons rfl .nil
  · have url : api ++ zoneRoute onTerminal labels ≠ api ++ "/zones?name=example.org&per_page=5" := by
      intro same
      have texts := congrArg String.toList same
      have parts : "/zones?name=example.org&per_page=5".toList =
          "/zones?name=".toList ++ exampleZone.name.toList ++ "&per_page=5".toList := by decide +kernel
      rw [zoneRoute, String.toList_append, String.toList_append, String.toList_append, String.toList_append, parts] at texts
      have named := List.append_cancel_left (List.append_cancel_right (List.append_cancel_left texts))
      exact here (String.toList_injective named.symm)
    rw [List.filter_cons_of_neg (by simpa using here), List.filter_nil, rowsAt, if_neg url, if_neg fun both => other both.2]
    exact .nil

theorem serving_found (past : List (Event Operator)) (token : String) (zone : Zone) (mem : zone ∈ [exampleZone])
    (name type : String) (typed : type ∈ types) (result : Option Json)
    (took : resultIn (serving.answer past (.request (apiRequest token "GET"
      (findRoute onTerminal (some (.str zone.id)) name type) none))) = some result) :
    ∃ rows, result = some (.arr rows) ∧
      List.Forall₂ Record.Told ((recordsOf past zone.id).filter fun r => r.key = (name, type)) rows := by
  obtain rfl := List.mem_singleton.mp mem
  rw [serving_reads] at took
  refine ⟨_, (Option.some.inj took).symm, ?_⟩
  rw [rowsAt, if_neg (find_ne_zones name type)]
  by_cases there : keeps past = true
  · have only : recordsOf past exampleZone.id = [kept] := if_pos ⟨rfl, there⟩
    rw [only]
    by_cases key : kept.key = (name, type)
    · rw [if_pos ⟨there, (find_kept typed).mpr key⟩, List.filter_cons_of_pos (by simpa using key), List.filter_nil]
      exact .cons kept_told .nil
    · rw [if_neg fun both => key ((find_kept typed).mp both.2), List.filter_cons_of_neg (by simpa using key), List.filter_nil]
      exact .nil
  · have none : recordsOf past exampleZone.id = [] := if_neg fun both => there both.2
    rw [none, if_neg fun both => there both.1]
    exact .nil

theorem serving_refuses {w : World Operator Unit} {sent : Request} (writes : sent.method ≠ "GET")
    (other : ¬ (asksForIt sent = true ∧ keeps w.trace = false)) : resultIn (replied serving w sent) = none := by
  have refused : replied serving w sent = { status := 403 } := by
    show answered w.trace sent = _
    rw [answered, if_neg writes, if_neg other]
  rw [refused]
  rfl

theorem records_called {w : World Operator Unit} {call : Operator.Call} (other : createsIt call = false ∨ keeps w.trace = true) :
    recordsOf (called serving call w).trace = recordsOf w.trace := by
  have same : keeps (called serving call w).trace = keeps w.trace := by
    show keeps (w.trace ++ [_]) = _
    unfold keeps at other ⊢
    rw [List.any_append]
    rcases other with not | already
    · simp [not]
    · simp [already]
  funext zone
  simp only [recordsOf, same]

theorem serving_created (w : World Operator Unit) (token : String) (zone : Zone) (mem : zone ∈ [exampleZone]) (want : Wanted)
    (ttl : want.ttl.any isTtl = true) :
    let sent := apiRequest token "POST" (recordsRoute (some (.str zone.id))) (some (bodyOf want))
    ∃ new : Record, new.Is want ∧ Takes (replied serving w sent) (recordsOf w.trace)
      (Function.update (recordsOf w.trace) zone.id (recordsOf w.trace zone.id ++ [new]))
      (recordsOf (called serving (.request sent) w).trace) := by
  obtain rfl := List.mem_singleton.mp mem
  intro sent
  have post : sent.method ≠ "GET" := by
    show ("POST" : String) ≠ "GET"
    decide
  by_cases same : Json.stringify (bodyOf want) = Json.stringify (bodyOf wwwWanted)
  · have asks : asksForIt sent = true := by
      have body : sent.body = some (Json.stringify (bodyOf wwwWanted)) := congrArg some same
      simp only [asksForIt, Bool.and_eq_true, decide_eq_true_eq]
      exact ⟨⟨rfl, rfl⟩, body⟩
    refine ⟨kept, kept_is ttl same, ?_⟩
    by_cases already : keeps w.trace = true
    · refine .inr ⟨serving_refuses post fun both => ?_, records_called (.inr already)⟩
      rw [already] at both
      cases both.2
    · refine .inl ?_
      have now : keeps (called serving (.request sent) w).trace = true := by
        show keeps (w.trace ++ [_]) = true
        unfold keeps
        rw [List.any_append]
        simp [createsIt, asks]
      funext zone
      by_cases here : zone = exampleZone.id
      · subst here
        simp [recordsOf, now, already]
      · rw [Function.update_of_ne here]
        simp [recordsOf, here]
  · have other : asksForIt sent = false := by
      by_contra asks
      simp only [Bool.not_eq_false, asksForIt, Bool.and_eq_true, decide_eq_true_eq] at asks
      exact same (Option.some.inj asks.2)
    refine ⟨⟨"", want.name, want.type, want.content, want.proxied.getD false, want.ttl.getD 1⟩,
      ⟨rfl, rfl, fun _ => rfl, .inl rfl⟩, .inr ⟨serving_refuses post fun both => ?_, records_called (.inl other)⟩⟩
    rw [other] at both
    cases both.1

/-- What it refuses leaves the records. -/
theorem serving_takes {w : World Operator Unit} {sent : Request} {done : String → List Record} (writes : sent.method ≠ "GET")
    (other : sent.method ≠ "POST") :
    Takes (replied serving w sent) (recordsOf w.trace) done (recordsOf (called serving (.request sent) w).trace) := by
  have asks : asksForIt sent = false := by
    simp [asksForIt, other]
  refine .inr ⟨serving_refuses writes fun both => ?_, records_called (.inl asks)⟩
  rw [asks] at both
  cases both.1

theorem serving_replaced (w : World Operator Unit) (token : String) (zone : Zone) (_ : zone ∈ [exampleZone])
    (record : Record) (_ : record ∈ recordsOf w.trace zone.id) (want : Wanted) (_ : want.ttl.any isTtl = true) :
    let sent := apiRequest token "PUT" (recordRoute (some (.str zone.id)) (some (.str record.id))) (some (bodyOf want))
    ∃ new : Record, new.Is want ∧ Takes (replied serving w sent) (recordsOf w.trace)
      (Function.update (recordsOf w.trace) zone.id
        ((recordsOf w.trace zone.id).map fun r => if r.id = record.id then new else r))
      (recordsOf (called serving (.request sent) w).trace) := by
  refine ⟨⟨record.id, want.name, want.type, want.content, want.proxied.getD false, want.ttl.getD 1⟩,
    ⟨rfl, rfl, fun _ => rfl, .inl rfl⟩, serving_takes (fun same => ?_) fun same => ?_⟩
  · exact absurd (show ("PUT" : String) = "GET" from same) (by decide)
  · exact absurd (show ("PUT" : String) = "POST" from same) (by decide)

theorem serving_deleted (w : World Operator Unit) (token : String) (zone : Zone) (_ : zone ∈ [exampleZone])
    (record : Record) (_ : record ∈ recordsOf w.trace zone.id) :
    let sent := apiRequest token "DELETE" (recordRoute (some (.str zone.id)) (some (.str record.id))) none
    Takes (replied serving w sent) (recordsOf w.trace)
      (Function.update (recordsOf w.trace) zone.id ((recordsOf w.trace zone.id).filter fun r => r.id ≠ record.id))
      (recordsOf (called serving (.request sent) w).trace) := by
  refine serving_takes (fun same => ?_) fun same => ?_
  · exact absurd (show ("DELETE" : String) = "GET" from same) (by decide)
  · exact absurd (show ("DELETE" : String) = "POST" from same) (by decide)

def cloudflare : Cloudflare serving onTerminal where
  zones := [exampleZone]
  records := recordsOf
  distinct := serving_distinct
  stays := serving_stays
  zoned := serving_zoned
  found := serving_found
  created := serving_created
  replaced := serving_replaced
  deleted := serving_deleted

/-- The record is asked for twice. -/
def twice : List (Ran (Options × Change) Outcome) :=
  [ranOf serving (change onTerminal {}) noon (applying, .ensure wwwRecord),
    ranOf serving (change onTerminal {}) (afterRun serving (change onTerminal {}) noon (applying, .ensure wwwRecord))
      (applying, .ensure wwwRecord)]

theorem zone_follows_www :
    (twice.map fun run => run.outcome.toOption.map Outcome.action) = [some .create, some .unchanged] ∧
    ∃ final, History serving (change onTerminal {}) Apart noon twice final ∧
      Lasts (applies onTerminal kept.key) (fun run => Ended onTerminal run.input.2 run.outcome) twice
        (cloudflare.held kept.key noon.trace) (cloudflare.held kept.key final.trace) := by
  refine ⟨by decide +kernel, ?_⟩
  have first : History serving (change onTerminal {}) Apart noon [_] _ := History.next (.start noon) (applying, .ensure wwwRecord)
  have second : History serving (change onTerminal {}) Apart noon twice _ :=
    History.next first (applying, .ensure wwwRecord)
  exact ⟨_, second, zone_follows cloudflare second kept.key⟩

end

end OpenVibeHost.Dns
