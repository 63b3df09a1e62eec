import OpenVibeHost.JsonRoundTrip
import OpenVibeHost.UntrackedFiles

/-! The release log after appends of which some were torn by a crash: what `list` reads of it, and which
release a rollback takes from it. -/
namespace OpenVibeHost

/-! ### What is written on one line -/

namespace Json

theorem newline_escape (c : Char) : '\n' ∉ escape c := by
  unfold escape
  split_ifs with quoted slashed broken returned tabbed back form control
  · decide
  · decide
  · decide
  · decide
  · decide
  · decide
  · decide
  · have digit (n : Nat) (small : n < 16) : Nat.digitChar n ≠ '\n' :=
      (by decide : ∀ n < 16, Nat.digitChar n ≠ '\n') n small
    have high := digit (c.toNat / 16) (by omega)
    have low := digit (c.toNat % 16) (by omega)
    simp [high.symm, low.symm]
  · simpa using Ne.symm broken

theorem newline_quote (text : String) : '\n' ∉ (quote text).toList := by
  simp only [quote, String.toList_ofList, List.mem_append, List.mem_flatMap, not_or]
  refine ⟨⟨by decide, ?_⟩, by decide⟩
  rintro ⟨c, -, within⟩
  exact newline_escape c within

theorem newline_magnitude (n den : Nat) (positive : 0 < den) : '\n' ∉ magnitude n den := by
  have digits (n : Nat) : '\n' ∉ Nat.toDigits 10 n := fun member =>
    absurd (Nat.isDigit_of_mem_toDigits (b := 10) (n := n) (by decide) (by decide) member) (by decide)
  have fraction : '\n' ∉ places den den (n % den) := fun member =>
    absurd (places_digits (Nat.mod_lt _ positive) _ member) (by decide)
  unfold magnitude
  split
  · exact digits n
  · simp [digits, fraction]

mutual
theorem newline_stringify (v : Json) : '\n' ∉ (stringify v).toList := by
  cases v with
  | null => decide
  | bool value => cases value <;> decide
  | num value =>
    rw [stringify, toList_numberText]
    have rest := newline_magnitude value.num.natAbs value.den value.den_pos
    split <;> simp [rest]
  | str text => exact newline_quote text
  | arr items =>
    simp only [stringify, String.toList_append, List.mem_append, not_or]
    exact ⟨⟨by decide, newline_items items⟩, by decide⟩
  | obj fields =>
    simp only [stringify, String.toList_append, List.mem_append, not_or]
    exact ⟨⟨by decide, newline_fields fields⟩, by decide⟩

theorem newline_items (items : List Json) : '\n' ∉ joined (stringifyItems items) := by
  cases items with
  | nil => simp [stringifyItems, joined]
  | cons item items =>
    rw [stringifyItems, joined_cons]
    have first := newline_stringify item
    have later := newline_items items
    split <;> simp [first, later]

theorem newline_fields (fields : List (String × Json)) : '\n' ∉ joined (stringifyFields fields) := by
  cases fields with
  | nil => simp [stringifyFields, joined]
  | cons field fields =>
    obtain ⟨name, value⟩ := field
    rw [stringifyFields, joined_cons]
    have named := newline_quote name
    have first := newline_stringify value
    have later := newline_fields fields
    split <;> simp [named, first, later]
end

end Json

namespace Releases
open Effects Program Utf8

/-! ### The bytes of the log -/

/-- A record that a run logs. Its numbers are JavaScript's: decimal fractions. -/
structure Logged where
  record : Record
  decimal : ∀ sessions, record.protectedSessions = some sessions → ∀ n, sessions.count = some n → n.den ∣ 10 ^ n.den

@[irreducible] def Logged.json (r : Logged) : Json := recordJson r.record

/-- What an append writes. -/
def lineBytes (v : Json) : List UInt8 := encode (Json.stringify v ++ "\n").toList

/-- An append that completed, or one that a crash tore after some of its bytes. -/
inductive Write
  | whole (r : Logged)
  | torn (r : Logged) (bytes : Nat) (short : bytes < (lineBytes r.json).length)

def Write.bytes : Write → List UInt8
  | .whole r => lineBytes r.json
  | .torn r bytes _ => (lineBytes r.json).take bytes

/-- The log after the appends. -/
def written (writes : List Write) : List UInt8 := writes.flatMap Write.bytes

/-- The records whose append completed. -/
def completed : List Write → List Logged
  | [] => []
  | .whole r :: rest => r :: completed rest
  | .torn .. :: rest => completed rest

/-- There is nothing, or a newline at the end. -/
def Terminated (log : List UInt8) : Prop := ∀ b ∈ log.getLast?, b = 0x0A

/-- No append that completes begins while there is a torn one at the end. -/
def Intact (writes : List Write) : Prop :=
  ∀ before r after, writes = before ++ .whole r :: after → Terminated (written before)

/-- What stands after the last newline. -/
def remnant (log : List UInt8) : List UInt8 := (log.reverse.takeWhile (· ≠ 0x0A)).reverse

theorem remnant_append {log rest : List UInt8} (terminated : Terminated log) (plain : 0x0A ∉ rest) :
    remnant (log ++ rest) = rest := by
  have all : ∀ b ∈ rest.reverse, (decide (b ≠ 0x0A)) = true := fun b member =>
    decide_eq_true fun same => plain (same ▸ List.mem_reverse.mp member)
  unfold remnant
  rw [List.reverse_append, List.takeWhile_append_of_pos all]
  have stops : log.reverse.takeWhile (· ≠ 0x0A) = [] := by
    cases last : log.reverse with
    | nil => rfl
    | cons b more =>
      have ends : b = 0x0A := terminated b (by rw [List.getLast?_eq_head?_reverse, last]; rfl)
      simp [ends]
  rw [stops, List.append_nil, List.reverse_reverse]

theorem newline_bytes : String.utf8EncodeChar '\n' = [0x0A] := by decide

theorem lineBytes_eq (v : Json) : lineBytes v = encode (Json.stringify v).toList ++ [0x0A] := by
  simp [lineBytes, encode, newline_bytes]

theorem plain_line (v : Json) : 0x0A ∉ encode (Json.stringify v).toList := fun member =>
  Json.newline_stringify v (mem_encode newline_bytes (by decide) member)

theorem plain_torn {v : Json} {n : Nat} (short : n < (lineBytes v).length) : 0x0A ∉ (lineBytes v).take n := by
  rw [lineBytes_eq, List.length_append] at short
  rw [lineBytes_eq, List.take_append_of_le_length (by simpa using Nat.le_of_lt_succ short)]
  exact fun member => plain_line v (List.mem_of_mem_take member)

theorem terminated_lines (vs : List Json) : Terminated (vs.flatMap lineBytes) := by
  intro b last
  induction vs using List.reverseRecOn with
  | nil => exact nomatch last
  | append_singleton vs v =>
    rw [List.flatMap_append, List.flatMap_singleton, lineBytes_eq, ← List.append_assoc] at last
    simpa using last.symm

theorem completed_append (writes more : List Write) : completed (writes ++ more) = completed writes ++ completed more := by
  induction writes with
  | nil => rfl
  | cons w writes ih => cases w <;> simp [completed, ih]

/-- The log is the lines of the completed appends, and what torn ones left after them. -/
theorem written_parts {writes : List Write} (intact : Intact writes) :
    ∃ rest, written writes = ((completed writes).map Logged.json).flatMap lineBytes ++ rest ∧ 0x0A ∉ rest := by
  induction writes using List.reverseRecOn with
  | nil => exact ⟨[], rfl, fun none' => nomatch none'⟩
  | append_singleton writes w ih =>
    have earlier : Intact writes := fun before r after same =>
      intact before r (after ++ [w]) (by rw [same]; simp)
    obtain ⟨rest, parts, plain⟩ := ih earlier
    have more : written (writes ++ [w]) = written writes ++ w.bytes := by simp [written]
    rw [more, completed_append, parts]
    cases w with
    | whole r =>
      have terminated := intact writes r [] rfl
      have none' : rest = [] := by
        by_contra some'
        have last : rest.getLast? = some (rest.getLast some') := List.getLast?_eq_some_getLast some'
        have ends := terminated (rest.getLast some') (by rw [parts, List.getLast?_append, last]; rfl)
        exact plain (ends ▸ List.getLast_mem some')
      exact ⟨[], by simp [none', completed, Write.bytes], fun none' => nomatch none'⟩
    | torn r n short =>
      refine ⟨rest ++ (lineBytes r.json).take n, by simp [completed, Write.bytes], fun member => ?_⟩
      exact (List.mem_append.mp member).elim plain (plain_torn short)

/-! ### The lines of the log -/

theorem linesOf_line {first rest : List Char} (plain : '\n' ∉ first) (some' : first ≠ []) :
    linesOf (String.ofList (first ++ '\n' :: rest)) = String.ofList first :: linesOf (String.ofList rest) := by
  rw [linesOf, linesOf, String.toList_ofList, String.toList_ofList, List.splitOn_append_cons_self,
    List.splitOn_eq_singleton plain, List.singleton_append, List.filter_cons, if_pos (decide_eq_true some')]
  rfl

theorem linesOf_plain {text : List Char} (plain : '\n' ∉ text) :
    linesOf (String.ofList text) = if text = [] then [] else [String.ofList text] := by
  rw [linesOf, String.toList_ofList, List.splitOn_eq_singleton plain]
  by_cases none' : text = []
  · rw [if_pos none', none']
    rfl
  · rw [if_neg none', List.filter_cons, if_pos (decide_eq_true none')]
    rfl

/-- The records that a text of the log has. -/
def recordsOf (text : String) : List Json := (linesOf text).filterMap Json.parse

theorem recordsOf_lines {vs : List Json} (decimal : ∀ v ∈ vs, Json.Decimal v) {rest : List UInt8} (plain : 0x0A ∉ rest) :
    recordsOf (textOf (vs.flatMap lineBytes ++ rest)) = vs ++ (Json.parse (textOf rest)).toList := by
  induction vs with
  | nil =>
    have plain' : '\n' ∉ decode rest := fun read => plain (mem_decodeFrom newline_bytes (by decide) read)
    rw [List.flatMap_nil, List.nil_append, recordsOf, textOf, linesOf_plain plain']
    by_cases none' : decode rest = []
    · rw [none', if_pos rfl]
      rfl
    · rw [if_neg none', List.filterMap_cons]
      cases Json.parse (String.ofList (decode rest)) <;> rfl
  | cons v vs ih =>
    have some' : (Json.stringify v).toList ≠ [] := List.ne_nil_of_length_pos (Json.length_opens (Json.opens_stringify v))
    have parts : textOf ((v :: vs).flatMap lineBytes ++ rest) =
        String.ofList ((Json.stringify v).toList ++ '\n' :: decode (vs.flatMap lineBytes ++ rest)) := by
      rw [textOf, List.flatMap_cons, List.append_assoc, lineBytes, decode_encode_append, String.toList_append,
        List.append_assoc]
      rfl
    have later : recordsOf (String.ofList (decode (vs.flatMap lineBytes ++ rest))) = _ :=
      ih fun other member => decimal other (List.mem_cons_of_mem _ member)
    rw [recordsOf] at later
    rw [recordsOf, parts, linesOf_line (Json.newline_stringify v) some', String.ofList_toList, List.filterMap_cons,
      Json.parse_written v (decimal v List.mem_cons_self), later]
    rfl

theorem decimal_texts (items : List String) : Json.Decimal (texts items) := by
  refine Json.decimal_item_of_mem fun item member => ?_
  obtain ⟨text, -, rfl⟩ := List.mem_map.mp member
  trivial

theorem decimal_orNull {value : Option Json} (each : ∀ v, value = some v → Json.Decimal v) :
    Json.Decimal (orNull value) := by
  cases value with
  | none => trivial
  | some v => exact each v rfl

theorem decimal_present (key : String) {value : Option Json} (each : ∀ v, value = some v → Json.Decimal v) :
    Json.DecimalFields (present key value) := by
  cases value with
  | none => trivial
  | some v => exact ⟨each v rfl, trivial⟩

theorem decimal_listed (key : String) (items : List String) : Json.DecimalFields (listed key items) := by
  unfold listed
  split
  · trivial
  · exact ⟨decimal_texts items, trivial⟩

theorem decimal_flagged (key : String) (flag : Bool) : Json.DecimalFields (flagged key flag) := by
  cases flag <;> simp [flagged, Json.DecimalFields, Json.Decimal]

theorem decimal_mapped {α : Type} {json : α → Json} (each : ∀ a, Json.Decimal (json a)) (value : Option α) :
    ∀ v, value.map json = some v → Json.Decimal v := by
  intro v same
  obtain ⟨a, -, rfl⟩ := Option.map_eq_some_iff.mp same
  exact each a

theorem decimal_nat (n : Nat) : Json.Decimal (.num n) := Nat.dvd_trans (by simp) (Nat.one_dvd _)

theorem decimal_files (files : List (Option String)) : Json.Decimal (.arr (files.map Json.ofText)) := by
  refine Json.decimal_item_of_mem fun item member => ?_
  obtain ⟨text, -, rfl⟩ := List.mem_map.mp member
  exact Json.decimal_text text

theorem decimal_preflight (outcome : PreflightChecks.Outcome) : Json.Decimal (preflightJson outcome) := by
  unfold preflightJson
  split
  · exact ⟨trivial, decimal_texts _, trivial⟩
  · exact ⟨trivial, decimal_nat _, decimal_nat _, trivial⟩

theorem decimal_rollback (back : AutoRollback) : Json.Decimal (rollbackJson back) :=
  Json.decimal_fields_append ⟨trivial, trivial⟩ (Json.decimal_option _ _ fun _ => trivial)

theorem decimal_sessions {s : SessionsRecord} (count : ∀ n, s.count = some n → n.den ∣ 10 ^ n.den) :
    Json.Decimal (sessionsJson s) := by
  refine Json.decimal_fields_append ⟨decimal_orNull fun v same => ?_, trivial, Json.decimal_text _, trivial, trivial⟩ ?_
  · obtain ⟨n, known, rfl⟩ := Option.map_eq_some_iff.mp same
    exact count n known
  · cases s.waitedSeconds with
    | none => trivial
    | some n => exact ⟨decimal_nat n, trivial⟩

theorem decimal_object {fields : List (String × Json)} : Json.Decimal (.obj fields) ↔ Json.DecimalFields fields := Iff.rfl

theorem decimal_append {fields more : List (String × Json)} :
    Json.DecimalFields (fields ++ more) ↔ Json.DecimalFields fields ∧ Json.DecimalFields more := by
  induction fields with
  | nil => exact ⟨fun second => ⟨trivial, second⟩, And.right⟩
  | cons field fields ih => exact (and_congr_right fun _ => ih).trans and_assoc.symm

theorem decimal_json (r : Logged) : Json.Decimal r.json := by
  have textual (key : String) (value : Option String) : Json.DecimalFields (present key (value.map .str)) :=
    decimal_present key (@decimal_mapped _ Json.str (fun _ => trivial) value)
  have flagOrNull (value : Option Bool) : Json.Decimal (orNull (value.map .bool)) :=
    decimal_orNull (@decimal_mapped _ Json.bool (fun _ => trivial) value)
  have head (r : Record) : Json.DecimalFields [("id", .str r.id), ("service", .str r.service),
      ("strategy", .str r.strategy.name)] := ⟨trivial, trivial, trivial, trivial⟩
  have start (r : Record) : Json.DecimalFields [("action", .str r.action.name), ("startedAt", .str r.startedAt),
      ("operator", .str r.operator), ("host", .str r.host), ("from", Json.ofText r.fromSha), ("to", Json.ofText r.toSha)] :=
    ⟨trivial, trivial, trivial, trivial, Json.decimal_text _, Json.decimal_text _, trivial⟩
  have releases (r : Record) : Json.DecimalFields (if r.layout.isSome then
      [("fromRelease", Json.ofText r.fromRelease), ("toRelease", Json.ofText r.toRelease)] else []) := by
    split
    · exact ⟨Json.decimal_text _, Json.decimal_text _, trivial⟩
    · trivial
  have work (r : Record) : Json.DecimalFields [("commits", .num r.commits), ("lockfileChanged", .bool r.lockfileChanged),
      ("installed", texts r.installed), ("depsVerified", orNull (r.depsVerified.map .bool)),
      ("restartNeeded", orNull (r.restartNeeded.map .bool))] :=
    ⟨decimal_nat _, trivial, decimal_texts _, flagOrNull _, flagOrNull _, trivial⟩
  have switched (r : Record) : Json.DecimalFields (if r.layout.isSome then [("switched", .bool r.switched)] else []) := by
    split
    · exact ⟨trivial, trivial⟩
    · trivial
  have outcome (r : Record) : Json.DecimalFields [("restarted", .bool r.restarted),
      ("ready", orNull (r.ready.map .bool)), ("forced", .bool r.forced),
      ("result", orNull (r.result.map fun result => .str result.name))] :=
    ⟨trivial, flagOrNull _, trivial, decimal_orNull
      (@decimal_mapped _ (fun result : Result => Json.str result.name) (fun _ => trivial) _), trivial⟩
  have sessions : Json.DecimalFields (present "protectedSessions" (r.record.protectedSessions.map sessionsJson)) := by
    refine decimal_present _ fun v same => ?_
    obtain ⟨s, known, rfl⟩ := Option.map_eq_some_iff.mp same
    exact decimal_sessions (r.decimal s known)
  unfold Logged.json recordJson
  rw [decimal_object]
  simp only [decimal_append]
  refine ⟨⟨⟨⟨⟨⟨⟨⟨?_, textual _ _⟩, decimal_flagged _ _⟩,
    decimal_present _ (@decimal_mapped _ (fun reason => Json.str (rebindName reason)) (fun _ => trivial) _)⟩,
    decimal_present _ (@decimal_mapped _ Json.bool (fun _ => trivial) _)⟩,
    decimal_present _ (decimal_mapped decimal_texts _)⟩, decimal_present _ (decimal_mapped decimal_rollback _)⟩,
    textual _ _⟩, textual _ _⟩
  refine ⟨⟨⟨⟨⟨⟨?_, decimal_present _ (decimal_mapped decimal_preflight _)⟩,
    decimal_present _ (decimal_mapped decimal_texts _)⟩, decimal_present _ (decimal_mapped decimal_files _)⟩,
    decimal_listed _ _⟩, decimal_listed _ _⟩, decimal_flagged _ _⟩
  refine ⟨⟨⟨⟨⟨⟨?_, sessions⟩, decimal_listed _ _⟩, decimal_listed _ _⟩, decimal_flagged _ _⟩, decimal_listed _ _⟩,
    decimal_flagged _ _⟩
  exact ⟨⟨⟨⟨⟨⟨head _, textual _ _⟩, start _⟩, releases _⟩, work _⟩, switched _⟩, outcome _⟩

theorem recordsOf_intact {writes : List Write} (intact : Intact writes) : recordsOf (textOf (written writes)) =
    (completed writes).map Logged.json ++ (Json.parse (textOf (remnant (written writes)))).toList := by
  obtain ⟨rest, parts, plain⟩ := written_parts intact
  have decimal : ∀ v ∈ (completed writes).map Logged.json, Json.Decimal v := by
    intro v member
    obtain ⟨r, -, rfl⟩ := List.mem_map.mp member
    exact decimal_json r
  rw [parts, recordsOf_lines decimal plain, remnant_append (terminated_lines _) plain]

/-! ### The fields of a record -/

theorem field_append (key : String) (fields more : List (String × Json)) :
    Json.field key (.obj (fields ++ more)) = (Json.field key (.obj more)).or (Json.field key (.obj fields)) := by
  simp only [Json.field, List.reverse_append, List.find?_append, Option.map_or]

theorem field_present (key name : String) (value : Option Json) :
    Json.field key (.obj (present name value)) = if name = key then value else none := by
  cases value with
  | none => simp [present, Json.field]
  | some v => by_cases same : name = key <;> simp [present, Json.field, same]

theorem field_listed (key name : String) (items : List String) :
    Json.field key (.obj (listed name items)) = if name = key ∧ items ≠ [] then some (texts items) else none := by
  by_cases none' : items = []
  · simp [listed, Json.field, none']
  · by_cases same : name = key <;> simp [listed, Json.field, none', same]

theorem field_flagged (key name : String) (flag : Bool) :
    Json.field key (.obj (flagged name flag)) = if name = key ∧ flag = true then some (.bool true) else none := by
  cases flag
  · simp [flagged, Json.field]
  · by_cases same : name = key <;> simp [flagged, Json.field, same]

theorem result_json (r : Logged) : textField r.json "result" = r.record.result.map Result.name := by
  unfold Logged.json recordJson textField
  simp only [field_append, field_present, field_listed, field_flagged]
  cases known : r.record.result <;> simp [Json.field, orNull]

theorem toRelease_json (r : Logged) :
    textField r.json "toRelease" = if r.record.layout.isSome then r.record.toRelease else none := by
  unfold Logged.json recordJson textField
  simp only [field_append, field_present, field_listed, field_flagged]
  cases laidOut : r.record.layout.isSome <;> cases known : r.record.toRelease <;> simp [Json.field, Json.ofText]

theorem fromRelease_json (r : Logged) :
    textField r.json "fromRelease" = if r.record.layout.isSome then r.record.fromRelease else none := by
  unfold Logged.json recordJson textField
  simp only [field_append, field_present, field_listed, field_flagged]
  cases laidOut : r.record.layout.isSome <;> cases known : r.record.fromRelease <;> simp [Json.field, Json.ofText]

theorem toSha_json (r : Logged) : textField r.json "to" = r.record.toSha := by
  unfold Logged.json recordJson textField
  simp only [field_append, field_present, field_listed, field_flagged]
  cases laidOut : r.record.layout.isSome <;> cases known : r.record.toSha <;> simp [Json.field, Json.ofText]

theorem fromSha_json (r : Logged) : textField r.json "from" = r.record.fromSha := by
  unfold Logged.json recordJson textField
  simp only [field_append, field_present, field_listed, field_flagged]
  cases laidOut : r.record.layout.isSome <;> cases known : r.record.fromSha <;> simp [Json.field, Json.ofText]

/-! ### The release before -/

theorem deployed_iff (result : Result) : result.name = "deployed" ↔ result = .deployed := by
  cases result <;> decide

/-- The release that a deploy of `id` replaced, if the record is of one and the release is still there. -/
def replaced (id : String) (releases : List ReleaseLayout.Listed) (r : Record) : Option ReleaseLayout.Listed :=
  if r.result = some .deployed ∧ r.layout.isSome ∧ r.toRelease = some id then
    r.fromRelease.bind fun source =>
      if source ≠ "" ∧ source ≠ id then releases.find? (·.id = source) else none
  else none

/-- The commit that a deploy of `sha` replaced, if the record is of one. -/
def replacedCommit (sha : String) (r : Record) : Option String :=
  if r.result = some .deployed ∧ r.toSha = some sha then
    r.fromSha.filter fun source => decide (source ≠ "" ∧ source ≠ sha)
  else none

theorem object_json (r : Logged) : ∃ fields, r.json = .obj fields := by
  unfold Logged.json recordJson
  exact ⟨_, rfl⟩

/-- The rollback takes what the newest of the records says it replaced. -/
theorem replacedBy_records (id : String) (releases : List ReleaseLayout.Listed) (rs : List Logged) :
    ReleaseLayout.replacedBy id releases (rs.map Logged.json) = .ok (rs.findSome? fun r => replaced id releases r.record) := by
  induction rs with
  | nil => rfl
  | cons r rs ih =>
    have result := result_json r
    have target := toRelease_json r
    have source := fromRelease_json r
    obtain ⟨fields, object⟩ := object_json r
    rw [object] at result target source
    rw [List.map_cons, object, ReleaseLayout.replacedBy, result, target, source, ih, List.findSome?_cons]
    · unfold replaced
      rcases ended : r.record.result with - | ending
      · simp
      by_cases deployed : ending = .deployed
      case neg =>
        have named := mt (deployed_iff ending).mp deployed
        simp [deployed, named]
      subst deployed
      cases laidOut : r.record.layout.isSome
      · simp [Result.name]
      rcases known : r.record.toRelease with - | target
      · simp [Result.name]
      rcases before : r.record.fromRelease with - | source
      · simp [Result.name]
      by_cases current : target = id
      case neg => simp [Result.name, current]
      by_cases other : source ≠ "" ∧ source ≠ id
      case neg => simp [Result.name, current, other]
      simp only [Option.map_some, Result.name, if_true, current, other, and_self, ne_eq, not_false_eq_true,
        Option.bind_some]
      cases releases.find? (·.id = source) <;> rfl
    · exact nofun

/-- So does the rollback of a checkout. -/
theorem previousFor_records (sha : String) (rs : List Logged) :
    previousFor (rs.map Logged.json) sha = .ok (rs.findSome? fun r => replacedCommit sha r.record) := by
  induction rs with
  | nil => rfl
  | cons r rs ih =>
    have result := result_json r
    have target := toSha_json r
    have source := fromSha_json r
    obtain ⟨fields, object⟩ := object_json r
    rw [object] at result target source
    rw [List.map_cons, object, previousFor, result, target, source, ih, List.findSome?_cons]
    · unfold replacedCommit
      rcases ended : r.record.result with - | ending
      · simp
      by_cases deployed : ending = .deployed
      case neg =>
        have named := mt (deployed_iff ending).mp deployed
        simp [deployed, named]
      subst deployed
      rcases known : r.record.toSha with - | target
      · simp [Result.name]
      rcases before : r.record.fromSha with - | source
      · simp [Result.name]
      by_cases current : target = sha
      case neg => simp [Result.name, current]
      by_cases other : source ≠ "" ∧ source ≠ sha
      · simp [Result.name, current, other, Option.filter_some]
      · simp [Result.name, current, other, Option.filter_some]
    · exact nofun

/-! ### A rollback after a crash -/

section
variable {env : Environment Machine} {inv : Inventory} {id : String}

theorem run_list {w : World Machine Unit} {text : Option String}
    (read : env.answer w.trace (.readFile (logPath inv id) false) = .ok text) :
    ∃ later, Program.run (list inv id) env w = (.ok (recordsOf (text.getD "")), later) := by
  have asked := run_orReject (.readFile (logPath inv id) false) (fun answer => answer) env w
  rw [read] at asked
  exact ⟨_, run_bind_ok.mpr ⟨text, _, asked, rfl⟩⟩

/-- Every record whose append completed is listed, in their order, when none of these appends begins while a
torn one stands at the end. The rollbacks go by these records, unless what the last torn ones left reads as
one more. -/
theorem list_after_appends {writes : List Write} (intact : Intact writes) {w : World Machine Unit} {text : Option String}
    (read : env.answer w.trace (.readFile (logPath inv id) false) = .ok text)
    (stands : text.getD "" = textOf (written writes)) :
    ∃ records later, Program.run (list inv id) env w = (.ok records, later) ∧
      (completed writes).map Logged.json <+: records ∧
      (Json.parse (textOf (remnant (written writes))) = none →
        records = (completed writes).map Logged.json ∧
        (∀ current releases, ReleaseLayout.replacedBy current releases records.reverse =
          .ok ((completed writes).reverse.findSome? fun r => replaced current releases r.record)) ∧
        ∀ sha, previousFor records.reverse sha =
          .ok ((completed writes).reverse.findSome? fun r => replacedCommit sha r.record)) := by
  obtain ⟨later, ran⟩ := @run_list env inv id w text read
  rw [stands, recordsOf_intact intact] at ran
  refine ⟨_, later, ran, List.prefix_append _ _, fun nothing => ?_⟩
  rw [nothing, Option.toList_none, List.append_nil]
  refine ⟨rfl, fun current releases => ?_, fun sha => ?_⟩
  · rw [← List.map_reverse, replacedBy_records]
  · rw [← List.map_reverse, previousFor_records]

end

/-- One byte of a torn append is enough to hide the record after it. -/
theorem recordsOf_hidden (r after : Logged) : recordsOf (textOf ((lineBytes r.json).take 1 ++ lineBytes after.json)) = [] := by
  have opens (r : Logged) : ∃ rest, (Json.stringify r.json).toList = '\x7b' :: rest := by
    obtain ⟨fields, object⟩ := object_json r
    exact ⟨_, by rw [object, Json.stringify, String.toList_append, String.toList_append]; rfl⟩
  have first : (lineBytes r.json).take 1 = encode ['\x7b'] := by
    obtain ⟨rest, line⟩ := opens r
    rw [lineBytes_eq, line]
    rfl
  obtain ⟨rest, line⟩ := opens after
  have text : textOf ((lineBytes r.json).take 1 ++ lineBytes after.json) =
      String.ofList ('\x7b' :: (Json.stringify after.json).toList ++ '\n' :: []) := by
    rw [first, textOf, decode_encode_append, lineBytes, decode_encode, String.toList_append]
    rfl
  have plain : '\n' ∉ '\x7b' :: (Json.stringify after.json).toList := by
    rintro (_ | ⟨_, member⟩)
    exact Json.newline_stringify _ member
  have unread : Json.parse (String.ofList ('\x7b' :: '\x7b' :: rest)) = none := by
    rw [Json.parse, String.toList_ofList]
    rfl
  rw [text, recordsOf, linesOf_line plain (List.cons_ne_nil _ _), line, List.filterMap_cons, unread]
  rfl

/-- The record of a deploy of one release over another. -/
def moved (source target : String) : Logged where
  record := {
    id := target, service := "docs", layout := some "releases", fromSha := some source, toSha := some target
    fromRelease := some source, toRelease := some target, restarted := true, result := some .deployed }
  decimal := nofun

theorem moved_long (source target : String) : 1 < (lineBytes (moved source target).json).length := by
  obtain ⟨fields, object⟩ := object_json (moved source target)
  rw [object, lineBytes_eq, Json.stringify, String.toList_append, String.toList_append]
  change 1 < (String.utf8EncodeChar '\x7b' ++ _ ++ [0x0A]).length
  rw [List.length_append, List.length_append]
  exact Nat.lt_add_of_pos_left (Nat.lt_of_lt_of_le (by decide) (Nat.le_add_right _ _))

/-- The log is read as this text. -/
def logging (text : String) : Environment Machine where
  takes _ _ := 0
  answer _
    | .readFile .. => .ok (some text)
    | other => steady other

/-- A deploy, and a torn append after it. -/
def interrupted : List Write := [.whole (moved "a" "b"), .torn (moved "b" "c") 1 (moved_long _ _)]

theorem interrupted_intact : Intact interrupted := by
  rintro (_ | ⟨_, _ | ⟨_, before⟩⟩) r after same
  · exact fun _ none' => nomatch none'
  · exact nomatch (List.cons.inj (List.cons.inj same).2).1
  · exact absurd (congrArg List.length same) (by simp [interrupted])

theorem interrupted_listed : ∃ records later,
    Program.run (list ReleaseOps.docsHost "docs") (logging (textOf (written interrupted))) ⟨(), 0, []⟩ = (.ok records, later) ∧
      (completed interrupted).map Logged.json <+: records ∧
      (Json.parse (textOf (remnant (written interrupted))) = none →
        records = (completed interrupted).map Logged.json ∧
        (∀ current releases, ReleaseLayout.replacedBy current releases records.reverse =
          .ok ((completed interrupted).reverse.findSome? fun r => replaced current releases r.record)) ∧
        ∀ sha, previousFor records.reverse sha =
          .ok ((completed interrupted).reverse.findSome? fun r => replacedCommit sha r.record)) :=
  list_after_appends interrupted_intact rfl rfl

/-- The deploy after a torn append is not listed, and a rollback finds no release before it. -/
theorem record_hidden : ¬ ∀ (env : Environment Machine) inv id writes (w : World Machine Unit) text,
    env.answer w.trace (.readFile (logPath inv id) false) = .ok text → text.getD "" = textOf (written writes) →
    ∃ records later, Program.run (list inv id) env w = (.ok records, later) ∧
      ((completed writes).map Logged.json).Sublist records ∧
      ∀ current releases, ReleaseLayout.replacedBy current releases records.reverse =
        .ok ((completed writes).reverse.findSome? fun r => replaced current releases r.record) := by
  intro claim
  obtain ⟨records, later, ran, all, -⟩ := claim (logging (textOf (written [.torn (moved "a" "b") 1 (moved_long _ _),
    .whole (moved "b" "c")]))) ReleaseOps.docsHost "docs" _ ⟨(), 0, []⟩ _ rfl rfl
  obtain ⟨_, again⟩ := @run_list (logging (textOf (written [.torn (moved "a" "b") 1 (moved_long _ _),
    .whole (moved "b" "c")]))) ReleaseOps.docsHost "docs" ⟨(), 0, []⟩ _ rfl
  rw [again] at ran
  have hidden := recordsOf_hidden (moved "a" "b") (moved "b" "c")
  obtain rfl := Except.ok.inj (Prod.mk.inj ran).1
  have text : written [.torn (moved "a" "b") 1 (moved_long _ _), .whole (moved "b" "c")] =
      (lineBytes (moved "a" "b").json).take 1 ++ lineBytes (moved "b" "c").json := by
    simp [written, Write.bytes]
  rw [Option.getD_some, text, hidden] at all
  exact nomatch all

end Releases

end OpenVibeHost
