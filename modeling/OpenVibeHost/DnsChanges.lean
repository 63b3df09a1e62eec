import OpenVibeHost.DnsRecords

/-! What `ovhost dns` asks of Cloudflare: it reads, and then it may send one request that changes a zone. -/
namespace OpenVibeHost.Dns
open Effects Program Operator

section
variable {env : Environment Operator} {runtime : Runtime} {host : Host} {options : Options}
  {w final : World Operator Unit} {made : List (Event Operator)} {token name type : String}

/-! ### Reading -/

/-- A call that reads a file, or what Cloudflare has. -/
def reading : Operator.Call → Bool
  | .readFile .. => true
  | .request sent => sent.method = "GET"
  | _ => false

theorem emits_tokenIn (files : List String) : Emits (S := Operator) reading (tokenIn options files) := by
  induction files with
  | nil =>
    unfold tokenIn
    split
    · exact emits_pure _
    · exact emits_throw _
  | cons file rest ih =>
    unfold tokenIn
    refine emits_bind (emits_call rfl) fun text => ?_
    dsimp only
    split
    · exact emits_pure _
    · split
      · exact emits_throw _
      · exact ih

theorem emits_loadToken : Emits (S := Operator) reading (loadToken options) := emits_tokenIn _

theorem emits_cf {calls : Operator.Call → Bool} {method route : String} {body : Option Json}
    (one : calls (.request (apiRequest token method route body)) = true) :
    Emits (S := Operator) calls (cf token method route body) := by
  unfold cf
  refine emits_bind (emits_call one) fun r => ?_
  split
  · exact emits_pure _
  · exact emits_throw _

theorem emits_property {calls : Operator.Call → Bool} {v : Option Json} : Emits (S := Operator) calls (property v name) := by
  unfold property
  split
  · exact emits_throw _
  · exact emits_throw _
  · exact emits_pure _

theorem emits_shown {calls : Operator.Call → Bool} {r : Option Json} : Emits (S := Operator) calls (shown r) :=
  emits_bind emits_property fun _ => emits_pure _

theorem emits_zoneAmong (labels : List (List Char)) : Emits (S := Operator) reading (zoneAmong runtime token name labels) := by
  induction labels with
  | nil =>
    unfold zoneAmong
    exact emits_throw _
  | cons label more ih =>
    cases more with
    | nil =>
      unfold zoneAmong
      exact emits_throw _
    | cons next rest =>
      unfold zoneAmong
      refine emits_bind (emits_cf rfl) fun zones => ?_
      split
      · exact emits_pure _
      · exact ih

theorem emits_find : Emits (S := Operator) reading (find runtime token name type) :=
  emits_bind (emits_zoneAmong _) fun _ => emits_bind emits_property fun _ => emits_bind (emits_cf rfl) fun _ => emits_pure _

theorem emits_shownAll (rows : List Json) : Emits (S := Operator) reading (shownAll rows) := by
  induction rows with
  | nil => exact emits_pure _
  | cons row rest ih => exact emits_bind emits_shown fun _ => emits_bind ih fun _ => emits_pure _

theorem emits_pages {id : Option Json} (page left : Nat) : Emits (S := Operator) reading (pages token id page left) := by
  induction left generalizing page with
  | zero => exact emits_pure _
  | succ left ih =>
    unfold pages
    refine emits_bind (emits_cf rfl) fun answered => ?_
    split
    · refine emits_bind (emits_shownAll _) fun here => ?_
      split
      · exact emits_pure _
      · exact emits_bind (ih (page + 1)) fun _ => emits_pure _
    · exact emits_throw _
    · exact emits_throw _
    · exact emits_throw _

/-- Listing a zone changes nothing. -/
theorem emits_list {zoneName : String} : Emits (S := Operator) reading (list runtime options zoneName) :=
  emits_bind emits_loadToken fun _ => emits_bind (emits_zoneAmong _) fun _ => emits_bind emits_property fun _ =>
    emits_bind (emits_pages 1 20) fun _ => emits_pure _

/-! ### Writing -/

theorem goes_cf {β : Type} {method route : String} {body : Option Json} {f : Option Json → Command β}
    {result : Except String β} (run : Goes env (cf token method route body >>= f) w result made final) :
    (resultIn (replied env w (apiRequest token method route body)) = none ∧ (∃ message, result = .error message) ∧
      made = [eventOf env (.request (apiRequest token method route body)) w] ∧
      final = called env (.request (apiRequest token method route body)) w) ∨
    ∃ answered rest, resultIn (replied env w (apiRequest token method route body)) = some answered ∧
      Goes env (f answered) (called env (.request (apiRequest token method route body)) w) result rest final ∧
      made = eventOf env (.request (apiRequest token method route body)) w :: rest := by
  unfold cf at run
  rw [bind_assoc] at run
  obtain ⟨rest, after, rfl⟩ := goes_request.mp run
  generalize replied env w (apiRequest token method route body) = r at after ⊢
  split at after
  · rename_i answered found
    rw [pure_bind] at after
    exact .inr ⟨answered, rest, found, after, rfl⟩
  · rename_i refused
    rcases goes_bind.mp after with ⟨e, failed, rfl⟩ | ⟨a, first, mid, more, one, -, -⟩
    · obtain ⟨-, rfl, rfl⟩ := goes_throw.mp failed
      exact .inl ⟨refused, ⟨_, rfl⟩, rfl, rfl⟩
    · cases (goes_throw.mp one).1

/-- What may be written. -/
structure Allowed (runtime : Runtime) (host : Host) (r : Wanted) : Prop where
  named : isName (runtime.toLowerCase r.name) = true
  type : r.type ∈ types
  content : r.content ≠ ""
  /-- Web records say which mode they are in. -/
  mode : r.type ∈ proxyable → r.proxied.isSome = true
  proxied : r.proxied = some true → r.type ∈ proxyable ∧ isServiceName r.name = false ∧
    runtime.toLowerCase r.name ∉ host.dnsOnly.map runtime.toLowerCase
  ttl : r.ttl.any isTtl = true

theorem checkRecord_allows {r : Wanted} (checked : checkRecord runtime host r = none) : Allowed runtime host r := by
  unfold checkRecord at checked
  split at checked
  · cases checked
  rename_i named
  split at checked
  · cases checked
  rename_i type
  split at checked
  · cases checked
  rename_i content
  split at checked
  · cases checked
  rename_i mode
  split at checked
  · cases checked
  rename_i plain
  split at checked
  · cases checked
  rename_i listed
  split at checked
  · cases checked
  rename_i service
  split at checked
  · cases checked
  rename_i ttl
  refine ⟨by simpa using named, by simpa using type, content, fun web => ?_, fun yes => ⟨?_, ?_, ?_⟩, ?_⟩
  · cases proxied : r.proxied with
    | none => exact absurd ⟨web, proxied⟩ mode
    | some _ => rfl
  · by_contra other
    exact plain ⟨other, yes⟩
  · by_contra other
    exact service ⟨yes, by simpa using other⟩
  · exact fun mem => listed ⟨yes, mem⟩
  · exact of_not_not ttl

/-- How a record is written: over the one that is there, or as a new one. -/
def writing (token : String) (want : Wanted) (id cur : Option Json) : Request :=
  match cur with
  | some record => apiRequest token "PUT" (recordRoute id (record.field "id")) (some (bodyOf want))
  | none => apiRequest token "POST" (recordsRoute id) (some (bodyOf want))

/-- What came of a record that was looked at. -/
inductive Settled (env : Environment Operator) (token : String) (options : Options) (want : Wanted)
    (id cur : Option Json) (w : World Operator Unit) :
    Except String Outcome → List (Event Operator) → World Operator Unit → Prop where
  /-- Nothing is written: the run is dry, or the record is as wanted. -/
  | kept {result : Except String Outcome}
      (why : ∀ out, result = .ok out → options.apply = false ∨
        out.action = .unchanged ∧ ∃ record, cur = some record ∧ same want record = true) :
      Settled env token options want id cur w result [] w
  | wrote {result : Except String Outcome} (applied : options.apply = true)
      (differs : ∀ record, cur = some record → same want record = false)
      (took : ∀ out, result = .ok out → (resultIn (replied env w (writing token want id cur))).isSome = true ∧
        out.action ≠ .unchanged) :
      Settled env token options want id cur w result [eventOf env (.request (writing token want id cur)) w]
        (called env (.request (writing token want id cur)) w)

theorem property_goes {v : Option Json} {result : Except String (Option Json)}
    (run : Goes env (property v name) w result made final) :
    made = [] ∧ final = w ∧ ∀ found, result = .ok found → ∃ there, v = some there ∧ found = there.field name := by
  unfold property at run
  split at run
  · obtain ⟨rfl, rfl, rfl⟩ := goes_throw.mp run
    exact ⟨rfl, rfl, fun found ok => by cases ok⟩
  · obtain ⟨rfl, rfl, rfl⟩ := goes_throw.mp run
    exact ⟨rfl, rfl, fun found ok => by cases ok⟩
  · obtain ⟨rfl, rfl, rfl⟩ := goes_pure.mp run
    exact ⟨rfl, rfl, fun found ok => ⟨_, rfl, by cases ok; rfl⟩⟩

theorem shown_goes {r : Option Json} {result : Except String Shown} (run : Goes env (shown r) w result made final) :
    made = [] ∧ final = w := by
  unfold shown at run
  rcases goes_bind.mp run with ⟨e, failed, -⟩ | ⟨named, first, mid, rest, one, after, rfl⟩
  · exact ⟨(property_goes failed).1, (property_goes failed).2.1⟩
  · obtain ⟨rfl, rfl, -⟩ := property_goes one
    exact (goes_pure.mp after).2

theorem write_goes {method route : String} {body : Option Json} {f : Shown → Outcome} {result : Except String Outcome}
    {g : Option Json → Option Json}
    (run : Goes env (cf token method route body >>= fun done => shown (g done) >>= fun after => pure (f after)) w result
      made final) :
    made = [eventOf env (.request (apiRequest token method route body)) w] ∧
      final = called env (.request (apiRequest token method route body)) w ∧
      ∀ out, result = .ok out → (resultIn (replied env w (apiRequest token method route body))).isSome = true ∧
        ∃ after, out = f after := by
  rcases goes_cf run with ⟨-, ⟨message, rfl⟩, rfl, rfl⟩ | ⟨answered, rest, took, after, rfl⟩
  · exact ⟨rfl, rfl, fun out ok => by cases ok⟩
  · rcases goes_bind.mp after with ⟨e, failed, rfl⟩ | ⟨record, first, mid, more, one, last, rfl⟩
    · obtain ⟨rfl, rfl⟩ := shown_goes failed
      exact ⟨rfl, rfl, fun out ok => by cases ok⟩
    · obtain ⟨rfl, rfl⟩ := shown_goes one
      obtain ⟨rfl, rfl, rfl⟩ := goes_pure.mp last
      refine ⟨rfl, rfl, fun out ok => ⟨by rw [took]; rfl, record, ?_⟩⟩
      cases ok
      rfl

theorem settle_goes {want : Wanted} {id zoneName cur : Option Json} {result : Except String Outcome}
    (run : Goes env (settle token options want id zoneName cur) w result made final) :
    Settled env token options want id cur w result made final := by
  unfold settle at run
  split at run
  · rename_i record
    rcases goes_bind.mp run with ⟨e, failed, rfl⟩ | ⟨before, first, mid, rest, one, after, rfl⟩
    · obtain ⟨rfl, rfl⟩ := shown_goes failed
      exact .kept fun out ok => by cases ok
    · obtain ⟨rfl, rfl⟩ := shown_goes one
      split at after
      · rename_i kept
        obtain ⟨rfl, rfl, rfl⟩ := goes_pure.mp after
        exact .kept fun out ok => .inr (by cases ok; exact ⟨rfl, record, rfl, kept⟩)
      · rename_i differs
        split at after
        · rename_i dry
          obtain ⟨rfl, rfl, rfl⟩ := goes_pure.mp after
          exact .kept fun _ _ => .inl (by simpa using dry)
        · rename_i applied
          obtain ⟨rfl, rfl, took⟩ := write_goes after
          refine .wrote (by simpa using applied) (fun other same => by cases same; simpa using differs) fun out ok => ?_
          obtain ⟨some, after, rfl⟩ := took out ok
          exact ⟨some, fun same => by cases same⟩
  · split at run
    · rename_i dry
      obtain ⟨rfl, rfl, rfl⟩ := goes_pure.mp run
      exact .kept fun _ _ => .inl (by simpa using dry)
    · rename_i applied
      obtain ⟨rfl, rfl, took⟩ := write_goes run
      refine .wrote (by simpa using applied) (fun other same => by cases same) fun out ok => ?_
      obtain ⟨some, after, rfl⟩ := took out ok
      exact ⟨some, fun same => by cases same⟩

/-- From `w` a run reads `first` and then looks up the records of a name and a type, up to `mid`. -/
structure Looked (env : Environment Operator) (runtime : Runtime) (token name type : String) (w : World Operator Unit)
    (zone : Json) (id existing : Option Json) (first : List (Event Operator)) (mid : World Operator Unit) : Prop where
  silent : ∀ event ∈ first, reading event.call = true
  trace : mid.trace = w.trace ++ first
  found : ∃ before more, (∃ read, before.trace = w.trace ++ read ∧ ∀ event ∈ read, reading event.call = true) ∧
    Goes env (find runtime token name type) before (.ok (zone, id, existing)) more mid

/-- The token is loaded, and the records of a name and a type are looked up. -/
theorem look_goes {f : String → Json × Option Json × Option Json → Command Outcome} {result : Except String Outcome}
    (run : Goes env (loadToken options >>= fun token => find runtime token name type >>= f token) w result made final) :
    ((∃ message, result = .error message) ∧ ∀ event ∈ made, reading event.call = true) ∨
    ∃ token zone id existing first mid rest, Looked env runtime token name type w zone id existing first mid ∧
      Goes env (f token (zone, id, existing)) mid result rest final ∧ made = first ++ rest := by
  rcases goes_bind.mp run with ⟨e, failed, rfl⟩ | ⟨token, first, start, rest, loads, after, rfl⟩
  · exact .inl ⟨⟨e, rfl⟩, failed.emitted emits_loadToken⟩
  have loading := loads.emitted emits_loadToken
  rcases goes_bind.mp after with ⟨e, failed, rfl⟩ | ⟨⟨zone, id, existing⟩, more, mid, last, finds, next, rfl⟩
  · refine .inl ⟨⟨e, rfl⟩, fun event mem => ?_⟩
    exact (List.mem_append.mp mem).elim (loading event) (failed.emitted emits_find event)
  refine .inr ⟨token, zone, id, existing, first ++ more, mid, last, ⟨?_, ?_, start, more, ⟨first, loads.trace, loading⟩,
    finds⟩, next, (List.append_assoc _ _ _).symm⟩
  · exact fun event mem => (List.mem_append.mp mem).elim (loading event) (finds.emitted emits_find event)
  · rw [finds.trace, loads.trace, List.append_assoc]

/-- The record that is looked at: the first of what was found. -/
def current (existing : Option Json) : Option Json := (existing.bind firstOf).filter Json.truthy

/-- How many records were found. -/
def countOf (existing : Option Json) : Option Json := existing.bind (Json.field "length")

theorem ensure_goes {rec : Given} {result : Except String Outcome}
    (run : Goes env (ensure runtime host options rec) w result made final) :
    ((∃ message, result = .error message) ∧ ∀ event ∈ made, reading event.call = true) ∨
    ∃ token zone id existing first mid rest, Allowed runtime host (wantedOf runtime rec) ∧
      Looked env runtime token (wantedOf runtime rec).name (wantedOf runtime rec).type w zone id existing first mid ∧
      ¬ (Json.number (countOf existing)).any (1 < ·) ∧
      Settled env token options (wantedOf runtime rec) id (current existing) mid result rest final ∧
      made = first ++ rest := by
  unfold ensure at run
  dsimp only at run
  split at run
  · obtain ⟨rfl, rfl, -⟩ := goes_throw.mp run
    exact .inl ⟨⟨_, rfl⟩, fun event mem => by cases mem⟩
  · rename_i checked
    rcases look_goes run with failed | ⟨token, zone, id, existing, first, mid, rest, looked, next, rfl⟩
    · exact .inl failed
    rcases goes_bind.mp next with ⟨e, failed, rfl⟩ | ⟨count, none, mid', more, counts, after, rfl⟩
    · obtain ⟨rfl, rfl, -⟩ := property_goes failed
      exact .inl ⟨⟨e, rfl⟩, by simpa using looked.silent⟩
    obtain ⟨rfl, rfl, counted⟩ := property_goes counts
    obtain ⟨there, rfl, rfl⟩ := counted count rfl
    split at after
    · obtain ⟨rfl, rfl, -⟩ := goes_throw.mp after
      exact .inl ⟨⟨_, rfl⟩, by simpa using looked.silent⟩
    · rename_i single
      exact .inr ⟨token, zone, id, _, first, _, more, checkRecord_allows checked, looked, single,
        settle_goes after, rfl⟩

/-- What came of a removal whose records were looked up. -/
inductive Removed (env : Environment Operator) (token : String) (options : Options) (id existing : Option Json)
    (w : World Operator Unit) : Except String Outcome → List (Event Operator) → World Operator Unit → Prop where
  | kept {result : Except String Outcome}
      (why : ∀ out, result = .ok out → options.apply = false ∨ (countOf existing).any Json.truthy = false) :
      Removed env token options id existing w result [] w
  | deleted {result : Except String Outcome} {record : Json} (applied : options.apply = true)
      (single : ¬ (Json.number (countOf existing)).any (1 < ·)) (first : existing.bind firstOf = some record)
      (took : ∀ out, result = .ok out →
        (resultIn (replied env w (apiRequest token "DELETE" (recordRoute id (record.field "id")) none))).isSome = true) :
      Removed env token options id existing w result
        [eventOf env (.request (apiRequest token "DELETE" (recordRoute id (record.field "id")) none)) w]
        (called env (.request (apiRequest token "DELETE" (recordRoute id (record.field "id")) none)) w)

theorem remove_goes {result : Except String Outcome}
    (run : Goes env (remove runtime options name type) w result made final) :
    ((∃ message, result = .error message) ∧ ∀ event ∈ made, reading event.call = true) ∨
    ∃ token zone id existing first mid rest, isName (runtime.toLowerCase name) = true ∧ runtime.toUpperCase type ∈ types ∧
      Looked env runtime token (runtime.toLowerCase name) (runtime.toUpperCase type) w zone id existing first mid ∧
      Removed env token options id existing mid result rest final ∧ made = first ++ rest := by
  unfold remove at run
  dsimp only at run
  split at run
  · obtain ⟨rfl, rfl, -⟩ := goes_throw.mp run
    exact .inl ⟨⟨_, rfl⟩, fun event mem => by cases mem⟩
  rename_i named
  split at run
  · obtain ⟨rfl, rfl, -⟩ := goes_throw.mp run
    exact .inl ⟨⟨_, rfl⟩, fun event mem => by cases mem⟩
  rename_i typed
  rcases look_goes run with failed | ⟨token, zone, id, existing, first, mid, rest, looked, next, rfl⟩
  · exact .inl failed
  have named : isName (runtime.toLowerCase name) = true := by simpa using named
  have typed : runtime.toUpperCase type ∈ types := by simpa using typed
  have silent : ∀ event ∈ first ++ [], reading event.call = true := by simpa using looked.silent
  rcases goes_bind.mp next with ⟨e, failed, rfl⟩ | ⟨count, none, same, more, counts, after, rfl⟩
  · obtain ⟨rfl, rfl, -⟩ := property_goes failed
    exact .inl ⟨⟨e, rfl⟩, silent⟩
  obtain ⟨rfl, rfl, counted⟩ := property_goes counts
  obtain ⟨there, rfl, rfl⟩ := counted count rfl
  split at after
  · rename_i absent
    obtain ⟨rfl, rfl, rfl⟩ := goes_pure.mp after
    exact .inr ⟨token, zone, id, _, first, _, [], named, typed, looked,
      .kept fun _ _ => .inr (by simpa [countOf] using absent), rfl⟩
  split at after
  · obtain ⟨rfl, rfl, -⟩ := goes_throw.mp after
    exact .inl ⟨⟨_, rfl⟩, silent⟩
  rename_i single
  refine .inr ⟨token, zone, id, _, first, _, more, named, typed, looked, ?_, rfl⟩
  split at after
  · rename_i dry
    rcases goes_bind.mp after with ⟨e, failed, rfl⟩ | ⟨before, none, same, last, shows, ends, rfl⟩
    · obtain ⟨rfl, rfl⟩ := shown_goes failed
      exact .kept fun out ok => by cases ok
    · obtain ⟨rfl, rfl⟩ := shown_goes shows
      obtain ⟨rfl, rfl, rfl⟩ := goes_pure.mp ends
      exact .kept fun _ _ => .inl (by simpa using dry)
  · rename_i applied
    rcases goes_bind.mp after with ⟨e, failed, rfl⟩ | ⟨record, none, same, last, ids, deletes, rfl⟩
    · obtain ⟨rfl, rfl, -⟩ := property_goes failed
      exact .kept fun out ok => by cases ok
    · obtain ⟨rfl, rfl, found⟩ := property_goes ids
      obtain ⟨oldest, named, rfl⟩ := found record rfl
      obtain ⟨rfl, rfl, took⟩ := write_goes (g := fun _ => _) deletes
      exact .deleted (by simpa using applied) single named fun out ok => (took out ok).1

/-! ### Changes -/

/-- A change of a zone that is asked for. -/
inductive Change where
  | ensure (rec : Given)
  | remove (name type : String)

def change (runtime : Runtime) (host : Host) (input : Options × Change) : Command Outcome :=
  match input.2 with
  | .ensure rec => ensure runtime host input.1 rec
  | .remove name type => remove runtime input.1 name type

/-- The requests that may change a zone. -/
inductive Permitted (runtime : Runtime) (host : Host) : Change → Request → Prop where
  | ensure {rec : Given} {token : String} {id cur : Option Json} (allowed : Allowed runtime host (wantedOf runtime rec)) :
      Permitted runtime host (.ensure rec) (writing token (wantedOf runtime rec) id cur)
  | remove {name type token : String} {id record : Option Json} (named : isName (runtime.toLowerCase name) = true)
      (typed : runtime.toUpperCase type ∈ types) :
      Permitted runtime host (.remove name type) (apiRequest token "DELETE" (recordRoute id record) none)

/-- A run reads, and with `--apply` it may then send one request that changes a zone: no other, and nothing after it. -/
theorem changes_once {input : Options × Change} {result : Except String Outcome}
    (run : Goes env (change runtime host input) w result made final) :
    ∃ reads writes, made = reads ++ writes ∧ (∀ event ∈ reads, reading event.call = true) ∧
      (writes = [] ∨ input.1.apply = true ∧ ∃ (event : Event Operator) (sent : Request),
        writes = [event] ∧ event.call = .request sent ∧ Permitted runtime host input.2 sent) := by
  obtain ⟨options, asked⟩ := input
  cases asked with
  | ensure rec =>
    rcases ensure_goes run with ⟨-, silent⟩ | ⟨token, zone, id, existing, first, mid, rest, allowed, looked, -, settled, rfl⟩
    · exact ⟨made, [], (List.append_nil _).symm, silent, .inl rfl⟩
    · refine ⟨first, rest, rfl, looked.silent, ?_⟩
      cases settled with
      | kept why => exact .inl rfl
      | wrote applied differs took => exact .inr ⟨applied, _, _, rfl, rfl, .ensure allowed⟩
  | remove name type =>
    rcases remove_goes run with ⟨-, silent⟩ | ⟨token, zone, id, existing, first, mid, rest, named, typed, looked, removed, rfl⟩
    · exact ⟨made, [], (List.append_nil _).symm, silent, .inl rfl⟩
    · refine ⟨first, rest, rfl, looked.silent, ?_⟩
      cases removed with
      | kept why => exact .inl rfl
      | deleted applied there took => exact .inr ⟨applied, _, _, rfl, rfl, .remove named typed⟩

def onTerminal : Runtime where
  toLowerCase text := String.ofList (text.toList.map Char.toLower)
  toUpperCase text := String.ofList (text.toList.map Char.toUpper)
  encodeURIComponent text := text
  sorted a b := compare a b

def wwwRecord : Given where
  name := "www.example.org"
  type := "A"
  content := "203.0.113.5"
  proxied := some true

def wwwWanted : Wanted := wantedOf onTerminal wwwRecord

def keptRow : Json := .obj [("id", .str "r1"), ("name", .str "www.example.org"), ("type", .str "A"),
  ("content", .str "203.0.113.5"), ("proxied", .bool true), ("ttl", .num 1)]

def succeeded (result : Json) : HttpAnswer where
  status := 200
  body := Json.stringify (.obj [("success", .bool true), ("result", result)])

/-- The request for the one record. -/
def asksForIt (sent : Request) : Bool :=
  sent.method = "POST" && sent.url = api ++ recordsRoute (some (.str "z1")) &&
    sent.body = some (Json.stringify (bodyOf wwwWanted))

def createsIt : Operator.Call → Bool
  | .request sent => asksForIt sent
  | _ => false

def keeps (past : List (Event Operator)) : Bool := past.any fun event => createsIt event.call

/-- What is found at a URL. -/
def rowsAt (past : List (Event Operator)) (url : String) : List Json :=
  if url = api ++ "/zones?name=example.org&per_page=5" then
    [.obj [("id", .str "z1"), ("name", .str "example.org")]]
  else if keeps past ∧ url = api ++ findRoute onTerminal (some (.str "z1")) "www.example.org" "A" then [keptRow]
  else []

def answered (past : List (Event Operator)) (sent : Request) : HttpAnswer :=
  if sent.method = "GET" then succeeded (.arr (rowsAt past sent.url))
  else if asksForIt sent ∧ keeps past = false then succeeded keptRow
  else { status := 403 }

/-- It refuses all else. -/
def serving : Environment Operator where
  takes _ _ := 100
  answer past
    | .request sent => answered past sent
    | .readFile .. => .ok (some "t\n")
    | .readdir _ => none
    | .writeFile .. | .mkdir _ => .error "EACCES"
    | .head .. => .error "not a git repository"
    | .newId kind => kind ++ "_1"
    | .http .. => { error := "ECONNREFUSED" }
    | .check .. => { code := 1 }
    | .sleep _ => ()

def noon : World Operator Unit := ⟨(), 43200000, []⟩

def applying : Options where
  tokenFile := some "/home/operator/token"
  apply := true

theorem changes_once_www : ∃ result events final,
    Goes serving (change onTerminal {} (applying, .ensure wwwRecord)) noon result events final ∧ events.length = 5 ∧
      ∃ reads writes, events = reads ++ writes ∧ (∀ event ∈ reads, reading event.call = true) ∧
        (writes = [] ∨ applying.apply = true ∧ ∃ (event : Event Operator) (sent : Request),
          writes = [event] ∧ event.call = .request sent ∧ Permitted onTerminal {} (.ensure wwwRecord) sent) := by
  obtain ⟨result, events, final, run⟩ := goes serving (change onTerminal {} (applying, .ensure wwwRecord)) noon
  refine ⟨result, events, final, run, ?_, changes_once run⟩
  have five : (Program.run (change onTerminal {} (applying, .ensure wwwRecord)) serving noon).2.trace.length = 5 := by
    decide +kernel
  rw [run.ran, run.trace] at five
  exact five

end

end OpenVibeHost.Dns
