import Mathlib.Data.List.Infix
import Mathlib.Logic.Function.Basic
import OpenVibeHost.Json
import OpenVibeHost.Transition

/-! The dashboard's sign-in, server/auth/sso.js: the guard around the handlers of openvibe-sdk/sso, and a browser that
other hosts of the domain plant cookies in. What the SDK's handlers do with a response is any list of operations. -/
namespace OpenVibeHost.HostSession
open Transition

/-! ### Cookies -/

/-- The names of Host's own cookies. -/
def sessionName (secure : Bool) : String := (if secure then "__Host-" else "") ++ "ov_host_session"

def flowName (secure : Bool) : String := (if secure then "__Host-" else "") ++ "ov_host_flow"

/-- `COOKIES.access` and `COOKIES.refresh` of the SDK. -/
def access : String := "ov_token"

def refresh : String := "ov_refresh"

/-- What a URL is to `authorizeState`: its path and its `state`. -/
structure Url where
  pathname : String
  state : Option String

/-- `decodeJwtPayload` of the SDK, and `new URL(text)`. -/
structure Runtime where
  payload : String → Option Json
  parseUrl : String → Option Url

/-- A request below `/auth`, its cookies parsed. -/
structure Request where
  path : String
  /-- `query.error` is there. -/
  error : Bool := false
  state : Option String := none
  cookies : String → Option String

/-- What a handler does with the response. -/
inductive Op where
  | cookie (name value : String)
  | clear (name : String)
  | redirect (url : String)
  | status (code : Nat)
  | json (body : Json)

/-- The response: the cookies it sets (none: clears), in order. -/
structure Reply where
  sets : List (String × Option String) := []
  status : Nat := 200
  body : Option Json := none
  location : Option String := none

def nonempty (text : Option String) : Option String := text.filter (· ≠ "")

/-- The session token this browser holds. -/
def sessionToken (secure : Bool) (request : Request) : Option String := nonempty (request.cookies (sessionName secure))

def subjectOf (runtime : Runtime) (token : Option String) : Option String :=
  match ((nonempty token).bind runtime.payload).bind (Json.field "subject_id") with
  | some (.str subject) => some subject
  | _ => none

def sameString (a b : Option String) : Bool := a.getD "" = b.getD "" && a.getD "" ≠ ""

/-- The state of a redirect to the Network's authorize endpoint. -/
def authorizeState (runtime : Runtime) (url : String) : Option String :=
  (runtime.parseUrl url).bind fun u =>
    if "/oauth/authorize".toList.isSuffixOf u.pathname.toList then u.state else none

/-! ### The guard -/

/-- Whether a token may not take the place of the one there is on `/refresh`. -/
def isOther (runtime : Runtime) (current : Option String) (value : String) : Bool :=
  (nonempty (subjectOf runtime current)).isNone || subjectOf runtime current ≠ subjectOf runtime (some value)

/-- What the guard lets through of one operation; `refused` is whether it refused a token before. -/
def guarded (runtime : Runtime) (secure : Bool) (request : Request) : Bool × Reply → Op → Bool × Reply
  | (refused, reply), .cookie name value =>
    if refused ∧ name = refresh then (refused, reply)
    else if name = access then
      if request.path = "/refresh" ∧ isOther runtime (sessionToken secure request) value then (true, reply)
      else
        (refused, { reply with sets := reply.sets ++ [(sessionName secure, some value), (access, some value)] })
    else (refused, { reply with sets := reply.sets ++ [(name, some value)] })
  | (refused, reply), .clear name =>
    if name = access then
      (refused, { reply with sets := reply.sets ++ [(sessionName secure, none), (access, none)] })
    else (refused, { reply with sets := reply.sets ++ [(name, none)] })
  | (refused, reply), .redirect url =>
    let sets :=
      if request.path = "/login" then
        match nonempty (authorizeState runtime url) with
        | some state => [(flowName secure, some state)]
        | none => []
      else []
    (refused, { reply with sets := reply.sets ++ sets, location := url })
  | (refused, reply), .status code => (refused, { reply with status := code })
  | (refused, reply), .json body =>
    if request.path = "/refresh" ∧ refused then
      (refused, { reply with
        status := 401, body := some (.obj [("error", .str "The session ended. Please sign in again.")]) })
    else (refused, { reply with body := some body })

/-- The handlers' operations as the guard lets them through. -/
def through (runtime : Runtime) (secure : Bool) (request : Request) (reply : Reply) (ops : List Op) : Bool × Reply :=
  ops.foldl (guarded runtime secure request) (false, reply)

def isCallback (request : Request) : Bool := request.path = "/callback" && !request.error

/-- The state of the flow that this browser began. -/
def ownFlow (secure : Bool) (request : Request) : Bool := sameString request.state (request.cookies (flowName secure))

/-- The response to a request where the handlers would do `ops`. -/
def respond (runtime : Runtime) (secure : Bool) (request : Request) (ops : List Op) : Reply :=
  if isCallback request then
    if ownFlow secure request then (through runtime secure request { sets := [(flowName secure, none)] } ops).2
    else { sets := [(flowName secure, none)], status := 400
           body := some (.str "OAuth state mismatch. Please try signing in again.") }
  else (through runtime secure request {} ops).2

/-! ### A browser -/

abbrev Jar := String → Option String

/-- The jar after the cookies of a response. -/
def Jar.after (jar : Jar) (sets : List (String × Option String)) : Jar :=
  sets.foldl (fun jar set => Function.update jar set.1 set.2) jar

inductive Event where
  | planted (name : String)
  | answered (request : Request) (ops : List Op) (reply : Reply)

structure State where
  jar : Jar
  /-- The latest event first. -/
  log : List Event

def initial : State := ⟨fun _ => none, []⟩

inductive Action where
  /-- Another host of the domain sets a cookie for all of it, or clears one. -/
  | plant (name : String) (value : Option String)
  | request (path : String) (error : Bool) (state : Option String) (ops : List Op)

/-- A browser takes a cookie whose name begins with `__Host-` from no other host. -/
def hostOnly (name : String) : Bool := "__Host-".toList.isPrefixOf name.toList

def step (runtime : Runtime) (state : State) : Action → State
  | .plant name value =>
    if hostOnly name then state else ⟨Function.update state.jar name value, .planted name :: state.log⟩
  | .request path error query ops =>
    let request := { path, error, state := query, cookies := state.jar }
    let reply := respond runtime true request ops
    ⟨state.jar.after reply.sets, .answered request ops reply :: state.log⟩

/-! ### What a response sets -/

/-- The handlers name none of Host's own cookies. -/
def Op.foreign : Op → Prop
  | .cookie name _ | .clear name => name ≠ sessionName true ∧ name ≠ flowName true
  | _ => True

variable {runtime : Runtime} {request : Request}

/-- What a response may do to Host's own cookies. -/
structure Sets (runtime : Runtime) (request : Request) (ops : List Op) (set : String × Option String) : Prop where
  /-- A token that a refresh sets is of the same subject as the one there was. -/
  session : set.1 = sessionName true → request.path = "/refresh" → ∀ token, set.2 = some token →
    isOther runtime (sessionToken true request) token = false
  /-- A flow begins with a redirect of the login to the authorize endpoint. -/
  flow : set.1 = flowName true → request.path = "/login" ∧ ∀ state, set.2 = some state →
    ∃ url, .redirect url ∈ ops ∧ authorizeState runtime url = some state

theorem Sets.mono {ops more : List Op} {set : String × Option String} (sets : Sets runtime request ops set)
    (sub : ops ⊆ more) : Sets runtime request more set where
  session := sets.session
  flow here := by
    obtain ⟨login, begun⟩ := sets.flow here
    refine ⟨login, fun state there => ?_⟩
    obtain ⟨url, mem, same⟩ := begun state there
    exact ⟨url, sub mem, same⟩

theorem flow_ne_session : flowName true ≠ sessionName true := by decide

theorem access_ne_flow : access ≠ flowName true := by decide

theorem access_ne_session : access ≠ sessionName true := by decide

/-- A cookie that is not Host's own. -/
theorem sets_foreign {ops : List Op} {name : String} (value : Option String)
    (foreign : name ≠ sessionName true ∧ name ≠ flowName true) : Sets runtime request ops (name, value) :=
  ⟨fun here => absurd here foreign.1, fun here => absurd here foreign.2⟩

theorem sets_access {ops : List Op} (value : Option String) : Sets runtime request ops (access, value) :=
  sets_foreign value ⟨access_ne_session, access_ne_flow⟩

theorem sets_session {ops : List Op} {value : Option String}
    (fine : request.path = "/refresh" → ∀ token, value = some token →
      isOther runtime (sessionToken true request) token = false) :
    Sets runtime request ops (sessionName true, value) :=
  ⟨fun _ => fine, fun here => absurd here.symm flow_ne_session⟩

/-- One operation adds cookies that it may set. -/
theorem guarded_sets {op : Op} (foreign : op.foreign) (before : Bool × Reply) :
    ∃ more, (guarded runtime true request before op).2.sets = before.2.sets ++ more ∧
      ∀ set ∈ more, Sets runtime request [op] set := by
  obtain ⟨refused, reply⟩ := before
  cases op with
  | cookie name value =>
    simp only [guarded]
    split
    · exact ⟨[], (List.append_nil _).symm, by simp⟩
    · split
      · split
        · exact ⟨[], (List.append_nil _).symm, by simp⟩
        · rename_i same
          refine ⟨_, rfl, ?_⟩
          simp only [List.mem_cons, List.not_mem_nil, or_false, forall_eq_or_imp, forall_eq]
          refine ⟨sets_session fun onRefresh token there => ?_, sets_access _⟩
          cases there
          by_contra other
          exact same ⟨onRefresh, by simpa using other⟩
      · exact ⟨_, rfl, by simpa using sets_foreign _ foreign⟩
  | clear name =>
    simp only [guarded]
    split
    · refine ⟨_, rfl, ?_⟩
      simp only [List.mem_cons, List.not_mem_nil, or_false, forall_eq_or_imp, forall_eq]
      refine ⟨sets_session fun _ token none => ?_, sets_access _⟩
      cases none
    · exact ⟨_, rfl, by simpa using sets_foreign _ foreign⟩
  | redirect url =>
    refine ⟨_, rfl, ?_⟩
    split
    · rename_i login
      split
      · rename_i state begun
        intro set mem
        obtain rfl := List.mem_singleton.mp mem
        refine ⟨fun here => absurd here flow_ne_session, fun _ => ⟨login, fun other same => ?_⟩⟩
        cases same
        exact ⟨url, List.mem_singleton_self _, (Option.filter_eq_some_iff.mp begun).1⟩
      · simp
    · simp
  | status code => exact ⟨[], (List.append_nil _).symm, by simp⟩
  | json body =>
    simp only [guarded]
    split <;> exact ⟨[], (List.append_nil _).symm, by simp⟩

theorem through_sets (runtime : Runtime) (request : Request) {ops : List Op} (foreign : ∀ op ∈ ops, op.foreign) (before : Bool × Reply) :
    ∃ more, (ops.foldl (guarded runtime true request) before).2.sets = before.2.sets ++ more ∧
      ∀ set ∈ more, Sets runtime request ops set := by
  induction ops generalizing before with
  | nil => exact ⟨[], (List.append_nil _).symm, by simp⟩
  | cons op rest ih =>
    obtain ⟨first, one, fine⟩ := guarded_sets (foreign op List.mem_cons_self) before
    obtain ⟨later, two, fine'⟩ := ih (fun other mem => foreign other (List.mem_cons_of_mem _ mem))
      (guarded runtime true request before op)
    refine ⟨first ++ later, ?_, fun set mem => ?_⟩
    · rw [List.foldl_cons, two, one, List.append_assoc]
    · rcases List.mem_append.mp mem with old | new
      · exact (fine set old).mono (by simp)
      · exact (fine' set new).mono (List.subset_cons_self _ _)

/-! ### What every action keeps -/

/-- What a cookie is after a response: as it was where the response does not name it, or what the response sets. -/
theorem after_cases (jar : Jar) (sets : List (String × Option String)) (name : String) :
    ((∀ set ∈ sets, set.1 ≠ name) ∧ jar.after sets name = jar name) ∨ (name, jar.after sets name) ∈ sets := by
  unfold Jar.after
  induction sets generalizing jar with
  | nil => exact .inl ⟨by simp, rfl⟩
  | cons set rest ih =>
    rw [List.foldl_cons]
    rcases ih (Function.update jar set.1 set.2) with ⟨others, same⟩ | there
    · rw [same]
      by_cases here : set.1 = name
      · subst here
        exact .inr (by simp)
      · refine .inl ⟨?_, Function.update_of_ne (Ne.symm here) _ _⟩
        simpa [here] using others
    · exact .inr (List.mem_cons_of_mem _ there)

/-- A request that leaves whose session it is: it sets no session, or renews it. -/
def Event.renews : Event → Prop
  | .planted _ => True
  | .answered request _ reply => request.path = "/refresh" ∨ ∀ set ∈ reply.sets, set.1 ≠ sessionName true

/-- A request that does not use up a flow. -/
def Event.waits : Event → Prop
  | .planted _ => True
  | .answered request _ _ => isCallback request = false

/-- This browser went from `/login` to the authorize endpoint with the state, and no callback came since. -/
def Begun (runtime : Runtime) (log : List Event) (state : String) : Prop :=
  ∃ later request ops reply earlier, log = later ++ .answered request ops reply :: earlier ∧ request.path = "/login" ∧
    (∃ url, .redirect url ∈ ops ∧ authorizeState runtime url = some state) ∧ ∀ event ∈ later, event.waits

/-- The session's subject signed in: a request set it that was no refresh, and where that was a callback, this browser
began its flow, for this callback only. Since then the session was only renewed. -/
def SignedIn (runtime : Runtime) (log : List Event) (token : String) : Prop :=
  ∃ later request ops reply earlier first, log = later ++ .answered request ops reply :: earlier ∧
    request.path ≠ "/refresh" ∧ (sessionName true, some first) ∈ reply.sets ∧
    subjectOf runtime (some token) = subjectOf runtime (some first) ∧
    (isCallback request = true → ∃ state, request.state = some state ∧ Begun runtime earlier state) ∧
    ∀ event ∈ later, event.renews

theorem Begun.cons {log : List Event} {state : String} (begun : Begun runtime log state) {event : Event}
    (waits : event.waits) : Begun runtime (event :: log) state := by
  obtain ⟨later, request, ops, reply, earlier, rfl, login, redirected, only⟩ := begun
  exact ⟨event :: later, request, ops, reply, earlier, rfl, login, redirected,
    List.forall_mem_cons.mpr ⟨waits, only⟩⟩

theorem SignedIn.cons {log : List Event} {token : String} (signed : SignedIn runtime log token) {event : Event}
    (renews : event.renews) : SignedIn runtime (event :: log) token := by
  obtain ⟨later, request, ops, reply, earlier, first, rfl, path, set, same, callback, only⟩ := signed
  exact ⟨event :: later, request, ops, reply, earlier, first, rfl, path, set, same, callback,
    List.forall_mem_cons.mpr ⟨renews, only⟩⟩

/-- Another token of the same subject. -/
theorem SignedIn.renewed {log : List Event} {token other : String} (signed : SignedIn runtime log token)
    (same : subjectOf runtime (some token) = subjectOf runtime (some other)) : SignedIn runtime log other := by
  obtain ⟨later, request, ops, reply, earlier, first, split, path, set, same', callback, only⟩ := signed
  exact ⟨later, request, ops, reply, earlier, first, split, path, set, same.symm.trans same', callback, only⟩

structure Held (runtime : Runtime) (state : State) : Prop where
  session : ∀ token, state.jar (sessionName true) = some token → SignedIn runtime state.log token
  flow : ∀ begun, state.jar (flowName true) = some begun → Begun runtime state.log begun

theorem held_initial : Held runtime initial := by
  constructor <;> simp [initial]

variable {state : State}

theorem held_plant (held : Held runtime state) (name : String) (value : Option String) :
    Held runtime (step runtime state (.plant name value)) := by
  simp only [step]
  split
  · exact held
  · rename_i planted
    have session : name ≠ sessionName true := by
      rintro rfl
      exact planted (by decide)
    have flow : name ≠ flowName true := by
      rintro rfl
      exact planted (by decide)
    constructor
    · intro token there
      exact (held.session token (by simpa [Function.update_of_ne (Ne.symm session)] using there)).cons trivial
    · intro begun there
      exact (held.flow begun (by simpa [Function.update_of_ne (Ne.symm flow)] using there)).cons trivial

/-- What a response sets: a callback drops the flow first, and nothing more where it is not this browser's. -/
theorem respond_sets (runtime : Runtime) (request : Request) {ops : List Op} (foreign : ∀ op ∈ ops, op.foreign) :
    ∃ more, (respond runtime true request ops).sets =
        (if isCallback request then [(flowName true, none)] else []) ++ more ∧
      (∀ set ∈ more, Sets runtime request ops set) ∧
      (isCallback request = true → more ≠ [] → ownFlow true request = true) := by
  unfold respond
  split
  · split
    · rename_i own
      obtain ⟨more, same, fine⟩ := through_sets runtime request foreign (false, { sets := [(flowName true, none)] })
      exact ⟨more, same, fine, fun _ _ => own⟩
    · exact ⟨[], rfl, by simp, fun _ some => absurd rfl some⟩
  · obtain ⟨more, same, fine⟩ := through_sets runtime request foreign (false, {})
    refine ⟨more, same, fine, fun no => ?_⟩
    rename_i other
    exact absurd no other

/-- The flow that a callback matches is this browser's. -/
theorem ownFlow_state (own : ownFlow true request = true) :
    ∃ state, request.state = some state ∧ request.cookies (flowName true) = some state := by
  simp only [ownFlow, sameString, ne_eq, Bool.and_eq_true, decide_eq_true_eq] at own
  obtain ⟨same, given⟩ := own
  cases query : request.state with
  | none => simp [query] at given
  | some state =>
    refine ⟨state, rfl, ?_⟩
    cases cookie : request.cookies (flowName true) with
    | none => simp [query, cookie] at same given; exact absurd same given
    | some other => simpa [query, cookie, eq_comm] using same

/-- A session that a refresh may set is of the subject there was. -/
theorem same_subject {token : String} (fine : isOther runtime (sessionToken true request) token = false) :
    ∃ current, request.cookies (sessionName true) = some current ∧
      subjectOf runtime (some current) = subjectOf runtime (some token) := by
  simp only [isOther, ne_eq, decide_not, Bool.or_eq_false_iff, Bool.not_eq_false', decide_eq_true_eq] at fine
  obtain ⟨some', same⟩ := fine
  cases current : request.cookies (sessionName true) with
  | none => simp [sessionToken, current, nonempty, subjectOf] at some'
  | some token' =>
    refine ⟨token', rfl, ?_⟩
    rw [← same, sessionToken, current]
    by_cases empty : token' = "" <;> simp [subjectOf, nonempty, empty]

theorem held_request (held : Held runtime state) (path : String) (error : Bool) (query : Option String) {ops : List Op}
    (foreign : ∀ op ∈ ops, op.foreign) : Held runtime (step runtime state (.request path error query ops)) := by
  simp only [step]
  generalize asked : ({ path, error, state := query, cookies := state.jar } : Request) = request
  have jar : request.cookies = state.jar := by rw [← asked]
  obtain ⟨more, sets, fine, own⟩ := respond_sets runtime request foreign
  generalize respond runtime true request ops = reply at sets
  constructor
  · intro token there
    rcases after_cases state.jar reply.sets (sessionName true) with ⟨others, same⟩ | set
    · exact (held.session token (same.symm.trans there)).cons (.inr others)
    · rw [show state.jar.after reply.sets (sessionName true) = some token from there] at set
      have mem : (sessionName true, some token) ∈ more := by
        rw [sets] at set
        refine (List.mem_append.mp set).resolve_left fun first => ?_
        split at first <;> simp at first
      by_cases onRefresh : request.path = "/refresh"
      · obtain ⟨current, cookie, subject⟩ := same_subject ((fine _ mem).session rfl onRefresh token rfl)
        rw [jar] at cookie
        exact ((held.session current cookie).renewed subject).cons (.inl onRefresh)
      · refine ⟨[], request, ops, reply, state.log, token, rfl, onRefresh, set, rfl, fun callback => ?_, by simp⟩
        obtain ⟨begun, asked, cookie⟩ := ownFlow_state (own callback (List.ne_nil_of_mem mem))
        rw [jar] at cookie
        exact ⟨begun, asked, held.flow begun cookie⟩
  · intro begun there
    rcases after_cases state.jar reply.sets (flowName true) with ⟨others, same⟩ | set
    · have waits : isCallback request = false := by
        by_contra callback
        have callback : isCallback request = true := by simpa using callback
        refine others (flowName true, none) ?_ rfl
        rw [sets]
        simp [callback]
      exact (held.flow begun (same.symm.trans there)).cons waits
    · rw [show state.jar.after reply.sets (flowName true) = some begun from there] at set
      have mem : (flowName true, some begun) ∈ more := by
        rw [sets] at set
        refine (List.mem_append.mp set).resolve_left fun first => ?_
        split at first <;> simp at first
      obtain ⟨login, redirected⟩ := (fine _ mem).flow rfl
      exact ⟨[], request, ops, reply, state.log, rfl, login, redirected begun rfl, by simp⟩

/-- Handlers of the SDK, which know nothing of Host's own cookies. -/
def Foreign (_ : State) : Action → Prop
  | .plant _ _ => True
  | .request _ _ _ ops => ∀ op ∈ ops, op.foreign

/-- Tokens that name their subject, and one place to authorize. -/
def tokens : Runtime where
  payload token :=
    if token = "a1" ∨ token = "a2" then some (.obj [("subject_id", .str "usr_a")])
    else if token = "b1" then some (.obj [("subject_id", .str "usr_b")]) else none
  parseUrl url := if url = "https://openvibe.network/oauth/authorize?state=s1" then some ⟨"/oauth/authorize", some "s1"⟩ else none

/-- A sign-in, a planted refresh token that is refused, and a renewal. -/
def signIn : List Action := [
  .request "/login" false none [.redirect "https://openvibe.network/oauth/authorize?state=s1"],
  .request "/callback" false (some "s1") [.cookie access "a1", .cookie refresh "ra", .redirect "/dashboard"],
  .plant refresh (some "rb"),
  .request "/refresh" false none [.cookie access "b1", .cookie refresh "rb2", .json (.bool true)],
  .plant refresh (some "ra"),
  .request "/refresh" false none [.cookie access "a2", .cookie refresh "ra2", .json (.bool true)]]

end OpenVibeHost.HostSession
