import OpenVibeHost.EffectRuns
import OpenVibeHost.Executor

/-! The executor as the commands use it that talk to other services (`announce`, `alerts relay`, `nodes report`,
`browser-watch`): its requests with their method, body and timeout. What a file holds that only a command writes is read
off the events. -/
namespace OpenVibeHost
open Effects Program

structure Request where
  url : String
  method : String := "GET"
  headers : List (String × String) := []
  body : Option String := none
  timeoutMs : Nat := 5000
  deriving DecidableEq, Repr

namespace Operator

/-- How a run of `scripts/browser-check.js` ended. -/
structure CheckResult where
  code : Nat
  stdout : String := ""
  error : Option String := none
  deriving DecidableEq, Repr

inductive Call where
  | readFile (path : String) (privileged : Bool)
  | readdir (path : String)
  | writeFile (path content : String)
  | mkdir (path : String)
  | http (url : String) (headers : List (String × String)) (timeoutMs : Nat)
  | request (sent : Request)
  /-- `git rev-parse HEAD` in a checkout. -/
  | head (dir : String) (safeDirectory : Bool)
  /-- `ids.newId` of openvibe-contracts. -/
  | newId (kind : String)
  | check (site asUser home : String)
  | sleep (ms : Nat)
  deriving DecidableEq, Repr

abbrev Call.Answer : Call → Type
  | .readFile .. => Except String (Option String)
  | .readdir _ => Option (List Entry)
  | .writeFile .. | .mkdir _ => Except String Unit
  | .http .. | .request _ => HttpAnswer
  | .head .. => Except String String
  | .newId _ => String
  | .check .. => CheckResult
  | .sleep _ => Unit

def Call.least : Call → Nat
  | .sleep ms => ms
  | _ => 0

end Operator

/-- The machine and the services that ovhost asks. -/
def Operator : Signature := ⟨Operator.Call, Operator.Call.Answer, Operator.Call.least⟩

namespace Operator

/-- A command; it throws the message of its own error class. -/
abbrev Command := Program Operator Unit String

def readFile (path : String) (privileged : Bool := false) : Command (Except String (Option String)) :=
  ask (S := Operator) (.readFile path privileged) id

def readdir (path : String) : Command (Option (List Entry)) := ask (S := Operator) (.readdir path) id

def writeFile (path content : String) : Command (Except String Unit) := ask (S := Operator) (.writeFile path content) id

def mkdir (path : String) : Command (Except String Unit) := ask (S := Operator) (.mkdir path) id

def http (url : String) (headers : List (String × String)) (timeoutMs : Nat) : Command HttpAnswer :=
  ask (S := Operator) (.http url headers timeoutMs) id

def request (sent : Request) : Command HttpAnswer := ask (S := Operator) (.request sent) id

def head (dir : String) (safeDirectory : Bool) : Command (Except String String) :=
  ask (S := Operator) (.head dir safeDirectory) id

def newId (kind : String) : Command String := ask (S := Operator) (.newId kind) id

def check (site asUser home : String) : Command CheckResult := ask (S := Operator) (.check site asUser home) id

def sleep (ms : Nat) : Command Unit := ask (S := Operator) (.sleep ms) id

/-! ### How commands run -/

section
variable {α β : Type} {env : Environment Operator} {w final : World Operator Unit} {result : Except String β}
  {made : List (Event Operator)}

/-- What a request is answered. -/
def replied (env : Environment Operator) (w : World Operator Unit) (sent : Request) : HttpAnswer :=
  env.answer w.trace (.request sent)

theorem goes_request {sent : Request} {f : HttpAnswer → Command β} : Goes env (request sent >>= f) w result made final ↔
    ∃ rest, Goes env (f (replied env w sent)) (called env (.request sent) w) result rest final ∧
      made = eventOf env (.request sent) w :: rest := goes_ask_bind

theorem goes_sleep {ms : Nat} {f : Unit → Command β} : Goes env (sleep ms >>= f) w result made final ↔
    ∃ rest, Goes env (f ()) (called env (.sleep ms) w) result rest final ∧ made = eventOf env (.sleep ms) w :: rest :=
  goes_ask_bind

theorem goes_readFile {path : String} {privileged : Bool} {f : Except String (Option String) → Command β} :
    Goes env (readFile path privileged >>= f) w result made final ↔
      ∃ rest, Goes env (f (env.answer w.trace (.readFile path privileged)))
          (called env (.readFile path privileged) w) result rest final ∧
        made = eventOf env (.readFile path privileged) w :: rest := goes_ask_bind

theorem goes_readdir {path : String} {f : Option (List Entry) → Command β} :
    Goes env (readdir path >>= f) w result made final ↔
      ∃ rest, Goes env (f (env.answer w.trace (.readdir path))) (called env (.readdir path) w) result rest final ∧
        made = eventOf env (.readdir path) w :: rest := goes_ask_bind

theorem goes_writeFile {path text : String} {f : Except String Unit → Command β} :
    Goes env (writeFile path text >>= f) w result made final ↔
      ∃ rest, Goes env (f (env.answer w.trace (.writeFile path text))) (called env (.writeFile path text) w) result rest
          final ∧ made = eventOf env (.writeFile path text) w :: rest := goes_ask_bind

theorem goes_mkdir {path : String} {f : Except String Unit → Command β} :
    Goes env (mkdir path >>= f) w result made final ↔
      ∃ rest, Goes env (f (env.answer w.trace (.mkdir path))) (called env (.mkdir path) w) result rest final ∧
        made = eventOf env (.mkdir path) w :: rest := goes_ask_bind

/-- A call that writes no file. -/
@[grind =] def quiet : Call → Bool
  | .writeFile .. => false
  | .readFile .. | .readdir _ | .mkdir _ | .http .. | .request _ | .head .. | .newId _ | .check .. | .sleep _ => true

variable {calls : Call → Bool}

@[grind ←] theorem emits_call {call : Call} {read : call.Answer → α} (one : calls call = true) :
    Emits (S := Operator) calls (ask (S := Operator) call read : Command α) := emits_ask one

attribute [grind =] readFile readdir writeFile mkdir http request head newId check sleep

end

/-- A request with what it was answered. -/
def exchange : Event Operator → Option (Request × HttpAnswer)
  | ⟨.request sent, answer, _⟩ => some (sent, answer)
  | _ => none

def exchanges (events : List (Event Operator)) : List (Request × HttpAnswer) := events.filterMap exchange

/-- A call that is no request. -/
@[grind =] def unasked : Call → Bool
  | .request _ => false
  | .writeFile .. | .readFile .. | .readdir _ | .mkdir _ | .http .. | .head .. | .newId _ | .check .. | .sleep _ => true

theorem exchanges_append (first rest : List (Event Operator)) :
    exchanges (first ++ rest) = exchanges first ++ exchanges rest := List.filterMap_append

theorem exchanges_none {events : List (Event Operator)} (silent : ∀ event ∈ events, unasked event.call = true) :
    exchanges events = [] := by
  refine List.filterMap_eq_nil_iff.mpr fun event mem => ?_
  have quiet := silent event mem
  obtain ⟨call, answer, clock⟩ := event
  cases call <;> first | rfl | cases quiet

/-! ### A file that the commands write -/

/-- What an event leaves of what stands at a path. -/
def standingAfter (path : String) (content : Option String) : Event Operator → Option String
  | ⟨.writeFile other text, .ok _, _⟩ => if other = path then some text else content
  | _ => content

/-- What stands at a path after the events, where `start` stood at first. -/
def standing (path : String) (start : Option String) (events : List (Event Operator)) : Option String :=
  events.foldl (standingAfter path) start

/-- What is read at the path is what stands there. -/
def Reads (env : Environment Operator) (path : String) (start : Option String) : Prop :=
  ∀ (trace : List (Event Operator)) (privileged : Bool),
    env.answer trace (.readFile path privileged) = Except.ok (standing path start trace)

/-- What is written at the path takes the place of what stood there. -/
def Writes (env : Environment Operator) (path : String) : Prop :=
  ∀ (trace : List (Event Operator)) (content : String), env.answer trace (.writeFile path content) = Except.ok ()

/-- The calls that write at a path. -/
def writesAt (path : String) : Call → Bool
  | .writeFile other _ => other = path
  | _ => false

variable {env : Environment Operator} {path : String} {start content : Option String} {ε α : Type}

theorem standing_snoc (events : List (Event Operator)) (event : Event Operator) :
    standing path start (events ++ [event]) = standingAfter path (standing path start events) event := by
  simp [standing, List.foldl_append]

theorem standingAfter_other {event : Event Operator} (other : writesAt path event.call = false) :
    standingAfter path content event = content := by
  obtain ⟨call, answer, clock⟩ := event
  cases call with
  | writeFile at' text =>
    have ne : at' ≠ path := by simpa [writesAt] using other
    cases answer with
    | error e => rfl
    | ok _ => exact if_neg ne
  | _ => rfl

/-- What writes elsewhere only leaves what stands at a path. -/
theorem standing_append {more : List (Event Operator)} (events : List (Event Operator))
    (other : ∀ event ∈ more, writesAt path event.call = false) :
    standing path start (events ++ more) = standing path start events := by
  induction more generalizing events with
  | nil => rw [List.append_nil]
  | cons event rest ih =>
    have split : events ++ event :: rest = (events ++ [event]) ++ rest := by simp
    rw [split, ih _ fun later mem => other later (List.mem_cons_of_mem _ mem), standing_snoc,
      standingAfter_other (other event List.mem_cons_self)]

/-- A program that writes elsewhere only leaves what stands at a path. -/
theorem standing_kept {p : Program Operator Unit ε α} {w final : World Operator Unit} {result : Except ε α}
    {made : List (Event Operator)} (emits : Emits (S := Operator) (fun call => !writesAt path call) p)
    (run : Goes env p w result made final) : standing path start final.trace = standing path start w.trace := by
  rw [run.trace]
  exact standing_append w.trace fun event mem => by simpa using run.emitted emits event mem

theorem standing_quiet {p : Program Operator Unit ε α} {w final : World Operator Unit} {result : Except ε α}
    {made : List (Event Operator)} (emits : Emits (S := Operator) quiet p) (run : Goes env p w result made final) :
    standing path start final.trace = standing path start w.trace :=
  standing_kept (emits.mono fun call silent => by cases call <;> first | rfl | cases silent) run

/-- A call that writes elsewhere only leaves what stands at a path. -/
theorem standing_called {w : World Operator Unit} {call : Call} (other : writesAt path call = false) :
    standing path start (called env call w).trace = standing path start w.trace :=
  (standing_snoc _ _).trans (standingAfter_other other)

/-- A file that was written is what stands. -/
theorem standing_written {w : World Operator Unit} {text : String} (writes : Writes env path) :
    standing path start (called env (.writeFile path text) w).trace = some text := by
  refine (standing_snoc _ _).trans ?_
  rw [writes w.trace text]
  exact if_pos rfl

/-! ### Many runs of a command -/

/-- A run of a command: what it was given, what came of it and when it ran. -/
structure Ran (ι α : Type) where
  input : ι
  outcome : Except String α
  began : Nat
  ended : Nat

/-- Runs of a command one after the other; between them anything happens whose calls are `apart`. -/
inductive History {ι α : Type} (env : Environment Operator) (command : ι → Command α) (apart : Call → Prop) :
    World Operator Unit → List (Ran ι α) → World Operator Unit → Prop where
  | start (w : World Operator Unit) : History env command apart w [] w
  | meanwhile {w mid final : World Operator Unit} {runs : List (Ran ι α)} {more : List (Event Operator)}
      (before : History env command apart w runs mid) (later : mid.clock ≤ final.clock)
      (trace : final.trace = mid.trace ++ more) (elsewhere : ∀ event ∈ more, apart event.call) :
      History env command apart w runs final
  | ran {w mid final : World Operator Unit} {runs : List (Ran ι α)} {made : List (Event Operator)} {input : ι}
      {outcome : Except String α} (before : History env command apart w runs mid)
      (run : Goes env (command input) mid outcome made final) :
      History env command apart w (runs ++ [⟨input, outcome, mid.clock, final.clock⟩]) final

variable {ι : Type} {command : ι → Command α} {apart : Call → Prop} {w final : World Operator Unit} {runs : List (Ran ι α)}

theorem History.onward (history : History env command apart w runs final) : w.clock ≤ final.clock := by
  induction history with
  | start => exact le_refl _
  | meanwhile before later trace elsewhere ih => exact ih.trans later
  | ran before run ih => exact ih.trans run.onward

/-- The world after a run of a command. -/
def afterRun (env : Environment Operator) (command : ι → Command α) (w : World Operator Unit) (input : ι) :
    World Operator Unit := ((command input).run env w).2

/-- A run of a command with what comes of it. -/
def ranOf (env : Environment Operator) (command : ι → Command α) (w : World Operator Unit) (input : ι) : Ran ι α where
  input
  outcome := ((command input).run env w).1
  began := w.clock
  ended := (afterRun env command w input).clock

theorem History.next {mid : World Operator Unit} (before : History env command apart w runs mid) (input : ι) :
    History env command apart w (runs ++ [ranOf env command mid input]) (afterRun env command mid input) := by
  obtain ⟨result, made, final, run⟩ := goes env (command input) mid
  have last : final = afterRun env command mid input := by
    rw [afterRun, run.ran]
  have outcome : result = (ranOf env command mid input).outcome := by
    rw [ranOf, run.ran]
  subst last outcome
  exact .ran before run

/-- A run that counts leaves what is its own, another one what was there. -/
structure Leaves {σ : Type} (counts : Bool) (own : σ → Prop) (before after : σ) : Prop where
  own : counts = true → own after
  kept : counts = false → after = before

/-- What the last run that counts left, or what was there before the first. -/
structure Lasts {σ : Type} (counts : Ran ι α → Bool) (own : Ran ι α → σ → Prop) (runs : List (Ran ι α))
    (before after : σ) : Prop where
  kept : runs.filter counts = [] → after = before
  last : ∀ run ∈ (runs.filter counts).getLast?, own run after

variable {σ : Type} {counts : Ran ι α → Bool} {own : Ran ι α → σ → Prop}

theorem Lasts.snoc {run : Ran ι α} {first before after : σ} (lasts : Lasts counts own runs first before)
    (leaves : Leaves (counts run) (own run) before after) : Lasts counts own (runs ++ [run]) first after := by
  cases counted : counts run with
  | true =>
    have whole : (runs ++ [run]).filter counts = runs.filter counts ++ [run] := by
      rw [List.filter_append, List.filter_cons_of_pos counted, List.filter_nil]
    refine ⟨fun none => ?_, fun last mem => ?_⟩
    · rw [whole] at none
      simp at none
    · rw [whole, List.getLast?_concat] at mem
      cases mem
      exact leaves.own counted
  | false =>
    have whole : (runs ++ [run]).filter counts = runs.filter counts := by
      rw [List.filter_append, List.filter_cons_of_neg (by simp [counted]), List.filter_nil, List.append_nil]
    rw [leaves.kept counted]
    exact ⟨fun none => lasts.kept (whole ▸ none), fun last mem => lasts.last last (whole ▸ mem)⟩

/-- What holds of each run holds of the last that counts, however many there are. -/
theorem history_lasts {value : List (Event Operator) → σ} {least : Nat}
    (history : History env command apart w runs final) (clock : least ≤ w.clock)
    (stays : ∀ {trace more : List (Event Operator)}, (∀ event ∈ more, apart event.call) →
      value (trace ++ more) = value trace)
    (step : ∀ {mid next : World Operator Unit} {made : List (Event Operator)} {input : ι} {outcome : Except String α},
      least ≤ mid.clock → Goes env (command input) mid outcome made next →
      Leaves (counts ⟨input, outcome, mid.clock, next.clock⟩) (own ⟨input, outcome, mid.clock, next.clock⟩)
        (value mid.trace) (value next.trace)) :
    Lasts counts own runs (value w.trace) (value final.trace) := by
  induction history with
  | start => exact ⟨fun _ => rfl, by simp⟩
  | meanwhile before later trace silent ih =>
    rw [trace, stays silent]
    exact ih
  | ran before run ih => exact ih.snoc (step (clock.trans before.onward) run)

end Operator

end OpenVibeHost
