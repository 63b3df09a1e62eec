import Mathlib.Tactic.FinCases
import OpenVibeHost.Benchmarks
import OpenVibeHost.Console
import OpenVibeHost.CountGates

/-! The two limits a person has, benchmark links a day and connected accounts. Both
are checked by a count and enforced by nothing else, so they hold of calls that do
not overlap and fail of calls that do. -/
namespace OpenVibeHost

open Catalog (Fault)
open CountGates (Gates Gated Adds Over Apart)
open Session (World Event)

/-! ### Benchmark links -/

namespace Benchmarks

/-- In the 24 hours up to any time, no person has more links than the limit. -/
def WithinDay (tables : Tables) : Prop :=
  ∀ (person : String) (time : Int), tables.links.countP (fun link =>
    link.person = person ∧ time - 86400000 < link.createdAt ∧ link.createdAt ≤ time) ≤ linksPerDay

/-- A call of `createLink`. -/
structure LinkCall where
  person : String
  input : LinkInput
  moment : Moment

def LinkCall.client (sha : String → String) (baseUrl : String) (call : LinkCall) : Client String :=
  createLink sha baseUrl call.person call.input call.moment

def LinkCall.room (call : LinkCall) (tables : Tables) : Prop :=
  tables.links.countP (fun link => link.person = call.person ∧
    link.createdAt > call.moment.now - 86400000) < linksPerDay

/-- A link of that call is added. -/
def LinkCall.adds (call : LinkCall) (tables tables' : Tables) : Prop :=
  ∃ link : Link, link.person = call.person ∧ link.createdAt = call.moment.now ∧
    tables'.links = tables.links ++ [link]

def linkGates {ι : Type} (calls : ι → LinkCall) : Gates Tables ι where
  room i := (calls i).room
  adds i := (calls i).adds
  rival i j := (calls i).person = (calls j).person
  others i j tables tables' apart added room := by
    obtain ⟨link, person, -, links⟩ := added
    have other : link.person ≠ (calls j).person := person ▸ apart
    simpa [LinkCall.room, links, List.countP_append, other] using room

/-- A link added where there was room leaves every 24 hours within the limit. -/
theorem withinDay_adds (call : LinkCall) (tables tables' : Tables) (within : WithinDay tables)
    (room : call.room tables) (added : call.adds tables tables') : WithinDay tables' := by
  obtain ⟨link, person, created, links⟩ := added
  intro someone time
  have before := within someone time
  rw [links, List.countP_append, List.countP_singleton]
  by_cases counts : link.person = someone ∧ time - 86400000 < link.createdAt ∧ link.createdAt ≤ time
  · have fewer : tables.links.countP (fun link => link.person = someone ∧
        time - 86400000 < link.createdAt ∧ link.createdAt ≤ time) ≤
        tables.links.countP (fun link => link.person = call.person ∧
          link.createdAt > call.moment.now - 86400000) := by
      apply List.countP_mono_left
      intro old _ recent
      simp only [decide_eq_true_eq] at recent ⊢
      exact ⟨recent.1.trans (counts.1.symm.trans person), by omega⟩
    have room' := lt_of_le_of_lt fewer room
    simp only [counts, and_self, decide_true, if_true]
    omega
  · simpa [counts] using before

theorem insertLink_adds (call : LinkCall) (link : Link) (person : link.person = call.person)
    (created : link.createdAt = call.moment.now) (rest : Unit → Client String)
    (ended : Over (rest ())) :
    Adds call.adds (Session.execute none (Tables.insertLink link) >>= rest) := by
  rw [Session.execute_bind]
  apply Adds.add
  · intro seen
    cases inserted : Tables.insertLink link seen with
    | error fault => exact .inl (Session.attempt_error inserted)
    | ok tables =>
      refine .inr ⟨link, person, created, ?_⟩
      rw [Session.attempt_ok inserted]
      unfold Tables.insertLink at inserted
      split at inserted
      · cases inserted
      · cases inserted
        rfl
  · intro seen
    cases inserted : Tables.insertLink link seen with
    | error fault => exact Session.after_error inserted ▸ .fail fault
    | ok tables => exact (Session.after_ok inserted).symm ▸ ended

theorem asked_reads (input : LinkInput) : CountGates.Reads (asked input) := by
  unfold asked
  split
  · rw [Session.select_bind]
    refine .read fun seen => ?_
    split
    · exact .ret _
    · exact .fail _
  · rw [Session.select_bind]
    refine .read fun seen => ?_
    split
    · exact .ret _
    · exact .fail _
  · exact .ret _

/-- `createLink` counts the person's links first, and adds one at most. -/
theorem createLink_gated (sha : String → String) (baseUrl : String) (call : LinkCall) :
    Gated call.room call.adds (call.client sha baseUrl) := by
  unfold LinkCall.client createLink
  dsimp only
  split
  · exact .refused _
  · rw [Session.select_bind]
    apply Gated.looks
    · intro seen full
      rw [if_pos (not_lt.mp full)]
      exact .fail _
    · intro seen room
      rw [if_neg (not_le.mpr room)]
      apply (asked_reads call.input).then_adds
      rintro ⟨provider, plan⟩
      dsimp only
      split
      · exact .ended (.fail _)
      · exact insertLink_adds call _ rfl rfl _ (.ret _)

end Benchmarks

/-! ### Connected accounts -/

namespace Console

/-- Nobody has more accounts than the limit. -/
def WithinMax (config : Config) (accounts : List Account) : Prop :=
  ∀ subject, accounts.countP (fun account => account.ownerSubject = subject) ≤ config.maxAccounts

/-- A call of `connect`. -/
structure ConnectCall where
  subject : String
  request : Request
  outside : Outside

def ConnectCall.client (config : Config) (call : ConnectCall) : Client String :=
  connect config call.subject call.request call.outside

def ConnectCall.room (config : Config) (call : ConnectCall) (accounts : List Account) : Prop :=
  accounts.countP (fun account => account.ownerSubject = call.subject) < config.maxAccounts

def ConnectCall.adds (call : ConnectCall) (accounts accounts' : List Account) : Prop :=
  ∃ account : Account, account.ownerSubject = call.subject ∧ accounts' = accounts ++ [account]

def accountGates {ι : Type} (config : Config) (calls : ι → ConnectCall) : Gates (List Account) ι where
  room i := (calls i).room config
  adds i := (calls i).adds
  rival i j := (calls i).subject = (calls j).subject
  others i j accounts accounts' apart added room := by
    obtain ⟨account, owner, rfl⟩ := added
    have other : account.ownerSubject ≠ (calls j).subject := owner ▸ apart
    simpa [ConnectCall.room, List.countP_append, other] using room

theorem withinMax_adds (config : Config) (call : ConnectCall) (accounts accounts' : List Account)
    (within : WithinMax config accounts) (room : call.room config accounts)
    (added : call.adds accounts accounts') : WithinMax config accounts' := by
  obtain ⟨account, owner, rfl⟩ := added
  intro subject
  have before := within subject
  rw [List.countP_append, List.countP_singleton]
  by_cases counts : account.ownerSubject = subject
  · have same : subject = call.subject := counts.symm.trans owner
    subst same
    unfold ConnectCall.room at room
    simp only [owner, decide_true, if_true]
    omega
  · simpa [counts] using before

theorem insert_adds (call : ConnectCall) (account : Account) (owner : account.ownerSubject = call.subject)
    (rest : Unit → Client String) (ended : Over (rest ())) :
    Adds call.adds (Session.execute none (insert account) >>= rest) := by
  rw [Session.execute_bind]
  apply Adds.add
  · intro seen
    cases inserted : insert account seen with
    | error fault => exact .inl (Session.attempt_error inserted)
    | ok accounts =>
      refine .inr ⟨account, owner, ?_⟩
      rw [Session.attempt_ok inserted]
      unfold insert at inserted
      split at inserted
      · cases inserted
      · split at inserted
        · cases inserted
        · cases inserted
          rfl
  · intro seen
    cases inserted : insert account seen with
    | error fault => exact Session.after_error inserted ▸ .fail fault
    | ok accounts => exact (Session.after_ok inserted).symm ▸ ended

/-- `connect` counts the person's accounts before it asks the provider, and adds one at
most. -/
theorem connect_gated (config : Config) (call : ConnectCall) :
    Gated (call.room config) call.adds (call.client config) := by
  unfold ConnectCall.client connect
  cases need config with
  | error fault => exact .refused fault
  | ok available =>
    simp only [Session.ofExcept_ok, Session.ret_bind]
    split
    · exact .refused _
    · split
      · exact .refused _
      · rw [Session.select_bind]
        apply Gated.looks
        · intro seen full
          rw [if_pos (not_lt.mp full)]
          exact .fail _
        · intro seen room
          rw [if_neg (not_le.mpr room)]
          split
          · exact .ended (.fail _)
          · exact insert_adds call _ rfl _ (.ret _)

end Console

/-! ### The limits -/

/-- Both limits hold throughout every run in which a call adds its row only while no
other call of that person is between its count and its own row. -/
theorem limits_hold_apart {ι : Type} [DecidableEq ι] :
    (∀ (sha : String → String) (baseUrl : String) (calls : ι → Benchmarks.LinkCall)
      (tables : Benchmarks.Tables) (schedule : List (Event ι Fault)), Benchmarks.WithinDay tables →
      Transition.Along World.step (Apart (Benchmarks.linkGates calls))
        (Session.start tables (fun _ => false) fun i => (calls i).client sha baseUrl) schedule →
      Transition.Always World.step (fun w => Benchmarks.WithinDay w.rows)
        (Session.start tables (fun _ => false) fun i => (calls i).client sha baseUrl) schedule) ∧
    (∀ (config : Console.Config) (calls : ι → Console.ConnectCall) (accounts : List Console.Account)
      (schedule : List (Event ι Fault)), Console.WithinMax config accounts →
      Transition.Along World.step (Apart (Console.accountGates config calls))
        (Session.start accounts (fun _ => false) fun i => (calls i).client config) schedule →
      Transition.Always World.step (fun w => Console.WithinMax config w.rows)
        (Session.start accounts (fun _ => false) fun i => (calls i).client config) schedule) := by
  refine ⟨fun sha baseUrl calls tables schedule within apart => ?_,
    fun config calls accounts schedule within apart => ?_⟩
  · exact CountGates.always_kept (fun i => Benchmarks.withinDay_adds (calls i)) within
      (fun i => Benchmarks.createLink_gated sha baseUrl (calls i)) schedule apart
  · exact CountGates.always_kept (fun i => Console.withinMax_adds config (calls i)) within
      (fun i => Console.connect_gated config (calls i)) schedule apart

/-- Two calls of one person, one after the other. -/
def inTurn : List (Event (Fin 2) Fault) := [.turn 0, .turn 0, .turn 0, .turn 1, .turn 1, .turn 1]

def linkCall (i : Nat) : Benchmarks.LinkCall :=
  ⟨"usr_1", ⟨none, none, some (.str "Linode"), none⟩, ⟨0, String.ofList (List.replicate i 'a')⟩⟩

def connectCall (i : Nat) : Console.ConnectCall :=
  ⟨"usr_1", ⟨"linode", "0123456789abcdef", "mine"⟩, ⟨.ok "me", String.ofList (List.replicate i 'a'), 0, "v1"⟩⟩

theorem limits_hold_in_turn :
    Transition.Always World.step (fun w => Benchmarks.WithinDay w.rows)
      (Session.start ⟨[], [], [], []⟩ (fun _ => false) fun i : Fin 2 => (linkCall i).client id "") inTurn ∧
    Transition.Always World.step (fun w => Console.WithinMax ⟨true, 1⟩ w.rows)
      (Session.start [] (fun _ => false) fun i : Fin 2 => (connectCall i).client ⟨true, 1⟩) inTurn := by
  refine ⟨limits_hold_apart.1 id "" (fun i : Fin 2 => linkCall i) _ _ (fun _ _ => Nat.zero_le _) ?_,
    limits_hold_apart.2 ⟨true, 1⟩ (fun i : Fin 2 => connectCall i) _ _ (fun _ => Nat.zero_le _) ?_⟩
  · exact Transition.along_mono (fun _ _ => CountGates.Alone.apart) _ (by decide +kernel)
  · exact Transition.along_mono (fun _ _ => CountGates.Alone.apart) _ (by decide +kernel)

/-- Eleven calls of one person, each of which counts before any of them adds. -/
def atOnce : List (Event (Fin 11) Fault) := (List.finRange 11 ++ List.finRange 11).map .turn

/-- Two calls that both count before either adds. -/
def bothCount : List (Event (Fin 2) Fault) := [.turn 0, .turn 1, .turn 0, .turn 1]

/-- Eleven links in a day, and two accounts where one is allowed. -/
theorem limits_exceeded_at_once :
    ¬ Transition.Always World.step (fun w => Benchmarks.WithinDay w.rows)
      (Session.start ⟨[], [], [], []⟩ (fun _ => false) fun i : Fin 11 => (linkCall i).client id "") atOnce ∧
    ¬ Transition.Always World.step (fun w => Console.WithinMax ⟨true, 1⟩ w.rows)
      (Session.start [] (fun _ => false) fun i : Fin 2 => (connectCall i).client ⟨true, 1⟩) bothCount := by
  constructor
  · intro always
    have last := Transition.always_last _ always "usr_1" 0
    revert last
    decide +kernel
  · intro always
    have last := Transition.always_last _ always "usr_1"
    revert last
    decide +kernel

end OpenVibeHost
