import OpenVibeHost.Dates
import OpenVibeHost.Newest
import Mathlib.Data.String.Basic

/-! Backup retention, `lib/retention.js`: which dated backups to keep. A stamp
is a text YYYYMMDD-HHMMSS in UTC; stamps sort as texts. -/
namespace OpenVibeHost.Retention
open Newest Dates

/-- What the groups of `STAMP_RE` hold. Any digits match, so a month may be 73. -/
def stampRe (text : String) : Option Fields :=
  match text.toList with
  | [y₁, y₂, y₃, y₄, m₁, m₂, d₁, d₂, '-', h₁, h₂, i₁, i₂, s₁, s₂] => do
    let year ← digits [y₁, y₂, y₃, y₄]
    let month ← digits [m₁, m₂]
    let day ← digits [d₁, d₂]
    let hour ← digits [h₁, h₂]
    let minute ← digits [i₁, i₂]
    let second ← digits [s₁, s₂]
    return { year, month, day, hour, minute, second }
  | _ => none

/-- `text.padStart(width, '0')`. -/
def padStart (width : Nat) (text : String) : String :=
  String.ofList (List.replicate (width - text.length) '0' ++ text.toList)

/-- The time of a stamp. A four-digit year never leaves the range of a `Date`. -/
def parseStamp (text : String) : Option Int := (stampRe text).map utc

/-- `Date.UTC` of a year, a month from 0 and a date, in days: a year below 100 is in the twentieth century. -/
def utcDay (year month date : Int) : Int :=
  makeDay (if 0 ≤ year ∧ year ≤ 99 then 1900 + year else year) month date

/-- The Thursday of the week that a day lies in: the week is Monday's to Sunday's. -/
def thursday (day : Int) : Int :=
  let weekday := (day + 3) % 7
  let year := yearFromDay day
  let month := monthOf (inLeapYear year) (day - dayFromYear year)
  let date := day - dayFromYear year - monthStart (inLeapYear year) month + 1
  utcDay year month (date - weekday + 3)

/-- ISO-8601 week key, e.g. "2026-W39". The ISO week is the one holding that week's Thursday, numbered by the
Thursday's day of year. -/
def isoWeek (ms : Int) : String :=
  let thursday := thursday (ms / 86400000)
  let year := yearFromDay thursday
  let week := (thursday - utcDay year 0 1) / 7 + 1
  toString year ++ "-W" ++ padStart 2 (toString week)

/-! ### What is kept -/

/-- `s.slice(0, 8)`. -/
def dayOf (stamp : String) : String := String.ofList (stamp.toList.take 8)

def weekOf (stamp : String) : String := isoWeek ((parseStamp stamp).getD 0)

structure Kept where
  kept : List String := []
  days : List String := []
  weeks : List String := []

/-- One turn of the loop over the stamps, newest first. -/
def keepOne (daily weekly : Nat) (seen : Kept) (stamp : String) : Kept :=
  let day := dayOf stamp
  let week := weekOf stamp
  let byDay := day ∉ seen.days ∧ seen.days.length < daily
  let byWeek := week ∉ seen.weeks ∧ seen.weeks.length < weekly
  { kept := if byDay ∨ byWeek then stamp :: seen.kept else seen.kept
    days := if byDay then day :: seen.days else seen.days
    weeks := if byWeek then week :: seen.weeks else seen.weeks }

def sorted (stamps : List String) : List String :=
  ((stamps.dedup.filter fun s => (parseStamp s).isSome).insertionSort (· ≤ ·)).reverse

def keep (stamps : List String) (daily : Nat := 7) (weekly : Nat := 4) : List String :=
  ((sorted stamps).foldl (keepOne daily weekly) {}).kept

/-! ### The policy -/

/-- The stamps of a list that `keep` looks at. -/
def valid (stamps : List String) : Finset String :=
  (stamps.filter fun s => (parseStamp s).isSome).toFinset

/-- The newest of each of the last `daily` days, and of each of the last `weekly`
weeks, that have a backup. -/
def Retained (daily weekly : Nat) (stamps : Finset String) (stamp : String) : Prop :=
  Latest dayOf daily stamps stamp ∨ Latest weekOf weekly stamps stamp

theorem sorted_toFinset (stamps : List String) : (sorted stamps).toFinset = valid stamps := by
  ext s
  simp [sorted, valid]

theorem sorted_pairwise (stamps : List String) : (sorted stamps).Pairwise (· > ·) := by
  unfold sorted
  rw [List.pairwise_reverse]
  have ordered := List.pairwise_insertionSort (· ≤ ·)
    (stamps.dedup.filter fun s => (parseStamp s).isSome)
  have once := (List.perm_insertionSort (· ≤ ·) _).nodup_iff.mpr
    (stamps.nodup_dedup.filter fun s => (parseStamp s).isSome)
  exact (ordered.and once).imp fun ⟨le, ne⟩ => lt_of_le_of_ne le ne

/-- What the loop has kept of the stamps it has seen. -/
structure Scanned (daily weekly : Nat) (seen : List String) (state : Kept) : Prop where
  days : Taken dayOf daily seen state.days
  weeks : Taken weekOf weekly seen state.weeks
  kept : ∀ s, s ∈ state.kept ↔ ∃ before after, seen = before ++ s :: after ∧
    ((dayOf s ∉ before.toFinset.image dayOf ∧ (before.toFinset.image dayOf).card < daily) ∨
      (weekOf s ∉ before.toFinset.image weekOf ∧ (before.toFinset.image weekOf).card < weekly))

theorem Scanned.keepOne {daily weekly : Nat} {seen : List String} {state : Kept}
    (scanned : Scanned daily weekly seen state) (stamp : String) :
    Scanned daily weekly (seen ++ [stamp]) (Retention.keepOne daily weekly state stamp) := by
  refine ⟨scanned.days.snoc stamp, ?_, fun s => ?_⟩
  · have taken := scanned.weeks.snoc stamp
    simp only [Retention.keepOne]
    convert taken
  have takes := or_congr (scanned.days.takes_iff stamp) (scanned.weeks.takes_iff stamp)
  have now : s ∈ (Retention.keepOne daily weekly state stamp).kept ↔ s ∈ state.kept ∨ s = stamp ∧
      ((dayOf s ∉ seen.toFinset.image dayOf ∧ (seen.toFinset.image dayOf).card < daily) ∨
        (weekOf s ∉ seen.toFinset.image weekOf ∧ (seen.toFinset.image weekOf).card < weekly)) := by
    simp only [Retention.keepOne, takes]
    split
    · rename_i fits
      rw [List.mem_cons, or_comm]
      exact or_congr_right ⟨fun same => ⟨same, same ▸ fits⟩, And.left⟩
    · rename_i misses
      exact ⟨.inl, fun there => there.resolve_right fun ⟨same, fits⟩ => misses (same ▸ fits)⟩
  rw [now, scanned.kept s]
  constructor
  · rintro (⟨before, after, rfl, fits⟩ | ⟨rfl, fits⟩)
    · exact ⟨before, after ++ [stamp], by simp, fits⟩
    · exact ⟨seen, [], rfl, fits⟩
  · rintro ⟨before, after, split, fits⟩
    rcases List.eq_nil_or_concat after with rfl | ⟨rest, last, rfl⟩
    · obtain ⟨rfl, same⟩ := List.append_inj' split rfl
      obtain rfl := (List.cons.inj same).1
      exact .inr ⟨rfl, fits⟩
    · have whole : seen ++ [stamp] = (before ++ s :: rest) ++ [last] := by simp [split]
      exact .inl ⟨before, rest, (List.append_inj' whole rfl).1, fits⟩

theorem scanned_foldl (daily weekly : Nat) (stamps : List String) {seen : List String}
    {state : Kept} (scanned : Scanned daily weekly seen state) :
    Scanned daily weekly (seen ++ stamps)
      (stamps.foldl (keepOne daily weekly) state) := by
  induction stamps generalizing seen state with
  | nil => simpa using scanned
  | cons stamp rest ih => simpa using ih (scanned.keepOne stamp)

/-- `keep` is the policy: it keeps exactly the retained stamps. -/
theorem mem_keep (stamps : List String) (daily weekly : Nat) (stamp : String) :
    stamp ∈ keep stamps daily weekly ↔ Retained daily weekly (valid stamps) stamp := by
  have start : Scanned daily weekly [] {} :=
    ⟨taken_nil, taken_nil, fun s => by simp⟩
  have scanned := scanned_foldl daily weekly (sorted stamps) start
  rw [List.nil_append] at scanned
  rw [keep, scanned.kept, Retained, Latest, Latest, ← sorted_toFinset]
  constructor
  · rintro ⟨before, after, split, fits⟩
    have above := newer_of_split (split ▸ sorted_pairwise stamps)
    rw [split, above]
    have member : stamp ∈ (before ++ stamp :: after).toFinset := by simp
    exact fits.imp (fun day => ⟨member, day⟩) (fun week => ⟨member, week⟩)
  · intro fits
    have member : stamp ∈ sorted stamps :=
      List.mem_toFinset.mp (fits.elim (·.1) (·.1))
    obtain ⟨before, after, split⟩ := List.append_of_mem member
    have above := newer_of_split (split ▸ sorted_pairwise stamps)
    rw [split, above] at fits
    exact ⟨before, after, split, fits.imp (·.2) (·.2)⟩

theorem keep_subset (stamps : List String) (daily weekly : Nat) :
    ∀ stamp ∈ keep stamps daily weekly, stamp ∈ valid stamps := by
  intro stamp kept
  exact ((mem_keep stamps daily weekly stamp).mp kept).elim (·.1) (·.1)

/-- Pruning as backups are added keeps what one pruning at the end would. -/
theorem retained_thinned_union_iff {daily weekly : Nat} {k s t : Finset String} (part : k ⊆ s)
    (holds : ∀ stamp, Retained daily weekly s stamp → stamp ∈ k) {stamp : String}
    (member : stamp ∈ k ∪ t) :
    Retained daily weekly (k ∪ t) stamp ↔ Retained daily weekly (s ∪ t) stamp :=
  or_congr (latest_thinned_union_iff part (fun y latest => holds y (.inl latest)) member)
    (latest_thinned_union_iff part (fun y latest => holds y (.inr latest)) member)

end OpenVibeHost.Retention
