import OpenVibeHost.DeployFrames

/-! What a plan that was computed says: which of its parts were answered by which of the
functions it calls, one after the other, and how the rest follows from them. -/
namespace OpenVibeHost
open Effects Program

variable {σ α : Type} {env : Environment Machine}

/-- `p` ran between two worlds and answered `a`. -/
def Answered (env : Environment Machine) (first last : World Machine σ) (p : Ovhost σ α) (a : α) :
    Prop :=
  ∃ w w', p.run env w = (.ok a, w') ∧ first.trace <+: w.trace ∧ w'.trace <+: last.trace

theorem ran_onward {p : Ovhost σ α} {w w' : World Machine σ} {result : Except Failure α}
    (ran : p.run env w = (result, w')) : w.trace <+: w'.trace := by
  have onward := (p.onward env w).2
  rwa [ran] at onward

theorem Answered.earlier {first first' last last' : World Machine σ} {p : Ovhost σ α} {a : α}
    (answered : Answered env first last p a) (before : first'.trace <+: first.trace)
    (after : last.trace <+: last'.trace) : Answered env first' last' p a := by
  obtain ⟨w, w', ran, starts, ends⟩ := answered
  exact ⟨w, w', ran, before.trans starts, ends.trans after⟩

namespace ReleaseOps

/-- What an in-place plan says. -/
structure Planned (env : Environment Machine) (first last : World Machine Unit) (svc : Service)
    (mode : Mode) (opts : Options) (plan : Plan) : Prop where
  head : Answered env first last (Git.getHead svc.checkout) plan.fromSha
  target : Answered env first last (planTarget svc svc.checkout mode opts) plan.toSha
  extra : Answered env first last (findExtraUnits svc) plan.extraUnits
  upToDate : plan.upToDate = decide (plan.fromSha = plan.toSha)
  units : plan.units = svc.units ++ plan.extraUnits
  auxRestart : plan.auxRestart = auxiliaryFor svc mode plan.changed (·.restartOn)
  restartNeeded : plan.restartNeeded = (decide (plan.units ≠ []) && (opts.restart ||
    decide ((plan.changed.filter fun f => !matchesPath f svc.noRestartPaths) ≠ [])))
  backupNeeded : plan.backupNeeded = (decide (svc.databases ≠ []) &&
    plan.changed.any (svc.backupOnChange.contains ·))

/-- The auxiliary units that a plan restarts are declared. -/
theorem Planned.auxiliary {first last : World Machine Unit} {svc : Service} {mode : Mode} {opts : Options}
    {plan : Plan} (planned : Planned env first last svc mode opts plan) :
    ∀ unit ∈ plan.auxRestart, ∃ a ∈ svc.auxiliaryUnits, a.unit = unit := by
  intro unit member
  rw [planned.auxRestart] at member
  cases mode with
  | rollback => exact nomatch member
  | deploy =>
    obtain ⟨a, kept, named⟩ := List.mem_map.mp member
    exact ⟨a, (List.mem_filter.mp kept).1, named⟩

theorem computePlan_planned {svc : Service} {mode : Mode} {opts : Options} {plan : Plan}
    {w w' : World Machine Unit} (ran : Program.run (computePlan svc mode opts) env w = (.ok plan, w')) :
    Planned env w w' svc mode opts plan := by
  unfold computePlan at ran
  dsimp only at ran
  split at ran
  · simp at ran
  · obtain ⟨fromSha, w1, head, ran⟩ := run_bind_ok.mp ran
    obtain ⟨tracked, w2, trackedRan, ran⟩ := run_bind_ok.mp ran
    obtain ⟨dirtyAll, w3, dirtyRan, ran⟩ := run_bind_ok.mp ran
    obtain ⟨toSha, w4, target, ran⟩ := run_bind_ok.mp ran
    obtain ⟨changed, w5, changedRan, ran⟩ := run_bind_ok.mp ran
    obtain ⟨commits, w6, commitsRan, ran⟩ := run_bind_ok.mp ran
    obtain ⟨skipped, w7, skippedRan, ran⟩ := run_bind_ok.mp ran
    obtain ⟨untracked, w8, untrackedRan, ran⟩ := run_bind_ok.mp ran
    obtain ⟨pkgDirs, w9, pkgDirsRan, ran⟩ := run_bind_ok.mp ran
    obtain ⟨added, w10, addedRan, ran⟩ := run_bind_ok.mp ran
    obtain ⟨lockfiles, w11, lockfilesRan, ran⟩ := run_bind_ok.mp ran
    obtain ⟨output, w12, outputRan, ran⟩ := run_bind_ok.mp ran
    obtain ⟨installs, w13, installsRan, ran⟩ := run_bind_ok.mp ran
    obtain ⟨extraUnits, w14, extra, ran⟩ := run_bind_ok.mp ran
    obtain ⟨drift, w15, driftRan, ran⟩ := run_bind_ok.mp ran
    obtain ⟨sessions, w16, sessionsRan, ran⟩ := run_bind_ok.mp ran
    obtain ⟨removed, w17, removedRan, ran⟩ := run_bind_ok.mp ran
    simp only [pure_eq, run_ret, Prod.mk.injEq, Except.ok.injEq] at ran
    obtain ⟨rfl, rfl⟩ := ran
    have to4 := ((ran_onward head).trans (ran_onward trackedRan)).trans (ran_onward dirtyRan)
    have to14 := ((((((((((ran_onward changedRan).trans (ran_onward commitsRan)).trans
      (ran_onward skippedRan)).trans (ran_onward untrackedRan)).trans (ran_onward pkgDirsRan)).trans
      (ran_onward addedRan)).trans (ran_onward lockfilesRan)).trans (ran_onward outputRan)).trans
      (ran_onward installsRan)))
    have end14 := ((ran_onward driftRan).trans (ran_onward sessionsRan)).trans (ran_onward removedRan)
    have end4 := (to14.trans (ran_onward extra)).trans end14
    exact {
      head := ⟨w, w1, head, List.prefix_rfl, (((ran_onward trackedRan).trans
        (ran_onward dirtyRan)).trans (ran_onward target)).trans end4⟩
      target := ⟨w3, w4, target, to4, end4⟩
      extra := ⟨w13, w14, extra, (to4.trans (ran_onward target)).trans to14, end14⟩
      upToDate := rfl
      units := rfl
      auxRestart := rfl
      restartNeeded := rfl
      backupNeeded := rfl }

end ReleaseOps

namespace ReleaseLayout

/-- What the plan of a release-layout run says. -/
structure Planned (env : Environment Machine) (first last : World Machine Unit) (inv : Inventory)
    (svc : Service) (rel : ReleaseConfig) (mode : Mode) (opts : Options) (plan : LayoutPlan)
    (cur : Current) : Prop where
  current : Answered env first last (currentRelease svc rel) (.ok cur)
  target : Answered env first last (planRelease inv svc rel cur mode opts)
    (plan.toSha, plan.targetDir, plan.toRelease, plan.reuse)
  fromSha : cur.sha = some plan.fromSha
  fromRelease : plan.fromRelease = cur.id
  currentDir : plan.currentDir = cur.dir
  unchanged : mode = .deploy → plan.upToDate = decide (plan.toSha = plan.fromSha)
  already : mode = .rollback → plan.upToDate = decide (plan.toRelease = cur.id)
  units : plan.restartNeeded = true → svc.units ≠ []
  backupNeeded : plan.backupNeeded = (decide (svc.databases ≠ []) &&
    plan.changed.any (svc.backupOnChange.contains ·))

theorem computePlan_planned {inv : Inventory} {svc : Service} {rel : ReleaseConfig} {mode : Mode}
    {opts : Options} {plan : LayoutPlan} {w w' : World Machine Unit}
    (ran : Program.run (computePlan inv svc rel mode opts) env w = (.ok plan, w')) :
    ∃ cur, Planned env w w' inv svc rel mode opts plan cur := by
  unfold computePlan at ran
  dsimp only at ran
  split at ran
  · simp at ran
  · obtain ⟨current, w1, currentRan, ran⟩ := run_bind_ok.mp ran
    split at ran
    · simp at ran
    · rename_i cur
      split at ran
      · simp at ran
      · simp at ran
      · rename_i fromSha _ known
        obtain ⟨git, w2, gitRan, ran⟩ := run_bind_ok.mp ran
        split at ran
        · simp at ran
        · obtain ⟨⟨toSha, targetDir, toRelease, reuse⟩, w3, target, ran⟩ := run_bind_ok.mp ran
          dsimp only at ran
          obtain ⟨changed, w4, changedRan, ran⟩ := run_bind_ok.mp ran
          obtain ⟨commits, w5, commitsRan, ran⟩ := run_bind_ok.mp ran
          obtain ⟨drift, w6, driftRan, ran⟩ := run_bind_ok.mp ran
          obtain ⟨installs, w7, installsRan, ran⟩ := run_bind_ok.mp ran
          obtain ⟨sessions, w8, sessionsRan, ran⟩ := run_bind_ok.mp ran
          obtain ⟨socket, w9, socketRan, ran⟩ := run_bind_ok.mp ran
          simp only [pure_eq, run_ret, Prod.mk.injEq, Except.ok.injEq] at ran
          obtain ⟨rfl, rfl⟩ := ran
          have end3 := (((((ran_onward changedRan).trans (ran_onward commitsRan)).trans
            (ran_onward driftRan)).trans (ran_onward installsRan)).trans
            (ran_onward sessionsRan)).trans (ran_onward socketRan)
          refine ⟨cur, {
            current := ⟨w, w1, currentRan, List.prefix_rfl,
              ((ran_onward gitRan).trans (ran_onward target)).trans end3⟩
            target := ⟨w2, w3, target, (ran_onward currentRan).trans (ran_onward gitRan), end3⟩
            fromSha := known
            fromRelease := rfl
            currentDir := rfl
            unchanged := by rintro rfl; rfl
            already := by rintro rfl; rfl
            units := fun needed => of_decide_eq_true (Bool.and_eq_true_iff.mp needed).1
            backupNeeded := rfl }⟩

end ReleaseLayout

end OpenVibeHost
