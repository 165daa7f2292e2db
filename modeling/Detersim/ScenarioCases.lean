import Detersim.RecallVerdict
import Detersim.ReplayFidelity

/-!
Experiment cases whose two runners play one scenario. The replay of a failing
seed is the failing run over again, so every such case with a failing seed is
recalled.
-/

namespace Detersim.ExperimentCase

open Detersim.Inner

/-- Both runners play the scenario, and the oracle looks at the run only. -/
structure Plays {State Value Plan : Type} (case : ExperimentCase) (program : Program State Value)
    (nextAction : NextAction Plan) (payload : Message → String)
    (scenario : Scenario State Value Plan) (config : WorldConfig) : Prop where
  generate : ∀ seed, case.generate seed =
    scenario.report program nextAction payload (Inner.generate seed config)
  replay : ∀ seed tape, case.replay seed tape =
    scenario.report program nextAction payload (Inner.replay seed tape config)
  oracle : ∀ original replayed, Reproduces original replayed →
    case.oracle replayed = case.oracle original

variable {State Value Plan : Type} {program : Program State Value} {nextAction : NextAction Plan}
  {payload : Message → String} {scenario : Scenario State Value Plan} {config : WorldConfig}
  {case : ExperimentCase}

theorem Plays.reproduces (plays : case.Plays program nextAction payload scenario config)
    (seed : UInt64) :
    Reproduces (case.generate seed) (case.replay seed (case.generate seed).tapeLog) := by
  rw [plays.generate, plays.replay]
  exact Scenario.report_replaying scenario (EntropyTape.aligned_ofSeed _)

theorem Plays.faithful (plays : case.Plays program nextAction payload scenario config)
    {seed : UInt64} {signature : FailureSignature}
    (fails : case.oracle (case.generate seed) = some signature) :
    case.FaithfulReplay seed signature := by
  have again := plays.reproduces seed
  exact ⟨(plays.oracle _ _ again).trans fails, again.trace, again.history, again.nemesisTrace⟩

theorem scanSeeds_silent (case : ExperimentCase) :
    case.scanSeeds.first = none ↔
      ∀ seed < case.budget.seedCount, case.oracle (case.generate seed) = none := by
  rw [scanSeeds, foldl_scanSeed]
  simp [List.findSome?_eq_none_iff, mem_seeds, probe]

/-- The failures counted are the seeds that fail. -/
theorem failuresObserved_eq (case : ExperimentCase) :
    case.scanSeeds.failuresObserved =
      (seeds case.budget.seedCount).countP fun seed => (case.oracle (case.generate seed)).isSome := by
  rw [scanSeeds, foldl_scanSeed, Nat.zero_add]

section Verdict

variable (runReportToJson timelineHtml : RunReport → String)

theorem Plays.recalled (plays : case.Plays program nextAction payload scenario config)
    {seed : UInt64} (attempted : seed < case.budget.seedCount)
    (fails : (case.oracle (case.generate seed)).isSome = true) :
    ∃ report, case.runExperimentCase runReportToJson timelineHtml = .recalled report ∧
      Recall report := by
  cases scanned : case.scanSeeds.first with
  | none =>
      have silent := (scanSeeds_silent case).mp scanned seed attempted
      rw [silent] at fails
      cases fails
  | some found =>
      obtain ⟨first, generated, signature⟩ := found
      obtain ⟨rfl, failure⟩ := (case.scanSeeds_first first generated signature).mp scanned
      have faithful := plays.faithful failure.fails
      have checks := (case.replay_checks_iff case.scanSeeds.failuresObserved first signature).mpr
        faithful
      obtain ⟨last, recalled, promises⟩ := case.shrinkFailure_recalls runReportToJson timelineHtml
        (case.replayedReport case.scanSeeds.failuresObserved first (case.generate first)
          (case.replay first (case.generate first).tapeLog) signature)
        faithful rfl (decide_eq_true faithful.signature) (case.scanSeeds_counts failure)
      refine ⟨last, ?_, promises⟩
      simp only [runExperimentCase, scanned, checks, recalled]
      rfl

theorem silent_notRecalled
    (silent : ∀ seed < case.budget.seedCount, case.oracle (case.generate seed) = none) :
    case.runExperimentCase runReportToJson timelineHtml = .notRecalled (case.silentReport 0) := by
  have first := (scanSeeds_silent case).mpr silent
  have none_ : case.scanSeeds.failuresObserved = 0 := by
    rw [failuresObserved_eq, List.countP_eq_zero]
    intro seed member
    simp [silent seed ((mem_seeds _ _).mp member)]
  simp only [runExperimentCase, first, none_]

/-- Whatever the verdict, the report counts the seeds that fail. -/
theorem report_counts (case : ExperimentCase) :
    (case.runExperimentCase runReportToJson timelineHtml).report.failuresObserved =
      (seeds case.budget.seedCount).countP fun seed => (case.oracle (case.generate seed)).isSome := by
  rw [← failuresObserved_eq, runExperimentCase]
  dsimp only
  split
  · rfl
  · split_ifs
    · rfl
    · unfold shrinkFailure
      dsimp only
      split_ifs <;> rfl

theorem Plays.recalled_iff (plays : case.Plays program nextAction payload scenario config) :
    (∃ report, case.runExperimentCase runReportToJson timelineHtml = .recalled report) ↔
      ∃ seed < case.budget.seedCount, (case.oracle (case.generate seed)).isSome = true := by
  constructor
  · rintro ⟨report, recalled⟩
    by_contra none_
    have silent := silent_notRecalled runReportToJson timelineHtml
      fun seed attempted => by
        by_contra some_
        exact none_ ⟨seed, attempted, Option.isSome_iff_ne_none.mpr some_⟩
    cases silent.symm.trans recalled
  · rintro ⟨seed, attempted, fails⟩
    obtain ⟨report, recalled, _⟩ := plays.recalled runReportToJson timelineHtml attempted fails
    exact ⟨report, recalled⟩

/-- A case is recalled exactly if one of its seeds fails, and it counts those that do. -/
theorem scenario_case_recalled (plays : case.Plays program nextAction payload scenario config) :
    ((∃ report, case.runExperimentCase runReportToJson timelineHtml = .recalled report) ↔
      ∃ seed < case.budget.seedCount, (case.oracle (case.generate seed)).isSome = true) ∧
    (∀ seed < case.budget.seedCount, (case.oracle (case.generate seed)).isSome = true →
      ∃ report, case.runExperimentCase runReportToJson timelineHtml = .recalled report ∧
        Recall report) ∧
    (case.runExperimentCase runReportToJson timelineHtml).report.failuresObserved =
      (seeds case.budget.seedCount).countP fun seed =>
        (case.oracle (case.generate seed)).isSome :=
  ⟨plays.recalled_iff runReportToJson timelineHtml,
    fun _ attempted fails => plays.recalled runReportToJson timelineHtml attempted fails,
    report_counts runReportToJson timelineHtml case⟩

end Verdict

end Detersim.ExperimentCase
