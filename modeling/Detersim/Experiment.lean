import Detersim.Report
import Detersim.Shrink

/-!
One experiment case: the scan over its seeds, the replay of the first failure,
and its shrinking. The renderers of the artifacts are parameters, since only the
sizes of what they return are recorded. The rates of the report are floats, and
are left out.
-/

namespace Detersim

inductive FailureSignature where
  | invariantViolated (reason : String)
  | notLinearizable (conflict : Option (UInt64 × UInt64)) (model : String)
  | deadlock
  | panic (reason : String)
  | storageCorruption (reason : String)
  deriving DecidableEq

structure ExperimentBudget where
  seedCount : UInt64 := 100
  shrink : ShrinkConfig := {}

structure ExperimentCase where
  name : String
  budget : ExperimentBudget
  generate : UInt64 → RunReport
  replay : UInt64 → List UInt64 → RunReport
  oracle : RunReport → Option FailureSignature

structure ExperimentReport where
  name : String
  seedsAttempted : UInt64
  firstFailingSeed : Option UInt64
  failuresObserved : Nat
  recalled : Bool
  failureSignature : Option FailureSignature
  originalTapeLen : Option Nat
  minimizedTapeLen : Option Nat
  shrinkAttempts : Option Nat
  acceptedRemovals : Option Nat
  removedLabels : List RemovedLabel
  artifactJsonBytes : Option Nat
  artifactHtmlBytes : Option Nat
  replayTapeInputLen : Option Nat
  replayTapeCursor : Option Nat
  replayTapeConsumedAll : Option Bool
  replayTapeExhausted : Option Bool
  replayTraceIdentical : Bool
  replayHistoryIdentical : Bool
  replayNemesisIdentical : Bool
  replayByteIdentical : Bool
  replayMatchedSignature : Bool
  minimizedMatchedSignature : Bool
  deriving DecidableEq

inductive RecallResult where
  | recalled (report : ExperimentReport)
  | notRecalled (report : ExperimentReport)
  deriving DecidableEq

def RecallResult.report : RecallResult → ExperimentReport
  | .recalled report | .notRecalled report => report

namespace ExperimentCase

/-- The seeds of `0..count`. -/
def seeds (count : UInt64) : List UInt64 := (List.range count.toNat).map UInt64.ofNat

/-- The variables of the loop over the seeds. -/
structure SeedScan where
  first : Option (UInt64 × RunReport × FailureSignature)
  failuresObserved : Nat

def scanSeed (case : ExperimentCase) (scan : SeedScan) (seed : UInt64) : SeedScan :=
  let report := case.generate seed
  match case.oracle report with
  | none => scan
  | some signature =>
      { first := if scan.first.isNone then some (seed, report, signature) else scan.first
        failuresObserved := scan.failuresObserved + 1 }

def scanSeeds (case : ExperimentCase) : SeedScan :=
  (seeds case.budget.seedCount).foldl case.scanSeed ⟨none, 0⟩

/-- The report of a case none of whose seeds fails. -/
def silentReport (case : ExperimentCase) (failuresObserved : Nat) : ExperimentReport where
  name := case.name
  seedsAttempted := case.budget.seedCount
  firstFailingSeed := none
  failuresObserved
  recalled := false
  failureSignature := none
  originalTapeLen := none
  minimizedTapeLen := none
  shrinkAttempts := none
  acceptedRemovals := none
  removedLabels := []
  artifactJsonBytes := none
  artifactHtmlBytes := none
  replayTapeInputLen := none
  replayTapeCursor := none
  replayTapeConsumedAll := none
  replayTapeExhausted := none
  replayTraceIdentical := false
  replayHistoryIdentical := false
  replayNemesisIdentical := false
  replayByteIdentical := false
  replayMatchedSignature := false
  minimizedMatchedSignature := false

/-- The report as it stands once the first failure was replayed. -/
def replayedReport (case : ExperimentCase) (failuresObserved : Nat) (seed : UInt64)
    (generated replayed : RunReport) (signature : FailureSignature) : ExperimentReport where
  name := case.name
  seedsAttempted := case.budget.seedCount
  firstFailingSeed := some seed
  failuresObserved
  recalled := false
  failureSignature := some signature
  originalTapeLen := some generated.tapeLog.length
  minimizedTapeLen := none
  shrinkAttempts := none
  acceptedRemovals := none
  removedLabels := []
  artifactJsonBytes := none
  artifactHtmlBytes := none
  replayTapeInputLen := replayed.tapeInputLen
  replayTapeCursor := some replayed.tapeCursor
  replayTapeConsumedAll := some replayed.tapeConsumedAll
  replayTapeExhausted := some replayed.tapeExhausted
  replayTraceIdentical := decide (generated.trace = replayed.trace)
  replayHistoryIdentical := decide (generated.history = replayed.history)
  replayNemesisIdentical := decide (generated.nemesisTrace = replayed.nemesisTrace)
  replayByteIdentical :=
    decide ("\n".intercalate generated.trace = "\n".intercalate replayed.trace)
  replayMatchedSignature := decide (case.oracle replayed = some signature)
  minimizedMatchedSignature := false

/-- The predicate given to the shrinker; its calls are counted. -/
def reproduces (case : ExperimentCase) (seed : UInt64) (signature : FailureSignature)
    (candidate : List UInt64) : Bool :=
  decide (case.oracle (case.replay seed candidate) = some signature)

variable (runReportToJson timelineHtml : RunReport → String)

/-- The last part of a case, after a replay that agreed with the generated run. -/
def shrinkFailure (case : ExperimentCase) (seed : UInt64) (generated : RunReport)
    (signature : FailureSignature) (report : ExperimentReport) : RecallResult :=
  let labels := generated.tapeEvents.map (·.label.asStr)
  let (shrink, _) := shrinkTapeLabelAwareWithConfig (counted (case.reproduces seed signature))
    generated.tapeLog labels case.budget.shrink 0
  let minimized := case.replay seed shrink.shrink.minimized
  let minimizedMatchedSignature := decide (case.oracle minimized = some signature)
  let report := { report with
    minimizedTapeLen := some shrink.shrink.minimized.length
    shrinkAttempts := some shrink.shrink.attempts
    acceptedRemovals := some shrink.shrink.acceptedRemovals
    removedLabels := shrink.removedLabels
    artifactJsonBytes := some (runReportToJson minimized).utf8ByteSize
    artifactHtmlBytes := some (timelineHtml minimized).utf8ByteSize
    minimizedMatchedSignature
    recalled := minimizedMatchedSignature }
  if minimizedMatchedSignature then .recalled report else .notRecalled report

def runExperimentCase (case : ExperimentCase) : RecallResult :=
  let scan := case.scanSeeds
  match scan.first with
  | none => .notRecalled (case.silentReport scan.failuresObserved)
  | some (seed, generated, signature) =>
      let replayed := case.replay seed generated.tapeLog
      let report := case.replayedReport scan.failuresObserved seed generated replayed signature
      if !report.replayMatchedSignature || !report.replayTraceIdentical ||
          !report.replayHistoryIdentical || !report.replayNemesisIdentical ||
          !report.replayByteIdentical then
        .notRecalled report
      else case.shrinkFailure runReportToJson timelineHtml seed generated signature report

end ExperimentCase

end Detersim
