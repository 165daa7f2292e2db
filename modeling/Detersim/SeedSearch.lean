import Detersim.RecallVerdict
import Detersim.RecordedHistory
import Mathlib.Data.List.Find
import Mathlib.Data.List.Sort

/-!
The seed search over one experiment case: the order in which a strategy visits
the seeds, and the loop that runs them. The scores rank what is retained, and
nothing else reads them.
-/

namespace Detersim.SeedSearch

inductive SearchStrategy where
  | random | coverageGuided | failureDirected
  deriving DecidableEq

structure CoverageSignal where
  name : String
  deriving DecidableEq

/-- Signals compare by their names. -/
instance : LinearOrder CoverageSignal :=
  LinearOrder.lift' CoverageSignal.name fun left right same => by
    cases left; cases right; exact congrArg CoverageSignal.mk same

structure SearchBudget where
  seedCount : UInt64 := 100
  retainCandidates : Nat := 32

structure SearchCandidate where
  seed : UInt64
  rank : Nat
  score : Nat
  newCoverage : Nat
  coverage : List CoverageSignal
  failureSignature : Option FailureSignature
  tapeLen : Nat
  deriving DecidableEq

structure SeedCorpus where
  candidates : List SearchCandidate
  uniqueCoverage : List CoverageSignal

structure SearchReport where
  strategy : SearchStrategy
  seedsAttempted : UInt64
  firstFailingSeed : Option UInt64
  firstFailingRank : Option Nat
  failuresObserved : Nat
  corpus : SeedCorpus

def stressScore (seed : UInt64) : UInt64 :=
  let x := seed + 0x9E3779B97F4A7C15
  let x := (x ^^^ (x >>> 30)) * 0xBF58476D1CE4E5B9
  let x := (x ^^^ (x >>> 27)) * 0x94D049BB133111EB
  x ^^^ (x >>> 31)

/-- The order of the pairs of a stress score and its seed. -/
def stressBefore (left right : UInt64) : Prop :=
  stressScore left < stressScore right ∨ stressScore left = stressScore right ∧ left ≤ right

instance : DecidableRel stressBefore := fun _ _ => inferInstanceAs (Decidable (_ ∨ _ ∧ _))

def seedOrder (strategy : SearchStrategy) (seedCount : UInt64) : List UInt64 :=
  let all := ExperimentCase.seeds seedCount
  match strategy with
  | .random => all
  | .coverageGuided => (all.filter fun seed => seed % 2 == 1) ++ all.filter fun seed => seed % 2 == 0
  | .failureDirected => (all.insertionSort stressBefore).reverse

def normalizeHistorySignal (entry : String) : String :=
  match splitChar ':' entry with
  | "kv" :: _ :: op :: _ => "history:kv:" ++ op
  | "log" :: _ :: op :: _ => "history:log:" ++ op
  | "raft-bug" :: rest => "history:raft-bug:" ++ ":".intercalate rest
  | "raft-invariant" :: rest => "history:raft-invariant:" ++ ":".intercalate rest
  | "storage-corruption" :: label :: _ => "history:storage-corruption:" ++ label
  | [single] => "history:" ++ single
  | head :: second :: _ => "history:" ++ (head ++ (":" ++ second))
  | [] => "history:empty"

def coverageFromRun (report : RunReport) : List CoverageSignal :=
  let signals := SortedMap.empty.insertAll (report.coverageSignals.map CoverageSignal.mk)
  let signals := signals.insertAll
    (report.tapeEvents.map fun event => ⟨"tape:" ++ event.label.asStr⟩)
  let signals := signals.insertAll (report.history.map fun entry => ⟨normalizeHistorySignal entry⟩)
  signals.keys

def candidateScore (strategy : SearchStrategy) (newCoverage : Nat)
    (signature : Option FailureSignature) (report : RunReport) : Nat :=
  let failure := signature.isSome.toNat
  let base := match strategy with
    | .random => 0
    | .coverageGuided => newCoverage * 10
    | .failureDirected => failure * 1000 + newCoverage * 10
  base + report.tapeLog.length

/-- The order of `retain_best`: higher scores first, then lower ranks, then lower seeds. -/
def better (left right : SearchCandidate) : Prop :=
  right.score < left.score ∨ right.score = left.score ∧
    (left.rank < right.rank ∨ left.rank = right.rank ∧ left.seed ≤ right.seed)

instance : DecidableRel better := fun _ _ => inferInstanceAs (Decidable (_ ∨ _ ∧ (_ ∨ _ ∧ _)))

def retainBest (candidates : List SearchCandidate) (retain : Nat) : List SearchCandidate :=
  if retain = 0 then [] else (candidates.insertionSort better).take retain

/-- The variables of the loop. -/
structure SearchScan where
  seenCoverage : SortedMap CoverageSignal Unit
  candidates : List SearchCandidate
  firstFailingSeed : Option UInt64
  firstFailingRank : Option Nat
  failuresObserved : Nat

def SearchScan.start : SearchScan := ⟨SortedMap.empty, [], none, none, 0⟩

variable (case : ExperimentCase) (strategy : SearchStrategy)

/-- The candidate pushed for one seed. -/
def candidate (scan : SearchScan) (seed : UInt64) (rank : Nat) : SearchCandidate :=
  let report := case.generate seed
  let signature := case.oracle report
  let coverage := coverageFromRun report
  let newCoverage := (coverage.filter fun signal => !scan.seenCoverage.contains signal).length
  { seed, rank, score := candidateScore strategy newCoverage signature report, newCoverage
    coverage, failureSignature := signature, tapeLen := report.tapeLog.length }

/-- One turn of the loop. -/
def searchSeed (retain : Nat) (scan : SearchScan) (ranked : UInt64 × Nat) : SearchScan :=
  let (seed, rank) := ranked
  let pushed := candidate case strategy scan seed rank
  let fails := pushed.failureSignature.isSome
  let first := fails && scan.firstFailingSeed.isNone
  { seenCoverage := scan.seenCoverage.insertAll pushed.coverage
    candidates := retainBest (scan.candidates ++ [pushed]) retain
    firstFailingSeed := if first then some seed else scan.firstFailingSeed
    firstFailingRank := if first then some rank else scan.firstFailingRank
    failuresObserved := scan.failuresObserved + fails.toNat }

def runSearch (budget : SearchBudget) : SearchReport :=
  let scan := (seedOrder strategy budget.seedCount).zipIdx.foldl
    (searchSeed case strategy budget.retainCandidates) SearchScan.start
  { strategy
    seedsAttempted := budget.seedCount
    firstFailingSeed := scan.firstFailingSeed
    firstFailingRank := scan.firstFailingRank
    failuresObserved := scan.failuresObserved
    corpus := { candidates := scan.candidates, uniqueCoverage := scan.seenCoverage.keys } }

/-- Every candidate the loop pushes, also those it does not retain. -/
def pushedFrom (retain : Nat) (scan : SearchScan) : List (UInt64 × Nat) → List SearchCandidate
  | [] => []
  | ranked :: rest =>
      candidate case strategy scan ranked.1 ranked.2 ::
        pushedFrom retain (searchSeed case strategy retain scan ranked) rest

def attempts (budget : SearchBudget) : List SearchCandidate :=
  pushedFrom case strategy budget.retainCandidates SearchScan.start
    (seedOrder strategy budget.seedCount).zipIdx

/-! Every order visits the same seeds. -/

theorem odd_or_even (seed : UInt64) : (seed % 2 == 0) = !(seed % 2 == 1) := by
  have parity := Nat.mod_two_eq_zero_or_one seed.toNat
  have split : (seed % 2).toNat = seed.toNat % 2 := UInt64.toNat_mod seed 2
  rw [Bool.eq_iff_iff]
  simp only [Bool.not_eq_true', beq_iff_eq, beq_eq_false_iff_ne, ne_eq, ← UInt64.toNat_inj, split]
  show seed.toNat % 2 = 0 ↔ ¬ seed.toNat % 2 = 1
  omega

theorem seedOrder_perm (strategy : SearchStrategy) (seedCount : UInt64) :
    (seedOrder strategy seedCount).Perm (ExperimentCase.seeds seedCount) := by
  cases strategy with
  | random => exact List.Perm.refl _
  | coverageGuided =>
      simp only [seedOrder, odd_or_even]
      exact List.filter_append_perm _ _
  | failureDirected => exact (List.reverse_perm _).trans (List.perm_insertionSort _ _)

theorem pushedFrom_ranked (retain : Nat) (scan : SearchScan) (ranked : List (UInt64 × Nat)) :
    (pushedFrom case strategy retain scan ranked).map (fun pushed => (pushed.seed, pushed.rank)) =
      ranked := by
  induction ranked generalizing scan with
  | nil => rfl
  | cons next rest ih =>
      rw [pushedFrom, List.map_cons, ih]
      rfl

theorem attempts_seeds (budget : SearchBudget) :
    (attempts case strategy budget).map SearchCandidate.seed =
      seedOrder strategy budget.seedCount := by
  have ranked := congrArg (List.map Prod.fst) (pushedFrom_ranked case strategy
    budget.retainCandidates SearchScan.start (seedOrder strategy budget.seedCount).zipIdx)
  rw [List.map_map, List.zipIdx_map_fst] at ranked
  exact ranked

example : seedOrder .coverageGuided 5 = [1, 3, 0, 2, 4] := by decide

/-! What the loop has accumulated does not depend on the order. -/

/-- Whether the oracle sees a failure in the run of a seed. -/
def seedFails (seed : UInt64) : Bool := (case.oracle (case.generate seed)).isSome

theorem foldl_seenCoverage (retain : Nat) (scan : SearchScan) (ranked : List (UInt64 × Nat))
    (signal : CoverageSignal) :
    (ranked.foldl (searchSeed case strategy retain) scan).seenCoverage.contains signal = true ↔
      scan.seenCoverage.contains signal = true ∨
        ∃ seed ∈ ranked.map Prod.fst, signal ∈ coverageFromRun (case.generate seed) := by
  induction ranked generalizing scan with
  | nil => simp
  | cons next rest ih =>
      rw [List.foldl_cons, ih, List.map_cons, List.exists_mem_cons_iff, ← or_assoc]
      exact or_congr_left (SortedMap.contains_insertAll _ _ _)

theorem foldl_failuresObserved (retain : Nat) (scan : SearchScan) (ranked : List (UInt64 × Nat)) :
    (ranked.foldl (searchSeed case strategy retain) scan).failuresObserved =
      scan.failuresObserved + (ranked.map Prod.fst).countP (seedFails case) := by
  induction ranked generalizing scan with
  | nil => rfl
  | cons next rest ih =>
      rw [List.foldl_cons, ih, List.map_cons, List.countP_cons]
      have counted : (searchSeed case strategy retain scan next).failuresObserved =
          scan.failuresObserved + (seedFails case next.1).toNat := rfl
      rw [counted]
      cases seedFails case next.1 with
      | true => simp only [Bool.toNat_true, if_pos]; omega
      | false => simp

theorem foldl_firstFailing (retain : Nat) (scan : SearchScan) (ranked : List (UInt64 × Nat)) :
    (ranked.foldl (searchSeed case strategy retain) scan).firstFailingSeed =
      scan.firstFailingSeed.or ((ranked.map Prod.fst).find? (seedFails case)) := by
  induction ranked generalizing scan with
  | nil => simp
  | cons next rest ih =>
      have step : (searchSeed case strategy retain scan next).firstFailingSeed =
          if seedFails case next.1 && scan.firstFailingSeed.isNone then some next.1
          else scan.firstFailingSeed := rfl
      rw [List.foldl_cons, ih, step, List.map_cons, List.find?_cons]
      cases seedFails case next.1 <;> cases scan.firstFailingSeed <;> simp

/-- What a turn finds new is what the set of signals grows by. -/
theorem foldl_newCoverage (retain : Nat) (scan : SearchScan) (ranked : List (UInt64 × Nat)) :
    (ranked.foldl (searchSeed case strategy retain) scan).seenCoverage.size =
      scan.seenCoverage.size +
        ((pushedFrom case strategy retain scan ranked).map SearchCandidate.newCoverage).sum := by
  induction ranked generalizing scan with
  | nil => rfl
  | cons next rest ih =>
      have grown : (searchSeed case strategy retain scan next).seenCoverage.size =
          scan.seenCoverage.size + (candidate case strategy scan next.1 next.2).newCoverage :=
        SortedMap.size_insertAll _ _ (SortedMap.nodup_keys _)
      rw [List.foldl_cons, ih, grown, pushedFrom, List.map_cons, List.sum_cons, Nat.add_assoc]

/-- With room for every seed, what is retained is what was pushed. -/
theorem foldl_candidates (retain : Nat) (scan : SearchScan) (ranked : List (UInt64 × Nat))
    (room : scan.candidates.length + ranked.length ≤ retain) :
    (ranked.foldl (searchSeed case strategy retain) scan).candidates.Perm
      (scan.candidates ++ pushedFrom case strategy retain scan ranked) := by
  induction ranked generalizing scan with
  | nil => simp [pushedFrom]
  | cons next rest ih =>
      have kept : (searchSeed case strategy retain scan next).candidates.Perm
          (scan.candidates ++ [candidate case strategy scan next.1 next.2]) := by
        have sized : (scan.candidates ++ [candidate case strategy scan next.1 next.2]).length ≤
            retain := by
          simp only [List.length_cons, List.length_append, List.length_nil] at room ⊢
          omega
        simp only [searchSeed, retainBest]
        rw [if_neg (by simp at sized; omega), List.take_of_length_le]
        · exact List.perm_insertionSort _ _
        · rwa [List.length_insertionSort]
      have later := ih (searchSeed case strategy retain scan next) (by
        rw [kept.length_eq]
        simp only [List.length_cons, List.length_append, List.length_nil] at room ⊢
        omega)
      rw [List.foldl_cons, pushedFrom, List.append_cons]
      exact later.trans (kept.append_right _)

/-- With room for all of them, the corpus holds every attempt. -/
theorem retained_attempts (budget : SearchBudget)
    (room : budget.seedCount.toNat ≤ budget.retainCandidates) :
    (runSearch case strategy budget).corpus.candidates.Perm (attempts case strategy budget) := by
  apply foldl_candidates
  rw [List.length_zipIdx, (seedOrder_perm strategy budget.seedCount).length_eq]
  simpa [SearchScan.start, ExperimentCase.seeds] using room

theorem mem_pushedFrom (retain : Nat) (scan : SearchScan) (ranked : List (UInt64 × Nat))
    (pushed : SearchCandidate) (member : pushed ∈ pushedFrom case strategy retain scan ranked) :
    pushed.coverage = coverageFromRun (case.generate pushed.seed) ∧
      pushed.failureSignature = case.oracle (case.generate pushed.seed) := by
  induction ranked generalizing scan with
  | nil => exact absurd member List.not_mem_nil
  | cons next rest ih =>
      rcases List.mem_cons.mp member with rfl | later
      · exact ⟨rfl, rfl⟩
      · exact ih _ later

/-- The attempts of a search tell the whole of its report: each seed is run once,
and what is counted, found first, covered and retained is theirs. -/
structure Attempted (budget : SearchBudget) : Prop where
  once : ((attempts case strategy budget).map SearchCandidate.seed).Nodup
  all : ∀ seed, seed ∈ (attempts case strategy budget).map SearchCandidate.seed ↔
    seed < budget.seedCount
  number : (attempts case strategy budget).length =
    (runSearch case strategy budget).seedsAttempted.toNat
  runs : ∀ pushed ∈ attempts case strategy budget,
    pushed.coverage = coverageFromRun (case.generate pushed.seed) ∧
      pushed.failureSignature = case.oracle (case.generate pushed.seed)
  failures : (runSearch case strategy budget).failuresObserved =
    (attempts case strategy budget).countP fun pushed => pushed.failureSignature.isSome
  first : (runSearch case strategy budget).firstFailingSeed =
    ((attempts case strategy budget).find? fun pushed => pushed.failureSignature.isSome).map
      SearchCandidate.seed
  covered : ∀ signal, signal ∈ (runSearch case strategy budget).corpus.uniqueCoverage ↔
    ∃ pushed ∈ attempts case strategy budget, signal ∈ pushed.coverage
  news : ((attempts case strategy budget).map SearchCandidate.newCoverage).sum =
    (runSearch case strategy budget).corpus.uniqueCoverage.length
  retained : budget.seedCount.toNat ≤ budget.retainCandidates →
    (runSearch case strategy budget).corpus.candidates.Perm (attempts case strategy budget)

/-- What the loop asks of a seed it asks of the attempt at it. -/
theorem attempts_fail (budget : SearchBudget) (pushed : SearchCandidate)
    (member : pushed ∈ attempts case strategy budget) :
    seedFails case pushed.seed = pushed.failureSignature.isSome := by
  rw [seedFails, (mem_pushedFrom case strategy _ _ _ pushed member).2]

theorem search_attempted (budget : SearchBudget) : Attempted case strategy budget := by
  have visited := seedOrder_perm strategy budget.seedCount
  have seeds := attempts_seeds case strategy budget
  have fails := attempts_fail case strategy budget
  constructor
  case once =>
    rw [seeds]
    apply visited.nodup_iff.mpr
    exact (ExperimentCase.pairwise_seeds _).imp fun below => UInt64.ne_of_lt below
  case all =>
    intro seed
    rw [seeds, visited.mem_iff, ExperimentCase.mem_seeds]
  case number =>
    have sized := congrArg List.length seeds
    rw [List.length_map, visited.length_eq] at sized
    simpa [ExperimentCase.seeds, runSearch] using sized
  case runs => exact mem_pushedFrom case strategy _ _ _
  case failures =>
    simp only [runSearch]
    rw [foldl_failuresObserved, List.zipIdx_map_fst, ← seeds, List.countP_map]
    exact (Nat.zero_add _).trans (List.countP_congr fun pushed member => by
      rw [Function.comp_apply, fails pushed member])
  case first =>
    simp only [runSearch]
    rw [foldl_firstFailing, List.zipIdx_map_fst, ← seeds, List.find?_map]
    simp only [SearchScan.start, Option.none_or]
    refine congrArg (Option.map SearchCandidate.seed) (List.find?_congr ?_)
    exact fun pushed member => fails pushed member
  case covered =>
    intro signal
    simp only [runSearch]
    rw [SortedMap.mem_keys, foldl_seenCoverage, List.zipIdx_map_fst, ← seeds]
    have start : SearchScan.start.seenCoverage.contains signal = false := rfl
    rw [start, Bool.false_eq_true, false_or]
    simp only [List.mem_map, exists_exists_and_eq_and]
    refine exists_congr fun pushed => and_congr_right fun member => ?_
    rw [(mem_pushedFrom case strategy _ _ _ pushed member).1]
  case news =>
    have grown := foldl_newCoverage case strategy budget.retainCandidates SearchScan.start
      (seedOrder strategy budget.seedCount).zipIdx
    rw [show SearchScan.start.seenCoverage.size = 0 from rfl, Nat.zero_add] at grown
    exact grown.symm.trans (List.length_map _).symm
  case retained => exact retained_attempts case strategy budget

/-- A strategy only chooses the order of the runs. -/
theorem strategies_reorder (case : ExperimentCase) (budget : SearchBudget) :
    (∀ strategy, Attempted case strategy budget) ∧
    ∀ left right,
      (runSearch case left budget).failuresObserved =
        (runSearch case right budget).failuresObserved ∧
      (runSearch case left budget).firstFailingSeed.isSome =
        (runSearch case right budget).firstFailingSeed.isSome ∧
      (runSearch case left budget).corpus.uniqueCoverage =
        (runSearch case right budget).corpus.uniqueCoverage := by
  refine ⟨fun strategy => search_attempted case strategy budget, ?_⟩
  intro left right
  have visited := (seedOrder_perm left budget.seedCount).trans
    (seedOrder_perm right budget.seedCount).symm
  refine ⟨?_, ?_, ?_⟩
  · simp only [runSearch]
    rw [foldl_failuresObserved, foldl_failuresObserved, List.zipIdx_map_fst, List.zipIdx_map_fst,
      visited.countP_eq]
  · simp only [runSearch]
    rw [foldl_firstFailing, foldl_firstFailing, List.zipIdx_map_fst, List.zipIdx_map_fst]
    simp only [SearchScan.start, Option.none_or, List.isSome_find?]
    exact visited.any_eq
  · simp only [runSearch]
    congr 1
    apply SortedMap.contains_ext
    intro signal
    rw [foldl_seenCoverage, foldl_seenCoverage, List.zipIdx_map_fst, List.zipIdx_map_fst]
    simp only [visited.mem_iff]

end Detersim.SeedSearch
