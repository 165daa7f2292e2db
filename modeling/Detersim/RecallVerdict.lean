import Detersim.Experiment
import Detersim.ShrinkSoundness

/-!
When a case is recalled. Shrinking keeps the signature of a failure that its
replay shows, so the verdict is settled before it starts.
-/

namespace Detersim.ExperimentCase

/-! Seeds. -/

theorem pairwise_seeds (count : UInt64) : (seeds count).Pairwise (· < ·) := by
  refine List.pairwise_map.mpr (List.pairwise_lt_range.imp_of_mem ?_)
  intro left right leftBound rightBound below
  have bound := count.toNat_lt
  rw [UInt64.lt_iff_toNat_lt, UInt64.toNat_ofNat_of_lt', UInt64.toNat_ofNat_of_lt']
  · exact below
  · exact (List.mem_range.mp rightBound).trans bound
  · exact (List.mem_range.mp leftBound).trans bound

theorem mem_seeds (count seed : UInt64) : seed ∈ seeds count ↔ seed < count := by
  constructor
  · intro member
    obtain ⟨index, inside, rfl⟩ := List.mem_map.mp member
    have below := List.mem_range.mp inside
    rw [UInt64.lt_iff_toNat_lt, UInt64.toNat_ofNat_of_lt' (below.trans count.toNat_lt)]
    exact below
  · intro below
    exact List.mem_map.mpr ⟨seed.toNat, List.mem_range.mpr below, UInt64.ofNat_toNat⟩

/-- The first hit in an increasing list is the least one. -/
theorem findSome?_increasing {Found : Type} {items : List UInt64}
    (increasing : items.Pairwise (· < ·)) (probe : UInt64 → Option Found) (found : Found) :
    items.findSome? probe = some found ↔
      ∃ item ∈ items, probe item = some found ∧ ∀ earlier ∈ items, earlier < item →
        probe earlier = none := by
  induction items with
  | nil => simp
  | cons item rest ih =>
      obtain ⟨least, increasing⟩ := List.pairwise_cons.mp increasing
      rw [List.findSome?_cons]
      cases probed : probe item with
      | some here =>
          simp only [Option.some.injEq]
          constructor
          · rintro rfl
            refine ⟨item, List.mem_cons_self, probed, ?_⟩
            intro earlier member below
            rcases List.mem_cons.mp member with rfl | later
            · exact absurd below (UInt64.lt_irrefl _)
            · exact absurd below (UInt64.lt_asymm (least earlier later))
          · rintro ⟨other, member, hit, none_⟩
            rcases List.mem_cons.mp member with rfl | later
            · exact Option.some.inj (probed.symm.trans hit)
            · have missed := none_ item List.mem_cons_self (least other later)
              exact nomatch probed.symm.trans missed
      | none =>
          simp only [ih increasing]
          constructor
          · rintro ⟨other, member, hit, none_⟩
            refine ⟨other, List.mem_cons_of_mem item member, hit, ?_⟩
            intro earlier inside below
            rcases List.mem_cons.mp inside with rfl | later
            · exact probed
            · exact none_ earlier later below
          · rintro ⟨other, member, hit, none_⟩
            rcases List.mem_cons.mp member with rfl | later
            · exact nomatch probed.symm.trans hit
            · exact ⟨other, later, hit,
                fun earlier inside => none_ earlier (List.mem_cons_of_mem item inside)⟩

section Scan

variable (case : ExperimentCase)

/-- What the oracle makes of one seed. -/
def probe (seed : UInt64) : Option (UInt64 × RunReport × FailureSignature) :=
  (case.oracle (case.generate seed)).map fun signature => (seed, case.generate seed, signature)

theorem scanSeed_eq (scan : SeedScan) (seed : UInt64) :
    case.scanSeed scan seed =
      ⟨scan.first.or (case.probe seed),
        scan.failuresObserved + (case.oracle (case.generate seed)).isSome.toNat⟩ := by
  obtain ⟨found, asked⟩ : ∃ found, case.oracle (case.generate seed) = found := ⟨_, rfl⟩
  obtain ⟨first, failuresObserved⟩ := scan
  cases found <;> cases first <;> simp [scanSeed, probe, asked]

theorem foldl_scanSeed (attempted : List UInt64) (scan : SeedScan) :
    attempted.foldl case.scanSeed scan =
      ⟨scan.first.or (attempted.findSome? case.probe),
        scan.failuresObserved +
          attempted.countP fun seed => (case.oracle (case.generate seed)).isSome⟩ := by
  induction attempted generalizing scan with
  | nil => simp
  | cons seed rest ih =>
      rw [List.foldl_cons, ih, scanSeed_eq, List.findSome?_cons, List.countP_cons]
      congr 1
      · rw [Option.or_assoc]
        cases case.probe seed <;> rfl
      · cases case.oracle (case.generate seed) <;> simp [Nat.add_assoc, Nat.add_comm]

/-- The least of the seeds that have a signature. -/
structure FirstFailure (seed : UInt64) (signature : FailureSignature) : Prop where
  attempted : seed < case.budget.seedCount
  fails : case.oracle (case.generate seed) = some signature
  least : ∀ earlier < seed, case.oracle (case.generate earlier) = none

theorem scanSeeds_first (seed : UInt64) (generated : RunReport) (signature : FailureSignature) :
    case.scanSeeds.first = some (seed, generated, signature) ↔
      generated = case.generate seed ∧ case.FirstFailure seed signature := by
  rw [scanSeeds, foldl_scanSeed]
  simp only [Option.none_or]
  rw [findSome?_increasing (pairwise_seeds _)]
  simp only [mem_seeds, probe, Option.map_eq_some_iff, Option.map_eq_none_iff]
  constructor
  · rintro ⟨_, attempted, ⟨_, fails, equal⟩, least⟩
    cases equal
    exact ⟨rfl, attempted, fails,
      fun earlier below => least earlier (UInt64.lt_trans below attempted) below⟩
  · rintro ⟨rfl, failure⟩
    exact ⟨seed, failure.attempted, ⟨signature, failure.fails, rfl⟩,
      fun earlier _ => failure.least earlier⟩

theorem scanSeeds_counts {seed : UInt64} {signature : FailureSignature}
    (failure : case.FirstFailure seed signature) : 1 ≤ case.scanSeeds.failuresObserved := by
  rw [scanSeeds, foldl_scanSeed]
  have member : seed ∈ seeds case.budget.seedCount := (mem_seeds _ _).mpr failure.attempted
  have counted : 0 < (seeds case.budget.seedCount).countP fun seed =>
      (case.oracle (case.generate seed)).isSome :=
    List.countP_pos_iff.mpr ⟨seed, member, by rw [failure.fails]; rfl⟩
  dsimp only
  omega

end Scan

/-- The replay of a run's tape shows the same failure and the same run. -/
structure FaithfulReplay (case : ExperimentCase) (seed : UInt64) (signature : FailureSignature) :
    Prop where
  signature : case.oracle (case.replay seed (case.generate seed).tapeLog) = some signature
  trace : (case.replay seed (case.generate seed).tapeLog).trace = (case.generate seed).trace
  history : (case.replay seed (case.generate seed).tapeLog).history = (case.generate seed).history
  nemesisTrace : (case.replay seed (case.generate seed).tapeLog).nemesisTrace =
    (case.generate seed).nemesisTrace

section Verdict

variable (runReportToJson timelineHtml : RunReport → String) (case : ExperimentCase)

/-- The checks made before the shrinking, among them one that the others imply. -/
theorem replay_checks_iff (failuresObserved : Nat) (seed : UInt64) (signature : FailureSignature) :
    let report := case.replayedReport failuresObserved seed (case.generate seed)
      (case.replay seed (case.generate seed).tapeLog) signature
    (!report.replayMatchedSignature || !report.replayTraceIdentical ||
      !report.replayHistoryIdentical || !report.replayNemesisIdentical ||
      !report.replayByteIdentical) = false ↔ case.FaithfulReplay seed signature := by
  simp only [replayedReport, Bool.or_eq_false_iff, Bool.not_eq_false', decide_eq_true_eq]
  constructor
  · rintro ⟨⟨⟨⟨matched, trace⟩, history⟩, nemesis⟩, _⟩
    exact ⟨matched, trace.symm, history.symm, nemesis.symm⟩
  · rintro ⟨matched, trace, history, nemesis⟩
    exact ⟨⟨⟨⟨matched, trace.symm⟩, history.symm⟩, nemesis.symm⟩, by rw [trace]⟩

/-- What the report of a recalled case says. -/
structure Recall (report : ExperimentReport) : Prop where
  recalled : report.recalled = true
  replayMatched : report.replayMatchedSignature = true
  minimizedMatched : report.minimizedMatchedSignature = true
  observed : 1 ≤ report.failuresObserved
  shorter : ∃ original minimized, report.originalTapeLen = some original ∧
    report.minimizedTapeLen = some minimized ∧ minimized ≤ original

/-- Shrinking ends in a recall whenever the replay shows the failure. -/
theorem shrinkFailure_recalls (report : ExperimentReport) {seed : UInt64}
    {signature : FailureSignature} (reproduced : case.FaithfulReplay seed signature)
    (length : report.originalTapeLen = some (case.generate seed).tapeLog.length)
    (matched : report.replayMatchedSignature = true) (observed : 1 ≤ report.failuresObserved) :
    ∃ last, case.shrinkFailure runReportToJson timelineHtml seed (case.generate seed) signature
        report = .recalled last ∧ Recall last := by
  have sound := (shrinkTapeLabelAware_sound (case.reproduces seed signature)
    (case.generate seed).tapeLog ((case.generate seed).tapeEvents.map (·.label.asStr))
    case.budget.shrink 0).1
  have kept := of_decide_eq_true (sound.failing (decide_eq_true reproduced.signature)).2
  have shorter := sound.shorter
  simp only [shrinkFailure, kept, decide_true, if_true]
  exact ⟨_, rfl, rfl, matched, rfl, observed, _, _, length, rfl, shorter⟩

/-- Exactly the faithfully replayed failures are recalled. -/
theorem recall_verdict :
    ((∃ report, case.runExperimentCase runReportToJson timelineHtml = .recalled report) ↔
        ∃ seed signature, case.FirstFailure seed signature ∧ case.FaithfulReplay seed signature) ∧
      ∀ report, case.runExperimentCase runReportToJson timelineHtml = .recalled report →
        Recall report := by
  obtain ⟨first, scanned⟩ : ∃ first, case.scanSeeds.first = first := ⟨_, rfl⟩
  cases first with
  | none =>
      have verdict : case.runExperimentCase runReportToJson timelineHtml =
          .notRecalled (case.silentReport case.scanSeeds.failuresObserved) := by
        simp only [runExperimentCase, scanned]
      rw [verdict]
      refine ⟨⟨?_, ?_⟩, ?_⟩
      · rintro ⟨report, ⟨⟩⟩
      · rintro ⟨seed, signature, failure, _⟩
        have found := (case.scanSeeds_first seed _ signature).mpr ⟨rfl, failure⟩
        exact nomatch scanned.symm.trans found
      · rintro report ⟨⟩
  | some found =>
      obtain ⟨seed, generated, signature⟩ := found
      obtain ⟨rfl, failure⟩ := (case.scanSeeds_first seed generated signature).mp scanned
      have checks := case.replay_checks_iff case.scanSeeds.failuresObserved seed signature
      have unique : ∀ {other found}, case.FirstFailure other found →
          other = seed ∧ found = signature := by
        intro other found also
        have same := ((case.scanSeeds_first other _ found).mpr ⟨rfl, also⟩).symm.trans scanned
        cases same
        exact ⟨rfl, rfl⟩
      -- Shrinking cannot fail, so the checks on the replay decide.
      by_cases faithful : case.FaithfulReplay seed signature
      · obtain ⟨last, recalled, promises⟩ := case.shrinkFailure_recalls runReportToJson timelineHtml
          (case.replayedReport case.scanSeeds.failuresObserved seed (case.generate seed)
            (case.replay seed (case.generate seed).tapeLog) signature)
          faithful rfl (decide_eq_true faithful.signature) (case.scanSeeds_counts failure)
        have verdict : case.runExperimentCase runReportToJson timelineHtml = .recalled last := by
          simp only [runExperimentCase, scanned, checks.mpr faithful, recalled]
          rfl
        rw [verdict]
        refine ⟨⟨fun _ => ⟨seed, signature, failure, faithful⟩, fun _ => ⟨last, rfl⟩⟩, ?_⟩
        rintro _ ⟨⟩
        exact promises
      · -- The case ends before the shrinking, and no other seed is replayed.
        have rejected := Bool.not_eq_false _ ▸ mt checks.mp faithful
        have verdict : case.runExperimentCase runReportToJson timelineHtml =
            .notRecalled (case.replayedReport case.scanSeeds.failuresObserved seed
              (case.generate seed) (case.replay seed (case.generate seed).tapeLog) signature) := by
          simp only [runExperimentCase, scanned, rejected, if_true]
        rw [verdict]
        refine ⟨⟨?_, ?_⟩, ?_⟩
        · rintro ⟨report, ⟨⟩⟩
        · rintro ⟨other, found, also, agreed⟩
          obtain ⟨rfl, rfl⟩ := unique also
          exact absurd agreed faithful
        · rintro report ⟨⟩

end Verdict

end Detersim.ExperimentCase
