import Detersim.KvControl
import Detersim.KvLog
import Detersim.KvRecall
import Detersim.KvRoundTrip
import Detersim.KvWorlds
import Detersim.ScenarioCases
import Detersim.SmallHistories

/-!
The experiments on the store: what their oracles make of a report, and so which
of them are recalled.
-/

namespace Detersim

open OrderSearch

/-- `linearizability_signature`. -/
def linearizabilitySignature (model : String) : LinearizabilityResult → Option FailureSignature
  | .notLinearizable _ conflict _ _ _ => some (.notLinearizable conflict model)
  | .linearizable _ | .inconclusive _ _ => none

@[simp] theorem linearizabilitySignature_isSome (model : String) (result : LinearizabilityResult) :
    (linearizabilitySignature model result).isSome = result.isNotLinearizable := by
  cases result <;> rfl

/-- `single_key_signature`. -/
def singleKeySignature (report : RunReport) : Option FailureSignature :=
  linearizabilitySignature "single-key-kv"
    (checkLinearizableWithBudget (singleKeyKv none) (singleKeyKvHistory report.history) ⟨10000⟩)

/-- `append_log_signature`. -/
def appendLogSignature (report : RunReport) : Option FailureSignature :=
  linearizabilitySignature "append-log"
    (checkLinearizableWithBudget (appendOnlyLog []) (appendLogHistory report.history) ⟨10000⟩)

namespace KvVariants

open Datagrams Hosting Detersim.Inner
open PrimaryBackup (Follower Replica Party)

def kvName : KvBugVariant → String
  | .correct => "replicated-kv-correct-negative-control"
  | .ackBeforeReplicate => "replicated-kv-ack-before-replicate"
  | .readFromStaleFollower => "replicated-kv-read-from-stale-follower"
  | .lostUpdate => "replicated-kv-lost-update"
  | .duplicateRequestReapplied => "replicated-kv-duplicate-request-reapplied"
  | .followerAppliesUncommitted => "replicated-kv-follower-applies-uncommitted"
  | .quorumCountOffByOne => "replicated-kv-quorum-count-off-by-one"

def kvOracle : KvBugVariant → RunReport → Option FailureSignature
  | .duplicateRequestReapplied => appendLogSignature
  | _ => singleKeySignature

/-- `kv_case`, with the two worlds of a variant. -/
def kvCase (bug : KvBugVariant) (pace : Nat) (payload : Message → String) : ExperimentCase where
  name := kvName bug
  budget := ⟨32, ⟨100, 2⟩⟩
  generate seed := (runReplicatedKvVariant bug).report ((store bug).program pace) noPlans payload
    (Inner.generate seed protocolConfig)
  replay seed tape := (runReplicatedKvVariant bug).report ((store bug).program pace) noPlans payload
    (Inner.replay seed tape protocolConfig)
  oracle := kvOracle bug

theorem kvCase_plays (bug : KvBugVariant) (pace : Nat) (payload : Message → String) :
    (kvCase bug pace payload).Plays ((store bug).program pace) noPlans payload
      (runReplicatedKvVariant bug) protocolConfig where
  generate _ := rfl
  replay _ _ := rfl
  oracle original replayed again := by
    cases bug <;> simp only [kvCase, kvOracle, singleKeySignature, appendLogSignature, again.history]

theorem kv_case_recalled :
    (∃ report, (kvCase .lostUpdate 16 fun _ => "").runExperimentCase (fun _ => "") (fun _ => "") =
        .recalled report) ↔
      ∃ seed < 32, ((kvCase .lostUpdate 16 fun _ => "").oracle
        ((kvCase .lostUpdate 16 fun _ => "").generate seed)).isSome = true :=
  (ExperimentCase.scenario_case_recalled (fun _ => "") (fun _ => "")
    (kvCase_plays .lostUpdate 16 fun _ => "")).1

/-! What a report shows. -/

/-- When the oracle of a variant fires. -/
def Shown (bug : KvBugVariant) (history : List String) : Prop :=
  match bug with
  | .correct => False
  | .followerAppliesUncommitted => ∃ invoke complete,
      history = [(RecordedOp.kvGet 2 4 (some 7) invoke complete).toHistoryLine]
  | .ackBeforeReplicate | .readFromStaleFollower | .lostUpdate | .duplicateRequestReapplied
  | .quorumCountOffByOne => history ≠ []

theorem results_history {bug : KvBugVariant} {locals : (party : Party) → Local party}
    (returned : List Party) (once : returned.Nodup) :
    (returned.flatMap fun party => (store bug).results party (locals party)) =
      if Party.client ∈ returned then (locals .client).ops.map RecordedOp.toHistoryLine else [] := by
  have others (parties : List Party) (absent : Party.client ∉ parties) :
      (parties.flatMap fun party => (store bug).results party (locals party)) = [] := by
    refine List.flatMap_eq_nil_iff.mpr fun party member => ?_
    cases party with
    | client => exact absurd member absent
    | primary | follower => rfl
  induction returned with
  | nil => rfl
  | cons party rest ih =>
      obtain ⟨fresh, later⟩ := List.nodup_cons.mp once
      rw [List.flatMap_cons]
      cases party with
      | client =>
          rw [others rest fresh, List.append_nil, if_pos List.mem_cons_self]
          rfl
      | primary | follower =>
          rw [ih later]
          simp [kvHost]

/-- The history of the experiment is that of a client that returned, or empty. -/
theorem kv_history (bug : KvBugVariant) (pace : Nat) (payload : Message → String) {seed : UInt64}
    {tape : EntropyTape} (starts : Starts (fromTape seed protocolConfig tape : Hosted Local)) :
    ∃ system : KvSystem,
      ReachedUnder (deployment bug 4) (KvSystem.start bug) (Passes (barred bug) true) system ∧
      let report := (runReplicatedKvVariant bug).report ((store bug).program pace) noPlans payload
        (fromTape seed protocolConfig tape)
      (report.history = [] ∨ (system.locals .client).awaits = .ended ∧
        report.history = (system.locals .client).ops.map RecordedOp.toHistoryLine) := by
  obtain ⟨system, returned, reached, medium, seating⟩ := mirrored_of_reachable (store bug) pace
    noPlans (barred bug) true _ (runReplicatedKvVariant_under bug pace payload starts)
  refine ⟨system, reached, ?_⟩
  have history := seating.history
  rw [results_history returned seating.once] at history
  split_ifs at history with finished
  · refine Or.inr ⟨?_, history⟩
    have ended : (system.locals .client).code bug 4 = .ended := (seating.gone .client finished).1
    generalize system.locals .client = client at ended ⊢
    obtain ⟨ops, awaits⟩ := client
    cases awaits with
    | ended => rfl
    | start => cases bug <;> cases ended
    | _ => cases ended
  · exact Or.inl history

/-! The oracles. -/

theorem completedOps_recorded (ops : List RecordedOp) :
    completedOps (recordedHistory ops) = recordedHistory ops := by
  refine List.filter_eq_self.mpr fun op member => ?_
  obtain ⟨recorded, _, same⟩ := List.mem_filterMap.mp member
  cases recorded <;> cases same <;> rfl

theorem completedOps_logged (ops : List RecordedOp) :
    completedOps (ops.filterMap RecordedOp.logRecord) = ops.filterMap RecordedOp.logRecord := by
  refine List.filter_eq_self.mpr fun op member => ?_
  obtain ⟨recorded, _, same⟩ := List.mem_filterMap.mp member
  cases recorded <;> cases same <;> rfl

theorem beginnings_mono {few many : Nat} (le : few ≤ many) : beginnings few ≤ beginnings many := by
  have grows (placed : Nat) : few.descFactorial placed ≤ many.descFactorial placed :=
    Nat.descFactorial_le placed le
  exact (Finset.sum_le_sum fun placed _ => grows placed).trans
    (Finset.sum_le_sum_of_subset (Finset.range_mono (Nat.succ_le_succ le)))

/-- Three operations never exhaust the budget of an oracle. -/
theorem few_beginnings {count : Nat} (few : count ≤ 3) : beginnings count < 10000 :=
  lt_of_le_of_lt (beginnings_mono few) (by decide)

/-- What the store's oracle makes of a client's lines. -/
theorem singleKey_flags {ops : List RecordedOp} (few : ops.length ≤ 3) {report : RunReport}
    (history : report.history = ops.map RecordedOp.toHistoryLine) :
    (singleKeySignature report).isSome = true ↔
      ¬ Linearizes (singleKeyKv none) (recordedHistory ops) := by
  have parsed : singleKeyKvHistory report.history = recordedHistory ops := by
    rw [history, singleKeyKvHistory, recordedHistory, List.filterMap_map]
    exact List.filterMap_congr fun op _ => parse_kv_line op
  have short : (completedOps (recordedHistory ops)).length ≤ 3 := by
    rw [completedOps_recorded]
    exact (List.length_filterMap_le _ _).trans few
  rw [singleKeySignature, linearizabilitySignature_isSome, parsed,
    notLinearizable_iff _ _ _ (few_beginnings short), completedOps_recorded]

/-- What the log's oracle makes of a client's lines that can be told apart. -/
theorem appendLog_flags {ops : List RecordedOp} (few : ops.length ≤ 3)
    (separable : ∀ op ∈ ops, op.LogSeparable) {report : RunReport}
    (history : report.history = ops.map RecordedOp.toHistoryLine) :
    (appendLogSignature report).isSome = true ↔
      ¬ Linearizes (appendOnlyLog []) (ops.filterMap RecordedOp.logRecord) := by
  have parsed : appendLogHistory report.history =
      (ops.filterMap RecordedOp.logRecord).map (OpRecord.atProcess 3) := by
    rw [history, appendLogHistory, List.filterMap_map, List.map_filterMap]
    exact List.filterMap_congr fun op member => (parse_line_iff op).mpr (separable op member)
  have short : (completedOps (ops.filterMap RecordedOp.logRecord)).length ≤ 3 := by
    rw [completedOps_logged]
    exact (List.length_filterMap_le _ _).trans few
  rw [appendLogSignature, linearizabilitySignature_isSome, parsed, check_atProcess,
    notLinearizable_iff _ _ _ (few_beginnings short), completedOps_logged]

theorem Finished.few {bug : KvBugVariant} {cut : Bool} {client : NodeId} {ops : List RecordedOp}
    (done : Finished bug cut client ops) : ops.length ≤ 3 := by
  cases done with
  | log => exact Nat.le_succ 2
  | read _ written =>
      generalize lastPut bug = value at written
      cases written <;> simp

/-- An oracle fires for a history of a client just if the history is not legal. -/
theorem kvOracle_flags {bug : KvBugVariant} {cut : Bool} {ops : List RecordedOp}
    (done : Finished bug cut 4 ops)
    (separable : bug = .duplicateRequestReapplied → ∀ op ∈ ops, op.LogSeparable)
    {report : RunReport} (history : report.history = ops.map RecordedOp.toHistoryLine) :
    (kvOracle bug report).isSome = true ↔ ¬ Legal bug ops := by
  by_cases doubling : bug = .duplicateRequestReapplied
  · rw [Legal, if_pos doubling, ← appendLog_flags done.few (separable doubling) history, doubling]
    rfl
  · rw [Legal, if_neg doubling, ← singleKey_flags done.few history]
    cases bug <;> first | exact absurd rfl doubling | rfl

theorem kvOracle_empty (bug : KvBugVariant) {report : RunReport} (empty : report.history = []) :
    kvOracle bug report = none := by
  cases bug <;> simp only [kvOracle, singleKeySignature, appendLogSignature, empty] <;> decide

/-- The line of a read tells what was read. -/
theorem get_line_injective {id id' : UInt64} {process process' : UInt32}
    {value value' : Option Int32} {invoke invoke' complete complete' : SimTime}
    (same : (RecordedOp.kvGet id process value invoke complete).toHistoryLine =
      (RecordedOp.kvGet id' process' value' invoke' complete').toHistoryLine) : value = value' := by
  have parsed := congrArg parseKvLine same
  rw [parse_kv_line, parse_kv_line] at parsed
  simp only [RecordedOp.singleKeyOp, OpRecord.completedAt, Option.some.injEq, OpRecord.mk.injEq,
    SingleKeyOutput.value.injEq] at parsed
  exact parsed.2.2.2.2.2

/-- The oracle of a variant fires for its report just when its bug has shown. -/
theorem kv_report_shown (bug : KvBugVariant) (pace : Nat) (payload : Message → String)
    {seed : UInt64} {tape : EntropyTape}
    (starts : Starts (fromTape seed protocolConfig tape : Hosted Local)) :
    let report := (runReplicatedKvVariant bug).report ((store bug).program pace) noPlans payload
      (fromTape seed protocolConfig tape)
    (kvOracle bug report).isSome = true ↔ Shown bug report.history := by
  obtain ⟨system, reached, shows⟩ := kv_history bug pace payload starts
  dsimp only at shows ⊢
  generalize (runReplicatedKvVariant bug).report ((store bug).program pace) noPlans payload
    (fromTape seed protocolConfig tape) = report at shows ⊢
  have sparing : ∀ (system : KvSystem) event, Passes (barred bug) true system event →
      Sparing system event := by
    intro system event passes
    cases event with
    | tick | act => trivial
    | deliver party packet => exact passes.2 rfl
  have allowed : ∀ (system : KvSystem) event, Passes (barred bug) true system event →
      Allowed (decide (bug = .ackBeforeReplicate)) system event := by
    intro system event passes
    cases event with
    | tick | act => trivial
    | deliver party packet => exact fun cut blocked => passes.1 ⟨of_decide_eq_true cut, blocked⟩
  rcases shows with empty | ⟨returned, history⟩
  · rw [kvOracle_empty bug empty, empty]
    cases bug <;> simp [Shown]
  · have done := finished_of_reached (by decide : (2 : NodeId) < 4) (reached.weaken allowed) returned
    have separable : bug = .duplicateRequestReapplied →
        ∀ op ∈ (system.locals .client).ops, op.LogSeparable := by
      rintro rfl
      exact Log.log_separable (by decide) sparing reached
    have some_ : report.history ≠ [] := by
      rw [history]
      intro none_
      rw [List.map_eq_nil_iff.mp none_] at done
      generalize nil : ([] : List RecordedOp) = ops at done
      cases done <;> simp at nil
    rw [kvOracle_flags done separable history]
    cases bug with
    | ackBeforeReplicate | readFromStaleFollower | lostUpdate | duplicateRequestReapplied
    | quorumCountOffByOne =>
        exact iff_of_true (done.not_legal rfl) some_
    | correct =>
        refine iff_of_false (not_not.mpr ?_) id
        exact correct_linearizes (by decide) sparing reached
    | followerAppliesUncommitted =>
        obtain ⟨puts, observed, invoke, complete, shape, written, seen, legal⟩ :=
          done.legal_iff (by decide)
        cases written
        rw [legal, history, shape, Shown]
        constructor
        · intro other
          rcases seen with none_ | ⟨rfl, _⟩
          · exact absurd none_ other
          · exact ⟨invoke, complete, rfl⟩
        · rintro ⟨invoke', complete', same⟩ missing
          have line := get_line_injective (List.head_eq_of_cons_eq same)
          rw [missing] at line
          cases line

/-- The oracle of an experiment fires for a generated or a replayed run just when the
bug has shown in it, and the experiment is recalled just when it has in one of its
seeds. -/
theorem kv_experiment (bug : KvBugVariant) (pace : Nat) (payload : Message → String)
    (runReportToJson timelineHtml : RunReport → String) :
    let case := kvCase bug pace payload
    (∀ seed, (case.oracle (case.generate seed)).isSome = true ↔
      Shown bug (case.generate seed).history) ∧
    (∀ seed tape, (case.oracle (case.replay seed tape)).isSome = true ↔
      Shown bug (case.replay seed tape).history) ∧
    ((∃ report, case.runExperimentCase runReportToJson timelineHtml = .recalled report) ↔
      ∃ seed < 32, Shown bug (case.generate seed).history) := by
  have generated (seed : UInt64) :
      ((kvCase bug pace payload).oracle ((kvCase bug pace payload).generate seed)).isSome = true ↔
        Shown bug ((kvCase bug pace payload).generate seed).history :=
    kv_report_shown bug pace payload ⟨seed, protocolConfig, Or.inl rfl⟩
  refine ⟨generated, fun seed tape =>
    kv_report_shown bug pace payload ⟨seed, protocolConfig, Or.inr ⟨tape, rfl⟩⟩, ?_⟩
  refine ((kvCase_plays bug pace payload).recalled_iff runReportToJson timelineHtml).trans ?_
  exact exists_congr fun seed => and_congr_right fun _ => generated seed

/-- The lost update shows with the first seed. -/
example : Shown .lostUpdate ((kvCase .lostUpdate 16 fun _ => "").generate 0).history := by
  have ran : (runFor ((store .lostUpdate).program 16) 60
      (withNodes .lostUpdate (Inner.generate 0 protocolConfig))).map (·.world.history.isEmpty) =
        some false := by
    decide +kernel
  obtain ⟨outcome, ended, some_⟩ := Option.map_eq_some_iff.mp ran
  change (run ((store .lostUpdate).program 16)
    (withNodes .lostUpdate (Inner.generate 0 protocolConfig))).world.history ≠ []
  rw [run_of_runFor _ 60 _ outcome ended]
  simpa using some_

end KvVariants

end Detersim
