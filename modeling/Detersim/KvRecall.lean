import Detersim.KvOutline

/-!
What each planted bug of the primary-backup store does to the history of its
client: the verdict on it hangs on the value read, and most bugs show in every run.
-/

namespace Detersim.KvVariants

open Datagrams
open PrimaryBackup (Follower Replica Party)

/-- In every run, a client that has returned recorded a history of this shape. -/
theorem finished_of_reached {bug : KvBugVariant} {cut : Bool} {client : NodeId} {system : KvSystem}
    (distinct : 2 < client)
    (reached : ReachedUnder (deployment bug client) (KvSystem.start bug) (Allowed cut) system)
    (returned : (system.locals .client).awaits = .ended) :
    Finished bug cut client (system.locals .client).ops := by
  have holds : (outline bug cut client).Holds system := Outline.holds_of_reached UInt64.le_refl
    outline_start (fun _ holds party => outline_rules distinct holds party) reached
  have fits : ClientFits bug cut client system (system.locals .client) := holds.parties .client
  obtain ⟨⟨ops, awaits⟩, same⟩ : ∃ state, system.locals .client = state := ⟨_, rfl⟩
  rw [same] at fits returned ⊢
  cases returned
  cases fits with
  | finished done => exact done
  | second _ _ _ awaits => rcases awaits with awaits | awaits | awaits <;> cases awaits
  | get _ _ _ awaits => rcases awaits with awaits | awaits | ⟨_, _, awaits⟩ <;> cases awaits
  | unacked _ awaits => rcases awaits with awaits | ⟨_, awaits⟩ <;> cases awaits
  | append _ awaits => rcases awaits with awaits | awaits | ⟨_, awaits⟩ <;> cases awaits
  | readAll _ _ awaits => rcases awaits with awaits | awaits | ⟨_, _, awaits⟩ <;> cases awaits

/-- The history is one of a correct store, or of a correct log. -/
def Legal (bug : KvBugVariant) (ops : List RecordedOp) : Prop :=
  if bug = .duplicateRequestReapplied then
    Linearizes (appendOnlyLog []) (ops.filterMap RecordedOp.logRecord)
  else Linearizes (singleKeyKv none) (recordedHistory ops)

/-- The read decides: the history of a store is legal when the value read is the one
that was last put, and acknowledged. -/
theorem Finished.legal_iff {bug : KvBugVariant} {cut : Bool} {client : NodeId}
    {ops : List RecordedOp} (done : Finished bug cut client ops)
    (single : bug ≠ .duplicateRequestReapplied) :
    ∃ puts observed invoke complete,
      ops = puts ++ [.kvGet (readId bug) (.ofNat client) observed invoke complete] ∧
      Written client invoke (lastPut bug) puts ∧ Observable bug cut observed ∧
      (Legal bug ops ↔ observed = lastPut bug) := by
  cases done with
  | log doubling => exact absurd doubling single
  | read _ written seen takes =>
      refine ⟨_, _, _, _, rfl, written, seen, ?_⟩
      rw [Legal, if_neg single]
      constructor
      · exact written.observed_eq
      · rintro rfl
        by_cases losing : bug = .lostUpdate
        · subst losing
          rcases seen with missing | ⟨first, _⟩
          · cases missing
          · exact absurd first (by decide)
        · rw [readId, if_neg losing]
          refine written.linearizes takes ?_
          cases bug <;> first | exact absurd rfl losing | exact (by decide)

theorem read_decides (bug : KvBugVariant) (cut : Bool) (client : NodeId) (distinct : 2 < client)
    (single : bug ≠ .duplicateRequestReapplied) (system : KvSystem)
    (reached : ReachedUnder (deployment bug client) (KvSystem.start bug) (Allowed cut) system)
    (returned : (system.locals .client).awaits = .ended) :
    ∃ puts observed invoke complete,
      (system.locals .client).ops =
        puts ++ [.kvGet (readId bug) (.ofNat client) observed invoke complete] ∧
      Written client invoke (lastPut bug) puts ∧ Observable bug cut observed ∧
      (Legal bug (system.locals .client).ops ↔ observed = lastPut bug) :=
  (finished_of_reached distinct reached returned).legal_iff single

/-- The read overtakes the replication of the put that was acknowledged early. -/
def overtakingRead : List KvEvent :=
  [.act .client, .act .client, .tick 1, .deliver .primary ⟨3, 0, "put:7", 0⟩, .act .primary,
    .act .primary, .act .primary, .tick 2, .deliver .client ⟨0, 3, "ok", 1⟩, .act .client,
    .act .client, .act .client, .tick 3, .deliver (.follower .first) ⟨3, 1, "get", 2⟩,
    .act (.follower .first), .tick 4, .deliver .client ⟨1, 3, "none", 3⟩, .act .client, .act .client,
    .act .client]

theorem overtaking_read_decides :
    ∃ system, runUnder (deployment .ackBeforeReplicate 3) (Allowed false)
        (KvSystem.start .ackBeforeReplicate) overtakingRead = some system ∧
      ∃ puts observed invoke complete,
        (system.locals .client).ops = puts ++ [.kvGet 2 3 observed invoke complete] ∧
        Written 3 invoke (some 7) puts ∧ Observable .ackBeforeReplicate false observed ∧
        (Legal .ackBeforeReplicate (system.locals .client).ops ↔ observed = some 7) := by
  obtain ⟨system, ran, returned⟩ := Option.map_eq_some_iff.mp
    (by decide : (runUnder (deployment .ackBeforeReplicate 3) (Allowed false)
      (KvSystem.start .ackBeforeReplicate) overtakingRead).map
        (fun system => (system.locals .client).awaits) = some .ended)
  exact ⟨system, ran, read_decides .ackBeforeReplicate false 3 (by decide) (by decide) system
    (reachedUnder_of_run _ _ _ .start ran) returned⟩

/-- The variants whose bug shows whatever the medium does. An early acknowledgement
shows for certain when the value cannot reach the follower. -/
def certain : KvBugVariant → Bool → Bool
  | .ackBeforeReplicate, cut => cut
  | .readFromStaleFollower, _ | .lostUpdate, _ | .duplicateRequestReapplied, _
  | .quorumCountOffByOne, _ => true
  | .correct, _ | .followerAppliesUncommitted, _ => false

theorem Finished.not_legal {bug : KvBugVariant} {cut : Bool} {client : NodeId}
    {ops : List RecordedOp} (done : Finished bug cut client ops)
    (shows : certain bug cut = true) : ¬ Legal bug ops := by
  cases done with
  | log doubling inOrder other =>
      rw [Legal, if_pos doubling]
      exact fun linearizes => other (append_read_entries inOrder linearizes)
  | read single written seen takes =>
      rw [Legal, if_neg single]
      intro linearizes
      have same := written.observed_eq linearizes
      rcases seen with rfl | ⟨rfl, reaches⟩
      · cases bug with
        | duplicateRequestReapplied => exact single rfl
        | correct | followerAppliesUncommitted => simp [certain] at shows
        | ackBeforeReplicate | readFromStaleFollower | lostUpdate | quorumCountOffByOne =>
            simp [lastPut] at same
      · cases bug with
        | ackBeforeReplicate =>
            rw [certain] at shows
            simp [reachesFirst, shows] at reaches
        | lostUpdate => exact absurd same (by decide)
        | duplicateRequestReapplied => exact single rfl
        | readFromStaleFollower | quorumCountOffByOne => simp [reachesFirst] at reaches
        | correct | followerAppliesUncommitted => simp [certain] at shows

theorem planted_bug_shows (bug : KvBugVariant) (cut : Bool) (client : NodeId)
    (distinct : 2 < client) (shows : certain bug cut = true) (system : KvSystem)
    (reached : ReachedUnder (deployment bug client) (KvSystem.start bug) (Allowed cut) system)
    (returned : (system.locals .client).awaits = .ended) :
    ¬ Legal bug (system.locals .client).ops :=
  (finished_of_reached distinct reached returned).not_legal shows

/-- The second put is lost, and the client reads the first. -/
def lostUpdateRun : List KvEvent :=
  [.act .client, .act .client, .tick 1, .deliver .primary ⟨3, 0, "put:7", 0⟩, .act .primary, .tick 2,
    .deliver (.follower .first) ⟨0, 1, "replicate:7", 1⟩, .act (.follower .first), .tick 3,
    .deliver .primary ⟨1, 0, "ack", 2⟩, .act .primary, .tick 4, .deliver .client ⟨0, 3, "ok", 3⟩,
    .act .client, .act .client, .act .client, .tick 5, .deliver .primary ⟨3, 0, "put:9", 4⟩,
    .act .primary, .tick 6, .deliver (.follower .second) ⟨0, 2, "replicate:9", 5⟩,
    .act (.follower .second), .tick 7, .deliver .primary ⟨2, 0, "ack", 6⟩, .act .primary, .tick 8,
    .deliver .client ⟨0, 3, "ok", 7⟩, .act .client, .act .client, .act .client, .tick 9,
    .deliver (.follower .first) ⟨3, 1, "get", 8⟩, .act (.follower .first), .tick 10,
    .deliver .client ⟨1, 3, "7", 9⟩, .act .client, .act .client, .act .client]

theorem lost_update_shows :
    ∃ system, runUnder (deployment .lostUpdate 3) (Allowed false) (KvSystem.start .lostUpdate)
        lostUpdateRun = some system ∧ ¬ Legal .lostUpdate (system.locals .client).ops := by
  obtain ⟨system, ran, returned⟩ := Option.map_eq_some_iff.mp
    (by decide : (runUnder (deployment .lostUpdate 3) (Allowed false) (KvSystem.start .lostUpdate)
      lostUpdateRun).map (fun system => (system.locals .client).awaits) = some .ended)
  exact ⟨system, ran, planted_bug_shows .lostUpdate false 3 (by decide) rfl system
    (reachedUnder_of_run _ _ _ .start ran) returned⟩

end Detersim.KvVariants
