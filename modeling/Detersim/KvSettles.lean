import Detersim.FairRuns
import Detersim.KvReports

/-!
The experiments on the store come to an end: whatever is drawn, the client returns.
So a planted bug shows with every seed, but for the one whose client sleeps.
-/

namespace Detersim.KvVariants

open Datagrams Hosting Detersim.Inner
open PrimaryBackup (Follower Replica Party)

/-! The parties without the times they record. -/

def eraseOp : RecordedOp → RecordedOp
  | .kvPut id process value _ _ => .kvPut id process value 0 0
  | .kvGet id process value _ _ => .kvGet id process value 0 0
  | .logAppend id process value index _ _ => .logAppend id process value index 0 0
  | .logRead id process entries _ _ => .logRead id process entries 0 0

def ClientAt.erase : ClientAt → ClientAt
  | .sendingPut _ => .sendingPut 0
  | .awaitingAck _ => .awaitingAck 0
  | .putDone _ => .putDone 0
  | .sendingSecond _ => .sendingSecond 0
  | .awaitingSecond _ => .awaitingSecond 0
  | .secondDone _ => .secondDone 0
  | .sendingGet _ => .sendingGet 0
  | .awaitingValue _ => .awaitingValue 0
  | .getDone value _ => .getDone value 0
  | .sendingAppend _ => .sendingAppend 0
  | .awaitingIndex _ => .awaitingIndex 0
  | .appendDone index _ => .appendDone index 0
  | .sendingReadAll _ => .sendingReadAll 0
  | .awaitingEntries _ => .awaitingEntries 0
  | .readDone entries _ => .readDone entries 0
  | awaits => awaits

/-- The client sleeps, or is about to. -/
def ClientAt.sleeps : ClientAt → Bool
  | .beforeSleep | .sleeping _ => true
  | _ => false

def Client.erase (state : Client) : Client := ⟨state.ops.map eraseOp, state.awaits.erase⟩

@[simp] theorem eraseOp_eraseOp (op : RecordedOp) : eraseOp (eraseOp op) = eraseOp op := by
  cases op <;> rfl

@[simp] theorem map_eraseOp (ops : List RecordedOp) :
    (ops.map eraseOp).map eraseOp = ops.map eraseOp := by
  rw [List.map_map]
  exact List.map_congr_left fun op _ => eraseOp_eraseOp op

/-- What a client does next does not depend on the times. -/
theorem code_erased (bug : KvBugVariant) (node : NodeId) (state : Client) :
    (Client.code bug node state.erase).erase 0 Client.erase =
      (Client.code bug node state).erase 0 Client.erase := by
  obtain ⟨ops, awaits⟩ := state
  cases awaits with
  | start => cases bug <;> rfl
  | awaitingAck =>
      simp only [Client.erase, ClientAt.erase, Client.code, Await.erase]
      congr 1
      funext sender ack
      split_ifs
      · rw [map_eraseOp]
      · simp only [Client.afterPut, map_eraseOp]
  | awaitingSecond =>
      simp only [Client.erase, ClientAt.erase, Client.code, Await.erase]
      congr 1
      funext sender ack
      split_ifs <;> rw [map_eraseOp]
  | putDone invoke =>
      change Await.now (fun _ => (Client.afterPut bug (ops.map eraseOp ++
        [.kvPut 1 (.ofNat node) 7 0 0])).erase) = .now fun _ => (Client.afterPut bug (ops ++
          [.kvPut 1 (.ofNat node) 7 invoke 0])).erase
      simp only [Client.erase, Client.afterPut, List.map_append, map_eraseOp]
      rfl
  | _ =>
      simp only [Client.erase, ClientAt.erase, Client.code, Await.erase, List.map_append, map_eraseOp] <;>
        rfl

theorem reads_erased (bug : KvBugVariant) (node : NodeId) (state : Client)
    {next : SimTime → Client} (blind : state.awaits.sleeps = false)
    (code : Client.code bug node state = .now next) (time : SimTime) :
    (next time).erase = (next 0).erase := by
  obtain ⟨ops, awaits⟩ := state
  cases awaits with
  | beforeSleep | sleeping => cases blind
  | start => cases bug <;> cases code <;> rfl
  | putDone =>
      cases code
      simp only [Client.erase, Client.afterPut, List.map_append]
      rfl
  | _ => cases code <;> simp only [Client.erase, List.map_append] <;> rfl

def erasure (bug : KvBugVariant) (client : NodeId) : Erasure (deployment bug client) where
  blank := 0
  erase
    | .primary, state => state
    | .follower _, state => state
    | .client, state => Client.erase state
  looks
    | .primary, _ | .follower _, _ => false
    | .client, state => ClientAt.sleeps state.awaits
  code party state := by
    match party, state with
    | .primary, _ | .follower _, _ => rfl
    | .client, state => exact code_erased bug client state
  looks_erase party state := by
    match party, state with
    | .primary, _ | .follower _, _ => rfl
    | .client, ⟨ops, awaits⟩ => cases awaits <;> rfl
  reads party state next blind code time := by
    match party, state with
    | .primary, state => cases state with
      | working job => cases job <;> cases code
      | _ => cases code
    | .follower _, ⟨_, awaits⟩ => cases awaits <;> cases code
    | .client, state => exact reads_erased bug client state blind code time

instance (bug : KvBugVariant) (sender receiver : NodeId) : Decidable (barred bug sender receiver) :=
  inferInstanceAs (Decidable (_ ∧ _ ∧ _))

instance : (party : Party) → DecidableEq (Local party)
  | .primary => inferInstanceAs (DecidableEq Primary)
  | .follower _ => inferInstanceAs (DecidableEq Follower)
  | .client => inferInstanceAs (DecidableEq Client)

def parties : List Party := [.primary, .follower .first, .follower .second, .client]

/-- The client does not sleep, and when nothing more can happen it has recorded what it
did, and returned. -/
def settles (bug : KvBugVariant) (snapshot : Snapshot NodeId String Local) : Bool :=
  decide (snapshot.sends ≤ 12) && !(snapshot.locals .client).awaits.sleeps &&
    (decide ((snapshot.locals .client).awaits = .ended) && !(snapshot.locals .client).ops.isEmpty ||
      !(snapshot.nexts (deployment bug 4) (erasure bug 4) (barred bug) parties).isEmpty)

theorem explored (bug : KvBugVariant) (awake : bug ≠ .followerAppliesUncommitted) :
    explore (deployment bug 4) (erasure bug 4) (barred bug) parties (settles bug) 31
      [⟨(KvSystem.start bug).locals, [], 0⟩] = true := by
  cases bug with
  | followerAppliesUncommitted => exact absurd rfl awake
  | correct => decide +kernel
  | ackBeforeReplicate => decide +kernel
  | readFromStaleFollower => decide +kernel
  | lostUpdate => decide +kernel
  | duplicateRequestReapplied => decide +kernel
  | quorumCountOffByOne => decide +kernel

theorem store_explored {bug : KvBugVariant} (awake : bug ≠ .followerAppliesUncommitted) {count : Nat}
    {system : KvSystem} (reached : ReachedIn (deployment bug 4) (KvSystem.start bug)
      (Passes (barred bug) true) count system) :
    count < 31 ∧ ∃ snapshot, snapshot.Of (erasure bug 4) system ∧ settles bug snapshot = true := by
  refine reached.explored (explored bug awake) ?_ ?_ ?_ (fun _ _ _ passes => passes.1) ?_
  · intro party
    match party with
    | .primary | .follower .first | .follower .second | .client => decide
  · refine ⟨fun party => ?_, fun _ _ _ => rfl, rfl⟩
    cases party <;> rfl
  · intro snapshot fine party
    match party with
    | .primary | .follower _ => rfl
    | .client =>
        simp only [settles, Bool.and_eq_true, Bool.not_eq_true'] at fine
        exact fine.1.2
  · intro system event passes
    cases event with
    | tick | act => trivial
    | deliver party packet => exact passes.2 rfl

theorem deadline_none (state : Client) (blind : state.awaits.sleeps = false) :
    deadline .client state = none := by
  obtain ⟨ops, awaits⟩ := state
  cases awaits with
  | sleeping => cases blind
  | _ => rfl

theorem store_brief {bug : KvBugVariant} (awake : bug ≠ .followerAppliesUncommitted) :
    Brief (store bug) (barred bug) 31 12 where
  bounded _ _ reached := (store_explored awake reached).1
  awake count system party reached := by
    obtain ⟨_, snapshot, of, fine⟩ := store_explored awake reached
    match party with
    | .primary | .follower _ => rfl
    | .client =>
        simp only [settles, Bool.and_eq_true, Bool.not_eq_true'] at fine
        have blind : (erasure bug 4).looks .client (snapshot.locals .client) = false := fine.1.2
        rw [of.locals, (erasure bug 4).looks_erase] at blind
        exact deadline_none _ blind
  sends _ _ reached := by
    obtain ⟨_, snapshot, of, fine⟩ := store_explored awake reached
    simp only [settles, Bool.and_eq_true, decide_eq_true_eq] at fine
    exact of.sends ▸ fine.1.1

/-! The worlds. -/

/-- The task of each party. -/
def seat : Party → TaskId
  | .primary => 0
  | .follower .first => 1
  | .follower .second => 2
  | .client => 3

/-- What the nodes leave behind that were added. -/
structure Added (bug : KvBugVariant) (first : Nat) (g : Hosted Local) : Prop where
  tasks : g.tasks.entries = [
    (0, ⟨0, some ⟨⟨.primary, .start bug, none⟩, none⟩⟩),
    (1, ⟨1, some ⟨⟨.follower .first, ⟨none, .serving⟩, none⟩, none⟩⟩),
    (2, ⟨2, some ⟨⟨.follower .second, ⟨none, .serving⟩, none⟩, none⟩⟩),
    (3, ⟨4, some ⟨⟨.client, ⟨[], .start⟩, none⟩, none⟩⟩)]
  queue : g.queue.entries = [⟨0, first, .pollTask 0⟩, ⟨0, first + 1, .pollTask 1⟩,
    ⟨0, first + 2, .pollTask 2⟩, ⟨0, first + 3, .pollTask 3⟩]
  nodes : g.nodes = {4, 2, 1, 0}
  known : g.faults.connectivity.nodes = {4, 2, 1, 0}
  blocked : ∀ sender receiver,
    (sender, receiver) ∈ g.faults.connectivity.blocked ↔ barred bug sender receiver
  inboxes : g.inboxes.entries = [(0, []), (1, []), (2, []), (4, [])]

section Worlds

variable {bug : KvBugVariant} {first : Nat} {g : Hosted Local} (added : Added bug first g)
include added

omit added in
theorem address_added (bug : KvBugVariant) (party : Party) :
    (store bug).deployment.address party ∈ ({4, 2, 1, 0} : Finset NodeId) := by
  match party with
  | .primary => exact (by decide : (0 : NodeId) ∈ ({4, 2, 1, 0} : Finset NodeId))
  | .follower .first => exact (by decide : (1 : NodeId) ∈ ({4, 2, 1, 0} : Finset NodeId))
  | .follower .second => exact (by decide : (2 : NodeId) ∈ ({4, 2, 1, 0} : Finset NodeId))
  | .client => exact (by decide : (4 : NodeId) ∈ ({4, 2, 1, 0} : Finset NodeId))

theorem Added.linked (sender receiver : NodeId) (known : sender ∈ ({4, 2, 1, 0} : Finset NodeId))
    (known' : receiver ∈ ({4, 2, 1, 0} : Finset NodeId)) :
    g.faults.connectivity.isConnected sender receiver = true ↔ ¬ barred bug sender receiver := by
  rw [ConnectivityMatrix.isConnected, added.known, decide_eq_true known, decide_eq_true known',
    Bool.true_and, Bool.true_and, decide_eq_true_eq, added.blocked]

theorem Added.seated (task : TaskId) (slot : TaskSlot (Seat Local)) :
    g.tasks.get task = some slot ↔ ∃ party, task = seat party ∧
      slot = ⟨(store bug).deployment.address party,
        some ⟨⟨party, (store bug).start party, none⟩, none⟩⟩ := by
  rw [SortedMap.get_eq_some, added.tasks]
  simp only [List.mem_cons, Prod.mk.injEq, List.not_mem_nil, or_false]
  constructor
  · rintro (⟨rfl, rfl⟩ | ⟨rfl, rfl⟩ | ⟨rfl, rfl⟩ | ⟨rfl, rfl⟩)
    · exact ⟨.primary, rfl, rfl⟩
    · exact ⟨.follower .first, rfl, rfl⟩
    · exact ⟨.follower .second, rfl, rfl⟩
    · exact ⟨.client, rfl, rfl⟩
  · rintro ⟨party, rfl, rfl⟩
    match party with
    | .primary => exact .inl ⟨rfl, rfl⟩
    | .follower .first => exact .inr (.inl ⟨rfl, rfl⟩)
    | .follower .second => exact .inr (.inr (.inl ⟨rfl, rfl⟩))
    | .client => exact .inr (.inr (.inr ⟨rfl, rfl⟩))

theorem Added.polled (party : Party) : ∃ event ∈ g.queue, event.kind = .pollTask (seat party) := by
  refine ⟨⟨0, first + seat party, .pollTask (seat party)⟩, ?_, rfl⟩
  rw [KeyedQueue.mem_def, added.queue]
  match party with
  | .primary | .follower .first | .follower .second | .client => simp [seat]

theorem Added.polls (event : Keyed) (member : event ∈ g.queue) :
    event.time = 0 ∧ ∃ task, event.kind = .pollTask task := by
  rw [KeyedQueue.mem_def, added.queue] at member
  simp only [List.mem_cons, List.not_mem_nil, or_false] at member
  rcases member with rfl | rfl | rfl | rfl <;> exact ⟨rfl, _, rfl⟩

theorem Added.inbox (node : NodeId) : g.inbox node = [] := by
  rw [Inner.inbox]
  cases known : g.inboxes.get node with
  | none => rfl
  | some waiting =>
      rw [SortedMap.get_eq_some, added.inboxes] at known
      simp only [List.mem_cons, Prod.mk.injEq, List.not_mem_nil, or_false] at known
      rcases known with ⟨_, rfl⟩ | ⟨_, rfl⟩ | ⟨_, rfl⟩ | ⟨_, rfl⟩ <;> rfl

theorem Added.ready {base : Nat} (untouched : Untouched g)
    (work : g.dispatched + g.queue.entries.length ≤ base) :
    Ready (store bug) (barred bug) base seat g := by
  refine { untouched with
    linked := ?_, cut := ?_, housed := ?_, tasks := added.seated, polled := added.polled
    polls := added.polls, inboxes := added.inbox, work }
  · intro sender receiver passes
    exact (added.linked _ _ (address_added bug sender) (address_added bug receiver)).mpr passes
  · rintro sender receiver bars
    obtain ⟨same, rfl, rfl⟩ := bars
    exact Bool.eq_false_iff.mpr fun linked =>
      (added.linked 0 1 (by decide) (by decide)).mp linked ⟨same, rfl, rfl⟩
  · intro party
    rw [added.nodes]
    exact address_added bug party

end Worlds

theorem withNodes_ready {bug : KvBugVariant} (whole : bug ≠ .ackBeforeReplicate) (seed : UInt64)
    (tape : EntropyTape) :
    Ready (store bug) (barred bug) 4 seat (withNodes bug (fromTape seed protocolConfig tape)) := by
  have added : Added bug 0 (withNodes bug (fromTape seed protocolConfig tape)) := by
    refine ⟨rfl, rfl, rfl, rfl, fun sender receiver => ?_, rfl⟩
    exact iff_of_false (Finset.notMem_empty _) fun bars => whole bars.1
  exact added.ready ⟨rfl, rfl, rfl, rfl, fun _ => rfl, rfl, fun _ => rfl, fun _ => rfl, fun _ => rfl,
    rfl⟩ le_rfl

/-- The link is cut before anything is sent. -/
theorem cut_ready (pace : Nat) (seed : UInt64) (tape : EntropyTape) :
    ∃ event next, turn ((store .ackBeforeReplicate).program pace) (withNodes .ackBeforeReplicate
        ((fromTape seed protocolConfig tape).pushEvent 0 (.nemesis (.asymmetricPartition 0 1)))) =
          .next event next ∧
      next.config = protocolConfig ∧
      Ready (store .ackBeforeReplicate) (barred .ackBeforeReplicate) 5 seat next := by
  refine ⟨⟨0, 0, .nemesis (.asymmetricPartition 0 1)⟩, _, rfl, rfl,
    Added.ready (?_ : Added _ 1 _) ?_ ?_⟩
  · refine ⟨rfl, rfl, rfl, rfl, fun sender receiver => ?_, rfl⟩
    change (sender, receiver) ∈ insert ((0 : NodeId), (1 : NodeId)) ∅ ↔ _
    simp [barred]
  · exact ⟨rfl, rfl, rfl, rfl, fun _ => rfl, rfl, fun _ => rfl, fun _ => rfl, fun _ => rfl, rfl⟩
  · exact le_rfl

/-! The experiments. -/

theorem protocol_roomy {base : Nat} (few : base ≤ 5) : Roomy protocolConfig base 12 := by
  refine ⟨?_, ?_, ?_⟩
  · exact (by decide : 12 * spanNanos ≤ (2000000000 : UInt64).toNat)
  · exact (by decide : (2000000000 : UInt64).toNat < u64Max)
  · change base + 2 * 12 < 20000
    omega

theorem correct_store_settles :
    (run ((store .correct).program 31) (withNodes .correct (replay 0 [] protocolConfig))).stop =
        .quiesced ∧
      (run ((store .correct).program 31)
        (withNodes .correct (replay 0 [] protocolConfig))).world.spent = false ∧
      ∃ system returned, ReachedUnder (deployment .correct 4) (KvSystem.start .correct)
          (Passes (barred .correct) true) system ∧
        Hosting.Shows (store .correct) (run ((store .correct).program 31)
          (withNodes .correct (replay 0 [] protocolConfig))).world system returned ∧
        Datagrams.Settled (deployment .correct 4) (barred .correct) system ∧
        ∀ party, party ∈ returned ↔
          (deployment .correct 4).code party (system.locals party) = .ended :=
  fair_run_settles (store .correct) (barred .correct) 4 12 31 31 seat _
    (withNodes_ready (by decide) 0 _) (store_brief (by decide)) le_rfl
    (protocol_roomy (by decide))

/-- A client that does not sleep returns. -/
theorem client_returns {bug : KvBugVariant} (awake : bug ≠ .followerAppliesUncommitted) {count : Nat}
    {system : KvSystem} (reached : ReachedIn (deployment bug 4) (KvSystem.start bug)
      (Passes (barred bug) true) count system)
    (settled : Datagrams.Settled (deployment bug 4) (barred bug) system) :
    (system.locals .client).awaits = .ended ∧ (system.locals .client).ops ≠ [] := by
  obtain ⟨_, snapshot, of, fine⟩ := store_explored awake reached
  have dry : snapshot.nexts (deployment bug 4) (erasure bug 4) (barred bug) parties = [] :=
    settled.nexts of
  simp only [settles, dry, List.isEmpty_nil, Bool.not_true, Bool.or_false, Bool.and_eq_true,
    decide_eq_true_eq] at fine
  obtain ⟨_, awaits, some_⟩ := fine
  have erased : snapshot.locals .client = Client.erase (system.locals .client) := of.locals .client
  rw [erased] at awaits some_
  generalize system.locals .client = client at awaits some_ ⊢
  obtain ⟨ops, point⟩ := client
  constructor
  · cases point with
    | ended => rfl
    | _ => cases awaits
  · rintro rfl
    cases some_

/-- The run of such an experiment stops by itself, with the history of its client. -/
theorem store_stops {bug : KvBugVariant} (awake : bug ≠ .followerAppliesUncommitted) {pace : Nat}
    (enough : 31 ≤ pace) {base : Nat} (few : base ≤ 5) {g : Hosted Local}
    (config : g.config = protocolConfig) (ready : Ready (store bug) (barred bug) base seat g) :
    (run ((store bug).program pace) g).world.spent = false ∧
      (run ((store bug).program pace) g).world.history ≠ [] := by
  obtain ⟨_, unspent, count, system, returned, rests⟩ :=
    ready.rests (store_brief awake) enough (config ▸ protocol_roomy few)
  obtain ⟨ended, some_⟩ := client_returns awake rests.reached rests.settled
  have finished : Party.client ∈ returned := by
    refine (rests.ended .client).mpr ?_
    change (system.locals .client).code bug 4 = .ended
    generalize system.locals .client = client at ended ⊢
    obtain ⟨ops, awaits⟩ := client
    cases ended
    rfl
  refine ⟨unspent, ?_⟩
  rw [rests.shows.history, results_history returned rests.shows.once, if_pos finished]
  exact fun none_ => some_ (List.map_eq_nil_iff.mp none_)

/-- What the experiment reports, whatever it draws. -/
theorem kv_report_stops {bug : KvBugVariant} (awake : bug ≠ .followerAppliesUncommitted) {pace : Nat}
    (enough : 31 ≤ pace) (payload : Message → String) (seed : UInt64) (tape : EntropyTape) :
    let report := (runReplicatedKvVariant bug).report ((store bug).program pace) noPlans payload
      (fromTape seed protocolConfig tape)
    report.aborted = false ∧ report.history ≠ [] := by
  by_cases cut : bug = .ackBeforeReplicate
  · subst cut
    obtain ⟨event, next, turned, config, ready⟩ := cut_ready pace seed tape
    have stops := store_stops awake enough le_rfl config ready
    rw [← run_next turned] at stops
    exact stops
  · rw [runReplicatedKvVariant, if_neg cut]
    exact store_stops awake enough (by decide : 4 ≤ 5) rfl (withNodes_ready cut seed tape)

theorem shown_of_history {bug : KvBugVariant} (awake : bug ≠ .followerAppliesUncommitted)
    {history : List String} (some_ : history ≠ []) : Shown bug history ↔ bug ≠ .correct := by
  cases bug with
  | followerAppliesUncommitted => exact absurd rfl awake
  | correct => exact iff_of_false id (fun other => other rfl)
  | _ => exact iff_of_true some_ (by decide)

/-- Whatever an experiment draws, its run comes to an end with the history of its client.
So the oracle fires with each seed for each planted bug whose client does not sleep, and
never for the correct store, and the experiment counts 32 failures or none. -/
theorem kv_experiment_settles (bug : KvBugVariant) (awake : bug ≠ .followerAppliesUncommitted)
    (pace : Nat) (enough : 31 ≤ pace) (payload : Message → String)
    (runReportToJson timelineHtml : RunReport → String) :
    let case := kvCase bug pace payload
    (∀ seed, (case.generate seed).aborted = false ∧ (case.generate seed).history ≠ [] ∧
      ((case.oracle (case.generate seed)).isSome = true ↔ bug ≠ .correct)) ∧
    (∀ seed tape, (case.replay seed tape).aborted = false ∧ (case.replay seed tape).history ≠ [] ∧
      ((case.oracle (case.replay seed tape)).isSome = true ↔ bug ≠ .correct)) ∧
    ((∃ report, case.runExperimentCase runReportToJson timelineHtml = .recalled report) ↔
      bug ≠ .correct) ∧
    (case.runExperimentCase runReportToJson timelineHtml).report.failuresObserved =
      if bug = .correct then 0 else 32 := by
  have fires {seed : UInt64} {tape : EntropyTape}
      (starts : Starts (fromTape seed protocolConfig tape : Hosted Local)) :
      let report := (runReplicatedKvVariant bug).report ((store bug).program pace) noPlans payload
        (fromTape seed protocolConfig tape)
      report.aborted = false ∧ report.history ≠ [] ∧
        ((kvOracle bug report).isSome = true ↔ bug ≠ .correct) := by
    obtain ⟨unspent, some_⟩ := kv_report_stops awake enough payload seed tape
    exact ⟨unspent, some_, (kv_report_shown bug pace payload starts).trans
      (shown_of_history awake some_)⟩
  have generated (seed : UInt64) : ((kvCase bug pace payload).oracle
      ((kvCase bug pace payload).generate seed)).isSome = true ↔ bug ≠ .correct :=
    (fires ⟨seed, protocolConfig, .inl rfl⟩).2.2
  refine ⟨fun seed => fires ⟨seed, protocolConfig, .inl rfl⟩,
    fun seed tape => fires ⟨seed, protocolConfig, .inr ⟨tape, rfl⟩⟩, ?_, ?_⟩
  · refine ((kvCase_plays bug pace payload).recalled_iff runReportToJson timelineHtml).trans ?_
    constructor
    · rintro ⟨seed, _, shown⟩
      exact (generated seed).mp shown
    · exact fun planted => ⟨0, (by decide : (0 : UInt64) < 32), (generated 0).mpr planted⟩
  · rw [ExperimentCase.report_counts]
    split_ifs with sound
    · exact List.countP_eq_zero.mpr fun seed _ shown => (generated seed).mp shown sound
    · have every := List.countP_eq_length.mpr fun seed
        (_ : seed ∈ ExperimentCase.seeds (kvCase bug pace payload).budget.seedCount) =>
          (generated seed).mpr sound
      exact every.trans (by decide : (ExperimentCase.seeds 32).length = 32)

theorem lost_update_settles :
    (∃ report, (kvCase .lostUpdate 31 fun _ => "").runExperimentCase (fun _ => "") (fun _ => "") =
        .recalled report) ∧
      ((kvCase .lostUpdate 31 fun _ => "").runExperimentCase (fun _ => "")
        (fun _ => "")).report.failuresObserved = 32 := by
  obtain ⟨_, _, recalled, counted⟩ := kv_experiment_settles .lostUpdate (by decide) 31 le_rfl
    (fun _ => "") (fun _ => "") fun _ => ""
  exact ⟨recalled.mpr (by decide), counted⟩

end Detersim.KvVariants
