import Detersim.DispatchOrder
import Detersim.HostedRuns
import Detersim.KvOutline
import Detersim.ReplayFidelity
import Detersim.TextBytes

/-!
The primary-backup experiments as the command line runs them: nodes 0 to 2, a
client at node 4, and for one variant a link that is cut at the start.
-/

namespace Detersim

namespace Inner

variable {State Value : Type}

/-- Only the nemesis changes what can go wrong. -/
theorem dispatch_faults (program : Program State Value) (g : Inner State Value) (event : Keyed)
    (plain : ∀ action, event.kind ≠ .nemesis action) :
    (dispatch program g event).faults = g.faults := by
  have enqueued (tasks : List TaskId) (g : Inner State Value) :
      (tasks.foldl enqueuePollNow g).faults = g.faults := by
    induction tasks generalizing g with
    | nil => rfl
    | cons task rest ih => exact ih (g.enqueuePollNow task)
  unfold dispatch
  split
  next timer _ =>
    unfold fireTimer
    split <;> rfl
  next sender receiver msg _ =>
    unfold deliverMsg
    split_ifs
    · rfl
    · rfl
    · have moved := drawPercent_moves g g.faults.dropPercent .dropDecision
      generalize g.drawPercent g.faults.dropPercent .dropDecision = drawn at moved ⊢
      obtain ⟨lost, mid⟩ := drawn
      obtain ⟨tape, _, _, rfl⟩ := moved
      cases lost with
      | true => rfl
      | false => exact enqueued _ _
    · rfl
  next action kind => exact absurd kind (plain action)
  next task _ =>
    unfold pollTask
    split
    · rfl
    next slot _ =>
      split
      · rfl
      next future _ =>
        dsimp only
        split_ifs
        · rfl
        · have ran := (exec_frame (program future.state)
            (({ g with tasks := g.tasks.insert task { slot with future := none } }.countDispatch
              (.dispatched event)).beginPoll task)).faults
          split
          next state after shape =>
            rw [shape] at ran
            exact ran
          next value after shape =>
            rw [shape] at ran
            have released := (releases_frame (after.ownedBy task) after).faults
            unfold finishTask
            dsimp only
            split
            · exact released.trans ran
            · split
              · exact released.trans ran
              · refine (enqueued _ _).trans ?_
                exact released.trans ran

/-- No nemesis event is queued. -/
def Spared (g : Inner State Value) : Prop :=
  ∀ event ∈ g.queue, ∀ action, event.kind ≠ .nemesis action

theorem spared_push {g : Inner State Value} (spared : Spared g) {event : Keyed}
    (plain : ∀ action, event.kind ≠ .nemesis action) :
    ∀ other ∈ g.queue.push event, ∀ action, other.kind ≠ .nemesis action := by
  intro other member
  rcases (KeyedQueue.mem_push _ _ _).mp member with rfl | old
  · exact plain
  · exact spared other old

section Turns

variable {rules : Rules State Value} {fills : SlotId → Prop} {program : Program State Value}

theorem opEffect_spared {g after : Inner State Value} (effect : OpEffect rules g after)
    (spared : Spared g) : Spared after := by
  cases effect with
  | sent => exact spared_push spared (by rintro _ ⟨⟩)
  | sentTwice =>
      refine spared_push (g := { g with queue := _ }) (spared_push spared ?_) ?_ <;> rintro _ ⟨⟩
  | started => exact spared_push spared (by rintro _ ⟨⟩)
  | armed => exact spared_push spared (by rintro _ ⟨⟩)
  | unregistered node task =>
      unfold unregisterRecvWaiter
      split <;> exact spared
  | quiet | held | opened | gave | unarmed | cancelled | forgot | waited | received | joining
  | handled => exact spared

theorem enqueueAll_spared (tasks : List TaskId) {g : Inner State Value} (spared : Spared g) :
    Spared (tasks.foldl enqueuePollNow g) := by
  intro event member action kind
  rcases of_mem_enqueueAll tasks g event member with old | ⟨task, _, polls, _⟩
  · exact spared event old action kind
  · rw [polls] at kind
    cases kind

/-- A turn schedules no nemesis event. -/
theorem changes_spared {g after : Inner State Value} (changes : Changes rules fills False g after)
    (spared : Spared g) : Spared after := by
  induction changes with
  | refl => exact spared
  | tail _ change ih =>
      cases change with
      | op effect => exact opEffect_spared effect ih
      | loop effect =>
          cases effect with
          | crashed node =>
              unfold crashNode
              split_ifs
              · exact fun event member => ih event ((KeyedQueue.mem_retain _ _ _).mp member).1
              · exact ih
          | filled slot join value => exact enqueueAll_spared join.joiners ih
          | scheduled time action allowed => exact allowed.elim
          | faulted | drawn | revived | registered | parked | halted | ended => exact ih

theorem popEffect_spared {g after : Inner State Value} {event : Keyed}
    (effect : PopEffect g event after) (spared : Spared g) : Spared after := by
  have rest {queue : EventQueue} (popped : g.queue.pop = some (event, queue)) :
      ∀ other ∈ queue, ∀ action, other.kind ≠ .nemesis action :=
    fun other member => spared other ((KeyedQueue.mem_of_pop popped other).mpr (Or.inr member))
  cases effect with
  | idle queue _ _ popped => exact rest popped
  | fired queue timer task popped =>
      exact spared_push (g := { g with queue }) (rest popped) (by rintro _ ⟨⟩)
  | dropped queue _ _ _ _ _ popped => exact rest popped
  | delivered queue tape sender receiver msg popped => exact enqueueAll_spared _ (rest popped)
  | begun queue _ _ _ popped => exact rest popped
  | lost queue _ _ popped => exact rest popped

/-- Left alone, a world keeps its faults as they are. -/
theorem turn_spared {g next : Inner State Value} {event : Keyed}
    (turned : turn program g = .next event next) (spared : Spared g) :
    (∀ action, event.kind ≠ .nemesis action) ∧ Spared next ∧ next.faults = g.faults ∧
      next.config = g.config := by
  obtain ⟨mid, popped, changes⟩ := turn_changes program _ _ _ turned
    (fun _ => dispatchMeets_any program _ _)
  have kept := changes_spared changes (popEffect_spared popped spared)
  obtain ⟨queue, first, _, rfl⟩ := next_shape program g next event turned
  have plain := spared event ((KeyedQueue.mem_of_pop first event).mpr (Or.inl rfl))
  exact ⟨plain, kept, dispatch_faults program _ event plain,
    (dispatch_progress program { g with queue, now := event.time } event).1⟩

end Turns

end Inner

open Datagrams Detersim.Inner

namespace Hosting

variable {Party Plan : Type} {Local : Party → Type} {host : Host Party Local}
  {pace : Nat} {nextAction : NextAction Plan} {barred : NodeId → NodeId → Prop} {single : Bool}

/-- A world that meets the conditions, with its links cut and no nemesis to come. -/
structure Calm (host : Host Party Local) (pace : Nat) (nextAction : NextAction Plan)
    (barred : NodeId → NodeId → Prop) (single : Bool) (g : Hosted Local) : Prop where
  under : ReachableUnder (host.program pace) nextAction (conditions Plan host barred single) g
  spared : Spared g
  finite : g.config.horizonNs.toNat < u64Max
  cut : ∀ sender receiver, barred sender receiver →
    g.faults.connectivity.isConnected sender receiver = false

theorem Calm.turn {g next : Hosted Local} {event : Keyed}
    (calm : Calm host pace nextAction barred single g)
    (turned : turn (host.program pace) g = .next event next) :
    Calm host pace nextAction barred single next := by
  obtain ⟨⟨start, starts, steps⟩, spared, finite, cut⟩ := calm
  obtain ⟨plain, spared', faults, config⟩ := turn_spared turned spared
  refine ⟨⟨start, starts, steps.tail (Step.turn turned ⟨finite, ?_⟩)⟩, spared', config ▸ finite,
    faults ▸ cut⟩
  cases kind : event.kind with
  | nemesis action => exact absurd kind (plain action)
  | deliverMsg sender receiver msg => exact cut sender receiver
  | pollTask | timerFire => trivial

/-- The whole run of such a world meets the conditions. -/
theorem Calm.run {g : Hosted Local} (calm : Calm host pace nextAction barred single g) :
    ReachableUnder (host.program pace) nextAction (conditions Plan host barred single)
      (run (host.program pace) g).world := by
  obtain ⟨events, last, turns, stopped⟩ := run_stops (host.program pace) g
  have kept : Calm host pace nextAction barred single last :=
    KeyedQueue.runs_keep (Calm host pace nextAction barred single)
      (fun _ _ _ calm turned => Calm.turn calm turned) calm turns
  rcases stopped with ⟨_, ended⟩ | ⟨event, next, aborted, ended⟩
  · rw [ended]
    exact kept.under
  · obtain ⟨start, starts, steps⟩ := kept.under
    rw [ended]
    exact ⟨start, starts, steps.tail (Step.abort aborted trivial)⟩

end Hosting

namespace KvVariants

open Hosting
open PrimaryBackup (Follower Replica Party)

def deadline : (party : Party) → Local party → Option SimTime
  | .client, ⟨_, .sleeping deadline⟩ => some deadline
  | _, _ => none

/-- The parties as node programs. The client's results are what it recorded. -/
def kvHost (bug : KvBugVariant) (client : NodeId) (distinct : 2 < client) : Host Party Local where
  deployment := deployment bug client
  start := (KvSystem.start bug).locals
  deadline := deadline
  results
    | .client, state => state.ops.map RecordedOp.toHistoryLine
    | .primary, _ | .follower _, _ => []
  encode := textBytes
  decode msg := String.ofList (fromUtf8Lossy msg)
  decode_encode text := by rw [fromUtf8Lossy_textBytes, String.ofList_toList]
  apart := deployment_apart bug distinct
  wakes party point limit next asleep code time late := by
    match party, point with
    | .client, ⟨ops, .sleeping deadline⟩ =>
        cases asleep
        cases code
        simp [late]

/-- `protocol_config`. -/
def protocolConfig : WorldConfig := ⟨2000000000, 20000⟩

abbrev store (bug : KvBugVariant) : Host Party Local := kvHost bug 4 (by decide)

/-- `add_nodes(3, ..)`, then the client, then the run. -/
def startNodes (bug : KvBugVariant) : Scenario (Seat Local) Unit Empty :=
  .operate (.addNode 0 ((store bug).factory .primary)) fun _ =>
  .operate (.addNode 1 ((store bug).factory (.follower .first))) fun _ =>
  .operate (.addNode 2 ((store bug).factory (.follower .second))) fun _ =>
  .operate (.addNode 4 ((store bug).factory .client)) fun _ => .run

def runReplicatedKvVariant (bug : KvBugVariant) : Scenario (Seat Local) Unit Empty :=
  if bug = .ackBeforeReplicate then
    .operate (.scheduleNemesis 0 (.asymmetricPartition 0 1)) fun _ => startNodes bug
  else startNodes bug

/-- The link that is cut before the first datagram is sent. -/
def barred (bug : KvBugVariant) (sender receiver : NodeId) : Prop :=
  bug = .ackBeforeReplicate ∧ sender = 0 ∧ receiver = 1

/-- The world in which the run starts. -/
def withNodes (bug : KvBugVariant) (g : Hosted Local) : Hosted Local :=
  (((g.addNode 0 ((store bug).factory .primary)).addNode 1
    ((store bug).factory (.follower .first))).addNode 2
      ((store bug).factory (.follower .second))).addNode 4 ((store bug).factory .client)

section Worlds

variable {bug : KvBugVariant} {pace : Nat} {g : Hosted Local}

theorem addNode_under (party : Party)
    (under : ReachableUnder ((store bug).program pace) noPlans
      (conditions Empty (store bug) (barred bug) true) g) :
    ReachableUnder ((store bug).program pace) noPlans
      (conditions Empty (store bug) (barred bug) true)
      (g.addNode ((store bug).deployment.address party) ((store bug).factory party)) := by
  obtain ⟨start, starts, steps⟩ := under
  exact ⟨start, starts, steps.tail (Step.operate (.addNode _ ((store bug).factory party))
    ⟨party, rfl, rfl⟩)⟩

theorem withNodes_under
    (under : ReachableUnder ((store bug).program pace) noPlans
      (conditions Empty (store bug) (barred bug) true) g) :
    ReachableUnder ((store bug).program pace) noPlans
      (conditions Empty (store bug) (barred bug) true) (withNodes bug g) :=
  addNode_under .client (addNode_under (.follower .second) (addNode_under (.follower .first)
    (addNode_under .primary under)))

variable {seed : UInt64} {tape : EntropyTape}

/-- Without a nemesis the store runs undisturbed. -/
theorem withNodes_calm (starts : Starts (fromTape seed protocolConfig tape : Hosted Local))
    (whole : bug ≠ .ackBeforeReplicate) :
    Calm (store bug) pace noPlans (barred bug) true
      (withNodes bug (fromTape seed protocolConfig tape)) where
  under := withNodes_under ⟨_, starts, .refl⟩
  spared := by
    have queued : (withNodes bug (fromTape seed protocolConfig tape)).queue.entries =
        [⟨0, 0, .pollTask 0⟩, ⟨0, 1, .pollTask 1⟩, ⟨0, 2, .pollTask 2⟩, ⟨0, 3, .pollTask 3⟩] := rfl
    intro event member
    rw [KeyedQueue.mem_def, queued] at member
    simp only [List.mem_cons, List.not_mem_nil, or_false] at member
    rcases member with rfl | rfl | rfl | rfl <;> rintro _ ⟨⟩
  finite := show (2000000000 : UInt64).toNat < u64Max by decide
  cut _ _ bars := absurd bars.1 whole

/-- The nemesis comes first, and nothing was sent before. -/
theorem cut_calm (starts : Starts (fromTape seed protocolConfig tape : Hosted Local)) :
    ∃ event next, turn ((store bug).program pace) (withNodes bug ((fromTape seed protocolConfig
        tape).pushEvent 0 (.nemesis (.asymmetricPartition 0 1)))) = .next event next ∧
      Calm (store bug) pace noPlans (barred bug) true next := by
  have scheduled : ReachableUnder ((store bug).program pace) noPlans
      (conditions Empty (store bug) (barred bug) true) ((fromTape seed protocolConfig tape).pushEvent
        0 (.nemesis (.asymmetricPartition 0 1))) :=
    ⟨_, starts, .single (Step.operate (.scheduleNemesis 0 (.asymmetricPartition 0 1))
      (UInt64.le_refl 0))⟩
  obtain ⟨start, starts, steps⟩ := withNodes_under scheduled
  refine ⟨⟨0, 0, .nemesis (.asymmetricPartition 0 1)⟩, _, rfl, ⟨start, starts, ?_⟩, ?_, ?_, ?_⟩
  · exact steps.tail (Step.turn rfl ⟨show (2000000000 : UInt64).toNat < u64Max by decide, trivial⟩)
  · intro event member
    change event ∈ [_, _, _, _] at member
    simp only [List.mem_cons, List.not_mem_nil, or_false] at member
    rcases member with rfl | rfl | rfl | rfl <;> rintro _ ⟨⟩
  · exact show (2000000000 : UInt64).toNat < u64Max by decide
  · rintro _ _ ⟨_, rfl, rfl⟩
    rfl

theorem store_run_refines :
    ∃ system returned,
      ReachedUnder (deployment .correct 4) (KvSystem.start .correct)
        (Passes (barred .correct) true) system ∧
      Hosting.Shows (store .correct) (run ((store .correct).program 16)
        (withNodes .correct (replay 0 [] protocolConfig))).world system returned :=
  hosted_run_refines (store .correct) 16 noPlans (barred .correct) true _
    (withNodes_calm ⟨0, protocolConfig, Or.inr ⟨[], rfl⟩⟩ (by decide)).run

/-- The run of the experiment meets the conditions, whatever is drawn in it. -/
theorem runReplicatedKvVariant_under (bug : KvBugVariant) (pace : Nat) (payload : Message → String)
    (starts : Starts (fromTape seed protocolConfig tape : Hosted Local)) :
    ReachableUnder ((store bug).program pace) noPlans
      (conditions Empty (store bug) (barred bug) true)
      ((runReplicatedKvVariant bug).play ((store bug).program pace) noPlans payload
        (fromTape seed protocolConfig tape)) := by
  by_cases cut : bug = .ackBeforeReplicate
  · obtain ⟨event, next, turned, calm⟩ := cut_calm starts
    rw [runReplicatedKvVariant, if_pos cut]
    change ReachableUnder _ _ _ (run _ (withNodes bug ((fromTape seed protocolConfig tape).pushEvent
      0 (.nemesis (.asymmetricPartition 0 1))))).world
    rw [run_next turned]
    exact calm.run
  · rw [runReplicatedKvVariant, if_neg cut]
    exact (withNodes_calm starts cut).run

end Worlds

end KvVariants

end Detersim
