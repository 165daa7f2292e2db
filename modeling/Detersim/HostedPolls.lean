import Detersim.ClockSteps
import Detersim.HostedMedium

/-!
One poll of a hosted party is a number of its own steps: it sends, reads the clock
and takes what has arrived, until it has to wait or returns.
-/

namespace Detersim

/-- The future as it was made. -/
def Leaf.plain : Leaf → Leaf
  | .sleep node deadline _ => .sleep node deadline none
  | .recv node _ => .recv node none
  | .join slot _ => .join slot none

namespace Inner

variable {State Value : Type}

/-- No task begins or moves, and no future turns into another one. -/
structure Stays (g after : Inner State Value) : Prop where
  tasks : ∀ task slot, after.tasks.get task = some slot → g.tasks.get task = some slot
  nodes : after.nodes = g.nodes
  history : after.history = g.history
  nextFuture : g.nextFuture ≤ after.nextFuture
  futures : ∀ id held, after.futures.get id = some held → id < g.nextFuture →
    ∃ old, g.futures.get id = some old ∧ old.owner = held.owner ∧ old.leaf.plain = held.leaf.plain

namespace Stays

variable {g after : Inner State Value}

theorem trans {first second third : Inner State Value} (left : Stays first second)
    (right : Stays second third) : Stays first third where
  tasks task slot present := left.tasks task slot (right.tasks task slot present)
  nodes := right.nodes.trans left.nodes
  history := right.history.trans left.history
  nextFuture := left.nextFuture.trans right.nextFuture
  futures id held present below := by
    obtain ⟨middle, found, owner, leaf⟩ :=
      right.futures id held present (below.trans_le left.nextFuture)
    obtain ⟨old, first, owner', leaf'⟩ := left.futures id middle found below
    exact ⟨old, first, owner'.trans owner, leaf'.trans leaf⟩

/-- Only fields that have nothing to do with tasks are set. -/
theorem still (tasks : after.tasks = g.tasks) (nodes : after.nodes = g.nodes)
    (history : after.history = g.history) (futures : after.futures = g.futures)
    (nextFuture : after.nextFuture = g.nextFuture) : Stays g after where
  tasks _ _ present := tasks ▸ present
  nodes
  history
  nextFuture := nextFuture.ge
  futures _ held present _ := ⟨held, futures ▸ present, rfl, rfl⟩

theorem refl (g : Inner State Value) : Stays g g := still rfl rfl rfl rfl rfl

end Stays

/-- A step that only the queue and the futures of the running task can tell. -/
structure Quiet (g after : Inner State Value) : Prop where
  fades : Fades g after
  stays : Stays g after
  current : after.currentTask = g.currentTask

namespace Quiet

theorem refl (g : Inner State Value) : Quiet g g := ⟨Fades.refl g, Stays.refl g, rfl⟩

theorem trans {first second third : Inner State Value} (left : Quiet first second)
    (right : Quiet second third) : Quiet first third :=
  ⟨left.fades.trans right.fades, left.stays.trans right.stays, right.current.trans left.current⟩

theorem enqueueAll (tasks : List TaskId) (g : Inner State Value) :
    Quiet g (tasks.foldl enqueuePollNow g) := by
  induction tasks generalizing g with
  | nil => exact refl g
  | cons task rest ih =>
      have pushed : Quiet g (g.enqueuePollNow task) :=
        ⟨Fades.push g g.now _ (UInt64.le_refl _) rfl, Stays.still rfl rfl rfl rfl rfl, rfl⟩
      exact pushed.trans (ih _)

/-- Futures are removed, or registered otherwise. -/
theorem ofFutures (g : Inner State Value) (futures : SortedMap FutureId Held)
    (shrinks : ∀ id held, futures.get id = some held →
      ∃ old, g.futures.get id = some old ∧ old.owner = held.owner ∧
        old.leaf.plain = held.leaf.plain) : Quiet g { g with futures } :=
  ⟨Fades.still rfl rfl rfl rfl rfl rfl,
    { Stays.refl g with futures := fun id held present _ => shrinks id held present }, rfl⟩

theorem forget (g : Inner State Value) (id : FutureId) : Quiet g (g.forget id) := by
  refine ofFutures g _ fun other held present => ?_
  rw [SortedMap.get_remove] at present
  split_ifs at present
  exact ⟨held, present, rfl, rfl⟩

theorem setLeaf (g : Inner State Value) {id : FutureId} {held : Held} {leaf : Leaf}
    (present : g.futures.get id = some held) (plain : held.leaf.plain = leaf.plain) :
    Quiet g (g.setLeaf id held leaf) := by
  refine ofFutures g _ fun other found member => ?_
  rw [SortedMap.get_insert] at member
  split_ifs at member with same
  · cases member
    exact ⟨held, same ▸ present, rfl, plain⟩
  · exact ⟨found, member, rfl, rfl⟩

theorem release (g : Inner State Value) (id : FutureId) : Quiet g (g.release id) := by
  obtain ⟨timers, recvWaiters, slots, shape, _⟩ := release_shape g id
  rw [shape]
  have forgot := forget g id
  exact forgot.trans
    ⟨Fades.still rfl rfl rfl rfl rfl rfl, Stays.still rfl rfl rfl rfl rfl, rfl⟩

theorem releaseAll (ids : List FutureId) (g : Inner State Value) :
    Quiet g (ids.foldl Inner.release g) := by
  induction ids generalizing g with
  | nil => exact refl g
  | cons id rest ih => exact (release g id).trans (ih _)

theorem discard (g : Inner State Value) (gone : TaskId → Bool) : Quiet g (g.discard gone) := by
  have lost := ofFutures g (g.futures.retain fun _ held => !held.owner.any gone)
    fun id held present => by
      rw [SortedMap.get_retain] at present
      exact ⟨held, (Option.filter_eq_some_iff.mp present).1, rfl, rfl⟩
  exact lost.trans ⟨Fades.still rfl rfl rfl rfl rfl rfl, Stays.still rfl rfl rfl rfl rfl, rfl⟩

/-- A crash takes away, and adds nothing. -/
theorem crash (g : Inner State Value) (node : NodeId) : Quiet g (g.crashNode node) := by
  unfold crashNode
  by_cases unknown : node ∉ g.nodes
  · rw [if_pos unknown]
    exact refl g
  rw [if_neg unknown]
  have discarded := discard g fun task =>
    (g.tasks.get task).any fun slot => decide (slot.node = node)
  refine discarded.trans ⟨?_, ?_, rfl⟩
  · refine ⟨rfl, rfl, rfl, fun _ _ => Or.inl, ?_, ?_, ?_⟩
    · intro other
      change (((g.inboxes.remove node).get other).getD []).Sublist ((g.inboxes.get other).getD [])
      rw [SortedMap.get_remove]
      split_ifs
      · exact List.nil_sublist _
      · exact List.Sublist.refl _
    · exact KeyedQueue.select_retain_le g.queue isDelivery _
    · exact fun event member => Or.inl ((KeyedQueue.mem_retain _ _ event).mp member).1
  · refine ⟨fun task slot present => ?_, rfl, rfl, le_rfl,
      fun _ held present _ => ⟨held, present, rfl, rfl⟩⟩
    change (g.tasks.retain _).get task = some slot at present
    rw [SortedMap.get_retain] at present
    exact (Option.filter_eq_some_iff.mp present).1

/-- Neither a restart nor a skew. -/
theorem nemesis (g : Inner State Value) {action : NemesisAction}
    (restart : ∀ node, action ≠ .restart node)
    (skew : ∀ node offsetNs, action ≠ .clockSkew node offsetNs) : Quiet g (g.applyNemesis action) := by
  cases action with
  | crash node =>
      have noted : Quiet g { g with nemesisTrace := g.nemesisTrace ++ [.crash node] } :=
        ⟨Fades.still rfl rfl rfl rfl rfl rfl, Stays.still rfl rfl rfl rfl rfl, rfl⟩
      exact noted.trans (crash _ node)
  | bitRot node =>
      simp only [applyNemesis]
      split <;> exact
        ⟨Fades.still rfl rfl rfl rfl rfl rfl, Stays.still rfl rfl rfl rfl rfl, rfl⟩
  | restart node => exact absurd rfl (restart node)
  | clockSkew node offsetNs => exact absurd rfl (skew node offsetNs)
  | partition | asymmetricPartition | setLink | healAll | tornWrite | lostOnCrash
  | preFsyncReorder =>
      exact ⟨Fades.still rfl rfl rfl rfl rfl rfl, Stays.still rfl rfl rfl rfl rfl, rfl⟩

theorem unregister (g : Inner State Value) (node : NodeId) (task : TaskId) :
    Quiet g (g.unregisterRecvWaiter node task) := by
  unfold unregisterRecvWaiter
  split
  · exact refl g
  · exact ⟨Fades.still rfl rfl rfl rfl rfl rfl, Stays.still rfl rfl rfl rfl rfl, rfl⟩

theorem registerTimer (g : Inner State Value) (task : TaskId) {limit : SimTime}
    (later : g.now ≤ limit) : Quiet g (g.registerTimer task limit).2 := by
  have named : Quiet g { g with
      nextTimerId := g.nextTimerId + 1, timers := g.timers.insert g.nextTimerId task } :=
    ⟨Fades.still rfl rfl rfl rfl rfl rfl, Stays.still rfl rfl rfl rfl rfl, rfl⟩
  exact named.trans ⟨Fades.push _ limit _ later rfl, Stays.still rfl rfl rfl rfl rfl, rfl⟩

/-- A future is made. -/
theorem hold (g : Inner State Value) (leaf : Leaf) : Quiet g (g.hold leaf).2 := by
  refine ⟨Fades.still rfl rfl rfl rfl rfl rfl, ?_, rfl⟩
  refine { Stays.refl g with nextFuture := Nat.le_succ _, futures := ?_ }
  intro id found present below
  change (g.futures.insert g.nextFuture _).get id = some found at present
  rw [SortedMap.get_insert_of_ne _ _ (Nat.ne_of_lt below)] at present
  exact ⟨found, present, rfl, rfl⟩

theorem drawn {g after : Inner State Value} (moved : TapeMoved g after) : Quiet g after := by
  obtain ⟨tape, _, _, rfl⟩ := moved
  exact ⟨Fades.still rfl rfl rfl rfl rfl rfl, Stays.still rfl rfl rfl rfl rfl, rfl⟩

end Quiet

theorem runDraws_moves {Result : Type} (draws : Draws Result) (g : Inner State Value) :
    TapeMoved g (runDraws draws g).2 := by
  induction draws generalizing g with
  | done result => exact TapeMoved.refl g
  | draw label next ih => exact (draw_moves g _).trans (ih _ _)

end Inner

namespace Hosting

open Datagrams

variable {Party : Type} {Local : Party → Type}

/-- What a party at a point waits for, if it has to wait. -/
def Host.leaf (host : Host Party Local) (party : Party) (point : Local party) : Option Leaf :=
  match host.deployment.code party point, host.deadline party point with
  | .recv _, _ => some (.recv (host.deployment.address party) none)
  | .now _, some limit => some (.sleep (host.deployment.address party) limit none)
  | _, _ => none

/-- The future, as long as the task holds it, is the one to wait for. -/
structure Waits (host : Host Party Local) (g : Hosted Local) (task : TaskId) (party : Party)
    (point : Local party) (id : FutureId) : Prop where
  below : id < g.nextFuture
  fits : ∀ held, g.futures.get id = some held → held.owner = some task →
    host.leaf party point = some held.leaf.plain

/-- A task that is not running is at its party's point. -/
structure Seated (host : Host Party Local) (g : Hosted Local)
    (system : System NodeId String SimTime Local) (task : TaskId) (slot : TaskSlot (Seat Local))
    (future : TaskFuture (Seat Local)) : Prop where
  home : slot.node = host.deployment.address future.state.party
  free : future.slot = none
  here : system.locals future.state.party = future.state.point
  waits : ∀ id, future.state.holding = some id →
    Waits host g task future.state.party future.state.point id

/-- The tasks of the parties; `returned` lists those that ended, in this order. -/
structure Seating (host : Host Party Local) (g : Hosted Local)
    (system : System NodeId String SimTime Local) (returned : List Party) : Prop where
  fresh : ∀ party, host.deployment.address party ∉ g.nodes →
    system.locals party = host.start party
  seats : ∀ task slot future, g.tasks.get task = some slot → slot.future = some future →
    Seated host g system task slot future
  alone : ∀ task other slot slot', g.tasks.get task = some slot → g.tasks.get other = some slot' →
    slot.node = slot'.node → task = other
  housed : ∀ task slot, g.tasks.get task = some slot → slot.node ∈ g.nodes
  history : g.history = returned.flatMap fun party => host.results party (system.locals party)
  once : returned.Nodup
  gone : ∀ party ∈ returned,
    host.deployment.code party (system.locals party) = .ended ∧
      host.deployment.address party ∈ g.nodes ∧
      ∀ task slot, g.tasks.get task = some slot → slot.node ≠ host.deployment.address party

variable {host : Host Party Local} {barred : NodeId → NodeId → Prop} {single : Bool}
  {g after : Hosted Local} {system : System NodeId String SimTime Local} {returned : List Party}
  {task : TaskId} {party : Party} {point : Local party}

theorem Waits.stay {id : FutureId} (waits : Waits host g task party point id)
    (stays : g.Stays after) : Waits host after task party point id where
  below := waits.below.trans_le stays.nextFuture
  fits held present owner := by
    obtain ⟨old, found, owner', leaf⟩ := stays.futures id held present waits.below
    rw [waits.fits old found (owner'.trans owner), leaf]

theorem Seating.stay (seating : Seating host g system returned) (stays : g.Stays after) :
    Seating host after system returned where
  fresh party unknown := seating.fresh party (stays.nodes ▸ unknown)
  seats task slot future present ready := by
    have seated := seating.seats task slot future (stays.tasks task slot present) ready
    exact { seated with waits := fun id holding => (seated.waits id holding).stay stays }
  alone task other slot slot' first second :=
    seating.alone task other slot slot' (stays.tasks _ _ first) (stays.tasks _ _ second)
  housed task slot present := stays.nodes ▸ seating.housed task slot (stays.tasks task slot present)
  history := stays.history.trans seating.history
  once := seating.once
  gone party member := by
    obtain ⟨ended, known, vacant⟩ := seating.gone party member
    exact ⟨ended, stays.nodes ▸ known,
      fun task slot present => vacant task slot (stays.tasks task slot present)⟩

/-- The task of a party is being polled. -/
structure Running (host : Host Party Local) (barred : NodeId → NodeId → Prop) (single : Bool)
    (returned : List Party) (task : TaskId) (party : Party) (g : Hosted Local)
    (system : System NodeId String SimTime Local) (point : Local party) : Prop where
  medium : Medium host barred single g system
  seating : Seating host g system returned
  current : g.currentTask = some task
  own : ∀ slot, g.tasks.get task = some slot → slot.node = host.deployment.address party
  vacant : ∀ other slot, g.tasks.get other = some slot →
    slot.node = host.deployment.address party → other = task ∧ slot.future = none
  unreturned : party ∉ returned
  registered : host.deployment.address party ∈ g.nodes
  here : system.locals party = point

theorem Running.quiet (running : Running host barred single returned task party g system point)
    (quiet : g.Quiet after) :
    Running host barred single returned task party after system point where
  medium := running.medium.fade quiet.fades
  seating := running.seating.stay quiet.stays
  current := quiet.current.trans running.current
  own slot present := running.own slot (quiet.stays.tasks task slot present)
  vacant other slot present := running.vacant other slot (quiet.stays.tasks other slot present)
  unreturned := running.unreturned
  registered := quiet.stays.nodes ▸ running.registered
  here := running.here

/-- The running party goes on to another point. -/
theorem Running.move [DecidableEq Party]
    (running : Running host barred single returned task party g system point)
    {moved : System NodeId String SimTime Local} {next : Local party}
    (locals : moved.locals = (system.become party next).locals) (stays : g.Stays after)
    (current : after.currentTask = g.currentTask) (medium : Medium host barred single after moved) :
    Running host barred single returned task party after moved next := by
  have other {own : Party} (different : own ≠ party) : moved.locals own = system.locals own := by
    rw [locals, System.become_other _ _ different]
  have here : moved.locals party = next := by rw [locals, System.become_self]
  have seating : Seating host g moved returned := by
    have seating := running.seating
    refine { seating with fresh := ?_, seats := ?_, history := ?_, gone := ?_ }
    · intro own unknown
      have different : own ≠ party := by
        rintro rfl
        exact unknown running.registered
      rw [other different]
      exact seating.fresh own unknown
    · intro task' slot future present ready
      have seated := seating.seats task' slot future present ready
      refine { seated with here := ?_ }
      rw [other ?_]
      · exact seated.here
      · intro same
        have taken := (running.vacant task' slot present (same ▸ seated.home)).2
        exact nomatch ready.symm.trans taken
    · rw [seating.history]
      refine List.flatMap_congr fun own member => ?_
      rw [other fun same => running.unreturned (same ▸ member)]
    · intro own member
      rw [other fun same => running.unreturned (same ▸ member)]
      exact seating.gone own member
  exact {
    medium
    seating := seating.stay stays
    current := current.trans running.current
    own := fun slot present => running.own slot (stays.tasks task slot present)
    vacant := fun other slot present => running.vacant other slot (stays.tasks other slot present)
    unreturned := running.unreturned
    registered := stays.nodes ▸ running.registered
    here }

/-! Polls of futures. -/

/-- What the poll of a future does: `wanted` is the future as it was made. -/
inductive PollOutcome (g : Hosted Local) (wanted : Option Leaf) :
    Reply Unit × Hosted Local → Prop where
  | panicked {last} (quiet : g.Quiet last) : PollOutcome g wanted (.panicked, last)
  | pending {last} (quiet : g.Quiet last) : PollOutcome g wanted (.pending, last)
  | ready {last node limit} (made : wanted = some (.sleep node limit none)) (due : limit ≤ g.now)
      (quiet : g.Quiet last) : PollOutcome g wanted (.ready, last)
  | message {last node msg rest} (audit : Audit) (made : wanted = some (.recv node none))
      (arrived : g.inboxes.get node = some (msg :: rest))
      (quiet : Inner.Quiet { g with inboxes := g.inboxes.insert node rest, audit } last) :
      PollOutcome g wanted (.message msg.1 msg.2, last)

/-- Clocks show the time. -/
theorem Medium.localNow (medium : Medium host barred single g system) (node : NodeId) :
    (g.localNow node).1 = g.now ∧ g.Quiet (g.localNow node).2 := by
  have same : clampU64 (g.now.toNat + g.skewOf node) = g.now := by
    rw [medium.steady node, add_zero, clampU64, Int.toNat_natCast,
      Nat.min_eq_left (toNat_le_u64Max _), UInt64.ofNat_toNat]
  have shown : (g.localNow node).1 = g.now := by
    unfold Inner.localNow
    dsimp only
    rw [same]
    cases present : g.lastLocalNow.get node with
    | none =>
        rw [Option.getD_none]
        split_ifs with later
        · rfl
        · exact UInt64.le_antisymm (UInt64.zero_le) (UInt64.not_lt.mp later)
    | some last =>
        have before := medium.read node last present
        rw [Option.getD_some]
        split_ifs with later
        · rfl
        · exact UInt64.le_antisymm before (UInt64.not_lt.mp later)
  refine ⟨shown, ?_, Inner.Stays.still rfl rfl rfl rfl rfl, rfl⟩
  refine { Inner.Fades.refl g with read := fun other last present => ?_ }
  change (g.lastLocalNow.insert node (g.localNow node).1).get other = some last at present
  rw [SortedMap.get_insert] at present
  split_ifs at present with named
  · exact Or.inr ((Option.some.inj present).symm.trans shown)
  · exact Or.inl present

theorem leaf_sleep {node : NodeId} {limit : SimTime}
    (made : host.leaf party point = some (.sleep node limit none)) :
    ∃ next, host.deployment.code party point = .now next ∧
      host.deadline party point = some limit := by
  rw [Host.leaf] at made
  split at made
  · cases made
  next next limit' code asleep =>
    cases made
    exact ⟨next, code, asleep⟩
  · cases made

theorem leaf_recv {node : NodeId} (made : host.leaf party point = some (.recv node none)) :
    ∃ next, host.deployment.code party point = .recv next ∧
      node = host.deployment.address party := by
  rw [Host.leaf] at made
  split at made
  next next code =>
    cases made
    exact ⟨next, code, rfl⟩
  · cases made
  · cases made

theorem leaf_not_join (slot : SlotId) (waitingTask : Option TaskId) :
    host.leaf party point ≠ some (.join slot waitingTask) := by
  rw [Host.leaf]
  split <;> simp

theorem globalFromLocalDeadline_later (g : Hosted Local) (node : NodeId) (limit : SimTime) :
    g.now ≤ g.globalFromLocalDeadline node limit := by
  unfold Inner.globalFromLocalDeadline
  dsimp only
  split_ifs with early
  · exact UInt64.le_refl _
  · exact UInt64.not_lt.mp early

theorem pollSleep_outcome (medium : Medium host barred single g system) {id : FutureId}
    {held : Held} {node : NodeId} {limit : SimTime} {timer : Option TimerId}
    (present : g.futures.get id = some held) (leaf : held.leaf = .sleep node limit timer) :
    PollOutcome g (some (.sleep node limit none)) (g.pollSleep id held node limit timer) := by
  obtain ⟨shown, read⟩ := medium.localNow node
  have found : (g.localNow node).2.futures.get id = some held := present
  have later : (g.localNow node).2.now ≤ (g.localNow node).2.globalFromLocalDeadline node limit :=
    globalFromLocalDeadline_later _ node limit
  unfold Inner.pollSleep
  generalize g.localNow node = reading at shown read found later ⊢
  obtain ⟨localTime, g'⟩ := reading
  dsimp only at shown read found later ⊢
  subst shown
  split_ifs with due
  · refine .ready rfl due (read.trans ?_)
    cases timer with
    | none => exact Inner.Quiet.forget g' id
    | some timer =>
        have cancelled : Inner.Quiet g' (g'.cancelTimer timer) :=
          ⟨Inner.Fades.still rfl rfl rfl rfl rfl rfl, Inner.Stays.still rfl rfl rfl rfl rfl, rfl⟩
        exact cancelled.trans (Inner.Quiet.forget _ id)
  · split
    · exact .pending read
    · split
      · exact .panicked (read.trans (Inner.Quiet.setLeaf g' found (by rw [leaf]; rfl)))
      next task _ =>
        refine .pending (read.trans ?_)
        have armed := Inner.Quiet.registerTimer g' task later
        exact armed.trans (Inner.Quiet.setLeaf _ found (by rw [leaf]; rfl))

theorem pollRecv_outcome (current : g.currentTask = some task) {id : FutureId} {held : Held}
    {node : NodeId} {registeredTask : Option TaskId} (present : g.futures.get id = some held)
    (leaf : held.leaf = .recv node registeredTask) :
    PollOutcome g (some (.recv node none)) (g.pollRecv id held node registeredTask) := by
  unfold Inner.pollRecv
  split
  next msg rest arrived =>
    let audit := { g.audit with taken := g.audit.taken ++ [(node, Taking.received id, msg)] }
    refine .message audit rfl arrived ?_
    cases registeredTask with
    | none => exact Inner.Quiet.forget _ id
    | some task => exact (Inner.Quiet.unregister _ node task).trans (Inner.Quiet.forget _ id)
  · rw [current]
    refine .pending ?_
    have registered : Inner.Quiet g (g.registerRecvWaiter node task) :=
      ⟨Inner.Fades.still rfl rfl rfl rfl rfl rfl, Inner.Stays.still rfl rfl rfl rfl rfl, rfl⟩
    have plain : held.leaf.plain = (Leaf.recv node (some task)).plain := by rw [leaf]; rfl
    have set := registered.trans (Inner.Quiet.setLeaf _ present plain)
    exact set.trans ⟨Inner.Fades.still rfl rfl rfl rfl rfl rfl,
      Inner.Stays.still rfl rfl rfl rfl rfl, rfl⟩

theorem poll_outcome (medium : Medium host barred single g system)
    (current : g.currentTask = some task) {id : FutureId}
    (waits : Waits host g task party point id) :
    PollOutcome g (host.leaf party point) (g.perform (.poll id)) := by
  rw [Inner.perform]
  split
  · exact .panicked (Inner.Quiet.refl g)
  next held present =>
    split_ifs with owner
    · have fits := waits.fits held present (owner.trans current)
      rw [fits, Inner.pollLeaf]
      cases leaf : held.leaf with
      | sleep node limit timer => exact pollSleep_outcome medium present leaf
      | recv node registeredTask => exact pollRecv_outcome current present leaf
      | join slot waitingTask =>
          rw [leaf] at fits
          exact absurd fits (leaf_not_join slot none)
    · exact .panicked (Inner.Quiet.refl g)

/-! The steps of a party in one poll. -/

section Steps

variable [DecidableEq Party] (host barred single returned task)

/-- How the code of a poll ends, and that the parties could have come there. -/
inductive Ends (party : Party) : TaskPoll (Seat Local) Unit × Hosted Local → Prop where
  | parks {system point last holding}
      (reached : ReachedUnder host.deployment host.system (Passes barred single) system)
      (running : Running host barred single returned task party last system point)
      (waits : ∀ id, holding = some id → Waits host last task party point id) :
      Ends party (.pending ⟨party, point, holding⟩, last)
  | returns {system point last}
      (reached : ReachedUnder host.deployment host.system (Passes barred single) system)
      (running : Running host barred single returned task party last system point)
      (ended : host.deployment.code party point = .ended) :
      Ends party (.ready (), { last with history := last.history ++ host.results party point })

/-- What is to be shown of code that goes on from a point. -/
def Proceeds (follow : (party : Party) → Local party → HostedPoll Local) (party : Party) : Prop :=
  ∀ g system point, ReachedUnder host.deployment host.system (Passes barred single) system →
    Running host barred single returned task party g system point →
    Ends host barred single returned task party (g.exec (follow party point))

variable {host barred single returned task}

theorem act_reached {next : System NodeId String SimTime Local}
    (reached : ReachedUnder host.deployment host.system (Passes barred single) system)
    (happens : Happens host.deployment system (.act party) next) :
    ReachedUnder host.deployment host.system (Passes barred single) next := by
  have allowed : Passes barred single system (.act party) := trivial
  exact reached.step allowed happens

theorem halt_ends
    (reached : ReachedUnder host.deployment host.system (Passes barred single) system)
    (running : Running host barred single returned task party g system point) :
    Ends host barred single returned task party (g.exec (Host.halt party point)) :=
  .parks reached running nofun

theorem answered_ends {follow : (party : Party) → Local party → HostedPoll Local}
    (proceeds : Proceeds host barred single returned task follow party)
    (reached : ReachedUnder host.deployment host.system (Passes barred single) system)
    (running : Running host barred single returned task party g system point) {id : FutureId}
    (waits : Waits host g task party point id) :
    Ends host barred single returned task party
      (g.exec (.call (.poll id) (host.answered follow party point id))) := by
  have outcome := poll_outcome running.medium running.current waits
  rw [Inner.exec]
  generalize g.perform (.poll id) = result at outcome ⊢
  cases outcome with
  | panicked quiet => exact halt_ends reached (running.quiet quiet)
  | pending quiet =>
      refine .parks reached (running.quiet quiet) ?_
      rintro _ ⟨⟩
      exact waits.stay quiet.stays
  | ready made due quiet =>
      obtain ⟨next, code, asleep⟩ := leaf_sleep made
      have woken : next system.now = next _ :=
        host.wakes party point _ next asleep code system.now (running.medium.now ▸ due)
      have stands : host.deployment.code party (system.locals party) = .now next :=
        running.here ▸ code
      have moved := running.move rfl quiet.stays quiet.current
        ((running.medium.fade quiet.fades).become party (next system.now))
      simp only [Host.answered, code, asleep, ← woken]
      exact proceeds _ _ _ (act_reached reached (.now stands)) moved
  | @message last node msg rest audit made arrived quiet =>
      obtain ⟨next, code, rfl⟩ := leaf_recv made
      obtain ⟨packet, member, from_, receiver, decoded, early, passes, fewer, medium⟩ :=
        running.medium.receive arrived audit
      have stands : host.deployment.code party (system.locals party) = .recv next :=
        running.here ▸ code
      have happens := Happens.recv member receiver early stands
      have allowed : Passes barred single system (.deliver party packet) := by
        rw [Passes, Sparing, from_, receiver]
        exact ⟨passes, fewer⟩
      have taken : g.Stays { g with
          inboxes := g.inboxes.insert (host.deployment.address party) rest, audit } :=
        Inner.Stays.still rfl rfl rfl rfl rfl
      have moved : Running host barred single returned task party last
          ((system.become party (next packet.sender packet.msg)).handOver packet)
          (next packet.sender packet.msg) :=
        running.move rfl (taken.trans quiet.stays) quiet.current ((medium.fade quiet.fades).become party _)
      simp only [Host.answered, code, decoded]
      rw [← from_]
      exact proceeds _ _ _ (reached.step allowed happens) moved

theorem await_ends {follow : (party : Party) → Local party → HostedPoll Local}
    (proceeds : Proceeds host barred single returned task follow party)
    (reached : ReachedUnder host.deployment host.system (Passes barred single) system)
    (running : Running host barred single returned task party g system point) {leaf : Leaf}
    (made : host.leaf party point = some leaf) (plain : leaf.plain = leaf) {op : Op (Seat Local)}
    (holds : g.perform op = g.hold leaf) :
    Ends host barred single returned task party (g.exec (.call op (host.await follow party point))) := by
  rw [Inner.exec, holds]
  refine answered_ends proceeds reached (running.quiet (Inner.Quiet.hold g leaf))
    ⟨Nat.lt_succ_self _, ?_⟩
  intro found present _
  change (g.futures.insert g.nextFuture _).get g.nextFuture = some found at present
  rw [SortedMap.get_insert_self] at present
  cases present
  rw [made, plain]

omit [DecidableEq Party] in
theorem recordAll_exec (env : NodeId) (lines : List String) (g : Hosted Local) :
    g.exec (Host.recordAll env lines) = (.ready (), { g with history := g.history ++ lines }) := by
  induction lines generalizing g with
  | nil => simp [Host.recordAll, Inner.exec]
  | cons line rest ih =>
      rw [Host.recordAll, Inner.exec]
      refine (ih _).trans ?_
      simp [Inner.perform]

/-- A send of the running party: it went out, or the party halts. -/
theorem send_moves
    (running : Running host barred single returned task party g system point) (receiver : NodeId)
    (msg : String) (next : Local party) :
    (∃ last, g.send (host.deployment.address party) receiver (host.encode msg) = (.unit, last) ∧
      Running host barred single returned task party last
        ((system.become party next).send (host.deployment.address party) receiver msg) next) ∨
    ∃ last, g.send (host.deployment.address party) receiver (host.encode msg) = (.panicked, last) ∧
      g.Quiet last := by
  by_cases down : host.deployment.address party ∈ g.crashed
  · refine Or.inl ⟨_, by rw [Inner.send, if_pos down], ?_⟩
    have nothing : g.Copies (host.deployment.address party) receiver (host.encode msg) [] :=
      ⟨fun _ absent => absurd absent List.not_mem_nil, fun _ absent => absurd absent List.not_mem_nil,
        fun _ => Nat.zero_le 1⟩
    exact running.move rfl (Inner.Stays.still rfl rfl rfl rfl rfl) rfl
      ((running.medium.become party next).send nothing g.seq g.tape _ g.audit)
  · obtain ⟨moved, ⟨tape, _, _, rfl⟩, panicked | ⟨events, seq, sends, copies, sent⟩⟩ :=
      g.send_copies (host.deployment.address party) receiver (host.encode msg) down
    · refine Or.inr ⟨_, panicked, ?_⟩
      exact ⟨Inner.Fades.still rfl rfl rfl rfl rfl rfl, Inner.Stays.still rfl rfl rfl rfl rfl, rfl⟩
    · refine Or.inl ⟨_, sent, ?_⟩
      exact running.move rfl (Inner.Stays.still rfl rfl rfl rfl rfl) rfl
        ((running.medium.become party next).send copies seq tape g.trace _)

theorem follow_ends (pace : Nat) :
    Proceeds host barred single returned task (host.follow pace) party := by
  induction pace with
  | zero => exact fun _ _ _ reached running => halt_ends reached running
  | succ pace ih =>
      intro g system point reached running
      have stands := running.here
      rw [Host.follow]
      cases code : host.deployment.code party point with
      | send receiver msg next =>
          have here : host.deployment.code party (system.locals party) = .send receiver msg next :=
            stands ▸ code
          rw [Inner.exec, Inner.perform]
          obtain ⟨last, sent, moved⟩ | ⟨last, panicked, quiet⟩ :=
            send_moves running receiver msg next
          · rw [sent]
            exact ih _ _ _ (act_reached reached (.send here)) moved
          · rw [panicked]
            exact halt_ends reached (running.quiet quiet)
      | recv next =>
          have made : host.leaf party point = some (.recv (host.deployment.address party) none) := by
            rw [Host.leaf, code]
          exact await_ends ih reached running made rfl rfl
      | now next =>
          cases asleep : host.deadline party point with
          | some limit =>
              have made : host.leaf party point =
                  some (.sleep (host.deployment.address party) limit none) := by
                rw [Host.leaf, code, asleep]
              exact await_ends ih reached running made rfl rfl
          | none =>
              obtain ⟨shown, quiet⟩ := running.medium.localNow (host.deployment.address party)
              have here : host.deployment.code party (system.locals party) = .now next :=
                stands ▸ code
              have moved := running.move rfl quiet.stays quiet.current
                ((running.medium.fade quiet.fades).become party (next system.now))
              have proceeds := ih _ _ _ (act_reached reached (.now here)) moved
              rw [running.medium.now, ← shown] at proceeds
              exact proceeds
      | ended =>
          refine (recordAll_exec _ _ g).symm ▸ ?_
          exact .returns reached running code

theorem program_ends (pace : Nat)
    (reached : ReachedUnder host.deployment host.system (Passes barred single) system)
    {holding : Option FutureId}
    (running : Running host barred single returned task party g system point)
    (waits : ∀ id, holding = some id → Waits host g task party point id) :
    Ends host barred single returned task party
      (g.exec (host.program pace ⟨party, point, holding⟩)) := by
  cases holding with
  | none => exact follow_ends pace _ _ _ reached running
  | some id => exact answered_ends (follow_ends pace) reached running (waits id rfl)

end Steps

end Hosting

end Detersim
