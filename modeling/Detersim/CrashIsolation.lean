import Detersim.Locality

/-!
Crash isolation. A crashed node has nothing left that could run or be heard of,
except a timer that was armed for a task already finished; what ran on it never
runs again, later messages to and from it are younger than the crash, and the
crash itself leaves the other nodes as they were.
-/

namespace Detersim

namespace Inner

variable {State Value Plan : Type}

/-- What is left of the nodes that are down; `strict` adds their timers. -/
structure Clean (strict : Prop) (g : Inner State Value) : Prop where
  tasks : ∀ task slot, g.tasks.get task = some slot → slot.node ∉ g.crashed
  timers : strict → ∀ timer task node, g.timers.get timer = some task →
    g.audit.homes.get task = some node → node ∉ g.crashed
  inboxes : ∀ node ∈ g.crashed, g.inboxes.get node = none
  waiters : ∀ node ∈ g.crashed, g.recvWaiters.get node = none
  senders : ∀ event ∈ g.queue, ∀ sender receiver msg,
    event.kind = .deliverMsg sender receiver msg → sender ∉ g.crashed

section Effects

variable {strict : Prop} {own : NodeId} {fills : SlotId → Prop} {outside : Prop}

theorem Clean.ofPush {g : Inner State Value} (clean : Clean strict g) (queue : EventQueue)
    (senders : ∀ event ∈ queue, event ∈ g.queue ∨ ∀ sender receiver msg,
      event.kind = .deliverMsg sender receiver msg → sender ∉ g.crashed) :
    Clean strict { g with queue } := by
  refine { clean with senders := ?_ }
  intro event member sender receiver msg kind
  rcases senders event member with old | new
  · exact clean.senders event old sender receiver msg kind
  · exact new sender receiver msg kind

theorem mem_push_other {queue : EventQueue} {g : Inner State Value} {time : UInt64} {seq : Nat}
    {kind : EventKind} (sub : ∀ event ∈ queue, event ∈ g.queue)
    (other : ∀ sender receiver msg, kind = .deliverMsg sender receiver msg → sender ∉ g.crashed)
    (event : Keyed) (member : event ∈ queue.push ⟨time, seq, kind⟩) :
    event ∈ g.queue ∨ ∀ sender receiver msg, event.kind = .deliverMsg sender receiver msg →
      sender ∉ g.crashed := by
  rcases (KeyedQueue.mem_push _ _ _).mp member with rfl | old
  · exact Or.inr other
  · exact Or.inl (sub event old)

theorem Clean.ofEnqueueAll {g : Inner State Value} (clean : Clean strict g) (tasks : List TaskId) :
    Clean strict (tasks.foldl enqueuePollNow g) := by
  have sources := of_mem_enqueueAll tasks g
  obtain ⟨queue, shape⟩ := enqueueAll_shape tasks g
  rw [shape] at sources ⊢
  refine { clean.ofPush queue ?_ with }
  intro event member
  rcases sources event member with old | ⟨task, _, kind, _⟩
  · exact Or.inl old
  · exact Or.inr (by simp [kind])

/-- Code of a running node adds nothing to a node that is down. -/
theorem clean_op {g after : Inner State Value} (effect : OpEffect (ownRules strict own) g after)
    (homed : Homed own fills g) (clean : Clean strict g) : Clean strict after := by
  have same : ∀ event ∈ g.queue, event ∈ g.queue := fun _ => id
  cases effect with
  | quiet | held | opened | gave | unarmed | forgot | joining | handled => exact { clean with }
  | sent sender receiver msg time inScope running =>
      -- Only a running node sends, and the datagram carries its name.
      have up : ∀ from_ to_ body, EventKind.deliverMsg sender receiver msg =
          .deliverMsg from_ to_ body → from_ ∉ g.crashed := by
        rintro _ _ _ ⟨⟩
        exact running
      exact { clean.ofPush _ (mem_push_other same up) with }
  | sentTwice sender receiver msg time again inScope running =>
      have up : ∀ from_ to_ body, EventKind.deliverMsg sender receiver msg =
          .deliverMsg from_ to_ body → from_ ∉ g.crashed := by
        rintro _ _ _ ⟨⟩
        exact running
      have once := clean.ofPush (g.queue.push ⟨time, g.seq, .deliverMsg sender receiver msg⟩)
        (mem_push_other same up)
      exact { once.ofPush _ (mem_push_other (fun _ => id) up) with }
  | started node future inScope =>
      refine { clean.ofPush _ (mem_push_other same (by simp)) with tasks := ?_, timers := ?_ }
      · intro task slot present
        simp only [addTask, enqueuePollNow, pushEvent, SortedMap.get_insert] at present
        split_ifs at present
        · cases present
          exact inScope.2
        · exact clean.tasks task slot present
      · intro asked timer task at_ armed home
        simp only [addTask, enqueuePollNow, pushEvent, SortedMap.get_insert] at home
        split_ifs at home
        · cases home
          exact inScope.2
        · exact clean.timers asked timer task at_ armed home
  | armed id held node deadline old task time present leaf unarmed owner running =>
      refine { clean.ofPush _ (mem_push_other same (by simp)) with timers := ?_ }
      intro asked timer waiter at_ armed home
      simp only [setLeaf, registerTimer, pushEvent, SortedMap.get_insert] at armed
      split_ifs at armed
      · -- The new timer belongs to the running task, whose node is up.
        cases armed
        obtain ⟨lives, up⟩ := homed.current task running
        cases Option.some.inj (lives.symm.trans home)
        exact up
      · exact clean.timers asked timer waiter at_ armed home
  | cancelled timer =>
      refine { clean with timers := ?_ }
      intro asked other task node armed
      simp only [cancelTimer, SortedMap.get_remove] at armed
      split_ifs at armed
      exact clean.timers asked other task node armed
  | waited id held node registeredTask task present leaf owner running =>
      -- The leaf names its own task's node, so no list of a node that is down grows.
      have placed := homed.leaves id held present
      rw [leaf, owner, running] at placed
      have lives : g.audit.homes.get task = some node := placed
      obtain ⟨home, up⟩ := homed.current task running
      have here : own = node := Option.some.inj (home.symm.trans lives)
      refine { clean with waiters := ?_ }
      intro other down
      have different : other ≠ node := fun same => up (here ▸ same ▸ down)
      exact (SortedMap.get_insert_of_ne _ _ different).trans (clean.waiters other down)
  | received id held node registeredTask msg rest present leaf arrived =>
      refine { clean with inboxes := ?_ }
      intro other down
      have different : other ≠ node := by
        rintro rfl
        exact absurd ((clean.inboxes other down).symm.trans arrived) (by simp)
      exact (SortedMap.get_insert_of_ne _ _ different).trans (clean.inboxes other down)
  | unregistered node task =>
      unfold unregisterRecvWaiter
      split
      · exact clean
      next list found =>
        refine { clean with waiters := ?_ }
        intro other down
        have different : other ≠ node := by
          rintro rfl
          exact absurd ((clean.waiters other down).symm.trans found) (by simp)
        exact (SortedMap.get_insert_of_ne _ _ different).trans (clean.waiters other down)

theorem clean_crash {g : Inner State Value} (node : NodeId)
    (timers : strict → TimersOfLiving g node) (homed : Homed own fills g)
    (clean : Clean strict g) : Clean strict (g.crashNode node) := by
  unfold crashNode
  split_ifs
  · constructor
    · intro task slot present
      rw [SortedMap.get_retain, Option.filter_eq_some_iff, decide_eq_true_eq] at present
      rw [Finset.mem_insert, not_or]
      exact ⟨present.2, clean.tasks task slot present.1⟩
    · -- `crash_node` drops the timers of the tasks it removes. A timer of a finished task
      -- is not among them, which is what `strict` rules out.
      intro asked timer task other armed home
      rw [SortedMap.get_retain, Option.filter_eq_some_iff] at armed
      obtain ⟨armed, alive⟩ := armed
      rw [Finset.mem_insert, not_or]
      refine ⟨?_, clean.timers asked timer task other armed home⟩
      rintro rfl
      obtain ⟨slot, present⟩ := timers asked timer task armed home
      have lives := Option.some.inj ((homed.tasks task slot present).symm.trans home)
      simp [present, lives] at alive
    · intro other down
      dsimp only
      rw [SortedMap.get_remove]
      split_ifs with same
      · rfl
      · exact clean.inboxes other ((Finset.mem_insert.mp down).resolve_left same)
    · intro other down
      dsimp only
      rw [SortedMap.get_mapValues, SortedMap.get_remove]
      split_ifs with same
      · rfl
      · rw [clean.waiters other ((Finset.mem_insert.mp down).resolve_left same)]
        rfl
    · intro event member sender receiver msg kind
      obtain ⟨old, live⟩ := (KeyedQueue.mem_retain _ _ _).mp member
      simp only [kind, eventIsLiveAfterCrash, Bool.and_eq_true, decide_eq_true_eq] at live
      rw [Finset.mem_insert, not_or]
      exact ⟨live.1, clean.senders event old sender receiver msg kind⟩
  · exact clean

theorem clean_loop {g after : Inner State Value}
    (effect : LoopEffect (ownRules strict own) fills outside g after)
    (homed : Homed own fills g) (clean : Clean strict g) : Clean strict after := by
  cases effect with
  | faulted | drawn | halted => exact { clean with }
  | crashed node allowed => exact clean_crash node allowed.2 homed clean
  | revived node =>
      -- A restart only takes the node off the crashed ones.
      have fewer (other : NodeId) (down : other ∈ g.crashed.erase node) : other ∈ g.crashed :=
        Finset.mem_of_mem_erase down
      exact {
        tasks := fun task slot present down => clean.tasks task slot present (fewer _ down)
        timers := fun asked timer task at_ armed home down =>
          clean.timers asked timer task at_ armed home (fewer _ down)
        inboxes := fun other down => clean.inboxes other (fewer _ down)
        waiters := fun other down => clean.waiters other (fewer _ down)
        senders := fun event member sender receiver msg kind down =>
          clean.senders event member sender receiver msg kind (fewer _ down) }
  | registered node faults storage factories fresh =>
      -- A name registered for the first time is not among the crashed ones.
      refine { clean with inboxes := ?_ }
      intro other down
      have different : other ≠ node := fun same => fresh (homed.known (same ▸ down))
      exact (SortedMap.get_insert_of_ne _ _ different).trans (clean.inboxes other down)
  | filled slot join value =>
      refine Clean.ofEnqueueAll ?_ _
      exact { clean with }
  | parked task slot future running present =>
      refine { clean with tasks := ?_ }
      intro other found member
      rw [SortedMap.get_insert] at member
      split_ifs at member
      · cases member
        exact clean.tasks task slot present
      · exact clean.tasks other found member
  | ended task =>
      refine { clean with tasks := ?_ }
      intro other found member
      rw [SortedMap.get_remove] at member
      split_ifs at member
      exact clean.tasks other found member
  | scheduled time action =>
      exact { clean.ofPush _ (mem_push_other (fun _ => id) (by simp)) with }

theorem clean_pop {g after : Inner State Value} {event : Keyed} (effect : PopEffect g event after)
    (clean : Clean strict g) : Clean strict after := by
  have popping {queue : EventQueue} (popped : g.queue.pop = some (event, queue)) :
      Clean strict { g with queue } :=
    clean.ofPush queue fun other member =>
      Or.inl ((KeyedQueue.mem_of_pop popped other).mpr (Or.inr member))
  have taken {task slot} (present : g.tasks.get task = some slot) (other found)
      (member : (g.tasks.insert task { slot with future := none }).get other = some found) :
      found.node ∉ g.crashed := by
    rw [SortedMap.get_insert] at member
    split_ifs at member
    · cases member
      exact clean.tasks task slot present
    · exact clean.tasks other found member
  cases effect with
  | idle queue dispatched trace popped => exact { popping popped with }
  | fired queue timer task popped =>
      have rest := popping popped
      refine { rest.ofPush _ (mem_push_other (fun _ => id) (by simp)) with timers := ?_ }
      intro asked other waiter node armed
      simp only [enqueuePollNow, pushEvent, SortedMap.get_remove] at armed
      split_ifs at armed
      exact clean.timers asked other waiter node armed
  | dropped queue tape sender receiver msg reason popped => exact { popping popped with }
  | delivered queue tape sender receiver msg popped kind recorded aligned registered running =>
      refine Clean.ofEnqueueAll ?_ _
      refine { popping popped with inboxes := ?_, waiters := ?_ }
      · intro other down
        have different : other ≠ receiver := fun same => running (same ▸ down)
        exact (SortedMap.get_insert_of_ne _ _ different).trans (clean.inboxes other down)
      · intro other down
        have different : other ≠ receiver := fun same => running (same ▸ down)
        dsimp only
        split_ifs
        · exact (SortedMap.get_insert_of_ne _ _ different).trans (clean.waiters other down)
        · exact clean.waiters other down
  | begun queue task slot future popped kind present =>
      exact { popping popped with tasks := taken present }
  | lost queue task slot popped kind present =>
      have rest := popping popped
      exact { rest with tasks := taken present }

end Effects

/-! Whole histories. -/

structure Isolated (strict : Prop) (g : Inner State Value) : Prop where
  homed : Homed 0 (fun _ => False) g
  clean : Clean strict g

theorem changes_isolated {strict : Prop} {own : NodeId} {fills : SlotId → Prop} {outside : Prop}
    {g after : Inner State Value} (changes : Changes (ownRules strict own) fills outside g after)
    (homed : Homed own fills g) (clean : Clean strict g) :
    Homed own fills after ∧ Clean strict after := by
  induction changes with
  | refl => exact ⟨homed, clean⟩
  | tail _ change ih =>
      refine ⟨homed_change change ih.1, ?_⟩
      cases change with
      | op effect => exact clean_op effect ih.1 ih.2
      | loop effect => exact clean_loop effect ih.1 ih.2

theorem step_isolated {program : Program State Value} {nextAction : NextAction Plan}
    {strict : Prop} {g after : Inner State Value} (settled : Settled g)
    (step : Step program nextAction (localSteps program strict) g after)
    (isolated : Isolated strict g) : Isolated strict after := by
  cases step with
  | operate op allowed =>
      obtain ⟨own, meets⟩ := localOperate_own settled isolated.homed.known allowed.1 allowed.2
      have changes : Changes (ownRules strict own) (fun _ => False) True g
          (g.operate nextAction op).2 := operate_changes nextAction g op meets
      obtain ⟨homed, clean⟩ := changes_isolated changes (isolated.homed.rebase settled)
        isolated.clean
      exact ⟨homed.rebase (operate_settled op settled), clean⟩
  | turn turned allowed =>
      obtain ⟨own, polls, meets⟩ := localTurn_own settled allowed.1 allowed.2
      obtain ⟨mid, popped, changes⟩ := turn_changes program _ _ _ turned meets
      have based : Homed own (fun _ => False) g := isolated.homed.rebase settled
      have begins := based.begins polls
      obtain ⟨homed, clean⟩ := changes_isolated changes (homed_pop popped polls begins)
        (clean_pop popped isolated.clean)
      exact ⟨homed.rebase (turn_settled turned settled), clean⟩
  | abort aborted =>
      obtain ⟨queue, popped, _, rfl⟩ := abort_shape program _ _ _ aborted
      have clean := isolated.clean.ofPush queue fun other member =>
        Or.inl ((KeyedQueue.mem_of_pop popped other).mpr (Or.inr member))
      split_ifs <;> exact ⟨{ isolated.homed with }, { clean with }⟩

theorem isolated_start (strict : Prop) (seed : UInt64) (config : WorldConfig)
    (tape : EntropyTape) :
    Isolated strict (fromTape seed config tape : Inner State Value) := by
  constructor
  · constructor <;> simp [fromTape]
  · constructor <;> simp [fromTape]

theorem reachable_isolated {program : Program State Value} {nextAction : NextAction Plan}
    {strict : Prop} {g : Inner State Value}
    (under : ReachableUnder program nextAction (localSteps program strict) g) :
    Isolated strict g := by
  refine reachableUnder_invariant (Isolated strict) (fun seed config tape _ =>
    isolated_start strict seed config tape) ?_ under
  intro g after reachable step isolated
  exact step_isolated (reachable_settled program nextAction g reachable) step isolated

/-! Tasks that were killed. -/

/-- The task is gone, and nothing is left that would wake it. -/
structure Dead (fills : SlotId → Prop) (task : TaskId) (g : Inner State Value) : Prop where
  gone : g.tasks.get task = none
  named : task < g.nextTaskId
  idle : g.currentTask ≠ some task
  timers : ∀ timer, g.timers.get timer ≠ some task
  waiters : ∀ node list, g.recvWaiters.get node = some list → task ∉ list
  polls : ∀ event ∈ g.queue, event.kind ≠ .pollTask task
  joins : ∀ id join, g.slots.get id = some join → task ∈ join.joiners →
    ¬fills id ∧ ∀ other slot future, g.tasks.get other = some slot →
      slot.future = some future → future.slot ≠ some id

section Effects

variable {rules : Rules State Value} {fills : SlotId → Prop} {outside : Prop} {task : TaskId}

-- Every way back to life goes through a wakeup: a queued poll, a timer, a waiter list or a
-- joiner list. `Dead` says that none of them names the task.
theorem Dead.ofPush {g : Inner State Value} (dead : Dead fills task g) (queue : EventQueue)
    (polls : ∀ event ∈ queue, event ∈ g.queue ∨ event.kind ≠ .pollTask task) :
    Dead fills task { g with queue } := by
  refine { dead with polls := ?_ }
  intro event member
  rcases polls event member with old | new
  · exact dead.polls event old
  · exact new

theorem mem_push_kind {queue : EventQueue} {time : UInt64} {seq : Nat} {kind : EventKind}
    (other : kind ≠ .pollTask task) (event : Keyed) (member : event ∈ queue.push ⟨time, seq, kind⟩) :
    event ∈ queue ∨ event.kind ≠ .pollTask task := by
  rcases (KeyedQueue.mem_push _ _ _).mp member with rfl | old
  · exact Or.inr other
  · exact Or.inl old

theorem Dead.ofEnqueueAll {g : Inner State Value} (dead : Dead fills task g) (tasks : List TaskId)
    (others : task ∉ tasks) : Dead fills task (tasks.foldl enqueuePollNow g) := by
  have sources := of_mem_enqueueAll tasks g
  obtain ⟨queue, shape⟩ := enqueueAll_shape tasks g
  rw [shape] at sources ⊢
  refine { dead.ofPush queue ?_ with }
  intro event member
  rcases sources event member with old | ⟨woken, inside, kind, _⟩
  · exact Or.inl old
  · refine Or.inr ?_
    rw [kind]
    rintro ⟨⟩
    exact others inside

theorem Dead.ofTasks {g : Inner State Value} (dead : Dead fills task g)
    (tasks : SortedMap TaskId (TaskSlot State)) (gone : tasks.get task = none)
    (links : ∀ other slot future, tasks.get other = some slot → slot.future = some future →
      g.tasks.get other = some slot ∨ ∀ id, future.slot = some id → fills id) :
    Dead fills task { g with tasks } := by
  refine { dead with gone, joins := ?_ }
  intro id join present member
  obtain ⟨notFilled, elsewhere⟩ := dead.joins id join present member
  refine ⟨notFilled, ?_⟩
  intro other slot future found ready link
  rcases links other slot future found ready with old | filled
  · exact elsewhere other slot future old ready link
  · exact notFilled (filled id link)

theorem Dead.ofSlots {g : Inner State Value} (dead : Dead fills task g)
    (slots : SortedMap SlotId (JoinSlot Value))
    (fewer : ∀ id join, slots.get id = some join → task ∈ join.joiners →
      ∃ old, g.slots.get id = some old ∧ task ∈ old.joiners) :
    Dead fills task { g with slots } := by
  refine { dead with joins := ?_ }
  intro id join present member
  obtain ⟨old, before, inside⟩ := fewer id join present member
  exact dead.joins id old before inside

theorem dead_started {g : Inner State Value} (dead : Dead fills task g) {node : NodeId}
    {future : TaskFuture State}
    (fresh : ∀ slot, future.slot = some slot → g.slots.get slot = some ⟨false, none, []⟩) :
    Dead fills task ((g.addTask node future).2.enqueuePollNow g.nextTaskId) := by
  have different : task ≠ g.nextTaskId := Nat.ne_of_lt dead.named
  have pushed := dead.ofPush (g.queue.push ⟨g.now, g.seq, .pollTask g.nextTaskId⟩)
    (mem_push_kind (by simpa using different.symm))
  refine { pushed with gone := ?_, named := Nat.lt_succ_of_lt dead.named, joins := ?_ }
  · exact (SortedMap.get_insert_of_ne _ _ different).trans dead.gone
  · intro id join present member
    obtain ⟨notFilled, elsewhere⟩ := dead.joins id join present member
    refine ⟨notFilled, ?_⟩
    intro other slot held found ready link
    simp only [addTask, enqueuePollNow, pushEvent, SortedMap.get_insert] at found
    split_ifs at found
    · -- The new task fills a slot nobody has joined yet.
      cases found
      cases ready
      cases (fresh id link).symm.trans present
      exact List.not_mem_nil member
    · exact elsewhere other slot held found ready link

theorem dead_op {g after : Inner State Value} (effect : OpEffect rules g after)
    (dead : Dead fills task g) : Dead fills task after := by
  cases effect with
  | quiet | held | gave | unarmed | forgot | received | handled => exact { dead with }
  | sent => exact { dead.ofPush _ (mem_push_kind (by simp)) with }
  | sentTwice sender receiver msg time =>
      have once := dead.ofPush (g.queue.push ⟨time, g.seq, .deliverMsg sender receiver msg⟩)
        (mem_push_kind (by simp))
      exact { once.ofPush _ (mem_push_kind (by simp)) with }
  | opened node =>
      refine { dead.ofSlots (g.slots.insert g.nextSlot ⟨false, none, []⟩) ?_ with }
      intro id join present member
      rw [SortedMap.get_insert] at present
      split_ifs at present
      · cases present
        exact absurd member List.not_mem_nil
      · exact ⟨join, present, member⟩
  | started node future inScope linked =>
      exact dead_started dead fun slot link => (linked slot link).1
  | armed id held node deadline old current time present leaf unarmed owner running =>
      refine { dead.ofPush _ (mem_push_kind (by simp)) with timers := ?_ }
      intro timer armed
      simp only [setLeaf, registerTimer, pushEvent, SortedMap.get_insert] at armed
      split_ifs at armed
      · cases armed
        exact dead.idle running
      · exact dead.timers timer armed
  | cancelled timer =>
      refine { dead with timers := ?_ }
      intro other armed
      simp only [cancelTimer, SortedMap.get_remove] at armed
      split_ifs at armed
      exact dead.timers other armed
  | waited id held node registeredTask current present leaf owner running =>
      refine { dead with waiters := ?_ }
      intro at_ list registered member
      rcases registered_get registered with old | ⟨rfl, inside⟩
      · exact dead.waiters at_ list old member
      · rcases inside task member with rfl | ⟨old, found, before⟩
        · exact dead.idle running
        · exact dead.waiters at_ old found before
  | unregistered node other =>
      unfold unregisterRecvWaiter
      split
      · exact dead
      next list found =>
        refine { dead with waiters := ?_ }
        intro at_ left present member
        rw [SortedMap.get_insert] at present
        split_ifs at present
        · cases present
          exact dead.waiters node list found (List.mem_filter.mp member).1
        · exact dead.waiters at_ left present member
  | joining slot join changed present joiners =>
      -- Only the running task joins, and a dead task does not run.
      refine dead.ofSlots _ ?_
      intro id found member inside
      rw [SortedMap.get_insert] at member
      split_ifs at member with same
      · cases member
        rcases joiners task inside with old | ⟨running, _⟩
        · exact ⟨join, same ▸ present, old⟩
        · exact absurd running dead.idle
      · exact ⟨found, member, inside⟩

theorem dead_discard {g : Inner State Value} (dead : Dead fills task g) (gone : TaskId → Bool) :
    Dead fills task (g.discard gone) := by
  refine { dead.ofSlots (g.discard gone).slots ?_ with }
  intro id join present member
  simp only [discard, SortedMap.get_mapValues, Option.map_eq_some_iff] at present
  obtain ⟨old, before, rfl⟩ := present
  exact ⟨old, before, (List.mem_filter.mp member).1⟩

theorem dead_crash {g : Inner State Value} (dead : Dead fills task g) (node : NodeId) :
    Dead fills task (g.crashNode node) := by
  unfold crashNode
  split_ifs
  · have discarded := dead_discard dead (g.livesOn node)
    have fewer := discarded.ofTasks (g.tasks.retain fun _ slot => decide (slot.node ≠ node))
      (by rw [SortedMap.get_retain, dead.gone]; rfl)
      (by
        intro other slot future present _
        rw [SortedMap.get_retain, Option.filter_eq_some_iff] at present
        exact Or.inl present.1)
    refine { fewer with timers := ?_, waiters := ?_, polls := ?_ }
    · intro timer armed
      rw [SortedMap.get_retain, Option.filter_eq_some_iff] at armed
      exact dead.timers timer armed.1
    · intro at_ list present member
      rw [SortedMap.get_mapValues, Option.map_eq_some_iff] at present
      obtain ⟨old, before, rfl⟩ := present
      rw [SortedMap.get_remove] at before
      split_ifs at before
      exact dead.waiters at_ old before (List.mem_filter.mp member).1
    · intro event member
      exact dead.polls event ((KeyedQueue.mem_retain _ _ _).mp member).1
  · exact dead

theorem dead_loop {g after : Inner State Value} (effect : LoopEffect rules fills outside g after)
    (dead : Dead fills task g) : Dead fills task after := by
  cases effect with
  | faulted | drawn | revived | registered => exact { dead with }
  | crashed node => exact dead_crash dead node
  | filled slot join value allowed present =>
      -- A filled slot wakes its joiners; a slot with a dead joiner has nobody to fill it.
      have others : task ∉ join.joiners := fun inside =>
        (dead.joins slot join present inside).1 allowed
      refine Dead.ofEnqueueAll ?_ _ others
      refine dead.ofSlots _ ?_
      intro id found member inside
      rw [SortedMap.get_insert] at member
      split_ifs at member
      · cases member
        exact absurd inside List.not_mem_nil
      · exact ⟨found, member, inside⟩
  | parked current slot future running present linked =>
      have different : task ≠ current := fun same => dead.idle (same ▸ running)
      refine { dead.ofTasks (g.tasks.insert current { slot with future := some future }) ?_ ?_ with
        idle := by simp }
      · exact (SortedMap.get_insert_of_ne _ _ different).trans dead.gone
      · intro other found ready member held
        rw [SortedMap.get_insert] at member
        split_ifs at member
        · cases member
          cases held
          exact Or.inr linked
        · exact Or.inl member
  | halted => exact { dead with idle := by simp }
  | ended current =>
      refine { dead.ofTasks (g.tasks.remove current) ?_ ?_ with idle := by simp }
      · rw [SortedMap.get_remove]
        split_ifs
        · rfl
        · exact dead.gone
      · intro other found future member
        rw [SortedMap.get_remove] at member
        split_ifs at member
        exact fun _ => Or.inl member
  | scheduled => exact { dead.ofPush _ (mem_push_kind (by simp)) with }

theorem dead_changes {g after : Inner State Value} (changes : Changes rules fills outside g after)
    (dead : Dead fills task g) : Dead fills task after := by
  induction changes with
  | refl => exact dead
  | tail _ change ih =>
      cases change with
      | op effect => exact dead_op effect ih
      | loop effect => exact dead_loop effect ih

theorem Dead.begins {g : Inner State Value} (dead : Dead (fun _ => False) task g) (event : Keyed) :
    Dead (Fills g event) task g := by
  refine { dead with joins := ?_ }
  intro id join present member
  obtain ⟨_, elsewhere⟩ := dead.joins id join present member
  refine ⟨?_, elsewhere⟩
  rintro ⟨other, slot, future, _, found, ready, link⟩
  exact elsewhere other slot future found ready link

theorem dead_pop {g after : Inner State Value} {event : Keyed} (effect : PopEffect g event after)
    (dead : Dead fills task g) : Dead fills task after := by
  have popping {queue : EventQueue} (popped : g.queue.pop = some (event, queue)) :
      Dead fills task { g with queue } :=
    dead.ofPush queue fun other member =>
      Or.inl ((KeyedQueue.mem_of_pop popped other).mpr (Or.inr member))
  have taking {queue : EventQueue} {other : TaskId} {slot : TaskSlot State}
      (rest : Dead fills task { g with queue }) (present : g.tasks.get other = some slot) :
      Dead fills task
        { g with queue, tasks := g.tasks.insert other { slot with future := none } } := by
    have different : task ≠ other := by
      rintro rfl
      exact absurd (dead.gone.symm.trans present) (Option.some_ne_none slot).symm
    refine rest.ofTasks _ ((SortedMap.get_insert_of_ne _ _ different).trans dead.gone) ?_
    intro found left future member ready
    rw [SortedMap.get_insert] at member
    split_ifs at member
    · cases member
      cases ready
    · exact Or.inl member
  cases effect with
  | idle queue dispatched trace popped => exact { popping popped with }
  | fired queue timer waiter popped kind armed =>
      have others : waiter ≠ task := fun same => dead.timers timer (same ▸ armed)
      refine { (popping popped).ofPush _ (mem_push_kind (by simpa using others)) with
        timers := ?_ }
      intro other still
      simp only [enqueuePollNow, pushEvent, SortedMap.get_remove] at still
      split_ifs at still
      exact dead.timers other still
  | dropped queue tape sender receiver msg reason popped => exact { popping popped with }
  | delivered queue tape sender receiver msg popped =>
      have others : task ∉ (g.recvWaiters.get receiver).getD [] := by
        cases found : g.recvWaiters.get receiver with
        | none => exact List.not_mem_nil
        | some list => exact dead.waiters receiver list found
      refine Dead.ofEnqueueAll ?_ _ others
      refine { popping popped with waiters := ?_ }
      intro node list present
      dsimp only at present
      split_ifs at present
      · rw [SortedMap.get_insert] at present
        split_ifs at present
        · cases present
          exact List.not_mem_nil
        · exact dead.waiters node list present
      · exact dead.waiters node list present
  | begun queue other slot future popped kind present =>
      refine { taking (popping popped) present with idle := ?_ }
      rintro ⟨⟩
      exact absurd (dead.gone.symm.trans present) (Option.some_ne_none slot).symm
  | lost queue other slot popped kind present =>
      refine dead_discard ?_ _
      exact { taking (popping popped) present with }

theorem dead_steps {program : Program State Value} {nextAction : NextAction Plan}
    {allows : StepConditions State Value Plan} {g after : Inner State Value}
    (steps : Steps program nextAction allows g after) (dead : Dead (fun _ => False) task g) :
    Dead (fun _ => False) task after := by
  induction steps with
  | refl => exact dead
  | @tail before _ _ step ih =>
      cases step with
      | operate op =>
          have changes : Changes anyRules (fun _ => False) True before _ :=
            operate_changes nextAction before op (operateMeets_any before op)
          exact dead_changes changes ih
      | turn turned =>
          obtain ⟨mid, popped, changes⟩ := turn_changes program _ _ _ turned
            (fun _ => dispatchMeets_any program _ _)
          have ended := dead_changes changes (dead_pop popped (ih.begins _))
          exact { ended with joins := fun id join present member =>
            ⟨fun never => never, (ended.joins id join present member).2⟩ }
      | abort aborted =>
          obtain ⟨queue, popped, _, rfl⟩ := abort_shape program _ _ _ aborted
          have rest := ih.ofPush queue fun other member =>
            Or.inl ((KeyedQueue.mem_of_pop popped other).mpr (Or.inr member))
          split_ifs <;> exact { rest with }

end Effects

/-! The crash itself, and what follows it. -/

/-- A crash by an operation, or by a nemesis event, which is then used up. -/
inductive CrashStep (program : Program State Value) (nextAction : NextAction Plan)
    (g : Inner State Value) (node : NodeId) : Option Keyed → Inner State Value → Prop where
  | operated : CrashStep program nextAction g node none (g.operate nextAction (.crashNode node)).2
  | struck {event after} (kind : event.kind = .nemesis (.crash node))
      (turned : turn program g = .next event after) :
      CrashStep program nextAction g node (some event) after

/-- Events that are alive and have nothing to do with `node`. -/
def Foreign (g : Inner State Value) (node : NodeId) (event : Keyed) : Prop :=
  match event.kind with
  | .pollTask task => g.audit.homes.get task ≠ some node
  | .timerFire timer => ∃ task, g.timers.get timer = some task ∧
      g.audit.homes.get task ≠ some node
  | .deliverMsg sender receiver _ => sender ≠ node ∧ receiver ≠ node
  | .nemesis _ => True

/-- A crash of `node` leaves everything of the other nodes as it was. -/
structure CrashFrame (g : Inner State Value) (node : NodeId) (cause : Option Keyed)
    (after : Inner State Value) : Prop where
  tasks : ∀ task slot, g.tasks.get task = some slot → slot.node ≠ node →
    after.tasks.get task = some slot
  futures : ∀ id held task, g.futures.get id = some held → held.owner = some task →
    g.audit.homes.get task ≠ some node → after.futures.get id = some held
  timers : ∀ timer task, g.timers.get timer = some task → g.audit.homes.get task ≠ some node →
    after.timers.get timer = some task
  inboxes : ∀ other, other ≠ node → after.inboxes.get other = g.inboxes.get other
  waiters : ∀ other, other ≠ node → after.recvWaiters.get other = g.recvWaiters.get other
  storage : ∀ other, other ≠ node → after.storage.get other = g.storage.get other
  slots : ∀ id other, g.audit.slotHomes.get id = some other → other ≠ node →
    after.slots.get id = g.slots.get id
  events : ∀ event ∈ g.queue, some event ≠ cause → Foreign g node event → event ∈ after.queue
  noneNew : ∀ event ∈ after.queue, event ∈ g.queue

theorem crash_shape {program : Program State Value} {nextAction : NextAction Plan}
    {g after : Inner State Value} {node : NodeId} {cause : Option Keyed}
    (crash : CrashStep program nextAction g node cause after) :
    ∃ queue now trace dispatched nemesisTrace,
      after = { g with queue, now, trace, dispatched, nemesisTrace }.crashNode node ∧
        (∀ event ∈ queue, event ∈ g.queue) ∧
        ∀ event ∈ g.queue, some event ≠ cause → event ∈ queue := by
  cases crash with
  | operated =>
      exact ⟨g.queue, g.now, g.trace, g.dispatched, g.nemesisTrace ++ [.crash node], rfl,
        fun _ => id, fun _ member _ => member⟩
  | @struck event after kind turned =>
      obtain ⟨queue, popped, _, rfl⟩ := next_shape program g after event turned
      have inside := KeyedQueue.mem_of_pop popped
      refine ⟨queue, event.time, g.trace ++ [.dispatched event], g.dispatched + 1,
        g.nemesisTrace ++ [.crash node], ?_, ?_, ?_⟩
      · simp only [dispatch, kind, dispatchNemesis, applyNemesis, countDispatch]
      · exact fun other member => (inside other).mpr (Or.inr member)
      · intro other member different
        rcases (inside other).mp member with rfl | rest
        · exact absurd rfl different
        · exact rest

theorem crash_step_local {program : Program State Value} {nextAction : NextAction Plan}
    {strict : Prop} {g after : Inner State Value} {node : NodeId} {cause : Option Keyed}
    (crash : CrashStep program nextAction g node cause after)
    (timers : strict → TimersOfLiving g node) :
    Step program nextAction (localSteps program strict) g after := by
  cases crash with
  | operated =>
      refine Step.operate (.crashNode node) ⟨trivial, ?_⟩
      rintro asked _ ⟨⟩
      exact timers asked
  | struck kind turned =>
      refine Step.turn turned ⟨by simp only [LocalTurn, kind], ?_⟩
      intro asked other same
      cases kind.symm.trans same
      exact timers asked

theorem removed_home {g : Inner State Value} {own : NodeId} {fills : SlotId → Prop}
    (homed : Homed own fills g) {node : NodeId} {task : TaskId}
    (removed : g.livesOn node task = true) : g.audit.homes.get task = some node := by
  obtain ⟨slot, present, lives⟩ := (livesOn_iff g node task).mp removed
  rw [homed.tasks task slot present, lives]

/-- The frame of the crash on a state in which every task is at home. -/
theorem crashNode_frame {g : Inner State Value} {own : NodeId} {fills : SlotId → Prop}
    (homed : Homed own fills g) (node : NodeId) (known : node ∈ g.nodes) :
    CrashFrame g node none (g.crashNode node) := by
  have spared {task : TaskId} (elsewhere : g.audit.homes.get task ≠ some node) :
      g.livesOn node task = false := by
    by_contra removed
    exact elsewhere (removed_home homed ((Bool.not_eq_false _).mp removed))
  rw [crashNode, if_neg (not_not.mpr known)]
  constructor
  · intro task slot present elsewhere
    simp [SortedMap.get_retain, present, elsewhere]
  · intro id held task present owner elsewhere
    have kept := spared elsewhere
    simp only [livesOn] at kept
    simp [discard, SortedMap.get_retain, present, owner, kept]
  · intro timer task armed elsewhere
    have kept := spared elsewhere
    simp only [livesOn] at kept
    simp [SortedMap.get_retain, armed, kept]
  · intro other different
    exact SortedMap.get_remove_of_ne _ different
  · intro other different
    dsimp only
    rw [SortedMap.get_mapValues, SortedMap.get_remove_of_ne _ different]
    cases found : g.recvWaiters.get other with
    | none => rfl
    | some list =>
        refine congrArg some (List.filter_eq_self.mpr ?_)
        intro task member
        have home := homed.waiters other list task found member
        have elsewhere : g.audit.homes.get task ≠ some node := by
          rw [home]
          simpa using different
        have kept := spared elsewhere
        simp only [livesOn] at kept
        simp [kept]
  · intro other different
    dsimp only
    split_ifs
    · exact SortedMap.get_insert_of_ne _ _ different
    · rfl
  · intro id other lives different
    simp only [discard, SortedMap.get_mapValues]
    cases found : g.slots.get id with
    | none => rfl
    | some join =>
        refine congrArg some ?_
        have keep : join.joiners.filter (fun task => decide (Leaf.join id (some task) ∉
            ((g.futures.retain fun _ held => held.owner.any (g.livesOn node)).values.map
              Held.leaf))) = join.joiners := by
          refine List.filter_eq_self.mpr ?_
          intro task _
          rw [decide_eq_true_eq]
          intro lost
          -- A lost handle belonged to a task of the node, and so does its slot.
          obtain ⟨held, inside, leaf⟩ := List.mem_map.mp lost
          obtain ⟨⟨key, found⟩, entry, rfl⟩ := List.mem_map.mp inside
          obtain ⟨entry, removed⟩ := List.mem_filter.mp entry
          have placed := homed.leaves key found ((SortedMap.get_eq_some _ _ _).mpr entry)
          rw [Option.any_eq_true] at removed
          obtain ⟨owner, own, gone⟩ := removed
          rw [own, leaf] at placed
          obtain ⟨at_, home, stands⟩ := placed
          have same := removed_home homed gone
          apply different
          exact Option.some.inj (lives.symm.trans (stands.trans (home.symm.trans same)))
        exact congrArg (fun joiners => { join with joiners }) keep
  · intro event member _ foreign
    refine (KeyedQueue.mem_retain _ _ _).mpr ⟨member, ?_⟩
    obtain ⟨time, seq, kind⟩ := event
    cases kind with
    | pollTask task =>
        have kept := spared foreign
        simp only [livesOn] at kept
        simp [eventIsLiveAfterCrash, kept]
    | timerFire timer =>
        obtain ⟨task, armed, elsewhere⟩ := foreign
        have kept := spared elsewhere
        simp only [livesOn] at kept
        simp [eventIsLiveAfterCrash, SortedMap.contains, SortedMap.get_retain, armed, kept]
    | deliverMsg sender receiver msg =>
        simpa [eventIsLiveAfterCrash, Foreign] using foreign
    | nemesis action => rfl
  · exact fun event member => ((KeyedQueue.mem_retain _ _ _).mp member).1

/-- The tasks a crash removes are dead. -/
theorem crashNode_kills {g : Inner State Value} {own : NodeId}
    (homed : Homed own (fun _ => False) g) (idle : g.currentTask = none)
    (named : ∀ task slot, g.tasks.get task = some slot → task < g.nextTaskId) (node : NodeId)
    (known : node ∈ g.nodes) {task : TaskId} (removed : g.livesOn node task = true) :
    Dead (fun _ => False) task (g.crashNode node) := by
  have home := removed_home homed removed
  obtain ⟨slot, present, lives⟩ := (livesOn_iff g node task).mp removed
  simp only [livesOn] at removed
  rw [crashNode, if_neg (not_not.mpr known)]
  constructor
  · simp [SortedMap.get_retain, present, lives]
  · exact named task slot present
  · exact fun running => absurd (idle.symm.trans running) (Option.some_ne_none task).symm
  · intro timer armed
    rw [SortedMap.get_retain, Option.filter_eq_some_iff] at armed
    simp [removed] at armed
  · intro at_ list found member
    rw [SortedMap.get_mapValues, Option.map_eq_some_iff] at found
    obtain ⟨old, _, rfl⟩ := found
    simp [removed] at member
  · intro event member kind
    obtain ⟨_, live⟩ := (KeyedQueue.mem_retain _ _ _).mp member
    simp [kind, eventIsLiveAfterCrash, removed] at live
  · intro id join found member
    refine ⟨fun never => never, ?_⟩
    simp only [discard, SortedMap.get_mapValues, Option.map_eq_some_iff] at found
    obtain ⟨old, before, rfl⟩ := found
    obtain ⟨at_, lives, stands⟩ := homed.joiners id old task before (List.mem_filter.mp member).1
    -- The slot is one of the crashed node, so the task that would fill it is gone too.
    intro other left future kept ready link
    rw [SortedMap.get_retain, Option.filter_eq_some_iff, decide_eq_true_eq] at kept
    have filler := homed.links other left future id kept.1 ready link
    apply kept.2
    exact Option.some.inj (filler.symm.trans (stands.trans (lives.symm.trans home)))

/-- A node that is down. -/
structure NodeDown (g : Inner State Value) (node : NodeId) : Prop where
  tasks : ∀ task slot, g.tasks.get task = some slot → slot.node ≠ node
  timers : ∀ timer task, g.timers.get timer = some task → g.audit.homes.get task ≠ some node
  inbox : g.inboxes.get node = none
  waiters : g.recvWaiters.get node = none
  senders : ∀ event ∈ g.queue, ∀ receiver msg, event.kind ≠ .deliverMsg node receiver msg

/-- Since `down`, where the node is down: only its new incarnation runs and is heard of. -/
structure NewIncarnation (down : Inner State Value) (node : NodeId) (later : Inner State Value) :
    Prop where
  tasks : ∀ task slot, later.tasks.get task = some slot → slot.node = node →
    down.nextTaskId ≤ task
  queued : ∀ event ∈ later.queue, ∀ receiver msg, event.kind = .deliverMsg node receiver msg →
    down.seq ≤ event.seq
  delivered : ∃ more, later.audit.finished = down.audit.finished ++ more ∧ ∀ entry ∈ more,
    ∀ receiver msg, entry.1.kind = .deliverMsg node receiver msg → down.seq ≤ entry.1.seq

/-- What holds in every later state of a world in which `node` crashed, from `g` to `after`. -/
structure Aftermath (program : Program State Value) (g : Inner State Value) (node : NodeId)
    (after later : Inner State Value) : Prop where
  dead : ∀ task, g.livesOn node task = true → later.tasks.get task = none ∧
    (∀ timer, later.timers.get timer ≠ some task) ∧
    ∀ event ∈ later.queue, event.kind ≠ .pollTask task
  silent : ∀ task, task < after.nextTaskId → after.audit.homes.get task = some node →
    later.tasks.get task = none ∧ ∀ event next, event.kind = .pollTask task →
      turn program later = .next event next →
        next.trace = later.trace ∧ next.dispatched = later.dispatched
  queued : ∀ event ∈ later.queue, ∀ sender receiver msg,
    event.kind = .deliverMsg sender receiver msg → sender = node ∨ receiver = node →
      after.seq ≤ event.seq
  delivered : ∃ more, later.audit.finished = after.audit.finished ++ more ∧ ∀ entry ∈ more,
    ∀ sender receiver msg, entry.1.kind = .deliverMsg sender receiver msg →
      sender = node ∨ receiver = node → after.seq ≤ entry.1.seq

theorem Clean.nodeDown {g : Inner State Value} (clean : Clean True g) {node : NodeId}
    (down : node ∈ g.crashed) : NodeDown g node where
  tasks task slot present same := clean.tasks task slot present (same ▸ down)
  timers timer task armed home := clean.timers trivial timer task node armed home down
  inbox := clean.inboxes node down
  waiters := clean.waiters node down
  senders event member receiver msg kind :=
    clean.senders event member node receiver msg kind down

theorem since_newIncarnation {strict : Prop} {down later : Inner State Value} {node : NodeId}
    (clean : Clean strict down) (crashed : node ∈ down.crashed) (since : Since down later) :
    NewIncarnation down node later := by
  constructor
  · rintro task slot present rfl
    rcases since.tasks task slot present with ⟨old, before, same⟩ | young
    · exact absurd crashed (same ▸ clean.tasks task old before)
    · exact young
  · intro event member receiver msg kind
    rcases since.queue event member with old | young
    · exact absurd crashed (clean.senders event old node receiver msg kind)
    · exact young
  · obtain ⟨more, finished, sources⟩ := since.finished
    refine ⟨more, finished, ?_⟩
    intro entry member receiver msg kind
    rcases sources entry member with old | young
    · exact absurd crashed (clean.senders entry.1 old node receiver msg kind)
    · exact young

/-- A poll of a task that is not there does nothing. -/
theorem turn_of_absent {program : Program State Value} {g next : Inner State Value}
    {event : Keyed} {task : TaskId} (kind : event.kind = .pollTask task)
    (absent : g.tasks.get task = none) (turned : turn program g = .next event next) :
    next.trace = g.trace ∧ next.dispatched = g.dispatched := by
  obtain ⟨queue, _, _, rfl⟩ := next_shape program g next event turned
  simp only [dispatch, kind, pollTask, absent]
  exact ⟨trivial, trivial⟩

theorem crash_aftermath {program : Program State Value} {nextAction : NextAction Plan}
    {g after later : Inner State Value} {node : NodeId} {cause : Option Keyed}
    (under : ReachableUnder program nextAction (localSteps program False) g)
    (known : node ∈ g.nodes) (crash : CrashStep program nextAction g node cause after)
    (steps : Steps program nextAction (localSteps program False) after later) :
    Aftermath program g node after later := by
  have settled := reachable_settled program nextAction g under.reachable
  have counted := reachable_counted program nextAction g under.reachable
  have isolated := reachable_isolated under
  have step : Step program nextAction (localSteps program False) g after :=
    crash_step_local crash False.elim
  have isolatedAfter := step_isolated settled step isolated
  have since := since_steps steps
  obtain ⟨queue, now, trace, dispatched, nemesisTrace, rfl, _, _⟩ := crash_shape crash
  have homed : Homed 0 (fun _ => False)
      { g with queue, now, trace, dispatched, nemesisTrace } := { isolated.homed with }
  have down : node ∈ ({ g with queue, now, trace, dispatched, nemesisTrace }.crashNode
      node).crashed := by
    rw [crashNode, if_neg (not_not.mpr known)]
    exact Finset.mem_insert_self _ _
  have emptied : ∀ event ∈ ({ g with queue, now, trace, dispatched, nemesisTrace }.crashNode
      node).queue, ∀ sender receiver msg, event.kind = .deliverMsg sender receiver msg →
        ¬(sender = node ∨ receiver = node) := by
    intro event member sender receiver msg kind
    rw [crashNode, if_neg (not_not.mpr known)] at member
    obtain ⟨_, live⟩ := (KeyedQueue.mem_retain _ _ _).mp member
    simpa [kind, eventIsLiveAfterCrash, not_or] using live
  constructor
  · intro task removed
    have dead := dead_steps steps (crashNode_kills homed settled.idle counted.tasks node known
      removed)
    exact ⟨dead.gone, dead.timers, dead.polls⟩
  · -- A task as old as the crash and of this node would have to be one that survived it.
    intro task old home
    have absent : later.tasks.get task = none := by
      by_contra present
      obtain ⟨slot, present⟩ := Option.ne_none_iff_exists'.mp present
      rcases since.tasks task slot present with ⟨before, found, _⟩ | young
      · have lives := isolatedAfter.homed.tasks task before found
        have same : before.node = node := Option.some.inj (lives.symm.trans home)
        exact isolatedAfter.clean.tasks task before found (same ▸ down)
      · exact absurd young (Nat.not_le.mpr old)
    exact ⟨absent, fun event next kind turned => turn_of_absent kind absent turned⟩
  · intro event member sender receiver msg kind concerns
    rcases since.queue event member with old | young
    · exact absurd concerns (emptied event old sender receiver msg kind)
    · exact young
  · obtain ⟨more, finished, sources⟩ := since.finished
    refine ⟨more, finished, ?_⟩
    intro entry member sender receiver msg kind concerns
    rcases sources entry member with old | young
    · exact absurd concerns (emptied entry.1 old sender receiver msg kind)
    · exact young

theorem crash_frame {program : Program State Value} {nextAction : NextAction Plan}
    {g after : Inner State Value} {node : NodeId} {cause : Option Keyed}
    (under : ReachableUnder program nextAction (localSteps program False) g)
    (known : node ∈ g.nodes) (crash : CrashStep program nextAction g node cause after) :
    CrashFrame g node cause after := by
  have isolated := reachable_isolated under
  obtain ⟨queue, now, trace, dispatched, nemesisTrace, rfl, fewer, kept⟩ := crash_shape crash
  have homed : Homed 0 (fun _ => False)
      { g with queue, now, trace, dispatched, nemesisTrace } := { isolated.homed with }
  have frame := crashNode_frame homed node known
  exact { frame with
    events := fun event member different foreign =>
      frame.events event (kept event member different) (by simp) foreign
    noneNew := fun event member => fewer event (frame.noneNew event member) }

/-- The timers a crash leaves behind are those of finished tasks. -/
theorem crash_timers_iff {program : Program State Value} {nextAction : NextAction Plan}
    {g after : Inner State Value} {node : NodeId} {cause : Option Keyed}
    (under : ReachableUnder program nextAction (localSteps program False) g)
    (known : node ∈ g.nodes) (crash : CrashStep program nextAction g node cause after) :
    (∀ timer task, after.timers.get timer = some task →
      after.audit.homes.get task ≠ some node) ↔ TimersOfLiving g node := by
  have isolated := reachable_isolated under
  obtain ⟨queue, now, trace, dispatched, nemesisTrace, rfl, _, _⟩ := crash_shape crash
  rw [crashNode, if_neg (not_not.mpr known)]
  constructor
  · intro clean timer task armed home
    by_contra finished
    have gone : g.tasks.get task = none := by
      by_contra present
      exact finished (Option.ne_none_iff_exists'.mp present)
    -- `crash_node` asks the tasks for the timer's node, and this task is no longer there.
    refine clean timer task ?_ home
    simp [SortedMap.get_retain, armed, gone]
  · intro living timer task armed home
    rw [SortedMap.get_retain, Option.filter_eq_some_iff] at armed
    obtain ⟨slot, present⟩ := living timer task armed.1 home
    have lives := Option.some.inj ((isolated.homed.tasks task slot present).symm.trans home)
    simp [present, lives] at armed

/-- Crash isolation. In worlds whose code is local and whose crashes meet no
timer of a finished task, a crashed node is down in every reachable state. The
other parts hold in all local worlds: the condition is exact at each crash, a
crash keeps to its node, and nothing of before it comes back. -/
theorem crash_isolation (program : Program State Value) (nextAction : NextAction Plan) :
    (∀ g, ReachableUnder program nextAction (localSteps program True) g →
      ∀ node ∈ g.crashed, NodeDown g node) ∧
    ∀ g, ReachableUnder program nextAction (localSteps program False) g →
      (∀ node cause after, node ∈ g.nodes → CrashStep program nextAction g node cause after →
        (NodeDown after node ↔ TimersOfLiving g node) ∧ CrashFrame g node cause after ∧
          ∀ later, Steps program nextAction (localSteps program False) after later →
            Aftermath program g node after later) ∧
      ∀ node ∈ g.crashed, ∀ later,
        Steps program nextAction (localSteps program False) g later →
          NewIncarnation g node later := by
  refine ⟨fun g under node down => (reachable_isolated under).clean.nodeDown down, ?_⟩
  intro g under
  have settled := reachable_settled program nextAction g under.reachable
  have isolated := reachable_isolated under
  refine ⟨?_, ?_⟩
  · intro node cause after known crash
    have exact_ := crash_timers_iff under known crash
    have step : Step program nextAction (localSteps program False) g after :=
      crash_step_local crash False.elim
    have clean := (step_isolated settled step isolated).clean
    have down : node ∈ after.crashed := by
      obtain ⟨queue, now, trace, dispatched, nemesisTrace, rfl, _, _⟩ := crash_shape crash
      rw [crashNode, if_neg (not_not.mpr known)]
      exact Finset.mem_insert_self _ _
    refine ⟨⟨fun isDown => exact_.mp isDown.timers, ?_⟩, crash_frame under known crash,
      fun later steps => crash_aftermath under known crash steps⟩
    intro living
    exact {
      tasks := fun task slot present same => clean.tasks task slot present (same ▸ down)
      timers := exact_.mpr living
      inbox := clean.inboxes node down
      waiters := clean.waiters node down
      senders := fun event member receiver msg kind =>
        clean.senders event member node receiver msg kind down }
  · intro node down later steps
    exact since_newIncarnation isolated.clean down (since_steps steps)

theorem onlyEnv_permit {node : NodeId} (g : Inner State Value) (op : Op State)
    (env : op.env = some node ∨ op.env = none) : (onlyEnv node).Permit g op := by
  refine ⟨?_, fun _ _ _ _ => trivial⟩
  intro other named
  rcases env with own | none_
  · exact (Option.some.inj (own.symm.trans named)).symm
  · exact absurd (none_.symm.trans named) (Option.some_ne_none other).symm

/-- A turn without a fault, in a world whose tasks act each on the node its state names. -/
theorem local_turn {program : Program State Value} {nextAction : NextAction Plan} {strict : Prop}
    (home : State → NodeId)
    (own : ∀ state g, Meets (onlyEnv (home state)).Permit (program state) g)
    {g next : Inner State Value} {event : Keyed} (turned : turn program g = .next event next)
    (calm : ∀ action, event.kind ≠ .nemesis action)
    (homes : ∀ entry ∈ g.tasks.entries, ∀ future ∈ entry.2.future,
      entry.2.node = home future.state) :
    Step program nextAction (localSteps program strict) g next := by
  refine Step.turn turned ⟨?_, fun _ node crash => absurd crash (calm _)⟩
  unfold LocalTurn
  split
  next task kind =>
    intro slot queue present
    simp only [DispatchMeets, kind]
    intro slot' future present' ready _
    cases Option.some.inj (present.symm.trans present')
    rw [homes _ ((SortedMap.get_eq_some _ _ _).mp present) future ready]
    exact ⟨own _ _, fun _ _ _ => releasesMeet_any _ _⟩
  next node kind => exact absurd kind (calm _)
  next => trivial

/-- The main task arms a sleep, hands it to a child and ends. -/
def handOff : Program (Option FutureId) Unit
  | none => Code.sleep 0 5000000 fun
    | .future id => .call (.poll id) fun _ => .call (.spawn 0 (some id) [id]) fun _ =>
        .done (.ready ())
    | _ => .done (.ready ())
  | some id => .call (.poll id) fun
    | .pending => .done (.pending (some id))
    | _ => .done (.ready ())

theorem handOff_local (state : Option FutureId) (g : Inner (Option FutureId) Unit) :
    Meets (onlyEnv 0).Permit (handOff state) g := by
  cases state with
  | none =>
      refine ⟨onlyEnv_permit _ _ (Or.inl rfl), ?_⟩
      refine ⟨onlyEnv_permit _ _ (Or.inl rfl), ?_⟩
      exact ⟨onlyEnv_permit _ _ (Or.inr rfl), onlyEnv_permit _ _ (Or.inl rfl), trivial⟩
  | some id =>
      refine ⟨onlyEnv_permit _ _ (Or.inr rfl), ?_⟩
      dsimp only
      split <;> trivial

def handOffWorld : Inner (Option FutureId) Unit :=
  ((replay 0 [] {}).operate noPlans (.addNode 0 fun _ => .done none)).2

/-- The state after so many dispatched events. -/
def advance {State Value : Type} (program : Program State Value) :
    Nat → Inner State Value → Inner State Value
  | 0, g => g
  | events + 1, g => match turn program g with
    | .next _ next => advance program events next
    | _ => g

theorem reachable_advance {program : Program State Value} {nextAction : NextAction Plan}
    (events : Nat) {g : Inner State Value} (reachable : Reachable program nextAction g) :
    Reachable program nextAction (advance program events g) := by
  induction events generalizing g with
  | zero => exact reachable
  | succ events ih =>
      rw [advance]
      split
      next event next turned => exact ih (reachable.turn turned)
      next => exact reachable

theorem handOffWorld_local (strict : Prop) :
    ReachableUnder handOff noPlans (localSteps handOff strict) handOffWorld :=
  ⟨replay 0 [] {}, ⟨0, {}, Or.inr ⟨[], rfl⟩⟩, Relation.ReflTransGen.single
    (Step.operate (.addNode 0 fun _ => .done none)
      ⟨fun _ => ⟨rfl, trivial⟩, fun _ _ struck => by cases struck⟩)⟩

-- The sleep outlives the main task in its child, but its timer stays under the main task's name.
theorem handOff_leaves_timer :
    ReachableUnder handOff noPlans (localSteps handOff False)
      ((advance handOff 2 handOffWorld).operate noPlans (.crashNode 0)).2 ∧
    (0 ∈ ((advance handOff 2 handOffWorld).operate noPlans (.crashNode 0)).2.crashed) ∧
    ¬NodeDown ((advance handOff 2 handOffWorld).operate noPlans (.crashNode 0)).2 0 := by
  refine ⟨?_, by decide, ?_⟩
  · obtain ⟨start, starts, steps⟩ := handOffWorld_local False
    have first : Step handOff noPlans (localSteps handOff False) handOffWorld
        (advance handOff 1 handOffWorld) :=
      local_turn (fun _ => 0) handOff_local rfl nofun (by decide)
    have second : Step handOff noPlans (localSteps handOff False) (advance handOff 1 handOffWorld)
        (advance handOff 2 handOffWorld) :=
      local_turn (fun _ => 0) handOff_local rfl nofun (by decide)
    exact ⟨start, starts, ((steps.tail first).tail second).tail
      (Step.operate (.crashNode 0) ⟨trivial, False.elim⟩)⟩
  · intro down
    exact down.timers 0 0 (by decide) (by decide)

/-! A node crashes while its task sleeps, with a message in its inbox, one to it and
one from it under way. -/

inductive Napper where
  | writes
  | naps
  | wakes (id : FutureId)

def Napper.node : Napper → NodeId
  | .writes => 0
  | .naps | .wakes _ => 1

def naps : Program Napper Unit
  | .writes => .call (.send 0 1 [1]) fun _ => .call (.send 0 1 [2]) fun _ => .done (.ready ())
  | .naps => .call (.send 1 0 [3]) fun _ => Code.sleep 1 5000000 fun
    | .future id => .call (.poll id) fun _ => .done (.pending (.wakes id))
    | _ => .done (.ready ())
  | .wakes id => .call (.poll id) fun
    | .pending => .done (.pending (.wakes id))
    | _ => .done (.ready ())

theorem naps_local (state : Napper) (g : Inner Napper Unit) :
    Meets (onlyEnv state.node).Permit (naps state) g := by
  cases state with
  | writes => exact ⟨onlyEnv_permit _ _ (Or.inl rfl), onlyEnv_permit _ _ (Or.inl rfl), trivial⟩
  | naps =>
      refine ⟨onlyEnv_permit _ _ (Or.inl rfl), onlyEnv_permit _ _ (Or.inl rfl), ?_⟩
      exact ⟨onlyEnv_permit _ _ (Or.inl rfl), onlyEnv_permit _ _ (Or.inr rfl), trivial⟩
  | wakes id =>
      refine ⟨onlyEnv_permit _ _ (Or.inr rfl), ?_⟩
      dsimp only
      split <;> trivial

/-- The messages take one, two and three milliseconds. -/
def napsWorld : Inner Napper Unit :=
  ((((replay 0 [0, 1, 2] {}).operate noPlans (.addNode 0 fun _ => .done .writes)).2.operate noPlans
    (.addNode 1 fun _ => .done .naps)).2)

theorem naps_addNode (strict : Prop) (g : Inner Napper Unit) (node : NodeId) (state : Napper) :
    Step naps noPlans (localSteps naps strict) g
      (g.operate noPlans (.addNode node fun _ => .done state)).2 :=
  Step.operate _ ⟨fun _ => ⟨rfl, trivial⟩, fun _ _ struck => by cases struck⟩

theorem napsWorld_local (strict : Prop) :
    ReachableUnder naps noPlans (localSteps naps strict) napsWorld :=
  ⟨replay 0 [0, 1, 2] {}, ⟨0, {}, Or.inr ⟨[0, 1, 2], rfl⟩⟩,
    (Relation.ReflTransGen.single (naps_addNode strict _ 0 .writes)).tail
      (naps_addNode strict _ 1 .naps)⟩

/-- The node sleeps and was handed the first message. -/
def napping : Inner Napper Unit := advance naps 3 napsWorld

theorem napping_local (strict : Prop) :
    ReachableUnder naps noPlans (localSteps naps strict) napping := by
  obtain ⟨start, starts, steps⟩ := napsWorld_local strict
  have writes : Step naps noPlans (localSteps naps strict) napsWorld (advance naps 1 napsWorld) :=
    local_turn Napper.node naps_local rfl nofun (by decide)
  have sleeps : Step naps noPlans (localSteps naps strict) (advance naps 1 napsWorld)
      (advance naps 2 napsWorld) := local_turn Napper.node naps_local rfl nofun (by decide)
  have arrives : Step naps noPlans (localSteps naps strict) (advance naps 2 napsWorld) napping :=
    local_turn Napper.node naps_local rfl nofun (by decide)
  exact ⟨start, starts, ((steps.tail writes).tail sleeps).tail arrives⟩

/-- The sleeping node crashes and is started again. -/
theorem crashed_nap_isolated :
    (napping.timers.get 0 = some 1 ∧ napping.inboxes.get 1 = some [(0, [1])] ∧
      napping.queue.entries.map Keyed.kind =
        [.deliverMsg 0 1 [2], .deliverMsg 1 0 [3], .timerFire 0]) ∧
      NodeDown (napping.operate noPlans (.crashNode 1)).2 1 ∧
      Aftermath naps napping 1 (napping.operate noPlans (.crashNode 1)).2
        ((napping.operate noPlans (.crashNode 1)).2.operate noPlans (.restartNode 1)).2 := by
  refine ⟨by decide, (crash_isolation naps noPlans).1 _ ?_ 1 (by decide), ?_⟩
  · have living : TimersOfLiving napping 1 := by
      intro timer task armed _
      have entry := (SortedMap.get_eq_some _ _ _).mp armed
      obtain ⟨rfl, rfl⟩ := Prod.mk.inj (List.mem_singleton.mp entry)
      exact ⟨_, rfl⟩
    obtain ⟨start, starts, steps⟩ := napping_local True
    refine ⟨start, starts, steps.tail (Step.operate (.crashNode 1) ⟨trivial, ?_⟩)⟩
    rintro _ _ ⟨⟩
    exact living
  · have local_ := ((crash_isolation naps noPlans).2 napping (napping_local False)).1
    refine (local_ 1 none _ (by decide) .operated).2.2 _ (Relation.ReflTransGen.single ?_)
    refine Step.operate (.restartNode 1) ⟨?_, False.elim⟩
    intro factory _ registered
    have same : factory = fun _ => .done .naps := (Option.some.inj registered).symm
    exact ⟨rfl, by rw [same]; trivial⟩

end Inner

end Detersim
