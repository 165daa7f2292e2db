import Detersim.CrashIsolation

/-!
Wake-ups of tasks that wait for messages. A task is on the receive list of its
node once, however many receives it holds, and each of them takes it off the
list when it completes or is dropped. A wake-up is lost exactly there: when
another receive of the task is still waiting.
-/

namespace Detersim

namespace Inner

variable {State Value Plan : Type}

/-- The task holds a receive on `node` that returned `Pending` in the task's latest poll. -/
def Awaits (g : Inner State Value) (task : TaskId) (node : NodeId) : Prop :=
  ∃ id ∈ g.audit.awaited, ∃ registeredTask,
    g.futures.get id = some ⟨some task, .recv node registeredTask⟩

def Registered (g : Inner State Value) (task : TaskId) (node : NodeId) : Prop :=
  ∃ waiters, g.recvWaiters.get node = some waiters ∧ task ∈ waiters

/-- A poll of the task is queued. -/
def Woken (g : Inner State Value) (task : TaskId) : Prop :=
  ∃ event ∈ g.queue, event.kind = .pollTask task

/-- A live task that waits for a message to its node will be polled when one comes. -/
def NoLostWakeup (g : Inner State Value) : Prop :=
  ∀ task slot, g.tasks.get task = some slot → g.Awaits task slot.node →
    g.Registered task slot.node ∨ g.Woken task

/-- Taking the task off the list of `node` leaves no receive without a wake-up:
the task is the one being dropped, or has no other receive waiting there, or is
going to be polled anyway. -/
def MayUnregister (ending : Option TaskId) (g : Inner State Value) (node : NodeId)
    (task : TaskId) : Prop :=
  ending = some task ∨ ∀ slot, g.tasks.get task = some slot → slot.node = node →
    g.Awaits task node → g.Woken task

/-- The rules of code that unregisters a task only where it may. -/
def wakeRules (ending : Option TaskId) : Rules State Value :=
  ⟨fun _ _ => True, MayUnregister ending, fun _ _ => True⟩

/-- What is asked of the code a turn runs: of every call of a polled task, of the
receives it still holds when it is done, and of the factory of a restart. -/
def DispatchWakes (program : Program State Value) (g : Inner State Value) (event : Keyed) : Prop :=
  match event.kind with
  | .pollTask task => ∀ slot future, g.tasks.get task = some slot → slot.future = some future →
      slot.node ∉ g.crashed →
      let taken := { g with tasks := g.tasks.insert task { slot with future := none } }
      let begun := (taken.countDispatch (.dispatched event)).beginPoll task
      Meets (wakeRules none).Permit (program future.state) begun ∧
        ∀ value after, begun.exec (program future.state) = (.ready value, after) →
          ReleasesMeet (MayUnregister (some task)) (after.ownedBy task) after
  | _ => DispatchMeets (wakeRules none) program g event

/-- No step unregisters a task that still waits, and no run is cut off at the
poll such a task was to be woken by. -/
def keepsWaiters (program : Program State Value) : StepConditions State Value Plan where
  operate := OperateMeets (wakeRules none)
  turn g event := ∀ queue, DispatchWakes program { g with queue, now := event.time } event
  abort g event := ∀ task slot, event.kind = .pollTask task → g.tasks.get task = some slot →
    g.Awaits task slot.node → g.Registered task slot.node

/-- The invariant, up to a task that is being dropped. A task whose future is out
of its slot runs, or has lost what it held to a crash. -/
structure Wakes (ending : Option TaskId) (g : Inner State Value) : Prop where
  wakes : ∀ task slot, ending ≠ some task → g.tasks.get task = some slot →
    g.Awaits task slot.node → g.Registered task slot.node ∨ g.Woken task
  taken : ∀ task slot, g.tasks.get task = some slot → slot.future = none →
    g.currentTask = some task ∨
      ∀ id held, g.futures.get id = some held → held.owner ≠ some task

variable {ending : Option TaskId}

theorem Wakes.ofQueue {g : Inner State Value} (wakes : Wakes ending g) (queue : EventQueue)
    (grows : ∀ event ∈ g.queue, event ∈ queue) : Wakes ending { g with queue } := by
  refine { wakes with wakes := ?_ }
  intro task slot other present awaits
  rcases wakes.wakes task slot other present awaits with registered | ⟨event, member, kind⟩
  · exact Or.inl registered
  · exact Or.inr ⟨event, grows event member, kind⟩

theorem Wakes.ofPush {g : Inner State Value} (wakes : Wakes ending g) (time : SimTime) (seq : Nat)
    (kind : EventKind) : Wakes ending { g with queue := g.queue.push ⟨time, seq, kind⟩ } :=
  wakes.ofQueue _ fun _ member => (KeyedQueue.mem_push _ _ _).mpr (Or.inr member)

theorem Wakes.ofEnqueueAll {g : Inner State Value} (wakes : Wakes ending g)
    (tasks : List TaskId) : Wakes ending (tasks.foldl enqueuePollNow g) := by
  have grows := mem_enqueueAll tasks g
  obtain ⟨queue, shape⟩ := enqueueAll_shape tasks g
  rw [shape] at grows ⊢
  exact { wakes.ofQueue queue grows with }

/-- Futures that are gone, or are no other receives than before. -/
theorem Wakes.ofFutures {g : Inner State Value} (wakes : Wakes ending g)
    (futures : SortedMap FutureId Held)
    (shrinks : ∀ id held, futures.get id = some held → ∃ old, g.futures.get id = some old ∧
      held.owner = old.owner ∧ ∀ node registeredTask, held.leaf = .recv node registeredTask →
        ∃ before, old.leaf = .recv node before) : Wakes ending { g with futures } := by
  constructor
  · rintro task slot other present ⟨id, member, registeredTask, found⟩
    obtain ⟨⟨owner, leaf⟩, before, same, leaves⟩ := shrinks id _ found
    obtain ⟨registered, shape⟩ := leaves _ _ rfl
    dsimp only at same shape
    subst same shape
    exact wakes.wakes task slot other present ⟨id, member, registered, before⟩
  · intro task slot present empty
    refine (wakes.taken task slot present empty).imp_right ?_
    intro none_ id held found
    obtain ⟨old, before, same, _⟩ := shrinks id held found
    exact same ▸ none_ id old before

theorem Wakes.ofSetLeaf {g : Inner State Value} (wakes : Wakes ending g) {id : FutureId}
    {held : Held} (present : g.futures.get id = some held) (leaf : Leaf)
    (recv : ∀ node registeredTask, leaf = .recv node registeredTask →
      ∃ before, held.leaf = .recv node before) : Wakes ending (g.setLeaf id held leaf) := by
  refine wakes.ofFutures _ ?_
  intro other found member
  rw [SortedMap.get_insert] at member
  split_ifs at member with same
  · cases member
    exact ⟨held, same ▸ present, rfl, recv⟩
  · exact ⟨found, member, rfl, fun _ registered shape => ⟨registered, shape⟩⟩

theorem Wakes.ofForget {g : Inner State Value} (wakes : Wakes ending g) (id : FutureId) :
    Wakes ending (g.forget id) := by
  refine wakes.ofFutures _ ?_
  intro other found member
  rw [SortedMap.get_remove] at member
  split_ifs at member
  exact ⟨found, member, rfl, fun _ registered shape => ⟨registered, shape⟩⟩

theorem wakes_discard {g : Inner State Value} (wakes : Wakes ending g) (gone : TaskId → Bool) :
    Wakes ending (g.discard gone) := by
  refine { wakes.ofFutures (g.discard gone).futures ?_ with }
  intro other found member
  simp only [discard, SortedMap.get_retain, Option.filter_eq_some_iff] at member
  exact ⟨found, member.1, rfl, fun _ registered shape => ⟨registered, shape⟩⟩

section Effects

variable {fills : SlotId → Prop} {outside : Prop}

/-- A new future is not awaited yet, and its maker runs. -/
theorem wakes_held {g : Inner State Value} (counted : Counted g) (wakes : Wakes ending g)
    (leaf : Leaf) : Wakes ending { g with
      nextFuture := g.nextFuture + 1
      futures := g.futures.insert g.nextFuture ⟨g.currentTask, leaf⟩ } := by
  constructor
  · rintro task slot other present ⟨id, member, registeredTask, found⟩
    have older := counted.awaited id member
    rw [SortedMap.get_insert_of_ne _ _ (Nat.ne_of_lt older)] at found
    exact wakes.wakes task slot other present ⟨id, member, registeredTask, found⟩
  · intro task slot present empty
    rcases wakes.taken task slot present empty with running | none_
    · exact Or.inl running
    · by_cases running : g.currentTask = some task
      · exact Or.inl running
      · refine Or.inr ?_
        intro id held found
        rw [SortedMap.get_insert] at found
        split_ifs at found
        · cases found
          exact running
        · exact none_ id held found

theorem wakes_started {g : Inner State Value} (wakes : Wakes ending g) (node : NodeId)
    (future : TaskFuture State) :
    Wakes ending ((g.addTask node future).2.enqueuePollNow g.nextTaskId) := by
  have pushed := wakes.ofPush g.now g.seq (.pollTask g.nextTaskId)
  constructor
  · intro task slot other present awaits
    by_cases same : task = g.nextTaskId
    · subst same
      exact Or.inr ⟨_, (KeyedQueue.mem_push _ _ _).mpr (Or.inl rfl), rfl⟩
    · have before : g.tasks.get task = some slot :=
        (SortedMap.get_insert_of_ne _ _ same).symm.trans present
      exact pushed.wakes task slot other before awaits
  · intro task slot present empty
    simp only [addTask, enqueuePollNow, pushEvent, SortedMap.get_insert] at present
    split_ifs at present
    · cases present
      cases empty
    · exact wakes.taken task slot present empty

/-- A future that changes hands is not awaited by its new owner. -/
theorem wakes_gave {g : Inner State Value} (wakes : Wakes ending g) (chosen : FutureId → Bool)
    {task : TaskId} {slot : TaskSlot State} (live : g.tasks.get task = some slot)
    (ready : slot.future ≠ none) : Wakes ending (g.give chosen task) := by
  constructor
  · rintro other found different present ⟨id, member, registeredTask, holds⟩
    obtain ⟨member, unmoved⟩ := Finset.mem_filter.mp member
    simp only [give, SortedMap.get_mapValues, Option.map_eq_some_iff] at holds
    obtain ⟨old, before, shape⟩ := holds
    split_ifs at shape with moved
    · exact absurd ⟨moved.1, old, before, moved.2⟩ unmoved
    · subst shape
      exact wakes.wakes other found different present ⟨id, member, registeredTask, before⟩
  · intro other found present empty
    rcases wakes.taken other found present empty with running | none_
    · exact Or.inl running
    · refine Or.inr ?_
      intro id held holds
      simp only [give, SortedMap.get_mapValues, Option.map_eq_some_iff] at holds
      obtain ⟨old, before, rfl⟩ := holds
      split_ifs
      · rintro ⟨⟩
        cases live.symm.trans present
        exact ready empty
      · exact none_ id old before

-- Registering adds the task to the node's list and takes nobody off it.
theorem wakes_waited {g : Inner State Value} (wakes : Wakes ending g) {id : FutureId} {held : Held}
    {node : NodeId} {registeredTask : Option TaskId} {task : TaskId}
    (present : g.futures.get id = some held) (leaf : held.leaf = .recv node registeredTask)
    (owner : held.owner = some task) :
    Wakes ending { (g.registerRecvWaiter node task).setLeaf id held (.recv node (some task)) with
      audit.awaited := insert id g.audit.awaited } := by
  have set := wakes.ofSetLeaf present (.recv node (some task)) (by
    rintro _ _ ⟨⟩
    exact ⟨_, leaf⟩)
  have registers : ∀ other at_, other = task ∧ at_ = node ∨ g.Registered other at_ →
      (g.registerRecvWaiter node task).Registered other at_ := by
    rintro other at_ (⟨rfl, rfl⟩ | ⟨waiters, listed, member⟩)
    · refine ⟨_, SortedMap.get_insert_self _ _ _, ?_⟩
      split_ifs with old
      · exact old
      · exact List.mem_append_right _ (List.mem_singleton.mpr rfl)
    · by_cases here : at_ = node
      · subst here
        refine ⟨_, SortedMap.get_insert_self _ _ _, ?_⟩
        rw [listed, Option.getD_some]
        split_ifs
        · exact member
        · exact List.mem_append_left _ member
      · exact ⟨waiters, (SortedMap.get_insert_of_ne _ _ here).trans listed, member⟩
  refine { set with wakes := ?_ }
  rintro other slot different live ⟨waiting, member, before, found⟩
  rcases Finset.mem_insert.mp member with rfl | old
  · have same : (some ⟨held.owner, .recv node (some task)⟩ : Option Held) =
        some ⟨some other, .recv slot.node before⟩ :=
      (SortedMap.get_insert_self _ _ _).symm.trans found
    rw [owner] at same
    cases same
    exact Or.inl (registers _ _ (Or.inl ⟨rfl, rfl⟩))
  · rcases set.wakes other slot different live ⟨waiting, old, before, found⟩ with listed | woken
    · exact Or.inl (registers _ _ (Or.inr listed))
    · exact Or.inr woken

theorem wakes_unregistered {g : Inner State Value} (wakes : Wakes ending g) (node : NodeId)
    (task : TaskId) (allowed : MayUnregister ending g node task) :
    Wakes ending (g.unregisterRecvWaiter node task) := by
  unfold unregisterRecvWaiter
  split
  · exact wakes
  next waiters listed =>
    refine { wakes with wakes := ?_ }
    intro other slot different live awaits
    by_cases taken : other = task ∧ slot.node = node
    · -- Here the rule steps in: a task that is taken off and still waits is woken already.
      obtain ⟨rfl, rfl⟩ := taken
      exact Or.inr (allowed.resolve_left different slot live rfl awaits)
    · refine (wakes.wakes other slot different live awaits).imp_left ?_
      rintro ⟨before, found, member⟩
      by_cases here : slot.node = node
      · subst here
        cases found.symm.trans listed
        refine ⟨_, SortedMap.get_insert_self _ _ _, List.mem_filter.mpr ⟨member, ?_⟩⟩
        exact decide_eq_true fun same => taken ⟨same, rfl⟩
      · exact ⟨before, (SortedMap.get_insert_of_ne _ _ here).trans found, member⟩

theorem wakes_op {g after : Inner State Value} (effect : OpEffect (wakeRules ending) g after)
    (counted : Counted g) (wakes : Wakes ending g) : Wakes ending after := by
  cases effect with
  | quiet | opened | cancelled | joining => exact { wakes with }
  | sent sender receiver msg time => exact { wakes.ofPush time g.seq _ with }
  | sentTwice sender receiver msg time again =>
      exact { (wakes.ofPush time g.seq _).ofPush again (g.seq + 1) _ with }
  | held leaf => exact wakes_held counted wakes leaf
  | started node future => exact wakes_started wakes node future
  | gave chosen task _ slot live ready => exact wakes_gave wakes chosen live ready
  | armed id held node deadline timer task time present =>
      have pushed := wakes.ofPush time g.seq (.timerFire g.nextTimerId)
      have armed := pushed.ofSetLeaf present (.sleep node deadline (some g.nextTimerId)) (by simp)
      exact { armed with }
  | unarmed id held node deadline timer present => exact wakes.ofSetLeaf present _ (by simp)
  | forgot id => exact wakes.ofForget id
  | waited id held node registeredTask task present leaf owner running =>
      exact wakes_waited wakes present leaf (owner.trans running)
  | received id held node registeredTask msg rest => exact { wakes.ofForget id with }
  | unregistered node task allowed => exact wakes_unregistered wakes node task allowed
  | handled id held slot waitingTask waiting present => exact wakes.ofSetLeaf present _ (by simp)

/-- A crash wakes nobody, and takes no task off a list that it does not kill. -/
theorem wakes_crash {g : Inner State Value} (node : NodeId) (wakes : Wakes ending g) :
    Wakes ending (g.crashNode node) := by
  unfold crashNode
  split_ifs
  · have dropped := wakes_discard wakes (g.livesOn node)
    have survives {task : TaskId} {slot : TaskSlot State}
        (present : (g.tasks.retain fun _ slot => decide (slot.node ≠ node)).get task = some slot) :
        g.tasks.get task = some slot ∧ slot.node ≠ node ∧ g.livesOn node task = false := by
      rw [SortedMap.get_retain, Option.filter_eq_some_iff, decide_eq_true_eq] at present
      refine ⟨present.1, present.2, ?_⟩
      simp [livesOn, present.1, present.2]
    constructor
    · intro task slot different present awaits
      obtain ⟨live, elsewhere, spared⟩ := survives present
      rcases dropped.wakes task slot different live awaits with listed | ⟨event, member, kind⟩
      · obtain ⟨waiters, found, member⟩ := listed
        refine Or.inl ⟨waiters.filter fun task => !g.livesOn node task, ?_,
          List.mem_filter.mpr ⟨member, by simp [spared]⟩⟩
        have kept : (g.recvWaiters.remove node).get slot.node = some waiters :=
          (SortedMap.get_remove_of_ne _ elsewhere).trans found
        exact (SortedMap.get_mapValues _ _ _).trans (by rw [kept]; rfl)
      · refine Or.inr ⟨event, (KeyedQueue.mem_retain _ _ _).mpr ⟨member, ?_⟩, kind⟩
        rw [kind]
        exact congrArg not spared
    · intro task slot present empty
      exact dropped.taken task slot (survives present).1 empty
  · exact wakes

theorem wakes_loop {rules : Rules State Value} {g after : Inner State Value}
    (effect : LoopEffect rules fills outside g after) (wakes : Wakes ending g) :
    Wakes ending after := by
  cases effect with
  | faulted | drawn | revived | registered => exact { wakes with }
  | crashed node => exact wakes_crash node wakes
  | filled slot join value =>
      refine Wakes.ofEnqueueAll ?_ _
      exact { wakes with }
  | parked task slot future running present =>
      constructor
      · intro other found different live awaits
        rw [SortedMap.get_insert] at live
        split_ifs at live with same
        · cases live
          subst same
          exact wakes.wakes other slot different present awaits
        · exact wakes.wakes other found different live awaits
      · intro other found live empty
        rw [SortedMap.get_insert] at live
        split_ifs at live with same
        · cases live
          cases empty
        · refine Or.inr ((wakes.taken other found live empty).resolve_left ?_)
          rw [running]
          rintro ⟨⟩
          exact same rfl
  | halted task running absent =>
      refine { wakes with taken := ?_ }
      intro other found live empty
      refine Or.inr ((wakes.taken other found live empty).resolve_left ?_)
      rw [running]
      rintro ⟨⟩
      cases absent.symm.trans live
  | ended task running =>
      have rest {other : TaskId} {found : TaskSlot State}
          (live : (g.tasks.remove task).get other = some found) :
          g.tasks.get other = some found ∧ other ≠ task := by
        rw [SortedMap.get_remove] at live
        split_ifs at live with same
        exact ⟨live, same⟩
      constructor
      · intro other found different live awaits
        exact wakes.wakes other found different (rest live).1 awaits
      · intro other found live empty
        refine Or.inr ((wakes.taken other found (rest live).1 empty).resolve_left ?_)
        rw [running]
        rintro ⟨⟩
        exact (rest live).2 rfl
  | scheduled time action => exact { wakes.ofPush time g.seq (.nemesis action) with }

/-- Whoever a delivery takes off the list is queued. -/
theorem Wakes.ofDelivered {g : Inner State Value} (wakes : Wakes ending g) (receiver : NodeId) :
    Wakes ending (((g.recvWaiters.get receiver).getD []).foldl enqueuePollNow { g with
      recvWaiters := if g.recvWaiters.contains receiver then g.recvWaiters.insert receiver []
        else g.recvWaiters }) := by
  generalize same : ({ g with
    recvWaiters := if g.recvWaiters.contains receiver then g.recvWaiters.insert receiver []
      else g.recvWaiters } : Inner State Value) = taken
  have wakesAll := enqueueAll_wakes ((g.recvWaiters.get receiver).getD []) taken
  have kept := mem_enqueueAll ((g.recvWaiters.get receiver).getD []) taken
  obtain ⟨pushed, shape⟩ := enqueueAll_shape ((g.recvWaiters.get receiver).getD []) taken
  rw [shape] at wakesAll kept ⊢
  subst same
  refine { wakes with wakes := ?_ }
  intro task slot different present awaits
  rcases wakes.wakes task slot different present awaits with
    ⟨waiters, found, member⟩ | ⟨left, member, poll⟩
  · by_cases here : slot.node = receiver
    · -- The whole list of the receiver is emptied, and everyone on it is polled.
      subst here
      refine Or.inr (wakesAll task ?_)
      rw [show g.recvWaiters.get slot.node = some waiters from found]
      exact member
    · refine Or.inl ⟨waiters, ?_, member⟩
      dsimp only
      split_ifs
      · exact (SortedMap.get_insert_of_ne _ _ here).trans found
      · exact found
  · exact Or.inr ⟨left, kept left member, poll⟩

/-- The popped event was the wake-up of a waiting task only if that task is now
polled: it has everything still to wait for. -/
theorem wakes_pop {g after : Inner State Value} {event : Keyed} (effect : PopEffect g event after)
    (idle : g.currentTask = none) (wakes : Wakes ending g) : Wakes ending after := by
  have none_ {task slot} (present : g.tasks.get task = some slot) (empty : slot.future = none) :=
    (wakes.taken task slot present empty).resolve_left (by simp [idle])
  have popping {queue} (popped : g.queue.pop = some (event, queue))
      (other : ∀ task slot, event.kind = .pollTask task → g.tasks.get task = some slot →
        slot.future = none) : Wakes ending { g with queue } := by
    refine { wakes with wakes := ?_ }
    intro task slot different present awaits
    rcases wakes.wakes task slot different present awaits with listed | ⟨left, member, kind⟩
    · exact Or.inl listed
    · rcases (KeyedQueue.mem_of_pop popped left).mp member with rfl | rest
      · -- The event polled a task whose future is out, and such a task holds nothing.
        obtain ⟨id, _, registeredTask, found⟩ := awaits
        exact absurd rfl (none_ present (other task slot kind present) id _ found)
      · exact Or.inr ⟨left, rest, kind⟩
  have elsewhere {queue} {task : TaskId} (popped : g.queue.pop = some (event, queue))
      (kind : event.kind = .pollTask task) {own : TaskId} {slot : TaskSlot State}
      (different : ending ≠ some own) (present : g.tasks.get own = some slot)
      (others : own ≠ task) (awaits : g.Awaits own slot.node) :
      g.Registered own slot.node ∨ Woken { g with queue } own := by
    rcases wakes.wakes own slot different present awaits with listed | ⟨left, member, poll⟩
    · exact Or.inl listed
    · rcases (KeyedQueue.mem_of_pop popped left).mp member with rfl | rest
      · exact absurd (EventKind.pollTask.inj (poll.symm.trans kind)) others
      · exact Or.inr ⟨left, rest, poll⟩
  cases effect with
  | idle queue dispatched trace popped reason =>
      refine { popping popped ?_ with }
      intro task slot kind present
      simp only [Idle, kind] at reason
      exact reason slot present
  | fired queue timer task popped kind =>
      have rest := popping popped (by simp [kind])
      exact { rest.ofPush event.time g.seq (.pollTask task) with }
  | dropped queue tape sender receiver msg reason popped kind =>
      exact { popping popped (by simp [kind]) with }
  | delivered queue tape sender receiver msg popped kind =>
      have rest := popping popped (by simp [kind])
      exact Wakes.ofDelivered (g := { g with
        queue, now := event.time, tape
        dispatched := g.dispatched + 1
        trace := g.trace ++ [TraceLine.dispatched event]
        audit.finished := g.audit.finished ++ [(event, .delivered)]
        inboxes := g.inboxes.insert receiver
          ((g.inboxes.get receiver).getD [] ++ [(sender, msg)]) }) { rest with } receiver
  | begun queue task slot future popped kind present =>
      -- The poll that begins clears what its own task awaits.
      have other {own found} (live : (g.tasks.insert task { slot with future := none }).get own =
          some found) (different : own ≠ task) : g.tasks.get own = some found :=
        (SortedMap.get_insert_of_ne _ _ different).symm.trans live
      constructor
      · rintro own found different live ⟨id, member, registeredTask, holds⟩
        obtain ⟨member, unpolled⟩ := Finset.mem_filter.mp member
        have others : own ≠ task := by
          rintro rfl
          exact unpolled ((mem_ownedBy _ _ _).mpr ⟨_, holds, rfl⟩)
        exact elsewhere popped kind different (other live others) others
          ⟨id, member, registeredTask, holds⟩
      · intro own found live empty
        by_cases same : own = task
        · exact Or.inl (congrArg some same.symm)
        · exact Or.inr (none_ (other live same) empty)
  | lost queue task slot popped kind present =>
      -- A task of a crashed node loses its futures, receives included.
      have other {own found} (live : (g.tasks.insert task { slot with future := none }).get own =
          some found) (different : own ≠ task) : g.tasks.get own = some found :=
        (SortedMap.get_insert_of_ne _ _ different).symm.trans live
      have left {id held} (holds : (g.futures.retain fun _ held =>
          !held.owner.any fun owner => decide (owner = task)).get id = some held) :
          g.futures.get id = some held ∧ held.owner ≠ some task := by
        rw [SortedMap.get_retain, Option.filter_eq_some_iff] at holds
        refine ⟨holds.1, ?_⟩
        intro owner
        simp [owner] at holds
      constructor
      · rintro own found different live ⟨id, member, registeredTask, holds⟩
        have others : own ≠ task := fun same => (left holds).2 (congrArg some same)
        exact elsewhere popped kind different (other live others) others
          ⟨id, member, registeredTask, (left holds).1⟩
      · intro own found live empty
        refine Or.inr ?_
        intro id held holds
        by_cases same : own = task
        · exact same ▸ (left holds).2
        · exact none_ (other live same) empty id held (left holds).1

end Effects

/-! Steps. -/

theorem wakes_changes {fills : SlotId → Prop} {outside : Prop} {g after : Inner State Value}
    (changes : Changes (wakeRules ending) fills outside g after) (counted : Counted g)
    (wakes : Wakes ending g) : Counted after ∧ Wakes ending after := by
  induction changes with
  | refl => exact ⟨counted, wakes⟩
  | tail _ change ih =>
      refine ⟨counted_change _ _ change ih.1, ?_⟩
      cases change with
      | op effect => exact wakes_op effect ih.1 ih.2
      | loop effect => exact wakes_loop effect ih.2

/-- A task may be left out while it is dropped, since it is gone in the end. -/
theorem Wakes.ended {g : Inner State Value} {task : TaskId} (wakes : Wakes (some task) g)
    (gone : g.tasks.get task = none) : Wakes none g := by
  refine { wakes with wakes := ?_ }
  intro other slot _ present awaits
  refine wakes.wakes other slot ?_ present awaits
  rintro ⟨⟩
  cases gone.symm.trans present

theorem finishTask_wakes {g : Inner State Value} {task : TaskId} (slot : Option SlotId)
    (value : Value) (running : g.currentTask = some task)
    (drops : ReleasesMeet (MayUnregister (some task)) (g.ownedBy task) g) (counted : Counted g)
    (wakes : Wakes none g) : Wakes none (g.finishTask task slot value) := by
  have changes : Changes (wakeRules (some task)) (fun _ => True) False g
      (g.finishTask task slot value) :=
    finishTask_changes g task slot value running (fun _ _ => trivial) drops
  have others : Wakes (some task) g :=
    { wakes with wakes := fun other found _ => wakes.wakes other found (by simp) }
  exact (wakes_changes changes counted others).2.ended (SortedMap.get_remove_self _ _)

theorem pollTask_wakes (program : Program State Value) {g : Inner State Value} {event : Keyed}
    {queue : EventQueue} {task : TaskId} (popped : g.queue.pop = some (event, queue))
    (kind : event.kind = .pollTask task)
    (meets : DispatchWakes program { g with queue, now := event.time } event)
    (idle : g.currentTask = none) (counted : Counted g) (wakes : Wakes none g) :
    Wakes none (pollTask program { g with queue, now := event.time } event task) := by
  have skipped (reason : Idle g event) : Wakes none { g with queue, now := event.time } :=
    wakes_pop (PopEffect.idle queue g.dispatched g.trace popped reason (Or.inl rfl)) idle wakes
  unfold pollTask
  split
  next absent => exact skipped (by simp [Idle, kind, show g.tasks.get task = none from absent])
  next slot present =>
    split
    next taken => exact skipped (by simp [Idle, kind, show g.tasks.get task = _ from present, taken])
    next future ready =>
      dsimp only
      split_ifs with down
      · exact wakes_pop (PopEffect.lost queue task slot popped kind present down) idle wakes
      · have begun := PopEffect.begun queue task slot future popped kind present ready down
        simp only [DispatchWakes, kind] at meets
        obtain ⟨calls, drops⟩ := meets slot future present ready down
        have ran : Changes (wakeRules none) (fun _ => True) False _ _ :=
          (exec_effects _ _ calls).changes
        obtain ⟨counted, wakes⟩ := wakes_changes ran (counted_pop _ _ _ begun counted)
          (wakes_pop begun idle wakes)
        have frame := exec_frame (program future.state)
          (({ g with
            queue, now := event.time
            tasks := g.tasks.insert task { slot with future := none } }.countDispatch
              (.dispatched event)).beginPoll task)
        split
        next state after shape =>
          rw [shape] at counted wakes frame
          have parked : Changes (wakeRules none) (fun _ => True) False after
              (after.parkTask task { future with state }) :=
            parkTask_changes after task _ frame.currentTask fun _ _ => trivial
          exact (wakes_changes parked counted wakes).2
        next value after shape =>
          rw [shape] at counted wakes frame
          exact finishTask_wakes future.slot value frame.currentTask (drops value after shape)
            counted wakes

theorem turn_wakes {program : Program State Value} {g next : Inner State Value} {event : Keyed}
    (turned : turn program g = .next event next)
    (allowed : ∀ queue, DispatchWakes program { g with queue, now := event.time } event)
    (idle : g.currentTask = none) (counted : Counted g) (wakes : Wakes none g) :
    Wakes none next := by
  by_cases polls : ∃ task, event.kind = .pollTask task
  · obtain ⟨task, kind⟩ := polls
    obtain ⟨queue, popped, _, rfl⟩ := next_shape program g next event turned
    simp only [dispatch, kind]
    exact pollTask_wakes program popped kind (allowed queue) idle counted wakes
  · have meets (queue) : DispatchMeets (wakeRules none) program
        { g with queue, now := event.time } event := by
      have allowed := allowed queue
      unfold DispatchWakes at allowed
      split at allowed
      next task kind => exact absurd ⟨task, kind⟩ polls
      next => exact allowed
    obtain ⟨mid, popped, changes⟩ := turn_changes program _ _ _ turned meets
    exact (wakes_changes changes (counted_pop _ _ _ popped counted)
      (wakes_pop popped idle wakes)).2

/-- A cut-off run may take a wake-up with it that nobody needs. -/
theorem abort_wakes {program : Program State Value} {g next : Inner State Value} {event : Keyed}
    (aborted : turn program g = .abort event next)
    (allowed : ∀ task slot, event.kind = .pollTask task → g.tasks.get task = some slot →
      g.Awaits task slot.node → g.Registered task slot.node)
    (wakes : Wakes none g) : Wakes none next := by
  obtain ⟨queue, popped, _, rfl⟩ := abort_shape program g next event aborted
  have rest : Wakes none { g with queue } := by
    refine { wakes with wakes := ?_ }
    intro task slot other present awaits
    rcases wakes.wakes task slot other present awaits with listed | ⟨left, member, kind⟩
    · exact Or.inl listed
    · rcases (KeyedQueue.mem_of_pop popped left).mp member with rfl | later
      · exact Or.inl (allowed task slot kind present awaits)
      · exact Or.inr ⟨left, later, kind⟩
  split_ifs <;> exact { rest with }

/-- No wake-up is lost in a history in which no task is unregistered that waits on. -/
theorem no_lost_wakeup (program : Program State Value) (nextAction : NextAction Plan)
    (g : Inner State Value)
    (under : ReachableUnder program nextAction (keepsWaiters program) g) : NoLostWakeup g := by
  have wakes : Wakes none g := by
    refine reachableUnder_invariant (Wakes none) ?_ ?_ under
    · intro seed config tape _
      constructor <;> simp [fromTape]
    · intro g after reachable step wakes
      have counted := reachable_counted program nextAction g reachable
      have settled := reachable_settled program nextAction g reachable
      cases step with
      | operate op allowed =>
          have changes : Changes (wakeRules none) (fun _ => True) True g
              (g.operate nextAction op).2 := operate_changes nextAction g op allowed
          exact (wakes_changes changes counted wakes).2
      | turn turned allowed => exact turn_wakes turned allowed settled.idle counted wakes
      | abort aborted allowed => exact abort_wakes aborted allowed wakes
  exact fun task slot => wakes.wakes task slot (by simp)

/-! A receive guarded by a timeout, next to one that is not. -/

inductive TwoReceives where
  | start
  | both (plain guarded timer : FutureId)
  | plain (plain : FutureId)

/-- One poll of `join(recv(), timeout(1 ms, recv()))`. -/
def pollBoth (plain guarded timer : FutureId) :
    Code TwoReceives Unit (TaskPoll TwoReceives Unit) :=
  .call (.poll plain) fun
    | .pending => Code.pollTimeout guarded timer fun
      | some .pending => .done (.pending (.both plain guarded timer))
      | _ => .done (.pending (.plain plain))
    | _ => .done (.ready ())

def twoReceives : Program TwoReceives Unit
  | .start => .call (.recv 0) fun
    | .future plain => .call (.recv 0) fun
      | .future guarded => Code.sleep 0 nanosPerMilli fun
        | .future timer => pollBoth plain guarded timer
        | _ => .done (.ready ())
      | _ => .done (.ready ())
    | _ => .done (.ready ())
  | .both plain guarded timer => pollBoth plain guarded timer
  | .plain plain => .call (.poll plain) fun
    | .pending => .done (.pending (.plain plain))
    | _ => .done (.ready ())

def twoReceivesWorld : Inner TwoReceives Unit :=
  ((replay 0 [] {}).operate noPlans (.addNode 0 fun _ => .done .start)).2

theorem permit_call {g : Inner State Value} {op : Op State}
    (other : ∀ id, op ≠ .poll id ∧ op ≠ .drop id) : (wakeRules ending).Permit g op := by
  refine ⟨fun _ _ => trivial, ?_⟩
  rintro node task after ⟨id, owner, _, ⟨drops, _⟩ | ⟨_, _, polls, _⟩⟩
  · exact absurd drops (other id).2
  · exact absurd polls (other id).1

theorem permit_poll {g : Inner State Value} {id : FutureId} {held : Held}
    (found : g.futures.get id = some held)
    (fresh : ∀ node task, held.leaf ≠ .recv node (some task)) :
    (wakeRules ending).Permit g (.poll id : Op State) := by
  refine ⟨fun _ _ => trivial, ?_⟩
  rintro node task after ⟨other, owner, present, ⟨drops, _⟩ | ⟨_, _, polls, _⟩⟩
  · cases drops
  · cases polls
    cases found.symm.trans present
    exact absurd rfl (fresh node task)

/-- The node's task starts with a receive that its factory made. -/
def receiveWorld : Inner TwoReceives Unit :=
  ((replay 0 [] {}).operate noPlans (.addNode 0 fun node => .call (.recv node) fun
    | .future plain => .done (.plain plain)
    | _ => .done .start)).2

theorem receive_not_lost :
    NoLostWakeup (advance twoReceives 1 receiveWorld) ∧
      (advance twoReceives 1 receiveWorld).Awaits 0 0 := by
  have added : Step twoReceives noPlans (keepsWaiters twoReceives) (replay 0 [] {})
      receiveWorld := by
    refine Step.operate (.addNode 0 _) fun _ => ⟨trivial, permit_call (by simp), ?_⟩
    trivial
  have polled : Step twoReceives noPlans (keepsWaiters twoReceives) receiveWorld
      (advance twoReceives 1 receiveWorld) := by
    refine Step.turn rfl ?_
    intro queue slot future present ready _
    cases present
    cases ready
    refine ⟨⟨@permit_poll _ _ _ _ _ ⟨some 0, .recv 0 none⟩ rfl (by simp), trivial⟩, ?_⟩
    intro value after ran
    exact absurd (congrArg Prod.fst ran) (by nofun)
  refine ⟨no_lost_wakeup twoReceives noPlans _ ⟨replay 0 [] {}, ⟨0, {}, Or.inr ⟨[], rfl⟩⟩, ?_⟩,
    ⟨0, by decide, some 0, by decide⟩⟩
  exact (Relation.ReflTransGen.single added).tail polled

/-- The timeout of the second receive takes the task off the list, and the first
receive waits for ever: nothing is left in the queue. -/
theorem twoReceives_lose_wakeup :
    Reachable twoReceives noPlans (advance twoReceives 3 twoReceivesWorld) ∧
      (advance twoReceives 3 twoReceivesWorld).queue.entries = [] ∧
      ¬NoLostWakeup (advance twoReceives 3 twoReceivesWorld) := by
  refine ⟨reachable_advance 3 (.operate _ (.replay 0 [] {})), by decide, ?_⟩
  intro kept
  rcases kept 0 ⟨0, some ⟨.plain 0, none⟩⟩ rfl ⟨0, by decide, some 0, by decide⟩ with
    ⟨waiters, listed, member⟩ | ⟨event, member, _⟩
  · cases listed
    cases member
  · cases member

end Inner

end Detersim
