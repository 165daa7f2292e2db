import Detersim.Run

/-!
What the event loop and the public operations can do to the simulator, said once
in the same way: how an event leaves the queue, and the other updates around the
program code. A turn is one `PopEffect` and then a chain of `Change`s.
-/

namespace Detersim

namespace Inner

variable {State Value : Type}

/-- An event that is popped to no effect, or whose effect is on other parts of the state. -/
def Idle (g : Inner State Value) (event : Keyed) : Prop :=
  match event.kind with
  | .pollTask task => ∀ slot, g.tasks.get task = some slot → slot.future = none
  | .timerFire timer => g.timers.get timer = none
  | .deliverMsg .. => False
  | .nemesis _ => True

inductive PopEffect (g : Inner State Value) (event : Keyed) : Inner State Value → Prop where
  | idle (queue dispatched trace) (popped : g.queue.pop = some (event, queue))
      (reason : Idle g event)
      (noted : trace = g.trace ∨ trace = g.trace ++ [TraceLine.dispatched event]) :
      PopEffect g event { g with queue, now := event.time, dispatched, trace }
  | fired (queue timer task) (popped : g.queue.pop = some (event, queue))
      (kind : event.kind = .timerFire timer) (armed : g.timers.get timer = some task) :
      PopEffect g event ({ g with
        queue, now := event.time
        dispatched := g.dispatched + 1
        trace := g.trace ++ [TraceLine.dispatched event]
        timers := g.timers.remove timer }.enqueuePollNow task)
  | dropped (queue tape sender receiver msg reason)
      (popped : g.queue.pop = some (event, queue))
      (kind : event.kind = .deliverMsg sender receiver msg)
      (recorded : g.tape.log <+: tape.log) (aligned : g.tape.Aligned → tape.Aligned) :
      PopEffect g event { g with
        queue, now := event.time, tape
        dispatched := g.dispatched + 1
        trace := g.trace ++ [.dropped reason event.time event.seq sender receiver]
        audit.finished := g.audit.finished ++ [(event, .dropped reason)] }
  | delivered (queue tape sender receiver msg)
      (popped : g.queue.pop = some (event, queue))
      (kind : event.kind = .deliverMsg sender receiver msg)
      (recorded : g.tape.log <+: tape.log) (aligned : g.tape.Aligned → tape.Aligned)
      (registered : receiver ∈ g.nodes) (running : receiver ∉ g.crashed)
      (sending : sender ∉ g.crashed) :
      PopEffect g event (((g.recvWaiters.get receiver).getD []).foldl enqueuePollNow { g with
        queue, now := event.time, tape
        dispatched := g.dispatched + 1
        trace := g.trace ++ [TraceLine.dispatched event]
        audit.finished := g.audit.finished ++ [(event, .delivered)]
        inboxes := g.inboxes.insert receiver
          ((g.inboxes.get receiver).getD [] ++ [(sender, msg)])
        recvWaiters := if g.recvWaiters.contains receiver then g.recvWaiters.insert receiver []
          else g.recvWaiters })
  | begun (queue task slot future) (popped : g.queue.pop = some (event, queue))
      (kind : event.kind = .pollTask task) (present : g.tasks.get task = some slot)
      (ready : slot.future = some future) (running : slot.node ∉ g.crashed) :
      PopEffect g event ({ g with
        queue, now := event.time
        dispatched := g.dispatched + 1
        trace := g.trace ++ [TraceLine.dispatched event]
        tasks := g.tasks.insert task { slot with future := none } }.beginPoll task)
  | lost (queue task slot) (popped : g.queue.pop = some (event, queue))
      (kind : event.kind = .pollTask task) (present : g.tasks.get task = some slot)
      (down : slot.node ∈ g.crashed) :
      PopEffect g event ({ g with
        queue, now := event.time
        tasks := g.tasks.insert task { slot with future := none } }.discard
          fun owner => decide (owner = task))

/-- `fills` holds of the join slot a finishing task fills; `outside` of public
operations, which alone schedule events at a time of the caller's choice. -/
inductive LoopEffect (rules : Rules State Value) (fills : SlotId → Prop) (outside : Prop)
    (g : Inner State Value) : Inner State Value → Prop where
  | faulted (faults storage nemesisTrace history) :
      LoopEffect rules fills outside g { g with faults, storage, nemesisTrace, history }
  | drawn (tape) (recorded : g.tape.log <+: tape.log) (aligned : g.tape.Aligned → tape.Aligned) :
      LoopEffect rules fills outside g { g with tape }
  | crashed (node) (allowed : rules.crashes g node) :
      LoopEffect rules fills outside g (g.crashNode node)
  | revived (node) (down : node ∈ g.crashed) :
      LoopEffect rules fills outside g { g with crashed := g.crashed.erase node }
  | registered (node faults storage factories) (fresh : node ∉ g.nodes) :
      LoopEffect rules fills outside g { g with
        nodes := insert node g.nodes
        inboxes := g.inboxes.insert node ((g.inboxes.get node).getD [])
        faults, storage, factories }
  | filled (slot join value) (allowed : fills slot) (present : g.slots.get slot = some join) :
      LoopEffect rules fills outside g (join.joiners.foldl enqueuePollNow
        { g with slots := g.slots.insert slot ⟨true, some value, []⟩ })
  | parked (task slot future) (running : g.currentTask = some task)
      (present : g.tasks.get task = some slot)
      (linked : ∀ slot, future.slot = some slot → fills slot) :
      LoopEffect rules fills outside g { g with
        currentTask := none
        tasks := g.tasks.insert task { slot with future := some future } }
  | halted (task) (running : g.currentTask = some task) (absent : g.tasks.get task = none) :
      LoopEffect rules fills outside g { g with currentTask := none }
  | ended (task) (running : g.currentTask = some task)
      (released : ∀ id held, g.futures.get id = some held → held.owner ≠ some task) :
      LoopEffect rules fills outside g { g with currentTask := none, tasks := g.tasks.remove task }
  | scheduled (time action) (allowed : outside) :
      LoopEffect rules fills outside g (g.pushEvent time (.nemesis action))

/-- One update, by program code or around it. -/
inductive Change (rules : Rules State Value) (fills : SlotId → Prop) (outside : Prop)
    (g after : Inner State Value) : Prop where
  | op (effect : OpEffect rules g after)
  | loop (effect : LoopEffect rules fills outside g after)

abbrev Changes (rules : Rules State Value) (fills : SlotId → Prop) (outside : Prop) :
    Inner State Value → Inner State Value → Prop :=
  Relation.ReflTransGen (Change rules fills outside)

variable {rules : Rules State Value} {fills : SlotId → Prop} {outside : Prop}

theorem OpEffects.changes {g after : Inner State Value} (effects : OpEffects rules g after) :
    Changes rules fills outside g after := by
  induction effects with
  | refl => exact Relation.ReflTransGen.refl
  | tail _ effect ih => exact ih.tail (Change.op effect)

theorem LoopEffect.changes {g after : Inner State Value}
    (effect : LoopEffect rules fills outside g after) : Changes rules fills outside g after :=
  Relation.ReflTransGen.single (Change.loop effect)

/-- What is asked of the code run on the way to a finished task's end: each
receive still held when it is dropped. -/
def ReleasesMeet (may : Inner State Value → NodeId → TaskId → Prop) :
    List FutureId → Inner State Value → Prop
  | [], _ => True
  | id :: rest, g =>
      (∀ node task owner, g.futures.get id = some ⟨owner, .recv node (some task)⟩ →
        may (g.forget id) node task) ∧ ReleasesMeet may rest (g.release id)

theorem releases_effects (ids : List FutureId) (g : Inner State Value)
    (meets : ReleasesMeet rules.may ids g) : OpEffects rules g (ids.foldl release g) := by
  induction ids generalizing g with
  | nil => exact Relation.ReflTransGen.refl
  | cons id rest ih =>
      obtain ⟨first, later⟩ := meets
      refine (release_effects g id ?_).trans (ih _ later)
      rintro ⟨owner, leaf⟩ node task found rfl
      exact first node task owner found

/-- What is asked of one poll: of every call the code makes, and of the futures
dropped when the task is done. -/
def PollMeets (rules : Rules State Value) (program : Program State Value) (task : TaskId)
    (state : State) (g : Inner State Value) : Prop :=
  Meets rules.Permit (program state) g ∧
    ∀ value after, g.exec (program state) = (.ready value, after) →
      ReleasesMeet rules.may (after.ownedBy task) after

def FactoryMeets (rules : Rules State Value) (node : NodeId) (factory : NodeFactory State Value)
    (g : Inner State Value) : Prop :=
  rules.scope g.crashed node ∧ Meets rules.Permit (factory node) g

/-- What is asked of the code a turn runs. -/
def DispatchMeets (rules : Rules State Value) (program : Program State Value)
    (g : Inner State Value) (event : Keyed) : Prop :=
  match event.kind with
  | .pollTask task => ∀ slot future, g.tasks.get task = some slot → slot.future = some future →
      slot.node ∉ g.crashed →
      PollMeets rules program task future.state
        (({ g with tasks := g.tasks.insert task { slot with future := none } }.countDispatch
          (.dispatched event)).beginPoll task)
  | .nemesis (.restart node) => ∀ factory, node ∈ g.crashed → g.factories.get node = some factory →
      FactoryMeets rules node factory
        { g.countDispatch (.dispatched event) with
          nemesisTrace := g.nemesisTrace ++ [.restart node]
          crashed := g.crashed.erase node }
  | .nemesis (.crash node) => rules.crashes
      { g.countDispatch (.dispatched event) with
        nemesisTrace := g.nemesisTrace ++ [.crash node] } node
  | _ => True

/-- Waking tasks only pushes events. -/
theorem enqueueAll_shape (tasks : List TaskId) (g : Inner State Value) :
    ∃ queue, tasks.foldl enqueuePollNow g = { g with seq := g.seq + tasks.length, queue } := by
  induction tasks generalizing g with
  | nil => exact ⟨g.queue, rfl⟩
  | cons task rest ih =>
      obtain ⟨queue, shape⟩ := ih (g.enqueuePollNow task)
      refine ⟨queue, ?_⟩
      rw [List.foldl_cons, shape, List.length_cons, Nat.add_comm rest.length, ← Nat.add_assoc]
      rfl

theorem mem_enqueueAll (tasks : List TaskId) (g : Inner State Value) (event : Keyed)
    (member : event ∈ g.queue) : event ∈ (tasks.foldl enqueuePollNow g).queue := by
  induction tasks generalizing g with
  | nil => exact member
  | cons task rest ih => exact ih _ ((KeyedQueue.mem_push _ _ _).mpr (Or.inr member))

theorem of_mem_enqueueAll (tasks : List TaskId) (g : Inner State Value) (event : Keyed)
    (member : event ∈ (tasks.foldl enqueuePollNow g).queue) :
    event ∈ g.queue ∨ ∃ task ∈ tasks, event.kind = .pollTask task ∧ g.seq ≤ event.seq := by
  induction tasks generalizing g with
  | nil => exact Or.inl member
  | cons task rest ih =>
      rcases ih (g.enqueuePollNow task) member with pushed | ⟨other, later, kind, young⟩
      · rcases (KeyedQueue.mem_push _ _ _).mp pushed with rfl | old
        · exact Or.inr ⟨task, List.mem_cons_self, rfl, le_rfl⟩
        · exact Or.inl old
      · exact Or.inr ⟨other, List.mem_cons_of_mem task later, kind, (Nat.le_succ g.seq).trans young⟩

theorem enqueueAll_wakes (tasks : List TaskId) (g : Inner State Value) (task : TaskId)
    (member : task ∈ tasks) :
    ∃ event ∈ (tasks.foldl enqueuePollNow g).queue, event.kind = .pollTask task := by
  induction tasks generalizing g with
  | nil => exact absurd member List.not_mem_nil
  | cons first rest ih =>
      rcases List.mem_cons.mp member with rfl | later
      · exact ⟨⟨g.now, g.seq, .pollTask task⟩,
          mem_enqueueAll rest _ _ ((KeyedQueue.mem_push _ _ _).mpr (Or.inl rfl)), rfl⟩
      · exact ih _ later

/-- The tasks a crash of `node` removes. -/
def livesOn (g : Inner State Value) (node : NodeId) (task : TaskId) : Bool :=
  (g.tasks.get task).any fun slot => decide (slot.node = node)

theorem livesOn_iff (g : Inner State Value) (node : NodeId) (task : TaskId) :
    g.livesOn node task = true ↔ ∃ slot, g.tasks.get task = some slot ∧ slot.node = node := by
  rw [livesOn, Option.any_eq_true]
  simp only [decide_eq_true_eq]

theorem get_release (g : Inner State Value) (id other : FutureId) :
    (g.release id).futures.get other = if other = id then none else g.futures.get other := by
  unfold release
  cases present : g.futures.get id with
  | none => by_cases same : other = id <;> simp [same, present]
  | some held =>
      dsimp only
      rw [forget_dropLeaf]
      have kept : ((g.forget id).dropLeaf held.leaf).futures = g.futures.remove id := by
        cases held.leaf with
        | sleep _ _ timer => cases timer <;> rfl
        | recv node registeredTask =>
            cases registeredTask with
            | none => rfl
            | some task =>
                simp only [dropLeaf, unregisterRecvWaiter]
                split <;> rfl
        | join slot waitingTask =>
            cases waitingTask with
            | none => rfl
            | some task =>
                simp only [dropLeaf]
                split <;> rfl
      rw [kept, SortedMap.get_remove]

theorem get_releases (ids : List FutureId) (g : Inner State Value) (other : FutureId) :
    (ids.foldl release g).futures.get other =
      if other ∈ ids then none else g.futures.get other := by
  induction ids generalizing g with
  | nil => simp
  | cons id rest ih =>
      rw [List.foldl_cons, ih, get_release]
      by_cases same : other = id <;> by_cases later : other ∈ rest <;> simp [same, later]

theorem mem_ownedBy (g : Inner State Value) (task : TaskId) (id : FutureId) :
    id ∈ g.ownedBy task ↔ ∃ held, g.futures.get id = some held ∧ held.owner = some task := by
  simp only [ownedBy, SortedMap.keys, SortedMap.retain, List.mem_map, List.mem_filter,
    decide_eq_true_eq, SortedMap.get_eq_some]
  constructor
  · rintro ⟨⟨_, held⟩, ⟨member, owner⟩, rfl⟩
    exact ⟨held, member, owner⟩
  · rintro ⟨held, member, owner⟩
    exact ⟨(id, held), ⟨member, owner⟩, rfl⟩

theorem released_owned (g : Inner State Value) (task : TaskId) (id : FutureId) (held : Held)
    (present : ((g.ownedBy task).foldl release g).futures.get id = some held) :
    held.owner ≠ some task := by
  rw [get_releases] at present
  split_ifs at present with owned
  intro owner
  exact owned ((mem_ownedBy g task id).mpr ⟨held, present, owner⟩)

-- The slot is filled before the task is removed, so the joiners wake up in its last turn.
theorem finishTask_changes (g : Inner State Value) (task : TaskId) (slot : Option SlotId)
    (value : Value) (running : g.currentTask = some task)
    (linked : ∀ id, slot = some id → fills id) (meets : ReleasesMeet rules.may (g.ownedBy task) g) :
    Changes rules fills outside g (g.finishTask task slot value) := by
  have frame := releases_frame (g.ownedBy task) g
  have released := released_owned g task
  have dropped : Changes rules fills outside g ((g.ownedBy task).foldl release g) :=
    (releases_effects (g.ownedBy task) g meets).changes
  unfold finishTask
  dsimp only
  generalize (g.ownedBy task).foldl release g = mid at frame released dropped ⊢
  have current : mid.currentTask = some task := frame.currentTask.trans running
  -- Waking the joiners touches neither the running task nor the futures.
  have ends : ∀ after : Inner State Value, after.currentTask = mid.currentTask →
      after.futures = mid.futures → Changes rules fills outside after
        { after with currentTask := none, tasks := after.tasks.remove task } := by
    intro after sameTask sameFutures
    refine (LoopEffect.ended task (sameTask.trans current) ?_).changes
    intro id held present
    exact released id held (sameFutures ▸ present)
  cases slot with
  | none => exact dropped.trans (ends mid rfl rfl)
  | some id =>
      dsimp only
      split
      · exact dropped.trans (ends mid rfl rfl)
      next join present =>
        have woken : Changes rules fills outside mid (join.joiners.foldl enqueuePollNow
            { mid with slots := mid.slots.insert id ⟨true, some value, []⟩ }) :=
          (LoopEffect.filled id join value (linked id rfl) present).changes
        refine (dropped.trans woken).trans (ends _ ?_ ?_)
        all_goals
          obtain ⟨queue, shape⟩ := enqueueAll_shape join.joiners
            { mid with slots := mid.slots.insert id ⟨true, some value, []⟩ }
          rw [shape]

theorem parkTask_changes (g : Inner State Value) (task : TaskId) (future : TaskFuture State)
    (running : g.currentTask = some task) (linked : ∀ id, future.slot = some id → fills id) :
    Changes rules fills outside g (g.parkTask task future) := by
  unfold parkTask
  cases present : g.tasks.get task with
  | none => exact (LoopEffect.halted task running present).changes
  | some slot => exact (LoopEffect.parked task slot future running present linked).changes

theorem spawnRegisteredNode_changes (g : Inner State Value) (node : NodeId)
    (factory : NodeFactory State Value) (meets : FactoryMeets rules node factory g) :
    Changes rules fills outside g (g.spawnRegisteredNode node factory) := by
  obtain ⟨inScope, meets⟩ := meets
  have made : OpEffects rules g (g.exec (factory node)).2 := exec_effects _ _ meets
  rw [← (exec_frame (factory node) g).crashed] at inScope
  have started := made.tail (OpEffect.started node ⟨(g.exec (factory node)).1, none⟩ inScope
    (by rintro slot ⟨⟩))
  exact OpEffects.changes (started.tail (OpEffect.gave (fun _ => true)
    (g.exec (factory node)).2.nextTaskId rfl ⟨node, some ⟨(g.exec (factory node)).1, none⟩⟩
    (SortedMap.get_insert_self _ _ _) (Option.some_ne_none _) inScope))

theorem restartNodeOutcome_changes (g : Inner State Value) (node : NodeId)
    (meets : ∀ factory, node ∈ g.crashed → g.factories.get node = some factory →
      FactoryMeets rules node factory { g with crashed := g.crashed.erase node }) :
    Changes rules fills outside g (g.restartNodeOutcome node).2 := by
  unfold restartNodeOutcome
  split_ifs with registered running
  · split
    · exact Relation.ReflTransGen.refl
    next factory present =>
      exact (LoopEffect.revived node running).changes.trans
        (spawnRegisteredNode_changes _ node factory (meets factory running present))
  · exact Relation.ReflTransGen.refl
  · exact Relation.ReflTransGen.refl

theorem restartNode_changes (g : Inner State Value) (node : NodeId)
    (meets : ∀ factory, node ∈ g.crashed → g.factories.get node = some factory →
      FactoryMeets rules node factory { g with crashed := g.crashed.erase node }) :
    Changes rules fills outside g (g.restartNode node) := by
  have restarted : Changes rules fills outside g (g.restartNodeOutcome node).2 :=
    restartNodeOutcome_changes g node meets
  unfold restartNode
  generalize g.restartNodeOutcome node = result at restarted ⊢
  obtain ⟨outcome, after⟩ := result
  exact restarted.trans (LoopEffect.faulted after.faults after.storage after.nemesisTrace
    (after.history ++ [formatRestartOutcome outcome])).changes

theorem applyNemesis_changes (g : Inner State Value) (action : NemesisAction)
    (allowed : ∀ node, action = .crash node →
      rules.crashes { g with nemesisTrace := g.nemesisTrace ++ [action] } node) :
    Changes rules fills outside g (g.applyNemesis action) := by
  have noted : Changes rules fills outside g
      { g with nemesisTrace := g.nemesisTrace ++ [action] } :=
    (LoopEffect.faulted g.faults g.storage (g.nemesisTrace ++ [action]) g.history).changes
  have faulted (faults storage) : Changes rules fills outside g
      { g with nemesisTrace := g.nemesisTrace ++ [action], faults, storage } :=
    (LoopEffect.faulted faults storage (g.nemesisTrace ++ [action]) g.history).changes
  cases action with
  | crash node => exact noted.trans (LoopEffect.crashed node (allowed node rfl)).changes
  | bitRot node =>
      simp only [applyNemesis]
      split
      · exact noted
      · exact faulted _ _
  | restart => exact noted
  | partition | asymmetricPartition | setLink | healAll | clockSkew | tornWrite | lostOnCrash
  | preFsyncReorder => exact faulted _ _

/-- The join slot the task polled by an event will fill. -/
def Fills (g : Inner State Value) (event : Keyed) (id : SlotId) : Prop :=
  ∃ task slot future, event.kind = .pollTask task ∧ g.tasks.get task = some slot ∧
    slot.future = some future ∧ future.slot = some id

theorem pollTask_changes (program : Program State Value) (g : Inner State Value) (event : Keyed)
    (queue : EventQueue) (task : TaskId) (popped : g.queue.pop = some (event, queue))
    (kind : event.kind = .pollTask task)
    (meets : DispatchMeets rules program { g with queue, now := event.time } event) :
    ∃ mid, PopEffect g event mid ∧ Changes rules (Fills g event) False mid
      (pollTask program { g with queue, now := event.time } event task) := by
  unfold pollTask
  cases present : g.tasks.get task with
  | none =>
      refine ⟨_, PopEffect.idle queue g.dispatched g.trace popped ?_ (Or.inl rfl),
        Relation.ReflTransGen.refl⟩
      simp [Idle, kind, present]
  | some slot =>
      cases ready : slot.future with
      | none =>
          simp only [ready]
          refine ⟨_, PopEffect.idle queue g.dispatched g.trace popped ?_ (Or.inl rfl),
            Relation.ReflTransGen.refl⟩
          simp [Idle, kind, present, ready]
      | some future =>
          simp only [ready]
          split_ifs with down
          · -- The poll takes the future out first and so drops it with everything it owns.
            exact ⟨_, PopEffect.lost queue task slot popped kind present down,
              Relation.ReflTransGen.refl⟩
          · have begun := PopEffect.begun queue task slot future popped kind present ready down
            refine ⟨_, begun, ?_⟩
            simp only [DispatchMeets, kind] at meets
            obtain ⟨calls, drops⟩ := meets slot future present ready down
            have links : ∀ id, future.slot = some id → Fills g event id :=
              fun id link => ⟨task, slot, future, kind, present, ready, link⟩
            have ran : OpEffects rules _ _ := exec_effects _ _ calls
            have frame := exec_frame (program future.state)
              (({ g with
                queue, now := event.time
                tasks := g.tasks.insert task { slot with future := none } }.countDispatch
                  (.dispatched event)).beginPoll task)
            split
            next state after shape =>
              rw [shape] at ran frame
              exact ran.changes.trans (parkTask_changes after task _ frame.currentTask links)
            next value after shape =>
              rw [shape] at ran frame
              exact ran.changes.trans (finishTask_changes after task future.slot value
                frame.currentTask links (drops value after shape))

theorem deliverMsg_changes (g : Inner State Value) (event : Keyed) (queue : EventQueue)
    (sender receiver : NodeId) (msg : Message) (popped : g.queue.pop = some (event, queue))
    (kind : event.kind = .deliverMsg sender receiver msg) :
    PopEffect g event ({ g with queue, now := event.time }.deliverMsg event sender receiver msg) :=
    by
  have still : g.tape.log <+: g.tape.log := List.prefix_refl _
  have dropped := fun tape recorded aligned reason =>
    PopEffect.dropped queue tape sender receiver msg reason popped kind recorded aligned
  unfold deliverMsg
  split_ifs with registered down cut
  · exact dropped g.tape still id .crashed
  · exact dropped g.tape still id .partition
  · have moved := drawPercent_moves { g with queue, now := event.time } g.faults.dropPercent
      .dropDecision
    dsimp only at moved ⊢
    generalize { g with queue, now := event.time }.drawPercent g.faults.dropPercent .dropDecision =
      drawn at moved ⊢
    obtain ⟨lost, mid⟩ := drawn
    obtain ⟨tape, recorded, aligned, rfl⟩ := moved
    rw [not_or] at down
    cases lost with
    | true => exact dropped tape recorded aligned .random
    | false =>
        exact PopEffect.delivered queue tape sender receiver msg popped kind recorded aligned
          registered down.1 down.2
  · exact dropped g.tape still id .unregistered

/-- One turn of the event loop: how the event left the queue, and what followed. -/
theorem turn_changes (program : Program State Value) (g next : Inner State Value) (event : Keyed)
    (turned : turn program g = .next event next)
    (meets : ∀ queue, DispatchMeets rules program { g with queue, now := event.time } event) :
    ∃ mid, PopEffect g event mid ∧ Changes rules (Fills g event) False mid next := by
  unfold turn at turned
  cases popped : g.queue.pop with
  | none => simp [popped] at turned
  | some entry =>
      obtain ⟨head, queue⟩ := entry
      simp only [popped] at turned
      split_ifs at turned
      simp only [Turn.next.injEq] at turned
      obtain ⟨rfl, rfl⟩ := turned
      have meets := meets queue
      unfold dispatch
      split
      next timer kind =>
        unfold fireTimer
        split
        next absent =>
          refine ⟨_, PopEffect.idle queue g.dispatched g.trace popped ?_ (Or.inl rfl),
            Relation.ReflTransGen.refl⟩
          simpa [Idle, kind] using absent
        next task armed =>
          exact ⟨_, PopEffect.fired queue timer task popped kind armed, Relation.ReflTransGen.refl⟩
      next sender receiver msg kind =>
        exact ⟨_, deliverMsg_changes g head queue sender receiver msg popped kind,
          Relation.ReflTransGen.refl⟩
      next action kind =>
        refine ⟨_, PopEffect.idle queue (g.dispatched + 1) (g.trace ++ [.dispatched head]) popped
          (by simp [Idle, kind]) (Or.inr rfl), ?_⟩
        unfold dispatchNemesis
        dsimp only
        split
        next node =>
          simp only [DispatchMeets, kind] at meets
          exact (LoopEffect.faulted g.faults g.storage (g.nemesisTrace ++ [.restart node])
            g.history).changes.trans (restartNode_changes _ node meets)
        next =>
          refine applyNemesis_changes _ action ?_
          rintro node rfl
          simp only [DispatchMeets, kind] at meets
          exact meets
      next task kind => exact pollTask_changes program g head queue task popped kind meets

/-! Public operations between runs. -/

theorem runDraws_changes {Result : Type} (draws : Draws Result) (g : Inner State Value) :
    Changes rules fills outside g (runDraws draws g).2 := by
  induction draws generalizing g with
  | done => exact Relation.ReflTransGen.refl
  | draw label next ih =>
      obtain ⟨tape, recorded, aligned, shape⟩ := draw_moves g (tapeLabelOf label)
      have drawn : Changes rules fills outside g (g.draw (tapeLabelOf label)).2 :=
        shape ▸ (LoopEffect.drawn tape recorded aligned).changes
      exact drawn.trans (ih _ _)

theorem scheduleNemesisPlan_changes {Plan : Type} (nextAction : NextAction Plan)
    (maxActions : Nat) (plan : Plan) (g : Inner State Value) :
    Changes rules fills True g (scheduleNemesisPlan nextAction maxActions plan g).2 := by
  induction maxActions generalizing plan g with
  | zero => exact Relation.ReflTransGen.refl
  | succ maxActions ih =>
      have drawn : Changes rules fills True g (runDraws (nextAction plan g.worldView) g).2 :=
        runDraws_changes _ _
      rw [scheduleNemesisPlan]
      generalize runDraws (nextAction plan g.worldView) g = result at drawn ⊢
      obtain ⟨⟨next, plan⟩, after⟩ := result
      cases next with
      | none => exact drawn
      | some entry =>
          have pushed : Changes rules fills True after
              (after.pushEvent entry.1 (.nemesis entry.2)) :=
            (LoopEffect.scheduled entry.1 entry.2 trivial).changes
          exact (drawn.trans pushed).trans (ih _ _)

/-- What is asked of the code an operation runs. -/
def OperateMeets {Plan : Type} (rules : Rules State Value) (g : Inner State Value) :
    WorldOp State Value Plan → Prop
  | .addNode node factory => node ∉ g.nodes → FactoryMeets rules node factory { g with
      nodes := insert node g.nodes
      faults.connectivity := g.faults.connectivity.addNode node
      inboxes := g.inboxes.insert node ((g.inboxes.get node).getD [])
      storage := g.storage.insert node ((g.storage.get node).getD .empty)
      factories := g.factories.insert node factory }
  | .restartNode node | .restartNodeOutcome node => ∀ factory, node ∈ g.crashed →
      g.factories.get node = some factory →
      FactoryMeets rules node factory { g with crashed := g.crashed.erase node }
  | .crashNode node =>
      rules.crashes { g with nemesisTrace := g.nemesisTrace ++ [.crash node] } node
  | .useEnv code => Meets rules.Permit code g ∧
      ReleasesMeet rules.may
        (((g.exec code).2.futures.retain fun _ held => decide (held.owner = none)).keys)
        (g.exec code).2
  | _ => True

theorem operate_changes {Plan : Type} (nextAction : NextAction Plan) (g : Inner State Value)
    (op : WorldOp State Value Plan) (meets : OperateMeets rules g op) :
    Changes rules fills True g (g.operate nextAction op).2 := by
  have faulted (faults) : Changes rules fills True g { g with faults } :=
    (LoopEffect.faulted faults g.storage g.nemesisTrace g.history).changes
  cases op with
  | addNode node factory =>
      simp only [operate, addNode]
      split_ifs with known
      · exact Relation.ReflTransGen.refl
      · exact (LoopEffect.registered node _ _ _ known).changes.trans
          (spawnRegisteredNode_changes _ node factory (meets known))
  | scheduleNemesis at_ action => exact (LoopEffect.scheduled at_ action trivial).changes
  | scheduleNemesisPlan plan maxActions =>
      exact scheduleNemesisPlan_changes nextAction maxActions plan g
  | setDropPercent | setDuplicatePercent | setExtraDelayMs => exact faulted _
  | partition groups => exact applyNemesis_changes g (.partition groups) (by simp)
  | healAll => exact applyNemesis_changes g .healAll (by simp)
  | setClockSkew node offsetNs => exact applyNemesis_changes g (.clockSkew node offsetNs) (by simp)
  | crashNode node =>
      refine applyNemesis_changes g (.crash node) ?_
      rintro _ ⟨⟩
      exact meets
  | restartNode node => exact restartNode_changes g node meets
  | restartNodeOutcome node => exact restartNodeOutcome_changes g node meets
  | useEnv code =>
      have ran : OpEffects rules g (g.exec code).2 := exec_effects code g meets.1
      exact OpEffects.changes (ran.trans (releases_effects _ _ meets.2))

/-! Without conditions on the code. -/

theorem releasesMeet_any (ids : List FutureId) (g : Inner State Value) :
    ReleasesMeet anyRules.may ids g := by
  induction ids generalizing g with
  | nil => trivial
  | cons id rest ih => exact ⟨fun _ _ _ _ => trivial, ih _⟩

/-- Any code, and crashes as they are allowed. -/
def anyCode (crashes : Inner State Value → NodeId → Prop) : Rules State Value :=
  { anyRules with crashes }

theorem dispatchMeets_code {crashes : Inner State Value → NodeId → Prop}
    (program : Program State Value) (g : Inner State Value) (event : Keyed)
    (struck : ∀ node, event.kind = .nemesis (.crash node) → crashes
      { g.countDispatch (.dispatched event) with
        nemesisTrace := g.nemesisTrace ++ [.crash node] } node) :
    DispatchMeets (anyCode crashes) program g event := by
  unfold DispatchMeets
  split
  · exact fun _ _ _ _ _ => ⟨meets_any _ _, fun _ _ _ => releasesMeet_any _ _⟩
  · exact fun _ _ _ => ⟨trivial, meets_any _ _⟩
  next node kind => exact struck node kind
  · trivial

theorem dispatchMeets_any (program : Program State Value) (g : Inner State Value)
    (event : Keyed) : DispatchMeets anyRules program g event :=
  dispatchMeets_code program g event fun _ _ => trivial

theorem operateMeets_code {Plan : Type} {crashes : Inner State Value → NodeId → Prop}
    (g : Inner State Value) (op : WorldOp State Value Plan)
    (struck : ∀ node, op = .crashNode node →
      crashes { g with nemesisTrace := g.nemesisTrace ++ [.crash node] } node) :
    OperateMeets (anyCode crashes) g op := by
  cases op with
  | addNode => exact fun _ => ⟨trivial, meets_any _ _⟩
  | restartNode | restartNodeOutcome => exact fun _ _ _ => ⟨trivial, meets_any _ _⟩
  | crashNode node => exact struck node rfl
  | useEnv code => exact ⟨meets_any _ _, releasesMeet_any _ _⟩
  | scheduleNemesis | scheduleNemesisPlan | partition | healAll | setDropPercent
  | setDuplicatePercent | setExtraDelayMs | setClockSkew => trivial

theorem operateMeets_any {Plan : Type} (g : Inner State Value) (op : WorldOp State Value Plan) :
    OperateMeets anyRules g op :=
  operateMeets_code g op fun _ _ => trivial

end Inner

end Detersim
