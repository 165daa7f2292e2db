import Detersim.Settled

/-!
What happens to clocks and sleeps, said once: each call of program code but the
one that makes a sleep is a chain of the steps listed here.
-/

namespace Detersim

namespace Inner

variable {State Value Plan : Type}

/-- The last value the clock of a node has shown. -/
def lastReading (g : Inner State Value) (node : NodeId) : SimTime :=
  (g.lastLocalNow.get node).getD 0

theorem toNat_clampU64 (value : Int) :
    ((clampU64 value).toNat : Int) = max 0 (min value u64Max) := by
  rw [clampU64, toNat_ofNat_min]
  omega

theorem toNat_localNow (g : Inner State Value) (node : NodeId) :
    ((g.localNow node).1.toNat : Int) = max ((g.lastReading node).toNat : Int)
      (max 0 (min (g.now.toNat + g.skewOf node) u64Max)) := by
  rw [← toNat_clampU64]
  unfold localNow lastReading
  dsimp only
  split_ifs with later
  all_goals
    rw [UInt64.lt_iff_toNat_lt] at later
    omega

theorem lastReading_le_localNow (g : Inner State Value) (node : NodeId) :
    g.lastReading node ≤ (g.localNow node).1 := by
  have shown := toNat_localNow g node
  rw [UInt64.le_iff_toNat_le]
  omega

theorem lastReading_localNow (g : Inner State Value) (node other : NodeId) :
    (g.localNow node).2.lastReading other =
      if other = node then (g.localNow node).1 else g.lastReading other := by
  simp only [lastReading, localNow, SortedMap.get_insert]
  split_ifs <;> rfl

/-! Clock steps. -/

/-- The identity names a sleep until `deadline` on the clock of `node`. -/
def Sleeps (g : Inner State Value) (id : FutureId) (owner : Option TaskId) (node : NodeId)
    (deadline : SimTime) (timer : Option TimerId) : Prop :=
  g.futures.get id = some ⟨owner, .sleep node deadline timer⟩

/-- Clocks and sleeps are as before, and nothing left the queue. -/
structure Calm (g after : Inner State Value) : Prop where
  now : after.now = g.now
  skews : after.faults.clockSkewNs = g.faults.clockSkewNs
  readings : after.lastLocalNow = g.lastLocalNow
  timers : after.timers = g.timers
  nextTimerId : after.nextTimerId = g.nextTimerId
  nextFuture : g.nextFuture ≤ after.nextFuture
  sleeps : ∀ id owner node deadline timer,
    after.Sleeps id owner node deadline timer ↔ g.Sleeps id owner node deadline timer
  kept : ∀ event ∈ g.queue, event ∈ after.queue
  fires : ∀ event ∈ after.queue, ∀ timer, event.kind = .timerFire timer → event ∈ g.queue

/-- None of the chosen futures that can be moved is a sleep whose timer is armed. -/
def Disarmed (g : Inner State Value) (chosen : FutureId → Bool) : Prop :=
  ∀ id node deadline timer, chosen id = true →
    g.Sleeps id g.currentTask node deadline (some timer) → g.timers.get timer = none

/-- What may be asked of a change of skew and of a crash, and whether an armed
sleep may be moved into another task. -/
structure ClockRules (State Value : Type) where
  skews : Inner State Value → NodeId → Int → Prop
  crashes : Inner State Value → NodeId → Prop
  moves : Prop

inductive ClockStep (rules : ClockRules State Value) (g : Inner State Value) :
    Inner State Value → Prop where
  | calm {after} (calm : Calm g after) : ClockStep rules g after
  | skewed (node offsetNs) (allowed : rules.skews g node offsetNs) :
      ClockStep rules g
        { g with faults.clockSkewNs := g.faults.clockSkewNs.insert node offsetNs }
  | crashed (node) (allowed : rules.crashes g node) : ClockStep rules g (g.crashNode node)
  | discarded (gone) : ClockStep rules g (g.discard gone)
  | gave (chosen task) (allowed : rules.moves ∨ g.currentTask = none ∨ Disarmed g chosen) :
      ClockStep rules g (g.give chosen task)
  | released (id) : ClockStep rules g (g.release id)
  | read (node) : ClockStep rules g (g.localNow node).2
  | unarmed (id held node deadline timer) (present : g.futures.get id = some held)
      (leaf : held.leaf = .sleep node deadline timer) :
      ClockStep rules g (g.setLeaf id held (.sleep node deadline none))
  | armed (id held node deadline timer task) (present : g.futures.get id = some held)
      (leaf : held.leaf = .sleep node deadline timer) (owner : held.owner = some task)
      (early : g.lastReading node < deadline) :
      ClockStep rules g
        ((g.registerTimer task (g.globalFromLocalDeadline node deadline)).2.setLeaf id held
          (.sleep node deadline (some g.nextTimerId)))

abbrev ClockSteps (rules : ClockRules State Value) : Inner State Value → Inner State Value → Prop :=
  Relation.ReflTransGen (ClockStep rules)

/-- A future that is dropped takes its own timer with it. -/
theorem release_shape (g : Inner State Value) (id : FutureId) :
    ∃ timers recvWaiters slots,
      g.release id = { g with futures := g.futures.remove id, timers, recvWaiters, slots } ∧
        ∀ timer, timers.get timer = g.timers.get timer ∨ timers.get timer = none ∧
          ∃ owner node deadline, g.Sleeps id owner node deadline (some timer) := by
  unfold release
  cases present : g.futures.get id with
  | none =>
      have same : g.futures.remove id = g.futures := by
        apply SortedMap.get_ext
        intro other
        rw [SortedMap.get_remove]
        split_ifs with named
        · rw [named, present]
        · rfl
      exact ⟨g.timers, g.recvWaiters, g.slots, by rw [same], fun _ => Or.inl rfl⟩
  | some held =>
      obtain ⟨owner, leaf⟩ := held
      cases leaf with
      | sleep node deadline timer =>
          cases timer with
          | none => exact ⟨_, _, _, rfl, fun _ => Or.inl rfl⟩
          | some timer =>
              refine ⟨g.timers.remove timer, _, _, rfl, ?_⟩
              intro other
              by_cases named : other = timer
              · subst named
                exact Or.inr ⟨SortedMap.get_remove_self _ _, owner, node, deadline, present⟩
              · exact Or.inl (SortedMap.get_remove_of_ne _ named)
      | recv node registeredTask =>
          cases registeredTask with
          | none => exact ⟨_, _, _, rfl, fun _ => Or.inl rfl⟩
          | some task =>
              simp only [dropLeaf, unregisterRecvWaiter]
              split <;> exact ⟨_, _, _, rfl, fun _ => Or.inl rfl⟩
      | join slot waitingTask =>
          cases waitingTask with
          | none => exact ⟨_, _, _, rfl, fun _ => Or.inl rfl⟩
          | some task =>
              simp only [dropLeaf]
              split <;> exact ⟨_, _, _, rfl, fun _ => Or.inl rfl⟩

/-- A poll completes a sleep when its deadline is reached on its node's clock, and
nothing else replies like that. -/
theorem poll_ready_iff (g : Inner State Value) (id : FutureId) :
    (g.perform (.poll id)).1 = .ready ↔ ∃ node deadline timer,
      g.Sleeps id g.currentTask node deadline timer ∧ deadline ≤ (g.localNow node).1 := by
  simp only [perform, Sleeps]
  cases present : g.futures.get id with
  | none => simp
  | some held =>
      obtain ⟨owner, leaf⟩ := held
      by_cases own : owner = g.currentTask
      · simp only [if_pos own, pollLeaf]
        cases leaf with
        | sleep node deadline timer =>
            by_cases due : deadline ≤ (g.localNow node).1
            · simp [pollSleep, own, due]
            · simp only [pollSleep, if_neg due]
              constructor
              · split
                · simp
                · split <;> simp
              · rintro ⟨_, _, _, same, reached⟩
                cases same
                exact absurd reached due
        | recv node registeredTask =>
            simp only [pollRecv]
            split
            · simp
            · split <;> simp
        | join slot waitingTask =>
            simp only [pollJoin]
            split
            · simp
            · split_ifs
              · split <;> simp
              · split <;> simp
      · simp [own]

/-! The sleeps of a state after an update of its futures. -/

section Sleeps

variable {g : Inner State Value} {id : FutureId} {owner : Option TaskId} {node : NodeId}
variable {deadline : SimTime} {timer : Option TimerId}

theorem sleeps_discard {gone : TaskId → Bool}
    (sleeping : (g.discard gone).Sleeps id owner node deadline timer) :
    g.Sleeps id owner node deadline timer ∧ owner.any gone = false := by
  simp only [Sleeps, discard, SortedMap.get_retain, Option.filter_eq_some_iff,
    Bool.not_eq_true'] at sleeping
  exact sleeping

/-- A sleep that is given away was the running code's. -/
theorem sleeps_give {chosen : FutureId → Bool} {task : TaskId}
    (sleeping : (g.give chosen task).Sleeps id owner node deadline timer) :
    ∃ before, g.Sleeps id before node deadline timer ∧
      (owner = before ∨ chosen id = true ∧ before = g.currentTask) := by
  simp only [Sleeps, give, SortedMap.get_mapValues, Option.map_eq_some_iff] at sleeping
  obtain ⟨⟨before, leaf⟩, found, shape⟩ := sleeping
  split_ifs at shape with moved
  · cases shape
    exact ⟨before, found, Or.inr moved⟩
  · cases shape
    exact ⟨owner, found, Or.inl rfl⟩

theorem sleeps_setLeaf {changed : FutureId} {held : Held} {somewhere : NodeId} {until_ : SimTime}
    {armed : Option TimerId}
    (sleeping : (g.setLeaf changed held (.sleep somewhere until_ armed)).Sleeps id owner node deadline
      timer) :
    id = changed ∧ owner = held.owner ∧ node = somewhere ∧ deadline = until_ ∧ timer = armed ∨
      g.Sleeps id owner node deadline timer := by
  simp only [Sleeps, setLeaf, SortedMap.get_insert] at sleeping
  split_ifs at sleeping with same
  · cases sleeping
    exact Or.inl ⟨same, rfl, rfl, rfl, rfl⟩
  · exact Or.inr sleeping

theorem sleeps_made {env : NodeId} {until_ : SimTime}
    (sleeping : (g.perform (.sleepUntil env until_)).2.Sleeps id owner node deadline timer) :
    id = g.nextFuture ∧ node = env ∧ deadline = until_ ∧ timer = none ∨
      g.Sleeps id owner node deadline timer := by
  simp only [Sleeps, perform, hold, SortedMap.get_insert] at sleeping
  split_ifs at sleeping with same
  · cases sleeping
    exact Or.inl ⟨same, rfl, rfl, rfl⟩
  · exact Or.inr sleeping

end Sleeps

/-! Calm changes. -/

theorem Calm.ofSame {g after : Inner State Value} (now : after.now = g.now)
    (skews : after.faults.clockSkewNs = g.faults.clockSkewNs)
    (readings : after.lastLocalNow = g.lastLocalNow) (timers : after.timers = g.timers)
    (nextTimerId : after.nextTimerId = g.nextTimerId) (nextFuture : after.nextFuture = g.nextFuture)
    (futures : after.futures = g.futures) (queue : after.queue = g.queue) : Calm g after where
  now := now
  skews := skews
  readings := readings
  timers := timers
  nextTimerId := nextTimerId
  nextFuture := nextFuture.ge
  sleeps := fun _ _ _ _ _ => by rw [Sleeps, futures, Sleeps]
  kept := fun _ member => queue ▸ member
  fires := fun _ member _ _ => queue ▸ member

theorem Calm.refl (g : Inner State Value) : Calm g g := Calm.ofSame rfl rfl rfl rfl rfl rfl rfl rfl

theorem Calm.trans {first second third : Inner State Value} (left : Calm first second)
    (right : Calm second third) : Calm first third where
  now := right.now.trans left.now
  skews := right.skews.trans left.skews
  readings := right.readings.trans left.readings
  timers := right.timers.trans left.timers
  nextTimerId := right.nextTimerId.trans left.nextTimerId
  nextFuture := left.nextFuture.trans right.nextFuture
  sleeps := fun id owner node deadline timer =>
    (right.sleeps id owner node deadline timer).trans (left.sleeps id owner node deadline timer)
  kept := fun event member => right.kept event (left.kept event member)
  fires := fun event member timer kind =>
    left.fires event (right.fires event member timer kind) timer kind

theorem calm_pushEvent (g : Inner State Value) (time : SimTime) (kind : EventKind)
    (other : ∀ timer, kind ≠ .timerFire timer) : Calm g (g.pushEvent time kind) := by
  refine ⟨rfl, rfl, rfl, rfl, rfl, le_rfl, fun _ _ _ _ _ => Iff.rfl, ?_, ?_⟩
  · exact fun event member => (KeyedQueue.mem_push _ _ _).mpr (Or.inr member)
  · intro event member timer fires
    rcases (KeyedQueue.mem_push _ _ _).mp member with rfl | old
    · exact absurd fires (other timer)
    · exact old

theorem calm_enqueueAll (tasks : List TaskId) (g : Inner State Value) :
    Calm g (tasks.foldl enqueuePollNow g) := by
  induction tasks generalizing g with
  | nil => exact Calm.refl g
  | cons task rest ih =>
      exact (calm_pushEvent g g.now (.pollTask task) (by simp)).trans (ih (g.enqueuePollNow task))

theorem TapeMoved.calm {g after : Inner State Value} (moved : TapeMoved g after) :
    Calm g after := by
  obtain ⟨tape, _, _, rfl⟩ := moved
  exact Calm.ofSame rfl rfl rfl rfl rfl rfl rfl rfl

theorem calm_send (g : Inner State Value) (sender receiver : NodeId) (msg : Message) :
    Calm g (g.send sender receiver msg).2 := by
  by_cases running : sender ∈ g.crashed
  · rw [send, if_pos running]
    exact Calm.ofSame rfl rfl rfl rfl rfl rfl rfl rfl
  · have pushed (mid : Inner State Value) (time : SimTime) :=
      calm_pushEvent mid time (.deliverMsg sender receiver msg) (by simp)
    obtain ⟨moved, move, sent | ⟨time, _, sent⟩ | ⟨time, again, _, _, sent⟩⟩ :=
      send_cases g sender receiver msg running
    · rw [sent]
      exact move.calm
    · have drawn := move.calm
      obtain ⟨tape, _, _, rfl⟩ := move
      rw [sent]
      exact (drawn.trans (pushed _ time)).trans (Calm.ofSame rfl rfl rfl rfl rfl rfl rfl rfl)
    · have drawn := move.calm
      obtain ⟨tape, _, _, rfl⟩ := move
      rw [sent]
      exact ((drawn.trans (pushed _ time)).trans (pushed _ again)).trans
        (Calm.ofSame rfl rfl rfl rfl rfl rfl rfl rfl)

/-- Futures that are no sleeps may come, go and change. -/
theorem calm_futures {g after : Inner State Value} (now : after.now = g.now)
    (skews : after.faults.clockSkewNs = g.faults.clockSkewNs)
    (readings : after.lastLocalNow = g.lastLocalNow) (timers : after.timers = g.timers)
    (nextTimerId : after.nextTimerId = g.nextTimerId) (nextFuture : g.nextFuture ≤ after.nextFuture)
    (queue : after.queue = g.queue) (id : FutureId)
    (others : ∀ other, other ≠ id → after.futures.get other = g.futures.get other)
    (before : ∀ owner node deadline timer, ¬g.Sleeps id owner node deadline timer)
    (later : ∀ owner node deadline timer, ¬after.Sleeps id owner node deadline timer) :
    Calm g after where
  now := now
  skews := skews
  readings := readings
  timers := timers
  nextTimerId := nextTimerId
  nextFuture := nextFuture
  sleeps := by
    intro other owner node deadline timer
    by_cases same : other = id
    · subst same
      exact ⟨fun present => absurd present (later _ _ _ _),
        fun present => absurd present (before _ _ _ _)⟩
    · rw [Sleeps, others other same, Sleeps]
  kept := fun _ member => queue ▸ member
  fires := fun _ member _ _ => queue ▸ member

theorem calm_hold {g : Inner State Value} (leaf : Leaf)
    (fresh : ∀ owner node deadline timer, ¬g.Sleeps g.nextFuture owner node deadline timer)
    (other : ∀ node deadline timer, leaf ≠ .sleep node deadline timer) :
    Calm g (g.hold leaf).2 := by
  refine calm_futures rfl rfl rfl rfl rfl (Nat.le_succ _) rfl g.nextFuture ?_ fresh ?_
  · exact fun id different => SortedMap.get_insert_of_ne _ _ different
  · intro owner node deadline timer present
    cases (SortedMap.get_insert_self _ _ _).symm.trans present
    exact other node deadline timer rfl

theorem calm_forget {g : Inner State Value} {id : FutureId} {held : Held}
    (present : g.futures.get id = some held)
    (other : ∀ node deadline timer, held.leaf ≠ .sleep node deadline timer) :
    Calm g (g.forget id) := by
  refine calm_futures rfl rfl rfl rfl rfl le_rfl rfl id ?_ ?_ ?_
  · exact fun id different => SortedMap.get_remove_of_ne _ different
  · intro owner node deadline timer sleeping
    cases present.symm.trans sleeping
    exact other node deadline timer rfl
  · intro owner node deadline timer sleeping
    exact absurd ((SortedMap.get_remove_self _ _).symm.trans sleeping) (by simp)

theorem calm_setLeaf {g : Inner State Value} {id : FutureId} {held : Held} {leaf : Leaf}
    (present : g.futures.get id = some held)
    (other : ∀ node deadline timer, held.leaf ≠ .sleep node deadline timer)
    (later : ∀ node deadline timer, leaf ≠ .sleep node deadline timer) :
    Calm g (g.setLeaf id held leaf) := by
  refine calm_futures rfl rfl rfl rfl rfl le_rfl rfl id ?_ ?_ ?_
  · exact fun id different => SortedMap.get_insert_of_ne _ _ different
  · intro owner node deadline timer sleeping
    cases present.symm.trans sleeping
    exact other node deadline timer rfl
  · intro owner node deadline timer sleeping
    cases (SortedMap.get_insert_self _ _ _).symm.trans sleeping
    exact later node deadline timer rfl

theorem calm_unregister (g : Inner State Value) (node : NodeId) (task : TaskId) :
    Calm g (g.unregisterRecvWaiter node task) := by
  unfold unregisterRecvWaiter
  split
  · exact Calm.refl g
  · exact Calm.ofSame rfl rfl rfl rfl rfl rfl rfl rfl

theorem pollRecv_calm (g : Inner State Value) (id : FutureId) (owner : Option TaskId)
    (node : NodeId) (registeredTask : Option TaskId)
    (present : g.futures.get id = some ⟨owner, .recv node registeredTask⟩) :
    Calm g (g.pollRecv id ⟨owner, .recv node registeredTask⟩ node registeredTask).2 := by
  unfold pollRecv
  split
  next msg rest _ =>
    have taken : Calm g { g with
        inboxes := g.inboxes.insert node rest
        audit.taken := g.audit.taken ++ [(node, Taking.received id, msg)] } :=
      Calm.ofSame rfl rfl rfl rfl rfl rfl rfl rfl
    cases registeredTask with
    | none => exact taken.trans (calm_forget present (by simp))
    | some task =>
        have gone := taken.trans (calm_unregister _ node task)
        have still (mid : Inner State Value)
            (same : mid.futures.get id = some ⟨owner, .recv node (some task)⟩) :
            (mid.unregisterRecvWaiter node task).futures.get id =
              some ⟨owner, .recv node (some task)⟩ := by
          unfold unregisterRecvWaiter
          split <;> exact same
        exact gone.trans (calm_forget (still _ present) (by simp))
  next =>
    split
    · exact Calm.refl g
    next task _ =>
      have registered : Calm g (g.registerRecvWaiter node task) :=
        Calm.ofSame rfl rfl rfl rfl rfl rfl rfl rfl
      have waiting : Calm (g.registerRecvWaiter node task)
          ((g.registerRecvWaiter node task).setLeaf id ⟨owner, .recv node registeredTask⟩
            (.recv node (some task))) := calm_setLeaf present (by simp) (by simp)
      exact (registered.trans waiting).trans (Calm.ofSame rfl rfl rfl rfl rfl rfl rfl rfl)

theorem pollJoin_calm (g : Inner State Value) (id : FutureId) (owner : Option TaskId)
    (slot : SlotId) (waitingTask : Option TaskId)
    (present : g.futures.get id = some ⟨owner, .join slot waitingTask⟩) :
    Calm g (g.pollJoin id ⟨owner, .join slot waitingTask⟩ slot).2 := by
  have changed (join : JoinSlot Value) :
      Calm g { g with slots := g.slots.insert slot join } :=
    Calm.ofSame rfl rfl rfl rfl rfl rfl rfl rfl
  unfold pollJoin
  split
  · exact Calm.refl g
  · split_ifs
    · split
      · exact calm_setLeaf present (by simp) (by simp)
      · exact (changed _).trans (calm_forget present (by simp))
    · split
      · exact Calm.refl g
      · exact (changed _).trans (calm_setLeaf present (by simp) (by simp))

/-- What a call does to clocks and sleeps. -/
inductive CallEffect (g : Inner State Value) : Op State → Inner State Value → Prop where
  | calm {op after} (calm : Calm g after) : CallEffect g op after
  | read (env) : CallEffect g (.now env) (g.localNow env).2
  | made (env deadline) :
      CallEffect g (.sleepUntil env deadline) (g.hold (.sleep env deadline none)).2
  | spawned (env child moved) : CallEffect g (.spawn env child moved) (g.spawn env child moved).2
  | polled (id node deadline timer) (sleeping : g.Sleeps id g.currentTask node deadline timer) :
      CallEffect g (.poll id)
        (g.pollSleep id ⟨g.currentTask, .sleep node deadline timer⟩ node deadline timer).2
  | dropped (id) : CallEffect g (.drop id) (g.release id)

theorem perform_effect (g : Inner State Value) (op : Op State)
    (fresh : ∀ owner node deadline timer, ¬g.Sleeps g.nextFuture owner node deadline timer) :
    CallEffect g op (g.perform op).2 := by
  cases op with
  | record | rng | writeAt | flush => exact .calm (Calm.ofSame rfl rfl rfl rfl rfl rfl rfl rfl)
  | now env => exact .read env
  | send env receiver msg => exact .calm (calm_send g env receiver msg)
  | readAt env offset len =>
      simp only [perform]
      split
      · exact .calm (Calm.refl g)
      · split <;> exact .calm (Calm.refl g)
  | len env => exact .calm (Calm.refl g)
  | sleepUntil env deadline => exact .made env deadline
  | recv env => exact .calm (calm_hold (.recv env none) fresh (by simp))
  | spawn env child moved => exact .spawned env child moved
  | poll id =>
      simp only [perform]
      split
      · exact .calm (Calm.refl g)
      next held present =>
        split_ifs with owner
        · obtain ⟨_, leaf⟩ := held
          dsimp only at owner
          subst owner
          cases leaf with
          | sleep node deadline timer => exact .polled id node deadline timer present
          | recv node registeredTask => exact .calm (pollRecv_calm g id _ node _ present)
          | join slot waitingTask => exact .calm (pollJoin_calm g id _ slot _ present)
        · exact .calm (Calm.refl g)
  | drop id =>
      simp only [perform]
      split
      · exact .calm (Calm.refl g)
      · split_ifs
        · exact .dropped id
        · exact .calm (Calm.refl g)

section Calls

variable {rules : ClockRules State Value}

/-- A call may move futures into a task if none of them is an armed sleep. -/
def ClockRules.Lets (rules : ClockRules State Value) (g : Inner State Value) (op : Op State) :
    Prop :=
  ∀ env child moved, op = .spawn env child moved →
    rules.moves ∨ g.currentTask = none ∨ Disarmed g fun id => decide (id ∈ moved)

theorem Calm.steps {g after : Inner State Value} (calm : Calm g after) :
    ClockSteps rules g after :=
  Relation.ReflTransGen.single (ClockStep.calm calm)

theorem spawn_steps (g : Inner State Value) (node : NodeId) (child : State)
    (moved : List FutureId)
    (fresh : ∀ owner node deadline timer, ¬g.Sleeps g.nextFuture owner node deadline timer)
    (lets : rules.Lets g (.spawn node child moved)) :
    ClockSteps rules g (g.spawn node child moved).2 := by
  have started : ClockSteps rules g
      (({ g with
        nextSlot := g.nextSlot + 1
        slots := g.slots.insert g.nextSlot ⟨false, none, []⟩
        audit.slotHomes := g.audit.slotHomes.insert g.nextSlot node } : Inner State Value).addTask
          node ⟨child, some g.nextSlot⟩).2 := by
    apply Calm.steps
    exact Calm.ofSame rfl rfl rfl rfl rfl rfl rfl rfl
  have gave := started.tail
    (ClockStep.gave (fun id => decide (id ∈ moved)) g.nextTaskId (lets node child moved rfl))
  have queued := gave.tail
    (ClockStep.calm (calm_pushEvent _ g.now (.pollTask g.nextTaskId) (by simp)))
  refine queued.tail (ClockStep.calm (calm_hold (.join g.nextSlot none) ?_ (by simp)))
  intro owner other deadline timer sleeping
  have given : (g.give (fun id => decide (id ∈ moved)) g.nextTaskId).Sleeps g.nextFuture owner other
    deadline timer := sleeping
  obtain ⟨before, found, _⟩ := sleeps_give given
  exact fresh before other deadline timer found

/-- After a reading below the deadline the sleep stays armed, or is armed. -/
theorem pollSleep_steps (g : Inner State Value) (id : FutureId) (held : Held) (node : NodeId)
    (deadline : SimTime) (timer : Option TimerId) (present : g.futures.get id = some held)
    (leaf : held.leaf = .sleep node deadline timer) (owner : held.owner = g.currentTask) :
    ClockSteps rules g (g.pollSleep id held node deadline timer).2 := by
  have clock : ClockSteps rules g (g.localNow node).2 :=
    Relation.ReflTransGen.single (ClockStep.read node)
  unfold pollSleep
  dsimp only
  split_ifs with due
  · have gone : ClockSteps rules g ((g.localNow node).2.release id) :=
      clock.tail (ClockStep.released id)
    have present : (g.localNow node).2.futures.get id = some held := present
    rw [release, present] at gone
    dsimp only at gone
    rw [leaf] at gone
    cases timer <;> exact gone
  · split
    · exact clock
    · split
      next => exact clock.tail (ClockStep.unarmed id held node deadline timer present leaf)
      next task running =>
        refine clock.tail
          (ClockStep.armed id held node deadline timer task present leaf (owner.trans running) ?_)
        rw [lastReading_localNow, if_pos rfl]
        exact UInt64.not_le.mp due

/-- Every call but the one that makes a sleep. -/
theorem perform_steps (g : Inner State Value) (op : Op State)
    (fresh : ∀ owner node deadline timer, ¬g.Sleeps g.nextFuture owner node deadline timer)
    (lets : rules.Lets g op) (other : ∀ env deadline, op ≠ .sleepUntil env deadline) :
    ClockSteps rules g (g.perform op).2 := by
  have effect := perform_effect g op fresh
  generalize (g.perform op).2 = after at effect ⊢
  cases effect with
  | calm calm => exact calm.steps
  | read env => exact Relation.ReflTransGen.single (ClockStep.read env)
  | made env deadline => exact absurd rfl (other env deadline)
  | spawned env child moved => exact spawn_steps g env child moved fresh lets
  | polled id node deadline timer sleeping =>
      exact pollSleep_steps g id _ node deadline timer sleeping rfl rfl
  | dropped id => exact Relation.ReflTransGen.single (ClockStep.released id)

end Calls

end Inner

end Detersim
