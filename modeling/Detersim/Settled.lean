import Detersim.Identities

/-!
Between two steps no task runs and every future belongs to a task. What a later
state can contain is what was there, or newer than the counters of then.
-/

namespace Detersim

namespace Inner

variable {State Value Plan : Type}

def Owned (g : Inner State Value) : Prop :=
  ∀ id held, g.futures.get id = some held → held.owner ≠ none

structure Settled (g : Inner State Value) : Prop where
  idle : g.currentTask = none
  owned : Owned g

section Effects

variable {rules : Rules State Value} {fills : SlotId → Prop} {outside : Prop}

theorem Owned.ofSetLeaf {g : Inner State Value} (owned : Owned g) {id : FutureId} {held : Held}
    (present : g.futures.get id = some held) (leaf : Leaf) : Owned (g.setLeaf id held leaf) := by
  intro other found member
  simp only [setLeaf, SortedMap.get_insert] at member
  split_ifs at member
  · cases member
    exact owned id held present
  · exact owned other found member

theorem Owned.ofForget {g : Inner State Value} (owned : Owned g) (id : FutureId) :
    Owned (g.forget id) := by
  intro other found member
  simp only [forget, SortedMap.get_remove] at member
  split_ifs at member
  exact owned other found member

/-- Only code that runs outside a task makes a future that belongs to none. -/
theorem owned_op {g after : Inner State Value} (effect : OpEffect rules g after)
    (attended : g.currentTask ≠ none ∨ ∀ crashed node, ¬rules.scope crashed node)
    (owned : Owned g) : Owned after := by
  cases effect with
  | held leaf unpolled =>
      rcases attended with running | silent
      · intro other found member
        rw [SortedMap.get_insert] at member
        split_ifs at member
        · cases member
          exact running
        · exact owned other found member
      · cases leaf with
        | sleep node => exact absurd unpolled.1 (silent _ node)
        | recv node => exact absurd unpolled.1 (silent _ node)
        | join =>
            obtain ⟨⟨node, inScope, _⟩, _⟩ := unpolled
            exact absurd inScope (silent _ node)
  | gave chosen task =>
      intro other found member
      simp only [give, SortedMap.get_mapValues, Option.map_eq_some_iff] at member
      obtain ⟨old, before, rfl⟩ := member
      split_ifs
      · exact Option.some_ne_none task
      · exact owned other old before
  | armed id held node deadline timer task time present =>
      exact Owned.ofSetLeaf (g := (g.registerTimer task time).2) owned present _
  | unarmed id held node deadline timer present => exact owned.ofSetLeaf present _
  | forgot id => exact owned.ofForget id
  | waited id held node registeredTask task present =>
      exact Owned.ofSetLeaf (g := g.registerRecvWaiter node task) owned present _
  | received id => exact owned.ofForget id
  | unregistered node task =>
      unfold unregisterRecvWaiter
      split <;> exact owned
  | handled id held slot waitingTask waiting present => exact owned.ofSetLeaf present _
  | quiet | sent | sentTwice | opened | started | cancelled | joining => exact owned

theorem owned_discard {g : Inner State Value} (owned : Owned g) (gone : TaskId → Bool) :
    Owned (g.discard gone) := by
  intro id held present
  simp only [discard, SortedMap.get_retain, Option.filter_eq_some_iff] at present
  exact owned id held present.1

/-- An update around code leaves no task running that was not, and owns what was owned. -/
theorem settled_loop {g after : Inner State Value} (effect : LoopEffect rules fills outside g after)
    (owned : Owned g) : (g.currentTask = none → after.currentTask = none) ∧ Owned after := by
  cases effect with
  | crashed node =>
      unfold crashNode
      split_ifs
      · exact ⟨id, owned_discard owned _⟩
      · exact ⟨id, owned⟩
  | filled slot join value =>
      obtain ⟨queue, shape⟩ := enqueueAll_shape join.joiners
        { g with slots := g.slots.insert slot ⟨true, some value, []⟩ }
      rw [shape]
      exact ⟨id, owned⟩
  | parked | halted | ended => exact ⟨fun _ => rfl, owned⟩
  | faulted | drawn | revived | registered | scheduled => exact ⟨id, owned⟩

theorem settled_changes {g after : Inner State Value}
    (silent : ∀ crashed node, ¬rules.scope crashed node)
    (changes : Changes rules fills outside g after) (settled : Settled g) : Settled after := by
  induction changes with
  | refl => exact settled
  | tail _ change ih =>
      cases change with
      | op effect =>
          exact ⟨(opEffect_frame effect).currentTask.trans ih.idle,
            owned_op effect (Or.inr silent) ih.owned⟩
      | loop effect =>
          obtain ⟨idle, owned⟩ := settled_loop effect ih.owned
          exact ⟨idle ih.idle, owned⟩

theorem owned_ops {g after : Inner State Value} (effects : OpEffects rules g after)
    (running : g.currentTask ≠ none) (owned : Owned g) : Owned after := by
  induction effects with
  | refl => exact owned
  | tail before effect ih =>
      exact owned_op effect (Or.inl ((opEffects_frame before).currentTask ▸ running)) ih

end Effects

theorem settled_enqueueAll {g : Inner State Value} (settled : Settled g) (tasks : List TaskId) :
    Settled (tasks.foldl enqueuePollNow g) := by
  obtain ⟨queue, shape⟩ := enqueueAll_shape tasks g
  rw [shape]
  exact ⟨settled.idle, settled.owned⟩

/-- Making a node's main task gives it what the factory left lying around. -/
theorem spawnRegisteredNode_settled {g : Inner State Value} (idle : g.currentTask = none)
    (node : NodeId) (factory : NodeFactory State Value) :
    Settled (g.spawnRegisteredNode node factory) := by
  have still : (g.exec (factory node)).2.currentTask = none :=
    (exec_frame (factory node) g).currentTask.trans idle
  refine ⟨still, ?_⟩
  intro id held present
  simp only [spawnRegisteredNode, enqueuePollNow, pushEvent, give, addTask,
    SortedMap.get_mapValues, Option.map_eq_some_iff] at present
  obtain ⟨old, _, rfl⟩ := present
  split_ifs with loose
  · exact Option.some_ne_none _
  · rw [still] at loose
    simpa using loose

theorem restartNodeOutcome_settled {g : Inner State Value} (settled : Settled g) (node : NodeId) :
    Settled (g.restartNodeOutcome node).2 := by
  unfold restartNodeOutcome
  split_ifs
  · split
    · exact settled
    · apply spawnRegisteredNode_settled
      exact settled.idle
  · exact settled
  · exact settled

/-- Rules under which no code runs. -/
def noCode : Rules State Value := ⟨fun _ _ => False, fun _ _ _ => True, fun _ _ => True⟩

theorem applyNemesis_settled {g : Inner State Value} (settled : Settled g)
    (action : NemesisAction) : Settled (g.applyNemesis action) := by
  have changes : Changes noCode (fun _ => False) False g (g.applyNemesis action) :=
    applyNemesis_changes g action fun _ _ => trivial
  exact settled_changes (fun _ _ => id) changes settled

theorem pollTask_settled (program : Program State Value) {g : Inner State Value}
    (settled : Settled g) (event : Keyed) (task : TaskId) :
    Settled (pollTask program g event task) := by
  unfold pollTask
  split
  · exact settled
  next slot present =>
    split
    · exact settled
    next future _ =>
      dsimp only
      split_ifs
      · exact ⟨settled.idle, owned_discard (g := { g with tasks := _ }) settled.owned _⟩
      · have owned := owned_ops (exec_effects (program future.state)
          (({ g with tasks := g.tasks.insert task { slot with future := none } }.countDispatch
            (.dispatched event)).beginPoll task) (meets_any _ _))
          (Option.some_ne_none task) settled.owned
        split
        next state after ran =>
          rw [ran] at owned
          exact ⟨rfl, owned⟩
        next value after ran =>
          rw [ran] at owned
          -- Everything the finished task still owned is dropped with it.
          have dropped : Owned ((after.ownedBy task).foldl release after) := by
            intro id held present
            rw [get_releases] at present
            split_ifs at present
            exact owned id held present
          unfold finishTask
          dsimp only
          refine ⟨rfl, ?_⟩
          split
          · exact dropped
          · split
            · exact dropped
            next join _ =>
              obtain ⟨queue, shape⟩ := enqueueAll_shape join.joiners _
              rw [shape]
              exact dropped

theorem turn_settled {program : Program State Value} {g next : Inner State Value} {event : Keyed}
    (turned : turn program g = .next event next) (settled : Settled g) : Settled next := by
  obtain ⟨queue, popped, _, rfl⟩ := next_shape program g next event turned
  have popped : Settled { g with queue, now := event.time } := ⟨settled.idle, settled.owned⟩
  generalize { g with queue, now := event.time } = g at popped ⊢
  unfold dispatch
  split
  · unfold fireTimer
    split
    · exact popped
    · exact ⟨popped.idle, popped.owned⟩
  next sender receiver msg _ =>
    unfold deliverMsg
    split_ifs
    · exact ⟨popped.idle, popped.owned⟩
    · exact ⟨popped.idle, popped.owned⟩
    · have moved := drawPercent_moves g g.faults.dropPercent .dropDecision
      generalize g.drawPercent g.faults.dropPercent .dropDecision = drawn at moved ⊢
      obtain ⟨lost, mid⟩ := drawn
      obtain ⟨tape, _, _, rfl⟩ := moved
      cases lost with
      | true => exact ⟨popped.idle, popped.owned⟩
      | false =>
          refine settled_enqueueAll ?_ _
          exact ⟨popped.idle, popped.owned⟩
    · exact ⟨popped.idle, popped.owned⟩
  next action _ =>
    have counted : Settled (g.countDispatch (.dispatched event)) := ⟨popped.idle, popped.owned⟩
    unfold dispatchNemesis
    dsimp only
    split
    next node _ =>
      have restarted := restartNodeOutcome_settled (g := { g.countDispatch (.dispatched event) with
        nemesisTrace := g.nemesisTrace ++ [.restart node] }) ⟨counted.idle, counted.owned⟩ node
      exact ⟨restarted.idle, restarted.owned⟩
    next => exact applyNemesis_settled counted _
  · exact pollTask_settled program popped event _

theorem operate_settled_silent {nextAction : NextAction Plan} {g : Inner State Value}
    (op : WorldOp State Value Plan) (meets : OperateMeets noCode g op) (settled : Settled g) :
    Settled (g.operate nextAction op).2 := by
  have changes : Changes noCode (fun _ => False) True g (g.operate nextAction op).2 :=
    operate_changes nextAction g op meets
  exact settled_changes (fun _ _ => id) changes settled

-- Between turns no task runs, so what an operation's code makes has no owner until it is
-- given to the node's task, or dropped with the environment that was lent out.
theorem operate_settled {nextAction : NextAction Plan} {g : Inner State Value}
    (op : WorldOp State Value Plan) (settled : Settled g) :
    Settled (g.operate nextAction op).2 := by
  cases op with
  | addNode node factory =>
      simp only [operate, addNode]
      split_ifs
      · exact settled
      · apply spawnRegisteredNode_settled
        exact settled.idle
  | restartNode node =>
      have restarted := restartNodeOutcome_settled settled node
      exact ⟨restarted.idle, restarted.owned⟩
  | restartNodeOutcome node => exact restartNodeOutcome_settled settled node
  | useEnv code =>
      have ran := exec_frame code g
      have dropped := releases_frame (((g.exec code).2.futures.retain fun _ held =>
        decide (held.owner = none)).keys) (g.exec code).2
      refine ⟨dropped.currentTask.trans (ran.currentTask.trans settled.idle), ?_⟩
      intro id held present loose
      simp only [operate, useEnv] at present
      rw [get_releases] at present
      split_ifs at present with gone
      apply gone
      simp only [SortedMap.keys, SortedMap.retain, List.mem_map, List.mem_filter]
      exact ⟨(id, held), ⟨(SortedMap.get_eq_some _ _ _).mp present, by simp [loose]⟩, rfl⟩
  | scheduleNemesis | scheduleNemesisPlan | partition | healAll | setDropPercent
  | setDuplicatePercent | setExtraDelayMs | setClockSkew | crashNode =>
      exact operate_settled_silent _ trivial settled

theorem reachable_settled (program : Program State Value) (nextAction : NextAction Plan)
    (g : Inner State Value) (reachable : Reachable program nextAction g) : Settled g := by
  induction reachable with
  | generate | replay => exact ⟨rfl, fun _ _ present => by cases present⟩
  | operate op _ ih => exact operate_settled op ih
  | turn _ turned ih => exact turn_settled turned ih
  | abort _ aborted ih =>
      obtain ⟨queue, _, _, rfl⟩ := abort_shape program _ _ _ aborted
      split_ifs <;> exact ⟨ih.idle, ih.owned⟩

/-! What a later state holds. -/

-- Numbers are never reused, so whatever is not older than `g` has a number `g` had not given out.
structure Since (g later : Inner State Value) : Prop where
  seq : g.seq ≤ later.seq
  nextTaskId : g.nextTaskId ≤ later.nextTaskId
  queue : ∀ event ∈ later.queue, event ∈ g.queue ∨ g.seq ≤ event.seq
  finished : ∃ more, later.audit.finished = g.audit.finished ++ more ∧
    ∀ entry ∈ more, entry.1 ∈ g.queue ∨ g.seq ≤ entry.1.seq
  tasks : ∀ task slot, later.tasks.get task = some slot →
    (∃ old, g.tasks.get task = some old ∧ old.node = slot.node) ∨ g.nextTaskId ≤ task

theorem Since.refl (g : Inner State Value) : Since g g :=
  ⟨le_rfl, le_rfl, fun _ => Or.inl, ⟨[], by simp, by simp⟩,
    fun _ slot present => Or.inl ⟨slot, present, rfl⟩⟩

theorem Since.trans {first second third : Inner State Value} (left : Since first second)
    (right : Since second third) : Since first third := by
  have known : ∀ event : Keyed, event ∈ second.queue ∨ second.seq ≤ event.seq →
      event ∈ first.queue ∨ first.seq ≤ event.seq := by
    rintro event (old | young)
    · exact left.queue event old
    · exact Or.inr (left.seq.trans young)
  refine ⟨left.seq.trans right.seq, left.nextTaskId.trans right.nextTaskId, ?_, ?_, ?_⟩
  · intro event member
    exact known event (right.queue event member)
  · obtain ⟨more, finished, fromFirst⟩ := left.finished
    obtain ⟨rest, finishedRest, fromSecond⟩ := right.finished
    refine ⟨more ++ rest, by rw [finishedRest, finished, List.append_assoc], ?_⟩
    intro entry member
    rcases List.mem_append.mp member with early | late
    · exact fromFirst entry early
    · exact known entry.1 (fromSecond entry late)
  · intro task slot present
    rcases right.tasks task slot present with ⟨old, before, same⟩ | young
    · rcases left.tasks task old before with ⟨older, present, same'⟩ | young
      · exact Or.inl ⟨older, present, same'.trans same⟩
      · exact Or.inr young
    · exact Or.inr (left.nextTaskId.trans young)

/-- Nothing but pushes. -/
theorem Since.ofQueue {g later : Inner State Value} (seq : g.seq ≤ later.seq)
    (nextTaskId : later.nextTaskId = g.nextTaskId)
    (queue : ∀ event ∈ later.queue, event ∈ g.queue ∨ g.seq ≤ event.seq)
    (finished : later.audit.finished = g.audit.finished) (tasks : later.tasks = g.tasks) :
    Since g later :=
  ⟨seq, nextTaskId.ge, queue, ⟨[], by rw [finished, List.append_nil], by simp⟩,
    fun _ slot present => Or.inl ⟨slot, tasks ▸ present, rfl⟩⟩

theorem mem_pushed {queue : EventQueue} {seq floor : Nat} {time : UInt64} {kind : EventKind}
    (young : floor ≤ seq) {event : Keyed} (member : event ∈ queue.push ⟨time, seq, kind⟩) :
    event ∈ queue ∨ floor ≤ event.seq := by
  rcases (KeyedQueue.mem_push _ _ _).mp member with rfl | old
  · exact Or.inr young
  · exact Or.inl old

theorem since_pushEvent (g : Inner State Value) (time : SimTime) (kind : EventKind) :
    Since g (g.pushEvent time kind) :=
  Since.ofQueue (Nat.le_succ _) rfl (fun _ => mem_pushed le_rfl) rfl rfl

theorem since_enqueueAll (tasks : List TaskId) (g : Inner State Value) :
    Since g (tasks.foldl enqueuePollNow g) := by
  induction tasks generalizing g with
  | nil => exact Since.refl g
  | cons task rest ih => exact (since_pushEvent g g.now (.pollTask task)).trans (ih _)

theorem since_started (g : Inner State Value) (node : NodeId) (future : TaskFuture State) :
    Since g ((g.addTask node future).2.enqueuePollNow g.nextTaskId) := by
  have added : Since g (g.addTask node future).2 := by
    refine ⟨le_rfl, Nat.le_succ _, fun _ => Or.inl, ⟨[], by simp [addTask], by simp⟩, ?_⟩
    intro task slot present
    simp only [addTask, SortedMap.get_insert] at present
    split_ifs at present with same
    · exact Or.inr same.ge
    · exact Or.inl ⟨slot, present, rfl⟩
  exact added.trans (since_pushEvent _ _ _)

theorem since_crash (g : Inner State Value) (node : NodeId) : Since g (g.crashNode node) := by
  unfold crashNode
  split_ifs
  · refine ⟨le_rfl, le_rfl, ?_, ⟨_, rfl, ?_⟩, ?_⟩
    · exact fun event member => Or.inl ((KeyedQueue.mem_retain _ _ _).mp member).1
    · intro entry member
      obtain ⟨event, inside, rfl⟩ := List.mem_map.mp member
      exact Or.inl (List.mem_filter.mp inside).1
    · intro task slot present
      rw [SortedMap.get_retain, Option.filter_eq_some_iff] at present
      exact Or.inl ⟨slot, present.1, rfl⟩
  · exact Since.refl g

section Steps

variable {rules : Rules State Value} {fills : SlotId → Prop} {outside : Prop}

theorem since_change {g after : Inner State Value} (change : Change rules fills outside g after) :
    Since g after := by
  have still (later : Inner State Value) (seq : later.seq = g.seq)
      (nextTaskId : later.nextTaskId = g.nextTaskId) (queue : later.queue = g.queue)
      (finished : later.audit.finished = g.audit.finished) (tasks : later.tasks = g.tasks) :
      Since g later :=
    Since.ofQueue seq.ge nextTaskId (fun event member => Or.inl (queue ▸ member)) finished tasks
  cases change with
  | op effect =>
      cases effect with
      | sent => exact Since.ofQueue (Nat.le_succ _) rfl (fun _ => mem_pushed le_rfl) rfl rfl
      | sentTwice =>
          refine Since.ofQueue (Nat.le_add_right _ _) rfl ?_ rfl rfl
          intro event member
          rcases mem_pushed (Nat.le_succ g.seq) member with old | young
          · exact mem_pushed le_rfl old
          · exact Or.inr young
      | started node future => exact since_started g node future
      | armed => exact Since.ofQueue (Nat.le_succ _) rfl (fun _ => mem_pushed le_rfl) rfl rfl
      | unregistered node task =>
          unfold unregisterRecvWaiter
          split <;> exact still _ rfl rfl rfl rfl rfl
      | quiet | held | opened | gave | unarmed | cancelled | forgot | waited | received | joining
      | handled => exact still _ rfl rfl rfl rfl rfl
  | loop effect =>
      cases effect with
      | crashed node => exact since_crash g node
      | filled slot join value =>
          have filled := still { g with slots := g.slots.insert slot ⟨true, some value, []⟩ } rfl
            rfl rfl rfl rfl
          exact filled.trans (since_enqueueAll join.joiners _)
      | parked task slot future _ present =>
          refine ⟨le_rfl, le_rfl, fun _ => Or.inl, ⟨[], by simp, by simp⟩, ?_⟩
          intro other found member
          rw [SortedMap.get_insert] at member
          split_ifs at member with same
          · cases member
            exact Or.inl ⟨slot, same ▸ present, rfl⟩
          · exact Or.inl ⟨found, member, rfl⟩
      | ended task =>
          refine ⟨le_rfl, le_rfl, fun _ => Or.inl, ⟨[], by simp, by simp⟩, ?_⟩
          intro other found member
          rw [SortedMap.get_remove] at member
          split_ifs at member
          exact Or.inl ⟨found, member, rfl⟩
      | scheduled time action => exact since_pushEvent g time (.nemesis action)
      | faulted | drawn | revived | registered | halted => exact still _ rfl rfl rfl rfl rfl

theorem since_changes {g after : Inner State Value} (changes : Changes rules fills outside g after) :
    Since g after := by
  induction changes with
  | refl => exact Since.refl g
  | tail _ change ih => exact ih.trans (since_change change)

theorem since_pop {g after : Inner State Value} {event : Keyed} (effect : PopEffect g event after) :
    Since g after := by
  have popping {queue : EventQueue} (popped : g.queue.pop = some (event, queue))
      (later : Inner State Value) (seq : later.seq = g.seq)
      (nextTaskId : later.nextTaskId = g.nextTaskId) (rest : later.queue = queue)
      (finished : later.audit.finished = g.audit.finished ∨
        ∃ fate, later.audit.finished = g.audit.finished ++ [(event, fate)])
      (tasks : later.tasks = g.tasks ∨ ∃ task slot, g.tasks.get task = some slot ∧
        later.tasks = g.tasks.insert task { slot with future := none }) : Since g later := by
    have inside := KeyedQueue.mem_of_pop popped
    refine ⟨seq.ge, nextTaskId.ge, ?_, ?_, ?_⟩
    · intro other member
      exact Or.inl ((inside other).mpr (Or.inr (rest ▸ member)))
    · rcases finished with same | ⟨fate, more⟩
      · exact ⟨[], by rw [same, List.append_nil], by simp⟩
      · refine ⟨_, more, ?_⟩
        intro entry member
        rw [List.mem_singleton.mp member]
        exact Or.inl ((inside event).mpr (Or.inl rfl))
    · intro other found present
      rcases tasks with same | ⟨task, slot, before, taken⟩
      · exact Or.inl ⟨found, same ▸ present, rfl⟩
      · rw [taken, SortedMap.get_insert] at present
        split_ifs at present with here
        · cases present
          exact Or.inl ⟨slot, here ▸ before, rfl⟩
        · exact Or.inl ⟨found, present, rfl⟩
  cases effect with
  | idle queue dispatched trace popped =>
      exact popping popped _ rfl rfl rfl (Or.inl rfl) (Or.inl rfl)
  | fired queue timer task popped =>
      have fired : Since g { g with
          queue, now := event.time
          dispatched := g.dispatched + 1
          trace := g.trace ++ [TraceLine.dispatched event]
          timers := g.timers.remove timer } :=
        popping popped _ rfl rfl rfl (Or.inl rfl) (Or.inl rfl)
      exact fired.trans (since_pushEvent _ _ _)
  | dropped queue tape sender receiver msg reason popped =>
      exact popping popped _ rfl rfl rfl (Or.inr ⟨_, rfl⟩) (Or.inl rfl)
  | delivered queue tape sender receiver msg popped =>
      refine Since.trans ?_ (since_enqueueAll _ _)
      exact popping popped _ rfl rfl rfl (Or.inr ⟨_, rfl⟩) (Or.inl rfl)
  | begun queue task slot future popped kind present =>
      exact popping popped _ rfl rfl rfl (Or.inl rfl) (Or.inr ⟨task, slot, present, rfl⟩)
  | lost queue task slot popped kind present =>
      exact popping popped _ rfl rfl rfl (Or.inl rfl) (Or.inr ⟨task, slot, present, rfl⟩)

theorem since_step {program : Program State Value} {nextAction : NextAction Plan}
    {allows : StepConditions State Value Plan} {g after : Inner State Value}
    (step : Step program nextAction allows g after) : Since g after := by
  cases step with
  | operate op =>
      have changes : Changes anyRules (fun _ => False) True g (g.operate nextAction op).2 :=
        operate_changes nextAction g op (operateMeets_any g op)
      exact since_changes changes
  | turn turned =>
      obtain ⟨mid, popped, changes⟩ := turn_changes program _ _ _ turned
        (fun _ => dispatchMeets_any program _ _)
      exact (since_pop popped).trans (since_changes changes)
  | abort aborted =>
      obtain ⟨queue, popped, _, rfl⟩ := abort_shape program _ _ _ aborted
      have inside := KeyedQueue.mem_of_pop popped
      split_ifs
      · refine ⟨le_rfl, le_rfl, fun other member => Or.inl ((inside other).mpr (Or.inr member)),
          ⟨_, rfl, ?_⟩, fun _ slot present => Or.inl ⟨slot, present, rfl⟩⟩
        intro entry member
        rw [List.mem_singleton.mp member]
        exact Or.inl ((inside _).mpr (Or.inl rfl))
      · exact Since.ofQueue le_rfl rfl
          (fun other member => Or.inl ((inside other).mpr (Or.inr member))) rfl rfl

theorem since_steps {program : Program State Value} {nextAction : NextAction Plan}
    {allows : StepConditions State Value Plan} {g after : Inner State Value}
    (steps : Steps program nextAction allows g after) : Since g after := by
  induction steps with
  | refl => exact Since.refl g
  | tail _ step ih => exact ih.trans (since_step step)

end Steps

end Inner

end Detersim
