import Detersim.Reachable

/-!
Identities come from counters and are never used twice: whatever the state
names is below its counter, and a receive that completed is gone for good.
-/

namespace Detersim

namespace Inner

variable {State Value Plan : Type}

/-- The receives that completed, in order. -/
def completed (g : Inner State Value) : List FutureId :=
  g.audit.taken.filterMap fun
    | (_, .received id, _) => some id
    | _ => none

structure Counted (g : Inner State Value) : Prop where
  futures : ∀ id held, g.futures.get id = some held → id < g.nextFuture
  owners : ∀ id held task, g.futures.get id = some held → held.owner = some task →
    task < g.nextTaskId
  tasks : ∀ task slot, g.tasks.get task = some slot → task < g.nextTaskId
  current : ∀ task, g.currentTask = some task → task < g.nextTaskId
  timers : ∀ timer task, g.timers.get timer = some task → timer < g.nextTimerId
  fires : ∀ event ∈ g.queue, ∀ timer, event.kind = .timerFire timer → timer < g.nextTimerId
  awaited : ∀ id ∈ g.audit.awaited, id < g.nextFuture
  completed : ∀ id ∈ g.completed, id < g.nextFuture ∧ g.futures.get id = none
  once : g.completed.Nodup

theorem Counted.ofFutures {g : Inner State Value} (counted : Counted g)
    (futures : SortedMap FutureId Held)
    (shrinks : ∀ id held, futures.get id = some held → ∃ old, g.futures.get id = some old ∧
      ∀ task, held.owner = some task → old.owner = some task ∨ task < g.nextTaskId) :
    Counted { g with futures } := by
  refine { counted with futures := ?_, owners := ?_, completed := ?_ }
  · intro id held present
    obtain ⟨old, before, _⟩ := shrinks id held present
    exact counted.futures id old before
  · intro id held task present owner
    obtain ⟨old, before, owners⟩ := shrinks id held present
    rcases owners task owner with same | young
    · exact counted.owners id old task before same
    · exact young
  · intro id done
    obtain ⟨below, gone⟩ := counted.completed id done
    refine ⟨below, ?_⟩
    by_contra present
    obtain ⟨held, present⟩ := Option.ne_none_iff_exists'.mp present
    obtain ⟨old, before, _⟩ := shrinks id held present
    exact absurd (gone.symm.trans before) (Option.some_ne_none old).symm

theorem Counted.ofSetLeaf {g : Inner State Value} (counted : Counted g) {id : FutureId}
    {held : Held} (present : g.futures.get id = some held) (leaf : Leaf) :
    Counted (g.setLeaf id held leaf) := by
  refine counted.ofFutures _ ?_
  intro other found member
  rw [SortedMap.get_insert] at member
  split_ifs at member with same
  · cases member
    exact ⟨held, same ▸ present, fun _ => Or.inl⟩
  · exact ⟨found, member, fun _ => Or.inl⟩

theorem Counted.ofForget {g : Inner State Value} (counted : Counted g) (id : FutureId) :
    Counted (g.forget id) := by
  refine counted.ofFutures _ ?_
  intro other found member
  rw [SortedMap.get_remove] at member
  split_ifs at member
  exact ⟨found, member, fun _ => Or.inl⟩

theorem Counted.ofQueue {g : Inner State Value} (counted : Counted g) (queue : EventQueue)
    (seq : Nat) (old : ∀ event ∈ queue, ∀ timer, event.kind = .timerFire timer →
      event ∈ g.queue) : Counted { g with queue, seq } :=
  { counted with
    fires := fun event member timer kind =>
      counted.fires event (old event member timer kind) timer kind }

/-- Pushing an event that fires no timer. -/
theorem Counted.ofPush {g : Inner State Value} (counted : Counted g) (time : SimTime)
    (kind : EventKind) (other : ∀ timer, kind ≠ .timerFire timer) :
    Counted (g.pushEvent time kind) := by
  refine counted.ofQueue _ _ ?_
  intro event member timer fires
  rcases (KeyedQueue.mem_push _ _ _).mp member with rfl | old
  · exact absurd fires (other timer)
  · exact old

theorem Counted.ofEnqueueAll {g : Inner State Value} (counted : Counted g) (tasks : List TaskId) :
    Counted (tasks.foldl enqueuePollNow g) := by
  induction tasks generalizing g with
  | nil => exact counted
  | cons task rest ih => exact ih (counted.ofPush g.now (.pollTask task) (by simp))

section Effects

variable {rules : Rules State Value} {fills : SlotId → Prop} {outside : Prop}

theorem counted_held {g : Inner State Value} (counted : Counted g) (leaf : Leaf) :
    Counted { g with
      nextFuture := g.nextFuture + 1
      futures := g.futures.insert g.nextFuture ⟨g.currentTask, leaf⟩ } := by
  refine { counted with futures := ?_, owners := ?_, awaited := ?_, completed := ?_ }
  · intro id held present
    rw [SortedMap.get_insert] at present
    split_ifs at present with same
    · exact same ▸ Nat.lt_succ_self _
    · exact Nat.lt_succ_of_lt (counted.futures id held present)
  · intro id held task present owner
    rw [SortedMap.get_insert] at present
    split_ifs at present
    · cases present
      exact counted.current task owner
    · exact counted.owners id held task present owner
  · intro id member
    exact Nat.lt_succ_of_lt (counted.awaited id member)
  · intro id done
    obtain ⟨below, gone⟩ := counted.completed id done
    exact ⟨Nat.lt_succ_of_lt below,
      (SortedMap.get_insert_of_ne _ _ (Nat.ne_of_lt below)).trans gone⟩

theorem counted_started {g : Inner State Value} (counted : Counted g) (node : NodeId)
    (future : TaskFuture State) :
    Counted ((g.addTask node future).2.enqueuePollNow g.nextTaskId) := by
  have added : Counted (g.addTask node future).2 := by
    refine { counted with owners := ?_, tasks := ?_, current := ?_ }
    · intro id held task present owner
      exact Nat.lt_succ_of_lt (counted.owners id held task present owner)
    · intro task slot present
      simp only [addTask, SortedMap.get_insert] at present
      split_ifs at present with same
      · exact same ▸ Nat.lt_succ_self _
      · exact Nat.lt_succ_of_lt (counted.tasks task slot present)
    · intro task running
      exact Nat.lt_succ_of_lt (counted.current task running)
  exact added.ofPush _ _ (by simp)

theorem counted_armed {g : Inner State Value} (counted : Counted g) (task : TaskId)
    (time : SimTime) : Counted (g.registerTimer task time).2 := by
  refine { counted with timers := ?_, fires := ?_ }
  · intro timer waiter armed
    change (g.timers.insert g.nextTimerId task).get timer = some waiter at armed
    rw [SortedMap.get_insert] at armed
    split_ifs at armed with same
    · exact same ▸ Nat.lt_succ_self _
    · exact Nat.lt_succ_of_lt (counted.timers timer waiter armed)
  · intro event member timer kind
    rcases (KeyedQueue.mem_push _ _ _).mp member with rfl | old
    · exact EventKind.timerFire.inj kind ▸ Nat.lt_succ_self _
    · exact Nat.lt_succ_of_lt (counted.fires event old timer kind)

theorem counted_received {g : Inner State Value} (counted : Counted g) {id : FutureId}
    {held : Held} (present : g.futures.get id = some held) (node : NodeId)
    (msg : NodeId × Message) (rest : List (NodeId × Message)) :
    Counted (g.completeRecv id node msg rest) := by
  have completed : (g.completeRecv id node msg rest).completed = g.completed ++ [id] := by
    simp [Inner.completed, completeRecv, List.filterMap_append]
  refine { counted.ofForget id with completed := ?_, once := ?_ }
  · intro other done
    rw [completed, List.mem_append, List.mem_singleton] at done
    rcases done with old | rfl
    · exact (counted.ofForget id).completed other old
    · exact ⟨counted.futures other held present, SortedMap.get_remove_self _ _⟩
  · rw [completed, List.nodup_append]
    refine ⟨counted.once, List.nodup_singleton id, ?_⟩
    -- A receive that completed before is not in the map any more, so it cannot be this one.
    intro other old last new
    rw [List.mem_singleton.mp new]
    rintro rfl
    exact absurd ((counted.completed other old).2.symm.trans present) (by simp)

theorem counted_op {g after : Inner State Value} (effect : OpEffect rules g after)
    (counted : Counted g) : Counted after := by
  cases effect with
  | quiet | opened | joining => exact { counted with }
  | sent sender receiver msg time =>
      exact { counted.ofPush time (.deliverMsg sender receiver msg) (by simp) with }
  | sentTwice sender receiver msg time again =>
      exact { (counted.ofPush time (.deliverMsg sender receiver msg) (by simp)).ofPush again
        (.deliverMsg sender receiver msg) (by simp) with }
  | held leaf => exact counted_held counted leaf
  | started node future => exact counted_started counted node future
  | gave chosen task young =>
      have moved := counted.ofFutures (g.give chosen task).futures (by
        intro id held present
        simp only [give, SortedMap.get_mapValues, Option.map_eq_some_iff] at present
        obtain ⟨old, before, rfl⟩ := present
        refine ⟨old, before, ?_⟩
        intro owner
        split_ifs
        · intro same
          cases same
          exact Or.inr (Nat.lt_of_lt_of_eq (Nat.lt_succ_self task) young)
        · exact Or.inl)
      exact { moved with
        awaited := fun id member => counted.awaited id (Finset.mem_of_mem_filter id member) }
  | armed id held node deadline timer task time present =>
      have armed := counted_armed counted task time
      exact armed.ofSetLeaf (by exact present) _
  | unarmed id held node deadline timer present => exact counted.ofSetLeaf present _
  | cancelled timer =>
      refine { counted with timers := ?_ }
      intro other task armed
      simp only [cancelTimer, SortedMap.get_remove] at armed
      split_ifs at armed
      exact counted.timers other task armed
  | forgot id => exact counted.ofForget id
  | waited id held node registeredTask task present =>
      have registered : Counted (g.registerRecvWaiter node task) := { counted with }
      have leaf := registered.ofSetLeaf (by exact present) (.recv node (some task))
      refine { leaf with awaited := ?_ }
      intro other member
      rcases Finset.mem_insert.mp member with rfl | old
      · exact counted.futures other held present
      · exact counted.awaited other old
  | received id held node registeredTask msg rest present =>
      exact counted_received counted present node msg rest
  | unregistered node task =>
      unfold unregisterRecvWaiter
      split <;> exact { counted with }
  | handled id held slot waitingTask waiting present => exact counted.ofSetLeaf present _

theorem counted_discard {g : Inner State Value} (counted : Counted g) (gone : TaskId → Bool) :
    Counted (g.discard gone) := by
  refine { counted.ofFutures (g.discard gone).futures ?_ with }
  intro id held present
  simp only [discard, SortedMap.get_retain, Option.filter_eq_some_iff] at present
  exact ⟨held, present.1, fun _ => Or.inl⟩

theorem counted_crash {g : Inner State Value} (counted : Counted g) (node : NodeId) :
    Counted (g.crashNode node) := by
  unfold crashNode
  split_ifs
  · -- The crash takes messages too, but completes no receive with them.
    have completed : ∀ messages : List (NodeId × Message),
        (g.audit.taken ++ messages.map fun msg => (node, Taking.discarded, msg)).filterMap (fun
          | (_, .received id, _) => some id
          | _ => none) = g.completed := by
      intro messages
      rw [List.filterMap_append, List.filterMap_map]
      simp [Inner.completed]
    have discarded := counted_discard counted (g.livesOn node)
    refine { discarded with tasks := ?_, timers := ?_, fires := ?_, completed := ?_, once := ?_ }
    · intro task slot present
      rw [SortedMap.get_retain, Option.filter_eq_some_iff] at present
      exact counted.tasks task slot present.1
    · intro timer task armed
      rw [SortedMap.get_retain, Option.filter_eq_some_iff] at armed
      exact counted.timers timer task armed.1
    · intro event member
      exact counted.fires event ((KeyedQueue.mem_retain _ _ _).mp member).1
    · intro id done
      exact discarded.completed id (completed _ ▸ done)
    · exact (congrArg List.Nodup (completed _)).mpr counted.once
  · exact counted

theorem counted_change (g after : Inner State Value)
    (change : Change rules fills outside g after) (counted : Counted g) : Counted after := by
  cases change with
  | op effect => exact counted_op effect counted
  | loop effect =>
      cases effect with
      | crashed node => exact counted_crash counted node
      | filled slot join value =>
          have filled : Counted { g with slots := g.slots.insert slot ⟨true, some value, []⟩ } :=
            { counted with }
          exact filled.ofEnqueueAll join.joiners
      | parked task slot future running present =>
          refine { counted with tasks := ?_, current := by simp }
          intro other found member
          rw [SortedMap.get_insert] at member
          split_ifs at member with same
          · exact same ▸ counted.tasks task slot present
          · exact counted.tasks other found member
      | halted => exact { counted with current := by simp }
      | ended task =>
          refine { counted with tasks := ?_, current := by simp }
          intro other found member
          rw [SortedMap.get_remove] at member
          split_ifs at member
          exact counted.tasks other found member
      | scheduled time action => exact counted.ofPush time (.nemesis action) (by simp)
      | faulted | drawn | revived | registered => exact { counted with }

theorem counted_pop (g : Inner State Value) (event : Keyed) (after : Inner State Value)
    (effect : PopEffect g event after) (counted : Counted g) : Counted after := by
  have popping {queue} (popped : g.queue.pop = some (event, queue)) :
      Counted { g with queue } :=
    counted.ofQueue queue g.seq fun left member _ _ =>
      (KeyedQueue.mem_of_pop popped left).mpr (Or.inr member)
  have taking {task slot} (counted : Counted g) (present : g.tasks.get task = some slot)
      (other found) (member : (g.tasks.insert task { slot with future := none }).get other =
        some found) : other < g.nextTaskId := by
    rw [SortedMap.get_insert] at member
    split_ifs at member with same
    · exact same ▸ counted.tasks task slot present
    · exact counted.tasks other found member
  cases effect with
  | idle queue dispatched trace popped => exact { popping popped with }
  | fired queue timer task popped kind armed =>
      have fired : Counted { g with
          queue, now := event.time
          dispatched := g.dispatched + 1
          trace := g.trace ++ [TraceLine.dispatched event]
          timers := g.timers.remove timer } := by
        refine { popping popped with timers := ?_ }
        intro other waiter still
        rw [SortedMap.get_remove] at still
        split_ifs at still
        exact counted.timers other waiter still
      exact fired.ofPush _ _ (by simp)
  | dropped queue tape sender receiver msg reason popped => exact { popping popped with }
  | delivered queue tape sender receiver msg popped =>
      refine Counted.ofEnqueueAll ?_ _
      exact { popping popped with }
  | begun queue task slot future popped kind present =>
      refine { popping popped with tasks := taking counted present, current := ?_, awaited := ?_ }
      · intro other same
        cases same
        exact counted.tasks task slot present
      · intro id member
        exact counted.awaited id (Finset.mem_of_mem_filter id member)
  | lost queue task slot popped kind present =>
      refine counted_discard ?_ _
      exact { popping popped with tasks := taking counted present }

end Effects

theorem reachable_counted (program : Program State Value) (nextAction : NextAction Plan)
    (g : Inner State Value) (reachable : Reachable program nextAction g) : Counted g := by
  refine reachable_invariant program nextAction Counted ?_ (fun _ _ => counted_change) counted_pop
    ?_ g reachable
  · intro seed config tape _
    constructor
    case once => exact List.nodup_nil
    all_goals simp [fromTape, completed]
  · intro g after event aborted counted
    obtain ⟨queue, popped, _, rfl⟩ := abort_shape program g after event aborted
    have rest : Counted { g with queue } := counted.ofQueue queue g.seq fun left member _ _ =>
      (KeyedQueue.mem_of_pop popped left).mpr (Or.inr member)
    split_ifs <;> exact { rest with }

end Inner

end Detersim
