import Detersim.Reachable
import Detersim.Report

/-!
The deadlock flag of a run report. It is computed after the loop from what is
left in the queue, and an abort has taken an event out of the queue by then, so
the flag can be set in a run that was cut off.
-/

namespace Detersim

namespace Inner

variable {State Value Plan : Type}

/-- The timer has its event queued. -/
def TimersQueued (g : Inner State Value) : Prop :=
  ∀ timer task, g.timers.get timer = some task →
    ∃ event ∈ g.queue, event.kind = .timerFire timer

theorem TimersQueued.keep {g after : Inner State Value} (queued : TimersQueued g)
    (timers : ∀ timer task, after.timers.get timer = some task → g.timers.get timer = some task)
    (queue : ∀ event ∈ g.queue, ∀ timer task, event.kind = .timerFire timer →
      after.timers.get timer = some task → event ∈ after.queue) : TimersQueued after := by
  intro timer task armed
  obtain ⟨event, member, kind⟩ := queued timer task (timers timer task armed)
  exact ⟨event, queue event member timer task kind armed, kind⟩

section Changes

variable {rules : Rules State Value} {fills : SlotId → Prop} {outside : Prop}

theorem timersQueued_op {g after : Inner State Value} (effect : OpEffect rules g after)
    (queued : TimersQueued g) : TimersQueued after := by
  have pushed {kind : EventKind} {time : SimTime} {seq : Nat} {queue : EventQueue} {event : Keyed}
      (member : event ∈ queue) : event ∈ queue.push ⟨time, seq, kind⟩ :=
    (KeyedQueue.mem_push _ _ _).mpr (Or.inr member)
  cases effect with
  | sent => exact queued.keep (fun _ _ => id) (fun _ member _ _ _ _ => pushed member)
  | sentTwice =>
      exact queued.keep (fun _ _ => id) (fun _ member _ _ _ _ => pushed (pushed member))
  | started => exact queued.keep (fun _ _ => id) (fun _ member _ _ _ _ => pushed member)
  | armed id held node deadline old task time =>
      intro timer waiter armed
      by_cases same : timer = g.nextTimerId
      · exact ⟨⟨time, g.seq, .timerFire g.nextTimerId⟩,
          (KeyedQueue.mem_push _ _ _).mpr (Or.inl rfl), same ▸ rfl⟩
      · have before : g.timers.get timer = some waiter :=
          (SortedMap.get_insert_of_ne _ _ same).symm.trans armed
        obtain ⟨event, member, kind⟩ := queued timer waiter before
        exact ⟨event, pushed member, kind⟩
  | cancelled timer =>
      refine queued.keep ?_ (fun _ member _ _ _ _ => member)
      intro other task armed
      simp only [cancelTimer, SortedMap.get_remove] at armed
      split_ifs at armed
      exact armed
  | unregistered node task =>
      unfold unregisterRecvWaiter
      split <;> exact queued
  | quiet | held | opened | gave | unarmed | forgot | waited | received | joining | handled =>
      exact queued

theorem timersQueued_crash {g : Inner State Value} (node : NodeId) (queued : TimersQueued g) :
    TimersQueued (g.crashNode node) := by
  unfold crashNode
  split_ifs
  · refine queued.keep ?_ ?_
    · intro timer task armed
      rw [SortedMap.get_retain, Option.filter_eq_some_iff] at armed
      exact armed.1
    · -- The crash keeps the event of every timer it leaves armed.
      intro event member timer task kind armed
      rw [KeyedQueue.mem_retain, kind]
      exact ⟨member, (SortedMap.contains_iff _ _).mpr ⟨task, armed⟩⟩
  · exact queued

theorem timersQueued_change (g after : Inner State Value)
    (change : Change rules fills outside g after) (queued : TimersQueued g) :
    TimersQueued after := by
  cases change with
  | op effect => exact timersQueued_op effect queued
  | loop effect =>
      cases effect with
      | crashed node => exact timersQueued_crash node queued
      | filled slot join value =>
          obtain ⟨queue, shape⟩ := enqueueAll_shape join.joiners
            { g with slots := g.slots.insert slot ⟨true, some value, []⟩ }
          refine queued.keep ?_ (fun event member _ _ _ _ => mem_enqueueAll _ _ event member)
          rw [shape]
          exact fun _ _ => id
      | scheduled =>
          exact queued.keep (fun _ _ => id)
            (fun _ member _ _ _ _ => (KeyedQueue.mem_push _ _ _).mpr (Or.inr member))
      | faulted | drawn | revived | registered | parked | halted | ended => exact queued

/-- A popped event was the event of an armed timer only if that timer fired. -/
theorem timersQueued_pop {g after : Inner State Value} {event : Keyed}
    (effect : PopEffect g event after) (queued : TimersQueued g) : TimersQueued after := by
  have kept {queue} (popped : g.queue.pop = some (event, queue))
      (other : ∀ timer task, g.timers.get timer = some task → event.kind ≠ .timerFire timer)
      (timer task) (armed : g.timers.get timer = some task) :
      ∃ left ∈ queue, left.kind = .timerFire timer := by
    obtain ⟨left, member, kind⟩ := queued timer task armed
    rcases (KeyedQueue.mem_of_pop popped left).mp member with rfl | rest
    · exact absurd kind (other timer task armed)
    · exact ⟨left, rest, kind⟩
  cases effect with
  | idle queue dispatched trace popped reason =>
      refine kept popped ?_
      intro timer task armed kind
      simp [Idle, kind, armed] at reason
  | fired queue timer task popped kind armed =>
      intro other waiter still
      have different : other ≠ timer := by
        rintro rfl
        exact absurd ((SortedMap.get_remove_self g.timers other).symm.trans still)
          (Option.some_ne_none waiter).symm
      have before : g.timers.get other = some waiter :=
        (SortedMap.get_remove_of_ne g.timers different).symm.trans still
      obtain ⟨left, member, leftKind⟩ := queued other waiter before
      rcases (KeyedQueue.mem_of_pop popped left).mp member with rfl | rest
      · exact absurd (EventKind.timerFire.inj (leftKind.symm.trans kind)) different
      · exact ⟨left, (KeyedQueue.mem_push _ _ _).mpr (Or.inr rest), leftKind⟩
  | dropped queue tape sender receiver msg reason popped kind =>
      exact kept popped (by simp [kind])
  | delivered queue tape sender receiver msg popped kind =>
      have before := kept popped (by simp [kind])
      intro timer task armed
      obtain ⟨_, shape⟩ := enqueueAll_shape ((g.recvWaiters.get receiver).getD []) _
      rw [shape] at armed
      obtain ⟨left, member, leftKind⟩ := before timer task armed
      exact ⟨left, mem_enqueueAll _ _ left member, leftKind⟩
  | begun queue task slot future popped kind => exact kept popped (by simp [kind])
  | lost queue task slot popped kind => exact kept popped (by simp [kind])

end Changes

/-- No run of the world was cut off. -/
def uncut : StepConditions State Value Plan :=
  ⟨fun _ _ => True, fun _ _ => True, fun _ _ => False⟩

theorem uncut_timersQueued {program : Program State Value} {nextAction : NextAction Plan}
    {g : Inner State Value} (under : ReachableUnder program nextAction uncut g) :
    TimersQueued g := by
  refine reachableUnder_invariant TimersQueued ?_ ?_ under
  · intro _ _ _ _ timer task armed
    cases armed
  · intro g after _ step queued
    cases step with
    | operate op =>
        have changes : Changes anyRules (fun _ => True) True g (g.operate nextAction op).2 :=
          operate_changes nextAction g op (operateMeets_any g op)
        exact changes_keep TimersQueued timersQueued_change changes queued
    | turn turned =>
        obtain ⟨mid, popped, changes⟩ := turn_changes program _ _ _ turned
          (fun _ => dispatchMeets_any program _ _)
        exact changes_keep TimersQueued timersQueued_change changes
          (timersQueued_pop popped queued)
    | abort _ allowed =>
        -- An abort pops a timer's event and leaves the timer armed.
        exact allowed.elim

/-- What a deadlock flag says: the queue ran empty, tasks are left, none of them
waits for a timer, and the run was not cut off. -/
def DeadlockFlagSound (payload : Message → String) (outcome : Outcome State Value) : Prop :=
  (outcome.world.report payload).deadlocked = true →
    outcome.stop = .quiesced ∧
      (outcome.world.report payload).parkedTasks ≠ 0 ∧
      (∀ timer task, outcome.world.timers.get timer = some task →
        outcome.world.tasks.get task = none) ∧
      (outcome.world.report payload).aborted = false

/-- The loop stands before its end with tasks left: at an empty queue with the
budget used up, or at a last event that will be popped only to abort. -/
def EndsSpent (g : Inner State Value) : Prop :=
  g.tasks.isEmpty = false ∧
    (g.queue.entries = [] ∧ g.spent = true ∨
      ∃ event, g.queue.entries = [event] ∧ g.trips event = true)

/-- The queue is empty, and yet a task left has an armed timer. -/
def ForgetsTimer (g : Inner State Value) : Prop :=
  g.queue.entries = [] ∧
    ∃ timer task slot, g.timers.get timer = some task ∧ g.tasks.get task = some slot

theorem TimersQueued.not_forgets {g : Inner State Value} (queued : TimersQueued g) :
    ¬ForgetsTimer g := by
  rintro ⟨empty, timer, task, _, armed, _⟩
  obtain ⟨event, member, _⟩ := queued timer task armed
  rw [KeyedQueue.mem_def, empty] at member
  exact List.not_mem_nil member

theorem stuck_iff (g : Inner State Value) :
    g.stuck = true ↔ g.queue.entries = [] ∧ g.tasks.isEmpty = false := by
  simp [stuck, KeyedQueue.isEmpty]

theorem spent_of_trips {g : Inner State Value} {event : Keyed} (tripped : g.trips event = true)
    (queue : EventQueue) : { g with queue, now := event.time }.spent = true := by
  simpa [spent, trips, or_comm] using tripped

/-- The flag of a run is sound exactly when no state on its way ends it wrongly. -/
theorem flagSound_iff (payload : Message → String) (program : Program State Value)
    (g : Inner State Value) :
    DeadlockFlagSound payload (run program g) ↔
      ∀ events middle, TurnsTo program g events middle →
        ¬EndsSpent middle ∧ ¬ForgetsTimer middle := by
  constructor
  · intro sound events middle turns
    rw [run_of_turnsTo turns] at sound
    refine ⟨?_, ?_⟩
    · rintro ⟨tasks, ⟨empty, spent⟩ | ⟨event, entries, tripped⟩⟩
      · rw [run_of_empty program middle empty] at sound
        have clear := (sound ((stuck_iff middle).mpr ⟨empty, tasks⟩)).2.2.2
        exact absurd (spent.symm.trans clear) (by decide)
      · -- The abort pops the last event before the report looks at the queue.
        have popped : middle.queue.pop = some (event, .empty) :=
          KeyedQueue.pop_eq_some.mpr entries
        rw [run_of_trips program middle event .empty popped tripped] at sound
        have flagged := sound ((stuck_iff _).mpr (by split_ifs <;> exact ⟨rfl, tasks⟩))
        cases flagged.1
    · rintro ⟨empty, timer, task, slot, armed, present⟩
      rw [run_of_empty program middle empty] at sound
      have tasks : middle.tasks.isEmpty = false := by
        by_contra none_
        have absent := (SortedMap.isEmpty_iff _).mp (Bool.not_eq_false _ ▸ none_) task
        exact absurd (absent.symm.trans present) (by simp)
      have gone := (sound ((stuck_iff middle).mpr ⟨empty, tasks⟩)).2.2.1 timer task armed
      exact absurd (gone.symm.trans present) (by simp)
  · intro clear flagged
    obtain ⟨events, last, turns, ⟨quiet, result⟩ | ⟨event, next, aborted, result⟩⟩ :=
      run_stops program g
    · obtain ⟨notSpent, notForgets⟩ := clear events last turns
      rw [result] at flagged ⊢
      obtain ⟨empty, tasks⟩ := (stuck_iff last).mp flagged
      refine ⟨rfl, ?_, ?_, ?_⟩
      · intro none_
        rw [SortedMap.isEmpty, List.isEmpty_eq_false_iff] at tasks
        exact tasks (List.length_eq_zero_iff.mp none_)
      · intro timer task armed
        by_contra present
        obtain ⟨slot, present⟩ := Option.ne_none_iff_exists'.mp present
        exact notForgets ⟨empty, timer, task, slot, armed, present⟩
      · by_contra spent
        exact notSpent ⟨tasks, Or.inl ⟨empty, (Bool.not_eq_false _).mp spent⟩⟩
    · obtain ⟨queue, popped, tripped, rfl⟩ := abort_shape program last next event aborted
      obtain ⟨notSpent, _⟩ := clear events last turns
      rw [result] at flagged
      obtain ⟨empty, tasks⟩ := (stuck_iff _).mp flagged
      refine absurd ⟨?_, Or.inr ⟨event, ?_, tripped⟩⟩ notSpent
      · split_ifs at tasks <;> exact tasks
      · rw [KeyedQueue.pop_eq_some.mp popped]
        split_ifs at empty <;> exact congrArg (event :: ·) empty

theorem turnsTo_uncut {program : Program State Value} {nextAction : NextAction Plan}
    {g middle : Inner State Value} {events : List Keyed}
    (under : ReachableUnder program nextAction uncut g) (turns : TurnsTo program g events middle) :
    ReachableUnder program nextAction uncut middle := by
  refine KeyedQueue.runs_keep (ReachableUnder program nextAction uncut) ?_ under turns
  rintro before event after ⟨start, starts, steps⟩ turned
  exact ⟨start, starts, steps.tail (Step.turn turned trivial)⟩

/-- The deadlock flag can be trusted exactly in the runs that reach no state of
the two kinds; the second kind takes a world in which a run was cut off before. -/
theorem deadlock_flag_sound_iff (payload : Message → String) (program : Program State Value)
    (nextAction : NextAction Plan) :
    (∀ g, DeadlockFlagSound payload (run program g) ↔
      ∀ events middle, TurnsTo program g events middle →
        ¬EndsSpent middle ∧ ¬ForgetsTimer middle) ∧
      ∀ g, ReachableUnder program nextAction uncut g →
        (DeadlockFlagSound payload (run program g) ↔
          ∀ events middle, TurnsTo program g events middle → ¬EndsSpent middle) := by
  refine ⟨flagSound_iff payload program, ?_⟩
  intro g under
  rw [flagSound_iff]
  constructor
  · intro clear events middle turns
    exact (clear events middle turns).1
  · intro clear events middle turns
    exact ⟨clear events middle turns,
      (uncut_timersQueued (turnsTo_uncut under turns)).not_forgets⟩

/-- A task that sleeps for a hundred seconds. -/
def oversleep : Program (Option FutureId) Unit
  | none => Code.sleep 0 100000000000 fun
    | .future id => .call (.poll id) fun
      | .pending => .done (.pending (some id))
      | _ => .done (.ready ())
    | _ => .done (.ready ())
  | some id => .call (.poll id) fun
    | .pending => .done (.pending (some id))
    | _ => .done (.ready ())

def oversleepWorld : Inner (Option FutureId) Unit :=
  ((replay 0 [] {}).operate noPlans (.addNode 0 fun _ => .done none)).2

theorem oversleepWorld_uncut : ReachableUnder oversleep noPlans uncut oversleepWorld :=
  ⟨replay 0 [] {}, ⟨0, {}, Or.inr ⟨[], rfl⟩⟩,
    Relation.ReflTransGen.single (Step.operate (.addNode 0 fun _ => .done none) trivial)⟩

/-- The horizon is sixty seconds, so the run is cut off at the only event left. -/
theorem oversleep_flagged_deadlocked :
    ReachableUnder oversleep noPlans uncut oversleepWorld ∧
      ((run oversleep oversleepWorld).world.report fun _ => "").deadlocked = true ∧
      ((run oversleep oversleepWorld).world.report fun _ => "").aborted = true ∧
      (run oversleep oversleepWorld).world.timers.get 0 = some 0 ∧
      ((run oversleep oversleepWorld).world.tasks.get 0).isSome = true ∧
      ¬DeadlockFlagSound (fun _ => "") (run oversleep oversleepWorld) := by
  refine ⟨oversleepWorld_uncut, ?_⟩
  rw [run_of_runFor oversleep 2 oversleepWorld _ rfl]
  refine ⟨by decide, by decide, by decide, by decide, ?_⟩
  intro sound
  exact absurd (sound (by decide)).2.2.2 (by decide)

theorem oversleep_sound_iff :
    DeadlockFlagSound (fun _ => "") (run oversleep oversleepWorld) ↔
      ∀ events middle, TurnsTo oversleep oversleepWorld events middle → ¬EndsSpent middle :=
  (deadlock_flag_sound_iff (fun _ => "") oversleep noPlans).2 oversleepWorld oversleepWorld_uncut

end Inner

end Detersim
