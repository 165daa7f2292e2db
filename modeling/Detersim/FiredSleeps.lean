import Detersim.RunRecords
import Detersim.SleepWakeups

/-!
Sleeps whose timer has fired. The timer leaves a poll of the task that sleeps, and
until a poll of this task is dispatched one stays queued and is not late.
-/

namespace Detersim

namespace Inner

variable {State Value Plan : Type}

/-! Whoever owns a future is there to be polled. -/

structure Housed (g : Inner State Value) : Prop where
  owners : ∀ id held task, g.futures.get id = some held → held.owner = some task →
    g.currentTask = some task ∨ ∃ slot, g.tasks.get task = some slot ∧ slot.future ≠ none
  running : ∀ task, g.currentTask = some task → ∃ slot, g.tasks.get task = some slot

/-- No future has an owner it did not have, unless that is the running task. -/
theorem Housed.ofOwners {g after : Inner State Value} (housed : Housed g)
    (tasks : after.tasks = g.tasks) (current : after.currentTask = g.currentTask)
    (owners : ∀ id held, after.futures.get id = some held →
      held.owner = g.currentTask ∨ ∃ old before, g.futures.get old = some before ∧
        before.owner = held.owner) : Housed after := by
  refine ⟨?_, fun task running => tasks ▸ housed.running task (current.symm.trans running)⟩
  intro id held task present owner
  rw [tasks, current]
  rcases owners id held present with same | ⟨old, before, found, same⟩
  · exact Or.inl (same.symm.trans owner)
  · exact housed.owners old before task found (same.trans owner)

theorem Housed.ofFutures {g after : Inner State Value} (housed : Housed g)
    (tasks : after.tasks = g.tasks) (current : after.currentTask = g.currentTask)
    (futures : after.futures = g.futures) : Housed after :=
  housed.ofOwners tasks current fun id held present =>
    Or.inr ⟨id, held, futures ▸ present, rfl⟩

variable {rules : Rules State Value} {fills : SlotId → Prop} {outside : Prop}

/-- A poll of the task is queued, not later than the clock shows the deadline. -/
def Awaited (g : Inner State Value) (task : TaskId) (node : NodeId) (deadline : SimTime) : Prop :=
  ∃ wake ∈ g.queue, wake.kind = .pollTask task ∧ g.Punctual wake.time node deadline

/-- A sleep with a timer belongs to a task. If the timer is not armed it was `seen` to
fire, and the task is `spared` or will be polled. -/
def Answers (seen : TimerId → Prop) (spared : TimerId → TaskId → Prop) (g : Inner State Value) :
    Prop :=
  ∀ id owner node deadline timer, g.Sleeps id owner node deadline (some timer) →
    ∃ task, owner = some task ∧ (g.timers.get timer = none →
      seen timer ∧ (spared timer task ∨ g.Awaited task node deadline))

variable {seen seen' : TimerId → Prop} {spared spared' : TimerId → TaskId → Prop}

theorem Answers.mono {g : Inner State Value} (answers : Answers seen spared g)
    (noted : ∀ timer, seen timer → seen' timer)
    (passed : ∀ timer task, spared timer task → spared' timer task) : Answers seen' spared' g := by
  intro id owner node deadline timer sleeping
  obtain ⟨task, own, fired⟩ := answers id owner node deadline timer sleeping
  refine ⟨task, own, fun unarmed => ?_⟩
  obtain ⟨logged, woken⟩ := fired unarmed
  exact ⟨noted timer logged, woken.imp_left (passed timer task)⟩

/-- No sleep is set that was not, no other timer is gone, and polls that are awaited stay. -/
theorem Answers.frame {g after : Inner State Value} (answers : Answers seen spared g)
    (kept : ∀ id owner node deadline timer, after.Sleeps id owner node deadline (some timer) →
      g.Sleeps id owner node deadline (some timer) ∧
        (after.timers.get timer = none → g.timers.get timer = none) ∧
        ∀ task, owner = some task → g.Awaited task node deadline →
          after.Awaited task node deadline) : Answers seen spared after := by
  intro id owner node deadline timer sleeping
  obtain ⟨before, timers, awaited⟩ := kept id owner node deadline timer sleeping
  obtain ⟨task, own, fired⟩ := answers id owner node deadline timer before
  refine ⟨task, own, fun unarmed => ?_⟩
  obtain ⟨logged, woken⟩ := fired (timers unarmed)
  exact ⟨logged, woken.imp_right (awaited task own)⟩

theorem Awaited.ofSame {g after : Inner State Value} {task : TaskId} {node : NodeId}
    {deadline : SimTime} (awaited : g.Awaited task node deadline)
    (kept : ∀ event ∈ g.queue, event ∈ after.queue) (now : after.now = g.now)
    (skews : after.faults.clockSkewNs = g.faults.clockSkewNs)
    (readings : after.lastLocalNow = g.lastLocalNow) : after.Awaited task node deadline := by
  obtain ⟨wake, member, kind, punctual⟩ := awaited
  exact ⟨wake, kept wake member, kind, punctual.ofSame now skews readings⟩

/-- The timer's event was dispatched. -/
def Logged (g : Inner State Value) (timer : TimerId) : Prop :=
  ∃ fire, TraceLine.dispatched fire ∈ g.trace ∧ fire.kind = .timerFire timer

theorem Logged.more {g after : Inner State Value} {timer : TimerId} {lines : List TraceLine}
    (logged : g.Logged timer) (trace : after.trace = g.trace ++ lines) : after.Logged timer := by
  obtain ⟨fire, member, kind⟩ := logged
  exact ⟨fire, trace ▸ List.mem_append_left lines member, kind⟩

theorem PassedOver.more {g after : Inner State Value} {timer : TimerId} {task : TaskId}
    {lines : List TraceLine} (passed : g.PassedOver timer task)
    (trace : after.trace = g.trace ++ lines) : after.PassedOver timer task := by
  obtain ⟨earlier, fire, later, poll, split, kind, member, polls⟩ := passed
  refine ⟨earlier, fire, later ++ lines, poll, ?_, kind, List.mem_append_left lines member, polls⟩
  rw [trace, split, List.append_assoc, List.cons_append]

theorem Logged.polled {g after : Inner State Value} {timer : TimerId} {task : TaskId}
    {poll : Keyed} {lines : List TraceLine} (logged : g.Logged timer)
    (trace : after.trace = g.trace ++ lines) (member : TraceLine.dispatched poll ∈ lines)
    (kind : poll.kind = .pollTask task) : after.PassedOver timer task := by
  obtain ⟨fire, written, fires⟩ := logged
  obtain ⟨earlier, later, split⟩ := List.append_of_mem written
  refine ⟨earlier, fire, later ++ lines, poll, ?_, fires, List.mem_append_right later member, kind⟩
  rw [trace, split, List.append_assoc, List.cons_append]

/-- A world between two steps: a sleep whose timer has fired waits for a poll of its task,
unless there was one. -/
def Answered (g : Inner State Value) : Prop := Answers g.Logged g.PassedOver g

theorem Answers.written {g after : Inner State Value} {lines : List TraceLine}
    (answers : Answers g.Logged g.PassedOver after) (trace : after.trace = g.trace ++ lines) :
    Answered after :=
  answers.mono (fun _ logged => logged.more trace) fun _ _ passed => passed.more trace

end Inner

end Detersim
