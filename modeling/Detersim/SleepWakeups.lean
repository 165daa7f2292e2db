import Detersim.LocalClocks

/-!
Timers of sleeps. A timer is set once, for the instant at which the node's clock
will show the deadline as it is set then. It fires on time unless the clock is put
ahead in the meantime, logical time goes back, or the sleep is handed to another
task.
-/

namespace Detersim

namespace Inner

variable {State Value Plan : Type}

/-- What the clock of `node` would show at another instant. -/
def localAt (g : Inner State Value) (instant : SimTime) (node : NodeId) : SimTime :=
  ({ g with now := instant }.localNow node).1

/-- A sleep whose timer is armed, to wake `waiter`. -/
structure Pends (g : Inner State Value) (id : FutureId) (owner : Option TaskId) (node : NodeId)
    (deadline : SimTime) (timer : TimerId) (waiter : TaskId) : Prop where
  sleeping : g.Sleeps id owner node deadline (some timer)
  armed : g.timers.get timer = some waiter

/-- Seen from `now`, the instant is here, or the clock shows the deadline at none before it. -/
def PunctualAt (g : Inner State Value) (now time : SimTime) (node : NodeId) (deadline : SimTime) :
    Prop :=
  time ≤ now ∨ g.lastReading node < deadline ∧ (time.toNat : Int) + g.skewOf node ≤ deadline.toNat

def Punctual (g : Inner State Value) (time : SimTime) (node : NodeId) (deadline : SimTime) : Prop :=
  g.PunctualAt g.now time node deadline

/-! A sleep between its timer and the poll this leaves. -/

/-- Since the timer fired, a poll of the task was dispatched. -/
def PassedOver (g : Inner State Value) (timer : TimerId) (task : TaskId) : Prop :=
  ∃ earlier fire later poll, g.trace = earlier ++ TraceLine.dispatched fire :: later ∧
    fire.kind = .timerFire timer ∧ TraceLine.dispatched poll ∈ later ∧ poll.kind = .pollTask task

structure OnTime (g : Inner State Value) : Prop where
  below : ∀ id owner node deadline timer, g.Sleeps id owner node deadline timer → id < g.nextFuture
  issued : ∀ id owner node deadline timer, g.Sleeps id owner node deadline (some timer) →
    timer < g.nextTimerId
  apart : ∀ left owner node deadline right owner' node' deadline' timer,
    g.Sleeps left owner node deadline (some timer) →
      g.Sleeps right owner' node' deadline' (some timer) → left = right
  owner : ∀ id owner node deadline timer waiter, g.Pends id owner node deadline timer waiter →
    owner = some waiter
  queued : ∀ id owner node deadline timer waiter, g.Pends id owner node deadline timer waiter →
    ∃ fire ∈ g.queue, fire.kind = .timerFire timer ∧ g.Punctual fire.time node deadline

/-- Nothing is armed that was not, and what is armed keeps its event and is not late. -/
theorem OnTime.frame {g after : Inner State Value} (onTime : OnTime g) (onward : Onward g after)
    (nextTimerId : g.nextTimerId ≤ after.nextTimerId)
    (timed : ∀ id owner node deadline timer, after.Sleeps id owner node deadline (some timer) →
      ∃ before, g.Sleeps id before node deadline (some timer))
    (pends : ∀ id owner node deadline timer waiter,
      after.Pends id owner node deadline timer waiter →
      g.Pends id owner node deadline timer waiter ∧
        ∀ fire ∈ g.queue, fire.kind = .timerFire timer → g.Punctual fire.time node deadline →
          fire ∈ after.queue ∧ after.Punctual fire.time node deadline) : OnTime after where
  below := by
    intro id owner node deadline timer sleeping
    obtain ⟨owner, timer, sleeping⟩ := onward.sleeps id owner node deadline timer sleeping
    exact (onTime.below id owner node deadline timer sleeping).trans_le onward.nextFuture
  issued := by
    intro id owner node deadline timer sleeping
    obtain ⟨owner, sleeping⟩ := timed id owner node deadline timer sleeping
    exact (onTime.issued id owner node deadline timer sleeping).trans_le nextTimerId
  apart := by
    intro left owner node deadline right owner' node' deadline' timer first second
    obtain ⟨owner, first⟩ := timed left owner node deadline timer first
    obtain ⟨owner', second⟩ := timed right owner' node' deadline' timer second
    exact onTime.apart left owner node deadline right owner' node' deadline' timer first second
  owner := fun id owner node deadline timer waiter armed =>
    onTime.owner id owner node deadline timer waiter
      (pends id owner node deadline timer waiter armed).1
  queued := by
    intro id owner node deadline timer waiter armed
    obtain ⟨before, kept⟩ := pends id owner node deadline timer waiter armed
    obtain ⟨fire, member, kind, punctual⟩ :=
      onTime.queued id owner node deadline timer waiter before
    obtain ⟨member, punctual⟩ := kept fire member kind punctual
    exact ⟨fire, member, kind, punctual⟩

variable {crashes : Inner State Value → NodeId → Prop}

theorem Punctual.ofSame {g after : Inner State Value} {time : SimTime} {node : NodeId}
    {deadline : SimTime} (punctual : g.Punctual time node deadline) (now : after.now = g.now)
    (skews : after.faults.clockSkewNs = g.faults.clockSkewNs)
    (readings : after.lastLocalNow = g.lastLocalNow) : after.Punctual time node deadline := by
  unfold Punctual PunctualAt lastReading skewOf at *
  rwa [now, skews, readings]

theorem OnTime.fresh {g : Inner State Value} (onTime : OnTime g) (owner : Option TaskId)
    (node : NodeId) (deadline : SimTime) (timer : Option TimerId) :
    ¬g.Sleeps g.nextFuture owner node deadline timer :=
  fun sleeping => lt_irrefl _ (onTime.below _ owner node deadline timer sleeping)

theorem popTurn_timers (g : Inner State Value) (event : Keyed) (queue : EventQueue)
    {timer : TimerId} {waiter : TaskId}
    (armed : (g.popTurn event queue).timers.get timer = some waiter) :
    event.kind ≠ .timerFire timer ∧ g.timers.get timer = some waiter := by
  unfold popTurn at armed
  cases kind : event.kind with
  | timerFire fired =>
      simp only [kind, SortedMap.get_remove] at armed
      split_ifs at armed with same
      exact ⟨fun again => same (EventKind.timerFire.inj again).symm, armed⟩
  | pollTask | deliverMsg | nemesis =>
      simp only [kind] at armed
      exact ⟨by simp, armed⟩

theorem calls_current {Result : Type} (code : Code State Value Result) (g : Inner State Value) :
    ∀ call ∈ calls code g, call.before.currentTask = g.currentTask := by
  induction code generalizing g with
  | done => exact fun _ member => absurd member List.not_mem_nil
  | call op next ih =>
      have still : (g.perform op).2.currentTask = g.currentTask :=
        (exec_frame (.call op fun _ => .done ()) g).currentTask
      intro call member
      rcases List.mem_cons.mp member with rfl | later
      · rfl
      · exact (ih _ _ call later).trans still

theorem restartCalls_current (g : Inner State Value) (node : NodeId) :
    ∀ call ∈ restartCalls g node, call.before.currentTask = g.currentTask := by
  unfold restartCalls
  split_ifs
  · split
    · exact fun _ member => absurd member List.not_mem_nil
    · exact calls_current _ _
  · exact fun _ member => absurd member List.not_mem_nil
  · exact fun _ member => absurd member List.not_mem_nil

theorem operateCalls_current (g : Inner State Value) (op : WorldOp State Value Plan) :
    ∀ call ∈ g.operateCalls op, call.before.currentTask = g.currentTask := by
  cases op with
  | addNode node factory =>
      simp only [operateCalls]
      split_ifs
      · exact fun _ member => absurd member List.not_mem_nil
      · exact calls_current _ _
  | restartNode node | restartNodeOutcome node => exact restartCalls_current g node
  | useEnv code => exact calls_current code g
  | scheduleNemesis | scheduleNemesisPlan | partition | healAll | setDropPercent
  | setDuplicatePercent | setExtraDelayMs | setClockSkew | crashNode =>
      exact fun _ member => absurd member List.not_mem_nil

end Inner

end Detersim
