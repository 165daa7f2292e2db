import Detersim.Effects
import Mathlib.Order.WellFounded

/-!
`World::run`. A turn either spends one unit of the event budget or pops an event
and pushes none, so the loop ends without fuel.
-/

namespace Detersim

namespace Inner

variable {State Value : Type}

/-- The horizon, the event budget and the units spent of it are as they were. -/
structure SameBudget (g after : Inner State Value) : Prop where
  config : after.config = g.config
  dispatched : after.dispatched = g.dispatched

theorem OpFrame.sameBudget {g after : Inner State Value} (frame : OpFrame g after) :
    SameBudget g after :=
  ⟨frame.config, frame.dispatched⟩

theorem SameBudget.trans {first second third : Inner State Value}
    (left : SameBudget first second) (right : SameBudget second third) :
    SameBudget first third :=
  ⟨right.config.trans left.config, right.dispatched.trans left.dispatched⟩

theorem enqueueAll_budget (tasks : List TaskId) (g : Inner State Value) :
    SameBudget g (tasks.foldl enqueuePollNow g) := by
  induction tasks generalizing g with
  | nil => exact ⟨rfl, rfl⟩
  | cons task rest ih =>
      have step : SameBudget g (g.enqueuePollNow task) := ⟨rfl, rfl⟩
      exact step.trans (ih _)

theorem finishTask_budget (g : Inner State Value) (task : TaskId) (slot : Option SlotId)
    (value : Value) : SameBudget g (g.finishTask task slot value) := by
  have released := (releases_frame (g.ownedBy task) g).sameBudget
  unfold finishTask
  cases slot with
  | none => exact ⟨released.config, released.dispatched⟩
  | some slot =>
      dsimp only
      split
      · exact ⟨released.config, released.dispatched⟩
      next join _ =>
        have woken := enqueueAll_budget join.joiners
          { ((g.ownedBy task).foldl release g) with
            slots := ((g.ownedBy task).foldl release g).slots.insert slot ⟨true, some value, []⟩ }
        exact ⟨woken.config.trans released.config, woken.dispatched.trans released.dispatched⟩

theorem applyNemesis_budget (g : Inner State Value) (action : NemesisAction) :
    SameBudget g (g.applyNemesis action) := by
  cases action with
  | crash node =>
      simp only [applyNemesis, crashNode]
      split_ifs <;> exact ⟨rfl, rfl⟩
  | bitRot node =>
      simp only [applyNemesis]
      split <;> exact ⟨rfl, rfl⟩
  | partition | asymmetricPartition | setLink | healAll | restart | clockSkew | tornWrite
  | lostOnCrash | preFsyncReorder => exact ⟨rfl, rfl⟩

theorem spawnRegisteredNode_budget (g : Inner State Value) (node : NodeId)
    (factory : NodeFactory State Value) : SameBudget g (g.spawnRegisteredNode node factory) := by
  have made := exec_frame (factory node) g
  exact ⟨made.config, made.dispatched⟩

theorem restartNodeOutcome_budget (g : Inner State Value) (node : NodeId) :
    SameBudget g (g.restartNodeOutcome node).2 := by
  unfold restartNodeOutcome
  split_ifs
  · split
    · exact ⟨rfl, rfl⟩
    next factory _ =>
      have started := spawnRegisteredNode_budget { g with crashed := g.crashed.erase node } node
        factory
      exact ⟨started.config, started.dispatched⟩
  · exact ⟨rfl, rfl⟩
  · exact ⟨rfl, rfl⟩

theorem restartNode_budget (g : Inner State Value) (node : NodeId) :
    SameBudget g (g.restartNode node) :=
  ⟨(restartNodeOutcome_budget g node).config, (restartNodeOutcome_budget g node).dispatched⟩

/-- Dispatching spends one unit, or is the skipping of a stale event. -/
theorem dispatch_progress (program : Program State Value) (g : Inner State Value)
    (event : Keyed) :
    (dispatch program g event).config = g.config ∧
      ((dispatch program g event).dispatched = g.dispatched + 1 ∨
        (dispatch program g event).dispatched = g.dispatched ∧
          (dispatch program g event).queue = g.queue) := by
  unfold dispatch
  split
  next timer _ =>
    unfold fireTimer
    split
    · exact ⟨rfl, Or.inr ⟨rfl, rfl⟩⟩
    · exact ⟨rfl, Or.inl rfl⟩
  next sender receiver msg _ =>
    unfold deliverMsg
    split_ifs
    · exact ⟨rfl, Or.inl rfl⟩
    · exact ⟨rfl, Or.inl rfl⟩
    · have moved := drawPercent_moves g g.faults.dropPercent .dropDecision
      generalize g.drawPercent g.faults.dropPercent .dropDecision = drawn at moved ⊢
      obtain ⟨lost, mid⟩ := drawn
      obtain ⟨tape, _, _, rfl⟩ := moved
      cases lost with
      | true => exact ⟨rfl, Or.inl rfl⟩
      | false => exact ⟨(enqueueAll_budget _ _).config, Or.inl (enqueueAll_budget _ _).dispatched⟩
    · exact ⟨rfl, Or.inl rfl⟩
  next action _ =>
    unfold dispatchNemesis
    dsimp only
    split
    next node _ =>
      have restarted := restartNode_budget
        { g.countDispatch (.dispatched event) with
          nemesisTrace := g.nemesisTrace ++ [.restart node] } node
      exact ⟨restarted.config, Or.inl restarted.dispatched⟩
    next =>
      have applied := applyNemesis_budget (g.countDispatch (.dispatched event)) action
      exact ⟨applied.config, Or.inl applied.dispatched⟩
  next task _ =>
    unfold pollTask
    split
    · exact ⟨rfl, Or.inr ⟨rfl, rfl⟩⟩
    next slot _ =>
      split
      · exact ⟨rfl, Or.inr ⟨rfl, rfl⟩⟩
      next future _ =>
        dsimp only
        split_ifs
        · exact ⟨rfl, Or.inr ⟨rfl, rfl⟩⟩
        · have ran := exec_frame (program future.state)
            (({ g with tasks := g.tasks.insert task { slot with future := none } }.countDispatch
              (.dispatched event)).beginPoll task)
          split
          next state after shape =>
            rw [shape] at ran
            exact ⟨ran.config, Or.inl ran.dispatched⟩
          next value after shape =>
            rw [shape] at ran
            have finished := finishTask_budget after task future.slot value
            exact ⟨finished.config.trans ran.config, Or.inl (finished.dispatched.trans ran.dispatched)⟩

theorem turn_decreases (program : Program State Value) (g next : Inner State Value)
    (event : Keyed) (turned : turn program g = .next event next) :
    Prod.Lex (· < ·) (· < ·)
      (next.config.maxEvents - next.dispatched, next.queue.entries.length)
      (g.config.maxEvents - g.dispatched, g.queue.entries.length) := by
  unfold turn at turned
  cases popped : g.queue.pop with
  | none => simp [popped] at turned
  | some entry =>
      obtain ⟨head, queue⟩ := entry
      simp only [popped] at turned
      split_ifs at turned with tripped
      simp only [Turn.next.injEq] at turned
      obtain ⟨rfl, rfl⟩ := turned
      have within : g.dispatched < g.config.maxEvents := by
        simp only [trips, Bool.or_eq_true, decide_eq_true_eq, not_or, not_le] at tripped
        exact tripped.2
      have progress := dispatch_progress program { g with queue, now := head.time } head
      -- A poll of a task that is gone or down is not counted, but it shortens the queue.
      obtain ⟨config, spent | ⟨kept, unchanged⟩⟩ := progress
      · rw [config, spent]
        exact Prod.Lex.left _ _ (Nat.sub_succ_lt_self _ _ within)
      · rw [config, kept, unchanged, KeyedQueue.length_of_pop popped]
        exact Prod.Lex.right _ (Nat.lt_succ_self _)

inductive Stop where
  | quiesced
  | aborted (event : Keyed)
  deriving DecidableEq

/-- The popped events, in order, are what the run is about; only `world` is the
source's. -/
structure Outcome (State Value : Type) where
  popped : List Keyed
  stop : Stop
  world : Inner State Value

/-- The loop of `World::run`. -/
def run (program : Program State Value) (g : Inner State Value) : Outcome State Value :=
  match _turned : turn program g with
  | .quiesce => ⟨[], .quiesced, g⟩
  | .abort event next => ⟨[event], .aborted event, next⟩
  | .next event next =>
      let rest := run program next
      { rest with popped := event :: rest.popped }
termination_by (g.config.maxEvents - g.dispatched, g.queue.entries.length)
decreasing_by exact turn_decreases program g next event _turned

/-- The same loop with fuel, for evaluating a run of known length. -/
def runFor (program : Program State Value) : Nat → Inner State Value →
    Option (Outcome State Value)
  | 0, _ => none
  | fuel + 1, g => match turn program g with
    | .quiesce => some ⟨[], .quiesced, g⟩
    | .abort event next => some ⟨[event], .aborted event, next⟩
    | .next event next =>
        (runFor program fuel next).map fun rest => { rest with popped := event :: rest.popped }

theorem run_of_runFor (program : Program State Value) (fuel : Nat) (g : Inner State Value)
    (outcome : Outcome State Value) (ran : runFor program fuel g = some outcome) :
    run program g = outcome := by
  induction fuel generalizing g outcome with
  | zero => cases ran
  | succ fuel ih =>
      rw [runFor] at ran
      rw [run]
      split at ran
      next turned => rw [turned]; exact Option.some.inj ran
      next event next turned => rw [turned]; exact Option.some.inj ran
      next event next turned =>
        obtain ⟨rest, ended, shape⟩ := Option.map_eq_some_iff.mp ran
        rw [turned]
        dsimp only
        rw [ih next rest ended, shape]

/-- One dispatched event of a run. -/
def Turns (program : Program State Value) (g : Inner State Value) (event : Keyed)
    (next : Inner State Value) : Prop :=
  turn program g = .next event next

abbrev TurnsTo (program : Program State Value) :
    Inner State Value → List Keyed → Inner State Value → Prop :=
  KeyedQueue.Runs (Turns program)

theorem run_of_turnsTo {program : Program State Value} {g middle : Inner State Value}
    {events : List Keyed} (turns : TurnsTo program g events middle) :
    run program g =
      { run program middle with popped := events ++ (run program middle).popped } := by
  induction turns with
  | refl => rfl
  | @turn before next after event rest turned _ ih =>
      rw [run]
      split
      next quiet => rw [Turns, quiet] at turned; cases turned
      next aborted => rw [Turns, aborted] at turned; cases turned
      next event' next' same =>
        rw [Turns, same] at turned
        cases turned
        dsimp only
        rw [ih]
        rfl

theorem run_next {program : Program State Value} {g next : Inner State Value} {event : Keyed}
    (turned : turn program g = .next event next) :
    (run program g).world = (run program next).world := by
  rw [run_of_turnsTo (KeyedQueue.Runs.turn turned (KeyedQueue.Runs.refl next))]

theorem turn_quiesce (program : Program State Value) (g : Inner State Value) :
    turn program g = .quiesce ↔ g.queue.entries = [] := by
  rw [← KeyedQueue.pop_eq_none, turn]
  cases popped : g.queue.pop with
  | none => simp
  | some entry =>
      obtain ⟨event, queue⟩ := entry
      dsimp only
      split_ifs <;> simp

theorem run_of_empty (program : Program State Value) (g : Inner State Value)
    (empty : g.queue.entries = []) : run program g = ⟨[], .quiesced, g⟩ := by
  rw [run, (turn_quiesce program g).mpr empty]

theorem run_of_trips (program : Program State Value) (g : Inner State Value) (event : Keyed)
    (queue : EventQueue) (popped : g.queue.pop = some (event, queue))
    (tripped : g.trips event = true) :
    run program g = ⟨[event], .aborted event,
      if isDelivery event then
        { g with queue, now := event.time }.settle event .aborted
      else { g with queue, now := event.time }⟩ := by
  have aborted : turn program g = .abort event
      (if isDelivery event then { g with queue, now := event.time }.settle event .aborted
        else { g with queue, now := event.time }) := by
    rw [turn, popped]
    simp only [tripped, if_true]
  rw [run, aborted]

/-- A run is dispatched events up to a state where the loop stops. -/
theorem run_stops (program : Program State Value) (g : Inner State Value) :
    ∃ events last, TurnsTo program g events last ∧
      (turn program last = .quiesce ∧ run program g = ⟨events, .quiesced, last⟩ ∨
        ∃ event next, turn program last = .abort event next ∧
          run program g = ⟨events ++ [event], .aborted event, next⟩) := by
  induction g using run.induct program with
  | case1 g turned =>
      refine ⟨[], g, KeyedQueue.Runs.refl g, Or.inl ⟨turned, ?_⟩⟩
      rw [run, turned]
  | case2 g event next turned =>
      refine ⟨[], g, KeyedQueue.Runs.refl g, Or.inr ⟨event, next, turned, ?_⟩⟩
      rw [run, turned]
      rfl
  | case3 g event next turned ih =>
      obtain ⟨events, last, turns, stopped⟩ := ih
      refine ⟨event :: events, last, KeyedQueue.Runs.turn turned turns, ?_⟩
      rw [run, turned]
      dsimp only
      rcases stopped with ⟨quiet, result⟩ | ⟨popped, after, abort, result⟩
      · exact Or.inl ⟨quiet, by rw [result]⟩
      · exact Or.inr ⟨popped, after, abort, by rw [result]; rfl⟩

end Inner

end Detersim
