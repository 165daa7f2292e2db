import Detersim.SimEnv

/-!
Public operations of a `World`, the event loop, and the run.
-/

namespace Detersim

inductive RestartOutcome where
  | restarted (node : NodeId)
  | nodeMissing (node : NodeId)
  | nodeNotCrashed (node : NodeId)
  | missingFactory (node : NodeId)
  deriving DecidableEq

def formatRestartOutcome : RestartOutcome → String
  | .restarted node => s!"restart:{node}:restarted"
  | .nodeMissing node => s!"restart:{node}:node-missing"
  | .nodeNotCrashed node => s!"restart:{node}:node-not-crashed"
  | .missingFactory node => s!"restart:{node}:missing-factory"

namespace Inner

variable {State Value : Type}

/-- The factory runs outside any task; the futures it makes go into the new task. -/
def spawnRegisteredNode (g : Inner State Value) (node : NodeId)
    (factory : NodeFactory State Value) : Inner State Value :=
  let (state, g) := g.exec (factory node)
  let (task, g) := g.addTask node ⟨state, none⟩
  (g.give (fun _ => true) task).enqueuePollNow task

def restartNodeOutcome (g : Inner State Value) (node : NodeId) :
    RestartOutcome × Inner State Value :=
  if node ∉ g.nodes then (.nodeMissing node, g)
  else if node ∉ g.crashed then (.nodeNotCrashed node, g)
  else match g.factories.get node with
    | none => (.missingFactory node, g)
    | some factory =>
        (.restarted node,
          { g with crashed := g.crashed.erase node }.spawnRegisteredNode node factory)

def restartNode (g : Inner State Value) (node : NodeId) : Inner State Value :=
  let (outcome, g) := g.restartNodeOutcome node
  { g with history := g.history ++ [formatRestartOutcome outcome] }

/-! One popped event. -/

def countDispatch (g : Inner State Value) (line : TraceLine) : Inner State Value :=
  { g with dispatched := g.dispatched + 1, trace := g.trace ++ [line] }

def settle (g : Inner State Value) (event : Keyed) (fate : Fate) : Inner State Value :=
  { g with audit.finished := g.audit.finished ++ [(event, fate)] }

def fireTimer (g : Inner State Value) (event : Keyed) (timer : TimerId) : Inner State Value :=
  match g.timers.get timer with
  -- A cancelled timer's event is not counted and not traced.
  | none => g
  | some task =>
      ({ g with timers := g.timers.remove timer }.countDispatch (.dispatched event)).enqueuePollNow
        task

def dropDelivery (g : Inner State Value) (event : Keyed) (sender receiver : NodeId)
    (kind : DropKind) : Inner State Value :=
  (g.countDispatch (.dropped kind event.time event.seq sender receiver)).settle event (.dropped kind)

/-- The message goes into the inbox, and every waiting task is woken. -/
def acceptDelivery (g : Inner State Value) (event : Keyed) (sender receiver : NodeId)
    (msg : Message) : Inner State Value :=
  let g := (g.countDispatch (.dispatched event)).settle event .delivered
  let inbox := (g.inboxes.get receiver).getD []
  let waiters := (g.recvWaiters.get receiver).getD []
  waiters.foldl enqueuePollNow { g with
    inboxes := g.inboxes.insert receiver (inbox ++ [(sender, msg)])
    recvWaiters := if g.recvWaiters.contains receiver then g.recvWaiters.insert receiver []
      else g.recvWaiters }

def deliverMsg (g : Inner State Value) (event : Keyed) (sender receiver : NodeId)
    (msg : Message) : Inner State Value :=
  if receiver ∉ g.nodes then g.dropDelivery event sender receiver .unregistered
  else if receiver ∈ g.crashed ∨ sender ∈ g.crashed then
    g.dropDelivery event sender receiver .crashed
  else if g.faults.connectivity.isConnected sender receiver = false then
    g.dropDelivery event sender receiver .partition
  else
    let (lost, g) := g.drawPercent g.faults.dropPercent .dropDecision
    -- The draw is made only for a delivery that nothing else stops.
    if lost then g.dropDelivery event sender receiver .random
    else g.acceptDelivery event sender receiver msg

/-- Nemesis events, with the restart the event loop makes itself. -/
def dispatchNemesis (g : Inner State Value) (event : Keyed) (action : NemesisAction) :
    Inner State Value :=
  let g := g.countDispatch (.dispatched event)
  match action with
  | .restart node => { g with nemesisTrace := g.nemesisTrace ++ [action] }.restartNode node
  | action => g.applyNemesis action

/-- The end of a task: its futures are dropped, and the `spawn` wrapper fills the
join slot and wakes the joiners. -/
def finishTask (g : Inner State Value) (task : TaskId) (slot : Option SlotId) (value : Value) :
    Inner State Value :=
  -- The destructors run while the task is still the current one.
  let g := (g.ownedBy task).foldl release g
  let g := match slot with
    | none => g
    | some slot => match g.slots.get slot with
      | none => g
      | some join =>
          join.joiners.foldl enqueuePollNow
            { g with slots := g.slots.insert slot ⟨true, some value, []⟩ }
  { g with currentTask := none, tasks := g.tasks.remove task }

/-- The end of a poll that returned `Pending`. -/
def parkTask (g : Inner State Value) (task : TaskId) (future : TaskFuture State) :
    Inner State Value :=
  { g with
    currentTask := none
    tasks := match g.tasks.get task with
      | none => g.tasks
      | some slot => g.tasks.insert task { slot with future := some future } }

/-- A new poll of the task begins: nothing it holds is awaited yet. -/
def beginPoll (g : Inner State Value) (task : TaskId) : Inner State Value :=
  { g with
    currentTask := some task
    audit.awaited := g.audit.awaited.filter fun id => id ∉ g.ownedBy task }

def pollTask (program : Program State Value) (g : Inner State Value) (event : Keyed)
    (task : TaskId) : Inner State Value :=
  match g.tasks.get task with
  | none => g
  | some slot => match slot.future with
    | none => g
    | some future =>
        let g := { g with tasks := g.tasks.insert task { slot with future := none } }
        -- The future taken out of its slot is dropped here, with the state borrowed.
        if slot.node ∈ g.crashed then g.discard fun owner => decide (owner = task)
        else
          let g := (g.countDispatch (.dispatched event)).beginPoll task
          match g.exec (program future.state) with
          | (.pending state, g) => g.parkTask task { future with state }
          | (.ready value, g) => g.finishTask task future.slot value

def dispatch (program : Program State Value) (g : Inner State Value) (event : Keyed) :
    Inner State Value :=
  match event.kind with
  | .timerFire timer => g.fireTimer event timer
  | .deliverMsg sender receiver msg => g.deliverMsg event sender receiver msg
  | .nemesis action => g.dispatchNemesis event action
  | .pollTask task => pollTask program g event task

/-! The event loop: `pop_until_poll` and the loop of `run` around it, one popped
event at a time. -/

/-- The horizon or the event budget stops the run at the popped event. -/
def trips (g : Inner State Value) (event : Keyed) : Bool :=
  decide (g.config.horizonNs < event.time) || decide (g.config.maxEvents ≤ g.dispatched)

inductive Turn (State Value : Type) where
  | quiesce
  | abort (event : Keyed) (next : Inner State Value)
  | next (event : Keyed) (next : Inner State Value)

def turn (program : Program State Value) (g : Inner State Value) : Turn State Value :=
  match g.queue.pop with
  | none => .quiesce
  | some (event, queue) =>
      let popped := { g with queue, now := event.time }
      -- The event is popped, and the clock is at it, before the loop looks whether to stop.
      if g.trips event then
        .abort event (if isDelivery event then popped.settle event .aborted else popped)
      else .next event (dispatch program popped event)

/-! Public operations. -/

/-- `TapeDraw::draw`: the label a plan gives selects the tape label. -/
def tapeLabelOf (label : String) : TapeLabel :=
  if label = "nemesis.partition" ∨ label = "nemesis.link" then .partition
  else if label = "nemesis.restart" then .restart
  else if label = "nemesis.clock-skew" then .clockSkew
  else .nemesis

def runDraws {Result : Type} : Draws Result → Inner State Value → Result × Inner State Value
  | .done result, g => (result, g)
  | .draw label next, g =>
      let (drawn, g) := g.draw (tapeLabelOf label)
      runDraws (next drawn) g

/-- `schedule_nemesis_plan`: how many actions were scheduled, and the plan afterwards. -/
def scheduleNemesisPlan {Plan : Type} (nextAction : NextAction Plan) :
    Nat → Plan → Inner State Value → (Nat × Plan) × Inner State Value
  | 0, plan, g => ((0, plan), g)
  | maxActions + 1, plan, g =>
      match runDraws (nextAction plan g.worldView) g with
      | ((none, plan), g) => ((0, plan), g)
      | ((some (at_, action), plan), g) =>
          let ((scheduled, plan), g) :=
            scheduleNemesisPlan nextAction maxActions plan (g.pushEvent at_ (.nemesis action))
          ((scheduled + 1, plan), g)

/-- A second registration of a node panics before it changes anything. -/
def addNode (g : Inner State Value) (node : NodeId) (factory : NodeFactory State Value) :
    Inner State Value :=
  if node ∈ g.nodes then g
  else
    { g with
      nodes := insert node g.nodes
      faults.connectivity := g.faults.connectivity.addNode node
      inboxes := g.inboxes.insert node ((g.inboxes.get node).getD [])
      storage := g.storage.insert node ((g.storage.get node).getD .empty)
      factories := g.factories.insert node factory }.spawnRegisteredNode node factory

/-- Code of a test that uses an `env_for` outside any task; what it still holds
at the end is dropped. -/
def useEnv (g : Inner State Value) (code : Code State Value Value) : Value × Inner State Value :=
  let (value, g) := g.exec code
  (value,
    ((g.futures.retain fun _ held => decide (held.owner = none)).keys).foldl release g)

end Inner

/-- The public operations of a `World` that act on it between runs. -/
inductive WorldOp (State Value Plan : Type) where
  | addNode (node : NodeId) (factory : NodeFactory State Value)
  | scheduleNemesis (at_ : SimTime) (action : NemesisAction)
  | scheduleNemesisPlan (plan : Plan) (maxActions : Nat)
  | partition (groups : List (List NodeId))
  | healAll
  | setDropPercent (percent : Nat)
  | setDuplicatePercent (percent : Nat)
  | setExtraDelayMs (maxExtraDelayMs : UInt64)
  | setClockSkew (node : NodeId) (offsetNs : Int)
  | crashNode (node : NodeId)
  | restartNode (node : NodeId)
  | restartNodeOutcome (node : NodeId)
  | useEnv (code : Code State Value Value)

inductive WorldReply (Value Plan : Type) where
  | unit
  | planned (scheduled : Nat) (plan : Plan)
  | outcome (outcome : RestartOutcome)
  | value (value : Value)

namespace Inner

variable {State Value Plan : Type}

def operate (nextAction : NextAction Plan) (g : Inner State Value) :
    WorldOp State Value Plan → WorldReply Value Plan × Inner State Value
  | .addNode node factory => (.unit, g.addNode node factory)
  | .scheduleNemesis at_ action => (.unit, g.pushEvent at_ (.nemesis action))
  | .scheduleNemesisPlan plan maxActions =>
      let ((scheduled, plan), g) := scheduleNemesisPlan nextAction maxActions plan g
      (.planned scheduled plan, g)
  | .partition groups => (.unit, g.applyNemesis (.partition groups))
  | .healAll => (.unit, g.applyNemesis .healAll)
  | .setDropPercent percent => (.unit, { g with faults.dropPercent := min percent 100 })
  | .setDuplicatePercent percent => (.unit, { g with faults.duplicatePercent := min percent 100 })
  | .setExtraDelayMs maxExtraDelayMs => (.unit, { g with faults.extraDelayMs := maxExtraDelayMs })
  | .setClockSkew node offsetNs => (.unit, g.applyNemesis (.clockSkew node offsetNs))
  | .crashNode node => (.unit, g.applyNemesis (.crash node))
  | .restartNode node => (.unit, g.restartNode node)
  | .restartNodeOutcome node =>
      let (outcome, g) := g.restartNodeOutcome node
      (.outcome outcome, g)
  | .useEnv code =>
      let (value, g) := g.useEnv code
      (.value value, g)

end Inner

end Detersim
