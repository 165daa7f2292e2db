import Detersim.KeyedQueue
import Detersim.Nemesis
import Detersim.PageStore
import Detersim.Program
import Detersim.Tape
import Mathlib.Data.Prod.Lex

/-!
The simulator's state. Fields and functions follow `struct Inner`; what the
source keeps behind other `Rc`s and inside boxed futures (join slots, and the
leaf futures a task holds) is part of the same record, under identities drawn
from counters. `audit` is a history variable: nothing reads it to decide
anything.
-/

namespace Detersim

structure WorldConfig where
  horizonNs : UInt64 := 60000000000
  maxEvents : Nat := 5000000
  deriving DecidableEq

inductive EventKind where
  | pollTask (task : TaskId)
  | timerFire (timer : TimerId)
  | deliverMsg (sender receiver : NodeId) (msg : Message)
  | nemesis (action : NemesisAction)
  deriving DecidableEq

structure Keyed where
  time : UInt64
  seq : Nat
  kind : EventKind
  deriving DecidableEq

/-- `Keyed::cmp`: time first, then insertion order. -/
def Keyed.key (event : Keyed) : Nat ×ₗ Nat := toLex (event.time.toNat, event.seq)

abbrev EventQueue := KeyedQueue Keyed (Nat ×ₗ Nat) Keyed.key

/-- A task's future: its program state, and the join slot the `spawn` wrapper fills. -/
structure TaskFuture (State : Type) where
  state : State
  slot : Option SlotId

/-- `future` is taken out while the task is being polled. -/
structure TaskSlot (State : Type) where
  node : NodeId
  future : Option (TaskFuture State)

structure JoinSlot (Value : Type) where
  done : Bool
  output : Option Value
  joiners : List TaskId

/-- The fields of `SleepFuture`, `RecvFuture` and `SimJoinHandle`. -/
inductive Leaf where
  | sleep (node : NodeId) (deadline : SimTime) (timer : Option TimerId)
  | recv (node : NodeId) (registeredTask : Option TaskId)
  | join (slot : SlotId) (waitingTask : Option TaskId)
  deriving DecidableEq

/-- A future that is alive, and the task that owns it; none for code outside a task. -/
structure Held where
  owner : Option TaskId
  leaf : Leaf
  deriving DecidableEq

structure FaultConfig where
  connectivity : ConnectivityMatrix
  dropPercent : Nat
  duplicatePercent : Nat
  extraDelayMs : UInt64
  clockSkewNs : SortedMap NodeId Int
  bitRotNodes : Finset NodeId
  tornWriteNodes : Finset NodeId
  lostOnCrashNodes : Finset NodeId
  preFsyncReorderNodes : Finset NodeId

def FaultConfig.default : FaultConfig :=
  ⟨.new, 0, 0, 0, .empty, ∅, ∅, ∅, ∅⟩

inductive DropKind where
  | unregistered | crashed | partition | random
  deriving DecidableEq

/-- A line of the event trace before it is rendered. -/
inductive TraceLine where
  | dispatched (event : Keyed)
  | dropped (kind : DropKind) (time : UInt64) (seq : Nat) (sender receiver : NodeId)
  | sendFromCrashed (sender receiver : NodeId)
  deriving DecidableEq

/-- What became of a `DeliverMsg` event that is no longer queued. -/
inductive Fate where
  | delivered
  | dropped (kind : DropKind)
  | purged (node : NodeId)
  | aborted
  deriving DecidableEq

/-- How a message left an inbox. -/
inductive Taking where
  | received (future : FutureId)
  | discarded
  deriving DecidableEq

structure Audit where
  /-- One entry for each accepted send: the event pushed, and the duplicate if there was one. -/
  sends : List (Keyed × Option Keyed)
  finished : List (Keyed × Fate)
  taken : List (NodeId × Taking × NodeId × Message)
  /-- Receives that returned `Pending` in the latest poll of the task owning them. -/
  awaited : Finset FutureId
  /-- The node of every task there ever was, and of the task that fills each slot. -/
  homes : SortedMap TaskId NodeId
  slotHomes : SortedMap SlotId NodeId

structure Inner (State Value : Type) where
  now : SimTime
  seq : Nat
  queue : EventQueue
  tasks : SortedMap TaskId (TaskSlot State)
  nextTaskId : TaskId
  currentTask : Option TaskId
  nodes : Finset NodeId
  factories : SortedMap NodeId (NodeFactory State Value)
  crashed : Finset NodeId
  inboxes : SortedMap NodeId (List (NodeId × Message))
  recvWaiters : SortedMap NodeId (List TaskId)
  timers : SortedMap TimerId TaskId
  nextTimerId : TimerId
  storage : SortedMap NodeId PageStore
  faults : FaultConfig
  tape : EntropyTape
  rngCounter : SortedMap NodeId Nat
  lastLocalNow : SortedMap NodeId SimTime
  config : WorldConfig
  seed : UInt64
  trace : List TraceLine
  nemesisTrace : List NemesisAction
  history : List String
  dispatched : Nat
  slots : SortedMap SlotId (JoinSlot Value)
  nextSlot : SlotId
  futures : SortedMap FutureId Held
  nextFuture : FutureId
  audit : Audit

namespace Inner

variable {State Value : Type}

def fromTape (seed : UInt64) (config : WorldConfig) (tape : EntropyTape) : Inner State Value where
  now := 0
  seq := 0
  queue := .empty
  tasks := .empty
  nextTaskId := 0
  currentTask := none
  nodes := ∅
  factories := .empty
  crashed := ∅
  inboxes := .empty
  recvWaiters := .empty
  timers := .empty
  nextTimerId := 0
  storage := .empty
  faults := .default
  tape
  rngCounter := .empty
  lastLocalNow := .empty
  config
  seed
  trace := []
  nemesisTrace := []
  history := []
  dispatched := 0
  slots := .empty
  nextSlot := 0
  futures := .empty
  nextFuture := 0
  audit := ⟨[], [], [], ∅, .empty, .empty⟩

def pushEvent (g : Inner State Value) (time : SimTime) (kind : EventKind) : Inner State Value :=
  { g with seq := g.seq + 1, queue := g.queue.push ⟨time, g.seq, kind⟩ }

def enqueuePollNow (g : Inner State Value) (task : TaskId) : Inner State Value :=
  g.pushEvent g.now (.pollTask task)

def addTask (g : Inner State Value) (node : NodeId) (future : TaskFuture State) :
    TaskId × Inner State Value :=
  (g.nextTaskId,
    { g with
      nextTaskId := g.nextTaskId + 1
      tasks := g.tasks.insert g.nextTaskId ⟨node, some future⟩
      audit.homes := g.audit.homes.insert g.nextTaskId node })

def draw (g : Inner State Value) (label : TapeLabel) : UInt64 × Inner State Value :=
  ((g.tape.draw label).1, { g with tape := (g.tape.draw label).2 })

/-- None when the addition of the configured bound overflows, which panics. -/
def drawNetDelayMs (g : Inner State Value) : Option UInt64 × Inner State Value :=
  let (drawn, g) := g.draw .netDelay
  let base := 1 + drawn % 100
  if g.faults.extraDelayMs = 0 then (some base, g)
  else
    let (drawn, g) := g.draw .extraDelay
    -- The bound itself is exclusive: `extra_delay_ms + 1`.
    if g.faults.extraDelayMs.toNat = u64Max then (none, g)
    else
      let extra := drawn % (g.faults.extraDelayMs + 1)
      if u64Max < base.toNat + extra.toNat then (none, g) else (some (base + extra), g)

def drawPercent (g : Inner State Value) (percent : Nat) (label : TapeLabel) :
    Bool × Inner State Value :=
  if 0 < percent then
    let (drawn, g) := g.draw label
    (decide (drawn.toNat % 100 < min percent 100), g)
  else (false, g)

def registerRecvWaiter (g : Inner State Value) (node : NodeId) (task : TaskId) :
    Inner State Value :=
  let waiters := (g.recvWaiters.get node).getD []
  { g with
    recvWaiters := g.recvWaiters.insert node
      (if task ∈ waiters then waiters else waiters ++ [task]) }

def unregisterRecvWaiter (g : Inner State Value) (node : NodeId) (task : TaskId) :
    Inner State Value :=
  match g.recvWaiters.get node with
  | none => g
  | some waiters =>
      { g with recvWaiters := g.recvWaiters.insert node (waiters.filter fun t => decide (t ≠ task)) }

def registerTimer (g : Inner State Value) (task : TaskId) (deadline : SimTime) :
    TimerId × Inner State Value :=
  let id := g.nextTimerId
  let g := { g with nextTimerId := id + 1, timers := g.timers.insert id task }
  (id, g.pushEvent deadline (.timerFire id))

def cancelTimer (g : Inner State Value) (timer : TimerId) : Inner State Value :=
  { g with timers := g.timers.remove timer }

def nextSutRng (g : Inner State Value) (node : NodeId) : SplitMix64 × Inner State Value :=
  let n := (g.rngCounter.get node).getD 0
  let word := UInt64.ofNat node
  let mix := (g.seed * (0xD1B54A32D192ED03 : UInt64)) ^^^ (word <<< 32 ||| word >>> 32) ^^^
    (UInt64.ofNat n * (0x2545F4914F6CDD1D : UInt64))
  (⟨mix⟩, { g with rngCounter := g.rngCounter.insert node (n + 1) })

def skewOf (g : Inner State Value) (node : NodeId) : Int := (g.faults.clockSkewNs.get node).getD 0

def localNow (g : Inner State Value) (node : NodeId) : SimTime × Inner State Value :=
  let candidate := clampU64 (g.now.toNat + g.skewOf node)
  let last := (g.lastLocalNow.get node).getD 0
  let last := if last < candidate then candidate else last
  (last, { g with lastLocalNow := g.lastLocalNow.insert node last })

def globalFromLocalDeadline (g : Inner State Value) (node : NodeId) (localTime : SimTime) :
    SimTime :=
  let clamped := clampU64 (localTime.toNat - g.skewOf node)
  if clamped < g.now then g.now else clamped

def worldView (g : Inner State Value) : WorldView :=
  ⟨g.now, g.nodes.sort (· ≤ ·), g.crashed, g.faults.connectivity⟩

/-! Futures: creation, ownership and removal. -/

def hold (g : Inner State Value) (leaf : Leaf) : Reply Value × Inner State Value :=
  (.future g.nextFuture,
    { g with
      nextFuture := g.nextFuture + 1
      futures := g.futures.insert g.nextFuture ⟨g.currentTask, leaf⟩ })

def setLeaf (g : Inner State Value) (id : FutureId) (held : Held) (leaf : Leaf) :
    Inner State Value :=
  { g with futures := g.futures.insert id { held with leaf } }

def forget (g : Inner State Value) (id : FutureId) : Inner State Value :=
  { g with futures := g.futures.remove id }

/-- Moving futures of the running code into a task. -/
def give (g : Inner State Value) (chosen : FutureId → Bool) (task : TaskId) : Inner State Value :=
  { g with
    futures := g.futures.mapValues fun id held =>
      if chosen id = true ∧ held.owner = g.currentTask then { held with owner := some task }
      else held
    audit.awaited := g.audit.awaited.filter fun id =>
      ¬(chosen id = true ∧ ∃ held ∈ g.futures.get id, held.owner = g.currentTask) }

/-- The destructors of the three kinds of future. -/
def dropLeaf (g : Inner State Value) : Leaf → Inner State Value
  | .sleep _ _ none | .recv _ none | .join _ none => g
  | .sleep _ _ (some timer) => g.cancelTimer timer
  | .recv node (some task) => g.unregisterRecvWaiter node task
  | .join slot (some task) =>
      match g.slots.get slot with
      | none => g
      | some join =>
          { g with
            slots := g.slots.insert slot
              { join with joiners := join.joiners.filter fun t => decide (t ≠ task) } }

def release (g : Inner State Value) (id : FutureId) : Inner State Value :=
  match g.futures.get id with
  | none => g
  | some held => (g.dropLeaf held.leaf).forget id

def ownedBy (g : Inner State Value) (task : TaskId) : List FutureId :=
  (g.futures.retain fun _ held => decide (held.owner = some task)).keys

/-- Dropping the futures of tasks while the simulator is borrowed. The destructors
of sleeps and receives then do nothing; a join handle still leaves its slot. -/
def discard (g : Inner State Value) (gone : TaskId → Bool) : Inner State Value :=
  let lost := (g.futures.retain fun _ held => held.owner.any gone).values.map Held.leaf
  { g with
    futures := g.futures.retain fun _ held => !held.owner.any gone
    slots := g.slots.mapValues fun slot join =>
      { join with
        joiners := join.joiners.filter fun task => decide (Leaf.join slot (some task) ∉ lost) } }

/-! Crashes and restarts. -/

def eventIsLiveAfterCrash (kind : EventKind) (crashedNode : NodeId) (removed : TaskId → Bool)
    (timers : SortedMap TimerId TaskId) : Bool :=
  match kind with
  | .pollTask task => !removed task
  | .timerFire timer => timers.contains timer
  | .deliverMsg sender receiver _ =>
      decide (sender ≠ crashedNode) && decide (receiver ≠ crashedNode)
  | .nemesis _ => true

def isDelivery (event : Keyed) : Bool :=
  match event.kind with
  | .deliverMsg .. => true
  | _ => false

def crashNode (g : Inner State Value) (node : NodeId) : Inner State Value :=
  if node ∉ g.nodes then g
  else
    -- The tasks as they are before any of them is removed.
    let removed : TaskId → Bool := fun task =>
      (g.tasks.get task).any fun slot => decide (slot.node = node)
    -- A timer survives when its task does, and then so does its event.
    let timers := g.timers.retain fun _ task => !removed task
    let bitRot := decide (node ∈ g.faults.bitRotNodes)
    let live : Keyed → Bool := fun event => eventIsLiveAfterCrash event.kind node removed timers
    let discarded := ((g.inboxes.get node).getD []).map fun msg => (node, Taking.discarded, msg)
    let purged := g.queue.entries.filter fun event => isDelivery event && !live event
    { g.discard removed with
      crashed := insert node g.crashed
      inboxes := g.inboxes.remove node
      recvWaiters := (g.recvWaiters.remove node).mapValues fun _ waiters =>
        waiters.filter fun task => !removed task
      tasks := g.tasks.retain fun _ slot => decide (slot.node ≠ node)
      timers
      storage :=
        -- Without either fault the unflushed image is left in place.
        if node ∈ g.faults.lostOnCrashNodes ∨ bitRot = true then
          g.storage.insert node (((g.storage.get node).getD .empty).crashRecover bitRot)
        else g.storage
      queue := g.queue.retain live
      audit := { g.audit with
        finished := g.audit.finished ++ purged.map fun event => (event, Fate.purged node)
        taken := g.audit.taken ++ discarded } }

/-- The `RestartOutcome` of a `Restart` is left out: no caller uses it, and the
event loop takes such an action before it gets here. -/
def applyNemesis (g : Inner State Value) (action : NemesisAction) : Inner State Value :=
  let g := { g with nemesisTrace := g.nemesisTrace ++ [action] }
  match action with
  | .partition groups =>
      { g with faults.connectivity := g.faults.connectivity.partition groups }
  | .asymmetricPartition sender receiver =>
      { g with faults.connectivity := g.faults.connectivity.block sender receiver }
  | .setLink sender receiver up =>
      { g with faults.connectivity := g.faults.connectivity.setLink sender receiver up }
  | .healAll => { g with faults.connectivity := g.faults.connectivity.healAll }
  | .crash node => g.crashNode node
  -- Only `restart_precheck` runs here, and it changes nothing.
  | .restart _ => g
  | .clockSkew node offsetNs =>
      { g with faults.clockSkewNs := g.faults.clockSkewNs.insert node offsetNs }
  | .bitRot node =>
      match g.storage.get node with
      | none => g
      | some store => { g with storage := g.storage.insert node (store.crashRecover true) }
  | .tornWrite node =>
      { g with faults.tornWriteNodes := insert node g.faults.tornWriteNodes }
  | .lostOnCrash node =>
      { g with faults.lostOnCrashNodes := insert node g.faults.lostOnCrashNodes }
  | .preFsyncReorder node =>
      { g with faults.preFsyncReorderNodes := insert node g.faults.preFsyncReorderNodes }

end Inner

end Detersim
