import Detersim.Inner

/-!
What each call of a program does to the simulator, and the run of one piece of
program code.
-/

namespace Detersim

namespace Inner

variable {State Value : Type}

/-- `SimNet::send`. -/
def send (g : Inner State Value) (sender receiver : NodeId) (msg : Message) :
    Reply Value × Inner State Value :=
  if sender ∈ g.crashed then
    (.unit, { g with trace := g.trace ++ [.sendFromCrashed sender receiver] })
  else
    match g.drawNetDelayMs with
    | (none, g) => (.panicked, g)
    | (some delay, g) =>
        let at_ := g.now.saturatingAdd (delay.toNat * nanosPerMilli)
        let kind := EventKind.deliverMsg sender receiver msg
        let original : Keyed := ⟨at_, g.seq, kind⟩
        let g := g.pushEvent at_ kind
        let (duplicate, g) := g.drawPercent g.faults.duplicatePercent .duplicateDecision
        if duplicate then
          let (drawn, g) := g.draw .extraDelay
          let extra := 1 + drawn % 10
          -- The duplicate never overtakes the original.
          let later := at_.saturatingAdd (extra.toNat * nanosPerMilli)
          let copy : Keyed := ⟨later, g.seq, kind⟩
          let g := g.pushEvent later kind
          (.unit, { g with audit.sends := g.audit.sends ++ [(original, some copy)] })
        else (.unit, { g with audit.sends := g.audit.sends ++ [(original, none)] })

/-- `SleepFuture::poll`. -/
def pollSleep (g : Inner State Value) (id : FutureId) (held : Held) (node : NodeId)
    (deadline : SimTime) (timer : Option TimerId) : Reply Value × Inner State Value :=
  let (localTime, g) := g.localNow node
  if deadline ≤ localTime then
    let g := match timer with
      | none => g
      | some timer => g.cancelTimer timer
    (.ready, g.forget id)
  else
    -- A timer that fired early, under a skewed clock, is armed again.
    match timer.filter g.timers.contains with
    | some _ => (.pending, g)
    | none => match g.currentTask with
      | none => (.panicked, g.setLeaf id held (.sleep node deadline none))
      | some task =>
          let (armed, g) := g.registerTimer task (g.globalFromLocalDeadline node deadline)
          (.pending, g.setLeaf id held (.sleep node deadline (some armed)))

/-- `RecvFuture::poll`. -/
def pollRecv (g : Inner State Value) (id : FutureId) (held : Held) (node : NodeId)
    (registeredTask : Option TaskId) : Reply Value × Inner State Value :=
  match g.inboxes.get node with
  | some (msg :: rest) =>
      let g := { g with
        inboxes := g.inboxes.insert node rest
        audit.taken := g.audit.taken ++ [(node, Taking.received id, msg)] }
      -- The list holds a task once, also when other receives of it still wait.
      let g := match registeredTask with
        | none => g
        | some task => g.unregisterRecvWaiter node task
      (.message msg.1 msg.2, g.forget id)
  | _ => match g.currentTask with
    | none => (.panicked, g)
    | some task =>
        let g := (g.registerRecvWaiter node task).setLeaf id held (.recv node (some task))
        (.pending, { g with audit.awaited := insert id g.audit.awaited })

/-- `SimJoinHandle::poll`. -/
def pollJoin (g : Inner State Value) (id : FutureId) (held : Held) (slot : SlotId) :
    Reply Value × Inner State Value :=
  match g.slots.get slot with
  | none => (.panicked, g)
  | some join =>
      if join.done then
        match join.output with
        -- The output was taken already.
        | none => (.panicked, g.setLeaf id held (.join slot none))
        | some value =>
            let g := { g with slots := g.slots.insert slot { join with output := none } }
            (.joined value, g.forget id)
      else match g.currentTask with
        | none => (.panicked, g)
        | some task =>
            let joiners := if task ∈ join.joiners then join.joiners else join.joiners ++ [task]
            let g := { g with slots := g.slots.insert slot { join with joiners } }
            (.pending, g.setLeaf id held (.join slot (some task)))

def pollLeaf (g : Inner State Value) (id : FutureId) (held : Held) :
    Reply Value × Inner State Value :=
  match held.leaf with
  | .sleep node deadline timer => g.pollSleep id held node deadline timer
  | .recv node registeredTask => g.pollRecv id held node registeredTask
  | .join slot _ => g.pollJoin id held slot

/-- `SimEnv::spawn`. -/
def spawn (g : Inner State Value) (node : NodeId) (child : State) (moved : List FutureId) :
    Reply Value × Inner State Value :=
  let slot := g.nextSlot
  let g := { g with
    nextSlot := slot + 1
    slots := g.slots.insert slot ⟨false, none, []⟩
    audit.slotHomes := g.audit.slotHomes.insert slot node }
  let (task, g) := g.addTask node ⟨child, some slot⟩
  let g := g.give (fun id => decide (id ∈ moved)) task
  let g := g.enqueuePollNow task
  g.hold (.join slot none)

def perform (g : Inner State Value) : Op State → Reply Value × Inner State Value
  | .record _ event => (.unit, { g with history := g.history ++ [event] })
  | .now env =>
      let (time, g) := g.localNow env
      (.time time, g)
  | .rng env =>
      let (rng, g) := g.nextSutRng env
      (.rng rng, g)
  | .send env receiver msg => g.send env receiver msg
  | .writeAt env offset data =>
      let store := ((g.storage.get env).getD .empty).writeAt offset data
        (decide (env ∈ g.faults.tornWriteNodes))
      (.unit, { g with storage := g.storage.insert env store })
  | .readAt env offset len => match g.storage.get env with
    | none => (.bytes [], g)
    | some store => match store.readAt offset len with
      | none => (.panicked, g)
      | some bytes => (.bytes bytes, g)
  | .flush env =>
      let store := ((g.storage.get env).getD .empty).flush
        (decide (env ∈ g.faults.preFsyncReorderNodes))
      (.unit, { g with storage := g.storage.insert env store })
  | .len env => (.len (((g.storage.get env).map PageStore.len).getD 0), g)
  | .sleepUntil env deadline => g.hold (.sleep env deadline none)
  | .recv env => g.hold (.recv env none)
  | .spawn env child moved => g.spawn env child moved
  -- A future that is gone or belongs to another task cannot be named in Rust.
  | .poll id => match g.futures.get id with
    | none => (.panicked, g)
    | some held => if held.owner = g.currentTask then g.pollLeaf id held else (.panicked, g)
  | .drop id => match g.futures.get id with
    | none => (.panicked, g)
    | some held => if held.owner = g.currentTask then (.unit, g.release id) else (.panicked, g)

def exec {Result : Type} : Code State Value Result → Inner State Value →
    Result × Inner State Value
  | .done result, g => (result, g)
  | .call op next, g => exec (next (g.perform op).1) (g.perform op).2

end Inner

/-! `sleep` and `timeout` are written with the calls above. Both are lazy: nothing
happens before the first poll, which is where they start here. -/

namespace Code

variable {State Value Result : Type}

/-- `Clock::sleep`: the deadline is fixed at the first poll. -/
def sleep (env : NodeId) (nanos : Nat) (next : Reply Value → Code State Value Result) :
    Code State Value Result :=
  .call (.now env) fun
    | .time now => .call (.sleepUntil env (now.saturatingAdd nanos)) next
    | other => next other

/-- One poll of `ClockExt::timeout`: the guarded future first, then the timer. -/
def pollTimeout (guarded timer : FutureId)
    (next : Option (Reply Value) → Code State Value Result) : Code State Value Result :=
  .call (.poll guarded) fun
    | .pending => .call (.poll timer) fun
      | .ready => .call (.drop guarded) fun _ => next none
      | _ => next (some .pending)
    | out => .call (.drop timer) fun _ => next (some out)

end Code

end Detersim
