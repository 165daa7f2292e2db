import Detersim.Reachable

/-!
Another tape and another queue in place of the present ones. Code cannot tell
the difference as long as the tapes answer alike and the queues differ in no
event to come: running it commutes with the exchange.
-/

namespace Detersim

namespace Inner

/-- `covers` holds of the logs up to which the tapes answer alike, and the events
from `floor` on go into both queues. -/
structure Exchange where
  tape : EntropyTape → EntropyTape
  queue : EventQueue → EventQueue
  covers : List UInt64 → Prop
  floor : Nat
  covers_prefix : ∀ {early late}, early <+: late → covers late → covers early
  draw_tape : ∀ {before : EntropyTape} {label}, before.Aligned → covers (before.draw label).2.log →
    (tape before).draw label = ((before.draw label).1, tape (before.draw label).2)
  push_queue : ∀ (before : EventQueue) {event : Keyed}, floor ≤ event.seq →
    queue (before.push event) = (queue before).push event
  retain_queue : ∀ (before : EventQueue) (keep : Keyed → Bool),
    queue (before.retain keep) = (queue before).retain keep
  deliveries : ∀ (before : EventQueue),
    (queue before).entries.filter isDelivery = before.entries.filter isDelivery

variable {State Value Plan : Type}

def Exchange.on (exchange : Exchange) (g : Inner State Value) : Inner State Value :=
  { g with tape := exchange.tape g.tape, queue := exchange.queue g.queue }

/-- The counters and the log of draws only grow. -/
structure Grows (g after : Inner State Value) : Prop where
  seq : g.seq ≤ after.seq
  log : g.tape.log <+: after.tape.log
  aligned : g.tape.Aligned → after.tape.Aligned

theorem Grows.refl (g : Inner State Value) : Grows g g := ⟨le_rfl, List.prefix_refl _, id⟩

theorem Grows.trans {first second third : Inner State Value} (left : Grows first second)
    (right : Grows second third) : Grows first third :=
  ⟨left.seq.trans right.seq, left.log.trans right.log, right.aligned ∘ left.aligned⟩

theorem OpFrame.grows {g after : Inner State Value} (frame : OpFrame g after) : Grows g after :=
  ⟨frame.seq, frame.log, frame.aligned⟩

theorem TapeMoved.grows {g after : Inner State Value} (moved : TapeMoved g after) :
    Grows g after := by
  obtain ⟨tape, recorded, aligned, rfl⟩ := moved
  exact ⟨le_rfl, recorded, aligned⟩

section Growth

variable {rules : Rules State Value} {fills : SlotId → Prop} {outside : Prop}

theorem enqueueAll_grows (tasks : List TaskId) (g : Inner State Value) :
    Grows g (tasks.foldl enqueuePollNow g) := by
  obtain ⟨queue, shape⟩ := enqueueAll_shape tasks g
  rw [shape]
  exact ⟨Nat.le_add_right _ _, List.prefix_refl _, id⟩

theorem change_grows {g after : Inner State Value} (change : Change rules fills outside g after) :
    Grows g after := by
  have still := List.prefix_refl g.tape.log
  cases change with
  | op effect => exact (opEffect_frame effect).grows
  | loop effect =>
      cases effect with
      | drawn tape recorded aligned => exact ⟨le_rfl, recorded, aligned⟩
      | crashed node =>
          unfold crashNode
          split_ifs
          · exact ⟨le_rfl, still, id⟩
          · exact Grows.refl g
      | filled slot join value =>
          have woken := enqueueAll_grows join.joiners
            { g with slots := g.slots.insert slot ⟨true, some value, []⟩ }
          exact ⟨woken.seq, woken.log, woken.aligned⟩
      | scheduled => exact ⟨Nat.le_succ _, still, id⟩
      | faulted | revived | registered | parked | halted | ended => exact ⟨le_rfl, still, id⟩

theorem changes_grows {g after : Inner State Value}
    (changes : Changes rules fills outside g after) : Grows g after := by
  induction changes with
  | refl => exact Grows.refl g
  | tail _ change ih => exact ih.trans (change_grows change)

theorem pop_grows {g after : Inner State Value} {event : Keyed} (effect : PopEffect g event after) :
    Grows g after := by
  have still := List.prefix_refl g.tape.log
  cases effect with
  | dropped _ _ _ _ _ _ _ _ recorded aligned => exact ⟨le_rfl, recorded, aligned⟩
  | delivered queue tape sender receiver msg _ _ recorded aligned =>
      obtain ⟨pushed, shape⟩ := enqueueAll_shape ((g.recvWaiters.get receiver).getD []) _
      rw [shape]
      exact ⟨Nat.le_add_right _ _, recorded, aligned⟩
  | fired => exact ⟨Nat.le_succ _, still, id⟩
  | idle | begun | lost => exact ⟨le_rfl, still, id⟩

theorem turn_grows {program : Program State Value} {g next : Inner State Value} {event : Keyed}
    (turned : turn program g = .next event next) : Grows g next := by
  obtain ⟨mid, popped, changes⟩ := turn_changes program _ _ _ turned
    (fun _ => dispatchMeets_any program _ _)
  exact (pop_grows popped).trans (changes_grows changes)

theorem operate_grows {nextAction : NextAction Plan} (g : Inner State Value)
    (op : WorldOp State Value Plan) : Grows g (g.operate nextAction op).2 := by
  have changes : Changes anyRules (fun _ => True) True g (g.operate nextAction op).2 :=
    operate_changes nextAction g op (operateMeets_any g op)
  exact changes_grows changes

end Growth

/-- The exchange goes unnoticed from the one state to the other. -/
structure Exchange.Fits (exchange : Exchange) (g after : Inner State Value) : Prop where
  aligned : g.tape.Aligned
  floor : exchange.floor ≤ g.seq
  covers : exchange.covers after.tape.log

section Fits

variable {exchange : Exchange} {g mid after : Inner State Value}

theorem Exchange.Fits.first (fits : exchange.Fits g after) (grows : Grows mid after) :
    exchange.Fits g mid :=
  ⟨fits.aligned, fits.floor, exchange.covers_prefix grows.log fits.covers⟩

theorem Exchange.Fits.rest (fits : exchange.Fits g after) (grows : Grows g mid) :
    exchange.Fits mid after :=
  ⟨grows.aligned fits.aligned, fits.floor.trans grows.seq, fits.covers⟩

end Fits

section Calls

variable {exchange : Exchange} {g : Inner State Value}

@[simp] theorem on_inboxes : (exchange.on g).inboxes = g.inboxes := rfl
@[simp] theorem on_recvWaiters : (exchange.on g).recvWaiters = g.recvWaiters := rfl
@[simp] theorem on_slots : (exchange.on g).slots = g.slots := rfl
@[simp] theorem on_storage : (exchange.on g).storage = g.storage := rfl
@[simp] theorem on_factories : (exchange.on g).factories = g.factories := rfl
@[simp] theorem on_tasks : (exchange.on g).tasks = g.tasks := rfl
@[simp] theorem on_crashed : (exchange.on g).crashed = g.crashed := rfl
@[simp] theorem on_faults : (exchange.on g).faults = g.faults := rfl
@[simp] theorem on_currentTask : (exchange.on g).currentTask = g.currentTask := rfl
@[simp] theorem on_futures : (exchange.on g).futures = g.futures := rfl
@[simp] theorem on_timers : (exchange.on g).timers = g.timers := rfl

theorem pushEvent_on (floor : exchange.floor ≤ g.seq) (time : SimTime) (kind : EventKind) :
    (exchange.on g).pushEvent time kind = exchange.on (g.pushEvent time kind) := by
  have pushed := exchange.push_queue g.queue
    (show exchange.floor ≤ (⟨time, g.seq, kind⟩ : Keyed).seq from floor)
  simp only [pushEvent, Exchange.on, pushed]

theorem draw_on {label : TapeLabel} (fits : exchange.Fits g (g.draw label).2) :
    (exchange.on g).draw label = Prod.map id exchange.on (g.draw label) := by
  simp only [draw, Exchange.on, exchange.draw_tape fits.aligned fits.covers]
  rfl

theorem drawNetDelayMs_on (fits : exchange.Fits g g.drawNetDelayMs.2) :
    (exchange.on g).drawNetDelayMs = Prod.map id exchange.on g.drawNetDelayMs := by
  have later : Grows (g.draw .netDelay).2 g.drawNetDelayMs.2 := by
    unfold drawNetDelayMs
    dsimp only
    split_ifs
    · exact Grows.refl _
    all_goals exact (draw_moves _ .extraDelay).grows
  have first := draw_on (fits.first later)
  have rest := fits.rest (draw_moves g .netDelay).grows
  unfold drawNetDelayMs at rest ⊢
  rw [first]
  generalize g.draw .netDelay = drawn at rest ⊢
  obtain ⟨base, mid⟩ := drawn
  by_cases calm : mid.faults.extraDelayMs = 0
  · have same : (exchange.on mid).faults.extraDelayMs = 0 := calm
    simp only [Prod.map, if_pos calm, if_pos same, id]
  · have same : (exchange.on mid).faults.extraDelayMs ≠ 0 := calm
    have second : exchange.Fits mid (mid.draw .extraDelay).2 := by
      simp only [if_neg calm] at rest
      split_ifs at rest <;> exact rest
    simp only [Prod.map_apply, if_neg calm, if_neg same]
    rw [draw_on second, apply_ite (Prod.map id exchange.on), apply_ite (Prod.map id exchange.on)]
    rfl

theorem drawPercent_on {percent : Nat} {label : TapeLabel}
    (fits : exchange.Fits g (g.drawPercent percent label).2) :
    (exchange.on g).drawPercent percent label =
      Prod.map id exchange.on (g.drawPercent percent label) := by
  unfold drawPercent at fits ⊢
  split_ifs at fits ⊢
  · rw [draw_on fits]
    rfl
  · rfl

theorem pushEvent_grows (g : Inner State Value) (time : SimTime) (kind : EventKind) :
    Grows g (g.pushEvent time kind) :=
  ⟨Nat.le_succ _, List.prefix_refl _, id⟩

/-- The end of a send, once it is known whether the medium duplicates. -/
def sendRest (g : Inner State Value) (original : Keyed) (at_ : SimTime) (kind : EventKind)
    (duplicate : Bool) : Reply Value × Inner State Value :=
  if duplicate then
    let (drawn, g) := g.draw .extraDelay
    let extra := 1 + drawn % 10
    let later := at_.saturatingAdd (extra.toNat * nanosPerMilli)
    let copy : Keyed := ⟨later, g.seq, kind⟩
    let g := g.pushEvent later kind
    (.unit, { g with audit.sends := g.audit.sends ++ [(original, some copy)] })
  else (.unit, { g with audit.sends := g.audit.sends ++ [(original, none)] })

/-- And from where its delay is known. -/
def sendAt (g : Inner State Value) (at_ : SimTime) (kind : EventKind) :
    Reply Value × Inner State Value :=
  match (g.pushEvent at_ kind).drawPercent g.faults.duplicatePercent .duplicateDecision with
  | (duplicate, after) => after.sendRest ⟨at_, g.seq, kind⟩ at_ kind duplicate

theorem send_eq (g : Inner State Value) (sender receiver : NodeId) (msg : Message) :
    g.send sender receiver msg =
      if sender ∈ g.crashed then
        (.unit, { g with trace := g.trace ++ [.sendFromCrashed sender receiver] })
      else match g.drawNetDelayMs with
        | (none, g) => (.panicked, g)
        | (some delay, g) => g.sendAt (g.now.saturatingAdd (delay.toNat * nanosPerMilli))
            (.deliverMsg sender receiver msg) := rfl

theorem sendRest_grows (g : Inner State Value) (original : Keyed) (at_ : SimTime)
    (kind : EventKind) (duplicate : Bool) :
    Grows g (g.sendRest original at_ kind duplicate).2 := by
  cases duplicate with
  | false => exact ⟨le_rfl, List.prefix_refl _, id⟩
  | true =>
      have drawn := (draw_moves g .extraDelay).grows
      exact ⟨drawn.seq.trans (Nat.le_succ _), drawn.log, drawn.aligned⟩

theorem sendAt_grows (g : Inner State Value) (at_ : SimTime) (kind : EventKind) :
    Grows g (g.sendAt at_ kind).2 := by
  have drawn := (drawPercent_moves (g.pushEvent at_ kind) g.faults.duplicatePercent
    .duplicateDecision).grows
  exact ((pushEvent_grows g at_ kind).trans drawn).trans (sendRest_grows _ _ _ _ _)

theorem sendRest_on {original : Keyed} {at_ : SimTime} {kind : EventKind} {duplicate : Bool}
    (fits : exchange.Fits g (g.sendRest original at_ kind duplicate).2) :
    (exchange.on g).sendRest original at_ kind duplicate =
      Prod.map id exchange.on (g.sendRest original at_ kind duplicate) := by
  cases duplicate with
  | false => rfl
  | true =>
      have drawn : exchange.Fits g (g.draw .extraDelay).2 :=
        ⟨fits.aligned, fits.floor, fits.covers⟩
      have next := fits.rest (draw_moves g .extraDelay).grows
      unfold sendRest
      rw [if_pos rfl, if_pos rfl, draw_on drawn]
      generalize g.draw .extraDelay = result at next ⊢
      obtain ⟨value, mid⟩ := result
      let later := at_.saturatingAdd ((1 + value % 10).toNat * nanosPerMilli)
      let copy : Keyed := ⟨later, mid.seq, kind⟩
      exact congrArg (fun after : Inner State Value => (Reply.unit, { after with
        audit.sends := after.audit.sends ++ [(original, some copy)] }))
          (pushEvent_on next.floor later kind)

theorem sendAt_on {at_ : SimTime} {kind : EventKind}
    (fits : exchange.Fits g (g.sendAt at_ kind).2) :
    (exchange.on g).sendAt at_ kind = Prod.map id exchange.on (g.sendAt at_ kind) := by
  have pushed := fits.rest (pushEvent_grows g at_ kind)
  have drawn := (drawPercent_moves (g.pushEvent at_ kind) g.faults.duplicatePercent
    .duplicateDecision).grows
  have first := pushed.first (sendRest_grows _ _ _ _ _)
  have rest := pushed.rest drawn
  unfold sendAt
  rw [pushEvent_on fits.floor, on_faults, drawPercent_on first]
  exact sendRest_on rest

theorem send_on {sender receiver : NodeId} {msg : Message}
    (fits : exchange.Fits g (g.send sender receiver msg).2) :
    (exchange.on g).send sender receiver msg =
      Prod.map id exchange.on (g.send sender receiver msg) := by
  rw [send_eq] at fits ⊢
  rw [send_eq, on_crashed]
  by_cases down : sender ∈ g.crashed
  · simp only [if_pos down]
    rfl
  · simp only [if_neg down] at fits ⊢
    have grown := (drawNetDelayMs_moves g).grows
    have delayed := fits.rest grown
    rcases drawn : g.drawNetDelayMs with ⟨_ | delay, mid⟩
    · simp only [drawn] at fits
      rw [drawNetDelayMs_on (by rw [drawn]; exact fits), drawn]
      rfl
    · simp only [drawn] at fits delayed ⊢
      have first := fits.first (sendAt_grows mid _ _)
      rw [drawNetDelayMs_on (by rw [drawn]; exact first), drawn]
      exact sendAt_on delayed

theorem registerTimer_on (floor : exchange.floor ≤ g.seq) (task : TaskId) (deadline : SimTime) :
    (exchange.on g).registerTimer task deadline =
      Prod.map id exchange.on (g.registerTimer task deadline) := by
  have pushed := pushEvent_on (g := { g with
    nextTimerId := g.nextTimerId + 1
    timers := g.timers.insert g.nextTimerId task }) floor deadline (.timerFire g.nextTimerId)
  exact congrArg (Prod.mk g.nextTimerId) pushed

theorem unregisterRecvWaiter_on (node : NodeId) (task : TaskId) :
    (exchange.on g).unregisterRecvWaiter node task =
      exchange.on (g.unregisterRecvWaiter node task) := by
  unfold unregisterRecvWaiter
  rw [on_recvWaiters]
  cases g.recvWaiters.get node <;> rfl

theorem pollSleep_on (floor : exchange.floor ≤ g.seq) (future : FutureId) (held : Held)
    (node : NodeId) (deadline : SimTime) (timer : Option TimerId) :
    (exchange.on g).pollSleep future held node deadline timer =
      Prod.map id exchange.on (g.pollSleep future held node deadline timer) := by
  have clock : (exchange.on g).localNow node = Prod.map id exchange.on (g.localNow node) := rfl
  have floor : exchange.floor ≤ (g.localNow node).2.seq := floor
  unfold pollSleep
  rw [clock]
  generalize g.localNow node = moved at floor ⊢
  obtain ⟨time, mid⟩ := moved
  simp only [Prod.map_apply, on_timers, on_currentTask]
  rw [apply_ite (Prod.map id exchange.on)]
  congr 1
  · cases timer <;> rfl
  · cases timer.filter mid.timers.contains with
    | some old => rfl
    | none =>
        cases mid.currentTask with
        | none => rfl
        | some task =>
            dsimp only
            rw [registerTimer_on floor]
            rfl

theorem pollRecv_on (future : FutureId) (held : Held) (node : NodeId)
    (registeredTask : Option TaskId) :
    (exchange.on g).pollRecv future held node registeredTask =
      Prod.map id exchange.on (g.pollRecv future held node registeredTask) := by
  unfold pollRecv
  rw [on_inboxes, on_currentTask]
  split
  next msg rest _ =>
    cases registeredTask with
    | none => rfl
    | some task =>
        let taken : Inner State Value := { g with
          inboxes := g.inboxes.insert node rest
          audit.taken := g.audit.taken ++ [(node, .received future, msg)] }
        have left : (exchange.on taken).unregisterRecvWaiter node task =
            exchange.on (taken.unregisterRecvWaiter node task) := unregisterRecvWaiter_on node task
        exact congrArg (fun after => (Reply.message msg.1 msg.2, after.forget future)) left
  next => cases g.currentTask <;> rfl

theorem pollJoin_on (future : FutureId) (held : Held) (slot : SlotId) :
    (exchange.on g).pollJoin future held slot =
      Prod.map id exchange.on (g.pollJoin future held slot) := by
  unfold pollJoin
  rw [on_slots, on_currentTask]
  cases g.slots.get slot with
  | none => rfl
  | some join =>
      dsimp only
      rw [apply_ite (Prod.map id exchange.on)]
      congr 1
      · cases join.output <;> rfl
      · cases g.currentTask <;> rfl

theorem enqueuePollNow_on (floor : exchange.floor ≤ g.seq) (task : TaskId) :
    (exchange.on g).enqueuePollNow task = exchange.on (g.enqueuePollNow task) :=
  pushEvent_on floor g.now (.pollTask task)

theorem spawn_on (floor : exchange.floor ≤ g.seq) (node : NodeId) (child : State)
    (moved : List FutureId) :
    (exchange.on g).spawn node child moved =
      Prod.map id exchange.on (g.spawn node child moved) := by
  let opened : Inner State Value := { g with
    nextSlot := g.nextSlot + 1
    slots := g.slots.insert g.nextSlot ⟨false, none, []⟩
    audit.slotHomes := g.audit.slotHomes.insert g.nextSlot node }
  let owned := (opened.addTask node ⟨child, some g.nextSlot⟩).2.give
    (fun id => decide (id ∈ moved)) g.nextTaskId
  have floor : exchange.floor ≤ owned.seq := floor
  exact congrArg (hold · (.join g.nextSlot none)) (enqueuePollNow_on floor g.nextTaskId)

theorem dropLeaf_on (leaf : Leaf) :
    (exchange.on g).dropLeaf leaf = exchange.on (g.dropLeaf leaf) := by
  cases leaf with
  | sleep _ _ timer => cases timer <;> rfl
  | recv node registeredTask =>
      cases registeredTask with
      | none => rfl
      | some task => exact unregisterRecvWaiter_on node task
  | join slot waitingTask =>
      cases waitingTask with
      | none => rfl
      | some task =>
          simp only [dropLeaf, on_slots]
          cases g.slots.get slot <;> rfl

theorem release_on (future : FutureId) :
    (exchange.on g).release future = exchange.on (g.release future) := by
  unfold release
  rw [on_futures]
  cases g.futures.get future with
  | none => rfl
  | some held => exact congrArg (forget · future) (dropLeaf_on held.leaf)

theorem releases_on (futures : List FutureId) (g : Inner State Value) :
    futures.foldl release (exchange.on g) = exchange.on (futures.foldl release g) := by
  induction futures generalizing g with
  | nil => rfl
  | cons future rest ih => rw [List.foldl_cons, release_on, ih, List.foldl_cons]

theorem pollLeaf_on (floor : exchange.floor ≤ g.seq) (future : FutureId) (held : Held) :
    (exchange.on g).pollLeaf future held = Prod.map id exchange.on (g.pollLeaf future held) := by
  unfold pollLeaf
  cases held.leaf with
  | sleep node deadline timer => exact pollSleep_on floor future held node deadline timer
  | recv node registeredTask => exact pollRecv_on future held node registeredTask
  | join slot => exact pollJoin_on future held slot

theorem perform_on {op : Op State} (fits : exchange.Fits g (g.perform op).2) :
    (exchange.on g).perform op = Prod.map id exchange.on (g.perform op) := by
  cases op with
  | send env receiver msg => exact send_on fits
  | spawn env child moved => exact spawn_on fits.floor env child moved
  | readAt env offset len =>
      simp only [perform, on_storage]
      cases g.storage.get env with
      | none => rfl
      | some store =>
          dsimp only
          cases store.readAt offset len <;> rfl
  | poll future =>
      simp only [perform, on_futures, on_currentTask]
      cases g.futures.get future with
      | none => rfl
      | some held =>
          dsimp only
          rw [apply_ite (Prod.map id exchange.on), pollLeaf_on fits.floor]
          rfl
  | drop future =>
      simp only [perform, on_futures, on_currentTask]
      cases g.futures.get future with
      | none => rfl
      | some held =>
          dsimp only
          rw [apply_ite (Prod.map id exchange.on), release_on]
          rfl
  | record | now | rng | writeAt | flush | len | sleepUntil | recv => rfl

theorem perform_frame (g : Inner State Value) (op : Op State) : OpFrame g (g.perform op).2 := by
  have effects : OpEffects anyRules g (g.perform op).2 :=
    perform_effects g op ⟨fun _ _ => trivial, fun _ _ _ _ => trivial⟩
  exact opEffects_frame effects

/-- Running code commutes with the exchange. -/
theorem exec_on {Result : Type} {code : Code State Value Result} {g : Inner State Value}
    (fits : exchange.Fits g (g.exec code).2) :
    (exchange.on g).exec code = Prod.map id exchange.on (g.exec code) := by
  induction code generalizing g with
  | done => rfl
  | call op next ih =>
      -- The logs up to the end of the code cover those up to the end of its first call.
      have first : exchange.Fits g (g.perform op).2 :=
        fits.first (exec_frame (next (g.perform op).1) _).grows
      have rest := fits.rest (perform_frame g op).grows
      rw [exec, perform_on first]
      exact ih _ rest

end Calls

/-! The event loop. -/
section Loop

variable {exchange : Exchange} {g : Inner State Value}

theorem enqueueAll_on (tasks : List TaskId) (floor : exchange.floor ≤ g.seq) :
    tasks.foldl enqueuePollNow (exchange.on g) = exchange.on (tasks.foldl enqueuePollNow g) := by
  induction tasks generalizing g with
  | nil => rfl
  | cons task rest ih =>
      rw [List.foldl_cons, enqueuePollNow_on floor, ih (floor.trans (Nat.le_succ _)),
        List.foldl_cons]

theorem finishTask_on (floor : exchange.floor ≤ g.seq) (task : TaskId) (slot : Option SlotId)
    (value : Value) :
    (exchange.on g).finishTask task slot value = exchange.on (g.finishTask task slot value) := by
  have dropped := (releases_frame (g.ownedBy task) g).seq
  have owned : (exchange.on g).ownedBy task = g.ownedBy task := rfl
  unfold finishTask
  rw [owned, releases_on]
  generalize (g.ownedBy task).foldl release g = mid at dropped ⊢
  cases slot with
  | none => rfl
  | some slot =>
      simp only [on_slots]
      cases mid.slots.get slot with
      | none => rfl
      | some join =>
          have woken := enqueueAll_on join.joiners (g := { mid with
            slots := mid.slots.insert slot ⟨true, some value, []⟩ }) (floor.trans dropped)
          exact congrArg (fun after : Inner State Value =>
            { after with currentTask := none, tasks := after.tasks.remove task }) woken

/-- A crash takes the same deliveries out of both queues. -/
theorem crashNode_on (node : NodeId) :
    (exchange.on g).crashNode node = exchange.on (g.crashNode node) := by
  -- What a crash books as purged are deliveries, and the two queues hold the same ones.
  have purged (live : Keyed → Bool) :
      (exchange.queue g.queue).entries.filter (fun event => isDelivery event && !live event) =
        g.queue.entries.filter fun event => isDelivery event && !live event := by
    have both (events : List Keyed) : events.filter (fun event => isDelivery event && !live event) =
        (events.filter isDelivery).filter fun event => !live event := by
      rw [List.filter_filter]
      congr 1
      funext event
      exact Bool.and_comm _ _
    rw [both, both, exchange.deliveries]
  unfold crashNode
  by_cases known : node ∈ g.nodes
  · have same : node ∈ (exchange.on g).nodes := known
    rw [if_neg (not_not.mpr known), if_neg (not_not.mpr same)]
    simp only [Exchange.on, exchange.retain_queue, purged]
    rfl
  · have same : node ∉ (exchange.on g).nodes := known
    rw [if_pos known, if_pos same]

theorem applyNemesis_on (action : NemesisAction) :
    (exchange.on g).applyNemesis action = exchange.on (g.applyNemesis action) := by
  cases action with
  | crash node =>
      exact crashNode_on (g := { g with nemesisTrace := g.nemesisTrace ++ [.crash node] }) node
  | bitRot node =>
      simp only [applyNemesis, on_storage]
      cases g.storage.get node <;> rfl
  | partition | asymmetricPartition | setLink | healAll | restart | clockSkew | tornWrite
  | lostOnCrash | preFsyncReorder => rfl

theorem spawnRegisteredNode_on {node : NodeId} {factory : NodeFactory State Value}
    (fits : exchange.Fits g (g.spawnRegisteredNode node factory)) :
    (exchange.on g).spawnRegisteredNode node factory =
      exchange.on (g.spawnRegisteredNode node factory) := by
  have made : exchange.Fits g (g.exec (factory node)).2 := ⟨fits.aligned, fits.floor, fits.covers⟩
  have rest := fits.rest (exec_frame (factory node) g).grows
  unfold spawnRegisteredNode
  rw [exec_on made]
  generalize g.exec (factory node) = result at rest ⊢
  obtain ⟨state, mid⟩ := result
  exact enqueuePollNow_on (g := (mid.addTask node ⟨state, none⟩).2.give (fun _ => true)
    mid.nextTaskId) rest.floor mid.nextTaskId

theorem restartNodeOutcome_on {node : NodeId}
    (fits : exchange.Fits g (g.restartNodeOutcome node).2) :
    (exchange.on g).restartNodeOutcome node =
      Prod.map id exchange.on (g.restartNodeOutcome node) := by
  unfold restartNodeOutcome at fits ⊢
  rw [apply_ite (Prod.map id exchange.on)]
  refine if_ctx_congr Iff.rfl (fun _ => rfl) fun known => ?_
  rw [if_neg known] at fits
  rw [apply_ite (Prod.map id exchange.on)]
  refine if_ctx_congr Iff.rfl (fun _ => rfl) fun down => ?_
  rw [if_neg down] at fits
  rw [on_factories]
  cases registered : g.factories.get node with
  | none => rfl
  | some factory =>
      rw [registered] at fits
      have revived : exchange.Fits { g with crashed := g.crashed.erase node }
          ({ g with crashed := g.crashed.erase node }.spawnRegisteredNode node factory) :=
        ⟨fits.aligned, fits.floor, fits.covers⟩
      exact congrArg (Prod.mk (RestartOutcome.restarted node)) (spawnRegisteredNode_on revived)

theorem restartNode_on {node : NodeId} (fits : exchange.Fits g (g.restartNode node)) :
    (exchange.on g).restartNode node = exchange.on (g.restartNode node) := by
  have restarted : exchange.Fits g (g.restartNodeOutcome node).2 :=
    ⟨fits.aligned, fits.floor, fits.covers⟩
  unfold restartNode
  rw [restartNodeOutcome_on restarted]
  rfl

theorem fireTimer_on (floor : exchange.floor ≤ g.seq) (event : Keyed) (timer : TimerId) :
    (exchange.on g).fireTimer event timer = exchange.on (g.fireTimer event timer) := by
  unfold fireTimer
  rw [on_timers]
  cases g.timers.get timer with
  | none => rfl
  | some task =>
      exact enqueuePollNow_on (g := { g with timers := g.timers.remove timer }.countDispatch
        (.dispatched event)) floor task

theorem acceptDelivery_on (floor : exchange.floor ≤ g.seq) (event : Keyed)
    (sender receiver : NodeId) (msg : Message) :
    (exchange.on g).acceptDelivery event sender receiver msg =
      exchange.on (g.acceptDelivery event sender receiver msg) :=
  enqueueAll_on (g := { (g.countDispatch (.dispatched event)).settle event .delivered with
    inboxes := g.inboxes.insert receiver ((g.inboxes.get receiver).getD [] ++ [(sender, msg)])
    recvWaiters := if g.recvWaiters.contains receiver then g.recvWaiters.insert receiver []
      else g.recvWaiters }) _ floor

/-- The end of a delivery, once it is known whether the medium loses it. -/
def deliverRest (g : Inner State Value) (event : Keyed) (sender receiver : NodeId) (msg : Message)
    (lost : Bool) : Inner State Value :=
  if lost then g.dropDelivery event sender receiver .random
  else g.acceptDelivery event sender receiver msg

theorem deliverRest_grows (g : Inner State Value) (event : Keyed) (sender receiver : NodeId)
    (msg : Message) (lost : Bool) : Grows g (g.deliverRest event sender receiver msg lost) := by
  cases lost with
  | true => exact ⟨le_rfl, List.prefix_refl _, id⟩
  | false =>
      have woken := enqueueAll_grows ((g.recvWaiters.get receiver).getD [])
        { (g.countDispatch (.dispatched event)).settle event .delivered with
          inboxes := g.inboxes.insert receiver ((g.inboxes.get receiver).getD [] ++ [(sender, msg)])
          recvWaiters := if g.recvWaiters.contains receiver then g.recvWaiters.insert receiver []
            else g.recvWaiters }
      exact ⟨woken.seq, woken.log, woken.aligned⟩

theorem deliverRest_on (floor : exchange.floor ≤ g.seq) (event : Keyed)
    (sender receiver : NodeId) (msg : Message) (lost : Bool) :
    (exchange.on g).deliverRest event sender receiver msg lost =
      exchange.on (g.deliverRest event sender receiver msg lost) := by
  cases lost with
  | true => rfl
  | false => exact acceptDelivery_on floor event sender receiver msg

theorem deliverMsg_on {event : Keyed} {sender receiver : NodeId} {msg : Message}
    (fits : exchange.Fits g (g.deliverMsg event sender receiver msg)) :
    (exchange.on g).deliverMsg event sender receiver msg =
      exchange.on (g.deliverMsg event sender receiver msg) := by
  unfold deliverMsg at fits ⊢
  rw [apply_ite exchange.on]
  refine if_ctx_congr Iff.rfl (fun _ => rfl) fun known => ?_
  rw [if_neg known] at fits
  rw [apply_ite exchange.on]
  refine if_ctx_congr Iff.rfl (fun _ => rfl) fun up => ?_
  rw [if_neg up] at fits
  rw [apply_ite exchange.on]
  refine if_ctx_congr Iff.rfl (fun _ => rfl) fun connected => ?_
  rw [if_neg connected] at fits
  have drawn := (drawPercent_moves g g.faults.dropPercent .dropDecision).grows
  have first := fits.first (deliverRest_grows _ event sender receiver msg _)
  rw [on_faults, drawPercent_on first]
  exact deliverRest_on (fits.rest drawn).floor event sender receiver msg _

theorem dispatchNemesis_on {event : Keyed} {action : NemesisAction}
    (fits : exchange.Fits g (g.dispatchNemesis event action)) :
    (exchange.on g).dispatchNemesis event action = exchange.on (g.dispatchNemesis event action) := by
  unfold dispatchNemesis at fits ⊢
  dsimp only at fits ⊢
  split
  next node =>
    exact restartNode_on (g := { g.countDispatch (.dispatched event) with
      nemesisTrace := g.nemesisTrace ++ [.restart node] }) ⟨fits.aligned, fits.floor, fits.covers⟩
  next => exact applyNemesis_on (g := g.countDispatch (.dispatched event)) action

theorem finishTask_grows (g : Inner State Value) (task : TaskId) (slot : Option SlotId)
    (value : Value) : Grows g (g.finishTask task slot value) := by
  have dropped := (releases_frame (g.ownedBy task) g).grows
  unfold finishTask
  dsimp only
  generalize (g.ownedBy task).foldl release g = mid at dropped ⊢
  refine dropped.trans ?_
  cases slot with
  | none => exact ⟨le_rfl, List.prefix_refl _, id⟩
  | some slot =>
      dsimp only
      split
      next => exact ⟨le_rfl, List.prefix_refl _, id⟩
      next join _ =>
        have woken := enqueueAll_grows join.joiners
          { mid with slots := mid.slots.insert slot ⟨true, some value, []⟩ }
        exact ⟨woken.seq, woken.log, woken.aligned⟩

/-- The end of a poll. -/
def pollRest (g : Inner State Value) (task : TaskId) (future : TaskFuture State) :
    TaskPoll State Value → Inner State Value
  | .pending state => g.parkTask task { future with state }
  | .ready value => g.finishTask task future.slot value

theorem pollRest_grows (g : Inner State Value) (task : TaskId) (future : TaskFuture State)
    (polled : TaskPoll State Value) : Grows g (g.pollRest task future polled) := by
  cases polled with
  | pending state => exact ⟨le_rfl, List.prefix_refl _, id⟩
  | ready value => exact finishTask_grows g task future.slot value

theorem pollRest_on (floor : exchange.floor ≤ g.seq) (task : TaskId) (future : TaskFuture State)
    (polled : TaskPoll State Value) :
    (exchange.on g).pollRest task future polled =
      exchange.on (g.pollRest task future polled) := by
  cases polled with
  | pending state => rfl
  | ready value => exact finishTask_on floor task future.slot value

theorem pollTask_eq (program : Program State Value) (g : Inner State Value) (event : Keyed)
    (task : TaskId) :
    pollTask program g event task = match g.tasks.get task with
      | none => g
      | some slot => match slot.future with
        | none => g
        | some future =>
            if slot.node ∈ g.crashed then
              { g with tasks := g.tasks.insert task { slot with future := none } }.discard
                fun owner => decide (owner = task)
            else
              let begun := ({ g with tasks := g.tasks.insert task { slot with future := none }
                }.countDispatch (.dispatched event)).beginPoll task
              (begun.exec (program future.state)).2.pollRest task future
                (begun.exec (program future.state)).1 := by
  unfold pollTask
  cases g.tasks.get task with
  | none => rfl
  | some slot =>
      dsimp only
      cases slot.future with
      | none => rfl
      | some future =>
          refine if_ctx_congr Iff.rfl (fun _ => rfl) fun _ => ?_
          generalize exec (program future.state) _ = result
          obtain ⟨_ | _, after⟩ := result <;> rfl

theorem pollTask_on {program : Program State Value} {event : Keyed} {task : TaskId}
    (fits : exchange.Fits g (pollTask program g event task)) :
    pollTask program (exchange.on g) event task = exchange.on (pollTask program g event task) := by
  rw [pollTask_eq] at fits ⊢
  rw [pollTask_eq, on_tasks]
  cases present : g.tasks.get task with
  | none => rfl
  | some slot =>
      rw [present] at fits
      dsimp only at fits ⊢
      cases ready : slot.future with
      | none => rfl
      | some future =>
          rw [ready] at fits
          dsimp only at fits ⊢
          rw [apply_ite exchange.on]
          refine if_ctx_congr Iff.rfl (fun _ => rfl) fun up => ?_
          rw [if_neg up] at fits
          let begun := ({ g with tasks := g.tasks.insert task { slot with future := none }
            }.countDispatch (.dispatched event)).beginPoll task
          have began : exchange.Fits begun
              ((begun.exec (program future.state)).2.pollRest task future
                (begun.exec (program future.state)).1) := ⟨fits.aligned, fits.floor, fits.covers⟩
          have first := began.first (pollRest_grows _ task future _)
          have rest := began.rest (exec_frame (program future.state) begun).grows
          have ran : (exchange.on begun).exec (program future.state) = _ := exec_on first
          change ((exchange.on begun).exec (program future.state)).2.pollRest task future
            ((exchange.on begun).exec (program future.state)).1 = _
          rw [ran]
          exact pollRest_on rest.floor task future _

/-- Dispatching commutes with the exchange. -/
theorem dispatch_on {program : Program State Value} {event : Keyed}
    (fits : exchange.Fits g (dispatch program g event)) :
    dispatch program (exchange.on g) event = exchange.on (dispatch program g event) := by
  unfold dispatch at fits ⊢
  cases kind : event.kind with
  | timerFire timer => exact fireTimer_on fits.floor event timer
  | deliverMsg sender receiver msg =>
      rw [kind] at fits
      exact deliverMsg_on fits
  | nemesis action =>
      rw [kind] at fits
      exact dispatchNemesis_on fits
  | pollTask task =>
      rw [kind] at fits
      exact pollTask_on fits

end Loop

end Inner

end Detersim
