import Detersim.World
import Mathlib.Logic.Relation

/-!
What program code can do to the simulator, said once. Every call is a chain of
the updates listed here, and an invariant of program code is proved by looking
at each of them, under the rules the code keeps to.
-/

namespace Detersim

/-- A future as the call that made it returns it. -/
def Leaf.Unpolled (scope : NodeId → Prop) (slotHomes : SortedMap SlotId NodeId) : Leaf → Prop
  | .sleep node _ timer => scope node ∧ timer = none
  | .recv node registeredTask => scope node ∧ registeredTask = none
  | .join slot waitingTask =>
      (∃ node, scope node ∧ slotHomes.get slot = some node) ∧ waitingTask = none

/-- The node whose `SimEnv` a call goes through. -/
def Op.env {State : Type} : Op State → Option NodeId
  | .record env _ | .now env | .rng env | .send env _ _ | .writeAt env _ _ | .readAt env _ _
  | .flush env | .len env | .sleepUntil env _ | .recv env | .spawn env _ _ => some env
  | .poll _ | .drop _ => none

def Op.InScope {State : Type} (scope : NodeId → Prop) (op : Op State) : Prop :=
  ∀ env, op.env = some env → scope env

namespace Inner

/-- What an invariant may ask of the code. `scope` holds of the nodes whose
`SimEnv` it uses, which may depend on what is crashed. `may` is asked when a task
is taken off a receive list because one of its receives completed or was
dropped, and `crashes` before a node is crashed. -/
structure Rules (State Value : Type) where
  scope : Finset NodeId → NodeId → Prop
  may : Inner State Value → NodeId → TaskId → Prop
  crashes : Inner State Value → NodeId → Prop

variable {State Value : Type}

/-- A receive takes the first message of the inbox and is gone. -/
def completeRecv (g : Inner State Value) (id : FutureId) (node : NodeId)
    (msg : NodeId × Message) (rest : List (NodeId × Message)) : Inner State Value :=
  { g.forget id with
    inboxes := g.inboxes.insert node rest
    audit.taken := g.audit.taken ++ [(node, Taking.received id, msg)] }

inductive OpEffect (rules : Rules State Value) (g : Inner State Value) :
    Inner State Value → Prop where
  | quiet (history trace lastLocalNow rngCounter storage tape)
      (noted : trace = g.trace ∨ ∃ sender receiver,
        trace = g.trace ++ [.sendFromCrashed sender receiver])
      (recorded : g.tape.log <+: tape.log) (aligned : g.tape.Aligned → tape.Aligned) :
      OpEffect rules g { g with history, trace, lastLocalNow, rngCounter, storage, tape }
  | sent (sender receiver msg) (time : SimTime) (inScope : rules.scope g.crashed sender)
      (running : sender ∉ g.crashed) (later : g.now.toNat ≤ time.toNat) :
      OpEffect rules g { g with
        seq := g.seq + 1
        queue := g.queue.push ⟨time, g.seq, .deliverMsg sender receiver msg⟩
        audit.sends := g.audit.sends ++
          [(⟨time, g.seq, .deliverMsg sender receiver msg⟩, none)] }
  | sentTwice (sender receiver msg) (time again : SimTime) (inScope : rules.scope g.crashed sender)
      (running : sender ∉ g.crashed) (later : g.now.toNat ≤ time.toNat)
      (evenLater : g.now.toNat ≤ again.toNat) :
      OpEffect rules g { g with
        seq := g.seq + 2
        queue := (g.queue.push ⟨time, g.seq, .deliverMsg sender receiver msg⟩).push
          ⟨again, g.seq + 1, .deliverMsg sender receiver msg⟩
        audit.sends := g.audit.sends ++
          [(⟨time, g.seq, .deliverMsg sender receiver msg⟩,
            some ⟨again, g.seq + 1, .deliverMsg sender receiver msg⟩)] }
  | held (leaf : Leaf) (unpolled : Leaf.Unpolled (rules.scope g.crashed) g.audit.slotHomes leaf) :
      OpEffect rules g { g with
        nextFuture := g.nextFuture + 1
        futures := g.futures.insert g.nextFuture ⟨g.currentTask, leaf⟩ }
  | opened (node : NodeId) (inScope : rules.scope g.crashed node) :
      OpEffect rules g { g with
        nextSlot := g.nextSlot + 1
        slots := g.slots.insert g.nextSlot ⟨false, none, []⟩
        audit.slotHomes := g.audit.slotHomes.insert g.nextSlot node }
  | started (node : NodeId) (future : TaskFuture State) (inScope : rules.scope g.crashed node)
      (linked : ∀ slot, future.slot = some slot → g.slots.get slot = some ⟨false, none, []⟩ ∧
        g.audit.slotHomes.get slot = some node) :
      OpEffect rules g ((g.addTask node future).2.enqueuePollNow g.nextTaskId)
  | gave (chosen : FutureId → Bool) (task : TaskId) (young : task + 1 = g.nextTaskId)
      (slot : TaskSlot State) (live : g.tasks.get task = some slot) (ready : slot.future ≠ none)
      (inScope : rules.scope g.crashed slot.node) :
      OpEffect rules g (g.give chosen task)
  | armed (id held node deadline timer task) (time : SimTime)
      (present : g.futures.get id = some held) (leaf : held.leaf = .sleep node deadline timer)
      (unarmed : ∀ old, timer = some old → g.timers.get old = none)
      (owner : held.owner = g.currentTask) (running : g.currentTask = some task)
      (later : g.now.toNat ≤ time.toNat) :
      OpEffect rules g
        ((g.registerTimer task time).2.setLeaf id held (.sleep node deadline (some g.nextTimerId)))
  | unarmed (id held node deadline timer)
      (present : g.futures.get id = some held) (leaf : held.leaf = .sleep node deadline timer) :
      OpEffect rules g (g.setLeaf id held (.sleep node deadline none))
  | cancelled (timer : TimerId) : OpEffect rules g (g.cancelTimer timer)
  | forgot (id : FutureId) : OpEffect rules g (g.forget id)
  | waited (id held node registeredTask task)
      (present : g.futures.get id = some held) (leaf : held.leaf = .recv node registeredTask)
      (owner : held.owner = g.currentTask) (running : g.currentTask = some task) :
      OpEffect rules g
        { (g.registerRecvWaiter node task).setLeaf id held (.recv node (some task)) with
          audit.awaited := insert id g.audit.awaited }
  | received (id held node registeredTask msg rest)
      (present : g.futures.get id = some held) (leaf : held.leaf = .recv node registeredTask)
      (arrived : g.inboxes.get node = some (msg :: rest)) :
      OpEffect rules g (g.completeRecv id node msg rest)
  | unregistered (node task) (allowed : rules.may g node task) :
      OpEffect rules g (g.unregisterRecvWaiter node task)
  | joining (slot join changed) (present : g.slots.get slot = some join)
      (joiners : ∀ task ∈ changed.joiners, task ∈ join.joiners ∨ g.currentTask = some task ∧
        ∃ id held waitingTask, g.futures.get id = some held ∧ held.owner = some task ∧
          held.leaf = .join slot waitingTask) :
      OpEffect rules g { g with slots := g.slots.insert slot changed }
  | handled (id held slot waitingTask waiting)
      (present : g.futures.get id = some held) (leaf : held.leaf = .join slot waitingTask) :
      OpEffect rules g (g.setLeaf id held (.join slot waiting))

abbrev OpEffects (rules : Rules State Value) : Inner State Value → Inner State Value → Prop :=
  Relation.ReflTransGen (OpEffect rules)

variable {rules : Rules State Value}

/-! Draws only move the tape. -/

def TapeMoved (g after : Inner State Value) : Prop :=
  ∃ tape, g.tape.log <+: tape.log ∧ (g.tape.Aligned → tape.Aligned) ∧ after = { g with tape }

theorem draw_moves (g : Inner State Value) (label : TapeLabel) : TapeMoved g (g.draw label).2 :=
  ⟨(g.tape.draw label).2, by simp, fun aligned => EntropyTape.aligned_draw aligned label, rfl⟩

theorem TapeMoved.refl (g : Inner State Value) : TapeMoved g g :=
  ⟨g.tape, List.prefix_refl _, id, rfl⟩

theorem TapeMoved.trans {first second third : Inner State Value} (left : TapeMoved first second)
    (right : TapeMoved second third) : TapeMoved first third := by
  obtain ⟨tape, recorded, aligned, rfl⟩ := left
  obtain ⟨tape', recorded', aligned', rfl⟩ := right
  exact ⟨tape', recorded.trans recorded', aligned' ∘ aligned, rfl⟩

theorem drawNetDelayMs_moves (g : Inner State Value) : TapeMoved g g.drawNetDelayMs.2 := by
  have first := draw_moves g .netDelay
  have second := first.trans (draw_moves (g.draw .netDelay).2 .extraDelay)
  unfold drawNetDelayMs
  dsimp only
  split_ifs
  · exact first
  · exact second
  · exact second
  · exact second

theorem drawPercent_moves (g : Inner State Value) (percent : Nat) (label : TapeLabel) :
    TapeMoved g (g.drawPercent percent label).2 := by
  unfold drawPercent
  split_ifs
  · exact draw_moves g label
  · exact TapeMoved.refl g

theorem TapeMoved.effects {g after : Inner State Value} (moved : TapeMoved g after) :
    OpEffects rules g after := by
  obtain ⟨tape, recorded, aligned, rfl⟩ := moved
  exact Relation.ReflTransGen.single
    (OpEffect.quiet g.history g.trace g.lastLocalNow g.rngCounter g.storage tape (Or.inl rfl)
      recorded aligned)

/-- Everything about a send from a running node: the messages it queues and when. -/
theorem send_cases (g : Inner State Value) (sender receiver : NodeId) (msg : Message)
    (running : sender ∉ g.crashed) :
    ∃ moved, TapeMoved g moved ∧ (g.send sender receiver msg = (.panicked, moved) ∨
      (∃ time : SimTime, g.now.toNat ≤ time.toNat ∧ g.send sender receiver msg = (.unit, { moved with
        seq := g.seq + 1
        queue := g.queue.push ⟨time, g.seq, .deliverMsg sender receiver msg⟩
        audit.sends := g.audit.sends ++
          [(⟨time, g.seq, .deliverMsg sender receiver msg⟩, none)] })) ∨
      ∃ time again : SimTime, g.now.toNat ≤ time.toNat ∧ g.now.toNat ≤ again.toNat ∧
        g.send sender receiver msg = (.unit, { moved with
          seq := g.seq + 2
          queue := (g.queue.push ⟨time, g.seq, .deliverMsg sender receiver msg⟩).push
            ⟨again, g.seq + 1, .deliverMsg sender receiver msg⟩
          audit.sends := g.audit.sends ++
            [(⟨time, g.seq, .deliverMsg sender receiver msg⟩,
              some ⟨again, g.seq + 1, .deliverMsg sender receiver msg⟩)] })) := by
  have first := drawNetDelayMs_moves g
  unfold send
  rw [if_neg running]
  generalize g.drawNetDelayMs = drawn at first ⊢
  obtain ⟨_ | delay, mid⟩ := drawn
  · exact ⟨mid, first, Or.inl rfl⟩
  obtain ⟨tape, recorded, aligned, shape⟩ := first
  dsimp only at shape
  subst shape
  dsimp only
  have time := SimTime.le_saturatingAdd g.now (delay.toNat * nanosPerMilli)
  generalize g.now.saturatingAdd (delay.toNat * nanosPerMilli) = at_ at time
  generalize same : { g with tape }.pushEvent at_ (.deliverMsg sender receiver msg) = pushed
  have second := drawPercent_moves pushed pushed.faults.duplicatePercent .duplicateDecision
  generalize pushed.drawPercent pushed.faults.duplicatePercent .duplicateDecision = drawn
    at second ⊢
  subst same
  obtain ⟨_ | _, mid⟩ := drawn
  · obtain ⟨tape', recorded', aligned', shape⟩ := second
    dsimp only at shape
    subst shape
    exact ⟨{ g with tape := tape' }, ⟨tape', recorded.trans recorded', aligned' ∘ aligned, rfl⟩,
      Or.inr (Or.inl ⟨at_, time, rfl⟩)⟩
  · have third := second.trans (draw_moves mid .extraDelay)
    obtain ⟨tape', recorded', aligned', shape⟩ := third
    have again := SimTime.le_saturatingAdd at_
      ((1 + (mid.draw .extraDelay).1 % 10).toNat * nanosPerMilli)
    refine ⟨{ g with tape := tape' }, ⟨tape', recorded.trans recorded', aligned' ∘ aligned, rfl⟩,
      Or.inr (Or.inr ⟨at_, _, time, time.trans again, ?_⟩)⟩
    dsimp only at shape ⊢
    rw [if_pos rfl, shape]
    rfl

theorem send_effects (g : Inner State Value) (sender receiver : NodeId) (msg : Message)
    (inScope : rules.scope g.crashed sender) : OpEffects rules g (g.send sender receiver msg).2 := by
  by_cases running : sender ∈ g.crashed
  · rw [send, if_pos running]
    exact Relation.ReflTransGen.single (OpEffect.quiet g.history
      (g.trace ++ [.sendFromCrashed sender receiver]) g.lastLocalNow g.rngCounter g.storage g.tape
      (Or.inr ⟨sender, receiver, rfl⟩) (List.prefix_refl _) id)
  · obtain ⟨moved, move, sent | ⟨time, later, sent⟩ | ⟨time, again, later, evenLater, sent⟩⟩ :=
      send_cases g sender receiver msg running
    · rw [sent]
      exact move.effects
    · have drawn : OpEffects rules g moved := move.effects
      obtain ⟨tape, _, _, rfl⟩ := move
      rw [sent]
      exact drawn.tail (OpEffect.sent sender receiver msg time inScope running later)
    · have drawn : OpEffects rules g moved := move.effects
      obtain ⟨tape, _, _, rfl⟩ := move
      rw [sent]
      exact drawn.tail
        (OpEffect.sentTwice sender receiver msg time again inScope running later evenLater)

theorem forget_dropLeaf (g : Inner State Value) (id : FutureId) (leaf : Leaf) :
    (g.dropLeaf leaf).forget id = (g.forget id).dropLeaf leaf := by
  cases leaf with
  | sleep _ _ timer => cases timer <;> rfl
  | recv node registeredTask =>
      cases registeredTask with
      | none => rfl
      | some task =>
          simp only [dropLeaf, unregisterRecvWaiter, forget]
          cases g.recvWaiters.get node <;> rfl
  | join slot waitingTask =>
      cases waitingTask with
      | none => rfl
      | some task =>
          simp only [dropLeaf, forget]
          cases g.slots.get slot <;> rfl

theorem dropLeaf_effects (g : Inner State Value) (leaf : Leaf)
    (allowed : ∀ node task, leaf = .recv node (some task) → rules.may g node task) :
    OpEffects rules g (g.dropLeaf leaf) := by
  cases leaf with
  | sleep _ _ timer =>
      cases timer with
      | none => exact Relation.ReflTransGen.refl
      | some timer => exact Relation.ReflTransGen.single (OpEffect.cancelled timer)
  | recv node registeredTask =>
      cases registeredTask with
      | none => exact Relation.ReflTransGen.refl
      | some task =>
          exact Relation.ReflTransGen.single
            (OpEffect.unregistered node task (allowed node task rfl))
  | join slot waitingTask =>
      cases waitingTask with
      | none => exact Relation.ReflTransGen.refl
      | some task =>
          simp only [dropLeaf]
          cases present : g.slots.get slot with
          | none => exact Relation.ReflTransGen.refl
          | some join =>
              refine Relation.ReflTransGen.single (OpEffect.joining slot join _ present ?_)
              intro other member
              exact Or.inl (List.mem_filter.mp member).1

theorem release_effects (g : Inner State Value) (id : FutureId)
    (allowed : ∀ held node task, g.futures.get id = some held →
      held.leaf = .recv node (some task) → rules.may (g.forget id) node task) :
    OpEffects rules g (g.release id) := by
  unfold release
  cases present : g.futures.get id with
  | none => exact Relation.ReflTransGen.refl
  | some held =>
      dsimp only
      rw [forget_dropLeaf]
      exact (Relation.ReflTransGen.single (OpEffect.forgot id)).trans
        (dropLeaf_effects (g.forget id) held.leaf fun node task leaf =>
          allowed held node task present leaf)

theorem localNow_effects (g : Inner State Value) (node : NodeId) :
    OpEffects rules g (g.localNow node).2 :=
  Relation.ReflTransGen.single (OpEffect.quiet g.history g.trace
    (g.localNow node).2.lastLocalNow g.rngCounter g.storage g.tape (Or.inl rfl)
    (List.prefix_refl _) id)

theorem now_le_globalFromLocalDeadline (g : Inner State Value) (node : NodeId)
    (localTime : SimTime) : g.now.toNat ≤ (g.globalFromLocalDeadline node localTime).toNat := by
  unfold globalFromLocalDeadline
  dsimp only
  split_ifs with early
  · exact le_rfl
  · exact UInt64.le_iff_toNat_le.mp (UInt64.not_lt.mp early)

theorem pollSleep_effects (g : Inner State Value) (id : FutureId) (held : Held) (node : NodeId)
    (deadline : SimTime) (timer : Option TimerId) (present : g.futures.get id = some held)
    (leaf : held.leaf = .sleep node deadline timer) (owner : held.owner = g.currentTask) :
    OpEffects rules g (g.pollSleep id held node deadline timer).2 := by
  have clock : OpEffects rules g (g.localNow node).2 := localNow_effects g node
  unfold pollSleep
  dsimp only
  split_ifs
  · cases timer with
    | none => exact clock.tail (OpEffect.forgot id)
    | some timer => exact (clock.tail (OpEffect.cancelled timer)).tail (OpEffect.forgot id)
  · cases kept : timer.filter (g.localNow node).2.timers.contains with
    | some old => exact clock
    | none =>
        have unarmed : ∀ old, timer = some old → (g.localNow node).2.timers.get old = none := by
          rintro old rfl
          simpa [Option.filter, SortedMap.contains, Option.isSome_iff_ne_none] using kept
        cases running : (g.localNow node).2.currentTask with
        | none => exact clock.tail (OpEffect.unarmed id held node deadline timer present leaf)
        | some task =>
            exact clock.tail (OpEffect.armed id held node deadline timer task _ present leaf
              unarmed owner running (now_le_globalFromLocalDeadline _ node deadline))

theorem pollRecv_effects (g : Inner State Value) (id : FutureId) (held : Held) (node : NodeId)
    (registeredTask : Option TaskId) (present : g.futures.get id = some held)
    (leaf : held.leaf = .recv node registeredTask) (owner : held.owner = g.currentTask)
    (allowed : ∀ task msg rest, registeredTask = some task →
      g.inboxes.get node = some (msg :: rest) →
        rules.may (g.completeRecv id node msg rest) node task) :
    OpEffects rules g (g.pollRecv id held node registeredTask).2 := by
  unfold pollRecv
  split
  next msg rest arrived =>
    have done : OpEffects rules g (g.completeRecv id node msg rest) :=
      Relation.ReflTransGen.single
        (OpEffect.received id held node registeredTask msg rest present leaf arrived)
    cases registeredTask with
    | none => exact done
    | some task =>
        -- The source takes the task off the list first; the two updates commute.
        have off := done.tail (OpEffect.unregistered node task (allowed task msg rest rfl arrived))
        cases waiters : g.recvWaiters.get node <;>
          simpa only [unregisterRecvWaiter, completeRecv, forget, waiters] using off
  next =>
    cases running : g.currentTask with
    | none => exact Relation.ReflTransGen.refl
    | some task =>
        exact Relation.ReflTransGen.single
          (OpEffect.waited id held node registeredTask task present leaf owner running)

theorem pollJoin_effects (g : Inner State Value) (id : FutureId) (held : Held) (slot : SlotId)
    (waitingTask : Option TaskId) (present : g.futures.get id = some held)
    (leaf : held.leaf = .join slot waitingTask) (owner : held.owner = g.currentTask) :
    OpEffects rules g (g.pollJoin id held slot).2 := by
  unfold pollJoin
  cases opened : g.slots.get slot with
  | none => exact Relation.ReflTransGen.refl
  | some join =>
      dsimp only
      split_ifs
      · cases join.output with
        | none =>
            exact Relation.ReflTransGen.single
              (OpEffect.handled id held slot waitingTask none present leaf)
        | some value =>
            refine (Relation.ReflTransGen.single
              (OpEffect.joining slot join { join with output := none } opened ?_)).tail
                (OpEffect.forgot id)
            exact fun task member => Or.inl member
      · split
        next => exact Relation.ReflTransGen.refl
        next task running =>
          refine (Relation.ReflTransGen.single (OpEffect.joining slot join _ opened ?_)).tail
            (OpEffect.handled id held slot waitingTask (some task) present leaf)
          intro other member
          dsimp only at member
          split_ifs at member
          · exact Or.inl member
          · -- The one joiner added is the running task, which owns the handle polled.
            rcases List.mem_append.mp member with old | new
            · exact Or.inl old
            · cases List.mem_singleton.mp new
              exact Or.inr ⟨running, id, held, waitingTask, present, owner.trans running, leaf⟩

theorem spawn_effects (g : Inner State Value) (node : NodeId) (child : State)
    (moved : List FutureId) (inScope : rules.scope g.crashed node) :
    OpEffects rules g (g.spawn node child moved).2 := by
  have slotted : OpEffects rules g { g with
      nextSlot := g.nextSlot + 1
      slots := g.slots.insert g.nextSlot ⟨false, none, []⟩
      audit.slotHomes := g.audit.slotHomes.insert g.nextSlot node } :=
    Relation.ReflTransGen.single (OpEffect.opened node inScope)
  have running := slotted.tail
    (OpEffect.started node ⟨child, some g.nextSlot⟩ inScope
      (by rintro slot ⟨⟩; exact ⟨SortedMap.get_insert_self _ _ _, SortedMap.get_insert_self _ _ _⟩))
  have owned := running.tail (OpEffect.gave (fun id => decide (id ∈ moved)) g.nextTaskId rfl
    ⟨node, some ⟨child, some g.nextSlot⟩⟩ (SortedMap.get_insert_self _ _ _)
    (Option.some_ne_none _) inScope)
  exact owned.tail (OpEffect.held (.join g.nextSlot none)
    ⟨⟨node, inScope, SortedMap.get_insert_self _ _ _⟩, rfl⟩)

/-- The call completes or drops a receive that has registered `task` on the list
of `node`; in `after` the receive is gone and the list is not changed yet. -/
def Unregisters (g : Inner State Value) (op : Op State) (node : NodeId) (task : TaskId)
    (after : Inner State Value) : Prop :=
  ∃ id owner, g.futures.get id = some ⟨owner, .recv node (some task)⟩ ∧
    (op = .drop id ∧ after = g.forget id ∨
      ∃ msg rest, op = .poll id ∧ g.inboxes.get node = some (msg :: rest) ∧
        after = g.completeRecv id node msg rest)

def Op.Allowed (may : Inner State Value → NodeId → TaskId → Prop) (g : Inner State Value)
    (op : Op State) : Prop :=
  ∀ node task after, Unregisters g op node task after → may after node task

/-- What the rules ask of one call. -/
def Rules.Permit (rules : Rules State Value) (g : Inner State Value) (op : Op State) : Prop :=
  op.InScope (rules.scope g.crashed) ∧ Op.Allowed rules.may g op

theorem perform_effects (g : Inner State Value) (op : Op State)
    (permitted : rules.Permit g op) : OpEffects rules g (g.perform op).2 := by
  obtain ⟨inScope, allowed⟩ := permitted
  cases op with
  | record env event =>
      exact Relation.ReflTransGen.single (OpEffect.quiet (g.history ++ [event]) g.trace
        g.lastLocalNow g.rngCounter g.storage g.tape (Or.inl rfl) (List.prefix_refl _) id)
  | now env => exact localNow_effects g env
  | rng env =>
      exact Relation.ReflTransGen.single (OpEffect.quiet g.history g.trace g.lastLocalNow
        (g.nextSutRng env).2.rngCounter g.storage g.tape (Or.inl rfl) (List.prefix_refl _) id)
  | send env receiver msg => exact send_effects g env receiver msg (inScope env rfl)
  | writeAt env offset data =>
      exact Relation.ReflTransGen.single (OpEffect.quiet g.history g.trace g.lastLocalNow
        g.rngCounter (g.perform (.writeAt env offset data)).2.storage g.tape (Or.inl rfl)
        (List.prefix_refl _) id)
  | readAt env offset len =>
      simp only [perform]
      cases g.storage.get env with
      | none => exact Relation.ReflTransGen.refl
      | some store =>
          dsimp only
          cases store.readAt offset len <;> exact Relation.ReflTransGen.refl
  | flush env =>
      exact Relation.ReflTransGen.single (OpEffect.quiet g.history g.trace g.lastLocalNow
        g.rngCounter (g.perform (.flush env)).2.storage g.tape (Or.inl rfl)
        (List.prefix_refl _) id)
  | len env => exact Relation.ReflTransGen.refl
  | sleepUntil env deadline =>
      exact Relation.ReflTransGen.single (OpEffect.held _ ⟨inScope env rfl, rfl⟩)
  | recv env => exact Relation.ReflTransGen.single (OpEffect.held _ ⟨inScope env rfl, rfl⟩)
  | spawn env child moved => exact spawn_effects g env child moved (inScope env rfl)
  | poll id =>
      simp only [perform]
      cases present : g.futures.get id with
      | none => exact Relation.ReflTransGen.refl
      | some held =>
          dsimp only
          split_ifs with owner
          · obtain ⟨_, leaf⟩ := held
            cases leaf with
            | sleep node deadline timer =>
                exact pollSleep_effects g id _ node deadline timer present rfl owner
            | recv node registeredTask =>
                refine pollRecv_effects g id _ node registeredTask present rfl owner ?_
                rintro task msg rest rfl arrived
                exact allowed node task _
                  ⟨id, _, present, Or.inr ⟨msg, rest, rfl, arrived, rfl⟩⟩
            | join slot waitingTask =>
                exact pollJoin_effects g id _ slot waitingTask present rfl owner
          · exact Relation.ReflTransGen.refl
  | drop id =>
      simp only [perform]
      cases present : g.futures.get id with
      | none => exact Relation.ReflTransGen.refl
      | some held =>
          dsimp only
          split_ifs
          · refine release_effects g id ?_
            rintro ⟨_, leaf⟩ node task found rfl
            exact allowed node task _ ⟨id, _, found, Or.inl ⟨rfl, rfl⟩⟩
          · exact Relation.ReflTransGen.refl

/-- What no call changes, and the counters and the log, which only grow. -/
structure OpFrame (g after : Inner State Value) : Prop where
  now : after.now = g.now
  config : after.config = g.config
  seed : after.seed = g.seed
  dispatched : after.dispatched = g.dispatched
  nodes : after.nodes = g.nodes
  crashed : after.crashed = g.crashed
  factories : after.factories = g.factories
  faults : after.faults = g.faults
  nemesisTrace : after.nemesisTrace = g.nemesisTrace
  currentTask : after.currentTask = g.currentTask
  finished : after.audit.finished = g.audit.finished
  seq : g.seq ≤ after.seq
  nextTaskId : g.nextTaskId ≤ after.nextTaskId
  nextTimerId : g.nextTimerId ≤ after.nextTimerId
  log : g.tape.log <+: after.tape.log
  aligned : g.tape.Aligned → after.tape.Aligned

theorem OpFrame.refl (g : Inner State Value) : OpFrame g g :=
  ⟨rfl, rfl, rfl, rfl, rfl, rfl, rfl, rfl, rfl, rfl, rfl, le_rfl, le_rfl, le_rfl,
    List.prefix_refl _, id⟩

theorem OpFrame.trans {first second third : Inner State Value} (left : OpFrame first second)
    (right : OpFrame second third) : OpFrame first third where
  now := right.now.trans left.now
  config := right.config.trans left.config
  seed := right.seed.trans left.seed
  dispatched := right.dispatched.trans left.dispatched
  nodes := right.nodes.trans left.nodes
  crashed := right.crashed.trans left.crashed
  factories := right.factories.trans left.factories
  faults := right.faults.trans left.faults
  nemesisTrace := right.nemesisTrace.trans left.nemesisTrace
  currentTask := right.currentTask.trans left.currentTask
  finished := right.finished.trans left.finished
  seq := left.seq.trans right.seq
  nextTaskId := left.nextTaskId.trans right.nextTaskId
  nextTimerId := left.nextTimerId.trans right.nextTimerId
  log := left.log.trans right.log
  aligned := right.aligned ∘ left.aligned

theorem opEffect_frame {g after : Inner State Value} (effect : OpEffect rules g after) :
    OpFrame g after := by
  have still := List.prefix_refl g.tape.log
  cases effect with
  | quiet _ _ _ _ _ _ _ recorded aligned =>
      exact ⟨rfl, rfl, rfl, rfl, rfl, rfl, rfl, rfl, rfl, rfl, rfl, le_rfl, le_rfl, le_rfl,
        recorded, aligned⟩
  | sent | sentTwice =>
      exact ⟨rfl, rfl, rfl, rfl, rfl, rfl, rfl, rfl, rfl, rfl, rfl, Nat.le_add_right _ _, le_rfl,
        le_rfl, still, id⟩
  | started =>
      exact ⟨rfl, rfl, rfl, rfl, rfl, rfl, rfl, rfl, rfl, rfl, rfl, Nat.le_succ _, Nat.le_succ _,
        le_rfl, still, id⟩
  | armed =>
      exact ⟨rfl, rfl, rfl, rfl, rfl, rfl, rfl, rfl, rfl, rfl, rfl, Nat.le_succ _, le_rfl,
        Nat.le_succ _, still, id⟩
  | unregistered node task =>
      unfold unregisterRecvWaiter
      split <;> exact ⟨rfl, rfl, rfl, rfl, rfl, rfl, rfl, rfl, rfl, rfl, rfl, le_rfl, le_rfl,
        le_rfl, still, id⟩
  | held | opened | gave | unarmed | cancelled | forgot | waited | received | joining | handled =>
      exact ⟨rfl, rfl, rfl, rfl, rfl, rfl, rfl, rfl, rfl, rfl, rfl, le_rfl, le_rfl, le_rfl, still,
        id⟩

/-- A relation kept by composition holds of a chain when it holds of each update. -/
theorem opEffects_of_each {relation : Inner State Value → Inner State Value → Prop}
    (refl : ∀ g, relation g g)
    (trans : ∀ {first second third}, relation first second → relation second third →
      relation first third)
    (each : ∀ {g after}, OpEffect rules g after → relation g after)
    {g after : Inner State Value} (effects : OpEffects rules g after) : relation g after := by
  induction effects with
  | refl => exact refl g
  | tail _ effect ih => exact trans ih (each effect)

theorem opEffects_frame {g after : Inner State Value} (effects : OpEffects rules g after) :
    OpFrame g after :=
  opEffects_of_each OpFrame.refl OpFrame.trans opEffect_frame effects

/-- Every call the code makes, in the state it makes it in. -/
def Meets {Result : Type} (condition : Inner State Value → Op State → Prop) :
    Code State Value Result → Inner State Value → Prop
  | .done _, _ => True
  | .call op next, g => condition g op ∧ Meets condition (next (g.perform op).1) (g.perform op).2

theorem meets_of_all {Result : Type} (condition : Inner State Value → Op State → Prop)
    (all : ∀ g op, condition g op) (code : Code State Value Result) (g : Inner State Value) :
    Meets condition code g := by
  induction code generalizing g with
  | done => trivial
  | call op next ih => exact ⟨all g op, ih _ _⟩

theorem exec_effects {Result : Type} (code : Code State Value Result) (g : Inner State Value)
    (meets : Meets rules.Permit code g) :
    OpEffects rules g (g.exec code).2 := by
  induction code generalizing g with
  | done => exact Relation.ReflTransGen.refl
  | call op next ih =>
      exact (perform_effects g op meets.1).trans (ih _ _ meets.2)

/-- The rules that ask nothing. -/
def anyRules : Rules State Value := ⟨fun _ _ => True, fun _ _ _ => True, fun _ _ => True⟩

theorem meets_any {Result : Type} (code : Code State Value Result) (g : Inner State Value) :
    Meets (anyRules : Rules State Value).Permit code g :=
  meets_of_all _ (fun _ _ => ⟨fun _ _ => trivial, fun _ _ _ _ => trivial⟩) code g

theorem exec_frame {Result : Type} (code : Code State Value Result) (g : Inner State Value) :
    OpFrame g (g.exec code).2 := by
  exact opEffects_frame (exec_effects code g (meets_any code g))

theorem release_frame (g : Inner State Value) (id : FutureId) : OpFrame g (g.release id) := by
  have effects : OpEffects anyRules g (g.release id) :=
    release_effects g id fun _ _ _ _ _ => trivial
  exact opEffects_frame effects

theorem releases_frame (ids : List FutureId) (g : Inner State Value) :
    OpFrame g (ids.foldl release g) := by
  induction ids generalizing g with
  | nil => exact OpFrame.refl g
  | cons id rest ih => exact (release_frame g id).trans (ih (g.release id))

end Inner

end Detersim
