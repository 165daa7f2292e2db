import Detersim.Settled

/-!
Worlds whose code uses the `SimEnv` of its own node only. There every wake-up is
registered where its task lives: `own` is the node whose code is running.
-/

namespace Detersim

namespace Inner

variable {State Value Plan : Type}

/-- No armed timer of `node` is registered for a task that is finished. -/
def TimersOfLiving (g : Inner State Value) (node : NodeId) : Prop :=
  ∀ timer task, g.timers.get timer = some task → g.audit.homes.get task = some node →
    ∃ slot, g.tasks.get task = some slot

/-- The code of `own`, on a node that runs. `strict` also asks of every crash that
it meets no timer of a finished task. -/
def ownRules (strict : Prop) (own : NodeId) : Rules State Value where
  scope crashed node := node = own ∧ node ∉ crashed
  may _ _ _ := True
  crashes g node := g.currentTask = none ∧ (strict → TimersOfLiving g node)

def LeafAt (slotHomes : SortedMap SlotId NodeId) (home : Option NodeId) : Leaf → Prop
  | .sleep node _ _ | .recv node _ => home = some node
  | .join slot _ => ∃ node, home = some node ∧ slotHomes.get slot = some node

/-- Where a future's owner lives; outside tasks it is the code of `own` that runs. -/
def homeOf (own : NodeId) (g : Inner State Value) : Option TaskId → Option NodeId
  | none => some own
  | some task => g.audit.homes.get task

-- Homes are recorded when a task or a slot is made and never change, so the lists that name
-- tasks can be checked against them even for tasks that are gone.
structure Homed (own : NodeId) (fills : SlotId → Prop) (g : Inner State Value) : Prop where
  known : g.crashed ⊆ g.nodes
  tasks : ∀ task slot, g.tasks.get task = some slot → g.audit.homes.get task = some slot.node
  links : ∀ task slot future id, g.tasks.get task = some slot → slot.future = some future →
    future.slot = some id → g.audit.slotHomes.get id = some slot.node
  polled : ∀ id, fills id → g.audit.slotHomes.get id = some own
  current : ∀ task, g.currentTask = some task →
    g.audit.homes.get task = some own ∧ own ∉ g.crashed
  leaves : ∀ id held, g.futures.get id = some held →
    LeafAt g.audit.slotHomes (homeOf own g held.owner) held.leaf
  waiters : ∀ node list task, g.recvWaiters.get node = some list → task ∈ list →
    g.audit.homes.get task = some node
  joiners : ∀ id join task, g.slots.get id = some join → task ∈ join.joiners →
    ∃ node, g.audit.homes.get task = some node ∧ g.audit.slotHomes.get id = some node
  homes : ∀ task node, g.audit.homes.get task = some node → task < g.nextTaskId
  slotHomes : ∀ id node, g.audit.slotHomes.get id = some node → id < g.nextSlot

section Effects

variable {strict : Prop} {own : NodeId} {fills : SlotId → Prop} {outside : Prop}

theorem Homed.ofSetLeaf {g : Inner State Value} (homed : Homed own fills g) {id : FutureId}
    {held : Held} (leaf : Leaf)
    (placed : LeafAt g.audit.slotHomes (homeOf own g held.owner) leaf) :
    Homed own fills (g.setLeaf id held leaf) := by
  refine { homed with leaves := ?_ }
  intro other found member
  simp only [setLeaf, SortedMap.get_insert] at member
  split_ifs at member
  · cases member
    exact placed
  · exact homed.leaves other found member

theorem Homed.ofFutures {g : Inner State Value} (homed : Homed own fills g)
    (futures : SortedMap FutureId Held)
    (shrinks : ∀ id held, futures.get id = some held → g.futures.get id = some held) :
    Homed own fills { g with futures } :=
  { homed with leaves := fun id held present => homed.leaves id held (shrinks id held present) }

theorem Homed.ofForget {g : Inner State Value} (homed : Homed own fills g) (id : FutureId) :
    Homed own fills (g.forget id) := by
  refine homed.ofFutures _ ?_
  intro other held present
  rw [SortedMap.get_remove] at present
  split_ifs at present
  exact present

theorem homed_held {g : Inner State Value} (homed : Homed own fills g) {leaf : Leaf}
    (unpolled : leaf.Unpolled (fun node => node = own ∧ node ∉ g.crashed) g.audit.slotHomes) :
    Homed own fills { g with
      nextFuture := g.nextFuture + 1
      futures := g.futures.insert g.nextFuture ⟨g.currentTask, leaf⟩ } := by
  have home : homeOf own g g.currentTask = some own := by
    cases running : g.currentTask with
    | none => rfl
    | some task => exact (homed.current task running).1
  refine { homed with leaves := ?_ }
  intro id held present
  rw [SortedMap.get_insert] at present
  split_ifs at present
  · cases present
    change LeafAt g.audit.slotHomes (homeOf own g g.currentTask) leaf
    rw [home]
    cases leaf with
    | sleep node => exact congrArg some unpolled.1.1.symm
    | recv node => exact congrArg some unpolled.1.1.symm
    | join slot =>
        obtain ⟨⟨node, ⟨rfl, _⟩, lives⟩, _⟩ := unpolled
        exact ⟨node, rfl, lives⟩
  · exact homed.leaves id held present

theorem LeafAt.mono {slotHomes later : SortedMap SlotId NodeId}
    (grows : ∀ id node, slotHomes.get id = some node → later.get id = some node)
    {home after : Option NodeId} (kept : ∀ node, home = some node → after = some node)
    {leaf : Leaf} (placed : LeafAt slotHomes home leaf) : LeafAt later after leaf := by
  cases leaf with
  | sleep node => exact kept node placed
  | recv node => exact kept node placed
  | join slot =>
      obtain ⟨node, home, lives⟩ := placed
      exact ⟨node, kept node home, grows slot node lives⟩

theorem homed_opened {g : Inner State Value} (homed : Homed own fills g) (node : NodeId) :
    Homed own fills { g with
      nextSlot := g.nextSlot + 1
      slots := g.slots.insert g.nextSlot ⟨false, none, []⟩
      audit.slotHomes := g.audit.slotHomes.insert g.nextSlot node } := by
  -- The new slot has a fresh number, so no slot that had a home gets another.
  have grows (id at_) (lives : g.audit.slotHomes.get id = some at_) :
      (g.audit.slotHomes.insert g.nextSlot node).get id = some at_ :=
    (SortedMap.get_insert_of_ne _ _ (Nat.ne_of_lt (homed.slotHomes id at_ lives))).trans lives
  refine { homed with
    links := ?_, polled := ?_, leaves := ?_, joiners := ?_, slotHomes := ?_ }
  · intro task slot future id present ready link
    exact grows id slot.node (homed.links task slot future id present ready link)
  · intro id filled
    exact grows id own (homed.polled id filled)
  · intro id held present
    exact (homed.leaves id held present).mono grows fun _ home => home
  · intro id join task present member
    rw [SortedMap.get_insert] at present
    split_ifs at present
    · cases present
      exact absurd member List.not_mem_nil
    · obtain ⟨at_, home, lives⟩ := homed.joiners id join task present member
      exact ⟨at_, home, grows id at_ lives⟩
  · intro id at_ lives
    rw [SortedMap.get_insert] at lives
    split_ifs at lives with same
    · exact same ▸ Nat.lt_succ_self _
    · exact Nat.lt_succ_of_lt (homed.slotHomes id at_ lives)

theorem homed_started {g : Inner State Value} (homed : Homed own fills g) {node : NodeId}
    {future : TaskFuture State}
    (linked : ∀ slot, future.slot = some slot → g.audit.slotHomes.get slot = some node) :
    Homed own fills ((g.addTask node future).2.enqueuePollNow g.nextTaskId) := by
  have grows (task at_) (home : g.audit.homes.get task = some at_) :
      (g.audit.homes.insert g.nextTaskId node).get task = some at_ :=
    (SortedMap.get_insert_of_ne _ _ (Nat.ne_of_lt (homed.homes task at_ home))).trans home
  have inserted (task slot) (present : (g.tasks.insert g.nextTaskId ⟨node, some future⟩).get task =
      some slot) : task = g.nextTaskId ∧ slot = ⟨node, some future⟩ ∨
        g.tasks.get task = some slot := by
    rw [SortedMap.get_insert] at present
    split_ifs at present with same
    · exact Or.inl ⟨same, (Option.some.inj present).symm⟩
    · exact Or.inr present
  refine { homed with
    tasks := ?_, links := ?_, current := ?_, leaves := ?_, waiters := ?_, joiners := ?_,
    homes := ?_ }
  · intro task slot present
    rcases inserted task slot present with ⟨rfl, rfl⟩ | old
    · exact SortedMap.get_insert_self _ _ _
    · exact grows task slot.node (homed.tasks task slot old)
  · intro task slot other id present ready link
    rcases inserted task slot present with ⟨rfl, rfl⟩ | old
    · cases ready
      exact linked id link
    · exact homed.links task slot other id old ready link
  · intro task running
    obtain ⟨home, up⟩ := homed.current task running
    exact ⟨grows task own home, up⟩
  · intro id held present
    refine (homed.leaves id held present).mono (fun _ _ lives => lives) ?_
    intro at_ home
    cases owner : held.owner with
    | none => rwa [owner] at home
    | some task =>
        rw [owner] at home
        exact grows task at_ home
  · intro at_ list task present member
    exact grows task at_ (homed.waiters at_ list task present member)
  · intro id join task present member
    obtain ⟨at_, home, lives⟩ := homed.joiners id join task present member
    exact ⟨at_, grows task at_ home, lives⟩
  · intro task at_ home
    change (g.audit.homes.insert g.nextTaskId node).get task = some at_ at home
    rw [SortedMap.get_insert] at home
    split_ifs at home with same
    · exact Nat.lt_succ_of_le same.le
    · exact Nat.lt_succ_of_lt (homed.homes task at_ home)

theorem homed_gave {g : Inner State Value} (homed : Homed own fills g) (chosen : FutureId → Bool)
    {task : TaskId} (home : g.audit.homes.get task = some own) :
    Homed own fills (g.give chosen task) := by
  refine { homed with leaves := ?_ }
  intro id held present
  simp only [give, SortedMap.get_mapValues, Option.map_eq_some_iff] at present
  obtain ⟨old, before, rfl⟩ := present
  split_ifs with moved
  · -- What moves belongs to the running code, so it is at `own` already.
    refine (homed.leaves id old before).mono (fun _ _ lives => lives) ?_
    intro at_ was
    rw [moved.2] at was
    cases running : g.currentTask with
    | none =>
        rw [running] at was
        exact home.trans was
    | some current =>
        rw [running] at was
        exact home.trans ((homed.current current running).1.symm.trans was)
  · exact homed.leaves id old before

theorem registered_get {g : Inner State Value} {node at_ : NodeId} {task : TaskId}
    {list : List TaskId}
    (present : (g.registerRecvWaiter node task).recvWaiters.get at_ = some list) :
    g.recvWaiters.get at_ = some list ∨ at_ = node ∧ ∀ other ∈ list, other = task ∨
      ∃ old, g.recvWaiters.get node = some old ∧ other ∈ old := by
  simp only [registerRecvWaiter, SortedMap.get_insert] at present
  split_ifs at present with same known
  · cases present
    refine Or.inr ⟨same, ?_⟩
    intro other member
    cases found : g.recvWaiters.get node with
    | none => simp [found] at member
    | some old => exact Or.inr ⟨old, rfl, by simpa [found] using member⟩
  · cases present
    refine Or.inr ⟨same, ?_⟩
    intro other member
    rcases List.mem_append.mp member with before | new
    · cases found : g.recvWaiters.get node with
      | none => simp [found] at before
      | some old => exact Or.inr ⟨old, rfl, by simpa [found] using before⟩
    · exact Or.inl (List.mem_singleton.mp new)
  · exact Or.inl present

theorem homed_op {g after : Inner State Value} (effect : OpEffect (ownRules strict own) g after)
    (homed : Homed own fills g) : Homed own fills after := by
  cases effect with
  | quiet | sent | sentTwice | cancelled => exact { homed with }
  | held leaf unpolled => exact homed_held homed unpolled
  | opened node => exact homed_opened homed node
  | started node future inScope linked =>
      exact homed_started homed fun slot link => (linked slot link).2
  | gave chosen task young slot live ready inScope =>
      refine homed_gave homed chosen ?_
      rw [homed.tasks task slot live, inScope.1]
  | armed id held node deadline timer task time present leaf =>
      have registered : Homed own fills (g.registerTimer task time).2 := { homed with }
      refine registered.ofSetLeaf _ ?_
      have placed := homed.leaves id held present
      rw [leaf] at placed
      exact placed
  | unarmed id held node deadline timer present leaf =>
      refine homed.ofSetLeaf _ ?_
      have placed := homed.leaves id held present
      rw [leaf] at placed
      exact placed
  | forgot id => exact homed.ofForget id
  | waited id held node registeredTask task present leaf owner running =>
      have placed := homed.leaves id held present
      rw [leaf] at placed
      have lives : g.audit.homes.get task = some node := by
        rw [owner, running] at placed
        exact placed
      have registered : Homed own fills (g.registerRecvWaiter node task) := by
        refine { homed with waiters := ?_ }
        intro at_ list other present member
        rcases registered_get present with old | ⟨rfl, inside⟩
        · exact homed.waiters at_ list other old member
        · rcases inside other member with rfl | ⟨old, found, before⟩
          · exact lives
          · exact homed.waiters at_ old other found before
      exact { registered.ofSetLeaf (.recv node (some task)) placed with }
  | received id => exact { homed.ofForget id with }
  | unregistered node task =>
      unfold unregisterRecvWaiter
      split
      · exact homed
      next waiters found =>
        refine { homed with waiters := ?_ }
        intro at_ list other present member
        rw [SortedMap.get_insert] at present
        split_ifs at present with same
        · cases present
          exact same ▸ homed.waiters node waiters other found (List.mem_filter.mp member).1
        · exact homed.waiters at_ list other present member
  | joining slot join changed present joiners =>
      refine { homed with joiners := ?_ }
      intro id found task member inside
      rw [SortedMap.get_insert] at member
      split_ifs at member with same
      · cases member
        rcases joiners task inside with old | ⟨running, other, held, waitingTask, polled, owner, leaf⟩
        · exact same ▸ homed.joiners slot join task present old
        · have placed := homed.leaves other held polled
          rw [owner, leaf] at placed
          exact same ▸ placed
      · exact homed.joiners id found task member inside
  | handled id held slot waitingTask waiting present leaf =>
      refine homed.ofSetLeaf _ ?_
      have placed := homed.leaves id held present
      rw [leaf] at placed
      exact placed

theorem homed_discard {g : Inner State Value} (homed : Homed own fills g) (gone : TaskId → Bool) :
    Homed own fills (g.discard gone) := by
  refine { homed.ofFutures (g.discard gone).futures ?_ with joiners := ?_ }
  · intro id held present
    simp only [discard, SortedMap.get_retain, Option.filter_eq_some_iff] at present
    exact present.1
  · intro id join task present member
    simp only [discard, SortedMap.get_mapValues, Option.map_eq_some_iff] at present
    obtain ⟨old, before, rfl⟩ := present
    exact homed.joiners id old task before (List.mem_filter.mp member).1

theorem homed_crash {g : Inner State Value} (homed : Homed own fills g) (node : NodeId)
    (idle : g.currentTask = none) : Homed own fills (g.crashNode node) := by
  unfold crashNode
  split_ifs with registered
  · have discarded := homed_discard homed (g.livesOn node)
    refine { discarded with known := ?_, tasks := ?_, links := ?_, current := ?_, waiters := ?_ }
    · intro other member
      rcases Finset.mem_insert.mp member with rfl | down
      · exact registered
      · exact homed.known down
    · intro task slot present
      rw [SortedMap.get_retain, Option.filter_eq_some_iff] at present
      exact homed.tasks task slot present.1
    · intro task slot future id present
      rw [SortedMap.get_retain, Option.filter_eq_some_iff] at present
      exact homed.links task slot future id present.1
    · intro task running
      exact absurd (idle.symm.trans running) (Option.some_ne_none task).symm
    · intro at_ list task present member
      rw [SortedMap.get_mapValues, Option.map_eq_some_iff] at present
      obtain ⟨old, before, rfl⟩ := present
      rw [SortedMap.get_remove] at before
      split_ifs at before
      exact homed.waiters at_ old task before (List.mem_filter.mp member).1
  · exact homed

theorem Homed.ofEnqueueAll {g : Inner State Value} (homed : Homed own fills g)
    (tasks : List TaskId) : Homed own fills (tasks.foldl enqueuePollNow g) := by
  obtain ⟨queue, shape⟩ := enqueueAll_shape tasks g
  rw [shape]
  exact { homed with }

theorem homed_loop {g after : Inner State Value}
    (effect : LoopEffect (ownRules strict own) fills outside g after)
    (homed : Homed own fills g) : Homed own fills after := by
  cases effect with
  | faulted | drawn | scheduled => exact { homed with }
  | crashed node allowed => exact homed_crash homed node allowed.1
  | revived node =>
      refine { homed with known := ?_, current := ?_ }
      · exact (Finset.erase_subset _ _).trans homed.known
      · intro task running
        obtain ⟨home, up⟩ := homed.current task running
        exact ⟨home, fun down => up (Finset.mem_of_mem_erase down)⟩
  | registered node =>
      exact { homed with known := homed.known.trans (Finset.subset_insert _ _) }
  | filled slot join value =>
      have filled : Homed own fills
          { g with slots := g.slots.insert slot ⟨true, some value, []⟩ } := by
        refine { homed with joiners := ?_ }
        intro id found task present member
        rw [SortedMap.get_insert] at present
        split_ifs at present
        · cases present
          exact absurd member List.not_mem_nil
        · exact homed.joiners id found task present member
      exact filled.ofEnqueueAll join.joiners
  | parked task slot future running present linked =>
      -- The parked future fills a slot of the running node, which is the task's own.
      have lives : own = slot.node :=
        Option.some.inj ((homed.current task running).1.symm.trans (homed.tasks task slot present))
      refine { homed with tasks := ?_, links := ?_, current := by simp }
      · intro other found member
        rw [SortedMap.get_insert] at member
        split_ifs at member with same
        · cases member
          exact same ▸ homed.tasks task slot present
        · exact homed.tasks other found member
      · intro other found ready id member held link
        rw [SortedMap.get_insert] at member
        split_ifs at member
        · cases member
          cases held
          exact lives ▸ homed.polled id (linked id link)
        · exact homed.links other found ready id member held link
  | halted => exact { homed with current := by simp }
  | ended task =>
      refine { homed with tasks := ?_, links := ?_, current := by simp }
      · intro other found member
        rw [SortedMap.get_remove] at member
        split_ifs at member
        exact homed.tasks other found member
      · intro other found future id member
        rw [SortedMap.get_remove] at member
        split_ifs at member
        exact homed.links other found future id member

theorem homed_change {g after : Inner State Value}
    (change : Change (ownRules strict own) fills outside g after) (homed : Homed own fills g) :
    Homed own fills after := by
  cases change with
  | op effect => exact homed_op effect homed
  | loop effect => exact homed_loop effect homed

/-- The popped event polls a task of `own`, if it polls one. -/
def PollsAt (own : NodeId) (g : Inner State Value) (event : Keyed) : Prop :=
  ∀ task slot, event.kind = .pollTask task → g.tasks.get task = some slot → slot.node = own

theorem Homed.begins {g : Inner State Value} (homed : Homed own (fun _ => False) g)
    {event : Keyed} (polls : PollsAt own g event) : Homed own (Fills g event) g := by
  refine { homed with polled := ?_ }
  rintro id ⟨task, slot, future, kind, present, ready, link⟩
  rw [← polls task slot kind present]
  exact homed.links task slot future id present ready link

theorem homed_pop {g after : Inner State Value} {event : Keyed} (effect : PopEffect g event after)
    (polls : PollsAt own g event) (homed : Homed own fills g) : Homed own fills after := by
  have taken {task slot} (present : g.tasks.get task = some slot) : Homed own fills
      { g with tasks := g.tasks.insert task { slot with future := none } } := by
    refine { homed with tasks := ?_, links := ?_ }
    · intro other found member
      rw [SortedMap.get_insert] at member
      split_ifs at member with same
      · cases member
        exact same ▸ homed.tasks task slot present
      · exact homed.tasks other found member
    · intro other found future id member ready
      rw [SortedMap.get_insert] at member
      split_ifs at member
      · cases member
        cases ready
      · exact homed.links other found future id member ready
  cases effect with
  | idle | fired | dropped => exact { homed with }
  | delivered queue tape sender receiver =>
      refine Homed.ofEnqueueAll ?_ _
      refine { homed with waiters := ?_ }
      intro node list task present member
      dsimp only at present
      split_ifs at present
      · rw [SortedMap.get_insert] at present
        split_ifs at present
        · cases present
          exact absurd member List.not_mem_nil
        · exact homed.waiters node list task present member
      · exact homed.waiters node list task present member
  | begun queue task slot future popped kind present ready running =>
      -- The node whose code runs next is the polled task's, and it is up.
      refine { taken present with current := ?_ }
      rintro other ⟨⟩
      have lives := polls task slot kind present
      exact ⟨lives ▸ homed.tasks task slot present, lives ▸ running⟩
  | lost queue task slot popped kind present =>
      refine homed_discard ?_ _
      exact { taken present with }

end Effects

/-- Between steps it does not matter whose code ran last. -/
theorem Homed.rebase {own other : NodeId} {fills : SlotId → Prop} {g : Inner State Value}
    (homed : Homed own fills g) (settled : Settled g) : Homed other (fun _ => False) g := by
  refine { homed with polled := fun _ => False.elim, current := ?_, leaves := ?_ }
  · intro task running
    exact absurd (settled.idle.symm.trans running) (Option.some_ne_none task).symm
  · intro id held present
    have placed := homed.leaves id held present
    obtain ⟨owner, leaf⟩ := held
    cases owner with
    | none => exact absurd rfl (settled.owned id _ present)
    | some task => exact placed

/-! The condition on steps. -/

/-- Code that only uses the `SimEnv` of `node`. -/
def onlyEnv (node : NodeId) : Rules State Value :=
  ⟨fun _ other => other = node, fun _ _ _ => True, fun _ _ => True⟩

/-- The task an event polls, and the main task of a node it restarts, use the
`SimEnv` of their own node. -/
def LocalTurn (program : Program State Value) (g : Inner State Value) (event : Keyed) : Prop :=
  match event.kind with
  | .pollTask task => ∀ slot queue, g.tasks.get task = some slot →
      DispatchMeets (onlyEnv slot.node) program { g with queue, now := event.time } event
  | .nemesis (.restart node) => ∀ queue,
      DispatchMeets (onlyEnv node) program { g with queue, now := event.time } event
  | _ => True

/-- The same for operations; a test uses the `SimEnv` of one node that runs. -/
def LocalOperate (g : Inner State Value) (op : WorldOp State Value Plan) : Prop :=
  match op with
  | .addNode node _ | .restartNode node | .restartNodeOutcome node =>
      OperateMeets (onlyEnv node) g op
  | .useEnv _ => ∃ node, node ∉ g.crashed ∧ OperateMeets (onlyEnv node) g op
  | _ => True

/-- Local steps; `strict` adds that no crash meets an armed timer of a finished task. -/
def localSteps (program : Program State Value) (strict : Prop) :
    StepConditions State Value Plan where
  operate g op := LocalOperate g op ∧
    (strict → ∀ node, op = .crashNode node → TimersOfLiving g node)
  turn g event := LocalTurn program g event ∧
    (strict → ∀ node, event.kind = .nemesis (.crash node) → TimersOfLiving g node)
  abort _ _ := True

theorem meets_own {Result : Type} {strict : Prop} {node : NodeId}
    (code : Code State Value Result) (g : Inner State Value)
    (meets : Meets (onlyEnv node).Permit code g) (up : node ∉ g.crashed) :
    Meets (ownRules strict node).Permit code g := by
  induction code generalizing g with
  | done => trivial
  | call op next ih =>
      obtain ⟨⟨inScope, _⟩, rest⟩ := meets
      refine ⟨⟨?_, fun _ _ _ _ => trivial⟩, ih _ _ rest ?_⟩
      · intro env used
        have same : env = node := inScope env used
        exact ⟨same, same ▸ up⟩
      · have any : OpEffects anyRules g (g.perform op).2 :=
          perform_effects g op ⟨fun _ _ => trivial, fun _ _ _ _ => trivial⟩
        rwa [(opEffects_frame any).crashed]

theorem factoryMeets_own {strict : Prop} {node : NodeId} {factory : NodeFactory State Value}
    {g : Inner State Value} (meets : FactoryMeets (onlyEnv node) node factory g)
    (up : node ∉ g.crashed) : FactoryMeets (ownRules strict node) node factory g :=
  ⟨⟨rfl, up⟩, meets_own _ g meets.2 up⟩

theorem localTurn_own {program : Program State Value} {strict : Prop} {g : Inner State Value}
    {event : Keyed} (settled : Settled g) (local_ : LocalTurn program g event)
    (timers : strict → ∀ node, event.kind = .nemesis (.crash node) → TimersOfLiving g node) :
    ∃ own, PollsAt own g event ∧ ∀ queue,
      DispatchMeets (ownRules strict own) program { g with queue, now := event.time } event := by
  cases kind : event.kind with
  | pollTask task =>
      -- No code runs for a task that is gone, so any node will do as `own`.
      cases present : g.tasks.get task with
      | none =>
          refine ⟨0, ?_, ?_⟩
          · intro other slot polled found
            cases kind.symm.trans polled
            exact absurd (present.symm.trans found) (Option.some_ne_none slot).symm
          · intro queue
            simp only [DispatchMeets, kind]
            intro slot future found
            exact absurd (present.symm.trans found) (Option.some_ne_none slot).symm
      | some slot =>
          refine ⟨slot.node, ?_, ?_⟩
          · intro other found polled member
            cases kind.symm.trans polled
            rw [Option.some.inj (present.symm.trans member)]
          · intro queue
            simp only [LocalTurn, kind] at local_
            have meets := local_ slot queue present
            simp only [DispatchMeets, kind] at meets ⊢
            intro found future member ready up
            obtain ⟨calls, _⟩ := meets found future member ready up
            cases Option.some.inj (present.symm.trans member)
            exact ⟨meets_own _ _ calls up, fun _ _ _ => releasesMeet_any _ _⟩
  | nemesis action =>
      cases action with
      | crash node =>
          refine ⟨0, ?_, ?_⟩
          · intro task slot polled
            cases kind.symm.trans polled
          · intro queue
            simp only [DispatchMeets, kind]
            exact ⟨settled.idle, fun asked => timers asked node kind⟩
      | restart node =>
          refine ⟨node, ?_, ?_⟩
          · intro task slot polled
            cases kind.symm.trans polled
          · intro queue
            simp only [LocalTurn, kind] at local_
            have meets := local_ queue
            simp only [DispatchMeets, kind] at meets ⊢
            intro factory down registered
            exact factoryMeets_own (meets factory down registered) (Finset.notMem_erase _ _)
      | partition | asymmetricPartition | setLink | healAll | clockSkew | bitRot | tornWrite
      | lostOnCrash | preFsyncReorder =>
          refine ⟨0, ?_, fun queue => by simp only [DispatchMeets, kind]⟩
          intro task slot polled
          cases kind.symm.trans polled
  | timerFire | deliverMsg =>
      refine ⟨0, ?_, fun queue => by simp only [DispatchMeets, kind]⟩
      intro task slot polled
      cases kind.symm.trans polled

theorem localOperate_own {strict : Prop} {g : Inner State Value} {op : WorldOp State Value Plan}
    (settled : Settled g) (known : g.crashed ⊆ g.nodes) (local_ : LocalOperate g op)
    (timers : strict → ∀ node, op = .crashNode node → TimersOfLiving g node) :
    ∃ own, OperateMeets (ownRules strict own) g op := by
  cases op with
  | addNode node factory =>
      refine ⟨node, ?_⟩
      intro fresh
      exact factoryMeets_own (local_ fresh) fun down => fresh (known down)
  | restartNode node | restartNodeOutcome node =>
      refine ⟨node, ?_⟩
      intro factory down registered
      exact factoryMeets_own (local_ factory down registered) (Finset.notMem_erase _ _)
  | useEnv code =>
      obtain ⟨node, up, calls, _⟩ := local_
      exact ⟨node, meets_own code g calls up, releasesMeet_any _ _⟩
  | crashNode node => exact ⟨0, settled.idle, fun asked => timers asked node rfl⟩
  | scheduleNemesis | scheduleNemesisPlan | partition | healAll | setDropPercent
  | setDuplicatePercent | setExtraDelayMs | setClockSkew => exact ⟨0, trivial⟩

end Inner

end Detersim
