import Detersim.ClockSteps

/-!
The calls program code makes, in the order it makes them, and a step of a world
as a chain of clock steps with these calls among them.
-/

namespace Detersim

/-- One call of program code, and the state it is made in. -/
structure Call (State Value : Type) where
  before : Inner State Value
  op : Op State

namespace Inner

variable {State Value Plan : Type}

/-! The calls of a step. -/

def calls {Result : Type} : Code State Value Result → Inner State Value → List (Call State Value)
  | .done _, _ => []
  | .call op next, g => ⟨g, op⟩ :: calls (next (g.perform op).1) (g.perform op).2

def restartCalls (g : Inner State Value) (node : NodeId) : List (Call State Value) :=
  if node ∉ g.nodes then []
  else if node ∉ g.crashed then []
  else match g.factories.get node with
    | none => []
    | some factory => calls (factory node) { g with crashed := g.crashed.erase node }

def pollCalls (program : Program State Value) (g : Inner State Value) (event : Keyed)
    (task : TaskId) : List (Call State Value) :=
  match g.tasks.get task with
  | none => []
  | some slot => match slot.future with
    | none => []
    | some future =>
        if slot.node ∈ g.crashed then []
        else calls (program future.state)
          (({ g with tasks := g.tasks.insert task { slot with future := none } }.countDispatch
            (.dispatched event)).beginPoll task)

/-- The calls made while an event is dispatched. -/
def dispatchCalls (program : Program State Value) (g : Inner State Value) (event : Keyed) :
    List (Call State Value) :=
  match event.kind with
  | .pollTask task => pollCalls program g event task
  | .nemesis (.restart node) => restartCalls
      { g.countDispatch (.dispatched event) with
        nemesisTrace := g.nemesisTrace ++ [.restart node] } node
  | _ => []

/-- The calls of a turn of the event loop; a turn that stops the run makes none. -/
def turnCalls (program : Program State Value) (g : Inner State Value) : List (Call State Value) :=
  match g.queue.pop with
  | none => []
  | some (event, queue) =>
      if g.trips event then []
      else dispatchCalls program { g with queue, now := event.time } event

def operateCalls (g : Inner State Value) : WorldOp State Value Plan → List (Call State Value)
  | .addNode node factory =>
      if node ∈ g.nodes then []
      else calls (factory node) { g with
        nodes := insert node g.nodes
        faults.connectivity := g.faults.connectivity.addNode node
        inboxes := g.inboxes.insert node ((g.inboxes.get node).getD [])
        storage := g.storage.insert node ((g.storage.get node).getD .empty)
        factories := g.factories.insert node factory }
  | .restartNode node | .restartNodeOutcome node => restartCalls g node
  | .useEnv code => calls code g
  | _ => []

/-! Runs: clock steps, and the calls made among them. -/

inductive ClockRuns (rules : ClockRules State Value) :
    Inner State Value → List (Call State Value) → Inner State Value → Prop where
  | refl (g) : ClockRuns rules g [] g
  | step {g mid after calls} (step : ClockStep rules g mid)
      (rest : ClockRuns rules mid calls after) : ClockRuns rules g calls after
  | call {g after calls} (op) (lets : rules.Lets g op)
      (rest : ClockRuns rules (g.perform op).2 calls after) :
      ClockRuns rules g (⟨g, op⟩ :: calls) after

section ClockRuns

variable {rules : ClockRules State Value}

theorem ClockRuns.append {g mid after : Inner State Value} {first second : List (Call State Value)}
    (left : ClockRuns rules g first mid) (right : ClockRuns rules mid second after) :
    ClockRuns rules g (first ++ second) after := by
  induction left with
  | refl => exact right
  | step step _ ih => exact ClockRuns.step step (ih right)
  | call op lets _ ih => exact ClockRuns.call op lets (ih right)

theorem ClockRuns.tail {g mid after : Inner State Value} {calls : List (Call State Value)}
    (left : ClockRuns rules g calls mid) (step : ClockStep rules mid after) :
    ClockRuns rules g calls after := by
  have both := left.append (ClockRuns.step step (ClockRuns.refl after))
  rwa [List.append_nil] at both

theorem ClockRuns.calm {g mid after : Inner State Value} {calls : List (Call State Value)}
    (left : ClockRuns rules g calls mid) (calm : Calm mid after) : ClockRuns rules g calls after :=
  left.tail (ClockStep.calm calm)

/-- What each step and each call keeps; the calls made so far are part of it. -/
theorem runs_keep (inv : List (Call State Value) → Inner State Value → Prop)
    (step : ∀ made g after, ClockStep rules g after → inv made g → inv made after)
    (call : ∀ made g op, rules.Lets g op → inv made g → inv (made ++ [⟨g, op⟩]) (g.perform op).2)
    (made : List (Call State Value)) {g after : Inner State Value} {calls : List (Call State Value)}
    (runs : ClockRuns rules g calls after) (holds : inv made g) : inv (made ++ calls) after := by
  induction runs generalizing made with
  | refl => rwa [List.append_nil]
  | step first _ ih => exact ih made (step _ _ _ first holds)
  | call op lets _ ih =>
      rw [List.append_cons]
      exact ih _ (call _ _ op lets holds)

end ClockRuns

/-! What every step keeps. The walk through the loop is made once, for any rules. -/

structure StepRules (State Value : Type) where
  skews : Inner State Value → NodeId → Int → Prop
  crashes : Inner State Value → NodeId → Prop
  lets : Inner State Value → Op State → Prop

/-- Every update of a step and every call of its code keeps `inv`, which speaks of
the calls made so far as well. -/
structure Keeps (rules : StepRules State Value)
    (inv : List (Call State Value) → Inner State Value → Prop) : Prop where
  calm : ∀ {made g after}, inv made g → Calm g after → inv made after
  skewed : ∀ {g} (node : NodeId) (offsetNs : Int), rules.skews g node offsetNs → inv [] g →
    inv [] { g with faults.clockSkewNs := g.faults.clockSkewNs.insert node offsetNs }
  crashed : ∀ {g} (node : NodeId), rules.crashes g node → inv [] g → inv [] (g.crashNode node)
  discarded : ∀ {made g} (gone : TaskId → Bool), inv made g → inv made (g.discard gone)
  gave : ∀ {made g} (chosen : FutureId → Bool) (task : TaskId), g.currentTask = none →
    inv made g → inv made (g.give chosen task)
  released : ∀ {made g} (id : FutureId), inv made g → inv made (g.release id)
  call : ∀ {made g} (op : Op State), rules.lets g op → inv made g →
    inv (made ++ [⟨g, op⟩]) (g.perform op).2

section Keeps

variable {rules : StepRules State Value}
variable {inv : List (Call State Value) → Inner State Value → Prop}

theorem exec_keeps (keeps : Keeps rules inv) {Result : Type} (code : Code State Value Result)
    {made : List (Call State Value)} {g : Inner State Value}
    (lets : ∀ call ∈ calls code g, rules.lets call.before call.op) (holds : inv made g) :
    inv (made ++ calls code g) (g.exec code).2 := by
  induction code generalizing made g with
  | done => rwa [calls, List.append_nil]
  | call op next ih =>
      have first := keeps.call op (lets ⟨g, op⟩ List.mem_cons_self) holds
      have later := ih _ (fun call member => lets call (List.mem_cons_of_mem _ member)) first
      rwa [← List.append_cons] at later

theorem releases_keeps (keeps : Keeps rules inv) (ids : List FutureId)
    {made : List (Call State Value)} {g : Inner State Value} (holds : inv made g) :
    inv made (ids.foldl release g) := by
  induction ids generalizing g with
  | nil => exact holds
  | cons id rest ih => exact ih (keeps.released id holds)

/-- A node's main task takes over what its factory made outside any task. -/
theorem spawnRegisteredNode_keeps (keeps : Keeps rules inv) {g : Inner State Value} (node : NodeId)
    (factory : NodeFactory State Value)
    (lets : ∀ call ∈ calls (factory node) g, rules.lets call.before call.op)
    (idle : g.currentTask = none) (holds : inv [] g) :
    inv (calls (factory node) g) (g.spawnRegisteredNode node factory) := by
  have made := exec_keeps keeps (factory node) lets holds
  have still := (exec_frame (factory node) g).currentTask.trans idle
  unfold spawnRegisteredNode
  rw [List.nil_append] at made
  generalize g.exec (factory node) = ran at made still ⊢
  obtain ⟨state, mid⟩ := ran
  dsimp only at made still ⊢
  have started : Calm mid (mid.addTask node ⟨state, none⟩).2 :=
    Calm.ofSame rfl rfl rfl rfl rfl rfl rfl rfl
  have quiet : (mid.addTask node ⟨state, none⟩).2.currentTask = none := still
  have gave := keeps.gave (fun _ => true) mid.nextTaskId quiet (keeps.calm made started)
  refine keeps.calm gave ?_
  exact calm_pushEvent _ mid.now (.pollTask mid.nextTaskId) (by simp)

theorem restartNodeOutcome_keeps (keeps : Keeps rules inv) {g : Inner State Value} (node : NodeId)
    (lets : ∀ call ∈ restartCalls g node, rules.lets call.before call.op)
    (idle : g.currentTask = none) (holds : inv [] g) :
    inv (restartCalls g node) (g.restartNodeOutcome node).2 := by
  unfold restartNodeOutcome restartCalls at *
  by_cases unknown : node ∉ g.nodes
  · simp only [if_pos unknown]
    exact holds
  · by_cases running : node ∉ g.crashed
    · simp only [if_neg unknown, if_pos running]
      exact holds
    · simp only [if_neg unknown, if_neg running] at lets ⊢
      cases registered : g.factories.get node with
      | none => exact holds
      | some factory =>
          simp only [registered] at lets
          have revived : Calm g { g with crashed := g.crashed.erase node } :=
            Calm.ofSame rfl rfl rfl rfl rfl rfl rfl rfl
          exact spawnRegisteredNode_keeps keeps node factory lets idle (keeps.calm holds revived)

theorem restartNode_keeps (keeps : Keeps rules inv) {g : Inner State Value} (node : NodeId)
    (lets : ∀ call ∈ restartCalls g node, rules.lets call.before call.op)
    (idle : g.currentTask = none) (holds : inv [] g) :
    inv (restartCalls g node) (g.restartNode node) := by
  have restarted := restartNodeOutcome_keeps keeps node lets idle holds
  unfold restartNode
  generalize g.restartNodeOutcome node = result at restarted ⊢
  obtain ⟨outcome, after⟩ := result
  exact keeps.calm restarted (Calm.ofSame rfl rfl rfl rfl rfl rfl rfl rfl)

theorem applyNemesis_keeps (keeps : Keeps rules inv) {g : Inner State Value}
    (action : NemesisAction)
    (skews : ∀ node offsetNs, action = .clockSkew node offsetNs →
      rules.skews { g with nemesisTrace := g.nemesisTrace ++ [action] } node offsetNs)
    (crashes : ∀ node, action = .crash node →
      rules.crashes { g with nemesisTrace := g.nemesisTrace ++ [action] } node)
    (holds : inv [] g) : inv [] (g.applyNemesis action) := by
  have noted : Calm g { g with nemesisTrace := g.nemesisTrace ++ [action] } :=
    Calm.ofSame rfl rfl rfl rfl rfl rfl rfl rfl
  cases action with
  | crash node => exact keeps.crashed node (crashes node rfl) (keeps.calm holds noted)
  | clockSkew node offsetNs =>
      exact keeps.skewed node offsetNs (skews node offsetNs rfl) (keeps.calm holds noted)
  | bitRot node =>
      simp only [applyNemesis]
      split
      · exact keeps.calm holds noted
      · exact keeps.calm holds (Calm.ofSame rfl rfl rfl rfl rfl rfl rfl rfl)
  | partition | asymmetricPartition | setLink | healAll | restart | tornWrite | lostOnCrash
  | preFsyncReorder => exact keeps.calm holds (Calm.ofSame rfl rfl rfl rfl rfl rfl rfl rfl)

theorem runDraws_calm {Result : Type} (draws : Draws Result) (g : Inner State Value) :
    Calm g (runDraws draws g).2 := by
  induction draws generalizing g with
  | done => exact Calm.refl g
  | draw label next ih =>
      have drawn : Calm g (g.draw (tapeLabelOf label)).2 := (draw_moves g (tapeLabelOf label)).calm
      exact drawn.trans (ih _ _)

theorem scheduleNemesisPlan_calm (nextAction : NextAction Plan) (maxActions : Nat) (plan : Plan)
    (g : Inner State Value) : Calm g (scheduleNemesisPlan nextAction maxActions plan g).2 := by
  induction maxActions generalizing plan g with
  | zero => exact Calm.refl g
  | succ maxActions ih =>
      have drawn : Calm g (runDraws (nextAction plan g.worldView) g).2 := runDraws_calm _ _
      rw [scheduleNemesisPlan]
      generalize runDraws (nextAction plan g.worldView) g = result at drawn ⊢
      obtain ⟨⟨next, plan⟩, after⟩ := result
      cases next with
      | none => exact drawn
      | some entry =>
          have pushed : Calm after (after.pushEvent entry.1 (.nemesis entry.2)) :=
            calm_pushEvent after entry.1 (.nemesis entry.2) (by simp)
          exact (drawn.trans pushed).trans (ih _ _)

theorem operate_keeps (keeps : Keeps rules inv) (nextAction : NextAction Plan)
    {g : Inner State Value} (idle : g.currentTask = none) (op : WorldOp State Value Plan)
    (skews : ∀ node offsetNs, op = .setClockSkew node offsetNs →
      rules.skews { g with nemesisTrace := g.nemesisTrace ++ [.clockSkew node offsetNs] } node
        offsetNs)
    (crashes : ∀ node, op = .crashNode node →
      rules.crashes { g with nemesisTrace := g.nemesisTrace ++ [.crash node] } node)
    (lets : ∀ call ∈ g.operateCalls op, rules.lets call.before call.op) (holds : inv [] g) :
    inv (g.operateCalls op) (g.operate nextAction op).2 := by
  cases op with
  | addNode node factory =>
      simp only [operate, addNode, operateCalls] at lets ⊢
      split_ifs at lets ⊢
      · exact holds
      · refine spawnRegisteredNode_keeps keeps node factory lets idle (keeps.calm holds ?_)
        exact Calm.ofSame rfl rfl rfl rfl rfl rfl rfl rfl
  | scheduleNemesis at_ action =>
      exact keeps.calm holds (calm_pushEvent g at_ (.nemesis action) (by simp))
  | scheduleNemesisPlan plan maxActions =>
      exact keeps.calm holds (scheduleNemesisPlan_calm nextAction maxActions plan g)
  | setDropPercent | setDuplicatePercent | setExtraDelayMs =>
      exact keeps.calm holds (Calm.ofSame rfl rfl rfl rfl rfl rfl rfl rfl)
  | partition groups =>
      exact applyNemesis_keeps keeps (.partition groups) (by simp) (by simp) holds
  | healAll => exact applyNemesis_keeps keeps .healAll (by simp) (by simp) holds
  | setClockSkew node offsetNs =>
      refine applyNemesis_keeps keeps (.clockSkew node offsetNs) ?_ (by simp) holds
      rintro _ _ ⟨⟩
      exact skews node offsetNs rfl
  | crashNode node =>
      refine applyNemesis_keeps keeps (.crash node) (by simp) ?_ holds
      rintro _ ⟨⟩
      exact crashes node rfl
  | restartNode node => exact restartNode_keeps keeps node lets idle holds
  | restartNodeOutcome node => exact restartNodeOutcome_keeps keeps node lets idle holds
  | useEnv code =>
      have ran := exec_keeps keeps code lets holds
      rw [List.nil_append] at ran
      exact releases_keeps keeps (((g.exec code).2.futures.retain fun _ held =>
        decide (held.owner = none)).keys) ran

/-! Turns. -/

/-- The popped event is out of the queue and the clock is at it; if it fires a
timer, the timer is out of the map. -/
def popTurn (g : Inner State Value) (event : Keyed) (queue : EventQueue) : Inner State Value :=
  { g with
    queue, now := event.time
    timers := match event.kind with
      | .timerFire timer => g.timers.remove timer
      | _ => g.timers }

theorem fireTimer_calm (g : Inner State Value) (event : Keyed) (timer : TimerId) :
    Calm { g with timers := g.timers.remove timer } (g.fireTimer event timer) := by
  unfold fireTimer
  split
  next absent =>
    have same : g.timers.remove timer = g.timers := by
      apply SortedMap.get_ext
      intro other
      rw [SortedMap.get_remove]
      split_ifs with named
      · rw [named, absent]
      · rfl
    rw [same]
    exact Calm.ofSame rfl rfl rfl rfl rfl rfl rfl rfl
  next task _ =>
    have fired : Calm { g with timers := g.timers.remove timer }
        ({ g with timers := g.timers.remove timer }.countDispatch (.dispatched event)) :=
      Calm.ofSame rfl rfl rfl rfl rfl rfl rfl rfl
    exact fired.trans (calm_pushEvent _ g.now (.pollTask task) (by simp))

theorem deliverMsg_calm (g : Inner State Value) (event : Keyed) (sender receiver : NodeId)
    (msg : Message) : Calm g (g.deliverMsg event sender receiver msg) := by
  have dropped (mid : Inner State Value) (reason : DropKind) :
      Calm mid (mid.dropDelivery event sender receiver reason) :=
    Calm.ofSame rfl rfl rfl rfl rfl rfl rfl rfl
  unfold deliverMsg
  split_ifs
  · exact dropped g .crashed
  · exact dropped g .partition
  · have moved := (drawPercent_moves g g.faults.dropPercent .dropDecision).calm
    generalize g.drawPercent g.faults.dropPercent .dropDecision = drawn at moved ⊢
    obtain ⟨lost, mid⟩ := drawn
    cases lost with
    | true => exact moved.trans (dropped mid .random)
    | false =>
        refine moved.trans (Calm.trans ?_ (calm_enqueueAll _ _))
        exact Calm.ofSame rfl rfl rfl rfl rfl rfl rfl rfl
  · exact dropped g .unregistered

theorem finishTask_keeps (keeps : Keeps rules inv) {made : List (Call State Value)}
    {g : Inner State Value} (task : TaskId) (slot : Option SlotId) (value : Value)
    (holds : inv made g) : inv made (g.finishTask task slot value) := by
  have released := releases_keeps keeps (g.ownedBy task) holds
  have ended (mid : Inner State Value) :
      Calm mid { mid with currentTask := none, tasks := mid.tasks.remove task } :=
    Calm.ofSame rfl rfl rfl rfl rfl rfl rfl rfl
  unfold finishTask
  dsimp only
  split
  · exact keeps.calm released (ended _)
  next slot =>
    split
    · exact keeps.calm released (ended _)
    next join _ =>
      have filled : Calm ((g.ownedBy task).foldl release g)
          { (g.ownedBy task).foldl release g with
            slots :=
              ((g.ownedBy task).foldl release g).slots.insert slot ⟨true, some value, []⟩ } :=
        Calm.ofSame rfl rfl rfl rfl rfl rfl rfl rfl
      exact keeps.calm released ((filled.trans (calm_enqueueAll join.joiners _)).trans (ended _))

theorem pollTask_keeps (keeps : Keeps rules inv) (program : Program State Value)
    {g : Inner State Value} (event : Keyed) (task : TaskId)
    (lets : ∀ call ∈ pollCalls program g event task, rules.lets call.before call.op)
    (holds : inv [] g) :
    inv (pollCalls program g event task) (pollTask program g event task) := by
  unfold pollTask pollCalls at *
  cases present : g.tasks.get task with
  | none => exact holds
  | some slot =>
      simp only [present] at lets ⊢
      cases ready : slot.future with
      | none => exact holds
      | some future =>
          simp only [ready] at lets ⊢
          have taken : Calm g
              { g with tasks := g.tasks.insert task { slot with future := none } } :=
            Calm.ofSame rfl rfl rfl rfl rfl rfl rfl rfl
          by_cases down : slot.node ∈ g.crashed
          · simp only [if_pos down]
            exact keeps.discarded _ (keeps.calm holds taken)
          · simp only [if_neg down] at lets ⊢
            have begun : Calm g
                (({ g with tasks := g.tasks.insert task { slot with future := none } }.countDispatch
                  (.dispatched event)).beginPoll task) :=
              Calm.ofSame rfl rfl rfl rfl rfl rfl rfl rfl
            have ran := exec_keeps keeps (program future.state) lets (keeps.calm holds begun)
            rw [List.nil_append] at ran
            split
            next state after shape =>
              rw [shape] at ran
              exact keeps.calm ran (Calm.ofSame rfl rfl rfl rfl rfl rfl rfl rfl)
            next value after shape =>
              rw [shape] at ran
              exact finishTask_keeps keeps task future.slot value ran

theorem turn_keeps (keeps : Keeps rules inv) {program : Program State Value}
    {g next : Inner State Value} {event : Keyed} (turned : turn program g = .next event next)
    (idle : g.currentTask = none) :
    ∃ queue, g.queue.pop = some (event, queue) ∧ g.trips event = false ∧
      ((∀ node offsetNs, event.kind = .nemesis (.clockSkew node offsetNs) →
          rules.skews { (g.popTurn event queue).countDispatch (.dispatched event) with
            nemesisTrace := g.nemesisTrace ++ [.clockSkew node offsetNs] } node offsetNs) →
        (∀ node, event.kind = .nemesis (.crash node) →
          rules.crashes { (g.popTurn event queue).countDispatch (.dispatched event) with
            nemesisTrace := g.nemesisTrace ++ [.crash node] } node) →
        (∀ call ∈ turnCalls program g, rules.lets call.before call.op) →
        inv [] (g.popTurn event queue) → inv (turnCalls program g) next) := by
  obtain ⟨queue, popped, within, rfl⟩ := next_shape program g next event turned
  refine ⟨queue, popped, within, ?_⟩
  intro skews crashes lets holds
  simp only [turnCalls, popped, within, Bool.false_eq_true, if_false] at lets ⊢
  unfold dispatchCalls dispatch popTurn at *
  cases kind : event.kind with
  | pollTask task =>
      simp only [kind] at lets holds ⊢
      exact pollTask_keeps keeps program event task lets holds
  | timerFire timer =>
      simp only [kind] at holds
      exact keeps.calm holds (fireTimer_calm { g with queue, now := event.time } event timer)
  | deliverMsg sender receiver msg =>
      simp only [kind] at holds
      exact keeps.calm holds
        (deliverMsg_calm { g with queue, now := event.time } event sender receiver msg)
  | nemesis action =>
      have counted : Calm { g with queue, now := event.time }
          ({ g with queue, now := event.time }.countDispatch (.dispatched event)) :=
        Calm.ofSame rfl rfl rfl rfl rfl rfl rfl rfl
      simp only [kind] at skews crashes holds
      cases action with
      | restart node =>
          simp only [kind] at lets ⊢
          have noted : Calm { g with queue, now := event.time }
              { ({ g with queue, now := event.time }.countDispatch (.dispatched event)) with
                nemesisTrace := g.nemesisTrace ++ [.restart node] } :=
            Calm.ofSame rfl rfl rfl rfl rfl rfl rfl rfl
          exact restartNode_keeps keeps node lets idle (keeps.calm holds noted)
      | crash struck =>
          simp only [dispatchNemesis]
          refine applyNemesis_keeps keeps _ (by simp) ?_ (keeps.calm holds counted)
          rintro _ ⟨⟩
          exact crashes struck rfl
      | clockSkew node offsetNs =>
          simp only [dispatchNemesis]
          refine applyNemesis_keeps keeps _ ?_ (by simp) (keeps.calm holds counted)
          rintro _ _ ⟨⟩
          exact skews node offsetNs rfl
      | bitRot | partition | asymmetricPartition | setLink | healAll | tornWrite | lostOnCrash
      | preFsyncReorder =>
          simp only [dispatchNemesis]
          exact applyNemesis_keeps keeps _ (by simp) (by simp) (keeps.calm holds counted)

end Keeps

/-! Steps are runs. -/

section ClockRuns

variable {rules : ClockRules State Value}

theorem clockRuns_keeps (rules : ClockRules State Value) (start : Inner State Value) :
    Keeps ⟨rules.skews, rules.crashes, rules.Lets⟩ (fun made => ClockRuns rules start made) where
  calm := ClockRuns.calm
  skewed node offsetNs allowed runs := runs.tail (ClockStep.skewed node offsetNs allowed)
  crashed node allowed runs := runs.tail (ClockStep.crashed node allowed)
  discarded gone runs := runs.tail (ClockStep.discarded gone)
  gave chosen task idle runs := runs.tail (ClockStep.gave chosen task (Or.inr (Or.inl idle)))
  released id runs := runs.tail (ClockStep.released id)
  call op lets runs := runs.append (ClockRuns.call op lets (ClockRuns.refl _))

/-- What the rules ask of a public operation. -/
structure OperateLets (rules : ClockRules State Value) (g : Inner State Value)
    (op : WorldOp State Value Plan) : Prop where
  skews : ∀ node offsetNs, op = .setClockSkew node offsetNs →
    rules.skews { g with nemesisTrace := g.nemesisTrace ++ [.clockSkew node offsetNs] } node
      offsetNs
  crashes : ∀ node, op = .crashNode node →
    rules.crashes { g with nemesisTrace := g.nemesisTrace ++ [.crash node] } node
  calls : ∀ call ∈ g.operateCalls op, rules.Lets call.before call.op

theorem operate_runs (nextAction : NextAction Plan) {g : Inner State Value}
    (idle : g.currentTask = none) (op : WorldOp State Value Plan) (lets : OperateLets rules g op) :
    ClockRuns rules g (g.operateCalls op) (g.operate nextAction op).2 :=
  operate_keeps (clockRuns_keeps rules g) nextAction idle op lets.skews lets.crashes lets.calls
    (ClockRuns.refl g)

/-- What the rules ask of a turn that pops `event`. -/
structure TurnLets (rules : ClockRules State Value) (program : Program State Value)
    (g : Inner State Value) (event : Keyed) (queue : EventQueue) : Prop where
  skews : ∀ node offsetNs, event.kind = .nemesis (.clockSkew node offsetNs) →
    rules.skews { (g.popTurn event queue).countDispatch (.dispatched event) with
      nemesisTrace := g.nemesisTrace ++ [.clockSkew node offsetNs] } node offsetNs
  crashes : ∀ node, event.kind = .nemesis (.crash node) →
    rules.crashes { (g.popTurn event queue).countDispatch (.dispatched event) with
      nemesisTrace := g.nemesisTrace ++ [.crash node] } node
  calls : ∀ call ∈ turnCalls program g, rules.Lets call.before call.op

theorem turn_runs (rules : ClockRules State Value) {program : Program State Value}
    {g next : Inner State Value} {event : Keyed} (turned : turn program g = .next event next)
    (idle : g.currentTask = none) :
    ∃ queue, g.queue.pop = some (event, queue) ∧ g.trips event = false ∧
      (TurnLets rules program g event queue →
        ClockRuns rules (g.popTurn event queue) (turnCalls program g) next) := by
  obtain ⟨queue, popped, within, _⟩ := next_shape program g next event turned
  obtain ⟨again, same, _, kept⟩ :=
    turn_keeps (clockRuns_keeps rules (g.popTurn event queue)) turned idle
  cases popped.symm.trans same
  refine ⟨queue, popped, within, ?_⟩
  exact fun lets => kept lets.skews lets.crashes lets.calls (ClockRuns.refl _)

end ClockRuns

end Inner

end Detersim
