import Detersim.DeviceImages
import Detersim.Undisturbed

/-!
What a world does to the storage of its nodes: in every reachable state each
device went through a sequence of its own operations, starting from empty.
-/

namespace Detersim

namespace Inner

variable {State Value Plan : Type}

/-- One device is operated on, or made. -/
inductive DeviceStep (devices : SortedMap NodeId PageStore) : SortedMap NodeId PageStore → Prop where
  | operated (node : NodeId) (op : DeviceOp) : DeviceStep devices
      (devices.insert node (((devices.get node).getD .empty).apply op))
  | opened (node : NodeId) : DeviceStep devices
      (devices.insert node ((devices.get node).getD .empty))

def DeviceSteps (g after : Inner State Value) : Prop :=
  Relation.ReflTransGen DeviceStep g.storage after.storage

theorem DeviceSteps.same {g after : Inner State Value} (storage : after.storage = g.storage) :
    DeviceSteps g after := by
  rw [DeviceSteps, storage]

theorem DeviceSteps.trans {first second third : Inner State Value}
    (left : DeviceSteps first second) (right : DeviceSteps second third) :
    DeviceSteps first third :=
  Relation.ReflTransGen.trans left right

theorem DeviceSteps.operated {g after : Inner State Value} (node : NodeId) (op : DeviceOp)
    (storage : after.storage =
      g.storage.insert node (((g.storage.get node).getD .empty).apply op)) :
    DeviceSteps g after := by
  rw [DeviceSteps, storage]
  exact Relation.ReflTransGen.single (DeviceStep.operated node op)

/-- Calls operate on the device of the node they are made for. -/
theorem perform_devices (g : Inner State Value) (op : Op State) :
    DeviceSteps g (g.perform op).2 := by
  cases op with
  | record | now | rng | len | sleepUntil | recv | spawn => exact DeviceSteps.same rfl
  | send env receiver msg =>
      apply DeviceSteps.same
      by_cases running : env ∈ g.crashed
      · simp only [perform, send, if_pos running]
      · exact (send_undisturbed g env receiver msg running).storage
  | writeAt env offset data =>
      exact DeviceSteps.operated env
        (.writeAt offset data (decide (env ∈ g.faults.tornWriteNodes))) rfl
  | flush env =>
      exact DeviceSteps.operated env (.flush (decide (env ∈ g.faults.preFsyncReorderNodes))) rfl
  | readAt env offset len =>
      apply DeviceSteps.same
      simp only [perform]
      split
      · rfl
      · split <;> rfl
  | poll id =>
      apply DeviceSteps.same
      simp only [perform]
      split
      · rfl
      next held _ =>
        split_ifs
        · exact (pollLeaf_undisturbed g id held).storage
        · rfl
  | drop id =>
      apply DeviceSteps.same
      simp only [perform]
      split
      · rfl
      · split_ifs
        · exact (release_undisturbed g id).storage
        · rfl

theorem exec_devices {Result : Type} (code : Code State Value Result) (g : Inner State Value) :
    DeviceSteps g (g.exec code).2 := by
  induction code generalizing g with
  | done => exact DeviceSteps.same rfl
  | call op next ih => exact (perform_devices g op).trans (ih _ _)

theorem spawnRegisteredNode_devices (g : Inner State Value) (node : NodeId)
    (factory : NodeFactory State Value) : DeviceSteps g (g.spawnRegisteredNode node factory) :=
  exec_devices (factory node) g

theorem restartNodeOutcome_devices (g : Inner State Value) (node : NodeId) :
    DeviceSteps g (g.restartNodeOutcome node).2 := by
  unfold restartNodeOutcome
  split_ifs
  · split
    · exact DeviceSteps.same rfl
    · exact spawnRegisteredNode_devices { g with crashed := g.crashed.erase node } node _
  · exact DeviceSteps.same rfl
  · exact DeviceSteps.same rfl

theorem crashNode_devices (g : Inner State Value) (node : NodeId) :
    DeviceSteps g (g.crashNode node) := by
  by_cases unknown : node ∉ g.nodes
  · exact DeviceSteps.same (by rw [crashNode, if_pos unknown])
  · simp only [crashNode, if_neg unknown]
    by_cases rolls : node ∈ g.faults.lostOnCrashNodes ∨
        decide (node ∈ g.faults.bitRotNodes) = true
    · exact DeviceSteps.operated node (.crashRecover (decide (node ∈ g.faults.bitRotNodes)))
        (if_pos rolls)
    · exact DeviceSteps.same (if_neg rolls)

theorem applyNemesis_devices (g : Inner State Value) (action : NemesisAction) :
    DeviceSteps g (g.applyNemesis action) := by
  cases action with
  | crash node =>
      exact crashNode_devices { g with nemesisTrace := g.nemesisTrace ++ [.crash node] } node
  | bitRot node =>
      simp only [applyNemesis]
      cases found : g.storage.get node with
      | none => exact DeviceSteps.same rfl
      | some store =>
          apply DeviceSteps.operated node (.crashRecover true)
          rw [found]
          rfl
  | partition | asymmetricPartition | setLink | healAll | restart | clockSkew | tornWrite
  | lostOnCrash | preFsyncReorder => exact DeviceSteps.same rfl

theorem dispatch_devices (program : Program State Value) (g : Inner State Value) (event : Keyed) :
    DeviceSteps g (dispatch program g event) := by
  unfold dispatch
  split
  next timer _ =>
    apply DeviceSteps.same
    unfold fireTimer
    split <;> rfl
  next sender receiver msg _ =>
    apply DeviceSteps.same
    unfold deliverMsg
    split_ifs
    · rfl
    · rfl
    · have moved := (drawPercent_moves g g.faults.dropPercent .dropDecision).undisturbed.storage
      generalize g.drawPercent g.faults.dropPercent .dropDecision = drawn at moved ⊢
      obtain ⟨lost, mid⟩ := drawn
      cases lost with
      | true => exact moved
      | false => exact (enqueueAll_undisturbed _ _).storage.trans moved
    · rfl
  next action _ =>
    unfold dispatchNemesis
    dsimp only
    split
    next node _ =>
      exact restartNodeOutcome_devices
        { g.countDispatch (.dispatched event) with
          nemesisTrace := g.nemesisTrace ++ [.restart node] } node
    next => exact applyNemesis_devices (g.countDispatch (.dispatched event)) action
  next task _ =>
    unfold pollTask
    split
    · exact DeviceSteps.same rfl
    next slot _ =>
      split
      · exact DeviceSteps.same rfl
      next future _ =>
        dsimp only
        split_ifs
        · exact DeviceSteps.same rfl
        · have ran := exec_devices (program future.state)
            (({ g with tasks := g.tasks.insert task { slot with future := none } }.countDispatch
              (.dispatched event)).beginPoll task)
          split
          next state after shape =>
            rw [shape] at ran
            exact ran
          next value after shape =>
            rw [shape] at ran
            exact ran.trans (DeviceSteps.same
              (finishTask_undisturbed after task future.slot value).storage)

theorem operate_devices (nextAction : NextAction Plan) (g : Inner State Value)
    (op : WorldOp State Value Plan) : DeviceSteps g (g.operate nextAction op).2 := by
  cases op with
  | addNode node factory =>
      simp only [operate, addNode]
      split_ifs
      · exact DeviceSteps.same rfl
      · refine Relation.ReflTransGen.head (DeviceStep.opened node) ?_
        exact exec_devices (factory node) { g with
          nodes := insert node g.nodes
          faults.connectivity := g.faults.connectivity.addNode node
          inboxes := g.inboxes.insert node ((g.inboxes.get node).getD [])
          storage := g.storage.insert node ((g.storage.get node).getD .empty)
          factories := g.factories.insert node factory }
  | scheduleNemesis | setDropPercent | setDuplicatePercent | setExtraDelayMs =>
      exact DeviceSteps.same rfl
  | scheduleNemesisPlan plan maxActions =>
      exact DeviceSteps.same (scheduleNemesisPlan_undisturbed nextAction maxActions plan g).storage
  | partition groups => exact applyNemesis_devices g (.partition groups)
  | healAll => exact applyNemesis_devices g .healAll
  | setClockSkew node offsetNs => exact applyNemesis_devices g (.clockSkew node offsetNs)
  | crashNode node => exact applyNemesis_devices g (.crash node)
  | restartNode node => exact restartNodeOutcome_devices g node
  | restartNodeOutcome node => exact restartNodeOutcome_devices g node
  | useEnv code =>
      exact (exec_devices code g).trans (DeviceSteps.same (releases_undisturbed _ _).storage)

/-- A property of every device that its operations keep. -/
theorem devices_keep (good : PageStore → Prop) (fresh : good .empty)
    (kept : ∀ store op, good store → good (store.apply op)) {g after : Inner State Value}
    (steps : DeviceSteps g after) (holds : ∀ node store, g.storage.get node = some store → good store) :
    ∀ node store, after.storage.get node = some store → good store := by
  unfold DeviceSteps at steps
  generalize g.storage = before at steps holds
  generalize after.storage = later at steps
  induction steps with
  | refl => exact holds
  | tail _ step ih =>
      rename_i middle last _
      have current (node : NodeId) : good ((middle.get node).getD .empty) := by
        cases found : middle.get node with
        | none => exact fresh
        | some store => exact ih node store found
      cases step with
      | operated changed op =>
          intro node store found
          rw [SortedMap.get_insert] at found
          split_ifs at found
          · cases found
            exact kept _ op (current changed)
          · exact ih node store found
      | opened changed =>
          intro node store found
          rw [SortedMap.get_insert] at found
          split_ifs at found
          · cases found
            exact current changed
          · exact ih node store found

/-- Every device of a reachable world went through a sequence of its own operations. -/
theorem reachable_devices {program : Program State Value} {nextAction : NextAction Plan}
    {g : Inner State Value} (reachable : Reachable program nextAction g) (node : NodeId)
    (store : PageStore) (found : g.storage.get node = some store) :
    ∃ ops, store = PageStore.run ops := by
  let good (store : PageStore) : Prop := ∃ ops, store = PageStore.run ops
  have kept (store : PageStore) (op : DeviceOp) (was : good store) : good (store.apply op) := by
    obtain ⟨ops, rfl⟩ := was
    exact ⟨ops ++ [op], by rw [PageStore.run, PageStore.run, List.foldl_append]; rfl⟩
  have step {g after : Inner State Value} (steps : DeviceSteps g after) :=
    devices_keep good ⟨[], rfl⟩ kept steps
  revert node store
  induction reachable with
  | generate | replay =>
      intro node store found
      cases found
  | operate op _ ih => exact step (operate_devices nextAction _ op) ih
  | turn _ turned ih =>
      obtain ⟨queue, _, _, rfl⟩ := next_shape program _ _ _ turned
      exact step (dispatch_devices program _ _) ih
  | abort _ aborted ih =>
      obtain ⟨queue, _, _, rfl⟩ := abort_shape program _ _ _ aborted
      split_ifs
      · exact ih
      · exact ih

end Inner

end Detersim
