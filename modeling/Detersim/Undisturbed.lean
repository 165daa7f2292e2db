import Detersim.Effects
import Detersim.Reachable

/-!
What the updates around program code leave alone: the seed, the generators handed
out so far, the event trace and, but for faults, the storage.
-/

namespace Detersim

namespace Inner

variable {State Value Plan : Type}

structure Silent (g after : Inner State Value) : Prop where
  seed : after.seed = g.seed
  rngCounter : after.rngCounter = g.rngCounter
  trace : after.trace = g.trace

structure Undisturbed (g after : Inner State Value) : Prop extends Silent g after where
  storage : after.storage = g.storage

theorem Silent.refl (g : Inner State Value) : Silent g g := ⟨rfl, rfl, rfl⟩

theorem Silent.trans {first second third : Inner State Value} (left : Silent first second)
    (right : Silent second third) : Silent first third :=
  ⟨right.seed.trans left.seed, right.rngCounter.trans left.rngCounter,
    right.trace.trans left.trace⟩

theorem Undisturbed.refl (g : Inner State Value) : Undisturbed g g := ⟨Silent.refl g, rfl⟩

theorem Undisturbed.trans {first second third : Inner State Value} (left : Undisturbed first second)
    (right : Undisturbed second third) : Undisturbed first third :=
  ⟨left.toSilent.trans right.toSilent, right.storage.trans left.storage⟩

theorem TapeMoved.undisturbed {g after : Inner State Value} (moved : TapeMoved g after) :
    Undisturbed g after := by
  obtain ⟨tape, _, _, rfl⟩ := moved
  exact ⟨⟨rfl, rfl, rfl⟩, rfl⟩

theorem unregisterRecvWaiter_undisturbed (g : Inner State Value) (node : NodeId) (task : TaskId) :
    Undisturbed g (g.unregisterRecvWaiter node task) := by
  unfold unregisterRecvWaiter
  split
  · exact Undisturbed.refl g
  · exact ⟨⟨rfl, rfl, rfl⟩, rfl⟩

theorem dropLeaf_undisturbed (g : Inner State Value) (leaf : Leaf) : Undisturbed g (g.dropLeaf leaf) := by
  unfold dropLeaf
  split
  · exact Undisturbed.refl g
  · exact Undisturbed.refl g
  · exact Undisturbed.refl g
  · exact ⟨⟨rfl, rfl, rfl⟩, rfl⟩
  · exact unregisterRecvWaiter_undisturbed g _ _
  · split
    · exact Undisturbed.refl g
    · exact ⟨⟨rfl, rfl, rfl⟩, rfl⟩

theorem release_undisturbed (g : Inner State Value) (id : FutureId) :
    Undisturbed g (g.release id) := by
  unfold release
  split
  · exact Undisturbed.refl g
  next held _ =>
    exact (dropLeaf_undisturbed g held.leaf).trans ⟨⟨rfl, rfl, rfl⟩, rfl⟩

theorem releases_undisturbed (ids : List FutureId) (g : Inner State Value) :
    Undisturbed g (ids.foldl release g) := by
  induction ids generalizing g with
  | nil => exact Undisturbed.refl g
  | cons id rest ih => exact (release_undisturbed g id).trans (ih (g.release id))

theorem enqueueAll_undisturbed (tasks : List TaskId) (g : Inner State Value) :
    Undisturbed g (tasks.foldl enqueuePollNow g) := by
  obtain ⟨queue, shape⟩ := enqueueAll_shape tasks g
  rw [shape]
  exact ⟨⟨rfl, rfl, rfl⟩, rfl⟩

theorem pollLeaf_undisturbed (g : Inner State Value) (id : FutureId) (held : Held) :
    Undisturbed g (g.pollLeaf id held).2 := by
  have same {after : Inner State Value} (seed : after.seed = g.seed)
      (rngCounter : after.rngCounter = g.rngCounter) (trace : after.trace = g.trace)
      (storage : after.storage = g.storage) : Undisturbed g after := ⟨⟨seed, rngCounter, trace⟩, storage⟩
  unfold pollLeaf
  cases held.leaf with
  | sleep node deadline timer =>
      simp only [pollSleep]
      split
      · cases timer <;> exact same rfl rfl rfl rfl
      · split
        · exact same rfl rfl rfl rfl
        · split <;> exact same rfl rfl rfl rfl
  | recv node registeredTask =>
      simp only [pollRecv]
      split
      next msg rest _ =>
        cases registeredTask with
        | none => exact same rfl rfl rfl rfl
        | some task =>
            have left := unregisterRecvWaiter_undisturbed { g with
              inboxes := g.inboxes.insert node rest
              audit.taken := g.audit.taken ++ [(node, Taking.received id, msg)] } node task
            exact same left.seed left.rngCounter left.trace left.storage
      · split <;> exact same rfl rfl rfl rfl
  | join slot waitingTask =>
      simp only [pollJoin]
      split
      · exact same rfl rfl rfl rfl
      · split_ifs
        · split <;> exact same rfl rfl rfl rfl
        · split <;> exact same rfl rfl rfl rfl

theorem send_undisturbed (g : Inner State Value) (sender receiver : NodeId) (msg : Message)
    (running : sender ∉ g.crashed) : Undisturbed g (g.send sender receiver msg).2 := by
  obtain ⟨moved, move, sent | ⟨time, _, sent⟩ | ⟨time, again, _, _, sent⟩⟩ :=
    send_cases g sender receiver msg running
  all_goals
    have drawn := move.undisturbed
    rw [sent]
    exact ⟨⟨drawn.seed, drawn.rngCounter, drawn.trace⟩, drawn.storage⟩

theorem finishTask_undisturbed (g : Inner State Value) (task : TaskId) (slot : Option SlotId)
    (value : Value) : Undisturbed g (g.finishTask task slot value) := by
  have released := releases_undisturbed (g.ownedBy task) g
  have done {mid : Inner State Value} (reached : Undisturbed g mid) :
      Undisturbed g { mid with currentTask := none, tasks := mid.tasks.remove task } :=
    ⟨⟨reached.seed, reached.rngCounter, reached.trace⟩, reached.storage⟩
  unfold finishTask
  cases slot with
  | none => exact done released
  | some slot =>
      dsimp only
      split
      · exact done released
      next join _ =>
        apply done
        refine Undisturbed.trans ?_ (enqueueAll_undisturbed join.joiners _)
        exact ⟨⟨released.seed, released.rngCounter, released.trace⟩, released.storage⟩

theorem runDraws_undisturbed {Result : Type} (draws : Draws Result) (g : Inner State Value) :
    Undisturbed g (runDraws draws g).2 := by
  induction draws generalizing g with
  | done => exact Undisturbed.refl g
  | draw label next ih =>
      have drawn : Undisturbed g (g.draw (tapeLabelOf label)).2 := ⟨⟨rfl, rfl, rfl⟩, rfl⟩
      exact drawn.trans (ih _ _)

theorem scheduleNemesisPlan_undisturbed (nextAction : NextAction Plan) (maxActions : Nat)
    (plan : Plan) (g : Inner State Value) :
    Undisturbed g (scheduleNemesisPlan nextAction maxActions plan g).2 := by
  induction maxActions generalizing plan g with
  | zero => exact Undisturbed.refl g
  | succ maxActions ih =>
      have drawn := runDraws_undisturbed (nextAction plan g.worldView) g
      rw [scheduleNemesisPlan]
      generalize runDraws (nextAction plan g.worldView) g = result at drawn ⊢
      obtain ⟨⟨_ | entry, plan⟩, after⟩ := result
      · exact drawn
      · have pushed : Undisturbed after (after.pushEvent entry.1 (.nemesis entry.2)) :=
          ⟨⟨rfl, rfl, rfl⟩, rfl⟩
        exact (drawn.trans pushed).trans (ih plan _)

/-! Faults change storage, and nothing else of it. -/

theorem crashNode_silent (g : Inner State Value) (node : NodeId) : Silent g (g.crashNode node) := by
  unfold crashNode
  split_ifs <;> exact ⟨rfl, rfl, rfl⟩

theorem applyNemesis_silent (g : Inner State Value) (action : NemesisAction) :
    Silent g (g.applyNemesis action) := by
  cases action with
  | crash node =>
      have crashed := crashNode_silent { g with nemesisTrace := g.nemesisTrace ++ [.crash node] } node
      exact ⟨crashed.seed, crashed.rngCounter, crashed.trace⟩
  | bitRot node =>
      simp only [applyNemesis]
      split <;> exact ⟨rfl, rfl, rfl⟩
  | partition | asymmetricPartition | setLink | healAll | restart | clockSkew | tornWrite
  | lostOnCrash | preFsyncReorder => exact ⟨rfl, rfl, rfl⟩

end Inner

end Detersim
