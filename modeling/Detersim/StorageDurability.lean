import Detersim.CrashIsolation

/-!
What a node's storage holds after the node crashed. The content as of the last
flush is followed through every call and fault by `DeviceRun`, apart from the
images the device itself keeps. A crash goes back to it when the node's storage
is one that loses its unflushed writes, and otherwise leaves the device alone.
-/

namespace Detersim

/-- Bit rot flips one bit of the first byte. -/
def rot : List UInt8 → List UInt8
  | [] => []
  | first :: rest => (first ^^^ 0x01) :: rest

namespace Inner

variable {State Value Plan : Type}

def device (g : Inner State Value) (node : NodeId) : PageStore :=
  (g.storage.get node).getD .empty

/-- What the node reads. -/
def content (g : Inner State Value) (node : NodeId) : List UInt8 := (g.device node).pending

/-- A crash of `node` rolls its storage back. -/
def RollsBack (g : Inner State Value) (node : NodeId) : Prop :=
  node ∈ g.faults.lostOnCrashNodes ∨ node ∈ g.faults.bitRotNodes

/-- The flushed content after a crash, with the bit rot it may bring. -/
def survivor (g : Inner State Value) (node : NodeId) (durable : List UInt8) : List UInt8 :=
  if node ∈ g.faults.bitRotNodes then rot durable else durable

/-- The content as of the last flush, and the writes since then. Whatever else
happens to the world may happen in between. -/
inductive DeviceRun (node : NodeId) :
    Inner State Value → List UInt8 → List (UInt64 × List UInt8) → Prop where
  | fresh {g} (empty : g.device node = .empty) : DeviceRun node g [] []
  | wrote {g durable unflushed} (offset data) : DeviceRun node g durable unflushed →
      DeviceRun node (g.perform (.writeAt node offset data)).2 durable
        (unflushed ++ [(offset, data)])
  | flushed {g durable unflushed} : DeviceRun node g durable unflushed →
      DeviceRun node (g.perform (.flush node)).2 ((g.perform (.flush node)).2.content node) []
  | rotted {g durable unflushed} : DeviceRun node g durable unflushed →
      DeviceRun node (g.applyNemesis (.bitRot node)) (rot durable) []
  | lost {g durable unflushed} : DeviceRun node g durable unflushed → node ∈ g.nodes →
      g.RollsBack node → DeviceRun node (g.crashNode node) (g.survivor node durable) []
  | elsewhere {g after durable unflushed} : DeviceRun node g durable unflushed →
      after.device node = g.device node → DeviceRun node after durable unflushed

section Devices

variable {node : NodeId} {g : Inner State Value}

@[simp] theorem device_writeAt (g : Inner State Value) (node : NodeId) (offset : UInt64)
    (data : List UInt8) : (g.perform (.writeAt node offset data)).2.device node =
      (g.device node).writeAt offset data (decide (node ∈ g.faults.tornWriteNodes)) := by
  simp [perform, device]

@[simp] theorem device_flush (g : Inner State Value) (node : NodeId) :
    (g.perform (.flush node)).2.device node =
      (g.device node).flush (decide (node ∈ g.faults.preFsyncReorderNodes)) := by
  simp [perform, device]

theorem crashRecover_eq (store : PageStore) (bitRot : Bool) :
    store.crashRecover bitRot =
      ⟨if bitRot then rot store.committed else store.committed,
        if bitRot then rot store.committed else store.committed, []⟩ := by
  unfold PageStore.crashRecover
  cases store.committed <;> cases bitRot <;> rfl

theorem device_bitRot (g : Inner State Value) (node : NodeId) :
    (g.applyNemesis (.bitRot node)).device node =
      ⟨rot (g.device node).committed, rot (g.device node).committed, []⟩ := by
  simp only [applyNemesis]
  cases found : g.storage.get node with
  | none => simp [device, found, PageStore.empty, rot]
  | some store => simp [device, found, crashRecover_eq]

theorem device_crash (registered : node ∈ g.nodes) :
    (RollsBack g node → (g.crashNode node).device node =
      ⟨g.survivor node (g.device node).committed, g.survivor node (g.device node).committed, []⟩) ∧
    (¬RollsBack g node → (g.crashNode node).device node = g.device node) := by
  simp only [crashNode, if_neg (not_not.mpr registered), RollsBack, device, discard,
    decide_eq_true_eq]
  constructor
  · intro rolls
    rw [if_pos rolls, SortedMap.get_insert_self, Option.getD_some, crashRecover_eq]
    simp only [survivor, decide_eq_true_eq]
  · intro keeps
    rw [if_neg keeps]

/-- The committed image is the content as of the last flush, and the log the writes since. -/
theorem deviceRun_images {durable : List UInt8} {unflushed : List (UInt64 × List UInt8)}
    (ran : DeviceRun node g durable unflushed) :
    (g.device node).committed = durable ∧
      (g.device node).writeLog.length = unflushed.length ∧
      (unflushed = [] → (g.device node).pending = durable) := by
  induction ran with
  | fresh empty => simp [empty, PageStore.empty]
  | wrote offset data _ ih =>
      obtain ⟨committed, log, _⟩ := ih
      rw [device_writeAt]
      refine ⟨committed, ?_, ?_⟩
      · simp [PageStore.writeAt, log]
      · intro none_
        simp at none_
  | flushed =>
      simp only [content, device_flush, PageStore.flush]
      split_ifs <;> simp
  | rotted _ ih =>
      rw [device_bitRot, ih.1]
      simp
  | lost _ registered rolls ih =>
      rw [(device_crash registered).1 rolls, ih.1]
      simp
  | elsewhere _ same ih => rwa [same]

end Devices

/-- After a crash the node reads what it had flushed, and nothing it wrote later
is left in its storage. -/
structure OnlyFlushedSurvives (g : Inner State Value) (node : NodeId) (durable : List UInt8)
    (later : Inner State Value) : Prop where
  shows : later.content node = g.survivor node durable
  image : (later.device node).committed = g.survivor node durable
  gone : (later.device node).writeLog = []

/-- The state right after a crash, and the one a restart runs the node's factory in. -/
def AfterCrash (node : NodeId) (after later : Inner State Value) : Prop :=
  later = after ∨ later = { after with crashed := after.crashed.erase node }

theorem AfterCrash.device {node : NodeId} {after later : Inner State Value}
    (follows : AfterCrash node after later) : later.device node = after.device node := by
  rcases follows with rfl | rfl <;> rfl

/-- Unflushed writes are lost exactly when the fault that loses them is on, or
there are none. What the node reads may also be right because the unflushed
writes changed nothing. -/
theorem flushed_survives_iff (program : Program State Value) (nextAction : NextAction Plan)
    (node : NodeId) (g after later : Inner State Value) (cause : Option Keyed)
    (durable : List UInt8) (unflushed : List (UInt64 × List UInt8))
    (ran : DeviceRun node g durable unflushed) (registered : node ∈ g.nodes)
    (crash : CrashStep program nextAction g node cause after)
    (follows : AfterCrash node after later) :
    (OnlyFlushedSurvives g node durable later ↔ g.RollsBack node ∨ unflushed = []) ∧
      (later.content node = g.survivor node durable ↔
        g.RollsBack node ∨ g.content node = durable) := by
  obtain ⟨committed, log, settled⟩ := deviceRun_images ran
  obtain ⟨queue, now, trace, dispatched, nemesisTrace, rfl, _, _⟩ := crash_shape crash
  have stores := device_crash
    (g := { g with queue, now, trace, dispatched, nemesisTrace }) registered
  rw [← follows.device] at stores
  have keeps (mild : ¬g.RollsBack node) : g.survivor node durable = durable :=
    if_neg fun rotten => mild (Or.inr rotten)
  by_cases rolls : g.RollsBack node
  · have store := stores.1 rolls
    have shown : later.device node =
        ⟨g.survivor node durable, g.survivor node durable, []⟩ := committed ▸ store
    simp only [rolls, true_or, iff_true]
    exact ⟨⟨congrArg PageStore.pending shown, congrArg PageStore.committed shown,
      congrArg PageStore.writeLog shown⟩, congrArg PageStore.pending shown⟩
  · -- Without either fault the source leaves the device alone, unflushed writes included.
    have store : later.device node = g.device node := stores.2 rolls
    have same : later.content node = g.content node := congrArg PageStore.pending store
    simp only [rolls, false_or, same, keeps rolls, and_true]
    constructor
    · intro survives
      have gone := survives.gone
      rw [store] at gone
      rw [gone] at log
      exact List.length_eq_zero_iff.mp log.symm
    · rintro rfl
      have empty : (g.device node).writeLog = [] := List.length_eq_zero_iff.mp log
      exact ⟨by rw [same, keeps rolls]; exact settled rfl, by rw [store, keeps rolls, committed],
        by rw [store, empty]⟩

/-- A node that writes a byte and never flushes it. -/
def scribble : Program Unit Unit := fun _ =>
  .call (.writeAt 0 0 [7]) fun _ => .done (.ready ())

def scribbleWorld : Inner Unit Unit :=
  advance scribble 1 ((replay 0 [] {}).operate noPlans (.addNode 0 fun _ => .done ())).2

theorem scribbleWorld_wrote : DeviceRun 0 scribbleWorld [] [(0, [7])] := by
  have wrote : DeviceRun 0 ((replay 0 [] {} : Inner Unit Unit).perform (.writeAt 0 0 [7])).2 []
      ([] ++ [(0, [7])]) := DeviceRun.wrote 0 [7] (DeviceRun.fresh rfl)
  exact DeviceRun.elsewhere wrote rfl

theorem scribbleWorld_reachable : Reachable scribble noPlans scribbleWorld :=
  Reachable.turn
    (Reachable.operate (.addNode 0 fun _ => .done ()) (Reachable.replay 0 [] {})) rfl

/-- The byte is still there when the node comes back. -/
theorem scribble_survives_crash :
    Reachable scribble noPlans scribbleWorld ∧ DeviceRun 0 scribbleWorld [] [(0, [7])] ∧
      (scribbleWorld.operate noPlans (.crashNode 0)).2.content 0 = [7] ∧
      ((scribbleWorld.operate noPlans (.crashNode 0)).2.operate noPlans
        (.restartNode 0)).2.content 0 = [7] ∧
      ¬OnlyFlushedSurvives scribbleWorld 0 [] (scribbleWorld.operate noPlans (.crashNode 0)).2 := by
  refine ⟨scribbleWorld_reachable, scribbleWorld_wrote, by decide, by decide, ?_⟩
  intro survives
  exact absurd survives.shows (by decide)

theorem scribble_survives_iff :
    (OnlyFlushedSurvives scribbleWorld 0 [] (scribbleWorld.operate noPlans (.crashNode 0)).2 ↔
      scribbleWorld.RollsBack 0 ∨ [((0 : UInt64), [(7 : UInt8)])] = []) ∧
      ((scribbleWorld.operate noPlans (.crashNode 0)).2.content 0 = scribbleWorld.survivor 0 [] ↔
        scribbleWorld.RollsBack 0 ∨ scribbleWorld.content 0 = []) :=
  flushed_survives_iff scribble noPlans 0 scribbleWorld _ _ none [] [(0, [7])] scribbleWorld_wrote
    (by decide) .operated (Or.inl rfl)

end Inner

end Detersim
