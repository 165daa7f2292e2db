import Detersim.StorageDurability
import Detersim.StorageRuns

/-!
Reads of a node's storage, and the bit-rot fault applied to it while the node is
running. A read goes wrong only where it begins beyond the end of the device. The
fault runs the recovery of a crash, which drops what was not flushed.
-/

namespace Detersim

/-- `PageStore::read_at`: the count, and the caller's buffer afterwards. The slice
`pending[start..start + n]` panics when its end lies outside. -/
def PageStore.readInto (store : PageStore) (offset : UInt64) (out : List UInt8) :
    Option (Nat × List UInt8) :=
  let start := offset.toNat
  let avail := store.pending.length - start
  let n := min out.length avail
  if store.pending.length < start + n then none
  else some (n, (store.pending.drop start).take n ++ out.drop n)

namespace Inner

variable {State Value Plan : Type}

/-- `SimStorage::read_at`. -/
def readStorage (g : Inner State Value) (node : NodeId) (offset : UInt64) (out : List UInt8) :
    Option (Nat × List UInt8) :=
  match g.storage.get node with
  | none => some (0, out)
  | some store => store.readInto offset out

/-- The call of a program is this read, and changes nothing. -/
theorem perform_readAt (g : Inner State Value) (node : NodeId) (offset : UInt64)
    (out : List UInt8) :
    g.perform (.readAt node offset out.length) =
      (match g.readStorage node offset out with
        | none => .panicked
        | some (n, filled) => .bytes (filled.take n), g) := by
  simp only [perform, readStorage]
  cases g.storage.get node with
  | none => rfl
  | some store =>
      simp only [PageStore.readAt, PageStore.readInto]
      by_cases beyond : store.pending.length < offset.toNat
      · rw [if_pos beyond, if_pos (Nat.lt_of_lt_of_le beyond (Nat.le_add_right _ _))]
      · have within : ¬store.pending.length <
            offset.toNat + min out.length (store.pending.length - offset.toNat) := by omega
        rw [if_neg beyond, if_neg within]
        have count : ((store.pending.drop offset.toNat).take
            (min out.length (store.pending.length - offset.toNat))).length =
            min out.length (store.pending.length - offset.toNat) := by
          rw [List.length_take, List.length_drop]
          omega
        have filled : (store.pending.drop offset.toNat).take out.length =
            (store.pending.drop offset.toNat).take
              (min out.length (store.pending.length - offset.toNat)) := by
          rw [← List.length_drop, List.take_eq_take_min]
        dsimp only
        rw [List.take_left' count, filled]

/-- The read returns the bytes there are from the offset on, as far as they fit,
and the buffer beyond them is as it was. -/
def ReadsExactly (g : Inner State Value) (node : NodeId) (offset : UInt64) (out : List UInt8) :
    Prop :=
  ∃ filled, g.readStorage node offset out =
      some (min out.length ((g.content node).length - offset.toNat), filled) ∧
    filled.length = out.length ∧
    (∀ index < min out.length ((g.content node).length - offset.toNat),
      filled[index]? = (g.content node)[offset.toNat + index]?) ∧
    ∀ index ≥ min out.length ((g.content node).length - offset.toNat),
      filled[index]? = out[index]?

/-- Nothing changes, and the read is right unless it begins beyond the end of an
existing device. -/
theorem reads_exactly_iff (g : Inner State Value) (node : NodeId) (offset : UInt64)
    (out : List UInt8) :
    (g.ReadsExactly node offset out ↔
      g.storage.get node = none ∨ offset.toNat ≤ (g.content node).length) ∧
    (g.perform (.readAt node offset out.length)).2 = g := by
  refine ⟨?_, by rw [perform_readAt]⟩
  unfold ReadsExactly readStorage content device
  cases found : g.storage.get node with
  | none => simp [PageStore.empty]
  | some store =>
      simp only [reduceCtorEq, false_or, Option.getD_some, PageStore.readInto]
      constructor
      · rintro ⟨filled, read, _⟩
        split_ifs at read with outside
        omega
      · intro within
        rw [if_neg (by omega)]
        have count : ((store.pending.drop offset.toNat).take
            (min out.length (store.pending.length - offset.toNat))).length =
            min out.length (store.pending.length - offset.toNat) := by
          rw [List.length_take, List.length_drop]
          omega
        refine ⟨_, rfl, ?_, ?_, ?_⟩
        · rw [List.length_append, count, List.length_drop]
          omega
        · intro index inside
          rw [List.getElem?_append_left (by rwa [count]), List.getElem?_take_of_lt inside,
            List.getElem?_drop]
        · intro index outside
          rw [List.getElem?_append_right (by rwa [count]), count, List.getElem?_drop]
          congr 1
          omega

/-- A world with one node whose device is empty. -/
def freshWorld : Inner Unit Unit :=
  ((replay 0 [] {}).operate noPlans (.addNode 0 fun _ => .done ())).2

theorem freshWorld_reachable : Reachable scribble noPlans freshWorld :=
  Reachable.operate (.addNode 0 fun _ => .done ()) (Reachable.replay 0 [] {})

/-- Reading one byte past its end panics. -/
theorem fresh_read_panics :
    Reachable scribble noPlans freshWorld ∧ freshWorld.readStorage 0 1 [0] = none ∧
      (freshWorld.perform (.readAt 0 1 1)).1 = .panicked ∧ ¬freshWorld.ReadsExactly 0 1 [0] := by
  refine ⟨freshWorld_reachable, by decide, ?_, ?_⟩
  · rfl
  · rintro ⟨filled, read, _⟩
    exact absurd read (by
      have none_ : freshWorld.readStorage 0 1 [0] = none := by decide
      rw [none_]
      exact Option.some_ne_none _ ∘ Eq.symm)

/-! Bit rot. -/

/-- The images are as long, and at most one bit of them differs. -/
def FlipsAtMostOneBit (before after : List UInt8) : Prop :=
  after = before ∨ ∃ (index : Nat) (byte bit : UInt8), before[index]? = some byte ∧ bit < 8 ∧
    after = before.set index (byte ^^^ (1 <<< bit))

theorem rot_flips (image : List UInt8) : FlipsAtMostOneBit image (rot image) := by
  cases image with
  | nil => exact Or.inl rfl
  | cons first rest => exact Or.inr ⟨0, first, 0, rfl, by decide, rfl⟩

/-- The bit-rot fault changes at most one bit of what the node reads, and of what
its next flush makes durable; its unflushed writes are still there, and nothing
else changes. -/
structure OnlyRots (g : Inner State Value) (node : NodeId) : Prop where
  shows : FlipsAtMostOneBit (g.content node) ((g.applyNemesis (.bitRot node)).content node)
  unflushed : ((g.applyNemesis (.bitRot node)).device node).writeLog = (g.device node).writeLog
  durable : FlipsAtMostOneBit ((g.perform (.flush node)).2.device node).committed
    (((g.applyNemesis (.bitRot node)).perform (.flush node)).2.device node).committed
  others : ∀ other, other ≠ node → (g.applyNemesis (.bitRot node)).device other = g.device other
  rest : g.applyNemesis (.bitRot node) = { g with
    nemesisTrace := g.nemesisTrace ++ [.bitRot node]
    storage := (g.applyNemesis (.bitRot node)).storage }

theorem bitRot_rest (g : Inner State Value) (node : NodeId) :
    (∀ other, other ≠ node → (g.applyNemesis (.bitRot node)).device other = g.device other) ∧
      g.applyNemesis (.bitRot node) = { g with
        nemesisTrace := g.nemesisTrace ++ [.bitRot node]
        storage := (g.applyNemesis (.bitRot node)).storage } := by
  simp only [applyNemesis]
  cases g.storage.get node with
  | none => exact ⟨fun _ _ => rfl, rfl⟩
  | some store =>
      refine ⟨fun other different => ?_, rfl⟩
      simp only [device, SortedMap.get_insert_of_ne _ _ different]

theorem reachable_layered {program : Program State Value} {nextAction : NextAction Plan}
    {g : Inner State Value} (reachable : Reachable program nextAction g) (node : NodeId) :
    (g.device node).Layered := by
  unfold device
  cases found : g.storage.get node with
  | none => rfl
  | some store =>
      obtain ⟨ops, rfl⟩ := reachable_devices reachable node store found
      exact PageStore.layered_run ops

/-- Bit rot is only that exactly when there is nothing unflushed: the node always
reads the committed image afterwards, with one bit flipped. -/
theorem rots_only_iff (program : Program State Value) (nextAction : NextAction Plan)
    (g : Inner State Value) (reachable : Reachable program nextAction g) (node : NodeId) :
    (g.OnlyRots node ↔ (g.device node).writeLog = []) ∧
      (g.applyNemesis (.bitRot node)).content node = rot (g.device node).committed := by
  have rotten := device_bitRot g node
  refine ⟨⟨?_, ?_⟩, by rw [content, rotten]⟩
  · intro only
    rw [← only.unflushed, rotten]
  · intro flushed
    have layered := reachable_layered reachable node
    have shown : (g.device node).committed = g.content node := by
      rw [content, layered, flushed]
      rfl
    obtain ⟨others, rest⟩ := bitRot_rest g node
    -- With an empty log a flush commits what the node reads, whatever faults are on.
    have commits (reorder : Bool) (image : List UInt8) :
        (PageStore.flush ⟨image, (g.device node).committed, []⟩ reorder).committed = image := by
      simp [PageStore.flush]
    have reads : (g.applyNemesis (.bitRot node)).content node = rot (g.content node) := by
      rw [← shown, content, rotten]
    refine ⟨?_, ?_, ?_, others, rest⟩
    · rw [reads]
      exact rot_flips _
    · rw [rotten, flushed]
    · have before : g.device node = ⟨g.content node, (g.device node).committed, []⟩ := by
        rw [← flushed]
        rfl
      rw [device_flush, device_flush, rotten, before, commits, shown]
      simpa [PageStore.flush] using rot_flips (g.content node)

/-- The unflushed byte is gone right after the fault. -/
theorem scribble_rots_away :
    Reachable scribble noPlans scribbleWorld ∧ 0 ∈ scribbleWorld.nodes ∧
      0 ∉ scribbleWorld.crashed ∧ scribbleWorld.content 0 = [7] ∧
      (scribbleWorld.applyNemesis (.bitRot 0)).content 0 = [] ∧ ¬scribbleWorld.OnlyRots 0 := by
  have before : scribbleWorld.content 0 = [7] := by decide
  have after : (scribbleWorld.applyNemesis (.bitRot 0)).content 0 = [] := by decide
  refine ⟨scribbleWorld_reachable, by decide, by decide, before, after, ?_⟩
  intro only
  have shows := only.shows
  rw [before, after] at shows
  rcases shows with same | ⟨index, byte, bit, _, _, same⟩
  · cases same
  · have length := congrArg List.length same
    simp at length

theorem scribble_rots_iff :
    (scribbleWorld.OnlyRots 0 ↔ (scribbleWorld.device 0).writeLog = []) ∧
      (scribbleWorld.applyNemesis (.bitRot 0)).content 0 = rot (scribbleWorld.device 0).committed :=
  rots_only_iff scribble noPlans scribbleWorld scribbleWorld_reachable 0

end Inner

end Detersim
