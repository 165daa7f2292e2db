import Detersim.Overwrites
import Detersim.PageStore

/-!
The three images of a storage device agree: what the node sees is the committed
image with the write log applied to it. A flush commits that image, or, under the
pre-fsync reorder fault, the one that shows the first write of each byte.
-/

namespace Detersim

open Overwrites

inductive DeviceOp where
  | writeAt (offset : UInt64) (data : List UInt8) (torn : Bool)
  | flush (preFsyncReorder : Bool)
  | crashRecover (bitRot : Bool)

namespace PageStore

def apply (store : PageStore) : DeviceOp → PageStore
  | .writeAt offset data torn => store.writeAt offset data torn
  | .flush preFsyncReorder => store.flush preFsyncReorder
  | .crashRecover bitRot => store.crashRecover bitRot

/-- A device after a sequence of operations on an empty one. -/
def run (ops : List DeviceOp) : PageStore := ops.foldl apply empty

/-- The committed image with the logged writes applied in order. -/
def Layered (store : PageStore) : Prop :=
  store.pending = store.writeLog.foldl (fun image write => applyBytes image write.1 write.2)
    store.committed

def unflushed (store : PageStore) : List (Write UInt8) :=
  store.writeLog.map fun write => ⟨write.1.toNat, write.2⟩

/-- The last logged write that covers the byte, else the committed byte, else zero. -/
def latestByte (store : PageStore) (index : Nat) : UInt8 :=
  (latest store.unflushed index).getD (store.committed.getD index 0)

/-- The same with the first logged write. -/
def earliestByte (store : PageStore) (index : Nat) : UInt8 :=
  (earliest store.unflushed index).getD (store.committed.getD index 0)

/-- The furthest end of the committed image and the logged writes. -/
def extent (store : PageStore) : Nat := reach store.committed.length store.unflushed

theorem layered_apply (store : PageStore) (layered : store.Layered) (op : DeviceOp) :
    (store.apply op).Layered := by
  cases op with
  | writeAt offset data torn =>
      simp only [Layered, apply, writeAt, List.foldl_append, List.foldl_cons, List.foldl_nil] at *
      rw [layered]
  | flush preFsyncReorder =>
      simp only [Layered, apply, flush]
      split_ifs <;> rfl
  | crashRecover bitRot =>
      simp only [Layered, apply, crashRecover]
      split_ifs <;> rfl

theorem layered_run (ops : List DeviceOp) : (run ops).Layered := by
  induction ops using List.reverseRecOn with
  | nil => rfl
  | append_singleton ops op ih =>
      rw [run, List.foldl_append]
      exact layered_apply (run ops) ih op

section Images

variable {store : PageStore}

theorem foldl_applyBytes (image : List UInt8) (log : List (UInt64 × List UInt8)) :
    log.foldl (fun image write => applyBytes image write.1 write.2) image =
      replay 0 image (log.map fun write => ⟨write.1.toNat, write.2⟩) := by
  rw [replay, List.foldl_map]
  rfl

theorem pending_eq (layered : store.Layered) :
    store.pending = picture store.extent store.latestByte := by
  rw [layered, foldl_applyBytes, replay_eq]
  rfl

theorem len_eq (layered : store.Layered) : store.len = store.extent := by
  rw [len, pending_eq layered, picture, List.length_map, List.length_range]

/-- A byte covered at most once shows the same either way. -/
theorem latestByte_eq_earliestByte {index : Nat}
    (once : store.unflushed.countP (fun write => write.covers index) ≤ 1) :
    store.latestByte index = store.earliestByte index := by
  rw [latestByte, earliestByte, latest_eq_earliest once]

theorem committed_plain (layered : store.Layered) :
    (store.flush false).committed = picture store.extent store.latestByte :=
  pending_eq layered

theorem committed_reordered (layered : store.Layered) :
    (store.flush true).committed = picture store.extent store.earliestByte := by
  by_cases several : 1 < store.writeLog.length
  · simp only [flush, Bool.true_and, decide_eq_true several, if_true]
    rw [foldl_applyBytes, List.map_reverse, replay_reverse_eq]
    rfl
  · -- The source commits the pending image, since there is nothing to reorder.
    simp only [flush, Bool.true_and, decide_eq_false several, Bool.false_eq_true, if_false]
    rw [pending_eq layered]
    apply picture_ext
    intro index _
    apply latestByte_eq_earliestByte
    refine List.countP_le_length.trans ?_
    rw [unflushed, List.length_map]
    omega

theorem readAt_eq (layered : store.Layered) (offset : UInt64) (len : Nat) :
    store.readAt offset len =
      if offset.toNat ≤ store.len then
        some (picture (min len (store.len - offset.toNat)) fun index =>
          store.latestByte (offset.toNat + index))
      else none := by
  rw [readAt]
  split_ifs with beyond within within
  · exact absurd beyond (Nat.not_lt_of_le within)
  · rfl
  · have sized := len_eq layered
    congr 1
    rw [pending_eq layered]
    apply List.ext_getElem?
    intro index
    rw [getElem?_picture, List.getElem?_take, List.getElem?_drop, getElem?_picture]
    split_ifs <;> first | rfl | omega
  · exact absurd (Nat.le_of_not_lt beyond) within

end Images

/-- What a node reads and what a plain flush commits is the committed image under
the unflushed writes. -/
structure ShowsLog (store : PageStore) : Prop where
  layered : store.Layered
  /-- A read that begins beyond the end of the device panics. -/
  reads : ∀ offset len, store.readAt offset len =
    if offset.toNat ≤ store.len then
      some (picture (min len (store.len - offset.toNat)) fun index =>
        store.latestByte (offset.toNat + index))
    else none
  durable : store.flush false = ⟨store.pending, store.pending, []⟩ ∧
    store.pending = picture store.len store.latestByte

theorem run_showsLog (ops : List DeviceOp) : (run ops).ShowsLog := by
  have layered := layered_run ops
  refine ⟨layered, readAt_eq layered, rfl, ?_⟩
  rw [len_eq layered]
  exact pending_eq layered

/-- How a reordered flush and a plain one compare. -/
structure ReordersFlush (store : PageStore) : Prop where
  plain : (store.flush false).committed = picture store.extent store.latestByte
  reordered : (store.flush true).committed = picture store.extent store.earliestByte
  disjoint : store.unflushed.Pairwise Write.Disjoint → store.flush true = store.flush false
  overlap : ∀ index, (store.flush true).committed[index]? ≠ (store.flush false).committed[index]? →
    2 ≤ store.unflushed.countP fun write => write.covers index

theorem run_reordersFlush (ops : List DeviceOp) : (run ops).ReordersFlush := by
  have layered := layered_run ops
  have plain := committed_plain layered
  have reordered := committed_reordered layered
  refine ⟨plain, reordered, ?_, ?_⟩
  · intro disjoint
    have same : ((run ops).flush true).committed = ((run ops).flush false).committed := by
      rw [plain, reordered]
      apply picture_ext
      intro index _
      exact (latestByte_eq_earliestByte (countP_covers_le_one disjoint index)).symm
    have both (reorder : Bool) : (run ops).flush reorder =
        ⟨((run ops).flush reorder).committed, ((run ops).flush reorder).committed, []⟩ := by
      rw [flush]
      split_ifs <;> rfl
    rw [both true, both false, same]
  · intro index differs
    by_contra few
    have once := Nat.le_of_lt_succ (Nat.lt_of_not_le few)
    apply differs
    rw [plain, reordered, getElem?_picture, getElem?_picture, latestByte_eq_earliestByte once]

example : ((run [.writeAt 0 [65] false, .writeAt 0 [66] false]).flush true).committed = [65] := by
  decide

end PageStore

end Detersim
