import Detersim.Core

/-!
A node's storage device: what the node sees, what would survive, and the writes
since the last flush. Offsets are `u64`; the images are as long as they need to be.
-/

namespace Detersim

/-- `apply_bytes`: zeros fill the gap up to the written range. -/
def applyBytes (target : List UInt8) (offset : UInt64) (data : List UInt8) : List UInt8 :=
  let start := offset.toNat
  let stop := start + data.length
  let resized := target ++ List.replicate (stop - target.length) 0
  resized.take start ++ data ++ resized.drop stop

structure PageStore where
  pending : List UInt8
  committed : List UInt8
  writeLog : List (UInt64 × List UInt8)
  deriving DecidableEq

namespace PageStore

def empty : PageStore := ⟨[], [], []⟩

def writeAt (store : PageStore) (offset : UInt64) (data : List UInt8) (torn : Bool) : PageStore :=
  let dataLen := if torn && decide (1 < data.length) then (data.length + 1) / 2 else data.length
  let written := data.take dataLen
  { store with
    pending := applyBytes store.pending offset written
    writeLog := store.writeLog ++ [(offset, written)] }

/-- The bytes copied to the front of a buffer of length `len`. Slicing an image
from beyond its end panics, also when no byte is to be copied. -/
def readAt (store : PageStore) (offset : UInt64) (len : Nat) : Option (List UInt8) :=
  if store.pending.length < offset.toNat then none
  else some ((store.pending.drop offset.toNat).take len)

def flush (store : PageStore) (preFsyncReorder : Bool) : PageStore :=
  if preFsyncReorder && decide (1 < store.writeLog.length) then
    let committed := store.writeLog.reverse.foldl
      (fun image write => applyBytes image write.1 write.2) store.committed
    ⟨committed, committed, []⟩
  else ⟨store.pending, store.pending, []⟩

def len (store : PageStore) : Nat := store.pending.length

def crashRecover (store : PageStore) (bitRot : Bool) : PageStore :=
  if bitRot then
    let rotten := match store.committed with
      | [] => []
      | first :: rest => (first ^^^ 0x01) :: rest
    ⟨rotten, rotten, []⟩
  else ⟨store.committed, store.committed, []⟩

end PageStore

end Detersim
