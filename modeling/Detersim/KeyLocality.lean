import Detersim.LocalOrders
import Detersim.Models
import Detersim.SequentialHistories

/-!
A history of the key/value store is linearizable exactly when its part on each
key is, provided that every operation takes some time.
-/

namespace Detersim

open OrderSearch IntervalOrder LocalOrders

variable {Key Value : Type}

/-! The operations on one key, as operations of the single-key store. -/

def KvInput.key : KvInput Key Value → Key
  | .get key | .put key _ => key

def KvInput.atKey : KvInput Key Value → SingleKeyInput Value
  | .get _ => .get
  | .put _ value => .put value

def KvOutput.atKey : KvOutput Value → SingleKeyOutput Value
  | .value found => .value found
  | .ok => .ok

def OpRecord.atKey (op : OpRecord (KvInput Key Value) (KvOutput Value)) :
    OpRecord (SingleKeyInput Value) (SingleKeyOutput Value) :=
  { id := op.id, process := op.process, invoke := op.invoke, complete := op.complete
    input := op.input.atKey, output := op.output.map KvOutput.atKey }

variable [LinearOrder Key]

def subHistory (key : Key) (history : History (KvInput Key Value) (KvOutput Value)) :
    History (SingleKeyInput Value) (SingleKeyOutput Value) :=
  (ownedBy (fun op => op.input.key) key history).map OpRecord.atKey

theorem completedOps_subHistory (key : Key)
    (history : History (KvInput Key Value) (KvOutput Value)) :
    completedOps (subHistory key history) = subHistory key (completedOps history) := by
  simp only [completedOps, subHistory, ownedBy, List.filter_map, List.filter_filter]
  congr 2
  funext op
  simp [OpRecord.isComplete, OpRecord.atKey, Bool.and_comm]

variable [DecidableEq Value]

theorem linearizes_iff_legal {State Input Output : Type} [DecidableEq State] [DecidableEq Output]
    (model : Model State Input Output) (history : History Input Output) :
    Linearizes model (completedOps history) ↔
      ∃ order, LegalOrder OpRecord.completesBefore (applyOp model) model.init
        (completedOps history) order :=
  exists_congr fun order => (legalOrder_iff model _ order (completed_observed history)).symm

theorem applies_atKey (initial : SortedMap Key Value) :
    AppliesLocally (fun op => op.input.key) (applyOp (multiKeyKv initial))
      (fun part op => applyOp (singleKeyKv none) part op.atKey) SortedMap.get where
  own state op := by
    obtain ⟨id, process, invoke, complete, input, output⟩ := op
    cases input <;> cases output with
    | none => rfl
    | some output =>
        cases output <;>
          simp [applyOp, multiKeyKv, singleKeyKv, OpRecord.atKey, KvInput.atKey, KvOutput.atKey,
            KvInput.key]
  others state op next applied key other := by
    obtain ⟨observed, _, step⟩ := (applyOp_iff _ state next op).mp applied
    cases shape : op.input with
    | get asked =>
        simp only [multiKeyKv, shape, Option.some.injEq, Prod.mk.injEq] at step
        rw [step.1]
    | put asked value =>
        simp only [multiKeyKv, shape, Option.some.injEq, Prod.mk.injEq] at step
        rw [← step.1]
        simp only [shape, KvInput.key] at other
        exact SortedMap.get_insert_of_ne state value other

theorem linearizes_iff_each_key (initial : SortedMap Key Value)
    (history : History (KvInput Key Value) (KvOutput Value))
    (positive : ∀ op ∈ history, ∀ complete, op.complete = some complete → op.invoke < complete) :
    Linearizes (multiKeyKv initial) (completedOps history) ↔
      ∀ key, Linearizes (singleKeyKv (initial.get key)) (completedOps (subHistory key history)) := by
  rw [linearizes_iff_legal,
    legal_iff (applies_atKey initial) (multiKeyKv initial).init (completed_agrees history)]
  · refine forall_congr' fun key => ?_
    rw [linearizes_iff_legal, completedOps_subHistory, subHistory, exists_legal_map]
    rfl
  · intro op member
    obtain ⟨inside, complete⟩ := List.mem_filter.mp member
    simp only [OpRecord.isComplete, Bool.and_eq_true] at complete
    obtain ⟨time, present⟩ := Option.isSome_iff_exists.mp complete.2
    have later := positive op inside time present
    simpa [OpRecord.invokedAt, OpRecord.returnedAt, present] using UInt64.lt_iff_toNat_lt.mp later

/-- Locality of the key/value store, for conclusive budgets. -/
theorem key_locality (initial : SortedMap Key Value)
    (history : History (KvInput Key Value) (KvOutput Value))
    (positive : ∀ op ∈ history, ∀ complete, op.complete = some complete → op.invoke < complete)
    (budget : CheckBudget) (keyBudget : Key → CheckBudget)
    (conclusive :
      (checkLinearizableWithBudget (multiKeyKv initial) history budget).isInconclusive = false)
    (keyConclusive : ∀ key, (checkLinearizableWithBudget (singleKeyKv (initial.get key))
      (subHistory key history) (keyBudget key)).isInconclusive = false) :
    (checkLinearizableWithBudget (multiKeyKv initial) history budget).isLinearizable = true ↔
      ∀ key, (checkLinearizableWithBudget (singleKeyKv (initial.get key)) (subHistory key history)
        (keyBudget key)).isLinearizable = true := by
  rw [conclusive_iff _ _ _ conclusive, linearizes_iff_each_key initial history positive]
  exact forall_congr' fun key => (conclusive_iff _ _ _ (keyConclusive key)).symm

/-- Two writes and two reads of two keys, interleaved. -/
def twoKeys : History (KvInput Bool Nat) (KvOutput Nat) :=
  [.completed 1 0 (.put false 7) .ok 0 3, .completed 2 1 (.put true 8) .ok 1 4,
    .completed 3 0 (.get true) (.value (some 8)) 3 6,
    .completed 4 1 (.get false) (.value (some 7)) 4 5]

theorem key_locality_two_keys :
    (checkLinearizableWithBudget (multiKeyKv .empty) twoKeys ⟨20⟩).isLinearizable = true ↔
      ∀ key : Bool, (checkLinearizableWithBudget (singleKeyKv none) (subHistory key twoKeys)
        ⟨20⟩).isLinearizable = true := by
  have positive : ∀ op ∈ twoKeys, ∀ complete, op.complete = some complete →
      op.invoke < complete := by
    intro op member complete done
    simp only [twoKeys, List.mem_cons, List.not_mem_nil, or_false] at member
    rcases member with rfl | rfl | rfl | rfl <;> cases done <;> decide
  exact key_locality .empty twoKeys positive ⟨20⟩ (fun _ => ⟨20⟩) (by decide) (by decide)

end Detersim
