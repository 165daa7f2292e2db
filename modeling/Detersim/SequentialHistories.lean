import Detersim.IntervalOrder
import Detersim.PendingOperations
import Detersim.TxnChecker

/-!
Operations run one after the other. Both checkers compare a completion with an
invocation by `<=`, so two operations that take no time at one instant are made
predecessors of each other, and neither can be placed first.
-/

namespace Detersim

open OrderSearch IntervalOrder

variable {State Input Output Key Value : Type} [LinearOrder Key] [DecidableEq Value]

def OpRecord.invokedAt (op : OpRecord Input Output) : Nat := op.invoke.toNat

/-- The completion time; an operation without one is not looked at. -/
def OpRecord.returnedAt (op : OpRecord Input Output) : Nat := (op.complete.getD op.invoke).toNat

def TxnOpRecord.invokedAt (txn : TxnOpRecord Key Value) : Nat := txn.invoke.toNat

def TxnOpRecord.returnedAt (txn : TxnOpRecord Key Value) : Nat :=
  (txn.complete.getD txn.invoke).toNat

theorem completed_agrees (history : History Input Output) :
    Agrees OpRecord.completesBefore OpRecord.invokedAt OpRecord.returnedAt
      (completedOps history) := by
  intro left member right _
  have complete := (List.mem_filter.mp member).2
  simp only [OpRecord.isComplete, Bool.and_eq_true] at complete
  obtain ⟨time, present⟩ := Option.isSome_iff_exists.mp complete.2
  simp [OpRecord.completesBefore, OpRecord.returnedAt, OpRecord.invokedAt, present,
    UInt64.le_iff_toNat_le]

omit [LinearOrder Key] [DecidableEq Value] in
theorem committed_agrees (history : TxnHistory Key Value) :
    Agrees TxnOpRecord.completesBefore TxnOpRecord.invokedAt TxnOpRecord.returnedAt
      (committedTxns history) := by
  intro left member right _
  have complete := (List.mem_filter.mp member).2
  rw [Bool.and_eq_true] at complete
  obtain ⟨time, present⟩ := Option.isSome_iff_exists.mp complete.2
  simp [TxnOpRecord.completesBefore, TxnOpRecord.returnedAt, TxnOpRecord.invokedAt, present,
    UInt64.le_iff_toNat_le]

/-- Two completed operations take no time, at one instant. -/
def InstantTie (history : History Input Output) : Prop :=
  Coincide OpRecord.invokedAt OpRecord.returnedAt (completedOps history)

def TxnInstantTie (history : TxnHistory Key Value) : Prop :=
  Coincide TxnOpRecord.invokedAt TxnOpRecord.returnedAt (committedTxns history)

theorem eventually_linearizable_iff [DecidableEq State] [DecidableEq Output]
    (model : Model State Input Output) (history : History Input Output) :
    (∃ enough, ∀ budget : CheckBudget, enough ≤ budget.maxSteps →
      (checkLinearizableWithBudget model history budget).isLinearizable = true) ↔
      Linearizes model (completedOps history) := by
  obtain ⟨ample, conclusive⟩ := runSearch_eventually_conclusive model (completedOps history)
  constructor
  · rintro ⟨enough, accepted⟩
    have verdict := accepted ⟨enough⟩ le_rfl
    cases shape : checkLinearizableWithBudget model history ⟨enough⟩ with
    | linearizable order =>
        obtain ⟨ops, legal, _⟩ := linearizable_sound model history _ order shape
        exact ⟨ops, legal⟩
    | notLinearizable => simp [shape, LinearizabilityResult.isLinearizable] at verdict
    | inconclusive => simp [shape, LinearizabilityResult.isLinearizable] at verdict
  · intro linearizes
    refine ⟨ample, ?_⟩
    intro budget large
    rcases verdict_cases model history budget with
      ⟨gaveUp, _⟩ | ⟨_, _, verdict⟩ | ⟨_, _, verdict⟩
    · rw [conclusive budget.maxSteps large] at gaveUp
      cases gaveUp
    · rw [verdict]
      rfl
    · exact absurd linearizes (notLinearizable_sound model history budget verdict)

theorem eventually_serializable_iff (initial : SortedMap Key Value)
    (history : TxnHistory Key Value) :
    (∃ enough, ∀ budget : CheckBudget, enough ≤ budget.maxSteps →
      (checkSerializable initial history budget).isSerializable = true) ↔
      ∃ order, LegalOrder TxnOpRecord.completesBefore applyTxn initial
        (committedTxns history) order := by
  constructor
  · rintro ⟨enough, accepted⟩
    obtain ⟨path, after, searched, settled, gaveUp⟩ :=
      checkSerializable_searches initial history ⟨enough⟩
    have verdict := accepted ⟨enough⟩ le_rfl
    cases quiet : after.inconclusive with
    | true =>
        rw [gaveUp quiet] at verdict
        cases verdict
    | false =>
        obtain ⟨labels, rfl⟩ := Option.isSome_iff_exists.mp ((settled quiet).symm.trans verdict)
        exact ⟨labels.map Prod.fst, search_sound searched⟩
  · rintro ⟨order, legal⟩
    obtain ⟨enough, ample⟩ := ample_limit TxnOpRecord.completesBefore applyTxn initial
      (committedTxns history) (committedTxns history).length
    refine ⟨enough, ?_⟩
    intro budget large
    obtain ⟨path, after, searched, settled, _⟩ :=
      checkSerializable_searches initial history budget
    have quiet := search_conclusive _ _ (fun _ out => out) (ample _ large) searched
    rw [settled quiet]
    cases path with
    | none => exact absurd legal (search_complete searched quiet order)
    | some labels => rfl

/-- Completed operations in list order, each beginning when the one before it
has returned, with the outputs the model gives along that list. -/
structure RunsInOrder (model : Model State Input Output) (history : History Input Output) :
    Prop where
  sequential : Sequential OpRecord.invokedAt OpRecord.returnedAt (completedOps history)
  accepted : Accepts model model.init (completedOps history)

structure TxnsRunInOrder (initial : SortedMap Key Value) (history : TxnHistory Key Value) :
    Prop where
  sequential : Sequential TxnOpRecord.invokedAt TxnOpRecord.returnedAt (committedTxns history)
  applied : ((committedTxns history).foldlM applyTxn initial).isSome = true

/-- Sequential executions are accepted, and precedence is acyclic, exactly when
no two operations take no time at one instant. -/
theorem sequential_accepted_iff [DecidableEq State] [DecidableEq Output]
    (model : Model State Input Output) (history : History Input Output)
    (initial : SortedMap Key Value) (txns : TxnHistory Key Value) :
    (RunsInOrder model history →
      ((∃ enough, ∀ budget : CheckBudget, enough ≤ budget.maxSteps →
        (checkLinearizableWithBudget model history budget).isLinearizable = true) ↔
        ¬ InstantTie history)) ∧
    (TxnsRunInOrder initial txns →
      ((∃ enough, ∀ budget : CheckBudget, enough ≤ budget.maxSteps →
        (checkSerializable initial txns budget).isSerializable = true) ↔
        ¬ TxnInstantTie txns)) ∧
    ((∀ op ∈ completedOps history, op.invokedAt ≤ op.returnedAt) →
      ((∀ index, ¬ Relation.TransGen (Before (predecessors (completedOps history))) index index) ↔
        ¬ InstantTie history)) ∧
    ((∀ txn ∈ committedTxns txns, txn.invokedAt ≤ txn.returnedAt) →
      ((∀ index, ¬ Relation.TransGen (Before (txnPredecessors (committedTxns txns)))
        index index) ↔ ¬ TxnInstantTie txns)) := by
  refine ⟨?_, ?_, acyclic_iff (completed_agrees history), acyclic_iff (committed_agrees txns)⟩
  · rintro ⟨sequential, accepted⟩
    have observed := completed_observed history
    rw [eventually_linearizable_iff]
    have legal := sequential_legal_iff (applyOp model) model.init (completed_agrees history)
      sequential ((applies_iff_accepts model _ _ observed).mpr accepted)
    rw [InstantTie, ← legal]
    exact exists_congr fun order => (legalOrder_iff model _ order observed).symm
  · rintro ⟨sequential, applied⟩
    rw [eventually_serializable_iff]
    exact sequential_legal_iff applyTxn initial (committed_agrees txns) sequential applied

/-- A write and then a read of it, both taking no time at instant 5. -/
def instantWriteRead : History (RegisterInput Nat) (RegisterOutput Nat) :=
  [.completed 1 0 (.write 7) .ok 5 5, .completed 2 0 .read (.value 7) 5 5]

theorem instant_write_read_rejected :
    RunsInOrder (register 0) instantWriteRead ∧
      ∀ budget, (checkLinearizableWithBudget (register 0) instantWriteRead budget).isLinearizable =
        false := by
  refine ⟨⟨⟨by decide, by decide⟩, 7, .ok, rfl, by decide, 7, .value 7, rfl, by decide, trivial⟩, ?_⟩
  intro budget
  cases shape : checkLinearizableWithBudget (register 0) instantWriteRead budget with
  | linearizable order =>
      -- Either operation counts as completed before the other, so neither can come first.
      obtain ⟨ops, legal, _⟩ := linearizable_sound _ _ _ order shape
      have coincide : Coincide OpRecord.invokedAt OpRecord.returnedAt
          (completedOps instantWriteRead) :=
        ⟨0, 1, _, _, by decide, rfl, rfl, rfl, rfl, rfl⟩
      exact absurd legal.respects
        (coincide_blocks (completed_agrees instantWriteRead) coincide legal.permutation)
  | notLinearizable | inconclusive => rfl

end Detersim
