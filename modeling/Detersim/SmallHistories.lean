import Detersim.CheckerExactness
import Detersim.TxnExactness
import Mathlib.Algebra.Order.BigOperators.Group.Finset
import Mathlib.Data.Nat.Factorial.Basic

/-!
How large a budget a history can need. Placing the records one by one, each of
the first so many of them in some order, there are no more pairs of a placed set
and a state than there are such beginnings of orders.
-/

namespace OrderSearch

open Detersim

variable {Record State : Type} (precedes : Record → Record → Bool)
  (apply : State → Record → Option State) (start : State) (records : List Record)

/-- The beginnings of the orders of so many records, the empty one included. -/
def beginnings (count : Nat) : Nat :=
  ∑ placed ∈ Finset.range (count + 1), count.descFactorial placed

section Counting

variable [DecidableEq State]

/-- The pairs with so many records placed. -/
def placedPairs : Nat → Finset (Finset Nat × State)
  | 0 => {(∅, start)}
  | count + 1 => (placedPairs count).biUnion fun pair =>
      (Finset.range records.length \ pair.1).biUnion fun index =>
        ((records[index]?.bind (apply pair.2)).map fun next => (insert index pair.1, next)).toFinset

variable {apply start records} in
theorem placedPairs_set {count : Nat} {pair : Finset Nat × State}
    (member : pair ∈ placedPairs apply start records count) :
    pair.1 ⊆ Finset.range records.length ∧ pair.1.card = count := by
  induction count generalizing pair with
  | zero =>
      cases Finset.mem_singleton.mp member
      exact ⟨Finset.empty_subset _, rfl⟩
  | succ count ih =>
      obtain ⟨before, earlier, later⟩ := Finset.mem_biUnion.mp member
      obtain ⟨index, fresh, placed⟩ := Finset.mem_biUnion.mp later
      obtain ⟨next, _, rfl⟩ := Option.map_eq_some_iff.mp (Option.mem_toFinset.mp placed)
      obtain ⟨inside, free⟩ := Finset.mem_sdiff.mp fresh
      obtain ⟨subset, card⟩ := ih earlier
      exact ⟨Finset.insert_subset inside subset, by rw [Finset.card_insert_of_notMem free, card]⟩

theorem card_placedPairs (count : Nat) :
    (placedPairs apply start records count).card ≤ records.length.descFactorial count := by
  induction count with
  | zero => simp [placedPairs]
  | succ count ih =>
      have each : ∀ pair ∈ placedPairs apply start records count,
          ((Finset.range records.length \ pair.1).biUnion fun index =>
            ((records[index]?.bind (apply pair.2)).map fun next =>
              (insert index pair.1, next)).toFinset).card ≤ records.length - count := by
        intro pair member
        obtain ⟨subset, card⟩ := placedPairs_set member
        refine (Finset.card_biUnion_le_card_mul _ _ 1 fun index _ => ?_).trans ?_
        · rw [Option.card_toFinset]
          cases (records[index]?.bind (apply pair.2)).map _ <;> simp
        · rw [mul_one, Finset.card_sdiff_of_subset subset, Finset.card_range, card]
      rw [Nat.descFactorial_succ, mul_comm]
      exact (Finset.card_biUnion_le_card_mul _ _ _ each).trans (Nat.mul_le_mul_right _ ih)

variable {precedes apply start records} in
theorem placed_mem {pair : Finset Nat × State}
    (placed : Placed precedes apply start records pair) :
    pair ∈ placedPairs apply start records pair.1.card := by
  induction placed with
  | start => exact Finset.mem_singleton_self _
  | @place used state next index record _ present fresh _ applied ih =>
      rw [Finset.card_insert_of_notMem fresh]
      have inside : index ∈ Finset.range records.length :=
        Finset.mem_range.mpr (List.getElem?_eq_some_iff.mp present).1
      refine Finset.mem_biUnion.mpr ⟨(used, state), ih, Finset.mem_biUnion.mpr
        ⟨index, Finset.mem_sdiff.mpr ⟨inside, fresh⟩, ?_⟩⟩
      simp [present, applied]

omit [DecidableEq State] in
theorem placed_encard_le :
    Set.encard {pair | Placed precedes apply start records pair} ≤ beginnings records.length := by
  classical
  have counted : Set.encard {pair | Placed precedes apply start records pair} ≤
      Set.encard (((Finset.range (records.length + 1)).biUnion
        (placedPairs apply start records) : Finset _) : Set (Finset Nat × State)) := by
    apply Set.encard_le_encard
    intro pair placed
    have member := placed_mem placed
    have few := Finset.card_le_card (placedPairs_set member).1
    rw [Finset.card_range] at few
    exact Finset.mem_coe.mpr (Finset.mem_biUnion.mpr
      ⟨_, Finset.mem_range.mpr (Nat.lt_succ_of_le few), member⟩)
  rw [Set.encard_coe_eq_coe_finsetCard] at counted
  refine counted.trans ?_
  have bound : ((Finset.range (records.length + 1)).biUnion
      (placedPairs apply start records)).card ≤ beginnings records.length :=
    Finset.card_biUnion_le.trans (Finset.sum_le_sum fun count _ => card_placedPairs _ _ _ count)
  exact_mod_cast bound

omit [DecidableEq State] in
/-- The nodes of a search are no more than the beginnings of orders. -/
theorem reached_encard_le_beginnings :
    Set.encard {node | Reached precedes apply start records node} ≤ beginnings records.length :=
  (reached_encard_le precedes apply start records _ id Function.injective_id
    fun _ _ placed => placed).trans (placed_encard_le precedes apply start records)

end Counting

end OrderSearch

namespace Detersim

open OrderSearch

theorem linearizability_conclusive {State Input Output : Type} [DecidableEq State]
    [DecidableEq Output] (model : Model State Input Output) (history : History Input Output)
    (budget : CheckBudget)
    (ample : beginnings (completedOps history).length < budget.maxSteps) :
    (checkLinearizableWithBudget model history budget).isInconclusive = false := by
  obtain ⟨path, after, searched, quiet, _, _⟩ :=
    runSearch_searches model (completedOps history) budget.maxSteps
  have conclusive : (runSearch model (completedOps history) budget.maxSteps).inconclusive = false := by
    rw [quiet]
    refine search_conclusive 1 budget.maxSteps (fun memo out => by simpa [spent] using out) ?_ searched
    have few := reached_encard_le_beginnings OpRecord.completesBefore (applyOp model) model.init
      (completedOps history)
    rw [Nat.cast_one, one_mul]
    exact lt_of_le_of_lt few (by exact_mod_cast ample)
  rcases verdict_cases model history budget with ⟨gaveUp, _⟩ | ⟨_, _, given⟩ | ⟨_, _, given⟩
  · rw [conclusive] at gaveUp
    cases gaveUp
  · rw [given]
    rfl
  · cases shape : checkLinearizableWithBudget model history budget with
    | inconclusive => rw [shape] at given; cases given
    | linearizable | notLinearizable => rfl

theorem notLinearizable_iff {State Input Output : Type} [DecidableEq State]
    [DecidableEq Output] (model : Model State Input Output) (history : History Input Output)
    (budget : CheckBudget)
    (ample : beginnings (completedOps history).length < budget.maxSteps) :
    (checkLinearizableWithBudget model history budget).isNotLinearizable = true ↔
      ¬ Linearizes model (completedOps history) := by
  have conclusive := linearizability_conclusive model history budget ample
  rw [← conclusive_iff model history budget conclusive]
  cases shape : checkLinearizableWithBudget model history budget <;>
    simp_all [LinearizabilityResult.isNotLinearizable, LinearizabilityResult.isLinearizable,
      LinearizabilityResult.isInconclusive]

theorem notSerializable_iff {Key Value : Type} [LinearOrder Key] [DecidableEq Value]
    (initial : SortedMap Key Value) (history : TxnHistory Key Value) (budget : CheckBudget)
    (ample : (committedTxns history).length * beginnings (committedTxns history).length <
      budget.maxSteps) :
    (checkSerializable initial history budget).isInconclusive = false ∧
      ((checkSerializable initial history budget).isNotSerializable = true ↔
        ¬ ∃ order, Serialization initial (committedTxns history) order) := by
  obtain ⟨path, after, searched, quiet, verdict⟩ := verdict_searches initial history budget
  have conclusive : after.inconclusive = false := by
    refine search_conclusive _ budget.maxSteps (fun memo spent => spent) ?_ searched
    have few := reached_encard_le_beginnings TxnOpRecord.completesBefore applyTxn initial
      (committedTxns history)
    refine lt_of_le_of_lt (mul_le_mul_right few _) ?_
    exact_mod_cast ample
  refine ⟨quiet.trans conclusive, ?_⟩
  have verdict := verdict conclusive
  cases path with
  | none =>
      refine iff_of_true verdict ?_
      rintro ⟨order, serial⟩
      exact search_complete searched conclusive order
        ((legalOrder_iff_serialization _ _ _).mpr serial)
  | some labels =>
      refine iff_of_false ?_ (not_not.mpr ⟨labels.map Prod.fst,
        (legalOrder_iff_serialization _ _ _).mp (search_sound searched)⟩)
      simp [verdict, SerializableResult.isNotSerializable]

/-- A budget above the number of beginnings of orders, times the number of
transactions for those, always ends in the right verdict. -/
theorem small_histories_decided :
    (∀ {State Input Output : Type} [DecidableEq State] [DecidableEq Output]
      (model : Model State Input Output) (history : History Input Output) (budget : CheckBudget),
      beginnings (completedOps history).length < budget.maxSteps →
      (checkLinearizableWithBudget model history budget).isInconclusive = false ∧
        ((checkLinearizableWithBudget model history budget).isNotLinearizable = true ↔
          ¬ Linearizes model (completedOps history))) ∧
    ∀ {Key Value : Type} [LinearOrder Key] [DecidableEq Value] (initial : SortedMap Key Value)
      (history : TxnHistory Key Value) (budget : CheckBudget),
      (committedTxns history).length * beginnings (committedTxns history).length <
        budget.maxSteps →
      (checkSerializable initial history budget).isInconclusive = false ∧
        ((checkSerializable initial history budget).isNotSerializable = true ↔
          ¬ ∃ order, Serialization initial (committedTxns history) order) :=
  ⟨fun model history budget ample => ⟨linearizability_conclusive model history budget ample,
    notLinearizable_iff model history budget ample⟩, notSerializable_iff⟩

/-- Ten thousand steps are enough for six operations. -/
theorem six_operations_decided :
    (checkLinearizableWithBudget (register 0) [.completed 1 0 (.write 1) .ok 0 9,
      .completed 2 1 (.write 2) .ok 0 9, .completed 3 2 (.write 3) .ok 0 9,
      .completed 4 3 (.write 4) .ok 0 9, .completed 5 4 (.write 5) .ok 0 9,
      .completed 6 5 .read (.value 0) 9 10] ⟨10000⟩).isInconclusive = false ∧
    (checkSerializable (.empty : SortedMap Nat Nat) [.committedTxn 1 0 [.write 0 7] 0 1,
      .committedTxn 2 1 [.read 0 none] 2 3] ⟨11⟩).isInconclusive = false :=
  ⟨(small_histories_decided.1 (register 0) _ ⟨10000⟩ (by decide)).1,
    (small_histories_decided.2 _ _ ⟨11⟩ (by decide)).1⟩

end Detersim
