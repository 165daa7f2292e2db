import Detersim.CheckerExactness
import Detersim.TxnChecker
import Mathlib.Logic.Function.Basic

/-!
The serializability checker decides what it says it decides. A serialization is
stated over what the map shows under each key, action by action, without the
checker's copies of it.
-/

namespace Detersim

open OrderSearch

variable {Key Value : Type} [LinearOrder Key] [DecidableEq Value]

/-- What the keys show after the actions. -/
def viewAfter (view : Key → Option Value) : List (TxnAction Key Value) → Key → Option Value
  | [] => view
  | .read _ _ :: rest => viewAfter view rest
  | .write key value :: rest => viewAfter (Function.update view key (some value)) rest

/-- Every read sees the last write before it. -/
def ReadsSee (view : Key → Option Value) : List (TxnAction Key Value) → Prop
  | [] => True
  | .read key value :: rest => view key = value ∧ ReadsSee view rest
  | .write key value :: rest => ReadsSee (Function.update view key (some value)) rest

structure Serialization (initial : SortedMap Key Value) (txns order : TxnHistory Key Value) :
    Prop where
  permutation : order.Perm txns
  respects : order.Pairwise fun earlier later => later.completesBefore earlier = false
  observed : ReadsSee initial.get (order.flatMap TxnOpRecord.actions)

/-- Transactions placed by legal prefixes, with what the keys show after each. -/
inductive SerialPrefix (initial : SortedMap Key Value) (txns : TxnHistory Key Value) :
    Finset Nat × (Key → Option Value) → Prop where
  | start : SerialPrefix initial txns (∅, initial.get)
  | place {used view index txn} : SerialPrefix initial txns (used, view) →
      txns[index]? = some txn → index ∉ used →
      (∀ other left, txns[other]? = some left → other ≠ index → left.completesBefore txn = true →
        other ∈ used) →
      ReadsSee view txn.actions →
      SerialPrefix initial txns (insert index used, viewAfter view txn.actions)

section Views

omit [DecidableEq Value]

theorem get_insert_update (state : SortedMap Key Value) (key : Key) (value : Value) :
    (state.insert key value).get = Function.update state.get key (some value) := by
  funext other
  rw [SortedMap.get_insert, Function.update_apply]

theorem readsSee_append (view : Key → Option Value) (first second : List (TxnAction Key Value)) :
    ReadsSee view (first ++ second) ↔ ReadsSee view first ∧ ReadsSee (viewAfter view first) second := by
  induction first generalizing view with
  | nil => simp [ReadsSee, viewAfter]
  | cons action rest ih =>
      cases action with
      | read key value => simp only [List.cons_append, ReadsSee, viewAfter, ih, and_assoc]
      | write key value => simp only [List.cons_append, ReadsSee, viewAfter, ih]

theorem exists_viewAfter (state : SortedMap Key Value) (actions : List (TxnAction Key Value)) :
    ∃ next : SortedMap Key Value, next.get = viewAfter state.get actions := by
  induction actions generalizing state with
  | nil => exact ⟨state, rfl⟩
  | cons action rest ih =>
      cases action with
      | read key value => exact ih state
      | write key value =>
          rw [viewAfter, ← get_insert_update]
          exact ih (state.insert key value)

end Views

theorem applyTxn_iff (state next : SortedMap Key Value) (txn : TxnOpRecord Key Value) :
    applyTxn state txn = some next ↔
      ReadsSee state.get txn.actions ∧ next.get = viewAfter state.get txn.actions := by
  unfold applyTxn
  induction txn.actions generalizing state with
  | nil =>
      simp only [List.foldlM_nil, ReadsSee, viewAfter, true_and, Option.pure_def, Option.some.injEq]
      constructor
      · rintro rfl
        rfl
      · intro same
        exact SortedMap.get_ext fun key => (congrFun same key).symm
  | cons action rest ih =>
      cases action with
      | read key value =>
          rw [List.foldlM_cons, applyAction, ReadsSee, viewAfter]
          by_cases seen : state.get key = value
          · rw [if_neg (not_not.mpr seen)]
            simpa [seen] using ih state
          · simp [seen]
      | write key value =>
          rw [List.foldlM_cons, applyAction, ReadsSee, viewAfter, ← get_insert_update]
          simpa using ih (state.insert key value)

theorem applies_iff_readsSee (order : TxnHistory Key Value) (state : SortedMap Key Value) :
    (order.foldlM applyTxn state).isSome = true ↔
      ReadsSee state.get (order.flatMap TxnOpRecord.actions) := by
  induction order generalizing state with
  | nil => simp [ReadsSee]
  | cons txn rest ih =>
      rw [List.foldlM_cons, List.flatMap_cons, readsSee_append]
      cases applied : applyTxn state txn with
      | some next =>
          obtain ⟨seen, shows⟩ := (applyTxn_iff state next txn).mp applied
          simpa [seen, ← shows] using ih next
      | none =>
          -- Only a read can fail, since the writes of a transaction always lead somewhere.
          simp only [Option.bind_eq_bind, Option.bind_none, Option.isSome_none, false_iff,
            Bool.false_eq_true, not_and]
          intro seen
          obtain ⟨next, shows⟩ := exists_viewAfter state txn.actions
          exact absurd ((applyTxn_iff state next txn).mpr ⟨seen, shows⟩) (by simp [applied])

theorem legalOrder_iff_serialization (initial : SortedMap Key Value)
    (txns order : TxnHistory Key Value) :
    LegalOrder TxnOpRecord.completesBefore applyTxn initial txns order ↔
      Serialization initial txns order := by
  constructor
  · rintro ⟨permutation, respects, applies⟩
    exact ⟨permutation, respects, (applies_iff_readsSee order initial).mp applies⟩
  · rintro ⟨permutation, respects, observed⟩
    exact ⟨permutation, respects, (applies_iff_readsSee order initial).mpr observed⟩

theorem placed_serialPrefix (initial : SortedMap Key Value) (txns : TxnHistory Key Value)
    (pair : Finset Nat × SortedMap Key Value)
    (placed : Placed TxnOpRecord.completesBefore applyTxn initial txns pair) :
    SerialPrefix initial txns (pair.1, pair.2.get) := by
  induction placed with
  | start => exact SerialPrefix.start
  | @place used state next index txn _ present fresh earlier applied ih =>
      obtain ⟨seen, shows⟩ := (applyTxn_iff state next txn).mp applied
      rw [shows]
      exact SerialPrefix.place ih present fresh earlier seen

theorem reached_serialPrefixes (initial : SortedMap Key Value) (txns : TxnHistory Key Value) :
    Set.encard {node | Reached TxnOpRecord.completesBefore applyTxn initial txns node} ≤
      Set.encard {pair | SerialPrefix initial txns pair} := by
  refine reached_encard_le _ _ _ _ _ SortedMap.get ?_ ?_
  · intro left right same
    exact SortedMap.get_ext (congrFun same)
  · exact fun used state placed => placed_serialPrefix initial txns (used, state) placed

def SerializableResult.isNotSerializable : SerializableResult → Bool
  | .notSerializable .. => true
  | _ => false

def SerializableResult.isInconclusive : SerializableResult → Bool
  | .inconclusive .. => true
  | _ => false

/-- The verdict is what a memoised search of the serial orders ends with. -/
theorem verdict_searches (initial : SortedMap Key Value) (history : TxnHistory Key Value)
    (budget : CheckBudget) :
    ∃ path after, Searches TxnOpRecord.completesBefore applyTxn initial (committedTxns history)
        (txnSpent (committedTxns history).length budget.maxSteps) path after ∧
      (checkSerializable initial history budget).isInconclusive = after.inconclusive ∧
      (after.inconclusive = false → match path with
        | none => (checkSerializable initial history budget).isNotSerializable = true
        | some labels => checkSerializable initial history budget =
            .serializable ((labels.map Prod.fst).map TxnOpRecord.id)) := by
  obtain ⟨path, result, _, visited⟩ := txnDfs_searched (committedTxns history) budget.maxSteps
    (committedTxns history).length 0 (List.replicate (committedTxns history).length false) []
    initial ⟨0, false, []⟩ (by simp) (by simp [remaining_root]) (by simp [Affords])
  refine ⟨path, _, visited, ?_, ?_⟩
  · simp only [checkSerializable, TxnSearch.memo]
    split_ifs with gaveUp
    · exact gaveUp.symm
    · rw [result]
      cases path <;> simpa [SerializableResult.isInconclusive] using gaveUp
  · intro conclusive
    simp only [TxnSearch.memo] at conclusive
    simp only [checkSerializable]
    rw [conclusive, result]
    cases path <;> simp [SerializableResult.isNotSerializable]

/-- A verdict of the transaction checker is right, and a budget above the number
of transactions for each reachable pair always brings one. -/
theorem txn_checker_exact (initial : SortedMap Key Value) (history : TxnHistory Key Value)
    (budget : CheckBudget) :
    (∀ order, checkSerializable initial history budget = .serializable order →
      ∃ txns, Serialization initial (committedTxns history) txns ∧
        order = txns.map TxnOpRecord.id) ∧
    ((checkSerializable initial history budget).isNotSerializable = true →
      ∀ txns, ¬ Serialization initial (committedTxns history) txns) ∧
    (((committedTxns history).length : ℕ∞) *
        Set.encard {pair | SerialPrefix initial (committedTxns history) pair} < budget.maxSteps →
      (checkSerializable initial history budget).isInconclusive = false) := by
  obtain ⟨path, after, searched, quiet, verdict⟩ := verdict_searches initial history budget
  refine ⟨?_, ?_, ?_⟩
  · intro order given
    have conclusive : after.inconclusive = false := by
      rw [← quiet, given]
      rfl
    have verdict := verdict conclusive
    cases path with
    | none => simp [given, SerializableResult.isNotSerializable] at verdict
    | some labels =>
        cases given.symm.trans verdict
        exact ⟨labels.map Prod.fst,
          (legalOrder_iff_serialization _ _ _).mp (search_sound searched), rfl⟩
  · intro negative txns serial
    have conclusive : after.inconclusive = false := by
      rw [← quiet]
      cases given : checkSerializable initial history budget <;>
        simp_all [SerializableResult.isNotSerializable, SerializableResult.isInconclusive]
    have verdict := verdict conclusive
    cases path with
    | none =>
        exact search_complete searched conclusive txns
          ((legalOrder_iff_serialization _ _ _).mpr serial)
    | some labels => simp [verdict, SerializableResult.isNotSerializable] at negative
  · intro ample
    rw [quiet]
    refine search_conclusive _ budget.maxSteps (fun memo spent => spent) ?_ searched
    refine lt_of_le_of_lt ?_ ample
    gcongr
    exact reached_serialPrefixes initial (committedTxns history)

example : checkSerializable (.empty : SortedMap Nat Nat)
    [.committedTxn 1 0 [.write 0 7, .read 0 (some 7)] 0 3,
      .committedTxn 2 1 [.read 0 none] 1 2] ⟨10⟩ = .serializable [2, 1] := by
  decide

end Detersim
