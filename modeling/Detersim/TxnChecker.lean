import Detersim.Checker
import Detersim.SortedMap

/-!
The serializability checker over committed transactions. Its search differs from
the linearizability search in its bookkeeping: the budget is tested before the
leaf, a step is counted for every transaction tried rather than for every node
remembered, and a search that gave up unwinds at once.
-/

namespace Detersim

open MemoSearch OrderSearch

variable {Key Value : Type} [LinearOrder Key] [DecidableEq Value]

inductive TxnAction (Key Value : Type) where
  | read (key : Key) (value : Option Value)
  | write (key : Key) (value : Value)
  deriving DecidableEq

structure TxnOpRecord (Key Value : Type) where
  id : UInt64
  process : UInt32
  invoke : SimTime
  complete : Option SimTime
  actions : List (TxnAction Key Value)
  committed : Bool
  deriving DecidableEq

abbrev TxnHistory (Key Value : Type) := List (TxnOpRecord Key Value)

namespace TxnOpRecord

def committedTxn (id : UInt64) (process : UInt32) (actions : List (TxnAction Key Value))
    (callIndex returnIndex : UInt64) : TxnOpRecord Key Value :=
  { id, process, invoke := callIndex, complete := some returnIndex, actions, committed := true }

/-- The real-time test of `txn_predecessors`. -/
def completesBefore (left right : TxnOpRecord Key Value) : Bool :=
  match left.complete with
  | none => false
  | some complete => decide (complete ≤ right.invoke)

end TxnOpRecord

def txnPredecessors (txns : TxnHistory Key Value) : List (List Nat) :=
  precedenceTable TxnOpRecord.completesBefore txns

def applyAction (state : SortedMap Key Value) :
    TxnAction Key Value → Option (SortedMap Key Value)
  | .read key value => if state.get key ≠ value then none else some state
  | .write key value => some (state.insert key value)

def applyTxn (state : SortedMap Key Value) (txn : TxnOpRecord Key Value) :
    Option (SortedMap Key Value) :=
  txn.actions.foldlM applyAction state

structure TxnSearch (Key Value : Type) [LinearOrder Key] where
  explored : Nat
  inconclusive : Bool
  seen : List (List Bool × SortedMap Key Value)

/-- The body of the loop in `TxnSearch::dfs`. -/
def tryTxn (predecessors : List (List Nat)) (used : List Bool) (order : List UInt64)
    (state : SortedMap Key Value)
    (recurse : List Bool → List UInt64 → SortedMap Key Value → TxnSearch Key Value →
      Option (List UInt64) × TxnSearch Key Value)
    (position : TxnOpRecord Key Value × Nat) (search : TxnSearch Key Value) :
    Attempt (List UInt64) (TxnSearch Key Value) :=
  if ready predecessors used position.2 = false then .next search
  else
    let search := { search with explored := search.explored + 1 }
    match applyTxn state position.1 with
    | none => .next search
    | some next => match recurse (used.set position.2 true) (order ++ [position.1.id]) next search with
      | (some found, search) => .found found search
      | (none, search) => if search.inconclusive then .stop search else .next search

def txnDfs (txns : TxnHistory Key Value) (predecessors : List (List Nat)) (maxSteps : Nat) :
    Nat → List Bool → List UInt64 → SortedMap Key Value → TxnSearch Key Value →
      Option (List UInt64) × TxnSearch Key Value
  | fuel, used, order, state, search =>
      if maxSteps ≤ search.explored then (none, { search with inconclusive := true })
      else if used.all id then (some order, search)
      else if (used, state) ∈ search.seen then (none, search)
      else match fuel with
        | 0 => (none, search)
        | fuel + 1 =>
            tryEach
              (tryTxn predecessors used order state (txnDfs txns predecessors maxSteps fuel))
              txns.zipIdx { search with seen := search.seen ++ [(used, state)] }

inductive SerializableResult where
  | serializable (order : List UInt64)
  | notSerializable (reason : String) (conflict : Option (UInt64 × UInt64))
      (minimalSubhistory : List UInt64) (exploredStates : Nat) (budgetExhausted : Bool)
  | inconclusive (exploredStates : Nat) (budgetExhausted : Bool)
  deriving DecidableEq

def SerializableResult.isSerializable : SerializableResult → Bool
  | .serializable _ => true
  | _ => false

def committedTxns (history : TxnHistory Key Value) : TxnHistory Key Value :=
  history.filter fun txn => txn.committed && txn.complete.isSome

def checkSerializable (initial : SortedMap Key Value) (history : TxnHistory Key Value)
    (budget : CheckBudget) : SerializableResult :=
  let txns := committedTxns history
  let (serializable, search) := txnDfs txns (txnPredecessors txns) budget.maxSteps txns.length
    (List.replicate txns.length false) [] initial ⟨0, false, []⟩
  if search.inconclusive then .inconclusive search.explored true
  else match serializable with
    | some order => .serializable order
    | none =>
        let ids := txns.map TxnOpRecord.id
        .notSerializable "no serial transaction order matched observed reads" (conflictOf ids)
          ids search.explored false

/-! The search refines the memoised search of the library. -/

def TxnSearch.memo (search : TxnSearch Key Value) : Memo (Node (SortedMap Key Value)) :=
  ⟨search.seen, search.inconclusive⟩

/-- Each remembered node pays for one attempt at each transaction. -/
def txnSpent (count maxSteps : Nat) (memo : Memo (Node (SortedMap Key Value))) : Prop :=
  maxSteps ≤ count * memo.seen.length

/-- The loops still running may count `debt` more steps. -/
def Affords (count debt : Nat) (search : TxnSearch Key Value) : Prop :=
  search.explored + debt ≤ count * search.seen.length

omit [DecidableEq Value] in
theorem Affords.spent {count debt maxSteps : Nat} {search : TxnSearch Key Value}
    (affords : Affords count debt search) (out : maxSteps ≤ search.explored) :
    txnSpent count maxSteps search.memo :=
  out.trans ((Nat.le_add_right _ _).trans affords)

omit [DecidableEq Value] in
theorem affords_push {count debt : Nat} {search : TxnSearch Key Value}
    (affords : Affords count debt search) (entry : List Bool × SortedMap Key Value) :
    Affords count (debt + count) { search with seen := search.seen ++ [entry] } := by
  simp only [Affords, List.length_append, List.length_cons, List.length_nil, Nat.mul_add] at *
  omega

/-- What a call of `txnDfs` returns, to loops that still owe `debt` steps. -/
def TxnSearched (txns : TxnHistory Key Value) (maxSteps debt : Nat) (used : List Bool)
    (order : List UInt64) (state : SortedMap Key Value) :
    TxnSearch Key Value → Option (List UInt64) × TxnSearch Key Value → Prop :=
  Answers goal (children TxnOpRecord.completesBefore applyTxn txns)
    (txnSpent txns.length maxSteps) TxnSearch.memo (Affords txns.length debt)
    (fun labels => order ++ labels.map fun label => label.1.id) (used, state)

/-- A position that is not a child costs at most the step counted for it. -/
theorem tryTxn_skips {txns : TxnHistory Key Value} {predecessors : List (List Nat)}
    {used : List Bool} {order : List UInt64} {state : SortedMap Key Value}
    {recurse : List Bool → List UInt64 → SortedMap Key Value → TxnSearch Key Value →
      Option (List UInt64) × TxnSearch Key Value}
    {position : TxnOpRecord Key Value × Nat} {search : TxnSearch Key Value} {debt : Nat}
    (barred : ready predecessors used position.2 = false ∨ applyTxn state position.1 = none)
    (affords : Affords txns.length (debt + 1) search) :
    ∃ after, tryTxn predecessors used order state recurse position search = .next after ∧
      Affords txns.length debt after ∧ after.memo = search.memo := by
  by_cases waiting : ready predecessors used position.2 = false
  · exact ⟨search, by rw [tryTxn, if_pos waiting], Nat.le_of_succ_le affords, rfl⟩
  · refine ⟨{ search with explored := search.explored + 1 }, ?_, ?_, rfl⟩
    · rw [tryTxn, if_neg waiting, barred.resolve_left waiting]
    · simp only [Affords] at affords ⊢
      omega

/-- A child is searched by the recursive call. -/
theorem tryTxn_follows {txns : TxnHistory Key Value} {maxSteps debt : Nat} {used : List Bool}
    {order : List UInt64} {state next : SortedMap Key Value}
    {recurse : List Bool → List UInt64 → SortedMap Key Value → TxnSearch Key Value →
      Option (List UInt64) × TxnSearch Key Value}
    {position : TxnOpRecord Key Value × Nat} {search : TxnSearch Key Value}
    (isReady : ready (txnPredecessors txns) used position.2 = true)
    (applied : applyTxn state position.1 = some next)
    (searched : TxnSearched txns maxSteps debt (used.set position.2 true)
      (order ++ [position.1.id]) next { search with explored := search.explored + 1 }
      (recurse (used.set position.2 true) (order ++ [position.1.id]) next
        { search with explored := search.explored + 1 })) :
    Follows goal (children TxnOpRecord.completesBefore applyTxn txns)
      (txnSpent txns.length maxSteps) TxnSearch.memo (Affords txns.length debt)
      (fun labels => order ++ labels.map fun label => label.1.id) position
      (used.set position.2 true, next) search
      (tryTxn (txnPredecessors txns) used order state recurse position search) := by
  have turn : tryTxn (txnPredecessors txns) used order state recurse position search =
      .ofCall TxnSearch.inconclusive (recurse (used.set position.2 true)
        (order ++ [position.1.id]) next { search with explored := search.explored + 1 }) := by
    rw [tryTxn, if_neg (by simp [isReady]), applied]
    dsimp only
    generalize recurse _ _ next _ = returned
    obtain ⟨_ | found, after⟩ := returned <;> rfl
  rw [turn]
  -- The step counted for the attempt is not part of the memo table.
  exact searched.follows TxnSearch.inconclusive (fun _ => id) (by simp)

/-- Every call leaves its caller's loops affordable and never runs out of fuel. -/
theorem txnDfs_searched (txns : TxnHistory Key Value) (maxSteps fuel debt : Nat)
    (used : List Bool) (order : List UInt64) (state : SortedMap Key Value)
    (search : TxnSearch Key Value) (sized : used.length = txns.length)
    (fueled : (remaining txns used).length ≤ fuel)
    (affords : Affords txns.length debt search) :
    TxnSearched txns maxSteps debt used order state search
      (txnDfs txns (txnPredecessors txns) maxSteps fuel used order state search) := by
  induction fuel generalizing used order state search debt with
  | zero =>
      have full : used.all id = true := (goal_iff txns used state sized).mpr
        (List.length_eq_zero_iff.mp (Nat.le_zero.mp fueled))
      rw [txnDfs]
      by_cases out : maxSteps ≤ search.explored
      · rw [if_pos out]
        exact ⟨none, rfl, affords, Visits.exhausted (affords.spent out)⟩
      · rw [if_neg out, if_pos full]
        exact ⟨some [], by simp, affords, Visits.leaf full⟩
  | succ fuel ih =>
      rw [txnDfs]
      by_cases out : maxSteps ≤ search.explored
      · rw [if_pos out]
        exact ⟨none, rfl, affords, Visits.exhausted (affords.spent out)⟩
      by_cases full : used.all id = true
      · rw [if_neg out, if_pos full]
        exact ⟨some [], by simp, affords, Visits.leaf full⟩
      by_cases known : (used, state) ∈ search.seen
      · rw [if_neg out, if_neg full, if_pos known]
        exact ⟨none, rfl, affords, Visits.pruned known⟩
      rw [if_neg out, if_neg full, if_neg known]
      obtain ⟨path, result, paid, explored⟩ := tryEach_explores goal
        (children TxnOpRecord.completesBefore applyTxn txns) (txnSpent txns.length maxSteps)
        (tryTxn (txnPredecessors txns) used order state
          (txnDfs txns (txnPredecessors txns) maxSteps fuel))
        TxnSearch.memo (fun left search => Affords txns.length (debt + left) search)
        (fun position => if ready (txnPredecessors txns) used position.2 then
            (applyTxn state position.1).map fun next =>
              (position, used.set position.2 true, next)
          else none)
        (fun labels => order ++ labels.map fun label => label.1.id)
        txns.zipIdx
        (fun left search paid => Nat.le_of_succ_le paid)
        (by
          intro position search left absent paid
          refine tryTxn_skips ?_ paid
          split_ifs at absent with isReady
          · exact Or.inr (Option.map_eq_none_iff.mp absent)
          · exact Or.inl (by simpa using isReady))
        (by
          intro position member search left label node present paid
          split_ifs at present with isReady
          obtain ⟨next, applied, pair⟩ := Option.map_eq_some_iff.mp present
          cases pair
          have waiting : position ∈ remaining txns used := (mem_remaining txns used position).mpr
            ⟨member, ((ready_iff _ txns used member).mp isReady).1⟩
          have fewer := (remaining_set txns used waiting).length_eq
          rw [List.length_cons] at fewer
          have repaid : Affords txns.length (debt + left)
              { search with explored := search.explored + 1 } := by
            simp only [Affords] at paid ⊢
            omega
          exact tryTxn_follows isReady applied
            (ih _ _ _ next _ (by rw [List.length_set, sized]) (by omega) repaid))
        { search with seen := search.seen ++ [(used, state)] }
        (by simpa using affords_push affords (used, state))
      exact ⟨path, result, paid, Visits.expanded full known explored⟩

theorem checkSerializable_searches (initial : SortedMap Key Value)
    (history : TxnHistory Key Value) (budget : CheckBudget) :
    ∃ path after, Searches TxnOpRecord.completesBefore applyTxn initial (committedTxns history)
        (txnSpent (committedTxns history).length budget.maxSteps) path after ∧
      (after.inconclusive = false →
        (checkSerializable initial history budget).isSerializable = path.isSome) ∧
      (after.inconclusive = true →
        (checkSerializable initial history budget).isSerializable = false) := by
  obtain ⟨path, result, _, visited⟩ := txnDfs_searched (committedTxns history) budget.maxSteps
    (committedTxns history).length 0 (List.replicate (committedTxns history).length false) []
    initial ⟨0, false, []⟩ (by simp) (by simp [remaining_root]) (by simp [Affords])
  refine ⟨path, _, visited, ?_, ?_⟩
  · intro conclusive
    simp only [checkSerializable]
    rw [if_neg (by simpa [TxnSearch.memo] using conclusive), result]
    cases path <;> rfl
  · intro gaveUp
    simp only [checkSerializable]
    rw [if_pos (by simpa [TxnSearch.memo] using gaveUp)]
    rfl

end Detersim
