import Detersim.CheckerExactness
import Detersim.TxnExactness

/-!
A larger step budget never changes a verdict. A search that was not stopped by
its budget passed every test of it, and so passes those of a larger budget in
the same way.
-/

namespace Detersim

open MemoSearch OrderSearch

/-- The same variant again, with the same witness order. -/
def LinearizabilityResult.Repeats : LinearizabilityResult → LinearizabilityResult → Prop
  | .linearizable first, .linearizable second => first = second
  | .notLinearizable .., .notLinearizable .. => True
  | .inconclusive .., .inconclusive .. => True
  | _, _ => False

def SerializableResult.Repeats : SerializableResult → SerializableResult → Prop
  | .serializable first, .serializable second => first = second
  | .notSerializable .., .notSerializable .. => True
  | .inconclusive .., .inconclusive .. => True
  | _, _ => False

section Linearizability

variable {State Input Output : Type} [DecidableEq State] [DecidableEq Output]

omit [DecidableEq State] in
/-- A position is passed over whatever the search, or placed by the recursive call. -/
theorem tryPosition_cases (model : Model State Input Output) (table : List (List Nat))
    (used : List Bool) (order : List UInt64) (state : State)
    (position : OpRecord Input Output × Nat) :
    (∀ recurse search,
      tryPosition model table used order state recurse position search = .next search) ∨
    ∃ next, ∀ recurse search,
      tryPosition model table used order state recurse position search =
        .ofCall (fun _ => false)
          (recurse (used.set position.2 true) (order ++ [position.1.id]) next search) := by
  by_cases isReady : ready table used position.2 = true
  · cases applied : applyOp model state position.1 with
    | none => exact Or.inl fun _ _ => tryPosition_skips _ _ _ _ _ _ _ _ (Or.inr applied)
    | some next =>
        exact Or.inr ⟨next, fun _ _ => tryPosition_child _ _ _ _ _ _ _ _ _ isReady applied⟩
  · exact Or.inl fun _ _ => tryPosition_skips _ _ _ _ _ _ _ _ (Or.inl (by simpa using isReady))

/-- A call that ends without giving up met no test of its budget. -/
theorem dfs_agrees (model : Model State Input Output) (ops : History Input Output)
    (table : List (List Nat)) {low high : Nat} (larger : low ≤ high) (fuel : Nat)
    (used : List Bool) (order : List UInt64) (state : State) (search : SearchState State)
    (ended : (dfs model ops table low fuel used order state search).2.inconclusive = false) :
    search.inconclusive = false ∧
      dfs model ops table high fuel used order state search =
        dfs model ops table low fuel used order state search := by
  induction fuel generalizing used order state search with
  | zero =>
      rw [dfs] at ended ⊢
      rw [dfs]
      split_ifs at ended ⊢ <;> simp_all <;> omega
  | succ fuel ih =>
      rw [dfs] at ended ⊢
      rw [dfs]
      by_cases full : order.length = ops.length
      · rw [if_pos full] at ended ⊢
        exact ⟨ended, by rw [if_pos full]⟩
      by_cases out : low ≤ search.explored
      · rw [if_neg full, if_pos out] at ended
        cases ended
      have room : ¬high ≤ search.explored := by omega
      rw [if_neg full, if_neg out] at ended ⊢
      rw [if_neg full, if_neg room]
      by_cases known : (used, state) ∈ search.seen
      · rw [if_pos known] at ended ⊢
        exact ⟨ended, by rw [if_pos known]⟩
      rw [if_neg known] at ended ⊢
      rw [if_neg known]
      refine tryEach_agrees (fun search : SearchState State => search.inconclusive = false) ?_ _ _ ended
      intro position search calm
      rcases tryPosition_cases model table used order state position with skips | ⟨next, places⟩
      · rw [skips] at calm
        exact ⟨calm, by rw [skips, skips]⟩
      · rw [places, search_ofCall] at calm
        obtain ⟨start, same⟩ := ih _ _ next search calm
        exact ⟨start, by rw [places, places, same]⟩

/-- Once the budget is spent, no node that is not complete is searched any more. -/
theorem dfs_spent (model : Model State Input Output) (ops : History Input Output)
    (table : List (List Nat)) (maxSteps fuel : Nat) (used : List Bool) (order : List UInt64)
    (state : State) (search : SearchState State) (incomplete : order.length < ops.length)
    (spent : maxSteps ≤ search.explored) :
    dfs model ops table maxSteps fuel used order state search =
      (none, { search with inconclusive := true }) := by
  unfold dfs
  rw [if_neg (Nat.ne_of_lt incomplete), if_pos spent]

/-- A complete order is returned whatever budget is left. -/
theorem dfs_full (model : Model State Input Output) (ops : History Input Output)
    (table : List (List Nat)) (maxSteps fuel : Nat) (used : List Bool) (order : List UInt64)
    (state : State) (search : SearchState State) (full : order.length = ops.length) :
    dfs model ops table maxSteps fuel used order state search = (some order, search) := by
  unfold dfs
  rw [if_pos full]

/-- A complete order is found only by a search that has not given up, and a search
that gave up has spent its budget. -/
theorem dfs_found_conclusive (model : Model State Input Output) (ops : History Input Output)
    (table : List (List Nat)) (maxSteps fuel : Nat) (used : List Bool) (order : List UInt64)
    (state : State) (search : SearchState State) (short : order.length ≤ ops.length)
    (start : search.inconclusive = false) :
    ((dfs model ops table maxSteps fuel used order state search).1.isSome →
        (dfs model ops table maxSteps fuel used order state search).2.inconclusive = false) ∧
      ((dfs model ops table maxSteps fuel used order state search).2.inconclusive = false ∨
        maxSteps ≤ (dfs model ops table maxSteps fuel used order state search).2.explored) := by
  induction fuel generalizing used order state search with
  | zero =>
      rw [dfs]
      split_ifs with full out known
      · exact ⟨fun _ => start, Or.inl start⟩
      · exact ⟨by simp, Or.inr out⟩
      · exact ⟨by simp, Or.inl start⟩
      · exact ⟨by simp, Or.inl start⟩
  | succ fuel ih =>
      rw [dfs]
      split_ifs with full out known
      · exact ⟨fun _ => start, Or.inl start⟩
      · exact ⟨by simp, Or.inr out⟩
      · exact ⟨by simp, Or.inl start⟩
      have shorter : order.length < ops.length := Nat.lt_of_le_of_ne short full
      -- The children of this node are all complete, or none is.
      by_cases last : order.length + 1 = ops.length
      · have complete (id : UInt64) : (order ++ [id]).length = ops.length := by simpa using last
        have turn (position : OpRecord Input Output × Nat) (search : SearchState State)
            (calm : search.inconclusive = false) :
            (tryPosition model table used order state (dfs model ops table maxSteps fuel) position
              search).search.inconclusive = false := by
          rcases tryPosition_cases model table used order state position with skips | ⟨next, places⟩
          · rwa [skips]
          · rwa [places, search_ofCall, dfs_full _ _ _ _ _ _ _ _ _ (complete position.1.id)]
        have calm := tryEach_keeps (fun search : SearchState State => search.inconclusive = false)
          turn ops.zipIdx { search with
            seen := search.seen ++ [(used, state)], explored := search.explored + 1 } start
        exact ⟨fun _ => calm, Or.inl calm⟩
      · have deeper (id : UInt64) : (order ++ [id]).length < ops.length := by
          simp
          omega
        apply tryEach_found_quiet (fun search : SearchState State => search.inconclusive = false)
          (fun search => maxSteps ≤ search.explored)
        · intro position search result after calm turn
          rcases tryPosition_cases model table used order state position with skips | ⟨next, places⟩
          · rw [skips] at turn
            cases turn
          · obtain ⟨found, _⟩ := ih (used.set position.2 true) _ next search
              (deeper position.1.id).le calm
            rw [places] at turn
            generalize dfs model ops table maxSteps fuel _ _ next search = returned at turn found
            obtain ⟨_ | order, last⟩ := returned <;> cases turn
            exact found rfl
        · intro position search calm
          rcases tryPosition_cases model table used order state position with skips | ⟨next, places⟩
          · rw [skips]
            exact Or.inl calm
          · rw [places, search_ofCall]
            exact (ih _ _ next search (deeper position.1.id).le calm).2
        · intro position search spent
          rcases tryPosition_cases model table used order state position with skips | ⟨next, places⟩
          · exact ⟨search, skips _ _, spent⟩
          · refine ⟨{ search with inconclusive := true }, ?_, spent⟩
            rw [places, dfs_spent _ _ _ _ _ _ _ _ _ (deeper position.1.id) spent]
            rfl
        · exact Or.inl start

theorem runSearch_agrees (model : Model State Input Output) (ops : History Input Output)
    {low high : Nat} (larger : low ≤ high)
    (conclusive : (runSearch model ops low).inconclusive = false) :
    runSearch model ops high = runSearch model ops low := by
  obtain ⟨_, same⟩ := dfs_agrees model ops (predecessors ops) larger ops.length
    (List.replicate ops.length false) [] model.init ⟨0, false, []⟩ conclusive
  simp only [runSearch, same]

theorem runSearch_found_conclusive (model : Model State Input Output)
    (ops : History Input Output) (maxSteps : Nat)
    (gaveUp : (runSearch model ops maxSteps).inconclusive = true) :
    (runSearch model ops maxSteps).linearizable = false := by
  have found := (dfs_found_conclusive model ops (predecessors ops) maxSteps ops.length
    (List.replicate ops.length false) [] model.init ⟨0, false, []⟩ (Nat.zero_le _) rfl).1
  apply Bool.eq_false_iff.mpr
  intro complete
  have conclusive : (runSearch model ops maxSteps).inconclusive = false := found complete
  rw [conclusive] at gaveUp
  cases gaveUp

theorem linearizable_repeats (model : Model State Input Output) (history : History Input Output)
    {low high : CheckBudget} (larger : low.maxSteps ≤ high.maxSteps)
    (conclusive : (checkLinearizableWithBudget model history low).isInconclusive = false) :
    (checkLinearizableWithBudget model history low).Repeats
      (checkLinearizableWithBudget model history high) := by
  have quiet : (runSearch model (completedOps history) low.maxSteps).inconclusive = false := by
    rcases verdict_cases model history low with ⟨_, gaveUp⟩ | ⟨quiet, _⟩ | ⟨quiet, _⟩
    · rw [gaveUp] at conclusive
      cases conclusive
    · exact quiet
    · exact quiet
  have same := runSearch_agrees model (completedOps history) larger quiet
  simp only [checkLinearizableWithBudget, same, quiet, Bool.false_eq_true, if_false]
  cases (runSearch model (completedOps history) low.maxSteps).linearizable with
  | true => exact rfl
  | false => exact trivial

end Linearizability

section Serializability

variable {Key Value : Type} [LinearOrder Key] [DecidableEq Value]

/-- A transaction waits, fails and costs a step, or is placed by the recursive call. -/
theorem tryTxn_cases (table : List (List Nat)) (used : List Bool) (order : List UInt64)
    (state : SortedMap Key Value) (position : TxnOpRecord Key Value × Nat) :
    (ready table used position.2 = false ∧ ∀ recurse search,
      tryTxn table used order state recurse position search = .next search) ∨
    (ready table used position.2 = true ∧ applyTxn state position.1 = none ∧ ∀ recurse search,
      tryTxn table used order state recurse position search =
        .next { search with explored := search.explored + 1 }) ∨
    ∃ next, ready table used position.2 = true ∧ applyTxn state position.1 = some next ∧
      ∀ recurse search, tryTxn table used order state recurse position search =
        .ofCall TxnSearch.inconclusive (recurse (used.set position.2 true)
          (order ++ [position.1.id]) next { search with explored := search.explored + 1 }) := by
  by_cases waiting : ready table used position.2 = false
  · exact Or.inl ⟨waiting, fun _ _ => by rw [tryTxn, if_pos waiting]⟩
  · have isReady : ready table used position.2 = true := by simpa using waiting
    cases applied : applyTxn state position.1 with
    | none =>
        refine Or.inr (Or.inl ⟨isReady, rfl, fun _ _ => ?_⟩)
        rw [tryTxn, if_neg waiting, applied]
    | some next =>
        refine Or.inr (Or.inr ⟨next, isReady, rfl, fun recurse search => ?_⟩)
        rw [tryTxn, if_neg waiting, applied]
        dsimp only
        generalize recurse _ _ next _ = returned
        obtain ⟨_ | found, after⟩ := returned <;> rfl

theorem txnDfs_agrees (txns : TxnHistory Key Value) (table : List (List Nat)) {low high : Nat}
    (larger : low ≤ high) (fuel : Nat) (used : List Bool) (order : List UInt64)
    (state : SortedMap Key Value) (search : TxnSearch Key Value)
    (ended : (txnDfs txns table low fuel used order state search).2.inconclusive = false) :
    search.inconclusive = false ∧
      txnDfs txns table high fuel used order state search =
        txnDfs txns table low fuel used order state search := by
  induction fuel generalizing used order state search with
  | zero =>
      rw [txnDfs] at ended ⊢
      rw [txnDfs]
      split_ifs at ended ⊢ <;> simp_all <;> omega
  | succ fuel ih =>
      rw [txnDfs] at ended ⊢
      rw [txnDfs]
      by_cases out : low ≤ search.explored
      · rw [if_pos out] at ended
        cases ended
      have room : ¬high ≤ search.explored := by omega
      rw [if_neg out] at ended ⊢
      rw [if_neg room]
      split_ifs at ended ⊢
      · exact ⟨ended, rfl⟩
      · exact ⟨ended, rfl⟩
      refine tryEach_agrees (fun search : TxnSearch Key Value => search.inconclusive = false)
        ?_ _ _ ended
      intro position search calm
      rcases tryTxn_cases table used order state position with
        ⟨_, skips⟩ | ⟨_, _, fails⟩ | ⟨next, _, _, places⟩
      · rw [skips] at calm
        exact ⟨calm, by rw [skips, skips]⟩
      · rw [fails] at calm
        exact ⟨calm, by rw [fails, fails]⟩
      · rw [places, search_ofCall] at calm
        obtain ⟨start, same⟩ := ih _ _ next _ calm
        exact ⟨start, by rw [places, places, same]⟩

theorem serializable_repeats (initial : SortedMap Key Value) (history : TxnHistory Key Value)
    {low high : CheckBudget} (larger : low.maxSteps ≤ high.maxSteps)
    (conclusive : (checkSerializable initial history low).isInconclusive = false) :
    (checkSerializable initial history low).Repeats (checkSerializable initial history high) := by
  have agrees := txnDfs_agrees (committedTxns history) (txnPredecessors (committedTxns history))
    larger (committedTxns history).length (List.replicate (committedTxns history).length false) []
    initial ⟨0, false, []⟩
  simp only [checkSerializable] at conclusive ⊢
  split_ifs at conclusive with gaveUp
  · cases conclusive
  · obtain ⟨_, same⟩ := agrees (by simpa using gaveUp)
    rw [same, if_neg gaveUp]
    split
    · exact rfl
    · exact trivial

end Serializability

/-- A conclusive verdict stands under every larger budget, and a complete order
is never found by a search that gives up. -/
theorem conclusive_verdicts_stand :
    (∀ {State Input Output : Type} [DecidableEq State] [DecidableEq Output]
      (model : Model State Input Output) (history : History Input Output) (low high : CheckBudget),
      low.maxSteps ≤ high.maxSteps →
      (checkLinearizableWithBudget model history low).isInconclusive = false →
      (checkLinearizableWithBudget model history low).Repeats
        (checkLinearizableWithBudget model history high)) ∧
    (∀ {Key Value : Type} [LinearOrder Key] [DecidableEq Value] (initial : SortedMap Key Value)
      (history : TxnHistory Key Value) (low high : CheckBudget),
      low.maxSteps ≤ high.maxSteps →
      (checkSerializable initial history low).isInconclusive = false →
      (checkSerializable initial history low).Repeats (checkSerializable initial history high)) ∧
    ∀ {State Input Output : Type} [DecidableEq State] [DecidableEq Output]
      (model : Model State Input Output) (ops : History Input Output) (maxSteps : Nat),
      (runSearch model ops maxSteps).inconclusive = true →
      (runSearch model ops maxSteps).linearizable = false := by
  refine ⟨?_, ?_, ?_⟩
  · intro State Input Output _ _ model history low high larger conclusive
    exact linearizable_repeats model history larger conclusive
  · intro Key Value _ _ initial history low high larger conclusive
    exact serializable_repeats initial history larger conclusive
  · intro State Input Output _ _ model ops maxSteps gaveUp
    exact runSearch_found_conclusive model ops maxSteps gaveUp

end Detersim
