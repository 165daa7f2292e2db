import Detersim.CheckerExactness
import Detersim.GreedyCore

/-!
The failing core of a history that is not linearizable: what the minimisation
keeps is one greedy pass over the completed operations, with the search itself
as the test.
-/

namespace Detersim

open GreedyCore

variable {State Input Output : Type} [DecidableEq State] [DecidableEq Output]

/-- The search is conclusive and finds no legal order. -/
def searchRejects (model : Model State Input Output) (maxSteps : Nat)
    (ops : History Input Output) : Bool :=
  let search := runSearch model ops maxSteps
  !search.linearizable && !search.inconclusive

/-- The operations `minimize_failure` names by their identifiers. -/
def keptOps (model : Model State Input Output) (ops : History Input Output) (maxSteps : Nat) :
    History Input Output :=
  (minimizeLoop model ops maxSteps (List.range ops.length) 0).filterMap fun index => ops[index]?

/-- One turn of the loop of `minimize_failure`. -/
def minimizeTurn (model : Model State Input Output) (ops : History Input Output) (maxSteps : Nat) :
    List Nat × Nat → List Nat × Nat
  | (keep, pos) =>
      let candidate := keep.eraseIdx pos
      if candidate.isEmpty then (keep, pos + 1)
      else if searchRejects model maxSteps (candidate.filterMap fun index => ops[index]?) then
        (candidate, pos)
      else (keep, pos + 1)

/-- The positions left before the turn of the given number. -/
def minimizeTurns (model : Model State Input Output) (ops : History Input Output) (maxSteps : Nat) :
    Nat → List Nat × Nat
  | 0 => (List.range ops.length, 0)
  | turn + 1 => minimizeTurn model ops maxSteps (minimizeTurns model ops maxSteps turn)

section Loop

variable (model : Model State Input Output) (ops : History Input Output) (maxSteps : Nat)

theorem searchRejects_iff :
    searchRejects model maxSteps ops = true ↔
      (runSearch model ops maxSteps).linearizable = false ∧
        (runSearch model ops maxSteps).inconclusive = false := by
  simp [searchRejects]

theorem searchRejects_nil : searchRejects model maxSteps [] = false := by
  simp [searchRejects, runSearch, dfs]

theorem minimizeFailure_eq :
    minimizeFailure model ops maxSteps = (keptOps model ops maxSteps).map OpRecord.id := by
  rw [minimizeFailure, keptOps, List.map_filterMap]

/-- The loop is its turns, each followed by a new test of the bound. -/
theorem minimizeLoop_turn (keep : List Nat) (pos : Nat) (bound : pos < keep.length) :
    minimizeLoop model ops maxSteps keep pos =
      minimizeLoop model ops maxSteps (minimizeTurn model ops maxSteps (keep, pos)).1
        (minimizeTurn model ops maxSteps (keep, pos)).2 := by
  rw [minimizeLoop, if_pos bound, minimizeTurn]
  simp only [← searchRejects_iff]
  split_ifs <;> rfl

/-- A turn leaves one position less to be tried. -/
theorem minimizeTurn_progress (keep : List Nat) (pos left : Nat)
    (bound : keep.length = pos + (left + 1)) :
    (minimizeTurn model ops maxSteps (keep, pos)).1.length =
      (minimizeTurn model ops maxSteps (keep, pos)).2 + left := by
  have shorter := List.length_eraseIdx_of_lt (show pos < keep.length by omega)
  rw [minimizeTurn]
  split_ifs <;> dsimp only <;> omega

theorem eraseIdx_take_drop (keep : List Nat) (pos : Nat) (bound : pos < keep.length) :
    (keep.eraseIdx pos).take pos = keep.take pos ∧
      (keep.eraseIdx pos).drop pos = keep.drop (pos + 1) := by
  have sized : (keep.take pos).length = pos := List.length_take_of_le (by omega)
  rw [List.eraseIdx_eq_take_drop_succ]
  exact ⟨List.take_left' sized, List.drop_left' sized⟩

/-- The pass of the library, over positions, with a test that reads the operations. -/
theorem minimizeLoop_greedy (keep : List Nat) (pos : Nat) :
    minimizeLoop model ops maxSteps keep pos =
      greedy (fun positions => searchRejects model maxSteps
        (positions.filterMap fun index => ops[index]?)) (keep.take pos) (keep.drop pos) := by
  fun_induction minimizeLoop model ops maxSteps keep pos with
  | case1 keep pos bound candidate empty ih =>
      -- The source does not search the empty list, which has a legal order anyway.
      have nothing : keep.take pos ++ keep.drop (pos + 1) = [] := by
        rw [← List.eraseIdx_eq_take_drop_succ]
        exact List.isEmpty_iff.mp empty
      rw [ih, List.drop_eq_getElem_cons bound, greedy, nothing, List.filterMap_nil,
        searchRejects_nil, if_neg (by simp), List.take_concat_get' keep pos bound]
  | case2 keep pos bound candidate present search fails ih =>
      obtain ⟨front, back⟩ := eraseIdx_take_drop keep pos bound
      rw [ih, front, back, List.drop_eq_getElem_cons bound, greedy,
        ← List.eraseIdx_eq_take_drop_succ, if_pos ((searchRejects_iff _ _ _).mpr fails)]
  | case3 keep pos bound candidate present search passes ih =>
      rw [ih, List.drop_eq_getElem_cons bound, greedy, ← List.eraseIdx_eq_take_drop_succ,
        if_neg (fun rejected => passes ((searchRejects_iff _ _ _).mp rejected)),
        List.take_concat_get' keep pos bound]
  | case4 keep pos bound =>
      rw [List.drop_eq_nil_of_le (by omega), List.take_of_length_le (by omega), greedy]

omit [DecidableEq State] [DecidableEq Output] in
theorem filterMap_range_getElem? (ops : History Input Output) :
    (List.range ops.length).filterMap (fun index => ops[index]?) = ops := by
  induction ops with
  | nil => rfl
  | cons op rest ih =>
      rw [List.length_cons, List.range_succ_eq_map, List.filterMap_cons, List.filterMap_map]
      exact congrArg (op :: ·) ih

theorem keptOps_greedy :
    keptOps model ops maxSteps = greedy (searchRejects model maxSteps) [] ops := by
  have named : ∀ index ∈ List.range ops.length, (ops[index]?).isSome = true := by
    intro index member
    simpa using List.mem_range.mp member
  have transferred := greedy_filterMap (searchRejects model maxSteps) (fun index => ops[index]?)
    [] (List.range ops.length) named
  rw [filterMap_range_getElem?, List.filterMap_nil] at transferred
  rw [keptOps, minimizeLoop_greedy, List.take_zero, List.drop_zero, transferred]

/-- Before each turn there are as many positions to be tried as turns are left. -/
theorem minimizeTurns_progress (turn left : Nat) (counted : turn + left = ops.length) :
    (minimizeTurns model ops maxSteps turn).1.length =
      (minimizeTurns model ops maxSteps turn).2 + left := by
  induction turn generalizing left with
  | zero => simp [minimizeTurns, ← counted]
  | succ turn ih =>
      exact minimizeTurn_progress model ops maxSteps _ _ left (ih (left + 1) (by omega))

theorem minimizeTurns_loop (turn : Nat) (bound : turn ≤ ops.length) :
    minimizeLoop model ops maxSteps (minimizeTurns model ops maxSteps turn).1
        (minimizeTurns model ops maxSteps turn).2 =
      minimizeLoop model ops maxSteps (List.range ops.length) 0 := by
  induction turn with
  | zero => rfl
  | succ turn ih =>
      have before := minimizeTurns_progress model ops maxSteps turn (ops.length - turn) (by omega)
      rw [← ih (by omega), minimizeLoop_turn _ _ _ _
        (minimizeTurns model ops maxSteps turn).2 (by omega), minimizeTurns]

/-- The loop tests each operation once and stops. -/
theorem minimizeTurns_stop :
    (∀ turn < ops.length, (minimizeTurns model ops maxSteps turn).2 <
      (minimizeTurns model ops maxSteps turn).1.length) ∧
    (minimizeTurns model ops maxSteps ops.length).2 =
      (minimizeTurns model ops maxSteps ops.length).1.length ∧
    (minimizeTurns model ops maxSteps ops.length).1 =
      minimizeLoop model ops maxSteps (List.range ops.length) 0 := by
  have done := minimizeTurns_progress model ops maxSteps ops.length 0 (by omega)
  refine ⟨?_, by omega, ?_⟩
  · intro turn bound
    have before := minimizeTurns_progress model ops maxSteps turn (ops.length - turn) (by omega)
    omega
  · rw [← minimizeTurns_loop model ops maxSteps ops.length le_rfl, minimizeLoop,
      if_neg (by omega)]

end Loop

section Verdict

omit [DecidableEq State] [DecidableEq Output] in
theorem completedOps_sublist (history kept : History Input Output)
    (inside : kept.Sublist (completedOps history)) : completedOps kept = kept := by
  apply List.filter_eq_self.mpr
  intro op member
  exact (List.mem_filter.mp (inside.subset member)).2

/-- The checker rejects what its search rejects. -/
theorem isNotLinearizable_eq (model : Model State Input Output) (history : History Input Output)
    (budget : CheckBudget) :
    (checkLinearizableWithBudget model history budget).isNotLinearizable =
      searchRejects model budget.maxSteps (completedOps history) := by
  simp only [checkLinearizableWithBudget, searchRejects]
  cases (runSearch model (completedOps history) budget.maxSteps).inconclusive <;>
    cases (runSearch model (completedOps history) budget.maxSteps).linearizable <;> rfl

theorem isNotLinearizable_kept (model : Model State Input Output)
    (history kept : History Input Output) (budget : CheckBudget)
    (inside : kept.Sublist (completedOps history)) :
    (checkLinearizableWithBudget model kept budget).isNotLinearizable =
      searchRejects model budget.maxSteps kept := by
  rw [isNotLinearizable_eq, completedOps_sublist history kept inside]

omit [DecidableEq State] [DecidableEq Output] in
theorem conflictOf_map (ops : History Input Output) (nonempty : ops ≠ []) :
    ∃ first last, ops.head? = some first ∧ ops.getLast? = some last ∧
      conflictOf (ops.map OpRecord.id) = some (first.id, last.id) := by
  cases ops with
  | nil => exact absurd rfl nonempty
  | cons first rest =>
      refine ⟨first, _, rfl, List.getLast?_eq_some_getLast nonempty, ?_⟩
      cases rest with
      | nil => rfl
      | cons second rest =>
          have last := List.getLast_map (l := second :: rest) (f := OpRecord.id) (by simp)
          rw [List.map_cons, List.map_cons, conflictOf, List.getLast_cons_cons]
          exact congrArg (fun id => some (first.id, id)) last

theorem verdict_minimal {model : Model State Input Output} {history : History Input Output}
    {budget : CheckBudget} {reason : String} {conflict : Option (UInt64 × UInt64)}
    {minimalSubhistory : List UInt64} {exploredStates : Nat} {budgetExhausted : Bool}
    (verdict : checkLinearizableWithBudget model history budget =
      .notLinearizable reason conflict minimalSubhistory exploredStates budgetExhausted) :
    minimalSubhistory = (keptOps model (completedOps history) budget.maxSteps).map OpRecord.id ∧
      conflict = conflictOf minimalSubhistory ∧ budgetExhausted = false ∧
      searchRejects model budget.maxSteps (completedOps history) = true := by
  have rejected := isNotLinearizable_eq model history budget
  rw [verdict] at rejected
  refine ⟨?_, ?_, ?_, rejected.symm⟩
  all_goals
    simp only [checkLinearizableWithBudget] at verdict
    split_ifs at verdict
    cases verdict
  · exact minimizeFailure_eq model _ _
  · rfl
  · rfl

/-- Adding completed operations of the history back never makes the checker
take back `NotLinearizable`. -/
def RejectionMonotone (model : Model State Input Output) (history : History Input Output)
    (budget : CheckBudget) : Prop :=
  ∀ small large, small.Sublist large → large.Sublist (completedOps history) →
    (checkLinearizableWithBudget model small budget).isNotLinearizable = true →
    (checkLinearizableWithBudget model large budget).isNotLinearizable = true

variable (model : Model State Input Output) (history : History Input Output)
  (budget : CheckBudget)

/-- Each operation kept was needed when the loop tried to drop it, beside the
operations kept before it and all completed ones after it; where rejections are
monotone, the core is 1-minimal. -/
theorem kept_ops_needed :
    (∀ reason conflict minimalSubhistory exploredStates budgetExhausted,
      checkLinearizableWithBudget model history budget =
        .notLinearizable reason conflict minimalSubhistory exploredStates budgetExhausted →
      minimalSubhistory =
        (keptOps model (completedOps history) budget.maxSteps).map OpRecord.id) ∧
    (∀ before op after,
      keptOps model (completedOps history) budget.maxSteps = before ++ op :: after →
      ∃ skipped later, completedOps history = skipped ++ op :: later ∧
        before.Sublist skipped ∧ after.Sublist later ∧
        (checkLinearizableWithBudget model (before ++ later) budget).isNotLinearizable = false) ∧
    (RejectionMonotone model history budget →
      OneMinimal (fun ops => (checkLinearizableWithBudget model ops budget).isNotLinearizable)
        (keptOps model (completedOps history) budget.maxSteps)) := by
  refine ⟨?_, ?_, ?_⟩
  · intro reason conflict minimalSubhistory exploredStates budgetExhausted verdict
    exact (verdict_minimal verdict).1
  all_goals rw [keptOps_greedy]
  · intro before op after split
    obtain ⟨skipped, later, whole, inside, earlier, needed⟩ := greedy_needed
      (searchRejects model budget.maxSteps) [] _ before after op split (Nat.zero_le _)
    refine ⟨skipped, later, whole, earlier, inside, ?_⟩
    rw [isNotLinearizable_kept model history, needed]
    rw [whole]
    exact List.Sublist.append earlier (List.sublist_cons_self op later)
  · intro monotone before op after split
    have within := split ▸ greedy_sublist (searchRejects model budget.maxSteps) []
      (completedOps history)
    have dropped : (before ++ after).Sublist (completedOps history) :=
      (List.Sublist.append_left (List.sublist_cons_self op after) before).trans within
    dsimp only
    rw [isNotLinearizable_kept model history _ _ dropped]
    apply greedy_oneMinimal _ _ ?_ before op after split
    intro small large smaller larger
    have kept := monotone small large smaller larger
    rw [isNotLinearizable_kept model history _ _ larger,
      isNotLinearizable_kept model history _ _ (smaller.trans larger)] at kept
    exact kept

/-- A write of 2 hides the write of 1 that the read needs, and while the write
of 1 is there the write of 2 cannot go; the loop does not come back to it. -/
def hiddenWrite : History (RegisterInput Nat) (RegisterOutput Nat) :=
  [.completed 1 0 (.write 2) .ok 2 3, .completed 2 1 (.write 1) .ok 0 1,
    .completed 3 2 .read (.value 1) 4 5]

theorem kept_ops_not_minimal :
    ¬ ∀ (history : History (RegisterInput Nat) (RegisterOutput Nat)) (budget : CheckBudget),
      (checkLinearizableWithBudget (register 0) history budget).isNotLinearizable = true →
      OneMinimal
        (fun ops => (checkLinearizableWithBudget (register 0) ops budget).isNotLinearizable)
        (keptOps (register 0) (completedOps history) budget.maxSteps) := by
  intro minimal
  have rejected : (checkLinearizableWithBudget (register 0) hiddenWrite ⟨100⟩).isNotLinearizable =
      true := by
    rw [isNotLinearizable_eq]
    decide
  have kept : keptOps (register 0) (completedOps hiddenWrite) 100 =
      [.completed 1 0 (.write 2) .ok 2 3, .completed 3 2 .read (.value 1) 4 5] := by
    rw [keptOps_greedy]
    decide
  -- The read alone already fails.
  have needed := minimal hiddenWrite ⟨100⟩ rejected [] _ [_] kept
  dsimp only at needed
  rw [List.nil_append, isNotLinearizable_eq] at needed
  revert needed
  decide

/-- What a `NotLinearizable` result names fails by itself, and the loop that
finds it stops after one turn for each completed operation. -/
theorem failing_core :
    (∀ reason conflict minimalSubhistory exploredStates budgetExhausted,
      checkLinearizableWithBudget model history budget =
        .notLinearizable reason conflict minimalSubhistory exploredStates budgetExhausted →
      let kept := keptOps model (completedOps history) budget.maxSteps
      minimalSubhistory = kept.map OpRecord.id ∧
      kept ≠ [] ∧
      kept.Sublist (completedOps history) ∧
      (runSearch model kept budget.maxSteps).inconclusive = false ∧
      (runSearch model kept budget.maxSteps).linearizable = false ∧
      budgetExhausted = false ∧
      ∃ first last, kept.head? = some first ∧ kept.getLast? = some last ∧
        conflict = some (first.id, last.id)) ∧
    (∀ turn < (completedOps history).length,
      (minimizeTurns model (completedOps history) budget.maxSteps turn).2 <
        (minimizeTurns model (completedOps history) budget.maxSteps turn).1.length) ∧
    (minimizeTurns model (completedOps history) budget.maxSteps
      (completedOps history).length).2 =
        (minimizeTurns model (completedOps history) budget.maxSteps
          (completedOps history).length).1.length ∧
    minimizeFailure model (completedOps history) budget.maxSteps =
      (minimizeTurns model (completedOps history) budget.maxSteps
        (completedOps history).length).1.filterMap fun index =>
          (completedOps history)[index]?.map OpRecord.id := by
  obtain ⟨runs, stops, last⟩ := minimizeTurns_stop model (completedOps history) budget.maxSteps
  refine ⟨?_, runs, stops, by rw [last, minimizeFailure]⟩
  intro reason conflict minimalSubhistory exploredStates budgetExhausted verdict kept
  obtain ⟨named, pair, exhausted, rejected⟩ := verdict_minimal verdict
  have same : kept = greedy (searchRejects model budget.maxSteps) [] (completedOps history) :=
    keptOps_greedy model (completedOps history) budget.maxSteps
  have failing : searchRejects model budget.maxSteps kept = true :=
    same ▸ greedy_fails _ [] _ rejected
  have nonempty : kept ≠ [] := by
    intro empty
    rw [empty, searchRejects_nil] at failing
    cases failing
  obtain ⟨illegal, conclusive⟩ := (searchRejects_iff model kept budget.maxSteps).mp failing
  refine ⟨named, nonempty, same ▸ greedy_sublist _ [] _, conclusive, illegal, exhausted, ?_⟩
  rw [pair, named]
  exact conflictOf_map kept nonempty

end Verdict

end Detersim
