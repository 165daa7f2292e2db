import Detersim.Checker
import Mathlib.Data.Finset.Range
import Mathlib.Data.List.Permutation

/-!
The linearizability checker decides what enumerating every order decides,
whenever it decides.
-/

namespace Detersim

open MemoSearch OrderSearch

variable {State Input Output : Type}

section Orders

variable [DecidableEq Output] (model : Model State Input Output)

theorem applyOp_iff (state next : State) (op : OpRecord Input Output) :
    applyOp model state op = some next ↔
      ∃ observed, op.output = some observed ∧ model.step state op.input = some (next, observed) := by
  unfold applyOp
  cases op.output with
  | none => simp
  | some observed =>
      cases step : model.step state op.input with
      | none => simp
      | some outcome =>
          obtain ⟨after, expected⟩ := outcome
          by_cases same : expected = observed <;> simp [same]

theorem applies_iff_accepts (order : History Input Output) (state : State)
    (observed : ∀ op ∈ order, op.output.isSome = true) :
    (order.foldlM (applyOp model) state).isSome = true ↔ Accepts model state order := by
  induction order generalizing state with
  | nil => simp [Accepts]
  | cons op rest ih =>
      have later := fun next => ih next fun other member =>
        observed other (List.mem_cons_of_mem _ member)
      obtain ⟨output, present⟩ := Option.isSome_iff_exists.mp (observed op List.mem_cons_self)
      rw [List.foldlM_cons, Accepts]
      constructor
      · intro succeeds
        cases applied : applyOp model state op with
        | none => simp [applied] at succeeds
        | some next =>
            obtain ⟨seen, same, step⟩ := (applyOp_iff model state next op).mp applied
            refine ⟨next, seen, step, ?_, (later next).mp (by simpa [applied] using succeeds)⟩
            intro other equal
            exact Option.some.inj (equal.symm.trans same)
      · rintro ⟨next, expected, step, matching, accepted⟩
        have applied := (applyOp_iff model state next op).mpr
          ⟨output, present, (matching output present) ▸ step⟩
        rw [applied]
        exact (later next).mpr accepted

theorem legalOrder_iff (ops order : History Input Output)
    (observed : ∀ op ∈ ops, op.output.isSome = true) :
    LegalOrder OpRecord.completesBefore (applyOp model) model.init ops order ↔
      Linearization model ops order := by
  have transfer (permutation : order.Perm ops) := applies_iff_accepts model order model.init
    fun op member => observed op (permutation.subset member)
  constructor
  · rintro ⟨permutation, respects, applies⟩
    exact ⟨permutation, respects, (transfer permutation).mp applies⟩
  · rintro ⟨permutation, respects, accepted⟩
    exact ⟨permutation, respects, (transfer permutation).mpr accepted⟩

/-- Plain enumeration of all orders. -/
def enumerates (ops : History Input Output) : Bool :=
  ops.permutations.any fun order =>
    decide (order.Pairwise fun earlier later => later.completesBefore earlier = false) &&
      (order.foldlM (applyOp model) model.init).isSome

theorem enumerates_iff (ops : History Input Output)
    (observed : ∀ op ∈ ops, op.output.isSome = true) :
    enumerates model ops = true ↔ Linearizes model ops := by
  simp only [enumerates, List.any_eq_true, List.mem_permutations, Bool.and_eq_true,
    decide_eq_true_eq]
  constructor
  · rintro ⟨order, permutation, respects, applies⟩
    exact ⟨order, (legalOrder_iff model ops order observed).mp ⟨permutation, respects, applies⟩⟩
  · rintro ⟨order, legal⟩
    obtain ⟨permutation, respects, applies⟩ := (legalOrder_iff model ops order observed).mpr legal
    exact ⟨order, permutation, respects, applies⟩

end Orders

theorem completed_observed (history : History Input Output) (op : OpRecord Input Output)
    (member : op ∈ completedOps history) : op.output.isSome = true := by
  have complete := (List.mem_filter.mp member).2
  simp only [OpRecord.isComplete, Bool.and_eq_true] at complete
  exact complete.1

/-- The sets of operations placed by legal prefixes, with the state each leaves.
Operations are named by their position in the list. -/
inductive LegalPrefix (model : Model State Input Output) (ops : History Input Output) :
    Finset Nat × State → Prop where
  | start : LegalPrefix model ops (∅, model.init)
  | place {used state next index op observed} : LegalPrefix model ops (used, state) →
      ops[index]? = some op → index ∉ used →
      (∀ other left, ops[other]? = some left → other ≠ index → left.completesBefore op = true →
        other ∈ used) →
      op.output = some observed → model.step state op.input = some (next, observed) →
      LegalPrefix model ops (insert index used, next)

def usedSet (size : Nat) (used : List Bool) : Finset Nat :=
  (Finset.range size).filter fun index => used.getD index true = true

theorem usedSet_injective {size : Nat} {left right : List Bool} (leftSized : left.length = size)
    (rightSized : right.length = size) (same : usedSet size left = usedSet size right) :
    left = right := by
  -- Flags beyond the list read as `true`, which is why the lengths have to agree.
  apply List.ext_getElem (leftSized.trans rightSized.symm)
  intro index leftBound rightBound
  have inside : index ∈ usedSet size left ↔ index ∈ usedSet size right := by rw [same]
  simp only [usedSet, Finset.mem_filter, Finset.mem_range, leftSized ▸ leftBound, true_and,
    List.getD_eq_getElem?_getD, List.getElem?_eq_getElem leftBound,
    List.getElem?_eq_getElem rightBound, Option.getD_some] at inside
  exact Bool.eq_iff_iff.mpr inside

theorem usedSet_set (size index : Nat) (used : List Bool) (bound : index < size) :
    usedSet size (used.set index true) = insert index (usedSet size used) := by
  ext other
  simp only [usedSet, Finset.mem_filter, Finset.mem_range, getD_set, Finset.mem_insert]
  by_cases same : other = index <;> simp [same, bound]

/-- The sets of positions placed by legal prefixes, with the state each leaves. -/
inductive Placed {Record State : Type} (precedes : Record → Record → Bool)
    (apply : State → Record → Option State) (start : State) (records : List Record) :
    Finset Nat × State → Prop where
  | start : Placed precedes apply start records (∅, start)
  | place {used state next index record} : Placed precedes apply start records (used, state) →
      records[index]? = some record → index ∉ used →
      (∀ other left, records[other]? = some left → other ≠ index → precedes left record = true →
        other ∈ used) →
      apply state record = some next →
      Placed precedes apply start records (insert index used, next)

section Reached

variable {Record : Type} (precedes : Record → Record → Bool)
  (apply : State → Record → Option State) (start : State) (records : List Record)

theorem reached_placed (node : Node State)
    (reached : Reached precedes apply start records node) :
    node.1.length = records.length ∧
      Placed precedes apply start records (usedSet records.length node.1, node.2) := by
  induction reached with
  | start =>
      refine ⟨by simp [root], ?_⟩
      have empty : usedSet records.length (List.replicate records.length false) = ∅ := by
        apply Finset.filter_eq_empty_iff.mpr
        intro index inside
        simp [Finset.mem_range.mp inside]
      exact empty ▸ Placed.start
  | @place node next label _ edge ih =>
      obtain ⟨sized, before⟩ := ih
      obtain ⟨inside, isReady, flags, applied⟩ := (mem_children _ _ records node label next).mp edge
      obtain ⟨free, earlier⟩ := (ready_iff _ records node.1 inside).mp isReady
      have bound := index_lt records inside
      refine ⟨by rw [flags, List.length_set, sized], ?_⟩
      rw [flags, usedSet_set _ _ _ bound]
      refine Placed.place before (List.mem_zipIdx_iff_getElem?.mp inside) ?_ ?_ applied
      · intro placed
        have used := (Finset.mem_filter.mp placed).2
        rw [free] at used
        cases used
      · intro other left present different precedes
        have member : (left, other) ∈ records.zipIdx := List.mem_zipIdx_iff_getElem?.mpr present
        exact Finset.mem_filter.mpr ⟨Finset.mem_range.mpr (index_lt records member),
          earlier (left, other) member different precedes⟩

/-- A search meets no more nodes than there are pairs of a placed set and a state. -/
theorem reached_encard_le {View : Type} (pairs : Set (Finset Nat × View)) (view : State → View)
    (injective : Function.Injective view)
    (inside : ∀ used state, Placed precedes apply start records (used, state) →
      (used, view state) ∈ pairs) :
    Set.encard {node | Reached precedes apply start records node} ≤ pairs.encard := by
  have injOn : Set.InjOn (fun node : Node State => (usedSet records.length node.1, view node.2))
      {node | Reached precedes apply start records node} := by
    intro left leftReached right rightReached same
    dsimp only at same
    have used := usedSet_injective (reached_placed _ _ _ _ left leftReached).1
      (reached_placed _ _ _ _ right rightReached).1 (congrArg Prod.fst same)
    exact Prod.ext used (injective (Prod.mk.inj same).2)
  rw [← injOn.encard_image]
  apply Set.encard_le_encard
  rintro _ ⟨node, reached, rfl⟩
  exact inside _ _ (reached_placed _ _ _ _ node reached).2

end Reached

theorem placed_legalPrefix [DecidableEq Output] (model : Model State Input Output)
    (ops : History Input Output) (pair : Finset Nat × State)
    (placed : Placed OpRecord.completesBefore (applyOp model) model.init ops pair) :
    LegalPrefix model ops pair := by
  induction placed with
  | start => exact LegalPrefix.start
  | @place used state next index op _ present fresh earlier applied ih =>
      obtain ⟨observed, output, step⟩ := (applyOp_iff model state next op).mp applied
      exact LegalPrefix.place ih present fresh earlier output step

theorem reached_count [DecidableEq Output] (model : Model State Input Output)
    (ops : History Input Output) :
    Set.encard {node | Reached OpRecord.completesBefore (applyOp model) model.init ops node} ≤
      Set.encard {pair | LegalPrefix model ops pair} :=
  reached_encard_le _ _ _ _ _ id Function.injective_id
    fun used state placed => placed_legalPrefix model ops (used, state) placed

variable [DecidableEq State] [DecidableEq Output]

theorem runSearch_searches (model : Model State Input Output) (ops : History Input Output)
    (maxSteps : Nat) :
    ∃ path after, Searches OpRecord.completesBefore (applyOp model) model.init ops
        (spent maxSteps) path after ∧
      (runSearch model ops maxSteps).inconclusive = after.inconclusive ∧
      (runSearch model ops maxSteps).linearizable = path.isSome ∧
      (runSearch model ops maxSteps).order =
        (path.map fun labels => (labels.map Prod.fst).map OpRecord.id).getD [] := by
  obtain ⟨path, result, _, visited⟩ := dfs_searched model ops maxSteps ops.length
    (List.replicate ops.length false) [] model.init ⟨0, false, []⟩ (by simp)
    (by simp [remaining_root]) (by simp) rfl
  refine ⟨path, _, visited, rfl, ?_, ?_⟩
  · simp only [runSearch, result, Option.isSome_map]
  · simp only [runSearch, result]
    cases path <;> simp

theorem runSearch_sound (model : Model State Input Output) (ops : History Input Output)
    (maxSteps : Nat) (observed : ∀ op ∈ ops, op.output.isSome = true)
    (success : (runSearch model ops maxSteps).linearizable = true) :
    ∃ order, Linearization model ops order ∧
      (runSearch model ops maxSteps).order = order.map OpRecord.id := by
  obtain ⟨path, after, searched, _, found, order⟩ := runSearch_searches model ops maxSteps
  obtain ⟨labels, rfl⟩ := Option.isSome_iff_exists.mp (found ▸ success)
  exact ⟨labels.map Prod.fst, (legalOrder_iff model ops _ observed).mp (search_sound searched),
    order⟩

theorem runSearch_complete (model : Model State Input Output) (ops : History Input Output)
    (maxSteps : Nat) (observed : ∀ op ∈ ops, op.output.isSome = true)
    (failure : (runSearch model ops maxSteps).linearizable = false)
    (conclusive : (runSearch model ops maxSteps).inconclusive = false) :
    ¬ Linearizes model ops := by
  obtain ⟨path, after, searched, quiet, found, _⟩ := runSearch_searches model ops maxSteps
  have absent : path = none := by
    rw [found] at failure
    exact Option.isSome_eq_false_iff.mp failure |> Option.isNone_iff_eq_none.mp
  subst absent
  rintro ⟨order, legal⟩
  exact search_complete searched (quiet ▸ conclusive) order
    ((legalOrder_iff model ops order observed).mpr legal)

theorem runSearch_conclusive (model : Model State Input Output) (ops : History Input Output)
    (maxSteps : Nat)
    (ample : Set.encard {pair | LegalPrefix model ops pair} < maxSteps) :
    (runSearch model ops maxSteps).inconclusive = false := by
  obtain ⟨path, after, searched, quiet, _, _⟩ := runSearch_searches model ops maxSteps
  rw [quiet]
  refine search_conclusive 1 maxSteps ?_ ?_ searched
  · intro memo out
    simpa [spent] using out
  · simpa using lt_of_le_of_lt (reached_count model ops) ample

/-- The verdict by cases, as the three results of the search. -/
theorem verdict_cases (model : Model State Input Output) (history : History Input Output)
    (budget : CheckBudget) :
    ((runSearch model (completedOps history) budget.maxSteps).inconclusive = true ∧
      (checkLinearizableWithBudget model history budget).isInconclusive = true) ∨
    ((runSearch model (completedOps history) budget.maxSteps).inconclusive = false ∧
      (runSearch model (completedOps history) budget.maxSteps).linearizable = true ∧
      checkLinearizableWithBudget model history budget =
        .linearizable (runSearch model (completedOps history) budget.maxSteps).order) ∨
    ((runSearch model (completedOps history) budget.maxSteps).inconclusive = false ∧
      (runSearch model (completedOps history) budget.maxSteps).linearizable = false ∧
      (checkLinearizableWithBudget model history budget).isNotLinearizable = true) := by
  simp only [checkLinearizableWithBudget]
  cases (runSearch model (completedOps history) budget.maxSteps).inconclusive <;>
    cases (runSearch model (completedOps history) budget.maxSteps).linearizable <;>
      simp [LinearizabilityResult.isInconclusive, LinearizabilityResult.isNotLinearizable]

theorem linearizable_sound (model : Model State Input Output) (history : History Input Output)
    (budget : CheckBudget) (order : List UInt64)
    (verdict : checkLinearizableWithBudget model history budget = .linearizable order) :
    ∃ ops, Linearization model (completedOps history) ops ∧ order = ops.map OpRecord.id := by
  rcases verdict_cases model history budget with ⟨_, given⟩ | ⟨_, success, given⟩ | ⟨_, _, given⟩
  · simp [verdict, LinearizabilityResult.isInconclusive] at given
  · obtain ⟨ops, legal, ids⟩ := runSearch_sound model _ _ (completed_observed history) success
    rw [verdict] at given
    cases given
    exact ⟨ops, legal, ids⟩
  · simp [verdict, LinearizabilityResult.isNotLinearizable] at given

theorem notLinearizable_sound (model : Model State Input Output) (history : History Input Output)
    (budget : CheckBudget)
    (verdict : (checkLinearizableWithBudget model history budget).isNotLinearizable = true) :
    ¬ Linearizes model (completedOps history) := by
  rcases verdict_cases model history budget with
    ⟨_, given⟩ | ⟨_, _, given⟩ | ⟨conclusive, failure, _⟩
  · cases shape : checkLinearizableWithBudget model history budget <;>
      simp_all [LinearizabilityResult.isInconclusive, LinearizabilityResult.isNotLinearizable]
  · simp [given, LinearizabilityResult.isNotLinearizable] at verdict
  · exact runSearch_complete model _ _ (completed_observed history) failure conclusive

theorem ample_conclusive (model : Model State Input Output) (history : History Input Output)
    (budget : CheckBudget)
    (ample : Set.encard {pair | LegalPrefix model (completedOps history) pair} < budget.maxSteps) :
    (checkLinearizableWithBudget model history budget).isInconclusive = false := by
  have conclusive := runSearch_conclusive model _ _ ample
  rcases verdict_cases model history budget with ⟨gaveUp, _⟩ | ⟨_, _, given⟩ | ⟨_, _, given⟩
  · rw [conclusive] at gaveUp
    cases gaveUp
  · simp [given, LinearizabilityResult.isInconclusive]
  · cases shape : checkLinearizableWithBudget model history budget <;>
      simp_all [LinearizabilityResult.isInconclusive, LinearizabilityResult.isNotLinearizable]

theorem conclusive_iff (model : Model State Input Output) (history : History Input Output)
    (budget : CheckBudget)
    (conclusive : (checkLinearizableWithBudget model history budget).isInconclusive = false) :
    (checkLinearizableWithBudget model history budget).isLinearizable = true ↔
      Linearizes model (completedOps history) := by
  constructor
  · intro verdict
    cases shape : checkLinearizableWithBudget model history budget with
    | linearizable order =>
        obtain ⟨ops, legal, _⟩ := linearizable_sound model history budget order shape
        exact ⟨ops, legal⟩
    | notLinearizable => simp [shape, LinearizabilityResult.isLinearizable] at verdict
    | inconclusive => simp [shape, LinearizabilityResult.isLinearizable] at verdict
  · intro linearizes
    cases shape : checkLinearizableWithBudget model history budget with
    | linearizable => rfl
    | notLinearizable =>
        have verdict := notLinearizable_sound model history budget
          (by simp [shape, LinearizabilityResult.isNotLinearizable])
        exact absurd linearizes verdict
    | inconclusive => simp [shape, LinearizabilityResult.isInconclusive] at conclusive

/-- Memoisation and the budget do not change the answer, only whether there is one. -/
theorem checker_exact (model : Model State Input Output) (history : History Input Output)
    (budget : CheckBudget) :
    (∀ order, checkLinearizableWithBudget model history budget = .linearizable order →
      ∃ ops, Linearization model (completedOps history) ops ∧ order = ops.map OpRecord.id) ∧
    ((checkLinearizableWithBudget model history budget).isNotLinearizable = true →
      ∀ ops, ¬ Linearization model (completedOps history) ops) ∧
    (Set.encard {pair | LegalPrefix model (completedOps history) pair} < budget.maxSteps →
      (checkLinearizableWithBudget model history budget).isInconclusive = false) ∧
    ((checkLinearizableWithBudget model history budget).isInconclusive = false →
      (checkLinearizableWithBudget model history budget).isLinearizable =
        enumerates model (completedOps history)) := by
  refine ⟨linearizable_sound model history budget, ?_, ample_conclusive model history budget, ?_⟩
  · intro verdict ops legal
    exact notLinearizable_sound model history budget verdict ⟨ops, legal⟩
  · intro conclusive
    rw [Bool.eq_iff_iff, conclusive_iff model history budget conclusive,
      enumerates_iff model _ (completed_observed history)]

example :
    (checkLinearizable (register 0)
      [.completed 1 0 (.write 1) .ok 0 3, .completed 2 1 .read (.value 0) 1 2] 10).isLinearizable =
      true := by
  decide

end Detersim
