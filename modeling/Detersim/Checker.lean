import Detersim.History
import Detersim.OrderSearch

/-!
The linearizability checker: a depth-first search over used positions and model
states, with a memo table that is filled before a node is explored, one step
counter and one inconclusive flag shared by the whole recursion. The `Vec`s the
source grows and shrinks around the recursive call are passed down, so a failed
branch leaves them as they were.
-/

namespace Detersim

open MemoSearch OrderSearch

variable {State Input Output : Type} [DecidableEq State] [DecidableEq Output]

/-- A step count, never wall-clock time. -/
structure CheckBudget where
  maxSteps : Nat := 100000

structure SearchState (State : Type) where
  explored : Nat
  inconclusive : Bool
  seen : List (List Bool × State)

def predecessors (ops : History Input Output) : List (List Nat) :=
  precedenceTable OpRecord.completesBefore ops

/-- The body of the loop in `dfs`; `recurse` is the recursive call. -/
def tryPosition (model : Model State Input Output) (predecessors : List (List Nat))
    (used : List Bool) (order : List UInt64) (state : State)
    (recurse : List Bool → List UInt64 → State → SearchState State →
      Option (List UInt64) × SearchState State)
    (position : OpRecord Input Output × Nat) (search : SearchState State) :
    Attempt (List UInt64) (SearchState State) :=
  if ready predecessors used position.2 = false then .next search
  else match position.1.output with
    | none => .next search
    | some observed => match model.step state position.1.input with
      | none => .next search
      | some (next, expected) =>
          if expected ≠ observed then .next search
          else match recurse (used.set position.2 true) (order ++ [position.1.id]) next search with
            | (some found, search) => .found found search
            | (none, search) => .next search

/-- `fuel` bounds the depth; the search starts with one unit for each operation. -/
def dfs (model : Model State Input Output) (ops : History Input Output)
    (predecessors : List (List Nat)) (maxSteps : Nat) :
    Nat → List Bool → List UInt64 → State → SearchState State →
      Option (List UInt64) × SearchState State
  | fuel, used, order, state, search =>
      if order.length = ops.length then (some order, search)
      else if maxSteps ≤ search.explored then (none, { search with inconclusive := true })
      else if (used, state) ∈ search.seen then (none, search)
      else match fuel with
        | 0 => (none, search)
        | fuel + 1 =>
            tryEach
              (tryPosition model predecessors used order state
                (dfs model ops predecessors maxSteps fuel))
              ops.zipIdx
              { search with
                seen := search.seen ++ [(used, state)], explored := search.explored + 1 }

structure SearchResult where
  linearizable : Bool
  inconclusive : Bool
  explored : Nat
  order : List UInt64

def runSearch (model : Model State Input Output) (ops : History Input Output) (maxSteps : Nat) :
    SearchResult :=
  let (found, search) := dfs model ops (predecessors ops) maxSteps ops.length
    (List.replicate ops.length false) [] model.init ⟨0, false, []⟩
  { linearizable := found.isSome
    inconclusive := search.inconclusive
    explored := search.explored
    order := found.getD [] }

/-- The loop of `minimize_failure`: `keep` holds positions, `pos` the next one to try dropping. -/
def minimizeLoop (model : Model State Input Output) (ops : History Input Output) (maxSteps : Nat)
    (keep : List Nat) (pos : Nat) : List Nat :=
  if pos < keep.length then
    let candidate := keep.eraseIdx pos
    -- The last operation left is never dropped.
    if candidate.isEmpty then minimizeLoop model ops maxSteps keep (pos + 1)
    else
      let search := runSearch model (candidate.filterMap fun index => ops[index]?) maxSteps
      if search.linearizable = false ∧ search.inconclusive = false then
        minimizeLoop model ops maxSteps candidate pos
      else minimizeLoop model ops maxSteps keep (pos + 1)
  else keep
termination_by keep.length - pos
decreasing_by
  all_goals grind [List.length_eraseIdx]

def minimizeFailure (model : Model State Input Output) (ops : History Input Output)
    (maxSteps : Nat) : List UInt64 :=
  (minimizeLoop model ops maxSteps (List.range ops.length) 0).filterMap fun index =>
    ops[index]?.map OpRecord.id

inductive LinearizabilityResult where
  | linearizable (order : List UInt64)
  | notLinearizable (reason : String) (conflict : Option (UInt64 × UInt64))
      (minimalSubhistory : List UInt64) (exploredStates : Nat) (budgetExhausted : Bool)
  | inconclusive (exploredStates : Nat) (budgetExhausted : Bool)
  deriving DecidableEq

namespace LinearizabilityResult

def isLinearizable : LinearizabilityResult → Bool
  | .linearizable _ => true
  | _ => false

def isNotLinearizable : LinearizabilityResult → Bool
  | .notLinearizable .. => true
  | _ => false

def isInconclusive : LinearizabilityResult → Bool
  | .inconclusive .. => true
  | _ => false

end LinearizabilityResult

/-- First and last of the listed identifiers. -/
def conflictOf : List UInt64 → Option (UInt64 × UInt64)
  | [] => none
  | [single] => some (single, single)
  | first :: second :: rest => some (first, (second :: rest).getLast (List.cons_ne_nil _ _))

def completedOps (history : History Input Output) : History Input Output :=
  history.filter OpRecord.isComplete

def checkLinearizableWithBudget (model : Model State Input Output)
    (history : History Input Output) (budget : CheckBudget) : LinearizabilityResult :=
  let ops := completedOps history
  let search := runSearch model ops budget.maxSteps
  if search.inconclusive then .inconclusive search.explored true
  else if search.linearizable then .linearizable search.order
  else
    let minimalSubhistory := minimizeFailure model ops budget.maxSteps
    .notLinearizable "no legal sequential order matched the observed outputs"
      (conflictOf minimalSubhistory) minimalSubhistory search.explored false

def checkLinearizable (model : Model State Input Output) (history : History Input Output)
    (maxStates : Nat) : LinearizabilityResult :=
  checkLinearizableWithBudget model history ⟨maxStates⟩

/-! The search refines the memoised search of the library. -/

/-- One operation of the search: the model's step, kept when it gives the observed output. -/
def applyOp (model : Model State Input Output) (state : State) (op : OpRecord Input Output) :
    Option State :=
  match op.output with
  | none => none
  | some observed => match model.step state op.input with
    | none => none
    | some (next, expected) => if expected = observed then some next else none

def SearchState.memo (search : SearchState State) : Memo (Node State) :=
  ⟨search.seen, search.inconclusive⟩

def spent (maxSteps : Nat) (memo : Memo (Node State)) : Prop := maxSteps ≤ memo.seen.length

omit [DecidableEq State] [DecidableEq Output] in
theorem order_complete_iff (ops : History Input Output) (used : List Bool) (order : List UInt64)
    (state : State) (sized : used.length = ops.length)
    (counted : order.length + (remaining ops used).length = ops.length) :
    order.length = ops.length ↔ goal (used, state) := by
  rw [goal_iff ops used state sized, ← List.length_eq_zero_iff]
  omega

omit [DecidableEq State] in
theorem tryPosition_child (model : Model State Input Output) (table : List (List Nat))
    (used : List Bool) (order : List UInt64) (state next : State)
    (recurse : List Bool → List UInt64 → State → SearchState State →
      Option (List UInt64) × SearchState State)
    (position : OpRecord Input Output × Nat) (search : SearchState State)
    (isReady : ready table used position.2 = true)
    (applied : applyOp model state position.1 = some next) :
    tryPosition model table used order state recurse position search =
      .ofCall (fun _ => false)
        (recurse (used.set position.2 true) (order ++ [position.1.id]) next search) := by
  unfold applyOp at applied
  rw [tryPosition, if_neg (by simp [isReady])]
  cases observed : position.1.output with
  | none => simp [observed] at applied
  | some output =>
      cases step : model.step state position.1.input with
      | none => simp [observed, step] at applied
      | some outcome =>
          simp only [observed, step] at applied ⊢
          split_ifs at applied with same
          cases applied
          rw [if_neg (by simpa using same)]
          generalize recurse _ _ _ search = returned
          obtain ⟨_ | found, after⟩ := returned <;> rfl

omit [DecidableEq State] in
theorem tryPosition_skips (model : Model State Input Output) (table : List (List Nat))
    (used : List Bool) (order : List UInt64) (state : State)
    (recurse : List Bool → List UInt64 → State → SearchState State →
      Option (List UInt64) × SearchState State)
    (position : OpRecord Input Output × Nat) (search : SearchState State)
    (barred : ready table used position.2 = false ∨ applyOp model state position.1 = none) :
    tryPosition model table used order state recurse position search = .next search := by
  rcases barred with waiting | refused
  · rw [tryPosition, if_pos waiting]
  · unfold applyOp at refused
    rw [tryPosition]
    split_ifs with waiting
    · rfl
    cases observed : position.1.output with
    | none => rfl
    | some output =>
        cases step : model.step state position.1.input with
        | none => rfl
        | some outcome =>
            simp only [observed, step] at refused ⊢
            split_ifs at refused with same
            rw [if_pos same]

/-- What a call of `dfs` returns: the order so far goes on along the path found,
and `explored` is the size of the memo table. -/
def Searched (model : Model State Input Output) (ops : History Input Output) (maxSteps : Nat)
    (used : List Bool) (order : List UInt64) (state : State) :
    SearchState State → Option (List UInt64) × SearchState State → Prop :=
  Answers goal (children OpRecord.completesBefore (applyOp model) ops) (spent maxSteps)
    SearchState.memo (fun search => search.explored = search.seen.length)
    (fun labels => order ++ labels.map fun label => label.1.id) (used, state)

omit [DecidableEq State] in
/-- A child is searched by the recursive call. -/
theorem tryPosition_follows {model : Model State Input Output} {ops : History Input Output}
    {maxSteps : Nat} {used : List Bool} {order : List UInt64} {state next : State}
    {recurse : List Bool → List UInt64 → State → SearchState State →
      Option (List UInt64) × SearchState State}
    {position : OpRecord Input Output × Nat} {search : SearchState State}
    (isReady : ready (predecessors ops) used position.2 = true)
    (applied : applyOp model state position.1 = some next)
    (searched : Searched model ops maxSteps (used.set position.2 true)
      (order ++ [position.1.id]) next search
      (recurse (used.set position.2 true) (order ++ [position.1.id]) next search)) :
    Follows goal (children OpRecord.completesBefore (applyOp model) ops) (spent maxSteps)
      SearchState.memo (fun search => search.explored = search.seen.length)
      (fun labels => order ++ labels.map fun label => label.1.id) position
      (used.set position.2 true, next) search
      (tryPosition model (predecessors ops) used order state recurse position search) := by
  rw [tryPosition_child model _ _ _ _ _ _ _ _ isReady applied]
  exact searched.follows (fun _ => false) (by simp) (by simp)

/-- Every call keeps the tally, and the fuel never runs out. -/
theorem dfs_searched (model : Model State Input Output) (ops : History Input Output)
    (maxSteps : Nat) (fuel : Nat) (used : List Bool) (order : List UInt64) (state : State)
    (search : SearchState State) (sized : used.length = ops.length)
    (counted : order.length + (remaining ops used).length = ops.length)
    (fueled : ops.length ≤ order.length + fuel)
    (tallied : search.explored = search.seen.length) :
    Searched model ops maxSteps used order state search
      (dfs model ops (predecessors ops) maxSteps fuel used order state search) := by
  induction fuel generalizing used order state search with
  | zero =>
      -- Without fuel every operation is placed, so the source would have returned too.
      have full : order.length = ops.length := by omega
      have reached := (order_complete_iff ops used order state sized counted).mp full
      rw [dfs, if_pos full]
      exact ⟨some [], by simp, tallied, Visits.leaf reached⟩
  | succ fuel ih =>
      have complete := order_complete_iff ops used order state sized counted
      rw [dfs]
      by_cases full : order.length = ops.length
      · rw [if_pos full]
        exact ⟨some [], by simp, tallied, Visits.leaf (complete.mp full)⟩
      by_cases out : maxSteps ≤ search.explored
      · rw [if_neg full, if_pos out]
        exact ⟨none, rfl, tallied, Visits.exhausted (tallied ▸ out : maxSteps ≤ search.seen.length)⟩
      by_cases known : (used, state) ∈ search.seen
      · rw [if_neg full, if_neg out, if_pos known]
        exact ⟨none, rfl, tallied, Visits.pruned known⟩
      rw [if_neg full, if_neg out, if_neg known]
      obtain ⟨path, result, tally, explored⟩ := tryEach_explores goal
        (children OpRecord.completesBefore (applyOp model) ops) (spent maxSteps)
        (tryPosition model (predecessors ops) used order state
          (dfs model ops (predecessors ops) maxSteps fuel))
        SearchState.memo (fun _ search => search.explored = search.seen.length)
        (fun position => if ready (predecessors ops) used position.2 then
            (applyOp model state position.1).map fun next =>
              (position, used.set position.2 true, next)
          else none)
        (fun labels => order ++ labels.map fun label => label.1.id)
        ops.zipIdx (fun _ _ holds => holds)
        (by
          -- A position that is not a child leaves the search as it is.
          intro position search left absent kept
          refine ⟨search, tryPosition_skips _ _ _ _ _ _ _ _ ?_, kept, rfl⟩
          split_ifs at absent with isReady
          · exact Or.inr (Option.map_eq_none_iff.mp absent)
          · exact Or.inl (by simpa using isReady))
        (by
          -- A child is searched by the recursive call, which has one operation less to place.
          intro position member search left label node present kept
          split_ifs at present with isReady
          obtain ⟨next, applied, pair⟩ := Option.map_eq_some_iff.mp present
          cases pair
          have sizedNext : (used.set position.2 true).length = ops.length := by
            rw [List.length_set, sized]
          have waiting : position ∈ remaining ops used := (mem_remaining ops used position).mpr
            ⟨member, ((ready_iff _ ops used member).mp isReady).1⟩
          have fewer := (remaining_set ops used waiting).length_eq
          have longer : (order ++ [position.1.id]).length = order.length + 1 :=
            List.length_append
          rw [List.length_cons] at fewer
          have countedNext : (order ++ [position.1.id]).length +
              (remaining ops (used.set position.2 true)).length = ops.length := by omega
          exact tryPosition_follows isReady applied
            (ih _ _ next search sizedNext countedNext (by omega) kept))
        { search with
          seen := search.seen ++ [(used, state)], explored := search.explored + 1 }
        (by simp [tallied])
      have inner : ¬ goal (used, state) := fun reached => full (complete.mpr reached)
      exact ⟨path, result, tally, Visits.expanded inner known explored⟩

end Detersim
