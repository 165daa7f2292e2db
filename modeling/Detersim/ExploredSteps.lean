import Detersim.ConclusiveBudgets

/-!
How far the explored states of a search go past its budget. The linearizability
search counts a node right after the test of the budget. The transaction search
counts a step for every transaction it tries and tests the budget only when it
enters a node, so what it counts is read off the transactions tried without any
budget: it stops at the first of them, from the budget on, that applies.
-/

namespace Detersim

open MemoSearch OrderSearch

def LinearizabilityResult.exploredStates : LinearizabilityResult → Option Nat
  | .linearizable _ => none
  | .notLinearizable _ _ _ explored _ | .inconclusive explored _ => some explored

def SerializableResult.exploredStates : SerializableResult → Option Nat
  | .serializable _ => none
  | .notSerializable _ _ _ explored _ | .inconclusive explored _ => some explored

/-- A reported number of explored states is at most the budget. -/
def CheckBudget.Covers (budget : CheckBudget) (explored : Option Nat) : Prop :=
  ∀ steps, explored = some steps → steps ≤ budget.maxSteps

section Linearizability

variable {State Input Output : Type} [DecidableEq State] [DecidableEq Output]

theorem dfs_explored_le (model : Model State Input Output) (ops : History Input Output)
    (table : List (List Nat)) (maxSteps fuel : Nat) (used : List Bool) (order : List UInt64)
    (state : State) (search : SearchState State) (within : search.explored ≤ maxSteps) :
    (dfs model ops table maxSteps fuel used order state search).2.explored ≤ maxSteps := by
  induction fuel generalizing used order state search with
  | zero =>
      rw [dfs]
      split_ifs <;> exact within
  | succ fuel ih =>
      rw [dfs]
      split_ifs with full out known
      · exact within
      · exact within
      · exact within
      have turn (position : OpRecord Input Output × Nat) (search : SearchState State)
          (within : search.explored ≤ maxSteps) :
          (tryPosition model table used order state (dfs model ops table maxSteps fuel) position
            search).search.explored ≤ maxSteps := by
        rcases tryPosition_cases model table used order state position with skips | ⟨next, places⟩
        · rwa [skips]
        · rw [places, search_ofCall]
          exact ih _ _ next search within
      exact tryEach_keeps (fun search : SearchState State => search.explored ≤ maxSteps) turn
        ops.zipIdx _ (Nat.succ_le_of_lt (Nat.lt_of_not_le out))

theorem linearizable_covered (model : Model State Input Output) (history : History Input Output)
    (budget : CheckBudget) :
    budget.Covers (checkLinearizableWithBudget model history budget).exploredStates := by
  have within : (runSearch model (completedOps history) budget.maxSteps).explored ≤
      budget.maxSteps := dfs_explored_le _ _ _ _ _ _ _ _ _ (Nat.zero_le _)
  unfold CheckBudget.Covers checkLinearizableWithBudget
  dsimp only
  split_ifs
  · rintro _ ⟨⟩
    exact within
  · rintro _ ⟨⟩
  · rintro _ ⟨⟩
    exact within

end Linearizability

section Serializability

variable {Key Value : Type} [LinearOrder Key] [DecidableEq Value]

/-- The transactions tried so far, each with whether it applied, and the nodes entered. -/
structure TxnWalk (Key Value : Type) [LinearOrder Key] where
  tried : List Bool
  seen : List (List Bool × SortedMap Key Value)

def walkTxn (predecessors : List (List Nat)) (used : List Bool) (state : SortedMap Key Value)
    (recurse : List Bool → SortedMap Key Value → TxnWalk Key Value →
      Option Unit × TxnWalk Key Value)
    (position : TxnOpRecord Key Value × Nat) (walk : TxnWalk Key Value) :
    Attempt Unit (TxnWalk Key Value) :=
  if ready predecessors used position.2 = false then .next walk
  else match applyTxn state position.1 with
    | none => .next { walk with tried := walk.tried ++ [false] }
    | some next => .ofCall (fun _ => false)
        (recurse (used.set position.2 true) next { walk with tried := walk.tried ++ [true] })

/-- The order in which transactions are tried when nothing stops the search. -/
def walkDfs (txns : TxnHistory Key Value) (predecessors : List (List Nat)) :
    Nat → List Bool → SortedMap Key Value → TxnWalk Key Value → Option Unit × TxnWalk Key Value
  | fuel, used, state, walk =>
      if used.all id then (some (), walk)
      else if (used, state) ∈ walk.seen then (none, walk)
      else match fuel with
        | 0 => (none, walk)
        | fuel + 1 =>
            tryEach (walkTxn predecessors used state (walkDfs txns predecessors fuel)) txns.zipIdx
              { walk with seen := walk.seen ++ [(used, state)] }

theorem walkDfs_zero (txns : TxnHistory Key Value) (predecessors : List (List Nat))
    (used : List Bool) (state : SortedMap Key Value) (walk : TxnWalk Key Value) :
    walkDfs txns predecessors 0 used state walk =
      if used.all id then (some (), walk)
      else if (used, state) ∈ walk.seen then (none, walk) else (none, walk) := rfl

theorem walkDfs_succ (txns : TxnHistory Key Value) (predecessors : List (List Nat)) (fuel : Nat)
    (used : List Bool) (state : SortedMap Key Value) (walk : TxnWalk Key Value) :
    walkDfs txns predecessors (fuel + 1) used state walk =
      if used.all id then (some (), walk)
      else if (used, state) ∈ walk.seen then (none, walk)
      else tryEach (walkTxn predecessors used state (walkDfs txns predecessors fuel)) txns.zipIdx
        { walk with seen := walk.seen ++ [(used, state)] } := rfl

/-- Whether each transaction applies, in the order they are tried without a budget. -/
def serialTries (initial : SortedMap Key Value) (txns : TxnHistory Key Value) : List Bool :=
  (walkDfs txns (txnPredecessors txns) txns.length (List.replicate txns.length false) initial
    ⟨[], []⟩).2.tried

/-- The search ends with try number `maxSteps` at the latest: it is not reached, or
it is one that enters a node, where the budget is tested. -/
def EndsInBudget (maxSteps : Nat) (tried : List Bool) : Prop :=
  maxSteps = 0 ∨ tried.length ≤ maxSteps ∨ tried[maxSteps - 1]? = some true

/-- Try number `steps` is the first, from the budget on, that enters a node. -/
structure CutAt (maxSteps : Nat) (tried : List Bool) (steps : Nat) : Prop where
  late : maxSteps ≤ steps
  enters : ∃ last, steps = last + 1 ∧ tried[last]? = some true
  first : ∀ earlier, maxSteps ≤ earlier + 1 → earlier + 1 < steps → tried[earlier]? ≠ some true

theorem CutAt.extend {maxSteps steps : Nat} {tried longer : List Bool}
    (cut : CutAt maxSteps tried steps) (extends_ : tried <+: longer) :
    CutAt maxSteps longer steps := by
  obtain ⟨more, rfl⟩ := extends_
  obtain ⟨last, rfl, enters⟩ := cut.enters
  have bound : last < tried.length := (List.getElem?_eq_some_iff.mp enters).1
  refine ⟨cut.late, ⟨last, rfl, by rw [List.getElem?_append_left bound, enters]⟩, ?_⟩
  intro earlier late before
  rw [List.getElem?_append_left (by omega)]
  exact cut.first earlier late before

/-- The search goes on: it has counted every try, and the budget stopped it at none. -/
structure OnCourse (maxSteps : Nat) (search : TxnSearch Key Value) (walk : TxnWalk Key Value) :
    Prop where
  conclusive : search.inconclusive = false
  counted : search.explored = walk.tried.length
  seen : search.seen = walk.seen
  uncut : ∀ index, maxSteps ≤ index + 1 → walk.tried[index]? ≠ some true

def Stopped (maxSteps : Nat) (search : TxnSearch Key Value) (walk : TxnWalk Key Value) : Prop :=
  search.inconclusive = true ∧ CutAt maxSteps walk.tried search.explored

section Turns

variable {table : List (List Nat)} {used : List Bool} {state next : SortedMap Key Value}
  {position : TxnOpRecord Key Value × Nat}
  (recurse : List Bool → SortedMap Key Value → TxnWalk Key Value → Option Unit × TxnWalk Key Value)
  (walk : TxnWalk Key Value)

theorem walkTxn_waits (waiting : ready table used position.2 = false) :
    walkTxn table used state recurse position walk = .next walk := by
  rw [walkTxn, if_pos waiting]

theorem walkTxn_fails (isReady : ready table used position.2 = true)
    (refused : applyTxn state position.1 = none) :
    walkTxn table used state recurse position walk =
      .next { walk with tried := walk.tried ++ [false] } := by
  rw [walkTxn, if_neg (by simp [isReady]), refused]

theorem walkTxn_places (isReady : ready table used position.2 = true)
    (applied : applyTxn state position.1 = some next) :
    walkTxn table used state recurse position walk = .ofCall (fun _ => false)
      (recurse (used.set position.2 true) next { walk with tried := walk.tried ++ [true] }) := by
  rw [walkTxn, if_neg (by simp [isReady]), applied]

variable {recurse}

theorem walkTxn_extends
    (deeper : ∀ used state walk, walk.tried <+: (recurse used state walk).2.tried) :
    walk.tried <+: (walkTxn table used state recurse position walk).search.tried := by
  cases isReady : ready table used position.2 with
  | false =>
      rw [walkTxn_waits recurse walk isReady]
      exact List.prefix_rfl
  | true =>
      cases applied : applyTxn state position.1 with
      | none =>
          rw [walkTxn_fails recurse walk isReady applied]
          exact List.prefix_append _ _
      | some next =>
          rw [walkTxn_places recurse walk isReady applied, search_ofCall]
          have tried := List.prefix_append walk.tried [true]
          exact tried.trans (deeper _ _ { walk with tried := walk.tried ++ [true] })

end Turns

/-- A walk only adds tries. -/
theorem walkDfs_extends (txns : TxnHistory Key Value) (table : List (List Nat)) (fuel : Nat)
    (used : List Bool) (state : SortedMap Key Value) (walk : TxnWalk Key Value) :
    walk.tried <+: (walkDfs txns table fuel used state walk).2.tried := by
  induction fuel generalizing used state walk with
  | zero =>
      rw [walkDfs_zero]
      split_ifs <;> exact List.prefix_rfl
  | succ fuel ih =>
      rw [walkDfs_succ]
      split_ifs
      · exact List.prefix_rfl
      · exact List.prefix_rfl
      exact tryEach_keeps (fun later : TxnWalk Key Value => walk.tried <+: later.tried)
        (fun position later grown => grown.trans (walkTxn_extends later ih)) txns.zipIdx _
        List.prefix_rfl

omit [DecidableEq Value] in
/-- A try that fails leaves the search on its course. -/
theorem OnCourse.fail {maxSteps : Nat} {search : TxnSearch Key Value} {walk : TxnWalk Key Value}
    (onCourse : OnCourse maxSteps search walk) :
    OnCourse maxSteps { search with explored := search.explored + 1 }
      { walk with tried := walk.tried ++ [false] } := by
  refine ⟨onCourse.conclusive, by simp [onCourse.counted], onCourse.seen, ?_⟩
  intro index late
  rw [List.getElem?_append]
  split
  · exact onCourse.uncut index late
  · rw [List.getElem?_singleton]
    split <;> simp

/-- A search about to enter a node, or to be stopped there by the budget. -/
structure Entering (maxSteps : Nat) (search : TxnSearch Key Value) (walk : TxnWalk Key Value) :
    Prop where
  conclusive : search.inconclusive = false
  counted : search.explored = walk.tried.length
  seen : search.seen = walk.seen
  tested : maxSteps ≤ search.explored → CutAt maxSteps walk.tried search.explored

omit [DecidableEq Value] in
theorem OnCourse.place {maxSteps : Nat} {search : TxnSearch Key Value} {walk : TxnWalk Key Value}
    (onCourse : OnCourse maxSteps search walk) :
    Entering maxSteps { search with explored := search.explored + 1 }
      { walk with tried := walk.tried ++ [true] } := by
  refine ⟨onCourse.conclusive, by simp [onCourse.counted], onCourse.seen, fun late => ⟨late, ?_, ?_⟩⟩
  · exact ⟨search.explored, rfl, by simp [onCourse.counted]⟩
  · intro earlier late before
    rw [List.getElem?_append_left (by rw [← onCourse.counted]; exact Nat.lt_of_succ_lt_succ before)]
    exact onCourse.uncut earlier late

omit [DecidableEq Value] in
/-- The search that passes the test of its budget was stopped by none before. -/
theorem Entering.onCourse {maxSteps : Nat} {search : TxnSearch Key Value}
    {walk : TxnWalk Key Value} (entering : Entering maxSteps search walk)
    (room : search.explored < maxSteps) : OnCourse maxSteps search walk := by
  refine ⟨entering.conclusive, entering.counted, entering.seen, ?_⟩
  intro index late
  rw [List.getElem?_eq_none (by rw [← entering.counted]; omega)]
  simp

/-- The search with a budget does what the one without does, up to the try it stops at. -/
theorem txnDfs_together (txns : TxnHistory Key Value) (table : List (List Nat))
    (maxSteps fuel : Nat) (used : List Bool) (order : List UInt64) (state : SortedMap Key Value)
    (search : TxnSearch Key Value) (walk : TxnWalk Key Value)
    (entering : Entering maxSteps search walk) :
    Together (OnCourse maxSteps) (Stopped maxSteps)
      (txnDfs txns table maxSteps fuel used order state search)
      (walkDfs txns table fuel used state walk) := by
  induction fuel generalizing used order state search walk with
  | zero =>
      rw [txnDfs]
      by_cases out : maxSteps ≤ search.explored
      · rw [if_pos out]
        exact Or.inr ⟨rfl, rfl, (entering.tested out).extend (walkDfs_extends ..)⟩
      have onCourse := entering.onCourse (Nat.lt_of_not_le out)
      rw [if_neg out, walkDfs_zero, entering.seen]
      split_ifs <;> exact Or.inl ⟨rfl, onCourse⟩
  | succ fuel ih =>
      rw [txnDfs]
      by_cases out : maxSteps ≤ search.explored
      · rw [if_pos out]
        exact Or.inr ⟨rfl, rfl, (entering.tested out).extend (walkDfs_extends ..)⟩
      have onCourse := entering.onCourse (Nat.lt_of_not_le out)
      rw [if_neg out, walkDfs_succ, entering.seen]
      split_ifs
      · exact Or.inl ⟨rfl, onCourse⟩
      · exact Or.inl ⟨rfl, onCourse⟩
      apply tryEach_together
      · intro position search walk onCourse
        rcases tryTxn_cases table used order state position with
          ⟨waiting, skips⟩ | ⟨isReady, refused, fails⟩ | ⟨next, isReady, applied, places⟩
        · rw [skips, walkTxn_waits _ _ waiting]
          exact .next onCourse
        · rw [fails, walkTxn_fails _ _ isReady refused]
          exact .next onCourse.fail
        · rw [places, walkTxn_places _ _ isReady applied]
          exact (ih _ (order ++ [position.1.id]) next _ _ onCourse.place).inStep
            (fun _ _ onCourse => onCourse.conclusive) (fun _ _ stopped => stopped.1)
      · intro position search walk stopped
        exact ⟨stopped.1, stopped.2.extend
          (walkTxn_extends walk fun _ _ _ => walkDfs_extends ..)⟩
      · exact ⟨onCourse.conclusive, onCourse.counted, rfl, onCourse.uncut⟩

/-- An order is found only where the test of the budget was just passed. -/
theorem txnDfs_found_room (txns : TxnHistory Key Value) (table : List (List Nat))
    (maxSteps fuel : Nat) (used : List Bool) (order found : List UInt64)
    (state : SortedMap Key Value) (search after : TxnSearch Key Value)
    (returned : txnDfs txns table maxSteps fuel used order state search = (some found, after)) :
    after.explored < maxSteps := by
  induction fuel generalizing used order state search with
  | zero =>
      rw [txnDfs] at returned
      split_ifs at returned with out <;> cases returned
      exact Nat.lt_of_not_le out
  | succ fuel ih =>
      rw [txnDfs] at returned
      split_ifs at returned with out
      · cases returned
      · cases returned
        exact Nat.lt_of_not_le out
      · cases returned
      obtain ⟨position, before, turn⟩ := tryEach_found returned
      rcases tryTxn_cases table used order state position with
        ⟨_, skips⟩ | ⟨_, _, fails⟩ | ⟨next, _, _, places⟩
      · rw [skips] at turn
        cases turn
      · rw [fails] at turn
        cases turn
      · rw [places] at turn
        generalize shape : txnDfs txns table maxSteps fuel _ _ next _ = called at turn
        obtain ⟨_ | result, last⟩ := called
        · rw [Attempt.ofCall] at turn
          split at turn <;> cases turn
        · cases turn
          exact ih _ _ _ _ shape

omit [DecidableEq Value] in
theorem OnCourse.within_iff {maxSteps : Nat} {search : TxnSearch Key Value}
    {walk : TxnWalk Key Value} (onCourse : OnCourse maxSteps search walk) (some_ : 0 < maxSteps) :
    search.explored ≤ maxSteps ↔ EndsInBudget maxSteps walk.tried := by
  have uncut := onCourse.uncut (maxSteps - 1) (by omega)
  rw [onCourse.counted, EndsInBudget]
  simp only [uncut, or_false, Nat.pos_iff_ne_zero.mp some_, false_or]

omit [DecidableEq Value] in
theorem Stopped.within_iff {maxSteps : Nat} {search : TxnSearch Key Value}
    {walk : TxnWalk Key Value} (stopped : Stopped maxSteps search walk) (some_ : 0 < maxSteps) :
    search.explored ≤ maxSteps ↔ EndsInBudget maxSteps walk.tried := by
  obtain ⟨late, ⟨last, steps, enters⟩, first⟩ := stopped.2
  have bound : last < walk.tried.length := (List.getElem?_eq_some_iff.mp enters).1
  constructor
  · intro within
    have same : maxSteps - 1 = last := by omega
    exact Or.inr (Or.inr (same ▸ enters))
  · rintro (none_ | short | entered)
    · omega
    · omega
    · by_contra beyond
      exact first (maxSteps - 1) (by omega) (by omega) entered

/-- The search of `check_serializable`. -/
def serialSearch (initial : SortedMap Key Value) (txns : TxnHistory Key Value) (maxSteps : Nat) :
    Option (List UInt64) × TxnSearch Key Value :=
  txnDfs txns (txnPredecessors txns) maxSteps txns.length (List.replicate txns.length false) []
    initial ⟨0, false, []⟩

theorem serializable_covered (initial : SortedMap Key Value) (history : TxnHistory Key Value)
    (budget : CheckBudget) :
    budget.Covers (checkSerializable initial history budget).exploredStates ↔
      (serialSearch initial (committedTxns history) budget.maxSteps).2.explored ≤
        budget.maxSteps := by
  have room := fun found after => txnDfs_found_room (committedTxns history)
    (txnPredecessors (committedTxns history)) budget.maxSteps (committedTxns history).length
    (List.replicate (committedTxns history).length false) [] found initial ⟨0, false, []⟩ after
  unfold CheckBudget.Covers checkSerializable serialSearch
  dsimp only
  generalize txnDfs (committedTxns history) _ _ _ _ _ _ _ = returned at room
  obtain ⟨_ | order, search⟩ := returned
  · split_ifs <;> simp [SerializableResult.exploredStates]
  · -- A verdict with an order reports no states, and its search was within the budget.
    have within := (room order search rfl).le
    split_ifs <;> simp [SerializableResult.exploredStates, within]

theorem serializable_covered_iff (initial : SortedMap Key Value) (history : TxnHistory Key Value)
    (budget : CheckBudget) :
    budget.Covers (checkSerializable initial history budget).exploredStates ↔
      EndsInBudget budget.maxSteps (serialTries initial (committedTxns history)) := by
  rw [serializable_covered]
  rcases Nat.eq_zero_or_pos budget.maxSteps with none_ | some_
  · have stopped : (serialSearch initial (committedTxns history) budget.maxSteps).2.explored = 0 := by
      unfold serialSearch txnDfs
      rw [if_pos (by simp [none_])]
    simp [EndsInBudget, none_, none_ ▸ stopped]
  · have entering : Entering budget.maxSteps (⟨0, false, []⟩ : TxnSearch Key Value) ⟨[], []⟩ :=
      ⟨rfl, rfl, rfl, fun late => absurd late (Nat.not_le_of_lt some_)⟩
    rcases txnDfs_together (committedTxns history) (txnPredecessors (committedTxns history))
      budget.maxSteps (committedTxns history).length
      (List.replicate (committedTxns history).length false) [] initial _ _ entering with
      ⟨_, onCourse⟩ | ⟨_, stopped⟩
    · exact onCourse.within_iff some_
    · exact stopped.within_iff some_

/-- The linearizability checker stays within its budget, and the transaction
checker exactly when the try that uses the budget up enters a node. -/
theorem explored_covered_iff {State Input Output : Type} [DecidableEq State] [DecidableEq Output]
    (model : Model State Input Output) (history : History Input Output)
    (initial : SortedMap Key Value) (txns : TxnHistory Key Value) (budget : CheckBudget) :
    budget.Covers (checkLinearizableWithBudget model history budget).exploredStates ∧
    (budget.Covers (checkSerializable initial txns budget).exploredStates ↔
      EndsInBudget budget.maxSteps (serialTries initial (committedTxns txns))) :=
  ⟨linearizable_covered model history budget, serializable_covered_iff initial txns budget⟩

/-- Two transactions that read a value no one wrote. -/
def unwrittenReads : TxnHistory Nat Nat :=
  [.committedTxn 1 0 [.read 0 (some 7)] 0 3, .committedTxn 2 1 [.read 0 (some 7)] 1 2]

/-- With a budget of one step, both are tried before the verdict. -/
theorem unwrittenReads_explored :
    checkSerializable .empty unwrittenReads ⟨1⟩ =
      .notSerializable "no serial transaction order matched observed reads" (some (1, 2)) [1, 2] 2
        false ∧
    ¬(CheckBudget.mk 1).Covers (checkSerializable .empty unwrittenReads ⟨1⟩).exploredStates := by
  have verdict : checkSerializable .empty unwrittenReads ⟨1⟩ =
      .notSerializable "no serial transaction order matched observed reads" (some (1, 2)) [1, 2] 2
        false := by decide
  refine ⟨verdict, ?_⟩
  rw [verdict]
  intro covers
  exact absurd (covers 2 rfl) (by decide)

end Serializability

end Detersim
