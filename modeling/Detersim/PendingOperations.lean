import Detersim.CheckerExactness

/-!
Operations that never returned. The checker searches the completed operations
only, while a pending operation may have taken effect and been observed.
-/

namespace Detersim

open OrderSearch

variable {State Input Output : Type}

def pendingOps (history : History Input Output) : History Input Output :=
  history.filter OpRecord.isPending

/-- Some of the pending operations took effect: with them the completed
operations have a legal order. Their own outputs are free. -/
def LinearizesWithPending (model : Model State Input Output) (history : History Input Output) :
    Prop :=
  ∃ effective, effective.Sublist (pendingOps history) ∧
    Linearizes model (completedOps history ++ effective)

theorem Accepts.of_front {model : Model State Input Output} {state : State}
    {front order : History Input Output} (inFront : front <+: order)
    (accepted : Accepts model state order) : Accepts model state front := by
  induction front generalizing state order with
  | nil => trivial
  | cons op front ih =>
      obtain ⟨back, rfl⟩ := inFront
      obtain ⟨next, expected, step, observed, rest⟩ := accepted
      exact ⟨next, expected, step, observed, ih (List.prefix_append front back) rest⟩

/-- Operations that may only be followed by their own kind stand in front. -/
theorem filter_in_front {Op : Type} {kind : Op → Bool} {order : List Op}
    (front : order.Pairwise fun earlier later => kind later = true → kind earlier = true) :
    order.filter kind <+: order := by
  induction front with
  | nil => exact List.prefix_refl _
  | @cons op rest first _ ih =>
      cases same : kind op with
      | true => simpa [same] using ih
      | false =>
          have none_ : (op :: rest).filter kind = [] := by
            rw [List.filter_cons_of_neg (by simp [same]), List.filter_eq_nil_iff]
            exact fun later member kept => absurd (first later member kept) (by simp [same])
          exact none_ ▸ List.nil_prefix

/-- What was invoked when all that completed had returned is not needed by it. -/
theorem LinearizesWithPending.of_trailing {model : Model State Input Output}
    {history : History Input Output}
    (trailing : ∀ op ∈ completedOps history, ∀ pending ∈ pendingOps history,
      op.completesBefore pending = true)
    (linearizes : LinearizesWithPending model history) : Linearizes model (completedOps history) := by
  obtain ⟨effective, chosen, order, legal⟩ := linearizes
  have pending : ∀ op ∈ effective, op ∈ pendingOps history ∧ op.isComplete = false := by
    intro op member
    have inside := chosen.subset member
    refine ⟨inside, ?_⟩
    have unanswered := (List.mem_filter.mp inside).2
    simp only [OpRecord.isPending, Bool.and_eq_true, Option.isNone_iff_eq_none] at unanswered
    simp [OpRecord.isComplete, unanswered.1]
  have completed : (completedOps history ++ effective).filter OpRecord.isComplete =
      completedOps history := by
    have none_ : effective.filter OpRecord.isComplete = [] :=
      List.filter_eq_nil_iff.mpr fun op member => by simp [(pending op member).2]
    rw [List.filter_append, none_, List.append_nil, completedOps, List.filter_filter]
    simp only [Bool.and_self]
  -- A pending operation in front of a completed one would break real time.
  have front : order.Pairwise fun earlier later =>
      later.isComplete = true → earlier.isComplete = true := by
    refine legal.respects.imp_of_mem ?_
    intro earlier later earlierIn laterIn respects returned
    rcases List.mem_append.mp (legal.permutation.subset earlierIn) with done | open_
    · exact (List.mem_filter.mp done).2
    · rcases List.mem_append.mp (legal.permutation.subset laterIn) with done | late
      · exact absurd (trailing later done earlier (pending earlier open_).1) (by simp [respects])
      · exact absurd returned (by simp [(pending later late).2])
  exact ⟨order.filter OpRecord.isComplete, completed ▸ legal.permutation.filter _,
    legal.respects.filter _, legal.accepted.of_front (filter_in_front front)⟩

variable [DecidableEq State] [DecidableEq Output]

theorem runSearch_eventually_conclusive (model : Model State Input Output)
    (ops : History Input Output) :
    ∃ enough, ∀ maxSteps, enough ≤ maxSteps →
      (runSearch model ops maxSteps).inconclusive = false := by
  obtain ⟨enough, ample⟩ :=
    ample_limit OpRecord.completesBefore (applyOp model) model.init ops 1
  refine ⟨enough, ?_⟩
  intro maxSteps large
  obtain ⟨path, after, searched, quiet, _, _⟩ := runSearch_searches model ops maxSteps
  rw [quiet]
  exact search_conclusive 1 maxSteps (fun memo out => by simpa [spent] using out)
    (ample maxSteps large) searched

theorem eventually_notLinearizable (model : Model State Input Output)
    (history : History Input Output) (rejected : ¬ Linearizes model (completedOps history)) :
    ∃ budget, (checkLinearizableWithBudget model history budget).isNotLinearizable = true := by
  obtain ⟨enough, conclusive⟩ := runSearch_eventually_conclusive model (completedOps history)
  refine ⟨⟨enough⟩, ?_⟩
  rcases verdict_cases model history ⟨enough⟩ with ⟨gaveUp, _⟩ | ⟨_, success, _⟩ | ⟨_, _, verdict⟩
  · rw [conclusive enough le_rfl] at gaveUp
    cases gaveUp
  · obtain ⟨order, legal, _⟩ := runSearch_sound model _ _ (completed_observed history) success
    exact absurd ⟨order, legal⟩ rejected
  · exact verdict

theorem negative_verdict_real (model : Model State Input Output) (history : History Input Output)
    (unneeded : LinearizesWithPending model history → Linearizes model (completedOps history))
    (budget : CheckBudget)
    (verdict : (checkLinearizableWithBudget model history budget).isNotLinearizable = true)
    (effective : History Input Output) (chosen : effective.Sublist (pendingOps history))
    (order : History Input Output) :
    ¬ Linearization model (completedOps history ++ effective) order :=
  fun legal => notLinearizable_sound model history budget verdict
    (unneeded ⟨effective, chosen, order, legal⟩)

/-- The negative verdict is a real failure exactly for the histories in which no
completed operation needs the effect of a pending one. -/
theorem negative_verdict_real_iff (model : Model State Input Output)
    (history : History Input Output) :
    (∀ budget, (checkLinearizableWithBudget model history budget).isNotLinearizable = true →
      ∀ effective, effective.Sublist (pendingOps history) →
        ∀ order, ¬ Linearization model (completedOps history ++ effective) order) ↔
    (LinearizesWithPending model history → Linearizes model (completedOps history)) := by
  constructor
  · -- A history rejected without its pending operations is rejected under some budget.
    rintro real ⟨effective, chosen, order, legal⟩
    by_contra rejected
    obtain ⟨budget, verdict⟩ := eventually_notLinearizable model history rejected
    exact real budget verdict effective chosen order legal
  · exact negative_verdict_real model history

/-- So it is when nothing is pending, or only what was invoked after all that completed. -/
theorem trailing_verdict_real (model : Model State Input Output) (history : History Input Output)
    (trailing : ∀ op ∈ completedOps history, ∀ pending ∈ pendingOps history,
      op.completesBefore pending = true)
    (budget : CheckBudget)
    (verdict : (checkLinearizableWithBudget model history budget).isNotLinearizable = true)
    (effective : History Input Output) (chosen : effective.Sublist (pendingOps history))
    (order : History Input Output) :
    ¬ Linearization model (completedOps history ++ effective) order :=
  negative_verdict_real model history (LinearizesWithPending.of_trailing trailing) budget verdict
    effective chosen order

/-- A write of 7 that has not returned, and a later read of 7. -/
def observedPendingWrite : History (RegisterInput Nat) (RegisterOutput Nat) :=
  [.inFlight 1 0 (.write 7) 0, .completed 2 1 .read (.value 7) 1 2]

theorem observed_pending_write_rejected :
    ¬ ∀ (model : Model Nat (RegisterInput Nat) (RegisterOutput Nat))
        (history : History (RegisterInput Nat) (RegisterOutput Nat)) (budget : CheckBudget),
      (checkLinearizableWithBudget model history budget).isNotLinearizable = true →
        ∀ effective, effective.Sublist (pendingOps history) →
          ∀ order, ¬ Linearization model (completedOps history ++ effective) order := by
  intro real
  refine real (register 0) observedPendingWrite ⟨100⟩ (by decide)
    [.inFlight 1 0 (.write 7) 0] (by decide) observedPendingWrite ⟨by decide, by decide, ?_⟩
  exact ⟨7, .ok, rfl, by simp [OpRecord.inFlight], 7, .value 7, rfl,
    by simp [OpRecord.completed, OpRecord.completedAt], trivial⟩

end Detersim
