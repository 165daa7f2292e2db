import Detersim.BoundedSort
import Detersim.SeedSearch

/-!
What a seed search retains. It sorts and cuts off after every seed; one sort of
all the attempts, cut off once at the end, retains the same candidates.
-/

namespace Detersim.SeedSearch

instance : Std.Total better where
  total left right := by
    rcases Nat.lt_trichotomy left.score right.score with below | level | above
    · exact Or.inr (Or.inl below)
    · rcases Nat.lt_trichotomy left.rank right.rank with earlier | tied | later
      · exact Or.inl (Or.inr ⟨level.symm, Or.inl earlier⟩)
      · refine (UInt64.le_total left.seed right.seed).imp ?_ ?_
        · exact fun low => Or.inr ⟨level.symm, Or.inr ⟨tied, low⟩⟩
        · exact fun high => Or.inr ⟨level, Or.inr ⟨tied.symm, high⟩⟩
      · exact Or.inr (Or.inr ⟨level, Or.inl later⟩)
    · exact Or.inl (Or.inl above)

instance : IsTrans SearchCandidate better where
  trans first second third := by
    rintro (above | ⟨level, order⟩) (above' | ⟨level', order'⟩)
    · exact Or.inl (above'.trans above)
    · exact Or.inl (level' ▸ above)
    · exact Or.inl (level ▸ above')
    · refine Or.inr ⟨level'.trans level, ?_⟩
      rcases order with earlier | ⟨tied, low⟩ <;> rcases order' with earlier' | ⟨tied', low'⟩
      · exact Or.inl (earlier.trans earlier')
      · exact Or.inl (tied' ▸ earlier)
      · exact Or.inl (tied ▸ earlier')
      · exact Or.inr ⟨tied.trans tied', UInt64.le_trans low low'⟩

/-- Nothing is retained of nothing, so the branch for zero is no exception. -/
theorem retainBest_eq (candidates : List SearchCandidate) (retain : Nat) :
    retainBest candidates retain = (candidates.insertionSort better).take retain := by
  rw [retainBest]
  split_ifs with none_
  · rw [none_, List.take_zero]
  · rfl

variable (case : ExperimentCase) (strategy : SearchStrategy)

/-- The attempts depend on the coverage seen so far, and not on what is retained. -/
theorem pushedFrom_seen {retain other : Nat} {scan scan' : SearchScan}
    (same : scan.seenCoverage = scan'.seenCoverage) (ranked : List (UInt64 × Nat)) :
    pushedFrom case strategy retain scan ranked = pushedFrom case strategy other scan' ranked := by
  induction ranked generalizing scan scan' with
  | nil => rfl
  | cons next rest ih =>
      have pushed : candidate case strategy scan next.1 next.2 =
          candidate case strategy scan' next.1 next.2 := by
        simp only [candidate, same]
      have seen : (searchSeed case strategy retain scan next).seenCoverage =
          (searchSeed case strategy other scan' next).seenCoverage := by
        simp only [searchSeed, pushed, same]
      rw [pushedFrom, pushedFrom, pushed, ih seen]

theorem foldl_retained (retain : Nat) (scan : SearchScan) (ranked : List (UInt64 × Nat)) :
    (ranked.foldl (searchSeed case strategy retain) scan).candidates =
      (pushedFrom case strategy retain scan ranked).foldl (BoundedSort.arrive better retain)
        scan.candidates := by
  induction ranked generalizing scan with
  | nil => rfl
  | cons next rest ih =>
      rw [List.foldl_cons, ih, pushedFrom, List.foldl_cons, BoundedSort.arrive, ← retainBest_eq]
      rfl

/-- The candidates retained from seed to seed are the first of all attempts, best
first; and what is attempted does not depend on how many are retained. -/
theorem retained_best (budget : SearchBudget) :
    (runSearch case strategy budget).corpus.candidates =
        ((attempts case strategy budget).insertionSort better).take budget.retainCandidates ∧
      ∀ retain, attempts case strategy ⟨budget.seedCount, retain⟩ =
        attempts case strategy budget := by
  constructor
  · have whole := BoundedSort.foldl_arrive better budget.retainCandidates []
      (attempts case strategy budget)
    rw [List.insertionSort_nil, List.take_nil, List.nil_append] at whole
    rw [← whole]
    exact foldl_retained case strategy budget.retainCandidates SearchScan.start _
  · intro retain
    exact pushedFrom_seen case strategy rfl _

end Detersim.SeedSearch
