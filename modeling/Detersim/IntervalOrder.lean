import Detersim.OrderSearch
import Mathlib.Data.List.Permutation
import Mathlib.Logic.Relation

/-!
The order that intervals induce when touching endpoints count as before:
`left` precedes `right` when it finishes no later than `right` starts. Two empty
intervals at one point then precede each other, and nothing else makes a cycle.
-/

namespace IntervalOrder

open OrderSearch

variable {Record Time State : Type} [PartialOrder Time] {precedes : Record → Record → Bool}
  {start finish : Record → Time} {records : List Record}

/-- Two distinct positions hold empty intervals at the same point. -/
def Coincide (start finish : Record → Time) (records : List Record) : Prop :=
  ∃ (first second : Nat) (left right : Record), first ≠ second ∧
    records[first]? = some left ∧ records[second]? = some right ∧
    start left = finish left ∧ start right = finish right ∧ start left = start right

def Before (table : List (List Nat)) (left right : Nat) : Prop := left ∈ table.getD right []

def Agrees (precedes : Record → Record → Bool) (start finish : Record → Time)
    (records : List Record) : Prop :=
  ∀ left ∈ records, ∀ right ∈ records, precedes left right = true ↔ finish left ≤ start right

theorem before_iff (first second : Nat) :
    Before (precedenceTable precedes records) first second ↔
      ∃ left right, records[first]? = some left ∧ records[second]? = some right ∧
        first ≠ second ∧ precedes left right = true := by
  unfold Before
  constructor
  · intro member
    by_cases bound : second < records.length
    · have inside : (records[second], second) ∈ records.zipIdx :=
        List.mem_zipIdx_iff_getElem?.mpr (by simp)
      rw [table_row precedes records inside, List.mem_map] at member
      obtain ⟨⟨left, index⟩, chosen, same⟩ := member
      obtain ⟨present, facts⟩ := List.mem_filter.mp chosen
      simp only [Bool.and_eq_true, decide_eq_true_eq] at facts same
      subst same
      exact ⟨left, records[second], List.mem_zipIdx_iff_getElem?.mp present, by simp,
        facts.1, facts.2⟩
    · simp [precedenceTable, List.getD_eq_getElem?_getD, List.getElem?_eq_none (not_lt.mp bound)]
        at member
  · rintro ⟨left, right, leftAt, rightAt, different, before⟩
    have inside : (right, second) ∈ records.zipIdx := List.mem_zipIdx_iff_getElem?.mpr rightAt
    rw [table_row precedes records inside, List.mem_map]
    refine ⟨(left, first), List.mem_filter.mpr ⟨List.mem_zipIdx_iff_getElem?.mpr leftAt, ?_⟩, rfl⟩
    simp [different, before]

theorem path_finishes (agrees : Agrees precedes start finish records)
    (proper : ∀ record ∈ records, start record ≤ finish record) (first second : Nat)
    (path : Relation.TransGen (Before (precedenceTable precedes records)) first second) :
    ∃ left right, records[first]? = some left ∧ records[second]? = some right ∧
      finish left ≤ start right := by
  induction path with
  | single edge =>
      obtain ⟨left, right, leftAt, rightAt, _, before⟩ := (before_iff _ _).mp edge
      exact ⟨left, right, leftAt, rightAt,
        (agrees left (List.mem_of_getElem? leftAt) right (List.mem_of_getElem? rightAt)).mp before⟩
  | tail _ edge ih =>
      obtain ⟨left, middle, leftAt, middleAt, early⟩ := ih
      obtain ⟨middle', right, middleAt', rightAt, _, before⟩ := (before_iff _ _).mp edge
      obtain rfl : middle = middle' := Option.some.inj (middleAt.symm.trans middleAt')
      have inside := List.mem_of_getElem? middleAt
      have late := (agrees middle inside right (List.mem_of_getElem? rightAt)).mp before
      exact ⟨left, right, leftAt, rightAt, early.trans ((proper middle inside).trans late)⟩

theorem coincide_of_mutual {left right : Record} {first second : Nat}
    (leftAt : records[first]? = some left) (rightAt : records[second]? = some right)
    (different : first ≠ second) (leftProper : start left ≤ finish left)
    (rightProper : start right ≤ finish right)
    (forth : finish left ≤ start right) (back : finish right ≤ start left) :
    Coincide start finish records := by
  have leftEmpty := le_antisymm leftProper (forth.trans (rightProper.trans back))
  have rightEmpty := le_antisymm rightProper (back.trans (leftProper.trans forth))
  exact ⟨first, second, left, right, different, leftAt, rightAt, leftEmpty, rightEmpty,
    le_antisymm (leftProper.trans forth) (rightProper.trans back)⟩

theorem acyclic_iff (agrees : Agrees precedes start finish records)
    (proper : ∀ record ∈ records, start record ≤ finish record) :
    (∀ index, ¬ Relation.TransGen (Before (precedenceTable precedes records)) index index) ↔
      ¬ Coincide start finish records := by
  constructor
  · rintro acyclic ⟨first, second, left, right, different, leftAt, rightAt, leftEmpty, rightEmpty,
      same⟩
    have leftMember := List.mem_of_getElem? leftAt
    have rightMember := List.mem_of_getElem? rightAt
    have forth := (before_iff first second).mpr
      ⟨left, right, leftAt, rightAt, different,
        (agrees left leftMember right rightMember).mpr (leftEmpty ▸ same.le)⟩
    have back := (before_iff second first).mpr
      ⟨right, left, rightAt, leftAt, different.symm,
        (agrees right rightMember left leftMember).mpr (rightEmpty ▸ same.ge)⟩
    exact acyclic first ((Relation.TransGen.single forth).tail back)
  · -- On a cycle each interval ends before the next begins, so all of them lie at one instant.
    rintro separate index cycle
    apply separate
    obtain ⟨next, edge, back⟩ := Relation.TransGen.head'_iff.mp cycle
    obtain ⟨left, right, leftAt, rightAt, different, before⟩ := (before_iff index next).mp edge
    have leftMember := List.mem_of_getElem? leftAt
    have rightMember := List.mem_of_getElem? rightAt
    have forth := (agrees left leftMember right rightMember).mp before
    rcases Relation.reflTransGen_iff_eq_or_transGen.mp back with same | path
    · exact absurd same different
    · obtain ⟨right', left', rightAt', leftAt', late⟩ := path_finishes agrees proper _ _ path
      obtain rfl : right = right' := Option.some.inj (rightAt.symm.trans rightAt')
      obtain rfl : left = left' := Option.some.inj (leftAt.symm.trans leftAt')
      exact coincide_of_mutual leftAt rightAt different (proper left leftMember)
        (proper right rightMember) forth late

/-- Consecutive intervals do not overlap. -/
structure Sequential (start finish : Record → Time) (records : List Record) : Prop where
  proper : ∀ record ∈ records, start record ≤ finish record
  consecutive : records.IsChain fun left right => finish left ≤ start right

theorem Sequential.pairwise (sequential : Sequential start finish records) :
    records.Pairwise fun left right => finish left ≤ start right := by
  obtain ⟨proper, consecutive⟩ := sequential
  induction records with
  | nil => exact List.Pairwise.nil
  | cons head rest ih =>
      have tail := ih (fun record member => proper record (List.mem_cons_of_mem _ member))
        consecutive.tail
      refine List.pairwise_cons.mpr ⟨?_, tail⟩
      cases rest with
      | nil => simp
      | cons second rest =>
          have touches : finish head ≤ start second := by
            simpa using (List.isChain_cons_cons.mp consecutive).1
          intro record member
          rcases List.mem_cons.mp member with same | later
          · exact same ▸ touches
          · exact touches.trans ((proper second (by simp)).trans
              ((List.pairwise_cons.mp tail).1 record later))

theorem pair_subperm {left right : Record} {first second : Nat}
    (leftAt : records[first]? = some left) (rightAt : records[second]? = some right)
    (different : first ≠ second) : [left, right].Subperm records := by
  -- The two records may be equal; their positions are not.
  have positions : [(left, first), (right, second)].Subperm records.zipIdx := by
    apply List.subperm_of_subset
    · simp [different]
    · intro position member
      simp only [List.mem_cons, List.not_mem_nil, or_false] at member
      rcases member with rfl | rfl
      · exact List.mem_zipIdx_iff_getElem?.mpr leftAt
      · exact List.mem_zipIdx_iff_getElem?.mpr rightAt
  obtain ⟨chosen, permutation, inside⟩ := positions
  have images : (chosen.map Prod.fst).Sublist records := by
    simpa using inside.map Prod.fst
  exact ⟨chosen.map Prod.fst, by simpa using permutation.map Prod.fst, images⟩

/-- No order respects two records that precede each other. -/
theorem mutual_blocks {order : List Record} {left right : Record}
    (both : [left, right].Subperm order) (forth : precedes left right = true)
    (back : precedes right left = true) :
    ¬ order.Pairwise fun earlier later => precedes later earlier = false := by
  intro respects
  obtain ⟨pair, permutation, inside⟩ := both
  have kept := respects.sublist inside
  rcases List.perm_pair.mp permutation with rfl | rfl
  · simp [back] at kept
  · simp [forth] at kept

theorem coincide_blocks (agrees : Agrees precedes start finish records)
    (coincide : Coincide start finish records) {order : List Record}
    (permutation : order.Perm records) :
    ¬ order.Pairwise fun earlier later => precedes later earlier = false := by
  obtain ⟨first, second, left, right, different, leftAt, rightAt, leftEmpty, rightEmpty, same⟩ :=
    coincide
  have leftMember := List.mem_of_getElem? leftAt
  have rightMember := List.mem_of_getElem? rightAt
  have both := (pair_subperm leftAt rightAt different).trans permutation.symm.subperm
  exact mutual_blocks both ((agrees left leftMember right rightMember).mpr (leftEmpty ▸ same.le))
    ((agrees right rightMember left leftMember).mpr (rightEmpty ▸ same.ge))

/-- Records listed one after the other, each legal there, have a legal order
exactly when no two of them coincide. -/
theorem sequential_legal_iff (apply : State → Record → Option State) (init : State)
    (agrees : Agrees precedes start finish records)
    (sequential : Sequential start finish records)
    (applies : (records.foldlM apply init).isSome = true) :
    (∃ order, LegalOrder precedes apply init records order) ↔ ¬ Coincide start finish records := by
  constructor
  · rintro ⟨order, legal⟩ coincide
    exact coincide_blocks agrees coincide legal.permutation legal.respects
  · intro separate
    refine ⟨records, List.Perm.refl _, ?_, applies⟩
    apply List.pairwise_iff_getElem.mpr
    intro first second firstBound secondBound earlier
    by_contra before
    have forth := List.pairwise_iff_getElem.mp sequential.pairwise first second firstBound
      secondBound earlier
    have back := (agrees _ (List.getElem_mem secondBound) _ (List.getElem_mem firstBound)).mp
      (by simpa using before)
    exact separate (coincide_of_mutual (List.getElem?_eq_getElem firstBound)
      (List.getElem?_eq_getElem secondBound) (ne_of_lt earlier)
      (sequential.proper _ (List.getElem_mem firstBound))
      (sequential.proper _ (List.getElem_mem secondBound)) forth back)

/-- Records that precede each other along their list have no other order than that. -/
theorem order_eq_of_chain {order : List Record}
    (chain : records.Pairwise fun left right => precedes left right = true)
    (permutation : order.Perm records)
    (respects : order.Pairwise fun earlier later => precedes later earlier = false) :
    order = records := by
  induction records generalizing order with
  | nil => exact permutation.eq_nil
  | cons head rest ih =>
      obtain ⟨early, tail⟩ := List.pairwise_cons.mp chain
      cases order with
      | nil => exact absurd permutation.symm.eq_nil (List.cons_ne_nil _ _)
      | cons first others =>
          have same : first = head := by
            rcases List.mem_cons.mp (permutation.subset List.mem_cons_self) with same | later
            · exact same
            · rcases List.mem_cons.mp (permutation.symm.subset List.mem_cons_self) with same | after
              · exact same.symm
              · -- `head` precedes `first`, and yet comes after it.
                have blocked := (List.pairwise_cons.mp respects).1 head after
                rw [early first later] at blocked
                cases blocked
          subst same
          rw [ih tail ((List.perm_cons first).mp permutation) (List.pairwise_cons.mp respects).2]

end IntervalOrder
