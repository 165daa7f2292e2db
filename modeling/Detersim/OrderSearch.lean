import Detersim.MemoSearch
import Mathlib.Data.List.Nodup
import Mathlib.Data.List.Enum
import Mathlib.Data.Set.Finite.Lattice
import Mathlib.Logic.Relation

/-!
Searching for an order of given records: each record comes after its
predecessors, and applying the records one after the other never fails. A
search node is the set of used positions with the state reached; positions, not
values, tell equal records apart. The paths of this graph from the empty set
are exactly the legal orders of the records.
-/

namespace OrderSearch

open MemoSearch

variable {Record State : Type}

abbrev Node (State : Type) := List Bool × State

/-- Row `j` lists, in order, the positions that must be used before position `j`. -/
def precedenceTable (precedes : Record → Record → Bool) (records : List Record) :
    List (List Nat) :=
  records.zipIdx.map fun right =>
    (records.zipIdx.filter fun left =>
      decide (left.2 ≠ right.2) && precedes left.1 right.1).map Prod.snd

theorem precedenceTable_map {Other : Type} (precedes : Record → Record → Bool)
    (other : Other → Other → Bool) (rename : Other → Record)
    (same : ∀ left right, precedes (rename left) (rename right) = other left right)
    (records : List Other) :
    precedenceTable precedes (records.map rename) = precedenceTable other records := by
  simp only [precedenceTable, List.zipIdx_map, List.map_map, List.filter_map, Function.comp_def,
    Prod.map, same, id_eq]

def ready (table : List (List Nat)) (used : List Bool) (index : Nat) : Bool :=
  !used.getD index true && (table.getD index []).all fun pred => used.getD pred true

def children (precedes : Record → Record → Bool) (apply : State → Record → Option State)
    (records : List Record) (node : Node State) : List ((Record × Nat) × Node State) :=
  records.zipIdx.filterMap fun position =>
    if ready (precedenceTable precedes records) node.1 position.2 then
      (apply node.2 position.1).map fun next => (position, node.1.set position.2 true, next)
    else none

def goal (node : Node State) : Prop := node.1.all id = true

structure LegalOrder (precedes : Record → Record → Bool) (apply : State → Record → Option State)
    (start : State) (records order : List Record) : Prop where
  permutation : order.Perm records
  respects : order.Pairwise fun earlier later => precedes later earlier = false
  applies : (order.foldlM apply start).isSome = true

def remaining (records : List Record) (used : List Bool) : List (Record × Nat) :=
  records.zipIdx.filter fun position => !used.getD position.2 true

section Positions

variable (precedes : Record → Record → Bool) (apply : State → Record → Option State)
  (records : List Record)

theorem zipIdx_nodup : records.zipIdx.Nodup := by
  apply List.Nodup.of_map Prod.snd
  rw [List.zipIdx_map_snd]
  exact List.nodup_range'

theorem index_lt {position : Record × Nat} (member : position ∈ records.zipIdx) :
    position.2 < records.length := by
  have entry := List.mem_zipIdx_iff_getElem?.mp member
  exact (List.getElem?_eq_some_iff.mp entry).1

theorem position_eq {left right : Record × Nat} (first : left ∈ records.zipIdx)
    (second : right ∈ records.zipIdx) (same : left.2 = right.2) : left = right := by
  have leftEntry := List.mem_zipIdx_iff_getElem?.mp first
  have rightEntry := List.mem_zipIdx_iff_getElem?.mp second
  rw [same, rightEntry] at leftEntry
  exact Prod.ext (Option.some.inj leftEntry).symm same

theorem table_row {position : Record × Nat} (member : position ∈ records.zipIdx) :
    (precedenceTable precedes records).getD position.2 [] =
      (records.zipIdx.filter fun left =>
        decide (left.2 ≠ position.2) && precedes left.1 position.1).map Prod.snd := by
  have entry := List.mem_zipIdx_iff_getElem?.mp member
  have row : records.zipIdx[position.2]? = some position := by
    simp [List.getElem?_zipIdx, entry]
  simp [precedenceTable, List.getD_eq_getElem?_getD, row]

theorem ready_iff (used : List Bool) {position : Record × Nat}
    (member : position ∈ records.zipIdx) :
    ready (precedenceTable precedes records) used position.2 = true ↔
      used.getD position.2 true = false ∧
      ∀ left ∈ records.zipIdx, left.2 ≠ position.2 → precedes left.1 position.1 = true →
        used.getD left.2 true = true := by
  rw [ready, table_row precedes records member]
  simp only [Bool.and_eq_true, Bool.not_eq_true', List.all_map, List.all_eq_true, List.mem_filter,
    decide_eq_true_eq, Function.comp_apply]
  exact and_congr_right fun _ => ⟨fun all left inside different before =>
    all left ⟨inside, different, before⟩, fun all left facts => all left facts.1 facts.2.1 facts.2.2⟩

theorem mem_remaining (used : List Bool) (position : Record × Nat) :
    position ∈ remaining records used ↔
      position ∈ records.zipIdx ∧ used.getD position.2 true = false := by
  simp [remaining]

theorem remaining_nodup (used : List Bool) : (remaining records used).Nodup :=
  (zipIdx_nodup records).filter _

theorem getD_set (used : List Bool) (index other : Nat) :
    (used.set index true).getD other true = if other = index then true else used.getD other true := by
  by_cases same : other = index
  · subst same
    simp only [List.getD_eq_getElem?_getD, List.getElem?_set_self']
    cases used[other]? <;> rfl
  · simp [List.getD_eq_getElem?_getD, List.getElem?_set_ne (Ne.symm same), same]

theorem remaining_set (used : List Bool) {position : Record × Nat}
    (member : position ∈ remaining records used) :
    (position :: remaining records (used.set position.2 true)).Perm (remaining records used) := by
  obtain ⟨inside, free⟩ := (mem_remaining records used position).mp member
  -- Both lists are free of duplicates, so it is enough that they have the same members.
  have absent : position ∉ remaining records (used.set position.2 true) := by
    rw [mem_remaining, getD_set]
    simp
  apply (List.perm_ext_iff_of_nodup
    (List.nodup_cons.mpr ⟨absent, remaining_nodup records _⟩) (remaining_nodup records used)).mpr
  intro other
  simp only [List.mem_cons, mem_remaining, getD_set]
  constructor
  · rintro (same | ⟨present, waiting⟩)
    · exact same ▸ ⟨inside, free⟩
    · by_cases sameIndex : other.2 = position.2
      · simp [sameIndex] at waiting
      · exact ⟨present, by simpa [sameIndex] using waiting⟩
  · rintro ⟨present, waiting⟩
    by_cases sameIndex : other.2 = position.2
    · exact Or.inl (position_eq records present inside sameIndex)
    · exact Or.inr ⟨present, by simpa [sameIndex] using waiting⟩

theorem goal_iff (used : List Bool) (state : State) (sized : used.length = records.length) :
    goal (used, state) ↔ remaining records used = [] := by
  unfold goal remaining
  rw [List.filter_eq_nil_iff]
  simp only [List.all_eq_true, id_eq, Bool.not_eq_true', Bool.not_eq_false]
  constructor
  · intro all position member
    have bound : position.2 < used.length := sized ▸ index_lt records member
    simpa [List.getElem?_eq_getElem bound] using all _ (List.getElem_mem bound)
  · intro all flag member
    obtain ⟨index, bound, found⟩ := List.getElem_of_mem member
    have shorter : index < records.length := sized ▸ bound
    have inside : (records[index], index) ∈ records.zipIdx :=
      List.mem_zipIdx_iff_getElem?.mpr (by simp)
    have taken := all (records[index], index) inside
    simpa [List.getElem?_eq_getElem bound, found] using taken

theorem mem_children (node : Node State) (label : Record × Nat) (next : Node State) :
    (label, next) ∈ children precedes apply records node ↔
      label ∈ records.zipIdx ∧ ready (precedenceTable precedes records) node.1 label.2 = true ∧
      next.1 = node.1.set label.2 true ∧ apply node.2 label.1 = some next.2 := by
  simp only [children, List.mem_filterMap]
  constructor
  · rintro ⟨position, inside, produced⟩
    split_ifs at produced with isReady
    obtain ⟨state, applied, pair⟩ := Option.map_eq_some_iff.mp produced
    simp only [Prod.mk.injEq] at pair
    obtain ⟨rfl, rfl⟩ := pair
    exact ⟨inside, isReady, rfl, applied⟩
  · rintro ⟨inside, isReady, flags, applied⟩
    refine ⟨label, inside, ?_⟩
    rw [if_pos isReady, applied]
    simp [Prod.ext_iff, flags]

theorem child_of_remaining {node next : Node State} {label : Record × Nat}
    (edge : (label, next) ∈ children precedes apply records node) :
    label ∈ remaining records node.1 := by
  obtain ⟨inside, isReady, _, _⟩ := (mem_children precedes apply records node label next).mp edge
  exact (mem_remaining records node.1 label).mpr
    ⟨inside, ((ready_iff precedes records node.1 inside).mp isReady).1⟩

/-- The legal ways to use up the remaining positions from a node. -/
structure LegalRest (node : Node State) (labels : List (Record × Nat)) : Prop where
  permutation : labels.Perm (remaining records node.1)
  respects : labels.Pairwise fun earlier later => precedes later.1 earlier.1 = false
  applies : ((labels.map Prod.fst).foldlM apply node.2).isSome = true

theorem leads_legal (node : Node State) (labels : List (Record × Nat))
    (sized : node.1.length = records.length)
    (leads : Leads goal (children precedes apply records) node labels) :
    LegalRest precedes apply records node labels := by
  induction leads with
  | @done node reached =>
      have empty := (goal_iff records node.1 node.2 sized).mp reached
      exact ⟨by rw [empty], List.Pairwise.nil, rfl⟩
  | @step node next label labels edge _ ih =>
      obtain ⟨inside, isReady, flags, applied⟩ :=
        (mem_children precedes apply records node label next).mp edge
      have rest := ih (by rw [flags, List.length_set, sized])
      have member := child_of_remaining precedes apply records edge
      refine ⟨?_, ?_, ?_⟩
      · exact (rest.permutation.cons label).trans
          (flags ▸ remaining_set records node.1 member)
      · refine List.pairwise_cons.mpr ⟨?_, rest.respects⟩
        intro later present
        have waiting := (mem_remaining records next.1 later).mp (rest.permutation.subset present)
        rw [flags, getD_set] at waiting
        -- A record still waiting is unused, so `ready` rules it out as a predecessor.
        have different : later.2 ≠ label.2 := by
          intro same
          simp [same] at waiting
        by_contra before
        have used := ((ready_iff precedes records node.1 inside).mp isReady).2 later waiting.1
          different (by simpa using before)
        simp [different] at waiting
        simp_all
      · simp only [List.map_cons, List.foldlM_cons, applied]
        exact rest.applies

theorem legal_leads (node : Node State) (labels : List (Record × Nat))
    (sized : node.1.length = records.length)
    (legal : LegalRest precedes apply records node labels) :
    Leads goal (children precedes apply records) node labels := by
  induction labels generalizing node with
  | nil =>
      exact Leads.done ((goal_iff records node.1 node.2 sized).mpr
        (List.nil_perm.mp legal.permutation))
  | cons label labels ih =>
      have member : label ∈ remaining records node.1 :=
        legal.permutation.subset List.mem_cons_self
      obtain ⟨inside, free⟩ := (mem_remaining records node.1 label).mp member
      obtain ⟨after, rest⟩ := List.pairwise_cons.mp legal.respects
      have isReady : ready (precedenceTable precedes records) node.1 label.2 = true := by
        refine (ready_iff precedes records node.1 inside).mpr ⟨free, ?_⟩
        intro left present different before
        by_contra unused
        have waiting : left ∈ label :: labels := legal.permutation.symm.subset
          ((mem_remaining records node.1 left).mpr ⟨present, by simpa using unused⟩)
        rcases List.mem_cons.mp waiting with same | later
        · exact different (congrArg Prod.snd same)
        · have clear := after left later
          rw [before] at clear
          cases clear
      have applies := legal.applies
      rw [List.map_cons, List.foldlM_cons] at applies
      cases applied : apply node.2 label.1 with
      | none => simp [applied] at applies
      | some state =>
          rw [applied] at applies
          have edge : (label, (node.1.set label.2 true, state)) ∈
              children precedes apply records node :=
            (mem_children precedes apply records node label _).mpr ⟨inside, isReady, rfl, applied⟩
          refine Leads.step edge (ih _ (by simpa using sized) ⟨?_, rest, applies⟩)
          exact List.Perm.cons_inv
            (legal.permutation.trans (remaining_set records node.1 member).symm)

theorem remaining_descends (node : Node State) (child : (Record × Nat) × Node State)
    (edge : child ∈ children precedes apply records node) :
    (remaining records child.2.1).length < (remaining records node.1).length := by
  obtain ⟨label, next⟩ := child
  obtain ⟨_, _, flags, _⟩ := (mem_children precedes apply records node label next).mp edge
  have split := remaining_set records node.1 (child_of_remaining precedes apply records edge)
  rw [← flags] at split
  simpa using split.length_eq ▸ Nat.lt_succ_self (remaining records next.1).length

end Positions

/-! From positions back to records: the search starts at the empty set. -/
section Orders

variable (precedes : Record → Record → Bool) (apply : State → Record → Option State)
  (start : State) (records : List Record)

def root : Node State := (List.replicate records.length false, start)

theorem remaining_root :
    remaining records (List.replicate records.length false) = records.zipIdx := by
  apply List.filter_eq_self.mpr
  intro position member
  have bound := index_lt records member
  simp [bound]

theorem perm_of_map_perm {Source Target : Type} (image : Source → Target) (source : List Source)
    (order : List Target) (permutation : order.Perm (source.map image)) :
    ∃ lifted : List Source, lifted.Perm source ∧ lifted.map image = order := by
  induction order generalizing source with
  | nil =>
      have empty := List.map_eq_nil_iff.mp (List.nil_perm.mp permutation)
      exact ⟨[], by rw [empty], rfl⟩
  | cons head rest ih =>
      -- Any entry with the head's image will do; equal records are interchangeable.
      obtain ⟨entry, member, same⟩ := List.mem_map.mp (permutation.subset List.mem_cons_self)
      obtain ⟨before, after, split⟩ := List.append_of_mem member
      have moved : source.Perm (entry :: (before ++ after)) := split ▸ List.perm_middle
      have tail : rest.Perm ((before ++ after).map image) := by
        refine List.Perm.cons_inv (a := head) (permutation.trans ?_)
        simpa [same] using moved.map image
      obtain ⟨lifted, liftedPerm, mapped⟩ := ih _ tail
      exact ⟨entry :: lifted, (liftedPerm.cons entry).trans moved.symm, by simp [mapped, same]⟩

theorem root_leads_legal (labels : List (Record × Nat))
    (leads : Leads goal (children precedes apply records) (root start records) labels) :
    LegalOrder precedes apply start records (labels.map Prod.fst) := by
  have legal := leads_legal precedes apply records _ labels (by simp [root]) leads
  refine ⟨?_, ?_, legal.applies⟩
  · have permutation := legal.permutation
    simp only [root, remaining_root] at permutation
    simpa using permutation.map Prod.fst
  · exact List.pairwise_map.mpr legal.respects

theorem legal_root_leads (order : List Record)
    (legal : LegalOrder precedes apply start records order) :
    ∃ labels, labels.map Prod.fst = order ∧
      Leads goal (children precedes apply records) (root start records) labels := by
  obtain ⟨labels, permutation, mapped⟩ := perm_of_map_perm Prod.fst records.zipIdx order
    (by simpa using legal.permutation)
  refine ⟨labels, mapped, legal_leads precedes apply records _ labels (by simp [root])
    ⟨?_, ?_, ?_⟩⟩
  · simpa [root, remaining_root] using permutation
  · exact List.pairwise_map.mp (mapped ▸ legal.respects)
  · exact mapped ▸ legal.applies

/-- Nodes reached by placing records one at a time, each legal where it stands. -/
inductive Reached : Node State → Prop where
  | start : Reached (root start records)
  | place {node next label} : Reached node →
      (label, next) ∈ children precedes apply records node → Reached next

/-- Nodes below a given one: finitely many, since each edge uses a position up. -/
theorem below_finite (rank : Nat) (above : Node State)
    (bound : (remaining records above.1).length ≤ rank) :
    Set.Finite {node | Relation.ReflTransGen
      (fun node next => ∃ label, (label, next) ∈ children precedes apply records node)
      above node} := by
  induction rank generalizing above with
  | zero =>
      refine (Set.finite_singleton above).subset ?_
      intro node path
      rcases path.cases_head with same | ⟨next, ⟨label, edge⟩, _⟩
      · exact same.symm
      · have less := remaining_descends precedes apply records above _ edge
        omega
  | succ rank ih =>
      have each : ∀ child ∈ {child | child ∈ children precedes apply records above},
          Set.Finite {node | Relation.ReflTransGen
            (fun node next => ∃ label, (label, next) ∈ children precedes apply records node)
            child.2 node} := by
        intro child edge
        have less := remaining_descends precedes apply records above child edge
        exact ih child.2 (by omega)
      refine ((Set.finite_singleton above).union
        (Set.Finite.biUnion (List.finite_toSet (children precedes apply records above)) each)).subset
        ?_
      intro node path
      rcases path.cases_head with same | ⟨next, ⟨label, edge⟩, rest⟩
      · exact Or.inl same.symm
      · exact Or.inr (Set.mem_biUnion (x := (label, next)) edge rest)

theorem reached_finite :
    Set.Finite {node | Reached precedes apply start records node} := by
  refine (below_finite precedes apply records _ (root start records) le_rfl).subset ?_
  intro node reached
  induction reached with
  | start => exact Relation.ReflTransGen.refl
  | place _ edge ih => exact ih.tail ⟨_, edge⟩

theorem ample_limit (cost : Nat) :
    ∃ enough : Nat, ∀ limit, enough ≤ limit →
      (cost : ℕ∞) * Set.encard {node | Reached precedes apply start records node} < limit := by
  obtain ⟨count, counted⟩ := (reached_finite precedes apply start records).exists_encard_eq_coe
  refine ⟨cost * count + 1, ?_⟩
  intro limit large
  rw [counted]
  exact_mod_cast large

section Exactness

variable {precedes apply start records} {budget : Memo (Node State) → Prop}
  {after : Memo (Node State)}

abbrev Searches (precedes : Record → Record → Bool) (apply : State → Record → Option State)
    (start : State) (records : List Record) (budget : Memo (Node State) → Prop)
    (result : Option (List (Record × Nat))) (after : Memo (Node State)) : Prop :=
  Visits goal (children precedes apply records) budget (root start records) ⟨[], false⟩ result after

theorem search_sound {path : List (Record × Nat)}
    (searched : Searches precedes apply start records budget (some path) after) :
    LegalOrder precedes apply start records (path.map Prod.fst) :=
  root_leads_legal precedes apply start records path (visits_sound searched)

theorem search_complete
    (searched : Searches precedes apply start records budget none after)
    (conclusive : after.inconclusive = false) (order : List Record) :
    ¬ LegalOrder precedes apply start records order := by
  intro legal
  obtain ⟨labels, _, leads⟩ := legal_root_leads precedes apply start records order legal
  exact visits_dead (fun node => (remaining records node.1).length)
    (remaining_descends precedes apply records) searched rfl conclusive labels leads

/-- A budget of more than `cost` units for each reachable node always suffices
for a search that spends at most `cost` units on each remembered node. -/
theorem search_conclusive (cost limit : Nat) {result : Option (List (Record × Nat))}
    (spends : ∀ memo, budget memo → limit ≤ cost * memo.seen.length)
    (ample : (cost : ℕ∞) * Set.encard {node | Reached precedes apply start records node} < limit)
    (searched : Searches precedes apply start records budget result after) :
    after.inconclusive = false := by
  refine visits_conclusive (Reached precedes apply start records)
    (fun node reached child edge => Reached.place reached edge) ?_ searched rfl rfl Reached.start
  classical
  -- The table has no duplicates, so its length is at most the number of reachable nodes.
  intro memo unique reached spent
  have counted : (memo.seen.length : ℕ∞) ≤
      Set.encard {node | Reached precedes apply start records node} := by
    rw [← List.toFinset_card_of_nodup unique, ← Set.encard_coe_eq_coe_finsetCard]
    apply Set.encard_le_encard
    intro node member
    exact reached node (by simpa using member)
  have within : ((cost * memo.seen.length : Nat) : ℕ∞) < limit := by
    push_cast
    exact lt_of_le_of_lt (mul_le_mul_right counted _) ample
  exact absurd (spends memo spent) (not_le.mpr (by exact_mod_cast within))

end Exactness

end Orders

end OrderSearch
