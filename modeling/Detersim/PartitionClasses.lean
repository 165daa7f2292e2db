import Detersim.Inner
import Detersim.NemesisPlans

/-!
What a partition leaves connected. Two registered nodes are connected when the
last group that lists the one lists the other too, or when no group lists either;
no earlier link state matters.
-/

namespace Detersim

/-- The calls that change a matrix. -/
inductive MatrixCall where
  | addNode (node : NodeId)
  | block (sender receiver : NodeId)
  | allow (sender receiver : NodeId)
  | setLink (sender receiver : NodeId) (up : Bool)
  | healAll
  | partition (groups : List (List NodeId))

namespace ConnectivityMatrix

def call (matrix : ConnectivityMatrix) : MatrixCall → ConnectivityMatrix
  | .addNode node => matrix.addNode node
  | .block sender receiver => matrix.block sender receiver
  | .allow sender receiver => matrix.allow sender receiver
  | .setLink sender receiver up => matrix.setLink sender receiver up
  | .healAll => matrix.healAll
  | .partition groups => matrix.partition groups

end ConnectivityMatrix

/-- Of the groups that list the node, the one at `index` is the last. -/
def LastGroup (groups : List (List NodeId)) (node : NodeId) (index : Nat) : Prop :=
  (∃ group, groups[index]? = some group ∧ node ∈ group) ∧
    ∀ later group, index < later → groups[later]? = some group → node ∉ group

def Unlisted (groups : List (List NodeId)) (node : NodeId) : Prop :=
  ∀ group ∈ groups, node ∉ group

def SameClass (groups : List (List NodeId)) (first second : NodeId) : Prop :=
  (∃ index, LastGroup groups first index ∧ LastGroup groups second index) ∨
    (Unlisted groups first ∧ Unlisted groups second)

namespace ConnectivityMatrix

theorem get_insertGroup (map : SortedMap NodeId Nat) (group : List NodeId) (index : Nat)
    (node : NodeId) :
    (group.foldl (fun map node => map.insert node index) map).get node =
      if node ∈ group then some index else map.get node := by
  induction group generalizing map with
  | nil => simp
  | cons first rest ih =>
      rw [List.foldl_cons, ih, SortedMap.get_insert]
      by_cases later : node ∈ rest
      · simp [later]
      · simp [later]

theorem get_groupOf_append (groups : List (List NodeId)) (last : List NodeId) (node : NodeId) :
    (groupOf (groups ++ [last])).get node =
      if node ∈ last then some groups.length else (groupOf groups).get node := by
  simp only [groupOf, List.zipIdx_append, List.foldl_append, List.zipIdx_cons, List.zipIdx_nil,
    List.foldl_cons, List.foldl_nil, Nat.zero_add]
  exact get_insertGroup _ last groups.length node

theorem group_append (groups : List (List NodeId)) (last : List NodeId) (index : Nat) :
    (groups ++ [last])[index]? = if index = groups.length then some last else groups[index]? := by
  split_ifs with end_
  · rw [end_, List.getElem?_concat_length]
  · rcases lt_or_gt_of_ne end_ with within | beyond
    · exact List.getElem?_append_left within
    · have outside : (groups ++ [last]).length ≤ index := by
        rw [List.length_append, List.length_singleton]
        exact beyond
      rw [List.getElem?_eq_none outside, List.getElem?_eq_none (Nat.le_of_lt beyond)]

theorem lastGroup_append (groups : List (List NodeId)) (last : List NodeId) (node : NodeId)
    (index : Nat) :
    LastGroup (groups ++ [last]) node index ↔
      if node ∈ last then index = groups.length else LastGroup groups node index := by
  have within {at_ : Nat} {group : List NodeId} (found : groups[at_]? = some group) :
      at_ < groups.length := (List.getElem?_eq_some_iff.mp found).1
  split_ifs with listed
  · constructor
    · rintro ⟨⟨group, found, _⟩, after⟩
      by_contra earlier
      rw [group_append, if_neg earlier] at found
      exact after groups.length last (within found) (by rw [group_append, if_pos rfl]) listed
    · rintro rfl
      refine ⟨⟨last, by rw [group_append, if_pos rfl], listed⟩, ?_⟩
      intro later group beyond found
      rw [group_append, if_neg (ne_of_gt beyond)] at found
      exact absurd (within found) (not_lt_of_gt beyond)
  · constructor
    · rintro ⟨⟨group, found, member⟩, after⟩
      rw [group_append] at found
      split_ifs at found with end_
      · cases found
        exact absurd member listed
      · refine ⟨⟨group, found, member⟩, ?_⟩
        intro later group beyond there
        refine after later group beyond ?_
        rw [group_append, if_neg (ne_of_lt (within there)), there]
    · rintro ⟨⟨group, found, member⟩, after⟩
      refine ⟨⟨group, by rw [group_append, if_neg (ne_of_lt (within found)), found], member⟩, ?_⟩
      intro later group beyond there
      rw [group_append] at there
      split_ifs at there with end_
      · cases there
        exact listed
      · exact after later group beyond there

theorem get_groupOf (groups : List (List NodeId)) (node : NodeId) (index : Nat) :
    (groupOf groups).get node = some index ↔ LastGroup groups node index := by
  induction groups using List.reverseRecOn with
  | nil => simp [groupOf, LastGroup]
  | append_singleton groups last ih =>
      rw [get_groupOf_append, lastGroup_append]
      split_ifs with listed
      · rw [Option.some.injEq, eq_comm]
      · exact ih

theorem get_groupOf_none (groups : List (List NodeId)) (node : NodeId) :
    (groupOf groups).get node = none ↔ Unlisted groups node := by
  induction groups using List.reverseRecOn with
  | nil => simp [groupOf, Unlisted]
  | append_singleton groups last ih =>
      rw [get_groupOf_append]
      split_ifs with listed
      · simp [Unlisted, listed]
      · rw [ih]
        simp [Unlisted, or_imp, forall_and, listed]

theorem sameClass_iff (groups : List (List NodeId)) (first second : NodeId) :
    SameClass groups first second ↔
      (groupOf groups).get first = (groupOf groups).get second := by
  simp only [SameClass, ← get_groupOf, ← get_groupOf_none]
  cases (groupOf groups).get first <;> cases (groupOf groups).get second <;>
    simp [eq_comm]

theorem partition_nodes (matrix : ConnectivityMatrix) (groups : List (List NodeId)) :
    (matrix.partition groups).nodes = matrix.nodes ∪ groups.flatten.toFinset := rfl

theorem isConnected_partition (matrix : ConnectivityMatrix) (groups : List (List NodeId))
    {sender receiver : NodeId} (from_ : sender ∈ (matrix.partition groups).nodes)
    (to_ : receiver ∈ (matrix.partition groups).nodes) :
    (matrix.partition groups).isConnected sender receiver = true ↔
      SameClass groups sender receiver := by
  have inside : (sender, receiver) ∈
      (matrix.partition groups).nodes ×ˢ (matrix.partition groups).nodes :=
    Finset.mem_product.mpr ⟨from_, to_⟩
  have cut : (sender, receiver) ∈ (matrix.partition groups).blocked ↔
      (groupOf groups).get sender ≠ (groupOf groups).get receiver := by
    rw [partition, Finset.mem_filter]
    exact and_iff_right inside
  rw [sameClass_iff, isConnected, decide_eq_true from_, decide_eq_true to_, Bool.true_and,
    Bool.true_and, decide_eq_true_eq, cut, not_not]

/-- Connectivity among the registered nodes. -/
def Linked (matrix : ConnectivityMatrix) (first second : {node // node ∈ matrix.nodes}) : Prop :=
  matrix.isConnected first second = true

theorem linked_partition (matrix : ConnectivityMatrix) (groups : List (List NodeId)) :
    Equivalence (matrix.partition groups).Linked := by
  have classes : (matrix.partition groups).Linked = fun first second =>
      (groupOf groups).get first.val = (groupOf groups).get second.val := by
    funext first second
    rw [Linked, isConnected_partition matrix groups first.2 second.2, sameClass_iff]
  rw [classes]
  exact eq_equivalence.comap _

theorem partition_congr {matrix other : ConnectivityMatrix} (same : other.nodes = matrix.nodes)
    (groups : List (List NodeId)) : other.partition groups = matrix.partition groups := by
  rw [partition, partition, same]

theorem isConnected_healAll (matrix : ConnectivityMatrix) {sender receiver : NodeId}
    (from_ : sender ∈ matrix.nodes) (to_ : receiver ∈ matrix.nodes) :
    matrix.healAll.isConnected sender receiver = true := by
  simp [isConnected, healAll, from_, to_]

theorem sameClass_pair {left right : List NodeId} (apart : left.Disjoint right)
    {first second : NodeId} (one : first ∈ left ++ right) (two : second ∈ left ++ right) :
    SameClass [left, right] first second ↔
      (first ∈ left ∧ second ∈ left) ∨ (first ∈ right ∧ second ∈ right) := by
  have outside {node : NodeId} (member : node ∈ left ++ right) : node ∈ left ↔ node ∉ right := by
    constructor
    · exact fun here there => apart here there
    · exact (List.mem_append.mp member).resolve_right
  have side {node : NodeId} (member : node ∈ left ++ right) :
      (groupOf [left, right]).get node = if node ∈ right then some 1 else some 0 := by
    rw [groupOf, List.zipIdx_cons, List.zipIdx_cons, List.zipIdx_nil, List.foldl_cons,
      List.foldl_cons, List.foldl_nil, get_insertGroup, get_insertGroup]
    split_ifs with there here
    · rfl
    · rfl
    · exact absurd ((outside member).mpr there) here
  rw [sameClass_iff, side one, side two, outside one, outside two]
  by_cases first_ : first ∈ right <;> by_cases second_ : second ∈ right <;>
    simp [first_, second_]

end ConnectivityMatrix

namespace WorldView

theorem nodup_liveNodes (now : SimTime) (nodes : List NodeId) (crashed : Finset NodeId)
    (connectivity : ConnectivityMatrix) :
    (WorldView.new now nodes crashed connectivity).liveNodes.Nodup :=
  (List.nodup_dedup _).filter _

end WorldView

/-- A partition of the live nodes into two sides, whatever the links were before. -/
def SplitsLive (live : List NodeId) (action : NemesisAction) : Prop :=
  ∃ left right, action = .partition [left, right] ∧
    left ≠ [] ∧ right ≠ [] ∧ left.Disjoint right ∧ left ++ right = live ∧
    ∀ matrix : ConnectivityMatrix, ∀ first ∈ live, ∀ second ∈ live,
      ((matrix.partition [left, right]).isConnected first second = true ↔
        (first ∈ left ∧ second ∈ left) ∨ (first ∈ right ∧ second ∈ right))

theorem splitsLive_cut {live : List NodeId} (distinct : live.Nodup) {pivot : Nat}
    (positive : 0 < pivot) (inside : pivot < live.length) :
    SplitsLive live (.partition [live.take pivot, live.drop pivot]) := by
  have whole : live.take pivot ++ live.drop pivot = live := List.take_append_drop pivot live
  have apart : (live.take pivot).Disjoint (live.drop pivot) :=
    List.disjoint_take_drop distinct le_rfl
  refine ⟨live.take pivot, live.drop pivot, rfl, ?_, ?_, apart, whole, ?_⟩
  · apply List.ne_nil_of_length_pos
    rw [List.length_take]
    omega
  · apply List.ne_nil_of_length_pos
    rw [List.length_drop]
    omega
  · intro matrix first one second two
    have listed {node : NodeId} (member : node ∈ live) :
        node ∈ (matrix.partition [live.take pivot, live.drop pivot]).nodes := by
      rw [ConnectivityMatrix.partition_nodes]
      simp [whole, member]
    rw [ConnectivityMatrix.isConnected_partition matrix _ (listed one) (listed two)]
    exact ConnectivityMatrix.sameClass_pair apart (whole.symm ▸ one) (whole.symm ▸ two)

/-- The plan draws once, and whatever is drawn its action splits the live nodes. -/
def RandomPartition.Splits (plan : RandomPartition) (view : WorldView) : Prop :=
  ∃ next, RandomPartition.nextAction plan view = .draw "nemesis.partition" next ∧
    ∀ drawn, ∃ action after, next drawn = .done (some (plan.nextAt, action), after) ∧
      SplitsLive view.liveNodes action

theorem RandomPartition.nextAction_splits (plan : RandomPartition) (view : WorldView)
    (distinct : view.liveNodes.Nodup) (more : plan.remaining ≠ 0)
    (enough : 2 ≤ view.liveNodes.length) : plan.Splits view := by
  rw [RandomPartition.Splits, RandomPartition.nextAction, if_neg (by omega)]
  refine ⟨_, rfl, ?_⟩
  intro drawn
  refine ⟨_, _, rfl, splitsLive_cut distinct (by omega) ?_⟩
  have below : drawn.toNat % (view.liveNodes.length - 1) < view.liveNodes.length - 1 :=
    Nat.mod_lt _ (by omega)
  omega

/-- The simulator hands its plans the view that `WorldView::new` would build. -/
theorem Inner.worldView_eq_new {State Value : Type} (g : Inner State Value) :
    g.worldView = .new g.now (g.nodes.sort (· ≤ ·)) g.crashed g.faults.connectivity := by
  have sorted : (g.nodes.sort (· ≤ ·)).insertionSort (· ≤ ·) = g.nodes.sort (· ≤ ·) :=
    (g.nodes.pairwise_sort (· ≤ ·)).insertionSort_eq
  rw [Inner.worldView, WorldView.new, sorted, (g.nodes.sort_nodup (· ≤ ·)).dedup]

/-- A partition of any matrix relates the registered nodes by their last group, a
later `heal_all` relates them all, and a random partition has two sides, on every view
that is built and so on that of every world. -/
theorem partition_classes :
    (∀ (matrix : ConnectivityMatrix) (groups : List (List NodeId)),
      (matrix.partition groups).nodes = matrix.nodes ∪ groups.flatten.toFinset ∧
      Equivalence (matrix.partition groups).Linked ∧
      (∀ first second, (matrix.partition groups).Linked first second ↔
        SameClass groups first second) ∧
      (∀ other : ConnectivityMatrix, other.nodes = matrix.nodes →
        other.partition groups = matrix.partition groups) ∧
      ∀ later : List MatrixCall,
        ∀ first second, ((later.foldl ConnectivityMatrix.call
          (matrix.partition groups)).healAll).Linked first second) ∧
    ∀ plan : RandomPartition, plan.remaining ≠ 0 →
      (∀ now nodes crashed connectivity,
        2 ≤ (WorldView.new now nodes crashed connectivity).liveNodes.length →
        plan.Splits (.new now nodes crashed connectivity)) ∧
      ∀ (State Value : Type) (g : Inner State Value), 2 ≤ g.worldView.liveNodes.length →
        plan.Splits g.worldView := by
  refine ⟨?_, ?_⟩
  · intro matrix groups
    refine ⟨matrix.partition_nodes groups, matrix.linked_partition groups, ?_, ?_, ?_⟩
    · intro first second
      exact matrix.isConnected_partition groups first.2 second.2
    · intro other same
      exact ConnectivityMatrix.partition_congr same groups
    · intro later first second
      exact ConnectivityMatrix.isConnected_healAll _ first.2 second.2
  · intro plan more
    refine ⟨?_, ?_⟩
    · intro now nodes crashed connectivity enough
      exact plan.nextAction_splits _ (WorldView.nodup_liveNodes now nodes crashed connectivity)
        more enough
    · intro State Value g enough
      rw [g.worldView_eq_new] at enough ⊢
      exact plan.nextAction_splits _ (WorldView.nodup_liveNodes _ _ _ _) more enough

/-- Nodes given out of order and twice, one of them crashed. -/
theorem partition_classes_three_live :
    ∃ next,
      RandomPartition.nextAction ⟨5, 10, 1⟩ (.new 0 [3, 1, 2, 1, 0] {2} .new) =
        .draw "nemesis.partition" next ∧
      ∀ drawn, ∃ action after, next drawn = .done (some (5, action), after) ∧
        SplitsLive [0, 1, 3] action :=
  (partition_classes.2 ⟨5, 10, 1⟩ (by decide)).1 0 [3, 1, 2, 1, 0] {2} .new (by decide)

end Detersim
