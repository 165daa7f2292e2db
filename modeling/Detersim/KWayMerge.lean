import Mathlib.Data.List.MinMax
import Mathlib.Data.List.Sort
import Mathlib.Data.Prod.Lex

/-!
Merging several lists by a key. Each turn takes the front item with the least key,
the one of the first list among equals, and records which list it came from.
-/

namespace KWayMerge

variable {Item Key : Type} [LinearOrder Key]

/-- The first item of each source that has one, with the index of the source. -/
def fronts (sources : List (List Item)) : List (Nat × Item) :=
  sources.zipIdx.filterMap fun source => source.1.head?.map fun item => (source.2, item)

def rank (key : Item → Key) (entry : Nat × Item) : Key ×ₗ Nat := toLex (key entry.2, entry.1)

theorem rank_le {key : Item → Key} {one two : Nat × Item} (same : one.1 = two.1)
    (least : key one.2 ≤ key two.2) : rank key one ≤ rank key two := by
  rw [rank, rank, Prod.Lex.toLex_le_toLex, same]
  rcases lt_or_eq_of_le least with below | level
  · exact Or.inl below
  · exact Or.inr ⟨level, le_rfl⟩

def select (key : Item → Key) (sources : List (List Item)) : Option (Nat × Item) :=
  (fronts sources).argmin (rank key)

def drop (sources : List (List Item)) (index : Nat) : List (List Item) :=
  sources.modify index List.tail

/-- The items that came from one source, in the order they were taken. -/
def ofSource (index : Nat) (entries : List (Nat × Item)) : List Item :=
  (entries.filter fun entry => decide (entry.1 = index)).map Prod.snd

/-- All sources one after the other, each item with the index of its source. -/
def label (sources : List (List Item)) : List (Nat × Item) :=
  sources.zipIdx.flatMap fun source => source.1.map fun item => (source.2, item)

theorem mem_fronts {sources : List (List Item)} {entry : Nat × Item} :
    entry ∈ fronts sources ↔ ∃ rest, sources[entry.1]? = some (entry.2 :: rest) := by
  obtain ⟨index, item⟩ := entry
  rw [fronts, List.mem_filterMap]
  constructor
  · rintro ⟨⟨source, at_⟩, member, front⟩
    rw [List.mk_mem_zipIdx_iff_getElem?] at member
    cases source with
    | nil => cases front
    | cons first rest =>
        cases front
        exact ⟨rest, member⟩
  · rintro ⟨rest, found⟩
    exact ⟨(item :: rest, index), List.mk_mem_zipIdx_iff_getElem?.mpr found, rfl⟩

theorem select_some {key : Item → Key} {sources : List (List Item)} {entry : Nat × Item}
    (chosen : select key sources = some entry) :
    ∃ rest, sources[entry.1]? = some (entry.2 :: rest) :=
  mem_fronts.mp (List.argmin_mem chosen)

theorem select_least {key : Item → Key} {sources : List (List Item)} {entry other : Nat × Item}
    (chosen : select key sources = some entry) (front : other ∈ fronts sources) :
    rank key entry ≤ rank key other :=
  List.le_of_mem_argmin front chosen

theorem select_none {key : Item → Key} {sources : List (List Item)}
    (chosen : select key sources = none) (index : Nat) : sources.getD index [] = [] := by
  have empty : fronts sources = [] := List.argmin_eq_none.mp chosen
  rw [List.getD_eq_getElem?_getD]
  cases found : sources[index]? with
  | none => rfl
  | some source =>
      cases source with
      | nil => rfl
      | cons item rest =>
          have member : (index, item) ∈ fronts sources := mem_fronts.mpr ⟨rest, found⟩
          rw [empty] at member
          cases member

theorem getD_drop (sources : List (List Item)) (index other : Nat) :
    (drop sources index).getD other [] =
      if other = index then (sources.getD other []).tail else sources.getD other [] := by
  rw [drop, List.getD_eq_getElem?_getD, List.getD_eq_getElem?_getD, List.getElem?_modify]
  split_ifs with one two two
  · cases sources[other]? <;> rfl
  · exact absurd one.symm two
  · exact absurd two.symm one
  · cases sources[other]? <;> rfl

theorem length_drop {sources : List (List Item)} {index : Nat} {item : Item} {rest : List Item}
    (found : sources[index]? = some (item :: rest)) :
    (drop sources index).flatten.length + 1 = sources.flatten.length := by
  induction sources generalizing index with
  | nil => cases found
  | cons source sources ih =>
      cases index with
      | zero =>
          rw [List.getElem?_cons_zero, Option.some.injEq] at found
          rw [found]
          simp [drop]
      | succ index =>
          rw [List.getElem?_cons_succ] at found
          have shorter := ih found
          simp only [drop, List.modify_succ_cons, List.flatten_cons, List.length_append] at *
          omega

/-- Items are taken until every source is empty. -/
def merge (key : Item → Key) (sources : List (List Item)) : List (Nat × Item) :=
  match _chosen : select key sources with
  | none => []
  | some entry => entry :: merge key (drop sources entry.1)
termination_by sources.flatten.length
decreasing_by
  obtain ⟨rest, found⟩ := select_some _chosen
  have shorter := length_drop found
  omega

theorem merge_none {key : Item → Key} {sources : List (List Item)}
    (chosen : select key sources = none) : merge key sources = [] := by
  rw [merge]
  split
  · rfl
  · simp_all

theorem merge_some {key : Item → Key} {sources : List (List Item)} {entry : Nat × Item}
    (chosen : select key sources = some entry) :
    merge key sources = entry :: merge key (drop sources entry.1) := by
  rw [merge]
  split
  · simp_all
  · simp_all

theorem ofSource_cons (index : Nat) (entry : Nat × Item) (entries : List (Nat × Item)) :
    ofSource index (entry :: entries) =
      if entry.1 = index then entry.2 :: ofSource index entries else ofSource index entries := by
  rw [ofSource, List.filter_cons]
  split_ifs <;> simp_all [ofSource]

/-- The merge takes every item of every source once, and each source in order. -/
theorem ofSource_merge (key : Item → Key) (sources : List (List Item)) (index : Nat) :
    ofSource index (merge key sources) = sources.getD index [] := by
  fun_induction merge key sources with
  | case1 sources chosen =>
      rw [select_none chosen]
      rfl
  | case2 sources entry chosen ih =>
      obtain ⟨rest, found⟩ := select_some chosen
      rw [ofSource_cons, ih, getD_drop]
      split_ifs with one two two
      · rw [← one, List.getD_eq_getElem?_getD, found]
        rfl
      · exact absurd one.symm two
      · exact absurd two.symm one
      · rfl

theorem mem_ofSource {entries : List (Nat × Item)} {entry : Nat × Item} :
    entry.2 ∈ ofSource entry.1 entries ↔ entry ∈ entries := by
  rw [ofSource, List.mem_map]
  constructor
  · rintro ⟨found, member, item⟩
    obtain ⟨inside, index⟩ := List.mem_filter.mp member
    have same : found = entry := Prod.ext (of_decide_eq_true index) item
    exact same ▸ inside
  · intro member
    exact ⟨entry, List.mem_filter.mpr ⟨member, decide_eq_true rfl⟩, rfl⟩

theorem mem_merge {key : Item → Key} {sources : List (List Item)} {entry : Nat × Item}
    (member : entry ∈ merge key sources) : entry.2 ∈ sources.getD entry.1 [] := by
  rw [← ofSource_merge key sources entry.1]
  exact mem_ofSource.mpr member

section Sorted

variable {key : Item → Key}

def SortedSources (key : Item → Key) (sources : List (List Item)) : Prop :=
  ∀ index, (sources.getD index []).Pairwise fun one two => key one ≤ key two

theorem sortedSources_drop {sources : List (List Item)} (sorted : SortedSources key sources)
    (index : Nat) : SortedSources key (drop sources index) := by
  intro other
  rw [getD_drop]
  split_ifs
  · exact (sorted other).tail
  · exact sorted other

/-- An item still to come is not before the front of its source. -/
theorem front_le {sources : List (List Item)} (sorted : SortedSources key sources)
    {entry : Nat × Item} (later : entry.2 ∈ sources.getD entry.1 []) :
    ∃ front ∈ fronts sources, rank key front ≤ rank key entry := by
  have ordered := sorted entry.1
  cases found : sources.getD entry.1 [] with
  | nil =>
      rw [found] at later
      cases later
  | cons item rest =>
      rw [found] at later ordered
      have there : sources[entry.1]? = some (item :: rest) := by
        rw [List.getD_eq_getElem?_getD] at found
        cases source : sources[entry.1]? with
        | none => simp [source] at found
        | some list => simpa [source] using found
      have least : key item ≤ key entry.2 := by
        rcases List.mem_cons.mp later with same | after
        · rw [same]
        · exact List.rel_of_pairwise_cons ordered after
      exact ⟨(entry.1, item), mem_fronts.mpr ⟨rest, there⟩, rank_le rfl least⟩

theorem merge_ordered {sources : List (List Item)} (sorted : SortedSources key sources) :
    (merge key sources).Pairwise fun one two => rank key one ≤ rank key two := by
  fun_induction merge key sources with
  | case1 sources chosen => exact List.Pairwise.nil
  | case2 sources entry chosen ih =>
      have rest := sortedSources_drop sorted entry.1
      refine List.pairwise_cons.mpr ⟨?_, ih rest⟩
      intro later member
      have ahead : later.2 ∈ sources.getD later.1 [] := by
        have there := mem_merge member
        rw [getD_drop] at there
        split_ifs at there
        · exact List.mem_of_mem_tail there
        · exact there
      obtain ⟨front, there, before⟩ := front_le sorted ahead
      exact le_trans (select_least chosen there) before

end Sorted

/-- An order of all items by rank is determined by what it takes from each source. -/
theorem eq_of_ofSource {key : Item → Key} {left right : List (Nat × Item)}
    (leftOrder : left.Pairwise fun one two => rank key one ≤ rank key two)
    (rightOrder : right.Pairwise fun one two => rank key one ≤ rank key two)
    (same : ∀ index, ofSource index left = ofSource index right) : left = right := by
  induction left generalizing right with
  | nil =>
      cases right with
      | nil => rfl
      | cons entry rest =>
          have nothing := same entry.1
          rw [ofSource_cons, if_pos rfl] at nothing
          cases nothing
  | cons first left ih =>
      cases right with
      | nil =>
          have nothing := same first.1
          rw [ofSource_cons, if_pos rfl] at nothing
          cases nothing
      | cons second right =>
          have inLeft : second ∈ first :: left := by
            rw [← mem_ofSource, same]
            exact mem_ofSource.mpr List.mem_cons_self
          have inRight : first ∈ second :: right := by
            rw [← mem_ofSource, ← same]
            exact mem_ofSource.mpr List.mem_cons_self
          have level : rank key first = rank key second := by
            apply le_antisymm
            · rcases List.mem_cons.mp inLeft with equal | later
              · rw [equal]
              · exact List.rel_of_pairwise_cons leftOrder later
            · rcases List.mem_cons.mp inRight with equal | later
              · rw [equal]
              · exact List.rel_of_pairwise_cons rightOrder later
          have index : first.1 = second.1 := congrArg (fun pair => (ofLex pair).2) level
          have taken := same first.1
          rw [ofSource_cons, if_pos rfl, ofSource_cons, if_pos index.symm] at taken
          have heads : first = second := Prod.ext index (List.cons.inj taken).1
          have tails : left = right := by
            apply ih leftOrder.tail rightOrder.tail
            intro other
            have both := same other
            rw [ofSource_cons, ofSource_cons, heads] at both
            split_ifs at both with here
            · exact (List.cons.inj both).2
            · exact both
          rw [heads, tails]

def before (key : Item → Key) (one two : Nat × Item) : Bool :=
  decide (rank key one ≤ rank key two)

theorem before_trans (key : Item → Key) (one two three : Nat × Item)
    (first : before key one two = true) (second : before key two three = true) :
    before key one three = true :=
  decide_eq_true (le_trans (of_decide_eq_true first) (of_decide_eq_true second))

theorem before_total (key : Item → Key) (one two : Nat × Item) :
    (before key one two || before key two one) = true := by
  rw [before, before, Bool.or_eq_true, decide_eq_true_eq, decide_eq_true_eq]
  exact le_total _ _

theorem ofSource_append (index : Nat) (left right : List (Nat × Item)) :
    ofSource index (left ++ right) = ofSource index left ++ ofSource index right := by
  rw [ofSource, List.filter_append, List.map_append, ofSource, ofSource]

theorem ofSource_tagged (index at_ : Nat) (source : List Item) :
    ofSource index (source.map fun item => (at_, item)) = if at_ = index then source else [] := by
  induction source with
  | nil => exact (ite_self _).symm
  | cons item rest ih =>
      rw [List.map_cons, ofSource_cons, ih]
      split_ifs <;> rfl

theorem ofSource_label (sources : List (List Item)) (index : Nat) :
    ofSource index (label sources) = sources.getD index [] := by
  induction sources using List.reverseRecOn with
  | nil => rfl
  | append_singleton sources last ih =>
      have tail : label (sources ++ [last]) =
          label sources ++ last.map fun item => (sources.length, item) := by
        simp [label, List.zipIdx_append]
      rw [tail, ofSource_append, ih, ofSource_tagged, List.getD_eq_getElem?_getD,
        List.getD_eq_getElem?_getD]
      rcases lt_trichotomy index sources.length with inside | end_ | outside
      · rw [if_neg (ne_of_gt inside), List.append_nil, List.getElem?_append_left inside]
      · rw [if_pos end_.symm, end_, List.getElem?_concat_length, List.getElem?_eq_none le_rfl]
        rfl
      · have beyond : (sources ++ [last]).length ≤ index := by
          rw [List.length_append, List.length_singleton]
          exact outside
        rw [if_neg (ne_of_lt outside), List.append_nil, List.getElem?_eq_none beyond,
          List.getElem?_eq_none (le_of_lt outside)]

theorem ofSource_sort {key : Item → Key} {entries : List (Nat × Item)} {index : Nat}
    (sorted : (ofSource index entries).Pairwise fun one two => key one ≤ key two) :
    ofSource index (entries.mergeSort (before key)) = ofSource index entries := by
  have ordered : (entries.filter fun entry => decide (entry.1 = index)).Pairwise
      fun one two => before key one two = true := by
    rw [ofSource, List.pairwise_map] at sorted
    refine (List.Pairwise.and_mem.mp sorted).imp ?_
    rintro one two ⟨first, second, least⟩
    have one_ : one.1 = index := of_decide_eq_true (List.mem_filter.mp first).2
    have two_ : two.1 = index := of_decide_eq_true (List.mem_filter.mp second).2
    exact decide_eq_true (rank_le (one_.trans two_.symm) least)
  -- The entries of one source are in order already, so the sort leaves them as they are.
  have kept := (List.sublist_mergeSort (before_trans key) (before_total key) ordered
    List.filter_sublist).filter fun entry => decide (entry.1 = index)
  rw [List.filter_filter] at kept
  simp only [Bool.and_self] at kept
  have permuted := (List.mergeSort_perm entries (before key)).filter
    fun entry => decide (entry.1 = index)
  rw [ofSource, ofSource, kept.eq_of_length permuted.length_eq.symm]

/-- The merge of sorted sources is their stable sort. -/
theorem merge_eq_sort {key : Item → Key} {sources : List (List Item)}
    (sorted : SortedSources key sources) :
    merge key sources = (label sources).mergeSort (before key) := by
  have ordered : ((label sources).mergeSort (before key)).Pairwise
      fun one two => rank key one ≤ rank key two :=
    (List.pairwise_mergeSort (before_trans key) (before_total key) _).imp of_decide_eq_true
  refine eq_of_ofSource (merge_ordered sorted) ordered ?_
  intro index
  rw [ofSource_merge, ofSource_sort, ofSource_label]
  rw [ofSource_label]
  exact sorted index

end KWayMerge
