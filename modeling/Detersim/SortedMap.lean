import Mathlib.Data.List.Nodup
import Mathlib.Order.Lattice

/-!
Finite maps kept as a list of entries in strictly increasing key order. The
order proof is a field, so a map has one representation: two maps with the same
lookups are equal, and emptiness and size are those of the entry list.
-/

structure SortedMap (Key Value : Type) [LinearOrder Key] where
  entries : List (Key × Value)
  ordered : entries.Pairwise fun left right => left.1 < right.1

namespace SortedMap

variable {Key Value : Type} [LinearOrder Key]

def insertEntry (key : Key) (value : Value) : List (Key × Value) → List (Key × Value)
  | [] => [(key, value)]
  | entry :: rest =>
      if key < entry.1 then (key, value) :: entry :: rest
      else if key = entry.1 then (key, value) :: rest
      else entry :: insertEntry key value rest

theorem mem_insertEntry (key : Key) (value : Value) (entries : List (Key × Value))
    (ordered : entries.Pairwise fun left right => left.1 < right.1) (entry : Key × Value) :
    entry ∈ insertEntry key value entries ↔
      entry = (key, value) ∨ (entry ∈ entries ∧ entry.1 ≠ key) := by
  induction entries with
  | nil => simp [insertEntry]
  | cons head rest ih =>
      obtain ⟨above, tail⟩ := List.pairwise_cons.mp ordered
      simp only [insertEntry]
      split_ifs with before same
      · constructor
        · intro member
          rcases List.mem_cons.mp member with new | old
          · exact Or.inl new
          · refine Or.inr ⟨old, ?_⟩
            rcases List.mem_cons.mp old with first | later
            · exact first ▸ ne_of_gt before
            · exact ne_of_gt (lt_trans before (above entry later))
        · rintro (new | ⟨old, _⟩)
          · exact new ▸ List.mem_cons_self
          · exact List.mem_cons_of_mem _ old
      · constructor
        · intro member
          rcases List.mem_cons.mp member with new | later
          · exact Or.inl new
          · exact Or.inr ⟨List.mem_cons_of_mem _ later, same ▸ ne_of_gt (above entry later)⟩
        · rintro (new | ⟨old, different⟩)
          · exact new ▸ List.mem_cons_self
          · rcases List.mem_cons.mp old with first | later
            · exact absurd (first ▸ same.symm) different
            · exact List.mem_cons_of_mem _ later
      · rw [List.mem_cons, ih tail, List.mem_cons]
        constructor
        · rintro (first | new | ⟨later, different⟩)
          · exact Or.inr ⟨Or.inl first, first ▸ fun equal => same equal.symm⟩
          · exact Or.inl new
          · exact Or.inr ⟨Or.inr later, different⟩
        · rintro (new | ⟨first | later, different⟩)
          · exact Or.inr (Or.inl new)
          · exact Or.inl first
          · exact Or.inr (Or.inr ⟨later, different⟩)

theorem insertEntry_ordered (key : Key) (value : Value) (entries : List (Key × Value))
    (ordered : entries.Pairwise fun left right => left.1 < right.1) :
    (insertEntry key value entries).Pairwise fun left right => left.1 < right.1 := by
  induction entries with
  | nil => simp [insertEntry]
  | cons head rest ih =>
      obtain ⟨above, tail⟩ := List.pairwise_cons.mp ordered
      simp only [insertEntry]
      split_ifs with before same
      · refine List.pairwise_cons.mpr ⟨?_, ordered⟩
        intro entry member
        rcases List.mem_cons.mp member with first | later
        · exact first ▸ before
        · exact lt_trans before (above entry later)
      · exact List.pairwise_cons.mpr ⟨fun entry member => same ▸ above entry member, tail⟩
      · refine List.pairwise_cons.mpr ⟨?_, ih tail⟩
        intro entry member
        rcases (mem_insertEntry key value rest tail entry).mp member with new | ⟨old, _⟩
        · exact new ▸ lt_of_le_of_ne (not_lt.mp before) (Ne.symm same)
        · exact above entry old

def empty : SortedMap Key Value := ⟨[], List.Pairwise.nil⟩

def get (map : SortedMap Key Value) (key : Key) : Option Value :=
  (map.entries.find? fun entry => decide (entry.1 = key)).map Prod.snd

def contains (map : SortedMap Key Value) (key : Key) : Bool := (map.get key).isSome

def insert (map : SortedMap Key Value) (key : Key) (value : Value) : SortedMap Key Value :=
  ⟨insertEntry key value map.entries, insertEntry_ordered key value map.entries map.ordered⟩

def retain (map : SortedMap Key Value) (keep : Key → Value → Bool) : SortedMap Key Value :=
  ⟨map.entries.filter fun entry => keep entry.1 entry.2, map.ordered.filter _⟩

def remove (map : SortedMap Key Value) (key : Key) : SortedMap Key Value :=
  map.retain fun other _ => decide (other ≠ key)

def mapValues {Other : Type} (map : SortedMap Key Value) (change : Key → Value → Other) :
    SortedMap Key Other :=
  ⟨map.entries.map fun entry => (entry.1, change entry.1 entry.2), by
    rw [List.pairwise_map]; exact map.ordered⟩

def keys (map : SortedMap Key Value) : List Key := map.entries.map Prod.fst

def values (map : SortedMap Key Value) : List Value := map.entries.map Prod.snd

def size (map : SortedMap Key Value) : Nat := map.entries.length

def isEmpty (map : SortedMap Key Value) : Bool := map.entries.isEmpty

theorem nodup_keys (map : SortedMap Key Value) : map.keys.Nodup :=
  List.pairwise_map.mpr (map.ordered.imp fun before => ne_of_lt before)

theorem unique_entry (map : SortedMap Key Value) {key : Key} {left right : Value}
    (first : (key, left) ∈ map.entries) (second : (key, right) ∈ map.entries) : left = right := by
  exact congrArg Prod.snd (List.inj_on_of_nodup_map map.nodup_keys first second rfl)

theorem get_eq_some (map : SortedMap Key Value) (key : Key) (value : Value) :
    map.get key = some value ↔ (key, value) ∈ map.entries := by
  unfold get
  cases found : map.entries.find? (fun entry => decide (entry.1 = key)) with
  | none =>
      have absent := List.find?_eq_none.mp found
      simp only [Option.map_none, reduceCtorEq, false_iff]
      intro member
      simpa using absent (key, value) member
  | some entry =>
      have member := List.mem_of_find?_eq_some found
      have same : entry.1 = key := by simpa using List.find?_some found
      obtain ⟨entryKey, entryValue⟩ := entry
      subst same
      simp only [Option.map_some, Option.some.injEq]
      constructor
      · intro equal
        exact equal ▸ member
      · intro other
        exact map.unique_entry member other

theorem get_ext {left right : SortedMap Key Value} (same : ∀ key, left.get key = right.get key) :
    left = right := by
  have members : ∀ entry, entry ∈ left.entries ↔ entry ∈ right.entries := by
    intro entry
    rw [← left.get_eq_some entry.1 entry.2, ← right.get_eq_some entry.1 entry.2, same]
  have distinct (map : SortedMap Key Value) : map.entries.Nodup :=
    map.ordered.imp fun before equal => ne_of_lt before (congrArg Prod.fst equal)
  have perm := (List.perm_ext_iff_of_nodup (distinct left) (distinct right)).mpr members
  have entries : left.entries = right.entries :=
    perm.eq_of_pairwise (fun a b _ _ ab ba => absurd (lt_trans ab ba) (lt_irrefl _))
      left.ordered right.ordered
  cases left
  cases right
  simpa using entries

instance [DecidableEq Value] : DecidableEq (SortedMap Key Value) := fun left right =>
  decidable_of_iff (left.entries = right.entries) ⟨fun same => by
    cases left; cases right; simpa using same, fun same => same ▸ rfl⟩

@[simp] theorem get_empty (key : Key) : (empty : SortedMap Key Value).get key = none := rfl

theorem get_insert (map : SortedMap Key Value) (key : Key) (value : Value) (other : Key) :
    (map.insert key value).get other = if other = key then some value else map.get other := by
  apply Option.ext
  intro found
  rw [get_eq_some]
  simp only [insert, mem_insertEntry key value map.entries map.ordered]
  by_cases same : other = key
  · simp [same, eq_comm]
  · simp [same, get_eq_some]

theorem get_retain (map : SortedMap Key Value) (keep : Key → Value → Bool) (key : Key) :
    (map.retain keep).get key = (map.get key).filter (keep key) := by
  apply Option.ext
  intro found
  rw [get_eq_some]
  simp [retain, Option.filter_eq_some_iff, get_eq_some]

theorem get_remove (map : SortedMap Key Value) (key other : Key) :
    (map.remove key).get other = if other = key then none else map.get other := by
  rw [remove, get_retain]
  by_cases same : other = key
  · simp [same]
  · cases map.get other <;> simp [same]

theorem get_mapValues {Other : Type} (map : SortedMap Key Value)
    (change : Key → Value → Other) (key : Key) :
    (map.mapValues change).get key = (map.get key).map (change key) := by
  apply Option.ext
  intro found
  rw [get_eq_some, Option.map_eq_some_iff]
  simp only [mapValues, List.mem_map, Prod.mk.injEq, get_eq_some]
  constructor
  · rintro ⟨entry, member, rfl, rfl⟩
    exact ⟨entry.2, member, rfl⟩
  · rintro ⟨value, member, rfl⟩
    exact ⟨(key, value), member, rfl, rfl⟩

@[simp] theorem get_insert_self (map : SortedMap Key Value) (key : Key) (value : Value) :
    (map.insert key value).get key = some value := by
  rw [get_insert, if_pos rfl]

theorem insert_insert_self (map : SortedMap Key Value) (key : Key) (first second : Value) :
    (map.insert key first).insert key second = map.insert key second := by
  apply get_ext
  intro other
  rw [get_insert, get_insert, get_insert]
  split_ifs <;> rfl

theorem get_insert_of_ne (map : SortedMap Key Value) {key other : Key} (value : Value)
    (different : other ≠ key) : (map.insert key value).get other = map.get other := by
  rw [get_insert, if_neg different]

@[simp] theorem get_remove_self (map : SortedMap Key Value) (key : Key) :
    (map.remove key).get key = none := by
  rw [get_remove, if_pos rfl]

theorem get_remove_of_ne (map : SortedMap Key Value) {key other : Key} (different : other ≠ key) :
    (map.remove key).get other = map.get other := by
  rw [get_remove, if_neg different]

theorem size_remove_lt (map : SortedMap Key Value) {key : Key} {value : Value}
    (present : map.get key = some value) : (map.remove key).size < map.size := by
  apply List.length_filter_lt_length_iff_exists.mpr
  exact ⟨(key, value), (map.get_eq_some key value).mp present, by simp⟩

theorem contains_iff (map : SortedMap Key Value) (key : Key) :
    map.contains key = true ↔ ∃ value, map.get key = some value :=
  Option.isSome_iff_exists

theorem mem_keys (map : SortedMap Key Value) (key : Key) :
    key ∈ map.keys ↔ map.contains key = true := by
  rw [contains_iff, keys, List.mem_map]
  constructor
  · rintro ⟨⟨_, value⟩, member, rfl⟩
    exact ⟨value, (map.get_eq_some _ value).mpr member⟩
  · rintro ⟨value, found⟩
    exact ⟨(key, value), (map.get_eq_some key value).mp found, rfl⟩

theorem isEmpty_iff (map : SortedMap Key Value) :
    map.isEmpty = true ↔ ∀ key, map.get key = none := by
  constructor
  · intro empty key
    have none : map.entries = [] := List.isEmpty_iff.mp empty
    simp [get, none]
  · intro absent
    apply List.isEmpty_iff.mpr
    apply List.eq_nil_iff_forall_not_mem.mpr
    intro entry member
    have found := (map.get_eq_some entry.1 entry.2).mpr member
    simp [absent] at found

/-! A map to `Unit` is a set of its keys. -/

def insertAll (set : SortedMap Key Unit) (keys : List Key) : SortedMap Key Unit :=
  keys.foldl (fun set key => set.insert key ()) set

theorem contains_insert (set : SortedMap Key Unit) (key other : Key) :
    (set.insert key ()).contains other = (decide (other = key) || set.contains other) := by
  rw [contains, get_insert, contains]
  by_cases same : other = key <;> simp [same]

theorem contains_insertAll (set : SortedMap Key Unit) (keys : List Key) (key : Key) :
    (set.insertAll keys).contains key = true ↔ set.contains key = true ∨ key ∈ keys := by
  induction keys generalizing set with
  | nil => simp [insertAll]
  | cons first rest ih =>
      have tail := ih (set.insert first ())
      rw [insertAll] at tail ⊢
      rw [List.foldl_cons, tail, contains_insert, Bool.or_eq_true, decide_eq_true_eq,
        List.mem_cons]
      tauto

theorem contains_ext {left right : SortedMap Key Unit}
    (same : ∀ key, left.contains key = true ↔ right.contains key = true) : left = right := by
  apply get_ext
  intro key
  have both := same key
  rw [contains, contains] at both
  cases found : left.get key <;> cases other : right.get key <;> simp_all

theorem insertEntry_length (key : Key) (value : Value) (entries : List (Key × Value))
    (fresh : ∀ entry ∈ entries, entry.1 ≠ key) :
    (insertEntry key value entries).length = entries.length + 1 := by
  induction entries with
  | nil => rfl
  | cons head rest ih =>
      rw [insertEntry, if_neg (Ne.symm (fresh head List.mem_cons_self))]
      split_ifs
      · rfl
      · rw [List.length_cons, ih fun entry member => fresh entry (List.mem_cons_of_mem _ member),
          List.length_cons]

theorem size_insert (set : SortedMap Key Unit) (key : Key) :
    (set.insert key ()).size = set.size + (!set.contains key).toNat := by
  cases present : set.contains key with
  | true =>
      obtain ⟨value, found⟩ := (set.contains_iff key).mp present
      have same : set.insert key () = set := by
        apply get_ext
        intro other
        rw [get_insert]
        split_ifs with here
        · rw [here, found]
        · rfl
      rw [same]
      rfl
  | false =>
      apply insertEntry_length
      intro entry member here
      have found := (set.get_eq_some entry.1 entry.2).mpr member
      rw [contains, ← here, found] at present
      cases present

/-- Distinct keys add as many elements as there are new ones among them. -/
theorem size_insertAll (set : SortedMap Key Unit) (keys : List Key) (distinct : keys.Nodup) :
    (set.insertAll keys).size =
      set.size + (keys.filter fun key => !set.contains key).length := by
  induction keys generalizing set with
  | nil => simp [insertAll]
  | cons first rest ih =>
      obtain ⟨fresh, distinct⟩ := List.nodup_cons.mp distinct
      have tail := ih (set.insert first ()) distinct
      have others : (rest.filter fun key => !(set.insert first ()).contains key) =
          rest.filter fun key => !set.contains key := by
        apply List.filter_congr
        intro key member
        have different : key ≠ first := fun same => fresh (same ▸ member)
        rw [contains_insert, decide_eq_false different, Bool.false_or]
      rw [others, size_insert] at tail
      rw [insertAll] at tail ⊢
      rw [List.foldl_cons, tail, List.filter_cons]
      cases set.contains first with
      | true => simp
      | false =>
          rw [Bool.not_false, if_pos rfl, List.length_cons, Bool.toNat_true]
          omega

end SortedMap
