import Mathlib.Data.List.Sort

/-!
The first few of a sorted list, kept while the items arrive. Sorting and cutting
off after every arrival keeps what one sort of all of them would have kept: an
item that was cut off has enough items before it for good. The sort is stable,
so nothing is asked of items that may stand either way round.
-/

namespace BoundedSort

variable {Item : Type} (before : Item → Item → Prop) [DecidableRel before]

/-- The item goes behind all it may stand behind. -/
def placeLast (item : Item) : List Item → List Item
  | [] => [item]
  | head :: rest =>
      if before head item then head :: placeLast item rest else item :: head :: rest

/-- One arrival: sort, and cut off what is beyond the bound. -/
def arrive (bound : Nat) (kept : List Item) (item : Item) : List Item :=
  ((kept ++ [item]).insertionSort before).take bound

theorem placeLast_orderedInsert [IsTrans Item before] [Std.Total before] (first last : Item)
    (items : List Item) :
    placeLast before last (items.orderedInsert before first) =
      (placeLast before last items).orderedInsert before first := by
  induction items with
  | nil =>
      simp only [List.orderedInsert_nil, placeLast, List.orderedInsert_cons]
  | cons head rest ih =>
      by_cases leads : before first head
      · rw [List.orderedInsert_cons_of_le before rest leads]
        by_cases ends : before head last
        · have through : before first last := IsTrans.trans _ _ _ leads ends
          simp only [placeLast, if_pos ends, if_pos through, List.orderedInsert_cons, if_pos leads]
        · simp only [placeLast, if_neg ends, List.orderedInsert_cons, if_pos leads]
      · have follows : before head first := (Std.Total.total head first).resolve_right leads
        rw [List.orderedInsert_of_not_le before rest leads]
        by_cases ends : before head last
        · simp only [placeLast, if_pos ends, List.orderedInsert_cons, if_neg leads, ih]
        · have apart : ¬before first last := fun meets => ends (IsTrans.trans _ _ _ follows meets)
          simp only [placeLast, if_neg ends, List.orderedInsert_cons, if_neg leads, if_neg apart]

theorem insertionSort_concat [IsTrans Item before] [Std.Total before] (items : List Item)
    (item : Item) :
    (items ++ [item]).insertionSort before = placeLast before item (items.insertionSort before) := by
  induction items with
  | nil => rfl
  | cons head rest ih =>
      rw [List.cons_append, List.insertionSort_cons, ih, List.insertionSort_cons,
        placeLast_orderedInsert]

/-- What is beyond the bound stays there. -/
theorem take_placeLast (item : Item) (bound : Nat) (items : List Item) :
    (placeLast before item (items.take bound)).take bound =
      (placeLast before item items).take bound := by
  induction items generalizing bound with
  | nil => rw [List.take_nil]
  | cons head rest ih =>
      cases bound with
      | zero => rfl
      | succ bound =>
          rw [List.take_succ_cons, placeLast, placeLast]
          split_ifs
          · rw [List.take_succ_cons, List.take_succ_cons, ih]
          · have front : (head :: rest.take bound).take bound = (head :: rest).take bound := by
              rw [← List.take_succ_cons, List.take_take, Nat.min_eq_left (Nat.le_succ bound)]
            rw [List.take_succ_cons, List.take_succ_cons, front]

theorem arrive_sorted [IsTrans Item before] [Std.Total before] (bound : Nat) (seen : List Item)
    (item : Item) :
    arrive before bound ((seen.insertionSort before).take bound) item =
      ((seen ++ [item]).insertionSort before).take bound := by
  have sorted : ((seen.insertionSort before).take bound).Pairwise before :=
    (List.pairwise_insertionSort before seen).sublist (List.take_sublist _ _)
  rw [arrive, insertionSort_concat, sorted.insertionSort_eq, take_placeLast, insertionSort_concat]

theorem foldl_arrive [IsTrans Item before] [Std.Total before] (bound : Nat)
    (seen arriving : List Item) :
    arriving.foldl (arrive before bound) ((seen.insertionSort before).take bound) =
      ((seen ++ arriving).insertionSort before).take bound := by
  induction arriving generalizing seen with
  | nil => rw [List.foldl_nil, List.append_nil]
  | cons item rest ih => rw [List.foldl_cons, arrive_sorted, ih, ← List.append_cons]

end BoundedSort
