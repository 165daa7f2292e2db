import Mathlib.Data.List.Basic
import Mathlib.Order.Basic

/-!
One pass of trial removal over a list: an element goes when the elements kept
before it, with all that come after it, still fail. What the pass leaves fails,
and every element left was needed when it was tried.
-/

namespace Detersim.GreedyCore

variable {Item : Type}

/-- The elements left, given those `kept` so far and those still to be tried. -/
def greedy (fails : List Item → Bool) (kept : List Item) : List Item → List Item
  | [] => kept
  | item :: rest =>
      if fails (kept ++ rest) then greedy fails kept rest
      else greedy fails (kept ++ [item]) rest

/-- Dropping any single element leaves a list that does not fail. -/
def OneMinimal (fails : List Item → Bool) (items : List Item) : Prop :=
  ∀ before item after, items = before ++ item :: after → fails (before ++ after) = false

variable (fails : List Item → Bool)

theorem greedy_sublist (kept rest : List Item) :
    (greedy fails kept rest).Sublist (kept ++ rest) := by
  induction rest generalizing kept with
  | nil => simp [greedy]
  | cons item rest ih =>
      rw [greedy]
      by_cases drops : fails (kept ++ rest) = true
      · rw [if_pos drops]
        exact (ih kept).trans (List.Sublist.append_left (List.sublist_cons_self item rest) kept)
      · rw [if_neg drops]
        simpa using ih (kept ++ [item])

theorem greedy_prefix (kept rest : List Item) : kept <+: greedy fails kept rest := by
  induction rest generalizing kept with
  | nil => exact List.prefix_refl kept
  | cons item rest ih =>
      rw [greedy]
      by_cases drops : fails (kept ++ rest) = true
      · rw [if_pos drops]
        exact ih kept
      · rw [if_neg drops]
        exact (List.prefix_append kept [item]).trans (ih (kept ++ [item]))

/-- A removal is made only when what stays fails. -/
theorem greedy_fails (kept rest : List Item) (failing : fails (kept ++ rest) = true) :
    fails (greedy fails kept rest) = true := by
  induction rest generalizing kept with
  | nil => simpa [greedy] using failing
  | cons item rest ih =>
      rw [greedy]
      by_cases drops : fails (kept ++ rest) = true
      · rw [if_pos drops]
        exact ih kept drops
      · rw [if_neg drops]
        exact ih (kept ++ [item]) (by simpa using failing)

/-- An element tried and left was needed beside the elements left before it and
all the elements after it, the ones dropped later too. -/
theorem greedy_needed (kept rest before after : List Item) (item : Item)
    (split : greedy fails kept rest = before ++ item :: after)
    (tried : kept.length ≤ before.length) :
    ∃ skipped later, rest = skipped ++ item :: later ∧ after.Sublist later ∧
      before.Sublist (kept ++ skipped) ∧ fails (before ++ later) = false := by
  induction rest generalizing kept with
  | nil =>
      rw [greedy] at split
      subst split
      rw [List.length_append, List.length_cons] at tried
      omega
  | cons next rest ih =>
      rw [greedy] at split
      by_cases drops : fails (kept ++ rest) = true
      · rw [if_pos drops] at split
        obtain ⟨skipped, later, rfl, inside, earlier, needed⟩ := ih kept split tried
        refine ⟨next :: skipped, later, rfl, inside, earlier.trans ?_, needed⟩
        exact List.Sublist.append_left (List.sublist_cons_self next skipped) kept
      rw [if_neg drops] at split
      by_cases here : before.length = kept.length
      · -- The element is the one just tried: all before it was kept earlier.
        have start : kept ++ [next] <+: before ++ item :: after :=
          split ▸ greedy_prefix fails (kept ++ [next]) rest
        have whole := greedy_sublist fails (kept ++ [next]) rest
        obtain ⟨tail, same⟩ := start
        have pieces : kept = before ∧ next :: tail = item :: after :=
          List.append_inj (by simpa using same) here.symm
        obtain ⟨rfl, heads⟩ := pieces
        cases heads
        rw [split] at whole
        have inside : after.Sublist rest := by simpa using whole
        exact ⟨[], rest, rfl, inside, by simp, by simpa using drops⟩
      · have longer : (kept ++ [next]).length ≤ before.length := by
          rw [List.length_append, List.length_singleton]
          omega
        obtain ⟨skipped, later, rfl, inside, earlier, needed⟩ := ih (kept ++ [next]) split longer
        exact ⟨next :: skipped, later, rfl, inside, by simpa using earlier, needed⟩

/-- When adding elements back cannot stop a failure, one pass is enough. -/
theorem greedy_oneMinimal (items : List Item)
    (monotone : ∀ small large, small.Sublist large → large.Sublist items → fails small = true →
      fails large = true) :
    OneMinimal fails (greedy fails [] items) := by
  intro before item after split
  obtain ⟨skipped, later, rfl, inside, earlier, needed⟩ :=
    greedy_needed fails [] items before after item split (Nat.zero_le _)
  by_contra failing
  have larger := monotone (before ++ after) (before ++ later)
    (List.Sublist.append_left inside before)
    (List.Sublist.append earlier (List.sublist_cons_self item later)) (by simpa using failing)
  rw [needed] at larger
  cases larger

/-- A pass over names is the pass over what they stand for. -/
theorem greedy_filterMap {Name : Type} (value : Name → Option Item) (kept rest : List Name)
    (named : ∀ name ∈ rest, (value name).isSome = true) :
    (greedy (fun names => fails (names.filterMap value)) kept rest).filterMap value =
      greedy fails (kept.filterMap value) (rest.filterMap value) := by
  induction rest generalizing kept with
  | nil => rfl
  | cons name rest ih =>
      obtain ⟨item, stands⟩ := Option.isSome_iff_exists.mp (named name List.mem_cons_self)
      have tail := fun kept => ih kept fun other member => named other (List.mem_cons_of_mem _ member)
      rw [greedy, List.filterMap_cons_some stands, greedy, List.filterMap_append]
      by_cases drops : fails (kept.filterMap value ++ rest.filterMap value) = true
      · rw [if_pos drops, if_pos drops, tail]
      · rw [if_neg drops, if_neg drops, tail, List.filterMap_append,
          List.filterMap_cons_some stands, List.filterMap_nil]

end Detersim.GreedyCore
