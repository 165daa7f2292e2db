import Mathlib.Data.List.Sort
import Mathlib.Data.Multiset.Filter
import Mathlib.Order.Basic

/-!
A priority queue whose entries are kept in nondecreasing key order, so popping
takes a least entry. `Runs` is the event-loop discipline over such a queue: each
turn handles one pending item and leaves only items with larger keys pending.
-/

structure KeyedQueue (Item Key : Type) [LinearOrder Key] (key : Item → Key) where
  entries : List Item
  ordered : entries.Pairwise fun left right => key left ≤ key right

namespace KeyedQueue

variable {Item Key : Type} [LinearOrder Key] {key : Item → Key}

instance : Membership Item (KeyedQueue Item Key key) := ⟨fun queue item => item ∈ queue.entries⟩

theorem mem_def (queue : KeyedQueue Item Key key) (item : Item) :
    item ∈ queue ↔ item ∈ queue.entries := Iff.rfl

def empty : KeyedQueue Item Key key := ⟨[], List.Pairwise.nil⟩

instance : IsTrans Item fun left right => key left ≤ key right :=
  ⟨fun _ _ _ => le_trans⟩

instance : Std.Total fun left right : Item => key left ≤ key right :=
  ⟨fun _ _ => le_total _ _⟩

def push (queue : KeyedQueue Item Key key) (item : Item) : KeyedQueue Item Key key :=
  ⟨queue.entries.orderedInsert (fun left right => key left ≤ key right) item,
    queue.ordered.orderedInsert item queue.entries⟩

def retain (queue : KeyedQueue Item Key key) (keep : Item → Bool) : KeyedQueue Item Key key :=
  ⟨queue.entries.filter keep, queue.ordered.filter keep⟩

def pop (queue : KeyedQueue Item Key key) : Option (Item × KeyedQueue Item Key key) :=
  match queue with
  | ⟨[], _⟩ => none
  | ⟨item :: rest, ordered⟩ => some (item, ⟨rest, (List.pairwise_cons.mp ordered).2⟩)

def isEmpty (queue : KeyedQueue Item Key key) : Bool := queue.entries.isEmpty

theorem ext {left right : KeyedQueue Item Key key} (same : left.entries = right.entries) :
    left = right := by
  cases left
  cases right
  simpa using same

@[simp] theorem not_mem_empty (item : Item) : item ∉ (empty : KeyedQueue Item Key key) :=
  List.not_mem_nil

@[simp] theorem mem_push (queue : KeyedQueue Item Key key) (pushed item : Item) :
    item ∈ queue.push pushed ↔ item = pushed ∨ item ∈ queue :=
  List.mem_orderedInsert (fun left right => key left ≤ key right)

@[simp] theorem mem_retain (queue : KeyedQueue Item Key key) (keep : Item → Bool) (item : Item) :
    item ∈ queue.retain keep ↔ item ∈ queue ∧ keep item = true :=
  List.mem_filter

theorem push_perm (queue : KeyedQueue Item Key key) (item : Item) :
    (queue.push item).entries.Perm (item :: queue.entries) :=
  List.perm_orderedInsert (fun left right => key left ≤ key right) item queue.entries

theorem pop_eq_none (queue : KeyedQueue Item Key key) :
    queue.pop = none ↔ queue.entries = [] := by
  rcases queue with ⟨_ | ⟨item, rest⟩, ordered⟩ <;> simp [pop]

theorem pop_eq_some {queue rest : KeyedQueue Item Key key} {item : Item} :
    queue.pop = some (item, rest) ↔ queue.entries = item :: rest.entries := by
  rcases queue with ⟨_ | ⟨head, tail⟩, ordered⟩
  · simp [pop]
  · constructor
    · intro popped
      simp only [pop, Option.some.injEq, Prod.mk.injEq] at popped
      simp [← popped.1, ← popped.2]
    · intro entries
      simp only [List.cons.injEq] at entries
      simp only [pop, Option.some.injEq, Prod.mk.injEq]
      exact ⟨entries.1, ext entries.2⟩

theorem mem_of_pop {queue rest : KeyedQueue Item Key key} {item : Item}
    (popped : queue.pop = some (item, rest)) (other : Item) :
    other ∈ queue ↔ other = item ∨ other ∈ rest := by
  rw [mem_def, pop_eq_some.mp popped, List.mem_cons, mem_def]

theorem pop_least {queue rest : KeyedQueue Item Key key} {item : Item}
    (popped : queue.pop = some (item, rest)) (other : Item) (member : other ∈ rest) :
    key item ≤ key other := by
  have ordered := queue.ordered
  rw [pop_eq_some.mp popped] at ordered
  exact (List.pairwise_cons.mp ordered).1 other member

theorem length_of_pop {queue rest : KeyedQueue Item Key key} {item : Item}
    (popped : queue.pop = some (item, rest)) :
    queue.entries.length = rest.entries.length + 1 := by
  rw [pop_eq_some.mp popped, List.length_cons]

/-- Filtering commutes with insertion: a dropped item leaves no trace, a kept
one lands where it would have landed. -/
theorem retain_push (queue : KeyedQueue Item Key key) (keep : Item → Bool) (item : Item) :
    (queue.push item).retain keep =
      if keep item = true then (queue.retain keep).push item else queue.retain keep := by
  apply ext
  have filtered : ∀ entries : List Item, (entries.Pairwise fun a b => key a ≤ key b) →
      (entries.orderedInsert (fun a b => key a ≤ key b) item).filter keep =
        if keep item = true then
          (entries.filter keep).orderedInsert (fun a b => key a ≤ key b) item
        else entries.filter keep := by
    intro entries
    induction entries with
    | nil => intro _; cases kept : keep item <;> simp [kept]
    | cons head rest ih =>
        intro ordered
        obtain ⟨above, tail⟩ := List.pairwise_cons.mp ordered
        rw [List.orderedInsert_cons]
        by_cases before : key item ≤ key head
        · rw [if_pos before]
          have least : ∀ other ∈ (head :: rest).filter keep, key item ≤ key other := by
            intro other member
            rcases List.mem_cons.mp (List.mem_filter.mp member).1 with first | later
            · exact first ▸ before
            · exact before.trans (above other later)
          cases kept : keep item with
          | false => simp [kept]
          | true =>
              rw [List.filter_cons_of_pos kept, if_pos rfl]
              cases shape : (head :: rest).filter keep with
              | nil => rfl
              | cons first later =>
                  rw [shape] at least
                  rw [List.orderedInsert_cons, if_pos (least first List.mem_cons_self)]
        · rw [if_neg before, List.filter_cons, ih tail]
          cases kept : keep item <;> cases keptHead : keep head <;>
            simp [keptHead, before]
  have queueFiltered := filtered queue.entries queue.ordered
  cases kept : keep item <;> simpa [push, retain, kept] using queueFiltered

theorem retain_retain (queue : KeyedQueue Item Key key) (first second : Item → Bool) :
    (queue.retain first).retain second = (queue.retain second).retain first := by
  apply ext
  simp [retain, List.filter_filter, Bool.and_comm]

theorem retain_eq_self (queue : KeyedQueue Item Key key) (keep : Item → Bool)
    (all : ∀ item ∈ queue, keep item = true) : queue.retain keep = queue :=
  ext (List.filter_eq_self.mpr all)

theorem pop_retain_of_kept {queue rest : KeyedQueue Item Key key} {item : Item}
    (popped : queue.pop = some (item, rest)) (keep : Item → Bool) (kept : keep item = true) :
    (queue.retain keep).pop = some (item, rest.retain keep) := by
  apply pop_eq_some.mpr
  simp [retain, pop_eq_some.mp popped, kept]

theorem retain_of_pop_dropped {queue rest : KeyedQueue Item Key key} {item : Item}
    (popped : queue.pop = some (item, rest)) (keep : Item → Bool) (dropped : keep item = false) :
    queue.retain keep = rest.retain keep := by
  apply ext
  simp [retain, pop_eq_some.mp popped, dropped]

/-! The entries with a property, as a multiset: for accounts of what was pushed. -/

def select (queue : KeyedQueue Item Key key) (keep : Item → Bool) : Multiset Item :=
  queue.entries.filter keep

theorem select_push (queue : KeyedQueue Item Key key) (keep : Item → Bool) (item : Item) :
    (queue.push item).select keep =
      if keep item = true then item ::ₘ queue.select keep else queue.select keep := by
  have permuted : (queue.push item).select keep = ↑((item :: queue.entries).filter keep) :=
    Multiset.coe_eq_coe.mpr ((push_perm queue item).filter keep)
  rw [permuted, List.filter_cons]
  split_ifs <;> rfl

theorem select_of_pop {queue rest : KeyedQueue Item Key key} {item : Item}
    (popped : queue.pop = some (item, rest)) (keep : Item → Bool) :
    queue.select keep =
      if keep item = true then item ::ₘ rest.select keep else rest.select keep := by
  rw [select, pop_eq_some.mp popped, List.filter_cons]
  split_ifs <;> rfl

/-- What a filtering keeps, and what it throws away. -/
theorem select_retain (queue : KeyedQueue Item Key key) (keep live : Item → Bool) :
    (queue.retain live).select keep +
        ↑(queue.entries.filter fun item => keep item && !live item) = queue.select keep := by
  have split := List.filter_append_perm live (queue.entries.filter keep)
  simp only [List.filter_filter] at split
  simp only [select, retain, Multiset.coe_add, Multiset.coe_eq_coe, List.filter_filter]
  simpa only [Bool.and_comm] using split

theorem select_retain_le (queue : KeyedQueue Item Key key) (keep live : Item → Bool) :
    (queue.retain live).select keep ≤ queue.select keep := by
  rw [← select_retain queue keep live]
  exact Multiset.le_add_right _ _

/-! A run of an event loop over any state: `next` handles one item. -/
section EventLoop

variable {State : Type} {next : State → Item → State → Prop}

inductive Runs (next : State → Item → State → Prop) : State → List Item → State → Prop where
  | refl (state : State) : Runs next state [] state
  | turn {before middle after : State} {item : Item} {items : List Item} :
      next before item middle → Runs next middle items after →
      Runs next before (item :: items) after

theorem runs_mono {larger : State → Item → State → Prop}
    (includes : ∀ before item after, next before item after → larger before item after)
    {before after : State} {items : List Item} (run : Runs next before items after) :
    Runs larger before items after := by
  induction run with
  | refl => exact Runs.refl _
  | turn step _ ih => exact Runs.turn (includes _ _ _ step) ih

theorem runs_snoc {larger : State → Item → State → Prop}
    (includes : ∀ before item after, next before item after → larger before item after)
    {before middle after : State} {items : List Item} {item : Item}
    (run : Runs next before items middle) (step : larger middle item after) :
    Runs larger before (items ++ [item]) after := by
  induction run with
  | refl => exact Runs.turn step (Runs.refl after)
  | turn first _ ih => exact Runs.turn (includes _ _ _ first) (ih step)

/-- What one turn must guarantee is stated per turn; what it gives is a fact
about the whole run. From states with the invariant `good`, no turn may leave or
add an item at or below its own key. -/
theorem runs_increasing (good : State → Prop) (pending : State → Item → Prop)
    (kept : ∀ before item after, good before → next before item after → good after)
    (taken : ∀ before item after, good before → next before item after → pending before item)
    (above : ∀ before item after, good before → next before item after →
      ∀ other, pending after other → key item < key other)
    (before after : State) (items : List Item) (start : good before)
    (run : Runs next before items after) :
    items.Pairwise fun left right => key left < key right := by
  have floor : ∀ (bound : Key) (start finish : State) (handled : List Item), good start →
      Runs next start handled finish → (∀ item, pending start item → bound < key item) →
      ∀ item ∈ handled, bound < key item := by
    intro bound start finish handled fine steps
    induction steps with
    | refl => simp
    | turn step _ ih =>
        intro higher item member
        have first := higher _ (taken _ _ _ fine step)
        rcases List.mem_cons.mp member with same | later
        · exact same ▸ first
        · refine ih (kept _ _ _ fine step) (fun other waiting => ?_) item later
          exact first.trans (above _ _ _ fine step other waiting)
  induction run with
  | refl => exact List.Pairwise.nil
  | turn step rest ih =>
      have fine := kept _ _ _ start step
      exact List.pairwise_cons.mpr ⟨floor _ _ _ _ fine rest (above _ _ _ start step), ih fine⟩

theorem runs_keep (good : State → Prop)
    (kept : ∀ before item after, good before → next before item after → good after)
    {before after : State} {items : List Item} (start : good before)
    (run : Runs next before items after) : good after := by
  induction run with
  | refl => exact start
  | turn step _ ih => exact ih (kept _ _ _ start step)

end EventLoop

end KeyedQueue
