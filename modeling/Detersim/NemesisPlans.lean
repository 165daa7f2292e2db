import Detersim.Nemesis
import Mathlib.Data.List.Dedup
import Mathlib.Data.List.MinMax
import Mathlib.Data.List.Sort
import Mathlib.Data.Prod.Lex

/-!
The plans that drive faults: a script, random partitions of the live nodes, and
the merge of several plans by time.
-/

namespace Detersim

/-- The nodes are sorted and listed once. -/
def WorldView.new (now : SimTime) (nodes : List NodeId) (crashed : Finset NodeId)
    (connectivity : ConnectivityMatrix) : WorldView :=
  ⟨now, (nodes.insertionSort (· ≤ ·)).dedup, crashed, connectivity⟩

def Draws.bind {First Second : Type} :
    Draws First → (First → Draws Second) → Draws Second
  | .done value, next => next value
  | .draw label rest, next => .draw label fun drawn => (rest drawn).bind next

structure ScriptedPlan where
  actions : List (SimTime × NemesisAction)
  cursor : Nat

namespace ScriptedPlan

def new (actions : List (SimTime × NemesisAction)) : ScriptedPlan := ⟨actions, 0⟩

def nextAction : NextAction ScriptedPlan := fun plan _ =>
  let next := plan.actions[plan.cursor]?
  .done (next, { plan with cursor := plan.cursor + next.isSome.toNat })

end ScriptedPlan

structure RandomPartition where
  nextAt : SimTime
  intervalNs : UInt64
  remaining : Nat

/-- The drawn value selects where the sorted live nodes are cut in two. -/
def RandomPartition.nextAction : NextAction RandomPartition := fun plan view =>
  let nodes := view.liveNodes
  if plan.remaining = 0 ∨ nodes.length < 2 then .done (none, plan)
  else
    .draw "nemesis.partition" fun drawn =>
      let pivot := 1 + drawn.toNat % (nodes.length - 1)
      .done
        (some (plan.nextAt, .partition [nodes.take pivot, nodes.drop pivot]),
          { plan with
            nextAt := plan.nextAt.saturatingAdd plan.intervalNs.toNat
            remaining := plan.remaining - 1 })

structure Composite (Plan : Type) where
  plans : List Plan
  pending : SortedMap Nat (SimTime × NemesisAction)

namespace Composite

variable {Plan : Type}

def new (plans : List Plan) : Composite Plan := ⟨plans, .empty⟩

/-- The loop over the children, from the one at `idx` on. -/
def refill (nextAction : NextAction Plan) (view : WorldView) :
    Nat → List Plan → SortedMap Nat (SimTime × NemesisAction) →
      Draws (List Plan × SortedMap Nat (SimTime × NemesisAction))
  | _, [], pending => .done ([], pending)
  | idx, plan :: rest, pending =>
      if pending.contains idx then
        (refill nextAction view (idx + 1) rest pending).bind fun (rest, pending) =>
          .done (plan :: rest, pending)
      else
        (nextAction plan view).bind fun (next, plan) =>
          let pending := match next with
            | some next => pending.insert idx next
            | none => pending
          (refill nextAction view (idx + 1) rest pending).bind fun (rest, pending) =>
            .done (plan :: rest, pending)

/-- What `min_by_key` compares. -/
def emitKey (entry : Nat × (SimTime × NemesisAction)) : Nat ×ₗ Nat :=
  toLex (entry.2.1.toNat, entry.1)

def nextAction (child : NextAction Plan) : NextAction (Composite Plan) := fun composite view =>
  (refill child view 0 composite.plans composite.pending).bind fun (plans, pending) =>
    match pending.entries.argmin emitKey with
    | none => .done (none, ⟨plans, pending⟩)
    | some selected => .done (pending.get selected.1, ⟨plans, pending.remove selected.1⟩)

end Composite

end Detersim
