import Detersim.Core

/-!
Recorded client histories, sequential specifications, and what it means for
operations to have a legal sequential order. Nothing here refers to how the
checker searches.
-/

namespace Detersim

structure OpRecord (Input Output : Type) where
  id : UInt64
  process : UInt32
  invoke : SimTime
  complete : Option SimTime
  input : Input
  output : Option Output
  deriving DecidableEq

variable {State Input Output : Type}

namespace OpRecord

def completedAt (id : UInt64) (process : UInt32) (input : Input) (output : Output)
    (invoke complete : SimTime) : OpRecord Input Output :=
  { id, process, invoke, complete := some complete, input, output := some output }

def completed (id : UInt64) (process : UInt32) (input : Input) (output : Output)
    (callIndex returnIndex : UInt64) : OpRecord Input Output :=
  completedAt id process input output callIndex returnIndex

def inFlight (id : UInt64) (process : UInt32) (input : Input) (callIndex : UInt64) :
    OpRecord Input Output :=
  { id, process, invoke := callIndex, complete := none, input, output := none }

def isComplete (op : OpRecord Input Output) : Bool := op.output.isSome && op.complete.isSome

/-- Still running at the end of the history, as `inFlight` records it. -/
def isPending (op : OpRecord Input Output) : Bool := op.output.isNone && op.complete.isNone

/-- The real-time test of `predecessors`: `left` had returned when `right` was
invoked, or at that same instant. -/
def completesBefore (left right : OpRecord Input Output) : Bool :=
  match left.complete with
  | none => false
  | some complete => decide (complete ≤ right.invoke)

end OpRecord

abbrev History (Input Output : Type) := List (OpRecord Input Output)

/-- A sequential specification. -/
structure Model (State Input Output : Type) where
  init : State
  step : State → Input → Option (State × Output)

/-- `Model::step` succeeds along the operations, and wherever an output was
observed it is the one observed. -/
def Accepts (model : Model State Input Output) : State → History Input Output → Prop
  | _, [] => True
  | state, op :: rest => ∃ next expected, model.step state op.input = some (next, expected) ∧
      (∀ observed, op.output = some observed → observed = expected) ∧ Accepts model next rest

/-- A legal sequential order of exactly the given operations: none comes before
an operation that completed no later than it was invoked, and the model accepts
them. Operations are told apart by position, so equal records stay distinct. -/
structure Linearization (model : Model State Input Output) (ops order : History Input Output) :
    Prop where
  permutation : order.Perm ops
  respects : order.Pairwise fun earlier later => later.completesBefore earlier = false
  accepted : Accepts model model.init order

def Linearizes (model : Model State Input Output) (ops : History Input Output) : Prop :=
  ∃ order, Linearization model ops order

inductive RegisterInput (Value : Type) where
  | read
  | write (value : Value)
  deriving DecidableEq

inductive RegisterOutput (Value : Type) where
  | value (value : Value)
  | ok
  deriving DecidableEq

/-- `models::Register`. -/
def register {Value : Type} (initial : Value) :
    Model Value (RegisterInput Value) (RegisterOutput Value) where
  init := initial
  step state
    | .read => some (state, .value state)
    | .write value => some (value, .ok)

end Detersim
