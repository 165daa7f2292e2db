import Detersim.Core
import Detersim.SortedMap
import Mathlib.Data.Finset.Prod
import Mathlib.Data.Finset.Sort

/-!
Fault actions, directed connectivity, and the interface through which a plan
asks the simulator for entropy.
-/

namespace Detersim

structure ConnectivityMatrix where
  nodes : Finset NodeId
  blocked : Finset (NodeId × NodeId)
  deriving DecidableEq

namespace ConnectivityMatrix

def new : ConnectivityMatrix := ⟨∅, ∅⟩

def addNode (matrix : ConnectivityMatrix) (node : NodeId) : ConnectivityMatrix :=
  { matrix with nodes := insert node matrix.nodes }

def isConnected (matrix : ConnectivityMatrix) (sender receiver : NodeId) : Bool :=
  decide (sender ∈ matrix.nodes) && decide (receiver ∈ matrix.nodes) &&
    decide ((sender, receiver) ∉ matrix.blocked)

def block (matrix : ConnectivityMatrix) (sender receiver : NodeId) : ConnectivityMatrix :=
  { matrix with blocked := insert (sender, receiver) matrix.blocked }

def allow (matrix : ConnectivityMatrix) (sender receiver : NodeId) : ConnectivityMatrix :=
  { matrix with blocked := matrix.blocked.erase (sender, receiver) }

def setLink (matrix : ConnectivityMatrix) (sender receiver : NodeId) (up : Bool) :
    ConnectivityMatrix :=
  let matrix := (matrix.addNode sender).addNode receiver
  if up then matrix.allow sender receiver else matrix.block sender receiver

def healAll (matrix : ConnectivityMatrix) : ConnectivityMatrix := { matrix with blocked := ∅ }

/-- The map `group_of`: a node listed more than once belongs to the last group. -/
def groupOf (groups : List (List NodeId)) : SortedMap NodeId Nat :=
  groups.zipIdx.foldl
    (fun map group => group.1.foldl (fun map node => map.insert node group.2) map) .empty

def partition (matrix : ConnectivityMatrix) (groups : List (List NodeId)) : ConnectivityMatrix :=
  let nodes := matrix.nodes ∪ groups.flatten.toFinset
  { nodes
    blocked := (nodes ×ˢ nodes).filter fun link =>
      (groupOf groups).get link.1 ≠ (groupOf groups).get link.2 }

end ConnectivityMatrix

structure WorldView where
  now : SimTime
  nodes : List NodeId
  crashed : Finset NodeId
  connectivity : ConnectivityMatrix

def WorldView.liveNodes (view : WorldView) : List NodeId :=
  view.nodes.filter fun node => decide (node ∉ view.crashed)

inductive NemesisAction where
  | partition (groups : List (List NodeId))
  | asymmetricPartition (sender receiver : NodeId)
  | setLink (sender receiver : NodeId) (up : Bool)
  | healAll
  | crash (node : NodeId)
  | restart (node : NodeId)
  | clockSkew (node : NodeId) (offsetNs : Int)
  | bitRot (node : NodeId)
  | tornWrite (node : NodeId)
  | lostOnCrash (node : NodeId)
  | preFsyncReorder (node : NodeId)
  deriving DecidableEq

/-- A computation that asks for control-plane values by label, as a plan does
through `NemesisDraw`. -/
inductive Draws (Value : Type) where
  | done (value : Value)
  | draw (label : String) (next : UInt64 → Draws Value)

/-- `NemesisPlan::next_action`; `Plan` is the plan's own state. -/
abbrev NextAction (Plan : Type) :=
  Plan → WorldView → Draws (Option (SimTime × NemesisAction) × Plan)

end Detersim
