import Detersim.History
import Detersim.SortedMap

/-!
The sequential specifications of the key/value stores and of the log.
-/

namespace Detersim

inductive SingleKeyInput (Value : Type) where
  | get
  | put (value : Value)
  deriving DecidableEq

inductive SingleKeyOutput (Value : Type) where
  | value (value : Option Value)
  | ok
  deriving DecidableEq

/-- `models::SingleKeyKv`. -/
def singleKeyKv {Value : Type} (initial : Option Value) :
    Model (Option Value) (SingleKeyInput Value) (SingleKeyOutput Value) where
  init := initial
  step state
    | .get => some (state, .value state)
    | .put value => some (some value, .ok)

inductive KvInput (Key Value : Type) where
  | get (key : Key)
  | put (key : Key) (value : Value)
  deriving DecidableEq

inductive KvOutput (Value : Type) where
  | value (value : Option Value)
  | ok
  deriving DecidableEq

/-- `models::MultiKeyKv`. -/
def multiKeyKv {Key Value : Type} [LinearOrder Key] (initial : SortedMap Key Value) :
    Model (SortedMap Key Value) (KvInput Key Value) (KvOutput Value) where
  init := initial
  step state
    | .get key => some (state, .value (state.get key))
    | .put key value => some (state.insert key value, .ok)

inductive AppendLogInput (Value : Type) where
  | append (value : Value)
  | readAll
  deriving DecidableEq

/-- A `usize` index is a `u64`. -/
inductive AppendLogOutput (Value : Type) where
  | index (index : UInt64)
  | entries (entries : List Value)
  deriving DecidableEq

/-- `models::AppendOnlyLog`. -/
def appendOnlyLog {Value : Type} (initial : List Value) :
    Model (List Value) (AppendLogInput Value) (AppendLogOutput Value) where
  init := initial
  step state
    | .append value => some (state ++ [value], .index (UInt64.ofNat state.length))
    | .readAll => some (state, .entries state)

end Detersim
