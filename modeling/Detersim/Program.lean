import Detersim.Core

/-!
Node programs. A program acts on the simulator only through a `SimEnv`, so one
poll of a task is a tree: each node is a call, and the program goes on with the
reply. The futures a task holds (sleeps, receives, join handles) are named by
identity; everything else the task keeps from poll to poll is its state.
-/

namespace Detersim

abbrev TaskId := Nat
abbrev TimerId := Nat
abbrev SlotId := Nat
abbrev FutureId := Nat

/-- Calls through the `SimEnv` of node `env`, and what Rust itself does with the
futures these calls return. -/
inductive Op (State : Type) where
  | record (env : NodeId) (event : String)
  | now (env : NodeId)
  | rng (env : NodeId)
  | send (env receiver : NodeId) (msg : Message)
  | writeAt (env : NodeId) (offset : UInt64) (data : List UInt8)
  | readAt (env : NodeId) (offset : UInt64) (len : Nat)
  | flush (env : NodeId)
  | len (env : NodeId)
  | sleepUntil (env : NodeId) (deadline : SimTime)
  | recv (env : NodeId)
  /-- The child starts in `child` and owns the futures moved into it. -/
  | spawn (env : NodeId) (child : State) (moved : List FutureId)
  | poll (future : FutureId)
  | drop (future : FutureId)

/-- A panic is a reply, so that a caller which catches it is covered too. -/
inductive Reply (Value : Type) where
  | unit
  | time (time : SimTime)
  | rng (rng : SplitMix64)
  | bytes (bytes : List UInt8)
  | len (len : Nat)
  | future (future : FutureId)
  | pending
  | ready
  | message (sender : NodeId) (msg : Message)
  | joined (value : Value)
  | panicked

inductive Code (State Value Result : Type) where
  | done (result : Result)
  | call (op : Op State) (next : Reply Value → Code State Value Result)

/-- How one poll of a task ends. -/
inductive TaskPoll (State Value : Type) where
  | pending (state : State)
  | ready (value : Value)

/-- What a poll of a task does, as a function of the task's state. -/
abbrev Program (State Value : Type) := State → Code State Value (TaskPoll State Value)

/-- `Fn(SimEnv) -> Fut`: given the node, builds the state of its main task. -/
abbrev NodeFactory (State Value : Type) := NodeId → Code State Value State

end Detersim
