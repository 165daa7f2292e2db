import Detersim.Datagrams
import Detersim.RecordedHistory

/-!
The primary-backup store and its single-key client, as `KvConfig::correct` runs
them: node 0 is the primary, nodes 1 and 2 are the followers. A constructor of a
local state is a point at which the code awaits; every payload is the text its
bytes spell.
-/

namespace Detersim.PrimaryBackup

open Datagrams

/-- `run_primary`; `serving` is its loop, `counting` the loop of `wait_for_acks`. -/
inductive Primary where
  | serving
  | sendingFirst (client : NodeId)
  | sendingSecond (client : NodeId)
  | counting (client : NodeId) (acks : Nat)
  | answering (client : NodeId)
  | ended
  deriving DecidableEq

def neededAcks : Nat := 2

def Primary.code : Primary → Await NodeId String SimTime Primary
  | .serving => .recv fun client msg => if msg = "put:7" then .sendingFirst client else .serving
  | .sendingFirst client => .send 1 "replicate:7" (.sendingSecond client)
  | .sendingSecond client => .send 2 "replicate:7" (.counting client 0)
  | .counting client acks => .recv fun _ msg =>
      if msg = "ack" then
        if acks + 1 < neededAcks then .counting client (acks + 1) else .answering client
      else .counting client acks
  | .answering client => .send client "ok" .ended
  | .ended => .ended

theorem Primary.reads_never (primary : Primary) (next : SimTime → Primary) :
    primary.code ≠ .now next := by
  cases primary <;> exact nofun

/-- Where `run_follower` awaits. -/
inductive FollowerAt where
  | serving
  | acking (sender : NodeId)
  | telling (client : NodeId)
  | ended
  deriving DecidableEq

structure Follower where
  value : Option Int32
  awaits : FollowerAt
  deriving DecidableEq

def Follower.code : Follower → Await NodeId String SimTime Follower
  | ⟨value, .serving⟩ => .recv fun sender msg =>
      if msg = "replicate:7" then ⟨some 7, .acking sender⟩
      else if msg = "replicate:9" then ⟨some 9, .acking sender⟩
      else if msg = "replicate-uncommitted:7" then ⟨some 7, .serving⟩
      else if msg = "get" then ⟨value, .telling sender⟩
      else if msg = "stop" then ⟨value, .ended⟩
      else ⟨value, .serving⟩
  | ⟨value, .acking sender⟩ => .send sender "ack" ⟨value, .serving⟩
  | ⟨value, .telling client⟩ => .send client (kvValueMsg value) ⟨value, .ended⟩
  | ⟨_, .ended⟩ => .ended

theorem Follower.reads_never (follower : Follower) (next : SimTime → Follower) :
    follower.code ≠ .now next := by
  obtain ⟨value, awaits⟩ := follower
  cases awaits <;> exact nofun

/-- Where `run_single_key_client` awaits. -/
inductive ClientAt where
  | start
  | sendingPut (invoke : SimTime)
  | awaitingAck (invoke : SimTime)
  | putDone (invoke : SimTime)
  | beforeGet
  | sendingGet (invoke : SimTime)
  | awaitingValue (invoke : SimTime)
  | getDone (value : Option Int32) (invoke : SimTime)
  | stoppingFirst
  | stoppingSecond
  | ended
  deriving DecidableEq

structure Client where
  ops : List RecordedOp
  awaits : ClientAt
  deriving DecidableEq

def Client.code (node : NodeId) : Client → Await NodeId String SimTime Client
  | ⟨ops, .start⟩ => .now fun invoke => ⟨ops, .sendingPut invoke⟩
  | ⟨ops, .sendingPut invoke⟩ => .send 0 "put:7" ⟨ops, .awaitingAck invoke⟩
  | ⟨ops, .awaitingAck invoke⟩ => .recv fun _ ack =>
      if ack = "ok" then ⟨ops, .putDone invoke⟩ else ⟨ops, .beforeGet⟩
  | ⟨ops, .putDone invoke⟩ => .now fun complete =>
      ⟨ops ++ [.kvPut 1 (.ofNat node) 7 invoke complete], .beforeGet⟩
  | ⟨ops, .beforeGet⟩ => .now fun invoke => ⟨ops, .sendingGet invoke⟩
  | ⟨ops, .sendingGet invoke⟩ => .send 1 "get" ⟨ops, .awaitingValue invoke⟩
  | ⟨ops, .awaitingValue invoke⟩ => .recv fun _ msg => ⟨ops, .getDone (parseOptionalI32 msg) invoke⟩
  | ⟨ops, .getDone value invoke⟩ => .now fun complete =>
      ⟨ops ++ [.kvGet 2 (.ofNat node) value invoke complete], .stoppingFirst⟩
  | ⟨ops, .stoppingFirst⟩ => .send 1 "stop" ⟨ops, .stoppingSecond⟩
  | ⟨ops, .stoppingSecond⟩ => .send 2 "stop" ⟨ops, .ended⟩
  | ⟨_, .ended⟩ => .ended

/-- The two followers. -/
inductive Replica where
  | first | second
  deriving DecidableEq

def Replica.node : Replica → NodeId
  | .first => 1
  | .second => 2

inductive Party where
  | primary
  | follower (replica : Replica)
  | client
  deriving DecidableEq

abbrev Local : Party → Type
  | .primary => Primary
  | .follower _ => Follower
  | .client => Client

/-- Nodes 0 to 2, with a client at the given node. -/
def deployment (client : NodeId) : Deployment Party NodeId String SimTime Local where
  address
    | .primary => 0
    | .follower replica => replica.node
    | .client => client
  code
    | .primary => Primary.code
    | .follower _ => Follower.code
    | .client => Client.code client

theorem client_apart {client : NodeId} (distinct : 2 < client) :
    client ≠ 0 ∧ client ≠ 1 ∧ client ≠ 2 := by
  refine ⟨?_, ?_, ?_⟩ <;> rintro rfl <;> exact absurd distinct (by decide)

theorem deployment_apart {client : NodeId} (distinct : 2 < client) :
    Function.Injective (deployment client).address := by
  obtain ⟨primary, first, second⟩ := client_apart distinct
  rintro (_ | ⟨_ | _⟩ | _) (_ | ⟨_ | _⟩ | _) same <;>
    simp_all [deployment, Replica.node, eq_comm]

abbrev KvSystem := System NodeId String SimTime Local

abbrev KvEvent := Event Party NodeId String SimTime

def KvSystem.start : KvSystem where
  locals
    | .primary => .serving
    | .follower _ => ⟨none, .serving⟩
    | .client => ⟨[], .start⟩
  sent := []
  delivered := []
  now := 0

end Detersim.PrimaryBackup
