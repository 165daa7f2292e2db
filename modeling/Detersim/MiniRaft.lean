import Detersim.PrimaryBackup

/-!
The Mini-Raft reference and its key/value client, as `MiniRaftConfig::correct`
runs them: node 0 leads, nodes 1 and 2 follow.
-/

namespace Detersim.MiniRaft

open Datagrams
open PrimaryBackup (Replica)

def neededAcks : Nat := 2

/-- Where `run_correct_leader` awaits. -/
inductive LeaderAt where
  | serving
  | appendingFirst (client : NodeId)
  | appendingSecond (client : NodeId)
  | counting (client : NodeId) (acks : Nat)
  | answering (client : NodeId)
  | telling (client : NodeId) (response : String)
  | stoppingFirst
  | stoppingSecond
  | ended
  deriving DecidableEq

structure Leader where
  value : Option String
  awaits : LeaderAt
  deriving DecidableEq

/-- The answer of a node to a read. -/
def readResponse (value : Option String) : String :=
  if value = some "x" then "value:x" else "value:none"

def Leader.code : Leader → Await NodeId String SimTime Leader
  | ⟨value, .serving⟩ => .recv fun client msg =>
      if msg = "client-write:x" then ⟨value, .appendingFirst client⟩
      else if msg = "client-read" then ⟨value, .telling client (readResponse value)⟩
      else ⟨value, .serving⟩
  | ⟨value, .appendingFirst client⟩ => .send 1 "append:x" ⟨value, .appendingSecond client⟩
  | ⟨value, .appendingSecond client⟩ => .send 2 "append:x" ⟨value, .counting client 0⟩
  | ⟨value, .counting client acks⟩ => .recv fun _ msg =>
      if msg = "ack" then
        if acks + 1 < neededAcks then ⟨value, .counting client (acks + 1)⟩
        else ⟨some "x", .answering client⟩
      else ⟨value, .counting client acks⟩
  | ⟨value, .answering client⟩ => .send client "ok" ⟨value, .serving⟩
  | ⟨value, .telling client response⟩ => .send client response ⟨value, .stoppingFirst⟩
  | ⟨value, .stoppingFirst⟩ => .send 1 "stop" ⟨value, .stoppingSecond⟩
  | ⟨value, .stoppingSecond⟩ => .send 2 "stop" ⟨value, .ended⟩
  | ⟨_, .ended⟩ => .ended

theorem Leader.reads_never (leader : Leader) (next : SimTime → Leader) :
    leader.code ≠ .now next := by
  obtain ⟨value, awaits⟩ := leader
  cases awaits <;> exact nofun

/-- Where `run_correct_follower` awaits. -/
inductive FollowerAt where
  | serving
  | acking (sender : NodeId)
  | telling (client : NodeId) (response : String)
  | ended
  deriving DecidableEq

structure Follower where
  value : Option String
  awaits : FollowerAt
  deriving DecidableEq

def Follower.code : Follower → Await NodeId String SimTime Follower
  | ⟨value, .serving⟩ => .recv fun sender msg =>
      if msg = "append:x" then ⟨some "x", .acking sender⟩
      else if msg = "read" then ⟨value, .telling sender (readResponse value)⟩
      else if msg = "stop" then ⟨value, .ended⟩
      else ⟨value, .serving⟩
  | ⟨value, .acking sender⟩ => .send sender "ack" ⟨value, .serving⟩
  | ⟨value, .telling client response⟩ => .send client response ⟨value, .ended⟩
  | ⟨_, .ended⟩ => .ended

theorem Follower.reads_never (follower : Follower) (next : SimTime → Follower) :
    follower.code ≠ .now next := by
  obtain ⟨value, awaits⟩ := follower
  cases awaits <;> exact nofun

/-- `RaftClientHistory::checker_backed(FollowerStaleRead)`. -/
def staleReadHistory : List RecordedOp := [.kvPut 1 4 1 0 1, .kvGet 2 4 none 2 3]

/-- Where `run_raft_correct_history_client` awaits. -/
inductive ClientAt where
  | start
  | sendingWrite (invoke : SimTime)
  | awaitingAck (invoke : SimTime)
  | writeDone (invoke : SimTime)
  | beforeRead
  | sendingRead (invoke : SimTime)
  | awaitingValue (invoke : SimTime)
  | readDone (observed : Option Int32) (invoke : SimTime)
  | ended
  deriving DecidableEq

/-- At the end `ops` is what the client returns. -/
structure Client where
  ops : List RecordedOp
  awaits : ClientAt
  deriving DecidableEq

def Client.code (node : NodeId) : Client → Await NodeId String SimTime Client
  | ⟨ops, .start⟩ => .now fun invoke => ⟨ops, .sendingWrite invoke⟩
  | ⟨ops, .sendingWrite invoke⟩ => .send 0 "client-write:x" ⟨ops, .awaitingAck invoke⟩
  | ⟨ops, .awaitingAck invoke⟩ => .recv fun _ ack =>
      if ack = "ok" then ⟨ops, .writeDone invoke⟩ else ⟨ops, .beforeRead⟩
  | ⟨ops, .writeDone invoke⟩ => .now fun complete =>
      ⟨ops ++ [.kvPut 1 (.ofNat node) 1 invoke complete], .beforeRead⟩
  | ⟨ops, .beforeRead⟩ => .now fun invoke => ⟨ops, .sendingRead invoke⟩
  | ⟨ops, .sendingRead invoke⟩ => .send 0 "client-read" ⟨ops, .awaitingValue invoke⟩
  | ⟨ops, .awaitingValue invoke⟩ => .recv fun _ value =>
      ⟨ops, .readDone (if value = "value:x" then some 1 else none) invoke⟩
  | ⟨ops, .readDone observed invoke⟩ => .now fun complete =>
      let ops := ops ++ [.kvGet 2 (.ofNat node) observed invoke complete]
      ⟨if observed.isNone then staleReadHistory else ops, .ended⟩
  | ⟨_, .ended⟩ => .ended

inductive Party where
  | leader
  | follower (replica : Replica)
  | client
  deriving DecidableEq

abbrev Local : Party → Type
  | .leader => Leader
  | .follower _ => Follower
  | .client => Client

/-- Nodes 0 to 2, with a client at the given node. -/
def deployment (client : NodeId) : Deployment Party NodeId String SimTime Local where
  address
    | .leader => 0
    | .follower replica => replica.node
    | .client => client
  code
    | .leader => Leader.code
    | .follower _ => Follower.code
    | .client => Client.code client

abbrev RaftSystem := System NodeId String SimTime Local

abbrev RaftEvent := Event Party NodeId String SimTime

def RaftSystem.start : RaftSystem where
  locals
    | .leader => ⟨none, .serving⟩
    | .follower _ => ⟨none, .serving⟩
    | .client => ⟨[], .start⟩
  sent := []
  delivered := []
  now := 0

end Detersim.MiniRaft
