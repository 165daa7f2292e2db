import Detersim.PrimaryBackup

/-!
The primary-backup store and its clients in every variant, as `KvConfig` selects
them: the correct one and the planted bugs. The followers are those of the
correct variant, since `run_follower` does not look at the configuration.
-/

namespace Detersim.KvVariants

open Datagrams
open PrimaryBackup (Follower Replica Party)

inductive KvBugVariant where
  | correct
  | ackBeforeReplicate
  | readFromStaleFollower
  | lostUpdate
  | duplicateRequestReapplied
  | followerAppliesUncommitted
  | quorumCountOffByOne
  deriving DecidableEq

/-- What the primary awaits on the way through one turn of its loop. -/
inductive Job where
  | send (receiver : NodeId) (msg : String)
  | waitForAcks (missing : Nat)
  deriving DecidableEq

def replicateMsg (value : Int32) : String := s!"replicate:{value}"

def replicateToQuorum (value : Int32) (neededAcks : Nat) : List Job :=
  [.send 1 (replicateMsg value), .send 2 (replicateMsg value), .waitForAcks neededAcks]

def replicateToNode (node : NodeId) (value : Int32) : List Job :=
  [.send node (replicateMsg value), .waitForAcks 1]

/-- `run_primary`, and `run_append_log_primary` where it hands over to that. -/
inductive Primary where
  | serving
  | working (job : Job) (rest : List Job) (stays : Bool)
  | logging (entries : List String)
  | answering (client : NodeId) (response : String) (entries : List String) (stays : Bool)
  | ended
  deriving DecidableEq

/-- The rest of a turn; then the loop goes on, or breaks. -/
def Primary.turn : List Job → Bool → Primary
  | job :: rest, stays => .working job rest stays
  | [], true => .serving
  | [], false => .ended

def Primary.start (bug : KvBugVariant) : Primary :=
  if bug = .duplicateRequestReapplied then .logging [] else .serving

/-- The `match` on a request. -/
def Primary.serve (bug : KvBugVariant) (client : NodeId) (msg : String) : Primary :=
  if msg = "put:7" then match bug with
    | .correct => .turn (replicateToQuorum 7 2 ++ [.send client "ok"]) false
    | .ackBeforeReplicate =>
        .turn [.send 1 "replicate:7", .send 2 "replicate:7", .send client "ok"] false
    | .readFromStaleFollower => .turn (replicateToNode 2 7 ++ [.send client "ok"]) false
    | .lostUpdate => .turn (replicateToNode 1 7 ++ [.send client "ok"]) true
    | .followerAppliesUncommitted => .turn [.send 1 "replicate-uncommitted:7"] true
    | .quorumCountOffByOne => .turn (replicateToNode 2 7 ++ [.send client "ok"]) false
    | .duplicateRequestReapplied => .serving
  else if msg = "put:9" ∧ bug = .lostUpdate then
    .turn (replicateToNode 2 9 ++ [.send client "ok"]) false
  else .serving

def Primary.serveLog (bug : KvBugVariant) (entries : List String) (client : NodeId)
    (msg : String) : Primary :=
  if msg = "append:x" then
    let appended := entries ++ ["x"]
    let appended := if bug = .duplicateRequestReapplied then appended ++ ["x"] else appended
    .answering client s!"index:{entries.length}" appended true
  else if msg = "read_all" then .answering client (",".intercalate entries) entries false
  else .logging entries

def Primary.code (bug : KvBugVariant) : Primary → Await NodeId String SimTime Primary
  | .serving => .recv (serve bug)
  | .working (.send receiver msg) rest stays => .send receiver msg (.turn rest stays)
  | .working (.waitForAcks missing) rest stays => .recv fun _ msg =>
      if msg = "ack" then
        if 1 < missing then .working (.waitForAcks (missing - 1)) rest stays else .turn rest stays
      else .working (.waitForAcks missing) rest stays
  | .logging entries => .recv (serveLog bug entries)
  | .answering client response entries stays =>
      .send client response (if stays then .logging entries else .ended)
  | .ended => .ended

theorem Primary.reads_never {bug : KvBugVariant} (primary : Primary) (next : SimTime → Primary) :
    primary.code bug ≠ .now next := by
  cases primary with
  | working job rest stays => cases job <;> exact nofun
  | serving | logging | answering | ended => exact nofun

/-- Where the client that `run_primary_backup_kv_client` selects awaits. -/
inductive ClientAt where
  | start
  | sendingPut (invoke : SimTime)
  | awaitingAck (invoke : SimTime)
  | putDone (invoke : SimTime)
  | beforeSecond
  | sendingSecond (invoke : SimTime)
  | awaitingSecond (invoke : SimTime)
  | secondDone (invoke : SimTime)
  | beforeGet
  | sendingGet (invoke : SimTime)
  | awaitingValue (invoke : SimTime)
  | getDone (value : Option Int32) (invoke : SimTime)
  | stoppingFirst
  | stoppingSecond
  | beforeSleep
  | sleeping (deadline : SimTime)
  | sendingAppend (invoke : SimTime)
  | awaitingIndex (invoke : SimTime)
  | appendDone (index : UInt64) (invoke : SimTime)
  | beforeReadAll
  | sendingReadAll (invoke : SimTime)
  | awaitingEntries (invoke : SimTime)
  | readDone (entries : List String) (invoke : SimTime)
  | ended
  deriving DecidableEq

structure Client where
  ops : List RecordedOp
  awaits : ClientAt
  deriving DecidableEq

/-- The two puts come first only in the variant that loses one of them. -/
def Client.afterPut (bug : KvBugVariant) (ops : List RecordedOp) : Client :=
  ⟨ops, if bug = .lostUpdate then .beforeSecond else .beforeGet⟩

def readId (bug : KvBugVariant) : UInt64 := if bug = .lostUpdate then 3 else 2

/-- `str::strip_prefix("index:")`, then the number. -/
def parseIndex (text : String) : Option UInt64 :=
  if "index:".toList <+: text.toList then
    parseU64 (String.ofList (text.toList.drop "index:".toList.length))
  else none

def sleepNanos : Nat := 250 * nanosPerMilli

def Client.begin (bug : KvBugVariant) : Await NodeId String SimTime Client :=
  match bug with
  | .duplicateRequestReapplied => .now fun invoke => ⟨[], .sendingAppend invoke⟩
  | .followerAppliesUncommitted => .send 0 "put:7" ⟨[], .beforeSleep⟩
  | _ => .now fun invoke => ⟨[], .sendingPut invoke⟩

def Client.code (bug : KvBugVariant) (node : NodeId) :
    Client → Await NodeId String SimTime Client
  | ⟨_, .start⟩ => begin bug
  | ⟨ops, .sendingPut invoke⟩ => .send 0 "put:7" ⟨ops, .awaitingAck invoke⟩
  | ⟨ops, .awaitingAck invoke⟩ => .recv fun _ ack =>
      if ack = "ok" then ⟨ops, .putDone invoke⟩ else afterPut bug ops
  | ⟨ops, .putDone invoke⟩ => .now fun complete =>
      afterPut bug (ops ++ [.kvPut 1 (.ofNat node) 7 invoke complete])
  | ⟨ops, .beforeSecond⟩ => .now fun invoke => ⟨ops, .sendingSecond invoke⟩
  | ⟨ops, .sendingSecond invoke⟩ => .send 0 "put:9" ⟨ops, .awaitingSecond invoke⟩
  | ⟨ops, .awaitingSecond invoke⟩ => .recv fun _ ack =>
      if ack = "ok" then ⟨ops, .secondDone invoke⟩ else ⟨ops, .beforeGet⟩
  | ⟨ops, .secondDone invoke⟩ => .now fun complete =>
      ⟨ops ++ [.kvPut 2 (.ofNat node) 9 invoke complete], .beforeGet⟩
  | ⟨ops, .beforeGet⟩ => .now fun invoke => ⟨ops, .sendingGet invoke⟩
  | ⟨ops, .sendingGet invoke⟩ => .send 1 "get" ⟨ops, .awaitingValue invoke⟩
  | ⟨ops, .awaitingValue invoke⟩ => .recv fun _ msg => ⟨ops, .getDone (parseOptionalI32 msg) invoke⟩
  | ⟨ops, .getDone value invoke⟩ => .now fun complete =>
      ⟨ops ++ [.kvGet (readId bug) (.ofNat node) value invoke complete],
        if bug = .followerAppliesUncommitted then .ended else .stoppingFirst⟩
  | ⟨ops, .stoppingFirst⟩ => .send 1 "stop" ⟨ops, .stoppingSecond⟩
  | ⟨ops, .stoppingSecond⟩ => .send 2 "stop" ⟨ops, .ended⟩
  -- A sleeping task is not run again before the clock is at its deadline.
  | ⟨ops, .beforeSleep⟩ => .now fun now => ⟨ops, .sleeping (now.saturatingAdd sleepNanos)⟩
  | ⟨ops, .sleeping deadline⟩ => .now fun now =>
      ⟨ops, if deadline ≤ now then .beforeGet else .sleeping deadline⟩
  | ⟨ops, .sendingAppend invoke⟩ => .send 0 "append:x" ⟨ops, .awaitingIndex invoke⟩
  | ⟨ops, .awaitingIndex invoke⟩ => .recv fun _ msg =>
      ⟨ops, .appendDone ((parseIndex msg).getD 0) invoke⟩
  | ⟨ops, .appendDone index invoke⟩ => .now fun complete =>
      ⟨ops ++ [.logAppend 1 (.ofNat node) "x" index invoke complete], .beforeReadAll⟩
  | ⟨ops, .beforeReadAll⟩ => .now fun invoke => ⟨ops, .sendingReadAll invoke⟩
  | ⟨ops, .sendingReadAll invoke⟩ => .send 0 "read_all" ⟨ops, .awaitingEntries invoke⟩
  | ⟨ops, .awaitingEntries invoke⟩ => .recv fun _ msg => ⟨ops, .readDone (parseEntries msg) invoke⟩
  | ⟨ops, .readDone entries invoke⟩ => .now fun complete =>
      ⟨ops ++ [.logRead 2 (.ofNat node) entries invoke complete], .ended⟩
  | ⟨_, .ended⟩ => .ended

abbrev Local : Party → Type
  | .primary => Primary
  | .follower _ => Follower
  | .client => Client

/-- Nodes 0 to 2, with a client at the given node. -/
def deployment (bug : KvBugVariant) (client : NodeId) :
    Deployment Party NodeId String SimTime Local where
  address
    | .primary => 0
    | .follower replica => replica.node
    | .client => client
  code
    | .primary => Primary.code bug
    | .follower _ => Follower.code
    | .client => Client.code bug client

abbrev KvSystem := System NodeId String SimTime Local

abbrev KvEvent := Event Party NodeId String SimTime

def KvSystem.start (bug : KvBugVariant) : KvSystem where
  locals
    | .primary => .start bug
    | .follower _ => ⟨none, .serving⟩
    | .client => ⟨[], .start⟩
  sent := []
  delivered := []
  now := 0

end Detersim.KvVariants
