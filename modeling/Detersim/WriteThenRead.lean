import Detersim.CheckerExactness
import Detersim.PrimaryBackup

/-!
What the stores share that replicate a value to two followers: when both hold it,
and how a client fares that writes once and then reads. A protocol says which
stage each point of its client belongs to, and what the answer to the write means.
-/

namespace Detersim.WriteThenRead

open Datagrams
open PrimaryBackup (Replica)

/-- A write, and then a read of it. -/
theorem put_get_linearizes {process : UInt32} {value : Int32}
    {invoke complete invoke' complete' : SimTime} (putTakes : invoke < complete)
    (inOrder : complete ≤ invoke') (getTakes : invoke' ≤ complete') :
    Linearizes (singleKeyKv none) (recordedHistory
      [.kvPut 1 process value invoke complete, .kvGet 2 process (some value) invoke' complete']) := by
  refine ⟨_, List.Perm.refl _, ?_, ?_⟩
  · simp only [recordedHistory, List.filterMap_cons, RecordedOp.singleKeyOp, List.filterMap_nil,
      List.pairwise_pair, OpRecord.completesBefore, OpRecord.completedAt, decide_eq_false_iff_not,
      UInt64.not_le]
    exact UInt64.lt_of_lt_of_le putTakes (UInt64.le_trans inOrder getTakes)
  · simp [recordedHistory, RecordedOp.singleKeyOp, Accepts, singleKeyKv, OpRecord.completedAt]

theorem put_linearizes {process : UInt32} {value : Int32} {invoke complete : SimTime} :
    Linearizes (singleKeyKv none) (recordedHistory [.kvPut 1 process value invoke complete]) := by
  refine ⟨_, List.Perm.refl _, List.pairwise_singleton _ _, ?_⟩
  simp [recordedHistory, RecordedOp.singleKeyOp, Accepts, singleKeyKv, OpRecord.completedAt]

theorem nil_linearizes : Linearizes (singleKeyKv none) (recordedHistory []) :=
  ⟨[], List.Perm.nil, List.Pairwise.nil, trivial⟩

/-! Times, and the datagrams sent since. -/
section Times

variable {Party : Type} {Local : Party → Type} {before after : System NodeId String SimTime Local}
  {invoke time : SimTime}

theorem later (grows : Extends before after) (early : time ≤ before.now) : time ≤ after.now :=
  UInt64.le_trans early grows.now

theorem sent_since (grows : Extends before after) (invoked : invoke ≤ before.now)
    (sent : ∀ packet ∈ before.sent, invoke ≤ packet.sentAt) :
    ∀ packet ∈ after.sent, invoke ≤ packet.sentAt := by
  intro packet member
  rcases grows.sent packet member with old | new
  · exact sent packet old
  · exact UInt64.le_trans invoked new

/-- Nothing was sent before the first datagram of a run. -/
theorem first_sent {packet : Packet NodeId String SimTime} (fresh : ∀ packet, packet ∉ before.sent)
    (sent : after.sent = before.sent ++ [packet]) (invoked : invoke ≤ packet.sentAt) :
    ∀ packet ∈ after.sent, invoke ≤ packet.sentAt := by
  intro packet member
  rw [sent] at member
  rcases List.mem_append.mp member with old | new
  · exact absurd old (fresh packet)
  · exact List.mem_singleton.mp new ▸ invoked

end Times

/-! The followers. -/
section Followers

variable {Party : Type} {Local : Party → Type}
  {keeps : (party : Party) → Local party → Local party → Prop}
  (holding : Replica → Lasting NodeId String SimTime keeps)

/-- The follower at this node holds the value. -/
def Applied (node : NodeId) : Lasting NodeId String SimTime keeps :=
  .any fun replica => .both (.fact (replica.node = node)) (holding replica)

def Replicated : Lasting NodeId String SimTime keeps := .all holding

/-- An ack of a follower that holds the value was counted. -/
def Counted : Lasting NodeId String SimTime keeps :=
  .handed fun packet => .both (.fact (packet.receiver = 0 ∧ packet.msg = "ack"))
    (Applied holding packet.sender)

variable {holding} {system : System NodeId String SimTime Local}

/-- Two nodes that hold the value are the two followers. -/
theorem replicated_of_two {left right : NodeId} (first : Applied holding left system)
    (second : Applied holding right system) (different : left ≠ right) :
    Replicated holding system := by
  obtain ⟨one, rfl, oneHolds⟩ := first
  obtain ⟨other, rfl, otherHolds⟩ := second
  cases one <;> cases other
  case first.first | second.second => exact absurd rfl different
  all_goals
    intro replica
    cases replica <;> assumption

end Followers

/-! The client. -/

/-- How far it is; at the end it has recorded both operations. -/
inductive Stage where
  | start
  | sendingWrite (invoke : SimTime)
  | awaitingAck (invoke : SimTime)
  | writeDone (invoke : SimTime)
  | beforeRead
  | sendingRead (invoke : SimTime)
  | awaitingValue (invoke : SimTime)
  | readDone (observed : Option Int32) (invoke : SimTime)
  | ended

namespace Stage

/-- The write was sent. -/
def began : Stage → Bool
  | .start | .sendingWrite _ => false
  | _ => true

/-- The read was sent. -/
def asked : Stage → Bool
  | .awaitingValue _ | .readDone .. | .ended => true
  | _ => false

theorem began_of_asked {stage : Stage} (asked : stage.asked = true) : stage.began = true := by
  cases stage <;> first | rfl | cases asked

/-- What was sent stays sent. -/
structure Keeps (before after : Stage) : Prop where
  began : before.began = true → after.began = true
  asked : before.asked = true → after.asked = true

theorem Keeps.refl (stage : Stage) : stage.Keeps stage := ⟨id, id⟩

/-- A stage that sends something, and the one after it. -/
inductive Sends : Stage → Stage → Prop where
  | write {invoke} : Sends (.sendingWrite invoke) (.awaitingAck invoke)
  | read {invoke} : Sends (.sendingRead invoke) (.awaitingValue invoke)

/-- What comes of the records and the stage when the client reads the clock. -/
inductive Reads (client : NodeId) (value : Int32) (now : SimTime) :
    List RecordedOp → Stage → List RecordedOp → Stage → Prop where
  | start {ops} : Reads client value now ops .start ops (.sendingWrite now)
  | writeDone {ops invoke} : Reads client value now ops (.writeDone invoke)
      (ops ++ [.kvPut 1 (.ofNat client) value invoke now]) .beforeRead
  | beforeRead {ops} : Reads client value now ops .beforeRead ops (.sendingRead now)
  | readDone {ops observed invoke} : Reads client value now ops (.readDone observed invoke)
      (ops ++ [.kvGet 2 (.ofNat client) observed invoke now]) .ended

theorem Sends.keeps {before after : Stage} (sends : Sends before after) : before.Keeps after := by
  cases sends with
  | write => exact ⟨nofun, nofun⟩
  | read => exact ⟨id, nofun⟩

theorem Reads.keeps {client : NodeId} {value : Int32} {now : SimTime} {ops ops' : List RecordedOp}
    {before after : Stage} (reads : Reads client value now ops before ops' after) :
    before.Keeps after := by
  cases reads with
  | start => exact ⟨nofun, nofun⟩
  | writeDone => exact ⟨id, nofun⟩
  | beforeRead | readDone => exact ⟨id, id⟩

end Stage

section Client

variable {Party : Type} {Local : Party → Type}
  {keeps : (party : Party) → Local party → Local party → Prop}

/-- The records fit the stage: an operation begins when the one before it is done,
the write takes some time, and the read returns the value written. -/
inductive ClientFits (client : NodeId) (value : Int32)
    (answered : Lasting NodeId String SimTime keeps) (system : System NodeId String SimTime Local) :
    List RecordedOp → Stage → Prop where
  | start : ClientFits client value answered system [] .start
  | sendingWrite {invoke} : invoke ≤ system.now →
      ClientFits client value answered system [] (.sendingWrite invoke)
  | awaitingAck {invoke} : invoke ≤ system.now → (∀ packet ∈ system.sent, invoke ≤ packet.sentAt) →
      ClientFits client value answered system [] (.awaitingAck invoke)
  | writeDone {invoke} : answered system → invoke < system.now →
      ClientFits client value answered system [] (.writeDone invoke)
  | beforeRead {invoke complete} : answered system → invoke < complete → complete ≤ system.now →
      ClientFits client value answered system
        [.kvPut 1 (.ofNat client) value invoke complete] .beforeRead
  | sendingRead {invoke complete invoke'} : answered system → invoke < complete →
      complete ≤ invoke' → invoke' ≤ system.now → ClientFits client value answered system
        [.kvPut 1 (.ofNat client) value invoke complete] (.sendingRead invoke')
  | awaitingValue {invoke complete invoke'} : answered system → invoke < complete →
      complete ≤ invoke' → invoke' ≤ system.now → ClientFits client value answered system
        [.kvPut 1 (.ofNat client) value invoke complete] (.awaitingValue invoke')
  | readDone {invoke complete invoke'} : invoke < complete → complete ≤ invoke' →
      invoke' ≤ system.now → ClientFits client value answered system
        [.kvPut 1 (.ofNat client) value invoke complete] (.readDone (some value) invoke')
  | ended {invoke complete invoke' complete'} : invoke < complete → complete ≤ invoke' →
      invoke' ≤ complete' → ClientFits client value answered system
        [.kvPut 1 (.ofNat client) value invoke complete,
          .kvGet 2 (.ofNat client) (some value) invoke' complete'] .ended

namespace ClientFits

variable {client : NodeId} {value : Int32} {answered : Lasting NodeId String SimTime keeps}
  {before after : System NodeId String SimTime Local} {ops : List RecordedOp} {stage : Stage}

theorem follows (follows : Follows keeps before after)
    (fits : ClientFits client value answered before ops stage) :
    ClientFits client value answered after ops stage := by
  have later {time : SimTime} (early : time ≤ before.now) : time ≤ after.now :=
    later follows.toExtends early
  cases fits with
  | start => exact .start
  | sendingWrite invoked => exact .sendingWrite (later invoked)
  | awaitingAck invoked sent =>
      exact .awaitingAck (later invoked) (sent_since follows.toExtends invoked sent)
  | writeDone told takes =>
      exact .writeDone (answered.lasts follows told) (UInt64.lt_of_lt_of_le takes follows.now)
  | beforeRead told takes done =>
      exact .beforeRead (answered.lasts follows told) takes (later done)
  | sendingRead told takes inOrder invoked =>
      exact .sendingRead (answered.lasts follows told) takes inOrder (later invoked)
  | awaitingValue told takes inOrder invoked =>
      exact .awaitingValue (answered.lasts follows told) takes inOrder (later invoked)
  | readDone takes inOrder invoked => exact .readDone takes inOrder (later invoked)
  | ended takes inOrder done => exact .ended takes inOrder done

theorem linearizes (fits : ClientFits client value answered before ops stage) :
    Linearizes (singleKeyKv none) (recordedHistory ops) := by
  cases fits with
  | start | sendingWrite | awaitingAck | writeDone => exact nil_linearizes
  | beforeRead | sendingRead | awaitingValue | readDone => exact put_linearizes
  | ended takes inOrder done => exact put_get_linearizes takes inOrder done

/-- The write is the first datagram of the run. -/
theorem sends {after' : Stage} {receiver : NodeId} {msg : String}
    (fits : ClientFits client value answered before ops stage) (sends : stage.Sends after')
    (fresh : ∀ packet ∈ before.sent, stage.began = true)
    (sent : after.sent = before.sent ++ [⟨client, receiver, msg, before.now⟩])
    (follows : Follows keeps before after) :
    ClientFits client value answered after ops after' := by
  cases sends with
  | write =>
      cases fits with
      | sendingWrite invoked =>
          exact .awaitingAck (later follows.toExtends invoked) (first_sent
            (fun packet member => Bool.false_ne_true (fresh packet member)) sent invoked)
  | read =>
      cases fits with
      | sendingRead told takes inOrder invoked =>
          exact .awaitingValue (answered.lasts follows told) takes inOrder
            (later follows.toExtends invoked)

theorem reads {ops' : List RecordedOp} {after' : Stage}
    (fits : ClientFits client value answered before ops stage)
    (reads : stage.Reads client value before.now ops ops' after')
    (follows : Follows keeps before after) :
    ClientFits client value answered after ops' after' := by
  cases reads with
  | start =>
      cases fits
      exact .sendingWrite follows.now
  | writeDone =>
      cases fits with
      | writeDone told takes => exact .beforeRead (answered.lasts follows told) takes follows.now
  | beforeRead =>
      cases fits with
      | beforeRead told takes done =>
          exact .sendingRead (answered.lasts follows told) takes done follows.now
  | readDone =>
      cases fits with
      | readDone takes inOrder invoked => exact .ended takes inOrder invoked

/-- The answer was sent after the write began, and came after it was sent. -/
theorem acked {invoke : SimTime} {packet : Packet NodeId String SimTime}
    (fits : ClientFits client value answered before ops (.awaitingAck invoke))
    (member : packet ∈ before.sent) (late : packet.sentAt < before.now) (told : answered after)
    (follows : Follows keeps before after) :
    ClientFits client value answered after ops (.writeDone invoke) := by
  cases fits with
  | awaitingAck invoked sent =>
      refine .writeDone told ?_
      exact UInt64.lt_of_lt_of_le (UInt64.lt_of_le_of_lt (sent packet member) late) follows.now

theorem observed {invoke : SimTime}
    (fits : ClientFits client value answered before ops (.awaitingValue invoke))
    (follows : Follows keeps before after) :
    ClientFits client value answered after ops (.readDone (some value) invoke) := by
  cases fits with
  | awaitingValue _ takes inOrder invoked =>
      exact .readDone takes inOrder (later follows.toExtends invoked)

/-- The client reads once its write is answered. -/
theorem told {invoke : SimTime} (fits : ClientFits client value answered before ops stage)
    (reading : stage = .sendingRead invoke ∨ stage = .awaitingValue invoke) : answered before := by
  rcases reading with rfl | rfl
  · cases fits with
    | sendingRead told => exact told
  · cases fits with
    | awaitingValue told => exact told

theorem valued (fits : ClientFits client value answered before ops stage) (invoke : SimTime) :
    stage ≠ .readDone none invoke := by
  rintro rfl
  cases fits

end ClientFits

end Client

end Detersim.WriteThenRead
