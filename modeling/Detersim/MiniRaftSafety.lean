import Detersim.MiniRaft
import Detersim.WriteThenRead

/-!
Safety of the Mini-Raft reference. As in the primary-backup store, a repeated ack
passes for the other follower's, here only until the first write is answered, and
a repeated `ok` for an unexpected answer to the read.
-/

namespace Detersim.MiniRaft

open Datagrams WriteThenRead
open PrimaryBackup (Replica client_apart)

/-- The leader answers a write only when both followers stored it, and what the
client has recorded or returns is linearizable. -/
structure Safe (client : NodeId) (system : RaftSystem) : Prop where
  replicated : ∀ receiver next,
    (deployment client).code .leader (system.locals .leader) = .send receiver "ok" next →
    ∀ replica, (system.locals (.follower replica)).value = some "x"
  linearizable : Linearizes (singleKeyKv none) (recordedHistory (system.locals .client).ops)

/-- A leader without a value is handed at most one ack of each follower, and the
client at most one `ok`. -/
def Unrepeated (system : RaftSystem) : RaftEvent → Prop
  | .deliver .leader packet => packet.msg = "ack" → (system.locals .leader).value = none →
      ∀ earlier ∈ system.delivered, earlier.msg = "ack" → earlier.receiver = 0 →
        earlier.sender ≠ packet.sender
  | .deliver .client packet => packet.msg = "ok" →
      ∀ earlier ∈ system.delivered, earlier.receiver = packet.receiver → earlier.msg ≠ "ok"
  | .deliver (.follower _) _ | .tick _ | .act _ => True

instance (system : RaftSystem) : (event : RaftEvent) → Decidable (Unrepeated system event)
  | .deliver .leader _ => inferInstanceAs (Decidable (_ → _))
  | .deliver .client _ => inferInstanceAs (Decidable (_ → _))
  | .deliver (.follower _) _ | .tick _ | .act _ => .isTrue trivial

/-! What a run never undoes. -/

def ClientAt.stage : ClientAt → Stage
  | .start => .start
  | .sendingWrite invoke => .sendingWrite invoke
  | .awaitingAck invoke => .awaitingAck invoke
  | .writeDone invoke => .writeDone invoke
  | .beforeRead => .beforeRead
  | .sendingRead invoke => .sendingRead invoke
  | .awaitingValue invoke => .awaitingValue invoke
  | .readDone observed invoke => .readDone observed invoke
  | .ended => .ended

abbrev keeps : (party : Party) → Local party → Local party → Prop
  | .leader, before, after | .follower _, before, after =>
      before.value = some "x" → after.value = some "x"
  | .client, before, after => before.awaits.stage.Keeps after.awaits.stage

/-- The client has sent its write. -/
def Began : Lasting NodeId String SimTime keeps :=
  .ofLocal .client (·.awaits.stage.began = true) Stage.Keeps.began

/-- The client has sent its read. -/
def Asked : Lasting NodeId String SimTime keeps :=
  .ofLocal .client (·.awaits.stage.asked = true) Stage.Keeps.asked

def Stored : Lasting NodeId String SimTime keeps :=
  .ofLocal .leader (·.value = some "x") fun kept => kept

def Holding (replica : Replica) : Lasting NodeId String SimTime keeps :=
  .ofLocal (.follower replica) (·.value = some "x") fun kept => kept

/-- The client was handed the leader's answer to its write. -/
def Answered (client : NodeId) : Lasting NodeId String SimTime keeps :=
  .both Stored (.handed fun packet => .fact (packet.receiver = client ∧ packet.msg = "ok"))

/-! What fits the state of the run, for each party and each datagram. -/

-- What a datagram proves about the state in which it was sent holds from then on.
inductive Known (client : NodeId) (system : RaftSystem) : Packet NodeId String SimTime → Prop where
  | write {time} : Known client system ⟨client, 0, "client-write:x", time⟩
  | append (replica : Replica) {time} : Known client system ⟨0, replica.node, "append:x", time⟩
  | ack {node time} : Applied Holding node system → Known client system ⟨node, 0, "ack", time⟩
  | ok {time} : Stored system → Known client system ⟨0, client, "ok", time⟩
  | read {time} : Asked system → Stored system →
      Known client system ⟨client, 0, "client-read", time⟩
  | value {time} : Asked system → Known client system ⟨0, client, "value:x", time⟩
  | stop (replica : Replica) {time} : Known client system ⟨0, replica.node, "stop", time⟩

/-- What a leader that is waiting, or about to wait, for acks has stored. -/
inductive ValueFits (system : RaftSystem) : Option String → Prop where
  | none : ValueFits system none
  | stored : Replicated Holding system → ValueFits system (some "x")

inductive LeaderFits (client : NodeId) (system : RaftSystem) : Leader → Prop where
  | serving {value} : ValueFits system value → LeaderFits client system ⟨value, .serving⟩
  | appendingFirst {value} : Began system → ValueFits system value →
      LeaderFits client system ⟨value, .appendingFirst client⟩
  | appendingSecond {value} : Began system → ValueFits system value →
      LeaderFits client system ⟨value, .appendingSecond client⟩
  | countingNone {value} : ValueFits system value →
      LeaderFits client system ⟨value, .counting client 0⟩
  | countingOne {value} : ValueFits system value → Counted Holding system →
      LeaderFits client system ⟨value, .counting client 1⟩
  | answering : Began system → Replicated Holding system →
      LeaderFits client system ⟨some "x", .answering client⟩
  | telling : Asked system → LeaderFits client system ⟨some "x", .telling client "value:x"⟩
  | stopping {value awaits} : Began system → awaits = .stoppingFirst ∨ awaits = .stoppingSecond →
      LeaderFits client system ⟨value, awaits⟩
  | ended {value} : LeaderFits client system ⟨value, .ended⟩

inductive FollowerFits (system : RaftSystem) : Follower → Prop where
  | empty : FollowerFits system ⟨none, .serving⟩
  | holding : FollowerFits system ⟨some "x", .serving⟩
  | acking : Began system → FollowerFits system ⟨some "x", .acking 0⟩
  | ended {value} : FollowerFits system ⟨value, .ended⟩

def Fits (client : NodeId) (system : RaftSystem) : (party : Party) → Local party → Prop
  | .leader => LeaderFits client system
  | .follower _ => FollowerFits system
  | .client => fun state =>
      ClientFits client 1 (Answered client) system state.ops state.awaits.stage

section Stable

variable {client : NodeId} {before after : RaftSystem} (follows : Follows keeps before after)
include follows

theorem known_follows {packet : Packet NodeId String SimTime}
    (known : Known client before packet) : Known client after packet := by
  cases known with
  | write => exact .write
  | append replica => exact .append replica
  | ack applied => exact .ack ((Applied Holding _).lasts follows applied)
  | ok stored => exact .ok (Stored.lasts follows stored)
  | read asked stored => exact .read (Asked.lasts follows asked) (Stored.lasts follows stored)
  | value asked => exact .value (Asked.lasts follows asked)
  | stop replica => exact .stop replica

theorem valueFits_follows {value : Option String} (fits : ValueFits before value) :
    ValueFits after value := by
  cases fits with
  | none => exact .none
  | stored replicated => exact .stored ((Replicated Holding).lasts follows replicated)

theorem leaderFits_follows {leader : Leader} (fits : LeaderFits client before leader) :
    LeaderFits client after leader := by
  cases fits with
  | serving value => exact .serving (valueFits_follows follows value)
  | appendingFirst began value =>
      exact .appendingFirst (Began.lasts follows began) (valueFits_follows follows value)
  | appendingSecond began value =>
      exact .appendingSecond (Began.lasts follows began) (valueFits_follows follows value)
  | countingNone value => exact .countingNone (valueFits_follows follows value)
  | countingOne value counted =>
      exact .countingOne (valueFits_follows follows value) ((Counted Holding).lasts follows counted)
  | answering began replicated =>
      exact .answering (Began.lasts follows began) ((Replicated Holding).lasts follows replicated)
  | telling asked => exact .telling (Asked.lasts follows asked)
  | stopping began ending => exact .stopping (Began.lasts follows began) ending
  | ended => exact .ended

theorem followerFits_follows {follower : Follower} (fits : FollowerFits before follower) :
    FollowerFits after follower := by
  cases fits with
  | acking began => exact .acking (Began.lasts follows began)
  | _ => constructor

end Stable

def outline (client : NodeId) : Outline NodeId String SimTime Local where
  keeps := keeps
  fits := Fits client
  known system packet := Began system ∧ Known client system packet
  keeps_refl party state := by
    cases party
    · exact id
    · exact id
    · exact Stage.Keeps.refl _
  fits_stable follows party state fits := by
    cases party with
    | leader => exact leaderFits_follows follows fits
    | follower replica => exact followerFits_follows follows fits
    | client => exact ClientFits.follows follows fits
  known_stable follows packet known :=
    ⟨Began.lasts follows known.1, known_follows follows known.2⟩

section Steps

variable {client : NodeId} {before after : RaftSystem}

theorem outline_start : (outline client).Holds RaftSystem.start where
  parties party := by
    cases party
    · exact .serving .none
    · exact .empty
    · exact .start
  packets _ member := absurd member List.not_mem_nil

theorem safe_of_outline (holds : (outline client).Holds before) : Safe client before := by
  have leaderFits : LeaderFits client before (before.locals .leader) := holds.parties .leader
  have clientFits : ClientFits client 1 (Answered client) before (before.locals .client).ops _ :=
    holds.parties .client
  refine ⟨?_, clientFits.linearizes⟩
  intro receiver next code
  obtain ⟨leader, same⟩ : ∃ leader, before.locals .leader = leader := ⟨_, rfl⟩
  rw [same] at leaderFits code
  cases leaderFits with
  | answering _ replicated => exact replicated
  | stopping _ ending => rcases ending with rfl | rfl <;> simp [deployment, Leader.code] at code
  | _ => simp [deployment, Leader.code] at code

/-! Sending. -/

theorem leader_sends (fits : LeaderFits client before (before.locals .leader))
    {receiver : NodeId} {msg : String} {next : Leader}
    (sends : (before.locals .leader).code = .send receiver msg next) :
    keeps .leader (before.locals .leader) next ∧ (Follows keeps before after →
      LeaderFits client after next ∧
        (outline client).known after ⟨0, receiver, msg, before.now⟩) := by
  obtain ⟨leader, same⟩ : ∃ leader, before.locals .leader = leader := ⟨_, rfl⟩
  rw [same] at fits sends ⊢
  cases fits with
  | appendingFirst began value =>
      cases sends
      refine ⟨id, fun follows => ?_⟩
      have began := Began.lasts follows began
      exact ⟨.appendingSecond began (valueFits_follows follows value), began, .append .first⟩
  | appendingSecond began value =>
      cases sends
      refine ⟨id, fun follows => ⟨.countingNone (valueFits_follows follows value), ?_⟩⟩
      exact ⟨Began.lasts follows began, .append .second⟩
  | answering began replicated =>
      cases sends
      refine ⟨id, fun follows => ⟨.serving ?_, Began.lasts follows began, .ok ?_⟩⟩
      · exact .stored ((Replicated Holding).lasts follows replicated)
      · exact Stored.lasts follows (by simp [Stored, same])
  | telling asked =>
      cases sends
      refine ⟨id, fun follows => ?_⟩
      have asked := Asked.lasts follows asked
      have began : Began after := Stage.began_of_asked asked
      exact ⟨.stopping began (Or.inl rfl), began, .value asked⟩
  | stopping began ending =>
      rcases ending with rfl | rfl
      · cases sends
        refine ⟨id, fun follows => ?_⟩
        have began := Began.lasts follows began
        exact ⟨.stopping began (Or.inr rfl), began, .stop .first⟩
      · cases sends
        exact ⟨id, fun follows => ⟨.ended, Began.lasts follows began, .stop .second⟩⟩
  | _ => simp [Leader.code] at sends

theorem follower_sends {replica : Replica}
    (fits : FollowerFits before (before.locals (.follower replica)))
    {receiver : NodeId} {msg : String} {next : Follower}
    (sends : (before.locals (.follower replica)).code = .send receiver msg next) :
    keeps (.follower replica) (before.locals (.follower replica)) next ∧
      (Follows keeps before after → FollowerFits after next ∧
        (outline client).known after ⟨replica.node, receiver, msg, before.now⟩) := by
  obtain ⟨follower, same⟩ : ∃ follower, before.locals (.follower replica) = follower := ⟨_, rfl⟩
  rw [same] at fits sends ⊢
  cases fits with
  | acking began =>
      cases sends
      refine ⟨id, fun follows => ⟨.holding, Began.lasts follows began, .ack ?_⟩⟩
      exact (Applied Holding _).lasts follows ⟨replica, rfl, by simp [Holding, same]⟩
  | _ => simp [Follower.code] at sends

theorem client_sends (holds : (outline client).Holds before) {receiver : NodeId} {msg : String}
    {next : Client} (sends : (before.locals .client).code client = .send receiver msg next) :
    let after := (before.become .client next).send client receiver msg
    keeps .client (before.locals .client) next ∧ (Follows keeps before after →
      Fits client after .client next ∧
        (outline client).known after ⟨client, receiver, msg, before.now⟩) := by
  have fits : ClientFits client 1 (Answered client) before (before.locals .client).ops
    (before.locals .client).awaits.stage := holds.parties .client
  have fresh : ∀ packet ∈ before.sent, (before.locals .client).awaits.stage.began = true :=
    fun packet member => (holds.packets packet member).1
  dsimp only
  obtain ⟨⟨ops, awaits⟩, same⟩ : ∃ state, before.locals .client = state := ⟨_, rfl⟩
  rw [same] at fits sends fresh ⊢
  cases awaits with
  | sendingWrite invoke =>
      cases sends
      exact ⟨Stage.Sends.write.keeps, fun follows =>
        ⟨fits.sends .write fresh rfl follows, rfl, .write⟩⟩
  | sendingRead invoke =>
      cases sends
      refine ⟨Stage.Sends.read.keeps, fun follows => ⟨fits.sends .read fresh rfl follows, rfl, ?_⟩⟩
      exact .read rfl (Stored.lasts follows (fits.told (Or.inl rfl)).1)
  | _ => cases sends

/-! Reading the clock. -/

/-- Only a read without a value ends with other records. -/
theorem Client.reads {state : Client} {next : SimTime → Client}
    (reads : state.code client = .now next)
    (valued : ∀ invoke, state.awaits ≠ .readDone none invoke) (time : SimTime) :
    state.awaits.stage.Reads client 1 time state.ops (next time).ops (next time).awaits.stage := by
  obtain ⟨ops, awaits⟩ := state
  cases awaits with
  | start | writeDone | beforeRead =>
      cases reads
      constructor
  | readDone observed invoke =>
      cases reads
      cases observed with
      | none => exact absurd rfl (valued invoke)
      | some value => exact .readDone
  | _ => cases reads

theorem client_reads (fits : ClientFits client 1 (Answered client) before
      (before.locals .client).ops (before.locals .client).awaits.stage)
    {next : SimTime → Client} (reads : (before.locals .client).code client = .now next) :
    (outline client).Moves before (before.become .client (next before.now)) .client
      (next before.now) := by
  have valued (invoke : SimTime) : (before.locals .client).awaits ≠ .readDone none invoke :=
    fun empty => fits.valued invoke (congrArg ClientAt.stage empty)
  have read := Client.reads reads valued before.now
  exact ⟨read.keeps, fun follows => fits.reads read follows⟩

/-! Receiving. -/

variable {packet : Packet NodeId String SimTime}

theorem Known.to_leader (distinct : 2 < client) (known : Known client before packet)
    (addressed : packet.receiver = 0) :
    packet.msg = "client-write:x" ∧ packet.sender = client ∨
      packet.msg = "ack" ∧ Applied Holding packet.sender before ∨
      packet.msg = "client-read" ∧ packet.sender = client ∧ Asked before ∧ Stored before := by
  obtain ⟨apart, _, _⟩ := client_apart distinct
  cases known with
  | write => exact Or.inl ⟨rfl, rfl⟩
  | ack applied => exact Or.inr (Or.inl ⟨rfl, applied⟩)
  | read asked stored => exact Or.inr (Or.inr ⟨rfl, rfl, asked, stored⟩)
  | append replica | stop replica => cases replica <;> simp [Replica.node] at addressed
  | ok | value => exact absurd addressed apart

theorem Known.to_follower (distinct : 2 < client) (known : Known client before packet)
    (replica : Replica) (addressed : packet.receiver = replica.node) :
    packet.msg = "append:x" ∧ packet.sender = 0 ∨ packet.msg = "stop" := by
  obtain ⟨_, first, second⟩ := client_apart distinct
  cases known with
  | append => exact Or.inl ⟨rfl, rfl⟩
  | stop => exact Or.inr rfl
  | write | ack | read => cases replica <;> simp [Replica.node] at addressed
  | ok | value => cases replica <;> simp [Replica.node, first, second] at addressed

theorem Known.to_client (distinct : 2 < client) (known : Known client before packet)
    (addressed : packet.receiver = client) :
    packet.msg = "ok" ∧ Stored before ∨ packet.msg = "value:x" ∧ Asked before := by
  obtain ⟨leader, first, second⟩ := client_apart distinct
  cases known with
  | ok stored => exact Or.inl ⟨rfl, stored⟩
  | value asked => exact Or.inr ⟨rfl, asked⟩
  | append replica | stop replica =>
      cases replica
      · exact absurd addressed.symm first
      · exact absurd addressed.symm second
  | write | ack | read => exact absurd addressed.symm leader

/-- What a leader with enough acks knows: either it held the value before, or the
two acks are of two followers. -/
theorem replicated_of_acks {value : Option String} (same : (before.locals .leader).value = value)
    (fits : ValueFits before value) (counted : Counted Holding before) (ack : packet.msg = "ack")
    (applied : Applied Holding packet.sender before)
    (unrepeated : Unrepeated before (.deliver .leader packet)) : Replicated Holding before := by
  cases fits with
  | stored replicated => exact replicated
  | none =>
      obtain ⟨earlier, handed, ⟨receiver, msg⟩, acked⟩ := counted
      exact replicated_of_two acked applied (unrepeated ack same earlier handed msg receiver)

theorem leader_receives (distinct : 2 < client)
    (fits : LeaderFits client before (before.locals .leader))
    (known : (outline client).known before packet) (addressed : packet.receiver = 0)
    {next : NodeId → String → Leader} (receives : (before.locals .leader).code = .recv next)
    (unrepeated : Unrepeated before (.deliver .leader packet)) :
    (outline client).Moves before
      ((before.become .leader (next packet.sender packet.msg)).handOver packet) .leader
      (next packet.sender packet.msg) := by
  have stay (same : next packet.sender packet.msg = before.locals .leader) :
      (outline client).Moves before
        ((before.become .leader (next packet.sender packet.msg)).handOver packet) .leader
        (next packet.sender packet.msg) := Outline.Moves.stay fits same
  have began := known.1
  have known := known.2.to_leader distinct addressed
  obtain ⟨⟨value, awaits⟩, same⟩ : ∃ leader, before.locals .leader = leader := ⟨_, rfl⟩
  have held : (before.locals .leader).value = value := by rw [same]
  rw [same] at fits receives
  cases fits with
  | serving stored =>
      cases receives
      rcases known with ⟨msg, sender⟩ | ⟨msg, _⟩ | ⟨msg, sender, asked, full⟩
      · refine ⟨by simp [outline, keeps, same, msg], fun follows => ?_⟩
        change LeaderFits client _ _
        simpa [msg, sender] using LeaderFits.appendingFirst (Began.lasts follows began)
          (valueFits_follows follows stored)
      · exact stay (by simp [same, msg])
      · obtain rfl : value = some "x" := held.symm.trans full
        refine ⟨by simp [outline, keeps, msg], fun follows => ?_⟩
        change LeaderFits client _ _
        simpa [msg, sender, readResponse] using LeaderFits.telling (Asked.lasts follows asked)
  | countingNone stored =>
      cases receives
      rcases known with ⟨msg, _⟩ | ⟨msg, applied⟩ | ⟨msg, _⟩
      · exact stay (by simp [same, msg])
      · refine ⟨by simp [outline, keeps, same, msg, neededAcks], fun follows => ?_⟩
        change LeaderFits client _ _
        have counted : Counted Holding _ := ⟨packet, List.mem_cons_self, ⟨addressed, msg⟩,
          (Applied Holding _).lasts follows applied⟩
        simpa [msg, neededAcks] using
          LeaderFits.countingOne (valueFits_follows follows stored) counted
      · exact stay (by simp [same, msg])
  | countingOne stored counted =>
      cases receives
      rcases known with ⟨msg, _⟩ | ⟨msg, applied⟩ | ⟨msg, _⟩
      · exact stay (by simp [same, msg])
      · -- The second ack of a write makes the majority.
        have replicated := replicated_of_acks held stored counted msg applied unrepeated
        refine ⟨by simp [outline, keeps, msg, neededAcks], fun follows => ?_⟩
        change LeaderFits client _ _
        simpa [msg, neededAcks] using LeaderFits.answering (Began.lasts follows began)
          ((Replicated Holding).lasts follows replicated)
      · exact stay (by simp [same, msg])
  | stopping _ ending => rcases ending with rfl | rfl <;> simp [Leader.code] at receives
  | _ => simp [Leader.code] at receives

theorem follower_receives (distinct : 2 < client) {replica : Replica}
    (fits : FollowerFits before (before.locals (.follower replica)))
    (known : (outline client).known before packet) (addressed : packet.receiver = replica.node)
    {next : NodeId → String → Follower}
    (receives : (before.locals (.follower replica)).code = .recv next) :
    (outline client).Moves before
      ((before.become (.follower replica) (next packet.sender packet.msg)).handOver packet)
      (.follower replica) (next packet.sender packet.msg) := by
  have began := known.1
  have known := known.2.to_follower distinct replica addressed
  obtain ⟨follower, same⟩ : ∃ follower, before.locals (.follower replica) = follower := ⟨_, rfl⟩
  rw [same] at fits receives
  cases fits with
  | empty | holding =>
      cases receives
      rcases known with ⟨msg, sender⟩ | msg
      · refine ⟨by simp [outline, keeps, msg], fun follows => ?_⟩
        change FollowerFits _ _
        simpa [msg, sender] using FollowerFits.acking (Began.lasts follows began)
      · refine ⟨by simp [outline, keeps, same, msg], fun _ => ?_⟩
        change FollowerFits _ _
        simpa [msg] using .ended
  | _ => simp [Follower.code] at receives

theorem client_receives (distinct : 2 < client)
    (fits : ClientFits client 1 (Answered client) before (before.locals .client).ops
      (before.locals .client).awaits.stage)
    (member : packet ∈ before.sent) (known : (outline client).known before packet)
    (addressed : packet.receiver = client) (late : packet.sentAt < before.now)
    {next : NodeId → String → Client}
    (receives : (before.locals .client).code client = .recv next)
    (unrepeated : Unrepeated before (.deliver .client packet)) :
    (outline client).Moves before
      ((before.become .client (next packet.sender packet.msg)).handOver packet) .client
      (next packet.sender packet.msg) := by
  have known := known.2.to_client distinct addressed
  obtain ⟨⟨ops, awaits⟩, same⟩ : ∃ state, before.locals .client = state := ⟨_, rfl⟩
  have asking : Asked before → awaits.stage.asked = true := by simp [Asked, same]
  rw [same] at fits receives
  cases awaits with
  | awaitingAck invoke =>
      cases receives
      rcases known with ⟨msg, stored⟩ | ⟨_, asked⟩
      · simp only [msg, if_true]
        refine .of same ⟨id, nofun⟩ fun follows => fits.acked member late ?_ follows
        exact ⟨Stored.lasts follows stored, packet, List.mem_cons_self, addressed, msg⟩
      · -- No value was asked for yet.
        cases asking asked
  | awaitingValue invoke =>
      cases receives
      rcases known with ⟨msg, _⟩ | ⟨msg, _⟩
      · -- A second `ok` would end the read without a value.
        obtain ⟨_, earlier, handed, receiver, ok⟩ := fits.told (Or.inr rfl)
        exact absurd ok (unrepeated msg earlier handed (receiver.trans addressed.symm))
      · simp only [msg, if_true]
        exact .of same ⟨id, id⟩ fun follows => fits.observed follows
  | _ => cases receives

theorem outline_rules (distinct : 2 < client) (holds : (outline client).Holds before)
    (party : Party) : (outline client).Rule (deployment client) Unrepeated before party := by
  cases party with
  | leader =>
      have fits : LeaderFits client before (before.locals .leader) := holds.parties .leader
      exact {
        sends := fun sends => leader_sends fits sends
        reads := fun reads => absurd reads (Leader.reads_never _ _)
        receives := fun _ known addressed _ unrepeated receives =>
          leader_receives distinct fits known addressed receives unrepeated }
  | follower replica =>
      have fits : FollowerFits before (before.locals (.follower replica)) :=
        holds.parties (.follower replica)
      exact {
        sends := fun sends => follower_sends fits sends
        reads := fun reads => absurd reads (Follower.reads_never _ _)
        receives := fun _ known addressed _ _ receives =>
          follower_receives distinct fits known addressed receives }
  | client =>
      have fits : ClientFits client 1 (Answered client) before _ _ := holds.parties .client
      exact {
        sends := fun sends => client_sends holds sends
        reads := fun reads => client_reads fits reads
        receives := fun member known addressed late unrepeated receives =>
          client_receives distinct fits member known addressed late receives unrepeated }

end Steps

/-- Runs in which the leader never counts one follower twice for its first write,
and no `ok` is repeated to the client, are safe. -/
theorem raft_safe (client : NodeId) (distinct : 2 < client) (system : RaftSystem)
    (reached : ReachedUnder (deployment client) RaftSystem.start Unrepeated system) :
    Safe client system := by
  have holds : (outline client).Holds system := Outline.holds_of_reached UInt64.le_refl outline_start
    (fun _ holds party => outline_rules distinct holds party) reached
  exact safe_of_outline holds

/-- The second follower's ack is handed over twice, before the first follower was reached. -/
def repeatedAck : List RaftEvent :=
  [.act .client, .act .client, .tick 1, .deliver .leader ⟨3, 0, "client-write:x", 0⟩, .act .leader,
    .act .leader, .tick 2, .deliver (.follower .second) ⟨0, 2, "append:x", 1⟩,
    .act (.follower .second), .tick 3, .deliver .leader ⟨2, 0, "ack", 2⟩,
    .deliver .leader ⟨2, 0, "ack", 2⟩]

/-- One ack of each follower, and the client has its answer. -/
def written : List RaftEvent :=
  [.act .client, .act .client, .tick 1, .deliver .leader ⟨3, 0, "client-write:x", 0⟩, .act .leader,
    .act .leader, .tick 2, .deliver (.follower .second) ⟨0, 2, "append:x", 1⟩,
    .act (.follower .second), .deliver (.follower .first) ⟨0, 1, "append:x", 1⟩,
    .act (.follower .first), .tick 3, .deliver .leader ⟨2, 0, "ack", 2⟩,
    .deliver .leader ⟨1, 0, "ack", 2⟩, .act .leader, .tick 4, .deliver .client ⟨0, 3, "ok", 3⟩,
    .act .client, .act .client, .act .client, .tick 5]

/-- The read is answered. -/
def freshRead : List RaftEvent :=
  written ++ [.deliver .leader ⟨3, 0, "client-read", 4⟩, .act .leader, .tick 6,
    .deliver .client ⟨0, 3, "value:x", 5⟩, .act .client]

/-- The answer to the write comes again. -/
def repeatedOk : List RaftEvent :=
  written ++ [.deliver .client ⟨0, 3, "ok", 3⟩, .act .client]

theorem raft_safe_fresh_read :
    ∃ system, runUnder (deployment 3) Unrepeated RaftSystem.start freshRead = some system ∧
      Safe 3 system := by
  obtain ⟨system, ran⟩ := Option.isSome_iff_exists.mp
    (by decide : (runUnder (deployment 3) Unrepeated RaftSystem.start freshRead).isSome = true)
  exact ⟨system, ran, raft_safe 3 (by decide) system (reachedUnder_of_run _ _ _ .start ran)⟩

theorem raft_unsafe_when_repeated :
    (∃ system, Reached (deployment 3) RaftSystem.start system ∧
      (∃ next, (deployment 3).code .leader (system.locals .leader) = .send 3 "ok" next) ∧
      (system.locals (.follower .first)).value = none) ∧
    ∃ system, Reached (deployment 3) RaftSystem.start system ∧
      (system.locals .client).awaits = .ended ∧
      ¬ Linearizes (singleKeyKv none) (recordedHistory (system.locals .client).ops) := by
  constructor
  · obtain ⟨system, ran, seen⟩ := Option.map_eq_some_iff.mp
      (by decide : (runUnder (deployment 3) (fun _ _ => True) RaftSystem.start repeatedAck).map
        (fun system => (system.locals .leader, (system.locals (.follower .first)).value)) =
          some (⟨some "x", .answering 3⟩, none))
    obtain ⟨leader, value⟩ := Prod.mk.inj seen
    refine ⟨system, reachedUnder_of_run _ _ _ .start ran, ⟨⟨some "x", .serving⟩, ?_⟩, value⟩
    rw [leader]
    rfl
  · obtain ⟨system, ran, state⟩ := Option.map_eq_some_iff.mp
      (by decide : (runUnder (deployment 3) (fun _ _ => True) RaftSystem.start repeatedOk).map
        (fun system => system.locals .client) = some ⟨staleReadHistory, .ended⟩)
    refine ⟨system, reachedUnder_of_run _ _ _ .start ran, by rw [state], ?_⟩
    rw [state]
    exact notLinearizable_sound (singleKeyKv none) (recordedHistory staleReadHistory) ⟨10⟩
      (by decide)

end Detersim.MiniRaft
