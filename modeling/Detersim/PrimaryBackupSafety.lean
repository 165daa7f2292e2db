import Detersim.WriteThenRead

/-!
Safety of the primary-backup store. An ack names neither the follower that sent
it nor the request it answers, so a repeated ack passes for the other follower's,
and a repeated `ok` for the value read. Nothing else goes wrong.
-/

namespace Detersim.PrimaryBackup

open Datagrams WriteThenRead

/-- The primary answers only when both followers hold the value, and the client's
operations are linearizable. -/
structure Safe (client : NodeId) (system : KvSystem) : Prop where
  replicated : ∀ receiver next,
    (deployment client).code .primary (system.locals .primary) = .send receiver "ok" next →
    ∀ replica, (system.locals (.follower replica)).value = some 7
  linearizable : Linearizes (singleKeyKv none) (recordedHistory (system.locals .client).ops)

/-- No node is handed an `ack` or an `ok` of one sender twice. -/
def Unrepeated (system : KvSystem) : KvEvent → Prop
  | .deliver _ packet => packet.msg = "ack" ∨ packet.msg = "ok" →
      ∀ earlier ∈ system.delivered, earlier.msg = packet.msg → earlier.receiver = packet.receiver →
        earlier.sender ≠ packet.sender
  | .tick _ | .act _ => True

instance (system : KvSystem) : (event : KvEvent) → Decidable (Unrepeated system event)
  | .deliver _ _ => inferInstanceAs (Decidable (_ → _))
  | .tick _ | .act _ => .isTrue trivial

/-! What a run never undoes. -/

def ClientAt.stage : ClientAt → Stage
  | .start => .start
  | .sendingPut invoke => .sendingWrite invoke
  | .awaitingAck invoke => .awaitingAck invoke
  | .putDone invoke => .writeDone invoke
  | .beforeGet => .beforeRead
  | .sendingGet invoke => .sendingRead invoke
  | .awaitingValue invoke => .awaitingValue invoke
  | .getDone value invoke => .readDone value invoke
  | .stoppingFirst | .stoppingSecond | .ended => .ended

abbrev keeps : (party : Party) → Local party → Local party → Prop
  | .primary, _, _ => True
  | .follower _, before, after => before.value = some 7 → after.value = some 7
  | .client, before, after => before.awaits.stage.Keeps after.awaits.stage

/-- The client has sent its `put`. -/
def Began : Lasting NodeId String SimTime keeps :=
  .ofLocal .client (·.awaits.stage.began = true) Stage.Keeps.began

/-- The client has sent its `get`. -/
def Asked : Lasting NodeId String SimTime keeps :=
  .ofLocal .client (·.awaits.stage.asked = true) Stage.Keeps.asked

def Holding (replica : Replica) : Lasting NodeId String SimTime keeps :=
  .ofLocal (.follower replica) (·.value = some 7) fun kept => kept

/-- The client was handed the primary's answer. -/
def Answered (client : NodeId) : Lasting NodeId String SimTime keeps :=
  .both (Replicated Holding) (.handed fun packet =>
    .fact (packet.sender = 0 ∧ packet.receiver = client ∧ packet.msg = "ok"))

/-! What fits the state of the run, for each party and each datagram. -/

inductive Known (client : NodeId) (system : KvSystem) : Packet NodeId String SimTime → Prop where
  | put {time} : Known client system ⟨client, 0, "put:7", time⟩
  | replicate (replica : Replica) {time} :
      Known client system ⟨0, replica.node, "replicate:7", time⟩
  | ack {node time} : Applied Holding node system → Known client system ⟨node, 0, "ack", time⟩
  | ok {time} : Replicated Holding system → Known client system ⟨0, client, "ok", time⟩
  | get {time} : Asked system → Replicated Holding system →
      Known client system ⟨client, 1, "get", time⟩
  | value {time} : Asked system → Known client system ⟨1, client, "7", time⟩
  | stop (replica : Replica) {time} : Known client system ⟨client, replica.node, "stop", time⟩

inductive PrimaryFits (client : NodeId) (system : KvSystem) : Primary → Prop where
  | serving : PrimaryFits client system .serving
  | sendingFirst : Began system → PrimaryFits client system (.sendingFirst client)
  | sendingSecond : Began system → PrimaryFits client system (.sendingSecond client)
  | countingNone : PrimaryFits client system (.counting client 0)
  | countingOne : Counted Holding system → PrimaryFits client system (.counting client 1)
  | answering : Began system → Replicated Holding system →
      PrimaryFits client system (.answering client)
  | ended : PrimaryFits client system .ended

inductive FollowerFits (client : NodeId) (system : KvSystem) (replica : Replica) :
    Follower → Prop where
  | empty : FollowerFits client system replica ⟨none, .serving⟩
  | holding : FollowerFits client system replica ⟨some 7, .serving⟩
  | acking : Began system → FollowerFits client system replica ⟨some 7, .acking 0⟩
  | telling : replica = .first → Asked system →
      FollowerFits client system replica ⟨some 7, .telling client⟩
  | ended {value} : FollowerFits client system replica ⟨value, .ended⟩

def Fits (client : NodeId) (system : KvSystem) : (party : Party) → Local party → Prop
  | .primary => PrimaryFits client system
  | .follower replica => FollowerFits client system replica
  | .client => fun state =>
      ClientFits client 7 (Answered client) system state.ops state.awaits.stage

section Stable

variable {client : NodeId} {before after : KvSystem} (follows : Follows keeps before after)
include follows

theorem known_follows {packet : Packet NodeId String SimTime}
    (known : Known client before packet) : Known client after packet := by
  cases known with
  | put => exact .put
  | replicate replica => exact .replicate replica
  | ack applied => exact .ack ((Applied Holding _).lasts follows applied)
  | ok replicated => exact .ok ((Replicated Holding).lasts follows replicated)
  | get asked replicated =>
      exact .get (Asked.lasts follows asked) ((Replicated Holding).lasts follows replicated)
  | value asked => exact .value (Asked.lasts follows asked)
  | stop replica => exact .stop replica

theorem primaryFits_follows {primary : Primary} (fits : PrimaryFits client before primary) :
    PrimaryFits client after primary := by
  cases fits with
  | sendingFirst began => exact .sendingFirst (Began.lasts follows began)
  | sendingSecond began => exact .sendingSecond (Began.lasts follows began)
  | countingOne counted => exact .countingOne ((Counted Holding).lasts follows counted)
  | answering began replicated =>
      exact .answering (Began.lasts follows began) ((Replicated Holding).lasts follows replicated)
  | _ => constructor

theorem followerFits_follows {replica : Replica} {follower : Follower}
    (fits : FollowerFits client before replica follower) :
    FollowerFits client after replica follower := by
  cases fits with
  | acking began => exact .acking (Began.lasts follows began)
  | telling named asked => exact .telling named (Asked.lasts follows asked)
  | _ => constructor

end Stable

def outline (client : NodeId) : Outline NodeId String SimTime Local where
  keeps := keeps
  fits := Fits client
  known system packet := Began system ∧ Known client system packet
  keeps_refl party state := by
    cases party
    · trivial
    · exact id
    · exact Stage.Keeps.refl _
  fits_stable follows party state fits := by
    cases party with
    | primary => exact primaryFits_follows follows fits
    | follower replica => exact followerFits_follows follows fits
    | client => exact ClientFits.follows follows fits
  known_stable follows packet known :=
    ⟨Began.lasts follows known.1, known_follows follows known.2⟩

section Steps

variable {client : NodeId} {before after : KvSystem}

theorem outline_start : (outline client).Holds KvSystem.start where
  parties party := by
    cases party
    · exact .serving
    · exact .empty
    · exact .start
  packets _ member := absurd member List.not_mem_nil

theorem safe_of_outline (holds : (outline client).Holds before) : Safe client before := by
  have primaryFits : PrimaryFits client before (before.locals .primary) := holds.parties .primary
  have clientFits : ClientFits client 7 (Answered client) before (before.locals .client).ops _ :=
    holds.parties .client
  refine ⟨?_, clientFits.linearizes⟩
  intro receiver next code
  obtain ⟨primary, same⟩ : ∃ primary, before.locals .primary = primary := ⟨_, rfl⟩
  rw [same] at primaryFits code
  cases primaryFits with
  | answering _ replicated => exact replicated
  | _ => simp [deployment, Primary.code] at code

/-! Sending. -/

theorem primary_sends (fits : PrimaryFits client before (before.locals .primary))
    {receiver : NodeId} {msg : String} {next : Primary}
    (sends : (before.locals .primary).code = .send receiver msg next)
    (follows : Follows keeps before after) :
    PrimaryFits client after next ∧
      (outline client).known after ⟨0, receiver, msg, before.now⟩ := by
  obtain ⟨primary, same⟩ : ∃ primary, before.locals .primary = primary := ⟨_, rfl⟩
  rw [same] at fits sends
  cases fits with
  | sendingFirst began =>
      cases sends
      have began := Began.lasts follows began
      exact ⟨.sendingSecond began, began, .replicate .first⟩
  | sendingSecond began =>
      cases sends
      exact ⟨.countingNone, Began.lasts follows began, .replicate .second⟩
  | answering began replicated =>
      cases sends
      exact ⟨.ended, Began.lasts follows began, .ok ((Replicated Holding).lasts follows replicated)⟩
  | _ => simp [Primary.code] at sends

theorem follower_sends {replica : Replica}
    (fits : FollowerFits client before replica (before.locals (.follower replica)))
    {receiver : NodeId} {msg : String} {next : Follower}
    (sends : (before.locals (.follower replica)).code = .send receiver msg next) :
    keeps (.follower replica) (before.locals (.follower replica)) next ∧
      (Follows keeps before after → FollowerFits client after replica next ∧
        (outline client).known after ⟨replica.node, receiver, msg, before.now⟩) := by
  obtain ⟨follower, same⟩ : ∃ follower, before.locals (.follower replica) = follower := ⟨_, rfl⟩
  rw [same] at fits sends ⊢
  cases fits with
  | acking began =>
      cases sends
      refine ⟨id, fun follows => ⟨.holding, Began.lasts follows began, .ack ?_⟩⟩
      exact (Applied Holding _).lasts follows ⟨replica, rfl, by simp [Holding, same]⟩
  | telling named asked =>
      cases sends
      subst named
      refine ⟨id, fun follows => ⟨.ended, ?_, .value (Asked.lasts follows asked)⟩⟩
      exact Began.lasts follows (Stage.began_of_asked asked)
  | _ => simp [Follower.code] at sends

theorem client_sends (holds : (outline client).Holds before) {receiver : NodeId} {msg : String}
    {next : Client} (sends : (before.locals .client).code client = .send receiver msg next) :
    let after := (before.become .client next).send client receiver msg
    keeps .client (before.locals .client) next ∧ (Follows keeps before after →
      Fits client after .client next ∧
        (outline client).known after ⟨client, receiver, msg, before.now⟩) := by
  have fits : ClientFits client 7 (Answered client) before (before.locals .client).ops
    (before.locals .client).awaits.stage := holds.parties .client
  have fresh : ∀ packet ∈ before.sent, (before.locals .client).awaits.stage.began = true :=
    fun packet member => (holds.packets packet member).1
  dsimp only
  obtain ⟨⟨ops, awaits⟩, same⟩ : ∃ state, before.locals .client = state := ⟨_, rfl⟩
  rw [same] at fits sends fresh ⊢
  cases awaits with
  | sendingPut invoke =>
      cases sends
      exact ⟨Stage.Sends.write.keeps, fun follows =>
        ⟨fits.sends .write fresh rfl follows, rfl, .put⟩⟩
  | sendingGet invoke =>
      cases sends
      refine ⟨Stage.Sends.read.keeps, fun follows => ⟨fits.sends .read fresh rfl follows, rfl, ?_⟩⟩
      exact .get rfl ((Replicated Holding).lasts follows (fits.told (Or.inl rfl)).1)
  | stoppingFirst =>
      cases sends
      exact ⟨.refl _, fun follows => ⟨fits.follows follows, rfl, .stop .first⟩⟩
  | stoppingSecond =>
      cases sends
      exact ⟨.refl _, fun follows => ⟨fits.follows follows, rfl, .stop .second⟩⟩
  | _ => cases sends

/-! Reading the clock. -/

theorem Client.reads {state : Client} {next : SimTime → Client}
    (reads : state.code client = .now next) (time : SimTime) :
    state.awaits.stage.Reads client 7 time state.ops (next time).ops (next time).awaits.stage := by
  obtain ⟨ops, awaits⟩ := state
  cases awaits with
  | start | putDone | beforeGet | getDone =>
      cases reads
      constructor
  | _ => cases reads

/-! Receiving. -/

variable {packet : Packet NodeId String SimTime}

theorem Known.to_primary (distinct : 2 < client) (known : Known client before packet)
    (addressed : packet.receiver = 0) :
    packet.msg = "put:7" ∧ packet.sender = client ∨
      packet.msg = "ack" ∧ Applied Holding packet.sender before := by
  obtain ⟨apart, _, _⟩ := client_apart distinct
  cases known with
  | put => exact Or.inl ⟨rfl, rfl⟩
  | ack applied => exact Or.inr ⟨rfl, applied⟩
  | replicate replica | stop replica => cases replica <;> simp [Replica.node] at addressed
  | ok | value => exact absurd addressed apart
  | get => simp at addressed

theorem Known.to_follower (distinct : 2 < client) (known : Known client before packet)
    (replica : Replica) (addressed : packet.receiver = replica.node) :
    packet.msg = "replicate:7" ∧ packet.sender = 0 ∨
      (packet.msg = "get" ∧ packet.sender = client ∧ replica = .first ∧ Asked before ∧
        Replicated Holding before) ∨
      packet.msg = "stop" := by
  obtain ⟨_, first, second⟩ := client_apart distinct
  cases known with
  | replicate => exact Or.inl ⟨rfl, rfl⟩
  | stop => exact Or.inr (Or.inr rfl)
  | get asked replicated =>
      cases replica with
      | first => exact Or.inr (Or.inl ⟨rfl, rfl, rfl, asked, replicated⟩)
      | second => simp [Replica.node] at addressed
  | put | ack => cases replica <;> simp [Replica.node] at addressed
  | ok | value => cases replica <;> simp [Replica.node, first, second] at addressed

theorem Known.to_client (distinct : 2 < client) (known : Known client before packet)
    (addressed : packet.receiver = client) :
    packet.msg = "ok" ∧ packet.sender = 0 ∧ Replicated Holding before ∨
      packet.msg = "7" ∧ Asked before := by
  obtain ⟨primary, first, second⟩ := client_apart distinct
  cases known with
  | ok replicated => exact Or.inl ⟨rfl, rfl, replicated⟩
  | value asked => exact Or.inr ⟨rfl, asked⟩
  | replicate replica | stop replica =>
      cases replica
      · exact absurd addressed.symm first
      · exact absurd addressed.symm second
  | put | ack => exact absurd addressed.symm primary
  | get => exact absurd addressed.symm first

theorem primary_receives (distinct : 2 < client)
    (fits : PrimaryFits client before (before.locals .primary))
    (known : (outline client).known before packet) (addressed : packet.receiver = 0)
    {next : NodeId → String → Primary} (receives : (before.locals .primary).code = .recv next)
    (unrepeated : Unrepeated before (.deliver .primary packet)) :
    (outline client).Moves before
      ((before.become .primary (next packet.sender packet.msg)).handOver packet) .primary
      (next packet.sender packet.msg) := by
  refine ⟨trivial, fun follows => ?_⟩
  change PrimaryFits client _ _
  have began := Began.lasts follows known.1
  have known := known.2.to_primary distinct addressed
  obtain ⟨primary, same⟩ : ∃ primary, before.locals .primary = primary := ⟨_, rfl⟩
  rw [same] at fits receives
  cases fits with
  | serving =>
      cases receives
      rcases known with ⟨msg, sender⟩ | ⟨msg, _⟩
      · simpa [msg, sender] using PrimaryFits.sendingFirst began
      · simpa [msg] using .serving
  | countingNone =>
      cases receives
      rcases known with ⟨msg, _⟩ | ⟨msg, applied⟩
      · simpa [msg] using .countingNone
      · have counted : Counted Holding _ := ⟨packet, List.mem_cons_self, ⟨addressed, msg⟩,
          (Applied Holding _).lasts follows applied⟩
        simpa [msg, neededAcks] using PrimaryFits.countingOne counted
  | countingOne counted =>
      cases receives
      rcases known with ⟨msg, _⟩ | ⟨msg, applied⟩
      · simpa [msg] using PrimaryFits.countingOne ((Counted Holding).lasts follows counted)
      · -- Two acks of which neither repeats the other come from both followers.
        obtain ⟨earlier, handed, ⟨receiver, ack⟩, acked⟩ := counted
        have different := unrepeated (Or.inl msg) earlier handed (ack.trans msg.symm)
          (receiver.trans addressed.symm)
        have replicated := (Replicated Holding).lasts follows (replicated_of_two acked applied different)
        simpa [msg, neededAcks] using PrimaryFits.answering began replicated
  | _ => simp [Primary.code] at receives

theorem follower_receives (distinct : 2 < client) {replica : Replica}
    (fits : FollowerFits client before replica (before.locals (.follower replica)))
    (known : (outline client).known before packet) (addressed : packet.receiver = replica.node)
    {next : NodeId → String → Follower}
    (receives : (before.locals (.follower replica)).code = .recv next) :
    (outline client).Moves before
      ((before.become (.follower replica) (next packet.sender packet.msg)).handOver packet)
      (.follower replica) (next packet.sender packet.msg) := by
  have began := known.1
  have known := known.2.to_follower distinct replica addressed
  obtain ⟨follower, same⟩ : ∃ follower, before.locals (.follower replica) = follower := ⟨_, rfl⟩
  rw [same] at fits receives
  cases fits with
  | empty =>
      cases receives
      refine ⟨by simp [outline, keeps, same], fun follows => ?_⟩
      change FollowerFits client _ replica _
      rcases known with ⟨msg, sender⟩ | ⟨_, _, _, _, replicated⟩ | msg
      · simpa [msg, sender] using FollowerFits.acking (Began.lasts follows began)
      · -- A `get` is sent when both followers hold the value.
        exact absurd (replicated replica) (by simp [Holding, same])
      · simpa [msg] using .ended
  | holding =>
      cases receives
      rcases known with ⟨msg, sender⟩ | ⟨msg, sender, named, asked, _⟩ | msg
      · refine ⟨by simp [outline, keeps, msg], fun follows => ?_⟩
        change FollowerFits client _ replica _
        simpa [msg, sender] using FollowerFits.acking (Began.lasts follows began)
      · refine ⟨by simp [outline, keeps, msg], fun follows => ?_⟩
        change FollowerFits client _ replica _
        simpa [msg, sender] using FollowerFits.telling named (Asked.lasts follows asked)
      · refine ⟨by simp [outline, keeps, msg], fun _ => ?_⟩
        simpa [msg] using .ended
  | _ => simp [Follower.code] at receives

theorem client_receives (distinct : 2 < client)
    (fits : ClientFits client 7 (Answered client) before (before.locals .client).ops
      (before.locals .client).awaits.stage)
    (member : packet ∈ before.sent) (known : (outline client).known before packet)
    (addressed : packet.receiver = client) (late : packet.sentAt < before.now)
    {next : NodeId → String → Client}
    (receives : (before.locals .client).code client = .recv next)
    (unrepeated : Unrepeated before (.deliver .client packet)) :
    (outline client).Moves before
      ((before.become .client (next packet.sender packet.msg)).handOver packet) .client
      (next packet.sender packet.msg) := by
  have known := known.2.to_client distinct addressed
  obtain ⟨⟨ops, awaits⟩, same⟩ : ∃ state, before.locals .client = state := ⟨_, rfl⟩
  have asking : Asked before → awaits.stage.asked = true := by simp [Asked, same]
  rw [same] at fits receives
  cases awaits with
  | awaitingAck invoke =>
      cases receives
      rcases known with ⟨msg, sender, replicated⟩ | ⟨_, asked⟩
      · simp only [msg, if_true]
        refine .of same ⟨id, nofun⟩ fun follows => fits.acked member late ?_ follows
        exact ⟨(Replicated Holding).lasts follows replicated, packet, List.mem_cons_self, sender,
          addressed, msg⟩
      · -- No value was asked for yet.
        cases asking asked
  | awaitingValue invoke =>
      cases receives
      rcases known with ⟨msg, sender, _⟩ | ⟨msg, _⟩
      · -- A second `ok` would be read as no value.
        obtain ⟨_, earlier, handed, shape⟩ := fits.told (Or.inr rfl)
        exact absurd (shape.1.trans sender.symm) (unrepeated (Or.inr msg) earlier handed
          (shape.2.2.trans msg.symm) (shape.2.1.trans addressed.symm))
      · have parsed : parseOptionalI32 "7" = some 7 := by decide
        simp only [msg, parsed]
        exact .of same ⟨id, id⟩ fun follows => fits.observed follows
  | _ => cases receives

theorem outline_rules (distinct : 2 < client) (holds : (outline client).Holds before)
    (party : Party) : (outline client).Rule (deployment client) Unrepeated before party := by
  cases party with
  | primary =>
      have fits : PrimaryFits client before (before.locals .primary) := holds.parties .primary
      exact {
        sends := fun sends => ⟨trivial, fun follows => primary_sends fits sends follows⟩
        reads := fun reads => absurd reads (Primary.reads_never _ _)
        receives := fun _ known addressed _ unrepeated receives =>
          primary_receives distinct fits known addressed receives unrepeated }
  | follower replica =>
      have fits : FollowerFits client before replica (before.locals (.follower replica)) :=
        holds.parties (.follower replica)
      exact {
        sends := fun sends => follower_sends fits sends
        reads := fun reads => absurd reads (Follower.reads_never _ _)
        receives := fun _ known addressed _ _ receives =>
          follower_receives distinct fits known addressed receives }
  | client =>
      have fits : ClientFits client 7 (Answered client) before _ _ := holds.parties .client
      exact {
        sends := fun sends => client_sends holds sends
        reads := fun reads =>
          have read := Client.reads reads before.now
          ⟨read.keeps, fun follows => fits.reads read follows⟩
        receives := fun member known addressed late unrepeated receives =>
          client_receives distinct fits member known addressed late receives unrepeated }

end Steps

/-- Runs in which no ack and no `ok` is handed over twice are safe. -/
theorem kv_safe (client : NodeId) (distinct : 2 < client) (system : KvSystem)
    (reached : ReachedUnder (deployment client) KvSystem.start Unrepeated system) :
    Safe client system := by
  have holds : (outline client).Holds system := Outline.holds_of_reached UInt64.le_refl outline_start
    (fun _ holds party => outline_rules distinct holds party) reached
  exact safe_of_outline holds

/-- The second follower's ack is handed over twice, before the first follower was reached. -/
def repeatedAck : List KvEvent :=
  [.act .client, .act .client, .tick 1, .deliver .primary ⟨3, 0, "put:7", 0⟩, .act .primary,
    .act .primary, .tick 2, .deliver (.follower .second) ⟨0, 2, "replicate:7", 1⟩,
    .act (.follower .second), .tick 3, .deliver .primary ⟨2, 0, "ack", 2⟩,
    .deliver .primary ⟨2, 0, "ack", 2⟩]

/-- The client goes on to read from the first follower. -/
def staleRead : List KvEvent :=
  repeatedAck ++ [.act .primary, .tick 4, .deliver .client ⟨0, 3, "ok", 3⟩, .act .client,
    .act .client, .act .client, .tick 5, .deliver (.follower .first) ⟨3, 1, "get", 4⟩,
    .act (.follower .first), .tick 6, .deliver .client ⟨1, 3, "none", 5⟩, .act .client]

/-- The same run without the repetition, up to the value read. -/
def freshRead : List KvEvent :=
  [.act .client, .act .client, .tick 1, .deliver .primary ⟨3, 0, "put:7", 0⟩, .act .primary,
    .act .primary, .tick 2, .deliver (.follower .second) ⟨0, 2, "replicate:7", 1⟩,
    .act (.follower .second), .deliver (.follower .first) ⟨0, 1, "replicate:7", 1⟩,
    .act (.follower .first), .tick 3, .deliver .primary ⟨2, 0, "ack", 2⟩,
    .deliver .primary ⟨1, 0, "ack", 2⟩, .act .primary, .tick 4, .deliver .client ⟨0, 3, "ok", 3⟩,
    .act .client, .act .client, .act .client, .tick 5,
    .deliver (.follower .first) ⟨3, 1, "get", 4⟩, .act (.follower .first), .tick 6,
    .deliver .client ⟨1, 3, "7", 5⟩, .act .client]

theorem kv_safe_fresh_read :
    ∃ system, runUnder (deployment 3) Unrepeated KvSystem.start freshRead = some system ∧
      Safe 3 system := by
  obtain ⟨system, ran⟩ := Option.isSome_iff_exists.mp
    (by decide : (runUnder (deployment 3) Unrepeated KvSystem.start freshRead).isSome = true)
  exact ⟨system, ran, kv_safe 3 (by decide) system (reachedUnder_of_run _ _ _ .start ran)⟩

theorem kv_unsafe_when_repeated :
    (∃ system, Reached (deployment 3) KvSystem.start system ∧
      (∃ next, (deployment 3).code .primary (system.locals .primary) = .send 3 "ok" next) ∧
      (system.locals (.follower .first)).value = none) ∧
    ∃ system, Reached (deployment 3) KvSystem.start system ∧
      ¬ Linearizes (singleKeyKv none) (recordedHistory (system.locals .client).ops) := by
  constructor
  · obtain ⟨system, ran, seen⟩ := Option.map_eq_some_iff.mp
      (by decide : (runUnder (deployment 3) (fun _ _ => True) KvSystem.start repeatedAck).map
        (fun system => (system.locals .primary, (system.locals (.follower .first)).value)) =
          some (.answering 3, none))
    obtain ⟨primary, value⟩ := Prod.mk.inj seen
    exact ⟨system, reachedUnder_of_run _ _ _ .start ran, ⟨.ended, by rw [primary]; rfl⟩, value⟩
  · obtain ⟨system, ran, ops⟩ := Option.map_eq_some_iff.mp
      (by decide : (runUnder (deployment 3) (fun _ _ => True) KvSystem.start staleRead).map
        (fun system => (system.locals .client).ops) =
          some [.kvPut 1 3 7 0 4, .kvGet 2 3 none 4 6])
    refine ⟨system, reachedUnder_of_run _ _ _ .start ran, ?_⟩
    rw [ops]
    exact notLinearizable_sound (singleKeyKv none) (recordedHistory
      [.kvPut 1 3 7 0 4, .kvGet 2 3 none 4 6]) ⟨10⟩ (by decide)

end Detersim.PrimaryBackup
