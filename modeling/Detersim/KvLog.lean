import Detersim.KvOutline
import Detersim.LogRoundTrip
import Detersim.Traffic

/-!
The variant that applies a request twice, on a medium that makes no copies. Its
answer to the append is then handed over once, so what the client reads is the
list of entries, and the parser of the log gets every line back.
-/

namespace Detersim.KvVariants

open Datagrams
open PrimaryBackup (Follower Replica Party client_apart)

/-- Neither the append nor its answer is handed over twice. -/
def Once (system : KvSystem) : KvEvent → Prop
  | .deliver _ packet => packet.msg = "append:x" ∨ packet.msg = "index:0" →
      ∀ earlier ∈ system.delivered, earlier.msg = packet.msg → earlier.receiver = packet.receiver →
        earlier.sender ≠ packet.sender
  | .tick _ | .act _ => True

def Handed (sender receiver : NodeId) (msg : String) : Lasting NodeId String SimTime keeps :=
  .handed fun packet =>
    .fact (packet.sender = sender ∧ packet.receiver = receiver ∧ packet.msg = msg)

namespace Log

inductive Known (client : NodeId) (system : KvSystem) : Packet NodeId String SimTime → Prop where
  | append {time} : Known client system ⟨client, 0, "append:x", time⟩
  | readAll {time} : Asked system → Known client system ⟨client, 0, "read_all", time⟩
  | index {time} : Known client system ⟨0, client, "index:0", time⟩
  | entries {msg time} : Asked system → ':' ∉ msg.toList → Known client system ⟨0, client, msg, time⟩

inductive PrimaryFits (client : NodeId) (system : KvSystem) : Primary → Prop where
  | empty : PrimaryFits client system (.logging [])
  | doubled : Handed client 0 "append:x" system → PrimaryFits client system (.logging ["x", "x"])
  | indexing : Handed client 0 "append:x" system →
      PrimaryFits client system (.answering client "index:0" ["x", "x"] true)
  | reading {response entries} : Asked system → ':' ∉ response.toList →
      PrimaryFits client system (.answering client response entries false)
  | ended : PrimaryFits client system .ended

inductive ClientAwaits (client : NodeId) (system : KvSystem) : ClientAt → Prop where
  | start : ClientAwaits client system .start
  | sendingAppend {invoke} : ClientAwaits client system (.sendingAppend invoke)
  | awaitingIndex {invoke} : ClientAwaits client system (.awaitingIndex invoke)
  | indexed {awaits} : Handed 0 client "index:0" system →
      ((∃ index invoke, awaits = .appendDone index invoke) ∨ awaits = .beforeReadAll ∨
        (∃ invoke, awaits = .sendingReadAll invoke) ∨ ∃ invoke, awaits = .awaitingEntries invoke) →
      ClientAwaits client system awaits
  | readDone {entries invoke} : (∀ id process complete,
      (RecordedOp.logRead id process entries invoke complete).LogSeparable) →
      ClientAwaits client system (.readDone entries invoke)
  | ended : ClientAwaits client system .ended

structure ClientFits (client : NodeId) (system : KvSystem) (state : Client) : Prop where
  separable : ∀ op ∈ state.ops, op.LogSeparable
  awaits : ClientAwaits client system state.awaits

def Fits (client : NodeId) (system : KvSystem) : (party : Party) → Local party → Prop
  | .primary => PrimaryFits client system
  | .follower _ => fun follower => follower.awaits = .serving
  | .client => ClientFits client system

section Stable

variable {client : NodeId} {before after : KvSystem} (follows : Follows keeps before after)
include follows

theorem known_follows {packet : Packet NodeId String SimTime}
    (known : Known client before packet) : Known client after packet := by
  cases known with
  | append => exact .append
  | readAll asked => exact .readAll (Asked.lasts follows asked)
  | index => exact .index
  | entries asked plain => exact .entries (Asked.lasts follows asked) plain

theorem primaryFits_follows {primary : Primary} (fits : PrimaryFits client before primary) :
    PrimaryFits client after primary := by
  cases fits with
  | empty => exact .empty
  | doubled handed => exact .doubled ((Handed _ _ _).lasts follows handed)
  | indexing handed => exact .indexing ((Handed _ _ _).lasts follows handed)
  | reading asked plain => exact .reading (Asked.lasts follows asked) plain
  | ended => exact .ended

theorem clientFits_follows {state : Client} (fits : ClientFits client before state) :
    ClientFits client after state := by
  obtain ⟨ops, awaits⟩ := state
  obtain ⟨separable, fits⟩ := fits
  refine ⟨separable, ?_⟩
  cases fits with
  | start => exact .start
  | sendingAppend => exact .sendingAppend
  | awaitingIndex => exact .awaitingIndex
  | indexed handed awaits => exact .indexed ((Handed _ _ _).lasts follows handed) awaits
  | readDone plain => exact .readDone plain
  | ended => exact .ended

end Stable

def outline (client : NodeId) : Outline NodeId String SimTime Local where
  keeps := keeps
  fits := Fits client
  known := Known client
  keeps_refl := keeps_refl
  fits_stable follows party state fits := by
    cases party with
    | primary => exact primaryFits_follows follows fits
    | follower replica => exact fits
    | client => exact clientFits_follows follows fits
  known_stable follows packet known := known_follows follows known

theorem colon_ne_comma : ':' ≠ ',' := by decide

/-- Entries read from a text without a colon. -/
theorem parseEntries_separable {msg : String} (plain : ':' ∉ msg.toList) (id : UInt64)
    (process : UInt32) (invoke complete : SimTime) :
    (RecordedOp.logRead id process (parseEntries msg) invoke complete).LogSeparable := by
  have text := intercalate_parseEntries msg
  refine ⟨fun entry member => ⟨fun colon => ?_, ?_⟩, fun lone => ?_⟩
  · have inside : ':' ∈ (",".intercalate (parseEntries msg)).toList :=
      (mem_intercalate_iff colon_ne_comma _).mpr ⟨entry, member, colon⟩
    rw [text] at inside
    exact plain inside
  · rw [parseEntries] at member
    split_ifs at member
    · cases member
    · exact notMem_of_mem_splitChar member
  · rw [lone] at text
    subst text
    exact absurd lone (by decide)

section Steps

variable {client : NodeId} {before after : KvSystem} {packet : Packet NodeId String SimTime}

theorem outline_start : (outline client).Holds (KvSystem.start .duplicateRequestReapplied) where
  parties party := by
    cases party with
    | primary => exact .empty
    | follower replica => exact rfl
    | client => exact ⟨by rintro _ ⟨⟩, .start⟩
  packets _ member := absurd member List.not_mem_nil

theorem primary_sends (fits : PrimaryFits client before (before.locals .primary))
    {receiver : NodeId} {msg : String} {next : Primary}
    (sends : (before.locals .primary).code .duplicateRequestReapplied = .send receiver msg next)
    (follows : Follows keeps before after) :
    PrimaryFits client after next ∧ Known client after ⟨0, receiver, msg, before.now⟩ := by
  obtain ⟨primary, same⟩ : ∃ primary, before.locals .primary = primary := ⟨_, rfl⟩
  rw [same] at fits sends
  cases fits with
  | indexing handed =>
      cases sends
      exact ⟨.doubled ((Handed _ _ _).lasts follows handed), .index⟩
  | reading asked plain =>
      cases sends
      exact ⟨.ended, .entries (Asked.lasts follows asked) plain⟩
  | empty | doubled | ended => cases sends

theorem client_sends (fits : ClientFits client before (before.locals .client)) {receiver : NodeId}
    {msg : String} {next : Client}
    (sends : (before.locals .client).code .duplicateRequestReapplied client =
      .send receiver msg next) :
    let after := (before.become .client next).send client receiver msg
    keeps .client (before.locals .client) next ∧ (Follows keeps before after →
      ClientFits client after next ∧ Known client after ⟨client, receiver, msg, before.now⟩) := by
  dsimp only
  obtain ⟨⟨ops, awaits⟩, same⟩ : ∃ state, before.locals .client = state := ⟨_, rfl⟩
  rw [same] at fits sends ⊢
  obtain ⟨separable, fits⟩ := fits
  cases fits with
  | sendingAppend =>
      cases sends
      exact ⟨⟨nofun, nofun⟩, fun _ => ⟨⟨separable, .awaitingIndex⟩, .append⟩⟩
  | indexed handed awaits =>
      rcases awaits with ⟨index, invoke, rfl⟩ | rfl | ⟨invoke, rfl⟩ | ⟨invoke, rfl⟩
      · cases sends
      · cases sends
      · cases sends
        refine ⟨⟨id, nofun⟩, fun follows => ⟨⟨separable, ?_⟩, .readAll rfl⟩⟩
        exact .indexed ((Handed _ _ _).lasts follows handed)
          (Or.inr (Or.inr (Or.inr ⟨invoke, rfl⟩)))
      · cases sends
  | start | awaitingIndex | readDone | ended => cases sends

theorem client_reads (fits : ClientFits client before (before.locals .client))
    {next : SimTime → Client}
    (reads : (before.locals .client).code .duplicateRequestReapplied client = .now next) :
    (outline client).Moves before (before.become .client (next before.now)) .client
      (next before.now) := by
  obtain ⟨⟨ops, awaits⟩, same⟩ : ∃ state, before.locals .client = state := ⟨_, rfl⟩
  rw [same] at fits reads
  obtain ⟨separable, fits⟩ := fits
  have recorded {op : RecordedOp} (plain : op.LogSeparable) :
      ∀ other ∈ ops ++ [op], other.LogSeparable := by
    intro other member
    rcases List.mem_append.mp member with old | new
    · exact separable other old
    · exact List.mem_singleton.mp new ▸ plain
  cases fits with
  | start =>
      cases reads
      exact .of same ⟨nofun, nofun⟩ fun _ => ⟨by rintro _ ⟨⟩, .sendingAppend⟩
  | indexed handed awaits =>
      rcases awaits with ⟨index, invoke, rfl⟩ | rfl | ⟨invoke, rfl⟩ | ⟨invoke, rfl⟩
      · cases reads
        exact .of same ⟨id, id⟩ fun follows => ⟨recorded (by decide : ':' ∉ "x".toList),
          .indexed ((Handed _ _ _).lasts follows handed) (Or.inr (Or.inl rfl))⟩
      · cases reads
        exact .of same ⟨id, id⟩ fun follows => ⟨separable,
          .indexed ((Handed _ _ _).lasts follows handed) (Or.inr (Or.inr (Or.inl ⟨_, rfl⟩)))⟩
      · cases reads
      · cases reads
  | readDone plain =>
      cases reads
      exact .of same ⟨id, id⟩ fun _ => ⟨recorded (plain _ _ _), .ended⟩
  | sendingAppend | awaitingIndex | ended => cases reads

theorem primary_receives (distinct : 2 < client)
    (fits : PrimaryFits client before (before.locals .primary)) (known : Known client before packet)
    (addressed : packet.receiver = 0) (once : Once before (.deliver .primary packet))
    {next : NodeId → String → Primary}
    (receives : (before.locals .primary).code .duplicateRequestReapplied = .recv next) :
    (outline client).Moves before
      ((before.become .primary (next packet.sender packet.msg)).handOver packet) .primary
      (next packet.sender packet.msg) := by
  refine ⟨trivial, fun follows => ?_⟩
  change PrimaryFits client _ (next packet.sender packet.msg)
  obtain ⟨apart, _, _⟩ := client_apart distinct
  have handed : Handed packet.sender packet.receiver packet.msg
      ((before.become .primary (next packet.sender packet.msg)).handOver packet) :=
    ⟨packet, List.mem_cons_self, rfl, rfl, rfl⟩
  obtain ⟨primary, same⟩ : ∃ primary, before.locals .primary = primary := ⟨_, rfl⟩
  rw [same] at fits receives
  cases known with
  | append =>
      cases fits with
      | empty =>
          cases receives
          exact .indexing handed
      | doubled handed =>
          -- The log is doubled once only.
          obtain ⟨earlier, member, sender, receiver, msg⟩ := handed
          exact absurd sender (once (Or.inl rfl) earlier member msg receiver)
      | indexing | reading | ended => cases receives
  | readAll asked =>
      have asked := Asked.lasts follows asked
      cases fits with
      | empty =>
          cases receives
          exact .reading asked (by decide)
      | doubled =>
          cases receives
          exact .reading asked (by decide)
      | indexing | reading | ended => cases receives
  | index | entries => exact absurd addressed apart

theorem client_receives (distinct : 2 < client)
    (fits : ClientFits client before (before.locals .client)) (known : Known client before packet)
    (addressed : packet.receiver = client) (once : Once before (.deliver .client packet))
    {next : NodeId → String → Client}
    (receives : (before.locals .client).code .duplicateRequestReapplied client = .recv next) :
    (outline client).Moves before
      ((before.become .client (next packet.sender packet.msg)).handOver packet) .client
      (next packet.sender packet.msg) := by
  obtain ⟨apart, _, _⟩ := client_apart distinct
  obtain ⟨⟨ops, awaits⟩, same⟩ : ∃ state, before.locals .client = state := ⟨_, rfl⟩
  have asking : Asked before → awaits.asked = true := by simp [Asked, same]
  rw [same] at fits receives
  obtain ⟨separable, fits⟩ := fits
  cases known with
  | index =>
      cases fits with
      | awaitingIndex =>
          cases receives
          exact .of same ⟨id, (absurd · Bool.false_ne_true)⟩ fun _ => ⟨separable,
            .indexed ⟨_, List.mem_cons_self, rfl, rfl, rfl⟩ (Or.inl ⟨_, _, rfl⟩)⟩
      | indexed handed awaits =>
          -- The answer to the append was handed over before.
          obtain ⟨earlier, member, sender, receiver, msg⟩ := handed
          exact absurd sender (once (Or.inr rfl) earlier member msg receiver)
      | start | sendingAppend | readDone | ended => cases receives
  | entries asked plain =>
      have asked := asking asked
      cases fits with
      | awaitingIndex => cases asked
      | indexed handed awaits =>
          rcases awaits with ⟨index, invoke, rfl⟩ | rfl | ⟨invoke, rfl⟩ | ⟨invoke, rfl⟩
          · cases receives
          · cases receives
          · cases receives
          · cases receives
            exact .of same ⟨id, id⟩ fun _ => ⟨separable, .readDone fun id process complete =>
              parseEntries_separable plain id process invoke complete⟩
      | start | sendingAppend | readDone | ended => cases receives
  | append | readAll => exact absurd addressed.symm apart

theorem follower_idle {follower : Follower} (idle : follower.awaits = .serving) (receiver : NodeId)
    (msg : String) (next : Follower) : follower.code ≠ .send receiver msg next := by
  obtain ⟨value, awaits⟩ := follower
  cases idle
  exact nofun

/-- The log is not replicated. -/
theorem Known.receiver_ne (distinct : 2 < client) (known : Known client before packet)
    (replica : Replica) : packet.receiver ≠ replica.node := by
  obtain ⟨_, first, second⟩ := client_apart distinct
  cases known with
  | append | readAll => cases replica <;> exact nofun
  | index | entries =>
      cases replica
      · exact first
      · exact second

theorem outline_rules (distinct : 2 < client) (holds : (outline client).Holds before)
    (party : Party) :
    (outline client).Rule (deployment .duplicateRequestReapplied client) Once before party := by
  cases party with
  | primary =>
      have fits : PrimaryFits client before (before.locals .primary) := holds.parties .primary
      exact {
        sends := fun sends => ⟨trivial, fun follows => primary_sends fits sends follows⟩
        reads := fun reads => absurd reads (Primary.reads_never _ _)
        receives := fun _ known addressed _ once receives =>
          primary_receives distinct fits known addressed once receives }
  | follower replica =>
      have idle : (before.locals (.follower replica)).awaits = .serving :=
        holds.parties (.follower replica)
      exact {
        sends := fun sends => absurd sends (follower_idle idle _ _ _)
        reads := fun reads => absurd reads (Follower.reads_never _ _)
        receives := fun _ known addressed _ _ _ =>
          absurd addressed (Known.receiver_ne distinct known replica) }
  | client =>
      have fits : ClientFits client before (before.locals .client) := holds.parties .client
      exact {
        sends := fun sends => client_sends fits sends
        reads := fun reads => client_reads fits reads
        receives := fun _ known addressed _ once receives =>
          client_receives distinct fits known addressed once receives }

end Steps

/-! What is sent once. -/

def owesAppend (state : Client) : Nat := match state.awaits with
  | .start | .sendingAppend _ => 1
  | _ => 0

def owesIndex (client : NodeId) : Primary → Nat
  | .answering receiver response _ _ => if receiver = client ∧ response = "index:0" then 1 else 0
  | _ => 0

/-- The answer of the primary to the append is the only text of its form. -/
def Plain (primary : Primary) : Prop :=
  (∀ entries, primary = .logging entries → Doubled entries) ∧
    ∀ receiver msg rest stays, primary = .working (.send receiver msg) rest stays → msg ≠ "index:0"

theorem owesIndex_turn (client : NodeId) (jobs : List Job) (stays : Bool) :
    owesIndex client (.turn jobs stays) = 0 := by
  cases jobs with
  | cons => rfl
  | nil => cases stays <;> rfl

theorem owesIndex_serve (client : NodeId) (bug : KvBugVariant) (sender : NodeId) (msg : String) :
    owesIndex client (.serve bug sender msg) = 0 := by
  unfold Primary.serve
  split_ifs
  · cases bug <;> rfl
  · exact owesIndex_turn client _ _
  · rfl

theorem join_ne_index {entries : List String} (even : Doubled entries) :
    ",".intercalate entries ≠ "index:0" := by
  intro same
  obtain ⟨count, rfl⟩ := even
  have colon : ':' ∈ (",".intercalate (List.replicate (2 * count) "x")).toList := by
    rw [same]
    decide
  obtain ⟨entry, member, inside⟩ :=
    (mem_intercalate_iff colon_ne_comma _).mp colon
  rw [List.eq_of_mem_replicate member] at inside
  exact absurd inside (by decide)

/-- The primary is asked for an index by the append of this client. -/
def appends (client sender : NodeId) (msg : String) : Bool :=
  decide (sender = client ∧ msg = "append:x")

section Counts

variable {client : NodeId} {allowed : KvSystem → KvEvent → Prop} {system : KvSystem}

theorem appends_once (bug : KvBugVariant) :
    Owes (deployment bug client) .client 0 "append:x" (fun _ => True) (fun _ _ => false)
      owesAppend where
  send state target text next _ sends := by
    obtain ⟨ops, awaits⟩ := state
    cases awaits with
    | start => cases bug with
      | followerAppliesUncommitted =>
          cases sends
          simp [owesAppend]
      | _ => cases sends
    | sendingPut | sendingSecond | sendingGet | stoppingFirst | stoppingSecond | sendingAppend
    | sendingReadAll =>
        cases sends
        simp [owesAppend]
    | _ => cases sends
  now state next time _ reads := by
    obtain ⟨ops, awaits⟩ := state
    cases awaits with
    | start => cases bug <;> cases reads <;> simp [owesAppend]
    | putDone | sleeping | getDone =>
        cases reads
        simp only [owesAppend, Client.afterPut]
        split_ifs <;> rfl
    | beforeSecond | secondDone | beforeGet | beforeSleep | appendDone | beforeReadAll | readDone =>
        cases reads
        rfl
    | _ => cases reads
  recv state next sender text _ receives := by
    obtain ⟨ops, awaits⟩ := state
    cases awaits with
    | start => cases bug <;> cases receives
    | awaitingAck | awaitingSecond =>
        cases receives
        simp only [owesAppend, Client.afterPut]
        split_ifs <;> rfl
    | awaitingValue | awaitingIndex | awaitingEntries =>
        cases receives
        rfl
    | _ => cases receives

theorem indexes_appended :
    Owes (deployment .duplicateRequestReapplied client) .primary client "index:0" Plain
      (appends client) (owesIndex client) where
  send state target text next plain sends := by
    cases state with
    | working job rest stays => cases job with
      | send receiver msg =>
          cases sends
          rw [owesIndex_turn, if_neg fun same => plain.2 _ _ _ _ rfl same.2]
          rfl
      | waitForAcks => cases sends
    | answering receiver response entries stays =>
        cases sends
        cases stays <;> simp [owesIndex]
    | serving | logging | ended => cases sends
  now state next time _ reads := by
    cases state with
    | working job rest stays => cases job <;> cases reads
    | _ => cases reads
  recv state next sender text plain receives := by
    cases state with
    | serving =>
        cases receives
        rw [owesIndex_serve]
        exact Nat.zero_le _
    | working job rest stays => cases job with
      | send => cases receives
      | waitForAcks missing =>
          cases receives
          dsimp only
          split_ifs
          · exact Nat.zero_le _
          · rw [owesIndex_turn]
            exact Nat.zero_le _
          · exact Nat.zero_le _
    | logging entries =>
        cases receives
        rw [Primary.serveLog]
        by_cases append : text = "append:x"
        · rw [if_pos append]
          by_cases own : sender = client
          · simp only [owesIndex, appends, append, own]
            split_ifs <;> simp
          · simp [owesIndex, own]
        · rw [if_neg append]
          split_ifs
          · simp [owesIndex, join_ne_index (plain.1 entries rfl)]
          · exact Nat.zero_le _
    | answering | ended => cases receives

theorem plain_of_reached (distinct : 2 < client) (system : KvSystem)
    (reached : ReachedUnder (deployment .duplicateRequestReapplied client)
      (KvSystem.start .duplicateRequestReapplied) allowed system) :
    Plain (system.locals .primary) := by
  have holds : (KvVariants.outline .duplicateRequestReapplied false client).Holds system :=
    Outline.holds_of_reached UInt64.le_refl KvVariants.outline_start
      (fun _ holds party => KvVariants.outline_rules distinct holds party)
      (reached.weaken fun _ event _ => by cases event <;> simp [Allowed])
  have fits : KvVariants.PrimaryFits .duplicateRequestReapplied client system
      (system.locals .primary) := holds.parties .primary
  generalize system.locals .primary = primary at fits ⊢
  constructor
  · rintro entries rfl
    cases fits with
    | logging _ even => exact even
  · rintro receiver msg rest stays rfl
    cases fits with
    | working _ serves =>
        cases serves _ _ List.mem_cons_self <;> decide

theorem indexed_le (distinct : 2 < client) (sparing : ∀ system event, allowed system event →
      Sparing system event)
    (reached : ReachedUnder (deployment .duplicateRequestReapplied client)
      (KvSystem.start .duplicateRequestReapplied) allowed system) :
    system.sent.countP (carries client 0 "append:x") ≤ 1 ∧
      system.sent.countP (carries 0 client "index:0") ≤ 1 := by
  have apart := deployment_apart .duplicateRequestReapplied distinct
  have appended := (appends_once .duplicateRequestReapplied).sent_le apart rfl
    (fun _ _ => trivial) reached
  rw [countP_asked_none] at appended
  change system.sent.countP (carries client 0 "append:x") + _ ≤ 1 + 0 at appended
  have indexed := indexes_appended.sent_le apart rfl (plain_of_reached distinct) reached
  change system.sent.countP (carries 0 client "index:0") + _ ≤
    0 + system.delivered.countP (asked 0 (appends client)) at indexed
  have same : (asked 0 (appends client) : Packet NodeId String SimTime → Bool) = carries client 0 "append:x" := by
    funext packet
    simp only [asked, appends, carries, ← Bool.decide_and]
    exact decide_eq_decide.mpr (by tauto)
  rw [same] at indexed
  have handed := delivered_le_sent rfl sparing reached client 0 "append:x"
  omega

/-- The lines of the log can be told apart, at any time. -/
theorem log_separable (distinct : 2 < client) (sparing : ∀ system event, allowed system event →
      Sparing system event)
    (reached : ReachedUnder (deployment .duplicateRequestReapplied client)
      (KvSystem.start .duplicateRequestReapplied) allowed system) :
    ∀ op ∈ (system.locals .client).ops, op.LogSeparable := by
  have holds : (outline client).Holds system := by
    induction reached with
    | start => exact outline_start
    | @step before event after earlier allows happens ih =>
        refine ih.step UInt64.le_refl (outline_rules distinct ih) ?_ happens
        cases event with
        | tick | act => trivial
        | deliver party packet =>
            intro msg
            obtain ⟨appended, indexed⟩ := indexed_le distinct sparing earlier
            refine Sparing.fresh (sparing _ _ allows) ?_
            have member : packet ∈ before.sent := by
              cases happens
              assumption
            cases ih.packets packet member with
            | append => exact appended
            | index => exact indexed
            | readAll => simp at msg
            | entries _ plain =>
                rcases msg with rfl | rfl
                · exact absurd plain (by decide)
                · exact absurd plain (by decide)
  have fits : ClientFits client system (system.locals .client) := holds.parties .client
  exact fits.separable

end Counts

end Log

end Detersim.KvVariants
