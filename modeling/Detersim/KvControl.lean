import Detersim.KvVariants
import Detersim.PrimaryBackupSafety
import Detersim.Traffic

/-!
The correct variant of the store. Its runs are those of the primary-backup model,
and where nothing is handed over more often than it was sent no acknowledgement
is repeated, so they are safe.
-/

namespace Detersim

namespace PrimaryBackup

open Datagrams

/-! What each party sends once. -/

def Primary.owesReplica : Replica → Primary → Nat
  | .first, .serving | .first, .sendingFirst _ => 1
  | .second, .serving | .second, .sendingFirst _ | .second, .sendingSecond _ => 1
  | _, _ => 0

def Primary.owesAnswer : Primary → Nat
  | .ended => 0
  | _ => 1

def Follower.owesAck (follower : Follower) : Nat :=
  if follower.awaits = .acking 0 then 1 else 0

/-- A value replicated by the primary asks for an acknowledgement. -/
def replicates (sender : NodeId) (msg : String) : Bool :=
  decide (sender = 0 ∧ (msg = "replicate:7" ∨ msg = "replicate:9"))

theorem kvValueMsg_ne_ack (value : Option Int32) : kvValueMsg value ≠ "ack" := by
  cases value with
  | none => decide
  | some value =>
      have letter : 'a' ∈ "ack".toList := by decide
      exact (Numerals.signed_repr value.toInt).ne_of_letter 'a' letter (by decide) (by decide)
        (by decide)

section Counts

variable {client : NodeId}

theorem replicates_once (replica : Replica) :
    Owes (deployment client) .primary replica.node "replicate:7" (fun _ => True)
      (fun _ _ => false) (Primary.owesReplica replica) where
  send state target text next _ sends := by
    cases replica <;> cases state <;> cases sends <;> simp [Primary.owesReplica, Replica.node]
  now state next time _ reads := by cases state <;> cases reads
  recv state next sender text _ receives := by
    cases state <;> cases receives <;> cases replica <;> dsimp only <;> split_ifs <;>
      simp [Primary.owesReplica]

theorem second_value_never (replica : Replica) :
    Owes (deployment client) .primary replica.node "replicate:9" (fun _ => True)
      (fun _ _ => false) (fun _ => 0) where
  send state target text next _ sends := by
    cases state <;> cases sends <;> simp
  now state next time _ reads := le_rfl
  recv state next sender text _ receives := Nat.zero_le _

theorem answers_once (target : NodeId) :
    Owes (deployment client) .primary target "ok" (fun _ => True) (fun _ _ => false)
      Primary.owesAnswer where
  send state receiver text next _ sends := by
    cases state <;> cases sends <;> simp [Primary.owesAnswer]
    split_ifs <;> omega
  now state next time _ reads := by cases state <;> cases reads
  recv state next sender text _ receives := by
    cases state <;> cases receives <;> dsimp only <;> split_ifs <;> simp [Primary.owesAnswer]

theorem acks_replicated (replica : Replica) :
    Owes (deployment client) (.follower replica) 0 "ack" (fun _ => True) replicates
      Follower.owesAck where
  send state receiver text next _ sends := by
    obtain ⟨value, awaits⟩ := state
    cases awaits with
    | acking sender =>
        cases sends
        by_cases primary : receiver = 0 <;> simp [Follower.owesAck, primary]
    | telling reader =>
        cases sends
        simp [Follower.owesAck, kvValueMsg_ne_ack]
    | serving | ended => cases sends
  now state next time _ reads := by
    obtain ⟨value, awaits⟩ := state
    cases awaits <;> cases reads
  recv state next sender text _ receives := by
    obtain ⟨value, awaits⟩ := state
    cases awaits with
    | serving =>
        cases receives
        by_cases primary : sender = 0 <;> dsimp only <;> split_ifs <;>
          simp_all [Follower.owesAck, replicates]
    | acking | telling | ended => cases receives

variable {allowed : KvSystem → KvEvent → Prop} {system : KvSystem}

theorem replicated_le (distinct : 2 < client)
    (reached : ReachedUnder (deployment client) KvSystem.start allowed system) (replica : Replica) :
    system.sent.countP (carries 0 replica.node "replicate:7") ≤ 1 ∧
      system.sent.countP (carries 0 replica.node "replicate:9") = 0 := by
  have once := (replicates_once replica).sent_le (deployment_apart distinct) rfl
    (fun _ _ => trivial) reached
  have never := (second_value_never replica).sent_le (deployment_apart distinct) rfl
    (fun _ _ => trivial) reached
  rw [countP_asked_none] at once never
  have start : Primary.owesReplica replica .serving = 1 := by cases replica <;> rfl
  change system.sent.countP (carries 0 replica.node "replicate:7") + _ ≤
    Primary.owesReplica replica .serving + 0 at once
  change system.sent.countP (carries 0 replica.node "replicate:9") + 0 ≤ 0 + 0 at never
  exact ⟨by omega, Nat.le_zero.mp never⟩

theorem answered_le (distinct : 2 < client)
    (reached : ReachedUnder (deployment client) KvSystem.start allowed system) (target : NodeId) :
    system.sent.countP (carries 0 target "ok") ≤ 1 := by
  have once := (answers_once target).sent_le (deployment_apart distinct) rfl
    (fun _ _ => trivial) reached
  rw [countP_asked_none] at once
  change system.sent.countP (carries 0 target "ok") + _ ≤ 1 + 0 at once
  omega

/-- A follower acknowledges once what it was sent once. -/
theorem acked_le (distinct : 2 < client) (sparing : ∀ system event, allowed system event →
      Sparing system event)
    (reached : ReachedUnder (deployment client) KvSystem.start allowed system) (replica : Replica) :
    system.sent.countP (carries replica.node 0 "ack") ≤ 1 := by
  have once := (acks_replicated replica).sent_le (deployment_apart distinct) rfl
    (fun _ _ => trivial) reached
  change system.sent.countP (carries replica.node 0 "ack") + _ ≤
    0 + system.delivered.countP (asked replica.node replicates) at once
  have either : system.delivered.countP (asked replica.node replicates) ≤
      system.delivered.countP (carries 0 replica.node "replicate:7") +
        system.delivered.countP (carries 0 replica.node "replicate:9") := by
    apply countP_le_add
    intro packet
    simp only [asked, replicates, carries, Bool.and_eq_true, decide_eq_true_eq]
    tauto
  have first := delivered_le_sent rfl sparing reached 0 replica.node "replicate:7"
  have second := delivered_le_sent rfl sparing reached 0 replica.node "replicate:9"
  obtain ⟨few, none_⟩ := replicated_le distinct reached replica
  omega

/-- Nothing that matters is repeated by a medium that makes no copies. -/
theorem unrepeated_of_sparing (distinct : 2 < client) (sparing : ∀ system event,
      allowed system event → Sparing system event)
    (reached : ReachedUnder (deployment client) KvSystem.start allowed system)
    (holds : (outline client).Holds system) {event : KvEvent} {next : KvSystem}
    (allows : allowed system event) (happens : Happens (deployment client) system event next) :
    Unrepeated system event := by
  cases happens with
  | tick | send | now => trivial
  | recv member addressed late code =>
      intro msg
      obtain ⟨_, known⟩ := holds.packets _ member
      refine Sparing.fresh (sparing _ _ allows) ?_
      cases known with
      | ack applied =>
          obtain ⟨replica, rfl, _⟩ := applied
          exact acked_le distinct sparing reached replica
      | ok => exact answered_le distinct reached _
      | put | replicate | get | value | stop => simp at msg

/-- The store is safe on such a medium. -/
theorem safe_of_sparing (distinct : 2 < client) (sparing : ∀ system event,
      allowed system event → Sparing system event)
    (reached : ReachedUnder (deployment client) KvSystem.start allowed system) :
    Safe client system := by
  have holds : (outline client).Holds system := by
    induction reached with
    | start => exact outline_start
    | step earlier allows happens ih =>
        exact ih.step UInt64.le_refl (outline_rules distinct ih)
          (unrepeated_of_sparing distinct sparing earlier ih allows happens) happens
  exact safe_of_outline holds

end Counts

end PrimaryBackup

namespace KvVariants

open Datagrams
open PrimaryBackup (Replica Party)

/-! The points of the correct variant, matched with those of the store's own model. -/

inductive SamePrimary : Primary → PrimaryBackup.Primary → Prop where
  | serving : SamePrimary .serving .serving
  | sendingFirst {client} : SamePrimary (.working (.send 1 "replicate:7")
      [.send 2 "replicate:7", .waitForAcks 2, .send client "ok"] false) (.sendingFirst client)
  | sendingSecond {client} : SamePrimary (.working (.send 2 "replicate:7")
      [.waitForAcks 2, .send client "ok"] false) (.sendingSecond client)
  | countingNone {client} : SamePrimary (.working (.waitForAcks 2) [.send client "ok"] false)
      (.counting client 0)
  | countingOne {client} : SamePrimary (.working (.waitForAcks 1) [.send client "ok"] false)
      (.counting client 1)
  | answering {client} : SamePrimary (.working (.send client "ok") [] false) (.answering client)
  | ended : SamePrimary .ended .ended

inductive SameAt : ClientAt → PrimaryBackup.ClientAt → Prop where
  | start : SameAt .start .start
  | sendingPut {invoke} : SameAt (.sendingPut invoke) (.sendingPut invoke)
  | awaitingAck {invoke} : SameAt (.awaitingAck invoke) (.awaitingAck invoke)
  | putDone {invoke} : SameAt (.putDone invoke) (.putDone invoke)
  | beforeGet : SameAt .beforeGet .beforeGet
  | sendingGet {invoke} : SameAt (.sendingGet invoke) (.sendingGet invoke)
  | awaitingValue {invoke} : SameAt (.awaitingValue invoke) (.awaitingValue invoke)
  | getDone {value invoke} : SameAt (.getDone value invoke) (.getDone value invoke)
  | stoppingFirst : SameAt .stoppingFirst .stoppingFirst
  | stoppingSecond : SameAt .stoppingSecond .stoppingSecond
  | ended : SameAt .ended .ended

structure SameClient (state : Client) (state' : PrimaryBackup.Client) : Prop where
  ops : state'.ops = state.ops
  awaits : SameAt state.awaits state'.awaits
  fresh : state.awaits = .start → state.ops = []

def Same : (party : Party) → Local party → PrimaryBackup.Local party → Prop
  | .primary => SamePrimary
  | .follower _ => Eq
  | .client => SameClient

theorem primary_matches {state : Primary} {state' : PrimaryBackup.Primary}
    (same : SamePrimary state state') :
    (state.code .correct).Matches SamePrimary state'.code := by
  cases same with
  | serving =>
      refine .recv fun client msg => ?_
      by_cases put : msg = "put:7"
      · simp only [Primary.serve, put, if_true, replicateToQuorum]
        exact .sendingFirst
      · simp only [Primary.serve, put, if_false, reduceCtorEq, and_false]
        exact .serving
  | sendingFirst => exact .send .sendingSecond
  | sendingSecond => exact .send .countingNone
  | countingNone =>
      refine .recv fun _ msg => ?_
      by_cases ack : msg = "ack"
      · simpa [ack, PrimaryBackup.neededAcks] using SamePrimary.countingOne
      · simpa [ack] using SamePrimary.countingNone
  | countingOne =>
      refine .recv fun _ msg => ?_
      by_cases ack : msg = "ack"
      · simp only [ack, if_true, PrimaryBackup.neededAcks]
        exact .answering
      · simpa [ack] using SamePrimary.countingOne
  | answering => exact .send .ended
  | ended => exact .ended

theorem client_matches (node : NodeId) {state : Client} {state' : PrimaryBackup.Client}
    (same : SameClient state state') :
    (state.code .correct node).Matches SameClient (state'.code node) := by
  obtain ⟨ops, awaits⟩ := state
  obtain ⟨_, awaits'⟩ := state'
  obtain ⟨rfl, same, fresh⟩ := same
  cases same with
  | start =>
      cases fresh rfl
      exact .now fun _ => ⟨rfl, .sendingPut, nofun⟩
  | sendingPut => exact .send ⟨rfl, .awaitingAck, nofun⟩
  | awaitingAck =>
      refine .recv fun _ ack => ?_
      by_cases ok : ack = "ok"
      · simp only [ok, if_true]
        exact ⟨rfl, .putDone, nofun⟩
      · simp only [ok, if_false]
        exact ⟨rfl, .beforeGet, nofun⟩
  | putDone => exact .now fun _ => ⟨rfl, .beforeGet, nofun⟩
  | beforeGet => exact .now fun _ => ⟨rfl, .sendingGet, nofun⟩
  | sendingGet => exact .send ⟨rfl, .awaitingValue, nofun⟩
  | awaitingValue => exact .recv fun _ _ => ⟨rfl, .getDone, nofun⟩
  | getDone => exact .now fun _ => ⟨rfl, .stoppingFirst, nofun⟩
  | stoppingFirst => exact .send ⟨rfl, .stoppingSecond, nofun⟩
  | stoppingSecond => exact .send ⟨rfl, .ended, nofun⟩
  | ended => exact .ended

theorem follower_matches (state : PrimaryBackup.Follower) :
    state.code.Matches Eq state.code := by
  obtain ⟨value, awaits⟩ := state
  cases awaits with
  | serving => exact .recv fun _ _ => rfl
  | acking | telling => exact .send rfl
  | ended => exact .ended

theorem same_start (party : Party) :
    Same party ((KvSystem.start .correct).locals party) (PrimaryBackup.KvSystem.start.locals party) := by
  cases party with
  | primary => exact .serving
  | follower => exact rfl
  | client => exact ⟨rfl, .start, fun _ => rfl⟩

/-- Where nothing is handed over more often than it was sent, what the client of the
correct variant recorded is linearizable at any time. -/
theorem correct_linearizes {client : NodeId} (distinct : 2 < client)
    {allowed : KvSystem → KvEvent → Prop} {system : KvSystem}
    (sparing : ∀ system event, allowed system event → Sparing system event)
    (reached : ReachedUnder (deployment .correct client) (KvSystem.start .correct) allowed system) :
    Linearizes (singleKeyKv none) (recordedHistory (system.locals .client).ops) := by
  have starts : Alike Same (KvSystem.start .correct) PrimaryBackup.KvSystem.start :=
    ⟨same_start, rfl, rfl, rfl⟩
  have addresses : (PrimaryBackup.deployment client).address =
      (deployment .correct client).address := rfl
  have passes (before : KvSystem) (before' : PrimaryBackup.KvSystem) (event : KvEvent)
      (alike : Alike Same before before') (allows : allowed before event) :
      Sparing before' event := by
    have spared := sparing before event allows
    cases event with
    | tick | act => trivial
    | deliver party packet =>
        rw [Sparing, alike.sent, alike.delivered]
        exact spared
  obtain ⟨system', reached', alike⟩ := reached_of_matches starts addresses
    (fun party point point' same => by
      cases party with
      | primary => exact primary_matches same
      | follower replica => cases same; exact follower_matches point
      | client => exact client_matches client same)
    passes reached
  have safe := PrimaryBackup.safe_of_sparing distinct (fun _ _ spared => spared) reached'
  exact (alike.locals .client).1 ▸ safe.linearizable

end KvVariants

end Detersim
