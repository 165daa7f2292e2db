import Detersim.IntervalOrder
import Detersim.KvVariants
import Detersim.WriteThenRead

/-!
What holds in every run of the store with a planted bug, at each point of each
party and of each datagram. The medium may do anything, apart from a link that an
experiment cuts.
-/

namespace Detersim.KvVariants

open Datagrams
open PrimaryBackup (Follower FollowerAt Replica Party client_apart)
open WriteThenRead (later sent_since first_sent put_get_linearizes)

/-- An experiment may cut the link from the primary to the first follower. -/
def Allowed (cut : Bool) (_ : KvSystem) : KvEvent → Prop
  | .deliver _ packet => cut = true → ¬ (packet.sender = 0 ∧ packet.receiver = 1)
  | .tick _ | .act _ => True

instance (cut : Bool) (system : KvSystem) : (event : KvEvent) → Decidable (Allowed cut system event)
  | .deliver _ _ => inferInstanceAs (Decidable (_ → _))
  | .tick _ | .act _ => .isTrue trivial

/-- The first put gets to the follower that is read from. -/
def reachesFirst (bug : KvBugVariant) (cut : Bool) : Bool :=
  !cut && match bug with
    | .correct | .ackBeforeReplicate | .lostUpdate | .followerAppliesUncommitted => true
    | .readFromStaleFollower | .quorumCountOffByOne | .duplicateRequestReapplied => false

/-- What the first follower may hold, and so what the client may read. -/
def Observable (bug : KvBugVariant) (cut : Bool) (value : Option Int32) : Prop :=
  value = none ∨ value = some 7 ∧ reachesFirst bug cut = true

/-- The value of the last put that is recorded. -/
def lastPut : KvBugVariant → Option Int32
  | .lostUpdate => some 9
  | .followerAppliesUncommitted => none
  | _ => some 7

/-! Puts one after the other, and a read. -/

/-- The puts of a client, done by the given time. -/
inductive Written (client : NodeId) (time : SimTime) : Option Int32 → List RecordedOp → Prop where
  | nothing : Written client time none []
  | once {invoke complete} : invoke < complete → complete ≤ time →
      Written client time (some 7) [.kvPut 1 (.ofNat client) 7 invoke complete]
  | twice {invoke complete invoke' complete'} : complete ≤ invoke' → invoke' ≤ complete' →
      complete' ≤ time → Written client time (some 9)
        [.kvPut 1 (.ofNat client) 7 invoke complete, .kvPut 2 (.ofNat client) 9 invoke' complete']

section Reads

variable {client : NodeId} {invoke complete time time' : SimTime} {id : UInt64}
  {value observed : Option Int32} {ops : List RecordedOp}

theorem Written.later (written : Written client time value ops) (after : time ≤ time') :
    Written client time' value ops := by
  cases written with
  | nothing => exact .nothing
  | once takes done => exact .once takes (UInt64.le_trans done after)
  | twice inOrder takes done => exact .twice inOrder takes (UInt64.le_trans done after)

/-- A read after the puts is legal only when it returns the last of them. -/
theorem Written.observed_eq (written : Written client invoke value ops)
    (linearizes : Linearizes (singleKeyKv none)
      (recordedHistory (ops ++ [.kvGet id (.ofNat client) observed invoke complete]))) :
    observed = value := by
  obtain ⟨order, permutation, respects, accepted⟩ := linearizes
  have chain : (recordedHistory (ops ++ [.kvGet id (.ofNat client) observed invoke complete])).Pairwise
      fun left right => left.completesBefore right = true := by
    cases written with
    | nothing => simp [recordedHistory, RecordedOp.singleKeyOp]
    | once _ done =>
        simp [recordedHistory, RecordedOp.singleKeyOp, OpRecord.completesBefore,
          OpRecord.completedAt, done]
    | twice inOrder takes done =>
        have early := UInt64.le_trans inOrder (UInt64.le_trans takes done)
        simp [recordedHistory, RecordedOp.singleKeyOp, OpRecord.completesBefore,
          OpRecord.completedAt, inOrder, done, early]
  rw [IntervalOrder.order_eq_of_chain chain permutation respects] at accepted
  cases written <;>
    simpa [recordedHistory, RecordedOp.singleKeyOp, Accepts, singleKeyKv, OpRecord.completedAt,
      eq_comm] using accepted

theorem get_linearizes : Linearizes (singleKeyKv none)
    (recordedHistory [.kvGet id (.ofNat client) none invoke complete]) := by
  refine ⟨_, List.Perm.refl _, List.pairwise_singleton _ _, ?_⟩
  simp [recordedHistory, RecordedOp.singleKeyOp, Accepts, singleKeyKv, OpRecord.completedAt]

/-- Of one put at most, the read may be the last operation. -/
theorem Written.linearizes (written : Written client invoke value ops) (takes : invoke ≤ complete)
    (single : value ≠ some 9) : Linearizes (singleKeyKv none)
      (recordedHistory (ops ++ [.kvGet 2 (.ofNat client) value invoke complete])) := by
  cases written with
  | nothing => exact get_linearizes
  | once began done => exact put_get_linearizes began done takes
  | twice => exact absurd rfl single

/-- An appended entry is all that a later read may return. -/
theorem append_read_entries {index : UInt64} {entries : List String} {began done : SimTime}
    (inOrder : done ≤ invoke)
    (linearizes : Linearizes (appendOnlyLog []) ([RecordedOp.logAppend 1 (.ofNat client) "x" index
      began done, .logRead 2 (.ofNat client) entries invoke complete].filterMap
        RecordedOp.logRecord)) : entries = ["x"] := by
  obtain ⟨order, permutation, respects, accepted⟩ := linearizes
  rw [IntervalOrder.order_eq_of_chain (by simp [RecordedOp.logRecord, OpRecord.completesBefore,
    OpRecord.completedAt, inOrder]) permutation respects] at accepted
  simp [RecordedOp.logRecord, Accepts, appendOnlyLog, OpRecord.completedAt] at accepted
  exact accepted.2.symm

end Reads

/-! What a run never undoes. -/

/-- The client has sent something. -/
def ClientAt.began : ClientAt → Bool
  | .start | .sendingPut _ | .sendingAppend _ => false
  | _ => true

/-- The client has asked for what it reads. -/
def ClientAt.asked : ClientAt → Bool
  | .awaitingValue _ | .getDone .. | .stoppingFirst | .stoppingSecond | .awaitingEntries _
  | .readDone .. | .ended => true
  | _ => false

abbrev keeps : (party : Party) → Local party → Local party → Prop
  | .primary, _, _ => True
  | .follower _, _, _ => True
  | .client, before, after =>
      (before.awaits.began = true → after.awaits.began = true) ∧
        (before.awaits.asked = true → after.awaits.asked = true)

theorem keeps_refl (party : Party) (state : Local party) : keeps party state state := by
  cases party with
  | primary | follower => trivial
  | client => exact ⟨id, id⟩

def Began : Lasting NodeId String SimTime keeps :=
  .ofLocal .client (·.awaits.began = true) And.left

def Asked : Lasting NodeId String SimTime keeps :=
  .ofLocal .client (·.awaits.asked = true) And.right

/-! What fits the state of the run, for each party and each datagram. -/

/-- What the primary of a store sends. -/
inductive Serves (bug : KvBugVariant) (client : NodeId) : NodeId → String → Prop where
  | ok : Serves bug client client "ok"
  | first : reachesFirst bug false = true → Serves bug client 1 "replicate:7"
  | uncommitted : reachesFirst bug false = true → Serves bug client 1 "replicate-uncommitted:7"
  | second : Serves bug client 2 "replicate:7"
  | lost : Serves bug client 2 "replicate:9"

inductive Known (bug : KvBugVariant) (cut : Bool) (client : NodeId) (system : KvSystem) :
    Packet NodeId String SimTime → Prop where
  | request {msg time} : Known bug cut client system ⟨client, 0, msg, time⟩
  | ack {sender time} : Known bug cut client system ⟨sender, 0, "ack", time⟩
  | served {receiver msg time} : Serves bug client receiver msg →
      Known bug cut client system ⟨0, receiver, msg, time⟩
  | get {time} : Asked system → Known bug cut client system ⟨client, 1, "get", time⟩
  | stop (replica : Replica) {time} :
      Known bug cut client system ⟨client, replica.node, "stop", time⟩
  | value {value time} : Asked system → Observable bug cut value →
      Known bug cut client system ⟨1, client, kvValueMsg value, time⟩
  | log {msg time} : bug = .duplicateRequestReapplied → msg ≠ "x" →
      Known bug cut client system ⟨0, client, msg, time⟩

/-- A log of an even number of entries. -/
def Doubled (entries : List String) : Prop := ∃ count, entries = List.replicate (2 * count) "x"

inductive PrimaryFits (bug : KvBugVariant) (client : NodeId) (system : KvSystem) :
    Primary → Prop where
  | serving : PrimaryFits bug client system .serving
  | working {job rest stays} : Began system →
      (∀ receiver msg, Job.send receiver msg ∈ job :: rest → Serves bug client receiver msg) →
      PrimaryFits bug client system (.working job rest stays)
  | logging {entries} : bug = .duplicateRequestReapplied → Doubled entries →
      PrimaryFits bug client system (.logging entries)
  | answering {response entries stays} : Began system → bug = .duplicateRequestReapplied →
      Doubled entries → response ≠ "x" →
      PrimaryFits bug client system (.answering client response entries stays)
  | ended : PrimaryFits bug client system .ended

inductive FollowerFits (bug : KvBugVariant) (cut : Bool) (client : NodeId) (system : KvSystem)
    (replica : Replica) : Follower → Prop where
  | holds {value awaits} : (replica = .first → Observable bug cut value) →
      (awaits = .serving ∨ awaits = .ended ∨ Began system ∧ (awaits = .acking 0 ∨
        awaits = .telling client ∧ replica = .first ∧ Asked system)) →
      FollowerFits bug cut client system replica ⟨value, awaits⟩

/-- What the client recorded when it has returned. -/
inductive Finished (bug : KvBugVariant) (cut : Bool) (client : NodeId) : List RecordedOp → Prop where
  | read {ops observed invoke complete} : bug ≠ .duplicateRequestReapplied →
      Written client invoke (lastPut bug) ops → Observable bug cut observed → invoke ≤ complete →
      Finished bug cut client
        (ops ++ [.kvGet (readId bug) (.ofNat client) observed invoke complete])
  | log {index entries began done invoke complete} : bug = .duplicateRequestReapplied →
      done ≤ invoke → entries ≠ ["x"] →
      Finished bug cut client [.logAppend 1 (.ofNat client) "x" index began done,
        .logRead 2 (.ofNat client) entries invoke complete]

/-- The variants in which a put is acknowledged. -/
def acknowledges : KvBugVariant → Bool
  | .duplicateRequestReapplied | .followerAppliesUncommitted => false
  | _ => true

inductive ClientFits (bug : KvBugVariant) (cut : Bool) (client : NodeId) (system : KvSystem) :
    Client → Prop where
  | start : ClientFits bug cut client system ⟨[], .start⟩
  | sendingPut {invoke} : acknowledges bug = true → invoke ≤ system.now →
      ClientFits bug cut client system ⟨[], .sendingPut invoke⟩
  | awaitingAck {invoke} : acknowledges bug = true → invoke ≤ system.now →
      (∀ packet ∈ system.sent, invoke ≤ packet.sentAt) →
      ClientFits bug cut client system ⟨[], .awaitingAck invoke⟩
  | putDone {invoke} : acknowledges bug = true → invoke < system.now →
      ClientFits bug cut client system ⟨[], .putDone invoke⟩
  | beforeSecond {ops} : bug = .lostUpdate → Written client system.now (some 7) ops →
      ClientFits bug cut client system ⟨ops, .beforeSecond⟩
  | second {ops invoke awaits} : bug = .lostUpdate → Written client invoke (some 7) ops →
      invoke ≤ system.now → (awaits = .sendingSecond invoke ∨ awaits = .awaitingSecond invoke ∨
        awaits = .secondDone invoke) →
      ClientFits bug cut client system ⟨ops, awaits⟩
  | beforeGet {ops} : bug ≠ .duplicateRequestReapplied →
      Written client system.now (lastPut bug) ops →
      ClientFits bug cut client system ⟨ops, .beforeGet⟩
  | get {ops invoke awaits} : bug ≠ .duplicateRequestReapplied →
      Written client invoke (lastPut bug) ops → invoke ≤ system.now →
      (awaits = .sendingGet invoke ∨ awaits = .awaitingValue invoke ∨
        ∃ observed, Observable bug cut observed ∧ awaits = .getDone observed invoke) →
      ClientFits bug cut client system ⟨ops, awaits⟩
  | unacked {awaits} : bug = .followerAppliesUncommitted →
      (awaits = .beforeSleep ∨ ∃ deadline, awaits = .sleeping deadline) →
      ClientFits bug cut client system ⟨[], awaits⟩
  | append {invoke awaits} : bug = .duplicateRequestReapplied →
      (awaits = .sendingAppend invoke ∨ awaits = .awaitingIndex invoke ∨
        ∃ index, awaits = .appendDone index invoke) →
      ClientFits bug cut client system ⟨[], awaits⟩
  | beforeReadAll {index began done} : bug = .duplicateRequestReapplied → done ≤ system.now →
      ClientFits bug cut client system
        ⟨[.logAppend 1 (.ofNat client) "x" index began done], .beforeReadAll⟩
  | readAll {index began done invoke awaits} : bug = .duplicateRequestReapplied → done ≤ invoke →
      (awaits = .sendingReadAll invoke ∨ awaits = .awaitingEntries invoke ∨
        ∃ entries, entries ≠ ["x"] ∧ awaits = .readDone entries invoke) →
      ClientFits bug cut client system
        ⟨[.logAppend 1 (.ofNat client) "x" index began done], awaits⟩
  | finished {ops awaits} : Finished bug cut client ops →
      (awaits = .stoppingFirst ∨ awaits = .stoppingSecond ∨ awaits = .ended) →
      ClientFits bug cut client system ⟨ops, awaits⟩

def Fits (bug : KvBugVariant) (cut : Bool) (client : NodeId) (system : KvSystem) :
    (party : Party) → Local party → Prop
  | .primary => PrimaryFits bug client system
  | .follower replica => FollowerFits bug cut client system replica
  | .client => ClientFits bug cut client system

section Stable

variable {bug : KvBugVariant} {cut : Bool} {client : NodeId} {before after : KvSystem}
  (follows : Follows keeps before after)
include follows

theorem known_follows {packet : Packet NodeId String SimTime}
    (known : Known bug cut client before packet) : Known bug cut client after packet := by
  cases known with
  | request => exact .request
  | ack => exact .ack
  | served serves => exact .served serves
  | get asked => exact .get (Asked.lasts follows asked)
  | stop replica => exact .stop replica
  | value asked seen => exact .value (Asked.lasts follows asked) seen
  | log doubling other => exact .log doubling other

theorem primaryFits_follows {primary : Primary} (fits : PrimaryFits bug client before primary) :
    PrimaryFits bug client after primary := by
  cases fits with
  | serving => exact .serving
  | working began serves => exact .working (Began.lasts follows began) serves
  | logging doubling even => exact .logging doubling even
  | answering began doubling even other =>
      exact .answering (Began.lasts follows began) doubling even other
  | ended => exact .ended

theorem followerFits_follows {replica : Replica} {follower : Follower}
    (fits : FollowerFits bug cut client before replica follower) :
    FollowerFits bug cut client after replica follower := by
  obtain ⟨seen, serving | ended | ⟨began, acking | ⟨telling, named, asked⟩⟩⟩ := fits
  · exact ⟨seen, Or.inl serving⟩
  · exact ⟨seen, Or.inr (Or.inl ended)⟩
  · exact ⟨seen, Or.inr (Or.inr ⟨Began.lasts follows began, Or.inl acking⟩)⟩
  · exact ⟨seen, Or.inr (Or.inr ⟨Began.lasts follows began,
      Or.inr ⟨telling, named, Asked.lasts follows asked⟩⟩)⟩

theorem clientFits_follows {state : Client} (fits : ClientFits bug cut client before state) :
    ClientFits bug cut client after state := by
  have later {time : SimTime} (early : time ≤ before.now) : time ≤ after.now :=
    later follows.toExtends early
  cases fits with
  | start => exact .start
  | sendingPut acked invoked => exact .sendingPut acked (later invoked)
  | awaitingAck acked invoked sent =>
      exact .awaitingAck acked (later invoked) (sent_since follows.toExtends invoked sent)
  | putDone acked takes => exact .putDone acked (UInt64.lt_of_lt_of_le takes follows.now)
  | beforeSecond losing written => exact .beforeSecond losing (written.later follows.now)
  | second losing written invoked awaits => exact .second losing written (later invoked) awaits
  | beforeGet single written => exact .beforeGet single (written.later follows.now)
  | get single written invoked awaits => exact .get single written (later invoked) awaits
  | unacked uncommitted awaits => exact .unacked uncommitted awaits
  | append doubling awaits => exact .append doubling awaits
  | beforeReadAll doubling done => exact .beforeReadAll doubling (later done)
  | readAll doubling inOrder awaits => exact .readAll doubling inOrder awaits
  | finished done awaits => exact .finished done awaits

end Stable

def outline (bug : KvBugVariant) (cut : Bool) (client : NodeId) :
    Outline NodeId String SimTime Local where
  keeps := keeps
  fits := Fits bug cut client
  known system packet := Began system ∧ Known bug cut client system packet
  keeps_refl := keeps_refl
  fits_stable follows party state fits := by
    cases party with
    | primary => exact primaryFits_follows follows fits
    | follower replica => exact followerFits_follows follows fits
    | client => exact clientFits_follows follows fits
  known_stable follows packet known :=
    ⟨Began.lasts follows known.1, known_follows follows known.2⟩

/-! The primary's answers. -/

@[simp] theorem replicateMsg_seven : replicateMsg 7 = "replicate:7" := by decide

@[simp] theorem replicateMsg_nine : replicateMsg 9 = "replicate:9" := by decide

theorem index_ne_x (length : Nat) : s!"index:{length}" ≠ "x" := by
  intro same
  have marker : (toString "index:").toList = "index:".toList := rfl
  have heads := congrArg (fun text => text.toList.head?) same
  simp [marker] at heads

/-- An even number of entries is not written like one. -/
theorem Doubled.join_ne_x {entries : List String} (even : Doubled entries) :
    ",".intercalate entries ≠ "x" := by
  obtain ⟨count, rfl⟩ := even
  cases count with
  | zero => decide
  | succ count =>
      intro same
      have plain : ∀ text ∈ "x" :: List.replicate (2 * count + 1) "x", ',' ∉ text.toList := by
        intro text member
        rw [← List.replicate_succ] at member
        rw [List.eq_of_mem_replicate member]
        decide
      have parts := splitChar_intercalate ',' "x" (List.replicate (2 * count + 1) "x")
      rw [(flatMap_splitChar_iff ',' _).mpr plain] at parts
      have one : splitChar ',' "x" = ["x"] := splitChar_of_notMem (by decide)
      have lengths := congrArg List.length (parts.symm.trans ((congrArg _ same).trans one))
      simp at lengths

section Primary

variable {bug : KvBugVariant} {client : NodeId} {system : KvSystem}

theorem turn_fits {jobs : List Job} {stays : Bool} (began : Began system)
    (serves : ∀ receiver msg, Job.send receiver msg ∈ jobs → Serves bug client receiver msg) :
    PrimaryFits bug client system (.turn jobs stays) := by
  cases jobs with
  | cons job rest => exact .working began serves
  | nil => cases stays with
    | true => exact .serving
    | false => exact .ended

theorem serve_fits (began : Began system) (msg : String) :
    PrimaryFits bug client system (.serve bug client msg) := by
  unfold Primary.serve
  split_ifs with put second
  · have first (reaches : reachesFirst bug false = true) :
        Serves bug client 1 "replicate:7" := .first reaches
    cases bug with
    | duplicateRequestReapplied => exact .serving
    | followerAppliesUncommitted =>
        refine turn_fits began ?_
        intro receiver msg member
        obtain ⟨rfl, rfl⟩ : receiver = 1 ∧ msg = "replicate-uncommitted:7" := by simpa using member
        exact .uncommitted rfl
    | correct | ackBeforeReplicate =>
        refine turn_fits began ?_
        intro receiver msg member
        simp only [replicateToQuorum, replicateMsg_seven, List.cons_append, List.nil_append,
          List.mem_cons, Job.send.injEq, List.not_mem_nil, or_false, reduceCtorEq,
          false_or] at member
        rcases member with ⟨rfl, rfl⟩ | ⟨rfl, rfl⟩ | ⟨rfl, rfl⟩
        · exact first rfl
        · exact .second
        · exact .ok
    | lostUpdate =>
        refine turn_fits began ?_
        intro receiver msg member
        simp only [replicateToNode, replicateMsg_seven, List.cons_append, List.nil_append,
          List.mem_cons, Job.send.injEq, List.not_mem_nil, or_false, reduceCtorEq,
          false_or] at member
        rcases member with ⟨rfl, rfl⟩ | ⟨rfl, rfl⟩
        · exact first rfl
        · exact .ok
    | readFromStaleFollower | quorumCountOffByOne =>
        refine turn_fits began ?_
        intro receiver msg member
        simp only [replicateToNode, replicateMsg_seven, List.cons_append, List.nil_append,
          List.mem_cons, Job.send.injEq, List.not_mem_nil, or_false, reduceCtorEq,
          false_or] at member
        rcases member with ⟨rfl, rfl⟩ | ⟨rfl, rfl⟩
        · exact .second
        · exact .ok
  · refine turn_fits began ?_
    intro receiver msg member
    simp only [replicateToNode, replicateMsg_nine, List.cons_append, List.nil_append,
      List.mem_cons, Job.send.injEq, List.not_mem_nil, or_false, reduceCtorEq,
      false_or] at member
    rcases member with ⟨rfl, rfl⟩ | ⟨rfl, rfl⟩
    · exact .lost
    · exact .ok
  · exact .serving

theorem serveLog_fits (began : Began system) (doubling : bug = .duplicateRequestReapplied)
    {entries : List String} (even : Doubled entries) (msg : String) :
    PrimaryFits bug client system (.serveLog bug entries client msg) := by
  unfold Primary.serveLog
  split_ifs
  · refine .answering began doubling ?_ (index_ne_x _)
    obtain ⟨count, rfl⟩ := even
    refine ⟨count + 1, ?_⟩
    rw [Nat.mul_succ, List.replicate_add, List.append_assoc]
    rfl
  · exact .answering began doubling even even.join_ne_x
  · exact .logging doubling even

end Primary

section Steps

variable {bug : KvBugVariant} {cut : Bool} {client : NodeId} {before after : KvSystem}

theorem outline_start : (outline bug cut client).Holds (KvSystem.start bug) where
  parties party := by
    cases party with
    | primary =>
        change PrimaryFits _ _ _ (Primary.start bug)
        rw [Primary.start]
        split_ifs with doubling
        · exact .logging doubling ⟨0, rfl⟩
        · exact .serving
    | follower replica => exact .holds (fun _ => Or.inl rfl) (Or.inl rfl)
    | client => exact .start
  packets _ member := absurd member List.not_mem_nil

theorem primary_sends (cut : Bool) (fits : PrimaryFits bug client before (before.locals .primary))
    {receiver : NodeId} {msg : String} {next : Primary}
    (sends : (before.locals .primary).code bug = .send receiver msg next)
    (follows : Follows keeps before after) :
    PrimaryFits bug client after next ∧
      (outline bug cut client).known after ⟨0, receiver, msg, before.now⟩ := by
  obtain ⟨primary, same⟩ : ∃ primary, before.locals .primary = primary := ⟨_, rfl⟩
  rw [same] at fits sends
  cases fits with
  | @working job rest stays began serves =>
      cases job with
      | send receiver msg =>
          cases sends
          have began := Began.lasts follows began
          exact ⟨turn_fits began fun receiver msg member =>
            serves receiver msg (List.mem_cons_of_mem _ member), began,
            .served (serves _ _ List.mem_cons_self)⟩
      | waitForAcks missing => cases sends
  | @answering response entries stays began doubling even other =>
      cases sends
      have began := Began.lasts follows began
      refine ⟨?_, began, .log doubling other⟩
      split_ifs
      · exact .logging doubling even
      · exact .ended
  | serving | logging | ended => cases sends

theorem follower_sends {replica : Replica}
    (fits : FollowerFits bug cut client before replica (before.locals (.follower replica)))
    {receiver : NodeId} {msg : String} {next : Follower}
    (sends : (before.locals (.follower replica)).code = .send receiver msg next)
    (follows : Follows keeps before after) :
    FollowerFits bug cut client after replica next ∧
      (outline bug cut client).known after ⟨replica.node, receiver, msg, before.now⟩ := by
  obtain ⟨⟨value, awaits⟩, same⟩ : ∃ follower, before.locals (.follower replica) = follower :=
    ⟨_, rfl⟩
  rw [same] at fits sends
  obtain ⟨seen, rfl | rfl | ⟨began, rfl | ⟨rfl, rfl, asked⟩⟩⟩ := fits
  · cases sends
  · cases sends
  · cases sends
    exact ⟨.holds seen (Or.inl rfl), Began.lasts follows began, .ack⟩
  · cases sends
    exact ⟨.holds seen (Or.inr (Or.inl rfl)), Began.lasts follows began,
      .value (Asked.lasts follows asked) (seen rfl)⟩

theorem client_sends (holds : (outline bug cut client).Holds before) {receiver : NodeId}
    {msg : String} {next : Client}
    (sends : (before.locals .client).code bug client = .send receiver msg next) :
    let after := (before.become .client next).send client receiver msg
    keeps .client (before.locals .client) next ∧ (Follows keeps before after →
      ClientFits bug cut client after next ∧
        (outline bug cut client).known after ⟨client, receiver, msg, before.now⟩) := by
  have fits : ClientFits bug cut client before (before.locals .client) := holds.parties .client
  have fresh : ∀ packet ∈ before.sent, (before.locals .client).awaits.began = true :=
    fun packet member => (holds.packets packet member).1
  dsimp only
  obtain ⟨state, same⟩ : ∃ state, before.locals .client = state := ⟨_, rfl⟩
  rw [same] at fits sends fresh ⊢
  cases fits with
  | start =>
      cases bug with
      | followerAppliesUncommitted =>
          cases sends
          exact ⟨⟨nofun, nofun⟩, fun _ => ⟨.unacked rfl (Or.inl rfl), rfl, .request⟩⟩
      | _ => cases sends
  | sendingPut acked invoked =>
      cases sends
      refine ⟨⟨nofun, nofun⟩, fun _ => ⟨.awaitingAck acked invoked ?_, rfl, .request⟩⟩
      exact first_sent (fun packet member => Bool.false_ne_true (fresh packet member)) rfl invoked
  | second losing written invoked awaits =>
      rcases awaits with rfl | rfl | rfl
      · cases sends
        exact ⟨⟨id, id⟩, fun _ =>
          ⟨.second losing written invoked (Or.inr (Or.inl rfl)), rfl, .request⟩⟩
      · cases sends
      · cases sends
  | get single written invoked awaits =>
      rcases awaits with rfl | rfl | ⟨observed, seen, rfl⟩
      · cases sends
        exact ⟨⟨id, nofun⟩, fun _ =>
          ⟨.get single written invoked (Or.inr (Or.inl rfl)), rfl, .get rfl⟩⟩
      · cases sends
      · cases sends
  | append doubling awaits =>
      rcases awaits with rfl | rfl | ⟨index, rfl⟩
      · cases sends
        exact ⟨⟨nofun, nofun⟩, fun _ => ⟨.append doubling (Or.inr (Or.inl rfl)), rfl, .request⟩⟩
      · cases sends
      · cases sends
  | readAll doubling inOrder awaits =>
      rcases awaits with rfl | rfl | ⟨entries, other, rfl⟩
      · cases sends
        exact ⟨⟨id, nofun⟩, fun _ =>
          ⟨.readAll doubling inOrder (Or.inr (Or.inl rfl)), rfl, .request⟩⟩
      · cases sends
      · cases sends
  | finished done awaits =>
      rcases awaits with rfl | rfl | rfl
      · cases sends
        exact ⟨⟨id, id⟩, fun _ => ⟨.finished done (Or.inr (Or.inl rfl)), rfl, .stop .first⟩⟩
      · cases sends
        exact ⟨⟨id, id⟩, fun _ => ⟨.finished done (Or.inr (Or.inr rfl)), rfl, .stop .second⟩⟩
      · cases sends
  | unacked uncommitted awaits => rcases awaits with rfl | ⟨deadline, rfl⟩ <;> cases sends
  | awaitingAck | putDone | beforeSecond | beforeGet | beforeReadAll => cases sends

theorem afterPut_fits {ops : List RecordedOp} {system : KvSystem} (acked : acknowledges bug = true)
    (written : Written client system.now (some 7) ops) :
    ClientFits bug cut client system (.afterPut bug ops) := by
  unfold Client.afterPut
  split_ifs with losing
  · exact .beforeSecond losing written
  · cases bug with
    | lostUpdate => exact absurd rfl losing
    | duplicateRequestReapplied | followerAppliesUncommitted => cases acked
    | correct | ackBeforeReplicate | readFromStaleFollower | quorumCountOffByOne =>
        exact .beforeGet (by decide) written

theorem afterPut_began (ops : List RecordedOp) : (Client.afterPut bug ops).awaits.began = true := by
  unfold Client.afterPut
  split_ifs <;> rfl

theorem client_reads (fits : ClientFits bug cut client before (before.locals .client))
    {next : SimTime → Client} (reads : (before.locals .client).code bug client = .now next) :
    (outline bug cut client).Moves before (before.become .client (next before.now)) .client
      (next before.now) := by
  have now : before.now ≤ before.now := UInt64.le_refl _
  obtain ⟨state, same⟩ : ∃ state, before.locals .client = state := ⟨_, rfl⟩
  rw [same] at fits reads
  cases fits with
  | start =>
      cases bug with
      | duplicateRequestReapplied =>
          cases reads
          exact .of same ⟨nofun, nofun⟩ fun _ => .append rfl (Or.inl rfl)
      | followerAppliesUncommitted => cases reads
      | correct | ackBeforeReplicate | readFromStaleFollower | lostUpdate | quorumCountOffByOne =>
          cases reads
          exact .of same ⟨nofun, nofun⟩ fun _ => .sendingPut rfl now
  | putDone acked takes =>
      cases reads
      exact .of same ⟨fun _ => afterPut_began _, nofun⟩ fun _ =>
        afterPut_fits acked (.once takes now)
  | beforeSecond losing written =>
      cases reads
      exact .of same ⟨id, id⟩ fun _ => .second losing written now (Or.inl rfl)
  | second losing written invoked awaits =>
      rcases awaits with rfl | rfl | rfl
      · cases reads
      · cases reads
      · cases reads
        refine .of same ⟨id, id⟩ fun _ => .beforeGet (by rw [losing]; decide) ?_
        subst losing
        cases written with
        | once takes done => exact .twice done invoked now
  | beforeGet single written =>
      cases reads
      exact .of same ⟨id, id⟩ fun _ => .get single written now (Or.inl rfl)
  | get single written invoked awaits =>
      rcases awaits with rfl | rfl | ⟨observed, seen, rfl⟩
      · cases reads
      · cases reads
      · cases reads
        refine .of same ⟨?_, ?_⟩ fun _ => .finished (.read single written seen invoked) ?_
        · intro _
          split_ifs <;> rfl
        · intro _
          split_ifs <;> rfl
        · split_ifs
          · exact .inr (.inr rfl)
          · exact .inl rfl
  | unacked uncommitted awaits =>
      rcases awaits with rfl | ⟨deadline, rfl⟩
      · cases reads
        exact .of same ⟨id, id⟩ fun _ => .unacked uncommitted (Or.inr ⟨_, rfl⟩)
      · cases reads
        subst uncommitted
        dsimp only
        split_ifs
        · exact .of same ⟨id, id⟩ fun _ => .beforeGet (by decide) .nothing
        · exact .of same ⟨id, id⟩ fun _ => .unacked rfl (Or.inr ⟨_, rfl⟩)
  | append doubling awaits =>
      rcases awaits with rfl | rfl | ⟨index, rfl⟩
      · cases reads
      · cases reads
      · cases reads
        exact .of same ⟨id, id⟩ fun _ => .beforeReadAll doubling now
  | beforeReadAll doubling done =>
      cases reads
      exact .of same ⟨id, id⟩ fun _ => .readAll doubling done (Or.inl rfl)
  | readAll doubling inOrder awaits =>
      rcases awaits with rfl | rfl | ⟨entries, other, rfl⟩
      · cases reads
      · cases reads
      · cases reads
        exact .of same ⟨id, id⟩ fun _ => .finished (.log doubling inOrder other)
          (Or.inr (Or.inr rfl))
  | finished done awaits => rcases awaits with rfl | rfl | rfl <;> cases reads
  | sendingPut | awaitingAck => cases reads

/-! Receiving. -/

variable {packet : Packet NodeId String SimTime}

theorem deployment_apart (bug : KvBugVariant) (distinct : 2 < client) :
    Function.Injective (deployment bug client).address := PrimaryBackup.deployment_apart distinct

theorem Known.to_primary (distinct : 2 < client) (known : Known bug cut client before packet)
    (addressed : packet.receiver = 0) : packet.sender = client ∨ packet.msg = "ack" := by
  obtain ⟨apart, _, _⟩ := client_apart distinct
  cases known with
  | request => exact Or.inl rfl
  | ack => exact Or.inr rfl
  | served serves =>
      cases serves with
      | ok => exact absurd addressed apart
      | first | uncommitted | second | lost => simp at addressed
  | stop replica => cases replica <;> simp [Replica.node] at addressed
  | get => simp at addressed
  | value | log => exact absurd addressed apart

theorem Known.to_follower (distinct : 2 < client) (known : Known bug cut client before packet)
    (replica : Replica) (addressed : packet.receiver = replica.node) :
    (packet.sender = 0 ∧ (packet.msg = "replicate:7" ∨ packet.msg = "replicate:9" ∨
        packet.msg = "replicate-uncommitted:7") ∧
      (replica = .first → reachesFirst bug false = true ∧ packet.msg ≠ "replicate:9")) ∨
      (packet.msg = "get" ∧ packet.sender = client ∧ replica = .first ∧ Asked before) ∨
      packet.msg = "stop" := by
  obtain ⟨_, first, second⟩ := client_apart distinct
  cases known with
  | served serves =>
      cases serves with
      | ok => cases replica <;> simp [Replica.node, first, second] at addressed
      | first reaches => exact Or.inl ⟨rfl, Or.inl rfl, fun _ => ⟨reaches, by simp⟩⟩
      | uncommitted reaches =>
          exact Or.inl ⟨rfl, Or.inr (Or.inr rfl), fun _ => ⟨reaches, by simp⟩⟩
      | second =>
          refine Or.inl ⟨rfl, Or.inl rfl, ?_⟩
          rintro rfl
          simp [Replica.node] at addressed
      | lost =>
          refine Or.inl ⟨rfl, Or.inr (Or.inl rfl), ?_⟩
          rintro rfl
          simp [Replica.node] at addressed
  | get asked =>
      cases replica with
      | first => exact Or.inr (Or.inl ⟨rfl, rfl, rfl, asked⟩)
      | second => simp [Replica.node] at addressed
  | stop => exact Or.inr (Or.inr rfl)
  | request | ack => cases replica <;> simp [Replica.node] at addressed
  | value | log => cases replica <;> simp [Replica.node, first, second] at addressed

theorem Known.to_client (distinct : 2 < client) (known : Known bug cut client before packet)
    (addressed : packet.receiver = client) :
    packet.msg = "ok" ∨
      (Asked before ∧ ∃ value, Observable bug cut value ∧ packet.msg = kvValueMsg value) ∨
      (bug = .duplicateRequestReapplied ∧ packet.msg ≠ "x") := by
  obtain ⟨primary, first, second⟩ := client_apart distinct
  cases known with
  | served serves =>
      cases serves with
      | ok => exact Or.inl rfl
      | first | uncommitted => exact absurd addressed.symm first
      | second | lost => exact absurd addressed.symm second
  | value asked seen => exact Or.inr (Or.inl ⟨asked, _, seen, rfl⟩)
  | log doubling other => exact Or.inr (Or.inr ⟨doubling, other⟩)
  | request | ack => exact absurd addressed.symm primary
  | get => exact absurd addressed.symm first
  | stop replica =>
      cases replica
      · exact absurd addressed.symm first
      · exact absurd addressed.symm second

theorem primary_receives (distinct : 2 < client)
    (fits : PrimaryFits bug client before (before.locals .primary))
    (known : (outline bug cut client).known before packet) (addressed : packet.receiver = 0)
    {next : NodeId → String → Primary}
    (receives : (before.locals .primary).code bug = .recv next) :
    (outline bug cut client).Moves before
      ((before.become .primary (next packet.sender packet.msg)).handOver packet) .primary
      (next packet.sender packet.msg) := by
  refine ⟨trivial, fun follows => ?_⟩
  generalize (before.become .primary (next packet.sender packet.msg)).handOver packet = after
    at follows ⊢
  change PrimaryFits bug client after (next packet.sender packet.msg)
  have began := Began.lasts follows known.1
  have known := known.2.to_primary distinct addressed
  obtain ⟨primary, same⟩ : ∃ primary, before.locals .primary = primary := ⟨_, rfl⟩
  rw [same] at fits receives
  cases fits with
  | serving =>
      cases receives
      rcases known with sender | msg
      · rw [sender]
        exact serve_fits began _
      · rw [msg]
        exact .serving
  | @working job rest stays _ serves =>
      cases job with
      | send receiver msg => cases receives
      | waitForAcks missing =>
          cases receives
          have waiting (left : Nat) :
              PrimaryFits bug client after (.working (.waitForAcks left) rest stays) :=
            .working began fun receiver msg member => serves receiver msg (by simpa using member)
          dsimp only
          split_ifs
          · exact waiting _
          · exact turn_fits began fun receiver msg member =>
              serves receiver msg (List.mem_cons_of_mem _ member)
          · exact waiting missing
  | logging doubling even =>
      cases receives
      rcases known with sender | msg
      · rw [sender]
        exact serveLog_fits began doubling even _
      · rw [msg]
        exact .logging doubling even
  | answering | ended => cases receives

theorem follower_receives (distinct : 2 < client) {replica : Replica}
    (fits : FollowerFits bug cut client before replica (before.locals (.follower replica)))
    (known : (outline bug cut client).known before packet) (addressed : packet.receiver = replica.node)
    (allowed : Allowed cut before (.deliver (.follower replica) packet))
    {next : NodeId → String → Follower}
    (receives : (before.locals (.follower replica)).code = .recv next) :
    (outline bug cut client).Moves before
      ((before.become (.follower replica) (next packet.sender packet.msg)).handOver packet)
      (.follower replica) (next packet.sender packet.msg) := by
  refine ⟨trivial, fun follows => ?_⟩
  generalize (before.become (.follower replica) (next packet.sender packet.msg)).handOver packet =
    after at follows ⊢
  change FollowerFits bug cut client after replica (next packet.sender packet.msg)
  have began := Began.lasts follows known.1
  obtain ⟨⟨value, awaits⟩, same⟩ : ∃ follower, before.locals (.follower replica) = follower :=
    ⟨_, rfl⟩
  rw [same] at fits receives
  obtain ⟨seen, rfl | rfl | ⟨_, rfl | ⟨rfl, rfl, _⟩⟩⟩ := fits
  · cases receives
    rcases known.2.to_follower distinct replica addressed with
      ⟨sender, msg, reaches⟩ | ⟨msg, sender, named, asked⟩ | msg
    · -- The first follower is only sent the first value, and over a link that is up.
      have stored : replica = .first → Observable bug cut (some 7) := by
        intro named
        cases cut with
        | false => exact Or.inr ⟨rfl, (reaches named).1⟩
        | true => exact absurd ⟨sender, addressed.trans (by rw [named]; rfl)⟩ (allowed rfl)
      have acking : FollowerAt.acking packet.sender = .acking 0 := by rw [sender]
      rcases msg with msg | msg | msg
      · simp only [msg, if_true]
        exact .holds stored (Or.inr (Or.inr ⟨began, Or.inl acking⟩))
      · have second : replica ≠ .first := fun named => (reaches named).2 msg
        simpa [msg] using FollowerFits.holds (fun named => absurd named second)
          (Or.inr (Or.inr ⟨began, Or.inl acking⟩))
      · simpa [msg] using FollowerFits.holds stored (Or.inl rfl)
    · simpa [msg] using FollowerFits.holds seen (Or.inr (Or.inr ⟨began,
        Or.inr ⟨by rw [sender], named, Asked.lasts follows asked⟩⟩))
    · simpa [msg] using FollowerFits.holds seen (Or.inr (Or.inl rfl))
  · cases receives
  · cases receives
  · cases receives

theorem client_receives (distinct : 2 < client)
    (fits : ClientFits bug cut client before (before.locals .client))
    (member : packet ∈ before.sent) (known : (outline bug cut client).known before packet)
    (addressed : packet.receiver = client) (late : packet.sentAt < before.now)
    {next : NodeId → String → Client}
    (receives : (before.locals .client).code bug client = .recv next) :
    (outline bug cut client).Moves before
      ((before.become .client (next packet.sender packet.msg)).handOver packet) .client
      (next packet.sender packet.msg) := by
  have known := known.2.to_client distinct addressed
  have now : ((before.become .client (next packet.sender packet.msg)).handOver packet).now =
      before.now := rfl
  generalize (before.become .client (next packet.sender packet.msg)).handOver packet = after
    at now ⊢
  obtain ⟨state, same⟩ : ∃ state, before.locals .client = state := ⟨_, rfl⟩
  simp only [Asked, Lasting.ofLocal_holds] at known
  rw [same] at fits receives known
  -- Before the client has asked, the only message that a store sends it is an acknowledgement.
  have acknowledged (unasked : state.awaits.asked = false) (single : bug ≠ .duplicateRequestReapplied) :
      packet.msg = "ok" := by
    rcases known with msg | ⟨asked, _⟩ | ⟨doubling, _⟩
    · exact msg
    · rw [unasked] at asked
      cases asked
    · exact absurd doubling single
  cases fits with
  | awaitingAck acked invoked sent =>
      cases receives
      have single : bug ≠ .duplicateRequestReapplied := by
        rintro rfl
        cases acked
      simp only [acknowledged rfl single, if_true]
      exact .of same ⟨id, (absurd · Bool.false_ne_true)⟩ fun _ =>
        .putDone acked (now ▸ UInt64.lt_of_le_of_lt (sent packet member) late)
  | second losing written invoked awaits =>
      rcases awaits with rfl | rfl | rfl
      · cases receives
      · cases receives
        simp only [acknowledged rfl (by rw [losing]; decide), if_true]
        exact .of same ⟨id, (absurd · Bool.false_ne_true)⟩ fun _ =>
          .second losing written (now ▸ invoked) (Or.inr (Or.inr rfl))
      · cases receives
  | get single written invoked awaits =>
      rcases awaits with rfl | rfl | ⟨observed, seen, rfl⟩
      · cases receives
      · cases receives
        refine .of same ⟨id, id⟩ fun _ => .get single written (now ▸ invoked)
          (Or.inr (Or.inr ⟨_, ?_, rfl⟩))
        rcases known with msg | ⟨_, value, seen, msg⟩ | ⟨doubling, _⟩
        · -- A second acknowledgement is not a number.
          have unread : parseOptionalI32 "ok" = none := by decide
          rw [msg, unread]
          exact Or.inl rfl
        · rw [msg, parseOptionalI32_kvValueMsg]
          exact seen
        · exact absurd doubling single
      · cases receives
  | append doubling awaits =>
      rcases awaits with rfl | rfl | ⟨index, rfl⟩
      · cases receives
      · cases receives
        exact .of same ⟨id, (absurd · Bool.false_ne_true)⟩ fun _ =>
          .append doubling (Or.inr (Or.inr ⟨_, rfl⟩))
      · cases receives
  | readAll doubling inOrder awaits =>
      rcases awaits with rfl | rfl | ⟨entries, other, rfl⟩
      · cases receives
      · cases receives
        refine .of same ⟨id, id⟩ fun _ => .readAll doubling inOrder
          (Or.inr (Or.inr ⟨_, ?_, rfl⟩))
        have other : packet.msg ≠ "x" := by
          rcases known with msg | ⟨_, value, seen, msg⟩ | ⟨_, other⟩
          · rw [msg]
            decide
          · rw [msg]
            rcases seen with rfl | ⟨rfl, _⟩ <;> decide
          · exact other
        intro one
        have text := intercalate_parseEntries packet.msg
        rw [one] at text
        exact other text.symm
      · cases receives
  | start => cases bug <;> cases receives
  | unacked uncommitted awaits => rcases awaits with rfl | ⟨deadline, rfl⟩ <;> cases receives
  | finished done awaits => rcases awaits with rfl | rfl | rfl <;> cases receives
  | sendingPut | putDone | beforeSecond | beforeGet | beforeReadAll => cases receives

theorem outline_rules (distinct : 2 < client) (holds : (outline bug cut client).Holds before)
    (party : Party) :
    (outline bug cut client).Rule (deployment bug client) (Allowed cut) before party := by
  cases party with
  | primary =>
      have fits : PrimaryFits bug client before (before.locals .primary) := holds.parties .primary
      exact {
        sends := fun sends => ⟨trivial, fun follows => primary_sends cut fits sends follows⟩
        reads := fun reads => absurd reads (Primary.reads_never _ _)
        receives := fun _ known addressed _ _ receives =>
          primary_receives distinct fits known addressed receives }
  | follower replica =>
      have fits : FollowerFits bug cut client before replica (before.locals (.follower replica)) :=
        holds.parties (.follower replica)
      exact {
        sends := fun sends => ⟨trivial, fun follows => follower_sends fits sends follows⟩
        reads := fun reads => absurd reads (Follower.reads_never _ _)
        receives := fun _ known addressed _ allowed receives =>
          follower_receives distinct fits known addressed allowed receives }
  | client =>
      have fits : ClientFits bug cut client before (before.locals .client) := holds.parties .client
      exact {
        sends := fun sends => client_sends holds sends
        reads := fun reads => client_reads fits reads
        receives := fun member known addressed late _ receives =>
          client_receives distinct fits member known addressed late receives }

end Steps

end Detersim.KvVariants
