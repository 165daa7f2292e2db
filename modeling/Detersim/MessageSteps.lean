import Detersim.ClockRuns
import Detersim.CrashIsolation
import Detersim.MessageConservation

/-!
What a step writes into the books about messages: what the calls of the code it
runs write, the fate of the event it pops, and what a crash writes off. No other
message is sent, taken or lost.
-/

namespace Detersim

variable {State Value Plan : Type}

/-- What the call adds to the accepted sends. -/
def Call.posts (call : Call State Value) : List (Keyed × Option Keyed) :=
  (call.before.perform call.op).2.audit.sends.drop call.before.audit.sends.length

/-- What the call adds to the messages taken. -/
def Call.takes (call : Call State Value) : List (NodeId × Taking × NodeId × Message) :=
  (call.before.perform call.op).2.audit.taken.drop call.before.audit.taken.length

def EventKind.crashes : EventKind → Option NodeId
  | .nemesis (.crash node) => some node
  | _ => none

def WorldOp.crashes : WorldOp State Value Plan → Option NodeId
  | .crashNode node => some node
  | _ => none

namespace Inner

/-- The inbox that is discarded when this node crashes. -/
def lostInbox (g : Inner State Value) : Option NodeId → List (NodeId × Taking × NodeId × Message)
  | some node =>
      if node ∈ g.nodes then (g.inbox node).map fun msg => (node, .discarded, msg) else []
  | none => []

/-- The messages from the node or to it that are purged when it crashes. -/
def lostInFlight (g : Inner State Value) : Option NodeId → List (Keyed × Fate)
  | some node =>
      if node ∈ g.nodes then
        (g.queue.entries.filter fun event => match event.kind with
          | .deliverMsg sender receiver _ => decide (sender = node ∨ receiver = node)
          | _ => false).map fun event => (event, .purged node)
      else []
  | none => []

/-- What a step adds to the books when it makes these calls, pops events to these
fates and crashes this node. -/
structure StepBooked (g : Inner State Value) (made : List (Call State Value))
    (fates : List (Keyed × Fate)) (crash : Option NodeId) (after : Inner State Value) : Prop where
  sends : after.audit.sends = g.audit.sends ++ made.flatMap Call.posts
  taken : after.audit.taken = g.audit.taken ++ made.flatMap Call.takes ++ g.lostInbox crash
  finished : after.audit.finished = g.audit.finished ++ fates ++ g.lostInFlight crash

/-- The books are as they were. -/
structure Unbooked (g after : Inner State Value) : Prop where
  sends : after.audit.sends = g.audit.sends
  taken : after.audit.taken = g.audit.taken
  finished : after.audit.finished = g.audit.finished

theorem Unbooked.refl (g : Inner State Value) : Unbooked g g := ⟨rfl, rfl, rfl⟩

theorem Unbooked.trans {first second third : Inner State Value} (left : Unbooked first second)
    (right : Unbooked second third) : Unbooked first third :=
  ⟨right.sends.trans left.sends, right.taken.trans left.taken,
    right.finished.trans left.finished⟩

variable {g mid next : Inner State Value} {made : List (Call State Value)}
  {fates : List (Keyed × Fate)}

theorem Unbooked.booked (unbooked : Unbooked g next) : StepBooked g [] [] none next := by
  constructor
  · rw [unbooked.sends, List.flatMap_nil, List.append_nil]
  · rw [unbooked.taken, List.flatMap_nil, lostInbox, List.append_nil, List.append_nil]
  · rw [unbooked.finished, lostInFlight, List.append_nil, List.append_nil]

theorem StepBooked.since (booked : StepBooked mid made fates none next) (unbooked : Unbooked g mid) :
    StepBooked g made fates none next :=
  ⟨unbooked.sends ▸ booked.sends, unbooked.taken ▸ booked.taken,
    unbooked.finished ▸ booked.finished⟩

theorem StepBooked.after {crash : Option NodeId} (booked : StepBooked g made fates crash mid)
    (unbooked : Unbooked mid next) : StepBooked g made fates crash next :=
  ⟨unbooked.sends.trans booked.sends, unbooked.taken.trans booked.taken,
    unbooked.finished.trans booked.finished⟩

theorem enqueueAll_unbooked (tasks : List TaskId) (g : Inner State Value) :
    Unbooked g (tasks.foldl enqueuePollNow g) := by
  obtain ⟨queue, shape⟩ := enqueueAll_shape tasks g
  rw [shape]
  exact ⟨rfl, rfl, rfl⟩

/-! Calls. -/

theorem pollLeaf_sends (g : Inner State Value) (id : FutureId) (held : Held) :
    (g.pollLeaf id held).2.audit.sends = g.audit.sends := by
  unfold pollLeaf
  cases held.leaf with
  | sleep node deadline timer =>
      simp only [pollSleep]
      split
      · cases timer <;> rfl
      · split
        · rfl
        · split <;> rfl
  | recv node registeredTask =>
      simp only [pollRecv]
      split
      · cases registeredTask with
        | none => rfl
        | some task =>
            simp only [unregisterRecvWaiter]
            split <;> rfl
      · split <;> rfl
  | join slot waitingTask =>
      simp only [pollJoin]
      split
      · rfl
      · split_ifs
        · split <;> rfl
        · split <;> rfl

theorem release_unbooked (g : Inner State Value) (id : FutureId) : Unbooked g (g.release id) := by
  refine ⟨?_, (release_untouched g id).1, (release_frame g id).finished⟩
  unfold release
  split
  · rfl
  next held _ =>
    rw [forget_dropLeaf]
    unfold dropLeaf
    split
    · rfl
    · rfl
    · rfl
    · rfl
    · unfold unregisterRecvWaiter
      split <;> rfl
    · split <;> rfl

theorem releases_unbooked (ids : List FutureId) (g : Inner State Value) :
    Unbooked g (ids.foldl release g) := by
  induction ids generalizing g with
  | nil => exact Unbooked.refl g
  | cons id rest ih => exact (release_unbooked g id).trans (ih (g.release id))

/-- Nothing but a send adds to the accepted sends. -/
theorem perform_sends (g : Inner State Value) (op : Op State)
    (other : ∀ env receiver msg, op ≠ .send env receiver msg) :
    (g.perform op).2.audit.sends = g.audit.sends := by
  cases op with
  | send env receiver msg => exact absurd rfl (other env receiver msg)
  | record | now | rng | writeAt | flush | len | sleepUntil | recv | spawn => rfl
  | readAt env offset len =>
      simp only [perform]
      split
      · rfl
      · split <;> rfl
  | poll id =>
      simp only [perform]
      split
      · rfl
      · split_ifs
        · exact pollLeaf_sends g id _
        · rfl
  | drop id =>
      simp only [perform]
      split
      · rfl
      · split_ifs
        · exact (release_unbooked g id).sends
        · rfl

theorem perform_posts (g : Inner State Value) (op : Op State) :
    (g.perform op).2.audit.sends = g.audit.sends ++ (⟨g, op⟩ : Call State Value).posts := by
  have grown : g.audit.sends <+: (g.perform op).2.audit.sends := by
    by_cases sends : ∃ env receiver msg, op = .send env receiver msg
    · obtain ⟨env, receiver, msg, rfl⟩ := sends
      by_cases down : env ∈ g.crashed
      · simp only [perform, send, if_pos down]
        exact List.prefix_refl _
      · rcases send_booked g env receiver msg down with ⟨_, same⟩ | ⟨_, _, _, _, more, _⟩
        · exact same ▸ List.prefix_refl _
        · exact more ▸ List.prefix_append _ _
    · rw [perform_sends g op fun env receiver msg same => sends ⟨env, receiver, msg, same⟩]
  exact (List.prefix_append_drop grown)

theorem perform_takes (g : Inner State Value) (op : Op State) :
    (g.perform op).2.audit.taken = g.audit.taken ++ (⟨g, op⟩ : Call State Value).takes := by
  have grown : g.audit.taken <+: (g.perform op).2.audit.taken := by
    have booked := receive_booked g op
    unfold ReceiveBooked at booked
    split at booked
    · obtain ⟨_, _, _, _, _, _, _, _, _, more⟩ := booked
      exact more ▸ List.prefix_append _ _
    · exact booked.1 ▸ List.prefix_refl _
  exact List.prefix_append_drop grown

theorem exec_booked {Result : Type} (code : Code State Value Result) (g : Inner State Value) :
    StepBooked g (calls code g) [] none (g.exec code).2 := by
  refine ⟨?_, ?_, ?_⟩
  · induction code generalizing g with
    | done => exact (List.append_nil _).symm
    | call op next ih =>
        rw [exec, ih, perform_posts, calls, List.flatMap_cons, List.append_assoc]
  · rw [lostInbox, List.append_nil]
    induction code generalizing g with
    | done => exact (List.append_nil _).symm
    | call op next ih =>
        rw [exec, ih, perform_takes, calls, List.flatMap_cons, List.append_assoc]
  · rw [(exec_frame code g).finished, lostInFlight, List.append_nil, List.append_nil]

/-! Steps. -/

theorem restartNodeOutcome_booked (g : Inner State Value) (node : NodeId) :
    StepBooked g (restartCalls g node) [] none (g.restartNodeOutcome node).2 := by
  unfold restartNodeOutcome restartCalls
  split_ifs
  · cases g.factories.get node with
    | none => exact (Unbooked.refl g).booked
    | some factory =>
        have ran := exec_booked (factory node) { g with crashed := g.crashed.erase node }
        exact (ran.since (g := g) ⟨rfl, rfl, rfl⟩).after ⟨rfl, rfl, rfl⟩
  · exact (Unbooked.refl g).booked
  · exact (Unbooked.refl g).booked

/-- A crash writes off the inbox of its node, and what is in flight from it or to it. -/
theorem crashNode_booked (g : Inner State Value) (node : NodeId) :
    StepBooked g [] [] (some node) (g.crashNode node) := by
  unfold crashNode
  by_cases known : node ∈ g.nodes
  · rw [if_neg (not_not_intro known)]
    refine ⟨(List.append_nil _).symm, ?_, ?_⟩
    · rw [lostInbox, if_pos known, List.flatMap_nil, List.append_nil]
      rfl
    · rw [lostInFlight, if_pos known, List.append_nil]
      dsimp only
      congr 2
      refine List.filter_congr ?_
      rintro ⟨time, seq, kind⟩ _
      cases kind with
      | deliverMsg sender receiver msg =>
          simp only [isDelivery, eventIsLiveAfterCrash, Bool.true_and, Bool.not_and,
            ← decide_not, not_not, Bool.decide_or]
      | pollTask | timerFire | nemesis => rfl
  · rw [if_pos known]
    refine ⟨(List.append_nil _).symm, ?_, ?_⟩
    · rw [lostInbox, if_neg known, List.flatMap_nil, List.append_nil, List.append_nil]
    · rw [lostInFlight, if_neg known, List.append_nil, List.append_nil]

theorem applyNemesis_booked (g : Inner State Value) (action : NemesisAction) :
    StepBooked g [] [] (EventKind.nemesis action).crashes (g.applyNemesis action) := by
  cases action with
  | crash node =>
      have struck :=
        crashNode_booked { g with nemesisTrace := g.nemesisTrace ++ [.crash node] } node
      exact ⟨struck.sends, struck.taken, struck.finished⟩
  | bitRot node =>
      simp only [applyNemesis]
      split <;> exact Unbooked.booked ⟨rfl, rfl, rfl⟩
  | partition | asymmetricPartition | setLink | healAll | restart | clockSkew | tornWrite
  | lostOnCrash | preFsyncReorder => exact Unbooked.booked ⟨rfl, rfl, rfl⟩

theorem runDraws_unbooked {Result : Type} (draws : Draws Result) (g : Inner State Value) :
    Unbooked g (runDraws draws g).2 := by
  induction draws generalizing g with
  | done => exact Unbooked.refl g
  | draw label next ih =>
      have drawn : Unbooked g (g.draw (tapeLabelOf label)).2 := ⟨rfl, rfl, rfl⟩
      exact drawn.trans (ih _ _)

theorem scheduleNemesisPlan_unbooked (nextAction : NextAction Plan) (maxActions : Nat)
    (plan : Plan) (g : Inner State Value) :
    Unbooked g (scheduleNemesisPlan nextAction maxActions plan g).2 := by
  induction maxActions generalizing plan g with
  | zero => exact Unbooked.refl g
  | succ maxActions ih =>
      have drawn := runDraws_unbooked (nextAction plan g.worldView) g
      rw [scheduleNemesisPlan]
      generalize runDraws (nextAction plan g.worldView) g = result at drawn ⊢
      obtain ⟨⟨_ | entry, plan⟩, mid⟩ := result
      · exact drawn
      · have pushed : Unbooked mid (mid.pushEvent entry.1 (.nemesis entry.2)) := ⟨rfl, rfl, rfl⟩
        exact (drawn.trans pushed).trans (ih plan _)

theorem operate_booked (nextAction : NextAction Plan) (g : Inner State Value)
    (op : WorldOp State Value Plan) :
    StepBooked g (g.operateCalls op) [] op.crashes (g.operate nextAction op).2 := by
  cases op with
  | addNode node factory =>
      simp only [operate, addNode, operateCalls]
      split_ifs
      · exact (Unbooked.refl g).booked
      · have ran := exec_booked (factory node) { g with
          nodes := insert node g.nodes
          faults.connectivity := g.faults.connectivity.addNode node
          inboxes := g.inboxes.insert node ((g.inboxes.get node).getD [])
          storage := g.storage.insert node ((g.storage.get node).getD .empty)
          factories := g.factories.insert node factory }
        exact (ran.since (g := g) ⟨rfl, rfl, rfl⟩).after ⟨rfl, rfl, rfl⟩
  | scheduleNemesis | setDropPercent | setDuplicatePercent | setExtraDelayMs =>
      exact Unbooked.booked ⟨rfl, rfl, rfl⟩
  | scheduleNemesisPlan plan maxActions =>
      exact (scheduleNemesisPlan_unbooked nextAction maxActions plan g).booked
  | partition groups => exact applyNemesis_booked g (.partition groups)
  | healAll => exact applyNemesis_booked g .healAll
  | setClockSkew node offsetNs => exact applyNemesis_booked g (.clockSkew node offsetNs)
  | crashNode node => exact applyNemesis_booked g (.crash node)
  | restartNode node => exact (restartNodeOutcome_booked g node).after ⟨rfl, rfl, rfl⟩
  | restartNodeOutcome node => exact restartNodeOutcome_booked g node
  | useEnv code =>
      have ended : Unbooked (g.exec code).2 (g.operate nextAction (.useEnv code)).2 :=
        releases_unbooked _ _
      exact (exec_booked code g).after ended

theorem finishTask_unbooked (g : Inner State Value) (task : TaskId) (slot : Option SlotId)
    (value : Value) : Unbooked g (g.finishTask task slot value) := by
  have released := releases_unbooked (g.ownedBy task) g
  unfold finishTask
  cases slot with
  | none => exact released.trans ⟨rfl, rfl, rfl⟩
  | some slot =>
      dsimp only
      split
      · exact released.trans ⟨rfl, rfl, rfl⟩
      next join _ =>
        have woken := enqueueAll_unbooked join.joiners
          { (g.ownedBy task).foldl release g with
            slots := ((g.ownedBy task).foldl release g).slots.insert slot ⟨true, some value, []⟩ }
        exact (released.trans ⟨woken.sends, woken.taken, woken.finished⟩).trans ⟨rfl, rfl, rfl⟩

theorem pollTask_booked (program : Program State Value) (g : Inner State Value) (event : Keyed)
    (task : TaskId) :
    StepBooked g (pollCalls program g event task) [] none (pollTask program g event task) := by
  unfold pollTask pollCalls
  cases g.tasks.get task with
  | none => exact (Unbooked.refl g).booked
  | some slot =>
      cases ready : slot.future with
      | none =>
          simp only [ready]
          exact (Unbooked.refl g).booked
      | some future =>
          simp only [ready]
          split_ifs
          · exact Unbooked.booked ⟨rfl, rfl, rfl⟩
          · have ran := (exec_booked (program future.state)
              (({ g with tasks := g.tasks.insert task { slot with future := none } }.countDispatch
                (.dispatched event)).beginPoll task)).since (g := g) ⟨rfl, rfl, rfl⟩
            split
            next state ended shape =>
              rw [shape] at ran
              exact ran.after ⟨rfl, rfl, rfl⟩
            next value ended shape =>
              rw [shape] at ran
              exact ran.after (finishTask_unbooked ended task future.slot value)

/-- What becomes of the event when it is dispatched: a message is delivered or dropped. -/
def Fated (event : Keyed) (fates : List (Keyed × Fate)) : Prop :=
  if isDelivery event = true then
    fates = [(event, .delivered)] ∨ ∃ kind, fates = [(event, .dropped kind)]
  else fates = []

theorem deliverMsg_booked (g : Inner State Value) (event : Keyed) (sender receiver : NodeId)
    (msg : Message) : ∃ fate, (fate = .delivered ∨ ∃ kind, fate = .dropped kind) ∧
      StepBooked g [] [(event, fate)] none (g.deliverMsg event sender receiver msg) := by
  have settled (mid next : Inner State Value) (fate : Fate) (sends : next.audit.sends = mid.audit.sends)
      (taken : next.audit.taken = mid.audit.taken)
      (finished : next.audit.finished = mid.audit.finished ++ [(event, fate)])
      (drawn : Unbooked g mid) : StepBooked g [] [(event, fate)] none next := by
    have settled : StepBooked mid [] [(event, fate)] none next := by
      refine ⟨?_, ?_, ?_⟩
      · rw [sends, List.flatMap_nil, List.append_nil]
      · rw [taken, List.flatMap_nil, lostInbox, List.append_nil, List.append_nil]
      · rw [finished, lostInFlight, List.append_nil]
    exact settled.since drawn
  have dropped (mid : Inner State Value) (kind : DropKind) (drawn : Unbooked g mid) :
      ∃ fate, (fate = .delivered ∨ ∃ kind, fate = .dropped kind) ∧
        StepBooked g [] [(event, fate)] none (mid.dropDelivery event sender receiver kind) :=
    ⟨_, Or.inr ⟨kind, rfl⟩, settled mid _ (.dropped kind) rfl rfl rfl drawn⟩
  unfold deliverMsg
  split_ifs
  · exact dropped g .crashed (Unbooked.refl g)
  · exact dropped g .partition (Unbooked.refl g)
  · have moved := drawPercent_moves g g.faults.dropPercent .dropDecision
    generalize g.drawPercent g.faults.dropPercent .dropDecision = drawn at moved ⊢
    obtain ⟨lost, mid⟩ := drawn
    obtain ⟨tape, _, _, rfl⟩ := moved
    cases lost with
    | true => exact dropped _ .random ⟨rfl, rfl, rfl⟩
    | false =>
        refine ⟨.delivered, Or.inl rfl, ?_⟩
        have booked : StepBooked g [] [(event, .delivered)] none
            { ({ g with tape }.countDispatch (.dispatched event)).settle event .delivered with
              inboxes := g.inboxes.insert receiver
                ((g.inboxes.get receiver).getD [] ++ [(sender, msg)])
              recvWaiters := if g.recvWaiters.contains receiver then
                g.recvWaiters.insert receiver [] else g.recvWaiters } :=
          settled { g with tape } _ .delivered rfl rfl rfl ⟨rfl, rfl, rfl⟩
        exact booked.after (enqueueAll_unbooked _ _)
  · exact dropped g .unregistered (Unbooked.refl g)

/-- The popped event is among those a crash purges only if it is a message. -/
theorem lostInFlight_popped {g : Inner State Value} {event : Keyed} {queue : EventQueue}
    (popped : g.queue.pop = some (event, queue)) (other : isDelivery event = false)
    (crash : Option NodeId) :
    ({ g with queue, now := event.time } : Inner State Value).lostInFlight crash =
      g.lostInFlight crash := by
  cases crash with
  | none => rfl
  | some node =>
      simp only [lostInFlight, KeyedQueue.pop_eq_some.mp popped]
      rw [List.filter_cons_of_neg]
      cases kind : event.kind <;> simp_all [isDelivery]

/-- A turn writes down what its calls write, the fate of the message it pops, and
what its crash writes off. -/
theorem turn_booked {program : Program State Value} {g next : Inner State Value} {event : Keyed}
    (turned : turn program g = .next event next) :
    ∃ fates, Fated event fates ∧
      StepBooked g (turnCalls program g) fates event.kind.crashes next := by
  obtain ⟨queue, popped, within, rfl⟩ := next_shape program g next event turned
  have made : turnCalls program g =
      dispatchCalls program { g with queue, now := event.time } event := by
    simp only [turnCalls, popped, within, Bool.false_eq_true, if_false]
  rw [made]
  unfold Fated dispatchCalls dispatch isDelivery
  cases kind : event.kind with
  | pollTask task =>
      have polled := pollTask_booked program { g with queue, now := event.time } event task
      exact ⟨[], rfl, polled.since (g := g) ⟨rfl, rfl, rfl⟩⟩
  | timerFire timer =>
      refine ⟨[], rfl, Unbooked.booked ?_⟩
      dsimp only
      unfold fireTimer
      split <;> exact ⟨rfl, rfl, rfl⟩
  | deliverMsg sender receiver msg =>
      obtain ⟨fate, outcome, booked⟩ := deliverMsg_booked { g with queue, now := event.time } event
        sender receiver msg
      refine ⟨_, ?_, booked.since (g := g) ⟨rfl, rfl, rfl⟩⟩
      rcases outcome with rfl | ⟨reason, rfl⟩
      · exact Or.inl rfl
      · exact Or.inr ⟨reason, rfl⟩
  | nemesis action =>
      refine ⟨[], rfl, ?_⟩
      by_cases restart : ∃ node, action = .restart node
      · obtain ⟨node, rfl⟩ := restart
        have restarted := restartNodeOutcome_booked
          { ({ g with queue, now := event.time }.countDispatch (.dispatched event)) with
            nemesisTrace := g.nemesisTrace ++ [.restart node] } node
        exact (restarted.since (g := g) ⟨rfl, rfl, rfl⟩).after ⟨rfl, rfl, rfl⟩
      · have applied := applyNemesis_booked
          ({ g with queue, now := event.time }.countDispatch (.dispatched event)) action
        have lost := lostInFlight_popped popped (by simp [isDelivery, kind])
          (EventKind.nemesis action).crashes
        have booked : StepBooked g [] [] (EventKind.nemesis action).crashes
            (({ g with queue, now := event.time }.countDispatch (.dispatched event)).applyNemesis
              action) :=
          ⟨applied.sends, applied.taken, lost ▸ applied.finished⟩
        cases action with
        | restart node => exact absurd ⟨node, rfl⟩ restart
        | partition | asymmetricPartition | setLink | healAll | crash | clockSkew | tornWrite
        | lostOnCrash | preFsyncReorder | bitRot => exact booked

theorem abort_booked {program : Program State Value} {g next : Inner State Value} {event : Keyed}
    (aborted : turn program g = .abort event next) :
    StepBooked g [] (if isDelivery event = true then [(event, .aborted)] else []) none next := by
  obtain ⟨queue, _, _, rfl⟩ := abort_shape program g next event aborted
  split_ifs
  · refine ⟨(List.append_nil _).symm, ?_, ?_⟩
    · simp [lostInbox, settle]
    · simp [lostInFlight, settle]
  · exact Unbooked.booked ⟨rfl, rfl, rfl⟩

/-! Conservation. -/

/-- What one call writes: an accepted send makes one event and at most one copy,
and a call that returns a message takes it from the inbox; no other call sends or
takes any. -/
structure CallBooked (g : Inner State Value) (op : Op State) : Prop where
  sends : ∀ sender receiver msg, op = .send sender receiver msg → sender ∉ g.crashed →
    SendBooked g sender receiver msg
  refusals : ∀ sender receiver msg, op = .send sender receiver msg → sender ∈ g.crashed →
    (g.perform op).2.created = g.created ∧ (g.perform op).2.inFlight = g.inFlight
  others : (∀ sender receiver msg, op ≠ .send sender receiver msg) →
    (g.perform op).2.audit.sends = g.audit.sends
  receives : ReceiveBooked g op

theorem call_booked (g : Inner State Value) (op : Op State) : CallBooked g op where
  sends sender receiver msg _ := send_booked g sender receiver msg
  refusals := by
    rintro sender receiver msg rfl down
    simp only [perform, send, if_pos down]
    exact ⟨rfl, rfl⟩
  others := perform_sends g op
  receives := receive_booked g op

/-- Each message event ever made is queued or has met one fate. Fates are what
the trace shows, and a run that aborts cuts off one event. What was delivered to
a node is what its receives took and its crashes discarded, in order, and then
its inbox. The next step, whatever it is, adds to this what its calls write, the
fate of the event it pops and, if it is a crash, what the crash writes off. -/
structure MessagesConserved (program : Program State Value) (nextAction : NextAction Plan)
    (g : Inner State Value) : Prop where
  places : g.inFlight + g.settled = g.created
  distinct : g.created.Nodup
  copies : ∀ original copy, (original, copy) ∈ g.audit.sends →
    isDelivery original = true ∧ ∀ again ∈ copy, again.kind = original.kind
  lines : g.networkLines = g.audit.finished.filterMap outcomeLine
  purges : ∀ event node, (event, .purged node) ∈ g.audit.finished →
    ∃ sender receiver msg, event.kind = .deliverMsg sender receiver msg ∧
      (sender = node ∨ receiver = node)
  cutOff : (run program g).world.cutOff = g.cutOff ++ match (run program g).stop with
    | .quiesced => []
    | .aborted event => if isDelivery event = true then [event] else []
  inboxes : ∀ node, g.deliveredTo node = g.takenFrom node ++ g.inbox node
  once : g.completed.Nodup
  calls : ∀ op, CallBooked g op
  operates : ∀ op : WorldOp State Value Plan,
    StepBooked g (g.operateCalls op) [] op.crashes (g.operate nextAction op).2 ∧
      ∀ call ∈ g.operateCalls op, CallBooked call.before call.op
  turns : ∀ event next, turn program g = .next event next →
    (∃ fates, Fated event fates ∧
      StepBooked g (turnCalls program g) fates event.kind.crashes next) ∧
      ∀ call ∈ turnCalls program g, CallBooked call.before call.op
  aborts : ∀ event next, turn program g = .abort event next →
    StepBooked g [] (if isDelivery event = true then [(event, .aborted)] else []) none next

theorem message_conservation (program : Program State Value) (nextAction : NextAction Plan)
    (g : Inner State Value) (reachable : Reachable program nextAction g) :
    MessagesConserved program nextAction g := by
  have placed := reachable_placed program nextAction g reachable
  have recorded := reachable_recorded program nextAction g reachable
  exact {
    places := placed.places
    distinct := Multiset.Nodup.of_map _ placed.distinct
    copies := recorded.copies
    lines := recorded.lines
    purges := recorded.purges
    cutOff := run_cutOff program g recorded
    inboxes := recorded.inboxes
    once := (reachable_counted program nextAction g reachable).once
    calls := call_booked g
    operates := fun op => ⟨operate_booked nextAction g op, fun _ _ => call_booked _ _⟩
    turns := fun _ _ turned => ⟨turn_booked turned, fun _ _ => call_booked _ _⟩
    aborts := fun _ _ => abort_booked }

/-! Three letters: one is received, one lies in the inbox and one is under way when
the node they go to crashes. -/

inductive Correspondent where
  | writes
  | reads
  | waits (letter : FutureId)
  | idles

def letters : Program Correspondent Unit
  | .writes => .call (.send 0 1 [1]) fun _ => .call (.send 0 1 [2]) fun _ =>
      .call (.send 0 1 [3]) fun _ => .done (.ready ())
  | .reads => .call (.recv 1) fun
    | .future letter => .call (.poll letter) fun _ => .done (.pending (.waits letter))
    | _ => .done (.pending .idles)
  | .waits letter => .call (.poll letter) fun
    | .pending => .done (.pending (.waits letter))
    | _ => .done (.pending .idles)
  | .idles => .done (.pending .idles)

/-- The letters take one, two and three milliseconds. -/
def lettersWorld : Inner Correspondent Unit :=
  ((((replay 0 [0, 1, 2] {}).operate noPlans (.addNode 0 fun _ => .done .writes)).2.operate noPlans
    (.addNode 1 fun _ => .done .reads)).2)

/-- The world after the crash. -/
def lettersLost : Inner Correspondent Unit :=
  ((advance letters 5 lettersWorld).operate noPlans (.crashNode 1)).2

theorem letters_conserved :
    MessagesConserved letters noPlans lettersLost ∧
      lettersLost.audit.taken = [(1, .received 0, 0, [1]), (1, .discarded, 0, [2])] ∧
      lettersLost.audit.finished.map (fun entry => (entry.1.seq, entry.2)) =
        [(2, .delivered), (3, .delivered), (4, .purged 1)] := by
  refine ⟨message_conservation letters noPlans lettersLost ?_, by decide +kernel,
    by decide +kernel⟩
  refine Reachable.operate _ (reachable_advance 5 ?_)
  exact Reachable.operate _ (Reachable.operate _ (Reachable.replay 0 [0, 1, 2] {}))

end Inner

end Detersim
