import Detersim.Identities

/-!
Where messages are. Every `DeliverMsg` event ever pushed is queued or has met
exactly one fate, and what was delivered to a node is, in order, what its
receives returned and its crashes discarded, followed by its inbox.
-/

namespace Detersim

namespace Inner

variable {State Value Plan : Type}

/-- Every `DeliverMsg` event ever pushed. -/
def created (g : Inner State Value) : Multiset Keyed :=
  g.audit.sends.flatMap fun send => send.1 :: send.2.toList

def inFlight (g : Inner State Value) : Multiset Keyed := g.queue.select isDelivery

def settled (g : Inner State Value) : Multiset Keyed := g.audit.finished.map Prod.fst

def deliveredTo (g : Inner State Value) (node : NodeId) : List (NodeId × Message) :=
  g.audit.finished.filterMap fun
    | (⟨_, _, .deliverMsg sender receiver msg⟩, .delivered) =>
        if receiver = node then some (sender, msg) else none
    | _ => none

def takenFrom (g : Inner State Value) (node : NodeId) : List (NodeId × Message) :=
  g.audit.taken.filterMap fun (from_, _, msg) => if from_ = node then some msg else none

def inbox (g : Inner State Value) (node : NodeId) : List (NodeId × Message) :=
  (g.inboxes.get node).getD []

/-- The events that aborts took out of the queue. -/
def cutOff (g : Inner State Value) : List Keyed :=
  g.audit.finished.filterMap fun
    | (event, .aborted) => some event
    | _ => none

/-- The trace lines about the network: deliveries and drops. -/
def networkLine : TraceLine → Option TraceLine
  | .dispatched event => if isDelivery event then some (.dispatched event) else none
  | .dropped kind time seq sender receiver => some (.dropped kind time seq sender receiver)
  | .sendFromCrashed .. => none

def networkLines (g : Inner State Value) : List TraceLine := g.trace.filterMap networkLine

/-- The line for an event that was dispatched. -/
def outcomeLine : Keyed × Fate → Option TraceLine
  | (event, .delivered) => some (.dispatched event)
  | (⟨time, seq, .deliverMsg sender receiver _⟩, .dropped kind) =>
      some (.dropped kind time seq sender receiver)
  | _ => none

/-! The places of an event. -/

-- `places` is an equation of multisets: no event is lost, and none is in two places.
structure Placed (g : Inner State Value) : Prop where
  places : g.inFlight + g.settled = g.created
  below : ∀ event ∈ g.created, event.seq < g.seq
  distinct : (g.created.map Keyed.seq).Nodup

theorem Placed.keep {g after : Inner State Value} (placed : Placed g)
    (inFlight : after.inFlight = g.inFlight) (finished : after.audit.finished = g.audit.finished)
    (sends : after.audit.sends = g.audit.sends) (seq : g.seq ≤ after.seq) : Placed after := by
  have created : after.created = g.created := by rw [Inner.created, sends, Inner.created]
  have settled : after.settled = g.settled := by rw [Inner.settled, finished, Inner.settled]
  constructor
  · rw [inFlight, settled, created, placed.places]
  · intro event member
    exact (placed.below event (created ▸ member)).trans_le seq
  · rw [created]
    exact placed.distinct

theorem created_sends {g after : Inner State Value} {original : Keyed} {copy : Option Keyed}
    (sends : after.audit.sends = g.audit.sends ++ [(original, copy)]) :
    after.created = g.created + ↑(original :: copy.toList) := by
  rw [created, sends, List.flatMap_append, ← Multiset.coe_add, created, List.flatMap_singleton]

/-- A send adds to the queue what it adds to the account. -/
theorem Placed.send {g after : Inner State Value} (placed : Placed g) (original : Keyed)
    (copy : Option Keyed) (inFlight : after.inFlight = g.inFlight + ↑(original :: copy.toList))
    (finished : after.audit.finished = g.audit.finished)
    (sends : after.audit.sends = g.audit.sends ++ [(original, copy)])
    (young : ∀ event ∈ original :: copy.toList, g.seq ≤ event.seq ∧ event.seq < after.seq)
    (different : ((original :: copy.toList).map Keyed.seq).Nodup) (seq : g.seq ≤ after.seq) :
    Placed after := by
  have settled : after.settled = g.settled := by rw [Inner.settled, finished, Inner.settled]
  have created := created_sends sends
  constructor
  · rw [inFlight, settled, created, ← placed.places, add_right_comm]
  · intro event member
    rw [created] at member
    rcases Multiset.mem_add.mp member with old | new
    · exact (placed.below event old).trans_le seq
    · exact (young event (Multiset.mem_coe.mp new)).2
  · rw [created, Multiset.map_add, Multiset.nodup_add]
    refine ⟨placed.distinct, Multiset.coe_nodup.mpr different, ?_⟩
    rw [Multiset.disjoint_left]
    intro number old new
    obtain ⟨event, member, rfl⟩ := Multiset.mem_map.mp old
    obtain ⟨other, pushed, same⟩ := Multiset.mem_map.mp new
    have first := placed.below event member
    have second := (young other (Multiset.mem_coe.mp pushed)).1
    omega

/-- Events move from the queue to their fates. -/
theorem Placed.settle {g after : Inner State Value} (placed : Placed g) (gone : List (Keyed × Fate))
    (inFlight : after.inFlight + ↑(gone.map Prod.fst) = g.inFlight)
    (finished : after.audit.finished = g.audit.finished ++ gone)
    (sends : after.audit.sends = g.audit.sends) (seq : g.seq ≤ after.seq) : Placed after := by
  have created : after.created = g.created := by rw [Inner.created, sends, Inner.created]
  have settled : after.settled = g.settled + ↑(gone.map Prod.fst) := by
    rw [Inner.settled, finished, List.map_append, ← Multiset.coe_add, Inner.settled]
  constructor
  · rw [settled, created, ← placed.places, ← inFlight, add_assoc, add_comm g.settled]
  · intro event member
    exact (placed.below event (created ▸ member)).trans_le seq
  · rw [created]
    exact placed.distinct

theorem select_delivery (queue : EventQueue) (event : Keyed) (delivery : isDelivery event = true) :
    (queue.push event).select isDelivery = event ::ₘ queue.select isDelivery := by
  rw [KeyedQueue.select_push, if_pos delivery]

theorem inFlight_pushed {g after : Inner State Value} {time : UInt64} {seq : Nat}
    {kind : EventKind} (queue : after.queue = g.queue.push ⟨time, seq, kind⟩)
    (other : isDelivery ⟨time, seq, kind⟩ = false) : after.inFlight = g.inFlight := by
  rw [inFlight, queue, KeyedQueue.select_push, other, inFlight]
  rfl

theorem inFlight_enqueueAll (tasks : List TaskId) (g : Inner State Value) :
    (tasks.foldl enqueuePollNow g).inFlight = g.inFlight := by
  induction tasks generalizing g with
  | nil => rfl
  | cons task rest ih => exact (ih (g.enqueuePollNow task)).trans (inFlight_pushed rfl rfl)

section Effects

variable {rules : Rules State Value} {fills : SlotId → Prop} {outside : Prop}

theorem placed_op {g after : Inner State Value} (effect : OpEffect rules g after)
    (placed : Placed g) : Placed after := by
  cases effect with
  | sent sender receiver msg time =>
      refine placed.send ⟨time, g.seq, .deliverMsg sender receiver msg⟩ none ?_ rfl rfl (by simp)
        (by simp) (Nat.le_succ _)
      rw [inFlight, select_delivery _ _ rfl, add_comm g.inFlight]
      rfl
  | sentTwice sender receiver msg time again =>
      -- The copy has a number of its own, the next one.
      refine placed.send ⟨time, g.seq, .deliverMsg sender receiver msg⟩
        (some ⟨again, g.seq + 1, .deliverMsg sender receiver msg⟩) ?_ rfl rfl (by simp) (by simp)
        (Nat.le_add_right _ _)
      rw [inFlight, select_delivery _ _ rfl, select_delivery _ _ rfl, Multiset.cons_swap,
        add_comm g.inFlight]
      rfl
  | started => exact placed.keep (inFlight_pushed rfl rfl) rfl rfl (Nat.le_succ _)
  | armed => exact placed.keep (inFlight_pushed rfl rfl) rfl rfl (Nat.le_succ _)
  | unregistered node task =>
      unfold unregisterRecvWaiter
      split <;> exact placed.keep rfl rfl rfl le_rfl
  | quiet | held | opened | gave | unarmed | cancelled | forgot | waited | received | joining
  | handled => exact placed.keep rfl rfl rfl le_rfl

theorem placed_crash {g : Inner State Value} (node : NodeId) (placed : Placed g) :
    Placed (g.crashNode node) := by
  unfold crashNode
  split_ifs
  · -- What the crash takes out of the queue is what it books as purged.
    dsimp only
    refine placed.settle ((g.queue.entries.filter fun event => isDelivery event &&
      !eventIsLiveAfterCrash event.kind node _ _).map fun event => (event, .purged node))
      ?_ rfl rfl le_rfl
    rw [List.map_map]
    have split := KeyedQueue.select_retain g.queue isDelivery fun event =>
      eventIsLiveAfterCrash event.kind node
        (fun task => (g.tasks.get task).any fun slot => decide (slot.node = node))
        (g.timers.retain fun _ task =>
          !(g.tasks.get task).any fun slot => decide (slot.node = node))
    rw [← List.map_id (g.queue.entries.filter _)] at split
    exact split
  · exact placed

theorem placed_change (g after : Inner State Value) (change : Change rules fills outside g after)
    (placed : Placed g) : Placed after := by
  cases change with
  | op effect => exact placed_op effect placed
  | loop effect =>
      cases effect with
      | crashed node => exact placed_crash node placed
      | filled slot join value =>
          have woken := inFlight_enqueueAll join.joiners
            { g with slots := g.slots.insert slot ⟨true, some value, []⟩ }
          obtain ⟨queue, shape⟩ := enqueueAll_shape join.joiners
            { g with slots := g.slots.insert slot ⟨true, some value, []⟩ }
          refine placed.keep woken ?_ ?_ ?_
          all_goals rw [shape]
          exact Nat.le_add_right _ _
      | scheduled => exact placed.keep (inFlight_pushed rfl rfl) rfl rfl (Nat.le_succ _)
      | faulted | drawn | revived | registered | parked | halted | ended =>
          exact placed.keep rfl rfl rfl le_rfl

theorem inFlight_popped {g : Inner State Value} {event : Keyed} {queue : EventQueue}
    (popped : g.queue.pop = some (event, queue)) :
    queue.select isDelivery + ↑(if isDelivery event then [event] else []) = g.inFlight := by
  rw [inFlight, KeyedQueue.select_of_pop popped, add_comm]
  split_ifs <;> rfl

theorem placed_pop {g after : Inner State Value} {event : Keyed} (effect : PopEffect g event after)
    (placed : Placed g) : Placed after := by
  have other {queue} (popped : g.queue.pop = some (event, queue))
      (kind : isDelivery event = false) : queue.select isDelivery = g.inFlight := by
    rw [← inFlight_popped popped, kind]
    exact (add_zero _).symm
  have delivery {queue} (popped : g.queue.pop = some (event, queue))
      (kind : isDelivery event = true) (fate : Fate) :
      queue.select isDelivery + ↑([(event, fate)].map Prod.fst) = g.inFlight := by
    rw [← inFlight_popped popped, kind]
    rfl
  cases effect with
  | idle queue dispatched trace popped reason =>
      refine placed.keep (other popped ?_) rfl rfl le_rfl
      cases kind : event.kind <;> simp_all [Idle, isDelivery]
  | fired queue timer task popped kind =>
      have gone := other popped (by simp [isDelivery, kind])
      exact placed.keep (Eq.trans (KeyedQueue.select_push queue isDelivery _) gone) rfl rfl
        (Nat.le_succ _)
  | dropped queue tape sender receiver msg reason popped kind =>
      exact placed.settle [(event, .dropped reason)]
        (delivery popped (by simp [isDelivery, kind]) _) rfl rfl le_rfl
  | delivered queue tape sender receiver msg popped kind =>
      have gone := delivery popped (by simp [isDelivery, kind]) .delivered
      have settled : Placed { g with
          queue, now := event.time, tape
          dispatched := g.dispatched + 1
          trace := g.trace ++ [TraceLine.dispatched event]
          audit.finished := g.audit.finished ++ [(event, .delivered)]
          inboxes := g.inboxes.insert receiver
            ((g.inboxes.get receiver).getD [] ++ [(sender, msg)])
          recvWaiters := if g.recvWaiters.contains receiver then g.recvWaiters.insert receiver []
            else g.recvWaiters } :=
        placed.settle [(event, .delivered)] gone rfl rfl le_rfl
      obtain ⟨_, shape⟩ := enqueueAll_shape ((g.recvWaiters.get receiver).getD []) _
      refine settled.keep (inFlight_enqueueAll _ _) ?_ ?_ ?_
      all_goals rw [shape]
      exact Nat.le_add_right _ _
  | begun queue task slot future popped kind =>
      exact placed.keep (other popped (by simp [isDelivery, kind])) rfl rfl le_rfl
  | lost queue task slot popped kind =>
      exact placed.keep (other popped (by simp [isDelivery, kind])) rfl rfl le_rfl

end Effects

theorem reachable_placed (program : Program State Value) (nextAction : NextAction Plan)
    (g : Inner State Value) (reachable : Reachable program nextAction g) : Placed g := by
  refine reachable_invariant program nextAction Placed ?_ (fun _ _ => placed_change)
    (fun _ _ _ => placed_pop) ?_ g reachable
  · intro _ _ _ _
    exact ⟨rfl, fun event member => absurd member (Multiset.notMem_zero event), Multiset.nodup_zero⟩
  · intro g after event aborted placed
    obtain ⟨queue, popped, _, rfl⟩ := abort_shape program g after event aborted
    have gone := inFlight_popped popped
    split_ifs with delivery
    · rw [delivery] at gone
      exact placed.settle [(event, .aborted)] gone rfl rfl le_rfl
    · rw [(Bool.not_eq_true _).mp delivery] at gone
      exact placed.keep ((add_zero _).symm.trans gone) rfl rfl le_rfl

/-! The books: what is written when, and in which order. -/

structure Recorded (g : Inner State Value) : Prop where
  lines : g.networkLines = g.audit.finished.filterMap outcomeLine
  copies : ∀ original copy, (original, copy) ∈ g.audit.sends →
    isDelivery original = true ∧ ∀ again ∈ copy, again.kind = original.kind
  purges : ∀ event node, (event, .purged node) ∈ g.audit.finished →
    ∃ sender receiver msg, event.kind = .deliverMsg sender receiver msg ∧
      (sender = node ∨ receiver = node)
  inboxes : ∀ node, g.deliveredTo node = g.takenFrom node ++ g.inbox node

/-- What an update does to the books. -/
inductive Booked (g after : Inner State Value) : Prop where
  | same (sends : after.audit.sends = g.audit.sends)
      (finished : after.audit.finished = g.audit.finished)
      (taken : after.audit.taken = g.audit.taken) (lines : after.networkLines = g.networkLines)
      (inboxes : ∀ node, after.inbox node = g.inbox node)
  | sent (original copy)
      (kinds : isDelivery original = true ∧ ∀ again ∈ copy, again.kind = original.kind)
      (sends : after.audit.sends = g.audit.sends ++ [(original, copy)])
      (finished : after.audit.finished = g.audit.finished)
      (taken : after.audit.taken = g.audit.taken) (lines : after.networkLines = g.networkLines)
      (inboxes : ∀ node, after.inbox node = g.inbox node)
  | received (id node msg rest) (arrived : g.inboxes.get node = some (msg :: rest))
      (shape : after = g.completeRecv id node msg rest)
  | crashed (node) (shape : after = g.crashNode node)

theorem Recorded.keep {g after : Inner State Value} (recorded : Recorded g)
    (booked : Booked g after) : Recorded after ∧ after.cutOff = g.cutOff := by
  cases booked with
  | same sends finished taken lines inboxes =>
      refine ⟨⟨?_, ?_, ?_, ?_⟩, by rw [cutOff, finished, cutOff]⟩
      · rw [lines, finished, recorded.lines]
      · rw [sends]
        exact recorded.copies
      · rw [finished]
        exact recorded.purges
      · intro node
        rw [deliveredTo, finished, takenFrom, taken, inboxes]
        exact recorded.inboxes node
  | sent original copy kinds sends finished taken lines inboxes =>
      refine ⟨⟨?_, ?_, ?_, ?_⟩, by rw [cutOff, finished, cutOff]⟩
      · rw [lines, finished, recorded.lines]
      · intro first second member
        rw [sends, List.mem_append, List.mem_singleton] at member
        rcases member with old | new
        · exact recorded.copies first second old
        · cases new
          exact kinds
      · rw [finished]
        exact recorded.purges
      · intro node
        rw [deliveredTo, finished, takenFrom, taken, inboxes]
        exact recorded.inboxes node
  | received id at_ msg rest arrived shape =>
      subst shape
      refine ⟨⟨recorded.lines, recorded.copies, recorded.purges, ?_⟩, rfl⟩
      intro node
      -- The first message of the inbox becomes the last one taken.
      have before := recorded.inboxes node
      have taken : (g.completeRecv id at_ msg rest).takenFrom node =
          g.takenFrom node ++ if at_ = node then [msg] else [] := by
        rw [takenFrom, completeRecv, List.filterMap_append, takenFrom]
        by_cases here : at_ = node <;> simp [here]
      have left : g.inbox node =
          (if at_ = node then [msg] else []) ++ (g.completeRecv id at_ msg rest).inbox node := by
        by_cases here : at_ = node
        · subst here
          simp [inbox, completeRecv, arrived]
        · simp [inbox, completeRecv, here, SortedMap.get_insert_of_ne _ _ (Ne.symm here)]
      rw [taken, List.append_assoc, ← left]
      exact before
  | crashed node shape =>
      subst shape
      unfold crashNode
      split_ifs with known
      · dsimp only
        refine ⟨⟨?_, recorded.copies, ?_, ?_⟩, ?_⟩
        · rw [List.filterMap_append, List.filterMap_map]
          simp only [Function.comp_def, outcomeLine, List.filterMap_none, List.append_nil]
          exact recorded.lines
        · intro event other member
          rcases List.mem_append.mp member with old | new
          · exact recorded.purges event other old
          · obtain ⟨purged, inside, same⟩ := List.mem_map.mp new
            cases same
            obtain ⟨_, delivery⟩ := List.mem_filter.mp inside
            obtain ⟨time, seq, kind⟩ := event
            cases kind with
            | deliverMsg sender receiver msg =>
                refine ⟨sender, receiver, msg, rfl, ?_⟩
                simp only [isDelivery, eventIsLiveAfterCrash, Bool.true_and, Bool.not_eq_true',
                  Bool.and_eq_false_iff, decide_eq_false_iff_not, not_not] at delivery
                exact delivery
            | pollTask | timerFire | nemesis => simp [isDelivery] at delivery
        · intro other
          -- The crashed node's inbox moves to the messages taken, in order.
          have before := recorded.inboxes other
          simp only [deliveredTo, takenFrom, inbox, List.filterMap_append, List.filterMap_map,
            Function.comp_def, List.filterMap_none, List.append_nil] at before ⊢
          rw [before]
          by_cases here : node = other
          · subst here
            simp
          · simp [here, SortedMap.get_remove_of_ne _ (Ne.symm here)]
        · rw [cutOff, List.filterMap_append, List.filterMap_map]
          simp only [Function.comp_def, List.filterMap_none, List.append_nil]
          rfl
      · exact ⟨recorded, rfl⟩

section Effects

variable {rules : Rules State Value} {fills : SlotId → Prop} {outside : Prop}

theorem op_booked {g after : Inner State Value} (effect : OpEffect rules g after) :
    Booked g after := by
  cases effect with
  | quiet history trace _ _ _ _ noted =>
      refine Booked.same rfl rfl rfl ?_ fun _ => rfl
      rcases noted with rfl | ⟨sender, receiver, rfl⟩
      · rfl
      · simp [networkLines, networkLine, List.filterMap_append]
  | sent sender receiver msg time =>
      exact Booked.sent _ none ⟨rfl, by simp⟩ rfl rfl rfl rfl fun _ => rfl
  | sentTwice sender receiver msg time again =>
      exact Booked.sent _ (some ⟨again, g.seq + 1, .deliverMsg sender receiver msg⟩)
        ⟨rfl, by simp⟩ rfl rfl rfl rfl fun _ => rfl
  | received id held node registeredTask msg rest _ _ arrived =>
      exact Booked.received id node msg rest arrived rfl
  | unregistered node task =>
      unfold unregisterRecvWaiter
      split <;> exact Booked.same rfl rfl rfl rfl fun _ => rfl
  | held | opened | started | gave | armed | unarmed | cancelled | forgot | waited | joining
  | handled => exact Booked.same rfl rfl rfl rfl fun _ => rfl

theorem enqueueAll_booked (tasks : List TaskId) (g : Inner State Value) :
    Booked g (tasks.foldl enqueuePollNow g) := by
  obtain ⟨queue, shape⟩ := enqueueAll_shape tasks g
  rw [shape]
  exact Booked.same rfl rfl rfl rfl fun _ => rfl

theorem change_booked {g after : Inner State Value}
    (change : Change rules fills outside g after) : Booked g after := by
  cases change with
  | op effect => exact op_booked effect
  | loop effect =>
      cases effect with
      | crashed node => exact Booked.crashed node rfl
      | registered node =>
          refine Booked.same rfl rfl rfl rfl ?_
          intro other
          simp only [inbox, SortedMap.get_insert]
          split_ifs with same
          · subst same
            rfl
          · rfl
      | filled slot join value =>
          obtain ⟨queue, shape⟩ := enqueueAll_shape join.joiners
            { g with slots := g.slots.insert slot ⟨true, some value, []⟩ }
          rw [shape]
          exact Booked.same rfl rfl rfl rfl fun _ => rfl
      | faulted | drawn | revived | parked | halted | ended | scheduled =>
          exact Booked.same rfl rfl rfl rfl fun _ => rfl

theorem changes_recorded {g after : Inner State Value}
    (changes : Changes rules fills outside g after) (recorded : Recorded g) :
    Recorded after ∧ after.cutOff = g.cutOff := by
  induction changes with
  | refl => exact ⟨recorded, rfl⟩
  | tail _ change ih =>
      obtain ⟨kept, same⟩ := ih.1.keep (change_booked change)
      exact ⟨kept, same.trans ih.2⟩

theorem lines_dispatched {g after : Inner State Value} {event : Keyed}
    (trace : after.trace = g.trace ∨ after.trace = g.trace ++ [TraceLine.dispatched event])
    (other : isDelivery event = false) : after.networkLines = g.networkLines := by
  rcases trace with same | more
  · rw [networkLines, same, networkLines]
  · rw [networkLines, more, List.filterMap_append]
    simp [networkLine, other, networkLines]

theorem pop_recorded {g after : Inner State Value} {event : Keyed}
    (effect : PopEffect g event after) (recorded : Recorded g) :
    Recorded after ∧ after.cutOff = g.cutOff := by
  cases effect with
  | idle queue dispatched trace popped reason noted =>
      have other : isDelivery event = false := by
        cases kind : event.kind <;> simp_all [Idle, isDelivery]
      exact recorded.keep (Booked.same rfl rfl rfl (lines_dispatched noted other) fun _ => rfl)
  | fired queue timer task popped kind =>
      exact recorded.keep (Booked.same rfl rfl rfl
        (lines_dispatched (Or.inr rfl) (by simp [isDelivery, kind])) fun _ => rfl)
  | begun queue task slot future popped kind =>
      exact recorded.keep (Booked.same rfl rfl rfl
        (lines_dispatched (Or.inr rfl) (by simp [isDelivery, kind])) fun _ => rfl)
  | lost queue task slot popped kind =>
      exact recorded.keep (Booked.same rfl rfl rfl rfl fun _ => rfl)
  | dropped queue tape sender receiver msg reason popped kind =>
      obtain ⟨time, seq, _⟩ := event
      cases kind
      refine ⟨⟨?_, recorded.copies, ?_, ?_⟩, ?_⟩
      · simp only [networkLines, List.filterMap_append]
        rw [← networkLines, recorded.lines]
        rfl
      · intro event node member
        rcases List.mem_append.mp member with old | new
        · exact recorded.purges event node old
        · simp at new
      · intro node
        simp only [deliveredTo, List.filterMap_append, List.filterMap_cons, List.filterMap_nil,
          List.append_nil]
        exact recorded.inboxes node
      · simp [cutOff, List.filterMap_append]
  | delivered queue tape sender receiver msg popped kind =>
      obtain ⟨time, seq, _⟩ := event
      cases kind
      have settled : Recorded { g with
          queue, now := time, tape
          dispatched := g.dispatched + 1
          trace := g.trace ++ [TraceLine.dispatched ⟨time, seq, .deliverMsg sender receiver msg⟩]
          audit.finished := g.audit.finished ++
            [(⟨time, seq, .deliverMsg sender receiver msg⟩, .delivered)]
          inboxes := g.inboxes.insert receiver
            ((g.inboxes.get receiver).getD [] ++ [(sender, msg)])
          recvWaiters := if g.recvWaiters.contains receiver then g.recvWaiters.insert receiver []
            else g.recvWaiters } := by
        refine ⟨?_, recorded.copies, ?_, ?_⟩
        · simp only [networkLines, List.filterMap_append]
          rw [← networkLines, recorded.lines]
          rfl
        · intro event node member
          rcases List.mem_append.mp member with old | new
          · exact recorded.purges event node old
          · simp at new
        · -- Both sides grow at their end by the message delivered.
          intro node
          have before := recorded.inboxes node
          simp only [deliveredTo, inbox, List.filterMap_append, takenFrom] at before ⊢
          rw [before]
          by_cases here : receiver = node
          · subst here
            simp
          · simp [here, SortedMap.get_insert_of_ne _ _ (Ne.symm here)]
      obtain ⟨kept, same⟩ := settled.keep (enqueueAll_booked _ _)
      refine ⟨kept, same.trans ?_⟩
      simp [cutOff, List.filterMap_append]

end Effects

theorem abort_recorded {program : Program State Value} {g after : Inner State Value}
    {event : Keyed} (aborted : turn program g = .abort event after) (recorded : Recorded g) :
    Recorded after ∧
      after.cutOff = g.cutOff ++ if isDelivery event = true then [event] else [] := by
  obtain ⟨queue, popped, _, rfl⟩ := abort_shape program g after event aborted
  split_ifs with delivery
  · refine ⟨⟨?_, recorded.copies, ?_, ?_⟩, ?_⟩
    · simp only [settle, List.filterMap_append]
      rw [← recorded.lines]
      simp [outcomeLine, networkLines]
    · intro other node member
      rcases List.mem_append.mp member with old | new
      · exact recorded.purges other node old
      · simp at new
    · intro node
      simp only [settle, deliveredTo, List.filterMap_append, List.filterMap_cons,
        List.filterMap_nil, List.append_nil]
      exact recorded.inboxes node
    · simp [settle, cutOff, List.filterMap_append]
  · exact ⟨{ recorded with }, (List.append_nil _).symm⟩

theorem reachable_recorded (program : Program State Value) (nextAction : NextAction Plan)
    (g : Inner State Value) (reachable : Reachable program nextAction g) : Recorded g := by
  refine reachable_invariant program nextAction Recorded ?_ ?_ ?_ ?_ g reachable
  · intro _ _ _ _
    exact ⟨rfl, by simp [fromTape], by simp [fromTape], fun _ => rfl⟩
  · exact fun _ _ _ _ change recorded => (recorded.keep (change_booked change)).1
  · exact fun _ _ _ effect recorded => (pop_recorded effect recorded).1
  · exact fun _ _ _ aborted recorded => (abort_recorded aborted recorded).1

/-- A run cuts off at most the one event it aborts at. -/
theorem run_cutOff (program : Program State Value) (g : Inner State Value)
    (recorded : Recorded g) :
    (run program g).world.cutOff = g.cutOff ++ match (run program g).stop with
      | .quiesced => []
      | .aborted event => if isDelivery event = true then [event] else [] := by
  obtain ⟨events, last, turns, stopped⟩ := run_stops program g
  have kept : Recorded last ∧ last.cutOff = g.cutOff := by
    -- No turn before the abort cuts an event off.
    refine KeyedQueue.runs_keep (fun h => Recorded h ∧ h.cutOff = g.cutOff) ?_ ⟨recorded, rfl⟩
      turns
    rintro before event after ⟨fine, same⟩ turned
    obtain ⟨mid, popped, changes⟩ := turn_changes program before after event turned
      (fun _ => dispatchMeets_any program _ _)
    obtain ⟨fine, first⟩ := pop_recorded popped fine
    obtain ⟨fine, second⟩ := changes_recorded changes fine
    exact ⟨fine, second.trans (first.trans same)⟩
  rcases stopped with ⟨_, result⟩ | ⟨event, next, aborted, result⟩
  · rw [result, kept.2]
    exact (List.append_nil _).symm
  · rw [result, (abort_recorded aborted kept.1).2, kept.2]

/-! What the calls do to the books. -/

/-- An accepted send from a running node makes one event, and at most one copy. -/
def SendBooked (g : Inner State Value) (sender receiver : NodeId) (msg : Message) : Prop :=
  (g.send sender receiver msg).1 = .panicked ∧
      (g.send sender receiver msg).2.audit.sends = g.audit.sends ∨
    (g.send sender receiver msg).1 = .unit ∧
      ∃ (original : Keyed) (copy : Option Keyed),
        original.kind = .deliverMsg sender receiver msg ∧
        (g.send sender receiver msg).2.audit.sends = g.audit.sends ++ [(original, copy)] ∧
        (g.send sender receiver msg).2.inFlight = g.inFlight + ↑(original :: copy.toList)

theorem send_booked (g : Inner State Value) (sender receiver : NodeId) (msg : Message)
    (running : sender ∉ g.crashed) : SendBooked g sender receiver msg := by
  obtain ⟨moved, ⟨tape, _, _, rfl⟩, sent | ⟨time, _, sent⟩ | ⟨time, again, _, _, sent⟩⟩ :=
    send_cases g sender receiver msg running
  · exact Or.inl ⟨by rw [sent], by rw [sent]⟩
  · refine Or.inr ⟨by rw [sent], ⟨time, g.seq, .deliverMsg sender receiver msg⟩, none, rfl,
      by rw [sent], ?_⟩
    rw [sent, inFlight, select_delivery _ _ rfl, add_comm g.inFlight]
    rfl
  · refine Or.inr ⟨by rw [sent], ⟨time, g.seq, .deliverMsg sender receiver msg⟩,
      some ⟨again, g.seq + 1, .deliverMsg sender receiver msg⟩, rfl, by rw [sent], ?_⟩
    rw [sent, inFlight, select_delivery _ _ rfl, select_delivery _ _ rfl, Multiset.cons_swap,
      add_comm g.inFlight]
    rfl

/-- A call that returns a message is the poll of a receive, and takes the first
message of the inbox; no other call takes any. -/
def ReceiveBooked (g : Inner State Value) (op : Op State) : Prop :=
  match (g.perform op).1 with
  | .message sender msg => ∃ id node owner registeredTask rest, op = .poll id ∧
      g.futures.get id = some ⟨owner, .recv node registeredTask⟩ ∧
      g.inbox node = (sender, msg) :: rest ∧ (g.perform op).2.inbox node = rest ∧
      (g.perform op).2.audit.taken = g.audit.taken ++ [(node, .received id, sender, msg)]
  | _ => (g.perform op).2.audit.taken = g.audit.taken ∧ (g.perform op).2.inboxes = g.inboxes

theorem ReceiveBooked.untouched {g : Inner State Value} {op : Op State}
    (silent : ∀ sender msg, (g.perform op).1 ≠ .message sender msg)
    (taken : (g.perform op).2.audit.taken = g.audit.taken)
    (inboxes : (g.perform op).2.inboxes = g.inboxes) : ReceiveBooked g op := by
  unfold ReceiveBooked
  split
  next sender msg reply => exact absurd reply (silent sender msg)
  next => exact ⟨taken, inboxes⟩

theorem release_untouched (g : Inner State Value) (id : FutureId) :
    (g.release id).audit.taken = g.audit.taken ∧ (g.release id).inboxes = g.inboxes := by
  unfold release
  split
  · exact ⟨rfl, rfl⟩
  next held _ =>
    rw [forget_dropLeaf]
    unfold dropLeaf
    split
    · exact ⟨rfl, rfl⟩
    · exact ⟨rfl, rfl⟩
    · exact ⟨rfl, rfl⟩
    · exact ⟨rfl, rfl⟩
    · unfold unregisterRecvWaiter
      split <;> exact ⟨rfl, rfl⟩
    · split <;> exact ⟨rfl, rfl⟩

theorem pollSleep_untouched (g : Inner State Value) (id : FutureId) (held : Held) (node : NodeId)
    (deadline : SimTime) (timer : Option TimerId) :
    (∀ sender msg, (g.pollSleep id held node deadline timer).1 ≠ .message sender msg) ∧
      (g.pollSleep id held node deadline timer).2.audit.taken = g.audit.taken ∧
      (g.pollSleep id held node deadline timer).2.inboxes = g.inboxes := by
  unfold pollSleep
  dsimp only
  split_ifs
  · cases timer <;> exact ⟨by simp, rfl, rfl⟩
  · split
    · exact ⟨by simp, rfl, rfl⟩
    · split <;> exact ⟨by simp, rfl, rfl⟩

theorem pollJoin_untouched (g : Inner State Value) (id : FutureId) (held : Held) (slot : SlotId) :
    (∀ sender msg, (g.pollJoin id held slot).1 ≠ .message sender msg) ∧
      (g.pollJoin id held slot).2.audit.taken = g.audit.taken ∧
      (g.pollJoin id held slot).2.inboxes = g.inboxes := by
  unfold pollJoin
  split
  · exact ⟨by simp, rfl, rfl⟩
  · split_ifs
    · split <;> exact ⟨by simp, rfl, rfl⟩
    · split <;> exact ⟨by simp, rfl, rfl⟩

theorem send_untouched (g : Inner State Value) (sender receiver : NodeId) (msg : Message) :
    (∀ from_ body, (g.send sender receiver msg).1 ≠ .message from_ body) ∧
      (g.send sender receiver msg).2.audit.taken = g.audit.taken ∧
      (g.send sender receiver msg).2.inboxes = g.inboxes := by
  by_cases down : sender ∈ g.crashed
  · rw [send, if_pos down]
    exact ⟨by simp, rfl, rfl⟩
  · obtain ⟨moved, ⟨tape, _, _, rfl⟩, sent | ⟨time, _, sent⟩ | ⟨time, again, _, _, sent⟩⟩ :=
      send_cases g sender receiver msg down
    all_goals
      rw [sent]
      exact ⟨by simp, rfl, rfl⟩

theorem pollRecv_message {g : Inner State Value} {node : NodeId} {msg : NodeId × Message}
    {rest : List (NodeId × Message)} (arrived : g.inboxes.get node = some (msg :: rest))
    (id : FutureId) (held : Held) (registeredTask : Option TaskId) :
    ∃ recvWaiters, g.pollRecv id held node registeredTask =
      (.message msg.1 msg.2, { g.completeRecv id node msg rest with recvWaiters }) := by
  unfold pollRecv
  rw [arrived]
  cases registeredTask with
  | none => exact ⟨g.recvWaiters, rfl⟩
  | some task =>
      dsimp only
      unfold unregisterRecvWaiter
      split
      · exact ⟨g.recvWaiters, rfl⟩
      · exact ⟨_, rfl⟩

theorem pollRecv_empty {g : Inner State Value} {node : NodeId} (empty : g.inbox node = [])
    (id : FutureId) (held : Held) (registeredTask : Option TaskId) :
    (∀ sender msg, (g.pollRecv id held node registeredTask).1 ≠ .message sender msg) ∧
      (g.pollRecv id held node registeredTask).2.audit.taken = g.audit.taken ∧
      (g.pollRecv id held node registeredTask).2.inboxes = g.inboxes := by
  unfold pollRecv
  split
  next msg rest arrived => simp [inbox, arrived] at empty
  next => split <;> exact ⟨by simp, rfl, rfl⟩

theorem pollRecv_booked (g : Inner State Value) (id : FutureId) (owner : Option TaskId)
    (node : NodeId) (registeredTask : Option TaskId)
    (present : g.futures.get id = some ⟨owner, .recv node registeredTask⟩)
    (running : owner = g.currentTask) : ReceiveBooked g (.poll id) := by
  have polled : g.perform (.poll id) =
      g.pollRecv id ⟨owner, .recv node registeredTask⟩ node registeredTask := by
    simp only [perform, present, if_pos running, pollLeaf]
  cases arrived : g.inbox node with
  | nil =>
      obtain ⟨silent, taken, inboxes⟩ := pollRecv_empty arrived id
        ⟨owner, .recv node registeredTask⟩ registeredTask
      rw [← polled] at silent taken inboxes
      exact ReceiveBooked.untouched silent taken inboxes
  | cons msg rest =>
      have stored : g.inboxes.get node = some (msg :: rest) := by
        cases found : g.inboxes.get node <;> simp_all [inbox]
      obtain ⟨recvWaiters, shape⟩ := pollRecv_message stored id
        ⟨owner, .recv node registeredTask⟩ registeredTask
      unfold ReceiveBooked
      rw [polled, shape]
      refine ⟨id, node, owner, registeredTask, rest, rfl, present, arrived, ?_, rfl⟩
      simp [inbox, completeRecv]

theorem receive_booked (g : Inner State Value) (op : Op State) : ReceiveBooked g op := by
  cases op with
  | send env receiver msg =>
      obtain ⟨silent, taken, inboxes⟩ := send_untouched g env receiver msg
      exact ReceiveBooked.untouched silent taken inboxes
  | readAt env offset len =>
      have read : (∀ sender msg, (g.perform (.readAt env offset len)).1 ≠ .message sender msg) ∧
          (g.perform (.readAt env offset len)).2 = g := by
        simp only [perform]
        split
        · exact ⟨by simp, rfl⟩
        · split <;> exact ⟨by simp, rfl⟩
      exact ReceiveBooked.untouched read.1 (by rw [read.2]) (by rw [read.2])
  | poll id =>
      cases present : g.futures.get id with
      | none =>
          have polled : g.perform (.poll id) = (.panicked, g) := by simp only [perform, present]
          exact ReceiveBooked.untouched (by simp [polled]) (by rw [polled]) (by rw [polled])
      | some held =>
          obtain ⟨owner, leaf⟩ := held
          by_cases running : owner = g.currentTask
          · cases leaf with
            | recv node registeredTask =>
                exact pollRecv_booked g id owner node registeredTask present running
            | sleep node deadline timer =>
                have polled : g.perform (.poll id) =
                    g.pollSleep id ⟨owner, .sleep node deadline timer⟩ node deadline timer := by
                  simp only [perform, present, if_pos running, pollLeaf]
                obtain ⟨silent, taken, inboxes⟩ := pollSleep_untouched g id
                  ⟨owner, .sleep node deadline timer⟩ node deadline timer
                rw [← polled] at silent taken inboxes
                exact ReceiveBooked.untouched silent taken inboxes
            | join slot waitingTask =>
                have polled : g.perform (.poll id) =
                    g.pollJoin id ⟨owner, .join slot waitingTask⟩ slot := by
                  simp only [perform, present, if_pos running, pollLeaf]
                obtain ⟨silent, taken, inboxes⟩ := pollJoin_untouched g id
                  ⟨owner, .join slot waitingTask⟩ slot
                rw [← polled] at silent taken inboxes
                exact ReceiveBooked.untouched silent taken inboxes
          · have polled : g.perform (.poll id) = (.panicked, g) := by
              simp only [perform, present, if_neg running]
            exact ReceiveBooked.untouched (by simp [polled]) (by rw [polled]) (by rw [polled])
  | drop id =>
      have dropped : (∀ sender msg, (g.perform (.drop id)).1 ≠ .message sender msg) ∧
          ((g.perform (.drop id)).2 = g ∨ (g.perform (.drop id)).2 = g.release id) := by
        simp only [perform]
        split
        · exact ⟨by simp, Or.inl rfl⟩
        · split_ifs
          · exact ⟨by simp, Or.inr rfl⟩
          · exact ⟨by simp, Or.inl rfl⟩
      obtain ⟨silent, same | released⟩ := dropped
      · exact ReceiveBooked.untouched silent (by rw [same]) (by rw [same])
      · exact ReceiveBooked.untouched silent (by rw [released, (release_untouched g id).1])
          (by rw [released, (release_untouched g id).2])
  | record | now | rng | writeAt | flush | len | sleepUntil | recv | spawn =>
      exact ReceiveBooked.untouched (by simp [perform, hold, spawn]) rfl rfl

end Inner

end Detersim
