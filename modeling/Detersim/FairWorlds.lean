import Detersim.Exploration
import Detersim.HostedPolls

/-!
A world that is fair to the parties it hosts. Nothing gets lost but at barred links:
what was sent is under way or has arrived. Time and work are bounded by how much was
sent.
-/

namespace Detersim

namespace Inner

variable {State Value : Type}

/-- The tasks that wait for a message to the node. -/
def listed (g : Inner State Value) (node : NodeId) : List TaskId := (g.recvWaiters.get node).getD []

/-- The dispatches an event may come to: a delivery also wakes a task. -/
def weight (event : Keyed) : Nat := if isDelivery event then 2 else 1

def load (queue : EventQueue) : Nat := ((queue.select fun _ => true).map weight).sum

theorem load_push (queue : EventQueue) (event : Keyed) :
    load (queue.push event) = load queue + weight event := by
  rw [load, KeyedQueue.select_push, if_pos rfl, Multiset.map_cons, Multiset.sum_cons, Nat.add_comm]
  rfl

theorem load_of_pop {queue rest : EventQueue} {event : Keyed}
    (popped : queue.pop = some (event, rest)) : load queue = load rest + weight event := by
  rw [load, KeyedQueue.select_of_pop popped, if_pos rfl, Multiset.map_cons, Multiset.sum_cons,
    Nat.add_comm]
  rfl

theorem load_polls {queue : EventQueue} (polls : ∀ event ∈ queue, isDelivery event = false) :
    load queue ≤ queue.entries.length := by
  have one (event : Keyed) (member : event ∈ queue.select fun _ => true) : weight event = 1 := by
    rw [KeyedQueue.select, Multiset.mem_coe, List.mem_filter] at member
    rw [weight, polls event member.1]
    rfl
  rw [load, Multiset.map_congr rfl one, Multiset.map_const', Multiset.sum_replicate,
    nsmul_one, Nat.cast_id, KeyedQueue.select, Multiset.coe_card]
  exact List.length_filter_le _ _

/-- The message is in the inbox, and no task is woken yet. -/
def arrived (g : Inner State Value) (event : Keyed) (sender receiver : NodeId) (msg : Message) :
    Inner State Value :=
  { (g.countDispatch (.dispatched event)).settle event .delivered with
    inboxes := g.inboxes.insert receiver ((g.inboxes.get receiver).getD [] ++ [(sender, msg)])
    recvWaiters := if g.recvWaiters.contains receiver then g.recvWaiters.insert receiver []
      else g.recvWaiters }

theorem acceptDelivery_eq (g : Inner State Value) (event : Keyed) (sender receiver : NodeId)
    (msg : Message) : g.acceptDelivery event sender receiver msg =
      (g.listed receiver).foldl enqueuePollNow (g.arrived event sender receiver msg) := rfl

theorem listed_arrived (g : Inner State Value) (event : Keyed) (sender receiver : NodeId)
    (msg : Message) (node : NodeId) : (g.arrived event sender receiver msg).listed node =
      if node = receiver then [] else g.listed node := by
  change ((if g.recvWaiters.contains receiver then g.recvWaiters.insert receiver []
    else g.recvWaiters).get node).getD [] = _
  by_cases known : g.recvWaiters.contains receiver = true
  · rw [if_pos known, SortedMap.get_insert]
    split_ifs <;> rfl
  · rw [if_neg known]
    split_ifs with same
    · rw [SortedMap.contains, Option.isSome_iff_ne_none, not_not] at known
      rw [same, known]
      rfl
    · rfl

theorem inbox_arrived (g : Inner State Value) (event : Keyed) (sender receiver : NodeId)
    (msg : Message) (node : NodeId) : (g.arrived event sender receiver msg).inbox node =
      if node = receiver then g.inbox node ++ [(sender, msg)] else g.inbox node := by
  change ((g.inboxes.insert receiver _).get node).getD [] = _
  rw [SortedMap.get_insert]
  split_ifs with same
  · rw [same]
    rfl
  · rfl

/-- A send where neither delays nor copies are added. -/
theorem send_once (g : Inner State Value) (sender receiver : NodeId) (msg : Message)
    (up : sender ∉ g.crashed) (single : g.faults.duplicatePercent = 0)
    (prompt : g.faults.extraDelayMs = 0) :
    ∃ tape sends time, SimTime.Follows time g.now ∧
      time.toNat ≤ g.now.toNat + 100 * nanosPerMilli ∧
      g.send sender receiver msg = (.unit, { g with
        tape, seq := g.seq + 1, audit.sends := sends
        queue := g.queue.push ⟨time, g.seq, .deliverMsg sender receiver msg⟩ }) := by
  have drawn : g.drawNetDelayMs =
      (some (1 + (g.draw .netDelay).1 % 100), (g.draw .netDelay).2) := by
    have prompt : (g.draw .netDelay).2.faults.extraDelayMs = 0 := prompt
    rw [drawNetDelayMs]
    dsimp only
    rw [if_pos prompt]
  have base := toNat_base (g.draw .netDelay).1
  have least : (g.draw .netDelay).1.toNat % 100 < 100 := Nat.mod_lt _ (by decide)
  refine ⟨(g.tape.draw .netDelay).2, g.audit.sends ++ [(⟨g.now.saturatingAdd
      ((1 + (g.draw .netDelay).1 % 100).toNat * nanosPerMilli), g.seq,
      .deliverMsg sender receiver msg⟩, none)],
    g.now.saturatingAdd ((1 + (g.draw .netDelay).1 % 100).toNat * nanosPerMilli), ?_, ?_, ?_⟩
  · exact SimTime.follows_saturatingAdd g.now
      (Nat.mul_pos (by rw [base]; omega) (by decide))
  · rw [SimTime.toNat_saturatingAdd, base]
    have most := Nat.mul_le_mul_right nanosPerMilli (Nat.add_comm 1 _ ▸ least :
      1 + (g.draw .netDelay).1.toNat % 100 ≤ 100)
    omega
  · rw [send, if_neg up, drawn]
    dsimp only
    have single : ((g.draw .netDelay).2.pushEvent (g.now.saturatingAdd
        ((1 + (g.draw .netDelay).1 % 100).toNat * nanosPerMilli))
        (.deliverMsg sender receiver msg)).faults.duplicatePercent = 0 := single
    rw [show (g.draw .netDelay).2.now = g.now from rfl, single, drawPercent_zero]
    rfl

end Inner

namespace Hosting

open Datagrams

variable {Party : Type} {Local : Party → Type}

/-- How long a message may be under way. -/
def spanNanos : Nat := 100 * nanosPerMilli

structure Fair (host : Host Party Local) (barred : NodeId → NodeId → Prop) (base : Nat)
    (g : Hosted Local) (system : System NodeId String SimTime Local) : Prop where
  up : g.crashed = ∅
  certain : g.faults.dropPercent = 0
  single : g.faults.duplicatePercent = 0
  prompt : g.faults.extraDelayMs = 0
  linked : ∀ sender receiver,
    ¬ barred (host.deployment.address sender) (host.deployment.address receiver) →
      g.faults.connectivity.isConnected (host.deployment.address sender)
        (host.deployment.address receiver) = true
  cut : ∀ sender receiver, barred sender receiver →
    g.faults.connectivity.isConnected sender receiver = false
  housed : ∀ party, host.deployment.address party ∈ g.nodes
  plain : ∀ event ∈ g.queue, (∃ task, event.kind = .pollTask task) ∨
    ∃ party receiver msg, event.kind = .deliverMsg (host.deployment.address party) receiver msg
  short : ∀ node, (g.listed node).length ≤ 1
  now : g.now.toNat ≤ system.sent.length * spanNanos
  clock : ∀ event ∈ g.queue, event.time.toNat ≤ system.sent.length * spanNanos
  work : g.dispatched + Inner.load g.queue ≤ base + 2 * system.sent.length
  kept : ∀ sender party msg, ¬ barred sender (host.deployment.address party) →
    system.sent.countP (carries sender (host.deployment.address party) msg) ≤
      g.underWay sender (host.deployment.address party) (host.encode msg) +
        system.delivered.countP (carries sender (host.deployment.address party) msg)

variable {host : Host Party Local} {barred : NodeId → NodeId → Prop} {base : Nat}
  {g after : Hosted Local} {system : System NodeId String SimTime Local}

/-- Only fields are set that have nothing to do with messages. -/
theorem Fair.still (fair : Fair host barred base g system) (crashed : after.crashed = g.crashed)
    (faults : after.faults = g.faults) (nodes : after.nodes = g.nodes)
    (queue : after.queue = g.queue) (inboxes : after.inboxes = g.inboxes)
    (short : ∀ node, (after.listed node).length ≤ 1) (now : after.now = g.now)
    (dispatched : after.dispatched = g.dispatched) : Fair host barred base after system where
  up := crashed ▸ fair.up
  certain := faults ▸ fair.certain
  single := faults ▸ fair.single
  prompt := faults ▸ fair.prompt
  linked := faults ▸ fair.linked
  cut := faults ▸ fair.cut
  housed := nodes ▸ fair.housed
  plain := queue ▸ fair.plain
  short
  now := now ▸ fair.now
  clock := queue ▸ fair.clock
  work := by rw [dispatched, queue]; exact fair.work
  kept sender party msg passes := by
    rw [Inner.underWay, Inner.inFlight, queue, Inner.inbox, inboxes]
    exact fair.kept sender party msg passes

/-- A party sends. -/
theorem Fair.send (fair : Fair host barred base g system) (party : Party) (receiver : NodeId)
    (msg : String) {time : SimTime} (soon : time.toNat ≤ g.now.toNat + spanNanos)
    (tape : EntropyTape) (sends : List (Keyed × Option Keyed)) :
    Fair host barred base { g with
      tape, seq := g.seq + 1, audit.sends := sends
      queue := g.queue.push
        ⟨time, g.seq, .deliverMsg (host.deployment.address party) receiver (host.encode msg)⟩ }
      (system.send (host.deployment.address party) receiver msg) := by
  have longer : (system.send (host.deployment.address party) receiver msg).sent.length =
      system.sent.length + 1 := by
    rw [System.send_sent, List.length_append, List.length_singleton]
  refine { fair with plain := ?_, now := ?_, clock := ?_, work := ?_, kept := ?_ }
  · intro event member
    rcases (KeyedQueue.mem_push _ _ _).mp member with rfl | old
    · exact .inr ⟨party, receiver, _, rfl⟩
    · exact fair.plain event old
  · rw [longer, Nat.succ_mul]
    exact Nat.le_add_right_of_le fair.now
  · intro event member
    rw [longer, Nat.succ_mul]
    rcases (KeyedQueue.mem_push _ _ _).mp member with rfl | old
    · exact soon.trans (Nat.add_le_add_right fair.now _)
    · exact Nat.le_add_right_of_le (fair.clock event old)
  · have two : Inner.weight ⟨time, g.seq,
      .deliverMsg (host.deployment.address party) receiver (host.encode msg)⟩ = 2 := rfl
    have work := fair.work
    rw [longer, Inner.load_push, two]
    change g.dispatched + _ ≤ _
    omega
  · intro sender' party' msg' passes
    have kept := fair.kept sender' party' msg' passes
    have delivery : Inner.isDelivery ⟨time, g.seq,
      .deliverMsg (host.deployment.address party) receiver (host.encode msg)⟩ = true := rfl
    rw [Inner.underWay, Inner.inFlight] at kept ⊢
    change _ ≤ Multiset.countP _ ((g.queue.push _).select Inner.isDelivery) +
      (g.inbox _).count _ + system.delivered.countP _
    rw [KeyedQueue.select_push, if_pos delivery, Multiset.countP_cons, System.send_sent,
      List.countP_append, countP_carries]
    simp only [EventKind.deliverMsg.injEq, (encode_injective host).eq_iff]
    omega

/-- The first message of an inbox is handed over. -/
theorem Fair.receive (fair : Fair host barred base g system) {node sender : NodeId} {msg : Message}
    {rest : List (NodeId × Message)} (arrived : g.inboxes.get node = some ((sender, msg) :: rest))
    (audit : Audit) {packet : Packet NodeId String SimTime} (from_ : packet.sender = sender)
    (receiver : packet.receiver = node) (decoded : host.decode msg = packet.msg) :
    Fair host barred base { g with inboxes := g.inboxes.insert node rest, audit }
      (system.handOver packet) := by
  refine { fair with kept := ?_ }
  intro sender' party msg' passes
  have kept := fair.kept sender' party msg' passes
  have inbox : g.inbox node = (sender, msg) :: rest := by rw [Inner.inbox, arrived]; rfl
  have moved : (g.inbox (host.deployment.address party)).count (sender', host.encode msg') ≤
      (((g.inboxes.insert node rest).get (host.deployment.address party)).getD []).count
        (sender', host.encode msg') +
      if carries sender' (host.deployment.address party) msg' packet then 1 else 0 := by
    by_cases here : host.deployment.address party = node
    · subst here
      rw [inbox, List.count_cons, SortedMap.get_insert_self]
      refine Nat.add_le_add_left ?_ _
      split_ifs with same carried
      · exact le_rfl
      · cases beq_iff_eq.mp same
        rw [host.decode_encode] at decoded
        exact absurd (decide_eq_true ⟨from_, receiver, decoded.symm⟩) carried
      · exact Nat.zero_le _
      · exact le_rfl
    · rw [Inner.inbox, SortedMap.get_insert_of_ne _ _ here]
      exact Nat.le_add_right _ _
  change system.sent.countP _ ≤ g.inFlight.countP _ +
    (((g.inboxes.insert node rest).get _).getD []).count _ + (packet :: system.delivered).countP _
  rw [List.countP_cons]
  rw [Inner.underWay] at kept
  omega

/-- A task is woken. -/
theorem Fair.wake (fair : Fair host barred base g system) (task : TaskId)
    (room : g.dispatched + Inner.load g.queue < base + 2 * system.sent.length) :
    Fair host barred base (g.enqueuePollNow task) system := by
  have one : Inner.weight ⟨g.now, g.seq, .pollTask task⟩ = 1 := rfl
  have other : Inner.isDelivery ⟨g.now, g.seq, .pollTask task⟩ = false := rfl
  refine { fair with plain := ?_, clock := ?_, work := ?_, kept := ?_ }
  · intro event member
    rcases (KeyedQueue.mem_push _ _ _).mp member with rfl | old
    · exact .inl ⟨task, rfl⟩
    · exact fair.plain event old
  · intro event member
    rcases (KeyedQueue.mem_push _ _ _).mp member with rfl | old
    · exact fair.now
    · exact fair.clock event old
  · rw [Inner.enqueuePollNow, Inner.pushEvent, Inner.load_push, one]
    exact room
  · intro sender party msg passes
    have kept := fair.kept sender party msg passes
    rw [Inner.underWay, Inner.inFlight] at kept ⊢
    change _ ≤ Multiset.countP _ ((g.queue.push _).select Inner.isDelivery) + (g.inbox _).count _ + _
    rw [KeyedQueue.select_push, other]
    exact kept

section Pop

variable {event : Keyed} {queue : EventQueue} (popped : g.queue.pop = some (event, queue))
include popped

/-- An event is gone that is no message to a party, or one that is barred. -/
theorem Fair.pop (fair : Fair host barred base g system) {dispatched : Nat}
    (spent : dispatched ≤ g.dispatched + Inner.weight event)
    (spares : ∀ sender party msg, event.kind = .deliverMsg sender (host.deployment.address party) msg →
      barred sender (host.deployment.address party)) :
    Fair host barred base { g with queue, now := event.time, dispatched } system := by
  have first := fair.clock event ((KeyedQueue.mem_of_pop popped event).mpr (.inl rfl))
  have inside (other : Keyed) (member : other ∈ queue) : other ∈ g.queue :=
    (KeyedQueue.mem_of_pop popped other).mpr (.inr member)
  have work := fair.work
  rw [Inner.load_of_pop popped] at work
  have less : dispatched + Inner.load queue ≤ base + 2 * system.sent.length := by omega
  refine { fair with plain := ?_, now := first, clock := ?_, work := less, kept := ?_ }
  · exact fun other member => fair.plain other (inside other member)
  · exact fun other member => fair.clock other (inside other member)
  · intro sender party msg passes
    have kept := fair.kept sender party msg passes
    rw [Inner.underWay, Inner.inFlight, KeyedQueue.select_of_pop popped] at kept
    rw [Inner.underWay, Inner.inFlight]
    change _ ≤ Multiset.countP _ (queue.select Inner.isDelivery) + (g.inbox _).count _ + _
    split_ifs at kept with delivery
    · have other : event.kind ≠
          .deliverMsg sender (host.deployment.address party) (host.encode msg) :=
        fun kind => passes (spares sender party _ kind)
      rw [Multiset.countP_cons_of_neg _ (by simpa using other)] at kept
      exact kept
    · exact kept

/-- A message arrives, and wakes the task that waits for it. -/
theorem Fair.accept (fair : Fair host barred base g system) {sender receiver : NodeId}
    {msg : Message} (kind : event.kind = .deliverMsg sender receiver msg) :
    Fair host barred base (Inner.acceptDelivery { g with queue, now := event.time } event sender
      receiver msg) system := by
  have first := fair.clock event ((KeyedQueue.mem_of_pop popped event).mpr (.inl rfl))
  have inside (other : Keyed) (member : other ∈ queue) : other ∈ g.queue :=
    (KeyedQueue.mem_of_pop popped other).mpr (.inr member)
  have delivery : Inner.isDelivery event = true := by rw [Inner.isDelivery, kind]
  have work := fair.work
  rw [Inner.load_of_pop popped, Inner.weight, if_pos delivery] at work
  have here (node : NodeId) : ((Inner.arrived { g with queue, now := event.time } event sender
      receiver msg).listed node).length ≤ 1 := by
    rw [Inner.listed_arrived]
    split_ifs
    · exact Nat.zero_le 1
    · exact fair.short node
  have less : g.dispatched + 1 + Inner.load queue < base + 2 * system.sent.length := by omega
  have arrived : Fair host barred base (Inner.arrived { g with queue, now := event.time } event sender
      receiver msg) system := by
    refine { fair with
      plain := ?_, short := here, now := first, clock := ?_, work := less.le, kept := ?_ }
    · exact fun other member => fair.plain other (inside other member)
    · exact fun other member => fair.clock other (inside other member)
    · intro sender' party msg' passes
      have kept := fair.kept sender' party msg' passes
      have moved : (Inner.inbox (Inner.arrived { g with queue, now := event.time } event sender
          receiver msg) (host.deployment.address party)).count (sender', host.encode msg') =
          (g.inbox (host.deployment.address party)).count (sender', host.encode msg') +
          if event.kind = .deliverMsg sender' (host.deployment.address party) (host.encode msg')
            then 1 else 0 := by
        rw [Inner.inbox_arrived, kind]
        split_ifs with same sent sent
        · cases sent
          rw [List.count_append, List.count_singleton_self]
          rfl
        · have other : ((sender, msg) == (sender', host.encode msg')) = false := by
            simp only [EventKind.deliverMsg.injEq, same, true_and] at sent
            simpa using sent
          rw [List.count_append, List.count_singleton, other]
          rfl
        · exact absurd (EventKind.deliverMsg.inj sent).2.1.symm same
        · rfl
      rw [Inner.underWay, Inner.inFlight, KeyedQueue.select_of_pop popped, if_pos delivery,
        Multiset.countP_cons] at kept
      rw [Inner.underWay, moved]
      change system.sent.countP _ ≤ (queue.select Inner.isDelivery).countP _ + _ +
        system.delivered.countP _
      omega
  rw [Inner.acceptDelivery_eq]
  have waiting : Inner.listed { g with queue, now := event.time } receiver = g.listed receiver := rfl
  have short := fair.short receiver
  rw [waiting]
  generalize g.listed receiver = tasks at short ⊢
  cases tasks with
  | nil => exact arrived
  | cons task rest =>
      cases List.eq_nil_of_length_eq_zero (Nat.le_zero.mp (Nat.le_of_succ_le_succ short))
      exact arrived.wake task less

end Pop

end Hosting

end Detersim
