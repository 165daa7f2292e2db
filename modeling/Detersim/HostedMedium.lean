import Detersim.Hosting

/-!
The network of a world as the medium of its parties: what is queued or has arrived
was sent before, and nothing is there more often than it was sent.
-/

namespace Detersim

namespace Inner

variable {State Value : Type}

/-- The copies of a message that are queued or have arrived. -/
def underWay (g : Inner State Value) (sender receiver : NodeId) (msg : Message) : Nat :=
  g.inFlight.countP (fun event => event.kind = .deliverMsg sender receiver msg) +
    (g.inbox receiver).count (sender, msg)

/-- No message is sent, and no clock goes on. -/
structure Fades (g after : Inner State Value) : Prop where
  now : after.now = g.now
  skews : after.faults.clockSkewNs = g.faults.clockSkewNs
  duplicates : after.faults.duplicatePercent = g.faults.duplicatePercent
  read : ∀ node last, after.lastLocalNow.get node = some last →
    g.lastLocalNow.get node = some last ∨ last = g.now
  inboxes : ∀ node, (after.inbox node).Sublist (g.inbox node)
  inFlight : after.inFlight ≤ g.inFlight
  queue : ∀ event ∈ after.queue, event ∈ g.queue ∨ isDelivery event = false ∧ g.now ≤ event.time

theorem follows_le {time now : SimTime} (follows : time.Follows now) : now ≤ time := by
  rcases follows with later | last
  · exact UInt64.le_of_lt later
  · rw [UInt64.le_iff_toNat_le, last]
    exact toNat_le_u64Max now

namespace Fades

variable {g after : Inner State Value}

theorem refl (g : Inner State Value) : Fades g g :=
  ⟨rfl, rfl, rfl, fun _ _ => Or.inl, fun _ => List.Sublist.refl _, le_rfl, fun _ => Or.inl⟩

theorem trans {first second third : Inner State Value} (left : Fades first second)
    (right : Fades second third) : Fades first third where
  now := right.now.trans left.now
  skews := right.skews.trans left.skews
  duplicates := right.duplicates.trans left.duplicates
  read node last present := by
    rcases right.read node last present with old | now
    · exact left.read node last old
    · exact Or.inr (now.trans left.now)
  inboxes node := (right.inboxes node).trans (left.inboxes node)
  inFlight := right.inFlight.trans left.inFlight
  queue event member := by
    rcases right.queue event member with old | ⟨other, later⟩
    · exact left.queue event old
    · exact Or.inr ⟨other, left.now ▸ later⟩

/-- Only fields the medium does not look at are set. -/
theorem still (now : after.now = g.now) (skews : after.faults.clockSkewNs = g.faults.clockSkewNs)
    (duplicates : after.faults.duplicatePercent = g.faults.duplicatePercent)
    (lastLocalNow : after.lastLocalNow = g.lastLocalNow) (inboxes : after.inboxes = g.inboxes)
    (queue : after.queue = g.queue) : Fades g after where
  now
  skews
  duplicates
  read node last present := Or.inl (lastLocalNow ▸ present)
  inboxes node := by rw [inbox, inboxes, inbox]
  inFlight := by rw [Inner.inFlight, queue, Inner.inFlight]
  queue event member := Or.inl (queue ▸ member)

theorem push (g : Inner State Value) (time : SimTime) (kind : EventKind) (later : g.now ≤ time)
    (other : isDelivery ⟨time, g.seq, kind⟩ = false) : Fades g (g.pushEvent time kind) where
  now := rfl
  skews := rfl
  duplicates := rfl
  read _ _ := Or.inl
  inboxes _ := List.Sublist.refl _
  inFlight := (inFlight_pushed (g := g) rfl other).le
  queue event member := by
    rcases (KeyedQueue.mem_push _ _ event).mp member with rfl | old
    · exact Or.inr ⟨other, later⟩
    · exact Or.inl old

theorem enqueueAll (tasks : List TaskId) (g : Inner State Value) :
    Fades g (tasks.foldl enqueuePollNow g) := by
  induction tasks generalizing g with
  | nil => exact refl g
  | cons task rest ih => exact (push g g.now _ (UInt64.le_refl _) rfl).trans (ih _)

theorem underWay (fades : Fades g after) (sender receiver : NodeId) (msg : Message) :
    after.underWay sender receiver msg ≤ g.underWay sender receiver msg :=
  Nat.add_le_add (Multiset.countP_le_of_le _ fades.inFlight)
    ((fades.inboxes receiver).count_le _)

end Fades

/-- The delay is never zero. -/
theorem drawNetDelayMs_positive (g : Inner State Value) {delay : UInt64}
    (drawn : g.drawNetDelayMs.1 = some delay) : 0 < delay.toNat := by
  have base := toNat_base (g.draw .netDelay).1
  unfold drawNetDelayMs at drawn
  dsimp only at drawn
  split_ifs at drawn with none_ last beyond
  · cases drawn
    omega
  · cases drawn
    rw [UInt64.toNat_add, Nat.mod_eq_of_lt]
    · omega
    · rw [u64Max] at beyond
      omega

theorem drawPercent_zero (g : Inner State Value) (label : TapeLabel) :
    g.drawPercent 0 label = (false, g) := rfl

/-- The events a send queues. -/
structure Copies (g : Inner State Value) (sender receiver : NodeId) (msg : Message)
    (events : List Keyed) : Prop where
  kind : ∀ event ∈ events, event.kind = .deliverMsg sender receiver msg
  later : ∀ event ∈ events, SimTime.Follows event.time g.now
  single : g.faults.duplicatePercent = 0 → events.length ≤ 1

theorem foldl_push_select (events : List Keyed) (queue : EventQueue) (keep : Keyed → Bool) :
    (events.foldl KeyedQueue.push queue).select keep = queue.select keep + ↑(events.filter keep) := by
  induction events generalizing queue with
  | nil => exact (add_zero _).symm
  | cons event rest ih =>
      rw [List.foldl_cons, ih, KeyedQueue.select_push, List.filter_cons]
      split_ifs
      · rw [← Multiset.cons_coe, Multiset.add_cons, Multiset.cons_add]
      · rfl

theorem mem_foldl_push (events : List Keyed) (queue : EventQueue) (event : Keyed) :
    event ∈ events.foldl KeyedQueue.push queue ↔ event ∈ events ∨ event ∈ queue := by
  induction events generalizing queue with
  | nil => simp
  | cons pushed rest ih =>
      rw [List.foldl_cons, ih, KeyedQueue.mem_push, List.mem_cons]
      tauto

theorem Copies.countP_le {g : Inner State Value} {sender receiver : NodeId} {msg : Message}
    {events : List Keyed} (copies : g.Copies sender receiver msg events) (sender' receiver' : NodeId)
    (msg' : Message) :
    (events.filter isDelivery).countP (fun event => event.kind = .deliverMsg sender' receiver' msg') ≤
      if sender = sender' ∧ receiver = receiver' ∧ msg = msg' then events.length else 0 := by
  split_ifs with same
  · exact List.countP_le_length.trans (List.length_filter_le _ _)
  · refine (List.countP_eq_zero.mpr ?_).le
    intro event member other
    have kind := copies.kind event (List.mem_filter.mp member).1
    rw [decide_eq_true_eq, kind, EventKind.deliverMsg.injEq] at other
    exact same other

/-- What a send from a running node queues, said of both of its outcomes. -/
theorem send_copies (g : Inner State Value) (sender receiver : NodeId) (msg : Message)
    (running : sender ∉ g.crashed) :
    ∃ moved, TapeMoved g moved ∧ (g.send sender receiver msg = (.panicked, moved) ∨
      ∃ events seq sends, Copies g sender receiver msg events ∧
        g.send sender receiver msg = (.unit, { moved with
          seq, queue := events.foldl KeyedQueue.push g.queue, audit.sends := sends })) := by
  have first := drawNetDelayMs_moves g
  have positive : ∀ delay, g.drawNetDelayMs.1 = some delay → 0 < delay.toNat :=
    fun _ => drawNetDelayMs_positive g
  unfold send
  rw [if_neg running]
  generalize g.drawNetDelayMs = drawn at first positive ⊢
  obtain ⟨_ | delay, mid⟩ := drawn
  · exact ⟨mid, first, Or.inl rfl⟩
  obtain ⟨tape, recorded, aligned, shape⟩ := first
  dsimp only at shape
  subst shape
  dsimp only
  have time : (g.now.saturatingAdd (delay.toNat * nanosPerMilli)).Follows g.now :=
    SimTime.follows_saturatingAdd g.now (Nat.mul_pos (positive delay rfl) (by decide))
  generalize g.now.saturatingAdd (delay.toNat * nanosPerMilli) = at_ at time
  generalize same : { g with tape }.pushEvent at_ (.deliverMsg sender receiver msg) = pushed
  have second := drawPercent_moves pushed pushed.faults.duplicatePercent .duplicateDecision
  have plain : pushed.faults.duplicatePercent = 0 →
      (pushed.drawPercent pushed.faults.duplicatePercent .duplicateDecision).1 = false := by
    intro none_
    rw [none_, drawPercent_zero]
  generalize pushed.drawPercent pushed.faults.duplicatePercent .duplicateDecision = drawn
    at second plain ⊢
  subst same
  obtain ⟨_ | _, mid⟩ := drawn
  · obtain ⟨tape', recorded', aligned', shape⟩ := second
    dsimp only at shape
    subst shape
    refine ⟨{ g with tape := tape' }, ⟨tape', recorded.trans recorded', aligned' ∘ aligned, rfl⟩,
      Or.inr ⟨[⟨at_, g.seq, .deliverMsg sender receiver msg⟩], _, _, ?_, rfl⟩⟩
    constructor
    · simp
    · simpa using time
    · exact fun _ => le_rfl
  · have third := second.trans (draw_moves mid .extraDelay)
    obtain ⟨tape', recorded', aligned', shape⟩ := third
    have again := time.saturatingAdd
      ((1 + (mid.draw .extraDelay).1 % 10).toNat * nanosPerMilli)
    dsimp only at shape ⊢
    rw [if_pos rfl, shape]
    generalize at_.saturatingAdd ((1 + (mid.draw .extraDelay).1 % 10).toNat * nanosPerMilli) =
      later at again
    refine ⟨{ g with tape := tape' }, ⟨tape', recorded.trans recorded', aligned' ∘ aligned, rfl⟩,
      Or.inr ⟨[⟨at_, g.seq, .deliverMsg sender receiver msg⟩,
        ⟨later, g.seq + 1, .deliverMsg sender receiver msg⟩], _, _, ?_, rfl⟩⟩
    constructor
    · simp
    · simpa using ⟨time, again⟩
    · exact fun none_ => nomatch plain none_

end Inner

namespace Hosting

open Datagrams

variable {Party : Type} {Local : Party → Type}

/-- A datagram of these contents was sent. -/
def Sent (host : Host Party Local) (system : System NodeId String SimTime Local)
    (sender receiver : NodeId) (msg : Message) (before : SimTime → Prop) : Prop :=
  ∃ packet ∈ system.sent, packet.sender = sender ∧ packet.receiver = receiver ∧
    host.encode packet.msg = msg ∧ before packet.sentAt

structure Medium (host : Host Party Local) (barred : NodeId → NodeId → Prop) (single : Bool)
    (g : Hosted Local) (system : System NodeId String SimTime Local) : Prop where
  now : system.now = g.now
  steady : ∀ node, g.skewOf node = 0
  read : ∀ node last, g.lastLocalNow.get node = some last → last ≤ g.now
  ahead : ∀ event ∈ g.queue, g.now ≤ event.time
  flying : ∀ event ∈ g.queue, ∀ sender receiver msg, event.kind = .deliverMsg sender receiver msg →
    Sent host system sender receiver msg fun sentAt => SimTime.Follows event.time sentAt
  landed : ∀ node sender msg, (sender, msg) ∈ g.inbox node → ¬ barred sender node ∧
    Sent host system sender node msg fun sentAt => sentAt < g.now
  counted : single = true → g.faults.duplicatePercent = 0 ∧ ∀ sender receiver msg,
    g.underWay sender receiver (host.encode msg) +
        system.delivered.countP (carries sender receiver msg) ≤
      system.sent.countP (carries sender receiver msg)

variable {host : Host Party Local} {barred : NodeId → NodeId → Prop} {single : Bool}
  {g after : Hosted Local} {system : System NodeId String SimTime Local}

theorem Medium.fade (medium : Medium host barred single g system) (fades : g.Fades after) :
    Medium host barred single after system where
  now := medium.now.trans fades.now.symm
  steady node := by
    rw [Inner.skewOf, fades.skews]
    exact medium.steady node
  read node last present := by
    rw [fades.now]
    rcases fades.read node last present with old | rfl
    · exact medium.read node last old
    · exact UInt64.le_refl _
  ahead event member := by
    rw [fades.now]
    rcases fades.queue event member with old | ⟨_, later⟩
    · exact medium.ahead event old
    · exact later
  flying event member sender receiver msg kind := by
    rcases fades.queue event member with old | ⟨other, _⟩
    · exact medium.flying event old sender receiver msg kind
    · simp [Inner.isDelivery, kind] at other
  landed node sender msg member := by
    rw [fades.now]
    exact medium.landed node sender msg ((fades.inboxes node).subset member)
  counted one := by
    obtain ⟨none_, bound⟩ := medium.counted one
    refine ⟨fades.duplicates.trans none_, fun sender receiver msg => ?_⟩
    have fewer := fades.underWay sender receiver (host.encode msg)
    have bound := bound sender receiver msg
    omega

theorem Sent.mono {sender receiver : NodeId} {msg : Message} {before before' : SimTime → Prop}
    {other : System NodeId String SimTime Local}
    (sent : Sent host system sender receiver msg before) (grows : system.sent ⊆ other.sent)
    (implies : ∀ time, before time → before' time) :
    Sent host other sender receiver msg before' := by
  obtain ⟨packet, member, sender, receiver, contents, early⟩ := sent
  exact ⟨packet, grows member, sender, receiver, contents, implies _ early⟩

theorem encode_injective (host : Host Party Local) : Function.Injective host.encode :=
  Function.LeftInverse.injective host.decode_encode

/-- A send of a party, which queues what it queues. -/
theorem Medium.send (medium : Medium host barred single g system) {sender receiver : NodeId}
    {msg : String} {events : List Keyed}
    (copies : g.Copies sender receiver (host.encode msg) events) (seq : Nat) (tape : EntropyTape)
    (trace : List TraceLine) (audit : Audit) :
    Medium host barred single
      { g with seq, tape, trace, audit, queue := events.foldl KeyedQueue.push g.queue }
      (system.send sender receiver msg) where
  now := medium.now
  steady := medium.steady
  read := medium.read
  ahead event member := by
    rcases (Inner.mem_foldl_push events g.queue event).mp member with new | old
    · exact Inner.follows_le (copies.later event new)
    · exact medium.ahead event old
  flying event member sender' receiver' msg' kind := by
    rcases (Inner.mem_foldl_push events g.queue event).mp member with new | old
    · have same := (copies.kind event new).symm.trans kind
      cases same
      refine ⟨_, List.mem_append_right _ (List.mem_singleton_self _), rfl, rfl, rfl, ?_⟩
      rw [medium.now]
      exact copies.later event new
    · exact (medium.flying event old sender' receiver' msg' kind).mono
        (List.subset_append_left _ _) fun _ => id
  landed node sender' msg' member := by
    obtain ⟨passes, sent⟩ := medium.landed node sender' msg' member
    exact ⟨passes, sent.mono (List.subset_append_left _ _) fun _ => id⟩
  counted one := by
    obtain ⟨none_, bound⟩ := medium.counted one
    refine ⟨none_, fun sender' receiver' msg' => ?_⟩
    have bound := bound sender' receiver' msg'
    have few := copies.single none_
    have more := copies.countP_le sender' receiver' (host.encode msg')
    simp only [(encode_injective host).eq_iff] at more
    change Multiset.countP _ ((events.foldl KeyedQueue.push g.queue).select Inner.isDelivery) +
      (g.inbox receiver').count _ + system.delivered.countP _ ≤ _
    rw [Inner.foldl_push_select, Multiset.countP_add, Multiset.coe_countP, System.send_sent,
      List.countP_append, List.countP_singleton]
    rw [Inner.underWay, Inner.inFlight] at bound
    simp only [carries, decide_eq_true_eq] at bound ⊢
    split_ifs at more ⊢ <;> omega

/-- A party may be elsewhere. -/
theorem Medium.become [DecidableEq Party] (medium : Medium host barred single g system)
    (party : Party) (next : Local party) :
    Medium host barred single g (system.become party next) :=
  { medium with }

/-- The first message of an inbox is handed over. -/
theorem Medium.receive (medium : Medium host barred single g system) {node sender : NodeId}
    {msg : Message} {rest : List (NodeId × Message)}
    (arrived : g.inboxes.get node = some ((sender, msg) :: rest)) (audit : Audit) :
    ∃ packet ∈ system.sent, packet.sender = sender ∧ packet.receiver = node ∧
      host.decode msg = packet.msg ∧ packet.sentAt < system.now ∧ ¬ barred sender node ∧
      (single = true → system.delivered.countP (carries sender node packet.msg) <
        system.sent.countP (carries sender node packet.msg)) ∧
      Medium host barred single { g with inboxes := g.inboxes.insert node rest, audit }
        (system.handOver packet) := by
  have inbox : g.inbox node = (sender, msg) :: rest := by rw [Inner.inbox, arrived]; rfl
  obtain ⟨passes, packet, member, from_, receiver, contents, early⟩ :=
    medium.landed node sender msg (inbox ▸ List.mem_cons_self)
  have decoded : host.decode msg = packet.msg := by rw [← contents, host.decode_encode]
  subst from_ receiver contents
  have slack (one : single = true) := (medium.counted one).2 packet.sender packet.receiver packet.msg
  have waiting : 0 < g.underWay packet.sender packet.receiver (host.encode packet.msg) := by
    rw [Inner.underWay, inbox]
    simp
  refine ⟨packet, member, rfl, rfl, decoded, medium.now ▸ early, passes, ?_, ?_⟩
  · intro one
    have slack := slack one
    omega
  constructor
  · exact medium.now
  · exact medium.steady
  · exact medium.read
  · exact medium.ahead
  · exact medium.flying
  · intro node' sender' msg' here
    rw [Inner.inbox, SortedMap.get_insert] at here
    split_ifs at here with same
    · subst same
      exact medium.landed packet.receiver sender' msg' (inbox ▸ List.mem_cons_of_mem _ here)
    · exact medium.landed node' sender' msg' here
  · intro one
    refine ⟨(medium.counted one).1, fun sender' receiver' msg' => ?_⟩
    have bound := (medium.counted one).2 sender' receiver' msg'
    have moved : (Inner.inbox { g with inboxes := g.inboxes.insert packet.receiver rest, audit }
        receiver').count (sender', host.encode msg') +
        (if carries sender' receiver' msg' packet then 1 else 0) =
        (g.inbox receiver').count (sender', host.encode msg') := by
      by_cases here : packet.receiver = receiver'
      · subst here
        rw [inbox, List.count_cons, Inner.inbox, SortedMap.get_insert_self]
        simp [carries, (encode_injective host).eq_iff]
      · simp [Inner.inbox, SortedMap.get_insert_of_ne _ _ (Ne.symm here), carries, here]
    rw [System.handOver, List.countP_cons]
    rw [Inner.underWay] at bound ⊢
    change g.inFlight.countP _ + _ + _ ≤ system.sent.countP _
    omega

section Pop

variable {event : Keyed} {queue : EventQueue} (popped : g.queue.pop = some (event, queue))
include popped

theorem Medium.not_before (medium : Medium host barred single g system) : g.now ≤ event.time :=
  medium.ahead event ((KeyedQueue.mem_of_pop popped event).mpr (Or.inl rfl))

/-- The clock goes on to an event, which is then gone. -/
theorem Medium.pop (medium : Medium host barred single g system) :
    Medium host barred single { g with queue, now := event.time }
      { system with now := event.time } where
  now := rfl
  steady := medium.steady
  read node last present :=
    UInt64.le_trans (medium.read node last present) (medium.not_before popped)
  ahead other member := by
    have least := KeyedQueue.pop_least popped other member
    rw [Keyed.key, Keyed.key, Prod.Lex.toLex_le_toLex] at least
    change event.time ≤ other.time
    rw [UInt64.le_iff_toNat_le]
    dsimp only at least
    omega
  flying other member :=
    medium.flying other ((KeyedQueue.mem_of_pop popped other).mpr (Or.inr member))
  landed node sender msg member := by
    obtain ⟨passes, sent⟩ := medium.landed node sender msg member
    exact ⟨passes, sent.mono (List.Subset.refl _)
      fun _ early => UInt64.lt_of_lt_of_le early (medium.not_before popped)⟩
  counted one := by
    obtain ⟨none_, bound⟩ := medium.counted one
    refine ⟨none_, fun sender receiver msg => ?_⟩
    refine le_trans (Nat.add_le_add_right (Nat.add_le_add_right ?_ _) _) (bound sender receiver msg)
    refine Multiset.countP_le_of_le _ ?_
    rw [Inner.inFlight, Inner.inFlight, KeyedQueue.select_of_pop popped]
    split_ifs
    · exact Multiset.le_cons_self _ _
    · exact le_rfl

/-- A message arrives. -/
theorem Medium.accept (medium : Medium host barred single g system) {sender receiver : NodeId}
    {msg : Message} (kind : event.kind = .deliverMsg sender receiver msg)
    (passes : ¬ barred sender receiver) (early : event.time.toNat < u64Max) :
    Medium host barred single { g with
        queue, now := event.time
        inboxes := g.inboxes.insert receiver ((g.inboxes.get receiver).getD [] ++ [(sender, msg)]) }
      { system with now := event.time } := by
  have later := medium.pop popped
  refine { later with landed := ?_, counted := ?_ }
  · intro node sender' msg' here
    rw [Inner.inbox, SortedMap.get_insert] at here
    split_ifs at here with same
    · rw [same]
      rcases List.mem_append.mp here with old | new
      · exact later.landed receiver sender' msg' old
      · cases List.mem_singleton.mp new
        have flew := medium.flying event ((KeyedQueue.mem_of_pop popped event).mpr (Or.inl rfl))
          sender receiver msg kind
        refine ⟨passes, flew.mono (List.Subset.refl _) fun sentAt follows => ?_⟩
        exact follows.resolve_right (Nat.ne_of_lt early)
    · exact later.landed node sender' msg' here
  · intro one
    refine ⟨(medium.counted one).1, fun sender' receiver' msg' => ?_⟩
    have bound := (medium.counted one).2 sender' receiver' msg'
    have delivery : Inner.isDelivery event = true := by rw [Inner.isDelivery, kind]
    rw [Inner.underWay, Inner.inFlight, KeyedQueue.select_of_pop popped, if_pos delivery,
      Multiset.countP_cons] at bound
    have moved : (Inner.inbox { g with
          queue, now := event.time
          inboxes := g.inboxes.insert receiver ((g.inboxes.get receiver).getD [] ++ [(sender, msg)]) }
        receiver').count (sender', host.encode msg') =
        (g.inbox receiver').count (sender', host.encode msg') +
          if event.kind = .deliverMsg sender' receiver' (host.encode msg') then 1 else 0 := by
      by_cases here : receiver = receiver'
      · subst here
        rw [Inner.inbox, SortedMap.get_insert_self, Option.getD_some, List.count_append, Inner.inbox]
        simp [kind, List.count_singleton]
      · simp [Inner.inbox, SortedMap.get_insert_of_ne _ _ (Ne.symm here), kind, here]
    rw [Inner.underWay, moved]
    change (queue.select Inner.isDelivery).countP _ + _ + system.delivered.countP _ ≤
      system.sent.countP _
    omega

end Pop

end Hosting

end Detersim
