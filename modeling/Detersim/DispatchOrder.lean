import Detersim.Reachable

/-!
Within one run events are popped in strictly increasing order of time and
insertion: whatever a dispatched event pushes is due no earlier than the event
itself, and a crash that rebuilds the queue keeps every key.
-/

namespace Detersim

namespace Inner

variable {State Value Plan : Type}

/-- Sequence numbers in the queue are distinct, and smaller than the next one. -/
structure Numbered (queue : EventQueue) (seq : Nat) : Prop where
  below : ∀ event ∈ queue, event.seq < seq
  distinct : (queue.entries.map Keyed.seq).Nodup

theorem numbered_empty : Numbered .empty 0 :=
  ⟨fun event member => absurd member (KeyedQueue.not_mem_empty event), List.nodup_nil⟩

theorem numbered_push {queue : EventQueue} {seq : Nat} (numbered : Numbered queue seq)
    (time : SimTime) (kind : EventKind) : Numbered (queue.push ⟨time, seq, kind⟩) (seq + 1) := by
  constructor
  · intro event member
    rcases (KeyedQueue.mem_push _ _ _).mp member with same | old
    · exact same ▸ Nat.lt_succ_self seq
    · exact (numbered.below event old).trans (Nat.lt_succ_self seq)
  · rw [(((KeyedQueue.push_perm queue _).map Keyed.seq)).nodup_iff, List.map_cons,
      List.nodup_cons]
    refine ⟨?_, numbered.distinct⟩
    intro member
    obtain ⟨event, old, same⟩ := List.mem_map.mp member
    exact absurd same (ne_of_lt (numbered.below event old))

theorem numbered_retain {queue : EventQueue} {seq : Nat} (numbered : Numbered queue seq)
    (keep : Keyed → Bool) : Numbered (queue.retain keep) seq :=
  ⟨fun event member => numbered.below event ((KeyedQueue.mem_retain _ _ _).mp member).1,
    numbered.distinct.sublist (List.filter_sublist.map Keyed.seq)⟩

/-- An event of its kind that is queued under no other number is queued once. -/
theorem numbered_only {queue : EventQueue} {seq : Nat} (numbered : Numbered queue seq)
    (kind : Keyed → Bool) {event : Keyed} (queued : event ∈ queue) (same : kind event = true)
    (only : ∀ other ∈ queue, kind other = true → other = event) :
    queue.entries.filter kind = [event] := by
  have distinct : (queue.entries.filter kind).Nodup :=
    (List.Nodup.of_map _ numbered.distinct).filter kind
  rw [← List.perm_singleton, List.perm_ext_iff_of_nodup distinct (List.nodup_singleton event)]
  intro other
  rw [List.mem_filter, List.mem_singleton]
  constructor
  · exact fun inside => only other inside.1 inside.2
  · rintro rfl
    exact ⟨queued, same⟩

theorem numbered_pop {queue rest : EventQueue} {seq : Nat} {event : Keyed}
    (numbered : Numbered queue seq) (popped : queue.pop = some (event, rest)) :
    Numbered rest seq ∧ event.seq < seq ∧ ∀ other ∈ rest, event.key < other.key := by
  have entries := KeyedQueue.pop_eq_some.mp popped
  have distinct := numbered.distinct
  rw [entries, List.map_cons, List.nodup_cons] at distinct
  have inside := KeyedQueue.mem_of_pop popped
  refine ⟨⟨fun other member => numbered.below other ((inside other).mpr (Or.inr member)),
    distinct.2⟩, numbered.below event ((inside event).mpr (Or.inl rfl)), ?_⟩
  intro other member
  apply lt_of_le_of_ne (KeyedQueue.pop_least popped other member)
  intro same
  have seqs : event.seq = other.seq := congrArg (fun key => (ofLex key).2) same
  exact distinct.1 (seqs ▸ List.mem_map_of_mem member)

/-- The two ways code changes the queue: a push due no earlier than now, and the
filtering of a crash. -/
inductive QueueStep (now : SimTime) : EventQueue × Nat → EventQueue × Nat → Prop where
  | push (queue seq time kind) (later : now.toNat ≤ time.toNat) :
      QueueStep now (queue, seq) (queue.push ⟨time, seq, kind⟩, seq + 1)
  | retain (queue seq keep) : QueueStep now (queue, seq) (queue.retain keep, seq)

abbrev QueueSteps (now : SimTime) : EventQueue × Nat → EventQueue × Nat → Prop :=
  Relation.ReflTransGen (QueueStep now)

/-- What is queued afterwards was there before or is due no earlier than now. -/
theorem mem_steps {now : SimTime} {before after : EventQueue × Nat}
    (steps : QueueSteps now before after) {event : Keyed} (queued : event ∈ after.1) :
    event ∈ before.1 ∨ now.toNat ≤ event.time.toNat := by
  induction steps with
  | refl => exact .inl queued
  | tail _ step ih =>
      cases step with
      | push _ _ time kind later =>
          rcases (KeyedQueue.mem_push _ _ _).mp queued with rfl | old
          · exact .inr later
          · exact ih old
      | retain _ _ keep => exact ih ((KeyedQueue.mem_retain _ _ _).mp queued).1

/-- The event being dispatched is below everything queued, and the clock stands at it. -/
structure Above (event : Keyed) (entry : EventQueue × Nat) : Prop where
  numbered : Numbered entry.1 entry.2
  earlier : event.seq < entry.2
  below : ∀ other ∈ entry.1, event.key < other.key

theorem numbered_steps {now : SimTime} {before after : EventQueue × Nat}
    (steps : QueueSteps now before after) (numbered : Numbered before.1 before.2) :
    Numbered after.1 after.2 := by
  induction steps with
  | refl => exact numbered
  | tail _ step ih =>
      cases step with
      | push _ _ time kind => exact numbered_push ih time kind
      | retain _ _ keep => exact numbered_retain ih keep

theorem above_step {event : Keyed} {before after : EventQueue × Nat}
    (step : QueueStep event.time before after) (above : Above event before) :
    Above event after := by
  cases step with
  | push queue seq time kind later =>
      refine ⟨numbered_push above.numbered time kind, above.earlier.trans (Nat.lt_succ_self _), ?_⟩
      intro other member
      rcases (KeyedQueue.mem_push _ _ _).mp member with same | old
      · subst same
        apply Prod.Lex.toLex_lt_toLex.mpr
        rcases Nat.lt_or_eq_of_le later with sooner | equal
        · exact Or.inl sooner
        · exact Or.inr ⟨equal, above.earlier⟩
      · exact above.below other old
  | retain queue seq keep =>
      exact ⟨numbered_retain above.numbered keep, above.earlier,
        fun other member => above.below other ((KeyedQueue.mem_retain _ _ _).mp member).1⟩

theorem above_steps {event : Keyed} {before after : EventQueue × Nat}
    (steps : QueueSteps event.time before after) (above : Above event before) :
    Above event after := by
  induction steps with
  | refl => exact above
  | tail _ step ih => exact above_step step ih

theorem enqueueAll_steps (tasks : List TaskId) (g : Inner State Value) :
    QueueSteps g.now (g.queue, g.seq)
      ((tasks.foldl enqueuePollNow g).queue, (tasks.foldl enqueuePollNow g).seq) := by
  induction tasks generalizing g with
  | nil => exact Relation.ReflTransGen.refl
  | cons task rest ih =>
      exact Relation.ReflTransGen.head (QueueStep.push g.queue g.seq g.now (.pollTask task) le_rfl)
        (ih (g.enqueuePollNow task))

theorem enqueueAll_above {event : Keyed} (tasks : List TaskId) (g : Inner State Value)
    (clock : g.now = event.time) (above : Above event (g.queue, g.seq)) :
    (tasks.foldl enqueuePollNow g).now = event.time ∧ Above event
      ((tasks.foldl enqueuePollNow g).queue, (tasks.foldl enqueuePollNow g).seq) := by
  have steps := enqueueAll_steps tasks g
  obtain ⟨queue, shape⟩ := enqueueAll_shape tasks g
  rw [clock] at steps
  exact ⟨by rw [shape, clock], above_steps steps above⟩

variable {rules : Rules State Value} {fills : SlotId → Prop}

theorem opEffect_queue {g after : Inner State Value} (effect : OpEffect rules g after) :
    QueueSteps g.now (g.queue, g.seq) (after.queue, after.seq) := by
  have once (time kind) (later : g.now.toNat ≤ time.toNat) :
      QueueSteps g.now (g.queue, g.seq) (g.queue.push ⟨time, g.seq, kind⟩, g.seq + 1) :=
    Relation.ReflTransGen.single (QueueStep.push g.queue g.seq time kind later)
  cases effect with
  | sent sender receiver msg time _ _ later => exact once time _ later
  | sentTwice sender receiver msg time again _ _ later evenLater =>
      exact (once time _ later).tail (QueueStep.push _ _ again _ evenLater)
  | started => exact once g.now _ le_rfl
  | armed _ _ _ _ _ _ time _ _ _ _ _ later => exact once time _ later
  | unregistered node task =>
      unfold unregisterRecvWaiter
      split <;> exact Relation.ReflTransGen.refl
  | quiet | held | opened | gave | unarmed | cancelled | forgot | waited | received | joining
  | handled => exact Relation.ReflTransGen.refl

/-- Nothing moves the clock, and only a public operation schedules into the past. -/
theorem change_queue {outside : Prop} {g after : Inner State Value}
    (change : Change rules fills outside g after) :
    after.now = g.now ∧ (QueueSteps g.now (g.queue, g.seq) (after.queue, after.seq) ∨
      outside ∧ ∃ time action, after = g.pushEvent time (.nemesis action)) := by
  cases change with
  | op effect => exact ⟨(opEffect_frame effect).now, Or.inl (opEffect_queue effect)⟩
  | loop effect =>
      cases effect with
      | crashed node =>
          unfold crashNode
          split_ifs
          · exact ⟨rfl, Or.inl (Relation.ReflTransGen.single (QueueStep.retain _ _ _))⟩
          · exact ⟨rfl, Or.inl Relation.ReflTransGen.refl⟩
      | filled slot join value =>
          obtain ⟨queue, shape⟩ := enqueueAll_shape join.joiners
            { g with slots := g.slots.insert slot ⟨true, some value, []⟩ }
          exact ⟨by rw [shape], Or.inl (enqueueAll_steps join.joiners
            { g with slots := g.slots.insert slot ⟨true, some value, []⟩ })⟩
      | scheduled time action allowed => exact ⟨rfl, Or.inr ⟨allowed, time, action, rfl⟩⟩
      | faulted | drawn | revived | registered | parked | halted | ended =>
          exact ⟨rfl, Or.inl Relation.ReflTransGen.refl⟩

theorem changes_above {event : Keyed} {g after : Inner State Value}
    (changes : Changes rules fills False g after) (clock : g.now = event.time)
    (above : Above event (g.queue, g.seq)) :
    after.now = event.time ∧ Above event (after.queue, after.seq) := by
  induction changes with
  | refl => exact ⟨clock, above⟩
  | tail _ change ih =>
      obtain ⟨sameNow, steps | ⟨outside, _⟩⟩ := change_queue change
      · rw [ih.1] at sameNow steps
        exact ⟨sameNow, above_steps steps ih.2⟩
      · exact outside.elim

theorem popEffect_above {g after : Inner State Value} {event : Keyed}
    (effect : PopEffect g event after) (numbered : Numbered g.queue g.seq) :
    after.now = event.time ∧ Above event (after.queue, after.seq) := by
  have above {queue} (popped : g.queue.pop = some (event, queue)) :
      Above event (queue, g.seq) := by
    obtain ⟨kept, earlier, below⟩ := numbered_pop numbered popped
    exact ⟨kept, earlier, below⟩
  cases effect with
  | idle queue dispatched trace popped => exact ⟨rfl, above popped⟩
  | fired queue timer task popped =>
      exact ⟨rfl, above_step (QueueStep.push queue g.seq event.time (.pollTask task) le_rfl)
        (above popped)⟩
  | dropped queue _ _ _ _ _ popped => exact ⟨rfl, above popped⟩
  | delivered queue tape sender receiver msg popped =>
      exact enqueueAll_above _ _ rfl (above popped)
  | begun queue _ _ _ popped => exact ⟨rfl, above popped⟩
  | lost queue _ _ popped => exact ⟨rfl, above popped⟩

theorem numbered_change {outside : Prop} {g after : Inner State Value}
    (change : Change rules fills outside g after) (numbered : Numbered g.queue g.seq) :
    Numbered after.queue after.seq := by
  obtain ⟨_, steps | ⟨_, time, action, rfl⟩⟩ := change_queue change
  · exact numbered_steps steps numbered
  · exact numbered_push numbered time _

theorem reachable_numbered (program : Program State Value) (nextAction : NextAction Plan)
    (g : Inner State Value) (reachable : Reachable program nextAction g) :
    Numbered g.queue g.seq := by
  refine reachable_invariant program nextAction (fun g => Numbered g.queue g.seq) ?_ ?_ ?_ ?_ g
    reachable
  · exact fun _ _ _ _ => numbered_empty
  · exact fun _ _ _ _ change numbered => numbered_change change numbered
  · exact fun _ _ _ effect numbered => (popEffect_above effect numbered).2.numbered
  · intro g after event aborted numbered
    obtain ⟨queue, popped, _, rfl⟩ := abort_shape program g after event aborted
    split_ifs <;> exact (numbered_pop numbered popped).1

theorem turn_above (program : Program State Value) (g next : Inner State Value) (event : Keyed)
    (numbered : Numbered g.queue g.seq) (turned : turn program g = .next event next) :
    event ∈ g.queue ∧ next.now = event.time ∧ Above event (next.queue, next.seq) := by
  obtain ⟨queue, popped, _, _⟩ := next_shape program g next event turned
  obtain ⟨mid, effect, changes⟩ := turn_changes program g next event turned
    (fun _ => dispatchMeets_any program _ _)
  obtain ⟨clock, above⟩ := popEffect_above effect numbered
  exact ⟨(KeyedQueue.mem_of_pop popped event).mpr (Or.inl rfl), changes_above changes clock above⟩

/-- Only an action that was scheduled into the past is due before the present. -/
def PastActions (g : Inner State Value) : Prop :=
  ∀ queued ∈ g.queue, queued.time.toNat < g.now.toNat → ∃ action, queued.kind = .nemesis action

theorem key_time {earlier later : Keyed} (below : earlier.key < later.key) :
    earlier.time.toNat ≤ later.time.toNat := by
  rcases Prod.Lex.toLex_lt_toLex.mp below with sooner | ⟨same, _⟩
  · exact sooner.le
  · exact same.le

/-- Everything queued is due now or later. -/
def Due (g : Inner State Value) : Prop := ∀ queued ∈ g.queue, g.now.toNat ≤ queued.time.toNat

theorem Due.pastActions {g : Inner State Value} (due : Due g) : PastActions g :=
  fun queued member before => absurd before (Nat.not_lt_of_le (due queued member))

theorem pastActions_change {outside : Prop} {g after : Inner State Value}
    (change : Change rules fills outside g after) (past : PastActions g) : PastActions after := by
  obtain ⟨clock, steps | ⟨_, time, action, rfl⟩⟩ := change_queue change
  · intro queued member before
    rw [clock] at before
    rcases mem_steps steps member with old | later
    · exact past queued old before
    · exact absurd before (Nat.not_lt_of_le later)
  · intro queued member before
    rcases (KeyedQueue.mem_push _ _ _).mp member with rfl | old
    · exact ⟨action, rfl⟩
    · exact past queued old before

theorem due_of_above {g : Inner State Value} {event : Keyed} (clock : g.now = event.time)
    (above : Above event (g.queue, g.seq)) : Due g :=
  fun queued member => clock ▸ key_time (above.below queued member)

theorem turn_due (program : Program State Value) (g next : Inner State Value) (event : Keyed)
    (numbered : Numbered g.queue g.seq) (turned : turn program g = .next event next) :
    Due next :=
  have ⟨_, clock, above⟩ := turn_above program g next event numbered turned
  due_of_above clock above

theorem reachable_pastActions (program : Program State Value) (nextAction : NextAction Plan)
    (g : Inner State Value) (reachable : Reachable program nextAction g) : PastActions g := by
  refine (reachable_invariant program nextAction
    (fun g => Numbered g.queue g.seq ∧ PastActions g) ?_ ?_ ?_ ?_ g reachable).2
  · exact fun _ _ _ _ => ⟨numbered_empty, fun queued member =>
      absurd member (KeyedQueue.not_mem_empty queued)⟩
  · exact fun _ _ _ _ change holds =>
      ⟨numbered_change change holds.1, pastActions_change change holds.2⟩
  · intro _ _ _ effect holds
    obtain ⟨clock, above⟩ := popEffect_above effect holds.1
    exact ⟨above.numbered, (due_of_above clock above).pastActions⟩
  · intro g after event aborted holds
    obtain ⟨queue, popped, _, rfl⟩ := abort_shape program g after event aborted
    obtain ⟨kept, _, below⟩ := numbered_pop holds.1 popped
    have due : Due { g with queue, now := event.time } :=
      fun queued member => key_time (below queued member)
    split_ifs <;> exact ⟨kept, due.pastActions⟩

/-- From the second turn of a run on, the turn before has left only what is due. -/
theorem turnsTo_due (program : Program State Value) {g middle : Inner State Value}
    {events : List Keyed} (numbered : Numbered g.queue g.seq)
    (turns : TurnsTo program g events middle) (begun : events ≠ []) : Due middle := by
  cases turns with
  | refl => exact absurd rfl begun
  | turn first rest =>
      refine (KeyedQueue.runs_keep (fun g : Inner State Value => Numbered g.queue g.seq ∧ Due g)
        ?_ ⟨?_, ?_⟩ rest).2
      · intro g event next holds turned
        have ⟨_, _, above⟩ := turn_above program g next event holds.1 turned
        exact ⟨above.numbered, turn_due program g next event holds.1 turned⟩
      · exact (turn_above program _ _ _ numbered first).2.2.numbered
      · exact turn_due program _ _ _ numbered first

/-- A popped event, dispatched or not. -/
def Pops (program : Program State Value) (g : Inner State Value) (event : Keyed)
    (next : Inner State Value) : Prop :=
  turn program g = .next event next ∨ turn program g = .abort event next

theorem pops_above (program : Program State Value) (g next : Inner State Value) (event : Keyed)
    (numbered : Numbered g.queue g.seq) (popped : Pops program g event next) :
    event ∈ g.queue ∧ Numbered next.queue next.seq ∧
      ∀ other ∈ next.queue, event.key < other.key := by
  rcases popped with turned | aborted
  · obtain ⟨member, _, above⟩ := turn_above program g next event numbered turned
    exact ⟨member, above.numbered, above.below⟩
  · obtain ⟨queue, popped, _, rfl⟩ := abort_shape program g next event aborted
    have member := (KeyedQueue.mem_of_pop popped event).mpr (Or.inl rfl)
    obtain ⟨kept, _, below⟩ := numbered_pop numbered popped
    split_ifs <;> exact ⟨member, kept, below⟩

-- An aborted event is popped too, and it comes last.
theorem run_pops (program : Program State Value) (g : Inner State Value) :
    ∃ last, KeyedQueue.Runs (Pops program) g (run program g).popped last := by
  obtain ⟨events, last, turns, ⟨_, result⟩ | ⟨event, next, abort, result⟩⟩ := run_stops program g
  · refine ⟨last, ?_⟩
    rw [result]
    exact KeyedQueue.runs_mono (fun _ _ _ => Or.inl) turns
  · refine ⟨next, ?_⟩
    rw [result]
    exact KeyedQueue.runs_snoc (fun _ _ _ => Or.inl) turns (Or.inr abort)

theorem run_pops_increasing (program : Program State Value) (g : Inner State Value)
    (numbered : Numbered g.queue g.seq) :
    (run program g).popped.Pairwise fun earlier later => earlier.key < later.key := by
  obtain ⟨last, pops⟩ := run_pops program g
  exact KeyedQueue.runs_increasing (fun g => Numbered g.queue g.seq)
    (fun g event => event ∈ g.queue)
    (fun _ _ _ fine popped => (pops_above program _ _ _ fine popped).2.1)
    (fun _ _ _ fine popped => (pops_above program _ _ _ fine popped).1)
    (fun _ _ _ fine popped => (pops_above program _ _ _ fine popped).2.2)
    g last _ numbered pops

/-- Events are dispatched in order of time, at equal times in order of insertion,
none of them twice, with the clock at the event dispatched. From one turn of the run to
the next the clock does not go back; its first turn can take it back, to an action that
was scheduled into the past since an earlier run. -/
theorem run_dispatches_in_order (program : Program State Value) (nextAction : NextAction Plan)
    (g : Inner State Value) (reachable : Reachable program nextAction g) :
    ((run program g).popped.Pairwise fun earlier later => earlier.key < later.key) ∧
      ((run program g).popped.Pairwise fun earlier later =>
        earlier.time.toNat < later.time.toNat ∨
          earlier.time = later.time ∧ earlier.seq < later.seq) ∧
      (run program g).popped.Nodup ∧
      ∀ events middle event next, TurnsTo program g events middle →
        turn program middle = .next event next → next.now = event.time ∧
          (events ≠ [] → middle.now ≤ next.now) ∧
          (next.now < middle.now → ∃ action, event.kind = .nemesis action) := by
  have numbered := reachable_numbered program nextAction g reachable
  have increasing := run_pops_increasing program g numbered
  refine ⟨increasing, increasing.imp ?_, increasing.imp ?_, ?_⟩
  · intro earlier later before
    rcases Prod.Lex.toLex_lt_toLex.mp before with sooner | ⟨same, inserted⟩
    · exact Or.inl sooner
    · exact Or.inr ⟨UInt64.toNat_inj.mp same, inserted⟩
  · rintro earlier later before rfl
    exact lt_irrefl _ before
  · intro events middle event next turns turned
    have fine := KeyedQueue.runs_keep (fun g : Inner State Value => Numbered g.queue g.seq)
      (fun _ _ _ fine step => (pops_above program _ _ _ fine (Or.inl step)).2.1) numbered turns
    obtain ⟨queued, clock, _⟩ := turn_above program middle next event fine turned
    refine ⟨clock, ?_, ?_⟩
    · intro begun
      rw [clock]
      exact UInt64.le_iff_toNat_le.mpr (turnsTo_due program numbered turns begun event queued)
    · intro back
      rw [clock] at back
      by_cases begun : events = []
      · subst begun
        cases turns
        exact reachable_pastActions program nextAction g reachable event queued
          (UInt64.lt_iff_toNat_lt.mp back)
      · exact absurd (UInt64.lt_iff_toNat_lt.mp back)
          (Nat.not_lt_of_le (turnsTo_due program numbered turns begun event queued))

/-- A node that sends itself one message. -/
def selfSend : Program Unit Unit := fun _ => .call (.send 0 0 [1]) fun _ => .done (.ready ())

def selfSendWorld : Inner Unit Unit :=
  ((replay 0 [] {}).operate noPlans (.addNode 0 fun _ => .done ())).2

theorem self_send_dispatches_in_order :
    ((run selfSend selfSendWorld).popped.Pairwise fun earlier later => earlier.key < later.key) ∧
      ((run selfSend selfSendWorld).popped.Pairwise fun earlier later =>
        earlier.time.toNat < later.time.toNat ∨
          earlier.time = later.time ∧ earlier.seq < later.seq) ∧
      (run selfSend selfSendWorld).popped.Nodup ∧
      ∀ events middle event next, TurnsTo selfSend selfSendWorld events middle →
        turn selfSend middle = .next event next → next.now = event.time ∧
          (events ≠ [] → middle.now ≤ next.now) ∧
          (next.now < middle.now → ∃ action, event.kind = .nemesis action) :=
  run_dispatches_in_order selfSend noPlans selfSendWorld
    (Reachable.operate _ (Reachable.replay 0 [] {}))

example : (run selfSend selfSendWorld).popped.map (fun event => (event.time.toNat, event.seq)) =
    [(0, 0), (1000000, 1)] := by
  rw [run_of_runFor selfSend 3 selfSendWorld _ rfl]
  decide

end Inner

end Detersim
