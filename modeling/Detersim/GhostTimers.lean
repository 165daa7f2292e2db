import Detersim.CrashIsolation
import Detersim.DeadlockFlag
import Detersim.DispatchOrder
import Detersim.Exchange
import Detersim.MessageConservation

/-!
The queued event of a cancelled timer. Cancelling takes the timer out of the map
and leaves its event in the queue, where the loop pops it, moves the clock to it
and checks the horizon and the budget before it sees that nobody waits. Code
never notices, but the flags of the report may.
-/

namespace Detersim

namespace Inner

variable {State Value Plan : Type}

/-- The timer was issued and is not armed any more. -/
structure TimerGone (g : Inner State Value) (timer : TimerId) : Prop where
  issued : timer < g.nextTimerId
  disarmed : g.timers.get timer = none

theorem TimerGone.keep {g after : Inner State Value} {timer : TimerId} (gone : TimerGone g timer)
    (issued : after.nextTimerId = g.nextTimerId)
    (timers : ∀ task, after.timers.get timer = some task → g.timers.get timer = some task) :
    TimerGone after timer := by
  refine ⟨issued ▸ gone.issued, ?_⟩
  by_contra armed
  obtain ⟨task, armed⟩ := Option.ne_none_iff_exists'.mp armed
  cases gone.disarmed.symm.trans (timers task armed)

section Steps

variable {rules : Rules State Value} {fills : SlotId → Prop} {outside : Prop}
variable {g after : Inner State Value} {timer : TimerId}

theorem timerGone_op (effect : OpEffect rules g after) (gone : TimerGone g timer) :
    TimerGone after timer := by
  cases effect with
  | armed =>
      refine ⟨Nat.lt_succ_of_lt gone.issued, ?_⟩
      exact (SortedMap.get_insert_of_ne _ _ gone.issued.ne).trans gone.disarmed
  | cancelled other =>
      refine gone.keep rfl ?_
      intro task armed
      simp only [cancelTimer, SortedMap.get_remove] at armed
      split_ifs at armed
      exact armed
  | unregistered node task =>
      unfold unregisterRecvWaiter
      split <;> exact gone.keep rfl fun _ => id
  | quiet | sent | sentTwice | started | held | opened | gave | unarmed | forgot | waited
  | received | joining | handled => exact gone.keep rfl fun _ => id

theorem timerGone_change (change : Change rules fills outside g after) (gone : TimerGone g timer) :
    TimerGone after timer := by
  cases change with
  | op effect => exact timerGone_op effect gone
  | loop effect =>
      cases effect with
      | crashed node =>
          unfold crashNode
          split_ifs
          · refine gone.keep rfl ?_
            intro task armed
            rw [SortedMap.get_retain, Option.filter_eq_some_iff] at armed
            exact armed.1
          · exact gone
      | filled slot join value =>
          obtain ⟨queue, shape⟩ := enqueueAll_shape join.joiners
            { g with slots := g.slots.insert slot ⟨true, some value, []⟩ }
          rw [shape]
          exact gone.keep rfl fun _ => id
      | faulted | drawn | revived | registered | scheduled | parked | halted | ended =>
          exact gone.keep rfl fun _ => id

theorem timerGone_pop {event : Keyed} (effect : PopEffect g event after)
    (gone : TimerGone g timer) : TimerGone after timer := by
  cases effect with
  | fired queue other task =>
      refine gone.keep rfl ?_
      intro waiter armed
      have armed : (g.timers.remove other).get timer = some waiter := armed
      rw [SortedMap.get_remove] at armed
      split_ifs at armed
      exact armed
  | delivered queue tape sender receiver =>
      obtain ⟨pushed, shape⟩ := enqueueAll_shape ((g.recvWaiters.get receiver).getD []) _
      rw [shape]
      exact gone.keep rfl fun _ => id
  | idle | dropped | begun | lost => exact gone.keep rfl fun _ => id

end Steps

/-- The event fires a timer that is gone. It may be in the queue or popped. -/
structure Haunted (g : Inner State Value) (event : Keyed) (timer : TimerId) : Prop where
  kind : event.kind = .timerFire timer
  gone : TimerGone g timer
  numbered : Numbered g.queue g.seq
  old : event.seq < g.seq
  aligned : g.tape.Aligned

theorem haunted_turn {program : Program State Value} {g next : Inner State Value}
    {event popped : Keyed} {timer : TimerId} (haunted : Haunted g event timer)
    (turned : turn program g = .next popped next) : Haunted next event timer := by
  obtain ⟨mid, effect, changes⟩ := turn_changes program _ _ _ turned
    (fun _ => dispatchMeets_any program _ _)
  have grown := turn_grows turned
  exact {
    kind := haunted.kind
    gone := changes_keep (TimerGone · timer) (fun _ _ => timerGone_change) changes
      (timerGone_pop effect haunted.gone)
    numbered := (turn_above program g next popped haunted.numbered turned).2.2.numbered
    old := haunted.old.trans_le grown.seq
    aligned := grown.aligned haunted.aligned }

theorem reachable_aligned {program : Program State Value} {nextAction : NextAction Plan}
    {g : Inner State Value} (reachable : Reachable program nextAction g) : g.tape.Aligned := by
  induction reachable with
  | generate seed => exact EntropyTape.aligned_ofSeed _
  | replay seed tape => exact EntropyTape.aligned_ofTape tape
  | operate op _ ih => exact (operate_grows _ op).aligned ih
  | turn _ turned ih => exact (turn_grows turned).aligned ih
  | abort _ aborted ih =>
      obtain ⟨queue, _, _, rfl⟩ := abort_shape program _ _ _ aborted
      split_ifs <;> exact ih

/-- A `TimerFire` that is queued though its timer is not in the map. -/
structure Ghost (g : Inner State Value) (event : Keyed) : Prop where
  queued : event ∈ g.queue
  cancelled : ∃ timer, event.kind = .timerFire timer ∧ g.timers.get timer = none

theorem Ghost.haunted {program : Program State Value} {nextAction : NextAction Plan}
    {g : Inner State Value} {event : Keyed} (ghost : Ghost g event)
    (reachable : Reachable program nextAction g) : ∃ timer, Haunted g event timer := by
  obtain ⟨timer, kind, disarmed⟩ := ghost.cancelled
  have counted := reachable_counted program nextAction g reachable
  have numbered := reachable_numbered program nextAction g reachable
  exact ⟨timer, kind, ⟨counted.fires event ghost.queued timer kind, disarmed⟩, numbered,
    numbered.below event ghost.queued, reachable_aligned reachable⟩

/-- The state with that event taken out of the queue. -/
def without (g : Inner State Value) (event : Keyed) : Inner State Value :=
  { g with queue := g.queue.retain fun other => decide (other ≠ event) }

/-- Nothing pushed from now on is the event. -/
def forgetting (event : Keyed) (timer : TimerId) (kind : event.kind = .timerFire timer) :
    Exchange where
  tape := id
  queue queue := queue.retain fun other => decide (other ≠ event)
  covers _ := True
  floor := event.seq + 1
  covers_prefix _ _ := trivial
  draw_tape _ _ := rfl
  push_queue queue pushed young := by
    have different : pushed ≠ event := by
      rintro rfl
      exact absurd young (Nat.not_succ_le_self _)
    rw [KeyedQueue.retain_push, if_pos (decide_eq_true different)]
  retain_queue queue keep := KeyedQueue.retain_retain queue keep _
  deliveries queue := by
    have timed : isDelivery event = false := by simp [isDelivery, kind]
    simp only [KeyedQueue.retain, List.filter_filter]
    refine List.filter_congr ?_
    intro other _
    by_cases same : other = event
    · simp [same, timed]
    · simp [same]

/-! Where the two runs end. -/

/-- The states differ at most in the queue, the clock and the account of messages. -/
def Alike (left right : Inner State Value) : Prop :=
  ∃ queue now audit, right = { left with queue, now, audit }

structure SameFlags (left right : Inner State Value) : Prop where
  spent : left.spent = right.spent
  stuck : left.stuck = right.stuck

/-- The event is the last one, and whether the clock moves to it makes the
difference; or the run is cut off here at one of two last events, the other of
which would not be left if this one had not been there. -/
def Betrays (g : Inner State Value) (event : Keyed) : Prop :=
  g.queue.entries = [event] ∧ ¬(g.trips event = true ↔ g.spent = true) ∨
    g.tasks.isEmpty = false ∧ ∃ head other, g.queue.entries = [head, other] ∧
      (head = event ∨ other = event) ∧ g.trips head = true

theorem Betrays.mem {g : Inner State Value} {event : Keyed} (betrays : Betrays g event) :
    event ∈ g.queue := by
  rw [KeyedQueue.mem_def]
  rcases betrays with ⟨entries, _⟩ | ⟨_, head, other, entries, rfl | rfl, _⟩ <;> simp [entries]

/-- What taking the event out changes about a run. -/
structure Compared (program : Program State Value) (g : Inner State Value) (event : Keyed) :
    Prop where
  alike : Alike (run program g).world (run program (g.without event)).world
  flags : SameFlags (run program g).world (run program (g.without event)).world ↔
    ∀ events mid, TurnsTo program g events mid → ¬Betrays mid event

theorem throughout_next {program : Program State Value} {g next : Inner State Value}
    {event : Keyed} {holds : Inner State Value → Prop}
    (turned : turn program g = .next event next) :
    (∀ events mid, TurnsTo program g events mid → holds mid) ↔
      holds g ∧ ∀ events mid, TurnsTo program next events mid → holds mid := by
  constructor
  · intro all
    refine ⟨all [] g (KeyedQueue.Runs.refl g), ?_⟩
    intro events mid turns
    exact all (event :: events) mid (KeyedQueue.Runs.turn turned turns)
  · rintro ⟨here, later⟩ events mid turns
    cases turns with
    | refl => exact here
    | turn first rest =>
        cases first.symm.trans turned
        exact later _ mid rest

theorem throughout_stop {program : Program State Value} {g : Inner State Value}
    {holds : Inner State Value → Prop} (stops : ∀ event next, turn program g ≠ .next event next) :
    (∀ events mid, TurnsTo program g events mid → holds mid) ↔ holds g := by
  constructor
  · exact fun all => all [] g (KeyedQueue.Runs.refl g)
  · intro here events mid turns
    cases turns with
    | refl => exact here
    | turn first _ => exact absurd first (stops _ _)

/-- The loop sets the clock before it looks at it. -/
theorem run_now (program : Program State Value) (g : Inner State Value) (now : SimTime)
    (left : g.queue.entries ≠ []) : run program { g with now } = run program g := by
  have same : turn program { g with now } = turn program g := by
    cases popped : g.queue.pop with
    | none => exact absurd ((KeyedQueue.pop_eq_none _).mp popped) left
    | some entry =>
        simp only [turn, popped, trips]
        rfl
  rw [run, run]
  split
  next quiet => exact absurd ((turn_quiesce program g).mp (same.symm.trans quiet)) left
  all_goals
    next turned =>
      rw [same] at turned
      rw [turned]

theorem run_cut (program : Program State Value) {g : Inner State Value} {event : Keyed}
    {queue : EventQueue} (popped : g.queue.pop = some (event, queue))
    (tripped : g.trips event = true) :
    ∃ audit, (run program g).world = { g with queue, now := event.time, audit } := by
  rw [run_of_trips program g event queue popped tripped]
  split_ifs
  · exact ⟨_, rfl⟩
  · exact ⟨g.audit, rfl⟩

theorem spent_at (g : Inner State Value) (event : Keyed) (queue : EventQueue) (audit : Audit) :
    { g with queue, now := event.time, audit }.spent = g.trips event :=
  Bool.or_comm _ _

theorem sameFlags_iff {left right : Inner State Value} (spent : left.spent = right.spent)
    (tasks : left.tasks = right.tasks) :
    SameFlags left right ↔ (left.tasks.isEmpty = false →
      (left.queue.entries = [] ↔ right.queue.entries = [])) := by
  have stuck : left.stuck = right.stuck ↔ (left.tasks.isEmpty = false →
      (left.queue.entries = [] ↔ right.queue.entries = [])) := by
    rw [Bool.eq_iff_iff, stuck_iff, stuck_iff, ← tasks, and_congr_left_iff]
  exact ⟨fun same => stuck.mp same.stuck, fun queues => ⟨spent, stuck.mpr queues⟩⟩

theorem retain_empty_iff {queue : EventQueue} {seq : Nat} {event : Keyed}
    (numbered : Numbered queue seq) (queued : event ∈ queue) :
    (queue.retain fun other => decide (other ≠ event)).entries = [] ↔ queue.entries = [event] := by
  -- The numbers are distinct, so the event is queued once.
  have distinct : queue.entries.Nodup := List.Nodup.of_map _ numbered.distinct
  have member : event ∈ queue.entries := queued
  simp only [KeyedQueue.retain, List.filter_eq_nil_iff, decide_eq_true_eq, not_not]
  constructor
  · intro all
    by_contra longer
    rcases (distinct.ne_singleton_iff event).mp longer with empty | ⟨other, left, different⟩
    · exact List.not_mem_nil (empty ▸ member)
    · exact different (all other left)
  · intro entries other left
    rw [entries] at left
    exact List.mem_singleton.mp left

section Cases

variable {program : Program State Value} {g : Inner State Value} {event : Keyed} {timer : TimerId}

theorem without_absent (absent : event ∉ g.queue) : g.without event = g := by
  have all : ∀ other ∈ g.queue, decide (other ≠ event) = true := by
    rintro other member
    exact decide_eq_true fun same => absent (same ▸ member)
  rw [without, KeyedQueue.retain_eq_self _ _ all]

theorem never_betrays (absent : event ∉ g.queue) (old : event.seq < g.seq) (events : List Keyed)
    (mid : Inner State Value) (turns : TurnsTo program g events mid) : ¬Betrays mid event := by
  have since : Since g mid := by
    refine KeyedQueue.runs_keep (Since g) ?_ (Since.refl g) turns
    intro before popped after early turned
    have step : Step program noPlans uncut before after :=
      Step.turn turned trivial
    exact early.trans (since_step step)
  intro betrays
  rcases since.queue event betrays.mem with queued | young
  · exact absent queued
  · exact absurd old (not_lt_of_ge young)

theorem compared_absent (absent : event ∉ g.queue) (old : event.seq < g.seq) :
    Compared program g event := by
  have same := without_absent absent
  refine ⟨?_, ?_⟩
  · rw [same]
    exact ⟨_, _, _, rfl⟩
  · rw [same]
    exact ⟨fun _ => never_betrays absent old, fun _ => ⟨rfl, rfl⟩⟩

variable {head : Keyed} {rest : EventQueue}

theorem betrays_iff (popped : g.queue.pop = some (head, rest)) :
    Betrays g event ↔
      rest.entries = [] ∧ head = event ∧ ¬(g.trips event = true ↔ g.spent = true) ∨
        g.tasks.isEmpty = false ∧ g.trips head = true ∧
          ∃ other, rest.entries = [other] ∧ (head = event ∨ other = event) := by
  rw [Betrays, KeyedQueue.pop_eq_some.mp popped]
  constructor
  · rintro (⟨entries, differ⟩ | ⟨tasks, first, other, entries, named, tripped⟩)
    · obtain ⟨same, empty⟩ := List.cons.inj entries
      exact Or.inl ⟨empty, same, differ⟩
    · obtain ⟨rfl, single⟩ := List.cons.inj entries
      exact Or.inr ⟨tasks, tripped, other, single, named⟩
  · rintro (⟨entries, rfl, differ⟩ | ⟨tasks, tripped, other, entries, named⟩)
    · exact Or.inl ⟨congrArg (head :: ·) entries, differ⟩
    · exact Or.inr ⟨tasks, head, other, congrArg (head :: ·) entries, named, tripped⟩

theorem without_first (numbered : Numbered g.queue g.seq)
    (popped : g.queue.pop = some (event, rest)) : g.without event = { g with queue := rest } := by
  have later := (numbered_pop numbered popped).2.2
  have kept : ∀ other ∈ rest, decide (other ≠ event) = true := by
    intro other member
    refine decide_eq_true fun same => ?_
    exact lt_irrefl event.key (same ▸ later other member)
  have dropped : decide (event ≠ event) = false := by simp
  rw [without, KeyedQueue.retain_of_pop_dropped popped _ dropped,
    KeyedQueue.retain_eq_self rest _ kept]

theorem trips_later {other : Keyed} (later : event.key ≤ other.key)
    (tripped : g.trips event = true) : g.trips other = true := by
  have time : event.time.toNat ≤ other.time.toNat := by
    rcases Prod.Lex.toLex_le_toLex.mp later with sooner | same
    · exact sooner.le
    · exact same.1.le
  simp only [trips, Bool.or_eq_true, decide_eq_true_eq] at tripped ⊢
  exact tripped.imp_left fun beyond => lt_of_lt_of_le beyond time

/-- Another event cuts the run off. -/
theorem compared_cut_other (haunted : Haunted g event timer) (queued : event ∈ g.queue)
    (popped : g.queue.pop = some (head, rest)) (different : head ≠ event)
    (tripped : g.trips head = true) (stops : ∀ event next, turn program g ≠ .next event next) :
    Compared program g event := by
  have keep : decide (head ≠ event) = true := decide_eq_true different
  have inRest : event ∈ rest :=
    ((KeyedQueue.mem_of_pop popped event).mp queued).resolve_left different.symm
  have numbered := (numbered_pop haunted.numbered popped).1
  obtain ⟨audit, left⟩ := run_cut program popped tripped
  obtain ⟨audit', right⟩ := run_cut program (g := g.without event)
    (KeyedQueue.pop_retain_of_kept popped _ keep) tripped
  refine ⟨?_, ?_⟩
  · rw [left, right]
    exact ⟨_, _, _, rfl⟩
  · have spent := (spent_at g head rest audit).trans (spent_at g head
      (rest.retain fun other => decide (other ≠ event)) audit').symm
    -- Both runs stop at `head`. The queues that are left differ by the event alone, and that
    -- shows in `stuck` when it is all that is left.
    have nonempty : rest.entries ≠ [] := List.ne_nil_of_mem inRest
    rw [throughout_stop stops, left, right, betrays_iff popped]
    refine (sameFlags_iff spent rfl).trans ?_
    simp only [retain_empty_iff numbered inRest, nonempty, different, tripped, false_iff,
      false_and, false_or, true_and, not_and]
    refine forall_congr' fun _ => not_congr ?_
    constructor
    · exact fun entries => ⟨event, entries, rfl⟩
    · rintro ⟨other, entries, rfl⟩
      exact entries

/-- The event cuts the run off. -/
theorem compared_cut_at (haunted : Haunted g event timer)
    (popped : g.queue.pop = some (event, rest)) (tripped : g.trips event = true)
    (stops : ∀ event next, turn program g ≠ .next event next) : Compared program g event := by
  have same := without_first haunted.numbered popped
  obtain ⟨audit, left⟩ := run_cut program popped tripped
  have spent := (spent_at g event rest audit).trans tripped
  cases second : rest.pop with
  | none =>
      -- Without the event the run quiesces, with the clock where it was.
      have empty := (KeyedQueue.pop_eq_none rest).mp second
      have right := run_of_empty program { g with queue := rest } empty
      rw [← same] at right
      refine ⟨?_, ?_⟩
      · rw [left, right, same]
        exact ⟨_, _, _, rfl⟩
      · rw [throughout_stop stops, left, right, same, betrays_iff popped]
        simp only [empty, tripped, true_iff, true_and, reduceCtorEq, false_and, exists_false,
          and_false, or_false, not_not]
        exact ⟨fun flags => flags.spent.symm.trans spent,
          fun before => ⟨spent.trans before.symm, rfl⟩⟩
  | some entry =>
      -- Without the event the run is cut off at the next one.
      obtain ⟨other, more⟩ := entry
      have entries := KeyedQueue.pop_eq_some.mp second
      have next := (numbered_pop haunted.numbered popped).2.2 other
        ((KeyedQueue.mem_of_pop second other).mpr (Or.inl rfl))
      have later : g.trips other = true := trips_later next.le tripped
      obtain ⟨audit', right⟩ := run_cut program (g := { g with queue := rest }) second later
      rw [← same] at right
      refine ⟨?_, ?_⟩
      · rw [left, right]
        exact ⟨_, _, _, rfl⟩
      · rw [throughout_stop stops, left, right, betrays_iff popped]
        have both := spent.trans ((spent_at g other more audit').trans later).symm
        refine (sameFlags_iff both rfl).trans ?_
        simp only [entries, reduceCtorEq, false_iff, false_and, false_or, tripped, true_and,
          true_or, and_true, not_and, List.cons.injEq, exists_and_right, exists_eq']

/-- The loop passes the event by: only the clock moves. -/
theorem compared_pass_at {next : Inner State Value} (haunted : Haunted g event timer)
    (popped : g.queue.pop = some (event, rest)) (within : g.trips event = false)
    (turned : turn program g = .next event next) : Compared program g event := by
  have same := without_first haunted.numbered popped
  have moved : next = { g with queue := rest, now := event.time } := by
    obtain ⟨queue, again, _, shape⟩ := next_shape program g next event turned
    rw [popped] at again
    cases again
    simp only [shape, dispatch, haunted.kind, fireTimer, haunted.gone.disarmed]
  have passed : (run program g).world =
      (run program { g with queue := rest, now := event.time }).world := by
    rw [run_next turned, moved]
  have gone : event ∉ next.queue := by
    rw [moved]
    intro member
    exact lt_irrefl event.key ((numbered_pop haunted.numbered popped).2.2 event member)
  have later : ∀ events mid, TurnsTo program next events mid → ¬Betrays mid event :=
    never_betrays gone (haunted_turn haunted turned).old
  cases second : rest.pop with
  | none =>
      -- Nothing comes after the event, so the clock stays where the event put it.
      have empty := (KeyedQueue.pop_eq_none rest).mp second
      have left := run_of_empty program { g with queue := rest, now := event.time } empty
      have right := run_of_empty program { g with queue := rest } empty
      rw [← same] at right
      rw [left] at passed
      refine ⟨?_, ?_⟩
      · rw [passed, right, same]
        exact ⟨_, _, _, rfl⟩
      · rw [throughout_next turned, passed, right, same, betrays_iff popped,
          and_iff_left later]
        have clock := (spent_at g event rest g.audit).trans within
        simp only [empty, within, true_and, reduceCtorEq, false_and, exists_false, and_false,
          or_false, not_not, Bool.false_eq_true, false_iff, Bool.not_eq_true]
        exact ⟨fun flags => flags.spent.symm.trans clock,
          fun before => ⟨clock.trans before.symm, rfl⟩⟩
  | some entry =>
      -- The next event sets the clock anew, whatever the event left there.
      have left : rest.entries ≠ [] := by
        rw [KeyedQueue.pop_eq_some.mp second]
        exact List.cons_ne_nil _ _
      have calm : ¬Betrays g event := by
        rw [betrays_iff popped]
        simp [left, within]
      have ends : (run program g).world = (run program (g.without event)).world := by
        rw [passed, same, run_now program { g with queue := rest } event.time left]
      refine ⟨?_, ?_⟩
      · rw [← ends]
        exact ⟨_, _, _, rfl⟩
      · rw [throughout_next turned, ← ends]
        exact ⟨fun _ => ⟨calm, later⟩, fun _ => ⟨rfl, rfl⟩⟩

/-- Both runs handle another event alike. -/
theorem compared_pass_other {next : Inner State Value} (haunted : Haunted g event timer)
    (queued : event ∈ g.queue) (different : head ≠ event)
    (turned : turn program g = .next head next) (ih : Compared program next event) :
    Compared program g event := by
  obtain ⟨rest, popped, within, rfl⟩ := next_shape program g next head turned
  have keep : decide (head ≠ event) = true := decide_eq_true different
  have inRest : event ∈ rest :=
    ((KeyedQueue.mem_of_pop popped event).mp queued).resolve_left different.symm
  let exchange := forgetting event timer haunted.kind
  have fits : exchange.Fits { g with queue := rest, now := head.time }
      (dispatch program { g with queue := rest, now := head.time } head) :=
    ⟨haunted.aligned, haunted.old, trivial⟩
  have alongside : turn program (g.without event) =
      .next head ((dispatch program { g with queue := rest, now := head.time } head).without
        event) := by
    have left := KeyedQueue.pop_retain_of_kept popped (fun other => decide (other ≠ event)) keep
    have dispatched := dispatch_on fits
    rw [turn, without, left]
    simp only [trips] at within ⊢
    rw [within]
    exact congrArg (Turn.next head) dispatched
  have calm : ¬Betrays g event := by
    rw [betrays_iff popped]
    simp [different, within]
  have left := run_next turned
  have right := run_next alongside
  refine ⟨?_, ?_⟩
  · rw [left, right]
    exact ih.alike
  · rw [throughout_next turned, left, right, ih.flags, and_iff_right calm]

/-- One case for each way the loop goes on from a state. -/
theorem haunted_compared (haunted : Haunted g event timer) : Compared program g event := by
  induction g using run.induct program with
  | case1 g turned =>
      have empty := (turn_quiesce program g).mp turned
      have absent : event ∉ g.queue := by
        rw [KeyedQueue.mem_def, empty]
        exact List.not_mem_nil
      exact compared_absent absent haunted.old
  | case2 g head next turned =>
      by_cases queued : event ∈ g.queue
      · obtain ⟨rest, popped, tripped, _⟩ := abort_shape program g next head turned
        have stops : ∀ event next, turn program g ≠ .next event next := by simp [turned]
        by_cases same : head = event
        · subst same
          exact compared_cut_at haunted popped tripped stops
        · exact compared_cut_other haunted queued popped same tripped stops
      · exact compared_absent queued haunted.old
  | case3 g head next turned ih =>
      by_cases queued : event ∈ g.queue
      · by_cases same : head = event
        · subst same
          obtain ⟨rest, popped, within, _⟩ := next_shape program g next head turned
          exact compared_pass_at haunted popped within turned
        · exact compared_pass_other haunted queued same turned (ih (haunted_turn haunted turned))
      · exact compared_absent queued haunted.old

end Cases

/-! The reports. -/

structure SameReport (left right : RunReport) : Prop where
  trace : left.trace = right.trace
  history : left.history = right.history
  dispatched : left.dispatched = right.dispatched
  aborted : left.aborted = right.aborted
  deadlocked : left.deadlocked = right.deadlocked
  parkedTasks : left.parkedTasks = right.parkedTasks

theorem report_of_alike (payload : Message → String) {left right : Inner State Value}
    (alike : Alike left right) (flags : SameFlags left right) :
    left.report payload = right.report payload := by
  obtain ⟨queue, now, audit, rfl⟩ := alike
  simp only [report, semanticCoverage, flags.spent, flags.stuck]

/-- Removing the event of a cancelled timer changes nothing in the report but the
two flags and the coverage signal drawn from them, and it changes nothing at all
exactly when the run never comes to a state that betrays the event. -/
theorem ghost_unnoticed_iff (payload : Message → String) (program : Program State Value)
    (nextAction : NextAction Plan) (g : Inner State Value)
    (reachable : Reachable program nextAction g) (event : Keyed) (ghost : Ghost g event) :
    (∃ coverageSignals aborted deadlocked,
      (run program (g.without event)).world.report payload =
        { (run program g).world.report payload with coverageSignals, aborted, deadlocked }) ∧
      (SameReport ((run program g).world.report payload)
          ((run program (g.without event)).world.report payload) ↔
        ∀ events mid, TurnsTo program g events mid → ¬Betrays mid event) ∧
      ((∀ events mid, TurnsTo program g events mid → ¬Betrays mid event) →
        (run program g).world.report payload =
          (run program (g.without event)).world.report payload) := by
  obtain ⟨timer, haunted⟩ := ghost.haunted reachable
  have compared : Compared program g event := haunted_compared haunted
  have equal := report_of_alike payload compared.alike
  refine ⟨?_, ?_, fun calm => equal (compared.flags.mpr calm)⟩
  · obtain ⟨queue, now, audit, same⟩ := compared.alike
    rw [same]
    exact ⟨_, _, _, rfl⟩
  · rw [← compared.flags]
    refine ⟨fun same => ⟨same.aborted, same.deadlocked⟩, ?_⟩
    intro flags
    rw [equal flags]
    exact ⟨rfl, rfl, rfl, rfl, rfl, rfl⟩

/-- A node that waits for a message it sends to itself, for two milliseconds. -/
def echo : Program (Option (FutureId × FutureId)) Unit
  | none => .call (.send 0 0 [1]) fun _ => .call (.recv 0) fun
    | .future guarded => Code.sleep 0 2000000 fun
      | .future timer => poll guarded timer
      | _ => .done (.ready ())
    | _ => .done (.ready ())
  | some (guarded, timer) => poll guarded timer
where
  poll (guarded timer : FutureId) :=
    Code.pollTimeout guarded timer fun
      | some .pending => .done (.pending (some (guarded, timer)))
      | _ => .done (.ready ())

def echoWorld : Inner (Option (FutureId × FutureId)) Unit :=
  ((replay 0 [] {}).operate noPlans (.addNode 0 fun _ => .done none)).2

/-- The message of `echo` has come, and its two milliseconds are not over. -/
def echoed : Inner (Option (FutureId × FutureId)) Unit := advance echo 3 echoWorld

theorem echoed_unnoticed_iff :
    SameReport ((run echo echoed).world.report fun _ => "")
        ((run echo (echoed.without ⟨2000000, 2, .timerFire 0⟩)).world.report fun _ => "") ↔
      ∀ events mid, TurnsTo echo echoed events mid → ¬Betrays mid ⟨2000000, 2, .timerFire 0⟩ :=
  (ghost_unnoticed_iff (fun _ => "") echo noPlans echoed
    (reachable_advance 3 (.operate _ (.replay 0 [] {}))) ⟨2000000, 2, .timerFire 0⟩
    ⟨(KeyedQueue.mem_def _ _).mpr (by decide), 0, rfl, by decide⟩).2.1

/-- A node that waits for its own message for up to a hundred seconds. -/
def patientEcho : Program (Option (FutureId × FutureId)) Unit
  | none => .call (.send 0 0 [1]) fun _ => .call (.recv 0) fun
    | .future guarded => Code.sleep 0 100000000000 fun
      | .future timer => echo.poll guarded timer
      | _ => .done (.ready ())
    | _ => .done (.ready ())
  | some (guarded, timer) => echo.poll guarded timer

def patientWorld : Inner (Option (FutureId × FutureId)) Unit :=
  advance patientEcho 3 ((replay 0 [] {}).operate noPlans (.addNode 0 fun _ => .done none)).2

def patientGhost : Keyed := ⟨100000000000, 2, .timerFire 0⟩

/-- The timeout whose message came makes the quiesced run count as aborted. -/
theorem patientEcho_ghost_noticed :
    Reachable patientEcho noPlans patientWorld ∧ Ghost patientWorld patientGhost ∧
      patientWorld.tasks.isEmpty = true ∧
      ((run patientEcho patientWorld).world.report fun _ => "").aborted = true ∧
      ((run patientEcho (patientWorld.without patientGhost)).world.report
        fun _ => "").aborted = false ∧
      ¬SameReport ((run patientEcho patientWorld).world.report fun _ => "")
        ((run patientEcho (patientWorld.without patientGhost)).world.report fun _ => "") := by
  have entries : patientWorld.queue.entries = [patientGhost] := by decide
  have popped : patientWorld.queue.pop = some (patientGhost, .empty) :=
    KeyedQueue.pop_eq_some.mpr entries
  have tripped : patientWorld.trips patientGhost = true := by decide
  have within : patientWorld.spent = false := by decide
  have member : patientGhost ∈ patientWorld.queue := by
    rw [KeyedQueue.mem_def, entries]
    exact List.mem_singleton_self _
  have aborted : (run patientEcho patientWorld).world.spent = true := by
    obtain ⟨audit, cut⟩ := run_cut patientEcho popped tripped
    rw [cut]
    exact (spent_at _ _ _ audit).trans tripped
  have quiesced : (run patientEcho (patientWorld.without patientGhost)).world.spent = false := by
    have empty : (patientWorld.without patientGhost).queue.entries = [] := by
      simp [without, KeyedQueue.retain, entries]
    rw [run_of_empty patientEcho _ empty]
    exact within
  refine ⟨reachable_advance 3 (.operate _ (.replay 0 [] {})),
    ⟨member, 0, rfl, by decide⟩, by decide, aborted, quiesced, ?_⟩
  intro same
  exact Bool.false_ne_true ((quiesced.symm.trans same.aborted.symm).trans aborted)

end Inner

end Detersim
