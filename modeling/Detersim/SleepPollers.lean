import Detersim.DispatchOrder
import Detersim.ReceiveWakeups
import Detersim.SleepWakeups

/-!
Whom a sleep wakes. A sleep sets its timer for the task that polls it first, and
a later poll that finds the timer set leaves it as it is. So it wakes the task
that polled it last, unless the sleep was moved into another task while its timer
was set and polled there before the timer fired.
-/

namespace Detersim

variable {State Value Plan : Type}

/-- The call polls a sleep of the code that makes it. -/
def Call.PollsSleep (call : Call State Value) (id : FutureId) : Prop :=
  call.op = .poll id ∧ ∃ node deadline timer,
    call.before.Sleeps id call.before.currentTask node deadline timer

/-- Of the calls that poll the sleep it is the latest. -/
def LatestPoll (journal : List (Call State Value)) (id : FutureId) (call : Call State Value) :
    Prop :=
  ∃ earlier later, journal = earlier ++ call :: later ∧ call.PollsSleep id ∧
    ∀ other ∈ later, ¬other.PollsSleep id

/-- The latest poll of the sleep was the task's and returned `Pending`. -/
def PolledBy (journal : List (Call State Value)) (id : FutureId) (task : TaskId) : Prop :=
  ∃ call, LatestPoll journal id call ∧ call.reply = .pending ∧ call.before.currentTask = some task

theorem latestPoll_append (journal : List (Call State Value)) (id : FutureId)
    (new call : Call State Value) :
    LatestPoll (journal ++ [new]) id call ↔
      new.PollsSleep id ∧ call = new ∨ ¬new.PollsSleep id ∧ LatestPoll journal id call := by
  constructor
  · rintro ⟨earlier, later, whole, polls, none_⟩
    rcases List.eq_nil_or_concat later with rfl | ⟨before, last, rfl⟩
    · obtain ⟨_, rfl⟩ := List.append_singleton_inj.mp whole
      exact Or.inl ⟨polls, rfl⟩
    · rw [List.concat_eq_append] at whole none_
      rw [← List.cons_append, ← List.append_assoc] at whole
      obtain ⟨rfl, rfl⟩ := List.append_singleton_inj.mp whole
      refine Or.inr ⟨none_ new (by simp), earlier, before, rfl, polls, ?_⟩
      exact fun other member => none_ other (List.mem_append_left _ member)
  · rintro (⟨polls, rfl⟩ | ⟨other, earlier, later, rfl, polls, none_⟩)
    · exact ⟨journal, [], rfl, polls, fun _ member => absurd member List.not_mem_nil⟩
    · refine ⟨earlier, later ++ [new], by simp, polls, ?_⟩
      intro between member
      rcases List.mem_append.mp member with old | last
      · exact none_ between old
      · exact List.mem_singleton.mp last ▸ other

theorem latestPoll_unique {journal : List (Call State Value)} {id : FutureId}
    {first second : Call State Value} (one : LatestPoll journal id first)
    (two : LatestPoll journal id second) : first = second := by
  induction journal using List.reverseRecOn with
  | nil =>
      obtain ⟨earlier, later, whole, _⟩ := one
      simp at whole
  | append_singleton journal new ih =>
      rcases (latestPoll_append journal id new first).mp one with ⟨_, rfl⟩ | ⟨other, one⟩
      · rcases (latestPoll_append journal id first second).mp two with ⟨_, rfl⟩ | ⟨other, _⟩
        · rfl
        · exact absurd ‹first.PollsSleep id› other
      · rcases (latestPoll_append journal id new second).mp two with ⟨polls, _⟩ | ⟨_, two⟩
        · exact absurd polls other
        · exact ih one two

theorem polledBy_unique {journal : List (Call State Value)} {id : FutureId} {first second : TaskId}
    (one : PolledBy journal id first) (two : PolledBy journal id second) : first = second := by
  obtain ⟨call, latest, _, current⟩ := one
  obtain ⟨other, latest', _, current'⟩ := two
  obtain rfl := latestPoll_unique latest latest'
  exact Option.some.inj (current.symm.trans current')

theorem latestPoll_mem {journal : List (Call State Value)} {id : FutureId}
    {call : Call State Value} (latest : LatestPoll journal id call) :
    call ∈ journal ∧ call.PollsSleep id := by
  obtain ⟨earlier, later, rfl, polls, _⟩ := latest
  exact ⟨by simp, polls⟩

section Append

variable {journal : List (Call State Value)} {id : FutureId} {call : Call State Value}
  {task : TaskId}

theorem PolledBy.kept (polled : PolledBy journal id task) (quiet : ¬call.PollsSleep id) :
    PolledBy (journal ++ [call]) id task := by
  obtain ⟨latest, last, pending, current⟩ := polled
  exact ⟨latest, (latestPoll_append journal id call latest).mpr (Or.inr ⟨quiet, last⟩), pending,
    current⟩

theorem polledBy_last (polls : call.PollsSleep id) (pending : call.reply = .pending)
    (current : call.before.currentTask = some task) : PolledBy (journal ++ [call]) id task :=
  ⟨call, (latestPoll_append journal id call call).mpr (Or.inl ⟨polls, rfl⟩), pending, current⟩

theorem polled_append {bound : FutureId}
    (old : ∀ earlier ∈ journal, ∀ id, earlier.PollsSleep id → id < bound)
    (new : ∀ id, call.PollsSleep id → id < bound) :
    ∀ earlier ∈ journal ++ [call], ∀ id, earlier.PollsSleep id → id < bound := by
  intro earlier member id polls
  rcases List.mem_append.mp member with before | last
  · exact old earlier before id polls
  · exact new id (List.mem_singleton.mp last ▸ polls)

end Append

namespace Inner

/-- The timer is armed for the task, with exactly one event to fire it. -/
def ArmedFor (g : Inner State Value) (timer : TimerId) (task : TaskId) : Prop :=
  g.timers.get timer = some task ∧
    ∃ fire, (g.queue.entries.filter fun event => decide (event.kind = .timerFire timer)) = [fire]

/-- Each sleep whose latest poll returned `Pending` will wake the task that made it. -/
def WakesPollers (journal : List (Call State Value)) (g : Inner State Value) : Prop :=
  ∀ id owner node deadline timer call, g.Sleeps id owner node deadline timer →
    LatestPoll journal id call → call.reply = .pending →
      ∃ task, call.before.currentTask = some task ∧
        ((∃ armed, timer = some armed ∧ g.ArmedFor armed task) ∨ g.Woken task)

/-! The condition. -/

/-- Before its deadline the call polls no sleep that is armed for another task. -/
def PollsOwn (g : Inner State Value) (op : Op State) : Prop :=
  ∀ id node deadline timer waiter, op = .poll id →
    g.Sleeps id g.currentTask node deadline (some timer) → g.timers.get timer = some waiter →
      (g.localNow node).1 < deadline → g.currentTask = some waiter

/-- The event will wake the task that polled the sleep last: it fires the sleep's
timer, or it is the one queued poll of the task after the timer has fired. -/
def HangsOn (journal : List (Call State Value)) (g : Inner State Value) (event : Keyed)
    (id : FutureId) (task : TaskId) : Prop :=
  PolledBy journal id task ∧ ∃ owner node deadline timer,
    g.Sleeps id owner node deadline (some timer) ∧
      (event.kind = .timerFire timer ∧ g.timers.get timer = some task ∨
        event.kind = .pollTask task ∧ g.timers.get timer = none ∧
          ∀ other ∈ g.queue, other.kind = .pollTask task → other = event)

/-- The crash takes no task that polled a sleep last which it leaves. -/
def CrashTakes (journal : List (Call State Value)) (g : Inner State Value) (node : NodeId) : Prop :=
  node ∈ g.nodes → ∀ id task owner somewhere deadline timer,
    g.Sleeps id owner somewhere deadline (some timer) → PolledBy journal id task →
      g.livesOn node task = true → owner.any (g.livesOn node) = true

structure TurnPolls (program : Program State Value) (journal : List (Call State Value))
    (g : Inner State Value) (event : Keyed) : Prop where
  own : ∀ call ∈ turnCalls program g, call.before.PollsOwn call.op
  again : ∀ id task, event.kind = .pollTask task → HangsOn journal g event id task →
    (∃ call ∈ turnCalls program g, call.PollsSleep id) ∨
      ∀ next, turn program g = .next event next → next.futures.get id = none
  crashes : ∀ node, event.kind = .nemesis (.crash node) → CrashTakes journal g node

/-- Conditions on the steps of a world that look at the calls made before. -/
structure JournalConditions (State Value Plan : Type) where
  operate : List (Call State Value) → Inner State Value → WorldOp State Value Plan → Prop
  turn : List (Call State Value) → Inner State Value → Keyed → Prop
  abort : List (Call State Value) → Inner State Value → Keyed → Prop

inductive JournaledUnder (program : Program State Value) (nextAction : NextAction Plan)
    (allows : JournalConditions State Value Plan) :
    List (Call State Value) → Inner State Value → Prop where
  | generate (seed config) : JournaledUnder program nextAction allows [] (generate seed config)
  | replay (seed tape config) :
      JournaledUnder program nextAction allows [] (replay seed tape config)
  | operate {journal g} (op : WorldOp State Value Plan) (allowed : allows.operate journal g op) :
      JournaledUnder program nextAction allows journal g →
      JournaledUnder program nextAction allows (journal ++ g.operateCalls op)
        (g.operate nextAction op).2
  | turn {journal g event next} (allowed : allows.turn journal g event) :
      JournaledUnder program nextAction allows journal g → turn program g = .next event next →
      JournaledUnder program nextAction allows (journal ++ turnCalls program g) next
  | abort {journal g event next} (allowed : allows.abort journal g event) :
      JournaledUnder program nextAction allows journal g → turn program g = .abort event next →
      JournaledUnder program nextAction allows journal next

/-- A task that is woken polls the sleep that woke it, its own or one that is not
armed for another task; and nothing cuts it off from being woken. -/
def keepsPollers (program : Program State Value) : JournalConditions State Value Plan where
  operate journal g op := ∀ node, op = .crashNode node → CrashTakes journal g node
  turn journal g event := TurnPolls program journal g event
  abort journal g event := ∀ id task, ¬HangsOn journal g event id task

theorem JournaledUnder.journaled {program : Program State Value} {nextAction : NextAction Plan}
    {allows : JournalConditions State Value Plan} {journal : List (Call State Value)}
    {g : Inner State Value} (under : JournaledUnder program nextAction allows journal g) :
    Journaled program nextAction journal g := by
  induction under with
  | generate seed config => exact Journaled.generate seed config
  | replay seed tape config => exact Journaled.replay seed tape config
  | operate op _ _ ih => exact Journaled.operate op ih
  | turn _ _ turned ih => exact Journaled.turn ih turned
  | abort _ _ aborted ih => exact Journaled.abort ih aborted

/-! The invariant. -/

/-- A set timer waits for the task and has its event; one that has fired leaves a poll
of the task, unless it is spared. -/
structure Attends (g : Inner State Value) (timer : TimerId) (task : TaskId) (spared : Prop) :
    Prop where
  armed : ∀ waiter, g.timers.get timer = some waiter →
    waiter = task ∧ ∃ fire ∈ g.queue, fire.kind = .timerFire timer
  fired : g.timers.get timer = none → spared ∨ g.Woken task

structure Attended (journal : List (Call State Value)) (spared : FutureId → Prop)
    (g : Inner State Value) : Prop where
  below : ∀ id owner node deadline timer, g.Sleeps id owner node deadline timer → id < g.nextFuture
  issued : ∀ id owner node deadline timer, g.Sleeps id owner node deadline (some timer) →
    timer < g.nextTimerId
  fires : ∀ event ∈ g.queue, ∀ timer, event.kind = .timerFire timer → timer < g.nextTimerId
  once : ∀ first ∈ g.queue, ∀ second ∈ g.queue, ∀ timer, first.kind = .timerFire timer →
    second.kind = .timerFire timer → first = second
  apart : ∀ left owner node deadline right owner' node' deadline' timer,
    g.Sleeps left owner node deadline (some timer) →
      g.Sleeps right owner' node' deadline' (some timer) → left = right
  polled : ∀ call ∈ journal, ∀ id, call.PollsSleep id → id < g.nextFuture
  unarmed : ∀ id owner node deadline call, g.Sleeps id owner node deadline none →
    LatestPoll journal id call → call.reply ≠ .pending
  awake : ∀ id owner node deadline timer, g.Sleeps id owner node deadline (some timer) →
    owner ≠ none ∧ ∃ task, PolledBy journal id task ∧ g.Attends timer task (spared id)

variable {journal : List (Call State Value)} {spared : FutureId → Prop}

theorem Attends.mono {g after : Inner State Value} {timer : TimerId} {task : TaskId}
    {spared : Prop} (attends : g.Attends timer task spared)
    (timers : after.timers.get timer = g.timers.get timer)
    (kept : ∀ event ∈ g.queue, event ∈ after.queue) : after.Attends timer task spared := by
  constructor
  · intro waiter armed
    obtain ⟨same, fire, member, kind⟩ := attends.armed waiter (timers ▸ armed)
    exact ⟨same, fire, kept fire member, kind⟩
  · intro fired
    refine (attends.fired (timers ▸ fired)).imp_right ?_
    rintro ⟨wake, member, kind⟩
    exact ⟨wake, kept wake member, kind⟩

/-- No sleep is set that was not, and each that is set is attended to. -/
theorem Attended.frame {g after : Inner State Value} (attended : Attended journal spared g)
    (nextFuture : g.nextFuture ≤ after.nextFuture) (nextTimerId : g.nextTimerId ≤ after.nextTimerId)
    (fires : ∀ event ∈ after.queue, ∀ timer, event.kind = .timerFire timer → event ∈ g.queue)
    (sleeps : ∀ id owner node deadline timer, after.Sleeps id owner node deadline timer →
      ∃ before, g.Sleeps id before node deadline timer ∧ (owner = none → before = none))
    (attends : ∀ id owner node deadline timer task,
      after.Sleeps id owner node deadline (some timer) → PolledBy journal id task →
        g.Attends timer task (spared id) → after.Attends timer task (spared id)) :
    Attended journal spared after where
  below id owner node deadline timer sleeping := by
    obtain ⟨before, found, _⟩ := sleeps id owner node deadline timer sleeping
    exact (attended.below id before node deadline timer found).trans_le nextFuture
  issued id owner node deadline timer sleeping := by
    obtain ⟨before, found, _⟩ := sleeps id owner node deadline (some timer) sleeping
    exact (attended.issued id before node deadline timer found).trans_le nextTimerId
  fires event member timer kind :=
    (attended.fires event (fires event member timer kind) timer kind).trans_le nextTimerId
  once first one second two timer kind kind' :=
    attended.once first (fires first one timer kind) second (fires second two timer kind') timer
      kind kind'
  apart left owner node deadline right owner' node' deadline' timer first second := by
    obtain ⟨before, first, _⟩ := sleeps left owner node deadline (some timer) first
    obtain ⟨before', second, _⟩ := sleeps right owner' node' deadline' (some timer) second
    exact attended.apart left before node deadline right before' node' deadline' timer first second
  polled call member id polls := (attended.polled call member id polls).trans_le nextFuture
  unarmed id owner node deadline call sleeping latest := by
    obtain ⟨before, found, _⟩ := sleeps id owner node deadline none sleeping
    exact attended.unarmed id before node deadline call found latest
  awake id owner node deadline timer sleeping := by
    obtain ⟨before, found, outside⟩ := sleeps id owner node deadline (some timer) sleeping
    obtain ⟨owned, task, polled, held⟩ := attended.awake id before node deadline timer found
    exact ⟨fun none_ => owned (outside none_), task, polled,
      attends id owner node deadline timer task sleeping polled held⟩

theorem attended_calm {g after : Inner State Value} (attended : Attended journal spared g)
    (calm : Calm g after) : Attended journal spared after := by
  refine attended.frame calm.nextFuture calm.nextTimerId.ge calm.fires ?_ ?_
  · intro id owner node deadline timer sleeping
    exact ⟨owner, (calm.sleeps id owner node deadline timer).mp sleeping, fun same => same⟩
  · intro id owner node deadline timer task _ _ attends
    exact attends.mono (by rw [calm.timers]) calm.kept

/-- Timers, sleeps and events are as before, or some sleeps are gone. -/
theorem attended_fewer {g after : Inner State Value} (attended : Attended journal spared g)
    (nextFuture : after.nextFuture = g.nextFuture) (nextTimerId : after.nextTimerId = g.nextTimerId)
    (queue : after.queue = g.queue) (timers : after.timers = g.timers)
    (sleeps : ∀ id owner node deadline timer, after.Sleeps id owner node deadline timer →
      ∃ before, g.Sleeps id before node deadline timer ∧ (owner = none → before = none)) :
    Attended journal spared after := by
  refine attended.frame nextFuture.ge nextTimerId.ge ?_ sleeps ?_
  · exact fun event member _ _ => queue ▸ member
  · intro id owner node deadline timer task _ _ attends
    exact attends.mono (by rw [timers]) fun event member => queue ▸ member

theorem attended_discard {g : Inner State Value} (attended : Attended journal spared g)
    (gone : TaskId → Bool) : Attended journal spared (g.discard gone) := by
  refine attended_fewer attended rfl rfl rfl rfl ?_
  intro id owner node deadline timer sleeping
  exact ⟨owner, (sleeps_discard sleeping).1, fun same => same⟩

theorem attended_give {g : Inner State Value} (attended : Attended journal spared g)
    (chosen : FutureId → Bool) (task : TaskId) : Attended journal spared (g.give chosen task) := by
  refine attended_fewer attended rfl rfl rfl rfl ?_
  intro id owner node deadline timer sleeping
  simp only [Sleeps, give, SortedMap.get_mapValues, Option.map_eq_some_iff] at sleeping
  obtain ⟨⟨before, leaf⟩, found, shape⟩ := sleeping
  split_ifs at shape
  · cases shape
    exact ⟨before, found, fun none_ => by cases none_⟩
  · cases shape
    exact ⟨owner, found, fun same => same⟩

theorem attended_release {g : Inner State Value} (attended : Attended journal spared g)
    (id : FutureId) : Attended journal spared (g.release id) := by
  obtain ⟨timers, recvWaiters, slots, shape, kept⟩ := release_shape g id
  rw [shape]
  have still {other owner node deadline timer}
      (sleeping : ({ g with
        futures := g.futures.remove id, timers, recvWaiters, slots } : Inner State Value).Sleeps
          other owner node deadline timer) :
      other ≠ id ∧ g.Sleeps other owner node deadline timer := by
    simp only [Sleeps, SortedMap.get_remove] at sleeping
    split_ifs at sleeping with same
    exact ⟨same, sleeping⟩
  refine attended.frame le_rfl le_rfl (fun _ member _ _ => member) ?_ ?_
  · exact fun other owner node deadline timer sleeping => ⟨owner, (still sleeping).2, fun h => h⟩
  · intro other owner node deadline timer task sleeping _ attends
    obtain ⟨different, before⟩ := still sleeping
    refine attends.mono ?_ fun _ member => member
    rcases kept timer with same | ⟨_, owner', node', deadline', released⟩
    · exact same
    · exact absurd (attended.apart other owner node deadline id owner' node' deadline' timer before
        released) different

theorem attended_crash {g : Inner State Value} (attended : Attended journal spared g)
    (node : NodeId) (takes : CrashTakes journal g node) :
    Attended journal spared (g.crashNode node) := by
  unfold crashNode
  split_ifs with known
  · have still {id owner somewhere deadline timer}
        (sleeping : (g.discard (g.livesOn node)).Sleeps id owner somewhere deadline timer) :
        g.Sleeps id owner somewhere deadline timer ∧ owner.any (g.livesOn node) = false :=
      sleeps_discard sleeping
    refine attended.frame le_rfl le_rfl ?_ ?_ ?_
    · exact fun event member _ _ => ((KeyedQueue.mem_retain _ _ _).mp member).1
    · exact fun id owner _ _ _ sleeping => ⟨owner, (still sleeping).1, fun same => same⟩
    · intro id owner somewhere deadline timer task sleeping polled attends
      obtain ⟨before, stays⟩ := still sleeping
      -- The task that polled the sleep last is not of the node, so its timer and its polls stay.
      have lives : g.livesOn node task = false := by
        by_contra taken
        have gone := takes known id task owner somewhere deadline timer before polled
          (Bool.not_eq_false _ ▸ taken)
        exact Bool.false_ne_true (stays.symm.trans gone)
      constructor
      · intro waiter armed
        have kept := armed
        rw [SortedMap.get_retain, Option.filter_eq_some_iff] at armed
        obtain ⟨same, fire, member, kind⟩ := attends.armed waiter armed.1
        refine ⟨same, fire, (KeyedQueue.mem_retain _ _ _).mpr ⟨member, ?_⟩, kind⟩
        simp only [eventIsLiveAfterCrash, kind, SortedMap.contains]
        exact Option.isSome_iff_exists.mpr ⟨waiter, kept⟩
      · intro fired
        have before : g.timers.get timer = none := by
          cases armed : g.timers.get timer with
          | none => rfl
          | some waiter =>
              have same := (attends.armed waiter armed).1
              rw [SortedMap.get_retain, armed, same, Option.filter_some] at fired
              change (if (!g.livesOn node task) = true then some task else none) = none at fired
              rw [lives] at fired
              cases fired
        refine (attends.fired before).imp_right ?_
        rintro ⟨wake, member, kind⟩
        refine ⟨wake, (KeyedQueue.mem_retain _ _ _).mpr ⟨member, ?_⟩, kind⟩
        rw [livesOn] at lives
        simpa only [eventIsLiveAfterCrash, kind, Bool.not_eq_true'] using lives
  · exact attended

/-! Calls. -/

/-- A call that polls no sleep of the state is added to the journal. -/
theorem attended_noted {g : Inner State Value} (attended : Attended journal spared g)
    (call : Call State Value) (below : ∀ id, call.PollsSleep id → id < g.nextFuture)
    (other : ∀ id owner node deadline timer, g.Sleeps id owner node deadline timer →
      ¬call.PollsSleep id) :
    Attended (journal ++ [call]) (fun id => spared id ∧ ¬call.PollsSleep id) g := by
  refine { attended with
    polled := polled_append attended.polled below, unarmed := ?_, awake := ?_ }
  · intro id owner node deadline latest sleeping polled
    rcases (latestPoll_append journal id call latest).mp polled with ⟨polls, _⟩ | ⟨_, before⟩
    · exact absurd polls (other id owner node deadline none sleeping)
    · exact attended.unarmed id owner node deadline latest sleeping before
  · intro id owner node deadline timer sleeping
    have quiet := other id owner node deadline (some timer) sleeping
    obtain ⟨owned, task, polled, attends⟩ :=
      attended.awake id owner node deadline timer sleeping
    exact ⟨owned, task, polled.kept quiet, attends.armed,
      fun fired => (attends.fired fired).imp_left fun held => ⟨held, quiet⟩⟩

theorem attended_hold {g : Inner State Value} (attended : Attended journal spared g) (leaf : Leaf)
    (armed : ∀ node deadline timer, leaf ≠ .sleep node deadline (some timer)) :
    Attended journal spared (g.hold leaf).2 := by
  have old {id owner node deadline timer}
      (sleeping : (g.hold leaf).2.Sleeps id owner node deadline timer) :
      id = g.nextFuture ∧ leaf = .sleep node deadline timer ∨
        g.Sleeps id owner node deadline timer := by
    simp only [Sleeps, hold, SortedMap.get_insert] at sleeping
    split_ifs at sleeping with same
    · cases sleeping
      exact Or.inl ⟨same, rfl⟩
    · exact Or.inr sleeping
  have set {id owner node deadline timer}
      (sleeping : (g.hold leaf).2.Sleeps id owner node deadline (some timer)) :
      g.Sleeps id owner node deadline (some timer) :=
    (old sleeping).resolve_left fun new => armed node deadline timer new.2
  constructor
  case below =>
    intro id owner node deadline timer sleeping
    rcases old sleeping with ⟨rfl, _⟩ | known
    · exact Nat.lt_succ_self _
    · exact Nat.lt_succ_of_lt (attended.below id owner node deadline timer known)
  case issued =>
    exact fun id owner node deadline timer sleeping =>
      attended.issued id owner node deadline timer (set sleeping)
  case fires => exact attended.fires
  case once => exact attended.once
  case apart =>
    exact fun left owner node deadline right owner' node' deadline' timer first second =>
      attended.apart left owner node deadline right owner' node' deadline' timer (set first)
        (set second)
  case polled =>
    exact fun call member id polls => Nat.lt_succ_of_lt (attended.polled call member id polls)
  case unarmed =>
    intro id owner node deadline call sleeping latest
    rcases old sleeping with ⟨rfl, _⟩ | known
    · obtain ⟨member, polls⟩ := latestPoll_mem latest
      exact absurd (attended.polled call member _ polls) (lt_irrefl _)
    · exact attended.unarmed id owner node deadline call known latest
  case awake =>
    intro id owner node deadline timer sleeping
    obtain ⟨owned, task, polled, attends⟩ :=
      attended.awake id owner node deadline timer (set sleeping)
    exact ⟨owned, task, polled, attends.mono rfl fun _ member => member⟩

theorem attended_read {g : Inner State Value} (attended : Attended journal spared g)
    (node : NodeId) : Attended journal spared (g.localNow node).2 :=
  attended_fewer attended rfl rfl rfl rfl fun _ owner _ _ _ sleeping =>
    ⟨owner, sleeping, fun same => same⟩

theorem attended_spawn {g : Inner State Value} (attended : Attended journal spared g)
    (node : NodeId) (child : State) (moved : List FutureId) :
    Attended journal spared (g.spawn node child moved).2 := by
  have started : Attended journal spared (({ g with
      nextSlot := g.nextSlot + 1
      slots := g.slots.insert g.nextSlot ⟨false, none, []⟩
      audit.slotHomes := g.audit.slotHomes.insert g.nextSlot node } : Inner State Value).addTask
        node ⟨child, some g.nextSlot⟩).2 :=
    attended_calm attended (Calm.ofSame rfl rfl rfl rfl rfl rfl rfl rfl)
  have gave := attended_give started (fun id => decide (id ∈ moved)) g.nextTaskId
  have queued := attended_calm gave (calm_pushEvent _ g.now (.pollTask g.nextTaskId) (by simp))
  exact attended_hold queued (.join g.nextSlot none) (by simp)

/-- Calls that poll no sleep. -/
theorem attended_other {g : Inner State Value} (attended : Attended journal spared g)
    (op : Op State) (other : ∀ id, ¬(⟨g, op⟩ : Call State Value).PollsSleep id) :
    Attended journal spared (g.perform op).2 := by
  have effect := perform_effect g op fun owner node deadline timer sleeping =>
    lt_irrefl _ (attended.below _ owner node deadline timer sleeping)
  generalize (g.perform op).2 = after at effect ⊢
  cases effect with
  | calm calm => exact attended_calm attended calm
  | read env => exact attended_read attended env
  | made env deadline => exact attended_hold attended _ (by simp)
  | spawned env child moved => exact attended_spawn attended env child moved
  | polled id node deadline timer sleeping =>
      exact absurd ⟨rfl, node, deadline, timer, sleeping⟩ (other id)
  | dropped id => exact attended_release attended id

section Poll

variable {call : Call State Value} {id : FutureId}

theorem pollsSleep_only (polls : call.PollsSleep id) {other : FutureId}
    (again : call.PollsSleep other) : other = id :=
  Op.poll.inj (again.1.symm.trans polls.1)

/-- A poll of a sleep that leaves it as it was. -/
theorem attended_again {g : Inner State Value} (attended : Attended journal spared g)
    (polls : call.PollsSleep id) {owner : Option TaskId} {node : NodeId} {deadline : SimTime}
    {timer : Option TimerId} (sleeping : g.Sleeps id owner node deadline timer)
    (unset : timer = none → call.reply ≠ .pending)
    (set : ∀ armed, timer = some armed → call.reply = .pending ∧
      ∃ task, call.before.currentTask = some task ∧ g.Attends armed task False) :
    Attended (journal ++ [call]) (fun other => spared other ∧ ¬call.PollsSleep other) g := by
  refine { attended with
    polled := polled_append attended.polled ?_, unarmed := ?_, awake := ?_ }
  · intro other again
    cases pollsSleep_only polls again
    exact attended.below id owner node deadline timer sleeping
  · intro other owner' node' deadline' latest unarmed polled
    rcases (latestPoll_append journal other call latest).mp polled with ⟨again, rfl⟩ | ⟨_, old⟩
    · cases pollsSleep_only polls again
      cases sleeping.symm.trans unarmed
      exact unset rfl
    · exact attended.unarmed other owner' node' deadline' latest unarmed old
  · intro other owner' node' deadline' armed found
    obtain ⟨owned, task, polled, attends⟩ :=
      attended.awake other owner' node' deadline' armed found
    refine ⟨owned, ?_⟩
    by_cases same : other = id
    · subst same
      cases sleeping.symm.trans found
      obtain ⟨reply, task, running, attends⟩ := set armed rfl
      exact ⟨task, polledBy_last polls reply running, attends.armed,
        fun fired => (attends.fired fired).imp_left False.elim⟩
    · have quiet : ¬call.PollsSleep other := fun again => same (pollsSleep_only polls again)
      exact ⟨task, polled.kept quiet, attends.armed,
        fun fired => (attends.fired fired).imp_left fun held => ⟨held, quiet⟩⟩

/-- What a new timer for a sleep changes. -/
structure Arms (g after : Inner State Value) (id : FutureId) (task : TaskId) (time : SimTime) :
    Prop where
  timers : ∀ other, after.timers.get other =
    if other = g.nextTimerId then some task else g.timers.get other
  queue : ∀ event, event ∈ after.queue ↔
    event = ⟨time, g.seq, .timerFire g.nextTimerId⟩ ∨ event ∈ g.queue
  nextTimerId : after.nextTimerId = g.nextTimerId + 1
  nextFuture : after.nextFuture = g.nextFuture
  sleeps : ∀ {other owner node deadline timer}, after.Sleeps other owner node deadline timer →
    other = id ∧ owner = some task ∧ timer = some g.nextTimerId ∨
      other ≠ id ∧ g.Sleeps other owner node deadline timer

theorem arms_registerTimer (g : Inner State Value) (id : FutureId) (task : TaskId) (node : NodeId)
    (deadline time : SimTime) (timer : Option TimerId) :
    Arms g ((g.registerTimer task time).2.setLeaf id ⟨some task, .sleep node deadline timer⟩
      (.sleep node deadline (some g.nextTimerId))) id task time where
  timers _ := SortedMap.get_insert _ _ _ _
  queue event := KeyedQueue.mem_push _ _ event
  nextTimerId := rfl
  nextFuture := rfl
  sleeps := by
    intro other owner somewhere until_ armed found
    rw [Sleeps, setLeaf, SortedMap.get_insert] at found
    split_ifs at found with same
    · cases found
      exact Or.inl ⟨same, rfl, rfl⟩
    · exact Or.inr ⟨same, found⟩

/-- The new timer's event is the only one that fires it. -/
theorem Arms.once {g after : Inner State Value} {task : TaskId} {time : SimTime}
    (arms : Arms g after id task time) (attended : Attended journal spared g) :
    ∀ first ∈ after.queue, ∀ second ∈ after.queue, ∀ timer, first.kind = .timerFire timer →
      second.kind = .timerFire timer → first = second := by
  have young {event : Keyed} (member : event ∈ g.queue)
      (fires : event.kind = .timerFire g.nextTimerId) : False :=
    lt_irrefl _ (attended.fires event member _ fires)
  intro first one second two armed kind kind'
  rcases (arms.queue first).mp one with rfl | one <;>
    rcases (arms.queue second).mp two with rfl | two
  · rfl
  · cases kind
    exact (young two kind').elim
  · cases kind'
    exact (young one kind).elim
  · exact attended.once first one second two armed kind kind'

/-- A poll that sets a new timer. -/
theorem attended_armed {g after : Inner State Value} (attended : Attended journal spared g)
    (polls : call.PollsSleep id) {task : TaskId} {node : NodeId} {deadline time : SimTime}
    {timer : Option TimerId} (sleeping : g.Sleeps id (some task) node deadline timer)
    (pending : call.reply = .pending) (current : call.before.currentTask = some task)
    (arms : Arms g after id task time) :
    Attended (journal ++ [call]) (fun other => spared other ∧ ¬call.PollsSleep other) after := by
  have older {other owner somewhere until_ armed}
      (found : g.Sleeps other owner somewhere until_ (some armed)) : armed ≠ g.nextTimerId :=
    (attended.issued other owner somewhere until_ armed found).ne
  have quiet {other : FutureId} (different : other ≠ id) : ¬call.PollsSleep other :=
    fun again => different (pollsSleep_only polls again)
  constructor
  case below =>
    intro other owner somewhere until_ armed found
    rw [arms.nextFuture]
    rcases arms.sleeps found with ⟨rfl, _⟩ | ⟨_, old⟩
    · exact attended.below other _ node deadline timer sleeping
    · exact attended.below other owner somewhere until_ armed old
  case issued =>
    intro other owner somewhere until_ armed found
    rw [arms.nextTimerId]
    rcases arms.sleeps found with ⟨_, _, named⟩ | ⟨_, old⟩
    · cases named
      exact Nat.lt_succ_self _
    · exact Nat.lt_succ_of_lt (attended.issued other owner somewhere until_ armed old)
  case fires =>
    intro event member armed kind
    rw [arms.nextTimerId]
    rcases (arms.queue event).mp member with rfl | old
    · cases kind
      exact Nat.lt_succ_self _
    · exact Nat.lt_succ_of_lt (attended.fires event old armed kind)
  case once => exact arms.once attended
  case apart =>
    intro left owner somewhere until_ right owner' somewhere' until' armed first second
    rcases arms.sleeps first with ⟨rfl, _, named⟩ | ⟨_, old⟩
    all_goals rcases arms.sleeps second with ⟨rfl, _, named'⟩ | ⟨_, old'⟩
    · rfl
    · cases named
      exact absurd rfl (older old')
    · cases named'
      exact absurd rfl (older old)
    · exact attended.apart left owner somewhere until_ right owner' somewhere' until' armed old old'
  case polled =>
    rw [arms.nextFuture]
    refine polled_append attended.polled ?_
    intro other again
    cases pollsSleep_only polls again
    exact attended.below id _ node deadline timer sleeping
  case unarmed =>
    intro other owner somewhere until_ latest found polled
    rcases arms.sleeps found with ⟨_, _, named⟩ | ⟨different, old⟩
    · cases named
    · rcases (latestPoll_append journal other call latest).mp polled with ⟨again, _⟩ | ⟨_, before⟩
      · exact absurd again (quiet different)
      · exact attended.unarmed other owner somewhere until_ latest old before
  case awake =>
    intro other owner somewhere until_ armed found
    rcases arms.sleeps found with ⟨rfl, rfl, named⟩ | ⟨different, old⟩
    · cases named
      refine ⟨by simp, task, polledBy_last polls pending current, ?_, ?_⟩
      · intro waiter armed
        rw [arms.timers, if_pos rfl] at armed
        exact ⟨(Option.some.inj armed).symm, _, (arms.queue _).mpr (Or.inl rfl), rfl⟩
      · intro fired
        rw [arms.timers, if_pos rfl] at fired
        cases fired
    · obtain ⟨owned, waiter, polled, attends⟩ :=
        attended.awake other owner somewhere until_ armed old
      have same : after.timers.get armed = g.timers.get armed := by
        rw [arms.timers, if_neg (older old)]
      have held := attends.mono same fun event member => (arms.queue event).mpr (Or.inr member)
      exact ⟨owned, waiter, polled.kept (quiet different), held.armed,
        fun fired => (held.fired fired).imp_left fun left => ⟨left, quiet different⟩⟩

variable {g : Inner State Value} {node : NodeId} {deadline : SimTime} {timer : Option TimerId}

theorem perform_pollSleep (sleeping : g.Sleeps id g.currentTask node deadline timer) :
    g.perform (.poll id) =
      g.pollSleep id ⟨g.currentTask, .sleep node deadline timer⟩ node deadline timer := by
  have present : g.futures.get id = some ⟨g.currentTask, .sleep node deadline timer⟩ := sleeping
  simp only [perform, present, if_true, pollLeaf]

/-- The sleep ends. -/
theorem attended_due (attended : Attended journal spared g)
    (polls : (⟨g, .poll id⟩ : Call State Value).PollsSleep id)
    (sleeping : g.Sleeps id g.currentTask node deadline timer)
    (due : deadline ≤ (g.localNow node).1) :
    Attended (journal ++ [⟨g, .poll id⟩])
      (fun other => spared other ∧ ¬(⟨g, .poll id⟩ : Call State Value).PollsSleep other)
      (g.perform (.poll id)).2 := by
  have gone : (g.perform (.poll id)).2 = (g.localNow node).2.release id := by
    have found : (g.localNow node).2.futures.get id = _ := sleeping
    simp only [perform_pollSleep sleeping, pollSleep, if_pos due, release, found]
    cases timer <;> rfl
  obtain ⟨timers, recvWaiters, slots, shape, _⟩ := release_shape (g.localNow node).2 id
  rw [gone]
  refine attended_noted (attended_release (attended_read attended node) id) _ ?_ ?_
  · intro other again
    cases pollsSleep_only polls again
    rw [shape]
    exact attended.below id _ node deadline timer sleeping
  · intro other owner somewhere until_ armed found again
    cases pollsSleep_only polls again
    rw [Sleeps, get_release, if_pos rfl] at found
    cases found

/-- The sleep's own timer is armed already. -/
theorem attended_waits {armed : TimerId} {waiter : TaskId} (attended : Attended journal spared g)
    (polls : (⟨g, .poll id⟩ : Call State Value).PollsSleep id)
    (sleeping : g.Sleeps id g.currentTask node deadline (some armed))
    (early : ¬deadline ≤ (g.localNow node).1) (waiting : g.timers.get armed = some waiter)
    (running : g.currentTask = some waiter) :
    Attended (journal ++ [⟨g, .poll id⟩])
      (fun other => spared other ∧ ¬(⟨g, .poll id⟩ : Call State Value).PollsSleep other)
      (g.perform (.poll id)).2 := by
  have kept : (some armed).filter (g.localNow node).2.timers.contains = some armed :=
    Option.filter_eq_some_iff.mpr ⟨rfl, Option.isSome_iff_exists.mpr ⟨waiter, waiting⟩⟩
  have polled : g.perform (.poll id) = (.pending, (g.localNow node).2) := by
    simp only [perform_pollSleep sleeping, pollSleep, if_neg early, kept]
  obtain ⟨_, task, _, attends⟩ := attended.awake id _ node deadline armed sleeping
  have shown : (g.localNow node).2.Sleeps id g.currentTask node deadline (some armed) := sleeping
  rw [polled]
  refine attended_again (attended_read attended node) polls shown (by simp) ?_
  rintro _ ⟨⟩
  refine ⟨congrArg Prod.fst polled, waiter, running, ?_, ?_⟩
  · intro again set
    cases waiting.symm.trans set
    exact ⟨rfl, (attends.armed waiter waiting).2⟩
  · intro fired
    cases fired.symm.trans waiting

/-- Outside any task no sleep is set: the poll changes nothing and panics. -/
theorem attended_outside (attended : Attended journal spared g)
    (polls : (⟨g, .poll id⟩ : Call State Value).PollsSleep id)
    (sleeping : g.Sleeps id g.currentTask node deadline timer)
    (early : ¬deadline ≤ (g.localNow node).1)
    (kept : timer.filter (g.localNow node).2.timers.contains = none)
    (current : g.currentTask = none) :
    Attended (journal ++ [⟨g, .poll id⟩])
      (fun other => spared other ∧ ¬(⟨g, .poll id⟩ : Call State Value).PollsSleep other)
      (g.perform (.poll id)).2 := by
  have unset : timer = none := by
    cases timer with
    | none => rfl
    | some armed =>
        exact absurd current (attended.awake id _ node deadline armed sleeping).1
  subst unset
  have polled : g.perform (.poll id) = (.panicked,
      (g.localNow node).2.setLeaf id ⟨none, .sleep node deadline none⟩
        (.sleep node deadline none)) := by
    have running : (g.localNow node).2.currentTask = none := current
    simp only [perform_pollSleep sleeping, pollSleep, if_neg early, kept, running, current]
  have reply : (⟨g, .poll id⟩ : Call State Value).reply = .panicked := congrArg Prod.fst polled
  have again : ((g.localNow node).2.setLeaf id ⟨none, .sleep node deadline none⟩
      (.sleep node deadline none)).Sleeps id none node deadline none :=
    SortedMap.get_insert_self _ _ _
  have clock := attended_read attended node
  rw [polled]
  refine attended_again (attended_fewer clock rfl rfl rfl rfl ?_) polls again ?_ (by simp)
  · intro other owner somewhere until_ armed found
    refine ⟨owner, ?_, fun same => same⟩
    rcases sleeps_setLeaf found with ⟨rfl, rfl, rfl, rfl, rfl⟩ | old
    · exact current ▸ sleeping
    · exact old
  · rw [reply]
    simp

theorem attended_poll (attended : Attended journal spared g)
    (polls : (⟨g, .poll id⟩ : Call State Value).PollsSleep id)
    (own : g.currentTask = none ∨ g.PollsOwn (.poll id)) :
    Attended (journal ++ [⟨g, .poll id⟩])
      (fun other => spared other ∧ ¬(⟨g, .poll id⟩ : Call State Value).PollsSleep other)
      (g.perform (.poll id)).2 := by
  obtain ⟨node, deadline, timer, sleeping⟩ := polls.2
  dsimp only at sleeping
  by_cases due : deadline ≤ (g.localNow node).1
  · exact attended_due attended polls sleeping due
  cases kept : timer.filter (g.localNow node).2.timers.contains with
  | some armed =>
      obtain ⟨rfl, contained⟩ := Option.filter_eq_some_iff.mp kept
      obtain ⟨waiter, waiting⟩ := Option.isSome_iff_exists.mp contained
      have owned := (attended.awake id _ node deadline armed sleeping).1
      have running := own.resolve_left owned id node deadline armed waiter rfl sleeping waiting
        (UInt64.not_le.mp due)
      exact attended_waits attended polls sleeping due waiting running
  | none =>
      cases current : g.currentTask with
      | none => exact attended_outside attended polls sleeping due kept current
      | some task =>
          have polled : g.perform (.poll id) = (.pending,
              ((g.localNow node).2.registerTimer task
                ((g.localNow node).2.globalFromLocalDeadline node deadline)).2.setLeaf id
                  ⟨some task, .sleep node deadline timer⟩
                  (.sleep node deadline (some g.nextTimerId))) := by
            have running : (g.localNow node).2.currentTask = some task := current
            simp only [perform_pollSleep sleeping, pollSleep, if_neg due, kept, running, current]
            rfl
          have pending : (⟨g, .poll id⟩ : Call State Value).reply = .pending :=
            congrArg Prod.fst polled
          have shown : (g.localNow node).2.Sleeps id (some task) node deadline timer :=
            current ▸ sleeping
          rw [polled]
          exact attended_armed (attended_read attended node) polls shown pending current
            (arms_registerTimer _ id task node deadline _ timer)

end Poll

/-! Steps. -/

theorem Attended.spare {g : Inner State Value} (attended : Attended journal spared g)
    {more : FutureId → Prop} (implies : ∀ id owner node deadline timer,
      g.Sleeps id owner node deadline (some timer) → spared id → more id) :
    Attended journal more g := by
  refine { attended with awake := ?_ }
  intro id owner node deadline timer sleeping
  obtain ⟨owned, task, polled, attends⟩ := attended.awake id owner node deadline timer sleeping
  refine ⟨owned, task, polled, attends.armed, ?_⟩
  exact fun fired =>
    (attends.fired fired).imp_left (implies id owner node deadline timer sleeping)

/-- A spared sleep stays so until it is polled. -/
theorem attended_keeps (journal : List (Call State Value)) (spared : FutureId → Prop) :
    Keeps ⟨fun _ _ _ => True, CrashTakes journal, fun g op => g.currentTask = none ∨ g.PollsOwn op⟩
      (fun made g => Attended (journal ++ made)
        (fun id => spared id ∧ ∀ call ∈ made, ¬call.PollsSleep id) g) where
  calm := attended_calm
  skewed _ _ _ attended :=
    attended_fewer attended rfl rfl rfl rfl fun _ owner _ _ _ sleeping =>
      ⟨owner, sleeping, fun same => same⟩
  crashed node takes attended := by
    refine attended_crash attended node ?_
    rwa [List.append_nil]
  discarded gone attended := attended_discard attended gone
  gave chosen task _ attended := attended_give attended chosen task
  released id attended := attended_release attended id
  call := by
    intro made g op lets attended
    have called : Attended ((journal ++ made) ++ [⟨g, op⟩])
        (fun id => (spared id ∧ ∀ call ∈ made, ¬call.PollsSleep id) ∧
          ¬(⟨g, op⟩ : Call State Value).PollsSleep id) (g.perform op).2 := by
      by_cases sleeps : ∃ id, (⟨g, op⟩ : Call State Value).PollsSleep id
      · obtain ⟨id, polls⟩ := sleeps
        obtain rfl : op = .poll id := polls.1
        exact attended_poll attended polls lets
      · have none_ := not_exists.mp sleeps
        exact attended_noted (attended_other attended op none_) _
          (fun id polls => absurd polls (none_ id)) fun id _ _ _ _ _ => none_ id
    rw [List.append_assoc] at called
    refine called.spare ?_
    rintro id _ _ _ _ _ ⟨⟨held, before⟩, quiet⟩
    refine ⟨held, ?_⟩
    intro call member
    rcases List.mem_append.mp member with old | new
    · exact before call old
    · exact List.mem_singleton.mp new ▸ quiet

def noneSpared : FutureId → Prop := fun _ => False

theorem attended_start (seed : UInt64) (config : WorldConfig) (tape : EntropyTape) :
    Attended [] noneSpared (fromTape seed config tape : Inner State Value) := by
  have none_ {id owner node deadline timer}
      (sleeping : (fromTape seed config tape : Inner State Value).Sleeps id owner node deadline
        timer) : False := by cases sleeping
  have empty {event : Keyed}
      (member : event ∈ (fromTape seed config tape : Inner State Value).queue) : False := by
    rw [KeyedQueue.mem_def] at member
    cases member
  exact {
    below := fun _ _ _ _ _ sleeping => (none_ sleeping).elim
    issued := fun _ _ _ _ _ sleeping => (none_ sleeping).elim
    fires := fun _ member => (empty member).elim
    once := fun _ member => (empty member).elim
    apart := fun _ _ _ _ _ _ _ _ _ sleeping => (none_ sleeping).elim
    polled := fun _ member => absurd member List.not_mem_nil
    unarmed := fun _ _ _ _ _ sleeping => (none_ sleeping).elim
    awake := fun _ _ _ _ _ sleeping => (none_ sleeping).elim }

theorem attended_operate (nextAction : NextAction Plan) {g : Inner State Value}
    (attended : Attended journal noneSpared g) (idle : g.currentTask = none)
    (op : WorldOp State Value Plan)
    (takes : ∀ node, op = .crashNode node → CrashTakes journal g node) :
    Attended (journal ++ g.operateCalls op) noneSpared (g.operate nextAction op).2 := by
  have begun : Attended (journal ++ [])
      (fun id => noneSpared id ∧
        ∀ call ∈ ([] : List (Call State Value)), ¬call.PollsSleep id) g := by
    rw [List.append_nil]
    exact attended.spare fun _ _ _ _ _ _ never => never.elim
  have done := operate_keeps (attended_keeps journal noneSpared) nextAction idle op
    (fun _ _ _ => trivial) takes
    (fun call member => Or.inl ((operateCalls_current g op call member).trans idle)) begun
  exact done.spare fun _ _ _ _ _ _ never => never.1.elim

/-- Once the event is popped, only what hangs on it is not attended to. -/
theorem attends_popped {g after : Inner State Value} {event : Keyed}
    (popped : g.queue.pop = some (event, after.queue)) {id : FutureId} {owner : Option TaskId}
    {node : NodeId} {deadline : SimTime} {timer : TimerId} {task : TaskId} {spared : Prop}
    (sleeping : g.Sleeps id owner node deadline (some timer)) (polled : PolledBy journal id task)
    (attends : g.Attends timer task spared)
    (kept : ∀ waiter, after.timers.get timer = some waiter →
      event.kind ≠ .timerFire timer ∧ g.timers.get timer = some waiter)
    (fired : after.timers.get timer = none →
      g.timers.get timer = none ∨ event.kind = .timerFire timer) :
    after.Attends timer task (spared ∨ HangsOn journal g event id task) := by
  have left {other : Keyed} (member : other ∈ g.queue) (different : other ≠ event) :
      other ∈ after.queue :=
    ((KeyedQueue.mem_of_pop popped other).mp member).resolve_left different
  constructor
  · intro waiter armed
    obtain ⟨other, before⟩ := kept waiter armed
    obtain ⟨same, fire, member, kind⟩ := attends.armed waiter before
    exact ⟨same, fire, left member fun popped => other (popped ▸ kind), kind⟩
  · intro gone
    cases before : g.timers.get timer with
    | some waiter =>
        obtain ⟨rfl, _⟩ := attends.armed waiter before
        have fires := (fired gone).resolve_left (by simp [before])
        exact Or.inl (Or.inr ⟨polled, owner, node, deadline, timer, sleeping,
          Or.inl ⟨fires, before⟩⟩)
    | none =>
        rcases attends.fired before with held | ⟨wake, member, kind⟩
        · exact Or.inl (Or.inl held)
        · by_cases other : ∃ other ∈ g.queue, other.kind = .pollTask task ∧ other ≠ event
          · obtain ⟨other, queued, polls, different⟩ := other
            exact Or.inr ⟨other, left queued different, polls⟩
          · have only : ∀ other ∈ g.queue, other.kind = .pollTask task → other = event := by
              intro other_ queued polls
              by_contra different
              exact other ⟨other_, queued, polls, different⟩
            obtain rfl := only wake member kind
            exact Or.inl (Or.inr ⟨polled, owner, node, deadline, timer, sleeping,
              Or.inr ⟨kind, before, only⟩⟩)

theorem attended_popped {g after : Inner State Value} {event : Keyed}
    (attended : Attended journal noneSpared g) (popped : g.queue.pop = some (event, after.queue))
    (nextFuture : after.nextFuture = g.nextFuture) (nextTimerId : after.nextTimerId = g.nextTimerId)
    (futures : after.futures = g.futures)
    (timers : ∀ id owner node deadline timer, g.Sleeps id owner node deadline (some timer) →
      (∀ waiter, after.timers.get timer = some waiter →
        event.kind ≠ .timerFire timer ∧ g.timers.get timer = some waiter) ∧
      (after.timers.get timer = none →
        g.timers.get timer = none ∨ event.kind = .timerFire timer)) :
    Attended journal (fun id => ∃ task, HangsOn journal g event id task) after := by
  have still {id owner node deadline timer}
      (sleeping : after.Sleeps id owner node deadline timer) :
      g.Sleeps id owner node deadline timer := by
    rwa [Sleeps, futures] at sleeping
  have begun : Attended journal (fun id => ∃ task, HangsOn journal g event id task) g :=
    attended.spare fun _ _ _ _ _ _ never => never.elim
  refine begun.frame nextFuture.ge nextTimerId.ge ?_ ?_ ?_
  · exact fun other member _ _ => (KeyedQueue.mem_of_pop popped other).mpr (Or.inr member)
  · exact fun id owner _ _ _ sleeping => ⟨owner, still sleeping, fun same => same⟩
  · intro id owner node deadline timer task sleeping polled attends
    obtain ⟨kept, fired⟩ := timers id owner node deadline timer (still sleeping)
    have after_ := attends_popped popped (still sleeping) polled attends kept fired
    refine ⟨after_.armed, fun gone => (after_.fired gone).imp_left ?_⟩
    rintro (held | hangs)
    · exact held
    · exact ⟨task, hangs⟩

theorem attended_popTurn {g : Inner State Value} {event : Keyed} {queue : EventQueue}
    (attended : Attended journal noneSpared g) (popped : g.queue.pop = some (event, queue)) :
    Attended journal (fun id => ∃ task, HangsOn journal g event id task)
      (g.popTurn event queue) := by
  refine attended_popped attended popped rfl rfl rfl ?_
  intro id owner node deadline timer _
  refine ⟨fun waiter => popTurn_timers g event queue, ?_⟩
  intro gone
  unfold popTurn at gone
  cases kind : event.kind with
  | timerFire fired =>
      simp only [kind, SortedMap.get_remove] at gone
      split_ifs at gone with same
      · exact Or.inr (same ▸ rfl)
      · exact Or.inl gone
  | pollTask | deliverMsg | nemesis =>
      simp only [kind] at gone
      exact Or.inl gone

/-- Each sleep that was spared wakes its task all the same. -/
theorem Attended.settled {g : Inner State Value} (attended : Attended journal spared g)
    (wakes : ∀ id owner node deadline timer task, g.Sleeps id owner node deadline (some timer) →
      PolledBy journal id task → spared id → g.Woken task) : Attended journal noneSpared g := by
  refine { attended with awake := ?_ }
  intro id owner node deadline timer sleeping
  obtain ⟨owned, task, polled, attends⟩ := attended.awake id owner node deadline timer sleeping
  refine ⟨owned, task, polled, attends.armed, fun fired => Or.inr ?_⟩
  rcases attends.fired fired with held | woken
  · exact wakes id owner node deadline timer task sleeping polled held
  · exact woken

theorem timerFire_calls {program : Program State Value} {g next : Inner State Value}
    {event : Keyed} (turned : turn program g = .next event next) {timer : TimerId}
    (fires : event.kind = .timerFire timer) : turnCalls program g = [] := by
  obtain ⟨queue, popped, within, _⟩ := next_shape program g next event turned
  simp only [turnCalls, popped, within, Bool.false_eq_true, if_false, dispatchCalls, fires]

theorem timerFire_wakes {program : Program State Value} {g next : Inner State Value}
    {event : Keyed} (turned : turn program g = .next event next) {timer : TimerId} {task : TaskId}
    (fires : event.kind = .timerFire timer) (set : g.timers.get timer = some task) :
    next.Woken task := by
  obtain ⟨queue, _, _, rfl⟩ := next_shape program g next event turned
  simp only [dispatch, fires, fireTimer, set]
  exact ⟨_, (KeyedQueue.mem_push _ _ _).mpr (Or.inl rfl), rfl⟩

theorem attended_turn {program : Program State Value} {g next : Inner State Value} {event : Keyed}
    (attended : Attended journal noneSpared g) (idle : g.currentTask = none)
    (turned : turn program g = .next event next) (polls : TurnPolls program journal g event) :
    Attended (journal ++ turnCalls program g) noneSpared next := by
  obtain ⟨queue, popped, _, kept⟩ := turn_keeps
    (attended_keeps journal fun id => ∃ task, HangsOn journal g event id task) turned idle
  have begun : Attended (journal ++ []) (fun id => (∃ task, HangsOn journal g event id task) ∧
      ∀ call ∈ ([] : List (Call State Value)), ¬call.PollsSleep id) (g.popTurn event queue) := by
    rw [List.append_nil]
    exact (attended_popTurn attended popped).spare fun _ _ _ _ _ _ hangs =>
      ⟨hangs, fun _ member => absurd member List.not_mem_nil⟩
  have done := kept (fun _ _ _ => trivial) (fun node kind => polls.crashes node kind)
    (fun call member => Or.inr (polls.own call member)) begun
  refine done.settled ?_
  rintro id _ _ _ _ task sleeping polled ⟨⟨waiting, hangs⟩, quiet⟩
  obtain ⟨_, _, _, _, _, ⟨fires, set⟩ | ⟨wakes, _⟩⟩ := hangs.2
  · have none_ : turnCalls program g = [] := timerFire_calls turned fires
    rw [none_, List.append_nil] at polled
    obtain rfl := polledBy_unique polled hangs.1
    exact timerFire_wakes turned fires set
  · rcases polls.again id waiting wakes hangs with ⟨call, member, again⟩ | gone
    · exact absurd again (quiet call member)
    · rw [Sleeps, gone next turned] at sleeping
      cases sleeping

theorem attended_abort {program : Program State Value} {g next : Inner State Value}
    {event : Keyed} (attended : Attended journal noneSpared g)
    (aborted : turn program g = .abort event next)
    (calm : ∀ id task, ¬HangsOn journal g event id task) :
    Attended journal noneSpared next := by
  obtain ⟨queue, popped, _, rfl⟩ := abort_shape program g next event aborted
  have spent (after : Inner State Value) (same : after.queue = queue)
      (nextFuture : after.nextFuture = g.nextFuture)
      (nextTimerId : after.nextTimerId = g.nextTimerId) (futures : after.futures = g.futures)
      (timers : after.timers = g.timers) : Attended journal noneSpared after := by
    subst same
    refine (attended_popped attended popped nextFuture nextTimerId futures ?_).spare ?_
    · intro id owner node deadline timer sleeping
      rw [timers]
      refine ⟨fun waiter armed => ⟨fun fires => ?_, armed⟩, Or.inl⟩
      obtain ⟨_, task, polled, attends⟩ := attended.awake id owner node deadline timer sleeping
      obtain ⟨rfl, _⟩ := attends.armed waiter armed
      exact calm id waiter ⟨polled, owner, node, deadline, timer, sleeping, Or.inl ⟨fires, armed⟩⟩
    · rintro id _ _ _ _ _ ⟨task, hangs⟩
      exact calm id task hangs
  split_ifs
  · exact spent _ rfl rfl rfl rfl rfl
  · exact spent _ rfl rfl rfl rfl rfl

theorem reachable_attended {program : Program State Value} {nextAction : NextAction Plan}
    {g : Inner State Value}
    (under : JournaledUnder program nextAction (keepsPollers program) journal g) :
    Attended journal noneSpared g := by
  induction under with
  | generate seed config => exact attended_start seed config _
  | replay seed tape config => exact attended_start seed config _
  | @operate _ g op allowed before ih =>
      have idle := (reachable_settled program nextAction g before.journaled.reachable).idle
      exact attended_operate nextAction ih idle op allowed
  | @turn _ g _ _ allowed before turned ih =>
      have idle := (reachable_settled program nextAction g before.journaled.reachable).idle
      exact attended_turn ih idle turned allowed
  | abort allowed _ aborted ih => exact attended_abort ih aborted allowed

/-- In every run whose steps keep to the condition, after each of them. -/
theorem sleeps_wake_pollers (program : Program State Value) (nextAction : NextAction Plan)
    (journal : List (Call State Value)) (g : Inner State Value)
    (under : JournaledUnder program nextAction (keepsPollers program) journal g) :
    WakesPollers journal g := by
  have attended := reachable_attended under
  have numbered := reachable_numbered program nextAction g under.journaled.reachable
  intro id owner node deadline timer call sleeping latest pending
  cases timer with
  | none => exact absurd pending (attended.unarmed id owner node deadline call sleeping latest)
  | some timer =>
      obtain ⟨_, task, ⟨last, polled, _, current⟩, attends⟩ :=
        attended.awake id owner node deadline timer sleeping
      obtain rfl := latestPoll_unique latest polled
      refine ⟨task, current, ?_⟩
      cases set : g.timers.get timer with
      | none => exact Or.inr ((attends.fired set).resolve_left fun never => never)
      | some waiter =>
          obtain ⟨rfl, fire, member, kind⟩ := attends.armed waiter set
          refine Or.inl ⟨timer, rfl, set, fire, ?_⟩
          refine numbered_only numbered _ member (decide_eq_true kind) ?_
          intro other queued fires
          exact attended.once other queued fire member timer (of_decide_eq_true fires) kind

/-- The timer has fired, and its event has queued a poll of the task. -/
theorem sleeper_woken :
    WakesPollers (advanceCalls (sleeper 10000000) 2 handOffWorld)
      (advance (sleeper 10000000) 2 handOffWorld) := by
  refine sleeps_wake_pollers (sleeper 10000000) noPlans _ _ ?_
  have made : JournaledUnder (sleeper 10000000) noPlans (keepsPollers (sleeper 10000000)) []
      handOffWorld := by
    refine JournaledUnder.operate (.addNode 0 fun _ => .done none) ?_
      (JournaledUnder.replay 0 [] {})
    rintro _ ⟨⟩
  have polled : turn (sleeper 10000000) handOffWorld = .next ⟨0, 0, .pollTask 0⟩
    (advance (sleeper 10000000) 1 handOffWorld) := rfl
  have fired : turn (sleeper 10000000) (advance (sleeper 10000000) 1 handOffWorld) =
    .next ⟨10000000, 1, .timerFire 0⟩ (advance (sleeper 10000000) 2 handOffWorld) := rfl
  have arms : TurnPolls (sleeper 10000000) [] handOffWorld ⟨0, 0, .pollTask 0⟩ := by
    refine ⟨?_, ?_, nofun⟩
    · intro call member id node deadline timer waiter _ _ armed
      have none_ : ∀ call ∈ turnCalls (sleeper 10000000) handOffWorld,
        call.before.timers.entries = [] := by decide +kernel
      rw [SortedMap.get_eq_some, none_ call member] at armed
      exact absurd armed List.not_mem_nil
    · rintro id task _ ⟨⟨call, latest, _⟩, _⟩
      exact absurd (latestPoll_mem latest).1 List.not_mem_nil
  have fires : TurnPolls (sleeper 10000000) (turnCalls (sleeper 10000000) handOffWorld)
      (advance (sleeper 10000000) 1 handOffWorld) ⟨10000000, 1, .timerFire 0⟩ :=
    ⟨fun _ member => absurd member List.not_mem_nil, nofun, nofun⟩
  have first : JournaledUnder (sleeper 10000000) noPlans (keepsPollers (sleeper 10000000))
      (turnCalls (sleeper 10000000) handOffWorld) (advance (sleeper 10000000) 1 handOffWorld) :=
    JournaledUnder.turn arms made polled
  exact JournaledUnder.turn fires first fired

-- The main task arms the sleep, the child polls it next, and the timer wakes the main task,
-- which has ended. Nothing is queued then, and the child still waits.
theorem handOff_forgets_poller :
    Journaled handOff noPlans (advanceCalls handOff 2 handOffWorld)
        (advance handOff 2 handOffWorld) ∧
      ¬WakesPollers (advanceCalls handOff 2 handOffWorld) (advance handOff 2 handOffWorld) ∧
      turn handOff (advance handOff 4 handOffWorld) = .quiesce ∧
      (advance handOff 4 handOffWorld).tasks.contains 1 = true := by
  have made : Journaled handOff noPlans [] handOffWorld :=
    Journaled.operate (.addNode 0 fun _ => .done none) (Journaled.replay 0 [] {})
  refine ⟨journaled_advance 2 made, ?_, rfl, by decide +kernel⟩
  intro wakes
  obtain ⟨child, whole, polls, running, pending, sleeping⟩ : ∃ child : Call (Option FutureId) Unit,
      advanceCalls handOff 2 handOffWorld = turnCalls handOff handOffWorld ++ [child] ∧
        child.op = .poll 0 ∧ child.before.currentTask = some 1 ∧ child.reply = .pending ∧
        child.before.Sleeps 0 (some 1) 0 5000000 (some 0) := by
    refine ⟨⟨_, .poll 0⟩, rfl, rfl, rfl, rfl, ?_⟩
    rw [Sleeps]
    decide +kernel
  have latest : LatestPoll (advanceCalls handOff 2 handOffWorld) 0 child := by
    refine ⟨_, [], whole, ⟨polls, 0, 5000000, some 0, ?_⟩, fun _ member => ?_⟩
    · rwa [running]
    · exact absurd member List.not_mem_nil
  have waits : (advance handOff 2 handOffWorld).Sleeps 0 (some 1) 0 5000000 (some 0) := by
    rw [Sleeps]
    decide +kernel
  obtain ⟨task, current, ⟨armed, named, set, _⟩ | ⟨event, queued, kind⟩⟩ :=
    wakes 0 (some 1) 0 5000000 (some 0) child waits latest pending
  · cases named
    cases running.symm.trans current
    cases set
  · have queue : (advance handOff 2 handOffWorld).queue.entries = [⟨5000000, 1, .timerFire 0⟩] := by
      decide +kernel
    rw [KeyedQueue.mem_def, queue, List.mem_singleton] at queued
    subst queued
    cases kind

end Inner

end Detersim
