import Detersim.ClockRuns
import Detersim.CrashIsolation

/-!
Local time. A node's clock may be set off by any amount at any moment; what its
programs read from it never goes back, and no sleep ends before its deadline on
that clock.
-/

namespace Detersim

variable {State Value : Type}

def Call.reply (call : Call State Value) : Reply Value := (call.before.perform call.op).1

/-- The call reads `time` from the clock of `node`. -/
def Call.Reads (call : Call State Value) (node : NodeId) (time : SimTime) : Prop :=
  call.op = .now node ∧ call.reply = .time time

/-- The call makes the sleep `id`, until `deadline` on the clock of `node`. -/
def Call.Makes (call : Call State Value) (id : FutureId) (node : NodeId) (deadline : SimTime) :
    Prop :=
  call.op = .sleepUntil node deadline ∧ call.reply = .future id

/-- The call polls `id` and finds it complete. -/
def Call.Completes (call : Call State Value) (id : FutureId) : Prop :=
  call.op = .poll id ∧ call.reply = .ready

/-- The sleep `id` was made, and for nothing but this deadline. -/
def Made (journal : List (Call State Value)) (id : FutureId) (node : NodeId) (deadline : SimTime) :
    Prop :=
  (∃ call ∈ journal, call.Makes id node deadline) ∧
    ∀ call ∈ journal, ∀ other time, call.Makes id other time → other = node ∧ time = deadline

namespace Inner

variable {Plan : Type}

/-- The calls made in the history of a world, in order, and its state after them. -/
inductive Journaled (program : Program State Value) (nextAction : NextAction Plan) :
    List (Call State Value) → Inner State Value → Prop where
  | generate (seed config) : Journaled program nextAction [] (generate seed config)
  | replay (seed tape config) : Journaled program nextAction [] (replay seed tape config)
  | operate {journal g} (op : WorldOp State Value Plan) : Journaled program nextAction journal g →
      Journaled program nextAction (journal ++ g.operateCalls op) (g.operate nextAction op).2
  | turn {journal g event next} : Journaled program nextAction journal g →
      turn program g = .next event next →
      Journaled program nextAction (journal ++ turnCalls program g) next
  | abort {journal g event next} : Journaled program nextAction journal g →
      turn program g = .abort event next → Journaled program nextAction journal next

theorem Journaled.reachable {program : Program State Value} {nextAction : NextAction Plan}
    {journal : List (Call State Value)} {g : Inner State Value}
    (journaled : Journaled program nextAction journal g) : Reachable program nextAction g := by
  induction journaled with
  | generate seed config => exact Reachable.generate seed config
  | replay seed tape config => exact Reachable.replay seed tape config
  | operate op _ ih => exact Reachable.operate op ih
  | turn _ turned ih => exact Reachable.turn ih turned
  | abort _ aborted ih => exact Reachable.abort ih aborted

/-! Clocks only go on, and a sleep is what it was made. -/

structure Onward (g after : Inner State Value) : Prop where
  readings : ∀ node, g.lastReading node ≤ after.lastReading node
  nextFuture : g.nextFuture ≤ after.nextFuture
  sleeps : ∀ id owner node deadline timer, after.Sleeps id owner node deadline timer →
    ∃ owner timer, g.Sleeps id owner node deadline timer

theorem Onward.refl (g : Inner State Value) : Onward g g :=
  ⟨fun _ => UInt64.le_refl _, le_rfl, fun _ owner _ _ timer sleeping => ⟨owner, timer, sleeping⟩⟩

theorem Onward.trans {first second third : Inner State Value} (left : Onward first second)
    (right : Onward second third) : Onward first third := by
  refine ⟨fun node => UInt64.le_trans (left.readings node) (right.readings node),
    left.nextFuture.trans right.nextFuture, ?_⟩
  intro id owner node deadline timer sleeping
  obtain ⟨owner, timer, sleeping⟩ := right.sleeps id owner node deadline timer sleeping
  exact left.sleeps id owner node deadline timer sleeping

theorem Onward.ofFutures {g after : Inner State Value}
    (readings : after.lastLocalNow = g.lastLocalNow) (nextFuture : after.nextFuture = g.nextFuture)
    (sleeps : ∀ id owner node deadline timer, after.Sleeps id owner node deadline timer →
      ∃ owner timer, g.Sleeps id owner node deadline timer) : Onward g after :=
  ⟨fun node => by rw [lastReading, lastReading, readings]; exact UInt64.le_refl _,
    nextFuture.ge, sleeps⟩

theorem onward_setLeaf {g : Inner State Value} {id : FutureId} {held : Held} {node : NodeId}
    {deadline : SimTime} {timer : Option TimerId} (present : g.futures.get id = some held)
    (leaf : held.leaf = .sleep node deadline timer) (armed : Option TimerId) :
    Onward g (g.setLeaf id held (.sleep node deadline armed)) := by
  refine Onward.ofFutures rfl rfl ?_
  intro other owner somewhere until_ waiting sleeping
  rcases sleeps_setLeaf sleeping with ⟨rfl, _, rfl, rfl, _⟩ | old
  · refine ⟨held.owner, timer, ?_⟩
    rw [Sleeps, present, ← leaf]
  · exact ⟨owner, waiting, old⟩

theorem onward_step {rules : ClockRules State Value} {g after : Inner State Value}
    (step : ClockStep rules g after) : Onward g after := by
  have discarded (gone : TaskId → Bool) : Onward g (g.discard gone) := by
    refine Onward.ofFutures rfl rfl ?_
    exact fun id owner node deadline timer sleeping => ⟨owner, timer, (sleeps_discard sleeping).1⟩
  cases step with
  | calm calm =>
      refine ⟨?_, calm.nextFuture, ?_⟩
      · intro node
        rw [lastReading, lastReading, calm.readings]
        exact UInt64.le_refl _
      · intro id owner node deadline timer sleeping
        exact ⟨owner, timer, (calm.sleeps id owner node deadline timer).mp sleeping⟩
  | skewed =>
      exact Onward.ofFutures rfl rfl fun _ owner _ _ timer sleeping => ⟨owner, timer, sleeping⟩
  | crashed node =>
      unfold crashNode
      split_ifs
      · exact Onward.ofFutures rfl rfl (discarded (g.livesOn node)).sleeps
      · exact Onward.refl g
  | discarded gone => exact discarded gone
  | gave chosen task =>
      refine Onward.ofFutures rfl rfl ?_
      intro id owner node deadline timer sleeping
      obtain ⟨before, found, _⟩ := sleeps_give sleeping
      exact ⟨before, timer, found⟩
  | released id =>
      obtain ⟨timers, recvWaiters, slots, shape, _⟩ := release_shape g id
      rw [shape]
      refine Onward.ofFutures rfl rfl ?_
      intro other owner node deadline timer sleeping
      simp only [Sleeps, SortedMap.get_remove] at sleeping
      split_ifs at sleeping
      exact ⟨owner, timer, sleeping⟩
  | read node =>
      refine ⟨?_, le_rfl, fun _ owner _ _ timer sleeping => ⟨owner, timer, sleeping⟩⟩
      intro other
      rw [lastReading_localNow]
      split_ifs with same
      · exact same ▸ lastReading_le_localNow g node
      · exact UInt64.le_refl _
  | unarmed id held node deadline timer present leaf => exact onward_setLeaf present leaf none
  | armed id held node deadline timer task present leaf =>
      have set := onward_setLeaf
        (g := (g.registerTimer task (g.globalFromLocalDeadline node deadline)).2) present leaf
        (some g.nextTimerId)
      exact ⟨set.readings, set.nextFuture, set.sleeps⟩

theorem onward_steps {rules : ClockRules State Value} {g after : Inner State Value}
    (steps : ClockSteps rules g after) : Onward g after := by
  induction steps with
  | refl => exact Onward.refl g
  | tail _ step ih => exact ih.trans (onward_step step)

/-! What the calls made so far have to do with the state after them. -/

structure Told (journal : List (Call State Value)) (g : Inner State Value) : Prop where
  shown : ∀ call ∈ journal, ∀ node time, call.Reads node time → time ≤ g.lastReading node
  numbered : ∀ call ∈ journal, ∀ id node deadline, call.Makes id node deadline → id < g.nextFuture
  sleeps : ∀ id owner node deadline timer, g.Sleeps id owner node deadline timer →
    Made journal id node deadline
  ordered : journal.Pairwise fun earlier later => ∀ node first second,
    earlier.Reads node first → later.Reads node second → first ≤ second
  completed : ∀ call ∈ journal, ∀ id, call.Completes id → ∃ node deadline,
    Made journal id node deadline ∧ deadline ≤ (call.before.localNow node).1

theorem Told.onward {journal : List (Call State Value)} {g after : Inner State Value}
    (told : Told journal g) (onward : Onward g after) : Told journal after where
  shown := fun call member node time reads =>
    UInt64.le_trans (told.shown call member node time reads) (onward.readings node)
  numbered := fun call member id node deadline makes =>
    (told.numbered call member id node deadline makes).trans_le onward.nextFuture
  sleeps := by
    intro id owner node deadline timer sleeping
    obtain ⟨owner, timer, sleeping⟩ := onward.sleeps id owner node deadline timer sleeping
    exact told.sleeps id owner node deadline timer sleeping
  ordered := told.ordered
  completed := told.completed

theorem Told.fresh {journal : List (Call State Value)} {g : Inner State Value}
    (told : Told journal g) (owner : Option TaskId) (node : NodeId) (deadline : SimTime)
    (timer : Option TimerId) : ¬g.Sleeps g.nextFuture owner node deadline timer := by
  intro sleeping
  obtain ⟨⟨call, member, makes⟩, _⟩ := told.sleeps _ owner node deadline timer sleeping
  exact lt_irrefl _ (told.numbered call member _ node deadline makes)

/-- Rules that ask nothing. -/
def anyClocks : ClockRules State Value := ⟨fun _ _ _ => True, fun _ _ => True, True⟩

theorem makes_next {g : Inner State Value} {op : Op State} {id : FutureId} {node : NodeId}
    {deadline : SimTime} (makes : Call.Makes ⟨g, op⟩ id node deadline) : id = g.nextFuture := by
  obtain ⟨asked, named⟩ := makes
  dsimp only at asked
  subst asked
  cases named
  rfl

theorem Told.made {journal : List (Call State Value)} {g : Inner State Value}
    (told : Told journal g) (op : Op State) {id : FutureId} {node : NodeId} {deadline : SimTime}
    (made : Made journal id node deadline) : Made (journal ++ [⟨g, op⟩]) id node deadline := by
  obtain ⟨⟨call, member, makes⟩, only⟩ := made
  refine ⟨⟨call, List.mem_append_left _ member, makes⟩, ?_⟩
  intro later found other time makesToo
  rcases List.mem_append.mp found with old | new
  · exact only later old other time makesToo
  · cases List.mem_singleton.mp new
    have below := told.numbered call member id node deadline makes
    exact absurd (makes_next makesToo) below.ne

/-- A call brings at most the sleep it makes. -/
theorem Told.perform {journal : List (Call State Value)} {g : Inner State Value}
    (told : Told journal g) (op : Op State) :
    (∀ node, g.lastReading node ≤ (g.perform op).2.lastReading node) ∧
      (∀ id owner node deadline timer, (g.perform op).2.Sleeps id owner node deadline timer →
        Made (journal ++ [⟨g, op⟩]) id node deadline) ∧
      g.nextFuture ≤ (g.perform op).2.nextFuture ∧
      ∀ id node deadline, Call.Makes ⟨g, op⟩ id node deadline →
        id < (g.perform op).2.nextFuture := by
  have known (id owner node deadline timer) (sleeping : g.Sleeps id owner node deadline timer) :
      Made (journal ++ [⟨g, op⟩]) id node deadline :=
    told.made op (told.sleeps id owner node deadline timer sleeping)
  by_cases making : ∃ env deadline, op = .sleepUntil env deadline
  · obtain ⟨env, deadline, rfl⟩ := making
    refine ⟨fun _ => UInt64.le_refl _, ?_, Nat.le_succ _, ?_⟩
    · intro id owner node until_ timer sleeping
      rcases sleeps_made sleeping with ⟨rfl, rfl, rfl, _⟩ | old
      · refine ⟨⟨_, List.mem_append_right _ List.mem_cons_self, rfl, rfl⟩, ?_⟩
        intro call member other time makes
        rcases List.mem_append.mp member with old | new
        · exact absurd (told.numbered call old _ other time makes) (lt_irrefl _)
        · cases List.mem_singleton.mp new
          obtain ⟨asked, _⟩ := makes
          cases asked
          exact ⟨rfl, rfl⟩
      · exact known id owner node until_ timer old
    · intro id node until_ makes
      exact (makes_next makes).trans_lt (Nat.lt_succ_self _)
  · have steps : ClockSteps anyClocks g (g.perform op).2 :=
      perform_steps g op told.fresh (fun _ _ _ _ => Or.inl trivial)
        fun env deadline same => making ⟨env, deadline, same⟩
    have onward := onward_steps steps
    refine ⟨onward.readings, ?_, onward.nextFuture, ?_⟩
    · intro id owner node deadline timer sleeping
      obtain ⟨owner, timer, sleeping⟩ := onward.sleeps id owner node deadline timer sleeping
      exact known id owner node deadline timer sleeping
    · exact fun id node deadline makes => absurd ⟨node, deadline, makes.1⟩ making

theorem Told.call {journal : List (Call State Value)} {g : Inner State Value}
    (told : Told journal g) (op : Op State) : Told (journal ++ [⟨g, op⟩]) (g.perform op).2 := by
  obtain ⟨readings, sleeps, nextFuture, makes⟩ := told.perform op
  -- What the call reads lies between the last reading before it and the last one after it.
  have between {node time} (reads : Call.Reads ⟨g, op⟩ node time) :
      g.lastReading node ≤ time ∧ time ≤ (g.perform op).2.lastReading node := by
    obtain ⟨asked, shown⟩ := reads
    dsimp only at asked
    subst asked
    cases shown
    refine ⟨lastReading_le_localNow g node, ?_⟩
    have last := lastReading_localNow g node node
    rw [if_pos rfl] at last
    exact last ▸ UInt64.le_refl _
  constructor
  case sleeps => exact sleeps
  case shown =>
    intro call member node time reads
    rcases List.mem_append.mp member with old | new
    · exact UInt64.le_trans (told.shown call old node time reads) (readings node)
    · cases List.mem_singleton.mp new
      exact (between reads).2
  case numbered =>
    intro call member id node deadline makesIt
    rcases List.mem_append.mp member with old | new
    · exact (told.numbered call old id node deadline makesIt).trans_le nextFuture
    · cases List.mem_singleton.mp new
      exact makes id node deadline makesIt
  case ordered =>
    refine List.pairwise_append.mpr ⟨told.ordered, List.pairwise_singleton _ _, ?_⟩
    intro earlier member later found node first second readsFirst readsSecond
    cases List.mem_singleton.mp found
    exact UInt64.le_trans (told.shown earlier member node first readsFirst) (between readsSecond).1
  case completed =>
    intro call member id completes
    rcases List.mem_append.mp member with old | new
    · obtain ⟨node, deadline, made, due⟩ := told.completed call old id completes
      exact ⟨node, deadline, told.made op made, due⟩
    · cases List.mem_singleton.mp new
      obtain ⟨asked, ready⟩ := completes
      dsimp only at asked
      subst asked
      obtain ⟨node, deadline, timer, sleeping, due⟩ := (poll_ready_iff g id).mp ready
      exact ⟨node, deadline, told.made _ (told.sleeps id _ node deadline timer sleeping), due⟩

theorem Told.runs {journal calls : List (Call State Value)} {g after : Inner State Value}
    {rules : ClockRules State Value} (told : Told journal g)
    (runs : ClockRuns rules g calls after) :
    Told (journal ++ calls) after :=
  runs_keep Told (fun _ _ _ step told => told.onward (onward_step step))
    (fun _ _ op _ told => told.call op) journal runs told

theorem onward_popTurn (g : Inner State Value) (event : Keyed) (queue : EventQueue) :
    Onward g (g.popTurn event queue) :=
  Onward.ofFutures rfl rfl fun _ owner _ _ timer sleeping => ⟨owner, timer, sleeping⟩

theorem journaled_told {program : Program State Value} {nextAction : NextAction Plan}
    {journal : List (Call State Value)} {g : Inner State Value}
    (journaled : Journaled program nextAction journal g) : Told journal g := by
  induction journaled with
  | generate | replay =>
      refine ⟨by simp, by simp, ?_, List.Pairwise.nil, by simp⟩
      intro id owner node deadline timer sleeping
      cases sleeping
  | operate op before ih =>
      have idle := (reachable_settled program nextAction _ before.reachable).idle
      have runs : ClockRuns anyClocks _ _ _ := operate_runs nextAction idle op
        ⟨fun _ _ _ => trivial, fun _ _ => trivial, fun _ _ _ _ _ _ => Or.inl trivial⟩
      exact ih.runs runs
  | @turn journal g event next before turned ih =>
      have idle := (reachable_settled program nextAction _ before.reachable).idle
      obtain ⟨queue, _, _, runs⟩ := turn_runs anyClocks turned idle
      have runs := runs
        ⟨fun _ _ _ => trivial, fun _ _ => trivial, fun _ _ _ _ _ _ => Or.inl trivial⟩
      exact (ih.onward (onward_popTurn g event queue)).runs runs
  | @abort journal g event next _ aborted ih =>
      obtain ⟨queue, _, _, rfl⟩ := abort_shape program _ _ _ aborted
      refine ih.onward ?_
      split_ifs
      all_goals exact Onward.ofFutures rfl rfl fun _ owner _ _ timer sleeping =>
        ⟨owner, timer, sleeping⟩

/-! Readings and deadlines. -/

/-- A sum of a time and an offset fits the wider integer it is taken in, and the
conversion back changes it only outside the range of a time. -/
def Fits (value : Int) : Prop :=
  -2 ^ 127 ≤ value ∧ value < 2 ^ 127 ∧
    ((clampU64 value).toNat : Int) = max 0 (min value u64Max)

theorem fits_offset (time : SimTime) (offsetNs : Int) (low : -2 ^ 63 ≤ offsetNs)
    (high : offsetNs < 2 ^ 63) : Fits (time.toNat + offsetNs) ∧ Fits (time.toNat - offsetNs) := by
  have bound := toNat_le_u64Max time
  unfold u64Max at bound
  refine ⟨⟨?_, ?_, toNat_clampU64 _⟩, ⟨?_, ?_, toNat_clampU64 _⟩⟩ <;> omega

structure LocalTime (journal : List (Call State Value)) (g : Inner State Value) : Prop where
  monotone : journal.Pairwise fun earlier later => ∀ node first second,
    earlier.Reads node first → later.Reads node second → first ≤ second
  completed : ∀ call ∈ journal, ∀ id, call.Completes id → ∃ node deadline,
    Made journal id node deadline ∧ deadline ≤ (call.before.localNow node).1
  slept : ∀ call ∈ journal, ∀ id, call.Completes id →
    ∀ (node : NodeId) (time : SimTime) (nanos : Nat),
      Made journal id node (time.saturatingAdd nanos) →
      min (time.toNat + nanos) u64Max ≤ (call.before.localNow node).1.toNat
  fits : ∀ node, -2 ^ 63 ≤ g.skewOf node → g.skewOf node < 2 ^ 63 →
    Fits (g.now.toNat + g.skewOf node) ∧
      ∀ deadline : SimTime, Fits (deadline.toNat - g.skewOf node)

/-- In every history. A sleep reads the clock first and makes its future with the
deadline this gives. -/
theorem local_time_kept (program : Program State Value) (nextAction : NextAction Plan)
    (journal : List (Call State Value)) (g : Inner State Value)
    (journaled : Journaled program nextAction journal g) :
    LocalTime journal g ∧
      ∀ {Result : Type} (before : Inner State Value) (env : NodeId) (nanos : Nat)
        (next : Reply Value → Code State Value Result),
        ∃ rest, calls (Code.sleep env nanos next) before =
          ⟨before, .now env⟩ :: ⟨(before.localNow env).2,
            .sleepUntil env ((before.localNow env).1.saturatingAdd nanos)⟩ :: rest := by
  have told := journaled_told journaled
  refine ⟨⟨told.ordered, told.completed, ?_, ?_⟩, fun _ _ _ _ => ⟨_, rfl⟩⟩
  · intro call member id completes node time nanos made
    obtain ⟨other, deadline, ⟨⟨creation, found, makes⟩, _⟩, due⟩ :=
      told.completed call member id completes
    obtain ⟨rfl, rfl⟩ := made.2 creation found other deadline makes
    rw [← SimTime.toNat_saturatingAdd]
    exact UInt64.le_iff_toNat_le.mp due
  · intro node low high
    exact ⟨(fits_offset g.now _ low high).1, fun deadline => (fits_offset deadline _ low high).2⟩

/-- A task that sleeps once. -/
def sleeper (nanos : Nat) : Program (Option FutureId) Unit
  | none => Code.sleep 0 nanos fun
    | .future id => pollSleeper id
    | _ => .done (.ready ())
  | some id => pollSleeper id
where
  pollSleeper (id : FutureId) : Code (Option FutureId) Unit (TaskPoll (Option FutureId) Unit) :=
    .call (.poll id) fun
      | .pending => .done (.pending (some id))
      | _ => .done (.ready ())

/-- The clock of its node is set off after five milliseconds. -/
def sleeperWorld (offsetNs : Int) : Inner (Option FutureId) Unit :=
  (((replay 0 [] {}).operate noPlans (.addNode 0 fun _ => .done none)).2.operate noPlans
    (.scheduleNemesis 5000000 (.clockSkew 0 offsetNs))).2

/-- The calls of so many dispatched events. -/
def advanceCalls (program : Program State Value) :
    Nat → Inner State Value → List (Call State Value)
  | 0, _ => []
  | events + 1, g => match turn program g with
    | .next _ next => turnCalls program g ++ advanceCalls program events next
    | _ => []

theorem journaled_advance {program : Program State Value} {nextAction : NextAction Plan}
    (events : Nat) {journal : List (Call State Value)} {g : Inner State Value}
    (journaled : Journaled program nextAction journal g) :
    Journaled program nextAction (journal ++ advanceCalls program events g)
      (advance program events g) := by
  induction events generalizing journal g with
  | zero => simpa [advanceCalls, advance] using journaled
  | succ events ih =>
      cases turned : turn program g with
      | next event next =>
          simp only [advance, advanceCalls, turned]
          rw [← List.append_assoc]
          exact ih (journaled.turn turned)
      | quiesce | abort =>
          simp only [advance, advanceCalls, turned, List.append_nil]
          exact journaled

/-- A sleep of ten milliseconds is made at the first event and completed at the fourth,
with the skew in between. -/
theorem sleeper_keeps_time :
    (∃ call ∈ advanceCalls (sleeper 10000000) 4 (sleeperWorld 20000000), call.Completes 0) ∧
      LocalTime (advanceCalls (sleeper 10000000) 4 (sleeperWorld 20000000))
        (advance (sleeper 10000000) 4 (sleeperWorld 20000000)) := by
  have made : Journaled (sleeper 10000000) noPlans [] (sleeperWorld 20000000) :=
    Journaled.operate (.scheduleNemesis 5000000 (.clockSkew 0 20000000))
      (Journaled.operate (.addNode 0 fun _ => .done none) (Journaled.replay 0 [] {}))
  have polled := journaled_advance 4 made
  refine ⟨?_, (local_time_kept (sleeper 10000000) noPlans _ _ polled).1⟩
  exact ⟨⟨_, .poll 0⟩, List.mem_cons_of_mem _ (List.mem_cons_of_mem _
    (List.mem_cons_of_mem _ List.mem_cons_self)), rfl, rfl⟩

end Inner

end Detersim
