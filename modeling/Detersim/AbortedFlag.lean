import Detersim.DeadlockFlag

/-!
The abort flag of a run report, and the coverage signal that says the same. The
loop compares before it dispatches a popped event; the report compares again
after the loop, and cannot tell a budget that stopped the run from one that was
just enough.
-/

namespace Detersim

theorem append_ne_of_front {pre text : String} (different : ¬pre.toList <+: text.toList)
    (rest : String) : pre ++ rest ≠ text := by
  rintro rfl
  rw [String.toList_append] at different
  exact different (List.prefix_append _ _)

namespace Inner

variable {State Value Plan : Type}

/-- No other signal has the text of an outcome. -/
theorem aborted_signal_iff (payload : Message → String) (g : Inner State Value) :
    "outcome:aborted" ∈ g.semanticCoverage payload ↔ g.spent = true := by
  -- No other signal can be spelled like this one: each comes with a prefix of its own.
  constructor
  · intro member
    simp only [semanticCoverage, Finset.mem_sort, List.mem_toFinset, List.mem_append,
      List.mem_cons, List.mem_map, List.mem_filterMap, List.mem_flatMap, Option.map_eq_some_iff,
      Option.mem_toList] at member
    rcases member with (((outcome | ⟨event, _, same⟩) | ⟨action, _, text, _, same⟩) |
      ⟨entry, _, same⟩) | ⟨entry, _, line⟩
    · by_contra clear
      rw [if_neg clear] at outcome
      split_ifs at outcome <;> exact absurd outcome (by decide)
    · exact absurd same (append_ne_of_front (by decide) event.label.asStr)
    · exact absurd same (append_ne_of_front (by decide) text)
    · split at same
      · exact absurd same (append_ne_of_front (by decide) _)
      · exact absurd same (append_ne_of_front (by decide) entry)
    · rcases line with (((⟨text, _, same⟩ | ⟨text, _, same⟩) | fire) | poll) | event
      · exact absurd same (append_ne_of_front (by decide) text)
      · exact absurd same (append_ne_of_front (by decide) text)
      · split_ifs at fire <;> simp at fire
      · split_ifs at poll <;> simp at poll
      · split_ifs at event <;> simp at event
  · intro spent
    simp [semanticCoverage, spent]

/-- What an abort flag says: the loop stopped at an event it did not dispatch. -/
def AbortFlagExact (payload : Message → String) (outcome : Outcome State Value) : Prop :=
  ((outcome.world.report payload).aborted = true ↔ ∃ event, outcome.stop = .aborted event) ∧
    ("outcome:aborted" ∈ (outcome.world.report payload).coverageSignals ↔
      ∃ event, outcome.stop = .aborted event)

/-- The queue is drained with budget and time to spare. -/
def DrainsWithin (g : Inner State Value) : Prop :=
  g.queue.entries = [] → g.dispatched < g.config.maxEvents ∧ g.now ≤ g.config.horizonNs

theorem not_spent_iff (g : Inner State Value) :
    g.spent = false ↔ g.dispatched < g.config.maxEvents ∧ g.now ≤ g.config.horizonNs := by
  simp [spent]

theorem abortFlag_iff (payload : Message → String) (program : Program State Value)
    (g : Inner State Value) :
    AbortFlagExact payload (run program g) ↔
      ∀ events last, TurnsTo program g events last → DrainsWithin last := by
  have flags (outcome : Outcome State Value) : AbortFlagExact payload outcome ↔
      (outcome.world.spent = true ↔ ∃ event, outcome.stop = .aborted event) := by
    rw [AbortFlagExact]
    simp only [report, aborted_signal_iff, and_self]
  rw [flags]
  constructor
  · intro exact_ events last turns empty
    rw [run_of_turnsTo turns, run_of_empty program last empty] at exact_
    rw [← not_spent_iff, ← Bool.not_eq_true]
    intro spent
    obtain ⟨event, stopped⟩ := exact_.mp spent
    cases stopped
  · intro drains
    obtain ⟨events, last, turns, ⟨quiet, result⟩ | ⟨event, next, aborted, result⟩⟩ :=
      run_stops program g
    · have clear := (not_spent_iff last).mpr
        (drains events last turns ((turn_quiesce program last).mp quiet))
      rw [result]
      simp [clear]
    · obtain ⟨queue, _, tripped, rfl⟩ := abort_shape program last next event aborted
      have spent := spent_of_trips tripped queue
      rw [result]
      constructor
      · exact fun _ => ⟨event, rfl⟩
      · intro _
        split_ifs <;> exact spent

/-! A world that was never cut off is within its budget. -/

structure WithinBudget (g : Inner State Value) : Prop where
  dispatched : g.dispatched ≤ g.config.maxEvents
  now : g.now ≤ g.config.horizonNs

section Changes

variable {rules : Rules State Value} {fills : SlotId → Prop} {outside : Prop}

theorem change_clock {g after : Inner State Value} (change : Change rules fills outside g after) :
    SameBudget g after ∧ after.now = g.now := by
  cases change with
  | op effect => exact ⟨(opEffect_frame effect).sameBudget, (opEffect_frame effect).now⟩
  | loop effect =>
      cases effect with
      | crashed node =>
          unfold crashNode
          split_ifs <;> exact ⟨⟨rfl, rfl⟩, rfl⟩
      | filled slot join value =>
          obtain ⟨queue, shape⟩ := enqueueAll_shape join.joiners
            { g with slots := g.slots.insert slot ⟨true, some value, []⟩ }
          rw [shape]
          exact ⟨⟨rfl, rfl⟩, rfl⟩
      | faulted | drawn | revived | registered | parked | halted | ended | scheduled =>
          exact ⟨⟨rfl, rfl⟩, rfl⟩

theorem changes_clock {g after : Inner State Value}
    (changes : Changes rules fills outside g after) : SameBudget g after ∧ after.now = g.now := by
  induction changes with
  | refl => exact ⟨⟨rfl, rfl⟩, rfl⟩
  | tail _ change ih =>
      obtain ⟨budget, now⟩ := change_clock change
      exact ⟨ih.1.trans budget, now.trans ih.2⟩

theorem pop_now {g after : Inner State Value} {event : Keyed} (effect : PopEffect g event after) :
    after.now = event.time := by
  cases effect with
  | delivered queue tape sender receiver =>
      obtain ⟨_, shape⟩ := enqueueAll_shape ((g.recvWaiters.get receiver).getD []) _
      rw [shape]
  | idle | fired | dropped | begun | lost => rfl

end Changes

theorem turn_withinBudget {program : Program State Value} {g next : Inner State Value}
    {event : Keyed} (turned : turn program g = .next event next) : WithinBudget next := by
  obtain ⟨mid, popped, changes⟩ := turn_changes program _ _ _ turned
    (fun _ => dispatchMeets_any program _ _)
  have now : next.now = event.time :=
    (changes_clock (changes : Changes anyRules _ _ mid next)).2.trans (pop_now popped)
  obtain ⟨queue, _, tripped, rfl⟩ := next_shape program g next event turned
  simp only [trips, Bool.or_eq_false_iff, decide_eq_false_iff_not, not_le] at tripped
  obtain ⟨config, dispatched⟩ := dispatch_progress program { g with queue, now := event.time } event
  constructor
  · rw [config]
    -- The budget is checked before an event is dispatched, so the count ends at the budget at most.
    rcases dispatched with more | ⟨same, _⟩
    · exact more.trans_le tripped.2
    · exact same.trans_le tripped.2.le
  · rw [now, config]
    exact UInt64.not_lt.mp tripped.1

theorem uncut_withinBudget {program : Program State Value} {nextAction : NextAction Plan}
    {g : Inner State Value} (under : ReachableUnder program nextAction uncut g) :
    WithinBudget g := by
  refine reachableUnder_invariant WithinBudget ?_ ?_ under
  · intro seed config tape _
    exact ⟨Nat.zero_le _, UInt64.le_iff_toNat_le.mpr (Nat.zero_le _)⟩
  · intro g after _ step within
    cases step with
    | operate op =>
        have changes : Changes anyRules (fun _ => True) True g (g.operate nextAction op).2 :=
          operate_changes nextAction g op (operateMeets_any g op)
        obtain ⟨budget, now⟩ := changes_clock changes
        exact ⟨budget.dispatched ▸ budget.config ▸ within.dispatched,
          now ▸ budget.config ▸ within.now⟩
    | turn turned => exact turn_withinBudget turned
    | abort _ allowed => exact allowed.elim

/-- The abort flag is exact in the runs that do not drain their queue with the
budget or the time used up. In a world that was never cut off, that is to have
dispatched just as many events as the budget has. -/
theorem abort_flag_exact_iff (payload : Message → String) (program : Program State Value)
    (nextAction : NextAction Plan) :
    (∀ g, AbortFlagExact payload (run program g) ↔
      ∀ events last, TurnsTo program g events last → DrainsWithin last) ∧
      ∀ g, ReachableUnder program nextAction uncut g →
        (AbortFlagExact payload (run program g) ↔
          ∀ events last, TurnsTo program g events last → last.queue.entries = [] →
            last.dispatched ≠ last.config.maxEvents) := by
  refine ⟨abortFlag_iff payload program, ?_⟩
  intro g under
  rw [abortFlag_iff]
  constructor
  · intro drains events last turns empty
    exact (drains events last turns empty).1.ne
  · intro short events last turns empty
    have within := uncut_withinBudget (turnsTo_uncut under turns)
    exact ⟨lt_of_le_of_ne within.dispatched (short events last turns empty), within.now⟩

/-- A node that does nothing, in a world with a budget of one event. -/
def idle : Program Unit Unit := fun _ => .done (.ready ())

def idleWorld : Inner Unit Unit :=
  ((replay 0 [] { maxEvents := 1 }).operate noPlans (.addNode 0 fun _ => .done ())).2

theorem idleWorld_uncut : ReachableUnder idle noPlans uncut idleWorld :=
  ⟨replay 0 [] { maxEvents := 1 }, ⟨0, { maxEvents := 1 }, Or.inr ⟨[], rfl⟩⟩,
    Relation.ReflTransGen.single (Step.operate (.addNode 0 fun _ => .done ()) trivial)⟩

/-- The one event is dispatched, and nothing is left. -/
theorem idle_flagged_aborted :
    ReachableUnder idle noPlans uncut idleWorld ∧
      (run idle idleWorld).stop = .quiesced ∧
      (run idle idleWorld).world.queue.entries = [] ∧
      ((run idle idleWorld).world.report fun _ => "").aborted = true ∧
      ¬AbortFlagExact (fun _ => "") (run idle idleWorld) := by
  refine ⟨idleWorld_uncut, ?_⟩
  rw [run_of_runFor idle 2 idleWorld _ rfl]
  refine ⟨rfl, rfl, by decide, ?_⟩
  intro exact_
  obtain ⟨event, stopped⟩ := exact_.1.mp (by decide)
  cases stopped

theorem idle_abort_flag_iff :
    AbortFlagExact (fun _ => "") (run idle idleWorld) ↔
      ∀ events last, TurnsTo idle idleWorld events last → last.queue.entries = [] →
        last.dispatched ≠ last.config.maxEvents :=
  (abort_flag_exact_iff (fun _ => "") idle noPlans).2 idleWorld idleWorld_uncut

end Inner

end Detersim
