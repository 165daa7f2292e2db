import Detersim.Changes

/-!
The states a world can be in: built by the constructors, then any public
operations and any runs, with the states inside a run included.
-/

namespace Detersim

namespace Inner

variable {State Value Plan : Type}

/-- `World::with_config`. -/
def generate (seed : UInt64) (config : WorldConfig) : Inner State Value :=
  fromTape seed config (.ofSeed seed)

/-- `World::replay`. -/
def replay (seed : UInt64) (tape : List UInt64) (config : WorldConfig) : Inner State Value :=
  fromTape seed config (.ofTape tape)

inductive Reachable (program : Program State Value) (nextAction : NextAction Plan) :
    Inner State Value → Prop where
  | generate (seed config) : Reachable program nextAction (generate seed config)
  | replay (seed tape config) : Reachable program nextAction (replay seed tape config)
  | operate {g} (op : WorldOp State Value Plan) : Reachable program nextAction g →
      Reachable program nextAction (g.operate nextAction op).2
  | turn {g event next} : Reachable program nextAction g → turn program g = .next event next →
      Reachable program nextAction next
  | abort {g event next} : Reachable program nextAction g → turn program g = .abort event next →
      Reachable program nextAction next

/-! Histories of a world in which each step meets a condition on the state before it. -/

structure StepConditions (State Value Plan : Type) where
  operate : Inner State Value → WorldOp State Value Plan → Prop
  turn : Inner State Value → Keyed → Prop
  abort : Inner State Value → Keyed → Prop

inductive Step (program : Program State Value) (nextAction : NextAction Plan)
    (allows : StepConditions State Value Plan) (g : Inner State Value) :
    Inner State Value → Prop where
  | operate (op : WorldOp State Value Plan) (allowed : allows.operate g op) :
      Step program nextAction allows g (g.operate nextAction op).2
  | turn {event next} (turned : turn program g = .next event next) (allowed : allows.turn g event) :
      Step program nextAction allows g next
  | abort {event next} (aborted : turn program g = .abort event next)
      (allowed : allows.abort g event) : Step program nextAction allows g next

abbrev Steps (program : Program State Value) (nextAction : NextAction Plan)
    (allows : StepConditions State Value Plan) : Inner State Value → Inner State Value → Prop :=
  Relation.ReflTransGen (Step program nextAction allows)

/-- A world as a constructor returns it. -/
def Starts (g : Inner State Value) : Prop :=
  ∃ seed config, g = generate seed config ∨ ∃ tape, g = replay seed tape config

def ReachableUnder (program : Program State Value) (nextAction : NextAction Plan)
    (allows : StepConditions State Value Plan) (g : Inner State Value) : Prop :=
  ∃ start, Starts start ∧ Steps program nextAction allows start g

theorem step_reachable {program : Program State Value} {nextAction : NextAction Plan}
    {allows : StepConditions State Value Plan} {g after : Inner State Value}
    (step : Step program nextAction allows g after) (reachable : Reachable program nextAction g) :
    Reachable program nextAction after := by
  cases step with
  | operate op => exact Reachable.operate op reachable
  | turn turned => exact Reachable.turn reachable turned
  | abort aborted => exact Reachable.abort reachable aborted

theorem ReachableUnder.reachable {program : Program State Value} {nextAction : NextAction Plan}
    {allows : StepConditions State Value Plan} {g : Inner State Value}
    (under : ReachableUnder program nextAction allows g) : Reachable program nextAction g := by
  obtain ⟨start, ⟨seed, config, rfl | ⟨tape, rfl⟩⟩, steps⟩ := under
  all_goals
    induction steps with
    | refl => first | exact Reachable.generate seed config | exact Reachable.replay seed tape config
    | tail _ step ih => exact step_reachable step ih

/-- An invariant of every allowed step. -/
theorem reachableUnder_invariant {program : Program State Value} {nextAction : NextAction Plan}
    {allows : StepConditions State Value Plan} (inv : Inner State Value → Prop)
    (start : ∀ seed config tape, tape.Aligned → inv (fromTape seed config tape))
    (step : ∀ g after, Reachable program nextAction g → Step program nextAction allows g after →
      inv g → inv after)
    {g : Inner State Value} (under : ReachableUnder program nextAction allows g) : inv g := by
  obtain ⟨first, starts, steps⟩ := under
  induction steps with
  | refl =>
      obtain ⟨seed, config, rfl | ⟨tape, rfl⟩⟩ := starts
      · exact start seed config _ (EntropyTape.aligned_ofSeed seed)
      · exact start seed config _ (EntropyTape.aligned_ofTape tape)
  | tail before last ih =>
      exact step _ _ (ReachableUnder.reachable ⟨first, starts, before⟩) last ih

/-- For worlds without nemesis plans. -/
def noPlans : NextAction Empty := fun plan => plan.elim

/-- The event loop stops at an event that it has popped already. -/
theorem abort_shape (program : Program State Value) (g next : Inner State Value) (event : Keyed)
    (aborted : turn program g = .abort event next) :
    ∃ queue, g.queue.pop = some (event, queue) ∧ g.trips event = true ∧
      next = if isDelivery event then
          { g with queue, now := event.time }.settle event .aborted
        else { g with queue, now := event.time } := by
  unfold turn at aborted
  cases popped : g.queue.pop with
  | none => simp [popped] at aborted
  | some entry =>
      obtain ⟨head, queue⟩ := entry
      simp only [popped] at aborted
      split_ifs at aborted with tripped delivery
      · cases aborted
        exact ⟨queue, rfl, tripped, by rw [if_pos delivery]⟩
      · cases aborted
        exact ⟨queue, rfl, tripped, by rw [if_neg delivery]⟩

theorem next_shape (program : Program State Value) (g next : Inner State Value) (event : Keyed)
    (turned : turn program g = .next event next) :
    ∃ queue, g.queue.pop = some (event, queue) ∧ g.trips event = false ∧
      next = dispatch program { g with queue, now := event.time } event := by
  unfold turn at turned
  cases popped : g.queue.pop with
  | none => simp [popped] at turned
  | some entry =>
      obtain ⟨head, queue⟩ := entry
      simp only [popped] at turned
      split_ifs at turned with tripped
      simp only [Turn.next.injEq] at turned
      obtain ⟨rfl, rfl⟩ := turned
      exact ⟨queue, rfl, by simpa using tripped, rfl⟩

theorem changes_keep {rules : Rules State Value} {fills : SlotId → Prop} {outside : Prop}
    (inv : Inner State Value → Prop)
    (change : ∀ g after, Change rules fills outside g after → inv g → inv after)
    {g after : Inner State Value} (changes : Changes rules fills outside g after)
    (holds : inv g) : inv after := by
  induction changes with
  | refl => exact holds
  | tail _ step ih => exact change _ _ step ih

/-- An invariant of every update holds in every reachable state. -/
theorem reachable_invariant (program : Program State Value) (nextAction : NextAction Plan)
    (inv : Inner State Value → Prop)
    (start : ∀ seed config tape, tape.Aligned → inv (fromTape seed config tape))
    (change : ∀ fills outside g after, Change anyRules fills outside g after →
      inv g → inv after)
    (pop : ∀ g event after, PopEffect g event after → inv g → inv after)
    (abort : ∀ (g after : Inner State Value) (event : Keyed),
      turn program g = .abort event after → inv g → inv after)
    (g : Inner State Value) (reachable : Reachable program nextAction g) : inv g := by
  induction reachable with
  | generate seed config => exact start seed config _ (EntropyTape.aligned_ofSeed seed)
  | replay seed tape config => exact start seed config _ (EntropyTape.aligned_ofTape tape)
  | @operate g op _ ih =>
      have changes : Changes anyRules (fun _ => True) True g (g.operate nextAction op).2 :=
        operate_changes nextAction g op (operateMeets_any g op)
      exact changes_keep inv (change _ _) changes ih
  | turn _ turned ih =>
      obtain ⟨mid, popped, changes⟩ := turn_changes program _ _ _ turned
        (fun _ => dispatchMeets_any program _ _)
      exact changes_keep inv (change _ _) changes (pop _ _ _ popped ih)
  | abort _ aborted ih => exact abort _ _ _ aborted ih

end Inner

end Detersim
