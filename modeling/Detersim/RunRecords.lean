import Detersim.LocalClocks
import Detersim.Undisturbed

/-!
What a world writes down: the lines of its trace, and how many generators each
node was handed. A step runs at most one piece of program code, and what it adds
is the line of its event and what that code's calls add.
-/

namespace Detersim

variable {State Value : Type}

/-- The line a send from a crashed node leaves. -/
def Call.refusal (call : Call State Value) : Option TraceLine :=
  match call.op with
  | .send env receiver _ =>
      if env ∈ call.before.crashed then some (.sendFromCrashed env receiver) else none
  | _ => none

def Call.asksRng (node : NodeId) (call : Call State Value) : Bool :=
  match call.op with
  | .rng env => decide (env = node)
  | _ => false

namespace Inner

variable {Plan : Type}

/-- How many generators the node was handed. -/
def streamsOf (g : Inner State Value) (node : NodeId) : Nat := (g.rngCounter.get node).getD 0

/-- What the calls add between the two states; the seed stays. -/
structure Records (made : List (Call State Value)) (g after : Inner State Value) : Prop where
  seed : after.seed = g.seed
  streams : ∀ node, after.streamsOf node = g.streamsOf node + made.countP (Call.asksRng node)
  trace : after.trace = g.trace ++ made.filterMap Call.refusal

theorem Silent.records {g after : Inner State Value} (silent : Silent g after) :
    Records [] g after :=
  ⟨silent.seed, fun node => by rw [streamsOf, silent.rngCounter]; rfl,
    silent.trace.trans (List.append_nil _).symm⟩

theorem Records.trans {first second third : Inner State Value} {made more : List (Call State Value)}
    (left : Records made first second) (right : Records more second third) :
    Records (made ++ more) first third := by
  refine ⟨right.seed.trans left.seed, ?_, ?_⟩
  · intro node
    rw [right.streams, left.streams, List.countP_append, Nat.add_assoc]
  · rw [right.trace, left.trace, List.filterMap_append, List.append_assoc]

theorem Records.after {g mid after : Inner State Value} {made : List (Call State Value)}
    (records : Records made g mid) (silent : Silent mid after) : Records made g after := by
  have both := records.trans silent.records
  rwa [List.append_nil] at both

/-! One call. -/

theorem quiet_records {g after : Inner State Value} {op : Op State} (silent : Silent g after)
    (refusal : (⟨g, op⟩ : Call State Value).refusal = none)
    (asks : ∀ node, (⟨g, op⟩ : Call State Value).asksRng node = false) :
    Records [⟨g, op⟩] g after := by
  refine ⟨silent.seed, ?_, ?_⟩
  · intro node
    rw [streamsOf, silent.rngCounter, List.countP_singleton, asks node]
    rfl
  · rw [silent.trace, List.filterMap_cons_none refusal, List.filterMap_nil, List.append_nil]

theorem perform_records (g : Inner State Value) (op : Op State) :
    Records [⟨g, op⟩] g (g.perform op).2 := by
  cases op with
  | record | now | writeAt | flush | len | sleepUntil | recv | spawn =>
      exact quiet_records ⟨rfl, rfl, rfl⟩ rfl fun _ => rfl
  | rng env =>
      refine ⟨rfl, ?_, (List.append_nil _).symm⟩
      intro node
      have handed : (g.perform (.rng env)).2.streamsOf node =
          if node = env then g.streamsOf env + 1 else g.streamsOf node := by
        simp only [streamsOf, perform, nextSutRng, SortedMap.get_insert]
        split_ifs <;> rfl
      rw [handed, List.countP_singleton]
      simp only [Call.asksRng, decide_eq_true_eq]
      by_cases same : env = node
      · rw [if_pos same.symm, if_pos same, same]
      · rw [if_neg (Ne.symm same), if_neg same, Nat.add_zero]
  | send env receiver msg =>
      by_cases running : env ∈ g.crashed
      · refine ⟨?_, fun _ => ?_, ?_⟩
        · simp only [perform, send, if_pos running]
        · simp only [perform, send, if_pos running]
          rfl
        · simp only [perform, send, if_pos running, List.filterMap_cons, Call.refusal]
          rfl
      · refine quiet_records (send_undisturbed g env receiver msg running).toSilent ?_ fun _ => rfl
        exact if_neg running
  | readAt env offset len =>
      refine quiet_records ?_ rfl fun _ => rfl
      simp only [perform]
      split
      · exact Silent.refl g
      · split <;> exact Silent.refl g
  | poll id =>
      refine quiet_records ?_ rfl fun _ => rfl
      simp only [perform]
      split
      · exact Silent.refl g
      next held _ =>
        split_ifs
        · exact (pollLeaf_undisturbed g id held).toSilent
        · exact Silent.refl g
  | drop id =>
      refine quiet_records ?_ rfl fun _ => rfl
      simp only [perform]
      split
      · exact Silent.refl g
      · split_ifs
        · exact (release_undisturbed g id).toSilent
        · exact Silent.refl g

theorem exec_records {Result : Type} (code : Code State Value Result) (g : Inner State Value) :
    Records (calls code g) g (g.exec code).2 := by
  induction code generalizing g with
  | done => exact (Silent.refl g).records
  | call op next ih => exact (perform_records g op).trans (ih _ _)

/-- A call is made after what the calls before it added. -/
theorem calls_records {Result : Type} (code : Code State Value Result) (g : Inner State Value)
    {earlier later : List (Call State Value)} {call : Call State Value}
    (made : calls code g = earlier ++ call :: later) : Records earlier g call.before := by
  induction code generalizing g earlier with
  | done => simp [calls] at made
  | call op next ih =>
      rw [calls] at made
      cases earlier with
      | nil =>
          obtain ⟨rfl, _⟩ := List.cons.inj made
          exact (Silent.refl g).records
      | cons first rest =>
          rw [List.cons_append] at made
          obtain ⟨rfl, rest⟩ := List.cons.inj made
          exact (perform_records g op).trans (ih _ _ rest)

/-! Steps. -/

/-- The step runs the code whose calls are listed, and is silent around it. -/
inductive Ran (g : Inner State Value) :
    List (Call State Value) → Inner State Value → Prop where
  | ran {Result : Type} (code : Code State Value Result) (start after : Inner State Value)
      (begins : Silent g start) (ends : Silent (start.exec code).2 after) :
      Ran g (calls code start) after

theorem Silent.ran {g after : Inner State Value} (silent : Silent g after) : Ran g [] after :=
  Ran.ran (.done ()) after after silent (Silent.refl after)

theorem Ran.records {g after : Inner State Value} {made : List (Call State Value)}
    (ran : Ran g made after) : Records made g after := by
  obtain ⟨code, start, _, begins, ends⟩ := ran
  exact (begins.records.trans (exec_records code start)).after ends

theorem Ran.split {g after : Inner State Value} {earlier later : List (Call State Value)}
    {call : Call State Value} (ran : Ran g (earlier ++ call :: later) after) :
    Records earlier g call.before := by
  generalize whole : earlier ++ call :: later = made at ran
  obtain ⟨code, start, _, begins, _⟩ := ran
  exact begins.records.trans (calls_records code start whole.symm)

theorem Ran.after {g mid after : Inner State Value} {made : List (Call State Value)}
    (ran : Ran g made mid) (silent : Silent mid after) : Ran g made after := by
  obtain ⟨code, start, _, begins, ends⟩ := ran
  exact Ran.ran code start after begins (ends.trans silent)

theorem Ran.before {g mid after : Inner State Value} {made : List (Call State Value)}
    (silent : Silent g mid) (ran : Ran mid made after) : Ran g made after := by
  obtain ⟨code, start, _, begins, ends⟩ := ran
  exact Ran.ran code start after (silent.trans begins) ends

theorem restartNodeOutcome_ran (g : Inner State Value) (node : NodeId) :
    Ran g (restartCalls g node) (g.restartNodeOutcome node).2 := by
  unfold restartNodeOutcome restartCalls
  split_ifs
  · cases g.factories.get node with
    | none => exact (Silent.refl g).ran
    | some factory =>
        exact Ran.ran (factory node) { g with crashed := g.crashed.erase node } _ ⟨rfl, rfl, rfl⟩
          ⟨rfl, rfl, rfl⟩
  · exact (Silent.refl g).ran
  · exact (Silent.refl g).ran

theorem operate_ran (nextAction : NextAction Plan) (g : Inner State Value)
    (op : WorldOp State Value Plan) : Ran g (g.operateCalls op) (g.operate nextAction op).2 := by
  cases op with
  | addNode node factory =>
      simp only [operate, addNode, operateCalls]
      split_ifs
      · exact (Silent.refl g).ran
      · exact Ran.ran (factory node) _ _ ⟨rfl, rfl, rfl⟩ ⟨rfl, rfl, rfl⟩
  | scheduleNemesis | setDropPercent | setDuplicatePercent | setExtraDelayMs =>
      exact Silent.ran ⟨rfl, rfl, rfl⟩
  | scheduleNemesisPlan plan maxActions =>
      exact (scheduleNemesisPlan_undisturbed nextAction maxActions plan g).toSilent.ran
  | partition groups => exact (applyNemesis_silent g (.partition groups)).ran
  | healAll => exact (applyNemesis_silent g .healAll).ran
  | setClockSkew node offsetNs => exact (applyNemesis_silent g (.clockSkew node offsetNs)).ran
  | crashNode node => exact (applyNemesis_silent g (.crash node)).ran
  | restartNode node => exact (restartNodeOutcome_ran g node).after ⟨rfl, rfl, rfl⟩
  | restartNodeOutcome node => exact restartNodeOutcome_ran g node
  | useEnv code =>
      exact Ran.ran code g _ (Silent.refl g) (releases_undisturbed _ _).toSilent

/-- Popped for the task, an event has a future to poll. -/
def polls (g : Inner State Value) (task : TaskId) : Bool :=
  (g.tasks.get task).any fun slot => slot.future.isSome && decide (slot.node ∉ g.crashed)

/-- Why a message that arrives now is dropped. -/
def dropReason (g : Inner State Value) (sender receiver : NodeId) : Option DropKind :=
  if receiver ∉ g.nodes then some .unregistered
  else if receiver ∈ g.crashed ∨ sender ∈ g.crashed then some .crashed
  else if g.faults.connectivity.isConnected sender receiver = false then some .partition
  else if (g.drawPercent g.faults.dropPercent .dropDecision).1 then some .random
  else none

/-- The line of a message that arrives. -/
def arrivalLine (event : Keyed) (sender receiver : NodeId) : Option DropKind → TraceLine
  | none => .dispatched event
  | some kind => .dropped kind event.time event.seq sender receiver

/-- The line of the event itself. -/
def turnLine (g : Inner State Value) (event : Keyed) : Option TraceLine :=
  match event.kind with
  | .timerFire timer => if g.timers.contains timer then some (.dispatched event) else none
  | .pollTask task => if g.polls task then some (.dispatched event) else none
  | .nemesis _ => some (.dispatched event)
  | .deliverMsg sender receiver _ =>
      some (arrivalLine event sender receiver (g.dropReason sender receiver))

theorem turnLine_popped (g : Inner State Value) (event : Keyed) (queue : EventQueue)
    (now : SimTime) : { g with queue, now }.turnLine event = g.turnLine event := by
  have draws (percent : Nat) : ({ g with queue, now }.drawPercent percent .dropDecision).1 =
      (g.drawPercent percent .dropDecision).1 := by
    unfold drawPercent
    split_ifs <;> rfl
  simp only [turnLine, dropReason, draws]
  rfl

/-- The state with the event's line in its trace. -/
def noteTurn (g : Inner State Value) (event : Keyed) : Inner State Value :=
  { g with trace := g.trace ++ (g.turnLine event).toList }

theorem silent_noteTurn {g after : Inner State Value} {event : Keyed} {line : Option TraceLine}
    (noted : g.turnLine event = line) (seed : after.seed = g.seed)
    (rngCounter : after.rngCounter = g.rngCounter) (trace : after.trace = g.trace ++ line.toList) :
    Silent (g.noteTurn event) after :=
  ⟨seed, rngCounter, by rw [trace, ← noted]; rfl⟩

theorem pollTask_ran (program : Program State Value) (g : Inner State Value) {event : Keyed}
    {task : TaskId} (kind : event.kind = .pollTask task) :
    Ran (g.noteTurn event) (pollCalls program g event task) (pollTask program g event task) := by
  have unpolled {after : Inner State Value} (idle : g.polls task = false) (silent : Silent g after) :
      Ran (g.noteTurn event) [] after := by
    have noted : g.turnLine event = none := by
      simp only [turnLine, kind, idle, Bool.false_eq_true, if_false]
    refine (silent_noteTurn noted silent.seed silent.rngCounter ?_).ran
    rw [silent.trace, Option.toList_none, List.append_nil]
  unfold pollTask pollCalls
  cases present : g.tasks.get task with
  | none =>
      have idle : g.polls task = false := by rw [polls, present]; rfl
      exact unpolled idle (Silent.refl g)
  | some slot =>
      dsimp only
      cases ready : slot.future with
      | none =>
          have idle : g.polls task = false := by
            rw [polls, present, Option.any_some, ready]
            rfl
          exact unpolled idle (Silent.refl g)
      | some future =>
          dsimp only
          split_ifs with down
          · have idle : g.polls task = false := by
              rw [polls, present, Option.any_some, decide_eq_false (not_not_intro down), Bool.and_false]
            exact unpolled idle ⟨rfl, rfl, rfl⟩
          · have noted : g.turnLine event = some (.dispatched event) := by
              have busy : g.polls task = true := by
                rw [polls, present, Option.any_some, ready, decide_eq_true down]
                rfl
              simp only [turnLine, kind, busy, if_true]
            refine Ran.ran (program future.state) _ _ (silent_noteTurn noted rfl rfl rfl) ?_
            split
            next state after shape =>
              rw [shape]
              exact ⟨rfl, rfl, rfl⟩
            next value after shape =>
              rw [shape]
              exact (finishTask_undisturbed after task future.slot value).toSilent

theorem deliverMsg_ran (g : Inner State Value) {event : Keyed} {sender receiver : NodeId}
    {msg : Message} (kind : event.kind = .deliverMsg sender receiver msg) :
    Ran (g.noteTurn event) [] (g.deliverMsg event sender receiver msg) := by
  have line (reason : Option DropKind) (found : g.dropReason sender receiver = reason) :
      g.turnLine event = some (arrivalLine event sender receiver reason) := by
    simp only [turnLine, kind, found]
  unfold dropReason at line
  unfold deliverMsg
  by_cases unregistered : receiver ∉ g.nodes
  · rw [if_pos unregistered] at line ⊢
    exact Silent.ran (silent_noteTurn (line _ rfl) rfl rfl rfl)
  rw [if_neg unregistered] at line ⊢
  by_cases down : receiver ∈ g.crashed ∨ sender ∈ g.crashed
  · rw [if_pos down] at line ⊢
    exact Silent.ran (silent_noteTurn (line _ rfl) rfl rfl rfl)
  rw [if_neg down] at line ⊢
  by_cases cut : g.faults.connectivity.isConnected sender receiver = false
  · rw [if_pos cut] at line ⊢
    exact Silent.ran (silent_noteTurn (line _ rfl) rfl rfl rfl)
  · rw [if_neg cut] at line ⊢
    have drawn := (drawPercent_moves g g.faults.dropPercent .dropDecision).undisturbed
    generalize g.drawPercent g.faults.dropPercent .dropDecision = result at line drawn ⊢
    obtain ⟨lost, mid⟩ := result
    cases lost with
    | true =>
        have noted := line (some .random) rfl
        refine Silent.ran (silent_noteTurn noted drawn.seed drawn.rngCounter ?_)
        exact congrArg (· ++ [_]) drawn.trace
    | false =>
        have noted := line none rfl
        have counted : Silent (g.noteTurn event)
            ((mid.countDispatch (.dispatched event)).settle event .delivered) :=
          silent_noteTurn noted drawn.seed drawn.rngCounter (congrArg (· ++ [_]) drawn.trace)
        have kept : Silent (g.noteTurn event)
            { (mid.countDispatch (.dispatched event)).settle event .delivered with
              inboxes := mid.inboxes.insert receiver
                ((mid.inboxes.get receiver).getD [] ++ [(sender, msg)])
              recvWaiters := if mid.recvWaiters.contains receiver then
                mid.recvWaiters.insert receiver [] else mid.recvWaiters } :=
          ⟨counted.seed, counted.rngCounter, counted.trace⟩
        exact (kept.trans (enqueueAll_undisturbed _ _).toSilent).ran

theorem fireTimer_ran (g : Inner State Value) {event : Keyed} {timer : TimerId}
    (kind : event.kind = .timerFire timer) : Ran (g.noteTurn event) [] (g.fireTimer event timer) := by
  unfold fireTimer
  cases armed : g.timers.get timer with
  | none =>
      have noted : g.turnLine event = none := by
        simp [turnLine, kind, SortedMap.contains, armed]
      exact Silent.ran (silent_noteTurn noted rfl rfl (List.append_nil _).symm)
  | some task =>
      have noted : g.turnLine event = some (.dispatched event) := by
        simp [turnLine, kind, SortedMap.contains, armed]
      exact Silent.ran (silent_noteTurn noted rfl rfl rfl)

theorem dispatchNemesis_ran (program : Program State Value) (g : Inner State Value) {event : Keyed}
    {action : NemesisAction} (kind : event.kind = .nemesis action) :
    Ran (g.noteTurn event) (dispatchCalls program g event) (g.dispatchNemesis event action) := by
  have noted : g.turnLine event = some (.dispatched event) := by simp only [turnLine, kind]
  have applied (other : NemesisAction) :
      Ran (g.noteTurn event) [] ((g.countDispatch (.dispatched event)).applyNemesis other) := by
    have counted : Silent (g.noteTurn event) (g.countDispatch (.dispatched event)) :=
      silent_noteTurn noted rfl rfl rfl
    exact (counted.trans (applyNemesis_silent _ other)).ran
  unfold dispatchCalls
  rw [kind]
  cases action with
  | restart node =>
      refine ((restartNodeOutcome_ran _ node).before ?_).after ⟨rfl, rfl, rfl⟩
      exact silent_noteTurn noted rfl rfl rfl
  | partition | asymmetricPartition | setLink | healAll | crash | clockSkew | tornWrite
  | lostOnCrash | preFsyncReorder | bitRot =>
      dsimp only [dispatchNemesis]
      exact applied _

/-- A dispatched event leaves its line, and what the code it starts leaves. -/
theorem dispatch_ran (program : Program State Value) (g : Inner State Value) (event : Keyed) :
    Ran (g.noteTurn event) (dispatchCalls program g event) (dispatch program g event) := by
  unfold dispatch
  cases kind : event.kind with
  | timerFire timer =>
      rw [dispatchCalls, kind]
      exact fireTimer_ran g kind
  | deliverMsg sender receiver msg =>
      rw [dispatchCalls, kind]
      exact deliverMsg_ran g kind
  | nemesis action => exact dispatchNemesis_ran program g kind
  | pollTask task =>
      rw [dispatchCalls, kind]
      exact pollTask_ran program g kind

theorem turn_ran {program : Program State Value} {g next : Inner State Value} {event : Keyed}
    (turned : turn program g = .next event next) :
    Ran (g.noteTurn event) (turnCalls program g) next := by
  obtain ⟨queue, popped, within, rfl⟩ := next_shape program g next event turned
  have made : turnCalls program g =
      dispatchCalls program { g with queue, now := event.time } event := by
    simp only [turnCalls, popped, within, Bool.false_eq_true, if_false]
  have same : Silent (g.noteTurn event) ({ g with queue, now := event.time }.noteTurn event) :=
    silent_noteTurn (turnLine_popped g event queue event.time).symm rfl rfl rfl
  rw [made]
  exact (dispatch_ran program { g with queue, now := event.time } event).before same

theorem abort_silent {program : Program State Value} {g next : Inner State Value} {event : Keyed}
    (aborted : turn program g = .abort event next) : Silent g next := by
  obtain ⟨queue, _, _, rfl⟩ := abort_shape program g next event aborted
  split <;> exact ⟨rfl, rfl, rfl⟩

end Inner

end Detersim
