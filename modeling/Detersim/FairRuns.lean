import Detersim.FairPolls
import Detersim.HostedRuns
import Detersim.Report

/-!
A run in a fair world. No party is forgotten: its task is queued, or waits for a
message while none has arrived. So the run stops by itself, with each party at its
end or waiting for what was never sent.
-/

namespace Detersim

namespace Inner

variable {State Value : Type}

/-- An accepted message wakes those that wait. -/
theorem acceptDelivery_shape (g : Inner State Value) (event : Keyed) (sender receiver : NodeId)
    (msg : Message) :
    ∃ seq queue, g.acceptDelivery event sender receiver msg =
        { g.arrived event sender receiver msg with seq, queue } ∧
      (∀ other ∈ g.queue, other ∈ queue) ∧
      ∀ task ∈ g.listed receiver, ∃ other ∈ queue, other.kind = .pollTask task := by
  have stays := mem_enqueueAll (g.listed receiver) (g.arrived event sender receiver msg)
  have wakes := enqueueAll_wakes (g.listed receiver) (g.arrived event sender receiver msg)
  obtain ⟨queue, shape⟩ := enqueueAll_shape (g.listed receiver) (g.arrived event sender receiver msg)
  rw [shape] at stays wakes
  exact ⟨_, queue, shape, stays, wakes⟩

end Inner

namespace Hosting

open Datagrams

variable {Party : Type} {Local : Party → Type}

/-- The party will be polled, or waits and has to. -/
structure Tends (host : Host Party Local) (g : Hosted Local) (task : TaskId) (party : Party)
    (holding : Option FutureId) : Prop where
  owns : g.Owns task holding
  alone : ∀ other ∈ g.listed (host.deployment.address party), other = task
  rests : (∃ event ∈ g.queue, event.kind = .pollTask task) ∨
    holding ≠ none ∧ task ∈ g.listed (host.deployment.address party) ∧
      g.inbox (host.deployment.address party) = []

def Attended (host : Host Party Local) (g : Hosted Local) (party : Party) : Prop :=
  ∃ task point holding, g.tasks.get task =
      some ⟨host.deployment.address party, some ⟨⟨party, point, holding⟩, none⟩⟩ ∧
    Tends host g task party holding

/-- A world between two events, and the parties in it. -/
structure Lively (host : Host Party Local) (barred : NodeId → NodeId → Prop) (base : Nat)
    [DecidableEq Party] (g : Hosted Local) (count : Nat) (system : System NodeId String SimTime Local)
    (returned : List Party) : Prop where
  reached : ReachedIn host.deployment host.system (Passes barred true) count system
  mirrors : Mirrors host barred true g system returned
  fair : Fair host barred base g system
  allotted : g.Allotted
  attended : ∀ party, party ∉ returned → Attended host g party

variable {host : Host Party Local} {barred : NodeId → NodeId → Prop} {base most : Nat}
  {g after : Hosted Local} {system : System NodeId String SimTime Local} {returned : List Party}
  {task : TaskId} {party : Party} {holding : Option FutureId}

theorem Tends.keep (tends : Tends host g task party holding) (futures : after.futures = g.futures)
    (listed : after.listed (host.deployment.address party) = g.listed (host.deployment.address party))
    (inbox : after.inbox (host.deployment.address party) = g.inbox (host.deployment.address party))
    (queue : ∀ event ∈ g.queue, event.kind = .pollTask task → event ∈ after.queue) :
    Tends host after task party holding where
  owns := tends.owns.of_futures futures
  alone := listed ▸ tends.alone
  rests := by
    rw [listed, inbox]
    exact tends.rests.imp_left fun ⟨event, member, kind⟩ => ⟨event, queue event member kind, kind⟩

/-- The poll of another task changes nothing for it. -/
theorem Tends.beside {other : TaskId} {node : NodeId} (tends : Tends host g task party holding)
    (beside : g.Beside other node after) (apart : task ≠ other)
    (away : host.deployment.address party ≠ node) : Tends host after task party holding where
  owns := tends.owns.beside beside apart
  alone := beside.listed _ away ▸ tends.alone
  rests := by
    rw [beside.listed _ away, beside.inboxes _ away]
    exact tends.rests.imp_left fun ⟨event, member, kind⟩ => ⟨event, beside.queue event member, kind⟩

theorem Fair.tick (fair : Fair host barred base g system) (time : SimTime) :
    Fair host barred base g { system with now := time } :=
  { fair with }

section Pop

variable {event : Keyed} {queue : EventQueue} (popped : g.queue.pop = some (event, queue))
include popped

/-- Events of other kinds stay. -/
theorem stays_queued {kind : EventKind} (other : event.kind ≠ kind) (queued : Keyed)
    (member : queued ∈ g.queue) (same : queued.kind = kind) : queued ∈ queue := by
  rcases (KeyedQueue.mem_of_pop popped queued).mp member with rfl | later
  · exact absurd same other
  · exact later

theorem Tends.accept (tends : Tends host g task party holding) {sender receiver : NodeId}
    {msg : Message} (kind : event.kind = .deliverMsg sender receiver msg) {seq : Nat}
    {queue' : EventQueue} (stays : ∀ other ∈ queue, other ∈ queue')
    (wakes : ∀ own ∈ g.listed receiver, ∃ other ∈ queue', other.kind = .pollTask own) :
    Tends host { Inner.arrived { g with queue, now := event.time } event sender receiver msg with
      seq, queue := queue' } task party holding := by
  have kept (queued : Keyed) (member : queued ∈ g.queue) (same : queued.kind = .pollTask task) :
      queued ∈ queue' :=
    stays queued (stays_queued popped (by rw [kind]; rintro ⟨⟩) queued member same)
  have listed := Inner.listed_arrived { g with queue, now := event.time } event sender receiver msg
  have inbox := Inner.inbox_arrived { g with queue, now := event.time } event sender receiver msg
  by_cases here : host.deployment.address party = receiver
  · subst here
    refine ⟨tends.owns.of_futures rfl, fun other member => ?_, .inl ?_⟩
    · change other ∈ (Inner.arrived { g with queue, now := event.time } event sender _ msg).listed _
        at member
      rw [listed, if_pos rfl] at member
      exact absurd member List.not_mem_nil
    · rcases tends.rests with ⟨queued, member, same⟩ | ⟨_, waiting, _⟩
      · exact ⟨queued, kept queued member same, same⟩
      · exact wakes task waiting
  · exact tends.keep rfl ((listed _).trans (if_neg here)) ((inbox _).trans (if_neg here)) kept

variable [DecidableEq Party] {count : Nat}

theorem Lively.tick (lively : Lively host barred base g count system returned) :
    ReachedIn host.deployment host.system (Passes barred true) count
      { system with now := event.time } := by
  have happens : Happens host.deployment system (.tick event.time)
      { system with now := event.time } :=
    .tick (lively.mirrors.medium.now ▸ lively.mirrors.medium.not_before popped)
  have allowed : Passes barred true system (.tick event.time : Event Party _ _ _) := trivial
  exact lively.reached.step allowed happens

/-- A message that is no party's, or that a link holds up. -/
theorem Lively.drop (lively : Lively host barred base g count system returned)
    {sender receiver : NodeId} {msg : Message}
    (kind : event.kind = .deliverMsg sender receiver msg) (reason : DropKind)
    (spares : ∀ party, receiver = host.deployment.address party → barred sender receiver) :
    Lively host barred base
      (Inner.dropDelivery { g with queue, now := event.time } event sender receiver reason) count
      { system with now := event.time } returned where
  reached := lively.tick popped
  mirrors := (lively.mirrors.pop popped).quiet
    ⟨Inner.Fades.still rfl rfl rfl rfl rfl rfl, Inner.Stays.still rfl rfl rfl rfl rfl, rfl⟩
  fair := by
    have delivery : Inner.isDelivery event = true := by rw [Inner.isDelivery, kind]
    have spent : g.dispatched + 1 ≤ g.dispatched + Inner.weight event := by
      rw [Inner.weight, if_pos delivery]
      exact Nat.le_succ _
    have fair := lively.fair.pop popped spent fun sender' party msg' same => by
      cases kind.symm.trans same
      exact spares party rfl
    exact (fair.tick _).still rfl rfl rfl rfl rfl fair.short rfl rfl
  allotted := lively.allotted
  attended party absent := by
    obtain ⟨task, point, holding, present, tends⟩ := lively.attended party absent
    exact ⟨task, point, holding, present,
      tends.keep rfl rfl rfl (stays_queued popped (by rw [kind]; rintro ⟨⟩))⟩

theorem Lively.accept (lively : Lively host barred base g count system returned)
    {sender receiver : NodeId} {msg : Message}
    (kind : event.kind = .deliverMsg sender receiver msg) (passes : ¬ barred sender receiver)
    (early : event.time.toNat < u64Max) :
    Lively host barred base
      (Inner.acceptDelivery { g with queue, now := event.time } event sender receiver msg) count
      { system with now := event.time } returned where
  reached := lively.tick popped
  mirrors := lively.mirrors.accept popped g.tape kind passes early
  fair := (lively.fair.accept popped kind).tick _
  allotted := by
    obtain ⟨seq, queue', shape, _⟩ := Inner.acceptDelivery_shape { g with queue, now := event.time }
      event sender receiver msg
    rw [shape]
    exact lively.allotted
  attended party absent := by
    obtain ⟨task, point, holding, present, tends⟩ := lively.attended party absent
    obtain ⟨seq, queue', shape, stays, wakes⟩ :=
      Inner.acceptDelivery_shape { g with queue, now := event.time } event sender receiver msg
    rw [shape]
    exact ⟨task, point, holding, present, tends.accept popped kind stays wakes⟩

theorem Lively.deliver (lively : Lively host barred base g count system returned)
    {sender receiver : NodeId} {msg : Message}
    (kind : event.kind = .deliverMsg sender receiver msg) (early : event.time.toNat < u64Max) :
    Lively host barred base
      (Inner.deliverMsg { g with queue, now := event.time } event sender receiver msg) count
      { system with now := event.time } returned := by
  have fair := lively.fair
  have up : ¬ (receiver ∈ g.crashed ∨ sender ∈ g.crashed) := by
    rw [fair.up]
    simp
  by_cases unknown : receiver ∉ g.nodes
  · rw [Inner.deliverMsg, if_pos unknown]
    exact lively.drop popped kind _ fun party same => absurd (same ▸ fair.housed party) unknown
  by_cases apart : g.faults.connectivity.isConnected sender receiver = false
  · rw [Inner.deliverMsg, if_neg unknown, if_neg up, if_pos apart]
    refine lively.drop popped kind _ fun party same => ?_
    have queued := (KeyedQueue.mem_of_pop popped event).mpr (.inl rfl)
    rcases fair.plain event queued with ⟨task, polls⟩ | ⟨own, other, text, sent⟩
    · cases kind.symm.trans polls
    · cases kind.symm.trans sent
      subst same
      by_contra passes
      cases apart.symm.trans (fair.linked own party passes)
  · rw [Inner.deliverMsg, if_neg unknown, if_neg up, if_neg apart, fair.certain]
    exact lively.accept popped kind (fun bars => apart (fair.cut sender receiver bars)) early

/-- A poll of the task of a party has begun. -/
structure Begins (g : Hosted Local) (queue : EventQueue) (task : TaskId) (node : NodeId)
    (begun : Hosted Local) : Prop where
  tasks : begun.tasks = g.tasks.insert task ⟨node, none⟩
  queue : begun.queue = queue
  futures : begun.futures = g.futures
  inboxes : begun.inboxes = g.inboxes
  recvWaiters : begun.recvWaiters = g.recvWaiters

section Poll

variable {point : Local party} {begun last : Hosted Local}
  (kind : event.kind = .pollTask task)
  (present : g.tasks.get task =
    some ⟨host.deployment.address party, some ⟨⟨party, point, holding⟩, none⟩⟩)
  (begins : Begins g queue task (host.deployment.address party) begun)
  (beside : begun.Beside task (host.deployment.address party) last)
include kind present begins beside

omit [DecidableEq Party] in
/-- The poll of one party leaves the others attended. -/
theorem Attended.past {own : Party} (attended : Attended host g own) (different : own ≠ party)
    (slots : ∀ other, other ≠ task → after.tasks.get other = last.tasks.get other)
    (futures : after.futures = last.futures) (recvWaiters : after.recvWaiters = last.recvWaiters)
    (inboxes : after.inboxes = last.inboxes) (rest : after.queue = last.queue) :
    Attended host after own := by
  obtain ⟨other, point', holding', present', tends⟩ := attended
  have apart : other ≠ task := by
    rintro rfl
    have home := congrArg TaskSlot.node (Option.some.inj (present.symm.trans present'))
    exact different (host.apart home).symm
  have away : host.deployment.address own ≠ host.deployment.address party :=
    fun same => different (host.apart same)
  have kept : Tends host begun other own holding' := by
    refine tends.keep begins.futures (by rw [Inner.listed, begins.recvWaiters, Inner.listed])
      (by rw [Inner.inbox, begins.inboxes, Inner.inbox]) fun queued member same => ?_
    rw [begins.queue]
    refine stays_queued popped ?_ queued member same
    rw [kind]
    rintro ⟨⟩
    exact apart rfl
  have later := kept.beside beside apart away
  refine ⟨other, point', holding', ?_, ?_⟩
  · rw [slots other apart, beside.tasks, begins.tasks, SortedMap.get_insert_of_ne _ _ apart]
    exact present'
  · exact later.keep futures (by rw [Inner.listed, recvWaiters, Inner.listed])
      (by rw [Inner.inbox, inboxes, Inner.inbox]) fun queued member _ => rest ▸ member

/-- The party waits. -/
theorem Lively.parks {system' : System NodeId String SimTime Local} {count' : Nat}
    {point' : Local party} {id : FutureId}
    (attended : ∀ own, own ∉ returned → Attended host g own)
    (reached : ReachedIn host.deployment host.system (Passes barred true) count' system')
    (active : Active host barred base returned task party last system' point')
    (waits : Waits host last task party point' id) (owns : last.Owns task (some id))
    (listed : task ∈ last.listed (host.deployment.address party))
    (empty : last.inbox (host.deployment.address party) = []) :
    Lively host barred base (last.parkTask task ⟨⟨party, point', some id⟩, none⟩) count' system'
      returned := by
  have slot : last.tasks.get task = some ⟨host.deployment.address party, none⟩ := by
    rw [beside.tasks, begins.tasks, SortedMap.get_insert_self]
  have tasks : (last.parkTask task ⟨⟨party, point', some id⟩, none⟩).tasks = last.tasks.insert task
      ⟨host.deployment.address party, some ⟨⟨party, point', some id⟩, none⟩⟩ := by
    rw [Inner.parkTask, slot]
  refine ⟨reached, active.park (by rintro _ ⟨⟩; exact waits),
    active.fair.still rfl rfl rfl rfl rfl active.fair.short rfl rfl, active.allotted, ?_⟩
  intro own absent
  by_cases same : own = party
  · subst same
    refine ⟨task, point', some id, ?_, owns.of_futures rfl, active.alone,
      .inr ⟨Option.some_ne_none id, listed, empty⟩⟩
    rw [tasks, SortedMap.get_insert_self]
  · refine (attended own absent).past popped kind present begins beside same (fun other apart => ?_) rfl
      rfl rfl rfl
    rw [tasks, SortedMap.get_insert_of_ne _ _ apart]

/-- The party returns. -/
theorem Lively.returns {system' : System NodeId String SimTime Local} {count' : Nat}
    {point' : Local party} (attended : ∀ own, own ∉ returned → Attended host g own)
    (reached : ReachedIn host.deployment host.system (Passes barred true) count' system')
    (active : Active host barred base returned task party last system' point')
    (owns : last.Owns task none) (ended : host.deployment.code party point' = .ended) :
    Lively host barred base
      (Inner.finishTask { last with history := last.history ++ host.results party point' } task none
        ()) count' system' (returned ++ [party]) := by
  have none_ : Inner.ownedBy { last with history := last.history ++ host.results party point' } task =
      [] := by
    refine List.eq_nil_iff_forall_not_mem.mpr fun id member => ?_
    obtain ⟨held, found, owner⟩ := (Inner.mem_ownedBy _ _ _).mp member
    cases owns.only id held found owner
  have mirrors := active.finish ended
  rw [Inner.finishTask, none_] at mirrors ⊢
  refine ⟨reached, mirrors, active.fair.still rfl rfl rfl rfl rfl active.fair.short rfl rfl,
    active.allotted, ?_⟩
  intro own absent
  have before : own ∉ returned := fun member => absent (List.mem_append_left _ member)
  have different : own ≠ party := by
    rintro rfl
    exact absent (List.mem_append_right _ (List.mem_singleton_self _))
  refine (attended own before).past popped kind present begins beside different
    (fun other apart => ?_) rfl rfl rfl rfl
  exact SortedMap.get_remove_of_ne _ apart

end Poll

/-- A poll of a task that is gone. -/
theorem Lively.idle (lively : Lively host barred base g count system returned)
    (kind : event.kind = .pollTask task)
    (vacant : ∀ slot, g.tasks.get task = some slot → slot.future = none) :
    Lively host barred base { g with queue, now := event.time } count
      { system with now := event.time } returned where
  reached := lively.tick popped
  mirrors := lively.mirrors.pop popped
  fair := by
    have fair := lively.fair.pop popped (Nat.le_add_right g.dispatched _) fun _ _ _ same =>
      by cases kind.symm.trans same
    exact fair.tick _
  allotted := lively.allotted
  attended party absent := by
    obtain ⟨own, point, holding, present, tends⟩ := lively.attended party absent
    refine ⟨own, point, holding, present, tends.keep rfl rfl rfl (stays_queued popped ?_)⟩
    rw [kind]
    rintro ⟨⟩
    cases vacant _ present

theorem Lively.poll {steps pace : Nat} (brief : Brief host barred steps most) (enough : steps ≤ pace)
    (lively : Lively host barred base g count system returned) (kind : event.kind = .pollTask task) :
    ∃ count' system' returned', Lively host barred base
      (Inner.pollTask (host.program pace) { g with queue, now := event.time } event task) count'
      system' returned' := by
  have mirrors := lively.mirrors.pop popped
  unfold Inner.pollTask
  split
  next absent =>
    exact ⟨_, _, _, lively.idle popped kind fun slot present => by cases absent.symm.trans present⟩
  next slot present =>
    split
    next none_ =>
      refine ⟨_, _, _, lively.idle popped kind fun slot' present' => ?_⟩
      cases present.symm.trans present'
      exact none_
    next future ready =>
      obtain ⟨⟨party, point, holding⟩, free⟩ := future
      have seated := mirrors.seating.seats task slot _ present ready
      cases seated.free
      have absent (member : party ∈ returned) : False :=
        (mirrors.seating.gone party member).2.2 task slot present seated.home
      obtain ⟨own, point', holding', present', tends⟩ := lively.attended party absent
      cases mirrors.seating.alone own task _ slot present' present seated.home.symm
      cases present.symm.trans present'
      cases ready
      obtain ⟨running, waits⟩ := begin_running event present rfl mirrors
      have one : g.dispatched + 1 ≤ g.dispatched + Inner.weight event := by
        rw [Inner.weight]
        split_ifs <;> omega
      have fair := lively.fair.pop popped one fun _ _ _ same => by
        cases kind.symm.trans same
      have active : Active host barred base returned task party _ _ _ :=
        ⟨running, (fair.tick _).still rfl rfl rfl rfl rfl fair.short rfl rfl, lively.allotted,
          tends.alone⟩
      have pauses := program_pauses brief enough (lively.tick popped) active waits
        (tends.owns.of_futures rfl)
      dsimp only
      have up : host.deployment.address party ∉ g.crashed := by
        rw [lively.fair.up]
        exact Finset.notMem_empty _
      rw [if_neg up]
      have begins : Begins g queue task (host.deployment.address party)
          (Inner.beginPoll (Inner.countDispatch { g with
            queue, now := event.time
            tasks := g.tasks.insert task ⟨host.deployment.address party, none⟩ }
            (.dispatched event)) task) :=
        ⟨rfl, rfl, rfl, rfl, rfl⟩
      generalize Inner.exec _ _ = result at pauses ⊢
      cases pauses with
      | parks reached active waits owns listed empty beside =>
          exact ⟨_, _, _, .parks popped kind present begins beside lively.attended reached active waits
            owns listed empty⟩
      | returns reached active owns ended beside =>
          exact ⟨_, _, _, .returns popped kind present begins beside lively.attended reached active owns
            ended⟩

theorem Lively.turn {steps pace : Nat} (brief : Brief host barred steps most) (enough : steps ≤ pace)
    (lively : Lively host barred base g count system returned) (within : g.trips event = false)
    (finite : g.config.horizonNs.toNat < u64Max) :
    ∃ count' system' returned', Lively host barred base
      (Inner.dispatch (host.program pace) { g with queue, now := event.time } event) count' system'
      returned' := by
  have queued := (KeyedQueue.mem_of_pop popped event).mpr (.inl rfl)
  rcases lively.fair.plain event queued with ⟨task, kind⟩ | ⟨sender, receiver, msg, kind⟩
  · obtain ⟨count', system', returned', next⟩ := lively.poll popped brief enough kind
    refine ⟨count', system', returned', ?_⟩
    rw [Inner.dispatch, kind]
    exact next
  · have inside : event.time ≤ g.config.horizonNs := by
      simp only [Inner.trips, Bool.or_eq_false_iff, decide_eq_false_iff_not] at within
      exact UInt64.not_lt.mp within.1
    have early := (UInt64.le_iff_toNat_le.mp inside).trans_lt finite
    refine ⟨count, { system with now := event.time }, returned, ?_⟩
    rw [Inner.dispatch, kind]
    exact lively.deliver popped kind early

end Pop

/-! The run. -/

section Runs

variable [DecidableEq Party] {count steps pace : Nat}

/-- The horizon and the event budget are not reached by so many sends. -/
structure Roomy (config : WorldConfig) (base most : Nat) : Prop where
  horizon : most * spanNanos ≤ config.horizonNs.toNat
  finite : config.horizonNs.toNat < u64Max
  budget : base + 2 * most < config.maxEvents

theorem Lively.within (brief : Brief host barred steps most) (roomy : Roomy g.config base most)
    (lively : Lively host barred base g count system returned) {event : Keyed} {queue : EventQueue}
    (popped : g.queue.pop = some (event, queue)) : g.trips event = false := by
  have few := brief.sends count system lively.reached
  have queued := (KeyedQueue.mem_of_pop popped event).mpr (.inl rfl)
  have early := lively.fair.clock event queued
  have work := lively.fair.work
  have span := Nat.mul_le_mul_right spanNanos few
  have heavy : 1 ≤ Inner.weight event := by
    rw [Inner.weight]
    split_ifs <;> omega
  have horizon := roomy.horizon
  have budget := roomy.budget
  rw [Inner.load_of_pop popped] at work
  rw [Inner.trips, Bool.or_eq_false_iff, decide_eq_false_iff_not, decide_eq_false_iff_not,
    UInt64.lt_iff_toNat_lt]
  constructor <;> omega

/-- Nothing is queued, so the parties that have not ended wait for what was never sent. -/
theorem Lively.settled (brief : Brief host barred steps most)
    (lively : Lively host barred base g count system returned) (empty : g.queue.entries = []) :
    Settled host.deployment barred system ∧
      ∀ party, host.deployment.code party (system.locals party) = .ended → party ∈ returned := by
  have waiting (party : Party) (absent : party ∉ returned) :
      g.inbox (host.deployment.address party) = [] ∧
        ∃ next, host.deployment.code party (system.locals party) = .recv next := by
    obtain ⟨task, point, holding, present, tends⟩ := lively.attended party absent
    rcases tends.rests with ⟨event, member, _⟩ | ⟨some_, _, inbox⟩
    · rw [KeyedQueue.mem_def, empty] at member
      exact absurd member List.not_mem_nil
    · obtain ⟨id, rfl⟩ := Option.ne_none_iff_exists'.mp some_
      obtain ⟨held, found, owner⟩ := tends.owns.kept id rfl
      have seated := lively.mirrors.seating.seats task _ _ present rfl
      have here : system.locals party = point := seated.here
      have awake := brief.awake count system party lively.reached
      rw [here] at awake ⊢
      obtain ⟨next, _, code, _⟩ := waits_recv awake (seated.waits id rfl) found owner
      exact ⟨inbox, next, code⟩
  constructor
  · intro party
    by_cases member : party ∈ returned
    · exact .inl (lively.mirrors.seating.gone party member).1
    · obtain ⟨inbox, next, code⟩ := waiting party member
      refine .inr ⟨next, code, fun sender msg passes => ?_⟩
      have kept := lively.fair.kept sender party msg passes
      have idle : g.inFlight = 0 := by
        rw [Inner.inFlight, KeyedQueue.select, empty]
        rfl
      rw [Inner.underWay, idle, inbox] at kept
      simpa using kept
  · intro party ended
    by_contra absent
    obtain ⟨_, next, code⟩ := waiting party absent
    cases ended.symm.trans code

/-- The run stops by itself, and then nothing more can happen. -/
theorem Lively.run (brief : Brief host barred steps most) (enough : steps ≤ pace)
    (roomy : Roomy g.config base most) (lively : Lively host barred base g count system returned) :
    ∃ count' system' returned',
      (Inner.run (host.program pace) g).stop = .quiesced ∧
      (Inner.run (host.program pace) g).world.config = g.config ∧
      Lively host barred base (Inner.run (host.program pace) g).world count' system' returned' ∧
      Settled host.deployment barred system' ∧
      ∀ party, party ∈ returned' ↔ host.deployment.code party (system'.locals party) = .ended := by
  obtain ⟨events, last, turns, stopped⟩ := Inner.run_stops (host.program pace) g
  have kept : last.config = g.config ∧
      ∃ count system returned, Lively host barred base last count system returned := by
    refine KeyedQueue.runs_keep (fun after : Hosted Local => after.config = g.config ∧
      ∃ count system returned, Lively host barred base after count system returned) ?_
      ⟨rfl, count, system, returned, lively⟩ turns
    rintro before event after ⟨same, count, system, returned, lively⟩ turned
    obtain ⟨queue, popped, within, rfl⟩ := Inner.next_shape _ before after event turned
    have config := (Inner.dispatch_progress (host.program pace)
      { before with queue, now := event.time } event).1
    exact ⟨config.trans same,
      lively.turn popped brief enough within (same.symm ▸ roomy.finite)⟩
  obtain ⟨same, count, system, returned, lively⟩ := kept
  rcases stopped with ⟨quiet, ended⟩ | ⟨event, next, aborted, _⟩
  · rw [ended]
    obtain ⟨settled, ends⟩ := lively.settled brief ((Inner.turn_quiesce _ _).mp quiet)
    refine ⟨count, system, returned, rfl, same, lively, settled,
      fun party => ⟨fun member => ?_, ends party⟩⟩
    exact (lively.mirrors.seating.gone party member).1
  · obtain ⟨queue, popped, trips, _⟩ := Inner.abort_shape _ last next event aborted
    cases trips.symm.trans (lively.within brief (same.symm ▸ roomy) popped)

/-- A world without faults in which nothing has happened yet. -/
structure Untouched (g : Hosted Local) : Prop where
  up : g.crashed = ∅
  certain : g.faults.dropPercent = 0
  single : g.faults.duplicatePercent = 0
  prompt : g.faults.extraDelayMs = 0
  steady : ∀ node, g.skewOf node = 0
  now : g.now = 0
  read : ∀ node, g.lastLocalNow.get node = none
  listed : ∀ node, g.listed node = []
  futures : ∀ id, g.futures.get id = none
  history : g.history = []

/-- And the parties were added to it. -/
structure Ready (host : Host Party Local) (barred : NodeId → NodeId → Prop) (base : Nat)
    (seat : Party → TaskId) (g : Hosted Local) : Prop extends Untouched g where
  linked : ∀ sender receiver,
    ¬ barred (host.deployment.address sender) (host.deployment.address receiver) →
      g.faults.connectivity.isConnected (host.deployment.address sender)
        (host.deployment.address receiver) = true
  cut : ∀ sender receiver, barred sender receiver →
    g.faults.connectivity.isConnected sender receiver = false
  housed : ∀ party, host.deployment.address party ∈ g.nodes
  tasks : ∀ task slot, g.tasks.get task = some slot ↔ ∃ party, task = seat party ∧
    slot = ⟨host.deployment.address party, some ⟨⟨party, host.start party, none⟩, none⟩⟩
  polled : ∀ party, ∃ event ∈ g.queue, event.kind = .pollTask (seat party)
  polls : ∀ event ∈ g.queue, event.time = 0 ∧ ∃ task, event.kind = .pollTask task
  inboxes : ∀ node, g.inbox node = []
  work : g.dispatched + g.queue.entries.length ≤ base

section Ready

variable {seat : Party → TaskId} (ready : Ready host barred base seat g)
include ready

omit [DecidableEq Party] in
theorem Ready.inFlight : g.inFlight = 0 := by
  refine Multiset.eq_zero_of_forall_notMem fun event member => ?_
  rw [Inner.inFlight, KeyedQueue.select, Multiset.mem_coe, List.mem_filter] at member
  obtain ⟨_, task, kind⟩ := ready.polls event member.1
  rw [Inner.isDelivery, kind] at member
  cases member.2

omit [DecidableEq Party] in
theorem Ready.mirrors : Mirrors host barred true g host.system [] where
  medium := {
    now := ready.now.symm
    steady := ready.steady
    read := fun node last present => by cases (ready.read node).symm.trans present
    ahead := fun event member => by rw [ready.now, (ready.polls event member).1]; exact UInt64.le_refl 0
    flying := fun event member sender receiver msg kind => by
      obtain ⟨_, task, polls⟩ := ready.polls event member
      cases polls.symm.trans kind
    landed := fun node sender msg member => by
      rw [ready.inboxes] at member
      exact absurd member List.not_mem_nil
    counted := fun _ => ⟨ready.single, fun sender receiver msg => by
      rw [Inner.underWay, ready.inFlight, ready.inboxes]
      exact le_rfl⟩ }
  seating := {
    fresh := fun _ _ => rfl
    seats := fun task slot future present filled => by
      obtain ⟨party, _, rfl⟩ := (ready.tasks task slot).mp present
      cases filled
      exact ⟨rfl, rfl, rfl, fun _ absent => absurd absent (Option.some_ne_none _).symm⟩
    alone := fun task other slot slot' first second same => by
      obtain ⟨party, rfl, rfl⟩ := (ready.tasks task slot).mp first
      obtain ⟨party', rfl, rfl⟩ := (ready.tasks other slot').mp second
      rw [host.apart same]
    housed := fun task slot present => by
      obtain ⟨party, _, rfl⟩ := (ready.tasks task slot).mp present
      exact ready.housed party
    history := ready.history
    once := List.nodup_nil
    gone := fun _ absent => absurd absent List.not_mem_nil }

theorem Ready.lively : Lively host barred base g 0 host.system [] where
  reached := .start
  mirrors := ready.mirrors
  fair := {
    up := ready.up
    certain := ready.certain
    single := ready.single
    prompt := ready.prompt
    linked := ready.linked
    cut := ready.cut
    housed := ready.housed
    plain := fun event member => .inl (ready.polls event member).2
    short := fun node => by rw [ready.listed]; exact Nat.zero_le 1
    now := by rw [ready.now]; exact Nat.zero_le _
    clock := fun event member => by rw [(ready.polls event member).1]; exact Nat.zero_le _
    work := by
      have light := Inner.load_polls fun event member => by
        obtain ⟨_, task, kind⟩ := ready.polls event member
        rw [Inner.isDelivery, kind]
      exact (Nat.add_le_add_left light _).trans ready.work
    kept := fun _ _ _ _ => Nat.zero_le _ }
  allotted id held present := by cases (ready.futures id).symm.trans present
  attended party _ := by
    refine ⟨seat party, host.start party, none, (ready.tasks _ _).mpr ⟨party, rfl, rfl⟩, ?_, ?_, ?_⟩
    · exact ⟨fun _ absent => absurd absent (Option.some_ne_none _).symm,
        fun id held present => by cases (ready.futures id).symm.trans present⟩
    · intro other member
      rw [ready.listed] at member
      exact absurd member List.not_mem_nil
    · exact .inl (ready.polled party)

end Ready

omit [DecidableEq Party] in
/-- Neither the horizon nor the budget stopped the run. -/
theorem Fair.unspent (fair : Fair host barred base g system) (few : system.sent.length ≤ most)
    (roomy : Roomy g.config base most) : g.spent = false := by
  have span := Nat.mul_le_mul_right spanNanos few
  have now := fair.now
  have work := fair.work
  have horizon := roomy.horizon
  have budget := roomy.budget
  rw [Inner.spent, Bool.or_eq_false_iff, decide_eq_false_iff_not, decide_eq_false_iff_not,
    UInt64.lt_iff_toNat_lt]
  exact ⟨by omega, by omega⟩

/-- What is to be said of a world in which the parties have come to rest. -/
structure Rests (host : Host Party Local) (barred : NodeId → NodeId → Prop) (g : Hosted Local)
    (count : Nat) (system : System NodeId String SimTime Local) (returned : List Party) : Prop where
  reached : ReachedIn host.deployment host.system (Passes barred true) count system
  shows : Shows host g system returned
  settled : Settled host.deployment barred system
  ended : ∀ party,
    party ∈ returned ↔ host.deployment.code party (system.locals party) = .ended

theorem Ready.rests {seat : Party → TaskId} (ready : Ready host barred base seat g)
    (brief : Brief host barred steps most) (enough : steps ≤ pace)
    (roomy : Roomy g.config base most) :
    (Inner.run (host.program pace) g).stop = .quiesced ∧
      (Inner.run (host.program pace) g).world.spent = false ∧
      ∃ count system returned,
        Rests host barred (Inner.run (host.program pace) g).world count system returned := by
  obtain ⟨count, system, returned, quiesced, config, lively, settled, ends⟩ :=
    ready.lively.run brief enough roomy
  have few := brief.sends count system lively.reached
  exact ⟨quiesced, lively.fair.unspent few (config ▸ roomy), count, system, returned, lively.reached,
    lively.mirrors.shows, settled, ends⟩

/-- In a world that is fair to its parties a run stops by itself, whatever is drawn. Each
party has then ended, and shows its results, or waits for what was never sent to it. -/
theorem fair_run_settles (host : Host Party Local) (barred : NodeId → NodeId → Prop)
    (base most steps pace : Nat) (seat : Party → TaskId) (g : Hosted Local)
    (ready : Ready host barred base seat g) (brief : Brief host barred steps most)
    (enough : steps ≤ pace) (roomy : Roomy g.config base most) :
    (Inner.run (host.program pace) g).stop = .quiesced ∧
      (Inner.run (host.program pace) g).world.spent = false ∧
      ∃ system returned,
        ReachedUnder host.deployment host.system (Passes barred true) system ∧
        Shows host (Inner.run (host.program pace) g).world system returned ∧
        Settled host.deployment barred system ∧
        ∀ party, party ∈ returned ↔ host.deployment.code party (system.locals party) = .ended := by
  obtain ⟨quiesced, unspent, count, system, returned, rests⟩ := ready.rests brief enough roomy
  exact ⟨quiesced, unspent, system, returned, rests.reached.reached, rests.shows, rests.settled,
    rests.ended⟩

end Runs

end Hosting

end Detersim
