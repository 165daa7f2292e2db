import Detersim.HostedPolls
import Detersim.Reachable

/-!
Every run of a world that hosts the parties is one of the datagram model: what the
world records, and where its tasks stand, is what the parties could have come to.
-/

namespace Detersim.Hosting

open Datagrams

variable {Party : Type} {Local : Party → Type} {host : Host Party Local}
  {barred : NodeId → NodeId → Prop} {single : Bool} {g after : Hosted Local}
  {system : System NodeId String SimTime Local} {returned : List Party}

/-- The same nodes and futures, with tasks that are at their parties' points. -/
theorem Seating.retask (seating : Seating host g system returned)
    (tasks : SortedMap TaskId (TaskSlot (Seat Local)))
    (seats : ∀ task slot, tasks.get task = some slot → ∃ old, g.tasks.get task = some old ∧
      old.node = slot.node ∧ ∀ future, slot.future = some future →
        old.future = some future ∨ Seated host g system task slot future) :
    Seating host { g with tasks } system returned where
  fresh := seating.fresh
  seats task slot future present ready := by
    obtain ⟨old, before, home, filled⟩ := seats task slot present
    have seated : Seated host g system task slot future := by
      rcases filled future ready with same | new
      · have seated := seating.seats task old future before same
        exact { seated with home := home ▸ seated.home }
      · exact new
    exact { seated with waits := fun id holding =>
      ⟨(seated.waits id holding).below, (seated.waits id holding).fits⟩ }
  alone task other slot slot' first second same := by
    obtain ⟨old, before, home, _⟩ := seats task slot first
    obtain ⟨old', before', home', _⟩ := seats other slot' second
    exact seating.alone task other old old' before before' ((home.trans same).trans home'.symm)
  housed task slot present := by
    obtain ⟨old, before, home, _⟩ := seats task slot present
    exact home ▸ seating.housed task old before
  history := seating.history
  once := seating.once
  gone party member := by
    obtain ⟨ended, known, vacant⟩ := seating.gone party member
    refine ⟨ended, known, fun task slot present => ?_⟩
    obtain ⟨old, before, home, _⟩ := seats task slot present
    exact home ▸ vacant task old before

/-- The future of a task is taken out of its slot. -/
theorem Seating.take (seating : Seating host g system returned) {task : TaskId}
    {slot : TaskSlot (Seat Local)} (present : g.tasks.get task = some slot) :
    Seating host { g with tasks := g.tasks.insert task { slot with future := none } } system
      returned := by
  refine seating.retask _ fun other slot' found => ?_
  rw [SortedMap.get_insert] at found
  split_ifs at found with same
  · cases found
    exact ⟨slot, same ▸ present, rfl, nofun⟩
  · exact ⟨slot', found, rfl, fun _ ready => Or.inl ready⟩

/-- The relation between a world and the parties it hosts. -/
structure Mirrors (host : Host Party Local) (barred : NodeId → NodeId → Prop) (single : Bool)
    (g : Hosted Local) (system : System NodeId String SimTime Local) (returned : List Party) :
    Prop where
  medium : Medium host barred single g system
  seating : Seating host g system returned

theorem Mirrors.still (mirrors : Mirrors host barred single g system returned)
    (fades : g.Fades after) (stays : g.Stays after) :
    Mirrors host barred single after system returned :=
  ⟨mirrors.medium.fade fades, mirrors.seating.stay stays⟩

theorem Mirrors.quiet (mirrors : Mirrors host barred single g system returned)
    (quiet : g.Quiet after) : Mirrors host barred single after system returned :=
  mirrors.still quiet.fades quiet.stays

section Turns

variable [DecidableEq Party]

def Mirrored (host : Host Party Local) (barred : NodeId → NodeId → Prop) (single : Bool)
    (g : Hosted Local) : Prop :=
  ∃ system returned, ReachedUnder host.deployment host.system (Passes barred single) system ∧
    Mirrors host barred single g system returned

omit [DecidableEq Party] in
/-- The end of a poll that has to go on later. -/
theorem Running.park {task : TaskId} {party : Party} {point : Local party}
    {holding : Option FutureId}
    (running : Running host barred single returned task party g system point)
    (waits : ∀ id, holding = some id → Waits host g task party point id) :
    Mirrors host barred single (g.parkTask task ⟨⟨party, point, holding⟩, none⟩) system returned := by
  refine ⟨running.medium.fade (Inner.Fades.still rfl rfl rfl rfl rfl rfl), ?_⟩
  unfold Inner.parkTask
  cases present : g.tasks.get task with
  | none => exact running.seating.stay (Inner.Stays.still rfl rfl rfl rfl rfl)
  | some own =>
      have seating : Seating host { g with
          tasks := g.tasks.insert task { own with future := some ⟨⟨party, point, holding⟩, none⟩ } }
          system returned := by
        refine running.seating.retask _ fun other slot found => ?_
        rw [SortedMap.get_insert] at found
        split_ifs at found with same
        · cases found
          subst same
          refine ⟨own, present, rfl, fun future ready => Or.inr ?_⟩
          cases ready
          exact ⟨running.own own present, rfl, running.here, waits⟩
        · exact ⟨slot, found, rfl, fun _ ready => Or.inl ready⟩
      exact seating.stay (Inner.Stays.still rfl rfl rfl rfl rfl)

omit [DecidableEq Party] in
/-- The end of a party. -/
theorem Running.finish {task : TaskId} {party : Party} {point : Local party}
    (running : Running host barred single returned task party g system point)
    (ended : host.deployment.code party point = .ended) :
    Mirrors host barred single
      (Inner.finishTask { g with history := g.history ++ host.results party point } task none ())
      system (returned ++ [party]) := by
  have released := Inner.Quiet.releaseAll
    (Inner.ownedBy { g with history := g.history ++ host.results party point } task)
    { g with history := g.history ++ host.results party point }
  unfold Inner.finishTask
  dsimp only
  generalize (Inner.ownedBy { g with history := g.history ++ host.results party point } task).foldl
    Inner.release { g with history := g.history ++ host.results party point } = last at released
  have home : ∀ other slot, (last.tasks.remove task).get other = some slot →
      slot.node ≠ host.deployment.address party := by
    intro other slot present same
    rw [SortedMap.get_remove] at present
    split_ifs at present with own
    exact own (running.vacant other slot (released.stays.tasks other slot present) same).1
  constructor
  · have quiet : Inner.Fades g { last with currentTask := none, tasks := last.tasks.remove task } := by
      have recorded : g.Fades { g with history := g.history ++ host.results party point } :=
        Inner.Fades.still rfl rfl rfl rfl rfl rfl
      exact (recorded.trans released.fades).trans (Inner.Fades.still rfl rfl rfl rfl rfl rfl)
    exact running.medium.fade quiet
  · have seating := running.seating
    have gone (own : TaskId) (slot : TaskSlot (Seat Local))
        (present : (last.tasks.remove task).get own = some slot) : g.tasks.get own = some slot := by
      rw [SortedMap.get_remove] at present
      split_ifs at present
      exact released.stays.tasks own slot present
    constructor
    · exact fun own unknown => seating.fresh own (released.stays.nodes ▸ unknown)
    · intro own slot future present ready
      have seated := seating.seats own slot future (gone own slot present) ready
      refine { seated with waits := fun id holding => ?_ }
      have waits := seated.waits id holding
      refine ⟨waits.below.trans_le released.stays.nextFuture, fun held found owner => ?_⟩
      obtain ⟨old, before, owner', leaf⟩ := released.stays.futures id held found waits.below
      rw [waits.fits old before (owner'.trans owner), leaf]
    · exact fun own other slot slot' first second =>
        seating.alone own other slot slot' (gone _ _ first) (gone _ _ second)
    · exact fun own slot present =>
        released.stays.nodes ▸ seating.housed own slot (gone own slot present)
    · refine released.stays.history.trans ?_
      change g.history ++ _ = _
      rw [seating.history, List.flatMap_append, List.flatMap_singleton, running.here]
    · refine List.nodup_append.mpr ⟨seating.once, List.nodup_singleton party, ?_⟩
      rintro own member _ single rfl
      exact running.unreturned (List.mem_singleton.mp single ▸ member)
    · intro own member
      rcases List.mem_append.mp member with old | new
      · obtain ⟨done, known, vacant⟩ := seating.gone own old
        exact ⟨done, released.stays.nodes ▸ known,
          fun other slot present => vacant other slot (gone other slot present)⟩
      · cases List.mem_singleton.mp new
        exact ⟨running.here.symm ▸ ended, released.stays.nodes ▸ running.registered, home⟩

/-! One event. -/

omit [DecidableEq Party] in
/-- A poll begins. -/
theorem begin_running (event : Keyed) {task : TaskId} {slot : TaskSlot (Seat Local)}
    {future : TaskFuture (Seat Local)} (present : g.tasks.get task = some slot)
    (ready : slot.future = some future) (mirrors : Mirrors host barred single g system returned) :
    let begun := Inner.beginPoll (Inner.countDispatch { g with
      tasks := g.tasks.insert task { slot with future := none } } (.dispatched event)) task
    Running host barred single returned task future.state.party begun system future.state.point ∧
      ∀ id, future.state.holding = some id →
        Waits host begun task future.state.party future.state.point id := by
  have seated := mirrors.seating.seats task slot future present ready
  have stays : Inner.Stays { g with
        tasks := g.tasks.insert task { slot with future := none } }
      (Inner.beginPoll (Inner.countDispatch { g with
        tasks := g.tasks.insert task { slot with future := none } } (.dispatched event)) task) :=
    Inner.Stays.still rfl rfl rfl rfl rfl
  refine ⟨?_, ?_⟩
  · refine ⟨mirrors.medium.fade (Inner.Fades.still rfl rfl rfl rfl rfl rfl),
      (mirrors.seating.take present).stay stays, rfl, ?_, ?_, ?_, ?_, seated.here⟩
    · intro own found
      rw [show own = { slot with future := none } from
        Option.some.inj (found.symm.trans (SortedMap.get_insert_self _ _ _))]
      exact seated.home
    · intro other slot' found home
      change (g.tasks.insert task { slot with future := none }).get other = some slot' at found
      rw [SortedMap.get_insert] at found
      split_ifs at found with same
      · cases found
        exact ⟨same, rfl⟩
      · exact absurd (mirrors.seating.alone _ _ _ _ found present (home.trans seated.home.symm)) same
    · intro member
      exact (mirrors.seating.gone _ member).2.2 task slot present seated.home
    · exact seated.home ▸ mirrors.seating.housed task slot present
  · intro id holding
    have waits := seated.waits id holding
    exact ⟨waits.below, waits.fits⟩

/-- A poll of a task, once its event is popped. -/
theorem poll_mirrored (pace : Nat) (event : Keyed) (task : TaskId)
    (mirrored : Mirrored host barred single g) :
    Mirrored host barred single (Inner.pollTask (host.program pace) g event task) := by
  obtain ⟨system, returned, reached, mirrors⟩ := mirrored
  unfold Inner.pollTask
  split
  · exact ⟨system, returned, reached, mirrors⟩
  next slot present =>
    split
    · exact ⟨system, returned, reached, mirrors⟩
    next future ready =>
      have seated := mirrors.seating.seats task slot future present ready
      have seating := mirrors.seating.take present
      have medium : Medium host barred single
          { g with tasks := g.tasks.insert task { slot with future := none } } system :=
        mirrors.medium.fade (Inner.Fades.still rfl rfl rfl rfl rfl rfl)
      dsimp only
      split_ifs with down
      · exact ⟨system, returned, reached,
          (Mirrors.mk medium seating).quiet (Inner.Quiet.discard _ _)⟩
      · have running := begin_running event present ready mirrors
        generalize Inner.beginPoll (Inner.countDispatch { g with
          tasks := g.tasks.insert task { slot with future := none } } (.dispatched event)) task =
            begun at running
        obtain ⟨⟨party, point, holding⟩, free⟩ := future
        cases seated.free
        obtain ⟨running, waits⟩ := running
        have ends := program_ends pace reached running waits
        generalize begun.exec (host.program pace ⟨party, point, holding⟩) = result at ends ⊢
        cases ends with
        | parks reached running waits => exact ⟨_, _, reached, running.park waits⟩
        | returns reached running ended => exact ⟨_, _, reached, running.finish ended⟩

theorem fire_mirrored (event : Keyed) (timer : TimerId) (mirrored : Mirrored host barred single g) :
    Mirrored host barred single (Inner.fireTimer g event timer) := by
  obtain ⟨system, returned, reached, mirrors⟩ := mirrored
  refine ⟨system, returned, reached, mirrors.quiet ?_⟩
  unfold Inner.fireTimer
  split
  · exact Inner.Quiet.refl g
  next task _ =>
    have fired : Inner.Quiet g
        (Inner.countDispatch { g with timers := g.timers.remove timer } (.dispatched event)) :=
      ⟨Inner.Fades.still rfl rfl rfl rfl rfl rfl, Inner.Stays.still rfl rfl rfl rfl rfl, rfl⟩
    exact fired.trans (Inner.Quiet.enqueueAll [task] _)

/-! The event loop. -/

omit [DecidableEq Party] in
theorem Seating.tick (seating : Seating host g system returned) (time : SimTime) :
    Seating host g { system with now := time } returned where
  fresh := seating.fresh
  seats task slot future present ready := by
    have seated := seating.seats task slot future present ready
    exact ⟨seated.home, seated.free, seated.here, seated.waits⟩
  alone := seating.alone
  housed := seating.housed
  history := seating.history
  once := seating.once
  gone := seating.gone

section Pop

variable {event : Keyed} {queue : EventQueue} (popped : g.queue.pop = some (event, queue))
include popped

theorem tick_reached (reached : ReachedUnder host.deployment host.system (Passes barred single) system)
    (medium : Medium host barred single g system) :
    ReachedUnder host.deployment host.system (Passes barred single)
      { system with now := event.time } := by
  have happens : Happens host.deployment system (.tick event.time)
      { system with now := event.time } := .tick (medium.now ▸ medium.not_before popped)
  have allowed : Passes barred single system (.tick event.time : Event Party _ _ _) := trivial
  exact reached.step allowed happens

omit [DecidableEq Party] in
theorem Mirrors.pop (mirrors : Mirrors host barred single g system returned) :
    Mirrors host barred single { g with queue, now := event.time }
      { system with now := event.time } returned := by
  have seating : Seating host { g with queue, now := event.time } system returned :=
    mirrors.seating.stay (Inner.Stays.still rfl rfl rfl rfl rfl)
  exact ⟨mirrors.medium.pop popped, seating.tick _⟩

theorem pop_mirrored (mirrored : Mirrored host barred single g) :
    Mirrored host barred single { g with queue, now := event.time } := by
  obtain ⟨system, returned, reached, mirrors⟩ := mirrored
  exact ⟨_, returned, tick_reached popped reached mirrors.medium, mirrors.pop popped⟩

omit [DecidableEq Party] in
theorem Mirrors.accept {sender receiver : NodeId} {msg : Message} (tape : EntropyTape)
    (mirrors : Mirrors host barred single g system returned)
    (kind : event.kind = .deliverMsg sender receiver msg) (passes : ¬ barred sender receiver)
    (early : event.time.toNat < u64Max) :
    Mirrors host barred single
      (Inner.acceptDelivery { g with queue, now := event.time, tape } event sender receiver msg)
      { system with now := event.time } returned := by
  have medium := mirrors.medium.accept popped kind passes early
  have seating : Seating host { g with
      queue, now := event.time
      inboxes := g.inboxes.insert receiver ((g.inboxes.get receiver).getD [] ++ [(sender, msg)]) }
      system returned := mirrors.seating.stay (Inner.Stays.still rfl rfl rfl rfl rfl)
  refine (Mirrors.mk medium (seating.tick _)).quiet ?_
  unfold Inner.acceptDelivery
  refine Inner.Quiet.trans ?_ (Inner.Quiet.enqueueAll _ _)
  exact ⟨Inner.Fades.still rfl rfl rfl rfl rfl rfl, Inner.Stays.still rfl rfl rfl rfl rfl, rfl⟩

theorem deliver_mirrored {sender receiver : NodeId} {msg : Message}
    (mirrored : Mirrored host barred single g)
    (kind : event.kind = .deliverMsg sender receiver msg)
    (cut : barred sender receiver → g.faults.connectivity.isConnected sender receiver = false)
    (early : event.time.toNat < u64Max) :
    Mirrored host barred single
      (Inner.deliverMsg { g with queue, now := event.time } event sender receiver msg) := by
  have dropped (last : Hosted Local) (reason : DropKind)
      (still : Inner.Quiet { g with queue, now := event.time } last) :
      Mirrored host barred single (last.dropDelivery event sender receiver reason) := by
    obtain ⟨system, returned, reached, mirrors⟩ := pop_mirrored popped mirrored
    refine ⟨system, returned, reached, mirrors.quiet (still.trans ?_)⟩
    exact ⟨Inner.Fades.still rfl rfl rfl rfl rfl rfl, Inner.Stays.still rfl rfl rfl rfl rfl, rfl⟩
  by_cases unknown : receiver ∉ g.nodes
  · rw [Inner.deliverMsg, if_pos unknown]
    exact dropped _ _ (Inner.Quiet.refl _)
  by_cases down : receiver ∈ g.crashed ∨ sender ∈ g.crashed
  · rw [Inner.deliverMsg, if_neg unknown, if_pos down]
    exact dropped _ _ (Inner.Quiet.refl _)
  by_cases apart : g.faults.connectivity.isConnected sender receiver = false
  · rw [Inner.deliverMsg, if_neg unknown, if_neg down, if_pos apart]
    exact dropped _ _ (Inner.Quiet.refl _)
  rw [Inner.deliverMsg, if_neg unknown, if_neg down, if_neg apart]
  have moved := Inner.drawPercent_moves { g with queue, now := event.time } g.faults.dropPercent
    .dropDecision
  dsimp only
  generalize Inner.drawPercent { g with queue, now := event.time } g.faults.dropPercent
    .dropDecision = drawn at moved ⊢
  obtain ⟨lost, last⟩ := drawn
  obtain ⟨tape, _, _, rfl⟩ := moved
  cases lost with
  | true =>
      exact dropped _ _
        ⟨Inner.Fades.still rfl rfl rfl rfl rfl rfl, Inner.Stays.still rfl rfl rfl rfl rfl, rfl⟩
  | false =>
      obtain ⟨system, returned, reached, mirrors⟩ := mirrored
      exact ⟨_, returned, tick_reached popped reached mirrors.medium,
        mirrors.accept popped tape kind (fun cutOff => apart (cut cutOff)) early⟩

end Pop

theorem turn_mirrored {Plan : Type} (pace : Nat) {event : Keyed} {next : Hosted Local}
    (turned : Inner.turn (host.program pace) g = .next event next)
    (allowed : (conditions Plan host barred single).turn g event)
    (mirrored : Mirrored host barred single g) : Mirrored host barred single next := by
  obtain ⟨queue, popped, within, rfl⟩ := Inner.next_shape _ g next event turned
  obtain ⟨bounded, allowed⟩ := allowed
  have here := pop_mirrored popped mirrored
  unfold Inner.dispatch
  cases kind : event.kind with
  | timerFire timer => exact fire_mirrored event timer here
  | pollTask task => exact poll_mirrored pace event task here
  | deliverMsg sender receiver msg =>
      rw [kind] at allowed
      refine deliver_mirrored popped mirrored kind allowed ?_
      have inside : event.time ≤ g.config.horizonNs := by
        simp only [Inner.trips, Bool.or_eq_false_iff, decide_eq_false_iff_not] at within
        exact UInt64.not_lt.mp within.1
      exact (UInt64.le_iff_toNat_le.mp inside).trans_lt bounded
  | nemesis action =>
      rw [kind] at allowed
      obtain ⟨system, returned, reached, mirrors⟩ := here
      refine ⟨system, returned, reached, mirrors.quiet ?_⟩
      have noted : Inner.Quiet { g with queue, now := event.time }
          (Inner.countDispatch { g with queue, now := event.time } (.dispatched event)) :=
        ⟨Inner.Fades.still rfl rfl rfl rfl rfl rfl, Inner.Stays.still rfl rfl rfl rfl rfl, rfl⟩
      unfold Inner.dispatchNemesis
      dsimp only
      split
      · exact allowed.elim
      next other =>
        refine noted.trans (Inner.Quiet.nemesis _ other ?_)
        rintro node offsetNs rfl
        exact allowed

theorem abort_mirrored (pace : Nat) {event : Keyed} {next : Hosted Local}
    (aborted : Inner.turn (host.program pace) g = .abort event next)
    (mirrored : Mirrored host barred single g) : Mirrored host barred single next := by
  obtain ⟨queue, popped, _, rfl⟩ := Inner.abort_shape _ g next event aborted
  obtain ⟨system, returned, reached, mirrors⟩ := pop_mirrored popped mirrored
  refine ⟨system, returned, reached, mirrors.quiet ?_⟩
  split_ifs
  · exact ⟨Inner.Fades.still rfl rfl rfl rfl rfl rfl, Inner.Stays.still rfl rfl rfl rfl rfl, rfl⟩
  · exact Inner.Quiet.refl _

/-! Public operations. -/

omit [DecidableEq Party] in
theorem given_before {chosen : FutureId → Bool} {task : TaskId} {id : FutureId} {held : Held}
    (found : (g.give chosen task).futures.get id = some held) :
    g.futures.get id = some held ∨ held.owner = some task := by
  change (g.futures.mapValues _).get id = some held at found
  rw [SortedMap.get_mapValues] at found
  cases present : g.futures.get id with
  | none => simp [present] at found
  | some old =>
      rw [present, Option.map_some, Option.some.injEq] at found
      split_ifs at found
      · exact Or.inr (found ▸ rfl)
      · exact Or.inl (congrArg some found)

omit [DecidableEq Party] in
/-- The task of a party that was not there before. -/
theorem Seating.settle (seating : Seating host g system returned) {party : Party}
    (unknown : host.deployment.address party ∉ g.nodes)
    (young : ∀ task slot, g.tasks.get task = some slot → task < g.nextTaskId)
    (faults : FaultConfig) (inboxes : SortedMap NodeId (List (NodeId × Message)))
    (storage : SortedMap NodeId PageStore) (factories : SortedMap NodeId (NodeFactory (Seat Local) Unit))
    {factory : NodeFactory (Seat Local) Unit}
    (made : factory (host.deployment.address party) = .done ⟨party, host.start party, none⟩) :
    Seating host (Inner.spawnRegisteredNode
      { g with
        nodes := insert (host.deployment.address party) g.nodes, faults, inboxes, storage, factories }
      (host.deployment.address party) factory) system returned := by
  unfold Inner.spawnRegisteredNode
  rw [made]
  -- Every task but the new one was there, at a node that was known.
  have cases (task : TaskId) (slot : TaskSlot (Seat Local))
      (present : (g.tasks.insert g.nextTaskId ⟨host.deployment.address party,
        some ⟨⟨party, host.start party, none⟩, none⟩⟩).get task = some slot) :
      task = g.nextTaskId ∧ slot = ⟨host.deployment.address party,
        some ⟨⟨party, host.start party, none⟩, none⟩⟩ ∨
      task < g.nextTaskId ∧ g.tasks.get task = some slot ∧
        slot.node ≠ host.deployment.address party := by
    rw [SortedMap.get_insert] at present
    split_ifs at present with same
    · exact Or.inl ⟨same, (Option.some.inj present).symm⟩
    · exact Or.inr ⟨young task slot present, present,
        fun home => unknown (home ▸ seating.housed task slot present)⟩
  constructor
  · intro own absent
    exact seating.fresh own fun member => absent (Finset.mem_insert_of_mem member)
  · intro task slot future present ready
    rcases cases task slot present with ⟨rfl, rfl⟩ | ⟨below, before, _⟩
    · cases ready
      exact ⟨rfl, rfl, seating.fresh party unknown, nofun⟩
    · have seated := seating.seats task slot future before ready
      refine ⟨seated.home, seated.free, seated.here, fun id holding => ?_⟩
      have waits := seated.waits id holding
      refine ⟨waits.below, fun held found owner => ?_⟩
      -- A future of an older task is not moved into the new one.
      rcases given_before found with before | moved
      · exact waits.fits held before owner
      · exact absurd (Option.some.inj (moved.symm.trans owner)) (Nat.ne_of_gt below)
  · intro task other slot slot' first second same
    rcases cases task slot first with ⟨rfl, rfl⟩ | ⟨_, before, home⟩
    · rcases cases other slot' second with ⟨rfl, rfl⟩ | ⟨_, _, home⟩
      · rfl
      · exact absurd same.symm home
    · rcases cases other slot' second with ⟨rfl, rfl⟩ | ⟨_, before', _⟩
      · exact absurd same home
      · exact seating.alone task other slot slot' before before' same
  · intro task slot present
    rcases cases task slot present with ⟨rfl, rfl⟩ | ⟨_, before, _⟩
    · exact Finset.mem_insert_self _ _
    · exact Finset.mem_insert_of_mem (seating.housed task slot before)
  · exact seating.history
  · exact seating.once
  · intro own member
    obtain ⟨ended, known, vacant⟩ := seating.gone own member
    refine ⟨ended, Finset.mem_insert_of_mem known, fun task slot present => ?_⟩
    rcases cases task slot present with ⟨rfl, rfl⟩ | ⟨_, before, _⟩
    · intro (same : host.deployment.address party = host.deployment.address own)
      exact unknown (same ▸ known)
    · exact vacant task slot before

omit [DecidableEq Party] in
theorem Mirrors.add (mirrors : Mirrors host barred single g system returned) {party : Party}
    {factory : NodeFactory (Seat Local) Unit}
    (made : factory (host.deployment.address party) = .done ⟨party, host.start party, none⟩)
    (young : ∀ task slot, g.tasks.get task = some slot → task < g.nextTaskId) :
    Mirrors host barred single (g.addNode (host.deployment.address party) factory) system
      returned := by
  by_cases known : host.deployment.address party ∈ g.nodes
  · rw [Inner.addNode, if_pos known]
    exact mirrors
  rw [Inner.addNode, if_neg known]
  refine ⟨?_, mirrors.seating.settle known young _ _ _ _ made⟩
  refine mirrors.medium.fade ?_
  unfold Inner.spawnRegisteredNode
  rw [made]
  have registered (tasks : SortedMap TaskId (TaskSlot (Seat Local))) (nextTaskId : TaskId)
      (audit : Audit) (storage : SortedMap NodeId PageStore)
      (factories : SortedMap NodeId (NodeFactory (Seat Local) Unit))
      (futures : SortedMap FutureId Held) : g.Fades { g with
        nodes := insert (host.deployment.address party) g.nodes
        faults.connectivity := g.faults.connectivity.addNode (host.deployment.address party)
        inboxes := g.inboxes.insert (host.deployment.address party)
          ((g.inboxes.get (host.deployment.address party)).getD [])
        tasks, nextTaskId, audit, storage, factories, futures } := by
    refine { Inner.Fades.refl g with inboxes := fun other => ?_ }
    rw [Inner.inbox, SortedMap.get_insert, Inner.inbox]
    split_ifs with same
    · rw [same]
      exact List.Sublist.refl _
    · exact List.Sublist.refl _
  exact (registered _ _ _ _ _ _).trans (Inner.Fades.push _ _ _ (UInt64.le_refl _) rfl)

theorem schedule_mirrored {at_ : SimTime} (action : NemesisAction) (later : g.now ≤ at_)
    (mirrored : Mirrored host barred single g) :
    Mirrored host barred single (g.pushEvent at_ (.nemesis action)) := by
  obtain ⟨system, returned, reached, mirrors⟩ := mirrored
  exact ⟨system, returned, reached, mirrors.still (Inner.Fades.push g at_ _ later rfl)
    (Inner.Stays.still rfl rfl rfl rfl rfl)⟩

theorem plan_mirrored {Plan : Type} (nextAction : NextAction Plan) (maxActions : Nat) (plan : Plan)
    (atStart : g.now = 0) (mirrored : Mirrored host barred single g) :
    Mirrored host barred single (Inner.scheduleNemesisPlan nextAction maxActions plan g).2 := by
  induction maxActions generalizing g plan with
  | zero => exact mirrored
  | succ maxActions ih =>
      have moved := Inner.runDraws_moves (nextAction plan g.worldView) g
      rw [Inner.scheduleNemesisPlan]
      generalize Inner.runDraws (nextAction plan g.worldView) g = result at moved ⊢
      obtain ⟨⟨next, plan⟩, last⟩ := result
      have drawn : Mirrored host barred single last := by
        obtain ⟨system, returned, reached, mirrors⟩ := mirrored
        exact ⟨system, returned, reached, mirrors.quiet (Inner.Quiet.drawn moved)⟩
      obtain ⟨tape, _, _, rfl⟩ := moved
      cases next with
      | none => exact drawn
      | some entry =>
          refine ih plan atStart (schedule_mirrored entry.2 ?_ drawn)
          rw [atStart]
          exact UInt64.zero_le

theorem operate_mirrored {Plan : Type} (nextAction : NextAction Plan)
    (op : WorldOp (Seat Local) Unit Plan)
    (allowed : (conditions Plan host barred single).operate g op)
    (young : ∀ task slot, g.tasks.get task = some slot → task < g.nextTaskId)
    (mirrored : Mirrored host barred single g) :
    Mirrored host barred single (g.operate nextAction op).2 := by
  have quietly {last : Hosted Local} (quiet : g.Quiet last) : Mirrored host barred single last := by
    obtain ⟨system, returned, reached, mirrors⟩ := mirrored
    exact ⟨system, returned, reached, mirrors.quiet quiet⟩
  have acts (action : NemesisAction) (restart : ∀ node, action ≠ .restart node)
      (skew : ∀ node offsetNs, action ≠ .clockSkew node offsetNs) :
      Mirrored host barred single (g.applyNemesis action) :=
    quietly (Inner.Quiet.nemesis g restart skew)
  cases op with
  | addNode node factory =>
      obtain ⟨party, rfl, made⟩ := allowed
      obtain ⟨system, returned, reached, mirrors⟩ := mirrored
      exact ⟨system, returned, reached, mirrors.add made young⟩
  | scheduleNemesis at_ action => exact schedule_mirrored action allowed mirrored
  | scheduleNemesisPlan plan maxActions =>
      exact plan_mirrored nextAction maxActions plan allowed mirrored
  | partition groups => exact acts (.partition groups) nofun nofun
  | healAll => exact acts .healAll nofun nofun
  | crashNode node => exact acts (.crash node) nofun nofun
  | setDropPercent percent =>
      exact quietly
        ⟨Inner.Fades.still rfl rfl rfl rfl rfl rfl, Inner.Stays.still rfl rfl rfl rfl rfl, rfl⟩
  | setExtraDelayMs maxExtraDelayMs =>
      exact quietly
        ⟨Inner.Fades.still rfl rfl rfl rfl rfl rfl, Inner.Stays.still rfl rfl rfl rfl rfl, rfl⟩
  | setDuplicatePercent percent =>
      obtain ⟨system, returned, reached, medium, seating⟩ := mirrored
      refine ⟨system, returned, reached, ?_, seating.stay (Inner.Stays.still rfl rfl rfl rfl rfl)⟩
      refine ⟨medium.now, medium.steady, medium.read, medium.ahead, medium.flying, medium.landed, ?_⟩
      intro one
      cases allowed one
      exact ⟨rfl, (medium.counted one).2⟩
  | setClockSkew | restartNode | restartNodeOutcome | useEnv => exact allowed.elim

omit [DecidableEq Party] in
theorem start_mirrors (host : Host Party Local) (barred : NodeId → NodeId → Prop) (single : Bool)
    (seed : UInt64) (config : WorldConfig) (tape : EntropyTape) :
    Mirrors host barred single (Inner.fromTape seed config tape) host.system [] := by
  constructor
  · constructor
    all_goals simp [Inner.fromTape, Host.system, Inner.skewOf, FaultConfig.default, Inner.inbox,
      Inner.underWay, Inner.inFlight, KeyedQueue.select, KeyedQueue.empty, KeyedQueue.mem_def]
  · constructor
    all_goals simp [Inner.fromTape, Host.system]

/-- What the parties came to shows in the world: its clock, what it recorded, and the
point of each of its tasks. -/
structure Shows (host : Host Party Local) (g : Hosted Local)
    (system : System NodeId String SimTime Local) (returned : List Party) : Prop where
  now : g.now = system.now
  once : returned.Nodup
  ended : ∀ party ∈ returned, host.deployment.code party (system.locals party) = .ended
  history : g.history = returned.flatMap fun party => host.results party (system.locals party)
  tasks : ∀ task slot future, g.tasks.get task = some slot → slot.future = some future →
    slot.node = host.deployment.address future.state.party ∧
      future.state.point = system.locals future.state.party

omit [DecidableEq Party] in
theorem Mirrors.shows (mirrors : Mirrors host barred single g system returned) :
    Shows host g system returned where
  now := mirrors.medium.now.symm
  once := mirrors.seating.once
  ended party member := (mirrors.seating.gone party member).1
  history := mirrors.seating.history
  tasks task slot future present ready := by
    have seated := mirrors.seating.seats task slot future present ready
    exact ⟨seated.home, seated.here.symm⟩

theorem mirrored_of_reachable {Plan : Type} (host : Host Party Local) (pace : Nat)
    (nextAction : NextAction Plan) (barred : NodeId → NodeId → Prop) (single : Bool)
    (g : Hosted Local)
    (under : Inner.ReachableUnder (host.program pace) nextAction
      (conditions Plan host barred single) g) : Mirrored host barred single g := by
  refine Inner.reachableUnder_invariant (Mirrored host barred single) ?_ ?_ under
  · intro seed config tape _
    exact ⟨_, _, .start, start_mirrors host barred single seed config tape⟩
  · intro g after reachable step mirrored
    cases step with
    | operate op allowed =>
        have counted := Inner.reachable_counted _ _ g reachable
        exact operate_mirrored nextAction op allowed counted.tasks mirrored
    | turn turned allowed => exact turn_mirrored pace turned allowed mirrored
    | abort aborted _ => exact abort_mirrored pace aborted mirrored

/-- Every run of a world that hosts the parties is a run of the parties. -/
theorem hosted_run_refines {Plan : Type} (host : Host Party Local) (pace : Nat)
    (nextAction : NextAction Plan) (barred : NodeId → NodeId → Prop) (single : Bool)
    (g : Hosted Local)
    (under : Inner.ReachableUnder (host.program pace) nextAction
      (conditions Plan host barred single) g) :
    ∃ system returned,
      ReachedUnder host.deployment host.system (Passes barred single) system ∧
        Shows host g system returned := by
  obtain ⟨system, returned, reached, mirrors⟩ :=
    mirrored_of_reachable host pace nextAction barred single g under
  exact ⟨system, returned, reached, mirrors.shows⟩

end Turns

end Detersim.Hosting
