import Detersim.FairWorlds

/-!
One poll of a party in a fair world. The party goes on until it waits for a message
and none is there, or returns. Other parties see nothing of it.
-/

namespace Detersim

namespace Inner

variable {State Value : Type}

theorem listed_unregister (g : Inner State Value) (node other : NodeId) (task : TaskId) :
    (g.unregisterRecvWaiter node task).listed other =
      if other = node then (g.listed node).filter fun own => decide (own ≠ task)
      else g.listed other := by
  unfold unregisterRecvWaiter
  cases known : g.recvWaiters.get node with
  | none =>
      split_ifs with same
      · rw [same, listed, known]
        rfl
      · rfl
  | some waiters =>
      change ((g.recvWaiters.insert node _).get other).getD [] = _
      rw [SortedMap.get_insert]
      split_ifs
      · rw [listed, known]
        rfl
      · rfl

theorem listed_register (g : Inner State Value) (node other : NodeId) (task : TaskId) :
    (g.registerRecvWaiter node task).listed other =
      if other = node then
        if task ∈ g.listed node then g.listed node else g.listed node ++ [task]
      else g.listed other := by
  change ((g.recvWaiters.insert node (if task ∈ g.listed node then g.listed node
    else g.listed node ++ [task])).get other).getD [] = _
  rw [SortedMap.get_insert]
  by_cases same : other = node
  · rw [if_pos same, if_pos same]
    rfl
  · rw [if_neg same, if_neg same]
    rfl

/-- What the poll of a task at a node leaves to the others. -/
structure Beside (task : TaskId) (node : NodeId) (g after : Inner State Value) : Prop where
  queue : ∀ event ∈ g.queue, event ∈ after.queue
  tasks : after.tasks = g.tasks
  futures : ∀ id held, held.owner ≠ some task →
    (after.futures.get id = some held ↔ g.futures.get id = some held)
  inboxes : ∀ other, other ≠ node → after.inbox other = g.inbox other
  listed : ∀ other, other ≠ node → after.listed other = g.listed other

/-- The task owns the future it holds and no other. -/
structure Owns (g : Inner State Value) (task : TaskId) (holding : Option FutureId) : Prop where
  kept : ∀ id, holding = some id → ∃ held, g.futures.get id = some held ∧ held.owner = some task
  only : ∀ id held, g.futures.get id = some held → held.owner = some task → holding = some id

def Allotted (g : Inner State Value) : Prop :=
  ∀ id held, g.futures.get id = some held → id < g.nextFuture

variable {task : TaskId} {node : NodeId} {g after : Inner State Value}

namespace Beside

theorem trans {first second third : Inner State Value} (left : Beside task node first second)
    (right : Beside task node second third) : Beside task node first third where
  queue event member := right.queue event (left.queue event member)
  tasks := right.tasks.trans left.tasks
  futures id held other := (right.futures id held other).trans (left.futures id held other)
  inboxes other apart := (right.inboxes other apart).trans (left.inboxes other apart)
  listed other apart := (right.listed other apart).trans (left.listed other apart)

theorem still (queue : after.queue = g.queue) (tasks : after.tasks = g.tasks)
    (futures : after.futures = g.futures) (inboxes : after.inboxes = g.inboxes)
    (recvWaiters : after.recvWaiters = g.recvWaiters) : Beside task node g after where
  queue _ member := queue ▸ member
  tasks
  futures _ _ _ := by rw [futures]
  inboxes _ _ := by rw [inbox, inboxes, inbox]
  listed _ _ := by rw [Inner.listed, recvWaiters, Inner.listed]

theorem refl (task : TaskId) (node : NodeId) (g : Inner State Value) : Beside task node g g :=
  still rfl rfl rfl rfl rfl

theorem push (event : Keyed) (queue : after.queue = g.queue.push event)
    (tasks : after.tasks = g.tasks) (futures : after.futures = g.futures)
    (inboxes : after.inboxes = g.inboxes) (recvWaiters : after.recvWaiters = g.recvWaiters) :
    Beside task node g after where
  queue other member := queue ▸ (KeyedQueue.mem_push _ _ _).mpr (.inr member)
  tasks
  futures _ _ _ := by rw [futures]
  inboxes _ _ := by rw [inbox, inboxes, inbox]
  listed _ _ := by rw [Inner.listed, recvWaiters, Inner.listed]

theorem forget {id : FutureId} {held : Held} (found : g.futures.get id = some held)
    (owner : held.owner = some task) : Beside task node g (g.forget id) := by
  refine { refl task node g with futures := fun other found' apart => ?_ }
  change (g.futures.remove id).get other = some found' ↔ _
  rw [SortedMap.get_remove]
  split_ifs with same
  · subst same
    refine iff_of_false id fun present => ?_
    cases found.symm.trans present
    exact apart owner
  · exact Iff.rfl

theorem setLeaf {id : FutureId} {held : Held} (found : g.futures.get id = some held)
    (owner : held.owner = some task) (leaf : Leaf) :
    Beside task node g (g.setLeaf id held leaf) := by
  refine { refl task node g with futures := fun other found' apart => ?_ }
  change (g.futures.insert id _).get other = some found' ↔ _
  rw [SortedMap.get_insert]
  split_ifs with same
  · subst same
    constructor
    · rintro ⟨⟩
      exact absurd owner apart
    · intro present
      cases found.symm.trans present
      exact absurd owner apart
  · exact Iff.rfl

theorem hold (allotted : Allotted g) (current : g.currentTask = some task) (leaf : Leaf) :
    Beside task node g (g.hold leaf).2 := by
  refine { refl task node g with futures := fun other found' apart => ?_ }
  change (g.futures.insert g.nextFuture ⟨g.currentTask, leaf⟩).get other = some found' ↔ _
  rw [SortedMap.get_insert, current]
  split_ifs with same
  · subst same
    constructor
    · rintro ⟨⟩
      exact absurd rfl apart
    · intro present
      exact absurd (allotted _ _ present) (Nat.lt_irrefl _)
  · exact Iff.rfl

theorem register (g : Inner State Value) : Beside task node g (g.registerRecvWaiter node task) := by
  refine { refl task node g with listed := fun other apart => ?_ }
  rw [listed_register, if_neg apart]

theorem unregister (g : Inner State Value) (other : TaskId) :
    Beside task node g (g.unregisterRecvWaiter node other) := by
  have same (own : NodeId) (apart : own ≠ node) :
      (g.unregisterRecvWaiter node other).listed own = g.listed own := by
    rw [listed_unregister, if_neg apart]
  unfold unregisterRecvWaiter at same ⊢
  split at same <;> exact { refl task node g with listed := same }

end Beside

namespace Owns

theorem of_futures {holding : Option FutureId} (owns : Owns g task holding)
    (futures : after.futures = g.futures) : Owns after task holding :=
  ⟨futures ▸ owns.kept, futures ▸ owns.only⟩

theorem forget {id : FutureId} (owns : Owns g task (some id)) : Owns (g.forget id) task none where
  kept _ absent := absurd absent (Option.some_ne_none _).symm
  only other held found owner := by
    change (g.futures.remove id).get other = some held at found
    rw [SortedMap.get_remove] at found
    split_ifs at found with same
    exact absurd (Option.some.inj (owns.only other held found owner)).symm same

theorem setLeaf {id : FutureId} {held : Held} (owns : Owns g task (some id))
    (owner : held.owner = some task) (leaf : Leaf) :
    Owns (g.setLeaf id held leaf) task (some id) where
  kept _ same := ⟨{ held with leaf }, by cases same; exact SortedMap.get_insert_self _ _ _, owner⟩
  only other found' found owner := by
    change (g.futures.insert id _).get other = some found' at found
    rw [SortedMap.get_insert] at found
    split_ifs at found with same
    · rw [same]
    · exact owns.only other found' found owner

theorem hold (owns : Owns g task none) (current : g.currentTask = some task) (leaf : Leaf) :
    Owns (g.hold leaf).2 task (some g.nextFuture) where
  kept _ same :=
    ⟨⟨g.currentTask, leaf⟩, by cases same; exact SortedMap.get_insert_self _ _ _, current⟩
  only other found' found owner := by
    change (g.futures.insert g.nextFuture _).get other = some found' at found
    rw [SortedMap.get_insert] at found
    split_ifs at found with same
    · rw [same]
    · cases owns.only other found' found owner

/-- What the others own stays with them. -/
theorem beside {other : TaskId} {holding : Option FutureId} (owns : Owns g other holding)
    (beside : Beside task node g after) (apart : other ≠ task) : Owns after other holding where
  kept id same := by
    obtain ⟨held, found, owner⟩ := owns.kept id same
    exact ⟨held, (beside.futures id held (by rw [owner]; simpa using apart)).mpr found, owner⟩
  only id held found owner :=
    owns.only id held ((beside.futures id held (by rw [owner]; simpa using apart)).mp found) owner

end Owns

/-- A receive that found no message. -/
def listen (g : Inner State Value) (id : FutureId) (held : Held) (node : NodeId) (task : TaskId) :
    Inner State Value :=
  { (g.registerRecvWaiter node task).setLeaf id held (.recv node (some task)) with
    audit.awaited := insert id g.audit.awaited }

theorem pollRecv_listens (id : FutureId) (held : Held) (registered : Option TaskId)
    (empty : g.inbox node = []) (current : g.currentTask = some task) :
    g.pollRecv id held node registered = (.pending, g.listen id held node task) := by
  rw [inbox] at empty
  rw [pollRecv, current]
  cases known : g.inboxes.get node with
  | none => rfl
  | some waiting =>
      rw [known, Option.getD_some] at empty
      rw [empty]
      rfl

section Listen

variable {id : FutureId} {held : Held}

theorem listed_listen (other : NodeId) : (g.listen id held node task).listed other =
    (g.registerRecvWaiter node task).listed other := rfl

theorem listed_listen_self (id : FutureId) (held : Held) (alone : ∀ other ∈ g.listed node, other = task)
    (short : (g.listed node).length ≤ 1) : (g.listen id held node task).listed node = [task] := by
  rw [listed_listen, listed_register, if_pos rfl]
  generalize g.listed node = tasks at alone short ⊢
  cases tasks with
  | nil =>
      rw [if_neg List.not_mem_nil]
      rfl
  | cons other rest =>
      cases List.eq_nil_of_length_eq_zero (Nat.le_zero.mp (Nat.le_of_succ_le_succ short))
      cases alone other (List.mem_singleton_self other)
      rw [if_pos (List.mem_singleton_self task)]

theorem Quiet.listen (task : TaskId) {registered : Option TaskId} (found : g.futures.get id = some held)
    (leaf : held.leaf = .recv node registered) : Quiet g (g.listen id held node task) := by
  have entered : Quiet g (g.registerRecvWaiter node task) :=
    ⟨Fades.still rfl rfl rfl rfl rfl rfl, Stays.still rfl rfl rfl rfl rfl, rfl⟩
  have plain : held.leaf.plain = (Leaf.recv node (some task)).plain := by rw [leaf]; rfl
  have set := Quiet.setLeaf (g.registerRecvWaiter node task) found plain
  exact (entered.trans set).trans
    ⟨Fades.still rfl rfl rfl rfl rfl rfl, Stays.still rfl rfl rfl rfl rfl, rfl⟩

theorem Beside.listen (found : g.futures.get id = some held) (owner : held.owner = some task) :
    Beside task node g (g.listen id held node task) := by
  have kept : (g.registerRecvWaiter node task).futures.get id = some held := found
  exact ((Beside.register g).trans (Beside.setLeaf kept owner (.recv node (some task)))).trans
    (Beside.still rfl rfl rfl rfl rfl)

theorem Owns.listen (owns : Owns g task (some id)) (owner : held.owner = some task) :
    Owns (g.listen id held node task) task (some id) := by
  have kept : Owns (g.registerRecvWaiter node task) task (some id) := owns.of_futures rfl
  exact (kept.setLeaf owner _).of_futures rfl

theorem Allotted.listen (allotted : Allotted g) (found : g.futures.get id = some held) :
    Allotted (g.listen id held node task) := by
  intro other held' present
  change (g.futures.insert id _).get other = some held' at present
  rw [SortedMap.get_insert] at present
  split_ifs at present with same
  · exact same ▸ allotted id held found
  · exact allotted other held' present

end Listen

/-- The first message of an inbox is gone, and with it who waited for it. -/
def handed (g : Inner State Value) (node : NodeId) (rest : List (NodeId × Message))
    (recvWaiters : SortedMap NodeId (List TaskId)) (audit : Audit) : Inner State Value :=
  { g with inboxes := g.inboxes.insert node rest, recvWaiters, audit }

theorem Allotted.forget (allotted : Allotted g) (id : FutureId) : Allotted (g.forget id) := by
  intro other held present
  change (g.futures.remove id).get other = some held at present
  rw [SortedMap.get_remove] at present
  split_ifs at present
  exact allotted other held present

theorem Allotted.hold (allotted : Allotted g) (leaf : Leaf) : Allotted (g.hold leaf).2 := by
  intro id found present
  change (g.futures.insert g.nextFuture _).get id = some found at present
  rw [SortedMap.get_insert] at present
  split_ifs at present with same
  · exact same ▸ Nat.lt_succ_self _
  · exact (allotted id found present).trans (Nat.lt_succ_self _)

theorem Beside.handed {rest : List (NodeId × Message)}
    {recvWaiters : SortedMap NodeId (List TaskId)} {audit : Audit}
    (same : ∀ other, other ≠ node → (recvWaiters.get other).getD [] = g.listed other) :
    Beside task node g (g.handed node rest recvWaiters audit) := by
  refine { refl task node g with inboxes := fun other apart => ?_, listed := same }
  rw [inbox, Inner.handed, SortedMap.get_insert_of_ne _ _ apart, inbox]

/-- A receive that ends leaves the list of those that wait, if it was on it. -/
theorem pollRecv_takes (id : FutureId) (held : Held) (registered : Option TaskId)
    {sender : NodeId} {msg : Message} {rest : List (NodeId × Message)}
    (arrived : g.inboxes.get node = some ((sender, msg) :: rest)) :
    ∃ recvWaiters audit, g.pollRecv id held node registered =
        (.message sender msg, (g.handed node rest recvWaiters audit).forget id) ∧
      (∀ other, ((recvWaiters.get other).getD []).Sublist (g.listed other)) ∧
      ∀ other, other ≠ node → (recvWaiters.get other).getD [] = g.listed other := by
  rw [pollRecv, arrived]
  cases registered with
  | none => exact ⟨g.recvWaiters, _, rfl, fun _ => List.Sublist.refl _, fun _ _ => rfl⟩
  | some task =>
      have listed (other : NodeId) :
          (((g.unregisterRecvWaiter node task).recvWaiters.get other).getD []) = _ :=
        g.listed_unregister node other task
      refine ⟨(g.unregisterRecvWaiter node task).recvWaiters, { g.audit with
        taken := g.audit.taken ++ [(node, Taking.received id, sender, msg)] }, ?_, ?_, ?_⟩
      · simp only [unregisterRecvWaiter]
        split <;> rfl
      · intro other
        rw [listed]
        split_ifs with same
        · rw [same]
          exact List.filter_sublist
        · exact List.Sublist.refl _
      · intro other apart
        rw [listed, if_neg apart]

end Inner

namespace Hosting

open Datagrams

variable {Party : Type} {Local : Party → Type}

/-- The task of a party is being polled in a fair world. -/
structure Active (host : Host Party Local) (barred : NodeId → NodeId → Prop) (base : Nat)
    (returned : List Party) (task : TaskId) (party : Party) (g : Hosted Local)
    (system : System NodeId String SimTime Local) (point : Local party) : Prop
    extends Running host barred true returned task party g system point where
  fair : Fair host barred base g system
  allotted : g.Allotted
  alone : ∀ other ∈ g.listed (host.deployment.address party), other = task

variable {host : Host Party Local} {barred : NodeId → NodeId → Prop} {base : Nat}
  {returned : List Party} {task : TaskId} {party : Party} {g after : Hosted Local}
  {system : System NodeId String SimTime Local} {point : Local party} {id : FutureId} {held : Held}

/-- A party that does not sleep waits for a message. -/
theorem waits_recv (awake : host.deadline party point = none)
    (waits : Waits host g task party point id) (found : g.futures.get id = some held)
    (owner : held.owner = some task) :
    ∃ next registered, host.deployment.code party point = .recv next ∧
      held.leaf = .recv (host.deployment.address party) registered := by
  have made := waits.fits held found owner
  cases leaf : held.leaf with
  | sleep node limit timer =>
      rw [leaf] at made
      obtain ⟨_, _, asleep⟩ := leaf_sleep made
      cases awake.symm.trans asleep
  | recv node registered =>
      rw [leaf] at made
      obtain ⟨next, code, rfl⟩ := leaf_recv made
      exact ⟨next, registered, code, rfl⟩
  | join slot waitingTask =>
      rw [leaf] at made
      exact absurd made (leaf_not_join slot none)

theorem Fair.become [DecidableEq Party] (fair : Fair host barred base g system) (party : Party)
    (next : Local party) : Fair host barred base g (system.become party next) :=
  { fair with }

section Steps

variable [DecidableEq Party]

/-- How the poll of a receive ends. -/
inductive Receives (host : Host Party Local) (barred : NodeId → NodeId → Prop) (base : Nat)
    (returned : List Party) (task : TaskId) (party : Party) (g : Hosted Local)
    (system : System NodeId String SimTime Local) (point : Local party) (id : FutureId) :
    Reply Unit × Hosted Local → Prop where
  | message {sender msg next packet last}
      (code : host.deployment.code party point = .recv next)
      (happens : Happens host.deployment system (.deliver party packet)
        ((system.become party (next sender (host.decode msg))).handOver packet))
      (passes : Passes barred true system (.deliver party packet : Event Party _ _ _))
      (active : Active host barred base returned task party last
        ((system.become party (next sender (host.decode msg))).handOver packet)
        (next sender (host.decode msg)))
      (owns : last.Owns task none) (beside : g.Beside task (host.deployment.address party) last) :
      Receives host barred base returned task party g system point id (.message sender msg, last)
  | waits {last}
      (active : Active host barred base returned task party last system point)
      (waits : Waits host last task party point id) (owns : last.Owns task (some id))
      (listed : task ∈ last.listed (host.deployment.address party))
      (empty : last.inbox (host.deployment.address party) = [])
      (beside : g.Beside task (host.deployment.address party) last) :
      Receives host barred base returned task party g system point id (.pending, last)

theorem take_active (active : Active host barred base returned task party g system point)
    (owns : g.Owns task (some id)) (found : g.futures.get id = some held)
    (owner : held.owner = some task) (registered : Option TaskId)
    {next : NodeId → String → Local party} (code : host.deployment.code party point = .recv next)
    {sender : NodeId} {msg : Message} {rest : List (NodeId × Message)}
    (arrived : g.inboxes.get (host.deployment.address party) = some ((sender, msg) :: rest)) :
    Receives host barred base returned task party g system point id
      (g.pollRecv id held (host.deployment.address party) registered) := by
  obtain ⟨recvWaiters, audit, taken, shorter, same⟩ := Inner.pollRecv_takes id held registered arrived
  obtain ⟨packet, member, from_, receiver, decoded, early, passes, fewer, medium⟩ :=
    active.medium.receive arrived audit
  have stands : host.deployment.code party (system.locals party) = .recv next := active.here ▸ code
  have allowed : Passes barred true system (.deliver party packet : Event Party _ _ _) := by
    rw [Passes, Sparing, from_, receiver]
    exact ⟨passes, fewer⟩
  have fair := active.fair.receive arrived audit from_ receiver decoded
  have stays : g.Stays (g.handed (host.deployment.address party) rest recvWaiters audit) :=
    Inner.Stays.still rfl rfl rfl rfl rfl
  have fades : Inner.Fades
      { g with inboxes := g.inboxes.insert (host.deployment.address party) rest, audit }
      (g.handed (host.deployment.address party) rest recvWaiters audit) :=
    Inner.Fades.still rfl rfl rfl rfl rfl rfl
  have quiet := Inner.Quiet.forget
    (g.handed (host.deployment.address party) rest recvWaiters audit) id
  have kept : (g.handed (host.deployment.address party) rest recvWaiters audit).Owns task (some id) :=
    owns.of_futures rfl
  have allotted : (g.handed (host.deployment.address party) rest recvWaiters audit).Allotted :=
    active.allotted
  rw [taken]
  refine .message code ?_ allowed ⟨?_, ?_, allotted.forget id, ?_⟩ kept.forget
    ((Inner.Beside.handed same).trans (.forget found owner))
  · have happens := Happens.recv member receiver early stands
    rwa [from_, ← decoded] at happens
  · exact active.move rfl (stays.trans quiet.stays) quiet.current
      ((medium.fade (fades.trans quiet.fades)).become party _)
  · exact (fair.become party _).still rfl rfl rfl rfl rfl
      (fun node => (shorter node).length_le.trans (active.fair.short node)) rfl rfl
  · exact fun other member => active.alone other ((shorter _).subset member)

theorem wait_active (active : Active host barred base returned task party g system point)
    (waits : Waits host g task party point id) (owns : g.Owns task (some id))
    (found : g.futures.get id = some held) (owner : held.owner = some task)
    {registered : Option TaskId} (leaf : held.leaf = .recv (host.deployment.address party) registered)
    (empty : g.inbox (host.deployment.address party) = []) :
    Receives host barred base returned task party g system point id
      (g.pollRecv id held (host.deployment.address party) registered) := by
  have own := Inner.listed_listen_self id held active.alone (active.fair.short _)
  have quiet := Inner.Quiet.listen task found leaf
  rw [Inner.pollRecv_listens id held registered empty active.current]
  refine .waits ⟨active.quiet quiet, ?_, active.allotted.listen found, ?_⟩ (waits.stay quiet.stays)
    (owns.listen owner) ?_ empty (.listen found owner)
  · refine active.fair.still rfl rfl rfl rfl rfl (fun node => ?_) rfl rfl
    by_cases here : node = host.deployment.address party
    · rw [here, own]
      exact le_rfl
    · rw [Inner.listed_listen, Inner.listed_register, if_neg here]
      exact active.fair.short node
  · intro other member
    rw [own] at member
    exact List.mem_singleton.mp member
  · rw [own]
    exact List.mem_singleton_self task

theorem poll_receives (awake : host.deadline party point = none)
    (active : Active host barred base returned task party g system point)
    (waits : Waits host g task party point id) (owns : g.Owns task (some id)) :
    Receives host barred base returned task party g system point id (g.perform (.poll id)) := by
  obtain ⟨held, found, owner⟩ := owns.kept id rfl
  obtain ⟨next, registered, code, leaf⟩ := waits_recv awake waits found owner
  have performed : g.perform (.poll id) =
      g.pollRecv id held (host.deployment.address party) registered := by
    simp only [Inner.perform, found]
    rw [if_pos (owner.trans active.current.symm), Inner.pollLeaf, leaf]
  rw [performed]
  cases inbox : g.inbox (host.deployment.address party) with
  | nil => exact wait_active active waits owns found owner leaf inbox
  | cons first rest =>
      have arrived : g.inboxes.get (host.deployment.address party) = some (first :: rest) := by
        rw [Inner.inbox] at inbox
        cases known : g.inboxes.get (host.deployment.address party) with
        | none =>
            rw [known] at inbox
            cases inbox
        | some waiting => rw [← inbox, known, Option.getD_some]
      exact take_active active owns found owner registered code arrived

/-- No party sleeps, and no run takes so many steps, or sends more than `most`. -/
structure Brief (host : Host Party Local) (barred : NodeId → NodeId → Prop) (steps most : Nat) :
    Prop where
  bounded : ∀ count system,
    ReachedIn host.deployment host.system (Passes barred true) count system → count < steps
  awake : ∀ count system party,
    ReachedIn host.deployment host.system (Passes barred true) count system →
      host.deadline party (system.locals party) = none
  sends : ∀ count system,
    ReachedIn host.deployment host.system (Passes barred true) count system →
      system.sent.length ≤ most

/-- How the poll of a party ends in a fair world. -/
inductive Pauses (host : Host Party Local) (barred : NodeId → NodeId → Prop) (base : Nat)
    (returned : List Party) (task : TaskId) (party : Party) (g : Hosted Local) :
    TaskPoll (Seat Local) Unit × Hosted Local → Prop where
  | parks {count system point id last}
      (reached : ReachedIn host.deployment host.system (Passes barred true) count system)
      (active : Active host barred base returned task party last system point)
      (waits : Waits host last task party point id) (owns : last.Owns task (some id))
      (listed : task ∈ last.listed (host.deployment.address party))
      (empty : last.inbox (host.deployment.address party) = [])
      (beside : g.Beside task (host.deployment.address party) last) :
      Pauses host barred base returned task party g (.pending ⟨party, point, some id⟩, last)
  | returns {count system point last}
      (reached : ReachedIn host.deployment host.system (Passes barred true) count system)
      (active : Active host barred base returned task party last system point)
      (owns : last.Owns task none) (ended : host.deployment.code party point = .ended)
      (beside : g.Beside task (host.deployment.address party) last) :
      Pauses host barred base returned task party g
        (.ready (), { last with history := last.history ++ host.results party point })

theorem Pauses.before {result : TaskPoll (Seat Local) Unit × Hosted Local}
    (pauses : Pauses host barred base returned task party after result)
    (beside : g.Beside task (host.deployment.address party) after) :
    Pauses host barred base returned task party g result := by
  cases pauses with
  | parks reached active waits owns listed empty later =>
      exact .parks reached active waits owns listed empty (beside.trans later)
  | returns reached active owns ended later =>
      exact .returns reached active owns ended (beside.trans later)

/-- What is to be shown of a party that goes on from a point. -/
def Resumes (host : Host Party Local) (barred : NodeId → NodeId → Prop) (base : Nat)
    (returned : List Party) (task : TaskId) (party : Party) (steps pace : Nat) : Prop :=
  ∀ count g system point,
    ReachedIn host.deployment host.system (Passes barred true) count system →
    steps ≤ count + pace → Active host barred base returned task party g system point →
    g.Owns task none →
    Pauses host barred base returned task party g (g.exec (host.follow pace party point))

variable {steps most pace count : Nat}

theorem act_counted {next : System NodeId String SimTime Local}
    (reached : ReachedIn host.deployment host.system (Passes barred true) count system)
    (happens : Happens host.deployment system (.act party) next) :
    ReachedIn host.deployment host.system (Passes barred true) (count + 1) next := by
  have allowed : Passes barred true system (.act party) := trivial
  exact reached.step allowed happens

theorem answered_pauses (brief : Brief host barred steps most)
    (resumes : Resumes host barred base returned task party steps pace)
    (reached : ReachedIn host.deployment host.system (Passes barred true) count system)
    (enough : steps ≤ count + 1 + pace)
    (active : Active host barred base returned task party g system point)
    (waits : Waits host g task party point id) (owns : g.Owns task (some id)) :
    Pauses host barred base returned task party g
      (g.exec (.call (.poll id) (host.answered (host.follow pace) party point id))) := by
  have awake := active.here ▸ brief.awake count system party reached
  have receives := poll_receives awake active waits owns
  rw [Inner.exec]
  generalize g.perform (.poll id) = result at receives ⊢
  cases receives with
  | @message sender msg next packet last code happens passes active owns beside =>
      simp only [Host.answered, code]
      exact (resumes (count + 1) _ _ _ (reached.step passes happens) enough active owns).before beside
  | waits active waits owns listed empty beside =>
      exact .parks reached active waits owns listed empty beside

/-- A send of the running party goes out. -/
theorem send_active (active : Active host barred base returned task party g system point)
    (receiver : NodeId) (msg : String) (next : Local party) :
    ∃ last, g.send (host.deployment.address party) receiver (host.encode msg) = (.unit, last) ∧
      Active host barred base returned task party last
        ((system.become party next).send (host.deployment.address party) receiver msg) next ∧
      last.futures = g.futures ∧ g.Beside task (host.deployment.address party) last := by
  have fair := active.fair
  obtain ⟨tape, sends, time, later, soon, sent⟩ := g.send_once (host.deployment.address party) receiver
    (host.encode msg) (by rw [fair.up]; exact Finset.notMem_empty _) fair.single fair.prompt
  refine ⟨_, sent, ?_, rfl, .push _ rfl rfl rfl rfl rfl⟩
  have copies : g.Copies (host.deployment.address party) receiver (host.encode msg)
      [⟨time, g.seq, .deliverMsg (host.deployment.address party) receiver (host.encode msg)⟩] := by
    constructor
    · simp
    · simpa using later
    · exact fun _ => le_rfl
  refine ⟨?_, (fair.become party next).send party receiver msg soon tape sends, active.allotted,
    active.alone⟩
  exact active.move rfl (Inner.Stays.still rfl rfl rfl rfl rfl) rfl
    ((active.medium.become party next).send copies (g.seq + 1) tape g.trace { g.audit with sends })

omit [DecidableEq Party] in
theorem hold_active (active : Active host barred base returned task party g system point)
    (leaf : Leaf) :
    Active host barred base returned task party (g.hold leaf).2 system point :=
  ⟨active.quiet (Inner.Quiet.hold g leaf),
    active.fair.still rfl rfl rfl rfl rfl active.fair.short rfl rfl, active.allotted.hold leaf,
    active.alone⟩

theorem follow_pauses (brief : Brief host barred steps most) (pace : Nat) :
    Resumes host barred base returned task party steps pace := by
  induction pace with
  | zero =>
      intro count g system point reached enough
      exact absurd (brief.bounded count system reached) (Nat.not_lt.mpr enough)
  | succ pace ih =>
      intro count g system point reached enough active owns
      have enough : steps ≤ count + 1 + pace := by omega
      have stands := active.here
      rw [Host.follow]
      cases code : host.deployment.code party point with
      | send receiver msg next =>
          have here : host.deployment.code party (system.locals party) = .send receiver msg next :=
            stands ▸ code
          obtain ⟨last, sent, moved, futures, beside⟩ := send_active active receiver msg next
          rw [Inner.exec, Inner.perform, sent]
          exact (ih _ _ _ _ (act_counted reached (.send here)) enough moved
            (owns.of_futures futures)).before beside
      | recv next =>
          have made : host.leaf party point = some (.recv (host.deployment.address party) none) := by
            rw [Host.leaf, code]
          rw [Inner.exec, Inner.perform]
          have beside : g.Beside task (host.deployment.address party)
              (g.hold (.recv (host.deployment.address party) none)).2 :=
            .hold active.allotted active.current _
          have held := hold_active active (.recv (host.deployment.address party) none)
          have waits : Waits host (g.hold (.recv (host.deployment.address party) none)).2 task party
              point g.nextFuture := by
            refine ⟨Nat.lt_succ_self _, fun found present _ => ?_⟩
            change (g.futures.insert g.nextFuture _).get g.nextFuture = some found at present
            rw [SortedMap.get_insert_self] at present
            cases present
            exact made
          exact (answered_pauses brief ih reached enough held waits
            (owns.hold active.current _)).before beside
      | now next =>
          have awake := stands ▸ brief.awake count system party reached
          have here : host.deployment.code party (system.locals party) = .now next :=
            stands ▸ code
          obtain ⟨shown, quiet⟩ := active.medium.localNow (host.deployment.address party)
          have moved : Active host barred base returned task party
              (g.localNow (host.deployment.address party)).2
              (system.become party (next system.now)) (next system.now) :=
            ⟨active.move rfl quiet.stays quiet.current
              ((active.medium.fade quiet.fades).become party _),
              (active.fair.become party _).still rfl rfl rfl rfl rfl active.fair.short rfl rfl,
              active.allotted, active.alone⟩
          have pauses := ih _ _ _ _ (act_counted reached (.now here)) enough moved
            (owns.of_futures rfl)
          rw [active.medium.now, ← shown] at pauses
          simp only [awake]
          exact pauses.before (.still rfl rfl rfl rfl rfl)
      | ended =>
          rw [recordAll_exec]
          exact .returns reached active owns code (.refl _ _ g)

theorem program_pauses (brief : Brief host barred steps most) (enough : steps ≤ pace)
    (reached : ReachedIn host.deployment host.system (Passes barred true) count system)
    {holding : Option FutureId}
    (active : Active host barred base returned task party g system point)
    (waits : ∀ id, holding = some id → Waits host g task party point id)
    (owns : g.Owns task holding) :
    Pauses host barred base returned task party g
      (g.exec (host.program pace ⟨party, point, holding⟩)) := by
  cases holding with
  | none =>
      exact follow_pauses brief pace count g system point reached
        (Nat.le_add_left_of_le enough) active owns
  | some id =>
      exact answered_pauses brief (follow_pauses brief pace) reached
        (Nat.le_add_left_of_le enough) active (waits id rfl) owns

end Steps

end Hosting

end Detersim
