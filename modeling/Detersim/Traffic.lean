import Detersim.Datagrams
import Mathlib.Algebra.Order.Group.Nat
import Mathlib.Data.List.Basic

/-!
How often datagrams are sent and handed over. A medium that copies nothing hands
each over as often as it was sent at most, and how often that is can be read off
what its sender still owes. A run of one deployment is one of any other whose
codes match it point by point.
-/

namespace Datagrams

variable {Party Node Msg Time : Type} {Local Local' : Party → Type}

section Counts

variable [DecidableEq Node] [DecidableEq Msg]

def carries (sender receiver : Node) (msg : Msg) (packet : Packet Node Msg Time) : Bool :=
  decide (packet.sender = sender ∧ packet.receiver = receiver ∧ packet.msg = msg)

theorem countP_carries (sender receiver node target : Node) (msg text : Msg) (time : Time) :
    [(⟨node, target, text, time⟩ : Packet Node Msg Time)].countP (carries sender receiver msg) =
      if node = sender ∧ target = receiver ∧ text = msg then 1 else 0 := by
  simp [List.countP_singleton, carries]

/-- A datagram is handed over only if its like was sent more often than handed over. -/
def Sparing (system : System Node Msg Time Local) : Event Party Node Msg Time → Prop
  | .deliver _ packet =>
      system.delivered.countP (carries packet.sender packet.receiver packet.msg) <
        system.sent.countP (carries packet.sender packet.receiver packet.msg)
  | .tick _ | .act _ => True

/-- What was sent once is not handed over a second time. -/
theorem Sparing.fresh {system : System Node Msg Time Local} {party : Party}
    {packet : Packet Node Msg Time} (sparing : Sparing system (.deliver party packet))
    (once : system.sent.countP (carries packet.sender packet.receiver packet.msg) ≤ 1) :
    ∀ earlier ∈ system.delivered, earlier.msg = packet.msg → earlier.receiver = packet.receiver →
      earlier.sender ≠ packet.sender := by
  intro earlier member msg receiver sender
  have none_ : system.delivered.countP (carries packet.sender packet.receiver packet.msg) = 0 :=
    Nat.lt_one_iff.mp (Nat.lt_of_lt_of_le sparing once)
  exact List.countP_eq_zero.mp none_ earlier member (decide_eq_true ⟨sender, receiver, msg⟩)

omit [DecidableEq Node] [DecidableEq Msg] in
theorem countP_le_add {Item : Type} {counted first second : Item → Bool}
    (either : ∀ item, counted item = true → first item = true ∨ second item = true)
    (items : List Item) :
    items.countP counted ≤ items.countP first + items.countP second := by
  induction items with
  | nil => rfl
  | cons item rest ih =>
      have here := either item
      simp only [List.countP_cons]
      split_ifs <;> simp_all <;> omega

variable [DecidableEq Party] [LE Time] [LT Time]
  {deployment : Deployment Party Node Msg Time Local}
  {allowed : System Node Msg Time Local → Event Party Node Msg Time → Prop}
  {start system : System Node Msg Time Local}

theorem delivered_le_sent (none_ : start.delivered = [])
    (sparing : ∀ system event, allowed system event → Sparing system event)
    (reached : ReachedUnder deployment start allowed system) (sender receiver : Node) (msg : Msg) :
    system.delivered.countP (carries sender receiver msg) ≤
      system.sent.countP (carries sender receiver msg) := by
  induction reached with
  | start => simp [none_]
  | step _ allows happens ih =>
      cases happens with
      | tick later => exact ih
      | now code => exact ih
      | send code =>
          rw [System.send_sent, List.countP_append]
          exact Nat.le_add_right_of_le ih
      | @recv party packet next member addressed late code =>
          have spared := sparing _ _ allows
          change (packet :: _).countP _ ≤ _
          rw [List.countP_cons]
          split_ifs with carried
          · obtain ⟨rfl, rfl, rfl⟩ := of_decide_eq_true carried
            exact spared
          · exact ih

/-- How many more of these datagrams a party may send from each of its points that
can be reached, when the datagrams that ask for them may each add one. -/
structure Owes (deployment : Deployment Party Node Msg Time Local) (party : Party)
    (receiver : Node) (msg : Msg) (good : Local party → Prop) (asks : Node → Msg → Bool)
    (owed : Local party → Nat) : Prop where
  send : ∀ state target text next, good state →
    deployment.code party state = .send target text next →
    owed next + (if target = receiver ∧ text = msg then 1 else 0) ≤ owed state
  now : ∀ state next time, good state → deployment.code party state = .now next →
    owed (next time) ≤ owed state
  recv : ∀ state next sender text, good state → deployment.code party state = .recv next →
    owed (next sender text) ≤ owed state + (asks sender text).toNat

/-- Handed to a party, and one that asks. -/
def asked (node : Node) (asks : Node → Msg → Bool) (packet : Packet Node Msg Time) : Bool :=
  decide (packet.receiver = node) && asks packet.sender packet.msg

omit [DecidableEq Msg] [LE Time] [LT Time] in
@[simp] theorem countP_asked_none (node : Node) (packets : List (Packet Node Msg Time)) :
    packets.countP (asked node fun _ _ => false) = 0 :=
  List.countP_eq_zero.mpr fun packet _ => by simp [asked]

theorem Owes.sent_le {party : Party} {receiver : Node} {msg : Msg} {good : Local party → Prop}
    {asks : Node → Msg → Bool} {owed : Local party → Nat}
    (owes : Owes deployment party receiver msg good asks owed)
    (apart : Function.Injective deployment.address) (silent : start.sent = [])
    (always : ∀ system, ReachedUnder deployment start allowed system → good (system.locals party))
    (reached : ReachedUnder deployment start allowed system) :
    system.sent.countP (carries (deployment.address party) receiver msg) +
        owed (system.locals party) ≤
      owed (start.locals party) + system.delivered.countP (asked (deployment.address party) asks) := by
  induction reached with
  | start => simp [silent]
  | @step before _ _ earlier _ happens ih =>
      have fine := always before earlier
      cases happens with
      | tick later => exact ih
      | @now actor next code =>
          by_cases same : actor = party
          · subst same
            have less := owes.now _ _ before.now fine code
            rw [System.become_self, System.become_sent]
            exact Nat.le_trans (Nat.add_le_add_left less _) ih
          · rwa [System.become_other _ _ (Ne.symm same), System.become_sent]
      | @send actor target text next code =>
          rw [System.send_sent, List.countP_append, System.send_locals, System.become_sent]
          by_cases same : actor = party
          · subst same
            have less := owes.send _ _ _ _ fine code
            rw [System.become_self, countP_carries, Nat.add_assoc, Nat.add_comm (ite _ _ _)]
            simp only [true_and]
            exact Nat.le_trans (Nat.add_le_add_left less _) ih
          · have other : deployment.address actor ≠ deployment.address party :=
              fun equal => same (apart equal)
            rw [System.become_other _ _ (Ne.symm same), countP_carries,
              if_neg fun carried => other carried.1]
            exact ih
      | @recv actor packet next member addressed late code =>
          change before.sent.countP _ + owed ((before.become actor _).locals party) ≤
            _ + (packet :: before.delivered).countP _
          rw [List.countP_cons]
          by_cases same : actor = party
          · subst same
            have less := owes.recv _ _ packet.sender packet.msg fine code
            have counted : (asked (deployment.address actor) asks packet) =
                asks packet.sender packet.msg := by
              simp [asked, addressed]
            rw [System.become_self, counted]
            cases asked_ : asks packet.sender packet.msg <;> simp [asked_] at less ⊢ <;> omega
          · rw [System.become_other _ _ (Ne.symm same)]
            exact Nat.le_trans ih (by omega)

end Counts

/-- A run stays one when more is allowed. -/
theorem ReachedUnder.weaken [DecidableEq Party] [LE Time] [LT Time]
    {deployment : Deployment Party Node Msg Time Local}
    {allowed allowed' : System Node Msg Time Local → Event Party Node Msg Time → Prop}
    {start system : System Node Msg Time Local}
    (wider : ∀ system event, allowed system event → allowed' system event)
    (reached : ReachedUnder deployment start allowed system) :
    ReachedUnder deployment start allowed' system := by
  induction reached with
  | start => exact .start
  | step _ allows happens ih => exact ih.step (wider _ _ allows) happens

/-! Deployments whose codes match. -/

inductive Await.Matches {State State' : Type} (related : State → State' → Prop) :
    Await Node Msg Time State → Await Node Msg Time State' → Prop where
  | send {receiver msg next next'} : related next next' →
      Matches related (.send receiver msg next) (.send receiver msg next')
  | recv {next next'} : (∀ sender msg, related (next sender msg) (next' sender msg)) →
      Matches related (.recv next) (.recv next')
  | now {next next'} : (∀ time, related (next time) (next' time)) →
      Matches related (.now next) (.now next')
  | ended : Matches related .ended .ended

/-- The same traffic at the same time, with each party at a related point. -/
structure Alike (related : (party : Party) → Local party → Local' party → Prop)
    (system : System Node Msg Time Local) (system' : System Node Msg Time Local') : Prop where
  locals : ∀ party, related party (system.locals party) (system'.locals party)
  sent : system'.sent = system.sent
  delivered : system'.delivered = system.delivered
  now : system'.now = system.now

section Matching

variable [DecidableEq Party] [LE Time] [LT Time]
  {related : (party : Party) → Local party → Local' party → Prop}
  {deployment : Deployment Party Node Msg Time Local}
  {deployment' : Deployment Party Node Msg Time Local'}
  {system next : System Node Msg Time Local} {system' : System Node Msg Time Local'}

omit [LE Time] [LT Time] in
theorem Alike.become (alike : Alike related system system') (party : Party)
    {point : Local party} {point' : Local' party} (same : related party point point') :
    Alike related (system.become party point) (system'.become party point') := by
  refine ⟨fun other => ?_, alike.sent, alike.delivered, alike.now⟩
  by_cases named : other = party
  · subst named
    simpa using same
  · simpa [named] using alike.locals other

/-- One step of the one is one step of the other. -/
theorem Alike.step {event : Event Party Node Msg Time} (alike : Alike related system system')
    (addresses : deployment'.address = deployment.address)
    (codes : ∀ party point point', related party point point' →
      (deployment.code party point).Matches (related party) (deployment'.code party point'))
    (happens : Happens deployment system event next) :
    ∃ next', Happens deployment' system' event next' ∧ Alike related next next' := by
  cases happens with
  | tick later =>
      exact ⟨_, .tick (alike.now ▸ later), alike.locals, alike.sent, alike.delivered, rfl⟩
  | @send party receiver msg point code =>
      have matched := codes party _ _ (alike.locals party)
      rw [code] at matched
      generalize shape : deployment'.code party (system'.locals party) = code' at matched
      cases matched with
      | send same =>
          obtain ⟨locals, sent, delivered, now⟩ := alike.become party same
          refine ⟨_, .send shape, locals, ?_, delivered, now⟩
          rw [System.send_sent, System.send_sent, sent, addresses, now]
  | @now party point code =>
      have matched := codes party _ _ (alike.locals party)
      rw [code] at matched
      generalize shape : deployment'.code party (system'.locals party) = code' at matched
      cases matched with
      | now same =>
          refine ⟨_, .now shape, ?_⟩
          rw [alike.now]
          exact alike.become party (same _)
  | @recv party packet point member addressed late code =>
      have matched := codes party _ _ (alike.locals party)
      rw [code] at matched
      generalize shape : deployment'.code party (system'.locals party) = code' at matched
      cases matched with
      | recv same =>
          obtain ⟨locals, sent, delivered, now⟩ := alike.become party (same packet.sender packet.msg)
          exact ⟨_, .recv (alike.sent ▸ member) (addresses ▸ addressed) (alike.now ▸ late) shape,
            locals, sent, congrArg (packet :: ·) delivered, now⟩

theorem reached_of_matches {start : System Node Msg Time Local}
    {start' : System Node Msg Time Local'}
    {allowed : System Node Msg Time Local → Event Party Node Msg Time → Prop}
    {allowed' : System Node Msg Time Local' → Event Party Node Msg Time → Prop}
    (starts : Alike related start start') (addresses : deployment'.address = deployment.address)
    (codes : ∀ party point point', related party point point' →
      (deployment.code party point).Matches (related party) (deployment'.code party point'))
    (passes : ∀ system system' event, Alike related system system' → allowed system event →
      allowed' system' event)
    (reached : ReachedUnder deployment start allowed system) :
    ∃ system', ReachedUnder deployment' start' allowed' system' ∧
      Alike related system system' := by
  induction reached with
  | start => exact ⟨start', .start, starts⟩
  | step _ allows happens ih =>
      obtain ⟨before, reached', alike⟩ := ih
      obtain ⟨after, happens', alike'⟩ := alike.step addresses codes happens
      exact ⟨after, reached'.step (passes _ _ _ alike allows) happens', alike'⟩

end Matching

end Datagrams
