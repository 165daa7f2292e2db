import Detersim.Traffic
import Mathlib.Logic.Function.Iterate

/-!
All interleavings of a deployment, one layer of snapshots a step. A snapshot keeps no
times, so that parties that only record them have few snapshots. Whatever the layers
show holds of every run in which nothing is handed over more often than it was sent,
and when they run dry no run takes more steps.
-/

namespace Datagrams

variable {Party Node Msg Time : Type} {Local : Party → Type}

/-- The clock goes on by itself. -/
def Event.steps : Event Party Node Msg Time → Nat
  | .tick _ => 0
  | .act _ | .deliver .. => 1

/-- States of the runs all of whose steps are allowed, with the steps of the parties. -/
inductive ReachedIn [DecidableEq Party] [LE Time] [LT Time]
    (deployment : Deployment Party Node Msg Time Local) (start : System Node Msg Time Local)
    (allowed : System Node Msg Time Local → Event Party Node Msg Time → Prop) :
    Nat → System Node Msg Time Local → Prop where
  | start : ReachedIn deployment start allowed 0 start
  | step {count system event next} : ReachedIn deployment start allowed count system →
      allowed system event → Happens deployment system event next →
      ReachedIn deployment start allowed (count + event.steps) next

theorem ReachedIn.reached [DecidableEq Party] [LE Time] [LT Time]
    {deployment : Deployment Party Node Msg Time Local} {start system : System Node Msg Time Local}
    {allowed : System Node Msg Time Local → Event Party Node Msg Time → Prop} {count : Nat}
    (reached : ReachedIn deployment start allowed count system) :
    ReachedUnder deployment start allowed system := by
  induction reached with
  | start => exact .start
  | step _ allows happens ih => exact ih.step allows happens

/-- Nothing more happens without the clock: each party has ended, or waits, and all
that was sent to it over links that are not barred was handed over. -/
def Settled [DecidableEq Node] [DecidableEq Msg] (deployment : Deployment Party Node Msg Time Local)
    (barred : Node → Node → Prop) (system : System Node Msg Time Local) : Prop :=
  ∀ party, deployment.code party (system.locals party) = .ended ∨
    ∃ next, deployment.code party (system.locals party) = .recv next ∧
      ∀ sender msg, ¬ barred sender (deployment.address party) →
        system.sent.countP (carries sender (deployment.address party) msg) ≤
          system.delivered.countP (carries sender (deployment.address party) msg)

/-! Parties without their times. -/

def Await.erase {State : Type} (blank : Time) (erase : State → State) :
    Await Node Msg Time State → Await Node Msg Time State
  | .send receiver msg next => .send receiver msg (erase next)
  | .recv next => .recv fun sender msg => erase (next sender msg)
  | .now next => .now fun _ => erase (next blank)
  | .ended => .ended

/-- Times that no party looks at, but where it looks out for one. -/
structure Erasure (deployment : Deployment Party Node Msg Time Local) where
  blank : Time
  erase : (party : Party) → Local party → Local party
  looks : (party : Party) → Local party → Bool
  code : ∀ party state, (deployment.code party (erase party state)).erase blank (erase party) =
    (deployment.code party state).erase blank (erase party)
  looks_erase : ∀ party state, looks party (erase party state) = looks party state
  reads : ∀ party state next, looks party state = false → deployment.code party state = .now next →
    ∀ time, erase party (next time) = erase party (next blank)

/-- Where the parties are, what is on its way, and how much was sent. -/
structure Snapshot (Node Msg : Type) (Local : Party → Type) where
  locals : (party : Party) → Local party
  pool : List (Node × Node × Msg)
  sends : Nat

section Explorer

variable [DecidableEq Party] [DecidableEq Node] [DecidableEq Msg]
  (deployment : Deployment Party Node Msg Time Local) (erasure : Erasure deployment)
  (barred : Node → Node → Prop) [∀ sender receiver, Decidable (barred sender receiver)]
  (parties : List Party)

/-- What a party may do next. -/
def Snapshot.moves (snapshot : Snapshot Node Msg Local) (party : Party) :
    List (Snapshot Node Msg Local) :=
  match (deployment.code party (snapshot.locals party)).erase erasure.blank (erasure.erase party) with
  | .send receiver msg next =>
      [⟨Function.update snapshot.locals party next,
        (deployment.address party, receiver, msg) :: snapshot.pool, snapshot.sends + 1⟩]
  | .now next =>
      [⟨Function.update snapshot.locals party (next erasure.blank), snapshot.pool, snapshot.sends⟩]
  | .recv next =>
      (snapshot.pool.filter fun packet =>
        decide (packet.2.1 = deployment.address party ∧ ¬ barred packet.1 packet.2.1)).map
          fun packet => ⟨Function.update snapshot.locals party (next packet.1 packet.2.2),
            snapshot.pool.erase packet, snapshot.sends⟩
  | .ended => []

def Snapshot.nexts (snapshot : Snapshot Node Msg Local) : List (Snapshot Node Msg Local) :=
  parties.flatMap (snapshot.moves deployment erasure barred)

variable [∀ party, DecidableEq (Local party)]

/-- The same parties at the same points, and the same traffic in any order. -/
def Snapshot.same (left right : Snapshot Node Msg Local) : Bool :=
  decide (left.sends = right.sends) &&
    parties.all (fun party => decide (left.locals party = right.locals party)) &&
    left.pool.isPerm right.pool

def gather (snapshots : List (Snapshot Node Msg Local)) : List (Snapshot Node Msg Local) :=
  snapshots.foldl (fun kept snapshot =>
    if kept.any (snapshot.same parties) then kept else snapshot :: kept) []

/-- One step further. -/
def advance (layer : List (Snapshot Node Msg Local)) : List (Snapshot Node Msg Local) :=
  gather parties (layer.flatMap (Snapshot.nexts deployment erasure barred parties))

/-- All snapshots of the first layers are fine, and there are no more. -/
def explore (fine : Snapshot Node Msg Local → Bool) : Nat → List (Snapshot Node Msg Local) → Bool
  | 0, layer => layer.isEmpty
  | bound + 1, layer =>
      layer.all fine && explore fine bound (advance deployment erasure barred parties layer)

end Explorer

/-! What the layers show. -/

section Layers

variable [DecidableEq Party] [DecidableEq Node] [DecidableEq Msg]
  {deployment : Deployment Party Node Msg Time Local} {erasure : Erasure deployment}
  {barred : Node → Node → Prop} [∀ sender receiver, Decidable (barred sender receiver)]
  {parties : List Party} {system next start : System Node Msg Time Local}
  {snapshot : Snapshot Node Msg Local}

/-- A state of a run without its times. -/
structure Snapshot.Of (erasure : Erasure deployment) (system : System Node Msg Time Local)
    (snapshot : Snapshot Node Msg Local) : Prop where
  locals : ∀ party, snapshot.locals party = erasure.erase party (system.locals party)
  pool : ∀ sender receiver msg, snapshot.pool.count (sender, receiver, msg) +
    system.delivered.countP (carries sender receiver msg) =
      system.sent.countP (carries sender receiver msg)
  sends : snapshot.sends = system.sent.length

omit [DecidableEq Party] in
theorem Snapshot.Of.code (of : snapshot.Of erasure system) (party : Party) :
    (deployment.code party (snapshot.locals party)).erase erasure.blank (erasure.erase party) =
      (deployment.code party (system.locals party)).erase erasure.blank (erasure.erase party) := by
  rw [of.locals, erasure.code]

omit [DecidableEq Party] in
/-- A datagram that is handed over leaves the pool. -/
theorem Snapshot.Of.handOver (of : snapshot.Of erasure system) {packet : Packet Node Msg Time}
    (waiting : (packet.sender, packet.receiver, packet.msg) ∈ snapshot.pool) (sender receiver : Node)
    (msg : Msg) :
    (snapshot.pool.erase (packet.sender, packet.receiver, packet.msg)).count (sender, receiver, msg) +
      (packet :: system.delivered).countP (carries sender receiver msg) =
        system.sent.countP (carries sender receiver msg) := by
  have balance := of.pool sender receiver msg
  have positive := List.count_pos_iff.mpr waiting
  rw [List.countP_cons, List.count_erase]
  by_cases same : (packet.sender, packet.receiver, packet.msg) = (sender, receiver, msg)
  · cases same
    simp only [carries, and_self, decide_true, if_true, beq_self_eq_true]
    omega
  · have different : carries sender receiver msg packet = false := by
      simpa [carries, Prod.mk.injEq] using same
    simp only [different, beq_iff_eq, if_neg same, Bool.false_eq_true, if_false]
    omega

omit [DecidableEq Node] [DecidableEq Msg] in
theorem update_erased (locals : ∀ party, snapshot.locals party =
    erasure.erase party (system.locals party)) (party : Party) (point : Local party) (own : Party) :
    Function.update snapshot.locals party (erasure.erase party point) own =
      erasure.erase own ((system.become party point).locals own) := by
  by_cases named : own = party
  · subst named
    simp
  · simp [named, locals]

/-- What a party does, its snapshot can do. -/
theorem Snapshot.Of.step [LE Time] [LT Time] {event : Event Party Node Msg Time}
    (of : snapshot.Of erasure system) (complete : ∀ party, party ∈ parties)
    (passes : ∀ party packet, event = .deliver party packet →
      ¬ barred packet.sender packet.receiver)
    (sparing : Sparing system event) (happens : Happens deployment system event next)
    (blind : ∀ party, erasure.looks party (snapshot.locals party) = false) :
    event.steps = 0 ∧ snapshot.Of erasure next ∨ event.steps = 1 ∧
      ∃ after ∈ snapshot.nexts deployment erasure barred parties, after.Of erasure next := by
  have found (party : Party) {after : Snapshot Node Msg Local}
      (moves : after ∈ snapshot.moves deployment erasure barred party) :
      after ∈ snapshot.nexts deployment erasure barred parties :=
    List.mem_flatMap.mpr ⟨party, complete party, moves⟩
  cases happens with
  | tick later => exact .inl ⟨rfl, of.locals, of.pool, of.sends⟩
  | @send party receiver msg point code =>
      have seen := of.code party
      rw [code] at seen
      refine .inr ⟨rfl, _,
        found party (by rw [Snapshot.moves, seen]; exact List.mem_singleton_self _), ?_⟩
      refine ⟨update_erased of.locals party point, fun sender' receiver' msg' => ?_, ?_⟩
      · have balance := of.pool sender' receiver' msg'
        rw [System.send_sent, List.countP_append, countP_carries, List.count_cons]
        simp only [Prod.mk.injEq, beq_iff_eq]
        change _ + system.delivered.countP _ = system.sent.countP _ + _
        omega
      · rw [System.send_sent, List.length_append, of.sends]
        rfl
  | @now party point code =>
      have seen := of.code party
      rw [code] at seen
      refine .inr ⟨rfl, _,
        found party (by rw [Snapshot.moves, seen]; exact List.mem_singleton_self _), ?_⟩
      refine ⟨fun own => ?_, of.pool, of.sends⟩
      change Function.update _ _ (erasure.erase party (point erasure.blank)) own = _
      have looks := blind party
      rw [of.locals, erasure.looks_erase] at looks
      rw [← erasure.reads party _ point looks code system.now]
      exact update_erased of.locals party _ own
  | @recv party packet point member addressed late code =>
      have seen := of.code party
      rw [code] at seen
      have waiting : (packet.sender, packet.receiver, packet.msg) ∈ snapshot.pool := by
        have balance := of.pool packet.sender packet.receiver packet.msg
        have fewer : _ < _ := sparing
        exact List.count_pos_iff.mp (by omega)
      refine .inr ⟨rfl, ⟨Function.update snapshot.locals party
        (erasure.erase party (point packet.sender packet.msg)),
        snapshot.pool.erase (packet.sender, packet.receiver, packet.msg), snapshot.sends⟩,
        found party ?_, update_erased of.locals party _, of.handOver waiting, of.sends⟩
      · rw [Snapshot.moves, seen]
        refine List.mem_map.mpr ⟨(packet.sender, packet.receiver, packet.msg),
          List.mem_filter.mpr ⟨waiting, decide_eq_true ⟨addressed, passes party packet rfl⟩⟩, rfl⟩

/-- A settled state has come to its end. -/
theorem Settled.nexts (of : snapshot.Of erasure system) (settled : Settled deployment barred system) :
    snapshot.nexts deployment erasure barred parties = [] := by
  refine List.flatMap_eq_nil_iff.mpr fun party _ => ?_
  have seen := of.code party
  rcases settled party with ended | ⟨point, waits, received⟩
  · rw [Snapshot.moves, seen, ended]
    rfl
  · rw [Snapshot.moves, seen, waits]
    refine List.map_eq_nil_iff.mpr (List.filter_eq_nil_iff.mpr ?_)
    rintro ⟨sender, receiver, msg⟩ member addressed
    obtain ⟨rfl, passes⟩ := of_decide_eq_true addressed
    have balance := of.pool sender (deployment.address party) msg
    have all := received sender msg passes
    have positive := List.count_pos_iff.mpr member
    omega

variable [∀ party, DecidableEq (Local party)]

omit [DecidableEq Party] in
theorem Snapshot.Of.same {other : Snapshot Node Msg Local} (of : snapshot.Of erasure system)
    (complete : ∀ party, party ∈ parties) (same : snapshot.same parties other = true) :
    other.Of erasure system := by
  simp only [Snapshot.same, Bool.and_eq_true, decide_eq_true_eq, List.all_eq_true,
    List.isPerm_iff] at same
  obtain ⟨⟨sends, locals⟩, pool⟩ := same
  exact ⟨fun party => (locals party (complete party)).symm.trans (of.locals party),
    fun sender receiver msg => pool.count_eq _ ▸ of.pool sender receiver msg, sends ▸ of.sends⟩

omit [DecidableEq Party] in
theorem mem_gather (snapshots : List (Snapshot Node Msg Local))
    (member : snapshot ∈ snapshots) :
    ∃ kept ∈ gather parties snapshots, kept = snapshot ∨ snapshot.same parties kept = true := by
  have kept (snapshots : List (Snapshot Node Msg Local)) : ∀ before : List (Snapshot Node Msg Local),
      before ⊆ snapshots.foldl (fun kept snapshot =>
        if kept.any (snapshot.same parties) then kept else snapshot :: kept) before := by
    induction snapshots with
    | nil => exact fun before => List.Subset.refl before
    | cons first rest ih =>
        intro before
        rw [List.foldl_cons]
        refine List.Subset.trans ?_ (ih _)
        split_ifs
        · exact List.Subset.refl before
        · exact List.subset_cons_self first before
  unfold gather
  generalize ([] : List (Snapshot Node Msg Local)) = before
  induction snapshots generalizing before with
  | nil => cases member
  | cons first rest ih =>
      rw [List.foldl_cons]
      rcases List.mem_cons.mp member with rfl | later
      · split_ifs with known
        · obtain ⟨other, inside, same⟩ := List.any_eq_true.mp known
          exact ⟨other, kept rest before inside, .inr same⟩
        · exact ⟨snapshot, kept rest _ List.mem_cons_self, .inl rfl⟩
      · exact ih later _

/-- The layers run dry, and all before are fine. -/
theorem explored_layers {fine : Snapshot Node Msg Local → Bool} {bound count : Nat}
    {layer : List (Snapshot Node Msg Local)}
    (explored : explore deployment erasure barred parties fine bound layer = true)
    (member : snapshot ∈ (advance deployment erasure barred parties)^[count] layer) :
    count < bound ∧ fine snapshot = true := by
  induction bound generalizing layer count with
  | zero =>
      cases List.isEmpty_iff.mp explored
      have dry (count : Nat) : (advance deployment erasure barred parties)^[count] [] = [] := by
        induction count with
        | zero => rfl
        | succ count ih => exact ih
      rw [dry] at member
      cases member
  | succ bound ih =>
      rw [explore, Bool.and_eq_true, List.all_eq_true] at explored
      obtain ⟨here, rest⟩ := explored
      cases count with
      | zero => exact ⟨Nat.succ_pos bound, here snapshot member⟩
      | succ count => exact (ih rest member).imp_left Nat.succ_lt_succ

/-- Every run goes through the layers, one a step, and the layers run dry. -/
theorem ReachedIn.explored [LE Time] [LT Time] {fine : Snapshot Node Msg Local → Bool}
    {allowed : System Node Msg Time Local → Event Party Node Msg Time → Prop}
    {bound count : Nat} {first : Snapshot Node Msg Local}
    (explored : explore deployment erasure barred parties fine bound [first] = true)
    (complete : ∀ party, party ∈ parties) (begins : first.Of erasure start)
    (blind : ∀ snapshot, fine snapshot = true →
      ∀ party, erasure.looks party (snapshot.locals party) = false)
    (passes : ∀ system party packet, allowed system (.deliver party packet) →
      ¬ barred packet.sender packet.receiver)
    (sparing : ∀ system event, allowed system event → Sparing system event)
    (reached : ReachedIn deployment start allowed count system) :
    count < bound ∧ ∃ snapshot, snapshot.Of erasure system ∧ fine snapshot = true := by
  have layered : ∃ snapshot ∈ (advance deployment erasure barred parties)^[count] [first],
      snapshot.Of erasure system := by
    induction reached with
    | start => exact ⟨first, List.mem_singleton_self first, begins⟩
    | @step count before event after _ allows happens ih =>
        obtain ⟨snapshot, member, of⟩ := ih
        have shown := (explored_layers explored member).2
        rcases of.step complete (fun party packet same => passes before party packet (same ▸ allows))
          (sparing _ _ allows) happens (blind snapshot shown) with
          ⟨none_, still⟩ | ⟨one, next, moves, of⟩
        · exact ⟨snapshot, none_ ▸ member, still⟩
        · obtain ⟨kept, inside, found⟩ := mem_gather _
            (List.mem_flatMap.mpr ⟨snapshot, member, moves⟩)
          refine ⟨kept, ?_, ?_⟩
          · rw [one, Function.iterate_succ_apply']
            exact inside
          · rcases found with rfl | same
            · exact of
            · exact of.same complete same
  obtain ⟨snapshot, member, of⟩ := layered
  obtain ⟨within, shown⟩ := explored_layers explored member
  exact ⟨within, snapshot, of, shown⟩

end Layers

end Datagrams
