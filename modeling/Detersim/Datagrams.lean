import Mathlib.Logic.Function.Basic
import Mathlib.Tactic.SplitIfs

/-!
Parties that exchange datagrams. What a party does next is read off its local
state: it sends, waits for a datagram, reads the clock, or has ended. The medium
hands over any datagram sent before now, in any order and any number of times,
or never. Proof outlines carry invariants of such systems.
-/

namespace Datagrams

variable {Party Node Msg Time : Type} {Local : Party → Type}

structure Packet (Node Msg Time : Type) where
  sender : Node
  receiver : Node
  msg : Msg
  sentAt : Time
  deriving DecidableEq

inductive Await (Node Msg Time State : Type) where
  | send (receiver : Node) (msg : Msg) (next : State)
  | recv (next : Node → Msg → State)
  | now (next : Time → State)
  | ended

/-- `delivered` lists what was handed over, the latest first; no party sees it. -/
structure System (Node Msg Time : Type) (Local : Party → Type) where
  locals : (party : Party) → Local party
  sent : List (Packet Node Msg Time)
  delivered : List (Packet Node Msg Time)
  now : Time

inductive Event (Party Node Msg Time : Type) where
  | tick (time : Time)
  | act (party : Party)
  | deliver (party : Party) (packet : Packet Node Msg Time)

/-- What each party runs, and where it is addressed. -/
structure Deployment (Party Node Msg Time : Type) (Local : Party → Type) where
  address : Party → Node
  code : (party : Party) → Local party → Await Node Msg Time (Local party)

namespace System

variable (system : System Node Msg Time Local) (sender receiver : Node) (msg : Msg)
  (packet : Packet Node Msg Time)

def become [DecidableEq Party] (party : Party) (next : Local party) : System Node Msg Time Local :=
  { system with locals := Function.update system.locals party next }

def send : System Node Msg Time Local :=
  { system with sent := system.sent ++ [⟨sender, receiver, msg, system.now⟩] }

def handOver : System Node Msg Time Local :=
  { system with delivered := packet :: system.delivered }

@[simp] theorem become_self [DecidableEq Party] (party : Party) (next : Local party) :
    (system.become party next).locals party = next :=
  Function.update_self party next system.locals

@[simp] theorem become_other [DecidableEq Party] {party other : Party} (next : Local party)
    (different : other ≠ party) :
    (system.become party next).locals other = system.locals other :=
  Function.update_of_ne different next system.locals

@[simp] theorem become_sent [DecidableEq Party] (party : Party) (next : Local party) :
    (system.become party next).sent = system.sent := rfl

@[simp] theorem send_locals : (system.send sender receiver msg).locals = system.locals := rfl

@[simp] theorem send_sent : (system.send sender receiver msg).sent =
    system.sent ++ [⟨sender, receiver, msg, system.now⟩] := rfl

@[simp] theorem handOver_locals : (system.handOver packet).locals = system.locals := rfl

end System

variable [DecidableEq Party] [LE Time] [LT Time]

section Runs

variable (deployment : Deployment Party Node Msg Time Local)

/-- Everything that can happen. -/
inductive Happens (system : System Node Msg Time Local) :
    Event Party Node Msg Time → System Node Msg Time Local → Prop where
  | tick {time} : system.now ≤ time → Happens system (.tick time) { system with now := time }
  | send {party receiver msg next} :
      deployment.code party (system.locals party) = .send receiver msg next →
      Happens system (.act party)
        ((system.become party next).send (deployment.address party) receiver msg)
  | now {party next} : deployment.code party (system.locals party) = .now next →
      Happens system (.act party) (system.become party (next system.now))
  | recv {party packet next} : packet ∈ system.sent →
      packet.receiver = deployment.address party → packet.sentAt < system.now →
      deployment.code party (system.locals party) = .recv next →
      Happens system (.deliver party packet)
        ((system.become party (next packet.sender packet.msg)).handOver packet)

/-- States of the runs all of whose steps are allowed. -/
inductive ReachedUnder (start : System Node Msg Time Local)
    (allowed : System Node Msg Time Local → Event Party Node Msg Time → Prop) :
    System Node Msg Time Local → Prop where
  | start : ReachedUnder start allowed start
  | step {system event next} : ReachedUnder start allowed system → allowed system event →
      Happens deployment system event next → ReachedUnder start allowed next

/-- States of any run. -/
abbrev Reached (start : System Node Msg Time Local) : System Node Msg Time Local → Prop :=
  ReachedUnder deployment start fun _ _ => True

end Runs

/-! What a run never undoes. -/

/-- Datagrams stay, and new ones are sent now or later. -/
structure Extends (before after : System Node Msg Time Local) : Prop where
  delivered : before.delivered ⊆ after.delivered
  sent : ∀ packet ∈ after.sent, packet ∈ before.sent ∨ before.now ≤ packet.sentAt
  now : before.now ≤ after.now

/-- And each party is as it was, or has moved on. -/
structure Follows (keeps : (party : Party) → Local party → Local party → Prop)
    (before after : System Node Msg Time Local) : Prop extends Extends before after where
  keeps : ∀ party, keeps party (before.locals party) (after.locals party)

section Extends

variable {deployment : Deployment Party Node Msg Time Local}
  {before after : System Node Msg Time Local} {event : Event Party Node Msg Time}

theorem Happens.extends (refl : ∀ time : Time, time ≤ time)
    (happens : Happens deployment before event after) : Extends before after := by
  cases happens with
  | tick later => exact ⟨List.Subset.refl _, fun _ old => Or.inl old, later⟩
  | send =>
      refine ⟨List.Subset.refl _, ?_, refl _⟩
      intro packet member
      rcases List.mem_append.mp member with old | new
      · exact Or.inl old
      · exact Or.inr (List.mem_singleton.mp new ▸ refl _)
  | now => exact ⟨List.Subset.refl _, fun _ old => Or.inl old, refl _⟩
  | @recv party packet => exact ⟨List.subset_cons_self packet _, fun _ old => Or.inl old, refl _⟩

end Extends

/-- An assertion that no run undoes. -/
structure Lasting (Node Msg Time : Type) [LE Time] {Local : Party → Type}
    (keeps : (party : Party) → Local party → Local party → Prop) where
  holds : System Node Msg Time Local → Prop
  lasts : ∀ {before after}, Follows keeps before after → holds before → holds after

namespace Lasting

omit [DecidableEq Party] [LT Time]

variable {keeps : (party : Party) → Local party → Local party → Prop}

instance : CoeFun (Lasting Node Msg Time keeps) fun _ => System Node Msg Time Local → Prop := ⟨holds⟩

/-- A party has got somewhere. -/
def ofLocal (party : Party) (reached : Local party → Prop)
    (kept : ∀ {state next}, keeps party state next → reached state → reached next) :
    Lasting Node Msg Time keeps where
  holds system := reached (system.locals party)
  lasts follows := kept (follows.keeps party)

def fact (claim : Prop) : Lasting Node Msg Time keeps := ⟨fun _ => claim, fun _ => id⟩

def both (left right : Lasting Node Msg Time keeps) : Lasting Node Msg Time keeps where
  holds system := left system ∧ right system
  lasts follows := And.imp (left.lasts follows) (right.lasts follows)

def all {Index : Type} (claims : Index → Lasting Node Msg Time keeps) :
    Lasting Node Msg Time keeps where
  holds system := ∀ index, claims index system
  lasts follows held index := (claims index).lasts follows (held index)

def any {Index : Type} (claims : Index → Lasting Node Msg Time keeps) :
    Lasting Node Msg Time keeps where
  holds system := ∃ index, claims index system
  lasts follows := Exists.imp fun index => (claims index).lasts follows

/-- Of some datagram that was handed over. -/
def handed (claims : Packet Node Msg Time → Lasting Node Msg Time keeps) :
    Lasting Node Msg Time keeps where
  holds system := ∃ packet ∈ system.delivered, claims packet system
  lasts follows := fun ⟨packet, member, held⟩ =>
    ⟨packet, follows.delivered member, (claims packet).lasts follows held⟩

@[simp] theorem ofLocal_holds (party : Party) (reached : Local party → Prop)
    (kept : ∀ {state next}, keeps party state next → reached state → reached next)
    (system : System Node Msg Time Local) :
    (ofLocal party reached @kept : Lasting Node Msg Time keeps) system ↔
      reached (system.locals party) := Iff.rfl

end Lasting

/-! Proof outlines: an assertion for each point of a party and another for each
datagram on its way. Both may use whatever is never undone, so that a move has
to show no more than the assertions about the party that makes it. -/

structure Outline (Node Msg Time : Type) [LE Time] (Local : Party → Type) where
  keeps : (party : Party) → Local party → Local party → Prop
  fits : System Node Msg Time Local → (party : Party) → Local party → Prop
  known : System Node Msg Time Local → Packet Node Msg Time → Prop
  keeps_refl : ∀ party state, keeps party state state
  fits_stable : ∀ {before after}, Follows keeps before after →
    ∀ {party state}, fits before party state → fits after party state
  known_stable : ∀ {before after}, Follows keeps before after →
    ∀ {packet}, known before packet → known after packet

namespace Outline

variable (outline : Outline Node Msg Time Local) {before after : System Node Msg Time Local}

structure Holds (system : System Node Msg Time Local) : Prop where
  parties : ∀ party, outline.fits system party (system.locals party)
  packets : ∀ packet ∈ system.sent, outline.known system packet

/-- What the move of a party to `next` has to show. -/
structure Moves (before after : System Node Msg Time Local) (party : Party) (next : Local party) :
    Prop where
  keeps : outline.keeps party (before.locals party) next
  fits : Follows outline.keeps before after → outline.fits after party next

variable {outline}

omit [LT Time] [DecidableEq Party] in
/-- A party may stay where it is. -/
theorem Moves.stay {party : Party} {next : Local party}
    (fits : outline.fits before party (before.locals party)) (same : next = before.locals party) :
    outline.Moves before after party next := by
  subst same
  exact ⟨outline.keeps_refl party _, fun follows => outline.fits_stable follows fits⟩

omit [LT Time] [DecidableEq Party] in
/-- A move, of a party whose state is known. -/
theorem Moves.of {party : Party} {state next : Local party} (same : before.locals party = state)
    (keeps : outline.keeps party state next)
    (fits : Follows outline.keeps before after → outline.fits after party next) :
    outline.Moves before after party next := by
  subst same
  exact ⟨keeps, fits⟩

omit [LT Time] in
theorem Holds.move (holds : outline.Holds before) (grows : Extends before after) (party : Party)
    (next : Local party) (locals : after.locals = (before.become party next).locals)
    (moves : outline.Moves before after party next)
    (packets : Follows outline.keeps before after → ∀ packet ∈ after.sent,
      packet ∈ before.sent ∨ outline.known after packet) : outline.Holds after := by
  -- Only `party` moved, so for the others stability is all there is to show.
  have other {own : Party} (different : own ≠ party) : after.locals own = before.locals own := by
    rw [locals, System.become_other _ _ different]
  have same : after.locals party = next := by rw [locals, System.become_self]
  have follows : Follows outline.keeps before after := by
    refine { grows with keeps := fun own => ?_ }
    by_cases named : own = party
    · subst named
      exact same.symm ▸ moves.keeps
    · exact other named ▸ outline.keeps_refl own _
  constructor
  · intro own
    by_cases named : own = party
    · subst named
      exact same.symm ▸ moves.fits follows
    · exact other named ▸ outline.fits_stable follows (holds.parties own)
  · intro packet member
    rcases packets follows packet member with old | known
    · exact outline.known_stable follows (holds.packets packet old)
    · exact known

variable (outline) in
/-- What one party has to show about the step it takes next. -/
structure Rule (deployment : Deployment Party Node Msg Time Local)
    (allowed : System Node Msg Time Local → Event Party Node Msg Time → Prop)
    (before : System Node Msg Time Local) (party : Party) : Prop where
  sends : ∀ {receiver msg next},
    deployment.code party (before.locals party) = .send receiver msg next →
    let after := (before.become party next).send (deployment.address party) receiver msg
    outline.keeps party (before.locals party) next ∧ (Follows outline.keeps before after →
      outline.fits after party next ∧
        outline.known after ⟨deployment.address party, receiver, msg, before.now⟩)
  reads : ∀ {next}, deployment.code party (before.locals party) = .now next →
    outline.Moves before (before.become party (next before.now)) party (next before.now)
  receives : ∀ {packet next}, packet ∈ before.sent → outline.known before packet →
    packet.receiver = deployment.address party → packet.sentAt < before.now →
    allowed before (.deliver party packet) →
    deployment.code party (before.locals party) = .recv next →
    outline.Moves before ((before.become party (next packet.sender packet.msg)).handOver packet)
      party (next packet.sender packet.msg)

section Rules

variable {deployment : Deployment Party Node Msg Time Local}
  {allowed : System Node Msg Time Local → Event Party Node Msg Time → Prop}

/-- The rule for one step. -/
theorem Holds.step {event : Event Party Node Msg Time} (refl : ∀ time : Time, time ≤ time)
    (holds : outline.Holds before) (rules : ∀ party, outline.Rule deployment allowed before party)
    (allows : allowed before event) (happens : Happens deployment before event after) :
    outline.Holds after := by
  have grows := happens.extends refl
  cases happens with
  | tick later =>
      have follows : Follows outline.keeps before { before with now := _ } :=
        { grows with keeps := fun party => outline.keeps_refl party _ }
      exact ⟨fun party => outline.fits_stable follows (holds.parties party),
        fun packet member => outline.known_stable follows (holds.packets packet member)⟩
  | send code =>
      obtain ⟨keeps, shows⟩ := (rules _).sends code
      refine holds.move grows _ _ rfl ⟨keeps, fun follows => (shows follows).1⟩ ?_
      intro follows packet member
      rcases List.mem_append.mp member with old | new
      · exact Or.inl old
      · exact Or.inr (List.mem_singleton.mp new ▸ (shows follows).2)
  | now code => exact holds.move grows _ _ rfl ((rules _).reads code) fun _ _ old => Or.inl old
  | recv member addressed late code =>
      have moves := (rules _).receives member (holds.packets _ member) addressed late allows code
      exact holds.move grows _ _ rfl moves fun _ _ old => Or.inl old

/-- The rule for runs. -/
theorem holds_of_reached {start system : System Node Msg Time Local}
    (refl : ∀ time : Time, time ≤ time) (init : outline.Holds start)
    (rules : ∀ before, outline.Holds before → ∀ party,
      outline.Rule deployment allowed before party)
    (reached : ReachedUnder deployment start allowed system) : outline.Holds system := by
  induction reached with
  | start => exact init
  | step _ allows happens ih => exact ih.step refl (rules _ ih) allows happens

end Rules

end Outline

/-! Running listed events. -/
section Running

variable [DecidableEq Node] [DecidableEq Msg] [DecidableEq Time] [DecidableLE Time]
  [DecidableLT Time] (deployment : Deployment Party Node Msg Time Local)

/-- One event, when it can happen. -/
def step (system : System Node Msg Time Local) :
    Event Party Node Msg Time → Option (System Node Msg Time Local)
  | .tick time => if system.now ≤ time then some { system with now := time } else none
  | .act party => match deployment.code party (system.locals party) with
    | .send receiver msg next =>
        some ((system.become party next).send (deployment.address party) receiver msg)
    | .now next => some (system.become party (next system.now))
    | .recv _ | .ended => none
  | .deliver party packet =>
      if packet ∈ system.sent ∧ packet.receiver = deployment.address party ∧
          packet.sentAt < system.now then
        match deployment.code party (system.locals party) with
        | .recv next =>
            some ((system.become party (next packet.sender packet.msg)).handOver packet)
        | .send .. | .now _ | .ended => none
      else none

theorem step_happens {system next : System Node Msg Time Local}
    {event : Event Party Node Msg Time} (taken : step deployment system event = some next) :
    Happens deployment system event next := by
  cases event with
  | tick time =>
      simp only [step, Option.ite_none_right_eq_some, Option.some.injEq] at taken
      obtain ⟨later, rfl⟩ := taken
      exact .tick later
  | act party =>
      simp only [step] at taken
      cases code : deployment.code party (system.locals party) with
      | send receiver msg after =>
          rw [code] at taken
          cases taken
          exact .send code
      | now after =>
          rw [code] at taken
          cases taken
          exact .now code
      | recv after => simp [code] at taken
      | ended => simp [code] at taken
  | deliver party packet =>
      simp only [step] at taken
      split_ifs at taken with allowed
      obtain ⟨sent, addressed, late⟩ := allowed
      cases code : deployment.code party (system.locals party) with
      | recv after =>
          rw [code] at taken
          cases taken
          exact .recv sent addressed late code
      | send | now | ended => simp [code] at taken

variable (allowed : System Node Msg Time Local → Event Party Node Msg Time → Prop)
  [∀ system event, Decidable (allowed system event)]

/-- Runs the listed events, each allowed where it stands. -/
def runUnder (system : System Node Msg Time Local) (events : List (Event Party Node Msg Time)) :
    Option (System Node Msg Time Local) :=
  events.foldlM (fun system event =>
    if allowed system event then step deployment system event else none) system

theorem reachedUnder_of_run (events : List (Event Party Node Msg Time))
    {start system last : System Node Msg Time Local}
    (reached : ReachedUnder deployment start allowed system)
    (ran : runUnder deployment allowed system events = some last) :
    ReachedUnder deployment start allowed last := by
  induction events generalizing system with
  | nil =>
      cases ran
      exact reached
  | cons event rest ih =>
      rw [runUnder, List.foldlM_cons] at ran
      obtain ⟨next, taken, ran⟩ := Option.bind_eq_some_iff.mp ran
      split_ifs at taken with fits
      exact ih (reached.step fits (step_happens deployment taken)) ran

end Running

end Datagrams
