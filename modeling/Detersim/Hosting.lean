import Detersim.Identities
import Detersim.MessageConservation
import Detersim.NetworkDelays
import Detersim.Traffic

/-!
Parties of the datagram model as node programs of a world. A party runs until it
has to wait, in polls of at most `pace` steps each.
-/

namespace Detersim.Hosting

open Datagrams

variable {Party : Type} {Local : Party → Type}

/-- A deployment with what a node program adds to it. A party at a point with a
deadline sleeps there, and it records its results when it returns. -/
structure Host (Party : Type) (Local : Party → Type) where
  deployment : Deployment Party NodeId String SimTime Local
  start : (party : Party) → Local party
  deadline : (party : Party) → Local party → Option SimTime
  results : (party : Party) → Local party → List String
  encode : String → Message
  decode : Message → String
  decode_encode : ∀ text, decode (encode text) = text
  apart : Function.Injective deployment.address
  wakes : ∀ party point limit next, deadline party point = some limit →
    deployment.code party point = .now next → ∀ time, limit ≤ time → next time = next limit

/-- The state of a party's task: where it stands, and the future it waits for. -/
structure Seat (Local : Party → Type) where
  party : Party
  point : Local party
  holding : Option FutureId

abbrev Hosted (Local : Party → Type) := Inner (Seat Local) Unit

abbrev HostedPoll (Local : Party → Type) := Code (Seat Local) Unit (TaskPoll (Seat Local) Unit)

namespace Host

variable (host : Host Party Local)

/-- A panic ends a run; here the party only never goes on. -/
def halt (party : Party) (point : Local party) : HostedPoll Local :=
  .done (.pending ⟨party, point, none⟩)

/-- What a party makes of the answer to the poll of the future it waits for. -/
def answered (follow : (party : Party) → Local party → HostedPoll Local) (party : Party)
    (point : Local party) (id : FutureId) : Reply Unit → HostedPoll Local
  | .message sender msg => match host.deployment.code party point with
    | .recv next => follow party (next sender (host.decode msg))
    | _ => halt party point
  | .ready => match host.deployment.code party point, host.deadline party point with
    | .now next, some limit => follow party (next limit)
    | _, _ => halt party point
  | .pending => .done (.pending ⟨party, point, some id⟩)
  | _ => halt party point

/-- `.await` polls a future right after it was made. -/
def await (follow : (party : Party) → Local party → HostedPoll Local) (party : Party)
    (point : Local party) : Reply Unit → HostedPoll Local
  | .future id => .call (.poll id) (host.answered follow party point id)
  | _ => halt party point

def recordAll (env : NodeId) : List String → HostedPoll Local
  | [] => .done (.ready ())
  | line :: rest => .call (.record env line) fun _ => recordAll env rest

def follow : Nat → (party : Party) → Local party → HostedPoll Local
  | 0, party, point => halt party point
  | pace + 1, party, point => match host.deployment.code party point with
    | .send receiver msg next =>
        .call (.send (host.deployment.address party) receiver (host.encode msg)) fun
          | .unit => follow pace party next
          | _ => halt party point
    | .now next => match host.deadline party point with
      | none => .call (.now (host.deployment.address party)) fun
          | .time time => follow pace party (next time)
          | _ => halt party point
      | some limit => .call (.sleepUntil (host.deployment.address party) limit)
          (host.await (follow pace) party point)
    | .recv _ => .call (.recv (host.deployment.address party)) (host.await (follow pace) party point)
    | .ended => recordAll (host.deployment.address party) (host.results party point)

def program (pace : Nat) : Program (Seat Local) Unit := fun seat => match seat.holding with
  | none => host.follow pace seat.party seat.point
  | some id => .call (.poll id) (host.answered (host.follow pace) seat.party seat.point id)

def factory (party : Party) : NodeFactory (Seat Local) Unit :=
  fun _ => .done ⟨party, host.start party, none⟩

def system : System NodeId String SimTime Local := ⟨host.start, [], [], 0⟩

end Host

/-! What the medium may do, and what the world must do for that. -/

/-- Nothing gets past a barred link. When `single`, of equal datagrams no more are
handed over than were sent. -/
def Passes (barred : NodeId → NodeId → Prop) (single : Bool)
    (system : System NodeId String SimTime Local) : Event Party NodeId String SimTime → Prop
  | .deliver party packet => ¬ barred packet.sender packet.receiver ∧
      (single = true → Sparing system (.deliver party packet))
  | .tick _ | .act _ => True

/-- Each node is that of a party and is never started again, no clock is skewed,
nothing is scheduled for the past, and the horizon is not the last instant. -/
def conditions (Plan : Type) (host : Host Party Local) (barred : NodeId → NodeId → Prop)
    (single : Bool) : Inner.StepConditions (Seat Local) Unit Plan where
  operate g
    | .addNode node factory => ∃ party, node = host.deployment.address party ∧
        factory node = .done ⟨party, host.start party, none⟩
    | .scheduleNemesis at_ _ => g.now ≤ at_
    | .scheduleNemesisPlan _ _ => g.now = 0
    | .setDuplicatePercent percent => single = true → percent = 0
    | .partition _ | .healAll | .setDropPercent _ | .setExtraDelayMs _ | .crashNode _ => True
    | .setClockSkew _ _ | .restartNode _ | .restartNodeOutcome _ | .useEnv _ => False
  turn g event := g.config.horizonNs.toNat < u64Max ∧ match event.kind with
    | .nemesis (.restart _) | .nemesis (.clockSkew _ _) => False
    | .deliverMsg sender receiver _ =>
        barred sender receiver → g.faults.connectivity.isConnected sender receiver = false
    | _ => True
  abort _ _ := True

end Detersim.Hosting
