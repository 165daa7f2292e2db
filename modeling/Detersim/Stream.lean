import Detersim.Core
import Detersim.SortedMap
import Mathlib.Data.Finset.Insert

/-!
A one-way stream of numbered frames. A send takes the next number whatever
becomes of the frame, and frames are delivered from a buffer in the order of
their numbers, without gaps.
-/

namespace Detersim

structure StreamEndpoint where
  node : NodeId
  connection : Nat

structure Frame where
  seq : Nat
  bytes : List UInt8
  deriving DecidableEq

inductive StreamFault where
  | drop (seq : Nat)
  | duplicate (seq : Nat)
  | delay (seq afterSeq : Nat)
  | disconnect
  | reconnect
  deriving DecidableEq

structure StreamEvent where
  label : String
  deriving DecidableEq

structure StreamTranscript where
  events : List StreamEvent
  delivered : List Frame
  deriving DecidableEq

def StreamTranscript.record (transcript : StreamTranscript) (label : String) : StreamTranscript :=
  { transcript with events := transcript.events ++ [⟨label⟩] }

structure DeterministicStream where
  source : StreamEndpoint
  target : StreamEndpoint
  nextSend : Nat
  nextDeliver : Nat
  connected : Bool
  buffered : SortedMap Nat Frame
  deliveredOnce : Finset Nat
  transcript : StreamTranscript

/-! The labels, as the source formats them. -/

def blockedLabel (seq : Nat) : String := "stream:blocked:seq=" ++ toString seq

def dropLabel (seq : Nat) : String := "stream:drop:seq=" ++ toString seq

def enqueueLabel (seq : Nat) : String := "stream:enqueue:seq=" ++ toString seq

def duplicateLabel (seq : Nat) : String := "stream:duplicate:seq=" ++ toString seq

def delayLabel (seq afterSeq : Nat) : String :=
  "stream:delay:seq=" ++ (toString seq ++ ":after=" ++ toString afterSeq)

def deliverLabel (source target : NodeId) (seq : Nat) : String :=
  "stream:deliver:" ++ (toString source ++ "->" ++ toString target ++ ":seq=" ++ toString seq)

namespace DeterministicStream

def new (source target : StreamEndpoint) : DeterministicStream where
  source
  target
  nextSend := 0
  nextDeliver := 0
  connected := true
  buffered := .empty
  deliveredOnce := ∅
  transcript := ⟨[], []⟩

def record (stream : DeterministicStream) (label : String) : DeterministicStream :=
  { stream with transcript := stream.transcript.record label }

/-- The body of the loop in `drain_ordered`, for the frame taken out of the buffer. -/
def deliver (stream : DeterministicStream) (frame : Frame) : DeterministicStream :=
  let stream := { stream with buffered := stream.buffered.remove stream.nextDeliver }
  let stream :=
    if frame.seq ∈ stream.deliveredOnce then stream
    else
      let stream := { stream with deliveredOnce := insert frame.seq stream.deliveredOnce }.record
        (deliverLabel stream.source.node stream.target.node frame.seq)
      { stream with transcript.delivered := stream.transcript.delivered ++ [frame] }
  { stream with nextDeliver := stream.nextDeliver + 1 }

/-- Every turn takes a frame out of the buffer, so its size is fuel enough. -/
def drainLoop : Nat → DeterministicStream → DeterministicStream
  | 0, stream => stream
  | fuel + 1, stream => match stream.buffered.get stream.nextDeliver with
    | none => stream
    | some frame => drainLoop fuel (stream.deliver frame)

def drainOrdered (stream : DeterministicStream) : DeterministicStream :=
  drainLoop stream.buffered.size stream

/-- A disconnect comes before a reconnect, in whatever order the list has them. -/
def switchConnection (stream : DeterministicStream) (faults : List StreamFault) :
    DeterministicStream :=
  let stream :=
    if .disconnect ∈ faults then { stream with connected := false }.record "stream:disconnect"
    else stream
  if .reconnect ∈ faults then { stream with connected := true }.record "stream:reconnect"
  else stream

/-- The rest of `send` for a frame that is neither blocked nor dropped. -/
def enqueue (stream : DeterministicStream) (frame : Frame) (faults : List StreamFault) :
    DeterministicStream :=
  let delayedAfter := faults.findSome? fun
    | .delay seq afterSeq => if seq = frame.seq then some afterSeq else none
    | _ => none
  let stream := { stream with buffered := stream.buffered.insert frame.seq frame }.record
    (enqueueLabel frame.seq)
  let stream :=
    if .duplicate frame.seq ∈ faults then
      { stream with buffered := stream.buffered.insert frame.seq frame }.record
        (duplicateLabel frame.seq)
    else stream
  match delayedAfter with
  | none => stream.drainOrdered
  | some afterSeq =>
      let stream := stream.record (delayLabel frame.seq afterSeq)
      -- A delayed frame stays in the buffer until something else drains it.
      if stream.nextDeliver ≤ afterSeq then stream else stream.drainOrdered

def send (stream : DeterministicStream) (bytes : List UInt8) (faults : List StreamFault) :
    DeterministicStream :=
  let frame : Frame := ⟨stream.nextSend, bytes⟩
  let stream := { stream with nextSend := stream.nextSend + 1 }.switchConnection faults
  if stream.connected = false then stream.record (blockedLabel frame.seq)
  else if .drop frame.seq ∈ faults then stream.record (dropLabel frame.seq)
  else stream.enqueue frame faults

def flush (stream : DeterministicStream) : DeterministicStream := stream.drainOrdered

def intoTranscript (stream : DeterministicStream) : StreamTranscript := stream.flush.transcript

end DeterministicStream

def connectPair (left right : NodeId) (connection : Nat) : DeterministicStream :=
  .new ⟨left, connection⟩ ⟨right, connection⟩

/-! What a caller does with a stream, and what can be told from that alone. -/

inductive StreamOp where
  | send (bytes : List UInt8) (faults : List StreamFault)
  | flush

def StreamOp.apply (stream : DeterministicStream) : StreamOp → DeterministicStream
  | .send bytes faults => stream.send bytes faults
  | .flush => stream.flush

def DeterministicStream.play (stream : DeterministicStream) (ops : List StreamOp) :
    DeterministicStream :=
  ops.foldl StreamOp.apply stream

/-- The frames in the order of the sends, numbered from `start`. -/
def framesFrom (start : Nat) : List StreamOp → List Frame
  | [] => []
  | .send bytes _ :: rest => ⟨start, bytes⟩ :: framesFrom (start + 1) rest
  | .flush :: rest => framesFrom start rest

def sentFrames (ops : List StreamOp) : List Frame := framesFrom 0 ops

def connectedAfter (connected : Bool) (faults : List StreamFault) : Bool :=
  decide (.reconnect ∈ faults) || (!decide (.disconnect ∈ faults) && connected)

/-- Whether the send numbered `seq` is blocked or dropped. -/
def isLost (connected : Bool) (seq : Nat) (faults : List StreamFault) : Bool :=
  !connectedAfter connected faults || decide (.drop seq ∈ faults)

def lossesFrom (connected : Bool) (start : Nat) : List StreamOp → List Bool
  | [] => []
  | .send _ faults :: rest =>
      isLost connected start faults ::
        lossesFrom (connectedAfter connected faults) (start + 1) rest
  | .flush :: rest => lossesFrom connected start rest

/-- For each send, whether its frame is blocked or dropped. -/
def losses (ops : List StreamOp) : List Bool := lossesFrom true 0 ops

end Detersim
