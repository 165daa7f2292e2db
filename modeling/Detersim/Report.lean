import Detersim.World
import Mathlib.Data.String.Basic

/-!
What `World::run` returns. Trace lines and fault actions are rendered as the
source renders them, because the coverage signals are read off the rendered
lines. `payload` is the text of a message: its lossy decoding, in debug form.
-/

namespace Detersim

/-! Text. -/

def padLeft (width : Nat) (text : String) : String :=
  String.ofList (List.replicate (width - text.length) ' ') ++ text

def isWhiteSpace (ch : Char) : Bool :=
  let code := ch.toNat
  (decide (0x9 ≤ code) && decide (code ≤ 0xD)) || (decide (0x2000 ≤ code) && decide (code ≤ 0x200A))
    || decide (code ∈ [0x20, 0x85, 0xA0, 0x1680, 0x2028, 0x2029, 0x202F, 0x205F, 0x3000])

/-- `str::split_once`. -/
def splitOnce (sep : List Char) : List Char → Option (List Char × List Char)
  | [] => if sep = [] then some ([], []) else none
  | ch :: rest =>
      if sep.isPrefixOf (ch :: rest) then some ([], (ch :: rest).drop sep.length)
      else (splitOnce sep rest).map fun (before, after) => (ch :: before, after)

/-- The first of the nonempty parts between separators. -/
def firstPart (separator : Char → Bool) (text : List Char) : Option String :=
  match (text.dropWhile separator).takeWhile fun ch => !separator ch with
  | [] => none
  | part => some (String.ofList part)

def contains (text part : String) : Bool := (splitOnce part.toList text.toList).isSome

def debugList (items : List String) : String := "[" ++ ", ".intercalate items ++ "]"

/-- The derived `Debug` of a struct variant. -/
def debugStruct (name : String) (fields : List (String × String)) : String :=
  name ++ " \x7b " ++ ", ".intercalate (fields.map fun (field, value) => field ++ ": " ++ value) ++
    " \x7d"

def NemesisAction.debug : NemesisAction → String
  | .partition groups =>
      debugStruct "Partition" [("groups", debugList (groups.map fun group =>
        debugList (group.map fun node => toString node)))]
  | .asymmetricPartition sender receiver =>
      debugStruct "AsymmetricPartition" [("from", toString sender), ("to", toString receiver)]
  | .setLink sender receiver up =>
      debugStruct "SetLink"
        [("from", toString sender), ("to", toString receiver), ("up", toString up)]
  | .healAll => "HealAll"
  | .crash node => debugStruct "Crash" [("node", toString node)]
  | .restart node => debugStruct "Restart" [("node", toString node)]
  | .clockSkew node offsetNs =>
      debugStruct "ClockSkew" [("node", toString node), ("offset_ns", toString offsetNs)]
  | .bitRot node => debugStruct "BitRot" [("node", toString node)]
  | .tornWrite node => debugStruct "TornWrite" [("node", toString node)]
  | .lostOnCrash node => debugStruct "LostOnCrash" [("node", toString node)]
  | .preFsyncReorder node => debugStruct "PreFsyncReorder" [("node", toString node)]

def stamp (time : UInt64) (seq : Nat) : String :=
  "[t=" ++ padLeft 10 (toString time) ++ " #" ++ padLeft 6 (toString seq) ++ "] "

def render (payload : Message → String) (event : Keyed) : String :=
  stamp event.time event.seq ++ match event.kind with
    | .pollTask task => s!"poll task={task}"
    | .timerFire timer => s!"timer fire={timer}"
    | .deliverMsg sender receiver msg => s!"deliver {sender}->{receiver} " ++ payload msg
    | .nemesis action => "nemesis " ++ action.debug

def DropKind.asStr : DropKind → String
  | .unregistered => "drop-unregistered"
  | .crashed => "drop-crashed"
  | .partition => "drop-partition"
  | .random => "drop-random"

def TraceLine.render (payload : Message → String) : TraceLine → String
  | .dispatched event => Detersim.render payload event
  | .dropped kind time seq sender receiver =>
      stamp time seq ++ kind.asStr ++ s!" {sender}->{receiver}"
  | .sendFromCrashed sender receiver => s!"send-from-crashed:{sender}->{receiver}"

/-! Coverage signals. -/

def traceEdge (line : String) : Option String :=
  (splitOnce "deliver ".toList line.toList).bind fun (_, after) => firstPart isWhiteSpace after

def traceDropKind (line : String) : Option String := do
  let (_, after) ← splitOnce "] ".toList line.toList
  let kind ← firstPart isWhiteSpace after
  let pre := "drop-".toList
  if pre.isPrefixOf kind.toList then some (String.ofList (kind.toList.drop pre.length)) else none

structure RunReport where
  seed : UInt64
  trace : List String
  nemesisTrace : List String
  history : List String
  coverageSignals : List String
  tapeLog : List UInt64
  tapeEvents : List TapeEvent
  tapeReplaying : Bool
  tapeInputLen : Option Nat
  tapeCursor : Nat
  tapeConsumedAll : Bool
  tapeExhausted : Bool
  dispatched : Nat
  aborted : Bool
  deadlocked : Bool
  parkedTasks : Nat
  tapeLogLen : Nat
  deriving DecidableEq

namespace Inner

variable {State Value : Type}

/-- The expression for `aborted`, in the report and in the coverage signals. -/
def spent (g : Inner State Value) : Bool :=
  decide (g.config.maxEvents ≤ g.dispatched) || decide (g.config.horizonNs < g.now)

/-- The expression for `deadlocked`. -/
def stuck (g : Inner State Value) : Bool := g.queue.isEmpty && !g.tasks.isEmpty

def semanticCoverage (payload : Message → String) (g : Inner State Value) : List String :=
  let outcome :=
    if g.spent then "outcome:aborted"
    else if g.stuck then "outcome:deadlocked"
    else "outcome:quiesced"
  let tape := g.tape.events.map fun event => "tape:" ++ event.label.asStr
  let nemesis := g.nemesisTrace.filterMap fun action =>
    (firstPart (fun ch => !(ch.isAlphanum || decide (ch = '_'))) action.debug.toList).map
      ("nemesis:" ++ ·)
  let history := g.history.map fun entry => match splitOnce [':'] entry.toList with
    | some (kind, _) => "history:" ++ String.ofList kind
    | none => "history:" ++ entry
  let trace := g.trace.flatMap fun entry =>
    let line := entry.render payload
    ((traceEdge line).map ("message-edge:" ++ ·)).toList ++
      ((traceDropKind line).map ("network:" ++ ·)).toList ++
      (if contains line "timer fire=" then ["timer:fire"] else []) ++
      (if contains line "poll task=" then ["task:poll"] else []) ++
      (if contains line " nemesis " then ["nemesis:event"] else [])
  ((outcome :: tape ++ nemesis ++ history ++ trace).toFinset).sort (· ≤ ·)

/-- What `World::run` makes of the state in which its loop ended. -/
def report (payload : Message → String) (g : Inner State Value) : RunReport where
  seed := g.seed
  trace := g.trace.map (TraceLine.render payload)
  nemesisTrace := g.nemesisTrace.map NemesisAction.debug
  history := g.history
  coverageSignals := g.semanticCoverage payload
  tapeLog := g.tape.log
  tapeEvents := g.tape.events
  tapeReplaying := g.tape.diagnostics.replaying
  tapeInputLen := g.tape.diagnostics.inputLen
  tapeCursor := g.tape.diagnostics.cursor
  tapeConsumedAll := g.tape.diagnostics.consumedAll
  tapeExhausted := g.tape.diagnostics.exhausted
  dispatched := g.dispatched
  aborted := g.spent
  deadlocked := g.stuck
  parkedTasks := g.tasks.size
  tapeLogLen := g.tape.log.length

end Inner

end Detersim
