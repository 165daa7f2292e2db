import Detersim.Core
import Mathlib.Data.List.Infix

/-!
The entropy tape. Draws come from a seeded generator or from a recorded tape;
either way they are logged, and the log of one run is the tape of its replay.
-/

namespace Detersim

inductive TapeLabel where
  | netDelay | dropDecision | duplicateDecision | extraDelay | crashPoint | partition | restart
  | clockSkew | jitter | nemesis | other
  deriving DecidableEq

def TapeLabel.asStr : TapeLabel → String
  | .netDelay => "net-delay"
  | .dropDecision => "drop-decision"
  | .duplicateDecision => "duplicate-decision"
  | .extraDelay => "extra-delay"
  | .crashPoint => "crash-point"
  | .partition => "partition"
  | .restart => "restart"
  | .clockSkew => "clock-skew"
  | .jitter => "jitter"
  | .nemesis => "nemesis"
  | .other => "other"

structure TapeEvent where
  index : Nat
  label : TapeLabel
  value : UInt64
  deriving DecidableEq

inductive EntropyTape where
  | generate (rng : SplitMix64) (log : List UInt64) (events : List TapeEvent)
  | replay (tape : List UInt64) (cursor : Nat) (log : List UInt64) (events : List TapeEvent)

structure TapeDiagnostics where
  replaying : Bool
  inputLen : Option Nat
  cursor : Nat
  consumedAll : Bool
  exhausted : Bool
  deriving DecidableEq

namespace EntropyTape

def ofSeed (seed : UInt64) : EntropyTape := .generate ⟨seed ^^^ 0xA5A55A5ADEADBEEF⟩ [] []

def ofTape (tape : List UInt64) : EntropyTape := .replay tape 0 [] []

def draw (label : TapeLabel) : EntropyTape → UInt64 × EntropyTape
  | .generate rng log events =>
      let (v, rng) := rng.nextU64
      (v, .generate rng (log ++ [v]) (events ++ [⟨log.length, label, v⟩]))
  | .replay tape cursor log events =>
      let v := tape.getD cursor 0
      (v, .replay tape (cursor + 1) (log ++ [v]) (events ++ [⟨cursor, label, v⟩]))

def log : EntropyTape → List UInt64
  | .generate _ log _ | .replay _ _ log _ => log

def events : EntropyTape → List TapeEvent
  | .generate _ _ events | .replay _ _ _ events => events

def diagnostics : EntropyTape → TapeDiagnostics
  | .generate _ log _ => ⟨false, none, log.length, true, false⟩
  | .replay tape cursor _ _ =>
      ⟨true, some tape.length, cursor, decide (tape.length ≤ cursor), decide (tape.length < cursor)⟩

@[simp] theorem log_draw (label : TapeLabel) (tape : EntropyTape) :
    (tape.draw label).2.log = tape.log ++ [(tape.draw label).1] := by
  cases tape <;> rfl

/-- The cursor counts the draws made. -/
def Aligned : EntropyTape → Prop
  | .generate .. => True
  | .replay _ cursor log _ => cursor = log.length

theorem aligned_ofSeed (seed : UInt64) : (ofSeed seed).Aligned := trivial

theorem aligned_ofTape (tape : List UInt64) : (ofTape tape).Aligned := rfl

theorem aligned_draw {tape : EntropyTape} (aligned : tape.Aligned) (label : TapeLabel) :
    (tape.draw label).2.Aligned := by
  cases tape with
  | generate => trivial
  | replay values cursor log events =>
      simp only [Aligned, draw, List.length_append, List.length_cons, List.length_nil] at aligned ⊢
      omega

theorem events_draw {tape : EntropyTape} (aligned : tape.Aligned) (label : TapeLabel) :
    (tape.draw label).2.events =
      tape.events ++ [⟨tape.log.length, label, (tape.draw label).1⟩] := by
  cases tape with
  | generate => rfl
  | replay values cursor log events =>
      cases aligned
      rfl

theorem cursor_of_aligned {tape : EntropyTape} (aligned : tape.Aligned) :
    tape.diagnostics.cursor = tape.log.length := by
  cases tape with
  | generate => rfl
  | replay => exact aligned

/-- The tape of a run that replays `full` and has come as far as the given one. -/
def replaying (full : List UInt64) (tape : EntropyTape) : EntropyTape :=
  .replay full tape.log.length tape.log tape.events

/-- A replay of anything that starts with the draws made so far makes the same
next draw. -/
theorem draw_replaying {tape : EntropyTape} (aligned : tape.Aligned) (label : TapeLabel)
    {full : List UInt64} (recorded : (tape.draw label).2.log <+: full) :
    (tape.replaying full).draw label =
      ((tape.draw label).1, (tape.draw label).2.replaying full) := by
  have value : full.getD tape.log.length 0 = (tape.draw label).1 := by
    obtain ⟨rest, rfl⟩ := recorded
    simp [List.getD_eq_getElem?_getD]
  calc (tape.replaying full).draw label
      = (full.getD tape.log.length 0, .replay full (tape.log.length + 1)
          (tape.log ++ [full.getD tape.log.length 0])
          (tape.events ++ [⟨tape.log.length, label, full.getD tape.log.length 0⟩])) := rfl
    _ = ((tape.draw label).1, (tape.draw label).2.replaying full) := by
      rw [value, replaying, log_draw, events_draw aligned, List.length_append]
      rfl

end EntropyTape

end Detersim
