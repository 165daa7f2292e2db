import Mathlib.Data.List.Basic
import Mathlib.Data.String.Basic
import Mathlib.Order.WellFounded

/-!
Entropy-tape shrinking. The failure predicate is an `FnMut`: it is given its own
state and returns it, so that its calls can be counted. Sizes and indices are
natural numbers; the ratio of the effectiveness record, a float, is left out.
-/

namespace Detersim

structure ShrinkReport where
  originalLen : Nat
  minimized : List UInt64
  keptIndices : List Nat
  attempts : Nat
  reproduced : Bool
  acceptedRemovals : Nat
  deriving DecidableEq

structure RemovedLabel where
  label : String
  count : Nat
  deriving DecidableEq

structure LabelAwareShrinkReport where
  shrink : ShrinkReport
  removedLabels : List RemovedLabel
  deriving DecidableEq

structure ShrinkEffectiveness where
  originalLen : Nat
  minimizedLen : Nat
  attempts : Nat
  acceptedRemovals : Nat
  deriving DecidableEq

structure ShrinkOutcome (Signature : Type) where
  originalSignature : Option Signature
  minimizedSignature : Option Signature
  signaturePreserved : Bool
  report : ShrinkReport
  effectiveness : ShrinkEffectiveness
  removedLabels : List RemovedLabel
  deriving DecidableEq

structure ShrinkConfig where
  maxAttempts : Nat := 1000
  minChunkLen : Nat := 2
  deriving DecidableEq

/-- The variables of the loops. -/
structure Shrinking where
  current : List UInt64
  keptIndices : List Nat
  attempts : Nat
  acceptedRemovals : Nat

/-- `Vec::drain` of a range. -/
def drain {Item : Type} (items : List Item) (start len : Nat) : List Item :=
  items.take start ++ items.drop (start + len)

variable {Calls : Type} (stillFails : List UInt64 → Calls → Bool × Calls)

/-- One candidate: `len` draws from `start` on are left out, and are gone if the
tape still fails. -/
def tryDrain (start len : Nat) (shrinking : Shrinking) (calls : Calls) :
    Bool × Shrinking × Calls :=
  let candidate := drain shrinking.current start len
  let shrinking := { shrinking with attempts := shrinking.attempts + 1 }
  match stillFails candidate calls with
  | (true, calls) =>
      (true, { shrinking with
        current := candidate
        keptIndices := drain shrinking.keptIndices start len
        acceptedRemovals := shrinking.acceptedRemovals + 1 }, calls)
  | (false, calls) => (false, shrinking, calls)

@[simp] theorem tryDrain_attempts (start len : Nat) (shrinking : Shrinking) (calls : Calls) :
    (tryDrain stillFails start len shrinking calls).2.1.attempts = shrinking.attempts + 1 := by
  unfold tryDrain
  dsimp only
  split <;> rfl

/-- One round of chunk deletion; whether a chunk was accepted in it. -/
def chunkRound (maxAttempts chunkLen idx : Nat) (accepted : Bool) (shrinking : Shrinking)
    (calls : Calls) : Bool × Shrinking × Calls :=
  if idx + chunkLen ≤ shrinking.current.length ∧ shrinking.attempts < maxAttempts then
    let tried := tryDrain stillFails idx chunkLen shrinking calls
    -- After a success the next chunk has moved to `idx`.
    if tried.1 then chunkRound maxAttempts chunkLen idx true tried.2.1 tried.2.2
    else chunkRound maxAttempts chunkLen (idx + chunkLen) accepted tried.2.1 tried.2.2
  else (accepted, shrinking, calls)
termination_by maxAttempts - shrinking.attempts
decreasing_by all_goals rw [tryDrain_attempts]; omega

/-- A round without an attempt had no chunk to try, or no budget. -/
theorem chunkRound_progress (maxAttempts chunkLen idx : Nat) (accepted : Bool)
    (shrinking : Shrinking) (calls : Calls) :
    shrinking.attempts <
        (chunkRound stillFails maxAttempts chunkLen idx accepted shrinking calls).2.1.attempts ∨
      chunkRound stillFails maxAttempts chunkLen idx accepted shrinking calls =
          (accepted, shrinking, calls) ∧
        ¬(idx + chunkLen ≤ shrinking.current.length ∧ shrinking.attempts < maxAttempts) := by
  fun_induction chunkRound stillFails maxAttempts chunkLen idx accepted shrinking calls with
  | case1 idx accepted shrinking calls inside tried fails ih =>
      have counted : tried.2.1.attempts = shrinking.attempts + 1 := tryDrain_attempts ..
      rcases ih with more | ⟨same, _⟩
      · exact Or.inl (by omega)
      · exact Or.inl (by rw [same, counted]; exact Nat.lt_succ_self _)
  | case2 idx accepted shrinking calls inside tried passes ih =>
      have counted : tried.2.1.attempts = shrinking.attempts + 1 := tryDrain_attempts ..
      rcases ih with more | ⟨same, _⟩
      · exact Or.inl (by omega)
      · exact Or.inl (by rw [same, counted]; exact Nat.lt_succ_self _)
  | case3 idx accepted shrinking calls outside => exact Or.inr ⟨rfl, outside⟩

/-- Rounds until the chunks are too short; the length is halved after a round
without success. -/
def chunkPass (config : ShrinkConfig) (chunkLen : Nat) (shrinking : Shrinking) (calls : Calls) :
    Shrinking × Calls :=
  if config.minChunkLen ≤ chunkLen ∧ shrinking.attempts < config.maxAttempts then
    let round := chunkRound stillFails config.maxAttempts chunkLen 0 false shrinking calls
    chunkPass config (if round.1 then chunkLen else chunkLen / 2) round.2.1 round.2.2
  else (shrinking, calls)
termination_by (config.maxAttempts - shrinking.attempts, chunkLen)
decreasing_by
  rcases chunkRound_progress stillFails config.maxAttempts chunkLen 0 false shrinking calls with
    more | ⟨same, blocked⟩
  · exact Prod.Lex.left _ _ (by omega)
  · -- Chunks of no draws are always tried, so this one was too long.
    have halved : chunkLen / 2 < chunkLen := Nat.div_lt_self (by omega) (by decide)
    simp only [round, same]
    exact Prod.Lex.right _ halved

/-- One pass that tries to drop draws one by one; only those whose index in the
original tape is chosen are tried. -/
def dropPass (chosen : Nat → Bool) (maxAttempts pos : Nat) (shrinking : Shrinking)
    (calls : Calls) : Shrinking × Calls :=
  if pos < shrinking.current.length ∧ shrinking.attempts < maxAttempts then
    if chosen (shrinking.keptIndices.getD pos 0) = false then
      dropPass chosen maxAttempts (pos + 1) shrinking calls
    else
      let tried := tryDrain stillFails pos 1 shrinking calls
      if tried.1 then dropPass chosen maxAttempts pos tried.2.1 tried.2.2
      else dropPass chosen maxAttempts (pos + 1) tried.2.1 tried.2.2
  else (shrinking, calls)
termination_by (maxAttempts - shrinking.attempts, shrinking.current.length - pos)
decreasing_by
  · exact Prod.Lex.right _ (by omega)
  · exact Prod.Lex.left _ _ (by rw [tryDrain_attempts]; omega)
  · exact Prod.Lex.left _ _ (by rw [tryDrain_attempts]; omega)

/-- The report of a tape that does not fail, or was not tried. -/
def ShrinkReport.untouched (tape : List UInt64) : ShrinkReport where
  originalLen := tape.length
  minimized := tape
  keptIndices := List.range tape.length
  attempts := 1
  reproduced := false
  acceptedRemovals := 0

def Shrinking.report (shrinking : Shrinking) (originalLen : Nat) (reproduced : Bool) :
    ShrinkReport where
  originalLen
  minimized := shrinking.current
  keptIndices := shrinking.keptIndices
  attempts := shrinking.attempts
  reproduced
  acceptedRemovals := shrinking.acceptedRemovals

/-- The state of the loops before the first removal. -/
def Shrinking.start (tape : List UInt64) : Shrinking :=
  ⟨tape, List.range tape.length, 1, 0⟩

def shrinkTapeWithConfig (tape : List UInt64) (config : ShrinkConfig) (calls : Calls) :
    ShrinkReport × Calls :=
  match stillFails tape calls with
  | (false, calls) => (.untouched tape, calls)
  | (true, calls) =>
      let (shrinking, calls) := chunkPass stillFails config (tape.length / 2) (.start tape) calls
      let (shrinking, calls) := dropPass stillFails (fun _ => true) config.maxAttempts 0 shrinking
        calls
      (shrinking.report tape.length true, calls)

def labelTier (label : String) : Nat :=
  if label = "net-delay" ∨ label = "extra-delay" ∨ label = "jitter" then 0
  else if label = "drop-decision" ∨ label = "duplicate-decision" then 1
  else if label = "partition" ∨ label = "crash-point" ∨ label = "restart" ∨ label = "clock-skew" ∨
    label = "nemesis" then 2
  else 3

/-- One pass for each tier, from 0 to 3. -/
def tierPasses (labels : List String) (maxAttempts : Nat) (shrinking : Shrinking) (calls : Calls) :
    Shrinking × Calls :=
  [0, 1, 2, 3].foldl
    (fun (shrinking, calls) tier =>
      dropPass stillFails (fun index => decide (labelTier (labels.getD index "") = tier))
        maxAttempts 0 shrinking calls)
    (shrinking, calls)

/-- One more dropped draw with this label. -/
def countRemoved (label : String) : List RemovedLabel → List RemovedLabel
  | [] => [⟨label, 1⟩]
  | entry :: rest =>
      if entry.label = label then { entry with count := entry.count + 1 } :: rest
      else entry :: countRemoved label rest

def summarizeRemovedLabels (labels : List String) (keptIndices : List Nat) : List RemovedLabel :=
  let out := labels.zipIdx.foldl
    (fun out (label, index) => if index ∈ keptIndices then out else countRemoved label out) []
  out.mergeSort fun left right => decide (left.label ≤ right.label)

def shrinkTapeLabelAwareWithConfig (tape : List UInt64) (labels : List String)
    (config : ShrinkConfig) (calls : Calls) : LabelAwareShrinkReport × Calls :=
  if labels.length ≠ tape.length then
    -- Labels that do not line up with the draws are of no use, and none are reported.
    let (shrink, calls) := shrinkTapeWithConfig stillFails tape config calls
    (⟨shrink, []⟩, calls)
  else
    let (reproduced, calls) := stillFails tape calls
    let (shrinking, calls) :=
      if reproduced then tierPasses stillFails labels config.maxAttempts (.start tape) calls
      else (.start tape, calls)
    let shrink := shrinking.report tape.length reproduced
    (⟨shrink, summarizeRemovedLabels labels shrink.keptIndices⟩, calls)

/-- A pure predicate whose calls are counted. -/
def counted (fails : List UInt64 → Bool) (candidate : List UInt64) (calls : Nat) : Bool × Nat :=
  (fails candidate, calls + 1)

def ShrinkEffectiveness.ofReport (report : ShrinkReport) : ShrinkEffectiveness :=
  ⟨report.originalLen, report.minimized.length, report.attempts, report.acceptedRemovals⟩

/-! `SignaturePreservingShrink`. -/
section Signatures

variable {Signature : Type} [DecidableEq Signature]
  (classify : List UInt64 → Calls → Option Signature × Calls)

/-- The predicate given to the shrinker: the candidate has the same signature. -/
def sameSignature (signature : Signature) (candidate : List UInt64) (calls : Calls) :
    Bool × Calls :=
  let (found, calls) := classify candidate calls
  (decide (found = some signature), calls)

/-- What `run` and `run_label_aware` share. -/
def preservingShrink
    (shrink : (List UInt64 → Calls → Bool × Calls) → Calls → LabelAwareShrinkReport × Calls)
    (tape : List UInt64) (calls : Calls) : ShrinkOutcome Signature × Calls :=
  let (originalSignature, calls) := classify tape calls
  let (labelReport, calls) := match originalSignature with
    | some signature => shrink (sameSignature classify signature) calls
    | none => (⟨.untouched tape, []⟩, calls)
  let (minimizedSignature, calls) := classify labelReport.shrink.minimized calls
  ({ originalSignature, minimizedSignature
     signaturePreserved :=
       originalSignature.isSome && decide (minimizedSignature = originalSignature)
     report := labelReport.shrink
     effectiveness := .ofReport labelReport.shrink
     removedLabels := labelReport.removedLabels }, calls)

def runShrink (tape : List UInt64) (config : ShrinkConfig) (calls : Calls) :
    ShrinkOutcome Signature × Calls :=
  preservingShrink classify
    (fun stillFails calls =>
      let (shrink, calls) := shrinkTapeWithConfig stillFails tape config calls
      (⟨shrink, []⟩, calls))
    tape calls

def runShrinkLabelAware (tape : List UInt64) (labels : List String) (config : ShrinkConfig)
    (calls : Calls) : ShrinkOutcome Signature × Calls :=
  preservingShrink classify
    (fun stillFails => shrinkTapeLabelAwareWithConfig stillFails tape labels config) tape calls

end Signatures

end Detersim
