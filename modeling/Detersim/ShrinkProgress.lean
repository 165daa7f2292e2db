import Detersim.ShrinkSoundness

/-!
How much work shrinking does. A chunk of at least one draw either goes, and the
tape is shorter, or the search moves on, so that the calls are bounded by the
length of the tape. Chunks of no draws are accepted for ever.
-/

namespace Detersim

section Lengths

variable {Calls : Type} (stillFails : List UInt64 → Calls → Bool × Calls)
  {maxAttempts chunkLen start len idx : Nat} {accepted : Bool} {shrinking : Shrinking}
  {calls : Calls}

theorem length_drain {Item : Type} (items : List Item) (inside : start + len ≤ items.length) :
    (drain items start len).length = items.length - len := by
  rw [drain, List.length_append, List.length_take, List.length_drop]
  omega

theorem tryDrain_current : (tryDrain stillFails start len shrinking calls).2.1.current =
    if (tryDrain stillFails start len shrinking calls).1 then drain shrinking.current start len
    else shrinking.current := by
  rcases answer : stillFails (drain shrinking.current start len) calls with ⟨_ | _, after⟩ <;>
    simp [tryDrain, answer]

theorem tryDrain_length (inside : start + len ≤ shrinking.current.length) :
    (tryDrain stillFails start len shrinking calls).2.1.current.length =
      if (tryDrain stillFails start len shrinking calls).1 then shrinking.current.length - len
      else shrinking.current.length := by
  rw [tryDrain_current]
  split_ifs
  · exact length_drain _ inside
  · rfl

/-- A round tries at most as many chunks as there are draws left, and the tape is
shorter after it if one of them was accepted. -/
theorem chunkRound_work (positive : 0 < chunkLen) :
    let round := chunkRound stillFails maxAttempts chunkLen idx accepted shrinking calls
    round.2.1.attempts ≤ shrinking.attempts + (shrinking.current.length - idx) ∧
      round.2.1.current.length ≤ shrinking.current.length ∧
      (round.1 = true → accepted = true ∨ round.2.1.current.length < shrinking.current.length) := by
  fun_induction chunkRound stillFails maxAttempts chunkLen idx accepted shrinking calls with
  | case1 idx accepted shrinking calls inside tried failed ih =>
      have counts : tried.2.1.attempts = shrinking.attempts + 1 := tryDrain_attempts ..
      have shorter : tried.2.1.current.length = shrinking.current.length - chunkLen :=
        (tryDrain_length stillFails inside.1).trans (if_pos failed)
      obtain ⟨attempts, length, _⟩ := ih
      exact ⟨by omega, by omega, fun _ => Or.inr (by omega)⟩
  | case2 idx accepted shrinking calls inside tried passed ih =>
      have counts : tried.2.1.attempts = shrinking.attempts + 1 := tryDrain_attempts ..
      have same : tried.2.1.current.length = shrinking.current.length :=
        (tryDrain_length stillFails inside.1).trans (if_neg passed)
      obtain ⟨attempts, length, progress⟩ := ih
      rw [same] at attempts length progress
      exact ⟨by omega, length, progress⟩
  | case3 => exact ⟨Nat.le_add_right _ _, le_rfl, Or.inl⟩

/-- Every round shortens the tape or the chunks. -/
theorem chunkPass_work (config : ShrinkConfig) (positive : 0 < config.minChunkLen)
    (size : Nat) (sized : shrinking.current.length ≤ size) :
    let pass := chunkPass stillFails config chunkLen shrinking calls
    pass.1.attempts ≤ shrinking.attempts + size * (shrinking.current.length + chunkLen) ∧
      pass.1.current.length ≤ shrinking.current.length := by
  fun_induction chunkPass stillFails config chunkLen shrinking calls with
  | case1 chunkLen shrinking calls inside round ih =>
      simp only [dite_eq_ite] at ih ⊢
      have some_ : 0 < chunkLen := Nat.lt_of_lt_of_le positive inside.1
      obtain ⟨attempts, length, progress⟩ : round.2.1.attempts ≤
          shrinking.attempts + (shrinking.current.length - 0) ∧
        round.2.1.current.length ≤ shrinking.current.length ∧
        (round.1 = true → false = true ∨ round.2.1.current.length < shrinking.current.length) :=
        chunkRound_work stillFails some_
      have later := ih (length.trans sized)
      have measure : round.2.1.current.length + (if round.1 then chunkLen else chunkLen / 2) + 1 ≤
          shrinking.current.length + chunkLen := by
        split_ifs with removed
        · have shorter := (progress removed).resolve_left Bool.false_ne_true
          omega
        · have halved := Nat.div_lt_self some_ (by decide : 1 < 2)
          omega
      have paid := Nat.mul_le_mul_left size measure
      rw [Nat.mul_add, Nat.mul_one] at paid
      exact ⟨by omega, later.2.trans length⟩
  | case2 => exact ⟨Nat.le_add_right _ _, le_rfl⟩

theorem dropPass_work (pos : Nat) :
    (dropPass stillFails (fun _ => true) maxAttempts pos shrinking calls).1.attempts ≤
      shrinking.attempts + (shrinking.current.length - pos) := by
  fun_induction dropPass stillFails (fun _ => true) maxAttempts pos shrinking calls with
  | case1 pos shrinking calls inside skipped => cases skipped
  | case2 pos shrinking calls inside _ tried failed ih =>
      have counts : tried.2.1.attempts = shrinking.attempts + 1 := tryDrain_attempts ..
      have shorter : tried.2.1.current.length = shrinking.current.length - 1 :=
        (tryDrain_length stillFails inside.1).trans (if_pos failed)
      omega
  | case3 pos shrinking calls inside _ tried passed ih =>
      have counts : tried.2.1.attempts = shrinking.attempts + 1 := tryDrain_attempts ..
      have same : tried.2.1.current.length = shrinking.current.length :=
        (tryDrain_length stillFails inside.1).trans (if_neg passed)
      omega
  | case4 => exact Nat.le_add_right _ _

/-- With chunks of no draws there is always one more to try. -/
theorem chunkPass_endless (config : ShrinkConfig) (none_ : config.minChunkLen = 0) :
    config.maxAttempts ≤ (chunkPass stillFails config chunkLen shrinking calls).1.attempts := by
  fun_induction chunkPass stillFails config chunkLen shrinking calls with
  | case1 chunkLen shrinking calls inside round ih => exact ih
  | case2 chunkLen shrinking calls outside =>
      dsimp only
      omega

end Lengths

/-- A pure predicate whose calls are listed with the tapes they were made for. -/
def listed (fails : List UInt64 → Bool) (candidate : List UInt64)
    (calls : List (List UInt64)) : Bool × List (List UInt64) :=
  (fails candidate, calls ++ [candidate])

/-- Rounds of chunks while chunks and tape shrink, and one pass over single draws. -/
def callBound (length : Nat) : Nat := 1 + length * (length + length / 2) + length

/-- The calls made while shrinking a tape. -/
def shrinkCalls (fails : List UInt64 → Bool) (tape : List UInt64) (config : ShrinkConfig) :
    List (List UInt64) :=
  (shrinkTapeWithConfig (listed fails) tape config []).2

def shrinkReport (fails : List UInt64 → Bool) (tape : List UInt64) (config : ShrinkConfig) :
    ShrinkReport :=
  (shrinkTapeWithConfig (listed fails) tape config []).1

/-- The calls that find a failure are the tape's own and those of the candidates
accepted after it: each of these is shorter than all before. -/
structure MakesProgress (fails : List UInt64 → Bool) (tape : List UInt64)
    (config : ShrinkConfig) : Prop where
  shortens : ((shrinkCalls fails tape config).filter fails).Pairwise fun before after =>
    after.length < before.length
  accepted : (shrinkReport fails tape config).acceptedRemovals +
    (shrinkReport fails tape config).minimized.length ≤
      (shrinkReport fails tape config).originalLen
  bounded : (shrinkCalls fails tape config).length ≤ callBound tape.length

section Progress

variable {fails : List UInt64 → Bool} {tape : List UInt64} {start len : Nat}
  {shrinking : Shrinking} {calls : List (List UInt64)}

/-- What each removal of at least one draw keeps. -/
structure Shortening (fails : List UInt64 → Bool) (tape : List UInt64) (shrinking : Shrinking)
    (calls : List (List UInt64)) : Prop where
  shortens : (calls.filter fails).Pairwise fun before after => after.length < before.length
  shortest : ∀ before ∈ calls.filter fails, shrinking.current.length ≤ before.length
  accepted : shrinking.acceptedRemovals + shrinking.current.length ≤ tape.length

theorem listed_tryDrain : tryDrain (listed fails) start len shrinking calls =
    if fails (drain shrinking.current start len) then
      (true, ⟨drain shrinking.current start len, drain shrinking.keptIndices start len,
        shrinking.attempts + 1, shrinking.acceptedRemovals + 1⟩,
        calls ++ [drain shrinking.current start len])
    else (false, { shrinking with attempts := shrinking.attempts + 1 },
      calls ++ [drain shrinking.current start len]) := by
  cases failed : fails (drain shrinking.current start len) <;>
    simp [tryDrain, listed, failed]

theorem Shortening.tryDrain (shortening : Shortening fails tape shrinking calls)
    (positive : 0 < len) (inside : start + len ≤ shrinking.current.length) :
    Shortening fails tape (tryDrain (listed fails) start len shrinking calls).2.1
      (tryDrain (listed fails) start len shrinking calls).2.2 := by
  have shorter := length_drain shrinking.current inside
  rw [listed_tryDrain]
  split_ifs with failed
  · have below : ∀ before ∈ calls.filter fails,
        (drain shrinking.current start len).length < before.length := by
      intro before member
      have least := shortening.shortest before member
      omega
    refine ⟨?_, ?_, ?_⟩
    · dsimp only
      rw [List.filter_append, List.filter_cons_of_pos failed, List.filter_nil]
      exact List.pairwise_append.mpr ⟨shortening.shortens, List.pairwise_singleton _ _,
        fun before member after last => List.mem_singleton.mp last ▸ below before member⟩
    · intro before member
      rw [List.filter_append, List.filter_cons_of_pos failed, List.filter_nil, List.mem_append,
        List.mem_singleton] at member
      rcases member with earlier | rfl
      · exact (below before earlier).le
      · exact le_rfl
    · have accepted := shortening.accepted
      dsimp only
      omega
  · have same : (calls ++ [drain shrinking.current start len]).filter fails = calls.filter fails := by
      rw [List.filter_append, List.filter_cons_of_neg failed, List.filter_nil, List.append_nil]
    refine ⟨?_, ?_, shortening.accepted⟩
    · dsimp only
      rw [same]
      exact shortening.shortens
    · dsimp only
      rw [same]
      exact shortening.shortest

/-- One call for each attempt, whatever the predicate says. -/
def CallsCounted (shrinking : Shrinking) (calls : List (List UInt64)) : Prop :=
  calls.length = shrinking.attempts

theorem callsCounted_keptByTry (fails : List UInt64 → Bool) (maxAttempts len : Nat) :
    KeptByTry (listed fails) CallsCounted maxAttempts len := by
  intro start shrinking calls _ _ counts
  unfold CallsCounted at *
  rw [listed_tryDrain]
  split_ifs <;> simp [counts]

end Progress

section Runs

variable (fails : List UInt64 → Bool) (tape : List UInt64) (config : ShrinkConfig)

/-- The loops after the tape itself has failed. -/
def shrinkLoops : Shrinking × List (List UInt64) :=
  let (shrinking, calls) := chunkPass (listed fails) config (tape.length / 2) (.start tape) [tape]
  dropPass (listed fails) (fun _ => true) config.maxAttempts 0 shrinking calls

variable {fails tape}

theorem shrink_passing (passes : fails tape = false) :
    shrinkReport fails tape config = .untouched tape ∧ shrinkCalls fails tape config = [tape] := by
  simp [shrinkReport, shrinkCalls, shrinkTapeWithConfig, listed, passes]

theorem shrink_failing (failing : fails tape = true) :
    shrinkReport fails tape config = (shrinkLoops fails tape config).1.report tape.length true ∧
      shrinkCalls fails tape config = (shrinkLoops fails tape config).2 := by
  simp [shrinkReport, shrinkCalls, shrinkTapeWithConfig, listed, failing, shrinkLoops]

theorem shrinkLoops_counted : CallsCounted (shrinkLoops fails tape config).1
    (shrinkLoops fails tape config).2 := by
  have start : CallsCounted (.start tape) [tape] := rfl
  exact dropPass_keeps (callsCounted_keptByTry fails _ 1) _ 0
    (chunkPass_keeps (fun len _ => callsCounted_keptByTry fails _ len) _ start)

theorem shrinkLoops_shortening (positive : 0 < config.minChunkLen) (failing : fails tape = true) :
    Shortening fails tape (shrinkLoops fails tape config).1 (shrinkLoops fails tape config).2 := by
  have start : Shortening fails tape (.start tape) [tape] := by
    refine ⟨?_, ?_, ?_⟩
    · simp [failing]
    · simp [failing, Shrinking.start]
    · simp [Shrinking.start]
  have kept (len : Nat) (some_ : 0 < len) :
      KeptByTry (listed fails) (Shortening fails tape) config.maxAttempts len :=
    fun _ _ _ inside _ shortening => shortening.tryDrain some_ inside
  exact dropPass_keeps (kept 1 Nat.one_pos) _ 0
    (chunkPass_keeps (fun len least => kept len (Nat.lt_of_lt_of_le positive least)) _ start)

theorem shrinkLoops_bounded (positive : 0 < config.minChunkLen) :
    (shrinkLoops fails tape config).1.attempts ≤ callBound tape.length := by
  obtain ⟨attempts, length⟩ : (chunkPass (listed fails) config (tape.length / 2) (.start tape)
        [tape]).1.attempts ≤ 1 + tape.length * (tape.length + tape.length / 2) ∧
      (chunkPass (listed fails) config (tape.length / 2) (.start tape) [tape]).1.current.length ≤
        tape.length := chunkPass_work (listed fails) config positive tape.length le_rfl
  have singles : (shrinkLoops fails tape config).1.attempts ≤ _ := dropPass_work (listed fails) 0
  unfold callBound
  omega

/-- The passes stop at the budget, and with chunks of no draws not before. -/
theorem shrinkLoops_endless (none_ : config.minChunkLen = 0) :
    (shrinkLoops fails tape config).1.attempts = max 1 config.maxAttempts := by
  have kept (len : Nat) : KeptByTry (listed fails)
      (fun shrinking _ => 1 ≤ shrinking.attempts ∧ shrinking.attempts ≤ max 1 config.maxAttempts)
      config.maxAttempts len := by
    intro start shrinking calls _ allowed _
    rw [tryDrain_attempts]
    exact ⟨Nat.le_add_left 1 _, le_max_of_le_right allowed⟩
  obtain ⟨some_, within⟩ : 1 ≤ (chunkPass (listed fails) config (tape.length / 2) (.start tape)
        [tape]).1.attempts ∧ (chunkPass (listed fails) config (tape.length / 2) (.start tape)
        [tape]).1.attempts ≤ max 1 config.maxAttempts :=
    chunkPass_keeps (fun len _ => kept len) _ ⟨le_rfl, le_max_left 1 _⟩
  have spent : config.maxAttempts ≤ (chunkPass (listed fails) config (tape.length / 2)
      (.start tape) [tape]).1.attempts := chunkPass_endless (listed fails) config none_
  unfold shrinkLoops
  dsimp only
  rw [dropPass, if_neg (by omega)]
  dsimp only
  omega

theorem makesProgress_passing (passes : fails tape = false) : MakesProgress fails tape config := by
  obtain ⟨report, calls⟩ := shrink_passing config passes
  refine ⟨?_, ?_, ?_⟩
  · rw [calls, List.filter_cons_of_neg (by simp [passes])]
    exact List.Pairwise.nil
  · rw [report]
    exact (Nat.zero_add tape.length).le
  · rw [calls, callBound]
    simp only [List.length_cons, List.length_nil]
    omega

theorem makesProgress_failing (positive : 0 < config.minChunkLen) (failing : fails tape = true) :
    MakesProgress fails tape config := by
  obtain ⟨report, calls⟩ := shrink_failing config failing
  have shortening := shrinkLoops_shortening config positive failing
  refine ⟨?_, ?_, ?_⟩
  · rw [calls]
    exact shortening.shortens
  · rw [report]
    exact shortening.accepted
  · rw [calls, shrinkLoops_counted]
    exact shrinkLoops_bounded config positive

theorem shrinkCalls_endless (failing : fails tape = true) (maxAttempts : Nat) :
    (shrinkCalls fails tape ⟨maxAttempts, 0⟩).length = max 1 maxAttempts := by
  rw [(shrink_failing _ failing).2, shrinkLoops_counted, shrinkLoops_endless _ rfl]

end Runs

/-- Shrinking makes progress under every budget if no chunk is empty or the tape
does not fail; a failing tape and empty chunks use up the budget, whatever it is. -/
theorem makes_progress_iff (fails : List UInt64 → Bool) (tape : List UInt64)
    (minChunkLen : Nat) :
    ((∀ maxAttempts, MakesProgress fails tape ⟨maxAttempts, minChunkLen⟩) ↔
      0 < minChunkLen ∨ fails tape = false) ∧
    (fails tape = true → ∀ maxAttempts,
      (shrinkCalls fails tape ⟨maxAttempts, 0⟩).length = max 1 maxAttempts) := by
  refine ⟨⟨?_, ?_⟩, fun failing => shrinkCalls_endless failing⟩
  · intro progress
    by_contra stuck
    obtain ⟨empty, failing⟩ := not_or.mp stuck
    have none_ : minChunkLen = 0 := by omega
    subst none_
    have bounded := (progress (callBound tape.length + 1)).bounded
    rw [shrinkCalls_endless (by simpa using failing)] at bounded
    omega
  · rintro (positive | passes) maxAttempts
    · cases failing : fails tape with
      | false => exact makesProgress_passing _ failing
      | true => exact makesProgress_failing _ positive failing
    · exact makesProgress_passing _ passes

/-- A tape of one draw that fails unless it is empty: nothing is removed from it
twice, and a thousand calls are made. -/
theorem empty_chunks_repeat :
    shrinkReport (fun tape => !tape.isEmpty) [1] ⟨3, 0⟩ = ⟨1, [1], [0], 3, true, 2⟩ ∧
      ¬MakesProgress (fun tape => !tape.isEmpty) [1] ⟨3, 0⟩ ∧
      (shrinkCalls (fun tape => !tape.isEmpty) [1] ⟨1000, 0⟩).length = 1000 := by
  have report : shrinkReport (fun tape => !tape.isEmpty) [1] ⟨3, 0⟩ =
      ⟨1, [1], [0], 3, true, 2⟩ := by
    simp [shrinkReport, shrinkTapeWithConfig, listed, Shrinking.start, chunkPass, chunkRound,
      dropPass, tryDrain, drain, Shrinking.report]
  refine ⟨report, ?_, shrinkCalls_endless rfl 1000⟩
  intro progress
  have accepted := progress.accepted
  rw [report] at accepted
  exact absurd accepted (by decide)

end Detersim
