import Detersim.Shrink
import Mathlib.Data.List.Perm.Subperm

/-!
Shrinking is sound: the tape, the list of kept indices and the counters stay in
step through every removal, whichever pass makes it.
-/

namespace Detersim

section Drain

variable {Item Other : Type}

theorem drain_sublist (items : List Item) (start len : Nat) :
    (drain items start len).Sublist items := by
  have kept : (items.drop (start + len)).Sublist (items.drop start) :=
    List.drop_sublist_drop_left items (Nat.le_add_right start len)
  have whole := (List.Sublist.refl (items.take start)).append kept
  rwa [List.take_append_drop] at whole

theorem drain_map (change : Item → Other) (items : List Item) (start len : Nat) :
    drain (items.map change) start len = (drain items start len).map change := by
  simp [drain]

end Drain

section Tries

variable {fails : List UInt64 → Bool} {start len : Nat} {shrinking : Shrinking} {calls : Nat}

theorem tryDrain_accepted (failed : fails (drain shrinking.current start len) = true) :
    tryDrain (counted fails) start len shrinking calls =
      (true, ⟨drain shrinking.current start len, drain shrinking.keptIndices start len,
        shrinking.attempts + 1, shrinking.acceptedRemovals + 1⟩, calls + 1) := by
  simp only [tryDrain, counted, failed]

theorem tryDrain_rejected (passed : fails (drain shrinking.current start len) = false) :
    tryDrain (counted fails) start len shrinking calls =
      (false, { shrinking with attempts := shrinking.attempts + 1 }, calls + 1) := by
  simp only [tryDrain, counted, passed]

theorem tryDrain_fst : (tryDrain (counted fails) start len shrinking calls).1 =
    fails (drain shrinking.current start len) := by
  cases failed : fails (drain shrinking.current start len) with
  | true => rw [tryDrain_accepted failed]
  | false => rw [tryDrain_rejected failed]

end Tries

/-! What each single try keeps, every pass keeps. -/

section Keeps

variable {Calls : Type} {stillFails : List UInt64 → Calls → Bool × Calls}
  {inv : Shrinking → Calls → Prop} {maxAttempts : Nat} {shrinking : Shrinking} {calls : Calls}

def KeptByTry (stillFails : List UInt64 → Calls → Bool × Calls) (inv : Shrinking → Calls → Prop)
    (maxAttempts len : Nat) : Prop :=
  ∀ start shrinking calls, start + len ≤ shrinking.current.length →
    shrinking.attempts < maxAttempts → inv shrinking calls →
    inv (tryDrain stillFails start len shrinking calls).2.1
      (tryDrain stillFails start len shrinking calls).2.2

theorem chunkRound_keeps {chunkLen : Nat} (kept : KeptByTry stillFails inv maxAttempts chunkLen)
    (idx : Nat) (accepted : Bool) (holds : inv shrinking calls) :
    inv (chunkRound stillFails maxAttempts chunkLen idx accepted shrinking calls).2.1
      (chunkRound stillFails maxAttempts chunkLen idx accepted shrinking calls).2.2 := by
  fun_induction chunkRound stillFails maxAttempts chunkLen idx accepted shrinking calls with
  | case1 idx accepted shrinking calls inside tried failed ih =>
      exact ih (kept idx shrinking calls inside.1 inside.2 holds)
  | case2 idx accepted shrinking calls inside tried passed ih =>
      exact ih (kept idx shrinking calls inside.1 inside.2 holds)
  | case3 => exact holds

theorem chunkPass_keeps {config : ShrinkConfig}
    (kept : ∀ len, config.minChunkLen ≤ len → KeptByTry stillFails inv config.maxAttempts len)
    (chunkLen : Nat) (holds : inv shrinking calls) :
    inv (chunkPass stillFails config chunkLen shrinking calls).1
      (chunkPass stillFails config chunkLen shrinking calls).2 := by
  fun_induction chunkPass stillFails config chunkLen shrinking calls with
  | case1 chunkLen shrinking calls inside round ih =>
      exact ih (chunkRound_keeps (kept chunkLen inside.1) 0 false holds)
  | case2 => exact holds

theorem dropPass_keeps (kept : KeptByTry stillFails inv maxAttempts 1) (chosen : Nat → Bool)
    (pos : Nat) (holds : inv shrinking calls) :
    inv (dropPass stillFails chosen maxAttempts pos shrinking calls).1
      (dropPass stillFails chosen maxAttempts pos shrinking calls).2 := by
  fun_induction dropPass stillFails chosen maxAttempts pos shrinking calls with
  | case1 pos shrinking calls inside skipped ih => exact ih holds
  | case2 pos shrinking calls inside _ tried failed ih =>
      exact ih (kept pos shrinking calls inside.1 inside.2 holds)
  | case3 pos shrinking calls inside _ tried passed ih =>
      exact ih (kept pos shrinking calls inside.1 inside.2 holds)
  | case4 => exact holds

end Keeps

/-- What every step of every pass keeps; `before` calls were made before the shrinking. -/
structure InStep (fails : List UInt64 → Bool) (tape : List UInt64) (maxAttempts before : Nat)
    (shrinking : Shrinking) (calls : Nat) : Prop where
  increasing : shrinking.keptIndices.Pairwise (· < ·)
  restricts : shrinking.current.map some = shrinking.keptIndices.map (tape[·]?)
  fails : fails shrinking.current = true
  calls : calls = before + shrinking.attempts
  bounded : shrinking.attempts ≤ max 1 maxAttempts

section Passes

variable {fails : List UInt64 → Bool} {tape : List UInt64} {maxAttempts before : Nat}
  {shrinking : Shrinking} {calls : Nat}

theorem inStep_tryDrain (inStep : InStep fails tape maxAttempts before shrinking calls)
    (allowed : shrinking.attempts < maxAttempts) (start len : Nat) :
    InStep fails tape maxAttempts before (tryDrain (counted fails) start len shrinking calls).2.1
      (tryDrain (counted fails) start len shrinking calls).2.2 := by
  have bounded : shrinking.attempts + 1 ≤ max 1 maxAttempts := le_max_of_le_right allowed
  have counts : calls + 1 = before + (shrinking.attempts + 1) := congrArg (· + 1) inStep.calls
  cases failed : fails (drain shrinking.current start len) with
  | true =>
      rw [tryDrain_accepted failed]
      refine ⟨inStep.increasing.sublist (drain_sublist _ _ _), ?_, failed, counts, bounded⟩
      dsimp only
      rw [← drain_map, inStep.restricts, drain_map]
  | false =>
      rw [tryDrain_rejected failed]
      exact { inStep with calls := counts, bounded }

theorem inStep_keptByTry (len : Nat) :
    KeptByTry (counted fails) (InStep fails tape maxAttempts before) maxAttempts len :=
  fun start _ _ _ allowed inStep => inStep_tryDrain inStep allowed start len

theorem inStep_chunkPass (config : ShrinkConfig) (chunkLen : Nat)
    (inStep : InStep fails tape config.maxAttempts before shrinking calls) :
    InStep fails tape config.maxAttempts before
      (chunkPass (counted fails) config chunkLen shrinking calls).1
      (chunkPass (counted fails) config chunkLen shrinking calls).2 :=
  chunkPass_keeps (fun len _ => inStep_keptByTry len) chunkLen inStep

theorem inStep_dropPass (chosen : Nat → Bool) (pos : Nat)
    (inStep : InStep fails tape maxAttempts before shrinking calls) :
    InStep fails tape maxAttempts before
      (dropPass (counted fails) chosen maxAttempts pos shrinking calls).1
      (dropPass (counted fails) chosen maxAttempts pos shrinking calls).2 :=
  dropPass_keeps (inStep_keptByTry 1) chosen pos inStep

theorem inStep_tierPasses (labels : List String)
    (inStep : InStep fails tape maxAttempts before shrinking calls) :
    InStep fails tape maxAttempts before
      (tierPasses (counted fails) labels maxAttempts shrinking calls).1
      (tierPasses (counted fails) labels maxAttempts shrinking calls).2 := by
  unfold tierPasses
  generalize [0, 1, 2, 3] = tiers
  induction tiers generalizing shrinking calls with
  | nil => exact inStep
  | cons tier rest ih => exact ih (inStep_dropPass _ 0 inStep)

theorem inStep_start (failing : fails tape = true) :
    InStep fails tape maxAttempts before (.start tape) (before + 1) where
  increasing := List.pairwise_lt_range
  restricts := by
    apply List.ext_getElem
    · simp [Shrinking.start]
    · intro index left right
      simp [Shrinking.start]
  fails := failing
  calls := rfl
  bounded := le_max_left 1 maxAttempts

/-- The tape and the list of kept indices have one length. -/
theorem InStep.sized (inStep : InStep fails tape maxAttempts before shrinking calls) :
    shrinking.current.length = shrinking.keptIndices.length := by
  simpa using congrArg List.length inStep.restricts

end Passes

/-- What the two shrinkers promise about their report and the calls they make, when
`before` calls were made before. -/
structure ShrinkSound (fails : List UInt64 → Bool) (tape : List UInt64) (config : ShrinkConfig)
    (before : Nat) (report : ShrinkReport) (calls : Nat) : Prop where
  increasing : report.keptIndices.Pairwise (· < ·)
  inRange : ∀ index ∈ report.keptIndices, index < tape.length
  restricts : report.minimized.map some = report.keptIndices.map (tape[·]?)
  calls : calls = before + report.attempts
  bounded : report.attempts ≤ max 1 config.maxAttempts
  failing : fails tape = true → report.reproduced = true ∧ fails report.minimized = true
  passing : fails tape = false → report.reproduced = false ∧ report.minimized = tape

theorem InStep.sound {fails : List UInt64 → Bool} {tape : List UInt64} {config : ShrinkConfig}
    {before calls : Nat} {shrinking : Shrinking}
    (inStep : InStep fails tape config.maxAttempts before shrinking calls)
    (failing : fails tape = true) :
    ShrinkSound fails tape config before (shrinking.report tape.length true) calls where
  increasing := inStep.increasing
  inRange index member := by
    have found : tape[index]? ∈ shrinking.current.map some := by
      rw [inStep.restricts]
      exact List.mem_map.mpr ⟨index, member, rfl⟩
    obtain ⟨value, _, present⟩ := List.mem_map.mp found
    exact (List.getElem?_eq_some_iff.mp present.symm).1
  restricts := inStep.restricts
  calls := inStep.calls
  bounded := inStep.bounded
  failing _ := ⟨rfl, inStep.fails⟩
  passing passes := absurd (failing.symm.trans passes) (by decide)

/-- The minimized tape is not longer. -/
theorem ShrinkSound.shorter {fails : List UInt64 → Bool} {tape : List UInt64}
    {config : ShrinkConfig} {before calls : Nat} {report : ShrinkReport}
    (sound : ShrinkSound fails tape config before report calls) :
    report.minimized.length ≤ tape.length := by
  have sized : report.minimized.length = report.keptIndices.length := by
    simpa using congrArg List.length sound.restricts
  have distinct : report.keptIndices.Nodup := sound.increasing.imp fun below => ne_of_lt below
  have within : report.keptIndices ⊆ List.range tape.length :=
    fun index member => List.mem_range.mpr (sound.inRange index member)
  rw [sized, ← List.length_range (n := tape.length)]
  exact (List.Nodup.subperm distinct within).length_le

theorem untouched_sound {fails : List UInt64 → Bool} {tape : List UInt64} (config : ShrinkConfig)
    (before : Nat) {report : ShrinkReport} (passing : fails tape = false)
    (same : report = .untouched tape) : ShrinkSound fails tape config before report (before + 1) := by
  subst same
  refine ⟨List.pairwise_lt_range, fun index => List.mem_range.mp, ?_, rfl, le_max_left 1 _, ?_,
    fun _ => ⟨rfl, rfl⟩⟩
  · apply List.ext_getElem
    · simp [ShrinkReport.untouched]
    · intro index left right
      simp [ShrinkReport.untouched]
  · intro failing
    exact absurd (failing.symm.trans passing) (by decide)

theorem shrinkTape_sound (fails : List UInt64 → Bool) (tape : List UInt64)
    (config : ShrinkConfig) (before : Nat) :
    ShrinkSound fails tape config before
      (shrinkTapeWithConfig (counted fails) tape config before).1
      (shrinkTapeWithConfig (counted fails) tape config before).2 := by
  cases failing : fails tape with
  | false =>
      simp only [shrinkTapeWithConfig, counted, failing]
      exact untouched_sound config before failing rfl
  | true =>
      have start : InStep fails tape config.maxAttempts before (.start tape) (before + 1) :=
        inStep_start failing
      have chunked := inStep_chunkPass config (tape.length / 2) start
      have dropped := inStep_dropPass (fun _ => true) 0 chunked
      have sound := dropped.sound failing
      simp only [shrinkTapeWithConfig, counted, failing]
      exact sound

/-! Labels of dropped draws. -/

/-- How many draws with this label were dropped. -/
def droppedDraws (labels : List String) (keptIndices : List Nat) (label : String) : Nat :=
  labels.zipIdx.countP fun draw => decide (draw.1 = label) && decide (draw.2 ∉ keptIndices)

/-- One entry for each label of a dropped draw, in order, with their number. -/
structure LabelsCounted (labels : List String) (keptIndices : List Nat)
    (removed : List RemovedLabel) : Prop where
  sorted : removed.Pairwise fun left right => left.label < right.label
  counts : ∀ label count, (⟨label, count⟩ : RemovedLabel) ∈ removed ↔
    0 < count ∧ count = droppedDraws labels keptIndices label

/-- The count of the first entry with the label. -/
def countOf (label : String) : List RemovedLabel → Nat
  | [] => 0
  | entry :: rest => if entry.label = label then entry.count else countOf label rest

theorem countOf_countRemoved (added label : String) (out : List RemovedLabel) :
    countOf label (countRemoved added out) = countOf label out + if label = added then 1 else 0 := by
  induction out with
  | nil => simp [countRemoved, countOf, eq_comm]
  | cons entry rest ih =>
      rw [countRemoved]
      by_cases same : entry.label = added
      · by_cases asked : label = added
        · simp [same, asked, countOf]
        · simp [same, asked, countOf, Ne.symm asked]
      · rw [if_neg same, countOf, countOf, ih]
        split_ifs with found asked
        · exact absurd (found.trans asked) same
        all_goals rfl

/-- Entries that a summary can hold: different labels, none counted zero times. -/
structure Tallied (out : List RemovedLabel) : Prop where
  distinct : (out.map RemovedLabel.label).Nodup
  positive : ∀ entry ∈ out, 0 < entry.count

theorem labels_countRemoved (label : String) (out : List RemovedLabel) :
    (countRemoved label out).map RemovedLabel.label =
      if label ∈ out.map RemovedLabel.label then out.map RemovedLabel.label
      else out.map RemovedLabel.label ++ [label] := by
  induction out with
  | nil => rfl
  | cons entry rest ih =>
      rw [countRemoved]
      by_cases same : entry.label = label
      · simp [same]
      · rw [if_neg same, List.map_cons, ih]
        have other : label ≠ entry.label := fun equal => same equal.symm
        by_cases member : label ∈ rest.map RemovedLabel.label <;> simp [member, other]

theorem Tallied.countRemoved {out : List RemovedLabel} (tallied : Tallied out) (label : String) :
    Tallied (countRemoved label out) := by
  constructor
  · rw [labels_countRemoved]
    split_ifs with member
    · exact tallied.distinct
    · exact List.nodup_append.mpr ⟨tallied.distinct, List.pairwise_singleton _ label, by
        intro left inside right same
        rw [List.mem_singleton.mp same]
        rintro rfl
        exact member inside⟩
  · have positive := tallied.positive
    clear tallied
    induction out with
    | nil => simp [Detersim.countRemoved]
    | cons entry rest ih =>
        rw [Detersim.countRemoved]
        split_ifs
        · refine List.forall_mem_cons.mpr ⟨Nat.succ_pos _, ?_⟩
          exact fun other member => positive other (List.mem_cons_of_mem _ member)
        · refine List.forall_mem_cons.mpr ⟨positive entry List.mem_cons_self, ?_⟩
          exact ih fun other member => positive other (List.mem_cons_of_mem _ member)

theorem Tallied.mem_iff {out : List RemovedLabel} (tallied : Tallied out) (label : String)
    (count : Nat) :
    (⟨label, count⟩ : RemovedLabel) ∈ out ↔ 0 < count ∧ count = countOf label out := by
  obtain ⟨distinct, positive⟩ := tallied
  induction out with
  | nil =>
      simp only [List.not_mem_nil, countOf, false_iff, not_and]
      exact fun some_ none_ => absurd none_ some_.ne'
  | cons entry rest ih =>
      obtain ⟨absent, distinct⟩ := List.nodup_cons.mp distinct
      have ih := ih distinct fun other member => positive other (List.mem_cons_of_mem _ member)
      rw [List.mem_cons, ih, countOf]
      by_cases same : entry.label = label
      · subst same
        have elsewhere : (⟨entry.label, count⟩ : RemovedLabel) ∉ rest := by
          intro member
          exact absent (List.mem_map.mpr ⟨_, member, rfl⟩)
        rw [ih] at elsewhere
        rw [if_pos rfl]
        constructor
        · rintro (equal | other)
          · have shape : count = entry.count := congrArg RemovedLabel.count equal
            exact ⟨shape ▸ positive entry List.mem_cons_self, shape⟩
          · exact absurd other elsewhere
        · rintro ⟨_, rfl⟩
          exact Or.inl rfl
      · rw [if_neg same]
        constructor
        · rintro (rfl | other)
          · exact absurd rfl same
          · exact other
        · exact Or.inr

theorem summary_tallies (draws : List (String × Nat)) (keptIndices : List Nat)
    (out : List RemovedLabel) (tallied : Tallied out) (label : String) :
    Tallied (draws.foldl
        (fun out (label, index) => if index ∈ keptIndices then out else countRemoved label out) out) ∧
      countOf label (draws.foldl
        (fun out (label, index) => if index ∈ keptIndices then out else countRemoved label out) out) =
          countOf label out + draws.countP fun draw =>
            decide (draw.1 = label) && decide (draw.2 ∉ keptIndices) := by
  induction draws generalizing out with
  | nil => exact ⟨tallied, rfl⟩
  | cons draw rest ih =>
      obtain ⟨carried, index⟩ := draw
      rw [List.foldl_cons, List.countP_cons]
      -- A draw that was kept is skipped; a dropped one adds one to its own label.
      by_cases kept : index ∈ keptIndices
      · simpa [kept] using ih out tallied
      · obtain ⟨final, counts⟩ := ih _ (tallied.countRemoved carried)
        simp only [kept, if_false]
        refine ⟨final, ?_⟩
        rw [counts, countOf_countRemoved]
        by_cases same : label = carried
        · subst same
          simp
          omega
        · simp [same, Ne.symm same]

theorem summarizeRemovedLabels_counts (labels : List String) (keptIndices : List Nat) :
    LabelsCounted labels keptIndices (summarizeRemovedLabels labels keptIndices) := by
  have empty : Tallied [] := ⟨List.nodup_nil, by simp⟩
  unfold summarizeRemovedLabels
  have summary := summary_tallies labels.zipIdx keptIndices [] empty
  generalize labels.zipIdx.foldl
    (fun out (label, index) => if index ∈ keptIndices then out else countRemoved label out) [] = out
    at summary ⊢
  constructor
  · have ordered : (out.mergeSort fun left right : RemovedLabel =>
        decide (left.label ≤ right.label)).Pairwise fun left right =>
          decide (left.label ≤ right.label) = true := List.pairwise_mergeSort
      (fun first second third left right => by
        simp only [decide_eq_true_eq] at left right ⊢
        exact left.trans right)
      (fun left right => by simpa using le_total left.label right.label) out
    have distinct : (out.mergeSort fun left right : RemovedLabel =>
        decide (left.label ≤ right.label)).Pairwise fun left right => left.label ≠ right.label := by
      have permuted := (List.mergeSort_perm out
        fun left right : RemovedLabel => decide (left.label ≤ right.label)).map RemovedLabel.label
      exact List.pairwise_map.mp (permuted.nodup_iff.mpr (summary "").1.distinct)
    refine (ordered.and distinct).imp ?_
    rintro left right ⟨le, ne⟩
    exact lt_of_le_of_ne (of_decide_eq_true le) ne
  · intro label count
    obtain ⟨tallied, counts⟩ := summary label
    rw [List.mem_mergeSort, tallied.mem_iff, counts]
    simp [countOf, droppedDraws]

theorem shrinkTapeLabelAware_sound (fails : List UInt64 → Bool) (tape : List UInt64)
    (labels : List String) (config : ShrinkConfig) (before : Nat) :
    ShrinkSound fails tape config before
        (shrinkTapeLabelAwareWithConfig (counted fails) tape labels config before).1.shrink
        (shrinkTapeLabelAwareWithConfig (counted fails) tape labels config before).2 ∧
      (labels.length = tape.length →
        LabelsCounted labels
          (shrinkTapeLabelAwareWithConfig (counted fails) tape labels config
            before).1.shrink.keptIndices
          (shrinkTapeLabelAwareWithConfig (counted fails) tape labels config
            before).1.removedLabels) := by
  unfold shrinkTapeLabelAwareWithConfig
  split_ifs with mismatched
  · exact ⟨shrinkTape_sound fails tape config before, fun same => absurd same mismatched⟩
  · refine ⟨?_, fun _ => summarizeRemovedLabels_counts _ _⟩
    cases failing : fails tape with
    | false =>
        simp only [counted, failing]
        exact untouched_sound config before failing rfl
    | true =>
        have start : InStep fails tape config.maxAttempts before (.start tape) (before + 1) :=
          inStep_start failing
        have sound := (inStep_tierPasses labels start).sound failing
        simp only [counted, failing]
        exact sound

/-- Nothing was dropped. -/
theorem labelsCounted_untouched (labels : List String) (tape : List UInt64)
    (sized : labels.length = tape.length) :
    LabelsCounted labels (ShrinkReport.untouched tape).keptIndices [] := by
  refine ⟨List.Pairwise.nil, ?_⟩
  intro label count
  have none_ : droppedDraws labels (ShrinkReport.untouched tape).keptIndices label = 0 := by
    apply List.countP_eq_zero.mpr
    rintro ⟨carried, index⟩ member
    have bound := (List.getElem?_eq_some_iff.mp (List.mem_zipIdx_iff_getElem?.mp member)).1
    simp only [ShrinkReport.untouched, List.mem_range, ← sized, bound, not_true_eq_false,
      decide_false, Bool.and_false]
    exact Bool.false_ne_true
  rw [none_]
  simp only [List.not_mem_nil, false_iff, not_and]
  exact fun some_ zero => absurd zero some_.ne'

section Signatures

variable {Signature : Type} [DecidableEq Signature]

/-- A pure classifier whose calls are counted. -/
def classified (classify : List UInt64 → Option Signature) (candidate : List UInt64)
    (calls : Nat) : Option Signature × Nat :=
  (classify candidate, calls + 1)

theorem sameSignature_classified (classify : List UInt64 → Option Signature)
    (signature : Signature) :
    sameSignature (classified classify) signature =
      counted fun candidate => decide (classify candidate = some signature) := rfl

/-- The signature is preserved by any shrinker that keeps its failure. -/
theorem preservingShrink_iff (classify : List UInt64 → Option Signature) (tape : List UInt64)
    (config : ShrinkConfig)
    (shrink : (List UInt64 → Nat → Bool × Nat) → Nat → LabelAwareShrinkReport × Nat)
    (sound : ∀ fails, ShrinkSound fails tape config 1 (shrink (counted fails) 1).1.shrink
      (shrink (counted fails) 1).2) :
    (preservingShrink (classified classify) shrink tape 0).1.signaturePreserved = true ↔
      (classify tape).isSome = true := by
  obtain ⟨found, original⟩ : ∃ found, classify tape = found := ⟨_, rfl⟩
  cases found with
  | none => simp [preservingShrink, classified, original]
  | some signature =>
      -- To keep the signature is to keep failing under the classifier's own verdict.
      have kept := (sound fun candidate => decide (classify candidate = some signature)).failing
        (decide_eq_true original)
      rw [← sameSignature_classified] at kept
      have same : classify (shrink (sameSignature (classified classify) signature)
          1).1.shrink.minimized = some signature := of_decide_eq_true kept.2
      simpa [preservingShrink, classified, original] using same

/-- Soundness of shrinking. -/
theorem shrink_sound (fails : List UInt64 → Bool) (classify : List UInt64 → Option Signature)
    (tape : List UInt64) (labels : List String) (config : ShrinkConfig) :
    ShrinkSound fails tape config 0 (shrinkTapeWithConfig (counted fails) tape config 0).1
        (shrinkTapeWithConfig (counted fails) tape config 0).2 ∧
      ShrinkSound fails tape config 0
        (shrinkTapeLabelAwareWithConfig (counted fails) tape labels config 0).1.shrink
        (shrinkTapeLabelAwareWithConfig (counted fails) tape labels config 0).2 ∧
      ((runShrink (classified classify) tape config 0).1.signaturePreserved = true ↔
        (classify tape).isSome = true) ∧
      ((runShrinkLabelAware (classified classify) tape labels config 0).1.signaturePreserved =
        true ↔ (classify tape).isSome = true) ∧
      (labels.length = tape.length →
        LabelsCounted labels
          (shrinkTapeLabelAwareWithConfig (counted fails) tape labels config 0).1.shrink.keptIndices
          (shrinkTapeLabelAwareWithConfig (counted fails) tape labels config 0).1.removedLabels ∧
        LabelsCounted labels
          (runShrinkLabelAware (classified classify) tape labels config 0).1.report.keptIndices
          (runShrinkLabelAware (classified classify) tape labels config 0).1.removedLabels) := by
  refine ⟨shrinkTape_sound fails tape config 0,
    (shrinkTapeLabelAware_sound fails tape labels config 0).1, ?_, ?_, ?_⟩
  · exact preservingShrink_iff classify tape config _
      fun fails => shrinkTape_sound fails tape config 1
  · exact preservingShrink_iff classify tape config _
      fun fails => (shrinkTapeLabelAware_sound fails tape labels config 1).1
  · intro sized
    refine ⟨(shrinkTapeLabelAware_sound fails tape labels config 0).2 sized, ?_⟩
    unfold runShrinkLabelAware preservingShrink
    simp only [classified]
    cases classify tape with
    | none => exact labelsCounted_untouched labels tape sized
    | some signature => exact (shrinkTapeLabelAware_sound _ tape labels config 1).2 sized

end Signatures

end Detersim
