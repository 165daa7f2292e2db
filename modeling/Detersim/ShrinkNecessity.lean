import Detersim.ShrinkSoundness
import Mathlib.Data.List.Nodup
import Mathlib.Data.Prod.Lex

/-!
What the shrinker's last pass says about each draw it leaves. A draw is tried
once, and it was needed then; draws dropped after that may have made it
superfluous, unless the predicate is monotone.
-/

namespace Detersim

/-- The draws at the given indices. -/
def restrict (tape : List UInt64) (indices : List Nat) : List UInt64 :=
  indices.filterMap (tape[·]?)

/-- Draws are tried by tier, and by index within a tier. -/
def trialRank (tier : Nat → Nat) (index : Nat) : Nat ×ₗ Nat := toLex (tier index, index)

/-- When the draw was tried, the tape held some more draws, all of them still to
be tried. It failed, and without the draw it did not. -/
structure NeededWhenTried (fails : List UInt64 → Bool) (tape : List UInt64) (tier : Nat → Nat)
    (kept : List Nat) (index : Nat) (held : List Nat) : Prop where
  more : kept.Sublist held
  later : ∀ other ∈ held, other ∉ kept → trialRank tier index < trialRank tier other
  failed : fails (restrict tape held) = true
  needed : fails (restrict tape (held.filter fun other => decide (other ≠ index))) = false

/-- Every draw that is done with was needed when it was tried. -/
def Needs (fails : List UInt64 → Bool) (tape : List UInt64) (tier : Nat → Nat)
    (done : Nat → Prop) (kept : List Nat) : Prop :=
  ∀ index ∈ kept, done index → ∃ held, NeededWhenTried fails tape tier kept index held

/-- A failure that more draws cannot hide. -/
def MonotoneFailure (fails : List UInt64 → Bool) : Prop :=
  ∀ fewer more, List.Sublist fewer more → fails fewer = true → fails more = true

/-- No draw can be left out. -/
def OneMinimal (fails : List UInt64 → Bool) (tape : List UInt64) : Prop :=
  ∀ pos < tape.length, fails (tape.eraseIdx pos) = false

section Restrictions

variable {tape : List UInt64}

theorem restrict_of_map {current : List UInt64} {kept : List Nat}
    (restricts : current.map some = kept.map (tape[·]?)) : restrict tape kept = current := by
  have flat : (kept.map (tape[·]?)).filterMap id = (current.map some).filterMap id := by
    rw [restricts]
  simpa [restrict, List.filterMap_map] using flat

theorem drain_one {Item : Type} (items : List Item) (pos : Nat) :
    drain items pos 1 = items.eraseIdx pos :=
  (List.eraseIdx_eq_take_drop_succ items pos).symm

theorem restrict_eraseIdx {current : List UInt64} {kept : List Nat} (pos : Nat)
    (restricts : current.map some = kept.map (tape[·]?)) :
    restrict tape (kept.eraseIdx pos) = current.eraseIdx pos := by
  refine restrict_of_map ?_
  rw [← drain_one, ← drain_one, ← drain_map, ← drain_map, restricts]

theorem eraseIdx_eq_filter {kept : List Nat} (increasing : kept.Pairwise (· < ·)) {pos : Nat}
    (bound : pos < kept.length) :
    kept.eraseIdx pos = kept.filter fun other => decide (other ≠ kept[pos]) := by
  have distinct : kept.Nodup := increasing.imp fun before => ne_of_lt before
  rw [← List.Nodup.erase_getElem distinct pos bound, List.Nodup.erase_eq_filter distinct]
  refine List.filter_congr fun other _ => ?_
  by_cases same : other = kept[pos] <;> simp [same]

end Restrictions

section Needed

variable {fails : List UInt64 → Bool} {tape : List UInt64} {tier : Nat → Nat}
  {done : Nat → Prop} {kept : List Nat}

theorem Needs.mono {fewer : Nat → Prop} (needs : Needs fails tape tier done kept)
    (within : ∀ index ∈ kept, fewer index → done index) : Needs fails tape tier fewer kept :=
  fun index member asked => needs index member (within index member asked)

/-- Dropping a draw that comes after all those done with. -/
theorem Needs.drop (needs : Needs fails tape tier done kept) (pos : Nat)
    (later : ∀ index ∈ kept, done index → ∀ dropped, kept[pos]? = some dropped →
      trialRank tier index < trialRank tier dropped) :
    Needs fails tape tier done (kept.eraseIdx pos) := by
  intro index member isDone
  have inside := List.mem_of_mem_eraseIdx member
  obtain ⟨held, tried⟩ := needs index inside isDone
  refine ⟨held, { tried with more := (List.eraseIdx_sublist kept pos).trans tried.more, later := ?_ }⟩
  intro other there gone
  by_cases still : other ∈ kept
  · -- It is the draw dropped just now, and that one comes later in the order.
    obtain ⟨at_, bound, rfl⟩ := List.getElem_of_mem still
    have same : at_ = pos := by
      by_contra different
      exact gone (List.mem_eraseIdx_iff_getElem.mpr ⟨at_, bound, different, rfl⟩)
    exact later index inside isDone _ (same ▸ List.getElem?_eq_getElem bound)
  · exact tried.later other there still

/-- A draw whose removal was rejected. -/
theorem needed_here {current : List UInt64} {pos : Nat} (increasing : kept.Pairwise (· < ·))
    (restricts : current.map some = kept.map (tape[·]?)) (bound : pos < kept.length)
    (failed : fails current = true) (passed : fails (drain current pos 1) = false) :
    NeededWhenTried fails tape tier kept kept[pos] kept where
  more := List.Sublist.refl kept
  later other inside outside := absurd inside outside
  failed := (restrict_of_map restricts).symm ▸ failed
  needed := by
    rw [← eraseIdx_eq_filter increasing bound, restrict_eraseIdx pos restricts, ← drain_one]
    exact passed

/-- One pass settles the draws it has chosen, when it comes after all those done with. -/
theorem needs_dropPass (tier : Nat → Nat) (done : Nat → Prop) {shrinking : Shrinking}
    {maxAttempts before calls : Nat} (chosen : Nat → Bool) (pos : Nat)
    (first : ∀ left right, done left → chosen right = true →
      trialRank tier left < trialRank tier right)
    (inOrder : ∀ left right, chosen left = true → chosen right = true → left < right →
      trialRank tier left < trialRank tier right)
    (inStep : InStep fails tape maxAttempts before shrinking calls)
    (needs : Needs fails tape tier
      (fun index => done index ∨
        chosen index = true ∧ ∃ earlier < pos, shrinking.keptIndices[earlier]? = some index)
      shrinking.keptIndices) :
    maxAttempts ≤ (dropPass (counted fails) chosen maxAttempts pos shrinking calls).1.attempts ∨
      Needs fails tape tier (fun index => done index ∨ chosen index = true)
        (dropPass (counted fails) chosen maxAttempts pos shrinking calls).1.keptIndices := by
  fun_induction dropPass (counted fails) chosen maxAttempts pos shrinking calls with
  | case1 pos shrinking calls inside skipped ih =>
      -- The draw at `pos` is not this pass's to try.
      refine ih inStep (needs.mono ?_)
      rintro index member (isDone | ⟨asked, earlier, below, found⟩)
      · exact Or.inl isDone
      · have elsewhere : earlier ≠ pos := by
          rintro rfl
          rw [List.getD_eq_getElem?_getD, found, Option.getD_some, asked] at skipped
          exact absurd skipped (by decide)
        exact Or.inr ⟨asked, earlier, by omega, found⟩
  | case2 pos shrinking calls inside asked tried failed ih =>
      -- The removal is kept, and the next draw slides into `pos`.
      have failing : fails (drain shrinking.current pos 1) = true := tryDrain_fst.symm.trans failed
      have next := inStep_tryDrain inStep inside.2 pos 1
      have bound : pos < shrinking.keptIndices.length := inStep.sized ▸ inside.1
      have here : shrinking.keptIndices[pos]? = some shrinking.keptIndices[pos] :=
        List.getElem?_eq_getElem bound
      have chosenHere : chosen shrinking.keptIndices[pos] = true := by
        simpa [List.getD_eq_getElem?_getD, here] using asked
      simp only [tried, tryDrain_accepted failing, drain_one] at ih next ⊢
      refine ih next ((needs.drop pos ?_).mono ?_)
      · -- What is done with comes earlier in the order of trials.
        rintro index member (isDone | ⟨chosenBefore, earlier, below, found⟩) dropped same
        · exact first _ _ isDone (Option.some.inj (here.symm.trans same) ▸ chosenHere)
        · obtain ⟨bound', rfl⟩ := List.getElem?_eq_some_iff.mp found
          obtain ⟨bound'', rfl⟩ := List.getElem?_eq_some_iff.mp same
          exact inOrder _ _ chosenBefore chosenHere
            (List.pairwise_iff_getElem.mp inStep.increasing _ _ bound' bound'' below)
      · rintro index member (isDone | ⟨asked, earlier, below, found⟩)
        · exact Or.inl isDone
        · rw [List.getElem?_eraseIdx_of_lt below] at found
          exact Or.inr ⟨asked, earlier, below, found⟩
  | case3 pos shrinking calls inside asked tried passed ih =>
      -- The removal is refused: the trial itself shows that the draw at `pos` is needed.
      have passing : fails (drain shrinking.current pos 1) = false :=
        tryDrain_fst.symm.trans (Bool.eq_false_iff.mpr passed)
      have next := inStep_tryDrain inStep inside.2 pos 1
      simp only [tried, tryDrain_rejected passing] at ih next ⊢
      refine ih next ?_
      rintro index member (isDone | ⟨chosen_, earlier, below, found⟩)
      · exact needs index member (Or.inl isDone)
      by_cases before_ : earlier < pos
      · exact needs index member (Or.inr ⟨chosen_, earlier, before_, found⟩)
      · obtain rfl : earlier = pos := by omega
        obtain ⟨bound, rfl⟩ := List.getElem?_eq_some_iff.mp found
        exact ⟨_, needed_here inStep.increasing inStep.restricts bound inStep.fails passing⟩
  | case4 pos shrinking calls outside =>
      -- The pass stops past the last draw or out of attempts.
      by_cases spent : maxAttempts ≤ shrinking.attempts
      · exact Or.inl spent
      · have all : shrinking.keptIndices.length ≤ pos := by
          rw [← inStep.sized]
          omega
        refine Or.inr (needs.mono ?_)
        rintro index member (isDone | asked)
        · exact Or.inl isDone
        · obtain ⟨earlier, bound, found⟩ := List.getElem_of_mem member
          exact Or.inr ⟨asked, earlier, by omega, found ▸ List.getElem?_eq_getElem bound⟩

theorem dropPass_spent {shrinking : Shrinking} {maxAttempts calls : Nat} (chosen : Nat → Bool)
    (pos : Nat) (spent : maxAttempts ≤ shrinking.attempts) :
    dropPass (counted fails) chosen maxAttempts pos shrinking calls = (shrinking, calls) := by
  rw [dropPass, if_neg]
  omega

/-- Increasing tiers, one pass each, when all draws of other tiers come before them. -/
theorem needs_tiers (tier : Nat → Nat) {maxAttempts before : Nat} (tiers : List Nat)
    (increasing : tiers.Pairwise (· < ·))
    (others : ∀ index, tier index ∉ tiers → ∀ next ∈ tiers, tier index < next)
    {shrinking : Shrinking} {calls : Nat}
    (inStep : InStep fails tape maxAttempts before shrinking calls)
    (needs : maxAttempts ≤ shrinking.attempts ∨
      Needs fails tape tier (fun index => tier index ∉ tiers) shrinking.keptIndices) :
    let last := (tiers.foldl
      (fun (shrinking, calls) next =>
        dropPass (counted fails) (fun index => decide (tier index = next)) maxAttempts 0 shrinking
          calls)
      (shrinking, calls)).1
    maxAttempts ≤ last.attempts ∨ Needs fails tape tier (fun _ => True) last.keptIndices := by
  induction tiers generalizing shrinking calls with
  | nil => exact needs.imp_right fun needs => needs.mono fun _ _ _ => List.not_mem_nil
  | cons next rest ih =>
      obtain ⟨least, increasing⟩ := List.pairwise_cons.mp increasing
      refine ih increasing ?_ (inStep_dropPass _ 0 inStep) ?_
      · intro index outside later member
        by_cases same : tier index = next
        · exact same ▸ least later member
        · refine others index ?_ later (List.mem_cons_of_mem next member)
          simp [same, outside]
      · rcases needs with spent | needs
        · rw [dropPass_spent _ 0 spent]
          exact Or.inl spent
        have passed := needs_dropPass tier (fun index => tier index ∉ next :: rest)
          (fun index => decide (tier index = next)) 0 ?_ ?_ inStep (needs.mono ?_)
        · refine passed.imp_right fun needs => needs.mono ?_
          intro index member outside
          by_cases same : tier index = next
          · exact Or.inr (decide_eq_true same)
          · exact Or.inl (by simp [same, outside])
        · intro left right outside asked
          have lower := others left outside next List.mem_cons_self
          exact Prod.Lex.left _ _ (of_decide_eq_true asked ▸ lower)
        · intro left right askedLeft askedRight below
          have same := (of_decide_eq_true askedLeft).trans (of_decide_eq_true askedRight).symm
          exact Prod.Lex.toLex_lt_toLex.mpr (Or.inr ⟨same, below⟩)
        · rintro index member (outside | ⟨_, earlier, below, _⟩)
          · exact outside
          · exact absurd below (Nat.not_lt_zero earlier)

end Needed

/-- Every draw left was needed when it was tried, so none can be left out when more
draws cannot hide the failure. -/
structure LeavesNeeded (fails : List UInt64 → Bool) (tape : List UInt64) (tier : Nat → Nat)
    (report : ShrinkReport) : Prop where
  needed : ∀ index ∈ report.keptIndices,
    ∃ held, NeededWhenTried fails tape tier report.keptIndices index held
  oneMinimal : MonotoneFailure fails → OneMinimal fails report.minimized

section Reports

variable {fails : List UInt64 → Bool} {tape : List UInt64} {tier : Nat → Nat}

theorem restrict_sublist {fewer more : List Nat} (within : fewer.Sublist more) :
    (restrict tape fewer).Sublist (restrict tape more) :=
  within.filterMap _

theorem InStep.leavesNeeded {maxAttempts before calls originalLen : Nat} {shrinking : Shrinking}
    (inStep : InStep fails tape maxAttempts before shrinking calls)
    (needs : Needs fails tape tier (fun _ => True) shrinking.keptIndices) :
    LeavesNeeded fails tape tier (shrinking.report originalLen true) where
  needed index member := needs index member trivial
  oneMinimal monotone pos bound := by
    have bound : pos < shrinking.keptIndices.length := inStep.sized ▸ bound
    obtain ⟨held, tried⟩ := needs shrinking.keptIndices[pos] (List.getElem_mem bound) trivial
    have fewer : (shrinking.current.eraseIdx pos).Sublist
        (restrict tape (held.filter fun other => decide (other ≠ shrinking.keptIndices[pos]))) := by
      rw [← restrict_eraseIdx pos inStep.restricts, eraseIdx_eq_filter inStep.increasing bound]
      exact restrict_sublist (tried.more.filter _)
    -- What was tried held more draws, and more draws cannot hide a failure.
    by_contra failing
    have hidden := monotone _ _ fewer (Bool.eq_true_of_not_eq_false failing)
    exact absurd (hidden.symm.trans tried.needed) (by decide)

theorem shrinkTape_leavesNeeded (config : ShrinkConfig) (calls : Nat)
    (failing : (shrinkTapeWithConfig (counted fails) tape config calls).1.reproduced = true)
    (unspent : (shrinkTapeWithConfig (counted fails) tape config calls).1.attempts <
      config.maxAttempts) :
    LeavesNeeded fails tape (fun _ => 0)
      (shrinkTapeWithConfig (counted fails) tape config calls).1 := by
  have sound := shrinkTape_sound fails tape config calls
  cases original : fails tape with
  | false => exact absurd ((sound.passing original).1.symm.trans failing) (by decide)
  | true =>
      have start : InStep fails tape config.maxAttempts calls (.start tape) (calls + 1) :=
        inStep_start original
      have chunked := inStep_chunkPass config (tape.length / 2) start
      have dropped := inStep_dropPass (fun _ => true) 0 chunked
      have needs := needs_dropPass (fun _ => 0) (fun _ => False) (fun _ => true) 0
        (fun _ _ none_ => none_.elim)
        (fun _ _ _ _ below => Prod.Lex.toLex_lt_toLex.mpr (Or.inr ⟨rfl, below⟩)) chunked
        (by
          rintro index member (none_ | ⟨_, earlier, below, _⟩)
          · exact none_.elim
          · exact absurd below (Nat.not_lt_zero earlier))
      simp only [shrinkTapeWithConfig, counted, original] at unspent ⊢
      refine dropped.leavesNeeded ((needs.resolve_left ?_).mono fun _ _ _ => Or.inr rfl)
      exact Nat.not_le_of_lt unspent

theorem labelTier_le (label : String) : labelTier label ≤ 3 := by
  unfold labelTier
  split_ifs <;> decide

theorem shrinkTapeLabelAware_leavesNeeded (labels : List String)
    (sized : labels.length = tape.length) (config : ShrinkConfig) (calls : Nat)
    (failing : (shrinkTapeLabelAwareWithConfig (counted fails) tape labels config
      calls).1.shrink.reproduced = true)
    (unspent : (shrinkTapeLabelAwareWithConfig (counted fails) tape labels config
      calls).1.shrink.attempts < config.maxAttempts) :
    LeavesNeeded fails tape (fun index => labelTier (labels.getD index ""))
      (shrinkTapeLabelAwareWithConfig (counted fails) tape labels config calls).1.shrink := by
  have sound := (shrinkTapeLabelAware_sound fails tape labels config calls).1
  cases original : fails tape with
  | false => exact absurd ((sound.passing original).1.symm.trans failing) (by decide)
  | true =>
      have start : InStep fails tape config.maxAttempts calls (.start tape) (calls + 1) :=
        inStep_start original
      have passed := inStep_tierPasses labels start
      have all : ∀ index, labelTier (labels.getD index "") ∈ [0, 1, 2, 3] := by
        intro index
        have bound := labelTier_le (labels.getD index "")
        simp only [List.mem_cons, List.not_mem_nil, or_false]
        omega
      have needs := needs_tiers (fun index => labelTier (labels.getD index "")) [0, 1, 2, 3]
        (by decide) (fun index outside => absurd (all index) outside) start
        (Or.inr fun index _ outside => absurd (all index) outside)
      simp only [shrinkTapeLabelAwareWithConfig, sized, ne_eq, not_true_eq_false, if_false, counted,
        original, if_true] at unspent ⊢
      exact passed.leavesNeeded (needs.resolve_left (Nat.not_le_of_lt unspent))

/-- What shrinking that ends within its budget says about the draws it leaves. -/
theorem shrink_leaves_needed (fails : List UInt64 → Bool) (tape : List UInt64)
    (labels : List String) (config : ShrinkConfig) :
    ((shrinkTapeWithConfig (counted fails) tape config 0).1.reproduced = true →
      (shrinkTapeWithConfig (counted fails) tape config 0).1.attempts < config.maxAttempts →
      LeavesNeeded fails tape (fun _ => 0)
        (shrinkTapeWithConfig (counted fails) tape config 0).1) ∧
    (labels.length = tape.length →
      (shrinkTapeLabelAwareWithConfig (counted fails) tape labels config 0).1.shrink.reproduced =
        true →
      (shrinkTapeLabelAwareWithConfig (counted fails) tape labels config 0).1.shrink.attempts <
        config.maxAttempts →
      LeavesNeeded fails tape (fun index => labelTier (labels.getD index ""))
        (shrinkTapeLabelAwareWithConfig (counted fails) tape labels config 0).1.shrink) :=
  ⟨shrinkTape_leavesNeeded config 0,
    fun sized => shrinkTapeLabelAware_leavesNeeded labels sized config 0⟩

/-- Fails on `[1, 2]`, on `[1]` and on no draw at all. -/
def failsUnlessSecond (candidate : List UInt64) : Bool :=
  decide (candidate = [1, 2] ∨ candidate = [1] ∨ candidate = [])

/-- The first draw is needed as long as the second is there, and is not tried again. -/
theorem shrink_not_one_minimal :
    ¬((shrinkTapeWithConfig (counted failsUnlessSecond) [1, 2] {} 0).1.reproduced = true →
        (shrinkTapeWithConfig (counted failsUnlessSecond) [1, 2] {} 0).1.attempts < 1000 →
        OneMinimal failsUnlessSecond
          (shrinkTapeWithConfig (counted failsUnlessSecond) [1, 2] {} 0).1.minimized) ∧
      ¬((shrinkTapeLabelAwareWithConfig (counted failsUnlessSecond) [1, 2]
            ["net-delay", "net-delay"] {} 0).1.shrink.reproduced = true →
          (shrinkTapeLabelAwareWithConfig (counted failsUnlessSecond) [1, 2]
            ["net-delay", "net-delay"] {} 0).1.shrink.attempts < 1000 →
          OneMinimal failsUnlessSecond
            (shrinkTapeLabelAwareWithConfig (counted failsUnlessSecond) [1, 2]
              ["net-delay", "net-delay"] {} 0).1.shrink.minimized) := by
  have plain : (shrinkTapeWithConfig (counted failsUnlessSecond) [1, 2] {} 0).1 =
      ⟨2, [1], [0], 3, true, 1⟩ := by
    simp [shrinkTapeWithConfig, counted, failsUnlessSecond, chunkPass, dropPass, tryDrain, drain,
      Shrinking.start, Shrinking.report]
  have aware : (shrinkTapeLabelAwareWithConfig (counted failsUnlessSecond) [1, 2]
      ["net-delay", "net-delay"] {} 0).1.shrink = ⟨2, [1], [0], 3, true, 1⟩ := by
    have tiers : ∀ index, labelTier (["net-delay", "net-delay"].getD index "") =
        if index < 2 then 0 else 3 := by
      intro index
      rcases index with _ | _ | index <;> simp [labelTier]
    simp only [shrinkTapeLabelAwareWithConfig, counted, failsUnlessSecond, tierPasses, tiers,
      List.foldl]
    simp [dropPass, tryDrain, counted, failsUnlessSecond, drain, Shrinking.start, Shrinking.report]
  have superfluous : ¬OneMinimal failsUnlessSecond [1] := by
    intro minimal
    exact absurd (minimal 0 (by decide)) (by decide)
  rw [plain, aware]
  exact ⟨fun claim => superfluous (claim rfl (by decide)),
    fun claim => superfluous (claim rfl (by decide))⟩

end Reports

end Detersim
