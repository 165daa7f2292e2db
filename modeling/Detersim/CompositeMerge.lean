import Detersim.KWayMerge
import Detersim.NemesisPlans
import Detersim.World

/-!
A composite of scripts is the merge of the scripts by time. What each child still
has to give is its pending action, if there is one, and the rest of its script.
-/

namespace Detersim

open KWayMerge

abbrev Planned := SimTime × NemesisAction

def plannedAt (planned : Planned) : Nat := planned.1.toNat

theorem fronts_increasing (sources : List (List Planned)) :
    (fronts sources).Pairwise fun one two => one.1 < two.1 := by
  have indices : sources.zipIdx.Pairwise fun one two => one.2 < two.2 := by
    rw [← List.pairwise_map, List.zipIdx_map_snd]
    exact List.pairwise_lt_range'
  refine List.pairwise_filterMap.mpr (indices.imp ?_)
  intro one two below first one_ second two_
  obtain ⟨_, _, rfl⟩ := Option.map_eq_some_iff.mp one_
  obtain ⟨_, _, rfl⟩ := Option.map_eq_some_iff.mp two_
  exact below

/-- The pending map when every child that has an action has one pending. -/
def frontMap (sources : List (List Planned)) : SortedMap Nat Planned :=
  ⟨fronts sources, fronts_increasing sources⟩

theorem get_frontMap (sources : List (List Planned)) (idx : Nat) :
    (frontMap sources).get idx = (sources.getD idx []).head? := by
  apply Option.ext
  intro planned
  rw [SortedMap.get_eq_some, frontMap, mem_fronts, List.getD_eq_getElem?_getD,
    List.head?_eq_some_iff]
  cases sources[idx]? <;> simp

namespace Composite

/-- What the children from the one at `idx` on have left. -/
def waitingFrom : Nat → List ScriptedPlan → SortedMap Nat Planned → List (List Planned)
  | _, [], _ => []
  | idx, plan :: rest, pending =>
      ((pending.get idx).toList ++ plan.actions.drop plan.cursor) ::
        waitingFrom (idx + 1) rest pending

def waiting (composite : Composite ScriptedPlan) : List (List Planned) :=
  waitingFrom 0 composite.plans composite.pending

theorem waitingFrom_congr {idx : Nat} {left right : SortedMap Nat Planned}
    (same : ∀ key, idx ≤ key → left.get key = right.get key) (plans : List ScriptedPlan) :
    waitingFrom idx plans left = waitingFrom idx plans right := by
  induction plans generalizing idx with
  | nil => rfl
  | cons plan rest ih =>
      rw [waitingFrom, waitingFrom, same idx le_rfl,
        ih fun key beyond => same key (Nat.le_of_succ_le beyond)]

theorem waitingFrom_remove {idx offset : Nat} {pending : SortedMap Nat Planned}
    {planned : Planned} (present : pending.get (idx + offset) = some planned)
    (plans : List ScriptedPlan) :
    waitingFrom idx plans (pending.remove (idx + offset)) =
      (waitingFrom idx plans pending).modify offset List.tail := by
  induction plans generalizing idx offset with
  | nil => cases offset <;> rfl
  | cons plan rest ih =>
      cases offset with
      | zero =>
          rw [waitingFrom, waitingFrom, Nat.add_zero] at *
          rw [SortedMap.get_remove_self, present, waitingFrom_congr fun key beyond =>
            pending.get_remove_of_ne (Nat.ne_of_gt beyond)]
          rfl
      | succ offset =>
          have moved : idx + (offset + 1) = idx + 1 + offset := by omega
          rw [moved] at present ⊢
          rw [waitingFrom, waitingFrom, ih present, List.modify_succ_cons,
            SortedMap.get_remove_of_ne _ (by omega)]

/-- One turn of the loop over the children. -/
theorem refill_turn (view : WorldView) (idx : Nat) (plan : ScriptedPlan)
    (rest : List ScriptedPlan) (pending : SortedMap Nat Planned) :
    ∃ (next : ScriptedPlan) (filled : SortedMap Nat Planned),
      refill ScriptedPlan.nextAction view idx (plan :: rest) pending =
        (refill ScriptedPlan.nextAction view (idx + 1) rest filled).bind
          (fun result => .done (next :: result.1, result.2)) ∧
      (filled.get idx).toList ++ next.actions.drop next.cursor =
        (pending.get idx).toList ++ plan.actions.drop plan.cursor ∧
      filled.get idx = ((pending.get idx).toList ++ plan.actions.drop plan.cursor).head? ∧
      ∀ key, key ≠ idx → filled.get key = pending.get key := by
  cases waiting : pending.get idx with
  | some planned =>
      have present : pending.contains idx = true := (pending.contains_iff idx).mpr ⟨_, waiting⟩
      refine ⟨plan, pending, ?_, by rw [waiting], waiting, fun _ _ => rfl⟩
      rw [refill, if_pos present]
  | none =>
      have absent : ¬pending.contains idx = true := by
        rw [SortedMap.contains, waiting]
        exact Bool.false_ne_true
      cases planned : plan.actions[plan.cursor]? with
      | none =>
          have finished : plan.actions.drop plan.cursor = [] :=
            List.drop_eq_nil_of_le (List.getElem?_eq_none_iff.mp planned)
          refine ⟨plan, pending, ?_, by rw [waiting], by rw [waiting, finished]; rfl,
            fun _ _ => rfl⟩
          rw [refill, if_neg absent, ScriptedPlan.nextAction, planned]
          rfl
      | some next =>
          have more : plan.actions.drop plan.cursor =
              next :: plan.actions.drop (plan.cursor + 1) := by
            rw [List.drop_eq_getElem?_toList_append, planned]
            rfl
          refine ⟨⟨plan.actions, plan.cursor + 1⟩, pending.insert idx next, ?_, ?_, ?_, ?_⟩
          · rw [refill, if_neg absent, ScriptedPlan.nextAction, planned]
            rfl
          · rw [SortedMap.get_insert_self, more]
            rfl
          · rw [SortedMap.get_insert_self, more]
            rfl
          · intro key other
            exact pending.get_insert_of_ne next other

/-- Refilling leaves what each child has left and puts the first of it in the map. -/
theorem refill_scripted (view : WorldView) (idx : Nat) (plans : List ScriptedPlan)
    (pending : SortedMap Nat Planned) :
    ∃ (left : List ScriptedPlan) (filled : SortedMap Nat Planned),
      refill ScriptedPlan.nextAction view idx plans pending = .done (left, filled) ∧
      left.length = plans.length ∧
      waitingFrom idx left filled = waitingFrom idx plans pending ∧
      (∀ key, key < idx ∨ idx + plans.length ≤ key → filled.get key = pending.get key) ∧
      ∀ offset, offset < plans.length →
        filled.get (idx + offset) = ((waitingFrom idx plans pending).getD offset []).head? := by
  induction plans generalizing idx pending with
  | nil => exact ⟨[], pending, rfl, rfl, rfl, fun _ _ => rfl, fun _ inside => absurd inside (by simp)⟩
  | cons plan rest ih =>
      obtain ⟨next, mid, ran, kept, front, others⟩ := refill_turn view idx plan rest pending
      obtain ⟨left, filled, ran_, size, keeps, outside, fronts⟩ := ih (idx + 1) mid
      have after : waitingFrom (idx + 1) rest mid = waitingFrom (idx + 1) rest pending :=
        waitingFrom_congr (fun key beyond => others key (by omega)) rest
      have here : filled.get idx = mid.get idx := outside idx (Or.inl (Nat.lt_succ_self idx))
      refine ⟨next :: left, filled, by rw [ran, ran_]; rfl, by rw [List.length_cons, size]; rfl,
        ?_, ?_, ?_⟩
      · rw [waitingFrom, waitingFrom, here, kept, keeps, after]
      · intro key apart
        rw [List.length_cons] at apart
        rw [outside key (by omega), others key (by omega)]
      · intro offset inside
        cases offset with
        | zero => rw [Nat.add_zero, here, front]; rfl
        | succ offset =>
            have later := fronts offset (Nat.lt_of_succ_lt_succ inside)
            rw [after] at later
            rw [waitingFrom, List.getD_cons_succ, ← later]
            congr 1
            omega

/-- Only children have actions pending. -/
def InRange (composite : Composite ScriptedPlan) : Prop :=
  ∀ key, composite.plans.length ≤ key → composite.pending.get key = none

theorem length_waitingFrom (idx : Nat) (plans : List ScriptedPlan)
    (pending : SortedMap Nat Planned) : (waitingFrom idx plans pending).length = plans.length := by
  induction plans generalizing idx with
  | nil => rfl
  | cons plan rest ih => rw [waitingFrom, List.length_cons, List.length_cons, ih]

/-- `next_action` of a composite of scripts. -/
abbrev composed : NextAction (Composite ScriptedPlan) := nextAction ScriptedPlan.nextAction

/-- One call gives the next action of the merge and leaves the rest of it. -/
theorem nextAction_scripted (view : WorldView) {composite : Composite ScriptedPlan}
    (inRange : composite.InRange) :
    ∃ after : Composite ScriptedPlan,
      composed composite view =
        .done ((merge plannedAt composite.waiting).head?.map Prod.snd, after) ∧
      merge plannedAt after.waiting = (merge plannedAt composite.waiting).tail ∧
      after.InRange := by
  obtain ⟨left, filled, ran, size, keeps, outside, fronts_⟩ :=
    refill_scripted view 0 composite.plans composite.pending
  have map : filled = frontMap composite.waiting := by
    apply SortedMap.get_ext
    intro key
    rw [get_frontMap]
    by_cases inside : key < composite.plans.length
    · have front := fronts_ key inside
      rwa [Nat.zero_add] at front
    · have none_ := inRange key (not_lt.mp inside)
      rw [outside key (Or.inr (by omega)), none_, List.getD_eq_getElem?_getD,
        List.getElem?_eq_none]
      · rfl
      · rw [waiting, length_waitingFrom]
        exact not_lt.mp inside
  have called : composed composite view =
      match select plannedAt composite.waiting with
      | none => .done (none, ⟨left, filled⟩)
      | some selected => .done (filled.get selected.1, ⟨left, filled.remove selected.1⟩) := by
    rw [composed, nextAction, ran, map]
    rfl
  have beyond (key : Nat) (past : left.length ≤ key) : filled.get key = none := by
    rw [size] at past
    rw [outside key (Or.inr (by omega)), inRange key past]
  rw [called]
  cases chosen : select plannedAt composite.waiting with
  | none =>
      rw [merge_none chosen]
      refine ⟨⟨left, filled⟩, rfl, ?_, beyond⟩
      rw [waiting, keeps]
      exact merge_none chosen
  | some entry =>
      obtain ⟨rest, found⟩ := select_some chosen
      have front : filled.get entry.1 = some entry.2 := by
        rw [map, get_frontMap, List.getD_eq_getElem?_getD, found]
        rfl
      rw [merge_some chosen]
      refine ⟨⟨left, filled.remove entry.1⟩, by simp only [front]; rfl, ?_, ?_⟩
      · have present : filled.get (0 + entry.1) = some entry.2 := by rw [Nat.zero_add, front]
        have removed := waitingFrom_remove present left
        rw [Nat.zero_add, keeps] at removed
        rw [waiting, removed]
        rfl
      · intro key past
        rw [SortedMap.get_remove]
        split_ifs
        · rfl
        · exact beyond key past

end Composite

section Calls

variable {State Value : Type}

/-- A schedule call pushes as many of the next actions as it may. -/
theorem scheduleNemesisPlan_scripted (maxActions : Nat) {composite : Composite ScriptedPlan}
    (inRange : composite.InRange) (g : Inner State Value) :
    ∃ after : Composite ScriptedPlan,
      Inner.scheduleNemesisPlan Composite.composed maxActions composite g =
        ((((merge plannedAt composite.waiting).take maxActions).length, after),
          ((merge plannedAt composite.waiting).take maxActions).foldl
            (fun g entry => g.pushEvent entry.2.1 (.nemesis entry.2.2)) g) ∧
      merge plannedAt after.waiting = (merge plannedAt composite.waiting).drop maxActions ∧
      after.InRange := by
  induction maxActions generalizing composite g with
  | zero => exact ⟨composite, rfl, rfl, inRange⟩
  | succ maxActions ih =>
      obtain ⟨mid, asked, rest, inside⟩ := Composite.nextAction_scripted g.worldView inRange
      cases output : merge plannedAt composite.waiting with
      | nil =>
          rw [output] at asked rest
          refine ⟨mid, ?_, rest, inside⟩
          rw [Inner.scheduleNemesisPlan, asked]
          rfl
      | cons entry others =>
          rw [output] at asked rest
          obtain ⟨after, scheduled, left, inside⟩ :=
            ih inside (g.pushEvent entry.2.1 (.nemesis entry.2.2))
          rw [rest] at scheduled left
          refine ⟨after, ?_, left, inside⟩
          rw [Inner.scheduleNemesisPlan, asked]
          simp only [Inner.runDraws, List.head?_cons, Option.map_some]
          rw [scheduled]
          rfl

/-- The composite of the scripts after calls that gave `count` actions together. -/
inductive Called (State Value : Type) (scripts : List (List Planned)) :
    Nat → Composite ScriptedPlan → Prop
  | new : Called State Value scripts 0 (.new (scripts.map .new))
  | nextAction {count : Nat} {composite after : Composite ScriptedPlan}
      {reply : Option Planned} (view : WorldView)
      (earlier : Called State Value scripts count composite)
      (asked : Composite.composed composite view = .done (reply, after)) :
      Called State Value scripts (count + reply.toList.length) after
  | schedule {count scheduled maxActions : Nat} {composite after : Composite ScriptedPlan}
      {g next : Inner State Value} (earlier : Called State Value scripts count composite)
      (asked : Inner.scheduleNemesisPlan Composite.composed maxActions composite g =
        ((scheduled, after), next)) :
      Called State Value scripts (count + scheduled) after

variable {scripts : List (List Planned)}

theorem waiting_new (scripts : List (List Planned)) :
    (Composite.new (scripts.map ScriptedPlan.new)).waiting = scripts := by
  have all (idx : Nat) : Composite.waitingFrom idx (scripts.map ScriptedPlan.new) .empty =
      scripts := by
    induction scripts generalizing idx with
    | nil => rfl
    | cons script rest ih =>
        rw [List.map_cons, Composite.waitingFrom, ih, SortedMap.get_empty]
        rfl
  exact all 0

/-- What is left to give is the merge of the scripts without what was given. -/
theorem called_waiting {count : Nat} {composite : Composite ScriptedPlan}
    (called : Called State Value scripts count composite) :
    merge plannedAt composite.waiting = (merge plannedAt scripts).drop count ∧
      composite.InRange := by
  induction called with
  | new => exact ⟨by rw [waiting_new, List.drop_zero], fun _ _ => rfl⟩
  | @nextAction count composite after reply view earlier asked ih =>
      obtain ⟨left, inRange⟩ := ih
      obtain ⟨next, replied, rest, inside⟩ := Composite.nextAction_scripted view inRange
      rw [asked] at replied
      cases replied
      refine ⟨?_, inside⟩
      rw [rest, ← List.drop_drop, ← left]
      cases merge plannedAt composite.waiting <;> rfl
  | @schedule count scheduled maxActions composite after g next earlier asked ih =>
      obtain ⟨left, inRange⟩ := ih
      obtain ⟨last, replied, rest, inside⟩ := scheduleNemesisPlan_scripted maxActions inRange g
      rw [asked] at replied
      cases replied
      refine ⟨?_, inside⟩
      rw [rest, ← List.drop_drop, ← left, List.length_take]
      rcases le_total maxActions (merge plannedAt composite.waiting).length with less | more
      · rw [min_eq_left less]
      · rw [min_eq_right more, List.drop_length, List.drop_eq_nil_of_le more]

/-- A composite of scripts gives one output, action by action, however the calls are
made: every action of every script once, each script in its own order. Of sorted
scripts it is the stable sort by time and script. -/
theorem composite_merges (State Value : Type) (scripts : List (List Planned)) :
    ∃ output : List (Nat × Planned),
      (∀ child, ofSource child output = scripts.getD child []) ∧
      ((∀ script ∈ scripts, script.Pairwise fun one two => one.1 ≤ two.1) →
        output = (label scripts).mergeSort (before plannedAt)) ∧
      ∀ (count : Nat) (composite : Composite ScriptedPlan),
        Called State Value scripts count composite →
        (∀ view, ∃ after,
          Composite.composed composite view = .done (output[count]?.map Prod.snd, after)) ∧
        ∀ (g : Inner State Value) (maxActions : Nat), ∃ after,
          Inner.scheduleNemesisPlan Composite.composed maxActions composite g =
            ((((output.drop count).take maxActions).length, after),
              ((output.drop count).take maxActions).foldl
                (fun g entry => g.pushEvent entry.2.1 (.nemesis entry.2.2)) g) := by
  refine ⟨merge plannedAt scripts, ofSource_merge plannedAt scripts, ?_, ?_⟩
  · intro sorted
    apply merge_eq_sort
    intro child
    rw [List.getD_eq_getElem?_getD]
    cases found : scripts[child]? with
    | none => exact List.Pairwise.nil
    | some script => exact sorted script (List.mem_of_getElem? found)
  · intro count composite called
    obtain ⟨left, inRange⟩ := called_waiting called
    constructor
    · intro view
      obtain ⟨after, asked, _⟩ := Composite.nextAction_scripted view inRange
      rw [left, List.head?_drop] at asked
      exact ⟨after, asked⟩
    · intro g maxActions
      obtain ⟨after, asked, _⟩ := scheduleNemesisPlan_scripted maxActions inRange g
      rw [left] at asked
      exact ⟨after, asked⟩

end Calls

theorem composite_merges_two_scripts :
    ∃ output : List (Nat × Planned),
      ofSource 1 output = [(10, .asymmetricPartition 0 1), (20, .crash 1)] ∧
      output = (label [[(20, .healAll)],
        [(10, .asymmetricPartition 0 1), (20, .crash 1)]]).mergeSort (before plannedAt) ∧
      ∃ after,
        Composite.composed
          (.new [.new [(20, .healAll)], .new [(10, .asymmetricPartition 0 1), (20, .crash 1)]])
          (.new 0 [0, 1] ∅ .new) = .done (output[0]?.map Prod.snd, after) := by
  obtain ⟨output, each, sorted, calls⟩ := composite_merges Unit Unit
    [[(20, .healAll)], [(10, .asymmetricPartition 0 1), (20, .crash 1)]]
  refine ⟨output, each 1, sorted (by decide), ?_⟩
  exact (calls 0 _ .new).1 (.new 0 [0, 1] ∅ .new)

end Detersim
