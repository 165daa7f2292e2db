import Detersim.Checker
import Detersim.RecordedHistory

/-!
Log operations written to history lines and parsed again. The lines bring back
exactly the operations whose strings have no separator in them.
-/

namespace Detersim

open MemoSearch OrderSearch

/-! The checker does not look at the process of an operation. -/
section Processes

variable {State Input Output : Type} [DecidableEq State] [DecidableEq Output]
  (model : Model State Input Output) (process : UInt32)

omit [DecidableEq State] [DecidableEq Output] in
theorem predecessors_atProcess (ops : History Input Output) :
    predecessors (ops.map (OpRecord.atProcess process)) = predecessors ops :=
  precedenceTable_map _ _ _ (fun _ _ => rfl) ops

theorem dfs_atProcess (ops : History Input Output) (predecessors : List (List Nat))
    (maxSteps fuel : Nat) :
    dfs model (ops.map (OpRecord.atProcess process)) predecessors maxSteps fuel =
      dfs model ops predecessors maxSteps fuel := by
  induction fuel with
  | zero =>
      funext used order state search
      simp only [dfs, List.length_map]
  | succ fuel ih =>
      funext used order state search
      simp only [dfs, List.length_map, List.zipIdx_map, tryEach_map, ih]
      rfl

theorem runSearch_atProcess (ops : History Input Output) (maxSteps : Nat) :
    runSearch model (ops.map (OpRecord.atProcess process)) maxSteps =
      runSearch model ops maxSteps := by
  simp only [runSearch, predecessors_atProcess, dfs_atProcess, List.length_map]

theorem minimizeLoop_atProcess (ops : History Input Output) (maxSteps : Nat) (keep : List Nat)
    (pos : Nat) :
    minimizeLoop model (ops.map (OpRecord.atProcess process)) maxSteps keep pos =
      minimizeLoop model ops maxSteps keep pos := by
  have chosen (indices : List Nat) :
      indices.filterMap (fun index => (ops.map (OpRecord.atProcess process))[index]?) =
        (indices.filterMap fun index => ops[index]?).map (OpRecord.atProcess process) := by
    simp only [List.getElem?_map, List.map_filterMap]
  fun_induction minimizeLoop model ops maxSteps keep pos with
  | case1 keep pos inside candidate empty ih =>
      rw [minimizeLoop, if_pos inside, if_pos empty, ih]
  | case2 keep pos inside candidate some_ search failing ih =>
      rw [minimizeLoop, if_pos inside, if_neg some_, chosen, runSearch_atProcess, if_pos failing, ih]
  | case3 keep pos inside candidate some_ search failing ih =>
      rw [minimizeLoop, if_pos inside, if_neg some_, chosen, runSearch_atProcess, if_neg failing, ih]
  | case4 keep pos outside => rw [minimizeLoop, if_neg outside]

theorem check_atProcess (history : History Input Output) (budget : CheckBudget) :
    checkLinearizableWithBudget model (history.map (OpRecord.atProcess process)) budget =
      checkLinearizableWithBudget model history budget := by
  have completed : completedOps (history.map (OpRecord.atProcess process)) =
      (completedOps history).map (OpRecord.atProcess process) := by
    rw [completedOps, List.filter_map]
    rfl
  have minimal (ops : History Input Output) :
      minimizeFailure model (ops.map (OpRecord.atProcess process)) budget.maxSteps =
        minimizeFailure model ops budget.maxSteps := by
    simp only [minimizeFailure, minimizeLoop_atProcess, List.length_map, List.getElem?_map,
      Option.map_map]
    rfl
  simp only [checkLinearizableWithBudget, completed, runSearch_atProcess, minimal]

end Processes

/-- A line with a wrong number of fields is dropped. -/
theorem parseLogLine_none {line : String} {keyword : String}
    (third : (splitChar ':' line)[2]? = some keyword)
    (append : keyword = "append" → (splitChar ':' line).length ≠ 8)
    (read : keyword = "read" → (splitChar ':' line).length ≠ 7) : parseLogLine line = none := by
  rw [parseLogLine]
  generalize splitChar ':' line = parts at third append read ⊢
  split
  · cases third
    exact absurd rfl (append rfl)
  · cases third
    exact absurd rfl (read rfl)
  · rfl

theorem parse_logAppend (id : UInt64) (process : UInt32) (value : String) (index : UInt64)
    (invoke complete : SimTime) :
    parseLogLine (RecordedOp.logAppend id process value index invoke complete).toHistoryLine =
      if ':' ∈ value.toList then none
      else some (.completedAt id 3 (.append value) (.index index) invoke complete) := by
  have keyword : splitChar ':' "log" = ["log"] := splitChar_of_notMem (by decide)
  have parts : splitChar ':'
      (RecordedOp.logAppend id process value index invoke complete).toHistoryLine =
        ["log", toString id, "append"] ++ splitChar ':' value ++
          ["index", toString index, toString invoke, toString complete] := by
    rw [splitChar_line]
    simp only [RecordedOp.fields, List.flatMap_cons, List.flatMap_nil, splitChar_number,
      keyword]
    rfl
  split_ifs with inside
  · -- One separator more, and the line has too many fields.
    have counted : 0 < value.toList.count ':' := List.count_pos_iff.mpr inside
    have third : (splitChar ':'
        (RecordedOp.logAppend id process value index invoke complete).toHistoryLine)[2]? =
          some "append" := by simp [parts]
    refine parseLogLine_none third ?_ fun same => absurd same (by decide)
    intro _
    rw [parts]
    simp only [List.length_append, length_splitChar, List.length_cons, List.length_nil]
    omega
  · rw [parseLogLine, parts, splitChar_of_notMem inside]
    simp [parseU64_toString]

theorem parse_logRead (id : UInt64) (process : UInt32) (entries : List String)
    (invoke complete : SimTime) :
    parseLogLine (RecordedOp.logRead id process entries invoke complete).toHistoryLine =
      if ∃ entry ∈ entries, ':' ∈ entry.toList then none
      else some (.completedAt id 3 .readAll
        (.entries (parseEntries (",".intercalate entries))) invoke complete) := by
  have keyword : splitChar ':' "log" = ["log"] := splitChar_of_notMem (by decide)
  have parts : splitChar ':' (RecordedOp.logRead id process entries invoke complete).toHistoryLine =
        ["log", toString id, "read"] ++ splitChar ':' (",".intercalate entries) ++
          ["entries", toString invoke, toString complete] := by
    rw [splitChar_line]
    simp only [RecordedOp.fields, List.flatMap_cons, List.flatMap_nil, splitChar_number, keyword]
    rfl
  have different : ':' ≠ ',' := by decide
  have joined : ':' ∈ (",".intercalate entries).toList ↔ ∃ entry ∈ entries, ':' ∈ entry.toList :=
    mem_intercalate_iff different entries
  split_ifs with inside
  · -- A colon in an entry splits its line further.
    have counted : 0 < (",".intercalate entries).toList.count ':' :=
      List.count_pos_iff.mpr (joined.mpr inside)
    have third : (splitChar ':'
        (RecordedOp.logRead id process entries invoke complete).toHistoryLine)[2]? =
          some "read" := by simp [parts]
    refine parseLogLine_none third (fun same => absurd same (by decide)) ?_
    intro _
    rw [parts]
    simp only [List.length_append, length_splitChar, List.length_cons, List.length_nil]
    omega
  · rw [parseLogLine, parts, splitChar_of_notMem fun member => inside (joined.mp member)]
    simp [parseU64_toString]

/-- One line brings its operation back, under the parser's process, exactly if
its strings can be told apart. -/
theorem parse_line_iff (op : RecordedOp) :
    parseLogLine op.toHistoryLine = op.logRecord.map (OpRecord.atProcess 3) ↔ op.LogSeparable := by
  cases op with
  | kvPut id process value invoke complete =>
      rw [parseLogLine_kv (.kvPut id process value invoke complete) _ rfl]
      simp [RecordedOp.logRecord, RecordedOp.LogSeparable]
  | kvGet id process value invoke complete =>
      rw [parseLogLine_kv (.kvGet id process value invoke complete) _ rfl]
      simp [RecordedOp.logRecord, RecordedOp.LogSeparable]
  | logAppend id process value index invoke complete =>
      rw [parse_logAppend, RecordedOp.LogSeparable]
      split_ifs with inside
      · simp [inside, RecordedOp.logRecord]
      · simp [inside, RecordedOp.logRecord, OpRecord.atProcess, OpRecord.completedAt]
  | logRead id process entries invoke complete =>
      rw [parse_logRead, RecordedOp.LogSeparable]
      split_ifs with inside
      · obtain ⟨entry, member, colon⟩ := inside
        simp only [RecordedOp.logRecord, Option.map_some, reduceCtorEq, false_iff, not_and]
        intro separable
        exact absurd colon (separable entry member).1
      · have plain : ∀ entry ∈ entries, ':' ∉ entry.toList := by
          intro entry member colon
          exact inside ⟨entry, member, colon⟩
        have same := parseEntries_join_iff entries
        simp only [RecordedOp.logRecord, Option.map_some, OpRecord.atProcess, OpRecord.completedAt,
          Option.some.injEq, OpRecord.mk.injEq, AppendLogOutput.entries.injEq, true_and, same]
        constructor
        · rintro ⟨commas, several⟩
          exact ⟨fun entry member => ⟨plain entry member, commas entry member⟩, several⟩
        · rintro ⟨separable, several⟩
          exact ⟨fun entry member => (separable entry member).2, several⟩

theorem parse_line_drops (op : RecordedOp) (record : OpRecord (AppendLogInput String)
    (AppendLogOutput String)) (parsed : parseLogLine op.toHistoryLine = some record) :
    (op.logRecord.map (OpRecord.atProcess 3)).isSome = true := by
  cases op with
  | kvPut id process value invoke complete =>
      rw [parseLogLine_kv (.kvPut id process value invoke complete) _ rfl] at parsed
      cases parsed
  | kvGet id process value invoke complete =>
      rw [parseLogLine_kv (.kvGet id process value invoke complete) _ rfl] at parsed
      cases parsed
  | logAppend | logRead => rfl

/-- Two partial maps with one image of a list, of which one is defined wherever
the other is, agree on the list. -/
theorem filterMap_eq_iff {Source Target : Type} {left right : Source → Option Target}
    (wider : ∀ source target, left source = some target → (right source).isSome = true)
    (sources : List Source) :
    sources.filterMap left = sources.filterMap right ↔
      ∀ source ∈ sources, left source = right source := by
  -- Once the left map drops a source, its image is too short to be equal.
  have fewer (sources : List Source) :
      (sources.filterMap left).length ≤ (sources.filterMap right).length := by
    induction sources with
    | nil => exact le_rfl
    | cons source rest ih =>
        cases first : left source with
        | none =>
            rw [List.filterMap_cons_none first]
            cases second : right source with
            | none => rwa [List.filterMap_cons_none second]
            | some target =>
                rw [List.filterMap_cons_some second, List.length_cons]
                exact Nat.le_succ_of_le ih
        | some target =>
            obtain ⟨other, second⟩ := Option.isSome_iff_exists.mp (wider source target first)
            rw [List.filterMap_cons_some first, List.filterMap_cons_some second]
            exact Nat.succ_le_succ ih
  constructor
  · intro same
    induction sources with
    | nil => simp
    | cons source rest ih =>
        cases first : left source with
        | none =>
            cases second : right source with
            | none =>
                rw [List.filterMap_cons_none first, List.filterMap_cons_none second] at same
                exact List.forall_mem_cons.mpr ⟨first.trans second.symm, ih same⟩
            | some target =>
                rw [List.filterMap_cons_none first, List.filterMap_cons_some second] at same
                have more := fewer rest
                rw [same, List.length_cons] at more
                exact absurd more (Nat.not_succ_le_self _)
        | some target =>
            obtain ⟨other, second⟩ := Option.isSome_iff_exists.mp (wider source target first)
            rw [List.filterMap_cons_some first, List.filterMap_cons_some second] at same
            obtain ⟨rfl, rest_⟩ := List.cons.inj same
            exact List.forall_mem_cons.mpr ⟨first.trans second.symm, ih rest_⟩
  · exact List.filterMap_congr

/-- The log operations of the list, as they were recorded. -/
def logRecords (ops : List RecordedOp) :
    History (AppendLogInput String) (AppendLogOutput String) :=
  ops.filterMap RecordedOp.logRecord

/-- The parsed history is the recorded one, which it cannot tell the process of. -/
def LogRoundTrips (ops : List RecordedOp) : Prop :=
  appendLogHistory (ops.map RecordedOp.toHistoryLine) =
    (logRecords ops).map (OpRecord.atProcess 3)

theorem append_log_round_trip_iff (ops : List RecordedOp) :
    (LogRoundTrips ops ↔ ∀ op ∈ ops, op.LogSeparable) ∧
      (LogRoundTrips ops → ∀ (initial : List String) (budget : CheckBudget),
        checkLinearizableWithBudget (appendOnlyLog initial)
            (appendLogHistory (ops.map RecordedOp.toHistoryLine)) budget =
          checkLinearizableWithBudget (appendOnlyLog initial) (logRecords ops) budget) := by
  constructor
  · rw [LogRoundTrips, appendLogHistory, logRecords, List.filterMap_map, List.map_filterMap]
    refine (filterMap_eq_iff parse_line_drops ops).trans ?_
    exact forall₂_congr fun op _ => parse_line_iff op
  · intro same initial budget
    rw [same, check_atProcess]

/-- A value with a colon in it, and the read that saw it. -/
theorem colon_value_dropped :
    appendLogHistory ([RecordedOp.logAppend 1 0 "a:b" 0 0 1, .logRead 2 0 ["a:b", "c,d"] 2 3,
      .logRead 3 0 ["c,d"] 4 5, .logRead 4 0 [""] 6 7].map RecordedOp.toHistoryLine) =
        [.completedAt 3 3 .readAll (.entries ["c", "d"]) 4 5,
          .completedAt 4 3 .readAll (.entries []) 6 7] ∧
      ¬LogRoundTrips [.logAppend 1 0 "a:b" 0 0 1] := by
  constructor
  · decide
  · rw [LogRoundTrips]
    decide

example : LogRoundTrips [.logAppend 1 0 "x" 0 0 1, .kvGet 2 0 none 1 2,
    .logRead 3 1 ["x", ""] 2 3] := by
  rw [LogRoundTrips]
  decide

end Detersim
