import Detersim.RecordedHistory

/-!
Key/value operations written to history lines and parsed again. Numbers and the
marker of a missing value have no separator in them, and the first field keeps
the lines of a log apart whatever its strings hold.
-/

namespace Detersim

theorem splitChar_value (value : Int32) : splitChar ':' (toString value) = [toString value] :=
  splitChar_of_notMem ((Numerals.signed_repr value.toInt).notMem (by decide) (by decide) (by decide))

theorem splitChar_kvValueMsg (value : Option Int32) :
    splitChar ':' (kvValueMsg value) = [kvValueMsg value] := by
  cases value with
  | none => exact splitChar_of_notMem (by decide)
  | some value => exact splitChar_value value

theorem splitChar_kvPut (id : UInt64) (process : UInt32) (value : Int32)
    (invoke complete : SimTime) :
    splitChar ':' (RecordedOp.kvPut id process value invoke complete).toHistoryLine =
      ["kv", toString id, "put", toString value, "ok", toString invoke, toString complete] := by
  have keyword (text : String) (plain : ':' ∉ text.toList) : splitChar ':' text = [text] :=
    splitChar_of_notMem plain
  rw [splitChar_line]
  simp only [RecordedOp.fields, List.flatMap_cons, List.flatMap_nil, splitChar_number,
    splitChar_value, keyword "kv" (by decide), keyword "put" (by decide),
    keyword "ok" (by decide)]
  rfl

theorem splitChar_kvGet (id : UInt64) (process : UInt32) (value : Option Int32)
    (invoke complete : SimTime) :
    splitChar ':' (RecordedOp.kvGet id process value invoke complete).toHistoryLine =
      ["kv", toString id, "get", kvValueMsg value, "value", toString invoke,
        toString complete] := by
  have keyword (text : String) (plain : ':' ∉ text.toList) : splitChar ':' text = [text] :=
    splitChar_of_notMem plain
  rw [splitChar_line]
  simp only [RecordedOp.fields, List.flatMap_cons, List.flatMap_nil, splitChar_number,
    splitChar_kvValueMsg, keyword "kv" (by decide), keyword "get" (by decide),
    keyword "value" (by decide)]
  rfl

/-- The first field decides, before any other is looked at. -/
theorem parseKvLine_log (op : RecordedOp) (rest : List String)
    (shape : op.fields = "log" :: rest) : parseKvLine op.toHistoryLine = none := by
  have parts : splitChar ':' op.toHistoryLine = "log" :: rest.flatMap (splitChar ':') := by
    have head : splitChar ':' "log" = ["log"] := splitChar_of_notMem (by decide)
    rw [splitChar_line, shape, List.flatMap_cons, head]
    rfl
  rw [parseKvLine, parts]
  split
  next same => exact absurd (List.cons.inj same).1 (by decide)
  next => rfl

/-- One line brings back its operation, or nothing for an operation on a log. -/
theorem parse_kv_line (op : RecordedOp) : parseKvLine op.toHistoryLine = op.singleKeyOp := by
  cases op with
  | kvPut id process value invoke complete =>
      rw [parseKvLine, splitChar_kvPut]
      simp [parseU64_toString, parseI32_toString, RecordedOp.singleKeyOp]
  | kvGet id process value invoke complete =>
      rw [parseKvLine, splitChar_kvGet]
      simp [parseU64_toString, parseOptionalI32_kvValueMsg, RecordedOp.singleKeyOp]
  | logAppend id process value index invoke complete =>
      exact parseKvLine_log (.logAppend id process value index invoke complete) _ rfl
  | logRead id process entries invoke complete =>
      exact parseKvLine_log (.logRead id process entries invoke complete) _ rfl

/-- The key/value operations come back in order, under the parser's process, and
no line of a log operation is taken for one. -/
theorem single_key_kv_round_trip (ops : List RecordedOp) :
    singleKeyKvHistory (ops.map RecordedOp.toHistoryLine) = recordedHistory ops ∧
      ∀ op : RecordedOp, op.logRecord.isSome = true → parseKvLine op.toHistoryLine = none := by
  constructor
  · rw [singleKeyKvHistory, recordedHistory, List.filterMap_map]
    exact List.filterMap_congr fun op _ => parse_kv_line op
  · intro op onLog
    rw [parse_kv_line]
    cases op with
    | kvPut | kvGet => cases onLog
    | logAppend | logRead => rfl

example : singleKeyKvHistory ["kv:1:put:-2147483648:ok:0:1", "log:2:append:kv:1:get:none:3:4:5",
    "kv:3:get:none:value:4:18446744073709551615"] =
      [.completedAt 1 3 (.put (-2147483648)) .ok 0 1,
        .completedAt 3 3 .get (.value none) 4 18446744073709551615] := by
  decide

end Detersim
