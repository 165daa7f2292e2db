import Detersim.KvRoundTrip

/-!
What the history parsers accept, against what is written. They look at the first
field, the third, the number of fields and the numbers; the tag after the value
they do not look at, and a value of a get that is no number they take for a
missing one.
-/

namespace Detersim

/-- A field of a line: fixed text, or a number, which has more than one spelling. -/
inductive LineField where
  | literal (text : String)
  | unsigned (number : UInt64)
  | signed (value : Int32)

def LineField.WrittenAs : LineField → String → Prop
  | .literal text, part => part = text
  | .unsigned number, part => Numerals.Unsigned number.toNat part
  | .signed value, part => Numerals.Signed value.toInt part

/-- The field for the value a get observed. -/
def LineField.observed : Option Int32 → LineField
  | some value => .signed value
  | none => .literal "none"

def RecordedOp.lineFields : RecordedOp → List LineField
  | .kvPut id _ value invoke complete =>
      [.literal "kv", .unsigned id, .literal "put", .signed value, .literal "ok",
        .unsigned invoke, .unsigned complete]
  | .kvGet id _ value invoke complete =>
      [.literal "kv", .unsigned id, .literal "get", .observed value, .literal "value",
        .unsigned invoke, .unsigned complete]
  | .logAppend id _ value index invoke complete =>
      [.literal "log", .unsigned id, .literal "append", .literal value, .literal "index",
        .unsigned index, .unsigned invoke, .unsigned complete]
  | .logRead id _ entries invoke complete =>
      [.literal "log", .unsigned id, .literal "read", .literal (",".intercalate entries),
        .literal "entries", .unsigned invoke, .unsigned complete]

/-- The line of the operation, up to the spelling of its numerals. -/
def RecordedOp.LineOf (op : RecordedOp) (line : String) : Prop :=
  ∃ parts, List.Forall₂ LineField.WrittenAs op.lineFields parts ∧ line = ":".intercalate parts

theorem written_notMem {fields : List LineField} {parts : List String}
    (written : List.Forall₂ LineField.WrittenAs fields parts)
    (plain : ∀ text, LineField.literal text ∈ fields → ':' ∉ text.toList) :
    ∀ part ∈ parts, ':' ∉ part.toList := by
  induction written with
  | nil => simp
  | @cons field part fields parts first _ ih =>
      refine List.forall_mem_cons.mpr ⟨?_, ih fun text later =>
        plain text (List.mem_cons_of_mem field later)⟩
      cases field with
      | literal text =>
          cases first
          exact plain part List.mem_cons_self
      | unsigned number =>
          exact (Numerals.Unsigned.signed first).notMem (by decide) (by decide) (by decide)
      | signed value => exact Numerals.Signed.notMem first (by decide) (by decide) (by decide)

/-- Splitting the line gives its fields back. -/
theorem lineOf_iff {op : RecordedOp} (line : String)
    (plain : ∀ text, LineField.literal text ∈ op.lineFields → ':' ∉ text.toList) :
    op.LineOf line ↔ List.Forall₂ LineField.WrittenAs op.lineFields (splitChar ':' line) := by
  constructor
  · rintro ⟨parts, written, rfl⟩
    have separate := (flatMap_splitChar_iff ':' parts).mpr (written_notMem written plain)
    cases parts with
    | nil => cases op <;> cases written
    | cons first rest =>
        have split := splitChar_intercalate ':' first rest
        rw [separate] at split
        exact split.symm ▸ written
  · exact fun written => ⟨_, written, (intercalate_splitChar ':' line).symm⟩

/-- Every operation read from the line is one whose line it is. -/
structure ReadStrictly (line : String) : Prop where
  kv : ∀ record ∈ singleKeyKvHistory [line],
    ∃ op : RecordedOp, op.singleKeyOp = some record ∧ op.LineOf line
  log : ∀ record ∈ appendLogHistory [line],
    ∃ op : RecordedOp, op.logRecord.map (OpRecord.atProcess 3) = some record ∧ op.LineOf line

def AreNumbers (texts : List String) : Prop := ∀ text ∈ texts, (parseU64 text).isSome = true

/-- Where the parsers look at everything else, the tag after the value is the
one of the line's shape, and a get has the marker of a missing value or a number. -/
def TagsMatch (line : String) : Prop :=
  match splitChar ':' line with
  | ["kv", id, "put", value, tag, invoke, complete] =>
      AreNumbers [id, invoke, complete] → (parseI32 value).isSome = true → tag = "ok"
  | ["kv", id, "get", value, tag, invoke, complete] =>
      AreNumbers [id, invoke, complete] →
        tag = "value" ∧ (value = "none" ∨ (parseI32 value).isSome = true)
  | ["log", id, "append", _, tag, index, invoke, complete] =>
      AreNumbers [id, index, invoke, complete] → tag = "index"
  | ["log", id, "read", _, tag, invoke, complete] =>
      AreNumbers [id, invoke, complete] → tag = "entries"
  | _ => True

theorem observed_written_iff (value : String) :
    (LineField.observed (parseOptionalI32 value)).WrittenAs value ↔
      value = "none" ∨ (parseI32 value).isSome = true := by
  rw [parseOptionalI32]
  by_cases missing : value = "none"
  · simp [missing, LineField.observed, LineField.WrittenAs]
  · rw [if_pos missing]
    cases parsed : parseI32 value with
    | none => simp [missing, LineField.observed, LineField.WrittenAs]
    | some number =>
        simpa [missing, LineField.observed, LineField.WrittenAs] using
          (parseI32_iff value number).mp parsed

/-- The operations a parsed record stands for differ in the process alone, which
is not on the line. -/
theorem exists_lineOf_iff {Record : Type} {read : RecordedOp → Option Record} {record : Record}
    {line : String} {condition : Prop} (make : UInt32 → RecordedOp)
    (reads : ∀ op, read op = some record ↔ ∃ process, op = make process)
    (lineOf : ∀ process, (make process).LineOf line ↔ condition) :
    (∃ op, read op = some record ∧ op.LineOf line) ↔ condition := by
  constructor
  · rintro ⟨op, same, written⟩
    obtain ⟨process, rfl⟩ := (reads op).mp same
    exact (lineOf process).mp written
  · intro holds
    exact ⟨make 3, (reads _).mpr ⟨3, rfl⟩, (lineOf 3).mpr holds⟩

section Shapes

variable {line id invoke complete : String} {number : UInt64} {start stop : SimTime}
variable (first : parseU64 id = some number) (second : parseU64 invoke = some start)
variable (third : parseU64 complete = some stop)

include first second third

theorem put_lineOf_iff {value tag : String} {written : Int32}
    (shape : splitChar ':' line = ["kv", id, "put", value, tag, invoke, complete])
    (parsed : parseI32 value = some written) :
    (∃ op : RecordedOp, op.singleKeyOp =
        some (.completedAt number 3 (.put written) .ok start stop) ∧ op.LineOf line) ↔
      tag = "ok" := by
  refine exists_lineOf_iff (fun process => .kvPut number process written start stop) ?_ ?_
  · intro op
    constructor
    · intro same
      cases op <;> cases same
      exact ⟨_, rfl⟩
    · rintro ⟨process, rfl⟩
      rfl
  · intro process
    rw [lineOf_iff line (by simp [RecordedOp.lineFields]), shape]
    simp [RecordedOp.lineFields, LineField.WrittenAs, (parseU64_iff _ _).mp first,
      (parseU64_iff _ _).mp second, (parseU64_iff _ _).mp third, (parseI32_iff _ _).mp parsed]

theorem get_lineOf_iff {value tag : String}
    (shape : splitChar ':' line = ["kv", id, "get", value, tag, invoke, complete]) :
    (∃ op : RecordedOp, op.singleKeyOp =
        some (.completedAt number 3 .get (.value (parseOptionalI32 value)) start stop) ∧
          op.LineOf line) ↔
      tag = "value" ∧ (value = "none" ∨ (parseI32 value).isSome = true) := by
  refine exists_lineOf_iff
    (fun process => .kvGet number process (parseOptionalI32 value) start stop) ?_ ?_
  · intro op
    constructor
    · intro same
      cases op <;> cases same
      exact ⟨_, rfl⟩
    · rintro ⟨process, rfl⟩
      rfl
  · intro process
    rw [lineOf_iff line ?_, shape, ← observed_written_iff]
    · simp [RecordedOp.lineFields, LineField.WrittenAs, (parseU64_iff _ _).mp first,
        (parseU64_iff _ _).mp second, (parseU64_iff _ _).mp third, and_comm]
    · cases parseOptionalI32 value <;> simp [RecordedOp.lineFields, LineField.observed]

theorem append_lineOf_iff {value tag index : String} {position : UInt64}
    (shape : splitChar ':' line = ["log", id, "append", value, tag, index, invoke, complete])
    (fourth : parseU64 index = some position) :
    (∃ op : RecordedOp, op.logRecord.map (OpRecord.atProcess 3) =
        some (.completedAt number 3 (.append value) (.index position) start stop) ∧
          op.LineOf line) ↔
      tag = "index" := by
  have member : value ∈ splitChar ':' line := by simp [shape]
  have plain := notMem_of_mem_splitChar member
  refine exists_lineOf_iff
    (fun process => .logAppend number process value position start stop) ?_ ?_
  · intro op
    constructor
    · intro same
      cases op <;> cases same
      exact ⟨_, rfl⟩
    · rintro ⟨process, rfl⟩
      rfl
  · intro process
    rw [lineOf_iff line (by simp [RecordedOp.lineFields, plain]), shape]
    simp [RecordedOp.lineFields, LineField.WrittenAs, (parseU64_iff _ _).mp first,
      (parseU64_iff _ _).mp second, (parseU64_iff _ _).mp third, (parseU64_iff _ _).mp fourth]

theorem read_lineOf_iff {entries tag : String}
    (shape : splitChar ':' line = ["log", id, "read", entries, tag, invoke, complete]) :
    (∃ op : RecordedOp, op.logRecord.map (OpRecord.atProcess 3) =
        some (.completedAt number 3 .readAll (.entries (parseEntries entries)) start stop) ∧
          op.LineOf line) ↔
      tag = "entries" := by
  have member : entries ∈ splitChar ':' line := by simp [shape]
  have plain := notMem_of_mem_splitChar member
  refine exists_lineOf_iff
    (fun process => .logRead number process (parseEntries entries) start stop) ?_ ?_
  · intro op
    constructor
    · intro same
      cases op <;> cases same
      exact ⟨_, rfl⟩
    · rintro ⟨process, rfl⟩
      rfl
  · intro process
    rw [lineOf_iff line (by simp [RecordedOp.lineFields, intercalate_parseEntries, plain]), shape]
    simp [RecordedOp.lineFields, LineField.WrittenAs, intercalate_parseEntries,
      (parseU64_iff _ _).mp first, (parseU64_iff _ _).mp second, (parseU64_iff _ _).mp third]

end Shapes

theorem parseKvLine_some {line : String}
    {record : OpRecord (SingleKeyInput Int32) (SingleKeyOutput Int32)}
    (parsed : parseKvLine line = some record) :
    ∃ id value tag invoke complete number start stop,
      parseU64 id = some number ∧ parseU64 invoke = some start ∧ parseU64 complete = some stop ∧
        ((∃ written, splitChar ':' line = ["kv", id, "put", value, tag, invoke, complete] ∧
            parseI32 value = some written ∧
            record = .completedAt number 3 (.put written) .ok start stop) ∨
          splitChar ':' line = ["kv", id, "get", value, tag, invoke, complete] ∧
            record = .completedAt number 3 .get (.value (parseOptionalI32 value)) start stop) := by
  rw [parseKvLine] at parsed
  split at parsed
  next id kind value tag invoke complete shape =>
    simp only [Option.bind_eq_bind, Option.bind_eq_some_iff] at parsed
    obtain ⟨number, first, start, second, stop, third, parsed⟩ := parsed
    refine ⟨id, value, tag, invoke, complete, number, start, stop, first, second, third, ?_⟩
    split at parsed
    · obtain ⟨written, number, same⟩ := Option.bind_eq_some_iff.mp parsed
      exact Or.inl ⟨written, shape, number, (Option.some.inj same).symm⟩
    · exact Or.inr ⟨shape, (Option.some.inj parsed).symm⟩
    · cases parsed
  next => cases parsed

theorem parseLogLine_some {line : String}
    {record : OpRecord (AppendLogInput String) (AppendLogOutput String)}
    (parsed : parseLogLine line = some record) :
    ∃ id value tag invoke complete number start stop,
      parseU64 id = some number ∧ parseU64 invoke = some start ∧ parseU64 complete = some stop ∧
        ((∃ index position,
            splitChar ':' line = ["log", id, "append", value, tag, index, invoke, complete] ∧
            parseU64 index = some position ∧
            record = .completedAt number 3 (.append value) (.index position) start stop) ∨
          splitChar ':' line = ["log", id, "read", value, tag, invoke, complete] ∧
            record = .completedAt number 3 .readAll (.entries (parseEntries value)) start stop) := by
  rw [parseLogLine] at parsed
  split at parsed
  next id value tag index invoke complete shape =>
    simp only [Option.bind_eq_bind, Option.bind_eq_some_iff] at parsed
    obtain ⟨number, first, start, second, stop, third, position, fourth, same⟩ := parsed
    exact ⟨id, value, tag, invoke, complete, number, start, stop, first, second, third,
      Or.inl ⟨index, position, shape, fourth, (Option.some.inj same).symm⟩⟩
  next id entries tag invoke complete shape =>
    simp only [Option.bind_eq_bind, Option.bind_eq_some_iff] at parsed
    obtain ⟨number, first, start, second, stop, third, same⟩ := parsed
    exact ⟨id, entries, tag, invoke, complete, number, start, stop, first, second, third,
      Or.inr ⟨shape, (Option.some.inj same).symm⟩⟩
  next => cases parsed

theorem areNumbers_cons {text : String} {rest : List String} :
    AreNumbers (text :: rest) ↔ (∃ number, parseU64 text = some number) ∧ AreNumbers rest := by
  rw [AreNumbers, List.forall_mem_cons, Option.isSome_iff_exists]
  rfl

theorem areNumbers_nil : AreNumbers [] := by
  simp [AreNumbers]

/-- One line, of any form: what is read from it is what it says, up to the
spelling of numbers, exactly if the two unchecked fields are right. -/
theorem read_strictly_iff (line : String) : ReadStrictly line ↔ TagsMatch line := by
  constructor
  · intro strict
    unfold TagsMatch
    split
    next id value tag invoke complete shape =>
      intro numbers valued
      simp only [areNumbers_cons, areNumbers_nil, and_true] at numbers
      obtain ⟨⟨number, first⟩, ⟨start, second⟩, stop, third⟩ := numbers
      obtain ⟨written, parsed⟩ := Option.isSome_iff_exists.mp valued
      refine (put_lineOf_iff first second third shape parsed).mp (strict.kv _ ?_)
      simp [singleKeyKvHistory, parseKvLine, shape, first, second, third, parsed]
    next id value tag invoke complete shape =>
      intro numbers
      simp only [areNumbers_cons, areNumbers_nil, and_true] at numbers
      obtain ⟨⟨number, first⟩, ⟨start, second⟩, stop, third⟩ := numbers
      refine (get_lineOf_iff first second third shape).mp (strict.kv _ ?_)
      simp [singleKeyKvHistory, parseKvLine, shape, first, second, third]
    next id value tag index invoke complete shape =>
      intro numbers
      simp only [areNumbers_cons, areNumbers_nil, and_true] at numbers
      obtain ⟨⟨number, first⟩, ⟨position, fourth⟩, ⟨start, second⟩, stop, third⟩ := numbers
      refine (append_lineOf_iff first second third shape fourth).mp (strict.log _ ?_)
      simp [appendLogHistory, parseLogLine, shape, first, second, third, fourth]
    next id entries tag invoke complete shape =>
      intro numbers
      simp only [areNumbers_cons, areNumbers_nil, and_true] at numbers
      obtain ⟨⟨number, first⟩, ⟨start, second⟩, stop, third⟩ := numbers
      refine (read_lineOf_iff first second third shape).mp (strict.log _ ?_)
      simp [appendLogHistory, parseLogLine, shape, first, second, third]
    next => trivial
  · intro tagged
    constructor
    · intro record member
      have accepted : parseKvLine line = some record := by
        simpa [singleKeyKvHistory] using member
      obtain ⟨id, value, tag, invoke, complete, number, start, stop, first, second, third,
        ⟨written, shape, parsed, rfl⟩ | ⟨shape, rfl⟩⟩ := parseKvLine_some accepted
      · refine (put_lineOf_iff first second third shape parsed).mpr ?_
        simpa [TagsMatch, shape, areNumbers_cons, areNumbers_nil, first, second, third, parsed]
          using tagged
      · refine (get_lineOf_iff first second third shape).mpr ?_
        simpa [TagsMatch, shape, areNumbers_cons, areNumbers_nil, first, second, third]
          using tagged
    · intro record member
      have accepted : parseLogLine line = some record := by
        simpa [appendLogHistory] using member
      obtain ⟨id, value, tag, invoke, complete, number, start, stop, first, second, third,
        ⟨index, position, shape, fourth, rfl⟩ | ⟨shape, rfl⟩⟩ := parseLogLine_some accepted
      · refine (append_lineOf_iff first second third shape fourth).mpr ?_
        simpa [TagsMatch, shape, areNumbers_cons, areNumbers_nil, first, second, third, fourth]
          using tagged
      · refine (read_lineOf_iff first second third shape).mpr ?_
        simpa [TagsMatch, shape, areNumbers_cons, areNumbers_nil, first, second, third]
          using tagged

/-- A value that is no number becomes an observed missing value, where a put is
dropped, and the tags are not looked at in any of the four shapes. -/
theorem malformed_lines_accepted :
    singleKeyKvHistory ["kv:1:get:seven:value:2:3", "kv:1:put:seven:ok:2:3"] =
        [.completedAt 1 3 .get (.value none) 2 3] ∧
      singleKeyKvHistory ["kv:1:put:7:failed:2:3", "kv:1:get:7:ok:2:3"] =
        [.completedAt 1 3 (.put 7) .ok 2 3, .completedAt 1 3 .get (.value (some 7)) 2 3] ∧
      appendLogHistory ["log:1:append:x:failed:0:2:3", "log:1:read:x:failed:2:3"] =
        [.completedAt 1 3 (.append "x") (.index 0) 2 3,
          .completedAt 1 3 .readAll (.entries ["x"]) 2 3] ∧
      ¬ReadStrictly "kv:1:get:seven:value:2:3" := by
  have shape : splitChar ':' "kv:1:get:seven:value:2:3" =
      ["kv", "1", "get", "seven", "value", "2", "3"] := by decide
  have read : singleKeyKvHistory ["kv:1:get:seven:value:2:3"] =
      [.completedAt 1 3 .get (.value (parseOptionalI32 "seven")) 2 3] := by decide
  have first : parseU64 "1" = some 1 := by decide
  have second : parseU64 "2" = some 2 := by decide
  have third : parseU64 "3" = some 3 := by decide
  refine ⟨by decide, by decide, by decide, fun strict => ?_⟩
  have line := strict.kv _ (read ▸ List.mem_singleton_self _)
  have fields := (get_lineOf_iff first second third shape).mp line
  exact absurd fields (by decide)

example : singleKeyKvHistory ["kv:+01:get:-007:value:2:3", "kv:1:get:2147483648:value:2:3",
    "kv:-1:get:none:value:2:3"] =
      [.completedAt 1 3 .get (.value (some (-7))) 2 3, .completedAt 1 3 .get (.value none) 2 3] := by
  decide

end Detersim
