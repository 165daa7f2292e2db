import Detersim.Models
import Detersim.Numerals

/-!
The history lines protocol experiments write and parse. Fields are joined by
`:` and the entries of a log by `,`; nothing is escaped.
-/

namespace Detersim

inductive RecordedOp where
  | kvPut (id : UInt64) (process : UInt32) (value : Int32) (invoke complete : SimTime)
  | kvGet (id : UInt64) (process : UInt32) (value : Option Int32) (invoke complete : SimTime)
  | logAppend (id : UInt64) (process : UInt32) (value : String) (index : UInt64)
      (invoke complete : SimTime)
  | logRead (id : UInt64) (process : UInt32) (entries : List String) (invoke complete : SimTime)
  deriving DecidableEq

def kvValueMsg : Option Int32 → String
  | some value => toString value
  | none => "none"

namespace RecordedOp

/-- What the line says, field by field. -/
def fields : RecordedOp → List String
  | .kvPut id _ value invoke complete =>
      ["kv", toString id, "put", toString value, "ok", toString invoke, toString complete]
  | .kvGet id _ value invoke complete =>
      ["kv", toString id, "get", kvValueMsg value, "value", toString invoke, toString complete]
  | .logAppend id _ value index invoke complete =>
      ["log", toString id, "append", value, "index", toString index, toString invoke,
        toString complete]
  | .logRead id _ entries invoke complete =>
      ["log", toString id, "read", ",".intercalate entries, "entries", toString invoke,
        toString complete]

def toHistoryLine (op : RecordedOp) : String := ":".intercalate op.fields

end RecordedOp

/-- The operation a key/value line stands for; the process is not on the line. -/
def RecordedOp.singleKeyOp :
    RecordedOp → Option (OpRecord (SingleKeyInput Int32) (SingleKeyOutput Int32))
  | .kvPut id _ value invoke complete => some (.completedAt id 3 (.put value) .ok invoke complete)
  | .kvGet id _ value invoke complete =>
      some (.completedAt id 3 .get (.value value) invoke complete)
  | .logAppend .. | .logRead .. => none

/-- The operations of a client of a key/value store, as a history. -/
def recordedHistory (ops : List RecordedOp) :
    History (SingleKeyInput Int32) (SingleKeyOutput Int32) :=
  ops.filterMap RecordedOp.singleKeyOp

/-! Parsing. -/

/-- `str::split` at one character. -/
def splitChar (separator : Char) (text : String) : List String :=
  (text.toList.splitOn separator).map String.ofList

/-- Decimal digits, at least one, of a number that is not too large. -/
def parseDigits (limit : Nat) (digits : List Char) : Option Nat :=
  if digits = [] ∨ digits.all Char.isDigit = false then none
  else
    let value := Nat.ofDigitChars 10 digits 0
    if value < limit then some value else none

/-- `str::parse::<u64>`, which takes one leading plus sign. -/
def parseU64 (text : String) : Option UInt64 :=
  let digits := match text.toList with
    | '+' :: rest => rest
    | all => all
  (parseDigits (2 ^ 64) digits).map UInt64.ofNat

/-- `str::parse::<i32>`, which takes one leading sign. -/
def parseI32 (text : String) : Option Int32 :=
  match text.toList with
  | '-' :: digits => (parseDigits (2 ^ 31 + 1) digits).map fun value => -Int32.ofNat value
  | '+' :: digits => (parseDigits (2 ^ 31) digits).map Int32.ofNat
  | digits => (parseDigits (2 ^ 31) digits).map Int32.ofNat

def parseOptionalI32 (text : String) : Option Int32 :=
  if text ≠ "none" then parseI32 text else none

def parseEntries (text : String) : List String :=
  if text = "" then [] else splitChar ',' text

def parseKvLine (entry : String) :
    Option (OpRecord (SingleKeyInput Int32) (SingleKeyOutput Int32)) :=
  match splitChar ':' entry with
  | ["kv", id, kind, value, _, invoke, complete] => do
      let id ← parseU64 id
      let invoke ← parseU64 invoke
      let complete ← parseU64 complete
      match kind with
      | "put" => do
          let value ← parseI32 value
          some (.completedAt id 3 (.put value) .ok invoke complete)
      | "get" =>
          some (.completedAt id 3 .get (.value (parseOptionalI32 value)) invoke complete)
      | _ => none
  | _ => none

def singleKeyKvHistory (entries : List String) :
    History (SingleKeyInput Int32) (SingleKeyOutput Int32) :=
  entries.filterMap parseKvLine

def parseLogLine (entry : String) :
    Option (OpRecord (AppendLogInput String) (AppendLogOutput String)) :=
  match splitChar ':' entry with
  | ["log", id, "append", value, _, index, invoke, complete] => do
      let id ← parseU64 id
      let invoke ← parseU64 invoke
      let complete ← parseU64 complete
      let index ← parseU64 index
      some (.completedAt id 3 (.append value) (.index index) invoke complete)
  | ["log", id, "read", entries, _, invoke, complete] => do
      let id ← parseU64 id
      let invoke ← parseU64 invoke
      let complete ← parseU64 complete
      some (.completedAt id 3 .readAll (.entries (parseEntries entries)) invoke complete)
  | _ => none

def appendLogHistory (entries : List String) :
    History (AppendLogInput String) (AppendLogOutput String) :=
  entries.filterMap parseLogLine

/-! Fields survive joining and splitting when they have no separator in them. -/

theorem splitChar_intercalate (separator : Char) (first : String) (rest : List String) :
    splitChar separator ((String.singleton separator).intercalate (first :: rest)) =
      (first :: rest).flatMap (splitChar separator) := by
  induction rest generalizing first with
  | nil => simp [splitChar]
  | cons second rest ih =>
      have joined : ((String.singleton separator).intercalate (first :: second :: rest)).toList =
          first.toList ++ separator ::
            ((String.singleton separator).intercalate (second :: rest)).toList := by
        simp [String.toList_intercalate]
      rw [splitChar, joined, List.splitOn_append_cons_self, List.map_append, List.flatMap_cons,
        ← ih second]
      rfl

theorem splitChar_of_notMem {separator : Char} {text : String} (absent : separator ∉ text.toList) :
    splitChar separator text = [text] := by
  rw [splitChar, List.splitOn_eq_singleton absent]
  simp

theorem length_splitChar (separator : Char) (text : String) :
    (splitChar separator text).length = text.toList.count separator + 1 := by
  rw [splitChar, List.length_map]
  induction text.toList with
  | nil => rfl
  | cons char rest ih =>
      rw [List.splitOn_cons_eq_if_modifyHead, List.count_cons]
      split_ifs with same
      · rw [List.length_cons, ih]
      · rw [List.length_modifyHead, ih, Nat.add_zero]

/-! Numbers. -/

theorem toString_u64 (number : UInt64) : (toString number).toList = Nat.toDigits 10 number.toNat :=
  Nat.toList_repr

theorem notMem_toString_u64 {separator : Char} (symbol : separator.isDigit = false)
    (number : UInt64) : separator ∉ (toString number).toList := by
  rw [toString_u64]
  intro member
  rw [Nat.isDigit_of_mem_toDigits (by decide) (by decide) member] at symbol
  cases symbol

theorem parseDigits_iff (limit : Nat) (digits : List Char) (number : Nat) :
    parseDigits limit digits = some number ↔ number < limit ∧ Numerals.Spells number digits := by
  rw [Numerals.spells_iff, parseDigits]
  by_cases malformed : digits = [] ∨ digits.all Char.isDigit = false
  · rw [if_pos malformed]
    constructor
    · intro parsed
      cases parsed
    · rintro ⟨_, some_, all, _⟩
      rcases malformed with empty | other
      · exact absurd empty some_
      · rw [List.all_eq_true.mpr all] at other
        cases other
  · rw [if_neg malformed]
    obtain ⟨some_, all⟩ := not_or.mp malformed
    have all : Numerals.AllDigits digits := List.all_eq_true.mp (Bool.eq_true_of_not_eq_false all)
    dsimp only
    split_ifs with small
    · rw [Option.some.injEq]
      constructor
      · rintro rfl
        exact ⟨small, some_, all, rfl⟩
      · exact fun spells => spells.2.2.2
    · constructor
      · intro parsed
        cases parsed
      · rintro ⟨bound, _, _, rfl⟩
        exact absurd bound small

theorem parseU64_iff (text : String) (number : UInt64) :
    parseU64 text = some number ↔ Numerals.Unsigned number.toNat text := by
  have read (digits : List Char) :
      (parseDigits (2 ^ 64) digits).map UInt64.ofNat = some number ↔
        Numerals.Spells number.toNat digits := by
    constructor
    · intro parsed
      obtain ⟨value, accepted, rfl⟩ := Option.map_eq_some_iff.mp parsed
      obtain ⟨small, spells⟩ := (parseDigits_iff _ _ _).mp accepted
      rwa [UInt64.toNat_ofNat_of_lt' small]
    · intro spells
      rw [(parseDigits_iff _ _ _).mpr ⟨number.toNat_lt, spells⟩, Option.map_some,
        UInt64.ofNat_toNat]
  rw [parseU64]
  split
  next rest shape =>
    rw [read]
    constructor
    · exact fun spells => ⟨rest, spells, Or.inr shape⟩
    · rintro ⟨digits, spells, plain | plus⟩
      · exact absurd (plain.symm.trans shape) (spells.ne_sign (by decide) rest)
      · cases shape.symm.trans plus
        exact spells
  next unsigned =>
    rw [read]
    constructor
    · exact fun spells => ⟨_, spells, Or.inl rfl⟩
    · rintro ⟨digits, spells, plain | plus⟩
      · rwa [plain]
      · exact absurd plus (unsigned digits)

theorem toInt_ofNat {value : Nat} (small : value < 2 ^ 31) : (Int32.ofNat value).toInt = value := by
  rw [← Int32.ofInt_eq_ofNat]
  exact Int32.toInt_ofInt_of_le (by omega) (by omega)

theorem toInt_neg_ofNat {value : Nat} (small : value < 2 ^ 31 + 1) :
    (-Int32.ofNat value).toInt = -(value : Int) := by
  rw [Int32.neg_ofNat]
  exact Int32.toInt_ofInt_of_le (by omega) (by omega)

/-- The bound of a negative numeral is one higher than that of a positive one. -/
theorem parseI32_iff (text : String) (number : Int32) :
    parseI32 text = some number ↔ Numerals.Signed number.toInt text := by
  have least := number.le_toInt
  have greatest := number.toInt_lt
  have positive (digits : List Char) :
      (parseDigits (2 ^ 31) digits).map Int32.ofNat = some number ↔
        0 ≤ number.toInt ∧ Numerals.Spells number.toInt.natAbs digits := by
    constructor
    · intro parsed
      obtain ⟨value, accepted, rfl⟩ := Option.map_eq_some_iff.mp parsed
      obtain ⟨small, spells⟩ := (parseDigits_iff _ _ _).mp accepted
      rw [toInt_ofNat small]
      exact ⟨Int.natCast_nonneg value, spells⟩
    · rintro ⟨sign, spells⟩
      have small : number.toInt.natAbs < 2 ^ 31 := by omega
      rw [(parseDigits_iff _ _ _).mpr ⟨small, spells⟩, Option.map_some, Option.some.injEq,
        ← Int32.toInt_inj, toInt_ofNat small]
      omega
  rw [parseI32]
  split
  next digits shape =>
    have bare : ∀ other, Numerals.Spells number.toInt.natAbs other → text.toList ≠ other :=
      fun other spells same => spells.ne_sign (by decide) digits (same.symm.trans shape)
    constructor
    · intro parsed
      obtain ⟨value, accepted, rfl⟩ := Option.map_eq_some_iff.mp parsed
      obtain ⟨small, spells⟩ := (parseDigits_iff _ _ _).mp accepted
      refine ⟨digits, ?_, Or.inr ⟨?_, shape⟩⟩
      · rwa [toInt_neg_ofNat small, Int.natAbs_neg, Int.natAbs_natCast]
      · rw [toInt_neg_ofNat small]
        omega
    · rintro ⟨other, spells, ⟨_, plain | plus⟩ | ⟨sign, minus⟩⟩
      · exact absurd plain (bare other spells)
      · cases shape.symm.trans plus
      · cases shape.symm.trans minus
        have small : number.toInt.natAbs < 2 ^ 31 + 1 := by omega
        rw [(parseDigits_iff _ _ _).mpr ⟨small, spells⟩, Option.map_some, Option.some.injEq,
          ← Int32.toInt_inj, toInt_neg_ofNat small]
        omega
  next digits shape =>
    rw [positive]
    constructor
    · rintro ⟨sign, spells⟩
      exact ⟨digits, spells, Or.inl ⟨sign, Or.inr shape⟩⟩
    · rintro ⟨other, spells, ⟨sign, plain | plus⟩ | ⟨_, minus⟩⟩
      · exact absurd (plain.symm.trans shape) (spells.ne_sign (by decide) digits)
      · cases shape.symm.trans plus
        exact ⟨sign, spells⟩
      · cases shape.symm.trans minus
  next minus_ plus_ =>
    rw [positive]
    constructor
    · rintro ⟨sign, spells⟩
      exact ⟨_, spells, Or.inl ⟨sign, Or.inl rfl⟩⟩
    · rintro ⟨other, spells, ⟨sign, plain | plus⟩ | ⟨_, minus⟩⟩
      · exact ⟨sign, plain ▸ spells⟩
      · exact absurd plus (plus_ other)
      · exact absurd minus (minus_ other)

theorem parseU64_toString (number : UInt64) : parseU64 (toString number) = some number :=
  (parseU64_iff _ _).mpr (Numerals.unsigned_repr number.toNat)

theorem parseI32_toString (number : Int32) : parseI32 (toString number) = some number :=
  (parseI32_iff _ _).mpr (Numerals.signed_repr number.toInt)

/-- The marker of a missing value is not a number. -/
theorem parseOptionalI32_kvValueMsg (value : Option Int32) :
    parseOptionalI32 (kvValueMsg value) = value := by
  cases value with
  | none => rfl
  | some value =>
      have number : toString value ≠ "none" :=
        (Numerals.signed_repr value.toInt).ne_of_letter 'n' (by decide) (by decide)
          (by decide) (by decide)
      rw [kvValueMsg, parseOptionalI32, if_pos number, parseI32_toString]

/-! What the log parser makes of each line. -/

/-- The operation as the checker would get it from the recorder. -/
def RecordedOp.logRecord :
    RecordedOp → Option (OpRecord (AppendLogInput String) (AppendLogOutput String))
  | .logAppend id process value index invoke complete =>
      some (.completedAt id process (.append value) (.index index) invoke complete)
  | .logRead id process entries invoke complete =>
      some (.completedAt id process .readAll (.entries entries) invoke complete)
  | _ => none

/-- The line has no process in it, and the parser puts this one. -/
def OpRecord.atProcess {Input Output : Type} (process : UInt32) (op : OpRecord Input Output) :
    OpRecord Input Output :=
  { op with process }

/-- No string has a separator in it, and the entries are not one empty string,
which is written like no entries. -/
def RecordedOp.LogSeparable : RecordedOp → Prop
  | .logAppend _ _ value _ _ _ => ':' ∉ value.toList
  | .logRead _ _ entries _ _ =>
      (∀ entry ∈ entries, ':' ∉ entry.toList ∧ ',' ∉ entry.toList) ∧ entries ≠ [""]
  | _ => True

/-- Splitting each of some texts leaves as many pieces, or more. -/
theorem length_le_flatMap_splitChar (separator : Char) (texts : List String) :
    texts.length ≤ (texts.flatMap (splitChar separator)).length := by
  induction texts with
  | nil => exact le_rfl
  | cons text rest ih =>
      rw [List.flatMap_cons, List.length_append, length_splitChar, List.length_cons]
      omega

theorem flatMap_splitChar_iff (separator : Char) (texts : List String) :
    texts.flatMap (splitChar separator) = texts ↔ ∀ text ∈ texts, separator ∉ text.toList := by
  induction texts with
  | nil => simp
  | cons text rest ih =>
      rw [List.flatMap_cons, List.forall_mem_cons]
      by_cases present : separator ∈ text.toList
      · have counted : 0 < text.toList.count separator := List.count_pos_iff.mpr present
        have more := length_le_flatMap_splitChar separator rest
        simp only [present, not_true_eq_false, false_and, iff_false]
        intro same
        have lengths := congrArg List.length same
        rw [List.length_append, length_splitChar, List.length_cons] at lengths
        omega
      · rw [splitChar_of_notMem present, List.singleton_append, List.cons_inj_right, ih]
        simp only [present, not_false_eq_true, true_and]

theorem intercalate_splitChar (separator : Char) (text : String) :
    (String.singleton separator).intercalate (splitChar separator text) = text := by
  apply String.toList_inj.mp
  simp [splitChar, String.toList_intercalate, Function.comp_def]

/-- Joined and split again the parts are the same, so none of them can be split further. -/
theorem notMem_of_mem_splitChar {separator : Char} {text part : String}
    (member : part ∈ splitChar separator text) : separator ∉ part.toList := by
  have split : (splitChar separator text).flatMap (splitChar separator) =
      splitChar separator text := by
    cases parts : splitChar separator text with
    | nil => rfl
    | cons first rest =>
        rw [← splitChar_intercalate, ← parts, intercalate_splitChar]
  exact (flatMap_splitChar_iff separator _).mp split part member

theorem intercalate_parseEntries (text : String) : ",".intercalate (parseEntries text) = text := by
  rw [parseEntries]
  split_ifs with empty
  · rw [empty]
    rfl
  · exact intercalate_splitChar ',' text

theorem mem_intercalate_iff {char separator : Char} (different : char ≠ separator)
    (texts : List String) :
    char ∈ ((String.singleton separator).intercalate texts).toList ↔
      ∃ text ∈ texts, char ∈ text.toList := by
  induction texts with
  | nil => simp
  | cons first rest ih =>
      cases rest with
      | nil => simp
      | cons second rest =>
          have joined : ((String.singleton separator).intercalate (first :: second :: rest)).toList =
              first.toList ++ separator ::
                ((String.singleton separator).intercalate (second :: rest)).toList := by
            simp [String.toList_intercalate]
          rw [joined, List.mem_append, List.mem_cons, ih]
          simp [different]

theorem parseEntries_join_iff (entries : List String) :
    parseEntries (",".intercalate entries) = entries ↔
      (∀ entry ∈ entries, ',' ∉ entry.toList) ∧ entries ≠ [""] := by
  cases entries with
  | nil => simp [parseEntries]
  | cons first rest =>
      have split := splitChar_intercalate ',' first rest
      rw [show String.singleton ',' = "," from rfl] at split
      by_cases empty : ",".intercalate (first :: rest) = ""
      · -- One empty entry is written like none, and is read back as none.
        have lone : first :: rest = [""] := by
          cases rest with
          | nil => simpa using empty
          | cons second rest =>
              have lengths := congrArg String.toList empty
              simp [String.toList_intercalate] at lengths
        rw [parseEntries, if_pos empty, lone]
        simp
      · have several : first :: rest ≠ [""] := by
          intro lone
          rw [lone] at empty
          exact empty rfl
        rw [parseEntries, if_neg empty, split, flatMap_splitChar_iff]
        exact ⟨fun absent => ⟨absent, several⟩, And.left⟩

theorem splitChar_line (op : RecordedOp) :
    splitChar ':' op.toHistoryLine = op.fields.flatMap (splitChar ':') := by
  cases op <;> exact splitChar_intercalate ':' _ _

theorem splitChar_number (number : UInt64) : splitChar ':' (toString number) = [toString number] :=
  splitChar_of_notMem (notMem_toString_u64 (by decide) number)

theorem parseLogLine_kv (op : RecordedOp) (rest : List String) (shape : op.fields = "kv" :: rest) :
    parseLogLine op.toHistoryLine = none := by
  have parts : splitChar ':' op.toHistoryLine = "kv" :: rest.flatMap (splitChar ':') := by
    have head : splitChar ':' "kv" = ["kv"] := splitChar_of_notMem (by decide)
    rw [splitChar_line, shape, List.flatMap_cons, head]
    rfl
  rw [parseLogLine, parts]
  split
  · simp_all
  · simp_all
  · rfl

end Detersim
