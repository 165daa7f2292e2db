import Detersim.Json
import Detersim.Report

/-!
The JSON artifact of a run report. The text is put together from formatted
pieces, without a tree of the document.
-/

namespace Detersim

/-- `char::is_control`. -/
def isControl (ch : Char) : Bool :=
  decide (ch.toNat < 0x20) || (decide (0x7F ≤ ch.toNat) && decide (ch.toNat ≤ 0x9F))

/-- The format `04x`. -/
def hex04 (code : Nat) : String :=
  let digits := Nat.toDigits 16 code
  String.ofList (List.replicate (4 - digits.length) '0' ++ digits)

/-- The branches of `escape_json`, for one character. -/
def escapeChar (ch : Char) : String :=
  if ch = '"' then "\\\""
  else if ch = '\\' then "\\\\"
  else if ch = '\n' then "\\n"
  else if ch = '\r' then "\\r"
  else if ch = '\t' then "\\t"
  else if isControl ch then "\\u" ++ hex04 ch.toNat
  else String.singleton ch

def escapeJson (value : String) : String := String.join (value.toList.map escapeChar)

def quoted (value : String) : String := "\"" ++ (escapeJson value ++ "\"")

def stringArray (values : List String) : String := "[" ++ ",".intercalate (values.map quoted) ++ "]"

def u64Array (values : List UInt64) : String :=
  "[" ++ ",".intercalate (values.map fun value => toString value) ++ "]"

/-- A format string of an object: the names stand in it as they are. -/
def formatObject (fields : List (String × String)) : String :=
  "\x7b" ++ (",".intercalate (fields.map fun (name, value) => "\"" ++ (name ++ ("\":" ++ value))) ++
    "\x7d")

def tapeEventJson (event : TapeEvent) : String :=
  formatObject [("index", toString event.index), ("label", "\"" ++ (event.label.asStr ++ "\"")),
    ("value", toString event.value)]

def tapeEventsJson (report : RunReport) : String :=
  "[" ++ ",".intercalate (report.tapeEvents.map tapeEventJson) ++ "]"

def optionUsize : Option Nat → String
  | some value => toString value
  | none => "null"

def runReportToJson (report : RunReport) : String :=
  formatObject [
    ("schema_version", "2"),
    ("seed", toString report.seed),
    ("dispatched", toString report.dispatched),
    ("aborted", toString report.aborted),
    ("deadlocked", toString report.deadlocked),
    ("trace", stringArray report.trace),
    ("history", stringArray report.history),
    ("coverage_signals", stringArray report.coverageSignals),
    ("nemesis", stringArray report.nemesisTrace),
    ("nemesis_trace", stringArray report.nemesisTrace),
    ("tape", u64Array report.tapeLog),
    ("tape_events", tapeEventsJson report),
    ("tape_replaying", toString report.tapeReplaying),
    ("tape_input_len", optionUsize report.tapeInputLen),
    ("tape_cursor", toString report.tapeCursor),
    ("tape_consumed_all", toString report.tapeConsumedAll),
    ("tape_exhausted", toString report.tapeExhausted)]

/-! The document the text stands for. -/

def numberJson (number : Nat) : Json := .number number 0

def stringsJson (values : List String) : Json := .array (values.map Json.string)

def TapeEvent.document (event : TapeEvent) : Json :=
  .object [("index", numberJson event.index), ("label", .string event.label.asStr),
    ("value", numberJson event.value.toNat)]

def optionJson : Option Nat → Json
  | some value => numberJson value
  | none => .null

def RunReport.document (report : RunReport) : Json :=
  .object [
    ("schema_version", numberJson 2),
    ("seed", numberJson report.seed.toNat),
    ("dispatched", numberJson report.dispatched),
    ("aborted", .bool report.aborted),
    ("deadlocked", .bool report.deadlocked),
    ("trace", stringsJson report.trace),
    ("history", stringsJson report.history),
    ("coverage_signals", stringsJson report.coverageSignals),
    ("nemesis", stringsJson report.nemesisTrace),
    ("nemesis_trace", stringsJson report.nemesisTrace),
    ("tape", .array (report.tapeLog.map fun value => numberJson value.toNat)),
    ("tape_events", .array (report.tapeEvents.map TapeEvent.document)),
    ("tape_replaying", .bool report.tapeReplaying),
    ("tape_input_len", optionJson report.tapeInputLen),
    ("tape_cursor", numberJson report.tapeCursor),
    ("tape_consumed_all", .bool report.tapeConsumedAll),
    ("tape_exhausted", .bool report.tapeExhausted)]

/-! Escapes. -/

theorem hex04_toList (code : Nat) (small : code < 0x100) :
    (hex04 code).toList = ['0', '0', Nat.digitChar (code / 16), Nat.digitChar (code % 16)] := by
  rw [hex04, String.toList_ofList, Nat.toDigits_eq_if (by decide)]
  by_cases one : code < 16
  · rw [if_pos one, Nat.div_eq_of_lt one, Nat.mod_eq_of_lt one]
    rfl
  · rw [if_neg one, Nat.toDigits_of_lt_base (show code / 16 < 16 by omega)]
    rfl

theorem escapeChar_escaping : Json.Escaping fun ch => (escapeChar ch).toList where
  nonempty ch := by
    simp only [escapeChar]
    split_ifs <;> simp
  reads ch fuel rest := by
    simp only [escapeChar]
    split_ifs with quote backslash newline return_ tab control
    · subst quote
      exact Json.stringBody_escape rfl fuel
    · subst backslash
      exact Json.stringBody_escape rfl fuel
    · subst newline
      exact Json.stringBody_escape rfl fuel
    · subst return_
      exact Json.stringBody_escape rfl fuel
    · subst tab
      exact Json.stringBody_escape rfl fuel
    · have small : ch.toNat < 0x100 := by
        simp [isControl] at control
        omega
      rw [String.toList_append, hex04_toList ch.toNat small]
      exact Json.stringBody_escape (Json.escape_code ch small rest) fuel
    · have printable : 0x20 ≤ ch.toNat := by
        simp [isControl] at control
        omega
      rw [String.toList_singleton]
      exact Json.stringBody_plain ⟨quote, backslash, printable⟩ fuel rest

theorem escapeJson_toList (value : String) :
    (escapeJson value).toList = value.toList.flatMap fun ch => (escapeChar ch).toList := by
  rw [escapeJson, String.toList_join, List.flatMap_map]

/-- Between quotes the escaped text is the text. -/
theorem reads_quoted (value : String) : Json.Reads (quoted value).toList (.string value) := by
  have quotes : Json.Quotes (escapeJson value).toList value.toList := by
    rw [escapeJson_toList]
    exact escapeChar_escaping.quotes value.toList
  rw [quoted, String.toList_append, String.toList_append]
  exact Json.reads_string quotes

theorem reads_label (label : TapeLabel) :
    Json.Reads ("\"" ++ (label.asStr ++ "\"")).toList (.string label.asStr) := by
  rw [String.toList_append, String.toList_append]
  apply Json.reads_string
  apply Json.quotes_plain
  -- Looked at as a list of characters, which is short; the type has a million.
  have plain : (label.asStr.toList.all fun ch => decide (Json.Plain ch)) = true := by
    cases label <;> decide
  exact fun ch member => of_decide_eq_true (List.all_eq_true.mp plain ch member)

theorem reads_nat (number : Nat) : Json.Reads (toString number).toList (numberJson number) := by
  have text : (toString number).toList = Nat.toDigits 10 number := Nat.toList_repr
  rw [text]
  exact Json.reads_number number

theorem reads_u64 (value : UInt64) :
    Json.Reads (toString value).toList (numberJson value.toNat) := reads_nat value.toNat

theorem reads_option (value : Option Nat) :
    Json.Reads (optionUsize value).toList (optionJson value) := by
  cases value with
  | none => exact Json.reads_null
  | some value => exact reads_nat value

/-- A formatted member: its name needs no escape, and its text stands for the value. -/
def ReadsField (field : String × String) (member : String × Json) : Prop :=
  field.1 = member.1 ∧ (∀ ch ∈ field.1.toList, Json.Plain ch) ∧
    Json.Reads field.2.toList member.2

theorem reads_formatObject {fields : List (String × String)} {members : List (String × Json)}
    (reads : List.Forall₂ ReadsField fields members) :
    Json.Reads (formatObject fields).toList (.object members) := by
  have each : List.Forall₂ Json.ReadsMember
      (fields.map fun field => (field.1.toList, field.2.toList)) members := by
    rw [List.forall₂_map_left_iff]
    refine reads.imp ?_
    rintro ⟨name, text⟩ ⟨_, document⟩ ⟨rfl, plain, reads⟩
    exact ⟨Json.quotes_plain _ plain, reads⟩
  have whole := Json.reads_object _ _ each
  rw [List.map_map] at whole
  have pieces : (fields.map fun (name, value) => "\"" ++ (name ++ ("\":" ++ value))).map
        String.toList =
      fields.map (Json.memberText ∘ fun field => (field.1.toList, field.2.toList)) := by
    rw [List.map_map]
    apply List.map_congr_left
    rintro ⟨name, text⟩ _
    simp only [Function.comp, String.toList_append, Json.memberText]
    rfl
  rw [formatObject, String.toList_append, String.toList_append, String.toList_intercalate, pieces]
  exact whole

theorem reads_member {name text : String} {document : Json} {fields : List (String × String)}
    {members : List (String × Json)}
    (plain : (name.toList.all fun ch => decide (Json.Plain ch)) = true)
    (reads : Json.Reads text.toList document) (rest : List.Forall₂ ReadsField fields members) :
    List.Forall₂ ReadsField ((name, text) :: fields) ((name, document) :: members) :=
  .cons ⟨rfl, fun ch member => of_decide_eq_true (List.all_eq_true.mp plain ch member), reads⟩ rest

theorem reads_tapeEvent (event : TapeEvent) :
    Json.Reads (tapeEventJson event).toList event.document := by
  apply reads_formatObject
  apply reads_member (by decide) (reads_nat event.index)
  apply reads_member (by decide) (reads_label event.label)
  exact reads_member (by decide) (reads_u64 event.value) .nil

theorem reads_strings (values : List String) :
    Json.Reads (stringArray values).toList (stringsJson values) :=
  Json.reads_items quoted Json.string reads_quoted values

theorem reads_u64s (values : List UInt64) :
    Json.Reads (u64Array values).toList (.array (values.map fun value => numberJson value.toNat)) :=
  Json.reads_items (fun value : UInt64 => toString value) (fun value => numberJson value.toNat)
    reads_u64 values

theorem reads_tapeEvents (report : RunReport) :
    Json.Reads (tapeEventsJson report).toList
      (.array (report.tapeEvents.map TapeEvent.document)) :=
  Json.reads_items tapeEventJson TapeEvent.document reads_tapeEvent report.tapeEvents

theorem reads_report (report : RunReport) :
    Json.Reads (runReportToJson report).toList report.document := by
  apply reads_formatObject
  apply reads_member (by decide) (reads_nat 2)
  apply reads_member (by decide) (reads_u64 report.seed)
  apply reads_member (by decide) (reads_nat report.dispatched)
  apply reads_member (by decide) (Json.reads_bool report.aborted)
  apply reads_member (by decide) (Json.reads_bool report.deadlocked)
  apply reads_member (by decide) (reads_strings report.trace)
  apply reads_member (by decide) (reads_strings report.history)
  apply reads_member (by decide) (reads_strings report.coverageSignals)
  apply reads_member (by decide) (reads_strings report.nemesisTrace)
  apply reads_member (by decide) (reads_strings report.nemesisTrace)
  apply reads_member (by decide) (reads_u64s report.tapeLog)
  apply reads_member (by decide) (reads_tapeEvents report)
  apply reads_member (by decide) (Json.reads_bool report.tapeReplaying)
  apply reads_member (by decide) (reads_option report.tapeInputLen)
  apply reads_member (by decide) (reads_nat report.tapeCursor)
  apply reads_member (by decide) (Json.reads_bool report.tapeConsumedAll)
  exact reads_member (by decide) (Json.reads_bool report.tapeExhausted) .nil

/-! What a reader gets from the artifact. -/

/-- The fields of a report that its artifact has. -/
structure ReportData where
  seed : UInt64
  dispatched : Nat
  aborted : Bool
  deadlocked : Bool
  trace : List String
  history : List String
  coverageSignals : List String
  nemesisTrace : List String
  tapeLog : List UInt64
  tapeEvents : List TapeEvent
  tapeReplaying : Bool
  tapeInputLen : Option Nat
  tapeCursor : Nat
  tapeConsumedAll : Bool
  tapeExhausted : Bool
  deriving DecidableEq

def RunReport.data (report : RunReport) : ReportData where
  seed := report.seed
  dispatched := report.dispatched
  aborted := report.aborted
  deadlocked := report.deadlocked
  trace := report.trace
  history := report.history
  coverageSignals := report.coverageSignals
  nemesisTrace := report.nemesisTrace
  tapeLog := report.tapeLog
  tapeEvents := report.tapeEvents
  tapeReplaying := report.tapeReplaying
  tapeInputLen := report.tapeInputLen
  tapeCursor := report.tapeCursor
  tapeConsumedAll := report.tapeConsumedAll
  tapeExhausted := report.tapeExhausted

def readU64 (document : Json) : Option UInt64 := do
  let number ← document.asNat
  if number < 2 ^ 64 then some (UInt64.ofNat number) else none

def readLabel (document : Json) : Option TapeLabel := do
  let text ← document.asString
  [.netDelay, .dropDecision, .duplicateDecision, .extraDelay, .crashPoint, .partition, .restart,
    .clockSkew, .jitter, .nemesis, .other].find? fun label => label.asStr == text

def readTapeEvent (document : Json) : Option TapeEvent := do
  let index ← (← document.field "index").asNat
  let label ← readLabel (← document.field "label")
  let value ← readU64 (← document.field "value")
  some { index, label, value }

def readReport (document : Json) : Option ReportData := do
  let seed ← readU64 (← document.field "seed")
  let dispatched ← (← document.field "dispatched").asNat
  let aborted ← (← document.field "aborted").asBool
  let deadlocked ← (← document.field "deadlocked").asBool
  let trace ← (← document.field "trace").asList Json.asString
  let history ← (← document.field "history").asList Json.asString
  let coverageSignals ← (← document.field "coverage_signals").asList Json.asString
  let nemesisTrace ← (← document.field "nemesis_trace").asList Json.asString
  let tapeLog ← (← document.field "tape").asList readU64
  let tapeEvents ← (← document.field "tape_events").asList readTapeEvent
  let tapeReplaying ← (← document.field "tape_replaying").asBool
  let tapeInputLen ← (← document.field "tape_input_len").asOption Json.asNat
  let tapeCursor ← (← document.field "tape_cursor").asNat
  let tapeConsumedAll ← (← document.field "tape_consumed_all").asBool
  let tapeExhausted ← (← document.field "tape_exhausted").asBool
  some { seed, dispatched, aborted, deadlocked, trace, history, coverageSignals, nemesisTrace
         tapeLog, tapeEvents, tapeReplaying, tapeInputLen, tapeCursor, tapeConsumedAll
         tapeExhausted }

theorem asNat_numberJson (number : Nat) : (numberJson number).asNat = some number :=
  Json.asNat_number number

theorem asOption_optionJson (value : Option Nat) :
    (optionJson value).asOption Json.asNat = some value := by
  cases value with
  | none => rfl
  | some value => exact congrArg (Option.map some) (asNat_numberJson value)

theorem readU64_number (value : UInt64) : readU64 (numberJson value.toNat) = some value := by
  rw [readU64, asNat_numberJson]
  simp only [Option.bind_eq_bind, Option.bind_some, if_pos value.toNat_lt, UInt64.ofNat_toNat]

theorem readLabel_asStr (label : TapeLabel) : readLabel (.string label.asStr) = some label := by
  cases label <;> decide

theorem readTapeEvent_document (event : TapeEvent) : readTapeEvent event.document = some event := by
  have index : event.document.field "index" = some (numberJson event.index) := rfl
  have label : event.document.field "label" = some (.string event.label.asStr) := rfl
  have value : event.document.field "value" = some (numberJson event.value.toNat) := rfl
  rw [readTapeEvent, index, label, value]
  simp only [asNat_numberJson, readLabel_asStr, readU64_number, Option.bind_eq_bind,
    Option.bind_some]

theorem readStrings (values : List String) :
    (stringsJson values).asList Json.asString = some values := by
  have inverse (text : String) : Json.asString (.string text) = some text := rfl
  exact Json.asList_map inverse values

theorem readReport_document (report : RunReport) : readReport report.document = some report.data := by
  have seed : report.document.field "seed" = some (numberJson report.seed.toNat) := rfl
  have dispatched : report.document.field "dispatched" = some (numberJson report.dispatched) := rfl
  have aborted : report.document.field "aborted" = some (.bool report.aborted) := rfl
  have deadlocked : report.document.field "deadlocked" = some (.bool report.deadlocked) := rfl
  have trace : report.document.field "trace" = some (stringsJson report.trace) := rfl
  have history : report.document.field "history" = some (stringsJson report.history) := rfl
  have coverage : report.document.field "coverage_signals" =
    some (stringsJson report.coverageSignals) := rfl
  have nemesis : report.document.field "nemesis_trace" = some (stringsJson report.nemesisTrace) := rfl
  have tape : report.document.field "tape" =
    some (.array (report.tapeLog.map fun value => numberJson value.toNat)) := rfl
  have events : report.document.field "tape_events" =
    some (.array (report.tapeEvents.map TapeEvent.document)) := rfl
  have replaying : report.document.field "tape_replaying" = some (.bool report.tapeReplaying) := rfl
  have inputLen : report.document.field "tape_input_len" = some (optionJson report.tapeInputLen) := rfl
  have cursor : report.document.field "tape_cursor" = some (numberJson report.tapeCursor) := rfl
  have consumed : report.document.field "tape_consumed_all" = some (.bool report.tapeConsumedAll) := rfl
  have exhausted : report.document.field "tape_exhausted" = some (.bool report.tapeExhausted) := rfl
  rw [readReport, seed, dispatched, aborted, deadlocked, trace, history, coverage, nemesis, tape,
    events, replaying, inputLen, cursor, consumed, exhausted]
  simp only [Option.bind_eq_bind, Option.bind_some, readU64_number, asNat_numberJson, Json.asBool,
    readStrings, asOption_optionJson, Json.asList_map readU64_number,
    Json.asList_map readTapeEvent_document]
  rfl

/-- Every artifact is a JSON document with the data of its report, no name comes
twice in it, and an escaped text between quotes stands for itself. -/
theorem run_report_round_trip :
    (∀ report : RunReport, ∃ members,
      Json.decode (runReportToJson report) = some (.object members) ∧
      (members.map Prod.fst).Nodup ∧ readReport (.object members) = some report.data) ∧
    ∀ text : String, Json.decode ("\"" ++ (escapeJson text ++ "\"")) = some (.string text) := by
  constructor
  · intro report
    refine ⟨_, Json.decode_reads (reads_report report), ?_, readReport_document report⟩
    simp only [List.map_cons, List.map_nil]
    decide
  · intro text
    exact Json.decode_reads (reads_quoted text)

end Detersim
