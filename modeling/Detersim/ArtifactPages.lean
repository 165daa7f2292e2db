import Detersim.Reachable
import Detersim.RunReportJson
import Detersim.ScriptText
import Mathlib.Data.List.ReduceOption

/-!
The pages of a debug artifact: what was recorded is escaped for JSON, and put into
the heading and the script as it is then.
-/

namespace Detersim

open ScriptText (Mode Neutral scan element occurs markup htmlEnds)

structure DebugArtifact where
  title : String
  run : RunReport
  experimentJson : Option String
  checkerJson : Option String
  shrinkJson : Option String
  failureSignatureJson : Option String

structure DebugArtifactV3 where
  title : String
  run : RunReport
  experimentJson : Option String
  searchJson : Option String
  checkerJson : Option String
  shrinkJson : Option String
  failureSignatureJson : Option String
  coverageJson : Option String
  causalGraphJson : Option String
  environmentJson : Option String

def optionRawJson (value : Option String) : String := value.getD "null"

def debugArtifactToJson (artifact : DebugArtifact) : String :=
  formatObject [
    ("schema_version", "2"),
    ("title", quoted artifact.title),
    ("run", runReportToJson artifact.run),
    ("experiment", optionRawJson artifact.experimentJson),
    ("checker", optionRawJson artifact.checkerJson),
    ("shrink", optionRawJson artifact.shrinkJson),
    ("failure_signature", optionRawJson artifact.failureSignatureJson)]

def debugArtifactV3ToJson (artifact : DebugArtifactV3) : String :=
  formatObject [
    ("schema_version", "3"),
    ("title", quoted artifact.title),
    ("run", runReportToJson artifact.run),
    ("experiment", optionRawJson artifact.experimentJson),
    ("search", optionRawJson artifact.searchJson),
    ("checker", optionRawJson artifact.checkerJson),
    ("shrink", optionRawJson artifact.shrinkJson),
    ("failure_signature", optionRawJson artifact.failureSignatureJson),
    ("coverage", optionRawJson artifact.coverageJson),
    ("causal_graph", optionRawJson artifact.causalGraphJson),
    ("environment", optionRawJson artifact.environmentJson)]

/-! The format strings, cut into lines. -/

/-- Before the heading, from it to the script, and the script after the data. -/
structure Template where
  head : List String
  sections : List String
  viewer : List String

def Template.script (template : Template) (json : String) : String :=
  "const artifact=" ++ (json ++ String.join template.viewer)

def pageEnd : String := "</script></body></html>"

def Template.page (template : Template) (title json : String) : String :=
  String.join template.head ++ ("<h1>" ++ (escapeJson title ++ ("</h1>" ++
    (String.join template.sections ++ ("<script>" ++ (template.script json ++ pageEnd))))))

def debugArtifactTemplate : Template where
  head := [
    "<!doctype html><html><head><meta charset=\"utf-8\"><title>detersim debug artifact",
    "</title><style>body\x7bfont-family:system-ui,sans-serif;margin:24px;line-height:1.4",
    "\x7dsection\x7bmargin-block:18px\x7dpre\x7bwhite-space:pre-wrap;border:1px solid #ccc",
    ";padding:12px;overflow:auto\x7d.nemesis\x7bborder-color:#9b2c2c;background:#fff5f5\x7d",
    ".history\x7bborder-color:#2b6cb0;background:#ebf8ff\x7d.conflict",
    "\x7bborder-color:#744210;background:#fffff0\x7d.lanes\x7bdisplay:grid",
    ";grid-template-columns:repeat(auto-fit,minmax(260px,1fr));gap:12px\x7dh2",
    "\x7bfont-size:16px;margin-bottom:6px\x7d</style></head><body>"]
  sections := [
    "<section><h2>failure signature</h2><pre class=\"conflict\" id=\"signature\"></pre>",
    "</section><section><h2>experiment</h2><pre id=\"experiment\"></pre></section><section>",
    "<h2>checker / shrink</h2><pre id=\"checker\"></pre><pre id=\"shrink\"></pre></section>",
    "<section><h2>nemesis</h2><pre class=\"nemesis\" id=\"nemesis\"></pre></section>",
    "<section><h2>history</h2><pre class=\"history\" id=\"history\"></pre></section>",
    "<section><h2>tape events</h2><pre id=\"tape\"></pre></section><section><h2>node lanes",
    "</h2><div class=\"lanes\" id=\"lanes\"></div></section><section><h2>raw trace</h2>",
    "<pre id=\"trace\"></pre></section>"]
  viewer := [
    ";const report=artifact.run;const byNode=new Map();function add(node,line)\x7bif",
    "(!byNode.has(node))byNode.set(node,[]);byNode.get(node).push(line);\x7dfor",
    "(const line of report.trace)\x7bconst deliver=line.match(/deliver (\\d+)->(\\d+)/);if",
    "(deliver)\x7badd(deliver[1],line);add(deliver[2],line);continue;\x7dconst poll=line",
    ".match(/poll task=(\\d+)/);add(poll?`task-$\x7bpoll[1]\x7d`:'system',line);",
    "\x7dfunction pretty(value)\x7breturn value===null||value===undefined?'':JSON.stringify",
    "(value,null,2);\x7ddocument.getElementById('signature').textContent=pretty(artifact",
    ".failure_signature);document.getElementById('experiment').textContent=pretty(artifact",
    ".experiment);document.getElementById('checker').textContent=pretty(artifact.checker)",
    ";document.getElementById('shrink').textContent=pretty(artifact.shrink);document",
    ".getElementById('nemesis').textContent=report.nemesis_trace.join('\\n');document",
    ".getElementById('history').textContent=report.history.join('\\n');document",
    ".getElementById('tape').textContent=pretty(report.tape_events);document.getElementById",
    "('trace').textContent=report.trace.join('\\n');const lanes=document.getElementById",
    "('lanes');for(const [node,lines] of [...byNode.entries()].sort())",
    "\x7bconst section=document.createElement('section');const h=document.createElement",
    "('h2');h.textContent=node;const pre=document.createElement('pre');pre",
    ".textContent=lines.join('\\n');section.append(h,pre);lanes.append(section);\x7d"]

def debugArtifactV3Template : Template where
  head := [
    "<!doctype html><html><head><meta charset=\"utf-8\"><title>detersim debug artifact v3",
    "</title><style>body\x7bfont-family:system-ui,sans-serif;margin:24px;line-height:1.4",
    "\x7dsection\x7bmargin-block:18px\x7dpre\x7bwhite-space:pre-wrap;border:1px solid #ccc",
    ";padding:12px;overflow:auto\x7d.nemesis\x7bborder-color:#9b2c2c;background:#fff5f5\x7d",
    ".history\x7bborder-color:#2b6cb0;background:#ebf8ff\x7d.conflict",
    "\x7bborder-color:#744210;background:#fffff0\x7d.coverage\x7bborder-color:#276749",
    ";background:#f0fff4\x7d.lanes\x7bdisplay:grid",
    ";grid-template-columns:repeat(auto-fit,minmax(260px,1fr));gap:12px\x7dh2",
    "\x7bfont-size:16px;margin-bottom:6px\x7d</style></head><body>"]
  sections := [
    "<section><h2>run overview</h2><pre id=\"overview\"></pre></section><section>",
    "<h2>failure signature</h2><pre class=\"conflict\" id=\"signature\"></pre></section>",
    "<section><h2>experiment and search</h2><pre id=\"experiment\"></pre>",
    "<pre id=\"search\"></pre></section><section><h2>checker witness</h2>",
    "<pre class=\"conflict\" id=\"checker\"></pre></section><section><h2>shrink diff</h2>",
    "<pre id=\"shrink\"></pre></section><section><h2>coverage</h2>",
    "<pre class=\"coverage\" id=\"coverage\"></pre></section><section><h2>causal graph</h2>",
    "<pre id=\"causal\"></pre></section><section><h2>nemesis and storage faults</h2>",
    "<pre class=\"nemesis\" id=\"nemesis\"></pre></section><section><h2>client history</h2>",
    "<pre class=\"history\" id=\"history\"></pre></section><section><h2>node lanes</h2>",
    "<div class=\"lanes\" id=\"lanes\"></div></section><section><h2>raw trace</h2>",
    "<pre id=\"trace\"></pre></section>"]
  viewer := [
    ";const report=artifact.run;function pretty(value)",
    "\x7breturn value===null||value===undefined?'':JSON.stringify(value,null,2);",
    "\x7ddocument.getElementById('overview').textContent=pretty(\x7bseed:report.seed",
    ",dispatched:report.dispatched,deadlocked:report.deadlocked,aborted:report.aborted",
    ",tape_cursor:report.tape_cursor,tape_consumed_all:report.tape_consumed_all",
    ",tape_exhausted:report.tape_exhausted\x7d);document.getElementById('signature')",
    ".textContent=pretty(artifact.failure_signature);document.getElementById('experiment')",
    ".textContent=pretty(artifact.experiment);document.getElementById('search')",
    ".textContent=pretty(artifact.search);document.getElementById('checker')",
    ".textContent=pretty(artifact.checker);document.getElementById('shrink')",
    ".textContent=pretty(artifact.shrink);document.getElementById('coverage')",
    ".textContent=pretty(artifact.coverage ?? report.coverage_signals);document",
    ".getElementById('causal').textContent=pretty(artifact.causal_graph);document",
    ".getElementById('nemesis').textContent=report.nemesis_trace.join('\\n');document",
    ".getElementById('history').textContent=report.history.join('\\n');document",
    ".getElementById('trace').textContent=report.trace.join('\\n');const byNode=new Map()",
    ";function add(node,line)\x7bif(!byNode.has(node))byNode.set(node,[]);byNode.get(node)",
    ".push(line);\x7dfor(const line of report.trace)\x7bconst deliver=line.match(/deliver ",
    "(\\d+)->(\\d+)/);if(deliver)\x7badd(deliver[1],line);add(deliver[2],line);continue;",
    "\x7dconst poll=line.match(/poll task=(\\d+)/);add(poll?`task-$\x7bpoll[1]\x7d`",
    ":'system',line);\x7dconst lanes=document.getElementById('lanes');for(const [node",
    ",lines] of [...byNode.entries()].sort())\x7bconst section=document.createElement",
    "('section');const h=document.createElement('h2');h.textContent=node;const pre=document",
    ".createElement('pre');pre.textContent=lines.join('\\n');section.append(h,pre);lanes",
    ".append(section);\x7d"]

def debugArtifactHtml (artifact : DebugArtifact) : String :=
  debugArtifactTemplate.page artifact.title (debugArtifactToJson artifact)

def debugArtifactV3Html (artifact : DebugArtifactV3) : String :=
  debugArtifactV3Template.page artifact.title (debugArtifactV3ToJson artifact)

def timelineArtifact (report : RunReport) : DebugArtifact where
  title := "detersim trace seed " ++ toString report.seed
  run := report
  experimentJson := none
  checkerJson := none
  shrinkJson := none
  failureSignatureJson := none

def timelineHtml (report : RunReport) : String := debugArtifactHtml (timelineArtifact report)

/-! What a reader of HTML makes of a page. -/

/-- The heading is text without markup, and the script element has all of the script. -/
structure Shows (page heading script : String) : Prop where
  placed : ∃ before between, page = before ++ ("<h1>" ++ (heading ++ ("</h1>" ++
    (between ++ ("<script>" ++ (script ++ pageEnd))))))
  heading : occurs markup heading.toList = false
  script : element htmlEnds .data (script ++ pageEnd).toList = some (script.toList, pageEnd.toList)

/-- Escapes leave these of the characters that end the name of a tag. -/
def recordedEnds : List Char := [' ', '/', '>']

/-- Texts read one after the other, as parts of a script. -/
def readTexts (ends : List Char) (mode : Mode) (texts : List String) : Option Mode :=
  texts.foldlM (fun mode text => scan ends mode text.toList) mode

def RunReport.recorded (report : RunReport) : List String :=
  report.trace ++ report.history ++ report.coverageSignals ++ report.nemesisTrace ++
    report.nemesisTrace

/-- How the data of an artifact is read: title, report and sections. -/
def readArtifact (title : String) (report : RunReport) (sections : List (Option String)) :
    Option Mode :=
  (readTexts recordedEnds .data (title :: report.recorded)).bind fun mode =>
    readTexts htmlEnds mode sections.reduceOption

/-- The title opens no tag, and no tag in what was recorded, or in a section given as
JSON, ends the script or hides its end. -/
structure Harmless (title : String) (report : RunReport) (sections : List (Option String)) :
    Prop where
  heading : occurs markup title.toList = false
  texts : ∃ mode, readArtifact title report sections = some mode ∧ mode ≠ .doubleEscaped

/-! Escapes. -/

/-- The characters that are escaped. -/
def masked (ch : Char) : Bool := decide (ch = '"') || decide (ch = '\\') || isControl ch

theorem neutral_digits : ∀ value < 16, Neutral (Nat.digitChar value) := by decide

theorem escapeChar_masks : ScriptText.Masks masked fun ch => (escapeChar ch).toList where
  plain ch kept := by
    simp only [masked, Bool.or_eq_false_iff, decide_eq_false_iff_not] at kept
    obtain ⟨⟨quote, backslash⟩, control⟩ := kept
    have noControl (other : Char) (known : isControl other = true) : ch ≠ other :=
      fun same => by rw [same, known] at control; cases control
    have printed : isControl ch ≠ true := by simp [control]
    simp only [escapeChar, if_neg quote, if_neg backslash, if_neg (noControl '\n' rfl),
      if_neg (noControl '\r' rfl), if_neg (noControl '\t' rfl), if_neg printed,
      String.toList_singleton]
  hidden ch known := by
    simp only [escapeChar]
    split_ifs with quote backslash newline return_ tab control
    · exact ⟨['"'], rfl, List.forall_mem_singleton.mpr (by decide)⟩
    · exact ⟨['\\'], rfl, List.forall_mem_singleton.mpr (by decide)⟩
    · exact ⟨['n'], rfl, List.forall_mem_singleton.mpr (by decide)⟩
    · exact ⟨['r'], rfl, List.forall_mem_singleton.mpr (by decide)⟩
    · exact ⟨['t'], rfl, List.forall_mem_singleton.mpr (by decide)⟩
    · have small : ch.toNat < 0x100 := by
        simp [isControl] at control
        omega
      refine ⟨'u' :: (hex04 ch.toNat).toList, by rw [String.toList_append]; rfl, ?_⟩
      rw [hex04_toList ch.toNat small]
      have high := neutral_digits (ch.toNat / 16) (by omega)
      have low := neutral_digits (ch.toNat % 16) (Nat.mod_lt _ (by decide))
      intro other member
      simp only [List.mem_cons, List.not_mem_nil, or_false] at member
      rcases member with rfl | rfl | rfl | rfl | rfl
      · decide
      · decide
      · decide
      · exact high
      · exact low
    · simp [masked, quote, backslash, control] at known

theorem masked_leaves : ScriptText.Leaves masked htmlEnds recordedEnds where
  bare := by decide
  ending := by decide
  starting := by decide
  opens := by decide
  closes := by decide

theorem scan_escapeJson (mode : Mode) (value : String) :
    scan htmlEnds mode (escapeJson value).toList = scan recordedEnds mode value.toList := by
  rw [escapeJson_toList]
  exact ScriptText.scan_masked escapeChar_masks masked_leaves value.toList

theorem markup_escapeJson (value : String) :
    occurs markup (escapeJson value).toList = occurs markup value.toList := by
  rw [escapeJson_toList]
  exact ScriptText.occurs_masked escapeChar_masks (by decide) value.toList

/-! Formatted texts. -/

/-- No character of the text begins a pattern. -/
def Plain (text : String) : Prop := ∀ ch ∈ text.toList, Neutral ch

instance (text : String) : Decidable (Plain text) :=
  -- By the list: the type of all characters is finite too, but long.
  decidable_of_iff ((text.toList.all fun ch => decide (Neutral ch)) = true) (by simp [Plain])

theorem readTexts_nil (ends : List Char) (mode : Mode) : readTexts ends mode [] = some mode := rfl

theorem readTexts_cons (ends : List Char) (mode : Mode) (text : String) (texts : List String) :
    readTexts ends mode (text :: texts) =
      (scan ends mode text.toList).bind fun mode => readTexts ends mode texts := rfl

theorem readTexts_append (ends : List Char) (mode : Mode) (texts more : List String) :
    readTexts ends mode (texts ++ more) =
      (readTexts ends mode texts).bind fun mode => readTexts ends mode more :=
  List.foldlM_append

theorem scan_quoted (mode : Mode) (value : String) :
    scan htmlEnds mode (quoted value).toList = scan recordedEnds mode value.toList := by
  have shape : (quoted value).toList = '"' :: ((escapeJson value).toList ++ ['"']) := by
    rw [quoted, String.toList_append, String.toList_append]
    rfl
  rw [shape, ScriptText.scan_enclosed (by decide) ⟨by decide, by decide⟩, scan_escapeJson]

theorem scan_commas (mode : Mode) (texts : List String) :
    scan htmlEnds mode (",".intercalate texts).toList = readTexts htmlEnds mode texts := by
  have separator : ",".toList = [','] := by decide
  rw [String.toList_intercalate, separator, ScriptText.scan_intercalate ⟨by decide, by decide⟩,
    List.foldlM_map]
  rfl

/-- Items between brackets are read one after the other. -/
theorem scan_items (mode : Mode) (texts : List String) :
    scan htmlEnds mode ("[" ++ ",".intercalate texts ++ "]").toList =
      readTexts htmlEnds mode texts := by
  have shape : ("[" ++ ",".intercalate texts ++ "]").toList =
      '[' :: ((",".intercalate texts).toList ++ [']']) := by
    rw [String.toList_append, String.toList_append]
    rfl
  rw [shape, ScriptText.scan_enclosed (by decide) ⟨by decide, by decide⟩, scan_commas]

theorem scan_field (mode : Mode) {name : String} (plain : Plain name)
    (text : String) :
    scan htmlEnds mode ("\"" ++ (name ++ ("\":" ++ text))).toList =
      scan htmlEnds mode text.toList := by
  have shape : ("\"" ++ (name ++ ("\":" ++ text))).toList =
      '"' :: (name.toList ++ '"' :: ':' :: text.toList) := by
    simp only [String.toList_append]
    rfl
  rw [shape, ScriptText.scan_neutral_cons (by decide), ScriptText.scan_neutral_append plain,
    ScriptText.scan_neutral_cons (by decide), ScriptText.scan_neutral_cons (by decide)]

theorem readTexts_fields (mode : Mode) (fields : List (String × String))
    (plain : ∀ name ∈ fields.map Prod.fst, Plain name) :
    readTexts htmlEnds mode
        (fields.map fun (name, value) => "\"" ++ (name ++ ("\":" ++ value))) =
      readTexts htmlEnds mode (fields.map Prod.snd) := by
  induction fields generalizing mode with
  | nil => rfl
  | cons field fields ih =>
      have later (mode : Mode) := ih mode fun other member => plain other (List.mem_cons_of_mem _ member)
      rw [List.map_cons, List.map_cons, readTexts_cons, readTexts_cons,
        scan_field mode (plain field.1 List.mem_cons_self)]
      simp only [later]

/-- The values of the fields are read one after the other. -/
theorem scan_formatObject (mode : Mode) (fields : List (String × String))
    (plain : ∀ name ∈ fields.map Prod.fst, Plain name) :
    scan htmlEnds mode (formatObject fields).toList =
      readTexts htmlEnds mode (fields.map Prod.snd) := by
  have shape (text : String) : ("\x7b" ++ (text ++ "\x7d")).toList =
      '\x7b' :: (text.toList ++ ['\x7d']) := by
    rw [String.toList_append, String.toList_append]
    rfl
  rw [formatObject, shape, ScriptText.scan_enclosed (by decide) ⟨by decide, by decide⟩, scan_commas,
    readTexts_fields mode fields plain]

theorem scan_stringArray (mode : Mode) (values : List String) :
    scan htmlEnds mode (stringArray values).toList = readTexts recordedEnds mode values := by
  rw [stringArray, scan_items]
  induction values generalizing mode with
  | nil => rw [List.map_nil, readTexts_nil, readTexts_nil]
  | cons value values ih =>
      rw [List.map_cons, readTexts_cons, readTexts_cons, scan_quoted]
      simp only [ih]

/-- A literal, looked at as a list of characters. -/
theorem plain_ofList {chars : List Char}
    (neutral : (chars.all fun ch => decide (Neutral ch)) = true) : Plain (String.ofList chars) := by
  simpa [Plain] using neutral

/-- A text that leaves the mode alone. -/
def Quiet (text : String) : Prop := ∀ mode, scan htmlEnds mode text.toList = some mode

theorem Plain.quiet {text : String} (plain : Plain text) : Quiet text :=
  fun _ => ScriptText.scan_neutral plain

theorem plain_nat (number : Nat) : Plain (toString number) := by
  intro ch member
  rw [Nat.toString_eq_repr, Nat.toList_repr] at member
  have digit := Numerals.allDigits_toDigits number ch member
  constructor
  · rintro rfl
    exact absurd digit (by decide)
  · rintro rfl
    exact absurd digit (by decide)

theorem quiet_nat (number : Nat) : Quiet (toString number) := (plain_nat number).quiet

theorem quiet_u64 (value : UInt64) : Quiet (toString value) := quiet_nat value.toNat

theorem quiet_bool (value : Bool) : Quiet (toString value) := by
  cases value <;> exact Plain.quiet (by decide)

theorem quiet_option (value : Option Nat) : Quiet (optionUsize value) := by
  cases value with
  | none => exact Plain.quiet (by decide)
  | some value => exact quiet_nat value

theorem readTexts_quiet {texts : List String} (quiet : ∀ text ∈ texts, Quiet text) (mode : Mode) :
    readTexts htmlEnds mode texts = some mode := by
  induction texts with
  | nil => rfl
  | cons text texts ih =>
      have later := ih fun other member => quiet other (List.mem_cons_of_mem text member)
      rw [readTexts_cons, quiet text List.mem_cons_self mode]
      exact later

theorem quiet_items {texts : List String} (quiet : ∀ text ∈ texts, Quiet text) :
    Quiet ("[" ++ ",".intercalate texts ++ "]") := by
  intro mode
  rw [scan_items, readTexts_quiet quiet]

theorem quiet_u64Array (values : List UInt64) : Quiet (u64Array values) := by
  apply quiet_items
  intro text member
  obtain ⟨value, _, rfl⟩ := List.mem_map.mp member
  exact quiet_u64 value

/-- Looked at as a list of characters. -/
theorem quiet_ofList {chars : List Char} (calm : ScriptText.Calm htmlEnds chars) :
    Quiet (String.ofList chars) := by
  intro mode
  rw [String.toList_ofList]
  exact calm.scan

theorem quiet_label (label : TapeLabel) : Quiet ("\"" ++ (label.asStr ++ "\"")) := by
  have name : Quiet label.asStr := by
    cases label <;> exact quiet_ofList (by decide)
  intro mode
  have shape : ("\"" ++ (label.asStr ++ "\"")).toList = '"' :: (label.asStr.toList ++ ['"']) := by
    rw [String.toList_append, String.toList_append]
    rfl
  rw [shape, ScriptText.scan_enclosed (by decide) ⟨by decide, by decide⟩, name mode]

theorem quiet_object {fields : List (String × String)}
    (plain : ∀ name ∈ fields.map Prod.fst, Plain name)
    (quiet : ∀ text ∈ fields.map Prod.snd, Quiet text) : Quiet (formatObject fields) := by
  intro mode
  rw [scan_formatObject mode fields plain, readTexts_quiet quiet]

theorem quiet_tapeEvent (event : TapeEvent) : Quiet (tapeEventJson event) := by
  apply quiet_object
  · simp only [List.map_cons, List.map_nil]
    decide
  · simp only [List.map_cons, List.map_nil, List.forall_mem_cons]
    exact ⟨quiet_nat event.index, quiet_label event.label, quiet_u64 event.value, by simp⟩

theorem quiet_tapeEvents (report : RunReport) : Quiet (tapeEventsJson report) := by
  apply quiet_items
  intro text member
  obtain ⟨event, _, rfl⟩ := List.mem_map.mp member
  exact quiet_tapeEvent event

/-- The report is read as its recorded texts are. -/
theorem scan_runReportToJson (mode : Mode) (report : RunReport) :
    scan htmlEnds mode (runReportToJson report).toList =
      readTexts recordedEnds mode report.recorded := by
  have schema : Quiet "2" := Plain.quiet (by decide)
  rw [runReportToJson, scan_formatObject]
  · simp only [List.map_cons, List.map_nil, readTexts_cons, schema _, quiet_u64 report.seed _,
      quiet_nat report.dispatched _, quiet_bool _ _, scan_stringArray, quiet_u64Array report.tapeLog _,
      quiet_tapeEvents report _, quiet_option report.tapeInputLen _, quiet_nat report.tapeCursor _,
      Option.bind_some, RunReport.recorded, readTexts_append, readTexts_nil, Option.bind_fun_some,
      Option.bind_assoc]
  · simp only [List.map_cons, List.map_nil]
    decide

theorem readTexts_sections (mode : Mode) (sections : List (Option String)) :
    readTexts htmlEnds mode (sections.map optionRawJson) =
      readTexts htmlEnds mode sections.reduceOption := by
  have null : Quiet "null" := Plain.quiet (by decide)
  induction sections generalizing mode with
  | nil => rfl
  | cons given sections ih =>
      cases given with
      | none =>
          have raw : optionRawJson none = "null" := rfl
          rw [List.map_cons, readTexts_cons, List.reduceOption_cons_of_none, raw, null mode,
            Option.bind_some, ih]
      | some json =>
          have raw : optionRawJson (some json) = json := rfl
          rw [List.map_cons, readTexts_cons, List.reduceOption_cons_of_some, readTexts_cons, raw]
          simp only [ih]

theorem scan_artifactJson (version title : String) (report : RunReport)
    (sections : List (String × Option String)) (number : Quiet version)
    (plain : ∀ name ∈ sections.map Prod.fst, Plain name) :
    scan htmlEnds .data (formatObject (("schema_version", version) :: ("title", quoted title) ::
        ("run", runReportToJson report) ::
        sections.map fun (name, json) => (name, optionRawJson json))).toList =
      readArtifact title report (sections.map Prod.snd) := by
  have fixed : ∀ name ∈ ["schema_version", "title", "run"], Plain name := by decide
  have names : ∀ name ∈ "schema_version" :: "title" :: "run" :: sections.map Prod.fst,
      Plain name :=
    fun name member => (List.mem_append.mp member).elim (fixed name) (plain name)
  have values : (sections.map fun (name, json) => (name, optionRawJson json)).map Prod.snd =
      (sections.map Prod.snd).map optionRawJson := by
    rw [List.map_map, List.map_map]
    rfl
  have whole : (sections.map fun (name, json) => (name, optionRawJson json)).map Prod.fst =
      sections.map Prod.fst := by
    rw [List.map_map]
    rfl
  rw [scan_formatObject _ _ (by simpa only [List.map_cons, whole] using names)]
  simp only [List.map_cons, readTexts_cons, number _, scan_quoted, scan_runReportToJson, values,
    readTexts_sections, readArtifact, Option.bind_some, Option.bind_assoc]

/-! The pages. -/

/-- The script after the data is calm, line by line. -/
def Template.Calm (template : Template) : Prop :=
  ∀ line ∈ template.viewer, ScriptText.Joins htmlEnds line.toList

/-- A line, looked at as a list of characters. -/
theorem calm_cons {chars : List Char} {lines : List String}
    (starts : ScriptText.Starts htmlEnds chars) (calm : ScriptText.Calm htmlEnds chars)
    (rest : ∀ line ∈ lines, ScriptText.Joins htmlEnds line.toList) :
    ∀ line ∈ String.ofList chars :: lines, ScriptText.Joins htmlEnds line.toList := by
  refine List.forall_mem_cons.mpr ⟨?_, rest⟩
  rw [String.toList_ofList]
  exact ⟨starts, calm⟩

theorem debugArtifactTemplate_calm : debugArtifactTemplate.Calm := by
  repeat refine calm_cons (by decide) (by decide) ?_
  exact List.forall_mem_nil _

theorem debugArtifactV3Template_calm : debugArtifactV3Template.Calm := by
  repeat refine calm_cons (by decide) (by decide) ?_
  exact List.forall_mem_nil _

theorem Template.Calm.viewer {template : Template} (calm : template.Calm) :
    Quiet (String.join template.viewer) ∧
      ScriptText.Starts htmlEnds (String.join template.viewer).toList := by
  have lines : ∀ piece ∈ template.viewer.map String.toList, ScriptText.Joins htmlEnds piece := by
    intro piece member
    obtain ⟨line, known, rfl⟩ := List.mem_map.mp member
    exact calm line known
  have shape : (String.join template.viewer).toList = (template.viewer.map String.toList).flatten := by
    rw [String.toList_join, List.flatMap_def]
  unfold Quiet
  rw [shape]
  exact ⟨fun mode => ScriptText.scan_flatten lines, ScriptText.starts_flatten lines⟩

theorem Template.Calm.scan_script {template : Template} (calm : template.Calm) (json : String) :
    scan htmlEnds .data (template.script json).toList = scan htmlEnds .data json.toList := by
  have start : Plain "const artifact=" := plain_ofList (by decide)
  obtain ⟨quiet, starts⟩ := calm.viewer
  rw [Template.script, String.toList_append, String.toList_append,
    ScriptText.scan_neutral_append start, ScriptText.scan_append starts]
  simp only [quiet _]
  exact Option.bind_fun_some _

theorem pageEnd_closes : ScriptText.Closes htmlEnds pageEnd.toList.tail where
  shown mode shown := by
    cases mode with
    | data => decide
    | escaped => decide
    | doubleEscaped => exact absurd rfl shown
  hidden := by decide

theorem Template.Calm.shows_iff {template : Template} (calm : template.Calm) (title json : String) :
    Shows (template.page title json) (escapeJson title) (template.script json) ↔
      occurs markup title.toList = false ∧
        ∃ mode, scan htmlEnds .data json.toList = some mode ∧ mode ≠ .doubleEscaped := by
  have whole := ScriptText.element_whole_iff (by decide) pageEnd_closes (template.script json).toList
  have front : '<' :: pageEnd.toList.tail = pageEnd.toList := by decide
  rw [front, ← String.toList_append, calm.scan_script] at whole
  rw [← whole, ← markup_escapeJson]
  constructor
  · exact fun shows => ⟨shows.heading, shows.script⟩
  · exact fun ⟨heading, script⟩ =>
      ⟨⟨String.join template.head, String.join template.sections, rfl⟩, heading, script⟩

theorem harmless_iff {title : String} {report : RunReport} {sections : List (Option String)} :
    Harmless title report sections ↔ occurs markup title.toList = false ∧
      ∃ mode, readArtifact title report sections = some mode ∧ mode ≠ .doubleEscaped :=
  ⟨fun harmless => ⟨harmless.heading, harmless.texts⟩, fun ⟨heading, texts⟩ => ⟨heading, texts⟩⟩

theorem debugArtifactHtml_shows_iff (artifact : DebugArtifact) :
    Shows (debugArtifactHtml artifact) (escapeJson artifact.title)
        (debugArtifactTemplate.script (debugArtifactToJson artifact)) ↔
      Harmless artifact.title artifact.run [artifact.experimentJson, artifact.checkerJson,
        artifact.shrinkJson, artifact.failureSignatureJson] := by
  have json := scan_artifactJson "2" artifact.title artifact.run
    [("experiment", artifact.experimentJson), ("checker", artifact.checkerJson),
      ("shrink", artifact.shrinkJson), ("failure_signature", artifact.failureSignatureJson)]
    (Plain.quiet (by decide)) (by simp only [List.map_cons, List.map_nil]; decide)
  simp only [List.map_cons, List.map_nil] at json
  rw [debugArtifactHtml, debugArtifactTemplate_calm.shows_iff, debugArtifactToJson, json, harmless_iff]

theorem debugArtifactV3Html_shows_iff (artifact : DebugArtifactV3) :
    Shows (debugArtifactV3Html artifact) (escapeJson artifact.title)
        (debugArtifactV3Template.script (debugArtifactV3ToJson artifact)) ↔
      Harmless artifact.title artifact.run [artifact.experimentJson, artifact.searchJson,
        artifact.checkerJson, artifact.shrinkJson, artifact.failureSignatureJson,
        artifact.coverageJson, artifact.causalGraphJson, artifact.environmentJson] := by
  have json := scan_artifactJson "3" artifact.title artifact.run
    [("experiment", artifact.experimentJson), ("search", artifact.searchJson),
      ("checker", artifact.checkerJson), ("shrink", artifact.shrinkJson),
      ("failure_signature", artifact.failureSignatureJson), ("coverage", artifact.coverageJson),
      ("causal_graph", artifact.causalGraphJson), ("environment", artifact.environmentJson)]
    (Plain.quiet (by decide)) (by simp only [List.map_cons, List.map_nil]; decide)
  simp only [List.map_cons, List.map_nil] at json
  rw [debugArtifactV3Html, debugArtifactV3Template_calm.shows_iff, debugArtifactV3ToJson, json,
    harmless_iff]

/-- The title of a timeline opens nothing, so all depends on what was recorded. -/
theorem timelineHtml_shows_iff (report : RunReport) :
    Shows (timelineHtml report) (escapeJson (timelineArtifact report).title)
        (debugArtifactTemplate.script (debugArtifactToJson (timelineArtifact report))) ↔
      ∃ mode, readTexts recordedEnds .data report.recorded = some mode ∧ mode ≠ .doubleEscaped := by
  have words : Plain "detersim trace seed " := plain_ofList (by decide)
  have title : Plain (timelineArtifact report).title := by
    have shape : (timelineArtifact report).title.toList =
        "detersim trace seed ".toList ++ (toString report.seed.toNat).toList := String.toList_append
    intro ch member
    rw [shape] at member
    exact (List.mem_append.mp member).elim (words ch) (plain_nat report.seed.toNat ch)
  have plain : occurs markup (timelineArtifact report).title.toList = false := by
    rw [← List.append_nil (timelineArtifact report).title.toList,
      ScriptText.occurs_neutral_append title]
    decide
  have texts : readArtifact (timelineArtifact report).title report [none, none, none, none] =
      readTexts recordedEnds .data report.recorded := by
    rw [readArtifact, readTexts_cons, ScriptText.scan_neutral title]
    exact Option.bind_fun_some _
  rw [timelineHtml, debugArtifactHtml_shows_iff, harmless_iff]
  exact (and_iff_right plain).trans (by rw [← texts]; rfl)

/-- A page shows its title as text and has all of its script just if the title opens
no tag, and no tag in what was recorded ends the script or hides its end. -/
theorem debug_pages_show_iff (artifact : DebugArtifact) (artifactV3 : DebugArtifactV3) :
    (Shows (debugArtifactHtml artifact) (escapeJson artifact.title)
        (debugArtifactTemplate.script (debugArtifactToJson artifact)) ↔
      Harmless artifact.title artifact.run [artifact.experimentJson, artifact.checkerJson,
        artifact.shrinkJson, artifact.failureSignatureJson]) ∧
    (Shows (debugArtifactV3Html artifactV3) (escapeJson artifactV3.title)
        (debugArtifactV3Template.script (debugArtifactV3ToJson artifactV3)) ↔
      Harmless artifactV3.title artifactV3.run [artifactV3.experimentJson, artifactV3.searchJson,
        artifactV3.checkerJson, artifactV3.shrinkJson, artifactV3.failureSignatureJson,
        artifactV3.coverageJson, artifactV3.causalGraphJson, artifactV3.environmentJson]) :=
  ⟨debugArtifactHtml_shows_iff artifact, debugArtifactV3Html_shows_iff artifactV3⟩

/-- A world in which one history entry was recorded. -/
def taggedWorld : Inner Unit Unit :=
  ((Inner.generate 0 {}).operate Inner.noPlans
    (.useEnv (.call (.record 0 "</script>") fun _ => .done ()))).2

theorem tagged_history_breaks_out :
    ¬Shows (timelineHtml (taggedWorld.report fun _ => ""))
      (escapeJson (timelineArtifact (taggedWorld.report fun _ => "")).title)
      (debugArtifactTemplate.script
        (debugArtifactToJson (timelineArtifact (taggedWorld.report fun _ => "")))) := by
  have ended : readTexts recordedEnds .data (taggedWorld.report fun _ => "").recorded = none := by
    decide
  rw [timelineHtml_shows_iff, ended]
  rintro ⟨mode, shown, _⟩
  cases shown

end Detersim
