import Detersim.Reachable
import Detersim.Report
import Detersim.Numerals

/-!
The causal graph of a report: nodes for its lines and sections, edges between
them, both named by a section and an index.
-/

namespace Detersim

structure CausalNode where
  id : String
  kind : String
  label : String
  deriving DecidableEq

structure CausalEdge where
  source : String
  target : String
  kind : String
  deriving DecidableEq

structure CausalGraph where
  nodes : List CausalNode
  edges : List CausalEdge
  deriving DecidableEq

def messageEdge (line : String) : Option (String × String × String) := do
  let marker ←
    if contains line "deliver " then some "deliver "
    else if contains line "drop-" then do
      let (_, after) ← splitOnce "] ".toList line.toList
      let (kind, _) ← splitOnce [' '] after
      some (String.ofList kind)
    else none
  let (_, after) ← splitOnce marker.toList line.toList
  let route ← firstPart isWhiteSpace after
  let (sender, receiver) ← splitOnce "->".toList route.toList
  some (String.ofList sender, String.ofList receiver,
    if marker = "deliver " then "message-delivered" else "message-dropped")

def traceIsFaultAffected (line : String) : Bool :=
  contains line "drop-" || contains line "crash" || contains line "restart" ||
    contains line "BitRot" || contains line "TornWrite" || contains line "LostOnCrash"

def historyIsFaultAffected (line : String) : Bool :=
  contains line "storage-corruption" || contains line "raft-bug" ||
    contains line "raft-invariant" || contains line "checksum:bad" ||
    contains line "missing-message"

def traceKind (line : String) : String :=
  if contains line "deliver " then "message"
  else if contains line "timer" || contains line "sleep" then "timer"
  else if contains line "storage" then "storage"
  else "trace"

namespace CausalGraph

/-- The nodes of a trace line that carries a message. -/
def messageNodes (line : String) (idx : Nat) : List CausalNode :=
  match messageEdge line with
  | none => []
  | some (sender, receiver, kind) =>
      [⟨"message-" ++ toString idx, "message", sender ++ "->" ++ receiver⟩,
        ⟨"message-send-" ++ toString idx, "message-send", sender ++ "->" ++ receiver⟩,
        ⟨"message-result-" ++ toString idx, kind, line⟩]

def messageEdges (line : String) (idx : Nat) : List CausalEdge :=
  if (messageEdge line).isSome then
    [⟨"message-send-" ++ toString idx, "message-" ++ toString idx, "message-send"⟩,
      ⟨"message-" ++ toString idx, "message-result-" ++ toString idx, "message-delivery-result"⟩,
      ⟨"message-result-" ++ toString idx, "trace-" ++ toString idx, "rendered-as-trace"⟩]
  else []

/-- The edges of one fault, to every line it may have to do with. -/
def nemesisEdges (report : RunReport) (nemesisIdx : Nat) : List CausalEdge :=
  (report.trace.zipIdx.flatMap fun (line, idx) =>
    if traceIsFaultAffected line then
      [⟨"nemesis-" ++ toString nemesisIdx, "trace-" ++ toString idx, "nemesis-affects-trace"⟩]
    else []) ++
  report.history.zipIdx.flatMap fun (line, idx) =>
    if historyIsFaultAffected line then
      [⟨"nemesis-" ++ toString nemesisIdx, "history-" ++ toString idx, "nemesis-affects-history"⟩]
    else []

def fromSections (report : RunReport) (checkerJson shrinkJson : Option String) : CausalGraph where
  nodes :=
    (report.nemesisTrace.zipIdx.map fun (line, idx) =>
      ⟨"nemesis-" ++ toString idx, "nemesis", line⟩) ++
    (report.trace.zipIdx.map fun (line, idx) =>
      ⟨"trace-" ++ toString idx, traceKind line, line⟩) ++
    (report.history.zipIdx.map fun (line, idx) =>
      ⟨"history-" ++ toString idx, "history", line⟩) ++
    (report.trace.zipIdx.flatMap fun (line, idx) => messageNodes line idx) ++
    (checkerJson.toList.map fun checker => ⟨"checker-0", "checker", checker⟩) ++
    (shrinkJson.toList.map fun shrink => ⟨"shrink-0", "shrink", shrink⟩)
  edges :=
    ((List.range' 1 (report.trace.length - 1)).map fun idx =>
      ⟨"trace-" ++ toString (idx - 1), "trace-" ++ toString idx, "trace-order"⟩) ++
    ((List.range report.history.length).flatMap fun idx =>
      if report.trace.isEmpty then []
      else [⟨"trace-" ++ toString (report.trace.length - 1), "history-" ++ toString idx,
        "observed-as"⟩]) ++
    (report.trace.zipIdx.flatMap fun (line, idx) => messageEdges line idx) ++
    ((List.range report.nemesisTrace.length).flatMap (nemesisEdges report)) ++
    (if checkerJson.isSome then
      (List.range report.history.length).map fun idx =>
        ⟨"checker-0", "history-" ++ toString idx, "checker-conflict-op"⟩
    else []) ++
    (if shrinkJson.isSome then
      [⟨"shrink-0", if report.history.isEmpty then "trace-0" else "history-0",
        "preserves-failure"⟩]
    else [])

def ids (graph : CausalGraph) : List String := graph.nodes.map CausalNode.id

structure WellFormed (graph : CausalGraph) : Prop where
  distinct : graph.ids.Nodup
  closed : ∀ edge ∈ graph.edges, edge.source ∈ graph.ids ∧ edge.target ∈ graph.ids

/-! What an id stands for. -/

inductive Section where
  | nemesis | trace | history | message | messageSend | messageResult | checker | shrink
  deriving DecidableEq

def Section.pre : Section → String
  | .nemesis => "nemesis-"
  | .trace => "trace-"
  | .history => "history-"
  | .message => "message-"
  | .messageSend => "message-send-"
  | .messageResult => "message-result-"
  | .checker => "checker-"
  | .shrink => "shrink-"

structure Ref where
  kind : Section
  index : Nat

def Ref.id (ref : Ref) : String := ref.kind.pre ++ toString ref.index

theorem pre_injective {left right : Section} (same : left.pre = right.pre) : left = right := by
  cases left <;> cases right <;> first | rfl | exact absurd same (by decide)

theorem pre_ends (kind : Section) : kind.pre.toList.getLast? = some '-' := by
  cases kind <;> decide

theorem id_injective {left right : Ref} (same : left.id = right.id) : left = right := by
  obtain ⟨kind, index⟩ := left
  obtain ⟨other, number⟩ := right
  have chars := congrArg String.toList same
  simp only [Ref.id, String.toList_append, Nat.toString_eq_repr, Nat.toList_repr] at chars
  obtain ⟨pres, digits⟩ := Numerals.split_digits (by decide) (pre_ends kind) (pre_ends other)
    (Numerals.allDigits_toDigits index) (Numerals.allDigits_toDigits number) chars
  have kinds := pre_injective (String.toList_injective pres)
  have indices := congrArg (Nat.ofDigitChars 10 · 0) digits
  rw [Nat.ofDigitChars_ten_toDigits, Nat.ofDigitChars_ten_toDigits] at indices
  rw [kinds, indices]

/-- The lines of the report, and the sections given, that a node stands for. -/
def Present (report : RunReport) (checkerJson shrinkJson : Option String) (ref : Ref) : Prop :=
  match ref.kind with
  | .nemesis => ref.index < report.nemesisTrace.length
  | .trace => ref.index < report.trace.length
  | .history => ref.index < report.history.length
  | .message | .messageSend | .messageResult =>
      ∃ line, report.trace[ref.index]? = some line ∧ (messageEdge line).isSome
  | .checker => checkerJson.isSome ∧ ref.index = 0
  | .shrink => shrinkJson.isSome ∧ ref.index = 0

/-- One name for each line. -/
def numbered (kind : Section) (lines : List String) : List Ref :=
  (List.range lines.length).map fun idx => ⟨kind, idx⟩

def messageRefs (line : String) (idx : Nat) : List Ref :=
  if (messageEdge line).isSome then [⟨.message, idx⟩, ⟨.messageSend, idx⟩, ⟨.messageResult, idx⟩]
  else []

def refs (report : RunReport) (checkerJson shrinkJson : Option String) : List Ref :=
  numbered .nemesis report.nemesisTrace ++ numbered .trace report.trace ++
    numbered .history report.history ++
    (report.trace.zipIdx.flatMap fun (line, idx) => messageRefs line idx) ++
    (checkerJson.toList.map fun _ => ⟨.checker, 0⟩) ++ (shrinkJson.toList.map fun _ => ⟨.shrink, 0⟩)

theorem ids_numbered (kind : Section) (lines : List String) (node : String × Nat → CausalNode)
    (named : ∀ entry, (node entry).id = (Ref.mk kind entry.2).id) :
    (lines.zipIdx.map node).map CausalNode.id = (numbered kind lines).map Ref.id := by
  rw [numbered, List.map_map, List.map_map, List.range_eq_range', ← List.zipIdx_map_snd 0,
    List.map_map]
  exact List.map_congr_left fun entry _ => named entry

theorem checker_id : "checker-0" = (Ref.mk .checker 0).id := by decide

theorem shrink_id : "shrink-0" = (Ref.mk .shrink 0).id := by decide

theorem trace_id : "trace-0" = (Ref.mk .trace 0).id := by decide

theorem history_id : "history-0" = (Ref.mk .history 0).id := by decide

theorem ids_single (kind : Section) (json : Option String) (node : String → CausalNode)
    (named : ∀ text, (node text).id = (Ref.mk kind 0).id) :
    (json.toList.map node).map CausalNode.id =
      (json.toList.map fun _ => Ref.mk kind 0).map Ref.id := by
  rw [List.map_map, List.map_map]
  exact List.map_congr_left fun text _ => named text

theorem ids_message (line : String) (idx : Nat) :
    (messageNodes line idx).map CausalNode.id = (messageRefs line idx).map Ref.id := by
  unfold messageNodes messageRefs
  cases messageEdge line with
  | none => rfl
  | some route => rfl

theorem ids_fromSections (report : RunReport) (checkerJson shrinkJson : Option String) :
    (fromSections report checkerJson shrinkJson).ids =
      (refs report checkerJson shrinkJson).map Ref.id := by
  simp only [ids, fromSections, refs, List.map_append, List.map_flatMap, ids_message]
  rw [ids_numbered .nemesis _ _ fun _ => rfl, ids_numbered .trace _ _ fun _ => rfl,
    ids_numbered .history _ _ fun _ => rfl]
  rw [ids_single .checker _ _ fun _ => checker_id, ids_single .shrink _ _ fun _ => shrink_id]

theorem mem_numbered {kind : Section} {lines : List String} {ref : Ref} :
    ref ∈ numbered kind lines ↔ ref.kind = kind ∧ ref.index < lines.length := by
  obtain ⟨other, index⟩ := ref
  simp only [numbered, List.mem_map, List.mem_range, Ref.mk.injEq]
  constructor
  · rintro ⟨_, below, rfl, rfl⟩
    exact ⟨rfl, below⟩
  · rintro ⟨rfl, below⟩
    exact ⟨index, below, rfl, rfl⟩

theorem mem_messageRefs {line : String} {idx : Nat} {ref : Ref} :
    ref ∈ messageRefs line idx ↔ (messageEdge line).isSome ∧ ref.index = idx ∧
      (ref.kind = .message ∨ ref.kind = .messageSend ∨ ref.kind = .messageResult) := by
  obtain ⟨kind, index⟩ := ref
  unfold messageRefs
  split_ifs with carries
  · simp only [List.mem_cons, Ref.mk.injEq, List.not_mem_nil, or_false, carries, true_and]
    tauto
  · simp [carries]

theorem mem_traceRefs {lines : List String} {ref : Ref} :
    (ref ∈ lines.zipIdx.flatMap fun (line, idx) => messageRefs line idx) ↔
      (∃ line, lines[ref.index]? = some line ∧ (messageEdge line).isSome) ∧
        (ref.kind = .message ∨ ref.kind = .messageSend ∨ ref.kind = .messageResult) := by
  simp only [List.mem_flatMap, Prod.exists, List.mk_mem_zipIdx_iff_getElem?, mem_messageRefs]
  constructor
  · rintro ⟨line, _, present, carries, rfl, kinds⟩
    exact ⟨⟨line, present, carries⟩, kinds⟩
  · rintro ⟨⟨line, present, carries⟩, kinds⟩
    exact ⟨line, ref.index, present, carries, rfl, kinds⟩

theorem mem_refs {report : RunReport} {checkerJson shrinkJson : Option String} {ref : Ref} :
    ref ∈ refs report checkerJson shrinkJson ↔ Present report checkerJson shrinkJson ref := by
  obtain ⟨kind, index⟩ := ref
  simp only [refs, List.mem_append, mem_numbered, mem_traceRefs]
  cases checkerJson <;> cases shrinkJson <;> cases kind <;> simp [Present]

/-- Names of different kinds do not meet. -/
theorem nodup_append_of_kinds {first second : List Ref} (firstNodup : first.Nodup)
    (secondNodup : second.Nodup) (apart : ∀ left ∈ first, ∀ right ∈ second, left.kind ≠ right.kind) :
    (first ++ second).Nodup :=
  List.nodup_append.mpr ⟨firstNodup, secondNodup,
    fun left leftIn right rightIn same => apart left leftIn right rightIn (congrArg Ref.kind same)⟩

theorem nodup_numbered (kind : Section) (lines : List String) : (numbered kind lines).Nodup :=
  List.nodup_range.map fun _ _ same => (Ref.mk.inj same).2

theorem nodup_messageRefs (line : String) (idx : Nat) : (messageRefs line idx).Nodup := by
  unfold messageRefs
  split_ifs
  · simp
  · exact List.nodup_nil

theorem nodup_traceRefs (lines : List String) :
    (lines.zipIdx.flatMap fun (line, idx) => messageRefs line idx).Nodup := by
  have indices : lines.zipIdx.Pairwise fun left right => left.2 ≠ right.2 := by
    have all : (lines.zipIdx.map Prod.snd).Nodup := by
      rw [List.zipIdx_map_snd]
      exact List.nodup_range'
    exact List.pairwise_map.mp all
  refine List.nodup_flatMap.mpr ⟨fun entry _ => nodup_messageRefs entry.1 entry.2, ?_⟩
  refine indices.imp ?_
  intro left right different ref inLeft inRight
  exact different ((mem_messageRefs.mp inLeft).2.1.symm.trans (mem_messageRefs.mp inRight).2.1)

theorem nodup_single (kind : Section) (json : Option String) :
    (json.toList.map fun _ => Ref.mk kind 0).Nodup := by
  cases json <;> simp

theorem nodup_refs (report : RunReport) (checkerJson shrinkJson : Option String) :
    (refs report checkerJson shrinkJson).Nodup := by
  refine nodup_append_of_kinds (nodup_append_of_kinds (nodup_append_of_kinds (nodup_append_of_kinds
    (nodup_append_of_kinds (nodup_numbered _ _) (nodup_numbered _ _) ?_) (nodup_numbered _ _) ?_)
    (nodup_traceRefs _) ?_) (nodup_single _ _) ?_) (nodup_single _ _) ?_
  all_goals
    intro left leftIn right rightIn same
    simp only [List.mem_append, mem_numbered, mem_traceRefs, List.mem_map] at leftIn rightIn
    grind

theorem distinct_fromSections (report : RunReport) (checkerJson shrinkJson : Option String) :
    (fromSections report checkerJson shrinkJson).ids.Nodup := by
  rw [ids_fromSections]
  exact (nodup_refs report checkerJson shrinkJson).map fun _ _ => id_injective

theorem mem_ids {report : RunReport} {checkerJson shrinkJson : Option String} {ref : Ref} :
    ref.id ∈ (fromSections report checkerJson shrinkJson).ids ↔
      Present report checkerJson shrinkJson ref := by
  rw [ids_fromSections, List.mem_map_of_injective fun _ _ => id_injective, mem_refs]

/-! Edges. -/

/-- The edge joins two names that are there. -/
def Joins (there : Ref → Prop) (edge : CausalEdge) : Prop :=
  ∃ source target : Ref, edge.source = source.id ∧ edge.target = target.id ∧
    there source ∧ there target

section Edges

variable {report : RunReport} {checkerJson shrinkJson : Option String} {edge : CausalEdge}

theorem messageEdges_join {line : String} {idx : Nat} (present : report.trace[idx]? = some line)
    (member : edge ∈ messageEdges line idx) : Joins (Present report checkerJson shrinkJson) edge := by
  unfold messageEdges at member
  split_ifs at member with carries
  · have message : ∃ line, report.trace[idx]? = some line ∧ (messageEdge line).isSome :=
      ⟨line, present, carries⟩
    have there : idx < report.trace.length := (List.getElem?_eq_some_iff.mp present).1
    simp only [List.mem_cons, List.not_mem_nil, or_false] at member
    rcases member with rfl | rfl | rfl
    · exact ⟨⟨.messageSend, idx⟩, ⟨.message, idx⟩, rfl, rfl, message, message⟩
    · exact ⟨⟨.message, idx⟩, ⟨.messageResult, idx⟩, rfl, rfl, message, message⟩
    · exact ⟨⟨.messageResult, idx⟩, ⟨.trace, idx⟩, rfl, rfl, message, there⟩
  · cases member

theorem nemesisEdges_join {nemesisIdx : Nat} (below : nemesisIdx < report.nemesisTrace.length)
    (member : edge ∈ nemesisEdges report nemesisIdx) :
    Joins (Present report checkerJson shrinkJson) edge := by
  simp only [nemesisEdges, List.mem_append, List.mem_flatMap, Prod.exists,
    List.mk_mem_zipIdx_iff_getElem?] at member
  rcases member with ⟨line, idx, present, member⟩ | ⟨line, idx, present, member⟩
  all_goals
    have there := (List.getElem?_eq_some_iff.mp present).1
    split_ifs at member
    · cases List.mem_singleton.mp member
      first
        | exact ⟨⟨.nemesis, nemesisIdx⟩, ⟨.trace, idx⟩, rfl, rfl, below, there⟩
        | exact ⟨⟨.nemesis, nemesisIdx⟩, ⟨.history, idx⟩, rfl, rfl, below, there⟩
    · cases member

/-- Every edge but that of the shrink section joins nodes of the graph. -/
theorem edge_joins (member : edge ∈ (fromSections report checkerJson shrinkJson).edges) :
    Joins (Present report checkerJson shrinkJson) edge ∨ shrinkJson.isSome ∧
      edge = ⟨"shrink-0", if report.history.isEmpty then "trace-0" else "history-0",
        "preserves-failure"⟩ := by
  simp only [fromSections, List.mem_append] at member
  rcases member with ((((order | observed) | message) | nemesis) | checker) | shrink
  · left
    obtain ⟨idx, inside, rfl⟩ := List.mem_map.mp order
    obtain ⟨first, last⟩ := List.mem_range'_1.mp inside
    have there : idx < report.trace.length := by omega
    exact ⟨⟨.trace, idx - 1⟩, ⟨.trace, idx⟩, rfl, rfl, (Nat.sub_le idx 1).trans_lt there, there⟩
  · left
    obtain ⟨idx, inside, member⟩ := List.mem_flatMap.mp observed
    split_ifs at member with empty
    · cases member
    · cases List.mem_singleton.mp member
      have some_ : 0 < report.trace.length := by
        simpa [List.isEmpty_iff, List.length_pos_iff] using empty
      exact ⟨⟨.trace, report.trace.length - 1⟩, ⟨.history, idx⟩, rfl, rfl,
        Nat.sub_lt some_ Nat.one_pos, List.mem_range.mp inside⟩
  · left
    obtain ⟨⟨line, idx⟩, inside, member⟩ := List.mem_flatMap.mp message
    exact messageEdges_join (List.mk_mem_zipIdx_iff_getElem?.mp inside) member
  · left
    obtain ⟨idx, inside, member⟩ := List.mem_flatMap.mp nemesis
    exact nemesisEdges_join (List.mem_range.mp inside) member
  · left
    split_ifs at checker with given
    · obtain ⟨idx, inside, rfl⟩ := List.mem_map.mp checker
      exact ⟨⟨.checker, 0⟩, ⟨.history, idx⟩, checker_id, rfl, ⟨given, rfl⟩,
        List.mem_range.mp inside⟩
    · cases checker
  · right
    by_cases given : shrinkJson.isSome = true
    · rw [if_pos given] at shrink
      exact ⟨given, List.mem_singleton.mp shrink⟩
    · rw [if_neg given] at shrink
      cases shrink

theorem shrink_joins (given : shrinkJson.isSome) (some_ : ¬(report.trace = [] ∧ report.history = [])) :
    Joins (Present report checkerJson shrinkJson)
      ⟨"shrink-0", if report.history.isEmpty then "trace-0" else "history-0",
        "preserves-failure"⟩ := by
  have zero_lt {lines : List String} (nonempty : lines ≠ []) : 0 < lines.length :=
    List.length_pos_iff.mpr nonempty
  split_ifs with noHistory
  · have noHistory := List.isEmpty_iff.mp noHistory
    have trace : report.trace ≠ [] := fun noTrace => some_ ⟨noTrace, noHistory⟩
    exact ⟨⟨.shrink, 0⟩, ⟨.trace, 0⟩, shrink_id, trace_id, ⟨given, rfl⟩, zero_lt trace⟩
  · have history : report.history ≠ [] := fun empty => noHistory (List.isEmpty_iff.mpr empty)
    exact ⟨⟨.shrink, 0⟩, ⟨.history, 0⟩, shrink_id, history_id, ⟨given, rfl⟩, zero_lt history⟩

end Edges

theorem fromSections_wellFormed (report : RunReport) (checkerJson shrinkJson : Option String)
    (some_ : shrinkJson.isSome → ¬(report.trace = [] ∧ report.history = [])) :
    (fromSections report checkerJson shrinkJson).WellFormed := by
  refine ⟨distinct_fromSections report checkerJson shrinkJson, ?_⟩
  intro edge member
  have joins : Joins (Present report checkerJson shrinkJson) edge := by
    rcases edge_joins member with joins | ⟨given, rfl⟩
    · exact joins
    · exact shrink_joins given (some_ given)
  obtain ⟨source, target, starts, ends, sourceThere, targetThere⟩ := joins
  rw [starts, ends]
  exact ⟨mem_ids.mpr sourceThere, mem_ids.mpr targetThere⟩

/-- The graph is well formed unless a shrink section comes with a report that has
neither a trace nor a history: its edge then ends at a line that is not there. -/
theorem fromSections_wellFormed_iff (report : RunReport) (checkerJson shrinkJson : Option String) :
    (fromSections report checkerJson shrinkJson).WellFormed ↔
      ¬(shrinkJson.isSome ∧ report.trace = [] ∧ report.history = []) := by
  constructor
  · rintro wellFormed ⟨given, noTrace, noHistory⟩
    have edge : (⟨"shrink-0", "trace-0", "preserves-failure"⟩ : CausalEdge) ∈
        (fromSections report checkerJson shrinkJson).edges := by
      simp [fromSections, given, noHistory]
    have ends := (wellFormed.closed _ edge).2
    rw [trace_id] at ends
    have below : 0 < report.trace.length := mem_ids.mp ends
    rw [noTrace] at below
    exact absurd below (Nat.lt_irrefl 0)
  · intro fine
    exact fromSections_wellFormed report checkerJson shrinkJson fun given empty =>
      fine ⟨given, empty⟩

/-- The report of a world in which nothing was started. -/
def idleReport : RunReport := (Inner.generate 0 {} : Inner Unit Unit).report fun _ => ""

theorem idle_shrink_dangles : ¬(fromSections idleReport none (some "\x7b\x7d")).WellFormed := by
  intro wellFormed
  have edge : (⟨"shrink-0", "trace-0", "preserves-failure"⟩ : CausalEdge) ∈
      (fromSections idleReport none (some "\x7b\x7d")).edges := by decide
  have named : (fromSections idleReport none (some "\x7b\x7d")).ids = ["shrink-0"] := by decide
  have ends := (wellFormed.closed _ edge).2
  rw [named] at ends
  exact absurd ends (by decide)

end CausalGraph

end Detersim
