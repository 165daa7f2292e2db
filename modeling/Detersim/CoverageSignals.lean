import Detersim.TraceText

/-!
What coverage reads off the rendered line of each kind of event. The line of a
delivery ends in the text of the message, so a message can feign an event.
-/

namespace Detersim

def edgeText (sender receiver : NodeId) : String :=
  toString sender ++ "->" ++ toString receiver

def edgeSignal (sender receiver : NodeId) : String :=
  "message-edge:" ++ edgeText sender receiver

def DropKind.signal : DropKind → String
  | .unregistered => "network:unregistered"
  | .crashed => "network:crashed"
  | .partition => "network:partition"
  | .random => "network:random"

/-- What is looked for in a line, and the signal it gives. -/
def markers : List (String × String) :=
  [("timer fire=", "timer:fire"), ("poll task=", "task:poll"), (" nemesis ", "nemesis:event")]

/-- The signals a text gives that has these. -/
def markerSignals (text : String) : List String :=
  (if contains text "timer fire=" then ["timer:fire"] else []) ++
    (if contains text "poll task=" then ["task:poll"] else []) ++
    (if contains text " nemesis " then ["nemesis:event"] else [])

/-- What is read off one line. -/
def lineSignals (line : String) : List String :=
  ((traceEdge line).map ("message-edge:" ++ ·)).toList ++
    ((traceDropKind line).map ("network:" ++ ·)).toList ++
    (if contains line "timer fire=" then ["timer:fire"] else []) ++
    (if contains line "poll task=" then ["task:poll"] else []) ++
    (if contains line " nemesis " then ["nemesis:event"] else [])

theorem mem_markerSignals {text signal : String} :
    signal ∈ markerSignals text ↔ ∃ marker ∈ markers, contains text marker.1 = true ∧
      signal = marker.2 := by
  simp only [markerSignals, markers, List.mem_append, List.exists_mem_cons_iff]
  have one (part other : String) : (signal ∈ if contains text part = true then [other] else []) ↔
      contains text part = true ∧ signal = other := by
    split_ifs with found <;> simp [found]
  simp only [one]
  simp [or_assoc]

/-! Looking behind a stamp. -/

theorem finds_timer (time : UInt64) (seq : Nat) (body : String) :
    contains (stamp time seq ++ body) "timer fire=" = true ↔
      "timer fire=".toList <:+: ' ' :: body.toList :=
  contains_stamp 'f' (by decide) (by decide) ⟨by decide, by decide, by decide⟩ time seq body

theorem finds_poll (time : UInt64) (seq : Nat) (body : String) :
    contains (stamp time seq ++ body) "poll task=" = true ↔
      "poll task=".toList <:+: ' ' :: body.toList :=
  contains_stamp 'k' (by decide) (by decide) ⟨by decide, by decide, by decide⟩ time seq body

theorem finds_nemesis (time : UInt64) (seq : Nat) (body : String) :
    contains (stamp time seq ++ body) " nemesis " = true ↔
      " nemesis ".toList <:+: ' ' :: body.toList :=
  contains_stamp 'm' (by decide) (by decide) ⟨by decide, by decide, by decide⟩ time seq body

section Lines

variable {payload : Message → String} {time : UInt64} {seq : Nat}

/-- Nothing after the blank could end a marker. -/
theorem markerSignals_stamp {body : String} {head tail : List Char}
    (shape : body.toList = head ++ tail) (equals : '=' ∉ tail) (blank : ' ' ∉ tail) :
    markerSignals (stamp time seq ++ body) = markerSignals (String.ofList (' ' :: head)) := by
  have same {part : String} {last : Char} (ends : part.toList.getLast? = some last)
      (absent : last ∉ tail)
      (found : contains (stamp time seq ++ body) part = true ↔
        part.toList <:+: ' ' :: body.toList) :
      contains (stamp time seq ++ body) part = contains (String.ofList (' ' :: head)) part := by
    rw [Bool.eq_iff_iff, found, contains_ofList, shape, ← List.cons_append]
    constructor
    · exact infix_of_last ends absent
    · exact fun inside => inside.trans (List.prefix_append _ _).isInfix
  rw [markerSignals, same rfl equals (finds_timer time seq body),
    same rfl equals (finds_poll time seq body), same rfl blank (finds_nemesis time seq body)]
  rfl

/-- A line that delivers nothing: its first word, and the markers before its tail. -/
theorem lineSignals_stamp {body : String} {tail : List Char} (word rest : List Char)
    (shape : body.toList = word ++ ' ' :: rest ++ tail) (some_ : word ≠ [])
    (solid : ∀ ch ∈ word, isWhiteSpace ch = false) (edge : 'v' ∉ word ++ ' ' :: rest)
    (absent : ∀ ch ∈ ['v', '=', ' '], ch ∉ tail) :
    lineSignals (stamp time seq ++ body) =
      (if "drop-".toList.isPrefixOf word then ["network:" ++ String.ofList (word.drop 5)]
        else []) ++ markerSignals (String.ofList (' ' :: (word ++ ' ' :: rest))) := by
  have foreign : Foreign 'v' := ⟨by decide, by decide, by decide⟩
  have noEdge : traceEdge (stamp time seq ++ body) = none := by
    refine traceEdge_none (by decide : 'v' ∈ "deliver ".toList) ?_
    rw [Lacks, stamp_toList, shape]
    simp only [List.mem_append, List.mem_cons, not_or] at edge ⊢
    exact ⟨lacks_stampFront foreign time seq, by decide, by decide, edge, absent 'v' (by simp)⟩
  have drop : traceDropKind (stamp time seq ++ body) = _ :=
    traceDropKind_stamp (shape.trans (List.append_assoc word (' ' :: rest) tail)) some_ solid
  have markers : markerSignals (stamp time seq ++ body) = _ :=
    markerSignals_stamp shape (absent '=' (by simp)) (absent ' ' (by simp))
  rw [← markers, lineSignals, noEdge, drop, markerSignals]
  split_ifs <;> rfl

theorem numeral_tail (value : Nat) : ∀ ch ∈ ['v', '=', ' '], ch ∉ (toString value).toList := by
  simp only [List.forall_mem_cons]
  exact ⟨lacks_nat (by decide) value, lacks_nat (by decide) value, lacks_nat (by decide) value,
    List.forall_mem_nil _⟩

/-- The name of a fault action has no marker of another event. -/
theorem markerSignals_nemesis (action : NemesisAction) :
    markerSignals (String.ofList (' ' :: (['n', 'e', 'm', 'e', 's', 'i', 's'] ++
      ' ' :: action.debug.toList))) = ["nemesis:event"] := by
  have debug : '=' ∉ action.debug.toList := lacks_action equals_unspoken action
  have equals : '=' ∉ ' ' :: (['n', 'e', 'm', 'e', 's', 'i', 's'] ++ ' ' :: action.debug.toList) := by
    simp [debug]
  have front : [' ', 'n', 'e', 'm', 'e', 's', 'i', 's', ' '] <+:
      ' ' :: (['n', 'e', 'm', 'e', 's', 'i', 's'] ++ ' ' :: action.debug.toList) :=
    List.prefix_append _ _
  generalize ' ' :: (['n', 'e', 'm', 'e', 's', 'i', 's'] ++ ' ' :: action.debug.toList) = text
    at equals front
  have absent {part : String} (inside : '=' ∈ part.toList) :
      ¬contains (String.ofList text) part = true := by
    rw [contains_ofList]
    exact not_infix_of_mem inside equals
  have found : contains (String.ofList text) " nemesis " = true := by
    rw [contains_ofList]
    exact front.isInfix
  rw [markerSignals, if_neg (absent (by decide)), if_neg (absent (by decide)), if_pos found]
  rfl

theorem DropKind.asStr_solid (kind : DropKind) :
    ∀ ch ∈ kind.asStr.toList, isWhiteSpace ch = false := by
  have solid : (kind.asStr.toList.all fun ch => !isWhiteSpace ch) = true := by cases kind <;> decide
  intro ch member
  exact Bool.not_eq_true' _ |>.mp (List.all_eq_true.mp solid ch member)

theorem lacks_edgeText {ch : Char} (digit : ch.isDigit = false) (arrow : ch ∉ ['-', '>'])
    (sender receiver : NodeId) : Lacks ch (edgeText sender receiver) :=
  ((lacks_nat digit sender).append (lacks_ofList arrow)).append (lacks_nat digit receiver)

theorem edgeText_solid (sender receiver : NodeId) :
    ∀ ch ∈ (edgeText sender receiver).toList, isWhiteSpace ch = false := by
  intro ch member
  rw [← Bool.not_eq_true]
  intro blank
  refine lacks_edgeText (not_digit_of_whiteSpace blank) ?_ sender receiver member
  rintro arrow
  rcases List.mem_pair.mp arrow with rfl | rfl
  · exact absurd blank (by decide)
  · exact absurd blank (by decide)

theorem edgeText_ne_nil (sender receiver : NodeId) : (edgeText sender receiver).toList ≠ [] := by
  simp [edgeText, String.toList_append]

theorem traceEdge_deliver {body : String} {rest : List Char} (sender receiver : NodeId)
    (shape : body.toList = "deliver ".toList ++ ((edgeText sender receiver).toList ++ ' ' :: rest)) :
    traceEdge (stamp time seq ++ body) = some (edgeText sender receiver) := by
  have foreign : Foreign 'd' := ⟨by decide, by decide, by decide⟩
  have fresh : 'd' ∉ (stampFront time seq).toList ++ [']', ' '] := by
    rw [List.mem_append, not_or]
    exact ⟨lacks_stampFront foreign time seq, by decide⟩
  have split : splitOnce "deliver ".toList (stamp time seq ++ body).toList =
      some ((stampFront time seq).toList ++ [']', ' '],
        (edgeText sender receiver).toList ++ ' ' :: rest) := by
    have found := splitOnce_first fresh ['e', 'l', 'i', 'v', 'e', 'r', ' ']
      ((edgeText sender receiver).toList ++ ' ' :: rest)
    rw [List.append_assoc] at found
    rw [stamp_toList, shape]
    exact found
  have first : firstPart isWhiteSpace ((edgeText sender receiver).toList ++ ' ' :: rest) =
      some (edgeText sender receiver) := by
    rw [firstPart_word (edgeText_ne_nil sender receiver) (edgeText_solid sender receiver)
      (by decide), String.ofList_toList]
  simp only [traceEdge, split, Option.bind_some, first]

/-- A marker in a delivery is one in its message: there is none before the quote. -/
theorem contains_deliver {body part : String} {head text : List Char} {letter : Char}
    (shape : body.toList = head ++ '"' :: text) (quote : '"' ∉ part.toList)
    (inside : letter ∈ part.toList) (absent : letter ∉ ' ' :: head)
    (found : contains (stamp time seq ++ body) part = true ↔ part.toList <:+: ' ' :: body.toList)
    {msg : String} (quoted : msg.toList = '"' :: text) :
    contains (stamp time seq ++ body) part = contains msg part := by
  rw [Bool.eq_iff_iff, found, contains_iff, shape, quoted, ← List.cons_append]
  constructor
  · intro marker
    rcases infix_split quote marker with early | late
    · exact absurd early (not_infix_of_mem inside absent)
    · exact List.infix_cons late
  · exact fun marker => marker.trans (List.suffix_append _ _).isInfix

/-! The line of each kind of event. -/

variable (payload time seq)

theorem timer_line (timer : TimerId) :
    lineSignals (render payload ⟨time, seq, .timerFire timer⟩) = ["timer:fire"] := by
  have line : render payload ⟨time, seq, .timerFire timer⟩ =
      stamp time seq ++ ("timer fire=" ++ toString timer) := rfl
  rw [line, lineSignals_stamp ['t', 'i', 'm', 'e', 'r'] ['f', 'i', 'r', 'e', '=']
    (String.toList_append ..) (by decide) (by simp [isWhiteSpace]) (by decide) (numeral_tail timer)]
  decide

theorem poll_line (task : TaskId) :
    lineSignals (render payload ⟨time, seq, .pollTask task⟩) = ["task:poll"] := by
  have line : render payload ⟨time, seq, .pollTask task⟩ =
      stamp time seq ++ ("poll task=" ++ toString task) := rfl
  rw [line, lineSignals_stamp ['p', 'o', 'l', 'l'] ['t', 'a', 's', 'k', '=']
    (String.toList_append ..) (by decide) (by simp [isWhiteSpace]) (by decide) (numeral_tail task)]
  decide

theorem nemesis_line (action : NemesisAction) :
    lineSignals (render payload ⟨time, seq, .nemesis action⟩) = ["nemesis:event"] := by
  have line : render payload ⟨time, seq, .nemesis action⟩ =
      stamp time seq ++ ("nemesis " ++ action.debug) := rfl
  have shape : ("nemesis " ++ action.debug).toList =
      ['n', 'e', 'm', 'e', 's', 'i', 's'] ++ ' ' :: action.debug.toList ++ [] := by
    rw [List.append_nil]
    exact String.toList_append ..
  have debug : 'v' ∉ action.debug.toList := lacks_action v_unspoken action
  have edge : 'v' ∉ ['n', 'e', 'm', 'e', 's', 'i', 's'] ++ ' ' :: action.debug.toList := by
    simp [debug]
  rw [line, lineSignals_stamp _ _ shape (by decide) (by simp [isWhiteSpace]) edge (by simp),
    if_neg (by decide), List.nil_append]
  exact markerSignals_nemesis action

/-- The kind of a drop is the first word, and it is no marker. -/
theorem dropped_line (kind : DropKind) (sender receiver : NodeId) :
    lineSignals (TraceLine.render payload (.dropped kind time seq sender receiver)) =
      [kind.signal] := by
  have line : TraceLine.render payload (.dropped kind time seq sender receiver) =
      stamp time seq ++ kind.asStr ++ (" " ++ toString sender ++ "->" ++ toString receiver) := rfl
  have shape : (kind.asStr ++ (" " ++ toString sender ++ "->" ++ toString receiver)).toList =
      kind.asStr.toList ++ ' ' :: [] ++ (edgeText sender receiver).toList := by
    simp [edgeText, String.toList_append]
  have tail : ∀ ch ∈ ['v', '=', ' '], ch ∉ (edgeText sender receiver).toList := by
    simp only [List.forall_mem_cons]
    exact ⟨lacks_edgeText (by decide) (by decide) sender receiver,
      lacks_edgeText (by decide) (by decide) sender receiver,
      lacks_edgeText (by decide) (by decide) sender receiver, List.forall_mem_nil _⟩
  rw [line, String.append_assoc, lineSignals_stamp kind.asStr.toList [] shape
    (by cases kind <;> decide) kind.asStr_solid (by cases kind <;> decide) tail]
  cases kind <;> decide

theorem refused_line (sender receiver : NodeId) :
    lineSignals (TraceLine.render payload (.sendFromCrashed sender receiver)) = [] := by
  have lacks : Lacks ' ' (TraceLine.render payload (.sendFromCrashed sender receiver)) := by
    have line : TraceLine.render payload (.sendFromCrashed sender receiver) =
      "send-from-crashed:" ++ toString sender ++ "->" ++ toString receiver := rfl
    rw [line]
    exact ((lacks_ofList (by decide)).append (lacks_nat (by decide) sender)).append
      (lacks_ofList (by decide)) |>.append (lacks_nat (by decide) receiver)
  generalize TraceLine.render payload (.sendFromCrashed sender receiver) = line at lacks
  have absent {part : String} (inside : ' ' ∈ part.toList) : ¬contains line part = true := by
    rw [contains_iff]
    exact not_infix_of_mem inside lacks
  have drop : traceDropKind line = none := by
    have found := splitOnce_eq_none (not_infix_of_mem (by decide : ' ' ∈ "] ".toList) lacks)
    rw [traceDropKind, found]
    rfl
  have edge : traceEdge line = none := traceEdge_none (by decide : ' ' ∈ "deliver ".toList) lacks
  rw [lineSignals, edge, drop, if_neg (absent (by decide)), if_neg (absent (by decide)),
    if_neg (absent (by decide))]
  rfl

/-- The markers in a delivery are those in its message. -/
theorem deliver_line (quoted : ∀ msg, ∃ rest, (payload msg).toList = '"' :: rest)
    (sender receiver : NodeId) (msg : Message) :
    lineSignals (render payload ⟨time, seq, .deliverMsg sender receiver msg⟩) =
      edgeSignal sender receiver :: markerSignals (payload msg) := by
  obtain ⟨text, quoted⟩ := quoted msg
  have line : render payload ⟨time, seq, .deliverMsg sender receiver msg⟩ = stamp time seq ++
      ("deliver " ++ toString sender ++ "->" ++ toString receiver ++ " " ++ payload msg) := rfl
  have shape :
      ("deliver " ++ toString sender ++ "->" ++ toString receiver ++ " " ++ payload msg).toList =
        "deliver ".toList ++ ((edgeText sender receiver).toList ++ ' ' :: (payload msg).toList) := by
    simp [edgeText, String.toList_append]
  generalize "deliver " ++ toString sender ++ "->" ++ toString receiver ++ " " ++ payload msg = body
    at line shape
  have drop : traceDropKind (stamp time seq ++ body) = none := by
    have word : body.toList = ['d', 'e', 'l', 'i', 'v', 'e', 'r'] ++ ' ' ::
      ((edgeText sender receiver).toList ++ ' ' :: (payload msg).toList) := shape
    rw [traceDropKind_stamp word (by decide) (by simp [isWhiteSpace])]
    rfl
  have split : body.toList =
      ("deliver ".toList ++ (edgeText sender receiver).toList ++ [' ']) ++ '"' :: text := by
    rw [shape, quoted]
    simp
  have absent {ch : Char} (digit : ch.isDigit = false) (arrow : ch ∉ ['-', '>'])
      (word : ch ∉ "deliver ".toList) :
      ch ∉ ' ' :: ("deliver ".toList ++ (edgeText sender receiver).toList ++ [' ']) := by
    have blank : ch ≠ ' ' := by
      rintro rfl
      exact word (by decide)
    simp only [List.mem_cons, List.mem_append, List.not_mem_nil, or_false, not_or]
    exact ⟨blank, ⟨word, lacks_edgeText digit arrow sender receiver⟩, blank⟩
  have fire := contains_deliver split (by decide) (by decide : 'f' ∈ "timer fire=".toList)
    (absent (by decide) (by decide) (by decide)) (finds_timer time seq body) quoted
  have poll := contains_deliver split (by decide) (by decide : 'k' ∈ "poll task=".toList)
    (absent (by decide) (by decide) (by decide)) (finds_poll time seq body) quoted
  have nemesis := contains_deliver split (by decide) (by decide : 'm' ∈ " nemesis ".toList)
    (absent (by decide) (by decide) (by decide)) (finds_nemesis time seq body) quoted
  rw [line, lineSignals, traceEdge_deliver sender receiver shape, drop, fire, poll, nemesis]
  rfl

end Lines

end Detersim
