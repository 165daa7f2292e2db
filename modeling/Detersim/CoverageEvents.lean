import Detersim.AbortedFlag
import Detersim.CoverageSignals
import Detersim.MessageText
import Detersim.RunRecords

/-!
Coverage signals about events. A world's coverage has the signals of the events
dispatched so far, and those that the messages delivered so far feign.
-/

namespace Detersim

variable {State Value Plan : Type}

/-- A signal that is about an event of the run. -/
def AboutEvents (signal : String) : Prop :=
  signal ∈ ["timer:fire", "task:poll", "nemesis:event"] ∨
    "message-edge:".toList <+: signal.toList ∨ "network:".toList <+: signal.toList

namespace Inner

/-- What the event itself signals, popped in this state. -/
def eventSignals (g : Inner State Value) (event : Keyed) : List String :=
  match event.kind with
  | .timerFire timer => if g.timers.contains timer then ["timer:fire"] else []
  | .pollTask task => if g.polls task then ["task:poll"] else []
  | .nemesis _ => ["nemesis:event"]
  | .deliverMsg sender receiver _ => match g.dropReason sender receiver with
    | none => [edgeSignal sender receiver]
    | some kind => [kind.signal]

/-- The message that is delivered by the event, popped in this state. -/
def delivers (g : Inner State Value) (event : Keyed) : Option Message :=
  match event.kind with
  | .deliverMsg sender receiver msg =>
      if g.dropReason sender receiver = none then some msg else none
  | _ => none

/-- A world, and the events dispatched so far, each with the state it was popped in. -/
inductive Dispatches (program : Program State Value) (nextAction : NextAction Plan) :
    List (Inner State Value × Keyed) → Inner State Value → Prop where
  | generate (seed config) : Dispatches program nextAction [] (generate seed config)
  | replay (seed tape config) : Dispatches program nextAction [] (replay seed tape config)
  | operate {history g} (op : WorldOp State Value Plan) : Dispatches program nextAction history g →
      Dispatches program nextAction history (g.operate nextAction op).2
  | turn {history g event next} : Dispatches program nextAction history g →
      turn program g = .next event next →
      Dispatches program nextAction (history ++ [(g, event)]) next
  | abort {history g event next} : Dispatches program nextAction history g →
      turn program g = .abort event next → Dispatches program nextAction history next

/-! Signals of a trace. -/

def traceSignals (payload : Message → String) (g : Inner State Value) : List String :=
  g.trace.flatMap fun entry => lineSignals (entry.render payload)

/-- What a delivered message feigns. -/
def feints (payload : Message → String) (g : Inner State Value) (event : Keyed) : List String :=
  (g.delivers event).toList.flatMap fun msg => markerSignals (payload msg)

theorem turnLine_signals {payload : Message → String}
    (quoted : ∀ msg, ∃ rest, (payload msg).toList = '"' :: rest) (g : Inner State Value)
    (event : Keyed) :
    ((g.turnLine event).toList.flatMap fun entry => lineSignals (entry.render payload)) =
      g.eventSignals event ++ g.feints payload event := by
  have single (line : TraceLine) : ((some line).toList.flatMap fun entry =>
      lineSignals (entry.render payload)) = lineSignals (line.render payload) := by
    rw [Option.toList_some, List.flatMap_singleton]
  obtain ⟨time, seq, kind⟩ := event
  cases kind with
  | timerFire timer =>
      simp only [turnLine, eventSignals, feints, delivers]
      split_ifs
      · exact (single _).trans (timer_line payload time seq timer)
      · rfl
  | pollTask task =>
      simp only [turnLine, eventSignals, feints, delivers]
      split_ifs
      · exact (single _).trans (poll_line payload time seq task)
      · rfl
  | nemesis action =>
      simp only [turnLine, eventSignals, feints, delivers]
      exact (single _).trans (nemesis_line payload time seq action)
  | deliverMsg sender receiver msg =>
      simp only [turnLine, eventSignals, feints, delivers]
      cases g.dropReason sender receiver with
      | none =>
          have line := deliver_line payload time seq quoted sender receiver msg
          refine (single _).trans (line.trans ?_)
          rw [if_pos rfl, Option.toList_some, List.flatMap_singleton]
          rfl
      | some kind =>
          exact (single _).trans (dropped_line payload time seq kind sender receiver)

theorem noteTurn_signals {payload : Message → String}
    (quoted : ∀ msg, ∃ rest, (payload msg).toList = '"' :: rest) (g : Inner State Value)
    (event : Keyed) : (g.noteTurn event).traceSignals payload =
      g.traceSignals payload ++ (g.eventSignals event ++ g.feints payload event) := by
  rw [← turnLine_signals quoted, traceSignals, noteTurn, List.flatMap_append]
  rfl

/-- The lines of code that was run signal nothing. -/
theorem Ran.signals {g after : Inner State Value} {made : List (Call State Value)}
    (ran : Ran g made after) (payload : Message → String) :
    after.traceSignals payload = g.traceSignals payload := by
  have refused (call : Call State Value) (line : TraceLine) (leaves : call.refusal = some line) :
      lineSignals (line.render payload) = [] := by
    unfold Call.refusal at leaves
    split at leaves
    · split_ifs at leaves
      obtain rfl := Option.some.inj leaves
      exact refused_line payload _ _
    · cases leaves
  have silent : ((made.filterMap Call.refusal).flatMap fun entry =>
      lineSignals (entry.render payload)) = [] := by
    rw [List.flatMap_eq_nil_iff]
    intro line member
    obtain ⟨call, _, leaves⟩ := List.mem_filterMap.mp member
    exact refused call line leaves
  rw [traceSignals, ran.records.trace, List.flatMap_append, silent, List.append_nil]
  rfl

/-- The trace signals each dispatched event, and what its message feigns. -/
theorem Dispatches.signals {program : Program State Value} {nextAction : NextAction Plan}
    {history : List (Inner State Value × Keyed)} {g : Inner State Value}
    (dispatches : Dispatches program nextAction history g) {payload : Message → String}
    (quoted : ∀ msg, ∃ rest, (payload msg).toList = '"' :: rest) :
    g.traceSignals payload =
      history.flatMap fun turn => turn.1.eventSignals turn.2 ++ turn.1.feints payload turn.2 := by
  induction dispatches with
  | generate => rfl
  | replay => rfl
  | operate op _ ih => exact ((operate_ran nextAction _ op).signals payload).trans ih
  | turn _ turned ih =>
      rw [(turn_ran turned).signals, noteTurn_signals quoted, ih, List.flatMap_append,
        List.flatMap_singleton]
  | abort _ aborted ih => exact ((abort_silent aborted).ran.signals payload).trans ih

/-! Coverage. -/

theorem firstPart_head {separator : Char → Bool} {first : Char} {rest : List Char} {part : String}
    (kept : separator first = false) (found : firstPart separator (first :: rest) = some part) :
    ∃ tail, part.toList = first :: tail := by
  rw [firstPart, List.dropWhile_cons_of_neg (by simp [kept]),
    List.takeWhile_cons_of_pos (by simp [kept])] at found
  obtain rfl := Option.some.inj found
  exact ⟨_, String.toList_ofList⟩

theorem debug_head (action : NemesisAction) : ∃ first rest,
    action.debug.toList = first :: rest ∧ first.isAlphanum = true ∧ first ≠ 'e' := by
  have struct {text : String} {fields : List (String × String)} {first : Char} {chars : List Char}
      (shape : text = debugStruct (String.ofList (first :: chars)) fields)
      (letter : first.isAlphanum = true) (capital : first ≠ 'e') :
      ∃ first rest, text.toList = first :: rest ∧ first.isAlphanum = true ∧ first ≠ 'e' := by
    rw [shape, debugStruct, String.append_assoc, String.append_assoc, String.toList_append,
      String.toList_ofList]
    exact ⟨first, _, rfl, letter, capital⟩
  cases action with
  | healAll => exact ⟨'H', "ealAll".toList, by decide, by decide, by decide⟩
  | partition | asymmetricPartition | setLink | crash | restart | clockSkew | bitRot | tornWrite
  | lostOnCrash | preFsyncReorder => exact struct rfl (by decide) (by decide)

/-- The name of a fault action is not what coverage calls a fault event. -/
theorem action_word {action : NemesisAction} {word : String}
    (found : firstPart (fun ch => !(ch.isAlphanum || decide (ch = '_'))) action.debug.toList =
      some word) : word ≠ "event" := by
  obtain ⟨first, rest, shape, letter, capital⟩ := debug_head action
  rw [shape] at found
  obtain ⟨tail, head⟩ := firstPart_head (by rw [letter]; rfl) found
  rintro rfl
  exact capital (List.cons.inj head).1.symm

theorem not_prefix_append {pre other : String} (shorter : ¬other.toList <+: pre.toList)
    (longer : ¬pre.toList <+: other.toList) (text : String) :
    ¬other.toList <+: (pre ++ text).toList := by
  rw [String.toList_append]
  intro shared
  rcases List.prefix_or_prefix_of_prefix shared (List.prefix_append pre.toList text.toList) with
    inside | beyond
  · exact shorter inside
  · exact longer beyond

theorem not_aboutEvents {pre : String} (known : pre ∈ ["outcome:", "tape:", "history:"])
    (text : String) : ¬AboutEvents (pre ++ text) := by
  simp only [List.mem_cons, List.not_mem_nil, or_false] at known
  rintro (event | edge | drop)
  · simp only [List.mem_cons, List.not_mem_nil, or_false] at event
    rcases known with rfl | rfl | rfl <;> rcases event with same | same | same <;>
      exact append_ne_of_front (by decide) text same
  · rcases known with rfl | rfl | rfl <;>
      exact not_prefix_append (by decide) (by decide) text edge
  · rcases known with rfl | rfl | rfl <;>
      exact not_prefix_append (by decide) (by decide) text drop

theorem mem_semanticCoverage {payload : Message → String} {g : Inner State Value} {signal : String}
    (about : AboutEvents signal) :
    signal ∈ g.semanticCoverage payload ↔ signal ∈ g.traceSignals payload := by
  have other {pre text : String} (known : pre ∈ ["outcome:", "tape:", "history:"]) :
      pre ++ text ≠ signal := by
    rintro rfl
    exact not_aboutEvents known text about
  have fault (action : NemesisAction) (word : String)
      (found : firstPart (fun ch => !(ch.isAlphanum || decide (ch = '_'))) action.debug.toList =
        some word) : "nemesis:" ++ word ≠ signal := by
    have apart := action_word found
    rintro rfl
    rcases about with event | edge | drop
    · simp only [List.mem_cons, List.not_mem_nil, or_false] at event
      rcases event with same | same | same
      · exact append_ne_of_front (by decide) word same
      · exact append_ne_of_front (by decide) word same
      · exact apart ((String.append_right_inj "nemesis:").mp same)
    · exact not_prefix_append (by decide) (by decide) word edge
    · exact not_prefix_append (by decide) (by decide) word drop
  have outcome (text : String) : "outcome:" ++ text ≠ signal := other (by simp)
  constructor
  · intro member
    simp only [semanticCoverage, Finset.mem_sort, List.mem_toFinset, List.mem_append,
      List.mem_cons, List.mem_map, List.mem_filterMap, Option.map_eq_some_iff] at member
    rcases member with (((ended | ⟨event, _, same⟩) | ⟨action, _, text, found, same⟩) |
      ⟨entry, _, same⟩) | trace
    · split_ifs at ended
      · exact absurd ended.symm (outcome "aborted")
      · exact absurd ended.symm (outcome "deadlocked")
      · exact absurd ended.symm (outcome "quiesced")
    · exact absurd same (other (by simp))
    · exact absurd same (fault action text found)
    · split at same <;> exact absurd same (other (by simp))
    · exact trace
  · intro trace
    simp only [semanticCoverage, Finset.mem_sort, List.mem_toFinset, List.mem_append]
    exact Or.inr trace

/-- Coverage has the signals of the events, and no others about events. -/
def CoverageExact (payload : Message → String) (history : List (Inner State Value × Keyed))
    (g : Inner State Value) : Prop :=
  ∀ signal, AboutEvents signal →
    (signal ∈ g.semanticCoverage payload ↔ ∃ turn ∈ history, signal ∈ turn.1.eventSignals turn.2)

/-- Coverage is exact when no delivered message feigns an event of a kind that the
run did not have. -/
theorem coverage_exact_iff (program : Program State Value) (nextAction : NextAction Plan)
    (printed : Char → Bool) (history : List (Inner State Value × Keyed)) (g : Inner State Value)
    (dispatches : Dispatches program nextAction history g) :
    CoverageExact (messageText printed) history g ↔
      ∀ marker ∈ markers,
        (∃ turn ∈ history, ∃ msg, turn.1.delivers turn.2 = some msg ∧
          contains (messageText printed msg) marker.1 = true) →
        ∃ turn ∈ history, marker.2 ∈ turn.1.eventSignals turn.2 := by
  have signals := dispatches.signals (messageText_quoted printed)
  have feigned (turn : Inner State Value × Keyed) (signal : String) :
      signal ∈ turn.1.feints (messageText printed) turn.2 ↔
        ∃ msg, turn.1.delivers turn.2 = some msg ∧ ∃ marker ∈ markers,
          contains (messageText printed msg) marker.1 = true ∧ signal = marker.2 := by
    simp only [feints, List.mem_flatMap, Option.mem_toList, mem_markerSignals]
  have about (marker : String × String) (known : marker ∈ markers) : AboutEvents marker.2 :=
    Or.inl (List.mem_map_of_mem known)
  constructor
  · intro exact_ marker known
    rintro ⟨turn, past, msg, delivered, found⟩
    rw [← exact_ marker.2 (about marker known), mem_semanticCoverage (about marker known), signals,
      List.mem_flatMap]
    refine ⟨turn, past, List.mem_append_right _ ((feigned turn marker.2).mpr ?_)⟩
    exact ⟨msg, delivered, marker, known, found, rfl⟩
  · intro honest signal about
    rw [mem_semanticCoverage about, signals, List.mem_flatMap]
    constructor
    · rintro ⟨turn, past, member⟩
      rcases List.mem_append.mp member with real | feint
      · exact ⟨turn, past, real⟩
      · obtain ⟨msg, delivered, marker, known, found, rfl⟩ := (feigned turn signal).mp feint
        exact honest marker known ⟨turn, past, msg, delivered, found⟩
    · rintro ⟨turn, past, real⟩
      exact ⟨turn, past, List.mem_append_left _ real⟩

/-- The characters of ASCII that are shown as they are. -/
def printedAscii (ch : Char) : Bool := decide (0x20 ≤ ch.toNat) && decide (ch.toNat < 0x7F)

/-- The bytes of the word nemesis, between blanks. -/
def feint : Message := [0x20, 0x6E, 0x65, 0x6D, 0x65, 0x73, 0x69, 0x73, 0x20]

/-- A node that sends itself the feint. -/
def feigning : Program Unit Unit := fun _ => .call (.send 0 0 feint) fun _ => .done (.ready ())

def feigningWorld : Inner Unit Unit :=
  ((replay 0 [] {}).operate noPlans (.addNode 0 fun _ => .done ())).2

def feintEvent : Keyed := ⟨1000000, 1, .deliverMsg 0 0 feint⟩

def feintSent : Inner Unit Unit := advance feigning 1 feigningWorld

def feintDelivered : Inner Unit Unit := advance feigning 1 feintSent

def feignedHistory : List (Inner Unit Unit × Keyed) :=
  [(feigningWorld, ⟨0, 0, .pollTask 0⟩), (feintSent, feintEvent)]

theorem turn_advance {program : Program State Value} {g : Inner State Value} {event : Keyed}
    {queue : EventQueue} (popped : g.queue.pop = some (event, queue))
    (within : g.trips event = false) : turn program g = .next event (advance program 1 g) := by
  simp [advance, turn, popped, within]

theorem first_turn : turn feigning feigningWorld = .next ⟨0, 0, .pollTask 0⟩ feintSent := by
  have popped : feigningWorld.queue.pop = some (⟨0, 0, .pollTask 0⟩, .empty) :=
    KeyedQueue.pop_eq_some.mpr (by decide)
  exact turn_advance popped (by decide)

theorem second_turn : turn feigning feintSent = .next feintEvent feintDelivered := by
  have popped : feintSent.queue.pop = some (feintEvent, .empty) :=
    KeyedQueue.pop_eq_some.mpr (by decide +kernel)
  exact turn_advance popped (by decide)

theorem feint_dispatches : Dispatches feigning noPlans feignedHistory feintDelivered := by
  have made : Dispatches feigning noPlans [] feigningWorld :=
    Dispatches.operate (.addNode 0 fun _ => .done ()) (Dispatches.replay 0 [] {})
  exact (made.turn first_turn).turn second_turn

theorem feint_ends : (run feigning feigningWorld).world = feintDelivered := by
  have turns : TurnsTo feigning feigningWorld [⟨0, 0, .pollTask 0⟩, feintEvent] feintDelivered :=
    KeyedQueue.Runs.turn first_turn (KeyedQueue.Runs.turn second_turn (KeyedQueue.Runs.refl _))
  have empty : feintDelivered.queue.entries = [] := by decide +kernel
  rw [run_of_turnsTo turns, run_of_empty feigning feintDelivered empty]

/-- The message was delivered, and no fault event was dispatched. -/
theorem feint_feigns_nemesis :
    Dispatches feigning noPlans feignedHistory (run feigning feigningWorld).world ∧
      "nemesis:event" ∈
        ((run feigning feigningWorld).world.report (messageText printedAscii)).coverageSignals ∧
      (∀ turn ∈ feignedHistory, "nemesis:event" ∉ turn.1.eventSignals turn.2) ∧
      ¬CoverageExact (messageText printedAscii) feignedHistory
        (run feigning feigningWorld).world := by
  rw [feint_ends]
  have feigned : "nemesis:event" ∈
      feintDelivered.semanticCoverage (messageText printedAscii) := by
    rw [mem_semanticCoverage (Or.inl (by decide)),
      feint_dispatches.signals (messageText_quoted printedAscii), List.mem_flatMap]
    refine ⟨(feintSent, feintEvent), by simp [feignedHistory], List.mem_append_right _ ?_⟩
    rw [feints, List.mem_flatMap]
    exact ⟨feint, by decide +kernel, by decide +kernel⟩
  have silent : ∀ turn ∈ feignedHistory, "nemesis:event" ∉ turn.1.eventSignals turn.2 := by
    rw [feignedHistory, List.forall_mem_cons, List.forall_mem_singleton]
    exact ⟨by decide +kernel, by decide +kernel⟩
  refine ⟨feint_dispatches, feigned, silent, ?_⟩
  intro exact_
  obtain ⟨turn, past, signal⟩ := (exact_ "nemesis:event" (Or.inl (by decide))).mp feigned
  exact silent turn past signal

theorem feigned_coverage_iff :
    CoverageExact (messageText printedAscii) feignedHistory feintDelivered ↔
      ∀ marker ∈ markers,
        (∃ turn ∈ feignedHistory, ∃ msg, turn.1.delivers turn.2 = some msg ∧
          contains (messageText printedAscii msg) marker.1 = true) →
        ∃ turn ∈ feignedHistory, marker.2 ∈ turn.1.eventSignals turn.2 :=
  coverage_exact_iff feigning noPlans printedAscii feignedHistory feintDelivered feint_dispatches

end Inner

end Detersim
