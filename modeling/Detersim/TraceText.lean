import Detersim.TextSearch

/-!
The rendered lines of a trace, and what the searches for coverage find in them.
-/

namespace Detersim

/-! Characters that a text does not have. -/

def Lacks (ch : Char) (text : String) : Prop := ch ∉ text.toList

/-- A literal, looked at as a list of characters. -/
theorem lacks_ofList {ch : Char} {chars : List Char} (absent : ch ∉ chars) :
    Lacks ch (String.ofList chars) := by
  rwa [Lacks, String.toList_ofList]

theorem Lacks.append {ch : Char} {text rest : String} (left : Lacks ch text)
    (right : Lacks ch rest) : Lacks ch (text ++ rest) := by
  rw [Lacks, String.toList_append, List.mem_append, not_or]
  exact ⟨left, right⟩

/-- A character that no numeral has, and no other part of a stamp. -/
structure Foreign (ch : Char) : Prop where
  digit : ch.isDigit = false
  signs : ch ∉ ['+', '-']
  stamps : ch ∉ ['[', 't', '=', ' ', '#']

theorem lacks_int {ch : Char} (digit : ch.isDigit = false) (signs : ch ∉ ['+', '-']) (value : Int) :
    Lacks ch (toString value) := by
  simp only [List.mem_cons, List.not_mem_nil, or_false, not_or] at signs
  exact (Numerals.signed_repr value).notMem digit signs.1 signs.2

theorem lacks_nat {ch : Char} (digit : ch.isDigit = false) (value : Nat) :
    Lacks ch (toString value) := by
  intro member
  rw [Nat.toString_eq_repr, Nat.toList_repr] at member
  have isDigit := Numerals.allDigits_toDigits value ch member
  rw [digit] at isDigit
  cases isDigit

theorem not_digit_of_whiteSpace {ch : Char} (blank : isWhiteSpace ch = true) :
    ch.isDigit = false := by
  rw [← Bool.not_eq_true]
  intro digit
  have bounds : 48 ≤ ch.toNat ∧ ch.toNat ≤ 57 := by
    simpa [Char.isDigit, UInt32.le_iff_toNat_le] using digit
  simp only [isWhiteSpace, Bool.or_eq_true, Bool.and_eq_true, decide_eq_true_eq, List.mem_cons,
    List.not_mem_nil, or_false] at blank
  omega

theorem lacks_padLeft {ch : Char} (blank : ch ≠ ' ') {text : String} (lacks : Lacks ch text)
    (width : Nat) : Lacks ch (padLeft width text) := by
  refine Lacks.append (lacks_ofList ?_) lacks
  intro member
  exact blank (List.eq_of_mem_replicate member)

theorem lacks_intercalate {ch : Char} {separator : String} (apart : Lacks ch separator)
    {texts : List String} (each : ∀ text ∈ texts, Lacks ch text) :
    Lacks ch (separator.intercalate texts) := by
  rw [Lacks, String.toList_intercalate]
  induction texts with
  | nil => simp
  | cons text texts ih =>
      have later := ih fun other member => each other (List.mem_cons_of_mem text member)
      have here := each text List.mem_cons_self
      cases texts with
      | nil => simpa [List.intercalate, Lacks] using here
      | cons next texts =>
          have shape : separator.toList.intercalate ((text :: next :: texts).map String.toList) =
              text.toList ++ (separator.toList ++
                separator.toList.intercalate ((next :: texts).map String.toList)) := by
            simp [List.intercalate]
          rw [shape, List.mem_append, List.mem_append, not_or, not_or]
          exact ⟨here, apart, later⟩

/-! Stamps. -/

def stampFront (time : UInt64) (seq : Nat) : String :=
  "[t=" ++ padLeft 10 (toString time) ++ " #" ++ padLeft 6 (toString seq)

theorem stamp_toList (time : UInt64) (seq : Nat) (body : String) :
    (stamp time seq ++ body).toList =
      (stampFront time seq).toList ++ ']' :: ' ' :: body.toList := by
  rw [String.toList_append, stamp, String.toList_append, ← stampFront, List.append_assoc]
  rfl

theorem lacks_stampFront {ch : Char} (foreign : Foreign ch) (time : UInt64) (seq : Nat) :
    Lacks ch (stampFront time seq) := by
  have signs := foreign.stamps
  simp only [List.mem_cons, List.not_mem_nil, or_false, not_or] at signs
  obtain ⟨bracket, letter, equals, blank, hash⟩ := signs
  refine Lacks.append (Lacks.append (Lacks.append ?_ ?_) ?_) ?_
  · exact lacks_ofList (by simp [bracket, letter, equals])
  · exact lacks_padLeft blank (lacks_nat foreign.digit time.toNat) 10
  · exact lacks_ofList (by simp [blank, hash])
  · exact lacks_padLeft blank (lacks_nat foreign.digit seq) 6

/-- A text that begins after a stamp, looked for behind it. -/
theorem contains_stamp {part : String} (letter : Char) (bracket : ']' ∉ part.toList)
    (inside : letter ∈ part.toList) (foreign : Foreign letter) (time : UInt64) (seq : Nat)
    (body : String) :
    contains (stamp time seq ++ body) part = true ↔ part.toList <:+: ' ' :: body.toList := by
  rw [contains_iff, stamp_toList]
  constructor
  · intro found
    rcases infix_split bracket found with early | late
    · exact absurd early (not_infix_of_mem inside (lacks_stampFront foreign time seq))
    · exact late
  · intro found
    exact found.trans (List.IsInfix.trans (List.infix_cons List.infix_rfl)
      (List.suffix_append _ _).isInfix)

theorem traceDropKind_stamp {time : UInt64} {seq : Nat} {body : String} {word rest : List Char}
    (shape : body.toList = word ++ ' ' :: rest) (some_ : word ≠ [])
    (solid : ∀ ch ∈ word, isWhiteSpace ch = false) :
    traceDropKind (stamp time seq ++ body) =
      if "drop-".toList.isPrefixOf word then some (String.ofList (word.drop 5)) else none := by
  have bracket : Foreign ']' := ⟨by decide, by decide, by decide⟩
  have split : splitOnce "] ".toList (stamp time seq ++ body).toList =
      some ((stampFront time seq).toList, body.toList) := by
    rw [stamp_toList]
    exact splitOnce_first (lacks_stampFront bracket time seq) [' '] body.toList
  have first : firstPart isWhiteSpace body.toList = some (String.ofList word) := by
    rw [shape]
    exact firstPart_word some_ solid (by decide) rest
  simp only [traceDropKind, split, first, Option.bind_eq_bind, Option.bind_some,
    String.toList_ofList]
  rfl

theorem traceEdge_none {line : String} {letter : Char} (inside : letter ∈ "deliver ".toList)
    (absent : Lacks letter line) : traceEdge line = none := by
  rw [traceEdge, splitOnce_eq_none (not_infix_of_mem inside absent)]
  rfl

/-! Bodies of lines. -/

theorem lacks_debugList {ch : Char} (brackets : ch ∉ ['[', ',', ' ', ']']) {items : List String}
    (each : ∀ item ∈ items, Lacks ch item) : Lacks ch (debugList items) := by
  simp only [List.mem_cons, List.not_mem_nil, or_false, not_or] at brackets
  obtain ⟨left, comma, blank, right⟩ := brackets
  refine Lacks.append (Lacks.append (lacks_ofList (by simp [left])) ?_)
    (lacks_ofList (by simp [right]))
  exact lacks_intercalate (lacks_ofList (by simp [comma, blank])) each

theorem lacks_debugStruct {ch : Char} (signs : ch ∉ [' ', '\x7b', '\x7d', ',', ':']) {name : String}
    (named : Lacks ch name) {fields : List (String × String)}
    (each : ∀ field ∈ fields, Lacks ch field.1 ∧ Lacks ch field.2) :
    Lacks ch (debugStruct name fields) := by
  simp only [List.mem_cons, List.not_mem_nil, or_false, not_or] at signs
  obtain ⟨blank, left, right, comma, colon⟩ := signs
  refine Lacks.append (Lacks.append (Lacks.append named ?_) ?_) ?_
  · exact lacks_ofList (by simp [blank, left])
  · refine lacks_intercalate (lacks_ofList (by simp [comma, blank])) ?_
    intro text member
    obtain ⟨⟨field, value⟩, known, rfl⟩ := List.mem_map.mp member
    obtain ⟨lacksField, lacksValue⟩ := each _ known
    exact (lacksField.append (lacks_ofList (by simp [colon, blank]))).append lacksValue
  · exact lacks_ofList (by simp [blank, right])

/-- The words of fault actions. -/
def actionWords : List String :=
  ["Partition", "groups", "AsymmetricPartition", "from", "to", "SetLink", "up", "true", "false",
    "HealAll", "Crash", "node", "Restart", "ClockSkew", "offset_ns", "BitRot", "TornWrite",
    "LostOnCrash", "PreFsyncReorder"]

theorem lacks_cons {ch : Char} {chars : List Char} {words : List String} (absent : ch ∉ chars)
    (rest : ∀ word ∈ words, Lacks ch word) : ∀ word ∈ String.ofList chars :: words, Lacks ch word :=
  List.forall_mem_cons.mpr ⟨lacks_ofList absent, rest⟩

/-- A character that is in no word of a fault action, in no numeral and no sign between them. -/
structure Unspoken (ch : Char) : Prop where
  digit : ch.isDigit = false
  signs : ch ∉ ['+', '-']
  between : ch ∉ [' ', '\x7b', '\x7d', ',', ':']
  brackets : ch ∉ ['[', ',', ' ', ']']
  words : ∀ word ∈ actionWords, Lacks ch word

theorem lacks_action {ch : Char} (unspoken : Unspoken ch) (action : NemesisAction) :
    Lacks ch action.debug := by
  have word (text : String) (known : text ∈ actionWords) : Lacks ch text :=
    unspoken.words text known
  have number (value : Nat) : Lacks ch (toString value) := lacks_nat unspoken.digit value
  have bool (value : Bool) : Lacks ch (toString value) := by
    cases value with
    | false => exact word "false" (by simp [actionWords])
    | true => exact word "true" (by simp [actionWords])
  have struct {name : String} {fields : List (String × String)} (named : name ∈ actionWords)
      (each : ∀ field ∈ fields, field.1 ∈ actionWords ∧ Lacks ch field.2) :
      Lacks ch (debugStruct name fields) :=
    lacks_debugStruct unspoken.between (word name named)
      fun field member => ⟨word field.1 (each field member).1, (each field member).2⟩
  cases action with
  | healAll => exact word "HealAll" (by simp [actionWords])
  | partition groups =>
      refine struct (by simp [actionWords])
        (List.forall_mem_singleton.mpr ⟨by simp [actionWords], ?_⟩)
      refine lacks_debugList unspoken.brackets ?_
      intro text member
      obtain ⟨group, _, rfl⟩ := List.mem_map.mp member
      refine lacks_debugList unspoken.brackets ?_
      intro text member
      obtain ⟨node, _, rfl⟩ := List.mem_map.mp member
      exact number node
  | asymmetricPartition sender receiver =>
      refine struct (by simp [actionWords]) ?_
      simp only [List.forall_mem_cons]
      exact ⟨⟨by simp [actionWords], number sender⟩, ⟨by simp [actionWords], number receiver⟩,
        List.forall_mem_nil _⟩
  | setLink sender receiver up =>
      refine struct (by simp [actionWords]) ?_
      simp only [List.forall_mem_cons]
      exact ⟨⟨by simp [actionWords], number sender⟩, ⟨by simp [actionWords], number receiver⟩,
        ⟨by simp [actionWords], bool up⟩, List.forall_mem_nil _⟩
  | clockSkew node offsetNs =>
      refine struct (by simp [actionWords]) ?_
      simp only [List.forall_mem_cons]
      exact ⟨⟨by simp [actionWords], number node⟩,
        ⟨by simp [actionWords], lacks_int unspoken.digit unspoken.signs offsetNs⟩,
        List.forall_mem_nil _⟩
  | crash node | restart node | bitRot node | tornWrite node | lostOnCrash node
  | preFsyncReorder node =>
      exact struct (by simp [actionWords])
        (List.forall_mem_singleton.mpr ⟨by simp [actionWords], number node⟩)

theorem equals_unspoken : Unspoken '=' := by
  refine ⟨by decide, by decide, by decide, by decide, ?_⟩
  repeat refine lacks_cons (by decide) ?_
  exact List.forall_mem_nil _

theorem v_unspoken : Unspoken 'v' := by
  refine ⟨by decide, by decide, by decide, by decide, ?_⟩
  repeat refine lacks_cons (by decide) ?_
  exact List.forall_mem_nil _

end Detersim
