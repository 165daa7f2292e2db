import Mathlib.Data.List.Basic
import Mathlib.Tactic.SplitIfs

/-!
The text of a script element, as a reader of HTML cuts it out of a page. It goes
on to the end tag; within what looks like a comment, a start tag hides the next
end tag. Escapes are given by what they leave of the characters that matter.
-/

namespace ScriptText

/-- A pattern gives, for each place, the characters that may stand there. -/
abbrev Pattern := List (List Char)

/-- The pattern fits the front of the text. -/
def fits : Pattern → List Char → Bool
  | [], _ => true
  | _ :: _, [] => false
  | here :: pattern, ch :: rest => decide (ch ∈ here) && fits pattern rest

def occurs (pattern : Pattern) : List Char → Bool
  | [] => fits pattern []
  | ch :: rest => fits pattern (ch :: rest) || occurs pattern rest

/-- The name of the element, in any letter case, and what may end it. -/
def tagName (ends : List Char) : Pattern :=
  [['s', 'S'], ['c', 'C'], ['r', 'R'], ['i', 'I'], ['p', 'P'], ['t', 'T'], ends]

def endTag (ends : List Char) : Pattern := ['<'] :: ['/'] :: tagName ends

def startTag (ends : List Char) : Pattern := ['<'] :: tagName ends

def opening : Pattern := [['<'], ['!'], ['-'], ['-']]

def closing : Pattern := [['-'], ['-'], ['>']]

/-- Tabs, line ends, form feeds, spaces, slashes and `>` end the name of a tag. -/
def htmlEnds : List Char := ['\t', '\n', '\x0C', '\r', ' ', '/', '>']

inductive Mode where
  | data
  | escaped
  | doubleEscaped
  deriving DecidableEq

/-- The mode after the first character, or none where the element ends. -/
def step (ends : List Char) (mode : Mode) (text : List Char) : Option Mode :=
  match mode with
  | .data =>
      if fits (endTag ends) text then none
      else if fits opening text then some .escaped
      else some .data
  | .escaped =>
      if fits (endTag ends) text then none
      else if fits (startTag ends) text then some .doubleEscaped
      else if fits closing text then some .data
      else some .escaped
  | .doubleEscaped =>
      if fits (endTag ends) text then some .escaped
      else if fits closing text then some .data
      else some .doubleEscaped

/-- The mode after the text, if the element does not end in it. -/
def scan (ends : List Char) (mode : Mode) : List Char → Option Mode
  | [] => some mode
  | ch :: rest => (step ends mode (ch :: rest)).bind fun mode => scan ends mode rest

/-- The text of the element, and the page from its end tag on. -/
def element (ends : List Char) (mode : Mode) : List Char → Option (List Char × List Char)
  | [] => none
  | ch :: rest => match step ends mode (ch :: rest) with
    | none => some ([], ch :: rest)
    | some mode => (element ends mode rest).map fun cut => (ch :: cut.1, cut.2)

/-- What opens a tag or a comment in running text. -/
def markup : Pattern :=
  [['<'], "abcdefghijklmnopqrstuvwxyzABCDEFGHIJKLMNOPQRSTUVWXYZ/!?".toList]

/-! Cutting a text in two. -/

section Cuts

variable {ends : List Char} {mode : Mode}

theorem fits_cut {pattern : Pattern} {separator : Char}
    (rejects : ∀ here ∈ pattern, separator ∉ here) (text rest : List Char) :
    fits pattern (text ++ separator :: rest) = fits pattern text := by
  induction pattern generalizing text with
  | nil => rw [fits, fits]
  | cons here pattern ih =>
      have later := ih fun other member => rejects other (List.mem_cons_of_mem here member)
      cases text with
      | nil =>
          have never := decide_eq_false (rejects here List.mem_cons_self)
          rw [List.nil_append, fits, fits, never, Bool.false_and]
      | cons ch text => rw [List.cons_append, fits, fits, later]

def patterns (ends : List Char) : List Pattern := [endTag ends, startTag ends, opening, closing]

/-- The character stands in no pattern but at its front. -/
def Cuts (ends : List Char) (separator : Char) : Prop :=
  ∀ pattern ∈ patterns ends, ∀ here ∈ pattern.tail, separator ∉ here

instance (ends : List Char) (separator : Char) : Decidable (Cuts ends separator) :=
  inferInstanceAs (Decidable (∀ pattern ∈ patterns ends, ∀ here ∈ pattern.tail, separator ∉ here))

theorem step_congr {others : List Char} {text other : List Char}
    (ending : fits (endTag ends) text = fits (endTag others) other)
    (starting : fits (startTag ends) text = fits (startTag others) other)
    (opens : fits opening text = fits opening other)
    (closes : fits closing text = fits closing other) :
    step ends mode text = step others mode other := by
  cases mode <;> simp only [step, ending, starting, opens, closes]

theorem step_cut {separator : Char} (cuts : Cuts ends separator) (ch : Char)
    (text rest : List Char) :
    step ends mode (ch :: (text ++ separator :: rest)) = step ends mode (ch :: text) := by
  have same {here : List Char} {pattern : Pattern} (known : here :: pattern ∈ patterns ends) :
      fits (here :: pattern) (ch :: (text ++ separator :: rest)) =
        fits (here :: pattern) (ch :: text) := by
    have cut : fits pattern (text ++ separator :: rest) = fits pattern text :=
      fits_cut (cuts _ known) text rest
    rw [fits, fits, cut]
  exact step_congr (same (by simp [patterns, endTag])) (same (by simp [patterns, startTag]))
    (same (by simp [patterns, opening])) (same (by simp [patterns, closing]))

theorem scan_cut {separator : Char} (cuts : Cuts ends separator) (text rest : List Char) :
    scan ends mode (text ++ separator :: rest) =
      (scan ends mode text).bind fun mode => scan ends mode (separator :: rest) := by
  induction text generalizing mode with
  | nil => rfl
  | cons ch text ih =>
      rw [List.cons_append, scan, scan, step_cut cuts]
      cases step ends mode (ch :: text) with
      | none => rfl
      | some mode => exact ih

theorem element_cut {separator : Char} (cuts : Cuts ends separator) {text : List Char}
    {after : Mode} (scanned : scan ends mode text = some after) (rest : List Char) :
    element ends mode (text ++ separator :: rest) =
      (element ends after (separator :: rest)).map fun cut => (text ++ cut.1, cut.2) := by
  induction text generalizing mode with
  | nil =>
      cases scanned
      exact (Option.map_id' ..).symm
  | cons ch text ih =>
      rw [scan] at scanned
      rw [List.cons_append, element, step_cut cuts]
      cases stepped : step ends mode (ch :: text) with
      | none => simp [stepped] at scanned
      | some mode =>
          rw [stepped, Option.bind_some] at scanned
          dsimp only
          rw [ih scanned, Option.map_map]
          rfl

/-- Where the element ends within the text, it has less than the whole of it. -/
theorem element_short {separator : Char} (cuts : Cuts ends separator) {text : List Char}
    (ended : scan ends mode text = none) (rest : List Char) :
    ∃ inside page, element ends mode (text ++ separator :: rest) = some (inside, page) ∧
      inside.length < text.length := by
  induction text generalizing mode with
  | nil => cases ended
  | cons ch text ih =>
      rw [scan] at ended
      rw [List.cons_append, element, step_cut cuts]
      cases stepped : step ends mode (ch :: text) with
      | none => exact ⟨[], _, rfl, Nat.zero_lt_succ _⟩
      | some mode =>
          rw [stepped, Option.bind_some] at ended
          obtain ⟨inside, page, cut, shorter⟩ := ih ended
          refine ⟨ch :: inside, page, ?_, Nat.succ_lt_succ shorter⟩
          dsimp only
          rw [cut]
          rfl

end Cuts

/-! Texts that leave the mode alone. -/

section Neutral

variable {ends : List Char} {mode : Mode}

theorem fits_front {here : List Char} {ch : Char} (other : ch ∉ here) (pattern : Pattern)
    (rest : List Char) : fits (here :: pattern) (ch :: rest) = false := by
  rw [fits, decide_eq_false other, Bool.false_and]

/-- No pattern begins with the character. -/
def Neutral (ch : Char) : Prop := ch ≠ '<' ∧ ch ≠ '-'

instance (ch : Char) : Decidable (Neutral ch) := inferInstanceAs (Decidable (_ ∧ _))

theorem step_neutral {ch : Char} (neutral : Neutral ch) (rest : List Char) :
    step ends mode (ch :: rest) = some mode := by
  have noTag (pattern : Pattern) : fits (['<'] :: pattern) (ch :: rest) = false :=
    fits_front (by simp [neutral.1]) pattern rest
  have noDash (pattern : Pattern) : fits (['-'] :: pattern) (ch :: rest) = false :=
    fits_front (by simp [neutral.2]) pattern rest
  cases mode <;> simp [step, endTag, startTag, opening, closing, noTag, noDash]

theorem scan_neutral_cons {ch : Char} (neutral : Neutral ch) (rest : List Char) :
    scan ends mode (ch :: rest) = scan ends mode rest := by
  rw [scan, step_neutral neutral, Option.bind_some]

theorem scan_neutral_append {text : List Char} (neutral : ∀ ch ∈ text, Neutral ch)
    (rest : List Char) : scan ends mode (text ++ rest) = scan ends mode rest := by
  induction text with
  | nil => rfl
  | cons ch text ih =>
      have later := ih fun other member => neutral other (List.mem_cons_of_mem ch member)
      rw [List.cons_append, scan_neutral_cons (neutral ch List.mem_cons_self), later]

theorem scan_neutral {text : List Char} (neutral : ∀ ch ∈ text, Neutral ch) :
    scan ends mode text = some mode := by
  rw [← List.append_nil text, scan_neutral_append neutral]
  rfl

/-- A text after the other, with a character between them that stands in no pattern. -/
structure Separates (ends : List Char) (separator : Char) : Prop where
  cuts : Cuts ends separator
  neutral : Neutral separator

theorem scan_separated {separator : Char} (separates : Separates ends separator)
    (text rest : List Char) : scan ends mode (text ++ separator :: rest) =
      (scan ends mode text).bind fun mode => scan ends mode rest := by
  simp only [scan_cut separates.cuts, scan_neutral_cons separates.neutral]

/-- Brackets around a text, of any kind that matters to no pattern. -/
theorem scan_enclosed {left right : Char} (neutral : Neutral left)
    (separates : Separates ends right) (text : List Char) :
    scan ends mode (left :: (text ++ [right])) = scan ends mode text := by
  rw [scan_neutral_cons neutral, scan_separated separates]
  exact Option.bind_fun_some _

theorem scan_intercalate {separator : Char} (separates : Separates ends separator)
    (texts : List (List Char)) :
    scan ends mode ([separator].intercalate texts) = texts.foldlM (scan ends) mode := by
  induction texts generalizing mode with
  | nil => rfl
  | cons text texts ih =>
      cases texts with
      | nil => simp [List.intercalate]
      | cons next texts =>
          have shape : [separator].intercalate (text :: next :: texts) =
              text ++ separator :: [separator].intercalate (next :: texts) := by
            simp [List.intercalate]
          simp only [shape, scan_separated separates, ih]
          rfl

/-- The text does not go on with a pattern. -/
def Starts (ends : List Char) : List Char → Prop
  | [] => True
  | ch :: _ => Cuts ends ch

instance (ends : List Char) : (text : List Char) → Decidable (Starts ends text)
  | [] => inferInstanceAs (Decidable True)
  | ch :: _ => inferInstanceAs (Decidable (Cuts ends ch))

theorem scan_append {rest : List Char} (starts : Starts ends rest) (text : List Char) :
    scan ends mode (text ++ rest) =
      (scan ends mode text).bind fun mode => scan ends mode rest := by
  cases rest with
  | nil =>
      rw [List.append_nil]
      exact (Option.bind_fun_some _).symm
  | cons ch rest => exact scan_cut starts text rest

/-- The text leaves the mode alone. -/
def Calm (ends text : List Char) : Prop :=
  ∀ mode ∈ [Mode.data, .escaped, .doubleEscaped], scan ends mode text = some mode

instance (ends text : List Char) : Decidable (Calm ends text) :=
  inferInstanceAs (Decidable (∀ mode ∈ [Mode.data, .escaped, .doubleEscaped],
    scan ends mode text = some mode))

theorem Calm.scan {text : List Char} (calm : Calm ends text) : scan ends mode text = some mode :=
  calm mode (by cases mode <;> simp)

/-- A calm text that does not go on with a pattern. -/
structure Joins (ends piece : List Char) : Prop where
  starts : Starts ends piece
  calm : Calm ends piece

theorem starts_flatten {pieces : List (List Char)} (joins : ∀ piece ∈ pieces, Joins ends piece) :
    Starts ends pieces.flatten := by
  induction pieces with
  | nil => exact trivial
  | cons piece pieces ih =>
      cases piece with
      | nil => exact ih fun other member => joins other (List.mem_cons_of_mem _ member)
      | cons first piece => exact (joins _ List.mem_cons_self).starts

theorem scan_flatten {pieces : List (List Char)} (joins : ∀ piece ∈ pieces, Joins ends piece) :
    ScriptText.scan ends mode pieces.flatten = some mode := by
  induction pieces with
  | nil => rfl
  | cons piece pieces ih =>
      have rest : ∀ other ∈ pieces, Joins ends other :=
        fun other member => joins other (List.mem_cons_of_mem piece member)
      rw [List.flatten_cons, scan_append (starts_flatten rest), (joins piece List.mem_cons_self).calm.scan,
        Option.bind_some, ih rest]

end Neutral

/-! Escapes. -/

/-- Characters are left as they are, or stand behind a backslash. -/
structure Masks (masked : Char → Bool) (escape : Char → List Char) : Prop where
  plain : ∀ ch, masked ch = false → escape ch = [ch]
  hidden : ∀ ch, masked ch = true →
    ∃ tail, escape ch = '\\' :: tail ∧ ∀ other ∈ tail, Neutral other

section Masks

variable {masked : Char → Bool} {escape : Char → List Char}

/-- The pattern, without the characters that escapes hide. -/
def unmasked (masked : Char → Bool) (pattern : Pattern) : Pattern :=
  pattern.map fun here => here.filter fun ch => !masked ch

theorem fits_masked (masks : Masks masked escape) {pattern : Pattern}
    (bare : ∀ here ∈ pattern, '\\' ∉ here) (text : List Char) :
    fits pattern (text.flatMap escape) = fits (unmasked masked pattern) text := by
  induction pattern generalizing text with
  | nil => rw [unmasked, List.map_nil, fits, fits]
  | cons here pattern ih =>
      have later := ih fun other member => bare other (List.mem_cons_of_mem here member)
      cases text with
      | nil => rfl
      | cons ch text =>
          have front : fits (unmasked masked (here :: pattern)) (ch :: text) =
              (decide (ch ∈ here ∧ masked ch = false) && fits (unmasked masked pattern) text) := by
            rw [unmasked, List.map_cons, fits]
            simp only [List.mem_filter, Bool.not_eq_true']
            rfl
          rw [List.flatMap_cons, front]
          cases known : masked ch with
          | false => simp only [masks.plain ch known, List.singleton_append, fits, later, and_true]
          | true =>
              obtain ⟨tail, shape, _⟩ := masks.hidden ch known
              rw [shape, List.cons_append, fits_front (bare here List.mem_cons_self)]
              simp

/-- With the hidden characters left out, the patterns are those of other ends. -/
structure Leaves (masked : Char → Bool) (ends others : List Char) : Prop where
  bare : ∀ pattern ∈ patterns ends, ∀ here ∈ pattern, '\\' ∉ here
  ending : unmasked masked (endTag ends) = endTag others
  starting : unmasked masked (startTag ends) = startTag others
  opens : unmasked masked opening = opening
  closes : unmasked masked closing = closing

theorem step_masked (masks : Masks masked escape) {ends others : List Char}
    (leaves : Leaves masked ends others) {mode : Mode} (text : List Char) :
    step ends mode (text.flatMap escape) = step others mode text := by
  have fitting {pattern other : Pattern} (known : pattern ∈ patterns ends)
      (left : unmasked masked pattern = other) :
      fits pattern (text.flatMap escape) = fits other text := by
    rw [fits_masked masks (leaves.bare pattern known), left]
  exact step_congr (fitting (by simp [patterns]) leaves.ending)
    (fitting (by simp [patterns]) leaves.starting) (fitting (by simp [patterns]) leaves.opens)
    (fitting (by simp [patterns]) leaves.closes)

theorem scan_masked (masks : Masks masked escape) {ends others : List Char}
    (leaves : Leaves masked ends others) {mode : Mode} (text : List Char) :
    scan ends mode (text.flatMap escape) = scan others mode text := by
  induction text generalizing mode with
  | nil => rfl
  | cons ch text ih =>
      have stepped : step ends mode ((ch :: text).flatMap escape) = step others mode (ch :: text) :=
        step_masked masks leaves (ch :: text)
      rw [List.flatMap_cons] at stepped ⊢
      rw [scan, ← stepped]
      cases known : masked ch with
      | false =>
          rw [masks.plain ch known, List.singleton_append, scan]
          simp only [ih]
      | true =>
          obtain ⟨tail, shape, neutral⟩ := masks.hidden ch known
          have mark : Neutral '\\' := by decide
          rw [shape, List.cons_append, step_neutral mark, Option.bind_some,
            scan_neutral_cons mark, scan_neutral_append neutral, ih]

theorem occurs_neutral_append {text : List Char} (neutral : ∀ ch ∈ text, Neutral ch)
    (rest : List Char) : occurs markup (text ++ rest) = occurs markup rest := by
  induction text with
  | nil => rfl
  | cons ch text ih =>
      have later := ih fun other member => neutral other (List.mem_cons_of_mem ch member)
      have other : ch ∉ ['<'] := by simp [(neutral ch List.mem_cons_self).1]
      rw [List.cons_append, occurs, markup, fits_front other, Bool.false_or, ← markup, later]

theorem occurs_masked (masks : Masks masked escape) (left : unmasked masked markup = markup)
    (text : List Char) : occurs markup (text.flatMap escape) = occurs markup text := by
  induction text with
  | nil => rfl
  | cons ch text ih =>
      have bare : ∀ here ∈ markup, '\\' ∉ here := by decide
      have front := fits_masked masks bare (ch :: text)
      rw [List.flatMap_cons] at front ⊢
      rw [left] at front
      rw [occurs, ← front]
      cases known : masked ch with
      | false => rw [masks.plain ch known, List.singleton_append, occurs, ih]
      | true =>
          obtain ⟨tail, shape, neutral⟩ := masks.hidden ch known
          have hidden : ∀ other ∈ '\\' :: tail, Neutral other := by
            intro other member
            rcases List.mem_cons.mp member with rfl | later
            · decide
            · exact neutral other later
          have never : fits markup ('\\' :: (tail ++ text.flatMap escape)) = false :=
            fits_front (by decide) _ _
          rw [shape, occurs_neutral_append hidden, List.cons_append, never, Bool.false_or, ih]

end Masks

/-! The element a page has. -/

/-- The end tag of the page ends the element, unless a start tag before it hides it. -/
structure Closes (ends page : List Char) : Prop where
  shown : ∀ mode, mode ≠ .doubleEscaped → element ends mode ('<' :: page) = some ([], '<' :: page)
  hidden : element ends .doubleEscaped ('<' :: page) = none

/-- The element is the whole text before the end tag of the page just if neither an
end tag in the text ends it nor a start tag in it hides that end tag. -/
theorem element_whole_iff {ends page : List Char} (cuts : Cuts ends '<')
    (closes : Closes ends page) (text : List Char) :
    element ends .data (text ++ '<' :: page) = some (text, '<' :: page) ↔
      ∃ mode, scan ends .data text = some mode ∧ mode ≠ .doubleEscaped := by
  cases scanned : scan ends .data text with
  | none =>
      obtain ⟨inside, rest, cut, shorter⟩ := element_short cuts scanned page
      rw [cut]
      constructor
      · intro whole
        cases whole
        exact absurd shorter (Nat.lt_irrefl _)
      · rintro ⟨mode, ended, _⟩
        cases ended
  | some mode =>
      rw [element_cut cuts scanned]
      by_cases hidden : mode = .doubleEscaped
      · subst hidden
        simp [closes.hidden]
      · simp [hidden, closes.shown mode hidden]

end ScriptText
