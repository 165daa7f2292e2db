import Detersim.Numerals
import Mathlib.Data.List.Forall2
import Mathlib.Data.List.TakeWhile

/-!
JSON documents and a decoder of their texts: white space, every escape with
surrogate pairs, and numbers with fraction and exponent. Texts are read with a
bound on the calls; the length of the text is always enough.
-/

/-- A number is its mantissa times a power of ten, so integers are exact. -/
inductive Json where
  | null
  | bool (value : Bool)
  | number (mantissa exponent : Int)
  | string (text : String)
  | array (items : List Json)
  | object (members : List (String × Json))

namespace Json

def isSpace (ch : Char) : Bool := decide (ch ∈ [' ', '\t', '\n', '\r'])

def skipSpace (text : List Char) : List Char := text.dropWhile isSpace

def hexDigit (ch : Char) : Option Nat :=
  if '0' ≤ ch ∧ ch ≤ '9' then some (ch.toNat - 48)
  else if 'a' ≤ ch ∧ ch ≤ 'f' then some (ch.toNat - 87)
  else if 'A' ≤ ch ∧ ch ≤ 'F' then some (ch.toNat - 55)
  else none

/-- The four hexadecimal digits of an escape. -/
def codeUnit : List Char → Option (Nat × List Char)
  | a :: b :: c :: d :: rest => do
      let a ← hexDigit a
      let b ← hexDigit b
      let c ← hexDigit c
      let d ← hexDigit d
      some (((a * 16 + b) * 16 + c) * 16 + d, rest)
  | _ => none

/-- The second half of a surrogate pair, itself an escape. -/
def lowSurrogate (high : Nat) : List Char → Option (Char × List Char)
  | '\\' :: 'u' :: rest => do
      let (low, rest) ← codeUnit rest
      if 0xDC00 ≤ low ∧ low < 0xE000 then
        some (Char.ofNat (0x10000 + (high - 0xD800) * 0x400 + (low - 0xDC00)), rest)
      else none
  | _ => none

def unicodeEscape (text : List Char) : Option (Char × List Char) := do
  let (unit, rest) ← codeUnit text
  if 0xD800 ≤ unit ∧ unit < 0xDC00 then lowSurrogate unit rest
  else if 0xDC00 ≤ unit ∧ unit < 0xE000 then none
  else some (Char.ofNat unit, rest)

/-- What follows a backslash. -/
def escape : List Char → Option (Char × List Char)
  | [] => none
  | ch :: rest =>
      if ch ∈ ['"', '\\', '/'] then some (ch, rest)
      else if ch = 'b' then some ('\x08', rest)
      else if ch = 'f' then some ('\x0c', rest)
      else if ch = 'n' then some ('\n', rest)
      else if ch = 'r' then some ('\r', rest)
      else if ch = 't' then some ('\t', rest)
      else if ch = 'u' then unicodeEscape rest
      else none

/-- The characters up to the closing quote. -/
def stringBody : Nat → List Char → Option (List Char × List Char)
  | 0, _ => none
  | _ + 1, [] => none
  | fuel + 1, ch :: rest =>
      if ch = '"' then some ([], rest)
      else do
        let (ch, rest) ← if ch = '\\' then escape rest
          else if ch.toNat < 0x20 then none
          else some (ch, rest)
        let (chars, rest) ← stringBody fuel rest
        some (ch :: chars, rest)

def digits (text : List Char) : Option (List Char × List Char) :=
  if text.takeWhile Char.isDigit = [] then none
  else some (text.takeWhile Char.isDigit, text.dropWhile Char.isDigit)

def fraction : List Char → Option (List Char × List Char)
  | '.' :: rest => digits rest
  | rest => some ([], rest)

def exponentPart (text : List Char) : Option (Int × List Char) :=
  match text with
  | [] => some (0, [])
  | ch :: rest =>
      if ch = 'e' ∨ ch = 'E' then
        match rest with
        | '-' :: rest => do
            let (digits, rest) ← digits rest
            some (-(Nat.ofDigitChars 10 digits 0 : Int), rest)
        | '+' :: rest => do
            let (digits, rest) ← digits rest
            some (Nat.ofDigitChars 10 digits 0, rest)
        | rest => do
            let (digits, rest) ← digits rest
            some (Nat.ofDigitChars 10 digits 0, rest)
      else some (0, text)

/-- A number without its sign. No digit may follow a leading zero. -/
def magnitude (text : List Char) : Option (Nat × Int × List Char) := do
  let (whole, rest) ← digits text
  if whole.head? = some '0' ∧ whole ≠ ['0'] then none
  else
    let (part, rest) ← fraction rest
    let (exponent, rest) ← exponentPart rest
    some (Nat.ofDigitChars 10 (whole ++ part) 0, exponent - part.length, rest)

/-- A literal name. -/
def keyword (word : String) (value : Json) (text : List Char) : Option (Json × List Char) :=
  if word.toList.isPrefixOf text then some (value, text.drop word.length) else none

mutual

def value : Nat → List Char → Option (Json × List Char)
  | 0, _ => none
  | fuel + 1, text =>
      match skipSpace text with
      | [] => none
      | ch :: rest =>
          if ch = '"' then do
            let (chars, rest) ← stringBody fuel rest
            some (.string (String.ofList chars), rest)
          else if ch = '[' then
            match skipSpace rest with
            | ']' :: rest => some (.array [], rest)
            | rest => do
                let (items, rest) ← elements fuel rest
                some (.array items, rest)
          else if ch = '\x7b' then
            match skipSpace rest with
            | '\x7d' :: rest => some (.object [], rest)
            | rest => do
                let (members, rest) ← pairs fuel rest
                some (.object members, rest)
          else if ch = '-' then do
            let (mantissa, exponent, rest) ← magnitude rest
            some (.number (-mantissa) exponent, rest)
          else if ch.isDigit then do
            let (mantissa, exponent, rest) ← magnitude (ch :: rest)
            some (.number mantissa exponent, rest)
          else if ch = 't' then keyword "true" (.bool true) (ch :: rest)
          else if ch = 'f' then keyword "false" (.bool false) (ch :: rest)
          else keyword "null" .null (ch :: rest)

/-- The items of an array, at least one, with the closing bracket. -/
def elements : Nat → List Char → Option (List Json × List Char)
  | 0, _ => none
  | fuel + 1, text => do
      let (item, rest) ← value fuel text
      match skipSpace rest with
      | ']' :: rest => some ([item], rest)
      | ',' :: rest => do
          let (items, rest) ← elements fuel rest
          some (item :: items, rest)
      | _ => none

/-- The members of an object, at least one, with the closing brace. -/
def pairs : Nat → List Char → Option (List (String × Json) × List Char)
  | 0, _ => none
  | fuel + 1, text =>
      match skipSpace text with
      | '"' :: rest => do
          let (name, rest) ← stringBody fuel rest
          match skipSpace rest with
          | ':' :: rest => do
              let (item, rest) ← value fuel rest
              match skipSpace rest with
              | '\x7d' :: rest => some ([(String.ofList name, item)], rest)
              | ',' :: rest => do
                  let (members, rest) ← pairs fuel rest
                  some ((String.ofList name, item) :: members, rest)
              | _ => none
          | _ => none
      | _ => none

end

/-- The document a whole text stands for. -/
def decode (text : String) : Option Json := do
  let (document, rest) ← value (text.toList.length + 1) text.toList
  if skipSpace rest = [] then some document else none

/-! What is written without white space is read back. -/

/-- What may come after a value. -/
def Boundary (rest : List Char) : Prop :=
  ∀ first ∈ rest.head?, first = ',' ∨ first = ']' ∨ first = '\x7d'

/-- The text stands for the document wherever it ends at a boundary. -/
structure Reads (text : List Char) (document : Json) : Prop where
  starts : ∃ first tail, text = first :: tail ∧ isSpace first = false ∧ first ≠ ']'
  reads : ∀ fuel rest, text.length < fuel → Boundary rest →
    value fuel (text ++ rest) = some (document, rest)

/-- The text between two quotes stands for the characters. -/
def Quotes (body chars : List Char) : Prop :=
  ∀ fuel rest, body.length < fuel → stringBody fuel (body ++ '"' :: rest) = some (chars, rest)

theorem skipSpace_cons {first : Char} (solid : isSpace first = false) (rest : List Char) :
    skipSpace (first :: rest) = first :: rest := by
  rw [skipSpace, List.dropWhile_cons, solid]
  rfl

theorem Reads.skipSpace {text : List Char} {document : Json} (reads : Reads text document)
    (rest : List Char) : Json.skipSpace (text ++ rest) = text ++ rest := by
  obtain ⟨first, tail, rfl, solid, _⟩ := reads.starts
  exact skipSpace_cons solid (tail ++ rest)

theorem Boundary.not_digit {rest : List Char} (boundary : Boundary rest) :
    rest.takeWhile Char.isDigit = [] ∧ rest.dropWhile Char.isDigit = rest := by
  cases rest with
  | nil => exact ⟨rfl, rfl⟩
  | cons first tail =>
      have symbol : first.isDigit = false := by
        rcases boundary first rfl with rfl | rfl | rfl <;> rfl
      rw [List.takeWhile_cons, List.dropWhile_cons, symbol]
      exact ⟨rfl, rfl⟩

theorem Boundary.integer {rest : List Char} (boundary : Boundary rest) :
    fraction rest = some ([], rest) ∧ exponentPart rest = some (0, rest) := by
  cases rest with
  | nil => exact ⟨rfl, rfl⟩
  | cons first tail => rcases boundary first rfl with rfl | rfl | rfl <;> exact ⟨rfl, rfl⟩

theorem decode_reads {text : String} {document : Json} (reads : Reads text.toList document) :
    decode text = some document := by
  have whole := reads.reads (text.toList.length + 1) [] (Nat.lt_succ_self _) (by simp [Boundary])
  rw [List.append_nil] at whole
  rw [decode, whole]
  rfl

theorem reads_null : Reads "null".toList .null where
  starts := ⟨'n', _, rfl, rfl, by decide⟩
  reads
    | 0, _, enough, _ => absurd enough (Nat.not_lt_zero _)
    | _ + 1, _, _, _ => rfl

theorem reads_bool (flag : Bool) : Reads (toString flag).toList (.bool flag) := by
  cases flag with
  | false => exact ⟨⟨'f', _, rfl, rfl, by decide⟩, fun
      | 0, _, enough, _ => absurd enough (Nat.not_lt_zero _)
      | _ + 1, _, _, _ => rfl⟩
  | true => exact ⟨⟨'t', _, rfl, rfl, by decide⟩, fun
      | 0, _, enough, _ => absurd enough (Nat.not_lt_zero _)
      | _ + 1, _, _, _ => rfl⟩

theorem magnitude_toDigits (number : Nat) {rest : List Char} (boundary : Boundary rest) :
    magnitude (Nat.toDigits 10 number ++ rest) = some (number, 0, rest) := by
  have all := Numerals.allDigits_toDigits number
  have canonical :
      ¬ ((Nat.toDigits 10 number).head? = some '0' ∧ Nat.toDigits 10 number ≠ ['0']) := by
    rintro ⟨zero, longer⟩
    rw [Numerals.head_toDigits number zero, Nat.toDigits_zero] at longer
    exact longer rfl
  have read : digits (Nat.toDigits 10 number ++ rest) = some (Nat.toDigits 10 number, rest) := by
    rw [digits, List.takeWhile_append_of_pos all, List.dropWhile_append_of_pos all,
      boundary.not_digit.1, boundary.not_digit.2, List.append_nil, if_neg Nat.toDigits_ne_nil]
  rw [magnitude, read]
  simp only [Option.bind_eq_bind, Option.bind_some, if_neg canonical, boundary.integer.1,
    boundary.integer.2, List.append_nil, Nat.ofDigitChars_ten_toDigits, List.length_nil]
  rfl

/-- A digit is none of the other characters a value starts with. -/
theorem value_digit (fuel : Nat) {first : Char} (digit : first.isDigit = true) (rest : List Char) :
    isSpace first = false ∧ first ≠ ']' ∧ value (fuel + 1) (first :: rest) =
      (magnitude (first :: rest)).bind fun (mantissa, exponent, rest) =>
        some (.number mantissa exponent, rest) := by
  have symbol (other : Char) (plain : other.isDigit = false) : first ≠ other := by
    rintro rfl
    rw [digit] at plain
    cases plain
  have solid : isSpace first = false := by
    refine decide_eq_false fun blank => symbol first ?_ rfl
    simp only [List.mem_cons, List.not_mem_nil, or_false] at blank
    rcases blank with rfl | rfl | rfl | rfl <;> rfl
  refine ⟨solid, symbol _ rfl, ?_⟩
  rw [value, skipSpace_cons solid]
  simp only [if_neg (symbol '"' rfl), if_neg (symbol '[' rfl), if_neg (symbol '\x7b' rfl),
    if_neg (symbol '-' rfl), if_pos digit]
  rfl

theorem reads_number (number : Nat) : Reads (Nat.toDigits 10 number) (.number number 0) := by
  obtain ⟨first, tail, shape⟩ :=
    List.exists_cons_of_ne_nil (Nat.toDigits_ne_nil (n := number) (b := 10))
  have digit : first.isDigit = true :=
    Numerals.allDigits_toDigits number first (shape ▸ List.mem_cons_self)
  have starts := value_digit 0 digit []
  refine ⟨⟨first, tail, shape, starts.1, starts.2.1⟩, ?_⟩
  intro fuel rest enough boundary
  obtain _ | fuel := fuel
  · exact absurd enough (Nat.not_lt_zero _)
  · have read := (value_digit fuel digit (tail ++ rest)).2.2
    rw [← List.cons_append, ← shape, magnitude_toDigits number boundary] at read
    exact read

/-! Strings. -/

/-- A way of writing characters between quotes that is read back one by one. -/
structure Escaping (write : Char → List Char) : Prop where
  nonempty : ∀ ch, write ch ≠ []
  reads : ∀ ch fuel rest, stringBody (fuel + 1) (write ch ++ rest) =
    (stringBody fuel rest).map fun (chars, rest) => (ch :: chars, rest)

theorem Escaping.quotes {write : Char → List Char} (escaping : Escaping write)
    (chars : List Char) : Quotes (chars.flatMap write) chars := by
  induction chars with
  | nil =>
      intro fuel rest enough
      obtain _ | fuel := fuel
      · exact absurd enough (Nat.not_lt_zero _)
      · rfl
  | cons ch chars ih =>
      intro fuel rest enough
      rw [List.flatMap_cons, List.length_append] at enough
      have some_ := List.length_pos_iff.mpr (escaping.nonempty ch)
      obtain _ | fuel := fuel
      · exact absurd enough (Nat.not_lt_zero _)
      · rw [List.flatMap_cons, List.append_assoc, escaping.reads, ih fuel rest (by omega)]
        rfl

theorem stringBody_escape {text rest : List Char} {ch : Char} (read : escape text = some (ch, rest))
    (fuel : Nat) :
    stringBody (fuel + 1) ('\\' :: text) =
      (stringBody fuel rest).map fun (chars, rest) => (ch :: chars, rest) := by
  rw [stringBody, if_neg (by decide), if_pos rfl, read]
  simp only [Option.bind_eq_bind, Option.bind_some]
  cases stringBody fuel rest <;> rfl

theorem hexDigit_digitChar : ∀ value < 16, hexDigit (Nat.digitChar value) = some value := by
  decide

/-- Below the surrogates a code is escaped by its hexadecimal digits. -/
theorem escape_code (ch : Char) (small : ch.toNat < 0x100) (rest : List Char) :
    escape ('u' :: '0' :: '0' :: Nat.digitChar (ch.toNat / 16) :: Nat.digitChar (ch.toNat % 16) ::
      rest) = some (ch, rest) := by
  have zero : hexDigit '0' = some 0 := by decide
  have unit : codeUnit ('0' :: '0' :: Nat.digitChar (ch.toNat / 16) ::
      Nat.digitChar (ch.toNat % 16) :: rest) = some (ch.toNat, rest) := by
    rw [codeUnit, zero, hexDigit_digitChar _ (by omega), hexDigit_digitChar _ (by omega)]
    simp only [Option.bind_eq_bind, Option.bind_some]
    congr 2
    omega
  have escaped : escape ('u' :: '0' :: '0' :: Nat.digitChar (ch.toNat / 16) ::
      Nat.digitChar (ch.toNat % 16) :: rest) = unicodeEscape ('0' :: '0' ::
        Nat.digitChar (ch.toNat / 16) :: Nat.digitChar (ch.toNat % 16) :: rest) := rfl
  rw [escaped, unicodeEscape, unit]
  simp only [Option.bind_eq_bind, Option.bind_some]
  rw [if_neg (by omega), if_neg (by omega), Char.ofNat_toNat]

/-- A character that stands for itself between quotes. -/
def Plain (ch : Char) : Prop := ch ≠ '"' ∧ ch ≠ '\\' ∧ 0x20 ≤ ch.toNat

instance (ch : Char) : Decidable (Plain ch) := inferInstanceAs (Decidable (_ ∧ _ ∧ _))

theorem stringBody_plain {ch : Char} (plain : Plain ch) (fuel : Nat) (rest : List Char) :
    stringBody (fuel + 1) (ch :: rest) =
      (stringBody fuel rest).map fun (chars, rest) => (ch :: chars, rest) := by
  obtain ⟨quote, backslash, printable⟩ := plain
  rw [stringBody, if_neg quote, if_neg backslash, if_neg (Nat.not_lt.mpr printable)]
  simp only [Option.bind_eq_bind, Option.bind_some]
  cases stringBody fuel rest <;> rfl

theorem quotes_plain (chars : List Char) (plain : ∀ ch ∈ chars, Plain ch) : Quotes chars chars := by
  induction chars with
  | nil =>
      intro fuel rest enough
      obtain _ | fuel := fuel
      · exact absurd enough (Nat.not_lt_zero _)
      · rfl
  | cons ch chars ih =>
      have tail := ih fun other member => plain other (List.mem_cons_of_mem ch member)
      intro fuel rest enough
      obtain _ | fuel := fuel
      · exact absurd enough (Nat.not_lt_zero _)
      · rw [List.cons_append, stringBody_plain (plain ch List.mem_cons_self),
          tail fuel rest (by simpa using enough)]
        rfl

theorem reads_string {body : List Char} {text : String} (quotes : Quotes body text.toList) :
    Reads ('"' :: body ++ ['"']) (.string text) := by
  refine ⟨⟨'"', body ++ ['"'], rfl, rfl, by decide⟩, ?_⟩
  intro fuel rest enough _
  obtain _ | fuel := fuel
  · exact absurd enough (Nat.not_lt_zero _)
  · have inside : body.length < fuel := by
      simp at enough
      omega
    rw [List.cons_append, List.cons_append, List.append_assoc, List.singleton_append, value,
      skipSpace_cons rfl]
    simp only [if_true, quotes fuel rest inside]
    rw [Option.bind_eq_bind, Option.bind_some, String.ofList_toList]

/-! Arrays and objects. -/

theorem value_bracket (fuel : Nat) (text : List Char) :
    value (fuel + 1) ('[' :: text) =
      match skipSpace text with
      | ']' :: rest => some (.array [], rest)
      | rest => (elements fuel rest).bind fun (items, rest) => some (.array items, rest) := rfl

theorem value_brace (fuel : Nat) (text : List Char) :
    value (fuel + 1) ('\x7b' :: text) =
      match skipSpace text with
      | '\x7d' :: rest => some (.object [], rest)
      | rest => (pairs fuel rest).bind fun (members, rest) => some (.object members, rest) := rfl

theorem elements_reads (texts : List (List Char)) (items : List Json)
    (reads : List.Forall₂ Reads texts items) (some_ : texts ≠ []) (fuel : Nat) (rest : List Char)
    (enough : ([','].intercalate texts).length + 1 < fuel) :
    elements fuel ([','].intercalate texts ++ ']' :: rest) = some (items, rest) := by
  induction reads generalizing fuel with
  | nil => exact absurd rfl some_
  | @cons text item texts items head tail ih =>
      obtain _ | fuel := fuel
      · exact absurd enough (Nat.not_lt_zero _)
      cases tail with
      | nil =>
          rw [List.intercalate_singleton] at enough ⊢
          rw [elements, head.reads fuel (']' :: rest) (by omega) (by simp [Boundary])]
          rfl
      | @cons next other texts items second tail =>
          rw [List.intercalate_cons_cons] at enough ⊢
          simp only [List.length_append, List.length_singleton] at enough
          rw [List.append_assoc, List.append_assoc, List.singleton_append, elements,
            head.reads fuel _ (by omega) (by simp [Boundary])]
          simp only [Option.bind_eq_bind, Option.bind_some]
          rw [skipSpace_cons rfl]
          simp only
          rw [ih (List.cons_ne_nil _ _) fuel (by omega)]
          rfl

theorem reads_array (texts : List (List Char)) (items : List Json)
    (reads : List.Forall₂ Reads texts items) :
    Reads ('[' :: [','].intercalate texts ++ [']']) (.array items) := by
  refine ⟨⟨'[', _, rfl, rfl, by decide⟩, ?_⟩
  intro fuel rest enough _
  obtain _ | fuel := fuel
  · exact absurd enough (Nat.not_lt_zero _)
  rw [List.cons_append, List.cons_append, List.append_assoc, List.singleton_append, value_bracket]
  cases reads with
  | nil => rfl
  | @cons text item texts items head tail =>
      have inside : ([','].intercalate (text :: texts)).length + 1 < fuel := by
        simp only [List.cons_append, List.length_cons, List.length_append, List.length_nil] at enough
        omega
      have read := elements_reads _ _ (List.Forall₂.cons head tail) (List.cons_ne_nil _ _) fuel rest
        inside
      obtain ⟨first, after, shape, solid, open_⟩ := head.starts
      have start : ∃ later, [','].intercalate (text :: texts) ++ ']' :: rest = first :: later := by
        rw [shape, List.intercalate_cons_cons_left]
        exact ⟨_, rfl⟩
      obtain ⟨later, starts⟩ := start
      rw [starts] at read ⊢
      rw [skipSpace_cons solid]
      split
      next other same => exact absurd (List.cons.inj same).1 open_
      next => rw [read]; rfl

theorem reads_items {Item : Type} (write : Item → String) (document : Item → Json)
    (reads : ∀ item, Reads (write item).toList (document item)) (items : List Item) :
    Reads ("[" ++ ",".intercalate (items.map write) ++ "]").toList
      (.array (items.map document)) := by
  have each : List.Forall₂ Reads ((items.map write).map String.toList) (items.map document) := by
    rw [List.map_map, List.forall₂_map_left_iff, List.forall₂_map_right_iff, List.forall₂_same]
    exact fun item _ => reads item
  have whole := reads_array _ _ each
  rw [String.toList_append, String.toList_append, String.toList_intercalate]
  exact whole

/-- One member of an object, given its quoted name and the text of its value. -/
def memberText (field : List Char × List Char) : List Char :=
  '"' :: field.1 ++ '"' :: ':' :: field.2

/-- The two texts of a member stand for its name and its value. -/
def ReadsMember (field : List Char × List Char) (member : String × Json) : Prop :=
  Quotes field.1 member.1.toList ∧ Reads field.2 member.2

theorem pairs_member {fuel : Nat} {field : List Char × List Char} {member : String × Json}
    (reads : ReadsMember field member) (rest : List Char) (boundary : Boundary rest)
    (enough : (memberText field).length < fuel + 1) :
    pairs (fuel + 1) (memberText field ++ rest) =
      match skipSpace rest with
      | '\x7d' :: rest => some ([member], rest)
      | ',' :: rest => (pairs fuel rest).bind fun (members, rest) => some (member :: members, rest)
      | _ => none := by
  obtain ⟨body, text⟩ := field
  obtain ⟨name, item⟩ := member
  obtain ⟨quotes, reads⟩ := reads
  simp only [memberText, List.length_cons, List.length_append, List.cons_append] at enough
  have named : stringBody fuel (body ++ '"' :: ':' :: (text ++ rest)) =
      some (name.toList, ':' :: (text ++ rest)) :=
    quotes fuel _ (show body.length < fuel by omega)
  have valued : value fuel (text ++ rest) = some (item, rest) :=
    reads.reads fuel rest (show text.length < fuel by omega) boundary
  rw [memberText, List.cons_append, List.cons_append, List.append_assoc, List.cons_append,
    List.cons_append, pairs, skipSpace_cons rfl]
  simp only [named, Option.bind_eq_bind, Option.bind_some]
  rw [skipSpace_cons rfl]
  simp only [valued, Option.bind_some, String.ofList_toList]

theorem pairs_reads (fields : List (List Char × List Char)) (members : List (String × Json))
    (reads : List.Forall₂ ReadsMember fields members) (some_ : fields ≠ []) (fuel : Nat)
    (rest : List Char) (enough : ([','].intercalate (fields.map memberText)).length + 1 < fuel) :
    pairs fuel ([','].intercalate (fields.map memberText) ++ '\x7d' :: rest) =
      some (members, rest) := by
  induction reads generalizing fuel with
  | nil => exact absurd rfl some_
  | @cons field member fields members head tail ih =>
      obtain _ | fuel := fuel
      · exact absurd enough (Nat.not_lt_zero _)
      cases tail with
      | nil =>
          rw [List.map_singleton, List.intercalate_singleton] at enough ⊢
          rw [pairs_member head _ (by simp [Boundary]) (by omega)]
          rfl
      | @cons next other fields members second tail =>
          rw [List.map_cons, List.map_cons, List.intercalate_cons_cons] at enough ⊢
          simp only [List.length_append, List.length_singleton] at enough
          rw [List.append_assoc, List.append_assoc, List.singleton_append,
            pairs_member head _ (by simp [Boundary]) (by omega), skipSpace_cons rfl]
          simp only
          rw [← List.map_cons, ih (List.cons_ne_nil _ _) fuel (by rw [List.map_cons]; omega)]
          rfl

theorem reads_object (fields : List (List Char × List Char)) (members : List (String × Json))
    (reads : List.Forall₂ ReadsMember fields members) :
    Reads ('\x7b' :: [','].intercalate (fields.map memberText) ++ ['\x7d']) (.object members) := by
  refine ⟨⟨'\x7b', _, rfl, rfl, by decide⟩, ?_⟩
  intro fuel rest enough _
  obtain _ | fuel := fuel
  · exact absurd enough (Nat.not_lt_zero _)
  rw [List.cons_append, List.cons_append, List.append_assoc, List.singleton_append, value_brace]
  cases reads with
  | nil => rfl
  | @cons field member fields members head tail =>
      have inside : ([','].intercalate ((field :: fields).map memberText)).length + 1 < fuel := by
        simp only [List.cons_append, List.length_cons, List.length_append, List.length_nil] at enough
        omega
      have read := pairs_reads _ _ (List.Forall₂.cons head tail) (List.cons_ne_nil _ _) fuel rest
        inside
      have start : ∃ later, [','].intercalate ((field :: fields).map memberText) ++ '\x7d' :: rest =
          '"' :: later := by
        rw [List.map_cons, memberText, List.cons_append, List.intercalate_cons_cons_left]
        exact ⟨_, rfl⟩
      obtain ⟨later, starts⟩ := start
      rw [starts] at read ⊢
      rw [skipSpace_cons rfl]
      exact congrArg (fun read => read.bind fun (members, rest) => some (object members, rest)) read

/-! Reading a document. -/

/-- The member of the given name, the first where there are several. -/
def field (name : String) : Json → Option Json
  | .object members => members.lookup name
  | _ => none

def asBool : Json → Option Bool
  | .bool value => some value
  | _ => none

def asNat : Json → Option Nat
  | .number mantissa exponent => if 0 ≤ mantissa ∧ exponent = 0 then some mantissa.toNat else none
  | _ => none

def asString : Json → Option String
  | .string text => some text
  | _ => none

/-- Every item has to be read. -/
def asList {Item : Type} (read : Json → Option Item) : Json → Option (List Item)
  | .array items => items.mapM read
  | _ => none

def asOption {Item : Type} (read : Json → Option Item) : Json → Option (Option Item)
  | .null => some none
  | document => (read document).map some

theorem asNat_number (number : Nat) : asNat (.number number 0) = some number := by
  rw [asNat, if_pos ⟨Int.natCast_nonneg number, rfl⟩, Int.toNat_natCast]

theorem asList_map {Item : Type} {read : Json → Option Item} {document : Item → Json}
    (inverse : ∀ item, read (document item) = some item) (items : List Item) :
    asList read (.array (items.map document)) = some items := by
  induction items with
  | nil => rfl
  | cons item rest ih =>
      rw [asList] at ih ⊢
      rw [List.map_cons, List.mapM_cons, inverse, ih]
      rfl

example : (decode " [ \"\\ud83d\\ude00\", 2.50e1 ]").isSome = true := by decide +kernel

example : (decode "[\"\\ud83d\"]").isSome = false := by decide +kernel

end Json
