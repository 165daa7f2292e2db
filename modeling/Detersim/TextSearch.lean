import Detersim.Report
import Detersim.Numerals
import Mathlib.Data.List.Infix

/-!
Searching a text that is put together from parts: a search finds a part, or
nothing, by the characters that the parts have or lack.
-/

namespace Detersim

theorem splitOnce_isSome_iff (sep text : List Char) :
    (splitOnce sep text).isSome = true ↔ sep <:+: text := by
  induction text with
  | nil =>
      by_cases empty : sep = []
      · simp [splitOnce, empty]
      · simp [splitOnce, empty, List.infix_nil]
  | cons ch rest ih =>
      rw [splitOnce, List.infix_cons_iff]
      by_cases front : sep.isPrefixOf (ch :: rest) = true
      · rw [if_pos front]
        exact iff_of_true rfl (Or.inl (List.isPrefixOf_iff_prefix.mp front))
      · have later : ¬sep <+: ch :: rest := fun pre => front (List.isPrefixOf_iff_prefix.mpr pre)
        rw [if_neg front, Option.isSome_map, ih, or_iff_right later]

theorem contains_iff (text part : String) :
    contains text part = true ↔ part.toList <:+: text.toList :=
  splitOnce_isSome_iff part.toList text.toList

theorem contains_ofList (text : List Char) (part : String) :
    contains (String.ofList text) part = true ↔ part.toList <:+: text := by
  rw [contains_iff, String.toList_ofList (l := text)]

theorem splitOnce_eq_none {sep text : List Char} (absent : ¬sep <:+: text) :
    splitOnce sep text = none := by
  rwa [← splitOnce_isSome_iff, Bool.not_eq_true, Option.isSome_eq_false_iff,
    Option.isNone_iff_eq_none] at absent

/-- The separator is found where its first character first stands. -/
theorem splitOnce_first {first : Char} {text : List Char} (fresh : first ∉ text)
    (sep rest : List Char) :
    splitOnce (first :: sep) (text ++ (first :: sep ++ rest)) = some (text, rest) := by
  induction text with
  | nil =>
      have front : (first :: sep).isPrefixOf (first :: sep ++ rest) = true :=
        List.isPrefixOf_iff_prefix.mpr (List.prefix_append _ _)
      rw [List.nil_append, List.cons_append, splitOnce, ← List.cons_append, if_pos front,
        List.drop_left]
  | cons ch text ih =>
      rw [List.mem_cons, not_or] at fresh
      have other : ¬(first :: sep).isPrefixOf (ch :: (text ++ (first :: sep ++ rest))) = true := by
        simp [List.isPrefixOf, fresh.1]
      rw [List.cons_append, splitOnce, if_neg other, ih fresh.2]
      rfl

theorem not_infix_of_mem {part text : List Char} {ch : Char} (inside : ch ∈ part)
    (absent : ch ∉ text) : ¬part <:+: text :=
  fun found => absent (found.subset inside)

theorem prefix_append_cases {part text rest : List Char} (front : part <+: text ++ rest) :
    part <+: text ∨ ∃ more, more ≠ [] ∧ part = text ++ more ∧ more <+: rest := by
  rcases List.prefix_or_prefix_of_prefix front (List.prefix_append text rest) with inside | beyond
  · exact Or.inl inside
  · obtain ⟨more, rfl⟩ := beyond
    by_cases none_ : more = []
    · exact Or.inl (by rw [none_, List.append_nil])
    · exact Or.inr ⟨more, none_, rfl, (List.prefix_append_right_inj text).mp front⟩

/-- A part that does not have the character lies on one side of it. -/
theorem infix_split {part text rest : List Char} {ch : Char} (absent : ch ∉ part)
    (found : part <:+: text ++ ch :: rest) : part <:+: text ∨ part <:+: rest := by
  have front {before : List Char} (pre : part <+: before ++ ch :: rest) : part <+: before := by
    rcases prefix_append_cases pre with inside | ⟨more, some_, rfl, tail⟩
    · exact inside
    · cases more with
      | nil => exact absurd rfl some_
      | cons other more =>
          obtain ⟨rfl, _⟩ := List.cons_prefix_cons.mp tail
          exact absurd (by simp) absent
  induction text with
  | nil =>
      rcases List.infix_cons_iff.mp found with pre | later
      · exact Or.inl (front (List.nil_append (ch :: rest) ▸ pre)).isInfix
      · exact Or.inr later
  | cons other text ih =>
      rcases List.infix_cons_iff.mp found with pre | later
      · exact Or.inl (front pre).isInfix
      · exact (ih later).imp (List.infix_cons ·) id

/-- A part whose last character is not in the rest lies before it. -/
theorem infix_of_last {part text rest : List Char} {last : Char} (ends : part.getLast? = some last)
    (absent : last ∉ rest) (found : part <:+: text ++ rest) : part <:+: text := by
  have inside : last ∈ part := List.mem_of_getLast? ends
  induction text with
  | nil => exact absurd (found.subset inside) absent
  | cons other text ih =>
      rcases List.infix_cons_iff.mp found with pre | later
      · have whole : part <+: (other :: text) ++ rest := pre
        rcases prefix_append_cases whole with front | ⟨more, some_, rfl, tail⟩
        · exact front.isInfix
        · rw [List.getLast?_append, List.getLast?_eq_some_getLast some_, Option.some_or] at ends
          have member := List.getLast_mem some_
          rw [Option.some.inj ends] at member
          exact absurd (tail.subset member) absent
      · exact List.infix_cons (ih later)

/-- The part of a text up to a separator. -/
theorem firstPart_word {separator : Char → Bool} {word : List Char} (some_ : word ≠ [])
    (inside : ∀ ch ∈ word, separator ch = false) {ch : Char} (ends : separator ch = true)
    (rest : List Char) : firstPart separator (word ++ ch :: rest) = some (String.ofList word) := by
  have kept : ((word ++ ch :: rest).dropWhile separator) = word ++ ch :: rest := by
    cases word with
    | nil => exact absurd rfl some_
    | cons first word =>
        rw [List.cons_append, List.dropWhile_cons_of_neg]
        simp [inside first List.mem_cons_self]
  have taken : (word ++ ch :: rest).takeWhile (fun other => !separator other) = word := by
    rw [List.takeWhile_append_of_pos fun other member => by simp [inside other member],
      List.takeWhile_cons_of_neg (by simp [ends]), List.append_nil]
  rw [firstPart, kept, taken]
  cases word with
  | nil => exact absurd rfl some_
  | cons first word => rfl

end Detersim
