import Mathlib.Data.List.GetD
import Mathlib.Data.List.Induction
import Mathlib.Order.MinMax

/-!
Images that are written over: each write puts its cells at a position and, where
the image is too short, fills the gap with blanks. A log of writes is followed by
position: the length grows to the furthest end, and a position shows the last
write that covers it, or the first one when the log is applied backwards.
-/

namespace Overwrites

variable {Cell : Type}

structure Write (Cell : Type) where
  start : Nat
  cells : List Cell

namespace Write

def stop (write : Write Cell) : Nat := write.start + write.cells.length

/-- What the write puts at a position it covers. -/
def at_ (write : Write Cell) (index : Nat) : Option Cell :=
  if write.start ≤ index then write.cells[index - write.start]? else none

def covers (write : Write Cell) (index : Nat) : Bool := (write.at_ index).isSome

theorem at_eq_none {write : Write Cell} {index : Nat} (beyond : write.stop ≤ index) :
    write.at_ index = none := by
  have none_ : write.cells[index - write.start]? = none := by
    apply List.getElem?_eq_none
    rw [stop] at beyond
    omega
  rw [at_, none_, ite_self]

/-- No position is covered by both. -/
def Disjoint (left right : Write Cell) : Prop :=
  ∀ index, left.covers index = true → right.covers index = false

end Write

/-- The image of a length whose positions are known. -/
def picture (length : Nat) (cell : Nat → Cell) : List Cell := (List.range length).map cell

def reach (length : Nat) (log : List (Write Cell)) : Nat :=
  log.foldl (fun length write => max length write.stop) length

def latest (log : List (Write Cell)) (index : Nat) : Option Cell :=
  log.reverse.findSome? fun write => write.at_ index

def earliest (log : List (Write Cell)) (index : Nat) : Option Cell :=
  log.findSome? fun write => write.at_ index

variable (blank : Cell)

def overwrite (image : List Cell) (write : Write Cell) : List Cell :=
  let resized := image ++ List.replicate (write.stop - image.length) blank
  resized.take write.start ++ write.cells ++ resized.drop write.stop

def replay (image : List Cell) (log : List (Write Cell)) : List Cell :=
  log.foldl (overwrite blank) image

theorem length_overwrite (image : List Cell) (write : Write Cell) :
    (overwrite blank image write).length = max image.length write.stop := by
  simp only [overwrite, Write.stop, List.length_append, List.length_take, List.length_drop,
    List.length_replicate]
  omega

theorem getD_overwrite (image : List Cell) (write : Write Cell) (index : Nat) :
    (overwrite blank image write).getD index blank =
      (write.at_ index).getD (image.getD index blank) := by
  have resized (position : Nat) :
      (image ++ List.replicate (write.stop - image.length) blank).getD position blank =
        image.getD position blank := by
    by_cases inside : position < image.length
    · rw [List.getD_append _ _ _ _ inside]
    · rw [List.getD_append_right _ _ _ _ (Nat.le_of_not_lt inside), List.getD_eq_getElem?_getD,
        List.getElem?_getD_replicate_default_eq, List.getD_eq_default _ _ (Nat.le_of_not_lt inside)]
  have filled : write.stop ≤
      (image ++ List.replicate (write.stop - image.length) blank).length := by
    rw [List.length_append, List.length_replicate]
    omega
  unfold overwrite
  dsimp only
  generalize image ++ List.replicate (write.stop - image.length) blank = wide at resized filled
  have front : (wide.take write.start).length = write.start := by
    rw [List.length_take]
    unfold Write.stop at filled
    omega
  rcases Nat.lt_or_ge index write.start with before | after
  · have outside : write.at_ index = none := if_neg (Nat.not_le_of_lt before)
    rw [outside, Option.getD_none, List.append_assoc, List.getD_append _ _ _ _ (by rwa [front]),
      ← resized, List.getD_eq_getElem?_getD, List.getD_eq_getElem?_getD,
      List.getElem?_take_of_lt before]
  · rw [List.append_assoc, List.getD_append_right _ _ _ _ (by rwa [front]), front]
    rcases Nat.lt_or_ge index write.stop with covered | beyond
    · have inside : index - write.start < write.cells.length := by
        unfold Write.stop at covered
        omega
      rw [List.getD_append _ _ _ _ inside, Write.at_, if_pos after,
        List.getElem?_eq_getElem inside, List.getD_eq_getElem _ _ inside, Option.getD_some]
    · rw [Write.at_eq_none beyond, Option.getD_none, ← resized,
        List.getD_append_right _ _ _ _ (by unfold Write.stop at beyond; omega)]
      simp only [List.getD_eq_getElem?_getD, List.getElem?_drop]
      congr 2
      unfold Write.stop at beyond ⊢
      omega

theorem length_replay (image : List Cell) (log : List (Write Cell)) :
    (replay blank image log).length = reach image.length log := by
  induction log generalizing image with
  | nil => rfl
  | cons write rest ih => exact (ih _).trans (by rw [length_overwrite, reach]; rfl)

omit blank in
theorem latest_append (log : List (Write Cell)) (write : Write Cell) (index : Nat) :
    latest (log ++ [write]) index = (write.at_ index).or (latest log index) := by
  simp only [latest, List.reverse_append, List.reverse_cons, List.reverse_nil, List.nil_append,
    List.cons_append, List.findSome?_cons]
  cases write.at_ index <;> rfl

/-- Position by position, the log shows its last write. -/
theorem getD_replay (image : List Cell) (log : List (Write Cell)) (index : Nat) :
    (replay blank image log).getD index blank =
      (latest log index).getD (image.getD index blank) := by
  induction log using List.reverseRecOn with
  | nil => rfl
  | append_singleton log write ih =>
      rw [replay, List.foldl_append, List.foldl_cons, List.foldl_nil, getD_overwrite, ← replay, ih,
        latest_append]
      cases write.at_ index <;> rfl

omit blank in
theorem reach_perm {left right : List (Write Cell)} (permutation : left.Perm right) (length : Nat) :
    reach length left = reach length right := by
  apply permutation.foldl_eq'
  intro first _ second _ length
  exact max_right_comm length first.stop second.stop

omit blank in
theorem latest_reverse (log : List (Write Cell)) (index : Nat) :
    latest log.reverse index = earliest log index := by
  rw [latest, List.reverse_reverse, earliest]

omit blank in
theorem picture_ext {length : Nat} {left right : Nat → Cell}
    (same : ∀ index < length, left index = right index) :
    picture length left = picture length right :=
  List.map_congr_left fun index member => same index (List.mem_range.mp member)

omit blank in
theorem getElem?_picture (length : Nat) (cell : Nat → Cell) (index : Nat) :
    (picture length cell)[index]? = if index < length then some (cell index) else none := by
  rw [picture, List.getElem?_map]
  split_ifs with inside
  · rw [List.getElem?_range inside, Option.map_some]
  · rw [List.getElem?_eq_none (by simpa using inside), Option.map_none]

/-- An image is the picture of its positions. -/
theorem picture_getD (image : List Cell) :
    picture image.length (fun index => image.getD index blank) = image := by
  apply List.ext_getElem?
  intro index
  rw [getElem?_picture]
  split_ifs with inside
  · rw [List.getD_eq_getElem _ _ inside, List.getElem?_eq_getElem inside]
  · rw [List.getElem?_eq_none (Nat.le_of_not_lt inside)]

theorem replay_eq (image : List Cell) (log : List (Write Cell)) :
    replay blank image log = picture (reach image.length log) fun index =>
      (latest log index).getD (image.getD index blank) := by
  rw [← picture_getD blank (replay blank image log), length_replay]
  exact picture_ext fun index _ => getD_replay blank image log index

theorem replay_reverse_eq (image : List Cell) (log : List (Write Cell)) :
    replay blank image log.reverse = picture (reach image.length log) fun index =>
      (earliest log index).getD (image.getD index blank) := by
  rw [replay_eq, reach_perm log.reverse_perm]
  exact picture_ext fun index _ => by rw [latest_reverse]

omit blank

/-- The first and the last write that cover a position differ only if there are two. -/
theorem latest_eq_earliest {log : List (Write Cell)} {index : Nat}
    (once : log.countP (fun write => write.covers index) ≤ 1) :
    latest log index = earliest log index := by
  induction log with
  | nil => rfl
  | cons write rest ih =>
      rw [List.countP_cons] at once
      have later : latest (write :: rest) index = (latest rest index).or (write.at_ index) := by
        rw [latest, List.reverse_cons, List.findSome?_append]
        simp [latest]
      rw [later, earliest, List.findSome?_cons]
      cases covered : write.at_ index with
      | none =>
          rw [Option.or_none]
          exact ih (by omega)
      | some cell =>
          have alone : rest.countP (fun write => write.covers index) = 0 := by
            simp only [Write.covers, covered, Option.isSome_some, if_true] at once ⊢
            omega
          have bare : latest rest index = none := by
            rw [latest, List.findSome?_eq_none_iff]
            intro other member
            have uncovered := List.countP_eq_zero.mp alone other (List.mem_reverse.mp member)
            simpa [Write.covers] using uncovered
          rw [bare, Option.none_or]

theorem countP_covers_le_one {log : List (Write Cell)} (disjoint : log.Pairwise Write.Disjoint)
    (index : Nat) : log.countP (fun write => write.covers index) ≤ 1 := by
  induction log with
  | nil => exact Nat.zero_le 1
  | cons write rest ih =>
      obtain ⟨apart, others⟩ := List.pairwise_cons.mp disjoint
      rw [List.countP_cons]
      split_ifs with covered
      · have alone : rest.countP (fun write => write.covers index) = 0 := by
          apply List.countP_eq_zero.mpr
          intro other member
          rw [apart other member index covered]
          exact Bool.false_ne_true
        omega
      · exact ih others

end Overwrites
