import Mathlib.Data.List.Perm.Subperm
import Mathlib.Data.Set.Card

/-!
Depth-first search with a memo table and a step budget, as a relation that says
what such a search may do and leaves its bookkeeping open: when the budget gives
out, what is counted, and whether a search that gave up stops early. A concrete
search refines it. `rank` must decrease along edges, so no node is met again
below itself; this is what lets the memo table be filled before a node is
explored.
-/

namespace MemoSearch

structure Memo (Node : Type) where
  seen : List Node
  inconclusive : Bool

def Memo.remember {Node : Type} (memo : Memo Node) (node : Node) : Memo Node :=
  { memo with seen := memo.seen ++ [node] }

def Memo.giveUp {Node : Type} (memo : Memo Node) : Memo Node :=
  { memo with inconclusive := true }

variable {Node Label : Type} {goal : Node → Prop} {children : Node → List (Label × Node)}
  {budget : Memo Node → Prop}

/-- A search over the listed siblings: the path it found, if any, and the memo
it leaves behind. -/
inductive Explores (goal : Node → Prop) (children : Node → List (Label × Node))
    (budget : Memo Node → Prop) :
    List (Label × Node) → Memo Node → Option (List Label) → Memo Node → Prop where
  | nil (memo) : Explores goal children budget [] memo none memo
  | quit {siblings memo} (gaveUp : memo.inconclusive = true) :
      Explores goal children budget siblings memo none memo
  | leaf {label node siblings memo} (done : goal node) :
      Explores goal children budget ((label, node) :: siblings) memo (some [label]) memo
  | exhausted {label node siblings memo result after} (spent : budget memo) :
      Explores goal children budget siblings memo.giveUp result after →
      Explores goal children budget ((label, node) :: siblings) memo result after
  | pruned {label node siblings memo result after} (known : node ∈ memo.seen) :
      Explores goal children budget siblings memo result after →
      Explores goal children budget ((label, node) :: siblings) memo result after
  | found {label node siblings memo path after} (inner : ¬ goal node) (fresh : node ∉ memo.seen) :
      Explores goal children budget (children node) (memo.remember node) (some path) after →
      Explores goal children budget ((label, node) :: siblings) memo (some (label :: path)) after
  | barren {label node siblings memo middle result after}
      (inner : ¬ goal node) (fresh : node ∉ memo.seen) :
      Explores goal children budget (children node) (memo.remember node) none middle →
      Explores goal children budget siblings middle result after →
      Explores goal children budget ((label, node) :: siblings) memo result after

/-- The labels lead along edges from the node to a goal. -/
inductive Leads (goal : Node → Prop) (children : Node → List (Label × Node)) :
    Node → List Label → Prop where
  | done {node} : goal node → Leads goal children node []
  | step {node next label labels} : (label, next) ∈ children node →
      Leads goal children next labels → Leads goal children node (label :: labels)

def Dead (goal : Node → Prop) (children : Node → List (Label × Node)) (node : Node) : Prop :=
  ∀ labels, ¬ Leads goal children node labels

theorem explores_sound {siblings : List (Label × Node)} {memo after : Memo Node}
    {result : Option (List Label)}
    (explored : Explores goal children budget siblings memo result after)
    (path : List Label) (success : result = some path) :
    ∃ label node rest, (label, node) ∈ siblings ∧ path = label :: rest ∧
      Leads goal children node rest := by
  induction explored generalizing path with
  | nil => cases success
  | quit => cases success
  | leaf done =>
      cases success
      exact ⟨_, _, _, List.mem_cons_self, rfl, Leads.done done⟩
  | exhausted _ _ ih | pruned _ _ ih | barren _ _ _ _ _ ih =>
      obtain ⟨label, node, rest, member, shape, leads⟩ := ih path success
      exact ⟨label, node, rest, List.mem_cons_of_mem _ member, shape, leads⟩
  | found _ _ _ ih =>
      cases success
      obtain ⟨label, node, rest, member, shape, leads⟩ := ih _ rfl
      exact ⟨_, _, _, List.mem_cons_self, rfl, shape ▸ Leads.step member leads⟩

theorem explores_keeps_giving_up {siblings : List (Label × Node)} {memo after : Memo Node}
    {result : Option (List Label)}
    (explored : Explores goal children budget siblings memo result after)
    (gaveUp : memo.inconclusive = true) : after.inconclusive = true := by
  induction explored with
  | nil | quit | leaf => exact gaveUp
  | exhausted _ _ ih => exact ih rfl
  | pruned _ _ ih | found _ _ _ ih => exact ih gaveUp
  | barren _ _ _ _ first second => exact second (first gaveUp)

theorem dead_of_children (node : Node) (inner : ¬ goal node)
    (all : ∀ child ∈ children node, Dead goal children child.2) : Dead goal children node := by
  intro labels leads
  cases leads with
  | done reached => exact inner reached
  | step edge rest => exact all _ edge _ rest

/-- The invariant of the memo table: every remembered node is dead or is still
open, an ancestor of the nodes now being tried. A search that ends without a
path and without giving up has closed everything it opened. -/
theorem explores_dead (rank : Node → Nat)
    (descends : ∀ node, ∀ child ∈ children node, rank child.2 < rank node)
    {siblings : List (Label × Node)} {memo after : Memo Node} {result : Option (List Label)}
    (explored : Explores goal children budget siblings memo result after)
    (opened : Node → Prop) (failed : result = none) (conclusive : after.inconclusive = false)
    (closed : ∀ node ∈ memo.seen, Dead goal children node ∨ opened node)
    (below : ∀ child ∈ siblings, ∀ node, opened node → rank child.2 < rank node) :
    (∀ child ∈ siblings, Dead goal children child.2) ∧
      ∀ node ∈ after.seen, Dead goal children node ∨ opened node := by
  induction explored generalizing opened with
  | nil => exact ⟨by simp, closed⟩
  | quit gaveUp => rw [conclusive] at gaveUp; cases gaveUp
  | leaf | found => cases failed
  | exhausted _ rest _ =>
      have gaveUp := explores_keeps_giving_up rest rfl
      rw [conclusive] at gaveUp
      cases gaveUp
  | pruned known _ ih =>
      obtain ⟨siblingsDead, seenClosed⟩ := ih opened failed conclusive closed
        (fun child member => below child (List.mem_cons_of_mem _ member))
      refine ⟨?_, seenClosed⟩
      intro child member
      rcases List.mem_cons.mp member with first | later
      · -- An open node ranks above the siblings, so the one that was pruned is dead.
        subst first
        rcases closed _ known with dead | isOpen
        · exact dead
        · exact absurd (below _ List.mem_cons_self _ isOpen) (lt_irrefl _)
      · exact siblingsDead child later
  | @barren label node siblings memo middle result after inner fresh explored rest first second =>
      have middleConclusive : middle.inconclusive = false := by
        by_contra gaveUp
        have late := explores_keeps_giving_up rest (by simpa using gaveUp)
        rw [conclusive] at late
        cases late
      -- The node is open while its children are tried, and dead once all of them are.
      obtain ⟨childrenDead, middleClosed⟩ := first (fun other => opened other ∨ other = node)
        rfl middleConclusive
        (by
          intro other member
          rcases List.mem_append.mp member with old | new
          · exact (closed other old).imp_right Or.inl
          · exact Or.inr (Or.inr (List.mem_singleton.mp new)))
        (by
          rintro child member other (isOpen | same)
          · exact (descends node child member).trans (below _ List.mem_cons_self other isOpen)
          · exact same ▸ descends node child member)
      have nodeDead : Dead goal children node := dead_of_children node inner childrenDead
      have reclosed : ∀ other ∈ middle.seen, Dead goal children other ∨ opened other := by
        intro other member
        rcases middleClosed other member with dead | isOpen | same
        · exact Or.inl dead
        · exact Or.inr isOpen
        · exact Or.inl (same ▸ nodeDead)
      obtain ⟨siblingsDead, seenClosed⟩ := second opened failed conclusive reclosed
        (fun child member => below child (List.mem_cons_of_mem _ member))
      refine ⟨?_, seenClosed⟩
      intro child member
      rcases List.mem_cons.mp member with same | later
      · exact same ▸ nodeDead
      · exact siblingsDead child later

/-- A budget that no duplicate-free table of admissible nodes exhausts is never
exhausted. -/
theorem explores_conclusive (admissible : Node → Prop)
    (closed : ∀ node, admissible node → ∀ child ∈ children node, admissible child.2)
    (ample : ∀ memo : Memo Node, memo.seen.Nodup → (∀ node ∈ memo.seen, admissible node) →
      ¬ budget memo)
    {siblings : List (Label × Node)} {memo after : Memo Node} {result : Option (List Label)}
    (explored : Explores goal children budget siblings memo result after)
    (start : memo.inconclusive = false) (unique : memo.seen.Nodup)
    (remembered : ∀ node ∈ memo.seen, admissible node)
    (tried : ∀ child ∈ siblings, admissible child.2) :
    after.inconclusive = false ∧ after.seen.Nodup ∧ ∀ node ∈ after.seen, admissible node := by
  have grown : ∀ (table : Memo Node) (node : Node), table.seen.Nodup → node ∉ table.seen →
      (∀ other ∈ table.seen, admissible other) → admissible node →
      (table.remember node).seen.Nodup ∧ ∀ other ∈ (table.remember node).seen, admissible other := by
    intro table node nodup fresh all this
    constructor
    · simpa [Memo.remember, List.nodup_append] using
        ⟨nodup, fun other member same => fresh (same ▸ member)⟩
    · intro other member
      rcases List.mem_append.mp member with old | new
      · exact all other old
      · exact List.mem_singleton.mp new ▸ this
  induction explored with
  | nil | quit | leaf => exact ⟨start, unique, remembered⟩
  | exhausted spent => exact absurd spent (ample _ unique remembered)
  | pruned _ _ ih =>
      exact ih start unique remembered fun child member => tried child (List.mem_cons_of_mem _ member)
  | found _ fresh _ ih =>
      have nodeFine := tried _ List.mem_cons_self
      have table := grown _ _ unique fresh remembered nodeFine
      exact ih start table.1 table.2 (closed _ nodeFine)
  | barren _ fresh _ _ first second =>
      have nodeFine := tried _ List.mem_cons_self
      have table := grown _ _ unique fresh remembered nodeFine
      obtain ⟨conclusive, nodup, all⟩ := first start table.1 table.2 (closed _ nodeFine)
      exact second conclusive nodup all fun child member =>
        tried child (List.mem_cons_of_mem _ member)

/-- What a search does at one node, and what the loop over its siblings makes of it. -/
inductive Visits (goal : Node → Prop) (children : Node → List (Label × Node))
    (budget : Memo Node → Prop) (node : Node) (memo : Memo Node) :
    Option (List Label) → Memo Node → Prop where
  | leaf (done : goal node) : Visits goal children budget node memo (some []) memo
  | exhausted (spent : budget memo) : Visits goal children budget node memo none memo.giveUp
  | pruned (known : node ∈ memo.seen) : Visits goal children budget node memo none memo
  | expanded {result after} (inner : ¬ goal node) (fresh : node ∉ memo.seen) :
      Explores goal children budget (children node) (memo.remember node) result after →
      Visits goal children budget node memo result after

theorem visits_found {node : Node} {memo after : Memo Node} {path : List Label}
    (visited : Visits goal children budget node memo (some path) after)
    (label : Label) (siblings : List (Label × Node)) :
    Explores goal children budget ((label, node) :: siblings) memo (some (label :: path)) after := by
  cases visited with
  | leaf done => exact Explores.leaf done
  | expanded inner fresh explored => exact Explores.found inner fresh explored

theorem visits_barren {node : Node} {memo middle after : Memo Node}
    (visited : Visits goal children budget node memo none middle)
    (label : Label) {siblings : List (Label × Node)} {result : Option (List Label)}
    (rest : Explores goal children budget siblings middle result after) :
    Explores goal children budget ((label, node) :: siblings) memo result after := by
  cases visited with
  | exhausted spent => exact Explores.exhausted spent rest
  | pruned known => exact Explores.pruned known rest
  | expanded inner fresh explored => exact Explores.barren inner fresh explored rest

theorem visits_sound {node : Node} {memo after : Memo Node} {path : List Label}
    (visited : Visits goal children budget node memo (some path) after) :
    Leads goal children node path := by
  cases visited with
  | leaf done => exact Leads.done done
  | expanded _ _ explored =>
      obtain ⟨_, _, _, member, shape, leads⟩ := explores_sound explored path rfl
      exact shape ▸ Leads.step member leads

theorem visits_dead (rank : Node → Nat)
    (descends : ∀ node, ∀ child ∈ children node, rank child.2 < rank node)
    {node : Node} {memo after : Memo Node}
    (visited : Visits goal children budget node memo none after)
    (untouched : memo.seen = []) (conclusive : after.inconclusive = false) :
    Dead goal children node := by
  cases visited with
  | exhausted => cases conclusive
  | pruned known => rw [untouched] at known; cases known
  | expanded inner _ explored =>
      refine dead_of_children node inner
        (explores_dead rank descends explored (fun other => other = node) rfl conclusive ?_ ?_).1
      · intro other member
        exact Or.inr (by simpa [Memo.remember, untouched] using member)
      · rintro child member other same
        exact same ▸ descends node child member

theorem visits_conclusive (admissible : Node → Prop)
    (closed : ∀ node, admissible node → ∀ child ∈ children node, admissible child.2)
    (ample : ∀ memo : Memo Node, memo.seen.Nodup → (∀ node ∈ memo.seen, admissible node) →
      ¬ budget memo)
    {node : Node} {memo after : Memo Node} {result : Option (List Label)}
    (visited : Visits goal children budget node memo result after)
    (start : memo.inconclusive = false) (untouched : memo.seen = []) (fine : admissible node) :
    after.inconclusive = false := by
  cases visited with
  | leaf | pruned => exact start
  | exhausted spent =>
      exact absurd spent (ample memo (by simp [untouched]) (by simp [untouched]))
  | expanded _ _ explored =>
      exact (explores_conclusive admissible closed ample explored start
        (by simp [Memo.remember, untouched])
        (by simpa [Memo.remember, untouched] using fine) (closed node fine)).1

/-! The loop of a concrete search over the candidates of one node. -/
section Loop

/-- How one turn of the loop ends: it returns a result, goes on, or returns
without one. -/
inductive Attempt (Found Search : Type) where
  | found (result : Found) (search : Search)
  | next (search : Search)
  | stop (search : Search)

def tryEach {Candidate Found Search : Type} (visit : Candidate → Search → Attempt Found Search) :
    List Candidate → Search → Option Found × Search
  | [], search => (none, search)
  | candidate :: rest, search =>
      match visit candidate search with
      | .found result search => (some result, search)
      | .next search => tryEach visit rest search
      | .stop search => (none, search)

variable {Candidate Found Search : Type}

theorem tryEach_map {Other : Type} (visit : Candidate → Search → Attempt Found Search)
    (rename : Other → Candidate) (candidates : List Other) (search : Search) :
    tryEach visit (candidates.map rename) search =
      tryEach (fun candidate => visit (rename candidate)) candidates search := by
  induction candidates generalizing search with
  | nil => rfl
  | cons candidate rest ih =>
      simp only [List.map_cons, tryEach]
      split <;> simp only [ih]

/-- The search as a turn leaves it. -/
def Attempt.search : Attempt Found Search → Search
  | .found _ search | .next search | .stop search => search

/-- A turn that passes on what a call found, and else goes on unless the call gave up. -/
def Attempt.ofCall (gaveUp : Search → Bool) : Option Found × Search → Attempt Found Search
  | (some result, after) => .found result after
  | (none, after) => if gaveUp after then .stop after else .next after

@[simp] theorem search_ofCall (gaveUp : Search → Bool) (returned : Option Found × Search) :
    (Attempt.ofCall gaveUp returned).search = returned.2 := by
  obtain ⟨_ | result, after⟩ := returned
  · rw [Attempt.ofCall]
    split <;> rfl
  · rfl

theorem tryEach_keeps (good : Search → Prop) {visit : Candidate → Search → Attempt Found Search}
    (turn : ∀ candidate search, good search → good (visit candidate search).search)
    (candidates : List Candidate) (search : Search) (start : good search) :
    good (tryEach visit candidates search).2 := by
  induction candidates generalizing search with
  | nil => exact start
  | cons candidate rest ih =>
      have kept := turn candidate search start
      rw [tryEach]
      cases shape : visit candidate search with
      | found result after | stop after =>
          rw [shape] at kept
          exact kept
      | next after =>
          rw [shape] at kept
          exact ih after kept

/-- A loop that ends in a quiet search took quiet turns only, and another loop
that takes the same quiet turns does the same. -/
theorem tryEach_agrees (quiet : Search → Prop)
    {visit other : Candidate → Search → Attempt Found Search}
    (turn : ∀ candidate search, quiet (visit candidate search).search →
      quiet search ∧ other candidate search = visit candidate search)
    (candidates : List Candidate) (search : Search)
    (ended : quiet (tryEach visit candidates search).2) :
    quiet search ∧ tryEach other candidates search = tryEach visit candidates search := by
  induction candidates generalizing search with
  | nil => exact ⟨ended, rfl⟩
  | cons candidate rest ih =>
      have first := turn candidate search
      rw [tryEach] at ended ⊢
      rw [tryEach]
      cases shape : visit candidate search with
      | found result after | stop after =>
          rw [shape] at ended first
          obtain ⟨start, same⟩ := first ended
          rw [same]
          exact ⟨start, rfl⟩
      | next after =>
          rw [shape] at ended first
          obtain ⟨middle, later⟩ := ih after ended
          obtain ⟨start, same⟩ := first middle
          rw [same]
          exact ⟨start, later⟩

/-- A loop whose turns find nothing once the search is `dry` finds something
only while the search is still `quiet`. -/
theorem tryEach_found_quiet (quiet dry : Search → Prop)
    {visit : Candidate → Search → Attempt Found Search}
    (found : ∀ candidate search result after, quiet search →
      visit candidate search = .found result after → quiet after)
    (barren : ∀ candidate search, quiet search →
      quiet (visit candidate search).search ∨ dry (visit candidate search).search)
    (idle : ∀ candidate search, dry search → ∃ after, visit candidate search = .next after ∧ dry after)
    (candidates : List Candidate) (search : Search) (start : quiet search ∨ dry search) :
    ((tryEach visit candidates search).1.isSome → quiet (tryEach visit candidates search).2) ∧
      (quiet (tryEach visit candidates search).2 ∨ dry (tryEach visit candidates search).2) := by
  induction candidates generalizing search with
  | nil => exact ⟨by simp [tryEach], start⟩
  | cons candidate rest ih =>
      rw [tryEach]
      rcases start with calm | spent
      · have kept := barren candidate search calm
        cases shape : visit candidate search with
        | found result after =>
            have calm := found candidate search result after calm shape
            exact ⟨fun _ => calm, Or.inl calm⟩
        | next after =>
            rw [shape] at kept
            exact ih after kept
        | stop after =>
            rw [shape] at kept
            exact ⟨by simp, kept⟩
      · obtain ⟨after, shape, spent⟩ := idle candidate search spent
        rw [shape]
        exact ih after (Or.inr spent)

theorem tryEach_found {visit : Candidate → Search → Attempt Found Search}
    {candidates : List Candidate} {search after : Search} {result : Found}
    (found : tryEach visit candidates search = (some result, after)) :
    ∃ candidate before, visit candidate before = .found result after := by
  induction candidates generalizing search with
  | nil => cases found
  | cons candidate rest ih =>
      rw [tryEach] at found
      cases shape : visit candidate search with
      | found _ _ =>
          rw [shape] at found
          cases found
          exact ⟨candidate, search, shape⟩
      | next middle =>
          rw [shape] at found
          exact ih found
      | stop _ =>
          rw [shape] at found
          cases found

/-! Two loops over the same candidates, the first of which may stop early. -/

variable {Other Reference : Type}

/-- Two turns end in the same way, `live` still relating the searches, or the
first one stops, and `past` relates it to whatever the other goes on to. -/
inductive InStep (live past : Search → Reference → Prop) :
    Attempt Found Search → Attempt Other Reference → Prop where
  | found {result other after reference} : live after reference →
      InStep live past (.found result after) (.found other reference)
  | next {after reference} : live after reference → InStep live past (.next after) (.next reference)
  | stop {after turn} : past after turn.search → InStep live past (.stop after) turn

/-- The same for what two searches return. -/
def Together (live past : Search → Reference → Prop) (returned : Option Found × Search)
    (reference : Option Other × Reference) : Prop :=
  (returned.1.isSome = reference.1.isSome ∧ live returned.2 reference.2) ∨
    (returned.1 = none ∧ past returned.2 reference.2)

/-- Calls that come back together end their turns in step, when the first search
gives up exactly where it stops. -/
theorem Together.inStep {live past : Search → Reference → Prop} {gaveUp : Search → Bool}
    {returned : Option Found × Search} {reference : Option Other × Reference}
    (goesOn : ∀ after reference, live after reference → gaveUp after = false)
    (stops : ∀ after reference, past after reference → gaveUp after = true)
    (together : Together live past returned reference) :
    InStep live past (.ofCall gaveUp returned) (.ofCall (fun _ => false) reference) := by
  obtain ⟨found, after⟩ := returned
  obtain ⟨other, middle⟩ := reference
  rcases together with ⟨same, kept⟩ | ⟨none_, gone⟩
  · cases found with
    | none =>
        cases other with
        | none =>
            rw [Attempt.ofCall, goesOn _ _ kept]
            exact .next kept
        | some => cases same
    | some =>
        cases other with
        | none => cases same
        | some => exact .found kept
  · cases none_
    rw [Attempt.ofCall, stops _ _ gone]
    exact .stop (by rwa [search_ofCall])

theorem tryEach_together {live past : Search → Reference → Prop}
    {visit : Candidate → Search → Attempt Found Search}
    {other : Candidate → Reference → Attempt Other Reference}
    (turn : ∀ candidate search reference, live search reference →
      InStep live past (visit candidate search) (other candidate reference))
    (later : ∀ candidate search reference, past search reference →
      past search (other candidate reference).search)
    (candidates : List Candidate) (search : Search) (reference : Reference)
    (start : live search reference) :
    Together live past (tryEach visit candidates search) (tryEach other candidates reference) := by
  induction candidates generalizing search reference with
  | nil => exact Or.inl ⟨rfl, start⟩
  | cons candidate rest ih =>
      have first := turn candidate search reference start
      rw [tryEach, tryEach]
      revert first
      generalize visit candidate search = left
      cases shape : other candidate reference with
      | found result middle =>
          rintro (kept | kept | gone)
          · exact Or.inl ⟨rfl, kept⟩
          · exact Or.inr ⟨rfl, gone⟩
      | stop middle =>
          rintro (kept | kept | gone)
          exact Or.inr ⟨rfl, gone⟩
      | next middle =>
          rintro (kept | kept | gone)
          · exact ih _ _ kept
          · refine Or.inr ⟨rfl, ?_⟩
            exact tryEach_keeps (past _) (fun candidate reference => later candidate _ reference)
              rest middle gone

/-- One turn does what the relation allows at the candidate's node. -/
inductive Follows (goal : Node → Prop) (children : Node → List (Label × Node))
    (budget : Memo Node → Prop) (memoOf : Search → Memo Node) (good : Search → Prop)
    (emit : List Label → Found) (label : Label) (node : Node) (search : Search) :
    Attempt Found Search → Prop where
  | found {path after} : Visits goal children budget node (memoOf search) (some path) (memoOf after) →
      good after → Follows goal children budget memoOf good emit label node search
        (.found (emit (label :: path)) after)
  | next {after} : Visits goal children budget node (memoOf search) none (memoOf after) →
      good after → Follows goal children budget memoOf good emit label node search (.next after)
  | stop {after} : Visits goal children budget node (memoOf search) none (memoOf after) →
      good after → (memoOf after).inconclusive = true →
      Follows goal children budget memoOf good emit label node search (.stop after)

/-- `good` is the loop invariant; its argument is the number of candidates left. -/
theorem tryEach_explores (goal : Node → Prop) (children : Node → List (Label × Node))
    (budget : Memo Node → Prop) (visit : Candidate → Search → Attempt Found Search)
    (memoOf : Search → Memo Node) (good : Nat → Search → Prop)
    (child : Candidate → Option (Label × Node)) (emit : List Label → Found)
    (candidates : List Candidate)
    (weaken : ∀ left search, good (left + 1) search → good left search)
    (skips : ∀ candidate search left, child candidate = none → good (left + 1) search →
      ∃ after, visit candidate search = .next after ∧ good left after ∧
        memoOf after = memoOf search)
    (follows : ∀ candidate ∈ candidates, ∀ search left label node,
      child candidate = some (label, node) → good (left + 1) search →
      Follows goal children budget memoOf (good left) emit label node search
        (visit candidate search))
    (search : Search) (start : good candidates.length search) :
    ∃ path, (tryEach visit candidates search).1 = path.map emit ∧
      good 0 (tryEach visit candidates search).2 ∧
      Explores goal children budget (candidates.filterMap child) (memoOf search) path
        (memoOf (tryEach visit candidates search).2) := by
  -- A loop that returns early has turns left over, which the invariant may drop.
  have drain : ∀ left search, good left search → good 0 search := by
    intro left
    induction left with
    | zero => exact fun _ holds => holds
    | succ left ih => exact fun search holds => ih search (weaken left search holds)
  induction candidates generalizing search with
  | nil => exact ⟨none, rfl, start, Explores.nil _⟩
  | cons candidate rest ih =>
      rw [List.length_cons] at start
      have first := follows candidate List.mem_cons_self search rest.length
      have ih := ih fun other member => follows other (List.mem_cons_of_mem _ member)
      cases shape : child candidate with
      | none =>
          obtain ⟨after, visited, kept, same⟩ := skips candidate search _ shape start
          obtain ⟨path, result, final, explored⟩ := ih after kept
          rw [tryEach, visited, List.filterMap_cons_none shape]
          exact ⟨path, result, final, same ▸ explored⟩
      | some entry =>
          obtain ⟨label, node⟩ := entry
          rw [List.filterMap_cons_some shape, tryEach]
          cases turn : visit candidate search with
          | found result after =>
              have step := first label node shape start
              rw [turn] at step
              cases step with
              | found visited kept =>
                  exact ⟨some (label :: _), rfl, drain _ _ kept, visits_found visited label _⟩
          | next after =>
              have step := first label node shape start
              rw [turn] at step
              cases step with
              | next visited kept =>
                  obtain ⟨path, result, final, explored⟩ := ih after kept
                  exact ⟨path, result, final, visits_barren visited label explored⟩
          | stop after =>
              have step := first label node shape start
              rw [turn] at step
              cases step with
              | stop visited kept gaveUp =>
                  exact ⟨none, rfl, drain _ _ kept,
                    visits_barren visited label (Explores.quit gaveUp)⟩

/-- What a call of a concrete search returns for a node, as far as its callers rely on it. -/
def Answers (goal : Node → Prop) (children : Node → List (Label × Node)) (budget : Memo Node → Prop)
    (memoOf : Search → Memo Node) (good : Search → Prop) (emit : List Label → Found) (node : Node)
    (search : Search) (returned : Option Found × Search) : Prop :=
  ∃ path, returned.1 = path.map emit ∧ good returned.2 ∧
    Visits goal children budget node (memoOf search) path (memoOf returned.2)

section Answers

variable {memoOf : Search → Memo Node} {good : Search → Prop} {emit : List Label → Found}
  {label : Label} {node : Node} {search : Search} {returned : Option Found × Search}

theorem Answers.follows {emitRest : List Label → Found} (gaveUp : Search → Bool)
    (honest : ∀ after, gaveUp after = true → (memoOf after).inconclusive = true)
    (emitted : ∀ path, emitRest path = emit (label :: path))
    (answers : Answers goal children budget memoOf good emitRest node search returned) :
    Follows goal children budget memoOf good emit label node search
      (.ofCall gaveUp returned) := by
  obtain ⟨path, result, kept, visited⟩ := answers
  obtain ⟨found, after⟩ := returned
  cases path with
  | none =>
      cases result
      rw [Attempt.ofCall]
      split_ifs with stopped
      · exact .stop visited kept (honest after stopped)
      · exact .next visited kept
  | some path =>
      cases result
      change Follows _ _ _ _ _ _ _ _ _ (.found (emitRest path) after)
      rw [emitted]
      exact .found visited kept

end Answers

end Loop

end MemoSearch
