import Detersim.IntervalOrder
import Mathlib.Data.Set.Finite.Lemmas

/-!
Locality. Each record belongs to one part of the state, and applying it looks at
that part and changes no other. The records then have a legal order exactly when
those of each part have one, as long as every interval has a positive length.
-/

namespace LocalOrders

open OrderSearch IntervalOrder

variable {Key Record State Part Time : Type} [DecidableEq Key] [LinearOrder Time]
  {owner : Record → Key} {precedes : Record → Record → Bool} {start finish : Record → Time}

def ownedBy (owner : Record → Key) (key : Key) (records : List Record) : List Record :=
  records.filter fun record => decide (owner record = key)

theorem mem_ownedBy {key : Key} {records : List Record} {record : Record} :
    record ∈ ownedBy owner key records ↔ record ∈ records ∧ owner record = key := by
  simp [ownedBy]

/-- An order for the records of each part. -/
structure PartOrders (owner : Record → Key) (precedes : Record → Record → Bool)
    (records : List Record) (orders : Key → List Record) : Prop where
  permutation : ∀ key, (orders key).Perm (ownedBy owner key records)
  respects : ∀ key, (orders key).Pairwise fun earlier later => precedes later earlier = false

section Merge

variable {records : List Record} {orders : Key → List Record}

theorem PartOrders.mem_iff (parts : PartOrders owner precedes records orders) (record : Record) :
    record ∈ orders (owner record) ↔ record ∈ records := by
  rw [(parts.permutation (owner record)).mem_iff, mem_ownedBy]
  exact and_iff_left rfl

/-- The part of a record begins with some record of that part. -/
theorem PartOrders.head (parts : PartOrders owner precedes records orders) {record : Record}
    (member : record ∈ records) :
    ∃ first tail, orders (owner record) = first :: tail ∧ owner first = owner record ∧
      first ∈ records := by
  have inside := (parts.mem_iff record).mpr member
  cases part : orders (owner record) with
  | nil => simp [part] at inside
  | cons first tail =>
      have owned := (parts.permutation (owner record)).subset (part ▸ List.mem_cons_self)
      obtain ⟨present, same⟩ := mem_ownedBy.mp owned
      exact ⟨first, tail, rfl, same, present⟩

/-- Of the first records of the parts, one starts earliest; nothing left precedes it. -/
theorem PartOrders.next (parts : PartOrders owner precedes records orders)
    (agrees : Agrees precedes start finish records)
    (positive : ∀ record ∈ records, start record < finish record) (nonempty : records ≠ []) :
    ∃ first tail, orders (owner first) = first :: tail ∧ first ∈ records ∧
      ∀ record ∈ records, precedes record first = false := by
  let heads := {record | record ∈ records ∧ ∃ tail, orders (owner record) = record :: tail}
  have finite : heads.Finite := (List.finite_toSet records).subset fun record member => member.1
  have some_ : heads.Nonempty := by
    obtain ⟨record, member⟩ := List.exists_mem_of_ne_nil records nonempty
    obtain ⟨first, tail, part, same, inside⟩ := parts.head member
    exact ⟨first, inside, tail, same.symm ▸ part⟩
  obtain ⟨first, ⟨inside, tail, part⟩, earliest⟩ := heads.exists_min_image start finite some_
  refine ⟨first, tail, part, inside, ?_⟩
  intro record member
  obtain ⟨other, later, part', same, inside'⟩ := parts.head member
  have least := earliest other ⟨inside', later, same.symm ▸ part'⟩
  -- The first record of the part starts before any other of it finishes.
  have late : start other < finish record := by
    rcases List.mem_cons.mp (part' ▸ (parts.mem_iff record).mpr member) with rfl | behind
    · exact positive record member
    · have clear := (List.pairwise_cons.mp (part' ▸ parts.respects (owner record))).1 record behind
      exact not_le.mp (mt (agrees record member other inside').mpr (by simp [clear]))
  exact Bool.eq_false_iff.mpr
    (mt (agrees record member first inside).mp (not_le.mpr (least.trans_lt late)))

theorem ownedBy_cons_self (record : Record) (rest : List Record) :
    ownedBy owner (owner record) (record :: rest) = record :: ownedBy owner (owner record) rest := by
  simp [ownedBy]

theorem ownedBy_cons_ne {record : Record} {key : Key} (other : key ≠ owner record)
    (rest : List Record) : ownedBy owner key (record :: rest) = ownedBy owner key rest := by
  simp [ownedBy, Ne.symm other]

/-- What is left of the parts once a first record is placed. -/
theorem PartOrders.rest {first : Record} {tail rest : List Record}
    (parts : PartOrders owner precedes records orders) (part : orders (owner first) = first :: tail)
    (split : records.Perm (first :: rest)) :
    PartOrders owner precedes rest (Function.update orders (owner first) tail) := by
  constructor
  · intro key
    have whole := (parts.permutation key).trans (split.filter _)
    by_cases same : key = owner first
    · subst same
      rw [Function.update_self]
      rw [part] at whole
      exact (whole.trans (List.Perm.of_eq (ownedBy_cons_self first rest))).cons_inv
    · rw [Function.update_of_ne same]
      exact whole.trans (List.Perm.of_eq (ownedBy_cons_ne same rest))
  · intro key
    by_cases same : key = owner first
    · subst same
      rw [Function.update_self]
      exact (part ▸ parts.respects (owner first)).tail
    · rw [Function.update_of_ne same]
      exact parts.respects key

/-- Orders of the parts can be merged into one of all records. -/
theorem exists_merge (parts : PartOrders owner precedes records orders)
    (agrees : Agrees precedes start finish records)
    (positive : ∀ record ∈ records, start record < finish record) :
    ∃ order : List Record, order.Perm records ∧
      (order.Pairwise fun earlier later => precedes later earlier = false) ∧
      ∀ key, ownedBy owner key order = orders key := by
  obtain ⟨size, sized⟩ : ∃ size, records.length = size := ⟨_, rfl⟩
  induction size generalizing records orders with
  | zero =>
      obtain rfl := List.length_eq_zero_iff.mp sized
      exact ⟨[], List.Perm.nil, List.Pairwise.nil, fun key => (parts.permutation key).eq_nil.symm⟩
  | succ size ih =>
      -- Place a record that nothing left precedes, and merge what is left of the parts.
      have nonempty : records ≠ [] := by
        rintro rfl
        cases sized
      obtain ⟨first, tail, part, inside, clear⟩ := parts.next agrees positive nonempty
      obtain ⟨before, after, rfl⟩ := List.append_of_mem inside
      have split : (before ++ first :: after).Perm (first :: (before ++ after)) := List.perm_middle
      have within : ∀ record ∈ before ++ after, record ∈ before ++ first :: after :=
        fun record member => split.symm.subset (List.mem_cons_of_mem first member)
      obtain ⟨order, permutation, respects, owned⟩ := ih (parts.rest part split)
        (fun left leftIn right rightIn => agrees left (within left leftIn) right (within right rightIn))
        (fun record member => positive record (within record member))
        (by simpa using split.length_eq.symm.trans sized)
      refine ⟨first :: order, (permutation.cons first).trans split.symm, ?_, ?_⟩
      · refine List.pairwise_cons.mpr ⟨?_, respects⟩
        exact fun record member => clear record (within record (permutation.subset member))
      · intro key
        by_cases same : key = owner first
        · subst same
          rw [ownedBy_cons_self, owned, Function.update_self, part]
        · rw [ownedBy_cons_ne same, owned, Function.update_of_ne same]

end Merge

/-- A record applies to its own part of the state. -/
structure AppliesLocally (owner : Record → Key) (apply : State → Record → Option State)
    (applyPart : Part → Record → Option Part) (part : State → Key → Part) : Prop where
  own : ∀ state record, (apply state record).map (part · (owner record)) =
    applyPart (part state (owner record)) record
  others : ∀ state record next, apply state record = some next →
    ∀ key, key ≠ owner record → part next key = part state key

section Specifications

variable {apply : State → Record → Option State} {applyPart : Part → Record → Option Part}
  {part : State → Key → Part}

theorem AppliesLocally.applies_iff (localized : AppliesLocally owner apply applyPart part)
    (order : List Record) (state : State) :
    (order.foldlM apply state).isSome = true ↔
      ∀ key, ((ownedBy owner key order).foldlM applyPart (part state key)).isSome = true := by
  induction order generalizing state with
  | nil => simp [ownedBy]
  | cons record rest ih =>
      have own := localized.own state record
      rw [List.foldlM_cons]
      cases applied : apply state record with
      | none =>
          -- The record fails on its own part, at the head of what that part has left.
          rw [applied] at own
          simp only [Option.bind_eq_bind, Option.bind_none, Option.isSome_none,
            Bool.false_eq_true, false_iff, not_forall]
          refine ⟨owner record, ?_⟩
          rw [ownedBy_cons_self, List.foldlM_cons, ← own]
          simp
      | some next =>
          rw [applied] at own
          simp only [Option.bind_eq_bind, Option.bind_some]
          rw [ih next]
          refine forall_congr' fun key => ?_
          by_cases same : key = owner record
          · subst same
            rw [ownedBy_cons_self, List.foldlM_cons, ← own]
            rfl
          · rw [ownedBy_cons_ne same, localized.others state record next applied key same]

/-- The locality theorem. -/
theorem legal_iff (localized : AppliesLocally owner apply applyPart part) (init : State)
    {records : List Record} (agrees : Agrees precedes start finish records)
    (positive : ∀ record ∈ records, start record < finish record) :
    (∃ order, LegalOrder precedes apply init records order) ↔
      ∀ key, ∃ order, LegalOrder precedes applyPart (part init key) (ownedBy owner key records)
        order := by
  constructor
  · rintro ⟨order, legal⟩ key
    exact ⟨ownedBy owner key order, legal.permutation.filter _, legal.respects.filter _,
      (localized.applies_iff order init).mp legal.applies key⟩
  · intro each
    choose orders legal using each
    have parts : PartOrders owner precedes records orders :=
      ⟨fun key => (legal key).permutation, fun key => (legal key).respects⟩
    obtain ⟨order, permutation, respects, owned⟩ := exists_merge parts agrees positive
    refine ⟨order, permutation, respects, (localized.applies_iff order init).mpr ?_⟩
    exact fun key => owned key ▸ (legal key).applies

end Specifications

/-- Renaming the records changes nothing. -/
theorem exists_legal_map {Other : Type} (rename : Record → Other)
    (precedes : Other → Other → Bool) (apply : State → Other → Option State) (init : State)
    (records : List Record) :
    (∃ order, LegalOrder precedes apply init (records.map rename) order) ↔
      ∃ order, LegalOrder (fun left right => precedes (rename left) (rename right))
        (fun state record => apply state (rename record)) init records order := by
  constructor
  · rintro ⟨order, permutation, respects, applies⟩
    obtain ⟨lifted, same, rfl⟩ := perm_of_map_perm rename records order permutation
    exact ⟨lifted, same, List.pairwise_map.mp respects, by rwa [List.foldlM_map] at applies⟩
  · rintro ⟨order, permutation, respects, applies⟩
    exact ⟨order.map rename, permutation.map rename, List.pairwise_map.mpr respects,
      by rwa [List.foldlM_map]⟩

end LocalOrders
