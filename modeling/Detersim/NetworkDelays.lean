import Detersim.Effects
import Detersim.Reachable

/-!
Network delays. The bound of the extra delay is any 64-bit number. One is added
to it before the remainder is taken and up to a hundred to the remainder, so the
last hundred numbers are too much for it.
-/

namespace Detersim

/-- After `now`, or at the last instant there is. -/
def SimTime.Follows (time now : SimTime) : Prop := now < time ∨ time.toNat = u64Max

theorem SimTime.follows_saturatingAdd (now : SimTime) {nanos : Nat} (some_ : 0 < nanos) :
    (now.saturatingAdd nanos).Follows now := by
  have later := SimTime.toNat_saturatingAdd now nanos
  have bound := toNat_le_u64Max now
  rw [SimTime.Follows, UInt64.lt_iff_toNat_lt]
  omega

theorem SimTime.Follows.saturatingAdd {time now : SimTime} (follows : time.Follows now)
    (nanos : Nat) : (time.saturatingAdd nanos).Follows now := by
  have later := SimTime.toNat_saturatingAdd time nanos
  rw [SimTime.Follows, UInt64.lt_iff_toNat_lt] at follows ⊢
  omega

namespace Inner

variable {State Value Plan : Type}

/-- Nothing overflows, and the delay lies between one millisecond and the hundred
beyond the setting. -/
def DelayInRange (g : Inner State Value) : Prop :=
  ∃ delay, g.drawNetDelayMs.1 = some delay ∧ 1 ≤ delay.toNat ∧
    delay.toNat ≤ 100 + g.faults.extraDelayMs.toNat

/-- The send queues its message, and its duplicate if there is one, for later. -/
def SendsLater (g : Inner State Value) (sender receiver : NodeId) (msg : Message) : Prop :=
  ∃ original copy,
    (g.send sender receiver msg).2.audit.sends = g.audit.sends ++ [(original, copy)] ∧
    (∀ event, event ∈ (g.send sender receiver msg).2.queue ↔
      event ∈ g.queue ∨ event = original ∨ copy = some event) ∧
    ∀ event, event = original ∨ copy = some event →
      event.kind = .deliverMsg sender receiver msg ∧ SimTime.Follows event.time g.now

/-- The delay and the sends of a state. -/
structure DelaysWell (g : Inner State Value) : Prop where
  inRange : g.DelayInRange
  later : ∀ sender receiver msg, sender ∉ g.crashed → g.SendsLater sender receiver msg

theorem toNat_base (drawn : UInt64) : (1 + drawn % 100).toNat = 1 + drawn.toNat % 100 := by
  have below : drawn.toNat % 100 < 100 := Nat.mod_lt _ (by decide)
  rw [UInt64.toNat_add, UInt64.toNat_mod]
  exact Nat.mod_eq_of_lt (by simp only [UInt64.reduceToNat]; omega)

theorem toNat_extra (drawn bound : UInt64) (below : bound.toNat < u64Max) :
    (drawn % (bound + 1)).toNat = drawn.toNat % (bound.toNat + 1) := by
  have room : bound.toNat + 1 < 2 ^ 64 := by
    rw [u64Max] at below
    omega
  rw [UInt64.toNat_mod, UInt64.toNat_add, UInt64.toNat_one, Nat.mod_eq_of_lt room]

theorem delay_inRange (g : Inner State Value)
    (fits : g.faults.extraDelayMs.toNat + 100 ≤ u64Max) : g.DelayInRange := by
  have base := toNat_base (g.draw .netDelay).1
  have least : (g.draw .netDelay).1.toNat % 100 < 100 := Nat.mod_lt _ (by decide)
  have extra := toNat_extra ((g.draw .netDelay).2.draw .extraDelay).1 g.faults.extraDelayMs
    (by omega)
  have most : ((g.draw .netDelay).2.draw .extraDelay).1.toNat % (g.faults.extraDelayMs.toNat + 1) <
    g.faults.extraDelayMs.toNat + 1 := Nat.mod_lt _ (Nat.succ_pos _)
  have same : (g.draw .netDelay).2.faults = g.faults := rfl
  have same' : ((g.draw .netDelay).2.draw .extraDelay).2.faults = g.faults := rfl
  rw [DelayInRange, drawNetDelayMs]
  dsimp only
  rw [same, same']
  split_ifs with none_ last beyond
  · exact ⟨_, rfl, by omega, by omega⟩
  · omega
  · rw [base, extra] at beyond
    omega
  · have sum : ((1 + (g.draw .netDelay).1 % 100) +
        ((g.draw .netDelay).2.draw .extraDelay).1 % (g.faults.extraDelayMs + 1)).toNat =
        (1 + (g.draw .netDelay).1 % 100).toNat +
          (((g.draw .netDelay).2.draw .extraDelay).1 % (g.faults.extraDelayMs + 1)).toNat := by
      rw [UInt64.toNat_add]
      apply Nat.mod_eq_of_lt
      rw [u64Max] at beyond
      omega
    refine ⟨_, rfl, ?_, ?_⟩
    · rw [sum, base]
      omega
    · rw [sum, base, extra]
      omega

theorem sends_later {g : Inner State Value} (inRange : g.DelayInRange) {sender : NodeId}
    (receiver : NodeId) (msg : Message) (running : sender ∉ g.crashed) :
    g.SendsLater sender receiver msg := by
  obtain ⟨delay, found, positive, _⟩ := inRange
  have moved := drawNetDelayMs_moves g
  have drawn : g.drawNetDelayMs = (some delay, g.drawNetDelayMs.2) := Prod.ext found rfl
  obtain ⟨tape, _, _, mid⟩ := moved
  rw [mid] at drawn
  have first : (g.now.saturatingAdd (delay.toNat * nanosPerMilli)).Follows g.now :=
    SimTime.follows_saturatingAdd g.now (Nat.mul_pos positive (by decide))
  unfold SendsLater send
  rw [if_neg running, drawn]
  dsimp only
  generalize g.now.saturatingAdd (delay.toNat * nanosPerMilli) = at_ at first
  generalize shape : ({ g with tape } : Inner State Value).pushEvent at_
    (.deliverMsg sender receiver msg) = pushed
  obtain ⟨tape', _, _, after⟩ := drawPercent_moves pushed pushed.faults.duplicatePercent
    .duplicateDecision
  generalize pushed.drawPercent pushed.faults.duplicatePercent .duplicateDecision = chance at after
  obtain ⟨duplicate, chance⟩ := chance
  dsimp only at after ⊢
  subst after shape
  cases duplicate with
  | false =>
      refine ⟨⟨at_, g.seq, .deliverMsg sender receiver msg⟩, none, rfl, ?_, ?_⟩
      · intro event
        refine (KeyedQueue.mem_push _ _ event).trans ?_
        simp only [reduceCtorEq, or_false]
        exact or_comm
      · rintro event (rfl | none_)
        · exact ⟨rfl, first⟩
        · cases none_
  | true =>
      refine ⟨⟨at_, g.seq, .deliverMsg sender receiver msg⟩,
        some ⟨_, g.seq + 1, .deliverMsg sender receiver msg⟩, rfl, ?_, ?_⟩
      · intro event
        refine (KeyedQueue.mem_push _ _ event).trans ?_
        rw [Option.some.injEq, eq_comm (b := event)]
        refine (or_congr_right (KeyedQueue.mem_push _ _ event)).trans ?_
        tauto
      · rintro event (rfl | copied)
        · exact ⟨rfl, first⟩
        · cases copied
          exact ⟨rfl, first.saturatingAdd _⟩

/-- A world whose first two draws are the largest there are for this setting. -/
def latestWorld (extraDelayMs : UInt64) : Inner State Value :=
  ((replay 0 [99, extraDelayMs] {}).operate noPlans (.setExtraDelayMs extraDelayMs)).2

theorem latestWorld_overflows {extraDelayMs : UInt64}
    (beyond : u64Max < extraDelayMs.toNat + 100) :
    (latestWorld extraDelayMs : Inner State Value).drawNetDelayMs.1 = none := by
  have shape : (latestWorld extraDelayMs : Inner State Value).drawNetDelayMs.1 =
      if extraDelayMs = 0 then some 100
      else if extraDelayMs.toNat = u64Max then none
      else if u64Max < 100 + (extraDelayMs % (extraDelayMs + 1)).toNat then none
      else some (100 + extraDelayMs % (extraDelayMs + 1)) := by
    unfold drawNetDelayMs latestWorld
    dsimp only
    split_ifs <;> first | rfl | contradiction
  rw [shape]
  split_ifs with none_ last fits
  · subst none_
    exact absurd beyond (by decide)
  · rfl
  · rfl
  · have bound := toNat_le_u64Max extraDelayMs
    rw [toNat_extra _ _ (by omega), Nat.mod_eq_of_lt (Nat.lt_succ_self _)] at fits
    omega

/-- The setting keeps every state well exactly when it leaves room for the hundred,
whether or not one looks at the states a world reaches only. -/
theorem delays_well_iff (program : Program State Value) (nextAction : NextAction Plan)
    (extraDelayMs : UInt64) :
    ((∀ g : Inner State Value, g.faults.extraDelayMs = extraDelayMs → g.DelaysWell) ↔
        extraDelayMs.toNat + 100 ≤ u64Max) ∧
      ((∀ g, Reachable program nextAction g → g.faults.extraDelayMs = extraDelayMs →
          g.DelaysWell) ↔ extraDelayMs.toNat + 100 ≤ u64Max) := by
  have enough (fits : extraDelayMs.toNat + 100 ≤ u64Max) (g : Inner State Value)
      (setting : g.faults.extraDelayMs = extraDelayMs) : g.DelaysWell := by
    subst setting
    have inRange := delay_inRange g fits
    exact ⟨inRange, fun _ receiver msg running => sends_later inRange receiver msg running⟩
  have needed (well : (latestWorld extraDelayMs : Inner State Value).DelaysWell) :
      extraDelayMs.toNat + 100 ≤ u64Max := by
    by_contra beyond
    obtain ⟨delay, found, _⟩ := well.inRange
    rw [latestWorld_overflows (Nat.lt_of_not_le beyond)] at found
    cases found
  have reached : Reachable program nextAction (latestWorld extraDelayMs) :=
    Reachable.operate (.setExtraDelayMs extraDelayMs) (Reachable.replay 0 [99, extraDelayMs] {})
  exact ⟨⟨fun well => needed (well _ rfl), enough⟩,
    ⟨fun well => needed (well _ reached rfl), fun fits g _ => enough fits g⟩⟩

/-- With the largest setting there is, no send gets its message queued. -/
theorem largest_setting_panics :
    Reachable (fun _ : Unit => .done (.ready ())) noPlans
        (latestWorld 18446744073709551615 : Inner Unit Unit) ∧
      (latestWorld 18446744073709551615 : Inner Unit Unit).drawNetDelayMs.1 = none ∧
      ((latestWorld 18446744073709551615 : Inner Unit Unit).send 0 1 []).1 = .panicked ∧
      ¬(latestWorld 18446744073709551615 : Inner Unit Unit).DelaysWell := by
  have overflows : (latestWorld 18446744073709551615 : Inner Unit Unit).drawNetDelayMs.1 = none :=
    latestWorld_overflows (by decide)
  refine ⟨?_, overflows, rfl, ?_⟩
  · exact Reachable.operate (.setExtraDelayMs 18446744073709551615)
      (Reachable.replay 0 [99, 18446744073709551615] {})
  · rintro ⟨⟨delay, found, _⟩, _⟩
    rw [overflows] at found
    cases found

end Inner

end Detersim
