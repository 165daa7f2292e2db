import Detersim.FiredSleeps

/-!
When sleeps end. A sleep is woken when its node's clock first shows the deadline,
the poll that its timer leaves is dispatched, and a poll completes it then and not
before.
-/

namespace Detersim

namespace Inner

variable {State Value Plan : Type}

/-! Polls of a sleep. -/

theorem Punctual.first {g : Inner State Value} {time : SimTime} {node : NodeId}
    {deadline : SimTime} (punctual : g.Punctual time node deadline) :
    time ≤ g.now ∨ ∀ instant, instant < time → g.localAt instant node < deadline := by
  rcases punctual with due | ⟨early, skewed⟩
  · exact Or.inl due
  · refine Or.inr ?_
    intro instant before
    have shown := toNat_localNow { g with now := instant } node
    have same : ({ g with now := instant } : Inner State Value).lastReading node =
      g.lastReading node := rfl
    have offset : ({ g with now := instant } : Inner State Value).skewOf node = g.skewOf node := rfl
    rw [same, offset] at shown
    rw [localAt, UInt64.lt_iff_toNat_lt]
    rw [UInt64.lt_iff_toNat_lt] at before early
    dsimp only at shown
    omega

/-- An instant that is not over yet for the next event shows no deadline. -/
theorem Punctual.passes {g : Inner State Value} {event queued : Keyed} {queue : EventQueue}
    {node : NodeId} {deadline : SimTime} (punctual : g.Punctual queued.time node deadline)
    (popped : g.queue.pop = some (event, queue)) (member : queued ∈ g.queue)
    (later : g.now < event.time) : (g.localNow node).1 < deadline := by
  have least : event.time ≤ queued.time := by
    rcases (KeyedQueue.mem_of_pop popped queued).mp member with rfl | left
    · exact UInt64.le_refl _
    · have ordered := KeyedQueue.pop_least popped queued left
      rw [UInt64.le_iff_toNat_le]
      rcases Prod.Lex.le_iff.mp ordered with before | ⟨same, _⟩
      · exact before.le
      · exact same.le
  have ahead := UInt64.lt_of_lt_of_le later least
  exact punctual.first.resolve_left (UInt64.not_le.mpr ahead) g.now ahead

end Inner

end Detersim
