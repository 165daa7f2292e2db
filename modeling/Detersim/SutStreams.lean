import Detersim.RunRecords
import Detersim.WordMixing

/-!
The random streams of the nodes. A stream is fixed by the seed, the node and how
many generators the node was handed before, whatever the other nodes do; no two
of them begin with the same word.
-/

namespace Detersim

variable {State Value Plan : Type}

/-- The generator `SimEnv::rng` hands out to the node after `count` others. -/
def sutStream (seed : UInt64) (node count : Nat) : SplitMix64 :=
  ⟨(seed * (0xD1B54A32D192ED03 : UInt64)) ^^^
    (UInt64.ofNat node <<< 32 ||| UInt64.ofNat node >>> 32) ^^^
    (UInt64.ofNat count * (0x2545F4914F6CDD1D : UInt64))⟩

namespace Inner

theorem nextSutRng_stream (g : Inner State Value) (node : NodeId) :
    (g.nextSutRng node).1 = sutStream g.seed node (g.streamsOf node) := rfl

theorem Call.reply_rng {call : Call State Value} {node : NodeId} (asked : call.op = .rng node) :
    call.reply = .rng (sutStream call.before.seed node (call.before.streamsOf node)) := by
  rw [Call.reply, asked, ← nextSutRng_stream]
  rfl

/-- Every generator handed out is the one due to its node. -/
structure HandsOut (journal : List (Call State Value)) (g : Inner State Value) : Prop where
  streams : ∀ node, g.streamsOf node = journal.countP (Call.asksRng node)
  handed : ∀ earlier call later node, journal = earlier ++ call :: later → call.op = .rng node →
    call.reply = .rng (sutStream g.seed node (earlier.countP (Call.asksRng node)))

theorem HandsOut.same {journal : List (Call State Value)} {g after : Inner State Value}
    (hands : HandsOut journal g) (seed : after.seed = g.seed)
    (rngCounter : after.rngCounter = g.rngCounter) : HandsOut journal after := by
  refine ⟨fun node => ?_, seed ▸ hands.handed⟩
  rw [streamsOf, rngCounter]
  exact hands.streams node

theorem HandsOut.add {g after : Inner State Value} {journal made : List (Call State Value)}
    (hands : HandsOut journal g) (ran : Ran g made after) : HandsOut (journal ++ made) after := by
  have records := ran.records
  refine ⟨fun node => ?_, ?_⟩
  · rw [records.streams, hands.streams, List.countP_append]
  intro earlier call later node whole asked
  rw [records.seed]
  -- The call is among the old ones, or it is made in this step.
  have new (before : List (Call State Value)) (shape : made = before ++ call :: later) :
      call.reply = .rng (sutStream g.seed node ((journal ++ before).countP (Call.asksRng node))) := by
    subst shape
    have until_ := ran.split
    rw [Call.reply_rng asked, until_.seed, until_.streams, hands.streams, List.countP_append]
  rcases List.append_eq_append_iff.mp whole with ⟨before, rfl, shape⟩ | ⟨rest, rfl, shape⟩
  · exact new before shape
  · rcases List.cons_eq_append_iff.mp shape with ⟨rfl, rfl⟩ | ⟨rest, rfl, rfl⟩
    · rw [List.append_nil] at new
      exact List.append_nil earlier ▸ new [] rfl
    · exact hands.handed earlier call rest node rfl asked

theorem Journaled.handsOut {program : Program State Value} {nextAction : NextAction Plan}
    {journal : List (Call State Value)} {g : Inner State Value}
    (journaled : Journaled program nextAction journal g) : HandsOut journal g := by
  have nothing {start : Inner State Value} (fresh : start.rngCounter = .empty) :
      HandsOut [] start := by
    refine ⟨fun node => by rw [streamsOf, fresh]; rfl, ?_⟩
    intro earlier call later node whole
    exact absurd whole (by simp)
  induction journaled with
  | generate => exact nothing rfl
  | replay => exact nothing rfl
  | operate op _ ih => exact ih.add (operate_ran nextAction _ op)
  | @turn journal g event next _ turned ih =>
      have noted : HandsOut journal (g.noteTurn event) := ih.same rfl rfl
      exact noted.add (turn_ran turned)
  | abort _ aborted ih =>
      have silent := abort_silent aborted
      exact ih.same silent.seed silent.rngCounter

end Inner

/-! The first word of a stream. -/

theorem nextU64_injective {first second : SplitMix64}
    (same : first.nextU64.1 = second.nextU64.1) : first = second := by
  obtain ⟨left⟩ := first
  obtain ⟨right⟩ := second
  have outer : (0x94D049BB133111EB : UInt64) * 0x319642B2D24D8EC3 = 1 := by decide
  have inner : (0xBF58476D1CE4E5B9 : UInt64) * 0x96DE1B173F119089 = 1 := by decide
  have second := WordMixing.mul_injective outer (WordMixing.xorShift_injective (by decide) same)
  have first := WordMixing.mul_injective inner (WordMixing.xorShift_injective (by decide) second)
  have sums := WordMixing.xorShift_injective (by decide) first
  exact congrArg SplitMix64.mk ((UInt64.add_left_inj _).mp sums)

theorem sutStream_injective {seed : UInt64} {node count other more : Nat}
    (smallNode : node < 2 ^ 32) (smallCount : count < 2 ^ 32) (smallOther : other < 2 ^ 32)
    (smallMore : more < 2 ^ 32) (same : sutStream seed node count = sutStream seed other more) :
    node = other ∧ count = more := by
  have states := congrArg SplitMix64.state same
  simp only [sutStream, UInt64.xor_assoc] at states
  exact WordMixing.halves_injective (by decide) smallNode smallCount smallOther smallMore
    ((UInt64.xor_right_inj _).mp states)

/-- The generator of a call is fixed by the seed, the node and the number of
generators the node was handed before; two that differ in node or number begin
with different words. -/
theorem streams_apart (program : Program State Value) (nextAction : NextAction Plan) :
    (∀ (journal : List (Call State Value)) (g : Inner State Value),
      Inner.Journaled program nextAction journal g →
      ∀ earlier call later node, journal = earlier ++ call :: later → call.op = .rng node →
        call.reply = .rng (sutStream g.seed node (earlier.countP (Call.asksRng node)))) ∧
    ∀ seed node count other more, node < 2 ^ 32 → count < 2 ^ 32 → other < 2 ^ 32 →
      more < 2 ^ 32 → (node, count) ≠ (other, more) →
      (sutStream seed node count).nextU64.1 ≠ (sutStream seed other more).nextU64.1 := by
  refine ⟨fun _ _ journaled => journaled.handsOut.handed, ?_⟩
  intro seed node count other more smallNode smallCount smallOther smallMore apart same
  obtain ⟨rfl, rfl⟩ := sutStream_injective smallNode smallCount smallOther smallMore
    (nextU64_injective same)
  exact apart rfl

end Detersim
