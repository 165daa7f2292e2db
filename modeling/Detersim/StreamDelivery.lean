import Detersim.Stream

/-!
What a stream delivers. Every operation keeps the buffer between the next number
to deliver and the next to send, with exactly the frames in it that were neither
blocked nor dropped, so delivery stops for good at the first number that was.
-/

namespace Detersim

namespace DeterministicStream

/-- The buffer holds the frames that are to come, and what was delivered are the
frames before `nextDeliver`. `lost` tells for each number if it was blocked or
dropped. -/
structure Tracked (frames : List Frame) (lost : List Bool) (stream : DeterministicStream) :
    Prop where
  sent : stream.nextSend = frames.length
  told : lost.length = frames.length
  numbered : ∀ (seq : Nat) (frame : Frame), frames[seq]? = some frame → frame.seq = seq
  upTo : stream.nextDeliver ≤ frames.length
  delivered : stream.transcript.delivered = frames.take stream.nextDeliver
  buffered : ∀ seq frame, stream.buffered.get seq = some frame ↔
    stream.nextDeliver ≤ seq ∧ lost[seq]? = some false ∧ frames[seq]? = some frame
  passed : ∀ seq < stream.nextDeliver, lost[seq]? = some false
  once : ∀ seq, seq ∈ stream.deliveredOnce ↔ seq < stream.nextDeliver

theorem tracked_new (source target : StreamEndpoint) :
    Tracked [] [] (new source target) := by
  refine ⟨rfl, rfl, ?_, le_rfl, rfl, ?_, ?_, ?_⟩ <;> simp [new]

/-- The invariant does not look at the labels. -/
theorem Tracked.record {frames : List Frame} {lost : List Bool} {stream : DeterministicStream}
    (tracked : Tracked frames lost stream) (label : String) :
    Tracked frames lost (stream.record label) :=
  ⟨tracked.sent, tracked.told, tracked.numbered, tracked.upTo, tracked.delivered,
    tracked.buffered, tracked.passed, tracked.once⟩

variable {frames : List Frame} {lost : List Bool} {stream : DeterministicStream}

theorem deliver_fresh (stream : DeterministicStream) (frame : Frame)
    (fresh : frame.seq ∉ stream.deliveredOnce) :
    stream.deliver frame = { stream with
      buffered := stream.buffered.remove stream.nextDeliver
      deliveredOnce := insert frame.seq stream.deliveredOnce
      nextDeliver := stream.nextDeliver + 1
      transcript :=
        { events := stream.transcript.events ++
            [⟨deliverLabel stream.source.node stream.target.node frame.seq⟩]
          delivered := stream.transcript.delivered ++ [frame] } } := by
  simp only [deliver, if_neg fresh]
  rfl

theorem Tracked.deliver (tracked : Tracked frames lost stream) {frame : Frame}
    (present : stream.buffered.get stream.nextDeliver = some frame) :
    Tracked frames lost (stream.deliver frame) := by
  obtain ⟨_, kept, listed⟩ := (tracked.buffered _ _).mp present
  have number := tracked.numbered _ _ listed
  have fresh : frame.seq ∉ stream.deliveredOnce := by
    rw [tracked.once, number]
    exact lt_irrefl _
  rw [deliver_fresh stream frame fresh]
  refine ⟨tracked.sent, tracked.told, tracked.numbered, ?_, ?_, ?_, ?_, ?_⟩
  · exact (List.getElem?_eq_some_iff.mp listed).1
  · show _ ++ [frame] = frames.take (stream.nextDeliver + 1)
    rw [tracked.delivered, List.take_add_one, listed]
    rfl
  · intro seq other
    show (stream.buffered.remove stream.nextDeliver).get seq = some other ↔
      stream.nextDeliver + 1 ≤ seq ∧ _
    rw [SortedMap.get_remove]
    by_cases same : seq = stream.nextDeliver
    · simp [same]
    · rw [if_neg same, tracked.buffered]
      refine and_congr_left fun _ => ?_
      omega
  · intro seq before
    rcases Nat.lt_succ_iff_lt_or_eq.mp before with earlier | rfl
    · exact tracked.passed seq earlier
    · exact kept
  · intro seq
    show seq ∈ insert frame.seq stream.deliveredOnce ↔ seq < stream.nextDeliver + 1
    rw [Finset.mem_insert, tracked.once, number]
    omega

theorem Tracked.drainLoop (fuel : Nat) (tracked : Tracked frames lost stream) :
    Tracked frames lost (drainLoop fuel stream) := by
  induction fuel generalizing stream with
  | zero => exact tracked
  | succ fuel ih =>
      rw [DeterministicStream.drainLoop]
      cases present : stream.buffered.get stream.nextDeliver with
      | none => exact tracked
      | some frame => exact ih (tracked.deliver present)

theorem Tracked.drainOrdered (tracked : Tracked frames lost stream) :
    Tracked frames lost stream.drainOrdered :=
  tracked.drainLoop _

/-- The loop ends because the next frame is not there, not for want of fuel. -/
theorem drainLoop_stops (fuel : Nat) (stream : DeterministicStream)
    (enough : stream.buffered.size ≤ fuel) :
    (drainLoop fuel stream).buffered.get (drainLoop fuel stream).nextDeliver = none := by
  induction fuel generalizing stream with
  | zero =>
      have empty : stream.buffered.entries = [] := List.eq_nil_of_length_eq_zero (by
        simpa [SortedMap.size] using enough)
      simp [drainLoop, SortedMap.get, empty]
  | succ fuel ih =>
      rw [drainLoop]
      cases present : stream.buffered.get stream.nextDeliver with
      | none => exact present
      | some frame =>
          refine ih _ ?_
          have taken : (stream.deliver frame).buffered =
              stream.buffered.remove stream.nextDeliver := by
            simp only [deliver]
            split_ifs <;> rfl
          have smaller := stream.buffered.size_remove_lt present
          rw [taken]
          omega

/-! Labels: the records of lost frames can be told from all others. -/

/-- Ten characters in, no two kinds of label that matter here agree. -/
def labelKind (label : String) : List Char := label.toList.take 10

theorem labelKind_append {start : String} (long : 10 ≤ start.toList.length) (rest : String) :
    labelKind (start ++ rest) = start.toList.take 10 := by
  rw [labelKind, String.toList_append, List.take_append_of_le_length long]

theorem label_injective (start : String) :
    Function.Injective fun seq : Nat => start ++ toString seq := by
  intro left right same
  have digits : Nat.toDigits 10 left = Nat.toDigits 10 right := by
    have lists := congrArg String.toList same
    simpa only [String.toList_append, List.append_cancel_left_eq, Nat.toString_eq_repr,
      Nat.toList_repr] using lists
  calc left = Nat.ofDigitChars 10 (Nat.toDigits 10 left) 0 := Nat.ofDigitChars_ten_toDigits.symm
    _ = Nat.ofDigitChars 10 (Nat.toDigits 10 right) 0 := by rw [digits]
    _ = right := Nat.ofDigitChars_ten_toDigits

/-- The label records no loss. -/
def Plain (label : String) : Prop := ∀ seq, label ≠ blockedLabel seq ∧ label ≠ dropLabel seq

theorem labelKind_blocked (seq : Nat) :
    labelKind (blockedLabel seq) = "stream:blocked:seq=".toList.take 10 :=
  labelKind_append (by decide) _

theorem labelKind_drop (seq : Nat) :
    labelKind (dropLabel seq) = "stream:drop:seq=".toList.take 10 :=
  labelKind_append (by decide) _

theorem plain_of_start (start rest : String) (long : 10 ≤ start.toList.length)
    (blocked : start.toList.take 10 ≠ "stream:blocked:seq=".toList.take 10)
    (drop : start.toList.take 10 ≠ "stream:drop:seq=".toList.take 10) : Plain (start ++ rest) := by
  have kind := labelKind_append long rest
  intro seq
  constructor
  · intro same
    rw [same, labelKind_blocked] at kind
    exact blocked kind.symm
  · intro same
    rw [same, labelKind_drop] at kind
    exact drop kind.symm

theorem plain_disconnect : Plain "stream:disconnect" := by
  have plain := plain_of_start "stream:disconnect" "" (by decide) (by decide) (by decide)
  rwa [String.append_empty] at plain

theorem plain_reconnect : Plain "stream:reconnect" := by
  have plain := plain_of_start "stream:reconnect" "" (by decide) (by decide) (by decide)
  rwa [String.append_empty] at plain

theorem plain_enqueue (seq : Nat) : Plain (enqueueLabel seq) :=
  plain_of_start "stream:enqueue:seq=" _ (by decide) (by decide) (by decide)

theorem plain_duplicate (seq : Nat) : Plain (duplicateLabel seq) :=
  plain_of_start "stream:duplicate:seq=" _ (by decide) (by decide) (by decide)

theorem plain_delay (seq afterSeq : Nat) : Plain (delayLabel seq afterSeq) :=
  plain_of_start "stream:delay:seq=" _ (by decide) (by decide) (by decide)

theorem plain_deliver (source target : NodeId) (seq : Nat) :
    Plain (deliverLabel source target seq) :=
  plain_of_start "stream:deliver:" _ (by decide) (by decide) (by decide)

/-- How often the transcript has the number recorded as blocked or dropped. -/
def lossRecords (transcript : StreamTranscript) (seq : Nat) : Nat :=
  transcript.events.count ⟨blockedLabel seq⟩ + transcript.events.count ⟨dropLabel seq⟩

theorem lossRecords_plain (transcript : StreamTranscript) {label : String} (plain : Plain label)
    (seq : Nat) : lossRecords (transcript.record label) seq = lossRecords transcript seq := by
  have blocked : (⟨label⟩ : StreamEvent) ≠ ⟨blockedLabel seq⟩ :=
    fun same => (plain seq).1 (StreamEvent.mk.inj same)
  have drop : (⟨label⟩ : StreamEvent) ≠ ⟨dropLabel seq⟩ :=
    fun same => (plain seq).2 (StreamEvent.mk.inj same)
  simp [lossRecords, StreamTranscript.record, blocked, drop]

theorem blocked_ne_drop (left right : Nat) : blockedLabel left ≠ dropLabel right := by
  intro same
  have kinds := congrArg labelKind same
  rw [labelKind_blocked, labelKind_drop] at kinds
  exact absurd kinds (by decide)

/-- Either label of a loss records its number once more. -/
theorem lossRecords_loss (transcript : StreamTranscript) {label : Nat → String}
    (loss : label = blockedLabel ∨ label = dropLabel) (lost seq : Nat) :
    lossRecords (transcript.record (label lost)) seq =
      lossRecords transcript seq + if seq = lost then 1 else 0 := by
  have added : List.count ⟨blockedLabel seq⟩ [(⟨label lost⟩ : StreamEvent)] +
      List.count ⟨dropLabel seq⟩ [(⟨label lost⟩ : StreamEvent)] = if seq = lost then 1 else 0 := by
    simp only [List.count_singleton, beq_iff_eq, StreamEvent.mk.injEq]
    rcases loss with rfl | rfl
    · have same : blockedLabel lost = blockedLabel seq ↔ seq = lost :=
        (label_injective "stream:blocked:seq=").eq_iff.trans eq_comm
      simp only [same, blocked_ne_drop, if_false, Nat.add_zero]
    · have same : dropLabel lost = dropLabel seq ↔ seq = lost :=
        (label_injective "stream:drop:seq=").eq_iff.trans eq_comm
      simp only [same, (blocked_ne_drop seq lost).symm, if_false, Nat.zero_add]
  rw [← added]
  simp only [lossRecords, StreamTranscript.record, List.count_append]
  omega

/-- The labels added tell of no loss. -/
def QuietlyAfter (stream after : DeterministicStream) : Prop :=
  ∀ seq, lossRecords after.transcript seq = lossRecords stream.transcript seq

theorem quietly_deliver (stream : DeterministicStream) (frame : Frame) :
    QuietlyAfter stream (stream.deliver frame) := by
  intro seq
  unfold deliver
  dsimp only
  split_ifs
  · rfl
  · exact lossRecords_plain stream.transcript (plain_deliver _ _ frame.seq) seq

theorem quietly_drainLoop (fuel : Nat) (stream : DeterministicStream) :
    QuietlyAfter stream (drainLoop fuel stream) := by
  induction fuel generalizing stream with
  | zero => exact fun _ => rfl
  | succ fuel ih =>
      rw [drainLoop]
      cases stream.buffered.get stream.nextDeliver with
      | none => exact fun _ => rfl
      | some frame => exact fun seq => (ih _ seq).trans (quietly_deliver stream frame seq)

theorem quietly_drain (stream : DeterministicStream) : QuietlyAfter stream stream.drainOrdered :=
  quietly_drainLoop _ stream

/-- A switch changes nothing but the connection and the transcript. -/
theorem switchConnection_shape (stream : DeterministicStream) (faults : List StreamFault) :
    ∃ events, (∀ seq, lossRecords { stream.transcript with events } seq =
        lossRecords stream.transcript seq) ∧
      stream.switchConnection faults = { stream with
        connected := connectedAfter stream.connected faults
        transcript := { stream.transcript with events } } := by
  have disconnected := lossRecords_plain stream.transcript plain_disconnect
  have reconnected := fun transcript => lossRecords_plain transcript plain_reconnect
  unfold switchConnection connectedAfter
  by_cases off : StreamFault.disconnect ∈ faults
  · by_cases on : StreamFault.reconnect ∈ faults
    · simp only [off, on, if_true, decide_true, Bool.true_or]
      exact ⟨_, fun seq => (reconnected (stream.transcript.record _) seq).trans (disconnected seq),
        rfl⟩
    · simp only [off, on, if_true, if_false, decide_true, decide_false, Bool.false_or, Bool.not_true,
        Bool.false_and]
      exact ⟨_, disconnected, rfl⟩
  · by_cases on : StreamFault.reconnect ∈ faults
    · simp only [off, on, if_true, if_false, decide_true, Bool.true_or]
      exact ⟨_, reconnected _, rfl⟩
    · simp only [off, on, if_false, decide_false, Bool.false_or, Bool.not_false, Bool.true_and]
      exact ⟨_, fun _ => rfl, rfl⟩

/-- A frame that is not lost is buffered, whatever else is recorded, and then at
most drained. -/
theorem enqueue_shape (stream : DeterministicStream) (frame : Frame) (faults : List StreamFault) :
    ∃ events, (∀ seq, lossRecords { stream.transcript with events } seq =
        lossRecords stream.transcript seq) ∧
      let ready : DeterministicStream := { stream with
        buffered := stream.buffered.insert frame.seq frame
        transcript := { stream.transcript with events } }
      stream.enqueue frame faults = ready ∨ stream.enqueue frame faults = ready.drainOrdered := by
  have enqueued := lossRecords_plain stream.transcript (plain_enqueue frame.seq)
  have duplicated := fun transcript => lossRecords_plain transcript (plain_duplicate frame.seq)
  have delayed := fun transcript afterSeq =>
    lossRecords_plain transcript (plain_delay frame.seq afterSeq)
  unfold enqueue
  generalize faults.findSome? _ = delayedAfter
  by_cases copied : StreamFault.duplicate frame.seq ∈ faults
  · -- The second insertion puts the same frame in the same place.
    simp only [copied, if_true, record, SortedMap.insert_insert_self]
    have both := fun seq => (duplicated (stream.transcript.record (enqueueLabel frame.seq))
      seq).trans (enqueued seq)
    cases delayedAfter with
    | none => exact ⟨_, both, Or.inr rfl⟩
    | some afterSeq =>
        have all := fun seq => (delayed ((stream.transcript.record _).record _) afterSeq seq).trans
          (both seq)
        dsimp only
        split_ifs
        · exact ⟨_, all, Or.inl rfl⟩
        · exact ⟨_, all, Or.inr rfl⟩
  · simp only [copied, if_false, record]
    cases delayedAfter with
    | none => exact ⟨_, enqueued, Or.inr rfl⟩
    | some afterSeq =>
        have both := fun seq => (delayed (stream.transcript.record _) afterSeq seq).trans
          (enqueued seq)
        dsimp only
        split_ifs
        · exact ⟨_, both, Or.inl rfl⟩
        · exact ⟨_, both, Or.inr rfl⟩

theorem getElem?_snoc {Item : Type} (items : List Item) (last : Item) (index : Nat) :
    (items ++ [last])[index]? = if index = items.length then some last else items[index]? := by
  by_cases same : index = items.length
  · rw [if_pos same, same, List.getElem?_concat_length]
  · rw [if_neg same, List.getElem?_append]
    split_ifs with inside
    · rfl
    · rw [List.getElem?_eq_none (by simp; omega), List.getElem?_eq_none (by omega)]

/-- One send more: the frame is appended, and it is in the buffer if it is not lost. -/
theorem Tracked.extend (tracked : Tracked frames lost stream) (bytes : List UInt8) (loses : Bool)
    {after : DeterministicStream} (sent : after.nextSend = stream.nextSend + 1)
    (nextDeliver : after.nextDeliver = stream.nextDeliver)
    (delivered : after.transcript.delivered = stream.transcript.delivered)
    (once : after.deliveredOnce = stream.deliveredOnce)
    (buffered : after.buffered = if loses then stream.buffered
      else stream.buffered.insert frames.length ⟨frames.length, bytes⟩) :
    Tracked (frames ++ [⟨frames.length, bytes⟩]) (lost ++ [loses]) after := by
  have upTo := tracked.upTo
  have told := tracked.told
  refine ⟨?_, ?_, ?_, ?_, ?_, ?_, ?_, ?_⟩
  · rw [sent, tracked.sent, List.length_append, List.length_singleton]
  · rw [List.length_append, List.length_append, told]
    rfl
  · intro seq frame listed
    rw [getElem?_snoc] at listed
    split_ifs at listed with last
    · cases listed
      exact last.symm
    · exact tracked.numbered seq frame listed
  · rw [nextDeliver, List.length_append]
    exact upTo.trans (Nat.le_add_right _ _)
  · rw [delivered, nextDeliver, tracked.delivered, List.take_append_of_le_length upTo]
  · intro seq frame
    rw [buffered, nextDeliver, getElem?_snoc, getElem?_snoc, told]
    have known := tracked.buffered seq frame
    by_cases last : seq = frames.length
    · -- The new number is beyond everything that was sent or told before.
      have absent : ¬stream.buffered.get seq = some frame := by
        rw [known, List.getElem?_eq_none (by omega : frames.length ≤ seq)]
        simp
      have later : stream.nextDeliver ≤ frames.length := upTo
      cases loses with
      | true => simp [last, last ▸ absent]
      | false => simp [last, later]
    · rw [if_neg last, if_neg last, ← known]
      cases loses with
      | true => rfl
      | false =>
          simp only [Bool.false_eq_true, if_false]
          rw [SortedMap.get_insert_of_ne _ _ last]
  · intro seq before
    rw [nextDeliver] at before
    rw [getElem?_snoc, if_neg (by omega)]
    exact tracked.passed seq before
  · intro seq
    rw [once, nextDeliver]
    exact tracked.once seq

theorem drainLoop_connected (fuel : Nat) (stream : DeterministicStream) :
    (drainLoop fuel stream).connected = stream.connected := by
  induction fuel generalizing stream with
  | zero => rfl
  | succ fuel ih =>
      rw [drainLoop]
      cases stream.buffered.get stream.nextDeliver with
      | none => rfl
      | some frame =>
          have kept : (stream.deliver frame).connected = stream.connected := by
            unfold deliver
            dsimp only
            split_ifs <;> rfl
          exact (ih _).trans kept

/-- The invariant with what the transcript says about lost frames. -/
structure Follows (connected : Bool) (frames : List Frame) (lost : List Bool)
    (stream : DeterministicStream) : Prop where
  connected : stream.connected = connected
  tracked : Tracked frames lost stream
  recorded : ∀ seq, lossRecords stream.transcript seq = if lost[seq]? = some true then 1 else 0

variable {connected : Bool}

theorem Follows.drainOrdered (follows : Follows connected frames lost stream) :
    Follows connected frames lost stream.drainOrdered where
  connected := (drainLoop_connected _ stream).trans follows.connected
  tracked := follows.tracked.drainOrdered
  recorded seq := (quietly_drain stream seq).trans (follows.recorded seq)

theorem Follows.send (follows : Follows connected frames lost stream) (bytes : List UInt8)
    (faults : List StreamFault) :
    Follows (connectedAfter connected faults) (frames ++ [⟨frames.length, bytes⟩])
      (lost ++ [isLost connected frames.length faults]) (stream.send bytes faults) := by
  have number := follows.tracked.sent
  have told := follows.tracked.told
  obtain ⟨events, quiet, switched⟩ := switchConnection_shape
    { stream with nextSend := stream.nextSend + 1 } faults
  have quiet : ∀ seq, lossRecords { stream.transcript with events } seq =
      if lost[seq]? = some true then 1 else 0 := fun seq =>
    (quiet seq).trans (follows.recorded seq)
  have beyond : ∀ value : Bool, ¬lost[frames.length]? = some value := by
    intro value
    rw [List.getElem?_eq_none (by omega)]
    simp
  -- A loss is recorded once, under the new number.
  have counted (seq : Nat) :
      ((if lost[seq]? = some true then 1 else 0) + if seq = frames.length then 1 else 0) =
        if (lost ++ [true])[seq]? = some true then 1 else 0 := by
    rw [getElem?_snoc, told]
    by_cases last : seq = frames.length
    · simp [last, beyond]
    · simp [last]
  unfold DeterministicStream.send
  dsimp only
  rw [switched, number]
  dsimp only
  rw [follows.connected]
  split_ifs with off dropped
  · have loses : isLost connected frames.length faults = true := by simp [isLost, off]
    rw [loses]
    refine ⟨rfl, follows.tracked.extend bytes true (congrArg (· + 1) number.symm) rfl rfl rfl rfl,
      fun seq => ?_⟩
    exact (lossRecords_loss _ (.inl rfl) _ seq).trans
      ((congrArg (· + _) (quiet seq)).trans (counted seq))
  · have loses : isLost connected frames.length faults = true := by simp [isLost, dropped]
    rw [loses]
    refine ⟨rfl, follows.tracked.extend bytes true (congrArg (· + 1) number.symm) rfl rfl rfl rfl,
      fun seq => ?_⟩
    exact (lossRecords_loss _ (.inr rfl) _ seq).trans
      ((congrArg (· + _) (quiet seq)).trans (counted seq))
  · have kept : isLost connected frames.length faults = false := by simp [isLost, off, dropped]
    rw [kept]
    obtain ⟨labels, silent, shape⟩ := enqueue_shape
      { stream with
        nextSend := frames.length + 1
        connected := connectedAfter connected faults
        transcript := { stream.transcript with events } } ⟨frames.length, bytes⟩ faults
    have ready : Follows (connectedAfter connected faults) (frames ++ [⟨frames.length, bytes⟩])
        (lost ++ [false]) { stream with
          nextSend := frames.length + 1
          connected := connectedAfter connected faults
          buffered := stream.buffered.insert frames.length ⟨frames.length, bytes⟩
          transcript := { stream.transcript with events := labels } } := by
      refine ⟨rfl, follows.tracked.extend bytes false (congrArg (· + 1) number.symm) rfl rfl rfl rfl,
        fun seq => ?_⟩
      refine ((silent seq).trans (quiet seq)).trans ?_
      rw [getElem?_snoc, told]
      by_cases last : seq = frames.length
      · simp [last, beyond]
      · simp [last]
    rcases shape with same | same
    · exact same ▸ ready
    · exact same ▸ ready.drainOrdered

theorem Follows.play (follows : Follows connected frames lost stream) (ops : List StreamOp) :
    ∃ connection, Follows connection (frames ++ framesFrom frames.length ops)
      (lost ++ lossesFrom connected frames.length ops) (stream.play ops) := by
  induction ops generalizing connected frames lost stream with
  | nil =>
      refine ⟨connected, ?_⟩
      rw [framesFrom, lossesFrom, List.append_nil, List.append_nil]
      exact follows
  | cons op rest ih =>
      cases op with
      | flush => exact ih follows.drainOrdered
      | send bytes faults =>
          obtain ⟨connection, later⟩ := ih (follows.send bytes faults)
          refine ⟨connection, ?_⟩
          rw [List.length_append, List.append_assoc, List.append_assoc] at later
          exact later

theorem follows_new (source target : StreamEndpoint) (ops : List StreamOp) :
    ∃ connection, Follows connection (sentFrames ops) (losses ops) ((new source target).play ops) := by
  have start : Follows true [] [] (new source target) :=
    ⟨rfl, tracked_new source target, fun seq => rfl⟩
  exact start.play ops

end DeterministicStream

open DeterministicStream

theorem DeterministicStream.Tracked.delivered_seq {frames : List Frame} {lost : List Bool}
    {stream : DeterministicStream} (tracked : Tracked frames lost stream) :
    stream.transcript.delivered.map Frame.seq = List.range stream.nextDeliver := by
  have upTo := tracked.upTo
  rw [tracked.delivered]
  apply List.ext_getElem
  · rw [List.length_map, List.length_take, List.length_range, Nat.min_eq_left upTo]
  · intro seq inside _
    rw [List.length_map, List.length_take, Nat.lt_min] at inside
    rw [List.getElem_map, List.getElem_take, List.getElem_range]
    exact tracked.numbered seq _ (List.getElem?_eq_getElem inside.2)

/-- What was delivered are the frames `0, 1, ..., nextDeliver - 1`, once each, as they
were sent, and what is buffered is still to come. -/
theorem stream_delivery_order (source target : StreamEndpoint) (ops : List StreamOp) :
    let stream := (DeterministicStream.new source target).play ops
    stream.nextSend = (sentFrames ops).length ∧ stream.nextDeliver ≤ stream.nextSend ∧
      stream.transcript.delivered = (sentFrames ops).take stream.nextDeliver ∧
      stream.transcript.delivered.map Frame.seq = List.range stream.nextDeliver ∧
      ∀ seq frame, stream.buffered.get seq = some frame →
        stream.nextDeliver ≤ seq ∧ seq < stream.nextSend := by
  intro stream
  obtain ⟨_, follows⟩ := follows_new source target ops
  have tracked := follows.tracked
  refine ⟨tracked.sent, tracked.sent.symm ▸ tracked.upTo, tracked.delivered,
    tracked.delivered_seq, ?_⟩
  intro seq frame present
  obtain ⟨later, _, listed⟩ := (tracked.buffered seq frame).mp present
  refine ⟨later, ?_⟩
  rw [tracked.sent]
  exact (List.getElem?_eq_some_iff.mp listed).1

/-- How often the transcript accounts for the number: as blocked, as dropped, or
with its frame delivered. -/
def accounts (transcript : StreamTranscript) (seq : Nat) : Nat :=
  lossRecords transcript seq + (transcript.delivered.map Frame.seq).count seq

def Accounted (ops : List StreamOp) (transcript : StreamTranscript) : Prop :=
  ∀ seq < (sentFrames ops).length, accounts transcript seq = 1

theorem DeterministicStream.Follows.accounts {connected : Bool} {frames : List Frame} {lost : List Bool}
    {stream : DeterministicStream} (follows : Follows connected frames lost stream) (seq : Nat) :
    accounts stream.transcript seq =
      (if lost[seq]? = some true then 1 else 0) + if seq < stream.nextDeliver then 1 else 0 := by
  have delivered : (List.range stream.nextDeliver).count seq =
      if seq < stream.nextDeliver then 1 else 0 := by
    rw [List.nodup_range.count]
    simp only [List.mem_range]
  rw [Detersim.accounts, follows.recorded, follows.tracked.delivered_seq, delivered]

/-- Where delivery has stopped, a number is accounted for once if it was
delivered or lost, and the first that was not delivered is lost. -/
theorem accounted_of_stopped {connected : Bool} {frames : List Frame} {lost : List Bool}
    {stream : DeterministicStream} (follows : Follows connected frames lost stream)
    (stopped : stream.buffered.get stream.nextDeliver = none) :
    (∀ seq < frames.length, accounts stream.transcript seq = 1) ↔
      lost.Pairwise fun earlier later => earlier = true → later = true := by
  have tracked := follows.tracked
  have told := tracked.told
  have passed := tracked.passed
  have here : stream.nextDeliver < frames.length → lost[stream.nextDeliver]? = some true := by
    intro inside
    rw [List.getElem?_eq_getElem (told ▸ inside), Option.some.injEq]
    by_contra kept
    have present := (tracked.buffered stream.nextDeliver frames[stream.nextDeliver]).mpr
      ⟨le_rfl, by rw [List.getElem?_eq_getElem (told ▸ inside), Bool.eq_false_of_not_eq_true kept],
        List.getElem?_eq_getElem inside⟩
    rw [stopped] at present
    cases present
  have once (seq : Nat) : accounts stream.transcript seq = 1 ↔
      (stream.nextDeliver ≤ seq → lost[seq]? = some true) := by
    rw [follows.accounts]
    by_cases before : seq < stream.nextDeliver
    · simp [before, passed seq before]
    · simp [before, Nat.le_of_not_lt before]
  simp only [once]
  rw [List.pairwise_iff_getElem]
  constructor
  · intro all earlier later inside bound order known
    have reached : stream.nextDeliver ≤ earlier := by
      by_contra before
      have kept := passed earlier (Nat.lt_of_not_le before)
      rw [List.getElem?_eq_getElem inside, known] at kept
      cases kept
    have gone := all later (told ▸ bound) (reached.trans order.le)
    rwa [List.getElem?_eq_getElem bound, Option.some.injEq] at gone
  · intro final seq inside reached
    rcases Nat.eq_or_lt_of_le reached with rfl | later
    · exact here inside
    · have first := here (later.trans inside)
      have bound : stream.nextDeliver < lost.length := told ▸ later.trans inside
      rw [List.getElem?_eq_getElem bound, Option.some.injEq] at first
      rw [List.getElem?_eq_getElem (told ▸ inside),
        final stream.nextDeliver seq bound (told ▸ inside) later first]

/-- Nothing is lost silently exactly if every frame after a lost one is lost too. -/
theorem accounted_iff (source target : StreamEndpoint) (ops : List StreamOp) :
    Accounted ops ((DeterministicStream.new source target).play ops).intoTranscript ↔
      (losses ops).Pairwise fun earlier later => earlier = true → later = true := by
  obtain ⟨_, follows⟩ := follows_new source target ops
  exact accounted_of_stopped follows.drainOrdered (drainLoop_stops _ _ le_rfl)

/-- A frame sent over a connected stream after one that was dropped, and one sent
after a reconnect, are enqueued and stay in the buffer for good. -/
theorem frames_after_loss_stuck :
    ((connectPair 0 1 7).play [.send [1] [.drop 0], .send [2] []]).intoTranscript =
        ⟨[⟨"stream:drop:seq=0"⟩, ⟨"stream:enqueue:seq=1"⟩], []⟩ ∧
      ((connectPair 0 1 7).play [.send [1] [.disconnect], .send [2] [.reconnect],
          .flush]).intoTranscript =
        ⟨[⟨"stream:disconnect"⟩, ⟨"stream:blocked:seq=0"⟩, ⟨"stream:reconnect"⟩,
          ⟨"stream:enqueue:seq=1"⟩], []⟩ ∧
      ¬Accounted [.send [1] [.drop 0], .send [2] []]
        ((connectPair 0 1 7).play [.send [1] [.drop 0], .send [2] []]).intoTranscript := by
  refine ⟨by decide, by decide, ?_⟩
  intro accounted
  have second := accounted 1 (by decide)
  revert second
  decide

end Detersim
