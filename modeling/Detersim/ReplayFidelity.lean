import Detersim.Exchange
import Detersim.Report

/-!
Replays. A scenario is run once with its draws logged, and once more with the
log as its tape: every operation and every turn commutes with the exchange of
the first tape for the second, so both runs end in one state but for the tape.
-/

namespace Detersim

namespace Inner

variable {State Value Plan : Type}

/-! The operations between runs. -/
section Operations

variable {exchange : Exchange} {g : Inner State Value} {nextAction : NextAction Plan}

theorem runDraws_grows {Result : Type} (draws : Draws Result) (g : Inner State Value) :
    Grows g (runDraws draws g).2 := by
  induction draws generalizing g with
  | done => exact Grows.refl g
  | draw label next ih => exact (draw_moves g (tapeLabelOf label)).grows.trans (ih _ _)

theorem runDraws_on {Result : Type} {draws : Draws Result}
    (fits : exchange.Fits g (runDraws draws g).2) :
    runDraws draws (exchange.on g) = Prod.map id exchange.on (runDraws draws g) := by
  induction draws generalizing g with
  | done => rfl
  | draw label next ih =>
      have drawn := (draw_moves g (tapeLabelOf label)).grows
      have first : exchange.Fits g (g.draw (tapeLabelOf label)).2 :=
        fits.first (runDraws_grows _ _)
      rw [runDraws, draw_on first]
      exact ih _ (fits.rest drawn)

theorem scheduleNemesisPlan_grows (maxActions : Nat) (plan : Plan) (g : Inner State Value) :
    Grows g (scheduleNemesisPlan nextAction maxActions plan g).2 :=
  operate_grows g (.scheduleNemesisPlan plan maxActions)

theorem scheduleNemesisPlan_on {maxActions : Nat} {plan : Plan}
    (fits : exchange.Fits g (scheduleNemesisPlan nextAction maxActions plan g).2) :
    scheduleNemesisPlan nextAction maxActions plan (exchange.on g) =
      Prod.map id exchange.on (scheduleNemesisPlan nextAction maxActions plan g) := by
  induction maxActions generalizing plan g with
  | zero => rfl
  | succ maxActions ih =>
      have drawn := runDraws_grows (nextAction plan g.worldView) g
      have same : (exchange.on g).worldView = g.worldView := rfl
      have commutes (fits : exchange.Fits g (runDraws (nextAction plan g.worldView) g).2) :
          runDraws (nextAction plan g.worldView) (exchange.on g) =
            Prod.map id exchange.on (runDraws (nextAction plan g.worldView) g) := runDraws_on fits
      unfold scheduleNemesisPlan at fits ⊢
      rw [same]
      generalize runDraws (nextAction plan g.worldView) g = result at fits drawn commutes ⊢
      obtain ⟨⟨_ | ⟨at_, action⟩, plan⟩, mid⟩ := result
      · rw [commutes fits]
        rfl
      · have scheduled := pushEvent_grows mid at_ (.nemesis action)
        have rest : Grows _ (scheduleNemesisPlan nextAction maxActions plan
            (mid.pushEvent at_ (.nemesis action))).2 := scheduleNemesisPlan_grows _ _ _
        have later : exchange.Fits mid _ := fits.rest drawn
        rw [commutes (fits.first (scheduled.trans rest))]
        dsimp only [Prod.map_apply, id]
        rw [pushEvent_on later.floor, ih (later.rest scheduled)]
        rfl

theorem addNode_on {node : NodeId} {factory : NodeFactory State Value}
    (fits : exchange.Fits g (g.addNode node factory)) :
    (exchange.on g).addNode node factory = exchange.on (g.addNode node factory) := by
  unfold addNode at fits ⊢
  rw [apply_ite exchange.on]
  refine if_ctx_congr Iff.rfl (fun _ => rfl) fun fresh => ?_
  rw [if_neg fresh] at fits
  let opened : Inner State Value := { g with
    nodes := insert node g.nodes
    faults.connectivity := g.faults.connectivity.addNode node
    inboxes := g.inboxes.insert node ((g.inboxes.get node).getD [])
    storage := g.storage.insert node ((g.storage.get node).getD .empty)
    factories := g.factories.insert node factory }
  have started : exchange.Fits opened (opened.spawnRegisteredNode node factory) :=
    ⟨fits.aligned, fits.floor, fits.covers⟩
  exact spawnRegisteredNode_on started

theorem useEnv_on {code : Code State Value Value} (fits : exchange.Fits g (g.useEnv code).2) :
    (exchange.on g).useEnv code = Prod.map id exchange.on (g.useEnv code) := by
  unfold useEnv at fits ⊢
  have dropped := fun g : Inner State Value =>
    (releases_frame ((g.futures.retain fun _ held => decide (held.owner = none)).keys) g).grows
  rw [exec_on (fits.first (dropped _))]
  exact congrArg (Prod.mk (g.exec code).1) (releases_on _ (g.exec code).2)

/-- Every operation commutes with the exchange. -/
theorem operate_on {op : WorldOp State Value Plan}
    (fits : exchange.Fits g (g.operate nextAction op).2) :
    (exchange.on g).operate nextAction op =
      Prod.map id exchange.on (g.operate nextAction op) := by
  cases op with
  | addNode node factory => exact congrArg (Prod.mk WorldReply.unit) (addNode_on fits)
  | scheduleNemesis at_ action =>
      exact congrArg (Prod.mk WorldReply.unit) (pushEvent_on fits.floor at_ (.nemesis action))
  | scheduleNemesisPlan plan maxActions =>
      have scheduled : scheduleNemesisPlan nextAction maxActions plan (exchange.on g) = _ :=
        scheduleNemesisPlan_on fits
      simp only [operate, scheduled]
      rfl
  | partition groups => exact congrArg (Prod.mk WorldReply.unit) (applyNemesis_on (.partition groups))
  | healAll => exact congrArg (Prod.mk WorldReply.unit) (applyNemesis_on .healAll)
  | setClockSkew node offsetNs =>
      exact congrArg (Prod.mk WorldReply.unit) (applyNemesis_on (.clockSkew node offsetNs))
  | crashNode node => exact congrArg (Prod.mk WorldReply.unit) (applyNemesis_on (.crash node))
  | restartNode node => exact congrArg (Prod.mk WorldReply.unit) (restartNode_on fits)
  | restartNodeOutcome node =>
      have restarted : (exchange.on g).restartNodeOutcome node = _ := restartNodeOutcome_on fits
      simp only [operate, restarted]
      rfl
  | useEnv code =>
      have used : (exchange.on g).useEnv code = _ := useEnv_on fits
      simp only [operate, used]
      rfl
  | setDropPercent | setDuplicatePercent | setExtraDelayMs => rfl

end Operations

/-! The loop. -/

theorem run_grows (program : Program State Value) (g : Inner State Value) :
    Grows g (run program g).world := by
  obtain ⟨events, last, turns, stopped⟩ := run_stops program g
  have turned : Grows g last := by
    refine KeyedQueue.runs_keep (Grows g) ?_ (Grows.refl g) turns
    exact fun _ _ _ early turned => early.trans (turn_grows turned)
  rcases stopped with ⟨_, result⟩ | ⟨event, next, aborted, result⟩
  · rw [result]
    exact turned
  · obtain ⟨queue, _, _, rfl⟩ := abort_shape program last next event aborted
    rw [result]
    refine turned.trans ?_
    split_ifs <;> exact ⟨le_rfl, List.prefix_refl _, id⟩

/-- The draws come from `full`, of which the log so far is a beginning. -/
def replaying (full : List UInt64) : Exchange where
  tape := EntropyTape.replaying full
  queue := id
  covers log := log <+: full
  floor := 0
  covers_prefix := List.IsPrefix.trans
  draw_tape aligned recorded := EntropyTape.draw_replaying aligned _ recorded
  push_queue _ _ _ := rfl
  retain_queue _ _ := rfl
  deliveries _ := rfl

section Replay

variable {program : Program State Value} {nextAction : NextAction Plan} {full : List UInt64}

/-- The replayed run pops the same events and stops for the same reason. -/
theorem run_on {g : Inner State Value} (fits : (replaying full).Fits g (run program g).world) :
    run program ((replaying full).on g) =
      { run program g with world := (replaying full).on (run program g).world } := by
  induction g using run.induct program with
  | case1 g turned =>
      have empty := (turn_quiesce program g).mp turned
      rw [run_of_empty program g empty, run_of_empty program ((replaying full).on g) empty]
  | case2 g event next turned =>
      obtain ⟨queue, popped, tripped, _⟩ := abort_shape program g next event turned
      rw [run_of_trips program g event queue popped tripped,
        run_of_trips program ((replaying full).on g) event queue popped tripped]
      split_ifs <;> rfl
  | case3 g event next turned ih =>
      obtain ⟨queue, popped, within, shape⟩ := next_shape program g next event turned
      have popping := turn_grows turned
      have later := run_grows program next
      rw [run_of_turnsTo (.turn turned (.refl next))] at fits ⊢
      have first : (replaying full).Fits { g with queue, now := event.time }
          (dispatch program { g with queue, now := event.time } event) :=
        ⟨fits.aligned, fits.floor, shape ▸ (fits.first later).covers⟩
      have alongside : turn program ((replaying full).on g) =
          .next event ((replaying full).on next) := by
        have within : ((replaying full).on g).trips event = false := within
        have popped : ((replaying full).on g).queue.pop = some (event, queue) := popped
        rw [turn, popped, shape]
        simp only [within, Bool.false_eq_true, if_false]
        exact congrArg (Turn.next event) (dispatch_on first)
      rw [run_of_turnsTo (.turn alongside (.refl _)), ih (fits.rest popping)]

end Replay

end Inner

/-- A report less the fields that tell a replay from a generated run. -/
def RunReport.unmarked (report : RunReport) : RunReport :=
  { report with
    tapeReplaying := false
    tapeInputLen := none
    tapeConsumedAll := true
    tapeExhausted := false }

/-- What is done with a world up to the run that is reported. Each operation and
each earlier run is chosen after the replies and the reports so far. -/
inductive Scenario (State Value Plan : Type) where
  | run
  | operate (op : WorldOp State Value Plan)
      (next : WorldReply Value Plan → Scenario State Value Plan)
  | runFirst (next : RunReport → Scenario State Value Plan)

namespace Scenario

open Detersim.Inner

variable {State Value Plan : Type}

/-- The world after the last run. -/
def play (program : Program State Value) (nextAction : NextAction Plan)
    (payload : Message → String) : Scenario State Value Plan → Inner State Value → Inner State Value
  | .run, g => (Inner.run program g).world
  | .operate op next, g =>
      let (reply, g) := g.operate nextAction op
      play program nextAction payload (next reply) g
  | .runFirst next, g =>
      let g := (Inner.run program g).world
      play program nextAction payload (next (g.report payload).unmarked) g

variable {program : Program State Value} {nextAction : NextAction Plan}
variable {payload : Message → String} {full : List UInt64}

theorem unmarked_on {g : Inner State Value} (aligned : g.tape.Aligned) :
    (((replaying full).on g).report payload).unmarked = (g.report payload).unmarked := by
  have cursor : ((replaying full).on g).tape.diagnostics.cursor = g.tape.diagnostics.cursor :=
    (EntropyTape.cursor_of_aligned aligned).symm
  simp only [RunReport.unmarked, report, cursor]
  rfl

theorem play_grows (scenario : Scenario State Value Plan) (g : Inner State Value) :
    Grows g (scenario.play program nextAction payload g) := by
  induction scenario generalizing g with
  | run => exact run_grows program g
  | operate op next ih => exact (operate_grows g op).trans (ih _ _)
  | runFirst next ih => exact (run_grows program g).trans (ih _ _)

theorem play_on {scenario : Scenario State Value Plan} {g : Inner State Value}
    (fits : (replaying full).Fits g (scenario.play program nextAction payload g)) :
    scenario.play program nextAction payload ((replaying full).on g) =
      (replaying full).on (scenario.play program nextAction payload g) := by
  induction scenario generalizing g with
  | run => exact congrArg Outcome.world (run_on fits)
  | operate op next ih =>
      have acted : Grows g (g.operate nextAction op).2 := operate_grows g op
      rw [play, operate_on (fits.first (play_grows _ _))]
      exact ih _ (fits.rest acted)
  | runFirst next ih =>
      have ran := run_grows program g
      rw [play, run_on (fits.first (play_grows _ _))]
      dsimp only
      rw [unmarked_on (ran.aligned fits.aligned)]
      exact ih _ (fits.rest ran)

end Scenario

/-- The replay is the run over again and uses up its tape exactly. -/
structure Reproduces (original replayed : RunReport) : Prop where
  seed : replayed.seed = original.seed
  trace : replayed.trace = original.trace
  history : replayed.history = original.history
  nemesisTrace : replayed.nemesisTrace = original.nemesisTrace
  coverageSignals : replayed.coverageSignals = original.coverageSignals
  tapeLog : replayed.tapeLog = original.tapeLog
  tapeLogLen : replayed.tapeLogLen = original.tapeLogLen
  tapeEvents : replayed.tapeEvents = original.tapeEvents
  dispatched : replayed.dispatched = original.dispatched
  aborted : replayed.aborted = original.aborted
  deadlocked : replayed.deadlocked = original.deadlocked
  parkedTasks : replayed.parkedTasks = original.parkedTasks
  consumedAll : replayed.tapeConsumedAll = true
  notExhausted : replayed.tapeExhausted = false

namespace Scenario

open Detersim.Inner

variable {State Value Plan : Type}

def report (program : Program State Value) (nextAction : NextAction Plan)
    (payload : Message → String) (scenario : Scenario State Value Plan) (g : Inner State Value) :
    RunReport :=
  (scenario.play program nextAction payload g).report payload

theorem report_replaying {program : Program State Value} {nextAction : NextAction Plan}
    {payload : Message → String} (scenario : Scenario State Value Plan) {g : Inner State Value}
    (aligned : g.tape.Aligned) :
    Reproduces (scenario.report program nextAction payload g)
      (scenario.report program nextAction payload
        ((replaying (scenario.report program nextAction payload g).tapeLog).on g)) := by
  -- The whole log of the run is the tape, so every draw of the run is covered by it.
  let final := scenario.play program nextAction payload g
  have fits : (replaying final.tape.log).Fits g final :=
    ⟨aligned, Nat.zero_le _, List.prefix_refl _⟩
  change Reproduces (final.report payload) ((scenario.play program nextAction payload
    ((replaying final.tape.log).on g)).report payload)
  rw [play_on fits]
  exact {
    seed := rfl
    trace := rfl
    history := rfl
    nemesisTrace := rfl
    coverageSignals := rfl
    tapeLog := rfl
    tapeLogLen := rfl
    tapeEvents := rfl
    dispatched := rfl
    aborted := rfl
    deadlocked := rfl
    parkedTasks := rfl
    consumedAll := decide_eq_true le_rfl
    -- The cursor of the replay stands where the log it was given ends.
    notExhausted := decide_eq_false (lt_irrefl _) }

/-- The log of a generated run, and the log of a run replayed from any tape at
all, is a tape from which the same scenario gives the same run. -/
theorem replay_fidelity (program : Program State Value) (nextAction : NextAction Plan)
    (payload : Message → String) (scenario : Scenario State Value Plan) (seed : UInt64)
    (config : WorldConfig) :
    Reproduces (scenario.report program nextAction payload (generate seed config))
        (scenario.report program nextAction payload (replay seed
          (scenario.report program nextAction payload (generate seed config)).tapeLog config)) ∧
      ∀ tape, Reproduces (scenario.report program nextAction payload (replay seed tape config))
        (scenario.report program nextAction payload (replay seed
          (scenario.report program nextAction payload (replay seed tape config)).tapeLog
          config)) :=
  ⟨report_replaying scenario (EntropyTape.aligned_ofSeed _),
    fun tape => report_replaying scenario (EntropyTape.aligned_ofTape tape)⟩

end Scenario

end Detersim
