import StrandFirmware.CommandDelivery
import StrandFirmware.MotionProgress

/-!
# From the messages to the motor

Here the two halves of the program meet: `command_handler`, which turns messages into effects, and
the queues, generator tasks and `stepper_task`, which turn commands into steps.  They share the
queues: the `MotionSystem` is asked for the commands that are among the effects of the messages, in
their order, while its tasks run as they like.

A script of relative moves moves the motor by exactly the sum of the numbers in its messages, less
what was dropped from full queues: at every moment the steps are made, to go, waiting or dropped,
and the tasks can always go on until the motor stands and nothing waits (`script_moves`).  A
datagram that repeats the id of the last one moves nothing.
-/

namespace Strand

open CString MemoryFault Rounding

/-! ## Scripts of relative moves -/

namespace Command

/-- The steps of a relative move. -/
def relative : Command → List ℤ
  | home move _ _ | stepperMove move _ _ => [move]
  | _ => []

/-- A short relative move with settings that the motor can keep, or a command that moves nothing. -/
def MovesShortly : Command → Prop
  | home move speed accel | stepperMove move speed accel =>
    |move| ≤ 2000 ∧ (1 ≤ speed ∧ speed ≤ 10 ^ 6) ∧ (1 ≤ accel ∧ accel < 2 ^ 24)
  | setCurrent _ | setMin _ | setMax _ | setNumber _ | setLocation .. | update | getMac
  | getLocation => True
  | _ => False

instance : DecidablePred MovesShortly
  | home .. | stepperMove .. => inferInstanceAs (Decidable (_ ∧ _))
  | setCurrent _ | setMin _ | setMax _ | setNumber _ | setLocation .. | update | getMac
  | getLocation => .isTrue trivial
  | ota | reset | stop | stepperTranslate .. | stepperNumTranslate .. | strandTranslate ..
  | stepperWave .. | stepperSine .. | stepperNumSine .. | stepperSineWave .. => .isFalse id

end Command

namespace Transmission

/-- The command that is on its way. -/
def command : Transmission → Command
  | multicast _ c | broadcast _ c | tcp c => c

/-- The id that is kept after it. -/
def keptId (lastId : ℤ) : Transmission → ℤ
  | multicast id _ | broadcast id _ => id
  | tcp _ => lastId

/-- The steps that it asks for; none if it repeats the last id. -/
def relative (lastId : ℤ) : Transmission → List ℤ
  | multicast id c | broadcast id c => if id = lastId then [] else c.relative
  | tcp c => c.relative

end Transmission

/-- The steps that a script asks for. -/
def scriptSteps : ℤ → List Transmission → List ℤ
  | _, [] => []
  | lastId, x :: xs => x.relative lastId ++ scriptSteps (x.keptId lastId) xs

/-! ## What the motion tasks are asked for -/

/-- What an effect of a message asks the motion tasks for. -/
def Effect.asks : Effect → Option (MotionPipeline.Label Unit)
  | .stepperQueue c => some (.move () c)
  | .waveQueue w => some (.request () (.wave w))
  | .sineQueue s => some (.request () (.sine s))
  | .sineWaveQueue s => some (.request () (.sineWave s))
  | _ => none

/-- What a step of the motion tasks is asked for. -/
def MotionSystem.Label.asks : MotionSystem.Label Unit → Option (MotionPipeline.Label Unit)
  | .convey (.move a c) => some (.move a c)
  | .convey (.request a r) => some (.request a r)
  | _ => none

/-- The effects ask for short relative moves of these lengths. -/
def AskForMoves (effects : List Effect) (moves : List ℤ) : Prop :=
  ∃ cs : List StepperCommand, effects.filterMap Effect.asks = cs.map (.move ()) ∧
    cs.map (fun c => c.move) = moves ∧
      ∀ c ∈ cs, MotionSystem.ShortMove c ∧ MotionSystem.Drivable c

/-- Effects in two parts. -/
lemma AskForMoves.append {es es' : List Effect} {moves moves' : List ℤ} (h : AskForMoves es moves)
    (h' : AskForMoves es' moves') : AskForMoves (es ++ es') (moves ++ moves') := by
  obtain ⟨cs, hasks, hmoves, hcs⟩ := h
  obtain ⟨cs', hasks', hmoves', hcs'⟩ := h'
  refine ⟨cs ++ cs', ?_, ?_, List.forall_mem_append.mpr ⟨hcs, hcs'⟩⟩
  · rw [List.filterMap_append, hasks, hasks', List.map_append]
  · rw [List.map_append, hmoves, hmoves']

/-- Effects that ask for nothing. -/
lemma askForMoves_nil {es : List Effect} (h : ∀ e ∈ es, e.asks = none) : AskForMoves es [] :=
  ⟨[], by simpa using h, rfl, by simp⟩

/-- The effect of a short relative move. -/
lemma askForMoves_relativeMove (d : Controller) {move speed accel : ℤ} (hmove : |move| ≤ 2000)
    (hspeed : 1 ≤ speed ∧ speed ≤ 10 ^ 6) (haccel : 1 ≤ accel ∧ accel < 2 ^ 24) :
    AskForMoves [d.relativeMove move speed accel] [move] := by
  refine ⟨[⟨d.stepper.min, d.stepper.max, speed, accel, move, 0, 0⟩], rfl, rfl, ?_⟩
  have hshort : MotionSystem.ShortMove ⟨d.stepper.min, d.stepper.max, speed, accel, move, 0, 0⟩ :=
    ⟨rfl, hmove⟩
  exact List.forall_mem_singleton.mpr ⟨hshort, .inl rfl, hspeed, haccel, .inl hshort⟩

/-- The meaning of a command that moves shortly. -/
lemma perform_movesShortly {c : Command} (hc : c.MovesShortly) (mac : String) (overTcp : Bool)
    (d : Controller) : ∃ d' es, d.perform mac overTcp c = some (d', es) ∧ d'.lastId = d.lastId ∧
      AskForMoves es c.relative := by
  cases c with
  | home move speed accel | stepperMove move speed accel =>
    obtain ⟨hmove, hspeed, haccel⟩ := hc
    exact ⟨d, _, rfl, rfl, askForMoves_relativeMove d hmove hspeed haccel⟩
  | setCurrent value | setMax value | setNumber value | setLocation x y z | update =>
    exact ⟨_, _, rfl, rfl, askForMoves_nil (by simp [Effect.asks])⟩
  | setMin value | getMac | getLocation =>
    refine ⟨_, _, rfl, rfl, askForMoves_nil ?_⟩
    cases overTcp <;> simp [Effect.asks]
  | _ => exact absurd hc id

/-- The meaning of a transmission of such a command. -/
lemma receive_movesShortly {x : Transmission} (hx : x.command.MovesShortly) (mac : String)
    (d : Controller) : ∃ d' es, d.receive mac x = some (d', es) ∧ d'.lastId = x.keptId d.lastId ∧
      AskForMoves es (x.relative d.lastId) := by
  cases x with
  | multicast id c | broadcast id c =>
    simp only [Controller.receive, Transmission.relative, Transmission.keptId]
    split
    next hsame => exact ⟨d, [], rfl, hsame.symm, askForMoves_nil (by simp)⟩
    next => exact perform_movesShortly hx mac false { d with lastId := id }
  | tcp c => exact perform_movesShortly hx mac true d

/-- **The meaning of a script** of such commands. -/
lemma exists_run_movesShortly {script : List Transmission}
    (hscript : ∀ x ∈ script, x.command.MovesShortly) (mac : String) (d : Controller) :
    ∃ d', StepRuns.run (Controller.next mac) d script = some d' ∧
      AskForMoves (StepRuns.outputs (Controller.next mac) (Controller.performed mac) d script)
        (scriptSteps d.lastId script) := by
  induction script generalizing d with
  | nil => exact ⟨d, rfl, askForMoves_nil (by simp [StepRuns.outputs])⟩
  | cons x xs ih =>
    obtain ⟨hx, hxs⟩ := List.forall_mem_cons.mp hscript
    obtain ⟨d', es, hreceive, hlast, hes⟩ := receive_movesShortly hx mac d
    obtain ⟨d'', hrun, hrest⟩ := ih hxs d'
    have hnext : d.next mac x = some d' := by rw [Controller.next, hreceive, Option.map_some]
    have hperformed : d.performed mac x = es := by
      rw [Controller.performed, hreceive, Option.map_some, Option.getD_some]
    refine ⟨d'', StepRuns.run_cons_eq_some_iff.mpr ⟨d', hnext, hrun⟩, ?_⟩
    rw [StepRuns.outputs_cons hnext, hperformed, scriptSteps, ← hlast]
    exact hes.append hrest

namespace MotionSystem

variable {platform : FloatValue → ℤ} {unset : Unit → ℤ} {s t : MotionSystem Unit}

/-- What was asked for since the start. -/
lemma asked_of_run {ls : List (Label Unit)}
    (hrun : StepRuns.run (step platform unset) s ls = some t) :
    t.asked = s.asked +
      ((ls.filterMap Label.asks).flatMap (MotionPipeline.askedBy unset) : List _) := by
  induction ls generalizing s with
  | nil =>
    obtain rfl : s = t := by simpa using hrun
    simp
  | cons l ls ih =>
    obtain ⟨u, hu, hrest⟩ := StepRuns.run_cons_eq_some_iff.mp hrun
    have hstep : u.asked =
        s.asked + ((l.asks.toList).flatMap (MotionPipeline.askedBy unset) : List _) := by
      cases l with
      | convey l =>
        obtain ⟨-, p, -, rfl⟩ := step_convey hu
        cases l <;> simp [Label.asks, MotionPipeline.askedBy]
      | receive =>
        obtain ⟨x, p, task, -, -, -, rfl⟩ := step_receive hu
        simp [Label.asks]
      | operate l =>
        obtain ⟨-, task, -, rfl⟩ := step_operate hu
        simp [Label.asks]
    rw [ih hrest, hstep, add_assoc, Multiset.coe_add, ← List.flatMap_append]
    cases hasks : l.asks <;> simp [hasks]

/-- A run that is asked for some moves and nothing else, and in which no notification is sent. -/
lemma undisturbed_of_asks {ls : List (Label Unit)} {cs : List StepperCommand}
    (hquiet : ∀ l ∈ ls, l ≠ .operate .isr ∧ l ≠ .operate .stop)
    (hasks : ls.filterMap Label.asks = cs.map (.move ())) {Q : StepperCommand → Prop}
    (hcs : ∀ c ∈ cs, Q c) : ∀ l ∈ ls, Undisturbed unset Q l := by
  intro l hl
  have hmem : ∀ l', l.asks = some l' → ∃ c ∈ cs, .move () c = l' := fun l' hl' =>
    List.mem_map.mp (hasks ▸ List.mem_filterMap.mpr ⟨l, hl, hl'⟩)
  cases l with
  | convey l =>
    cases l with
    | request a r =>
      obtain ⟨c, -, hc⟩ := hmem (.request a r) rfl
      cases hc
    | move a c =>
      obtain ⟨c', hc', hsame⟩ := hmem (.move a c) rfl
      obtain rfl : c' = c := (MotionPipeline.Label.move.inj hsame).2
      exact List.forall_mem_singleton.mpr (hcs c' hc')
    | _ => exact fun x hx => absurd hx (by simp [MotionPipeline.askedBy])
  | receive => trivial
  | operate l =>
    obtain ⟨hisr, hstop⟩ := hquiet _ hl
    exact ⟨fun h => hisr (h ▸ rfl), fun h => hstop (h ▸ rfl)⟩

/-- **From the messages to the motor.**  `command_handler` handles the messages of a script of short
relative moves, and the motion tasks run in any way in which they are asked for what it does, and no
notification is sent.  Then the steps that the script asks for are those made, to go, waiting and
dropped; and the tasks can go on until the motor stands, having made them all but those dropped. -/
theorem script_moves {env : Environment} (henv : env.Faithful) {script : List Transmission}
    (hfits : ∀ x ∈ script, x.Fits) (hscript : ∀ x ∈ script, x.command.MovesShortly)
    {net : NetState} {d : Controller} (hd : d.Represents net) {record : Stepper} {nvs : String → ℤ}
    {ls : List (Label Unit)} (hquiet : ∀ l ∈ ls, l ≠ .operate .isr ∧ l ≠ .operate .stop)
    (hasks : ls.filterMap Label.asks =
      (StepRuns.outputs NetState.handle NetState.performed net
        (script.map fun x => (env, x.receiver, x.message))).filterMap Effect.asks)
    (hrun : StepRuns.run (step platform unset) (boot record nvs) ls = some t) :
    ProfileTask.counts (scriptSteps d.lastId script) =
        t.task.account + steps (t.pipeline.waiting unset) + steps t.lost ∧
      ∃ ls' u, (∀ l ∈ ls', Internal l) ∧ StepRuns.run (step platform unset) t ls' = some u ∧
        u.Drained unset ∧ u.task.profile.Standing ∧
        ProfileTask.counts (scriptSteps d.lastId script) =
          (u.task.made, u.task.travelled) + steps t.lost := by
  obtain ⟨d', hnext, cs, hcs, hmoves, hall⟩ := exists_run_movesShortly hscript env.mac d
  obtain ⟨net', -, -, houtputs⟩ := StepRuns.exists_run_of_related
    (fun _ _ _ _ hd hx h => handle_message henv hd hx h) hd hfits hnext
  rw [houtputs, hcs] at hasks
  have hsteps : steps t.asked = ProfileTask.counts (scriptSteps d.lastId script) := by
    rw [asked_of_run hrun, hasks, boot, zero_add, steps_coe, ← hmoves]
    congr 1
    simp only [List.flatMap_map, MotionPipeline.askedBy]
    rw [← List.map_eq_flatMap, List.map_map]
    rfl
  have hshort : ∀ l ∈ ls, Undisturbed unset ShortMove l :=
    undisturbed_of_asks hquiet hasks fun c hc => (hall c hc).1
  have hdrivable : ∀ l ∈ ls, Undisturbed unset Drivable l :=
    undisturbed_of_asks hquiet hasks fun c hc => (hall c hc).2
  refine ⟨hsteps ▸ (accounted_of_run hshort hrun).steps_asked, ?_⟩
  obtain ⟨ls', u, hls', hrun', hdrained, hstanding, hasked, hlost⟩ :=
    (ready_of_run ready_boot hdrivable hrun).exists_drained
  refine ⟨ls', u, hls', hrun', hdrained, hstanding, ?_⟩
  -- the whole run is accounted for
  have hwhole := accounted_of_run (List.forall_mem_append.mpr
    ⟨hshort, fun l hl => undisturbed_of_internal (hls' l hl)⟩)
    (StepRuns.run_append_eq_some_iff.mpr ⟨t, hrun, hrun'⟩)
  have hend := hwhole.steps_asked
  rw [hasked, hlost, hdrained.1, hsteps] at hend
  rw [hend, ProfileTask.account, hstanding.distanceToGo_eq]
  simp [steps]

/-- A move over both channels and a move over TCP. -/
def twoMoveScript : List Transmission :=
  [.multicast 5 (.stepperMove 2 1000 1000), .broadcast 5 (.stepperMove 2 1000 1000),
    .tcp (.home (-3) 1000 1000)]

/-- The device is asked for five steps, two forward and then three back, and makes them. -/
theorem script_moves_two : ∃ t u : MotionSystem Unit,
    StepRuns.run (step (fun _ => 0) fun _ => 0) (boot ⟨0, 0, 2000, 0, 0⟩ fun _ => 0) twoMoves =
        some t ∧ u.task.profile.Standing ∧
      (5, -1) = (u.task.made, u.task.travelled) + steps t.lost := by
  have hfits : ∀ x ∈ twoMoveScript, x.Fits := by decide +kernel
  have hscript : ∀ x ∈ twoMoveScript, x.command.MovesShortly := by decide
  have heffects : StepRuns.outputs NetState.handle NetState.performed
      (.boot ⟨0, 0, 2000, 0, 0⟩ ⟨0, 0, 0⟩)
      (twoMoveScript.map fun x => (.faithful, x.receiver, x.message)) =
        [.stepperQueue ⟨0, 2000, 1000, 1000, 2, 0, 0⟩,
          .stepperQueue ⟨0, 2000, 1000, 1000, -3, 0, 0⟩] := by
    decide +kernel
  have hquiet : ∀ l ∈ twoMoves, l ≠ .operate .isr ∧ l ≠ .operate .stop := by
    simp [twoMoves]
  have heval : ((StepRuns.run (step (fun _ => 0) fun _ => 0) (boot ⟨0, 0, 2000, 0, 0⟩ fun _ => 0)
      twoMoves).any fun t => t.task.made = 1) = true := by
    decide +kernel
  obtain ⟨t, hrun, -⟩ := StepRuns.exists_run_of_any heval
  obtain ⟨-, ls, u, -, -, -, hstanding, hsteps⟩ := script_moves ⟨rfl, rfl⟩ hfits hscript
    (represents_boot _ _) hquiet (by rw [heffects]; rfl) hrun
  exact ⟨t, u, hrun, hstanding, hsteps⟩

end MotionSystem

end Strand
