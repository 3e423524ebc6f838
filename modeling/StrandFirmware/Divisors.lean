import StrandFirmware.MotionTasks

/-!
# Divisors that come from messages

Three commands carry a divisor: the time of `strandTranslate` and the speeds of `stepperWave` and
`stepperSineWave`.  None of them is checked, and a slot that the message does not fill reads as it
was left.  A wave can also ask for type 2, whose branch of `stepper_task` divides by a time that no
generator sets.

`GivesDivisors` says of a message that it carries its divisors and no type 2 for a wave.  The
effects of a message lead to divisions by zero exactly when it does not, and in a run whose
messages all do nothing is ever divided by zero (`defined_of_along_givesDivisors`).
-/

namespace Strand

open CString MemoryFault Rounding

/-! ## Commands and requests -/

/-- A command of type 2 has a time. -/
def StepperCommand.GivesDivisor (c : StepperCommand) : Prop := c.type = 2 → c.time ≠ 0

/-- The divisions of `stepper_task` for the command. -/
lemma StepperCommand.givesDivisor_iff (position : ℤ) {c : StepperCommand} :
    c.GivesDivisor ↔ ∀ d ∈ c.divisions position, d.Defined := by
  unfold GivesDivisor divisions
  split
  next htype => simp [htype, Division.defined_speed_iff]
  next htype => simp [htype]

namespace Request

/-- The request has a speed, if it is a wave, and is not of type 2. -/
def GivesDivisors : Request → Prop
  | wave w => w.speed ≠ 0 ∧ w.waveStepper.type ≠ 2
  | sine s => s.sineStepper.type ≠ 2
  | sineWave s => s.speed ≠ 0 ∧ s.sineWaveStepper.type ≠ 2

/-- The division of a generator has a divisor, and the type is not 2. -/
lemma givesDivisors_iff_base (deviceLocation : Location) {r : Request} :
    r.GivesDivisors ↔ (∀ d ∈ r.divisions deviceLocation, d.Defined) ∧ r.base.type ≠ 2 := by
  cases r <;> simp [GivesDivisors, divisions, base, Division.defined_delay_iff]

/-- A generator sets no time, so its commands have a divisor exactly when their type is not 2. -/
lemma givesDivisor_of_mem {unset : ℤ} {r : Request} {c : StepperCommand}
    (hc : c ∈ r.commands unset) : c.GivesDivisor ↔ r.base.type ≠ 2 := by
  obtain ⟨target, rfl⟩ := exists_moveLike_of_mem hc
  simp [StepperCommand.GivesDivisor, moveLike, commandMove]

/-- The divisions that the request leads to: that of the generator, and those of `stepper_task` for
its commands. -/
def allDivisions (deviceLocation : Location) (unset position : ℤ) (r : Request) : List Division :=
  r.divisions deviceLocation ++ (r.commands unset).flatMap (StepperCommand.divisions position)

/-- All divisions that the request leads to have a divisor. -/
lemma givesDivisors_iff (deviceLocation : Location) (unset position : ℤ) (r : Request) :
    r.GivesDivisors ↔ ∀ d ∈ r.allDivisions deviceLocation unset position, d.Defined := by
  rw [givesDivisors_iff_base deviceLocation, allDivisions, List.forall_mem_append]
  refine and_congr_right fun _ => ?_
  constructor
  · intro htype d hd
    obtain ⟨c, hc, hd⟩ := List.mem_flatMap.mp hd
    exact (StepperCommand.givesDivisor_iff position).mp ((givesDivisor_of_mem hc).mpr htype) d hd
  · intro hall
    obtain ⟨c, hc⟩ := List.exists_mem_of_ne_nil _ (r.commands_ne_nil unset)
    rw [← givesDivisor_of_mem hc, StepperCommand.givesDivisor_iff position]
    intro d hd
    exact hall d (List.mem_flatMap.mpr ⟨c, hc, hd⟩)

end Request

namespace Effect

/-- The divisions that the effect leads to. -/
def divisions (deviceLocation : Location) (unset position : ℤ) : Effect → List Division
  | stepperQueue c => c.divisions position
  | waveQueue w => (Request.wave w).allDivisions deviceLocation unset position
  | sineQueue s => (Request.sine s).allDivisions deviceLocation unset position
  | sineWaveQueue s => (Request.sineWave s).allDivisions deviceLocation unset position
  | _ => []

/-- What the effect sends towards the motor has its divisors. -/
abbrev GivesDivisors (e : Effect) : Prop :=
  e.Sends Request.GivesDivisors StepperCommand.GivesDivisor

/-- All divisions that the effect leads to have a divisor. -/
lemma givesDivisors_iff (deviceLocation : Location) (unset position : ℤ) (e : Effect) :
    e.GivesDivisors ↔ ∀ d ∈ e.divisions deviceLocation unset position, d.Defined := by
  cases e with
  | stepperQueue c => exact StepperCommand.givesDivisor_iff position
  | waveQueue w => exact Request.givesDivisors_iff _ _ _ (.wave w)
  | sineQueue s => exact Request.givesDivisors_iff _ _ _ (.sine s)
  | sineWaveQueue s => exact Request.givesDivisors_iff _ _ _ (.sineWave s)
  | _ => simp [Sends, divisions]

end Effect

/-! ## Messages -/

namespace Handling

/-- All effects so far have their divisors. -/
def GivesDivisors (h : Handling) : Prop := ∀ e ∈ h.effects, e.GivesDivisors

variable (h : Handling) (env : Environment)

/-- One more effect. -/
@[simp] lemma givesDivisors_emit (e : Effect) :
    (h.emit e).GivesDivisors ↔ h.GivesDivisors ∧ e.GivesDivisors := by
  simp only [GivesDivisors, emit, List.forall_mem_append, List.forall_mem_singleton]

@[simp] lemma givesDivisors_setPramamter (type value : ℤ) :
    (h.setPramamter type value).GivesDivisors ↔ h.GivesDivisors :=
  (givesDivisors_emit _ (.setPramamter type value)).trans (and_iff_left trivial)

@[simp] lemma givesDivisors_saveParamters :
    (h.saveParamters env).GivesDivisors ↔ h.GivesDivisors :=
  (givesDivisors_emit h (.saveStepper h.stepper)).trans (and_iff_left trivial)

@[simp] lemma givesDivisors_commandSetLocation (loc : Location) :
    (h.commandSetLocation env loc).GivesDivisors ↔ h.GivesDivisors :=
  (givesDivisors_emit h (.saveLocation loc)).trans (and_iff_left trivial)

@[simp] lemma givesDivisors_updateUdp : h.updateUdp.GivesDivisors ↔ h.GivesDivisors :=
  (givesDivisors_emit h (.updateUdp h.stepper)).trans (and_iff_left trivial)

@[simp] lemma givesDivisors_commandMove (type move speed accel time : ℤ) :
    (h.commandMove type move speed accel time).GivesDivisors ↔
      h.GivesDivisors ∧ (type = 2 → time ≠ 0) :=
  givesDivisors_emit h _

end Handling

/-- The branch finds its divisors, and for a wave a type other than 2, in its slots. -/
def Branch.GivesDivisors (b : Branch) (word : ℤ → ℤ) : Prop :=
  (b.word = strandTranslateBranch.word → word 4 ≠ 0) ∧
  (b.word = stepperWaveBranch.word → word 4 ≠ 0 ∧ word 5 ≠ 2) ∧
  (b.word = stepperSineWaveBranch.word → word 4 ≠ 0)

/-- The table holds the divisors of the command in slot 0, and a type other than 2 for a wave. -/
def CommandLine.GivesDivisors (t : CommandLine) : Prop :=
  (strandTranslateBranch.test t = .ok true → t.atoiSlot 4 ≠ .ok 0) ∧
  (stepperWaveBranch.test t = .ok true → t.atoiSlot 4 ≠ .ok 0 ∧ t.atoiSlot 5 ≠ .ok 2) ∧
  (stepperSineWaveBranch.test t = .ok true → t.atoiSlot 4 ≠ .ok 0)

instance (t : CommandLine) : Decidable t.GivesDivisors := inferInstanceAs (Decidable (_ ∧ _))

section Message

variable {env : Environment} {t : CommandLine} {w : Row} {rest : List Row} {type : ℤ}
  {h h' : Handling} {b c : Branch}

/-- A branch of the first chain adds effects with divisors exactly when it finds the divisors. -/
lemma givesDivisors_act_standard (env : Environment) (word : ℤ → ℤ) (h : Handling)
    (hb : b ∈ standardBranches) :
    (b.act env word h).GivesDivisors ↔ h.GivesDivisors ∧ b.GivesDivisors word := by
  simp only [standardBranches, List.mem_cons, List.not_mem_nil, or_false] at hb
  rcases hb with rfl | rfl | rfl | rfl | rfl | rfl | rfl | rfl | rfl | rfl | rfl | rfl | rfl |
    rfl | rfl | rfl | rfl | rfl | rfl
  case inr.inr.inr.inr.inr.inr.inr.inl =>
    by_cases hnumber : h.stepper.number = 0
    · simp [stepperNumTranslateBranch, hnumber, Branch.GivesDivisors, strandTranslateBranch,
        stepperWaveBranch, stepperSineWaveBranch]
    · simp [stepperNumTranslateBranch, hnumber, Branch.GivesDivisors, strandTranslateBranch,
        stepperWaveBranch, stepperSineWaveBranch]
  all_goals simp [duplicateBranch, otaBranch, resetBranch, stopBranch, plainBranch, homeBranch,
    stepperMoveBranch, stepperTranslateBranch, moveBranch, strandTranslateBranch,
    stepperWaveBranch, stepperSineBranch, stepperNumSineBranch, stepperSineWaveBranch,
    setCurrentBranch, setMinBranch, setMaxBranch, setNumberBranch, setBranch, setLocationBranch,
    setLocationAct, updateBranch, Branch.GivesDivisors, Effect.GivesDivisors, Effect.Sends,
    Request.GivesDivisors, waveCommand, sineCommand, sineWaveCommand, requestedStepper]

/-- A branch of the second chain sends nothing towards the motor. -/
lemma givesDivisors_act_tcp (env : Environment) (word : ℤ → ℤ) (h : Handling)
    (hb : b ∈ tcpBranches) : (b.act env word h).GivesDivisors ↔ h.GivesDivisors := by
  simp only [tcpBranches, List.mem_cons, List.not_mem_nil, or_false] at hb
  rcases hb with rfl | rfl | rfl | rfl | rfl | rfl | rfl
  all_goals simp [getMacBranch, replyBranch, tcpSetLocationBranch, setLocationAct, tcpSetMinBranch,
    tcpSetMaxBranch, tcpSetNumberBranch, tcpSetBranch, tcpUpdateBranch, getLocationBranch,
    Effect.GivesDivisors, Effect.Sends]

/-- A branch of the first chain that accepts the word in slot 0 has the word of another one exactly
when that one accepts it. -/
lemma forall_test_iff (hb : b ∈ standardBranches) (hacc : b.accepts w = true)
    (ht : t.rows = w :: rest) (hc : c ∈ standardBranches) {X X' : Prop}
    (hX : b = c → (X ↔ X')) : (c.test t = .ok true → X) ↔ (b.word = c.word → X') := by
  have hcacc : c.test t = .ok true ↔ c.accepts w = true := by
    rw [Branch.test_eq (fitsSlot_of_mem (.inl hc)) ht, Except.ok.injEq]
  have heq : c.accepts w = true → b = c := by
    intro hc'
    have hfind := find?_eq_some_of_exclusive exclusive_standardBranches hb hacc
    rw [find?_eq_some_of_exclusive exclusive_standardBranches hc hc'] at hfind
    exact (Option.some.inj hfind).symm
  have hword : c.accepts w = true ↔ b.word = c.word := by
    constructor
    · intro hc'
      rw [heq hc']
    · intro hw
      unfold Branch.accepts at hacc ⊢
      rwa [(bound_of_mem_standardBranches c hc).1, ← hw,
        ← (bound_of_mem_standardBranches b hb).1]
  rw [hcacc]
  constructor
  · intro h hw
    exact (hX (heq (hword.mpr hw))).mp (h (hword.mpr hw))
  · intro h hc'
    exact (hX (heq hc')).mpr (h (hword.mp hc'))

/-- The branch that a message runs finds its divisors exactly when the table holds them. -/
lemma givesDivisors_iff_of_match (ht : t.rows = w :: rest) (hb : standardMatch w = some b)
    {word : ℤ → ℤ} {s : Stepper} (hword : ∀ j ∈ b.slots s, t.atoiSlot j = .ok (word j)) :
    t.GivesDivisors ↔ b.GivesDivisors word := by
  have hmem := List.mem_of_find?_eq_some hb
  have hacc : b.accepts w = true := by simpa using List.find?_some hb
  have hslot : ∀ {j v : ℤ}, j ∈ b.slots s → (t.atoiSlot j ≠ .ok v ↔ word j ≠ v) := by
    intro j v hj
    rw [hword j hj, ne_eq, Except.ok.injEq]
  refine and_congr ?_ (and_congr ?_ ?_)
  · refine forall_test_iff hmem hacc ht (by simp [standardBranches]) ?_
    rintro rfl
    exact hslot (by simp [strandTranslateBranch])
  · refine forall_test_iff hmem hacc ht (by simp [standardBranches]) ?_
    rintro rfl
    exact and_congr (hslot (by simp [stepperWaveBranch])) (hslot (by simp [stepperWaveBranch]))
  · refine forall_test_iff hmem hacc ht (by simp [standardBranches]) ?_
    rintro rfl
    exact hslot (by simp [stepperSineWaveBranch])

/-- A word that no branch of the first chain accepts needs no divisors. -/
lemma givesDivisors_of_no_match (ht : t.rows = w :: rest) (hw : standardMatch w = none) :
    t.GivesDivisors := by
  have hno : ∀ {c}, c ∈ standardBranches → c.test t ≠ .ok true := by
    intro c hc htest
    rw [Branch.test_eq (fitsSlot_of_mem (.inl hc)) ht, Except.ok.injEq] at htest
    exact List.find?_eq_none.mp hw c hc htest
  exact ⟨fun h => absurd h (hno (by simp [standardBranches])),
    fun h => absurd h (hno (by simp [standardBranches])),
    fun h => absurd h (hno (by simp [standardBranches]))⟩

/-- The branch of the first chain brings effects with divisors exactly when the table holds them. -/
lemma givesDivisors_execMatch {returned : Bool} (ht : t.rows = w :: rest) (hh : h.effects = [])
    (hexec : execMatch env t (standardMatch w) h = .ok (h', returned)) :
    h'.GivesDivisors ↔ t.GivesDivisors := by
  have hstart : h.GivesDivisors := by simp [Handling.GivesDivisors, hh]
  rcases execMatch_cases hexec with ⟨hb, rfl⟩ | ⟨b, hb, word, hword, rfl⟩
  · exact iff_of_true hstart (givesDivisors_of_no_match ht hb)
  · rw [givesDivisors_act_standard env word h (List.mem_of_find?_eq_some hb),
      givesDivisors_iff_of_match ht hb hword]
    exact and_iff_right hstart

/-- The effects of a message have their divisors exactly when the table holds them. -/
lemma givesDivisors_dispatch (hh : h.effects = []) (hdispatch : dispatch env t type h = .ok h') :
    h'.GivesDivisors ↔ t.GivesDivisors := by
  obtain ⟨w, rest, ht⟩ := t.exists_rows_eq_cons
  obtain ⟨h₁, returned, hfirst, hrest⟩ := dispatch_cases ht hdispatch
  have hiff := givesDivisors_execMatch ht hh hfirst
  rcases hrest with ⟨-, rfl⟩ | ⟨-, returned', hsecond⟩
  · exact hiff
  · rcases execMatch_cases hsecond with ⟨-, rfl⟩ | ⟨b, hb, word, -, rfl⟩
    · exact hiff
    · rw [givesDivisors_act_tcp env word h₁ (List.mem_of_find?_eq_some hb), hiff]

/-- **What a message sends towards the motor** has its divisors exactly when the table holds them
once it is parsed. -/
theorem givesDivisors_commandHandler {s s' : NetState} {m : List Byte} {es : List Effect} {n : ℕ}
    {id : BitVec 64}
    (hline : getCommandLine env.stack s.commandLine s.multicastId m type = .ok (n, t, id))
    (h : commandHandler env s m type = .ok (s', es)) :
    (∀ e ∈ es, e.GivesDivisors) ↔ t.GivesDivisors := by
  obtain ⟨n', t', id', h', hline', hdispatch, -, rfl⟩ := commandHandler_cases h
  obtain ⟨-, rfl, -⟩ : n = n' ∧ t = t' ∧ id = id' := by simpa using hline.symm.trans hline'
  exact givesDivisors_dispatch rfl hdispatch

end Message

/-! ## Whole runs -/

namespace MotionTasks

/-- The message, once it is parsed, carries its divisors and no type 2 for a wave. -/
def GivesDivisors (s : MotionTasks) : Label → Prop
  | .travel (.message env r m) =>
    match getCommandLine env.stack s.travel.net.commandLine s.travel.net.multicastId m.toList
      r.commandType with
    | .error _ => True
    | .ok (_, t, _) => t.GivesDivisors
  | _ => True

instance (s : MotionTasks) : (l : Label) → Decidable (s.GivesDivisors l)
  | .travel (.message env r m) =>
    match h : getCommandLine env.stack s.travel.net.commandLine s.travel.net.multicastId m.toList
      r.commandType with
    | .error _ => .isTrue (by simp [GivesDivisors, h])
    | .ok (_, t, _) => decidable_of_iff t.GivesDivisors (by simp [GivesDivisors, h])
  | .travel .act | .travel (.task _) | .receive | .poll .. | .finish => .isTrue trivial

section Runs

variable {unset : Stepper → ℤ} {s t : MotionTasks} {l : Label}

/-- A message leads to no division by zero exactly when it carries its divisors. -/
lemma givesDivisors_message_iff {env : Environment} {r : Receiver} {m : Message} {net : NetState}
    {es : List Effect}
    (h : commandHandler env s.travel.net m.toList r.commandType = .ok (net, es)) :
    s.GivesDivisors (.travel (.message env r m)) ↔ ∀ e ∈ es, e.GivesDivisors := by
  obtain ⟨n, t, id, h', hline, -⟩ := commandHandler_cases h
  rw [givesDivisors_commandHandler hline h]
  simp [GivesDivisors, hline]

/-- Everything on its way to the motor has its divisors. -/
abbrev Dividing (unset : Stepper → ℤ) (s : MotionTasks) : Prop :=
  s.Carrying unset (fun _ => Request.GivesDivisors) fun _ => StepperCommand.GivesDivisor

/-- A step with its divisors keeps them for everything on its way. -/
lemma dividing_step (hs : s.Dividing unset) (hl : s.GivesDivisors l)
    (h : s.step unset l = some t) : t.Dividing unset := by
  refine carrying_step ?_ hs ?_ h
  · intro a r hr c hc
    have htype := (Request.givesDivisors_iff_base s.travel.net.location).mp hr
    exact (Request.givesDivisor_of_mem hc).mpr htype.2
  · rintro env r m net es rfl hm
    exact (givesDivisors_message_iff hm).mp hl

/-- Requests and commands with their divisors lead to no division by zero. -/
lemma defined_of_dividing (hs : s.Dividing unset) : ∀ d ∈ s.newDivisions l, d.Defined := by
  unfold newDivisions
  split
  · intro d hd
    obtain ⟨r, hr, hd⟩ := List.mem_flatMap.mp hd
    obtain ⟨-, hr'⟩ := hs.nextRequest (Option.mem_toList.mp hr)
    exact ((Request.givesDivisors_iff_base _).mp hr').1 d hd
  · intro d hd
    obtain ⟨c, hc, hd⟩ := List.mem_flatMap.mp hd
    obtain ⟨-, hc'⟩ := hs.nextCommand (Option.mem_toList.mp hc)
    exact (StepperCommand.givesDivisor_iff _).mp hc' d hd
  · simp

end Runs

/-- **When the motion code divides by zero.** In every run whose messages carry their divisors and
no type 2 for a wave, every division has a divisor that is not zero, and the delay or the speed
derived from it is a finite number.  In every state, all divisions that the effects of a message
lead to have such a divisor exactly when the message is one of these. -/
theorem defined_of_along_givesDivisors (unset : Stepper → ℤ) :
    (∀ net ls, StepRuns.Along (step unset) GivesDivisors (boot net) ls →
      ∀ d ∈ StepRuns.outputs (step unset) newDivisions (boot net) ls,
        d.Defined ∧ ∃ q, d.value = .finite q) ∧
    ∀ (s : MotionTasks) env r m net es,
      commandHandler env s.travel.net m.toList r.commandType = .ok (net, es) →
        ∀ location value position,
          (∀ e ∈ es, ∀ d ∈ e.divisions location value position, d.Defined) ↔
            s.GivesDivisors (.travel (.message env r m)) := by
  constructor
  · intro net ls halong
    have hdefined := StepRuns.along_of_invariant (I := Dividing unset)
      (D := fun s l => ∀ d ∈ s.newDivisions l, d.Defined)
      (fun _ _ _ hs hl => dividing_step hs hl) (fun _ _ hs _ => defined_of_dividing hs)
      (carrying_boot unset _ _ net) halong
    intro d hd
    have hd' := StepRuns.forall_mem_outputs_iff.mpr hdefined d hd
    exact ⟨hd', Division.exists_value_eq_finite hd'⟩
  · intro s env r m net es h location value position
    rw [givesDivisors_message_iff h]
    refine forall₂_congr fun e _ => ?_
    exact (Effect.givesDivisors_iff location value position e).symm

/-- A wave with the speed 200 to where the device is, then a translation with the time 5. -/
def dividingRun : List Label :=
  handled "stepperWave 3 4 0 200 1 0 1 1" 1 ++ generated .wave ++ [.finish] ++
    handled "strandTranslate 10 200 1 5" 1 ++ sent

/-- The wave and the translation both divide, and neither divides by zero. -/
theorem defined_dividingRun :
    (StepRuns.outputs (step fun _ => 0) newDivisions (boot .fresh) dividingRun).length = 2 ∧
      ∀ d ∈ StepRuns.outputs (step fun _ => 0) newDivisions (boot .fresh) dividingRun,
        d.Defined ∧ ∃ q, d.value = .finite q :=
  ⟨by decide +kernel,
    (defined_of_along_givesDivisors fun _ => 0).1 .fresh dividingRun (by decide +kernel)⟩

/-- The run, on a fresh device, makes a division with the divisor zero, and what is derived from it
is not a finite number. -/
def DividesByZero (ls : List Label) : Prop :=
  (StepRuns.run (step fun _ => 0) (boot .fresh) ls).isSome = true ∧
    ∃ d ∈ StepRuns.outputs (step fun _ => 0) newDivisions (boot .fresh) ls,
      ¬ d.Defined ∧ d.value = .infinite false

instance (ls : List Label) : Decidable (DividesByZero ls) := inferInstanceAs (Decidable (_ ∧ _))

/-- A translation without a time, a wave and a sine wave with the speed 0, and a wave of type 2
divide by zero. -/
theorem dividesByZero_messages :
    DividesByZero (handled "strandTranslate 10 200 1" 1 ++ sent) ∧
    DividesByZero (handled "stepperWave 3 4 0 0 1 10 1 1" 1 ++ generated .wave) ∧
    DividesByZero (handled "stepperSineWave 3 4 0 0 10 1 1 1 1" 1 ++ generated .sineWave) ∧
    DividesByZero (handled "stepperWave 3 4 0 200 2 10 1 1" 1 ++ generated .wave) := by
  decide +kernel

end MotionTasks

end Strand
