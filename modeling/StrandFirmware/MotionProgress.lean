import StrandFirmware.MotionAccount

/-!
# Every command is executed

In every state that the `MotionSystem` comes to without notifications, whatever waits in its queues,
the generator tasks and `stepper_task` can go on by themselves until nothing waits any more and the
motor stands, and nothing more is dropped on the way (`drains_of_run`).

Each step that conveys a command takes something off the `load` of the pipeline; a command that
`stepper_task` has received is run to its end by a choice of the clock.
-/

namespace Strand

open Rounding

namespace MotionPipeline

variable {τ : Type*} {unset : τ → ℤ} {s t : MotionPipeline τ}

/-! ## Conveying -/

/-- The steps that need neither `command_handler` nor `stepper_task`. -/
def Conveys : Label τ → Prop
  | .handlerSend | .take _ | .call _ | .send _ => True
  | _ => False

variable (unset) in
/-- What is left to do for the commands of a generator. -/
def taskLoad (x : GeneratorTask τ) : ℕ :=
  4 * (x.sending ++ x.queue.items.flatMap (tagged unset)).length + 2 * x.queue.items.length +
    if x.ticks = none then 1 else 0

variable (unset) in
/-- What is left to do until every command is received. -/
def load (s : MotionPipeline τ) : ℕ :=
  3 * s.offered.toList.length + 2 * s.stepperQueue.items.length + ∑ g, taskLoad unset (s.task g)

variable (unset) in
/-- A generator with less to do. -/
lemma sum_taskLoad_update {f : Generator → GeneratorTask τ} {g : Generator} {x : GeneratorTask τ} :
    ∑ g', taskLoad unset (Function.update f g x g') + taskLoad unset (f g) =
      ∑ g', taskLoad unset (f g') + taskLoad unset x := by
  rw [← Finset.add_sum_erase _ _ (Finset.mem_univ g),
    ← Finset.add_sum_erase _ (fun g' => taskLoad unset (f g')) (Finset.mem_univ g),
    Function.update_self]
  have hsame : ∑ g' ∈ Finset.univ.erase g, taskLoad unset (Function.update f g x g') =
      ∑ g' ∈ Finset.univ.erase g, taskLoad unset (f g') :=
    Finset.sum_congr rfl fun g' hg' => by
      rw [Function.update_of_ne (Finset.ne_of_mem_erase hg')]
  rw [hsame]
  omega

/-- A generator whose state is replaced by one with less to do. -/
lemma load_lt_of_update {g : Generator} {x : GeneratorTask τ}
    (htask : t.task = Function.update s.task g x) (hoffered : t.offered = s.offered)
    (hlt : taskLoad unset x + 2 * t.stepperQueue.items.length <
      taskLoad unset (s.task g) + 2 * s.stepperQueue.items.length) :
    t.load unset < s.load unset := by
  have hsum := sum_taskLoad_update unset (f := s.task) (g := g) (x := x)
  rw [load, load, htask, hoffered]
  omega

/-- A command finds a free slot in an empty queue. -/
lemma exists_offer {q : BoundedQueue (τ × StepperCommand) STEPPER_QUEUE_LENGTH}
    (hempty : q.items = []) (x : τ × StepperCommand) (ticks : ℕ) :
    ¬ q.Full ∧ ∃ q', offer q x ticks = some q' ∧ q'.items = [x] := by
  have hfree : ¬ q.Full := by simp [BoundedQueue.Full, hempty]
  refine ⟨hfree, ⟨[x], by simp⟩, offer_eq_some_iff.mpr (.inl ⟨hfree, by simp [hempty]⟩), rfl⟩

/-- Something waits while the queue of `stepper_task` is empty: it can be conveyed. -/
lemma exists_conveyed (hempty : s.stepperQueue.items = []) (hwaiting : s.waiting unset ≠ 0) :
    ∃ l t, Conveys l ∧ s.step unset l = some t ∧ t.load unset < s.load unset ∧
      s.lostBy unset l = [] := by
  cases hhandler : s.handler with
  | some y =>
    obtain ⟨x, ticks⟩ := y
    obtain ⟨hfree, q, hoffer, hitems⟩ := exists_offer hempty x ticks
    refine ⟨.handlerSend, { s with stepperQueue := q, handler := none }, trivial, ?_, ?_,
      if_neg hfree⟩
    · simp [step, hhandler, hoffer]
    · simp [load, offered, hhandler, hitems, hempty]
  | none =>
    obtain ⟨g, hg⟩ : ∃ g, s.toSend unset g ≠ [] := by
      by_contra hnone
      simp only [ne_eq, not_exists, not_not] at hnone
      exact hwaiting (by simp [waiting, hempty, hnone, offered, hhandler])
    cases hsending : (s.task g).sending with
    | nil =>
      -- the next request of the generator
      have hqueue : (s.task g).queue.items ≠ [] := by
        intro h
        exact hg (by simp [toSend, hsending, h])
      obtain ⟨⟨y, q⟩, hreceive⟩ := Option.ne_none_iff_exists'.mp
        (mt BoundedQueue.receive_eq_none_iff.mp hqueue)
      have hitems := BoundedQueue.receive_eq_some_iff.mp hreceive
      refine ⟨.take g, _, trivial, (if_pos hsending).trans (by rw [hreceive]; rfl), ?_, rfl⟩
      refine load_lt_of_update (g := g) rfl rfl ?_
      simp only [taskLoad, hsending, hitems, List.nil_append, List.flatMap_cons,
        List.length_append, List.length_cons, if_true]
      omega
    | cons x xs =>
      cases hticks : (s.task g).ticks with
      | none =>
        refine ⟨.call g, _, trivial, if_pos ⟨by simp [hsending], hticks⟩, ?_, rfl⟩
        refine load_lt_of_update (g := g) rfl rfl ?_
        simp [taskLoad, hticks]
      | some ticks =>
        obtain ⟨hfree, q, hoffer, hitems⟩ := exists_offer hempty x ticks
        refine ⟨.send g, { s with
          stepperQueue := q
          task := Function.update s.task g { s.task g with sending := xs, ticks := none } },
          trivial, by simp [step, hsending, hticks, hoffer], ?_, if_neg hfree⟩
        refine load_lt_of_update (g := g) rfl rfl ?_
        simp only [taskLoad, hsending, hticks, hitems, hempty, List.cons_append, List.length_cons,
          List.length_nil, if_true, reduceCtorEq, if_false]
        omega

end MotionPipeline

/-! ## Settings that the motor can keep -/

/-- A whole number of at most 24 bits is a `float`. -/
lemma single_intCast {v : ℤ} (h : |v| < 2 ^ 24) : single v = v :=
  roundTo_of_representable ⟨v, 0, h, by simp⟩

namespace MotionSystem

/-- A relative or absolute move at a speed and an acceleration that the motor library takes as they
are; it is short, or the speed is reached on a short ramp. -/
def Drivable (c : StepperCommand) : Prop :=
  (c.type = 0 ∨ c.type = 1) ∧ (1 ≤ c.speed ∧ c.speed ≤ 10 ^ 6) ∧
    (1 ≤ c.accel ∧ c.accel < 2 ^ 24) ∧ (ShortMove c ∨ c.speed ^ 2 ≤ 2000 * c.accel)

instance : DecidablePred Drivable := fun _ => inferInstanceAs (Decidable (_ ∧ _))

/-- A drivable command sets its own speed and acceleration on a motor that stands. -/
lemma exists_tune {platform : FloatValue → ℤ} {position : ℤ} {m : SpeedProfile} {c : StepperCommand}
    (hm : m.Standing) (hc : Drivable c) :
    ∃ m', m.tune platform position c = some m' ∧ m'.Standing ∧ m'.maxSpeed = c.speed ∧
      m'.acceleration = c.accel := by
  obtain ⟨htype, ⟨hspeed, hspeed'⟩, ⟨haccel, haccel'⟩, -⟩ := hc
  have htwo : c.type ≠ 2 := by omega
  have hset : speedSetting platform position c = c.speed := if_neg htwo
  have hsingle : single c.speed = c.speed := single_intCast (by rw [abs_of_pos] <;> omega)
  have hsingle' : single c.accel = c.accel := single_intCast (by rw [abs_of_pos] <;> omega)
  have hpos : (0 : ℚ) < c.speed := by exact_mod_cast (by omega : 0 < c.speed)
  have hpos' : (0 : ℚ) < c.accel := by exact_mod_cast (by omega : 0 < c.accel)
  have hne : single (speedSetting platform position c) ≠ 0 := by
    rw [hset, hsingle]
    exact hpos.ne'
  obtain ⟨hstanding, hmaxSpeed, -, -⟩ := hm.setMaxSpeed ⟨_, hne⟩
  obtain ⟨hstanding', hacceleration, hmaxSpeed', -⟩ := hstanding.setAcceleration (single c.accel)
  refine ⟨_, ?_, hstanding', ?_, ?_⟩
  · rw [SpeedProfile.tune, if_pos (by unfold StepperCommand.Typed; omega), dif_pos hne, if_neg htwo]
  · rw [hmaxSpeed', hmaxSpeed]
    simp only [hset, hsingle]
    exact abs_of_pos hpos
  · rw [hacceleration, hsingle', if_neg hpos'.ne', abs_of_pos hpos']

/-- With these settings the move is reached, in times that the clock can measure. -/
lemma reaches_of_drivable {s : Stepping} {m : SpeedProfile} {c : StepperCommand} (hc : Drivable c)
    (hmaxSpeed : m.maxSpeed = c.speed) (hacceleration : m.acceleration = c.accel) :
    m.Reaches (s.beginCommand c).stepperMove ∧ m.Timed := by
  obtain ⟨-, ⟨hspeed, hspeed'⟩, ⟨haccel, haccel'⟩, hreach⟩ := hc
  constructor
  · rcases hreach with ⟨htype, hmove⟩ | hslow
    · exact .inl (by simpa [Stepping.beginCommand_eq, htype] using hmove)
    · refine .inr ?_
      rw [hmaxSpeed, hacceleration]
      exact_mod_cast hslow
  · constructor
    · rw [hmaxSpeed]
      exact_mod_cast hspeed
    · rw [hmaxSpeed]
      exact_mod_cast hspeed'
    · rw [hacceleration]
      exact_mod_cast haccel
    · rw [hacceleration]
      exact_mod_cast (by omega : c.accel ≤ 2 ^ 31)

/-! ## States that can go on -/

variable {τ : Type*} {platform : FloatValue → ℤ} {unset : τ → ℤ} {s t : MotionSystem τ}
  {record : Stepper} {nvs : String → ℤ}

variable (unset) in
/-- All that waits is drivable, and a motor on its way has settings that the clock can measure. -/
structure Ready (s : MotionSystem τ) : Prop where
  drivable : s.pipeline.All unset fun x => Drivable x.2
  quiet : s.task.Quiet
  timed : ∀ c, s.task.stage = .running c → s.task.profile.Timed

/-- The start can go on. -/
lemma ready_boot : (boot record nvs : MotionSystem τ).Ready unset where
  drivable := MotionPipeline.all_boot unset _
  quiet := ProfileTask.quiet_boot record nvs
  timed c h := by simp [boot, ProfileTask.boot] at h

/-- A call of `run()` keeps the settings. -/
lemma settings_run (m : SpeedProfile) (time : BitVec 32) : (m.run time).settings = m.settings := by
  unfold SpeedProfile.run
  split
  · exact SpeedProfile.settings_computeNewSpeed _
  · rfl

/-- A step of `stepper_task` that receives no command keeps the settings. -/
lemma timed_of_step {u v : ProfileTask} {l : ProfileTask.Label} (hu : u.Quiet)
    (htimed : ∀ c, u.stage = .running c → u.profile.Timed) (hne : ∀ c, l ≠ .receive c)
    (h : u.step platform l = some v) : ∀ c, v.stage = .running c → v.profile.Timed := by
  -- a quiet task does not home
  have hhome : ∀ c n, u.stage ≠ .homing c n ∧ u.stage ≠ .saving c n := by
    intro c n
    rcases hu.phase with ⟨hphase, -⟩ | ⟨⟨c', hphase⟩, -⟩ <;> rw [hphase] <;> simp
  cases l with
  | receive c => exact absurd rfl (hne c)
  | isr | stop =>
    obtain rfl := Option.some.inj h
    exact htimed
  | poll notify time =>
    obtain ⟨c, hstage, -, hnotify, rfl⟩ := ProfileTask.step_poll h
    rw [hu.pending_eq] at hnotify
    obtain rfl : notify = none := hnotify
    exact fun _ _ => (htimed c hstage).of_settings (settings_run _ _)
  | homingRun time =>
    obtain ⟨⟨c, n, hstage⟩, -⟩ := ProfileTask.step_homingRun h
    exact absurd hstage (hhome c n).1
  | homed =>
    obtain ⟨c, n, hstage, -⟩ := ProfileTask.step_homed h
    exact absurd hstage (hhome c n).1
  | proceed a =>
    obtain ⟨record, -, rfl⟩ := Option.map_eq_some_iff.mp h
    exact htimed
  | saved time =>
    obtain ⟨c, n, hstage, -⟩ := ProfileTask.step_saved h
    exact absurd hstage (hhome c n).2
  | finish =>
    obtain ⟨c, -, -, rfl⟩ := ProfileTask.step_finish h
    exact fun c h => by simp at h
  | parameter type value =>
    obtain ⟨-, rfl⟩ := StepRuns.of_guarded h
    exact htimed

/-- **One step** from a state that can go on. -/
theorem ready_step {l : Label τ} (hs : s.Ready unset) (hl : Undisturbed unset Drivable l)
    (h : s.step platform unset l = some t) : t.Ready unset := by
  cases l with
  | convey l =>
    obtain ⟨-, p, hp, rfl⟩ := step_convey h
    exact ⟨hs.drivable.of_effected (brings_of_askedBy hl) (MotionPipeline.effected_of_step hp),
      hs.quiet, hs.timed⟩
  | receive =>
    obtain ⟨x, p, task, hp, hdequeued, htask, rfl⟩ := step_receive h
    obtain ⟨hall, hx⟩ := all_dequeue hs.drivable hp hdequeued
    obtain ⟨hstage, m, htune, hreceived⟩ := ProfileTask.step_receive htask
    obtain ⟨-, hstanding⟩ | ⟨⟨c, hrunning⟩, -⟩ := hs.quiet.phase
    · obtain ⟨m', htune', hstanding', hmaxSpeed, hacceleration⟩ :=
        exists_tune hstanding hx
      obtain rfl : m' = m := Option.some.inj (htune'.symm.trans htune)
      obtain ⟨hreaches, htimed⟩ := reaches_of_drivable (s := s.task.stepping) hx hmaxSpeed
        hacceleration
      have hquietly : s.task.QuietlyReaches platform (.receive x.2) := by
        intro m'' htune''
        obtain rfl := Option.some.inj (htune'.symm.trans htune'')
        exact hreaches
      refine ⟨hall, (ProfileTask.quiet_step hs.quiet hquietly htask).1, fun _ _ => ?_⟩
      rw [hreceived]
      exact htimed.of_settings (hstanding'.move hreaches).2.1
    · rw [hstage] at hrunning
      cases hrunning
  | operate l =>
    obtain ⟨hne, task, htask, rfl⟩ := step_operate h
    exact ⟨hs.drivable,
      (ProfileTask.quiet_step hs.quiet (quietlyReaches_of_operate hl hne) htask).1,
      timed_of_step hs.quiet hs.timed hne htask⟩

/-- **Runs** from a state that can go on. -/
lemma ready_of_run {ls : List (Label τ)} (hs : s.Ready unset)
    (hls : ∀ l ∈ ls, Undisturbed unset Drivable l)
    (hrun : StepRuns.run (step platform unset) s ls = some t) : t.Ready unset := by
  have hsteps : ∀ (s : MotionSystem τ) l t, s.Ready unset → Undisturbed unset Drivable l →
      s.step platform unset l = some t → t.Ready unset := fun _ _ _ hs hl h => ready_step hs hl h
  exact StepRuns.invariant_of_run_along hsteps hs (StepRuns.along_of_forall hls) hrun

/-! ## Going on -/

/-- The steps that the tasks make by themselves. -/
def Internal : Label τ → Prop
  | .convey l => MotionPipeline.Conveys l
  | .receive => True
  | .operate (.poll _ _) | .operate .finish => True
  | _ => False

/-- They ask for nothing. -/
lemma undisturbed_of_internal {Q : StepperCommand → Prop} {l : Label τ} (hl : Internal l) :
    Undisturbed unset Q l := by
  cases l with
  | convey l =>
    cases l with
    | request _ _ | move _ _ | tick | dequeue => exact absurd hl id
    | handlerSend | take _ | call _ | send _ => exact fun x hx => absurd hx (by
        simp [MotionPipeline.askedBy])
  | receive => trivial
  | operate l =>
    cases l with
    | poll _ _ | finish => exact ⟨by simp, by simp⟩
    | _ => exact absurd hl id

/-- A call of `run()` without a notification. -/
lemma exists_poll {u : ProfileTask} {c : StepperCommand} (hstage : u.stage = .running c)
    (hpending : u.pending = .empty) (hgo : u.profile.distanceToGo ≠ 0) (time : BitVec 32) :
    ∃ v, u.step platform (.poll none time) = some v ∧ v.profile = u.profile.run time ∧
      v.stage = .running c ∧ v.pending = .empty := by
  have htake : u.pending.take = none := by
    rw [hpending]
    rfl
  simp only [ProfileTask.step, hstage]
  rw [if_neg (not_or.mpr ⟨hgo, not_not.mpr htake.symm⟩), if_neg (by simp)]
  exact ⟨_, rfl, rfl, rfl, rfl⟩

/-- The loop of the motor library is made by `stepper_task`. -/
lemma exists_polled {times : List (BitVec 32)} {m m' : SpeedProfile} {c : StepperCommand}
    (hrun : StepRuns.run SpeedProfile.poll m times = some m') (hprofile : s.task.profile = m)
    (hstage : s.task.stage = .running c) (hpending : s.task.pending = .empty) :
    ∃ task, StepRuns.run (step platform unset) s
        (times.map fun time => .operate (.poll none time)) = some { s with task } ∧
      task.profile = m' ∧ task.stage = .running c := by
  induction times generalizing s m with
  | nil =>
    obtain rfl : m = m' := by simpa using hrun
    exact ⟨s.task, rfl, hprofile, hstage⟩
  | cons time times ih =>
    obtain ⟨m₁, hstep, hrest⟩ := StepRuns.run_cons_eq_some_iff.mp hrun
    obtain ⟨hgo, rfl⟩ := SpeedProfile.poll_eq_some_iff.mp hstep
    have hgo' : s.task.profile.distanceToGo ≠ 0 := by
      rw [hprofile]
      exact fun h => hgo (Int.natAbs_eq_zero.mpr h)
    obtain ⟨u, hu, huprofile, hustage, hupending⟩ :=
      exists_poll hstage hpending hgo' time
    obtain ⟨task, htask, hend⟩ := ih (s := { s with task := u }) hrest
      (huprofile.trans (by rw [hprofile])) hustage hupending
    refine ⟨task, StepRuns.run_cons_eq_some_iff.mpr ⟨{ s with task := u }, ?_, htask⟩, hend⟩
    exact Option.map_eq_some_iff.mpr ⟨u, hu, rfl⟩

/-- A command that was received is run to its end. -/
lemma exists_finished {c : StepperCommand} (hs : s.Ready unset)
    (hstage : s.task.stage = .running c) :
    ∃ (ls : List (Label τ)) (task : ProfileTask), (∀ l ∈ ls, Internal l) ∧
      StepRuns.run (step platform unset) s ls = some { s with task } ∧ task.stage = .waiting := by
  obtain ⟨hwaiting, -⟩ | ⟨-, hcourse⟩ := hs.quiet.phase
  · rw [hstage] at hwaiting
    cases hwaiting
  obtain ⟨times, m, -, hrun, hstanding⟩ := hcourse.exists_run (by norm_num) (hs.timed c hstage)
  obtain ⟨u, hu, huprofile, hustage⟩ :=
    exists_polled hrun rfl hstage hs.quiet.pending_eq
  have hgo : u.profile.distanceToGo = 0 := by
    rw [huprofile]
    exact hstanding.distanceToGo_eq
  obtain ⟨v, hv, hvstage⟩ : ∃ v, u.step platform .finish = some v ∧ v.stage = .waiting := by
    simp only [ProfileTask.step, hustage, if_pos hgo]
    exact ⟨_, rfl, rfl⟩
  refine ⟨times.map (fun time => .operate (.poll none time)) ++ [.operate .finish], v, ?_, ?_,
    hvstage⟩
  · intro l hl
    rcases List.mem_append.mp hl with hl | hl
    · obtain ⟨time, -, rfl⟩ := List.mem_map.mp hl
      trivial
    · obtain rfl := List.mem_singleton.mp hl
      trivial
  · refine StepRuns.run_append_eq_some_iff.mpr
      ⟨_, hu, StepRuns.run_cons_eq_some_iff.mpr ⟨_, ?_, rfl⟩⟩
    exact Option.map_eq_some_iff.mpr ⟨v, hv, rfl⟩

variable (unset) in
/-- Nothing waits, and `stepper_task` waits for a command. -/
def Drained (s : MotionSystem τ) : Prop :=
  s.pipeline.waiting unset = 0 ∧ s.task.stage = .waiting

variable (unset) in
/-- What is left to do until the system is drained. -/
def load (s : MotionSystem τ) : ℕ :=
  s.pipeline.load unset + if s.task.stage = .waiting then 0 else 1

/-- The oldest command is received by a task that waits. -/
lemma exists_received (hs : s.Ready unset) (hstage : s.task.stage = .waiting)
    (hitems : s.pipeline.stepperQueue.items ≠ []) :
    ∃ p task, s.step platform unset .receive = some { s with pipeline := p, task } ∧
      p.load unset + 2 = s.pipeline.load unset := by
  obtain ⟨⟨x, q⟩, hreceive⟩ := Option.ne_none_iff_exists'.mp
    (mt BoundedQueue.receive_eq_none_iff.mp hitems)
  have hqueue := BoundedQueue.receive_eq_some_iff.mp hreceive
  have hdrivable : Drivable x.2 := by
    refine hs.drivable.put x (List.mem_append_right _ ?_)
    rw [hqueue]
    exact List.mem_cons_self
  obtain ⟨-, hstanding⟩ | ⟨⟨c, hrunning⟩, -⟩ := hs.quiet.phase
  · obtain ⟨task, htask⟩ : ∃ task, s.task.step platform (.receive x.2) = some task := by
      obtain ⟨m, htune, -⟩ := exists_tune hstanding hdrivable
      simp only [ProfileTask.step, if_pos hstage]
      exact ⟨_, Option.map_eq_some_iff.mpr ⟨m, htune, rfl⟩⟩
    refine ⟨{ s.pipeline with
      stepperQueue := q
      dequeued := s.pipeline.dequeued ++ [x] }, task, ?_, ?_⟩
    · rw [step, hqueue, List.head?_cons, Option.bind_some, MotionPipeline.step, hreceive]
      simp only [Option.map_some, Option.bind_some, htask]
    · simp only [MotionPipeline.load, MotionPipeline.offered, hqueue, List.length_cons]
      omega
  · rw [hstage] at hrunning
    cases hrunning

/-- A command that is conveyed and not dropped. -/
lemma step_of_conveys {l : MotionPipeline.Label τ} {p : MotionPipeline τ}
    (hl : MotionPipeline.Conveys l) (h : s.pipeline.step unset l = some p)
    (hlost : s.pipeline.lostBy unset l = []) :
    s.step platform unset (.convey l) = some { s with pipeline := p } := by
  cases l with
  | request _ _ | move _ _ | tick | dequeue => exact absurd hl id
  | handlerSend | take _ | call _ | send _ =>
    simp only [step, h, hlost, MotionPipeline.askedBy, Option.map_some, Multiset.coe_nil, add_zero]

/-- **Something is left to do, and can be done.** -/
lemma exists_progress (hs : s.Ready unset) (hnot : ¬ s.Drained unset) :
    ∃ ls t, (∀ l ∈ ls, Internal l) ∧ StepRuns.run (step platform unset) s ls = some t ∧
      t.load unset < s.load unset ∧ t.asked = s.asked ∧ t.lost = s.lost := by
  obtain ⟨hwaiting, -⟩ | ⟨⟨c, hrunning⟩, -⟩ := hs.quiet.phase
  · by_cases hitems : s.pipeline.stepperQueue.items = []
    · obtain ⟨l, p, hl, hstep, hload, hlost⟩ :=
        MotionPipeline.exists_conveyed hitems fun h => hnot ⟨h, hwaiting⟩
      refine ⟨[.convey l], { s with pipeline := p }, List.forall_mem_singleton.mpr hl, ?_,
        Nat.add_lt_add_right hload _, rfl, rfl⟩
      exact StepRuns.run_cons_eq_some_iff.mpr ⟨_, step_of_conveys hl hstep hlost, rfl⟩
    · obtain ⟨p, task, hstep, hload⟩ := exists_received hs hwaiting hitems
      refine ⟨[.receive], _, by simp [Internal],
        StepRuns.run_cons_eq_some_iff.mpr ⟨_, hstep, rfl⟩, ?_, rfl, rfl⟩
      rw [load, load, if_pos hwaiting]
      dsimp only
      split <;> omega
  · obtain ⟨ls, task, hls, hrun, hstage⟩ := exists_finished hs hrunning
    refine ⟨ls, _, hls, hrun, ?_, rfl, rfl⟩
    rw [load, load, if_pos hstage, hrunning, if_neg (by simp)]
    exact Nat.lt_succ_self _

/-- A state that can go on does so until nothing is left to do. -/
lemma Ready.exists_drained (ht : t.Ready unset) :
    ∃ ls u, (∀ l ∈ ls, Internal l) ∧ StepRuns.run (step platform unset) t ls = some u ∧
      u.Drained unset ∧ u.task.profile.Standing ∧ u.asked = t.asked ∧ u.lost = t.lost := by
  have hprogress : ∀ s : MotionSystem τ, s.Ready unset ∧ s.asked = t.asked ∧ s.lost = t.lost →
      ¬ s.Drained unset → ∃ ls u, (∀ l ∈ ls, Internal l) ∧
        StepRuns.run (step platform unset) s ls = some u ∧
        (u.Ready unset ∧ u.asked = t.asked ∧ u.lost = t.lost) ∧ u.load unset < s.load unset := by
    rintro s ⟨hs, hasked, hlost⟩ hnot
    obtain ⟨ls, u, hls, hrun, hload, hasked', hlost'⟩ := exists_progress hs hnot
    have hu := ready_of_run hs (fun l hl => undisturbed_of_internal (hls l hl)) hrun
    exact ⟨ls, u, hls, hrun, ⟨hu, hasked'.trans hasked, hlost'.trans hlost⟩, hload⟩
  obtain ⟨ls, u, hls, hrun, ⟨hu, hasked, hlost⟩, hdrained⟩ :=
    StepRuns.exists_run_of_progress _ hprogress ⟨ht, rfl, rfl⟩
  exact ⟨ls, u, hls, hrun, hdrained, standing_of_waiting hu.quiet hdrained.2, hasked, hlost⟩

/-- **Every command is executed.**  From every state that a run without notifications, over drivable
commands, comes to, the tasks can go on by themselves, dropping nothing, until nothing waits and the
motor stands. -/
theorem drains_of_run {ls : List (Label τ)} (hls : ∀ l ∈ ls, Undisturbed unset Drivable l)
    (hrun : StepRuns.run (step platform unset) (boot record nvs) ls = some t) :
    ∃ ls' u, (∀ l ∈ ls', Internal l) ∧ StepRuns.run (step platform unset) t ls' = some u ∧
      u.Drained unset ∧ u.task.profile.Standing ∧ u.asked = t.asked ∧ u.lost = t.lost :=
  (ready_of_run ready_boot hls hrun).exists_drained

/-- The two moves are executed. -/
theorem drains_of_run_two : ∃ t : MotionSystem Unit,
    StepRuns.run (step (fun _ => 0) fun _ => 0) (boot ⟨50, 0, 2000, 0, 0⟩ fun _ => 0) twoMoves =
        some t ∧
      ∃ ls u, (∀ l ∈ ls, Internal l) ∧
        StepRuns.run (step (fun _ => 0) fun _ => 0) t ls = some u ∧
        u.Drained (fun _ => 0) ∧ u.task.profile.Standing ∧ u.asked = t.asked ∧
        u.lost = t.lost := by
  have hls : ∀ l ∈ twoMoves, Undisturbed (fun _ => 0) Drivable l := by decide
  have heval : ((StepRuns.run (step (fun _ => 0) fun _ => 0) (boot ⟨50, 0, 2000, 0, 0⟩ fun _ => 0)
      twoMoves).any fun t => t.task.made = 1) = true := by
    decide +kernel
  obtain ⟨t, hrun, -⟩ := StepRuns.exists_run_of_any heval
  exact ⟨t, hrun, drains_of_run hls hrun⟩

end MotionSystem

end Strand
