import StrandFirmware.MotionPipeline
import StrandFirmware.ProfileTask

/-!
# Every step that was asked for

`MotionSystem` is the way of a motion command from `command_handler` through the queues and the
generator tasks to the motor.  It keeps two lists that the code does not have: the commands that
were asked for, and those that were dropped on the way.

Without notifications and for relative moves nothing else is lost and nothing is made up: the steps
asked for are those that the motor has made, those that it has still to go, those of the commands
that wait somewhere, and those of the commands that were dropped (`account_of_run`).  This holds in
every state of every run, for the steps counted with their directions as well as without.
-/

namespace Strand

namespace MotionPipeline

variable {τ : Type*} {unset : τ → ℤ} {s t : MotionPipeline τ} {l : Label τ}

/-! ## What comes in and what is lost -/

variable (unset) in
/-- The commands that a step asks for. -/
def askedBy : Label τ → List (τ × StepperCommand)
  | .request a r => tagged unset (a, r)
  | .move a c => [(a, c)]
  | _ => []

variable (unset) in
/-- The commands that a step drops, if it is made: those of a request to a full queue, and the one
of a call of `command_move` that returns while the queue of `stepper_task` is full. -/
def lostBy (s : MotionPipeline τ) : Label τ → List (τ × StepperCommand)
  | .request a r => if (s.task r.generator).queue.Full then tagged unset (a, r) else []
  | .handlerSend => if s.stepperQueue.Full then s.offered.toList else []
  | .send g => if s.stepperQueue.Full then (s.toSend unset g).take 1 else []
  | _ => []

variable (unset) in
/-- The commands that wait somewhere on the way to `stepper_task`. -/
def waiting (s : MotionPipeline τ) : Multiset (τ × StepperCommand) :=
  (s.stepperQueue.items : Multiset (τ × StepperCommand)) +
    (∑ g, (s.toSend unset g : Multiset (τ × StepperCommand)) + s.offered.toList)

/-- Only `stepper_task` receives commands, and only `command_handler` changes the call that it
makes. -/
lemma kept_of_step (h : s.step unset l = some t) :
    (l ≠ .dequeue → t.dequeued = s.dequeued) ∧
      (l ≠ .handlerSend → (∀ a c, l ≠ .move a c) → t.offered = s.offered) := by
  cases l with
  | request a r | call g =>
    obtain ⟨-, rfl⟩ := StepRuns.of_guarded h
    exact ⟨fun _ => rfl, fun _ _ => rfl⟩
  | move a c =>
    obtain ⟨-, rfl⟩ := StepRuns.of_guarded h
    exact ⟨fun _ => rfl, fun _ hmove => absurd rfl (hmove a c)⟩
  | handlerSend =>
    unfold step at h
    cases hhandler : s.handler with
    | none => simp [hhandler] at h
    | some y =>
      simp only [hhandler] at h
      obtain ⟨q, -, rfl⟩ := Option.map_eq_some_iff.mp h
      exact ⟨fun _ => rfl, fun hsend => absurd rfl hsend⟩
  | take g =>
    obtain ⟨-, ht⟩ := Option.ite_none_right_eq_some.mp h
    obtain ⟨x, -, rfl⟩ := Option.map_eq_some_iff.mp ht
    exact ⟨fun _ => rfl, fun _ _ => rfl⟩
  | send g =>
    unfold step at h
    cases hsending : (s.task g).sending with
    | nil => simp [hsending] at h
    | cons x xs =>
      cases hticks : (s.task g).ticks with
      | none => simp [hsending, hticks] at h
      | some ticks =>
        simp only [hsending, hticks] at h
        obtain ⟨q, -, rfl⟩ := Option.map_eq_some_iff.mp h
        exact ⟨fun _ => rfl, fun _ _ => rfl⟩
  | tick =>
    obtain rfl := Option.some.inj h
    exact ⟨fun _ => rfl, fun _ _ => by simp [offered, Option.map_map, Function.comp_def]⟩
  | dequeue =>
    obtain ⟨x, -, rfl⟩ := Option.map_eq_some_iff.mp h
    exact ⟨fun hl => absurd rfl hl, fun _ _ => rfl⟩

/-- The call of `command_move` by `command_handler` returns. -/
lemma put_of_handlerSend (h : s.step unset .handlerSend = some t) :
    ∃ x, s.offered = some x ∧ t.offered = none ∧ (∀ g, t.toSend unset g = s.toSend unset g) ∧
      t.put = if s.stepperQueue.Full then s.put else s.put ++ [x] := by
  unfold step at h
  cases hhandler : s.handler with
  | none => simp [hhandler] at h
  | some y =>
    simp only [hhandler] at h
    obtain ⟨q, hq, rfl⟩ := Option.map_eq_some_iff.mp h
    refine ⟨y.1, by simp [offered, hhandler], rfl, fun _ => rfl, ?_⟩
    rcases offer_eq_some_iff.mp hq with ⟨hfree, hitems⟩ | ⟨hfull, -, rfl⟩
    · rw [if_neg hfree, put, put, hitems, List.append_assoc]
    · rw [if_pos hfull]
      rfl

/-- One generator has other commands to send than before. -/
lemma sum_toSend {g : Generator} (h : ∀ g' ≠ g, t.toSend unset g' = s.toSend unset g') :
    ∃ rest : Multiset (τ × StepperCommand),
      ∑ g', (t.toSend unset g' : Multiset (τ × StepperCommand)) = t.toSend unset g + rest ∧
        ∑ g', (s.toSend unset g' : Multiset (τ × StepperCommand)) = s.toSend unset g + rest := by
  refine ⟨∑ g' ∈ Finset.univ.erase g, (s.toSend unset g' : Multiset (τ × StepperCommand)), ?_,
    (Finset.add_sum_erase _ _ (Finset.mem_univ g)).symm⟩
  rw [← Finset.add_sum_erase _ _ (Finset.mem_univ g)]
  congr 1
  exact Finset.sum_congr rfl fun g' hg' => by rw [h g' (Finset.ne_of_mem_erase hg')]

variable (unset) in
/-- The commands that were put on the queue of `stepper_task` or are on their way to it. -/
def content (s : MotionPipeline τ) : Multiset (τ × StepperCommand) :=
  (s.put : Multiset (τ × StepperCommand)) +
    (∑ g, (s.toSend unset g : Multiset (τ × StepperCommand)) + s.offered.toList)

variable (unset) in
/-- A step that asks for nothing and drops nothing. -/
lemma askedBy_eq_nil (hrequest : ∀ a r, l ≠ .request a r) (hmove : ∀ a c, l ≠ .move a c)
    (hsend : l ≠ .handlerSend) (hadm : s.Admitted l) :
    askedBy unset l = [] ∧ s.lostBy unset l = [] := by
  cases l with
  | request a r => exact absurd rfl (hrequest a r)
  | move a c => exact absurd rfl (hmove a c)
  | handlerSend => exact absurd rfl hsend
  | send g => exact ⟨rfl, if_neg hadm⟩
  | take g | call g | tick | dequeue => exact ⟨rfl, rfl⟩

/-- **One step of the pipeline** gains what it is asked for and loses what it drops. -/
theorem content_of_step (h : s.step unset l = some t) :
    t.content unset + s.lostBy unset l = s.content unset + askedBy unset l := by
  obtain ⟨-, hkept⟩ := kept_of_step h
  by_cases hhandler : l = .handlerSend
  · subst hhandler
    obtain ⟨x, hoffered, hoffer, hsend, hput⟩ := put_of_handlerSend h
    simp only [content, hput, hsend, hoffered, hoffer, lostBy, askedBy]
    split
    · simp only [Option.toList_none, Option.toList_some, Multiset.coe_nil]
      abel
    · simp only [← Multiset.coe_add, Option.toList_none, Option.toList_some, Multiset.coe_nil]
      abel
  by_cases hmove : ∃ a c, l = .move a c
  · obtain ⟨a, c, rfl⟩ := hmove
    obtain ⟨hidle, rfl⟩ := StepRuns.of_guarded h
    simp only [content, put, toSend, offered, hidle, lostBy, askedBy, Option.map_none,
      Option.map_some, Option.toList_none, Option.toList_some, Multiset.coe_nil]
    abel
  have hmove' : ∀ a c, l ≠ .move a c := fun a c hl => hmove ⟨a, c, hl⟩
  have hoffer := hkept hhandler hmove'
  cases effected_of_step h with
  | quiet hne hadm hput hsend =>
    obtain ⟨hasked, hlost⟩ := askedBy_eq_nil unset hne hmove' hhandler hadm
    simp only [content, hput, hsend, hoffer, hasked, hlost]
  | moved a c => exact absurd rfl (hmove' a c)
  | handled => exact absurd rfl hhandler
  | sent g x hadm hhead hsend hput =>
    obtain ⟨rest, ht, hs⟩ := sum_toSend hsend
    have hlost : s.lostBy unset (.send g) = [] := if_neg hadm
    have hasked : askedBy unset (.send g) = [] := rfl
    rw [content, content, ht, hs, hput, hoffer, hhead, hlost, hasked, ← Multiset.cons_coe,
      ← Multiset.singleton_add, ← Multiset.coe_add, Multiset.coe_singleton]
    abel
  | dropped g x hadm hhead hsend hput =>
    obtain ⟨rest, ht, hs⟩ := sum_toSend hsend
    have hlost : s.lostBy unset (.send g) = [x] := by
      rw [lostBy, if_pos (not_not.mp hadm), hhead, List.take_succ_cons, List.take_zero]
    have hasked : askedBy unset (.send g) = [] := rfl
    rw [content, content, ht, hs, hput, hoffer, hhead, hlost, hasked, Multiset.coe_singleton,
      ← Multiset.cons_coe, ← Multiset.singleton_add, Multiset.coe_nil]
    abel
  | requested a r hadm hself hsend hput =>
    obtain ⟨rest, ht, hs⟩ := sum_toSend hsend
    rw [content, content, ht, hs, hput, hoffer, hself, lostBy, if_neg hadm, askedBy,
      ← Multiset.coe_add, Multiset.coe_nil]
    abel
  | refused a r hadm hsend hput =>
    have hfull : (s.task r.generator).queue.Full := not_not.mp hadm
    simp only [content, hput, hsend, hoffer, lostBy, if_pos hfull, askedBy]

end MotionPipeline

/-! ## From the command handler to the motor -/

/-- The queues and generator tasks before `stepper_task`, and `stepper_task` with its motor. -/
structure MotionSystem (τ : Type*) where
  pipeline : MotionPipeline τ
  task : ProfileTask
  /-- The commands that were asked for since the start. -/
  asked : Multiset (τ × StepperCommand)
  /-- The commands that were dropped on their way. -/
  lost : Multiset (τ × StepperCommand)

namespace MotionSystem

open Rounding

variable {τ : Type*}

/-- One step of one of the tasks. -/
inductive Label (τ : Type*) where
  /-- A step on the way to `stepper_task`. -/
  | convey (l : MotionPipeline.Label τ)
  /-- `stepper_task` receives the next command and runs up to its loop. -/
  | receive
  /-- Another step of `stepper_task`, or of what it shares its notifications and its record with. -/
  | operate (l : ProfileTask.Label)

/-- The state right after `init_strand`. -/
def boot (record : Stepper) (nvs : String → ℤ) : MotionSystem τ where
  pipeline := .boot
  task := .boot record nvs
  asked := 0
  lost := 0

/-- One step.  Commands leave the pipeline only when `stepper_task` receives them. -/
def step (platform : FloatValue → ℤ) (unset : τ → ℤ) (s : MotionSystem τ) :
    Label τ → Option (MotionSystem τ)
  | .convey .dequeue | .operate (.receive _) => none
  | .convey l =>
    (s.pipeline.step unset l).map fun pipeline =>
      { s with
        pipeline
        asked := s.asked + MotionPipeline.askedBy unset l
        lost := s.lost + s.pipeline.lostBy unset l }
  | .receive =>
    s.pipeline.stepperQueue.items.head?.bind fun x =>
      (s.pipeline.step unset .dequeue).bind fun pipeline =>
        (s.task.step platform (.receive x.2)).map fun task => { s with pipeline, task }
  | .operate l => (s.task.step platform l).map fun task => { s with task }

variable {platform : FloatValue → ℤ} {unset : τ → ℤ} {s t : MotionSystem τ}

/-- A step on the way to `stepper_task`. -/
lemma step_convey {l : MotionPipeline.Label τ} (h : s.step platform unset (.convey l) = some t) :
    l ≠ .dequeue ∧ ∃ p, s.pipeline.step unset l = some p ∧
      t = { s with
        pipeline := p
        asked := s.asked + MotionPipeline.askedBy unset l
        lost := s.lost + s.pipeline.lostBy unset l } := by
  cases l with
  | dequeue => cases h
  | _ =>
    simp only [step, Option.map_eq_some_iff] at h
    obtain ⟨p, hp, rfl⟩ := h
    exact ⟨by simp, p, hp, rfl⟩

/-- `stepper_task` receives the oldest command. -/
lemma step_receive (h : s.step platform unset .receive = some t) :
    ∃ x p task, s.pipeline.step unset .dequeue = some p ∧ p.dequeued = s.pipeline.dequeued ++ [x] ∧
      s.task.step platform (.receive x.2) = some task ∧ t = { s with pipeline := p, task } := by
  obtain ⟨x, hhead, h⟩ := Option.bind_eq_some_iff.mp h
  obtain ⟨p, hp, h⟩ := Option.bind_eq_some_iff.mp h
  obtain ⟨task, htask, rfl⟩ := Option.map_eq_some_iff.mp h
  refine ⟨x, p, task, hp, ?_, htask, rfl⟩
  obtain ⟨⟨y, q⟩, hq, rfl⟩ := Option.map_eq_some_iff.mp hp
  rw [BoundedQueue.receive_eq_some_iff.mp hq, List.head?_cons] at hhead
  rw [Option.some.inj hhead]

/-- Another step of `stepper_task`. -/
lemma step_operate {l : ProfileTask.Label} (h : s.step platform unset (.operate l) = some t) :
    (∀ c, l ≠ .receive c) ∧ ∃ task, s.task.step platform l = some task ∧ t = { s with task } := by
  cases l with
  | receive c => cases h
  | _ =>
    simp only [step, Option.map_eq_some_iff] at h
    obtain ⟨task, htask, rfl⟩ := h
    exact ⟨by simp, task, htask, rfl⟩

/-! ## The account of the steps -/

/-- The steps of relative moves, counted without and with their directions. -/
def steps (commands : Multiset (τ × StepperCommand)) : ℕ × ℤ :=
  (commands.map fun x => (x.2.move.natAbs, x.2.move)).sum

@[simp] lemma steps_add (xs ys : Multiset (τ × StepperCommand)) :
    steps (xs + ys) = steps xs + steps ys := by
  simp [steps]

/-- The commands of a list in order. -/
lemma steps_coe (xs : List (τ × StepperCommand)) :
    steps (xs : Multiset (τ × StepperCommand)) = ProfileTask.counts (xs.map fun x => x.2.move) := by
  induction xs with
  | nil => rfl
  | cons x xs ih =>
    rw [← Multiset.cons_coe, ← Multiset.singleton_add, steps_add, ih, List.map_cons,
      ← List.singleton_append, ProfileTask.counts_append]
    simp [steps, ProfileTask.counts]

/-- A relative move of at most 2000 steps. -/
def ShortMove (c : StepperCommand) : Prop := c.type = 0 ∧ |c.move| ≤ 2000

instance : DecidablePred ShortMove := fun _ => inferInstanceAs (Decidable (_ ∧ _))

variable (unset) in
/-- The step asks only for commands with the property `Q`, and no notification is sent. -/
def Undisturbed (Q : StepperCommand → Prop) : Label τ → Prop
  | .convey l => ∀ x ∈ MotionPipeline.askedBy unset l, Q x.2
  | .receive => True
  | .operate l => l ≠ .isr ∧ l ≠ .stop

instance {Q : StepperCommand → Prop} [DecidablePred Q] (l : Label τ) :
    Decidable (Undisturbed unset Q l) :=
  match l with
  | .convey _ => inferInstanceAs (Decidable (∀ x ∈ _, Q _))
  | .receive => .isTrue trivial
  | .operate _ => inferInstanceAs (Decidable (_ ∧ _))

variable (unset) in
/-- Every command that was asked for is accounted for, and so is every step of those received. -/
structure Accounted (s : MotionSystem τ) : Prop where
  commands : s.pipeline.content unset + s.lost = s.asked
  short : s.pipeline.All unset fun x => ShortMove x.2
  quiet : s.task.Quiet
  account_eq : s.task.account = steps (s.pipeline.dequeued : Multiset (τ × StepperCommand))

variable {record : Stepper} {nvs : String → ℤ}

/-- The start is accounted for. -/
lemma accounted_boot : (boot record nvs : MotionSystem τ).Accounted unset where
  commands := by simp [boot, MotionPipeline.content, MotionPipeline.boot, MotionPipeline.put,
    MotionPipeline.toSend, MotionPipeline.offered]
  short := MotionPipeline.all_boot unset _
  quiet := ProfileTask.quiet_boot record nvs
  account_eq := by
    simp [boot, ProfileTask.boot, ProfileTask.account, steps, MotionPipeline.boot,
      SpeedProfile.standing_boot.1.distanceToGo_eq]

/-- A pipeline that is asked for commands with a property brings only these. -/
lemma brings_of_askedBy {Q : τ × StepperCommand → Prop} {l : MotionPipeline.Label τ}
    (h : ∀ x ∈ MotionPipeline.askedBy unset l, Q x) : MotionPipeline.Brings unset Q l := by
  cases l with
  | request a r => exact h
  | move a c => exact h (a, c) List.mem_cons_self
  | _ => trivial

/-- When all commands have a property, so has the one that `stepper_task` receives. -/
lemma all_dequeue {Q : τ × StepperCommand → Prop} {s p : MotionPipeline τ} {x : τ × StepperCommand}
    (hs : s.All unset Q) (hp : s.step unset .dequeue = some p)
    (hdequeued : p.dequeued = s.dequeued ++ [x]) : p.All unset Q ∧ Q x := by
  have hall : p.All unset Q := hs.of_effected (l := .dequeue) trivial
    (MotionPipeline.effected_of_step hp)
  exact ⟨hall, hall.put x (List.mem_append_left _ (by simp [hdequeued]))⟩

/-- Without notifications only a new command could ask too much of the motor. -/
lemma quietlyReaches_of_operate {u : ProfileTask} {l : ProfileTask.Label}
    (hl : l ≠ .isr ∧ l ≠ .stop) (hne : ∀ c, l ≠ .receive c) : u.QuietlyReaches platform l := by
  cases l with
  | isr => exact absurd rfl hl.1
  | stop => exact absurd rfl hl.2
  | receive c => exact absurd rfl (hne c)
  | _ => trivial

/-- **One step of the system** keeps the account. -/
theorem accounted_step {l : Label τ} (hs : s.Accounted unset) (hl : Undisturbed unset ShortMove l)
    (h : s.step platform unset l = some t) : t.Accounted unset := by
  cases l with
  | convey l =>
    obtain ⟨hne, p, hp, rfl⟩ := step_convey h
    refine ⟨?_, hs.short.of_effected (brings_of_askedBy hl) (MotionPipeline.effected_of_step hp),
      hs.quiet, ?_⟩
    · have hcontent := MotionPipeline.content_of_step hp
      have hold := hs.commands
      dsimp only
      rw [← hold, add_right_comm, ← hcontent]
      abel
    · rw [(MotionPipeline.kept_of_step hp).1 hne]
      exact hs.account_eq
  | receive =>
    obtain ⟨x, p, task, hp, hdequeued, htask, rfl⟩ := step_receive h
    obtain ⟨hshort, htype, hmove⟩ := all_dequeue hs.short hp hdequeued
    have hsteps : (s.task.stepping.beginCommand x.2).stepperMove = x.2.move := by
      simp [Stepping.beginCommand_eq, htype]
    have hreaches : s.task.QuietlyReaches platform (.receive x.2) :=
      fun m _ => .inl (by rwa [hsteps])
    obtain ⟨hquiet, haccount⟩ := ProfileTask.quiet_step hs.quiet hreaches htask
    refine ⟨?_, hshort, hquiet, ?_⟩
    · have hcontent := MotionPipeline.content_of_step hp
      simp only [MotionPipeline.lostBy, MotionPipeline.askedBy, Multiset.coe_nil, add_zero]
        at hcontent
      dsimp only
      rw [hcontent, hs.commands]
    · dsimp only
      rw [haccount, hs.account_eq, hdequeued, steps_coe, steps_coe, List.map_append,
        ProfileTask.counts_append, ProfileTask.ordered, hsteps]
      rfl
  | operate l =>
    obtain ⟨hne, task, htask, rfl⟩ := step_operate h
    have hordered : s.task.ordered l = [] := by
      cases l with
      | receive c => exact absurd rfl (hne c)
      | _ => rfl
    obtain ⟨hquiet, haccount⟩ :=
      ProfileTask.quiet_step hs.quiet (quietlyReaches_of_operate hl hne) htask
    refine ⟨hs.commands, hs.short, hquiet, ?_⟩
    dsimp only
    rw [haccount, hordered, hs.account_eq]
    simp [ProfileTask.counts]

/-- Runs that are accounted for. -/
lemma accounted_of_run {ls : List (Label τ)} (hls : ∀ l ∈ ls, Undisturbed unset ShortMove l)
    (hrun : StepRuns.run (step platform unset) (boot record nvs) ls = some t) :
    t.Accounted unset := by
  have hsteps : ∀ (s : MotionSystem τ) l t, s.Accounted unset → Undisturbed unset ShortMove l →
      s.step platform unset l = some t → t.Accounted unset :=
    fun _ _ _ hs hl h => accounted_step hs hl h
  exact StepRuns.invariant_of_run_along hsteps accounted_boot (StepRuns.along_of_forall hls) hrun

/-- The steps asked for are those received, those that wait and those dropped. -/
lemma Accounted.steps_asked (ht : t.Accounted unset) :
    steps t.asked = t.task.account + steps (t.pipeline.waiting unset) + steps t.lost := by
  have hcontent : t.pipeline.content unset =
      (t.pipeline.dequeued : Multiset (τ × StepperCommand)) + t.pipeline.waiting unset := by
    rw [MotionPipeline.content, MotionPipeline.put, ← Multiset.coe_add, MotionPipeline.waiting,
      add_assoc]
  rw [← ht.commands, hcontent, steps_add, steps_add, ht.account_eq]

/-- A motor whose task waits for a command stands. -/
lemma standing_of_waiting {u : ProfileTask} (hu : u.Quiet) (hwaiting : u.stage = .waiting) :
    u.profile.Standing := by
  obtain ⟨-, hstanding⟩ | ⟨⟨c, hrunning⟩, -⟩ := hu.phase
  · exact hstanding
  · rw [hwaiting] at hrunning
    cases hrunning

/-- **Every step is accounted for.**  In every run from the start in which only short relative moves
are asked for and no notification is sent, the steps asked for are the steps that the motor has made
and has to go, those of the commands that wait, and those of the commands that were dropped; and the
motor stands whenever `stepper_task` waits for a command. -/
theorem account_of_run {ls : List (Label τ)} (hls : ∀ l ∈ ls, Undisturbed unset ShortMove l)
    (hrun : StepRuns.run (step platform unset) (boot record nvs) ls = some t) :
    steps t.asked = t.task.account + steps (t.pipeline.waiting unset) + steps t.lost ∧
      (t.task.stage = .waiting → t.task.profile.Standing) := by
  have ht := accounted_of_run hls hrun
  exact ⟨ht.steps_asked, standing_of_waiting ht.quiet⟩

/-- A move of two steps, of which the motor makes one, while a move of three steps back waits. -/
def twoMoves : List (Label Unit) :=
  [.convey (.move () (commandMove 0 0 2 1000 1000 0 0 2000)), .convey .handlerSend,
    .convey (.move () (commandMove 0 0 (-3) 1000 1000 0 0 2000)), .convey .handlerSend, .receive,
    .operate (.poll none 60000#32)]

/-- Five steps were asked for; one is made, one is to go and three wait. -/
theorem account_of_run_two : ∃ t : MotionSystem Unit,
    StepRuns.run (step (fun _ => 0) fun _ => 0) (boot ⟨50, 0, 2000, 0, 0⟩ fun _ => 0) twoMoves =
        some t ∧
      (5, -1) = t.task.account + steps (t.pipeline.waiting fun _ => 0) + steps t.lost ∧
      t.task.made = 1 := by
  have hls : ∀ l ∈ twoMoves, Undisturbed (fun _ => 0) ShortMove l := by decide
  have heval : ((StepRuns.run (step (fun _ => 0) fun _ => 0) (boot ⟨50, 0, 2000, 0, 0⟩ fun _ => 0)
      twoMoves).any fun t => steps t.asked = (5, -1) ∧ t.task.made = 1) = true := by
    decide +kernel
  obtain ⟨t, hrun, hasked, hmade⟩ := StepRuns.exists_run_of_any heval
  exact ⟨t, hrun, hasked ▸ (account_of_run hls hrun).1, hmade⟩

end MotionSystem

end Strand
