import StrandFirmware.Motion
import StrandFirmware.Library.BoundedQueue
import StrandFirmware.Library.Runs

/-!
# From the command handler to the stepper task

A motion command reaches the queue of `stepper_task` in one of two ways: `command_handler` calls
`command_move` itself, or it puts a request into the queue of a generator task, which calls
`command_move` once or many times later.  `MotionPipeline` holds the queues on these ways, the
calls of `command_move` in progress, and the commands that `stepper_task` has dequeued.

Every request and every command carries a tag of an arbitrary type `τ`, which the code knows
nothing of: it says where the command comes from.

The account of a command is kept in two lists: `put`, what was put on the queue of `stepper_task`
since the start, and `toSend`, what a generator has still to send.  `effected_of_step` says what one
step does to them; everything below is derived from it.
-/

namespace Strand

/-- The tasks that turn a request into calls of `command_move`. -/
inductive Generator where
  | wave
  | sine
  | sineWave
deriving DecidableEq

instance : Fintype Generator where
  elems := {.wave, .sine, .sineWave}
  complete g := by cases g <;> decide

/-- A request, as `command_handler` sends it to a generator. -/
inductive Request where
  | wave (w : Wave)
  | sine (s : Sine)
  | sineWave (s : SineWave)
deriving DecidableEq

namespace Request

/-- The task that the request is sent to. -/
def generator : Request → Generator
  | wave _ => .wave
  | sine _ => .sine
  | sineWave _ => .sineWave

/-- The calls of `command_move` for the request. -/
def commands (unset : ℤ) : Request → List StepperCommand
  | wave w => waveTaskCommands unset w
  | sine s => sineTaskCommands unset s
  | sineWave s => sineWaveTaskCommands unset s

/-- Every request makes a command. -/
lemma commands_ne_nil (unset : ℤ) (r : Request) : r.commands unset ≠ [] := by
  cases r <;> simp [commands, waveTaskCommands, sineTaskCommands, sineWaveTaskCommands]

end Request

/-- The length of `xQueue_stepper_command`. -/
abbrev STEPPER_QUEUE_LENGTH : ℕ := 40

/-- The length of the queue of each generator. -/
abbrev GENERATOR_QUEUE_LENGTH : ℕ := 10

/-- The ticks for which `command_move` waits for a free slot. -/
abbrev COMMAND_MOVE_TICKS : ℕ := 20

/-- A generator task and its queue. -/
structure GeneratorTask (τ : Type*) where
  /-- The requests that wait for the task. -/
  queue : BoundedQueue (τ × Request) GENERATOR_QUEUE_LENGTH
  /-- The commands of the current request that were not sent yet. -/
  sending : List (τ × StepperCommand)
  /-- The ticks left to a call of `command_move` in progress. -/
  ticks : Option ℕ
deriving DecidableEq

/-- The queues between `command_handler` and `stepper_task`. -/
structure MotionPipeline (τ : Type*) where
  task : Generator → GeneratorTask τ
  /-- A call of `command_move` by `command_handler` in progress, with the ticks left to it. -/
  handler : Option ((τ × StepperCommand) × ℕ)
  /-- `xQueue_stepper_command`. -/
  stepperQueue : BoundedQueue (τ × StepperCommand) STEPPER_QUEUE_LENGTH
  /-- What `stepper_task` received so far. -/
  dequeued : List (τ × StepperCommand)

namespace MotionPipeline

variable {τ : Type*}

/-- One step of one of the tasks. -/
inductive Label (τ : Type*) where
  /-- `command_handler` sends a request to its generator. -/
  | request (a : τ) (r : Request)
  /-- `command_handler` calls `command_move`. -/
  | move (a : τ) (c : StepperCommand)
  /-- The call made by `command_handler` returns. -/
  | handlerSend
  /-- A generator receives a request. -/
  | take (g : Generator)
  /-- A generator calls `command_move`. -/
  | call (g : Generator)
  /-- The call made by a generator returns. -/
  | send (g : Generator)
  /-- A tick passes. -/
  | tick
  /-- `stepper_task` receives a command. -/
  | dequeue

/-- Nothing was sent yet. -/
def boot : MotionPipeline τ where
  task _ := ⟨.empty .., [], none⟩
  handler := none
  stepperQueue := .empty ..
  dequeued := []

/-- `xQueueSendToBack` on the queue of `stepper_task` with some ticks left: it returns when there
is a free slot, and without having sent anything when the queue is full and the time is over. -/
def offer (q : BoundedQueue (τ × StepperCommand) STEPPER_QUEUE_LENGTH) (x : τ × StepperCommand)
    (ticks : ℕ) : Option (BoundedQueue (τ × StepperCommand) STEPPER_QUEUE_LENGTH) :=
  match q.sendToBack x with
  | some q => some q
  | none => if ticks = 0 then some q else none

/-- The commands of a request with its tag. -/
def tagged (unset : τ → ℤ) (x : τ × Request) : List (τ × StepperCommand) :=
  (x.2.commands (unset x.1)).map fun c => (x.1, c)

/-- One step.  `unset` is what the stack holds in the field that `command_move` leaves unset for a
negative type.  No result of `xQueueSendToBack` is looked at: a request that finds the queue of its
generator full, and a command whose time is over, are dropped. -/
def step (unset : τ → ℤ) (s : MotionPipeline τ) : Label τ → Option (MotionPipeline τ)
  | .request a r =>
    if s.handler = none then
      let g := s.task r.generator
      let g := { g with queue := (g.queue.sendToBack (a, r)).getD g.queue }
      some { s with task := Function.update s.task r.generator g }
    else none
  | .move a c =>
    if s.handler = none then some { s with handler := some ((a, c), COMMAND_MOVE_TICKS) } else none
  | .handlerSend =>
    match s.handler with
    | none => none
    | some (x, ticks) =>
      (offer s.stepperQueue x ticks).map fun q => { s with stepperQueue := q, handler := none }
  | .take g =>
    if (s.task g).sending = [] then
      (s.task g).queue.receive.map fun (x, q) =>
        { s with task := Function.update s.task g ⟨q, tagged unset x, none⟩ }
    else none
  | .call g =>
    if (s.task g).sending ≠ [] ∧ (s.task g).ticks = none then
      let x := { s.task g with ticks := some COMMAND_MOVE_TICKS }
      some { s with task := Function.update s.task g x }
    else none
  | .send g =>
    match (s.task g).sending, (s.task g).ticks with
    | x :: xs, some ticks =>
      (offer s.stepperQueue x ticks).map fun q =>
        { s with
          stepperQueue := q
          task := Function.update s.task g { s.task g with sending := xs, ticks := none } }
    | _, _ => none
  | .tick =>
    some { s with
      handler := s.handler.map fun (x, ticks) => (x, ticks - 1)
      task := fun g => { s.task g with ticks := (s.task g).ticks.map fun n => n - 1 } }
  | .dequeue =>
    s.stepperQueue.receive.map fun (x, q) =>
      { s with stepperQueue := q, dequeued := s.dequeued ++ [x] }

/-! ## The account of a command -/

/-- What was put on the queue of `stepper_task` since the start. -/
def put (s : MotionPipeline τ) : List (τ × StepperCommand) := s.dequeued ++ s.stepperQueue.items

/-- What a generator has still to send. -/
def toSend (unset : τ → ℤ) (s : MotionPipeline τ) (g : Generator) : List (τ × StepperCommand) :=
  (s.task g).sending ++ (s.task g).queue.items.flatMap (tagged unset)

/-- The command that `command_handler` is sending. -/
def offered (s : MotionPipeline τ) : Option (τ × StepperCommand) := s.handler.map Prod.fst

/-- The step drops nothing of a request: a request finds a free slot in the queue of its generator,
and a call of `command_move` by a generator returns only when there is a free slot. -/
def Admitted (s : MotionPipeline τ) : Label τ → Prop
  | .request _ r => ¬ (s.task r.generator).queue.Full
  | .send _ => ¬ s.stepperQueue.Full
  | .move .. | .handlerSend | .take _ | .call _ | .tick | .dequeue => True

instance (s : MotionPipeline τ) : (l : Label τ) → Decidable (s.Admitted l)
  | .request .. | .send _ => inferInstanceAs (Decidable (¬ _))
  | .move .. | .handlerSend | .take _ | .call _ | .tick | .dequeue => .isTrue trivial

/-- How a send returns: with the command in a free slot, or, its time over, without. -/
lemma offer_eq_some_iff {q q' : BoundedQueue (τ × StepperCommand) STEPPER_QUEUE_LENGTH}
    {x : τ × StepperCommand} {ticks : ℕ} :
    offer q x ticks = some q' ↔
      ¬ q.Full ∧ q'.items = q.items ++ [x] ∨ q.Full ∧ ticks = 0 ∧ q' = q := by
  unfold offer
  cases hsend : q.sendToBack x with
  | some r =>
    have hr := BoundedQueue.sendToBack_eq_some_iff.mp hsend
    simp only [Option.some.injEq, hr.1, not_false_eq_true, true_and, false_and, or_false]
    rw [BoundedQueue.ext_iff, hr.2, eq_comm]
  | none =>
    have hfull := BoundedQueue.sendToBack_eq_none_iff.mp hsend
    simp [hfull, eq_comm]

/-- What a step does to the account of the commands. -/
inductive Effected (unset : τ → ℤ) (s t : MotionPipeline τ) : Label τ → Prop
  /-- Nothing is added and nothing is lost. -/
  | quiet {l : Label τ} (hl : ∀ a r, l ≠ .request a r) (hadm : s.Admitted l)
      (hput : t.put = s.put)
      (hsend : ∀ g, t.toSend unset g = s.toSend unset g)
      (hoffer : t.offered = s.offered ∨ t.offered = none) : Effected unset s t l
  /-- `command_handler` starts to send a command. -/
  | moved (a : τ) (c : StepperCommand) (hput : t.put = s.put)
      (hsend : ∀ g, t.toSend unset g = s.toSend unset g) (hoffer : t.offered = some (a, c)) :
      Effected unset s t (.move a c)
  /-- The command of `command_handler` is put on the queue. -/
  | handled (x : τ × StepperCommand) (hoffered : s.offered = some x)
      (hput : t.put = s.put ++ [x]) (hsend : ∀ g, t.toSend unset g = s.toSend unset g)
      (hoffer : t.offered = none) : Effected unset s t .handlerSend
  /-- The next command of a generator is put on the queue. -/
  | sent (g : Generator) (x : τ × StepperCommand) (hadm : s.Admitted (.send g))
      (hhead : s.toSend unset g = x :: t.toSend unset g)
      (hsend : ∀ g' ≠ g, t.toSend unset g' = s.toSend unset g') (hput : t.put = s.put ++ [x])
      (hoffer : t.offered = s.offered) : Effected unset s t (.send g)
  /-- The next command of a generator is dropped. -/
  | dropped (g : Generator) (x : τ × StepperCommand) (hadm : ¬ s.Admitted (.send g))
      (hhead : s.toSend unset g = x :: t.toSend unset g)
      (hsend : ∀ g' ≠ g, t.toSend unset g' = s.toSend unset g') (hput : t.put = s.put)
      (hoffer : t.offered = s.offered) : Effected unset s t (.send g)
  /-- A request is accepted by the queue of its generator. -/
  | requested (a : τ) (r : Request) (hadm : s.Admitted (.request a r))
      (hself : t.toSend unset r.generator = s.toSend unset r.generator ++ tagged unset (a, r))
      (hsend : ∀ g ≠ r.generator, t.toSend unset g = s.toSend unset g) (hput : t.put = s.put)
      (hoffer : t.offered = s.offered) : Effected unset s t (.request a r)
  /-- A request is dropped. -/
  | refused (a : τ) (r : Request) (hadm : ¬ s.Admitted (.request a r))
      (hsend : ∀ g, t.toSend unset g = s.toSend unset g) (hput : t.put = s.put)
      (hoffer : t.offered = s.offered) : Effected unset s t (.request a r)

/-- Only the task that is changed has other commands to send. -/
lemma toSend_update {unset : τ → ℤ} {s t : MotionPipeline τ} {g : Generator}
    {x : GeneratorTask τ} (ht : t.task = Function.update s.task g x) :
    t.toSend unset g = x.sending ++ x.queue.items.flatMap (tagged unset) ∧
      ∀ g' ≠ g, t.toSend unset g' = s.toSend unset g' := by
  constructor
  · simp [toSend, ht]
  · intro g' hne
    simp [toSend, ht, Function.update_of_ne hne]

/-- **What one step can do.** -/
theorem effected_of_step {unset : τ → ℤ} {s t : MotionPipeline τ} {l : Label τ}
    (h : s.step unset l = some t) : Effected unset s t l := by
  cases l with
  | request a r =>
    obtain ⟨hidle, rfl⟩ := StepRuns.of_guarded h
    cases hsend : (s.task r.generator).queue.sendToBack (a, r) with
    | none =>
      have hfull := BoundedQueue.sendToBack_eq_none_iff.mp hsend
      refine .refused a r (not_not.mpr hfull) (fun g => ?_) rfl rfl
      simp [toSend]
    | some q =>
      obtain ⟨hfree, hitems⟩ := BoundedQueue.sendToBack_eq_some_iff.mp hsend
      refine .requested a r hfree ?_ (toSend_update rfl).2 rfl rfl
      rw [(toSend_update rfl).1]
      simp [toSend, hitems]
  | move a c =>
    obtain ⟨-, rfl⟩ := StepRuns.of_guarded h
    exact .moved a c rfl (fun _ => rfl) rfl
  | handlerSend =>
    unfold step at h
    cases hhandler : s.handler with
    | none => simp [hhandler] at h
    | some y =>
      obtain ⟨x, ticks⟩ := y
      simp only [hhandler] at h
      obtain ⟨q, hq, rfl⟩ := Option.map_eq_some_iff.mp h
      rcases offer_eq_some_iff.mp hq with ⟨-, hitems⟩ | ⟨-, -, rfl⟩
      · exact .handled x (by simp [offered, hhandler]) (by simp [put, hitems]) (fun _ => rfl) rfl
      · exact .quiet (by simp) trivial rfl (fun _ => rfl) (.inr rfl)
  | take g =>
    obtain ⟨hnil, ht⟩ := Option.ite_none_right_eq_some.mp h
    obtain ⟨⟨x, q⟩, hq, rfl⟩ := Option.map_eq_some_iff.mp ht
    have hitems := BoundedQueue.receive_eq_some_iff.mp hq
    refine .quiet (by simp) trivial rfl (fun g' => ?_) (.inl rfl)
    by_cases hg : g' = g
    · subst hg
      simp [toSend, hnil, hitems]
    · simp [toSend, Function.update_of_ne hg]
  | call g =>
    obtain ⟨-, rfl⟩ := StepRuns.of_guarded h
    refine .quiet (by simp) trivial rfl (fun g' => ?_) (.inl rfl)
    by_cases hg : g' = g
    · subst hg
      simp [toSend]
    · simp [toSend, Function.update_of_ne hg]
  | send g =>
    unfold step at h
    cases hsending : (s.task g).sending with
    | nil => simp [hsending] at h
    | cons x xs =>
      cases hticks : (s.task g).ticks with
      | none => simp [hsending, hticks] at h
      | some ticks =>
        simp only [hsending, hticks] at h
        obtain ⟨q, hq, rfl⟩ := Option.map_eq_some_iff.mp h
        have hhead : s.toSend unset g =
            x :: (xs ++ (s.task g).queue.items.flatMap (tagged unset)) := by
          simp [toSend, hsending]
        rcases offer_eq_some_iff.mp hq with ⟨hfree, hitems⟩ | ⟨hfull, -, rfl⟩
        · refine .sent g x hfree ?_ (toSend_update rfl).2 (by simp [put, hitems]) rfl
          rw [hhead, (toSend_update rfl).1]
        · refine .dropped g x (not_not.mpr hfull) ?_ (toSend_update rfl).2 rfl rfl
          rw [hhead, (toSend_update rfl).1]
  | tick =>
    obtain rfl := Option.some.inj h
    refine .quiet (by simp) trivial rfl (fun _ => rfl) (.inl ?_)
    simp [offered, Option.map_map, Function.comp_def]
  | dequeue =>
    obtain ⟨⟨x, q⟩, hq, rfl⟩ := Option.map_eq_some_iff.mp h
    have hitems := BoundedQueue.receive_eq_some_iff.mp hq
    exact .quiet (by simp) trivial (by simp [put, hitems]) (fun _ => rfl) (.inl rfl)

/-! ## Where commands come from -/

section Origin

variable {unset : τ → ℤ} {s t : MotionPipeline τ} {l : Label τ} {x : τ × StepperCommand}

/-- A command on the queue of `stepper_task` was there before, or a task was about to send it. -/
lemma Effected.mem_put (h : Effected unset s t l) (hx : x ∈ t.put) :
    x ∈ s.put ∨ s.offered = some x ∨ ∃ g, x ∈ s.toSend unset g := by
  cases h with
  | quiet _ _ hput | moved _ _ hput | dropped _ _ _ _ _ hput | requested _ _ _ _ _ hput
  | refused _ _ _ _ hput => exact .inl (hput ▸ hx)
  | handled y hoffered hput =>
    rcases List.mem_append.mp (hput ▸ hx) with hx | hx
    · exact .inl hx
    · obtain rfl := List.mem_singleton.mp hx
      exact .inr (.inl hoffered)
  | sent g y _ hhead _ hput =>
    rcases List.mem_append.mp (hput ▸ hx) with hx | hx
    · exact .inl hx
    · obtain rfl := List.mem_singleton.mp hx
      exact .inr (.inr ⟨g, hhead ▸ List.mem_cons_self⟩)

/-- A command that a generator has still to send was so before, or belongs to the request that the
step sends. -/
lemma Effected.mem_toSend (h : Effected unset s t l) {g : Generator} (hx : x ∈ t.toSend unset g) :
    x ∈ s.toSend unset g ∨
      ∃ a r, l = .request a r ∧ r.generator = g ∧ x ∈ tagged unset (a, r) := by
  cases h with
  | quiet _ _ _ hsend | moved _ _ _ hsend | handled _ _ _ hsend | refused _ _ _ hsend =>
    exact .inl (hsend g ▸ hx)
  | sent g' y _ hhead hsend | dropped g' y _ hhead hsend =>
    left
    by_cases hg : g = g'
    · subst hg
      exact hhead ▸ List.mem_cons_of_mem y hx
    · exact hsend g hg ▸ hx
  | requested a r _ hself hsend =>
    by_cases hg : g = r.generator
    · subst hg
      rcases List.mem_append.mp (hself ▸ hx) with hx | hx
      · exact .inl hx
      · exact .inr ⟨a, r, rfl, rfl, hx⟩
    · exact .inl (hsend g hg ▸ hx)

/-- The command that `command_handler` is sending was so before, or the step begins to send it. -/
lemma Effected.eq_offered (h : Effected unset s t l) (hx : t.offered = some x) :
    s.offered = some x ∨ ∃ a c, l = .move a c ∧ x = (a, c) := by
  cases h with
  | quiet _ _ _ _ hoffer =>
    rcases hoffer with hoffer | hoffer
    · exact .inl (hoffer ▸ hx)
    · simp [hoffer] at hx
  | moved a c _ _ hoffer => exact .inr ⟨a, c, rfl, Option.some.inj (hx.symm.trans hoffer)⟩
  | handled _ _ _ _ hoffer => simp [hoffer] at hx
  | sent _ _ _ _ _ _ hoffer | dropped _ _ _ _ _ _ hoffer | requested _ _ _ _ _ _ hoffer
  | refused _ _ _ _ _ hoffer => exact .inl (hoffer ▸ hx)

end Origin

/-- A task that is changed without getting a request has no other requests in its queue. -/
lemma mem_queue_of_update {s t : MotionPipeline τ} {g g' : Generator} {y : GeneratorTask τ}
    (ht : t.task = Function.update s.task g' y)
    (hy : ∀ x ∈ y.queue.items, x ∈ (s.task g').queue.items) :
    ∀ x ∈ (t.task g).queue.items, x ∈ (s.task g).queue.items := by
  intro x hx
  rw [ht] at hx
  by_cases hg : g = g'
  · subst hg
    rw [Function.update_self] at hx
    exact hy x hx
  · rwa [Function.update_of_ne hg] at hx

/-- A request in the queue of a generator was there before, or the step sends it. -/
lemma mem_queue_of_step {unset : τ → ℤ} {s t : MotionPipeline τ} {l : Label τ}
    (h : s.step unset l = some t) {g : Generator} {x : τ × Request}
    (hx : x ∈ (t.task g).queue.items) :
    x ∈ (s.task g).queue.items ∨ ∃ a r, l = .request a r ∧ x = (a, r) := by
  cases l with
  | request a r =>
    obtain ⟨-, rfl⟩ := StepRuns.of_guarded h
    by_cases hg : g = r.generator
    · subst hg
      simp only [Function.update_self] at hx
      cases hsend : (s.task r.generator).queue.sendToBack (a, r) with
      | none => exact .inl (by simpa [hsend] using hx)
      | some q =>
        rw [hsend, Option.getD_some, (BoundedQueue.sendToBack_eq_some_iff.mp hsend).2] at hx
        rcases List.mem_append.mp hx with hx | hx
        · exact .inl hx
        · exact .inr ⟨a, r, rfl, List.mem_singleton.mp hx⟩
    · exact .inl (by simpa [Function.update_of_ne hg] using hx)
  | move a c =>
    obtain ⟨-, rfl⟩ := StepRuns.of_guarded h
    exact .inl hx
  | handlerSend =>
    unfold step at h
    cases hhandler : s.handler with
    | none => simp [hhandler] at h
    | some y =>
      simp only [hhandler] at h
      obtain ⟨q, -, rfl⟩ := Option.map_eq_some_iff.mp h
      exact .inl hx
  | take g' =>
    obtain ⟨-, ht⟩ := Option.ite_none_right_eq_some.mp h
    obtain ⟨⟨y, q⟩, hq, rfl⟩ := Option.map_eq_some_iff.mp ht
    refine .inl (mem_queue_of_update rfl (fun z hz => ?_) x hx)
    rw [BoundedQueue.receive_eq_some_iff.mp hq]
    exact List.mem_cons_of_mem y hz
  | call g' =>
    obtain ⟨-, rfl⟩ := StepRuns.of_guarded h
    refine .inl (mem_queue_of_update rfl (fun z hz => ?_) x hx)
    exact hz
  | send g' =>
    unfold step at h
    cases hsending : (s.task g').sending with
    | nil => simp [hsending] at h
    | cons y ys =>
      cases hticks : (s.task g').ticks with
      | none => simp [hsending, hticks] at h
      | some ticks =>
        simp only [hsending, hticks] at h
        obtain ⟨q, -, rfl⟩ := Option.map_eq_some_iff.mp h
        refine .inl (mem_queue_of_update rfl (fun z hz => ?_) x hx)
        exact hz
  | tick =>
    obtain rfl := Option.some.inj h
    exact .inl hx
  | dequeue =>
    obtain ⟨⟨y, q⟩, -, rfl⟩ := Option.map_eq_some_iff.mp h
    exact .inl hx

/-! ## Properties of single commands -/

/-- Every command in the pipeline has the property `Q` of its tag and itself. -/
structure All (unset : τ → ℤ) (Q : τ × StepperCommand → Prop) (s : MotionPipeline τ) : Prop where
  put : ∀ x ∈ s.put, Q x
  toSend : ∀ g, ∀ x ∈ s.toSend unset g, Q x
  offered : ∀ x ∈ s.offered, Q x

/-- What the step brings into the pipeline has the property `Q`. -/
def Brings (unset : τ → ℤ) (Q : τ × StepperCommand → Prop) : Label τ → Prop
  | .request a r => ∀ x ∈ tagged unset (a, r), Q x
  | .move a c => Q (a, c)
  | _ => True

/-- A property of all commands is kept by a step that brings only commands with it. -/
theorem All.of_effected {unset : τ → ℤ} {Q : τ × StepperCommand → Prop} {s t : MotionPipeline τ}
    {l : Label τ} (hs : s.All unset Q) (hl : Brings unset Q l) (h : Effected unset s t l) :
    t.All unset Q := by
  constructor
  · intro x hx
    rcases h.mem_put hx with hx | hx | ⟨g, hx⟩
    · exact hs.put x hx
    · exact hs.offered x hx
    · exact hs.toSend g x hx
  · intro g x hx
    rcases h.mem_toSend hx with hx | ⟨a, r, rfl, -, hx⟩
    · exact hs.toSend g x hx
    · exact hl x hx
  · intro x hx
    rcases h.eq_offered hx with hx | ⟨a, c, rfl, rfl⟩
    · exact hs.offered x hx
    · exact hl

/-- An empty pipeline has every property. -/
lemma all_boot (unset : τ → ℤ) (Q : τ × StepperCommand → Prop) :
    (boot : MotionPipeline τ).All unset Q where
  put := by simp [boot, MotionPipeline.put]
  toSend := by simp [boot, MotionPipeline.toSend]
  offered := by simp [boot, MotionPipeline.offered]

end MotionPipeline

end Strand
