import StrandFirmware.EventDispatch
import StrandFirmware.HandlerBranches
import StrandFirmware.MotionPipeline

/-!
# The travel limits of a motion command

`command_handler` passes the limits of the device to `command_move`, at once or by way of a
generator task, and `command_move` clamps the target of an absolute command to the limits it is
passed.  A command therefore respects the limits that were in force when `command_handler` handled
the message it comes from; whether these are in order, and whether they still are the limits when
the command is put on the queue, nobody checks.

The system below is `command_handler`, with any messages, and the motion pipeline.  The tag of a
command is `device_stepper` at the moment when the handler took its message
(`respects_of_run`).
-/

namespace Strand

open CString

/-! ## The limits of one message -/

/-- An absolute command carries the limits of the record, and its target is inside them provided
that they are in order. -/
def RespectsLimits (s : Stepper) (c : StepperCommand) : Prop :=
  1 ≤ c.type → c.min = s.min ∧ c.max = s.max ∧ (s.min ≤ s.max → s.min ≤ c.move ∧ c.move ≤ s.max)

/-- `command_move` with the limits of the record makes a command that respects them. -/
lemma respectsLimits_commandMove (s : Stepper) (unset type move speed accel time : ℤ) :
    RespectsLimits s (commandMove unset type move speed accel time s.min s.max) :=
  fun htype => ⟨rfl, rfl, fun h => commandMove_mem htype h⟩

namespace Request

/-- The `stepper_command_t` inside the request. -/
def base : Request → StepperCommand
  | wave w => w.waveStepper
  | sine s => s.sineStepper
  | sineWave s => s.sineWaveStepper

/-- The request carries the limits of the record. -/
def CarriesLimits (r : Request) (s : Stepper) : Prop := r.base.min = s.min ∧ r.base.max = s.max

/-- Every command of a request is a call of `command_move` with the parameters of the request. -/
lemma exists_moveLike_of_mem {unset : ℤ} {r : Request} {c : StepperCommand}
    (hc : c ∈ r.commands unset) : ∃ target, c = moveLike unset r.base target := by
  cases r with
  | wave w => exact ⟨_, List.mem_singleton.mp hc⟩
  | sine s | sineWave s =>
    rcases List.mem_append.mp hc with hc | hc
    · exact mem_loopCommands hc
    · exact ⟨_, List.mem_singleton.mp hc⟩

/-- The commands of a request respect the limits that it carries. -/
lemma respectsLimits_of_mem {unset : ℤ} {r : Request} {s : Stepper} (hr : r.CarriesLimits s)
    {c : StepperCommand} (hc : c ∈ r.commands unset) : RespectsLimits s c := by
  obtain ⟨target, rfl⟩ := exists_moveLike_of_mem hc
  rw [moveLike, hr.1, hr.2]
  exact respectsLimits_commandMove s _ _ _ _ _ _

end Request

namespace Effect

/-- The step of the motion pipeline that the effect is, with the tag `a`. -/
def motion (a : Stepper) : Effect → Option (MotionPipeline.Label Stepper)
  | .stepperQueue c => some (.move a c)
  | .waveQueue w => some (.request a (.wave w))
  | .sineQueue s => some (.request a (.sine s))
  | .sineWaveQueue s => some (.request a (.sineWave s))
  | _ => none

/-- What the effect sends towards the motor has a property: `P` for a request, `Q` for a command. -/
def Sends (P : Request → Prop) (Q : StepperCommand → Prop) : Effect → Prop
  | .stepperQueue c => Q c
  | .waveQueue w => P (.wave w)
  | .sineQueue w => P (.sine w)
  | .sineWaveQueue w => P (.sineWave w)
  | _ => True

instance (P : Request → Prop) (Q : StepperCommand → Prop) [DecidablePred P] [DecidablePred Q] :
    (e : Effect) → Decidable (e.Sends P Q)
  | .stepperQueue c => inferInstanceAs (Decidable (Q c))
  | .waveQueue w => inferInstanceAs (Decidable (P (.wave w)))
  | .sineQueue w => inferInstanceAs (Decidable (P (.sine w)))
  | .sineWaveQueue w => inferInstanceAs (Decidable (P (.sineWave w)))
  | .setPramamter .. | .saveStepper _ | .saveLocation _ | .updateUdp _ | .notifyStop
  | .tcpRespond _ | .ota | .restart => .isTrue trivial

/-- A property that follows from another one. -/
lemma Sends.imp {P P' : Request → Prop} {Q Q' : StepperCommand → Prop} {e : Effect}
    (hP : ∀ r, P r → P' r) (hQ : ∀ c, Q c → Q' c) (he : e.Sends P Q) : e.Sends P' Q' := by
  cases e with
  | stepperQueue c => exact hQ c he
  | waveQueue w => exact hP _ he
  | sineQueue w => exact hP _ he
  | sineWaveQueue w => exact hP _ he
  | _ => trivial

/-- Two properties together. -/
lemma Sends.and {P P' : Request → Prop} {Q Q' : StepperCommand → Prop} {e : Effect}
    (he : e.Sends P Q) (he' : e.Sends P' Q') :
    e.Sends (fun r => P r ∧ P' r) fun c => Q c ∧ Q' c := by
  cases e with
  | stepperQueue c => exact ⟨he, he'⟩
  | waveQueue w => exact ⟨he, he'⟩
  | sineQueue w => exact ⟨he, he'⟩
  | sineWaveQueue w => exact ⟨he, he'⟩
  | _ => trivial

/-- What the effect sends towards the motor respects the limits of the record. -/
def Respects (s : Stepper) : Effect → Prop
  | .stepperQueue c => RespectsLimits s c
  | .waveQueue w => (Request.wave w).CarriesLimits s
  | .sineQueue w => (Request.sine w).CarriesLimits s
  | .sineWaveQueue w => (Request.sineWave w).CarriesLimits s
  | _ => True

/-- Respecting the limits is such a property. -/
lemma respects_iff_sends {s : Stepper} {e : Effect} :
    e.Respects s ↔ e.Sends (fun r => r.CarriesLimits s) (RespectsLimits s) := by
  cases e <;> rfl

end Effect

/-- The effects of `h'` are those of `h` and some that respect the limits of the record `s`. -/
structure Handling.Extends (s : Stepper) (h h' : Handling) : Prop where
  effects : ∀ e ∈ h'.effects, e ∈ h.effects ∨ e.Respects s

namespace Handling.Extends

variable {s : Stepper} {h h' h'' : Handling}

lemma refl (s : Stepper) (h : Handling) : h.Extends s h := ⟨fun _ he => .inl he⟩

lemma trans (hh : h.Extends s h') (hh' : h'.Extends s h'') : h.Extends s h'' where
  effects e he := (hh'.effects e he).elim (hh.effects e) .inr

/-- Adding an effect that respects the limits. -/
lemma emit (hh : h.Extends s h') (e : Effect) (he : e.Respects s) : h.Extends s (h'.emit e) where
  effects e' he' := by
    rcases List.mem_append.mp he' with he' | he'
    · exact hh.effects e' he'
    · obtain rfl := List.mem_singleton.mp he'
      exact .inr he

lemma setPramamter (hh : h.Extends s h') (type value : ℤ) :
    h.Extends s (h'.setPramamter type value) :=
  ⟨(hh.emit (.setPramamter type value) trivial).effects⟩

lemma saveParamters (hh : h.Extends s h') (env : Environment) :
    h.Extends s (h'.saveParamters env) :=
  ⟨(hh.emit (.saveStepper h'.stepper) trivial).effects⟩

lemma commandSetLocation (hh : h.Extends s h') (env : Environment) (loc : Location) :
    h.Extends s (h'.commandSetLocation env loc) :=
  ⟨(hh.emit (.saveLocation loc) trivial).effects⟩

lemma updateUdp (hh : h.Extends s h') : h.Extends s h'.updateUdp := hh.emit _ trivial

/-- A call of `command_move` respects the limits that are in force when it is made. -/
lemma commandMove (h : Handling) (type move speed accel time : ℤ) :
    h.Extends h.stepper (h.commandMove type move speed accel time) :=
  (refl h.stepper h).emit _ (respectsLimits_commandMove h.stepper _ _ _ _ _ _)

/-- Setting, saving and reloading a parameter sends nothing towards the motor. -/
lemma set (s : Stepper) (h : Handling) (env : Environment) (type value : ℤ) :
    h.Extends s ((h.setPramamter type value).saveParamters env) :=
  ((refl s h).setPramamter type value).saveParamters env

/-- Setting the location sends nothing towards the motor. -/
lemma setLocation (s : Stepper) (h : Handling) (env : Environment) (word : ℤ → ℤ) :
    h.Extends s (setLocationAct env word h) :=
  ((refl s h).commandSetLocation env _).emit _ trivial

end Handling.Extends

open Handling in
/-- A branch of the first chain adds effects that respect the limits of the record it finds. -/
lemma extends_act_standard (env : Environment) (word : ℤ → ℤ) (h : Handling) :
    ∀ b ∈ standardBranches, h.Extends h.stepper (b.act env word h) := by
  have hrefl := Extends.refl h.stepper h
  have hset := Extends.set h.stepper h env
  simp only [standardBranches, List.forall_mem_cons, List.not_mem_nil, false_implies,
    implies_true, and_true]
  refine ⟨hrefl, (hrefl.saveParamters env).emit _ trivial, (hrefl.saveParamters env).emit _ trivial,
    hrefl.emit _ trivial, .commandMove .., .commandMove .., .commandMove .., ?_, .commandMove ..,
    hrefl.emit _ ⟨rfl, rfl⟩, hrefl.emit _ ⟨rfl, rfl⟩, hrefl.emit _ ⟨rfl, rfl⟩,
    hrefl.emit _ ⟨rfl, rfl⟩, (hset ..).updateUdp, (hset ..).updateUdp, (hset ..).updateUdp,
    (hset ..).updateUdp, .setLocation .., hrefl.updateUdp⟩
  -- `stepperNumTranslate` on a device without a number does nothing
  unfold stepperNumTranslateBranch
  dsimp only
  split
  · exact .commandMove ..
  · exact hrefl

open Handling in
/-- A branch of the second chain sends nothing towards the motor. -/
lemma extends_act_tcp (s : Stepper) (env : Environment) (word : ℤ → ℤ) (h : Handling) :
    ∀ b ∈ tcpBranches, h.Extends s (b.act env word h) := by
  have hrefl := Extends.refl s h
  have hset := Extends.set s h env
  simp only [tcpBranches, List.forall_mem_cons, List.not_mem_nil, false_implies, implies_true,
    and_true]
  exact ⟨hrefl.emit _ trivial, .setLocation .., (hset ..).emit _ trivial, (hset ..).emit _ trivial,
    (hset ..).emit _ trivial, hrefl.emit _ trivial, hrefl.emit _ trivial⟩

/-- Running the branch that was found adds what its body adds. -/
lemma extends_execMatch {s : Stepper} {env : Environment} {t : CommandLine} {b : Option Branch}
    {h h' : Handling} {returned : Bool}
    (hb : ∀ b' ∈ b, ∀ word, h.Extends s (b'.act env word h))
    (hexec : execMatch env t b h = .ok (h', returned)) : h.Extends s h' := by
  rcases execMatch_cases hexec with ⟨-, rfl⟩ | ⟨c, hc, word, -, rfl⟩
  · exact .refl s h
  · exact hb c hc word

/-- The comparisons of `command_handler` add what the branches that run add. -/
lemma extends_dispatch {env : Environment} {t : CommandLine} {type : ℤ} {h h' : Handling}
    (hdispatch : dispatch env t type h = .ok h') : h.Extends h.stepper h' := by
  obtain ⟨w, rest, ht⟩ := t.exists_rows_eq_cons
  obtain ⟨h₁, returned, hfirst, hrest⟩ := dispatch_cases ht hdispatch
  have hext₁ : h.Extends h.stepper h₁ := extends_execMatch
    (fun b hb word => extends_act_standard env word h b (List.mem_of_find?_eq_some hb)) hfirst
  rcases hrest with ⟨-, rfl⟩ | ⟨-, returned', hsecond⟩
  · exact hext₁
  · refine hext₁.trans (extends_execMatch (fun b hb word => ?_) hsecond)
    exact extends_act_tcp h.stepper env word h₁ b (List.mem_of_find?_eq_some hb)

/-- **What a message sends towards the motor** respects the limits that `command_handler` found. -/
theorem respects_commandHandler {env : Environment} {s s' : NetState} {m : List Byte} {type : ℤ}
    {es : List Effect} (h : commandHandler env s m type = .ok (s', es)) :
    ∀ e ∈ es, e.Respects s.stepper := by
  obtain ⟨n, t, id, h', -, hdispatch, -, rfl⟩ := commandHandler_cases h
  intro e he
  exact ((extends_dispatch hdispatch).effects e he).resolve_left List.not_mem_nil

/-! ## Whole runs -/

/-- `command_handler` and the motion pipeline. -/
structure TravelSystem where
  net : NetState
  /-- What `command_handler` has still to do for the message being handled. -/
  agenda : List Effect
  /-- `device_stepper` when this message was taken. -/
  origin : Stepper
  pipeline : MotionPipeline Stepper

namespace TravelSystem

open MotionPipeline

/-- One step of one of the tasks. -/
inductive Label where
  /-- `command_handler` takes a message. -/
  | message (env : Environment) (r : Receiver) (m : Message)
  /-- `command_handler` does the next thing for its message. -/
  | act
  /-- A call by `command_handler` returns, or another task makes a step. -/
  | task (l : MotionPipeline.Label Unit)

/-- The steps of the pipeline that are not the beginning of a call by `command_handler`. -/
def background : MotionPipeline.Label Unit → Option (MotionPipeline.Label Stepper)
  | .request .. | .move .. => none
  | .handlerSend => some .handlerSend
  | .take g => some (.take g)
  | .call g => some (.call g)
  | .send g => some (.send g)
  | .tick => some .tick
  | .dequeue => some .dequeue

/-- The start with some state of the network code. -/
def boot (net : NetState) : TravelSystem := ⟨net, [], net.stepper, MotionPipeline.boot⟩

/-- One step.  A message is taken when the last one is done.  Its effects on the records are all
made when it is taken: no message both changes the limits and moves the motor. -/
def step (unset : Stepper → ℤ) (s : TravelSystem) : Label → Option TravelSystem
  | .message env r m =>
    if s.agenda = [] ∧ s.pipeline.handler = none then
      match commandHandler env s.net m.toList r.commandType with
      | .error _ => none
      | .ok (net, es) => some { s with net, agenda := es, origin := s.net.stepper }
    else none
  | .act =>
    match s.agenda with
    | [] => none
    | e :: es =>
      match e.motion s.origin with
      | none => some { s with agenda := es }
      | some l => (s.pipeline.step unset l).map fun p => { s with agenda := es, pipeline := p }
  | .task l =>
    (background l).bind fun l => (s.pipeline.step unset l).map fun p => { s with pipeline := p }

/-- What a step does. -/
inductive Stepped (unset : Stepper → ℤ) (s : TravelSystem) : Label → TravelSystem → Prop
  /-- A message is taken, and its effects are on the agenda. -/
  | message {env : Environment} {r : Receiver} {m : Message} {net : NetState} {es : List Effect}
      (hm : commandHandler env s.net m.toList r.commandType = .ok (net, es)) :
      Stepped unset s (.message env r m) { s with net, agenda := es, origin := s.net.stepper }
  /-- The next effect sends nothing towards the motor. -/
  | passes {e : Effect} {es : List Effect} (hes : s.agenda = e :: es)
      (hmotion : e.motion s.origin = none) : Stepped unset s .act { s with agenda := es }
  /-- The next effect is a step of the motion pipeline. -/
  | sends {e : Effect} {es : List Effect} {l : MotionPipeline.Label Stepper}
      {p : MotionPipeline Stepper} (hes : s.agenda = e :: es) (hmotion : e.motion s.origin = some l)
      (hp : s.pipeline.step unset l = some p) :
      Stepped unset s .act { s with agenda := es, pipeline := p }
  /-- A call returns, or another task makes a step. -/
  | task {l : MotionPipeline.Label Unit} {l' : MotionPipeline.Label Stepper}
      {p : MotionPipeline Stepper} (hl : background l = some l')
      (hp : s.pipeline.step unset l' = some p) :
      Stepped unset s (.task l) { s with pipeline := p }

/-- **What one step can do.** -/
theorem stepped_of_step {unset : Stepper → ℤ} {s t : TravelSystem} {l : Label}
    (h : s.step unset l = some t) : Stepped unset s l t := by
  cases l with
  | message env r m =>
    obtain ⟨-, h⟩ := Option.ite_none_right_eq_some.mp h
    cases hm : commandHandler env s.net m.toList r.commandType with
    | error e => simp [hm] at h
    | ok x =>
      simp only [hm, Option.some.injEq] at h
      exact h ▸ .message hm
  | act =>
    unfold step at h
    cases hes : s.agenda with
    | nil => simp [hes] at h
    | cons e es =>
      cases hmotion : e.motion s.origin with
      | none =>
        simp only [hes, hmotion, Option.some.injEq] at h
        exact h ▸ .passes hes hmotion
      | some l =>
        simp only [hes, hmotion] at h
        obtain ⟨p, hp, rfl⟩ := Option.map_eq_some_iff.mp h
        exact .sends hes hmotion hp
  | task l =>
    obtain ⟨l', hl, h⟩ := Option.bind_eq_some_iff.mp h
    obtain ⟨p, hp, rfl⟩ := Option.map_eq_some_iff.mp h
    exact .task hl hp

/-- Only a message changes the state of the network code. -/
lemma net_of_step {unset : Stepper → ℤ} {s t : TravelSystem} {l : Label}
    (h : s.step unset l = some t) :
    t.net = s.net ∨ ∃ env r m es, l = .message env r m ∧
      commandHandler env s.net m.toList r.commandType = .ok (t.net, es) := by
  cases stepped_of_step h with
  | message hm => exact .inr ⟨_, _, _, _, rfl, hm⟩
  | passes | sends | task => exact .inl rfl

/-- Everything on its way to the motor has a property: `P` for a request that `command_handler` has
still to send, `Q` for a command, both with the record that they come from. -/
structure Sending (unset : Stepper → ℤ) (P : Stepper → Request → Prop)
    (Q : Stepper → StepperCommand → Prop) (s : TravelSystem) : Prop where
  agenda : ∀ e ∈ s.agenda, e.Sends (P s.origin) (Q s.origin)
  commands : s.pipeline.All unset fun x => Q x.1 x.2

section Sending

variable {unset : Stepper → ℤ} {P : Stepper → Request → Prop} {Q : Stepper → StepperCommand → Prop}
  {s t : TravelSystem} {l : Label}

/-- An effect with the property brings commands with the property. -/
lemma brings_motion (hPQ : ∀ a r, P a r → ∀ c ∈ r.commands (unset a), Q a c) {a : Stepper}
    {e : Effect} (he : e.Sends (P a) (Q a)) {l : MotionPipeline.Label Stepper}
    (hl : e.motion a = some l) : Brings unset (fun x => Q x.1 x.2) l := by
  have htagged : ∀ {r : Request}, P a r → ∀ x ∈ tagged unset (a, r), Q x.1 x.2 := by
    intro r hr x hx
    obtain ⟨c, hc, rfl⟩ := List.mem_map.mp hx
    exact hPQ a r hr c hc
  cases e <;> simp only [Effect.motion, Option.some.injEq, reduceCtorEq] at hl <;> subst hl
  · exact he
  all_goals exact htagged he

/-- The other tasks bring nothing new. -/
lemma brings_background {Q : Stepper × StepperCommand → Prop}
    {l : MotionPipeline.Label Unit} {l' : MotionPipeline.Label Stepper}
    (hl : background l = some l') : Brings unset Q l' := by
  cases l <;> simp only [background, Option.some.injEq, reduceCtorEq] at hl <;> subst hl <;>
    exact trivial

/-- Every step keeps the property if the messages bring only effects with the property. -/
lemma sending_step (hPQ : ∀ a r, P a r → ∀ c ∈ r.commands (unset a), Q a c)
    (hs : s.Sending unset P Q)
    (hl : ∀ env r m net es, l = .message env r m →
      commandHandler env s.net m.toList r.commandType = .ok (net, es) →
        ∀ e ∈ es, e.Sends (P s.net.stepper) (Q s.net.stepper))
    (h : s.step unset l = some t) : t.Sending unset P Q := by
  obtain ⟨hagenda, hall⟩ := hs
  cases stepped_of_step h with
  | message hm => exact ⟨hl _ _ _ _ _ rfl hm, hall⟩
  | passes hes =>
    rw [hes] at hagenda
    exact ⟨(List.forall_mem_cons.mp hagenda).2, hall⟩
  | sends hes hmotion hp =>
    rw [hes] at hagenda
    obtain ⟨he, hrest⟩ := List.forall_mem_cons.mp hagenda
    exact ⟨hrest, hall.of_effected (brings_motion hPQ he hmotion) (effected_of_step hp)⟩
  | task hl' hp =>
    exact ⟨hagenda, hall.of_effected (brings_background hl') (effected_of_step hp)⟩

/-- An effect with the property sends requests with the property. -/
lemma of_motion_eq_request {a b : Stepper} {e : Effect} {r : Request}
    (he : e.Sends (P a) (Q a)) (h : e.motion a = some (.request b r)) : P b r := by
  cases e <;> simp only [Effect.motion, Option.some.injEq, reduceCtorEq] at h <;>
    (obtain ⟨rfl, rfl⟩ := MotionPipeline.Label.request.inj h; exact he)

/-- Every step keeps the property of the requests that wait for their generators. -/
lemma queued_step (hs : s.Sending unset P Q)
    (hqueued : ∀ g, ∀ x ∈ (s.pipeline.task g).queue.items, P x.1 x.2)
    (h : s.step unset l = some t) :
    ∀ g, ∀ x ∈ (t.pipeline.task g).queue.items, P x.1 x.2 := by
  cases stepped_of_step h with
  | message | passes => exact hqueued
  | sends hes hmotion hp =>
    intro g x hx
    rcases mem_queue_of_step hp hx with hx | ⟨a, r, rfl, rfl⟩
    · exact hqueued g x hx
    · exact of_motion_eq_request (hs.agenda _ (hes ▸ List.mem_cons_self)) hmotion
  | @task l _ _ hl' hp =>
    intro g x hx
    rcases mem_queue_of_step hp hx with hx | ⟨a, r, rfl, -⟩
    · exact hqueued g x hx
    · cases l <;> simp [background] at hl'

end Sending

/-- Everything on its way to the motor respects the limits that it carries. -/
def Respectful (unset : Stepper → ℤ) (s : TravelSystem) : Prop :=
  (∀ e ∈ s.agenda, e.Respects s.origin) ∧
    s.pipeline.All unset fun x => RespectsLimits x.1 x.2

/-- Respecting the limits is such a property. -/
lemma respectful_iff_sending {unset : Stepper → ℤ} {s : TravelSystem} :
    s.Respectful unset ↔ s.Sending unset (fun a r => r.CarriesLimits a) RespectsLimits := by
  simp only [Respectful, Effect.respects_iff_sends]
  exact ⟨fun h => ⟨h.1, h.2⟩, fun h => ⟨h.1, h.2⟩⟩

/-- Every step keeps the limits respected. -/
lemma respectful_step (unset : Stepper → ℤ) (s : TravelSystem) (l : Label) (t : TravelSystem)
    (hs : s.Respectful unset) (h : s.step unset l = some t) : t.Respectful unset := by
  rw [respectful_iff_sending] at hs ⊢
  refine sending_step (fun a r hr c hc => Request.respectsLimits_of_mem hr hc) hs ?_ h
  intro env r m net es _ hm e he
  exact Effect.respects_iff_sends.mp (respects_commandHandler hm e he)

/-- **Every absolute command respects the limits of its message.** In every run, each command of
type 1 or more that was put on the queue of `stepper_task` carries the limits that were in force
when `command_handler` took the message it comes from, and its target is inside them if they were
in order. -/
theorem respects_of_run {unset : Stepper → ℤ} {net : NetState} {ls : List Label}
    {t : TravelSystem} (h : StepRuns.run (step unset) (boot net) ls = some t) :
    ∀ x ∈ t.pipeline.put, 1 ≤ x.2.type → x.2.min = x.1.min ∧ x.2.max = x.1.max ∧
      (x.1.min ≤ x.1.max → x.1.min ≤ x.2.move ∧ x.2.move ≤ x.1.max) := by
  have hboot : (boot net).Respectful unset := ⟨by simp [boot], all_boot unset _⟩
  exact (StepRuns.invariant_of_run (respectful_step unset) hboot h).2.put

/-- Over TCP: a move to 50. -/
def translate : List Label :=
  [.message .faithful .tcp (.ofText "stepperTranslate 50 1 1"), .act, .task .handlerSend]

/-- The move to 50 is put on the queue, inside its limits. -/
theorem respects_translate : ∃ t, StepRuns.run (step fun _ => 0) (boot .fresh) translate = some t ∧
    ∃ x ∈ t.pipeline.put, x.2.move = 50 ∧ x.2.min = x.1.min ∧ x.2.max = x.1.max ∧
      (x.1.min ≤ x.1.max → x.1.min ≤ x.2.move ∧ x.2.move ≤ x.1.max) := by
  have hrun : (StepRuns.run (step fun _ => 0) (boot .fresh) translate).any (fun t =>
      ∃ x ∈ t.pipeline.put, x.2.move = 50 ∧ 1 ≤ x.2.type) = true := by
    decide +kernel
  obtain ⟨t, ht, x, hx, hmove, htype⟩ := StepRuns.exists_run_of_any hrun
  exact ⟨t, ht, x, hx, hmove, respects_of_run ht x hx htype⟩

/-- The lower limit is set to 500, above the upper one. -/
def setMinTooHigh : List Label :=
  .message .faithful .tcp (.ofText "setMin 500") :: List.replicate 6 .act

/-- A wave to 50 is requested, then the lower limit is set to 60, and only then the wave is made. -/
def setMinDuringWave : List Label :=
  [.message .faithful .tcp (.ofText "stepperWave 0 0 0 1 1 50 1 1"), .act, .task (.take .wave),
    .message .faithful .tcp (.ofText "setMin 60")] ++ List.replicate 6 .act ++
    [.task (.call .wave)]

/-- The limits are in order. -/
def InOrder (s : TravelSystem) (_ : Label) : Prop := s.net.stepper.min ≤ s.net.stepper.max

instance (s : TravelSystem) (l : Label) : Decidable (s.InOrder l) := Int.decLe _ _

/-- In the runs whose steps meet the condition, every absolute command is inside the limits in
force when it is put on the queue. -/
def PutsInside (C : TravelSystem → Label → Prop) : Prop :=
  ∀ (unset : Stepper → ℤ) (net : NetState) (ls : List Label) (s t : TravelSystem) (l : Label)
    (x : Stepper × StepperCommand), net.stepper.min ≤ net.stepper.max →
      StepRuns.run (step unset) (boot net) ls = some s →
        StepRuns.Along (step unset) C (boot net) (ls ++ [l]) → s.step unset l = some t →
          t.pipeline.put = s.pipeline.put ++ [x] → 1 ≤ x.2.type →
            s.net.stepper.min ≤ x.2.move ∧ x.2.move ≤ s.net.stepper.max

/-- A run that ends with an absolute command put outside the limits. -/
lemma not_putsInside {C : TravelSystem → Label → Prop} (ls : List Label) (l : Label)
    (x : Stepper × StepperCommand) (htype : 1 ≤ x.2.type)
    (halong : StepRuns.Along (step fun _ => 0) C (boot .fresh) (ls ++ [l]))
    (hrun : (StepRuns.run (step fun _ => 0) (boot .fresh) ls).any (fun s =>
      ¬ (s.net.stepper.min ≤ x.2.move ∧ x.2.move ≤ s.net.stepper.max) ∧
        (s.step (fun _ => 0) l).any (fun t => t.pipeline.put = s.pipeline.put ++ [x]) = true) =
          true) : ¬ PutsInside C := by
  intro hall
  obtain ⟨s, hs, hout, hstep⟩ := StepRuns.exists_run_of_any hrun
  obtain ⟨t, ht, hput⟩ := (Option.any_eq_true _ _).mp hstep
  exact hout (hall _ _ _ s t l x (by decide) hs halong ht (of_decide_eq_true hput) htype)

/-- A move to 50 between limits that are not in order is put on the queue as a move to 500; and,
also when the limits are in order all the time, a wave to 50 is put on the queue after the lower
limit was set to 60. -/
theorem not_putsInside_limits : ¬ PutsInside (fun _ _ => True) ∧ ¬ PutsInside InOrder := by
  constructor
  · exact not_putsInside (setMinTooHigh ++ translate.take 2) (.task .handlerSend)
      (⟨0, 500, 100, 0, 0⟩, ⟨500, 100, 1, 1, 500, 1, 0⟩) (by decide) (by decide +kernel)
      (by decide +kernel)
  · exact not_putsInside setMinDuringWave (.task (.send .wave))
      (⟨0, 0, 100, 0, 0⟩, ⟨0, 100, 1, 1, 50, 1, 0⟩) (by decide) (by decide +kernel)
      (by decide +kernel)

end TravelSystem

end Strand
