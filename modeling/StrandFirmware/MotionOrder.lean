import StrandFirmware.MotionPipeline

/-!
# The order of the commands

Four tasks send to the queue of `stepper_task`, and their commands may mix in any way.  The commands
of one task stay in order: what has arrived of them, what waits and what is still to be sent, taken
together, is what the task was asked for, less what was dropped (`inOrder_run`).  So `stepper_task`
receives no command twice, none that was not sent, and never two of one task the wrong way round.

The tags tell who sent a command, `none` being `command_handler` itself.
-/

namespace Strand

namespace MotionPipeline

variable {τ : Type*} {unset : τ → ℤ} {origin : τ → Option Generator} {s t : MotionPipeline τ}

/-- The tag of a step tells the task that its commands come from. -/
def Labelled (origin : τ → Option Generator) : Label τ → Prop
  | .request a r => origin a = some r.generator
  | .move a _ => origin a = none
  | _ => True

instance (origin : τ → Option Generator) (l : Label τ) : Decidable (Labelled origin l) :=
  match l with
  | .request .. | .move .. => inferInstanceAs (Decidable (_ = _))
  | .handlerSend | .take _ | .call _ | .send _ | .tick | .dequeue => .isTrue trivial

/-- The commands that a step asks a task for. -/
def askedOf (unset : τ → ℤ) (g : Option Generator) : Label τ → List (τ × StepperCommand)
  | .request a r => if g = some r.generator then tagged unset (a, r) else []
  | .move a c => if g = none then [(a, c)] else []
  | _ => []

/-- The commands that a task has still to send. -/
def unsent (unset : τ → ℤ) (s : MotionPipeline τ) : Option Generator → List (τ × StepperCommand)
  | some g => s.toSend unset g
  | none => s.offered.toList

/-- The commands of a task that were put on the queue of `stepper_task` since the start. -/
def putBy (origin : τ → Option Generator) (s : MotionPipeline τ) (g : Option Generator) :
    List (τ × StepperCommand) :=
  s.put.filter fun x => origin x.1 = g

/-- The commands of each task are in the order `asked`, and a task sends only its own. -/
structure InOrder (unset : τ → ℤ) (origin : τ → Option Generator) (s : MotionPipeline τ)
    (asked : Option Generator → List (τ × StepperCommand)) : Prop where
  sublist : ∀ g, (s.putBy origin g ++ s.unsent unset g).Sublist (asked g)
  own : ∀ g, ∀ x ∈ s.unsent unset g, origin x.1 = g

/-- A command put on the queue is the last one of its task. -/
lemma putBy_append {x : τ × StepperCommand} (h : t.put = s.put ++ [x]) (g : Option Generator) :
    t.putBy origin g = if origin x.1 = g then s.putBy origin g ++ [x] else s.putBy origin g := by
  unfold putBy
  rw [h, List.filter_append]
  split
  next hx => simp [hx]
  next hx => simp [hx]

/-- Nothing was put on the queue. -/
lemma putBy_congr (h : t.put = s.put) (g : Option Generator) :
    t.putBy origin g = s.putBy origin g := by
  rw [putBy, h, putBy]

/-- The commands of a request carry its tag. -/
lemma origin_of_mem_tagged {a : τ} {r : Request} {x : τ × StepperCommand}
    (hx : x ∈ tagged unset (a, r)) : x.1 = a := by
  obtain ⟨c, -, rfl⟩ := List.mem_map.mp hx
  rfl

/-- The head of what a task sends moves to the queue. -/
lemma InOrder.moveHead {asked : Option Generator → List (τ × StepperCommand)}
    (hs : s.InOrder unset origin asked) {g : Option Generator} {x : τ × StepperCommand}
    (hhead : s.unsent unset g = x :: t.unsent unset g)
    (hothers : ∀ g' ≠ g, t.unsent unset g' = s.unsent unset g') (hput : t.put = s.put ++ [x]) :
    t.InOrder unset origin asked := by
  have hx : origin x.1 = g := hs.own g x (hhead ▸ List.mem_cons_self)
  refine ⟨fun g' => ?_, fun g' y hy => ?_⟩
  · have hsub := hs.sublist g'
    rw [putBy_append hput, hx]
    by_cases hg : g' = g
    · subst hg
      rw [hhead] at hsub
      rwa [if_pos rfl, List.append_assoc, List.singleton_append]
    · rwa [if_neg (Ne.symm hg), hothers g' hg]
  · by_cases hg : g' = g
    · subst hg
      exact hs.own g' y (hhead ▸ List.mem_cons_of_mem x hy)
    · exact hs.own g' y (hothers g' hg ▸ hy)

/-- What a task sends becomes less, and nothing is put on the queue. -/
lemma InOrder.drop {asked : Option Generator → List (τ × StepperCommand)}
    (hs : s.InOrder unset origin asked)
    (hless : ∀ g, (t.unsent unset g).Sublist (s.unsent unset g)) (hput : t.put = s.put) :
    t.InOrder unset origin asked := by
  refine ⟨fun g => ?_, fun g x hx => hs.own g x ((hless g).subset hx)⟩
  rw [putBy_congr hput]
  exact ((hless g).append_left _).trans (hs.sublist g)

/-- A task is asked for more. -/
lemma InOrder.mono {asked asked' : Option Generator → List (τ × StepperCommand)}
    (hs : s.InOrder unset origin asked) (h : ∀ g, (asked g).Sublist (asked' g)) :
    s.InOrder unset origin asked' :=
  ⟨fun g => (hs.sublist g).trans (h g), hs.own⟩

/-- **One step keeps the order.** -/
theorem inOrder_step {asked : Option Generator → List (τ × StepperCommand)} {l : Label τ}
    (hs : s.InOrder unset origin asked) (hl : Labelled origin l) (h : s.step unset l = some t) :
    t.InOrder unset origin fun g => asked g ++ askedOf unset g l := by
  have hmore : ∀ g, (asked g).Sublist (asked g ++ askedOf unset g l) :=
    fun g => List.sublist_append_left _ _
  cases effected_of_step h with
  | quiet hne hadm hput hsend hoffer =>
    refine (hs.drop (fun g => ?_) hput).mono hmore
    rcases g with _ | g
    · rcases hoffer with hoffer | hoffer
      · simp [unsent, hoffer]
      · simp [unsent, hoffer]
    · simp [unsent, hsend]
  | moved a c hput hsend hoffer =>
    refine ⟨fun g => ?_, fun g x hx => ?_⟩
    · rw [putBy_congr hput]
      rcases g with _ | g
      · have hkept := (List.sublist_append_left _ _).trans (hs.sublist none)
        simpa [unsent, askedOf, hoffer] using hkept.append_right [(a, c)]
      · simpa [unsent, askedOf, hsend] using hs.sublist (some g)
    · rcases g with _ | g
      · obtain rfl : x = (a, c) := by simpa [unsent, hoffer] using hx
        exact hl
      · exact hs.own (some g) x (by simpa [unsent, hsend] using hx)
  | handled x hoffered hput hsend hoffer =>
    refine (hs.moveHead (g := none) (x := x) ?_ (fun g' hg => ?_) hput).mono hmore
    · simp [unsent, hoffered, hoffer]
    · obtain ⟨g, rfl⟩ := Option.ne_none_iff_exists'.mp hg
      exact hsend g
  | sent g x hadm hhead hsend hput hoffer =>
    refine (hs.moveHead (g := some g) (x := x) hhead (fun g' hg => ?_) hput).mono hmore
    rcases g' with _ | g'
    · simp [unsent, hoffer]
    · exact hsend g' fun heq => hg (congrArg some heq)
  | dropped g x hadm hhead hsend hput hoffer =>
    refine (hs.drop (fun g' => ?_) hput).mono hmore
    rcases g' with _ | g'
    · simp [unsent, hoffer]
    · by_cases hg : g' = g
      · subst hg
        simp [unsent, hhead]
      · simp [unsent, hsend g' hg]
  | requested a r hadm hself hsend hput hoffer =>
    refine ⟨fun g => ?_, fun g x hx => ?_⟩
    · rw [putBy_congr hput]
      rcases g with _ | g
      · simpa [unsent, askedOf, hoffer] using hs.sublist none
      · by_cases hg : g = r.generator
        · subst hg
          have hold := (hs.sublist (some r.generator)).append_right (tagged unset (a, r))
          simpa [unsent, askedOf, hself] using hold
        · simpa [unsent, askedOf, hsend g hg, hg] using hs.sublist (some g)
    · rcases g with _ | g
      · exact hs.own none x (by simpa [unsent, hoffer] using hx)
      · by_cases hg : g = r.generator
        · subst hg
          have hx' : x ∈ t.toSend unset r.generator := hx
          rw [hself, List.mem_append] at hx'
          rcases hx' with hx | hx
          · exact hs.own (some r.generator) x hx
          · rw [origin_of_mem_tagged hx]
            exact hl
        · exact hs.own (some g) x (by simpa [unsent, hsend g hg] using hx)
  | refused a r hadm hsend hput hoffer =>
    refine (hs.drop (fun g => ?_) hput).mono hmore
    rcases g with _ | g
    · simp [unsent, hoffer]
    · simp [unsent, hsend]

/-- **The commands of each task stay in order.**  In every run from the start, what was put on the
queue of `stepper_task` for a task, followed by what the task has still to send, is a sublist of
what the task was asked for. -/
theorem inOrder_run {ls : List (Label τ)} (hls : ∀ l ∈ ls, Labelled origin l)
    (hrun : StepRuns.run (step unset) boot ls = some t) (g : Option Generator) :
    (t.putBy origin g ++ t.unsent unset g).Sublist (ls.flatMap (askedOf unset g)) := by
  have hboot : (boot : MotionPipeline τ).InOrder unset origin fun g =>
      [].flatMap (askedOf unset g) := by
    refine ⟨fun g => ?_, fun g x hx => ?_⟩
    · cases g <;> simp [putBy, put, unsent, boot, toSend, offered]
    · cases g <;> simp [unsent, boot, toSend, offered] at hx
  -- the labels so far say what every task was asked for
  have hsteps : ∀ (s : MotionPipeline τ) l t past,
      s.InOrder unset origin (fun g => past.flatMap (askedOf unset g)) → Labelled origin l →
      s.step unset l = some t →
      t.InOrder unset origin (fun g => (past ++ [l]).flatMap (askedOf unset g)) := by
    intro s l t past hs hl h
    simpa using inOrder_step hs hl h
  have ht :=
    StepRuns.invariant_outputs_of_run_along hsteps hboot (StepRuns.along_of_forall hls) hrun
  rw [StepRuns.outputs_eq_flatMap hrun, List.nil_append, List.flatMap_singleton'] at ht
  exact ht.sublist g

/-- A move to 10 by `command_handler` between the two commands of a sine request around 50. -/
def moveAmongSine : List (Label (Option Generator)) :=
  [.request (some .sine) (.sine (sineCommand 1 50 20 30 0 100 1 5)), .take .sine, .call .sine,
    .send .sine, .move none (commandMove 0 1 10 20 30 0 0 100), .handlerSend, .call .sine,
    .send .sine, .dequeue, .dequeue, .dequeue]

/-- The two commands of the request arrive in order. -/
theorem inOrder_run_sine : ∃ t, StepRuns.run (step fun _ => 0) boot moveAmongSine = some t ∧
    (t.putBy id (some .sine) ++ t.unsent (fun _ => 0) (some .sine)).Sublist
      (tagged (fun _ => 0) (some .sine, .sine (sineCommand 1 50 20 30 0 100 1 5))) ∧
    t.dequeued.length = 3 := by
  obtain ⟨t, hrun⟩ : ∃ t, StepRuns.run (step fun _ => 0) boot moveAmongSine = some t := ⟨_, rfl⟩
  have hlabelled : ∀ l ∈ moveAmongSine, Labelled id l := by decide
  refine ⟨t, hrun, inOrder_run hlabelled hrun (some .sine), ?_⟩
  obtain rfl := Option.some.inj hrun
  rfl

end MotionPipeline

end Strand
