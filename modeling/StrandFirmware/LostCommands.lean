import StrandFirmware.MotionPipeline

/-!
# The commands of a request

A wave request makes one stepper command, a sine or sine-wave request `loops + 1` of them, the last
of which returns to the centre.  Here the requests are numbered in the order in which
`command_handler` sends them, and their commands are followed up to `stepper_task`.

The account of a request is what was put on the queue of `stepper_task` for it and what is still to
be sent.  It can only shrink: it starts whole if the queue of the generator had a free slot, and
loses a command whenever a call of `command_move` gives up (`account_of_effected`).  So a request
arrives whole exactly when none of this happened (`dequeued_eq_iff_along_admitted`).
-/

namespace Strand

open MotionPipeline

/-- The motion pipeline with the requests sent so far, in order. -/
structure NumberedMotion where
  /-- The commands of a request carry its number; those of `command_handler` itself carry none. -/
  pipeline : MotionPipeline (Option ℕ)
  issued : List Request

namespace NumberedMotion

/-- Tag what `command_handler` sends, `n` being the number of the next request. -/
def number (n : ℕ) : Label Unit → Label (Option ℕ)
  | .request _ r => .request (some n) r
  | .move _ c => .move none c
  | .handlerSend => .handlerSend
  | .take g => .take g
  | .call g => .call g
  | .send g => .send g
  | .tick => .tick
  | .dequeue => .dequeue

/-- The request that a step sends. -/
def requested : Label Unit → List Request
  | .request _ r => [r]
  | _ => []

/-- Nothing was sent yet. -/
def boot : NumberedMotion := ⟨MotionPipeline.boot, []⟩

/-- One step of the pipeline; a request is recorded whether or not its queue accepts it. -/
def step (unset : Option ℕ → ℤ) (s : NumberedMotion) (l : Label Unit) : Option NumberedMotion :=
  (s.pipeline.step unset (number s.issued.length l)).map fun p => ⟨p, s.issued ++ requested l⟩

/-- The step drops nothing of a request. -/
def Admitted (s : NumberedMotion) (l : Label Unit) : Prop :=
  s.pipeline.Admitted (number s.issued.length l)

instance (s : NumberedMotion) (l : Label Unit) : Decidable (s.Admitted l) :=
  inferInstanceAs (Decidable (MotionPipeline.Admitted _ _))

/-- No command of a request is on its way. -/
def Drained (s : NumberedMotion) : Prop :=
  s.pipeline.stepperQueue.items = [] ∧
    ∀ g, (s.pipeline.task g).sending = [] ∧ (s.pipeline.task g).queue.items = []

instance (s : NumberedMotion) : Decidable s.Drained := inferInstanceAs (Decidable (_ ∧ _))

/-! ## The account of a request -/

/-- The commands with the number `j`. -/
def commandsOf (j : ℕ) (xs : List (Option ℕ × StepperCommand)) : List StepperCommand :=
  (xs.filter fun x => x.1 = some j).map Prod.snd

@[simp] lemma commandsOf_append (j : ℕ) (xs ys : List (Option ℕ × StepperCommand)) :
    commandsOf j (xs ++ ys) = commandsOf j xs ++ commandsOf j ys := by
  simp [commandsOf]

/-- The first command counts or not. -/
lemma commandsOf_cons (j : ℕ) (x : Option ℕ × StepperCommand)
    (xs : List (Option ℕ × StepperCommand)) :
    commandsOf j (x :: xs) = commandsOf j [x] ++ commandsOf j xs :=
  commandsOf_append j [x] xs

/-- Commands with other numbers do not count. -/
lemma commandsOf_eq_nil {j : ℕ} {xs : List (Option ℕ × StepperCommand)}
    (h : ∀ x ∈ xs, x.1 ≠ some j) : commandsOf j xs = [] := by
  simpa [commandsOf] using h

/-- A command with another number does not count. -/
lemma commandsOf_singleton_of_ne {j : ℕ} {x : Option ℕ × StepperCommand} (h : x.1 ≠ some j) :
    commandsOf j [x] = [] :=
  commandsOf_eq_nil (by simpa using h)

/-- All commands of a request carry its number. -/
lemma commandsOf_tagged_self (unset : Option ℕ → ℤ) (j : ℕ) (r : Request) :
    commandsOf j (tagged unset (some j, r)) = r.commands (unset (some j)) := by
  simp [commandsOf, tagged, List.filter_map, Function.comp_def]

/-- Of a request with another number, nothing counts. -/
lemma commandsOf_tagged_of_ne (unset : Option ℕ → ℤ) {i j : ℕ} (h : i ≠ j) (r : Request) :
    commandsOf j (tagged unset (some i, r)) = [] := by
  apply commandsOf_eq_nil
  intro x hx
  obtain ⟨c, -, rfl⟩ := List.mem_map.mp hx
  simpa using h

/-- What was put on the queue of `stepper_task` for the request `j` and what is still to be sent,
`g` being the generator of the request. -/
def account (unset : Option ℕ → ℤ) (p : MotionPipeline (Option ℕ)) (g : Generator) (j : ℕ) :
    List StepperCommand :=
  commandsOf j p.put ++ commandsOf j (p.toSend unset g)

/-- The account of every request is whole. -/
def Accounted (unset : Option ℕ → ℤ) (s : NumberedMotion) : Prop :=
  ∀ j r, s.issued[j]? = some r →
    account unset s.pipeline r.generator j = r.commands (unset (some j))

/-- What holds in every state: numbers are those of requests that were sent, a generator sends
commands of its own requests only, and an account never holds more than the request. -/
structure Consistent (unset : Option ℕ → ℤ) (s : NumberedMotion) : Prop where
  put_lt : ∀ x ∈ s.pipeline.put, ∀ j, x.1 = some j → j < s.issued.length
  offered_untagged : ∀ x, s.pipeline.offered = some x → x.1 = none
  toSend_tag : ∀ g, ∀ x ∈ s.pipeline.toSend unset g,
    ∃ j r, x.1 = some j ∧ s.issued[j]? = some r ∧ r.generator = g
  account_sublist : ∀ j r, s.issued[j]? = some r →
    (account unset s.pipeline r.generator j).Sublist (r.commands (unset (some j)))

/-- A step that tags a request tags it with the next number. -/
lemma number_eq_request {n : ℕ} {l : Label Unit} {a : Option ℕ} {r : Request}
    (h : number n l = .request a r) : a = some n ∧ requested l = [r] := by
  cases l <;> simp [number] at h
  obtain ⟨rfl, rfl⟩ := h
  exact ⟨rfl, rfl⟩

/-- A step that tags a command of `command_handler` gives it no number. -/
lemma number_eq_move {n : ℕ} {l : Label Unit} {a : Option ℕ} {c : StepperCommand}
    (h : number n l = .move a c) : a = none := by
  cases l <;> simp [number] at h
  exact h.1.symm

/-- **One step and the account** of a request that was sent before: a step may only shorten it, and
an admitted step keeps it. -/
theorem account_of_effected {unset : Option ℕ → ℤ} {s : NumberedMotion} (hs : s.Consistent unset)
    {q : MotionPipeline (Option ℕ)} {l : Label Unit}
    (h : Effected unset s.pipeline q (number s.issued.length l)) {j : ℕ} {r : Request}
    (hj : s.issued[j]? = some r) :
    (account unset q r.generator j).Sublist (account unset s.pipeline r.generator j) ∧
      (s.Admitted l → account unset q r.generator j = account unset s.pipeline r.generator j) := by
  have hlt : j < s.issued.length := (List.getElem?_eq_some_iff.mp hj).1
  -- a command of another generator has another number
  have hother : ∀ g x, x ∈ s.pipeline.toSend unset g → g ≠ r.generator → x.1 ≠ some j := by
    intro g x hx hg hxj
    obtain ⟨i, r', hi, hr', hgen⟩ := hs.toSend_tag g x hx
    obtain rfl : i = j := Option.some.inj (hi.symm.trans hxj)
    obtain rfl : r' = r := Option.some.inj (hr'.symm.trans hj)
    exact hg hgen.symm
  suffices hsame : account unset q r.generator j = account unset s.pipeline r.generator j ∨
      ¬ s.Admitted l ∧
        (account unset q r.generator j).Sublist (account unset s.pipeline r.generator j) by
    rcases hsame with heq | ⟨hadm, hsub⟩
    · exact ⟨heq ▸ List.Sublist.refl _, fun _ => heq⟩
    · exact ⟨hsub, fun h => absurd h hadm⟩
  unfold Admitted
  generalize hl : number s.issued.length l = l' at h ⊢
  cases h with
  | quiet hl' hadm hput hsend hoffer => exact .inl (by rw [account, account, hput, hsend])
  | moved a c hput hsend hoffer => exact .inl (by rw [account, account, hput, hsend])
  | handled x hoffered hput hsend hoffer =>
    have hx : x.1 ≠ some j := by simp [hs.offered_untagged x hoffered]
    left
    rw [account, account, hput, hsend, commandsOf_append, commandsOf_singleton_of_ne hx,
      List.append_nil]
  | sent g x hadm hhead hsend hput hoffer =>
    left
    rw [account, account, hput, commandsOf_append]
    by_cases hg : r.generator = g
    · subst hg
      rw [hhead, commandsOf_cons j x (q.toSend unset _), List.append_assoc]
    · have hx := hother g x (hhead ▸ List.mem_cons_self) (Ne.symm hg)
      rw [hsend _ hg, commandsOf_singleton_of_ne hx, List.append_nil]
  | dropped g x hadm hhead hsend hput hoffer =>
    by_cases hg : r.generator = g
    · subst hg
      refine .inr ⟨hadm, ?_⟩
      rw [account, account, hput, hhead, commandsOf_cons]
      exact (List.sublist_append_right _ _).append_left _
    · exact .inl (by rw [account, account, hput, hsend _ hg])
  | requested a r' hadm hself hsend hput hoffer =>
    obtain ⟨rfl, -⟩ := number_eq_request hl
    left
    rw [account, account, hput]
    by_cases hg : r.generator = r'.generator
    · rw [hg, hself, commandsOf_append, commandsOf_tagged_of_ne unset hlt.ne', List.append_nil]
    · rw [hsend _ hg]
  | refused a r' hadm hsend hput hoffer => exact .inl (by rw [account, account, hput, hsend])

/-- **One step and the tags.** -/
theorem tags_of_effected {unset : Option ℕ → ℤ} {s : NumberedMotion} (hs : s.Consistent unset)
    {q : MotionPipeline (Option ℕ)} {l : Label Unit}
    (h : Effected unset s.pipeline q (number s.issued.length l)) :
    (∀ x ∈ q.put, ∀ j, x.1 = some j → j < s.issued.length) ∧
      (∀ x, q.offered = some x → x.1 = none) ∧
      ∀ g, ∀ x ∈ q.toSend unset g, ∃ j r, x.1 = some j ∧
        (s.issued ++ requested l)[j]? = some r ∧ r.generator = g := by
  refine ⟨?_, ?_, ?_⟩
  · intro x hx j hxj
    rcases h.mem_put hx with hx | hx | ⟨g, hx⟩
    · exact hs.put_lt x hx j hxj
    · simp [hs.offered_untagged x hx] at hxj
    · obtain ⟨i, r, hi, hr, -⟩ := hs.toSend_tag g x hx
      obtain rfl : i = j := Option.some.inj (hi.symm.trans hxj)
      exact (List.getElem?_eq_some_iff.mp hr).1
  · intro x hx
    rcases h.eq_offered hx with hx | ⟨a, c, hl, rfl⟩
    · exact hs.offered_untagged x hx
    · exact number_eq_move hl
  · intro g x hx
    rcases h.mem_toSend hx with hx | ⟨a, r, hl, hg, hx⟩
    · -- a tag remains good when a request is recorded
      obtain ⟨j, r, hj, hr, hg⟩ := hs.toSend_tag g x hx
      refine ⟨j, r, hj, ?_, hg⟩
      rw [List.getElem?_append_left (List.getElem?_eq_some_iff.mp hr).1, hr]
    · obtain ⟨rfl, hreq⟩ := number_eq_request hl
      obtain ⟨c, -, rfl⟩ := List.mem_map.mp hx
      exact ⟨s.issued.length, r, rfl, by simp [hreq], hg⟩

/-- A request that was just sent is whole if its queue accepted it, and empty otherwise. -/
lemma account_requested {unset : Option ℕ → ℤ} {s : NumberedMotion} (hs : s.Consistent unset)
    {q : MotionPipeline (Option ℕ)} {l : Label Unit} {r : Request} (hreq : requested l = [r])
    (h : Effected unset s.pipeline q (number s.issued.length l)) :
    s.Admitted l ∧ account unset q r.generator s.issued.length =
        r.commands (unset (some s.issued.length)) ∨
      ¬ s.Admitted l ∧ account unset q r.generator s.issued.length = [] := by
  have hput : commandsOf s.issued.length s.pipeline.put = [] :=
    commandsOf_eq_nil fun x hx hxj => lt_irrefl _ (hs.put_lt x hx _ hxj)
  have hsend : ∀ g, commandsOf s.issued.length (s.pipeline.toSend unset g) = [] := by
    intro g
    apply commandsOf_eq_nil
    intro x hx hxj
    obtain ⟨i, r', hi, hr', -⟩ := hs.toSend_tag g x hx
    obtain rfl : i = s.issued.length := Option.some.inj (hi.symm.trans hxj)
    simp at hr'
  have hrec : ∃ r', number s.issued.length l = .request (some s.issued.length) r' ∧ r' = r := by
    cases l <;> simp [requested, number] at hreq ⊢
    exact hreq
  obtain ⟨r', hl, rfl⟩ := hrec
  unfold Admitted
  rw [hl] at h ⊢
  cases h with
  | quiet hl' hadm hput' hsend' hoffer => exact absurd rfl (hl' _ _)
  | requested a r hadm hself hsend' hput' hoffer =>
    refine .inl ⟨hadm, ?_⟩
    rw [account, hput', hput, hself, commandsOf_append, hsend, commandsOf_tagged_self]
    rfl
  | refused a r hadm hsend' hput' hoffer =>
    refine .inr ⟨hadm, ?_⟩
    rw [account, hput', hput, hsend', hsend]
    rfl

/-! ## Whole runs -/

/-- A request of the list after a step was sent before, or is sent by the step. -/
lemma getElem?_issued_cases {s : NumberedMotion} {l : Label Unit} {j : ℕ} {r : Request}
    (h : (s.issued ++ requested l)[j]? = some r) :
    s.issued[j]? = some r ∨ j = s.issued.length ∧ requested l = [r] := by
  rcases lt_or_ge j s.issued.length with hj | hj
  · rw [List.getElem?_append_left hj] at h
    exact .inl h
  · rw [List.getElem?_append_right hj] at h
    cases l with
    | request a r' =>
      obtain ⟨hzero, rfl⟩ : j - s.issued.length = 0 ∧ r' = r := by
        simpa [requested, List.getElem?_singleton, eq_comm] using h
      exact .inr ⟨by omega, rfl⟩
    | _ => simp [requested] at h

/-- Every step keeps the numbers right and lets no account grow. -/
lemma consistent_step (unset : Option ℕ → ℤ) (s : NumberedMotion) (l : Label Unit)
    (t : NumberedMotion) (hs : s.Consistent unset) (h : s.step unset l = some t) :
    t.Consistent unset := by
  obtain ⟨q, hq, rfl⟩ := Option.map_eq_some_iff.mp h
  have heff := effected_of_step hq
  obtain ⟨hput, hoffered, hsend⟩ := tags_of_effected hs heff
  refine ⟨fun x hx j hj => ?_, hoffered, hsend, fun j r hj => ?_⟩
  · have := hput x hx j hj
    rw [List.length_append]
    omega
  · rcases getElem?_issued_cases hj with hold | ⟨rfl, hreq⟩
    · exact (account_of_effected hs heff hold).1.trans (hs.account_sublist j r hold)
    · rcases account_requested hs hreq heff with ⟨-, haccount⟩ | ⟨-, haccount⟩
      · rw [haccount]
      · rw [haccount]
        exact List.nil_sublist _

/-- A step that drops something leaves an account that is not whole. -/
lemma not_accounted_of_not_admitted {unset : Option ℕ → ℤ} {s t : NumberedMotion} {l : Label Unit}
    (hs : s.Consistent unset) (h : s.step unset l = some t) (hadm : ¬ s.Admitted l) :
    ¬ t.Accounted unset := by
  obtain ⟨q, hq, rfl⟩ := Option.map_eq_some_iff.mp h
  have heff := effected_of_step hq
  intro hacc
  have heff' := heff
  unfold Admitted at hadm
  generalize hl : number s.issued.length l = l' at heff' hadm
  cases heff' with
  | quiet hl' hadm' hput hsend hoffer => exact hadm hadm'
  | moved a c hput hsend hoffer => exact hadm trivial
  | handled x hoffered hput hsend hoffer => exact hadm trivial
  | sent g x hadm' hhead hsend hput hoffer => exact hadm hadm'
  | requested a r hadm' hself hsend hput hoffer => exact hadm hadm'
  | dropped g x hadm' hhead hsend hput hoffer =>
    -- the account of the request that `x` belongs to has become shorter
    obtain ⟨j, r, hxj, hj, rfl⟩ := hs.toSend_tag g x (hhead ▸ List.mem_cons_self)
    have hlonger : (account unset s.pipeline r.generator j).length =
        (account unset q r.generator j).length + 1 := by
      have hx : commandsOf j [x] = [x.2] := by simp [commandsOf, hxj]
      rw [account, account, hput, hhead, commandsOf_cons, hx]
      simp only [List.length_append, List.length_singleton]
      omega
    have hle := (hs.account_sublist j r hj).length_le
    have hwhole := hacc j r (by
      rw [List.getElem?_append_left (List.getElem?_eq_some_iff.mp hj).1, hj])
    rw [hwhole] at hlonger
    omega
  | refused a r hadm' hsend hput hoffer =>
    obtain ⟨rfl, hreq⟩ := number_eq_request hl
    rcases account_requested hs hreq heff with ⟨hadm', -⟩ | ⟨-, hnil⟩
    · exact hadm (by rw [← hl]; exact hadm')
    · have hwhole := hacc s.issued.length r (by simp [hreq])
      exact Request.commands_ne_nil _ r (hwhole.symm.trans hnil)

/-- A step keeps the accounts whole exactly when it drops nothing. -/
lemma accounted_step_iff (unset : Option ℕ → ℤ) (s : NumberedMotion) (l : Label Unit)
    (t : NumberedMotion) (hs : s.Consistent unset) (h : s.step unset l = some t) :
    t.Accounted unset ↔ s.Accounted unset ∧ s.Admitted l := by
  obtain ⟨q, hq, rfl⟩ := Option.map_eq_some_iff.mp h
  have heff := effected_of_step hq
  constructor
  · intro hacc
    have hadm : s.Admitted l := by
      by_contra hadm
      exact not_accounted_of_not_admitted hs h hadm hacc
    refine ⟨fun j r hj => ?_, hadm⟩
    rw [← (account_of_effected hs heff hj).2 hadm]
    exact hacc j r (by rw [List.getElem?_append_left (List.getElem?_eq_some_iff.mp hj).1, hj])
  · rintro ⟨hacc, hadm⟩ j r hj
    rcases getElem?_issued_cases hj with hold | ⟨rfl, hreq⟩
    · exact ((account_of_effected hs heff hold).2 hadm).trans (hacc j r hold)
    · rcases account_requested hs hreq heff with ⟨-, haccount⟩ | ⟨hnot, -⟩
      · exact haccount
      · exact absurd hadm hnot

/-- At the start nothing was sent. -/
lemma consistent_boot (unset : Option ℕ → ℤ) : boot.Consistent unset where
  put_lt := by simp [boot, MotionPipeline.boot, put]
  offered_untagged := by simp [boot, MotionPipeline.boot, offered]
  toSend_tag := by simp [boot, MotionPipeline.boot, toSend]
  account_sublist := by simp [boot]

/-- When nothing is on its way, the account of a request is what `stepper_task` received. -/
lemma account_of_drained (unset : Option ℕ → ℤ) {s : NumberedMotion} (hs : s.Drained)
    (g : Generator) (j : ℕ) :
    account unset s.pipeline g j = commandsOf j s.pipeline.dequeued := by
  obtain ⟨hqueue, htask⟩ := hs
  simp [account, put, toSend, hqueue, htask g, commandsOf]

/-- **Every request reaches the motor whole** exactly in the runs that drop nothing: when nothing
is on its way any more, `stepper_task` has received for each request its full sequence of commands,
in order and without gaps, if and only if each request found a free slot in the queue of its
generator and each call of `command_move` by a generator found one in the queue of `stepper_task`
before its time was over. -/
theorem dequeued_eq_iff_along_admitted (unset : Option ℕ → ℤ) {ls : List (Label Unit)}
    {s : NumberedMotion} (h : StepRuns.run (step unset) boot ls = some s) (hs : s.Drained) :
    (∀ j r, s.issued[j]? = some r →
      commandsOf j s.pipeline.dequeued = r.commands (unset (some j))) ↔
      StepRuns.Along (step unset) Admitted boot ls := by
  have hboot : boot.Accounted unset := by simp [Accounted, boot]
  have hiff := StepRuns.iff_along_of_run (consistent_step unset) (accounted_step_iff unset)
    (consistent_boot unset) h
  rw [and_iff_right hboot] at hiff
  rw [← hiff]
  simp only [Accounted, account_of_drained unset hs]

/-- The sine request of `stepperSine 100 1000 1000 40 10` on a device with limits 0 and 500. -/
def swing : Request := .sine (sineCommand 1 100 1000 1000 0 500 40 10)

/-- A wave request for a move to 100. -/
def ripple : Request := .wave (waveCommand 0 0 0 1000 1 100 1000 1000 0 500)

/-- The steps that bring one command of a generator to the queue. -/
def sendOne (g : Generator) : List (Label Unit) := [.call g, .send g]

/-- The sine request of `stepperSine 100 1000 1000 3 10`. -/
def sway : Request := .sine (sineCommand 1 100 1000 1000 0 500 3 10)

/-- A sine request of three loops and a wave request are made at the same time. -/
def swayAndRipple : List (Label Unit) :=
  [.request () sway, .request () ripple, .take .sine, .take .wave, .call .sine, .call .wave,
    .send .wave, .send .sine, .dequeue] ++ (List.replicate 3 (sendOne .sine)).flatten ++
    [.tick] ++ List.replicate 4 .dequeue

/-- The four commands of the sine request and the one of the wave request arrive. -/
theorem dequeued_sway_and_ripple : ∃ s, StepRuns.run (step fun _ => 0) boot swayAndRipple = some s ∧
    s.issued = [sway, ripple] ∧
    s.pipeline.dequeued.map Prod.fst = [some 1, some 0, some 0, some 0, some 0] ∧
    ∀ j r, s.issued[j]? = some r → commandsOf j s.pipeline.dequeued = r.commands 0 := by
  have hrun : (StepRuns.run (step fun _ => 0) boot swayAndRipple).any (fun s =>
      s.Drained ∧ s.issued = [sway, ripple] ∧
        s.pipeline.dequeued.map Prod.fst = [some 1, some 0, some 0, some 0, some 0]) = true := by
    decide +kernel
  obtain ⟨s, hs, hdrained, hissued, harrived⟩ := StepRuns.exists_run_of_any hrun
  refine ⟨s, hs, hissued, harrived, ?_⟩
  exact (dequeued_eq_iff_along_admitted _ hs hdrained).mpr (by decide +kernel)

/-- A sine request of 40 loops makes 41 commands.  While `stepper_task` is busy with an earlier
move, 40 of them fill its queue, and the last one, the return to the centre, is dropped. -/
def swingWhileBusy : List (Label Unit) :=
  [.request () swing, .take .sine] ++ (List.replicate 40 (sendOne .sine)).flatten ++
    [.call .sine] ++ List.replicate 20 .tick ++ [.send .sine] ++ List.replicate 40 .dequeue

/-- The commands that arrive are not always the full sequence. -/
theorem not_dequeued_eq_swing : ¬ ∀ (unset : Option ℕ → ℤ) (ls : List (Label Unit))
    (s : NumberedMotion), StepRuns.run (step unset) boot ls = some s → s.Drained →
      ∀ j r, s.issued[j]? = some r →
        commandsOf j s.pipeline.dequeued = r.commands (unset (some j)) := by
  intro hall
  have hlost : (StepRuns.run (step fun _ => 0) boot swingWhileBusy).any (fun s =>
      s.Drained ∧ s.issued = [swing] ∧ (commandsOf 0 s.pipeline.dequeued).length = 40) = true := by
    decide +kernel
  obtain ⟨s, hs, hdone⟩ := (Option.any_eq_true _ _).mp hlost
  obtain ⟨hdrained, hissued, hlength⟩ := of_decide_eq_true hdone
  have hwhole := hall _ _ s hs hdrained 0 swing (by simp [hissued])
  rw [hwhole] at hlength
  simp [swing, Request.commands, length_sineTaskCommands, sineCommand] at hlength

end NumberedMotion

end Strand
