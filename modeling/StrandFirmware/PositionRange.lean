import StrandFirmware.MotionTasks

/-!
# The range of the position arithmetic

A generator adds and subtracts the offset of its request and subtracts the origin from the location
of the device; `stepper_task` subtracts its position from the target and multiplies by `factor`.
The numbers are `int`s, the product is a `float`, and nothing bounds them: the targets are clamped
to limits that another message may have set to anything.

`WithinRange` says how far apart the numbers of a step may be.  For `stepper_task` the bounds are
95021396 millimetres forwards and 95021403 backwards, since the steps have to fit as well and the
product is rounded: between 2^30 and 2^31 the `float`s are 128 apart.  A run computes nothing
outside the range of `int` exactly when all its steps are within range; what comes after the first
result outside does not matter for this.

The numbers of a step come from the messages.  `Confined` bounds these: travel limits inside a
window, locations and origins inside a room, and offsets that leave room on both sides of their
targets keep every step within range (`isInt32_iff_along_withinRange`).
-/

namespace Strand

open Rounding
open Arithmetic (float32)

/-! ## What fits into an `int` -/

/-- The largest distance forwards, in millimetres, whose steps fit into an `int`. -/
abbrev MAX_DISTANCE : ℤ := 95021396

/-- The largest distance backwards. -/
abbrev MAX_RETURN : ℤ := 95021403

namespace Arithmetic

/-- The product depends on the displacement alone. -/
lemma product_eq (position target : ℤ) :
    float32.product position target = float32.product 0 (target - position) := by
  rw [product, product, sub_zero]

/-- The product grows with the displacement. -/
lemma monotone_product : Monotone (float32.product 0) := by
  have hround : Monotone float32.round := monotone_roundTo (p := 24) (by norm_num)
  have hfactor : 0 ≤ float32.round factor := by decide +kernel
  intro d e hde
  have hcast : ((d - 0 : ℤ) : ℚ) ≤ ((e - 0 : ℤ) : ℚ) := by exact_mod_cast (by omega : d - 0 ≤ e - 0)
  exact hround (mul_le_mul_of_nonneg_right (hround hcast) hfactor)

/-- The steps of a displacement fit into an `int` from `-MAX_RETURN` to `MAX_DISTANCE`. -/
lemma isInt32_product_iff {position target : ℤ} :
    IsInt32 (truncate (float32.product position target)) ↔
      -MAX_RETURN ≤ target - position ∧ target - position ≤ MAX_DISTANCE := by
  rw [product_eq]
  generalize target - position = d
  have hmono : Monotone fun d => truncate (float32.product 0 d) :=
    monotone_truncate.comp monotone_product
  -- the products at the two bounds and behind them
  have hlast : truncate (float32.product 0 MAX_DISTANCE) < 2 ^ 31 := by decide +kernel
  have hover : 2 ^ 31 ≤ truncate (float32.product 0 (MAX_DISTANCE + 1)) := by decide +kernel
  have hfirst : -2 ^ 31 ≤ truncate (float32.product 0 (-MAX_RETURN)) := by decide +kernel
  have hunder : truncate (float32.product 0 (-MAX_RETURN - 1)) < -2 ^ 31 := by decide +kernel
  constructor
  · rintro ⟨hlow, hhigh⟩
    refine ⟨?_, ?_⟩
    · by_contra hd
      have hle : truncate (float32.product 0 d) ≤ truncate (float32.product 0 (-MAX_RETURN - 1)) :=
        hmono (by omega)
      omega
    · by_contra hd
      have hle : truncate (float32.product 0 (MAX_DISTANCE + 1)) ≤ truncate (float32.product 0 d) :=
        hmono (by omega)
      omega
  · rintro ⟨hlow, hhigh⟩
    exact ⟨hfirst.trans (hmono hlow), (hmono hhigh).trans_lt hlast⟩

end Arithmetic

/-- A difference fits into an `int`. -/
lemma isInt32_sub_iff {a b : ℤ} : IsInt32 (a - b) ↔ a - 2 ^ 31 < b ∧ b ≤ a + 2 ^ 31 := by
  unfold IsInt32
  omega

/-- The origin is near enough to the location for all coordinate differences. -/
def Location.Reaches (l : Location) (x y z : ℤ) : Prop :=
  (l.x - 2 ^ 31 < x ∧ x ≤ l.x + 2 ^ 31) ∧ (l.y - 2 ^ 31 < y ∧ y ≤ l.y + 2 ^ 31) ∧
    l.z - 2 ^ 31 < z ∧ z ≤ l.z + 2 ^ 31

/-- The coordinate differences fit. -/
lemma reaches_iff {l : Location} {x y z : ℤ} :
    l.Reaches x y z ↔ ∀ v ∈ coordinateDifferences l x y z, IsInt32 v := by
  simp only [Location.Reaches, coordinateDifferences, List.forall_mem_cons, isInt32_sub_iff,
    List.not_mem_nil, false_implies, implies_true, and_true]

namespace StepperCommand

/-- There is room for the offset on both sides of the target. -/
def HasRoom (c : StepperCommand) (offset : ℤ) : Prop :=
  |offset| ≤ c.move + 2 ^ 31 ∧ |offset| < 2 ^ 31 - c.move

instance (c : StepperCommand) (offset : ℤ) : Decidable (c.HasRoom offset) :=
  inferInstanceAs (Decidable (_ ∧ _))

/-- The turning points fit. -/
lemma hasRoom_iff {c : StepperCommand} {offset : ℤ} :
    c.HasRoom offset ↔ ∀ v ∈ turningPoints c offset, IsInt32 v := by
  simp only [HasRoom, turningPoints, List.forall_mem_cons, List.not_mem_nil, false_implies,
    implies_true, and_true, IsInt32, abs_le, abs_lt]
  omega

/-- The target is not too far from the position. -/
def WithinRange (position : ℤ) (c : StepperCommand) : Prop :=
  c.type = 2 ∨ c.type = 1 →
    -MAX_RETURN ≤ c.move - position ∧ c.move - position ≤ MAX_DISTANCE

/-- What `stepper_task` computes for the command fits. -/
lemma withinRange_iff {position : ℤ} {c : StepperCommand} :
    c.WithinRange position ↔ ∀ v ∈ c.results position, IsInt32 v := by
  unfold WithinRange results
  split
  next htype =>
    simp only [htype, true_implies, List.forall_mem_cons, List.not_mem_nil, false_implies,
      implies_true, and_true, Arithmetic.isInt32_product_iff]
    refine (and_iff_right_of_imp ?_).symm
    rintro ⟨hlow, hhigh⟩
    unfold MAX_RETURN at hlow
    unfold MAX_DISTANCE at hhigh
    exact ⟨by omega, by omega⟩
  next htype => simp [htype]

end StepperCommand

namespace Request

/-- The numbers of the request are not too far apart for its generator. -/
def WithinRange (deviceLocation : Location) : Request → Prop
  | wave w => deviceLocation.Reaches w.x w.y w.z
  | sine s => s.sineStepper.HasRoom s.offset
  | sineWave s => s.sineWaveStepper.HasRoom s.offset ∧ deviceLocation.Reaches s.x s.y s.z

/-- What the generator computes for the request fits. -/
lemma withinRange_iff {deviceLocation : Location} {r : Request} :
    r.WithinRange deviceLocation ↔ ∀ v ∈ r.results deviceLocation, IsInt32 v := by
  cases r with
  | wave w => exact reaches_iff
  | sine s => exact StepperCommand.hasRoom_iff
  | sineWave s =>
    exact (and_congr StepperCommand.hasRoom_iff reaches_iff).trans List.forall_mem_append.symm

end Request

namespace MotionTasks

/-! ## Whole runs -/

/-- The request or command that the step takes is within range. -/
def WithinRange (s : MotionTasks) : Label → Prop
  | .travel (.task (.take g)) => ∀ r ∈ s.nextRequest g, r.WithinRange s.travel.net.location
  | .receive => ∀ c ∈ s.nextCommand, c.WithinRange s.stepping.currentPosition
  | _ => True

/-- The results of a step fit exactly when it is within range. -/
lemma withinRange_iff {s : MotionTasks} {l : Label} :
    s.WithinRange l ↔ ∀ v ∈ s.newResults l, IsInt32 v := by
  unfold WithinRange newResults
  split
  · rw [List.forall_mem_flatMap]
    simp only [Option.mem_toList, Option.mem_def, Request.withinRange_iff]
  · rw [List.forall_mem_flatMap]
    simp only [Option.mem_toList, Option.mem_def, StepperCommand.withinRange_iff]
  · simp

end MotionTasks

/-! ## Bounds on the numbers of the messages -/

/-- An interval of positions of which no two are too far apart. -/
structure Window where
  lo : ℤ
  hi : ℤ
  hi_le : hi ≤ lo + MAX_DISTANCE

namespace Window

/-- The position is inside the window. -/
def Contains (w : Window) (position : ℤ) : Prop := w.lo ≤ position ∧ position ≤ w.hi

/-- The limits of the record are in order and inside the window. -/
def HoldsLimits (w : Window) (s : Stepper) : Prop :=
  s.min ≤ s.max ∧ w.Contains s.min ∧ w.Contains s.max

instance (w : Window) (position : ℤ) : Decidable (w.Contains position) :=
  inferInstanceAs (Decidable (_ ∧ _))

instance (w : Window) (s : Stepper) : Decidable (w.HoldsLimits s) :=
  inferInstanceAs (Decidable (_ ∧ _))

/-- Two positions inside the window are not too far apart, in either direction. -/
lemma sub_mem {w : Window} {p q : ℤ} (hp : w.Contains p) (hq : w.Contains q) :
    -MAX_RETURN ≤ q - p ∧ q - p ≤ MAX_DISTANCE := by
  have hwidth := w.hi_le
  obtain ⟨hp₁, hp₂⟩ := hp
  obtain ⟨hq₁, hq₂⟩ := hq
  unfold MAX_DISTANCE at hwidth ⊢
  unfold MAX_RETURN
  exact ⟨by omega, by omega⟩

/-- A command that respects such limits has its target inside the window. -/
lemma contains_move {w : Window} {s : Stepper} {c : StepperCommand} (hc : RespectsLimits s c)
    (hs : w.HoldsLimits s) (htype : 1 ≤ c.type) : w.Contains c.move := by
  obtain ⟨hord, hmin, hmax⟩ := hs
  obtain ⟨-, -, hinside⟩ := hc htype
  obtain ⟨hlow, hhigh⟩ := hinside hord
  exact ⟨hmin.1.trans hlow, hhigh.trans hmax.2⟩

end Window

/-- A range of coordinates of which no two are too far apart. -/
structure Room where
  lo : ℤ
  hi : ℤ
  hi_lt : hi < lo + 2 ^ 31

namespace Room

/-- The place is inside the room. -/
def Contains (room : Room) (x y z : ℤ) : Prop := ∀ v ∈ [x, y, z], room.lo ≤ v ∧ v ≤ room.hi

instance (room : Room) (x y z : ℤ) : Decidable (room.Contains x y z) :=
  inferInstanceAs (Decidable (∀ v ∈ [x, y, z], _))

/-- An origin inside the room is near enough to a location inside it. -/
lemma reaches {room : Room} {l : Location} {x y z : ℤ} (hl : room.Contains l.x l.y l.z)
    (h : room.Contains x y z) : l.Reaches x y z := by
  have hwidth := room.hi_lt
  simp only [Contains, List.forall_mem_cons, List.not_mem_nil, false_implies, implies_true,
    and_true] at hl h
  unfold Location.Reaches
  omega

end Room

/-- The numbers of the request: an origin inside the room, and an offset with room on both sides of
the target. -/
def Request.Fits (room : Room) : Request → Prop
  | wave w => room.Contains w.x w.y w.z
  | sine s => s.sineStepper.HasRoom s.offset
  | sineWave s => s.sineWaveStepper.HasRoom s.offset ∧ room.Contains s.x s.y s.z

instance (room : Room) : DecidablePred (Request.Fits room)
  | .wave w => inferInstanceAs (Decidable (room.Contains w.x w.y w.z))
  | .sine s => inferInstanceAs (Decidable (s.sineStepper.HasRoom s.offset))
  | .sineWave s =>
    inferInstanceAs (Decidable (s.sineWaveStepper.HasRoom s.offset ∧ room.Contains s.x s.y s.z))

/-- A request whose numbers fit is within range at a location inside the room. -/
lemma Request.Fits.withinRange {room : Room} {l : Location} {r : Request} (hr : r.Fits room)
    (hl : room.Contains l.x l.y l.z) : r.WithinRange l := by
  cases r with
  | wave w => exact Room.reaches hl hr
  | sine s => exact hr
  | sineWave s => exact ⟨hr.1, Room.reaches hl hr.2⟩

/-- An absolute command makes its target the position. -/
lemma beginCommand_currentPosition_eq (s : Stepping) (c : StepperCommand) :
    (float32.beginCommand s c).currentPosition =
      if c.type = 2 ∨ c.type = 1 then c.move else s.currentPosition := by
  unfold Arithmetic.beginCommand
  dsimp only
  split_ifs <;> rfl

namespace MotionTasks

/-- A message finds limits inside the window and brings numbers inside the room, and an iteration
of the run loop leaves the position inside the window. -/
def Confined (w : Window) (room : Room) (s : MotionTasks) : Label → Prop
  | .travel (.message env r m) =>
    w.HoldsLimits s.travel.net.stepper ∧
      match commandHandler env s.travel.net m.toList r.commandType with
      | .error _ => True
      | .ok (net, es) =>
        room.Contains net.location.x net.location.y net.location.z ∧
          ∀ e ∈ es, e.Sends (Request.Fits room) fun _ => True
  | .poll _ p => w.Contains (float32.iterate s.stepping p).currentPosition
  | _ => True

instance (w : Window) (room : Room) (s : MotionTasks) :
    (l : Label) → Decidable (s.Confined w room l)
  | .travel (.message env r m) =>
    match h : commandHandler env s.travel.net m.toList r.commandType with
    | .error _ => decidable_of_iff (w.HoldsLimits s.travel.net.stepper) (by simp [Confined, h])
    | .ok (net, es) =>
      decidable_of_iff
        (w.HoldsLimits s.travel.net.stepper ∧
          room.Contains net.location.x net.location.y net.location.z ∧
            ∀ e ∈ es, e.Sends (Request.Fits room) fun _ => True)
        (by simp [Confined, h])
  | .poll _ p =>
    inferInstanceAs (Decidable (w.Contains (float32.iterate s.stepping p).currentPosition))
  | .travel .act | .travel (.task _) | .receive | .finish => .isTrue trivial

/-- The position is inside the window, and so is every target on its way; the location and every
origin on its way are inside the room. -/
structure InWindow (unset : Stepper → ℤ) (w : Window) (room : Room) (s : MotionTasks) : Prop where
  position : w.Contains s.stepping.currentPosition
  location : room.Contains s.travel.net.location.x s.travel.net.location.y s.travel.net.location.z
  carrying : s.Carrying unset (fun a r => r.CarriesLimits a ∧ w.HoldsLimits a ∧ r.Fits room)
    fun a c => RespectsLimits a c ∧ w.HoldsLimits a

section Window

variable {unset : Stepper → ℤ} {w : Window} {room : Room} {s t : MotionTasks} {l : Label}

/-- The command that `stepper_task` receives has its target inside the window. -/
lemma InWindow.contains_move (hs : s.InWindow unset w room) {c : StepperCommand}
    (hc : c ∈ s.nextCommand) (htype : 1 ≤ c.type) : w.Contains c.move := by
  obtain ⟨a, hrespects, hlimits⟩ := hs.carrying.nextCommand hc
  exact Window.contains_move hrespects hlimits htype

/-- A confined step keeps the position inside the window: only `stepper_task` changes it. -/
lemma InWindow.position_step (hs : s.InWindow unset w room) (hl : s.Confined w room l)
    (h : s.step unset l = some t) : w.Contains t.stepping.currentPosition := by
  cases stepped_of_step h with
  | travel | finish => exact hs.position
  | receive _ hc =>
    dsimp only
    rw [beginCommand_currentPosition_eq]
    split_ifs with htype
    · exact hs.contains_move hc (by omega)
    · exact hs.position
  | poll => exact hl

/-- A confined step keeps the location inside the room: only a message changes it. -/
lemma InWindow.location_step (hs : s.InWindow unset w room) (hl : s.Confined w room l)
    (h : s.step unset l = some t) :
    room.Contains t.travel.net.location.x t.travel.net.location.y t.travel.net.location.z := by
  cases stepped_of_step h with
  | travel htravel =>
    rcases TravelSystem.net_of_step htravel with hnet | ⟨env, r, m, es, rfl, hm⟩
    · rw [hnet]
      exact hs.location
    · simp only [Confined, hm] at hl
      exact hl.2.1
  | receive _ _ htravel =>
    rcases TravelSystem.net_of_step htravel with hnet | ⟨env, r, m, es, hmessage, -⟩
    · rw [hnet]
      exact hs.location
    · cases hmessage
  | poll | finish => exact hs.location

/-- A confined step keeps everything inside. -/
lemma inWindow_step (hs : s.InWindow unset w room) (hl : s.Confined w room l)
    (h : s.step unset l = some t) : t.InWindow unset w room := by
  refine ⟨hs.position_step hl h, hs.location_step hl h, carrying_step ?_ hs.carrying ?_ h⟩
  · rintro a r ⟨hr, hlimits, -⟩ c hc
    exact ⟨Request.respectsLimits_of_mem hr hc, hlimits⟩
  · rintro env r m net es rfl hm e he
    simp only [Confined, hm] at hl
    obtain ⟨hlimits, -, hfits⟩ := hl
    have hrespects := Effect.respects_iff_sends.mp (respects_commandHandler hm e he)
    exact (Effect.Sends.and hrespects (hfits e he)).imp (fun _ hr => ⟨hr.1, hlimits, hr.2⟩)
      fun _ hc => ⟨hc.1, hlimits⟩

/-- Inside the window and the room every step is within range. -/
lemma withinRange_of_inWindow (hs : s.InWindow unset w room) : s.WithinRange l := by
  unfold WithinRange
  split
  · intro r hr
    obtain ⟨-, -, -, hfits⟩ := hs.carrying.nextRequest hr
    exact hfits.withinRange hs.location
  · intro c hc htype
    exact Window.sub_mem hs.position (hs.contains_move hc (by omega))
  · trivial

end Window

/-- **When the position arithmetic overflows.** In every run, all results fit into an `int`
exactly when every step is within range: for each request that a generator takes, the origin is
less than 2^31 away from the location in each coordinate and the offset leaves room on both sides
of the target, and each absolute command is at most `MAX_DISTANCE` ahead of the position at which
`stepper_task` receives it, or `MAX_RETURN` behind it.  All steps are within range when the
messages are confined: the travel limits that they find are in order inside a window of the width
`MAX_DISTANCE`, where HOME and STOP leave the position too, locations and origins are inside a room
narrower than 2^31, and every offset leaves room on both sides of its target. -/
theorem isInt32_iff_along_withinRange (unset : Stepper → ℤ) (net : NetState) (ls : List Label) :
    ((∀ v ∈ StepRuns.outputs (step unset) newResults (boot net) ls, IsInt32 v) ↔
      StepRuns.Along (step unset) WithinRange (boot net) ls) ∧
    ∀ (w : Window) (room : Room), w.Contains net.stepper.current →
      room.Contains net.location.x net.location.y net.location.z →
        StepRuns.Along (step unset) (Confined w room) (boot net) ls →
          ∀ v ∈ StepRuns.outputs (step unset) newResults (boot net) ls, IsInt32 v := by
  have hiff : (∀ v ∈ StepRuns.outputs (step unset) newResults (boot net) ls, IsInt32 v) ↔
      StepRuns.Along (step unset) WithinRange (boot net) ls := by
    have hstep : WithinRange = fun s l => ∀ v ∈ s.newResults l, IsInt32 v := by
      funext s l
      exact propext withinRange_iff
    rw [StepRuns.forall_mem_outputs_iff, hstep]
  refine ⟨hiff, ?_⟩
  intro w room hposition hlocation hls
  refine hiff.mpr (StepRuns.along_of_invariant (I := InWindow unset w room) ?_ ?_ ?_ hls)
  · exact fun _ _ _ hs hl => inWindow_step hs hl
  · exact fun _ _ hs _ => withinRange_of_inWindow hs
  · exact ⟨hposition, hlocation, carrying_boot unset _ _ net⟩

/-- The positions from 0 to 100. -/
def shortRange : Window := ⟨0, 100, by decide⟩

/-- The coordinates from 0 to 1000. -/
def smallRoom : Room := ⟨0, 1000, by decide⟩

/-- A new location, a wave, a move of one millimetre and a sine with the offset 5. -/
def confinedRun : List Label :=
  handled "set_location 300 400 0" 2 ++ handled "stepperWave 0 0 0 200 1 0 1 1" 1 ++
    generated .wave ++ [.finish] ++ handled "stepperTranslate 1 1 1" 1 ++ sent ++
    List.replicate 22 (.poll .faithful (quietPoll 1 abs_delta_one)) ++ [.finish] ++
    handled "stepperSine 10 1 1 1 5" 1 ++ generated .sine

/-- The run computes eleven results, all of them inside the range. -/
theorem isInt32_confinedRun :
    (StepRuns.outputs (step fun _ => 0) newResults (boot .fresh) confinedRun).length = 11 ∧
      ∀ v ∈ StepRuns.outputs (step fun _ => 0) newResults (boot .fresh) confinedRun, IsInt32 v :=
  ⟨by decide +kernel,
    (isInt32_iff_along_withinRange (fun _ => 0) .fresh confinedRun).2 shortRange smallRoom
      (by decide +kernel) (by decide +kernel) (by decide +kernel)⟩

/-- The run of a device with these records computes a result that does not fit into an `int`. -/
def Overflows (net : NetState) (ls : List Label) : Prop :=
  (StepRuns.run (step fun _ => 0) (boot net) ls).isSome = true ∧
    ∃ v ∈ StepRuns.outputs (step fun _ => 0) newResults (boot net) ls, ¬ IsInt32 v

instance (net : NetState) (ls : List Label) : Decidable (Overflows net ls) :=
  inferInstanceAs (Decidable (_ ∧ _))

/-- A move to 2000 kilometres, a move one millimetre too far, a move from the lowest `int`, the
turning points of a sine and of a sine wave, and a wave from the other end of the room overflow. -/
theorem overflows_messages :
    Overflows .fresh
      (handled "setMax 2147483647" 3 ++ handled "stepperTranslate 2000000000 1 1" 1 ++ sent) ∧
    Overflows .fresh
      (handled "setMax 95021397" 3 ++ handled "stepperTranslate 95021397 1 1" 1 ++ sent) ∧
    Overflows (.boot ⟨-2147483648, 0, 100, 0, 0⟩ ⟨0, 0, 0⟩)
      (handled "stepperTranslate 100 1 1" 1 ++ sent) ∧
    Overflows .fresh (handled "stepperSine 2000000000 1 1 1 2000000000" 1 ++ generated .sine) ∧
    Overflows .fresh (handled "stepperSineWave 0 0 0 100 -2000000000 1 1 1 2000000000" 1 ++
      generated .sineWave) ∧
    Overflows .fresh (handled "set_location -2000000000 0 0" 2 ++
      handled "stepperWave 2000000000 0 0 100 1 0 1 1" 1 ++ generated .wave) := by
  decide +kernel

end MotionTasks

end Strand
