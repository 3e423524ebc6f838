import StrandFirmware.CommandDelivery
import StrandFirmware.Persistence

/-!
# Commands and power failures

A board with its NVS, over any sequence of messages, positions recorded by `stepper_task`, homings,
restarts and power failures.  The power may fail between any two of the writes that a message leads
to; a single write is made or not made.  What is kept in memory is lost at a restart, and the board
starts again with the records in NVS and `multicast_id` 1.

`Kept` says the same without keys: there is a live record and a saved one.  The board is such a
device, whatever happens (`run_events`).  As the keys are written one by one, an interrupted save
leaves some fields new and the others old.  A command that sets a parameter changes one field only,
so its save is made as a whole or not at all (`atomic_of_run`), unless it also saves a position that
`stepper_task` has recorded in the meantime.
-/

namespace Strand

/-! ## The writes of a message -/

/-- The calls of `nvs_set_value` behind an effect, in order. -/
def Effect.nvsWrites : Effect → List (String × ℤ)
  | .saveStepper record => StepperField.all.map fun f => (f.key, record.get f)
  | .saveLocation record => LocationField.all.map fun f => (f.key, LocationField.get record f)
  | _ => []

/-- A sequence of calls of `nvs_set_value`. -/
def Nvs.writes (nvs : Nvs) (ws : List (String × ℤ)) : Nvs :=
  ws.foldl (fun nvs w => nvsSetValue nvs w.1 w.2) nvs

/-- The writes of an effect are those of `command_set_stepper` and `command_set_location`. -/
lemma nvs_writes_nvsWrites (s : Storage) (stepper : Stepper) (location : Location) :
    (s.commandSetStepper stepper).nvs = s.nvs.writes (Effect.saveStepper stepper).nvsWrites ∧
      (s.commandSetLocation location).nvs =
        s.nvs.writes (Effect.saveLocation location).nvsWrites :=
  ⟨rfl, rfl⟩

/-! ## The board -/

/-- The variables of `net.c` and the contents of NVS. -/
structure Board where
  net : NetState
  nvs : Nvs

/-- What happens to a board. -/
inductive Board.Event where
  /-- `command_handler` is called with a message. -/
  | message (x : Transmission)
  /-- `stepper_task` ends a command and records its position. -/
  | position (p : ℤ)
  /-- `stepper_task` handles `HOME_BIT`. -/
  | home
  /-- The board is switched off and on. -/
  | powerCycle
  /-- The power fails while a message is handled, after `n` writes, and comes back. -/
  | powerFailure (x : Transmission) (n : ℕ)
  /-- The power fails while `HOME_BIT` is handled, after `n` writes, and comes back. -/
  | homeFailure (n : ℕ)
deriving DecidableEq

/-- The message of an event is one that can be sent. -/
def Board.Event.Fits : Board.Event → Prop
  | .message x | .powerFailure x _ => x.Fits
  | .position _ | .home | .powerCycle | .homeFailure _ => True

instance Board.Event.decidableFits (e : Board.Event) : Decidable e.Fits :=
  match e with
  | .message x | .powerFailure x _ => inferInstanceAs (Decidable x.Fits)
  | .position _ | .home | .powerCycle | .homeFailure _ => .isTrue trivial

namespace Board

/-- A start: the records are loaded from NVS. -/
def boot (nvs : Nvs) : Board := ⟨.boot (commandInitStepper nvs) (commandInitLocation nvs), nvs⟩

/-- NVS and the two records. -/
def storage (b : Board) : Storage := ⟨b.nvs, b.net.location, b.net.stepper⟩

/-- The board with other contents of NVS and the records. -/
def withStorage (b : Board) (s : Storage) : Board :=
  ⟨{ b.net with stepper := s.deviceStepper, location := s.deviceLocation }, s.nvs⟩

/-- What the handler reads back after a save. -/
def environment (mac : String) (stack : Stack) (b : Board) : Environment where
  reloadStepper record := (b.storage.commandSetStepper record).deviceStepper
  reloadLocation record := (b.storage.commandSetLocation record).deviceLocation
  mac := mac
  stack := stack

/-- `command_handler` with a message. -/
def handle (mac : String) (stack : Stack) (b : Board) (x : Transmission) :
    Option (NetState × List Effect) :=
  (commandHandler (b.environment mac stack) b.net x.message.toList x.receiver.commandType).toOption

/-- One event; `none` for a message that the handler faults on. -/
def step (mac : String) (stack : Stack) (b : Board) : Event → Option Board
  | .message x => (b.handle mac stack x).map fun (net, effects) =>
    let nvs := b.nvs.writes (effects.flatMap Effect.nvsWrites)
    if .restart ∈ effects then boot nvs else ⟨net, nvs⟩
  | .position p => some (b.withStorage (b.storage.setPramamter 1 p))
  | .home => some (b.withStorage (b.storage.setPramamter 1 0).saveParamters)
  | .powerCycle => some (boot b.nvs)
  | .powerFailure x n => (b.handle mac stack x).map fun (_, effects) =>
    boot (b.nvs.writes ((effects.flatMap Effect.nvsWrites).take n))
  | .homeFailure n =>
    let record := (b.storage.setPramamter 1 0).deviceStepper
    some (boot (b.nvs.writes ((Effect.saveStepper record).nvsWrites.take n)))

/-- The effects of the messages that are handled to their end. -/
def performed (mac : String) (stack : Stack) (b : Board) : Event → List Effect
  | .message x => ((b.handle mac stack x).map Prod.snd).getD []
  | _ => []

end Board

/-! ## The device -/

/-- The fields `fs` of one record and the others of another. -/
def Stepper.partly (fs : List StepperField) (new old : Stepper) : Stepper :=
  .ofFields fun f => if f ∈ fs then new.get f else old.get f

/-- The coordinates `fs` of one location and the others of another. -/
def Location.partly (fs : List LocationField) (new old : Location) : Location where
  x := if .x ∈ fs then new.x else old.x
  y := if .y ∈ fs then new.y else old.y
  z := if .z ∈ fs then new.z else old.z

/-- The stepper record is among what is saved. -/
def savesStepper (effects : List Effect) : Bool :=
  effects.any fun
    | .saveStepper _ => true
    | _ => false

/-- What a device keeps, and the stepper record that outlasts a restart. -/
structure Kept where
  live : Controller
  saved : Stepper

namespace Kept

/-- A restart. -/
def restart (k : Kept) : Kept := { k with live := ⟨k.saved, k.live.location, 1⟩ }

/-- The meaning of an event. -/
def next (mac : String) (k : Kept) : Board.Event → Option Kept
  | .message x => (k.live.receive mac x).map fun (d, effects) =>
    let k' : Kept := ⟨d, if savesStepper effects then d.stepper else k.saved⟩
    if .restart ∈ effects then k'.restart else k'
  | .position p => some { k with live.stepper.current := p }
  | .home =>
    let stepper := { k.live.stepper with current := 0 }
    some ⟨{ k.live with stepper }, stepper⟩
  | .powerCycle => some k.restart
  | .powerFailure x n => (k.live.receive mac x).map fun (d, effects) =>
    let location := d.location.partly (LocationField.all.take n) k.live.location
    let saved :=
      if savesStepper effects then d.stepper.partly (StepperField.all.take n) k.saved else k.saved
    Kept.restart ⟨{ k.live with location }, saved⟩
  | .homeFailure n =>
    let stepper := { k.live.stepper with current := 0 }
    some (Kept.restart { k with saved := stepper.partly (StepperField.all.take n) k.saved })

/-- The effects of the messages that are handled to their end. -/
def performed (mac : String) (k : Kept) : Board.Event → List Effect
  | .message x => k.live.performed mac x
  | _ => []

/-- The board holds what the device keeps. -/
structure Represents (k : Kept) (b : Board) : Prop where
  live : k.live.Represents b.net
  saved_eq : commandInitStepper b.nvs = k.saved
  location_eq : commandInitLocation b.nvs = k.live.location

end Kept

/-! ## What the writes leave -/

/-- The writes of a record are those of its fields. -/
lemma writes_map {K : Type*} (key : K → String) (record : K → ℤ) (nvs : Nvs) (fs : List K) :
    nvs.writes (fs.map fun f => (key f, record f)) = KeyValue.writeAll key record nvs fs := by
  rw [Nvs.writes, List.foldl_map]
  rfl

/-- The records after some fields of the stepper record were written. -/
lemma init_writes_stepper (nvs : Nvs) (record : Stepper) (fs : List StepperField) :
    commandInitStepper (nvs.writes (fs.map fun f => (f.key, record.get f))) =
        record.partly fs (commandInitStepper nvs) ∧
      commandInitLocation (nvs.writes (fs.map fun f => (f.key, record.get f))) =
        commandInitLocation nvs := by
  constructor
  · refine Stepper.ext_get fun f => ?_
    rw [get_commandInitStepper, writes_map, Stepper.partly, Stepper.get_ofFields,
      KeyValue.loadAll_writeAll_apply StepperField.key_injective, get_commandInitStepper]
  · refine Location.ext_get ?_
    rw [get_commandInitLocation, get_commandInitLocation, writes_map]
    exact KeyValue.loadAll_writeAll_of_disjoint LocationField.stepper_key_ne 0 _ _ _

/-- The records after some coordinates of the location were written. -/
lemma init_writes_location (nvs : Nvs) (record : Location) (fs : List LocationField) :
    commandInitLocation (nvs.writes (fs.map fun f => (f.key, LocationField.get record f))) =
        record.partly fs (commandInitLocation nvs) ∧
      commandInitStepper (nvs.writes (fs.map fun f => (f.key, LocationField.get record f))) =
        commandInitStepper nvs := by
  constructor
  · refine Location.ext_get (funext fun f => ?_)
    rw [get_commandInitLocation, writes_map,
      KeyValue.loadAll_writeAll_apply LocationField.key_injective, ← get_commandInitLocation]
    cases f <;> rfl
  · refine Stepper.ext_get (congrFun ?_)
    rw [get_commandInitStepper, get_commandInitStepper, writes_map]
    exact KeyValue.loadAll_writeAll_of_disjoint
      (fun g f => (LocationField.stepper_key_ne f g).symm) 0 _ _ _

/-! ## What a message saves -/

/-- The writes that a message may lead to: none, the stepper record with at most one new field once
or twice, or the location. -/
inductive Controller.Saves (d d' : Controller) (es : List Effect) : Prop where
  | nothing (hwrites : es.flatMap Effect.nvsWrites = []) (hsaves : savesStepper es = false)
    (hstepper : d'.stepper = d.stepper) (hlocation : d'.location = d.location)
  | stepper (fs : List StepperField)
    (hfs : fs = StepperField.all ∨ fs = StepperField.all ++ StepperField.all)
    (hwrites : es.flatMap Effect.nvsWrites = fs.map fun f => (f.key, d'.stepper.get f))
    (hsaves : savesStepper es = true) (hlocation : d'.location = d.location)
    (hfield : ∃ f, ∀ g, g ≠ f → d'.stepper.get g = d.stepper.get g)
  | location (hwrites : es.flatMap Effect.nvsWrites =
      LocationField.all.map fun f => (f.key, LocationField.get d'.location f))
    (hsaves : savesStepper es = false) (hstepper : d'.stepper = d.stepper)

namespace Controller

variable {mac : String} {d d' : Controller} {es : List Effect}

/-- Setting a parameter changes one field. -/
lemma exists_field_setParameter (d : Controller) (type value : ℤ) :
    ∃ f, ∀ g, g ≠ f → (d.setParameter type value).1.stepper.get g = d.stepper.get g := by
  change ∃ f, ∀ g, g ≠ f → (setPramamter d.stepper type value).get g = d.stepper.get g
  unfold setPramamter
  cases StepperField.ofType type with
  | none => exact ⟨.current, fun _ _ => rfl⟩
  | some f => exact ⟨f, fun g hg => by rw [Stepper.get_set, if_neg hg]⟩

/-- A command that sets a parameter saves the record with it. -/
lemma saves_setParameter (d : Controller) (type value : ℤ) :
    d.Saves (d.setParameter type value).1 (d.setParameter type value).2 :=
  .stepper StepperField.all (.inl rfl) rfl rfl rfl (d.exists_field_setParameter type value)

/-- What a command saves. -/
lemma saves_of_perform {overTcp : Bool} {c : Command}
    (h : d.perform mac overTcp c = some (d', es)) : d.Saves d' es := by
  cases c with
  | ota | reset =>
    obtain ⟨rfl, rfl⟩ := Prod.mk.inj (Option.some.inj h)
    exact .stepper StepperField.all (.inl rfl) rfl rfl rfl ⟨.current, fun _ _ => rfl⟩
  | setCurrent value | setMax value | setNumber value =>
    obtain ⟨rfl, rfl⟩ := Prod.mk.inj (Option.some.inj h)
    exact saves_setParameter d _ value
  | setMin value =>
    obtain ⟨rfl, rfl⟩ := Prod.mk.inj (Option.some.inj h)
    cases overTcp with
    | false => exact saves_setParameter d 2 value
    | true => exact .stepper _ (.inr rfl) rfl rfl rfl (d.exists_field_setParameter 2 value)
  | setLocation x y z =>
    obtain ⟨rfl, rfl⟩ := Prod.mk.inj (Option.some.inj h)
    exact .location rfl rfl rfl
  | stepperNumTranslate speed accel moves =>
    by_cases hnumber : d.stepper.number = 0
    · simp only [perform, if_pos hnumber] at h
      obtain ⟨rfl, rfl⟩ := Prod.mk.inj (Option.some.inj h)
      exact .nothing rfl rfl rfl rfl
    · simp only [perform, if_neg hnumber] at h
      obtain ⟨v, -, h⟩ := Option.map_eq_some_iff.mp h
      obtain ⟨rfl, rfl⟩ := Prod.mk.inj h
      exact .nothing rfl rfl rfl rfl
  | stepperNumSine speed accel loops offset centres =>
    obtain ⟨v, -, h⟩ := Option.map_eq_some_iff.mp h
    obtain ⟨rfl, rfl⟩ := Prod.mk.inj h
    exact .nothing rfl rfl rfl rfl
  | getMac | getLocation =>
    obtain ⟨rfl, rfl⟩ := Prod.mk.inj (Option.some.inj h)
    cases overTcp with
    | false | true => exact .nothing rfl rfl rfl rfl
  | _ =>
    obtain ⟨rfl, rfl⟩ := Prod.mk.inj (Option.some.inj h)
    exact .nothing rfl rfl rfl rfl

/-- What a message saves. -/
lemma saves_of_receive {x : Transmission} (h : d.receive mac x = some (d', es)) :
    d.Saves d' es := by
  have hdatagram : ∀ {id : ℤ} {c : Command}, (if id = d.lastId then some (d, []) else
      { d with lastId := id }.perform mac false c) = some (d', es) → d.Saves d' es := by
    intro id c h
    by_cases hsame : id = d.lastId
    · rw [if_pos hsame] at h
      obtain ⟨rfl, rfl⟩ := Prod.mk.inj (Option.some.inj h)
      exact .nothing rfl rfl rfl rfl
    · rw [if_neg hsame] at h
      -- the id of the last datagram is not saved
      obtain ⟨hwrites, hsaves, hstepper, hlocation⟩ |
        ⟨fs, hfs, hwrites, hsaves, hlocation, hfield⟩ | ⟨hwrites, hsaves, hstepper⟩ :=
          saves_of_perform h
      · exact .nothing hwrites hsaves hstepper hlocation
      · exact .stepper fs hfs hwrites hsaves hlocation hfield
      · exact .location hwrites hsaves hstepper
  cases x with
  | multicast id c | broadcast id c => exact hdatagram h
  | tcp c => exact saves_of_perform h

end Controller

/-- The first fields of two copies of the list are the first fields. -/
lemma mem_take_twice {fs : List StepperField} (hfs : fs = StepperField.all ∨
    fs = StepperField.all ++ StepperField.all) (n : ℕ) (f : StepperField) :
    f ∈ fs.take n ↔ f ∈ StepperField.all.take n := by
  obtain rfl | rfl := hfs
  · rfl
  · rw [List.take_append, List.mem_append]
    refine ⟨fun h => h.elim id fun hf => ?_, .inl⟩
    exact List.take_subset_take_left _ (Nat.sub_le n _) hf

/-- The records in NVS after the first `n` writes of a message. -/
lemma Controller.Saves.init_writes {d d' : Controller} {es : List Effect} (h : d.Saves d' es)
    {nvs : Nvs} (hlocation : commandInitLocation nvs = d.location) (n : ℕ) :
    commandInitStepper (nvs.writes ((es.flatMap Effect.nvsWrites).take n)) =
        (if savesStepper es then
          d'.stepper.partly (StepperField.all.take n) (commandInitStepper nvs)
        else commandInitStepper nvs) ∧
      commandInitLocation (nvs.writes ((es.flatMap Effect.nvsWrites).take n)) =
        d'.location.partly (LocationField.all.take n) d.location := by
  have hself : ∀ (l : Location) (fs : List LocationField), l.partly fs l = l := by
    intro l fs
    simp [Location.partly]
  cases h with
  | nothing hwrites hsaves hstepper hlocation' =>
    rw [hwrites, hsaves, hlocation', hself, ← hlocation, List.take_nil]
    exact ⟨rfl, rfl⟩
  | stepper fs hfs hwrites hsaves hlocation' hfield =>
    obtain ⟨hstepper, hkeep⟩ := init_writes_stepper nvs d'.stepper (fs.take n)
    rw [hwrites, hsaves, hlocation', hself, ← hlocation, ← List.map_take, if_pos rfl]
    refine ⟨hstepper.trans ?_, hkeep⟩
    simp only [Stepper.partly, mem_take_twice hfs]
  | location hwrites hsaves hstepper =>
    obtain ⟨hmoved, hkeep⟩ := init_writes_location nvs d'.location (LocationField.all.take n)
    rw [hwrites, hsaves, ← hlocation, ← List.map_take]
    exact ⟨hkeep, hmoved⟩

/-- The records in NVS after all writes of a message. -/
lemma Controller.Saves.init_writes_all {d d' : Controller} {es : List Effect} (h : d.Saves d' es)
    {nvs : Nvs} (hlocation : commandInitLocation nvs = d.location) :
    commandInitStepper (nvs.writes (es.flatMap Effect.nvsWrites)) =
        (if savesStepper es then d'.stepper else commandInitStepper nvs) ∧
      commandInitLocation (nvs.writes (es.flatMap Effect.nvsWrites)) = d'.location := by
  have hall := h.init_writes hlocation ((es.flatMap Effect.nvsWrites).length + 5)
  have hstepper : ∀ old : Stepper, d'.stepper.partly StepperField.all old = d'.stepper := by
    refine fun old => Stepper.ext_get fun f => ?_
    rw [Stepper.partly, Stepper.get_ofFields, if_pos f.mem_all]
  have hmoved : d'.location.partly LocationField.all d.location = d'.location := rfl
  rwa [List.take_of_length_le (Nat.le_add_right _ 5),
    List.take_of_length_le (l := StepperField.all) (Nat.le_add_left 5 _),
    List.take_of_length_le (l := LocationField.all) (by simp [LocationField.all]),
    hstepper, hmoved] at hall

/-! ## The board is the device -/

namespace Kept

variable {mac : String} {stack : Stack} {b b' : Board} {k k' : Kept}

/-- What is read back after a save is what was written. -/
lemma faithful_environment (mac : String) (stack : Stack) (b : Board) :
    (b.environment mac stack).Faithful :=
  ⟨funext fun record => b.storage.commandInitStepper_commandSetStepper record,
    funext fun record => b.storage.commandInitLocation_commandSetLocation record⟩

/-- A board that starts holds the records in NVS. -/
lemma represents_of_init {nvs : Nvs} {live : Controller} {saved : Stepper}
    (hstepper : commandInitStepper nvs = saved)
    (hlocation : commandInitLocation nvs = live.location) :
    (restart ⟨live, saved⟩).Represents (.boot nvs) := by
  refine ⟨?_, hstepper, hlocation⟩
  rw [Board.boot, hstepper, hlocation]
  exact Strand.represents_boot saved live.location

/-- The handler on a board does what a message means. -/
lemma Represents.handle (hk : k.Represents b) {x : Transmission} (hx : x.Fits) {d : Controller}
    {es : List Effect} (h : k.live.receive mac x = some (d, es)) :
    ∃ net, b.handle mac stack x = some (net, es) ∧ d.Represents net := by
  obtain ⟨net, hnet, hd⟩ := commandHandler_message (faithful_environment mac stack b) hx hk.live h
  exact ⟨net, by rw [Board.handle, hnet]; rfl, hd⟩

/-- **One event** does to the board what it means for the device. -/
theorem represents_step (hk : k.Represents b) {e : Board.Event} (he : e.Fits)
    (h : k.next mac e = some k') :
    ∃ b', b.step mac stack e = some b' ∧ k'.Represents b' ∧
      b.performed mac stack e = k.performed mac e := by
  cases e with
  | message x =>
    obtain ⟨⟨d, es⟩, hreceive, rfl⟩ := Option.map_eq_some_iff.mp h
    obtain ⟨net, hnet, hd⟩ := hk.handle he hreceive
    obtain ⟨hstepper, hlocation⟩ :=
      (Controller.saves_of_receive hreceive).init_writes_all hk.location_eq
    rw [hk.saved_eq] at hstepper
    refine ⟨_, congrArg (Option.map _) hnet, ?_, ?_⟩
    · by_cases hrestart : .restart ∈ es
      · simp only [if_pos hrestart]
        exact represents_of_init hstepper hlocation
      · simp only [if_neg hrestart]
        exact ⟨hd, hstepper, hlocation⟩
    · simp [Board.performed, hnet, performed, Controller.performed, hreceive]
  | position p =>
    obtain rfl := Option.some.inj h
    exact ⟨_, rfl, ⟨⟨congrArg (fun s : Stepper => { s with current := p }) hk.live.stepper_eq,
      hk.live.location_eq, hk.live.multicastId_eq, hk.live.isInt32⟩, hk.saved_eq, hk.location_eq⟩,
      rfl⟩
  | home =>
    obtain rfl := Option.some.inj h
    have hrecord : (b.storage.setPramamter 1 0).deviceStepper =
        { k.live.stepper with current := 0 } :=
      congrArg (fun s : Stepper => { s with current := 0 }) hk.live.stepper_eq
    have hsaved : commandInitStepper (b.storage.setPramamter 1 0).saveParamters.nvs =
        { k.live.stepper with current := 0 } :=
      (Storage.commandInitStepper_commandSetStepper _ _).trans hrecord
    have hkeep : commandInitLocation (b.storage.setPramamter 1 0).saveParamters.nvs =
        commandInitLocation b.nvs := Storage.commandInitLocation_commandSetStepper _ _
    exact ⟨_, rfl, ⟨⟨hsaved, hk.live.location_eq, hk.live.multicastId_eq, hk.live.isInt32⟩, hsaved,
      hkeep.trans hk.location_eq⟩, rfl⟩
  | powerCycle =>
    obtain rfl := Option.some.inj h
    exact ⟨_, rfl, represents_of_init hk.saved_eq hk.location_eq, rfl⟩
  | powerFailure x n =>
    obtain ⟨⟨d, es⟩, hreceive, rfl⟩ := Option.map_eq_some_iff.mp h
    obtain ⟨net, hnet, -⟩ := hk.handle he hreceive
    obtain ⟨hstepper, hlocation⟩ :=
      (Controller.saves_of_receive hreceive).init_writes hk.location_eq n
    rw [hk.saved_eq] at hstepper
    exact ⟨_, congrArg (Option.map _) hnet, represents_of_init hstepper hlocation, rfl⟩
  | homeFailure n =>
    obtain rfl := Option.some.inj h
    have hrecord : (b.storage.setPramamter 1 0).deviceStepper =
        { k.live.stepper with current := 0 } :=
      congrArg (fun s : Stepper => { s with current := 0 }) hk.live.stepper_eq
    obtain ⟨hstepper, hlocation⟩ := init_writes_stepper b.nvs
      (b.storage.setPramamter 1 0).deviceStepper (StepperField.all.take n)
    rw [hk.saved_eq, hrecord] at hstepper
    refine ⟨_, rfl, ?_, rfl⟩
    rw [Effect.nvsWrites, ← List.map_take, hrecord]
    rw [hrecord] at hlocation
    exact represents_of_init hstepper (hlocation.trans hk.location_eq)

/-- The runs of a board that holds what a device keeps. -/
theorem represents_run (hk : k.Represents b) {events : List Board.Event}
    (hfits : ∀ e ∈ events, e.Fits) (hrun : StepRuns.run (next mac) k events = some k') :
    ∃ b', StepRuns.run (Board.step mac stack) b events = some b' ∧ k'.Represents b' ∧
      StepRuns.outputs (Board.step mac stack) (Board.performed mac stack) b events =
        StepRuns.outputs (next mac) (performed mac) k events := by
  have hrelated : ∃ b', StepRuns.run (Board.step mac stack) b (events.map id) = some b' ∧
      k'.Represents b' ∧
      StepRuns.outputs (Board.step mac stack) (Board.performed mac stack) b (events.map id) =
        StepRuns.outputs (next mac) (performed mac) k events := by
    refine StepRuns.exists_run_of_related (L := Board.Event.Fits) ?_ hk hfits hrun
    intro k b e k' hk he h
    exact represents_step hk he h
  rwa [List.map_id] at hrelated

/-- The device whose board starts with these contents of NVS. -/
def boot (nvs : Nvs) : Kept :=
  restart ⟨⟨commandInitStepper nvs, commandInitLocation nvs, 1⟩, commandInitStepper nvs⟩

/-- A board that starts is that device. -/
lemma represents_boot (nvs : Nvs) : (boot nvs).Represents (.boot nvs) :=
  represents_of_init rfl rfl

end Kept

/-- **The board is the device.**  From the start, with any contents of NVS, every sequence of events
with a meaning leads the board through all of them, with the effects that they mean for the device,
and leaves in memory and in NVS what the device keeps. -/
theorem run_events {mac : String} {stack : Stack} {nvs : Nvs} {events : List Board.Event}
    (hfits : ∀ e ∈ events, e.Fits) {k : Kept}
    (hrun : StepRuns.run (Kept.next mac) (.boot nvs) events = some k) :
    ∃ b, StepRuns.run (Board.step mac stack) (.boot nvs) events = some b ∧ k.Represents b ∧
      StepRuns.outputs (Board.step mac stack) (Board.performed mac stack) (.boot nvs) events =
        StepRuns.outputs (Kept.next mac) (Kept.performed mac) (.boot nvs) events :=
  Kept.represents_run (Kept.represents_boot nvs) hfits hrun

/-- A limit is set, a position is recorded, and the power fails in the middle of the next save. -/
def failureEvents : List Board.Event :=
  [.message (.multicast 7 (.setMax 500)), .position 120,
    .powerFailure (.tcp (.setMin 10)) 1, .message (.multicast 7 (.setNumber 3))]

/-- The interrupted save has saved the position and not the limit, and after it the number of the
first message is a new one. -/
theorem run_events_failure : ∃ b,
    StepRuns.run (Board.step "" .clear) (.boot fun _ => none) failureEvents = some b ∧
      b.net.stepper = ⟨120, 0, 500, 0, 3⟩ ∧ commandInitStepper b.nvs = ⟨120, 0, 500, 0, 3⟩ ∧
      StepRuns.outputs (Board.step "" .clear) (Board.performed "" .clear) (.boot fun _ => none)
          failureEvents =
        [.setPramamter 3 500, .saveStepper ⟨0, 0, 500, 0, 0⟩, .updateUdp ⟨0, 0, 500, 0, 0⟩,
          .setPramamter 5 3, .saveStepper ⟨120, 0, 500, 0, 3⟩,
          .updateUdp ⟨120, 0, 500, 0, 3⟩] := by
  have hfits : ∀ e ∈ failureEvents, e.Fits := by decide +kernel
  have hrun : StepRuns.run (Kept.next "") (.boot fun _ => none) failureEvents =
      some ⟨⟨⟨120, 0, 500, 0, 3⟩, ⟨0, 0, 0⟩, 7⟩, ⟨120, 0, 500, 0, 3⟩⟩ := rfl
  obtain ⟨b, hb, hk, houtputs⟩ := run_events hfits hrun
  exact ⟨b, hb, hk.live.stepper_eq, hk.saved_eq, houtputs.trans (by decide)⟩

/-! ## Interrupted saves -/

/-- Of a record with one new field, all of it is written or nothing. -/
lemma Stepper.partly_of_forall_ne {new old : Stepper} {f : StepperField}
    (h : ∀ g, g ≠ f → new.get g = old.get g) (fs : List StepperField) :
    new.partly fs old = old ∨ new.partly fs old = new := by
  by_cases hf : f ∈ fs
  · refine .inr (ext_get fun g => ?_)
    rw [partly, get_ofFields]
    by_cases hg : g = f
    · rw [hg, if_pos hf]
    · rw [h g hg, ite_self]
  · refine .inl (ext_get fun g => ?_)
    rw [partly, get_ofFields]
    by_cases hg : g = f
    · rw [hg, if_neg hf]
    · rw [h g hg, ite_self]

namespace Kept

variable {mac : String} {k k' : Kept} {nvs : Nvs} {events : List Board.Event}

/-- Everything but a recorded position is saved at once. -/
lemma saved_step (hk : k.live.stepper = k.saved) {e : Board.Event}
    (he : ∀ p, e ≠ .position p) (h : k.next mac e = some k') : k'.live.stepper = k'.saved := by
  cases e with
  | message x =>
    obtain ⟨⟨d, es⟩, hreceive, rfl⟩ := Option.map_eq_some_iff.mp h
    by_cases hrestart : .restart ∈ es
    · simp only [if_pos hrestart, restart]
    · simp only [if_neg hrestart]
      cases Controller.saves_of_receive hreceive with
      | nothing _ hsaves hstepper | location _ hsaves hstepper =>
        rw [hsaves, hstepper, hk]
        rfl
      | stepper _ _ _ hsaves =>
        rw [hsaves]
        rfl
  | position p => exact absurd rfl (he p)
  | home | powerCycle | homeFailure n =>
    obtain rfl := Option.some.inj h
    rfl
  | powerFailure x n =>
    obtain ⟨⟨d, es⟩, -, rfl⟩ := Option.map_eq_some_iff.mp h
    rfl

/-- An interrupted message leaves the record as it was saved before, or as the message saves it. -/
lemma saved_powerFailure (hk : k.live.stepper = k.saved) {x : Transmission} {k₁ : Kept}
    (h : k.next mac (.message x) = some k₁) (n : ℕ) :
    ∃ k', k.next mac (.powerFailure x n) = some k' ∧
      (k'.live.stepper = k.live.stepper ∨ k'.live.stepper = k₁.live.stepper) := by
  obtain ⟨⟨d, es⟩, hreceive, rfl⟩ := Option.map_eq_some_iff.mp h
  refine ⟨_, congrArg (Option.map _) hreceive, ?_⟩
  cases Controller.saves_of_receive hreceive with
  | nothing _ hsaves | location _ hsaves =>
    left
    rw [hk]
    simp [restart, hsaves]
  | stepper fs _ _ hsaves _ hfield =>
    obtain ⟨f, hf⟩ := hfield
    rw [hk] at hf ⊢
    have hlive : ∀ k' : Kept, k' = ⟨d, d.stepper⟩ →
        (if .restart ∈ es then k'.restart else k').live.stepper = d.stepper := by
      rintro k' rfl
      split
      · rfl
      · rfl
    simp only [hsaves, if_true, hlive]
    exact Stepper.partly_of_forall_ne hf (StepperField.all.take n)

end Kept

/-- **Interrupted messages.**  In every run without positions recorded by `stepper_task`, a message
during which the power fails, after whatever write, leaves the stepper record as it was before the
message or as the message would have left it. -/
theorem atomic_of_run {mac : String} {stack : Stack} {nvs : Nvs} {events : List Board.Event}
    (hfits : ∀ e ∈ events, e.Fits) (hpositions : ∀ e ∈ events, ∀ p, e ≠ .position p) {k k₁ : Kept}
    (hrun : StepRuns.run (Kept.next mac) (.boot nvs) events = some k) {x : Transmission}
    (hx : x.Fits) (hmessage : k.next mac (.message x) = some k₁) (n : ℕ) :
    ∃ b b₁ b', StepRuns.run (Board.step mac stack) (.boot nvs) events = some b ∧
      b.step mac stack (.message x) = some b₁ ∧ b.step mac stack (.powerFailure x n) = some b' ∧
      (b'.net.stepper = b.net.stepper ∨ b'.net.stepper = b₁.net.stepper) := by
  have hsaved : k.live.stepper = k.saved := by
    refine StepRuns.invariant_of_run_along (I := fun k : Kept => k.live.stepper = k.saved) ?_ rfl
      (StepRuns.along_of_forall hpositions) hrun
    intro k e k' hk he h
    exact Kept.saved_step hk he h
  obtain ⟨b, hb, hk, -⟩ := Kept.represents_run (Kept.represents_boot nvs) hfits hrun
  obtain ⟨k', hk', heither⟩ := Kept.saved_powerFailure hsaved hmessage n
  obtain ⟨b₁, hb₁, hk₁, -⟩ := Kept.represents_step hk (e := .message x) hx hmessage
  obtain ⟨b', hb', hkept, -⟩ := Kept.represents_step hk (e := .powerFailure x n) hx hk'
  refine ⟨b, b₁, b', hb, hb₁, hb', ?_⟩
  rwa [hk.live.stepper_eq, hk₁.live.stepper_eq, hkept.live.stepper_eq]

/-- A limit is set, and the power fails while another one is saved. -/
theorem atomic_of_run_two : ∃ b b₁ b',
    StepRuns.run (Board.step "" .clear) (.boot fun _ => none)
        [.message (.multicast 7 (.setMax 500))] = some b ∧
      b.step "" .clear (.message (.tcp (.setMin 10))) = some b₁ ∧
      b.step "" .clear (.powerFailure (.tcp (.setMin 10)) 2) = some b' ∧
      (b'.net.stepper = b.net.stepper ∨ b'.net.stepper = b₁.net.stepper) := by
  have hfits : ∀ e ∈ [Board.Event.message (.multicast 7 (.setMax 500))], e.Fits := by
    decide +kernel
  have hrun : StepRuns.run (Kept.next "") (.boot fun _ => none)
      [.message (.multicast 7 (.setMax 500))] =
        some ⟨⟨⟨0, 0, 500, 0, 0⟩, ⟨0, 0, 0⟩, 7⟩, ⟨0, 0, 500, 0, 0⟩⟩ := rfl
  exact atomic_of_run hfits (by simp) hrun (by decide +kernel) rfl 2

end Strand
