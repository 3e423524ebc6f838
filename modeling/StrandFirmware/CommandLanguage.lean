import StrandFirmware.CommandIsolation
import StrandFirmware.MessageParsing
import StrandFirmware.Library.DecimalText

/-!
# The command language

A `Command` is what a sender means: the command word and its numbers.  Its text is the word and the
numbers in decimal, with one space between them (`Command.words`).

`Controller.perform` says what a command means to a device: what becomes of the two stored records,
and what the device does.  It knows nothing of tables, slots and chains of comparisons.  Where the
command gives each device a value of its own and this device has none, it has no meaning.  The
comparisons of `command_handler` come to this meaning for every command whose words are in the table
(`dispatch_words`); what a command leaves in the table does not matter.
-/

namespace Strand

open CString MemoryFault

/-- A command with its numbers, in the order of the text. -/
inductive Command where
  | ota
  | reset
  | stop
  | home (move speed accel : ℤ)
  | stepperMove (move speed accel : ℤ)
  | stepperTranslate (move speed accel : ℤ)
  /-- One target for each device, from the number 1 on. -/
  | stepperNumTranslate (speed accel : ℤ) (moves : List ℤ)
  | strandTranslate (move speed accel time : ℤ)
  | stepperWave (x y z speed type move stepperSpeed accel : ℤ)
  | stepperSine (move speed accel loops offset : ℤ)
  /-- One centre for each device, from the number -1 on. -/
  | stepperNumSine (speed accel loops offset : ℤ) (centres : List ℤ)
  | stepperSineWave (x y z speed move stepperSpeed accel loops offset : ℤ)
  | setCurrent (value : ℤ)
  | setMin (value : ℤ)
  | setMax (value : ℤ)
  | setNumber (value : ℤ)
  | setLocation (x y z : ℤ)
  | update
  | getMac
  | getLocation
deriving DecidableEq

namespace Command

/-! ## The text of a command -/

/-- The command word. -/
def word : Command → String
  | ota => "ota"
  | reset => "reset"
  | stop => "stop"
  | home .. => "home"
  | stepperMove .. => "stepperMove"
  | stepperTranslate .. => "stepperTranslate"
  | stepperNumTranslate .. => "stepperNumTranslate"
  | strandTranslate .. => "strandTranslate"
  | stepperWave .. => "stepperWave"
  | stepperSine .. => "stepperSine"
  | stepperNumSine .. => "stepperNumSine"
  | stepperSineWave .. => "stepperSineWave"
  | setCurrent _ => "setCurrent"
  | setMin _ => "setMin"
  | setMax _ => "setMax"
  | setNumber _ => "setNumber"
  | setLocation .. => "set_location"
  | update => "update"
  | getMac => "get_mac"
  | getLocation => "get_location"

/-- The numbers after the command word. -/
def numbers : Command → List ℤ
  | ota | reset | stop | update | getMac | getLocation => []
  | home move speed accel | stepperMove move speed accel | stepperTranslate move speed accel =>
    [move, speed, accel]
  | stepperNumTranslate speed accel moves => speed :: accel :: moves
  | strandTranslate move speed accel time => [move, speed, accel, time]
  | stepperWave x y z speed type move stepperSpeed accel =>
    [x, y, z, speed, type, move, stepperSpeed, accel]
  | stepperSine move speed accel loops offset => [move, speed, accel, loops, offset]
  | stepperNumSine speed accel loops offset centres => speed :: accel :: loops :: offset :: centres
  | stepperSineWave x y z speed move stepperSpeed accel loops offset =>
    [x, y, z, speed, move, stepperSpeed, accel, loops, offset]
  | setCurrent value | setMin value | setMax value | setNumber value => [value]
  | setLocation x y z => [x, y, z]

/-- The words of a command. -/
def words (c : Command) : List (List Byte) := ascii c.word :: c.numbers.map decimal

/-- The number in slot `j` of the table. -/
def number (c : Command) (j : ℤ) : ℤ := c.numbers[(j - 1).toNat]?.getD 0

/-- The numbers are 32-bit, and the words fit the table. -/
structure Fits (c : Command) : Prop where
  isInt32 : ∀ v ∈ c.numbers, IsInt32 v
  length_lt : c.numbers.length < COMMAND_ITEMS

instance (c : Command) : Decidable c.Fits :=
  decidable_of_iff ((∀ v ∈ c.numbers, IsInt32 v) ∧ c.numbers.length < COMMAND_ITEMS)
    ⟨fun h => ⟨h.1, h.2⟩, fun h => ⟨h.1, h.2⟩⟩

/-- Every word of a command is a word. -/
lemma isWord_of_mem_words {c : Command} {w : List Byte} (hw : w ∈ c.words) : IsWord space w := by
  rcases List.mem_cons.mp hw with rfl | hw
  · cases c <;> simp only [word] <;> decide
  · obtain ⟨v, -, rfl⟩ := List.mem_map.mp hw
    exact isWord_decimal (by decide) (by decide) v

/-- Every word of a command fits a slot. -/
lemma length_lt_of_mem_words {c : Command} (hc : c.Fits) {w : List Byte} (hw : w ∈ c.words) :
    w.length < COMMAND_SLOT_SIZE := by
  rcases List.mem_cons.mp hw with rfl | hw
  · cases c <;> simp only [word] <;> decide
  · obtain ⟨v, hv, rfl⟩ := List.mem_map.mp hw
    obtain ⟨hlow, hhigh⟩ := hc.isInt32 v hv
    exact (length_decimal_le hlow hhigh).trans_lt (by decide)

/-- The words fit the table. -/
lemma length_words_le {c : Command} (hc : c.Fits) : c.words.length ≤ COMMAND_ITEMS := by
  have := hc.length_lt
  simp only [words, List.length_cons, List.length_map]
  omega

end Command

/-! ## The meaning of a command -/

/-- What a device keeps from one command to the next. -/
structure Controller where
  stepper : Stepper
  location : Location
  /-- The id of the last datagram. -/
  lastId : ℤ

namespace Controller

/-- A relative move; it carries the limits and does not keep to them. -/
def relativeMove (d : Controller) (move speed accel : ℤ) : Effect :=
  .stepperQueue ⟨d.stepper.min, d.stepper.max, speed, accel, move, 0, 0⟩

/-- An absolute move, clamped to the limits. -/
def absoluteMove (d : Controller) (type move speed accel time : ℤ) : Effect :=
  .stepperQueue ⟨d.stepper.min, d.stepper.max, speed, accel,
    clampMove d.stepper.min d.stepper.max move, type, time⟩

/-- The parameters of an absolute move for a generator task. -/
def requested (d : Controller) (type move speed accel : ℤ) : StepperCommand :=
  ⟨d.stepper.min, d.stepper.max, speed, accel, move, type, 0⟩

/-- A parameter is set, saved and sent to the server. -/
def setParameter (d : Controller) (type value : ℤ) : Controller × List Effect :=
  let stepper := Strand.setPramamter d.stepper type value
  ({ d with stepper }, [.setPramamter type value, .saveStepper stepper, .updateUdp stepper])

/-- The value of a list for the device with some number. -/
def valueFor (values : List ℤ) (i : ℤ) : Option ℤ := if 0 ≤ i then values[i.toNat]? else none

/-- The meaning of a command, `overTcp` or in a datagram. -/
def perform (mac : String) (overTcp : Bool) (d : Controller) :
    Command → Option (Controller × List Effect)
  | .ota => some (d, [.saveStepper d.stepper, .ota])
  | .reset => some (d, [.saveStepper d.stepper, .restart])
  | .stop => some (d, [.notifyStop])
  | .home move speed accel | .stepperMove move speed accel =>
    some (d, [d.relativeMove move speed accel])
  | .stepperTranslate move speed accel => some (d, [d.absoluteMove 1 move speed accel 0])
  | .stepperNumTranslate speed accel moves =>
    if d.stepper.number = 0 then some (d, [])
    else
      (valueFor moves (d.stepper.number - 1)).map fun move =>
        (d, [d.absoluteMove 1 move speed accel 0])
  | .strandTranslate move speed accel time => some (d, [d.absoluteMove 2 move speed accel time])
  | .stepperWave x y z speed type move stepperSpeed accel =>
    some (d, [.waveQueue ⟨x, y, z, speed, d.requested type move stepperSpeed accel⟩])
  | .stepperSine move speed accel loops offset =>
    some (d, [.sineQueue ⟨loops, offset, d.requested 1 move speed accel⟩])
  | .stepperNumSine speed accel loops offset centres =>
    (valueFor centres (d.stepper.number + 1)).map fun move =>
      (d, [.sineQueue ⟨loops, offset, d.requested 1 move speed accel⟩])
  | .stepperSineWave x y z speed move stepperSpeed accel loops offset =>
    some (d,
      [.sineWaveQueue ⟨loops, offset, x, y, z, speed, d.requested 1 move stepperSpeed accel⟩])
  | .setCurrent value => some (d.setParameter 1 value)
  | .setMin value =>
    -- over TCP the limit is set once more, and this time there is an answer
    let (d, effects) := d.setParameter 2 value
    some (d, if overTcp then
      effects ++ [.setPramamter 2 value, .saveStepper d.stepper, .tcpRespond "OK"] else effects)
  | .setMax value => some (d.setParameter 3 value)
  | .setNumber value => some (d.setParameter 5 value)
  | .setLocation x y z =>
    some ({ d with location := ⟨x, y, z⟩ }, [.saveLocation ⟨x, y, z⟩, .tcpRespond "OK"])
  | .update => some (d, [.updateUdp d.stepper])
  | .getMac => some (d, if overTcp then [.tcpRespond mac] else [])
  | .getLocation => some (d, if overTcp then [.tcpRespond "location x: 1 y: 2 z: 3"] else [])

end Controller

/-! ## The branches of a command -/

/-- NVS reads back what was written. -/
def Environment.Faithful (env : Environment) : Prop :=
  env.reloadStepper = id ∧ env.reloadLocation = id

namespace Command

/-- The branch of the first chain. -/
def standardBranch : Command → Option Branch
  | ota => some otaBranch
  | reset => some resetBranch
  | stop => some stopBranch
  | home .. => some homeBranch
  | stepperMove .. => some stepperMoveBranch
  | stepperTranslate .. => some stepperTranslateBranch
  | stepperNumTranslate .. => some stepperNumTranslateBranch
  | strandTranslate .. => some strandTranslateBranch
  | stepperWave .. => some stepperWaveBranch
  | stepperSine .. => some stepperSineBranch
  | stepperNumSine .. => some stepperNumSineBranch
  | stepperSineWave .. => some stepperSineWaveBranch
  | setCurrent _ => some setCurrentBranch
  | setMin _ => some setMinBranch
  | setMax _ => some setMaxBranch
  | setNumber _ => some setNumberBranch
  | setLocation .. => some setLocationBranch
  | update => some updateBranch
  | getMac | getLocation => none

/-- The branch of the second chain. -/
def tcpBranch : Command → Option Branch
  | setMin _ => some tcpSetMinBranch
  | setMax _ => some tcpSetMaxBranch
  | setNumber _ => some tcpSetNumberBranch
  | setLocation .. => some tcpSetLocationBranch
  | update => some tcpUpdateBranch
  | getMac => some getMacBranch
  | getLocation => some getLocationBranch
  | _ => none

/-- Every branch accepts its own word. -/
lemma accepts_word :
    (∀ b ∈ standardBranches, b.accepts (rowOf (ascii b.word)) = true) ∧
      ∀ b ∈ tcpBranches, b.accepts (rowOf (ascii b.word)) = true := by
  decide

/-- The first chain finds the branch of the command word. -/
lemma standardMatch_word (c : Command) :
    standardMatch (rowOf (ascii c.word)) = c.standardBranch := by
  cases hb : c.standardBranch with
  | none =>
    refine List.find?_eq_none.mpr ?_
    cases c <;> first | (simp only [word]; decide) | cases hb
  | some b =>
    obtain ⟨hmem, hword⟩ : b ∈ standardBranches ∧ b.word = c.word := by
      cases c <;> cases hb <;> exact ⟨by simp [standardBranches], rfl⟩
    rw [← hword]
    exact find?_eq_some_of_exclusive exclusive_standardBranches hmem (accepts_word.1 b hmem)

/-- The second chain finds the branch of the command word. -/
lemma tcpMatch_word (c : Command) : tcpMatch (rowOf (ascii c.word)) = c.tcpBranch := by
  cases hb : c.tcpBranch with
  | none =>
    refine List.find?_eq_none.mpr ?_
    cases c <;> first | (simp only [word]; decide) | cases hb
  | some b =>
    obtain ⟨hmem, hword⟩ : b ∈ tcpBranches ∧ b.word = c.word := by
      cases c <;> cases hb <;> exact ⟨by simp [tcpBranches], rfl⟩
    rw [← hword]
    exact find?_eq_some_of_exclusive exclusive_tcpBranches hmem (accepts_word.2 b hmem)

end Command

end Strand
