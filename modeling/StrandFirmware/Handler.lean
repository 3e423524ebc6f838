import StrandFirmware.CommandLine
import StrandFirmware.Motion
import StrandFirmware.Parameters

/-!
# The command handler

`commandHandler` is `command_handler`: it parses one message and then compares the first slot with
every command word in turn, first for any message and then, for a message that came over TCP, with
the prefixes of the second chain.  A branch that does not return lets the comparisons go on.

Each branch of the source is one `Branch`: its word, the slots it reads with `atoi`, what it does
with their values, and whether it returns.  The outside world appears as a list of `Effect`s.
-/

namespace Strand

open CString MemoryFault

/-- What `command_handler` does to the rest of the device and to the network. -/
inductive Effect where
  /-- `setPramamter(type, value)`. -/
  | setPramamter (type value : ℤ)
  /-- The five keys of `saveParamters` written with this record. -/
  | saveStepper (record : Stepper)
  /-- The three keys of `command_set_location` written with this record. -/
  | saveLocation (record : Location)
  /-- `updateUdp()` with this record. -/
  | updateUdp (record : Stepper)
  /-- An item offered to `xQueue_stepper_command`. -/
  | stepperQueue (item : StepperCommand)
  /-- An item offered to `xQueue_wave_task`. -/
  | waveQueue (item : Wave)
  /-- An item offered to `xQueue_sine_task`. -/
  | sineQueue (item : Sine)
  /-- An item offered to `xQueue_sine_wave_task`. -/
  | sineWaveQueue (item : SineWave)
  /-- `STOP_BIT` set in the notification value of `stepper_task`. -/
  | notifyStop
  /-- A reply offered to `xQueue_tcp_respond`. -/
  | tcpRespond (reply : String)
  /-- The OTA task is created. -/
  | ota
  /-- `esp_restart()`. -/
  | restart
deriving DecidableEq

/-- What the handler meets outside its own state: what NVS returns when a record is read back
right after it was written, the MAC address as text, and what lies on the stack of the parser. -/
structure Environment where
  /-- `command_init_stepper` after the keys were written with this record. -/
  reloadStepper : Stepper → Stepper
  /-- `command_init_location` after the keys were written with this record. -/
  reloadLocation : Location → Location
  /-- The text sent for `get_mac`. -/
  mac : String
  /-- What lies behind `buff` in `get_command_line`. -/
  stack : Stack

/-- The same with other bytes on the stack of the parser. -/
def Environment.withStack (env : Environment) (stack : Stack) : Environment := { env with stack }

/-- The records the branches read and write, and the effects so far. -/
structure Handling where
  /-- `device_stepper`. -/
  stepper : Stepper
  /-- `device_location`. -/
  location : Location
  effects : List Effect

namespace Handling

/-- Add an effect. -/
def emit (h : Handling) (e : Effect) : Handling := { h with effects := h.effects ++ [e] }

/-- `setPramamter(type, value)`. -/
def setPramamter (h : Handling) (type value : ℤ) : Handling :=
  { h with stepper := Strand.setPramamter h.stepper type value }.emit (.setPramamter type value)

/-- `saveParamters()`. -/
def saveParamters (h : Handling) (env : Environment) : Handling :=
  { h.emit (.saveStepper h.stepper) with stepper := env.reloadStepper h.stepper }

/-- `command_set_location(loc)`. -/
def commandSetLocation (h : Handling) (env : Environment) (loc : Location) : Handling :=
  { h.emit (.saveLocation loc) with location := env.reloadLocation loc }

/-- `updateUdp()`. -/
def updateUdp (h : Handling) : Handling := h.emit (.updateUdp h.stepper)

/-- `command_move` with the limits of the device.  The types used here are not negative, so the
field left unset by `command_move` does not occur. -/
def commandMove (h : Handling) (type move speed accel time : ℤ) : Handling :=
  h.emit (.stepperQueue (Strand.commandMove 0 type move speed accel time h.stepper.min
    h.stepper.max))

end Handling

/-- One branch of the handler. -/
structure Branch where
  /-- The word compared with the first slot. -/
  word : String
  /-- The bound of a comparison with `strncmp`; `none` for `strcmp`. -/
  bound : Option ℕ
  /-- The slots the branch reads with `atoi`. -/
  slots : Stepper → List ℤ
  /-- The body, given the values of these slots. -/
  act : Environment → (ℤ → ℤ) → Handling → Handling
  /-- The branch ends with `return`. -/
  returns : Bool

namespace Branch

/-- The comparison of the first slot with the word of the branch. -/
def test (b : Branch) (t : CommandLine) : Except MemoryFault Bool :=
  match b.bound with
  | none => strcmpEqual (t.slot 0) (ascii b.word)
  | some n => strncmpEqual (t.slot 0) (ascii b.word) n

/-- The body, after its slots were read. -/
def exec (b : Branch) (env : Environment) (t : CommandLine) (h : Handling) :
    Except MemoryFault Handling := do
  let values ← (b.slots h.stepper).mapM t.atoiSlot
  .ok (b.act env (fun j => (((b.slots h.stepper).zip values).lookup j).getD 0) h)

end Branch

/-! ## The branches of the first chain -/

/-- A branch that reads no slot and returns or not. -/
def plainBranch (word : String) (returns : Bool) (act : Environment → Handling → Handling) :
    Branch where
  word := word
  bound := none
  slots _ := []
  act env _ h := act env h
  returns := returns

/-- `"duplicate"`. -/
def duplicateBranch : Branch := plainBranch "duplicate" true fun _ h => h

/-- `"ota"`. -/
def otaBranch : Branch := plainBranch "ota" false fun env h => (h.saveParamters env).emit .ota

/-- `"reset"`; `esp_restart` does not return. -/
def resetBranch : Branch := plainBranch "reset" true fun env h =>
  (h.saveParamters env).emit .restart

/-- `"stop"`. -/
def stopBranch : Branch := plainBranch "stop" false fun _ h => h.emit .notifyStop

/-- A move with target, speed and acceleration in the slots 1 to 3. -/
def moveBranch (word : String) (type : ℤ) : Branch where
  word := word
  bound := none
  slots _ := [1, 2, 3]
  act _ word h := h.commandMove type (word 1) (word 2) (word 3) 0
  returns := false

/-- `"home"`. -/
def homeBranch : Branch := moveBranch "home" 0

/-- `"stepperMove"`. -/
def stepperMoveBranch : Branch := moveBranch "stepperMove" 0

/-- `"stepperTranslate"`. -/
def stepperTranslateBranch : Branch := moveBranch "stepperTranslate" 1

/-- `"stepperNumTranslate"`: the target is in the slot of the device's number.  The index is a sum
of two `int`s; where it leaves their range it is outside the table either way. -/
def stepperNumTranslateBranch : Branch where
  word := "stepperNumTranslate"
  bound := none
  slots s := if s.number ≠ 0 then [s.number + 2, 1, 2] else []
  act _ word h :=
    if h.stepper.number ≠ 0 then h.commandMove 1 (word (h.stepper.number + 2)) (word 1) (word 2) 0
    else h
  returns := false

/-- `"strandTranslate"`. -/
def strandTranslateBranch : Branch where
  word := "strandTranslate"
  bound := none
  slots _ := [1, 2, 3, 4]
  act _ word h := h.commandMove 2 (word 1) (word 2) (word 3) (word 4)
  returns := false

/-- `"stepperWave"`. -/
def stepperWaveBranch : Branch where
  word := "stepperWave"
  bound := none
  slots _ := [1, 2, 3, 4, 5, 6, 7, 8]
  act _ word h := h.emit (.waveQueue (waveCommand (word 1) (word 2) (word 3) (word 4) (word 5)
    (word 6) (word 7) (word 8) h.stepper.min h.stepper.max))
  returns := false

/-- `"stepperSine"`. -/
def stepperSineBranch : Branch where
  word := "stepperSine"
  bound := none
  slots _ := [1, 2, 3, 4, 5]
  act _ word h := h.emit (.sineQueue (sineCommand 1 (word 1) (word 2) (word 3) h.stepper.min
    h.stepper.max (word 4) (word 5)))
  returns := false

/-- `"stepperNumSine"`: the centre is in the slot of the device's number. -/
def stepperNumSineBranch : Branch where
  word := "stepperNumSine"
  bound := none
  slots s := [s.number + 6, 1, 2, 3, 4]
  act _ word h := h.emit (.sineQueue (sineCommand 1 (word (h.stepper.number + 6)) (word 1) (word 2)
    h.stepper.min h.stepper.max (word 3) (word 4)))
  returns := false

/-- `"stepperSineWave"`. -/
def stepperSineWaveBranch : Branch where
  word := "stepperSineWave"
  bound := none
  slots _ := [1, 2, 3, 4, 5, 6, 7, 8, 9]
  act _ word h := h.emit (.sineWaveQueue (sineWaveCommand (word 1) (word 2) (word 3) (word 4) 1
    (word 5) (word 6) (word 7) h.stepper.min h.stepper.max (word 8) (word 9)))
  returns := false

/-- A branch that sets one parameter from slot 1, saves and sends the record. -/
def setBranch (word : String) (type : ℤ) (returns : Bool) : Branch where
  word := word
  bound := none
  slots _ := [1]
  act env word h := ((h.setPramamter type (word 1)).saveParamters env).updateUdp
  returns := returns

/-- `"setCurrent"`. -/
def setCurrentBranch : Branch := setBranch "setCurrent" 1 false

/-- `"setMin"`. -/
def setMinBranch : Branch := setBranch "setMin" 2 false

/-- `"setMax"`. -/
def setMaxBranch : Branch := setBranch "setMax" 3 true

/-- `"setNumber"`. -/
def setNumberBranch : Branch := setBranch "setNumber" 5 true

/-- The body of `"set_location"` in both chains. -/
def setLocationAct (env : Environment) (word : ℤ → ℤ) (h : Handling) : Handling :=
  (h.commandSetLocation env ⟨word 1, word 2, word 3⟩).emit (.tcpRespond "OK")

/-- `"set_location"`. -/
def setLocationBranch : Branch where
  word := "set_location"
  bound := none
  slots _ := [1, 2, 3]
  act := setLocationAct
  returns := true

/-- `"update"`. -/
def updateBranch : Branch := plainBranch "update" true fun _ h => h.updateUdp

/-- The chain of comparisons made for every message. -/
def standardBranches : List Branch :=
  [duplicateBranch, otaBranch, resetBranch, stopBranch, homeBranch, stepperMoveBranch,
    stepperTranslateBranch, stepperNumTranslateBranch, strandTranslateBranch, stepperWaveBranch,
    stepperSineBranch, stepperNumSineBranch, stepperSineWaveBranch, setCurrentBranch, setMinBranch,
    setMaxBranch, setNumberBranch, setLocationBranch, updateBranch]

/-! ## The branches of the TCP chain -/

/-- A branch of the TCP chain that only replies. -/
def replyBranch (word : String) (bound : ℕ) (reply : Environment → String) : Branch where
  word := word
  bound := some bound
  slots _ := []
  act env _ h := h.emit (.tcpRespond (reply env))
  returns := false

/-- A branch of the TCP chain that sets one parameter from slot 1, saves and replies. -/
def tcpSetBranch (word : String) (type : ℤ) : Branch where
  word := word
  bound := some word.length
  slots _ := [1]
  act env word h := ((h.setPramamter type (word 1)).saveParamters env).emit (.tcpRespond "OK")
  returns := false

/-- `"get_mac"`. -/
def getMacBranch : Branch := replyBranch "get_mac" 7 fun env => env.mac

/-- `"set_location"` over TCP. -/
def tcpSetLocationBranch : Branch where
  word := "set_location"
  bound := some 12
  slots _ := [1, 2, 3]
  act := setLocationAct
  returns := false

/-- `"setMin"` over TCP. -/
def tcpSetMinBranch : Branch := tcpSetBranch "setMin" 2

/-- `"setMax"` over TCP. -/
def tcpSetMaxBranch : Branch := tcpSetBranch "setMax" 3

/-- `"setNumber"` over TCP. -/
def tcpSetNumberBranch : Branch := tcpSetBranch "setNumber" 5

/-- `"update"` over TCP, compared with the length of `"get_location"`. -/
def tcpUpdateBranch : Branch := replyBranch "update" 12 fun _ => "location x: 1 y: 2 z: 3"

/-- `"get_location"`. -/
def getLocationBranch : Branch :=
  replyBranch "get_location" 12 fun _ => "location x: 1 y: 2 z: 3"

/-- The chain of comparisons made for a message that came over TCP. -/
def tcpBranches : List Branch :=
  [getMacBranch, tcpSetLocationBranch, tcpSetMinBranch, tcpSetMaxBranch, tcpSetNumberBranch,
    tcpUpdateBranch, getLocationBranch]

/-! ## The handler -/

/-- The static variables of `net.c` that the handler reads and writes. -/
structure NetState where
  /-- `command_line`. -/
  commandLine : CommandLine
  /-- `multicast_id`. -/
  multicastId : BitVec 64
  /-- `device_stepper`. -/
  stepper : Stepper
  /-- `device_location`. -/
  location : Location

/-- The variables after the start: static memory is zero, `multicast_id` is 1, and the records are
those that were loaded. -/
def NetState.boot (stepper : Stepper) (location : Location) : NetState :=
  ⟨.zero, 1, stepper, location⟩

/-- A device with the limits 0 and 100 that has handled no message. -/
def NetState.fresh : NetState := .boot ⟨0, 0, 100, 0, 0⟩ ⟨0, 0, 0⟩

/-- NVS returns what was written. -/
def Environment.faithful : Environment := ⟨id, id, "24:0A:C4:00:00:01", .clear⟩

/-- A chain of comparisons: the branches whose word matches run in order, until one returns. -/
def runBranches (env : Environment) (t : CommandLine) :
    List Branch → Handling → Except MemoryFault (Handling × Bool)
  | [], h => .ok (h, false)
  | b :: bs, h => do
    if ← b.test t then
      let h ← b.exec env t h
      if b.returns then .ok (h, true) else runBranches env t bs h
    else runBranches env t bs h

/-- The comparisons of `command_handler`. -/
def dispatch (env : Environment) (t : CommandLine) (type : ℤ) (h : Handling) :
    Except MemoryFault Handling := do
  let (h, returned) ← runBranches env t standardBranches h
  if returned ∨ type = 0 then .ok h
  else
    let (h, _) ← runBranches env t tcpBranches h
    .ok h

/-- `command_handler(queue_value, type)`: the new state and the effects, in order. -/
def commandHandler (env : Environment) (s : NetState) (queueValue : List Byte) (type : ℤ) :
    Except MemoryFault (NetState × List Effect) := do
  let (_, t, id) ← getCommandLine env.stack s.commandLine s.multicastId queueValue type
  let h ← dispatch env t type ⟨s.stepper, s.location, []⟩
  .ok (⟨t, id, h.stepper, h.location⟩, h.effects)

end Strand
