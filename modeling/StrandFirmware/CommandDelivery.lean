import StrandFirmware.CommandLanguage
import StrandFirmware.DuplicateIds

/-!
# Scripts of commands

A `Transmission` is a command on its way to the device: in a datagram, with an id before its words,
or over TCP.  `Controller.receive` says what it means: a datagram with the id of the last one means
nothing, and any other the meaning of its command.

A device that handles the messages of a script does exactly what the script means, in order, and
keeps what the script means it to keep (`run_script`).  So no message acts on what an earlier one
left in the table: a script in which some command reads more than it says has no meaning.
-/

namespace Strand

open CString MemoryFault

/-! ## The bodies of the branches -/

/-- The body looks at the slots that the branch reads, and at no others. -/
def Branch.ReadsSlots (b : Branch) : Prop :=
  ∀ (env : Environment) (word word' : ℤ → ℤ) (h : Handling),
    (∀ j ∈ b.slots h.stepper, word j = word' j) → b.act env word h = b.act env word' h

/-- Every branch of the first chain reads the slots that its body looks at. -/
lemma readsSlots_of_mem_standardBranches : ∀ b ∈ standardBranches, b.ReadsSlots := by
  simp only [standardBranches, List.forall_mem_cons, List.not_mem_nil, false_implies, implies_true,
    and_true]
  refine ⟨?_, ?_, ?_, ?_, ?_, ?_, ?_, ?_, ?_, ?_, ?_, ?_, ?_, ?_, ?_, ?_, ?_, ?_, ?_⟩
  all_goals intro env word word' h hread
  case refine_8 =>
    by_cases hnumber : h.stepper.number = 0
    · simp [stepperNumTranslateBranch, hnumber]
    · simp [stepperNumTranslateBranch, hnumber] at hread ⊢
      simp [hread]
  all_goals
    simp [duplicateBranch, otaBranch, resetBranch, stopBranch, plainBranch, homeBranch,
      stepperMoveBranch, stepperTranslateBranch, moveBranch, strandTranslateBranch,
      stepperWaveBranch, stepperSineBranch, stepperNumSineBranch, stepperSineWaveBranch,
      setCurrentBranch, setMinBranch, setMaxBranch, setNumberBranch, setBranch, setLocationBranch,
      setLocationAct, updateBranch] at hread ⊢
  all_goals simp [hread]

/-- Every branch of the second chain reads the slots that its body looks at. -/
lemma readsSlots_of_mem_tcpBranches : ∀ b ∈ tcpBranches, b.ReadsSlots := by
  simp only [tcpBranches, List.forall_mem_cons, List.not_mem_nil, false_implies, implies_true,
    and_true]
  refine ⟨?_, ?_, ?_, ?_, ?_, ?_, ?_⟩
  all_goals intro env word word' h hread
  all_goals
    simp [getMacBranch, replyBranch, tcpSetLocationBranch, setLocationAct, tcpSetMinBranch,
      tcpSetMaxBranch, tcpSetNumberBranch, tcpSetBranch, tcpUpdateBranch, getLocationBranch]
      at hread ⊢
  all_goals simp [hread]

/-- What the branch that was found does, `word` being the values of the slots. -/
def actMatch (env : Environment) (word : ℤ → ℤ) (b : Option Branch) (h : Handling) : Handling :=
  match b with
  | none => h
  | some b => b.act env word h

/-- The branch that was found does this when its slots have these values. -/
lemma execMatch_eq {env : Environment} {t : CommandLine} {word : ℤ → ℤ} {b : Option Branch}
    {h : Handling} (hb : ∀ c ∈ b, c.ReadsSlots)
    (hread : ∀ j ∈ slotsOf h.stepper b, t.atoiSlot j = .ok (word j)) :
    execMatch env t b h = .ok (actMatch env word b h, b.any fun c => c.returns) := by
  cases b with
  | none => rfl
  | some b =>
    have hread' : ∀ j ∈ b.slots h.stepper, t.atoiSlot j = .ok (word j) := hread
    obtain ⟨values, hvalues⟩ := exists_mapM_eq_ok fun j hj => ⟨_, hread' j hj⟩
    have hsame := eq_ok_lookup_of_mapM hvalues
    have hact : b.exec env t h = .ok (b.act env word h) := by
      rw [Branch.exec, hvalues]
      refine congrArg Except.ok (hb b rfl env _ word h fun j hj => ?_)
      exact Except.ok.inj ((hsame j hj).symm.trans (hread' j hj))
    rw [execMatch, hact]
    rfl

/-! ## The numbers in the table -/

namespace Command

variable {c : Command}

/-- The slot of a number of the command has its value. -/
lemma atoiSlot_number (hc : c.Fits) {t t' : CommandLine} (ht : t.HoldsWords t' c.words) {j : ℤ}
    (hj : 1 ≤ j ∧ j ≤ c.numbers.length) : t'.atoiSlot j = .ok (c.number j) := by
  obtain ⟨hlow, hhigh⟩ := hj
  have hlength := hc.length_lt
  obtain ⟨i, rfl⟩ : ∃ i : ℕ, j = i + 1 := ⟨(j - 1).toNat, by omega⟩
  have hi : i < c.numbers.length := by omega
  have hword : c.words[i + 1]? = some (decimal c.numbers[i]) := by
    simp [words, hi]
  have hnumber : c.number ((i : ℤ) + 1) = c.numbers[i] := by
    simp [number, hi]
  obtain ⟨row, hrow, hshort, hbytes⟩ := ht.words (i + 1) _ hword
  have hslot : t'.slot (i + 1) = row.toList ++ CommandLine.bytesOf (t'.rows.drop (i + 2)) := by
    obtain ⟨hlt, hget⟩ := List.getElem?_eq_some_iff.mp hrow
    rw [CommandLine.slot, List.drop_eq_getElem_cons hlt, hget]
    rfl
  obtain ⟨hint, hint'⟩ := hc.isInt32 _ (List.getElem_mem hi)
  have hzeros : COMMAND_SLOT_SIZE - (decimal c.numbers[i]).length =
      COMMAND_SLOT_SIZE - (decimal c.numbers[i]).length - 1 + 1 := by omega
  have htable : 0 ≤ (i : ℤ) + 1 ∧ (i : ℤ) + 1 < COMMAND_ITEMS := by omega
  rw [CommandLine.atoiSlot, if_pos htable, hnumber]
  have hindex : ((i : ℤ) + 1).toNat = i + 1 := by omega
  rw [hindex, hslot, hbytes, hzeros, List.replicate_succ, List.append_assoc, List.cons_append]
  exact atoi_decimal hint hint' _

/-- The branches of a command read the slots that their bodies look at. -/
lemma readsSlots :
    (∀ b ∈ c.standardBranch, b.ReadsSlots) ∧ ∀ b ∈ c.tcpBranch, b.ReadsSlots := by
  rw [← standardMatch_word, ← tcpMatch_word]
  exact ⟨fun b hb => readsSlots_of_mem_standardBranches b (List.mem_of_find?_eq_some hb),
    fun b hb => readsSlots_of_mem_tcpBranches b (List.mem_of_find?_eq_some hb)⟩

/-- The slots of a list of values. -/
lemma of_valueFor {values : List ℤ} {i v : ℤ} (h : Controller.valueFor values i = some v) :
    0 ≤ i ∧ i < values.length ∧ values[i.toNat]? = some v := by
  unfold Controller.valueFor at h
  obtain ⟨hi, hv⟩ := Option.ite_none_right_eq_some.mp h
  obtain ⟨hlt, -⟩ := List.getElem?_eq_some_iff.mp hv
  exact ⟨hi, by omega, hv⟩

/-- A command that has a meaning reads its own numbers only. -/
lemma slots_of_perform {mac : String} {overTcp : Bool} {d : Controller}
    {r : Controller × List Effect} (h : d.perform mac overTcp c = some r) :
    (∀ j ∈ slotsOf d.stepper c.standardBranch, 1 ≤ j ∧ j ≤ c.numbers.length) ∧
      ∀ s, ∀ j ∈ slotsOf s c.tcpBranch, 1 ≤ j ∧ j ≤ c.numbers.length := by
  constructor
  · cases c with
    | stepperNumTranslate speed accel moves =>
      by_cases hnumber : d.stepper.number = 0
      · simp [slotsOf, standardBranch, stepperNumTranslateBranch, hnumber]
      · simp only [Controller.perform, if_neg hnumber] at h
        obtain ⟨v, hv, -⟩ := Option.map_eq_some_iff.mp h
        obtain ⟨hlow, hhigh, -⟩ := of_valueFor hv
        simp only [slotsOf, standardBranch, stepperNumTranslateBranch, hnumber, numbers,
          Option.map_some, Option.getD_some, ne_eq, not_false_eq_true, if_true, List.mem_cons,
          List.not_mem_nil, or_false, List.length_cons]
        omega
    | stepperNumSine speed accel loops offset centres =>
      obtain ⟨v, hv, -⟩ := Option.map_eq_some_iff.mp h
      obtain ⟨hlow, hhigh, -⟩ := of_valueFor hv
      simp only [slotsOf, standardBranch, stepperNumSineBranch, numbers, Option.map_some,
        Option.getD_some, List.mem_cons, List.not_mem_nil, or_false, List.length_cons]
      omega
    | _ => simp [slotsOf, standardBranch, numbers, otaBranch, resetBranch, stopBranch, plainBranch,
        homeBranch, stepperMoveBranch, stepperTranslateBranch, moveBranch, strandTranslateBranch,
        stepperWaveBranch, stepperSineBranch, stepperSineWaveBranch, setCurrentBranch, setMinBranch,
        setMaxBranch, setNumberBranch, setBranch, setLocationBranch, updateBranch]
  · intro s
    cases c <;> simp [slotsOf, tcpBranch, numbers, tcpSetMinBranch, tcpSetMaxBranch,
      tcpSetNumberBranch, tcpSetBranch, tcpSetLocationBranch, tcpUpdateBranch, getMacBranch,
      getLocationBranch, replyBranch]

/-- What the two chains of comparisons make of a command. -/
def act (env : Environment) (type : ℤ) (c : Command) (h : Handling) : Handling :=
  let h₁ := actMatch env c.number c.standardBranch h
  if (c.standardBranch.any fun b => b.returns) = true ∨ type = 0 then h₁
  else actMatch env c.number c.tcpBranch h₁

/-- Setting a parameter once more. -/
lemma setPramamter_setPramamter (s : Stepper) (type value : ℤ) :
    setPramamter (setPramamter s type value) type value = setPramamter s type value := by
  unfold setPramamter
  cases StepperField.ofType type with
  | none => rfl
  | some f => cases f <;> rfl

/-- **The bodies of the branches do what the command means.** -/
lemma act_eq {env : Environment} (henv : env.Faithful) {type : ℤ} {d d' : Controller}
    {es : List Effect} (h : d.perform env.mac (type ≠ 0) c = some (d', es)) :
    c.act env type ⟨d.stepper, d.location, []⟩ = ⟨d'.stepper, d'.location, es⟩ ∧
      d'.lastId = d.lastId := by
  obtain ⟨hstepper, hlocation⟩ := henv
  cases c with
  | stepperNumTranslate speed accel moves =>
    by_cases hnumber : d.stepper.number = 0
    · simp only [Controller.perform, if_pos hnumber] at h
      obtain ⟨rfl, rfl⟩ := Prod.mk.inj (Option.some.inj h)
      simp [act, standardBranch, tcpBranch, actMatch, stepperNumTranslateBranch, hnumber]
    · simp only [Controller.perform, if_neg hnumber] at h
      obtain ⟨v, hv, h⟩ := Option.map_eq_some_iff.mp h
      obtain ⟨rfl, rfl⟩ := Prod.mk.inj h
      obtain ⟨hlow, -, hvalue⟩ := of_valueFor hv
      have hslot : (stepperNumTranslate speed accel moves).number (d.stepper.number + 2) = v := by
        have hindex : (d.stepper.number + 2 - 1).toNat = (d.stepper.number - 1).toNat + 2 := by
          omega
        rw [number, hindex]
        change (moves[(d.stepper.number - 1).toNat]?).getD 0 = v
        rw [hvalue, Option.getD_some]
      have hspeed : (stepperNumTranslate speed accel moves).number 1 = speed := rfl
      have haccel : (stepperNumTranslate speed accel moves).number 2 = accel := rfl
      simp [act, standardBranch, tcpBranch, actMatch, stepperNumTranslateBranch, hnumber, hslot,
        hspeed, haccel, Handling.commandMove, Handling.emit, commandMove, Controller.absoluteMove]
  | stepperNumSine speed accel loops offset centres =>
    obtain ⟨v, hv, h⟩ := Option.map_eq_some_iff.mp h
    obtain ⟨rfl, rfl⟩ := Prod.mk.inj h
    obtain ⟨hlow, -, hvalue⟩ := of_valueFor hv
    have hslot : (stepperNumSine speed accel loops offset centres).number
        (d.stepper.number + 6) = v := by
      have hindex : (d.stepper.number + 6 - 1).toNat = (d.stepper.number + 1).toNat + 4 := by
        omega
      rw [number, hindex]
      change (centres[(d.stepper.number + 1).toNat]?).getD 0 = v
      rw [hvalue, Option.getD_some]
    have hspeed : (stepperNumSine speed accel loops offset centres).number 1 = speed := rfl
    have haccel : (stepperNumSine speed accel loops offset centres).number 2 = accel := rfl
    have hloops : (stepperNumSine speed accel loops offset centres).number 3 = loops := rfl
    have hoffset : (stepperNumSine speed accel loops offset centres).number 4 = offset := rfl
    simp [act, standardBranch, tcpBranch, actMatch, stepperNumSineBranch, hslot, hspeed, haccel,
      hloops, hoffset, Handling.emit, sineCommand, requestedStepper, Controller.requested]
  | _ =>
    obtain ⟨rfl, rfl⟩ := Prod.mk.inj (Option.some.inj h)
    by_cases htype : type = 0 <;>
    simp [act, standardBranch, tcpBranch, actMatch, number, numbers, htype, hstepper, hlocation,
      otaBranch, resetBranch, stopBranch, plainBranch, homeBranch, stepperMoveBranch,
      stepperTranslateBranch, moveBranch, strandTranslateBranch, stepperWaveBranch,
      stepperSineBranch, stepperSineWaveBranch, setCurrentBranch, setMinBranch, setMaxBranch,
      setNumberBranch, setBranch, setLocationBranch, setLocationAct, updateBranch, tcpSetMinBranch,
      tcpSetBranch, getMacBranch, getLocationBranch, replyBranch, Handling.emit,
      Handling.saveParamters, Handling.setPramamter, Handling.updateUdp,
      Handling.commandSetLocation, Handling.commandMove, commandMove, waveCommand, sineCommand,
      sineWaveCommand, requestedStepper, Controller.requested, Controller.relativeMove,
      Controller.absoluteMove, setPramamter_setPramamter]

/-- **The comparisons find the meaning of a command** whose words are in the table. -/
theorem dispatch_words {env : Environment} (henv : env.Faithful) (hc : c.Fits) {type : ℤ}
    {d d' : Controller} {es : List Effect}
    (h : d.perform env.mac (type ≠ 0) c = some (d', es)) {t t' : CommandLine}
    (ht : t.HoldsWords t' c.words) :
    dispatch env t' type ⟨d.stepper, d.location, []⟩ = .ok ⟨d'.stepper, d'.location, es⟩ := by
  obtain ⟨row, hrow, hshort, hbytes⟩ := ht.words 0 (ascii c.word) rfl
  have hfirst : row = rowOf (ascii c.word) :=
    List.Vector.toList_injective (hbytes.trans (toList_rowOf hshort).symm)
  obtain ⟨w, rest, hrows⟩ := t'.exists_rows_eq_cons
  obtain rfl : w = rowOf (ascii c.word) := by
    rw [hrows] at hrow
    exact (Option.some.inj hrow).trans hfirst
  obtain ⟨hreads, hreads'⟩ := c.readsSlots
  obtain ⟨hslots, hslots'⟩ := slots_of_perform h
  rw [dispatch_eq env hrows, standardMatch_word, tcpMatch_word,
    execMatch_eq hreads fun j hj => atoiSlot_number hc ht (hslots j hj)]
  dsimp only
  rw [← (act_eq henv h).1, act]
  split
  · rfl
  · rw [execMatch_eq hreads' fun j hj => atoiSlot_number hc ht (hslots' _ j hj)]
    rfl

end Command

/-! ## Transmissions -/

/-- A command on its way to the device. -/
inductive Transmission where
  | multicast (id : ℤ) (c : Command)
  | broadcast (id : ℤ) (c : Command)
  | tcp (c : Command)
deriving DecidableEq

namespace Transmission

/-- The task that receives it. -/
def receiver : Transmission → Receiver
  | multicast .. => .multicast
  | broadcast .. => .broadcast
  | tcp _ => .tcp

/-- The words of the message. -/
def words : Transmission → List (List Byte)
  | multicast id c | broadcast id c => decimal id :: c.words
  | tcp c => c.words

/-- The item of the network queue. -/
def message (x : Transmission) : Message := ofWords x.words

/-- The id and the numbers are 32-bit, and the text fits the item with its terminator. -/
def Fits (x : Transmission) : Prop :=
  (match x with
    | multicast id c | broadcast id c => IsInt32 id ∧ c.Fits
    | tcp c => c.Fits) ∧ (joinWords x.words).length < COMMAND_ITEM_SIZE

instance (x : Transmission) : Decidable x.Fits :=
  match x with
  | multicast .. | broadcast .. | tcp _ => inferInstanceAs (Decidable (_ ∧ _))

end Transmission

namespace Controller

/-- The meaning of a transmission. -/
def receive (mac : String) (d : Controller) : Transmission → Option (Controller × List Effect)
  | .multicast id c | .broadcast id c =>
    if id = d.lastId then some (d, []) else { d with lastId := id }.perform mac false c
  | .tcp c => d.perform mac true c

/-- What the device keeps. -/
def next (mac : String) (d : Controller) (x : Transmission) : Option Controller :=
  (d.receive mac x).map Prod.fst

/-- What the device does. -/
def performed (mac : String) (d : Controller) (x : Transmission) : List Effect :=
  ((d.receive mac x).map Prod.snd).getD []

/-- The static variables of `net.c` hold what the device keeps. -/
structure Represents (d : Controller) (s : NetState) : Prop where
  stepper_eq : s.stepper = d.stepper
  location_eq : s.location = d.location
  multicastId_eq : s.multicastId = BitVec.ofInt 64 d.lastId
  isInt32 : IsInt32 d.lastId

end Controller

/-- The effects of a message; none if it faults. -/
def NetState.performed (s : NetState) (x : Environment × Receiver × Message) : List Effect :=
  ((s.effects x.1 x.2.1 x.2.2).toOption).getD []

section Messages

variable {env : Environment} {s : NetState} {d d' : Controller} {es : List Effect} {c : Command}

/-- A handled message whose words are those of a command with a meaning. -/
lemma commandHandler_of_holdsWords (henv : env.Faithful) (hc : c.Fits) (hd : d.Represents s)
    {a : List Byte} {type : ℤ} {n : ℕ} {t' : CommandLine} {id : ℤ} (hid : IsInt32 id)
    (hline : getCommandLine env.stack s.commandLine s.multicastId a type =
      .ok (n, t', BitVec.ofInt 64 id))
    (hwords : s.commandLine.HoldsWords t' c.words)
    (h : { d with lastId := id }.perform env.mac (type ≠ 0) c = some (d', es)) :
    ∃ s', commandHandler env s a type = .ok (s', es) ∧ d'.Represents s' := by
  have hdispatch := Command.dispatch_words henv hc h hwords
  have hlast := (Command.act_eq henv h).2
  refine ⟨⟨t', BitVec.ofInt 64 id, d'.stepper, d'.location⟩, ?_, ⟨rfl, rfl, ?_, ?_⟩⟩
  · rw [commandHandler, hline, hd.stepper_eq, hd.location_eq]
    simp only [bind, Except.bind, hdispatch]
  · rw [hlast]
  · rw [hlast]
    exact hid

/-- A command over TCP. -/
lemma commandHandler_tcp (henv : env.Faithful) (hc : c.Fits)
    (hlength : (joinWords c.words).length < COMMAND_ITEM_SIZE) (hd : d.Represents s)
    (h : d.perform env.mac true c = some (d', es)) :
    ∃ s', commandHandler env s (ofWords c.words).toList 1 = .ok (s', es) ∧ d'.Represents s' := by
  obtain ⟨pad, hpad⟩ := exists_toList_ofWords hlength
  have hwords : ∀ w ∈ c.words, IsWord space w := fun w hw => Command.isWord_of_mem_words hw
  have htable := Command.length_words_le hc
  have hrows := messageRows_text (by decide : (1 : ℤ) ≠ 0) (zero_not_mem_joinWords hwords) pad
    env.stack s.multicastId
  rw [wordsOf_joinWords hwords, rowsFrom_eq_ok htable] at hrows
  have hline := getCommandLine_of_rows hrows s.commandLine
  rw [hpad]
  exact commandHandler_of_holdsWords henv hc hd hd.isInt32 (hline.trans (by rw [hd.multicastId_eq]))
    (holdsWords_fill htable fun w hw => Command.length_lt_of_mem_words hc hw) h

/-- The number in the id word of a datagram. -/
lemma idNumber_decimal {id : ℤ} (hid : IsInt32 id) (stack : Stack) :
    idNumber stack (decimal id) = id := by
  obtain ⟨v, hv, hnumber⟩ := idNumber_eq
    ((length_decimal_le hid.1 hid.2).trans_lt (by norm_num : 11 < 100))
  rw [hnumber, Except.ok.inj ((atoi_decimal hid.1 hid.2 []).symm.trans hv)]

/-- The words of a datagram are words. -/
lemma isWord_of_mem_datagram (id : ℤ) (c : Command) :
    ∀ w ∈ decimal id :: c.words, IsWord space w :=
  List.forall_mem_cons.mpr ⟨isWord_decimal (by decide) (by decide) id,
    fun _ hw => Command.isWord_of_mem_words hw⟩

/-- The text of a datagram: its id, a space, the command word and the rest. -/
lemma exists_joinWords_datagram (id : ℤ) (c : Command) :
    ∃ t, joinWords (decimal id :: c.words) = decimal id ++ space :: (ascii c.word ++ t) := by
  rcases hnumbers : c.numbers.map decimal with _ | ⟨w, ws⟩
  · exact ⟨[], by simp [Command.words, hnumbers, joinWords]⟩
  · exact ⟨space :: joinWords (w :: ws), by simp [Command.words, hnumbers, joinWords]⟩

/-- A command in a datagram with a new id. -/
lemma commandHandler_datagram (henv : env.Faithful) (hc : c.Fits) {id : ℤ} (hid : IsInt32 id)
    (hlength : (joinWords (decimal id :: c.words)).length < COMMAND_ITEM_SIZE)
    (hd : d.Represents s) (hnew : id ≠ d.lastId)
    (h : { d with lastId := id }.perform env.mac false c = some (d', es)) :
    ∃ s', commandHandler env s (ofWords (decimal id :: c.words)).toList 0 = .ok (s', es) ∧
      d'.Represents s' := by
  obtain ⟨pad, hpad⟩ := exists_toList_ofWords hlength
  have hwords := isWord_of_mem_datagram id c
  have htable := Command.length_words_le hc
  have hfresh : BitVec.ofInt 64 id ≠ s.multicastId := by
    rw [hd.multicastId_eq, ne_eq, ofInt_eq_ofInt_iff hid hd.isInt32]
    exact hnew
  have hrows := messageRows_datagram (zero_not_mem_joinWords hwords) pad env.stack s.multicastId
  rw [datagramRows, wordsOf_joinWords hwords] at hrows
  simp only [idNumber_decimal hid, if_neg hfresh, rowsFrom_eq_ok htable] at hrows
  rw [hpad]
  exact commandHandler_of_holdsWords henv hc hd hid (getCommandLine_of_rows hrows s.commandLine)
    (holdsWords_fill htable fun w hw => Command.length_lt_of_mem_words hc hw) h

/-- A command in a datagram with the id of the last one. -/
lemma commandHandler_repeated (hc : c.Fits) {id : ℤ} (hid : IsInt32 id)
    (hlength : (joinWords (decimal id :: c.words)).length < COMMAND_ITEM_SIZE)
    (hd : d.Represents s) (hsame : id = d.lastId) :
    ∃ s', commandHandler env s (ofWords (decimal id :: c.words)).toList 0 = .ok (s', []) ∧
      d.Represents s' := by
  obtain ⟨pad, hpad⟩ := exists_toList_ofWords hlength
  have hwords := isWord_of_mem_datagram id c
  obtain ⟨hidWord, hcommand⟩ := List.forall_mem_cons.mp hwords
  have hword : IsWord space (ascii c.word) := hcommand _ List.mem_cons_self
  have hrepeat : BitVec.ofInt 64 id = s.multicastId := by rw [hd.multicastId_eq, hsame]
  -- `"duplicate"` fits behind the id
  have hoffset : commandOffset (joinWords (decimal id :: c.words)) + 10 ≤ COMMAND_ITEM_SIZE := by
    obtain ⟨t, ht⟩ := exists_joinWords_datagram id c
    have h := commandOffset_eq (n := 0) (m := 0) (t := t) hidWord hword
    simp only [List.replicate_zero, List.nil_append] at h
    have hshort := length_decimal_le hid.1 hid.2
    rw [ht, h]
    unfold COMMAND_ITEM_SIZE
    omega
  have hzero := zero_not_mem_joinWords hwords
  have hread : wordsOf space (joinWords (decimal id :: c.words)) =
      decimal id :: ascii c.word :: c.numbers.map decimal := wordsOf_joinWords hwords
  obtain ⟨tail, htail, hfar, hnear⟩ := exists_repeatWords hzero hread
  have htable : (ascii "duplicate" :: tail).length ≤ COMMAND_ITEMS := by
    have hlt := hc.length_lt
    rw [List.length_cons]
    by_cases hlong : 9 ≤ (ascii c.word).length
    · rw [hfar hlong, List.length_map]
      omega
    · have := (hnear (by omega)).1
      unfold COMMAND_ITEMS
      omega
  have hrows := messageRows_datagram hzero pad env.stack s.multicastId
  have hsize : (joinWords (decimal id :: c.words) ++ 0 :: pad).length = COMMAND_ITEM_SIZE := by
    rw [← hpad]
    exact (ofWords _).toList_length
  rw [datagramRows, hread, hsize] at hrows
  simp only [idNumber_decimal hid, if_pos hrepeat, if_pos hoffset, htail,
    rowsFrom_eq_ok htable] at hrows
  have hline := getCommandLine_of_rows hrows s.commandLine
  have hfirst : (s.commandLine.fill 0 ((ascii "duplicate" :: tail).map rowOf)).rows.head? =
      some (rowOf (ascii "duplicate")) := by
    rw [rows_fill (by simpa using htable)]
    rfl
  rw [hpad]
  exact ⟨_, commandHandler_duplicate hline hfirst,
    ⟨hd.stepper_eq, hd.location_eq, by rw [hsame], hd.isInt32⟩⟩

/-- **One message.**  A device that receives a transmission with a meaning does what it means. -/
theorem commandHandler_message (henv : env.Faithful) {x : Transmission} (hx : x.Fits)
    (hd : d.Represents s) (h : d.receive env.mac x = some (d', es)) :
    ∃ s', commandHandler env s x.message.toList x.receiver.commandType = .ok (s', es) ∧
      d'.Represents s' := by
  -- both channels lead to the same code
  have hdatagram : ∀ {id : ℤ} {c : Command}, IsInt32 id ∧ c.Fits →
      (joinWords (decimal id :: c.words)).length < COMMAND_ITEM_SIZE →
      (if id = d.lastId then some (d, []) else
        { d with lastId := id }.perform env.mac false c) = some (d', es) →
      ∃ s', commandHandler env s (ofWords (decimal id :: c.words)).toList 0 = .ok (s', es) ∧
        d'.Represents s' := by
    rintro id c ⟨hid, hc⟩ hlength h
    by_cases hsame : id = d.lastId
    · rw [if_pos hsame] at h
      obtain ⟨rfl, rfl⟩ := Prod.mk.inj (Option.some.inj h)
      exact commandHandler_repeated hc hid hlength hd hsame
    · rw [if_neg hsame] at h
      exact commandHandler_datagram henv hc hid hlength hd hsame h
  obtain ⟨hfits, hlength⟩ := hx
  cases x with
  | multicast id c => exact hdatagram hfits hlength h
  | broadcast id c => exact hdatagram hfits hlength h
  | tcp c => exact commandHandler_tcp henv hfits hlength hd h

/-- One message of a script, and what it does. -/
lemma handle_message (henv : env.Faithful) {x : Transmission} (hd : d.Represents s) (hx : x.Fits)
    (h : d.next env.mac x = some d') :
    ∃ s', s.handle (env, x.receiver, x.message) = some s' ∧ d'.Represents s' ∧
      s.performed (env, x.receiver, x.message) = d.performed env.mac x := by
  obtain ⟨⟨d'', es⟩, hreceive, rfl⟩ := Option.map_eq_some_iff.mp h
  obtain ⟨s', hhandler, hd'⟩ := commandHandler_message henv hx hd hreceive
  refine ⟨s', ?_, hd', ?_⟩
  · simp only [NetState.handle, hhandler]
  · simp [NetState.performed, NetState.effects, hhandler, Controller.performed, hreceive,
      Except.map, Except.toOption]

/-- **Scripts.**  In a state that represents what a device keeps, the messages of a script with a
meaning are all handled, what the device does is what the script means, in order, and so is what it
keeps. -/
theorem run_script (henv : env.Faithful) {script : List Transmission}
    (hfits : ∀ x ∈ script, x.Fits) (hd : d.Represents s)
    (hrun : StepRuns.run (Controller.next env.mac) d script = some d') :
    ∃ s', StepRuns.run NetState.handle s
        (script.map fun x => (env, x.receiver, x.message)) = some s' ∧ d'.Represents s' ∧
      StepRuns.outputs NetState.handle NetState.performed s
          (script.map fun x => (env, x.receiver, x.message)) =
        StepRuns.outputs (Controller.next env.mac) (Controller.performed env.mac) d script :=
  StepRuns.exists_run_of_related (fun _ _ _ _ hd hx h => handle_message henv hd hx h) hd hfits hrun

end Messages

/-- A device that has just started represents its records, and the id 1. -/
lemma represents_boot (stepper : Stepper) (location : Location) :
    Controller.Represents ⟨stepper, location, 1⟩ (.boot stepper location) :=
  ⟨rfl, rfl, rfl, (by decide : IsInt32 1)⟩

/-- A script of a repeated datagram, an absolute move, a request and a move for each device. -/
def mixedScript : List Transmission :=
  [.multicast 7 (.setMax 500), .broadcast 7 (.setMax 500),
    .multicast 8 (.stepperTranslate 600 20 30), .tcp .getMac,
    .broadcast 9 (.stepperNumTranslate 20 30 [-3, 4])]

/-- The device with the number 2 stores the limit once and moves twice, inside the limits. -/
theorem run_script_mixed : ∃ s,
    StepRuns.run NetState.handle (.boot ⟨0, 0, 100, 0, 2⟩ ⟨0, 0, 0⟩)
        (mixedScript.map fun x => (.faithful, x.receiver, x.message)) = some s ∧
      StepRuns.outputs NetState.handle NetState.performed (.boot ⟨0, 0, 100, 0, 2⟩ ⟨0, 0, 0⟩)
          (mixedScript.map fun x => (.faithful, x.receiver, x.message)) =
        [.setPramamter 3 500, .saveStepper ⟨0, 0, 500, 0, 2⟩, .updateUdp ⟨0, 0, 500, 0, 2⟩,
          .stepperQueue ⟨0, 500, 20, 30, 500, 1, 0⟩, .tcpRespond Environment.faithful.mac,
          .stepperQueue ⟨0, 500, 20, 30, 4, 1, 0⟩] := by
  have hfits : ∀ x ∈ mixedScript, x.Fits := by decide +kernel
  obtain ⟨d, hrun⟩ : ∃ d, StepRuns.run (Controller.next Environment.faithful.mac)
      ⟨⟨0, 0, 100, 0, 2⟩, ⟨0, 0, 0⟩, 1⟩ mixedScript = some d := ⟨_, rfl⟩
  obtain ⟨s, hs, -, houtputs⟩ := run_script ⟨rfl, rfl⟩ hfits (represents_boot _ _) hrun
  exact ⟨s, hs, houtputs.trans (by decide)⟩

end Strand
