import StrandFirmware.Handler

/-!
# The buffers of the status messages

A device reports to the server with short texts: a command word, its MAC and IP addresses and, for
an update, the five values of its record.  `server_ping`, `sendMessage` and `updateUdp` build the
text in local buffers, with `strcpy` and `sprintf`, which know nothing of the sizes; `send_udp`
copies it once more.

A status message is modelled by what it writes: each string with the buffer it goes to.  Addresses
and values are written in full, as if the buffers before had room for them.  Of the calls that the
program makes only the boot message fits into its buffers (`fits_iff_boot`): the words of the error
messages are longer than `cmd`, and the `msg` of an update has the size of a pointer.
-/

namespace Strand

/-! ## The texts -/

/-- `%02x`. -/
def hexByte (b : UInt8) : String :=
  String.ofList [Nat.digitChar (b.toNat / 16), Nat.digitChar (b.toNat % 16)]

/-- What `esp_read_mac` gives. -/
abbrev Mac := Vector UInt8 6

/-- `"%02x:%02x:%02x:%02x:%02x:%02x"`. -/
def macText (mac : Mac) : String :=
  hexByte mac[0] ++ ":" ++ hexByte mac[1] ++ ":" ++ hexByte mac[2] ++ ":" ++ hexByte mac[3] ++
    ":" ++ hexByte mac[4] ++ ":" ++ hexByte mac[5]

/-- An IPv4 address. -/
abbrev Ipv4 := Vector UInt8 4

/-- `inet_ntoa`: the numbers of the address with dots between them. -/
def inetNtoa (ip : Ipv4) : String :=
  ip[0].toNat.repr ++ "." ++ ip[1].toNat.repr ++ "." ++ ip[2].toNat.repr ++ "." ++
    ip[3].toNat.repr

/-- `"%d %d %d %d %d"` with the values of the record. -/
def respondText (s : Stepper) : String :=
  s.current.repr ++ " " ++ s.min.repr ++ " " ++ s.max.repr ++ " " ++ s.target.repr ++ " " ++
    s.number.repr

/-! ## The writes -/

/-- The local buffers. -/
inductive Buffer where
  | macIpData
  | macString
  | ipString
  | cmd
  | msg
  | respond
  /-- `buffer` in `send_udp`. -/
  | buffer
deriving DecidableEq

/-- The declared size.  `msg` is declared with `sizeof(message)`, where `message` is a pointer. -/
def Buffer.size : Buffer → ℕ
  | macIpData => 256
  | macString => 256
  | ipString => 30
  | cmd => 10
  | msg => 4
  | respond => 30
  | buffer => 256

/-- A string copied or formatted into a buffer. -/
structure BufferWrite where
  buffer : Buffer
  text : String
deriving DecidableEq

/-- The string and its terminator fit into the buffer. -/
def BufferWrite.Fits (w : BufferWrite) : Prop := w.text.length + 1 ≤ w.buffer.size

instance (w : BufferWrite) : Decidable w.Fits := Nat.decLe _ _

/-- `send_udp`. -/
def sendUdp (udpMessage : String) : List BufferWrite := [⟨.buffer, udpMessage⟩]

/-- `server_ping(command)`. -/
def serverPing (mac : Mac) (ip : Ipv4) (command : String) : List BufferWrite :=
  let macIpData := command ++ " " ++ macText mac ++ " " ++ inetNtoa ip
  [⟨.macString, macText mac⟩, ⟨.ipString, inetNtoa ip⟩, ⟨.cmd, command⟩, ⟨.macIpData, macIpData⟩] ++
    sendUdp macIpData

/-- `sendMessage(command, message)`. -/
def sendMessage (mac : Mac) (ip : Ipv4) (command message : String) : List BufferWrite :=
  let macIpData := command ++ " " ++ macText mac ++ " " ++ inetNtoa ip ++ " " ++ message
  [⟨.macString, macText mac⟩, ⟨.ipString, inetNtoa ip⟩, ⟨.cmd, command⟩, ⟨.msg, message⟩,
    ⟨.macIpData, macIpData⟩] ++ sendUdp macIpData

/-- `updateUdp()` with the record `s`. -/
def updateUdp (mac : Mac) (ip : Ipv4) (s : Stepper) : List BufferWrite :=
  [⟨.cmd, "update"⟩, ⟨.respond, respondText s⟩] ++ sendMessage mac ip "update" (respondText s)

/-- The status messages that the program sends. -/
inductive StatusMessage where
  /-- `server_ping("boot")` in `app_main`. -/
  | boot
  /-- `server_ping("ERROR : Lose-Connection")` in `init_strand`. -/
  | loseConnection
  /-- `server_ping("ERROR : No-Power")` in `init_strand`. -/
  | noPower
  /-- `updateUdp()` in `command_handler`, with the record at that moment. -/
  | update (s : Stepper)
deriving DecidableEq

/-- What is written for a status message. -/
def StatusMessage.writes (mac : Mac) (ip : Ipv4) : StatusMessage → List BufferWrite
  | boot => serverPing mac ip "boot"
  | loseConnection => serverPing mac ip "ERROR : Lose-Connection"
  | noPower => serverPing mac ip "ERROR : No-Power"
  | update s => updateUdp mac ip s

/-! ## Lengths -/

/-- A byte has two hexadecimal digits. -/
@[simp] lemma length_hexByte (b : UInt8) : (hexByte b).length = 2 := by
  simp [hexByte]

/-- A MAC address has seventeen characters. -/
@[simp] lemma length_macText (mac : Mac) : (macText mac).length = 17 := by
  simp only [macText, String.length_append, length_hexByte]
  rfl

/-- A byte has at most three decimal digits. -/
lemma length_repr_toNat_le (b : UInt8) : b.toNat.repr.length ≤ 3 := by
  have hb := b.toNat_lt
  exact (Nat.length_repr_le_iff (by decide)).mpr (by omega)

/-- An IPv4 address has at most fifteen characters. -/
lemma length_inetNtoa_le (ip : Ipv4) : (inetNtoa ip).length ≤ 15 := by
  have h₀ := length_repr_toNat_le ip[0]
  have h₁ := length_repr_toNat_le ip[1]
  have h₂ := length_repr_toNat_le ip[2]
  have h₃ := length_repr_toNat_le ip[3]
  have hdot : ".".length = 1 := rfl
  simp only [inetNtoa, String.length_append, hdot]
  omega

/-- An integer has at least one character. -/
lemma length_repr_pos (v : ℤ) : 0 < v.repr.length := by
  cases v with
  | ofNat n => exact Nat.length_repr_pos
  | negSucc n =>
    have hdigits : 0 < n.succ.repr.length := Nat.length_repr_pos
    simp only [Int.repr, String.length_append]
    omega

/-- An `int` has at most eleven characters. -/
lemma length_repr_le {v : ℤ} (hv : IsInt32 v) : v.repr.length ≤ 11 := by
  obtain ⟨hlow, hhigh⟩ := hv
  cases v with
  | ofNat n =>
    rw [Int.ofNat_eq_natCast] at hhigh
    have hdigits : n.repr.length ≤ 10 := (Nat.length_repr_le_iff (by decide)).mpr (by omega)
    exact hdigits.trans (by decide)
  | negSucc n =>
    rw [Int.negSucc_eq] at hlow
    have hdigits : n.succ.repr.length ≤ 10 :=
      (Nat.length_repr_le_iff (by decide)).mpr (by omega)
    have hsign : "-".length = 1 := rfl
    simp only [Int.repr, String.length_append, hsign]
    omega

/-- The characters of the five values. -/
def Stepper.widths (s : Stepper) : ℕ :=
  s.current.repr.length + s.min.repr.length + s.max.repr.length + s.target.repr.length +
    s.number.repr.length

/-- The values are written with four blanks between them. -/
lemma length_respondText (s : Stepper) : (respondText s).length = s.widths + 4 := by
  have hblank : " ".length = 1 := rfl
  simp only [respondText, String.length_append, hblank, Stepper.widths]
  omega

/-- A record is written with at least nine characters. -/
lemma le_length_respondText (s : Stepper) : 9 ≤ (respondText s).length := by
  have h₁ := length_repr_pos s.current
  have h₂ := length_repr_pos s.min
  have h₃ := length_repr_pos s.max
  have h₄ := length_repr_pos s.target
  have h₅ := length_repr_pos s.number
  rw [length_respondText, Stepper.widths]
  omega

/-- The five values are `int`s. -/
def Stepper.InRange (s : Stepper) : Prop :=
  IsInt32 s.current ∧ IsInt32 s.min ∧ IsInt32 s.max ∧ IsInt32 s.target ∧ IsInt32 s.number

/-- A record is written with at most fifty-nine characters. -/
lemma length_respondText_le {s : Stepper} (hs : s.InRange) : (respondText s).length ≤ 59 := by
  obtain ⟨h₁, h₂, h₃, h₄, h₅⟩ := hs
  have h₁' := length_repr_le h₁
  have h₂' := length_repr_le h₂
  have h₃' := length_repr_le h₃
  have h₄' := length_repr_le h₄
  have h₅' := length_repr_le h₅
  rw [length_respondText, Stepper.widths]
  omega

/-! ## What fits -/

section Fits

variable {mac : Mac} {ip : Ipv4}

/-- A ping fits exactly when its command has at most nine characters. -/
lemma fits_serverPing_iff {command : String} :
    (∀ w ∈ serverPing mac ip command, w.Fits) ↔ command.length ≤ 9 := by
  have hip := length_inetNtoa_le ip
  have hblank : " ".length = 1 := rfl
  simp only [serverPing, sendUdp, List.forall_mem_append, List.forall_mem_cons,
    List.not_mem_nil, false_implies, implies_true, and_true, BufferWrite.Fits, Buffer.size,
    String.length_append, length_macText, hblank]
  omega

/-- A message to the server fits exactly when its command has at most nine characters and what it
says at most three. -/
lemma fits_sendMessage_iff {command message : String} :
    (∀ w ∈ sendMessage mac ip command message, w.Fits) ↔
      command.length ≤ 9 ∧ message.length ≤ 3 := by
  have hip := length_inetNtoa_le ip
  have hblank : " ".length = 1 := rfl
  simp only [sendMessage, sendUdp, List.forall_mem_append, List.forall_mem_cons,
    List.not_mem_nil, false_implies, implies_true, and_true, BufferWrite.Fits, Buffer.size,
    String.length_append, length_macText, hblank]
  omega

/-- An update never fits. -/
lemma not_fits_updateUdp (s : Stepper) : ¬ ∀ w ∈ updateUdp mac ip s, w.Fits := by
  intro hall
  have hmessage := (fits_sendMessage_iff.mp (List.forall_mem_append.mp hall).2).2
  have hlength := le_length_respondText s
  omega

/-- Of the strings of an update, `msg` does not fit, `respond` fits up to 25 characters for the
values of the record, and all others fit. -/
theorem fits_updateUdp_iff {s : Stepper} (hs : s.InRange) :
    ∀ w ∈ updateUdp mac ip s,
      (w.Fits ↔ w.buffer ≠ .msg ∧ (w.buffer = .respond → s.widths ≤ 25)) := by
  have hip := length_inetNtoa_le ip
  have hlow := le_length_respondText s
  have hhigh := length_respondText_le hs
  have hwidths := length_respondText s
  have hblank : " ".length = 1 := rfl
  have hupdate : "update".length = 6 := rfl
  simp only [updateUdp, sendMessage, sendUdp, List.forall_mem_append, List.forall_mem_cons,
    List.not_mem_nil, false_implies, implies_true, and_true, BufferWrite.Fits, Buffer.size,
    String.length_append, length_macText, hblank, hupdate, ne_eq, reduceCtorEq, not_false_eq_true,
    true_and, true_implies, not_true_eq_false, iff_true, iff_false]
  omega

end Fits

/-- **Which status messages fit into their buffers.** For every MAC and IPv4 address and every
record, all strings of a status message fit, with their terminators, exactly when it is the boot
message. -/
theorem fits_iff_boot (mac : Mac) (ip : Ipv4) (m : StatusMessage) :
    (∀ w ∈ m.writes mac ip, w.Fits) ↔ m = .boot := by
  cases m with
  | boot => exact iff_of_true (fits_serverPing_iff.mpr (by decide)) rfl
  | loseConnection => exact iff_of_false (fits_serverPing_iff.not.mpr (by decide)) (by simp)
  | noPower => exact iff_of_false (fits_serverPing_iff.not.mpr (by decide)) (by simp)
  | update s => exact iff_of_false (not_fits_updateUdp s) (by simp)

/-- The words of both error messages do not fit into `cmd`, no record fits into `msg`, and a record
with large values does not fit into `respond` either. -/
theorem not_fits_statusMessages :
    let mac : Mac := #v[0x24, 0x0a, 0xc4, 0x00, 0x00, 0x01]
    let ip : Ipv4 := #v[192, 168, 1, 20]
    (∃ w ∈ StatusMessage.loseConnection.writes mac ip, w.buffer = .cmd ∧ ¬ w.Fits) ∧
    (∃ w ∈ StatusMessage.noPower.writes mac ip, w.buffer = .cmd ∧ ¬ w.Fits) ∧
    (∃ w ∈ (StatusMessage.update ⟨0, 0, 100, 0, 1⟩).writes mac ip, w.buffer = .msg ∧ ¬ w.Fits) ∧
    ∃ w ∈ (StatusMessage.update ⟨-10000000, -10000000, 10000000, 0, 1⟩).writes mac ip,
      w.buffer = .respond ∧ ¬ w.Fits := by
  decide +kernel

/-! ## The updates of a message -/

/-- The status message that an effect of a message sends. -/
def Effect.statusMessage : Effect → Option StatusMessage
  | .updateUdp s => some (.update s)
  | _ => none

/-- The status messages of a message fit exactly when it sends no update. -/
theorem fits_effects_iff (mac : Mac) (ip : Ipv4) (es : List Effect) :
    (∀ e ∈ es, ∀ m ∈ e.statusMessage, ∀ w ∈ m.writes mac ip, w.Fits) ↔
      ∀ s, .updateUdp s ∉ es := by
  constructor
  · intro hall s hs
    exact not_fits_updateUdp s (hall _ hs _ rfl)
  · intro hno e he m hm
    cases e with
    | updateUdp s => exact absurd he (hno s)
    | _ => simp [Effect.statusMessage] at hm

end Strand
