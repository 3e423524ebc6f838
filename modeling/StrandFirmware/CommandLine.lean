import StrandFirmware.Device
import StrandFirmware.Library.CString

/-!
# The command line of a message

`command_line` is a static table of 40 slots of 50 bytes.  `getCommandLine` splits a message into
the slots from 0 on and leaves the others as the last messages left them; nothing ever clears the
table, and a slot is read as memory, so a string without terminator goes on in the next slot.
-/

namespace Strand

open CString MemoryFault

/-- One item of a network queue. -/
abbrev Message := List.Vector Byte COMMAND_ITEM_SIZE

/-- The item of a network queue that holds a text. -/
def Message.ofText (text : String) : Message := padded COMMAND_ITEM_SIZE (ascii text)

/-- One slot of `command_line`. -/
abbrev Row := List.Vector Byte COMMAND_SLOT_SIZE

/-- The table `command_line`. -/
structure CommandLine where
  /-- The slots in order. -/
  rows : List Row
  /-- There are `COMMAND_ITEMS` slots. -/
  length_rows : rows.length = COMMAND_ITEMS

namespace CommandLine

/-- There is a first slot. -/
lemma exists_rows_eq_cons (t : CommandLine) : ∃ w rest, t.rows = w :: rest :=
  List.exists_cons_of_length_pos (t.length_rows ▸ by decide)

/-- The table of a device that has handled no message: static memory is zero. -/
def zero : CommandLine := ⟨List.replicate COMMAND_ITEMS (List.Vector.replicate _ 0), by simp⟩

/-- Write one slot. -/
def setRow (t : CommandLine) (i : ℕ) (row : Row) : CommandLine :=
  ⟨t.rows.set i row, by simp [t.length_rows]⟩

/-- The bytes from some slot on, to the end of the table. -/
def bytesOf (rows : List Row) : List Byte := rows.flatMap fun row => row.toList

/-- The pointer `command_line[j]`. -/
def slot (t : CommandLine) (j : ℕ) : List Byte := bytesOf (t.rows.drop j)

/-- `atoi(command_line[j])`; an index outside the table reads outside it. -/
def atoiSlot (t : CommandLine) (j : ℤ) : Except MemoryFault ℤ :=
  if 0 ≤ j ∧ j < COMMAND_ITEMS then atoi (t.slot j.toNat) else .error outOfBounds

end CommandLine

/-- `const char s[2] = " "`. -/
def space : Byte := 32

/-- The loop over the words of a message: each is copied into the next slot.  The loop does not
compare the slot with the size of the table, so a word too many is written outside it. -/
def copyWords (t : CommandLine) (i : ℕ) (token : Option ℕ) (buf : List Byte) (next : Option ℕ) :
    Except MemoryFault (ℕ × CommandLine) :=
  match token with
  | none => .ok (i, t)
  | some p =>
    if _h : i < COMMAND_ITEMS then do
      let row ← strncpy COMMAND_SLOT_SIZE (buf.drop p)
      let (token, buf, next) ← strtokNext space buf next
      copyWords (t.setRow i row) (i + 1) token buf next
    else .error outOfBounds
termination_by COMMAND_ITEMS - i

/-- The check for a repeated id: the word after it is overwritten in the message. -/
def markDuplicate (multicastId id : BitVec 64) (token : Option ℕ) (a : List Byte) :
    Except MemoryFault (List Byte) :=
  if id = multicastId then
    match token with
    | none => .error nullPointer
    | some p => overwrite a p (ascii "duplicate" ++ [0])
  else .ok a

/-- What lies behind `buff` on the stack: bytes of earlier calls, and a zero somewhere. -/
structure Stack where
  /-- The bytes from the end of `buff` on. -/
  bytes : List Byte
  /-- A string that goes on past `buff` ends. -/
  zero_mem : 0 ∈ bytes

/-- A stack with a zero right behind `buff`. -/
def Stack.clear : Stack := ⟨[0], List.mem_cons_self⟩

/-- `get_command_line(a, type)`: the number of slots written, the table, and `multicast_id`.
With type 0 the first word is an id; a repeated id has the second word overwritten by
`"duplicate"` in the message itself, before the words are copied.  An id word of 100 bytes or more
fills `buff` without a terminator, and `atoi(buff)` reads on into what lies behind it. -/
def getCommandLine (stack : Stack) (t : CommandLine) (multicastId : BitVec 64) (a : List Byte)
    (type : ℤ) : Except MemoryFault (ℕ × CommandLine × BitVec 64) := do
  let (token, a, next) ← strtok space a 0
  if type = 0 then
    match token with
    | none => .error nullPointer
    | some p =>
      let buff ← strncpy 100 (a.drop p)
      let (token, a, next) ← strtokNext space a next
      let id ← atoi (buff.toList ++ stack.bytes)
      let id := BitVec.ofInt 64 id
      let a ← markDuplicate multicastId id token a
      let (i, t) ← copyWords t 0 token a next
      .ok (i, t, id)
  else
    let (i, t) ← copyWords t 0 token a next
    .ok (i, t, multicastId)

/-! ## What a message puts into the table -/

/-- The table after the slots from 0 on were written with `fresh`. -/
def CommandLine.Overwritten (t t' : CommandLine) (fresh : List Row) : Prop :=
  t'.rows = fresh ++ t.rows.drop fresh.length

/-- A computation on the table either faults, whatever the table, or writes the same slots `fresh`
into every table and returns their number. -/
def WritesFresh (f : CommandLine → Except MemoryFault (ℕ × CommandLine × BitVec 64)) : Prop :=
  (∃ e, ∀ t, f t = .error e) ∨
    ∃ (fresh : List Row) (id : BitVec 64), fresh.length ≤ COMMAND_ITEMS ∧
      ∀ t, ∃ t', f t = .ok (fresh.length, t', id) ∧ t.Overwritten t' fresh

/-! ## Messages of separated words -/

/-- The bytes of some words with one delimiter between them. -/
def joinWords : List (List Byte) → List Byte
  | [] => []
  | [w] => w
  | w :: ws => w ++ space :: joinWords ws

/-- The slot that holds a word. -/
def rowOf (w : List Byte) : Row := padded COMMAND_SLOT_SIZE w

end Strand
