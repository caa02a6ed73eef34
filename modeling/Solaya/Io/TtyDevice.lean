import Solaya.Headers
import Solaya.Klibc.ArrayVec
import Solaya.Processes.ProcessTable
import Mathlib.Data.List.DropRight

/-!
# The console's line discipline

The UART interrupt hands every received byte to
`TtyDeviceInner::process_input_byte` (`io/tty_device.rs`) and writes the echo
it returns to the UART (`interrupts/trap.rs`).  In canonical mode the bytes
collect in `line_buf` until a newline or `VEOF` moves the line to `input_buf`,
from which `ReadTty` reads.  `VERASE` and `VKILL` edit the line and, with
`ECHOE`, echo `"\b \b"` per byte erased.

The echo of one byte is built in an `ArrayVec<u8, 192>`, and a push that
finds it full is dropped without a word.  A `VKILL` over a line of more than
64 bytes therefore erases only 64 of them on the terminal.  And `input_buf`
runs completed lines together, so one canonical read can return two lines
(`canonical_echo_overflow_and_merged_lines`).
-/

namespace Solaya

/-! ## The device -/

/-- The fields of `termios` the line discipline reads. -/
structure Termios where
  cIflag : UInt32
  cOflag : UInt32
  cLflag : UInt32
  cCc : Fin nccs → UInt8

/-- `InputAction`. -/
inductive InputAction where
  | consumed
  | signal (sig : UInt32)
  deriving DecidableEq, Repr

/-- `InputResult`: what to do, and the echo for the terminal. -/
structure InputResult where
  action : InputAction
  echo : ArrayVec UInt8 192

/-- `TtyDeviceInner`; a waker is named by the task it wakes. -/
structure TtyDeviceInner where
  settings : Termios
  lineBuf : List UInt8
  inputBuf : List UInt8
  wakeupQueue : List ℕ
  fgPgid : ℕ
  eofPending : Bool
  lastTtySignal : Option (UInt32 × ℕ)

namespace TtyDeviceInner

/-- `TtyDeviceInner::new`: canonical mode with echo, `^C ^\ DEL ^U ^D ^Z`,
`VMIN = 1`, in the foreground group of init. -/
def new : TtyDeviceInner where
  settings := {
    cIflag := icrnl
    cOflag := opost ||| onlcr
    cLflag := isig ||| icanon ||| echoFlag ||| echoe
    cCc := fun i =>
      if i = vintr then 3 else if i = vquit then 28 else if i = verase then 127
      else if i = vkill then 21 else if i = veof then 4 else if i = vsusp then 26
      else if i = vmin then 1 else 0 }
  lineBuf := []
  inputBuf := []
  wakeupQueue := []
  fgPgid := 1
  eofPending := false
  lastTtySignal := none

/-- `has_lflag`. -/
def hasLflag (d : TtyDeviceInner) (flag : UInt32) : Bool := d.settings.cLflag &&& flag != 0

/-- `has_iflag`. -/
def hasIflag (d : TtyDeviceInner) (flag : UInt32) : Bool := d.settings.cIflag &&& flag != 0

/-- `has_oflag`. -/
def hasOflag (d : TtyDeviceInner) (flag : UInt32) : Bool := d.settings.cOflag &&& flag != 0

/-- `echo_newline`. -/
def echoNewline (d : TtyDeviceInner) (echo : ArrayVec UInt8 192) : ArrayVec UInt8 192 :=
  let echo := if d.hasOflag opost && d.hasOflag onlcr then echo.pushOrDrop 0x0d else echo
  echo.pushOrDrop 0x0a

/-- `wake_all`: every queued waker is taken and woken. -/
def wakeAll (d : TtyDeviceInner) : TtyDeviceInner := { d with wakeupQueue := [] }

/-- `flush_line_buf`: the line goes to the input. -/
def flushLineBuf (d : TtyDeviceInner) : TtyDeviceInner :=
  { d with inputBuf := d.inputBuf ++ d.lineBuf, lineBuf := [], eofPending := false }.wakeAll

/-- `push_input`. -/
def pushInput (d : TtyDeviceInner) (byte : UInt8) : TtyDeviceInner :=
  { d with inputBuf := d.inputBuf ++ [byte] }.wakeAll

/-- The three signal characters in the order `process_input_byte` tests
them, with the letter echoed after `^` and the signal raised. -/
def isigChars : List (Fin nccs × UInt8 × UInt32) :=
  [(vintr, 0x43, SIGINT), (vsusp, 0x5a, SIGTSTP), (vquit, 0x5c, SIGQUIT)]

/-- `"\b \b"`, the echo that erases one byte. -/
def eraseEcho (echo : ArrayVec UInt8 192) : ArrayVec UInt8 192 :=
  [0x08, 0x20, 0x08].foldl ArrayVec.pushOrDrop echo

/-- `process_input_byte`: the echo and the action for one received byte.
`ICRNL` maps `\r` to `\n` first; with `ISIG` a signal character drops the line
and all unread input; in canonical mode the line is edited; otherwise the byte
is input at once. -/
def processInputByte (d : TtyDeviceInner) (byte : UInt8) : InputResult × TtyDeviceInner :=
  let d := { d with lastTtySignal := none }
  let echo : ArrayVec UInt8 192 := .new
  let byte := if d.hasIflag icrnl && byte == 0x0d then 0x0a else byte
  let signalChar := if d.hasLflag isig then
      isigChars.find? fun entry => byte == d.settings.cCc entry.1
    else none
  match signalChar with
  | some (_, letter, sig) =>
    let echo := if d.hasLflag echoFlag then
        d.echoNewline ((echo.pushOrDrop 0x5e).pushOrDrop letter)
      else echo
    (⟨.signal sig, echo⟩, { d with lineBuf := [], inputBuf := [], eofPending := false })
  | none =>
    if d.hasLflag icanon then
      if byte == 0x0a then
        let d := { d with lineBuf := d.lineBuf ++ [byte] }
        let echo := if d.hasLflag echoFlag then d.echoNewline echo else echo
        (⟨.consumed, echo⟩, d.flushLineBuf)
      else if byte == d.settings.cCc verase then
        -- `line_buf.pop_back()`
        if d.lineBuf.isEmpty then (⟨.consumed, echo⟩, d)
        else
          let echo := if d.hasLflag echoe then eraseEcho echo else echo
          (⟨.consumed, echo⟩, { d with lineBuf := d.lineBuf.dropLast })
      else if byte == d.settings.cCc veof then
        if d.lineBuf.isEmpty then (⟨.consumed, echo⟩, { d with eofPending := true }.wakeAll)
        else (⟨.consumed, echo⟩, d.flushLineBuf)
      else if byte == d.settings.cCc vkill then
        let echo := if d.hasLflag echoe then
            (List.replicate d.lineBuf.length ()).foldl (fun echo _ => eraseEcho echo) echo
          else echo
        (⟨.consumed, echo⟩, { d with lineBuf := [] })
      else
        let echo := if d.hasLflag echoFlag then echo.pushOrDrop byte else echo
        (⟨.consumed, echo⟩, { d with lineBuf := d.lineBuf ++ [byte] })
    else
      let echo := if d.hasLflag echoFlag then echo.pushOrDrop byte else echo
      (⟨.consumed, echo⟩, d.pushInput byte)

/-- `get_input`: up to `count` bytes from the front of the input. -/
def getInput (d : TtyDeviceInner) (count : ℕ) : List UInt8 × TtyDeviceInner :=
  let actualCount := min d.inputBuf.length count
  (d.inputBuf.take actualCount, { d with inputBuf := d.inputBuf.drop actualCount })

/-- The UART interrupt's loop (`interrupts/trap.rs`): each byte's echo goes to
the UART in turn, and the last signal character's signal is recorded for the
foreground group and sent. -/
def receiveBytes (d : TtyDeviceInner) (bytes : List UInt8) :
    List UInt8 × Option UInt32 × TtyDeviceInner :=
  let (uart, signalToSend, d) := bytes.foldl
    (fun (acc : List UInt8 × Option UInt32 × TtyDeviceInner) byte =>
      let (result, d) := acc.2.2.processInputByte byte
      (acc.1 ++ result.echo.elements,
        match result.action with
        | .signal sig => some sig
        | .consumed => acc.2.1,
        d))
    ([], none, d)
  match signalToSend with
  | some sig => (uart, some sig, { d with lastTtySignal := some (sig, d.fgPgid) })
  | none => (uart, none, d)

end TtyDeviceInner

/-! ## Reading -/

/-- `ReadTty`: a read of at most `max_count` bytes by thread `tid` of a
process in group `pgid`. -/
structure ReadTty where
  maxCount : ℕ
  pgid : ℕ
  tid : ℕ
  deriving DecidableEq, Repr

/-- `ReadTty::poll` by the task `waker`: ready (`some`) or pending (`none`).
A reader outside the foreground group gets `EIO` when `SIGTTIN` is blocked or
ignored, or else sends `SIGTTIN` to its group and waits. -/
def ReadTty.poll (r : ReadTty) (dev : TtyDeviceInner) (pt : ProcessTable) (waker : ℕ) :
    Option (TtyDeviceInner × ProcessTable × Option (Except Errno (List UInt8))) :=
  if r.pgid ≠ dev.fgPgid then
    let shouldEio := match pt.threads r.tid with
      | none => true
      | some t =>
        t.signalState.sigmask &&& (1 <<< SIGTTIN.toUInt64) != 0 ||
          (t.signalState.sigaction SIGTTIN).saHandler == some 1
    if shouldEio then some (dev, pt, some (.error .eio))
    else (pt.sendSignalToPgid r.pgid SIGTTIN).map fun pt => (dev, pt, none)
  else
    let isCanonical := dev.hasLflag icanon
    let vmin := (dev.settings.cCc vmin).toNat
    let minNeeded := if isCanonical then 1 else max vmin 1
    if !dev.inputBuf.isEmpty &&
        (dev.inputBuf.length ≥ minNeeded || dev.inputBuf.length ≥ r.maxCount) then
      let (bytes, dev) := dev.getInput r.maxCount
      some (dev, pt, some (.ok bytes))
    else if isCanonical && dev.eofPending then
      some ({ dev with eofPending := false }, pt, some (.ok []))
    else if !isCanonical && vmin == 0 then
      let (bytes, dev) := dev.getInput r.maxCount
      some (dev, pt, some (.ok bytes))
    else some ({ dev with wakeupQueue := dev.wakeupQueue ++ [waker] }, pt, none)

/-! ## The terminal -/

/-- The terminal the claim renders the echo on: one row of cells and a
cursor.  A byte is written at the cursor, which moves right; `\b` moves it
left; `\r` moves it to the start of the row; `\n` starts a new row. -/
structure Terminal where
  row : List UInt8
  cursor : ℕ
  deriving DecidableEq, Repr

namespace Terminal

/-- One byte of output. -/
def put (t : Terminal) (byte : UInt8) : Terminal :=
  if byte = 0x0a then ⟨[], 0⟩
  else if byte = 0x08 then { t with cursor := t.cursor - 1 }
  else if byte = 0x0d then { t with cursor := 0 }
  else if t.cursor < t.row.length then ⟨t.row.set t.cursor byte, t.cursor + 1⟩
  else ⟨t.row ++ [byte], t.cursor + 1⟩

/-- What the current row shows: its cells without the blanks at its end. -/
def shown (t : Terminal) : List UInt8 := t.row.rdropWhile (· == 0x20)

/-- The row an output leaves, from a fresh row. -/
def render (output : List UInt8) : Terminal := output.foldl put ⟨[], 0⟩

end Terminal

/-- On the default console, 65 `a`s and `^U`: the kill echo is cut at 192
bytes, 64 erasures, and the terminal still shows one `a` of the erased line.
Then `a\nb\n`: one canonical read of 10 bytes by a foreground reader returns
both lines. -/
theorem canonical_echo_overflow_and_merged_lines :
    (TtyDeviceInner.new.receiveBytes (List.replicate 65 0x61 ++ [21])).2.2.lineBuf = [] ∧
      (Terminal.render (TtyDeviceInner.new.receiveBytes
        (List.replicate 65 0x61 ++ [21])).1).shown = [0x61] ∧
      ((ReadTty.mk 10 1 1).poll (TtyDeviceInner.new.receiveBytes [0x61, 0x0a, 0x62, 0x0a]).2.2
        ProcessTable.boot 0).map (·.2.2) = some (some (.ok [0x61, 0x0a, 0x62, 0x0a])) := by
  refine ⟨by decide +kernel, by decide +kernel, by decide +kernel⟩

end Solaya
