import Solaya.Processes.Process
import Solaya.Klibc.ConsumableBuffer

/-!
# Strings from user space

Every path argument is read by `read_cstring` (`syscalls/helpers.rs`), and
`execve`'s argument and environment vectors by `read_string_array`
(`syscalls/exec_ops.rs`).  Both first copy a window of up to 256 bytes,
which `read_userspace_slice` checks page by page as a whole, and only then
look for the NUL in it with `consume_str`.  A string whose NUL is readable but
whose 256-byte window reaches an unmapped page is a fault
(`readCstring_window_faults`).  `do_execve` then keeps only the argument and
environment strings `consume_str` accepts, and drops the others without an
error.

User memory is the machine's memory by physical address, reached through the
process's page table.
-/

namespace Solaya

namespace LinuxSyscallHandler

open Process

/-- `read_cstring`: the path at `addr`, read from a window of up to 256 bytes
that stops at the end of the address space.  `usize::MAX - addr + 1`
overflows for the null address, which is a panic. -/
def readCstring (pageTable : RootPageTableHolder) (memory : ℕ → UInt8) (addr : ℕ) :
    Option (Except Errno (List UInt8)) := do
  let bound ← checkedAdd (usizeMax - addr) 1
  let maxLen := min 256 bound
  match ← readUserspaceSlice pageTable memory addr maxLen with
  | .error e => pure (.error e)
  | .ok bytes =>
    pure (match (ConsumableBuffer.new bytes).consumeStr with
      | some (string, _) => .ok string
      | none => .error .efault)

/-- What `read_cstring` returns once its window is read: the bytes before the
first NUL when they are UTF-8, whatever follows the NUL. -/
theorem readCstring_of_window {pageTable : RootPageTableHolder} {memory : ℕ → UInt8}
    {addr : ℕ} (haddr : 0 < addr) {string rest : List UInt8}
    (hwindow : readUserspaceSlice pageTable memory addr (min 256 (usizeMax - addr + 1)) =
      some (.ok (string ++ 0 :: rest)))
    (hnul : ∀ c ∈ string, c ≠ 0) :
    readCstring pageTable memory addr =
      some (if isUtf8 string then .ok string else .error .efault) := by
  have hbound : checkedAdd (usizeMax - addr) 1 = some (usizeMax - addr + 1) := by
    unfold checkedAdd usizeMax
    rw [if_neg (by omega)]
  simp only [readCstring, hbound, Option.bind_eq_bind, Option.bind_some, hwindow,
    ConsumableBuffer.consumeStr_new_append hnul rest]
  split_ifs <;> rfl

/-- `read_string_array` for at most `fuel` entries: the windows of up to 256
bytes that the array's pointers point at, up to its null entry; `none` once
the fuel is spent.  The cursor moves by `usize` words with `wrapping_add`. -/
def readStringArrayFuel (pageTable : RootPageTableHolder) (memory : ℕ → UInt8) :
    ℕ → ℕ → Option (Except Errno (List (List UInt8)))
  | 0, _ => none
  | fuel + 1, current => do
    match ← readUserspaceUsize pageTable memory current with
    | .error e => pure (.error e)
    | .ok ptrVal =>
      if ptrVal = 0 then pure (.ok [])
      else
        -- `usize::MAX.wrapping_sub(ptr_val).wrapping_add(1).min(256)`
        let maxRead := min ((usizeMax - ptrVal + 1) % 2 ^ 64) 256
        match ← readUserspaceSlice pageTable memory ptrVal maxRead with
        | .error e => pure (.error e)
        | .ok bytes =>
          let rest ← readStringArrayFuel pageTable memory fuel ((current + 8) % 2 ^ 64)
          pure (rest.map (bytes :: ·))

/-- `read_string_array`.  After `2^61` entries the cursor is back at the
start of the array, so a loop that has not met a null entry or a fault by then
runs forever: `none`. -/
def readStringArray (pageTable : RootPageTableHolder) (memory : ℕ → UInt8) (arrayPtr : ℕ) :
    Option (Except Errno (List (List UInt8))) :=
  readStringArrayFuel pageTable memory (2 ^ 61 + 1) arrayPtr

/-- `filename_str.rsplit('/').next()`: what follows the last `/`. -/
def lastPathComponent (path : List UInt8) : List UInt8 :=
  (path.reverse.takeWhile (· != 0x2f)).reverse

/-- The strings of a vector that `consume_str` accepts; `do_execve` skips the
others. -/
def acceptedStrings (buffers : List (List UInt8)) : List (List UInt8) :=
  buffers.filterMap fun buffer => ((ConsumableBuffer.new buffer).consumeStr).map (·.1)

/-- The part of `do_execve` that reads its arguments: the program name, and
the arguments and environment it hands to `load_elf`.  The file name is read
through a 256-byte window that is not clamped to the address space. -/
def execveArguments (pageTable : RootPageTableHolder) (memory : ℕ → UInt8)
    (filename argv envp : ℕ) :
    Option (Except Errno (List UInt8 × List (List UInt8) × List (List UInt8))) := do
  match ← readUserspaceSlice pageTable memory filename 256 with
  | .error e => pure (.error e)
  | .ok filenameBytes =>
    match (ConsumableBuffer.new filenameBytes).consumeStr with
    | none => pure (.error .efault)
    | some (filenameStr, _) =>
      let name := lastPathComponent filenameStr
      match ← readStringArray pageTable memory argv with
      | .error e => pure (.error e)
      | .ok argvBuffers =>
        -- argv[0] is skipped: `load_elf` puts the name there
        let args := acceptedStrings (argvBuffers.drop 1)
        let envpBuffers ← if envp ≠ 0 then readStringArray pageTable memory envp
          else pure (.ok [])
        pure (envpBuffers.map fun envpBuffers => (name, args, acceptedStrings envpBuffers))

/-- Memory holding the bytes `cells` lists, and zero elsewhere. -/
def memoryOf (cells : List (ℕ × UInt8)) (addr : ℕ) : UInt8 :=
  ((cells.find? (·.1 == addr)).map (·.2)).getD 0

/-- One user page at `0x1000`, backed by the physical page `0x10000`: an
argument vector at `0x1000` pointing at `"sh"` (`0x1800`) and at the byte
`0xff` (`0x1808`), the path `"sh"` at `0x1900`, and the one-byte string `"a"`
in the page's last two bytes. -/
def execveTestMemory : ℕ → UInt8 :=
  memoryOf [(0x10001, 0x18), (0x10008, 0x08), (0x10009, 0x18),
    (0x10800, 0x73), (0x10801, 0x68), (0x10808, 0xff),
    (0x10900, 0x73), (0x10901, 0x68), (0x10ffe, 0x61)]

/-- With the page after it unmapped, the string `"a"` whose NUL ends the page
`0x1000` is a fault for `read_cstring`; and `execve("sh", ["sh", "\xff"], NULL)`
hands `load_elf` no argument at all for the string that is not UTF-8. -/
theorem readCstring_window_faults :
    ∃ pageTable, Machine.run RootPageTableHolder.mapCall RootPageTableHolder.empty
        [⟨0x1000, 0x10000, 0x1000, .readWrite, true⟩] = some pageTable ∧
      (execveTestMemory 0x10ffe, execveTestMemory 0x10fff) = (0x61, 0) ∧
      readCstring pageTable execveTestMemory 0x1ffe = some (.error .efault) ∧
      readStringArray pageTable execveTestMemory 0x1000 =
        some (.ok [(List.range 256).map fun i => execveTestMemory (0x10800 + i),
          (List.range 256).map fun i => execveTestMemory (0x10808 + i)]) ∧
      execveArguments pageTable execveTestMemory 0x1900 0x1000 0 =
        some (.ok ([0x73, 0x68], [], [])) :=
  ⟨_, rfl, rfl, rfl, by decide +kernel, by decide +kernel⟩

end LinuxSyscallHandler

end Solaya
