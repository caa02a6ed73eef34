import Solaya.Klibc.WritableBuffer
import Solaya.Klibc.Util
import Solaya.Klibc.Elf
import Solaya.Memory.PageTableRefinement
import Solaya.Processes.Thread
import Solaya.Headers

/-!
# The initial stack of a process

`load_elf` (`processes/loader.rs`) gives every new process a stack of
`STACK_SIZE` bytes whose last byte is at `STACK_START = usize::MAX`, and
`set_up_arguments` fills its top with what the C runtime reads at the entry
point: `argc`, the `argv` pointers and a null, the `envp` pointers and a null,
the auxiliary vector up to `AT_NULL`, the strings each followed by a NUL, and
sixteen random bytes for `AT_RANDOM`, the whole rounded up to eight bytes.

`set_up_arguments` computes where each string will be before it writes
anything, then writes the image through a `WritableBuffer` into the last
`total_length` bytes of the slice.  The model follows that: the pointer loops
are `patchPointers`, the writes are `WritableBuffer` writes.  The sizes it adds
up are those of buffers the kernel holds in memory, so no addition overflows.

`argumentsImage` is the image as the C runtime reads it, and
`ArgumentsLaidOut` states what a reader of the stack memory finds from
`args_start` on.  `setUpArguments_of_lt` shows that the loader writes exactly
`argumentsImage`, and `argumentsLaidOut_of_image` reads it back.

`load_elf` then maps the stack, the signal trampoline, one run of fresh zeroed
pages per `PT_LOAD` segment holding the segment's file bytes at the segment's
offset in its first page, and four pages of `brk` after the highest segment.
It takes the auxiliary vector's `AT_PHDR` from the first `PT_LOAD` segment and
asserts that this segment starts at file offset 0: a file whose first loadable
segment starts elsewhere, or that has none, is a panic
(`loadElf_eq_none_of_firstLoad`), as is a segment that occupies no page.
-/

namespace Solaya.Loader

open Bytes Elf

/-- `STACK_START`: the stack's last byte. -/
def stackStart : ℕ := usizeMax

/-- `STACK_SIZE_PAGES`. -/
def stackSizePages : ℕ := 32

/-- `STACK_SIZE`. -/
def stackSize : ℕ := pageSize * stackSizePages

/-- `STACK_END`: the stack's first byte. -/
def stackEnd : ℕ := usizeMax - stackSize + 1

/-- The stack's bytes are `[STACK_END, STACK_START]`. -/
theorem stackEnd_add_stackSize : stackEnd + stackSize = stackStart + 1 := by
  unfold stackEnd stackStart stackSize pageSize stackSizePages usizeMax
  norm_num

/-- `AT_RANDOM_SIZE`. -/
def atRandomSize : ℕ := 16

/-- `common::errors::LoaderError`. -/
inductive LoaderError where
  | stackToSmall
  deriving DecidableEq, Repr

/-- `AuxvInfo`: where the program headers are mapped, and their size and
number. -/
structure AuxvInfo where
  phdrVaddr : ℕ
  phent : ℕ
  phnum : ℕ
  deriving DecidableEq, Repr

/-- The loops that patch `argv` and `envp`: from entry `idx` on, each entry of
`vector` gets the address the next string will have; the cursor moves past
the string and its NUL with `wrapping_add`.  Returns the vector and the cursor
after the last string. -/
def patchPointers (vector : List ℕ) (idx cursor : ℕ) : List (List UInt8) → List ℕ × ℕ
  | [] => (vector, cursor)
  | string :: strings =>
    patchPointers (vector.set idx cursor) (idx + 1) ((cursor + (string.length + 1)) % 2 ^ 64)
      strings

/-- `set_up_arguments`: the address `args_start` and the stack after the
writes.  `random_bytes` is what `virtio::rng` gives, all zero without the
device.  The outer `none` is the `expect` on finding `AT_RANDOM` in `auxv`. -/
def setUpArguments (stack name : List UInt8) (args env : List (List UInt8))
    (auxvInfo : AuxvInfo) (randomBytes : Fin atRandomSize → UInt8) :
    Option (Except LoaderError (ℕ × List UInt8)) := do
  let argc := 1 + args.length
  let argv := List.replicate (args.length + 2) 0
  let envp := List.replicate (env.length + 1) 0
  let auxv := [atPagesz, pageSize, atPhdr, auxvInfo.phdrVaddr, atPhent, auxvInfo.phent,
    atPhnum, auxvInfo.phnum, atRandom, 0, atNull, 0]
  let strings := (name :: args ++ env).flatMap (· ++ [0])
  let startOfStringsOffset := 8 + 8 * argv.length + 8 * envp.length + 8 * auxv.length
  let randomBytesOffset := startOfStringsOffset + strings.length
  let totalLength := alignUp (randomBytesOffset + atRandomSize) 8
  if totalLength ≥ stack.length then return .error .stackToSmall
  let realStart := stackStart - totalLength + 1
  -- `auxv.chunks(2).position(|pair| pair[0] == AT_RANDOM)`
  let atRandomPairIdx ←
    (List.range (auxv.length / 2)).find? fun pairIdx => auxv[2 * pairIdx]? == some atRandom
  let auxv := auxv.set (atRandomPairIdx * 2 + 1) (realStart + randomBytesOffset)
  let argvPatched := patchPointers argv 0 (realStart + startOfStringsOffset) (name :: args)
  let envpPatched := patchPointers envp 0 argvPatched.2 env
  let offset := stack.length - totalLength
  let written : Except WritableBufferError WritableBuffer := do
    let w ← (WritableBuffer.new (stack.drop offset)).writeUsize argc
    let w ← argvPatched.1.foldlM WritableBuffer.writeUsize w
    let w ← envpPatched.1.foldlM WritableBuffer.writeUsize w
    let w ← auxv.foldlM WritableBuffer.writeUsize w
    let w ← w.writeSlice strings
    w.writeSlice (List.ofFn randomBytes)
  pure (match written with
    | .error _ => .error .stackToSmall
    | .ok w => .ok (stackStart - totalLength + 1, stack.take offset ++ w.buf))

/-! ## The image the C runtime reads -/

/-- The strings one after another, each followed by its NUL. -/
def nulTerminated (strings : List (List UInt8)) : List UInt8 :=
  strings.flatMap (· ++ [0])

/-- Where each string starts when they are laid out from `cursor`, each
after the previous one's NUL; addresses wrap as `wrapping_add` does. -/
def stringPointers (cursor : ℕ) : List (List UInt8) → List ℕ
  | [] => []
  | string :: strings => cursor :: stringPointers ((cursor + (string.length + 1)) % 2 ^ 64) strings

/-- Where the cursor ends after laying out the strings from `cursor`. -/
def cursorAfter (cursor : ℕ) : List (List UInt8) → ℕ
  | [] => cursor
  | string :: strings => cursorAfter ((cursor + (string.length + 1)) % 2 ^ 64) strings

/-- The auxiliary vector: key and value pairs up to `AT_NULL`. -/
def auxvWords (auxvInfo : AuxvInfo) (randomPtr : ℕ) : List ℕ :=
  [atPagesz, pageSize, atPhdr, auxvInfo.phdrVaddr, atPhent, auxvInfo.phent,
    atPhnum, auxvInfo.phnum, atRandom, randomPtr, atNull, 0]

/-- Where the strings start: after sixteen words and one per string. -/
def stringsStart (args env : List (List UInt8)) (argsStart : ℕ) : ℕ :=
  argsStart + 8 * (16 + args.length + env.length)

/-- The words from `args_start` on: `argc`, the `argv` pointers and a null,
the `envp` pointers and a null, and the auxiliary vector.  The random bytes
come after the strings. -/
def headerWords (name : List UInt8) (args env : List (List UInt8)) (auxvInfo : AuxvInfo)
    (argsStart : ℕ) : List ℕ :=
  let pointers := stringPointers (stringsStart args env argsStart) (name :: args ++ env)
  let randomPtr := stringsStart args env argsStart + (nulTerminated (name :: args ++ env)).length
  (1 + args.length) :: (pointers.take (args.length + 1) ++ 0 ::
    (pointers.drop (args.length + 1) ++ 0 :: auxvWords auxvInfo randomPtr))

/-- The bytes from `args_start` on. -/
def argumentsImage (name : List UInt8) (args env : List (List UInt8)) (auxvInfo : AuxvInfo)
    (randomBytes : Fin atRandomSize → UInt8) (argsStart : ℕ) : List UInt8 :=
  (headerWords name args env auxvInfo argsStart).flatMap (encodeLE 8) ++
    nulTerminated (name :: args ++ env) ++ List.ofFn randomBytes

/-- The image's size rounded up to eight bytes: what must fit strictly inside
the stack. -/
def argumentsImageLength (name : List UInt8) (args env : List (List UInt8)) : ℕ :=
  alignUp (8 * (16 + args.length + env.length) + (nulTerminated (name :: args ++ env)).length +
    atRandomSize) 8

/-! ## Strings and their pointers -/

@[simp]
theorem nulTerminated_nil : nulTerminated [] = [] := rfl

@[simp]
theorem nulTerminated_cons (string : List UInt8) (strings : List (List UInt8)) :
    nulTerminated (string :: strings) = string ++ 0 :: nulTerminated strings := by
  simp [nulTerminated]

theorem nulTerminated_append (strings strings' : List (List UInt8)) :
    nulTerminated (strings ++ strings') = nulTerminated strings ++ nulTerminated strings' :=
  List.flatMap_append

/-- The strings before the `k`-th, the `k`-th with its NUL, and those after. -/
theorem nulTerminated_eq_split (strings : List (List UInt8)) (k : ℕ) (hk : k < strings.length) :
    nulTerminated strings = nulTerminated (strings.take k) ++
      (strings[k] ++ 0 :: nulTerminated (strings.drop (k + 1))) := by
  rw [← nulTerminated_cons, ← nulTerminated_append, ← List.drop_eq_getElem_cons hk,
    List.take_append_drop]

/-- The `k`-th string and its NUL, found where the first `k` strings end. -/
theorem take_drop_nulTerminated (strings : List (List UInt8)) (k : ℕ) (hk : k < strings.length) :
    ((nulTerminated strings).drop (nulTerminated (strings.take k)).length).take
      (strings[k].length + 1) = strings[k] ++ [0] := by
  rw [nulTerminated_eq_split strings k hk, List.drop_left]
  simp [List.take_append, List.take_of_length_le]

/-- The first `k` strings and the `k`-th one with its NUL fit in the whole. -/
theorem length_nulTerminated_take_add (strings : List (List UInt8)) (k : ℕ)
    (hk : k < strings.length) :
    (nulTerminated (strings.take k)).length + (strings[k].length + 1) ≤
      (nulTerminated strings).length := by
  rw [nulTerminated_eq_split strings k hk]
  simp only [List.length_append, List.length_cons]
  omega

@[simp]
theorem length_stringPointers (cursor : ℕ) (strings : List (List UInt8)) :
    (stringPointers cursor strings).length = strings.length := by
  induction strings generalizing cursor with
  | nil => rfl
  | cons string strings ih => simp [stringPointers, ih]

/-- The `k`-th pointer is the cursor moved past the first `k` strings. -/
theorem getElem_stringPointers {cursor : ℕ} (hcursor : cursor < 2 ^ 64)
    (strings : List (List UInt8)) (k : ℕ) (hk : k < (stringPointers cursor strings).length) :
    (stringPointers cursor strings)[k] = (cursor + (nulTerminated (strings.take k)).length) % 2 ^ 64 := by
  induction strings generalizing cursor k with
  | nil => simp at hk
  | cons string strings ih =>
    cases k with
    | zero =>
      simp only [stringPointers, List.getElem_cons_zero, List.take_zero, nulTerminated_nil,
        List.length_nil, Nat.add_zero]
      exact (Nat.mod_eq_of_lt hcursor).symm
    | succ k =>
      simp only [stringPointers, List.getElem_cons_succ, List.take_succ_cons, nulTerminated_cons,
        List.length_append, List.length_cons]
      rw [ih (Nat.mod_lt _ (by norm_num)), Nat.mod_add_mod]
      congr 1
      omega

theorem stringPointers_append (cursor : ℕ) (strings strings' : List (List UInt8)) :
    stringPointers cursor (strings ++ strings') =
      stringPointers cursor strings ++ stringPointers (cursorAfter cursor strings) strings' := by
  induction strings generalizing cursor with
  | nil => rfl
  | cons string strings ih => simp [stringPointers, cursorAfter, ih]

/-- The patching loops write the strings' pointers over entries `idx` on. -/
theorem patchPointers_eq (vector : List ℕ) (idx cursor : ℕ) (strings : List (List UInt8))
    (h : idx + strings.length ≤ vector.length) :
    patchPointers vector idx cursor strings =
      (vector.take idx ++ stringPointers cursor strings ++ vector.drop (idx + strings.length),
        cursorAfter cursor strings) := by
  induction strings generalizing vector idx cursor with
  | nil => simp [patchPointers, stringPointers, cursorAfter]
  | cons string strings ih =>
    have hidx : idx < vector.length := by simp at h; omega
    rw [patchPointers, ih _ _ _ (by simp at h ⊢; omega), List.set_eq_take_append_cons_drop,
      if_pos hidx]
    simp only [stringPointers, cursorAfter, List.length_cons, Prod.mk.injEq, and_true]
    simp [List.take_append, List.drop_append, List.take_take, List.drop_drop, hidx.le,
      Nat.add_comm 1, Nat.add_assoc]

/-! ## Reading the stack -/

/-- The stack slice read as the memory `[STACK_END, STACK_START]`. -/
def stackMemory (stack : List UInt8) (addr : ℕ) : UInt8 :=
  if stackEnd ≤ addr then stack.getD (addr - stackEnd) 0 else 0

/-- The `count` bytes at `addr`. -/
def readBytes (memory : ℕ → UInt8) (addr count : ℕ) : List UInt8 :=
  (List.range count).map fun i => memory (addr + i)

/-- The `usize` at `addr`. -/
def readWord (memory : ℕ → UInt8) (addr : ℕ) : ℕ :=
  decodeLE (readBytes memory addr 8)

/-- The `count` words from `addr` on. -/
def readWords (memory : ℕ → UInt8) (addr count : ℕ) : List ℕ :=
  (List.range count).map fun k => readWord memory (addr + 8 * k)

/-- `pointer` points at a NUL-terminated copy of `string` that lies between
`low` and `STACK_START`. -/
structure PointsToString (memory : ℕ → UInt8) (low pointer : ℕ) (string : List UInt8) :
    Prop where
  low_le : low ≤ pointer
  le_stackStart : pointer + string.length ≤ stackStart
  bytes : readBytes memory pointer (string.length + 1) = string ++ [0]

/-- What the C runtime finds from `args_start` on: `argc`; `argv` pointing at
the program name and the arguments, then a null; `envp` pointing at the
environment strings, then a null; the auxiliary vector up to `AT_NULL`, whose
`AT_RANDOM` value points at the random bytes.  Everything pointed at lies
between `args_start` and `STACK_START`. -/
structure ArgumentsLaidOut (memory : ℕ → UInt8) (argsStart : ℕ) (name : List UInt8)
    (args env : List (List UInt8)) (auxvInfo : AuxvInfo)
    (randomBytes : Fin atRandomSize → UInt8) : Prop where
  argc : readWord memory argsStart = 1 + args.length
  argv : ∀ i (hi : i < (name :: args).length),
    PointsToString memory argsStart (readWord memory (argsStart + 8 * (1 + i))) (name :: args)[i]
  argvNull : readWord memory (argsStart + 8 * (2 + args.length)) = 0
  envp : ∀ j (hj : j < env.length),
    PointsToString memory argsStart (readWord memory (argsStart + 8 * (3 + args.length + j))) env[j]
  envpNull : readWord memory (argsStart + 8 * (3 + args.length + env.length)) = 0
  auxv : ∃ randomPtr,
    readWords memory (argsStart + 8 * (4 + args.length + env.length)) 12 =
      [atPagesz, pageSize, atPhdr, auxvInfo.phdrVaddr % 2 ^ 64, atPhent, auxvInfo.phent % 2 ^ 64,
        atPhnum, auxvInfo.phnum % 2 ^ 64, atRandom, randomPtr, atNull, 0] ∧
    argsStart ≤ randomPtr ∧ randomPtr + atRandomSize ≤ stackStart + 1 ∧
    readBytes memory randomPtr atRandomSize = List.ofFn randomBytes

/-! ## Reading the image back -/

@[simp]
theorem length_readBytes (memory : ℕ → UInt8) (addr count : ℕ) :
    (readBytes memory addr count).length = count := by
  simp [readBytes]

section Image

variable (name : List UInt8) (args env : List (List UInt8)) (auxvInfo : AuxvInfo)
  (randomBytes : Fin atRandomSize → UInt8) {pre post : List UInt8} {argsStart : ℕ}

@[simp]
theorem length_headerWords :
    (headerWords name args env auxvInfo argsStart).length = 16 + args.length + env.length := by
  simp [headerWords, auxvWords]
  omega

theorem length_argumentsImage :
    (argumentsImage name args env auxvInfo randomBytes argsStart).length =
      8 * (16 + args.length + env.length) + (nulTerminated (name :: args ++ env)).length +
        atRandomSize := by
  simp only [argumentsImage, List.length_append, length_flatMap_encodeLE, length_headerWords,
    List.length_ofFn]

/-- Bytes of a stack whose image starts at `argsStart`, read back from
there. -/
theorem readBytes_stackMemory {image : List UInt8} (hpre : stackEnd + pre.length = argsStart)
    {a n : ℕ} (hn : a + n ≤ image.length) :
    readBytes (stackMemory (pre ++ (image ++ post))) (argsStart + a) n = (image.drop a).take n := by
  apply List.ext_getElem
  · simp
    omega
  · intro i hi hi'
    have hin : i < n := by simpa using hi
    have haddr : argsStart + a + i - stackEnd = pre.length + (a + i) := by omega
    simp only [readBytes, List.getElem_map, List.getElem_range, List.getElem_take,
      List.getElem_drop, stackMemory]
    rw [if_pos (by omega), haddr, List.getD_eq_getElem?_getD, List.getElem?_append_right (by omega),
      Nat.add_sub_cancel_left, List.getElem?_append_left (by omega),
      List.getElem?_eq_getElem (by omega), Option.getD_some]

variable {name args env auxvInfo randomBytes}

/-- The header's words, read back at their indices. -/
theorem readWord_headerWords (hpre : stackEnd + pre.length = argsStart) {i word : ℕ}
    (hword : (headerWords name args env auxvInfo argsStart)[i]? = some word) :
    readWord (stackMemory (pre ++ (argumentsImage name args env auxvInfo randomBytes argsStart ++
      post))) (argsStart + 8 * i) = word % 2 ^ 64 := by
  obtain ⟨hi, rfl⟩ := List.getElem?_eq_some_iff.mp hword
  have hbytes := take_drop_flatMap_encodeLE 8 (headerWords name args env auxvInfo argsStart)
    (nulTerminated (name :: args ++ env) ++ List.ofFn randomBytes) i hi
  have hfits : 8 * i + 8 ≤ (argumentsImage name args env auxvInfo randomBytes argsStart).length := by
    rw [length_argumentsImage]
    rw [length_headerWords] at hi
    omega
  rw [readWord, readBytes_stackMemory hpre hfits, argumentsImage, List.append_assoc, hbytes,
    decodeLE_encodeLE]
  norm_num

/-- The strings, read back after the header. -/
theorem readBytes_nulTerminated (hpre : stackEnd + pre.length = argsStart) {offset n : ℕ}
    (hn : offset + n ≤ (nulTerminated (name :: args ++ env)).length) :
    readBytes (stackMemory (pre ++ (argumentsImage name args env auxvInfo randomBytes argsStart ++
      post))) (stringsStart args env argsStart + offset) n =
      ((nulTerminated (name :: args ++ env)).drop offset).take n := by
  have hfits : 8 * (16 + args.length + env.length) + offset + n ≤
      (argumentsImage name args env auxvInfo randomBytes argsStart).length := by
    rw [length_argumentsImage]
    omega
  have hheader : ((headerWords name args env auxvInfo argsStart).flatMap (encodeLE 8)).length =
      8 * (16 + args.length + env.length) := by
    rw [length_flatMap_encodeLE, length_headerWords]
  rw [stringsStart, Nat.add_assoc, readBytes_stackMemory hpre hfits, argumentsImage,
    List.append_assoc, ← hheader, List.drop_length_add_append,
    List.drop_append_of_le_length (by omega),
    List.take_append_of_le_length (by rw [List.length_drop]; omega)]

/-- The random bytes, read back after the strings. -/
theorem readBytes_randomBytes (hpre : stackEnd + pre.length = argsStart) :
    readBytes (stackMemory (pre ++ (argumentsImage name args env auxvInfo randomBytes argsStart ++
      post))) (stringsStart args env argsStart + (nulTerminated (name :: args ++ env)).length)
      atRandomSize = List.ofFn randomBytes := by
  have hfits : 8 * (16 + args.length + env.length) + (nulTerminated (name :: args ++ env)).length +
      atRandomSize ≤ (argumentsImage name args env auxvInfo randomBytes argsStart).length :=
    (length_argumentsImage name args env auxvInfo randomBytes).ge
  have hheader : ((headerWords name args env auxvInfo argsStart).flatMap (encodeLE 8)).length =
      8 * (16 + args.length + env.length) := by
    rw [length_flatMap_encodeLE, length_headerWords]
  rw [stringsStart, Nat.add_assoc, readBytes_stackMemory hpre hfits, argumentsImage,
    List.append_assoc, ← hheader, List.drop_length_add_append, List.drop_left,
    List.take_of_length_le (by rw [List.length_ofFn])]

/-! ### Where the header's words are -/

theorem getElem?_headerWords_argc :
    (headerWords name args env auxvInfo argsStart)[0]? = some (1 + args.length) := by
  simp [headerWords, Nat.add_comm]

theorem getElem?_headerWords_argv {i : ℕ} (hi : i < args.length + 1) :
    (headerWords name args env auxvInfo argsStart)[1 + i]? =
      (stringPointers (stringsStart args env argsStart) (name :: args ++ env))[i]? := by
  rw [headerWords, show 1 + i = i + 1 from Nat.add_comm 1 i, List.getElem?_cons_succ,
    List.getElem?_append_left (by simp; omega), List.getElem?_take_of_lt hi]

theorem getElem?_headerWords_argvNull :
    (headerWords name args env auxvInfo argsStart)[2 + args.length]? = some 0 := by
  rw [headerWords, show 2 + args.length = args.length + 1 + 1 by omega, List.getElem?_cons_succ,
    List.getElem?_append_right (by simp)]
  simp

theorem getElem?_headerWords_envp {j : ℕ} (hj : j < env.length) :
    (headerWords name args env auxvInfo argsStart)[3 + args.length + j]? =
      (stringPointers (stringsStart args env argsStart) (name :: args ++ env))[args.length + 1 + j]? := by
  rw [headerWords, show 3 + args.length + j = args.length + 1 + (j + 1) + 1 by omega,
    List.getElem?_cons_succ, List.getElem?_append_right (by simp)]
  simp only [List.length_take, length_stringPointers, List.length_append, List.length_cons,
    Nat.min_eq_left (Nat.le_add_right _ _)]
  rw [Nat.add_sub_cancel_left, List.getElem?_cons_succ, List.getElem?_append_left (by simp; omega),
    List.getElem?_drop]

theorem getElem?_headerWords_envpNull :
    (headerWords name args env auxvInfo argsStart)[3 + args.length + env.length]? = some 0 := by
  rw [headerWords, show 3 + args.length + env.length = args.length + 1 + (env.length + 1) + 1 by omega,
    List.getElem?_cons_succ, List.getElem?_append_right (by simp)]
  simp

theorem getElem?_headerWords_auxv (k : ℕ) :
    (headerWords name args env auxvInfo argsStart)[4 + args.length + env.length + k]? =
      (auxvWords auxvInfo (stringsStart args env argsStart +
        (nulTerminated (name :: args ++ env)).length))[k]? := by
  rw [headerWords,
    show 4 + args.length + env.length + k = args.length + 1 + (env.length + 1 + k + 1) + 1 by omega,
    List.getElem?_cons_succ, List.getElem?_append_right (by simp)]
  simp only [List.length_take, length_stringPointers, List.length_append, List.length_cons,
    Nat.min_eq_left (Nat.le_add_right _ _)]
  rw [show args.length + 1 + (env.length + 1 + k + 1) - (args.length + 1) = env.length + 1 + k + 1 by
    omega, List.getElem?_cons_succ, List.getElem?_append_right (by simp; omega)]
  simp only [List.length_drop, length_stringPointers, List.length_append, List.length_cons]
  rw [show env.length + 1 + k - (args.length + 1 + env.length - (args.length + 1)) = k + 1 by omega,
    List.getElem?_cons_succ]

/-! ### The layout, read back -/

/-- A string's pointer from the header points at its copy among the
strings. -/
theorem pointsToString_image (hpre : stackEnd + pre.length = argsStart)
    (hfit : argsStart + (argumentsImage name args env auxvInfo randomBytes argsStart).length ≤
      stackStart + 1)
    {k : ℕ} {string : List UInt8} (hstring : (name :: args ++ env)[k]? = some string) {pointer : ℕ}
    (hpointer : (stringPointers (stringsStart args env argsStart) (name :: args ++ env))[k]? =
      some pointer) :
    PointsToString (stackMemory (pre ++ (argumentsImage name args env auxvInfo randomBytes argsStart ++
      post))) argsStart (pointer % 2 ^ 64) string := by
  obtain ⟨hk, rfl⟩ := List.getElem?_eq_some_iff.mp hstring
  obtain ⟨hk', rfl⟩ := List.getElem?_eq_some_iff.mp hpointer
  have hbound := length_nulTerminated_take_add (name :: args ++ env) k hk
  rw [length_argumentsImage] at hfit
  unfold stackStart usizeMax atRandomSize at hfit
  have hstart : stringsStart args env argsStart < 2 ^ 64 := by
    unfold stringsStart
    omega
  -- the pointers do not wrap: every string ends below `STACK_START`
  have hptr : (stringPointers (stringsStart args env argsStart) (name :: args ++ env))[k] % 2 ^ 64 =
      stringsStart args env argsStart + (nulTerminated ((name :: args ++ env).take k)).length := by
    rw [getElem_stringPointers hstart, Nat.mod_mod, Nat.mod_eq_of_lt]
    unfold stringsStart
    omega
  rw [hptr]
  refine ⟨by unfold stringsStart; omega, by unfold stringsStart stackStart usizeMax; omega, ?_⟩
  rw [readBytes_nulTerminated hpre (by omega), take_drop_nulTerminated]

/-- An image placed at `argsStart` inside the stack is read back as the C
runtime expects. -/
theorem argumentsLaidOut_of_image (hpre : stackEnd + pre.length = argsStart)
    (hfit : argsStart + (argumentsImage name args env auxvInfo randomBytes argsStart).length ≤
      stackStart + 1) :
    ArgumentsLaidOut (stackMemory (pre ++ (argumentsImage name args env auxvInfo randomBytes argsStart ++
      post))) argsStart name args env auxvInfo randomBytes := by
  have hlen := hfit
  rw [length_argumentsImage] at hlen
  unfold stackStart usizeMax atRandomSize at hlen
  have hpointer : ∀ k
      (hk : k < (stringPointers (stringsStart args env argsStart) (name :: args ++ env)).length),
      (stringPointers (stringsStart args env argsStart) (name :: args ++ env))[k]? =
        some (stringPointers (stringsStart args env argsStart) (name :: args ++ env))[k] :=
    fun k hk => List.getElem?_eq_getElem hk
  refine ⟨?argc, ?argv, ?argvNull, ?envp, ?envpNull, ?auxv⟩
  case argc =>
    show readWord _ (argsStart + 8 * 0) = _
    rw [readWord_headerWords hpre getElem?_headerWords_argc, Nat.mod_eq_of_lt (by omega)]
  case argv =>
    intro i hi
    have hi' : i < (stringPointers (stringsStart args env argsStart) (name :: args ++ env)).length := by
      simp at hi ⊢
      omega
    rw [readWord_headerWords hpre ((getElem?_headerWords_argv (by simpa using hi)).trans
      (hpointer i hi'))]
    exact pointsToString_image hpre hfit
      (by rw [List.getElem?_append_left hi, List.getElem?_eq_getElem hi]) (hpointer i hi')
  case argvNull =>
    rw [readWord_headerWords hpre getElem?_headerWords_argvNull, Nat.zero_mod]
  case envp =>
    intro j hj
    have hj' : args.length + 1 + j <
        (stringPointers (stringsStart args env argsStart) (name :: args ++ env)).length := by
      simp
      omega
    rw [readWord_headerWords hpre ((getElem?_headerWords_envp hj).trans (hpointer _ hj'))]
    exact pointsToString_image hpre hfit
      (by rw [List.getElem?_append_right (by simp), List.getElem?_eq_getElem (by simpa using hj)]
          simp) (hpointer _ hj')
  case envpNull =>
    rw [readWord_headerWords hpre getElem?_headerWords_envpNull, Nat.zero_mod]
  case auxv =>
    refine ⟨stringsStart args env argsStart + (nulTerminated (name :: args ++ env)).length, ?_,
      by unfold stringsStart; omega, by unfold stringsStart stackStart usizeMax atRandomSize; omega,
      readBytes_randomBytes hpre⟩
    -- the twelve words, each read back from its own slot
    have hwords : readWords (stackMemory (pre ++ (argumentsImage name args env auxvInfo randomBytes
        argsStart ++ post))) (argsStart + 8 * (4 + args.length + env.length)) 12 =
        (auxvWords auxvInfo (stringsStart args env argsStart +
          (nulTerminated (name :: args ++ env)).length)).map (· % 2 ^ 64) := by
      apply List.ext_getElem (by simp [readWords, auxvWords])
      intro k hk hk'
      simp only [readWords, List.getElem_map, List.getElem_range]
      rw [show argsStart + 8 * (4 + args.length + env.length) + 8 * k =
          argsStart + 8 * (4 + args.length + env.length + k) by ring,
        readWord_headerWords hpre ((getElem?_headerWords_auxv k).trans
          (List.getElem?_eq_getElem (by simpa [readWords, auxvWords] using hk)))]
    have hrandom : stringsStart args env argsStart + (nulTerminated (name :: args ++ env)).length <
        2 ^ 64 := by
      unfold stringsStart
      omega
    rw [hwords]
    simp only [auxvWords, List.map_cons, List.map_nil, Nat.mod_eq_of_lt hrandom]
    simp [atPagesz, atPhdr, atPhent, atPhnum, atRandom, atNull, pageSize]

end Image

/-! ## What `set_up_arguments` writes -/

section SetUpArguments

variable (stack name : List UInt8) (args env : List (List UInt8)) (auxvInfo : AuxvInfo)
  (randomBytes : Fin atRandomSize → UInt8)

/-- `total_length`, as `set_up_arguments` adds it up, is the image's size
rounded up. -/
theorem alignUp_totalLength :
    alignUp (8 + 8 * (args.length + 2) + 8 * (env.length + 1) + 8 * 12 +
      ((name :: args ++ env).flatMap (· ++ [0])).length + atRandomSize) 8 =
      argumentsImageLength name args env := by
  unfold argumentsImageLength nulTerminated
  congr 1
  omega

theorem length_argumentsImage_le (argsStart : ℕ) :
    (argumentsImage name args env auxvInfo randomBytes argsStart).length ≤
      argumentsImageLength name args env := by
  rw [length_argumentsImage, argumentsImageLength]
  exact le_alignUp (by norm_num)

/-- The search for `AT_RANDOM` looks at keys only, so it finds the fifth pair
whatever the values are. -/
theorem find?_atRandom (phdr phent phnum : ℕ) :
    (List.range 6).find? (fun pairIdx => [atPagesz, pageSize, atPhdr, phdr, atPhent, phent,
      atPhnum, phnum, atRandom, 0, atNull, 0][2 * pairIdx]? == some atRandom) = some 4 :=
  rfl

/-- The image as the loader's writes produce it, word array by word array. -/
theorem argumentsImage_eq (argsStart : ℕ) :
    argumentsImage name args env auxvInfo randomBytes argsStart =
      encodeLE 8 (1 + args.length) ++
        ((stringPointers (stringsStart args env argsStart) (name :: args) ++ [0]).flatMap
            (encodeLE 8) ++
          ((stringPointers (cursorAfter (stringsStart args env argsStart) (name :: args)) env ++
              [0]).flatMap (encodeLE 8) ++
            ((auxvWords auxvInfo (stringsStart args env argsStart +
                (nulTerminated (name :: args ++ env)).length)).flatMap (encodeLE 8) ++
              (nulTerminated (name :: args ++ env) ++ List.ofFn randomBytes)))) := by
  have hsplit := stringPointers_append (stringsStart args env argsStart) (name :: args) env
  have hlen : (stringPointers (stringsStart args env argsStart) (name :: args)).length =
      args.length + 1 := by
    simp
  rw [argumentsImage, headerWords, hsplit, List.take_left' hlen, List.drop_left' hlen]
  simp

/-- An image that does not fit strictly inside the stack is refused. -/
theorem setUpArguments_of_le (h : stack.length ≤ argumentsImageLength name args env) :
    setUpArguments stack name args env auxvInfo randomBytes = some (.error .stackToSmall) := by
  unfold setUpArguments
  simp only [List.length_cons, List.length_nil, List.length_replicate, Nat.reduceAdd,
    Nat.reduceDiv, alignUp_totalLength]
  rw [if_pos h]
  rfl

/-- An image that fits is written at the top of the stack, and `args_start`
is its first byte. -/
theorem setUpArguments_of_lt (h : argumentsImageLength name args env < stack.length) :
    setUpArguments stack name args env auxvInfo randomBytes =
      some (.ok (stackStart - argumentsImageLength name args env + 1,
        stack.take (stack.length - argumentsImageLength name args env) ++
          (argumentsImage name args env auxvInfo randomBytes
              (stackStart - argumentsImageLength name args env + 1) ++
            (stack.drop (stack.length - argumentsImageLength name args env)).drop
              (argumentsImage name args env auxvInfo randomBytes
                (stackStart - argumentsImageLength name args env + 1)).length))) := by
  unfold setUpArguments
  simp only [List.length_cons, List.length_nil, List.length_replicate, Nat.reduceAdd,
    Nat.reduceDiv, alignUp_totalLength]
  rw [if_neg (by omega)]
  simp only [find?_atRandom, Option.bind_eq_bind, Option.bind_some]
  have hbase : stackStart - argumentsImageLength name args env + 1 +
      (8 + 8 * (args.length + 2) + 8 * (env.length + 1) + 8 * 12) =
      stringsStart args env (stackStart - argumentsImageLength name args env + 1) := by
    unfold stringsStart
    omega
  have hauxv : ∀ randomPtr, [atPagesz, pageSize, atPhdr, auxvInfo.phdrVaddr, atPhent,
      auxvInfo.phent, atPhnum, auxvInfo.phnum, atRandom, 0, atNull, 0].set (4 * 2 + 1) randomPtr =
      auxvWords auxvInfo randomPtr :=
    fun _ => rfl
  have hrandom : stackStart - argumentsImageLength name args env + 1 +
      (8 + 8 * (args.length + 2) + 8 * (env.length + 1) + 8 * 12 +
        ((name :: args ++ env).flatMap (· ++ [0])).length) =
      stringsStart args env (stackStart - argumentsImageLength name args env + 1) +
        (nulTerminated (name :: args ++ env)).length := by
    unfold stringsStart nulTerminated
    omega
  -- the patching loops, then the chain of writes as one write of the image
  rw [hbase, hauxv, patchPointers_eq _ _ _ _ (by simp), patchPointers_eq _ _ _ _ (by simp)]
  simp only [List.take_zero, List.nil_append, Nat.zero_add, List.length_cons, List.drop_replicate,
    WritableBuffer.writeUsize, WritableBuffer.foldlM_writeUsize, ← WritableBuffer.writeSlice_append]
  have himage := argumentsImage_eq name args env auxvInfo randomBytes
    (stackStart - argumentsImageLength name args env + 1)
  rw [show args.length + 2 - (args.length + 1) = 1 by omega,
    show env.length + 1 - env.length = 1 by omega, List.replicate_one, hrandom]
  unfold nulTerminated at himage ⊢
  rw [← himage]
  have hfits : (argumentsImage name args env auxvInfo randomBytes
      (stackStart - argumentsImageLength name args env + 1)).length ≤
      (stack.drop (stack.length - argumentsImageLength name args env)).length := by
    have := length_argumentsImage_le name args env auxvInfo randomBytes
      (stackStart - argumentsImageLength name args env + 1)
    rw [List.length_drop]
    omega
  obtain ⟨w, hw, hbuf⟩ := WritableBuffer.new_writeSlice_of_le hfits
  rw [hw]
  show some (Except.ok (_, _ ++ w.buf)) = _
  rw [hbuf]

end SetUpArguments

/-- A stack of `STACK_SIZE` bytes whose last byte is `STACK_START` gets the
arguments unless their image does not fit strictly inside it; otherwise
`args_start` is where the C runtime finds `argc`, `argv`, `envp` and the
auxiliary vector, with every string and the random bytes in place. -/
theorem setUpArguments_stack_layout (stack name : List UInt8) (args env : List (List UInt8))
    (auxvInfo : AuxvInfo) (randomBytes : Fin atRandomSize → UInt8)
    (hstack : stack.length = stackSize) :
    ∃ result, setUpArguments stack name args env auxvInfo randomBytes = some result ∧
      (result = .error .stackToSmall ↔ stackSize ≤ argumentsImageLength name args env) ∧
      ∀ argsStart stack', result = .ok (argsStart, stack') →
        stack'.length = stackSize ∧
          ArgumentsLaidOut (stackMemory stack') argsStart name args env auxvInfo randomBytes := by
  by_cases hfits : argumentsImageLength name args env < stack.length
  · refine ⟨_, setUpArguments_of_lt stack name args env auxvInfo randomBytes hfits,
      ⟨(fun h => by cases h), (fun h => by omega)⟩, ?_⟩
    rintro argsStart stack' h
    obtain ⟨rfl, rfl⟩ := Prod.mk.inj (Except.ok.inj h)
    have himage := length_argumentsImage_le name args env auxvInfo randomBytes
      (stackStart - argumentsImageLength name args env + 1)
    have hend := stackEnd_add_stackSize
    refine ⟨by simp; omega, argumentsLaidOut_of_image ?_ (by omega)⟩
    -- the image's first byte is `total_length` bytes below the end of the slice
    simp only [List.length_take]
    omega
  · refine ⟨_, setUpArguments_of_le stack name args env auxvInfo randomBytes (by omega),
      ⟨fun _ => by omega, fun _ => rfl⟩, ?_⟩
    rintro _ _ h
    cases h

/-- `sh -c x` with one environment string, on a zeroed stack. -/
theorem setUpArguments_stack_layout_sh :
    (List.replicate stackSize 0).length = stackSize ∧
      ∃ result, setUpArguments (List.replicate stackSize 0) [0x73, 0x68] [[0x2d, 0x63], [0x78]]
          [[0x41, 0x3d, 0x31]] ⟨0x10040, 56, 9⟩ (fun _ => 0x5a) = some result ∧
        (result = .error .stackToSmall ↔
          stackSize ≤ argumentsImageLength [0x73, 0x68] [[0x2d, 0x63], [0x78]] [[0x41, 0x3d, 0x31]]) ∧
        ∀ argsStart stack', result = .ok (argsStart, stack') →
          stack'.length = stackSize ∧
            ArgumentsLaidOut (stackMemory stack') argsStart [0x73, 0x68] [[0x2d, 0x63], [0x78]]
              [[0x41, 0x3d, 0x31]] ⟨0x10040, 56, 9⟩ (fun _ => 0x5a) :=
  ⟨List.length_replicate, setUpArguments_stack_layout _ _ _ _ _ _ List.length_replicate⟩

/-! ## `load_elf` -/

/-- What `load_elf` gets from the rest of the kernel: the tables
`RootPageTableHolder::new_with_kernel_mapping(false)` builds, the physical page
of the signal trampoline, the addresses the heap gives the stack's pages, the
`i`-th loadable segment's pages and the `brk` pages, and the bytes
`virtio::rng` gives. -/
structure LoadEnvironment where
  kernelTables : RootPageTableHolder
  trampolinePhysAddr : ℕ
  stackAddr : ℕ
  segmentAddr : ℕ → ℕ
  brkAddr : ℕ
  randomBytes : Fin atRandomSize → UInt8

/-- `PinnedHeapPages`: where the pages lie and what they hold. -/
structure PinnedHeapPages where
  addr : ℕ
  bytes : List UInt8
  deriving DecidableEq, Repr

namespace PinnedHeapPages

/-- `PinnedHeapPages::new`: zeroed pages; asking for none fails the
`assert`. -/
def new (addr numberOfPages : ℕ) : Option PinnedHeapPages :=
  if numberOfPages > 0 then some ⟨addr, List.replicate (numberOfPages * pageSize) 0⟩ else none

/-- `PinnedHeapPages::fill`: `data` copied in at `offset`; a range past the
end of the pages is a panic of the slice index. -/
def fill (pages : PinnedHeapPages) (data : List UInt8) (offset : ℕ) : Option PinnedHeapPages :=
  if pages.bytes.length < offset + data.length then none
  else some ⟨pages.addr, pages.bytes.take offset ++ data ++ pages.bytes.drop (offset + data.length)⟩

theorem new_of_pos {addr numberOfPages : ℕ} (h : 0 < numberOfPages) :
    new addr numberOfPages = some ⟨addr, List.replicate (numberOfPages * pageSize) 0⟩ := by
  simp [new, h]

theorem fill_of_le {pages : PinnedHeapPages} {data : List UInt8} {offset : ℕ}
    (h : offset + data.length ≤ pages.bytes.length) :
    pages.fill data offset = some ⟨pages.addr,
      pages.bytes.take offset ++ data ++ pages.bytes.drop (offset + data.length)⟩ := by
  simp [fill, Nat.not_lt.mpr h]

end PinnedHeapPages

/-- `BRK_SIZE`, in pages. -/
def brkSize : ℕ := 4

/-- `Brk`. -/
structure Brk where
  brkStart : ℕ
  brkCurrent : ℕ
  brkEnd : ℕ
  deriving DecidableEq, Repr

namespace Brk

/-- `Brk::new`: four pages mapped read-write from the page boundary at or
after `bss_end`. -/
def new (bssEnd : ℕ) (pageTables : RootPageTableHolder) (addr : ℕ) :
    Option (PinnedHeapPages × Brk × RootPageTableHolder) := do
  let brkStart ← alignUpChecked bssEnd pageSize
  let pages ← PinnedHeapPages.new addr brkSize
  let pageTables ← pageTables.mapUserspace brkStart pages.addr pages.bytes.length .readWrite
  let brkEnd ← checkedAdd brkStart (brkSize * pageSize)
  pure (pages, ⟨brkStart, brkStart, brkEnd⟩, pageTables)

/-- `Brk::empty`. -/
def empty : Brk := ⟨0, 0, 1⟩

end Brk

/-- `LoadedElf`.  `allocated_pages` is the `BTreeMap` as the list of its
insertions. -/
structure LoadedElf where
  entryAddress : ℕ
  pageTables : RootPageTableHolder
  allocatedPages : List (ℕ × PinnedHeapPages)
  argsStart : ℕ
  brk : Brk

/-- `allocated_pages.insert` followed by `assert!(prev.is_none())`. -/
def insertNew (allocatedPages : List (ℕ × PinnedHeapPages)) (key : ℕ) (pages : PinnedHeapPages) :
    Option (List (ℕ × PinnedHeapPages)) :=
  if allocatedPages.any (·.1 == key) then none else some (allocatedPages ++ [(key, pages)])

theorem insertNew_of_forall_ne {allocatedPages : List (ℕ × PinnedHeapPages)} {key : ℕ}
    (pages : PinnedHeapPages) (h : ∀ entry ∈ allocatedPages, entry.1 ≠ key) :
    insertNew allocatedPages key pages = some (allocatedPages ++ [(key, pages)]) := by
  unfold insertNew
  rw [if_neg]
  simpa only [List.any_eq_true, beq_iff_eq, not_exists, not_and] using h

/-- One iteration of the loop over the loadable program headers: fresh pages
for the segment, its file bytes at its offset in the first page, the pages
recorded and mapped with the segment's permissions. -/
def loadSegment (elf : ElfFile) (addr : ℕ)
    (state : RootPageTableHolder × List (ℕ × PinnedHeapPages))
    (programHeader : ElfProgramHeaderEntry) :
    Option (RootPageTableHolder × List (ℕ × PinnedHeapPages)) := do
  let data ← elf.getProgramHeaderData programHeader
  let realSize := programHeader.memorySize
  if realSize < data.length then none
  let offset := programHeader.virtualAddress % pageSize
  -- the segment's pages, and one more when it spills into the next page
  let realPages ← alignUpChecked realSize pageSize
  let spilledEnd ← checkedAdd offset realSize
  let spilledPages ← alignUpChecked spilledEnd pageSize
  let sizeInPages := realPages / pageSize + (spilledPages / pageSize - realPages / pageSize)
  let pages ← PinnedHeapPages.new addr sizeInPages
  let pages ← pages.fill data offset
  let mappingVa := programHeader.virtualAddress - offset
  let allocatedPages ← insertNew state.2 mappingVa pages
  let privileges ← XWRMode.fromProgramHeaderFlags programHeader.accessFlags
  let pageTables ← state.1.mapUserspace mappingVa pages.addr (sizeInPages * pageSize) privileges
  pure (pageTables, allocatedPages)

/-- The loop over the loadable program headers; the `i`-th gets the pages at
`segmentAddr i`. -/
def loadSegments (elf : ElfFile) (segmentAddr : ℕ → ℕ) :
    ℕ → List ElfProgramHeaderEntry → RootPageTableHolder × List (ℕ × PinnedHeapPages) →
      Option (RootPageTableHolder × List (ℕ × PinnedHeapPages))
  | _, [], state => some state
  | i, programHeader :: programHeaders, state => do
    let state ← loadSegment elf (segmentAddr i) state programHeader
    loadSegments elf segmentAddr (i + 1) programHeaders state

theorem loadSegments_nil (elf : ElfFile) (segmentAddr : ℕ → ℕ) (i : ℕ)
    (state : RootPageTableHolder × List (ℕ × PinnedHeapPages)) :
    loadSegments elf segmentAddr i [] state = some state := rfl

theorem loadSegments_cons (elf : ElfFile) (segmentAddr : ℕ → ℕ) (i : ℕ)
    (programHeader : ElfProgramHeaderEntry) (programHeaders : List ElfProgramHeaderEntry)
    (state : RootPageTableHolder × List (ℕ × PinnedHeapPages)) :
    loadSegments elf segmentAddr i (programHeader :: programHeaders) state =
      (loadSegment elf (segmentAddr i) state programHeader).bind
        (loadSegments elf segmentAddr (i + 1) programHeaders) := rfl

/-- `load_elf`.  The outer `none` is a panic. -/
def loadElf (loadEnv : LoadEnvironment) (elf : ElfFile) (name : List UInt8)
    (args env : List (List UInt8)) : Option (Except LoaderError LoadedElf) := do
  let elfHeader := elf.getHeader
  let programHeaders ← elf.getProgramHeaders
  -- `expect("ELF must have at least one LOAD segment")`
  let firstLoad ← programHeaders.find? (·.headerType == ptLoad)
  if firstLoad.offsetInFile ≠ 0 then none
  let phdrVaddr ← checkedAdd firstLoad.virtualAddress elfHeader.startProgramHeader
  let auxvInfo : AuxvInfo :=
    ⟨phdrVaddr, elfHeader.sizeProgramHeaderEntry, elfHeader.numberOfEntriesInProgramHeader⟩
  let stack ← PinnedHeapPages.new loadEnv.stackAddr stackSizePages
  match ← setUpArguments stack.bytes name args env auxvInfo loadEnv.randomBytes with
  | .error error => pure (.error error)
  | .ok (argsStart, stackBytes) =>
    let allocatedPages ← insertNew [] stackEnd { stack with bytes := stackBytes }
    let pageTables ← loadEnv.kernelTables.mapUserspace stackEnd stack.addr stackSize .readWrite
    let pageTables ← pageTables.mapUserspace TRAMPOLINE_VADDR.toNat loadEnv.trampolinePhysAddr
      pageSize .readExecute
    let loadable := programHeaders.filter (·.headerType == ptLoad)
    let (pageTables, allocatedPages) ←
      loadSegments elf loadEnv.segmentAddr 0 loadable (pageTables, allocatedPages)
    let segmentEnds ← loadable.mapM fun l => checkedAdd l.virtualAddress l.memorySize
    let (pageTables, allocatedPages, brk) ← match segmentEnds.max? with
      | some bssEnd => do
        let (pages, brk, pageTables) ← Brk.new bssEnd pageTables loadEnv.brkAddr
        let allocatedPages ← insertNew allocatedPages brk.brkStart pages
        pure (pageTables, allocatedPages, brk)
      | none => pure (pageTables, allocatedPages, Brk.empty)
    pure (.ok ⟨elfHeader.entryPoint, pageTables, allocatedPages, argsStart, brk⟩)

/-- `load_elf` panics on a file without a loadable segment, and on one whose
first loadable segment does not start at file offset 0. -/
theorem loadElf_eq_none_of_firstLoad (loadEnv : LoadEnvironment) (elf : ElfFile)
    (name : List UInt8) (args env : List (List UInt8)) {programHeaders : List ElfProgramHeaderEntry}
    (hheaders : elf.getProgramHeaders = some programHeaders)
    (hfirst : ∀ firstLoad, programHeaders.find? (·.headerType == ptLoad) = some firstLoad →
      firstLoad.offsetInFile ≠ 0) :
    loadElf loadEnv elf name args env = none := by
  unfold loadElf
  rw [hheaders, Option.bind_eq_bind, Option.bind_some]
  cases hfind : programHeaders.find? (·.headerType == ptLoad) with
  | none => rfl
  | some firstLoad =>
    rw [Option.bind_eq_bind, Option.bind_some]
    dsimp only
    rw [if_pos (hfirst firstLoad hfind)]
    rfl

/-- A segment that occupies no page: `PinnedHeapPages::new(0)` fails its
`assert`. -/
theorem loadSegment_eq_none_of_empty (elf : ElfFile) (addr : ℕ)
    (state : RootPageTableHolder × List (ℕ × PinnedHeapPages))
    {programHeader : ElfProgramHeaderEntry} (hempty : programHeader.memorySize = 0)
    (haligned : programHeader.virtualAddress % pageSize = 0) :
    loadSegment elf addr state programHeader = none := by
  unfold loadSegment
  cases hdata : elf.getProgramHeaderData programHeader with
  | none => rfl
  | some data =>
    simp only [Option.bind_eq_bind, Option.bind_some, hempty, haligned]
    have hzero : alignUpChecked 0 pageSize = some 0 := by simp [alignUpChecked]
    have hadd : checkedAdd 0 0 = some 0 := by simp [checkedAdd, usizeMax]
    split_ifs
    · rfl
    · simp only [hzero, hadd, Option.bind_some, Nat.zero_div, Nat.sub_self, Nat.add_zero]
      rfl

/-- A 124-byte RISC-V executable with one loadable segment: the four bytes of
`j .`, at file offset `0x78` right after the headers, mapped read and execute
at `0x10078`. -/
def offsetElfFile : List UInt8 :=
  [0x7f, 0x45, 0x4c, 0x46, 2, 1, 1, 0] ++ List.replicate 8 0 ++
    encodeLE 2 2 ++ encodeLE 2 0xf3 ++ encodeLE 4 1 ++ encodeLE 8 0x10078 ++ encodeLE 8 0x40 ++
    encodeLE 8 0 ++ encodeLE 4 0 ++ encodeLE 2 64 ++ encodeLE 2 0x38 ++ encodeLE 2 1 ++
    encodeLE 2 0x40 ++ encodeLE 2 0 ++ encodeLE 2 0 ++
    -- the program header table: one `PT_LOAD`, `R | X`
    encodeLE 4 ptLoad ++ encodeLE 4 5 ++ encodeLE 8 0x78 ++ encodeLE 8 0x10078 ++
    encodeLE 8 0x10078 ++ encodeLE 8 4 ++ encodeLE 8 4 ++ encodeLE 8 0x1000 ++
    encodeLE 4 0x6f

/-- `ElfFile::parse` accepts `offsetElfFile`, whose one segment lies inside the
file, is no larger in the file than in memory, has permissions the kernel maps
and lies on a page of its own away from the stack and the trampoline; still
`load_elf` panics on it, whatever the arguments and the kernel's state. -/
theorem loadElf_first_segment_offset_panics :
    ∃ elf, ElfFile.parse offsetElfFile = some (.ok elf) ∧
      elf.getProgramHeaders = some [⟨ptLoad, 5, 0x78, 0x10078, 0x10078, 4, 4, 0x1000⟩] ∧
      offsetElfFile.length = 0x78 + 4 ∧
      XWRMode.fromProgramHeaderFlags 5 = some .readExecute ∧
      ∀ loadEnv name args env, loadElf loadEnv elf name args env = none := by
  have hvalid : checkValidity offsetElfFile = some none := by decide +kernel
  have hheaders : (ElfFile.mk offsetElfFile hvalid).getProgramHeaders =
      some [⟨ptLoad, 5, 0x78, 0x10078, 0x10078, 4, 4, 0x1000⟩] := by
    simp only [ElfFile.getProgramHeaders, ElfFile.getHeader]
    decide +kernel +revert
  refine ⟨⟨offsetElfFile, hvalid⟩, ElfFile.parse_eq_ok hvalid, hheaders, by decide +kernel, rfl, ?_⟩
  intro loadEnv name args env
  refine loadElf_eq_none_of_firstLoad loadEnv _ name args env hheaders ?_
  intro firstLoad hfind
  cases hfind
  decide

end Solaya.Loader
