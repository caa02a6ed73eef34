import Solaya.Klibc.Leb128

/-!
# The `.eh_frame` parser

`debugging/eh_frame_parser.rs` reads the call frame information of the
kernel's own `.eh_frame` section.  This file models its instruction decoder:
`parse_instruction` reads one call frame instruction, and `parse_instructions`
reads them until the bytes run out or one cannot be read, then asserts that
nothing is left.  An instruction is one opcode byte; the three "primary"
opcodes keep an operand in its low six bits, and the others read unsigned
LEB128 numbers or fixed-width deltas after it.  `parse_instruction` panics on
an opcode it does not know and on a register number past `u16`.

Each parser returns `Option (Option Instruction × ConsumableBuffer)`: the
outer `none` is a panic, the inner `none` is the `None` the Rust function
returns, and the buffer is where the `&mut ConsumableBuffer` was left.
-/

namespace Solaya.EhFrame

open ConsumableBuffer

/-- `Instruction`. -/
inductive Instruction where
  | advanceLoc (delta : ℕ)
  | offset (register : ℕ) (offset : ℕ)
  | restore (register : ℕ)
  | defCfa (register : ℕ) (offset : ℕ)
  | defCfaRegister (register : ℕ)
  | defCfaOffset (offset : ℕ)
  | remeberState
  | restoreState
  | nop
  deriving DecidableEq, Repr

/-- `ParsedCIE`, with the fields the parser and the unwinder read. -/
structure ParsedCIE where
  augmentationString : List UInt8
  codeAlignmentFactor : ℕ
  dataAlignmentFactor : Int64
  augmentationData : Option (List UInt8)
  initialInstructions : List Instruction
  deriving DecidableEq, Repr

/-- `ParsedFDE`, with the fields the unwinder reads. -/
structure ParsedFDE where
  cie : ParsedCIE
  pcBegin : ℕ
  addressRange : ℕ
  instructions : List Instruction
  deriving DecidableEq, Repr

/-! ## `consts` -/

def cfiInstructionHighBitsMask : ℕ := 0b11000000
def cfiInstructionLowBitsMask : ℕ := 0b00111111
def dwCfaAdvanceLoc : ℕ := 0x01 <<< 6
def dwCfaOffset : ℕ := 0x02 <<< 6
def dwCfaRestore : ℕ := 0x03 <<< 6
def dwCfaDefCfa : ℕ := 0x0c
def dwCfaDefCfaRegister : ℕ := 0x0d
def dwCfaDefCfaOffset : ℕ := 0x0e
def dwCfaNop : ℕ := 0
def dwCfaAdvanceLoc1 : ℕ := 0x02
def dwCfaAdvanceLoc2 : ℕ := 0x03
def dwCfaAdvanceLoc4 : ℕ := 0x04
def dwCfaRememberState : ℕ := 0x0a
def dwCfaRestoreState : ℕ := 0x0b

/-- What a parse of one item can end in: a panic (`none`), or the `Option` the
Rust function returns and where the buffer was left. -/
abbrev ParseResult (α : Type) := Option (Option α × ConsumableBuffer)

/-! ## `parse_instruction` -/

/-- `consume_unsized_type::<UnsignedLEB128>()?`, then the rest of the parse. -/
def withUleb (b : ConsumableBuffer) (k : ℕ → ConsumableBuffer → ParseResult Instruction) :
    ParseResult Instruction :=
  match b.consumeUnsizedType (α := UnsignedLEB128) with
  | none => some (none, b)
  | some (value, b) => k value.value b

/-- `consume_sized_type::<uN>()?` of `size` bytes, then the rest of the parse. -/
def withSized (size : ℕ) (b : ConsumableBuffer)
    (k : ℕ → ConsumableBuffer → ParseResult Instruction) : ParseResult Instruction :=
  match b.consumeSizedType size with
  | none => some (none, b)
  | some (value, b) => k value b

/-- `u16::try_from(register).expect("Register number must fit in u16")`. -/
def withRegister (register : ℕ) (k : ℕ → ParseResult Instruction) : ParseResult Instruction :=
  if 2 ^ 16 ≤ register then none else k register

/-- The rest of `parse_instruction` once the opcode byte `instruction` has
been read.  The two high bits have only the four values tested here, so the
`assert_eq!(high_bits, 0)` holds where the `match` is reached. -/
def parseOperands (instruction : ℕ) (instructions : ConsumableBuffer) :
    ParseResult Instruction :=
  let highBits := instruction &&& cfiInstructionHighBitsMask
  let lowBits := instruction &&& cfiInstructionLowBitsMask
  if highBits = dwCfaAdvanceLoc then some (some (.advanceLoc lowBits), instructions)
  else if highBits = dwCfaOffset then
    withUleb instructions fun offset instructions =>
      some (some (.offset lowBits offset), instructions)
  else if highBits = dwCfaRestore then some (some (.restore lowBits), instructions)
  else if instruction = dwCfaDefCfa then
    withUleb instructions fun register instructions =>
      withRegister register fun register =>
        withUleb instructions fun offset instructions =>
          some (some (.defCfa register offset), instructions)
  else if instruction = dwCfaDefCfaRegister then
    withUleb instructions fun register instructions =>
      withRegister register fun register => some (some (.defCfaRegister register), instructions)
  else if instruction = dwCfaDefCfaOffset then
    withUleb instructions fun offset instructions =>
      some (some (.defCfaOffset offset), instructions)
  else if instruction = dwCfaNop then some (some .nop, instructions)
  else if instruction = dwCfaAdvanceLoc1 then
    withSized 1 instructions fun delta instructions => some (some (.advanceLoc delta), instructions)
  else if instruction = dwCfaAdvanceLoc2 then
    withSized 2 instructions fun delta instructions => some (some (.advanceLoc delta), instructions)
  else if instruction = dwCfaAdvanceLoc4 then
    withSized 4 instructions fun delta instructions => some (some (.advanceLoc delta), instructions)
  else if instruction = dwCfaRememberState then some (some .remeberState, instructions)
  else if instruction = dwCfaRestoreState then some (some .restoreState, instructions)
  -- `panic!("Instruction {:#x} no implemented.")`
  else none

/-- `parse_instruction`. -/
def parseInstruction (instructions : ConsumableBuffer) : ParseResult Instruction :=
  if instructions.empty then some (none, instructions)
  else
    match instructions.consumeSizedType 1 with
    | none => some (none, instructions)
    | some (instruction, instructions) => parseOperands instruction instructions

/-! ### Every read moves forward -/

/-- A parse whose every outcome leaves the buffer read further. -/
def Forward (p : ConsumableBuffer → ParseResult Instruction) : Prop :=
  ∀ b r b', p b = some (r, b') → Advances b b'

theorem forward_done (r : Option Instruction) : Forward fun b => some (r, b) := by
  intro b r' b' h
  cases h
  exact Advances.refl b

theorem forward_withUleb {k : ℕ → ConsumableBuffer → ParseResult Instruction}
    (hk : ∀ v, Forward (k v)) : Forward fun b => withUleb b k := by
  intro b r b' h
  dsimp only [withUleb] at h
  split at h
  · cases h
    exact Advances.refl b
  · rename_i value b₁ hconsume
    exact (Advances.of_consumeUnsizedType hconsume).trans (hk _ _ _ _ h)

theorem forward_withSized {size : ℕ} {k : ℕ → ConsumableBuffer → ParseResult Instruction}
    (hk : ∀ v, Forward (k v)) : Forward fun b => withSized size b k := by
  intro b r b' h
  dsimp only [withSized] at h
  split at h
  · cases h
    exact Advances.refl b
  · rename_i value b₁ hconsume
    exact (Advances.of_consumeSizedType hconsume).trans (hk _ _ _ _ h)

theorem forward_withRegister {register : ℕ} {k : ℕ → ConsumableBuffer → ParseResult Instruction}
    (hk : ∀ v, Forward (k v)) : Forward fun b => withRegister register fun v => k v b := by
  intro b r b' h
  dsimp only [withRegister] at h
  split_ifs at h
  exact hk _ _ _ _ h

theorem forward_panic : Forward fun _ => none := by
  intro b r b' h
  cases h

theorem forward_ite {c : Prop} [Decidable c] {p q : ConsumableBuffer → ParseResult Instruction}
    (hp : Forward p) (hq : Forward q) : Forward fun b => if c then p b else q b := by
  intro b r b' h
  by_cases hc : c
  · exact hp b r b' (by simpa only [if_pos hc] using h)
  · exact hq b r b' (by simpa only [if_neg hc] using h)

theorem forward_parseOperands (instruction : ℕ) : Forward (parseOperands instruction) := by
  unfold parseOperands
  -- one branch per opcode, each a chain of reads that move forward
  repeat' apply forward_ite
  all_goals first
    | exact forward_done _
    | exact forward_panic
    | exact forward_withUleb fun _ => forward_done _
    | exact forward_withSized fun _ => forward_done _
    | exact forward_withUleb fun _ => forward_withRegister fun _ => forward_done _
    | exact forward_withUleb fun _ => forward_withRegister fun _ =>
        forward_withUleb fun _ => forward_done _

/-- An instruction read takes at least its opcode byte. -/
theorem parseInstruction_advances {b b' : ConsumableBuffer} {instruction : Instruction}
    (h : parseInstruction b = some (some instruction, b')) :
    b'.buffer = b.buffer ∧ b.position < b'.position ∧ b.position < b.buffer.length := by
  unfold parseInstruction at h
  split_ifs at h with hempty
  · cases h
  split at h
  · cases h
  · rename_i opcode b₁ hopcode
    obtain ⟨hbuf, hpos, -⟩ := consumeSizedType_eq_some hopcode
    obtain ⟨hbuf', hpos'⟩ := forward_parseOperands opcode b₁ _ b' h
    simp only [empty, decide_eq_true_eq] at hempty
    exact ⟨hbuf'.trans hbuf, by omega, by omega⟩

/-! ## `parse_instructions` -/

/-- The `while let Some(..) = self.parse_instruction(..)` loop. -/
def parseInstructionsLoop (instructions : ConsumableBuffer) (parsed : List Instruction) :
    Option (List Instruction × ConsumableBuffer) :=
  -- the equation is only read by the termination proof
  match _hparse : parseInstruction instructions with
  | none => none
  | some (none, instructions) => some (parsed, instructions)
  | some (some instruction, instructions') =>
    parseInstructionsLoop instructions' (parsed ++ [instruction])
termination_by instructions.buffer.length - instructions.position
decreasing_by
  obtain ⟨hbuf, hpos, hlt⟩ := parseInstruction_advances _hparse
  rw [hbuf]
  omega

/-- `parse_instructions`: `none` also where the assertion that every byte was
read fails. -/
def parseInstructions (instructions : List UInt8) : Option (List Instruction) :=
  match parseInstructionsLoop (ConsumableBuffer.new instructions) [] with
  | none => none
  | some (parsed, instructions) => if instructions.empty then some parsed else none

end Solaya.EhFrame
