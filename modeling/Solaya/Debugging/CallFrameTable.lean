import Solaya.Core.Machine
import Solaya.Debugging.EhFrameParser
import Mathlib.Logic.Function.Basic

/-!
# The call frame table an FDE describes

What `Unwinder::new` is meant to compute is the table of DWARF's call frame
information (DWARF 5, section 6.4).  A virtual machine evaluates the CIE's
initial instructions and then the FDE's.  It starts at `pc_begin` with a
current location and a current set of rules.  `DW_CFA_advance_loc` ends the
current row and moves the location forward by the delta times the CIE's code
alignment factor.  An offset rule is the operand times the data alignment
factor.  `DW_CFA_restore` puts back the rule the initial instructions set.
`DW_CFA_remember_state` and `DW_CFA_restore_state` push and pop the rules and
leave the location alone.  The last row ends at `pc_begin + address_range`.

Rules and offsets are stated over all registers and over `ℤ`: this is the
table itself, not a representation of it.
-/

namespace Solaya.EhFrame

/-- The rules of one row: the CFA is `cfaRegister + cfaOffset`, and register
`r` is saved at `CFA + n` when `registers r = some n`. -/
structure Rules where
  cfaRegister : ℕ
  cfaOffset : ℤ
  registers : ℕ → Option ℤ

/-- The rules before any instruction. -/
def Rules.initial : Rules := ⟨0, 0, fun _ => none⟩

/-- The rules with register `register`'s rule replaced. -/
def Rules.setRegister (rules : Rules) (register : ℕ) (rule : Option ℤ) : Rules :=
  { rules with registers := Function.update rules.registers register rule }

/-- A row of the table: its rules hold from `startAddress` to `endAddress`. -/
structure TableRow where
  startAddress : ℕ
  endAddress : ℕ
  rules : Rules

/-- The state of the evaluation: the current location and rules, the
remembered rules with the latest first, and the rows ended so far. -/
structure CfiState where
  location : ℕ
  rules : Rules
  stack : List Rules
  rows : List TableRow

namespace CfiState

/-- One instruction, under the code and data alignment factors and the rules
`initial` that `DW_CFA_restore` returns to; `none` for a
`DW_CFA_restore_state` with nothing remembered. -/
def execute (codeAlignmentFactor : ℕ) (dataAlignmentFactor : ℤ) (initial : Rules)
    (t : CfiState) : Instruction → Option CfiState
  | .advanceLoc delta =>
    let location := t.location + delta * codeAlignmentFactor
    some { t with location, rows := t.rows ++ [⟨t.location, location, t.rules⟩] }
  | .offset register offset =>
    some { t with rules := t.rules.setRegister register (some (offset * dataAlignmentFactor)) }
  | .restore register =>
    some { t with rules := t.rules.setRegister register (initial.registers register) }
  | .defCfa register offset =>
    some { t with rules := { t.rules with cfaRegister := register, cfaOffset := offset } }
  | .defCfaRegister register => some { t with rules := { t.rules with cfaRegister := register } }
  | .defCfaOffset offset => some { t with rules := { t.rules with cfaOffset := offset } }
  | .remeberState => some { t with stack := t.rules :: t.stack }
  | .restoreState =>
    match t.stack with
    | [] => none
    | rules :: stack => some { t with rules, stack }
  | .nop => some t

end CfiState

/-- The table of an FDE: the CIE's initial instructions from `pc_begin` with
the initial rules, then the FDE's from where they left off, and the last row
up to `pc_begin + address_range`; `none` when an instruction has no meaning. -/
def callFrameTable (fde : ParsedFDE) : Option (List TableRow) := do
  let codeAlignmentFactor := fde.cie.codeAlignmentFactor
  let dataAlignmentFactor := fde.cie.dataAlignmentFactor.toInt
  let cie ← Machine.run (CfiState.execute codeAlignmentFactor dataAlignmentFactor .initial)
    ⟨fde.pcBegin, .initial, [], []⟩ fde.cie.initialInstructions
  let t ← Machine.run (CfiState.execute codeAlignmentFactor dataAlignmentFactor cie.rules) cie
    fde.instructions
  some (t.rows ++ [⟨t.location, fde.pcBegin + fde.addressRange, t.rules⟩])

end Solaya.EhFrame
