import Solaya.Core.Machine
import Solaya.Debugging.EhFrameParser
import Solaya.Klibc.ArrayVec
import Solaya.Klibc.Util

/-!
# The unwinder

`Unwinder::new` (`debugging/unwinder.rs`) turns an FDE into the rows of its
call frame table.  It starts with one row at `pc_begin`, evaluates the CIE's
initial instructions and then the FDE's, each time from `pc_begin` and from the
last row, and finally sets the end address of the last row.  The evaluation
keeps one mutable `current_row`: `DW_CFA_advance_loc` writes it over the last
row with its end address, then pushes a copy that starts at the new address;
the rule instructions change it; `DW_CFA_restore` copies a register's rule
from the first row; `DW_CFA_remember_state` pushes it on a stack and
`DW_CFA_restore_state` pops it back, start address included.

`rows` holds at most 128 rows and the stack 16; a push beyond that, a register
number of 32 or more, an offset past `i64` and an address past `usize` all
panic, and so do the `expect`s on an empty row list or stack.  The model
returns `none` in each of those places.
-/

namespace Solaya.EhFrame

/-- `RegisterRule`. -/
inductive RegisterRule where
  | none
  | offset (value : Int64)
  deriving DecidableEq, Repr

/-- `Row`. -/
structure Row where
  startAddress : ℕ
  endAddress : ℕ
  cfaRegister : ℕ
  cfaOffset : Int64
  registerRules : Vector RegisterRule 32
  deriving DecidableEq, Repr

/-- `Row::new`. -/
def Row.new (address : ℕ) : Row :=
  ⟨address, 0, 0, 0, Vector.replicate 32 .none⟩

/-- `row.register_rules[register as usize] = rule`; `none` is the index out of
bounds. -/
def Row.setRule (row : Row) (register : ℕ) (rule : RegisterRule) : Option Row :=
  if h : register < 32 then some { row with registerRules := row.registerRules.set register rule h }
  else none

/-- `Unwinder`. -/
structure Unwinder where
  fde : ParsedFDE
  rows : ArrayVec Row 128
  rowStack : ArrayVec Row 16

namespace Unwinder

/-- `last_row`; `none` is its `expect`. -/
def lastRow (u : Unwinder) : Option Row := u.rows.elements.getLast?

/-- `update_last_row`; `none` is its `expect`. -/
def updateLastRow (u : Unwinder) (row : Row) : Option Unwinder :=
  (u.rows.setLast row).map fun rows => { u with rows }

/-- The variables of the loop of `evaluate_instructions`. -/
structure Evaluation where
  unwinder : Unwinder
  currentAddress : ℕ
  currentRow : Row

/-- One turn of the loop of `evaluate_instructions`; `none` where it panics. -/
def evaluateInstruction (s : Evaluation) : Instruction → Option Evaluation
  | .advanceLoc delta => do
    -- `current_address += *delta as usize`, checked for overflow
    let currentAddress ← checkedAdd s.currentAddress delta
    let currentRow := { s.currentRow with endAddress := currentAddress }
    let unwinder ← s.unwinder.updateLastRow currentRow
    let currentRow := { currentRow with startAddress := currentAddress, endAddress := 0 }
    let rows ← (unwinder.rows.push currentRow).toOption
    some ⟨{ unwinder with rows }, currentAddress, currentRow⟩
  | .offset register offset =>
    -- `i64::try_from(*offset).expect(..)`, then a wrapping multiplication
    if 2 ^ 63 ≤ offset then none
    else
      let realOffset := Int64.ofNat offset * s.unwinder.fde.cie.dataAlignmentFactor
      (s.currentRow.setRule register (.offset realOffset)).map fun currentRow => { s with currentRow }
  | .restore register => do
    let firstRule ← s.unwinder.rows.elements.head?
    let rule ← firstRule.registerRules[register]?
    let currentRow ← s.currentRow.setRule register rule
    some { s with currentRow }
  | .defCfa register offset =>
    if 2 ^ 63 ≤ offset then none
    else some { s with currentRow :=
      { s.currentRow with cfaRegister := register, cfaOffset := Int64.ofNat offset } }
  | .defCfaRegister register =>
    some { s with currentRow := { s.currentRow with cfaRegister := register } }
  | .defCfaOffset offset =>
    if 2 ^ 63 ≤ offset then none
    else some { s with currentRow := { s.currentRow with cfaOffset := Int64.ofNat offset } }
  | .remeberState => do
    let rowStack ← (s.unwinder.rowStack.push s.currentRow).toOption
    some { s with unwinder := { s.unwinder with rowStack } }
  | .restoreState => do
    let (row, rowStack) ← s.unwinder.rowStack.pop
    -- the popped row keeps its own start address
    let startAddress := row.startAddress
    some ⟨{ s.unwinder with rowStack }, s.currentAddress, { row with startAddress }⟩
  | .nop => some s

/-- `evaluate_instructions`: the loop starts at `pc_begin` from the last row,
and its row is written over the last row at the end. -/
def evaluateInstructions (u : Unwinder) (instructions : List Instruction) : Option Unwinder := do
  let currentRow ← u.lastRow
  let s ← Machine.run evaluateInstruction ⟨u, u.fde.pcBegin, currentRow⟩ instructions
  s.unwinder.updateLastRow s.currentRow

/-- `Unwinder::new`. -/
def new (fde : ParsedFDE) : Option Unwinder := do
  let rows ← ((ArrayVec.new : ArrayVec Row 128).push (Row.new fde.pcBegin)).toOption
  let u ← evaluateInstructions ⟨fde, rows, .new⟩ fde.cie.initialInstructions
  let u ← u.evaluateInstructions fde.instructions
  let lastRow ← u.lastRow
  let endAddress ← checkedAdd fde.pcBegin fde.addressRange
  u.updateLastRow { lastRow with endAddress }

/-- `find_row_for_address`: the first row whose closed range holds the
address; `none` is the `expect`. -/
def findRowForAddress (u : Unwinder) (address : ℕ) : Option Row :=
  u.rows.elements.find? fun row => row.startAddress ≤ address && address ≤ row.endAddress

end Unwinder

end Solaya.EhFrame
