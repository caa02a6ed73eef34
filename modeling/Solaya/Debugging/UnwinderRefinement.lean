import Solaya.Debugging.Unwinder
import Solaya.Debugging.CallFrameTable
import Mathlib.Data.List.Forall2

/-!
# What the unwinder computes

A row of the unwinder stands for a row of the call frame table through
`Row.rules`: its CFA rule, and the offset rules of registers 0 to 31.  The
relation `Simulates` ties the loop variables of `evaluate_instructions` to the
state of the table's evaluation, and `Simulates.step` shows that every
instruction keeps it, provided the instruction fits: its register has a slot,
its offsets fit `i64`, the rows and the stack have room, the address stays in
`usize`.

Two things keep the unwinder from being the table.  It never multiplies a
delta by the code alignment factor, so it computes the table of a factor of 1.
And `DW_CFA_restore_state` brings back the remembered row with the start
address it had, so the row ended at the next `DW_CFA_advance_loc` starts too
early.  Up to those, `new_refines_callFrameTable` says that the unwinder's rows
have the table's end addresses and rules, start no later than the table's
rows, and are the table itself when no `DW_CFA_restore_state` occurs.
-/

namespace Solaya.EhFrame

open Machine

/-! ## Reading a row as rules -/

/-- The offset a register rule names. -/
def RegisterRule.toOffset : RegisterRule → Option ℤ
  | .none => Option.none
  | .offset value => some value.toInt

/-- The rules a row of the unwinder holds. -/
def Row.rules (row : Row) : Rules :=
  ⟨row.cfaRegister, row.cfaOffset.toInt,
    fun register => if h : register < 32 then row.registerRules[register].toOffset else none⟩

/-- The table row a row of the unwinder is. -/
def Row.toTableRow (row : Row) : TableRow :=
  ⟨row.startAddress, row.endAddress, row.rules⟩

theorem Row.rules_set (row : Row) {register : ℕ} (rule : RegisterRule) (h : register < 32) :
    ({ row with registerRules := row.registerRules.set register rule h } : Row).rules =
      row.rules.setRegister register rule.toOffset := by
  simp only [Row.rules, Rules.setRegister, Rules.mk.injEq, true_and]
  funext r
  by_cases hr : r = register
  · subst hr
    simp [h]
  · simp only [Function.update_of_ne hr]
    split_ifs with hlt
    · rw [Vector.getElem_set, if_neg (Ne.symm hr)]
    · rfl

theorem Row.rules_new (address : ℕ) : (Row.new address).rules = Rules.initial := by
  unfold Row.rules Row.new Rules.initial
  congr 1
  funext r
  split_ifs <;> simp [RegisterRule.toOffset]

/-- An `i64` factored offset that does not wrap. -/
def FitsInt64 (value : ℤ) : Prop := -2 ^ 63 ≤ value ∧ value < 2 ^ 63

instance (value : ℤ) : Decidable (FitsInt64 value) :=
  inferInstanceAs (Decidable (-2 ^ 63 ≤ value ∧ value < 2 ^ 63))

theorem toInt_ofNat_mul {offset : ℕ} {factor : Int64} (hoffset : offset < 2 ^ 63)
    (hfits : FitsInt64 (offset * factor.toInt)) :
    (Int64.ofNat offset * factor).toInt = offset * factor.toInt := by
  rw [Int64.toInt_mul, Int64.toInt_ofNat_of_lt hoffset]
  exact Int.bmod_eq_of_le (by have := hfits.1; omega) (by have := hfits.2; omega)

/-! ## What each instruction does to the loop variables -/

namespace Unwinder

variable {s : Evaluation}

theorem evaluateInstruction_offset {register offset : ℕ} (hregister : register < 32)
    (hoffset : offset < 2 ^ 63) :
    evaluateInstruction s (.offset register offset) =
      some { s with currentRow := { s.currentRow with registerRules := (s.currentRow.registerRules.set
        register (.offset (Int64.ofNat offset * s.unwinder.fde.cie.dataAlignmentFactor))
        hregister) } } := by
  simp only [evaluateInstruction, Nat.not_le.mpr hoffset, if_false, Row.setRule, dif_pos hregister,
    Option.map_some]

theorem evaluateInstruction_restore {register : ℕ} {first : Row} (hregister : register < 32)
    (hfirst : s.unwinder.rows.elements.head? = some first) :
    evaluateInstruction s (.restore register) =
      some { s with currentRow := { s.currentRow with registerRules :=
        (s.currentRow.registerRules.set register first.registerRules[register] hregister) } } := by
  simp only [evaluateInstruction, hfirst, Option.bind_eq_bind, Option.bind_some,
    Vector.getElem?_eq_getElem hregister, Row.setRule, dif_pos hregister]

theorem evaluateInstruction_defCfa {register value : ℕ} (hvalue : value < 2 ^ 63) :
    evaluateInstruction s (.defCfa register value) =
      some { s with currentRow :=
        { s.currentRow with cfaRegister := register, cfaOffset := Int64.ofNat value } } := by
  simp only [evaluateInstruction, if_neg (Nat.not_le.mpr hvalue)]

theorem evaluateInstruction_defCfaOffset {value : ℕ} (hvalue : value < 2 ^ 63) :
    evaluateInstruction s (.defCfaOffset value) =
      some { s with currentRow := { s.currentRow with cfaOffset := Int64.ofNat value } } := by
  simp only [evaluateInstruction, if_neg (Nat.not_le.mpr hvalue)]

theorem evaluateInstructions_of_run {u : Unwinder} {instructions : List Instruction} {row : Row}
    {s' : Evaluation} (hlast : u.lastRow = some row)
    (hrun : Machine.run evaluateInstruction ⟨u, u.fde.pcBegin, row⟩ instructions = some s') :
    u.evaluateInstructions instructions = s'.unwinder.updateLastRow s'.currentRow := by
  simp only [evaluateInstructions, hlast, hrun, Option.bind_eq_bind, Option.bind_some]

theorem evaluateInstruction_remeberState {rowStack : ArrayVec Row 16}
    (hpush : (s.unwinder.rowStack.push s.currentRow).toOption = some rowStack) :
    evaluateInstruction s .remeberState = some { s with unwinder := { s.unwinder with rowStack } } := by
  simp only [evaluateInstruction, hpush, Option.bind_eq_bind, Option.bind_some]

theorem evaluateInstruction_restoreState {row : Row} {rowStack : ArrayVec Row 16}
    (hpop : s.unwinder.rowStack.pop = some (row, rowStack)) :
    evaluateInstruction s .restoreState =
      some ⟨{ s.unwinder with rowStack }, s.currentAddress, row⟩ := by
  simp only [evaluateInstruction, hpop, Option.bind_eq_bind, Option.bind_some]

theorem evaluateInstruction_advanceLoc {delta : ℕ} {closed : List Row} {last : Row}
    (hrows : s.unwinder.rows.elements = closed ++ [last]) (hroom : closed.length + 1 < 128)
    (haddress : s.currentAddress + delta ≤ usizeMax) :
    ∃ s', evaluateInstruction s (.advanceLoc delta) = some s' ∧
      s'.unwinder.fde = s.unwinder.fde ∧ s'.unwinder.rowStack = s.unwinder.rowStack ∧
      s'.currentAddress = s.currentAddress + delta ∧
      s'.currentRow = { s.currentRow with startAddress := s.currentAddress + delta, endAddress := 0 } ∧
      s'.unwinder.rows.elements =
        closed ++ [{ s.currentRow with endAddress := s.currentAddress + delta }] ++ [s'.currentRow] := by
  obtain ⟨rows₁, hset, hrows₁⟩ :=
    ArrayVec.setLast_of_eq hrows { s.currentRow with endAddress := s.currentAddress + delta }
  obtain ⟨rows₂, hpush, hrows₂⟩ := ArrayVec.push_toOption_of_lt
    (v := rows₁) (by rw [hrows₁, List.length_append, List.length_singleton]; omega)
    { s.currentRow with startAddress := s.currentAddress + delta, endAddress := 0 }
  refine ⟨⟨{ s.unwinder with rows := rows₂ }, s.currentAddress + delta,
    { s.currentRow with startAddress := s.currentAddress + delta, endAddress := 0 }⟩,
    ?_, rfl, rfl, rfl, rfl, ?_⟩
  · simp only [evaluateInstruction, checkedAdd_of_le haddress, updateLastRow, hset,
      Option.bind_eq_bind, Option.bind_some, Option.map_some]
    rw [hpush]
    rfl
  · show rows₂.elements = _
    rw [hrows₂, hrows₁]

end Unwinder

/-! ## When an instruction fits -/

/-- The instructions the unwinder evaluates without panicking under the data
alignment factor `factor`: a register with a rule slot, offsets that fit
`i64`, and a factored offset that does not wrap. -/
def Instruction.InRange (factor : ℤ) : Instruction → Prop
  | .offset register value => register < 32 ∧ value < 2 ^ 63 ∧ FitsInt64 (value * factor)
  | .restore register => register < 32
  | .defCfa _ value => value < 2 ^ 63
  | .defCfaOffset value => value < 2 ^ 63
  | _ => True

instance (factor : ℤ) : DecidablePred (Instruction.InRange factor) := fun
  | .advanceLoc _ => inferInstanceAs (Decidable True)
  | .offset register value =>
    inferInstanceAs (Decidable (register < 32 ∧ value < 2 ^ 63 ∧ FitsInt64 (value * factor)))
  | .restore register => inferInstanceAs (Decidable (register < 32))
  | .defCfa _ value => inferInstanceAs (Decidable (value < 2 ^ 63))
  | .defCfaRegister _ => inferInstanceAs (Decidable True)
  | .defCfaOffset value => inferInstanceAs (Decidable (value < 2 ^ 63))
  | .remeberState => inferInstanceAs (Decidable True)
  | .restoreState => inferInstanceAs (Decidable True)
  | .nop => inferInstanceAs (Decidable True)

/-- The instructions that only set a rule, in range, as a CIE's initial
instructions are. -/
def Instruction.SetsRule (factor : ℤ) : Instruction → Prop
  | .offset register value => register < 32 ∧ value < 2 ^ 63 ∧ FitsInt64 (value * factor)
  | .defCfa _ value => value < 2 ^ 63
  | .defCfaRegister _ => True
  | .defCfaOffset value => value < 2 ^ 63
  | .nop => True
  | _ => False

instance (factor : ℤ) : DecidablePred (Instruction.SetsRule factor) := fun
  | .advanceLoc _ => inferInstanceAs (Decidable False)
  | .offset register value =>
    inferInstanceAs (Decidable (register < 32 ∧ value < 2 ^ 63 ∧ FitsInt64 (value * factor)))
  | .restore _ => inferInstanceAs (Decidable False)
  | .defCfa _ value => inferInstanceAs (Decidable (value < 2 ^ 63))
  | .defCfaRegister _ => inferInstanceAs (Decidable True)
  | .defCfaOffset value => inferInstanceAs (Decidable (value < 2 ^ 63))
  | .remeberState => inferInstanceAs (Decidable False)
  | .restoreState => inferInstanceAs (Decidable False)
  | .nop => inferInstanceAs (Decidable True)

/-- What the state of the table's evaluation must leave room for, for the
unwinder to take one more instruction: a row and an address for an advance, a
stack slot or a remembered state, and no offset rule before the first row
ends. -/
def CfiState.StepFits (t : CfiState) : Instruction → Prop
  | .advanceLoc delta => t.rows.length + 1 < 128 ∧ t.location + delta ≤ usizeMax
  | .offset _ _ => t.rows ≠ []
  | .remeberState => t.stack.length < 16
  | .restoreState => t.stack ≠ []
  | _ => True

/-- The number of `DW_CFA_advance_loc`s. -/
def advanceCount : List Instruction → ℕ
  | [] => 0
  | .advanceLoc _ :: instructions => advanceCount instructions + 1
  | _ :: instructions => advanceCount instructions

/-- The sum of the deltas of the `DW_CFA_advance_loc`s. -/
def deltaSum : List Instruction → ℕ
  | [] => 0
  | .advanceLoc delta :: instructions => delta + deltaSum instructions
  | _ :: instructions => deltaSum instructions

/-- Whether the remembered states, `depth` deep at the start, stay within 16
and are never popped when there are none. -/
def stackFits : ℕ → List Instruction → Bool
  | _, [] => true
  | depth, .remeberState :: instructions => depth < 16 && stackFits (depth + 1) instructions
  | depth, .restoreState :: instructions => 0 < depth && stackFits (depth - 1) instructions
  | depth, _ :: instructions => stackFits depth instructions

/-- Whether no `DW_CFA_offset` comes before the first `DW_CFA_advance_loc`. -/
def noEarlyOffset : List Instruction → Bool
  | [] => true
  | .advanceLoc _ :: _ => true
  | .offset _ _ :: _ => false
  | _ :: instructions => noEarlyOffset instructions

/-- Room, from a state of the table's evaluation, for the instructions still to
come. -/
structure Budget (t : CfiState) (instructions : List Instruction) : Prop where
  rows : t.rows.length + 1 + advanceCount instructions ≤ 128
  stack : stackFits t.stack.length instructions = true
  address : t.location + deltaSum instructions ≤ usizeMax
  early : t.rows = [] → noEarlyOffset instructions = true

/-- A budget for an instruction and the rest covers the instruction, and
after it, the rest. -/
theorem Budget.cons {t : CfiState} {i : Instruction}
    {instructions : List Instruction} (h : Budget t (i :: instructions)) (factor : ℤ)
    (initial : Rules) : t.StepFits i ∧ ∀ t', t.execute 1 factor initial i = some t' → Budget t' instructions := by
  obtain ⟨hrows, hstack, haddress, hearly⟩ := h
  cases i with
  | advanceLoc delta =>
    simp only [advanceCount, deltaSum] at hrows haddress
    refine ⟨⟨by omega, by omega⟩, ?_⟩
    rintro t' ⟨⟩
    refine ⟨?_, hstack, ?_, fun hnil => absurd hnil (by simp)⟩
    · simp only [List.length_append, List.length_singleton]
      omega
    · simp only [Nat.mul_one]
      omega
  | offset register offset =>
    refine ⟨fun hnil => by simpa [noEarlyOffset] using hearly hnil, ?_⟩
    rintro t' ⟨⟩
    exact ⟨hrows, hstack, haddress, fun hnil => by simpa [noEarlyOffset] using hearly hnil⟩
  | remeberState =>
    simp only [stackFits, Bool.and_eq_true, decide_eq_true_eq] at hstack
    refine ⟨hstack.1, ?_⟩
    rintro t' ⟨⟩
    exact ⟨hrows, hstack.2, haddress, fun hnil => by simpa [noEarlyOffset] using hearly hnil⟩
  | restoreState =>
    simp only [stackFits, Bool.and_eq_true, decide_eq_true_eq] at hstack
    refine ⟨List.ne_nil_of_length_pos hstack.1, ?_⟩
    intro t' ht'
    cases hstack' : t.stack with
    | nil => rw [hstack'] at hstack; exact absurd hstack.1 (Nat.lt_irrefl 0)
    | cons rules stack =>
      simp only [CfiState.execute, hstack', Option.some.injEq] at ht'
      subst ht'
      refine ⟨hrows, ?_, haddress, fun hnil => by simpa [noEarlyOffset] using hearly hnil⟩
      simpa [hstack'] using hstack.2
  | restore register | defCfa register offset | defCfaRegister register | defCfaOffset offset | nop =>
    refine ⟨trivial, ?_⟩
    rintro t' ⟨⟩
    exact ⟨hrows, hstack, haddress, fun hnil => by simpa [noEarlyOffset] using hearly hnil⟩

/-! ## The rules each rule instruction leaves -/

section RowRules

variable (row : Row)

theorem Row.rules_offset {register value : ℕ} {factor : Int64} (hregister : register < 32)
    (hvalue : value < 2 ^ 63) (hfits : FitsInt64 (value * factor.toInt)) :
    ({ row with registerRules := (row.registerRules.set register
        (.offset (Int64.ofNat value * factor)) hregister) } : Row).rules =
      row.rules.setRegister register (some (value * factor.toInt)) := by
  rw [Row.rules_set, RegisterRule.toOffset, toInt_ofNat_mul hvalue hfits]

theorem Row.rules_defCfa {register value : ℕ} (hvalue : value < 2 ^ 63) :
    ({ row with cfaRegister := register, cfaOffset := Int64.ofNat value } : Row).rules =
      { row.rules with cfaRegister := register, cfaOffset := value } := by
  simp only [Row.rules, Int64.toInt_ofNat_of_lt hvalue]

theorem Row.rules_defCfaOffset {value : ℕ} (hvalue : value < 2 ^ 63) :
    ({ row with cfaOffset := Int64.ofNat value } : Row).rules =
      { row.rules with cfaOffset := value } := by
  simp only [Row.rules, Int64.toInt_ofNat_of_lt hvalue]

/-- The rules do not depend on the addresses. -/
theorem Row.rules_addresses (startAddress endAddress : ℕ) :
    ({ row with startAddress, endAddress } : Row).rules = row.rules := rfl

end RowRules

/-! ## The loop variables stand for the table's evaluation -/

/-- How a row of the unwinder stands for a row of the table: the same end
address and rules, and a start address no later. -/
def RowAgrees (row : Row) (ref : TableRow) : Prop :=
  row.endAddress = ref.endAddress ∧ row.rules = ref.rules ∧ row.startAddress ≤ ref.startAddress

/-- `RowAgrees`, with equal start addresses when `exact` holds. -/
def RowMatches (exact : Prop) (row : Row) (ref : TableRow) : Prop :=
  RowAgrees row ref ∧ (exact → row.startAddress = ref.startAddress)

/-- The loop variables of `evaluate_instructions` over the FDE's instructions
against the table's evaluation, with `initial` the rules the CIE left.  The
rows ended so far match, the last row is a placeholder that the next advance
or the end overwrites, the first row holds the CIE's register rules (which
`DW_CFA_restore` reads), and until a row has ended the register rules are the
CIE's. -/
structure Simulates (exact : Prop) (fde : ParsedFDE) (initial : Rules) (s : Unwinder.Evaluation)
    (t : CfiState) : Prop where
  fde : s.unwinder.fde = fde
  address : s.currentAddress = t.location
  rules : s.currentRow.rules = t.rules
  start_le : s.currentRow.startAddress ≤ t.location
  start_eq : exact → s.currentRow.startAddress = t.location
  rows : ∃ closed last, s.unwinder.rows.elements = closed ++ [last] ∧
    List.Forall₂ (RowMatches exact) closed t.rows
  first : ∃ row, s.unwinder.rows.elements.head? = some row ∧ row.rules.registers = initial.registers
  pending : t.rows = [] →
    t.rules.registers = initial.registers ∧ ∀ rules ∈ t.stack, rules.registers = initial.registers
  stack : s.unwinder.rowStack.elements.reverse.map Row.rules = t.stack
  stack_start : ∀ row ∈ s.unwinder.rowStack.elements, row.startAddress ≤ t.location

namespace Simulates

variable {exact : Prop} {fde : ParsedFDE} {initial : Rules} {s : Unwinder.Evaluation}
  {t : CfiState}

/-- A rule instruction changes the current row and the current rules alike. -/
theorem setRow (hsim : Simulates exact fde initial s t) {row : Row} {rules : Rules}
    (hrules : row.rules = rules) (hstart : row.startAddress = s.currentRow.startAddress)
    (hpending : t.rows = [] → rules.registers = initial.registers) :
    Simulates exact fde initial { s with currentRow := row } { t with rules } where
  fde := hsim.fde
  address := hsim.address
  rules := hrules
  start_le := hstart ▸ hsim.start_le
  start_eq h := hstart ▸ hsim.start_eq h
  rows := hsim.rows
  first := hsim.first
  pending h := ⟨hpending h, (hsim.pending h).2⟩
  stack := hsim.stack
  stack_start := hsim.stack_start

theorem stack_length (hsim : Simulates exact fde initial s t) :
    s.unwinder.rowStack.elements.length = t.stack.length := by
  rw [← hsim.stack, List.length_map, List.length_reverse]

/-- `DW_CFA_advance_loc`: the current row is ended with the new address and a
copy starts there. -/
theorem advanceLoc (hsim : Simulates exact fde initial s t) {delta : ℕ}
    (hroom : t.rows.length + 1 < 128) (haddress : t.location + delta ≤ usizeMax) :
    ∃ s', Unwinder.evaluateInstruction s (.advanceLoc delta) = some s' ∧
      Simulates exact fde initial s'
        { t with location := t.location + delta * 1,
                 rows := t.rows ++ [⟨t.location, t.location + delta * 1, t.rules⟩] } := by
  obtain ⟨closed, last, hrows, hclosed⟩ := hsim.rows
  have hlength := hclosed.length_eq
  obtain ⟨s', hstep, hfde, hstack, haddress', hrow, hrows'⟩ :=
    Unwinder.evaluateInstruction_advanceLoc hrows (by omega) (by rw [hsim.address]; exact haddress)
  rw [Nat.mul_one]
  refine ⟨s', hstep, ⟨hfde.trans hsim.fde, by rw [haddress', hsim.address], ?_, ?_, ?_, ?_, ?_, ?_,
    ?_, ?_⟩⟩
  · rw [hrow, Row.rules_addresses, hsim.rules]
  · rw [hrow, hsim.address]
  · intro _
    rw [hrow, hsim.address]
  · -- the ended row joins the rows that match
    refine ⟨closed ++ [{ s.currentRow with endAddress := s.currentAddress + delta }], s'.currentRow,
      hrows', List.rel_append hclosed (.cons ⟨⟨?_, ?_, hsim.start_le⟩, hsim.start_eq⟩ .nil)⟩
    · show s.currentAddress + delta = t.location + delta
      rw [hsim.address]
    · exact hsim.rules
  · -- the first row is the one ended here when no row had ended before
    obtain ⟨first, hfirst, hregisters⟩ := hsim.first
    rw [hrows']
    cases closed with
    | nil =>
      have hnil : t.rows = [] := List.length_eq_zero_iff.mp (by simp [← hlength])
      refine ⟨_, rfl, ?_⟩
      rw [Row.rules_addresses, hsim.rules]
      exact (hsim.pending hnil).1
    | cons row closed =>
      rw [hrows] at hfirst
      exact ⟨first, hfirst, hregisters⟩
  · intro hnil
    exact absurd hnil (by simp)
  · rw [hstack]
    exact hsim.stack
  · intro row hrow
    rw [hstack] at hrow
    exact Nat.le_trans (hsim.stack_start row hrow) (Nat.le_add_right _ _)

/-- `DW_CFA_remember_state`: the current row goes on the stack. -/
theorem remeberState (hsim : Simulates exact fde initial s t) (hroom : t.stack.length < 16) :
    ∃ s', Unwinder.evaluateInstruction s .remeberState = some s' ∧
      Simulates exact fde initial s' { t with stack := t.rules :: t.stack } := by
  obtain ⟨rowStack, hpush, helements⟩ :=
    ArrayVec.push_toOption_of_lt (by rw [hsim.stack_length]; exact hroom) s.currentRow
  refine ⟨_, Unwinder.evaluateInstruction_remeberState hpush, ⟨hsim.fde, hsim.address, hsim.rules,
    hsim.start_le, hsim.start_eq, hsim.rows, hsim.first, ?_, ?_, ?_⟩⟩
  · intro hnil
    obtain ⟨hrules, hstack⟩ := hsim.pending hnil
    refine ⟨hrules, ?_⟩
    rintro rules (_ | ⟨_, hmem⟩)
    · exact hrules
    · exact hstack rules hmem
  · show rowStack.elements.reverse.map Row.rules = _
    rw [helements, List.reverse_append, List.reverse_singleton, List.singleton_append,
      List.map_cons, hsim.stack, hsim.rules]
  · intro row hrow
    change row ∈ rowStack.elements at hrow
    rw [helements, List.mem_append, List.mem_singleton] at hrow
    rcases hrow with hrow | rfl
    · exact hsim.stack_start row hrow
    · exact hsim.start_le

/-- `DW_CFA_restore_state`: the remembered row comes back, with its own start
address, which the table does not ask for. -/
theorem restoreState (hsim : Simulates exact fde initial s t) (hexact : ¬exact) {rules : Rules}
    {stack : List Rules} (hstack : t.stack = rules :: stack) :
    ∃ s', Unwinder.evaluateInstruction s .restoreState = some s' ∧
      Simulates exact fde initial s' { t with rules, stack } := by
  obtain ⟨elements, last, hsplit⟩ : ∃ elements last,
      s.unwinder.rowStack.elements = elements ++ [last] := by
    rcases List.eq_nil_or_concat s.unwinder.rowStack.elements with hnil | ⟨elements, last, hcat⟩
    · have := hsim.stack
      rw [hnil, hstack] at this
      cases this
    · exact ⟨elements, last, by rw [hcat, List.concat_eq_append]⟩
  have hreverse := hsim.stack
  rw [hsplit, hstack, List.reverse_append, List.reverse_singleton, List.singleton_append,
    List.map_cons, List.cons.injEq] at hreverse
  obtain ⟨rowStack, hpop, helements⟩ := ArrayVec.pop_of_eq hsplit
  have hlast : last ∈ s.unwinder.rowStack.elements := by simp [hsplit]
  refine ⟨_, Unwinder.evaluateInstruction_restoreState hpop, ⟨hsim.fde, hsim.address, hreverse.1,
    hsim.stack_start last hlast, fun h => absurd h hexact, hsim.rows, hsim.first, ?_, ?_, ?_⟩⟩
  · intro hnil
    have hremembered := (hsim.pending hnil).2
    rw [hstack] at hremembered
    exact ⟨hremembered rules List.mem_cons_self, fun r hr => hremembered r (List.mem_cons_of_mem _ hr)⟩
  · show rowStack.elements.reverse.map Row.rules = stack
    rw [helements]
    exact hreverse.2
  · intro row hrow
    change row ∈ rowStack.elements at hrow
    rw [helements] at hrow
    exact hsim.stack_start row (by simp [hsplit, hrow])

end Simulates

namespace Simulates

variable {exact : Prop} {fde : ParsedFDE} {initial : Rules} {s : Unwinder.Evaluation}
  {t : CfiState}

/-- One instruction that fits keeps the loop variables and the table's
evaluation together. -/
theorem step (hsim : Simulates exact fde initial s t) {i : Instruction}
    (hrange : i.InRange fde.cie.dataAlignmentFactor.toInt) (hfits : t.StepFits i)
    (hexact : exact → i ≠ .restoreState) :
    ∃ s' t', Unwinder.evaluateInstruction s i = some s' ∧
      t.execute 1 fde.cie.dataAlignmentFactor.toInt initial i = some t' ∧
      Simulates exact fde initial s' t' := by
  cases i with
  | advanceLoc delta =>
    obtain ⟨s', hstep, hsim'⟩ := hsim.advanceLoc hfits.1 hfits.2
    exact ⟨s', _, hstep, rfl, hsim'⟩
  | offset register value =>
    obtain ⟨hregister, hvalue, hfactor⟩ := hrange
    refine ⟨_, _, Unwinder.evaluateInstruction_offset hregister hvalue, rfl,
      hsim.setRow ?_ rfl fun hnil => absurd hnil hfits⟩
    rw [Row.rules_offset _ hregister hvalue (by rw [hsim.fde]; exact hfactor), hsim.rules, hsim.fde]
  | restore register =>
    have hregister : register < 32 := hrange
    obtain ⟨first, hfirst, hregisters⟩ := hsim.first
    -- the rule read back from the first row is the CIE's
    have hrule : first.registerRules[register].toOffset = initial.registers register := by
      rw [← hregisters]
      simp only [Row.rules]
      rw [dif_pos hregister]
    refine ⟨_, _, Unwinder.evaluateInstruction_restore hregister hfirst, rfl,
      hsim.setRow ?_ rfl ?_⟩
    · dsimp only
      rw [Row.rules_set, hrule, hsim.rules]
    · intro hnil
      show Function.update t.rules.registers register (initial.registers register) = _
      rw [(hsim.pending hnil).1, Function.update_eq_self]
  | defCfa register value =>
    refine ⟨_, _, Unwinder.evaluateInstruction_defCfa hrange, rfl,
      hsim.setRow ?_ rfl fun hnil => (hsim.pending hnil).1⟩
    rw [Row.rules_defCfa _ hrange, hsim.rules]
  | defCfaRegister register =>
    exact ⟨_, _, rfl, rfl, hsim.setRow (by rw [← hsim.rules]; rfl) rfl
      fun hnil => (hsim.pending hnil).1⟩
  | defCfaOffset value =>
    refine ⟨_, _, Unwinder.evaluateInstruction_defCfaOffset hrange, rfl,
      hsim.setRow ?_ rfl fun hnil => (hsim.pending hnil).1⟩
    rw [Row.rules_defCfaOffset _ hrange, hsim.rules]
  | remeberState =>
    obtain ⟨s', hstep, hsim'⟩ := hsim.remeberState hfits
    exact ⟨s', _, hstep, rfl, hsim'⟩
  | restoreState =>
    obtain ⟨rules, stack, hstack⟩ := List.exists_cons_of_ne_nil hfits
    obtain ⟨s', hstep, hsim'⟩ := hsim.restoreState (fun h => hexact h rfl) hstack
    refine ⟨s', _, hstep, ?_, hsim'⟩
    simp only [CfiState.execute, hstack]
  | nop => exact ⟨s, t, rfl, rfl, hsim⟩

/-- The run rule: instructions in range, within the budget, keep the loop
variables and the table's evaluation together from start to end. -/
theorem run (hsim : Simulates exact fde initial s t) {instructions : List Instruction}
    (hbudget : Budget t instructions)
    (hrange : ∀ i ∈ instructions, i.InRange fde.cie.dataAlignmentFactor.toInt)
    (hexact : exact → ∀ i ∈ instructions, i ≠ .restoreState) :
    ∃ s' t', Machine.run Unwinder.evaluateInstruction s instructions = some s' ∧
      Machine.run (CfiState.execute 1 fde.cie.dataAlignmentFactor.toInt initial) t instructions =
        some t' ∧ Simulates exact fde initial s' t' := by
  induction instructions generalizing s t with
  | nil => exact ⟨s, t, rfl, rfl, hsim⟩
  | cons i instructions ih =>
    obtain ⟨hfits, hrest⟩ := hbudget.cons fde.cie.dataAlignmentFactor.toInt initial
    obtain ⟨s₁, t₁, hstep, hexecute, hsim₁⟩ :=
      hsim.step (hrange i List.mem_cons_self) hfits fun h => hexact h i List.mem_cons_self
    obtain ⟨s', t', hrun, hrun', hsim'⟩ := ih hsim₁ (hrest t₁ hexecute)
      (fun j hj => hrange j (List.mem_cons_of_mem i hj))
      (fun h j hj => hexact h j (List.mem_cons_of_mem i hj))
    refine ⟨s', t', ?_, ?_, hsim'⟩
    · rw [Machine.run_cons, hstep, Option.bind_some, hrun]
    · rw [Machine.run_cons, hexecute, Option.bind_some, hrun']

end Simulates

/-! ## The CIE's initial instructions -/

/-- A rule instruction changes only the current row, as it changes the current
rules. -/
theorem evaluateInstruction_setsRule (codeAlignmentFactor : ℕ) (initial : Rules)
    {s : Unwinder.Evaluation} {t : CfiState} {i : Instruction}
    (hi : i.SetsRule s.unwinder.fde.cie.dataAlignmentFactor.toInt)
    (hrules : s.currentRow.rules = t.rules) :
    ∃ row, Unwinder.evaluateInstruction s i = some { s with currentRow := row } ∧
      t.execute codeAlignmentFactor s.unwinder.fde.cie.dataAlignmentFactor.toInt initial i =
        some { t with rules := row.rules } ∧
      row.startAddress = s.currentRow.startAddress := by
  cases i with
  | offset register value =>
    obtain ⟨hregister, hvalue, hfactor⟩ := hi
    refine ⟨_, Unwinder.evaluateInstruction_offset hregister hvalue, ?_, rfl⟩
    rw [Row.rules_offset _ hregister hvalue hfactor, hrules]
    rfl
  | defCfa register value =>
    refine ⟨_, Unwinder.evaluateInstruction_defCfa hi, ?_, rfl⟩
    rw [Row.rules_defCfa _ hi, hrules]
    rfl
  | defCfaRegister register =>
    refine ⟨_, rfl, ?_, rfl⟩
    show some { t with rules := { t.rules with cfaRegister := register } } = _
    rw [← hrules]
    rfl
  | defCfaOffset value =>
    refine ⟨_, Unwinder.evaluateInstruction_defCfaOffset hi, ?_, rfl⟩
    rw [Row.rules_defCfaOffset _ hi, hrules]
    rfl
  | nop =>
    refine ⟨s.currentRow, rfl, ?_, rfl⟩
    rw [hrules]
    rfl
  | advanceLoc _ | restore _ | remeberState | restoreState => exact absurd hi id

theorem run_setsRule (codeAlignmentFactor : ℕ) (initial : Rules) :
    ∀ {instructions : List Instruction} {s : Unwinder.Evaluation} {t : CfiState},
      (∀ i ∈ instructions, i.SetsRule s.unwinder.fde.cie.dataAlignmentFactor.toInt) →
      s.currentRow.rules = t.rules →
      ∃ row, Machine.run Unwinder.evaluateInstruction s instructions =
          some { s with currentRow := row } ∧
        Machine.run (CfiState.execute codeAlignmentFactor
            s.unwinder.fde.cie.dataAlignmentFactor.toInt initial) t instructions =
          some { t with rules := row.rules } ∧
        row.startAddress = s.currentRow.startAddress := by
  intro instructions
  induction instructions with
  | nil => exact fun _ hrules => ⟨_, rfl, by rw [hrules]; rfl, rfl⟩
  | cons i instructions ih =>
    intro s t hsets hrules
    obtain ⟨row₁, hstep, hexecute, hstart₁⟩ :=
      evaluateInstruction_setsRule codeAlignmentFactor initial (hsets i List.mem_cons_self) hrules
    obtain ⟨row, hrun, hrun', hstart⟩ := ih (s := { s with currentRow := row₁ })
      (t := { t with rules := row₁.rules }) (fun j hj => hsets j (List.mem_cons_of_mem i hj)) rfl
    refine ⟨row, ?_, ?_, hstart.trans hstart₁⟩
    · rw [Machine.run_cons, hstep, Option.bind_some, hrun]
    · rw [Machine.run_cons, hexecute, Option.bind_some, hrun']

/-! ## `Unwinder::new` computes the table, up to start addresses -/

/-- The FDEs the unwinder handles: a CIE whose initial instructions only set
rules, FDE instructions in range, no offset rule before the first advance (so
that the first row keeps the CIE's register rules, which `DW_CFA_restore`
reads back from it), at most 127 advances, at most 16 remembered states and
none restored that was not remembered, addresses within `usize`, and a code
alignment factor of 1. -/
structure Fits (fde : ParsedFDE) : Prop where
  cie : ∀ i ∈ fde.cie.initialInstructions, i.SetsRule fde.cie.dataAlignmentFactor.toInt
  inRange : ∀ i ∈ fde.instructions, i.InRange fde.cie.dataAlignmentFactor.toInt
  noEarlyOffset : noEarlyOffset fde.instructions = true
  advances : advanceCount fde.instructions ≤ 127
  stack : stackFits 0 fde.instructions = true
  address : fde.pcBegin + deltaSum fde.instructions ≤ usizeMax
  endAddress : fde.pcBegin + fde.addressRange ≤ usizeMax
  codeAlignmentFactor : fde.cie.codeAlignmentFactor = 1

theorem RowMatches.toTableRow {row : Row} {ref : TableRow} (h : RowMatches True row ref) :
    row.toTableRow = ref := by
  obtain ⟨⟨hend, hrules, -⟩, hstart⟩ := h
  rw [Row.toTableRow, hend, hrules, hstart trivial]

/-- `Unwinder::new` around the FDE's instructions: the CIE's initial
instructions leave one row at `pc_begin` with the rules they set, and the
table's evaluation at `pc_begin` with the same rules; after the FDE's
instructions the last row is written back and given the FDE's end address. -/
theorem new_around_instructions {fde : ParsedFDE}
    (hcie : ∀ i ∈ fde.cie.initialInstructions, i.SetsRule fde.cie.dataAlignmentFactor.toInt)
    (hend : fde.pcBegin + fde.addressRange ≤ usizeMax) :
    ∃ row u, u.fde = fde ∧ u.rows.elements = [] ++ [row] ∧ u.rowStack.elements = [] ∧
      row.startAddress = fde.pcBegin ∧
      (∀ s closed last,
        Machine.run Unwinder.evaluateInstruction ⟨u, fde.pcBegin, row⟩ fde.instructions = some s →
        s.unwinder.rows.elements = closed ++ [last] →
        ∃ u', Unwinder.new fde = some u' ∧ u'.rows.elements =
          closed ++ [{ s.currentRow with endAddress := fde.pcBegin + fde.addressRange }]) ∧
      callFrameTable fde = (Machine.run (CfiState.execute fde.cie.codeAlignmentFactor
          fde.cie.dataAlignmentFactor.toInt row.rules) ⟨fde.pcBegin, row.rules, [], []⟩
          fde.instructions).map
        fun t => t.rows ++ [⟨t.location, fde.pcBegin + fde.addressRange, t.rules⟩] := by
  -- the first row, then the CIE's instructions
  obtain ⟨rows₀, hpush, hrows₀⟩ :=
    ArrayVec.push_toOption_of_lt (v := (ArrayVec.new : ArrayVec Row 128)) (by decide)
      (Row.new fde.pcBegin)
  let u₀ : Unwinder := ⟨fde, rows₀, .new⟩
  obtain ⟨row, hcie, hcie', hstart⟩ := run_setsRule fde.cie.codeAlignmentFactor Rules.initial
    (s := ⟨u₀, fde.pcBegin, Row.new fde.pcBegin⟩) (t := ⟨fde.pcBegin, .initial, [], []⟩) hcie
    (Row.rules_new fde.pcBegin)
  obtain ⟨rows₁, hset₁, hrows₁⟩ := ArrayVec.setLast_of_eq hrows₀ row
  let u₁ : Unwinder := { u₀ with rows := rows₁ }
  have hu₁ : u₀.evaluateInstructions fde.cie.initialInstructions = some u₁ := by
    rw [Unwinder.evaluateInstructions_of_run (by simp [Unwinder.lastRow, u₀, hrows₀]) hcie]
    show Option.map _ (rows₀.setLast row) = _
    rw [hset₁]
    rfl
  refine ⟨row, u₁, rfl, hrows₁, rfl, hstart, ?_, ?_⟩
  · -- the last row is written back, then given its end address
    intro s closed last hrun hrows
    obtain ⟨rows₂, hset₂, hrows₂⟩ := ArrayVec.setLast_of_eq hrows s.currentRow
    obtain ⟨rows₃, hset₃, hrows₃⟩ := ArrayVec.setLast_of_eq hrows₂
      { s.currentRow with endAddress := fde.pcBegin + fde.addressRange }
    have hu₂ : u₁.evaluateInstructions fde.instructions = some { s.unwinder with rows := rows₂ } := by
      rw [Unwinder.evaluateInstructions_of_run (by simp [Unwinder.lastRow, u₁, hrows₁]) hrun]
      simp only [Unwinder.updateLastRow, hset₂, Option.map_some]
    refine ⟨{ s.unwinder with rows := rows₃ }, ?_, hrows₃⟩
    simp only [Unwinder.new, hpush, Option.bind_eq_bind, Option.bind_some]
    rw [show (⟨fde, rows₀, .new⟩ : Unwinder) = u₀ from rfl, hu₁, Option.bind_some, hu₂,
      Option.bind_some]
    simp only [Unwinder.lastRow, hrows₂, List.getLast?_concat, Option.bind_some,
      checkedAdd_of_le hend, Unwinder.updateLastRow, hset₃, Option.map_some]
  · simp only [callFrameTable, Option.bind_eq_bind]
    rw [hcie']
    simp only [Option.bind_some]
    cases Machine.run _ _ fde.instructions <;> rfl

/-- For every FDE the unwinder handles, `Unwinder::new` does not panic and its
rows have the end addresses and the rules of the rows of the call frame table,
one for one, with start addresses no later; when the FDE has no
`DW_CFA_restore_state`, they are the table. -/
theorem new_refines_callFrameTable (fde : ParsedFDE) (hfits : Fits fde) :
    ∃ u rows, Unwinder.new fde = some u ∧ callFrameTable fde = some rows ∧
      List.Forall₂ RowAgrees u.rows.elements rows ∧
      ((∀ i ∈ fde.instructions, i ≠ .restoreState) → u.rows.elements.map Row.toTableRow = rows) := by
  -- the exact case is the one without `DW_CFA_restore_state`
  let exact := ∀ i ∈ fde.instructions, i ≠ .restoreState
  obtain ⟨row, u, hfde, hrows, hstack, hstart, hnew, htable⟩ :=
    new_around_instructions hfits.cie hfits.endAddress
  -- the FDE's instructions, against the table from where the CIE left it
  have hsim : Simulates exact fde row.rules ⟨u, fde.pcBegin, row⟩ ⟨fde.pcBegin, row.rules, [], []⟩ :=
    { fde := hfde
      address := rfl
      rules := rfl
      start_le := Nat.le_of_eq hstart
      start_eq := fun _ => hstart
      rows := ⟨[], row, hrows, .nil⟩
      first := ⟨row, by rw [hrows]; rfl, rfl⟩
      pending := fun _ => ⟨rfl, fun _ hmem => absurd hmem List.not_mem_nil⟩
      stack := by rw [hstack]; rfl
      stack_start := fun _ hmem => absurd (hstack ▸ hmem) List.not_mem_nil }
  have hbudget : Budget ⟨fde.pcBegin, row.rules, [], []⟩ fde.instructions :=
    ⟨by simp only [List.length_nil]; have := hfits.advances; omega, hfits.stack, hfits.address,
      fun _ => hfits.noEarlyOffset⟩
  obtain ⟨s', t', hrun, hrun', hsim'⟩ := hsim.run hbudget hfits.inRange fun h => h
  obtain ⟨closed, last, hrows', hclosed⟩ := hsim'.rows
  obtain ⟨u', hnew', hrows''⟩ := hnew s' closed last hrun hrows'
  refine ⟨u', t'.rows ++ [⟨t'.location, fde.pcBegin + fde.addressRange, t'.rules⟩], hnew', ?_, ?_, ?_⟩
  · rw [htable, hfits.codeAlignmentFactor, hrun']
    rfl
  · rw [hrows'']
    exact List.rel_append (hclosed.imp fun _ _ h => h.1)
      (.cons ⟨rfl, hsim'.rules, hsim'.start_le⟩ .nil)
  · intro hnone
    have hexact : List.Forall₂ (fun row ref => row.toTableRow = ref) closed t'.rows :=
      hclosed.imp fun _ _ h => RowMatches.toTableRow ⟨h.1, fun _ => h.2 hnone⟩
    rw [← List.forall₂_map_left_iff, List.forall₂_eq_eq_eq] at hexact
    rw [hrows'', List.map_append, hexact, List.map_singleton]
    simp only [Row.toTableRow, hsim'.start_eq hnone, Row.rules_addresses, hsim'.rules]

/-- A prologue's FDE: the CFA moves to `sp + 16` after two bytes, `ra` and
`s0` are saved, and after four more the CFA is `s0 + 16`. -/
theorem new_refines_callFrameTable_prologue :
    ∃ u rows, Unwinder.new ⟨⟨[], 1, -8, none, [.defCfa 2 0]⟩, 0x1000, 0x40,
        [.advanceLoc 2, .defCfaOffset 16, .offset 1 1, .offset 8 2, .advanceLoc 4, .defCfa 8 16]⟩ =
        some u ∧
      callFrameTable ⟨⟨[], 1, -8, none, [.defCfa 2 0]⟩, 0x1000, 0x40,
        [.advanceLoc 2, .defCfaOffset 16, .offset 1 1, .offset 8 2, .advanceLoc 4, .defCfa 8 16]⟩ =
        some rows ∧
      u.rows.elements.map Row.toTableRow = rows := by
  obtain ⟨u, rows, hnew, htable, -, hexact⟩ := new_refines_callFrameTable
    ⟨⟨[], 1, -8, none, [.defCfa 2 0]⟩, 0x1000, 0x40,
      [.advanceLoc 2, .defCfaOffset 16, .offset 1 1, .offset 8 2, .advanceLoc 4, .defCfa 8 16]⟩
    ⟨by decide, by decide, rfl, by decide, rfl, by decide, by decide, rfl⟩
  exact ⟨u, rows, hnew, htable, hexact (by decide)⟩

/-- `DW_CFA_restore_state` puts back the remembered row's start address.  After
`DW_CFA_remember_state; DW_CFA_advance_loc d₁; DW_CFA_restore_state;
DW_CFA_advance_loc d₂` the second row of `Unwinder::new` starts at `pc_begin`
again, where the table's second row starts at the first advance; the deltas
are also not scaled by the code alignment factor. -/
theorem restoreState_moves_row_start (fde : ParsedFDE) (d₁ d₂ : ℕ)
    (hcie : ∀ i ∈ fde.cie.initialInstructions, i.SetsRule fde.cie.dataAlignmentFactor.toInt)
    (hinstructions :
      fde.instructions = [.remeberState, .advanceLoc d₁, .restoreState, .advanceLoc d₂])
    (haddress : fde.pcBegin + d₁ + d₂ ≤ usizeMax)
    (hend : fde.pcBegin + fde.addressRange ≤ usizeMax) :
    (Unwinder.new fde).map (fun u => u.rows.elements.map Row.startAddress) =
        some [fde.pcBegin, fde.pcBegin, fde.pcBegin + d₁ + d₂] ∧
      (callFrameTable fde).map (fun rows => rows.map TableRow.startAddress) =
        some [fde.pcBegin, fde.pcBegin + d₁ * fde.cie.codeAlignmentFactor,
          fde.pcBegin + d₁ * fde.cie.codeAlignmentFactor + d₂ * fde.cie.codeAlignmentFactor] := by
  obtain ⟨row, u, -, hrows, hstack, hstart, hnew, htable⟩ := new_around_instructions hcie hend
  let s₀ : Unwinder.Evaluation := ⟨u, fde.pcBegin, row⟩
  -- `DW_CFA_remember_state` pushes the row that starts at `pc_begin`
  obtain ⟨stack₁, hpush, hstack₁⟩ :=
    ArrayVec.push_toOption_of_lt (v := u.rowStack) (by rw [hstack]; decide) row
  have h₁ : Unwinder.evaluateInstruction s₀ .remeberState =
      some { s₀ with unwinder := { u with rowStack := stack₁ } } :=
    Unwinder.evaluateInstruction_remeberState hpush
  -- `DW_CFA_advance_loc d₁` closes it and opens a row at `pc_begin + d₁`
  obtain ⟨s₂, h₂, -, hstack₂, haddress₂, -, hrows₂⟩ :=
    @Unwinder.evaluateInstruction_advanceLoc { s₀ with unwinder := { u with rowStack := stack₁ } }
      d₁ _ _ hrows (by decide) (by dsimp only [s₀]; omega)
  -- `DW_CFA_restore_state` makes the remembered row current again
  obtain ⟨stack₃, hpop, -⟩ := @ArrayVec.pop_of_eq _ _ s₂.unwinder.rowStack [] row
    (by rw [hstack₂]; show stack₁.elements = _; rw [hstack₁, hstack])
  have h₃ := Unwinder.evaluateInstruction_restoreState hpop
  have hrows₂' : s₂.unwinder.rows.elements =
      [{ row with endAddress := fde.pcBegin + d₁ }] ++ [s₂.currentRow] := by
    rw [hrows₂]
    rfl
  -- `DW_CFA_advance_loc d₂` closes the current row, which still starts at `pc_begin`
  obtain ⟨s₄, h₄, -, -, -, hrow₄, hrows₄⟩ :=
    @Unwinder.evaluateInstruction_advanceLoc ⟨{ s₂.unwinder with rowStack := stack₃ },
      s₂.currentAddress, row⟩ d₂ _ _ hrows₂' (by simp only [List.length_singleton]; omega)
      (by dsimp only [s₀] at haddress₂ ⊢; omega)
  have hrun : Machine.run Unwinder.evaluateInstruction s₀ fde.instructions = some s₄ := by
    rw [hinstructions]
    simp only [Machine.run_cons, h₁, Option.bind_some, h₂, h₃, h₄, Machine.run_nil]
  obtain ⟨u', hnew', hrows'⟩ := hnew s₄ _ _ hrun hrows₄
  dsimp only [s₀] at haddress₂
  constructor
  · rw [hnew', Option.map_some, hrows', hrow₄]
    simp only [List.map_cons, List.map_nil, hstart, haddress₂, List.nil_append, List.cons_append]
  · rw [htable, hinstructions]
    simp only [Machine.run_cons, CfiState.execute, Option.bind_some, Machine.run_nil,
      Option.map_some, List.map_cons, List.map_nil, List.nil_append, List.cons_append]

/-- The FDE `remember_state; advance_loc 4; restore_state; advance_loc 4` at
`0x1000`: the unwinder's second row starts at `0x1000`, the table's at `0x1004`. -/
theorem restoreState_moves_row_start_by_four :
    (Unwinder.new ⟨⟨[], 1, -8, none, [.defCfa 2 0]⟩, 0x1000, 0x20,
        [.remeberState, .advanceLoc 4, .restoreState, .advanceLoc 4]⟩).map
        (fun u => u.rows.elements.map Row.startAddress) = some [0x1000, 0x1000, 0x1008] ∧
      (callFrameTable ⟨⟨[], 1, -8, none, [.defCfa 2 0]⟩, 0x1000, 0x20,
        [.remeberState, .advanceLoc 4, .restoreState, .advanceLoc 4]⟩).map
        (fun rows => rows.map TableRow.startAddress) = some [0x1000, 0x1004, 0x1008] :=
  restoreState_moves_row_start _ 4 4 (by decide) rfl (by decide) (by decide)

end Solaya.EhFrame
