import Solaya.Klibc.ConsumableBuffer

/-!
# The flattened device tree

`device_tree.rs` reads the flattened device tree (FDT) that the firmware
passes at boot.  The blob starts with a header of ten big-endian `u32`s; the
structure block it points to is a stream of tokens (`FDT_BEGIN_NODE` with the
node's name, `FDT_PROP` with a length, an offset into the strings block and
the value, `FDT_END_NODE`, `FDT_NOP`, `FDT_END`), each padded to four bytes.

A `Node` is a cursor into the structure block, just after the node's
`FDT_BEGIN_NODE`: iterating it reads tokens, `get_property` scans the tokens of
the node's own properties on a clone, and `find_node` searches the node and
its descendants depth first, creating each child `Node` on a clone of the
cursor and resuming after the child's tokens when the child's search fails.

Panics (`assert!`, `expect`, `panic!`) are the outer `none` of each function;
the inner `Option` is the one the Rust function returns.  Strings are their
bytes.  The machine is little-endian, so a `BigEndian<u32>` read is the
big-endian number of its four bytes.
-/

namespace Solaya.Fdt

open ConsumableBuffer

def fdtMagic : ℕ := 0xd00dfeed
def fdtVersion : ℕ := 17
def fdtBeginNode : ℕ := 0x1
def fdtEndNode : ℕ := 0x2
def fdtProp : ℕ := 0x3
def fdtNop : ℕ := 0x4
def fdtEnd : ℕ := 0x9

/-- `"#address-cells"`. -/
def addressCellsName : List UInt8 :=
  [35, 97, 100, 100, 114, 101, 115, 115, 45, 99, 101, 108, 108, 115]

/-- `"#size-cells"`. -/
def sizeCellsName : List UInt8 := [35, 115, 105, 122, 101, 45, 99, 101, 108, 108, 115]

/-- `"reg"`. -/
def regName : List UInt8 := [114, 101, 103]

/-- `"fake_node"`. -/
def fakeNodeName : List UInt8 := [102, 97, 107, 101, 95, 110, 111, 100, 101]

/-- `name.split('@').next()`: the name up to its first `@`. -/
def namePrefix (name : List UInt8) : List UInt8 := name.takeWhile (· != 0x40)

/-! ## The blob and its header -/

/-- `DeviceTree`: the `totalsize` bytes of the blob. -/
structure DeviceTree where
  data : List UInt8
  deriving DecidableEq, Repr

namespace DeviceTree

/-- `header().totalsize.get()`; the header's fields are big-endian `u32`s at
the offsets of `#[repr(C)] struct Header`. -/
def totalsize (dt : DeviceTree) : ℕ := Bytes.readBE dt.data 4 4

/-- `header().off_dt_struct.get()`. -/
def offDtStruct (dt : DeviceTree) : ℕ := Bytes.readBE dt.data 8 4

/-- `header().off_dt_strings.get()`. -/
def offDtStrings (dt : DeviceTree) : ℕ := Bytes.readBE dt.data 12 4

/-- `header().size_dt_strings.get()`. -/
def sizeDtStrings (dt : DeviceTree) : ℕ := Bytes.readBE dt.data 32 4

/-- `header().size_dt_struct.get()`. -/
def sizeDtStruct (dt : DeviceTree) : ℕ := Bytes.readBE dt.data 36 4

/-- `DeviceTree::new` on the bytes at the pointer: the magic number and the
version are asserted, and the blob is the first `totalsize` bytes.  The
pointer's alignment and non-nullness are not modelled. -/
def new (memory : List UInt8) : Option DeviceTree :=
  if Bytes.readBE memory 0 4 ≠ fdtMagic then none
  else if Bytes.readBE memory 20 4 ≠ fdtVersion then none
  else some ⟨memory.take (Bytes.readBE memory 4 4)⟩

/-- `offset_from_header`: the offset, asserted to lie inside the blob. -/
def offsetFromHeader (dt : DeviceTree) (offset : ℕ) : Option ℕ :=
  if offset < dt.totalsize then some offset else none

/-- `get_string`: the NUL-terminated UTF-8 string at `offset` of the strings
block. -/
def getString (dt : DeviceTree) (offset : ℕ) : Option (Option (List UInt8)) := do
  let start ← dt.offsetFromHeader dt.offDtStrings
  let size := dt.sizeDtStrings
  if size ≤ offset then some none
  else
    let stringsData := (dt.data.drop start).take size
    some ((ConsumableBuffer.new (stringsData.drop offset)).consumeStr.map Prod.fst)

end DeviceTree

/-! ## Tokens -/

/-- `FdtToken`. -/
inductive FdtToken where
  | beginNode (name : List UInt8)
  | endNode
  | prop (name : List UInt8) (data : ConsumableBuffer)
  | nop
  | «end»
  deriving DecidableEq, Repr

/-- `Node`. -/
structure Node where
  name : List UInt8
  addressCells : Option ℕ
  sizeCells : Option ℕ
  parentAddressCells : Option ℕ
  parentSizeCells : Option ℕ
  deviceTree : DeviceTree
  structureBlock : ConsumableBuffer
  deriving DecidableEq, Repr

/-- What a read of the structure block can end in: a panic (`none`), or the
`Option` that `next` returns and where the cursor was left. -/
abbrev TokenResult := Option (Option FdtToken × ConsumableBuffer)

/-- `consume_sized_type::<BigEndian<u32>>()?.get()`, then the rest of `next`;
the `?` returns `None` with the cursor where it is. -/
def withU32 (b : ConsumableBuffer) (k : ℕ → ConsumableBuffer → TokenResult) : TokenResult :=
  match b.consumeBigEndian 4 with
  | none => some (none, b)
  | some (value, b) => k value b

/-- `consume_str()?`, then the rest of `next`. -/
def withStr (b : ConsumableBuffer) (k : List UInt8 → ConsumableBuffer → TokenResult) :
    TokenResult :=
  match b.consumeStr with
  | none => some (none, b)
  | some (string, b) => k string b

/-- `consume_slice(len)?`, then the rest of `next`. -/
def withSlice (len : ℕ) (b : ConsumableBuffer) (k : List UInt8 → ConsumableBuffer → TokenResult) :
    TokenResult :=
  match b.consumeSlice len with
  | none => some (none, b)
  | some (data, b) => k data b

/-- `consume_alignment(size_of::<u32>())`, whose result is ignored: a failed
alignment leaves the cursor where it is. -/
def skipAlignment (b : ConsumableBuffer) : ConsumableBuffer :=
  ((b.consumeAlignment 4).map Prod.snd).getD b

namespace Node

/-- `Iterator::next` for `Node`: the next token of the structure block. -/
def next (self : Node) : TokenResult :=
  let b := self.structureBlock
  if b.empty then some (none, b)
  else
    withU32 b fun numericTokenValue b =>
      if numericTokenValue = fdtBeginNode then
        withStr b fun name b => some (some (.beginNode name), skipAlignment b)
      else if numericTokenValue = fdtEndNode then some (some .endNode, b)
      else if numericTokenValue = fdtProp then
        withU32 b fun len b =>
          withU32 b fun stringOffset b =>
            withSlice len b fun data b =>
              let b := skipAlignment b
              match self.deviceTree.getString stringOffset with
              | none => none
              | some none => some (none, b)
              | some (some string) => some (some (.prop string (ConsumableBuffer.new data)), b)
      else if numericTokenValue = fdtNop then some (some .nop, b)
      else if numericTokenValue = fdtEnd then
        -- `assert!(self.structure_block.empty())`
        if b.empty then some (some .end, b) else none
      -- `panic!("Unknown token: {:#x}")`
      else none

/-! ### Every token moves the cursor forward -/

theorem advances_skipAlignment (b : ConsumableBuffer) : Advances b (skipAlignment b) := by
  unfold skipAlignment consumeAlignment
  dsimp only
  cases h : b.consumeSlice (alignUp b.position 4 - b.position) with
  | none => exact Advances.refl b
  | some r =>
    obtain ⟨hbuf, hpos, -⟩ := consumeSlice_eq_some h
    simp only [Option.map_some, Option.getD_some]
    exact ⟨hbuf, by omega⟩

theorem advances_of_consumeBigEndian {b b' : ConsumableBuffer} {size value : ℕ}
    (h : b.consumeBigEndian size = some (value, b')) :
    b'.buffer = b.buffer ∧ b'.position = b.position + size := by
  unfold consumeBigEndian at h
  obtain ⟨⟨slice, b₁⟩, hslice, hpair⟩ := Option.map_eq_some_iff.mp h
  cases hpair
  exact ⟨(consumeSlice_eq_some hslice).1, (consumeSlice_eq_some hslice).2.1⟩

/-- A parse that leaves the cursor no further back than it found it. -/
def Forward (p : ConsumableBuffer → TokenResult) : Prop :=
  ∀ b r b', p b = some (r, b') → Advances b b'

theorem forward_withU32 {k : ℕ → ConsumableBuffer → TokenResult}
    (hk : ∀ v, Forward (k v)) : Forward fun b => withU32 b k := by
  intro b r b' h
  dsimp only [withU32] at h
  split at h
  · cases h
    exact Advances.refl b
  · rename_i value b₁ hread
    obtain ⟨hbuf, hpos⟩ := advances_of_consumeBigEndian hread
    exact Advances.trans ⟨hbuf, by omega⟩ (hk _ _ _ _ h)

theorem forward_withStr {k : List UInt8 → ConsumableBuffer → TokenResult}
    (hk : ∀ v, Forward (k v)) : Forward fun b => withStr b k := by
  intro b r b' h
  dsimp only [withStr] at h
  split at h
  · cases h
    exact Advances.refl b
  · rename_i string b₁ hread
    refine Advances.trans ?_ (hk _ _ _ _ h)
    unfold consumeStr at hread
    dsimp only at hread
    split_ifs at hread
    cases hread
    exact ⟨rfl, by simp only; omega⟩

theorem forward_withSlice {len : ℕ} {k : List UInt8 → ConsumableBuffer → TokenResult}
    (hk : ∀ v, Forward (k v)) : Forward fun b => withSlice len b k := by
  intro b r b' h
  dsimp only [withSlice] at h
  split at h
  · cases h
    exact Advances.refl b
  · rename_i data b₁ hread
    obtain ⟨hbuf, hpos, -⟩ := consumeSlice_eq_some hread
    exact Advances.trans ⟨hbuf, by omega⟩ (hk _ _ _ _ h)

theorem forward_ite {c : Prop} [Decidable c] {p q : ConsumableBuffer → TokenResult}
    (hp : Forward p) (hq : Forward q) : Forward fun b => if c then p b else q b := by
  intro b r b' h
  by_cases hc : c
  · exact hp b r b' (by simpa only [if_pos hc] using h)
  · exact hq b r b' (by simpa only [if_neg hc] using h)

theorem forward_done (r : Option FdtToken) : Forward fun b => some (r, b) := by
  intro b r' b' h
  cases h
  exact Advances.refl b

theorem forward_panic : Forward fun _ => none := by
  intro b r b' h
  cases h

/-- What follows the `FDT_PROP` header: the string lookup after the aligned
value. -/
theorem forward_getString (dt : DeviceTree) (stringOffset : ℕ) (data : List UInt8) :
    Forward fun b =>
      match dt.getString stringOffset with
      | none => none
      | some none => some (none, skipAlignment b)
      | some (some string) => some (some (.prop string (ConsumableBuffer.new data)), skipAlignment b) := by
  intro b r b' h
  split at h
  · cases h
  · cases h
    exact advances_skipAlignment b
  · cases h
    exact advances_skipAlignment b

/-- The token `next` reads after the four bytes of its number. -/
theorem forward_token (self : Node) (numericTokenValue : ℕ) :
    Forward fun b =>
      if numericTokenValue = fdtBeginNode then
        withStr b fun name b => some (some (.beginNode name), skipAlignment b)
      else if numericTokenValue = fdtEndNode then some (some .endNode, b)
      else if numericTokenValue = fdtProp then
        withU32 b fun len b =>
          withU32 b fun stringOffset b =>
            withSlice len b fun data b =>
              match self.deviceTree.getString stringOffset with
              | none => none
              | some none => some (none, skipAlignment b)
              | some (some string) =>
                some (some (.prop string (ConsumableBuffer.new data)), skipAlignment b)
      else if numericTokenValue = fdtNop then some (some .nop, b)
      else if numericTokenValue = fdtEnd then
        if b.empty then some (some .end, b) else none
      else none := by
  repeat' apply forward_ite
  · exact forward_withStr fun _ b r b' h => by
      cases h
      exact advances_skipAlignment b
  · exact forward_done _
  · exact forward_withU32 fun _ => forward_withU32 fun _ => forward_withSlice fun data =>
      forward_getString self.deviceTree _ data
  · exact forward_done _
  · intro b r b' h
    dsimp only at h
    split_ifs at h
    cases h
    exact Advances.refl b
  · exact forward_panic

/-- `next` never moves the cursor back, and a token takes at least its four
bytes from a cursor that was not at the end. -/
theorem next_advances {self : Node} {token : Option FdtToken} {b : ConsumableBuffer}
    (h : self.next = some (token, b)) :
    Advances self.structureBlock b ∧
      (token.isSome → self.structureBlock.position < b.position ∧
        self.structureBlock.position < self.structureBlock.buffer.length) := by
  unfold next at h
  dsimp only at h
  split_ifs at h with hempty
  · cases h
    exact ⟨Advances.refl _, fun hsome => by cases hsome⟩
  · dsimp only [withU32] at h
    split at h
    · cases h
      exact ⟨Advances.refl _, fun hsome => by cases hsome⟩
    · rename_i value b₁ hread
      obtain ⟨hbuf, hpos⟩ := advances_of_consumeBigEndian hread
      obtain ⟨hbuf', hpos'⟩ := forward_token self value b₁ _ b h
      simp only [empty, decide_eq_true_eq] at hempty
      exact ⟨⟨hbuf'.trans hbuf, by omega⟩, fun _ => ⟨by omega, by omega⟩⟩

/-- The bytes left after the cursor, which every token makes fewer. -/
def remaining (self : Node) : ℕ :=
  self.structureBlock.buffer.length - self.structureBlock.position

theorem remaining_lt_of_next {self : Node} {token : FdtToken} {b : ConsumableBuffer}
    (h : self.next = some (some token, b)) :
    b.buffer.length - b.position < remaining self := by
  obtain ⟨⟨hbuf, -⟩, hlt⟩ := next_advances h
  obtain ⟨hpos, hlen⟩ := hlt rfl
  unfold remaining
  rw [hbuf]
  omega

/-! ## `get_property` -/

-- `h` is used only by `decreasing_by`, which the linter does not see
set_option linter.unusedVariables false in
/-- `get_property`: the `for token in self` loop over a clone of the node,
which returns the value of the first property of the name among the node's
own properties and stops at any token that is not a property or a `NOP`. -/
def getProperty (self : Node) (name : List UInt8) : Option (Option ConsumableBuffer) :=
  match h : self.next with
  | none => none
  | some (none, _) => some none
  | some (some (.prop propName data), b) =>
    if propName = name then some (some data)
    else getProperty { self with structureBlock := b } name
  | some (some .nop, b) => getProperty { self with structureBlock := b } name
  | some (some _, _) => some none
termination_by remaining self
decreasing_by
  all_goals exact remaining_lt_of_next h

/-- A token that ends the node's own properties. -/
def EndsProperties : FdtToken → Prop
  | .beginNode _ => True
  | .endNode => True
  | _ => False

theorem getProperty_of_next_prop {self : Node} {name propName : List UInt8}
    {data b : ConsumableBuffer} (h : self.next = some (some (.prop propName data), b)) :
    self.getProperty name =
      if propName = name then some (some data) else { self with structureBlock := b }.getProperty name := by
  rw [getProperty]
  split <;> rename_i heq <;> rw [h] at heq <;> cases heq
  -- the catch-all branch excludes a property
  all_goals first | rfl | simp_all

theorem getProperty_of_next_ends {self : Node} {name : List UInt8} {token : FdtToken}
    {b : ConsumableBuffer} (h : self.next = some (some token, b)) (hends : EndsProperties token) :
    self.getProperty name = some none := by
  rw [getProperty]
  split <;> rename_i heq <;> rw [h] at heq <;> cases heq
  -- a property or a `NOP` would not end the properties
  all_goals first | rfl | exact absurd hends (by simp [EndsProperties])

/-- `Node::new`: the node at the cursor, with its own `#address-cells` and
`#size-cells` read from its properties. -/
def new (name : List UInt8) (deviceTree : DeviceTree) (structureBlock : ConsumableBuffer) :
    Option Node := do
  let self : Node := ⟨name, none, none, none, none, deviceTree, structureBlock⟩
  let addressCells ← self.getProperty addressCellsName
  let sizeCells ← self.getProperty sizeCellsName
  some { self with
    addressCells := addressCells.bind fun b => (b.consumeBigEndian 4).map Prod.fst
    sizeCells := sizeCells.bind fun b => (b.consumeBigEndian 4).map Prod.fst }

theorem new_eq_some {name : List UInt8} {deviceTree : DeviceTree} {structureBlock : ConsumableBuffer}
    {node : Node} (h : new name deviceTree structureBlock = some node) :
    node.name = name ∧ node.deviceTree = deviceTree ∧ node.structureBlock = structureBlock := by
  simp only [new, Option.bind_eq_bind] at h
  obtain ⟨addressCells, -, h⟩ := Option.bind_eq_some_iff.mp h
  obtain ⟨sizeCells, -, h⟩ := Option.bind_eq_some_iff.mp h
  cases h
  exact ⟨rfl, rfl, rfl⟩

/-! ## `find_node` -/

/-- What `find_node_recursive` leaves: the node it returns, if any, and the
cursor of the `&mut self` it searched with, which never moves back from
`start`. -/
structure Found (start : ConsumableBuffer) where
  result : Option Node
  structureBlock : ConsumableBuffer
  advances : Advances start structureBlock

/-- A search result seen from an earlier cursor. -/
def Found.widen {start start' : ConsumableBuffer} (h : Advances start start') (f : Found start') :
    Found start :=
  ⟨f.result, f.structureBlock, h.trans f.advances⟩

/-- What the caller sees of a search: its result and the cursor. -/
def Found.val {start : ConsumableBuffer} (f : Found start) : Option Node × ConsumableBuffer :=
  (f.result, f.structureBlock)

/-- `if prop == name { cell = Some(data.consume_sized_type::<BigEndian<u32>>()?.get()) }`:
the cell count after a property, or `none` for the `?`. -/
def readCells (prop name : List UInt8) (data : ConsumableBuffer) (cell : Option ℕ) :
    Option (Option ℕ) :=
  if prop = name then (data.consumeBigEndian 4).map fun r => some r.1 else some cell

mutual

/-- `find_node_recursive`: the node itself when its name up to `@` is the
needle, otherwise the search of its tokens. -/
def findNodeRecursive (needle : List UInt8) (self : Node) : Option (Found self.structureBlock) :=
  if namePrefix self.name = needle then some ⟨some self, self.structureBlock, Advances.refl _⟩
  else findNodeLoop needle self none none
termination_by (remaining self, 1)

/-- The `while let Some(token) = self.next()` loop of `find_node_recursive`,
with the cell counts of the properties seen so far. -/
def findNodeLoop (needle : List UInt8) (self : Node) (parentAddressCell parentSizeCell : Option ℕ) :
    Option (Found self.structureBlock) :=
  match h : self.next with
  | none => none
  | some (none, b) => some ⟨none, b, (next_advances h).1⟩
  | some (some (.beginNode nodeName), b) =>
    match hnode : new nodeName self.deviceTree b with
    | none => none
    | some node =>
      match findNodeRecursive needle
          { node with parentAddressCells := parentAddressCell, parentSizeCells := parentSizeCell } with
      | none => none
      | some ⟨some targetNode, _, _⟩ => some ⟨some targetNode, b, (next_advances h).1⟩
      | some ⟨none, b', hb'⟩ =>
        -- `self.structure_block = node.structure_block`: go on after the child
        (findNodeLoop needle { self with structureBlock := b' } parentAddressCell parentSizeCell).map
          (Found.widen ((next_advances h).1.trans (by rwa [← (new_eq_some hnode).2.2])))
  | some (some (.prop prop data), b) =>
    -- the two names differ, so at most one of the reads happens
    match readCells prop addressCellsName data parentAddressCell with
    | none => some ⟨none, b, (next_advances h).1⟩
    | some parentAddressCell =>
      match readCells prop sizeCellsName data parentSizeCell with
      | none => some ⟨none, b, (next_advances h).1⟩
      | some parentSizeCell =>
        (findNodeLoop needle { self with structureBlock := b } parentAddressCell parentSizeCell).map
          (Found.widen (next_advances h).1)
  | some (some .nop, b) =>
    (findNodeLoop needle { self with structureBlock := b } parentAddressCell parentSizeCell).map
      (Found.widen (next_advances h).1)
  | some (some .endNode, b) => some ⟨none, b, (next_advances h).1⟩
  | some (some .end, b) => some ⟨none, b, (next_advances h).1⟩
termination_by (remaining self, 0)
decreasing_by
  · -- the child starts where the token ended
    refine Prod.Lex.left _ _ ?_
    have := remaining_lt_of_next h
    simp only [remaining, (new_eq_some hnode).2.2]
    exact this
  · -- the child's search only moved its cursor forward
    refine Prod.Lex.left _ _ ?_
    have hlt := remaining_lt_of_next h
    obtain ⟨-, -, hstart⟩ := new_eq_some hnode
    obtain ⟨hbuf, hpos⟩ := hb'
    dsimp only at hbuf hpos
    rw [hstart] at hbuf hpos
    show b'.buffer.length - b'.position < remaining self
    rw [hbuf]
    omega
  all_goals exact Prod.Lex.left _ _ (remaining_lt_of_next h)

end

@[simp]
theorem Found.val_widen {start start' : ConsumableBuffer} (h : Advances start start')
    (f : Found start') : (f.widen h).val = f.val := rfl

/-! ### One lemma for each token the search reads -/

section Steps

variable {needle : List UInt8} {self : Node} {parentAddressCell parentSizeCell : Option ℕ}
  {b : ConsumableBuffer}

theorem findNodeRecursive_of_namePrefix (h : namePrefix self.name = needle) :
    (findNodeRecursive needle self).map Found.val = some (some self, self.structureBlock) := by
  rw [findNodeRecursive, if_pos h]
  rfl

theorem findNodeRecursive_of_namePrefix_ne (h : namePrefix self.name ≠ needle) :
    (findNodeRecursive needle self).map Found.val = (findNodeLoop needle self none none).map Found.val := by
  rw [findNodeRecursive, if_neg h]

theorem findNodeLoop_of_next_none (h : self.next = some (none, b)) :
    (findNodeLoop needle self parentAddressCell parentSizeCell).map Found.val = some (none, b) := by
  rw [findNodeLoop]
  split <;> rename_i heq <;> rw [h] at heq <;> cases heq
  rfl

theorem findNodeLoop_of_next_endNode (h : self.next = some (some .endNode, b)) :
    (findNodeLoop needle self parentAddressCell parentSizeCell).map Found.val = some (none, b) := by
  rw [findNodeLoop]
  split <;> rename_i heq <;> rw [h] at heq <;> cases heq
  rfl

theorem findNodeLoop_of_next_prop {prop : List UInt8} {data : ConsumableBuffer}
    {parentAddressCell' parentSizeCell' : Option ℕ}
    (h : self.next = some (some (.prop prop data), b))
    (haddress : readCells prop addressCellsName data parentAddressCell = some parentAddressCell')
    (hsize : readCells prop sizeCellsName data parentSizeCell = some parentSizeCell') :
    (findNodeLoop needle self parentAddressCell parentSizeCell).map Found.val =
      (findNodeLoop needle { self with structureBlock := b } parentAddressCell' parentSizeCell').map
        Found.val := by
  rw [findNodeLoop]
  split <;> rename_i heq <;> rw [h] at heq <;> cases heq
  simp only [haddress, hsize, Option.map_map, Function.comp_def, Found.val_widen]

/-- The `?` on a cell count that does not hold four bytes ends the search. -/
theorem findNodeLoop_of_next_prop_short {prop : List UInt8} {data : ConsumableBuffer}
    (h : self.next = some (some (.prop prop data), b))
    (haddress : readCells prop addressCellsName data parentAddressCell = none) :
    (findNodeLoop needle self parentAddressCell parentSizeCell).map Found.val = some (none, b) := by
  rw [findNodeLoop]
  split <;> rename_i heq <;> rw [h] at heq <;> cases heq
  simp only [haddress]
  rfl

/-- A child: its search, and the rest of the loop after it when it finds
nothing. -/
theorem findNodeLoop_of_next_beginNode {nodeName : List UInt8} {node : Node}
    (h : self.next = some (some (.beginNode nodeName), b))
    (hnode : new nodeName self.deviceTree b = some node) :
    (findNodeLoop needle self parentAddressCell parentSizeCell).map Found.val =
      match (findNodeRecursive needle
          { node with parentAddressCells := parentAddressCell,
                      parentSizeCells := parentSizeCell }).map Found.val with
      | none => none
      | some (some targetNode, _) => some (some targetNode, b)
      | some (none, b') =>
        (findNodeLoop needle { self with structureBlock := b' } parentAddressCell parentSizeCell).map
          Found.val := by
  rw [findNodeLoop]
  split <;> rename_i heq <;> rw [h] at heq <;> cases heq
  split <;> rename_i heq' <;> rw [hnode] at heq' <;> cases heq'
  -- the child's search, by what it returns
  cases findNodeRecursive needle
      { node with parentAddressCells := parentAddressCell, parentSizeCells := parentSizeCell } with
  | none => rfl
  | some f =>
    obtain ⟨result, b', hb'⟩ := f
    cases result with
    | none =>
      simp only [Option.map_some, Option.map_map]
      rfl
    | some targetNode => rfl

end Steps

/-- `find_node`: the search on a clone of the node. -/
def findNode (self : Node) (needle : List UInt8) : Option (Option Node) :=
  (findNodeRecursive needle self).map Found.result

theorem findNode_eq (self : Node) (needle : List UInt8) :
    self.findNode needle = ((findNodeRecursive needle self).map Found.val).map Prod.fst := by
  rw [findNode, Option.map_map]
  rfl

end Node

/-- `DeviceTree::root_node`: the structure block as a buffer, a fake node at
its start, and the node with the empty name found from there; `none` also for
the `expect`. -/
def DeviceTree.rootNode (dt : DeviceTree) : Option Node := do
  let start ← dt.offsetFromHeader dt.offDtStruct
  let data := (dt.data.drop start).take dt.sizeDtStruct
  let structureBlock := ConsumableBuffer.new data
  let fakeNode ← Node.new fakeNodeName dt structureBlock
  let root ← fakeNode.findNode []
  root

/-- `Reg`. -/
structure Reg where
  address : ℕ
  size : ℕ
  deriving DecidableEq, Repr

/-- One number of the `reg` property, of as many cells as the parent says: one
cell is a `u32`, two a `u64`; more panic. -/
def readRegCells (cells : ℕ) (b : ConsumableBuffer) : Option (Option (ℕ × ConsumableBuffer)) :=
  if cells = 1 then some (b.consumeBigEndian 4)
  else if cells = 2 then some (b.consumeBigEndian 8)
  else none

/-- `parse_reg_property`: the address and the size of the `reg` property, in
the parent's cells. -/
def Node.parseRegProperty (self : Node) : Option (Option Reg) := do
  let regProperty ← self.getProperty regName
  match regProperty, self.parentAddressCells with
  | some regProperty, some addressCells =>
    match ← readRegCells addressCells regProperty with
    | none => some none
    | some (address, regProperty) =>
      match self.parentSizeCells with
      | none => some none
      | some sizeCells =>
        match ← readRegCells sizeCells regProperty with
        | none => some none
        | some (size, _) => some (some ⟨address, size⟩)
  | _, _ => some none

end Solaya.Fdt
