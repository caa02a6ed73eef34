import Solaya.DeviceTree.Flattened

/-!
# `find_node` on a flattened tree

Run on the structure block of a tree, `find_node_recursive` is a depth-first
search: at a node that does not match it reads the node's properties, keeping
the last `#address-cells` and `#size-cells` it sees for the children, then
searches each child on a clone of the cursor and resumes after the child's
`FDT_END_NODE`.  The main lemma says so for every tree at once, by induction
on the tree and its list of children: from the start of a node's properties
the search returns the node of the first match of `Tree.preorder`, with the
cell counts of its parent, or returns nothing with the cursor just past the
node's `FDT_END_NODE`.

Two conditions on the cell counts are needed besides the bytes being
readable: each value must hold four bytes, since the loop's `?` on a shorter
one ends the whole search, and each name must occur at most once in a node,
since the loop keeps the last value where `get_property` returns the first.
-/

namespace Solaya.Fdt

open ConsumableBuffer Node

/-- What the search needs of a node's cell counts: values of four bytes or
more, and at most one property of each name. -/
structure CellCounts (t : Tree) : Prop where
  length : ∀ prop ∈ t.properties,
    prop.name = addressCellsName ∨ prop.name = sizeCellsName → 4 ≤ prop.value.length
  addressCellsOnce : t.properties.countP (·.name == addressCellsName) ≤ 1
  sizeCellsOnce : t.properties.countP (·.name == sizeCellsName) ≤ 1

instance (t : Tree) : Decidable (CellCounts t) :=
  decidable_of_iff
    ((∀ prop ∈ t.properties,
      prop.name = addressCellsName ∨ prop.name = sizeCellsName → 4 ≤ prop.value.length) ∧
      t.properties.countP (·.name == addressCellsName) ≤ 1 ∧
      t.properties.countP (·.name == sizeCellsName) ≤ 1)
    ⟨fun ⟨h₁, h₂, h₃⟩ => ⟨h₁, h₂, h₃⟩, fun ⟨h₁, h₂, h₃⟩ => ⟨h₁, h₂, h₃⟩⟩

/-- `node` is what the parser makes of `t` under a parent with the cell
counts `parentAddressCells` and `parentSizeCells`: its name, its own and its
parent's cell counts, and `get_property` giving its own properties. -/
structure Represents (dt : DeviceTree) (node : Node) (t : Tree)
    (parentAddressCells parentSizeCells : Option ℕ) : Prop where
  name : node.name = t.name
  addressCells : node.addressCells = cells t.properties addressCellsName
  sizeCells : node.sizeCells = cells t.properties sizeCellsName
  parentAddressCells : node.parentAddressCells = parentAddressCells
  parentSizeCells : node.parentSizeCells = parentSizeCells
  deviceTree : node.deviceTree = dt
  getProperty : ∀ name, node.getProperty name = some ((property t.properties name).map ConsumableBuffer.new)

/-- Whether a node of the pre-order is the one `find_node` looks for. -/
def matchesNeedle (needle : List UInt8) (e : Tree × Option ℕ × Option ℕ) : Bool :=
  namePrefix e.1.name == needle

/-- What a search from a node's tokens gives back, against the first match
`entry` of the pre-order: that node, or nothing with the cursor at `after`. -/
def Finds (dt : DeviceTree) (entry : Option (Tree × Option ℕ × Option ℕ)) (after : ConsumableBuffer) :
    Option (Option Node × ConsumableBuffer) → Prop
  | some (some node, _) => ∃ t parentAddressCells parentSizeCells,
      entry = some (t, parentAddressCells, parentSizeCells) ∧
        Represents dt node t parentAddressCells parentSizeCells
  | some (none, b) => entry = none ∧ b = after
  | none => False

/-! ## The pre-order -/

namespace Tree

@[simp]
theorem preorder_node (name : List UInt8) (properties : List Property) (children : List Tree)
    (parentAddressCells parentSizeCells : Option ℕ) :
    (node name properties children).preorder parentAddressCells parentSizeCells =
      (node name properties children, parentAddressCells, parentSizeCells) ::
        preorderForest children (cells properties addressCellsName) (cells properties sizeCellsName) := by
  rw [preorder]

@[simp]
theorem preorderForest_nil (parentAddressCells parentSizeCells : Option ℕ) :
    preorderForest [] parentAddressCells parentSizeCells = [] := by
  rw [preorderForest]

@[simp]
theorem preorderForest_cons (t : Tree) (ts : List Tree) (parentAddressCells parentSizeCells : Option ℕ) :
    preorderForest (t :: ts) parentAddressCells parentSizeCells =
      t.preorder parentAddressCells parentSizeCells ++
        preorderForest ts parentAddressCells parentSizeCells := by
  rw [preorderForest]

theorem mem_preorder_self (t : Tree) (parentAddressCells parentSizeCells : Option ℕ) :
    (t, parentAddressCells, parentSizeCells) ∈ t.preorder parentAddressCells parentSizeCells := by
  cases t
  simp

/-- The first child is among the nodes of a node's children. -/
theorem mem_preorderForest_of_head {children : List Tree} {c : Tree} (hc : c ∈ children.head?)
    (parentAddressCells parentSizeCells : Option ℕ) :
    (c, parentAddressCells, parentSizeCells) ∈
      preorderForest children parentAddressCells parentSizeCells := by
  cases children with
  | nil => cases hc
  | cons c' cs =>
    cases hc
    simp [mem_preorder_self]

/-- The first child is a node of the pre-order, under its parent's cell
counts. -/
theorem mem_preorder_of_head {t c : Tree} (hc : c ∈ t.children.head?)
    (parentAddressCells parentSizeCells : Option ℕ) :
    (c, cells t.properties addressCellsName, cells t.properties sizeCellsName) ∈
      t.preorder parentAddressCells parentSizeCells := by
  obtain ⟨name, properties, children⟩ := t
  rw [preorder_node]
  exact List.mem_cons_of_mem _ (mem_preorderForest_of_head hc _ _)

end Tree

/-! ## The loop over a node's properties -/

/-- The cell count the loop holds after `properties`, from `cell`: the value
of the last property of the name. -/
def cellsAfter (properties : List Property) (name : List UInt8) (cell : Option ℕ) : Option ℕ :=
  properties.foldl
    (fun cell prop => if prop.name = name then some (Bytes.decodeBE (prop.value.take 4)) else cell) cell

theorem cellsAfter_of_countP_eq_zero {properties : List Property} {name : List UInt8}
    (h : properties.countP (·.name == name) = 0) (cell : Option ℕ) :
    cellsAfter properties name cell = cell := by
  induction properties generalizing cell with
  | nil => rfl
  | cons prop properties ih =>
    rw [List.countP_cons] at h
    have hne : prop.name ≠ name := by
      intro heq
      simp [heq] at h
    simp only [cellsAfter, List.foldl_cons, if_neg hne]
    exact ih (by omega) cell

/-- With at most one property of the name, holding four bytes or more, the
last value the loop keeps is the first one `cells` reads. -/
theorem cellsAfter_none {properties : List Property} {name : List UInt8}
    (hlength : ∀ prop ∈ properties, prop.name = name → 4 ≤ prop.value.length)
    (honce : properties.countP (·.name == name) ≤ 1) :
    cellsAfter properties name none = cells properties name := by
  induction properties with
  | nil => rfl
  | cons prop properties ih =>
    rw [List.countP_cons] at honce
    by_cases hname : prop.name = name
    · have hzero : properties.countP (·.name == name) = 0 := by
        simp only [hname, beq_self_eq_true, if_true] at honce
        omega
      have hfour := hlength prop List.mem_cons_self hname
      simp only [cellsAfter, List.foldl_cons, if_pos hname]
      rw [← cellsAfter, cellsAfter_of_countP_eq_zero hzero]
      simp [cells, property, hname, hfour]
    · have hih := ih (fun q hq => hlength q (List.mem_cons_of_mem _ hq)) (by
        simp only [beq_iff_eq, hname, if_false] at honce
        omega)
      simp only [cellsAfter, List.foldl_cons, if_neg hname]
      rw [← cellsAfter, hih]
      simp [cells, property, hname]

/-- `readCells` on a property whose cell count, if it is one, holds four
bytes. -/
theorem readCells_prop {prop : Property} {name : List UInt8} (cell : Option ℕ)
    (hlength : prop.name = name → 4 ≤ prop.value.length) :
    readCells prop.name name (ConsumableBuffer.new prop.value) cell =
      some (if prop.name = name then some (Bytes.decodeBE (prop.value.take 4)) else cell) := by
  by_cases hname : prop.name = name
  · simp [readCells, hname, consumeBigEndian_new, hlength hname]
  · simp [readCells, hname]

section Search

variable {dt : DeviceTree} {offsets : List UInt8 → ℕ} {B : List UInt8} (needle : List UInt8)

/-- The loop reads past a node's properties, keeping their cell counts. -/
theorem findNodeLoop_properties (properties : List Property) {self : Node} {p : ℕ} {more : List UInt8}
    {parentAddressCell parentSizeCell : Option ℕ} (hsb : self.structureBlock = ⟨B, p⟩)
    (hrest : B.drop p = properties.flatMap (propBytes offsets) ++ more) (haligned : p % 4 = 0)
    (hprops : ∀ prop ∈ properties, prop.value.length < 2 ^ 32 ∧ offsets prop.name < 2 ^ 32 ∧
      self.deviceTree.getString (offsets prop.name) = some (some prop.name))
    (hlength : ∀ prop ∈ properties,
      prop.name = addressCellsName ∨ prop.name = sizeCellsName → 4 ≤ prop.value.length) :
    (findNodeLoop needle self parentAddressCell parentSizeCell).map Found.val =
      (findNodeLoop needle
        { self with structureBlock := ⟨B, p + (properties.flatMap (propBytes offsets)).length⟩ }
        (cellsAfter properties addressCellsName parentAddressCell)
        (cellsAfter properties sizeCellsName parentSizeCell)).map Found.val := by
  induction properties generalizing self p parentAddressCell parentSizeCell with
  | nil =>
    obtain ⟨name, addressCells, sizeCells, pac, psc, deviceTree, structureBlock⟩ := self
    cases hsb
    rfl
  | cons prop properties ih =>
    obtain ⟨hvalue, hoffset, hstring⟩ := hprops prop List.mem_cons_self
    have hfour := hlength prop List.mem_cons_self
    rw [List.flatMap_cons, List.append_assoc] at hrest
    rw [findNodeLoop_of_next_prop (next_propBytes hsb hrest haligned hvalue hoffset hstring)
      (readCells_prop parentAddressCell fun h => hfour (.inl h))
      (readCells_prop parentSizeCell fun h => hfour (.inr h))]
    -- the rest of the properties, from after this one
    have haligned' : (p + (propBytes offsets prop).length) % 4 = 0 := by
      have := length_propBytes_mod offsets prop
      omega
    have hsb' : ({ self with structureBlock := ⟨B, p + (propBytes offsets prop).length⟩ } :
        Node).structureBlock = ⟨B, p + (propBytes offsets prop).length⟩ := rfl
    rw [ih hsb' (drop_skip hrest) haligned' (fun q hq => hprops q (List.mem_cons_of_mem _ hq))
      (fun q hq => hlength q (List.mem_cons_of_mem _ hq))]
    rw [List.flatMap_cons, List.length_append, ← Nat.add_assoc]
    simp only [cellsAfter, List.foldl_cons]

mutual

/-- From the start of a node's properties, the search finds the first match
of the node's pre-order, or nothing with the cursor past its `FDT_END_NODE`. -/
theorem findNodeRecursive_body (t : Tree) {node : Node} {p : ℕ} {more : List UInt8}
    {parentAddressCells parentSizeCells : Option ℕ}
    (hnode : Represents dt node t parentAddressCells parentSizeCells)
    (hsb : node.structureBlock = ⟨B, p⟩) (hrest : B.drop p = t.body offsets ++ more)
    (haligned : p % 4 = 0)
    (hwf : ∀ e ∈ t.preorder parentAddressCells parentSizeCells,
      Readable dt offsets e.1 ∧ CellCounts e.1) :
    Finds dt ((t.preorder parentAddressCells parentSizeCells).find? (matchesNeedle needle))
      ⟨B, p + (t.body offsets).length⟩ ((findNodeRecursive needle node).map Found.val) := by
  obtain ⟨name, properties, children⟩ := t
  by_cases hmatch : namePrefix name = needle
  · -- the node itself
    rw [findNodeRecursive_of_namePrefix (by rw [hnode.name]; exact hmatch)]
    exact ⟨_, _, _, by simp [matchesNeedle, Tree.name, hmatch], hnode⟩
  · -- its properties, then its children with its own cell counts
    obtain ⟨hreadable, hcells⟩ := hwf _ (Tree.mem_preorder_self _ _ _)
    have hlengths : ∀ q ∈ properties,
        q.name = addressCellsName ∨ q.name = sizeCellsName → 4 ≤ q.value.length := hcells.length
    have haddressOnce : properties.countP (·.name == addressCellsName) ≤ 1 :=
      hcells.addressCellsOnce
    have hsizeOnce : properties.countP (·.name == sizeCellsName) ≤ 1 := hcells.sizeCellsOnce
    have hrest' : B.drop p = properties.flatMap (propBytes offsets) ++
        (Tree.encodeForest offsets children ++ endNodeBytes ++ more) := by
      rw [hrest, Tree.body]
      simp only [Tree.properties, Tree.children, List.append_assoc]
    rw [findNodeRecursive_of_namePrefix_ne (by rw [hnode.name]; exact hmatch),
      findNodeLoop_properties needle properties hsb hrest' haligned
        (by rw [hnode.deviceTree]; exact hreadable.properties) hlengths,
      cellsAfter_none (fun q hq h => hlengths q hq (.inl h)) haddressOnce,
      cellsAfter_none (fun q hq h => hlengths q hq (.inr h)) hsizeOnce]
    have hfind : ((Tree.node name properties children).preorder parentAddressCells
        parentSizeCells).find? (matchesNeedle needle) =
        (Tree.preorderForest children (cells properties addressCellsName)
          (cells properties sizeCellsName)).find? (matchesNeedle needle) := by
      simp [matchesNeedle, Tree.name, hmatch]
    have hlength : p + (Tree.body offsets (.node name properties children)).length =
        p + (properties.flatMap (propBytes offsets)).length +
          (Tree.encodeForest offsets children ++ endNodeBytes).length := by
      simp only [Tree.body, Tree.properties, Tree.children, List.length_append, Nat.add_assoc]
    rw [hfind, hlength]
    exact findNodeLoop_forest children (by rw [hnode.deviceTree]) rfl (drop_skip hrest')
      (by have := length_flatMap_propBytes_mod offsets properties; omega)
      fun e he => hwf e (by simp [he])

/-- From the start of a node's children, the loop finds the first match among
them, or nothing with the cursor past the node's `FDT_END_NODE`. -/
theorem findNodeLoop_forest (children : List Tree) {self : Node} {p : ℕ} {more : List UInt8}
    {parentAddressCells parentSizeCells : Option ℕ} (hdt : self.deviceTree = dt)
    (hsb : self.structureBlock = ⟨B, p⟩)
    (hrest : B.drop p = Tree.encodeForest offsets children ++ endNodeBytes ++ more)
    (haligned : p % 4 = 0)
    (hwf : ∀ e ∈ Tree.preorderForest children parentAddressCells parentSizeCells,
      Readable dt offsets e.1 ∧ CellCounts e.1) :
    Finds dt ((Tree.preorderForest children parentAddressCells parentSizeCells).find?
        (matchesNeedle needle))
      ⟨B, p + (Tree.encodeForest offsets children ++ endNodeBytes).length⟩
      ((findNodeLoop needle self parentAddressCells parentSizeCells).map Found.val) := by
  match children with
  | [] =>
    -- the node's `FDT_END_NODE`
    rw [findNodeLoop_of_next_endNode (next_endNodeBytes hsb hrest)]
    exact ⟨by simp, by simp [Tree.encodeForest, endNodeBytes]⟩
  | c :: cs =>
    have hwfc : ∀ e ∈ c.preorder parentAddressCells parentSizeCells,
        Readable dt offsets e.1 ∧ CellCounts e.1 := fun e he =>
      hwf e (by rw [Tree.preorderForest_cons]; exact List.mem_append_left _ he)
    have hwfcs : ∀ e ∈ Tree.preorderForest cs parentAddressCells parentSizeCells,
        Readable dt offsets e.1 ∧ CellCounts e.1 := fun e he =>
      hwf e (by rw [Tree.preorderForest_cons]; exact List.mem_append_right _ he)
    obtain ⟨hreadable, -⟩ := hwfc (c, parentAddressCells, parentSizeCells) (Tree.mem_preorder_self _ _ _)
    -- the first grandchild is readable, for `Node::new` to stop at it
    have hfirst : ∀ g ∈ c.children.head?, Readable dt offsets g := fun g hg =>
      (hwfc _ (Tree.mem_preorder_of_head hg _ _)).1
    have hrest' : B.drop p = beginNodeBytes c.name ++
        (c.body offsets ++ (Tree.encodeForest offsets cs ++ endNodeBytes ++ more)) := by
      rw [hrest, Tree.encodeForest, Tree.encode_eq]
      simp only [List.append_assoc]
    have hbody := drop_skip hrest'
    have haligned₁ : (p + (beginNodeBytes c.name).length) % 4 = 0 := by
      have := length_beginNodeBytes_mod c.name
      omega
    have hprops : B.drop (p + (beginNodeBytes c.name).length) =
        c.properties.flatMap (propBytes offsets) ++ (Tree.encodeForest offsets c.children ++
          endNodeBytes ++ (Tree.encodeForest offsets cs ++ endNodeBytes ++ more)) := by
      rw [hbody, Tree.body]
      simp only [List.append_assoc]
    have hnew : Node.new c.name self.deviceTree ⟨B, p + (beginNodeBytes c.name).length⟩ =
        some ⟨c.name, cells c.properties addressCellsName, cells c.properties sizeCellsName, none,
          none, dt, ⟨B, p + (beginNodeBytes c.name).length⟩⟩ := by
      rw [hdt]
      exact new_of_body c.name hbody haligned₁ hreadable hfirst
    have hsplit : (Tree.preorderForest (c :: cs) parentAddressCells parentSizeCells).find?
        (matchesNeedle needle) =
        ((c.preorder parentAddressCells parentSizeCells).find? (matchesNeedle needle)).or
          ((Tree.preorderForest cs parentAddressCells parentSizeCells).find?
            (matchesNeedle needle)) := by
      simp [List.find?_append]
    rw [findNodeLoop_of_next_beginNode (next_beginNodeBytes hsb hrest' haligned
      hreadable.name hreadable.nameUtf8) hnew, hsplit]
    set child : Node := { (⟨c.name, cells c.properties addressCellsName,
        cells c.properties sizeCellsName, none, none, dt, ⟨B, p + (beginNodeBytes c.name).length⟩⟩ :
          Node) with parentAddressCells := parentAddressCells, parentSizeCells := parentSizeCells }
      with hchild_def
    have hchild : Represents dt child c parentAddressCells parentSizeCells :=
      { name := rfl
        addressCells := rfl
        sizeCells := rfl
        parentAddressCells := rfl
        parentSizeCells := rfl
        deviceTree := rfl
        getProperty := fun name =>
          getProperty_of_properties name c.properties rfl hprops haligned₁
            hreadable.properties fun n' hdt' hsb' =>
              next_encodeForest hsb' (drop_skip hprops)
                (by have := length_flatMap_propBytes_mod offsets c.properties; omega)
                fun g hg => ⟨(hfirst g hg).name, (hfirst g hg).nameUtf8⟩ }
    -- the child's search, by what it finds
    have hc := findNodeRecursive_body c hchild rfl hbody haligned₁ hwfc
    generalize (findNodeRecursive needle child).map Found.val = r at hc ⊢
    match r, hc with
    | some (some target, _), ⟨t, pac, psc, hentry, htarget⟩ =>
      exact ⟨t, pac, psc, by rw [hentry]; rfl, htarget⟩
    | some (none, _), ⟨hentry, hafter⟩ =>
      rw [hentry, Option.none_or, hafter]
      -- the loop goes on after the child's `FDT_END_NODE`
      have hlength : p + (Tree.encodeForest offsets (c :: cs) ++ endNodeBytes).length =
          p + (beginNodeBytes c.name).length + (c.body offsets).length +
            (Tree.encodeForest offsets cs ++ endNodeBytes).length := by
        simp only [Tree.encodeForest, Tree.encode_eq, List.length_append, Nat.add_assoc]
      rw [hlength]
      have hdt' : ({ self with
          structureBlock := ⟨B, p + (beginNodeBytes c.name).length + (c.body offsets).length⟩ } :
          Node).deviceTree = dt := hdt
      exact findNodeLoop_forest cs hdt' rfl (by rw [drop_skip hbody, List.append_assoc])
        (by
          have := length_encode_mod offsets c
          rw [Tree.encode_eq, List.length_append] at this
          omega)
        hwfcs

end

end Search

/-! ## From the blob -/

/-- `root_node` on a blob whose structure block is a tree with an unnamed
root: the fake node at the start of the block finds the root, with its cursor
just after the root's `FDT_BEGIN_NODE`. -/
theorem rootNode_of_encode {dt : DeviceTree} {offsets : List UInt8 → ℕ} {root : Tree}
    {tail : List UInt8} (hstruct : dt.offDtStruct < dt.totalsize)
    (hblock : (dt.data.drop dt.offDtStruct).take dt.sizeDtStruct = root.encode offsets ++ tail)
    (hname : root.name = []) (hroot : Readable dt offsets root)
    (hfirst : ∀ c ∈ root.children.head?, Readable dt offsets c) :
    ∃ rootNode, dt.rootNode = some rootNode ∧ Represents dt rootNode root none none ∧
      rootNode.structureBlock = ⟨root.encode offsets ++ tail, (beginNodeBytes root.name).length⟩ := by
  set B := root.encode offsets ++ tail with hB
  have hB₀ : B.drop 0 = beginNodeBytes root.name ++ (root.body offsets ++ tail) := by
    rw [List.drop_zero, hB, Tree.encode_eq, List.append_assoc]
  have hbody := drop_skip hB₀
  have haligned : (0 + (beginNodeBytes root.name).length) % 4 = 0 := by
    have := length_beginNodeBytes_mod root.name
    omega
  have hprops : B.drop (0 + (beginNodeBytes root.name).length) =
      root.properties.flatMap (propBytes offsets) ++
        (Tree.encodeForest offsets root.children ++ endNodeBytes ++ tail) := by
    rw [hbody, Tree.body]
    simp only [List.append_assoc]
  -- the fake node has no properties: the root's `FDT_BEGIN_NODE` comes first
  have hfake : Node.new fakeNodeName dt ⟨B, 0⟩ = some ⟨fakeNodeName, none, none, none, none, dt, ⟨B, 0⟩⟩ := by
    have hnext := next_beginNodeBytes (n := ⟨fakeNodeName, none, none, none, none, dt, ⟨B, 0⟩⟩)
      rfl hB₀ rfl hroot.name hroot.nameUtf8
    simp only [Node.new, getProperty_of_next_ends hnext trivial, Option.bind_eq_bind,
      Option.bind_some, Option.bind_none]
  have hnew : Node.new root.name dt ⟨B, 0 + (beginNodeBytes root.name).length⟩ =
      some ⟨root.name, cells root.properties addressCellsName, cells root.properties sizeCellsName,
        none, none, dt, ⟨B, 0 + (beginNodeBytes root.name).length⟩⟩ :=
    new_of_body root.name hbody haligned hroot hfirst
  set rootNode : Node := { (⟨root.name, cells root.properties addressCellsName,
      cells root.properties sizeCellsName, none, none, dt,
      ⟨B, 0 + (beginNodeBytes root.name).length⟩⟩ : Node) with
    parentAddressCells := none, parentSizeCells := none } with hrootNode
  -- the fake node's search: its first token is the root, which matches `""`
  have hfind : (findNodeRecursive [] (⟨fakeNodeName, none, none, none, none, dt, ⟨B, 0⟩⟩ : Node)).map
      Found.val = some (some rootNode, ⟨B, 0 + (beginNodeBytes root.name).length⟩) := by
    rw [findNodeRecursive_of_namePrefix_ne (show namePrefix fakeNodeName ≠ [] by decide),
      findNodeLoop_of_next_beginNode (next_beginNodeBytes rfl hB₀ rfl hroot.name hroot.nameUtf8) hnew,
      findNodeRecursive_of_namePrefix (by rw [hrootNode]; simp [hname, namePrefix])]
  refine ⟨rootNode, ?_, ⟨rfl, rfl, rfl, rfl, rfl, rfl, fun name => ?_⟩, by simp [hrootNode]⟩
  · simp only [DeviceTree.rootNode, DeviceTree.offsetFromHeader, if_pos hstruct, Option.bind_eq_bind,
      Option.bind_some, hblock]
    rw [show ConsumableBuffer.new B = ⟨B, 0⟩ from rfl, hfake, Option.bind_some, findNode_eq, hfind]
    rfl
  · exact getProperty_of_properties name root.properties rfl hprops haligned hroot.properties
      fun n' hdt hsb => next_encodeForest hsb (drop_skip hprops)
        (by have := length_flatMap_propBytes_mod offsets root.properties; omega)
        fun c hc => ⟨(hfirst c hc).name, (hfirst c hc).nameUtf8⟩

/-- On a blob whose structure block is a tree with an unnamed root, with
readable bytes and cell counts of four bytes held once per node,
`root_node().find_node(n)` returns the first node of the pre-order whose name
up to `@` is `n`: its name, its own cell counts, its parent's, and its own
properties for `get_property`; and nothing when no node matches. -/
theorem findNode_first_in_preorder (dt : DeviceTree) (offsets : List UInt8 → ℕ) (root : Tree)
    (tail : List UInt8) (hstruct : dt.offDtStruct < dt.totalsize)
    (hblock : (dt.data.drop dt.offDtStruct).take dt.sizeDtStruct = root.encode offsets ++ tail)
    (hname : root.name = [])
    (hwf : ∀ e ∈ root.preorder none none, Readable dt offsets e.1 ∧ CellCounts e.1) :
    ∃ rootNode, dt.rootNode = some rootNode ∧ ∀ needle,
      match (root.preorder none none).find? (matchesNeedle needle) with
      | some (t, parentAddressCells, parentSizeCells) =>
        ∃ node, rootNode.findNode needle = some (some node) ∧ node.name = t.name ∧
          node.addressCells = cells t.properties addressCellsName ∧
          node.sizeCells = cells t.properties sizeCellsName ∧
          node.parentAddressCells = parentAddressCells ∧ node.parentSizeCells = parentSizeCells ∧
          ∀ name, node.getProperty name = some ((property t.properties name).map ConsumableBuffer.new)
      | none => rootNode.findNode needle = some none := by
  have hroot := (hwf _ (Tree.mem_preorder_self root none none)).1
  obtain ⟨rootNode, hrootNode, hrepresents, hsb⟩ := rootNode_of_encode hstruct hblock hname hroot
    fun c hc => (hwf _ (Tree.mem_preorder_of_head hc none none)).1
  refine ⟨rootNode, hrootNode, fun needle => ?_⟩
  have hrest : (root.encode offsets ++ tail).drop (beginNodeBytes root.name).length =
      root.body offsets ++ tail := by
    rw [Tree.encode_eq, List.append_assoc, List.drop_left]
  -- the search from the root's properties, against the pre-order
  have hfinds := findNodeRecursive_body needle root hrepresents hsb hrest
    (length_beginNodeBytes_mod root.name) hwf
  rw [findNode_eq]
  generalize (findNodeRecursive needle rootNode).map Found.val = r at hfinds ⊢
  generalize (root.preorder none none).find? (matchesNeedle needle) = entry at hfinds ⊢
  match r, hfinds with
  | some (some node, _), ⟨t, pac, psc, hentry, hnode⟩ =>
    rw [hentry]
    exact ⟨node, rfl, hnode.name, hnode.addressCells, hnode.sizeCells, hnode.parentAddressCells,
      hnode.parentSizeCells, hnode.getProperty⟩
  | some (none, _), ⟨hentry, _⟩ =>
    rw [hentry]
    rfl

/-- An unnamed root with `#address-cells = <2>` and `#size-cells = <1>`, and
one child `cpu@0`. -/
def cpuTree : Tree :=
  .node [] [⟨addressCellsName, [0, 0, 0, 2]⟩, ⟨sizeCellsName, [0, 0, 0, 1]⟩]
    [.node [99, 112, 117, 64, 48] [] []]

/-- Where the strings block of `cpuBlob` holds the two names. -/
def cpuOffsets (name : List UInt8) : ℕ := if name = sizeCellsName then 15 else 0

/-- The blob of `cpuTree`: the header, the structure block and `FDT_END`, and
the strings block. -/
def cpuBlob : DeviceTree :=
  ⟨Bytes.encodeBE 4 fdtMagic ++ Bytes.encodeBE 4 131 ++ Bytes.encodeBE 4 40 ++ Bytes.encodeBE 4 104 ++
    Bytes.encodeBE 4 40 ++ Bytes.encodeBE 4 fdtVersion ++ Bytes.encodeBE 4 16 ++ Bytes.encodeBE 4 0 ++
    Bytes.encodeBE 4 27 ++ Bytes.encodeBE 4 64 ++
    cpuTree.encode cpuOffsets ++ Bytes.encodeBE 4 fdtEnd ++ addressCellsName ++ [0] ++ sizeCellsName ++ [0]⟩

theorem findNode_first_in_preorder_cpu :
    ∃ rootNode, cpuBlob.rootNode = some rootNode ∧ ∀ needle,
      match (cpuTree.preorder none none).find? (matchesNeedle needle) with
      | some (t, parentAddressCells, parentSizeCells) =>
        ∃ node, rootNode.findNode needle = some (some node) ∧ node.name = t.name ∧
          node.addressCells = cells t.properties addressCellsName ∧
          node.sizeCells = cells t.properties sizeCellsName ∧
          node.parentAddressCells = parentAddressCells ∧ node.parentSizeCells = parentSizeCells ∧
          ∀ name, node.getProperty name = some ((property t.properties name).map ConsumableBuffer.new)
      | none => rootNode.findNode needle = some none :=
  findNode_first_in_preorder cpuBlob cpuOffsets cpuTree (Bytes.encodeBE 4 fdtEnd) (by decide) (by decide)
    rfl (by decide)

/-- `"chosen"`. -/
def chosenName : List UInt8 := [99, 104, 111, 115, 101, 110]

/-- An unnamed root whose `#address-cells` is empty, with a child `chosen`. -/
def shortCellsTree : Tree := .node [] [⟨addressCellsName, []⟩] [.node chosenName [] []]

/-- The blob of `shortCellsTree`, with `#address-cells` at offset 0 of the
strings block. -/
def shortCellsBlob : DeviceTree :=
  ⟨Bytes.encodeBE 4 fdtMagic ++ Bytes.encodeBE 4 99 ++ Bytes.encodeBE 4 40 ++ Bytes.encodeBE 4 84 ++
    Bytes.encodeBE 4 40 ++ Bytes.encodeBE 4 fdtVersion ++ Bytes.encodeBE 4 16 ++ Bytes.encodeBE 4 0 ++
    Bytes.encodeBE 4 15 ++ Bytes.encodeBE 4 44 ++
    shortCellsTree.encode (fun _ => 0) ++ Bytes.encodeBE 4 fdtEnd ++ addressCellsName ++ [0]⟩

/-- The blob of `shortCellsTree` is readable and its pre-order has `chosen`,
but the root's empty `#address-cells` ends the search at its `?`:
`find_node("chosen")` returns `None`. -/
theorem findNode_short_cells_misses_chosen :
    (∀ e ∈ shortCellsTree.preorder none none, Readable shortCellsBlob (fun _ => 0) e.1) ∧
      (shortCellsTree.preorder none none).find? (matchesNeedle chosenName) =
        some (.node chosenName [] [], none, none) ∧
      ∃ rootNode, shortCellsBlob.rootNode = some rootNode ∧
        rootNode.findNode chosenName = some none := by
  refine ⟨by decide, rfl, ?_⟩
  obtain ⟨rootNode, hrootNode, hrepresents, hsb⟩ := @rootNode_of_encode shortCellsBlob
    (fun _ => 0) shortCellsTree (Bytes.encodeBE 4 fdtEnd) (by decide) (by decide) rfl (by decide)
    fun c hc => by
      simp only [shortCellsTree, Tree.children, List.head?_cons, Option.mem_def,
        Option.some.injEq] at hc
      subst hc
      decide
  -- the first token after the root's name is the empty `#address-cells`
  have hrest : (shortCellsTree.encode (fun _ => 0) ++ Bytes.encodeBE 4 fdtEnd).drop
      (beginNodeBytes shortCellsTree.name).length =
      propBytes (fun _ => 0) ⟨addressCellsName, []⟩ ++ (Tree.encodeForest (fun _ => 0)
        [.node chosenName [] []] ++ endNodeBytes ++ Bytes.encodeBE 4 fdtEnd) := by
    decide
  have hnext := next_propBytes hsb hrest (by decide) (by decide) (by decide)
    (by rw [hrepresents.deviceTree]; decide)
  refine ⟨rootNode, hrootNode, ?_⟩
  rw [findNode_eq, findNodeRecursive_of_namePrefix_ne (by rw [hrepresents.name]; decide),
    findNodeLoop_of_next_prop_short hnext (by decide)]
  rfl

end Solaya.Fdt
