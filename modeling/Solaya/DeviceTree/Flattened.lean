import Solaya.DeviceTree.Node

/-!
# Device trees and their flattened form

The tree a blob describes: nodes with a name, properties and children, in the
order of the blob.  `Tree.encode` lays a tree out as the devicetree
specification's structure block does: `FDT_BEGIN_NODE` and the name, the
properties as `FDT_PROP` with the value's length, the name's offset in the
strings block and the value, the children, and `FDT_END_NODE`, each item
padded with zeros to a multiple of four bytes.  Where a property's name lies
in the strings block is a parameter, `offsets`.

`Tree.preorder` lists the nodes in the order a depth-first search meets them,
each with the cell counts its parent declares.  The lemmas of this file read
one item at a time: a `Node` whose cursor is at an item's bytes reads the
item's token and moves past it, `get_property` at a node's properties returns
the first of the name, and `Node::new` there reads the node's own cell
counts.
-/

namespace Solaya.Fdt

open ConsumableBuffer Node

/-- A property of a node. -/
structure Property where
  name : List UInt8
  value : List UInt8
  deriving DecidableEq, Repr

/-- A node of a device tree. -/
inductive Tree where
  | node (name : List UInt8) (properties : List Property) (children : List Tree)
  deriving Repr

/-- The value of the first property of the name. -/
def property (properties : List Property) (name : List UInt8) : Option (List UInt8) :=
  (properties.find? (·.name == name)).map Property.value

/-- A cell count: the big-endian `u32` at the front of the property's value,
when the value holds four bytes. -/
def cells (properties : List Property) (name : List UInt8) : Option ℕ :=
  (property properties name).bind fun value =>
    if 4 ≤ value.length then some (Bytes.decodeBE (value.take 4)) else none

namespace Tree

def name : Tree → List UInt8
  | node name _ _ => name

def properties : Tree → List Property
  | node _ properties _ => properties

def children : Tree → List Tree
  | node _ _ children => children

mutual

/-- The nodes of `t` in pre-order, each with the cell counts of its parent. -/
def preorder : Tree → Option ℕ → Option ℕ → List (Tree × Option ℕ × Option ℕ)
  | node name properties children, parentAddressCells, parentSizeCells =>
    (node name properties children, parentAddressCells, parentSizeCells) ::
      preorderForest children (cells properties addressCellsName) (cells properties sizeCellsName)

/-- The nodes of a list of siblings in pre-order. -/
def preorderForest : List Tree → Option ℕ → Option ℕ → List (Tree × Option ℕ × Option ℕ)
  | [], _, _ => []
  | t :: ts, parentAddressCells, parentSizeCells =>
    preorder t parentAddressCells parentSizeCells ++
      preorderForest ts parentAddressCells parentSizeCells

end

end Tree

/-! ## The structure block of a tree -/

/-- Zero bytes up to the next multiple of four after `n` bytes. -/
def padding (n : ℕ) : List UInt8 := List.replicate ((4 - n % 4) % 4) 0

/-- `FDT_BEGIN_NODE` and the NUL-terminated name. -/
def beginNodeBytes (name : List UInt8) : List UInt8 :=
  Bytes.encodeBE 4 fdtBeginNode ++ name ++ [0] ++ padding (name.length + 1)

/-- `FDT_PROP`, the value's length, the name's offset and the value. -/
def propBytes (offsets : List UInt8 → ℕ) (p : Property) : List UInt8 :=
  Bytes.encodeBE 4 fdtProp ++ Bytes.encodeBE 4 p.value.length ++ Bytes.encodeBE 4 (offsets p.name) ++
    p.value ++ padding p.value.length

/-- `FDT_END_NODE`. -/
def endNodeBytes : List UInt8 := Bytes.encodeBE 4 fdtEndNode

namespace Tree

mutual

/-- The structure block bytes of a node and its descendants. -/
def encode (offsets : List UInt8 → ℕ) : Tree → List UInt8
  | node name properties children =>
    beginNodeBytes name ++ properties.flatMap (propBytes offsets) ++ encodeForest offsets children ++
      endNodeBytes

/-- The bytes of a list of siblings. -/
def encodeForest (offsets : List UInt8 → ℕ) : List Tree → List UInt8
  | [] => []
  | t :: ts => encode offsets t ++ encodeForest offsets ts

end

/-- What follows a node's `FDT_BEGIN_NODE`: its properties, its children and
its `FDT_END_NODE`. -/
def body (offsets : List UInt8 → ℕ) (t : Tree) : List UInt8 :=
  t.properties.flatMap (propBytes offsets) ++ encodeForest offsets t.children ++ endNodeBytes

theorem encode_eq (offsets : List UInt8 → ℕ) (t : Tree) :
    t.encode offsets = beginNodeBytes t.name ++ t.body offsets := by
  cases t
  simp only [encode, body, name, properties, children, List.append_assoc]

end Tree

/-- What the parser needs of one node's bytes: a name without NUL that is
UTF-8, and properties whose lengths and name offsets fit a `u32` and whose
names the strings block holds at their offsets. -/
structure Readable (dt : DeviceTree) (offsets : List UInt8 → ℕ) (t : Tree) : Prop where
  name : ∀ c ∈ t.name, c ≠ 0
  nameUtf8 : isUtf8 t.name = true
  properties : ∀ p ∈ t.properties,
    p.value.length < 2 ^ 32 ∧ offsets p.name < 2 ^ 32 ∧ dt.getString (offsets p.name) = some (some p.name)

-- The name is checked as a `Bool`: with all of Mathlib in scope, `∀ c ∈ t.name, c ≠ 0`
-- would be decided by enumerating every `UInt8`.
instance (dt : DeviceTree) (offsets : List UInt8 → ℕ) (t : Tree) : Decidable (Readable dt offsets t) :=
  decidable_of_iff
    (t.name.all (· != 0) = true ∧ isUtf8 t.name = true ∧ ∀ p ∈ t.properties,
      p.value.length < 2 ^ 32 ∧ offsets p.name < 2 ^ 32 ∧ dt.getString (offsets p.name) = some (some p.name))
    (by
      simp only [List.all_eq_true, bne_iff_ne]
      exact ⟨fun ⟨h₁, h₂, h₃⟩ => ⟨h₁, h₂, h₃⟩, fun ⟨h₁, h₂, h₃⟩ => ⟨h₁, h₂, h₃⟩⟩)

/-! ## Lengths: every item ends on a multiple of four -/

theorem length_padding (n : ℕ) : (padding n).length = (4 - n % 4) % 4 := by
  simp [padding]

theorem length_beginNodeBytes_mod (name : List UInt8) : (beginNodeBytes name).length % 4 = 0 := by
  simp only [beginNodeBytes, List.length_append, Bytes.length_encodeBE, List.length_singleton,
    length_padding]
  omega

theorem length_propBytes_mod (offsets : List UInt8 → ℕ) (p : Property) :
    (propBytes offsets p).length % 4 = 0 := by
  simp only [propBytes, List.length_append, Bytes.length_encodeBE, length_padding]
  omega

theorem length_flatMap_propBytes_mod (offsets : List UInt8 → ℕ) (properties : List Property) :
    (properties.flatMap (propBytes offsets)).length % 4 = 0 := by
  induction properties with
  | nil => rfl
  | cons p properties ih =>
    rw [List.flatMap_cons, List.length_append]
    have := length_propBytes_mod offsets p
    omega

mutual

theorem length_encode_mod (offsets : List UInt8 → ℕ) : ∀ t : Tree, (t.encode offsets).length % 4 = 0
  | .node name properties children => by
    have h₁ := length_beginNodeBytes_mod name
    have h₂ := length_flatMap_propBytes_mod offsets properties
    have h₃ := length_encodeForest_mod offsets children
    simp only [Tree.encode, List.length_append, endNodeBytes, Bytes.length_encodeBE]
    omega

theorem length_encodeForest_mod (offsets : List UInt8 → ℕ) :
    ∀ ts : List Tree, (Tree.encodeForest offsets ts).length % 4 = 0
  | [] => rfl
  | t :: ts => by
    have h₁ := length_encode_mod offsets t
    have h₂ := length_encodeForest_mod offsets ts
    simp only [Tree.encodeForest, List.length_append]
    omega

end

/-! ## Reading one item

A cursor is written `⟨B, p⟩`: the whole structure block `B` and the position
`p`, with `B.drop p` the bytes still to read. -/

section Reading

variable {B more : List UInt8} {p : ℕ}

theorem drop_skip {bytes : List UInt8} (h : B.drop p = bytes ++ more) :
    B.drop (p + bytes.length) = more := by
  rw [← List.drop_drop, h, List.drop_left]

theorem le_length_of_drop {bytes : List UInt8} (h : B.drop p = bytes ++ more) (hne : bytes ≠ []) :
    p + bytes.length ≤ B.length := by
  have hlen := congrArg List.length h
  have hpos : 0 < bytes.length := List.length_pos_iff.mpr hne
  rw [List.length_drop, List.length_append] at hlen
  omega

theorem withU32_of_drop {x : ℕ} {k : ℕ → ConsumableBuffer → TokenResult}
    (h : B.drop p = Bytes.encodeBE 4 x ++ more) (hx : x < 2 ^ 32) :
    withU32 ⟨B, p⟩ k = k x ⟨B, p + 4⟩ := by
  have hread : (⟨B, p⟩ : ConsumableBuffer).consumeBigEndian (3 + 1) = some (x, ⟨B, p + (3 + 1)⟩) :=
    consumeBigEndian_of_rest (b := ⟨B, p⟩) h (by simpa using hx)
  simp only [withU32, hread]

theorem withStr_of_drop {string : List UInt8} {k : List UInt8 → ConsumableBuffer → TokenResult}
    (h : B.drop p = string ++ 0 :: more) (hnul : ∀ c ∈ string, c ≠ 0) (hutf : isUtf8 string = true) :
    withStr ⟨B, p⟩ k = k string ⟨B, p + string.length + 1⟩ := by
  have hread : (⟨B, p⟩ : ConsumableBuffer).consumeStr = some (string, ⟨B, p + string.length + 1⟩) :=
    consumeStr_of_rest (b := ⟨B, p⟩) h hnul hutf
  simp only [withStr, hread]

theorem withSlice_of_drop {data : List UInt8} {k : List UInt8 → ConsumableBuffer → TokenResult}
    (h : B.drop p = data ++ more) (hpos : p ≤ B.length) :
    withSlice data.length ⟨B, p⟩ k = k data ⟨B, p + data.length⟩ := by
  have hread : (⟨B, p⟩ : ConsumableBuffer).consumeSlice data.length = some (data, ⟨B, p + data.length⟩) :=
    consumeSlice_of_rest (b := ⟨B, p⟩) h hpos
  simp only [withSlice, hread]

theorem skipAlignment_of_drop {pad : List UInt8} (h : B.drop p = pad ++ more) (hpos : p ≤ B.length)
    (hpad : pad.length = (4 - p % 4) % 4) : skipAlignment ⟨B, p⟩ = ⟨B, p + pad.length⟩ := by
  have halign : (⟨B, p⟩ : ConsumableBuffer).consumeAlignment 4 = some ((), ⟨B, p + pad.length⟩) :=
    consumeAlignment_of_rest (b := ⟨B, p⟩) (by decide) h hpos hpad
  simp only [skipAlignment, halign, Option.map_some, Option.getD_some]

variable {n : Node}

theorem next_beginNodeBytes {name : List UInt8} (hsb : n.structureBlock = ⟨B, p⟩)
    (hrest : B.drop p = beginNodeBytes name ++ more) (haligned : p % 4 = 0)
    (hname : ∀ c ∈ name, c ≠ 0) (hutf : isUtf8 name = true) :
    n.next = some (some (.beginNode name), ⟨B, p + (beginNodeBytes name).length⟩) := by
  have hne : beginNodeBytes name ≠ [] := by simp [beginNodeBytes, Bytes.encodeBE]
  have hfit := le_length_of_drop hrest hne
  have hlength : (beginNodeBytes name).length =
      4 + name.length + 1 + (4 - (name.length + 1) % 4) % 4 := by
    simp only [beginNodeBytes, List.length_append, Bytes.length_encodeBE, List.length_singleton,
      length_padding]
  -- the token number, the name, and the padding after it
  have h₁ : B.drop p = Bytes.encodeBE 4 fdtBeginNode ++
      (name ++ 0 :: (padding (name.length + 1) ++ more)) := by
    rw [hrest]
    simp [beginNodeBytes]
  have h₂ := drop_skip h₁
  rw [Bytes.length_encodeBE] at h₂
  have h₃ : B.drop (p + 4 + name.length + 1) = padding (name.length + 1) ++ more := by
    have hname₀ : B.drop (p + 4) = (name ++ [0]) ++ (padding (name.length + 1) ++ more) := by
      rw [h₂]
      simp
    simpa [Nat.add_assoc] using drop_skip hname₀
  have halign := skipAlignment_of_drop h₃ (by omega) (by rw [length_padding]; omega)
  unfold next
  simp only [hsb, empty_eq_false_of_rest (b := ⟨B, p⟩) hrest hne, Bool.false_eq_true, if_false,
    withU32_of_drop h₁ (by decide), if_true, withStr_of_drop h₂ hname hutf, halign]
  rw [hlength, length_padding]
  congr 3
  omega

theorem next_propBytes {offsets : List UInt8 → ℕ} {prop : Property}
    (hsb : n.structureBlock = ⟨B, p⟩) (hrest : B.drop p = propBytes offsets prop ++ more)
    (haligned : p % 4 = 0) (hvalue : prop.value.length < 2 ^ 32) (hoffset : offsets prop.name < 2 ^ 32)
    (hstring : n.deviceTree.getString (offsets prop.name) = some (some prop.name)) :
    n.next = some (some (.prop prop.name (ConsumableBuffer.new prop.value)),
      ⟨B, p + (propBytes offsets prop).length⟩) := by
  have hne : propBytes offsets prop ≠ [] := by simp [propBytes, Bytes.encodeBE]
  have hfit := le_length_of_drop hrest hne
  have hlength : (propBytes offsets prop).length =
      12 + prop.value.length + (4 - prop.value.length % 4) % 4 := by
    simp only [propBytes, List.length_append, Bytes.length_encodeBE, length_padding]
  -- the token number, the length, the name's offset, the value and the padding
  have h₁ : B.drop p = Bytes.encodeBE 4 fdtProp ++ (Bytes.encodeBE 4 prop.value.length ++
      (Bytes.encodeBE 4 (offsets prop.name) ++ (prop.value ++ (padding prop.value.length ++ more)))) := by
    rw [hrest]
    simp [propBytes]
  have h₂ := drop_skip h₁
  have h₃ := drop_skip h₂
  have h₄ := drop_skip h₃
  have h₅ := drop_skip h₄
  simp only [Bytes.length_encodeBE] at h₂ h₃ h₄ h₅
  have halign := skipAlignment_of_drop h₅ (by omega) (by rw [length_padding]; omega)
  unfold next
  simp only [hsb, empty_eq_false_of_rest (b := ⟨B, p⟩) hrest hne, Bool.false_eq_true, if_false,
    withU32_of_drop h₁ (by decide), if_neg (show fdtProp ≠ fdtBeginNode by decide),
    if_neg (show fdtProp ≠ fdtEndNode by decide), if_true, withU32_of_drop h₂ hvalue,
    withU32_of_drop h₃ hoffset, withSlice_of_drop h₄ (by omega), halign, hstring]
  rw [hlength, length_padding]
  congr 3
  omega

theorem next_endNodeBytes (hsb : n.structureBlock = ⟨B, p⟩) (hrest : B.drop p = endNodeBytes ++ more) :
    n.next = some (some .endNode, ⟨B, p + 4⟩) := by
  have hne : endNodeBytes ≠ [] := by simp [endNodeBytes, Bytes.encodeBE]
  unfold next
  simp only [hsb, empty_eq_false_of_rest (b := ⟨B, p⟩) hrest hne, Bool.false_eq_true, if_false,
    withU32_of_drop (x := fdtEndNode) hrest (by decide),
    if_neg (show fdtEndNode ≠ fdtBeginNode by decide), if_true]

/-- After a node's properties come its first child or its `FDT_END_NODE`:
either ends the properties. -/
theorem next_encodeForest {offsets : List UInt8 → ℕ} {children : List Tree}
    (hsb : n.structureBlock = ⟨B, p⟩)
    (hrest : B.drop p = Tree.encodeForest offsets children ++ endNodeBytes ++ more)
    (haligned : p % 4 = 0)
    (hfirst : ∀ c ∈ children.head?, (∀ byte ∈ c.name, byte ≠ 0) ∧ isUtf8 c.name = true) :
    ∃ token b, n.next = some (some token, b) ∧ EndsProperties token := by
  cases children with
  | nil => exact ⟨.endNode, _, next_endNodeBytes hsb hrest, trivial⟩
  | cons c cs =>
    obtain ⟨hname, hutf⟩ := hfirst c rfl
    have hrest' : B.drop p = beginNodeBytes c.name ++
        (c.body offsets ++ Tree.encodeForest offsets cs ++ endNodeBytes ++ more) := by
      rw [hrest, Tree.encodeForest, Tree.encode_eq]
      simp only [List.append_assoc]
    exact ⟨.beginNode c.name, _, next_beginNodeBytes hsb hrest' haligned hname hutf, trivial⟩

end Reading

/-! ## A node's properties -/

section Properties

variable {offsets : List UInt8 → ℕ} {B more : List UInt8}

/-- `get_property` at a node's properties returns the value of the first of
the name, given that what follows them ends the properties. -/
theorem getProperty_of_properties (name : List UInt8) (properties : List Property) {n : Node}
    {p : ℕ} (hsb : n.structureBlock = ⟨B, p⟩)
    (hrest : B.drop p = properties.flatMap (propBytes offsets) ++ more) (haligned : p % 4 = 0)
    (hprops : ∀ prop ∈ properties, prop.value.length < 2 ^ 32 ∧ offsets prop.name < 2 ^ 32 ∧
      n.deviceTree.getString (offsets prop.name) = some (some prop.name))
    (hends : ∀ n' : Node, n'.deviceTree = n.deviceTree →
      n'.structureBlock = ⟨B, p + (properties.flatMap (propBytes offsets)).length⟩ →
      ∃ token b, n'.next = some (some token, b) ∧ EndsProperties token) :
    n.getProperty name = some ((property properties name).map ConsumableBuffer.new) := by
  induction properties generalizing n p with
  | nil =>
    obtain ⟨token, b, hnext, htoken⟩ := hends n rfl (by simpa using hsb)
    rw [getProperty_of_next_ends hnext htoken]
    rfl
  | cons prop properties ih =>
    obtain ⟨hvalue, hoffset, hstring⟩ := hprops prop List.mem_cons_self
    rw [List.flatMap_cons, List.append_assoc] at hrest
    rw [getProperty_of_next_prop (next_propBytes hsb hrest haligned hvalue hoffset hstring)]
    by_cases hname : prop.name = name
    · simp [property, hname]
    · -- the rest of the properties, from after this one
      have hrest' := drop_skip hrest
      have haligned' : (p + (propBytes offsets prop).length) % 4 = 0 := by
        have := length_propBytes_mod offsets prop
        omega
      rw [if_neg hname, ih (n := { n with structureBlock := ⟨B, p + (propBytes offsets prop).length⟩ })
        rfl hrest' haligned' (fun q hq => hprops q (List.mem_cons_of_mem _ hq))
        (fun n' hdt hsb' => hends n' hdt (by simpa [Nat.add_assoc] using hsb'))]
      simp [property, hname]

/-- `and_then(consume_sized_type::<BigEndian<u32>>()).map(get)` on a property
is its cell count. -/
theorem bind_consumeBigEndian_property (properties : List Property) (name : List UInt8) :
    ((property properties name).map ConsumableBuffer.new).bind
        (fun b => (b.consumeBigEndian 4).map Prod.fst) = cells properties name := by
  unfold cells
  cases property properties name with
  | none => rfl
  | some value =>
    simp only [Option.map_some, Option.bind_some, consumeBigEndian_new]
    split_ifs <;> rfl

/-- `Node::new` at a node's properties: its own cell counts, read from them. -/
theorem new_of_body {dt : DeviceTree} {t : Tree} {p : ℕ} (name : List UInt8)
    (hrest : B.drop p = t.body offsets ++ more) (haligned : p % 4 = 0)
    (ht : Readable dt offsets t) (hfirst : ∀ c ∈ t.children.head?, Readable dt offsets c) :
    Node.new name dt ⟨B, p⟩ = some ⟨name, cells t.properties addressCellsName,
      cells t.properties sizeCellsName, none, none, dt, ⟨B, p⟩⟩ := by
  have hrest' : B.drop p = t.properties.flatMap (propBytes offsets) ++
      (Tree.encodeForest offsets t.children ++ endNodeBytes ++ more) := by
    rw [hrest, Tree.body]
    simp only [List.append_assoc]
  have hget (property : List UInt8) :=
    getProperty_of_properties (n := ⟨name, none, none, none, none, dt, ⟨B, p⟩⟩) property
      t.properties rfl hrest' haligned ht.properties fun n' hdt hsb' =>
        next_encodeForest hsb' (drop_skip hrest')
          (by have := length_flatMap_propBytes_mod offsets t.properties; omega)
          fun c hc => ⟨(hfirst c hc).name, (hfirst c hc).nameUtf8⟩
  simp only [Node.new, hget, Option.bind_eq_bind, Option.bind_some, bind_consumeBigEndian_property]

end Properties

end Solaya.Fdt
