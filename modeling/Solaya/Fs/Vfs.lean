import Solaya.Headers
import Mathlib.Data.List.Nodup

/-!
# The virtual file system

Every file system node is a `VfsNode` (`fs/vfs.rs`): a file or a directory
with an inode number.  A directory lists its children with `readdir`, as
`DirEntry`s, and finds one by name with `lookup`.  A `String` is modelled by its
UTF-8 bytes, so a name or a path is a list of bytes; `/` is never part of a
multi-byte character, so splitting the bytes at `/` splits the string.

The mount table maps absolute paths to the roots of the mounted file systems.
A path is resolved in two ways at once.  `resolve_path` picks the longest
mount path that is a prefix of the path on its raw string (`find_mount`) and
walks the rest from that mount's root; walking from the root directory, its
`lookup` consults the mount table again for each of its own children.  What
resolution is meant to be is a walk over the path's components from the root
in which entering a directory whose absolute path is a mount point lands on
that mount's root (`refResolve`).  For the tables `fs::init` and `mount_ext2`
build, whose mount points are all children of the root, the two agree on
every path (`resolvePath_eq_refResolve`).  `resolve_parent` agrees with its
reference on every absolute path, which is what every caller passes; on a
relative path without an inner `/` it answers `EINVAL`.
-/

namespace Solaya

/-- `NodeType`. -/
inductive NodeType where
  | file
  | directory
  deriving DecidableEq, Repr

/-- `DirEntry`. -/
structure DirEntry where
  name : List UInt8
  ino : Nat
  nodeType : NodeType
  deriving DecidableEq, Repr

namespace Vfs

/-! ## Strings -/

/-- `'/'`. -/
def slash : UInt8 := 47

/-- `'.'`. -/
def dot : UInt8 := 46

/-- `str::split(sep)`: the pieces between the separators, empty ones included. -/
def split (sep : UInt8) : List UInt8 → List (List UInt8)
  | [] => [[]]
  | b :: bs =>
    if b = sep then [] :: split sep bs
    else
      match split sep bs with
      | [] => [[b]]
      | piece :: pieces => (b :: piece) :: pieces

/-- `str::trim_end_matches(c)`. -/
def trimEndMatches (c : UInt8) (s : List UInt8) : List UInt8 :=
  (s.reverse.dropWhile (· == c)).reverse

/-- `str::rfind(c)`: the index of the last `c`. -/
def rfind (c : UInt8) : List UInt8 → Option Nat
  | [] => none
  | b :: bs =>
    match rfind c bs with
    | some i => some (i + 1)
    | none => if b = c then some 0 else none

/-- The components a walk visits:
`path.split('/').filter(|c| !c.is_empty() && *c != ".")`. -/
def components (path : List UInt8) : List (List UInt8) :=
  (split slash path).filter fun c => c ≠ [] ∧ c ≠ [dot]

/-! ## Nodes and the mount table -/

/-- A node: the root directory, whose `lookup` reads the mount table, one of
the built-in programs (`ProgramNode`, found by name), or a node of a mounted
file system, of type `N`. -/
inductive VfsNode (N : Type) where
  | rootDir
  | program (name : List UInt8)
  | fs (node : N)
  deriving DecidableEq, Repr

/-- `MOUNT_TABLE`: mount paths with the roots mounted there. -/
abbrev MountTable (N : Type) := List (List UInt8 × VfsNode N)

variable {N : Type} (fsLookup : N → List UInt8 → Except Errno N) (programs : List (List UInt8))
  (table : MountTable N)

/-- `vfs::mount`: `insert` into the `BTreeMap`, replacing what was mounted at
the path. -/
def mount (path : List UInt8) (root : VfsNode N) : MountTable N :=
  (path, root) :: table.filter (·.1 ≠ path)

/-- `VfsNode::lookup` of each kind of node: `RootDir` looks its child up as a
mount point `/name`, then as a program; a program node is no directory; a
file system's node looks in its own directory. -/
def VfsNode.lookup : VfsNode N → List UInt8 → Except Errno (VfsNode N)
  | .rootDir, name =>
    match table.lookup (slash :: name) with
    | some node => .ok node
    | none => if name ∈ programs then .ok (.program name) else .error .enoent
  | .program _, _ => .error .enotdir
  | .fs node, name => (fsLookup node name).map .fs

/-- `walk`: look the components up one after the other. -/
def walk (node : VfsNode N) (path : List UInt8) : Except Errno (VfsNode N) :=
  (components path).foldlM (fun node c => node.lookup fsLookup programs table c) node

/-- Whether `find_mount` takes `mountPath` for `path`: the path itself, the
root for any absolute path, or a prefix followed by `/`. -/
def mountMatches (path mountPath : List UInt8) : Bool :=
  path == mountPath || (mountPath == [slash] && path.head? == some slash) ||
    (mountPath.isPrefixOf path && path[mountPath.length]? == some slash)

/-- One turn of `find_mount`'s loop: a matching mount path longer than the
best so far replaces it. -/
def findMountStep (path : List UInt8) (best : Option (List UInt8 × VfsNode N))
    (entry : List UInt8 × VfsNode N) : Option (List UInt8 × VfsNode N) :=
  if mountMatches path entry.1 &&
      (best.isNone || decide ((best.map (·.1.length)).getD 0 < entry.1.length)) then some entry
  else best

/-- `find_mount`. -/
def findMount (path : List UInt8) : Except Errno (List UInt8 × VfsNode N) :=
  match table.foldl (findMountStep path) none with
  | none => .error .enoent
  | some best => .ok best

/-- `resolve_path`. -/
def resolvePath (path : List UInt8) : Except Errno (VfsNode N) :=
  if path = [dot] ∨ path = [slash] then (findMount table [slash]).map (·.2)
  else if path.head? ≠ some slash then resolvePath (slash :: path)
  else do
    let (mountPath, node) ← findMount table path
    walk fsLookup programs table node (path.drop mountPath.length)
termination_by if path.head? = some slash then 0 else 1
decreasing_by simp_all

/-- `resolve_parent`: the node of the path without its last component, and
that component. -/
def resolveParent (path : List UInt8) : Except Errno (VfsNode N × List UInt8) :=
  let path := trimEndMatches slash path
  if path = [] then .error .einval
  else
    match rfind slash path with
    | none => .error .einval
    | some lastSlash =>
      let parentPath := if lastSlash = 0 then [slash] else path.take lastSlash
      let name := path.drop (lastSlash + 1)
      if name = [] then .error .einval
      else (resolvePath fsLookup programs table parentPath).map (·, name)

/-! ## What resolution is for -/

/-- The absolute path of the components `cs`: `/c₁/c₂/…/cₖ`. -/
def absolutePath (cs : List (List UInt8)) : List UInt8 :=
  cs.flatMap (slash :: ·)

/-- Walk the components `cs` from `node`, the directory at the components
`dir`: entering a directory whose absolute path is a mount point lands on that
mount's root, and any other one is looked up in its parent. -/
def refWalk : List (List UInt8) → VfsNode N → List (List UInt8) → Except Errno (VfsNode N)
  | _, node, [] => .ok node
  | dir, node, c :: cs =>
    match table.lookup (absolutePath (dir ++ [c])) with
    | some root => refWalk (dir ++ [c]) root cs
    | none => (node.lookup fsLookup programs table c).bind fun n => refWalk (dir ++ [c]) n cs

/-- The node at a list of components, walked from the root mount. -/
def refResolveComponents (cs : List (List UInt8)) : Except Errno (VfsNode N) :=
  match table.lookup [slash] with
  | none => .error .enoent
  | some root => refWalk fsLookup programs table [] root cs

/-- The node a path names: its non-empty components other than `.`, from the
root. -/
def refResolve (path : List UInt8) : Except Errno (VfsNode N) :=
  refResolveComponents fsLookup programs table (components path)

/-- The node of a path without its last component, and that component: the
last piece of the path once the empty pieces trailing slashes leave are gone. -/
def refResolveParent (path : List UInt8) : Except Errno (VfsNode N × List UInt8) :=
  let pieces := ((split slash path).reverse.dropWhile (· = [])).reverse
  match pieces.getLast? with
  | none => .error .einval
  | some name =>
    (refResolveComponents fsLookup programs table
      (pieces.dropLast.filter fun c => c ≠ [] ∧ c ≠ [dot])).map (·, name)

/-! ## The tables `fs::init` and `mount_ext2` build -/

/-- `"/tmp"`. -/
def tmpPath : List UInt8 := [47, 116, 109, 112]

/-- `"/proc"`. -/
def procPath : List UInt8 := [47, 112, 114, 111, 99]

/-- `"/dev"`. -/
def devPath : List UInt8 := [47, 100, 101, 118]

/-- `"/mnt"`. -/
def mntPath : List UInt8 := [47, 109, 110, 116]

/-- `fs::init`: the root directory, then tmpfs, procfs and devfs. -/
def init (tmp proc dev : N) : MountTable N :=
  mount (mount (mount (mount [] [slash] .rootDir) tmpPath (.fs tmp)) procPath (.fs proc))
    devPath (.fs dev)

/-- `mount_ext2`: the ext2 root at `/mnt`. -/
def mountExt2 (root : N) : MountTable N :=
  mount table mntPath (.fs root)

/-- A table whose mount points are the root, holding the root directory, and
children of the root, each path once. -/
structure SingleLevel (table : MountTable N) : Prop where
  root : table.lookup [slash] = some .rootDir
  child : ∀ entry ∈ table, entry.1 ≠ [slash] →
    ∃ name, entry.1 = slash :: name ∧ name ≠ [] ∧ name ≠ [dot] ∧ slash ∉ name
  nodup : (table.map Prod.fst).Nodup

/-! ## Splitting at `/` -/

-- `split`'s two equations, which the lemmas below rewrite with instead of
-- unfolding `split` each on its own.
theorem split_nil (sep : UInt8) : split sep [] = [[]] := rfl

theorem split_cons (sep b : UInt8) (bs : List UInt8) :
    split sep (b :: bs) =
      if b = sep then [] :: split sep bs
      else
        match split sep bs with
        | [] => [[b]]
        | piece :: pieces => (b :: piece) :: pieces := rfl

theorem split_ne_nil (sep : UInt8) (s : List UInt8) : split sep s ≠ [] := by
  cases s with
  | nil => exact List.cons_ne_nil _ _
  | cons b bs =>
    rw [split_cons]
    split_ifs
    · exact List.cons_ne_nil _ _
    · split <;> exact List.cons_ne_nil _ _

/-- Splitting at a separator splits the two sides apart. -/
theorem split_append_sep (sep : UInt8) (a b : List UInt8) :
    split sep (a ++ sep :: b) = split sep a ++ split sep b := by
  induction a with
  | nil => simp [split_cons, split_nil]
  | cons x a ih =>
    rw [List.cons_append, split_cons, split_cons, ih]
    split_ifs with hx
    · rfl
    · -- `split sep a` has a first piece, which `x` joins on both sides
      obtain ⟨piece, pieces, hsplit⟩ := List.exists_cons_of_ne_nil (split_ne_nil sep a)
      rw [hsplit]
      rfl

theorem split_of_not_mem {sep : UInt8} {a : List UInt8} (h : sep ∉ a) : split sep a = [a] := by
  induction a with
  | nil => rfl
  | cons x a ih =>
    have hx : x ≠ sep := fun hx => h (hx ▸ List.mem_cons_self)
    rw [split_cons, if_neg hx, ih (fun ha => h (List.mem_cons_of_mem x ha))]

@[simp]
theorem components_cons_slash (path : List UInt8) : components (slash :: path) = components path := by
  simp [components, split_cons]

/-- The components of `name ++ rest`, for a name without `/` and a rest that is
empty or starts with `/`. -/
theorem components_name_append {name rest : List UInt8} (hname : name ≠ []) (hdot : name ≠ [dot])
    (hslash : slash ∉ name) (hrest : rest = [] ∨ rest.head? = some slash) :
    components (name ++ rest) = name :: components rest := by
  rcases hrest with rfl | hhead
  · simp [components, split_of_not_mem hslash, hname, hdot, split_nil]
  · obtain ⟨rest, rfl⟩ : ∃ r, rest = slash :: r := by
      cases rest with
      | nil => cases hhead
      | cons b r => exact ⟨r, by simp only [List.head?_cons, Option.some.injEq] at hhead; rw [hhead]⟩
    simp [components, split_append_sep, split_of_not_mem hslash, hname, hdot, split_cons]

/-- Every path is a name without `/` followed by nothing or by `/…`. -/
theorem exists_name_append (path : List UInt8) :
    ∃ name rest, path = name ++ rest ∧ slash ∉ name ∧ (rest = [] ∨ rest.head? = some slash) := by
  induction path with
  | nil => exact ⟨[], [], rfl, List.not_mem_nil, Or.inl rfl⟩
  | cons b path ih =>
    by_cases hb : b = slash
    · exact ⟨[], b :: path, rfl, List.not_mem_nil, Or.inr (by rw [hb]; rfl)⟩
    · obtain ⟨name, rest, rfl, hname, hrest⟩ := ih
      refine ⟨b :: name, rest, rfl, ?_, hrest⟩
      rintro (_ | ⟨_, hmem⟩)
      · exact hb rfl
      · exact hname hmem

theorem split_replicate (sep : UInt8) (m : Nat) :
    split sep (List.replicate m sep) = List.replicate (m + 1) [] := by
  induction m with
  | zero => rfl
  | succ m ih =>
    rw [List.replicate_succ, split_cons, if_pos rfl, ih]
    rfl

/-- A name followed by separators splits into the name and one empty piece per
separator. -/
theorem split_append_replicate {sep : UInt8} {name : List UInt8} (h : sep ∉ name) (k : Nat) :
    split sep (name ++ List.replicate k sep) = name :: List.replicate k [] := by
  cases k with
  | zero => rw [List.replicate_zero, List.append_nil, split_of_not_mem h]; rfl
  | succ k =>
    rw [List.replicate_succ, split_append_sep, split_of_not_mem h, split_replicate]
    rfl

theorem trimEndMatches_replicate (c : UInt8) (k : Nat) :
    trimEndMatches c (List.replicate k c) = [] := by
  simp [trimEndMatches]

/-- Trimming drops exactly the trailing `c`s. -/
theorem trimEndMatches_append_replicate {c : UInt8} {s : List UInt8} (k : Nat)
    (hlast : ∀ x ∈ s.getLast?, x ≠ c) : trimEndMatches c (s ++ List.replicate k c) = s := by
  have hkeep : s.reverse.dropWhile (· == c) = s.reverse := by
    cases hrev : s.reverse with
    | nil => rfl
    | cons x xs =>
      have hx : x ≠ c := hlast x (by rw [← List.head?_reverse, hrev]; rfl)
      exact List.dropWhile_cons_of_neg (by simpa using hx)
  rw [trimEndMatches, List.reverse_append, List.reverse_replicate,
    List.dropWhile_append_of_pos (fun a ha => by simp [List.eq_of_mem_replicate ha]), hkeep,
    List.reverse_reverse]

theorem rfind_eq_none {c : UInt8} {s : List UInt8} (h : c ∉ s) : rfind c s = none := by
  induction s with
  | nil => rfl
  | cons b s ih =>
    have hb : b ≠ c := fun hb => h (hb ▸ List.mem_cons_self)
    rw [rfind, ih (fun hs => h (List.mem_cons_of_mem b hs)), if_neg hb]

/-- The last `c` of `a ++ c :: b`, with no `c` in `b`, is at `a.length`. -/
theorem rfind_append_cons {c : UInt8} {b : List UInt8} (h : c ∉ b) (a : List UInt8) :
    rfind c (a ++ c :: b) = some a.length := by
  induction a with
  | nil => rw [List.nil_append, rfind, rfind_eq_none h, if_pos rfl]; rfl
  | cons x a ih => rw [List.cons_append, rfind, ih]; rfl

/-- Every path is all `/`, or ends in a last component `name` and then `/`s,
with nothing or a `/` right before the name. -/
theorem exists_path_shape (path : List UInt8) :
    (∀ b ∈ path, b = slash) ∨ ∃ pre name k, path = pre ++ name ++ List.replicate k slash ∧
      name ≠ [] ∧ slash ∉ name ∧ (pre = [] ∨ ∃ dir, pre = dir ++ [slash]) := by
  induction path with
  | nil => exact Or.inl fun _ hb => absurd hb List.not_mem_nil
  | cons b path ih =>
    rcases ih with hall | ⟨pre, name, k, rfl, hname, hslash, hpre⟩
    · by_cases hb : b = slash
      · exact Or.inl fun x hx => (List.mem_cons.mp hx).elim (· ▸ hb) (hall x)
      · -- `b` is the last component
        refine Or.inr ⟨[], [b], path.length, ?_, List.cons_ne_nil b [], ?_, Or.inl rfl⟩
        · exact congrArg (b :: ·) (List.eq_replicate_iff.mpr ⟨rfl, hall⟩)
        · exact fun h => hb (List.mem_singleton.mp h).symm
    · rcases hpre with rfl | ⟨dir, rfl⟩
      · by_cases hb : b = slash
        · exact Or.inr ⟨[b], name, k, rfl, hname, hslash, Or.inr ⟨[], by rw [hb]; rfl⟩⟩
        · refine Or.inr ⟨[], b :: name, k, rfl, List.cons_ne_nil b name, ?_, Or.inl rfl⟩
          exact fun h => (List.mem_cons.mp h).elim (fun h' => hb h'.symm) hslash
      · exact Or.inr ⟨b :: (dir ++ [slash]), name, k, rfl, hname, hslash, Or.inr ⟨b :: dir, rfl⟩⟩

/-! ## `find_mount` takes the longest match -/

variable {table}

theorem foldl_findMountStep_of_best {path : List UInt8} {e : List UInt8 × VfsNode N}
    (l : MountTable N) (hl : ∀ x ∈ l, mountMatches path x.1 → x.1.length ≤ e.1.length) :
    l.foldl (findMountStep path) (some e) = some e := by
  induction l with
  | nil => rfl
  | cons x l ih =>
    have hstay : findMountStep path (some e) x = some e := by
      unfold findMountStep
      by_cases hx : mountMatches path x.1 = true
      · have := hl x List.mem_cons_self hx
        simp [hx, Nat.not_lt.mpr this]
      · simp [hx]
    rw [List.foldl_cons, hstay, ih fun y hy => hl y (List.mem_cons_of_mem x hy)]

/-- The fold of `find_mount` ends on a matching entry strictly longer than
every other matching entry, whatever the order. -/
theorem foldl_findMountStep_eq {path : List UInt8} {e : List UInt8 × VfsNode N}
    {l : MountTable N} (hmem : e ∈ l) (hmatch : mountMatches path e.1)
    (hlongest : ∀ x ∈ l, mountMatches path x.1 → x ≠ e → x.1.length < e.1.length) :
    ∀ {best : Option (List UInt8 × VfsNode N)}, (∀ b, best = some b → b.1.length < e.1.length) →
      l.foldl (findMountStep path) best = some e := by
  induction l with
  | nil => cases hmem
  | cons x l ih =>
    intro best hbest
    rw [List.foldl_cons]
    by_cases hxe : x = e
    · -- `e` replaces the shorter best, and nothing after it is longer
      subst hxe
      have hpick : findMountStep path best x = some x := by
        unfold findMountStep
        cases best with
        | none => simp [hmatch]
        | some b => simp [hmatch, hbest b rfl]
      rw [hpick, foldl_findMountStep_of_best]
      intro y hy hymatch
      by_cases hyx : y = x
      · exact hyx ▸ Nat.le_refl _
      · exact Nat.le_of_lt (hlongest y (List.mem_cons_of_mem x hy) hymatch hyx)
    · have he : e ∈ l := (List.mem_cons.mp hmem).resolve_left (Ne.symm hxe)
      refine ih he (fun y hy hymatch hye => hlongest y (List.mem_cons_of_mem x hy) hymatch hye) ?_
      intro b hb
      unfold findMountStep at hb
      split_ifs at hb with hx
      · cases hb
        exact hlongest x List.mem_cons_self (by simp_all) hxe
      · exact hbest b hb

/-- The root matches every absolute path. -/
theorem mountMatches_root {path : List UInt8} (habs : path.head? = some slash) :
    mountMatches path [slash] = true := by
  simp [mountMatches, habs]

/-- A child `/name` of the root matches exactly the paths `/name` and
`/name/…`. -/
theorem mountMatches_child_iff {path name : List UInt8} (hname : name ≠ []) :
    mountMatches path (slash :: name) = true ↔
      ∃ rest, path = slash :: name ++ rest ∧ (rest = [] ∨ rest.head? = some slash) := by
  have hroot : (slash :: name == [slash]) = false := by simp [hname]
  simp only [mountMatches, hroot, Bool.false_and, Bool.or_false, Bool.or_eq_true, beq_iff_eq,
    Bool.and_eq_true, List.isPrefixOf_iff_prefix]
  constructor
  · rintro (rfl | ⟨⟨rest, rfl⟩, hnext⟩)
    · exact ⟨[], by simp, Or.inl rfl⟩
    · refine ⟨rest, by simp, Or.inr ?_⟩
      simp only [List.cons_append, List.length_cons, List.getElem?_cons_succ,
        List.getElem?_append_right (Nat.le_refl _), Nat.sub_self] at hnext
      rwa [List.head?_eq_getElem?]
  · rintro ⟨rest, rfl, rfl | hhead⟩
    · exact Or.inl (by simp)
    · refine Or.inr ⟨⟨rest, by simp⟩, ?_⟩
      cases rest with
      | nil => cases hhead
      | cons b r => simpa using hhead

/-- Two names without `/`, each followed by nothing or by `/`, that spell the
same path are the same. -/
theorem name_eq_of_append {n₁ n₂ r₁ r₂ : List UInt8} (h₁ : slash ∉ n₁) (h₂ : slash ∉ n₂)
    (hr₁ : r₁ = [] ∨ r₁.head? = some slash) (hr₂ : r₂ = [] ∨ r₂.head? = some slash)
    (h : n₁ ++ r₁ = n₂ ++ r₂) : n₁ = n₂ := by
  induction n₁ generalizing n₂ with
  | nil =>
    cases n₂ with
    | nil => rfl
    | cons c n₂ =>
      -- the path goes on with `c`, so `r₁` starts with `c`, which is then `/`
      rcases hr₁ with rfl | hhead
      · cases h
      · rw [List.nil_append] at h
        rw [h] at hhead
        simp only [List.cons_append, List.head?_cons, Option.some.injEq] at hhead
        exact absurd (hhead ▸ List.mem_cons_self) h₂
  | cons c n₁ ih =>
    cases n₂ with
    | nil =>
      rcases hr₂ with rfl | hhead
      · cases h
      · rw [List.nil_append] at h
        rw [← h] at hhead
        simp only [List.cons_append, List.head?_cons, Option.some.injEq] at hhead
        exact absurd (hhead ▸ List.mem_cons_self) h₁
    | cons d n₂ =>
      simp only [List.cons_append, List.cons.injEq] at h
      rw [h.1, ih (fun hm => h₁ (List.mem_cons_of_mem c hm))
        (fun hm => h₂ (List.mem_cons_of_mem d hm)) h.2]

theorem mem_of_lookup {k : List UInt8} {v : VfsNode N} :
    ∀ {l : MountTable N}, l.lookup k = some v → (k, v) ∈ l
  | [], h => by cases h
  | (k', v') :: l, h => by
    rw [List.lookup_cons] at h
    by_cases hk : k = k'
    · subst hk
      simp only [BEq.rfl, Option.some.injEq] at h
      rw [h]
      exact List.mem_cons_self
    · rw [beq_false_of_ne hk] at h
      exact List.mem_cons_of_mem _ (mem_of_lookup h)

theorem lookup_of_mem {k : List UInt8} {v : VfsNode N} :
    ∀ {l : MountTable N}, (l.map Prod.fst).Nodup → (k, v) ∈ l → l.lookup k = some v
  | [], _, h => by cases h
  | (k', v') :: l, hnodup, h => by
    rw [List.lookup_cons]
    rcases List.mem_cons.mp h with heq | hmem
    · simp only [Prod.mk.injEq] at heq
      simp [heq.1, heq.2]
    · have hk : k ≠ k' := by
        intro hk
        subst hk
        simp only [List.map_cons, List.nodup_cons] at hnodup
        exact hnodup.1 (List.mem_map.mpr ⟨_, hmem, rfl⟩)
      rw [beq_false_of_ne hk]
      exact lookup_of_mem (List.nodup_cons.mp hnodup).2 hmem

/-! ## `find_mount` on a single-level table -/

namespace SingleLevel

variable (hsl : SingleLevel table)
include hsl

theorem eq_of_key_eq {x y : List UInt8 × VfsNode N} (hx : x ∈ table) (hy : y ∈ table)
    (h : x.1 = y.1) : x = y :=
  List.inj_on_of_nodup_map hsl.nodup hx hy h

/-- A mount point that matches `/name…` is the root or `/name` itself. -/
theorem key_of_mountMatches {name rest : List UInt8} {x : List UInt8 × VfsNode N} (hx : x ∈ table)
    (hname : slash ∉ name) (hrest : rest = [] ∨ rest.head? = some slash)
    (hmatch : mountMatches (slash :: name ++ rest) x.1 = true) :
    x.1 = [slash] ∨ x.1 = slash :: name := by
  by_cases hroot : x.1 = [slash]
  · exact Or.inl hroot
  · obtain ⟨name', hkey, hne, -, hslash'⟩ := hsl.child x hx hroot
    rw [hkey, mountMatches_child_iff hne] at hmatch
    obtain ⟨rest', hpath, hrest'⟩ := hmatch
    have hsame : name ++ rest = name' ++ rest' := by
      simpa only [List.cons_append, List.cons.injEq, true_and] using hpath
    rw [hkey, name_eq_of_append hname hslash' hrest hrest' hsame]
    exact Or.inr rfl

/-- When `/name` is mounted, `find_mount` takes it for `/name` and `/name/…`. -/
theorem findMount_of_lookup {name rest : List UInt8} {node : VfsNode N}
    (hname : slash ∉ name) (hrest : rest = [] ∨ rest.head? = some slash)
    (hnode : table.lookup (slash :: name) = some node) :
    findMount table (slash :: name ++ rest) = .ok (slash :: name, node) := by
  have hmem := mem_of_lookup hnode
  have hmatch : mountMatches (slash :: name ++ rest) (slash :: name) = true := by
    cases name with
    | nil => exact mountMatches_root rfl
    | cons c name => exact (mountMatches_child_iff (List.cons_ne_nil c name)).mpr ⟨rest, rfl, hrest⟩
  have hlongest : ∀ x ∈ table, mountMatches (slash :: name ++ rest) x.1 = true →
      x ≠ (slash :: name, node) → x.1.length < (slash :: name).length := by
    intro x hx hxmatch hne
    rcases hsl.key_of_mountMatches hx hname hrest hxmatch with hkey | hkey
    · -- the root is shorter unless `name` is empty, and then it is this very entry
      cases name with
      | nil => exact absurd (hsl.eq_of_key_eq hx hmem hkey) hne
      | cons c name => simp [hkey]
    · exact absurd (hsl.eq_of_key_eq hx hmem hkey) hne
  unfold findMount
  rw [foldl_findMountStep_eq hmem hmatch hlongest (fun _ hb => by cases hb)]

/-- When `/name` is not mounted, `find_mount` takes the root for `/name…`. -/
theorem findMount_of_lookup_none {name rest : List UInt8}
    (hname : slash ∉ name) (hrest : rest = [] ∨ rest.head? = some slash)
    (hnone : table.lookup (slash :: name) = none) :
    findMount table (slash :: name ++ rest) = .ok ([slash], .rootDir) := by
  have hmem := mem_of_lookup hsl.root
  have hlongest : ∀ x ∈ table, mountMatches (slash :: name ++ rest) x.1 = true →
      x ≠ ([slash], .rootDir) → x.1.length < [slash].length := by
    intro x hx hxmatch hne
    rcases hsl.key_of_mountMatches hx hname hrest hxmatch with hkey | hkey
    · exact absurd (hsl.eq_of_key_eq hx hmem hkey) hne
    · -- `/name` would be mounted after all
      have hkey' : (slash :: name, x.2) ∈ table := by
        rw [← hkey]
        exact hx
      have := lookup_of_mem hsl.nodup hkey'
      rw [hnone] at this
      cases this
  unfold findMount
  rw [foldl_findMountStep_eq hmem (mountMatches_root rfl) hlongest (fun _ hb => by cases hb)]

end SingleLevel

/-! ## Both routes walk from the root directory -/

@[simp]
theorem absolutePath_singleton (c : List UInt8) : absolutePath [c] = slash :: c := by
  simp [absolutePath]

theorem walk_cons_slash (node : VfsNode N) (path : List UInt8) :
    walk fsLookup programs table node (slash :: path) = walk fsLookup programs table node path := by
  simp only [walk, components_cons_slash]

/-- Walking `name/…` from the root directory enters the root mounted at
`/name`. -/
theorem walk_rootDir_of_lookup {name rest : List UInt8} {node : VfsNode N} (hname : name ≠ [])
    (hdot : name ≠ [dot]) (hslash : slash ∉ name) (hrest : rest = [] ∨ rest.head? = some slash)
    (hnode : table.lookup (slash :: name) = some node) :
    walk fsLookup programs table .rootDir (name ++ rest) = walk fsLookup programs table node rest := by
  have hlookup : VfsNode.lookup fsLookup programs table .rootDir name = .ok node := by
    simp only [VfsNode.lookup, hnode]
  simp only [walk, components_name_append hname hdot hslash hrest, List.foldlM_cons, hlookup]
  rfl

namespace SingleLevel

variable (hsl : SingleLevel table)
include hsl

theorem findMount_slash : findMount table [slash] = .ok ([slash], .rootDir) :=
  hsl.findMount_of_lookup List.not_mem_nil (Or.inl rfl) hsl.root

/-- No mount point lies below a child of the root. -/
theorem lookup_absolutePath_append_eq_none {dir : List (List UInt8)} (hdir : dir ≠ [])
    (c : List UInt8) : table.lookup (absolutePath (dir ++ [c])) = none := by
  obtain ⟨d, ds, rfl⟩ := List.exists_cons_of_ne_nil hdir
  obtain ⟨e, es, hes⟩ := List.exists_cons_of_ne_nil (List.append_ne_nil_of_right_ne_nil ds
    (List.cons_ne_nil c []))
  rw [List.cons_append, hes]
  cases hnode : table.lookup (absolutePath (d :: e :: es)) with
  | none => rfl
  | some node =>
    have hroot : absolutePath (d :: e :: es) ≠ [slash] := by simp [absolutePath]
    obtain ⟨name, hkey, -, -, hslash⟩ := hsl.child _ (mem_of_lookup hnode) hroot
    -- the name after the first `/` holds the second one
    simp only [absolutePath, List.flatMap_cons, List.cons_append, List.cons.injEq, true_and]
      at hkey
    exact absurd (hkey ▸ List.mem_append_right d List.mem_cons_self) hslash

/-- Below the root, the reference walk is a plain walk. -/
theorem refWalk_of_ne_nil {dir : List (List UInt8)} (hdir : dir ≠ []) (node : VfsNode N)
    (cs : List (List UInt8)) :
    refWalk fsLookup programs table dir node cs =
      cs.foldlM (fun n c => n.lookup fsLookup programs table c) node := by
  induction cs generalizing dir node with
  | nil => rfl
  | cons c cs ih =>
    have hdeeper : dir ++ [c] ≠ [] := List.append_ne_nil_of_right_ne_nil dir (List.cons_ne_nil c [])
    simp only [refWalk, hsl.lookup_absolutePath_append_eq_none hdir c, List.foldlM_cons,
      ih hdeeper]
    rfl

/-- From the root, the reference walk is the walk of the root directory, whose
`lookup` finds the same mounts. -/
theorem refWalk_rootDir (cs : List (List UInt8)) :
    refWalk fsLookup programs table [] .rootDir cs =
      cs.foldlM (fun n c => n.lookup fsLookup programs table c) .rootDir := by
  cases cs with
  | nil => rfl
  | cons c cs =>
    have hdeeper := hsl.refWalk_of_ne_nil fsLookup programs (List.cons_ne_nil c [])
    rw [refWalk, List.nil_append, absolutePath_singleton, List.foldlM_cons]
    cases hnode : table.lookup (slash :: c) with
    | none =>
      simp only [hdeeper]
      rfl
    | some root =>
      simp only [hdeeper, VfsNode.lookup, hnode]
      rfl

theorem refResolve_eq_walk (path : List UInt8) :
    refResolve fsLookup programs table path = walk fsLookup programs table .rootDir path := by
  simp only [refResolve, refResolveComponents, hsl.root]
  exact hsl.refWalk_rootDir fsLookup programs (components path)

/-- `resolve_path` of an absolute path: `find_mount` cuts at the first
component, and walking from its mount's root is walking from the root
directory. -/
theorem resolvePath_cons_slash (path : List UInt8) :
    resolvePath fsLookup programs table (slash :: path) =
      walk fsLookup programs table .rootDir path := by
  obtain ⟨name, rest, rfl, hname, hrest⟩ := exists_name_append path
  rw [resolvePath]
  by_cases hempty : name ++ rest = []
  · -- `/` itself
    rw [hempty, if_pos (Or.inr rfl), hsl.findMount_slash]
    rfl
  · have hnot : ¬(slash :: (name ++ rest) = [dot] ∨ slash :: (name ++ rest) = [slash]) := by
      simp [hempty, slash, dot]
    rw [if_neg hnot, if_neg (by simp), ← List.cons_append]
    cases hnode : table.lookup (slash :: name) with
    | none =>
      rw [hsl.findMount_of_lookup_none hname hrest hnode]
      rfl
    | some node =>
      rw [hsl.findMount_of_lookup hname hrest hnode]
      show walk fsLookup programs table node ((slash :: name ++ rest).drop (slash :: name).length) = _
      rw [List.length_cons, List.cons_append, List.drop_succ_cons, List.drop_left]
      by_cases hname₀ : name = []
      · -- the root mount is the root directory
        subst hname₀
        rw [hsl.root, Option.some.injEq] at hnode
        rw [← hnode, List.nil_append]
      · have hkey : slash :: name ≠ [slash] := by simpa using hname₀
        obtain ⟨name', hname', -, hdot, -⟩ := hsl.child _ (mem_of_lookup hnode) hkey
        rw [List.cons.injEq] at hname'
        rw [walk_rootDir_of_lookup fsLookup programs hname₀ (hname'.2 ▸ hdot) hname hrest hnode]

theorem resolvePath_eq_walk (path : List UInt8) :
    resolvePath fsLookup programs table path = walk fsLookup programs table .rootDir path := by
  by_cases habs : path.head? = some slash
  · obtain ⟨path, rfl⟩ : ∃ p, path = slash :: p := by
      cases path with
      | nil => cases habs
      | cons b p => exact ⟨p, by simp only [List.head?_cons, Option.some.injEq] at habs; rw [habs]⟩
    rw [hsl.resolvePath_cons_slash, walk_cons_slash]
  · rw [resolvePath]
    by_cases hdot : path = [dot]
    · -- `.` is the root
      rw [if_pos (Or.inl hdot), hsl.findMount_slash, hdot]
      rfl
    · have hslash : path ≠ [slash] := fun h => habs (by rw [h]; rfl)
      rw [if_neg (by simp [hdot, hslash]), if_pos habs, hsl.resolvePath_cons_slash]

/-- `resolve_path` is the reference resolution, on every path. -/
theorem resolvePath_eq_refResolve (path : List UInt8) :
    resolvePath fsLookup programs table path = refResolve fsLookup programs table path := by
  rw [hsl.resolvePath_eq_walk, hsl.refResolve_eq_walk]

end SingleLevel

/-! ## `resolve_parent` -/

theorem resolveParent_of_all_slash {path : List UInt8} (h : ∀ b ∈ path, b = slash) :
    resolveParent fsLookup programs table path = .error .einval := by
  rw [List.eq_replicate_iff.mpr ⟨rfl, h⟩]
  simp only [resolveParent, trimEndMatches_replicate, if_true]

/-- `resolve_parent` of a path whose last component `name` follows a `/`: the
parent is what is before that `/`, or the root. -/
theorem resolveParent_of_shape {dir name : List UInt8} (k : Nat) (hname : name ≠ [])
    (hslash : slash ∉ name) :
    resolveParent fsLookup programs table (dir ++ slash :: name ++ List.replicate k slash) =
      (resolvePath fsLookup programs table (if dir = [] then [slash] else dir)).map (·, name) := by
  have hlast : ∀ x ∈ (dir ++ slash :: name).getLast?, x ≠ slash := by
    intro x hx hxs
    rw [← List.singleton_append, ← List.append_assoc, List.getLast?_append_of_ne_nil _ hname] at hx
    exact hslash (hxs ▸ List.mem_of_getLast? hx)
  have hdrop : (dir ++ slash :: name).drop (dir.length + 1) = name := by
    rw [List.drop_length_add_append]
    rfl
  simp only [resolveParent, trimEndMatches_append_replicate k hlast,
    List.append_ne_nil_of_right_ne_nil dir (List.cons_ne_nil _ _), if_false,
    rfind_append_cons hslash, List.length_eq_zero_iff, List.take_left, hdrop, hname]

/-- A relative path of one component has no `/` to cut at. -/
theorem resolveParent_of_name {name : List UInt8} (k : Nat) (hslash : slash ∉ name) :
    resolveParent fsLookup programs table (name ++ List.replicate k slash) = .error .einval := by
  have hlast : ∀ x ∈ name.getLast?, x ≠ slash := fun x hx hxs =>
    hslash (hxs ▸ List.mem_of_getLast? hx)
  simp only [resolveParent, trimEndMatches_append_replicate k hlast, rfind_eq_none hslash, ite_self]

/-- The reference reads the last component off the pieces, once the empty
pieces of trailing `/`s are gone. -/
theorem refResolveParent_of_split {path name : List UInt8} {pieces : List (List UInt8)} {k : Nat}
    (hsplit : split slash path = pieces ++ name :: List.replicate k []) (hname : name ≠ []) :
    refResolveParent fsLookup programs table path =
      (refResolveComponents fsLookup programs table
        (pieces.filter fun c => c ≠ [] ∧ c ≠ [dot])).map (·, name) := by
  have hpieces : ((split slash path).reverse.dropWhile (· = [])).reverse = pieces ++ [name] := by
    rw [hsplit, List.reverse_append, List.reverse_cons, List.reverse_replicate, List.append_assoc,
      List.dropWhile_append_of_pos (fun a ha => by simp [List.eq_of_mem_replicate ha]),
      List.singleton_append, List.dropWhile_cons_of_neg (by simpa using hname), List.reverse_cons,
      List.reverse_reverse]
  simp only [refResolveParent, hpieces, List.getLast?_concat, List.dropLast_concat]

theorem refResolveParent_of_all_slash {path : List UInt8} (h : ∀ b ∈ path, b = slash) :
    refResolveParent fsLookup programs table path = .error .einval := by
  rw [List.eq_replicate_iff.mpr ⟨rfl, h⟩]
  simp [refResolveParent, split_replicate]

theorem refResolveParent_of_shape {dir name : List UInt8} (k : Nat) (hname : name ≠ [])
    (hslash : slash ∉ name) :
    refResolveParent fsLookup programs table (dir ++ slash :: name ++ List.replicate k slash) =
      (refResolve fsLookup programs table dir).map (·, name) := by
  have hsplit : split slash (dir ++ slash :: name ++ List.replicate k slash) =
      split slash dir ++ name :: List.replicate k [] := by
    rw [List.append_assoc, List.cons_append, split_append_sep, split_append_replicate hslash]
  rw [refResolveParent_of_split fsLookup programs hsplit hname]
  rfl

theorem refResolveParent_of_name {name : List UInt8} (k : Nat) (hname : name ≠ [])
    (hslash : slash ∉ name) :
    refResolveParent fsLookup programs table (name ++ List.replicate k slash) =
      (refResolve fsLookup programs table []).map (·, name) := by
  have hsplit : split slash (name ++ List.replicate k slash) = [] ++ name :: List.replicate k [] :=
    split_append_replicate hslash k
  rw [refResolveParent_of_split fsLookup programs hsplit hname]
  rfl

namespace SingleLevel

variable (hsl : SingleLevel table)
include hsl

/-- `resolve_parent` is the reference on every absolute path. -/
theorem resolveParent_eq_refResolveParent {path : List UInt8} (habs : path.head? = some slash) :
    resolveParent fsLookup programs table path = refResolveParent fsLookup programs table path := by
  rcases exists_path_shape path with hall | ⟨pre, name, k, rfl, hname, hslash, hpre⟩
  · rw [resolveParent_of_all_slash fsLookup programs hall,
      refResolveParent_of_all_slash fsLookup programs hall]
  · rcases hpre with rfl | ⟨dir, rfl⟩
    · -- the path would start with its last component, which holds no `/`
      obtain ⟨c, name, rfl⟩ := List.exists_cons_of_ne_nil hname
      simp only [List.nil_append, List.cons_append, List.head?_cons, Option.some.injEq] at habs
      exact absurd (habs ▸ List.mem_cons_self) hslash
    · rw [List.append_assoc dir [slash] name, List.singleton_append,
        resolveParent_of_shape fsLookup programs k hname hslash,
        refResolveParent_of_shape fsLookup programs k hname hslash, hsl.refResolve_eq_walk]
      split_ifs with hdir
      · rw [hsl.resolvePath_eq_walk, walk_cons_slash, hdir]
      · rw [hsl.resolvePath_eq_walk]

/-- On a relative path of one component, the reference answers the root
directory. -/
theorem refResolveParent_of_name_root {name : List UInt8} (k : Nat) (hname : name ≠ [])
    (hslash : slash ∉ name) :
    refResolveParent fsLookup programs table (name ++ List.replicate k slash) =
      .ok (.rootDir, name) := by
  rw [refResolveParent_of_name fsLookup programs k hname hslash, hsl.refResolve_eq_walk]
  rfl

end SingleLevel

/-! ## The tables `fs::init` and `mount_ext2` build are single-level -/

theorem singleLevel_mount_root : SingleLevel (mount ([] : MountTable N) [slash] .rootDir) where
  root := rfl
  child entry hentry hne := by
    rw [mount, List.filter_nil, List.mem_singleton] at hentry
    exact absurd (by rw [hentry]) hne
  nodup := List.nodup_singleton _

/-- Mounting at a child of the root keeps the table single-level. -/
theorem SingleLevel.mount_child (hsl : SingleLevel table) {name : List UInt8} (hname : name ≠ [])
    (hdot : name ≠ [dot]) (hslash : slash ∉ name) (root : VfsNode N) :
    SingleLevel (mount table (slash :: name) root) := by
  have hkept : ∀ {x}, x ∈ table → x.1 ≠ slash :: name →
      x ∈ table.filter (·.1 ≠ slash :: name) :=
    fun hx hne => List.mem_filter.mpr ⟨hx, decide_eq_true hne⟩
  have hnodup : ((mount table (slash :: name) root).map Prod.fst).Nodup := by
    rw [mount, List.map_cons, List.nodup_cons]
    refine ⟨?_, hsl.nodup.sublist (List.filter_sublist.map Prod.fst)⟩
    intro hmem
    obtain ⟨x, hx, hkey⟩ := List.mem_map.mp hmem
    exact of_decide_eq_true (List.mem_filter.mp hx).2 hkey
  refine ⟨?_, ?_, hnodup⟩
  · -- the root entry is not the one replaced
    have hroot : [slash] ≠ slash :: name := by simpa using hname.symm
    exact lookup_of_mem hnodup (List.mem_cons_of_mem _ (hkept (mem_of_lookup hsl.root) hroot))
  · intro entry hentry hne
    rcases List.mem_cons.mp hentry with rfl | hentry
    · exact ⟨name, rfl, hname, hdot, hslash⟩
    · exact hsl.child entry (List.mem_filter.mp hentry).1 hne

theorem singleLevel_init (tmp proc dev : N) : SingleLevel (init tmp proc dev) :=
  ((singleLevel_mount_root.mount_child (by decide) (by decide) (by decide) (.fs tmp)).mount_child
    (by decide) (by decide) (by decide) (.fs proc)).mount_child (by decide) (by decide) (by decide)
    (.fs dev)

theorem singleLevel_mountExt2 (tmp proc dev root : N) :
    SingleLevel (mountExt2 (init tmp proc dev) root) :=
  (singleLevel_init tmp proc dev).mount_child (by decide) (by decide) (by decide) (.fs root)

/-- On the tables `fs::init` builds, with or without the ext2 root at `/mnt`,
`resolve_path` finds the node the component walk from the root finds, and
`resolve_parent` of an absolute path the parent and last component the
reference finds. -/
theorem resolution_agrees_with_component_walk (tmp proc dev root : N) (table : MountTable N)
    (htable : table = init tmp proc dev ∨ table = mountExt2 (init tmp proc dev) root)
    (path : List UInt8) :
    resolvePath fsLookup programs table path = refResolve fsLookup programs table path ∧
      (path.head? = some slash →
        resolveParent fsLookup programs table path = refResolveParent fsLookup programs table path) := by
  have hsl : SingleLevel table := by
    rcases htable with rfl | rfl
    · exact singleLevel_init tmp proc dev
    · exact singleLevel_mountExt2 tmp proc dev root
  exact ⟨hsl.resolvePath_eq_refResolve fsLookup programs path,
    fun habs => hsl.resolveParent_eq_refResolveParent fsLookup programs habs⟩

theorem resolution_agrees_with_component_walk_tmp :
    resolvePath (fun (_ : Unit) _ => .error .enoent) [] (init () () ()) tmpPath =
        refResolve (fun (_ : Unit) _ => .error .enoent) [] (init () () ()) tmpPath ∧
      resolveParent (fun (_ : Unit) _ => .error .enoent) [] (init () () ()) tmpPath =
        refResolveParent (fun (_ : Unit) _ => .error .enoent) [] (init () () ()) tmpPath :=
  have h := resolution_agrees_with_component_walk (fun (_ : Unit) _ => .error .enoent) [] () () () ()
    (init () () ()) (Or.inl rfl) tmpPath
  ⟨h.1, h.2 rfl⟩

/-- `resolve_parent("a/")` is `EINVAL`, where the reference gives the root
directory and `a`. -/
theorem resolveParent_relative_name_fails :
    resolveParent (fun (_ : Unit) _ => .error .enoent) [] (init () () ()) [97, 47] = .error .einval ∧
      refResolveParent (fun (_ : Unit) _ => .error .enoent) [] (init () () ()) [97, 47] =
        .ok (.rootDir, [97]) :=
  ⟨@resolveParent_of_name Unit _ [] (init () () ()) [97] 1 (by decide),
    @SingleLevel.refResolveParent_of_name_root Unit _ [] (init () () ()) (singleLevel_init () () ()) [97] 1
      (by decide) (by decide)⟩

end Vfs

end Solaya
