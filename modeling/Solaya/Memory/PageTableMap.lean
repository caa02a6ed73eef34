import Solaya.Memory.PageTableWalk

/-!
# What `map` writes

`map`'s loop cuts the range into chunks: at each offset it takes the largest
of 1 GiB, 2 MiB and 4 KiB that fits the remaining size and to which both the
virtual and the physical address are aligned.  `mapChunks` is that
decomposition, computed the way the loop computes it.  The main results say
that a successful `map` writes one fresh leaf per chunk and changes nothing
else (`mapLoop_spec`), that the chunks tile the range exactly, and that each leaf
sends every address of its chunk to the matching physical address.
-/

namespace Solaya

namespace RootPageTableHolder

/-- The level of the leaf `map`'s loop writes at `offset`. -/
def chunkLevel (virtualAddressStart physicalAddressStart size offset : ℕ) : ℕ :=
  if canBeMappedWith virtualAddressStart physicalAddressStart size gib1 offset then 2
  else if canBeMappedWith virtualAddressStart physicalAddressStart size mib2 offset then 1
  else 0

theorem levelSize_pos (level : ℕ) : 0 < levelSize level :=
  Nat.two_pow_pos _

/-- The chunks of `map`'s loop from `offset` on, as `(offset, level)` pairs in
loop order. -/
def mapChunks (virtualAddressStart physicalAddressStart size offset : ℕ) : List (ℕ × ℕ) :=
  if offset < size then
    let level := chunkLevel virtualAddressStart physicalAddressStart size offset
    (offset, level) ::
      mapChunks virtualAddressStart physicalAddressStart size (offset + levelSize level)
  else []
termination_by size - offset
decreasing_by
  have := levelSize_pos (chunkLevel virtualAddressStart physicalAddressStart size offset)
  omega

theorem mapChunks_of_lt {v p size offset : ℕ} (h : offset < size) :
    mapChunks v p size offset =
      (offset, chunkLevel v p size offset) ::
        mapChunks v p size (offset + levelSize (chunkLevel v p size offset)) := by
  rw [mapChunks, if_pos h]

theorem mapChunks_of_le {v p size offset : ℕ} (h : size ≤ offset) :
    mapChunks v p size offset = [] := by
  rw [mapChunks, if_neg (Nat.not_lt.mpr h)]

section Step

variable {root root' : FirstLevelTable} {v p size offset mapped : ℕ} {privileges : XWRMode}
  {isUserModeAccessible : Bool}

/-- One iteration of the loop maps the bytes of the chunk at `offset`. -/
theorem mapStep_mapped
    (h : mapStep root v p size privileges isUserModeAccessible offset = some (root', mapped)) :
    mapped = levelSize (chunkLevel v p size offset) := by
  unfold mapStep at h
  unfold chunkLevel
  dsimp only at h
  split_ifs at h ⊢ <;>
    obtain ⟨root₁, -, hpair⟩ := Option.map_eq_some_iff.mp h <;>
    cases hpair <;> rfl

/-- One iteration of the loop writes the leaf of the chunk at `offset`. -/
theorem mapStep_spec (hwf : WellFormed root) (hmode : privileges ≠ .pointerToNextLevel)
    (h : mapStep root v p size privileges isUserModeAccessible offset = some (root', mapped)) :
    mapped = levelSize (chunkLevel v p size offset) ∧
      LeafWrite root root' (v + offset) (chunkLevel v p size offset)
        (leafEntry privileges (p + offset) isUserModeAccessible) := by
  unfold mapStep at h
  unfold chunkLevel
  dsimp only at h
  split_ifs at h ⊢ with hgib hmib hunaligned
  · obtain ⟨root₁, hwrite, hpair⟩ := Option.map_eq_some_iff.mp h
    cases hpair
    exact ⟨rfl, writeGiB_spec hwf hmode hwrite⟩
  · obtain ⟨root₁, hwrite, hpair⟩ := Option.map_eq_some_iff.mp h
    cases hpair
    exact ⟨rfl, writeMiB_spec hwf hmode hwrite⟩
  · obtain ⟨root₁, hwrite, hpair⟩ := Option.map_eq_some_iff.mp h
    cases hpair
    exact ⟨rfl, writePage_spec hwf hwrite⟩

end Step

/-- `final` is `root` with one fresh leaf for each chunk of `chunks` and no
other change. -/
structure LeavesWritten (root final : FirstLevelTable) (v p : ℕ) (privileges : XWRMode)
    (isUserModeAccessible : Bool) (chunks : List (ℕ × ℕ)) : Prop where
  wellFormed : WellFormed final
  fresh : ∀ c ∈ chunks, ∀ va, SharesLeaf va (v + c.1) c.2 → resolve root va = none
  written : ∀ c ∈ chunks, ∀ va, SharesLeaf va (v + c.1) c.2 →
    resolve final va = some (leafEntry privileges (p + c.1) isUserModeAccessible, c.2)
  frame : ∀ va, (∀ c ∈ chunks, ¬SharesLeaf va (v + c.1) c.2) → resolve final va = resolve root va

namespace LeavesWritten

variable {root root₁ final : FirstLevelTable} {v p : ℕ} {privileges : XWRMode}
  {isUserModeAccessible : Bool}

theorem nil (hwf : WellFormed root) :
    LeavesWritten root root v p privileges isUserModeAccessible [] :=
  ⟨hwf, by simp, by simp, fun _ _ => rfl⟩

/-- One leaf, then the rest: a later leaf finds its addresses unmapped, so it
never covers the addresses of an earlier one. -/
theorem cons {offset level : ℕ} {chunks : List (ℕ × ℕ)}
    (hfirst : LeafWrite root root₁ (v + offset) level
      (leafEntry privileges (p + offset) isUserModeAccessible))
    (hrest : LeavesWritten root₁ final v p privileges isUserModeAccessible chunks) :
    LeavesWritten root final v p privileges isUserModeAccessible ((offset, level) :: chunks) := by
  -- an address of the first chunk is under no later chunk, which would have found it mapped
  have hnotLater : ∀ va, SharesLeaf va (v + offset) level →
      ∀ c ∈ chunks, ¬SharesLeaf va (v + c.1) c.2 := by
    intro va hva c hc hshares
    have hnone := hrest.fresh c hc va hshares
    rw [hfirst.written va hva] at hnone
    exact Option.some_ne_none _ hnone
  refine ⟨hrest.wellFormed, ?_, ?_, ?_⟩
  · intro c hc va hva
    rcases List.mem_cons.mp hc with rfl | hc
    · exact hfirst.fresh va hva
    · by_cases hfirstShares : SharesLeaf va (v + offset) level
      · exact absurd hva (hnotLater va hfirstShares c hc)
      · rw [← hfirst.frame va hfirstShares]
        exact hrest.fresh c hc va hva
  · intro c hc va hva
    rcases List.mem_cons.mp hc with rfl | hc
    · rw [hrest.frame va (hnotLater va hva)]
      exact hfirst.written va hva
    · exact hrest.written c hc va hva
  · intro va hnone
    rw [hrest.frame va fun c hc => hnone c (List.mem_cons_of_mem _ hc)]
    exact hfirst.frame va (hnone _ List.mem_cons_self)

end LeavesWritten

section Loop

variable {root final : FirstLevelTable} {v p size : ℕ} {privileges : XWRMode}
  {isUserModeAccessible : Bool}

/-- A successful run of `map`'s loop writes exactly the leaves of its chunks. -/
theorem mapLoop_spec (hmode : privileges ≠ .pointerToNextLevel) {fuel offset : ℕ}
    (hwf : WellFormed root)
    (h : mapLoop v p size privileges isUserModeAccessible fuel root offset = some final) :
    LeavesWritten root final v p privileges isUserModeAccessible (mapChunks v p size offset) := by
  refine Loop.whileBelow_rel
    (fun root offset final => WellFormed root →
      LeavesWritten root final v p privileges isUserModeAccessible (mapChunks v p size offset))
    ?_ ?_ fuel root offset final h hwf
  · intro root offset hle hwf
    rw [mapChunks_of_le hle]
    exact LeavesWritten.nil hwf
  · intro root offset root₁ offset₁ final hlt hbody hrest hwf
    obtain ⟨⟨root₂, mapped⟩, hstep, hpair⟩ := Option.map_eq_some_iff.mp hbody
    cases hpair
    obtain ⟨hmapped, hwrite⟩ := mapStep_spec hwf hmode hstep
    rw [mapChunks_of_lt hlt, ← hmapped]
    exact LeavesWritten.cons hwrite (hrest hwrite.wellFormed)

end Loop

/-- Everything a successful `map` has checked and done: the guards held, the
rounded range was free in `already_mapped`, the entry was pushed and the loop
ran to the end. -/
theorem map_eq_some {holder holder' : RootPageTableHolder} {v p size : ℕ}
    {privileges : XWRMode} {isUserModeAccessible : Bool}
    (h : holder.map v p size privileges isUserModeAccessible = some holder') :
    v % pageSize = 0 ∧ p % pageSize = 0 ∧ v ≠ 0 ∧ size ≠ 0 ∧
      v + (alignUp size pageSize - 1) ≤ usizeMax ∧ p + (alignUp size pageSize - 1) ≤ usizeMax ∧
      holder.alreadyMapped.any (·.contains (v, v + (alignUp size pageSize - 1))) = false ∧
      ∃ root', mapLoop v p (alignUp size pageSize) privileges isUserModeAccessible
          (alignUp size pageSize) holder.rootTable 0 = some root' ∧
        holder' = ⟨root', holder.alreadyMapped ++
          [⟨(v, v + (alignUp size pageSize - 1)), privileges⟩]⟩ := by
  unfold map at h
  split_ifs at h with hguard
  simp only [not_or, ne_eq, not_not] at hguard
  obtain ⟨hv, hp, hnull, hsize⟩ := hguard
  obtain ⟨aligned, haligned, h⟩ := Option.bind_eq_some_iff.mp h
  rw [alignUpChecked_eq_some haligned] at h
  obtain ⟨virtualEnd, hend, h⟩ := Option.bind_eq_some_iff.mp h
  obtain ⟨rfl, hvend⟩ := checkedAdd_eq_some hend
  obtain ⟨physicalEnd, hpend, h⟩ := Option.bind_eq_some_iff.mp h
  obtain ⟨-, hpend⟩ := checkedAdd_eq_some hpend
  split_ifs at h with hoverlap
  obtain ⟨root', hloop, h⟩ := Option.bind_eq_some_iff.mp h
  exact ⟨hv, hp, hnull, hsize, hvend, hpend, by simpa using hoverlap, root', hloop,
    (Option.some.inj h).symm⟩

/-- The converse of `map_eq_some`: past its guards, `map` is its loop. -/
theorem map_of_mapLoop {holder : RootPageTableHolder} {v p size : ℕ} {privileges : XWRMode}
    {isUserModeAccessible : Bool} {root' : FirstLevelTable} (hv : v % pageSize = 0) (hv0 : v ≠ 0)
    (hp : p % pageSize = 0) (hsize : size % pageSize = 0) (hpos : 0 < size)
    (hvend : v + size ≤ 2 ^ 64) (hpend : p + size ≤ 2 ^ 64)
    (hnone : holder.alreadyMapped.any (·.contains (v, v + (size - 1))) = false)
    (hloop : mapLoop v p size privileges isUserModeAccessible size holder.rootTable 0 = some root') :
    holder.map v p size privileges isUserModeAccessible =
      some ⟨root', holder.alreadyMapped ++ [⟨(v, v + (size - 1)), privileges⟩]⟩ := by
  have hvend' : v + (size - 1) ≤ usizeMax := by unfold usizeMax; omega
  have hpend' : p + (size - 1) ≤ usizeMax := by unfold usizeMax; omega
  simp only [map, hv, hp, hv0, hpos.ne', ne_eq, not_true_eq_false, or_self, if_false,
    alignUpChecked, hsize, if_true, checkedAdd_of_le hvend', checkedAdd_of_le hpend', hnone,
    hloop, Option.bind_eq_bind, Option.bind_some, Bool.false_eq_true]

/-! ## The chunks tile the range -/

/-- A chunk at `offset` of `level` lies inside the range, and the virtual and
physical addresses it starts at are aligned to its size. -/
structure ChunkFits (v p size offset level : ℕ) : Prop where
  le_size : offset + levelSize level ≤ size
  virtual_aligned : (v + offset) % levelSize level = 0
  physical_aligned : (p + offset) % levelSize level = 0
  level_le : level ≤ 2

theorem levelSize_mod_pageSize (level : ℕ) : levelSize level % pageSize = 0 := by
  unfold levelSize pageSize
  rw [pow_add]
  exact Nat.mul_mod_right _ _

/-- The loop's offset stays page aligned. -/
theorem add_levelSize_mod_pageSize {offset : ℕ} (hoffset : offset % pageSize = 0) (level : ℕ) :
    (offset + levelSize level) % pageSize = 0 := by
  simp [Nat.add_mod, hoffset, levelSize_mod_pageSize]

section Geometry

variable {v p size : ℕ}

theorem canBeMappedWith_iff {mappedBytes offset : ℕ} :
    canBeMappedWith v p size mappedBytes offset = true ↔
      mappedBytes ≤ size - offset ∧ (v + offset) % mappedBytes = 0 ∧
        (p + offset) % mappedBytes = 0 := by
  simp [canBeMappedWith, and_assoc]

/-- The chunk the loop takes at a page-aligned offset inside a page-aligned
range fits. -/
theorem chunkFits_chunkLevel {offset : ℕ} (hv : v % pageSize = 0) (hp : p % pageSize = 0)
    (hsize : size % pageSize = 0) (hoffset : offset % pageSize = 0) (hlt : offset < size) :
    ChunkFits v p size offset (chunkLevel v p size offset) := by
  unfold chunkLevel
  split_ifs with hgib hmib
  · obtain ⟨hle, hva, hpa⟩ := canBeMappedWith_iff.mp hgib
    exact ⟨by simp; omega, by simpa using hva, by simpa using hpa, by decide⟩
  · obtain ⟨hle, hva, hpa⟩ := canBeMappedWith_iff.mp hmib
    exact ⟨by simp; omega, by simpa using hva, by simpa using hpa, by decide⟩
  · -- the 4 KiB branch: everything is a multiple of `PAGE_SIZE`
    unfold pageSize at hv hp hsize hoffset
    refine ⟨?_, ?_, ?_, by decide⟩ <;> rw [show levelSize 0 = 4096 from rfl] <;> omega

/-- Every chunk from a page-aligned `offset` on fits and starts at or after it. -/
theorem mapChunks_fits (hv : v % pageSize = 0) (hp : p % pageSize = 0)
    (hsize : size % pageSize = 0) (offset : ℕ) (hoffset : offset % pageSize = 0) :
    ∀ c ∈ mapChunks v p size offset, offset ≤ c.1 ∧ ChunkFits v p size c.1 c.2 := by
  induction offset using mapChunks.induct v p size with
  | case1 offset hlt level ih =>
      intro c hc
      rw [mapChunks_of_lt hlt] at hc
      rcases List.mem_cons.mp hc with rfl | hc
      · exact ⟨le_rfl, chunkFits_chunkLevel hv hp hsize hoffset hlt⟩
      · obtain ⟨hle, hfits⟩ := ih (add_levelSize_mod_pageSize hoffset level) c hc
        exact ⟨by omega, hfits⟩
  | case2 offset hge =>
      intro c hc
      rw [mapChunks_of_le (Nat.not_lt.mp hge)] at hc
      simp at hc

/-- The chunks from `offset` cover every byte from there to the end of the
range. -/
theorem mapChunks_cover (offset : ℕ) :
    ∀ x, offset ≤ x → x < size →
      ∃ c ∈ mapChunks v p size offset, c.1 ≤ x ∧ x < c.1 + levelSize c.2 := by
  induction offset using mapChunks.induct v p size with
  | case1 offset hlt level ih =>
      intro x hle hx
      rw [mapChunks_of_lt hlt]
      by_cases hfirst : x < offset + levelSize level
      · exact ⟨(offset, level), List.mem_cons_self, hle, hfirst⟩
      · obtain ⟨c, hc, hcx⟩ := ih x (by omega) hx
        exact ⟨c, List.mem_cons_of_mem _ hc, hcx⟩
  | case2 offset hge =>
      intro x hle hx
      omega

end Geometry

/-! ## Leaves against address ranges

The walk reads bits 12–38 of an address.  Sv39 addresses are canonical: bits
63–39 repeat bit 38, so they fill a lower half below `2^38` and an upper half
from `2^64 - 2^38` on, and the walk tells all of them apart.  Within one half,
sharing a leaf of some level is lying in the same aligned block of that
level's size. -/

/-- `[v, v + size)` lies in one half of the Sv39 address space. -/
def InHalf (v size : ℕ) : Prop :=
  v + size ≤ 2 ^ 38 ∨ 2 ^ 64 - 2 ^ 38 ≤ v ∧ v + size ≤ 2 ^ 64

instance (v size : ℕ) : Decidable (InHalf v size) :=
  inferInstanceAs (Decidable (_ ∨ _))

/-- `va` is a canonical Sv39 address. -/
def IsCanonical (va : ℕ) : Prop :=
  InHalf va 1

instance (va : ℕ) : Decidable (IsCanonical va) :=
  inferInstanceAs (Decidable (InHalf va 1))

theorem InHalf.of_le {v size offset len : ℕ} (h : InHalf v size) (hle : offset + len ≤ size) :
    InHalf (v + offset) len := by
  unfold InHalf at h ⊢
  omega

theorem InHalf.isCanonical {v size va : ℕ} (h : InHalf v size) (hlo : v ≤ va)
    (hhi : va < v + size) : IsCanonical va := by
  unfold IsCanonical InHalf at *
  omega

theorem sharesLeaf_iff {va a level : ℕ} (hva : IsCanonical va) (ha : InHalf a (levelSize level))
    (hlevel : level ≤ 2) (haligned : a % levelSize level = 0) :
    SharesLeaf va a level ↔ a ≤ va ∧ va < a + levelSize level := by
  unfold IsCanonical InHalf at hva
  unfold InHalf at ha
  rcases (by omega : level = 0 ∨ level = 1 ∨ level = 2) with rfl | rfl | rfl <;>
    simp only [SharesLeaf, entryIndex, Fin.ext_iff, levelSize] at haligned ha ⊢ <;> omega

/-- In a range within one half, the canonical addresses that go through a
chunk's leaf are the chunk's. -/
theorem ChunkFits.sharesLeaf_iff {v p size offset level va : ℕ}
    (hfits : ChunkFits v p size offset level) (hrange : InHalf v size) (hva : IsCanonical va) :
    SharesLeaf va (v + offset) level ↔ v + offset ≤ va ∧ va < v + offset + levelSize level :=
  RootPageTableHolder.sharesLeaf_iff hva (hrange.of_le hfits.le_size) hfits.level_le
    hfits.virtual_aligned

/-- In a page-aligned range within one half, a canonical address goes through
the leaf of one of the range's chunks exactly when it lies in the range. -/
theorem exists_sharesLeaf_mapChunks_iff {v p size va : ℕ} (hv : v % pageSize = 0)
    (hp : p % pageSize = 0) (hsize : size % pageSize = 0) (hrange : InHalf v size)
    (hva : IsCanonical va) :
    (∃ c ∈ mapChunks v p size 0, SharesLeaf va (v + c.1) c.2) ↔ v ≤ va ∧ va < v + size := by
  constructor
  · rintro ⟨c, hc, hshares⟩
    have hfits := (mapChunks_fits hv hp hsize 0 (by simp) c hc).2
    have := (hfits.sharesLeaf_iff hrange hva).mp hshares
    have := hfits.le_size
    omega
  · rintro ⟨hlo, hhi⟩
    obtain ⟨c, hc, hcx⟩ : ∃ c ∈ mapChunks v p size 0, c.1 ≤ va - v ∧ va - v < c.1 + levelSize c.2 :=
      mapChunks_cover 0 (va - v) (Nat.zero_le _) (by omega)
    have hfits := (mapChunks_fits hv hp hsize 0 (by simp) c hc).2
    exact ⟨c, hc, (hfits.sharesLeaf_iff hrange hva).mpr ⟨by omega, by omega⟩⟩

theorem mod_eq_sub_of_aligned {a x size : ℕ} (haligned : a % size = 0) (hlo : a ≤ x)
    (hhi : x < a + size) : x % size = x - a := by
  obtain ⟨d, rfl⟩ : ∃ d, x = a + d := ⟨x - a, by omega⟩
  rw [Nat.add_mod, haligned, zero_add, Nat.mod_mod, Nat.mod_eq_of_lt (by omega)]
  omega

/-- The leaf of a chunk sends each address of the chunk to the same distance
from `p` as the address has from `v`, as long as the physical address fits the
44-bit page number. -/
theorem leafAddress_leafEntry {v p size offset level va : ℕ} {privileges : XWRMode}
    {isUserModeAccessible : Bool} (hfits : ChunkFits v p size offset level)
    (hpa : p + offset < 2 ^ 56) (hlo : v + offset ≤ va) (hhi : va < v + offset + levelSize level) :
    leafAddress (leafEntry privileges (p + offset) isUserModeAccessible, level) va = p + (va - v) := by
  have hpage : (p + offset) % pageSize = 0 :=
    Nat.mod_eq_zero_of_dvd ((Nat.dvd_of_mod_eq_zero (levelSize_mod_pageSize level)).trans
      (Nat.dvd_of_mod_eq_zero hfits.physical_aligned))
  unfold leafAddress
  rw [leafEntry, PageTableEntry.getPhysicalAddress_of_lt hpage hpa,
    mod_eq_sub_of_aligned hfits.virtual_aligned hlo hhi]
  omega

end RootPageTableHolder

end Solaya
