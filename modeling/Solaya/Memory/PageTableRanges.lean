import Solaya.Memory.PageTableProgress

/-!
# What `map` makes of a range

`mapLoop_spec` says which leaves `map`'s loop writes; `map_freeIn` that the
loop runs to the end on a clear range of the lower half.  A program loader
reads the two together: every address of the range resolves to a valid leaf
with the requested permissions that sends it as far from the physical start as
it lies from the virtual one, and no other canonical address changes
(`MapsRange`).

A range of less than 2 MiB gets 4 KiB pages only, so it needs nothing but
unmapped pages, in either half of the address space (`map_pages`); this is
the case of the stack at the top of the upper half.  Such a map changes the
first-level slots of its own 1 GiB blocks only, so a clear range elsewhere
stays clear (`FreeIn.of_frame`).
-/

namespace Solaya

namespace RootPageTableHolder

/-- Every address of `[v, v + size)` resolves to a valid leaf with
`privileges` that sends it to the same distance from `p`. -/
def MapsOnto (root : FirstLevelTable) (v p size : ℕ) (privileges : XWRMode)
    (isUserModeAccessible : Bool) : Prop :=
  ∀ va, v ≤ va → va < v + size → ∃ leaf, resolve root va = some leaf ∧
    leaf.1.validity = true ∧ leaf.1.xwrMode = privileges ∧
    leaf.1.userModeAccessible = isUserModeAccessible ∧ leafAddress leaf va = p + (va - v)

/-- `root'` maps `[v, v + size)` onto `[p, p + size)` with `privileges`, and
agrees with `root` on every other canonical address. -/
structure MapsRange (root root' : FirstLevelTable) (v p size : ℕ) (privileges : XWRMode)
    (isUserModeAccessible : Bool) : Prop where
  wellFormed : WellFormed root'
  mapped : MapsOnto root' v p size privileges isUserModeAccessible
  frame : ∀ va, IsCanonical va → ¬(v ≤ va ∧ va < v + size) →
    resolve root' va = resolve root va

variable {root final : FirstLevelTable} {v p size : ℕ} {privileges : XWRMode}
  {isUserModeAccessible : Bool}

/-- A mapping survives every change that keeps its addresses. -/
theorem MapsOnto.congr {root' : FirstLevelTable}
    (hmaps : MapsOnto root v p size privileges isUserModeAccessible)
    (hsame : ∀ va, v ≤ va → va < v + size → resolve root' va = resolve root va) :
    MapsOnto root' v p size privileges isUserModeAccessible := by
  intro va hlo hhi
  rw [hsame va hlo hhi]
  exact hmaps va hlo hhi

/-- The leaves of a whole page-aligned range within one half map exactly the
range, as long as its physical end fits the 44-bit page number. -/
theorem LeavesWritten.mapsRange
    (hwritten : LeavesWritten root final v p privileges isUserModeAccessible (mapChunks v p size 0))
    (hv : v % pageSize = 0) (hp : p % pageSize = 0) (hsize : size % pageSize = 0)
    (hrange : InHalf v size) (hpend : p + size ≤ 2 ^ 56) :
    MapsRange root final v p size privileges isUserModeAccessible where
  wellFormed := hwritten.wellFormed
  mapped va hlo hhi := by
    have hva : IsCanonical va := hrange.isCanonical hlo hhi
    obtain ⟨c, hc, hshares⟩ :=
      (exists_sharesLeaf_mapChunks_iff hv hp hsize hrange hva).mpr ⟨hlo, hhi⟩
    have hfits := (mapChunks_fits hv hp hsize 0 (by simp) c hc).2
    obtain ⟨hclo, hchi⟩ := (hfits.sharesLeaf_iff hrange hva).mp hshares
    have hpa : p + c.1 < 2 ^ 56 := by
      have := hfits.le_size
      have := levelSize_pos c.2
      omega
    exact ⟨_, hwritten.written c hc va hshares, rfl, rfl, rfl,
      leafAddress_leafEntry hfits hpa hclo hchi⟩
  frame va hva hout := hwritten.frame va fun c hc hshares =>
    hout ((exists_sharesLeaf_mapChunks_iff hv hp hsize hrange hva).mp ⟨c, hc, hshares⟩)

/-- A clear range stays clear under a change that keeps its addresses and the
first-level slots of its addresses. -/
theorem FreeIn.of_frame {root' : FirstLevelTable} {lo hi : ℕ} (hfree : FreeIn root lo hi)
    (hresolve : ∀ va, lo ≤ va → va < hi → resolve root' va = resolve root va)
    (hfirst : ∀ b, lo ≤ b → b < hi →
      getEntryForVirtualAddress root' b 2 = getEntryForVirtualAddress root b 2) :
    FreeIn root' lo hi where
  unmapped va hlo hhi := by
    rw [hresolve va hlo hhi]
    exact hfree.unmapped va hlo hhi
  gibFree a hlo hhi haligned := by
    rw [hfirst a hlo (by unfold gib1 at hhi; omega)]
    exact hfree.gibFree a hlo hhi haligned
  mibFree a hlo hhi haligned s hs := by
    rw [secondSlot, hfirst a hlo (by unfold mib2 at hhi; omega)] at hs
    exact hfree.mibFree a hlo hhi haligned s hs

/-! ## Ranges of less than 2 MiB -/

/-- Below 2 MiB, unmapped is clear: no whole 1 GiB or 2 MiB block fits. -/
theorem freeIn_of_unmapped {lo hi : ℕ} (hsmall : hi < lo + mib2)
    (hunmapped : ∀ va, lo ≤ va → va < hi → resolve root va = none) : FreeIn root lo hi where
  unmapped := hunmapped
  gibFree a hlo hhi _ := by unfold gib1 mib2 at *; omega
  mibFree a hlo hhi _ := by omega

/-- `map`'s loop over fewer than 2 MiB of unmapped addresses within one half
runs to the end, and changes the first-level slots of the range's addresses
only. -/
theorem mapLoop_pages (hmode : privileges ≠ .pointerToNextLevel) (hv : v % pageSize = 0)
    (hp : p % pageSize = 0) (hsize : size % pageSize = 0) (hsmall : size < mib2)
    (hrange : InHalf v size) (hwf : WellFormed root)
    (hunmapped : ∀ va, v ≤ va → va < v + size → resolve root va = none) {fuel : ℕ}
    (hfuel : size ≤ fuel) :
    ∃ final, mapLoop v p size privileges isUserModeAccessible fuel root 0 = some final ∧
      ∀ b, (∀ va, v ≤ va → va < v + size → entryIndex b 2 ≠ entryIndex va 2) →
        getEntryForVirtualAddress final b 2 = getEntryForVirtualAddress root b 2 := by
  -- the invariant: the rest of the range is unmapped, and the first-level slots
  -- off the range are those of `root`
  let I : FirstLevelTable → ℕ → Prop := fun root' offset =>
    offset % pageSize = 0 ∧ offset ≤ size ∧ WellFormed root' ∧
      (∀ va, v + offset ≤ va → va < v + size → resolve root' va = none) ∧
      ∀ b, (∀ va, v ≤ va → va < v + size → entryIndex b 2 ≠ entryIndex va 2) →
        getEntryForVirtualAddress root' b 2 = getEntryForVirtualAddress root b 2
  have hstep : ∀ root' offset, offset < size → I root' offset →
      ∃ root'' offset', (mapStep root' v p size privileges isUserModeAccessible offset).map
          (fun step => (step.1, offset + step.2)) = some (root'', offset') ∧
        offset < offset' ∧ I root'' offset' := by
    rintro root' offset hlt ⟨hoffset, -, hwf', hrest, hslots⟩
    have hfree : FreeIn root' (v + offset) (v + size) :=
      freeIn_of_unmapped (by omega) hrest
    obtain ⟨root'', hstep⟩ := mapStep_isSome hwf' hv hp hoffset hfree le_rfl hlt
    obtain ⟨-, hwrite⟩ := mapStep_spec hwf' hmode hstep
    have hfits := chunkFits_chunkLevel hv hp hsize hoffset hlt
    have hpos := levelSize_pos (chunkLevel v p size offset)
    have hpath := mapStep_onPath hstep
    refine ⟨root'', offset + levelSize (chunkLevel v p size offset), by rw [hstep]; rfl,
      by omega, add_levelSize_mod_pageSize hoffset _, hfits.le_size, hwrite.wellFormed, ?_, ?_⟩
    · -- the new leaf covers its chunk only, which lies below the new offset
      intro va hlo hhi
      have hva : IsCanonical va := hrange.isCanonical (by omega) hhi
      rw [hwrite.frame va fun hshares => by
        have := (hfits.sharesLeaf_iff hrange hva).mp hshares
        omega]
      exact hrest va (by omega) hhi
    · intro b hb
      rw [hpath.first b (hb _ (by omega) (by omega))]
      exact hslots b hb
  obtain ⟨final, offset, hle, ⟨-, hoffset, -, -, hslots⟩, hloop⟩ := Loop.whileBelow_total I hstep
    fuel root 0 (by omega) ⟨rfl, Nat.zero_le _, hwf, by simpa using hunmapped, fun _ _ => rfl⟩
  exact ⟨final, hloop, hslots⟩

variable {holder : RootPageTableHolder}

/-- `map` of fewer than 2 MiB of unmapped, page-aligned addresses within one
half that meet no entry of `already_mapped` maps them, and changes the
first-level slots of the range's addresses only. -/
theorem map_pages (hmode : privileges ≠ .pointerToNextLevel) (hv : v % pageSize = 0)
    (hv0 : v ≠ 0) (hp : p % pageSize = 0) (hsize : size % pageSize = 0) (hpos : 0 < size)
    (hsmall : size < mib2) (hrange : InHalf v size) (hpend : p + size ≤ 2 ^ 56)
    (hwf : WellFormed holder.rootTable)
    (hunmapped : ∀ va, v ≤ va → va < v + size → resolve holder.rootTable va = none)
    (hnone : holder.alreadyMapped.any (·.contains (v, v + (size - 1))) = false) :
    ∃ root', holder.map v p size privileges isUserModeAccessible =
        some ⟨root', holder.alreadyMapped ++ [⟨(v, v + (size - 1)), privileges⟩]⟩ ∧
      MapsRange holder.rootTable root' v p size privileges isUserModeAccessible ∧
      ∀ b, (∀ va, v ≤ va → va < v + size → entryIndex b 2 ≠ entryIndex va 2) →
        getEntryForVirtualAddress root' b 2 = getEntryForVirtualAddress holder.rootTable b 2 := by
  obtain ⟨root', hloop, hslots⟩ := mapLoop_pages hmode hv hp hsize hsmall hrange hwf hunmapped le_rfl
  have hend : v + size ≤ 2 ^ 64 := by unfold InHalf at hrange; omega
  refine ⟨root', map_of_mapLoop hv hv0 hp hsize hpos hend (by omega) hnone hloop, ?_, hslots⟩
  exact (mapLoop_spec hmode hwf hloop).mapsRange hv hp hsize hrange hpend

/-- `map` of a page-aligned range inside a clear part of the lower half that
meets no entry of `already_mapped` maps it, and leaves the part above it
clear. -/
theorem map_freeIn_mapsRange {hi : ℕ} (hmode : privileges ≠ .pointerToNextLevel)
    (hv : v % pageSize = 0) (hv0 : v ≠ 0) (hp : p % pageSize = 0) (hsize : size % pageSize = 0)
    (hpos : 0 < size) (hpend : p + size ≤ 2 ^ 56) (hwf : WellFormed holder.rootTable)
    (hfree : FreeIn holder.rootTable v hi) (hend : v + size ≤ hi) (hhi : hi ≤ 2 ^ 38)
    (hnone : holder.alreadyMapped.any (·.contains (v, v + (size - 1))) = false) :
    ∃ root', holder.map v p size privileges isUserModeAccessible =
        some ⟨root', holder.alreadyMapped ++ [⟨(v, v + (size - 1)), privileges⟩]⟩ ∧
      MapsRange holder.rootTable root' v p size privileges isUserModeAccessible ∧
      FreeIn root' (v + size) hi := by
  obtain ⟨root', hmap, hloop, hfree'⟩ :=
    map_freeIn hmode hv hv0 hp hsize hpos (by omega) hwf hfree hend hhi hnone
  have hrange : InHalf v size := by unfold InHalf; omega
  exact ⟨root', hmap, (mapLoop_spec hmode hwf hloop).mapsRange hv hp hsize hrange hpend, hfree'⟩

end RootPageTableHolder

end Solaya
