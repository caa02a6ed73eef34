import Solaya.Memory.PageTableBookkeeping

/-!
# When the page loops run to the end

`map` asserts that every entry it turns into a leaf is still empty, and it
only meets a table where it wanted an empty entry where an earlier mapping
left one behind.  `FreeIn root lo hi` says that the range `[lo, hi)` of the
lower half is clear of such remains: no address there is mapped, and no
first-level entry of a 1 GiB block and no second-level entry of a 2 MiB block
inside it is valid.  On such a range `map`'s loop runs to the end and leaves
the part above what it mapped clear (`mapLoop_freeIn`).  `unmap_userspace` and
`mprotect` never make an entry valid (`SlotsShrink`), so they keep every range
clear; `unmapLoop_isSome` and `mprotectLoop_isSome` say when their loops run to
the end, and `mprotectLoop_eq_none` that `mprotect` of an unmapped page panics.
-/

namespace Solaya

namespace Slot

variable {α : Type}

@[simp] theorem null_physicalAddressIsZero : (Slot.null : Slot α).physicalAddressIsZero = true :=
  rfl

/-- A well-formed slot that is no leaf yields a table after `map`'s lazy
allocation. -/
theorem ensureTable_getTargetPageTable {wf : α → Prop} {slot : Slot α} (zero : α)
    (hwf : slot.WellFormed wf) (hleaf : slot.entry.validity = false ∨ slot.entry.isLeaf = false) :
    ∃ t, (slot.ensureTable zero).getTargetPageTable = some t := by
  rcases hwf with rfl | ⟨hvalid, hisLeaf, -⟩ | ⟨-, hisLeaf, t, htable, -⟩
  · exact ⟨zero, rfl⟩
  · simp [hvalid, hisLeaf] at hleaf
  · exact ⟨t, by simp [ensureTable, physicalAddressIsZero, htable, getTargetPageTable, hisLeaf]⟩

/-- The table `map` goes down into is the slot's own or the fresh one. -/
theorem ensureTable_getTargetPageTable_eq_some {slot : Slot α} {zero t : α}
    (h : (slot.ensureTable zero).getTargetPageTable = some t) : slot.table = some t ∨ t = zero := by
  unfold ensureTable getTargetPageTable at h
  split_ifs at h
  · exact .inr (Option.some.inj h).symm
  · exact .inl h

/-- A slot that reads as nothing is no leaf. -/
theorem not_leaf_of_resolveWith_eq_none {slot : Slot α} {level : ℕ}
    {below : α → Option (PageTableEntry × ℕ)} (h : slot.resolveWith level below = none) :
    slot.entry.validity = false ∨ slot.entry.isLeaf = false := by
  unfold resolveWith at h
  split_ifs at h with hvalid hleaf
  · exact .inl (by simpa using hvalid)
  · exact .inr (by simpa using hleaf)

end Slot

namespace RootPageTableHolder

/-- The second-level slot on the path of `va`, when the first-level slot has a
table. -/
def secondSlot (root : FirstLevelTable) (va : ℕ) : Option (Slot ThirdLevelTable) :=
  (getEntryForVirtualAddress root va 2).table.map (getEntryForVirtualAddress · va 1)

@[simp]
theorem secondSlot_setEntryForVirtualAddress (root : FirstLevelTable) (a b : ℕ)
    (slot : Slot SecondLevelTable) :
    secondSlot (setEntryForVirtualAddress root a 2 slot) b =
      if entryIndex b 2 = entryIndex a 2 then slot.table.map (getEntryForVirtualAddress · b 1)
      else secondSlot root b := by
  unfold secondSlot
  rw [getEntryForVirtualAddress_setEntryForVirtualAddress]
  split_ifs <;> rfl

/-! ## Indices in the lower half -/

section Index

variable {a b : ℕ}

/-- A 1 GiB block of the lower half above `a` has another first-level index. -/
theorem entryIndex_two_ne_of_lt (hab : a < b) (hb : b % gib1 = 0) (hhalf : b < 2 ^ 38) :
    entryIndex b 2 ≠ entryIndex a 2 := by
  simp only [ne_eq, entryIndex, Fin.ext_iff, gib1] at hb ⊢
  omega

/-- A 2 MiB block of the lower half above `a`, in the same 1 GiB block, has
another second-level index. -/
theorem entryIndex_one_ne_of_lt (hab : a < b) (hb : b % mib2 = 0) (hhalf : b < 2 ^ 38)
    (h2 : entryIndex b 2 = entryIndex a 2) : entryIndex b 1 ≠ entryIndex a 1 := by
  simp only [ne_eq, entryIndex, Fin.ext_iff, mib2] at hb h2 ⊢
  omega

end Index

/-! ## Writes stay on their path -/

/-- `root'` differs from `root` only on the path of `a`: the other first-level
slots are untouched, and a second-level slot under the first-level slot of `a`
but off its path is the old one or a fresh null one. -/
structure OnPath (root root' : FirstLevelTable) (a : ℕ) : Prop where
  first : ∀ b, entryIndex b 2 ≠ entryIndex a 2 →
    getEntryForVirtualAddress root' b 2 = getEntryForVirtualAddress root b 2
  second : ∀ b, entryIndex b 2 = entryIndex a 2 → entryIndex b 1 ≠ entryIndex a 1 →
    ∀ s, secondSlot root' b = some s → secondSlot root b = some s ∨ s = Slot.null

section Write

variable {root root' : FirstLevelTable} {a pa : ℕ} {privileges : XWRMode}
  {isUserModeAccessible : Bool}

/-- A write below the table `map` allocated or found on the path of `a`. -/
theorem onPath_of_ensureTable {second : SecondLevelTable} {slot : Slot ThirdLevelTable}
    (htarget : ((getEntryForVirtualAddress root a 2).ensureTable
      (PageTable.zero Slot.null)).getTargetPageTable = some second) :
    OnPath root (setEntryForVirtualAddress root a 2
      (((getEntryForVirtualAddress root a 2).ensureTable (PageTable.zero Slot.null)).withTable
        (setEntryForVirtualAddress second a 1 slot))) a := by
  refine ⟨fun b h2 => by simp [h2], fun b h2 h1 s hs => ?_⟩
  simp only [secondSlot_setEntryForVirtualAddress, if_pos h2, Slot.withTable_table,
    Option.map_some, getEntryForVirtualAddress_setEntryForVirtualAddress, if_neg h1,
    Option.some.injEq] at hs
  subst hs
  rcases Slot.ensureTable_getTargetPageTable_eq_some htarget with htable | rfl
  · left
    rw [secondSlot, show getEntryForVirtualAddress root b 2 = getEntryForVirtualAddress root a 2
      from congrArg root h2, htable, Option.map_some]
  · exact .inr rfl

theorem writeGiB_onPath (h : writeGiB root a pa privileges isUserModeAccessible = some root') :
    OnPath root root' a := by
  unfold writeGiB at h
  dsimp only at h
  split_ifs at h with hcheck
  obtain ⟨entry, -, rfl⟩ := Option.map_eq_some_iff.mp h
  -- the slot `map` turns into a leaf had no table, and still has none
  have hnone : (getEntryForVirtualAddress root a 2).table = none := by
    simp only [Bool.or_eq_true, Bool.not_eq_true', not_or, Bool.not_eq_false,
      Slot.physicalAddressIsZero, Bool.and_eq_true, Option.isNone_iff_eq_none] at hcheck
    exact hcheck.2.1
  refine ⟨fun b h2 => by simp [h2], fun b h2 _ s hs => ?_⟩
  simp [h2, hnone] at hs

theorem writeMiB_onPath (h : writeMiB root a pa privileges isUserModeAccessible = some root') :
    OnPath root root' a := by
  unfold writeMiB at h
  dsimp only at h
  obtain ⟨second, htarget, h⟩ := Option.bind_eq_some_iff.mp h
  split_ifs at h
  obtain ⟨entry, -, rfl⟩ := Option.map_eq_some_iff.mp h
  exact onPath_of_ensureTable htarget

theorem writePage_onPath (h : writePage root a pa privileges isUserModeAccessible = some root') :
    OnPath root root' a := by
  unfold writePage at h
  dsimp only at h
  obtain ⟨second, htarget, h⟩ := Option.bind_eq_some_iff.mp h
  obtain ⟨third, -, h⟩ := Option.bind_eq_some_iff.mp h
  split_ifs at h
  obtain ⟨entry, -, rfl⟩ := Option.map_eq_some_iff.mp h
  exact onPath_of_ensureTable htarget

/-- The 1 GiB branch of `map` succeeds on an invalid first-level slot. -/
theorem writeGiB_isSome (hwf : WellFormed root)
    (hfree : (getEntryForVirtualAddress root a 2).entry.validity = false) (hpa : pa % pageSize = 0) :
    ∃ root', writeGiB root a pa privileges isUserModeAccessible = some root' := by
  have hnull : getEntryForVirtualAddress root a 2 = Slot.null := (hwf.getEntry a).eq_null hfree
  unfold writeGiB
  simp only [hnull, Slot.null_entry, PageTableEntry.null_validity, Slot.null_physicalAddressIsZero,
    Bool.not_true, Bool.or_self, Bool.false_eq_true, if_false,
    PageTableEntry.setLeaf_of_aligned _ _ _ hpa, Option.map_some]
  exact ⟨_, rfl⟩

/-- The 2 MiB branch of `map` succeeds on an unmapped address whose
second-level slot, if any, is invalid. -/
theorem writeMiB_isSome (hwf : WellFormed root) (hnone : resolve root a = none)
    (hsecond : ∀ s, secondSlot root a = some s → s.entry.validity = false)
    (hpa : pa % pageSize = 0) :
    ∃ root', writeMiB root a pa privileges isUserModeAccessible = some root' := by
  obtain ⟨second, htarget⟩ := Slot.ensureTable_getTargetPageTable (PageTable.zero Slot.null)
    (hwf.getEntry a) (Slot.not_leaf_of_resolveWith_eq_none hnone)
  obtain ⟨-, -, hcase⟩ := Slot.ensureTable_target (hwf.getEntry a) htarget
  have hnull : getEntryForVirtualAddress second a 1 = Slot.null := by
    rcases hcase with ⟨-, rfl⟩ | ⟨-, -, htable, hwfs⟩
    · rfl
    · exact (hwfs.getEntry a).eq_null (hsecond _ (by simp [secondSlot, htable]))
  unfold writeMiB
  simp only [htarget, Option.bind_some, hnull, Slot.null_entry, PageTableEntry.null_validity,
    Slot.null_physicalAddressIsZero, Bool.not_true, Bool.or_self, Bool.false_eq_true, if_false,
    PageTableEntry.setLeaf_of_aligned _ _ _ hpa, Option.map_some]
  exact ⟨_, rfl⟩

/-- The 4 KiB branch of `map` succeeds on every unmapped address. -/
theorem writePage_isSome (hwf : WellFormed root) (hnone : resolve root a = none)
    (hpa : pa % pageSize = 0) :
    ∃ root', writePage root a pa privileges isUserModeAccessible = some root' := by
  obtain ⟨second, htarget⟩ := Slot.ensureTable_getTargetPageTable (PageTable.zero Slot.null)
    (hwf.getEntry a) (Slot.not_leaf_of_resolveWith_eq_none hnone)
  obtain ⟨hwfs, hread⟩ := resolve_eq_of_ensureTable hwf htarget
  have hnone₂ : resolveSecond second a = none := hread a rfl ▸ hnone
  obtain ⟨third, htarget₂⟩ := Slot.ensureTable_getTargetPageTable
    (PageTable.zero PageTableEntry.null) (hwfs.getEntry a)
    (Slot.not_leaf_of_resolveWith_eq_none hnone₂)
  have hnone₃ : resolveThird third a = none :=
    resolveSecond_eq_of_ensureTable hwfs htarget₂ a rfl ▸ hnone₂
  have hinvalid : (getEntryForVirtualAddress third a 0).validity = false := by
    simpa [resolveThird] using hnone₃
  unfold writePage
  simp only [htarget, htarget₂, Option.bind_some, hinvalid, Bool.false_eq_true, if_false,
    PageTableEntry.setLeaf_of_aligned _ _ _ hpa, Option.map_some]
  exact ⟨_, rfl⟩

end Write

/-! ## Ranges with room for new leaves -/

/-- `[lo, hi)` has room for leaves of every size: nothing in it is mapped, and
no entry for a whole 1 GiB or 2 MiB block inside it is valid. -/
structure FreeIn (root : FirstLevelTable) (lo hi : ℕ) : Prop where
  unmapped : ∀ va, lo ≤ va → va < hi → resolve root va = none
  gibFree : ∀ a, lo ≤ a → a + gib1 ≤ hi → a % gib1 = 0 →
    (getEntryForVirtualAddress root a 2).entry.validity = false
  mibFree : ∀ a, lo ≤ a → a + mib2 ≤ hi → a % mib2 = 0 →
    ∀ s, secondSlot root a = some s → s.entry.validity = false

variable {root root' : FirstLevelTable} {lo hi : ℕ}

theorem FreeIn.mono {lo' : ℕ} (h : FreeIn root lo hi) (hlo : lo ≤ lo') : FreeIn root lo' hi where
  unmapped va hva := h.unmapped va (hlo.trans hva)
  gibFree a ha := h.gibFree a (hlo.trans ha)
  mibFree a ha := h.mibFree a (hlo.trans ha)

theorem freeIn_empty (lo hi : ℕ) : FreeIn empty.rootTable lo hi where
  unmapped _ _ _ := rfl
  gibFree _ _ _ _ := rfl
  mibFree _ _ _ _ s hs := by simp [secondSlot, empty] at hs

/-- A leaf written at `a`, at or above `lo`, on its own path, leaves the range
above it clear. -/
theorem FreeIn.step {a level : ℕ} {leaf : PageTableEntry} (h : FreeIn root lo hi)
    (hhi : hi ≤ 2 ^ 38) (hwrite : LeafWrite root root' a level leaf) (hpath : OnPath root root' a)
    (hlo : lo ≤ a) (haligned : a % levelSize level = 0) (hlevel : level ≤ 2) :
    FreeIn root' (a + levelSize level) hi where
  unmapped va hva hvahi := by
    have hcanonical : IsCanonical va := by unfold IsCanonical InHalf; omega
    have hhalf : InHalf a (levelSize level) := by unfold InHalf; omega
    rw [hwrite.frame va fun hshares => by
      have := (sharesLeaf_iff hcanonical hhalf hlevel haligned).mp hshares
      omega]
    exact h.unmapped va (by omega) hvahi
  gibFree b hb hbhi hbaligned := by
    have hpos := levelSize_pos level
    rw [hpath.first b (entryIndex_two_ne_of_lt (by omega) hbaligned (by unfold gib1 at hbhi; omega))]
    exact h.gibFree b (by omega) hbhi hbaligned
  mibFree b hb hbhi hbaligned s hs := by
    have hpos := levelSize_pos level
    by_cases h2 : entryIndex b 2 = entryIndex a 2
    · -- the same 1 GiB block: the slot of `b` is off the path of `a`
      have h1 := entryIndex_one_ne_of_lt (by omega) hbaligned (by unfold mib2 at hbhi; omega) h2
      rcases hpath.second b h2 h1 s hs with hold | rfl
      · exact h.mibFree b (by omega) hbhi hbaligned s hold
      · rfl
    · rw [secondSlot, hpath.first b h2] at hs
      exact h.mibFree b (by omega) hbhi hbaligned s hs

/-! ## `map`'s loop on a clear range -/

section Map

variable {v p size offset : ℕ} {privileges : XWRMode} {isUserModeAccessible : Bool}

theorem mapStep_onPath {mapped : ℕ}
    (h : mapStep root v p size privileges isUserModeAccessible offset = some (root', mapped)) :
    OnPath root root' (v + offset) := by
  unfold mapStep at h
  dsimp only at h
  split_ifs at h <;> obtain ⟨root₁, hwrite, hpair⟩ := Option.map_eq_some_iff.mp h <;> cases hpair
  · exact writeGiB_onPath hwrite
  · exact writeMiB_onPath hwrite
  · exact writePage_onPath hwrite

/-- An iteration of `map`'s loop at an offset where the range is clear up to
its end succeeds. -/
theorem mapStep_isSome (hwf : WellFormed root) (hv : v % pageSize = 0) (hp : p % pageSize = 0)
    (hoffset : offset % pageSize = 0) (hfree : FreeIn root (v + offset) hi)
    (hend : v + size ≤ hi) (hlt : offset < size) :
    ∃ root', mapStep root v p size privileges isUserModeAccessible offset =
      some (root', levelSize (chunkLevel v p size offset)) := by
  have hva : (v + offset) % pageSize = 0 := by unfold pageSize at hv hoffset ⊢; omega
  have hpa : (p + offset) % pageSize = 0 := by unfold pageSize at hp hoffset ⊢; omega
  have hnone : resolve root (v + offset) = none := hfree.unmapped _ le_rfl (by omega)
  unfold mapStep chunkLevel
  dsimp only
  split_ifs with hgib hmib hunaligned
  · obtain ⟨hle, hva, -⟩ := canBeMappedWith_iff.mp hgib
    obtain ⟨root', hwrite⟩ : ∃ root', writeGiB root (v + offset) (p + offset) privileges
        isUserModeAccessible = some root' := writeGiB_isSome hwf
      (hfree.gibFree _ le_rfl (by omega) hva) hpa
    exact ⟨root', by rw [hwrite]; rfl⟩
  · obtain ⟨hle, hva, -⟩ := canBeMappedWith_iff.mp hmib
    obtain ⟨root', hwrite⟩ : ∃ root', writeMiB root (v + offset) (p + offset) privileges
        isUserModeAccessible = some root' := writeMiB_isSome hwf hnone
      (hfree.mibFree _ le_rfl (by omega) hva) hpa
    exact ⟨root', by rw [hwrite]; rfl⟩
  · simp [isAligned, hva, hpa] at hunaligned
  · obtain ⟨root', hwrite⟩ : ∃ root', writePage root (v + offset) (p + offset) privileges
        isUserModeAccessible = some root' := writePage_isSome hwf hnone hpa
    exact ⟨root', by rw [hwrite]; rfl⟩

/-- `map`'s loop over a page-aligned range inside a clear part of the lower
half runs to the end, and leaves what lies above the range clear. -/
theorem mapLoop_freeIn (hmode : privileges ≠ .pointerToNextLevel) (hv : v % pageSize = 0)
    (hp : p % pageSize = 0) (hsize : size % pageSize = 0) (hwf : WellFormed root)
    (hfree : FreeIn root v hi) (hend : v + size ≤ hi) (hhi : hi ≤ 2 ^ 38) {fuel : ℕ}
    (hfuel : size ≤ fuel) :
    ∃ final, mapLoop v p size privileges isUserModeAccessible fuel root 0 = some final ∧
      WellFormed final ∧ FreeIn final (v + size) hi := by
  -- the loop keeps the tree well formed and the range above the offset clear
  have hstep : ∀ root offset, offset < size →
      offset % pageSize = 0 ∧ offset ≤ size ∧ WellFormed root ∧ FreeIn root (v + offset) hi →
      ∃ root' offset', (mapStep root v p size privileges isUserModeAccessible offset).map
          (fun step => (step.1, offset + step.2)) = some (root', offset') ∧
        offset < offset' ∧ offset' % pageSize = 0 ∧ offset' ≤ size ∧ WellFormed root' ∧
          FreeIn root' (v + offset') hi := by
    rintro root offset hlt ⟨hoffset, -, hwf, hfree⟩
    obtain ⟨root', hstep⟩ := mapStep_isSome hwf hv hp hoffset hfree hend hlt
    obtain ⟨-, hwrite⟩ := mapStep_spec hwf hmode hstep
    have hfits := chunkFits_chunkLevel hv hp hsize hoffset hlt
    refine ⟨root', offset + levelSize (chunkLevel v p size offset), by rw [hstep]; rfl,
      by have := levelSize_pos (chunkLevel v p size offset); omega,
      add_levelSize_mod_pageSize hoffset _, hfits.le_size, hwrite.wellFormed, ?_⟩
    rw [← Nat.add_assoc]
    exact hfree.step hhi hwrite (mapStep_onPath hstep) le_rfl hfits.virtual_aligned hfits.level_le
  obtain ⟨final, offset, hle, ⟨-, hoffset, hwf', hfree'⟩, hloop⟩ := Loop.whileBelow_total
    (fun root offset => offset % pageSize = 0 ∧ offset ≤ size ∧ WellFormed root ∧
      FreeIn root (v + offset) hi) hstep fuel root 0 (by omega) ⟨rfl, Nat.zero_le _, hwf, hfree⟩
  -- the chunks fit the range exactly, so the loop stops at its end
  obtain rfl : offset = size := le_antisymm hoffset hle
  exact ⟨final, hloop, hwf', hfree'⟩

end Map

/-! ## Unmapping and reprotecting make no entry valid -/

/-- `root'` has no valid entry that `root` lacks: no address is mapped that was
not, and no first- or second-level entry became valid. -/
structure SlotsShrink (root root' : FirstLevelTable) : Prop where
  first : ∀ b, (getEntryForVirtualAddress root' b 2).entry.validity = true →
    (getEntryForVirtualAddress root b 2).entry.validity = true
  second : ∀ b s', secondSlot root' b = some s' → s'.entry.validity = true →
    ∃ s, secondSlot root b = some s ∧ s.entry.validity = true
  mapped : ∀ va, (resolve root' va).isSome → (resolve root va).isSome

theorem SlotsShrink.refl (root : FirstLevelTable) : SlotsShrink root root :=
  ⟨fun _ h => h, fun _ s' hs hvalid => ⟨s', hs, hvalid⟩, fun _ h => h⟩

theorem SlotsShrink.trans {root₂ : FirstLevelTable} (h₁ : SlotsShrink root root')
    (h₂ : SlotsShrink root' root₂) : SlotsShrink root root₂ where
  first b hb := h₁.first b (h₂.first b hb)
  second b s₂ hs₂ hvalid := by
    obtain ⟨s', hs', hvalid'⟩ := h₂.second b s₂ hs₂ hvalid
    exact h₁.second b s' hs' hvalid'
  mapped va hva := h₁.mapped va (h₂.mapped va hva)

/-- A range that was clear stays clear. -/
theorem FreeIn.shrink (h : FreeIn root lo hi) (hshrink : SlotsShrink root root') :
    FreeIn root' lo hi where
  unmapped va hlo hhi := by
    have hnone := h.unmapped va hlo hhi
    cases hres : resolve root' va with
    | none => rfl
    | some leaf => simpa [hnone] using hshrink.mapped va (by simp [hres])
  gibFree a hlo hhi haligned := by
    have hfree := h.gibFree a hlo hhi haligned
    by_contra hvalid
    simpa [hfree] using hshrink.first a (by simpa using hvalid)
  mibFree a hlo hhi haligned s' hs' := by
    by_contra hvalid
    obtain ⟨s, hs, hvalid'⟩ := hshrink.second a s' hs' (by simpa using hvalid)
    simp [h.mibFree a hlo hhi haligned s hs] at hvalid'

/-- Rewriting the second-level table under the first-level slot of `a` with an
entry that is only valid where the old one was. -/
theorem slotsShrink_of_withTable {second : SecondLevelTable} {slot : Slot ThirdLevelTable} {a : ℕ}
    (htable : (getEntryForVirtualAddress root a 2).table = some second)
    (hslot : slot.entry.validity = true →
      (getEntryForVirtualAddress second a 1).entry.validity = true)
    (hmapped : ∀ va, (resolve root' va).isSome → (resolve root va).isSome)
    (hroot' : root' = setEntryForVirtualAddress root a 2
      ((getEntryForVirtualAddress root a 2).withTable (setEntryForVirtualAddress second a 1 slot))) :
    SlotsShrink root root' := by
  subst hroot'
  refine ⟨fun b hb => ?_, fun b s' hs' hvalid => ?_, hmapped⟩
  · rw [getEntryForVirtualAddress_setEntryForVirtualAddress] at hb
    split_ifs at hb with h2
    · rwa [show getEntryForVirtualAddress root b 2 = getEntryForVirtualAddress root a 2 from
        congrArg root h2]
    · exact hb
  · have hsame : ∀ c, entryIndex c 2 = entryIndex a 2 →
        secondSlot root c = some (getEntryForVirtualAddress second c 1) := fun c h2 => by
      rw [secondSlot, show getEntryForVirtualAddress root c 2 = getEntryForVirtualAddress root a 2
        from congrArg root h2, htable, Option.map_some]
    rw [secondSlot_setEntryForVirtualAddress] at hs'
    split_ifs at hs' with h2
    · simp only [Slot.withTable_table, Option.map_some, Option.some.injEq,
        getEntryForVirtualAddress_setEntryForVirtualAddress] at hs'
      split_ifs at hs' with h1
      · subst hs'
        exact ⟨_, hsame b h2, by rw [show getEntryForVirtualAddress second b 1 =
          getEntryForVirtualAddress second a 1 from congrArg second h1]; exact hslot hvalid⟩
      · subst hs'
        exact ⟨_, hsame b h2, hvalid⟩
    · exact ⟨s', hs', hvalid⟩

/-- A cleared leaf takes no entry along with it that was not valid. -/
theorem unmapStep_shrink {a step : ℕ} (hwf : WellFormed root)
    (h : unmapStep root a = some (root', step)) : SlotsShrink root root' := by
  obtain ⟨⟨entry, level⟩, -, -, hclear⟩ := unmapStep_spec hwf h
  have hmapped : ∀ va, (resolve root' va).isSome → (resolve root va).isSome := fun va hva => by
    by_cases hshares : SharesLeaf va a level
    · simp [hclear.cleared va hshares] at hva
    · rwa [← hclear.frame va hshares]
  unfold unmapStep at h
  dsimp only at h
  split_ifs at h with hvalid hleaf
  · -- a 1 GiB leaf: its slot becomes null
    cases h
    refine ⟨fun b hb => ?_, fun b s' hs' _ => ?_, hmapped⟩
    · rw [getEntryForVirtualAddress_setEntryForVirtualAddress] at hb
      split_ifs at hb
      · simp at hb
      · exact hb
    · rw [secondSlot_setEntryForVirtualAddress] at hs'
      split_ifs at hs'
      · simp at hs'
      · exact ⟨s', hs', ‹_›⟩
  obtain ⟨second, htarget, h⟩ := Option.bind_eq_some_iff.mp h
  obtain ⟨-, htable⟩ := Slot.getTargetPageTable_eq_some htarget
  split_ifs at h with hvalid₂ hleaf₂
  · -- a 2 MiB leaf: its second-level slot becomes null
    cases h
    exact slotsShrink_of_withTable htable (by simp) hmapped rfl
  · -- a 4 KiB leaf: the second-level slot keeps its entry
    obtain ⟨third, -, h⟩ := Option.bind_eq_some_iff.mp h
    split_ifs at h
    cases h
    exact slotsShrink_of_withTable htable (by simp) hmapped rfl

/-- The write of `mprotect` keeps every entry's valid bit. -/
theorem updatePageTableEntryForAddress_shrink {a : ℕ} {mode : XWRMode} (hwf : WellFormed root)
    (h : updatePageTableEntryForAddress root a (·.setXwrMode mode) = some (some root')) :
    SlotsShrink root root' := by
  have hmapped : ∀ va, (resolve root' va).isSome → (resolve root va).isSome := fun va hva => by
    have := (updatePageTableEntryForAddress_reprotected hwf h).levels va
    have hsome := congrArg Option.isSome this
    rw [Option.isSome_map, Option.isSome_map] at hsome
    rw [← hsome]
    exact hva
  unfold updatePageTableEntryForAddress at h
  dsimp only at h
  split_ifs at h
  · simp at h
  obtain ⟨second, htarget, h⟩ := Option.bind_eq_some_iff.mp h
  obtain ⟨-, htable⟩ := Slot.getTargetPageTable_eq_some htarget
  split_ifs at h
  · simp at h
  obtain ⟨third, -, h⟩ := Option.bind_eq_some_iff.mp h
  split_ifs at h
  · simp at h
  cases h
  exact slotsShrink_of_withTable htable (by simp) hmapped rfl

theorem unmapLoop_shrink {v size fuel offset : ℕ} (hwf : WellFormed root)
    (h : unmapLoop v size fuel root offset = some root') : SlotsShrink root root' := by
  refine Loop.whileBelow_rel (fun root _ final => WellFormed root → SlotsShrink root final)
    (fun root _ _ _ => SlotsShrink.refl root) ?_ fuel root offset root' h hwf
  intro root offset root₁ offset₁ final _ hbody hrest hwf
  obtain ⟨addr, -, hbody⟩ := Option.bind_eq_some_iff.mp hbody
  obtain ⟨⟨root₂, step⟩, hstep, hbody⟩ := Option.bind_eq_some_iff.mp hbody
  obtain ⟨offset₂, -, hpair⟩ := Option.bind_eq_some_iff.mp hbody
  cases hpair
  obtain ⟨leaf, -, -, hclear⟩ := unmapStep_spec hwf hstep
  exact (unmapStep_shrink hwf hstep).trans (hrest hclear.wellFormed)

theorem mprotectLoop_shrink {addr size fuel offset : ℕ} {mode : XWRMode} (hwf : WellFormed root)
    (h : mprotectLoop addr size mode fuel root offset = some root') : SlotsShrink root root' := by
  refine Loop.whileBelow_rel (fun root _ final => WellFormed root → SlotsShrink root final)
    (fun root _ _ _ => SlotsShrink.refl root) ?_ fuel root offset root' h hwf
  intro root offset root₁ offset₁ final _ hbody hrest hwf
  obtain ⟨pageAddr, -, hbody⟩ := Option.bind_eq_some_iff.mp hbody
  obtain ⟨written, hupdate, hbody⟩ := Option.bind_eq_some_iff.mp hbody
  obtain ⟨root₂, hjoin, hpair⟩ := Option.bind_eq_some_iff.mp hbody
  cases hpair
  cases written with
  | none => simp at hjoin
  | some root₂' =>
      cases hjoin
      exact (updatePageTableEntryForAddress_shrink hwf hupdate).trans
        (hrest (updatePageTableEntryForAddress_reprotected hwf hupdate).wellFormed)

/-! ## When `unmap_userspace` and `mprotect` run to the end -/

/-- `unmap_userspace`'s step succeeds on every mapped address. -/
theorem unmapStep_isSome {a : ℕ} (hwf : WellFormed root) (hmapped : (resolve root a).isSome) :
    ∃ root' step, unmapStep root a = some (root', step) := by
  unfold unmapStep
  dsimp only
  rcases hwf.getEntry a with hnull | ⟨hvalid, hleaf, -⟩ | ⟨hvalid, hleaf, second, htable, hwfs⟩
  · simp [resolve, hnull] at hmapped
  · simp [hvalid, hleaf]
  -- a pointer: the address is mapped in the second-level table
  have htarget : (getEntryForVirtualAddress root a 2).getTargetPageTable = some second := by
    simp [Slot.getTargetPageTable, hleaf, htable]
  have hmapped₂ : (resolveSecond second a).isSome := by
    rwa [resolve_of_pointer hvalid hleaf htable rfl] at hmapped
  rcases hwfs.getEntry a with hnull₂ | ⟨hvalid₂, hleaf₂, -⟩ |
    ⟨hvalid₂, hleaf₂, third, htable₂, -⟩
  · simp [resolveSecond, hnull₂] at hmapped₂
  · simp [hvalid, hleaf, htarget, hvalid₂, hleaf₂]
  have hmapped₃ : (resolveThird third a).isSome := by
    rwa [resolveSecond_of_pointer hvalid₂ hleaf₂ htable₂ rfl] at hmapped₂
  have htarget₂ : (getEntryForVirtualAddress second a 1).getTargetPageTable = some third := by
    simp [Slot.getTargetPageTable, hleaf₂, htable₂]
  have hvalid₃ : (getEntryForVirtualAddress third a 0).validity = true := by
    unfold resolveThird at hmapped₃
    dsimp only at hmapped₃
    split_ifs at hmapped₃ with hvalid₃
    · exact hvalid₃
    · simp at hmapped₃
  simp [hvalid, hleaf, htarget, hvalid₂, hleaf₂, htarget₂, hvalid₃]

/-- The write of `get_page_table_entry_for_address_mut` succeeds on every
address under a 4 KiB leaf. -/
theorem updatePageTableEntryForAddress_isSome {a : ℕ} {f : PageTableEntry → PageTableEntry}
    {entry : PageTableEntry} (hwf : WellFormed root) (hpage : resolve root a = some (entry, 0)) :
    ∃ root', updatePageTableEntryForAddress root a f = some (some root') := by
  unfold updatePageTableEntryForAddress
  dsimp only
  -- a 4 KiB leaf lies under two pointers
  rcases hwf.getEntry a with hnull | ⟨hvalid, hleaf, -⟩ | ⟨hvalid, hleaf, second, htable, hwfs⟩
  · simp [resolve, hnull] at hpage
  · simp [resolve, Slot.resolveWith, hvalid, hleaf] at hpage
  have htarget : (getEntryForVirtualAddress root a 2).getTargetPageTable = some second := by
    simp [Slot.getTargetPageTable, hleaf, htable]
  have hpage₂ : resolveSecond second a = some (entry, 0) := by
    rwa [resolve_of_pointer hvalid hleaf htable rfl] at hpage
  rcases hwfs.getEntry a with hnull₂ | ⟨hvalid₂, hleaf₂, -⟩ |
    ⟨hvalid₂, hleaf₂, third, htable₂, -⟩
  · simp [resolveSecond, hnull₂] at hpage₂
  · simp [resolveSecond, Slot.resolveWith, hvalid₂, hleaf₂] at hpage₂
  have hpage₃ : resolveThird third a = some (entry, 0) := by
    rwa [resolveSecond_of_pointer hvalid₂ hleaf₂ htable₂ rfl] at hpage₂
  have htarget₂ : (getEntryForVirtualAddress second a 1).getTargetPageTable = some third := by
    simp [Slot.getTargetPageTable, hleaf₂, htable₂]
  have hvalid₃ : (getEntryForVirtualAddress third a 0).validity = true := by
    unfold resolveThird at hpage₃
    dsimp only at hpage₃
    split_ifs at hpage₃ with hvalid₃
    · exact hvalid₃
  simp [hvalid, htarget, hvalid₂, htarget₂, hvalid₃]

section Loops

variable {v p size : ℕ}

/-- `unmap_userspace`'s loop over a whole mapping whose leaves are still the
ones `map` wrote runs to the end. -/
theorem unmapLoop_isSome (hv : v % pageSize = 0) (hp : p % pageSize = 0)
    (hsize : size % pageSize = 0) (hrange : InHalf v size) (hwf : WellFormed root)
    (hchunks : ChunksAt root v p size 0) {fuel : ℕ} (hfuel : size ≤ fuel) :
    ∃ final, unmapLoop v size fuel root 0 = some final := by
  have hhalf : v + size ≤ 2 ^ 64 ∧ size ≤ 2 ^ 38 := by unfold InHalf at hrange; omega
  -- each iteration clears the leaf of the next chunk, which is still there
  have hstep : ∀ root offset, offset < size →
      offset % pageSize = 0 ∧ WellFormed root ∧ ChunksAt root v p size offset →
      ∃ root' offset', (do
          let addr ← checkedAdd v offset
          let step ← unmapStep root addr
          let offset' ← checkedAdd offset step.2
          some (step.1, offset')) = some (root', offset') ∧
        offset < offset' ∧ offset' % pageSize = 0 ∧ WellFormed root' ∧
          ChunksAt root' v p size offset' := by
    rintro root offset hlt ⟨hoffset, hwf, hchunks⟩
    have hfirst := hchunks (offset, chunkLevel v p size offset)
      (by rw [mapChunks_of_lt hlt]; exact List.mem_cons_self) (v + offset) le_rfl
      (by have := levelSize_pos (chunkLevel v p size offset); simp only; omega)
    obtain ⟨root', step, hunmap⟩ := unmapStep_isSome hwf (by
      have hsome := congrArg Option.isSome hfirst
      rwa [Option.isSome_map] at hsome)
    obtain ⟨rfl, hclear, hchunks'⟩ := hchunks.unmapStep hv hp hsize hrange hoffset hwf hlt hunmap
    have hfits := chunkFits_chunkLevel hv hp hsize hoffset hlt
    have hle := hfits.le_size
    refine ⟨root', offset + levelSize (chunkLevel v p size offset), ?_,
      by have := levelSize_pos (chunkLevel v p size offset); omega,
      add_levelSize_mod_pageSize hoffset _, hclear.wellFormed, hchunks'⟩
    have haddr : v + offset ≤ usizeMax := by unfold usizeMax; omega
    have hnext : offset + levelSize (chunkLevel v p size offset) ≤ usizeMax := by
      unfold usizeMax; omega
    simp [checkedAdd_of_le haddr, hunmap, checkedAdd_of_le hnext]
  obtain ⟨final, -, -, -, hloop⟩ := Loop.whileBelow_total
    (fun root offset => offset % pageSize = 0 ∧ WellFormed root ∧ ChunksAt root v p size offset)
    hstep fuel root 0 (by omega) ⟨rfl, hwf, hchunks⟩
  exact ⟨final, hloop⟩

variable {addr : ℕ} {mode : XWRMode}

/-- `mprotect`'s page loop runs to the end when every page of the range is
mapped by a 4 KiB leaf. -/
theorem mprotectLoop_isSome (hwf : WellFormed root) (hend : addr + size ≤ 2 ^ 64)
    (hsize : size % pageSize = 0)
    (hpages : ∀ offset, offset < size → offset % pageSize = 0 →
      (resolve root (addr + offset)).map Prod.snd = some 0) {fuel : ℕ} (hfuel : size ≤ fuel) :
    ∃ final, mprotectLoop addr size mode fuel root 0 = some final := by
  -- the pages still to come keep their 4 KiB leaves
  have hstep : ∀ root offset, offset < size →
      offset % pageSize = 0 ∧ WellFormed root ∧ (∀ o, offset ≤ o → o < size → o % pageSize = 0 →
        (resolve root (addr + o)).map Prod.snd = some 0) →
      ∃ root' offset', (do
          let pageAddr ← checkedAdd addr offset
          let root' ← (← updatePageTableEntryForAddress root pageAddr (·.setXwrMode mode))
          some (root', offset + pageSize)) = some (root', offset') ∧
        offset < offset' ∧ (offset' % pageSize = 0 ∧ WellFormed root' ∧
          ∀ o, offset' ≤ o → o < size → o % pageSize = 0 →
            (resolve root' (addr + o)).map Prod.snd = some 0) := by
    rintro root offset hlt ⟨hoffset, hwf, hrest⟩
    obtain ⟨⟨entry, level⟩, hentry, hlevel⟩ := Option.map_eq_some_iff.mp
      (hrest offset le_rfl hlt hoffset)
    dsimp only at hlevel
    subst hlevel
    obtain ⟨root', hupdate⟩ : ∃ root', updatePageTableEntryForAddress root (addr + offset)
        (·.setXwrMode mode) = some (some root') := updatePageTableEntryForAddress_isSome hwf hentry
    have hprot := updatePageTableEntryForAddress_reprotected hwf hupdate
    refine ⟨root', offset + pageSize, ?_, by unfold pageSize; omega,
      by unfold pageSize at hoffset ⊢; omega, hprot.wellFormed,
      fun o hlo hhi ho => by rw [hprot.levels]; exact hrest o (by omega) hhi ho⟩
    have hsizes : offset + pageSize ≤ size := by unfold pageSize at hoffset hsize ⊢; omega
    have haddr : addr + offset ≤ usizeMax := by unfold usizeMax; omega
    simp [checkedAdd_of_le haddr, hupdate]
  obtain ⟨final, -, -, -, hloop⟩ := Loop.whileBelow_total _ hstep fuel root 0 (by omega)
    ⟨rfl, hwf, fun o _ => hpages o⟩
  exact ⟨final, hloop⟩

/-- `mprotect`'s page loop panics (`expect("mprotect: page not mapped")`) when a
page of the range that it has not passed yet is unmapped. -/
theorem mprotectLoop_eq_none (hwf : WellFormed root) {page : ℕ} (hpage : page < size)
    (haligned : page % pageSize = 0) (hunmapped : resolve root (addr + page) = none)
    {fuel offset : ℕ} (hoffset : offset % pageSize = 0) (hle : offset ≤ page) :
    mprotectLoop addr size mode fuel root offset = none := by
  -- the loop never gets past `page`: every iteration before it keeps it unmapped
  refine Loop.whileBelow_eq_none (fun root offset => offset % pageSize = 0 ∧ offset ≤ page ∧
      WellFormed root ∧ resolve root (addr + page) = none) (fun _ _ h => by omega) ?_ fuel root
    offset ⟨hoffset, hle, hwf, hunmapped⟩
  rintro root offset root' offset' ⟨hoffset, hle, hwf, hunmapped⟩ hbody
  obtain ⟨pageAddr, hpageAddr, hbody⟩ := Option.bind_eq_some_iff.mp hbody
  obtain ⟨written, hupdate, hbody⟩ := Option.bind_eq_some_iff.mp hbody
  obtain ⟨root₂, hjoin, hpair⟩ := Option.bind_eq_some_iff.mp hbody
  cases hpair
  cases written with
  | none => simp at hjoin
  | some root₂' =>
      cases hjoin
      obtain ⟨rfl, -⟩ := checkedAdd_eq_some hpageAddr
      obtain ⟨entry, hentry, hwf', -, hframe⟩ :=
        updatePageTableEntryForAddress_spec (fun _ => PageTableEntry.setXwrMode_validity _ _) hwf
          hupdate
      -- the page written was mapped, so it is not `page`, nor under the same leaf
      have hnotShares : ¬SharesLeaf (addr + page) (addr + offset) 0 := fun hshares => by
        simp [resolve_of_sharesLeaf hentry hshares] at hunmapped
      have hne : offset ≠ page := fun h => hnotShares (by subst h; exact ⟨rfl, rfl, rfl⟩)
      refine ⟨by unfold pageSize at hoffset haligned ⊢; omega,
        by unfold pageSize at hoffset haligned ⊢; omega, hwf', ?_⟩
      rw [hframe _ hnotShares, hunmapped]

end Loops

/-! ## The holder -/

/-- Every page of `[addr, addr + size)` is mapped by a 4 KiB leaf. -/
def PagesMapped4K (root : FirstLevelTable) (addr size : ℕ) : Prop :=
  ∀ i, i < size / pageSize → (resolve root (addr + i * pageSize)).map Prod.snd = some 0

instance (root : FirstLevelTable) (addr size : ℕ) : Decidable (PagesMapped4K root addr size) :=
  inferInstanceAs (Decidable (∀ i, i < size / pageSize → _))

theorem PagesMapped4K.offset {addr size offset : ℕ} (h : PagesMapped4K root addr size)
    (hsize : size % pageSize = 0) (hlt : offset < size) (haligned : offset % pageSize = 0) :
    (resolve root (addr + offset)).map Prod.snd = some 0 := by
  have hindex : offset / pageSize < size / pageSize := by
    unfold pageSize at hsize haligned ⊢
    omega
  rw [← Nat.div_mul_cancel (Nat.dvd_of_mod_eq_zero haligned)]
  exact h _ hindex

/-- Every address of a range whose pages are all mapped is mapped. -/
theorem PagesMapped4K.isSome {addr size va : ℕ}
    (h : PagesMapped4K root addr size) (haddr : addr % pageSize = 0) (hsize : size % pageSize = 0)
    (hlo : addr ≤ va) (hhi : va < addr + size) : (resolve root va).isSome := by
  -- the page of `va` starts a whole number of pages after `addr`
  have hlt : (va - addr) / pageSize * pageSize < size := by
    unfold pageSize at hsize ⊢
    omega
  have hpage := h.offset hsize hlt (Nat.mul_mod_left _ _)
  have hdiv : (addr + (va - addr) / pageSize * pageSize) / pageSize = va / pageSize := by
    unfold pageSize at haddr ⊢
    omega
  rw [← resolve_eq_of_div_eq hdiv]
  simpa using congrArg Option.isSome hpage

variable {holder : RootPageTableHolder}

/-- `map` of a page-aligned range inside a clear part of the lower half that
meets no entry of `already_mapped` runs to the end and leaves the part above
the range clear. -/
theorem map_freeIn {v p size hi : ℕ} {privileges : XWRMode} {isUserModeAccessible : Bool}
    (hmode : privileges ≠ .pointerToNextLevel) (hv : v % pageSize = 0) (hv0 : v ≠ 0)
    (hp : p % pageSize = 0) (hsize : size % pageSize = 0) (hpos : 0 < size)
    (hpend : p + size ≤ 2 ^ 64) (hwf : WellFormed holder.rootTable)
    (hfree : FreeIn holder.rootTable v hi) (hend : v + size ≤ hi) (hhi : hi ≤ 2 ^ 38)
    (hnone : holder.alreadyMapped.any (·.contains (v, v + (size - 1))) = false) :
    ∃ root', holder.map v p size privileges isUserModeAccessible =
        some ⟨root', holder.alreadyMapped ++ [⟨(v, v + (size - 1)), privileges⟩]⟩ ∧
      mapLoop v p size privileges isUserModeAccessible size holder.rootTable 0 = some root' ∧
      FreeIn root' (v + size) hi := by
  obtain ⟨root', hloop, -, hfree'⟩ := mapLoop_freeIn hmode hv hp hsize hwf hfree hend hhi le_rfl
  exact ⟨root', map_of_mapLoop hv hv0 hp hsize hpos (by omega) hpend hnone hloop, hloop, hfree'⟩

/-- `mprotect` of a page-aligned range whose pages are all 4 KiB leaves runs to
the end. -/
theorem mprotect_isSome {addr size : ℕ} (mode : XWRMode) (hwf : WellFormed holder.rootTable)
    (haddr : addr % pageSize = 0) (hpos : 0 < size) (hsize : size % pageSize = 0)
    (hend : addr + size ≤ 2 ^ 64) (hpages : PagesMapped4K holder.rootTable addr size) :
    ∃ holder', holder.mprotect addr size mode = some holder' := by
  obtain ⟨final, hloop⟩ : ∃ final, mprotectLoop addr size mode size holder.rootTable 0 = some final :=
    mprotectLoop_isSome hwf hend hsize (fun _ hlt ho => hpages.offset hsize hlt ho) le_rfl
  simp [mprotect, haddr, hpos, hsize, hloop]

/-- `mprotect` panics when a page of its range is unmapped. -/
theorem mprotect_eq_none {addr size page : ℕ} (mode : XWRMode) (hwf : WellFormed holder.rootTable)
    (hpage : page < size) (haligned : page % pageSize = 0)
    (hunmapped : resolve holder.rootTable (addr + page) = none) :
    holder.mprotect addr size mode = none := by
  unfold mprotect
  split_ifs
  · rfl
  · rw [mprotectLoop_eq_none hwf hpage haligned hunmapped (Nat.zero_mod _) (Nat.zero_le _)]
    rfl

/-- `unmap_userspace` of exactly a listed range runs to the end. -/
theorem Consistent.unmapUserspace_isSome (h : holder.Consistent) {v size : ℕ} (hpos : 0 < size)
    (hmem : (v, v + size - 1) ∈ holder.alreadyMapped.map (·.virtualRange)) :
    ∃ holder', holder.unmapUserspace v size = some holder' := by
  have hr := h.pageRanges _ hmem
  obtain ⟨p, hp, hchunks⟩ := h.chunked _ hmem
  have hlen : v + size - 1 + 1 - v = size := by omega
  have hrange : InHalf v size := by simpa [hlen] using hr.inHalf
  have hsize : size % pageSize = 0 := by simpa [hlen] using hr.size_mod
  dsimp only at hchunks
  rw [hlen] at hchunks
  obtain ⟨final, hloop⟩ :=
    unmapLoop_isSome hr.start_aligned hp hsize hrange h.wellFormed hchunks le_rfl
  -- `position` finds an entry that starts at `v`
  obtain ⟨entry, hentry, hstart⟩ := List.mem_map.mp hmem
  obtain ⟨idx, hidx⟩ : ∃ idx, holder.alreadyMapped.findIdx? (·.virtualRange.1 == v) = some idx :=
    Option.isSome_iff_exists.mp (by
      rw [List.findIdx?_isSome, List.any_eq_true]
      exact ⟨entry, hentry, by simp [hstart]⟩)
  unfold RootPageTableHolder.unmapUserspace
  simp [hr.start_aligned, hpos.ne', hidx, hloop]

/-- `unmap_userspace` of exactly a listed range removes that range and no
other, keeps the agreement and makes no entry valid. -/
theorem Consistent.unmapUserspace_of_mem (h : holder.Consistent) {v size : ℕ} (hpos : 0 < size)
    (hmem : (v, v + size - 1) ∈ holder.alreadyMapped.map (·.virtualRange))
    (hserve : holder.unmapUserspace v size = some holder') :
    holder'.Consistent ∧ SlotsShrink holder.rootTable holder'.rootTable ∧
      (∀ r ∈ holder'.alreadyMapped.map (·.virtualRange),
        r ∈ holder.alreadyMapped.map (·.virtualRange)) ∧
      ∀ r ∈ holder.alreadyMapped.map (·.virtualRange), r.1 ≠ v →
        r ∈ holder'.alreadyMapped.map (·.virtualRange) := by
  -- the entry `position` finds is the listed range, the only one starting at `v`
  have hcontract : (Request.unmapUserspace v size).withinContract holder = true := by
    obtain ⟨entry, hentry, hstart⟩ := List.mem_map.mp hmem
    obtain ⟨found, hfind⟩ : ∃ found,
        holder.alreadyMapped.find? (·.virtualRange.1 == v) = some found :=
      Option.isSome_iff_exists.mp (List.find?_isSome.mpr ⟨entry, hentry, by simp [hstart]⟩)
    have hfound : found.virtualRange = (v, v + size - 1) := by
      have hstart' : found.virtualRange.1 = v := by simpa using List.find?_some hfind
      exact h.eq_of_start_eq (List.mem_map_of_mem (List.mem_of_find?_eq_some hfind)) hmem hstart'
    simp only [Request.withinContract, hfind, Option.any_some, hfound, beq_iff_eq]
    omega
  obtain ⟨idx, entry, hidx, hstart, hend, hloop, halready⟩ :=
    unmapUserspace_withinContract hcontract hserve
  obtain ⟨hlt, rfl⟩ := List.getElem?_eq_some_iff.mp hidx
  refine ⟨?_, unmapLoop_shrink h.wellFormed hloop, ?_, ?_⟩
  · unfold Consistent
    rw [halready]
    exact (h.unmapUserspace hidx hstart hend hloop).1
  · intro r hr
    rw [halready, List.mem_map] at hr
    obtain ⟨e, he, rfl⟩ := hr
    rw [Vec.mem_swapRemove hlt] at he
    exact List.mem_map_of_mem (List.mem_of_mem_eraseIdx he)
  · intro r hr hne
    obtain ⟨e, he, rfl⟩ := List.mem_map.mp hr
    obtain ⟨j, hj, rfl⟩ := List.getElem_of_mem he
    -- the kept entry sits at another index than the removed one
    have hj' : j ≠ idx := by
      rintro rfl
      exact hne hstart
    rw [halready]
    refine List.mem_map_of_mem ((Vec.mem_swapRemove hlt).mpr ?_)
    exact List.mem_eraseIdx_iff_getElem.mpr ⟨j, hj, hj', rfl⟩

/-- Pairwise disjoint entries hold an address at most once. -/
theorem length_filter_contains_le_one (va : ℕ) :
    ∀ {l : List MappingEntry}, (l.map (·.virtualRange)).Pairwise RangesDisjoint →
      (l.filter (·.contains (va, va))).length ≤ 1
  | [], _ => by simp
  | e :: l, hl => by
      rw [List.map_cons, List.pairwise_cons] at hl
      by_cases he : e.contains (va, va) = true
      · -- no later entry holds `va`
        have hnone : l.filter (·.contains (va, va)) = [] := by
          refine List.filter_eq_nil_iff.mpr fun e' he' hcontains => ?_
          have hdisjoint := hl.1 e'.virtualRange (List.mem_map_of_mem he')
          simp only [MappingEntry.contains_iff, RangesDisjoint] at he hcontains hdisjoint
          omega
        simp [he, hnone]
      · simpa [List.filter_cons, he] using length_filter_contains_le_one va hl.2

/-- A listed address lies in exactly one entry of `already_mapped`. -/
theorem Consistent.length_filter_contains {va : ℕ} (h : holder.Consistent)
    (hin : InRanges (holder.alreadyMapped.map (·.virtualRange)) va) :
    (holder.alreadyMapped.filter (·.contains (va, va))).length = 1 := by
  obtain ⟨r, hr, hlo, hhi⟩ := hin
  obtain ⟨entry, hentry, rfl⟩ := List.mem_map.mp hr
  have hpos : 0 < (holder.alreadyMapped.filter (·.contains (va, va))).length :=
    List.length_pos_of_mem (List.mem_filter.mpr ⟨hentry, by simp [hlo, hhi]⟩)
  have := length_filter_contains_le_one va h.disjoint
  omega

end RootPageTableHolder

end Solaya
