import Solaya.Memory.PageTableRefinement

/-!
# What `unmap_userspace` and `mprotect` do to the tables

`unmap_userspace` walks its range leaf by leaf and moves on by the size of the
leaf it clears; when the range is one whole mapping whose leaves are still the
ones `map` wrote, it clears exactly that range (`unmapLoop_spec`).
`mprotect` rewrites the permission bits of 4 KiB leaves and keeps the shape
of the tables: the same addresses are mapped, by leaves of the same sizes
(`mprotectLoop_spec`), and each rewritten leaf carries the new mode.
-/

namespace Solaya

namespace RootPageTableHolder

/-- Everything a successful `unmap_userspace` has checked and done. -/
theorem unmapUserspace_eq_some {holder holder' : RootPageTableHolder} {v size : ℕ}
    (h : holder.unmapUserspace v size = some holder') :
    v % pageSize = 0 ∧ size ≠ 0 ∧
      ∃ idx, holder.alreadyMapped.findIdx? (·.virtualRange.1 == v) = some idx ∧
        ∃ root', unmapLoop v size size holder.rootTable 0 = some root' ∧
          holder' = ⟨root', Vec.swapRemove holder.alreadyMapped idx⟩ := by
  unfold unmapUserspace at h
  split_ifs at h with hguard
  simp only [not_or, ne_eq, not_not] at hguard
  obtain ⟨idx, hidx, h⟩ := Option.bind_eq_some_iff.mp h
  obtain ⟨root', hloop, h⟩ := Option.bind_eq_some_iff.mp h
  exact ⟨hguard.1, hguard.2, idx, hidx, root', hloop, (Option.some.inj h).symm⟩

/-- Everything a successful `mprotect` has checked and done. -/
theorem mprotect_eq_some {holder holder' : RootPageTableHolder} {addr size : ℕ} {mode : XWRMode}
    (h : holder.mprotect addr size mode = some holder') :
    ∃ root', mprotectLoop addr size mode size holder.rootTable 0 = some root' ∧
      holder' = ⟨root', Vec.updateFirst
        (fun entry => decide (entry.virtualRange.1 ≤ addr) && decide (addr < entry.virtualRange.2))
        (fun entry => { entry with privileges := mode }) holder.alreadyMapped⟩ := by
  unfold mprotect at h
  split_ifs at h
  obtain ⟨root', hloop, h⟩ := Option.bind_eq_some_iff.mp h
  exact ⟨root', hloop, (Option.some.inj h).symm⟩

/-- `root'` maps the same addresses as `root`, by leaves of the same sizes;
each of its leaves is one of `root`'s or carries the mode `mode`. -/
structure Reprotected (root root' : FirstLevelTable) (mode : XWRMode) : Prop where
  wellFormed : WellFormed root'
  levels : ∀ va, (resolve root' va).map Prod.snd = (resolve root va).map Prod.snd
  modes : ∀ va leaf, resolve root' va = some leaf →
    resolve root va = some leaf ∨ leaf.1.xwrMode = mode

theorem Reprotected.trans {root root₁ root₂ : FirstLevelTable} {mode : XWRMode}
    (h₁ : Reprotected root root₁ mode) (h₂ : Reprotected root₁ root₂ mode) :
    Reprotected root root₂ mode where
  wellFormed := h₂.wellFormed
  levels va := (h₂.levels va).trans (h₁.levels va)
  modes va leaf hleaf := (h₂.modes va leaf hleaf).elim (h₁.modes va leaf) Or.inr

/-- A write of the mode bits through `get_page_table_entry_for_address_mut`
keeps the shape of the tables. -/
theorem updatePageTableEntryForAddress_reprotected {root root' : FirstLevelTable} {a : ℕ}
    {mode : XWRMode} (hwf : WellFormed root)
    (h : updatePageTableEntryForAddress root a (·.setXwrMode mode) = some (some root')) :
    Reprotected root root' mode := by
  obtain ⟨entry, hentry, hwf', hwritten, hframe⟩ :=
    updatePageTableEntryForAddress_spec (fun _ => PageTableEntry.setXwrMode_validity _ _) hwf h
  -- the rewritten page keeps its 4 KiB leaf, with the new mode; everything
  -- else is untouched
  refine ⟨hwf', fun va => ?_, fun va leaf hleaf => ?_⟩
  · by_cases hva : SharesLeaf va a 0
    · rw [hwritten va hva, resolve_of_sharesLeaf hentry hva]
      rfl
    · rw [hframe va hva]
  · by_cases hva : SharesLeaf va a 0
    · rw [hwritten va hva] at hleaf
      cases hleaf
      exact .inr (PageTableEntry.setXwrMode_xwrMode _ _)
    · rw [hframe va hva] at hleaf
      exact .inl hleaf

/-- `mprotect`'s page loop only rewrites permission bits, to `mode`. -/
theorem mprotectLoop_spec {root final : FirstLevelTable} {addr size : ℕ} {mode : XWRMode}
    {fuel offset : ℕ} (hwf : WellFormed root)
    (h : mprotectLoop addr size mode fuel root offset = some final) :
    Reprotected root final mode := by
  refine Loop.whileBelow_rel (fun root _ final => WellFormed root → Reprotected root final mode)
    (fun _ _ _ hwf => ⟨hwf, fun _ => rfl, fun _ _ h => .inl h⟩) ?_ fuel root offset final h hwf
  intro root offset root₁ offset₁ final _ hbody hrest hwf
  obtain ⟨pageAddr, -, hbody⟩ := Option.bind_eq_some_iff.mp hbody
  obtain ⟨written, hupdate, hbody⟩ := Option.bind_eq_some_iff.mp hbody
  obtain ⟨root₂, hjoin, hpair⟩ := Option.bind_eq_some_iff.mp hbody
  cases hpair
  cases written with
  | none => simp at hjoin
  | some root₂' =>
      cases hjoin
      have hstep := updatePageTableEntryForAddress_reprotected hwf hupdate
      exact hstep.trans (hrest hstep.wellFormed)

/-- The leaves of the chunks of a mapping from `offset` on are still the
sizes `map` gave them. -/
def ChunksAt (root : FirstLevelTable) (v p size offset : ℕ) : Prop :=
  ∀ c ∈ mapChunks v p size offset, ∀ va, v + c.1 ≤ va → va < v + c.1 + levelSize c.2 →
    (resolve root va).map Prod.snd = some c.2

section Unmap

variable {v p size : ℕ}

/-- One iteration of `unmap_userspace`'s loop at the chunk at `offset` of a
mapping whose leaves are still the ones `map` wrote clears that chunk's leaf,
and the later chunks still read as before. -/
theorem ChunksAt.unmapStep (hv : v % pageSize = 0) (hp : p % pageSize = 0)
    (hsize : size % pageSize = 0) (hrange : InHalf v size) {offset step : ℕ}
    {root root₁ : FirstLevelTable} (hoffset : offset % pageSize = 0) (hwf : WellFormed root)
    (hchunks : ChunksAt root v p size offset) (hlt : offset < size)
    (hstep : unmapStep root (v + offset) = some (root₁, step)) :
    step = levelSize (chunkLevel v p size offset) ∧
      LeafClear root root₁ (v + offset) (chunkLevel v p size offset) ∧
      ChunksAt root₁ v p size (offset + step) := by
  obtain ⟨⟨entry, level⟩, hleaf, rfl, hclear⟩ := unmapStep_spec hwf hstep
  -- the leaf found at `v + offset` is the one of the chunk at `offset`
  have hfirst : level = chunkLevel v p size offset := by
    have := hchunks (offset, chunkLevel v p size offset)
      (by rw [mapChunks_of_lt hlt]; exact List.mem_cons_self) (v + offset) le_rfl
      (by have := levelSize_pos (chunkLevel v p size offset); simp only; omega)
    rw [hleaf] at this
    exact Option.some.inj this
  subst hfirst
  dsimp only at hclear ⊢
  refine ⟨rfl, hclear, ?_⟩
  have hfits := chunkFits_chunkLevel hv hp hsize hoffset hlt
  -- the later chunks lie above the cleared leaf, so they still read as before
  intro c hc va hlo hhi
  obtain ⟨hle, hcfits⟩ := mapChunks_fits hv hp hsize _ (add_levelSize_mod_pageSize hoffset _) c hc
  have hva : IsCanonical va := hrange.isCanonical (by omega) (by have := hcfits.le_size; omega)
  rw [hclear.frame va fun h => by have := (hfits.sharesLeaf_iff hrange hva).mp h; omega]
  exact hchunks c (by rw [mapChunks_of_lt hlt]; exact List.mem_cons_of_mem _ hc) va hlo hhi

/-- `unmap_userspace`'s loop over a whole mapping whose leaves are still the
ones `map` wrote clears exactly the rest of the mapping. -/
theorem unmapLoop_spec (hv : v % pageSize = 0) (hp : p % pageSize = 0)
    (hsize : size % pageSize = 0) (hrange : InHalf v size) {fuel offset : ℕ}
    {root final : FirstLevelTable} (hoffset : offset % pageSize = 0) (hwf : WellFormed root)
    (hchunks : ChunksAt root v p size offset) (h : unmapLoop v size fuel root offset = some final) :
    WellFormed final ∧ ∀ va, IsCanonical va →
      resolve final va = if v + offset ≤ va ∧ va < v + size then none else resolve root va := by
  refine Loop.whileBelow_rel (fun root offset final => offset % pageSize = 0 → WellFormed root →
      ChunksAt root v p size offset → WellFormed final ∧ ∀ va, IsCanonical va →
        resolve final va = if v + offset ≤ va ∧ va < v + size then none else resolve root va)
    ?_ ?_ fuel root offset final h hoffset hwf hchunks
  · intro root offset hle _ hwf _
    refine ⟨hwf, fun va _ => ?_⟩
    rw [if_neg (by omega)]
  · intro root offset root₁ offset₁ final hlt hbody hrest hoffset hwf hchunks
    obtain ⟨addr, haddr, hbody⟩ := Option.bind_eq_some_iff.mp hbody
    obtain ⟨⟨root₂, step⟩, hstep, hbody⟩ := Option.bind_eq_some_iff.mp hbody
    obtain ⟨offset₂, hoffset₂, hpair⟩ := Option.bind_eq_some_iff.mp hbody
    cases hpair
    obtain ⟨rfl, -⟩ := checkedAdd_eq_some haddr
    obtain ⟨rfl, -⟩ := checkedAdd_eq_some hoffset₂
    obtain ⟨rfl, hclear, hchunks₁⟩ := hchunks.unmapStep hv hp hsize hrange hoffset hwf hlt hstep
    have hfits : ChunkFits v p size offset (chunkLevel v p size offset) :=
      chunkFits_chunkLevel hv hp hsize hoffset hlt
    set level := chunkLevel v p size offset with hlevel
    obtain ⟨hwf', hfinal⟩ := hrest (add_levelSize_mod_pageSize hoffset level) hclear.wellFormed
      hchunks₁
    refine ⟨hwf', fun va hva => ?_⟩
    rw [hfinal va hva]
    have hle := hfits.le_size
    have hshares := hfits.sharesLeaf_iff hrange hva
    by_cases hin : v + offset ≤ va ∧ va < v + offset + levelSize level
    · rw [if_neg (by omega), hclear.cleared va (hshares.mpr hin), if_pos (by omega)]
    · rw [hclear.frame va fun h => hin (hshares.mp h)]
      split_ifs <;> first | rfl | omega

end Unmap

end RootPageTableHolder

end Solaya
