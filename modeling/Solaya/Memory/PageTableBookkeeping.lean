import Mathlib.Data.List.Pairwise
import Mathlib.Data.List.Perm.Basic
import Solaya.Memory.PageTableUnmap

/-!
# `already_mapped` against the tables

A `RootPageTableHolder` keeps two records of its address space: the list
`already_mapped` of inclusive ranges, which `is_mapped` and the overlap check
of `map` read, and the page tables, which the MMU reads.  `Agrees` relates the
two on canonical addresses: an address lies in a listed range exactly when
the tables map it by a leaf, and every range is still mapped by the leaves
`map` wrote for it.  It holds of the fresh holder and survives `map` of a
range within one half of the address space, `mprotect` to a permission, and an
`unmap_userspace` that removes one whole earlier mapping
(`consistent_contractStep`), so it holds in every state reached by such
calls.

`unmap_userspace` removes the one entry that starts at its address and clears
`size` bytes of leaves, whatever entries they belong to: the agreement needs
the entry to span exactly those bytes, and the contract below asks for it.
-/

namespace Solaya

namespace RootPageTableHolder

/-! ## Ranges against tables -/

/-- An inclusive range of whole pages in one half of the address space. -/
structure IsPageRange (r : ℕ × ℕ) : Prop where
  start_aligned : r.1 % pageSize = 0
  end_aligned : (r.2 + 1) % pageSize = 0
  le : r.1 ≤ r.2
  inHalf : InHalf r.1 (r.2 + 1 - r.1)

/-- Two inclusive ranges share no address. -/
def RangesDisjoint (r r' : ℕ × ℕ) : Prop :=
  r.2 < r'.1 ∨ r'.2 < r.1

theorem RangesDisjoint.symm {r r' : ℕ × ℕ} (h : RangesDisjoint r r') : RangesDisjoint r' r :=
  Or.symm h

instance : Std.Symm RangesDisjoint :=
  ⟨fun _ _ h => h.symm⟩

/-- Some range of the list holds `va`. -/
def InRanges (ranges : List (ℕ × ℕ)) (va : ℕ) : Prop :=
  ∃ r ∈ ranges, r.1 ≤ va ∧ va ≤ r.2

/-- Every canonical address the tables resolve ends at a leaf entry.  The
reading `resolve` stops at the first valid entry of the third level whatever
its mode; this says that no such entry is a pointer. -/
def LeavesOnly (root : FirstLevelTable) : Prop :=
  ∀ va, IsCanonical va → ∀ leaf, resolve root va = some leaf → leaf.1.isLeaf = true

/-- The list of ranges describes the tables on canonical addresses. -/
structure Agrees (root : FirstLevelTable) (ranges : List (ℕ × ℕ)) : Prop where
  wellFormed : WellFormed root
  leavesOnly : LeavesOnly root
  pageRanges : ∀ r ∈ ranges, IsPageRange r
  disjoint : ranges.Pairwise RangesDisjoint
  covered : ∀ va, IsCanonical va → (InRanges ranges va ↔ (resolve root va).isSome)
  chunked : ∀ r ∈ ranges, ∃ p, p % pageSize = 0 ∧ ChunksAt root r.1 p (r.2 + 1 - r.1) 0

@[simp]
theorem inRanges_nil (va : ℕ) : ¬InRanges [] va := by
  simp [InRanges]

@[simp]
theorem inRanges_cons {r : ℕ × ℕ} {ranges : List (ℕ × ℕ)} {va : ℕ} :
    InRanges (r :: ranges) va ↔ (r.1 ≤ va ∧ va ≤ r.2) ∨ InRanges ranges va := by
  simp [InRanges]

@[simp]
theorem inRanges_append {ranges ranges' : List (ℕ × ℕ)} {va : ℕ} :
    InRanges (ranges ++ ranges') va ↔ InRanges ranges va ∨ InRanges ranges' va := by
  simp only [InRanges, List.mem_append]
  constructor
  · rintro ⟨r, hr | hr, hin⟩
    · exact .inl ⟨r, hr, hin⟩
    · exact .inr ⟨r, hr, hin⟩
  · rintro (⟨r, hr, hin⟩ | ⟨r, hr, hin⟩)
    · exact ⟨r, .inl hr, hin⟩
    · exact ⟨r, .inr hr, hin⟩

theorem inRanges_perm {ranges ranges' : List (ℕ × ℕ)} (hperm : ranges.Perm ranges') (va : ℕ) :
    InRanges ranges va ↔ InRanges ranges' va := by
  simp only [InRanges, hperm.mem_iff]

theorem IsPageRange.size_mod {r : ℕ × ℕ} (hr : IsPageRange r) : (r.2 + 1 - r.1) % pageSize = 0 := by
  have := hr.start_aligned
  have := hr.end_aligned
  have := hr.le
  unfold pageSize at *
  omega

/-- The chunks of a page range lie inside it. -/
theorem IsPageRange.mem_of_chunk {r : ℕ × ℕ} (hr : IsPageRange r) {p : ℕ}
    (hp : p % pageSize = 0) {c : ℕ × ℕ} (hc : c ∈ mapChunks r.1 p (r.2 + 1 - r.1) 0) {va : ℕ}
    (hlo : r.1 + c.1 ≤ va) (hhi : va < r.1 + c.1 + levelSize c.2) : r.1 ≤ va ∧ va ≤ r.2 := by
  have := (mapChunks_fits hr.start_aligned hp hr.size_mod 0 (by simp) c hc).2.le_size
  have := hr.le
  omega

variable {root root' : FirstLevelTable} {ranges : List (ℕ × ℕ)}

/-- The agreement reads the list as a set of ranges. -/
theorem Agrees.perm {ranges' : List (ℕ × ℕ)} (h : Agrees root ranges)
    (hperm : ranges.Perm ranges') : Agrees root ranges' where
  wellFormed := h.wellFormed
  leavesOnly := h.leavesOnly
  pageRanges r hr := h.pageRanges r (hperm.mem_iff.mpr hr)
  disjoint := (hperm.pairwise_iff RangesDisjoint.symm).mp h.disjoint
  covered va hva := (inRanges_perm hperm va).symm.trans (h.covered va hva)
  chunked r hr := h.chunked r (hperm.mem_iff.mpr hr)

/-- Listed ranges that start at the same address are the same range. -/
theorem Agrees.eq_of_start_eq (h : Agrees root ranges) {r r' : ℕ × ℕ} (hr : r ∈ ranges)
    (hr' : r' ∈ ranges) (hstart : r.1 = r'.1) : r = r' := by
  by_contra hne
  have hdisjoint := h.disjoint.forall hr hr' hne
  have := (h.pageRanges r hr).le
  have := (h.pageRanges r' hr').le
  unfold RangesDisjoint at hdisjoint
  omega

/-- Rewriting the modes of leaves to a permission keeps the agreement. -/
theorem Agrees.reprotect {mode : XWRMode} (h : Agrees root ranges)
    (hmode : mode ≠ .pointerToNextLevel) (hprot : Reprotected root root' mode) :
    Agrees root' ranges := by
  refine ⟨hprot.wellFormed, ?_, h.pageRanges, h.disjoint, ?_, ?_⟩
  · intro va hva leaf hleaf
    rcases hprot.modes va leaf hleaf with hold | hnew
    · exact h.leavesOnly va hva leaf hold
    · exact (PageTableEntry.isLeaf_iff _).mpr (hnew ▸ hmode)
  · intro va hva
    have hsome := congrArg Option.isSome (hprot.levels va)
    rw [Option.isSome_map, Option.isSome_map] at hsome
    rw [hsome]
    exact h.covered va hva
  · intro r hr
    obtain ⟨p, hp, hchunks⟩ := h.chunked r hr
    refine ⟨p, hp, fun c hc va hlo hhi => ?_⟩
    rw [hprot.levels va]
    exact hchunks c hc va hlo hhi

section Map

variable {v p size : ℕ} {privileges : XWRMode} {isUserModeAccessible : Bool}

/-- `map`'s loop over a page range within one half that meets no listed range
adds the range to the agreement. -/
theorem Agrees.map (h : Agrees root ranges) (hmode : privileges ≠ .pointerToNextLevel)
    (hv : v % pageSize = 0) (hp : p % pageSize = 0) (hsize : size % pageSize = 0)
    (hpos : 0 < size) (hrange : InHalf v size)
    (hfree : ∀ r ∈ ranges, RangesDisjoint r (v, v + (size - 1)))
    (hloop : mapLoop v p size privileges isUserModeAccessible size root 0 = some root') :
    Agrees root' (ranges ++ [(v, v + (size - 1))]) := by
  have hw := mapLoop_spec hmode h.wellFormed hloop
  -- on canonical addresses the new leaves are those of the addresses of the new range
  have hnew : ∀ va, IsCanonical va → ((∃ c ∈ mapChunks v p size 0, SharesLeaf va (v + c.1) c.2) ↔
      v ≤ va ∧ va < v + size) :=
    fun va hva => exists_sharesLeaf_mapChunks_iff hv hp hsize hrange hva
  have hframe : ∀ va, IsCanonical va → ¬(v ≤ va ∧ va < v + size) →
      resolve root' va = resolve root va :=
    fun va hva hout => hw.frame va fun c hc hshares => hout ((hnew va hva).mp ⟨c, hc, hshares⟩)
  have hwritten : ∀ va, IsCanonical va → v ≤ va → va < v + size →
      ∃ c ∈ mapChunks v p size 0,
        resolve root' va = some (leafEntry privileges (p + c.1) isUserModeAccessible, c.2) := by
    intro va hva hlo hhi
    obtain ⟨c, hc, hshares⟩ := (hnew va hva).mpr ⟨hlo, hhi⟩
    exact ⟨c, hc, hw.written c hc va hshares⟩
  refine ⟨hw.wellFormed, ?_, ?_, ?_, ?_, ?_⟩
  · intro va hva leaf hleaf
    by_cases hin : v ≤ va ∧ va < v + size
    · obtain ⟨c, -, hc⟩ := hwritten va hva hin.1 hin.2
      rw [hc] at hleaf
      cases hleaf
      exact isLeaf_leafEntry hmode _ _
    · rw [hframe va hva hin] at hleaf
      exact h.leavesOnly va hva leaf hleaf
  · intro r hr
    rcases List.mem_append.mp hr with hr | hr
    · exact h.pageRanges r hr
    · obtain rfl := List.mem_singleton.mp hr
      have hend : v + (size - 1) + 1 = v + size := by omega
      refine ⟨hv, ?_, by omega, ?_⟩
      · dsimp only
        rw [hend, Nat.add_mod, hv, hsize]
        rfl
      · dsimp only
        rwa [hend, Nat.add_sub_cancel_left]
  · refine List.pairwise_append.mpr ⟨h.disjoint, List.pairwise_singleton _ _, ?_⟩
    intro r hr r' hr'
    rw [List.mem_singleton.mp hr']
    exact hfree r hr
  · intro va hva
    simp only [inRanges_append, inRanges_cons, inRanges_nil, or_false]
    by_cases hin : v ≤ va ∧ va < v + size
    · obtain ⟨c, -, hc⟩ := hwritten va hva hin.1 hin.2
      simp only [hc, Option.isSome_some, iff_true]
      exact .inr ⟨hin.1, by omega⟩
    · rw [hframe va hva hin, ← h.covered va hva]
      constructor
      · rintro (hold | ⟨hlo, hhi⟩)
        · exact hold
        · exact absurd ⟨hlo, by omega⟩ hin
      · exact .inl
  · intro r hr
    rcases List.mem_append.mp hr with hr | hr
    · -- an earlier range: its chunks are outside the new range
      obtain ⟨p', hp', hchunks⟩ := h.chunked r hr
      refine ⟨p', hp', fun c hc va hlo hhi => ?_⟩
      have hpages := h.pageRanges r hr
      have hrange' := hpages.inHalf
      obtain ⟨hlo', hhi'⟩ := hpages.mem_of_chunk hp' hc hlo hhi
      have hdisjoint := hfree r hr
      unfold RangesDisjoint at hdisjoint
      rw [hframe va (hrange'.isCanonical hlo' (by omega)) (by dsimp only at hdisjoint; omega)]
      exact hchunks c hc va hlo hhi
    · -- the new range: its chunks are the leaves just written
      obtain rfl := List.mem_singleton.mp hr
      refine ⟨p, hp, fun c hc va hlo hhi => ?_⟩
      have hend : v + (size - 1) + 1 - v = size := by omega
      dsimp only at hc hlo hhi
      rw [hend] at hc
      have hfits := (mapChunks_fits hv hp hsize 0 (by simp) c hc).2
      have hva : IsCanonical va :=
        hrange.isCanonical (by omega) (by have := hfits.le_size; omega)
      rw [hw.written c hc va ((hfits.sharesLeaf_iff hrange hva).mpr ⟨hlo, hhi⟩)]
      rfl

end Map

section Unmap

variable {r : ℕ × ℕ} {rest : List (ℕ × ℕ)} {v size fuel : ℕ}

/-- `unmap_userspace`'s loop over exactly the first range clears its
addresses and removes it from the agreement. -/
theorem Agrees.unmap (h : Agrees root (r :: rest)) (hstart : r.1 = v)
    (hend : r.2 + 1 = v + size) (hloop : unmapLoop v size fuel root 0 = some root') :
    Agrees root' rest ∧ ∀ va, IsCanonical va →
      resolve root' va = if v ≤ va ∧ va < v + size then none else resolve root va := by
  have hr := h.pageRanges r List.mem_cons_self
  obtain ⟨p, hp, hchunks⟩ := h.chunked r List.mem_cons_self
  have hsize : r.2 + 1 - r.1 = size := by omega
  rw [hsize, hstart] at hchunks
  have hrange : InHalf v size := by
    have := hr.inHalf
    rwa [hsize, hstart] at this
  obtain ⟨hwf, hclear⟩ := unmapLoop_spec (hstart ▸ hr.start_aligned) hp (hsize ▸ hr.size_mod)
    hrange (by simp) h.wellFormed hchunks hloop
  simp only [add_zero] at hclear
  have hdisjoint : ∀ r' ∈ rest, RangesDisjoint r r' := (List.pairwise_cons.mp h.disjoint).1
  -- the other ranges lie outside the cleared one, so the tables keep them
  have hkept : ∀ r' ∈ rest, ∀ va, r'.1 ≤ va → va ≤ r'.2 → resolve root' va = resolve root va := by
    intro r' hr' va hlo hhi
    have hr'' := h.pageRanges r' (List.mem_cons_of_mem _ hr')
    have := hdisjoint r' hr'
    unfold RangesDisjoint at this
    rw [hclear va (hr''.inHalf.isCanonical hlo (by omega)), if_neg (by omega)]
  refine ⟨⟨hwf, ?_, fun r' hr' => h.pageRanges r' (List.mem_cons_of_mem _ hr'),
    (List.pairwise_cons.mp h.disjoint).2, ?_, ?_⟩, hclear⟩
  · intro va hva leaf hleaf
    rw [hclear va hva] at hleaf
    split_ifs at hleaf
    exact h.leavesOnly va hva leaf hleaf
  · intro va hva
    rw [hclear va hva]
    split_ifs with hin
    · -- no other range holds an address of the cleared one
      simp only [Option.isSome_none, Bool.false_eq_true, iff_false]
      rintro ⟨r', hr', hlo, hhi⟩
      have := hdisjoint r' hr'
      unfold RangesDisjoint at this
      omega
    · rw [← h.covered va hva, inRanges_cons]
      constructor
      · exact .inr
      · rintro (⟨hlo, hhi⟩ | hrest)
        · exact absurd ⟨by omega, by omega⟩ hin
        · exact hrest
  · intro r' hr'
    obtain ⟨p', hp', hchunks'⟩ := h.chunked r' (List.mem_cons_of_mem _ hr')
    refine ⟨p', hp', fun c hc va hlo hhi => ?_⟩
    obtain ⟨hlo', hhi'⟩ :=
      (h.pageRanges r' (List.mem_cons_of_mem _ hr')).mem_of_chunk hp' hc hlo hhi
    rw [hkept r' hr' va hlo' hhi']
    exact hchunks' c hc va hlo hhi

end Unmap

/-! ## The holder -/

/-- `already_mapped` and the tables agree. -/
def Consistent (holder : RootPageTableHolder) : Prop :=
  Agrees holder.rootTable (holder.alreadyMapped.map (·.virtualRange))

theorem consistent_empty : empty.Consistent := by
  -- the fresh tables resolve nothing
  have hnone : ∀ va, resolve empty.rootTable va = none := fun _ => rfl
  refine ⟨wellFormed_empty, ?_, by simp [empty], by simp [empty], ?_, by simp [empty]⟩
  · intro va _ leaf hleaf
    rw [hnone va] at hleaf
    cases hleaf
  · intro va _
    rw [hnone va]
    simp [empty]

theorem isMapped_self_iff (holder : RootPageTableHolder) (va : ℕ) :
    holder.isMapped (va, va) = true ↔ InRanges (holder.alreadyMapped.map (·.virtualRange)) va := by
  simp [isMapped, InRanges]

/-- `is_mapped` of a range that starts at a listed address. -/
theorem isMapped_of_inRanges {holder : RootPageTableHolder} {a b : ℕ}
    (hin : InRanges (holder.alreadyMapped.map (·.virtualRange)) a) (hle : a ≤ b) :
    holder.isMapped (a, b) = true := by
  obtain ⟨r, hr, hlo, hhi⟩ := hin
  obtain ⟨entry, hentry, rfl⟩ := List.mem_map.mp hr
  refine List.any_eq_true.mpr ⟨entry, hentry, (MappingEntry.contains_iff _ _).mpr ?_⟩
  exact ⟨le_trans hlo hle, hhi⟩

/-- The calls that change a holder. -/
inductive Request
  | map (virtualAddressStart physicalAddressStart size : ℕ) (privileges : XWRMode)
      (isUserModeAccessible : Bool)
  | unmapUserspace (virtualAddressStart size : ℕ)
  | mprotect (addr size : ℕ) (mode : XWRMode)
  deriving DecidableEq, Repr

/-- Serve one call. -/
def serve (holder : RootPageTableHolder) : Request → Option RootPageTableHolder
  | .map v p size privileges isUserModeAccessible =>
      holder.map v p size privileges isUserModeAccessible
  | .unmapUserspace v size => holder.unmapUserspace v size
  | .mprotect addr size mode => holder.mprotect addr size mode

/-- What the agreement asks of the callers: `map` and `mprotect` with a
permission and `map` within one half of the address space; `unmap_userspace` of exactly the range of
the entry that starts at its address. -/
def Request.withinContract (holder : RootPageTableHolder) : Request → Bool
  | .map v _ size privileges _ =>
      privileges != .pointerToNextLevel && decide (InHalf v (alignUp size pageSize))
  | .unmapUserspace v size =>
      (holder.alreadyMapped.find? (·.virtualRange.1 == v)).any fun entry =>
        entry.virtualRange.2 + 1 == v + size
  | .mprotect _ _ mode => mode != .pointerToNextLevel

/-- Serve the calls that keep the contract. -/
def contractStep (holder : RootPageTableHolder) (request : Request) : Option RootPageTableHolder :=
  if request.withinContract holder then serve holder request else none

variable {holder holder' : RootPageTableHolder}

theorem contractStep_eq_some {request : Request} (h : contractStep holder request = some holder') :
    request.withinContract holder = true ∧ serve holder request = some holder' := by
  unfold contractStep at h
  split_ifs at h with hcontract
  exact ⟨hcontract, h⟩

/-- An `unmap_userspace` within the contract removes an entry whose range is
exactly the one it clears. -/
theorem unmapUserspace_withinContract {v size : ℕ}
    (hcontract : (Request.unmapUserspace v size).withinContract holder = true)
    (h : holder.unmapUserspace v size = some holder') :
    ∃ idx entry, holder.alreadyMapped[idx]? = some entry ∧ entry.virtualRange.1 = v ∧
      entry.virtualRange.2 + 1 = v + size ∧
      unmapLoop v size size holder.rootTable 0 = some holder'.rootTable ∧
      holder'.alreadyMapped = Vec.swapRemove holder.alreadyMapped idx := by
  obtain ⟨-, -, idx, hidx, root', hloop, rfl⟩ := unmapUserspace_eq_some h
  obtain ⟨entry, hfind, hend⟩ := (Option.any_eq_true _ _).mp hcontract
  have hstart : entry.virtualRange.1 = v := by
    simpa using List.find?_some hfind
  -- `position` and `find` stop at the same entry
  rw [List.find?_eq_bind_findIdx?_getElem?, hidx, Option.bind_some] at hfind
  exact ⟨idx, entry, hfind, hstart, by simpa using hend, hloop, rfl⟩

/-- The holder after an `unmap_userspace` within the contract. -/
theorem Consistent.unmapUserspace {v size idx fuel : ℕ} {entry : MappingEntry}
    (h : holder.Consistent) (hidx : holder.alreadyMapped[idx]? = some entry)
    (hstart : entry.virtualRange.1 = v) (hend : entry.virtualRange.2 + 1 = v + size)
    (hloop : unmapLoop v size fuel holder.rootTable 0 = some root') :
    Agrees root' ((Vec.swapRemove holder.alreadyMapped idx).map (·.virtualRange)) ∧
      ∀ va, IsCanonical va →
        resolve root' va = if v ≤ va ∧ va < v + size then none else resolve holder.rootTable va := by
  obtain ⟨hlt, rfl⟩ := List.getElem?_eq_some_iff.mp hidx
  -- move the removed entry to the front
  have hfront := ((List.getElem_cons_eraseIdx_perm hlt).map (·.virtualRange)).symm
  obtain ⟨hagrees, hclear⟩ := (Agrees.perm h hfront).unmap hstart hend hloop
  exact ⟨hagrees.perm ((Vec.swapRemove_perm hlt).map _).symm, hclear⟩

/-- `mprotect` to a permission keeps the agreement, and the listed ranges. -/
theorem Consistent.mprotect {addr size : ℕ} {mode : XWRMode} (h : holder.Consistent)
    (hmode : mode ≠ .pointerToNextLevel) (hserve : holder.mprotect addr size mode = some holder') :
    holder'.Consistent ∧
      holder'.alreadyMapped.map (·.virtualRange) = holder.alreadyMapped.map (·.virtualRange) := by
  obtain ⟨root', hloop, rfl⟩ := mprotect_eq_some hserve
  unfold Consistent
  dsimp only
  -- the update rewrites a mode, never a range
  rw [Vec.map_updateFirst]
  · exact ⟨h.reprotect hmode (mprotectLoop_spec h.wellFormed hloop), rfl⟩
  · intro _
    rfl

/-- Every call within the contract keeps `already_mapped` and the tables in
agreement. -/
theorem consistent_contractStep {request : Request} (h : holder.Consistent)
    (hstep : contractStep holder request = some holder') : holder'.Consistent := by
  obtain ⟨hcontract, hserve⟩ := contractStep_eq_some hstep
  cases request with
  | map v p size privileges isUserModeAccessible =>
      obtain ⟨hmode, hrange⟩ : privileges ≠ .pointerToNextLevel ∧
          InHalf v (alignUp size pageSize) := by
        simpa [Request.withinContract] using hcontract
      obtain ⟨hv, hp, -, hsize, -, -, hfree, root', hloop, rfl⟩ := map_eq_some hserve
      have hpos : 0 < alignUp size pageSize := by
        have : size ≤ alignUp size pageSize := le_alignUp (by decide)
        omega
      -- `map`'s overlap check: no listed range meets the new one
      have hdisjoint : ∀ r ∈ holder.alreadyMapped.map (·.virtualRange),
          RangesDisjoint r (v, v + (alignUp size pageSize - 1)) := by
        intro r hr
        obtain ⟨entry, hentry, rfl⟩ := List.mem_map.mp hr
        have hnot := List.any_eq_false.mp hfree entry hentry
        rw [MappingEntry.contains_iff] at hnot
        unfold RangesDisjoint
        dsimp only at hnot ⊢
        omega
      have hagrees := h.map hmode hv hp (alignUp_mod (by decide)) hpos hrange hdisjoint hloop
      simpa [Consistent] using hagrees
  | unmapUserspace v size =>
      obtain ⟨idx, entry, hidx, hstart, hend, hloop, halready⟩ :=
        unmapUserspace_withinContract hcontract hserve
      unfold Consistent
      rw [halready]
      exact (h.unmapUserspace hidx hstart hend hloop).1
  | mprotect addr size mode =>
      have hmode : mode ≠ .pointerToNextLevel := by
        simpa [Request.withinContract] using hcontract
      exact (h.mprotect hmode hserve).1

theorem consistent_of_reachable (hreach : Machine.Reachable contractStep empty holder) :
    holder.Consistent :=
  Machine.Reachable.induction Consistent consistent_empty
    (fun _ _ _ h hstep => consistent_contractStep h hstep) hreach

/-- In every state reached by calls within the contract, a canonical address
lies in a range of `already_mapped` exactly when the tables map it by a leaf; and an `unmap_userspace` within the contract removes exactly one entry,
whose range is the one whose leaves it clears. -/
theorem bookkeeping_agreement (hreach : Machine.Reachable contractStep empty holder) :
    (∀ va, IsCanonical va → (holder.isMapped (va, va) = true ↔
      ∃ leaf, resolve holder.rootTable va = some leaf ∧ leaf.1.isLeaf = true)) ∧
    ∀ addr size holder', contractStep holder (.unmapUserspace addr size) = some holder' →
      ∃ idx, (holder.alreadyMapped[idx]?).map (·.virtualRange) = some (addr, addr + size - 1) ∧
        holder'.alreadyMapped.Perm (holder.alreadyMapped.eraseIdx idx) ∧
        ∀ va, IsCanonical va → resolve holder'.rootTable va =
          if addr ≤ va ∧ va < addr + size then none else resolve holder.rootTable va := by
  have h := consistent_of_reachable hreach
  constructor
  · intro va hva
    rw [isMapped_self_iff, h.covered va hva, Option.isSome_iff_exists]
    constructor
    · rintro ⟨leaf, hleaf⟩
      exact ⟨leaf, hleaf, h.leavesOnly va hva leaf hleaf⟩
    · rintro ⟨leaf, hleaf, -⟩
      exact ⟨leaf, hleaf⟩
  · intro addr size holder' hstep
    obtain ⟨hcontract, hserve⟩ := contractStep_eq_some hstep
    obtain ⟨idx, entry, hidx, hstart, hend, hloop, halready⟩ :=
      unmapUserspace_withinContract hcontract hserve
    have hlt := (List.getElem?_eq_some_iff.mp hidx).1
    refine ⟨idx, ?_, halready ▸ Vec.swapRemove_perm hlt, (h.unmapUserspace hidx hstart hend hloop).2⟩
    rw [hidx, Option.map_some, ← hstart]
    exact congrArg some (Prod.ext rfl (by dsimp only; omega))

theorem bookkeeping_agreement_after_unmap :
    ∃ holder, Machine.run contractStep empty
        [.map 0x1000 0x80001000 0x2000 .readWrite true, .map 0x5000 0x80005000 0x1000 .readOnly true,
          .unmapUserspace 0x1000 0x2000] = some holder ∧
      (∀ va, IsCanonical va → (holder.isMapped (va, va) = true ↔
        ∃ leaf, resolve holder.rootTable va = some leaf ∧ leaf.1.isLeaf = true)) ∧
      ∀ addr size holder', contractStep holder (.unmapUserspace addr size) = some holder' →
        ∃ idx, (holder.alreadyMapped[idx]?).map (·.virtualRange) = some (addr, addr + size - 1) ∧
          holder'.alreadyMapped.Perm (holder.alreadyMapped.eraseIdx idx) ∧
          ∀ va, IsCanonical va → resolve holder'.rootTable va =
            if addr ≤ va ∧ va < addr + size then none else resolve holder.rootTable va := by
  obtain ⟨holder, hrun⟩ : ∃ holder, Machine.run contractStep empty
      [.map 0x1000 0x80001000 0x2000 .readWrite true, .map 0x5000 0x80005000 0x1000 .readOnly true,
        .unmapUserspace 0x1000 0x2000] = some holder :=
    Option.isSome_iff_exists.mp (by decide)
  exact ⟨holder, hrun, bookkeeping_agreement (Machine.Reachable.of_run hrun)⟩

end RootPageTableHolder

end Solaya
