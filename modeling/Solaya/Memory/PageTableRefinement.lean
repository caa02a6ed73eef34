import Solaya.Core.Machine
import Solaya.Memory.PageTableMap

/-!
# Address spaces built by `map`

A sequence of `map` calls on a fresh holder describes an abstract address
space: each call sends `[v, v + align_up(size))` to `[p, ...)` with its
permissions.  `MapsOf` states that the tables implement it on canonical
addresses, which the walk tells apart; it holds after every successful run of
calls (`mapsOf_run`).  Through
`getPageTableEntryForAddress_eq_resolve` this becomes a statement about the
kernel's own walk and `translate_userspace_address_to_physical_address`.
-/

namespace Solaya

namespace RootPageTableHolder

/-- The arguments of one `map` call. -/
structure MapCall where
  virtualAddressStart : ℕ
  physicalAddressStart : ℕ
  size : ℕ
  privileges : XWRMode
  isUserModeAccessible : Bool
  deriving DecidableEq, Repr

namespace MapCall

/-- The size `map` rounds the call up to. -/
def mappedSize (call : MapCall) : ℕ := alignUp call.size pageSize

/-- `va` lies in the range the call maps. -/
def Covers (call : MapCall) (va : ℕ) : Prop :=
  call.virtualAddressStart ≤ va ∧ va < call.virtualAddressStart + call.mappedSize

/-- The chunks the call's loop writes. -/
def chunks (call : MapCall) : List (ℕ × ℕ) :=
  mapChunks call.virtualAddressStart call.physicalAddressStart call.mappedSize 0

/-- The leaf entry the call writes for its chunk at `offset`. -/
def entry (call : MapCall) (offset : ℕ) : PageTableEntry :=
  leafEntry call.privileges (call.physicalAddressStart + offset) call.isUserModeAccessible

/-- The call mapped the page of `va` with a 4 KiB leaf. -/
def MapsWithPage (call : MapCall) (va : ℕ) : Prop :=
  ∃ offset, (offset, 0) ∈ call.chunks ∧ call.virtualAddressStart + offset ≤ va ∧
    va < call.virtualAddressStart + offset + pageSize

/-- The entry `map` pushes on `already_mapped` for the call. -/
def mappingEntry (call : MapCall) : MappingEntry :=
  ⟨(call.virtualAddressStart, call.virtualAddressStart + (call.mappedSize - 1)), call.privileges⟩

/-- The call maps with a permission, not with `PointerToNextLevel`; its
virtual range lies in one half of the Sv39 address space and its physical
range below `2^56`, the addresses Sv39 entries can hold. -/
structure Admissible (call : MapCall) : Prop where
  leaf_mode : call.privileges ≠ .pointerToNextLevel
  inHalf : InHalf call.virtualAddressStart call.mappedSize
  physical_below : call.physicalAddressStart + call.mappedSize ≤ 2 ^ 56

end MapCall

/-- `map` with the arguments of a call. -/
def mapCall (holder : RootPageTableHolder) (call : MapCall) : Option RootPageTableHolder :=
  holder.map call.virtualAddressStart call.physicalAddressStart call.size call.privileges
    call.isUserModeAccessible

/-- The tables of `holder` implement the calls on canonical addresses:
`already_mapped` lists their ranges, an address no call covers is unmapped, and
every chunk of a call is mapped by that call's leaf. -/
structure MapsOf (holder : RootPageTableHolder) (calls : List MapCall) : Prop where
  wellFormed : WellFormed holder.rootTable
  alreadyMapped : holder.alreadyMapped = calls.map MapCall.mappingEntry
  unmapped : ∀ va, IsCanonical va → (∀ call ∈ calls, ¬call.Covers va) →
    resolve holder.rootTable va = none
  chunksFit : ∀ call ∈ calls, ∀ c ∈ call.chunks,
    ChunkFits call.virtualAddressStart call.physicalAddressStart call.mappedSize c.1 c.2
  mapped : ∀ call ∈ calls, ∀ c ∈ call.chunks, ∀ va, IsCanonical va →
    call.virtualAddressStart + c.1 ≤ va → va < call.virtualAddressStart + c.1 + levelSize c.2 →
    resolve holder.rootTable va = some (call.entry c.1, c.2)

theorem mapsOf_empty : MapsOf empty [] :=
  ⟨wellFormed_empty, rfl, fun _ _ _ => rfl, by simp, by simp⟩

namespace MapCall

variable {call : MapCall}

/-- An address of a chunk is an address of the call. -/
theorem covers_of_chunk {offset level va : ℕ}
    (hfits : ChunkFits call.virtualAddressStart call.physicalAddressStart call.mappedSize
      offset level)
    (hlo : call.virtualAddressStart + offset ≤ va)
    (hhi : va < call.virtualAddressStart + offset + levelSize level) : call.Covers va := by
  have hle := hfits.le_size
  exact ⟨by omega, by omega⟩

/-- A canonical address of a chunk goes through the chunk's leaf. -/
theorem sharesLeaf_of_chunk (hcall : call.Admissible) {offset level va : ℕ}
    (hfits : ChunkFits call.virtualAddressStart call.physicalAddressStart call.mappedSize
      offset level) (hva : IsCanonical va)
    (hlo : call.virtualAddressStart + offset ≤ va)
    (hhi : va < call.virtualAddressStart + offset + levelSize level) :
    SharesLeaf va (call.virtualAddressStart + offset) level :=
  (hfits.sharesLeaf_iff hcall.inHalf hva).mpr ⟨hlo, hhi⟩

/-- A canonical address the call does not cover goes through none of its
leaves. -/
theorem not_sharesLeaf_of_not_covers (hcall : call.Admissible) {offset level va : ℕ}
    (hfits : ChunkFits call.virtualAddressStart call.physicalAddressStart call.mappedSize
      offset level) (hva : IsCanonical va) (hcovers : ¬call.Covers va) :
    ¬SharesLeaf va (call.virtualAddressStart + offset) level := by
  intro hshares
  obtain ⟨hlo, hhi⟩ := (hfits.sharesLeaf_iff hcall.inHalf hva).mp hshares
  exact hcovers (covers_of_chunk hfits hlo hhi)

end MapCall

/-- `map` keeps the tables an implementation of the calls made so far. -/
theorem mapsOf_mapCall {holder holder' : RootPageTableHolder} {calls : List MapCall}
    {call : MapCall} (hmaps : MapsOf holder calls) (hcall : call.Admissible)
    (h : mapCall holder call = some holder') : MapsOf holder' (calls ++ [call]) := by
  obtain ⟨hv, hp, -, -, -, -, hfree, root', hloop, rfl⟩ := map_eq_some h
  have hwritten := mapLoop_spec hcall.leaf_mode hmaps.wellFormed hloop
  have hfits : ∀ c ∈ call.chunks,
      ChunkFits call.virtualAddressStart call.physicalAddressStart call.mappedSize c.1 c.2 :=
    fun c hc => (mapChunks_fits hv hp (alignUp_mod (by decide)) 0 (by simp) c hc).2
  -- `map`'s overlap check: the call covers no address of an earlier call
  have hdisjoint : ∀ call' ∈ calls, ∀ va, call'.Covers va → ¬call.Covers va := by
    intro call' hcall' va hcovers' hcovers
    have hcontains : ¬(call'.virtualAddressStart ≤
          call.virtualAddressStart + (alignUp call.size pageSize - 1) ∧
        call.virtualAddressStart ≤ call'.virtualAddressStart + (call'.mappedSize - 1)) := by
      have hnot := List.any_eq_false.mp hfree call'.mappingEntry
        (by rw [hmaps.alreadyMapped]; exact List.mem_map_of_mem hcall')
      rwa [MappingEntry.contains_iff] at hnot
    unfold MapCall.Covers MapCall.mappedSize at hcovers hcovers' hcontains
    omega
  refine ⟨hwritten.wellFormed,
    by simp [hmaps.alreadyMapped, MapCall.mappingEntry, MapCall.mappedSize], ?_, ?_, ?_⟩
  · intro va hva hnone
    rw [hwritten.frame va fun c hc =>
      MapCall.not_sharesLeaf_of_not_covers hcall (hfits c hc) hva (hnone call (by simp))]
    exact hmaps.unmapped va hva fun call' hcall' => hnone call' (by simp [hcall'])
  · intro call' hcall' c hc
    rcases List.mem_append.mp hcall' with hold | hnew
    · exact hmaps.chunksFit call' hold c hc
    · obtain rfl := List.mem_singleton.mp hnew
      exact hfits c hc
  · intro call' hcall' c hc va hva hlo hhi
    rcases List.mem_append.mp hcall' with hold | hnew
    · -- a chunk of an earlier call: the new leaves are elsewhere
      have hcovers' := MapCall.covers_of_chunk (hmaps.chunksFit call' hold c hc) hlo hhi
      rw [hwritten.frame va fun c' hc' => MapCall.not_sharesLeaf_of_not_covers hcall
        (hfits c' hc') hva (hdisjoint call' hold va hcovers')]
      exact hmaps.mapped call' hold c hc va hva hlo hhi
    · obtain rfl := List.mem_singleton.mp hnew
      exact hwritten.written c hc va (MapCall.sharesLeaf_of_chunk hcall (hfits c hc) hva hlo hhi)

/-- Every successful run of admissible calls keeps the tables an
implementation of them. -/
theorem mapsOf_run {calls : List MapCall} (hcalls : ∀ call ∈ calls, call.Admissible) :
    ∀ {holder holder' : RootPageTableHolder} {done : List MapCall}, MapsOf holder done →
      Machine.run mapCall holder calls = some holder' → MapsOf holder' (done ++ calls) := by
  induction calls with
  | nil =>
      intro holder holder' done hmaps hrun
      cases hrun
      simpa using hmaps
  | cons call calls ih =>
      intro holder holder' done hmaps hrun
      rw [Machine.run_cons] at hrun
      obtain ⟨holder₁, hstep, hrest⟩ := Option.bind_eq_some_iff.mp hrun
      have hmaps₁ := mapsOf_mapCall hmaps (hcalls call List.mem_cons_self) hstep
      simpa using ih (fun call' hcall' => hcalls call' (List.mem_cons_of_mem _ hcall')) hmaps₁ hrest

/-- After any successful run of admissible `map` calls on a fresh holder: a
canonical address no call covers walks to `None`; an address that a call
mapped with a 4 KiB leaf walks to a valid entry with the call's permissions and
user bit, and translates to the same offset in the call's physical range when
the call is user accessible (kernel mappings translate to `None`). -/
theorem map_walk_agreement {calls : List MapCall} {holder : RootPageTableHolder}
    (hcalls : ∀ call ∈ calls, call.Admissible)
    (hrun : Machine.run mapCall empty calls = some holder) {va : ℕ} (hva : IsCanonical va) :
    ((∀ call ∈ calls, ¬call.Covers va) → holder.getPageTableEntryForAddress va = some none) ∧
      ∀ call ∈ calls, call.MapsWithPage va →
        ∃ entry, holder.getPageTableEntryForAddress va = some (some entry) ∧
          entry.validity = true ∧ entry.xwrMode = call.privileges ∧
          entry.userModeAccessible = call.isUserModeAccessible ∧
          holder.translateUserspaceAddressToPhysicalAddress va =
            some (if call.isUserModeAccessible then
              some (call.physicalAddressStart + (va - call.virtualAddressStart)) else none) := by
  have hmaps : MapsOf holder calls := by simpa using mapsOf_run hcalls mapsOf_empty hrun
  constructor
  · intro hnone
    rw [getPageTableEntryForAddress_eq_resolve hmaps.wellFormed, hmaps.unmapped va hva hnone]
    rfl
  · rintro call hcall ⟨offset, hchunk, hlo, hhi⟩
    have hget : holder.getPageTableEntryForAddress va = some (some (call.entry offset)) := by
      rw [getPageTableEntryForAddress_eq_resolve hmaps.wellFormed,
        hmaps.mapped call hcall (offset, 0) hchunk va hva hlo hhi]
      rfl
    refine ⟨call.entry offset, hget, rfl, rfl, rfl, ?_⟩
    -- the leaf sends `va` to the same offset from the physical start
    have hfits := hmaps.chunksFit call hcall (offset, 0) hchunk
    have hpa : call.physicalAddressStart + offset < 2 ^ 56 := by
      have := hfits.le_size
      have := levelSize_pos 0
      have := (hcalls call hcall).physical_below
      simp only at *
      omega
    have haddr : (call.entry offset).getPhysicalAddress + va % pageSize =
        call.physicalAddressStart + (va - call.virtualAddressStart) :=
      leafAddress_leafEntry hfits hpa hlo hhi
    rw [translateUserspaceAddressToPhysicalAddress_of_entry hget, haddr]
    simp [MapCall.entry]

theorem map_walk_agreement_single_call :
    ∃ holder, Machine.run mapCall empty [⟨0x1000, 0x80001000, 0x2000, .readWrite, true⟩] =
        some holder ∧
      (((∀ call ∈ [(⟨0x1000, 0x80001000, 0x2000, .readWrite, true⟩ : MapCall)],
          ¬call.Covers 0x1800) → holder.getPageTableEntryForAddress 0x1800 = some none) ∧
        ∀ call ∈ [(⟨0x1000, 0x80001000, 0x2000, .readWrite, true⟩ : MapCall)],
          call.MapsWithPage 0x1800 →
          ∃ entry, holder.getPageTableEntryForAddress 0x1800 = some (some entry) ∧
            entry.validity = true ∧ entry.xwrMode = call.privileges ∧
            entry.userModeAccessible = call.isUserModeAccessible ∧
            holder.translateUserspaceAddressToPhysicalAddress 0x1800 =
              some (if call.isUserModeAccessible then
                some (call.physicalAddressStart + (0x1800 - call.virtualAddressStart))
              else none)) := by
  obtain ⟨holder, hrun⟩ : ∃ holder, Machine.run mapCall empty
      [⟨0x1000, 0x80001000, 0x2000, .readWrite, true⟩] = some holder :=
    Option.isSome_iff_exists.mp (by decide)
  refine ⟨holder, hrun, map_walk_agreement ?_ hrun (by decide)⟩
  intro call hcall
  rw [List.mem_singleton.mp hcall]
  exact ⟨by decide, by decide, by decide⟩

/-- `map` writes a 2 MiB or 1 GiB leaf wherever the virtual address, the
physical address and the remaining size allow it, but the kernel's walk always
descends three levels and asks a leaf for its next table
(`get_target_page_table` asserts `!is_leaf`).  So after any successful run of
admissible calls, on every canonical address under such a leaf both
`get_page_table_entry_for_address` and
`translate_userspace_address_to_physical_address` panic. -/
theorem map_walk_large_leaf_panics {calls : List MapCall} {holder : RootPageTableHolder}
    (hcalls : ∀ call ∈ calls, call.Admissible)
    (hrun : Machine.run mapCall empty calls = some holder) {call : MapCall} (hcall : call ∈ calls)
    {offset level : ℕ} (hchunk : (offset, level + 1) ∈ call.chunks) {va : ℕ}
    (hva : IsCanonical va) (hlo : call.virtualAddressStart + offset ≤ va)
    (hhi : va < call.virtualAddressStart + offset + levelSize (level + 1)) :
    holder.getPageTableEntryForAddress va = none ∧
      holder.translateUserspaceAddressToPhysicalAddress va = none := by
  have hmaps : MapsOf holder calls := by simpa using mapsOf_run hcalls mapsOf_empty hrun
  have hwalk : holder.getPageTableEntryForAddress va = none := by
    rw [getPageTableEntryForAddress_eq_resolve hmaps.wellFormed,
      hmaps.mapped call hcall (offset, level + 1) hchunk va hva hlo hhi]
    rfl
  exact ⟨hwalk, translateUserspaceAddressToPhysicalAddress_of_panic hwalk⟩

/-- One user mapping of 1 GiB at `0x40000000`, backed at the same physical
address: `map` writes a single 1 GiB leaf, and the walk at its first byte
panics. -/
theorem map_walk_large_leaf_panics_gib :
    ∃ holder, Machine.run mapCall empty [⟨2 ^ 30, 2 ^ 30, 2 ^ 30, .readWrite, true⟩] =
        some holder ∧
      (⟨2 ^ 30, 2 ^ 30, 2 ^ 30, .readWrite, true⟩ : MapCall).chunks = [(0, 2)] ∧
      holder.getPageTableEntryForAddress (2 ^ 30) = none ∧
      holder.translateUserspaceAddressToPhysicalAddress (2 ^ 30) = none := by
  obtain ⟨holder, hrun⟩ : ∃ holder, Machine.run mapCall empty
      [⟨2 ^ 30, 2 ^ 30, 2 ^ 30, .readWrite, true⟩] = some holder :=
    Option.isSome_iff_exists.mp (by decide)
  -- the loop's only chunk: the 1 GiB test passes at offset 0
  have hchunks : (⟨2 ^ 30, 2 ^ 30, 2 ^ 30, .readWrite, true⟩ : MapCall).chunks = [(0, 2)] := by
    have hsize : alignUp (2 ^ 30) pageSize = 2 ^ 30 := by decide
    have hlevel : chunkLevel (2 ^ 30) (2 ^ 30) (2 ^ 30) 0 = 2 := by decide
    unfold MapCall.chunks MapCall.mappedSize
    dsimp only
    rw [hsize, mapChunks_of_lt (by decide), hlevel, mapChunks_of_le (by decide)]
  have hcall : ∀ call ∈ [(⟨2 ^ 30, 2 ^ 30, 2 ^ 30, .readWrite, true⟩ : MapCall)],
      call.Admissible := by
    intro call hcall
    rw [List.mem_singleton.mp hcall]
    exact ⟨by decide, by decide, by decide⟩
  have hchunk : ((0, 1 + 1) : ℕ × ℕ) ∈
      (⟨2 ^ 30, 2 ^ 30, 2 ^ 30, .readWrite, true⟩ : MapCall).chunks := by
    rw [hchunks]
    exact List.mem_singleton_self _
  exact ⟨holder, hrun, hchunks, map_walk_large_leaf_panics hcall hrun List.mem_cons_self hchunk
    (by decide) (by decide) (by decide)⟩

end RootPageTableHolder

end Solaya
