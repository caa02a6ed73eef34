import Solaya.Drivers.VirtQueue
import Solaya.Core.Bytes
import Solaya.Core.Machine

/-!
# Block requests

`block::read` (`drivers/virtio/block.rs`) checks the offset against the
device's capacity, rounds the byte range out to whole sectors and submits one
request chain through `submit_read`: the request header, a device-writable
buffer for the sectors and a device-writable status byte.  `submit_read`
takes the chain's three descriptors with `put_buffer_chain` and `expect`s that
they are there.

A read task runs up to its `await` on the completion; reads that start while
the device has not completed the earlier ones each hold three of the queue's
256 descriptors.  The 86th such read finds one free descriptor and panics
(`concurrent_reads_exhaust_descriptors`).
-/

namespace Solaya.Block

open VirtQueue

/-- `EXPECTED_QUEUE_SIZE`. -/
def expectedQueueSize : ℕ := 0x100

/-- `SECTOR_SIZE`. -/
def sectorSize : ℕ := 512

/-- `VIRTIO_BLK_T_IN`. -/
def virtioBlkTIn : ℕ := 0

/-- `VirtioBlkReqHeader` as `as_slice` lays it out: the request type, a
reserved word and the sector, little-endian. -/
def requestHeader (requestType sector : ℕ) : List UInt8 :=
  Bytes.encodeLE 4 requestType ++ Bytes.encodeLE 4 0 ++ Bytes.encodeLE 8 sector

/-- `BlockDevice::submit_read`: the head of the chain it made available, and
the queue after.  No free descriptors is a panic at the `expect`. -/
def submitRead (q : VirtQueue) (capacitySectors startSector bufLen : ℕ) :
    Option (ℕ × VirtQueue) := do
  if bufLen % sectorSize ≠ 0 then none
  let numSectors := bufLen / sectorSize
  -- `start_sector + num_sectors` is a `u64` sum
  if 2 ^ 64 ≤ startSector + numSectors then none
  if capacitySectors < startSector + numSectors then none
  let chain := ((NonEmptyVec.new (requestHeader virtioBlkTIn startSector,
      BufferDirection.driverWritable)).push (List.replicate bufLen 0, .deviceWritable)).push
    ([0], .deviceWritable)
  match ← putBufferChain expectedQueueSize q chain with
  | (.ok head, q) => some (head, q)
  | (.error _, _) => none

/-- Where `block::read` is when it reaches its `await`: done at once, or
waiting for the request with head `head`, whose sectors hold the bytes from
`offsetInFirstSector` on. -/
inductive ReadStart where
  | done (length : ℕ)
  | submitted (head offsetInFirstSector readLen : ℕ)
  deriving DecidableEq, Repr

/-- `block::read` up to its `await`, on the device of `capacitySectors`
sectors. -/
def readStart (q : VirtQueue) (capacitySectors offset bufLen : ℕ) :
    Option (ReadStart × VirtQueue) := do
  -- `capacity_bytes` multiplies in `u64`
  let cap := capacitySectors * sectorSize
  if 2 ^ 64 ≤ cap then none
  if cap ≤ offset then return (.done 0, q)
  let readLen := min bufLen (cap - offset)
  if readLen = 0 then return (.done 0, q)
  let startSector := offset / sectorSize
  let offsetInFirstSector := offset % sectorSize
  let endSector := (offset + readLen + sectorSize - 1) / sectorSize
  let numSectors := endSector - startSector
  let (head, q) ← submitRead q capacitySectors startSector (numSectors * sectorSize)
  pure (.submitted head offsetInFirstSector readLen, q)

/-- Reads started one after another, each up to its `await`: the queue they
leave. -/
def readStep (capacitySectors : ℕ) (q : VirtQueue) (read : ℕ × ℕ) : Option VirtQueue :=
  (readStart q capacitySectors read.1 read.2).map (·.2)

/-! ## Reads that the device has not completed yet -/

/-- What the driver keeps of its free list between requests: the free indices
are distinct, and none of them has a buffer outstanding. -/
structure FreeFresh (q : VirtQueue) : Prop where
  nodup : q.freeDescriptorIndices.Nodup
  fresh : ∀ i ∈ q.freeDescriptorIndices, q.outstandingBuffers i = none

theorem freeFresh_new {queueSize : ℕ} {q : VirtQueue} (h : VirtQueue.new queueSize = some q) :
    FreeFresh q ∧ q.freeDescriptorIndices.length = queueSize := by
  unfold VirtQueue.new at h
  split_ifs at h
  cases h
  exact ⟨⟨List.nodup_range, fun _ _ => rfl⟩, List.length_range⟩

/-- `put_buffer_chain` on a fresh free list takes one descriptor for each
buffer of the chain and leaves the rest fresh. -/
theorem FreeFresh.putBufferChain {queueSize : ℕ} {q : VirtQueue}
    {buffers : NonEmptyVec (List UInt8 × BufferDirection)} (hq : FreeFresh q)
    (h : buffers.len ≤ q.freeDescriptorIndices.length)
    (hshort : ∀ b ∈ buffers.toList, b.1.length < 2 ^ 32) :
    ∃ head q', putBufferChain queueSize q buffers = some (.ok head, q') ∧ FreeFresh q' ∧
      q'.freeDescriptorIndices.length + buffers.len = q.freeDescriptorIndices.length := by
  obtain ⟨head, q', -, hput, -, hframe, _, _, hq'⟩ :=
    @putBufferChain_of_le queueSize q buffers h hq.nodup hq.fresh hshort
  have hrev : q.freeDescriptorIndices.reverse.Nodup := List.nodup_reverse.mpr hq.nodup
  have hfree : q'.freeDescriptorIndices =
      (q.freeDescriptorIndices.reverse.drop buffers.len).reverse := by
    rw [hq']
  refine ⟨head, q', hput, ⟨?_, ?_⟩, ?_⟩
  · rw [hfree, List.nodup_reverse]
    exact hrev.sublist (List.drop_sublist _ _)
  · intro i hi
    rw [hfree, List.mem_reverse] at hi
    -- the indices the chain took are the other end of the reversed list
    have htaken : i ∉ q.freeDescriptorIndices.reverse.take buffers.len :=
      fun hmem => List.disjoint_take_drop hrev (Nat.le_refl _) hmem hi
    rw [(hframe i htaken).2]
    exact hq.fresh i (List.mem_reverse.mp (List.mem_of_mem_drop hi))
  · rw [hfree, List.length_reverse, List.length_drop, List.length_reverse]
    omega

section SubmitRead

variable {q : VirtQueue} {capacitySectors startSector bufLen : ℕ}

/-- `submit_read` with fewer than three free descriptors: the `expect` on
`put_buffer_chain` panics, whatever the request. -/
theorem submitRead_eq_none_of_lt (h : q.freeDescriptorIndices.length < 3) :
    submitRead q capacitySectors startSector bufLen = none := by
  unfold submitRead
  simp only [bind, Option.bind]
  split_ifs
  · rfl
  · rfl
  · rfl
  · rw [putBufferChain_of_lt h]

/-- `submit_read` on a fresh free list with three descriptors left: it panics
at one of its checks, or takes three descriptors and leaves the rest fresh. -/
theorem submitRead_takes_three (hq : FreeFresh q) (h3 : 3 ≤ q.freeDescriptorIndices.length) :
    submitRead q capacitySectors startSector bufLen = none ∨
      ∃ head q', submitRead q capacitySectors startSector bufLen = some (head, q') ∧
        FreeFresh q' ∧ q'.freeDescriptorIndices.length + 3 = q.freeDescriptorIndices.length := by
  unfold submitRead
  simp only [bind, Option.bind]
  split_ifs
  · exact Or.inl rfl
  · exact Or.inl rfl
  · exact Or.inl rfl
  set chain := ((NonEmptyVec.new (requestHeader virtioBlkTIn startSector,
      BufferDirection.driverWritable)).push (List.replicate bufLen 0, .deviceWritable)).push
    ([0], .deviceWritable) with hchain
  have hlen : chain.len = 3 := rfl
  by_cases hshort : bufLen < 2 ^ 32
  · have hshort' : ∀ b ∈ chain.toList, b.1.length < 2 ^ 32 := by
      simp [hchain, NonEmptyVec.toList, NonEmptyVec.push, NonEmptyVec.new, requestHeader,
        Bytes.length_encodeLE]
      omega
    obtain ⟨head, q', hput, hq', hlen'⟩ :=
      @FreeFresh.putBufferChain expectedQueueSize q chain hq (hlen ▸ h3) hshort'
    rw [hput]
    exact Or.inr ⟨head, q', rfl, hq', hlen ▸ hlen'⟩
  · have hlong : ∃ b ∈ chain.toList, 2 ^ 32 ≤ b.1.length :=
      ⟨(List.replicate bufLen 0, .deviceWritable),
        by simp [hchain, NonEmptyVec.toList, NonEmptyVec.push, NonEmptyVec.new],
        by simp only [List.length_replicate]; omega⟩
    rw [putBufferChain_eq_none_of_long (hlen ▸ h3) hlong]
    exact Or.inl rfl

/-- `submit_read` on a fresh free list with three descriptors left, for an
aligned request inside the device whose buffer fits a descriptor, takes three
descriptors. -/
theorem submitRead_of_fresh (hq : FreeFresh q) (h3 : 3 ≤ q.freeDescriptorIndices.length)
    (haligned : bufLen % sectorSize = 0)
    (hinside : startSector + bufLen / sectorSize ≤ capacitySectors)
    (hcap : capacitySectors < 2 ^ 64) (hshort : bufLen < 2 ^ 32) :
    ∃ head q', submitRead q capacitySectors startSector bufLen = some (head, q') ∧
      FreeFresh q' ∧ q'.freeDescriptorIndices.length + 3 = q.freeDescriptorIndices.length := by
  unfold submitRead
  simp only [bind, Option.bind]
  rw [if_neg (by omega), if_neg (by omega), if_neg (by omega)]
  set chain := ((NonEmptyVec.new (requestHeader virtioBlkTIn startSector,
      BufferDirection.driverWritable)).push (List.replicate bufLen 0, .deviceWritable)).push
    ([0], .deviceWritable) with hchain
  have hshort' : ∀ b ∈ chain.toList, b.1.length < 2 ^ 32 := by
    simp [hchain, NonEmptyVec.toList, NonEmptyVec.push, NonEmptyVec.new, requestHeader,
      Bytes.length_encodeLE]
    omega
  obtain ⟨head, q', hput, hq', hlen'⟩ :=
    @FreeFresh.putBufferChain expectedQueueSize q chain hq h3 hshort'
  rw [hput]
  exact ⟨head, q', rfl, hq', hlen'⟩

end SubmitRead

section ReadStart

variable {q : VirtQueue} {capacitySectors offset bufLen : ℕ}

/-- A read of at least one byte inside a device whose capacity fits `u64`
submits the sectors from the offset's on to the end of the range. -/
theorem readStep_eq (hinside : offset < capacitySectors * sectorSize) (hlen : 0 < bufLen)
    (hcap : capacitySectors * sectorSize < 2 ^ 64) :
    readStep capacitySectors q (offset, bufLen) =
      (submitRead q capacitySectors (offset / sectorSize)
        (((offset + min bufLen (capacitySectors * sectorSize - offset) + sectorSize - 1) /
          sectorSize - offset / sectorSize) * sectorSize)).map (·.2) := by
  unfold readStep readStart
  simp only [bind, Option.bind, pure]
  rw [if_neg (by omega), if_neg (by omega), if_neg (by omega)]
  cases submitRead q capacitySectors (offset / sectorSize) _ <;> rfl

/-- A read whose capacity computation overflows `u64` panics. -/
theorem readStep_eq_none_of_cap (hcap : 2 ^ 64 ≤ capacitySectors * sectorSize) :
    readStep capacitySectors q (offset, bufLen) = none := by
  unfold readStep readStart
  simp only [bind, Option.bind]
  rw [if_pos hcap]
  rfl

/-- A read of at least one byte inside the device, started on a fresh free
list, panics or takes three descriptors and leaves the rest fresh. -/
theorem readStep_takes_three (hq : FreeFresh q) (hinside : offset < capacitySectors * sectorSize)
    (hlen : 0 < bufLen) :
    readStep capacitySectors q (offset, bufLen) = none ∨
      ∃ q', readStep capacitySectors q (offset, bufLen) = some q' ∧ FreeFresh q' ∧
        q'.freeDescriptorIndices.length + 3 = q.freeDescriptorIndices.length := by
  by_cases hcap : 2 ^ 64 ≤ capacitySectors * sectorSize
  · exact Or.inl (readStep_eq_none_of_cap hcap)
  rw [readStep_eq hinside hlen (by omega)]
  by_cases h3 : q.freeDescriptorIndices.length < 3
  · rw [submitRead_eq_none_of_lt h3]
    exact Or.inl rfl
  rcases submitRead_takes_three hq (by omega) with hnone | ⟨head, q', hsubmit, hq', hlen'⟩
  · rw [hnone]
    exact Or.inl rfl
  · rw [hsubmit]
    exact Or.inr ⟨q', rfl, hq', hlen'⟩

/-- A read of at least one byte inside a device whose capacity fits `u64`,
with a buffer two sectors short of `2^32` bytes, started on a fresh free list
with three descriptors left, takes three of them. -/
theorem readStep_of_fresh (hq : FreeFresh q) (h3 : 3 ≤ q.freeDescriptorIndices.length)
    (hinside : offset < capacitySectors * sectorSize) (hlen : 0 < bufLen)
    (hcap : capacitySectors * sectorSize < 2 ^ 64) (hshort : bufLen + 2 * sectorSize ≤ 2 ^ 32) :
    ∃ q', readStep capacitySectors q (offset, bufLen) = some q' ∧ FreeFresh q' ∧
      q'.freeDescriptorIndices.length + 3 = q.freeDescriptorIndices.length := by
  rw [readStep_eq hinside hlen hcap]
  set sectorBufLen := ((offset + min bufLen (capacitySectors * sectorSize - offset) +
    sectorSize - 1) / sectorSize - offset / sectorSize) * sectorSize with hsectorBufLen
  simp only [sectorSize] at hinside hcap hshort hsectorBufLen
  -- the sector range rounds the byte range out by less than a sector at each end
  obtain ⟨head, q', hsubmit, hq', hlen'⟩ :=
    @submitRead_of_fresh q capacitySectors (offset / sectorSize) sectorBufLen hq h3
      (by simp only [sectorSize]; omega) (by simp only [sectorSize]; omega)
      (by omega) (by omega)
  rw [hsubmit]
  exact ⟨q', rfl, hq', hlen'⟩

end ReadStart

/-! ## Reads started while the device completes nothing

Each task runs `read` up to its `await`; its `harvest_completions` finds
nothing in the used ring, so it parks with its three descriptors taken.  The
queue has `EXPECTED_QUEUE_SIZE` of them. -/

section Runs

variable {capacitySectors : ℕ}

/-- Reads started one after another on a fresh free list, each asking for at
least one byte inside the device, panic once they need more descriptors than
the list has: each read panics or takes three. -/
theorem run_readStep_eq_none :
    ∀ {q : VirtQueue} {reads : List (ℕ × ℕ)}, FreeFresh q →
      (∀ r ∈ reads, r.1 < capacitySectors * sectorSize ∧ 0 < r.2) →
      q.freeDescriptorIndices.length < 3 * reads.length →
      Machine.run (readStep capacitySectors) q reads = none := by
  intro q reads
  induction reads generalizing q with
  | nil =>
      intro _ _ hlen
      simp at hlen
  | cons r reads ih =>
      obtain ⟨offset, bufLen⟩ := r
      intro hq hreads hlen
      obtain ⟨hinside, hpos⟩ := hreads (offset, bufLen) List.mem_cons_self
      rw [Machine.run_cons]
      rcases readStep_takes_three hq hinside hpos with hnone | ⟨q', hstep, hq', hlen'⟩
      · rw [hnone]
        rfl
      · rw [hstep, Option.bind_some]
        refine ih hq' (fun r hr => hreads r (List.mem_cons_of_mem _ hr)) ?_
        simp only [List.length_cons] at hlen
        omega

/-- Reads that fit, started one after another on a fresh free list, all start:
each takes three descriptors. -/
theorem run_readStep_of_le (hcap : capacitySectors * sectorSize < 2 ^ 64) :
    ∀ {q : VirtQueue} {reads : List (ℕ × ℕ)}, FreeFresh q →
      (∀ r ∈ reads, r.1 < capacitySectors * sectorSize ∧ 0 < r.2 ∧
        r.2 + 2 * sectorSize ≤ 2 ^ 32) →
      3 * reads.length ≤ q.freeDescriptorIndices.length →
      ∃ q', Machine.run (readStep capacitySectors) q reads = some q' ∧ FreeFresh q' ∧
        q'.freeDescriptorIndices.length + 3 * reads.length = q.freeDescriptorIndices.length := by
  intro q reads
  induction reads generalizing q with
  | nil =>
      intro hq _ _
      exact ⟨q, rfl, hq, rfl⟩
  | cons r reads ih =>
      obtain ⟨offset, bufLen⟩ := r
      intro hq hreads hlen
      obtain ⟨hinside, hpos, hshort⟩ := hreads (offset, bufLen) List.mem_cons_self
      simp only [List.length_cons] at hlen ⊢
      obtain ⟨q₁, hstep, hq₁, hlen₁⟩ :=
        readStep_of_fresh hq (by omega) hinside hpos hcap hshort
      obtain ⟨q', hrun, hq', hlen'⟩ :=
        ih hq₁ (fun r hr => hreads r (List.mem_cons_of_mem _ hr)) (by omega)
      rw [Machine.run_cons, hstep, Option.bind_some]
      exact ⟨q', hrun, hq', by omega⟩

end Runs

/-- On the block device's queue of `EXPECTED_QUEUE_SIZE` descriptors, any 86
reads that each ask for a byte inside the device and start before the device
completes a request panic: 85 of them hold 255 descriptors, and the
`put_buffer_chain(..).expect(..)` of the next one finds one free. -/
theorem concurrent_reads_exhaust_descriptors {q₀ : VirtQueue}
    (hnew : VirtQueue.new expectedQueueSize = some q₀) (capacitySectors : ℕ)
    (reads : List (ℕ × ℕ)) (h86 : 86 ≤ reads.length)
    (hreads : ∀ r ∈ reads, r.1 < capacitySectors * sectorSize ∧ 0 < r.2) :
    Machine.run (readStep capacitySectors) q₀ reads = none := by
  obtain ⟨hq, hlen⟩ := freeFresh_new hnew
  refine run_readStep_eq_none hq hreads ?_
  rw [hlen, expectedQueueSize]
  omega

/-- A one-sector device: 85 one-byte reads at offset 0 start, the 86th panics. -/
theorem concurrent_reads_exhaust_descriptors_one_sector :
    ∃ q₀, VirtQueue.new expectedQueueSize = some q₀ ∧
      (∃ q, Machine.run (readStep 1) q₀ (List.replicate 85 (0, 1)) = some q) ∧
      Machine.run (readStep 1) q₀ (List.replicate 86 (0, 1)) = none := by
  obtain ⟨q₀, hnew⟩ : ∃ q₀, VirtQueue.new expectedQueueSize = some q₀ := ⟨_, rfl⟩
  obtain ⟨hq, hlen⟩ := freeFresh_new hnew
  have hreads : ∀ n, ∀ r ∈ List.replicate n ((0 : ℕ), (1 : ℕ)),
      r.1 < 1 * sectorSize ∧ 0 < r.2 ∧ r.2 + 2 * sectorSize ≤ 2 ^ 32 := by
    intro n r hr
    rw [List.eq_of_mem_replicate hr, sectorSize]
    decide
  obtain ⟨q, hrun, -⟩ := run_readStep_of_le (by decide) hq (hreads 85)
    (by rw [hlen, List.length_replicate, expectedQueueSize]; omega)
  refine ⟨q₀, hnew, ⟨q, hrun⟩, ?_⟩
  exact concurrent_reads_exhaust_descriptors hnew 1 _ (Nat.le_of_eq (List.length_replicate ..).symm)
    (fun r hr => ⟨(hreads 86 r hr).1, (hreads 86 r hr).2.1⟩)

end Solaya.Block
