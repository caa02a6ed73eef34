import Solaya.Drivers.VirtQueue
import Solaya.Core.Machine
import Mathlib.Data.List.Perm.Basic
import Mathlib.Data.List.InsertIdx

/-!
# The virtqueue and its device

The driver's half of a virtqueue runs against a device that keeps the split
ring rules of virtio: it takes the heads the driver made available in ring
order, follows each chain through `next` while `VIRTQ_DESC_F_NEXT` is set,
writes into the chain's device-writable buffers front to back, and later, in
any order, puts each head it took into the used ring with the number of bytes
written.

`VirtioSystem` is the driver's queue, the device's position in the available
ring and the heads it holds, and as ghost state the chains on their way: made
available, taken by the device, returned with the bytes written, and given
back by `receive_buffer`.  `Inv` ties the ghost chains to the queue.  From it,
in every reachable state the free list and the outstanding buffers split the
descriptor indices, `put_buffer_chain` fails exactly when too few descriptors
are free and then leaves the queue alone, and `receive_buffer` gives back each
returned chain once, in used-ring order, with the device's bytes spread over
its device-writable buffers (`deliver`).  A buffer of `2^32` bytes or more
makes `put_buffer_chain` panic (`putBufferChain_eq_none_of_long`).
-/

namespace Solaya

open VirtQueue

/-- A chain `put_buffer_chain` made available: its head, its descriptors in
chain order and its buffers. -/
structure Request where
  head : ℕ
  indices : List ℕ
  buffers : List (List UInt8 × BufferDirection)
  deriving DecidableEq

/-- What the buffers of a chain give back once the device wrote `data`: the
driver-writable ones as they were, and the device-writable ones, front to
back, each the next bytes of `data`, as many as fit. -/
def deliver : List (List UInt8 × BufferDirection) → List UInt8 → List (List UInt8)
  | [], _ => []
  | (buffer, .driverWritable) :: buffers, data => buffer :: deliver buffers data
  | (buffer, .deviceWritable) :: buffers, data =>
    data.take buffer.length :: deliver buffers (data.drop buffer.length)

/-- The memory behind a chain's buffers after the device wrote `data` over
it: each device-writable buffer's first bytes replaced by its share. -/
def writtenContents :
    List (List UInt8 × BufferDirection) → List (List UInt8) → List UInt8 → List (List UInt8)
  | (_, .driverWritable) :: buffers, content :: contents, data =>
    content :: writtenContents buffers contents data
  | (buffer, .deviceWritable) :: buffers, content :: contents, data =>
    let segment := data.take buffer.length
    (segment ++ content.drop segment.length) :: writtenContents buffers contents
      (data.drop buffer.length)
  | _, _, _ => []

/-- The chain the device follows from `head`: `next` while
`VIRTQ_DESC_F_NEXT` is set, for at most `fuel` descriptors. -/
def deviceChain (q : VirtQueue) : ℕ → ℕ → List ℕ
  | 0, _ => []
  | fuel + 1, idx =>
    let descriptor := q.descriptorArea idx
    idx :: if descriptor.flags &&& virtqDescFNext != 0 then deviceChain q fuel descriptor.next
      else []

/-- The device writes `data` into the device-writable buffers of a chain,
front to back, each up to its descriptor's length; it cannot write more than
the chain holds. -/
def deviceWrite (q : VirtQueue) : List ℕ → List UInt8 → Option VirtQueue
  | [], data => if data = [] then some q else none
  | idx :: chain, data =>
    let descriptor := q.descriptorArea idx
    if descriptor.flags &&& virtqDescFWrite != 0 then do
      let content ← q.outstandingBuffers idx
      let segment := data.take descriptor.len
      deviceWrite
        { q with
          outstandingBuffers := Function.update q.outstandingBuffers idx
            (some (segment ++ content.drop segment.length)) }
        chain (data.drop descriptor.len)
    else deviceWrite q chain data

/-- What `receive_buffer` cuts out of the memory the device wrote is what
the device wrote, spread over the device-writable buffers in chain order. -/
theorem cutBuffers_writtenContents :
    ∀ (buffers : List (List UInt8 × BufferDirection)) (data : List UInt8),
    cutBuffers buffers (writtenContents buffers (buffers.map (·.1)) data) data.length =
      deliver buffers data
  | [], _ => by simp [cutBuffers, deliver]
  | (buffer, .driverWritable) :: buffers, data => by
    simp [cutBuffers, writtenContents, deliver, cutBuffers_writtenContents buffers data]
  | (buffer, .deviceWritable) :: buffers, data => by
    -- the device's share of this buffer, over what is left of it
    have hshare : (data.take buffer.length ++
        buffer.drop (data.take buffer.length).length).take data.length =
        data.take buffer.length := by
      rw [List.take_append, List.take_of_length_le (List.length_take_le' _ _)]
      by_cases hfit : data.length ≤ buffer.length
      · simp [List.take_of_length_le hfit]
      · simp [Nat.min_eq_left (Nat.le_of_not_le hfit)]
    have hlength : (data.take buffer.length ++
        buffer.drop (data.take buffer.length).length).length = buffer.length := by
      simp only [List.length_append, List.length_take, List.length_drop]
      omega
    simp only [cutBuffers, writtenContents, deliver, List.map_cons]
    rw [hshare, hlength, ← List.length_drop, cutBuffers_writtenContents buffers]

/-- The device's walk from a stored chain's head follows exactly the chain. -/
theorem deviceChain_eq {q : VirtQueue} : ∀ {indices : List ℕ}
    {buffers : List (List UInt8 × BufferDirection)} {contents : List (List UInt8)} {fuel : ℕ},
    ChainStored q indices buffers contents → indices ≠ [] → indices.length ≤ fuel →
    deviceChain q fuel (indices.headD 0) = indices
  | idx :: rest, (buffer, direction) :: buffers, content :: contents, fuel + 1, hstored, _,
      hfuel => by
    obtain ⟨hdesc, -, -, hrest⟩ := hstored
    cases rest with
    | nil => simp [deviceChain, hdesc]
    | cons next rest =>
      have hwalk := deviceChain_eq hrest (List.cons_ne_nil _ _) (by simpa using hfuel)
      simp only [List.headD_cons] at hwalk
      simp [deviceChain, hdesc, hwalk]

/-- What the device's write leaves in the queue: the chain's memory as
`writtenContents` says, everything else as it was. -/
theorem deviceWrite_spec : ∀ {q q' : VirtQueue} {indices : List ℕ}
    {buffers : List (List UInt8 × BufferDirection)} {contents : List (List UInt8)}
    {data : List UInt8}, deviceWrite q indices data = some q' →
    ChainStored q indices buffers contents → indices.Nodup →
    ChainStored q' indices buffers (writtenContents buffers contents data) ∧
      (∀ x ∉ indices, q'.outstandingBuffers x = q.outstandingBuffers x) ∧
      ∃ outstandingBuffers, q' = { q with outstandingBuffers }
  | q, q', [], [], [], data, hwrite, _, _ => by
    by_cases hdata : data = []
    · simp only [deviceWrite, hdata, if_true, Option.some.injEq] at hwrite
      subst hwrite
      exact ⟨trivial, fun _ _ => rfl, q.outstandingBuffers, rfl⟩
    · simp [deviceWrite, hdata] at hwrite
  | q, q', idx :: rest, (buffer, direction) :: buffers, content :: contents, data, hwrite,
      hstored, hnodup => by
    obtain ⟨hdesc, hout, hlen, hrest⟩ := hstored
    obtain ⟨hnotin, hnodup'⟩ := List.nodup_cons.mp hnodup
    cases direction with
    | driverWritable =>
      simp only [deviceWrite, hdesc, descriptorFlags_write] at hwrite
      obtain ⟨hstored', hframe, outstandingBuffers, hq'⟩ := deviceWrite_spec hwrite hrest hnodup'
      have hidx := hframe idx hnotin
      subst hq'
      refine ⟨⟨hdesc, hidx.trans hout, hlen, hstored'⟩, fun x hx => ?_, outstandingBuffers, rfl⟩
      exact hframe x fun h => hx (List.mem_cons_of_mem idx h)
    | deviceWritable =>
      -- the device writes this buffer's share, then the rest of the chain
      let segment := data.take buffer.length
      let q₁ : VirtQueue := { q with
        outstandingBuffers := Function.update q.outstandingBuffers idx
          (some (segment ++ content.drop segment.length)) }
      have hwrite₁ : deviceWrite q₁ rest (data.drop buffer.length) = some q' := by
        simpa [deviceWrite, hdesc, hout, q₁, segment] using hwrite
      have hrest₁ : ChainStored q₁ rest buffers contents := by
        refine hrest.frame fun x hx => ⟨rfl, ?_⟩
        have hne : x ≠ idx := fun h => hnotin (h ▸ hx)
        simp [q₁, Function.update_of_ne hne]
      obtain ⟨hstored', hframe, outstandingBuffers, hq'⟩ :=
        deviceWrite_spec hwrite₁ hrest₁ hnodup'
      have hidx := hframe idx hnotin
      subst hq'
      refine ⟨⟨hdesc, ?_, ?_, hstored'⟩, fun x hx => ?_, outstandingBuffers, rfl⟩
      · rw [hidx]
        simp [q₁, segment]
      · simp only [List.length_append, List.length_drop, List.length_take]
        omega
      · have hne : x ≠ idx := fun h => hx (h ▸ List.mem_cons_self)
        rw [hframe x fun h => hx (List.mem_cons_of_mem idx h)]
        simp [q₁, Function.update_of_ne hne]

/-- The driver's queue and the device, with the chains on their way as ghost
state. -/
structure VirtioSystem where
  queue : VirtQueue
  /-- How far the device has read the available ring, a `u16`. -/
  deviceAvailIdx : ℕ
  /-- The heads the device has taken and not yet returned. -/
  taken : List ℕ
  /-- Ghost: the chains available and not yet taken, in ring order. -/
  available : List Request
  /-- Ghost: the chains the device holds, as `taken`. -/
  inDevice : List Request
  /-- Ghost: the chains in the used ring, in ring order, with what the device
  wrote into each. -/
  completed : List (Request × List UInt8)
  /-- Ghost: the chains `receive_buffer` gave back. -/
  returned : List Request
  /-- Ghost: every chain `put_buffer_chain` made available. -/
  submitted : List Request

/-- What happens next: a driver call, or a device action. -/
inductive Event where
  | put (buffers : NonEmptyVec (List UInt8 × BufferDirection))
  | receive
  | deviceTake
  | deviceComplete (k : ℕ) (data : List UInt8)

namespace VirtioSystem

/-- The system around a fresh queue. -/
def init (q : VirtQueue) : VirtioSystem := ⟨q, 0, [], [], [], [], [], []⟩

/-- One event.  A driver call that panics is `none`, and so is a device
action the device cannot take: taking from an empty available ring, returning
a chain it does not hold, or writing more than the chain holds or than a
`u32` length says. -/
def step (queueSize : ℕ) (s : VirtioSystem) : Event → Option VirtioSystem
  | .put buffers => do
    let (result, q) ← putBufferChain queueSize s.queue buffers
    match result with
    | .error _ => pure { s with queue := q }
    | .ok head =>
      let request : Request :=
        ⟨head, s.queue.freeDescriptorIndices.reverse.take buffers.len, buffers.toList⟩
      pure { s with
        queue := q
        available := s.available ++ [request]
        submitted := s.submitted ++ [request] }
  | .receive => do
    let (_, q) ← receiveBuffer queueSize s.queue
    pure { s with
      queue := q
      completed := []
      returned := s.returned ++ s.completed.map (·.1) }
  | .deviceTake =>
    if s.deviceAvailIdx = s.queue.driverAreaIdx then none
    else
      let head := s.queue.driverAreaRing (s.deviceAvailIdx % queueSize)
      some { s with
        deviceAvailIdx := (s.deviceAvailIdx + 1) % 2 ^ 16
        taken := s.taken ++ [head]
        available := s.available.tail
        inDevice := s.inDevice ++ s.available.take 1 }
  | .deviceComplete k data => do
    let head ← s.taken[k]?
    let request ← s.inDevice[k]?
    -- the used element's `len` is a `u32`
    if 2 ^ 32 ≤ data.length then none
    let q ← deviceWrite s.queue (deviceChain s.queue queueSize head) data
    pure { s with
      queue := { q with
        deviceAreaRing := Function.update q.deviceAreaRing (q.deviceAreaIdx % queueSize)
          ⟨head, data.length⟩
        deviceAreaIdx := (q.deviceAreaIdx + 1) % 2 ^ 16 }
      taken := s.taken.eraseIdx k
      inDevice := s.inDevice.eraseIdx k
      completed := s.completed ++ [(request, data)] }

/-- The chains in flight: available, taken by the device, or in the used
ring. -/
def inFlight (s : VirtioSystem) : List Request :=
  s.available ++ s.inDevice ++ s.completed.map (·.1)

/-- The descriptors the chains in flight hold. -/
def owned (s : VirtioSystem) : List ℕ := s.inFlight.flatMap (·.indices)

/-- The chains of the used ring as `receive_buffer` finds them: the memory
behind their buffers is what the device wrote. -/
def usedChains (s : VirtioSystem) : List ReturnedChain :=
  s.completed.map fun p =>
    ⟨p.1.indices, p.1.buffers, writtenContents p.1.buffers (p.1.buffers.map (·.1)) p.2,
      p.2.length⟩

end VirtioSystem

/-- A chain stored as `put_buffer_chain` laid it out, its buffers' memory
holding `contents`. -/
structure Request.Stored (q : VirtQueue) (r : Request) (contents : List (List UInt8)) : Prop where
  head : r.indices.head? = some r.head
  chain : ChainStored q r.indices r.buffers contents

theorem Request.Stored.frame {q q' : VirtQueue} {r : Request} {contents : List (List UInt8)}
    (h : r.Stored q contents)
    (hsame : ∀ x ∈ r.indices, q'.descriptorArea x = q.descriptorArea x ∧
      q'.outstandingBuffers x = q.outstandingBuffers x) :
    r.Stored q' contents :=
  ⟨h.head, h.chain.frame hsame⟩

theorem Request.Stored.ne_nil {q : VirtQueue} {r : Request} {contents : List (List UInt8)}
    (h : r.Stored q contents) : r.indices ≠ [] := by
  intro hnil
  have := h.head
  simp [hnil] at this

theorem Request.Stored.headD {q : VirtQueue} {r : Request} {contents : List (List UInt8)}
    (h : r.Stored q contents) : r.indices.headD 0 = r.head := by
  have := h.head
  cases hindices : r.indices with
  | nil => simp [hindices] at this
  | cons i rest => simpa [hindices] using this

/-- Every chain on its way is stored, the memory behind its buffers as the
device left it. -/
structure ChainsStored (q : VirtQueue) (available inDevice : List Request)
    (completed : List (Request × List UInt8)) : Prop where
  available : ∀ r ∈ available, r.Stored q (r.buffers.map (·.1))
  inDevice : ∀ r ∈ inDevice, r.Stored q (r.buffers.map (·.1))
  completed : ∀ p ∈ completed,
    p.1.Stored q (writtenContents p.1.buffers (p.1.buffers.map (·.1)) p.2)

/-- The chains stay stored when the queue changes only outside them. -/
theorem ChainsStored.frame {q q' : VirtQueue} {available inDevice : List Request}
    {completed : List (Request × List UInt8)} (h : ChainsStored q available inDevice completed)
    (hsame : ∀ r ∈ available ++ inDevice ++ completed.map (·.1), ∀ x ∈ r.indices,
      q'.descriptorArea x = q.descriptorArea x ∧ q'.outstandingBuffers x = q.outstandingBuffers x) :
    ChainsStored q' available inDevice completed where
  available r hr := (h.available r hr).frame (hsame r (by simp [hr]))
  inDevice r hr := (h.inDevice r hr).frame (hsame r (by simp [hr]))
  completed p hp := (h.completed p hp).frame
    (hsame p.1 (by simp only [List.mem_append, List.mem_map]; exact Or.inr ⟨p, hp, rfl⟩))

namespace VirtioSystem

/-- The invariant of the queue with its device. -/
structure Inv (queueSize : ℕ) (s : VirtioSystem) : Prop where
  /-- `VirtQueue::new` asserted a power of two that fits in a `u16`. -/
  size_pos : 0 < queueSize
  size_dvd : queueSize ∣ 2 ^ 16
  size_le : queueSize ≤ 2 ^ 15
  /-- The free list and the chains in flight split the descriptor indices. -/
  partition : (s.queue.freeDescriptorIndices ++ s.owned).Perm (List.range queueSize)
  not_outstanding : ∀ i ∉ s.owned, s.queue.outstandingBuffers i = none
  stored : ChainsStored s.queue s.available s.inDevice s.completed
  /-- The available ring holds the available heads from the device's index on. -/
  avail_lt : s.deviceAvailIdx < 2 ^ 16
  avail_idx : (s.deviceAvailIdx + s.available.length) % 2 ^ 16 = s.queue.driverAreaIdx
  avail_ring : ∀ k (hk : k < s.available.length),
    s.queue.driverAreaRing ((s.deviceAvailIdx + k) % queueSize) = s.available[k].head
  taken_eq : s.taken = s.inDevice.map (·.head)
  /-- The used ring holds the returned chains from the driver's index on. -/
  used : UsedRingHolds queueSize s.queue.deviceAreaIdx s.queue s.usedChains
  /-- Every chain made available is on its way or given back, once. -/
  history : s.submitted.Perm (s.inFlight ++ s.returned)

section Inv

variable {queueSize : ℕ} {s s' : VirtioSystem}

theorem Inv.nodup (h : s.Inv queueSize) : (s.queue.freeDescriptorIndices ++ s.owned).Nodup :=
  h.partition.nodup_iff.mpr List.nodup_range

theorem Inv.not_mem_owned (h : s.Inv queueSize) {i : ℕ} (hi : i ∈ s.queue.freeDescriptorIndices) :
    i ∉ s.owned :=
  List.disjoint_of_nodup_append h.nodup hi

theorem Inv.lt_of_mem (h : s.Inv queueSize) {i : ℕ}
    (hi : i ∈ s.queue.freeDescriptorIndices ++ s.owned) : i < queueSize :=
  List.mem_range.mp (h.partition.subset hi)

theorem Inv.stored_inFlight (h : s.Inv queueSize) :
    ∀ r ∈ s.inFlight, ∃ contents, r.Stored s.queue contents := by
  intro r hr
  simp only [inFlight, List.mem_append, List.mem_map] at hr
  rcases hr with (hr | hr) | ⟨p, hp, rfl⟩
  · exact ⟨_, h.stored.available r hr⟩
  · exact ⟨_, h.stored.inDevice r hr⟩
  · exact ⟨_, h.stored.completed p hp⟩

/-- Each chain in flight holds at least one descriptor, so there are at most
as many chains in flight as descriptors not free. -/
theorem Inv.length_inFlight_add (h : s.Inv queueSize) :
    s.inFlight.length + s.queue.freeDescriptorIndices.length ≤ queueSize := by
  have hle : ∀ l : List Request, (∀ r ∈ l, r.indices ≠ []) →
      l.length ≤ (l.flatMap (·.indices)).length := by
    intro l hl
    induction l with
    | nil => simp
    | cons r l ih =>
      have hr := List.length_pos_iff.mpr (hl r List.mem_cons_self)
      have := ih fun r' hr' => hl r' (List.mem_cons_of_mem r hr')
      simp only [List.length_cons, List.flatMap_cons, List.length_append]
      omega
  have hin := hle s.inFlight fun r hr => (h.stored_inFlight r hr).choose_spec.ne_nil
  have hlen := h.partition.length_eq
  simp only [List.length_append, List.length_range, owned] at hlen hin
  omega

/-- The chains of the used ring are stored, distinct and inside the table. -/
theorem Inv.usedChainsStored (h : s.Inv queueSize) :
    ReturnedChainsStored queueSize s.queue s.usedChains where
  stored c hc := by
    obtain ⟨p, hp, rfl⟩ := List.mem_map.mp hc
    exact (h.stored.completed p hp).chain
  nonempty c hc := by
    obtain ⟨p, hp, rfl⟩ := List.mem_map.mp hc
    exact (h.stored.completed p hp).ne_nil
  lt_size c hc i hi := by
    obtain ⟨p, hp, rfl⟩ := List.mem_map.mp hc
    refine h.lt_of_mem (List.mem_append_right _ (List.mem_flatMap.mpr ⟨p.1, ?_, hi⟩))
    simp only [inFlight, List.mem_append, List.mem_map]
    exact Or.inr ⟨p, hp, rfl⟩
  nodup := by
    have hnodup := (List.nodup_append.mp h.nodup).2.1
    simp only [owned, inFlight, List.flatMap_append, List.nodup_append] at hnodup
    simpa [usedChains, List.flatMap_map] using hnodup.2.1

theorem Inv.free_nodup (h : s.Inv queueSize) : s.queue.freeDescriptorIndices.Nodup :=
  (List.nodup_append.mp h.nodup).1

/-- `VirtQueue::new`'s size check: a power of two below `2^16` divides `2^16`
and is at most `2^15`. -/
theorem size_of_isPowerOfTwo {queueSize : ℕ} (h : isPowerOfTwo queueSize = true) :
    0 < queueSize ∧ queueSize ∣ 2 ^ 16 ∧ queueSize ≤ 2 ^ 15 := by
  simp only [isPowerOfTwo, List.any_eq_true, List.mem_range, beq_iff_eq] at h
  obtain ⟨k, hk, rfl⟩ := h
  exact ⟨Nat.two_pow_pos k, Nat.pow_dvd_pow 2 (by omega), Nat.pow_le_pow_right (by omega) (by omega)⟩

/-- The system around a fresh queue satisfies the invariant. -/
theorem inv_init {q : VirtQueue} (hnew : VirtQueue.new queueSize = some q) :
    (init q).Inv queueSize := by
  unfold VirtQueue.new at hnew
  split_ifs at hnew with hsize
  cases hnew
  obtain ⟨hpos, hdvd, hle⟩ := size_of_isPowerOfTwo hsize.2
  refine ⟨hpos, hdvd, hle, by simp [init, owned, inFlight], fun _ _ => rfl,
    ⟨by simp [init], by simp [init], by simp [init]⟩, Nat.two_pow_pos 16, rfl,
    fun k hk => absurd hk (by simp [init]), rfl,
    ⟨Nat.two_pow_pos 16, Nat.two_pow_pos 16, rfl, fun k hk => absurd hk (by simp [usedChains, init])⟩,
    by simp [init, inFlight]⟩

/-- After `put_buffer_chain` stored a chain in the last `buffers.len` free
descriptors and made its head available, the invariant holds again. -/
theorem Inv.put_ok (h : s.Inv queueSize) {buffers : NonEmptyVec (List UInt8 × BufferDirection)}
    (hle : buffers.len ≤ s.queue.freeDescriptorIndices.length) {head : ℕ} {q : VirtQueue}
    (hhead : (s.queue.freeDescriptorIndices.reverse.take buffers.len).head? = some head)
    (hstored : ChainStored q (s.queue.freeDescriptorIndices.reverse.take buffers.len)
      buffers.toList (buffers.toList.map (·.1)))
    (hframe : ∀ x ∉ s.queue.freeDescriptorIndices.reverse.take buffers.len,
      q.descriptorArea x = s.queue.descriptorArea x ∧
        q.outstandingBuffers x = s.queue.outstandingBuffers x)
    (hq : ∃ descriptorArea outstandingBuffers, q =
      { s.queue with
        descriptorArea, outstandingBuffers
        freeDescriptorIndices := (s.queue.freeDescriptorIndices.reverse.drop buffers.len).reverse
        driverAreaRing := Function.update s.queue.driverAreaRing
          (s.queue.driverAreaIdx % queueSize) head
        driverAreaIdx := (s.queue.driverAreaIdx + 1) % 2 ^ 16 }) :
    Inv queueSize { s with
      queue := q
      available :=
        s.available ++ [⟨head, s.queue.freeDescriptorIndices.reverse.take buffers.len, buffers.toList⟩]
      submitted :=
        s.submitted ++ [⟨head, s.queue.freeDescriptorIndices.reverse.take buffers.len, buffers.toList⟩] } := by
  obtain ⟨descriptorArea, outstandingBuffers, rfl⟩ := hq
  set indices := s.queue.freeDescriptorIndices.reverse.take buffers.len with hindices
  -- the new chain's descriptors were free, so no chain in flight holds them
  have hfresh : ∀ x ∈ s.owned, x ∉ indices := fun x hx hx' =>
    h.not_mem_owned (List.mem_reverse.mp (List.mem_of_mem_take hx')) hx
  have hsplit : ∀ a, s.queue.freeDescriptorIndices.count a =
      indices.count a + (s.queue.freeDescriptorIndices.reverse.drop buffers.len).count a := by
    intro a
    rw [hindices, ← List.count_append, List.take_append_drop, List.count_reverse]
  have hless := h.length_inFlight_add
  have hpos : 0 < buffers.len := by
    unfold NonEmptyVec.len
    omega
  refine ⟨h.size_pos, h.size_dvd, h.size_le, ?_, ?_, ?_, h.avail_lt, ?_, ?_, h.taken_eq,
    h.used.of_eq rfl rfl, ?_⟩
  · -- the partition: the chain's descriptors moved from the free list to the new chain
    refine List.Perm.trans (List.perm_iff_count.mpr fun a => ?_) h.partition
    have := hsplit a
    simp only [owned, inFlight, List.flatMap_append, List.flatMap_cons, List.flatMap_nil,
      List.count_append, List.count_reverse, List.append_nil]
    omega
  · intro i hi
    have hi' : i ∉ indices ∧ i ∉ s.owned := by
      simp only [owned, inFlight, List.flatMap_append, List.flatMap_cons, List.flatMap_nil,
        List.mem_append, List.append_nil, not_or] at hi ⊢
      exact ⟨hi.1.1.2, ⟨hi.1.1.1, hi.1.2⟩, hi.2⟩
    exact (hframe i hi'.1).2.trans (h.not_outstanding i hi'.2)
  · -- the chains in flight are untouched; the new one is stored
    have hold := @ChainsStored.frame _ { s.queue with
        descriptorArea, outstandingBuffers
        freeDescriptorIndices := (s.queue.freeDescriptorIndices.reverse.drop buffers.len).reverse
        driverAreaRing := Function.update s.queue.driverAreaRing
          (s.queue.driverAreaIdx % queueSize) head
        driverAreaIdx := (s.queue.driverAreaIdx + 1) % 2 ^ 16 } _ _ _ h.stored
      fun r hr x hx => hframe x (hfresh x (List.mem_flatMap.mpr ⟨r, hr, hx⟩))
    refine ⟨fun r hr => ?_, hold.inDevice, hold.completed⟩
    rcases List.mem_append.mp hr with hr | hr
    · exact hold.available r hr
    · rw [List.mem_singleton.mp hr]
      exact ⟨hhead, hstored⟩
  · simp only [List.length_append, List.length_singleton]
    rw [← Nat.add_assoc, ← Nat.mod_add_mod, h.avail_idx]
  · intro k hk
    simp only [List.length_append, List.length_singleton] at hk
    have hslot : s.queue.driverAreaIdx % queueSize =
        (s.deviceAvailIdx + s.available.length) % queueSize := by
      rw [← h.avail_idx, Nat.mod_mod_of_dvd _ h.size_dvd]
    simp only [inFlight, List.length_append, List.length_map] at hless
    by_cases hlast : k = s.available.length
    · subst hlast
      simp [hslot]
    · have hk' : k < s.available.length := by omega
      have hne : (s.deviceAvailIdx + k) % queueSize ≠ s.queue.driverAreaIdx % queueSize := by
        rw [hslot]
        exact Ring.mod_add_ne_of_lt _ hk' (by omega)
      simp only [Function.update_of_ne hne, List.getElem_append_left hk']
      exact h.avail_ring k hk'
  · refine (h.history.append_right _).trans (List.perm_iff_count.mpr fun a => ?_)
    simp only [inFlight, List.count_append]
    omega

theorem Inv.owned_nodup (h : s.Inv queueSize) : s.owned.Nodup :=
  (List.nodup_append.mp h.nodup).2.1

/-- A chain in flight is distinct descriptors of the table, so it holds at
most `queueSize` of them. -/
theorem Inv.length_indices_le (h : s.Inv queueSize) {r : Request} (hr : r ∈ s.inFlight) :
    r.indices.length ≤ queueSize := by
  have hnodup : r.indices.Nodup := (List.nodup_flatMap.mp h.owned_nodup).1 r hr
  have hsub : r.indices.Subperm (List.range queueSize) :=
    hnodup.subperm fun x hx =>
      List.mem_range.mpr (h.lt_of_mem (List.mem_append_right _ (List.mem_flatMap.mpr ⟨r, hr, hx⟩)))
  simpa using hsub.length_le

/-- `receive_buffer` gives back the chains of the used ring, so the
invariant holds with them moved from the ring to the chains given back. -/
theorem Inv.receive (h : s.Inv queueSize) {used : List UsedBuffer} {q : VirtQueue}
    (hrecv : receiveBuffer queueSize s.queue = some (used, q)) :
    Inv queueSize { s with
      queue := q
      completed := []
      returned := s.returned ++ s.completed.map (·.1) } := by
  obtain ⟨used', hrecv', -⟩ :=
    receiveBuffer_eq h.size_dvd (Nat.le_trans h.size_le (Nat.pow_le_pow_right (by omega) (by omega)))
      h.usedChainsStored h.used
  rw [hrecv', Option.some.injEq, Prod.mk.injEq] at hrecv
  obtain ⟨-, rfl⟩ := hrecv
  -- the descriptors of the returned chains are back on the free list
  have hchains : s.usedChains.flatMap (·.indices) = (s.completed.map (·.1)).flatMap (·.indices) := by
    simp [usedChains, List.flatMap_map]
  rw [hchains]
  have hown := (List.nodup_append.mp h.nodup).2.1
  rw [owned, inFlight, List.flatMap_append, List.nodup_append] at hown
  -- the chains still in flight share no descriptor with the returned ones
  have hkept : ∀ r ∈ s.available ++ s.inDevice, ∀ x ∈ r.indices,
      x ∉ (s.completed.map (·.1)).flatMap (·.indices) := fun r hr x hx hx' =>
    hown.2.2 x (List.mem_flatMap.mpr ⟨r, hr, hx⟩) x hx' rfl
  have hused := h.used
  have hdev : s.queue.deviceAreaIdx < 2 ^ 16 := by
    rw [← hused.idx_eq]
    exact Nat.mod_lt _ (Nat.two_pow_pos 16)
  refine ⟨h.size_pos, h.size_dvd, h.size_le, ?_, ?_, ⟨fun r hr => ?_, fun r hr => ?_, by simp⟩,
    h.avail_lt, h.avail_idx, h.avail_ring, h.taken_eq,
    ⟨hdev, Nat.two_pow_pos 16, Nat.mod_eq_of_lt hdev,
      fun k hk => absurd hk (by simp [usedChains])⟩, ?_⟩
  · refine List.Perm.trans (List.perm_iff_count.mpr fun a => ?_) h.partition
    simp only [releaseChain, owned, inFlight, List.flatMap_append, List.map_nil,
      List.append_nil, List.count_append]
    omega
  · intro i hi
    simp only [owned, inFlight, List.map_nil, List.append_nil] at hi
    by_cases hmem : i ∈ (s.completed.map (·.1)).flatMap (·.indices)
    · simp [releaseChain, hmem]
    · rw [(releaseChain_of_not_mem s.queue hmem).2]
      refine h.not_outstanding i fun hi' => ?_
      simp only [owned, inFlight, List.flatMap_append, List.mem_append] at hi' hmem
      rcases hi' with hi' | hi'
      · exact hi (by rw [List.flatMap_append]; exact List.mem_append.mpr hi')
      · exact hmem hi'
  · exact (h.stored.available r hr).frame fun x hx =>
      releaseChain_of_not_mem s.queue (hkept r (List.mem_append_left _ hr) x hx)
  · exact (h.stored.inDevice r hr).frame fun x hx =>
      releaseChain_of_not_mem s.queue (hkept r (List.mem_append_right _ hr) x hx)
  · refine h.history.trans (List.perm_iff_count.mpr fun a => ?_)
    simp only [inFlight, List.map_nil, List.append_nil, List.count_append]
    omega

/-- The device takes the next available head: the chain moves from the
available ring to the device. -/
theorem Inv.deviceTake (h : s.Inv queueSize) (hstep : step queueSize s .deviceTake = some s') :
    s'.Inv queueSize := by
  simp only [step] at hstep
  split_ifs at hstep with hempty
  -- something is available, since the device's index is not the driver's
  obtain ⟨r, rest, hsplit⟩ : ∃ r rest, s.available = r :: rest := by
    cases havail : s.available with
    | nil =>
      have := h.avail_idx
      have := h.avail_lt
      simp only [havail, List.length_nil, Nat.add_zero] at *
      omega
    | cons r rest => exact ⟨r, rest, rfl⟩
  have hhead : s.queue.driverAreaRing (s.deviceAvailIdx % queueSize) = r.head := by
    have := h.avail_ring 0 (by simp [hsplit])
    simpa [hsplit] using this
  simp only [hsplit, List.tail_cons, List.take_succ_cons, List.take_zero, hhead,
    Option.some.injEq] at hstep
  subst hstep
  have hidx := h.avail_idx
  have havail := h.avail_ring
  have hstored := h.stored
  rw [hsplit] at hidx havail hstored
  -- the same chains are in flight, the taken one now with the device
  have hreq : (rest ++ (s.inDevice ++ [r]) ++ s.completed.map (·.1)).Perm
      ((r :: rest) ++ s.inDevice ++ s.completed.map (·.1)) :=
    List.perm_iff_count.mpr fun a => by
      simp only [List.count_append, List.count_cons, List.count_nil]
      omega
  have howned := hreq.flatMap_right (·.indices)
  refine ⟨h.size_pos, h.size_dvd, h.size_le, ?_, fun i hi => ?_,
    ⟨fun r' hr' => hstored.available r' (List.mem_cons_of_mem r hr'), fun r' hr' => ?_,
      hstored.completed⟩,
    Nat.mod_lt _ (Nat.two_pow_pos 16), ?_, fun k hk => ?_, ?_, h.used, ?_⟩
  · have hpartition := h.partition
    simp only [owned, inFlight, hsplit] at hpartition ⊢
    exact (howned.append_left _).trans hpartition
  · refine h.not_outstanding i fun hi' => hi ?_
    simp only [owned, inFlight, hsplit] at hi' ⊢
    exact howned.mem_iff.mpr hi'
  · rcases List.mem_append.mp hr' with hr' | hr'
    · exact hstored.inDevice r' hr'
    · rw [List.mem_singleton.mp hr']
      exact hstored.available r List.mem_cons_self
  · simp only [List.length_cons] at hidx ⊢
    omega
  · have := havail (k + 1) (by simp only [List.length_cons] at hk ⊢; omega)
    rw [Ring.mod_add_mod_of_dvd h.size_dvd, Nat.add_assoc, Nat.add_comm 1 k]
    simpa using this
  · simp [h.taken_eq]
  · have hhistory := h.history
    simp only [inFlight, hsplit] at hhistory ⊢
    exact hhistory.trans (hreq.symm.append_right _)

/-- The device returns a chain it took: its bytes go into the chain's
device-writable buffers and its head into the used ring. -/
theorem Inv.deviceComplete (h : s.Inv queueSize) {k : ℕ} {data : List UInt8}
    (hstep : step queueSize s (.deviceComplete k data) = some s') : s'.Inv queueSize := by
  have hkD : k < s.inDevice.length := by
    by_contra hge
    have hnone : s.inDevice[k]? = none := List.getElem?_eq_none (by omega)
    simp [step, h.taken_eq, hnone] at hstep
  -- the chain the device returns
  obtain ⟨request, hrequest⟩ : ∃ r, s.inDevice[k] = r := ⟨_, rfl⟩
  have hget : s.inDevice[k]? = some request := by rw [List.getElem?_eq_getElem hkD, hrequest]
  have hreqD : request ∈ s.inDevice := hrequest ▸ List.getElem_mem hkD
  have hreq : request ∈ s.inFlight := by simp [inFlight, hreqD]
  have hstoredReq := h.stored.inDevice request hreqD
  have htaken : s.taken[k]? = some request.head := by
    rw [h.taken_eq, List.getElem?_map, hget]
    rfl
  have hchain : deviceChain s.queue queueSize request.head = request.indices := by
    rw [← hstoredReq.headD]
    exact deviceChain_eq hstoredReq.chain hstoredReq.ne_nil (h.length_indices_le hreq)
  cases hwrite : deviceWrite s.queue request.indices data with
  | none => simp [step, htaken, hget, hchain, hwrite] at hstep
  | some q₁ =>
  by_cases hlong : 2 ^ 32 ≤ data.length
  · have hlong' : ¬data.length < 4294967296 := Nat.not_lt.mpr hlong
    simp [step, htaken, hget, hlong'] at hstep
  have hshort : data.length < 4294967296 := Nat.lt_of_not_le hlong
  simp [step, htaken, hget, hshort, hchain, hwrite] at hstep
  subst hstep
  have hnodupReq : request.indices.Nodup := (List.nodup_flatMap.mp h.owned_nodup).1 request hreq
  obtain ⟨hst₁, hframe₁, outstandingBuffers, rfl⟩ :=
    deviceWrite_spec hwrite hstoredReq.chain hnodupReq
  -- the chains in flight are the same, the returned one now in the used ring
  set others := s.available ++ s.inDevice.eraseIdx k ++ s.completed.map (·.1) with hothers
  have hperm : (others ++ [request]).Perm s.inFlight := by
    have hcount := fun a => (List.getElem_cons_eraseIdx_perm hkD).count_eq a
    refine List.perm_iff_count.mpr fun a => ?_
    have := hcount a
    rw [hrequest] at this
    simp only [hothers, inFlight, List.count_append, List.count_cons, List.count_nil] at this ⊢
    omega
  have hinFlight : (s.available ++ s.inDevice.eraseIdx k ++
      (s.completed ++ [(request, data)]).map (·.1)) = others ++ [request] := by
    simp [hothers]
  have hownedPerm := hperm.flatMap_right (·.indices)
  have hdisjoint : ∀ r ∈ others, ∀ x ∈ r.indices, x ∉ request.indices := by
    have hnodup := hownedPerm.nodup_iff.mpr h.owned_nodup
    rw [List.flatMap_append, List.nodup_append] at hnodup
    intro r hr x hx hx'
    exact hnodup.2.2 x (List.mem_flatMap.mpr ⟨r, hr, hx⟩) x (by simpa using hx') rfl
  have hless := h.length_inFlight_add
  simp only [inFlight, List.length_append, List.length_map] at hless
  refine ⟨h.size_pos, h.size_dvd, h.size_le, ?_, fun i hi => ?_,
    ⟨fun r hr => ?_, fun r hr => ?_, fun p hp => ?_⟩,
    h.avail_lt, h.avail_idx, h.avail_ring, by rw [h.taken_eq, List.eraseIdx_map], ?_, ?_⟩
  · have hpartition := h.partition
    simp only [owned, inFlight, hinFlight] at hpartition ⊢
    exact (hownedPerm.append_left _).trans hpartition
  · have hi' : i ∉ s.owned := by
      simp only [owned, inFlight, hinFlight] at hi
      exact fun hi' => hi (hownedPerm.mem_iff.mpr hi')
    have hnot : i ∉ request.indices := fun hx =>
      hi' (List.mem_flatMap.mpr ⟨request, hreq, hx⟩)
    exact (hframe₁ i hnot).trans (h.not_outstanding i hi')
  · have hr' : r ∈ others := by simp [hothers, hr]
    exact (h.stored.available r hr).frame fun x hx => ⟨rfl, hframe₁ x (hdisjoint r hr' x hx)⟩
  · have hr' : r ∈ others := by simp [hothers, hr]
    exact (h.stored.inDevice r (List.mem_of_mem_eraseIdx hr)).frame fun x hx =>
      ⟨rfl, hframe₁ x (hdisjoint r hr' x hx)⟩
  · rcases List.mem_append.mp hp with hp | hp
    · have hr' : p.1 ∈ others := by
        simp only [hothers, List.mem_append, List.mem_map]
        exact Or.inr ⟨p, hp, rfl⟩
      exact (h.stored.completed p hp).frame fun x hx =>
        ⟨rfl, hframe₁ x (hdisjoint p.1 hr' x hx)⟩
    · rw [List.mem_singleton.mp hp]
      exact ⟨hstoredReq.head, hst₁.frame fun _ _ => ⟨rfl, rfl⟩⟩
  · -- the used ring: the returned chain goes into the slot after the others
    simp only [usedChains, List.map_append, List.map_cons, List.map_nil]
    let q₁ : VirtQueue := { s.queue with outstandingBuffers }
    have hused : UsedRingHolds queueSize q₁.deviceAreaIdx q₁ s.usedChains := h.used.of_eq rfl rfl
    refine hused.push h.size_dvd h.size_le ?_
      ⟨request.indices, request.buffers,
        writtenContents request.buffers (request.buffers.map (·.1)) data, data.length⟩
      hstoredReq.headD
    simp only [usedChains, List.length_map]
    omega
  · have hhistory := h.history
    rw [inFlight]
    simp only [hinFlight]
    exact hhistory.trans (hperm.symm.append_right _)

/-- `put_buffer_chain` keeps the invariant: a failed call leaves the queue
alone, and one that succeeds stores the chain and makes it available. -/
theorem Inv.put (h : s.Inv queueSize) {buffers : NonEmptyVec (List UInt8 × BufferDirection)}
    (hstep : step queueSize s (.put buffers) = some s') : s'.Inv queueSize := by
  by_cases hfree : s.queue.freeDescriptorIndices.length < buffers.len
  · simp [step, putBufferChain_of_lt hfree] at hstep
    subst hstep
    exact h
  have hle := Nat.le_of_not_lt hfree
  -- a buffer of `2^32` bytes or more would have made the call panic
  have hshort : ∀ b ∈ buffers.toList, b.1.length < 2 ^ 32 := by
    intro b hb
    by_contra hlong
    simp [step, putBufferChain_eq_none_of_long hle ⟨b, hb, Nat.le_of_not_lt hlong⟩] at hstep
  obtain ⟨head, q, hhead, hput, hstored, hframe, hq⟩ :=
    @putBufferChain_of_le queueSize s.queue buffers hle h.free_nodup
      (fun i hi => h.not_outstanding i (h.not_mem_owned hi)) hshort
  simp [step, hput] at hstep
  subst hstep
  exact h.put_ok hle hhead hstored hframe hq

/-- Every event the system takes keeps the invariant. -/
theorem Inv.of_step (h : s.Inv queueSize) {event : Event}
    (hstep : step queueSize s event = some s') : s'.Inv queueSize := by
  cases event with
  | put buffers => exact h.put hstep
  | receive =>
    cases hrecv : receiveBuffer queueSize s.queue with
    | none => simp [step, hrecv] at hstep
    | some result =>
      simp [step, hrecv] at hstep
      subst hstep
      exact h.receive hrecv
  | deviceTake => exact h.deviceTake hstep
  | deviceComplete k data => exact h.deviceComplete hstep

/-- The invariant holds in every state reachable from a fresh queue. -/
theorem Inv.of_reachable {q₀ : VirtQueue} (hnew : VirtQueue.new queueSize = some q₀)
    (hreach : Machine.Reachable (step queueSize) (init q₀) s) : s.Inv queueSize :=
  Machine.Reachable.induction (Inv queueSize) (inv_init hnew)
    (fun _ _ _ h hstep => h.of_step hstep) hreach

/-- A descriptor is free exactly when it is in the table and has no
outstanding buffer. -/
theorem Inv.mem_free_iff (h : s.Inv queueSize) (i : ℕ) :
    i ∈ s.queue.freeDescriptorIndices ↔ i < queueSize ∧ s.queue.outstandingBuffers i = none := by
  constructor
  · intro hi
    exact ⟨h.lt_of_mem (List.mem_append_left _ hi), h.not_outstanding i (h.not_mem_owned hi)⟩
  · rintro ⟨hlt, hnone⟩
    have hmem := h.partition.mem_iff.mpr (List.mem_range.mpr hlt)
    rcases List.mem_append.mp hmem with hfree | howned
    · exact hfree
    · -- a descriptor of a chain in flight has its buffer outstanding
      obtain ⟨r, hr, hi⟩ := List.mem_flatMap.mp howned
      obtain ⟨contents, hstored⟩ := h.stored_inFlight r hr
      obtain ⟨content, hsome⟩ := hstored.chain.outstanding_of_mem hi
      rw [hnone] at hsome
      cases hsome

/-- An outstanding buffer sits under a descriptor of the table. -/
theorem Inv.lt_of_outstanding (h : s.Inv queueSize) {i : ℕ}
    (hsome : (s.queue.outstandingBuffers i).isSome) : i < queueSize := by
  by_contra hge
  have howned : i ∈ s.owned := by
    by_contra hnot
    rw [h.not_outstanding i hnot] at hsome
    cases hsome
  exact hge (h.lt_of_mem (List.mem_append_right _ howned))

/-- `receive_buffer` gives back the chains of the used ring in ring order,
each with its head and its buffers as `deliver` says. -/
theorem Inv.receiveBuffer_eq (h : s.Inv queueSize) :
    ∃ used q, receiveBuffer queueSize s.queue = some (used, q) ∧
      used.map (fun u => (u.index, u.buffers.toList)) =
        s.completed.map fun p => (p.1.head, deliver p.1.buffers p.2) := by
  obtain ⟨used, hrecv, hused⟩ :=
    VirtQueue.receiveBuffer_eq h.size_dvd
      (Nat.le_trans h.size_le (Nat.pow_le_pow_right (by omega) (by omega)))
      h.usedChainsStored h.used
  refine ⟨used, _, hrecv, hused.trans ?_⟩
  simp only [usedChains, List.map_map]
  refine List.map_congr_left fun p hp => ?_
  have hstored := h.stored.completed p hp
  simp only [Function.comp, ReturnedChain.head, hstored.headD, cutBuffers_writtenContents]

end Inv

end VirtioSystem

/-- Descriptor accounting of a virtqueue against a device that keeps the
split ring rules, in every state reachable from `VirtQueue::new`: the free list
has no repeated index, and it and the outstanding buffers split
`{0, …, queueSize - 1}`; `put_buffer_chain` on buffers shorter than `2^32`
bytes fails with `NoFreeDescriptors`, leaving the queue alone, exactly when
fewer descriptors are free than it has buffers, and does not panic otherwise;
`receive_buffer` does not panic and gives back the chains of the used ring in
ring order, each with its head and `deliver`'s buffers; and every chain made
available is on its way or has been given back, exactly once. -/
theorem virtQueue_descriptor_accounting {queueSize : ℕ} {q₀ : VirtQueue}
    (hnew : VirtQueue.new queueSize = some q₀) {s : VirtioSystem}
    (hreach : Machine.Reachable (VirtioSystem.step queueSize) (VirtioSystem.init q₀) s) :
    s.queue.freeDescriptorIndices.Nodup ∧
    (∀ i, i ∈ s.queue.freeDescriptorIndices ↔
      i < queueSize ∧ s.queue.outstandingBuffers i = none) ∧
    (∀ i, (s.queue.outstandingBuffers i).isSome → i < queueSize) ∧
    (∀ buffers : NonEmptyVec (List UInt8 × BufferDirection),
      (∀ b ∈ buffers.toList, b.1.length < 2 ^ 32) →
      (s.queue.freeDescriptorIndices.length < buffers.len →
        putBufferChain queueSize s.queue buffers = some (.error .noFreeDescriptors, s.queue)) ∧
      (buffers.len ≤ s.queue.freeDescriptorIndices.length →
        ∃ head q, putBufferChain queueSize s.queue buffers = some (.ok head, q))) ∧
    (∃ used q, receiveBuffer queueSize s.queue = some (used, q) ∧
      used.map (fun u => (u.index, u.buffers.toList)) =
        s.completed.map fun p => (p.1.head, deliver p.1.buffers p.2)) ∧
    s.submitted.Perm (s.available ++ s.inDevice ++ s.completed.map (·.1) ++ s.returned) := by
  have h := VirtioSystem.Inv.of_reachable hnew hreach
  refine ⟨h.free_nodup, h.mem_free_iff, fun i hi => h.lt_of_outstanding hi,
    fun buffers hshort => ⟨putBufferChain_of_lt, fun hle => ?_⟩, h.receiveBuffer_eq, h.history⟩
  obtain ⟨head, q, -, hput, -⟩ := @putBufferChain_of_le queueSize s.queue buffers hle
    h.free_nodup (fun i hi => h.not_outstanding i (h.not_mem_owned hi)) hshort
  exact ⟨head, q, hput⟩

/-- Four descriptors, after a chain of a driver-writable `"hi"` and a
four-byte device-writable buffer was made available, taken by the device and
returned with three bytes written. -/
theorem virtQueue_descriptor_accounting_returned :
    ∃ q₀ s, VirtQueue.new 4 = some q₀ ∧
      Machine.run (VirtioSystem.step 4) (VirtioSystem.init q₀)
        [.put ⟨([0x68, 0x69], .driverWritable), [([0, 0, 0, 0], .deviceWritable)]⟩,
          .deviceTake, .deviceComplete 0 [1, 2, 3]] = some s ∧
      (s.queue.freeDescriptorIndices.Nodup ∧
      (∀ i, i ∈ s.queue.freeDescriptorIndices ↔ i < 4 ∧ s.queue.outstandingBuffers i = none) ∧
      (∀ i, (s.queue.outstandingBuffers i).isSome → i < 4) ∧
      (∀ buffers : NonEmptyVec (List UInt8 × BufferDirection),
        (∀ b ∈ buffers.toList, b.1.length < 2 ^ 32) →
        (s.queue.freeDescriptorIndices.length < buffers.len →
          putBufferChain 4 s.queue buffers = some (.error .noFreeDescriptors, s.queue)) ∧
        (buffers.len ≤ s.queue.freeDescriptorIndices.length →
          ∃ head q, putBufferChain 4 s.queue buffers = some (.ok head, q))) ∧
      (∃ used q, receiveBuffer 4 s.queue = some (used, q) ∧
        used.map (fun u => (u.index, u.buffers.toList)) =
          s.completed.map fun p => (p.1.head, deliver p.1.buffers p.2)) ∧
      s.submitted.Perm (s.available ++ s.inDevice ++ s.completed.map (·.1) ++ s.returned)) := by
  obtain ⟨q₀, hnew⟩ : ∃ q₀, VirtQueue.new 4 = some q₀ := ⟨_, rfl⟩
  -- the run is evaluated once, on the queue `VirtQueue::new` built
  obtain ⟨s, hrun⟩ : ∃ s, Machine.run (VirtioSystem.step 4) (VirtioSystem.init q₀)
      [.put ⟨([0x68, 0x69], .driverWritable), [([0, 0, 0, 0], .deviceWritable)]⟩,
        .deviceTake, .deviceComplete 0 [1, 2, 3]] = some s := by
    have h := hnew
    unfold VirtQueue.new at h
    rw [if_pos (by decide)] at h
    cases h
    exact ⟨_, rfl⟩
  exact ⟨q₀, s, hnew, hrun, virtQueue_descriptor_accounting hnew (Machine.Reachable.of_run hrun)⟩

/-- A buffer of `2^32` bytes makes `put_buffer_chain` panic on a fresh queue
of 256 descriptors, the block device's queue size. -/
theorem putBufferChain_panics_on_long_buffer :
    ∃ q₀, VirtQueue.new 256 = some q₀ ∧
      putBufferChain 256 q₀ ⟨(List.replicate (2 ^ 32) 0, .deviceWritable), []⟩ = none ∧
      VirtioSystem.step 256 (VirtioSystem.init q₀)
        (.put ⟨(List.replicate (2 ^ 32) 0, .deviceWritable), []⟩) = none := by
  obtain ⟨q₀, hnew⟩ : ∃ q₀, VirtQueue.new 256 = some q₀ := ⟨_, rfl⟩
  have hfree : NonEmptyVec.len (⟨(List.replicate (2 ^ 32) 0, .deviceWritable), []⟩ :
      NonEmptyVec (List UInt8 × BufferDirection)) ≤ q₀.freeDescriptorIndices.length := by
    have h := hnew
    unfold VirtQueue.new at h
    rw [if_pos (by decide)] at h
    cases h
    simp [NonEmptyVec.len]
  have hput := @putBufferChain_eq_none_of_long 256 q₀ _ hfree
    ⟨_, List.mem_cons_self, Nat.le_of_eq (List.length_replicate ..).symm⟩
  refine ⟨q₀, hnew, hput, ?_⟩
  simp only [VirtioSystem.step, VirtioSystem.init]
  rw [hput]
  rfl

end Solaya
