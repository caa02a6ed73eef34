import Solaya.Core.Ring
import Mathlib.Logic.Function.Basic
import Mathlib.Tactic.Set
import Mathlib.Data.List.Nodup
import Mathlib.Data.List.Perm.Subperm

/-!
# `VirtQueue`

A split virtqueue (`drivers/virtio/virtqueue.rs`): a table of `QUEUE_SIZE`
descriptors, the driver's available ring and the device's used ring.
`put_buffer_chain` pops one free descriptor for each buffer of a chain, links
them through `next`, keeps each buffer as outstanding under its descriptor's
index and puts the chain's head into the available ring.  `receive_buffer`
reads the used ring up to the device's index, follows each returned chain from
its head, hands its buffers back (a device-writable one cut to the bytes the
device wrote) and pushes its descriptors back onto the free list.

Indices are `u16` and the rings' `idx` fields wrap at `2^16`; a ring slot is
`idx % QUEUE_SIZE`, and `QUEUE_SIZE` is the parameter `queueSize`.  A buffer
is its bytes: the memory a `DeconstructedVec` points at, which the device
writes through the descriptor's `addr`, is kept with it in
`outstandingBuffers`, and `addr` itself is not modelled.
-/

namespace Solaya

/-- `NonEmptyVec` (`klibc/non_empty_vec.rs`). -/
structure NonEmptyVec (α : Type) where
  first : α
  rest : List α
  deriving DecidableEq, Repr

namespace NonEmptyVec

variable {α : Type}

/-- `NonEmptyVec::new`. -/
def new (first : α) : NonEmptyVec α := ⟨first, []⟩

/-- `NonEmptyVec::push`. -/
def push (v : NonEmptyVec α) (item : α) : NonEmptyVec α := ⟨v.first, v.rest ++ [item]⟩

/-- `NonEmptyVec::len`. -/
def len (v : NonEmptyVec α) : ℕ := 1 + v.rest.length

/-- `into_iter`: the first element, then the rest. -/
def toList (v : NonEmptyVec α) : List α := v.first :: v.rest

@[simp]
theorem length_toList (v : NonEmptyVec α) : v.toList.length = v.len := by
  simp [toList, len, Nat.add_comm]

/-- Pushing the rest of a list one by one onto `new first` gives back the list. -/
theorem toList_foldl_push (first : α) (rest : List α) :
    (rest.foldl push (new first)).toList = first :: rest := by
  suffices ∀ v : NonEmptyVec α, (rest.foldl push v).toList = v.toList ++ rest by
    simpa [toList, new] using this (new first)
  induction rest with
  | nil => simp
  | cons item rest ih =>
    intro v
    rw [List.foldl_cons, ih]
    simp [push, toList]

end NonEmptyVec

/-- `VIRTQ_DESC_F_NEXT`. -/
def virtqDescFNext : ℕ := 1

/-- `VIRTQ_DESC_F_WRITE`. -/
def virtqDescFWrite : ℕ := 2

/-- `virtq_desc`, without `addr`. -/
structure VirtqDesc where
  len : ℕ
  flags : ℕ
  next : ℕ
  deriving DecidableEq, Repr

/-- `virtq_desc::default()`, also what `receive_buffer` resets a descriptor
to. -/
def VirtqDesc.zero : VirtqDesc := ⟨0, 0, 0⟩

/-- `virtq_used_elem`. -/
structure VirtqUsedElem where
  id : ℕ
  len : ℕ
  deriving DecidableEq, Repr

/-- `BufferDirection`. -/
inductive BufferDirection where
  | driverWritable
  | deviceWritable
  deriving DecidableEq, Repr

/-- `QueueError`. -/
inductive QueueError where
  | noFreeDescriptors
  deriving DecidableEq, Repr

/-- `UsedBuffer`. -/
structure UsedBuffer where
  index : ℕ
  buffers : NonEmptyVec (List UInt8)
  deriving DecidableEq, Repr

/-- `VirtQueue<QUEUE_SIZE>`: the descriptor table, the free indices (a stack),
the buffers the device holds by descriptor index, the driver's and the
device's ring with their `idx`, and how far the driver has read the used
ring. -/
structure VirtQueue where
  descriptorArea : ℕ → VirtqDesc
  freeDescriptorIndices : List ℕ
  outstandingBuffers : ℕ → Option (List UInt8)
  lastUsedRingIndex : ℕ
  driverAreaIdx : ℕ
  driverAreaRing : ℕ → ℕ
  deviceAreaIdx : ℕ
  deviceAreaRing : ℕ → VirtqUsedElem

/-- `u16::is_power_of_two`. -/
def isPowerOfTwo (n : ℕ) : Bool := (List.range 16).any fun k => 2 ^ k == n

namespace VirtQueue

/-- `VirtQueue::new`: every descriptor free, both rings empty.  The size must
fit in a `u16` and be a power of two. -/
def new (queueSize : ℕ) : Option VirtQueue :=
  if queueSize < 2 ^ 16 ∧ isPowerOfTwo queueSize then
    some { descriptorArea := fun _ => VirtqDesc.zero
           freeDescriptorIndices := List.range queueSize
           outstandingBuffers := fun _ => none
           lastUsedRingIndex := 0
           driverAreaIdx := 0
           driverAreaRing := fun _ => 0
           deviceAreaIdx := 0
           deviceAreaRing := fun _ => ⟨0, 0⟩ }
  else none

/-- The loop of `put_buffer_chain` that pops `descriptorCount` indices off the
free list: the indices in the order popped, and what is left. -/
def popIndices : ℕ → List ℕ → Option (List ℕ × List ℕ)
  | 0, free => some ([], free)
  | count + 1, free => do
    let index ← free.getLast?
    let (indices, free) ← popIndices count free.dropLast
    pure (index :: indices, free)

/-- `popIndices` takes the last `count` free indices, the last one first. -/
theorem popIndices_eq {count : ℕ} {free : List ℕ} (h : count ≤ free.length) :
    popIndices count free =
      some (free.reverse.take count, (free.reverse.drop count).reverse) := by
  induction count generalizing free with
  | zero => simp [popIndices]
  | succ count ih =>
    rcases List.eq_nil_or_concat free with rfl | ⟨init, last, rfl⟩
    · simp at h
    · have hinit : count ≤ init.length := by
        simp only [List.concat_eq_append, List.length_append, List.length_singleton] at h
        omega
      simp [popIndices, ih hinit]

/-- The flags `put_buffer_chain` gives a descriptor: `VIRTQ_DESC_F_WRITE` for
a device-writable buffer, `VIRTQ_DESC_F_NEXT` when the chain goes on. -/
def descriptorFlags (direction : BufferDirection) (hasNext : Bool) : ℕ :=
  (match direction with
    | .deviceWritable => virtqDescFWrite
    | .driverWritable => 0) |||
  (if hasNext then virtqDescFNext else 0)

@[simp]
theorem descriptorFlags_next (direction : BufferDirection) (hasNext : Bool) :
    (descriptorFlags direction hasNext &&& virtqDescFNext != 0) = hasNext := by
  cases direction <;> cases hasNext <;> rfl

@[simp]
theorem descriptorFlags_write (direction : BufferDirection) (hasNext : Bool) :
    (descriptorFlags direction hasNext &&& virtqDescFWrite != 0) =
      (direction == .deviceWritable) := by
  cases direction <;> cases hasNext <;> rfl

/-- The descriptors `indices` hold the chain of `buffers`, each linked to the
next through `next` with `VIRTQ_DESC_F_NEXT` set on all but the last, and the
device holds `contents` under them: the memory behind each buffer, as long as
the buffer. -/
def ChainStored (q : VirtQueue) :
    List ℕ → List (List UInt8 × BufferDirection) → List (List UInt8) → Prop
  | [], [], [] => True
  | idx :: indices, (buffer, direction) :: buffers, content :: contents =>
    q.descriptorArea idx =
        ⟨buffer.length, descriptorFlags direction !indices.isEmpty, indices.headD 0⟩ ∧
      q.outstandingBuffers idx = some content ∧ content.length = buffer.length ∧
      ChainStored q indices buffers contents
  | _, _, _ => False

namespace ChainStored

variable {q q' : VirtQueue}

/-- A chain stays stored when its own descriptors and buffers are left alone. -/
theorem frame : ∀ {indices : List ℕ} {buffers : List (List UInt8 × BufferDirection)}
    {contents : List (List UInt8)}, ChainStored q indices buffers contents →
    (∀ x ∈ indices, q'.descriptorArea x = q.descriptorArea x ∧
      q'.outstandingBuffers x = q.outstandingBuffers x) →
    ChainStored q' indices buffers contents
  | [], [], [], _, _ => trivial
  | idx :: indices, (buffer, direction) :: buffers, content :: contents, hstored, hsame => by
    obtain ⟨hdesc, hout, hlen, hrest⟩ := hstored
    obtain ⟨hdesc', hout'⟩ := hsame idx List.mem_cons_self
    refine ⟨hdesc'.trans hdesc, hout'.trans hout, hlen, frame hrest ?_⟩
    exact fun x hx => hsame x (List.mem_cons_of_mem idx hx)

/-- Every descriptor of a stored chain has an outstanding buffer. -/
theorem outstanding_of_mem : ∀ {indices : List ℕ} {buffers : List (List UInt8 × BufferDirection)}
    {contents : List (List UInt8)}, ChainStored q indices buffers contents →
    ∀ {x}, x ∈ indices → ∃ content, q.outstandingBuffers x = some content
  | idx :: indices, (buffer, direction) :: buffers, content :: contents, hstored, x, hx => by
    obtain ⟨-, hout, -, hrest⟩ := hstored
    rcases List.mem_cons.mp hx with rfl | hx
    · exact ⟨content, hout⟩
    · exact outstanding_of_mem hrest hx

/-- A stored chain has one descriptor and one content for each buffer. -/
theorem length_eq : ∀ {indices : List ℕ} {buffers : List (List UInt8 × BufferDirection)}
    {contents : List (List UInt8)}, ChainStored q indices buffers contents →
    indices.length = buffers.length ∧ contents.length = buffers.length
  | [], [], [], _ => ⟨rfl, rfl⟩
  | idx :: indices, (buffer, direction) :: buffers, content :: contents, hstored => by
    obtain ⟨h₁, h₂⟩ := length_eq hstored.2.2.2
    simp [h₁, h₂]

end ChainStored

/-- The loop of `put_buffer_chain` over `buffers.into_iter().enumerate()`,
from position `i` on: the buffer's descriptor gets its length, its flags and
the next index of the chain, and the buffer becomes outstanding under it. -/
def writeDescriptors (indices : List ℕ) (descriptorCount : ℕ) :
    VirtQueue → ℕ → List (List UInt8 × BufferDirection) → Option VirtQueue
  | q, _, [] => some q
  | q, i, (buffer, direction) :: buffers => do
    let descIdx ← indices[i]?
    -- `u32::try_from(buffer.len()).expect(..)`
    if 2 ^ 32 ≤ buffer.length then none
    let hasNext := decide (i + 1 < descriptorCount)
    let next ← if hasNext then indices[i + 1]? else some 0
    -- `assert!(insert_result, ..)`: the index is not outstanding yet
    if (q.outstandingBuffers descIdx).isSome then none
    writeDescriptors indices descriptorCount
      { q with
        descriptorArea := Function.update q.descriptorArea descIdx
          ⟨buffer.length, descriptorFlags direction hasNext, next⟩
        outstandingBuffers := Function.update q.outstandingBuffers descIdx (some buffer) }
      (i + 1) buffers

/-- One turn of the loop of `put_buffer_chain`, when its checks pass. -/
theorem writeDescriptors_cons {indices : List ℕ} {descriptorCount i descIdx next : ℕ}
    {q : VirtQueue} {buffer : List UInt8} {direction : BufferDirection}
    {rest : List (List UInt8 × BufferDirection)}
    (hidx : indices[i]? = some descIdx) (hshort : buffer.length < 2 ^ 32)
    (hnext : (if i + 1 < descriptorCount then indices[i + 1]? else some 0) = some next)
    (hfresh : q.outstandingBuffers descIdx = none) :
    writeDescriptors indices descriptorCount q i ((buffer, direction) :: rest) =
      writeDescriptors indices descriptorCount
        { q with
          descriptorArea := Function.update q.descriptorArea descIdx
            ⟨buffer.length, descriptorFlags direction (decide (i + 1 < descriptorCount)), next⟩
          outstandingBuffers := Function.update q.outstandingBuffers descIdx (some buffer) }
        (i + 1) rest := by
  have hlong : ¬4294967296 ≤ buffer.length := Nat.not_le.mpr hshort
  by_cases h : i + 1 < descriptorCount
  · rw [if_pos h] at hnext
    simp [writeDescriptors, hidx, hlong, h, hnext, hfresh]
  · rw [if_neg h] at hnext
    cases hnext
    simp [writeDescriptors, hidx, hlong, h, hfresh]

/-- Where the loop of `put_buffer_chain` reads the next index from, stated
with the rest of the chain. -/
theorem next_eq_headD_drop {indices : List ℕ} {descriptorCount : ℕ}
    (hlength : indices.length = descriptorCount) (i : ℕ) :
    (if i + 1 < descriptorCount then indices[i + 1]? else some 0) =
        some ((indices.drop (i + 1)).headD 0) ∧
      decide (i + 1 < descriptorCount) = !(indices.drop (i + 1)).isEmpty := by
  subst hlength
  by_cases h : i + 1 < indices.length
  · rw [if_pos h, List.drop_eq_getElem_cons h]
    simp [h]
  · rw [if_neg h, List.drop_eq_nil_of_le (Nat.le_of_not_lt h)]
    simp [h]

/-- The loop of `put_buffer_chain` from position `i` on, over distinct
indices with no outstanding buffer and buffers shorter than `2^32` bytes: it
stores the rest of the chain and changes nothing else. -/
theorem writeDescriptors_spec {indices : List ℕ} {buffers : List (List UInt8 × BufferDirection)}
    (hlength : indices.length = buffers.length) (hnodup : indices.Nodup)
    (hshort : ∀ b ∈ buffers, b.1.length < 2 ^ 32) (i : ℕ) (q : VirtQueue)
    (hfresh : ∀ idx ∈ indices.drop i, q.outstandingBuffers idx = none) :
    ∃ q', writeDescriptors indices buffers.length q i (buffers.drop i) = some q' ∧
      ChainStored q' (indices.drop i) (buffers.drop i) ((buffers.drop i).map (·.1)) ∧
      (∀ x ∉ indices.drop i, q'.descriptorArea x = q.descriptorArea x ∧
        q'.outstandingBuffers x = q.outstandingBuffers x) ∧
      ∃ descriptorArea outstandingBuffers, q' = { q with descriptorArea, outstandingBuffers } := by
  generalize hrest : buffers.drop i = rest
  -- the loop runs over the buffers left from position `i`
  induction rest generalizing i q with
  | nil =>
    have hidx : indices.drop i = [] := by
      have := List.drop_eq_nil_iff.mp hrest
      simp only [List.drop_eq_nil_iff]
      omega
    refine ⟨q, rfl, ?_, fun _ _ => ⟨rfl, rfl⟩, q.descriptorArea, q.outstandingBuffers, rfl⟩
    rw [hidx]
    trivial
  | cons entry rest ih =>
    obtain ⟨buffer, direction⟩ := entry
    have hi : i < buffers.length := by
      by_contra hge
      rw [List.drop_eq_nil_of_le (by omega)] at hrest
      cases hrest
    rw [List.drop_eq_getElem_cons hi] at hrest
    obtain ⟨hentry, hrest'⟩ := List.cons.inj hrest
    have hi' : i < indices.length := hlength ▸ hi
    have hdrop : indices.drop i = indices[i] :: indices.drop (i + 1) :=
      List.drop_eq_getElem_cons hi'
    rw [hdrop] at hfresh ⊢
    have hnotin : indices[i] ∉ indices.drop (i + 1) := by
      have := hnodup.sublist (List.drop_sublist i indices)
      rw [hdrop] at this
      exact (List.nodup_cons.mp this).1
    have hlen : buffer.length < 2 ^ 32 := by
      simpa [hentry] using hshort buffers[i] (List.getElem_mem hi)
    obtain ⟨hnext, hhasNext⟩ := next_eq_headD_drop hlength i
    -- the queue after this turn
    let q₁ : VirtQueue := { q with
      descriptorArea := Function.update q.descriptorArea indices[i]
        ⟨buffer.length, descriptorFlags direction (decide (i + 1 < buffers.length)),
          (indices.drop (i + 1)).headD 0⟩
      outstandingBuffers := Function.update q.outstandingBuffers indices[i] (some buffer) }
    have hfresh₁ : ∀ idx ∈ indices.drop (i + 1), q₁.outstandingBuffers idx = none := by
      intro idx hidx
      have hne : idx ≠ indices[i] := fun h => hnotin (h ▸ hidx)
      simp [q₁, Function.update_of_ne hne, hfresh idx (List.mem_cons_of_mem _ hidx)]
    obtain ⟨q', hwrite, hstored, hframe, descriptorArea, outstandingBuffers, hq'⟩ :=
      ih (i + 1) q₁ hfresh₁ hrest'
    have hstep : writeDescriptors indices buffers.length q i ((buffer, direction) :: rest) =
        writeDescriptors indices buffers.length q₁ (i + 1) rest :=
      writeDescriptors_cons (List.getElem?_eq_getElem hi') hlen hnext
        (hfresh indices[i] List.mem_cons_self)
    obtain ⟨hdesc, hout⟩ := hframe indices[i] hnotin
    refine ⟨q', hstep.trans hwrite, ⟨?_, ?_, rfl, hstored⟩, ?_, descriptorArea,
      outstandingBuffers, hq'⟩
    · rw [hdesc, ← hhasNext]
      simp [q₁]
    · rw [hout]
      simp [q₁]
    · intro x hx
      have hne : x ≠ indices[i] := fun h => hx (h ▸ List.mem_cons_self)
      obtain ⟨hdesc', hout'⟩ := hframe x (fun h => hx (List.mem_cons_of_mem _ h))
      rw [hdesc', hout']
      simp [q₁, Function.update_of_ne hne]

/-- The loop of `put_buffer_chain` panics at the first buffer of `2^32`
bytes or more, whatever came before it. -/
theorem writeDescriptors_eq_none_of_long {indices : List ℕ} {descriptorCount : ℕ} :
    ∀ {buffers : List (List UInt8 × BufferDirection)}, (∃ b ∈ buffers, 2 ^ 32 ≤ b.1.length) →
    ∀ (q : VirtQueue) (i : ℕ), writeDescriptors indices descriptorCount q i buffers = none
  | (buffer, direction) :: buffers, hlong, q, i => by
    by_cases hfirst : 2 ^ 32 ≤ buffer.length
    · have hfirst' : ¬buffer.length < 4294967296 := Nat.not_lt.mpr hfirst
      cases hidx : indices[i]? <;> simp [writeDescriptors, hidx, hfirst']
    · have hrest : ∃ b ∈ buffers, 2 ^ 32 ≤ b.1.length := by
        obtain ⟨b, hb, hblong⟩ := hlong
        rcases List.mem_cons.mp hb with rfl | hb
        · exact absurd hblong hfirst
        · exact ⟨b, hb, hblong⟩
      have ih := fun q i => @writeDescriptors_eq_none_of_long indices descriptorCount _ hrest q i
      simp [writeDescriptors, ih]

/-- `put_buffer_chain`: the result and the queue after the call.  Without
enough free descriptors it answers `NoFreeDescriptors` before touching the
queue. -/
def putBufferChain (queueSize : ℕ) (q : VirtQueue)
    (buffers : NonEmptyVec (List UInt8 × BufferDirection)) :
    Option (Except QueueError ℕ × VirtQueue) :=
  if q.freeDescriptorIndices.length < buffers.len then some (.error .noFreeDescriptors, q)
  else do
    let descriptorCount := buffers.len
    let (indices, free) ← popIndices descriptorCount q.freeDescriptorIndices
    let q ← writeDescriptors indices descriptorCount { q with freeDescriptorIndices := free } 0
      buffers.toList
    let head ← indices[0]?
    -- only the head goes into the available ring
    pure (.ok head,
      { q with
        driverAreaRing := Function.update q.driverAreaRing (q.driverAreaIdx % queueSize) head
        driverAreaIdx := (q.driverAreaIdx + 1) % 2 ^ 16 })

/-- Without enough free descriptors `put_buffer_chain` fails and leaves the
queue as it was. -/
theorem putBufferChain_of_lt {queueSize : ℕ} {q : VirtQueue}
    {buffers : NonEmptyVec (List UInt8 × BufferDirection)}
    (h : q.freeDescriptorIndices.length < buffers.len) :
    putBufferChain queueSize q buffers = some (.error .noFreeDescriptors, q) := by
  rw [putBufferChain, if_pos h]

/-- With enough free descriptors, distinct and with no outstanding buffer, and
buffers shorter than `2^32` bytes, `put_buffer_chain` stores the chain in the
last free descriptors, last one first, and puts its head into the available
ring. -/
theorem putBufferChain_of_le {queueSize : ℕ} {q : VirtQueue}
    {buffers : NonEmptyVec (List UInt8 × BufferDirection)}
    (h : buffers.len ≤ q.freeDescriptorIndices.length) (hnodup : q.freeDescriptorIndices.Nodup)
    (hfresh : ∀ idx ∈ q.freeDescriptorIndices, q.outstandingBuffers idx = none)
    (hshort : ∀ b ∈ buffers.toList, b.1.length < 2 ^ 32) :
    let indices := q.freeDescriptorIndices.reverse.take buffers.len
    ∃ head q', indices.head? = some head ∧
      putBufferChain queueSize q buffers = some (.ok head, q') ∧
      ChainStored q' indices buffers.toList (buffers.toList.map (·.1)) ∧
      (∀ x ∉ indices, q'.descriptorArea x = q.descriptorArea x ∧
        q'.outstandingBuffers x = q.outstandingBuffers x) ∧
      ∃ descriptorArea outstandingBuffers, q' =
        { q with
          descriptorArea, outstandingBuffers
          freeDescriptorIndices := (q.freeDescriptorIndices.reverse.drop buffers.len).reverse
          driverAreaRing := Function.update q.driverAreaRing (q.driverAreaIdx % queueSize) head
          driverAreaIdx := (q.driverAreaIdx + 1) % 2 ^ 16 } := by
  intro indices
  have hlength : indices.length = buffers.toList.length := by
    simp [indices, h]
  have hsub : indices ⊆ q.freeDescriptorIndices := fun x hx =>
    List.mem_reverse.mp (List.mem_of_mem_take hx)
  have hnodup' : indices.Nodup := (List.nodup_reverse.mpr hnodup).sublist (List.take_sublist _ _)
  obtain ⟨head, hhead⟩ : ∃ head, indices.head? = some head := by
    have : indices ≠ [] := by
      rw [← List.length_pos_iff, hlength, NonEmptyVec.length_toList, NonEmptyVec.len]
      omega
    exact Option.isSome_iff_exists.mp (List.isSome_head?.mpr this)
  obtain ⟨q', hwrite, hstored, hframe, descriptorArea, outstandingBuffers, hq'⟩ :=
    writeDescriptors_spec hlength hnodup' hshort 0
      { q with freeDescriptorIndices := (q.freeDescriptorIndices.reverse.drop buffers.len).reverse }
      (fun idx hidx => hfresh idx (hsub (by simpa using hidx)))
  simp only [List.drop_zero, NonEmptyVec.length_toList] at hwrite hstored hframe
  -- the head goes into the ring after the loop
  let q'' : VirtQueue := { q' with
    driverAreaRing := Function.update q'.driverAreaRing (q'.driverAreaIdx % queueSize) head
    driverAreaIdx := (q'.driverAreaIdx + 1) % 2 ^ 16 }
  refine ⟨head, q'', hhead, ?_, hstored.frame fun _ _ => ⟨rfl, rfl⟩, hframe, descriptorArea,
    outstandingBuffers, by subst hq'; rfl⟩
  rw [putBufferChain, if_neg (Nat.not_lt.mpr h)]
  simp only [popIndices_eq h, Option.bind_eq_bind, Option.bind_some]
  rw [hwrite, Option.bind_some, ← List.head?_eq_getElem?, hhead]
  rfl

/-- With enough free descriptors, a chain with a buffer of `2^32` bytes or
more makes `put_buffer_chain` panic at `u32::try_from(..).expect(..)`. -/
theorem putBufferChain_eq_none_of_long {queueSize : ℕ} {q : VirtQueue}
    {buffers : NonEmptyVec (List UInt8 × BufferDirection)}
    (h : buffers.len ≤ q.freeDescriptorIndices.length)
    (hlong : ∃ b ∈ buffers.toList, 2 ^ 32 ≤ b.1.length) :
    putBufferChain queueSize q buffers = none := by
  rw [putBufferChain, if_neg (Nat.not_lt.mpr h)]
  simp [popIndices_eq h, writeDescriptors_eq_none_of_long hlong]

/-- A chain `put_buffer_chain` accepts has only buffers shorter than `2^32`
bytes. -/
theorem putBufferChain_short {queueSize : ℕ} {q q' : VirtQueue}
    {buffers : NonEmptyVec (List UInt8 × BufferDirection)} {result : Except QueueError ℕ}
    (hput : putBufferChain queueSize q buffers = some (result, q'))
    (h : buffers.len ≤ q.freeDescriptorIndices.length) :
    ∀ b ∈ buffers.toList, b.1.length < 2 ^ 32 := by
  intro b hb
  by_contra hlong
  rw [putBufferChain_eq_none_of_long h ⟨b, hb, Nat.le_of_not_lt hlong⟩] at hput
  cases hput

/-- `put_buffer`: a chain of one buffer. -/
def putBuffer (queueSize : ℕ) (q : VirtQueue) (buffer : List UInt8)
    (direction : BufferDirection) : Option (Except QueueError ℕ × VirtQueue) :=
  putBufferChain queueSize q (NonEmptyVec.new (buffer, direction))

/-- The `loop` of `receive_buffer` that follows one chain from `currentIdx`:
each descriptor's outstanding buffer comes back, a device-writable one cut to
what is left of the written length, and the descriptor is reset and pushed
onto the free list.  Each turn removes one of the at most `2^16` outstanding
buffers (their keys are `u16`), so turn `2^16 + 1` has always panicked at the
`expect`: the fuel never runs out first. -/
def takeChain : ℕ → VirtQueue → ℕ → ℕ → Option (List (List UInt8) × VirtQueue)
  | 0, _, _, _ => none
  | fuel + 1, q, currentIdx, remainingWritten => do
    let descriptor := q.descriptorArea currentIdx
    let isDeviceWritable := descriptor.flags &&& virtqDescFWrite != 0
    let hasNext := descriptor.flags &&& virtqDescFNext != 0
    let stored ← q.outstandingBuffers currentIdx
    let bufLen := if isDeviceWritable then min remainingWritten stored.length else stored.length
    -- `saturating_sub`
    let remainingWritten :=
      if isDeviceWritable then remainingWritten - stored.length else remainingWritten
    let q := { q with
      descriptorArea := Function.update q.descriptorArea currentIdx VirtqDesc.zero
      outstandingBuffers := Function.update q.outstandingBuffers currentIdx none
      freeDescriptorIndices := q.freeDescriptorIndices ++ [currentIdx] }
    if hasNext then
      let (buffers, q) ← takeChain fuel q descriptor.next remainingWritten
      pure (stored.take bufLen :: buffers, q)
    else pure ([stored.take bufLen], q)

/-- The queue after `receive_buffer` took back the chain `indices`: its
descriptors reset, its buffers no longer outstanding and its indices pushed
onto the free list in chain order. -/
def releaseChain (q : VirtQueue) (indices : List ℕ) : VirtQueue :=
  { q with
    descriptorArea := fun x => if x ∈ indices then VirtqDesc.zero else q.descriptorArea x
    outstandingBuffers := fun x => if x ∈ indices then none else q.outstandingBuffers x
    freeDescriptorIndices := q.freeDescriptorIndices ++ indices }

@[simp]
theorem releaseChain_nil (q : VirtQueue) : releaseChain q [] = q := by
  simp [releaseChain]

@[simp]
theorem releaseChain_lastUsedRingIndex (q : VirtQueue) (indices : List ℕ) :
    (releaseChain q indices).lastUsedRingIndex = q.lastUsedRingIndex := rfl

@[simp]
theorem releaseChain_deviceAreaRing (q : VirtQueue) (indices : List ℕ) :
    (releaseChain q indices).deviceAreaRing = q.deviceAreaRing := rfl

/-- One turn of the walk releases the head; the rest of the walk releases the
rest of the chain. -/
theorem releaseChain_cons (q : VirtQueue) (idx : ℕ) (indices : List ℕ) :
    releaseChain
        { q with
          descriptorArea := Function.update q.descriptorArea idx VirtqDesc.zero
          outstandingBuffers := Function.update q.outstandingBuffers idx none
          freeDescriptorIndices := q.freeDescriptorIndices ++ [idx] } indices =
      releaseChain q (idx :: indices) := by
  unfold releaseChain
  congr 1
  · funext x
    by_cases hx : x = idx <;> simp [hx]
  · simp
  · funext x
    by_cases hx : x = idx <;> simp [hx]

theorem releaseChain_append (q : VirtQueue) (first second : List ℕ) :
    releaseChain (releaseChain q first) second = releaseChain q (first ++ second) := by
  unfold releaseChain
  congr 1
  · funext x
    by_cases hx : x ∈ first <;> simp [hx]
  · simp
  · funext x
    by_cases hx : x ∈ first <;> simp [hx]

/-- Releasing a chain leaves every other descriptor alone. -/
theorem releaseChain_of_not_mem (q : VirtQueue) {indices : List ℕ} {x : ℕ} (hx : x ∉ indices) :
    (releaseChain q indices).descriptorArea x = q.descriptorArea x ∧
      (releaseChain q indices).outstandingBuffers x = q.outstandingBuffers x := by
  simp [releaseChain, hx]

/-- What `receive_buffer` hands back for a chain whose buffers hold
`contents`, of which the device reports `written` bytes: each driver-writable
buffer whole, each device-writable one cut to what is left of the written
length. -/
def cutBuffers :
    List (List UInt8 × BufferDirection) → List (List UInt8) → ℕ → List (List UInt8)
  | (_, .driverWritable) :: buffers, content :: contents, written =>
    content :: cutBuffers buffers contents written
  | (_, .deviceWritable) :: buffers, content :: contents, written =>
    content.take written :: cutBuffers buffers contents (written - content.length)
  | _, _, _ => []

/-- The walk of `receive_buffer` along a stored chain of distinct descriptors
hands back its buffers as `cutBuffers` says and releases the chain. -/
theorem takeChain_eq : ∀ {indices : List ℕ} {buffers : List (List UInt8 × BufferDirection)}
    {contents : List (List UInt8)} {q : VirtQueue} {fuel : ℕ} (written : ℕ),
    ChainStored q indices buffers contents → indices.Nodup → indices.length ≤ fuel →
    indices ≠ [] →
    takeChain fuel q (indices.headD 0) written =
      some (cutBuffers buffers contents written, releaseChain q indices)
  | idx :: rest, (buffer, direction) :: buffers, content :: contents, q, fuel + 1, written,
      hstored, hnodup, hfuel, _ => by
    obtain ⟨hdesc, hout, hlen, hrest⟩ := hstored
    obtain ⟨hnotin, hnodup'⟩ := List.nodup_cons.mp hnodup
    -- the queue after this turn, which no longer holds `idx`
    let q₁ : VirtQueue := { q with
      descriptorArea := Function.update q.descriptorArea idx VirtqDesc.zero
      outstandingBuffers := Function.update q.outstandingBuffers idx none
      freeDescriptorIndices := q.freeDescriptorIndices ++ [idx] }
    cases rest with
    | nil =>
      cases buffers with
      | cons _ _ => exact absurd hrest (by simp [ChainStored])
      | nil =>
      cases contents with
      | cons _ _ => exact absurd hrest (by simp [ChainStored])
      | nil =>
      have hq₁ : q₁ = releaseChain q [idx] := by
        rw [← releaseChain_cons, releaseChain_nil]
      cases direction <;> simp [takeChain, hdesc, hout, cutBuffers] <;> exact hq₁
    | cons next rest =>
      have hstored₁ : ChainStored q₁ (next :: rest) buffers contents := by
        refine hrest.frame fun x hx => ?_
        have hne : x ≠ idx := fun h => hnotin (h ▸ hx)
        simp [q₁, Function.update_of_ne hne]
      have hwalk := fun written' =>
        takeChain_eq written' hstored₁ hnodup' (by simpa using hfuel) (List.cons_ne_nil _ _)
      simp only [List.headD_cons] at hwalk
      cases direction <;>
        simp [takeChain, hdesc, hout, hwalk, cutBuffers, releaseChain_cons, q₁]

/-- The `while` loop of `receive_buffer`, up to the device index read before
it.  Each turn moves `last_used_ring_index` on by one modulo `2^16`, so from
any `u16` it meets any other within `2^16` turns. -/
def receiveLoop (queueSize currentDeviceIndex : ℕ) :
    ℕ → VirtQueue → Option (List UsedBuffer × VirtQueue)
  | 0, _ => none
  | fuel + 1, q =>
    if q.lastUsedRingIndex = currentDeviceIndex then some ([], q)
    else do
      let resultDescriptor := q.deviceAreaRing (q.lastUsedRingIndex % queueSize)
      -- the assert that the device returned an index inside the queue
      if queueSize ≤ resultDescriptor.id then none
      let headIndex := resultDescriptor.id
      let (chain, q) ← takeChain (2 ^ 16 + 1) q headIndex resultDescriptor.len
      -- `first_buffer.expect(..)`
      let first :: rest := chain | none
      let buffers := rest.foldl NonEmptyVec.push (NonEmptyVec.new first)
      let q := { q with lastUsedRingIndex := (q.lastUsedRingIndex + 1) % 2 ^ 16 }
      let (used, q) ← receiveLoop queueSize currentDeviceIndex fuel q
      pure (⟨headIndex, buffers⟩ :: used, q)

/-- `receive_buffer`: every chain the device has returned since the last
call, in the order of the used ring. -/
def receiveBuffer (queueSize : ℕ) (q : VirtQueue) : Option (List UsedBuffer × VirtQueue) :=
  let currentDeviceIndex := q.deviceAreaIdx
  if q.lastUsedRingIndex = currentDeviceIndex then some ([], q)
  else receiveLoop queueSize currentDeviceIndex (2 ^ 16) q

/-- A chain the device has put into the used ring: its descriptors, its
buffers, what the buffers hold and the written length the device reports. -/
structure ReturnedChain where
  indices : List ℕ
  buffers : List (List UInt8 × BufferDirection)
  contents : List (List UInt8)
  written : ℕ

/-- The chain's head, its first descriptor. -/
def ReturnedChain.head (c : ReturnedChain) : ℕ := c.indices.headD 0

section Receive

variable {queueSize current : ℕ}

/-- What `receive_buffer` needs of the chains the used ring holds: each is
stored in the table, with no descriptor shared between chains. -/
structure ReturnedChainsStored (queueSize : ℕ) (q : VirtQueue) (chains : List ReturnedChain) :
    Prop where
  stored : ∀ c ∈ chains, ChainStored q c.indices c.buffers c.contents
  nonempty : ∀ c ∈ chains, c.indices ≠ []
  lt_size : ∀ c ∈ chains, ∀ i ∈ c.indices, i < queueSize
  nodup : (chains.flatMap (·.indices)).Nodup

/-- The used ring holds the heads and written lengths of `chains`, from the
driver's `last_used_ring_index` on, up to the device's index `current`. -/
structure UsedRingHolds (queueSize current : ℕ) (q : VirtQueue) (chains : List ReturnedChain) :
    Prop where
  last_lt : q.lastUsedRingIndex < 2 ^ 16
  length_lt : chains.length < 2 ^ 16
  idx_eq : (q.lastUsedRingIndex + chains.length) % 2 ^ 16 = current
  ring : ∀ k (hk : k < chains.length),
    q.deviceAreaRing ((q.lastUsedRingIndex + k) % queueSize) = ⟨chains[k].head, chains[k].written⟩

/-- What the used ring holds depends only on the ring and the driver's
index into it. -/
theorem UsedRingHolds.of_eq {q q' : VirtQueue} {chains : List ReturnedChain}
    (h : UsedRingHolds queueSize current q chains)
    (hlast : q'.lastUsedRingIndex = q.lastUsedRingIndex)
    (hring : q'.deviceAreaRing = q.deviceAreaRing) :
    UsedRingHolds queueSize current q' chains :=
  ⟨hlast ▸ h.last_lt, h.length_lt, hlast ▸ h.idx_eq, hlast ▸ hring ▸ h.ring⟩

/-- The device puts a returned chain's head and written length into the slot
after the chains the ring holds.  The ring holds fewer chains than it has
slots, so the slot is not one of theirs. -/
theorem UsedRingHolds.push (hdvd : queueSize ∣ 2 ^ 16) (hsize : queueSize ≤ 2 ^ 15)
    {q : VirtQueue} {chains : List ReturnedChain}
    (h : UsedRingHolds queueSize q.deviceAreaIdx q chains) (hlength : chains.length < queueSize)
    (c : ReturnedChain) {head : ℕ} (hhead : c.head = head) :
    UsedRingHolds queueSize ((q.deviceAreaIdx + 1) % 2 ^ 16)
      { q with
        deviceAreaRing := Function.update q.deviceAreaRing (q.deviceAreaIdx % queueSize)
          ⟨head, c.written⟩
        deviceAreaIdx := (q.deviceAreaIdx + 1) % 2 ^ 16 }
      (chains ++ [c]) := by
  have hslot : q.deviceAreaIdx % queueSize = (q.lastUsedRingIndex + chains.length) % queueSize := by
    rw [← h.idx_eq, Nat.mod_mod_of_dvd _ hdvd]
  refine ⟨h.last_lt, by simp; omega, ?_, fun j hj => ?_⟩
  · simp only [List.length_append, List.length_singleton]
    rw [← Nat.add_assoc, ← Nat.mod_add_mod, h.idx_eq]
  · simp only [List.length_append, List.length_singleton] at hj
    by_cases hlast : j = chains.length
    · subst hlast
      simp [hslot, hhead]
    · have hj' : j < chains.length := by omega
      have hne : (q.lastUsedRingIndex + j) % queueSize ≠ q.deviceAreaIdx % queueSize := by
        rw [hslot]
        exact Ring.mod_add_ne_of_lt _ hj' (by omega)
      simp only [Function.update_of_ne hne, List.getElem_append_left hj']
      exact h.ring j hj'

/-- Once the first chain is taken back and the used index moved on, the rest
of the chains are still stored. -/
theorem ReturnedChainsStored.tail {q : VirtQueue} {c : ReturnedChain} {chains : List ReturnedChain}
    (h : ReturnedChainsStored queueSize q (c :: chains)) (last : ℕ) :
    ReturnedChainsStored queueSize
      { releaseChain q c.indices with lastUsedRingIndex := last } chains := by
  have hnodup := h.nodup
  simp only [List.flatMap_cons, List.nodup_append] at hnodup
  refine ⟨fun c' hc' => (h.stored c' (List.mem_cons_of_mem c hc')).frame fun x hx => ?_,
    fun c' hc' => h.nonempty c' (List.mem_cons_of_mem c hc'),
    fun c' hc' => h.lt_size c' (List.mem_cons_of_mem c hc'), hnodup.2.1⟩
  have hnotin : x ∉ c.indices := fun hx' =>
    hnodup.2.2 x hx' x (List.mem_flatMap.mpr ⟨c', hc', hx⟩) rfl
  exact releaseChain_of_not_mem q hnotin

/-- The used ring still holds the rest of the chains once the first is taken
back and the used index moved on by one modulo `2^16`. -/
theorem UsedRingHolds.tail (hdvd : queueSize ∣ 2 ^ 16) {q : VirtQueue} {c : ReturnedChain}
    {chains : List ReturnedChain} (h : UsedRingHolds queueSize current q (c :: chains)) :
    UsedRingHolds queueSize current
      { releaseChain q c.indices with
        lastUsedRingIndex := (q.lastUsedRingIndex + 1) % 2 ^ 16 } chains := by
  have hidx := h.idx_eq
  have hlength := h.length_lt
  simp only [List.length_cons] at hidx hlength
  refine ⟨Nat.mod_lt _ (Nat.two_pow_pos 16), by omega, by simp only; omega, fun k hk => ?_⟩
  have hring := h.ring (k + 1) (by simpa using hk)
  simp only [List.getElem_cons_succ] at hring
  rw [releaseChain_deviceAreaRing, Ring.mod_add_mod_of_dvd hdvd, Nat.add_assoc, Nat.add_comm 1 k]
  exact hring

/-- `receive_buffer`'s loop takes back every chain of the used ring in ring
order, each handed back as `cutBuffers` says, and releases them all. -/
theorem receiveLoop_eq (hdvd : queueSize ∣ 2 ^ 16) (hsize : queueSize ≤ 2 ^ 16) :
    ∀ (chains : List ReturnedChain) (q : VirtQueue) (fuel : ℕ), chains.length < fuel →
      ReturnedChainsStored queueSize q chains → UsedRingHolds queueSize current q chains →
      ∃ used, receiveLoop queueSize current fuel q =
          some (used, { releaseChain q (chains.flatMap (·.indices)) with
            lastUsedRingIndex := current }) ∧
        used.map (fun u => (u.index, u.buffers.toList)) =
          chains.map fun c => (c.head, cutBuffers c.buffers c.contents c.written)
  | [], q, fuel + 1, _, _, hring => by
    have hlast : q.lastUsedRingIndex = current := by
      have := hring.idx_eq
      have := hring.last_lt
      simp only [List.length_nil, Nat.add_zero] at *
      omega
    refine ⟨[], ?_, rfl⟩
    simp [receiveLoop, hlast]
    rw [← hlast]
  | c :: chains, q, fuel + 1, hfuel, hstored, hring => by
    have hnext : q.lastUsedRingIndex ≠ current := by
      have := hring.idx_eq
      have := hring.last_lt
      have := hring.length_lt
      simp only [List.length_cons] at *
      omega
    have hslot : q.deviceAreaRing (q.lastUsedRingIndex % queueSize) = ⟨c.head, c.written⟩ := by
      have h0 := hring.ring 0 (by simp)
      simp only [Nat.add_zero, List.getElem_cons_zero] at h0
      exact h0
    have hc : c ∈ c :: chains := List.mem_cons_self
    have hhead : c.head < queueSize := by
      obtain ⟨idx, rest, hidx⟩ := List.exists_cons_of_ne_nil (hstored.nonempty c hc)
      have := hstored.lt_size c hc idx (by simp [hidx])
      simpa [ReturnedChain.head, hidx] using this
    -- the chain is distinct descriptors of the table, so at most `queueSize` of them
    have hcnodup : c.indices.Nodup := by
      have := hstored.nodup
      simp only [List.flatMap_cons, List.nodup_append] at this
      exact this.1
    have hclength : c.indices.length ≤ 2 ^ 16 + 1 := by
      have hsub : c.indices.Subperm (List.range queueSize) :=
        hcnodup.subperm fun x hx => List.mem_range.mpr (hstored.lt_size c hc x hx)
      have := hsub.length_le
      simp only [List.length_range] at this
      omega
    have htake := takeChain_eq c.written (hstored.stored c hc) hcnodup hclength
      (hstored.nonempty c hc)
    obtain ⟨first, rest, hcut⟩ : ∃ first rest,
        cutBuffers c.buffers c.contents c.written = first :: rest := by
      obtain ⟨idx, indices, hidx⟩ := List.exists_cons_of_ne_nil (hstored.nonempty c hc)
      have hst := hstored.stored c hc
      rw [hidx] at hst
      match hbuf : c.buffers, hcon : c.contents with
      | (buffer, direction) :: buffers, content :: contents =>
        cases direction <;> simp [cutBuffers]
      | [], _ => simp [hbuf, ChainStored] at hst
      | _ :: _, [] => simp [hbuf, hcon, ChainStored] at hst
    obtain ⟨used, hloop, hused⟩ := receiveLoop_eq hdvd hsize chains
      { releaseChain q c.indices with lastUsedRingIndex := (q.lastUsedRingIndex + 1) % 2 ^ 16 }
      fuel (by simpa using hfuel) (hstored.tail _) (hring.tail hdvd)
    refine ⟨⟨c.head, rest.foldl NonEmptyVec.push (NonEmptyVec.new first)⟩ :: used, ?_, ?_⟩
    · simp only [receiveLoop, if_neg hnext, hslot]
      rw [if_neg (Nat.not_le.mpr hhead)]
      simp only [Option.bind_eq_bind, ReturnedChain.head] at htake ⊢
      rw [htake, hcut]
      simp only [Option.bind_some, releaseChain_lastUsedRingIndex] at hloop ⊢
      rw [hloop, Option.bind_some, List.flatMap_cons, ← releaseChain_append]
      rfl
    · simp [hused, NonEmptyVec.toList_foldl_push, hcut]

/-- `receive_buffer` takes back every chain of the used ring, in ring order,
each handed back as `cutBuffers` says, and leaves the driver at the device's
index. -/
theorem receiveBuffer_eq (hdvd : queueSize ∣ 2 ^ 16) (hsize : queueSize ≤ 2 ^ 16)
    {q : VirtQueue} {chains : List ReturnedChain} (hstored : ReturnedChainsStored queueSize q chains)
    (hring : UsedRingHolds queueSize q.deviceAreaIdx q chains) :
    ∃ used, receiveBuffer queueSize q =
        some (used, { releaseChain q (chains.flatMap (·.indices)) with
          lastUsedRingIndex := q.deviceAreaIdx }) ∧
      used.map (fun u => (u.index, u.buffers.toList)) =
        chains.map fun c => (c.head, cutBuffers c.buffers c.contents c.written) := by
  by_cases hlast : q.lastUsedRingIndex = q.deviceAreaIdx
  · -- the used ring is empty: nothing to take back
    have hnil : chains = [] := by
      have := hring.idx_eq
      have := hring.last_lt
      have := hring.length_lt
      exact List.eq_nil_of_length_eq_zero (by omega)
    subst hnil
    refine ⟨[], ?_, rfl⟩
    simp only [receiveBuffer, if_pos hlast, List.flatMap_nil, releaseChain_nil]
    cases q
    simp only at hlast
    subst hlast
    rfl
  · obtain ⟨used, hloop, hused⟩ :=
      receiveLoop_eq hdvd hsize chains q (2 ^ 16) hring.length_lt hstored hring
    exact ⟨used, by rw [receiveBuffer, if_neg hlast, hloop], hused⟩

end Receive

end VirtQueue

end Solaya
