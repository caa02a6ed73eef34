import Solaya.Headers
import Solaya.Core.Machine
import Mathlib.Data.List.Perm.Basic

/-!
# Pipes

A pipe (`io/pipe.rs`) is a `PipeInner` behind a lock, shared by its handles:
every `PipeReader` and `PipeWriter` value, in a file-descriptor table, in the
table a fork copied, or cloned by a system call for the time it runs.  Cloning
a handle counts it in `reader_count` or `writer_count`, dropping it uncounts
it, and the two counts decide end of file and `EPIPE`.  Bytes go in at the
back of the deque and come out at the front, through `try_read` for
non-blocking descriptors and `ReadPipe::poll` for blocking ones.

`PipeSystem` is one pipe with its live handles and, as ghost state, the bytes
all writes took and all reads returned.  Its invariant (`PipeSystem.Inv`)
says the returned bytes followed by the buffer are the written bytes, and
each count is the number of live handles of its end; so no assertion of a
clone or a drop fails (`PipeSystem.run_some`), and the counts answer for the
handles.  A read of zero bytes is the one that returns nothing while bytes and
writers remain: in every reachable state it leaves the buffer as it is
(`pipe_zero_count_read_of_buffered`).
-/

namespace Solaya

/-- `PipeInner`; a waker is named by the task it wakes. -/
structure PipeInner where
  data : List UInt8
  readWakers : List ℕ
  readerCount : ℕ
  writerCount : ℕ
  deriving DecidableEq, Repr

namespace PipeInner

/-- `PipeInner::new`: the buffer of a pipe with one reader and one writer. -/
def new : PipeInner := ⟨[], [], 1, 1⟩

/-- `read_closed`. -/
def readClosed (p : PipeInner) : Bool := p.readerCount == 0

/-- `write_closed`. -/
def writeClosed (p : PipeInner) : Bool := p.writerCount == 0

/-- `wake_readers`: every registered waker is taken off the list and woken. -/
def wakeReaders (p : PipeInner) : PipeInner := { p with readWakers := [] }

/-- `data.drain(..min(data.len(), count)).collect()`, the read both read
paths make when there are bytes. -/
def drain (p : PipeInner) (count : ℕ) : List UInt8 × PipeInner :=
  let actual := min p.data.length count
  (p.data.take actual, { p with data := p.data.drop actual })

/-- `PipeInner::write`. -/
def write (p : PipeInner) (data : List UInt8) : Except Errno (ℕ × PipeInner) :=
  if p.readClosed then .error .epipe
  else .ok (data.length, { p with data := p.data ++ data }.wakeReaders)

/-- `PipeInner::try_read`. -/
def tryRead (p : PipeInner) (count : ℕ) : Except Errno (List UInt8 × PipeInner) :=
  if !p.data.isEmpty then .ok (p.drain count)
  else if p.writeClosed then .ok ([], p)
  else .error .eagain

/-- `add_reader`; `none` where its `assert!` fails. -/
def addReader (p : PipeInner) : Option PipeInner :=
  if p.readerCount > 0 then some { p with readerCount := p.readerCount + 1 } else none

/-- `add_writer`; `none` where its `assert!` fails. -/
def addWriter (p : PipeInner) : Option PipeInner :=
  if p.writerCount > 0 then some { p with writerCount := p.writerCount + 1 } else none

/-- `close_write`; `none` where its `assert!` fails.  The last writer wakes the
readers, which then see end of file. -/
def closeWrite (p : PipeInner) : Option PipeInner :=
  if p.writeClosed then none
  else
    let p := { p with writerCount := p.writerCount - 1 }
    some (if p.writeClosed then p.wakeReaders else p)

/-- `close_read`; `none` where its `assert!` fails. -/
def closeRead (p : PipeInner) : Option PipeInner :=
  if p.readClosed then none else some { p with readerCount := p.readerCount - 1 }

@[simp] theorem drain_fst (p : PipeInner) (count : ℕ) :
    (p.drain count).1 = p.data.take (min p.data.length count) := rfl

@[simp] theorem drain_snd_data (p : PipeInner) (count : ℕ) :
    (p.drain count).2.data = p.data.drop (min p.data.length count) := rfl

@[simp] theorem drain_snd_readerCount (p : PipeInner) (count : ℕ) :
    (p.drain count).2.readerCount = p.readerCount := rfl

@[simp] theorem drain_snd_writerCount (p : PipeInner) (count : ℕ) :
    (p.drain count).2.writerCount = p.writerCount := rfl

/-- A drain moves bytes from the front of the buffer to the reader: the two
together are the buffer as it was. -/
theorem drain_fst_append (p : PipeInner) (count : ℕ) :
    (p.drain count).1 ++ (p.drain count).2.data = p.data := by
  simp

/-- A drain of a non-empty buffer for a positive count returns a byte. -/
theorem drain_fst_ne_nil {p : PipeInner} {count : ℕ} (hdata : p.data ≠ []) (hcount : 0 < count) :
    (p.drain count).1 ≠ [] := by
  have hlen : 0 < p.data.length := List.length_pos_iff.mpr hdata
  rw [drain_fst, ne_eq, List.take_eq_nil_iff, not_or]
  exact ⟨by omega, hdata⟩

/-- A drain of zero bytes takes nothing and leaves the pipe as it is. -/
theorem drain_zero (p : PipeInner) : p.drain 0 = ([], p) := by
  simp [drain]

/-- With bytes buffered, `try_read` of zero bytes returns nothing and changes
nothing. -/
theorem tryRead_zero_of_ne_nil {p : PipeInner} (hdata : p.data ≠ []) :
    p.tryRead 0 = .ok ([], p) := by
  rw [tryRead, if_pos (by simpa using hdata), drain_zero]

/-! ### What each operation does -/

/-- `bytes` came off the front of the buffer of `p`, leaving `p'` with the
same counts: what every read does, including one that returns nothing. -/
structure TakesFront (p : PipeInner) (bytes : List UInt8) (p' : PipeInner) : Prop where
  front : bytes ++ p'.data = p.data
  readerCount_eq : p'.readerCount = p.readerCount
  writerCount_eq : p'.writerCount = p.writerCount

theorem takesFront_drain (p : PipeInner) (count : ℕ) :
    TakesFront p (p.drain count).1 (p.drain count).2 :=
  ⟨drain_fst_append p count, rfl, rfl⟩

theorem takesFront_nil (p : PipeInner) : TakesFront p [] p := ⟨rfl, rfl, rfl⟩

/-- A successful `try_read` takes bytes off the front, and returns none for a
positive count only at end of file: an empty buffer and no writer. -/
theorem tryRead_eq_ok {p p' : PipeInner} {count : ℕ} {bytes : List UInt8}
    (h : p.tryRead count = .ok (bytes, p')) :
    TakesFront p bytes p' ∧ (bytes = [] → 0 < count → p.data = [] ∧ p.writerCount = 0) := by
  unfold tryRead at h
  split_ifs at h with hdata hclosed
  · obtain ⟨rfl, rfl⟩ := Prod.ext_iff.mp (Except.ok.inj h)
    have hne : p.data ≠ [] := by simpa using hdata
    exact ⟨takesFront_drain p count, fun hnil hcount => absurd hnil (drain_fst_ne_nil hne hcount)⟩
  · obtain ⟨rfl, rfl⟩ := Prod.ext_iff.mp (Except.ok.inj h)
    have hempty : p.data = [] := by simpa using hdata
    have hnone : p.writerCount = 0 := by simpa [writeClosed] using hclosed
    exact ⟨takesFront_nil p, fun _ _ => ⟨hempty, hnone⟩⟩

/-- A write succeeds exactly while a reader is counted, and then appends its
bytes at the back. -/
theorem write_eq_ok {p p' : PipeInner} {data : List UInt8} {n : ℕ}
    (h : p.write data = .ok (n, p')) :
    p'.data = p.data ++ data ∧ p'.readerCount = p.readerCount ∧
      p'.writerCount = p.writerCount := by
  unfold write at h
  split_ifs at h
  obtain ⟨-, rfl⟩ := Prod.ext_iff.mp (Except.ok.inj h)
  exact ⟨rfl, rfl, rfl⟩

theorem write_eq_error_iff (p : PipeInner) (data : List UInt8) :
    (∃ e, p.write data = .error e) ↔ p.readerCount = 0 := by
  unfold write readClosed
  split_ifs with hclosed
  · exact ⟨fun _ => by simpa using hclosed, fun _ => ⟨_, rfl⟩⟩
  · simp only [beq_iff_eq] at hclosed
    refine ⟨fun ⟨_, herror⟩ => ?_, fun hzero => absurd hzero hclosed⟩
    cases herror

theorem write_eq_error {p : PipeInner} {data : List UInt8} {e : Errno}
    (h : p.write data = .error e) : e = .epipe := by
  unfold write at h
  split_ifs at h
  exact (Except.error.inj h).symm

theorem addReader_of_pos {p : PipeInner} (h : 0 < p.readerCount) :
    p.addReader = some { p with readerCount := p.readerCount + 1 } := if_pos h

theorem addWriter_of_pos {p : PipeInner} (h : 0 < p.writerCount) :
    p.addWriter = some { p with writerCount := p.writerCount + 1 } := if_pos h

theorem closeRead_of_pos {p : PipeInner} (h : 0 < p.readerCount) :
    p.closeRead = some { p with readerCount := p.readerCount - 1 } := by
  rw [closeRead, readClosed, if_neg (by simpa using Nat.pos_iff_ne_zero.mp h)]

/-- Closing a counted writer uncounts it and leaves the bytes; waking the
readers changes nothing else. -/
theorem closeWrite_of_pos {p : PipeInner} (h : 0 < p.writerCount) :
    ∃ p', p.closeWrite = some p' ∧ p'.data = p.data ∧ p'.readerCount = p.readerCount ∧
      p'.writerCount = p.writerCount - 1 := by
  rw [closeWrite, writeClosed, if_neg (by simpa using Nat.pos_iff_ne_zero.mp h)]
  exact ⟨_, rfl, by split <;> rfl, by split <;> rfl, by split <;> rfl⟩

end PipeInner

/-- `ReadPipe`: the future of a blocking read of at most `max_count` bytes. -/
structure ReadPipe where
  maxCount : ℕ
  isRegistered : Bool
  deriving DecidableEq, Repr

/-- `ReadPipe::poll` by the task `waker`: bytes or end of file when ready
(`some`), `none` when pending, after registering the task's waker once. -/
def ReadPipe.poll (rp : ReadPipe) (p : PipeInner) (waker : ℕ) :
    PipeInner × ReadPipe × Option (List UInt8) :=
  if !p.data.isEmpty then ((p.drain rp.maxCount).2, rp, some (p.drain rp.maxCount).1)
  else if p.writeClosed then (p, rp, some [])
  else if !rp.isRegistered then
    ({ p with readWakers := p.readWakers ++ [waker] }, { rp with isRegistered := true }, none)
  else (p, rp, none)

/-- A poll takes bytes off the front, and is ready with nothing for a
positive count only at end of file. -/
theorem ReadPipe.poll_takesFront (rp : ReadPipe) (p : PipeInner) (waker : ℕ) :
    PipeInner.TakesFront p ((rp.poll p waker).2.2.getD []) (rp.poll p waker).1 ∧
      ((rp.poll p waker).2.2 = some [] → 0 < rp.maxCount →
        p.data = [] ∧ p.writerCount = 0) := by
  unfold ReadPipe.poll
  split_ifs with hdata hclosed hregistered
  · have hne : p.data ≠ [] := by simpa using hdata
    exact ⟨PipeInner.takesFront_drain p rp.maxCount, fun hnil hcount =>
      absurd (Option.some.inj hnil) (PipeInner.drain_fst_ne_nil hne hcount)⟩
  · have hempty : p.data = [] := by simpa using hdata
    have hnone : p.writerCount = 0 := by simpa [PipeInner.writeClosed] using hclosed
    exact ⟨PipeInner.takesFront_nil p, fun _ _ => ⟨hempty, hnone⟩⟩
  · exact ⟨⟨rfl, rfl, rfl⟩, fun hready => by cases hready⟩
  · exact ⟨PipeInner.takesFront_nil p, fun hready => by cases hready⟩

/-- With bytes buffered, a poll for zero bytes is ready with nothing and
changes nothing. -/
theorem ReadPipe.poll_zero_of_ne_nil {rp : ReadPipe} {p : PipeInner} (waker : ℕ)
    (hcount : rp.maxCount = 0) (hdata : p.data ≠ []) : rp.poll p waker = (p, rp, some []) := by
  rw [ReadPipe.poll, if_pos (by simpa using hdata), hcount, PipeInner.drain_zero]

/-- The end of a pipe a handle holds. -/
inductive PipeEnd where
  | reader
  | writer
  deriving DecidableEq, Repr

/-- One pipe with its live handles (`PipeReader`, `PipeWriter`), and as ghost
state every byte a successful write took and every byte a read returned, in
order. -/
structure PipeSystem where
  inner : PipeInner
  handles : List PipeEnd
  written : List UInt8
  delivered : List UInt8

/-- What happens to a pipe: a write or a non-blocking read through one of its
handles, a poll of a blocking read's future, and a clone (`dup`, `fork`, a
system call's own copy) or a drop (`close`, exit, the end of a system call)
of a handle. -/
inductive PipeEvent where
  | write (handle : ℕ) (data : List UInt8)
  | tryRead (handle : ℕ) (count : ℕ)
  | poll (future : ReadPipe) (waker : ℕ)
  | clone (handle : ℕ)
  | drop (handle : ℕ)
  deriving DecidableEq, Repr

namespace PipeSystem

/-- `new_pipe`. -/
def new : PipeSystem := ⟨PipeInner.new, [.reader, .writer], [], []⟩

/-- One event; an event on a handle that is not there, or a write or read
through a handle of the other end, does not happen.  A failed write or read
changes nothing. -/
def step (s : PipeSystem) : PipeEvent → Option PipeSystem
  | .write handle data =>
    if s.handles[handle]? = some .writer then
      match s.inner.write data with
      | .ok (_, inner) => some { s with inner, written := s.written ++ data }
      | .error _ => some s
    else some s
  | .tryRead handle count =>
    if s.handles[handle]? = some .reader then
      match s.inner.tryRead count with
      | .ok (bytes, inner) => some { s with inner, delivered := s.delivered ++ bytes }
      | .error _ => some s
    else some s
  | .poll future waker =>
    let (inner, _, result) := future.poll s.inner waker
    some { s with inner, delivered := s.delivered ++ result.getD [] }
  | .clone handle =>
    match s.handles[handle]? with
    | some .reader =>
      s.inner.addReader.map fun inner => { s with inner, handles := s.handles ++ [.reader] }
    | some .writer =>
      s.inner.addWriter.map fun inner => { s with inner, handles := s.handles ++ [.writer] }
    | none => some s
  | .drop handle =>
    match s.handles[handle]? with
    | some .reader =>
      s.inner.closeRead.map fun inner => { s with inner, handles := s.handles.eraseIdx handle }
    | some .writer =>
      s.inner.closeWrite.map fun inner => { s with inner, handles := s.handles.eraseIdx handle }
    | none => some s

/-! ### The invariant -/

/-- Dropping the handle at `i` takes one off the count of its end. -/
theorem count_eraseIdx_of_getElem? {α : Type} [DecidableEq α] {l : List α} {i : ℕ} {a : α}
    (h : l[i]? = some a) (b : α) :
    l.count b = (l.eraseIdx i).count b + if a = b then 1 else 0 := by
  obtain ⟨hlt, hget⟩ := List.getElem?_eq_some_iff.mp h
  rw [← (List.getElem_cons_eraseIdx_perm hlt).count_eq b, List.count_cons, hget]
  simp only [beq_iff_eq]

/-- The bytes reads returned, followed by the buffer, are the bytes writes
took; each count is the number of live handles of its end. -/
structure Inv (s : PipeSystem) : Prop where
  fifo : s.delivered ++ s.inner.data = s.written
  readers : s.inner.readerCount = s.handles.count .reader
  writers : s.inner.writerCount = s.handles.count .writer

theorem inv_new : Inv new := ⟨rfl, rfl, rfl⟩

/-- A read keeps the invariant, whichever path made it. -/
theorem Inv.read {s : PipeSystem} (hinv : Inv s) {bytes : List UInt8} {inner : PipeInner}
    (hread : s.inner.TakesFront bytes inner) :
    Inv { s with inner, delivered := s.delivered ++ bytes } where
  fifo := by rw [List.append_assoc, hread.front, hinv.fifo]
  readers := hread.readerCount_eq.trans hinv.readers
  writers := hread.writerCount_eq.trans hinv.writers

theorem Inv.write {s : PipeSystem} (hinv : Inv s) {data : List UInt8} {n : ℕ} {inner : PipeInner}
    (hwrite : s.inner.write data = .ok (n, inner)) :
    Inv { s with inner, written := s.written ++ data } := by
  obtain ⟨hdata, hreaders, hwriters⟩ := PipeInner.write_eq_ok hwrite
  exact ⟨by rw [hdata, ← List.append_assoc, hinv.fifo], hreaders.trans hinv.readers,
    hwriters.trans hinv.writers⟩

/-- A live handle is counted, so the assertions of a clone and a drop hold,
and the counts follow the handles. -/
theorem Inv.clone {s : PipeSystem} (hinv : Inv s) {handle : ℕ} {pipeEnd : PipeEnd}
    (hlive : s.handles[handle]? = some pipeEnd) :
    ∃ s', s.step (.clone handle) = some s' ∧ Inv s' := by
  have hpos : 0 < s.handles.count pipeEnd :=
    List.count_pos_iff.mpr (List.mem_of_getElem? hlive)
  cases pipeEnd with
  | reader =>
    rw [step, hlive, PipeInner.addReader_of_pos (hinv.readers ▸ hpos), Option.map_some]
    refine ⟨_, rfl, hinv.fifo, ?_, ?_⟩ <;> simp [hinv.readers, hinv.writers]
  | writer =>
    rw [step, hlive, PipeInner.addWriter_of_pos (hinv.writers ▸ hpos), Option.map_some]
    refine ⟨_, rfl, hinv.fifo, ?_, ?_⟩ <;> simp [hinv.readers, hinv.writers]

theorem Inv.drop {s : PipeSystem} (hinv : Inv s) {handle : ℕ} {pipeEnd : PipeEnd}
    (hlive : s.handles[handle]? = some pipeEnd) :
    ∃ s', s.step (.drop handle) = some s' ∧ Inv s' := by
  have hpos : 0 < s.handles.count pipeEnd :=
    List.count_pos_iff.mpr (List.mem_of_getElem? hlive)
  have hreaders := count_eraseIdx_of_getElem? hlive .reader
  have hwriters := count_eraseIdx_of_getElem? hlive .writer
  cases pipeEnd with
  | reader =>
    rw [step, hlive, PipeInner.closeRead_of_pos (hinv.readers ▸ hpos), Option.map_some]
    refine ⟨_, rfl, hinv.fifo, ?_, ?_⟩
    · simp only [if_pos] at hreaders
      simp only [hinv.readers]
      omega
    · simpa [hinv.writers] using hwriters
  | writer =>
    obtain ⟨inner, hclose, hdata, hreaders', hwriters'⟩ :=
      PipeInner.closeWrite_of_pos (hinv.writers ▸ hpos)
    rw [step, hlive, hclose, Option.map_some]
    refine ⟨_, rfl, hdata ▸ hinv.fifo, ?_, ?_⟩
    · simpa [hreaders', hinv.readers] using hreaders
    · simp only [if_pos] at hwriters
      simp only [hwriters', hinv.writers]
      omega

/-- No event aborts from a state with the invariant, and every event keeps it. -/
theorem step_inv {s : PipeSystem} (hinv : Inv s) (event : PipeEvent) :
    ∃ s', s.step event = some s' ∧ Inv s' := by
  cases event with
  | write handle data =>
    by_cases hwriter : s.handles[handle]? = some .writer
    · cases hwrite : s.inner.write data with
      | ok result => exact ⟨_, by rw [step, if_pos hwriter, hwrite], hinv.write hwrite⟩
      | error e => exact ⟨s, by rw [step, if_pos hwriter, hwrite], hinv⟩
    · exact ⟨s, by rw [step, if_neg hwriter], hinv⟩
  | tryRead handle count =>
    by_cases hreader : s.handles[handle]? = some .reader
    · cases hread : s.inner.tryRead count with
      | ok result =>
        exact ⟨_, by rw [step, if_pos hreader, hread],
          hinv.read (PipeInner.tryRead_eq_ok hread).1⟩
      | error e => exact ⟨s, by rw [step, if_pos hreader, hread], hinv⟩
    · exact ⟨s, by rw [step, if_neg hreader], hinv⟩
  | poll future waker =>
    exact ⟨_, rfl, hinv.read (future.poll_takesFront s.inner waker).1⟩
  | clone handle =>
    cases hlive : s.handles[handle]? with
    | none => exact ⟨s, by rw [step, hlive], hinv⟩
    | some pipeEnd => exact hinv.clone hlive
  | drop handle =>
    cases hlive : s.handles[handle]? with
    | none => exact ⟨s, by rw [step, hlive], hinv⟩
    | some pipeEnd => exact hinv.drop hlive

/-- Every run of a new pipe goes through and ends with the invariant. -/
theorem run_some (events : List PipeEvent) :
    ∃ s, Machine.run step new events = some s ∧ Inv s :=
  Machine.run_total Inv (fun _ event hinv => step_inv hinv event) events inv_new

/-! ### Pipe semantics -/

/-- After any interleaving of writes, non-blocking reads, polls of blocking
reads with any counts, and clones and drops of handles, nothing has panicked,
the bytes returned are a prefix of the bytes written, each count is the number
of live handles of its end, a write fails, always with `EPIPE`, exactly when no
reader handle is left, and a read of a positive count returns nothing only
when no writer handle is left and every written byte has been returned. -/
theorem pipe_semantics (events : List PipeEvent) :
    ∃ s, Machine.run step new events = some s ∧
      s.delivered <+: s.written ∧
      s.inner.readerCount = s.handles.count .reader ∧
      s.inner.writerCount = s.handles.count .writer ∧
      (∀ data, (∃ e, s.inner.write data = .error e) ↔ s.handles.count .reader = 0) ∧
      (∀ data e, s.inner.write data = .error e → e = .epipe) ∧
      (∀ count bytes inner, 0 < count → s.inner.tryRead count = .ok (bytes, inner) →
        bytes = [] → s.handles.count .writer = 0 ∧ s.delivered = s.written) ∧
      (∀ (future : ReadPipe) waker, 0 < future.maxCount →
        (future.poll s.inner waker).2.2 = some [] →
        s.handles.count .writer = 0 ∧ s.delivered = s.written) := by
  obtain ⟨s, hrun, hinv⟩ := run_some events
  -- at end of file the buffer is empty, so the returned bytes are all of them
  have hall : s.inner.data = [] → s.delivered = s.written := fun hempty => by
    rw [← hinv.fifo, hempty, List.append_nil]
  refine ⟨s, hrun, ⟨s.inner.data, hinv.fifo⟩, hinv.readers, hinv.writers,
    fun data => ?_, fun _ _ => PipeInner.write_eq_error, ?_, ?_⟩
  · rw [PipeInner.write_eq_error_iff, hinv.readers]
  · intro count bytes inner hcount hread hnil
    obtain ⟨hempty, hnone⟩ := (PipeInner.tryRead_eq_ok hread).2 hnil hcount
    exact ⟨hinv.writers ▸ hnone, hall hempty⟩
  · intro future waker hcount hready
    obtain ⟨hempty, hnone⟩ := (future.poll_takesFront s.inner waker).2 hready hcount
    exact ⟨hinv.writers ▸ hnone, hall hempty⟩

/-- In every state a run reaches, a read of zero bytes while bytes are
buffered returns nothing and leaves the pipe as it is, through `try_read` and
through `ReadPipe::poll` alike: such an empty result says nothing about the end
of the stream. -/
theorem pipe_zero_count_read_of_buffered (events : List PipeEvent) :
    ∃ s, Machine.run step new events = some s ∧
      (s.inner.data ≠ [] → s.inner.tryRead 0 = .ok ([], s.inner) ∧
        ∀ (future : ReadPipe) waker, future.maxCount = 0 →
          future.poll s.inner waker = (s.inner, future, some [])) := by
  obtain ⟨s, hrun, -⟩ := run_some events
  exact ⟨s, hrun, fun hdata => ⟨PipeInner.tryRead_zero_of_ne_nil hdata,
    fun _ waker hcount => ReadPipe.poll_zero_of_ne_nil waker hcount hdata⟩⟩

/-- A pipe whose reader is duplicated and closed, whose writer writes "ab"
and whose reader then reads one byte. -/
theorem pipe_semantics_dup_write_read :
    ∃ s, Machine.run step new [.clone 0, .drop 0, .write 0 [0x61, 0x62], .tryRead 1 1] = some s ∧
      s.delivered <+: s.written ∧
      s.inner.readerCount = s.handles.count .reader ∧
      s.inner.writerCount = s.handles.count .writer ∧
      (∀ data, (∃ e, s.inner.write data = .error e) ↔ s.handles.count .reader = 0) ∧
      (∀ data e, s.inner.write data = .error e → e = .epipe) ∧
      (∀ count bytes inner, 0 < count → s.inner.tryRead count = .ok (bytes, inner) →
        bytes = [] → s.handles.count .writer = 0 ∧ s.delivered = s.written) ∧
      (∀ (future : ReadPipe) waker, 0 < future.maxCount →
        (future.poll s.inner waker).2.2 = some [] →
        s.handles.count .writer = 0 ∧ s.delivered = s.written) :=
  pipe_semantics [.clone 0, .drop 0, .write 0 [0x61, 0x62], .tryRead 1 1]

/-- A read of zero bytes returns nothing while a byte is buffered and the
writer is open, through `try_read` and through `ReadPipe::poll` alike. -/
theorem pipe_zero_count_read_empty :
    ∃ s, Machine.run step new [.write 1 [0x61]] = some s ∧
      s.inner.tryRead 0 = .ok ([], s.inner) ∧
      ((ReadPipe.mk 0 false).poll s.inner 0).2.2 = some [] ∧
      s.handles.count .writer = 1 ∧ s.delivered ≠ s.written := by
  obtain ⟨s, hrun, hzero⟩ := pipe_zero_count_read_of_buffered [.write 1 [0x61]]
  -- the state the write reaches: one byte buffered, the writer open
  have hstate : (Machine.run step new [.write 1 [0x61]]).map
      (fun s => (s.inner.data, s.handles.count .writer, s.delivered, s.written)) =
      some ([0x61], 1, [], [0x61]) := rfl
  rw [hrun, Option.map_some, Option.some.injEq, Prod.mk.injEq, Prod.mk.injEq,
    Prod.mk.injEq] at hstate
  obtain ⟨hdata, hwriter, hdelivered, hwritten⟩ := hstate
  obtain ⟨hread, hpoll⟩ := hzero (by simp [hdata])
  refine ⟨s, hrun, hread, by rw [hpoll ⟨0, false⟩ 0 rfl], hwriter, ?_⟩
  rw [hdelivered, hwritten]
  decide

end PipeSystem

end Solaya
