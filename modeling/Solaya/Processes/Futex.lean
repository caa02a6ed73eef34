import Solaya.Processes.Thread
import Solaya.Core.Machine
import Mathlib.Data.List.AList

/-!
# Futexes

`FUTEX_WAIT(addr, val)` (`syscalls/id_ops.rs`) awaits a `FutexWait`
(`processes/futex.rs`).  Each poll of it reads the word at `addr` under the
`WAITERS` lock: a word other than `val` makes the poll `Ready(-EAGAIN)`, and
an equal word registers the polling thread's waker under
`(main_tid, addr)` and leaves the poll `Pending`.  `FUTEX_WAKE(addr, n)` takes
the first `min(n, len)` wakers of the key and wakes their threads, which
re-poll their futures when they run.

No poll of `FutexWait` returns `0` (`futexWaitPoll_ne_zero`): a woken waiter
that finds the word unchanged registers again and goes on waiting, and one that
finds it changed returns `EAGAIN`.  The wakers are not removed when a wait
ends without a wake, so `FUTEX_WAKE` also counts wakers of threads that no
longer wait (`futex_wake_does_not_end_wait`).

The model is one process: the futex words of its memory, `WAITERS` with each
waker as the tid of the thread it wakes, and where each thread is in
`FUTEX_WAIT`.
-/

namespace Solaya

/-- Where a thread is in `FUTEX_WAIT`. -/
inductive FutexCall where
  /-- Not in `FUTEX_WAIT`. -/
  | idle
  /-- Its `FutexWait` on `addr` for `expected` is pending and the thread
  waiting. -/
  | blocked (addr : ℕ) (expected : UInt32)
  /-- A waker made the thread runnable; its future is polled again when it
  runs. -/
  | woken (addr : ℕ) (expected : UInt32)
  /-- `FUTEX_WAIT` returned `result` to user space. -/
  | returned (result : Int)
  deriving DecidableEq, Repr

/-- `-(Errno::EAGAIN as i32)`. -/
def eagainResult : Int := -11

/-- `-(Errno::EINTR as isize)`. -/
def eintrResult : Int := -4

/-- The futex state of one process. -/
structure FutexSystem where
  /-- The process's `main_tid`, the first half of its keys. -/
  mainTid : ℕ
  /-- The words of the process's memory. -/
  memory : ℕ → UInt32
  /-- `WAITERS`, each waker as the tid of the thread it wakes. -/
  waiters : AList fun _ : ℕ × ℕ => List ℕ
  calls : ℕ → FutexCall

namespace FutexSystem

/-- `FutexWait::poll` by thread `tid`: `none` is `Pending`. -/
def futexWaitPoll (s : FutexSystem) (tid addr : ℕ) (expected : UInt32) :
    FutexSystem × Option Int :=
  let key := (s.mainTid, addr)
  if s.memory addr ≠ expected then (s, some eagainResult)
  else ({ s with waiters := s.waiters.insert key ((s.waiters.lookup key).getD [] ++ [tid]) }, none)

/-- `ThreadWaker::wake` for thread `tid`: a thread waiting in `FUTEX_WAIT`
becomes runnable; for any other thread `wake_up` changes nothing here. -/
def wakeThread (s : FutexSystem) (tid : ℕ) : FutexSystem :=
  match s.calls tid with
  | .blocked addr expected => { s with calls := Function.update s.calls tid (.woken addr expected) }
  | _ => s

/-- `futex_wake(main_tid, addr, count)`: the number of wakers taken. -/
def futexWake (s : FutexSystem) (addr : ℕ) (count : UInt32) : FutexSystem × ℕ :=
  let key := (s.mainTid, addr)
  match s.waiters.lookup key with
  | none => (s, 0)
  | some wakers =>
    let wakeCount := min count.toNat wakers.length
    let rest := wakers.drop wakeCount
    let waiters := if rest.isEmpty then s.waiters.erase key else s.waiters.insert key rest
    ((wakers.take wakeCount).foldl wakeThread { s with waiters }, wakeCount)

/-- A thread's `FUTEX_WAIT` future polled, first or again: `Ready` returns
to user space. -/
def pollWait (s : FutexSystem) (tid addr : ℕ) (expected : UInt32) : FutexSystem :=
  match s.futexWaitPoll tid addr expected with
  | (s, some result) => { s with calls := Function.update s.calls tid (.returned result) }
  | (s, none) => { s with calls := Function.update s.calls tid (.blocked addr expected) }

end FutexSystem

/-- What the threads of the process do. -/
inductive FutexEvent where
  /-- Thread `tid` calls `FUTEX_WAIT(addr, val)`. -/
  | wait (tid addr : ℕ) (val : UInt32)
  /-- A thread calls `FUTEX_WAKE(addr, count)`. -/
  | wake (addr : ℕ) (count : UInt32)
  /-- A woken thread runs, and `run_syscall_task` polls its future again. -/
  | poll (tid : ℕ)
  /-- User code stores `value` to the word at `addr`. -/
  | store (addr : ℕ) (value : UInt32)
  /-- A caught signal reaches a waiting thread: `send_signal` makes it
  runnable, `run_syscall_task` polls its future once more and, when that is
  still pending, drops it and returns `EINTR`. -/
  | interrupt (tid : ℕ)
  deriving DecidableEq, Repr

/-- One event; a call a thread is not in a state to make does not happen. -/
def FutexSystem.step (s : FutexSystem) : FutexEvent → Option FutexSystem
  | .wait tid addr val =>
    match s.calls tid with
    | .idle | .returned _ => some (s.pollWait tid addr val)
    | _ => some s
  | .wake addr count => some (s.futexWake addr count).1
  | .poll tid =>
    match s.calls tid with
    | .woken addr expected => some (s.pollWait tid addr expected)
    | _ => some s
  | .store addr value => some { s with memory := Function.update s.memory addr value }
  | .interrupt tid =>
    match s.calls tid with
    | .blocked addr expected =>
      match s.futexWaitPoll tid addr expected with
      | (s, some result) => some { s with calls := Function.update s.calls tid (.returned result) }
      | (s, none) => some { s with calls := Function.update s.calls tid (.returned eintrResult) }
    | _ => some s

/-- A fresh process with main tid `mainTid`: zeroed words, no waiters, no
thread in `FUTEX_WAIT`. -/
def FutexSystem.init (mainTid : ℕ) : FutexSystem :=
  ⟨mainTid, fun _ => 0, ∅, fun _ => .idle⟩

namespace FutexSystem

/-- No thread has returned `0` from `FUTEX_WAIT`. -/
def NoZeroReturn (s : FutexSystem) : Prop :=
  ∀ tid, s.calls tid ≠ .returned 0

/-- A poll of `FutexWait` never returns `0`: it is `Pending` or `-EAGAIN`,
and it changes only `WAITERS`. -/
theorem futexWaitPoll_ne_zero (s : FutexSystem) (tid addr : ℕ) (expected : UInt32) :
    (s.futexWaitPoll tid addr expected).2 ≠ some 0 ∧
      (s.futexWaitPoll tid addr expected).1.calls = s.calls := by
  unfold futexWaitPoll
  split <;> simp [eagainResult]

theorem NoZeroReturn.update {s : FutexSystem} (h : s.NoZeroReturn) {tid : ℕ} {call : FutexCall}
    (hcall : call ≠ .returned 0) : { s with calls := Function.update s.calls tid call }.NoZeroReturn := by
  intro tid'
  by_cases htid : tid' = tid
  · subst htid
    simpa using hcall
  · simpa [htid] using h tid'

theorem NoZeroReturn.wakeThread {s : FutexSystem} (h : s.NoZeroReturn) (tid : ℕ) :
    (s.wakeThread tid).NoZeroReturn := by
  unfold FutexSystem.wakeThread
  split
  · exact h.update (by simp)
  · exact h

/-- The loop of `futex_wake` wakes threads and returns nothing for them. -/
theorem NoZeroReturn.foldl_wakeThread (tids : List ℕ) {s : FutexSystem} (h : s.NoZeroReturn) :
    (tids.foldl FutexSystem.wakeThread s).NoZeroReturn := by
  induction tids generalizing s with
  | nil => exact h
  | cons tid tids ih => exact ih (h.wakeThread tid)

theorem NoZeroReturn.futexWake {s : FutexSystem} (h : s.NoZeroReturn) (addr : ℕ) (count : UInt32) :
    (s.futexWake addr count).1.NoZeroReturn := by
  simp only [FutexSystem.futexWake]
  cases s.waiters.lookup (s.mainTid, addr) with
  | none => exact h
  | some wakers => exact NoZeroReturn.foldl_wakeThread _ h

theorem NoZeroReturn.pollWait {s : FutexSystem} (h : s.NoZeroReturn) (tid addr : ℕ)
    (expected : UInt32) : (s.pollWait tid addr expected).NoZeroReturn := by
  obtain ⟨hresult, hcalls⟩ := s.futexWaitPoll_ne_zero tid addr expected
  have h' : (s.futexWaitPoll tid addr expected).1.NoZeroReturn := by
    intro tid'
    rw [hcalls]
    exact h tid'
  unfold FutexSystem.pollWait
  split
  · rename_i s' result heq
    rw [heq] at hresult h'
    exact h'.update (by simpa using hresult)
  · rename_i s' heq
    rw [heq] at h'
    exact h'.update (by simp)

/-- Every event keeps `NoZeroReturn`. -/
theorem NoZeroReturn.step {s s' : FutexSystem} (h : s.NoZeroReturn) {e : FutexEvent}
    (hstep : s.step e = some s') : s'.NoZeroReturn := by
  cases e with
  | wait tid addr val =>
    simp only [FutexSystem.step] at hstep
    split at hstep <;> cases hstep
    · exact h.pollWait tid addr val
    · exact h.pollWait tid addr val
    · exact h
  | wake addr count =>
    cases hstep
    exact h.futexWake addr count
  | poll tid =>
    simp only [FutexSystem.step] at hstep
    split at hstep <;> cases hstep
    · exact h.pollWait _ _ _
    · exact h
  | store addr value =>
    cases hstep
    exact h
  | interrupt tid =>
    simp only [FutexSystem.step] at hstep
    split at hstep
    · rename_i addr expected _
      obtain ⟨hresult, hcalls⟩ := s.futexWaitPoll_ne_zero tid addr expected
      have h' : (s.futexWaitPoll tid addr expected).1.NoZeroReturn := by
        intro tid'
        rw [hcalls]
        exact h tid'
      split at hstep <;> cases hstep
      · rename_i s'' result heq
        rw [heq] at hresult h'
        exact h'.update (by simpa using hresult)
      · rename_i s'' heq
        rw [heq] at h'
        exact h'.update (by simp [eintrResult])
    · cases hstep
      exact h

/-- `FUTEX_WAIT` never returns `0`: in every run from a state where no thread
has, no thread does. -/
theorem noZeroReturn_run {s s' : FutexSystem} {events : List FutexEvent} (h : s.NoZeroReturn)
    (hrun : Machine.run step s events = some s') : s'.NoZeroReturn :=
  Machine.run_induction NoZeroReturn (fun _ => True) (fun _ _ _ hs _ hstep => hs.step hstep) h
    (fun _ _ => trivial) hrun

/-- Thread 3 waits on the word at `0x1000`, which holds `0`, and
`FUTEX_WAKE(0x1000, 1)` reports one thread woken.  When thread 3 runs, its
`FUTEX_WAIT` does not return `0`: it waits again if the word is unchanged, and
returns `EAGAIN` if it was changed before the wake.  A wait ended by a
caught signal leaves its waker behind, and a later `FUTEX_WAKE` counts it
although no thread waits. -/
theorem futex_wake_does_not_end_wait :
    (Machine.run step (init 2) [.wait 3 0x1000 0]).map (fun s => (s.futexWake 0x1000 1).2) = some 1 ∧
    (Machine.run step (init 2) [.wait 3 0x1000 0, .wake 0x1000 1, .poll 3]).map (·.calls 3) =
      some (.blocked 0x1000 0) ∧
    (Machine.run step (init 2) [.wait 3 0x1000 0, .store 0x1000 1, .wake 0x1000 1, .poll 3]).map
      (·.calls 3) = some (.returned eagainResult) ∧
    (Machine.run step (init 2) [.wait 3 0x1000 0, .interrupt 3]).map
      (fun s => (s.calls 3, (s.futexWake 0x1000 1).2)) = some (.returned eintrResult, 1) := by
  decide

end FutexSystem

end Solaya
