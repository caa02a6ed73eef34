import Solaya.Processes.ProcessTable
import Solaya.Headers

/-!
# `wait4`

`do_wait4` (`syscalls/process_ops.rs`) turns `pid` into a `WaitPid` target and
awaits a `WaitChild` future (`processes/wait_child.rs`).  Each poll of the
future, under the process-table lock, reaps a zombie child, or with
`WUNTRACED` reports a stopped one, and otherwise answers `ECHILD` when nothing
is listed under the waiter, `(0, 0)` under `WNOHANG`, or stays pending until a
child changes state.

The waiter is the calling thread's own tid (`current_thread.get_tid()`), while
`add_thread` lists a forked process's main thread, and every thread made by
`clone_thread`, under the main tid of the parent process.  So a second thread
of a process sees no children at all, and the main thread sees the other
threads of its own process as children it can reap
(`wait4_by_thread_misses_fork_child`).
-/

namespace Solaya

/-- `WaitChild`: the future `do_wait4` awaits. -/
structure WaitChild where
  parentMainTid : ℕ
  target : WaitPid
  wnohang : Bool
  wuntraced : Bool
  deriving DecidableEq, Repr

namespace WaitChild

/-- `WaitChild::poll`: `some` outcome when the future is ready, `none` when it
is pending (the waker it then leaves in `wait_wakers` is not modelled).  The
outer `none` is a panic of `take_zombie` or `take_stopped`. -/
def poll (w : WaitChild) (pt : ProcessTable) :
    Option (ProcessTable × Option (Except Errno (ℕ × Int))) :=
  match pt.takeZombie w.parentMainTid w.target with
  | none => none
  | some (pt, some reaped) => some (pt, some (.ok reaped))
  | some (pt, none) =>
    match (if w.wuntraced then pt.takeStopped w.parentMainTid w.target else some (pt, none)) with
    | none => none
    | some (pt, some reported) => some (pt, some (.ok reported))
    | some (pt, none) =>
      if !pt.hasAnyChildOf w.parentMainTid then some (pt, some (.error .echild))
      else if w.wnohang then some (pt, some (.ok (0, 0)))
      else some (pt, none)

/-- A ready `Ok` outcome of a poll is a zombie listed under the waiter, now
gone from the table so that it is reaped once; with `WUNTRACED`, a stopped
thread listed under the waiter, now marked reported so that its stop is
reported once; or `(0, 0)` under `WNOHANG`. -/
theorem poll_eq_ok {w : WaitChild} {pt pt' : ProcessTable} {tid : ℕ} {wstatus : Int}
    (h : w.poll pt = some (pt', some (.ok (tid, wstatus)))) :
    (∃ children, pt.children.lookup w.parentMainTid = some children ∧ tid ∈ children ∧
      ((∃ thread status, pt.threads tid = some thread ∧ thread.state = .zombie status ∧
          pt'.threads tid = none) ∨
        (w.wuntraced = true ∧ ∃ thread, pt.threads tid = some thread ∧
          thread.state = .stopped ∧ thread.stoppedNotified = false ∧
          pt'.threads tid = some { thread with stoppedNotified := true }))) ∨
    (w.wnohang = true ∧ tid = 0 ∧ wstatus = 0) := by
  unfold poll at h
  split at h
  · cases h
  · -- `take_zombie` reaped
    rename_i reaped hzombie
    simp only [Option.some.injEq, Prod.mk.injEq, Except.ok.injEq] at h
    obtain ⟨rfl, rfl⟩ := h
    obtain ⟨children, hchildren, hmem, thread, status, hthread, hstate, -, rfl⟩ :=
      ProcessTable.takeZombie_eq_reaped hzombie
    exact .inl ⟨children, hchildren, hmem, .inl ⟨thread, status, hthread, hstate,
      Function.update_self ..⟩⟩
  · rename_i ptz hzombie
    have hsame := ProcessTable.takeZombie_eq_none hzombie
    subst hsame
    split at h
    · cases h
    · -- `take_stopped` reported
      rename_i reported hstopped
      simp only [Option.some.injEq, Prod.mk.injEq, Except.ok.injEq] at h
      obtain ⟨rfl, rfl⟩ := h
      split_ifs at hstopped with huntraced
      · obtain ⟨children, hchildren, hmem, hreported⟩ :=
          ProcessTable.takeStopped_eq_reported hstopped
        exact .inl ⟨children, hchildren, hmem, .inr ⟨huntraced, hreported⟩⟩
      · cases hstopped
    · split_ifs at h with hnone hnohang
      · cases h
      · simp only [Option.some.injEq, Prod.mk.injEq, Except.ok.injEq] at h
        exact .inr ⟨hnohang, h.2.1.symm, h.2.2.symm⟩
      · cases h

end WaitChild

namespace LinuxSyscallHandler

/-- `do_wait4` by the thread `current` up to its `await`: the future it waits
on, or `EINVAL` for `pid = i32::MIN`; `none` where the `assert!` on unknown
options fails.  Writing the status to user memory is not modelled. -/
def doWait4 (pt : ProcessTable) (current : Thread) (pid options : Int32) :
    Option (Except Errno WaitChild) :=
  let wnohang := options &&& Solaya.wnohang.toInt32 != 0
  let wuntraced := options &&& Solaya.wuntraced.toInt32 != 0
  let knownFlags := (Solaya.wnohang ||| Solaya.wuntraced).toInt32
  if options &&& ~~~knownFlags ≠ 0 then none
  else
    let parentMainTid := current.tid
    let target : Except Errno WaitPid :=
      if pid > 0 then .ok (.specific pid.toInt.toNat)
      else if pid = -1 then .ok .any
      else if pid = 0 then .ok (.pgid (pt.processes current.process).pgid)
      -- `checked_neg` fails for `i32::MIN` alone
      else if pid = Int32.minValue then .error .einval
      else .ok (.pgid (-pid).toInt.toNat)
    some (target.map fun target => ⟨parentMainTid, target, wnohang, wuntraced⟩)

end LinuxSyscallHandler

namespace WaitChild

/-- init (tid 1) forks process 2 and makes a second thread, 3.  Thread 3's
`wait4(-1, WNOHANG)` searches the children listed under tid 3, finds none and
answers `ECHILD`, though process 2 is a live child of its process.  After
thread 3 exits, the main thread's `wait4(-1, 0)` reaps thread 3, a thread of
its own process, with status `0`. -/
theorem wait4_by_thread_misses_fork_child :
    ∃ pt pt',
      Machine.run ProcessTable.step ProcessTable.boot [.cloneFork 1, .cloneThread 1] = some pt ∧
      (∃ c, pt.threads 2 = some c ∧ c.parentTid = 1 ∧ c.process = 2 ∧ c.state = .runnable) ∧
      (∃ t, pt.threads 3 = some t ∧ t.process = 1 ∧
        LinuxSyscallHandler.doWait4 pt t (-1) 1 = some (.ok ⟨3, .any, true, false⟩)) ∧
      (∃ pt'', (WaitChild.mk 3 .any true false).poll pt = some (pt'', some (.error .echild))) ∧
      Machine.run ProcessTable.step pt [.exit 3 (.exited 0)] = some pt' ∧
      (∃ t, pt'.threads 1 = some t ∧
        LinuxSyscallHandler.doWait4 pt' t (-1) 0 = some (.ok ⟨1, .any, false, false⟩)) ∧
      ∃ pt'', (WaitChild.mk 1 .any false false).poll pt' = some (pt'', some (.ok (3, 0))) :=
  ⟨_, _, rfl, ⟨_, rfl, rfl, rfl, rfl⟩, ⟨_, rfl, rfl, rfl⟩, ⟨_, rfl⟩, rfl, ⟨_, rfl, rfl⟩, ⟨_, rfl⟩⟩

end WaitChild

end Solaya
