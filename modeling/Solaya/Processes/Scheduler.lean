import Solaya.Processes.ProcessTable

/-!
# CPUs, the run queue and the return to user space

Each CPU's `CpuScheduler` (`processes/scheduler.rs`) has a current thread; the
threads that may run wait in `RUN_QUEUE`.  A thread's state says who owns it:
`Running { cpu_id }` while a CPU executes it, `Runnable` while it waits to be
picked, `Waiting` while a syscall of it is suspended, `Stopped` and `Zombie`.
The kernel moves a thread between these states in short sections under the
thread's lock, on the CPU that runs it (`prepare_next_process`,
`handle_syscall`, `run_syscall_task`) and on any other CPU (`send_signal`,
`ThreadWaker::wake`, `stop_current_process`, `kill`).

The model is the process table and, for each CPU, its current thread, its
trap frame and `sepc`, and where the CPU is in that code (`CpuPhase`).  Every
event is one lock section, so events of different CPUs interleave as the
sections do; an event a CPU cannot take in its phase does not happen.

`stop_current_process` stops every thread of the process, also one that
another CPU is running in a syscall.  That CPU does not know: when the syscall
suspends, `set_syscall_task_and_suspend` turns the stopped thread into a
waiting one, and a later wake-up runs it while its process is stopped
(`stopped_thread_suspended_then_runs`).  When the syscall completes instead,
a `SIGCONT` in between lets another CPU pick the thread up with the registers
it had when it was last descheduled, and the first CPU's ownership check
panics (`sigcont_during_syscall_resumes_stale_registers`).
-/

namespace Solaya

/-- Where a CPU is in the kernel's code for its current thread. -/
inductive CpuPhase where
  /-- Running its current thread's user code, or the powersave loop. -/
  | user
  /-- In `handle_syscall`, polling the future of the current thread's `ecall`
  for the first time. -/
  | syscall
  /-- In `handle_syscall` past its ownership check. -/
  | syscallReturn
  /-- About to call `set_cpu_reg_for_current_thread`. -/
  | loadRegisters
  /-- At the top of `prepare_next_process`'s loop. -/
  | schedule
  /-- In `prepare_next_process`, about to pop `RUN_QUEUE`. -/
  | pick
  /-- In `prepare_next_process`, about to lock the chosen thread. -/
  | prepare
  /-- In `run_syscall_task` for the resumed future `task`. -/
  | runTask (task : ℕ)
  /-- In `run_syscall_task`, about to call `set_syscall_task_and_suspend`. -/
  | suspendTask (task : ℕ)
  deriving DecidableEq, Repr

/-- A CPU: its scheduler's `current_thread` (`none` for its powersave
thread), its phase, and its trap frame and `sepc`. -/
structure CpuState where
  current : Option ℕ
  phase : CpuPhase
  trapFrame : Fin 32 → UInt64
  sepc : UInt64

/-- The process table, with `RUN_QUEUE`, and the CPUs. -/
structure SchedSystem where
  table : ProcessTable
  cpus : ℕ → CpuState

/-- `BlockedAction`. -/
inductive BlockedAction where
  | none
  | terminate (status : ExitStatus)
  | stop (sig : UInt32)
  | interrupt
  deriving DecidableEq, Repr

/-- The loop of `run_syscall_task` that looks at the signals pending for a
thread whose syscall is still pending, for at most `fuel` turns; each turn
that goes on takes a pending signal. -/
def blockedActionFuel : ℕ → Thread → Option (BlockedAction × Thread)
  | 0, _ => none
  | fuel + 1, t =>
    match t.signalState.pending.firstUnblocked t.signalState.sigmask with
    | none => some (.none, t)
    | some sig =>
      let action := t.signalState.sigaction sig
      match action.saHandler with
      | none =>
        match defaultAction sig with
        | .terminate => do
          let (t, _) ← t.takeNextPendingSignal
          let sigU8 ← signalU8 sig
          pure (.terminate (.signaled sigU8), t)
        | .stop => do
          let (t, _) ← t.takeNextPendingSignal
          pure (.stop sig, t)
        | _ => do
          let (t, _) ← t.takeNextPendingSignal
          blockedActionFuel fuel t
      | some f =>
        if f = 1 then do
          let (t, _) ← t.takeNextPendingSignal
          blockedActionFuel fuel t
        else some (.interrupt, t)

/-- `EINTR` as `run_syscall_task` writes it to `a0`: `-(Errno::EINTR as isize)`. -/
def eintrReturn : UInt64 := 0 - 4

/-- The loop of `stop_current_process` over the threads of the process. -/
def ProcessTable.stopThreads (pt : ProcessTable) (tids : List ℕ) (stopSig : UInt32) :
    ProcessTable :=
  tids.foldl (fun pt tid =>
    match pt.threads tid with
    | some t =>
      if t.state.isZombie then pt
      else
        let t := { t with state := .stopped, stoppedNotified := false, stopSignal := stopSig }
        { pt with threads := Function.update pt.threads tid (some t) }
    | none => pt) pt

namespace SchedSystem

def setCpu (s : SchedSystem) (cpu : ℕ) (c : CpuState) : SchedSystem :=
  { s with cpus := Function.update s.cpus cpu c }

def setPhase (s : SchedSystem) (cpu : ℕ) (phase : CpuPhase) : SchedSystem :=
  s.setCpu cpu { s.cpus cpu with phase }

def setThread (s : SchedSystem) (tid : ℕ) (t : Thread) : SchedSystem :=
  { s with table := { s.table with threads := Function.update s.table.threads tid (some t) } }

def pushRunQueue (s : SchedSystem) (tid : ℕ) : SchedSystem :=
  { s with table := { s.table with runQueue := s.table.runQueue ++ [tid] } }

/-- The state of thread `tid`, while it is in the table. -/
def stateOf (s : SchedSystem) (tid : ℕ) : Option ThreadState :=
  (s.table.threads tid).map (·.state)

/-- `cpu`'s current thread, while it is in the table. -/
def currentThread (s : SchedSystem) (cpu : ℕ) : Option (ℕ × Thread) :=
  (s.cpus cpu).current.bind fun tid => (s.table.threads tid).map fun t => (tid, t)

/-- `CpuScheduler::stop_current_process`: every live thread of the current
thread's process is stopped, and its parent gets `SIGCHLD`. -/
def stopCurrentProcess (s : SchedSystem) (cpu : ℕ) (stopSig : UInt32) : Option SchedSystem :=
  match s.currentThread cpu with
  | none => some s
  | some (_, t) =>
    let table := s.table.stopThreads (s.table.processes t.process).threads stopSig
    (table.sendSignal t.parentTid SIGCHLD).map fun table => { s with table }

/-- `CpuScheduler::kill_current_process`, then `schedule`. -/
def killCurrentProcess (s : SchedSystem) (cpu tid : ℕ) (status : ExitStatus) :
    Option SchedSystem :=
  (s.table.killProcessOf tid status).map fun table => ({ s with table }.setPhase cpu .schedule)

/-- What follows `deliver_signal` on the way back to user space: a
terminating signal kills the process, a stop signal stops it, and otherwise
the registers are loaded next. -/
def afterDelivery (s : SchedSystem) (cpu tid : ℕ) : SignalDeliveryResult → Option SchedSystem
  | .terminate status => s.killCurrentProcess cpu tid status
  | .stop sig => (s.stopCurrentProcess cpu sig).map (·.setPhase cpu .schedule)
  | .continue => some (s.setPhase cpu .loadRegisters)

/-- `queue_current_process_back`: the current thread gives way to the
powersave thread, and goes back to `RUN_QUEUE` with the CPU's registers when it
was still running here. -/
def queueCurrentProcessBack (s : SchedSystem) (cpu : ℕ) : SchedSystem :=
  let c := s.cpus cpu
  match c.current with
  | none => s
  | some tid =>
    let s := s.setCpu cpu { c with current := none }
    match s.table.threads tid with
    | some t =>
      if t.state = .running cpu then
        (s.setThread tid { t with state := .runnable, programCounter := c.sepc,
                                   registers := c.trapFrame }).pushRunQueue tid
      else s
    | none => s

/-- The section of `prepare_next_process` that pops `RUN_QUEUE`: a runnable
thread becomes this CPU's, a stale entry is dropped, and an empty queue leaves
the powersave thread.  `none` where its `assert!` fails. -/
def pickNext (s : SchedSystem) (cpu : ℕ) : Option SchedSystem :=
  if (s.cpus cpu).current.isSome then none
  else
    match s.table.runQueue with
    | [] => some (s.setPhase cpu .prepare)
    | tid :: rest =>
      let s := { s with table := { s.table with runQueue := rest } }
      match s.table.threads tid with
      | some t =>
        if t.state = .runnable then
          some ((s.setThread tid { t with state := .running cpu }).setCpu cpu
            { s.cpus cpu with current := some tid, phase := .prepare })
        else some s
      | none => some s

/-- The section of `prepare_next_process` on the chosen thread: a stored
syscall future is resumed; a dead or stopped thread is passed over; otherwise
signals are delivered and the thread's registers loaded, after its
`assert!` that the thread is still this CPU's. -/
def prepare (writable : UInt64 → Bool) (s : SchedSystem) (cpu : ℕ) : Option SchedSystem :=
  let c := s.cpus cpu
  match c.current with
  | none => some (s.setPhase cpu .user)
  | some tid =>
    match s.table.threads tid with
    | none => some (s.setPhase cpu .schedule)
    | some t =>
      match t.syscallTask with
      | some task => some ((s.setThread tid { t with syscallTask := none }).setPhase cpu (.runTask task))
      | none =>
        if t.state.isZombie ∨ t.state = .stopped then some (s.setPhase cpu .schedule)
        else
          (deliverSignal writable t).bind fun (result, t) =>
            let s := s.setThread tid t
            match result with
            | .continue =>
              if t.state = .running cpu then
                some (s.setCpu cpu { c with phase := .user, trapFrame := t.registers,
                                            sepc := t.programCounter })
              else none
            | result => s.afterDelivery cpu tid result

/-- `set_cpu_reg_for_current_thread`: a thread killed or stopped meanwhile
sends the CPU back to `schedule`; otherwise, after its `assert!`, the thread's
registers are loaded into the CPU. -/
def setCpuReg (s : SchedSystem) (cpu : ℕ) : Option SchedSystem :=
  let c := s.cpus cpu
  match s.currentThread cpu with
  | none => some (s.setPhase cpu .schedule)
  | some (_, t) =>
    if t.state.isZombie ∨ t.state = .stopped then some (s.setPhase cpu .schedule)
    else if t.state = .running cpu then
      some (s.setCpu cpu { c with phase := .user, trapFrame := t.registers, sepc := t.programCounter })
    else none

/-- The `Pending` branch of `handle_syscall`: the registers of the `ecall`
are saved and the future stored by `set_syscall_task_and_suspend`. -/
def syscallPending (s : SchedSystem) (cpu task : ℕ) : Option SchedSystem :=
  let c := s.cpus cpu
  match s.currentThread cpu with
  | none => some (s.setPhase cpu .schedule)
  | some (tid, t) =>
    ({ t with registers := c.trapFrame, programCounter := c.sepc }.setSyscallTaskAndSuspend task).map
      fun t => (s.setThread tid t).setPhase cpu .schedule

/-- The `Ready` branch of `handle_syscall` up to its ownership check: the
result goes to `a0`; a thread still running here goes on, one that another CPU
runs is the `panic!` of the check, and one that was suspended, stopped or
killed meanwhile is saved past its `ecall` and the CPU reschedules. -/
def syscallReady (s : SchedSystem) (cpu : ℕ) (result : UInt64) : Option SchedSystem :=
  let c := s.cpus cpu
  match s.currentThread cpu with
  | none => some (s.setPhase cpu .schedule)
  | some (tid, t) =>
    -- `execve` replaced the registers: they are loaded as they are
    if t.registersReplaced then
      some ((s.setThread tid { t with registersReplaced := false }).setPhase cpu .loadRegisters)
    else
      let trapFrame := Function.update c.trapFrame Register.a0 result
      match t.state with
      | .running owner =>
        if owner = cpu then some (s.setCpu cpu { c with trapFrame, phase := .syscallReturn })
        else none
      | .zombie _ => some (s.setCpu cpu { c with trapFrame, phase := .schedule })
      | _ =>
        (checkedAdd64 c.sepc 4).map fun pc =>
          (s.setThread tid { t with registers := trapFrame, programCounter := pc }).setCpu cpu
            { c with trapFrame, phase := .schedule }

/-- The section of `handle_syscall` after the ownership check: the registers
are saved past the `ecall` and signals delivered. -/
def syscallReturn (writable : UInt64 → Bool) (s : SchedSystem) (cpu : ℕ) : Option SchedSystem :=
  let c := s.cpus cpu
  match s.currentThread cpu with
  | none => some (s.setPhase cpu .schedule)
  | some (tid, t) =>
    (checkedAdd64 c.sepc 4).bind fun pc =>
      (deliverSignal writable { t with registers := c.trapFrame, programCounter := pc }).bind
        fun (result, t) => (s.setThread tid t).afterDelivery cpu tid result

/-- `run_syscall_task` for a resumed future whose poll returns `poll`: a
result is written past the thread's `ecall`; a pending future is stored again,
unless a pending signal ends the process, stops it, or interrupts the syscall
with `EINTR`. -/
def runSyscallTask (writable : UInt64 → Bool) (s : SchedSystem) (cpu task : ℕ)
    (poll : Option UInt64) : Option SchedSystem :=
  match s.currentThread cpu with
  | none => some (s.setPhase cpu .schedule)
  | some (tid, t) =>
    match poll with
    | some result =>
      if t.registersReplaced then
        some ((s.setThread tid { t with registersReplaced := false, wakeupPending := false }).setPhase
          cpu .loadRegisters)
      else
        (checkedAdd64 t.programCounter 4).bind fun pc =>
          let t := { t with wakeupPending := false, programCounter := pc,
                            registers := Function.update t.registers Register.a0 result }
          (deliverSignal writable t).bind fun (result, t) =>
            (s.setThread tid t).afterDelivery cpu tid result
    | none =>
      (blockedActionFuel 64 t).bind fun (action, t) =>
        let s := s.setThread tid t
        match action with
        | .none => some (s.setPhase cpu (.suspendTask task))
        | .terminate status => s.killCurrentProcess cpu tid status
        | .stop sig =>
          ((s.setThread tid { t with syscallTask := some task }).stopCurrentProcess cpu sig).map
            (·.setPhase cpu .schedule)
        | .interrupt =>
          (checkedAdd64 t.programCounter 4).bind fun pc =>
            let t := { t with programCounter := pc,
                              registers := Function.update t.registers Register.a0 eintrReturn }
            (deliverSignal writable t).bind fun (result, t) =>
              (s.setThread tid t).afterDelivery cpu tid result

/-- `set_syscall_task_and_suspend` at the end of `run_syscall_task`. -/
def suspendTask (s : SchedSystem) (cpu task : ℕ) : Option SchedSystem :=
  match s.currentThread cpu with
  | none => some (s.setPhase cpu .schedule)
  | some (tid, t) => (t.setSyscallTaskAndSuspend task).map fun t => (s.setThread tid t).setPhase cpu .schedule

/-- `ThreadWaker::wake`: a waiting thread becomes runnable and is queued. -/
def wake (s : SchedSystem) (tid : ℕ) : SchedSystem :=
  match s.table.threads tid with
  | some t =>
    let (t, woke) := t.wakeUp
    let s := s.setThread tid t
    if woke then s.pushRunQueue tid else s
  | none => s

end SchedSystem

/-- What happens on the CPUs. -/
inductive SchedEvent where
  /-- The current thread's user code runs, leaving `regs` and `pc` in the CPU. -/
  | userRun (cpu : ℕ) (regs : Fin 32 → UInt64) (pc : UInt64)
  /-- The current thread's `ecall` traps into `handle_syscall`. -/
  | ecall (cpu : ℕ)
  /-- The first poll of the syscall's future returns `Pending`; the future is
  `task`. -/
  | syscallPending (cpu task : ℕ)
  /-- The first poll returns `Ready(result)`. -/
  | syscallReady (cpu : ℕ) (result : UInt64)
  /-- `handle_syscall` saves the result and delivers signals. -/
  | syscallReturn (cpu : ℕ)
  /-- `set_cpu_reg_for_current_thread`. -/
  | setCpuReg (cpu : ℕ)
  /-- A timer interrupt during user code calls `schedule`. -/
  | timer (cpu : ℕ)
  /-- `queue_current_process_back`. -/
  | queueBack (cpu : ℕ)
  /-- `prepare_next_process` pops `RUN_QUEUE`. -/
  | pickNext (cpu : ℕ)
  /-- `prepare_next_process` locks the chosen thread. -/
  | prepare (cpu : ℕ)
  /-- `run_syscall_task` polls the resumed future: `Ready(result)` or
  `Pending`. -/
  | runSyscallTask (cpu : ℕ) (poll : Option UInt64)
  /-- `run_syscall_task` stores the still-pending future. -/
  | suspendTask (cpu : ℕ)
  /-- A waker of thread `tid` fires. -/
  | wake (tid : ℕ)
  /-- Some CPU sends `sig` to thread `tid`. -/
  | sendSignal (tid : ℕ) (sig : UInt32)
  /-- Some CPU kills thread `tid` (`exit`, `exit_group`, a fatal signal). -/
  | kill (tid : ℕ) (status : ExitStatus)

/-- One event, with `writable` saying where signal frames can be written;
`none` where the kernel panics. -/
def SchedSystem.step (writable : UInt64 → Bool) (s : SchedSystem) : SchedEvent → Option SchedSystem
  | .userRun cpu regs pc =>
    let c := s.cpus cpu
    if c.phase = .user ∧ c.current.isSome then some (s.setCpu cpu { c with trapFrame := regs, sepc := pc })
    else some s
  | .ecall cpu =>
    let c := s.cpus cpu
    if c.phase = .user ∧ c.current.isSome then some (s.setPhase cpu .syscall) else some s
  | .syscallPending cpu task => if (s.cpus cpu).phase = .syscall then s.syscallPending cpu task else some s
  | .syscallReady cpu result => if (s.cpus cpu).phase = .syscall then s.syscallReady cpu result else some s
  | .syscallReturn cpu =>
    if (s.cpus cpu).phase = .syscallReturn then s.syscallReturn writable cpu else some s
  | .setCpuReg cpu => if (s.cpus cpu).phase = .loadRegisters then s.setCpuReg cpu else some s
  | .timer cpu => if (s.cpus cpu).phase = .user then some (s.setPhase cpu .schedule) else some s
  | .queueBack cpu =>
    if (s.cpus cpu).phase = .schedule then some ((s.queueCurrentProcessBack cpu).setPhase cpu .pick)
    else some s
  | .pickNext cpu => if (s.cpus cpu).phase = .pick then s.pickNext cpu else some s
  | .prepare cpu => if (s.cpus cpu).phase = .prepare then s.prepare writable cpu else some s
  | .runSyscallTask cpu poll =>
    match (s.cpus cpu).phase with
    | .runTask task => s.runSyscallTask writable cpu task poll
    | _ => some s
  | .suspendTask cpu =>
    match (s.cpus cpu).phase with
    | .suspendTask task => s.suspendTask cpu task
    | _ => some s
  | .wake tid => some (s.wake tid)
  | .sendSignal tid sig => (s.table.sendSignal tid sig).map fun table => { s with table }
  | .kill tid status => (s.table.kill tid status).map fun table => { s with table }

namespace SchedSystem

/-- The process table with every thread in `RUN_QUEUE`, and idle CPUs at the
top of `prepare_next_process`. -/
def init (table : ProcessTable) : SchedSystem where
  table := table
  cpus := fun _ => ⟨none, .schedule, fun _ => 0, 0⟩


/-- Three CPUs take init and the two threads of process 2, whose thread 3
runs its user code on CPU 1 up to an `ecall` at `0x10000` with `sp = 0x7000`;
thread 2 is sent `SIGSTOP` and, when CPU 0 next prepares it, stops its
process. -/
def stopDuringSyscall : List SchedEvent :=
  [.queueBack 2, .pickNext 2, .prepare 2, .queueBack 0, .pickNext 0, .prepare 0,
    .queueBack 1, .pickNext 1, .prepare 1,
    .userRun 1 (Function.update (fun _ => 0) Register.sp 0x7000) 0x10000, .ecall 1,
    .sendSignal 2 SIGSTOP, .timer 0, .queueBack 0, .pickNext 0, .prepare 0]

/-- Thread 3 is stopped by CPU 0 while CPU 1 runs its syscall.  The syscall
suspends, and `set_syscall_task_and_suspend` makes the stopped thread
waiting; when its waker fires, CPU 1 runs it again while thread 2 of the same
process stays stopped. -/
theorem stopped_thread_suspended_then_runs :
    ∃ pt, Machine.run ProcessTable.step ProcessTable.boot [.cloneFork 1, .cloneThread 2] = some pt ∧
      (Machine.run (step fun _ => true) (init pt) stopDuringSyscall).map (·.stateOf 3) =
        some (some .stopped) ∧
      (Machine.run (step fun _ => true) (init pt) (stopDuringSyscall ++ [.syscallPending 1 7])).map
        (·.stateOf 3) = some (some .waiting) ∧
      (Machine.run (step fun _ => true) (init pt)
          (stopDuringSyscall ++ [.syscallPending 1 7, .wake 3, .queueBack 1, .pickNext 1])).map
        (fun s => (s.stateOf 2, s.stateOf 3)) = some (some .stopped, some (.running 1)) :=
  ⟨_, rfl, by decide +kernel, by decide +kernel, by decide +kernel⟩

/-- Thread 3 is stopped by CPU 0 while CPU 1 runs a syscall that completes
synchronously.  `SIGCONT` makes it runnable, and CPU 0 resumes it at the
program counter and with the registers saved when it was made, not past its
`ecall` at `0x10000` with `sp = 0x7000`; when the syscall then completes on
CPU 1, the ownership check panics. -/
theorem sigcont_during_syscall_resumes_stale_registers :
    ∃ pt, Machine.run ProcessTable.step ProcessTable.boot [.cloneFork 1, .cloneThread 2] = some pt ∧
      (Machine.run (step fun _ => true) (init pt)
          (stopDuringSyscall ++ [.sendSignal 3 SIGCONT, .queueBack 0, .pickNext 0, .prepare 0])).map
        (fun s => ((s.cpus 0).current, (s.cpus 0).phase, (s.cpus 0).sepc, (s.cpus 0).trapFrame Register.sp)) =
        some (some 3, .user, 8, 0) ∧
      Machine.run (step fun _ => true) (init pt)
        (stopDuringSyscall ++ [.sendSignal 3 SIGCONT, .queueBack 0, .pickNext 0, .prepare 0,
          .syscallReady 1 0]) = none :=
  ⟨_, rfl, by decide +kernel, by decide +kernel⟩

end SchedSystem

end Solaya
