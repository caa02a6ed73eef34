import Solaya.Processes.Signal

/-!
# Threads and signal delivery

A `Thread` (`processes/thread.rs`) carries its saved user registers and
program counter, its scheduling state, the flag that bridges a wake-up racing
with a suspension, the syscall future it is suspended in, and its
`SignalState`.  The model keeps these fields; the process a thread belongs to
is named by its main tid, which is fixed when the process is made and unique
among processes.

`deliver_signal` (`processes/signal.rs`) runs before a thread returns to user
space.  It takes pending signals one by one: a default action ends the loop
with `Terminate` or `Stop` or goes on, `SIG_IGN` goes on, and a handler gets a
frame on the user stack.  A frame that cannot be written re-raises `SIGSEGV`
and goes on, or terminates when the signal was `SIGSEGV` already.  The frame
address is `user_sp - SIGNAL_FRAME_SIZE`, which panics under the kernel's
overflow checks when the user's stack pointer is below the frame's size
(`setupSignalFrame_eq_none_iff`).
-/

namespace Solaya

/-- `ExitStatus`. -/
inductive ExitStatus where
  | exited (code : UInt8)
  | signaled (sig : UInt8)
  deriving DecidableEq, Repr

/-- `ExitStatus::to_wstatus`. -/
def ExitStatus.toWstatus : ExitStatus → Int
  | .exited code => Int.ofNat (code.toNat * 256)
  | .signaled sig => Int.ofNat (sig.toNat % 128)

/-- `ThreadState`. -/
inductive ThreadState where
  | running (cpuId : ℕ)
  | runnable
  | waiting
  | stopped
  | zombie (status : ExitStatus)
  deriving DecidableEq, Repr

/-- `matches!(state, ThreadState::Zombie(_))`. -/
def ThreadState.isZombie : ThreadState → Bool
  | .zombie _ => true
  | _ => false

/-- `matches!(state, ThreadState::Running { .. })`. -/
def ThreadState.isRunning : ThreadState → Bool
  | .running _ => true
  | _ => false

/-- The indices of `Register` that signal delivery writes. -/
def Register.ra : Fin 32 := 1
def Register.sp : Fin 32 := 2
def Register.a0 : Fin 32 := 10

/-- `TRAMPOLINE_VADDR`: the page that calls `rt_sigreturn` when a handler
returns. -/
def TRAMPOLINE_VADDR : UInt64 := 0x1000

/-- `SIGNAL_FRAME_SIZE`: `size_of::<SignalFrame>()`, 32 general and 32
floating-point registers, the program counter and the mask, 8 bytes each. -/
def SIGNAL_FRAME_SIZE : UInt64 := 528

/-- `Thread`, without the fields no modelled path reads (its name,
`in_kernel_mode`, `clear_child_tid`, the floating-point registers). -/
structure Thread where
  tid : ℕ
  parentTid : ℕ
  registers : Fin 32 → UInt64
  programCounter : UInt64
  state : ThreadState
  wakeupPending : Bool
  /-- The main tid of the thread's process, which names the process. -/
  process : ℕ
  signalState : SignalState
  /-- The suspended syscall future, by its identity. -/
  syscallTask : Option ℕ
  registersReplaced : Bool
  stoppedNotified : Bool
  stopSignal : UInt32

namespace Thread

/-- `Thread::new`. -/
def new (tid : ℕ) (registers : Fin 32 → UInt64) (programCounter : UInt64) (process : ℕ)
    (parentTid : ℕ) : Thread where
  tid := tid
  parentTid := parentTid
  registers := registers
  programCounter := programCounter
  state := .runnable
  wakeupPending := false
  process := process
  signalState := .new
  syscallTask := none
  registersReplaced := false
  stoppedNotified := false
  stopSignal := 0

/-- `Thread::suspend`; `none` where its `assert_ne!` fails. -/
def suspend (t : Thread) : Option Thread :=
  if t.state = .waiting then none else some { t with state := .waiting }

/-- `Thread::set_syscall_task_and_suspend`; `none` where its `assert!`
fails. -/
def setSyscallTaskAndSuspend (t : Thread) (task : ℕ) : Option Thread :=
  if t.syscallTask.isSome then none
  -- killed by another CPU since the poll returned `Pending`
  else if t.state.isZombie then some t
  else
    let t := { t with syscallTask := some task }
    if t.wakeupPending then some { t with wakeupPending := false }
    else if t.signalState.hasPendingUnblockedSignal then some t
    else t.suspend

/-- `Thread::wake_up`: whether the thread became runnable and has to be
queued. -/
def wakeUp (t : Thread) : Thread × Bool :=
  if t.state = .waiting then ({ t with state := .runnable }, true)
  else if t.state.isRunning then ({ t with wakeupPending := true }, false)
  else (t, false)

/-- `Thread::suspend_unless_wakeup_pending`. -/
def suspendUnlessWakeupPending (t : Thread) : Option Thread :=
  if t.wakeupPending then some { t with wakeupPending := false } else t.suspend

/-- `Thread::raise_signal`. -/
def raiseSignal (t : Thread) (sig : UInt32) : Option Thread :=
  (t.signalState.raiseSignal sig).map fun signalState => { t with signalState }

/-- `Thread::take_next_pending_signal`. -/
def takeNextPendingSignal (t : Thread) : Option (Thread × Option UInt32) :=
  t.signalState.takeNextPendingSignal.map fun (signalState, sig) => ({ t with signalState }, sig)

/-- `setup_signal_frame`.  `writable frameSp` is whether
`write_userspace_slice` succeeds for the frame at `frameSp`; `none` is the
overflow panic of `user_sp - SIGNAL_FRAME_SIZE`. -/
def setupSignalFrame (writable : UInt64 → Bool) (t : Thread) (sig : UInt32) (handler : UInt64)
    (action : Sigaction) : Option (Thread × Bool) :=
  let sigmask := t.signalState.sigmask
  let userSp := t.registers Register.sp
  if userSp < SIGNAL_FRAME_SIZE then none
  else
    let frameSp := (userSp - SIGNAL_FRAME_SIZE) &&& ~~~0xF
    if !writable frameSp then some (t, false)
    else
      let registers := Function.update (Function.update (Function.update t.registers
        Register.sp frameSp) Register.a0 sig.toUInt64) Register.ra TRAMPOLINE_VADDR
      -- block `sa_mask` and the signal itself, unless `SA_NODEFER`
      let newMask := sigmask ||| action.saMask
      let newMask :=
        if action.saFlags &&& SA_NODEFER.toUInt64 = 0 then newMask ||| 1 <<< sig.toUInt64
        else newMask
      let signalState := { t.signalState with sigmask := newMask }
      -- `SA_RESETHAND`: back to `SIG_DFL` after the first delivery
      let signalState :=
        if action.saFlags &&& SA_RESETHAND.toUInt64 ≠ 0 then
          match signalState.setSigaction sig .dfl with
          | .ok (_, signalState) => signalState
          | .error _ => signalState
        else signalState
      some ({ t with registers, programCounter := handler, signalState }, true)

end Thread

/-- `SignalDeliveryResult`. -/
inductive SignalDeliveryResult where
  | «continue»
  | terminate (status : ExitStatus)
  | stop (sig : UInt32)
  deriving DecidableEq, Repr

/-- `u8::try_from(sig).expect(..)`. -/
def signalU8 (sig : UInt32) : Option UInt8 :=
  if sig.toNat < 256 then some (UInt8.ofNat sig.toNat) else none

/-- The loop of `deliver_signal`, for at most `fuel` turns. -/
def deliverSignalFuel (writable : UInt64 → Bool) : ℕ → Thread → Option (SignalDeliveryResult × Thread)
  | 0, _ => none
  | fuel + 1, t => do
    let (t, next) ← t.takeNextPendingSignal
    match next with
    | none => pure (.continue, t)
    | some sig =>
      let action := t.signalState.sigaction sig
      match action.saHandler with
      | none =>
        match defaultAction sig with
        | .terminate => do
          let sigU8 ← signalU8 sig
          pure (.terminate (.signaled sigU8), t)
        | .stop => pure (.stop sig, t)
        | .ignore | .continue => deliverSignalFuel writable fuel t
      | some f =>
        -- `SIG_IGN`
        if f = 1 then deliverSignalFuel writable fuel t
        else do
          let (t, written) ← t.setupSignalFrame writable sig f action
          if written then pure (.continue, t)
          -- a frame for `SIGSEGV` that cannot be written ends the process
          else if sig = SIGSEGV then do
            let sigU8 ← signalU8 SIGSEGV
            pure (.terminate (.signaled sigU8), t)
          else do
            let t ← t.raiseSignal SIGSEGV
            deliverSignalFuel writable fuel t

/-- `deliver_signal`.  Each turn of its loop takes a pending signal, and
re-raises at most `SIGSEGV`, so 130 turns are more than it ever runs. -/
def deliverSignal (writable : UInt64 → Bool) (t : Thread) : Option (SignalDeliveryResult × Thread) :=
  deliverSignalFuel writable 130 t

namespace Thread

/-- The frame address underflows, and the kernel panics, exactly when the
user's stack pointer is below the frame's size. -/
theorem setupSignalFrame_eq_none_iff (writable : UInt64 → Bool) (t : Thread) (sig : UInt32)
    (handler : UInt64) (action : Sigaction) :
    t.setupSignalFrame writable sig handler action = none ↔
      t.registers Register.sp < SIGNAL_FRAME_SIZE := by
  unfold setupSignalFrame
  by_cases hsp : t.registers Register.sp < SIGNAL_FRAME_SIZE
  · simp [hsp]
  · simp only [hsp, if_false, iff_false]
    split <;> simp

end Thread

end Solaya
