import Solaya.Processes.Thread
import Solaya.Klibc.Util
import Solaya.Core.Machine
import Mathlib.Data.List.AList

/-!
# The process table

`ProcessTable` (`processes/process_table.rs`) maps tids to threads and each
parent tid to the list of its children, which `wait4` searches through
`take_zombie`.  `add_thread` lists a new thread under its `parent_tid`; a
fork's child is made with the forking process's main tid as its parent, and so
is a thread made by `clone_thread`.  `kill` makes a thread a zombie and, when it
is its process's main thread, gives the threads listed under it to init
(tid 1).  `take_zombie` removes the reaped thread and the list of its own
children.

The two do not fit together.  Once a main thread has died, its siblings go on
forking under its tid, into a list that the reaping of the main thread then
discards; a child forked so is in no list, and its zombie is never reaped
(`fork_after_main_thread_exit_unlisted`).

`do_kill` takes every signal number below `_NSIG`, while `raise_signal`
asserts a number in `1..=31`: `kill` with a real-time signal number panics
(`kill_realtime_signal_panics`).
-/

namespace Solaya

/-- `POWERSAVE_TID`. -/
def POWERSAVE_TID : ℕ := 0

/-- The fields of `Process` the process table reads: the tids of its threads
(the keys of `threads`, in increasing order) and `pgid`.  A process is named by
its `main_tid`. -/
structure ProcessThreads where
  threads : List ℕ
  pgid : ℕ
  deriving DecidableEq, Repr

/-- `WaitPid`. -/
inductive WaitPid where
  | specific (tid : ℕ)
  | any
  | pgid (pgid : ℕ)
  deriving DecidableEq, Repr

/-- `checkedAdd` on addresses held as `usize` words. -/
def checkedAdd64 (a b : UInt64) : Option UInt64 :=
  (checkedAdd a.toNat b.toNat).map UInt64.ofNat

/-- `ProcessTable` (its `children` a `BTreeMap`, a finite map here), with what
its operations share with it: `RUN_QUEUE`, the counter of `get_next_tid`, and
every process by its main tid. -/
structure ProcessTable where
  threads : ℕ → Option Thread
  children : AList fun _ : ℕ => List ℕ
  processes : ℕ → ProcessThreads
  runQueue : List ℕ
  nextTid : ℕ

namespace ProcessTable

/-- The keys of `threads` in increasing order: every tid was handed out below
`nextTid`. -/
def tids (pt : ProcessTable) : List ℕ :=
  (List.range pt.nextTid).filter fun tid => (pt.threads tid).isSome

/-- `tid` names a zombie in the table, of process group `pgid` when one is
given. -/
def isZombieIn (pt : ProcessTable) (pgid : Option ℕ) (tid : ℕ) : Bool :=
  match pt.threads tid with
  | some t => t.state.isZombie && pgid.all fun pgid => (pt.processes t.process).pgid == pgid
  | none => false

/-- `get_next_tid`; `none` where its `assert_ne!` fails. -/
def getNextTid (pt : ProcessTable) : Option (ℕ × ProcessTable) :=
  if pt.nextTid = 2 ^ 64 - 1 then none else some (pt.nextTid, { pt with nextTid := pt.nextTid + 1 })

/-- `ProcessTable::add_thread`; `none` where its `assert!` fails. -/
def addThread (pt : ProcessTable) (t : Thread) : Option ProcessTable :=
  if (pt.threads t.tid).isSome then none
  else some { pt with
    runQueue := pt.runQueue ++ [t.tid]
    threads := Function.update pt.threads t.tid (some t)
    children := pt.children.insert t.parentTid ((pt.children.lookup t.parentTid).getD [] ++ [t.tid]) }

/-- The search of `take_zombie` through the children listed under the
caller. -/
def findZombie (pt : ProcessTable) (children : List ℕ) : WaitPid → Option ℕ
  | .specific wanted => if wanted ∈ children ∧ pt.isZombieIn none wanted then some wanted else none
  | .any => children.find? (pt.isZombieIn none)
  | .pgid pgid => children.find? (pt.isZombieIn (some pgid))

/-- `ProcessTable::take_zombie`: the reaped tid and its wait status; `none`
where its `expect` or `unreachable!` fails. -/
def takeZombie (pt : ProcessTable) (parentTid : ℕ) (target : WaitPid) :
    Option (ProcessTable × Option (ℕ × Int)) :=
  match pt.children.lookup parentTid with
  | none => some (pt, none)
  | some children =>
    match pt.findZombie children target with
    | none => some (pt, none)
    | some tid =>
      match pt.threads tid with
      | none => none
      | some thread =>
        match thread.state with
        | .zombie status =>
          let siblings := pt.children.insert parentTid (children.filter (· ≠ tid))
          some ({ pt with threads := Function.update pt.threads tid none,
                          children := siblings.erase tid },
                some (tid, status.toWstatus))
        | _ => none

/-- `tid` names a stopped thread whose stop was not reported yet, of process
group `pgid` when one is given. -/
def isStoppedIn (pt : ProcessTable) (pgid : Option ℕ) (tid : ℕ) : Bool :=
  match pt.threads tid with
  | some t =>
    (t.state == .stopped && !t.stoppedNotified) &&
      pgid.all fun pgid => (pt.processes t.process).pgid == pgid
  | none => false

/-- The search `take_zombie` and `take_stopped` share: `test` says whether a
thread qualifies, in the process group given, if any. -/
def findChildWith (test : Option ℕ → ℕ → Bool) (children : List ℕ) : WaitPid → Option ℕ
  | .specific wanted => if wanted ∈ children ∧ test none wanted then some wanted else none
  | .any => children.find? (test none)
  | .pgid pgid => children.find? (test (some pgid))

/-- The search of `take_stopped`. -/
def findStopped (pt : ProcessTable) (children : List ℕ) (target : WaitPid) : Option ℕ :=
  findChildWith pt.isStoppedIn children target

/-- `ProcessTable::take_stopped`: a stopped child whose stop was not reported,
now marked reported, with its `WIFSTOPPED` status `(stop_signal << 8) | 0x7f`;
`none` where an `expect` fails (a stop signal that is not a `u8`). -/
def takeStopped (pt : ProcessTable) (parentTid : ℕ) (target : WaitPid) :
    Option (ProcessTable × Option (ℕ × Int)) :=
  match pt.children.lookup parentTid with
  | none => some (pt, none)
  | some children =>
    match pt.findStopped children target with
    | none => some (pt, none)
    | some tid =>
      match pt.threads tid with
      | none => none
      | some thread =>
        if thread.stopSignal < 256 then
          some ({ pt with threads :=
                    Function.update pt.threads tid (some { thread with stoppedNotified := true }) },
                some (tid, Int.ofNat ((thread.stopSignal.toNat <<< 8) ||| 0x7f)))
        else none

/-- `ProcessTable::has_any_child_of`: some tid is listed under `parentTid`. -/
def hasAnyChildOf (pt : ProcessTable) (parentTid : ℕ) : Bool :=
  (pt.children.lookup parentTid).any fun children => !children.isEmpty

/-- The end of `kill` for a main thread: the threads listed under it are
given to init (tid 1). -/
def reparentOrphans (pt : ProcessTable) (mainTid : ℕ) : ProcessTable :=
  match pt.children.lookup mainTid with
  | none => pt
  | some orphans =>
    let threads := orphans.foldl (fun threads child =>
      match threads child with
      | some t => Function.update threads child (some { t with parentTid := 1 })
      | none => threads) pt.threads
    let children := pt.children.erase mainTid
    { pt with threads, children := children.insert 1 ((children.lookup 1).getD [] ++ orphans) }

/-- `ProcessTable::kill`; `none` where its `assert!` fails.  The wake of the
`clear_child_tid` futex and the closing of the last thread's descriptors are
left out. -/
def kill (pt : ProcessTable) (tid : ℕ) (exitStatus : ExitStatus) : Option ProcessTable :=
  if tid = POWERSAVE_TID then none
  else
    match pt.threads tid with
    | none => some pt
    | some t =>
      if t.state.isZombie then some pt
      else
        let p := pt.processes t.process
        let pt := { pt with
          threads := Function.update pt.threads tid
            (some { t with state := .zombie exitStatus, syscallTask := none })
          processes := Function.update pt.processes t.process { p with threads := p.threads.erase tid } }
        -- orphans are reparented only when the main thread dies
        if tid = t.process then some (pt.reparentOrphans t.process) else some pt

/-- `ProcessTable::kill_process_of`. -/
def killProcessOf (pt : ProcessTable) (tid : ℕ) (exitStatus : ExitStatus) : Option ProcessTable :=
  match pt.threads tid with
  | none => some pt
  | some t => (pt.processes t.process).threads.foldlM (fun pt tid => pt.kill tid exitStatus) pt

/-- `ProcessTable::send_signal`. -/
def sendSignal (pt : ProcessTable) (tid : ℕ) (sig : UInt32) : Option ProcessTable :=
  match pt.threads tid with
  | none => some pt
  | some t =>
    if t.state.isZombie then some pt
    else
      (t.raiseSignal sig).bind fun t =>
        -- `SIGCONT` resumes a stopped thread
        if sig = SIGCONT ∧ t.state = .stopped then
          (t.signalState.clearPendingStopSignals).map fun signalState =>
            { pt with threads := Function.update pt.threads tid
                        (some { t with signalState, state := .runnable }),
                      runQueue := pt.runQueue ++ [tid] }
        else if t.signalState.hasPendingUnblockedSignal ∧ t.state = .waiting then
          some { pt with threads := Function.update pt.threads tid (some { t with state := .runnable }),
                         runQueue := pt.runQueue ++ [tid] }
        else some { pt with threads := Function.update pt.threads tid (some t) }

/-- `ProcessTable::send_signal_to_process`: to every thread of `tid`'s
process. -/
def sendSignalToProcess (pt : ProcessTable) (tid : ℕ) (sig : UInt32) : Option ProcessTable :=
  match pt.threads tid with
  | none => some pt
  | some t => (pt.processes t.process).threads.foldlM (fun pt tid => pt.sendSignal tid sig) pt

/-- `ProcessTable::send_signal_to_pgid`: to every live thread of the process
group. -/
def sendSignalToPgid (pt : ProcessTable) (pgid : ℕ) (sig : UInt32) : Option ProcessTable :=
  let inGroup tid := match pt.threads tid with
    | some t => !t.state.isZombie && (pt.processes t.process).pgid == pgid
    | none => false
  (pt.tids.filter inGroup).foldlM (fun pt tid => pt.sendSignal tid sig) pt

/-- `do_kill` by a thread of process group `currentPgid`; `none` where the
kernel panics. -/
def doKill (pt : ProcessTable) (currentPgid : ℕ) (pid sig : Int32) :
    Option (Except Errno Unit × ProcessTable) :=
  match validateSignal sig with
  | .error e => some (.error e, pt)
  | .ok sig =>
    let send (pt : ProcessTable) (f : ProcessTable → UInt32 → Option ProcessTable) :=
      match sig with
      | some sig => (f pt sig).map fun pt => (.ok (), pt)
      | none => some (.ok (), pt)
    if 0 < pid then send pt fun pt => pt.sendSignalToProcess pid.toNatClampNeg
    else if pid = 0 then send pt fun pt => pt.sendSignalToPgid currentPgid
    else if pid = -1 then some (.error .esrch, pt)
    -- `-pid` overflows for `i32::MIN`
    else if pid = Int32.minValue then none
    else send pt fun pt => pt.sendSignalToPgid (-pid).toNatClampNeg

/-- `clone_fork` by `caller`, whose `ecall` at `pc` saw the registers `regs`:
a new process in the caller's process group, whose main thread has the
caller's main thread as its parent. -/
def cloneFork (pt : ProcessTable) (caller : Thread) (regs : Fin 32 → UInt64) (pc stack : UInt64) :
    Option (ℕ × ProcessTable) := do
  let parentMainTid := caller.process
  let parentPgid := (pt.processes caller.process).pgid
  let (childTid, pt) ← pt.getNextTid
  let childRegs := Function.update regs Register.a0 0
  let childRegs := if stack ≠ 0 then Function.update childRegs Register.sp stack else childRegs
  let childPc ← checkedAdd64 pc 4
  let child := Thread.new childTid childRegs childPc childTid parentMainTid
  let pt := { pt with processes := Function.update pt.processes childTid ⟨[childTid], parentPgid⟩ }
  let pt ← pt.addThread child
  pure (childTid, pt)

/-- `clone_thread` by `caller` without `CLONE_SETTLS`, `CLONE_CHILD_CLEARTID`
and `CLONE_PARENT_SETTID`: a new thread of the caller's process, whose parent
is the process's main thread. -/
def cloneThread (pt : ProcessTable) (caller : Thread) (regs : Fin 32 → UInt64) (pc stack : UInt64) :
    Option (ℕ × ProcessTable) := do
  let parentMainTid := caller.process
  let (childTid, pt) ← pt.getNextTid
  let childRegs := Function.update regs Register.a0 0
  let childRegs := if stack ≠ 0 then Function.update childRegs Register.sp stack else childRegs
  let childPc ← checkedAdd64 pc 4
  let child := Thread.new childTid childRegs childPc caller.process parentMainTid
  let p := pt.processes caller.process
  let p := { p with threads := p.threads ++ [childTid] }
  let pt := { pt with processes := Function.update pt.processes caller.process p }
  let pt ← pt.addThread child
  pure (childTid, pt)

/-- The table `init` leaves: the init thread, tid 1, whose parent is tid 0,
alone in its process. -/
def boot : ProcessTable :=
  let init := Thread.new 1 (fun _ => 0) 0 1 0
  { threads := Function.update (fun _ => none) 1 (some init)
    children := (∅ : AList _).insert 0 [1]
    processes := Function.update (fun _ => ⟨[], 0⟩) 1 ⟨[1], 1⟩
    runQueue := [1]
    nextTid := 2 }

/-! ### Reaping -/

theorem findZombie_eq_findChildWith (pt : ProcessTable) (children : List ℕ) (target : WaitPid) :
    pt.findZombie children target = findChildWith pt.isZombieIn children target := by
  cases target <;> rfl

theorem findChildWith_mem {test : Option ℕ → ℕ → Bool} {children : List ℕ} {target : WaitPid}
    {tid : ℕ} (h : findChildWith test children target = some tid) : tid ∈ children := by
  cases target with
  | specific wanted =>
    simp only [findChildWith] at h
    split_ifs at h with hwanted
    cases h
    exact hwanted.1
  | any => exact List.mem_of_find?_eq_some h
  | pgid pgid => exact List.mem_of_find?_eq_some h

theorem findZombie_mem {pt : ProcessTable} {children : List ℕ} {target : WaitPid} {tid : ℕ}
    (h : pt.findZombie children target = some tid) : tid ∈ children := by
  rw [findZombie_eq_findChildWith] at h
  exact findChildWith_mem h

/-- What `take_zombie` does when it reaps: the reaped tid is a zombie listed
under the caller, and it leaves the table together with its own list of
children. -/
theorem takeZombie_eq_reaped {pt pt' : ProcessTable} {parentTid tid : ℕ} {target : WaitPid}
    {wstatus : Int} (h : pt.takeZombie parentTid target = some (pt', some (tid, wstatus))) :
    ∃ children, pt.children.lookup parentTid = some children ∧ tid ∈ children ∧
      ∃ thread status, pt.threads tid = some thread ∧ thread.state = .zombie status ∧
        wstatus = status.toWstatus ∧
        pt' = { pt with threads := Function.update pt.threads tid none,
                        children := (pt.children.insert parentTid (children.filter (· ≠ tid))).erase tid } := by
  unfold takeZombie at h
  cases hchildren : pt.children.lookup parentTid with
  | none => simp [hchildren] at h
  | some children =>
    cases hfound : pt.findZombie children target with
    | none => simp [hchildren, hfound] at h
    | some found =>
      cases hthread : pt.threads found with
      | none => simp [hchildren, hfound, hthread] at h
      | some thread =>
        simp only [hchildren, hfound, hthread] at h
        split at h
        · rename_i status hstatus
          simp only [Option.some.injEq, Prod.mk.injEq] at h
          obtain ⟨rfl, rfl, rfl⟩ := h
          exact ⟨children, rfl, findZombie_mem hfound, thread, status, hthread, hstatus, rfl, rfl⟩
        · cases h

/-- A thread listed only under the thread that `take_zombie` reaps is listed
nowhere afterwards: the reaped thread's list of children is dropped with it. -/
theorem takeZombie_unlists {pt pt' : ProcessTable} {parentTid tid : ℕ} {target : WaitPid}
    {wstatus : Int} (h : pt.takeZombie parentTid target = some (pt', some (tid, wstatus))) {c : ℕ}
    (honly : ∀ p, c ∈ (pt.children.lookup p).getD [] → p = tid) :
    ∀ p, c ∉ (pt'.children.lookup p).getD [] := by
  obtain ⟨children, hchildren, -, -, -, -, -, -, rfl⟩ := takeZombie_eq_reaped h
  intro p hc
  by_cases hp : p = tid
  · subst hp
    simp [AList.lookup_erase] at hc
  · rw [AList.lookup_erase_ne hp] at hc
    by_cases hparent : p = parentTid
    · subst hparent
      rw [AList.lookup_insert, Option.getD_some, List.mem_filter] at hc
      exact hp (honly p (by rw [hchildren]; exact hc.1))
    · rw [AList.lookup_insert_ne hparent] at hc
      exact hp (honly p hc)

/-- A thread `take_zombie` or `take_stopped` finds passes the search's test. -/
theorem findChildWith_test {test : Option ℕ → ℕ → Bool} {children : List ℕ} {target : WaitPid}
    {tid : ℕ} (h : findChildWith test children target = some tid) : ∃ pgid, test pgid tid = true := by
  cases target with
  | specific wanted =>
    simp only [findChildWith] at h
    split_ifs at h with hwanted
    cases h
    exact ⟨none, hwanted.2⟩
  | any => exact ⟨none, List.find?_some h⟩
  | pgid pgid => exact ⟨some pgid, List.find?_some h⟩

theorem isStoppedIn_eq_true {pt : ProcessTable} {pgid : Option ℕ} {tid : ℕ}
    (h : pt.isStoppedIn pgid tid = true) :
    ∃ thread, pt.threads tid = some thread ∧ thread.state = .stopped ∧
      thread.stoppedNotified = false := by
  unfold isStoppedIn at h
  cases hthread : pt.threads tid with
  | none => simp [hthread] at h
  | some thread =>
    simp only [hthread, Bool.and_eq_true, beq_iff_eq, Bool.not_eq_true'] at h
    exact ⟨thread, rfl, h.1.1, h.1.2⟩

/-- `take_zombie` that reaps nothing leaves the table as it was. -/
theorem takeZombie_eq_none {pt pt' : ProcessTable} {parentTid : ℕ} {target : WaitPid}
    (h : pt.takeZombie parentTid target = some (pt', none)) : pt' = pt := by
  unfold takeZombie at h
  split at h
  · exact (Prod.mk.inj (Option.some.inj h)).1.symm
  · split at h
    · exact (Prod.mk.inj (Option.some.inj h)).1.symm
    · split at h
      · cases h
      · split at h <;> simp at h

/-- `take_stopped` that reports nothing leaves the table as it was. -/
theorem takeStopped_eq_none {pt pt' : ProcessTable} {parentTid : ℕ} {target : WaitPid}
    (h : pt.takeStopped parentTid target = some (pt', none)) : pt' = pt := by
  unfold takeStopped at h
  split at h
  · exact (Prod.mk.inj (Option.some.inj h)).1.symm
  · split at h
    · exact (Prod.mk.inj (Option.some.inj h)).1.symm
    · split at h
      · cases h
      · split_ifs at h
        simp at h

/-- What `take_stopped` does when it reports: the thread is listed under the
caller, stopped and not reported before, and is now marked reported. -/
theorem takeStopped_eq_reported {pt pt' : ProcessTable} {parentTid tid : ℕ} {target : WaitPid}
    {wstatus : Int} (h : pt.takeStopped parentTid target = some (pt', some (tid, wstatus))) :
    ∃ children, pt.children.lookup parentTid = some children ∧ tid ∈ children ∧
      ∃ thread, pt.threads tid = some thread ∧ thread.state = .stopped ∧
        thread.stoppedNotified = false ∧
        pt'.threads tid = some { thread with stoppedNotified := true } := by
  unfold takeStopped at h
  cases hchildren : pt.children.lookup parentTid with
  | none => simp [hchildren] at h
  | some children =>
    cases hfound : pt.findStopped children target with
    | none => simp [hchildren, hfound] at h
    | some found =>
      obtain ⟨pgid, htest⟩ := findChildWith_test hfound
      obtain ⟨thread, hthread, hstopped, hfresh⟩ := isStoppedIn_eq_true htest
      simp only [hchildren, hfound, hthread] at h
      split_ifs at h
      simp only [Option.some.injEq, Prod.mk.injEq] at h
      obtain ⟨rfl, rfl, -⟩ := h
      exact ⟨children, rfl, findChildWith_mem hfound, thread, hthread, hstopped, hfresh,
        Function.update_self ..⟩

/-! ### Signals -/

/-- `send_signal` panics exactly when it raises a number outside `1..=31` on
a live thread. -/
theorem sendSignal_eq_none_iff (pt : ProcessTable) (tid : ℕ) (sig : UInt32) :
    pt.sendSignal tid sig = none ↔
      (∃ t, pt.threads tid = some t ∧ t.state.isZombie = false) ∧ ¬(1 ≤ sig ∧ sig ≤ 31) := by
  unfold sendSignal
  cases hthread : pt.threads tid with
  | none => simp
  | some t =>
    cases hzombie : t.state.isZombie with
    | true => simp [hzombie]
    | false =>
      by_cases hsig : 1 ≤ sig ∧ sig ≤ 31
      · -- in range, `raise_signal` and `clear_pending_stop_signals` succeed
        obtain ⟨pending, hraise⟩ : ∃ pending,
            t.raiseSignal sig = some { t with signalState := { t.signalState with pending } } := by
          cases hr : t.signalState.raiseSignal sig with
          | none => exact absurd hsig ((SignalState.raiseSignal_eq_none_iff _ _).mp hr)
          | some s' =>
            obtain ⟨pending, rfl⟩ := SignalState.raiseSignal_eq_some hr
            exact ⟨pending, by simp [Thread.raiseSignal, hr]⟩
        obtain ⟨pending', hclear⟩ := SignalState.clearPendingStopSignals_eq
          { t.signalState with pending }
        simp only [hraise, Option.bind_some, hsig]
        split_ifs <;> simp [hclear]
      · have hraise : t.raiseSignal sig = none := by
          simp [Thread.raiseSignal, (SignalState.raiseSignal_eq_none_iff _ _).mpr hsig]
        simp [hraise, hsig]

/-- Signalling a list of threads with a number outside `1..=31` panics
exactly when one of them is live: the others are passed over unchanged. -/
theorem foldlM_sendSignal_eq_none_iff {sig : UInt32} (hsig : ¬(1 ≤ sig ∧ sig ≤ 31))
    (tids : List ℕ) (pt : ProcessTable) :
    tids.foldlM (fun pt tid => pt.sendSignal tid sig) pt = none ↔
      ∃ tid ∈ tids, ∃ t, pt.threads tid = some t ∧ t.state.isZombie = false := by
  induction tids with
  | nil => simp
  | cons tid tids ih =>
    by_cases hlive : ∃ t, pt.threads tid = some t ∧ t.state.isZombie = false
    · have hnone := (sendSignal_eq_none_iff pt tid sig).mpr ⟨hlive, hsig⟩
      simp only [List.foldlM_cons, hnone]
      exact iff_of_true rfl ⟨tid, List.mem_cons_self, hlive⟩
    · -- a dead or missing thread is skipped with the table unchanged
      have hskip : pt.sendSignal tid sig = some pt := by
        unfold sendSignal
        cases hthread : pt.threads tid with
        | none => rfl
        | some t =>
          have hzombie : t.state.isZombie = true := by
            cases h : t.state.isZombie
            · exact absurd ⟨t, hthread, h⟩ hlive
            · rfl
          simp [hzombie]
      simp only [List.foldlM_cons, hskip, Option.bind_eq_bind, Option.bind_some, ih,
        List.mem_cons]
      constructor
      · rintro ⟨tid', htid', hlive'⟩
        exact ⟨tid', Or.inr htid', hlive'⟩
      · rintro ⟨tid', rfl | htid', hlive'⟩
        · exact absurd hlive' hlive
        · exact ⟨tid', htid', hlive'⟩

/-- `kill(pid, sig)` with a positive `pid` and a number that
`validate_signal` accepts outside `1..=31` panics as soon as the target's
process has a live thread. -/
theorem doKill_eq_none_of_unraisable (pt : ProcessTable) (currentPgid : ℕ) {pid sig : Int32}
    {s : UInt32} (hpid : 0 < pid) (hvalid : validateSignal sig = .ok (some s))
    (hs : ¬(1 ≤ s ∧ s ≤ 31)) {t : Thread} (htarget : pt.threads pid.toNatClampNeg = some t)
    (hlive : ∃ tid ∈ (pt.processes t.process).threads, ∃ t', pt.threads tid = some t' ∧
      t'.state.isZombie = false) :
    pt.doKill currentPgid pid sig = none := by
  have hsend : pt.sendSignalToProcess pid.toNatClampNeg s = none := by
    rw [sendSignalToProcess, htarget]
    exact (foldlM_sendSignal_eq_none_iff hs _ pt).mpr hlive
  simp [doKill, hvalid, hpid, hsend]

/-- `kill(1, 32)`: `validate_signal` accepts the real-time signal 32, and
raising it on init panics. -/
theorem kill_realtime_signal_panics :
    validateSignal 32 = .ok (some 32) ∧ boot.doKill 1 1 32 = none :=
  ⟨by decide, rfl⟩

end ProcessTable

/-- What changes the process tree: the system calls that add threads, end
them or reap them, by a thread in the table. -/
inductive ProcessEvent where
  /-- `fork` (`clone` without `CLONE_VM`). -/
  | cloneFork (caller : ℕ)
  /-- `clone` with `CLONE_VM | CLONE_THREAD`. -/
  | cloneThread (caller : ℕ)
  /-- `exit`: `kill_current_thread`. -/
  | exit (caller : ℕ) (status : ExitStatus)
  /-- `exit_group` or a fatal signal: `kill_process_of`. -/
  | killProcessOf (tid : ℕ) (status : ExitStatus)
  /-- `wait4`, which searches the children listed under the caller's own
  tid. -/
  | wait4 (caller : ℕ) (target : WaitPid)
  deriving DecidableEq, Repr

/-- A system call by `caller`, which does not happen when `caller` is not in
the table or is a zombie. -/
def ProcessTable.byLiveThread (pt : ProcessTable) (caller : ℕ) (f : Thread → Option ProcessTable) :
    Option ProcessTable :=
  match pt.threads caller with
  | some t => if t.state.isZombie then some pt else f t
  | none => some pt

/-- One event of the process tree. -/
def ProcessTable.step (pt : ProcessTable) : ProcessEvent → Option ProcessTable
  | .cloneFork caller => pt.byLiveThread caller fun t =>
      (pt.cloneFork t t.registers t.programCounter 0).map (·.2)
  | .cloneThread caller => pt.byLiveThread caller fun t =>
      (pt.cloneThread t t.registers t.programCounter 0).map (·.2)
  | .exit caller status => pt.byLiveThread caller fun _ => pt.kill caller status
  | .killProcessOf tid status => pt.killProcessOf tid status
  | .wait4 caller target => pt.byLiveThread caller fun _ =>
      (pt.takeZombie caller target).map (·.1)

namespace ProcessTable

/-- init forks process 2, whose main thread makes thread 3 and exits; thread
3 forks 4, which `clone_fork` makes a child of the dead main thread 2; init
reaps 2, which drops the list of 2's children, and 4 exits.  Thread 4 is a
zombie whose parent is neither in the table nor init, and no list of children
holds it, so no `wait4` ever reaps it. -/
theorem fork_after_main_thread_exit_unlisted :
    ∃ pt, Machine.run step boot
        [.cloneFork 1, .cloneThread 2, .exit 2 (.exited 0), .cloneFork 3, .wait4 1 .any,
          .exit 4 (.exited 0)] = some pt ∧
      (∃ t, pt.threads 4 = some t ∧ t.parentTid = 2 ∧ t.state = .zombie (.exited 0)) ∧
      pt.threads 2 = none ∧ ∀ entry ∈ pt.children.entries, 4 ∉ entry.2 :=
  ⟨_, rfl, ⟨_, rfl, rfl, rfl⟩, rfl, by decide⟩

end ProcessTable

end Solaya
