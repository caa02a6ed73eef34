import Solaya.Headers
import Mathlib.Order.Basic
import Mathlib.Tactic.Set

/-!
# Signal numbers, pending sets and masks

A thread's `SignalState` (`processes/thread.rs`) keeps the set of pending
signals as a word in which signal `sig` is bit `sig` (`PendingSignals`,
`processes/signal.rs`), the mask of blocked signals as the first word of a
`sigset_t`, and one `sigaction` per signal number.  `first_unblocked` picks
the lowest pending signal whose bit of the mask is clear
(`PendingSignals.firstUnblocked_eq_some_iff`).

The mask, though, is what user space wrote: `rt_sigprocmask` and the
`sa_mask` of `rt_sigaction` carry a Linux `sigset_t`, in which signal `s` is
bit `s - 1`, and `do_rt_sigprocmask` combines it with the stored word as it
is.  So blocking signal `s + 1` blocks signal `s` in the kernel
(`SignalState.doRtSigprocmask_block_masks`): blocking `SIGUSR1` (10, bit 9)
blocks `SIGKILL` (9), which Linux never lets a mask block.
-/

namespace Solaya

/-! ## `headers::syscall_types`, from `asm-generic/signal.h` -/

def SIGHUP : UInt32 := 1
def SIGINT : UInt32 := 2
def SIGQUIT : UInt32 := 3
def SIGILL : UInt32 := 4
def SIGTRAP : UInt32 := 5
def SIGABRT : UInt32 := 6
def SIGBUS : UInt32 := 7
def SIGFPE : UInt32 := 8
def SIGKILL : UInt32 := 9
def SIGUSR1 : UInt32 := 10
def SIGSEGV : UInt32 := 11
def SIGUSR2 : UInt32 := 12
def SIGPIPE : UInt32 := 13
def SIGALRM : UInt32 := 14
def SIGTERM : UInt32 := 15
def SIGSTKFLT : UInt32 := 16
def SIGCHLD : UInt32 := 17
def SIGCONT : UInt32 := 18
def SIGSTOP : UInt32 := 19
def SIGTSTP : UInt32 := 20
def SIGTTIN : UInt32 := 21
def SIGTTOU : UInt32 := 22
def SIGURG : UInt32 := 23
def SIGXCPU : UInt32 := 24
def SIGXFSZ : UInt32 := 25
def SIGVTALRM : UInt32 := 26
def SIGPROF : UInt32 := 27
def SIGWINCH : UInt32 := 28
def SIGIO : UInt32 := 29
def SIGPWR : UInt32 := 30
def SIGSYS : UInt32 := 31

/-- `_NSIG`. -/
def NSIG : UInt32 := 64

def SIG_BLOCK : UInt32 := 0
def SIG_UNBLOCK : UInt32 := 1
def SIG_SETMASK : UInt32 := 2

def SA_NODEFER : UInt32 := 0x40000000
def SA_RESETHAND : UInt32 := 0x80000000

/-- `size_of::<sigset_t>()`: the kernel's `sigset_t` is one `u64`. -/
def sigsetSize : ℕ := 8

/-- `u64::trailing_zeros`. -/
def trailingZeros (x : UInt64) : UInt32 := UInt32.ofNat x.toBitVec.ctz.toNat

/-- `PendingSignals`: bit `sig` of the word is set while `sig` is pending. -/
structure PendingSignals where
  bits : UInt64
  deriving DecidableEq, Repr

namespace PendingSignals

/-- `PendingSignals::new`. -/
def new : PendingSignals := ⟨0⟩

/-- `PendingSignals::raise`; `none` where its `assert!` fails. -/
def raise (p : PendingSignals) (sig : UInt32) : Option PendingSignals :=
  if 1 ≤ sig ∧ sig ≤ 31 then some ⟨p.bits ||| 1 <<< sig.toUInt64⟩ else none

/-- `PendingSignals::clear`; `none` where its `assert!` fails. -/
def clear (p : PendingSignals) (sig : UInt32) : Option PendingSignals :=
  if 1 ≤ sig ∧ sig ≤ 31 then some ⟨p.bits &&& ~~~(1 <<< sig.toUInt64)⟩ else none

/-- `PendingSignals::first_unblocked`. -/
def firstUnblocked (p : PendingSignals) (mask : UInt64) : Option UInt32 :=
  let deliverable := p.bits &&& ~~~mask
  if deliverable = 0 then none else some (trailingZeros deliverable)

/-- Signal number `i` is pending and its bit of `mask` is clear. -/
def Deliverable (p : PendingSignals) (mask : UInt64) (i : ℕ) : Prop :=
  p.bits.toBitVec.getLsbD i = true ∧ mask.toBitVec.getLsbD i = false

instance (p : PendingSignals) (mask : UInt64) (i : ℕ) : Decidable (p.Deliverable mask i) :=
  inferInstanceAs (Decidable (_ ∧ _))

theorem deliverable_iff_getLsbD (p : PendingSignals) (mask : UInt64) {i : ℕ} (hi : i < 64) :
    p.Deliverable mask i ↔ (p.bits &&& ~~~mask).toBitVec.getLsbD i = true := by
  simp [Deliverable, hi]

/-- `first_unblocked` selects the lowest signal number that is pending and
whose bit of the mask is clear, bit `i` standing for signal `i`. -/
theorem firstUnblocked_eq_some_iff (p : PendingSignals) (mask : UInt64) (sig : UInt32) :
    p.firstUnblocked mask = some sig ↔
      ∃ i < 64, sig = UInt32.ofNat i ∧ p.Deliverable mask i ∧ ∀ j < i, ¬ p.Deliverable mask j := by
  set deliverable := p.bits &&& ~~~mask with hdeliverable
  have hzero : deliverable = 0 ↔ deliverable.toBitVec = 0#64 := by
    rw [← UInt64.toBitVec_inj]; rfl
  have hctz_lt : deliverable.toBitVec ≠ 0#64 → deliverable.toBitVec.ctz.toNat < 64 := fun hne =>
    BitVec.ctz_lt_iff_ne_zero.mpr hne
  simp only [firstUnblocked, trailingZeros, ← hdeliverable]
  constructor
  · intro h
    split at h
    · cases h
    · rename_i hne
      have hne' : deliverable.toBitVec ≠ 0#64 := fun h0 => hne (hzero.mpr h0)
      refine ⟨deliverable.toBitVec.ctz.toNat, hctz_lt hne', (Option.some.inj h).symm, ?_, ?_⟩
      · exact (deliverable_iff_getLsbD p mask (hctz_lt hne')).mpr
          (BitVec.getLsbD_true_ctz_of_ne_zero hne')
      · intro j hj hdeliver
        have hfalse := BitVec.getLsbD_false_of_lt_ctz hj
        rw [(deliverable_iff_getLsbD p mask (Nat.lt_trans hj (hctz_lt hne'))).mp hdeliver] at hfalse
        cases hfalse
  · rintro ⟨i, hi, rfl, hdeliver, hlowest⟩
    have hbit := (deliverable_iff_getLsbD p mask hi).mp hdeliver
    have hne' : deliverable.toBitVec ≠ 0#64 := by
      intro h0
      rw [h0, BitVec.getLsbD_zero] at hbit
      cases hbit
    have hctz : deliverable.toBitVec.ctz.toNat = i := by
      rcases Nat.lt_trichotomy deliverable.toBitVec.ctz.toNat i with hlt | heq | hgt
      · exact absurd ((deliverable_iff_getLsbD p mask (Nat.lt_trans hlt hi)).mpr
          (BitVec.getLsbD_true_ctz_of_ne_zero hne')) (hlowest _ hlt)
      · exact heq
      · rw [BitVec.getLsbD_false_of_lt_ctz hgt] at hbit
        cases hbit
    rw [if_neg (fun h0 => hne' (hzero.mp h0)), hctz]

/-- A signal whose bit of the mask is set is never selected. -/
theorem firstUnblocked_ne_of_masked (p : PendingSignals) {mask : UInt64} {i : ℕ} (hi : i < 64)
    (hmasked : mask.toBitVec.getLsbD i = true) : p.firstUnblocked mask ≠ some (UInt32.ofNat i) := by
  intro h
  obtain ⟨j, hj, hsig, hdeliver, -⟩ := (firstUnblocked_eq_some_iff p mask _).mp h
  have hij : i = j := by
    have := congrArg UInt32.toNat hsig
    simp only [UInt32.toNat_ofNat'] at this
    omega
  subst hij
  rw [hdeliver.2] at hmasked
  cases hmasked

theorem raise_eq_some {p : PendingSignals} {sig : UInt32} (h : 1 ≤ sig ∧ sig ≤ 31) :
    p.raise sig = some ⟨p.bits ||| 1 <<< sig.toUInt64⟩ := if_pos h

theorem clear_eq_some {p : PendingSignals} {sig : UInt32} (h : 1 ≤ sig ∧ sig ≤ 31) :
    p.clear sig = some ⟨p.bits &&& ~~~(1 <<< sig.toUInt64)⟩ := if_pos h

end PendingSignals

/-- `DefaultAction`. -/
inductive DefaultAction where
  | terminate
  | ignore
  | stop
  | «continue»
  deriving DecidableEq, Repr

/-- `validate_signal` on the `c_int` the caller passed: `u32::try_from`
rejects a negative number. -/
def validateSignal (sig : Int32) : Except Errno (Option UInt32) :=
  if sig < 0 then .error .einval
  else
    let sigU32 := sig.toUInt32
    if sigU32 ≥ NSIG then .error .einval
    else if sigU32 = 0 then .ok none
    else .ok (some sigU32)

/-- `default_action`. -/
def defaultAction (sig : UInt32) : DefaultAction :=
  if sig ∈ [SIGHUP, SIGINT, SIGQUIT, SIGILL, SIGTRAP, SIGABRT, SIGBUS, SIGFPE, SIGKILL,
      SIGUSR1, SIGSEGV, SIGUSR2, SIGPIPE, SIGALRM, SIGTERM, SIGSTKFLT, SIGXCPU,
      SIGXFSZ, SIGVTALRM, SIGPROF, SIGIO, SIGPWR, SIGSYS] then .terminate
  else if sig ∈ [SIGCHLD, SIGURG, SIGWINCH] then .ignore
  else if sig ∈ [SIGSTOP, SIGTSTP, SIGTTIN, SIGTTOU] then .stop
  else if sig = SIGCONT then .continue
  else .terminate

/-- `sigaction` as the kernel keeps it: `sa_handler` (`None` is `SIG_DFL`,
the address `1` is `SIG_IGN`), `sa_flags`, and the one word of `sa_mask`. -/
structure Sigaction where
  saHandler : Option UInt64
  saFlags : UInt64
  saMask : UInt64
  deriving DecidableEq, Repr

/-- The `sigaction` every slot starts with, and that `SA_RESETHAND` puts
back. -/
def Sigaction.dfl : Sigaction := ⟨none, 0, 0⟩

/-- `SignalState`, without `sigaltstack`, which no modelled path reads: the
mask's one word, the `sigaction` array indexed by signal number, and the
pending set. -/
structure SignalState where
  sigmask : UInt64
  sigaction : UInt32 → Sigaction
  pending : PendingSignals

namespace SignalState

/-- `SignalState::new`. -/
def new : SignalState := ⟨0, fun _ => Sigaction.dfl, PendingSignals.new⟩

/-- `Thread::clear_pending_stop_signals`. -/
def clearPendingStopSignals (s : SignalState) : Option SignalState :=
  ([SIGSTOP, SIGTSTP, SIGTTIN, SIGTTOU].foldlM PendingSignals.clear s.pending).map
    fun pending => { s with pending }

/-- `signal_state.pending.raise(sig)`. -/
def raisePending (s : SignalState) (sig : UInt32) : Option SignalState :=
  (s.pending.raise sig).map fun pending => { s with pending }

/-- The first part of `Thread::raise_signal`: `SIGCONT` cancels pending stop
signals, and a stop signal cancels a pending `SIGCONT`. -/
def cancelPending (s : SignalState) (sig : UInt32) : Option SignalState :=
  match defaultAction sig with
  | .continue => s.clearPendingStopSignals
  | .stop => (s.pending.clear SIGCONT).map fun pending => { s with pending }
  | _ => some s

/-- The rest of `Thread::raise_signal`: `SIGKILL` and `SIGSTOP` are always
raised; another signal is dropped when its handler is `SIG_IGN`, or `SIG_DFL`
with the default action `Ignore`. -/
def raiseUnlessIgnored (s : SignalState) (sig : UInt32) : Option SignalState :=
  if sig = SIGKILL ∨ sig = SIGSTOP then s.raisePending sig
  else
    match (s.sigaction sig).saHandler with
    | none =>
      match defaultAction sig with
      | .ignore => some s
      | _ => s.raisePending sig
    | some f => if f = 1 then some s else s.raisePending sig

/-- `Thread::raise_signal`: `none` where one of its `assert!`s fails. -/
def raiseSignal (s : SignalState) (sig : UInt32) : Option SignalState :=
  if ¬(1 ≤ sig ∧ sig ≤ 31) then none
  else (s.cancelPending sig).bind fun s => s.raiseUnlessIgnored sig

/-- `Thread::has_pending_unblocked_signal`. -/
def hasPendingUnblockedSignal (s : SignalState) : Bool :=
  (s.pending.firstUnblocked s.sigmask).isSome

/-- `Thread::take_next_pending_signal`; the outer `none` is a failed
`assert!` of `clear`. -/
def takeNextPendingSignal (s : SignalState) : Option (SignalState × Option UInt32) :=
  match s.pending.firstUnblocked s.sigmask with
  | none => some (s, none)
  | some sig => (s.pending.clear sig).map fun pending => ({ s with pending }, some sig)

/-- `Thread::set_sigaction`, returning the action it replaced. -/
def setSigaction (s : SignalState) (sig : UInt32) (act : Sigaction) :
    Except Errno (Sigaction × SignalState) :=
  if sig ≥ NSIG then .error .einval
  else .ok (s.sigaction sig, { s with sigaction := Function.update s.sigaction sig act })

/-- `Thread::get_sigaction`. -/
def getSigaction (s : SignalState) (sig : UInt32) : Except Errno Sigaction :=
  if sig ≥ NSIG then .error .einval else .ok (s.sigaction sig)

/-- `do_rt_sigprocmask` on the calling thread, with `set` as read from user
memory (`none` for a null pointer); the result is the old mask that `oldset`
receives. -/
def doRtSigprocmask (s : SignalState) (how : UInt32) (set : Option UInt64) (sigsetsize : ℕ) :
    Except Errno (UInt64 × SignalState) :=
  if sigsetsize ≠ sigsetSize then .error .einval
  else
    match set with
    | none => .ok (s.sigmask, s)
    | some newSet =>
      let current := s.sigmask
      if how = SIG_BLOCK then .ok (current, { s with sigmask := current ||| newSet })
      else if how = SIG_UNBLOCK then .ok (current, { s with sigmask := current &&& ~~~newSet })
      else if how = SIG_SETMASK then .ok (current, { s with sigmask := newSet })
      else .error .einval

/-- `do_rt_sigaction` on the calling thread, with `act` as read from user
memory; the result is the old action that `oact` receives. -/
def doRtSigaction (s : SignalState) (sig : UInt32) (act : Option Sigaction) (sigsetsize : ℕ) :
    Except Errno (Sigaction × SignalState) :=
  if sigsetsize ≠ sigsetSize ∨ sig = SIGKILL ∨ sig = SIGSTOP ∨ sig ≥ NSIG then .error .einval
  else
    match act with
    | some act => s.setSigaction sig act
    | none => (s.getSigaction sig).map fun old => (old, s)

/-! ### What the thread operations change -/

theorem clearPendingStopSignals_eq (s : SignalState) :
    ∃ pending, s.clearPendingStopSignals = some { s with pending } := by
  simp [clearPendingStopSignals, List.foldlM, PendingSignals.clear_eq_some, SIGSTOP, SIGTSTP,
    SIGTTIN, SIGTTOU]

theorem raisePending_eq {s : SignalState} {sig : UInt32} (h : 1 ≤ sig ∧ sig ≤ 31) :
    s.raisePending sig = some { s with pending := ⟨s.pending.bits ||| 1 <<< sig.toUInt64⟩ } := by
  simp [raisePending, PendingSignals.raise_eq_some h]

theorem cancelPending_eq (s : SignalState) (sig : UInt32) :
    ∃ pending, s.cancelPending sig = some { s with pending } := by
  unfold cancelPending
  split
  · exact clearPendingStopSignals_eq s
  · rw [PendingSignals.clear_eq_some (show 1 ≤ SIGCONT ∧ SIGCONT ≤ 31 by decide)]
    exact ⟨_, rfl⟩
  · exact ⟨s.pending, rfl⟩

/-- Below its range check, `raise_signal` touches the pending set only. -/
theorem raiseUnlessIgnored_eq {s : SignalState} {sig : UInt32} (h : 1 ≤ sig ∧ sig ≤ 31) :
    ∃ pending, s.raiseUnlessIgnored sig = some { s with pending } := by
  have hraise := raisePending_eq (s := s) h
  unfold raiseUnlessIgnored
  split
  · exact ⟨_, hraise⟩
  · split
    · split
      · exact ⟨s.pending, rfl⟩
      · exact ⟨_, hraise⟩
    · split
      · exact ⟨s.pending, rfl⟩
      · exact ⟨_, hraise⟩

/-- `raise_signal` panics exactly on a signal number outside `1..=31`, and
otherwise changes the pending set only. -/
theorem raiseSignal_eq_none_iff (s : SignalState) (sig : UInt32) :
    s.raiseSignal sig = none ↔ ¬(1 ≤ sig ∧ sig ≤ 31) := by
  unfold raiseSignal
  by_cases hrange : 1 ≤ sig ∧ sig ≤ 31
  · obtain ⟨pending, hcancel⟩ := cancelPending_eq s sig
    obtain ⟨pending', hraise⟩ := raiseUnlessIgnored_eq (s := { s with pending }) hrange
    simp [hrange, hcancel, hraise]
  · simp [hrange]

theorem raiseSignal_eq_some {s s' : SignalState} {sig : UInt32} (h : s.raiseSignal sig = some s') :
    ∃ pending, s' = { s with pending } := by
  unfold raiseSignal at h
  split at h
  · cases h
  · rename_i hrange
    obtain ⟨pending, hcancel⟩ := cancelPending_eq s sig
    obtain ⟨pending', hraise⟩ := raiseUnlessIgnored_eq (s := { s with pending }) (not_not.mp hrange)
    rw [hcancel, Option.bind_some, hraise] at h
    exact ⟨pending', (Option.some.inj h).symm⟩

theorem takeNextPendingSignal_eq_some {s s' : SignalState} {r : Option UInt32}
    (h : s.takeNextPendingSignal = some (s', r)) :
    (∃ pending, s' = { s with pending }) ∧ r = s.pending.firstUnblocked s.sigmask := by
  unfold takeNextPendingSignal at h
  split at h
  · rename_i hnone
    cases h
    exact ⟨⟨s.pending, rfl⟩, hnone.symm⟩
  · rename_i sig hsig
    obtain ⟨pending, -, hpair⟩ := Option.map_eq_some_iff.mp h
    cases hpair
    exact ⟨⟨pending, rfl⟩, hsig.symm⟩

/-! ### The mask's bit numbering -/

/-- A signal whose bit of the thread's mask is set is never taken: the kernel
reads the mask with signal `i` at bit `i`. -/
theorem takeNextPendingSignal_ne_of_masked {s : SignalState} {i : ℕ} (hi : i < 64)
    (hmasked : s.sigmask.toBitVec.getLsbD i = true) :
    ∀ r ∈ s.takeNextPendingSignal, r.2 ≠ some (UInt32.ofNat i) := by
  rintro ⟨s', r⟩ htake hr
  rw [(takeNextPendingSignal_eq_some htake).2] at hr
  exact s.pending.firstUnblocked_ne_of_masked hi hmasked hr

theorem doRtSigprocmask_block_sigmask {s s' : SignalState} {newSet old : UInt64}
    (h : s.doRtSigprocmask SIG_BLOCK (some newSet) sigsetSize = .ok (old, s')) :
    old = s.sigmask ∧ s' = { s with sigmask := s.sigmask ||| newSet } := by
  simp only [doRtSigprocmask, ne_eq, not_true_eq_false, if_false, if_true,
    Except.ok.injEq, Prod.mk.injEq] at h
  exact ⟨h.1.symm, h.2.symm⟩

/-- `SIG_BLOCK` stores the user's `sigset_t` unchanged, so a set that names
signal `i + 1` at bit `i`, as Linux encodes it, masks signal `i`: that signal
is never taken until the mask changes again.  Raising signals leaves the mask
as it is (`raiseSignal_eq_some`). -/
theorem doRtSigprocmask_block_masks {s s' : SignalState} {newSet old : UInt64} {i : ℕ}
    (hi : i < 64) (hset : newSet.toBitVec.getLsbD i = true)
    (h : s.doRtSigprocmask SIG_BLOCK (some newSet) sigsetSize = .ok (old, s')) :
    ∀ r ∈ s'.takeNextPendingSignal, r.2 ≠ some (UInt32.ofNat i) := by
  obtain ⟨-, rfl⟩ := doRtSigprocmask_block_sigmask h
  apply takeNextPendingSignal_ne_of_masked hi
  simp [hset]

/-- A thread blocks `SIGUSR1` with `rt_sigprocmask(SIG_BLOCK, ...)`, the set
in the Linux encoding (bit 9).  A `SIGKILL` raised afterwards is never taken,
and a `SIGUSR1` raised afterwards is taken although the thread blocked it. -/
theorem sigprocmask_block_sigusr1_masks_sigkill :
    ∃ s, SignalState.new.doRtSigprocmask SIG_BLOCK (some (1 <<< (SIGUSR1 - 1).toUInt64))
        sigsetSize = .ok (0, s) ∧
      ((s.raiseSignal SIGKILL).bind takeNextPendingSignal).map Prod.snd = some none ∧
      ((s.raiseSignal SIGUSR1).bind takeNextPendingSignal).map Prod.snd = some (some SIGUSR1) :=
  ⟨_, rfl, by decide +kernel, by decide +kernel⟩

end SignalState

end Solaya
