import Solaya.Core.Machine
import Mathlib.Order.Basic

/-!
# The kernel's task executor

`kernel_tasks.rs` runs the kernel's own futures (TCP connections, timers) on a
worker thread.  `TASKS` holds the pending futures by id and `READY_IDS` the
ids to poll; a `KernelTaskWaker` pushes its id and wakes the worker.
`poll_ready_tasks` pops an id, takes its future out of `TASKS`, polls it and
puts it back while it is pending.  An id whose future is not in `TASKS` is
pushed back and the pass ends, since a wake during a poll finds the future out
of `TASKS`.  The worker loops while `READY_IDS` is not empty, and otherwise
asks to sleep.

The same branch catches an id whose future has completed: a waker that fires
after the end of its task, such as a timer of a connection that has closed,
leaves an id that every pass pushes back.  From then on `READY_IDS` is never
empty and the worker never sleeps (`completed_task_wake_spins`).
-/

namespace Solaya

/-- Where the worker thread is in `kernel_worker_entry`. -/
inductive WorkerPhase where
  /-- In `poll_ready_tasks`, about to pop `READY_IDS`. -/
  | poll
  /-- Polling the future `id`, which is out of `TASKS`. -/
  | polling (id : ℕ)
  /-- Back in `kernel_worker_entry`, about to look at `READY_IDS`. -/
  | check
  /-- Asleep, until `wake_worker_thread`. -/
  | sleep
  deriving DecidableEq, Repr

/-- The executor: the ids of the futures in `TASKS`, `READY_IDS`, `NEXT_ID`
and the worker. -/
structure Executor where
  tasks : ℕ → Bool
  readyIds : List ℕ
  nextId : ℕ
  worker : WorkerPhase

namespace Executor

/-- `wake_worker_thread`: a sleeping worker runs its loop again. -/
def wakeWorkerThread (e : Executor) : Executor :=
  if e.worker = .sleep then { e with worker := .poll } else e

/-- `spawn`: a new future under a fresh id, ready to be polled. -/
def spawn (e : Executor) : Executor :=
  { e with tasks := Function.update e.tasks e.nextId true, readyIds := e.readyIds ++ [e.nextId],
           nextId := e.nextId + 1 }.wakeWorkerThread

/-- `KernelTaskWaker::wake`. -/
def wake (e : Executor) (id : ℕ) : Executor :=
  { e with readyIds := e.readyIds ++ [id] }.wakeWorkerThread

/-- One turn of `poll_ready_tasks` up to the poll: an empty `READY_IDS` ends
the pass; an id whose future is in `TASKS` is polled; any other id is pushed
back and ends the pass. -/
def popReady (e : Executor) : Executor :=
  match e.readyIds with
  | [] => { e with worker := .check }
  | id :: rest =>
    if e.tasks id then { e with tasks := Function.update e.tasks id false, readyIds := rest,
                                worker := .polling id }
    else { e with readyIds := rest ++ [id], worker := .check }

/-- The end of a poll: a pending future goes back into `TASKS`. -/
def pollDone (e : Executor) (id : ℕ) (ready : Bool) : Executor :=
  if ready then { e with worker := .poll }
  else { e with tasks := Function.update e.tasks id true, worker := .poll }

/-- The test of `kernel_worker_entry`: an empty `READY_IDS` puts the worker
to sleep. -/
def checkReady (e : Executor) : Executor :=
  if e.readyIds = [] then { e with worker := .sleep } else { e with worker := .poll }

/-- Nothing spawned, nothing ready, and the worker asleep. -/
def init : Executor := ⟨fun _ => false, [], 0, .sleep⟩

end Executor

/-- What happens to the executor. -/
inductive ExecutorEvent where
  /-- `spawn`. -/
  | spawn
  /-- A `KernelTaskWaker` for `id` fires. -/
  | wake (id : ℕ)
  /-- The worker pops `READY_IDS`. -/
  | pop
  /-- The poll of the future the worker holds returns, `Ready` or not. -/
  | pollDone (ready : Bool)
  /-- The worker looks at `READY_IDS` after a pass. -/
  | check
  deriving DecidableEq, Repr

/-- One event; a step of the worker in another phase does not happen. -/
def Executor.step (e : Executor) : ExecutorEvent → Option Executor
  | .spawn => some e.spawn
  | .wake id => some (e.wake id)
  | .pop => if e.worker = .poll then some e.popReady else some e
  | .pollDone ready =>
    match e.worker with
    | .polling id => some (e.pollDone id ready)
    | _ => some e
  | .check => if e.worker = .check then some e.checkReady else some e

namespace Executor

/-- One pass of the worker's loop, popping and checking. -/
def workerRound : List ExecutorEvent := [.pop, .check]

/-- With only the id of a completed task ready, a pass of the worker pushes
it back and goes round again: the executor comes back to where it was. -/
theorem run_workerRound_of_stale {e : Executor} {id : ℕ} (hready : e.readyIds = [id])
    (htask : e.tasks id = false) (hworker : e.worker = .poll) :
    Machine.run step e workerRound = some e := by
  have hpop : e.step .pop = some { e with readyIds := [id], worker := .check } := by
    simp [step, hworker, popReady, hready, htask]
  have hcheck : ({ e with readyIds := [id], worker := .check } : Executor).step .check = some e := by
    cases e
    simp_all [step, checkReady]
  simp [workerRound, Machine.run_cons, hpop, hcheck, Machine.run_nil]

theorem run_workerRounds_of_stale {e : Executor} {id : ℕ} (hready : e.readyIds = [id])
    (htask : e.tasks id = false) (hworker : e.worker = .poll) (n : ℕ) :
    Machine.run step e (List.replicate n workerRound).flatten = some e := by
  induction n with
  | zero => rfl
  | succ n ih =>
    rw [List.replicate_succ, List.flatten_cons, Machine.run_append,
      run_workerRound_of_stale hready htask hworker, Option.bind_some, ih]

/-- A task is spawned and polled; its waker fires while the poll runs (or
after it), and the poll completes.  The id left in `READY_IDS` names no
future, and every later pass of the worker puts it back: `READY_IDS` stays
`[0]` and the worker never sleeps. -/
theorem completed_task_wake_spins :
    ∃ e, Machine.run step init [.spawn, .pop, .wake 0, .pollDone true] = some e ∧
      e.readyIds = [0] ∧ e.worker = .poll ∧
      ∀ n, Machine.run step e (List.replicate n workerRound).flatten = some e :=
  ⟨_, rfl, rfl, rfl, run_workerRounds_of_stale rfl rfl rfl⟩

end Executor

end Solaya
