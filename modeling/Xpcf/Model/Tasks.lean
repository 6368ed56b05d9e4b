import Xpcf.CodeLib.Steps

/-!
# Delegate tasks

A `DelegateTask` (`xpcf/threading/BaseTask.h`, `BaseTask.cpp`) runs a function over and
over in a thread of its own, until it is stopped.  One thread owns the task and calls
its methods one after the other.  Each `start` makes a worker, a thread that runs
`process()` beside the owner; the scheduler chooses who takes the next step.

The function does not touch the task, and it returns.  The constructor with a stop
predicate keeps a reference to its own parameter, so its tasks are left out.
-/

namespace Xpcf

open CodeLib

/-- Where a worker is in `process()`. -/
inductive WorkerPhase where
  /-- Before `signalRunning()`. -/
  | signalling
  /-- Before the test of the loop. -/
  | testing
  /-- In `m_processFunc()`. -/
  | processing
  | finished
  deriving DecidableEq

/-- Where the owner is. -/
inductive OwnerPhase where
  | outside
  /-- In `start()`, behind `m_stop = false`. -/
  | renewing
  /-- Before the thread is made. -/
  | launching
  /-- The new thread runs, and is not yet assigned to `m_thread`. -/
  | assigning (worker : Nat)
  /-- In `cleanup()` of `stop()`, before these finalizers. -/
  | cleaning (finalizers : List Nat)
  /-- In `m_thread.join()`. -/
  | joining
  /-- In `m_startedFuture.wait()`, for the promise. -/
  | awaiting (promise : Nat)
  /-- The task was destroyed. -/
  | gone
  deriving DecidableEq

/-- The members, the workers in the order in which they were made, and where everybody
is.  Promises are numbered: `m_startedPromise` is the newest. -/
structure DelegateTask where
  joinable : Bool
  stop : Bool
  /-- The fifos of `m_finalizers`, numbered. -/
  finalizers : List Nat
  promise : Nat
  /-- The promise of `m_startedFuture`. -/
  future : Option Nat
  /-- The promises that have their value. -/
  satisfied : List Nat
  /-- The worker of `m_thread`, if that is joinable. -/
  thread : Option Nat
  workers : List WorkerPhase
  owner : OwnerPhase
  /-- The fifos that `cleanup()` released. -/
  released : List Nat
  /-- `std::terminate` was called. -/
  terminated : Bool
  deriving DecidableEq

inductive TaskAction where
  | start
  | stop
  | awaitRunning
  | declareFinalizer (fifo : Nat)
  | destroy
  /-- The owner takes the next step of its call. -/
  | resume
  /-- The worker takes its next step. -/
  | work (worker : Nat)
  deriving DecidableEq

namespace DelegateTask

def new (joinable : Bool) : DelegateTask where
  joinable := joinable
  stop := false
  finalizers := []
  promise := 0
  future := none
  satisfied := []
  thread := none
  workers := []
  owner := .outside
  released := []
  terminated := false

/-- The owner calls a method; an assignment to a thread that is joinable, and the end of
one, terminate the program.  A wait before the first `start` has no promise to wait for,
and is undefined. -/
def call (s : DelegateTask) : TaskAction → Option DelegateTask
  | .start => some { s with stop := false, owner := .renewing }
  | .stop => some { s with stop := true, owner := .cleaning s.finalizers }
  | .awaitRunning =>
    if s.stop then some s else s.future.map fun promise => { s with owner := .awaiting promise }
  | .declareFinalizer fifo => some { s with finalizers := s.finalizers ++ [fifo] }
  | .destroy =>
    if s.thread.isSome then some { s with terminated := true } else some { s with owner := .gone }
  | .resume => none
  | .work _ => none

/-- The owner goes on in its call. -/
def resume (s : DelegateTask) : Option DelegateTask :=
  match s.owner with
  | .renewing =>
    some { s with
      promise := s.promise + 1
      future := some (s.promise + 1)
      owner := .launching }
  | .launching =>
    some { s with
      workers := s.workers ++ [.signalling]
      owner := .assigning s.workers.length }
  | .assigning worker =>
    if s.thread.isSome then some { s with terminated := true }
    else
      some { s with
        thread := if s.joinable then some worker else none
        owner := .outside }
  | .cleaning (fifo :: rest) =>
    some { s with released := s.released ++ [fifo], owner := .cleaning rest }
  | .cleaning [] =>
    some { s with owner := if s.joinable && s.thread.isSome then .joining else .outside }
  | .joining =>
    match s.thread with
    | some worker =>
      if s.workers[worker]? = some .finished then
        some { s with thread := none, owner := .outside }
      else none
    | none => none
  | .awaiting promise => if promise ∈ s.satisfied then some { s with owner := .outside } else none
  | .outside => none
  | .gone => none

/-- The worker goes on in `process()`.  To give a promise a second value throws, and
nothing catches that. -/
def work (s : DelegateTask) (worker : Nat) : Option DelegateTask :=
  match s.workers[worker]? with
  | some .signalling =>
    if s.promise ∈ s.satisfied then some { s with terminated := true }
    else
      some { s with
        satisfied := s.promise :: s.satisfied
        workers := s.workers.set worker .testing }
  | some .testing =>
    some { s with
      workers := s.workers.set worker (if s.stop then .finished else .processing) }
  | some .processing => some { s with workers := s.workers.set worker .testing }
  | some .finished => none
  | none => none

/-- One step, while the program runs; a worker of a task that is gone has no members to
use. -/
def step (s : DelegateTask) (a : TaskAction) : Option DelegateTask :=
  if s.terminated ∨ s.owner = .gone then none
  else
    match a with
    | .resume => s.resume
    | .work worker => s.work worker
    | _ => if s.owner = .outside then s.call a else none

end DelegateTask

end Xpcf
