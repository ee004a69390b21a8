/-
A job handed to the loop's thread pool with `run_in_executor`.

The pool starts jobs in the order they were submitted, on as many
threads as it has, so calls that were started may be made in any order.
Cancelling the awaiting task cancels the pool's future when the
cancellation reaches the task's next step: a job that no thread has
taken by then is dropped, a started one runs to completion unobserved.
-/
import Mathlib.Tactic.TypeStar

namespace Asyncio

/-- Where a job stands; a finished one returned, or raised an `ε`. -/
inductive Job (ε : Type*)
  | queued
  | started
  | done (outcome : Except ε Unit)
  | dropped

namespace Job

variable {ε : Type*}

/-- The job's call has not been made, and still may be. -/
def pending : Job ε → Bool
  | queued => true
  | started => true
  | _ => false

/-- A thread takes the job; a dropped one is passed over. -/
def start : Job ε → Job ε
  | queued => started
  | j => j

/-- `concurrent.futures.Future.cancel()`. -/
def cancel : Job ε → Job ε
  | queued => dropped
  | j => j

/-- A job that is taken up is pending as before. -/
@[simp] theorem pending_start (j : Job ε) : j.start.pending = j.pending := by
  cases j <;> rfl

end Job

end Asyncio
