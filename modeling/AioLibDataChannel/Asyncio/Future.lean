/-
Futures of the event loop: a one-shot cell that tasks await.

A future is pending until it is settled, once, by a result, an
exception or a cancellation; every later attempt to settle it is either
skipped by the caller (who asks `done()` first) or refused. `settle` is
the guarded form, so it changes nothing after the first call.

A task that awaits a pending future directly hands its own cancellation
to that future: `cancel` is `settle` with the cancelled outcome, and
every other task awaiting the same future sees it.
-/
import Mathlib.Tactic.TypeStar

namespace Asyncio

/-- How an awaited future, or an awaited call, ends. -/
inductive Outcome (α ε : Type*)
  | returned (value : α)
  | raised (exc : ε)
  | cancelled
deriving DecidableEq, Repr

/-- A future: pending, or settled for good. -/
inductive Future (α ε : Type*)
  | pending
  | settled (o : Outcome α ε)
deriving DecidableEq, Repr

namespace Future

variable {α ε : Type*} {f : Future α ε} {o : Outcome α ε}

/-- `Future.done()`. -/
def done : Future α ε → Bool
  | pending => false
  | settled _ => true

/-- Settle a future unless it is done. -/
def settle (o : Outcome α ε) : Future α ε → Future α ε
  | pending => settled o
  | settled o' => settled o'

/-- `Future.cancel()`: settles a pending future as cancelled. -/
def cancel (f : Future α ε) : Future α ε := f.settle .cancelled

@[simp] theorem done_pending : (pending : Future α ε).done = false := rfl

@[simp] theorem done_settled : (settled o).done = true := rfl

@[simp] theorem settle_pending : (pending : Future α ε).settle o = settled o := rfl

/-- The first outcome of a future is its last. -/
@[simp] theorem settle_settled (o' : Outcome α ε) :
    (settled o').settle o = settled o' := rfl

/-- A future that something settles is done, whoever came first. -/
@[simp] theorem done_settle : (f.settle o).done = true := by
  cases f <;> rfl

@[simp] theorem done_cancel : f.cancel.done = true := done_settle

/-- Settling a done future changes nothing. -/
theorem settle_of_done (hd : f.done = true) : f.settle o = f := by
  cases f with
  | pending => cases hd
  | settled o' => rfl

/-- Cancelling changes nothing exactly when the future is done. -/
theorem cancel_eq_self_iff : f.cancel = f ↔ f.done = true := by
  cases f with
  | pending => simp [cancel]
  | settled o' => simp [cancel]

end Future

end Asyncio
