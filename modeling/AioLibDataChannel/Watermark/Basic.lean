/-
A flag driven by an edge-triggered watermark.

A producer fills a buffer and a consumer on another thread drains it.
The producer lowers a flag to hold itself back; a signal, fired when a
drain takes the amount from above the threshold to at or below it and
delivered some time later, raises the flag again. Nothing else raises
it, so the scheme is sound while a lowered flag has a signal to come:
the amount is still above the threshold, or a signal is in flight
(`Pending`).

Filling, draining and delivering keep that. The two actions that can
break it are lowering the flag and moving the threshold, and both are
judged by the gauge they leave.
-/
import Mathlib.Tactic.TypeStar

/-- The amount in the buffer, the threshold, the flag, and the signals
in flight. -/
structure Gauge where
  amount : Nat
  threshold : Nat
  flag : Bool
  signals : Nat
deriving DecidableEq, Repr

namespace Gauge

/-- Fill, drain, deliver a signal, raise or lower the flag by hand, move
the threshold. -/
inductive Action
  | fill (k : Nat)
  | drain (k : Nat)
  | deliver
  | raise
  | lower
  | moveThreshold (n : Nat)
deriving DecidableEq, Repr

/-- A drain of `k` crosses the threshold from above. -/
def crosses (k : Nat) (g : Gauge) : Bool :=
  decide (g.threshold < g.amount ∧ g.amount - k ≤ g.threshold)

def step : Action → Gauge → Gauge
  | .fill k, g => { g with amount := g.amount + k }
  | .drain k, g =>
      { g with
        amount := g.amount - k
        signals := if g.crosses k then g.signals + 1 else g.signals }
  | .deliver, g => { g with signals := g.signals - 1, flag := true }
  | .raise, g => { g with flag := true }
  | .lower, g => { g with flag := false }
  | .moveThreshold n, g => { g with threshold := n }

/-- A signal is in flight, or draining will send one. -/
def Pending (g : Gauge) : Prop := g.threshold < g.amount ∨ 0 < g.signals

instance (g : Gauge) : Decidable g.Pending := by
  unfold Pending
  infer_instance

variable {g : Gauge}

/-- Draining sends the signal it owes, and no other: whether one is to
come does not change. -/
theorem pending_drain_iff (k : Nat) : (step (.drain k) g).Pending ↔ g.Pending := by
  show g.threshold < g.amount - k
      ∨ 0 < (if g.crosses k then g.signals + 1 else g.signals) ↔ _
  unfold Pending
  by_cases hc : g.crosses k = true
  · have hcross : g.threshold < g.amount ∧ g.amount - k ≤ g.threshold :=
      of_decide_eq_true hc
    rw [if_pos hc]
    omega
  · have hcross : ¬ (g.threshold < g.amount ∧ g.amount - k ≤ g.threshold) :=
      fun h => hc (decide_eq_true h)
    rw [if_neg hc]
    omega

/-- A fuller buffer has its signal coming still. -/
theorem pending_fill (k : Nat) (h : g.Pending) : (step (.fill k) g).Pending := by
  rcases h with h | h
  · exact Or.inl (Nat.lt_of_lt_of_le h (Nat.le_add_right _ _))
  · exact Or.inr h

/-- A drain down to the threshold sends a signal, if the amount was
above. -/
theorem signals_drain (h : g.threshold < g.amount) :
    (step (.drain (g.amount - g.threshold)) g).signals = g.signals + 1 := by
  have hc : g.crosses (g.amount - g.threshold) = true :=
    decide_eq_true ⟨h, by omega⟩
  show (if g.crosses (g.amount - g.threshold) then g.signals + 1 else g.signals) = _
  rw [if_pos hc]

end Gauge
