/-
`FutureSlot` of `_loop.py`: a latched future that can be re-armed.

`reset` abandons the current future — cancelling it if it is still
pending — and starts a fresh one. A coroutine that was already awaiting
keeps the future it got, so the slot remembers the abandoned ones by
number: `ticket` is the number a coroutine takes when it starts to
await, `nth` what that number has come to. Abandoned futures are all
done, and the structure says so.
-/
import AioLibDataChannel.Asyncio.Future
import Mathlib.Data.List.GetD

namespace AioLibDataChannel

open Asyncio (Future Outcome)

/-- The current future and the ones `reset` abandoned, oldest first. -/
structure FutureSlot (α ε : Type*) where
  past : List (Future α ε)
  future : Future α ε
  past_done : ∀ f ∈ past, f.done = true

namespace FutureSlot

variable {α ε : Type*}

/-- `FutureSlot(loop)`. -/
def new : FutureSlot α ε where
  past := []
  future := .pending
  past_done := nofun

/-- `FutureSlot.set`: ignored once the future is done. -/
def set (value : α) (slot : FutureSlot α ε) : FutureSlot α ε :=
  { slot with future := slot.future.settle (.returned value) }

/-- `FutureSlot.fail`: ignored once the future is done. -/
def fail (exc : ε) (slot : FutureSlot α ε) : FutureSlot α ε :=
  { slot with future := slot.future.settle (.raised exc) }

/-- A task awaiting the current future was cancelled, and its
cancellation reached the future. -/
def cancel (slot : FutureSlot α ε) : FutureSlot α ε :=
  { slot with future := slot.future.cancel }

/-- `FutureSlot.reset`: abandon the current future, cancelled if it was
pending, for a fresh one. -/
def reset (slot : FutureSlot α ε) : FutureSlot α ε where
  past := slot.past ++ [slot.future.cancel]
  future := .pending
  past_done := by
    intro f hf
    rcases List.mem_append.mp hf with hf | hf
    · exact slot.past_done f hf
    · rw [List.mem_singleton.mp hf]
      exact Future.done_cancel

/-- The number of the current future. -/
def ticket (slot : FutureSlot α ε) : Nat := slot.past.length

/-- The future with number `n`. -/
def nth (slot : FutureSlot α ε) (n : Nat) : Future α ε :=
  slot.past.getD n slot.future

/-- A reset slot has the next ticket. -/
@[simp] theorem reset_ticket (slot : FutureSlot α ε) :
    slot.reset.ticket = slot.ticket + 1 :=
  List.length_append

/-- An older ticket reads a future that is done. -/
theorem nth_done_of_lt {slot : FutureSlot α ε} {n : Nat} (h : n < slot.ticket) :
    (slot.nth n).done = true := by
  rw [FutureSlot.nth, List.getD_eq_getElem _ _ h]
  exact slot.past_done _ (List.getElem_mem h)

/-- From the current ticket on, the slot reads its current future. -/
theorem nth_of_ticket_le {slot : FutureSlot α ε} {n : Nat} (h : slot.ticket ≤ n) :
    slot.nth n = slot.future := by
  rw [FutureSlot.nth, List.getD_eq_default _ _ h]

/-- Once the current future is done, every ticket reads one that is. -/
theorem nth_done_of_done {slot : FutureSlot α ε} (h : slot.future.done = true)
    (n : Nat) : (slot.nth n).done = true := by
  by_cases hn : n < slot.ticket
  · exact nth_done_of_lt hn
  · rw [nth_of_ticket_le (Nat.le_of_not_lt hn)]
    exact h

-- =========================================================== the order

/-- `slot'` comes after `slot`: no ticket is taken back, and what a
ticket read as done stays so. -/
structure Later (slot slot' : FutureSlot α ε) : Prop where
  ticket : slot.ticket ≤ slot'.ticket
  done : ∀ n, n ≤ slot.ticket → (slot.nth n).done = true → (slot'.nth n).done = true

/-- A slot comes after itself. -/
theorem Later.refl (slot : FutureSlot α ε) : Later slot slot where
  ticket := Nat.le_refl _
  done := fun _ _ hd => hd

/-- What comes after a later slot comes later. -/
theorem Later.trans {slot₁ slot₂ slot₃ : FutureSlot α ε} (h₁ : Later slot₁ slot₂)
    (h₂ : Later slot₂ slot₃) : Later slot₁ slot₃ where
  ticket := Nat.le_trans h₁.ticket h₂.ticket
  done := fun n hn hd => h₂.done n (Nat.le_trans hn h₁.ticket) (h₁.done n hn hd)

/-- Settling the current future moves a slot forward. -/
theorem later_settle (slot : FutureSlot α ε) (o : Outcome α ε) :
    Later slot { slot with future := slot.future.settle o } where
  ticket := Nat.le_refl _
  done := by
    intro n _ hd
    by_cases hn : n < slot.ticket
    · exact nth_done_of_lt hn
    · exact nth_done_of_done Future.done_settle n

/-- So does abandoning it. -/
theorem later_reset (slot : FutureSlot α ε) : Later slot slot.reset where
  ticket := by
    rw [reset_ticket]
    exact Nat.le_succ _
  done := by
    intro n hn _
    apply nth_done_of_lt
    rw [reset_ticket]
    exact Nat.lt_succ_of_le hn

-- ========================================================= where results are from

/-- `slot'` holds no result that `slot` did not hold. -/
def Silent (slot slot' : FutureSlot α ε) : Prop :=
  ∀ n v, slot'.nth n = .settled (.returned v) → slot.nth n = .settled (.returned v)

/-- A slot that stays has returned nothing new. -/
theorem Silent.refl (slot : FutureSlot α ε) : Silent slot slot := fun _ _ h => h

/-- Two silent steps are silent. -/
theorem Silent.trans {slot₁ slot₂ slot₃ : FutureSlot α ε} (h₁ : Silent slot₁ slot₂)
    (h₂ : Silent slot₂ slot₃) : Silent slot₁ slot₃ :=
  fun n v h => h₁ n v (h₂ n v h)

/-- Settling the current future gives a result only to the tickets that
read it, and only if it was pending. -/
theorem nth_settle {slot : FutureSlot α ε} {o : Outcome α ε} {n : Nat} {v : α}
    (h : ({ slot with future := slot.future.settle o } : FutureSlot α ε).nth n
      = .settled (.returned v)) :
    slot.nth n = .settled (.returned v)
      ∨ (slot.future = .pending ∧ slot.ticket ≤ n ∧ o = .returned v) := by
  by_cases hn : n < slot.ticket
  · left
    rw [← h, nth, nth, List.getD_eq_getElem _ _ hn, List.getD_eq_getElem _ _ hn]
  · have hle : slot.ticket ≤ n := Nat.le_of_not_lt hn
    have hnth : ({ slot with future := slot.future.settle o } : FutureSlot α ε).nth n
        = slot.future.settle o := nth_of_ticket_le hle
    have hread := hnth.symm.trans h
    rw [nth_of_ticket_le hle]
    cases hf : slot.future with
    | pending =>
        rw [hf] at hread
        exact Or.inr ⟨rfl, hle, Future.settled.inj hread⟩
    | settled o' =>
        rw [hf] at hread
        exact Or.inl hread

/-- A result reaches the tickets that read a pending future. -/
theorem nth_set_of_pending {slot : FutureSlot α ε} {n : Nat} (v : α)
    (h : (slot.nth n).done = false) : (slot.set v).nth n = .settled (.returned v) := by
  have hle : slot.ticket ≤ n := Nat.le_of_not_lt fun hlt =>
    Bool.false_ne_true (h.symm.trans (nth_done_of_lt hlt))
  have hnth : (slot.set v).nth n = slot.future.settle (.returned v) := nth_of_ticket_le hle
  rw [nth_of_ticket_le hle] at h
  rw [hnth]
  cases hf : slot.future with
  | pending => rfl
  | settled o =>
      rw [hf] at h
      cases h

/-- A pending ticket reads the current future, which is pending. -/
theorem future_of_nth {slot : FutureSlot α ε} {n : Nat} (h : (slot.nth n).done = false) :
    slot.future.done = false := by
  rw [← h]
  by_cases hn : n < slot.ticket
  · exact absurd (h.symm.trans (nth_done_of_lt hn)) Bool.false_ne_true
  · rw [nth_of_ticket_le (Nat.le_of_not_lt hn)]

/-- A future that is settled without a result returns nothing. -/
theorem silent_settle {o : Outcome α ε} (ho : ∀ v, o ≠ .returned v)
    (slot : FutureSlot α ε) : Silent slot { slot with future := slot.future.settle o } :=
  fun _ v h => (nth_settle h).resolve_right fun hset => ho v hset.2.2

/-- A cancelled slot returns nothing. -/
theorem silent_cancel (slot : FutureSlot α ε) : Silent slot slot.cancel :=
  silent_settle (o := .cancelled) (fun _ => nofun) slot

/-- A failed slot returns nothing. -/
theorem silent_fail (exc : ε) (slot : FutureSlot α ε) : Silent slot (slot.fail exc) :=
  silent_settle (o := .raised exc) (fun _ => nofun) slot

/-- A reset slot returns nothing. -/
theorem silent_reset (slot : FutureSlot α ε) : Silent slot slot.reset := by
  intro n v h
  rcases Nat.lt_trichotomy n slot.ticket with hn | rfl | hn
  · rw [← h, nth, nth, List.getD_eq_getElem _ _ hn]
    show _ = (slot.past ++ [slot.future.cancel]).getD n _
    rw [List.getD_append _ _ _ _ hn, List.getD_eq_getElem _ _ hn]
  · -- the abandoned future is read as it was left
    have hread : slot.reset.nth slot.ticket = slot.future.cancel := by
      show (slot.past ++ [slot.future.cancel]).getD slot.past.length _ = _
      rw [List.getD_append_right _ _ _ _ (Nat.le_refl _), Nat.sub_self]
      rfl
    rw [hread] at h
    rw [nth_of_ticket_le (Nat.le_refl _)]
    cases hf : slot.future with
    | pending =>
        rw [hf] at h
        cases h
    | settled o =>
        rw [hf] at h
        exact h
  · rw [nth_of_ticket_le (by rw [reset_ticket]; exact hn)] at h
    cases h

-- ======================================================== where failures are from

/-- What number `n` failed with: an exception, or a cancellation
(`none`). -/
def failed (slot : FutureSlot α ε) (n : Nat) : Option (Option ε) :=
  match slot.nth n with
  | .settled (.raised exc) => some (some exc)
  | .settled .cancelled => some none
  | _ => none

/-- A pending future has not failed. -/
theorem failed_of_pending {slot : FutureSlot α ε} {n : Nat} (h : slot.nth n = .pending) :
    slot.failed n = none := by
  rw [failed, h]

/-- Settling fails what is pending, with its own outcome. -/
theorem failed_settle {slot : FutureSlot α ε} {o : Outcome α ε} {n : Nat} {x : Option ε}
    (h : ({ slot with future := slot.future.settle o } : FutureSlot α ε).failed n = some x) :
    slot.failed n = some x ∨ ((slot.nth n).done = false
      ∧ ((∃ exc, o = .raised exc ∧ x = some exc) ∨ (o = .cancelled ∧ x = none))) := by
  by_cases hn : n < slot.ticket
  · have hread : ({ slot with future := slot.future.settle o } : FutureSlot α ε).nth n
        = slot.nth n := by
      rw [nth, nth, List.getD_eq_getElem _ _ hn, List.getD_eq_getElem _ _ hn]
    rw [failed, hread] at h
    exact Or.inl h
  · have hle : slot.ticket ≤ n := Nat.le_of_not_lt hn
    have hnth : ({ slot with future := slot.future.settle o } : FutureSlot α ε).nth n
        = slot.future.settle o := nth_of_ticket_le hle
    rw [failed, hnth] at h
    rw [failed, nth_of_ticket_le hle]
    cases hf : slot.future with
    | settled o' =>
        rw [hf] at h
        exact Or.inl h
    | pending =>
        rw [hf] at h
        right
        refine ⟨rfl, ?_⟩
        cases o with
        | returned v => cases h
        | raised exc =>
            cases h
            exact Or.inl ⟨exc, rfl, rfl⟩
        | cancelled =>
            cases h
            exact Or.inr ⟨rfl, rfl⟩

/-- Abandoning cancels the current future if it was pending. -/
theorem failed_reset {slot : FutureSlot α ε} {n : Nat} {x : Option ε}
    (h : slot.reset.failed n = some x) :
    slot.failed n = some x ∨ ((slot.nth n).done = false ∧ n = slot.ticket ∧ x = none) := by
  rcases Nat.lt_trichotomy n slot.ticket with hn | rfl | hn
  · -- an older future is not touched
    have hread : slot.reset.nth n = slot.nth n := by
      show (slot.past ++ [slot.future.cancel]).getD n _ = _
      rw [List.getD_append _ _ _ _ hn, nth, List.getD_eq_getElem _ _ hn,
        List.getD_eq_getElem _ _ hn]
    rw [failed, hread] at h
    exact Or.inl h
  · -- the abandoned future is read as it was left
    have hread : slot.reset.nth slot.ticket = slot.future.cancel := by
      show (slot.past ++ [slot.future.cancel]).getD slot.past.length _ = _
      rw [List.getD_append_right _ _ _ _ (Nat.le_refl _), Nat.sub_self]
      rfl
    rw [failed, hread] at h
    rw [failed, nth_of_ticket_le (Nat.le_refl _)]
    cases hf : slot.future with
    | pending =>
        rw [hf] at h
        cases h
        exact Or.inr ⟨rfl, rfl, rfl⟩
    | settled o =>
        rw [hf] at h
        exact Or.inl h
  · rw [failed_of_pending (nth_of_ticket_le (by rw [reset_ticket]; exact hn))] at h
    cases h

end FutureSlot

end AioLibDataChannel
