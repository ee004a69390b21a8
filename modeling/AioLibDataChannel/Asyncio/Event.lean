/-
The event loop's flag with waiters (`asyncio.Event`).

Each waiter parks on a future of its own, so cancelling one says
nothing to the others. `set` raises the flag and wakes every parked
waiter; a woken waiter leaves `wait()` on its next step whatever the
flag says by then. While the flag is up nobody parks, which the
structure carries as a field.
-/
import Mathlib.Data.List.Basic

namespace Asyncio

/-- A flag, the tasks parked in `wait()`, and those already woken that
have not run since. -/
structure Event (ι : Type*) where
  value : Bool
  waiters : List ι
  woken : List ι
  parked_clear : value = true → waiters = []

namespace Event

variable {ι : Type*} [DecidableEq ι]

/-- A fresh event, flag down. -/
def new : Event ι where
  value := false
  waiters := []
  woken := []
  parked_clear := fun _ => rfl

omit [DecidableEq ι] in
@[ext] theorem ext {e e' : Event ι} (hv : e.value = e'.value)
    (hw : e.waiters = e'.waiters) (hk : e.woken = e'.woken) : e = e' := by
  cases e
  cases e'
  simp only [mk.injEq]
  exact ⟨hv, hw, hk⟩

/-- `Event.set()`: raise the flag and wake every parked waiter. -/
def set (e : Event ι) : Event ι where
  value := true
  waiters := []
  woken := e.woken ++ e.waiters
  parked_clear := fun _ => rfl

/-- `Event.clear()`. -/
def clear (e : Event ι) : Event ι where
  value := false
  waiters := e.waiters
  woken := e.woken
  parked_clear := nofun

/-- `Event.wait()` with the flag down: the task parks. With the flag up
the call returns at once and this leaves the event alone. -/
def park (t : ι) (e : Event ι) : Event ι :=
  if h : e.value = true then e
  else
    { value := e.value
      waiters := e.waiters ++ [t]
      woken := e.woken
      parked_clear := fun hv => absurd hv h }

/-- The task leaves `wait()`: woken, or cancelled. -/
def leave (t : ι) (e : Event ι) : Event ι where
  value := e.value
  waiters := e.waiters.erase t
  woken := e.woken.erase t
  parked_clear := fun hv => by rw [e.parked_clear hv]; rfl

omit [DecidableEq ι] in
/-- To wait for an event sets nothing. -/
@[simp] theorem park_value (t : ι) (e : Event ι) : (e.park t).value = e.value := by
  unfold park
  split <;> rfl

omit [DecidableEq ι] in
/-- Raising the flag leaves nobody parked, and everyone who was parked
woken. -/
theorem mem_woken_set {t : ι} {e : Event ι} :
    t ∈ e.set.woken ↔ t ∈ e.woken ∨ t ∈ e.waiters :=
  List.mem_append

/-- A task in `wait()` the event knows of: parked, or woken. -/
def Listed (t : ι) (e : Event ι) : Prop := t ∈ e.waiters ∨ t ∈ e.woken

variable {t u : ι} {e : Event ι}

omit [DecidableEq ι] in
/-- Whoever is listed when the event is set is woken. -/
theorem Listed.set (h : e.Listed t) : e.set.Listed t :=
  Or.inr (mem_woken_set.mpr h.symm)

omit [DecidableEq ι] in
/-- With the flag up whoever is listed has been woken. -/
theorem Listed.woken (h : e.Listed t) (hv : e.value = true) : t ∈ e.woken := by
  rcases h with h | h
  · rw [e.parked_clear hv] at h
    cases h
  · exact h

omit [DecidableEq ι] in
/-- Another waiter takes nobody off the list. -/
theorem Listed.park (h : e.Listed t) : (e.park u).Listed t := by
  unfold Event.park
  split
  · exact h
  · exact h.imp (List.mem_append_left _) id

omit [DecidableEq ι] in
/-- A task that waits for an event that is not set is listed. -/
theorem listed_park_self (hv : e.value = false) : (e.park t).Listed t := by
  rw [Event.park, dif_neg (Bool.eq_false_iff.mp hv)]
  exact Or.inl (List.mem_append_right _ (List.mem_singleton_self t))

/-- A task that leaves takes nobody else off the lists. -/
theorem Listed.leave (h : e.Listed t) (hne : t ≠ u) : (e.leave u).Listed t :=
  h.imp (List.mem_erase_of_ne hne).mpr (List.mem_erase_of_ne hne).mpr

/-- Nobody is woken before the flag is up: an event that is never
cleared stays like this. -/
def Quiet (e : Event ι) : Prop := e.value = false → e.woken = []

omit [DecidableEq ι] in
/-- Nobody was woken by an event that is new. -/
theorem quiet_new : (new : Event ι).Quiet := fun _ => rfl

omit [DecidableEq ι] in
/-- Once the event is set, anybody may have been woken. -/
theorem quiet_set (e : Event ι) : e.set.Quiet := nofun

omit [DecidableEq ι] in
/-- A new waiter has not been woken. -/
theorem Quiet.park (h : e.Quiet) : (e.park t).Quiet := by
  unfold Event.park
  split
  · exact h
  · exact h

/-- A waiter that leaves wakes nobody. -/
theorem Quiet.leave (h : e.Quiet) : (e.leave t).Quiet := by
  intro hv
  show e.woken.erase t = []
  rw [h hv]
  rfl

omit [DecidableEq ι] in
/-- A woken waiter was woken by `set()`. -/
theorem Quiet.raised (h : e.Quiet) (ht : t ∈ e.woken) : e.value = true := by
  by_contra hv
  rw [h (Bool.eq_false_iff.mpr hv)] at ht
  cases ht

end Event

end Asyncio
