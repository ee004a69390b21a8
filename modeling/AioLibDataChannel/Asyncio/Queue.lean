/-
The event loop's FIFO queue with parked consumers (`asyncio.Queue`).

`put_nowait` appends and wakes the oldest parked consumer; `get` takes
the head when there is one and parks otherwise; a woken consumer looks
again when it runs and may find the queue empty. Two facts are carried
by the structure itself:

- `bounded`: a queue with a capacity never exceeds it;
- `attended`: while some consumer is parked, at least as many woken
  consumers are on their way as there are items. This is the no lost
  wake-up property: a parked consumer never sits beside an item that
  nobody is coming for.

A cancelled consumer that was still parked just leaves; one that had
been woken passes its wake-up on (`passOn`) when items remain. Nobody
parks in `put` here: a producer that could block asks `full` first.
-/
import Mathlib.Data.List.Basic

namespace Asyncio

/-- Items in arrival order, consumers parked in `get()`, and consumers
woken that have not run since. A `maxsize` of zero is no bound. -/
structure Queue (α ι : Type*) where
  maxsize : Nat
  items : List α
  getters : List ι
  woken : List ι
  bounded : maxsize = 0 ∨ items.length ≤ maxsize
  attended : getters = [] ∨ items.length ≤ woken.length

namespace Queue

variable {α ι : Type*}

/-- `Queue(maxsize)`. -/
def new (maxsize : Nat) : Queue α ι where
  maxsize := maxsize
  items := []
  getters := []
  woken := []
  bounded := Or.inr (Nat.zero_le _)
  attended := Or.inl rfl

/-- `Queue.full()`. -/
def full (q : Queue α ι) : Bool :=
  decide (0 < q.maxsize ∧ q.maxsize ≤ q.items.length)

/-- A full queue holds exactly its capacity. -/
theorem full_iff {q : Queue α ι} :
    q.full = true ↔ 0 < q.maxsize ∧ q.items.length = q.maxsize := by
  rw [full, decide_eq_true_eq]
  rcases q.bounded with h | h <;> omega

/-- A queue with room has no bound, or fewer items than its bound. -/
theorem full_eq_false_iff {q : Queue α ι} :
    q.full = false ↔ q.maxsize = 0 ∨ q.items.length < q.maxsize := by
  rw [full, decide_eq_false_iff_not]
  omega

/-- A full queue is not empty. -/
theorem items_ne_nil_of_full {q : Queue α ι} (h : q.full = true) :
    q.items ≠ [] := by
  intro hnil
  rw [full_iff, hnil] at h
  simp only [List.length_nil] at h
  omega

-- =========================================================== producers

/-- Append `x` and wake the oldest parked consumer, if any. -/
def push (x : α) (q : Queue α ι) (h : q.full = false) : Queue α ι where
  maxsize := q.maxsize
  items := q.items ++ [x]
  getters := q.getters.tail
  woken := q.woken ++ q.getters.take 1
  bounded := by
    rw [full_eq_false_iff] at h
    rw [List.length_append, List.length_singleton]
    omega
  attended := by
    have hat := q.attended
    cases hg : q.getters with
    | nil => exact Or.inl rfl
    | cons t rest =>
        rw [hg] at hat
        right
        simp only [List.length_append, List.take_succ_cons, List.take_zero,
          List.length_singleton]
        rcases hat with hat | hat
        · cases hat
        · omega

/-- `Queue.put_nowait(x)`: `none` is `QueueFull`. -/
def putNowait (x : α) (q : Queue α ι) : Option (Queue α ι) :=
  if h : q.full = false then some (q.push x h) else none

/-- `put_nowait` under `suppress(QueueFull)`: a full queue loses `x`. -/
def putSuppressed (x : α) (q : Queue α ι) : Queue α ι :=
  (q.putNowait x).getD q

/-- A queue with room takes the item. -/
theorem putNowait_of_room {x : α} {q : Queue α ι} (h : q.full = false) :
    q.putNowait x = some (q.push x h) := by
  rw [putNowait, dif_pos h]

/-- A full queue raises `QueueFull`. -/
theorem putNowait_of_full {x : α} {q : Queue α ι} (h : q.full = true) :
    q.putNowait x = none := by
  rw [putNowait, dif_neg ((Bool.not_eq_false _).mpr h)]

/-- The item goes to the end. -/
@[simp] theorem push_items (x : α) (q : Queue α ι) (h : q.full = false) :
    (q.push x h).items = q.items ++ [x] := rfl

@[simp] theorem push_maxsize (x : α) (q : Queue α ι) (h : q.full = false) :
    (q.push x h).maxsize = q.maxsize := rfl

/-- What a suppressed put leaves in the queue. -/
theorem putSuppressed_items (x : α) (q : Queue α ι) :
    (q.putSuppressed x).items
      = if q.full = true then q.items else q.items ++ [x] := by
  unfold putSuppressed
  cases hf : q.full with
  | true => simp [putNowait_of_full hf]
  | false => simp [putNowait_of_room hf]

@[simp] theorem putSuppressed_maxsize (x : α) (q : Queue α ι) :
    (q.putSuppressed x).maxsize = q.maxsize := by
  unfold putSuppressed
  cases hf : q.full with
  | true => simp [putNowait_of_full hf]
  | false => simp [putNowait_of_room hf]

-- =========================================================== consumers

/-- The queue without its head. -/
def drop (q : Queue α ι) : Queue α ι where
  maxsize := q.maxsize
  items := q.items.tail
  getters := q.getters
  woken := q.woken
  bounded := by
    rw [List.length_tail]
    rcases q.bounded with h | h <;> omega
  attended := by
    rw [List.length_tail]
    rcases q.attended with h | h
    · exact Or.inl h
    · omega

/-- The oldest item is the one that goes. -/
@[simp] theorem drop_items (q : Queue α ι) : q.drop.items = q.items.tail := rfl

@[simp] theorem drop_maxsize (q : Queue α ι) : q.drop.maxsize = q.maxsize := rfl

/-- `Queue.get_nowait()`: `none` is `QueueEmpty`. -/
def getNowait (q : Queue α ι) : Option (α × Queue α ι) :=
  match q.items with
  | [] => none
  | x :: _ => some (x, q.drop)

/-- `get_nowait()` returns the oldest item. -/
theorem getNowait_eq_some {q q' : Queue α ι} {x : α}
    (h : q.getNowait = some (x, q')) : q.items = x :: q'.items ∧ q' = q.drop := by
  unfold getNowait at h
  cases hi : q.items with
  | nil => rw [hi] at h; cases h
  | cons y rest =>
      rw [hi] at h
      simp only [Option.some.injEq, Prod.mk.injEq] at h
      obtain ⟨rfl, rfl⟩ := h
      refine ⟨?_, rfl⟩
      rw [drop_items, hi, List.tail_cons]

/-- `get_nowait()` raises `QueueEmpty` only over an empty queue. -/
theorem getNowait_eq_none {q : Queue α ι} :
    q.getNowait = none ↔ q.items = [] := by
  unfold getNowait
  cases q.items <;> simp

/-- Taking an item makes room: the queue it leaves is not full. -/
theorem full_of_getNowait {q q' : Queue α ι} {x : α}
    (h : q.getNowait = some (x, q')) : q'.full = false := by
  obtain ⟨hi, hq'⟩ := getNowait_eq_some h
  have hm : q'.maxsize = q.maxsize := by rw [hq']; rfl
  have hb := q.bounded
  rw [hi, List.length_cons] at hb
  rw [full_eq_false_iff, hm]
  omega

/-- `get()` on an empty queue: the consumer parks. With items the call
takes one at once and this leaves the queue alone. -/
def park (t : ι) (q : Queue α ι) : Queue α ι :=
  if h : q.items = [] then
    { maxsize := q.maxsize
      items := q.items
      getters := q.getters ++ [t]
      woken := q.woken
      bounded := q.bounded
      attended := by
        right
        rw [h]
        exact Nat.zero_le _ }
  else q

variable [DecidableEq ι]

/-- A parked consumer leaves: its `get()` was cancelled. -/
def unpark (t : ι) (q : Queue α ι) : Queue α ι where
  maxsize := q.maxsize
  items := q.items
  getters := q.getters.erase t
  woken := q.woken
  bounded := q.bounded
  attended := by
    rcases q.attended with h | h
    · left
      rw [h]
      rfl
    · exact Or.inr h

/-- A woken consumer takes the head and is gone. -/
def takeWoken (t : ι) (q : Queue α ι) : Queue α ι :=
  if ht : t ∈ q.woken then
    { maxsize := q.maxsize
      items := q.items.tail
      getters := q.getters
      woken := q.woken.erase t
      bounded := by
        rw [List.length_tail]
        rcases q.bounded with h | h <;> omega
      attended := by
        rw [List.length_tail, List.length_erase_of_mem ht]
        rcases q.attended with h | h
        · exact Or.inl h
        · omega }
  else q

/-- A woken consumer that finds the queue empty parks again. -/
def repark (t : ι) (q : Queue α ι) : Queue α ι :=
  if h : q.items = [] then
    { maxsize := q.maxsize
      items := q.items
      getters := q.getters ++ [t]
      woken := q.woken.erase t
      bounded := q.bounded
      attended := by
        right
        rw [h]
        exact Nat.zero_le _ }
  else q

/-- A woken consumer is cancelled: it passes its wake-up to the next
parked consumer when items remain. -/
def passOn (t : ι) (q : Queue α ι) : Queue α ι :=
  if ht : t ∈ q.woken then
    { maxsize := q.maxsize
      items := q.items
      getters := if q.items = [] then q.getters else q.getters.tail
      woken := q.woken.erase t ++ (if q.items = [] then [] else q.getters.take 1)
      bounded := q.bounded
      attended := by
        have hlen := List.length_erase_of_mem ht
        have hpos := List.length_pos_of_mem ht
        cases hi : q.items with
        | nil => simp
        | cons x rest =>
            have hat := q.attended
            cases hg : q.getters with
            | nil => simp
            | cons u us =>
                rw [hg, hi] at hat
                right
                simp only [List.length_append, List.take_succ_cons,
                  List.take_zero, List.length_singleton, reduceCtorEq, if_false]
                rcases hat with hat | hat
                · cases hat
                · omega }
  else q

omit [DecidableEq ι] in
/-- Waiting takes no item. -/
@[simp] theorem park_items (t : ι) (q : Queue α ι) : (q.park t).items = q.items := by
  unfold park
  split <;> rfl

omit [DecidableEq ι] in
@[simp] theorem park_maxsize (t : ι) (q : Queue α ι) :
    (q.park t).maxsize = q.maxsize := by
  unfold park
  split <;> rfl

/-- Waiting again takes none either. -/
@[simp] theorem repark_items (t : ι) (q : Queue α ι) :
    (q.repark t).items = q.items := by
  unfold repark
  split <;> rfl

@[simp] theorem repark_maxsize (t : ι) (q : Queue α ι) :
    (q.repark t).maxsize = q.maxsize := by
  unfold repark
  split <;> rfl

/-- A cancelled consumer leaves the items where they are. -/
@[simp] theorem passOn_items (t : ι) (q : Queue α ι) :
    (q.passOn t).items = q.items := by
  unfold passOn
  split <;> rfl

@[simp] theorem passOn_maxsize (t : ι) (q : Queue α ι) :
    (q.passOn t).maxsize = q.maxsize := by
  unfold passOn
  split <;> rfl

@[simp] theorem takeWoken_maxsize (t : ι) (q : Queue α ι) :
    (q.takeWoken t).maxsize = q.maxsize := by
  unfold takeWoken
  split <;> rfl

/-- A woken consumer takes the oldest item. -/
theorem takeWoken_items {t : ι} {q : Queue α ι} (ht : t ∈ q.woken) :
    (q.takeWoken t).items = q.items.tail := by
  rw [takeWoken, dif_pos ht]

/-- A consumer that took an item left room behind. -/
theorem full_takeWoken {t : ι} {q : Queue α ι} (ht : t ∈ q.woken)
    (hne : q.items ≠ []) : (q.takeWoken t).full = false := by
  have hb := q.bounded
  have hpos := List.length_pos_iff.mpr hne
  rw [full_eq_false_iff, takeWoken_maxsize, takeWoken_items ht, List.length_tail]
  omega

end Queue

end Asyncio
