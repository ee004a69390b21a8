/-
A stream over an unbounded queue, ended by a marker that its consumers
hand on.

Producers put items, and at any time a marker (`none`). A consumer takes
from the head; one that takes the marker puts it back for the next
consumer and is finished. A consumer either goes on after an item
(an iterator) or is finished with it (a single read): `once` says which.

# The law

Items leave in the order they came, each to one consumer, and handing
the marker on disturbs nothing: what the consumers took, followed by
what is queued, is what was put (`exec_conserves`).

# The end

A marker once put is there for good (`marked_step`), and that is all it
takes to end the stream for everybody: whoever begins to read is served
at once, whoever waits can be run to the end of its wait, and a sole
consumer gets what stands ahead of the marker and then the end
(`Terminated`).
-/
import AioLibDataChannel.Asyncio.Consumers
import AioLibDataChannel.Transition.Run
import Mathlib.Data.List.ReduceOption

namespace Asyncio

open Function (update)
open Transition (exec)

/-- Where a consumer stands: between two reads, in `get()`, or past its
last one. -/
inductive Reader
  | idle
  | inGet
  | finished
deriving DecidableEq, Repr

/-- What a read comes to. -/
inductive Seen (α : Type*)
  | item (x : α)
  | ended
  | cancelled
deriving DecidableEq, Repr

/-- The item that was seen. -/
def Seen.toItem? {α : Type*} : Seen α → Option α
  | .item x => some x
  | _ => none

/-- The queue, its consumers, the cancellations owed to them, and what
they saw, oldest first. -/
structure Relay (α ι : Type*) where
  queue : Queue (Option α) ι
  reader : ι → Reader
  owed : ι → Bool
  seen : List (ι × Seen α)

namespace Relay

variable {α ι : Type*} [DecidableEq ι]

/-- Nothing put, everybody idle. -/
def new : Relay α ι where
  queue := Queue.new 0
  reader := fun _ => .idle
  owed := fun _ => false
  seen := []

/-- `put_nowait(x)`, or `put_nowait(None)`. -/
def put (e : Option α) (r : Relay α ι) : Relay α ι :=
  { r with queue := r.queue.putSuppressed e }

/-- The consumer's read ends. -/
def sees (t : ι) (st : Reader) (s : Seen α) (r : Relay α ι) : Relay α ι :=
  { r with reader := update r.reader t st, seen := r.seen ++ [(t, s)] }

/-- The consumer took this off the queue; the marker goes back. -/
def received (once : ι → Bool) (t : ι) (r : Relay α ι) : Option α → Relay α ι
  | some x => r.sees t (if once t then .finished else .idle) (.item x)
  | none => (r.put none).sees t .finished .ended

/-- A read begins. A cancellation the consumer is owed reaches it when it
parks. -/
def get (once : ι → Bool) (t : ι) (r : Relay α ι) : Option (Relay α ι) :=
  match r.reader t with
  | .idle =>
      match r.queue.getNowait with
      | some (e, q) => some (({ r with queue := q } : Relay α ι).received once t e)
      | none =>
          some { r with
            queue := if r.owed t then (r.queue.park t).unpark t else r.queue.park t
            reader := update r.reader t .inGet }
  | _ => none

/-- A consumer in `get()` runs: it is cancelled, takes the head, or finds
the queue empty and parks again. -/
def resume (once : ι → Bool) (t : ι) (r : Relay α ι) : Option (Relay α ι) :=
  match r.reader t with
  | .inGet =>
      if r.owed t then
        some (({ r with
          queue := r.queue.passOn t
          owed := update r.owed t false } : Relay α ι).sees t .finished .cancelled)
      else if t ∈ r.queue.woken then
        match r.queue.items with
        | [] => some { r with queue := r.queue.repark t }
        | e :: _ =>
            some (({ r with queue := r.queue.takeWoken t } : Relay α ι).received once t e)
      else none
  | _ => none

/-- The consumer's task is cancelled. -/
def cancel (t : ι) (r : Relay α ι) : Relay α ι :=
  match r.reader t with
  | .inGet => { r with queue := r.queue.unpark t, owed := update r.owed t true }
  | .idle => { r with owed := update r.owed t true }
  | .finished => r

/-- The cancellation reaches the task between two reads. -/
def absorb (t : ι) (r : Relay α ι) : Option (Relay α ι) :=
  match r.reader t with
  | .idle => some { r with owed := update r.owed t false }
  | _ => none

/-- What happens to a stream. -/
inductive Action (α ι : Type*)
  | put (e : Option α)
  | get (t : ι)
  | resume (t : ι)
  | cancel (t : ι)
  | absorb (t : ι)
deriving DecidableEq, Repr

def step (once : ι → Bool) : Action α ι → Relay α ι → Option (Relay α ι)
  | .put e, r => some (r.put e)
  | .get t, r => r.get once t
  | .resume t, r => r.resume once t
  | .cancel t, r => some (r.cancel t)
  | .absorb t, r => r.absorb t

-- ===================================================== what a step can do

variable {once : ι → Bool} {r r' : Relay α ι} {a : Action α ι} {t u : ι}

/-- A read that begins takes the head, or parks. -/
theorem get_cases (h : r.get once t = some r') :
    r.reader t = .idle
      ∧ ((∃ e rest, r.queue.items = e :: rest
            ∧ r' = ({ r with queue := r.queue.drop } : Relay α ι).received once t e)
        ∨ (r.queue.items = []
            ∧ r' = { r with
                queue := if r.owed t then (r.queue.park t).unpark t else r.queue.park t
                reader := update r.reader t .inGet })) := by
  unfold get at h
  split at h
  next hidle =>
    refine ⟨hidle, ?_⟩
    split at h
    next e q hg =>
      obtain ⟨hi, rfl⟩ := Queue.getNowait_eq_some hg
      exact Or.inl ⟨e, _, hi, (Option.some.inj h).symm⟩
    next hg => exact Or.inr ⟨Queue.getNowait_eq_none.mp hg, (Option.some.inj h).symm⟩
  next => cases h

/-- A consumer in `get()` that runs is cancelled, parks again, or takes
the head. -/
theorem resume_cases (h : r.resume once t = some r') :
    r.reader t = .inGet
      ∧ ((r.owed t = true
            ∧ r' = ({ r with
                queue := r.queue.passOn t
                owed := update r.owed t false } : Relay α ι).sees t .finished .cancelled)
        ∨ (r.owed t = false ∧ t ∈ r.queue.woken
            ∧ ((r.queue.items = [] ∧ r' = { r with queue := r.queue.repark t })
              ∨ ∃ e rest, r.queue.items = e :: rest
                ∧ r' = ({ r with queue := r.queue.takeWoken t } : Relay α ι).received
                    once t e))) := by
  unfold resume at h
  split at h
  next hin =>
    refine ⟨hin, ?_⟩
    split at h
    next ho => exact Or.inl ⟨ho, (Option.some.inj h).symm⟩
    next ho =>
      split at h
      next hw =>
        refine Or.inr ⟨(Bool.not_eq_true _).mp ho, hw, ?_⟩
        split at h
        next hi => exact Or.inl ⟨hi, (Option.some.inj h).symm⟩
        next e rest hi => exact Or.inr ⟨e, rest, hi, (Option.some.inj h).symm⟩
      next => cases h
  next => cases h

/-- A cancellation reaches a task between two reads. -/
theorem absorb_cases (h : r.absorb t = some r') :
    r.reader t = .idle ∧ r' = { r with owed := update r.owed t false } := by
  unfold absorb at h
  split at h
  next hidle => exact ⟨hidle, (Option.some.inj h).symm⟩
  next => cases h

-- =========================================================== the account

/-- The stream is unbounded, and its queue knows who is in `get()` and
why each of them will run. -/
structure Sound (r : Relay α ι) : Prop where
  unbounded : r.queue.maxsize = 0
  serves : r.queue.Serves (fun t => r.reader t = .inGet) (fun t => r.owed t = true)

omit [DecidableEq ι] in
/-- A new relay is sound. -/
theorem sound_new : (new : Relay α ι).Sound where
  unbounded := rfl
  serves := Queue.serves_new 0 fun _ h => Reader.noConfusion h

omit [DecidableEq ι] in
/-- An unbounded queue is never full. -/
theorem Sound.full (h : r.Sound) : r.queue.full = false :=
  Queue.full_eq_false_iff.mpr (Or.inl h.unbounded)

omit [DecidableEq ι] in
/-- What is put goes to the end of the queue. -/
theorem put_items (h : r.queue.full = false) (e : Option α) :
    (r.put e).queue.items = r.queue.items ++ [e] := by
  show (r.queue.putSuppressed e).items = _
  rw [Queue.putSuppressed_items, h]
  rfl

omit [DecidableEq ι] in
/-- A put keeps the relay sound: it wakes a reader for what it brings. -/
theorem sound_put (h : r.Sound) (e : Option α) : (r.put e).Sound where
  unbounded := (Queue.putSuppressed_maxsize e r.queue).trans h.unbounded
  serves := h.serves.putSuppressed e

/-- The account of one consumer who is in `get()` no longer. -/
theorem update_inGet {f : ι → Reader} {st : Reader} (hst : st ≠ .inGet) (u : ι) :
    update f t st u = .inGet ↔ u ≠ t ∧ f u = .inGet := by
  by_cases hut : u = t
  · subst hut
    rw [Function.update_self]
    exact ⟨fun h => absurd h hst, fun h => absurd rfl h.1⟩
  · rw [Function.update_of_ne hut]
    exact ⟨fun h => ⟨hut, h⟩, fun h => h.2⟩

/-- A point of a map is moved to a value. -/
theorem update_eq_iff {β : Type*} {f : ι → β} {x : β} (u : ι) :
    update f t x u = x ↔ u = t ∨ f u = x := by
  by_cases hut : u = t
  · subst hut
    rw [Function.update_self]
    exact ⟨fun _ => Or.inl rfl, fun _ => rfl⟩
  · rw [Function.update_of_ne hut]
    exact ⟨Or.inr, fun h => h.resolve_left hut⟩

/-- Ending a read keeps the account: `q` is the queue the reader left. -/
theorem sound_received {q : Queue (Option α) ι} {e : Option α} (hm : q.maxsize = 0)
    (hs : ∀ waiting' : ι → Prop,
      (∀ u, waiting' u ↔ u ≠ t ∧ r.reader u = .inGet) →
        q.Serves waiting' fun t => r.owed t = true) :
    (({ r with queue := q } : Relay α ι).received once t e).Sound := by
  cases e with
  | some x =>
      refine ⟨hm, hs _ fun u => update_inGet ?_ u⟩
      split <;> exact Reader.noConfusion
  | none =>
      refine ⟨(Queue.putSuppressed_maxsize none q).trans hm, ?_⟩
      exact (hs _ fun u => update_inGet Reader.noConfusion u).putSuppressed none

/-- The account survives every step. -/
theorem sound_step (hr : r.Sound) (h : step once a r = some r') : r'.Sound := by
  have hidle : ∀ {t}, r.reader t = .idle → r.reader t ≠ .inGet := by
    intro t ht
    rw [ht]
    exact Reader.noConfusion
  cases a with
  | put e =>
      cases h
      exact sound_put hr e
  | get t =>
      obtain ⟨ht, ⟨e, rest, -, rfl⟩ | ⟨hi, rfl⟩⟩ := get_cases h
      · refine sound_received hr.unbounded fun waiting' hw => hr.serves.drop.congr ?_ ?_
        · intro u
          rw [hw u]
          refine ⟨fun hu => hu.2, fun hu => ⟨fun hut => hidle ht ?_, hu⟩⟩
          rwa [← hut]
        · exact fun _ _ => Iff.rfl
      · have hw : ∀ u, update r.reader t .inGet u = .inGet
            ↔ u = t ∨ r.reader u = .inGet := update_eq_iff
        cases ho : r.owed t with
        | false =>
            refine ⟨(Queue.park_maxsize t r.queue).trans hr.unbounded, ?_⟩
            refine hr.serves.park hi (hidle ht) ?_ hw
            rw [ho]
            exact Bool.false_ne_true
        | true =>
            -- it parks as if nothing were owed, and leaves the list again
            have hparked : (r.queue.park t).Serves
                (fun u => update r.reader t .inGet u = .inGet)
                (fun u => r.owed u = true ∧ u ≠ t) := by
              refine (hr.serves.congr (fun _ => Iff.rfl) ?_).park hi (hidle ht) ?_ hw
              · refine fun u hu => ⟨fun h => h.1, fun h => ⟨h, fun hut => hidle ht ?_⟩⟩
                rwa [← hut]
              · exact fun h => h.2 rfl
            refine ⟨(Queue.park_maxsize t r.queue).trans hr.unbounded, hparked.unpark ?_⟩
            intro u
            by_cases hut : u = t
            · exact ⟨fun _ => Or.inl hut, fun _ => hut ▸ ho⟩
            · exact ⟨fun h => Or.inr ⟨h, hut⟩, fun h => (h.resolve_left hut).1⟩
  | resume t =>
      obtain ⟨ht, ⟨ho, rfl⟩ | ⟨ho, hw, ⟨hi, rfl⟩ | ⟨e, rest, hi, rfl⟩⟩⟩ := resume_cases h
      · refine ⟨(Queue.passOn_maxsize t r.queue).trans hr.unbounded, ?_⟩
        refine hr.serves.passOn ho (fun u => update_inGet Reader.noConfusion u) ?_
        intro u hut
        show update r.owed t false u = true ↔ _
        rw [Function.update_of_ne hut]
      · refine ⟨(Queue.repark_maxsize t r.queue).trans hr.unbounded, ?_⟩
        refine hr.serves.repark hw ?_
        rw [ho]
        exact Bool.false_ne_true
      · exact sound_received ((Queue.takeWoken_maxsize t r.queue).trans hr.unbounded)
          fun waiting' hw' => hr.serves.takeWoken hw hw'
  | cancel t =>
      cases h
      show (r.cancel t).Sound
      have howed : ∀ u, update r.owed t true u = true ↔ u = t ∨ r.owed u = true :=
        update_eq_iff
      unfold cancel
      split
      next => exact ⟨hr.unbounded, hr.serves.unpark howed⟩
      next ht =>
        refine ⟨hr.unbounded, hr.serves.congr (fun _ => Iff.rfl) fun u hu => ?_⟩
        refine (howed u).trans ⟨fun h => h.resolve_left fun hut => ?_, Or.inr⟩
        exact hidle ht (hut ▸ hu)
      next => exact hr
  | absorb t =>
      obtain ⟨ht, rfl⟩ := absorb_cases h
      refine ⟨hr.unbounded, hr.serves.congr (fun _ => Iff.rfl) fun u hu => ?_⟩
      have hut : u ≠ t := fun hut => hidle ht (hut ▸ hu)
      show update r.owed t false u = true ↔ _
      rw [Function.update_of_ne hut]

-- ================================================================== the law

/-- The items the consumers took, oldest first. -/
def taken (r : Relay α ι) : List α := r.seen.filterMap fun s => s.2.toItem?

/-- The items that are queued. -/
def queued (r : Relay α ι) : List α := r.queue.items.reduceOption

/-- The item an action puts. -/
def Action.item? : Action α ι → Option α
  | .put e => e
  | _ => none

/-- What a reader sees is taken, unless it is the end. -/
theorem taken_sees (t : ι) (st : Reader) (s : Seen α) (r : Relay α ι) :
    (r.sees t st s).taken = r.taken ++ s.toItem?.toList := by
  show (r.seen ++ [(t, s)]).filterMap _ = _
  rw [List.filterMap_append]
  cases s <;> rfl

/-- A consumer that parks takes nothing along, and leaves nothing. -/
theorem parked_items (t : ι) (r : Relay α ι) :
    (if r.owed t then (r.queue.park t).unpark t else r.queue.park t).items
      = r.queue.items := by
  rw [apply_ite Queue.items]
  exact (ite_self _).trans (Queue.park_items t r.queue)

/-- What came off the head of the queue was taken, or put back. -/
theorem account_received {e : Option α} {rest : List (Option α)}
    {q : Queue (Option α) ι} (hq : q.full = false) (hi : r.queue.items = e :: rest)
    (hrest : q.items = rest) :
    (({ r with queue := q } : Relay α ι).received once t e).taken
        ++ (({ r with queue := q } : Relay α ι).received once t e).queued
      = r.taken ++ r.queued := by
  cases e with
  | some x =>
      show (({ r with queue := q } : Relay α ι).sees t _ (.item x)).taken
        ++ q.items.reduceOption = r.taken ++ r.queue.items.reduceOption
      rw [taken_sees, hrest, hi, List.reduceOption_cons_of_some, List.append_assoc]
      rfl
  | none =>
      show ((({ r with queue := q } : Relay α ι).put none).sees t _ .ended).taken
        ++ (({ r with queue := q } : Relay α ι).put none).queue.items.reduceOption
        = r.taken ++ r.queue.items.reduceOption
      rw [taken_sees, put_items hq, hrest, hi, List.reduceOption_cons_of_none,
        List.reduceOption_append]
      simp only [Seen.toItem?, Option.toList_none, List.append_nil]
      exact congrArg (r.taken ++ ·) (List.append_nil _)

/-- One step: what is taken and queued grows by what is put. -/
theorem step_conserves (hr : r.Sound) (h : step once a r = some r') :
    r'.taken ++ r'.queued = r.taken ++ r.queued ++ a.item?.toList := by
  cases a with
  | put e =>
      cases h
      show r.taken ++ (r.put e).queue.items.reduceOption = _
      rw [put_items hr.full, List.reduceOption_append, ← List.append_assoc]
      cases e <;> rfl
  | get t =>
      refine Eq.trans ?_ (List.append_nil _).symm
      obtain ⟨-, ⟨e, rest, hi, rfl⟩ | ⟨hi, rfl⟩⟩ := get_cases h
      · refine account_received ?_ hi ?_
        · exact Queue.full_eq_false_iff.mpr (Or.inl hr.unbounded)
        · rw [Queue.drop_items, hi, List.tail_cons]
      · exact congrArg (r.taken ++ List.reduceOption ·) (parked_items t r)
  | resume t =>
      refine Eq.trans ?_ (List.append_nil _).symm
      obtain ⟨-, ⟨-, rfl⟩ | ⟨-, hw, ⟨-, rfl⟩ | ⟨e, rest, hi, rfl⟩⟩⟩ := resume_cases h
      · show (Relay.sees t .finished .cancelled _).taken
          ++ (r.queue.passOn t).items.reduceOption = _
        rw [taken_sees, Queue.passOn_items]
        exact congrArg (· ++ r.queued) (List.append_nil r.taken)
      · exact congrArg (r.taken ++ List.reduceOption ·) (Queue.repark_items t r.queue)
      · refine account_received ?_ hi ?_
        · exact Queue.full_eq_false_iff.mpr
            (Or.inl ((Queue.takeWoken_maxsize t r.queue).trans hr.unbounded))
        · rw [Queue.takeWoken_items hw, hi, List.tail_cons]
  | cancel t =>
      cases h
      refine Eq.trans ?_ (List.append_nil _).symm
      unfold cancel
      split <;> rfl
  | absorb t =>
      obtain ⟨-, rfl⟩ := absorb_cases h
      exact (List.append_nil _).symm

/-- Over a run: the items taken, in the order they were taken, followed
by the items queued, are those that were there and those put since. -/
theorem exec_conserves {as : List (Action α ι)} (hr : r.Sound)
    (h : exec (step once) r as = some r') :
    r'.taken ++ r'.queued = r.taken ++ r.queued ++ as.filterMap Action.item? := by
  induction as generalizing r with
  | nil =>
      cases h
      exact (List.append_nil _).symm
  | cons a rest ih =>
      obtain ⟨m, ha, hrest⟩ := Transition.exec_cons_cases h
      rw [ih (sound_step hr ha) hrest, step_conserves hr ha, List.append_assoc,
        Transition.toList_append_filterMap]

/-- A read sees one thing, or nothing yet. -/
theorem seen_received {q : Queue (Option α) ι} (e : Option α) :
    ∃ s, (({ r with queue := q } : Relay α ι).received once t e).seen = r.seen ++ [s] := by
  cases e with
  | some x => exact ⟨_, rfl⟩
  | none => exact ⟨_, rfl⟩

/-- A read adds at most one thing to what was seen. -/
theorem seen_reads (ha : a = .get t ∨ a = .resume t) (h : step once a r = some r') :
    r'.seen = r.seen ∨ ∃ s, r'.seen = r.seen ++ [s] := by
  rcases ha with rfl | rfl
  · obtain ⟨-, ⟨e, rest, -, rfl⟩ | ⟨-, rfl⟩⟩ := get_cases h
    · exact Or.inr (seen_received e)
    · exact Or.inl rfl
  · obtain ⟨-, ⟨-, rfl⟩ | ⟨-, -, ⟨-, rfl⟩ | ⟨e, rest, -, rfl⟩⟩⟩ := resume_cases h
    · exact Or.inr ⟨_, rfl⟩
    · exact Or.inl rfl
    · exact Or.inr (seen_received e)

-- ================================================================== the end

/-- What a step does to the queued items: one is put, nothing moves, or
the head leaves, a marker to the back. -/
inductive Turn (a : Action α ι) : List (Option α) → List (Option α) → Prop
  | put (e : Option α) (items : List (Option α)) (ha : a = .put e) :
      Turn a items (items ++ [e])
  | still (items : List (Option α)) : Turn a items items
  | took (x : α) (rest : List (Option α)) : Turn a (some x :: rest) rest
  | passed (rest : List (Option α)) : Turn a (none :: rest) (rest ++ [none])

/-- A marker that is received goes to the back. -/
theorem turn_received {e : Option α} {rest : List (Option α)}
    {q : Queue (Option α) ι} (hq : q.full = false) (hrest : q.items = rest) :
    Turn a (e :: rest)
      (({ r with queue := q } : Relay α ι).received once t e).queue.items := by
  cases e with
  | some x =>
      show Turn a (some x :: rest) q.items
      rw [hrest]
      exact .took x rest
  | none =>
      show Turn a (none :: rest) (({ r with queue := q } : Relay α ι).put none).queue.items
      rw [put_items hq, hrest]
      exact .passed rest

/-- What a step does to the queue is one of its turns. -/
theorem turn_step (hr : r.Sound) (h : step once a r = some r') :
    Turn a r.queue.items r'.queue.items := by
  cases a with
  | put e =>
      cases h
      show Turn _ _ (r.put e).queue.items
      rw [put_items hr.full]
      exact .put e _ rfl
  | get t =>
      obtain ⟨-, ⟨e, rest, hi, rfl⟩ | ⟨hi, rfl⟩⟩ := get_cases h
      · rw [hi]
        refine turn_received ?_ ?_
        · exact Queue.full_eq_false_iff.mpr (Or.inl hr.unbounded)
        · rw [Queue.drop_items, hi, List.tail_cons]
      · show Turn _ r.queue.items (ite _ _ _ : Queue (Option α) ι).items
        rw [parked_items]
        exact .still _
  | resume t =>
      obtain ⟨-, ⟨-, rfl⟩ | ⟨-, hw, ⟨hi, rfl⟩ | ⟨e, rest, hi, rfl⟩⟩⟩ := resume_cases h
      · show Turn _ r.queue.items (r.queue.passOn t).items
        rw [Queue.passOn_items]
        exact .still _
      · show Turn _ r.queue.items (r.queue.repark t).items
        rw [Queue.repark_items]
        exact .still _
      · rw [hi]
        refine turn_received ?_ ?_
        · exact Queue.full_eq_false_iff.mpr
            (Or.inl ((Queue.takeWoken_maxsize t r.queue).trans hr.unbounded))
        · rw [Queue.takeWoken_items hw, hi, List.tail_cons]
  | cancel t =>
      cases h
      show Turn _ r.queue.items (r.cancel t).queue.items
      unfold cancel
      split <;> exact .still _
  | absorb t =>
      obtain ⟨-, rfl⟩ := absorb_cases h
      exact .still _

/-- A marker once queued stays queued. -/
theorem marked_step (hr : r.Sound) (hm : none ∈ r.queue.items)
    (h : step once a r = some r') : none ∈ r'.queue.items := by
  have hturn := turn_step hr h
  generalize r.queue.items = items at hm hturn
  generalize r'.queue.items = items' at hturn ⊢
  cases hturn with
  | put e _ _ => exact List.mem_append_left _ hm
  | still _ => exact hm
  | took x _ => exact (List.mem_cons.mp hm).resolve_left (Option.some_ne_none x).symm
  | passed rest => exact List.mem_append_right _ (List.mem_singleton_self _)

/-- No marker comes into the queue but by a `put`. -/
theorem unmarked_step (hr : r.Sound) (hm : none ∉ r.queue.items) (ha : a ≠ .put none)
    (h : step once a r = some r') : none ∉ r'.queue.items := by
  have hturn := turn_step hr h
  generalize r.queue.items = items at hm hturn
  generalize r'.queue.items = items' at hturn ⊢
  cases hturn with
  | put e _ he =>
      intro hmem
      rcases List.mem_append.mp hmem with hold | hnew
      · exact hm hold
      · exact ha (he.trans (congrArg Action.put (List.mem_singleton.mp hnew).symm))
  | still _ => exact hm
  | took x _ => exact fun hmem => hm (List.mem_cons_of_mem _ hmem)
  | passed rest => exact absurd List.mem_cons_self hm

/-- An action of the loop by itself: somebody in `get()` runs. -/
def Action.resumes : Action α ι → Bool
  | .resume _ => true
  | _ => false

/-- A consumer in `get()` that can run, runs to the end of its read. -/
theorem resume_ready (once : ι → Bool) (hm : none ∈ r.queue.items)
    (ht : r.reader t = .inGet)
    (hready : r.owed t = true ∨ t ∈ r.queue.woken) :
    ∃ r', r.resume once t = some r' := by
  unfold resume
  rw [ht]
  by_cases ho : r.owed t = true
  · exact ⟨_, if_pos ho⟩
  · simp only [if_neg ho, if_pos (hready.resolve_left ho)]
    cases hi : r.queue.items with
    | nil =>
        rw [hi] at hm
        cases hm
    | cons e rest => exact ⟨_, rfl⟩

/-- A reader that has received is out of `get()`. -/
theorem reader_received (once : ι → Bool) (e : Option α) (t : ι) (r : Relay α ι) :
    ∃ st, st ≠ .inGet ∧ (r.received once t e).reader = update r.reader t st := by
  cases e with
  | some x =>
      refine ⟨if once t then .finished else .idle, ?_, rfl⟩
      split <;> exact Reader.noConfusion
  | none => exact ⟨.finished, Reader.noConfusion, rfl⟩

/-- What a reader does with what it got takes nobody off the queue's
lists. -/
theorem consumers_received {q : Queue (Option α) ι} (hq : q.full = false)
    (e : Option α) :
    (({ r with queue := q } : Relay α ι).received once t e).queue.consumers
      = q.consumers := by
  cases e with
  | some x => rfl
  | none =>
      show (q.putSuppressed none).consumers = q.consumers
      unfold Queue.putSuppressed
      rw [Queue.putNowait_of_room hq]
      exact Queue.consumers_push none hq

/-- Whoever is resumed in an ended stream leaves `get()`; the others stay
where they are, one listed consumer fewer. -/
theorem resume_leaves (hr : r.Sound) (hm : none ∈ r.queue.items)
    (h : r.resume once t = some r') :
    (∃ st, st ≠ .inGet ∧ r'.reader = update r.reader t st)
      ∧ (t ∈ r.queue.woken → r'.queue.consumers + 1 = r.queue.consumers) := by
  obtain ⟨-, ⟨-, rfl⟩ | ⟨-, hw, ⟨hi, rfl⟩ | ⟨e, rest, hi, rfl⟩⟩⟩ := resume_cases h
  · exact ⟨⟨.finished, Reader.noConfusion, rfl⟩, Queue.consumers_passOn⟩
  · rw [hi] at hm
    cases hm
  · refine ⟨reader_received once e t _, fun _ => ?_⟩
    rw [consumers_received]
    · exact Queue.consumers_takeWoken hw
    · exact Queue.full_eq_false_iff.mpr
        (Or.inl ((Queue.takeWoken_maxsize t r.queue).trans hr.unbounded))

/-- A consumer in `get()` can run, or one that was woken is ahead of it. -/
theorem exists_ready (hr : r.Sound) (hm : none ∈ r.queue.items)
    (ht : r.reader t = .inGet) :
    (r.owed t = true ∨ t ∈ r.queue.woken)
      ∨ ∃ u, u ≠ t ∧ u ∈ r.queue.woken ∧ r.reader u = .inGet := by
  by_cases hready : r.owed t = true ∨ t ∈ r.queue.woken
  · exact Or.inl hready
  · right
    have hg : t ∈ r.queue.getters := by
      rcases hr.serves.reached t ht with ho | hmem
      · exact absurd (Or.inl ho) hready
      · rcases List.mem_append.mp hmem with hg | hw
        · exact hg
        · exact absurd (Or.inr hw) hready
    obtain ⟨u, hu⟩ := Queue.exists_woken (List.ne_nil_of_mem hm) hg
    refine ⟨u, fun hut => hready (Or.inr (hut ▸ hu)), hu, ?_⟩
    exact hr.serves.listed u (List.mem_append_right _ hu)

/-- A consumer waiting in an ended stream is reached by resuming those
before it. By induction on the consumers the queue lists. -/
theorem released (hr : r.Sound) (hm : none ∈ r.queue.items)
    (ht : r.reader t = .inGet) :
    ∃ as r', (∀ a ∈ as, a.resumes = true) ∧ exec (step once) r as = some r'
      ∧ r'.reader t ≠ .inGet := by
  generalize hn : r.queue.consumers = n
  induction n using Nat.strongRecOn generalizing r with
  | ind n ih =>
      rcases exists_ready hr hm ht with hready | ⟨u, hut, hu, hui⟩
      · obtain ⟨r', hstep⟩ := resume_ready once hm ht hready
        obtain ⟨⟨st, hst, hreader⟩, -⟩ := resume_leaves hr hm hstep
        have hstep' : step once (.resume t) r = some r' := hstep
        refine ⟨[.resume t], r', ?_, ?_, ?_⟩
        · exact fun a ha => by rw [List.mem_singleton.mp ha]; rfl
        · rw [Transition.exec_cons hstep']
          rfl
        · rw [hreader, Function.update_self]
          exact hst
      · obtain ⟨r', hstep⟩ := resume_ready once hm hui (Or.inr hu)
        obtain ⟨⟨st, hst, hreader⟩, hcount⟩ := resume_leaves hr hm hstep
        have hstep' : step once (.resume u) r = some r' := hstep
        have hti : r'.reader t = .inGet := by
          rw [hreader, Function.update_of_ne hut.symm]
          exact ht
        have hlt : r'.queue.consumers < n := by
          have := hcount hu
          omega
        obtain ⟨as, r'', has, hexec, hend⟩ := ih _ hlt (sound_step hr hstep')
          (marked_step hr hm hstep') hti rfl
        refine ⟨.resume u :: as, r'', ?_, ?_, hend⟩
        · intro a ha
          rcases List.mem_cons.mp ha with rfl | ha
          · rfl
          · exact has a ha
        · rw [Transition.exec_cons hstep']
          exact hexec

-- ======================================================= a sole consumer

/-- A read of this consumer. -/
def Action.reads (t : ι) : Action α ι → Bool
  | .get u => decide (u = t)
  | .resume u => decide (u = t)
  | _ => false

/-- What goes on while this consumer is the only one: puts, and its
reads. -/
def Action.feeds (t : ι) : Action α ι → Bool
  | .put _ => true
  | a => a.reads t

/-- Nobody else is in `get()`, and this consumer can go on reading. -/
structure Sole (t : ι) (r : Relay α ι) : Prop where
  alone : ∀ u, r.reader u = .inGet → u = t
  unowed : r.owed t = false
  reading : r.reader t ≠ .finished

/-- What stands ahead of the marker and then the end; a single read gets
the first of these. -/
def due (single : Bool) (ahead : List α) : List (Seen α) :=
  if single then (ahead.map Seen.item ++ [Seen.ended]).take 1
  else ahead.map Seen.item ++ [Seen.ended]

/-- With nothing ahead of the marker the end is due. -/
theorem due_nil (single : Bool) : due single ([] : List α) = [.ended] := by
  cases single <;> rfl

/-- Something is always due: at least the end. -/
theorem due_ne_nil (single : Bool) (ahead : List α) : due single ahead ≠ [] := by
  cases single <;> cases ahead <;> exact List.cons_ne_nil _ _

/-- A reader that reads once is due one item. -/
theorem due_single (x : α) (ahead : List α) : due true (x :: ahead) = [.item x] := rfl

/-- An iterator is due each item and then what is due behind it. -/
theorem due_iterator (x : α) (ahead : List α) :
    due false (x :: ahead) = .item x :: due false ahead := rfl

omit [DecidableEq ι] in
/-- A put brings no second reader. -/
theorem sole_put (h : Sole t r) (e : Option α) : Sole t (r.put e) where
  alone := h.alone
  unowed := h.unowed
  reading := h.reading

/-- A sole consumer's read takes the head, or finds nothing and waits. -/
theorem read_cases (hs : Sole t r) (hr : r.Sound) (ha : a.reads t = true)
    (h : step once a r = some r') :
    (∃ (e : Option α) (rest : List (Option α)) (q : Queue (Option α) ι),
      r.queue.items = e :: rest ∧ q.items = rest ∧ q.full = false
        ∧ r' = ({ r with queue := q } : Relay α ι).received once t e)
      ∨ (r.queue.items = [] ∧ r'.queue.items = [] ∧ r'.seen = r.seen ∧ Sole t r') := by
  cases a with
  | get u =>
      obtain rfl : u = t := of_decide_eq_true ha
      obtain ⟨-, ⟨e, rest, hi, rfl⟩ | ⟨hi, rfl⟩⟩ := get_cases h
      · refine Or.inl ⟨e, rest, r.queue.drop, hi, ?_, ?_, rfl⟩
        · rw [Queue.drop_items, hi, List.tail_cons]
        · exact Queue.full_eq_false_iff.mpr (Or.inl hr.unbounded)
      · refine Or.inr ⟨hi, (parked_items u r).trans hi, rfl, ?_⟩
        · refine ⟨fun v hv => ?_, hs.unowed, ?_⟩
          · rcases (update_eq_iff v).mp hv with hvu | hv
            · exact hvu
            · exact hs.alone v hv
          · show update r.reader u .inGet u ≠ .finished
            rw [Function.update_self]
            exact Reader.noConfusion
  | resume u =>
      obtain rfl : u = t := of_decide_eq_true ha
      obtain ⟨-, ⟨ho, rfl⟩ | ⟨-, hw, ⟨hi, rfl⟩ | ⟨e, rest, hi, rfl⟩⟩⟩ := resume_cases h
      · rw [hs.unowed] at ho
        cases ho
      · exact Or.inr ⟨hi, (Queue.repark_items u r.queue).trans hi, rfl,
          ⟨hs.alone, hs.unowed, hs.reading⟩⟩
      · refine Or.inl ⟨e, rest, r.queue.takeWoken u, hi, ?_, ?_, rfl⟩
        · rw [Queue.takeWoken_items hw, hi, List.tail_cons]
        · exact Queue.full_eq_false_iff.mpr
            (Or.inl ((Queue.takeWoken_maxsize u r.queue).trans hr.unbounded))
  | put e => cases ha
  | cancel u => cases ha
  | absorb u => cases ha

/-- In an ended stream it takes the head. -/
theorem reads_cases (hs : Sole t r) (hm : none ∈ r.queue.items) (hr : r.Sound)
    (ha : a.reads t = true) (h : step once a r = some r') :
    ∃ (e : Option α) (rest : List (Option α)) (q : Queue (Option α) ι),
      r.queue.items = e :: rest ∧ q.items = rest ∧ q.full = false
        ∧ r' = ({ r with queue := q } : Relay α ι).received once t e := by
  rcases read_cases hs hr ha h with htook | ⟨hi, -⟩
  · exact htook
  · rw [hi] at hm
    cases hm

/-- A sole consumer of an ended stream always has a read to make. -/
theorem exists_read (once : ι → Bool) (hs : Sole t r) (hm : none ∈ r.queue.items)
    (hr : r.Sound) :
    ∃ a r', Action.reads t a = true ∧ step once a r = some r' := by
  cases ht : r.reader t with
  | idle =>
      refine ⟨.get t, ?_⟩
      simp only [Action.reads, decide_true, step, get, ht, true_and]
      cases r.queue.getNowait <;> exact ⟨_, rfl⟩
  | inGet =>
      have hready : r.owed t = true ∨ t ∈ r.queue.woken := by
        rcases exists_ready hr hm ht with hready | ⟨u, hut, -, hu⟩
        · exact hready
        · exact absurd (hs.alone u hu) hut
      obtain ⟨r', hstep⟩ := resume_ready once hm ht hready
      exact ⟨.resume t, r', decide_eq_true rfl, hstep⟩
  | finished => exact absurd ht hs.reading

/-- A finished consumer sees nothing more. -/
theorem finished_exec {as : List (Action α ι)} (ht : r.reader t = .finished)
    (has : ∀ a ∈ as, a.feeds t = true) (h : exec (step once) r as = some r') :
    r'.reader t = .finished ∧ r'.seen = r.seen := by
  induction as generalizing r with
  | nil =>
      cases h
      exact ⟨ht, rfl⟩
  | cons a rest ih =>
      have hread : a.reads t = true → step once a r = none := by
        intro ha
        cases a with
        | get u =>
            obtain rfl : u = t := of_decide_eq_true ha
            simp only [step, get, ht]
        | resume u =>
            obtain rfl : u = t := of_decide_eq_true ha
            simp only [step, resume, ht]
        | put e => cases ha
        | cancel u => cases ha
        | absorb u => cases ha
      have hrest : ∀ b ∈ rest, b.feeds t = true := fun b hb =>
        has b (List.mem_cons_of_mem _ hb)
      have ha : a.feeds t = true := has a (List.mem_cons_self ..)
      cases a with
      | put e => exact ih (r := r.put e) ht hrest h
      | get u =>
          rw [exec, hread ha] at h
          cases h
      | resume u =>
          rw [exec, hread ha] at h
          cases h
      | cancel u => cases ha
      | absorb u => cases ha

/-- What a consumer that reads gets is the head of what it is due; it is
finished with the last of it. -/
theorem received_due (once : ι → Bool) {e : Option α} {rest rest' : List (Option α)}
    {ahead : List α} {q : Queue (Option α) ι} (hqi : q.items = rest)
    (hi : e :: rest = ahead.map some ++ none :: rest') (hs : Sole t r) :
    ∃ s, (({ r with queue := q } : Relay α ι).received once t e).seen
          = r.seen ++ [(t, s)]
      ∧ ((due (once t) ahead = [s]
          ∧ (({ r with queue := q } : Relay α ι).received once t e).reader t = .finished)
        ∨ ∃ ahead', due (once t) ahead = s :: due (once t) ahead'
          ∧ Sole t (({ r with queue := q } : Relay α ι).received once t e)
          ∧ ∃ rest'', (({ r with queue := q } : Relay α ι).received once t e).queue.items
              = ahead'.map some ++ none :: rest'') := by
  cases ahead with
  | nil =>
      obtain ⟨rfl, rfl⟩ := List.cons.inj hi
      exact ⟨.ended, rfl, Or.inl ⟨due_nil _, Function.update_self ..⟩⟩
  | cons x ahead =>
      obtain ⟨rfl, hrest⟩ := List.cons.inj hi
      refine ⟨.item x, rfl, ?_⟩
      cases honce : once t with
      | true =>
          refine Or.inl ⟨due_single x ahead, ?_⟩
          show update r.reader t (if once t then .finished else .idle) t = .finished
          rw [Function.update_self, honce, if_pos rfl]
      | false =>
          refine Or.inr ⟨ahead, due_iterator x ahead, ?_, rest', hqi.trans hrest⟩
          refine ⟨fun u hu => ?_, hs.unowed, ?_⟩
          · refine hs.alone u ((update_inGet ?_ u).mp hu).2
            split <;> exact Reader.noConfusion
          · show update r.reader t (if once t then .finished else .idle) t ≠ .finished
            rw [Function.update_self, honce, if_neg Bool.false_ne_true]
            exact Reader.noConfusion

/-- A sole consumer sees nothing but what it is due, in order, and ends
with the last of it. By induction on the run. -/
theorem sole_sees {as : List (Action α ι)} {ahead : List α} {rest : List (Option α)}
    (hr : r.Sound) (hs : Sole t r) (hi : r.queue.items = ahead.map some ++ none :: rest)
    (has : ∀ a ∈ as, a.feeds t = true) (h : exec (step once) r as = some r') :
    ∃ l, r'.seen = r.seen ++ l.map (Prod.mk t) ∧ l <+: due (once t) ahead
      ∧ (r'.reader t = .finished ↔ l = due (once t) ahead) := by
  induction as generalizing r ahead rest with
  | nil =>
      cases h
      refine ⟨[], (List.append_nil _).symm, List.nil_prefix, ?_⟩
      exact ⟨fun ht => absurd ht hs.reading, fun hd => absurd hd.symm (due_ne_nil _ _)⟩
  | cons a as ih =>
      have hrest : ∀ b ∈ as, b.feeds t = true := fun b hb =>
        has b (List.mem_cons_of_mem _ hb)
      have ha : a.feeds t = true := has a (List.mem_cons_self ..)
      have hm : none ∈ r.queue.items := by
        rw [hi]
        exact List.mem_append_right _ (List.mem_cons_self ..)
      cases hstep : step once a r with
      | none =>
          rw [exec, hstep] at h
          cases h
      | some m =>
          rw [Transition.exec_cons hstep] at h
          by_cases hread : a.reads t = true
          · obtain ⟨e, tl, q, hhead, hqi, hq, rfl⟩ := reads_cases hs hm hr hread hstep
            obtain ⟨s, hseen, ⟨hdue, hfin⟩ | ⟨ahead', hdue, hs', rest', hi'⟩⟩ :=
              received_due once hqi (hhead.symm.trans hi) hs
            · obtain ⟨hfin', hsame⟩ := finished_exec hfin hrest h
              refine ⟨[s], hsame.trans hseen, ?_, fun _ => hdue.symm, fun _ => hfin'⟩
              exact hdue ▸ List.prefix_rfl
            · obtain ⟨l, hl, hpre, hend⟩ := ih (sound_step hr hstep) hs' hi' hrest h
              refine ⟨s :: l, ?_, ?_, ?_⟩
              · rw [hl, hseen, List.append_assoc]
                rfl
              · rw [hdue]
                exact List.cons_prefix_cons.mpr ⟨rfl, hpre⟩
              · rw [hend, hdue, List.cons.injEq, eq_self, true_and]
          · cases a with
            | put e =>
                cases hstep
                have hi' : (r.put e).queue.items
                    = ahead.map some ++ none :: (rest ++ [e]) := by
                  rw [put_items hr.full, hi, List.append_assoc]
                  rfl
                exact ih (r := r.put e) (sound_put hr e) (sole_put hs e) hi' hrest h
            | get u => exact absurd ha hread
            | resume u => exact absurd ha hread
            | cancel u => cases ha
            | absorb u => cases ha

/-- A sole consumer can read all it is due, by reads alone. By induction
on what stands ahead of the marker. -/
theorem sole_reads_all {ahead : List α} {rest : List (Option α)} (hr : r.Sound)
    (hs : Sole t r) (hi : r.queue.items = ahead.map some ++ none :: rest) :
    ∃ as r', (∀ a ∈ as, Action.reads t a = true) ∧ exec (step once) r as = some r'
      ∧ r'.seen = r.seen ++ (due (once t) ahead).map (Prod.mk t)
      ∧ r'.reader t = .finished := by
  generalize hn : (due (once t) ahead).length = n
  induction n using Nat.strongRecOn generalizing r ahead rest with
  | ind n ih =>
      have hm : none ∈ r.queue.items := by
        rw [hi]
        exact List.mem_append_right _ (List.mem_cons_self ..)
      obtain ⟨a, m, ha, hstep⟩ := exists_read once hs hm hr
      obtain ⟨e, tl, q, hhead, hqi, hq, rfl⟩ := reads_cases hs hm hr ha hstep
      obtain ⟨s, hseen, ⟨hdue, hfin⟩ | ⟨ahead', hdue, hs', rest', hi'⟩⟩ :=
        received_due once hqi (hhead.symm.trans hi) hs
      · refine ⟨[a], _, ?_, (Transition.exec_cons hstep).trans rfl, ?_, hfin⟩
        · exact fun b hb => by rw [List.mem_singleton.mp hb]; exact ha
        · rw [hdue]
          exact hseen
      · have hlt : (due (once t) ahead').length < n := by
          rw [← hn, hdue, List.length_cons]
          exact Nat.lt_succ_self _
        obtain ⟨as, r', has, hexec, hall, hend⟩ := ih _ hlt (sound_step hr hstep) hs' hi' rfl
        refine ⟨a :: as, r', ?_, (Transition.exec_cons hstep).trans hexec, ?_, hend⟩
        · intro b hb
          rcases List.mem_cons.mp hb with rfl | hb
          · exact ha
          · exact has b hb
        · rw [hall, hseen, hdue, List.append_assoc]
          rfl

/-- What the end of a stream is to its consumers: -/
structure Terminated (once : ι → Bool) (r : Relay α ι) : Prop where
  /-- the marker is there for the next one; -/
  marked : none ∈ r.queue.items
  /-- a read that begins is over at once; -/
  atOnce : ∀ t, r.reader t = .idle → ∃ r', r.get once t = some r' ∧ r'.reader t ≠ .inGet
  /-- whoever waits and runs does not wait again; -/
  leaves : ∀ t r', r.resume once t = some r' → r'.reader t ≠ .inGet
  /-- whoever waits can be run, after those before it if need be; -/
  released : ∀ t, r.reader t = .inGet →
    ∃ as r', (∀ a ∈ as, a.resumes = true) ∧ exec (step once) r as = some r'
      ∧ r'.reader t ≠ .inGet
  /-- a sole consumer is due what stands ahead of the first marker and
  then the end: it sees nothing else, and it can read it all. -/
  sole : ∀ t ahead rest, Sole t r → r.queue.items = ahead.map some ++ none :: rest →
    (∀ as r', (∀ a ∈ as, a.feeds t = true) → exec (step once) r as = some r' →
      ∃ l, r'.seen = r.seen ++ l.map (Prod.mk t) ∧ l <+: due (once t) ahead
        ∧ (r'.reader t = .finished ↔ l = due (once t) ahead))
    ∧ ∃ as r', (∀ a ∈ as, Action.reads t a = true) ∧ exec (step once) r as = some r'
      ∧ r'.seen = r.seen ++ (due (once t) ahead).map (Prod.mk t)
      ∧ r'.reader t = .finished

/-- The marker is all it takes. -/
theorem terminated_of_marked (hr : r.Sound) (hm : none ∈ r.queue.items) :
    Terminated once r where
  marked := hm
  atOnce := by
    intro t ht
    obtain ⟨e, rest, hi⟩ := List.exists_cons_of_ne_nil (List.ne_nil_of_mem hm)
    obtain ⟨st, hst, hreader⟩ := reader_received once e t
      ({ r with queue := r.queue.drop } : Relay α ι)
    refine ⟨({ r with queue := r.queue.drop } : Relay α ι).received once t e, ?_, ?_⟩
    · simp only [get, ht, Queue.getNowait, hi]
    · rw [hreader, Function.update_self]
      exact hst
  leaves := by
    intro t r' h
    obtain ⟨⟨st, hst, hreader⟩, -⟩ := resume_leaves hr hm h
    rw [hreader, Function.update_self]
    exact hst
  released := fun t ht => released hr hm ht
  sole := fun t ahead rest hs hi =>
    ⟨fun as r' has h => sole_sees hr hs hi has h, sole_reads_all hr hs hi⟩

-- ======================================================== inside a machine

/-- The stream as part of a larger machine: some run that puts these
items leads from one state to the other. -/
def Follows (once : ι → Bool) (r : Relay α ι) (items : List α) (r' : Relay α ι) :
    Prop :=
  ∃ as, exec (step once) r as = some r' ∧ as.filterMap Action.item? = items

/-- A relay that did nothing was put nothing. -/
theorem Follows.refl (r : Relay α ι) : Follows once r [] r := ⟨[], rfl, rfl⟩

/-- One step puts what its action carries. -/
theorem Follows.of_step (h : step once a r = some r') :
    Follows once r a.item?.toList r' := by
  refine ⟨[a], (Transition.exec_cons h).trans rfl, ?_⟩
  rw [← Transition.toList_append_filterMap]
  exact List.append_nil _

/-- What one run puts and then another is put by both. -/
theorem Follows.trans {r'' : Relay α ι} {xs ys : List α} (h : Follows once r xs r')
    (h' : Follows once r' ys r'') : Follows once r (xs ++ ys) r'' := by
  obtain ⟨as, hexec, rfl⟩ := h
  obtain ⟨bs, hexec', rfl⟩ := h'
  refine ⟨as ++ bs, ?_, List.filterMap_append ..⟩
  rw [Transition.exec_append, hexec]
  exact hexec'

/-- The account, the law and the marker, along such a run. -/
theorem Follows.sound {xs : List α} (h : Follows once r xs r') (hr : r.Sound) :
    r'.Sound := by
  obtain ⟨as, hexec, -⟩ := h
  exact (Transition.reachable_of_exec hexec).invariant hr fun hm ha => sound_step hm ha

/-- What was put is taken or queued, in order. -/
theorem Follows.conserves {xs : List α} (h : Follows once r xs r') (hr : r.Sound) :
    r'.taken ++ r'.queued = r.taken ++ r.queued ++ xs := by
  obtain ⟨as, hexec, rfl⟩ := h
  exact exec_conserves hr hexec

/-- A marker stays in the queue, since whoever takes it puts it back. -/
theorem Follows.marked {xs : List α} (h : Follows once r xs r') (hr : r.Sound)
    (hm : none ∈ r.queue.items) : none ∈ r'.queue.items := by
  obtain ⟨as, hexec, -⟩ := h
  have hboth : r'.Sound ∧ none ∈ r'.queue.items :=
    (Transition.reachable_of_exec hexec).invariant
      (P := fun m => m.Sound ∧ none ∈ m.queue.items) ⟨hr, hm⟩
      fun h ha => ⟨sound_step h.1 ha, marked_step h.1 h.2 ha⟩
  exact hboth.2

end Relay

end Asyncio
