/-
`async for` over a channel.

`__aiter__` makes a generator of its own for every loop: it awaits
`recv()`, yields what that returns, and returns where that raises
`ConnectionClosedError`. So a loop is told nothing of an error or a
closing but its own end, and a cancellation that reaches it in its
`recv()` goes through it and ends it too: awaited again, it stops at
once, whatever the queue holds.

# What a step is

A step of the channel, with what it hands to an iterator whose `recv()`
it ends; one `__anext__`, awaited by a task; or the generator's
`aclose()`. Nothing else runs between the end of a `recv()` and the
`yield`, so both are one step. An iterator is awaited by one task at a
time: a second `__anext__` raises `RuntimeError`, and is no step here.

# The account

Iterators and direct `recv()` calls draw on one queue. `log` lists what
both were handed, and it is, in order, what was taken off the queue
(`Books.account`): an iterator neither keeps nor skips a message, not
when it is cancelled and not when it ends.
-/
import AioLibDataChannel.DataChannel.Reading

namespace AioLibDataChannel

open Asyncio (Outcome Queue)
open Function (update)
open Transition (exec)

-- =========================================================== the machine

/-- How an iteration is over: `_iter()` returned, an exception went
through it, or it was closed at its `yield`. -/
inductive IterEnd
  | returned
  | thrown
  | closed
deriving DecidableEq, Repr

/-- Where an `_iter()` stands: at its start or its `yield`, in its
`recv()`, or over. -/
inductive Iteration
  | suspended
  | inRecv
  | finished (how : IterEnd)
deriving DecidableEq, Repr

/-- What was handed out: an iterator's item, its `StopAsyncIteration`,
an exception through it, its closing; and how a direct `recv()` ended. -/
inductive IterObs
  | yielded (i : Nat) (m : Option Message)
  | stopped (i : Nat)
  | thrown (i : Nat) (o : Outcome (Option Message) Exc)
  | closed (i : Nat)
  | received (t : TaskId) (o : Outcome (Option Message) Exc)

/-- The message handed out. -/
def IterObs.message? : IterObs → Option Message
  | yielded _ m => m
  | received _ (.returned m) => m
  | _ => none

/-- The iterator this ends. -/
def IterObs.ends? : IterObs → Option Nat
  | stopped i => some i
  | thrown i _ => some i
  | closed i => some i
  | _ => none

/-- A channel and the iterators over it, with the one whose `__anext__`
a task awaits. -/
structure IterWorld where
  chan : DcWorld
  iter : Nat → Iteration
  awaiting : TaskId → Option Nat
  log : List IterObs

namespace IterWorld

/-- A channel that nobody iterates over yet. -/
def init (chan : DcWorld) : IterWorld where
  chan := chan
  iter := fun _ => .suspended
  awaiting := fun _ => none
  log := []

inductive Action
  | channel (a : DcAction)
  | next (i : Nat) (t : TaskId)
  | aclose (i : Nat)

/-- `_iter()` with the end of its `recv()`. -/
def resumed (i : Nat) (o : Outcome (Option Message) Exc) (w : IterWorld) : IterWorld :=
  match o with
  | .returned m =>
      { w with
        iter := update w.iter i .suspended
        log := w.log ++ [.yielded i m] }
  | .raised (.connectionClosedError _) =>
      { w with
        iter := update w.iter i (.finished .returned)
        log := w.log ++ [.stopped i] }
  | _ =>
      { w with
        iter := update w.iter i (.finished .thrown)
        log := w.log ++ [.thrown i o] }

/-- The task took a step of a `recv()`: where that has ended, its end
goes to the iterator that awaits it, or to the task itself. -/
def handOver (t : TaskId) (w : IterWorld) : IterWorld :=
  match w.chan.recvEnd t with
  | none => w
  | some o =>
      match w.awaiting t with
      | none => { w with log := w.log ++ [.received t o] }
      | some i => ({ w with awaiting := update w.awaiting t none } : IterWorld).resumed i o

/-- The task awaits the iterator's `__anext__`. -/
def begin (i : Nat) (t : TaskId) (w : IterWorld) : IterWorld :=
  { w with
    iter := update w.iter i .inRecv
    awaiting := update w.awaiting t (some i) }

/-- The transition. -/
def apply : Action → IterWorld → Option IterWorld
  | .channel a, w =>
      (DcWorld.apply a w.chan).map fun chan =>
        let w' : IterWorld := { w with chan := chan }
        match DcWorld.reader? a with
        | some t => w'.handOver t
        | none => w'
  | .next i t, w =>
      match w.iter i with
      | .suspended =>
          (DcWorld.apply (.loop (.recv t)) w.chan).map fun chan =>
            ({ w.begin i t with chan := chan } : IterWorld).handOver t
      | .inRecv => none
      | .finished _ => some { w with log := w.log ++ [.stopped i] }
  | .aclose i, w =>
      match w.iter i with
      | .suspended =>
          some { w with
            iter := update w.iter i (.finished .closed)
            log := w.log ++ [.closed i] }
      | .inRecv => none
      | .finished _ => some w

/-- Every message handed out, in order. -/
def handed (w : IterWorld) : List Message := w.log.filterMap IterObs.message?

variable {w w' : IterWorld} {a : Action} {t u : TaskId} {i j : Nat}

-- ============================================================ what a step is

/-- What a step can be: one that is no reader's own, a reader's, an
`__anext__` that gets to its `recv()`, one of an iterator that is over,
or a closing. -/
inductive Step (w : IterWorld) : Action → IterWorld → Prop
  | quiet (a : DcAction) (chan : DcWorld) (ha : DcWorld.reader? a = none)
      (h : DcWorld.apply a w.chan = some chan) :
      Step w (.channel a) { w with chan := chan }
  | reads (a : DcAction) (t : TaskId) (chan : DcWorld) (ha : DcWorld.reader? a = some t)
      (h : DcWorld.apply a w.chan = some chan) :
      Step w (.channel a) (({ w with chan := chan } : IterWorld).handOver t)
  | next (i : Nat) (t : TaskId) (chan : DcWorld) (hi : w.iter i = .suspended)
      (h : DcWorld.apply (.loop (.recv t)) w.chan = some chan) :
      Step w (.next i t) (({ w.begin i t with chan := chan } : IterWorld).handOver t)
  | exhausted (i : Nat) (t : TaskId) (how : IterEnd) (hi : w.iter i = .finished how) :
      Step w (.next i t) { w with log := w.log ++ [.stopped i] }
  | closes (i : Nat) (hi : w.iter i = .suspended) :
      Step w (.aclose i) { w with
        iter := update w.iter i (.finished .closed)
        log := w.log ++ [.closed i] }
  | closed (i : Nat) (how : IterEnd) (hi : w.iter i = .finished how) : Step w (.aclose i) w

/-- The transition takes no other step. -/
theorem step_cases (h : apply a w = some w') : Step w a w' := by
  cases a with
  | channel a =>
      obtain ⟨chan, hchan, rfl⟩ := Option.map_eq_some_iff.mp h
      cases ha : DcWorld.reader? a with
      | none => exact .quiet a chan ha hchan
      | some t => exact .reads a t chan ha hchan
  | next i t =>
      simp only [apply] at h
      split at h
      next hi =>
        obtain ⟨chan, hchan, rfl⟩ := Option.map_eq_some_iff.mp h
        exact .next i t chan hi hchan
      next => cases h
      next how hi =>
        cases h
        exact .exhausted i t how hi
  | aclose i =>
      simp only [apply] at h
      split at h
      next hi =>
        cases h
        exact .closes i hi
      next => cases h
      next how hi =>
        cases h
        exact .closed i how hi

-- ============================================================= the books

/-- An iterator that ended yields no more. -/
def EndsLast (log : List IterObs) : Prop :=
  log.Pairwise fun e e' => ∀ i m, e.ends? = some i → e' ≠ .yielded i m

/-- How it came about that an iterator is over. -/
def Ended (w : IterWorld) (i : Nat) : IterEnd → Prop
  | .returned => .stopped i ∈ w.log ∧ ∃ o ∈ w.chan.hist, o.closes = true
  | .thrown => .thrown i .cancelled ∈ w.log
  | .closed => .closed i ∈ w.log

/-- What the iterators have to show for themselves. -/
structure Books (w : IterWorld) : Prop where
  cause : DcWorld.CauseInv w.chan
  running : ∀ i, w.iter i = .inRecv ↔ ∃ t, w.awaiting t = some i
  single : ∀ t u i, w.awaiting t = some i → w.awaiting u = some i → t = u
  account : w.handed = w.chan.takenItems.reduceOption
  finished : ∀ i how, w.iter i = .finished how → w.Ended i how
  ends : ∀ e ∈ w.log, ∀ i, e.ends? = some i → ∃ how, w.iter i = .finished how
  last : EndsLast w.log
  thrown : ∀ i o, .thrown i o ∈ w.log → o = .cancelled

/-- A task that awaits an iterator is in its `recv()`. -/
structure IterInv (w : IterWorld) : Prop where
  books : Books w
  waits : ∀ t i, w.awaiting t = some i → w.chan.task t = .inGet

/-- An iterator that was not over may yield; one that was says nothing
more. -/
theorem EndsLast.snoc {log : List IterObs} {x : IterObs} (h : EndsLast log)
    (hx : ∀ i m, x = .yielded i m → ∀ e ∈ log, e.ends? ≠ some i) :
    EndsLast (log ++ [x]) := by
  refine List.pairwise_append.mpr ⟨h, List.pairwise_singleton _ _, ?_⟩
  intro e he e' he' i m hend heq
  rw [List.mem_singleton.mp he'] at heq
  exact hx i m heq e he hend

/-- What has ended stays ended, whatever comes to the history and the
log. -/
theorem Ended.mono {how : IterEnd} (h : w.Ended i how) (hh : w.chan.hist <+: w'.chan.hist)
    (hl : w.log <+: w'.log) : w'.Ended i how := by
  cases how with
  | returned =>
      obtain ⟨hmem, o, ho, hc⟩ := h
      exact ⟨hl.subset hmem, o, hh.subset ho, hc⟩
  | thrown => exact hl.subset h
  | closed => exact hl.subset h

/-- A step of the channel that takes nothing. -/
theorem Books.quiet {chan : DcWorld} (hb : Books w) (hc : DcWorld.CauseInv chan)
    (hh : w.chan.hist <+: chan.hist) (ht : chan.takenItems = w.chan.takenItems) :
    Books { w with chan := chan } where
  cause := hc
  running := hb.running
  single := hb.single
  account := hb.account.trans (by rw [ht])
  finished := fun i how hi => (hb.finished i how hi).mono hh (List.prefix_refl _)
  ends := hb.ends
  last := hb.last
  thrown := hb.thrown

/-- One more entry, for nobody or for an iterator that is over. -/
theorem Books.append {x : IterObs} {chan : DcWorld} {taken : List Message} (hb : Books w)
    (hc : DcWorld.CauseInv chan) (hh : w.chan.hist <+: chan.hist)
    (htaken : chan.takenItems.reduceOption = w.chan.takenItems.reduceOption ++ taken)
    (hx : [x].filterMap IterObs.message? = taken) (hyield : ∀ i m, x ≠ .yielded i m)
    (hends : ∀ i, x.ends? = some i → ∃ how, w.iter i = .finished how)
    (hthrown : ∀ i o, x ≠ .thrown i o) :
    Books { w with chan := chan, log := w.log ++ [x] } where
  cause := hc
  running := hb.running
  single := hb.single
  account := by
    show (w.log ++ [x]).filterMap IterObs.message? = chan.takenItems.reduceOption
    rw [List.filterMap_append, hx, htaken]
    exact congrArg (· ++ taken) hb.account
  finished := fun i how hi => (hb.finished i how hi).mono hh (List.prefix_append _ _)
  ends := by
    intro e hmem i hend
    rcases List.mem_append.mp hmem with hmem | hmem
    · exact hb.ends e hmem i hend
    · rw [List.mem_singleton.mp hmem] at hend
      exact hends i hend
  last := hb.last.snoc fun i m heq => absurd heq (hyield i m)
  thrown := by
    intro i o hmem
    rcases List.mem_append.mp hmem with hmem | hmem
    · exact hb.thrown i o hmem
    · exact absurd (List.mem_singleton.mp hmem).symm (hthrown i o)

/-- An iterator is awaited. -/
theorem Books.begin (hb : Books w) (hi : w.iter i = .suspended) (ht : w.awaiting t = none) :
    Books (w.begin i t) where
  cause := hb.cause
  running := by
    intro j
    show update w.iter i .inRecv j = .inRecv ↔ ∃ u, update w.awaiting t (some i) u = some j
    by_cases hj : j = i
    · subst hj
      rw [Function.update_self]
      exact ⟨fun _ => ⟨t, Function.update_self _ _ _⟩, fun _ => rfl⟩
    · rw [Function.update_of_ne hj, hb.running j]
      refine exists_congr fun u => ?_
      by_cases hu : u = t
      · subst hu
        rw [Function.update_self, ht]
        exact ⟨nofun, fun h => absurd (Option.some.inj h).symm hj⟩
      · rw [Function.update_of_ne hu]
  single := by
    intro u v j hu hv
    have hnone : ∀ u, w.awaiting u ≠ some i := by
      intro u hu
      have hin := (hb.running i).mpr ⟨u, hu⟩
      cases hi.symm.trans hin
    have hone : ∀ {u}, u ≠ t → update w.awaiting t (some i) u = some j → j ≠ i := by
      intro u hne hu heq
      rw [Function.update_of_ne hne, heq] at hu
      exact hnone u hu
    by_cases hut : u = t
    · by_cases hvt : v = t
      · rw [hut, hvt]
      · have hji : j = i := by
          have hu' : update w.awaiting t (some i) u = some j := hu
          rw [hut, Function.update_self] at hu'
          exact (Option.some.inj hu').symm
        exact absurd hji (hone hvt hv)
    · by_cases hvt : v = t
      · have hji : j = i := by
          have hv' : update w.awaiting t (some i) v = some j := hv
          rw [hvt, Function.update_self] at hv'
          exact (Option.some.inj hv').symm
        exact absurd hji (hone hut hu)
      · have hu' : update w.awaiting t (some i) u = some j := hu
        have hv' : update w.awaiting t (some i) v = some j := hv
        rw [Function.update_of_ne hut] at hu'
        rw [Function.update_of_ne hvt] at hv'
        exact hb.single u v j hu' hv'
  account := hb.account
  finished := by
    intro j how hj
    have hj' : update w.iter i .inRecv j = .finished how := hj
    by_cases hji : j = i
    · rw [hji, Function.update_self] at hj'
      cases hj'
    · rw [Function.update_of_ne hji] at hj'
      exact hb.finished j how hj'
  ends := by
    intro e hmem j hend
    obtain ⟨how, hj⟩ := hb.ends e hmem j hend
    refine ⟨how, ?_⟩
    show update w.iter i .inRecv j = _
    have hji : j ≠ i := by
      intro heq
      rw [heq, hi] at hj
      cases hj
    rw [Function.update_of_ne hji]
    exact hj
  last := hb.last
  thrown := hb.thrown

/-- The iterator a task awaits is handed the end of its `recv()`. -/
theorem Books.hand {s : Iteration} {x : IterObs} {chan : DcWorld} {taken : List Message}
    (hb : Books w) (hw : w.awaiting t = some i) (hc : DcWorld.CauseInv chan)
    (hh : w.chan.hist <+: chan.hist)
    (htaken : chan.takenItems.reduceOption = w.chan.takenItems.reduceOption ++ taken)
    (hx : [x].filterMap IterObs.message? = taken) (hs : s ≠ .inRecv)
    (hover : ∀ how, s = .finished how →
      Ended { w with chan := chan, log := w.log ++ [x] } i how)
    (hends : ∀ j, x.ends? = some j → j = i ∧ ∃ how, s = .finished how)
    (hyield : ∀ j m, x = .yielded j m → j = i)
    (hthrown : ∀ j o, x = .thrown j o → o = .cancelled) :
    Books { w with
      chan := chan
      iter := update w.iter i s
      awaiting := update w.awaiting t none
      log := w.log ++ [x] } where
  cause := hc
  running := by
    intro j
    show update w.iter i s j = .inRecv ↔ ∃ u, update w.awaiting t none u = some j
    have hleft : ∀ u, update w.awaiting t none u = some j ↔ w.awaiting u = some j ∧ j ≠ i := by
      intro u
      by_cases hu : u = t
      · subst hu
        rw [Function.update_self, hw]
        exact ⟨fun h => (by cases h), fun h => absurd (Option.some.inj h.1).symm h.2⟩
      · rw [Function.update_of_ne hu]
        refine ⟨fun h => ⟨h, fun heq => hu ?_⟩, fun h => h.1⟩
        rw [heq] at h
        exact hb.single u t i h hw
    by_cases hj : j = i
    · subst hj
      rw [Function.update_self]
      exact ⟨fun h => absurd h hs, fun ⟨u, hu⟩ => absurd rfl ((hleft u).mp hu).2⟩
    · rw [Function.update_of_ne hj, hb.running j]
      exact exists_congr fun u => ⟨fun h => (hleft u).mpr ⟨h, hj⟩, fun h => ((hleft u).mp h).1⟩
  single := by
    intro u v j hu hv
    have hkeep : ∀ {u}, update w.awaiting t none u = some j → w.awaiting u = some j := by
      intro u hu
      by_cases hut : u = t
      · rw [hut, Function.update_self] at hu
        cases hu
      · rw [Function.update_of_ne hut] at hu
        exact hu
    exact hb.single u v j (hkeep hu) (hkeep hv)
  account := by
    show (w.log ++ [x]).filterMap IterObs.message? = chan.takenItems.reduceOption
    rw [List.filterMap_append, hx, htaken]
    exact congrArg (· ++ taken) hb.account
  finished := by
    intro j how hj
    have hj' : update w.iter i s j = .finished how := hj
    by_cases hji : j = i
    · rw [hji, Function.update_self] at hj'
      rw [hji]
      exact (hover how hj').mono (List.prefix_refl _) (List.prefix_refl _)
    · rw [Function.update_of_ne hji] at hj'
      exact (hb.finished j how hj').mono hh (List.prefix_append _ _)
  ends := by
    intro e hmem j hend
    show ∃ how, update w.iter i s j = .finished how
    rcases List.mem_append.mp hmem with hmem | hmem
    · obtain ⟨how, hj⟩ := hb.ends e hmem j hend
      refine ⟨how, ?_⟩
      have hji : j ≠ i := by
        intro heq
        rw [heq, (hb.running i).mpr ⟨t, hw⟩] at hj
        cases hj
      rw [Function.update_of_ne hji]
      exact hj
    · rw [List.mem_singleton.mp hmem] at hend
      obtain ⟨rfl, how, hhow⟩ := hends j hend
      exact ⟨how, by rw [Function.update_self, hhow]⟩
  last := by
    refine hb.last.snoc fun j m heq e hmem hend => ?_
    obtain ⟨how, hj⟩ := hb.ends e hmem j hend
    rw [hyield j m heq, (hb.running i).mpr ⟨t, hw⟩] at hj
    cases hj
  thrown := by
    intro j o hmem
    rcases List.mem_append.mp hmem with hmem | hmem
    · exact hb.thrown j o hmem
    · exact hthrown j o (List.mem_singleton.mp hmem).symm

-- =============================================================== one step

/-- A direct `recv()` ends. -/
theorem Books.receives {o : Outcome (Option Message) Exc} {chan : DcWorld}
    {taken : List Message} (hb : Books w) (hc : DcWorld.CauseInv chan)
    (hh : w.chan.hist <+: chan.hist)
    (htaken : chan.takenItems.reduceOption = w.chan.takenItems.reduceOption ++ taken)
    (hx : [IterObs.received t o].filterMap IterObs.message? = taken) :
    Books { w with chan := chan, log := w.log ++ [.received t o] } :=
  hb.append hc hh htaken hx (by simp) (by simp [IterObs.ends?]) (by simp)

/-- A taken message is one more; a taken sentinel is none. -/
theorem takenItems_took {c c' : DcWorld} {item : Item}
    (hh : c'.hist = c.hist ++ [.took t item]) :
    c'.takenItems.reduceOption = c.takenItems.reduceOption ++ item.entry.toList := by
  unfold DcWorld.takenItems
  rw [hh, List.filterMap_append, List.reduceOption_append]
  cases item <;> rfl

/-- Nothing taken is nothing more. -/
theorem takenItems_same {c c' : DcWorld} (hh : c'.hist = c.hist) :
    c'.takenItems.reduceOption = c.takenItems.reduceOption ++ [] := by
  unfold DcWorld.takenItems
  rw [hh, List.append_nil]

/-- A task whose `recv()` ended shows how. -/
theorem recvEnd_update {c c' : DcWorld} {st : TaskState} (ht : c'.task = update c.task t st)
    {o : Outcome (Option Message) Exc} (hst : st = .running (some (.recv, o))) :
    c'.recvEnd t = some o := by
  unfold DcWorld.recvEnd
  rw [ht, Function.update_self, hst]

/-- After a reader's step with its hand-over, whoever awaits an iterator
is in its `recv()`. -/
theorem waits_after {chan : DcWorld} {st : TaskState} {awaiting : TaskId → Option Nat}
    (hwaits : ∀ u i, w.awaiting u = some i → u ≠ t → w.chan.task u = .inGet)
    (htask : chan.task = update w.chan.task t st)
    (hold : ∀ u, u ≠ t → awaiting u = w.awaiting u)
    (hself : ∀ i, awaiting t = some i → st = .inGet) :
    ∀ u i, awaiting u = some i → chan.task u = .inGet := by
  intro u i hu
  by_cases hut : u = t
  · rw [hut] at hu ⊢
    rw [htask, Function.update_self]
    exact hself i hu
  · rw [hold u hut] at hu
    rw [htask, Function.update_of_ne hut]
    exact hwaits u i hu hut

/-- A reader's step, with the hand-over, keeps the books. -/
theorem hand_step {chan : DcWorld} (hb : Books w)
    (hwaits : ∀ u i, w.awaiting u = some i → u ≠ t → w.chan.task u = .inGet)
    (hc : DcWorld.CauseInv chan) (hr : DcWorld.Reads t w.chan chan) :
    IterInv (({ w with chan := chan } : IterWorld).handOver t) := by
  have hcleared : ∀ u, u ≠ t → update w.awaiting t none u = w.awaiting u :=
    fun u hu => Function.update_of_ne hu _ _
  have hgone : ∀ {st : TaskState} (i : Nat), update w.awaiting t none t = some i →
      st = .inGet := by
    intro st i h
    rw [Function.update_self] at h
    cases h
  unfold handOver
  cases hr with
  | waits hh ht =>
      have hsame : w.chan.hist <+: chan.hist := ⟨[], by rw [hh, List.append_nil]⟩
      have hend : chan.recvEnd t = none := by
        unfold DcWorld.recvEnd
        rw [ht, Function.update_self]
      simp only [hend]
      refine ⟨hb.quiet hc hsame ?_, waits_after hwaits ht (fun _ _ => rfl) fun _ _ => rfl⟩
      unfold DcWorld.takenItems
      rw [hh]
  | cancelled hh ht =>
      have hsame : w.chan.hist <+: chan.hist := ⟨[], by rw [hh, List.append_nil]⟩
      simp only [recvEnd_update ht rfl]
      cases hw : w.awaiting t with
      | none =>
          refine ⟨hb.receives hc hsame (takenItems_same hh) rfl,
            waits_after hwaits ht (fun _ _ => rfl) fun i hi => ?_⟩
          cases hw.symm.trans hi
      | some i =>
          refine ⟨hb.hand (s := .finished .thrown) hw hc hsame (takenItems_same hh) rfl
            (by simp) ?_ ?_ (by simp) ?_, waits_after hwaits ht hcleared hgone⟩
          · intro how hhow
            cases hhow
            exact List.mem_append_right _ (List.mem_singleton_self _)
          · intro j hj
            exact ⟨(Option.some.inj hj).symm, _, rfl⟩
          · intro j o hx
            cases hx
            rfl
  | took item hi hh ht =>
      have hgrows : w.chan.hist <+: chan.hist := by
        rw [hh]
        exact List.prefix_append _ _
      simp only [recvEnd_update ht rfl]
      cases hw : w.awaiting t with
      | none =>
          refine ⟨hb.receives hc hgrows (takenItems_took hh) (by cases item <;> rfl),
            waits_after hwaits ht (fun _ _ => rfl) fun i hi => ?_⟩
          cases hw.symm.trans hi
      | some i =>
          cases item with
          | data m =>
              refine ⟨hb.hand (s := .suspended) hw hc hgrows (takenItems_took hh) rfl
                (by simp) (by simp) (by simp [IterObs.ends?]) ?_ (by simp),
                waits_after hwaits ht hcleared hgone⟩
              intro j m' hx
              cases hx
              rfl
          | closedSentinel =>
              refine ⟨hb.hand (s := .finished .returned) hw hc hgrows (takenItems_took hh) rfl
                (by simp) ?_ ?_ (by simp) (by simp), waits_after hwaits ht hcleared hgone⟩
              · intro how hhow
                cases hhow
                -- the sentinel it took came with a closing
                obtain ⟨o, ho, hcloses⟩ := hb.cause.sentinel hi
                exact ⟨List.mem_append_right _ (List.mem_singleton_self _), o,
                  hgrows.subset ho, hcloses⟩
              · intro j hj
                exact ⟨(Option.some.inj hj).symm, _, rfl⟩

/-- An iterator that nobody awaits is closed. -/
theorem Books.closes (hb : Books w) (hi : w.iter i = .suspended) :
    Books { w with iter := update w.iter i (.finished .closed), log := w.log ++ [.closed i] } where
  cause := hb.cause
  running := by
    intro j
    show update w.iter i (.finished .closed) j = .inRecv ↔ ∃ u, w.awaiting u = some j
    rw [← hb.running j]
    by_cases hj : j = i
    · rw [hj, Function.update_self, hi]
      simp
    · rw [Function.update_of_ne hj]
  single := hb.single
  account := by
    unfold handed
    rw [List.filterMap_append]
    exact (List.append_nil _).trans hb.account
  finished := by
    intro j how hj
    have hj' : update w.iter i (.finished .closed) j = .finished how := hj
    by_cases hji : j = i
    · rw [hji, Function.update_self] at hj'
      cases hj'
      rw [hji]
      exact List.mem_append_right _ (List.mem_singleton_self _)
    · rw [Function.update_of_ne hji] at hj'
      exact (hb.finished j how hj').mono (List.prefix_refl _) (List.prefix_append _ _)
  ends := by
    intro e hmem j hend
    show ∃ how, update w.iter i (.finished .closed) j = .finished how
    by_cases hji : j = i
    · exact ⟨.closed, by rw [hji, Function.update_self]⟩
    · rw [Function.update_of_ne hji]
      rcases List.mem_append.mp hmem with hmem | hmem
      · exact hb.ends e hmem j hend
      · rw [List.mem_singleton.mp hmem] at hend
        exact absurd (Option.some.inj hend).symm hji
  last := hb.last.snoc fun j m heq => by cases heq
  thrown := by
    intro j o hmem
    rcases List.mem_append.mp hmem with hmem | hmem
    · exact hb.thrown j o hmem
    · cases List.mem_singleton.mp hmem

/-- A task resumed elsewhere hands nothing to an iterator. -/
theorem elsewhere_step {chan : DcWorld} (hi : IterInv w) (hc : DcWorld.CauseInv chan)
    (hout : w.chan.task t ≠ .inGet) (h : w.chan.resume t = some chan) :
    IterInv (({ w with chan := chan } : IterWorld).handOver t) := by
  have hb := hi.books
  obtain ⟨hh, st, ht, hm⟩ := DcWorld.resume_elsewhere hb.cause.loop.reinjecting hout h
  have hsame : w.chan.hist <+: chan.hist := ⟨[], by rw [hh, List.append_nil]⟩
  have hnone : w.awaiting t = none := by
    cases hw : w.awaiting t with
    | none => rfl
    | some j => exact absurd (hi.waits t j hw) hout
  have hwaits : ∀ u i, w.awaiting u = some i → chan.task u = .inGet :=
    waits_after (fun u i hu _ => hi.waits u i hu) ht (fun _ _ => rfl) fun i hw => by
      cases hnone.symm.trans hw
  unfold handOver
  cases hend : chan.recvEnd t with
  | none =>
      refine ⟨hb.quiet hc hsame ?_, hwaits⟩
      unfold DcWorld.takenItems
      rw [hh]
  | some o =>
      simp only [hnone]
      refine ⟨hb.receives hc hsame (takenItems_same hh) ?_, hwaits⟩
      cases o with
      | returned m =>
          cases m with
          | none => rfl
          | some m =>
              unfold DcWorld.recvEnd at hend
              rw [ht, Function.update_self] at hend
              split at hend
              next o =>
                cases hend
                exact absurd rfl (hm m)
              next => cases hend
      | raised e => rfl
      | cancelled => rfl

/-- Each kind of step keeps the account of the iterators. -/
theorem iterInv_step (hi : IterInv w) (h : Step w a w') : IterInv w' := by
  have hb := hi.books
  cases h with
  | quiet b chan hq hstep =>
      have hc := DcWorld.causeInv_apply hb.cause hstep
      refine ⟨hb.quiet hc (DcWorld.hist_apply hstep)
        (DcWorld.takenItems_apply hb.cause.loop.reinjecting hq hstep), fun t i hw => ?_⟩
      exact DcWorld.waits_apply hb.cause.loop.send hq hstep (hi.waits t i hw)
  | reads b t chan hq hstep =>
      have hc := DcWorld.causeInv_apply hb.cause hstep
      have hwaits : ∀ u i, w.awaiting u = some i → u ≠ t → w.chan.task u = .inGet :=
        fun u i hu _ => hi.waits u i hu
      obtain ⟨t, rfl⟩ | ⟨t, rfl⟩ := DcWorld.reader_cases hq
      · cases hq
        obtain ⟨rfl, -⟩ := DcWorld.started_eq (DcWorld.apply_loop_cases hstep).2
        exact hand_step hb hwaits hc (DcWorld.reads_recv _ _)
      · cases hq
        have hloop := (DcWorld.apply_loop_cases hstep).2
        by_cases hin : w.chan.task t = .inGet
        · exact hand_step hb hwaits hc (DcWorld.reads_resume hin hloop)
        · exact elsewhere_step hi hc hin hloop
  | next i t chan hs hstep =>
      have hc := DcWorld.causeInv_apply hb.cause hstep
      obtain ⟨hidle, hloop⟩ := DcWorld.apply_loop_cases hstep
      obtain ⟨rfl, last, hl⟩ := DcWorld.started_eq hloop
      have hnone : w.awaiting t = none := by
        cases hw : w.awaiting t with
        | none => rfl
        | some j => cases hl.symm.trans (hi.waits t j hw)
      refine hand_step (hb.begin hs hnone) (fun u j hu hut => ?_) hc (DcWorld.reads_recv _ t)
      have hu' : update w.awaiting t (some i) u = some j := hu
      rw [Function.update_of_ne hut] at hu'
      exact hi.waits u j hu'
  | exhausted i t how hs =>
      refine ⟨hb.append hb.cause (List.prefix_refl _) (takenItems_same rfl) rfl (by simp)
        (fun j hj => ?_) (by simp), hi.waits⟩
      cases hj
      exact ⟨how, hs⟩
  | closes i hs => exact ⟨hb.closes hs, hi.waits⟩
  | closed i how hs => exact hi

/-- Every step keeps the account of the iterators. -/
theorem iterInv_apply (hi : IterInv w) (h : apply a w = some w') : IterInv w' :=
  iterInv_step hi (step_cases h)

-- ============================================================= to the end

/-- To hand an item over is no step of the channel. -/
theorem handOver_chan (t : TaskId) (w : IterWorld) : (w.handOver t).chan = w.chan := by
  unfold handOver
  split
  next => rfl
  next o he =>
    split
    next => rfl
    next i hw =>
      unfold resumed
      split <;> rfl

/-- The hand-over ends a wait for an iterator, and begins none. -/
theorem handOver_awaiting (h : (w.handOver t).awaiting u = some i) : w.awaiting u = some i := by
  have hkeep : update w.awaiting t none u = some i → w.awaiting u = some i := by
    intro hu
    by_cases hut : u = t
    · rw [hut, Function.update_self] at hu
      cases hu
    · rw [Function.update_of_ne hut] at hu
      exact hu
  unfold handOver at h
  split at h
  next => exact h
  next o he =>
    split at h
    next => exact h
    next j hw =>
      unfold resumed at h
      split at h <;> exact hkeep h

/-- Every run of the channel is one here. -/
theorem exec_channel {acts : List DcAction} {c : DcWorld}
    (h : exec DcWorld.apply w.chan acts = some c) :
    ∃ v, exec apply w (acts.map .channel) = some v ∧ v.chan = c
      ∧ ∀ u j, v.awaiting u = some j → w.awaiting u = some j := by
  induction acts generalizing w with
  | nil =>
      cases h
      exact ⟨w, rfl, rfl, fun _ _ hu => hu⟩
  | cons b acts ih =>
      obtain ⟨chan, hstep, hrest⟩ := Transition.exec_cons_cases h
      have hone : ∃ v, apply (.channel b) w = some v ∧ v.chan = chan
          ∧ ∀ u j, v.awaiting u = some j → w.awaiting u = some j := by
        simp only [apply, hstep, Option.map_some]
        cases DcWorld.reader? b with
        | none => exact ⟨_, rfl, rfl, fun _ _ hu => hu⟩
        | some t =>
            exact ⟨({ w with chan := chan } : IterWorld).handOver t, rfl, handOver_chan t _,
              fun _ _ hu => handOver_awaiting (w := { w with chan := chan }) hu⟩
      obtain ⟨v, hv, rfl, hold⟩ := hone
      obtain ⟨v', hv', hchan, hold'⟩ := ih hrest
      refine ⟨v', ?_, hchan, fun u j hu => hold u j (hold' u j hu)⟩
      rw [List.map_cons, Transition.exec_cons hv]
      exact hv'

/-- With a sentinel in the queue, the loop going on by itself ends every
`__anext__`. -/
theorem released (hi : IterInv w) (hs : Item.closedSentinel ∈ w.chan.dc.recvQueue.items)
    (hin : w.iter i = .inRecv) :
    ∃ (acts : List DcAction) (v : IterWorld), (∀ b ∈ acts, DcWorld.continues b = true)
      ∧ exec apply w (acts.map .channel) = some v ∧ v.iter i ≠ .inRecv := by
  obtain ⟨t, ht⟩ := (hi.books.running i).mp hin
  have hloop := hi.books.cause.loop
  obtain ⟨acts, c, o, hacts, hexec, hend⟩ :=
    DcWorld.reader_released hloop.send hloop.readers hs (hi.waits t i ht)
  obtain ⟨v, hv, rfl, hold⟩ := exec_channel hexec
  refine ⟨acts, v, hacts, hv, fun hstill => ?_⟩
  -- the channel alone begins no `__anext__`, so one still pending is the old one
  have hiv : IterInv v := (Transition.reachable_of_exec hv).invariant hi iterInv_apply
  obtain ⟨u, hu⟩ := (hiv.books.running i).mp hstill
  have hut : u = t := hi.books.single u t i (hold u i hu) ht
  rw [hut] at hu
  cases hend.symm.trans (hiv.waits t i hu)

/-- An `__anext__` that finds an item ends in the step it began in. -/
theorem next_takes {item : Item} {rest : List Item}
    {last : Option (Call × Outcome (Option Message) Exc)} (hs : w.iter i = .suspended)
    (hidle : w.chan.position = .idle) (hl : w.chan.task t = .running last)
    (hitems : w.chan.dc.recvQueue.items = item :: rest) :
    apply (.next i t) w
      = some (({ w.begin i t with
          chan := w.chan.recv t
          awaiting := update (update w.awaiting t (some i)) t none } : IterWorld).resumed i
            (w.chan.recvOutcome item)) := by
  have hstep : DcWorld.apply (.loop (.recv t)) w.chan = some (w.chan.recv t) := by
    simp only [DcWorld.apply, if_pos hidle, DcWorld.applyLoop, DcWorld.started, hl]
  have hend : (w.chan.recv t).recvEnd t = some (w.chan.recvOutcome item) := by
    unfold DcWorld.recvEnd
    rw [(DcWorld.recv_takes hitems).2]
  simp only [apply, hs, hstep, Option.map_some, handOver, hend, begin, Function.update_self]

/-- `recv()` takes the message ahead of the others. -/
theorem recv_data {c : DcWorld} {m : Message} {rest : List Item}
    (hitems : c.dc.recvQueue.items = .data m :: rest) :
    (c.recv t).dc.recvQueue.items = rest ∧ (c.recv t).position = c.position := by
  have hget : c.dc.recvQueue.getNowait = some (.data m, c.dc.recvQueue.drop) := by
    unfold Queue.getNowait
    rw [hitems]
  unfold DcWorld.recv
  rw [hget]
  refine ⟨?_, rfl⟩
  show c.dc.recvQueue.drop.items = rest
  rw [Queue.drop_items, hitems, List.tail_cons]

/-- A loop left to itself yields what is queued ahead of the sentinel
and ends. By induction on these messages. -/
theorem drained {messages : List Message} {rest : List Item}
    {last : Option (Call × Outcome (Option Message) Exc)} (hs : w.iter i = .suspended)
    (hidle : w.chan.position = .idle) (hl : w.chan.task t = .running last)
    (hitems : w.chan.dc.recvQueue.items = messages.map .data ++ .closedSentinel :: rest) :
    ∃ v, exec apply w (List.replicate (messages.length + 1) (.next i t)) = some v
      ∧ v.log = w.log ++ messages.map (fun m => .yielded i (some m)) ++ [.stopped i]
      ∧ v.iter i = .finished .returned := by
  induction messages generalizing w last with
  | nil =>
      have hstep := next_takes hs hidle hl hitems
      refine ⟨_, (Transition.exec_cons hstep).trans rfl, ?_, Function.update_self _ _ _⟩
      rw [List.map_nil, List.append_nil]
      rfl
  | cons m messages ih =>
      have hstep := next_takes hs hidle hl hitems
      obtain ⟨hrest, hpos⟩ := recv_data (t := t) hitems
      obtain ⟨v, hexec, hlog, hover⟩ := ih
        (w := ({ w.begin i t with
          chan := w.chan.recv t
          awaiting := update (update w.awaiting t (some i)) t none } : IterWorld).resumed i
            (w.chan.recvOutcome (.data m)))
        (Function.update_self _ _ _) (hpos.trans hidle) (DcWorld.recv_takes hitems).2 hrest
      refine ⟨v, ?_, ?_, hover⟩
      · rw [List.length_cons, List.replicate_succ, Transition.exec_cons hstep]
        exact hexec
      · rw [hlog, List.map_cons, List.append_cons w.log]
        rfl

-- ================================================================== runs

/-- The iterators over a channel: what was taken off the queue was handed
out, in order, and with what is queued it is a subsequence of what was
dispatched, all of it if no message was dropped; an iterator is over for
a reason on record, yields nothing after, and lets nothing but a
cancellation through; with a sentinel in the queue every `__anext__` can
be ended; and a loop left to itself yields what is queued ahead of the
sentinel and ends. -/
structure Iterated (w : IterWorld) : Prop where
  taken : w.handed = w.chan.takenItems.reduceOption
  ordered : (w.handed ++ w.chan.queued).Sublist w.chan.arrivals
  complete : (∀ m, DcObs.dropped (.data m) ∉ w.chan.hist) →
    w.handed ++ w.chan.queued = w.chan.arrivals
  ends : ∀ e ∈ w.log, ∀ i, e.ends? = some i → ∃ how, w.iter i = .finished how
  finished : ∀ i how, w.iter i = .finished how → w.Ended i how
  last : EndsLast w.log
  thrown : ∀ i o, .thrown i o ∈ w.log → o = .cancelled
  released : Item.closedSentinel ∈ w.chan.dc.recvQueue.items →
    ∀ i, w.iter i = .inRecv → ∃ (acts : List DcAction) (v : IterWorld),
      (∀ b ∈ acts, DcWorld.continues b = true)
      ∧ exec apply w (acts.map .channel) = some v ∧ v.iter i ≠ .inRecv
  drained : ∀ i t last (messages : List Message) rest, w.iter i = .suspended →
    w.chan.position = .idle → w.chan.task t = .running last →
    w.chan.dc.recvQueue.items = messages.map .data ++ .closedSentinel :: rest →
    ∃ v, exec apply w (List.replicate (messages.length + 1) (.next i t)) = some v
      ∧ v.log = w.log ++ messages.map (fun m => .yielded i (some m)) ++ [.stopped i]
      ∧ v.iter i = .finished .returned

/-- A step of a run is at most one step of the channel. -/
theorem chan_step (h : apply a w = some w') :
    w'.chan = w.chan ∨ ∃ b, DcWorld.apply b w.chan = some w'.chan := by
  cases step_cases h with
  | quiet b chan hq hstep => exact Or.inr ⟨b, hstep⟩
  | reads b t chan hq hstep =>
      rw [handOver_chan]
      exact Or.inr ⟨b, hstep⟩
  | next i t chan hs hstep =>
      rw [handOver_chan]
      exact Or.inr ⟨_, hstep⟩
  | exhausted i t how hs => exact Or.inl rfl
  | closes i hs => exact Or.inl rfl
  | closed i how hs => exact Or.inl rfl

/-- The channel runs as it does without iterators. -/
theorem chan_reachable (h : Transition.Reachable apply w w') :
    Transition.Reachable DcWorld.apply w.chan w'.chan := by
  induction h with
  | init => exact .init
  | step a _ ha ih =>
      rcases chan_step ha with heq | ⟨b, hb⟩
      · rw [heq]
        exact ih
      · exact .step b ih hb

/-- What left the queue was handed out, but for the messages dropped. -/
theorem left_eq_taken {c : DcWorld} (hd : ∀ m, DcObs.dropped (.data m) ∉ c.hist) :
    c.leftItems.reduceOption = c.takenItems.reduceOption := by
  unfold DcWorld.leftItems DcWorld.takenItems List.reduceOption
  rw [List.filterMap_filterMap, List.filterMap_filterMap]
  refine List.filterMap_congr fun o ho => ?_
  cases o with
  | dropped item =>
      cases item with
      | data m => exact absurd ho (hd m)
      | closedSentinel => rfl
  | _ => rfl

section Init

variable (handle : Int) (recvBuffer : Nat) (native : NativeChannel)
  (fired : List DcEvent) (core : Core)

/-- A channel that nobody iterates keeps the account. -/
theorem iterInv_init : IterInv (init (DcWorld.init handle recvBuffer native fired core)) where
  books :=
    { cause := DcWorld.causeInv_init handle recvBuffer native fired core
      running := fun i => ⟨fun h => (by cases h), fun ⟨t, h⟩ => (by cases h)⟩
      single := fun t u i h => by cases h
      account := by
        have hnone : (DcWorld.init handle recvBuffer native fired core).takenItems = [] := by
          show ((if native.isOpen then [DcObs.opened] else [])
            ++ (if native.isClosed then [DcObs.closedAtBirth] else [])).filterMap
              DcObs.took? = []
          cases native.isOpen <;> cases native.isClosed <;> rfl
        show ([] : List IterObs).filterMap IterObs.message?
          = (DcWorld.init handle recvBuffer native fired core).takenItems.reduceOption
        rw [hnone]
        rfl
      finished := fun i how h => by cases h
      ends := fun e h => by cases h
      last := List.Pairwise.nil
      thrown := fun i o h => by cases h }
  waits := fun t i h => by cases h

/-- Every state of every run of any number of iterators and direct
`recv()` calls, with messages, closings and cancellations, over a queue
of capacity at least one. -/
theorem iterated_exact (hc : 1 ≤ recvBuffer) {acts : List Action}
    (hrun : exec apply (init (DcWorld.init handle recvBuffer native fired core)) acts
      = some w) : Iterated w := by
  have hreach := Transition.reachable_of_exec hrun
  have hi : IterInv w := hreach.invariant (iterInv_init handle recvBuffer native fired core)
    iterInv_apply
  have hd : DcWorld.Delivered recvBuffer w.chan :=
    DcWorld.delivered_of_reachable handle recvBuffer native fired core hc
      (chan_reachable hreach)
  have hb := hi.books
  constructor
  · exact hb.account
  · rw [hb.account]
    exact hd.returned
  · intro hdropped
    rw [hb.account, ← left_eq_taken hdropped]
    exact hd.conserved
  · exact hb.ends
  · exact hb.finished
  · exact hb.last
  · exact hb.thrown
  · exact fun hs i hin => released hi hs hin
  · exact fun i t last messages rest hs hidle hl hitems => drained hs hidle hl hitems

end Init

/-- A loop that is cancelled while it waits, awaited again, and a second
one that gets what came after and the closing. -/
def abandonedLoopRun : List Action :=
  [.channel (.native (.fire (.message (.bytes [1])))), .channel (.loop .dispatch),
    .next 0 (.user 0), .next 0 (.user 0), .channel (.loop (.cancel (.user 0))),
    .channel (.loop (.resume (.user 0))), .channel (.native (.fire (.message (.bytes [2])))),
    .channel (.loop .dispatch), .next 0 (.user 0), .channel (.loop .close),
    .next 1 (.user 0), .next 1 (.user 0)]

/-- `iterated_exact` at `abandonedLoopRun`: the first loop stops with a
message queued, which the second one gets. -/
theorem iterated_exact_abandonedLoopRun :
    ∃ v, exec apply (init (DcWorld.init 1 2 DcWorld.openNative [] DcWorld.emptyCore))
        abandonedLoopRun = some v
      ∧ v.log = [.yielded 0 (some (.bytes [1])), .thrown 0 .cancelled, .stopped 0,
          .yielded 1 (some (.bytes [2])), .stopped 1]
      ∧ v.iter 0 = .finished .thrown ∧ v.iter 1 = .finished .returned ∧ Iterated v := by
  have hrun : ∃ v, exec apply (init (DcWorld.init 1 2 DcWorld.openNative []
        DcWorld.emptyCore)) abandonedLoopRun = some v
      ∧ v.log = [.yielded 0 (some (.bytes [1])), .thrown 0 .cancelled, .stopped 0,
          .yielded 1 (some (.bytes [2])), .stopped 1]
      ∧ v.iter 0 = .finished .thrown ∧ v.iter 1 = .finished .returned := ⟨_, rfl, rfl, rfl, rfl⟩
  obtain ⟨v, hv, hlog, hfirst, hsecond⟩ := hrun
  exact ⟨v, hv, hlog, hfirst, hsecond,
    iterated_exact 1 2 DcWorld.openNative [] DcWorld.emptyCore (by decide) hv⟩

end IterWorld

end AioLibDataChannel
