/-
The teardown task, cancelled itself.

Nobody but the loop holds `_teardown`, but a loop that is shut down
cancels every task it has, and this one is among them. The cancellation
reaches the task at its next step. Before the first one the coroutine
has not begun, so there is no `finally` to run; in the `gather` it goes
on to the owned tasks, and is raised when these are done; at the
executor's future it drops the job, unless a thread has it.

So the closed event is set by every teardown that began, and what it
says depends on how far it came: the channels and the native handle may
still be there. `close()` makes no second task (`_closed` is up), and
nothing else of the connection deletes the handle: it stays in the
registry, and the sweep at exit finds it.

`Shutdown.uncut` is the shutdown without what the `finally` of a
cancelled task did. The steps of the machine do not look at the event,
so what is proved of them holds of it.
-/
import AioLibDataChannel.PeerConnection.Barrier
import AioLibDataChannel.Wrapper.Dispatch

namespace AioLibDataChannel

open Asyncio (Event Outcome)
open Transition (exec)

/-- What came of cancelling the teardown: nobody did; it is on its way;
or it reached the task before its first step, in its `gather`, or at the
executor's future, with the job dropped or past that. -/
inductive Abort
  | none
  | asked
  | unstarted
  | ungathered
  | dropped
  | detached
deriving DecidableEq, Repr

namespace Abort

/-- The `finally` of the cancelled task has run. -/
def ran : Abort → Bool
  | ungathered => true
  | dropped => true
  | detached => true
  | _ => false

/-- The native destroy will not be called any more. -/
def keeps : Abort → Bool
  | unstarted => true
  | ungathered => true
  | dropped => true
  | _ => false

/-- The task goes on as if nothing had happened. -/
def goesOn : Abort → Bool
  | none => true
  | _ => false

/-- A thread finds the job, if it was submitted. -/
def finds : Abort → Bool
  | dropped => false
  | _ => true

/-- A cancelled task takes no step of its own any more, and a dropped job
is passed over. -/
def blocks (b : Abort) : PcAction → Bool
  | .loop .startTeardown => !b.goesOn
  | .loop .resumeTeardown => !b.goesOn
  | .loop .endTeardown => !b.goesOn
  | .native .beginDestroy => !b.finds
  | _ => false

/-- Where it left the teardown. -/
def Left : Abort → PcTeardown → Prop
  | none, _ => True
  | asked, t => t ≠ .absent ∧ t ≠ .finished
  | unstarted, t => t = .created
  | ungathered, t => ∃ tasks, t = .gathering tasks
  | dropped, t => t = .destroying .queued
  | detached, t => ∃ phase, t = .destroying phase ∧ phase ≠ .queued

variable {b : Abort} {p p' : DestroyPhase}

/-- Only a task that nobody cancelled goes on. -/
theorem eq_none_of_goesOn (h : (!b.goesOn) = false) : b = none := by
  cases b with
  | none => rfl
  | _ => cases h

/-- There is no task to cancel before `close()`. -/
theorem Left.of_absent (h : b.Left .absent) : b = none := by
  cases b with
  | none => rfl
  | asked => exact absurd rfl h.1
  | unstarted => cases h
  | ungathered =>
      obtain ⟨tasks, ht⟩ := h
      cases ht
  | dropped => cases h
  | detached =>
      obtain ⟨phase, ht, -⟩ := h
      cases ht

/-- A job that a thread finds was not dropped, and runs. -/
theorem Left.begun (h : b.Left (.destroying .queued)) (hf : (!b.finds) = false) :
    b.Left (.destroying .begun) := by
  cases b with
  | none => trivial
  | asked => exact ⟨nofun, nofun⟩
  | unstarted => cases h
  | ungathered =>
      obtain ⟨tasks, ht⟩ := h
      cases ht
  | dropped => cases hf
  | detached =>
      obtain ⟨phase, ht, hne⟩ := h
      cases ht
      exact absurd rfl hne

/-- A cancellation does not hold up a destroy that has begun. -/
theorem Left.advances (h : b.Left (.destroying p)) (hp : p ≠ .queued) (hp' : p' ≠ .queued) :
    b.Left (.destroying p') := by
  cases b with
  | none => trivial
  | asked => exact ⟨nofun, nofun⟩
  | unstarted => cases h
  | ungathered =>
      obtain ⟨tasks, ht⟩ := h
      cases ht
  | dropped =>
      cases h
      exact absurd rfl hp
  | detached => exact ⟨p', rfl, hp'⟩

end Abort

/-- A connection whose teardown may be cancelled. -/
structure AbortWorld where
  world : PcWorld
  abort : Abort

namespace AbortWorld

def init (handle : Int) (core : Core) : AbortWorld where
  world := PcWorld.init handle core
  abort := .none

inductive Action
  | pc (a : PcAction)
  | cancel
  | deliver

/-- `Task.cancel()` on the teardown task: a `gather` it waits in cancels
the owned tasks. -/
def cancel (w : AbortWorld) : AbortWorld :=
  if w.abort = .none ∨ w.abort = .asked then
    match w.world.pc.teardownTask with
    | .absent => w
    | .finished => w
    | .gathering tasks => { world := w.world.cancelTasks tasks, abort := .asked }
    | _ => { w with abort := .asked }
  else w

/-- The `finally` block. -/
def finallyBlock (b : Abort) (w : AbortWorld) : AbortWorld where
  world := { w.world with
    pc := { w.world.pc with closedEvent := w.world.pc.closedEvent.set } }
  abort := b

/-- The next step of the task raises the cancellation. -/
def deliver (w : AbortWorld) : Option AbortWorld :=
  if w.abort = .asked then
    match w.world.pc.teardownTask with
    | .created => some { w with abort := .unstarted }
    | .gathering tasks =>
        if tasks.all (fun t => decide (w.world.task t = .done))
          then some (w.finallyBlock .ungathered)
        else none
    | .destroying .queued => some (w.finallyBlock .dropped)
    | .destroying _ => some (w.finallyBlock .detached)
    | _ => none
  else none

/-- The transition. -/
def apply : Action → AbortWorld → Option AbortWorld
  | .pc a, w =>
      if w.abort.blocks a then none
      else (PcWorld.apply a w.world).map fun v => { w with world := v }
  | .cancel, w => some w.cancel
  | .deliver, w => w.deliver

variable {w w' : AbortWorld} {a : Action}

/-- What a step can be. -/
inductive Step (w : AbortWorld) : Action → AbortWorld → Prop
  | pc (a : PcAction) (v : PcWorld) : w.abort.blocks a = false →
      PcWorld.apply a w.world = some v → Step w (.pc a) { w with world := v }
  | vain : Step w .cancel w
  | asked (tasks : List TaskId) : w.abort = .none ∨ w.abort = .asked →
      w.world.pc.teardownTask ≠ .absent → w.world.pc.teardownTask ≠ .finished →
      Step w .cancel { world := w.world.cancelTasks tasks, abort := .asked }
  | unstarted : w.abort = .asked → w.world.pc.teardownTask = .created →
      Step w .deliver { w with abort := .unstarted }
  | raised (b : Abort) : w.abort = .asked → b.ran = true →
      b.Left w.world.pc.teardownTask → Step w .deliver (w.finallyBlock b)

/-- The transition takes no other step. -/
theorem step_cases (h : apply a w = some w') : Step w a w' := by
  cases a with
  | pc b =>
      simp only [apply] at h
      split at h
      next => cases h
      next hb =>
        obtain ⟨v, hv, rfl⟩ := Option.map_eq_some_iff.mp h
        exact .pc b v ((Bool.not_eq_true _).mp hb) hv
  | cancel =>
      cases h
      unfold cancel
      split
      next hb =>
        split
        next => exact .vain
        next => exact .vain
        next tasks ht => exact .asked tasks hb (by rw [ht]; nofun) (by rw [ht]; nofun)
        next ha hf hg => exact .asked [] hb ha hf
      next => exact .vain
  | deliver =>
      simp only [apply, deliver] at h
      split at h
      next hb =>
        split at h
        next ht =>
          cases h
          exact .unstarted hb ht
        next tasks ht =>
          split at h
          next =>
            cases h
            exact .raised .ungathered hb rfl ⟨tasks, ht⟩
          next => cases h
        next ht =>
          cases h
          exact .raised .dropped hb rfl ht
        next phase hq ht =>
          cases h
          exact .raised .detached hb rfl ⟨phase, ht, hq⟩
        next => cases h
      next => cases h

end AbortWorld

-- ============================================== the shutdown without aborts

namespace Shutdown

variable {s s' : Shutdown} {a : PcAction}

/-- The event as the machine's own steps set it. -/
def uncut (b : Abort) (s : Shutdown) : Shutdown :=
  { s with closedFlag := s.closedFlag && !b.ran }

/-- Nothing looks at the event, and only the end of the teardown touches
it: a step an abort has not run over. -/
theorem uncut_step {b : Abort} (hb : b.blocks a = false) (h : ShutdownStep s a s') :
    ShutdownStep (s.uncut b) a (s'.uncut b) := by
  cases h with
  | same c hd he => exact .same c hd he
  | fired e hfresh => exact .fired e hfresh
  | scheduled n e hn => exact .scheduled n e hn
  | begun ht => exact .begun ht
  | deleted ht => exact .deleted ht
  | ran e rest hr hk => exact .ran e rest hr hk
  | incoming handle rest hr => exact .incoming handle rest hr
  | told rest hr => exact .told rest hr
  | closes c hc hclosed => exact .closes c hc hclosed
  | gathers tasks ht => exact .gathers tasks ht
  | walks c hc ht => exact .walks c hc ht
  | ends ht =>
      rw [Abort.eq_none_of_goesOn hb]
      exact .ends ht
  | creates t handle hlive hnew => exact .creates t handle hlive hnew
  | closesChannel n c hc => exact .closesChannel n c hc

/-- The connection leaves the registry when its native destroy
begins. -/
theorem pcs_step (h : ShutdownStep s a s') (ha : a ≠ .native .beginDestroy) :
    s'.core.pcs = s.core.pcs ∧ s'.native = s.native := by
  have hdestroy : ∀ (core : Core) (c : ChannelRef), (c.destroy core).1.pcs = core.pcs := by
    intro core c
    unfold ChannelRef.destroy
    split
    · rfl
    · show (c.native.destroy core).1.pcs = core.pcs
      unfold CoreDataChannel.destroy
      split <;> rfl
  have hall : ∀ (cs : List ChannelRef) (core : Core),
      (PcWorld.destroyAll core cs).1.pcs = core.pcs := by
    intro cs
    induction cs with
    | nil => exact fun _ => rfl
    | cons c rest ih => exact fun core => (ih (c.destroy core).1).trans (hdestroy core c)
  cases h with
  | begun _ => exact absurd rfl ha
  | walks _ _ _ => exact ⟨hall s.channels s.core, rfl⟩
  | closesChannel n c _ => exact ⟨hdestroy s.core c, rfl⟩
  | _ => exact ⟨rfl, rfl⟩

/-- A destroy that has begun does not begin again. -/
theorem begunDestroy_step (hi : Orderly s) (h : ShutdownStep s a s')
    (hb : s'.teardown.begunDestroy = false) : s.teardown.begunDestroy = false := by
  cases h with
  | begun _ => cases hb
  | deleted _ => cases hb
  | told rest _ => cases hb
  | ends _ => cases hb
  | closes _ _ hc =>
      rw [hi.closed.mp hc]
      rfl
  | gathers tasks ht =>
      rw [ht]
      rfl
  | walks _ _ ht =>
      rcases ht with ht | ⟨tasks, ht⟩ <;> rw [ht] <;> rfl
  | _ => exact hb

/-- Where an abort left the teardown, it stays. -/
theorem left_step {b : Abort} (hi : Orderly (s.uncut b)) (hl : b.Left s.teardown)
    (hb : b.blocks a = false) (h : ShutdownStep s a s') : b.Left s'.teardown := by
  cases h with
  | begun ht =>
      rw [ht] at hl
      exact hl.begun hb
  | deleted ht =>
      rw [ht] at hl
      exact hl.advances nofun nofun
  | told rest hr =>
      have ht : s.teardown = .destroying .deleted := (hi.of_told hr).1
      rw [ht] at hl
      exact hl.advances nofun nofun
  | closes c _ hc =>
      have ht : s.teardown = .absent := hi.closed.mp hc
      rw [ht] at hl
      rw [hl.of_absent]
      trivial
  | gathers tasks _ =>
      rw [Abort.eq_none_of_goesOn hb]
      trivial
  | walks c hc _ =>
      rcases hc with rfl | rfl
      · rw [Abort.eq_none_of_goesOn hb]
        trivial
      · rw [Abort.eq_none_of_goesOn hb]
        trivial
  | ends _ =>
      rw [Abort.eq_none_of_goesOn hb]
      trivial
  | _ => exact hl

end Shutdown

namespace AbortWorld

variable {w w' : AbortWorld} {a : Action}

/-- The shutdown, without the event of a cancelled teardown. -/
def shutdown (w : AbortWorld) : Shutdown := w.world.shutdown.uncut w.abort

/-- What holds in every state. -/
structure AbortInv (handle : Int) (core : Core) (w : AbortWorld) : Prop where
  orderly : Orderly w.shutdown
  once : w.shutdown.DeletedOnce handle core.deletedPcs
  left : w.abort.Left w.world.pc.teardownTask
  event : w.abort.ran = true → w.world.pc.closedEvent.value = true
  returned : w.world.pc.closedEvent.value = false → PcWorld.ReturnInv w.world
  live : w.world.pc.teardownTask.begunDestroy = false → handle ∈ w.world.core.pcs

/-- While the event is down, nothing is cut. -/
theorem shutdown_eq (hv : w.world.pc.closedEvent.value = false) :
    w.shutdown = w.world.shutdown := by
  have hflag : w.world.shutdown.closedFlag = false := hv
  unfold shutdown Shutdown.uncut
  rw [hflag, Bool.false_and, ← hflag]

/-- The event is set exactly by a teardown that finished, or that was
cancelled past its first step. -/
theorem AbortInv.event_iff {handle : Int} {core : Core} (hi : AbortInv handle core w) :
    w.world.pc.closedEvent.value = true
      ↔ w.world.pc.teardownTask = .finished ∨ w.abort.ran = true := by
  have hflag : (w.world.pc.closedEvent.value && !w.abort.ran) = true
      ↔ w.world.pc.teardownTask = .finished := hi.orderly.flag
  cases hran : w.abort.ran with
  | true => exact ⟨fun _ => Or.inr rfl, fun _ => hi.event hran⟩
  | false =>
      rw [hran, Bool.not_false, Bool.and_true] at hflag
      rw [hflag]
      exact ⟨Or.inl, fun h => h.resolve_right Bool.false_ne_true⟩

/-- Before the close there is no task to cancel. -/
theorem abortInv_init (handle : Int) (core : Core) :
    AbortInv handle core (init handle core) where
  orderly := PcWorld.orderly_init handle core
  once := ⟨rfl, (List.append_nil _).symm⟩
  left := trivial
  event := nofun
  returned := fun _ => PcWorld.returnInv_init handle core
  live := fun _ => mem_insertKey.mpr (Or.inl rfl)

/-- The event is never cleared. -/
theorem value_apply {v v' : PcWorld} {b : PcAction} (h : PcWorld.apply b v = some v')
    (hv : v.pc.closedEvent.value = true) : v'.pc.closedEvent.value = true := by
  have hstep := PcWorld.shutdown_step h
  show v'.shutdown.closedFlag = true
  generalize v'.shutdown = s' at hstep ⊢
  cases hstep with
  | ends _ => rfl
  | _ => exact hv

/-- A step of the connection that is not blocked leaves the teardown where
it may stand. -/
theorem abortInv_pc {handle : Int} {core : Core} {b : PcAction} {v : PcWorld}
    (hi : AbortInv handle core w) (hb : w.abort.blocks b = false)
    (h : PcWorld.apply b w.world = some v) :
    AbortInv handle core { w with world := v } := by
  have hstep := PcWorld.shutdown_step h
  have huncut : ShutdownStep w.shutdown b (v.shutdown.uncut w.abort) :=
    Shutdown.uncut_step hb hstep
  refine ⟨hi.orderly.step huncut, hi.once.step hi.orderly huncut,
    Shutdown.left_step hi.orderly hi.left hb hstep,
    fun hran => value_apply h (hi.event hran), fun hv => ?_, fun hbegun => ?_⟩
  · have hbefore : w.world.pc.closedEvent.value = false :=
      Bool.eq_false_iff.mpr fun ht => Bool.false_ne_true (hv.symm.trans (value_apply h ht))
    have ho := hi.orderly
    rw [shutdown_eq hbefore] at ho
    exact PcWorld.returnInv_apply (hi.returned hbefore) ho h
  · have hlive := hi.live (Shutdown.begunDestroy_step hi.orderly huncut hbegun)
    have hpcs : v.shutdown.core.pcs = w.world.shutdown.core.pcs := by
      refine (Shutdown.pcs_step hstep ?_).1
      rintro rfl
      have ht : v.shutdown.teardown.begunDestroy = false := hbegun
      generalize v.shutdown = s' at hstep ht
      cases hstep with
      | begun _ => cases ht
    show handle ∈ v.shutdown.core.pcs
    rw [hpcs]
    exact hlive

/-- Cancelling tasks is a run of the machine, and leaves the shutdown
alone. -/
theorem returnInv_cancelTasks {v : PcWorld} (ho : Orderly v.shutdown)
    (hi : PcWorld.ReturnInv v) (tasks : List TaskId) :
    PcWorld.ReturnInv (v.cancelTasks tasks) := by
  induction tasks generalizing v with
  | nil => exact hi
  | cons t rest ih =>
      refine ih (v := v.cancelTask t) ?_ ?_
      · rw [PcWorld.shutdown_cancelTask]
        exact ho
      · exact PcWorld.returnInv_apply (a := .loop (.cancel t)) hi ho rfl

/-- Every step, a cancellation included, leaves the teardown where it may
stand. -/
theorem abortInv_step {handle : Int} {core : Core} (hi : AbortInv handle core w)
    (h : Step w a w') : AbortInv handle core w' := by
  cases h with
  | pc b v hb hv => exact abortInv_pc hi hb hv
  | vain => exact hi
  | asked tasks hb ha hf =>
      have hran : w.abort.ran = false := by
        rcases hb with hb | hb <;> rw [hb] <;> rfl
      have hsame := PcWorld.shutdown_cancelTasks tasks w.world
      have hshutdown : shutdown { world := w.world.cancelTasks tasks, abort := .asked }
          = w.shutdown := by
        unfold shutdown Shutdown.uncut
        rw [hsame, hran]
        rfl
      have hevent : (w.world.cancelTasks tasks).pc.closedEvent.value
          = w.world.pc.closedEvent.value := congrArg Shutdown.closedFlag hsame
      have hteardown : (w.world.cancelTasks tasks).pc.teardownTask
          = w.world.pc.teardownTask := congrArg Shutdown.teardown hsame
      refine ⟨hshutdown ▸ hi.orderly, hshutdown ▸ hi.once, ?_, nofun, fun hv => ?_,
        fun hbegun => ?_⟩
      · show _ ≠ _ ∧ _ ≠ _
        rw [hteardown]
        exact ⟨ha, hf⟩
      · have hdown : w.world.pc.closedEvent.value = false := hevent.symm.trans hv
        have ho := hi.orderly
        rw [shutdown_eq hdown] at ho
        exact returnInv_cancelTasks ho (hi.returned hdown) tasks
      · have hpcs : (w.world.cancelTasks tasks).core = w.world.core :=
          congrArg Shutdown.core hsame
        show handle ∈ (w.world.cancelTasks tasks).core.pcs
        rw [hpcs]
        exact hi.live (hteardown ▸ hbegun)
  | unstarted hb ht =>
      have hshutdown : shutdown { w with abort := .unstarted } = w.shutdown := by
        unfold shutdown
        rw [hb]
        rfl
      exact ⟨hshutdown ▸ hi.orderly, hshutdown ▸ hi.once, ht, nofun, hi.returned, hi.live⟩
  | raised b hb hran hleft =>
      have hfin : w.world.pc.teardownTask ≠ .finished := by
        have hl := hi.left
        rw [hb] at hl
        exact hl.2
      have hdown : w.world.pc.closedEvent.value = false := by
        refine Bool.eq_false_iff.mpr fun hv => ?_
        rcases hi.event_iff.mp hv with hv | hv
        · exact hfin hv
        · rw [hb] at hv
          cases hv
      have hshutdown : (w.finallyBlock b).shutdown = w.shutdown := by
        rw [shutdown_eq hdown]
        have hflag : w.world.shutdown.closedFlag = false := hdown
        unfold shutdown Shutdown.uncut finallyBlock
        rw [hran, Bool.not_true, Bool.and_false, ← hflag]
        rfl
      exact ⟨hshutdown ▸ hi.orderly, hshutdown ▸ hi.once, hleft, fun _ => rfl, nofun, hi.live⟩

/-- Every run leaves the teardown where it may stand. -/
theorem abortInv_exec {handle : Int} {core : Core} {acts : List Action}
    (h : exec apply (init handle core) acts = some w) : AbortInv handle core w :=
  (Transition.reachable_of_exec h).invariant (abortInv_init handle core)
    fun hm ha => abortInv_step hm (step_cases ha)

-- ============================================================ what is left

/-- What the shutdown has come to, whoever cancels the teardown. -/
structure Released (handle : Int) (core : Core) (w : AbortWorld) : Prop where
  /-- `aclose()` and `wait_closed()` return past the closed event only, -/
  returned : ∀ t call r, w.world.task t = .running (some (call, .returned r)) →
    call.awaitsClosed = true → w.world.pc.closedEvent.value = true
  /-- which is set exactly by a teardown that finished, or that was
  cancelled past its first step. -/
  event : w.world.pc.closedEvent.value = true
    ↔ w.world.pc.teardownTask = .finished ∨ w.abort.ran = true
  /-- The native handle is deleted once, by a destroy that a thread had
  taken up: -/
  deleted : w.world.core.deletedPcs = core.deletedPcs
    ++ if w.world.pc.teardownTask.deletedNative = true then [handle] else []
  /-- always with the event, if the teardown finished, and never, if its
  cancellation kept the destroy from being called. -/
  finished : w.world.pc.teardownTask = .finished →
    w.world.pc.teardownTask.deletedNative = true
  kept : w.abort.keeps = true → w.world.pc.teardownTask.deletedNative = false

/-- If the destroy is not called any more, it had not begun. -/
theorem not_deleted_of_keeps {b : Abort} {t : PcTeardown} (hk : b.keeps = true)
    (hl : b.Left t) : t.begunDestroy = false := by
  cases b with
  | unstarted =>
      cases hl
      rfl
  | ungathered =>
      obtain ⟨tasks, rfl⟩ := hl
      rfl
  | dropped =>
      cases hl
      rfl
  | _ => cases hk

/-- In every state of every run. -/
theorem aborts_released {handle : Int} {core : Core} {acts : List Action}
    (h : exec apply (init handle core) acts = some w) : Released handle core w := by
  have hi := abortInv_exec h
  refine ⟨fun t call r ht hcall => ?_, hi.event_iff, hi.once.2, fun ht => by rw [ht]; rfl,
    fun hk => ?_⟩
  · by_contra hv
    have hdown := Bool.eq_false_iff.mpr hv
    exact hv ((hi.returned hdown).returned t call r ht hcall)
  · have hbegun := not_deleted_of_keeps hk hi.left
    exact Bool.eq_false_iff.mpr fun hd =>
      Bool.false_ne_true (hbegun.symm.trans (PcTeardown.begunDestroy_of_deletedNative hd))

/-- The loop is shut down while the destroy waits for a thread: `aclose()`
returns, and the handle is not deleted. -/
def droppedRun : List Action :=
  [.pc (.loop (.aclose (.user 0))), .pc (.loop .startTeardown), .cancel, .deliver,
    .pc (.loop (.resume (.user 0) (.ok (none, none))))]

theorem aborts_released_droppedRun :
    ∃ w, exec apply (init 1 ⟨[], [], [], []⟩) droppedRun = some w
      ∧ w.world.task (.user 0) = .running (some (.aclose, .returned .nothing))
      ∧ w.world.core.pcs = [1] ∧ w.world.core.deletedPcs = []
      ∧ Released 1 ⟨[], [], [], []⟩ w :=
  ⟨_, rfl, rfl, rfl, rfl, @aborts_released _ 1 ⟨[], [], [], []⟩ droppedRun rfl⟩

/-- What an abort leaves for good that kept the destroy from being
called. -/
structure Leaked (handle : Int) (core : Core) (w w' : AbortWorld) : Prop where
  /-- The wrapper stays registered with all its callbacks, -/
  registered : handle ∈ w'.world.core.pcs
  native : w'.world.pc.native = w.world.pc.native
  /-- its handle is not deleted, -/
  deleted : w'.world.core.deletedPcs = core.deletedPcs
  /-- and the event stays as it is: down, if the teardown never began,
  and then nobody ever returns from `aclose()` or `wait_closed()`. -/
  event : w'.world.pc.closedEvent.value = w.world.pc.closedEvent.value
  stranded : w.abort = .unstarted → ∀ t call r, call.awaitsClosed = true →
    w'.world.task t ≠ .running (some (call, .returned r))
  /-- The sweep at exit finds it, and deletes the handle. -/
  swept : ∀ (β V : Type) (c : CoreWorld β V), c.Sound → c.toCore = w'.world.core →
    ∀ late, (c.atexitDestroyAll late).pcs.deleted.count handle = 1

/-- Once the destroy is not called any more, the handle is kept for
good. -/
theorem keeps_step {handle : Int} {core : Core} (hi : AbortInv handle core w)
    (hk : w.abort.keeps = true) (h : Step w a w') :
    w'.abort = w.abort ∧ w'.world.pc.native = w.world.pc.native := by
  cases h with
  | pc b v hb hv =>
      refine ⟨rfl, ?_⟩
      have hstep := PcWorld.shutdown_step hv
      refine (Shutdown.pcs_step hstep ?_).2
      rintro rfl
      have hl := hi.left
      generalize v.shutdown = s' at hstep
      cases hstep with
      | begun ht =>
          have ht' : w.world.pc.teardownTask = .destroying .queued := ht
          rw [ht'] at hl
          cases habort : w.abort <;> rw [habort] at hl hk hb
          case dropped => cases hb
          case unstarted => cases hl
          case ungathered =>
            obtain ⟨tasks, hl⟩ := hl
            cases hl
          all_goals cases hk
  | vain => exact ⟨rfl, rfl⟩
  | asked tasks hb ha hf =>
      rcases hb with hb | hb <;> rw [hb] at hk <;> cases hk
  | unstarted hb ht =>
      rw [hb] at hk
      cases hk
  | raised b hb hran hleft =>
      rw [hb] at hk
      cases hk

/-- A teardown that was cancelled before its native destroy was taken up
leaks the connection, whatever is done next. -/
theorem aborts_leak {handle : Int} {core : Core} {acts more : List Action}
    (h : exec apply (init handle core) acts = some w) (hk : w.abort.keeps = true)
    (hmore : exec apply w more = some w') : Leaked handle core w w' := by
  have hi := abortInv_exec h
  have hall : AbortInv handle core w' ∧ w'.abort = w.abort
      ∧ w'.world.pc.native = w.world.pc.native := by
    refine (Transition.reachable_of_exec hmore).invariant
      (P := fun m => AbortInv handle core m ∧ m.abort = w.abort
        ∧ m.world.pc.native = w.world.pc.native) ⟨hi, rfl, rfl⟩ ?_
    intro b m m' hm hb
    have hstep := step_cases hb
    obtain ⟨habort, hnative⟩ := keeps_step hm.1 (hm.2.1 ▸ hk) hstep
    exact ⟨abortInv_step hm.1 hstep, habort.trans hm.2.1, hnative.trans hm.2.2⟩
  obtain ⟨hi', habort, hnative⟩ := hall
  have hk' : w'.abort.keeps = true := habort ▸ hk
  have hbegun := not_deleted_of_keeps hk' hi'.left
  have hbefore := not_deleted_of_keeps hk hi.left
  have hfin : ∀ {t : PcTeardown}, t.begunDestroy = false → t ≠ .finished := by
    rintro t ht rfl
    cases ht
  have hevent : ∀ {m : AbortWorld}, AbortInv handle core m →
      m.world.pc.teardownTask.begunDestroy = false →
        m.world.pc.closedEvent.value = m.abort.ran := by
    intro m hm hb
    refine Bool.eq_iff_iff.mpr (hm.event_iff.trans ?_)
    exact ⟨fun hor => hor.resolve_left (hfin hb), Or.inr⟩
  refine ⟨hi'.live hbegun, hnative, ?_, ?_, fun hun t call r hcall ht => ?_,
    fun β V c hs hc late => ?_⟩
  · have honce : w'.world.core.deletedPcs = core.deletedPcs
        ++ if w'.world.pc.teardownTask.deletedNative = true then [handle] else [] :=
      hi'.once.2
    have hnot : w'.world.pc.teardownTask.deletedNative ≠ true := fun hd =>
      Bool.false_ne_true (hbegun.symm.trans (PcTeardown.begunDestroy_of_deletedNative hd))
    rw [honce, if_neg hnot, List.append_nil]
  · rw [hevent hi' hbegun, hevent hi hbefore, habort]
  · have hdown : w'.world.pc.closedEvent.value = false := by
      rw [hevent hi' hbegun, habort, hun]
      rfl
    have hup := (hi'.returned hdown).returned t call r ht hcall
    exact Bool.false_ne_true (hdown.symm.trans hup)
  · have hkey : handle ∈ c.pcs.keys := by
      have hlive := hi'.live hbegun
      rw [← hc] at hlive
      exact hlive
    refine (CoreWorld.swept_atexit hs late).pcDeleted handle ?_
    rw [(CoreWorld.atexitDestroyAll_spec hs late).2.1.pcHandles]
    exact hs.pcs.mem_handles_of_key hkey

/-- The loop is shut down before the teardown's first step; `aclose()`
waits on, and a second one too. -/
def unstartedRun : List Action :=
  [.pc (.loop (.aclose (.user 0))), .cancel, .deliver]

theorem aborts_leak_unstartedRun :
    ∃ w w', exec apply (init 1 ⟨[], [], [], []⟩) unstartedRun = some w
      ∧ exec apply w [.pc (.loop (.aclose (.user 1))), .cancel] = some w'
      ∧ w'.world.task (.user 1) = .inWaitClosed .aclose ∧ w'.world.core.pcs = [1]
      ∧ Leaked 1 ⟨[], [], [], []⟩ w w' :=
  ⟨_, _, rfl, rfl, rfl, rfl, @aborts_leak _ _ 1 ⟨[], [], [], []⟩ unstartedRun
    [.pc (.loop (.aclose (.user 1))), .cancel] rfl rfl rfl⟩

end AbortWorld

end AioLibDataChannel
