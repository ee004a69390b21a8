/-
The shutdown of a connection, apart from its negotiation: the registry,
the native handle, the channels, the callbacks on their way and where
`_teardown` stands.

The tasks and the two negotiation slots do not touch it, so a step of
the machine changes it in one of thirteen ways, or not at all
(`ShutdownStep`); `shutdown_step` is the simulation, and what follows is
proved over `ShutdownStep` alone.

`Orderly` is the invariant. The one callback that ends the destroy is
scheduled while the phase is `deleted` and at no other time; from
`deleted` on the handle is gone; and the closed event is set exactly when
the teardown is over.

Before that, and for the later modules too: the ways a suspended task
goes on (`Resumes`), and what a call's start and a native step change.
-/
import AioLibDataChannel.PeerConnection.Machine
import AioLibDataChannel.Transition.Run

namespace AioLibDataChannel

open Asyncio (Event Future Outcome)
open Function (update)

/-- The part of a world the shutdown turns on. -/
structure Shutdown where
  core : Core
  issued : List Int
  native : CorePeerConnection
  closed : Bool
  closedFlag : Bool
  teardown : PcTeardown
  channels : List ChannelRef
  walked : Nat
  inFlight : List PcEvent
  ready : List PcCallback

namespace Shutdown

/-- `DataChannel(handle)` joins `_data_channels`. -/
def addChannel (handle : Int) (s : Shutdown) : Shutdown :=
  { s with
    core := (ChannelRef.create handle s.core).1
    channels := s.channels ++ [(ChannelRef.create handle s.core).2] }

/-- `_teardown` walks `_data_channels`, and submits the destroy. -/
def walk (s : Shutdown) : Shutdown :=
  { s with
    core := (PcWorld.destroyAll s.core s.channels).1
    channels := (PcWorld.destroyAll s.core s.channels).2
    walked := s.channels.length
    teardown := .destroying .queued }

/-- Channel `n` runs its own `_destroy`. -/
def destroyChannel (n : Nat) (c : ChannelRef) (s : Shutdown) : Shutdown :=
  { s with
    core := (c.destroy s.core).1
    channels := s.channels.set n (c.destroy s.core).2 }

end Shutdown

/-- Everything a step can do to the shutdown, with what had to hold. -/
inductive ShutdownStep (s : Shutdown) : PcAction → Shutdown → Prop
  | same (a : PcLoop) (hd : a ≠ .dispatch) (he : a ≠ .endTeardown) :
      ShutdownStep s (.loop a) s
  | fired (e : PcEvent) (hfresh : e.fresh s.issued = true) :
      ShutdownStep s (.native (.fire e))
        { s with
          issued := e.issue s.issued
          inFlight := if s.native.dispatches s.core e.kind
            then s.inFlight ++ [e] else s.inFlight }
  | scheduled (n : Nat) (e : PcEvent) (hn : s.inFlight[n]? = some e) :
      ShutdownStep s (.native (.schedule n))
        { s with
          inFlight := s.inFlight.eraseIdx n
          ready := s.ready ++ [.event e] }
  | begun (ht : s.teardown = .destroying .queued) :
      ShutdownStep s (.native .beginDestroy)
        { s with
          core := (s.native.beginDestroy s.core).1
          native := (s.native.beginDestroy s.core).2
          teardown := .destroying .begun }
  | deleted (ht : s.teardown = .destroying .begun) :
      ShutdownStep s (.native .endDestroy)
        { s with
          core := { s.core with deletedPcs := s.core.deletedPcs ++ [s.native.handle] }
          teardown := .destroying .deleted
          ready := s.ready ++ [.destroyDone] }
  | ran (e : PcEvent) (rest : List PcCallback) (hr : s.ready = .event e :: rest)
      (hk : ∀ handle, e ≠ .dataChannel handle) :
      ShutdownStep s (.loop .dispatch) { s with ready := rest }
  | incoming (handle : Int) (rest : List PcCallback)
      (hr : s.ready = .event (.dataChannel handle) :: rest) :
      ShutdownStep s (.loop .dispatch) ({ s with ready := rest }.addChannel handle)
  | told (rest : List PcCallback) (hr : s.ready = .destroyDone :: rest) :
      ShutdownStep s (.loop .dispatch)
        { s with ready := rest, teardown := .destroying .delivered }
  | closes (a : PcLoop) (ha : a = .close ∨ ∃ t, a = .aclose t)
      (hc : s.closed = false) :
      ShutdownStep s (.loop a) { s with closed := true, teardown := .created }
  | gathers (tasks : List TaskId) (ht : s.teardown = .created) :
      ShutdownStep s (.loop .startTeardown) { s with teardown := .gathering tasks }
  | walks (a : PcLoop) (ha : a = .startTeardown ∨ a = .resumeTeardown)
      (ht : s.teardown = .created ∨ ∃ tasks, s.teardown = .gathering tasks) :
      ShutdownStep s (.loop a) s.walk
  | ends (ht : s.teardown = .destroying .delivered) :
      ShutdownStep s (.loop .endTeardown)
        { s with closedFlag := true, teardown := .finished }
  | creates (t : TaskId) (handle : Int)
      (hlive : s.native.handle ∉ s.core.deletedPcs) (hnew : handle ∉ s.issued) :
      ShutdownStep s (.loop (.createDataChannel t (.ok handle)))
        ({ s with issued := s.issued ++ [handle] }.addChannel handle)
  | closesChannel (n : Nat) (c : ChannelRef) (hc : s.channels[n]? = some c) :
      ShutdownStep s (.loop (.destroyChannel n)) (s.destroyChannel n c)

namespace PcWorld

/-- The shutdown part of a world. -/
def shutdown (w : PcWorld) : Shutdown where
  core := w.core
  issued := w.issued
  native := w.pc.native
  closed := w.pc.closed
  closedFlag := w.pc.closedEvent.value
  teardown := w.pc.teardownTask
  channels := w.channels
  walked := w.walked
  inFlight := w.inFlight
  ready := w.ready

variable {w w' : PcWorld} {t : TaskId}

-- ================================================== what a step can change

/-- How a suspended task goes on: with what its slot was settled with, or
out of `wait_closed()`. -/
inductive Resumes (t : TaskId) (read : Except Exc (Option String × Option String))
    (w : PcWorld) : PcWorld → Prop
  | gathered (call : PcCall) (ticket : Nat) (o : Outcome Unit Exc)
      (ht : w.task t = .awaitingGathering call ticket)
      (ho : w.pc.gatheringComplete.nth ticket = .settled o) :
      Resumes t read w (w.endWait t call (afterGathering call read o))
  | described (ticket : Nat) (o : Outcome LocalDescription Exc)
      (ht : w.task t = .awaitingLocal ticket)
      (ho : w.pc.localDescription.nth ticket = .settled o) :
      Resumes t read w (w.endWait t .setLocalDescription (afterLocal o))
  | waited (call : PcCall) (ht : w.task t = .inWaitClosed call)
      (hw : w.mustCancel t = true ∨ t ∈ w.pc.closedEvent.woken) :
      Resumes t read w (({ w with
        pc := { w.pc with closedEvent := w.pc.closedEvent.leave t } } : PcWorld).endWait t call
          (.returned .nothing))

/-- A task is resumed in no other way. -/
theorem resume_cases {read : Except Exc (Option String × Option String)}
    (h : w.resume t read = some w') : Resumes t read w w' := by
  unfold resume at h
  split at h
  next call ticket ht =>
    split at h
    next o ho =>
      cases h
      exact .gathered call ticket o ht ho
    next => cases h
  next ticket ht =>
    split at h
    next o ho =>
      cases h
      exact .described ticket o ht ho
    next => cases h
  next call ht =>
    split at h
    next hw =>
      cases h
      exact .waited call ht hw
    next => cases h
  next => cases h

/-- `create_offer()` past its check, and `create_answer()`: both slots are
reset, and the call fails with the native call or waits. -/
theorem createDescription_eq {call : PcCall} {answer : Except Exc Unit}
    (h : w.createDescription t call answer = some w') :
    w.answers answer = true
      ∧ ((∃ e, answer = .error e
          ∧ w' = ({ w with pc := w.pc.resetBoth } : PcWorld).finishCall t call (.raised e))
        ∨ (answer = .ok () ∧ w' = ({ w with pc := w.pc.resetBoth } : PcWorld).suspend t
            (.awaitingGathering call w.pc.resetBoth.gatheringComplete.ticket))) := by
  unfold createDescription at h
  split at h
  next hans =>
    cases answer with
    | error e =>
        cases h
        exact ⟨hans, Or.inl ⟨e, rfl, rfl⟩⟩
    | ok u =>
        cases h
        exact ⟨hans, Or.inr ⟨rfl, rfl⟩⟩
  next => cases h

/-- `set_local_description()`, likewise with its own slot. -/
theorem setLocalDescription_eq {answer : Except Exc Unit}
    (h : w.setLocalDescription t answer = some w') :
    w.answers answer = true
      ∧ ((∃ e, answer = .error e
          ∧ w' = ({ w with pc := w.pc.resetLocal } : PcWorld).finishCall t
            .setLocalDescription (.raised e))
        ∨ (answer = .ok () ∧ w' = ({ w with pc := w.pc.resetLocal } : PcWorld).suspend t
            (.awaitingLocal w.pc.resetLocal.localDescription.ticket))) := by
  unfold setLocalDescription at h
  split at h
  next hans =>
    cases answer with
    | error e =>
        cases h
        exact ⟨hans, Or.inl ⟨e, rfl, rfl⟩⟩
    | ok u =>
        cases h
        exact ⟨hans, Or.inr ⟨rfl, rfl⟩⟩
  next => cases h

/-- A native step moves the registry, the native handle, where the
teardown stands and the callbacks on their way, and nothing else. -/
theorem applyNative_eq {a : PcNative} (h : applyNative a w = some w') :
    ∃ core native teardown issued inFlight ready, w' = { w with
      core := core
      pc := { w.pc with native := native, teardownTask := teardown }
      issued := issued
      inFlight := inFlight
      ready := ready } := by
  cases a with
  | fire e =>
      simp only [applyNative, fire] at h
      split at h
      · cases h
        exact ⟨w.core, w.pc.native, w.pc.teardownTask, _, _, w.ready, rfl⟩
      · cases h
  | schedule n =>
      simp only [applyNative, schedule] at h
      split at h
      · cases h
      · cases h
        exact ⟨w.core, w.pc.native, w.pc.teardownTask, w.issued, _, _, rfl⟩
  | beginDestroy =>
      simp only [applyNative, beginDestroy] at h
      split at h
      · cases h
        exact ⟨_, _, _, w.issued, w.inFlight, w.ready, rfl⟩
      · cases h
  | endDestroy =>
      simp only [applyNative, endDestroy] at h
      split at h
      · cases h
        exact ⟨_, w.pc.native, _, w.issued, w.inFlight, _, rfl⟩
      · cases h

-- ================================================= what tasks leave alone

/-- A cancelled task is no step of the shutdown. -/
theorem shutdown_cancelTask (t : TaskId) (w : PcWorld) :
    (w.cancelTask t).shutdown = w.shutdown := by
  unfold cancelTask
  split
  · rfl
  · rfl
  · split <;> rfl
  · split <;> rfl
  · simp only [setMustCancel, shutdown, Shutdown.mk.injEq, true_and, and_true]
    split <;> rfl
  · rfl

/-- A list of cancelled tasks is none either. -/
theorem shutdown_cancelTasks (ts : List TaskId) (w : PcWorld) :
    (w.cancelTasks ts).shutdown = w.shutdown := by
  induction ts generalizing w with
  | nil => rfl
  | cons t ts ih => exact (ih (w.cancelTask t)).trans (shutdown_cancelTask t w)

/-- A task that suspends does not touch the shutdown. -/
theorem shutdown_suspend (t : TaskId) (st : PcTask) (w : PcWorld) :
    (w.suspend t st).shutdown = w.shutdown := by
  unfold suspend
  split
  · exact shutdown_cancelTask t _
  · rfl

/-- A wait that ends does not touch it. -/
theorem shutdown_endWait (t : TaskId) (call : PcCall) (o : Outcome PcResult Exc)
    (w : PcWorld) : (w.endWait t call o).shutdown = w.shutdown := by
  unfold endWait
  split <;> rfl

/-- Waiting for the closed event does not set it. -/
theorem shutdown_awaitClosed (call : PcCall) (t : TaskId) (w : PcWorld) :
    (w.awaitClosed call t).shutdown = w.shutdown := by
  unfold awaitClosed
  split
  · rfl
  · refine (shutdown_suspend t _ _).trans ?_
    simp only [shutdown, Event.park_value]

/-- The first `close()` creates the teardown, a later one does nothing. -/
theorem shutdown_close (w : PcWorld) :
    w.close.shutdown = w.shutdown
    ∨ (w.pc.closed = false
      ∧ w.close.shutdown = { w.shutdown with closed := true, teardown := .created }) := by
  unfold close
  split
  next => exact Or.inl rfl
  next hc =>
    refine Or.inr ⟨Bool.eq_false_iff.mpr hc, ?_⟩
    have hframe := shutdown_cancelTasks w.pc.tasks
      { w with pc := { w.pc with closed := true } }
    exact congrArg (fun s : Shutdown => { s with teardown := .created }) hframe

/-- A negotiation call does not touch the shutdown. -/
theorem shutdown_createDescription {call : PcCall} {answer : Except Exc Unit}
    (h : w.createDescription t call answer = some w') :
    w'.shutdown = w.shutdown := by
  obtain ⟨-, ⟨e, -, rfl⟩ | ⟨-, rfl⟩⟩ := createDescription_eq h
  · rfl
  · exact shutdown_suspend t _ _

/-- `create_offer()` does not, refused or not. -/
theorem shutdown_createOffer {answer : Except Exc Unit}
    (h : w.createOffer t answer = some w') : w'.shutdown = w.shutdown := by
  unfold createOffer at h
  split at h
  · cases h
    rfl
  · exact shutdown_createDescription h

/-- `set_local_description()` does not touch it. -/
theorem shutdown_setLocalDescription {answer : Except Exc Unit}
    (h : w.setLocalDescription t answer = some w') : w'.shutdown = w.shutdown := by
  obtain ⟨-, ⟨e, -, rfl⟩ | ⟨-, rfl⟩⟩ := setLocalDescription_eq h
  · rfl
  · exact shutdown_suspend t _ _

/-- A resumed call does not touch it. -/
theorem shutdown_resume {read : Except Exc (Option String × Option String)}
    (h : w.resume t read = some w') : w'.shutdown = w.shutdown := by
  cases resume_cases h with
  | gathered call ticket o ht ho => exact shutdown_endWait t _ _ w
  | described ticket o ht ho => exact shutdown_endWait t _ _ w
  | waited call ht hw => exact shutdown_endWait t _ _ _

/-- A call is made by a task that runs. -/
theorem started_eq {next : Option PcWorld} (h : w.started t next = some w') :
    next = some w' ∧ ∃ last, w.task t = .running last := by
  unfold started at h
  split at h
  next last hrun => exact ⟨h, last, hrun⟩
  next => cases h

-- ========================================================== the simulation

/-- A native step is one of the shutdown's. -/
theorem shutdown_native {a : PcNative} (h : applyNative a w = some w') :
    ShutdownStep w.shutdown (.native a) w'.shutdown := by
  cases a with
  | fire e =>
      simp only [applyNative, fire] at h
      split at h
      next hfresh => cases h; exact .fired e hfresh
      next => cases h
  | schedule n =>
      simp only [applyNative, schedule] at h
      split at h
      next => cases h
      next e hn => cases h; exact .scheduled n e hn
  | beginDestroy =>
      simp only [applyNative, beginDestroy] at h
      split at h
      next ht => cases h; exact .begun ht
      next => cases h
  | endDestroy =>
      simp only [applyNative, endDestroy] at h
      split at h
      next ht => cases h; exact .deleted ht
      next => cases h

/-- A dispatch is one of them. -/
theorem shutdown_dispatch (h : w.dispatch = some w') :
    ShutdownStep w.shutdown (.loop .dispatch) w'.shutdown := by
  unfold dispatch at h
  split at h
  next => cases h
  next cb rest hr =>
    split at h
    next desc =>
      cases h
      exact .ran (.localDescription desc) rest hr nofun
    next state =>
      cases h
      have hsame : (w.pc.handleStateChange state).native = w.pc.native
          ∧ (w.pc.handleStateChange state).closed = w.pc.closed
          ∧ (w.pc.handleStateChange state).closedEvent = w.pc.closedEvent
          ∧ (w.pc.handleStateChange state).teardownTask = w.pc.teardownTask := by
        unfold PeerConnection.handleStateChange
        split <;> exact ⟨rfl, rfl, rfl, rfl⟩
      obtain ⟨hnative, hclosed, hevent, hteardown⟩ := hsame
      have hstep := ShutdownStep.ran (s := w.shutdown) (.stateChange state) rest hr nofun
      simpa only [shutdown, hnative, hclosed, hevent, hteardown] using hstep
    next state =>
      cases h
      exact .ran (.gatheringStateChange state) rest hr nofun
    next handle =>
      cases h
      exact .incoming handle rest hr
    next =>
      cases h
      exact .told rest hr

/-- A created channel joins the others. -/
theorem shutdown_createDataChannel {answer : Except Exc Int}
    (h : w.createDataChannel t answer = some w') :
    ShutdownStep w.shutdown (.loop (.createDataChannel t answer)) w'.shutdown := by
  unfold createDataChannel at h
  split at h
  next hans =>
    cases answer with
    | error e =>
        cases h
        exact .same _ nofun nofun
    | ok handle =>
        simp only at h
        split at h
        next => cases h
        next hnew =>
          cases h
          exact .creates t handle (of_decide_eq_true hans) hnew
  next => cases h

/-- A step that leaves the shutdown as it is. -/
theorem shutdown_same {a : PcLoop} (hd : a ≠ .dispatch) (he : a ≠ .endTeardown)
    (h : w'.shutdown = w.shutdown) :
    ShutdownStep w.shutdown (.loop a) w'.shutdown := by
  rw [h]
  exact .same a hd he

/-- A step that closes. -/
theorem shutdown_closes {a : PcLoop} (ha : a = .close ∨ ∃ t, a = .aclose t)
    (h : w'.shutdown = w.close.shutdown) :
    ShutdownStep w.shutdown (.loop a) w'.shutdown := by
  rw [h]
  rcases shutdown_close w with hsame | ⟨hc, hclosed⟩
  · rw [hsame]
    rcases ha with rfl | ⟨t, rfl⟩ <;> exact .same _ nofun nofun
  · rw [hclosed]
    exact .closes a ha hc

/-- A loop step is one of the shutdown's. -/
theorem shutdown_loop {a : PcLoop} (h : applyLoop a w = some w') :
    ShutdownStep w.shutdown (.loop a) w'.shutdown := by
  cases a with
  | dispatch => exact shutdown_dispatch h
  | close =>
      cases h
      exact shutdown_closes (Or.inl rfl) rfl
  | startTeardown =>
      simp only [applyLoop, startTeardown] at h
      split at h
      next ht =>
        split at h
        · cases h
          exact .walks _ (Or.inl rfl) (Or.inl ht)
        · cases h
          exact .gathers w.pc.tasks ht
      next => cases h
  | resumeTeardown =>
      simp only [applyLoop, resumeTeardown] at h
      split at h
      next tasks ht =>
        split at h
        · cases h
          exact .walks _ (Or.inr rfl) (Or.inr ⟨tasks, ht⟩)
        · cases h
      next => cases h
  | endTeardown =>
      simp only [applyLoop, endTeardown] at h
      split at h
      next ht => cases h; exact .ends ht
      next => cases h
  | spawnTask n =>
      simp only [applyLoop, spawnTask] at h
      split at h
      · split at h <;> cases h <;> exact .same _ nofun nofun
      · cases h
  | finish n =>
      simp only [applyLoop, finish] at h
      split at h
      · cases h
        exact .same _ nofun nofun
      · cases h
  | discard u =>
      simp only [applyLoop, discard] at h
      split at h
      · cases h
        exact .same _ nofun nofun
      · cases h
  | createOffer u answer =>
      exact shutdown_same nofun nofun (shutdown_createOffer (started_eq h).1)
  | createAnswer u answer =>
      exact shutdown_same nofun nofun (shutdown_createDescription (started_eq h).1)
  | setLocalDescription u answer =>
      exact shutdown_same nofun nofun (shutdown_setLocalDescription (started_eq h).1)
  | createDataChannel u answer => exact shutdown_createDataChannel (started_eq h).1
  | destroyChannel n =>
      simp only [applyLoop, destroyChannel] at h
      split at h
      next => cases h
      next c hc => cases h; exact .closesChannel n c hc
  | aclose u =>
      cases (started_eq h).1
      exact shutdown_closes (Or.inr ⟨u, rfl⟩) (shutdown_awaitClosed _ u _)
  | waitClosed u =>
      cases (started_eq h).1
      exact shutdown_same nofun nofun (shutdown_awaitClosed _ u w)
  | resume u read => exact shutdown_same nofun nofun (shutdown_resume h)
  | cancel u =>
      cases h
      exact shutdown_same nofun nofun (shutdown_cancelTask u w)
  | absorb u =>
      cases (started_eq h).1
      exact .same _ nofun nofun

/-- Every step of the machine is one of these to the shutdown. -/
theorem shutdown_step {a : PcAction} (h : apply a w = some w') :
    ShutdownStep w.shutdown a w'.shutdown := by
  cases a with
  | native a => exact shutdown_native h
  | loop a => exact shutdown_loop h

end PcWorld

-- ================================================ the registry's other half

namespace ChannelRef

/-- A channel's destroy deletes no connection. -/
@[simp] theorem destroy_deletedPcs (core : Core) (c : ChannelRef) :
    (c.destroy core).1.deletedPcs = core.deletedPcs := by
  unfold destroy
  split
  · rfl
  · show (c.native.destroy core).1.deletedPcs = core.deletedPcs
    unfold CoreDataChannel.destroy
    split <;> rfl

end ChannelRef

/-- The walk deletes no connection. -/
theorem PcWorld.destroyAll_deletedPcs (core : Core) (cs : List ChannelRef) :
    (destroyAll core cs).1.deletedPcs = core.deletedPcs := by
  induction cs generalizing core with
  | nil => rfl
  | cons c rest ih =>
      exact (ih (c.destroy core).1).trans (ChannelRef.destroy_deletedPcs core c)

/-- A handle that was deleted stays so. -/
theorem ShutdownStep.deleted_of_deleted {s s' : Shutdown} {a : PcAction}
    (h : ShutdownStep s a s') (hd : s.native.handle ∈ s.core.deletedPcs) :
    s'.native.handle ∈ s'.core.deletedPcs := by
  cases h with
  | deleted _ => exact List.mem_append_left _ hd
  | walks _ _ _ =>
      show s.native.handle ∈ (PcWorld.destroyAll s.core s.channels).1.deletedPcs
      rw [PcWorld.destroyAll_deletedPcs]
      exact hd
  | closesChannel n c _ =>
      show s.native.handle ∈ (c.destroy s.core).1.deletedPcs
      rw [ChannelRef.destroy_deletedPcs]
      exact hd
  | _ => exact hd

-- ============================================================ the invariant

/-- The native destroy has begun. -/
def PcTeardown.begunDestroy : PcTeardown → Bool
  | .destroying .queued => false
  | .destroying _ => true
  | .finished => true
  | _ => false

/-- The native delete has returned. -/
def PcTeardown.deletedNative : PcTeardown → Bool
  | .destroying .deleted => true
  | .destroying .delivered => true
  | .finished => true
  | _ => false

/-- A delete that has returned was begun. -/
theorem PcTeardown.begunDestroy_of_deletedNative {teardown : PcTeardown}
    (h : teardown.deletedNative = true) : teardown.begunDestroy = true := by
  cases teardown with
  | destroying phase =>
      cases phase with
      | queued => exact h
      | _ => rfl
  | finished => rfl
  | _ => exact h

/-- Where the phases of the destroy stand to everything else. -/
structure Orderly (s : Shutdown) : Prop where
  marker : s.ready.count .destroyDone
    = if s.teardown = .destroying .deleted then 1 else 0
  silent : s.teardown.begunDestroy = true → s.native.callbacks = []
  gone : s.teardown.deletedNative = true → s.native.handle ∈ s.core.deletedPcs
  flag : s.closedFlag = true ↔ s.teardown = .finished
  closed : s.closed = false ↔ s.teardown = .absent

namespace Orderly

variable {s s' : Shutdown} {a : PcAction}

/-- Off the phase `deleted` the end of the destroy is not scheduled. -/
theorem destroyDone_not_mem (hi : Orderly s) (ht : s.teardown ≠ .destroying .deleted) :
    PcCallback.destroyDone ∉ s.ready := by
  rw [← List.count_eq_zero, hi.marker, if_neg ht]

/-- It runs in the phase `deleted`, and is the only one. -/
theorem of_told (hi : Orderly s) {rest : List PcCallback}
    (hr : s.ready = .destroyDone :: rest) :
    s.teardown = .destroying .deleted ∧ PcCallback.destroyDone ∉ rest := by
  have hmem : PcCallback.destroyDone ∈ s.ready := by
    rw [hr]
    exact List.mem_cons_self
  have ht : s.teardown = .destroying .deleted := by
    by_contra hne
    exact hi.destroyDone_not_mem hne hmem
  refine ⟨ht, ?_⟩
  have hcount := hi.marker
  rw [hr, if_pos ht, List.count_cons_self] at hcount
  exact List.count_eq_zero.mp (Nat.succ.inj hcount)

/-- A step that leaves the phase and the flags alone, adds callbacks of
its own at most, and deletes no connection. -/
theorem congr (hi : Orderly s) (ht : s'.teardown = s.teardown)
    (hready : s'.ready.count .destroyDone = s.ready.count .destroyDone)
    (hnative : s'.native = s.native) (hcore : s'.core.deletedPcs = s.core.deletedPcs)
    (hflag : s'.closedFlag = s.closedFlag) (hclosed : s'.closed = s.closed) :
    Orderly s' where
  marker := by
    rw [hready, ht]
    exact hi.marker
  silent := by
    rw [ht, hnative]
    exact hi.silent
  gone := by
    rw [ht, hnative, hcore]
    exact hi.gone
  flag := by
    rw [ht, hflag]
    exact hi.flag
  closed := by
    rw [ht, hclosed]
    exact hi.closed

/-- A step before the destroy begins, to a phase before it begins. -/
theorem moves (hi : Orderly s) (hbefore : s'.teardown.begunDestroy = false)
    (hfrom : s.teardown.begunDestroy = false) (habsent : s'.teardown ≠ .absent)
    (hready : s'.ready = s.ready) (hflag : s'.closedFlag = s.closedFlag)
    (hclosed : s'.closed = true) : Orderly s' where
  marker := by
    have hmem : PcCallback.destroyDone ∉ s.ready := by
      apply hi.destroyDone_not_mem
      intro ht
      rw [ht] at hfrom
      cases hfrom
    rw [hready, List.count_eq_zero.mpr hmem, if_neg]
    intro ht
    rw [ht] at hbefore
    cases hbefore
  silent := by
    intro hbegun
    cases hbegun.symm.trans hbefore
  gone := by
    intro hgone
    have hbegun := PcTeardown.begunDestroy_of_deletedNative hgone
    cases hbegun.symm.trans hbefore
  flag := by
    constructor
    · intro hf
      rw [hflag, hi.flag] at hf
      rw [hf] at hfrom
      cases hfrom
    · intro ht
      rw [ht] at hbefore
      cases hbefore
  closed := by
    constructor
    · intro hc
      rw [hclosed] at hc
      cases hc
    · exact fun ht => absurd ht habsent

/-- A step from one phase of the destroy to another: the flags stand
still. -/
theorem advances {phase phase' : DestroyPhase} (hi : Orderly s)
    (ht : s.teardown = .destroying phase) (ht' : s'.teardown = .destroying phase')
    (hflag : s'.closedFlag = s.closedFlag) (hclosed : s'.closed = s.closed)
    (hmarker : s'.ready.count .destroyDone
      = if s'.teardown = .destroying .deleted then 1 else 0)
    (hsilent : s'.native.callbacks = [])
    (hgone : s'.teardown.deletedNative = true →
      s'.native.handle ∈ s'.core.deletedPcs) : Orderly s' where
  marker := hmarker
  silent := fun _ => hsilent
  gone := hgone
  flag := by
    rw [hflag, hi.flag, ht, ht']
    exact ⟨nofun, nofun⟩
  closed := by
    rw [hclosed, hi.closed, ht, ht']
    exact ⟨nofun, nofun⟩

/-- An event is not the callback that ends the destroy. -/
theorem count_event (e : PcEvent) (ready : List PcCallback) :
    (PcCallback.event e :: ready).count .destroyDone = ready.count .destroyDone :=
  List.count_cons_of_ne (by exact nofun)

/-- Every step keeps the shutdown orderly. -/
theorem step (hi : Orderly s) (h : ShutdownStep s a s') : Orderly s' := by
  cases h with
  | same _ _ _ => exact hi
  | fired e _ => exact hi.congr rfl rfl rfl rfl rfl rfl
  | scheduled n e _ =>
      refine hi.congr rfl ?_ rfl rfl rfl rfl
      rw [List.count_append, count_event]
      rfl
  | begun ht =>
      have hmem := hi.destroyDone_not_mem (by rw [ht]; exact nofun)
      exact hi.advances ht rfl rfl rfl (List.count_eq_zero.mpr hmem) rfl nofun
  | deleted ht =>
      have hmem := hi.destroyDone_not_mem (by rw [ht]; exact nofun)
      refine hi.advances ht rfl rfl rfl ?_ (hi.silent (by rw [ht]; rfl)) ?_
      · rw [List.count_append, List.count_eq_zero.mpr hmem]
        rfl
      · exact fun _ => List.mem_append_right _ (List.mem_singleton_self _)
  | ran e rest hr _ =>
      refine hi.congr rfl ?_ rfl rfl rfl rfl
      rw [hr, count_event]
  | incoming handle rest hr =>
      refine hi.congr rfl ?_ rfl rfl rfl rfl
      rw [hr, count_event]
      rfl
  | told rest hr =>
      obtain ⟨ht, hmem⟩ := hi.of_told hr
      exact hi.advances ht rfl rfl rfl (List.count_eq_zero.mpr hmem)
        (hi.silent (by rw [ht]; rfl)) (fun _ => hi.gone (by rw [ht]; rfl))
  | closes _ _ hc =>
      have ht := hi.closed.mp hc
      exact hi.moves rfl (by rw [ht]; rfl) nofun rfl rfl rfl
  | gathers tasks ht =>
      refine hi.moves rfl (by rw [ht]; rfl) nofun rfl rfl ?_
      rw [← Bool.not_eq_false, hi.closed, ht]
      exact nofun
  | walks _ _ ht =>
      have hfrom : s.teardown.begunDestroy = false ∧ s.teardown ≠ .absent := by
        rcases ht with ht | ⟨tasks, ht⟩ <;> rw [ht] <;> exact ⟨rfl, nofun⟩
      refine hi.moves rfl hfrom.1 nofun rfl rfl ?_
      rw [Shutdown.walk, ← Bool.not_eq_false, hi.closed]
      exact hfrom.2
  | ends ht =>
      exact
        { marker := by
            have hmem := hi.destroyDone_not_mem (by rw [ht]; exact nofun)
            exact List.count_eq_zero.mpr hmem
          silent := fun _ => hi.silent (by rw [ht]; rfl)
          gone := fun _ => hi.gone (by rw [ht]; rfl)
          flag := ⟨fun _ => rfl, fun _ => rfl⟩
          closed := by
            rw [hi.closed, ht]
            exact ⟨nofun, nofun⟩ }
  | creates t handle _ _ => exact hi.congr rfl rfl rfl rfl rfl rfl
  | closesChannel n c _ =>
      exact hi.congr rfl rfl rfl (ChannelRef.destroy_deletedPcs s.core c) rfl rfl

end Orderly

namespace PcWorld

variable {w w' : PcWorld}

/-- A new connection is orderly. -/
theorem orderly_init (handle : Int) (core : Core) :
    Orderly (init handle core).shutdown where
  marker := rfl
  silent := nofun
  gone := nofun
  flag := ⟨nofun, nofun⟩
  closed := ⟨fun _ => rfl, fun _ => rfl⟩

/-- Every step of the connection keeps it orderly. -/
theorem orderly_apply {a : PcAction} (hi : Orderly w.shutdown)
    (h : apply a w = some w') : Orderly w'.shutdown :=
  hi.step (shutdown_step h)

end PcWorld

end AioLibDataChannel
