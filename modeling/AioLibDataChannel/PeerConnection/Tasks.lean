/-
The task map of a connection under one step: at most one task moves,
along one of the edges a coroutine can take (`PcEdge`), or `spawn_task`
adds one (`Spawns`).

The edges say two things for later. Nothing leaves `done`; and
`aclose()` and `wait_closed()` return only past a raised closed event,
or by having been woken. The second is the first again, because nobody
is woken by anything but the flag (`Event.Quiet`), which `Keeps` carries
through every step together with the owned set.
-/
import AioLibDataChannel.PeerConnection.Negotiation

namespace AioLibDataChannel

open Asyncio (Event Future Outcome)
open Function (update)

/-- The calls that wait for the closed event. -/
def PcCall.awaitsClosed : PcCall → Bool
  | .aclose => true
  | .waitClosed => true
  | _ => false

/-- How task `t` can move in one step of a connection. -/
inductive PcEdge (w : PcWorld) (t : TaskId) : PcTask → PcTask → Prop
  | finish (last) : PcEdge w t (.running last) .done
  | gather (last call ticket) (h : call.awaitsClosed = false) :
      PcEdge w t (.running last) (.awaitingGathering call ticket)
  | local (last ticket) : PcEdge w t (.running last) (.awaitingLocal ticket)
  | park (last call) : PcEdge w t (.running last) (.inWaitClosed call)
  | gathered (call ticket o) :
      PcEdge w t (.awaitingGathering call ticket) (.running (some (call, o)))
  | ended {st} (call o) (hu : st ≠ .unborn) (hd : st ≠ .done)
      (hret : call.awaitsClosed = true → ∀ r, o = .returned r →
        w.pc.closedEvent.value = true ∨ t ∈ w.pc.closedEvent.woken) :
      PcEdge w t st (.running (some (call, o)))

/-- A task that moves is alive, and is not unborn after. -/
theorem PcEdge.alive {w : PcWorld} {t : TaskId} {st st' : PcTask}
    (h : PcEdge w t st st') : st ≠ .unborn ∧ st ≠ .done ∧ st' ≠ .unborn := by
  cases h with
  | ended call o hu hd _ => exact ⟨hu, hd, nofun⟩
  | _ => exact ⟨nofun, nofun, nofun⟩

/-- A task that waits for the gathering is not in `aclose()`. -/
theorem PcEdge.of_gather {w : PcWorld} {t : TaskId} {st : PcTask} {call : PcCall}
    {ticket : Nat} (h : PcEdge w t st (.awaitingGathering call ticket)) :
    call.awaitsClosed = false := by
  cases h with
  | gather _ _ _ hcall => exact hcall

/-- How a call comes to return that waits for the closed event. -/
theorem PcEdge.of_returned {w : PcWorld} {t : TaskId} {st : PcTask} {call : PcCall}
    {r : PcResult} (h : PcEdge w t st (.running (some (call, .returned r))))
    (hcall : call.awaitsClosed = true) :
    (∃ ticket, st = .awaitingGathering call ticket)
      ∨ w.pc.closedEvent.value = true ∨ t ∈ w.pc.closedEvent.woken := by
  cases h with
  | gathered _ ticket _ => exact Or.inl ⟨ticket, rfl⟩
  | ended _ _ _ _ hret => exact Or.inr (hret hcall r rfl)

namespace PcWorld

variable {w w' w₁ w₂ w₃ : PcWorld} {t : TaskId}

/-- The step from `w` to `w'` moves at most one task, along an edge. -/
def Moves (w w' : PcWorld) : Prop :=
  w'.task = w.task ∨ ∃ t st, PcEdge w t (w.task t) st ∧ w'.task = update w.task t st

/-- `spawn_task` succeeds: a new task of the connection starts to run. -/
def Spawns (n : Nat) (w w' : PcWorld) : Prop :=
  w.task (.ofConnection n) = .unborn ∧ w.pc.closed = false ∧ w' = { w with
    pc := { w.pc with tasks := w.pc.tasks ++ [.ofConnection n] }
    task := update w.task (.ofConnection n) (.running none) }

-- ======================================================= what tasks become

/-- `_teardown` is past its owned tasks. -/
def PastGather (w : PcWorld) : Prop :=
  (w.pc.teardownTask = .created ∧ w.pc.tasks = [])
    ∨ ∃ snapshot, w.pc.teardownTask = .gathering snapshot
      ∧ ∀ t ∈ snapshot, w.task t = .done

/-- The teardown waits for the tasks there are, or walks at once. -/
theorem startTeardown_cases (h : w.startTeardown = some w') :
    w.pc.teardownTask = .created ∧ ((w.pc.tasks = [] ∧ w' = w.walkChannels)
      ∨ w' = { w with pc := { w.pc with teardownTask := .gathering w.pc.tasks } }) := by
  unfold startTeardown at h
  split at h
  next ht =>
    split at h
    next hnil =>
      cases h
      exact ⟨ht, Or.inl ⟨hnil, rfl⟩⟩
    next =>
      cases h
      exact ⟨ht, Or.inr rfl⟩
  next => cases h

/-- The teardown walks the channels when the tasks are done. -/
theorem resumeTeardown_cases (h : w.resumeTeardown = some w') :
    w' = w.walkChannels ∧ PastGather w := by
  unfold resumeTeardown at h
  split at h
  next snapshot hs =>
    split at h
    next hall =>
      cases h
      refine ⟨rfl, Or.inr ⟨snapshot, hs, fun t ht => ?_⟩⟩
      exact of_decide_eq_true (List.all_eq_true.mp hall t ht)
    next => cases h
  next => cases h

/-- Cancelled tasks go on where they stand. -/
theorem task_cancelTasks (ts : List TaskId) (w : PcWorld) :
    (w.cancelTasks ts).task = w.task := by
  induction ts generalizing w with
  | nil => rfl
  | cons t ts ih => exact (ih (w.cancelTask t)).trans (task_cancelTask t w)

/-- `close()` moves no task. -/
theorem task_close (w : PcWorld) : w.close.task = w.task := by
  unfold close
  split
  · rfl
  · exact task_cancelTasks w.pc.tasks _

/-- The task that is suspended is in its new state, cancelled or not. -/
theorem task_suspend (t : TaskId) (st : PcTask) (w : PcWorld) :
    (w.suspend t st).task = update w.task t st := by
  unfold suspend
  split
  · exact task_cancelTask t _
  · rfl

/-- A wait ends as cancelled, or as it was woken with nothing owed. -/
theorem task_endWait (t : TaskId) (call : PcCall) (o : Outcome PcResult Exc)
    (w : PcWorld) :
    ∃ o', (w.endWait t call o).task = update w.task t (.running (some (call, o')))
      ∧ (o' = .cancelled ∨ (o' = o ∧ w.mustCancel t = false)) := by
  unfold endWait
  split
  next => exact ⟨.cancelled, rfl, Or.inl rfl⟩
  next hm => exact ⟨o, rfl, Or.inr ⟨rfl, Bool.eq_false_iff.mpr hm⟩⟩

/-- A call that does not wait for the closed event ends. -/
theorem Moves.of_ended {call : PcCall} {o : Outcome PcResult Exc}
    {last : Option (PcCall × Outcome PcResult Exc)} (hl : w.task t = .running last)
    (hcall : call.awaitsClosed = false)
    (h : w'.task = update w.task t (.running (some (call, o)))) : Moves w w' := by
  refine Or.inr ⟨t, _, .ended call o ?_ ?_ ?_, h⟩
  · rw [hl]
    exact nofun
  · rw [hl]
    exact nofun
  · exact fun hc => absurd (hcall.symm.trans hc) Bool.false_ne_true

/-- The task of a call that makes a description waits, or has raised. -/
theorem moves_createDescription {call : PcCall} {answer : Except Exc Unit}
    {last : Option (PcCall × Outcome PcResult Exc)} (hl : w.task t = .running last)
    (hcall : call.awaitsClosed = false)
    (h : w.createDescription t call answer = some w') : Moves w w' := by
  obtain ⟨-, ⟨e, -, rfl⟩ | ⟨-, rfl⟩⟩ := createDescription_eq h
  · exact .of_ended hl hcall rfl
  · refine Or.inr ⟨t, _, ?_, task_suspend t _ _⟩
    rw [hl]
    exact .gather last call _ hcall

/-- The task of `set_local_description()` waits, or has raised. -/
theorem moves_setLocalDescription {answer : Except Exc Unit}
    {last : Option (PcCall × Outcome PcResult Exc)} (hl : w.task t = .running last)
    (h : w.setLocalDescription t answer = some w') : Moves w w' := by
  obtain ⟨-, ⟨e, -, rfl⟩ | ⟨-, rfl⟩⟩ := setLocalDescription_eq h
  · exact .of_ended hl rfl rfl
  · refine Or.inr ⟨t, _, ?_, task_suspend t _ _⟩
    rw [hl]
    exact .local last _

/-- The task of `create_data_channel()` goes on. -/
theorem moves_createDataChannel {answer : Except Exc Int}
    {last : Option (PcCall × Outcome PcResult Exc)} (hl : w.task t = .running last)
    (h : w.createDataChannel t answer = some w') : Moves w w' := by
  unfold createDataChannel at h
  split at h
  next =>
    cases answer with
    | error e =>
        cases h
        exact .of_ended hl rfl rfl
    | ok handle =>
        simp only at h
        split at h
        · cases h
        · cases h
          exact .of_ended hl rfl rfl
  next => cases h

/-- `wait_closed()`, and `aclose()` past its `close()`. -/
theorem moves_awaitClosed {call : PcCall}
    {last : Option (PcCall × Outcome PcResult Exc)} {v : PcWorld}
    (hl : w.task t = .running last) (htask : v.task = w.task)
    (hflag : v.pc.closedEvent.value = w.pc.closedEvent.value) :
    Moves w (v.awaitClosed call t) := by
  unfold awaitClosed
  split
  next hv =>
    refine Or.inr ⟨t, _, .ended call (.returned .nothing) ?_ ?_ ?_, ?_⟩
    · rw [hl]
      exact nofun
    · rw [hl]
      exact nofun
    · exact fun _ _ _ => Or.inl (hflag ▸ hv)
    · exact congrArg (update · t _) htask
  next =>
    refine Or.inr ⟨t, .inWaitClosed call, ?_, ?_⟩
    · rw [hl]
      exact .park last call
    · rw [task_suspend]
      exact congrArg (update · t _) htask

/-- A task that is resumed moves along one of the edges. -/
theorem moves_resume {read : Except Exc (Option String × Option String)}
    (h : w.resume t read = some w') : Moves w w' := by
  cases resume_cases h with
  | gathered call ticket o ht ho =>
      obtain ⟨o', htask, -⟩ := task_endWait t call (afterGathering call read o) w
      refine Or.inr ⟨t, _, ?_, htask⟩
      rw [ht]
      exact .gathered call ticket o'
  | described ticket o ht ho =>
      obtain ⟨o', htask, -⟩ := task_endWait t .setLocalDescription (afterLocal o) w
      refine Or.inr ⟨t, _, .ended .setLocalDescription o' ?_ ?_ ?_, htask⟩
      · rw [ht]
        exact nofun
      · rw [ht]
        exact nofun
      · exact fun hc => absurd hc Bool.false_ne_true
  | waited call ht hw =>
      obtain ⟨o', htask, ho'⟩ := task_endWait t call (.returned .nothing)
        { w with pc := { w.pc with closedEvent := w.pc.closedEvent.leave t } }
      refine Or.inr ⟨t, _, .ended call o' ?_ ?_ ?_, htask⟩
      · rw [ht]
        exact nofun
      · rw [ht]
        exact nofun
      · intro _ r hr
        rcases ho' with hcancel | ⟨-, hm⟩
        · cases hcancel.symm.trans hr
        · right
          rcases hw with hmust | hwoken
          · exact absurd (hm.symm.trans hmust) Bool.false_ne_true
          · exact hwoken

/-- The native layer moves no task. -/
theorem task_native {a : PcNative} (h : applyNative a w = some w') :
    w'.task = w.task := by
  obtain ⟨core, native, teardown, issued, inFlight, ready, rfl⟩ := applyNative_eq h
  rfl

/-- A callback settles futures and moves no task. -/
theorem task_dispatch (h : w.dispatch = some w') : w'.task = w.task := by
  unfold dispatch at h
  split at h
  · cases h
  · split at h <;> cases h <;> rfl

/-- A loop step moves one task, or spawns one. -/
theorem moves_loop {a : PcLoop} (h : applyLoop a w = some w') :
    Moves w w' ∨ ∃ n, a = .spawnTask n ∧ Spawns n w w' := by
  cases a with
  | dispatch => exact Or.inl (Or.inl (task_dispatch h))
  | close =>
      cases h
      exact Or.inl (Or.inl (task_close w))
  | startTeardown =>
      simp only [applyLoop, startTeardown] at h
      split at h
      · split at h <;> cases h <;> exact Or.inl (Or.inl rfl)
      · cases h
  | resumeTeardown =>
      simp only [applyLoop, resumeTeardown] at h
      split at h
      · split at h
        · cases h
          exact Or.inl (Or.inl rfl)
        · cases h
      · cases h
  | endTeardown =>
      simp only [applyLoop, endTeardown] at h
      split at h
      · cases h
        exact Or.inl (Or.inl rfl)
      · cases h
  | spawnTask n =>
      simp only [applyLoop, spawnTask] at h
      split at h
      next hu =>
        split at h
        next =>
          cases h
          exact Or.inl (Or.inl rfl)
        next hc =>
          cases h
          exact Or.inr ⟨n, rfl, hu, Bool.eq_false_iff.mpr hc, rfl⟩
      next => cases h
  | finish n =>
      simp only [applyLoop, finish] at h
      split at h
      next last hl =>
        cases h
        refine Or.inl (Or.inr ⟨.ofConnection n, .done, ?_, rfl⟩)
        rw [hl]
        exact .finish last
      next => cases h
  | discard u =>
      simp only [applyLoop, discard] at h
      split at h
      · cases h
        exact Or.inl (Or.inl rfl)
      · cases h
  | createOffer u answer =>
      obtain ⟨hcall, last, hl⟩ := started_eq h
      left
      unfold createOffer at hcall
      split at hcall
      · cases hcall
        exact .of_ended hl rfl rfl
      · exact moves_createDescription hl rfl hcall
  | createAnswer u answer =>
      obtain ⟨hcall, last, hl⟩ := started_eq h
      exact Or.inl (moves_createDescription hl rfl hcall)
  | setLocalDescription u answer =>
      obtain ⟨hcall, last, hl⟩ := started_eq h
      exact Or.inl (moves_setLocalDescription hl hcall)
  | createDataChannel u answer =>
      obtain ⟨hcall, last, hl⟩ := started_eq h
      exact Or.inl (moves_createDataChannel hl hcall)
  | destroyChannel n =>
      simp only [applyLoop, destroyChannel] at h
      split at h
      · cases h
      · cases h
        exact Or.inl (Or.inl rfl)
  | aclose u =>
      obtain ⟨hcall, last, hl⟩ := started_eq h
      cases hcall
      refine Or.inl (moves_awaitClosed hl (task_close w) ?_)
      rcases shutdown_close w with hsame | ⟨-, hclosed⟩
      · exact congrArg Shutdown.closedFlag hsame
      · exact congrArg Shutdown.closedFlag hclosed
  | waitClosed u =>
      obtain ⟨hcall, last, hl⟩ := started_eq h
      cases hcall
      exact Or.inl (moves_awaitClosed hl rfl rfl)
  | resume u read => exact Or.inl (moves_resume h)
  | cancel u =>
      cases h
      exact Or.inl (Or.inl (task_cancelTask u w))
  | absorb u =>
      cases (started_eq h).1
      exact Or.inl (Or.inl rfl)

/-- A step moves at most one task along an edge, or spawns one. -/
theorem moves_apply {a : PcAction} (h : apply a w = some w') :
    Moves w w' ∨ ∃ n, a = .loop (.spawnTask n) ∧ Spawns n w w' := by
  cases a with
  | native a => exact Or.inl (Or.inl (task_native h))
  | loop a =>
      rcases moves_loop h with hmoves | ⟨n, rfl, hspawn⟩
      · exact Or.inl hmoves
      · exact Or.inr ⟨n, rfl, hspawn⟩

-- ===================================================== what steps are made of

/-- A relation between worlds that holds across the moves a step of the
machine is made of, apart from the callbacks and the owned set. -/
structure Composes (R : PcWorld → PcWorld → Prop) : Prop where
  trans : ∀ {w₁ w₂ w₃}, R w₁ w₂ → R w₂ w₃ → R w₁ w₃
  outside : ∀ {w w' : PcWorld}, w'.pc = w.pc → R w w'
  inside : ∀ (w : PcWorld) native closed teardown,
    R w { w with pc := { w.pc with
      native := native, closed := closed, teardownTask := teardown } }
  cancelGathering : ∀ w : PcWorld,
    R w { w with pc := { w.pc with gatheringComplete := w.pc.gatheringComplete.cancel } }
  cancelLocal : ∀ w : PcWorld,
    R w { w with pc := { w.pc with localDescription := w.pc.localDescription.cancel } }
  resetBoth : ∀ w : PcWorld, R w { w with pc := w.pc.resetBoth }
  resetLocal : ∀ w : PcWorld, R w { w with pc := w.pc.resetLocal }
  park : ∀ (t : TaskId) (w : PcWorld),
    R w { w with pc := { w.pc with closedEvent := w.pc.closedEvent.park t } }
  leave : ∀ (t : TaskId) (w : PcWorld),
    R w { w with pc := { w.pc with closedEvent := w.pc.closedEvent.leave t } }
  set : ∀ w : PcWorld,
    R w { w with pc := { w.pc with closedEvent := w.pc.closedEvent.set } }

namespace Composes

variable {R : PcWorld → PcWorld → Prop} (hR : Composes R)

include hR

theorem refl (w : PcWorld) : R w w := hR.outside rfl

theorem cancelTask (t : TaskId) (w : PcWorld) : R w (w.cancelTask t) := by
  unfold PcWorld.cancelTask
  split
  · exact hR.refl w
  · exact hR.refl w
  · split
    · exact hR.outside rfl
    · exact hR.cancelGathering w
  · split
    · exact hR.outside rfl
    · exact hR.cancelLocal w
  · have hmust : R w (w.setMustCancel t) := hR.outside rfl
    by_cases hw : t ∈ w.pc.closedEvent.waiters
    · rw [if_pos hw]
      exact hR.trans hmust (hR.leave t (w.setMustCancel t))
    · rw [if_neg hw]
      exact hmust
  · exact hR.outside rfl

theorem cancelTasks (ts : List TaskId) (w : PcWorld) : R w (w.cancelTasks ts) := by
  induction ts generalizing w with
  | nil => exact hR.refl w
  | cons t ts ih => exact hR.trans (hR.cancelTask t w) (ih (w.cancelTask t))

theorem suspend (t : TaskId) (st : PcTask) (w : PcWorld) : R w (w.suspend t st) := by
  have hclear : R w (clearMustCancel t { w with task := update w.task t st }) :=
    hR.outside rfl
  unfold PcWorld.suspend
  split
  · exact hR.trans hclear (hR.cancelTask t _)
  · exact hR.outside rfl

theorem endWait (t : TaskId) (call : PcCall) (o : Outcome PcResult Exc) (w : PcWorld) :
    R w (w.endWait t call o) := by
  unfold PcWorld.endWait
  split <;> exact hR.outside rfl

theorem awaitClosed (call : PcCall) (t : TaskId) (w : PcWorld) :
    R w (w.awaitClosed call t) := by
  unfold PcWorld.awaitClosed
  split
  · exact hR.outside rfl
  · exact hR.trans (hR.park t w) (hR.suspend t _ _)

theorem close (w : PcWorld) : R w w.close := by
  unfold PcWorld.close
  split
  · exact hR.refl w
  · have hclose := hR.inside w w.pc.native true w.pc.teardownTask
    have hcancel := hR.trans hclose (hR.cancelTasks w.pc.tasks _)
    exact hR.trans hcancel (hR.inside _ _ _ _)

theorem createDescription {call : PcCall} {answer : Except Exc Unit}
    (h : w.createDescription t call answer = some w') : R w w' := by
  obtain ⟨-, ⟨e, -, rfl⟩ | ⟨-, rfl⟩⟩ := createDescription_eq h
  · exact hR.trans (hR.resetBoth w) (hR.outside rfl)
  · exact hR.trans (hR.resetBoth w) (hR.suspend t _ _)

theorem setLocalDescription {answer : Except Exc Unit}
    (h : w.setLocalDescription t answer = some w') : R w w' := by
  obtain ⟨-, ⟨e, -, rfl⟩ | ⟨-, rfl⟩⟩ := setLocalDescription_eq h
  · exact hR.trans (hR.resetLocal w) (hR.outside rfl)
  · exact hR.trans (hR.resetLocal w) (hR.suspend t _ _)

theorem createDataChannel {answer : Except Exc Int}
    (h : w.createDataChannel t answer = some w') : R w w' := by
  unfold PcWorld.createDataChannel at h
  split at h
  next =>
    cases answer with
    | error e =>
        cases h
        exact hR.outside rfl
    | ok handle =>
        simp only at h
        split at h
        · cases h
        · cases h
          exact hR.outside rfl
  next => cases h

theorem resume {read : Except Exc (Option String × Option String)}
    (h : w.resume t read = some w') : R w w' := by
  cases resume_cases h with
  | gathered call ticket o ht ho => exact hR.endWait t _ _ w
  | described ticket o ht ho => exact hR.endWait t _ _ w
  | waited call ht hw => exact hR.trans (hR.leave t w) (hR.endWait t _ _ _)

theorem native {a : PcNative} (h : applyNative a w = some w') : R w w' := by
  obtain ⟨core, native, teardown, issued, inFlight, ready, rfl⟩ := applyNative_eq h
  exact hR.trans (hR.inside w native w.pc.closed teardown) (hR.outside rfl)

theorem walkChannels (w : PcWorld) : R w w.walkChannels :=
  hR.trans (hR.inside w _ _ _) (hR.outside rfl)

/-- A loop step keeps the relation, but for a dispatched event and a task
that is forgotten. -/
theorem loop {a : PcLoop} (h : applyLoop a w = some w') :
    R w w'
      ∨ (a = .dispatch ∧ ∃ e rest, w.ready = .event e :: rest)
      ∨ (∃ u, w.task u = .done
        ∧ w' = { w with pc := { w.pc with tasks := w.pc.tasks.filter (· ≠ u) } })
      ∨ ∃ n, Spawns n w w' := by
  cases a with
  | dispatch =>
      simp only [applyLoop, dispatch] at h
      split at h
      next => cases h
      next cb rest hr =>
        cases cb with
        | event e => exact Or.inr (Or.inl ⟨rfl, e, rest, hr⟩)
        | destroyDone =>
            cases h
            exact Or.inl (hR.trans (hR.inside w _ _ _) (hR.outside rfl))
  | close =>
      cases h
      exact Or.inl (hR.close w)
  | startTeardown =>
      obtain ⟨-, ⟨-, rfl⟩ | rfl⟩ := startTeardown_cases h
      · exact Or.inl (hR.walkChannels w)
      · exact Or.inl (hR.inside w _ _ _)
  | resumeTeardown =>
      rw [(resumeTeardown_cases h).1]
      exact Or.inl (hR.walkChannels w)
  | endTeardown =>
      simp only [applyLoop, endTeardown] at h
      split at h
      · cases h
        exact Or.inl (hR.trans (hR.set w) (hR.inside _ _ _ _))
      · cases h
  | spawnTask n =>
      simp only [applyLoop, spawnTask] at h
      split at h
      next hu =>
        split at h
        next =>
          cases h
          exact Or.inl (hR.refl _)
        next hc =>
          cases h
          exact Or.inr (Or.inr (Or.inr ⟨n, hu, Bool.eq_false_iff.mpr hc, rfl⟩))
      next => cases h
  | finish n =>
      simp only [applyLoop, finish] at h
      split at h
      · cases h
        exact Or.inl (hR.outside rfl)
      · cases h
  | discard u =>
      simp only [applyLoop, discard] at h
      split at h
      next hd =>
        cases h
        exact Or.inr (Or.inr (Or.inl ⟨u, hd, rfl⟩))
      next => cases h
  | createOffer u answer =>
      have hcall := (started_eq h).1
      left
      unfold createOffer at hcall
      split at hcall
      · cases hcall
        exact hR.outside rfl
      · exact hR.createDescription hcall
  | createAnswer u answer => exact Or.inl (hR.createDescription (started_eq h).1)
  | setLocalDescription u answer =>
      exact Or.inl (hR.setLocalDescription (started_eq h).1)
  | createDataChannel u answer =>
      exact Or.inl (hR.createDataChannel (started_eq h).1)
  | destroyChannel n =>
      simp only [applyLoop, destroyChannel] at h
      split at h
      · cases h
      · cases h
        exact Or.inl (hR.outside rfl)
  | aclose u =>
      cases (started_eq h).1
      exact Or.inl (hR.trans (hR.close w) (hR.awaitClosed _ u _))
  | waitClosed u =>
      cases (started_eq h).1
      exact Or.inl (hR.awaitClosed _ u w)
  | resume u read => exact Or.inl (hR.resume h)
  | cancel u =>
      cases h
      exact Or.inl (hR.cancelTask u w)
  | absorb u =>
      cases (started_eq h).1
      exact Or.inl (hR.outside rfl)

/-- Every step is made of these moves, or runs a callback, or is one of
the two that change the owned set. -/
theorem apply {a : PcAction} (h : PcWorld.apply a w = some w') :
    R w w'
      ∨ (a = .loop .dispatch ∧ ∃ e rest, w.ready = .event e :: rest)
      ∨ (∃ u, w.task u = .done
        ∧ w' = { w with pc := { w.pc with tasks := w.pc.tasks.filter (· ≠ u) } })
      ∨ ∃ n, Spawns n w w' := by
  cases a with
  | native a => exact Or.inl (hR.native h)
  | loop a =>
      rcases hR.loop h with hr | ⟨rfl, hr⟩ | hr
      · exact Or.inl hr
      · exact Or.inr (Or.inl ⟨rfl, hr⟩)
      · exact Or.inr (Or.inr hr)

end Composes

-- ======================================= the owned set and the closed event

/-- A step that leaves the owned set alone, and wakes nobody who waits
for the closed event but by raising it. -/
structure Keeps (w w' : PcWorld) : Prop where
  tasks : w'.pc.tasks = w.pc.tasks
  quiet : w.pc.closedEvent.Quiet → w'.pc.closedEvent.Quiet

/-- The step touches neither. -/
theorem Keeps.of_eq (htasks : w'.pc.tasks = w.pc.tasks)
    (hevent : w'.pc.closedEvent = w.pc.closedEvent) : Keeps w w' :=
  ⟨htasks, fun hq => hevent ▸ hq⟩

/-- Two steps that keep it keep it together. -/
theorem composes_keeps : Composes Keeps where
  trans := fun h₁ h₂ => ⟨h₂.tasks.trans h₁.tasks, h₂.quiet ∘ h₁.quiet⟩
  outside := fun h => .of_eq (congrArg _ h) (congrArg _ h)
  inside := fun _ _ _ _ => .of_eq rfl rfl
  cancelGathering := fun _ => .of_eq rfl rfl
  cancelLocal := fun _ => .of_eq rfl rfl
  resetBoth := fun _ => .of_eq rfl rfl
  resetLocal := fun _ => .of_eq rfl rfl
  park := fun _ _ => ⟨rfl, Event.Quiet.park⟩
  leave := fun _ _ => ⟨rfl, Event.Quiet.leave⟩
  set := fun _ => ⟨rfl, fun _ => Event.quiet_set _⟩

/-- A dispatch keeps it. -/
theorem keeps_dispatch (h : w.dispatch = some w') : Keeps w w' := by
  unfold dispatch at h
  split at h
  · cases h
  · split at h
    next => cases h; exact .of_eq rfl rfl
    next state _ =>
      cases h
      have hsame : (w.pc.handleStateChange state).tasks = w.pc.tasks
          ∧ (w.pc.handleStateChange state).closedEvent = w.pc.closedEvent := by
        unfold PeerConnection.handleStateChange
        split <;> exact ⟨rfl, rfl⟩
      exact .of_eq hsame.1 hsame.2
    next => cases h; exact .of_eq rfl rfl
    next => cases h; exact .of_eq rfl rfl
    next => cases h; exact .of_eq rfl rfl

/-- The owned set changes in two ways: a done task is discarded, or a new
one spawned. -/
theorem keeps_apply {a : PcAction} (h : apply a w = some w') :
    Keeps w w' ∨ (∃ u, w.task u = .done
        ∧ w' = { w with pc := { w.pc with tasks := w.pc.tasks.filter (· ≠ u) } })
      ∨ ∃ n, Spawns n w w' := by
  rcases composes_keeps.apply h with hk | ⟨rfl, -⟩ | hr
  · exact Or.inl hk
  · exact Or.inl (keeps_dispatch h)
  · exact Or.inr hr

end PcWorld

end AioLibDataChannel
