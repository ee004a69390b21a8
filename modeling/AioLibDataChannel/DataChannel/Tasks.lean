/-
The task map under a channel step: at most one task moves, along one of
the edges a coroutine can take.

`TaskEdge` lists them; `Spawns` is the one other way the map changes.
Two absences carry later results: nothing leaves `done`, and nothing
enters `reinjecting` — a reader that took the sentinel left room for
it, so putting it back never suspends (`noReinjecting_apply`).
-/
import AioLibDataChannel.DataChannel.Frame

namespace AioLibDataChannel

open Asyncio (Event Future Outcome Queue)
open Function (update)

/-- The waits a call can suspend in. -/
def TaskState.isWait : TaskState → Bool
  | .awaitingOpen => true
  | .awaitingClosed .waitClosed => true
  | .awaitingClosed .aclose => true
  | .inGet => true
  | .inWait _ => true
  | _ => false

/-- How a task can move in one step of the channel. -/
inductive TaskEdge : TaskState → TaskState → Prop
  | finish (last) : TaskEdge (.running last) .done
  | call (last) {st} (h : st.isWait = true) : TaskEdge (.running last) st
  | enterSend (last) : TaskEdge (.running last) .sending
  | wakeSend (payload) : TaskEdge (.inWait payload) .sending
  | ended {st} (call o) (h : st ≠ .unborn) (h' : st ≠ .done) :
      TaskEdge st (.running (some (call, o)))

/-- Nothing enters a blocking put of the sentinel. -/
theorem TaskEdge.ne_reinjecting {st st' : TaskState} (h : TaskEdge st st') :
    st' ≠ .reinjecting := by
  cases h with
  | call last hw =>
      intro heq
      subst heq
      cases hw
  | finish last => exact nofun
  | enterSend last => exact nofun
  | wakeSend payload => exact nofun
  | ended call o hu hd => exact nofun

/-- A task that moves is alive, and is not unborn after. -/
theorem TaskEdge.alive {st st' : TaskState} (h : TaskEdge st st') :
    st ≠ .unborn ∧ st ≠ .done ∧ st' ≠ .unborn := by
  cases h with
  | finish last => exact ⟨nofun, nofun, nofun⟩
  | call last hw =>
      refine ⟨nofun, nofun, ?_⟩
      intro heq
      subst heq
      cases hw
  | enterSend last => exact ⟨nofun, nofun, nofun⟩
  | wakeSend payload => exact ⟨nofun, nofun, nofun⟩
  | ended call o hu hd => exact ⟨hu, hd, nofun⟩

/-- The task whose `send()` the loop is inside. -/
def SendPosition.owner : SendPosition → Option TaskId
  | .idle => none
  | .calling t _ => some t
  | .returned t => some t
  | .clearing t => some t

namespace DcWorld

variable {w w' : DcWorld}

/-- The step from `w` to `w'` moves at most one task, along an edge. -/
def Moves (w w' : DcWorld) : Prop :=
  w'.task = w.task ∨
    ∃ t st, TaskEdge (w.task t) st ∧ w'.task = update w.task t st

/-- `spawn_task` succeeds: a new task of the channel starts to run. -/
def Spawns (t : TaskId) (w w' : DcWorld) : Prop :=
  t.ownedBy w.dc.native.handle = true ∧ w.task t = .unborn
    ∧ w.dc.closeRequested = false ∧ w' = { w with
      dc := { w.dc with tasks := w.dc.tasks ++ [t] }
      task := update w.task t (.running none) }

/-- A call that ends leaves its task running. -/
theorem Moves.of_ended {t : TaskId} {call : Call}
    {o : Outcome (Option Message) Exc} (hu : w.task t ≠ .unborn)
    (hd : w.task t ≠ .done)
    (h : w'.task = update w.task t (.running (some (call, o)))) : Moves w w' :=
  Or.inr ⟨t, _, .ended call o hu hd, h⟩

/-- A call is made by a task that runs. -/
theorem started_eq {t : TaskId} {v : DcWorld} (h : w.started t v = some w') :
    w' = v ∧ ∃ last, w.task t = .running last := by
  unfold started at h
  split at h
  next last hl =>
    cases h
    exact ⟨rfl, last, hl⟩
  next => cases h

/-- `close()` moves no task: who is cancelled goes on later. -/
@[simp] theorem close_task (w : DcWorld) : w.close.task = w.task := by
  unfold close
  split
  · rfl
  · show (cancelTasks _ _).task = _
    rw [cancelTasks_task]

/-- The destroy moves no task. -/
@[simp] theorem destroy_task (w : DcWorld) : w.destroy.task = w.task := by
  unfold destroy
  split <;> rfl

/-- A new threshold moves no task. -/
@[simp] theorem setThreshold_task (n : Nat) (w : DcWorld) :
    (w.setThreshold n).task = w.task := by
  unfold setThreshold
  split <;> rfl

/-- The end of the teardown moves no task. -/
@[simp] theorem teardownEnd_task (w : DcWorld) : w.teardownEnd.task = w.task :=
  destroy_task w

/-- A posted callback leaves the native channel as it is. -/
@[simp] theorem post_native (e : DcEvent) (w : DcWorld) :
    (w.post e).native = w.native := by
  unfold post
  split <;> rfl

/-- A native step moves the native channel and what the loop has yet to
run, and nothing else. -/
theorem applyNative_eq {a : DcNative} (h : applyNative a w = some w') :
    ∃ native ready, w' = { w with native := native, ready := ready } := by
  have hpost : ∀ (e : DcEvent) (native : NativeChannel),
      ∃ native' ready, ({ w with native := native } : DcWorld).post e
        = { w with native := native', ready := ready } := by
    intro e native
    unfold post
    split
    · exact ⟨native, _, rfl⟩
    · exact ⟨native, w.ready, rfl⟩
  cases a with
  | fire e => cases e <;> cases h <;> exact hpost _ _
  | drain k =>
      cases h
      simp only [drain]
      split
      · exact hpost _ _
      · exact ⟨_, w.ready, rfl⟩

/-- The native layer moves no task. -/
theorem applyNative_task {a : DcNative} (h : applyNative a w = some w') :
    w'.task = w.task := by
  obtain ⟨native, ready, rfl⟩ := applyNative_eq h
  rfl

/-- A dispatch runs the callback that is first in line. -/
theorem dispatch_cases (h : w.dispatch = some w') :
    ∃ e rest, w.ready = e :: rest
      ∧ w' = runCallback e { w with ready := rest } := by
  unfold dispatch at h
  split at h
  next => cases h
  next e rest hr =>
    cases h
    exact ⟨e, rest, hr, rfl⟩

/-- A callback settles futures and moves no task. -/
@[simp] theorem runCallback_task (e : DcEvent) (w : DcWorld) :
    (runCallback e w).task = w.task := by
  cases e <;> rfl

/-- A callback does not move the loop inside `send()`. -/
@[simp] theorem runCallback_position (e : DcEvent) (w : DcWorld) :
    (runCallback e w).position = w.position := by
  cases e <;> rfl

/-- A reader that took an item left room, so it ends its call without
suspending. -/
theorem received_task (t : TaskId) (item : Item)
    (hroom : w.dc.recvQueue.full = false) :
    ∃ o, (w.received t item).task
      = update w.task t (.running (some (.recv, o))) := by
  cases item with
  | data m => exact ⟨_, rfl⟩
  | closedSentinel =>
      refine ⟨.raised (.connectionClosedError w.dc.closedText), ?_⟩
      simp only [received, Queue.putNowait_of_room hroom]
      rfl

/-- A task that waits for the opening is suspended, or through. -/
theorem moves_waitOpen {t : TaskId}
    {last : Option (Call × Outcome (Option Message) Exc)}
    (hl : w.task t = .running last) : Moves w (w.waitOpen t) := by
  unfold waitOpen
  split
  · exact .of_ended (by rw [hl]; exact nofun) (by rw [hl]; exact nofun) rfl
  · refine Or.inr ⟨t, .awaitingOpen, ?_, suspend_task t w _⟩
    rw [hl]
    exact .call last rfl

/-- A task that waits for the closing is suspended, or through. -/
theorem moves_awaitClosed {t : TaskId} {call : Call}
    (hcall : (TaskState.awaitingClosed call).isWait = true)
    {last : Option (Call × Outcome (Option Message) Exc)}
    (hl : w.task t = .running last) : Moves w (w.awaitClosed call t) := by
  unfold awaitClosed
  split
  · exact .of_ended (by rw [hl]; exact nofun) (by rw [hl]; exact nofun) rfl
  · refine Or.inr ⟨t, .awaitingClosed call, ?_, suspend_task t w _⟩
    rw [hl]
    exact .call last hcall

/-- A reader has its item or waits in `get()`. -/
theorem moves_recv {t : TaskId}
    {last : Option (Call × Outcome (Option Message) Exc)}
    (hl : w.task t = .running last) : Moves w (w.recv t) := by
  unfold recv
  cases hg : w.dc.recvQueue.getNowait with
  | none =>
      refine Or.inr ⟨t, .inGet, ?_, suspend_task t _ _⟩
      rw [hl]
      exact .call last rfl
  | some p =>
      obtain ⟨item, q⟩ := p
      obtain ⟨o, ho⟩ := received_task t item
        (w := { w with
          dc := { w.dc with recvQueue := q }
          hist := w.hist ++ [.took t item] }) (Queue.full_of_getNowait hg)
      exact .of_ended (by rw [hl]; exact nofun) (by rw [hl]; exact nofun) ho

/-- Past its checks a sender is inside `send()`, or has raised. -/
theorem moves_enterSend {t : TaskId} {payload : Payload} {v : DcWorld}
    (hv : v.task = w.task)
    (hedge : TaskEdge (w.task t) .sending)
    (hu : w.task t ≠ .unborn) (hd : w.task t ≠ .done) :
    Moves w (v.enterSend t payload) := by
  cases payload with
  | other name =>
      exact .of_ended hu hd (by show update v.task t _ = _; rw [hv])
  | bytesLike data =>
      exact Or.inr ⟨t, .sending, hedge, by show update v.task t _ = _; rw [hv]⟩
  | str text =>
      exact Or.inr ⟨t, .sending, hedge, by show update v.task t _ = _; rw [hv]⟩

/-- A sender is refused, parked or past its checks. -/
theorem moves_send {t : TaskId} {payload : Payload} {wait : Bool}
    {last : Option (Call × Outcome (Option Message) Exc)}
    (hl : w.task t = .running last) : Moves w (w.send t payload wait) := by
  have hu : w.task t ≠ .unborn := by
    rw [hl]
    exact nofun
  have hd : w.task t ≠ .done := by
    rw [hl]
    exact nofun
  unfold send
  split
  · exact .of_ended hu hd rfl
  · split
    · refine Or.inr ⟨t, .inWait payload, ?_, suspend_task t _ _⟩
      rw [hl]
      exact .call last rfl
    · refine moves_enterSend rfl ?_ hu hd
      rw [hl]
      exact .enterSend last

/-- A task that is resumed moves along one of the edges. -/
theorem moves_resume {t : TaskId} (h : w.resume t = some w') : Moves w w' := by
  have hu : ∀ {st}, w.task t = st → st ≠ .unborn → w.task t ≠ .unborn :=
    fun ht hne hun => hne (ht.symm.trans hun)
  have hd : ∀ {st}, w.task t = st → st ≠ .done → w.task t ≠ .done :=
    fun ht hne hdone => hne (ht.symm.trans hdone)
  cases resume_cases h with
  | openSettled o ht hs =>
      obtain ⟨o', ho'⟩ := endWait_task t w .waitOpen (voidOutcome o)
      exact .of_ended (hu ht nofun) (hd ht nofun) ho'
  | closedSettled call o ht hs =>
      obtain ⟨o', ho'⟩ := endWait_task t w call (voidOutcome o)
      exact .of_ended (hu ht nofun) (hd ht nofun) ho'
  | getCancelled ht hm => exact .of_ended (hu ht nofun) (hd ht nofun) rfl
  | getParks ht hm hw hi => exact Or.inl rfl
  | getTakes item rest ht hm hw hi =>
      have hne : w.dc.recvQueue.items ≠ [] := by
        rw [hi]
        exact nofun
      obtain ⟨o, ho⟩ := received_task t item
        (w := { w with
          dc := { w.dc with recvQueue := w.dc.recvQueue.takeWoken t }
          hist := w.hist ++ [.took t item] }) (Queue.full_takeWoken hw hne)
      exact .of_ended (hu ht nofun) (hd ht nofun) ho
  | putCancelled ht hm => exact .of_ended (hu ht nofun) (hd ht nofun) rfl
  | putRaises q ht hm hq => exact .of_ended (hu ht nofun) (hd ht nofun) rfl
  | sendCancelled payload ht hm => exact .of_ended (hu ht nofun) (hd ht nofun) rfl
  | sendRaises payload ht hm hw hr => exact .of_ended (hu ht nofun) (hd ht nofun) rfl
  | sendEnters payload ht hm hw hr =>
      refine moves_enterSend rfl ?_ (hu ht nofun) (hd ht nofun)
      rw [ht]
      exact .wakeSend payload

/-- The teardown waits for the tasks there are, or ends at once. -/
theorem startTeardown_cases (h : w.startTeardown = some w') :
    w.dc.teardownTask = .created ∧
      ((w.dc.tasks = [] ∧ w' = w.teardownEnd) ∨
        (w.dc.tasks ≠ [] ∧ w' = { w with
          dc := { w.dc with teardownTask := .gathering w.dc.tasks } })) := by
  unfold startTeardown at h
  split at h
  next hc =>
    refine ⟨hc, ?_⟩
    split at h
    next hnil =>
      cases h
      exact Or.inl ⟨hnil, rfl⟩
    next hne =>
      cases h
      exact Or.inr ⟨hne, rfl⟩
  next => cases h

/-- The teardown goes on when all it waited for are done. -/
theorem resumeTeardown_cases (h : w.resumeTeardown = some w') :
    w' = w.teardownEnd ∧ ∃ snapshot, w.dc.teardownTask = .gathering snapshot
      ∧ ∀ t ∈ snapshot, w.task t = .done := by
  unfold resumeTeardown at h
  split at h
  next snapshot hg =>
    split at h
    next hall =>
      cases h
      refine ⟨rfl, snapshot, hg, ?_⟩
      intro t ht
      have := List.all_eq_true.mp hall t ht
      exact of_decide_eq_true this
    next => cases h
  next => cases h

/-- A task is refused once a close was asked for, and else listed and
started. -/
theorem spawnTask_cases {t : TaskId} (h : w.spawnTask t = some w') :
    t.ownedBy w.dc.native.handle = true ∧ w.task t = .unborn ∧
      ((w.dc.closeRequested = true ∧ w' = w) ∨
        (w.dc.closeRequested = false ∧ w' = { w with
          dc := { w.dc with tasks := w.dc.tasks ++ [t] }
          task := update w.task t (.running none) })) := by
  unfold spawnTask at h
  split at h
  next hg =>
    refine ⟨hg.1, hg.2, ?_⟩
    cases hc : w.dc.closeRequested with
    | true =>
        rw [hc] at h
        cases h
        exact Or.inl ⟨rfl, rfl⟩
    | false =>
        rw [hc] at h
        cases h
        exact Or.inr ⟨rfl, rfl⟩
  next => cases h

/-- A task is done from its own code. -/
theorem finish_cases {t : TaskId} (h : w.finish t = some w') :
    (∃ last, w.task t = .running last) ∧
      w' = { w with task := update w.task t .done } := by
  unfold finish at h
  split at h
  next last hl =>
    split at h
    · cases h
      exact ⟨⟨last, hl⟩, rfl⟩
    · cases h
  next => cases h

/-- The set forgets a task that is done. -/
theorem discard_cases {t : TaskId} (h : w.discard t = some w') :
    w.task t = .done ∧ w' = { w with
      dc := { w.dc with tasks := w.dc.tasks.filter (· ≠ t) } } := by
  unfold discard at h
  split at h
  next hd =>
    cases h
    exact ⟨hd, rfl⟩
  next => cases h

/-- A loop step moves at most one task, along an edge, or spawns one. -/
theorem applyLoop_moves {a : DcLoop} (h : applyLoop a w = some w') :
    Moves w w' ∨ ∃ t, a = .spawnTask t ∧ Spawns t w w' := by
  have hsame : ∀ {v : DcWorld}, v.task = w.task →
      Moves w v ∨ ∃ t, a = .spawnTask t ∧ Spawns t w v := fun ht => Or.inl (Or.inl ht)
  cases a with
  | dispatch =>
      obtain ⟨e, rest, -, rfl⟩ := dispatch_cases h
      exact hsame (runCallback_task e _)
  | close =>
      cases h
      exact hsame (close_task w)
  | destroy =>
      cases h
      exact hsame (destroy_task w)
  | startTeardown =>
      obtain ⟨-, ⟨-, rfl⟩ | ⟨-, rfl⟩⟩ := startTeardown_cases h
      · exact hsame (teardownEnd_task w)
      · exact hsame rfl
  | resumeTeardown =>
      obtain ⟨rfl, -⟩ := resumeTeardown_cases h
      exact hsame (teardownEnd_task w)
  | setThreshold n =>
      cases h
      exact hsame (setThreshold_task n w)
  | spawnTask t =>
      obtain ⟨ho, hu, ⟨-, rfl⟩ | ⟨hc, rfl⟩⟩ := spawnTask_cases h
      · exact hsame rfl
      · exact Or.inr ⟨t, rfl, ho, hu, hc, rfl⟩
  | finish t =>
      obtain ⟨⟨last, hl⟩, rfl⟩ := finish_cases h
      refine Or.inl (Or.inr ⟨t, .done, ?_, rfl⟩)
      rw [hl]
      exact .finish last
  | discard t =>
      obtain ⟨-, rfl⟩ := discard_cases h
      exact hsame rfl
  | waitOpen t =>
      obtain ⟨rfl, last, hl⟩ := started_eq h
      exact Or.inl (moves_waitOpen hl)
  | waitClosed t =>
      obtain ⟨rfl, last, hl⟩ := started_eq h
      exact Or.inl (moves_awaitClosed rfl hl)
  | aclose t =>
      obtain ⟨rfl, last, hl⟩ := started_eq h
      have hl' : w.close.task t = .running last := by
        rw [close_task]
        exact hl
      have hm : Moves w.close (w.aclose t) := moves_awaitClosed rfl hl'
      unfold Moves at hm
      rw [close_task] at hm
      exact Or.inl hm
  | recv t =>
      obtain ⟨rfl, last, hl⟩ := started_eq h
      exact Or.inl (moves_recv hl)
  | send t payload wait =>
      obtain ⟨rfl, last, hl⟩ := started_eq h
      exact Or.inl (moves_send hl)
  | resume t => exact Or.inl (moves_resume h)
  | cancel t =>
      cases h
      exact hsame (cancelTask_task t w)
  | absorb t =>
      obtain ⟨rfl, -⟩ := started_eq h
      exact hsame rfl

-- ============================================= the tail of send's owner

/-- While the loop is inside a `send()`, its task is in that state. -/
def SendInv (w : DcWorld) : Prop :=
  ∀ t, w.position.owner = some t → w.task t = .sending

/-- The loop enters the tail of a `send()` only by `enterSend`, on a
channel that takes sends. -/
def Enters (w w' : DcWorld) : Prop :=
  w'.position = w.position ∨
    ∃ t payload, w'.position = .calling t payload ∧ w'.task t = .sending
      ∧ w'.sendRefused = false

/-- What leaves the frame alone enters no `send()`. -/
theorem Enters.of_frame (h : w'.frame = w.frame) : Enters w w' :=
  Or.inl (congrArg Frame.position h)

/-- Past the checks the loop is inside `send()`. -/
theorem enters_enterSend {t : TaskId} {payload : Payload} {v : DcWorld}
    (hv : v.position = w.position) (hr : v.sendRefused = false) :
    Enters w (v.enterSend t payload) := by
  cases payload with
  | other name => exact Or.inl hv
  | bytesLike data =>
      exact Or.inr ⟨t, _, rfl, Function.update_self t _ v.task, hr⟩
  | str text =>
      exact Or.inr ⟨t, _, rfl, Function.update_self t _ v.task, hr⟩

/-- `close()` does not move the loop inside `send()`. -/
@[simp] theorem close_position (w : DcWorld) :
    w.close.position = w.position := by
  unfold close
  split
  · rfl
  · exact congrArg Frame.position (frame_cancelTasks _ w.dc.tasks)

/-- The destroy does not move the loop inside `send()`. -/
@[simp] theorem destroy_position (w : DcWorld) :
    w.destroy.position = w.position := by
  unfold destroy
  split <;> rfl

/-- A new threshold does not move the loop inside `send()`. -/
@[simp] theorem setThreshold_position (n : Nat) (w : DcWorld) :
    (w.setThreshold n).position = w.position := by
  unfold setThreshold
  split <;> rfl

/-- A reader does not move the loop inside `send()`. -/
theorem received_position (t : TaskId) (item : Item) (w : DcWorld) :
    (w.received t item).position = w.position := by
  cases item with
  | data m => rfl
  | closedSentinel =>
      simp only [received]
      split
      · rfl
      · exact congrArg Frame.position (frame_suspend t w _)

/-- A resumed task enters `send()` from its second check. -/
theorem enters_resume {t : TaskId} (h : w.resume t = some w') : Enters w w' := by
  cases resume_cases h with
  | openSettled o ht hs => exact .of_frame (frame_endWait t w _ _)
  | closedSettled call o ht hs => exact .of_frame (frame_endWait t w _ _)
  | getTakes item rest ht hm hw hi => exact Or.inl (received_position t item _)
  | sendEnters payload ht hm hw hr => exact enters_enterSend rfl hr
  | _ => exact Or.inl rfl

/-- A loop step enters `send()` in no other way. -/
theorem applyLoop_enters {a : DcLoop} (h : applyLoop a w = some w') :
    Enters w w' := by
  cases a with
  | dispatch =>
      obtain ⟨e, rest, -, rfl⟩ := dispatch_cases h
      exact Or.inl (runCallback_position e _)
  | close =>
      cases h
      exact Or.inl (close_position w)
  | destroy =>
      cases h
      exact Or.inl (destroy_position w)
  | startTeardown =>
      obtain ⟨-, ⟨-, rfl⟩ | ⟨-, rfl⟩⟩ := startTeardown_cases h
      · exact Or.inl (destroy_position w)
      · exact Or.inl rfl
  | resumeTeardown =>
      obtain ⟨rfl, -⟩ := resumeTeardown_cases h
      exact Or.inl (destroy_position w)
  | setThreshold n =>
      cases h
      exact Or.inl (setThreshold_position n w)
  | spawnTask t =>
      obtain ⟨-, -, ⟨-, rfl⟩ | ⟨-, rfl⟩⟩ := spawnTask_cases h <;> exact Or.inl rfl
  | finish t =>
      obtain ⟨-, rfl⟩ := finish_cases h
      exact Or.inl rfl
  | discard t =>
      obtain ⟨-, rfl⟩ := discard_cases h
      exact Or.inl rfl
  | waitOpen t =>
      obtain ⟨rfl, -⟩ := started_eq h
      exact .of_frame (frame_waitOpen t w)
  | waitClosed t =>
      obtain ⟨rfl, -⟩ := started_eq h
      exact .of_frame (frame_awaitClosed t w _)
  | aclose t =>
      obtain ⟨rfl, -⟩ := started_eq h
      left
      have := congrArg Frame.position (frame_awaitClosed t w.close .aclose)
      exact this.trans (close_position w)
  | recv t =>
      obtain ⟨rfl, -⟩ := started_eq h
      left
      unfold recv
      split
      · exact received_position t _ _
      · exact congrArg Frame.position (frame_suspend t _ _)
  | send t payload wait =>
      obtain ⟨rfl, -⟩ := started_eq h
      unfold send
      split
      · exact Or.inl rfl
      next hr =>
        split
        · exact Or.inl (congrArg Frame.position (frame_suspend t _ _))
        · exact enters_enterSend rfl (Bool.eq_false_iff.mpr hr)
  | resume t => exact enters_resume h
  | cancel t =>
      cases h
      exact .of_frame (frame_cancelTask t w)
  | absorb t =>
      obtain ⟨rfl, -⟩ := started_eq h
      exact Or.inl rfl

/-- The last native calls of a `send()` move the native channel, the
flag of the low event, where the call is and the task map, and nothing
else. -/
theorem applySending_eq {a : DcSending} (h : applySending a w = some w') :
    ∃ native event position task, event.waiters = w.dc.bufferedLowEvent.waiters
      ∧ w' = { w with
        native := native
        dc := { w.dc with bufferedLowEvent := event }
        position := position
        task := task } := by
  cases a with
  | nativeSend answer =>
      simp only [applySending, nativeSend] at h
      split at h
      · split at h <;> cases h <;> exact ⟨_, w.dc.bufferedLowEvent, _, _, rfl, rfl⟩
      · cases h
  | readAmount =>
      simp only [applySending, readAmount] at h
      split at h
      · split at h <;> cases h <;> exact ⟨w.native, w.dc.bufferedLowEvent, _, _, rfl, rfl⟩
      · cases h
  | clearEvent =>
      simp only [applySending, clearEvent] at h
      split at h
      · cases h
        exact ⟨w.native, w.dc.bufferedLowEvent.clear, _, _, rfl, rfl⟩
      · cases h

/-- The last native calls of a `send()`: its own task either stays in
it, or leaves with the loop. -/
theorem applySending_cases {a : DcSending} (h : applySending a w = some w') :
    ∃ t, w.position.owner = some t ∧
      ((w'.task = w.task ∧ w'.position.owner = some t) ∨
        (w'.position = .idle ∧
          ∃ o, w'.task = update w.task t (.running (some (.send, o))))) := by
  cases a with
  | nativeSend answer =>
      simp only [applySending, nativeSend] at h
      split at h
      next t payload hp =>
        rw [hp]
        refine ⟨t, rfl, ?_⟩
        split at h
        · cases h
          exact Or.inl ⟨rfl, rfl⟩
        · cases h
          exact Or.inr ⟨rfl, _, rfl⟩
      next => cases h
  | readAmount =>
      simp only [applySending, readAmount] at h
      split at h
      next t hp =>
        rw [hp]
        refine ⟨t, rfl, ?_⟩
        split at h
        · cases h
          exact Or.inl ⟨rfl, rfl⟩
        · cases h
          exact Or.inr ⟨rfl, _, rfl⟩
      next => cases h
  | clearEvent =>
      simp only [applySending, clearEvent] at h
      split at h
      next t hp =>
        cases h
        rw [hp]
        exact ⟨t, rfl, Or.inr ⟨rfl, _, rfl⟩⟩
      next => cases h

/-- The native layer does not move the loop. -/
theorem applyNative_position {a : DcNative} (h : applyNative a w = some w') :
    w'.position = w.position := by
  obtain ⟨native, ready, rfl⟩ := applyNative_eq h
  rfl

/-- The loop takes a step of its own outside `send()` only. -/
theorem apply_loop_cases {a : DcLoop} (h : apply (.loop a) w = some w') :
    w.position = .idle ∧ applyLoop a w = some w' := by
  simp only [apply] at h
  split at h
  next hidle => exact ⟨hidle, h⟩
  next => cases h

/-- Every step keeps `send()`'s task in its state. -/
theorem sendInv_apply {a : DcAction} (hs : SendInv w)
    (h : apply a w = some w') : SendInv w' := by
  intro t ht
  cases a with
  | native a =>
      rw [applyNative_position h] at ht
      rw [applyNative_task h]
      exact hs t ht
  | sending a =>
      obtain ⟨u, hu, ⟨htask, hpos⟩ | ⟨hidle, -⟩⟩ := applySending_cases h
      · rw [hpos] at ht
        cases ht
        rw [htask]
        exact hs t hu
      · rw [hidle] at ht
        cases ht
  | loop a =>
      obtain ⟨hidle, hloop⟩ := apply_loop_cases h
      rcases applyLoop_enters hloop with hpos | ⟨u, payload, hpos, hu, -⟩
      · rw [hpos, hidle] at ht
        cases ht
      · rw [hpos] at ht
        cases ht
        exact hu

/-- The inversion of the whole step, for the task map. -/
theorem apply_moves {a : DcAction} (hs : SendInv w) (h : apply a w = some w') :
    Moves w w' ∨ ∃ t, a = .loop (.spawnTask t) ∧ Spawns t w w' := by
  cases a with
  | native a => exact Or.inl (Or.inl (applyNative_task h))
  | sending a =>
      left
      obtain ⟨t, ht, ⟨htask, -⟩ | ⟨-, o, htask⟩⟩ := applySending_cases h
      · exact Or.inl htask
      · have hst : w.task t = .sending := hs t ht
        exact .of_ended (by rw [hst]; exact nofun) (by rw [hst]; exact nofun) htask
  | loop a =>
      rcases applyLoop_moves (apply_loop_cases h).2 with hm | ⟨t, rfl, hspawn⟩
      · exact Or.inl hm
      · exact Or.inr ⟨t, rfl, hspawn⟩

-- ======================================================== consequences

/-- No reader is suspended putting the sentinel back. -/
def NoReinjecting (w : DcWorld) : Prop := ∀ t, w.task t ≠ .reinjecting

/-- Nobody ever waits to put the sentinel back. -/
theorem noReinjecting_apply {a : DcAction} (hs : SendInv w)
    (hn : NoReinjecting w) (h : apply a w = some w') : NoReinjecting w' := by
  intro u
  have hmove : ∀ t st, st ≠ .reinjecting → w'.task = update w.task t st →
      w'.task u ≠ .reinjecting := by
    intro t st hst htask
    rw [htask]
    by_cases hu : u = t
    · subst hu
      rw [Function.update_self]
      exact hst
    · rw [Function.update_of_ne hu]
      exact hn u
  rcases apply_moves hs h with (htask | ⟨t, st, hedge, htask⟩) | ⟨t, -, -, -, -, rfl⟩
  · rw [htask]
    exact hn u
  · exact hmove t st hedge.ne_reinjecting htask
  · exact hmove t (.running none) nofun rfl

end DcWorld

end AioLibDataChannel
