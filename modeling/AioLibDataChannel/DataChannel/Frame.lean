/-
What cancelling, suspending and returning leave alone.

Most loop actions only move a task between its own code and a wait.
They touch the task map, the owed cancellations, the slots' futures and
the waiting lists of the queue and the event — and nothing else. The
rest of the world is its `frame`; the lemmas here say the helpers keep
it, so a projection of the world that factors through the frame is
silent under them by rewriting alone.

Reading and sending also touch the receive queue and the history. What
is left of the frame without those two is `steady`: a call moves it
only through the few steps that are about it.

`Resumes` lists the ways a suspended task goes on, once for everything
that is proved about a resumption.
-/
import AioLibDataChannel.DataChannel.Machine

namespace AioLibDataChannel

open Asyncio (Event Future Outcome Queue)
open Function (update)

/-- The part of a world that no task movement touches. -/
structure Frame where
  core : Core
  native : NativeChannel
  coreDc : CoreDataChannel
  destroyed : Bool
  closeRequested : Bool
  lastError : Option String
  tasks : List TaskId
  teardownTask : Teardown
  maxsize : Nat
  items : List Item
  lowEvent : Bool
  ready : List DcEvent
  position : SendPosition
  hist : List DcObs

/-- The part of a frame that no reader and no sender touches. -/
structure Steady where
  core : Core
  native : NativeChannel
  coreDc : CoreDataChannel
  destroyed : Bool
  closeRequested : Bool
  lastError : Option String
  tasks : List TaskId
  teardownTask : Teardown
  lowEvent : Bool
  ready : List DcEvent

/-- The steady part of a frame. -/
def Frame.steady (f : Frame) : Steady where
  core := f.core
  native := f.native
  coreDc := f.coreDc
  destroyed := f.destroyed
  closeRequested := f.closeRequested
  lastError := f.lastError
  tasks := f.tasks
  teardownTask := f.teardownTask
  lowEvent := f.lowEvent
  ready := f.ready

namespace DcWorld

/-- The frame of a world. -/
def frame (w : DcWorld) : Frame where
  core := w.core
  native := w.native
  coreDc := w.dc.native
  destroyed := w.dc.destroyed
  closeRequested := w.dc.closeRequested
  lastError := w.dc.lastError
  tasks := w.dc.tasks
  teardownTask := w.dc.teardownTask
  maxsize := w.dc.recvQueue.maxsize
  items := w.dc.recvQueue.items
  lowEvent := w.dc.bufferedLowEvent.value
  ready := w.ready
  position := w.position
  hist := w.hist

variable (t : TaskId) (w : DcWorld)

/-- A cancellation reaches the slots and the task, not the frame. -/
@[simp] theorem frame_cancelTask : (w.cancelTask t).frame = w.frame := by
  unfold cancelTask
  split
  case h_3 => split <;> rfl
  case h_4 => split <;> rfl
  case h_6 => split <;> rfl
  all_goals rfl

/-- Cancelling a list of tasks leaves the frame as it is. -/
@[simp] theorem frame_cancelTasks (ts : List TaskId) :
    (w.cancelTasks ts).frame = w.frame := by
  unfold cancelTasks
  induction ts generalizing w with
  | nil => rfl
  | cons t ts ih =>
      rw [List.foldl_cons, ih, frame_cancelTask]

/-- A task that is suspended leaves the frame as it is. -/
@[simp] theorem frame_suspend (st : TaskState) :
    (w.suspend t st).frame = w.frame := by
  unfold suspend
  split
  · rw [frame_cancelTask]
    rfl
  · rfl

/-- A wait that ends leaves the frame as it is. -/
@[simp] theorem frame_endWait (call : Call)
    (o : Outcome (Option Message) Exc) :
    (w.endWait t call o).frame = w.frame := by
  unfold endWait
  split <;> rfl

/-- `wait_open()` changes its task and at most the slot. -/
@[simp] theorem frame_waitOpen : (w.waitOpen t).frame = w.frame := by
  unfold waitOpen
  split
  · rfl
  · exact frame_suspend t w _

/-- A wait for the closing changes its task and at most the slot. -/
@[simp] theorem frame_awaitClosed (call : Call) :
    (w.awaitClosed call t).frame = w.frame := by
  unfold awaitClosed
  split
  · rfl
  · exact frame_suspend t w _

-- ==================================================== the task map too

/-- A cancelled task goes on where it stands. -/
@[simp] theorem cancelTask_task : (w.cancelTask t).task = w.task := by
  unfold cancelTask
  split
  case h_3 => split <;> rfl
  case h_4 => split <;> rfl
  case h_6 => split <;> rfl
  all_goals rfl

/-- Cancelled tasks go on where they stand. -/
@[simp] theorem cancelTasks_task (ts : List TaskId) :
    (w.cancelTasks ts).task = w.task := by
  unfold cancelTasks
  induction ts generalizing w with
  | nil => rfl
  | cons t ts ih => rw [List.foldl_cons, ih, cancelTask_task]

/-- The task that is suspended is in its new state, cancelled or not. -/
@[simp] theorem suspend_task (st : TaskState) :
    (w.suspend t st).task = update w.task t st := by
  unfold suspend
  split
  · rw [cancelTask_task]
    rfl
  · rfl

/-- A wait that ends leaves its task running, with some outcome. -/
@[simp] theorem endWait_task (call : Call)
    (o : Outcome (Option Message) Exc) :
    ∃ o', (w.endWait t call o).task
      = update w.task t (.running (some (call, o'))) := by
  unfold endWait
  split
  · exact ⟨_, rfl⟩
  · exact ⟨_, rfl⟩

-- ========================================================== going on

/-- How a suspended task goes on: with what its slot was settled with,
cancelled, or with the code behind the wait. -/
inductive Resumes (t : TaskId) (w : DcWorld) : DcWorld → Prop
  | openSettled (o : Outcome Unit Exc) (ht : w.task t = .awaitingOpen)
      (hs : w.dc.openSlot.future = .settled o) :
      Resumes t w (w.endWait t .waitOpen (voidOutcome o))
  | closedSettled (call : Call) (o : Outcome Unit Exc)
      (ht : w.task t = .awaitingClosed call)
      (hs : w.dc.closedSlot.future = .settled o) :
      Resumes t w (w.endWait t call (voidOutcome o))
  | getCancelled (ht : w.task t = .inGet) (hm : w.mustCancel t = true) :
      Resumes t w ((({ w with
        dc := { w.dc with recvQueue := w.dc.recvQueue.passOn t } } : DcWorld).clearMustCancel
          t).finishCall t .recv .cancelled)
  | getParks (ht : w.task t = .inGet) (hm : w.mustCancel t = false)
      (hw : t ∈ w.dc.recvQueue.woken) (hi : w.dc.recvQueue.items = []) :
      Resumes t w { w with dc := { w.dc with recvQueue := w.dc.recvQueue.repark t } }
  | getTakes (item : Item) (rest : List Item) (ht : w.task t = .inGet)
      (hm : w.mustCancel t = false) (hw : t ∈ w.dc.recvQueue.woken)
      (hi : w.dc.recvQueue.items = item :: rest) :
      Resumes t w (({ w with
        dc := { w.dc with recvQueue := w.dc.recvQueue.takeWoken t }
        hist := w.hist ++ [.took t item] } : DcWorld).received t item)
  | putCancelled (ht : w.task t = .reinjecting) (hm : w.mustCancel t = true) :
      Resumes t w ((w.clearMustCancel t).finishCall t .recv .cancelled)
  | putRaises (q : Queue Item TaskId) (ht : w.task t = .reinjecting)
      (hm : w.mustCancel t = false)
      (hq : w.dc.recvQueue.putNowait .closedSentinel = some q) :
      Resumes t w (({ w with dc := { w.dc with recvQueue := q } } : DcWorld).finishCall t
        .recv (.raised (.connectionClosedError w.dc.closedText)))
  | sendCancelled (payload : Payload) (ht : w.task t = .inWait payload)
      (hm : w.mustCancel t = true) :
      Resumes t w ((({ w with dc := { w.dc with
        bufferedLowEvent := w.dc.bufferedLowEvent.leave t } } : DcWorld).clearMustCancel
          t).finishCall t .send .cancelled)
  | sendRaises (payload : Payload) (ht : w.task t = .inWait payload)
      (hm : w.mustCancel t = false) (hw : t ∈ w.dc.bufferedLowEvent.woken)
      (hr : w.sendRefused = true) :
      Resumes t w (({ w with dc := { w.dc with
        bufferedLowEvent := w.dc.bufferedLowEvent.leave t } } : DcWorld).finishCall t .send
          (.raised (.connectionClosedError "channel closed while waiting to send")))
  | sendEnters (payload : Payload) (ht : w.task t = .inWait payload)
      (hm : w.mustCancel t = false) (hw : t ∈ w.dc.bufferedLowEvent.woken)
      (hr : w.sendRefused = false) :
      Resumes t w (({ w with dc := { w.dc with
        bufferedLowEvent := w.dc.bufferedLowEvent.leave t } } : DcWorld).enterSend t payload)

variable {t w} in
/-- A task is resumed in no other way. -/
theorem resume_cases {w' : DcWorld} (h : w.resume t = some w') : Resumes t w w' := by
  unfold resume at h
  split at h
  next ht =>
    split at h
    next o hs =>
      cases h
      exact .openSettled o ht hs
    next => cases h
  next call ht =>
    split at h
    next o hs =>
      cases h
      exact .closedSettled call o ht hs
    next => cases h
  next ht =>
    unfold resumeGet at h
    split at h
    next hm =>
      cases h
      exact .getCancelled ht hm
    next hm =>
      split at h
      next hw =>
        split at h
        next hi =>
          cases h
          exact .getParks ht (Bool.eq_false_iff.mpr hm) hw hi
        next item rest hi =>
          cases h
          exact .getTakes item rest ht (Bool.eq_false_iff.mpr hm) hw hi
      next => cases h
  next ht =>
    unfold resumePut at h
    split at h
    next hm =>
      cases h
      exact .putCancelled ht hm
    next hm =>
      split at h
      next q hq =>
        cases h
        exact .putRaises q ht (Bool.eq_false_iff.mpr hm) hq
      next => cases h
  next payload ht =>
    unfold resumeSend at h
    simp only at h
    split at h
    next hm =>
      cases h
      exact .sendCancelled payload ht hm
    next hm =>
      split at h
      next hw =>
        split at h
        next hr =>
          cases h
          exact .sendRaises payload ht (Bool.eq_false_iff.mpr hm) hw hr
        next hr =>
          cases h
          exact .sendEnters payload ht (Bool.eq_false_iff.mpr hm) hw
            (Bool.eq_false_iff.mpr hr)
      next => cases h
  next => cases h

variable {t w} in
/-- In each of these ways a task is resumed. -/
theorem Resumes.resume {w' : DcWorld} (h : Resumes t w w') : w.resume t = some w' := by
  cases h with
  | openSettled o ht hs => simp only [DcWorld.resume, ht, hs]
  | closedSettled call o ht hs => simp only [DcWorld.resume, ht, hs]
  | getCancelled ht hm => simp only [DcWorld.resume, ht, resumeGet, if_pos hm]
  | getParks ht hm hw hi =>
      simp only [DcWorld.resume, ht, resumeGet, hm, Bool.false_eq_true, if_false, if_pos hw, hi]
  | getTakes item rest ht hm hw hi =>
      simp only [DcWorld.resume, ht, resumeGet, hm, Bool.false_eq_true, if_false, if_pos hw, hi]
  | putCancelled ht hm => simp only [DcWorld.resume, ht, resumePut, if_pos hm]
  | putRaises q ht hm hq =>
      simp only [DcWorld.resume, ht, resumePut, hm, Bool.false_eq_true, if_false, hq]
  | sendCancelled payload ht hm => simp only [DcWorld.resume, ht, resumeSend, if_pos hm]
  | sendRaises payload ht hm hw hr =>
      simp only [DcWorld.resume, ht, resumeSend, hm, Bool.false_eq_true, if_false, if_pos hw,
        if_pos hr]
  | sendEnters payload ht hm hw hr =>
      simp only [DcWorld.resume, ht, resumeSend, hm, Bool.false_eq_true, if_false, if_pos hw, hr]

-- ====================================================== the steady part

/-- The steady part of a world. -/
def steady (w : DcWorld) : Steady := w.frame.steady

/-- What leaves the frame alone leaves the steady part alone. -/
theorem steady_congr {w w' : DcWorld} (h : w'.frame = w.frame) :
    w'.steady = w.steady := by
  rw [steady, h, steady]

/-- A reader that has its item changes nothing that is steady. -/
theorem steady_received (item : Item) : (w.received t item).steady = w.steady := by
  cases item with
  | data m => rfl
  | closedSentinel =>
      simp only [received]
      split
      · rfl
      · exact steady_congr (frame_suspend t w _)

/-- `recv()` changes the queue and nothing that is steady. -/
theorem steady_recv : (w.recv t).steady = w.steady := by
  unfold recv
  cases w.dc.recvQueue.getNowait with
  | some p => exact steady_received t _ p.1
  | none =>
      have hframe := frame_suspend t { w with
        dc := { w.dc with recvQueue := w.dc.recvQueue.park t } } .inGet
      have hsteady := congrArg Frame.steady hframe
      exact hsteady

/-- `send()` past its checks changes nothing that is steady. -/
theorem steady_enterSend (payload : Payload) :
    (w.enterSend t payload).steady = w.steady := by
  cases payload <;> rfl

/-- `send()` changes nothing that is steady up to the native call. -/
theorem steady_send (payload : Payload) (wait : Bool) :
    (w.send t payload wait).steady = w.steady := by
  unfold send
  split
  · rfl
  · split
    · rw [steady_congr (frame_suspend t _ _)]
      unfold steady frame
      simp only [Event.park_value]
    · exact steady_enterSend t w payload

variable {t w} in
/-- A resumed task changes nothing that is steady. -/
theorem steady_resume {w' : DcWorld} (h : w.resume t = some w') :
    w'.steady = w.steady := by
  cases resume_cases h with
  | openSettled o ht hs => exact steady_congr (frame_endWait t w _ _)
  | closedSettled call o ht hs => exact steady_congr (frame_endWait t w _ _)
  | getTakes item rest ht hm hw hi => exact steady_received t _ item
  | sendEnters payload ht hm hw hr => exact steady_enterSend t _ payload
  | _ => rfl

end DcWorld

end AioLibDataChannel
