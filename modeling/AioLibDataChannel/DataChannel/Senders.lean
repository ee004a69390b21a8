/-
The senders of a channel: who is parked for drain, and why each of them
can be reached.

A task suspended in `send()` is listed by the drain event, parked or
woken, or it is owed a cancellation (`SendersInv`). Nothing but the
task's own resumption takes it off that account, so raising the event
once and for all reaches every suspended sender.
-/
import AioLibDataChannel.DataChannel.Tasks

namespace AioLibDataChannel

open Asyncio (Event Future Outcome Queue)
open Function (update)

namespace DcWorld

variable {w w' : DcWorld} {t u : TaskId}

/-- Something will resume the sender: the event lists it, or it is owed
a cancellation. -/
def SenderReached (w : DcWorld) (t : TaskId) : Prop :=
  w.mustCancel t = true ∨ w.dc.bufferedLowEvent.Listed t

/-- Every task suspended in `send()` is reached. -/
def SendersInv (w : DcWorld) : Prop :=
  ∀ t payload, w.task t = .inWait payload → w.SenderReached t

/-- The senders after a step were senders before it, and are still
reached. -/
theorem SendersInv.mono (h : SendersInv w)
    (ht : ∀ u payload, w'.task u = .inWait payload →
      w.task u = .inWait payload ∧ (w.SenderReached u → w'.SenderReached u)) :
    SendersInv w' := by
  intro u payload hu
  obtain ⟨hw, hr⟩ := ht u payload hu
  exact hr (h u payload hw)

/-- Neither the tasks nor what reaches them changed. -/
theorem SendersInv.of_eq (h : SendersInv w) (ht : w'.task = w.task)
    (hm : w'.mustCancel = w.mustCancel)
    (he : w'.dc.bufferedLowEvent = w.dc.bufferedLowEvent) : SendersInv w' := by
  refine h.mono fun u payload hu => ⟨ht ▸ hu, ?_⟩
  unfold SenderReached
  rw [hm, he]
  exact id

/-- The event was raised, and nothing else. -/
theorem SendersInv.set (h : SendersInv w) (ht : w'.task = w.task)
    (hm : w'.mustCancel = w.mustCancel)
    (he : w'.dc.bufferedLowEvent = w.dc.bufferedLowEvent.set) : SendersInv w' := by
  refine h.mono fun u payload hu => ⟨ht ▸ hu, ?_⟩
  unfold SenderReached
  rw [hm, he]
  exact Or.imp id Event.Listed.set

/-- One task moved, out of `send()` or around it. What reaches the
others is as before. -/
theorem SendersInv.moved {st : TaskState} (h : SendersInv w)
    (ht : w'.task = update w.task t st) (hst : ∀ payload, st ≠ .inWait payload)
    (hr : ∀ u, u ≠ t → w.SenderReached u → w'.SenderReached u) : SendersInv w' := by
  refine h.mono fun u payload hu => ?_
  rw [ht] at hu
  have hne : u ≠ t := by
    intro heq
    subst heq
    rw [Function.update_self] at hu
    exact hst payload hu
  rw [Function.update_of_ne hne] at hu
  exact ⟨hu, hr u hne⟩

/-- What becomes of one task leaves the other senders reached. -/
theorem reached_of_ne {e : Event TaskId} {owed : Bool} (hne : u ≠ t)
    (hm : w'.mustCancel = update w.mustCancel t owed)
    (he : w'.dc.bufferedLowEvent = e) (hl : w.dc.bufferedLowEvent.Listed u → e.Listed u)
    (h : w.SenderReached u) : w'.SenderReached u := by
  unfold SenderReached
  rw [hm, he, Function.update_of_ne hne]
  exact h.imp id hl

-- ============================================================ cancelling

/-- Cancelling a task leaves every task reached: the cancelled one is
owed the error. -/
theorem reached_cancelTask (h : w.SenderReached u) : (w.cancelTask t).SenderReached u := by
  have hset : (w.setMustCancel t).SenderReached u := by
    by_cases hu : u = t
    · subst hu
      exact Or.inl (Function.update_self _ _ _)
    · exact reached_of_ne hu rfl rfl id h
  unfold cancelTask
  split
  · exact h
  · exact h
  · split
    · exact hset
    · exact h
  · split
    · exact hset
    · exact h
  · exact hset
  · split
    · by_cases hu : u = t
      · subst hu
        exact Or.inl (Function.update_self _ _ _)
      · exact reached_of_ne hu rfl rfl (fun hl => hl.leave hu) h
    · exact hset
  · exact hset
  · exact hset
  · exact hset

/-- A sender that is cancelled is reached by the cancellation. -/
theorem sendersInv_cancelTask (h : SendersInv w) (t : TaskId) :
    SendersInv (w.cancelTask t) := by
  refine h.mono fun u payload hu => ⟨?_, reached_cancelTask⟩
  rw [cancelTask_task] at hu
  exact hu

/-- Every parked sender on a list of cancelled tasks is reached. -/
theorem sendersInv_cancelTasks (h : SendersInv w) (ts : List TaskId) :
    SendersInv (w.cancelTasks ts) := by
  unfold cancelTasks
  induction ts generalizing w with
  | nil => exact h
  | cons t ts ih =>
      rw [List.foldl_cons]
      exact ih (sendersInv_cancelTask h t)

-- ============================================================ suspending

/-- A task that suspends leaves the others reached. -/
theorem reached_suspend {st : TaskState} (hne : u ≠ t) (h : w.SenderReached u) :
    (w.suspend t st).SenderReached u := by
  unfold suspend
  split
  · exact reached_cancelTask (reached_of_ne hne rfl rfl id h)
  · exact h

/-- A task that suspends elsewhere is no parked sender. -/
theorem sendersInv_suspend {st : TaskState} (h : SendersInv w)
    (hst : ∀ payload, st ≠ .inWait payload) : SendersInv (w.suspend t st) :=
  h.moved (suspend_task t w st) hst fun _ hne => reached_suspend hne

/-- A sender that parks is listed, or a cancellation it was owed is
delivered to the future it just parked on. -/
theorem reached_park {payload : Payload} (hv : w.dc.bufferedLowEvent.value = false) :
    (suspend t (.inWait payload) { w with
      dc := { w.dc with bufferedLowEvent := w.dc.bufferedLowEvent.park t } }).SenderReached t := by
  have hlist : (w.dc.bufferedLowEvent.park t).Listed t := Event.listed_park_self hv
  unfold suspend
  split
  · exact reached_cancelTask (Or.inr hlist)
  · exact Or.inr hlist

/-- A call that ends parks nobody. -/
theorem sendersInv_finishCall {call : Call} {o : Outcome (Option Message) Exc}
    (h : SendersInv w) : SendersInv (w.finishCall t call o) :=
  h.moved rfl (fun _ => nofun) fun _ _ hr => hr

/-- A wait that ends parks nobody. -/
theorem sendersInv_endWait {call : Call} {o : Outcome (Option Message) Exc}
    (h : SendersInv w) : SendersInv (w.endWait t call o) := by
  unfold endWait
  split
  · exact h.moved rfl (fun _ => nofun) fun _ hne => reached_of_ne hne rfl rfl id
  · exact sendersInv_finishCall h

/-- A wait for the opening parks nobody. -/
theorem sendersInv_waitOpen (h : SendersInv w) : SendersInv (w.waitOpen t) := by
  unfold waitOpen
  split
  · exact sendersInv_finishCall h
  · exact sendersInv_suspend h fun _ => nofun

/-- A wait for the closing parks nobody. -/
theorem sendersInv_awaitClosed {call : Call} (h : SendersInv w) :
    SendersInv (w.awaitClosed call t) := by
  unfold awaitClosed
  split
  · exact sendersInv_finishCall h
  · exact sendersInv_suspend h fun _ => nofun

-- =============================================================== closing

/-- `close()` cancels its own tasks and leaves the event alone. -/
theorem sendersInv_close (h : SendersInv w) : SendersInv w.close := by
  unfold close
  split
  · exact h
  · have hreq : SendersInv { w with
        dc := w.dc.requestClose, hist := w.hist ++ [.closeCalled] } := h.of_eq rfl rfl rfl
    exact (sendersInv_cancelTasks hreq w.dc.tasks).of_eq rfl rfl rfl

/-- The destroy wakes every sender that is parked. -/
theorem sendersInv_destroy (h : SendersInv w) : SendersInv w.destroy := by
  unfold destroy
  split
  · exact h
  next hd =>
    refine h.set rfl rfl ?_
    show ((w.dc.destroy w.core).2).bufferedLowEvent = _
    rw [DataChannel.destroy, if_neg hd]
    rfl

/-- The end of the teardown wakes the senders by the destroy in it. -/
theorem sendersInv_teardownEnd (h : SendersInv w) : SendersInv w.teardownEnd :=
  (sendersInv_destroy h).of_eq rfl rfl rfl

/-- A low event or a closing sets the event, and no callback clears it. -/
theorem sendersInv_runCallback (h : SendersInv w) (e : DcEvent) :
    SendersInv (runCallback e w) := by
  cases e with
  | opened => exact h.of_eq rfl rfl rfl
  | error m => exact h.of_eq rfl rfl rfl
  | message m => exact h.of_eq rfl rfl rfl
  | closed => exact h.set rfl rfl rfl
  | bufferedLow => exact h.set rfl rfl rfl

-- =============================================================== reading

/-- A reader that has its item parks no sender. -/
theorem sendersInv_received {item : Item} (h : SendersInv w) :
    SendersInv (w.received t item) := by
  cases item with
  | data m => exact sendersInv_finishCall h
  | closedSentinel =>
      simp only [received]
      split
      · exact h.moved rfl (fun _ hst => by cases hst) fun _ _ hr => hr
      · exact sendersInv_suspend h fun _ hst => by cases hst

/-- `recv()` parks no sender. -/
theorem sendersInv_recv (h : SendersInv w) : SendersInv (w.recv t) := by
  unfold recv
  split
  next item q hget =>
    have htook : SendersInv { w with
        dc := { w.dc with recvQueue := q }, hist := w.hist ++ [.took t item] } :=
      h.of_eq rfl rfl rfl
    exact sendersInv_received htook
  next hget =>
    have hpark : SendersInv { w with
        dc := { w.dc with recvQueue := w.dc.recvQueue.park t } } := h.of_eq rfl rfl rfl
    exact sendersInv_suspend hpark fun _ => nofun

-- =============================================================== sending

/-- A sender past its checks is not parked. -/
theorem sendersInv_enterSend {payload : Payload} (h : SendersInv w) :
    SendersInv (w.enterSend t payload) := by
  cases payload with
  | other name => exact sendersInv_finishCall h
  | bytesLike data => exact h.moved rfl (fun _ => nofun) fun _ _ hr => hr
  | str text => exact h.moved rfl (fun _ => nofun) fun _ _ hr => hr

/-- A sender that parks is listed with the event. -/
theorem sendersInv_send {payload : Payload} {wait : Bool} (h : SendersInv w) :
    SendersInv (w.send t payload wait) := by
  unfold send
  split
  · exact sendersInv_finishCall h
  · split
    next hwait =>
      have hv : w.dc.bufferedLowEvent.value = false := by
        cases hv : w.dc.bufferedLowEvent.value with
        | false => rfl
        | true =>
            rw [hv] at hwait
            simp at hwait
      intro u payload' hu
      by_cases hne : u = t
      · subst hne
        exact reached_park hv
      · rw [suspend_task, Function.update_of_ne hne] at hu
        refine reached_suspend hne ?_
        exact (h u payload' hu).imp id Event.Listed.park
    next => exact sendersInv_enterSend h

/-- A sender that is resumed leaves the event's lists. -/
theorem sendersInv_resume (h : SendersInv w) (hres : w.resume t = some w') :
    SendersInv w' := by
  have hleft : ∀ {v : DcWorld} {st : TaskState}, v.task = update w.task t st →
      (∀ p, st ≠ .inWait p) →
      (∃ owed, v.mustCancel = update w.mustCancel t owed) →
      v.dc.bufferedLowEvent = w.dc.bufferedLowEvent.leave t → SendersInv v := by
    intro v st ht hst hm he
    obtain ⟨owed, hm⟩ := hm
    exact h.moved ht hst fun _ hne =>
      reached_of_ne hne hm he fun hl => hl.leave hne
  have hself : w.mustCancel = update w.mustCancel t (w.mustCancel t) :=
    (Function.update_eq_self t w.mustCancel).symm
  cases resume_cases hres with
  | openSettled o ht hs => exact sendersInv_endWait h
  | closedSettled call o ht hs => exact sendersInv_endWait h
  | getCancelled ht hm =>
      exact h.moved rfl (fun _ => nofun) fun _ hne => reached_of_ne hne rfl rfl id
  | getParks ht hm hw hi => exact h.of_eq rfl rfl rfl
  | getTakes item rest ht hm hw hi =>
      have htook : SendersInv { w with
          dc := { w.dc with recvQueue := w.dc.recvQueue.takeWoken t }
          hist := w.hist ++ [.took t item] } := h.of_eq rfl rfl rfl
      exact sendersInv_received htook
  | putCancelled ht hm =>
      exact h.moved rfl (fun _ => nofun) fun _ hne => reached_of_ne hne rfl rfl id
  | putRaises q ht hm hq => exact h.moved rfl (fun _ => nofun) fun _ _ hr => hr
  | sendCancelled payload ht hm => exact hleft rfl (fun _ => nofun) ⟨false, rfl⟩ rfl
  | sendRaises payload ht hm hw hr => exact hleft rfl (fun _ => nofun) ⟨_, hself⟩ rfl
  | sendEnters payload ht hm hw hr =>
      cases payload with
      | other name => exact hleft rfl (fun _ => nofun) ⟨_, hself⟩ rfl
      | bytesLike data => exact hleft rfl (fun _ => nofun) ⟨_, hself⟩ rfl
      | str text => exact hleft rfl (fun _ => nofun) ⟨_, hself⟩ rfl

-- ======================================================= the whole step

/-- The native layer parks nobody. -/
theorem sendersInv_applyNative {a : DcNative} (h : SendersInv w)
    (hstep : applyNative a w = some w') : SendersInv w' := by
  obtain ⟨native, ready, rfl⟩ := applyNative_eq hstep
  exact h.of_eq rfl rfl rfl

/-- Clearing the event leaves those listed who are. -/
theorem sendersInv_applySending {a : DcSending} (h : SendersInv w)
    (hstep : applySending a w = some w') : SendersInv w' := by
  have hends : ∀ {v : DcWorld} {t o}, SendersInv v →
      SendersInv { v.finishCall t .send o with position := .idle } :=
    fun hv => (sendersInv_finishCall hv).of_eq rfl rfl rfl
  cases a with
  | nativeSend answer =>
      simp only [applySending, nativeSend] at hstep
      split at hstep
      · split at hstep
        · cases hstep
          exact h.of_eq rfl rfl rfl
        · cases hstep
          exact hends h
      · cases hstep
  | readAmount =>
      simp only [applySending, readAmount] at hstep
      split at hstep
      · split at hstep
        · cases hstep
          exact h.of_eq rfl rfl rfl
        · cases hstep
          exact hends h
      · cases hstep
  | clearEvent =>
      simp only [applySending, clearEvent] at hstep
      split at hstep
      · cases hstep
        exact h.moved rfl (fun _ hst => by cases hst) fun _ _ hr => hr
      · cases hstep

/-- The account survives every step. -/
theorem sendersInv_apply {a : DcAction} (h : SendersInv w)
    (hstep : apply a w = some w') : SendersInv w' := by
  cases a with
  | native a => exact sendersInv_applyNative h hstep
  | sending a => exact sendersInv_applySending h hstep
  | loop a =>
      obtain ⟨-, hloop⟩ := apply_loop_cases hstep
      cases a with
      | dispatch =>
          obtain ⟨e, rest, -, rfl⟩ := dispatch_cases hloop
          exact sendersInv_runCallback (w := { w with ready := rest }) h e
      | close =>
          cases hloop
          exact sendersInv_close h
      | destroy =>
          cases hloop
          exact sendersInv_destroy h
      | startTeardown =>
          obtain ⟨-, ⟨-, rfl⟩ | ⟨-, rfl⟩⟩ := startTeardown_cases hloop
          · exact sendersInv_teardownEnd h
          · exact h.of_eq rfl rfl rfl
      | resumeTeardown =>
          obtain ⟨rfl, -⟩ := resumeTeardown_cases hloop
          exact sendersInv_teardownEnd h
      | setThreshold n =>
          cases hloop
          show SendersInv (w.setThreshold n)
          unfold setThreshold
          split
          · exact h
          · exact h.of_eq rfl rfl rfl
      | spawnTask t =>
          obtain ⟨-, -, ⟨-, rfl⟩ | ⟨-, rfl⟩⟩ := spawnTask_cases hloop
          · exact h
          · exact h.moved rfl (fun _ => nofun) fun _ _ hr => hr
      | finish t =>
          obtain ⟨-, rfl⟩ := finish_cases hloop
          exact h.moved rfl (fun _ => nofun) fun _ _ hr => hr
      | discard t =>
          obtain ⟨-, rfl⟩ := discard_cases hloop
          exact h.of_eq rfl rfl rfl
      | waitOpen t =>
          obtain ⟨rfl, -⟩ := started_eq hloop
          exact sendersInv_waitOpen h
      | waitClosed t =>
          obtain ⟨rfl, -⟩ := started_eq hloop
          exact sendersInv_awaitClosed h
      | aclose t =>
          obtain ⟨rfl, -⟩ := started_eq hloop
          exact sendersInv_awaitClosed (sendersInv_close h)
      | recv t =>
          obtain ⟨rfl, -⟩ := started_eq hloop
          exact sendersInv_recv h
      | send t payload wait =>
          obtain ⟨rfl, -⟩ := started_eq hloop
          exact sendersInv_send h
      | resume t => exact sendersInv_resume h hloop
      | cancel t =>
          cases hloop
          exact sendersInv_cancelTask h t
      | absorb t =>
          obtain ⟨rfl, last, hl⟩ := started_eq hloop
          refine h.mono fun u payload hu => ⟨hu, ?_⟩
          have hne : u ≠ t := by
            intro heq
            subst heq
            have hu' : w.task u = .inWait payload := hu
            rw [hl] at hu'
            cases hu'
          exact reached_of_ne hne rfl rfl id

end DcWorld

end AioLibDataChannel
