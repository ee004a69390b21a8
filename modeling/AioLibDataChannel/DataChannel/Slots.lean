/-
The two slots of a channel, and who can settle them.

A slot is one future shared by every task that awaits it. What it
should hold is a function of the channel's history, `slotOutcome`: the
open slot takes the first of an opening, an error and a closing, the
closed slot the first closing.

What it does hold differs in one case. Cancelling a task that awaits a
pending future cancels the future, and a cancelled slot ignores every
later `set` and `fail`. `Reaches` lists the steps that carry a
cancellation to a slot: cancelling a task that awaits it, `close()`
cancelling an owned task that does, and a wait started by a task that
already owes a cancellation. `slot_step_iff` says a slot keeps to its
history exactly under the steps that reach it only when it is done.
-/
import AioLibDataChannel.DataChannel.History
import AioLibDataChannel.DataChannel.Readers
import AioLibDataChannel.Transition.Run

namespace AioLibDataChannel

open Asyncio (Event Future Outcome Queue)
open Function (update)
open Transition (exec)

/-- `_open_slot` and `_closed_slot`. -/
inductive SlotName
  | opened
  | closed
deriving DecidableEq, Repr

/-- Suspended on that slot's future. -/
def TaskState.awaits : SlotName → TaskState → Bool
  | .opened, .awaitingOpen => true
  | .closed, .awaitingClosed _ => true
  | _, _ => false

/-- What an event of the history means for a slot. -/
def DcObs.settles : SlotName → DcObs → Option (Outcome Unit Exc)
  | .opened, .opened => some (.returned ())
  | .opened, .errored m => some (.raised (.rtcError m none))
  | .opened, .closed => some (.raised (.connectionClosedError "channel closed before open"))
  | .closed, .closed => some (.returned ())
  | .closed, .closedAtBirth => some (.returned ())
  | _, _ => none

/-- What the history says a slot holds: the first event that settles
it. -/
def slotOutcome (s : SlotName) (hist : List DcObs) : Future Unit Exc :=
  match hist.findSome? (DcObs.settles s) with
  | some o => .settled o
  | none => .pending

/-- One more event settles the slot unless an earlier one did. -/
theorem slotOutcome_append (s : SlotName) (hist : List DcObs) (o : DcObs) :
    slotOutcome s (hist ++ [o])
      = match o.settles s with
        | some x => (slotOutcome s hist).settle x
        | none => slotOutcome s hist := by
  unfold slotOutcome
  rw [List.findSome?_append, List.findSome?_singleton]
  cases hh : hist.findSome? (DcObs.settles s) with
  | none => cases o.settles s <;> rfl
  | some x => cases o.settles s <;> rfl

/-- An event that says nothing about the slot. -/
theorem slotOutcome_append_none {s : SlotName} {hist : List DcObs} {o : DcObs}
    (h : o.settles s = none) : slotOutcome s (hist ++ [o]) = slotOutcome s hist := by
  rw [slotOutcome_append, h]

/-- An event that settles a slot does so if nothing has before it. -/
theorem slotOutcome_append_some {s : SlotName} {hist : List DcObs} {o : DcObs}
    {x : Outcome Unit Exc} (h : o.settles s = some x) :
    slotOutcome s (hist ++ [o]) = (slotOutcome s hist).settle x := by
  rw [slotOutcome_append, h]

/-- No event settles a slot as cancelled. -/
theorem slotOutcome_ne_cancelled (s : SlotName) (hist : List DcObs) :
    slotOutcome s hist ≠ .settled .cancelled := by
  unfold slotOutcome
  split
  next o ho =>
    obtain ⟨x, -, hx⟩ := List.exists_of_findSome?_eq_some ho
    intro hc
    cases hc
    cases s <;> cases x <;> cases hx
  next => exact nofun

namespace DcWorld

variable {w w' : DcWorld} {t : TaskId} {s : SlotName}

/-- What a slot holds. -/
def slot : SlotName → DcWorld → Future Unit Exc
  | .opened, w => w.dc.openSlot.future
  | .closed, w => w.dc.closedSlot.future

-- ================================================= what cancelling does

/-- Cancelling a task reaches the slot it awaits. -/
theorem slot_cancelTask (s : SlotName) (t : TaskId) (w : DcWorld) :
    (w.cancelTask t).slot s
      = if (w.task t).awaits s then (w.slot s).cancel else w.slot s := by
  cases ht : w.task t with
  | awaitingOpen =>
      unfold cancelTask
      rw [ht]
      by_cases hd : w.dc.openSlot.future.done = true
      · simp only [hd, if_true]
        cases s with
        | opened =>
            show w.dc.openSlot.future = w.dc.openSlot.future.cancel
            exact (Future.cancel_eq_self_iff.mpr hd).symm
        | closed => rfl
      · simp only [hd]
        cases s <;> rfl
  | awaitingClosed call =>
      unfold cancelTask
      rw [ht]
      by_cases hd : w.dc.closedSlot.future.done = true
      · simp only [hd, if_true]
        cases s with
        | opened => rfl
        | closed =>
            show w.dc.closedSlot.future = w.dc.closedSlot.future.cancel
            exact (Future.cancel_eq_self_iff.mpr hd).symm
      · simp only [hd]
        cases s <;> rfl
  | inWait payload =>
      unfold cancelTask
      rw [ht]
      by_cases hm : t ∈ w.dc.bufferedLowEvent.waiters
      · simp only [hm, if_true]
        cases s <;> rfl
      · simp only [hm, if_false]
        cases s <;> rfl
  | unborn => unfold cancelTask; rw [ht]; cases s <;> rfl
  | done => unfold cancelTask; rw [ht]; cases s <;> rfl
  | running last => unfold cancelTask; rw [ht]; cases s <;> rfl
  | inGet => unfold cancelTask; rw [ht]; cases s <;> rfl
  | reinjecting => unfold cancelTask; rw [ht]; cases s <;> rfl
  | sending => unfold cancelTask; rw [ht]; cases s <;> rfl

/-- Cancelling several reaches the slots any of them awaits. -/
theorem slot_cancelTasks (s : SlotName) (ts : List TaskId) (w : DcWorld) :
    (w.cancelTasks ts).slot s
      = if ts.any (fun t => (w.task t).awaits s) then (w.slot s).cancel
        else w.slot s := by
  unfold cancelTasks
  induction ts generalizing w with
  | nil => rfl
  | cons t ts ih =>
      rw [List.foldl_cons, ih, cancelTask_task, slot_cancelTask, List.any_cons]
      cases (w.task t).awaits s with
      | false => rfl
      | true =>
          simp only [if_true, Bool.true_or]
          split
          · exact Future.cancel_eq_self_iff.mpr Future.done_cancel
          · rfl

/-- A task that suspends on a slot brings along the cancellation it
owes. -/
theorem slot_suspend (s : SlotName) (t : TaskId) (st : TaskState) (w : DcWorld) :
    (w.suspend t st).slot s
      = if w.mustCancel t && st.awaits s then (w.slot s).cancel else w.slot s := by
  unfold suspend
  cases hm : w.mustCancel t with
  | false => cases s <;> rfl
  | true =>
      simp only [if_true, Bool.true_and]
      rw [slot_cancelTask]
      show (if (update w.task t st t).awaits s then _ else _) = _
      rw [Function.update_self]
      cases s <;> rfl

/-- A wait begun by a task that is owed a cancellation cancels its
slot. -/
theorem slot_awaitClosed (call : Call) (w : DcWorld) :
    (w.awaitClosed call t).slot s
      = if w.mustCancel t && (TaskState.awaitingClosed call).awaits s
          then (w.slot s).cancel
        else w.slot s := by
  unfold awaitClosed
  split
  next o ho =>
    cases s with
    | opened =>
        rw [show (TaskState.awaitingClosed call).awaits .opened = false from rfl,
          Bool.and_false]
        rfl
    | closed =>
        have hcancel : (w.slot .closed).cancel = w.slot .closed := by
          show w.dc.closedSlot.future.cancel = w.dc.closedSlot.future
          rw [ho]
          rfl
        rw [hcancel, ite_self]
        rfl
  next => exact slot_suspend s t _ w

/-- A wait for the opening by a task that is owed a cancellation cancels
its slot. -/
theorem slot_waitOpen (w : DcWorld) :
    (w.waitOpen t).slot s
      = if w.mustCancel t && TaskState.awaitingOpen.awaits s then (w.slot s).cancel
        else w.slot s := by
  unfold waitOpen
  split
  next o ho =>
    cases s with
    | closed =>
        rw [show TaskState.awaitingOpen.awaits .closed = false from rfl,
          Bool.and_false]
        rfl
    | opened =>
        have hcancel : (w.slot .opened).cancel = w.slot .opened := by
          show w.dc.openSlot.future.cancel = w.dc.openSlot.future
          rw [ho]
          rfl
        rw [hcancel, ite_self]
        rfl
  next => exact slot_suspend s t _ w

/-- The first `close()` cancels the slots its tasks wait on. -/
theorem slot_close (w : DcWorld) :
    w.close.slot s
      = if !w.dc.closeRequested && w.dc.tasks.any (fun t => (w.task t).awaits s)
          then (w.slot s).cancel
        else w.slot s := by
  unfold close
  cases hc : w.dc.closeRequested with
  | true => rfl
  | false =>
      have hcancel := slot_cancelTasks s w.dc.tasks
        { w with dc := w.dc.requestClose, hist := w.hist ++ [.closeCalled] }
      have hsame : ∀ v : DcWorld, v.slot s
          = ({ v with dc := { v.dc with teardownTask := .created } } : DcWorld).slot s := by
        intro v
        cases s <;> rfl
      have hslot : ({ w with
          dc := w.dc.requestClose, hist := w.hist ++ [.closeCalled] } : DcWorld).slot s
          = w.slot s := by
        cases s <;> rfl
      simp only [Bool.false_eq_true, if_false, Bool.not_false, Bool.true_and]
      rw [← hsame, hcancel, hslot]

/-- Cancelling another task leaves what `t` owes alone. -/
theorem mustCancel_cancelTask_of_ne {u : TaskId} (h : t ≠ u) (w : DcWorld) :
    (w.cancelTask u).mustCancel t = w.mustCancel t := by
  have hset : ∀ v : DcWorld, (v.setMustCancel u).mustCancel t = v.mustCancel t :=
    fun v => Function.update_of_ne h _ _
  unfold cancelTask
  split
  · rfl
  · rfl
  · split
    · exact hset w
    · rfl
  · split
    · exact hset w
    · rfl
  · exact hset w
  · split
    · exact hset w
    · exact hset w
  · exact hset w
  · exact hset w
  · exact hset w

/-- What a running task owes once several were cancelled. -/
theorem mustCancel_cancelTasks {last : Option (Call × Outcome (Option Message) Exc)}
    (ts : List TaskId) (hl : w.task t = .running last) :
    (w.cancelTasks ts).mustCancel t = (w.mustCancel t || decide (t ∈ ts)) := by
  unfold cancelTasks
  induction ts generalizing w with
  | nil => simp
  | cons u ts ih =>
      rw [List.foldl_cons, ih (by rw [cancelTask_task]; exact hl)]
      by_cases htu : t = u
      · subst htu
        have hown : (w.cancelTask t).mustCancel t = true := by
          unfold cancelTask
          rw [hl]
          exact Function.update_self t true w.mustCancel
        rw [hown]
        simp
      · rw [mustCancel_cancelTask_of_ne htu]
        simp [htu]

/-- A running task that it cancels is owed the cancellation. -/
theorem mustCancel_close {last : Option (Call × Outcome (Option Message) Exc)}
    (hl : w.task t = .running last) :
    w.close.mustCancel t
      = (w.mustCancel t || (!w.dc.closeRequested && decide (t ∈ w.dc.tasks))) := by
  unfold close
  cases w.dc.closeRequested with
  | true => simp
  | false =>
      have howed := mustCancel_cancelTasks (w := { w with
        dc := w.dc.requestClose, hist := w.hist ++ [.closeCalled] }) w.dc.tasks hl
      exact howed

-- ======================================================= what settles it

/-- An outcome of the slot per its history, once the slot's own closing
was logged. -/
theorem slotOutcome_closed_done {hist : List DcObs} (h : DcObs.closed ∈ hist)
    (s : SlotName) : (slotOutcome s hist).done = true := by
  unfold slotOutcome
  cases hf : hist.findSome? (DcObs.settles s) with
  | some o => rfl
  | none =>
      have hnone := List.findSome?_eq_none_iff.mp hf _ h
      cases s <;> cases hnone

/-- The slot keeps to the history through a step that neither settles
nor logs anything about it. -/
theorem slot_keeps {o : Option DcObs} (hP : w.slot s = slotOutcome s w.hist)
    (hslot : w'.slot s = w.slot s) (hhist : w'.hist = w.hist ++ o.toList)
    (ho : ∀ x ∈ o, DcObs.settles s x = none) : w'.slot s = slotOutcome s w'.hist := by
  rw [hslot, hhist, hP]
  cases o with
  | none => rw [Option.toList_none, List.append_nil]
  | some x => exact (slotOutcome_append_none (ho x rfl)).symm

/-- A callback does to each slot what its event says. -/
theorem slot_runCallback (hP : w.slot s = slotOutcome s w.hist) (e : DcEvent) :
    (runCallback e w).slot s = slotOutcome s (runCallback e w).hist := by
  have hsettle : ∀ {o : DcObs} {x}, o.settles s = some x →
      (runCallback e w).hist = w.hist ++ [o] →
      (runCallback e w).slot s = (w.slot s).settle x →
      (runCallback e w).slot s = slotOutcome s (runCallback e w).hist := by
    intro o x ho hh hs
    rw [hs, hh, slotOutcome_append_some ho, hP]
  have hfail : ∀ {exc : Exc},
      (if w.dc.openSlot.future.done then w.dc.openSlot else w.dc.openSlot.fail exc).future
        = w.dc.openSlot.future.settle (.raised exc) := by
    intro exc
    split
    next hd => exact (Future.settle_of_done hd).symm
    next => rfl
  cases e with
  | opened =>
      cases s with
      | opened => exact hsettle rfl rfl rfl
      | closed => exact slot_keeps (o := some .opened) hP rfl rfl (by simp [DcObs.settles])
  | closed =>
      cases s with
      | opened => exact hsettle (o := .closed) rfl rfl hfail
      | closed => exact hsettle (o := .closed) rfl rfl rfl
  | error m =>
      cases s with
      | opened => exact hsettle (o := .errored m) rfl rfl hfail
      | closed =>
          exact slot_keeps (o := some (.errored m)) hP rfl rfl (by simp [DcObs.settles])
  | bufferedLow =>
      refine slot_keeps (o := none) hP ?_ (List.append_nil _).symm nofun
      cases s <;> rfl
  | message m =>
      have hslot : (runCallback (.message m) w).slot s = w.slot s := by
        cases s <;> rfl
      have hdropped : slotOutcome s (w.hist
          ++ (if w.dc.recvQueue.full then
                (w.dc.recvQueue.items.take 1).map DcObs.dropped else []))
          = slotOutcome s w.hist := by
        split
        · cases w.dc.recvQueue.items with
          | nil => rw [List.take_nil, List.map_nil, List.append_nil]
          | cons x xs => exact slotOutcome_append_none (by cases s <;> rfl)
        · rw [List.append_nil]
      rw [hslot, hP]
      show _ = slotOutcome s (_ ++ [DcObs.dispatched m])
      rw [slotOutcome_append_none (by cases s <;> rfl), hdropped]

/-- The destroy settles the slots as a closing. -/
theorem slot_destroy (hP : w.slot s = slotOutcome s w.hist) :
    w.destroy.slot s = slotOutcome s w.destroy.hist := by
  unfold destroy
  split
  · exact hP
  next hd =>
    have hcallback := slot_runCallback hP .closed
    have hslot : ∀ v : DcWorld, v.dc = (w.dc.destroy w.core).2 →
        v.slot s = (runCallback .closed w).slot s := by
      intro v hv
      have heq : (w.dc.destroy w.core).2
          = ({ w.dc with
              destroyed := true
              native := (w.dc.native.destroy w.core).2 } : DataChannel).handleClosed := by
        rw [DataChannel.destroy, if_neg hd]
      cases s with
      | opened =>
          show v.dc.openSlot.future = _
          rw [hv, heq]
          rfl
      | closed =>
          show v.dc.closedSlot.future = _
          rw [hv, heq]
          rfl
    exact (hslot _ rfl).trans hcallback

/-- `_teardown` settles nothing that `_destroy` had not. -/
theorem slot_teardownEnd (hlog : ClosedLogged w)
    (hP : ∀ s, w.slot s = slotOutcome s w.hist) :
    w.teardownEnd.slot s = slotOutcome s w.teardownEnd.hist := by
  have hlogged : DcObs.closed ∈ w.destroy.hist := by
    rw [hist_destroy]
    split
    next hd => exact hlog hd
    next => exact List.mem_append_right _ (List.mem_singleton_self _)
  have hdone : w.destroy.dc.closedSlot.future.done = true := by
    show (w.destroy.slot .closed).done = true
    rw [slot_destroy (hP .closed)]
    exact slotOutcome_closed_done hlogged .closed
  have hslot : w.teardownEnd.slot s = w.destroy.slot s := by
    cases s with
    | opened => rfl
    | closed =>
        show (if w.destroy.dc.closedSlot.future.done then w.destroy.dc.closedSlot
          else w.destroy.dc.closedSlot.set ()).future = _
        rw [if_pos hdone]
        rfl
  exact hslot.trans (slot_destroy (hP s))

/-- A reader that has its item settles no slot. -/
theorem slot_received (s : SlotName) (t : TaskId) (item : Item) (w : DcWorld) :
    (w.received t item).slot s = w.slot s := by
  cases item with
  | data m => cases s <;> rfl
  | closedSentinel =>
      simp only [received]
      split
      · cases s <;> rfl
      · rw [slot_suspend, show TaskState.reinjecting.awaits s = false by cases s <;> rfl,
          Bool.and_false]
        rfl

/-- `recv()` settles no slot. -/
theorem slot_recv (s : SlotName) (t : TaskId) (w : DcWorld) :
    (w.recv t).slot s = w.slot s := by
  unfold recv
  cases w.dc.recvQueue.getNowait with
  | some p =>
      refine (slot_received s t p.1 _).trans ?_
      cases s <;> rfl
  | none =>
      have hslot := slot_suspend s t .inGet { w with
        dc := { w.dc with recvQueue := w.dc.recvQueue.park t } }
      rw [show TaskState.inGet.awaits s = false by cases s <;> rfl,
        Bool.and_false] at hslot
      refine hslot.trans ?_
      cases s <;> rfl

/-- A sender past its checks settles no slot. -/
theorem slot_enterSend (payload : Payload) (w : DcWorld) :
    (w.enterSend t payload).slot s = w.slot s := by
  cases payload <;> cases s <;> rfl

/-- `send()` settles no slot. -/
theorem slot_send (payload : Payload) (wait : Bool) (w : DcWorld) :
    (w.send t payload wait).slot s = w.slot s := by
  unfold send
  split
  · cases s <;> rfl
  · split
    · have hslot := slot_suspend s t (.inWait payload) { w with
        dc := { w.dc with bufferedLowEvent := w.dc.bufferedLowEvent.park t } }
      rw [show (TaskState.inWait payload).awaits s = false by cases s <;> rfl,
        Bool.and_false] at hslot
      refine hslot.trans ?_
      cases s <;> rfl
    · exact slot_enterSend payload w

/-- A wait that ends has its slot settled already. -/
theorem slot_endWait (call : Call) (o : Outcome (Option Message) Exc) (w : DcWorld) :
    (w.endWait t call o).slot s = w.slot s := by
  unfold endWait
  split <;> cases s <;> rfl

/-- A resumed task settles no slot. -/
theorem slot_resume (h : w.resume t = some w') : w'.slot s = w.slot s := by
  cases resume_cases h with
  | openSettled o ht hs => exact slot_endWait _ _ w
  | closedSettled call o ht hs => exact slot_endWait _ _ w
  | getTakes item rest ht hm hw hi =>
      refine (slot_received s t item _).trans ?_
      cases s <;> rfl
  | sendEnters payload ht hm hw hr =>
      refine (slot_enterSend payload _).trans ?_
      cases s <;> rfl
  | _ => cases s <;> rfl

/-- The end of `send()` settles none either. -/
theorem applySending_slot {a : DcSending} (h : applySending a w = some w') :
    w'.slot s = w.slot s := by
  obtain ⟨native, event, position, task, -, rfl⟩ := applySending_eq h
  cases s <;> rfl

-- ========================================================= the step rule

/-- The step carries a cancellation to the slot. -/
def Reaches (s : SlotName) : DcAction → DcWorld → Bool
  | .loop (.cancel t), w => (w.task t).awaits s
  | .loop .close, w =>
      !w.dc.closeRequested && w.dc.tasks.any (fun u => (w.task u).awaits s)
  | .loop (.aclose t), w =>
      (!w.dc.closeRequested && w.dc.tasks.any (fun u => (w.task u).awaits s))
        || ((w.mustCancel t || (!w.dc.closeRequested && decide (t ∈ w.dc.tasks)))
          && (TaskState.awaitingClosed .aclose).awaits s)
  | .loop (.waitOpen t), w => w.mustCancel t && TaskState.awaitingOpen.awaits s
  | .loop (.waitClosed t), w =>
      w.mustCancel t && (TaskState.awaitingClosed .waitClosed).awaits s
  | _, _ => false

/-- Two cancellations that may reach one future are one. -/
theorem cancel_or (b b' : Bool) (f : Future Unit Exc) :
    (if b' then (if b then f.cancel else f).cancel else if b then f.cancel else f)
      = if b || b' then f.cancel else f := by
  have htwice : f.cancel.cancel = f.cancel :=
    Future.cancel_eq_self_iff.mpr Future.done_cancel
  cases b <;> cases b' <;> simp [htwice]

/-- `close()` settles no slot. -/
theorem slotOutcome_close (s : SlotName) (w : DcWorld) :
    slotOutcome s w.close.hist = slotOutcome s w.hist := by
  rcases hist_close w with hh | hh
  · rw [hh]
  · rw [hh]
    exact slotOutcome_append_none (by cases s <;> rfl)

/-- After a step a slot holds what the history says, unless the step
carried a cancellation to it. -/
theorem slot_apply {a : DcAction} (hlog : ClosedLogged w)
    (hP : ∀ s, w.slot s = slotOutcome s w.hist) (h : apply a w = some w') :
    w'.slot s
      = if Reaches s a w then (slotOutcome s w'.hist).cancel
        else slotOutcome s w'.hist := by
  have hquiet : ∀ {o : Option DcObs}, Reaches s a w = false → w'.slot s = w.slot s →
      w'.hist = w.hist ++ o.toList → (∀ x ∈ o, DcObs.settles s x = none) →
      w'.slot s = if Reaches s a w then (slotOutcome s w'.hist).cancel
        else slotOutcome s w'.hist := by
    intro o hr hslot hhist ho
    rw [hr]
    exact slot_keeps (hP s) hslot hhist ho
  have hsilent : Reaches s a w = false → w'.slot s = w.slot s → w'.hist = w.hist →
      w'.slot s = if Reaches s a w then (slotOutcome s w'.hist).cancel
        else slotOutcome s w'.hist := by
    intro hr hslot hhist
    exact hquiet (o := none) hr hslot (by rw [hhist, Option.toList_none, List.append_nil])
      nofun
  cases a with
  | native a =>
      refine hsilent rfl ?_ (hist_applyNative h)
      have hdc := (applyNative_link h).2
      cases s with
      | opened => exact congrArg (fun d => d.openSlot.future) hdc
      | closed => exact congrArg (fun d => d.closedSlot.future) hdc
  | sending a =>
      exact hsilent rfl (applySending_slot h) (hist_applySending h)
  | loop a =>
      obtain ⟨-, hloop⟩ := apply_loop_cases h
      cases a with
      | dispatch =>
          obtain ⟨e, rest, -, rfl⟩ := dispatch_cases hloop
          have hrest : ({ w with ready := rest } : DcWorld).slot s
              = slotOutcome s ({ w with ready := rest } : DcWorld).hist := by
            rw [← hP s]
            cases s <;> rfl
          exact slot_runCallback hrest e
      | destroy =>
          cases hloop
          exact slot_destroy (hP s)
      | startTeardown =>
          obtain ⟨-, ⟨-, rfl⟩ | ⟨-, rfl⟩⟩ := startTeardown_cases hloop
          · exact slot_teardownEnd hlog hP
          · exact hsilent rfl (by cases s <;> rfl) rfl
      | resumeTeardown =>
          obtain ⟨rfl, -⟩ := resumeTeardown_cases hloop
          exact slot_teardownEnd hlog hP
      | setThreshold n =>
          cases hloop
          refine hsilent rfl ?_ (hist_setThreshold n w)
          unfold setThreshold
          split <;> cases s <;> rfl
      | spawnTask t =>
          obtain ⟨-, -, ⟨-, rfl⟩ | ⟨-, rfl⟩⟩ := spawnTask_cases hloop
          · exact hsilent rfl rfl rfl
          · exact hsilent rfl (by cases s <;> rfl) rfl
      | finish t =>
          obtain ⟨-, rfl⟩ := finish_cases hloop
          exact hsilent rfl (by cases s <;> rfl) rfl
      | discard t =>
          obtain ⟨-, rfl⟩ := discard_cases hloop
          exact hsilent rfl (by cases s <;> rfl) rfl
      | recv t =>
          obtain ⟨rfl, -⟩ := started_eq hloop
          rcases hist_recv t w with hh | ⟨item, hh⟩
          · exact hsilent rfl (slot_recv s t w) hh
          · refine hquiet (o := some (.took t item)) rfl (slot_recv s t w) hh ?_
            intro x hx
            cases hx
            cases s <;> rfl
      | send t payload wait =>
          obtain ⟨rfl, -⟩ := started_eq hloop
          exact hsilent rfl (slot_send payload wait w) (hist_send payload wait w)
      | resume t =>
          rcases hist_resume hloop with hh | ⟨item, hh⟩
          · exact hsilent rfl (slot_resume hloop) hh
          · refine hquiet (o := some (.took t item)) rfl (slot_resume hloop) hh ?_
            intro x hx
            cases hx
            cases s <;> rfl
      | absorb t =>
          obtain ⟨rfl, -⟩ := started_eq hloop
          exact hsilent rfl (by cases s <;> rfl) rfl
      | cancel t =>
          cases hloop
          have hh : (w.cancelTask t).hist = w.hist :=
            congrArg Frame.hist (frame_cancelTask t w)
          rw [slot_cancelTask, hP s, hh]
          rfl
      | waitOpen t =>
          obtain ⟨rfl, -⟩ := started_eq hloop
          have hh : (w.waitOpen t).hist = w.hist :=
            congrArg Frame.hist (frame_waitOpen t w)
          rw [slot_waitOpen, hP s, hh]
          rfl
      | waitClosed t =>
          obtain ⟨rfl, -⟩ := started_eq hloop
          have hh : (w.awaitClosed .waitClosed t).hist = w.hist :=
            congrArg Frame.hist (frame_awaitClosed t w _)
          rw [slot_awaitClosed, hP s, hh]
          rfl
      | close =>
          cases hloop
          rw [slot_close, hP s, slotOutcome_close]
          rfl
      | aclose t =>
          obtain ⟨rfl, last, hl⟩ := started_eq hloop
          have hframe : (w.aclose t).hist = w.close.hist :=
            congrArg Frame.hist (frame_awaitClosed t w.close .aclose)
          have hh : slotOutcome s (w.aclose t).hist = slotOutcome s w.hist := by
            rw [hframe]
            exact slotOutcome_close s w
          show (w.close.awaitClosed .aclose t).slot s = _
          rw [slot_awaitClosed, slot_close, mustCancel_close hl, hP s, hh]
          exact cancel_or _ _ _

/-- A slot keeps to its history exactly under the steps that carry a
cancellation to it only once it is done. -/
theorem slot_step_iff {a : DcAction} (hlog : ClosedLogged w)
    (hP : ∀ s, w.slot s = slotOutcome s w.hist) (h : apply a w = some w') :
    w'.slot s = slotOutcome s w'.hist
      ↔ (Reaches s a w = true → (slotOutcome s w'.hist).done = true) := by
  rw [slot_apply hlog hP h]
  cases Reaches s a w with
  | false => simp
  | true =>
      rw [if_pos rfl, Future.cancel_eq_self_iff]
      exact ⟨fun hd _ => hd, fun hd => hd rfl⟩

end DcWorld

end AioLibDataChannel
