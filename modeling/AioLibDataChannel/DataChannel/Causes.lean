/-
What the calls of a channel raise, and why.

A caller sees an exception and nothing of what led to it. `Cause` lists
the steps at which a call raises, each with what it raises and what had
to have happened: `wait_open()` raises what came first of an error and a
closing, `recv()` the last error's text once a closing is recorded,
`send()` one of its own four texts or what the native send raised.
`wait_closed()` and `aclose()` are not in the list.

The exceptions are read off the history, not off the wrapper, so the
list rests on four facts that every step keeps (`CauseInv`): the open
slot keeps to its history unless a cancellation reached it, the closed
slot is never settled with an exception, `_last_error` is the text of
the last error dispatched, and a sentinel is in the queue only after a
closing.

`raised_exact` is both directions over a run: an exception in a task's
hands was raised, with its cause, by the last step the task took in a
call, and every step with a cause raises.
-/
import AioLibDataChannel.DataChannel.Barrier
import AioLibDataChannel.DataChannel.Delivery
import AioLibDataChannel.DataChannel.Isolation

namespace AioLibDataChannel

open Asyncio (Event Future Outcome Queue)
open Function (update)
open Transition (exec Last)

-- ============================================================ vocabulary

/-- The task whose call starts or goes on in this step. -/
def DcAction.caller? : DcAction → DcWorld → Option TaskId
  | .sending _, w => w.position.owner
  | .loop (.waitOpen t), _ => some t
  | .loop (.waitClosed t), _ => some t
  | .loop (.aclose t), _ => some t
  | .loop (.recv t), _ => some t
  | .loop (.send t _ _), _ => some t
  | .loop (.resume t), _ => some t
  | _, _ => none

/-- The text of an error that was dispatched. -/
def DcObs.errorText? : DcObs → Option String
  | .errored message => some message
  | _ => none

/-- The channel was closed, by whichever side, or found closed. -/
def DcObs.closes : DcObs → Bool
  | .closed => true
  | .closeCalled => true
  | .closedAtBirth => true
  | _ => false

/-- The text of the last error of a history. -/
def lastErrorText (hist : List DcObs) : Option String :=
  (hist.filterMap DcObs.errorText?).getLast?

/-- What a reader is told after this history: the last error, unless it
said nothing. -/
def closingText (hist : List DcObs) : String :=
  ((lastErrorText hist).filter (· ≠ "")).getD "channel closed"

/-- What is no error leaves the last one the last. -/
theorem lastErrorText_append {hist seg : List DcObs} (h : ∀ o ∈ seg, o.errorText? = none) :
    lastErrorText (hist ++ seg) = lastErrorText hist := by
  have hnil : seg.filterMap DcObs.errorText? = [] := List.filterMap_eq_nil_iff.mpr h
  unfold lastErrorText
  rw [List.filterMap_append, hnil, List.append_nil]

/-- An error that comes is the last one. -/
theorem lastErrorText_errored (hist : List DcObs) (message : String) :
    lastErrorText (hist ++ [.errored message]) = some message := by
  unfold lastErrorText
  rw [List.filterMap_append]
  exact List.getLast?_concat

/-- Events that say nothing about a slot leave it as it should be. -/
theorem slotOutcome_append_all {s : SlotName} {hist seg : List DcObs}
    (h : ∀ o ∈ seg, DcObs.settles s o = none) :
    slotOutcome s (hist ++ seg) = slotOutcome s hist := by
  induction seg using List.reverseRecOn with
  | nil => rw [List.append_nil]
  | append_singleton seg o ih =>
      rw [← List.append_assoc, slotOutcome_append_none (h o (by simp))]
      exact ih fun x hx => h x (List.mem_append_left _ hx)

namespace DcWorld

variable {w w' : DcWorld} {t u : TaskId} {a : DcAction} {call : Call} {e : Exc}

/-- A call gets to the code behind its wait: right away, or once its
task is resumed without a cancellation. -/
def GetsTo (start : DcLoop) (waiting : TaskState) (t : TaskId) (a : DcAction)
    (w : DcWorld) : Prop :=
  a = .loop start ∨
    (a = .loop (.resume t) ∧ w.task t = waiting ∧ w.mustCancel t = false)

/-- The steps at which a call of `t` raises, with what it raises. -/
inductive Cause (t : TaskId) (w : DcWorld) : DcAction → Call → Exc → Prop
  /-- An error or a closing came before the opening. -/
  | neverOpened {a : DcAction} {e : Exc}
      (ha : GetsTo (.waitOpen t) .awaitingOpen t a w)
      (hs : w.slot .opened ≠ .settled .cancelled)
      (he : slotOutcome .opened w.hist = .settled (.raised e)) :
      Cause t w a .waitOpen e
  /-- A closing's sentinel is next in the queue. -/
  | closed {a : DcAction} (ha : GetsTo (.recv t) .inGet t a w)
      (hi : w.dc.recvQueue.items.head? = some .closedSentinel)
      (hc : ∃ o ∈ w.hist, o.closes = true) :
      Cause t w a .recv (.connectionClosedError (closingText w.hist))
  | refused {payload : Payload} {wait : Bool} (hr : w.sendRefused = true) :
      Cause t w (.loop (.send t payload wait)) .send
        (.connectionClosedError "cannot send on a closed channel")
  | refusedParked {payload : Payload} (ht : w.task t = .inWait payload)
      (hm : w.mustCancel t = false) (hr : w.sendRefused = true) :
      Cause t w (.loop (.resume t)) .send
        (.connectionClosedError "channel closed while waiting to send")
  | wrongType {name : String} {wait : Bool} (hr : w.sendRefused = false)
      (hw : (wait && !w.dc.bufferedLowEvent.value) = false) :
      Cause t w (.loop (.send t (.other name) wait)) .send
        (.typeError ("send() expected bytes or str, got " ++ name))
  | wrongTypeParked {name : String} (ht : w.task t = .inWait (.other name))
      (hm : w.mustCancel t = false) (hr : w.sendRefused = false) :
      Cause t w (.loop (.resume t)) .send
        (.typeError ("send() expected bytes or str, got " ++ name))
  /-- The native send raised. -/
  | native {payload : Payload} {e : Exc} (hp : w.position = .calling t payload) :
      Cause t w (.sending (.nativeSend (.error e))) .send e

/-- A step at which a call of `t` raises is a step of that call. -/
theorem Cause.caller (h : Cause t w a call e) : a.caller? w = some t := by
  cases h with
  | neverOpened ha _ _ => rcases ha with rfl | ⟨rfl, -⟩ <;> rfl
  | closed ha _ _ => rcases ha with rfl | ⟨rfl, -⟩ <;> rfl
  | native hp =>
      rw [DcAction.caller?, hp]
      rfl
  | _ => rfl

-- ============================================== what the wrapper goes by

/-- The open slot keeps to its history, unless a cancellation reached
it. -/
def OpenKept (w : DcWorld) : Prop :=
  w.slot .opened = slotOutcome .opened w.hist ∨ w.slot .opened = .settled .cancelled

/-- What the exceptions are read off keeps to the history. -/
structure CauseInv (w : DcWorld) : Prop where
  loop : LoopInv w
  error : w.dc.lastError = lastErrorText w.hist
  sentinel : Item.closedSentinel ∈ w.dc.recvQueue.items → ∃ o ∈ w.hist, o.closes = true
  opened : OpenKept w
  closed : ∀ e, w.slot .closed ≠ .settled (.raised e)

/-- A step that dispatches no error and settles no open slot. -/
structure Untold (w w' : DcWorld) : Prop where
  hist : ∃ seg, w'.hist = w.hist ++ seg
    ∧ ∀ o ∈ seg, o.errorText? = none ∧ o.settles .opened = none
  error : w'.dc.lastError = w.dc.lastError
  opened : w'.slot .opened = w.slot .opened ∨ w'.slot .opened = (w.slot .opened).cancel

/-- A step that logs nothing and at most cancels the open slot. -/
theorem Untold.of_hist (hh : w'.hist = w.hist) (he : w'.dc.lastError = w.dc.lastError)
    (hs : w'.slot .opened = w.slot .opened ∨ w'.slot .opened = (w.slot .opened).cancel) :
    Untold w w' where
  hist := ⟨[], by rw [hh, List.append_nil], nofun⟩
  error := he
  opened := hs

/-- A step that logs one thing that is neither an error nor an opening. -/
theorem Untold.of_log {o : DcObs} (hh : w'.hist = w.hist ++ [o])
    (ho : o.errorText? = none ∧ o.settles .opened = none)
    (he : w'.dc.lastError = w.dc.lastError)
    (hs : w'.slot .opened = w.slot .opened ∨ w'.slot .opened = (w.slot .opened).cancel) :
    Untold w w' where
  hist := by
    refine ⟨[o], hh, fun x hx => ?_⟩
    rw [List.mem_singleton.mp hx]
    exact ho
  error := he
  opened := hs

/-- A future that a cancellation may have reached. -/
theorem cancelled_or (b : Bool) (f : Future Unit Exc) :
    (if b then f.cancel else f) = f ∨ (if b then f.cancel else f) = f.cancel := by
  cases b with
  | false => exact Or.inl rfl
  | true => exact Or.inr rfl

/-- `close()` keeps the last error. -/
theorem lastError_close (w : DcWorld) : w.close.dc.lastError = w.dc.lastError := by
  unfold close
  split
  · rfl
  · have hframe := frame_cancelTasks
      { w with dc := w.dc.requestClose, hist := w.hist ++ [.closeCalled] } w.dc.tasks
    have hlast := congrArg Frame.lastError hframe
    exact hlast

/-- `close()` reports no error and opens nothing. -/
theorem untold_close (w : DcWorld) : Untold w w.close := by
  have hs : w.close.slot .opened = w.slot .opened
      ∨ w.close.slot .opened = (w.slot .opened).cancel := by
    rw [slot_close]
    exact cancelled_or _ _
  rcases hist_close w with hh | hh
  · exact .of_hist hh (lastError_close w) hs
  · exact .of_log hh ⟨rfl, rfl⟩ (lastError_close w) hs

/-- `_destroy` keeps the last error, too. -/
theorem lastError_destroy (w : DcWorld) : w.destroy.dc.lastError = w.dc.lastError := by
  unfold destroy
  split
  next => rfl
  next hd =>
    show ((w.dc.destroy w.core).2).lastError = _
    rw [DataChannel.destroy, if_neg hd]
    rfl

/-- A loop step says nothing, runs a callback, or runs `_destroy`. -/
theorem applyLoop_told_cases {a : DcLoop} (h : applyLoop a w = some w') :
    Untold w w'
    ∨ (∃ ev rest, w.ready = ev :: rest ∧ w' = runCallback ev { w with ready := rest })
    ∨ (w'.hist = w.destroy.hist ∧ w'.dc.lastError = w.dc.lastError
        ∧ w'.slot .opened = w.destroy.slot .opened) := by
  have hframe : ∀ {v : DcWorld}, v.frame = w.frame →
      v.slot .opened = w.slot .opened ∨ v.slot .opened = (w.slot .opened).cancel →
      Untold w v := fun hf hs =>
    .of_hist (congrArg Frame.hist hf) (congrArg Frame.lastError hf) hs
  cases a with
  | dispatch => exact Or.inr (Or.inl (dispatch_cases h))
  | close =>
      cases h
      exact Or.inl (untold_close w)
  | destroy =>
      cases h
      exact Or.inr (Or.inr ⟨rfl, lastError_destroy w, rfl⟩)
  | startTeardown =>
      obtain ⟨-, ⟨-, rfl⟩ | ⟨-, rfl⟩⟩ := startTeardown_cases h
      · exact Or.inr (Or.inr ⟨rfl, lastError_destroy w, rfl⟩)
      · exact Or.inl (.of_hist rfl rfl (Or.inl rfl))
  | resumeTeardown =>
      obtain ⟨rfl, -⟩ := resumeTeardown_cases h
      exact Or.inr (Or.inr ⟨rfl, lastError_destroy w, rfl⟩)
  | setThreshold n =>
      cases h
      left
      show Untold w (w.setThreshold n)
      unfold setThreshold
      split <;> exact .of_hist rfl rfl (Or.inl rfl)
  | spawnTask t =>
      obtain ⟨-, -, ⟨-, rfl⟩ | ⟨-, rfl⟩⟩ := spawnTask_cases h <;>
        exact Or.inl (.of_hist rfl rfl (Or.inl rfl))
  | finish t =>
      obtain ⟨-, rfl⟩ := finish_cases h
      exact Or.inl (.of_hist rfl rfl (Or.inl rfl))
  | discard t =>
      obtain ⟨-, rfl⟩ := discard_cases h
      exact Or.inl (.of_hist rfl rfl (Or.inl rfl))
  | waitOpen t =>
      obtain ⟨rfl, -⟩ := started_eq h
      refine Or.inl (hframe (frame_waitOpen t w) ?_)
      rw [slot_waitOpen]
      exact cancelled_or _ _
  | waitClosed t =>
      obtain ⟨rfl, -⟩ := started_eq h
      refine Or.inl (hframe (frame_awaitClosed t w _) ?_)
      rw [slot_awaitClosed]
      exact cancelled_or _ _
  | aclose t =>
      obtain ⟨rfl, -⟩ := started_eq h
      have hclose := untold_close w
      have hf := frame_awaitClosed t w.close .aclose
      have hslot : (w.aclose t).slot .opened = w.close.slot .opened := by
        show (w.close.awaitClosed .aclose t).slot .opened = _
        rw [slot_awaitClosed, show (TaskState.awaitingClosed .aclose).awaits .opened = false
          from rfl, Bool.and_false]
        rfl
      left
      constructor
      · obtain ⟨seg, hh, hseg⟩ := hclose.hist
        exact ⟨seg, (congrArg Frame.hist hf).trans hh, hseg⟩
      · exact (congrArg Frame.lastError hf).trans hclose.error
      · rw [hslot]
        exact hclose.opened
  | recv t =>
      obtain ⟨rfl, -⟩ := started_eq h
      have he := congrArg Steady.lastError (steady_recv t w)
      rcases hist_recv t w with hh | ⟨item, hh⟩
      · exact Or.inl (.of_hist hh he (Or.inl (slot_recv .opened t w)))
      · exact Or.inl (.of_log hh ⟨rfl, rfl⟩ he (Or.inl (slot_recv .opened t w)))
  | send t payload wait =>
      obtain ⟨rfl, -⟩ := started_eq h
      exact Or.inl (.of_hist (hist_send payload wait w)
        (congrArg Steady.lastError (steady_send t w payload wait))
        (Or.inl (slot_send payload wait w)))
  | resume t =>
      have he := congrArg Steady.lastError (steady_resume h)
      rcases hist_resume h with hh | ⟨item, hh⟩
      · exact Or.inl (.of_hist hh he (Or.inl (slot_resume h)))
      · exact Or.inl (.of_log hh ⟨rfl, rfl⟩ he (Or.inl (slot_resume h)))
  | cancel t =>
      cases h
      refine Or.inl (hframe (frame_cancelTask t w) ?_)
      rw [slot_cancelTask]
      exact cancelled_or _ _
  | absorb t =>
      obtain ⟨rfl, -⟩ := started_eq h
      exact Or.inl (.of_hist rfl rfl (Or.inl rfl))

-- =========================================================== the open slot

/-- A step that says nothing keeps the open slot with its history. -/
theorem OpenKept.of_untold (ho : OpenKept w) (hu : Untold w w') : OpenKept w' := by
  obtain ⟨seg, hh, hseg⟩ := hu.hist
  have hsame : slotOutcome .opened w'.hist = slotOutcome .opened w.hist := by
    rw [hh]
    exact slotOutcome_append_all fun o hmem => (hseg o hmem).2
  rcases hu.opened with hs | hs
  · unfold OpenKept
    rw [hs, hsame]
    exact ho
  · -- a cancellation reaches the slot, which is done already or cancelled now
    cases hf : w.slot .opened with
    | pending =>
        right
        rw [hs, hf]
        rfl
    | settled o =>
        unfold OpenKept
        rw [hs, hsame, hf]
        rw [OpenKept, hf] at ho
        exact ho

/-- A callback settles nothing that a cancellation settled. -/
theorem cancelled_runCallback (hs : w.slot .opened = .settled .cancelled) (ev : DcEvent) :
    (runCallback ev w).slot .opened = .settled .cancelled := by
  have hf : w.dc.openSlot.future = .settled .cancelled := hs
  have hdone : w.dc.openSlot.future.done = true := by
    rw [hf]
    rfl
  cases ev with
  | opened =>
      show w.dc.openSlot.future.settle _ = _
      rw [hf]
      rfl
  | closed =>
      show (if w.dc.openSlot.future.done then w.dc.openSlot
        else w.dc.openSlot.fail _).future = _
      rw [if_pos hdone]
      exact hf
  | error m =>
      show (if w.dc.openSlot.future.done then w.dc.openSlot
        else w.dc.openSlot.fail _).future = _
      rw [if_pos hdone]
      exact hf
  | message m => exact hs
  | bufferedLow => exact hs

/-- A callback settles the open slot as its event says. -/
theorem openKept_runCallback (ho : OpenKept w) (ev : DcEvent) :
    OpenKept (runCallback ev w) :=
  ho.imp (fun hs => slot_runCallback hs ev) fun hs => cancelled_runCallback hs ev

/-- The destroy settles it as a closing does. -/
theorem openKept_destroy (ho : OpenKept w) : OpenKept w.destroy := by
  refine ho.imp slot_destroy fun hs => ?_
  unfold destroy
  split
  next => exact hs
  next hd =>
    have hcallback := cancelled_runCallback hs .closed
    show ((w.dc.destroy w.core).2).openSlot.future = _
    rw [DataChannel.destroy, if_neg hd]
    exact hcallback

/-- Every step keeps the open slot with its history, unless it cancels
it. -/
theorem openKept_apply (ho : OpenKept w) (h : apply a w = some w') : OpenKept w' := by
  cases a with
  | native a =>
      have hdc := (applyNative_link h).2
      exact ho.of_untold (.of_hist (hist_applyNative h) (congrArg _ hdc)
        (Or.inl (congrArg (fun d => d.openSlot.future) hdc)))
  | sending a =>
      have hs := applySending_slot (s := .opened) h
      unfold OpenKept
      rw [hs, hist_applySending h]
      exact ho
  | loop a =>
      obtain ⟨-, hloop⟩ := apply_loop_cases h
      rcases applyLoop_told_cases hloop with hu | ⟨ev, rest, -, rfl⟩ | ⟨hh, -, hs⟩
      · exact ho.of_untold hu
      · exact openKept_runCallback (w := { w with ready := rest }) ho ev
      · unfold OpenKept
        rw [hs, hh]
        exact openKept_destroy ho

-- ====================================================== the last error

/-- `_handle_error` records the text of the error it is given, and no
other callback does. -/
theorem errorText_runCallback (he : w.dc.lastError = lastErrorText w.hist) (ev : DcEvent) :
    (runCallback ev w).dc.lastError = lastErrorText (runCallback ev w).hist := by
  cases ev with
  | opened => exact he.trans (lastErrorText_append (by simp [DcObs.errorText?])).symm
  | closed => exact he.trans (lastErrorText_append (by simp [DcObs.errorText?])).symm
  | error m => exact (lastErrorText_errored w.hist m).symm
  | bufferedLow => exact he
  | message m =>
      refine he.trans ?_
      show _ = lastErrorText (w.hist ++ _ ++ [DcObs.dispatched m])
      rw [List.append_assoc, lastErrorText_append]
      intro o ho
      rcases List.mem_append.mp ho with hdrop | hlast
      · split at hdrop
        · obtain ⟨item, -, rfl⟩ := List.mem_map.mp hdrop
          rfl
        · cases hdrop
      · rw [List.mem_singleton.mp hlast]
        rfl

/-- The destroy reports no error. -/
theorem errorText_destroy (he : w.dc.lastError = lastErrorText w.hist) :
    w.dc.lastError = lastErrorText w.destroy.hist := by
  rw [hist_destroy]
  split
  · exact he
  · rw [lastErrorText_append (by simp [DcObs.errorText?])]
    exact he

/-- `_last_error` keeps to the history over every step. -/
theorem errorText_apply (he : w.dc.lastError = lastErrorText w.hist)
    (h : apply a w = some w') : w'.dc.lastError = lastErrorText w'.hist := by
  cases a with
  | native a => rw [hist_applyNative h, (applyNative_link h).2]; exact he
  | sending a =>
      obtain ⟨native, event, position, task, -, rfl⟩ := applySending_eq h
      exact he
  | loop a =>
      obtain ⟨-, hloop⟩ := apply_loop_cases h
      rcases applyLoop_told_cases hloop with hu | ⟨ev, rest, -, rfl⟩ | ⟨hh, hl, -⟩
      · obtain ⟨seg, hh, hseg⟩ := hu.hist
        rw [hu.error, he, hh, lastErrorText_append fun o ho => (hseg o ho).1]
      · exact errorText_runCallback (w := { w with ready := rest }) he ev
      · rw [hl, hh]
        exact errorText_destroy he

/-- What a reader is told is in the history. -/
theorem closedText_eq (he : w.dc.lastError = lastErrorText w.hist) :
    w.dc.closedText = closingText w.hist := by
  unfold DataChannel.closedText closingText
  rw [he]
  cases lastErrorText w.hist with
  | none => rfl
  | some text =>
      by_cases htext : text = ""
      · subst htext
        rfl
      · simp [Option.filter, htext]

-- ========================================================= the sentinel

/-- A sentinel comes into the queue with a closing. -/
theorem sentinel_apply (hn : NoReinjecting w)
    (hs : Item.closedSentinel ∈ w.dc.recvQueue.items → ∃ o ∈ w.hist, o.closes = true)
    (h : apply a w = some w') :
    Item.closedSentinel ∈ w'.dc.recvQueue.items → ∃ o ∈ w'.hist, o.closes = true := by
  have hkeep : (∃ o ∈ w.hist, o.closes = true) → ∃ o ∈ w'.hist, o.closes = true :=
    fun ⟨o, ho, hc⟩ => ⟨o, (hist_apply h).subset ho, hc⟩
  intro hmem
  rw [← none_mem_entries_iff, ← mailbox_entries] at hmem
  have hold : none ∈ w.mailbox.entries → ∃ o ∈ w'.hist, o.closes = true := by
    rw [mailbox_entries, none_mem_entries_iff]
    exact fun hin => hkeep (hs hin)
  obtain ⟨-, heq⟩ | ⟨b, hb, hstep⟩ := mailbox_cases hn h
  · rw [heq] at hmem
    exact hold hmem
  · rcases Mailbox.marker_step hstep hmem with hin | rfl
    · exact hold hin
    · have hclosed : w'.hist.any DcObs.isClosing = true := by
        have heq : w.mailbox.closeStep = w'.mailbox := Option.some.inj hstep
        exact (congrArg Mailbox.closed heq).symm
      obtain ⟨o, ho, hc⟩ := List.any_eq_true.mp hclosed
      refine ⟨o, ho, ?_⟩
      cases o with
      | closed => rfl
      | closeCalled => rfl
      | _ => cases hc

-- ======================================================== the closed slot

/-- Nothing settles the closed slot with an exception. -/
theorem closed_apply (hc : ∀ e, w.slot .closed ≠ .settled (.raised e))
    (h : apply a w = some w') : ∀ e, w'.slot .closed ≠ .settled (.raised e) := by
  have hsettle : ∀ {f : Future Unit Exc} {o : Outcome Unit Exc},
      (∀ e, f ≠ .settled (.raised e)) → (∀ e, o ≠ .raised e) →
      ∀ e, f.settle o ≠ .settled (.raised e) := by
    intro f o hf ho e heq
    cases f with
    | pending => exact ho e (Future.settled.inj heq)
    | settled o' => exact hf e heq
  cases a with
  | native a =>
      rw [show w'.slot .closed = w.slot .closed from
        congrArg (fun d => d.closedSlot.future) (applyNative_link h).2]
      exact hc
  | sending a =>
      rw [applySending_slot h]
      exact hc
  | loop a =>
      obtain ⟨-, hloop⟩ := apply_loop_cases h
      have hdestroy : ∀ e, w.destroy.slot .closed ≠ .settled (.raised e) := by
        cases hd : w.dc.destroyed with
        | true =>
            have hself : w.destroy = w := by
              unfold destroy
              rw [if_pos hd]
            rw [hself]
            exact hc
        | false =>
            rw [slot_destroy_closed hd]
            exact hsettle hc fun _ => nofun
      rcases applyLoop_closedSlot_cases hloop with ⟨-, hs | hs⟩ | ⟨-, rest, -, rfl⟩
        | ⟨-, -, rfl⟩ | ⟨rfl, -⟩
      · rw [hs]
        exact hc
      · rw [hs]
        exact hsettle hc fun _ => nofun
      · exact hsettle (f := w.dc.closedSlot.future) hc fun _ => nofun
      · exact hdestroy
      · show ∀ e, (if w.destroy.dc.closedSlot.future.done then w.destroy.dc.closedSlot
          else w.destroy.dc.closedSlot.set ()).future ≠ .settled (.raised e)
        split
        · exact hdestroy
        · exact hsettle (f := w.destroy.dc.closedSlot.future) hdestroy fun _ => nofun

/-- Every step keeps what the exceptions are read off. -/
theorem causeInv_apply (hi : CauseInv w) (h : apply a w = some w') : CauseInv w' where
  loop := loopInv_apply hi.loop h
  error := errorText_apply hi.error h
  sentinel := sentinel_apply hi.loop.reinjecting hi.sentinel h
  opened := openKept_apply hi.opened h
  closed := closed_apply hi.closed h

-- ========================================================= a step raises

/-- A step that moves one task leaves the others' outcomes. -/
theorem raised_update {st : TaskState} (htask : w'.task = update w.task u st)
    (ht : w'.task t = .running (some (call, .raised e))) :
    (t ≠ u ∧ w'.task t = w.task t) ∨ (t = u ∧ st = .running (some (call, .raised e))) := by
  by_cases htu : t = u
  · subst htu
    rw [htask, Function.update_self] at ht
    exact Or.inr ⟨rfl, ht⟩
  · left
    rw [htask, Function.update_of_ne htu]
    exact ⟨htu, rfl⟩

/-- A wait raises what its slot holds. -/
theorem voidOutcome_eq_raised {o : Outcome Unit Exc} (h : voidOutcome o = .raised e) :
    o = .raised e := by
  cases o with
  | returned u => cases h
  | raised e' =>
      cases h
      rfl
  | cancelled => cases h

/-- An open slot that holds an exception holds what the history says. -/
theorem OpenKept.raised (ho : OpenKept w) (hs : w.slot .opened = .settled (.raised e)) :
    w.slot .opened ≠ .settled .cancelled
      ∧ slotOutcome .opened w.hist = .settled (.raised e) := by
  rcases ho with hk | hk
  · refine ⟨by rw [hs]; exact nofun, hk.symm.trans hs⟩
  · cases hs.symm.trans hk

/-- `recv()` raises over a sentinel only, and raises the closing's
text. -/
theorem recvOutcome_raised (hi : CauseInv w) {item : Item}
    (h : w.recvOutcome item = .raised e) :
    item = .closedSentinel ∧ e = .connectionClosedError (closingText w.hist) := by
  cases item with
  | data m => cases h
  | closedSentinel =>
      cases h
      exact ⟨rfl, by rw [closedText_eq hi.error]⟩

/-- `recv()` takes what is there, or waits. -/
theorem recv_task (w : DcWorld) :
    (∃ item rest, w.dc.recvQueue.items = item :: rest ∧ (w.recv t).task
        = update w.task t (.running (some (.recv, w.recvOutcome item))))
    ∨ (w.recv t).task = update w.task t .inGet := by
  unfold recv
  cases hg : w.dc.recvQueue.getNowait with
  | none => exact Or.inr (suspend_task t _ _)
  | some p =>
      obtain ⟨item, q⟩ := p
      left
      obtain ⟨hitems, -⟩ := Queue.getNowait_eq_some hg
      have htask := received_outcome (t := t) (w := { w with
        dc := { w.dc with recvQueue := q }
        hist := w.hist ++ [.took t item] }) item (Queue.full_of_getNowait hg)
      refine ⟨item, q.items, hitems, ?_⟩
      cases item <;> exact htask

/-- What `recv()` raises, it raises over a sentinel. -/
theorem cause_recv {item : Item} {rest : List Item} (hi : CauseInv w)
    (ha : GetsTo (.recv t) .inGet t a w) (hitems : w.dc.recvQueue.items = item :: rest)
    (h : TaskState.running (some (.recv, w.recvOutcome item))
      = .running (some (call, .raised e))) : Cause t w a call e := by
  simp only [TaskState.running.injEq, Option.some.injEq, Prod.mk.injEq] at h
  obtain ⟨rfl, ho⟩ := h
  obtain ⟨rfl, rfl⟩ := recvOutcome_raised hi ho
  refine .closed ha (by rw [hitems]; rfl) (hi.sentinel ?_)
  rw [hitems]
  exact List.mem_cons_self

/-- What `send()` raises past its checks. -/
theorem enterSend_raises {v : DcWorld} {payload : Payload} (hv : v.task = w.task)
    (h : (v.enterSend u payload).task t = .running (some (call, .raised e))) :
    (t ≠ u ∧ (v.enterSend u payload).task t = w.task t)
      ∨ (t = u ∧ call = .send ∧ ∃ name, payload = .other name
        ∧ e = .typeError ("send() expected bytes or str, got " ++ name)) := by
  cases payload with
  | other name =>
      have htask : (v.enterSend u (.other name)).task = update w.task u (.running (some
          (.send, .raised (.typeError ("send() expected bytes or str, got " ++ name))))) := by
        rw [← hv]
        rfl
      rcases raised_update htask h with hsame | ⟨rfl, hst⟩
      · exact Or.inl hsame
      · simp only [TaskState.running.injEq, Option.some.injEq, Prod.mk.injEq,
          Outcome.raised.injEq] at hst
        exact Or.inr ⟨rfl, hst.1.symm, name, rfl, hst.2.symm⟩
  | bytesLike data =>
      have htask : (v.enterSend u (.bytesLike data)).task = update w.task u .sending := by
        rw [← hv]
        rfl
      rcases raised_update htask h with hsame | ⟨-, hst⟩
      · exact Or.inl hsame
      · cases hst
  | str text =>
      have htask : (v.enterSend u (.str text)).task = update w.task u .sending := by
        rw [← hv]
        rfl
      rcases raised_update htask h with hsame | ⟨-, hst⟩
      · exact Or.inl hsame
      · cases hst

/-- What `send()` raises at its start has a cause. -/
theorem cause_send {payload : Payload} {wait : Bool}
    (h : (w.send u payload wait).task t = .running (some (call, .raised e))) :
    (t ≠ u ∧ (w.send u payload wait).task t = w.task t)
      ∨ Cause t w (.loop (.send u payload wait)) call e := by
  unfold send at h ⊢
  split at h
  next hr =>
    rw [if_pos hr]
    rcases raised_update (w := w) rfl h with hsame | ⟨rfl, hst⟩
    · exact Or.inl hsame
    · cases hst
      exact Or.inr (.refused hr)
  next hr =>
    rw [if_neg hr]
    split at h
    next hw =>
      rw [if_pos hw]
      have htask := suspend_task u { w with
        dc := { w.dc with bufferedLowEvent := w.dc.bufferedLowEvent.park u } } (.inWait payload)
      rcases raised_update (w := w) htask h with hsame | ⟨-, hst⟩
      · exact Or.inl hsame
      · cases hst
    next hw =>
      rw [if_neg hw]
      rcases enterSend_raises (w := w) rfl h with hsame | ⟨rfl, rfl, name, rfl, rfl⟩
      · exact Or.inl hsame
      · exact Or.inr (.wrongType (Bool.eq_false_iff.mpr hr) (Bool.eq_false_iff.mpr hw))

/-- Nothing is raised over a closed slot that holds no exception. -/
theorem cause_awaitClosed {v : DcWorld} {c : Call}
    (hc : ∀ e, v.slot .closed ≠ .settled (.raised e)) (hv : v.task = w.task)
    (h : (v.awaitClosed c u).task t = .running (some (call, .raised e))) :
    t ≠ u ∧ (v.awaitClosed c u).task t = w.task t := by
  unfold awaitClosed at h ⊢
  split at h
  next o ho =>
    rcases raised_update (w := v) rfl h with ⟨hne, hsame⟩ | ⟨-, hst⟩
    · exact ⟨hne, hsame.trans (congrFun hv t)⟩
    · simp only [TaskState.running.injEq, Option.some.injEq, Prod.mk.injEq] at hst
      rw [voidOutcome_eq_raised hst.2] at ho
      exact absurd ho (hc e)
  next ho =>
    rcases raised_update (w := v) (suspend_task u v _) h with ⟨hne, hsame⟩ | ⟨-, hst⟩
    · exact ⟨hne, hsame.trans (congrFun hv t)⟩
    · cases hst

/-- A wait that raises was not cancelled. -/
theorem cause_endWait {c : Call} {o : Outcome Unit Exc}
    (h : (w.endWait u c (voidOutcome o)).task t = .running (some (call, .raised e))) :
    (t ≠ u ∧ (w.endWait u c (voidOutcome o)).task t = w.task t)
      ∨ (t = u ∧ call = c ∧ o = .raised e ∧ w.mustCancel t = false) := by
  unfold endWait at h ⊢
  split at h
  next hm =>
    rw [if_pos hm]
    rcases raised_update (w := w) rfl h with hsame | ⟨-, hst⟩
    · exact Or.inl hsame
    · cases hst
  next hm =>
    rw [if_neg hm]
    rcases raised_update (w := w) rfl h with hsame | ⟨rfl, hst⟩
    · exact Or.inl hsame
    · simp only [TaskState.running.injEq, Option.some.injEq, Prod.mk.injEq] at hst
      exact Or.inr ⟨rfl, hst.1.symm, voidOutcome_eq_raised hst.2, Bool.eq_false_iff.mpr hm⟩

/-- What a resumed call raises has a cause. -/
theorem cause_resume (hi : CauseInv w) (h : w.resume u = some w')
    (ht : w'.task t = .running (some (call, .raised e))) :
    (t ≠ u ∧ w'.task t = w.task t) ∨ Cause t w (.loop (.resume u)) call e := by
  cases resume_cases h with
  | openSettled o hst hs =>
      rcases cause_endWait ht with hsame | ⟨rfl, rfl, rfl, hm⟩
      · exact Or.inl hsame
      · obtain ⟨hne, he⟩ := hi.opened.raised hs
        exact Or.inr (.neverOpened (Or.inr ⟨rfl, hst, hm⟩) hne he)
  | closedSettled c o hst hs =>
      rcases cause_endWait ht with hsame | ⟨-, -, rfl, -⟩
      · exact Or.inl hsame
      · exact absurd hs (hi.closed e)
  | getParks hst hm hw hitems =>
      refine Or.inl ⟨?_, rfl⟩
      rintro rfl
      cases hst.symm.trans ht
  | getTakes item rest hst hm hw hitems =>
      have hne : w.dc.recvQueue.items ≠ [] := by
        rw [hitems]
        exact List.cons_ne_nil _ _
      have htask := received_outcome (t := u) (w := { w with
        dc := { w.dc with recvQueue := w.dc.recvQueue.takeWoken u }
        hist := w.hist ++ [.took u item] }) item (Queue.full_takeWoken hw hne)
      rcases raised_update (w := w) htask ht with hsame | ⟨rfl, hst'⟩
      · exact Or.inl hsame
      · exact Or.inr (cause_recv hi (Or.inr ⟨rfl, hst, hm⟩) hitems (by cases item <;> exact hst'))
  | putCancelled hst hm => exact absurd hst (hi.loop.reinjecting u)
  | putRaises q hst hm hq => exact absurd hst (hi.loop.reinjecting u)
  | getCancelled hst hm =>
      rcases raised_update (w := w) (u := u) rfl ht with hsame | ⟨-, hst'⟩
      · exact Or.inl hsame
      · cases hst'
  | sendCancelled payload hst hm =>
      rcases raised_update (w := w) (u := u) rfl ht with hsame | ⟨-, hst'⟩
      · exact Or.inl hsame
      · cases hst'
  | sendRaises payload hst hm hw hr =>
      rcases raised_update (w := w) (u := u) rfl ht with hsame | ⟨rfl, hst'⟩
      · exact Or.inl hsame
      · cases hst'
        exact Or.inr (.refusedParked hst hm hr)
  | sendEnters payload hst hm hw hr =>
      rcases enterSend_raises (w := w) (v := { w with dc := { w.dc with
          bufferedLowEvent := w.dc.bufferedLowEvent.leave u } }) rfl ht with
        hsame | ⟨rfl, rfl, name, rfl, rfl⟩
      · exact Or.inl hsame
      · exact Or.inr (.wrongTypeParked hst hm hr)

/-- A step of another task is not a step of this one. -/
theorem some_ne (h : t ≠ u) : some u ≠ some t := fun heq => h (Option.some.inj heq).symm

/-- A task that holds an outcome is not the one inside `send()`. -/
theorem SendInv.ne_of_running (hs : SendInv w) (hp : w.position.owner = some u)
    {last : Option (Call × Outcome (Option Message) Exc)} (ht : w.task t = .running last) :
    t ≠ u := by
  rintro rfl
  cases (hs t hp).symm.trans ht

/-- What `send()` raises at its end is what the native send raised. -/
theorem cause_applySending {b : DcSending} (hs : SendInv w) (h : applySending b w = some w')
    (ht : w'.task t = .running (some (call, .raised e))) :
    (w.position.owner ≠ some t ∧ w'.task t = w.task t) ∨ Cause t w (.sending b) call e := by
  cases b with
  | nativeSend answer =>
      simp only [applySending, nativeSend] at h
      split at h
      next u payload hp =>
        rw [hp]
        split at h
        next grow =>
          cases h
          exact Or.inl ⟨some_ne (hs.ne_of_running (by rw [hp]; rfl) ht), rfl⟩
        next e' =>
          cases h
          rcases raised_update (w := w) (u := u) rfl ht with hsame | ⟨rfl, hst⟩
          · exact Or.inl (hsame.imp_left some_ne)
          · cases hst
            exact Or.inr (.native hp)
      next => cases h
  | readAmount =>
      simp only [applySending, readAmount] at h
      split at h
      next u hp =>
        rw [hp]
        split at h
        · cases h
          exact Or.inl ⟨some_ne (hs.ne_of_running (by rw [hp]; rfl) ht), rfl⟩
        · cases h
          rcases raised_update (w := w) (u := u) rfl ht with hsame | ⟨-, hst⟩
          · exact Or.inl (hsame.imp_left some_ne)
          · cases hst
      next => cases h
  | clearEvent =>
      simp only [applySending, clearEvent] at h
      split at h
      next u hp =>
        rw [hp]
        cases h
        rcases raised_update (w := w) (u := u) rfl ht with hsame | ⟨-, hst⟩
        · exact Or.inl (hsame.imp_left some_ne)
        · cases hst
      next => cases h

/-- A step that leaves a task with an exception has a cause for it, or the
task took no part in it and had the exception before. -/
theorem cause_of_raised (hi : CauseInv w) (h : apply a w = some w')
    (ht : w'.task t = .running (some (call, .raised e))) :
    (a.caller? w ≠ some t ∧ w'.task t = w.task t) ∨ Cause t w a call e := by
  cases a with
  | native b => exact Or.inl ⟨(Option.some_ne_none t).symm, congrFun (applyNative_task h) t⟩
  | sending b => exact cause_applySending hi.loop.send h ht
  | loop b =>
      obtain ⟨-, hloop⟩ := apply_loop_cases h
      cases b with
      | dispatch =>
          obtain ⟨ev, rest, -, rfl⟩ := dispatch_cases hloop
          exact Or.inl ⟨(Option.some_ne_none t).symm, congrFun (runCallback_task ev _) t⟩
      | close =>
          cases hloop
          exact Or.inl ⟨(Option.some_ne_none t).symm, congrFun (close_task w) t⟩
      | destroy =>
          cases hloop
          exact Or.inl ⟨(Option.some_ne_none t).symm, congrFun (destroy_task w) t⟩
      | startTeardown =>
          obtain ⟨-, ⟨-, rfl⟩ | ⟨-, rfl⟩⟩ := startTeardown_cases hloop
          · exact Or.inl ⟨(Option.some_ne_none t).symm, congrFun (teardownEnd_task w) t⟩
          · exact Or.inl ⟨(Option.some_ne_none t).symm, rfl⟩
      | resumeTeardown =>
          obtain ⟨rfl, -⟩ := resumeTeardown_cases hloop
          exact Or.inl ⟨(Option.some_ne_none t).symm, congrFun (teardownEnd_task w) t⟩
      | setThreshold n =>
          cases hloop
          exact Or.inl ⟨(Option.some_ne_none t).symm, congrFun (setThreshold_task n w) t⟩
      | spawnTask u =>
          obtain ⟨-, -, ⟨-, rfl⟩ | ⟨-, rfl⟩⟩ := spawnTask_cases hloop
          · exact Or.inl ⟨(Option.some_ne_none t).symm, rfl⟩
          · rcases raised_update (w := w) (u := u) rfl ht with hsame | ⟨-, hst⟩
            · exact Or.inl ⟨(Option.some_ne_none t).symm, hsame.2⟩
            · cases hst
      | finish u =>
          obtain ⟨-, rfl⟩ := finish_cases hloop
          rcases raised_update (w := w) (u := u) rfl ht with hsame | ⟨-, hst⟩
          · exact Or.inl ⟨(Option.some_ne_none t).symm, hsame.2⟩
          · cases hst
      | discard u =>
          obtain ⟨-, rfl⟩ := discard_cases hloop
          exact Or.inl ⟨(Option.some_ne_none t).symm, rfl⟩
      | waitOpen u =>
          obtain ⟨rfl, -⟩ := started_eq hloop
          unfold waitOpen at ht ⊢
          split at ht
          next o ho =>
            rcases raised_update (w := w) rfl ht with hsame | ⟨rfl, hst⟩
            · exact Or.inl (hsame.imp_left some_ne)
            · simp only [TaskState.running.injEq, Option.some.injEq, Prod.mk.injEq] at hst
              obtain ⟨rfl, ho'⟩ := hst
              rw [voidOutcome_eq_raised ho'] at ho
              obtain ⟨hne, he⟩ := hi.opened.raised ho
              exact Or.inr (.neverOpened (Or.inl rfl) hne he)
          next ho =>
            rcases raised_update (w := w) (suspend_task u w _) ht with hsame | ⟨-, hst⟩
            · exact Or.inl (hsame.imp_left some_ne)
            · cases hst
      | waitClosed u =>
          obtain ⟨rfl, -⟩ := started_eq hloop
          exact Or.inl ((cause_awaitClosed hi.closed rfl ht).imp_left some_ne)
      | aclose u =>
          obtain ⟨rfl, -⟩ := started_eq hloop
          refine Or.inl ((cause_awaitClosed (v := w.close) ?_ (close_task w) ht).imp_left some_ne)
          intro e'
          rw [slot_close]
          split
          · intro hcancel
            cases hf : w.slot .closed with
            | pending =>
                rw [hf] at hcancel
                cases hcancel
            | settled o =>
                rw [hf] at hcancel
                exact hi.closed e' (hf.trans hcancel)
          · exact hi.closed e'
      | recv u =>
          obtain ⟨rfl, -⟩ := started_eq hloop
          rcases recv_task (t := u) w with ⟨item, rest, hitems, htask⟩ | htask
          · rcases raised_update htask ht with hsame | ⟨rfl, hst⟩
            · exact Or.inl (hsame.imp_left some_ne)
            · exact Or.inr (cause_recv hi (Or.inl rfl) hitems hst)
          · rcases raised_update htask ht with hsame | ⟨-, hst⟩
            · exact Or.inl (hsame.imp_left some_ne)
            · cases hst
      | send u payload wait =>
          obtain ⟨rfl, -⟩ := started_eq hloop
          exact (cause_send ht).imp_left (And.imp_left some_ne)
      | resume u => exact (cause_resume hi hloop ht).imp_left (And.imp_left some_ne)
      | cancel u =>
          cases hloop
          exact Or.inl ⟨(Option.some_ne_none t).symm, congrFun (cancelTask_task u w) t⟩
      | absorb u =>
          obtain ⟨rfl, -⟩ := started_eq hloop
          exact Or.inl ⟨(Option.some_ne_none t).symm, rfl⟩

/-- A parked sender that was woken and not cancelled makes its second
check. -/
theorem resume_parked {payload : Payload} (hst : w.task t = .inWait payload)
    (hm : w.mustCancel t = false) (h : w.resume t = some w') :
    (w.sendRefused = true ∧ w'.task t = .running (some (.send,
        .raised (.connectionClosedError "channel closed while waiting to send"))))
    ∨ (w.sendRefused = false ∧ w' = ({ w with dc := { w.dc with
        bufferedLowEvent := w.dc.bufferedLowEvent.leave t } } : DcWorld).enterSend t
          payload) := by
  unfold resume at h
  rw [hst] at h
  simp only [resumeSend, hm, Bool.false_eq_true, if_false] at h
  split at h
  · split at h
    next hr =>
      cases h
      exact Or.inl ⟨hr, Function.update_self t _ w.task⟩
    next hr =>
      cases h
      exact Or.inr ⟨Bool.eq_false_iff.mpr hr, rfl⟩
  · cases h

/-- A step that has a cause raises. -/
theorem raises_of_cause (hi : CauseInv w) (hc : Cause t w a call e)
    (h : apply a w = some w') : w'.task t = .running (some (call, .raised e)) := by
  cases hc with
  | neverOpened ha hs he =>
      have hslot : w.dc.openSlot.future = .settled (.raised e) :=
        (hi.opened.resolve_right hs).trans he
      rcases ha with rfl | ⟨rfl, hst, hm⟩
      · obtain ⟨rfl, -⟩ := started_eq (apply_loop_cases h).2
        rw [waitOpen_settled hslot]
        exact Function.update_self t _ w.task
      · obtain ⟨hidle, hloop⟩ := apply_loop_cases h
        obtain ⟨v, hv, htask⟩ := resume_wait .waitOpen hidle hst hm hslot
        cases h.symm.trans hv
        exact htask
  | closed ha hhead hclosing =>
      obtain ⟨rest, hitems⟩ := List.head?_eq_some_iff.mp hhead
      have hout : w.recvOutcome .closedSentinel
          = .raised (.connectionClosedError (closingText w.hist)) := by
        rw [← closedText_eq hi.error]
        rfl
      rw [← hout]
      rcases ha with rfl | ⟨rfl, hst, hm⟩
      · obtain ⟨rfl, -⟩ := started_eq (apply_loop_cases h).2
        exact (recv_takes hitems).2
      · exact (resume_takes hst hitems hm (apply_loop_cases h).2).2
  | refused hr =>
      obtain ⟨rfl, -⟩ := started_eq (apply_loop_cases h).2
      rw [send, if_pos hr]
      exact Function.update_self t _ w.task
  | refusedParked hst hm hr =>
      rcases resume_parked hst hm (apply_loop_cases h).2 with ⟨-, htask⟩ | ⟨hr', -⟩
      · exact htask
      · cases hr.symm.trans hr'
  | wrongType hr hw =>
      obtain ⟨rfl, -⟩ := started_eq (apply_loop_cases h).2
      rw [send, if_neg (Bool.eq_false_iff.mp hr), if_neg (Bool.eq_false_iff.mp hw)]
      exact Function.update_self t _ w.task
  | wrongTypeParked hst hm hr =>
      rcases resume_parked hst hm (apply_loop_cases h).2 with ⟨hr', -⟩ | ⟨-, rfl⟩
      · cases hr.symm.trans hr'
      · exact Function.update_self t _ w.task
  | native hp =>
      simp only [apply, applySending, nativeSend, hp] at h
      cases h
      exact Function.update_self t _ w.task

-- ================================================================== runs

section Init

variable (handle : Int) (recvBuffer : Nat) (native : NativeChannel)
  (fired : List DcEvent) (core : Core)

/-- What the exceptions are read off holds of a new channel. -/
theorem causeInv_init : CauseInv (init handle recvBuffer native fired core) where
  loop := loopInv_init handle recvBuffer native fired core
  error := by
    show none = lastErrorText ((if native.isOpen then [DcObs.opened] else [])
      ++ (if native.isClosed then [.closedAtBirth] else []))
    cases native.isOpen <;> cases native.isClosed <;> rfl
  sentinel := by
    show Item.closedSentinel ∈ (if native.isClosed
      then (Queue.new recvBuffer).putSuppressed Item.closedSentinel
      else Queue.new recvBuffer).items → ∃ o ∈ (if native.isOpen then [DcObs.opened] else [])
        ++ (if native.isClosed then [.closedAtBirth] else []), o.closes = true
    cases native.isClosed with
    | true => exact fun _ => ⟨.closedAtBirth, List.mem_append_right _ List.mem_cons_self, rfl⟩
    | false => exact nofun
  opened := by
    left
    show (if native.isOpen then FutureSlot.new.set () else FutureSlot.new).future
      = slotOutcome .opened ((if native.isOpen then [DcObs.opened] else [])
        ++ (if native.isClosed then [.closedAtBirth] else []))
    cases native.isOpen <;> cases native.isClosed <;> rfl
  closed := by
    show ∀ e, (if native.isClosed then FutureSlot.new.set () else FutureSlot.new).future
      ≠ .settled (.raised e)
    cases native.isClosed <;> exact fun _ => nofun

/-- Over every run, with any cancellations: an exception a task's call
ended with was raised by the last step the task took in a call, which has
a cause for it, and every step of the run that has a cause raises exactly
that. -/
theorem raised_exact {acts : List DcAction} {v : DcWorld}
    (hrun : exec apply (init handle recvBuffer native fired core) acts = some v) :
    (∀ t call e, v.task t = .running (some (call, .raised e)) →
        ∃ pre a u, Last apply (fun b m => b.caller? m = some t)
            (init handle recvBuffer native fired core) acts pre a u
          ∧ Cause t u a call e) ∧
      ∀ a u t call e, Transition.Takes apply (init handle recvBuffer native fired core) acts
        a u → Cause t u a call e →
        ∃ u', apply a u = some u' ∧ u'.task t = .running (some (call, .raised e)) := by
  have hinv : ∀ {u acts}, Transition.Visits apply
      (init handle recvBuffer native fired core) acts u → CauseInv u := fun hu =>
    hu.reachable.invariant (causeInv_init handle recvBuffer native fired core) causeInv_apply
  constructor
  · -- by induction on the run: an exception is from its last step, or from before
    induction acts using List.reverseRecOn generalizing v with
    | nil =>
        intro t call e ht
        cases hrun
        rcases init_task handle recvBuffer native fired core t with hn | hn
        · cases hn.symm.trans ht
        · cases hn.symm.trans ht
    | append_singleton acts a ih =>
        intro t call e ht
        rw [Transition.exec_snoc] at hrun
        obtain ⟨m, hm, ha⟩ := Option.bind_eq_some_iff.mp hrun
        have hi : CauseInv m := hinv (Transition.visits_end hm)
        rcases cause_of_raised hi ha ht with ⟨hother, hsame⟩ | hcause
        · obtain ⟨pre, b, u, hu, hcause⟩ := ih hm t call e (hsame ▸ ht)
          exact ⟨pre, b, u, hu.snoc hm hother, hcause⟩
        · exact ⟨acts, a, m, Transition.last_snoc hm ha hcause.caller, hcause⟩
  · intro a u t call e hu hcause
    obtain ⟨u', hu'⟩ := hu.enabled hrun
    exact ⟨u', hu', raises_of_cause (hinv hu.visits) hcause hu'⟩

end Init

-- ============================================================== one run

/-- The connecting fails, one task waits for the opening, the channel is
closed, and others receive and send. -/
def troubledRun : List DcAction :=
  [.native (.fire (.error "ice failed")), .loop .dispatch, .loop (.waitOpen (.user 0)),
    .loop .close, .loop (.recv (.user 1)), .loop .startTeardown,
    .loop (.send (.user 2) (.bytesLike [1]) true)]

/-- `raised_exact` at `troubledRun`, where three calls raise. -/
theorem raised_exact_troubledRun :
    ∃ v, exec apply (init 1 4 connectingNative [] emptyCore) troubledRun = some v
      ∧ v.task (.user 0)
        = .running (some (.waitOpen, .raised (.rtcError "ice failed" none)))
      ∧ v.task (.user 1)
        = .running (some (.recv, .raised (.connectionClosedError "ice failed")))
      ∧ v.task (.user 2) = .running (some (.send,
        .raised (.connectionClosedError "cannot send on a closed channel")))
      ∧ (∀ t call e, v.task t = .running (some (call, .raised e)) →
          ∃ pre a u, Last apply (fun b m => b.caller? m = some t)
              (init 1 4 connectingNative [] emptyCore) troubledRun pre a u
            ∧ Cause t u a call e)
      ∧ ∀ a u t call e, Transition.Takes apply (init 1 4 connectingNative [] emptyCore)
          troubledRun a u → Cause t u a call e →
          ∃ u', apply a u = some u' ∧ u'.task t = .running (some (call, .raised e)) :=
  ⟨_, rfl, rfl, rfl, rfl, raised_exact 1 4 connectingNative [] emptyCore rfl⟩

end DcWorld

end AioLibDataChannel
