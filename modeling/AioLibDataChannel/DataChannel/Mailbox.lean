/-
The receive queue is a mailbox: the projection of a channel's world
onto the general scheme of `Mailbox/Basic.lean`.

Every channel step is silent on the mailbox or is one mailbox action,
and `mailAction` says which — the closings (`close()`, the native
callback, `_destroy` from either side), the dispatched messages, the
items readers take. `mailbox_apply` is the simulation; a result about
mailbox runs is a result about the channel's through it.
-/
import AioLibDataChannel.DataChannel.Tasks
import AioLibDataChannel.Mailbox.Basic

namespace AioLibDataChannel

open Asyncio (Event Future Outcome Queue)
open Function (update)

/-- An item as a mailbox entry: the sentinel is the marker. -/
def Item.entry : Item → Option Message
  | .data m => some m
  | .closedSentinel => none

/-- The messages dispatched, in order. -/
def DcObs.put? : DcObs → Option Message
  | .dispatched m => some m
  | _ => none

/-- The items readers took, in order. -/
def DcObs.took? : DcObs → Option (Option Message)
  | .took _ item => some item.entry
  | _ => none

/-- The items dropped for want of room, in order. -/
def DcObs.dropped? : DcObs → Option (Option Message)
  | .dropped item => some item.entry
  | _ => none

/-- The closing has been recorded: `close()` has returned past its
guard, or `_handle_closed` has run. -/
def DcObs.isClosing : DcObs → Bool
  | .closed => true
  | .closeCalled => true
  | _ => false

namespace Frame

/-- The mailbox in a frame. -/
def mailbox (f : Frame) : Mailbox Message where
  maxsize := f.maxsize
  entries := f.items.map Item.entry
  closed := f.hist.any DcObs.isClosing
  put := f.hist.filterMap DcObs.put?
  taken := f.hist.filterMap DcObs.took?
  dropped := f.hist.filterMap DcObs.dropped?

end Frame

namespace DcWorld

/-- The receive queue of a world, as a mailbox. -/
def mailbox (w : DcWorld) : Mailbox Message := w.frame.mailbox

/-- What leaves the frame alone leaves the mailbox alone. -/
theorem mailbox_congr {w w' : DcWorld} (h : w'.frame = w.frame) :
    w'.mailbox = w.mailbox := by
  rw [mailbox, h, mailbox]

/-- The mailbox action a channel step performs, if any. -/
def mailAction : DcAction → DcWorld → Option (Mailbox.Action Message)
  | .loop .dispatch, w =>
      match w.ready with
      | .closed :: _ => some .close
      | .message m :: _ => some (.put m)
      | _ => none
  | .loop .close, w => if w.dc.closeRequested then none else some .close
  | .loop (.aclose _), w => if w.dc.closeRequested then none else some .close
  | .loop .destroy, w => if w.dc.destroyed then none else some .close
  | .loop .startTeardown, w =>
      if w.dc.destroyed = true ∨ w.dc.tasks ≠ [] then none else some .close
  | .loop .resumeTeardown, w => if w.dc.destroyed then none else some .close
  | .loop (.recv _), w =>
      if w.dc.recvQueue.items = [] then none else some .take
  | .loop (.resume t), w =>
      if w.task t = .inGet ∧ w.mustCancel t = false ∧ t ∈ w.dc.recvQueue.woken
          ∧ w.dc.recvQueue.items ≠ []
        then some .take
      else none
  | _, _ => none

/-- The effect of the mailbox action a step performs. -/
def mailStep (a : DcAction) (w : DcWorld) : Option (Mailbox Message) :=
  match mailAction a w with
  | some b => Mailbox.step b w.mailbox
  | none => some w.mailbox

-- ====================================================== the simulation

variable {w w' : DcWorld}

/-- The mailbox is full when the queue is. -/
@[simp] theorem mailbox_full (w : DcWorld) :
    w.mailbox.full = w.dc.recvQueue.full := by
  show decide (0 < w.dc.recvQueue.maxsize
      ∧ w.dc.recvQueue.maxsize ≤ (w.dc.recvQueue.items.map Item.entry).length) = _
  rw [List.length_map]
  rfl

/-- The mailbox's entries are the queue's items. -/
theorem mailbox_entries (w : DcWorld) :
    w.mailbox.entries = w.dc.recvQueue.items.map Item.entry := rfl

/-- The sentinel is in the queue exactly when the marker is in the
mailbox. -/
theorem none_mem_entries_iff (l : List Item) :
    none ∈ l.map Item.entry ↔ Item.closedSentinel ∈ l := by
  rw [List.mem_map]
  constructor
  · intro hex
    obtain ⟨item, hmem, hitem⟩ := hex
    cases item with
    | data m => cases hitem
    | closedSentinel => exact hmem
  · intro hmem
    exact ⟨_, hmem, rfl⟩

/-- A suppressed put of the sentinel, logged as a closing, closes the
mailbox. -/
theorem mailbox_of_put_sentinel {o : DcObs} (ho : o.isClosing = true)
    (hput : o.put? = none) (htook : o.took? = none)
    (hdrop : o.dropped? = none)
    (hmax : w'.dc.recvQueue.maxsize = w.dc.recvQueue.maxsize)
    (hitems : w'.dc.recvQueue.items
      = (w.dc.recvQueue.putSuppressed .closedSentinel).items)
    (hhist : w'.hist = w.hist ++ [o]) :
    w'.mailbox = w.mailbox.closeStep := by
  have hentries : w'.mailbox.entries
      = if w.mailbox.full then w.mailbox.entries
        else w.mailbox.entries ++ [none] := by
    rw [mailbox_entries, hitems, Queue.putSuppressed_items, mailbox_full]
    cases w.dc.recvQueue.full with
    | true => rfl
    | false => simp [mailbox_entries, Item.entry]
  show Mailbox.mk w'.dc.recvQueue.maxsize w'.mailbox.entries
      (w'.hist.any DcObs.isClosing) (w'.hist.filterMap DcObs.put?)
      (w'.hist.filterMap DcObs.took?) (w'.hist.filterMap DcObs.dropped?) = _
  rw [hentries, hhist, hmax]
  simp only [List.any_append, List.filterMap_append, List.any_cons,
    List.any_nil, ho, Bool.true_or, Bool.or_true,
    List.filterMap_cons_none hput, List.filterMap_cons_none htook,
    List.filterMap_cons_none hdrop, List.filterMap_nil, List.append_nil]
  rfl

/-- The first `close()` is a closing of the mailbox. -/
theorem mailbox_close (w : DcWorld) :
    w.close.mailbox
      = if w.dc.closeRequested then w.mailbox else w.mailbox.closeStep := by
  unfold close
  cases hc : w.dc.closeRequested with
  | true => rfl
  | false =>
      simp only [Bool.false_eq_true, if_false]
      have hframe := frame_cancelTasks
        { w with dc := w.dc.requestClose, hist := w.hist ++ [.closeCalled] }
        w.dc.tasks
      refine mailbox_of_put_sentinel (o := .closeCalled) rfl rfl rfl rfl ?_ ?_ ?_
      · have := congrArg Frame.maxsize hframe
        exact this.trans (Queue.putSuppressed_maxsize _ _)
      · exact congrArg Frame.items hframe
      · exact congrArg Frame.hist hframe

/-- The destroy is a closing of the mailbox, unless it came before. -/
theorem mailbox_destroy (w : DcWorld) :
    w.destroy.mailbox
      = if w.dc.destroyed then w.mailbox else w.mailbox.closeStep := by
  unfold destroy
  cases hd : w.dc.destroyed with
  | true => rfl
  | false =>
      simp only [Bool.false_eq_true, if_false]
      refine mailbox_of_put_sentinel (o := .closed) rfl rfl rfl rfl ?_ ?_ rfl
      · show ((w.dc.destroy w.core).2).recvQueue.maxsize = _
        rw [DataChannel.destroy, if_neg (Bool.eq_false_iff.mp hd)]
        exact Queue.putSuppressed_maxsize _ _
      · show ((w.dc.destroy w.core).2).recvQueue.items = _
        rw [DataChannel.destroy, if_neg (Bool.eq_false_iff.mp hd)]
        rfl

/-- The end of the teardown closes the mailbox by the destroy in it. -/
theorem mailbox_teardownEnd (w : DcWorld) :
    w.teardownEnd.mailbox
      = if w.dc.destroyed then w.mailbox else w.mailbox.closeStep := by
  rw [← mailbox_destroy]
  rfl

/-- A dispatched message is put into the mailbox. -/
theorem mailbox_runCallback_message (m : Message) (w : DcWorld) :
    (runCallback (.message m) w).mailbox = w.mailbox.putStep m := by
  have hmax := DataChannel.pushMessage_maxsize m w.dc.recvQueue
  have hhist : (runCallback (.message m) w).hist
      = w.hist
        ++ (if w.dc.recvQueue.full then
              (w.dc.recvQueue.items.take 1).map .dropped else [])
        ++ [.dispatched m] := rfl
  show Mailbox.mk (DataChannel.pushMessage m w.dc.recvQueue).maxsize
      ((DataChannel.pushMessage m w.dc.recvQueue).items.map Item.entry)
      ((runCallback (.message m) w).hist.any DcObs.isClosing)
      ((runCallback (.message m) w).hist.filterMap DcObs.put?)
      ((runCallback (.message m) w).hist.filterMap DcObs.took?)
      ((runCallback (.message m) w).hist.filterMap DcObs.dropped?) = _
  rw [hmax, hhist]
  unfold Mailbox.putStep
  rw [mailbox_full]
  cases hf : w.dc.recvQueue.full with
  | false =>
      rw [DataChannel.pushMessage_items_of_room hf]
      simp [mailbox, frame, Frame.mailbox, Item.entry, DcObs.isClosing,
        DcObs.put?, DcObs.took?, DcObs.dropped?]
  | true =>
      rw [DataChannel.pushMessage_items_of_full hf]
      cases hi : w.dc.recvQueue.items with
      | nil => exact absurd hi (Queue.items_ne_nil_of_full hf)
      | cons x rest' =>
          simp [mailbox, frame, Frame.mailbox, hi, Item.entry, DcObs.isClosing,
            DcObs.put?, DcObs.took?, DcObs.dropped?]
          rfl

/-- Of the callbacks, only the message and the closing reach the
mailbox. -/
theorem mailbox_runCallback (e : DcEvent) (w : DcWorld) :
    (runCallback e w).mailbox
      = match e with
        | .closed => w.mailbox.closeStep
        | .message m => w.mailbox.putStep m
        | _ => w.mailbox := by
  cases e with
  | closed =>
      exact mailbox_of_put_sentinel (o := .closed) rfl rfl rfl rfl
        (Queue.putSuppressed_maxsize _ _) rfl rfl
  | message m => exact mailbox_runCallback_message m w
  | opened =>
      simp [mailbox, frame, Frame.mailbox, runCallback, DataChannel.handleOpen,
        DcObs.isClosing, DcObs.put?, DcObs.took?, DcObs.dropped?]
  | error m =>
      simp [mailbox, frame, Frame.mailbox, runCallback, DataChannel.handleError,
        DcObs.isClosing, DcObs.put?, DcObs.took?, DcObs.dropped?]
  | bufferedLow => rfl

/-- A reader that took the head `item`, leaving room, has the effect of
`take` on the mailbox before it. -/
theorem mailbox_received {t : TaskId} {item : Item} {rest : List Item}
    {w₀ : DcWorld} (hitems : w₀.dc.recvQueue.items = item :: rest)
    (hmax : w.dc.recvQueue.maxsize = w₀.dc.recvQueue.maxsize)
    (hrest : w.dc.recvQueue.items = rest)
    (hroom : w.dc.recvQueue.full = false)
    (hhist : w.hist = w₀.hist ++ [.took t item]) :
    w₀.mailbox.takeStep = some (w.received t item).mailbox := by
  have hent : w₀.mailbox.entries = item.entry :: rest.map Item.entry := by
    rw [mailbox_entries, hitems, List.map_cons]
  cases item with
  | data m =>
      have hframe : (w.received t (.data m)).mailbox = w.mailbox := rfl
      rw [hframe]
      simp only [Mailbox.takeStep, hent, Item.entry, Option.some.injEq]
      simp [mailbox, frame, Frame.mailbox, hmax, hrest, hhist, Item.entry,
        DcObs.isClosing, DcObs.put?, DcObs.took?, DcObs.dropped?]
  | closedSentinel =>
      simp only [received, Queue.putNowait_of_room hroom, Mailbox.takeStep, hent,
        Item.entry, Option.some.injEq]
      simp [mailbox, frame, Frame.mailbox, finishCall, hmax, hrest, hhist,
        Item.entry, DcObs.isClosing, DcObs.put?, DcObs.took?, DcObs.dropped?]

/-- The native side and the tail of `send()` never touch the queue. -/
theorem mailbox_applyNative {a : DcNative} (h : applyNative a w = some w') :
    w'.mailbox = w.mailbox := by
  obtain ⟨native, ready, rfl⟩ := applyNative_eq h
  rfl

/-- The end of `send()` does not touch it. -/
theorem mailbox_applySending {a : DcSending} (h : applySending a w = some w') :
    w'.mailbox = w.mailbox := by
  obtain ⟨native, event, position, task, -, rfl⟩ := applySending_eq h
  rfl

/-- A new threshold does not touch the mailbox. -/
theorem mailbox_setThreshold (n : Nat) (w : DcWorld) :
    (w.setThreshold n).mailbox = w.mailbox := by
  unfold setThreshold
  split <;> rfl

/-- The tail of a call that was let through, or turned away: the queue
is not involved. -/
theorem mailbox_enterSend (t : TaskId) (payload : Payload) (w : DcWorld) :
    (w.enterSend t payload).mailbox = w.mailbox := by
  cases payload <;> rfl

/-- `send()` does not touch the mailbox. -/
theorem mailbox_send (t : TaskId) (payload : Payload) (wait : Bool)
    (w : DcWorld) : (w.send t payload wait).mailbox = w.mailbox := by
  unfold send
  split
  · rfl
  · split
    · rw [mailbox_congr (frame_suspend t _ _)]
      unfold mailbox frame
      simp
    · exact mailbox_enterSend t payload w

/-- The start of `recv()`: a take when there is an item, else silent. -/
theorem mailbox_recv (t : TaskId) (w : DcWorld) :
    (if w.dc.recvQueue.items = [] then some w.mailbox else w.mailbox.takeStep)
      = some (w.recv t).mailbox := by
  unfold recv
  cases hg : w.dc.recvQueue.getNowait with
  | none =>
      have hnil := Queue.getNowait_eq_none.mp hg
      rw [if_pos hnil]
      show some w.mailbox = some (suspend t .inGet _).mailbox
      rw [mailbox_congr (frame_suspend t _ _)]
      unfold mailbox frame
      simp
  | some p =>
      obtain ⟨item, q⟩ := p
      obtain ⟨hi, hq⟩ := Queue.getNowait_eq_some hg
      rw [if_neg (by rw [hi]; exact List.cons_ne_nil _ _)]
      refine mailbox_received hi ?_ rfl (Queue.full_of_getNowait hg) rfl
      show q.maxsize = _
      rw [hq]
      rfl

/-- A resumed task: a take when it is a reader that finds an item. -/
theorem mailbox_resume {t : TaskId} (hn : NoReinjecting w)
    (h : w.resume t = some w') :
    mailStep (.loop (.resume t)) w = some w'.mailbox := by
  have hquiet : ∀ {st}, w.task t = st → st ≠ .inGet →
      mailStep (.loop (.resume t)) w = some w.mailbox := by
    intro st hst hne
    simp only [mailStep, mailAction]
    rw [if_neg (fun hc => hne (hst ▸ hc.1))]
  cases resume_cases h with
  | openSettled o ht hs => rw [hquiet ht nofun, mailbox_congr (frame_endWait t w _ _)]
  | closedSettled call o ht hs => rw [hquiet ht nofun, mailbox_congr (frame_endWait t w _ _)]
  | getCancelled ht hm =>
      simp only [mailStep, mailAction]
      rw [if_neg (fun hc => Bool.false_ne_true (hc.2.1.symm.trans hm))]
      unfold mailbox frame
      simp [finishCall, clearMustCancel]
  | getParks ht hm hw hi =>
      simp only [mailStep, mailAction]
      rw [if_neg (fun hc => hc.2.2.2 hi)]
      unfold mailbox frame
      simp
  | getTakes item rest ht hm hw hi =>
      have hne : w.dc.recvQueue.items ≠ [] := by
        rw [hi]
        exact nofun
      simp only [mailStep, mailAction]
      rw [if_pos ⟨ht, hm, hw, hne⟩]
      refine mailbox_received hi (Queue.takeWoken_maxsize _ _) ?_
        (Queue.full_takeWoken hw hne) rfl
      show (w.dc.recvQueue.takeWoken t).items = rest
      rw [Queue.takeWoken_items hw, hi, List.tail_cons]
  | putCancelled ht hm => exact absurd ht (hn t)
  | putRaises q ht hm hq => exact absurd ht (hn t)
  | sendCancelled payload ht hm =>
      rw [hquiet ht nofun]
      rfl
  | sendRaises payload ht hm hw hr =>
      rw [hquiet ht nofun]
      rfl
  | sendEnters payload ht hm hw hr =>
      rw [hquiet ht nofun, mailbox_enterSend]
      rfl

/-- The simulation: a channel step performs its mailbox action, or is
silent on the mailbox. -/
theorem mailbox_apply {a : DcAction} (hn : NoReinjecting w)
    (h : apply a w = some w') : mailStep a w = some w'.mailbox := by
  cases a with
  | native a =>
      show some w.mailbox = _
      rw [mailbox_applyNative h]
  | sending a =>
      show some w.mailbox = _
      rw [mailbox_applySending h]
  | loop a =>
      obtain ⟨-, hloop⟩ := apply_loop_cases h
      cases a with
      | dispatch =>
          obtain ⟨e, rest, hr, rfl⟩ := dispatch_cases hloop
          have hsame : ({ w with ready := rest } : DcWorld).mailbox = w.mailbox :=
            rfl
          rw [mailbox_runCallback, hsame]
          simp only [mailStep, mailAction, hr]
          cases e <;> rfl
      | close =>
          cases hloop
          rw [mailbox_close]
          simp only [mailStep, mailAction]
          cases w.dc.closeRequested <;> rfl
      | destroy =>
          cases hloop
          rw [mailbox_destroy]
          simp only [mailStep, mailAction]
          cases w.dc.destroyed <;> rfl
      | startTeardown =>
          obtain ⟨-, ⟨hnil, rfl⟩ | ⟨hne, rfl⟩⟩ := startTeardown_cases hloop
          · rw [mailbox_teardownEnd]
            simp only [mailStep, mailAction, hnil, ne_eq, not_true_eq_false,
              or_false]
            cases w.dc.destroyed <;> rfl
          · simp only [mailStep, mailAction]
            rw [if_pos (Or.inr hne)]
            rfl
      | resumeTeardown =>
          obtain ⟨rfl, -⟩ := resumeTeardown_cases hloop
          rw [mailbox_teardownEnd]
          simp only [mailStep, mailAction]
          cases w.dc.destroyed <;> rfl
      | setThreshold n =>
          cases hloop
          show some w.mailbox = some (w.setThreshold n).mailbox
          rw [mailbox_setThreshold]
      | spawnTask t =>
          obtain ⟨-, -, ⟨-, rfl⟩ | ⟨-, rfl⟩⟩ := spawnTask_cases hloop <;> rfl
      | finish t =>
          obtain ⟨-, rfl⟩ := finish_cases hloop
          rfl
      | discard t =>
          obtain ⟨-, rfl⟩ := discard_cases hloop
          rfl
      | waitOpen t =>
          obtain ⟨rfl, -⟩ := started_eq hloop
          rw [mailbox_congr (frame_waitOpen t w)]
          rfl
      | waitClosed t =>
          obtain ⟨rfl, -⟩ := started_eq hloop
          rw [mailbox_congr (frame_awaitClosed t w _)]
          rfl
      | aclose t =>
          obtain ⟨rfl, -⟩ := started_eq hloop
          show _ = some (w.close.awaitClosed .aclose t).mailbox
          rw [mailbox_congr (frame_awaitClosed t w.close _), mailbox_close]
          simp only [mailStep, mailAction]
          cases w.dc.closeRequested <;> rfl
      | recv t =>
          obtain ⟨rfl, -⟩ := started_eq hloop
          rw [← mailbox_recv]
          simp only [mailStep, mailAction]
          by_cases hnil : w.dc.recvQueue.items = []
          · rw [if_pos hnil, if_pos hnil]
          · rw [if_neg hnil, if_neg hnil]
            rfl
      | send t payload wait =>
          obtain ⟨rfl, -⟩ := started_eq hloop
          rw [mailbox_send]
          rfl
      | resume t => exact mailbox_resume hn hloop
      | cancel t =>
          cases hloop
          rw [mailbox_congr (frame_cancelTask t w)]
          rfl
      | absorb t =>
          obtain ⟨rfl, -⟩ := started_eq hloop
          rfl

/-- The same, by cases: the step leaves the mailbox alone, or takes the
mailbox step of its action. -/
theorem mailbox_cases {a : DcAction} (hn : NoReinjecting w) (h : apply a w = some w') :
    (mailAction a w = none ∧ w'.mailbox = w.mailbox)
      ∨ ∃ b, mailAction a w = some b ∧ Mailbox.step b w.mailbox = some w'.mailbox := by
  have hsim := mailbox_apply hn h
  unfold mailStep at hsim
  cases hb : mailAction a w with
  | none =>
      rw [hb] at hsim
      exact Or.inl ⟨rfl, (Option.some.inj hsim).symm⟩
  | some b =>
      rw [hb] at hsim
      exact Or.inr ⟨b, rfl, hsim⟩

end DcWorld

end AioLibDataChannel
