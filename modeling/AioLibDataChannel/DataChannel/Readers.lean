/-
The readers of a channel: who is in `recv()`, and what a close sentinel
does for them.

# The account

`ReadersInv` instantiates the queue's `Serves` at the channel: the
tasks in `get()` are the ones the receive queue lists, and an owed
cancellation takes a reader off the parked list. It holds in every
reachable state, whatever happens to the sentinel.

# What the sentinel buys

With a sentinel in the queue every suspended reader can be run to the
end of its `recv()` by resuming readers alone (`reader_released`): a
reader that takes the sentinel puts it back, so the queue never
empties, and each resumption takes one reader off the queue's lists.

# When the sentinel is there

The three closings push it with `QueueFull` suppressed, and a message
dispatched later evicts the oldest item. `KeepsSentinel` is the step
condition under which it survives; `readersServed_iff` says it is exact,
and `sentinel_lost` shows a run that breaks it.
-/
import AioLibDataChannel.Asyncio.Consumers
import AioLibDataChannel.DataChannel.Mailbox
import AioLibDataChannel.Transition.Run

namespace AioLibDataChannel

open Asyncio (Event Future Outcome Queue)
open Function (update)
open Transition (exec)

namespace DcWorld

variable {w w' : DcWorld} {t : TaskId}

/-- The receive queue lists exactly the tasks suspended in its
`get()`. -/
def ReadersInv (w : DcWorld) : Prop :=
  w.dc.recvQueue.Serves (fun t => w.task t = .inGet) fun t => w.mustCancel t = true

-- ========================================================= quiet changes

/-- Nothing changed for the tasks in `get()`. -/
structure ReadersQuiet (w w' : DcWorld) : Prop where
  queue : w'.dc.recvQueue = w.dc.recvQueue
  task : ∀ t, w'.task t = .inGet ↔ w.task t = .inGet
  owed : ∀ t, w.task t = .inGet → w'.mustCancel t = w.mustCancel t

/-- A step that is quiet for the readers keeps their account. -/
theorem ReadersInv.of_quiet (h : ReadersInv w) (hq : ReadersQuiet w w') :
    ReadersInv w' := by
  unfold ReadersInv
  rw [hq.queue]
  refine Queue.Serves.congr h hq.task ?_
  intro t ht
  rw [hq.owed t ht]

/-- Two quiet steps are quiet. -/
theorem ReadersQuiet.trans {w'' : DcWorld} (h₁ : ReadersQuiet w w')
    (h₂ : ReadersQuiet w' w'') : ReadersQuiet w w'' where
  queue := h₂.queue.trans h₁.queue
  task := fun t => (h₂.task t).trans (h₁.task t)
  owed := fun t ht => (h₂.owed t ((h₁.task t).mpr ht)).trans (h₁.owed t ht)

/-- Only the queue differs from a world whose account is known. -/
theorem ReadersInv.of_serves {q : Queue Item TaskId}
    (h : q.Serves (fun t => w.task t = .inGet) fun t => w.mustCancel t = true)
    (hq : w'.dc.recvQueue = q) (ht : w'.task = w.task)
    (hm : w'.mustCancel = w.mustCancel) : ReadersInv w' := by
  unfold ReadersInv
  rw [hq, ht, hm]
  exact h

/-- The account reads the queue, the tasks and the cancellations owed. -/
theorem ReadersInv.of_eq (h : ReadersInv w)
    (hq : w'.dc.recvQueue = w.dc.recvQueue) (ht : w'.task = w.task)
    (hm : w'.mustCancel = w.mustCancel) : ReadersInv w' :=
  ReadersInv.of_serves h hq ht hm

/-- A task outside `get()` moves, and not into it. -/
theorem update_inGet_iff {st : TaskState} (ht : w.task t ≠ .inGet)
    (hst : st ≠ .inGet) (u : TaskId) :
    update w.task t st u = .inGet ↔ w.task u = .inGet := by
  by_cases hu : u = t
  · subst hu
    rw [Function.update_self]
    exact ⟨fun h => absurd h hst, fun h => absurd h ht⟩
  · rw [Function.update_of_ne hu]

/-- A task outside `get()` ends its call unseen. -/
theorem quiet_finishCall {call : Call} {o : Outcome (Option Message) Exc}
    (ht : w.task t ≠ .inGet) : ReadersQuiet w (w.finishCall t call o) where
  queue := rfl
  task := update_inGet_iff ht nofun
  owed := fun _ _ => rfl

/-- A task outside `get()` gets its cancellation unseen. -/
theorem quiet_clearMustCancel (ht : w.task t ≠ .inGet) :
    ReadersQuiet w (w.clearMustCancel t) where
  queue := rfl
  task := fun _ => Iff.rfl
  owed := by
    intro u hu
    have hne : u ≠ t := by
      intro heq
      subst heq
      exact ht hu
    exact Function.update_of_ne hne _ _

/-- A task outside `get()` is owed a cancellation unseen. -/
theorem quiet_setMustCancel (ht : w.task t ≠ .inGet) :
    ReadersQuiet w (w.setMustCancel t) where
  queue := rfl
  task := fun _ => Iff.rfl
  owed := by
    intro u hu
    have hne : u ≠ t := by
      intro heq
      subst heq
      exact ht hu
    exact Function.update_of_ne hne _ _

/-- Cancelling a task in `get()` unparks it and owes it the error. -/
theorem cancelTask_inGet (ht : w.task t = .inGet) :
    w.cancelTask t = { w.setMustCancel t with
      dc := { w.dc with recvQueue := w.dc.recvQueue.unpark t } } := by
  unfold cancelTask
  rw [ht]

/-- Cancelling any other task does not concern the queue. -/
theorem quiet_cancelTask (ht : w.task t ≠ .inGet) :
    ReadersQuiet w (w.cancelTask t) := by
  have hset := quiet_setMustCancel ht
  have hdc : ∀ dc : DataChannel, dc.recvQueue = w.dc.recvQueue →
      ReadersQuiet w { w with dc := dc } :=
    fun dc hq => ⟨hq, fun _ => Iff.rfl, fun _ _ => rfl⟩
  unfold cancelTask
  split
  · exact hdc w.dc rfl
  · exact hdc w.dc rfl
  · split
    · exact hset
    · exact hdc _ rfl
  · split
    · exact hset
    · exact hdc _ rfl
  next hin => exact absurd hin ht
  · split
    · exact ⟨rfl, hset.task, hset.owed⟩
    · exact hset
  · exact hset
  · exact hset
  · exact hset

/-- A reader that is cancelled is owed the cancellation and wakes for
it. -/
theorem readersInv_cancelTask (h : ReadersInv w) (t : TaskId) :
    ReadersInv (w.cancelTask t) := by
  by_cases ht : w.task t = .inGet
  · rw [cancelTask_inGet ht]
    refine Queue.Serves.unpark h ?_
    intro u
    show update w.mustCancel t true u = true ↔ _
    by_cases hu : u = t
    · subst hu
      rw [Function.update_self]
      exact ⟨fun _ => Or.inl rfl, fun _ => rfl⟩
    · rw [Function.update_of_ne hu]
      exact ⟨Or.inr, fun hor => hor.resolve_left hu⟩
  · exact h.of_quiet (quiet_cancelTask ht)

/-- Cancelling a list of tasks keeps the readers' account. -/
theorem readersInv_cancelTasks (h : ReadersInv w) (ts : List TaskId) :
    ReadersInv (w.cancelTasks ts) := by
  unfold cancelTasks
  induction ts generalizing w with
  | nil => exact h
  | cons t ts ih =>
      rw [List.foldl_cons]
      exact ih (readersInv_cancelTask h t)

-- ============================================================ suspending

/-- A task suspends somewhere other than in `get()`. -/
theorem readersInv_suspend {st : TaskState} (h : ReadersInv w)
    (ht : w.task t ≠ .inGet) (hst : st ≠ .inGet) :
    ReadersInv (w.suspend t st) := by
  have hmove : ReadersInv { w with task := update w.task t st } :=
    h.of_quiet ⟨rfl, update_inGet_iff ht hst, fun _ _ => rfl⟩
  unfold suspend
  split
  · apply readersInv_cancelTask
    refine hmove.of_quiet (quiet_clearMustCancel ?_)
    show update w.task t st t ≠ _
    rw [Function.update_self]
    exact hst
  · exact hmove

/-- A task parks in `get()`. -/
theorem readersInv_park (h : ReadersInv w) (he : w.dc.recvQueue.items = [])
    (ht : w.task t ≠ .inGet) :
    ReadersInv (suspend t .inGet { w with
      dc := { w.dc with recvQueue := w.dc.recvQueue.park t } }) := by
  have hw : ∀ u, update w.task t .inGet u = .inGet ↔ u = t ∨ w.task u = .inGet := by
    intro u
    by_cases hu : u = t
    · subst hu
      rw [Function.update_self]
      exact ⟨fun _ => Or.inl rfl, fun _ => rfl⟩
    · rw [Function.update_of_ne hu]
      exact ⟨Or.inr, fun hor => hor.resolve_left hu⟩
  unfold suspend
  split
  next hm =>
    -- the owed cancellation is delivered to the future just parked
    apply readersInv_cancelTask
    have hclear : ReadersInv (w.clearMustCancel t) :=
      h.of_quiet (quiet_clearMustCancel ht)
    refine Queue.Serves.park hclear he ht ?_ hw
    show ¬ update w.mustCancel t false t = true
    rw [Function.update_self]
    exact Bool.false_ne_true
  next hm =>
    exact Queue.Serves.park h he ht hm hw

/-- A wait that is no `get()` ends unseen. -/
theorem readersInv_endWait {call : Call} {o : Outcome (Option Message) Exc}
    (h : ReadersInv w) (ht : w.task t ≠ .inGet) :
    ReadersInv (w.endWait t call o) := by
  unfold endWait
  split
  · exact h.of_quiet ((quiet_clearMustCancel ht).trans (quiet_finishCall ht))
  · exact h.of_quiet (quiet_finishCall ht)

/-- A wait for the closing begins unseen. -/
theorem readersInv_awaitClosed {call : Call} (h : ReadersInv w)
    (ht : w.task t ≠ .inGet) : ReadersInv (w.awaitClosed call t) := by
  unfold awaitClosed
  split
  · exact h.of_quiet (quiet_finishCall ht)
  · exact readersInv_suspend h ht nofun

/-- A wait for the opening begins unseen. -/
theorem readersInv_waitOpen (h : ReadersInv w) (ht : w.task t ≠ .inGet) :
    ReadersInv (w.waitOpen t) := by
  unfold waitOpen
  split
  · exact h.of_quiet (quiet_finishCall ht)
  · exact readersInv_suspend h ht nofun

-- =========================================================== the closings

/-- `close()` puts a sentinel, which wakes a reader, and cancels. -/
theorem readersInv_close (h : ReadersInv w) : ReadersInv w.close := by
  unfold close
  split
  · exact h
  · have hput : ReadersInv { w with
        dc := w.dc.requestClose, hist := w.hist ++ [.closeCalled] } :=
      Queue.Serves.putSuppressed h .closedSentinel
    exact (readersInv_cancelTasks hput w.dc.tasks).of_eq rfl rfl rfl

/-- The destroy puts a sentinel, which wakes a reader. -/
theorem readersInv_destroy (h : ReadersInv w) : ReadersInv w.destroy := by
  unfold destroy
  split
  · exact h
  next hd =>
    have hput := Queue.Serves.putSuppressed h .closedSentinel
    refine ReadersInv.of_serves (w := w) hput ?_ rfl rfl
    show ((w.dc.destroy w.core).2).recvQueue = _
    rw [DataChannel.destroy, if_neg hd]
    rfl

/-- The end of the teardown keeps the account as its destroy does. -/
theorem readersInv_teardownEnd (h : ReadersInv w) : ReadersInv w.teardownEnd :=
  (readersInv_destroy h).of_eq rfl rfl rfl

/-- A message serves the readers, whether or not one is dropped for it. -/
theorem serves_pushMessage {q : Queue Item TaskId} {waiting owed : TaskId → Prop}
    (h : q.Serves waiting owed) (m : Message) :
    (DataChannel.pushMessage m q).Serves waiting owed := by
  unfold DataChannel.pushMessage
  split
  next q' hput => exact h.putNowait hput
  next hput =>
    show Queue.Serves (Queue.putSuppressed (Item.data m) _) _ _
    apply Queue.Serves.putSuppressed
    split
    next x q' hget => exact h.getNowait hget
    next hget => exact h

/-- Each callback keeps the readers' account. -/
theorem readersInv_runCallback (h : ReadersInv w) (e : DcEvent) :
    ReadersInv (runCallback e w) := by
  cases e with
  | opened => exact h.of_eq rfl rfl rfl
  | error m => exact h.of_eq rfl rfl rfl
  | bufferedLow => exact h.of_eq rfl rfl rfl
  | closed =>
      exact ReadersInv.of_serves (w := w)
        (Queue.Serves.putSuppressed h .closedSentinel) rfl rfl rfl
  | message m =>
      exact ReadersInv.of_serves (w := w) (serves_pushMessage h m) rfl rfl rfl

-- ================================================================ reading

/-- A reader outside the queue's lists ends its call with the item it
took. -/
theorem readersInv_received {item : Item} (h : ReadersInv w)
    (ht : w.task t ≠ .inGet) (hroom : w.dc.recvQueue.full = false) :
    ReadersInv (w.received t item) := by
  cases item with
  | data m => exact h.of_quiet (quiet_finishCall ht)
  | closedSentinel =>
      have hpush := Queue.Serves.push h .closedSentinel hroom
      simp only [received, Queue.putNowait_of_room hroom]
      exact ReadersInv.of_quiet (w := { w with
        dc := { w.dc with recvQueue := w.dc.recvQueue.push .closedSentinel hroom } })
        hpush (quiet_finishCall ht)

/-- A reader takes an item, or is listed. -/
theorem readersInv_recv (h : ReadersInv w) (ht : w.task t ≠ .inGet) :
    ReadersInv (w.recv t) := by
  unfold recv
  split
  next item q hget =>
    exact readersInv_received (w := { w with
        dc := { w.dc with recvQueue := q }, hist := w.hist ++ [.took t item] })
      (Queue.Serves.getNowait h hget) ht (Queue.full_of_getNowait hget)
  next hget =>
    exact readersInv_park h (Queue.getNowait_eq_none.mp hget) ht

/-- The tasks in `get()` once `t` has left it. -/
theorem update_leaves (st : TaskState) (hst : st ≠ .inGet) (u : TaskId) :
    update w.task t st u = .inGet ↔ u ≠ t ∧ w.task u = .inGet := by
  by_cases hu : u = t
  · subst hu
    rw [Function.update_self]
    exact ⟨fun h => absurd h hst, fun h => absurd rfl h.1⟩
  · rw [Function.update_of_ne hu]
    exact ⟨fun h => ⟨hu, h⟩, fun h => h.2⟩

/-- A running task is not in `get()`. -/
theorem running_ne_inGet (last : Option (Call × Outcome (Option Message) Exc)) :
    TaskState.running last ≠ .inGet := by
  intro heq
  cases heq

/-- A woken reader that is resumed takes the head item and ends its
call. -/
theorem readersInv_takes {item : Item} (h : ReadersInv w)
    (ht : t ∈ w.dc.recvQueue.woken) (hne : w.dc.recvQueue.items ≠ []) :
    ReadersInv (received t item { w with
      dc := { w.dc with recvQueue := w.dc.recvQueue.takeWoken t }
      hist := w.hist ++ [.took t item] }) := by
  have hroom := Queue.full_takeWoken ht hne
  -- the task map is updated after the queue, so the account is taken in
  -- the world where `t` already runs
  have hleave : ∀ st : TaskState, st ≠ .inGet →
      (w.dc.recvQueue.takeWoken t).Serves
        (fun u => update w.task t st u = .inGet) fun u => w.mustCancel u = true :=
    fun st hst => Queue.Serves.takeWoken h ht (update_leaves st hst)
  cases item with
  | data m =>
      exact hleave _ (running_ne_inGet (some (.recv, .returned (some m))))
  | closedSentinel =>
      simp only [received, Queue.putNowait_of_room hroom]
      exact Queue.Serves.push (hleave _ (running_ne_inGet (some (.recv,
        .raised (.connectionClosedError w.dc.closedText)))))
        .closedSentinel hroom

/-- A sender is no reader. -/
theorem readersInv_enterSend {payload : Payload} (h : ReadersInv w)
    (ht : w.task t ≠ .inGet) : ReadersInv (w.enterSend t payload) := by
  cases payload with
  | other name => exact h.of_quiet (quiet_finishCall ht)
  | bytesLike data =>
      exact h.of_quiet ⟨rfl, update_inGet_iff ht nofun, fun _ _ => rfl⟩
  | str text =>
      exact h.of_quiet ⟨rfl, update_inGet_iff ht nofun, fun _ _ => rfl⟩

/-- `send()` keeps the readers' account, parked or not. -/
theorem readersInv_send {payload : Payload} {wait : Bool} (h : ReadersInv w)
    (ht : w.task t ≠ .inGet) : ReadersInv (w.send t payload wait) := by
  unfold send
  split
  · exact h.of_quiet (quiet_finishCall ht)
  · split
    · exact readersInv_suspend (w := { w with
        dc := { w.dc with bufferedLowEvent := w.dc.bufferedLowEvent.park t } })
        h ht nofun
    · exact readersInv_enterSend h ht

/-- A resumed task that is not a reader putting the sentinel back. -/
theorem readersInv_resume (hn : w.task t ≠ .reinjecting) (h : ReadersInv w)
    (hres : w.resume t = some w') : ReadersInv w' := by
  have hleft : ReadersInv { w with
      dc := { w.dc with bufferedLowEvent := w.dc.bufferedLowEvent.leave t } } := h
  have hout : ∀ {st}, w.task t = st → st ≠ .inGet → w.task t ≠ .inGet :=
    fun ht hne hget => hne (ht.symm.trans hget)
  cases resume_cases hres with
  | openSettled o ht hs => exact readersInv_endWait h (hout ht nofun)
  | closedSettled call o ht hs => exact readersInv_endWait h (hout ht nofun)
  | getCancelled ht hm =>
      refine Queue.Serves.passOn h hm (update_leaves _ nofun) ?_
      intro u hu
      show update w.mustCancel t false u = true ↔ _
      rw [Function.update_of_ne hu]
  | getParks ht hm hw hi => exact Queue.Serves.repark h hw (Bool.eq_false_iff.mp hm)
  | getTakes item rest ht hm hw hi => exact readersInv_takes h hw (by rw [hi]; exact nofun)
  | putCancelled ht hm => exact absurd ht hn
  | putRaises q ht hm hq => exact absurd ht hn
  | sendCancelled payload ht hm =>
      refine hleft.of_quiet (ReadersQuiet.trans ?_ (quiet_finishCall (hout ht nofun)))
      exact quiet_clearMustCancel (hout ht nofun)
  | sendRaises payload ht hm hw hr => exact hleft.of_quiet (quiet_finishCall (hout ht nofun))
  | sendEnters payload ht hm hw hr => exact readersInv_enterSend hleft (hout ht nofun)

-- ======================================================= the whole step

/-- What the native layer does is not seen by readers. -/
theorem readersInv_applyNative {a : DcNative} (h : ReadersInv w)
    (hstep : applyNative a w = some w') : ReadersInv w' := by
  obtain ⟨native, ready, rfl⟩ := applyNative_eq hstep
  exact h.of_eq rfl rfl rfl

/-- The tail of a `send()` ends its own call, and touches no reader. -/
theorem readersInv_applySending {a : DcSending} (hs : SendInv w)
    (h : ReadersInv w) (hstep : applySending a w = some w') : ReadersInv w' := by
  have hout : ∀ {t o}, w.position.owner = some t →
      ReadersQuiet w (w.finishCall t .send o) := by
    intro t o ho
    have hst : w.task t = .sending := hs t ho
    exact quiet_finishCall (by rw [hst]; exact nofun)
  cases a with
  | nativeSend answer =>
      simp only [applySending, nativeSend] at hstep
      split at hstep
      next t payload hp =>
        split at hstep
        · cases hstep
          exact h.of_eq rfl rfl rfl
        · cases hstep
          exact (h.of_quiet (hout (by rw [hp]; rfl))).of_eq rfl rfl rfl
      next => cases hstep
  | readAmount =>
      simp only [applySending, readAmount] at hstep
      split at hstep
      next t hp =>
        split at hstep
        · cases hstep
          exact h.of_eq rfl rfl rfl
        · cases hstep
          exact (h.of_quiet (hout (by rw [hp]; rfl))).of_eq rfl rfl rfl
      next => cases hstep
  | clearEvent =>
      simp only [applySending, clearEvent] at hstep
      split at hstep
      next t hp =>
        cases hstep
        exact (h.of_quiet (hout (by rw [hp]; rfl))).of_eq rfl rfl rfl
      next => cases hstep

/-- The account survives every step. -/
theorem readersInv_apply {a : DcAction} (hs : SendInv w) (hn : NoReinjecting w)
    (h : ReadersInv w) (hstep : apply a w = some w') : ReadersInv w' := by
  cases a with
  | native a => exact readersInv_applyNative h hstep
  | sending a => exact readersInv_applySending hs h hstep
  | loop a =>
      have hrun : ∀ {t last}, w.task t = .running last → w.task t ≠ .inGet := by
        intro t last hl
        rw [hl]
        exact nofun
      obtain ⟨-, hloop⟩ := apply_loop_cases hstep
      cases a with
      | dispatch =>
          obtain ⟨e, rest, -, rfl⟩ := dispatch_cases hloop
          exact readersInv_runCallback (w := { w with ready := rest }) h e
      | close =>
          cases hloop
          exact readersInv_close h
      | destroy =>
          cases hloop
          exact readersInv_destroy h
      | startTeardown =>
          obtain ⟨-, ⟨-, rfl⟩ | ⟨-, rfl⟩⟩ := startTeardown_cases hloop
          · exact readersInv_teardownEnd h
          · exact h.of_eq rfl rfl rfl
      | resumeTeardown =>
          obtain ⟨rfl, -⟩ := resumeTeardown_cases hloop
          exact readersInv_teardownEnd h
      | setThreshold n =>
          cases hloop
          show ReadersInv (w.setThreshold n)
          unfold setThreshold
          split
          · exact h
          · exact h.of_eq rfl rfl rfl
      | spawnTask t =>
          obtain ⟨-, hu, ⟨-, rfl⟩ | ⟨-, rfl⟩⟩ := spawnTask_cases hloop
          · exact h
          · exact h.of_quiet
              ⟨rfl, update_inGet_iff (by rw [hu]; exact nofun) nofun, fun _ _ => rfl⟩
      | finish t =>
          obtain ⟨⟨last, hl⟩, rfl⟩ := finish_cases hloop
          exact h.of_quiet ⟨rfl, update_inGet_iff (hrun hl) nofun, fun _ _ => rfl⟩
      | discard t =>
          obtain ⟨-, rfl⟩ := discard_cases hloop
          exact h.of_eq rfl rfl rfl
      | waitOpen t =>
          obtain ⟨rfl, last, hl⟩ := started_eq hloop
          exact readersInv_waitOpen h (hrun hl)
      | waitClosed t =>
          obtain ⟨rfl, last, hl⟩ := started_eq hloop
          exact readersInv_awaitClosed h (hrun hl)
      | aclose t =>
          obtain ⟨rfl, last, hl⟩ := started_eq hloop
          refine readersInv_awaitClosed (readersInv_close h) ?_
          rw [close_task]
          exact hrun hl
      | recv t =>
          obtain ⟨rfl, last, hl⟩ := started_eq hloop
          exact readersInv_recv h (hrun hl)
      | send t payload wait =>
          obtain ⟨rfl, last, hl⟩ := started_eq hloop
          exact readersInv_send h (hrun hl)
      | resume t => exact readersInv_resume (hn t) h hloop
      | cancel t =>
          cases hloop
          exact readersInv_cancelTask h t
      | absorb t =>
          obtain ⟨rfl, last, hl⟩ := started_eq hloop
          exact h.of_quiet (quiet_clearMustCancel (hrun hl))

-- =================================================== releasing a reader

/-- The loop going on by itself: suspended tasks resumed, and the tail
of a `send()` brought to its end. -/
def continues : DcAction → Bool
  | .sending _ => true
  | .loop (.resume _) => true
  | _ => false

/-- A reader that can run, runs to the end of its `recv()`; the sentinel
stays. -/
theorem reader_step (hr : ReadersInv w) (hidle : w.position = .idle)
    (hs : Item.closedSentinel ∈ w.dc.recvQueue.items) (ht : w.task t = .inGet)
    (hready : w.mustCancel t = true ∨ t ∈ w.dc.recvQueue.woken) :
    ∃ v o, apply (.loop (.resume t)) w = some v
      ∧ v.task = update w.task t (.running (some (.recv, o)))
      ∧ ReadersInv v ∧ v.position = .idle
      ∧ Item.closedSentinel ∈ v.dc.recvQueue.items
      ∧ (t ∈ w.dc.recvQueue.woken →
          v.dc.recvQueue.consumers + 1 = w.dc.recvQueue.consumers) := by
  have hres : apply (.loop (.resume t)) w = w.resume t := if_pos hidle
  rw [hres]
  have hkeeps : ∀ {v}, w.resume t = some v → ReadersInv v :=
    fun hget => readersInv_resume (by rw [ht]; exact nofun) hr hget
  have hne : w.dc.recvQueue.items ≠ [] := List.ne_nil_of_mem hs
  by_cases hm : w.mustCancel t = true
  · -- the owed cancellation ends the call, and the wake-up is passed on
    have hget := (Resumes.getCancelled ht hm).resume
    refine ⟨_, .cancelled, hget, rfl, hkeeps hget, hidle, ?_, ?_⟩
    · show Item.closedSentinel ∈ (w.dc.recvQueue.passOn t).items
      rw [Queue.passOn_items]
      exact hs
    · exact Queue.consumers_passOn
  · have hw : t ∈ w.dc.recvQueue.woken := hready.resolve_left hm
    obtain ⟨item, rest, hi⟩ := List.exists_cons_of_ne_nil hne
    have hget := (Resumes.getTakes item rest ht (Bool.eq_false_iff.mpr hm) hw hi).resume
    have hroom := Queue.full_takeWoken hw hne
    have hcount := Queue.consumers_takeWoken hw
    have hrest : (w.dc.recvQueue.takeWoken t).items = rest := by
      rw [Queue.takeWoken_items hw, hi, List.tail_cons]
    cases item with
    | data m =>
        refine ⟨_, .returned (some m), hget, rfl, hkeeps hget, hidle, ?_, fun _ => hcount⟩
        show Item.closedSentinel ∈ (w.dc.recvQueue.takeWoken t).items
        rw [hrest]
        rw [hi] at hs
        exact (List.mem_cons.mp hs).resolve_left nofun
    | closedSentinel =>
        simp only [received, Queue.putNowait_of_room hroom] at hget
        refine ⟨_, .raised (.connectionClosedError w.dc.closedText), hget, rfl,
          hkeeps hget, hidle, ?_, fun _ => ?_⟩
        · show Item.closedSentinel ∈ ((w.dc.recvQueue.takeWoken t).push
            .closedSentinel hroom).items
          rw [Queue.push_items]
          exact List.mem_append_right _ (List.mem_singleton_self _)
        · show ((w.dc.recvQueue.takeWoken t).push .closedSentinel hroom).consumers
            + 1 = _
          rw [Queue.consumers_push]
          exact hcount

/-- A reader parked beside a sentinel is reached by resuming the readers
before it. By induction on the readers the queue lists. -/
theorem reader_released_of_idle (hr : ReadersInv w) (hidle : w.position = .idle)
    (hs : Item.closedSentinel ∈ w.dc.recvQueue.items) (ht : w.task t = .inGet) :
    ∃ acts v o, (∀ a ∈ acts, continues a = true)
      ∧ exec apply w acts = some v
      ∧ v.task t = .running (some (.recv, o)) := by
  generalize hn : w.dc.recvQueue.consumers = n
  induction n using Nat.strongRecOn generalizing w with
  | ind n ih =>
      by_cases hready : w.mustCancel t = true ∨ t ∈ w.dc.recvQueue.woken
      · obtain ⟨v, o, hstep, htask, -⟩ := reader_step hr hidle hs ht hready
        refine ⟨[.loop (.resume t)], v, o, ?_, ?_, ?_⟩
        · exact fun a ha => by rw [List.mem_singleton.mp ha]; rfl
        · rw [Transition.exec_cons hstep]
          rfl
        · rw [htask, Function.update_self]
      · -- `t` is still parked, so somebody woken is ahead of it
        have hg : t ∈ w.dc.recvQueue.getters := by
          rcases hr.reached t ht with hm | hmem
          · exact absurd (Or.inl hm) hready
          · rcases List.mem_append.mp hmem with hg | hw
            · exact hg
            · exact absurd (Or.inr hw) hready
        obtain ⟨u, hu⟩ := Queue.exists_woken (List.ne_nil_of_mem hs) hg
        have hut : t ≠ u := by
          intro heq
          subst heq
          exact hready (Or.inr hu)
        have hui : w.task u = .inGet := hr.listed u (List.mem_append_right _ hu)
        obtain ⟨v, o, hstep, htask, hrv, hiv, hsv, hcount⟩ :=
          reader_step hr hidle hs hui (Or.inr hu)
        have htv : v.task t = .inGet := by
          rw [htask, Function.update_of_ne hut]
          exact ht
        have hlt : v.dc.recvQueue.consumers < n := by
          have := hcount hu
          omega
        obtain ⟨acts, v', o', hacts, hexec, hend⟩ := ih _ hlt hrv hiv hsv htv rfl
        refine ⟨.loop (.resume u) :: acts, v', o', ?_, ?_, hend⟩
        · intro a ha
          rcases List.mem_cons.mp ha with rfl | ha
          · rfl
          · exact hacts a ha
        · rw [Transition.exec_cons hstep]
          exact hexec

/-- The tail of a `send()` reaches its end, whatever the native layer
answers, and the receive queue does not notice. -/
theorem send_completes (w : DcWorld) :
    ∃ (acts : List DcSending) (v : DcWorld),
      exec apply w (acts.map DcAction.sending) = some v
      ∧ v.position = .idle ∧ v.dc.recvQueue = w.dc.recvQueue := by
  have hclear : ∀ {v : DcWorld} {t}, v.position = .clearing t →
      ∃ v', apply (.sending .clearEvent) v = some v' ∧ v'.position = .idle
        ∧ v'.dc.recvQueue = v.dc.recvQueue := by
    intro v t hp
    simp only [apply, applySending, clearEvent, hp]
    exact ⟨_, rfl, rfl, rfl⟩
  have hread : ∀ {v : DcWorld} {t}, v.position = .returned t →
      ∃ (acts : List DcSending) (v' : DcWorld),
        exec apply v (acts.map DcAction.sending) = some v'
        ∧ v'.position = .idle ∧ v'.dc.recvQueue = v.dc.recvQueue := by
    intro v t hp
    by_cases hc : v.dc.bufferedLowEvent.value = true ∧ 0 < v.native.bufferedAmount
    · have hstep : apply (.sending .readAmount) v
          = some { v with position := .clearing t } := by
        simp only [apply, applySending, readAmount, hp, if_pos hc]
      obtain ⟨v', hv', hidle, hq⟩ := hclear (v := { v with position := .clearing t }) rfl
      refine ⟨[.readAmount, .clearEvent], v', ?_, hidle, hq⟩
      rw [List.map_cons, Transition.exec_cons hstep, List.map_cons,
        Transition.exec_cons hv']
      rfl
    · have hstep : apply (.sending .readAmount) v
          = some { v.finishCall t .send (.returned none) with position := .idle } := by
        simp only [apply, applySending, readAmount, hp, if_neg hc]
      refine ⟨[.readAmount],
        { v.finishCall t .send (.returned none) with position := .idle }, ?_, rfl, rfl⟩
      rw [List.map_cons, Transition.exec_cons hstep]
      rfl
  cases hp : w.position with
  | idle => exact ⟨[], w, rfl, hp, rfl⟩
  | clearing t =>
      obtain ⟨v, hv, hidle, hq⟩ := hclear hp
      refine ⟨[.clearEvent], v, ?_, hidle, hq⟩
      rw [List.map_cons, Transition.exec_cons hv]
      rfl
  | returned t => exact hread hp
  | calling t payload =>
      have hstep : apply (.sending (.nativeSend (.ok 0))) w
          = some { w with
              native.bufferedAmount := w.native.bufferedAmount + 0
              position := .returned t } := by
        simp only [apply, applySending, nativeSend, hp]
      obtain ⟨acts, v, hv, hidle, hq⟩ := hread (t := t) (v := { w with
        native.bufferedAmount := w.native.bufferedAmount + 0
        position := .returned t }) rfl
      refine ⟨.nativeSend (.ok 0) :: acts, v, ?_, hidle, hq⟩
      rw [List.map_cons, Transition.exec_cons hstep]
      exact hv

/-- The reader's side of a run of the send tail. -/
theorem reader_across_send {acts : List DcSending} {v : DcWorld}
    (hs : SendInv w) (hr : ReadersInv w) (ht : w.task t = .inGet)
    (hexec : exec apply w (acts.map DcAction.sending) = some v) :
    ReadersInv v ∧ v.task t = .inGet := by
  induction acts generalizing w with
  | nil =>
      cases hexec
      exact ⟨hr, ht⟩
  | cons a acts ih =>
      obtain ⟨m, hstep, hrest⟩ := Transition.exec_cons_cases hexec
      refine ih (sendInv_apply hs hstep) (readersInv_applySending hs hr hstep) ?_ hrest
      obtain ⟨u, hu, ⟨htask, -⟩ | ⟨-, o, htask⟩⟩ := applySending_cases hstep
      · rw [htask]
        exact ht
      · have hne : t ≠ u := by
          intro heq
          subst heq
          rw [hs t hu] at ht
          cases ht
        rw [htask, Function.update_of_ne hne]
        exact ht

/-- With a sentinel in the queue, the loop going on by itself brings
every suspended reader to the end of its `recv()`. -/
theorem reader_released (hs : SendInv w) (hr : ReadersInv w)
    (hmem : Item.closedSentinel ∈ w.dc.recvQueue.items) (ht : w.task t = .inGet) :
    ∃ acts v o, (∀ a ∈ acts, continues a = true)
      ∧ exec apply w acts = some v
      ∧ v.task t = .running (some (.recv, o)) := by
  obtain ⟨tail, m, hm, hidle, hq⟩ := send_completes w
  obtain ⟨hrm, htm⟩ := reader_across_send hs hr ht hm
  rw [← hq] at hmem
  obtain ⟨acts, v, o, hacts, hexec, hend⟩ :=
    reader_released_of_idle hrm hidle hmem htm
  refine ⟨tail.map DcAction.sending ++ acts, v, o, ?_, ?_, hend⟩
  · intro a ha
    rcases List.mem_append.mp ha with ha | ha
    · obtain ⟨b, -, rfl⟩ := List.mem_map.mp ha
      rfl
    · exact hacts a ha
  · rw [Transition.exec_append, hm]
    exact hexec

-- ========================================================= the guarantee

/-- The closing has been recorded. -/
def closingRecorded (w : DcWorld) : Prop := w.hist.any DcObs.isClosing = true

/-- What closing promises the readers: a sentinel in the queue, so that
the loop going on by itself ends every suspended `recv()`; and nobody
suspended putting a sentinel back. -/
structure ReadersServed (w : DcWorld) : Prop where
  sentinel : w.closingRecorded → Item.closedSentinel ∈ w.dc.recvQueue.items
  released : w.closingRecorded → ∀ t, w.task t = .inGet →
    ∃ acts v o, (∀ a ∈ acts, continues a = true) ∧ exec apply w acts = some v
      ∧ v.task t = .running (some (.recv, o))
  reinjected : ∀ t, w.task t ≠ .reinjecting

/-- The step leaves a sentinel where the readers need one: a closing
finds room in the queue or an older sentinel, and a message dispatched
after the closing finds room, or a sentinel that is not the oldest
item. -/
def KeepsSentinel (a : DcAction) (w : DcWorld) : Prop :=
  match mailAction a w with
  | some .close =>
      w.dc.recvQueue.full = false ∨ Item.closedSentinel ∈ w.dc.recvQueue.items
  | some (.put _) =>
      w.closingRecorded → w.dc.recvQueue.full = true →
        Item.closedSentinel ∈ w.dc.recvQueue.items.tail
  | _ => True

/-- The mailbox is marked exactly if a recorded closing has its sentinel
in the queue. -/
theorem marked_mailbox_iff (w : DcWorld) :
    w.mailbox.Marked ↔
      (w.closingRecorded → Item.closedSentinel ∈ w.dc.recvQueue.items) := by
  unfold Mailbox.Marked
  rw [mailbox_entries, none_mem_entries_iff]
  rfl

/-- In the mailbox's words the condition is `Mailbox.Keeps`. -/
theorem keeps_iff {a : DcAction} {b : Mailbox.Action Message}
    (hb : mailAction a w = some b) : Mailbox.Keeps b w.mailbox ↔ KeepsSentinel a w := by
  unfold KeepsSentinel
  rw [hb]
  cases b with
  | close =>
      show (w.mailbox.full = false ∨ none ∈ w.mailbox.entries) ↔ _
      rw [mailbox_full, mailbox_entries, none_mem_entries_iff]
  | put m =>
      show (w.mailbox.closed = true → w.mailbox.full = true →
        none ∈ w.mailbox.entries.tail) ↔ _
      rw [mailbox_full, mailbox_entries, ← List.map_tail, none_mem_entries_iff]
      rfl
  | take => exact Iff.rfl

/-- Step by step, the sentinel survives exactly under the condition. -/
theorem sentinel_step_iff {a : DcAction} (hn : NoReinjecting w)
    (hm : w.mailbox.Marked) (h : apply a w = some w') :
    w'.mailbox.Marked ↔ KeepsSentinel a w := by
  obtain ⟨hb, heq⟩ | ⟨b, hb, hstep⟩ := mailbox_cases hn h
  · rw [heq]
    have htrue : KeepsSentinel a w := by
      unfold KeepsSentinel
      rw [hb]
      trivial
    exact ⟨fun _ => htrue, fun _ => hm⟩
  · exact (Mailbox.marked_step_iff hm hstep).trans (keeps_iff hb)

-- ================================================================== runs

/-- What every run keeps, whatever becomes of the sentinel. -/
structure LoopInv (w : DcWorld) : Prop where
  send : SendInv w
  reinjecting : NoReinjecting w
  readers : ReadersInv w

/-- Every step keeps it. -/
theorem loopInv_apply {a : DcAction} (hi : LoopInv w) (h : apply a w = some w') :
    LoopInv w' where
  send := sendInv_apply hi.send h
  reinjecting := noReinjecting_apply hi.send hi.reinjecting h
  readers := readersInv_apply hi.send hi.reinjecting hi.readers h

section Init

variable (handle : Int) (recvBuffer : Nat) (native : NativeChannel)
  (fired : List DcEvent) (core : Core)

/-- A task of a new channel is unborn or idle. -/
theorem init_task (t : TaskId) :
    (init handle recvBuffer native fired core).task t = .unborn
      ∨ (init handle recvBuffer native fired core).task t = .running none := by
  show (if t.ownedBy handle = true then TaskState.unborn else .running none) = _
    ∨ (if t.ownedBy handle = true then TaskState.unborn else .running none) = _
  split
  · exact Or.inl rfl
  · exact Or.inr rfl

/-- What every run keeps holds of a new channel. -/
theorem loopInv_init : LoopInv (init handle recvBuffer native fired core) where
  send := nofun
  reinjecting := by
    intro t ht
    rcases init_task handle recvBuffer native fired core t with h | h <;>
      · rw [h] at ht
        cases ht
  readers := by
    have hnone : ∀ t,
        ¬ (init handle recvBuffer native fired core).task t = .inGet := by
      intro t ht
      rcases init_task handle recvBuffer native fired core t with h | h <;>
        · rw [h] at ht
          cases ht
    have hnew : (Queue.new recvBuffer : Queue Item TaskId).Serves
        (fun t => (init handle recvBuffer native fired core).task t = .inGet)
        (fun t => (init handle recvBuffer native fired core).mustCancel t = true) :=
      Queue.serves_new recvBuffer hnone
    unfold ReadersInv
    show Queue.Serves (if native.isClosed
      then (Queue.new recvBuffer).putSuppressed Item.closedSentinel
      else Queue.new recvBuffer) _ _
    split
    · exact hnew.putSuppressed .closedSentinel
    · exact hnew

/-- A channel found closed at birth has its sentinel. -/
theorem marked_init : (init handle recvBuffer native fired core).mailbox.Marked := by
  rw [marked_mailbox_iff]
  intro hc
  have hnone : ¬ (init handle recvBuffer native fired core).closingRecorded := by
    show ¬ ((if native.isOpen then [DcObs.opened] else [])
      ++ (if native.isClosed then [DcObs.closedAtBirth] else [])).any
        DcObs.isClosing = true
    cases native.isOpen <;> cases native.isClosed <;> exact nofun
  exact absurd hc hnone

/-- Closing reaches the readers throughout a run exactly when every step
of the run leaves them a sentinel. -/
theorem readersServed_iff {acts : List DcAction} {v : DcWorld}
    (hrun : exec apply (init handle recvBuffer native fired core) acts = some v) :
    (∀ w, Transition.Visits apply (init handle recvBuffer native fired core) acts w →
        ReadersServed w) ↔
      ∀ a w, Transition.Takes apply (init handle recvBuffer native fired core) acts
        a w → KeepsSentinel a w := by
  have hinv := loopInv_init handle recvBuffer native fired core
  have hexact := Transition.visits_iff_takes (P := fun w => w.mailbox.Marked)
    (I := LoopInv) hrun (marked_init handle recvBuffer native fired core) hinv
    loopInv_apply fun hi hm h => sentinel_step_iff hi.reinjecting hm h
  rw [← hexact]
  constructor
  · intro hserved w hw
    exact (marked_mailbox_iff w).mpr (hserved w hw).sentinel
  · intro hmarked w hw
    have hi : LoopInv w := hw.reachable.invariant hinv loopInv_apply
    have hsent := (marked_mailbox_iff w).mp (hmarked w hw)
    exact
      { sentinel := hsent
        released := fun hc t ht => reader_released hi.send hi.readers (hsent hc) ht
        reinjected := hi.reinjecting }

end Init

-- ======================================================= the failing runs

/-- A message fills a queue of one, the channel is closed and torn down,
and a reader takes the message. -/
def fullQueueRun : List DcAction :=
  [.native (.fire (.message (.bytes [1]))), .loop .dispatch, .loop .close,
    .loop .startTeardown, .loop (.recv (.user 0))]

/-- The next reader of `fullQueueRun` is suspended for good: closing is
recorded and complete, nothing is scheduled, and no sentinel is left. -/
theorem sentinel_lost :
    ∃ w, exec apply (init 1 1 openNative [] emptyCore)
        (fullQueueRun ++ [.loop (.recv (.user 1))]) = some w
      ∧ w.closingRecorded ∧ w.dc.destroyed = true ∧ w.ready = []
      ∧ w.dc.teardownTask = .finished
      ∧ Item.closedSentinel ∉ w.dc.recvQueue.items
      ∧ w.task (.user 1) = .inGet ∧ w.resume (.user 1) = none := by
  refine ⟨_, rfl, rfl, rfl, rfl, rfl, ?_, rfl, rfl⟩
  exact nofun

/-- `readersServed_iff` at `fullQueueRun`, which completes, and breaks
both sides at the `close()`. -/
theorem readersServed_iff_fullQueueRun :
    (∀ w, Transition.Visits apply (init 1 1 openNative [] emptyCore)
        fullQueueRun w → ReadersServed w) ↔
      ∀ a w, Transition.Takes apply (init 1 1 openNative [] emptyCore)
        fullQueueRun a w → KeepsSentinel a w :=
  readersServed_iff 1 1 openNative [] emptyCore (v := _) rfl

end DcWorld

end AioLibDataChannel
