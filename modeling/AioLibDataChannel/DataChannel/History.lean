/-
The history of a channel: what was opened, closed, dispatched and
taken, in order.

Every step leaves the history alone or appends to it
(`hist_apply`). So what was logged stays logged, and a fact about the
channel that is read off the history — which outcome a slot has, that
a destroyed wrapper has handled its closing — needs looking at only in
the steps that log it.
-/
import AioLibDataChannel.DataChannel.Link

namespace AioLibDataChannel

open Asyncio (Event Future Outcome Queue)
open Function (update)

namespace DcWorld

variable {w w' : DcWorld} {t : TaskId}

-- ============================================================== by call

/-- Only the first `close()` is logged. -/
theorem hist_close (w : DcWorld) :
    w.close.hist = w.hist ∨ w.close.hist = w.hist ++ [.closeCalled] := by
  unfold close
  split
  · exact Or.inl rfl
  · exact Or.inr (congrArg Frame.hist (frame_cancelTasks _ w.dc.tasks))

/-- What a reader does with its item is not logged again. -/
theorem hist_received (t : TaskId) (item : Item) (w : DcWorld) :
    (w.received t item).hist = w.hist := by
  cases item with
  | data m => rfl
  | closedSentinel =>
      simp only [received]
      split
      · rfl
      · exact congrArg Frame.hist (frame_suspend t w _)

/-- `recv()` logs the item it takes, if it takes one. -/
theorem hist_recv (t : TaskId) (w : DcWorld) :
    (w.recv t).hist = w.hist ∨ ∃ item, (w.recv t).hist = w.hist ++ [.took t item] := by
  unfold recv
  cases w.dc.recvQueue.getNowait with
  | some p => exact Or.inr ⟨p.1, hist_received t p.1 _⟩
  | none =>
      left
      have hframe := frame_suspend t { w with
        dc := { w.dc with recvQueue := w.dc.recvQueue.park t } } .inGet
      exact congrArg Frame.hist hframe

/-- Nothing is logged on the way to the native send. -/
theorem hist_enterSend (payload : Payload) (w : DcWorld) :
    (w.enterSend t payload).hist = w.hist := by
  cases payload <;> rfl

/-- `send()` logs nothing. -/
theorem hist_send (payload : Payload) (wait : Bool) (w : DcWorld) :
    (w.send t payload wait).hist = w.hist := by
  unfold send
  split
  · rfl
  · split
    · exact congrArg Frame.hist (frame_suspend t _ _)
    · exact hist_enterSend payload w

/-- A resumed call logs the item it takes, if it takes one. -/
theorem hist_resume (h : w.resume t = some w') :
    w'.hist = w.hist ∨ ∃ item, w'.hist = w.hist ++ [.took t item] := by
  cases resume_cases h with
  | openSettled o ht hs => exact Or.inl (congrArg Frame.hist (frame_endWait t w _ _))
  | closedSettled call o ht hs => exact Or.inl (congrArg Frame.hist (frame_endWait t w _ _))
  | getTakes item rest ht hm hw hi => exact Or.inr ⟨item, hist_received t item _⟩
  | sendEnters payload ht hm hw hr => exact Or.inl (hist_enterSend payload _)
  | _ => exact Or.inl rfl

/-- Moving the threshold is not logged. -/
theorem hist_setThreshold (n : Nat) (w : DcWorld) :
    (w.setThreshold n).hist = w.hist := by
  unfold setThreshold
  split <;> rfl

/-- The end of `send()` is not logged. -/
theorem hist_applySending {a : DcSending} (h : applySending a w = some w') :
    w'.hist = w.hist := by
  obtain ⟨native, event, position, task, -, rfl⟩ := applySending_eq h
  rfl

/-- What the native layer does is not logged before its dispatch. -/
theorem hist_applyNative {a : DcNative} (h : applyNative a w = some w') :
    w'.hist = w.hist := by
  obtain ⟨native, ready, rfl⟩ := applyNative_eq h
  rfl

/-- The destroy is logged as a closing, once. -/
theorem hist_destroy (w : DcWorld) :
    w.destroy.hist = if w.dc.destroyed then w.hist else w.hist ++ [.closed] := by
  unfold destroy
  split <;> rfl

-- ======================================================= the whole step

/-- What a loop step can do to the history: nothing, log one thing that
is not a closing nor from the construction, run a scheduled callback, or
run `_destroy`. -/
theorem applyLoop_hist_cases {a : DcLoop} (h : applyLoop a w = some w') :
    w'.hist = w.hist
    ∨ (∃ o, o ≠ .closed ∧ o ≠ .closedAtBirth ∧ w'.hist = w.hist ++ [o])
    ∨ (∃ e rest, w.ready = e :: rest ∧ w' = runCallback e { w with ready := rest })
    ∨ (w'.hist = w.destroy.hist ∧ w'.link = w.destroy.link) := by
  have hclose : ∀ {v : DcWorld}, v.hist = w.close.hist →
      v.hist = w.hist ∨ ∃ o, o ≠ .closed ∧ o ≠ .closedAtBirth ∧ v.hist = w.hist ++ [o] := by
    intro v hv
    rcases hist_close w with hc | hc
    · exact Or.inl (hv.trans hc)
    · exact Or.inr ⟨.closeCalled, nofun, nofun, hv.trans hc⟩
  have htook : ∀ {v : DcWorld} {t : TaskId},
      (v.hist = w.hist ∨ ∃ item, v.hist = w.hist ++ [.took t item]) →
      v.hist = w.hist ∨ ∃ o, o ≠ .closed ∧ o ≠ .closedAtBirth ∧ v.hist = w.hist ++ [o] := by
    intro v t hv
    rcases hv with hv | ⟨item, hv⟩
    · exact Or.inl hv
    · exact Or.inr ⟨.took t item, nofun, nofun, hv⟩
  have hone : ∀ {v : DcWorld},
      (v.hist = w.hist ∨ ∃ o, o ≠ .closed ∧ o ≠ .closedAtBirth ∧ v.hist = w.hist ++ [o]) →
      v.hist = w.hist
      ∨ (∃ o, o ≠ .closed ∧ o ≠ .closedAtBirth ∧ v.hist = w.hist ++ [o])
      ∨ (∃ e rest, w.ready = e :: rest ∧ v = runCallback e { w with ready := rest })
      ∨ (v.hist = w.destroy.hist ∧ v.link = w.destroy.link) :=
    fun hv => hv.imp id Or.inl
  cases a with
  | dispatch => exact Or.inr (Or.inr (Or.inl (dispatch_cases h)))
  | close =>
      cases h
      exact hone (hclose rfl)
  | destroy =>
      cases h
      exact Or.inr (Or.inr (Or.inr ⟨rfl, rfl⟩))
  | startTeardown =>
      obtain ⟨-, ⟨-, rfl⟩ | ⟨-, rfl⟩⟩ := startTeardown_cases h
      · exact Or.inr (Or.inr (Or.inr ⟨rfl, rfl⟩))
      · exact Or.inl rfl
  | resumeTeardown =>
      obtain ⟨rfl, -⟩ := resumeTeardown_cases h
      exact Or.inr (Or.inr (Or.inr ⟨rfl, rfl⟩))
  | setThreshold n =>
      cases h
      exact Or.inl (hist_setThreshold n w)
  | spawnTask t =>
      obtain ⟨-, -, ⟨-, rfl⟩ | ⟨-, rfl⟩⟩ := spawnTask_cases h <;> exact Or.inl rfl
  | finish t =>
      obtain ⟨-, rfl⟩ := finish_cases h
      exact Or.inl rfl
  | discard t =>
      obtain ⟨-, rfl⟩ := discard_cases h
      exact Or.inl rfl
  | waitOpen t =>
      obtain ⟨rfl, -⟩ := started_eq h
      exact Or.inl (congrArg Frame.hist (frame_waitOpen t w))
  | waitClosed t =>
      obtain ⟨rfl, -⟩ := started_eq h
      exact Or.inl (congrArg Frame.hist (frame_awaitClosed t w _))
  | aclose t =>
      obtain ⟨rfl, -⟩ := started_eq h
      exact hone (hclose (congrArg Frame.hist (frame_awaitClosed t w.close .aclose)))
  | recv t =>
      obtain ⟨rfl, -⟩ := started_eq h
      exact hone (htook (hist_recv t w))
  | send t payload wait =>
      obtain ⟨rfl, -⟩ := started_eq h
      exact Or.inl (hist_send payload wait w)
  | resume t => exact hone (htook (hist_resume h))
  | cancel t =>
      cases h
      exact Or.inl (congrArg Frame.hist (frame_cancelTask t w))
  | absorb t =>
      obtain ⟨rfl, -⟩ := started_eq h
      exact Or.inl rfl

/-- A callback logs what it dispatched. -/
theorem hist_runCallback (e : DcEvent) (w : DcWorld) :
    w.hist <+: (runCallback e w).hist := by
  cases e with
  | opened => exact List.prefix_append _ _
  | closed => exact List.prefix_append _ _
  | error m => exact List.prefix_append _ _
  | message m =>
      show w.hist <+: w.hist ++ _ ++ [_]
      rw [List.append_assoc]
      exact List.prefix_append _ _
  | bufferedLow => exact List.prefix_refl _

/-- And nothing else than the items it dropped. -/
theorem mem_hist_runCallback {e : DcEvent} {o : DcObs} (h : o ∈ (runCallback e w).hist) :
    o ∈ w.hist ∨ (e = .opened ∧ o = .opened) ∨ (e = .closed ∧ o = .closed)
      ∨ (∃ m, o = .errored m) ∨ (∃ m, o = .dispatched m) ∨ ∃ item, o = .dropped item := by
  cases e with
  | opened =>
      rcases List.mem_append.mp h with hold | hnew
      · exact Or.inl hold
      · exact Or.inr (Or.inl ⟨rfl, List.mem_singleton.mp hnew⟩)
  | closed =>
      rcases List.mem_append.mp h with hold | hnew
      · exact Or.inl hold
      · exact Or.inr (Or.inr (Or.inl ⟨rfl, List.mem_singleton.mp hnew⟩))
  | error m =>
      rcases List.mem_append.mp h with hold | hnew
      · exact Or.inl hold
      · exact Or.inr (Or.inr (Or.inr (Or.inl ⟨m, List.mem_singleton.mp hnew⟩)))
  | bufferedLow => exact Or.inl h
  | message m =>
      rcases List.mem_append.mp h with hdrop | hnew
      · rcases List.mem_append.mp hdrop with hold | hdrop
        · exact Or.inl hold
        · split at hdrop
          · obtain ⟨item, -, hitem⟩ := List.mem_map.mp hdrop
            exact Or.inr (Or.inr (Or.inr (Or.inr (Or.inr ⟨item, hitem.symm⟩))))
          · cases hdrop
      · exact Or.inr (Or.inr (Or.inr (Or.inr (Or.inl ⟨m, List.mem_singleton.mp hnew⟩))))

/-- The history only grows. -/
theorem hist_apply {a : DcAction} (h : apply a w = some w') : w.hist <+: w'.hist := by
  have hsame : ∀ {hist}, hist = w.hist → w.hist <+: hist :=
    fun heq => heq ▸ List.prefix_refl w.hist
  cases a with
  | native a => exact hsame (hist_applyNative h)
  | sending a => exact hsame (hist_applySending h)
  | loop a =>
      obtain ⟨-, hloop⟩ := apply_loop_cases h
      rcases applyLoop_hist_cases hloop with hh | ⟨o, -, -, hh⟩ | ⟨e, rest, -, rfl⟩
        | ⟨hh, -⟩
      · exact hsame hh
      · rw [hh]
        exact List.prefix_append _ _
      · exact hist_runCallback e { w with ready := rest }
      · rw [hh, hist_destroy]
        split
        · exact List.prefix_refl _
        · exact List.prefix_append _ _

/-- A destroyed wrapper has handled its closing. -/
def ClosedLogged (w : DcWorld) : Prop :=
  w.dc.destroyed = true → DcObs.closed ∈ w.hist

/-- A step that destroys the wrapper logs its closing. -/
theorem closedLogged_apply {a : DcAction} (hc : ClosedLogged w)
    (h : apply a w = some w') : ClosedLogged w' := by
  have hkeep : w'.dc.destroyed = w.dc.destroyed → ClosedLogged w' := by
    intro heq hd
    exact (hist_apply h).subset (hc (heq ▸ hd))
  cases a with
  | native a => exact hkeep (congrArg _ (applyNative_link h).2)
  | sending a => exact hkeep (applySending_link h).2.2.1
  | loop a =>
      obtain ⟨-, hloop⟩ := apply_loop_cases h
      rcases applyLoop_link_cases hloop with hl | ⟨-, e, rest, -, rfl⟩ | ⟨-, hh⟩
        | ⟨n, -, -, rfl⟩
      · exact hkeep (link_handle hl).2.2
      · exact hkeep (runCallback_handle e _).2.2
      · intro _
        rw [hh, hist_destroy]
        split
        next hd => exact hc hd
        next => exact List.mem_append_right _ (List.mem_singleton_self _)
      · exact hkeep rfl

end DcWorld

end AioLibDataChannel
