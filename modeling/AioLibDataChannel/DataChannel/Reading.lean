/-
A reader's own steps.

Whoever is in a `recv()` is there until a step of its own: the call's
start or a resumption (`reader?`). Such a step takes an item and ends
the call with it, goes on waiting, or delivers a cancellation (`Reads`);
any other step leaves the readers waiting and takes nothing.
-/
import AioLibDataChannel.DataChannel.Causes

namespace AioLibDataChannel

open Asyncio (Outcome Queue)
open Function (update)

namespace DcWorld

variable {w w' : DcWorld} {t u : TaskId} {a : DcAction}

/-- The task whose own step an action is, when it may be a step of a
`recv()`. -/
def reader? : DcAction → Option TaskId
  | .loop (.recv t) => some t
  | .loop (.resume t) => some t
  | _ => none

/-- A task reads in a `recv()` or when resumed. -/
theorem reader_cases (h : reader? a = some t) :
    (∃ u, a = .loop (.recv u)) ∨ ∃ u, a = .loop (.resume u) := by
  cases a with
  | native b => cases h
  | sending b => cases h
  | loop b =>
      cases b with
      | recv u => exact Or.inl ⟨u, rfl⟩
      | resume u => exact Or.inr ⟨u, rfl⟩
      | _ => cases h

/-- The end of the `recv()` a task was in, once it has ended. -/
def recvEnd (t : TaskId) (w : DcWorld) : Option (Outcome (Option Message) Exc) :=
  match w.task t with
  | .running (some (.recv, o)) => some o
  | _ => none

/-- What a step of a task in `recv()` does: it takes an item and ends
the call with it, or it goes on waiting, or it was cancelled. -/
inductive Reads (t : TaskId) (w w' : DcWorld) : Prop
  | took (item : Item) (hi : item ∈ w.dc.recvQueue.items)
      (hh : w'.hist = w.hist ++ [.took t item])
      (ht : w'.task = update w.task t (.running (some (.recv, w.recvOutcome item))))
  | waits (hh : w'.hist = w.hist) (ht : w'.task = update w.task t .inGet)
  | cancelled (hh : w'.hist = w.hist)
      (ht : w'.task = update w.task t (.running (some (.recv, .cancelled))))

/-- What `recv()` does is a read. -/
theorem reads_recv (w : DcWorld) (t : TaskId) : Reads t w (w.recv t) := by
  cases hi : w.dc.recvQueue.items with
  | nil =>
      have hget : w.dc.recvQueue.getNowait = none := Queue.getNowait_eq_none.mpr hi
      refine .waits ?_ ?_
      · unfold recv
        rw [hget]
        exact congrArg Frame.hist (frame_suspend t _ _)
      · unfold recv
        rw [hget]
        exact suspend_task t _ _
  | cons item rest =>
      refine .took item ?_ (recv_takes hi).1 ?_
      · rw [hi]
        exact List.mem_cons_self
      · obtain ⟨item', rest', hi', htask⟩ | htask := recv_task (t := t) w
        · cases hi.symm.trans hi'
          exact htask
        · have hself := (recv_takes (t := t) hi).2
          rw [htask, Function.update_self] at hself
          cases hself

/-- What a reader does when resumed is a read. -/
theorem reads_resume (hin : w.task t = .inGet) (h : w.resume t = some w') : Reads t w w' := by
  cases resume_cases h with
  | openSettled o ht hs => cases hin.symm.trans ht
  | closedSettled call o ht hs => cases hin.symm.trans ht
  | getCancelled ht hm => exact .cancelled rfl rfl
  | getParks ht hm hw hi => exact .waits rfl (by rw [← ht, Function.update_eq_self])
  | getTakes item rest ht hm hw hi =>
      have hmem : item ∈ w.dc.recvQueue.items := by
        rw [hi]
        exact List.mem_cons_self
      have hroom := Queue.full_takeWoken hw (List.ne_nil_of_mem hmem)
      refine .took item hmem (hist_received t item _) ?_
      have htask := received_outcome (t := t) (w := { w with
        dc := { w.dc with recvQueue := w.dc.recvQueue.takeWoken t }
        hist := w.hist ++ [.took t item] }) item hroom
      rw [htask]
      cases item <;> rfl
  | putCancelled ht hm => cases hin.symm.trans ht
  | putRaises q ht hm hq => cases hin.symm.trans ht
  | sendCancelled payload ht hm => cases hin.symm.trans ht
  | sendRaises payload ht hm hw hr => cases hin.symm.trans ht
  | sendEnters payload ht hm hw hr => cases hin.symm.trans ht

/-- A task resumed elsewhere than in a `recv()` is handed no message. -/
theorem resume_elsewhere (hn : NoReinjecting w) (hout : w.task t ≠ .inGet)
    (h : w.resume t = some w') :
    w'.hist = w.hist ∧ ∃ st, w'.task = update w.task t st
      ∧ ∀ m, st ≠ .running (some (.recv, .returned (some m))) := by
  have hend : ∀ (call : Call) (o : Outcome Unit Exc),
      (w.endWait t call (voidOutcome o)).hist = w.hist
        ∧ ∃ st, (w.endWait t call (voidOutcome o)).task = update w.task t st
          ∧ ∀ m, st ≠ .running (some (.recv, .returned (some m))) := by
    intro call o
    cases hm : w.mustCancel t with
    | true =>
        rw [endWait, if_pos hm]
        exact ⟨rfl, _, rfl, fun m => by simp⟩
    | false =>
        rw [endWait, if_neg (Bool.eq_false_iff.mp hm)]
        refine ⟨rfl, _, rfl, fun m => ?_⟩
        cases o <;> simp [voidOutcome]
  cases resume_cases h with
  | openSettled o ht hs => exact hend _ o
  | closedSettled call o ht hs => exact hend call o
  | getCancelled ht hm => exact absurd ht hout
  | getParks ht hm hw hi => exact absurd ht hout
  | getTakes item rest ht hm hw hi => exact absurd ht hout
  | putCancelled ht hm => exact absurd ht (hn t)
  | putRaises q ht hm hq => exact absurd ht (hn t)
  | sendCancelled payload ht hm => exact ⟨rfl, _, rfl, fun m => by simp⟩
  | sendRaises payload ht hm hw hr => exact ⟨rfl, _, rfl, fun m => by simp⟩
  | sendEnters payload ht hm hw hr =>
      cases payload with
      | other name => exact ⟨rfl, _, rfl, fun m => by simp⟩
      | bytesLike data => exact ⟨rfl, _, rfl, fun m => by simp⟩
      | str text => exact ⟨rfl, _, rfl, fun m => by simp⟩

/-- A reader goes on waiting while another task moves. -/
theorem update_waits {v : DcWorld} {st : TaskState} (hu : w.task u ≠ .inGet)
    (hv : v.task = update w.task u st) (ht : w.task t = .inGet) : v.task t = .inGet := by
  have hne : t ≠ u := by
    intro heq
    subst heq
    exact hu ht
  rw [hv, Function.update_of_ne hne]
  exact ht

/-- `wait_open()` moves its own task. -/
theorem task_waitOpen (w : DcWorld) : ∃ st, (w.waitOpen u).task = update w.task u st := by
  unfold waitOpen
  split
  · exact ⟨_, rfl⟩
  · exact ⟨_, suspend_task u w _⟩

/-- A wait for the closing moves its own task. -/
theorem task_awaitClosed (call : Call) (w : DcWorld) :
    ∃ st, (w.awaitClosed call u).task = update w.task u st := by
  unfold awaitClosed
  split
  · exact ⟨_, rfl⟩
  · exact ⟨_, suspend_task u w _⟩

/-- `send()` moves its own task. -/
theorem task_send (payload : Payload) (wait : Bool) (w : DcWorld) :
    ∃ st, (w.send u payload wait).task = update w.task u st := by
  unfold send
  split
  · exact ⟨_, rfl⟩
  · split
    · exact ⟨_, suspend_task u _ _⟩
    · cases payload <;> exact ⟨_, rfl⟩

/-- Who is in a `recv()` stays in it until its own step. -/
theorem waits_apply (hs : SendInv w) (ha : reader? a = none) (h : apply a w = some w')
    (ht : w.task t = .inGet) : w'.task t = .inGet := by
  have hsame : w'.task = w.task → w'.task t = .inGet := fun heq => (congrFun heq t).trans ht
  have hrun : ∀ {u last st}, w.task u = .running last → w'.task = update w.task u st →
      w'.task t = .inGet := by
    intro u last st hl hst
    refine update_waits ?_ hst ht
    rw [hl]
    exact nofun
  cases a with
  | native b => exact hsame (applyNative_task h)
  | sending b =>
      obtain ⟨u, hu, ⟨htask, -⟩ | ⟨-, o, htask⟩⟩ := applySending_cases h
      · exact hsame htask
      · refine update_waits ?_ htask ht
        rw [hs u hu]
        exact nofun
  | loop b =>
      obtain ⟨-, hloop⟩ := apply_loop_cases h
      cases b with
      | dispatch =>
          obtain ⟨ev, rest, -, rfl⟩ := dispatch_cases hloop
          exact hsame (runCallback_task ev _)
      | close =>
          cases hloop
          exact hsame (close_task w)
      | destroy =>
          cases hloop
          exact hsame (destroy_task w)
      | startTeardown =>
          obtain ⟨-, ⟨-, rfl⟩ | ⟨-, rfl⟩⟩ := startTeardown_cases hloop
          · exact hsame (teardownEnd_task w)
          · exact hsame rfl
      | resumeTeardown =>
          obtain ⟨rfl, -⟩ := resumeTeardown_cases hloop
          exact hsame (teardownEnd_task w)
      | setThreshold n =>
          cases hloop
          exact hsame (setThreshold_task n w)
      | spawnTask u =>
          obtain ⟨-, hu, ⟨-, rfl⟩ | ⟨-, rfl⟩⟩ := spawnTask_cases hloop
          · exact hsame rfl
          · refine update_waits (u := u) ?_ rfl ht
            rw [hu]
            exact nofun
      | finish u =>
          obtain ⟨⟨last, hl⟩, rfl⟩ := finish_cases hloop
          exact hrun hl rfl
      | discard u =>
          obtain ⟨-, rfl⟩ := discard_cases hloop
          exact hsame rfl
      | waitOpen u =>
          obtain ⟨rfl, last, hl⟩ := started_eq hloop
          obtain ⟨st, hst⟩ := task_waitOpen (u := u) w
          exact hrun hl hst
      | waitClosed u =>
          obtain ⟨rfl, last, hl⟩ := started_eq hloop
          obtain ⟨st, hst⟩ := task_awaitClosed (u := u) .waitClosed w
          exact hrun hl hst
      | aclose u =>
          obtain ⟨rfl, last, hl⟩ := started_eq hloop
          obtain ⟨st, hst⟩ := task_awaitClosed (u := u) .aclose w.close
          rw [close_task] at hst
          exact hrun hl hst
      | recv u => cases ha
      | send u payload wait =>
          obtain ⟨rfl, last, hl⟩ := started_eq hloop
          obtain ⟨st, hst⟩ := task_send (u := u) payload wait w
          exact hrun hl hst
      | resume u => cases ha
      | cancel u =>
          cases hloop
          exact hsame (cancelTask_task u w)
      | absorb u =>
          obtain ⟨rfl, -⟩ := started_eq hloop
          exact hsame rfl

/-- Nobody else takes an item. -/
theorem takenItems_apply (hn : NoReinjecting w) (ha : reader? a = none)
    (h : apply a w = some w') : w'.takenItems = w.takenItems := by
  show w'.mailbox.taken = w.mailbox.taken
  obtain ⟨-, heq⟩ | ⟨b, hb, hstep⟩ := mailbox_cases hn h
  · rw [heq]
  · obtain rfl | ⟨m, rest, rfl, -, -⟩ | ⟨-, ⟨t, rfl, -⟩ | ⟨t, rfl, -⟩⟩ := mailAction_cases hb
    · have heq : w.mailbox.closeStep = w'.mailbox := Option.some.inj hstep
      exact (congrArg Mailbox.taken heq).symm
    · have heq : w.mailbox.putStep m = w'.mailbox := Option.some.inj hstep
      exact (congrArg Mailbox.taken heq).symm
    · cases ha
    · cases ha

end DcWorld

end AioLibDataChannel
