/-
What one cancelled waiter does to the others.

`WaitersIsolated` is what a waiter may expect whoever else is
cancelled: the slots hold what the history says, so a task suspended on
one resumes with that outcome, and a call made later returns with it.

It does not hold of every run. A cancellation that reaches a pending
slot is shared by all present and later waiters, for good: the slot
ignores the opening or the closing that follows. `waitersIsolated_iff`
says these are exactly the runs in which it fails; `slot_cancelled` is
one with two tasks in `wait_open()` and a timeout for the first.
-/
import AioLibDataChannel.DataChannel.Slots

namespace AioLibDataChannel

open Asyncio (Event Future Outcome Queue)
open Function (update)
open Transition (exec)

/-- The calls that wait on a slot. -/
inductive Wait
  | waitOpen
  | waitClosed
  | aclose
deriving DecidableEq, Repr

namespace Wait

def slot : Wait → SlotName
  | waitOpen => .opened
  | waitClosed => .closed
  | aclose => .closed

def call : Wait → Call
  | waitOpen => .waitOpen
  | waitClosed => .waitClosed
  | aclose => .aclose

/-- Where the call is suspended. -/
def state : Wait → TaskState
  | waitOpen => .awaitingOpen
  | waitClosed => .awaitingClosed .waitClosed
  | aclose => .awaitingClosed .aclose

/-- The step that makes the call. -/
def start (t : TaskId) : Wait → DcAction
  | waitOpen => .loop (.waitOpen t)
  | waitClosed => .loop (.waitClosed t)
  | aclose => .loop (.aclose t)

end Wait

namespace DcWorld

variable {w w' : DcWorld} {t : TaskId} {s : SlotName}

/-- What the waiters of a channel may expect, whoever else was
cancelled. -/
structure WaitersIsolated (w : DcWorld) : Prop where
  held : ∀ s, w.slot s = slotOutcome s w.hist
  uncancelled : ∀ s, w.slot s ≠ .settled .cancelled
  resumed : ∀ (x : Wait) t o, w.position = .idle → w.task t = x.state →
    w.mustCancel t = false → slotOutcome x.slot w.hist = .settled o →
    ∃ w', apply (.loop (.resume t)) w = some w'
      ∧ w'.task t = .running (some (x.call, voidOutcome o))
  called : ∀ (x : Wait) t last o, w.position = .idle → w.task t = .running last →
    slotOutcome x.slot w.hist = .settled o →
    ∃ w', apply (x.start t) w = some w'
      ∧ w'.task t = .running (some (x.call, voidOutcome o))

/-- The step carries no cancellation to a slot that is still pending: it
does not cancel a task suspended there, directly or as one of the tasks
`close()` cancels, and does not let a task that owes a cancellation
start to wait there. -/
def SparesSlots (a : DcAction) (w : DcWorld) : Prop :=
  ∀ s, Reaches s a w = true → (w.slot s).done = true

-- ========================================================== the outcomes

/-- A wait that is not cancelled ends with what it waited for. -/
theorem endWait_task_of_not_owed {call : Call} {o : Outcome (Option Message) Exc}
    (hm : w.mustCancel t = false) :
    (w.endWait t call o).task t = .running (some (call, o)) := by
  rw [endWait, if_neg (Bool.eq_false_iff.mp hm)]
  exact Function.update_self t _ w.task

/-- A waiter that was not cancelled resumes with what the slot holds. -/
theorem resume_wait (x : Wait) {o : Outcome Unit Exc} (hidle : w.position = .idle)
    (ht : w.task t = x.state) (hm : w.mustCancel t = false)
    (ho : w.slot x.slot = .settled o) :
    ∃ w', apply (.loop (.resume t)) w = some w'
      ∧ w'.task t = .running (some (x.call, voidOutcome o)) := by
  have hres : w.resume t = some (w.endWait t x.call (voidOutcome o)) := by
    unfold resume
    cases x with
    | waitOpen =>
        have hf : w.dc.openSlot.future = .settled o := ho
        rw [ht]
        simp only [Wait.state, hf]
        rfl
    | waitClosed =>
        have hf : w.dc.closedSlot.future = .settled o := ho
        rw [ht]
        simp only [Wait.state, hf]
        rfl
    | aclose =>
        have hf : w.dc.closedSlot.future = .settled o := ho
        rw [ht]
        simp only [Wait.state, hf]
        rfl
  refine ⟨_, ?_, endWait_task_of_not_owed hm⟩
  show (if w.position = .idle then w.resume t else none) = _
  rw [if_pos hidle, hres]

/-- `wait_open()` on a settled slot does not wait. -/
theorem waitOpen_settled {o : Outcome Unit Exc}
    (ho : w.dc.openSlot.future = .settled o) :
    w.waitOpen t = w.finishCall t .waitOpen (voidOutcome o) := by
  unfold waitOpen
  rw [ho]

/-- A wait for the closing on a settled slot does not wait. -/
theorem awaitClosed_settled {call : Call} {o : Outcome Unit Exc}
    (ho : w.dc.closedSlot.future = .settled o) :
    w.awaitClosed call t = w.finishCall t call (voidOutcome o) := by
  unfold awaitClosed
  rw [ho]

/-- `close()` leaves a settled slot alone, whomever it cancels. -/
theorem slot_close_settled {o : Outcome Unit Exc} (ho : w.slot s = .settled o) :
    w.close.slot s = .settled o := by
  rw [slot_close, ho]
  split <;> rfl

/-- A call made once the slot is settled returns at once with what it
holds. -/
theorem start_wait (x : Wait) {o : Outcome Unit Exc}
    {last : Option (Call × Outcome (Option Message) Exc)}
    (hidle : w.position = .idle) (hl : w.task t = .running last)
    (ho : w.slot x.slot = .settled o) :
    ∃ w', apply (x.start t) w = some w'
      ∧ w'.task t = .running (some (x.call, voidOutcome o)) := by
  have hstart : ∀ v, w.started t v = some v := by
    intro v
    unfold started
    rw [hl]
  cases x with
  | waitOpen =>
      refine ⟨_, (if_pos hidle).trans (hstart _), ?_⟩
      rw [waitOpen_settled ho]
      exact Function.update_self t _ w.task
  | waitClosed =>
      refine ⟨_, (if_pos hidle).trans (hstart _), ?_⟩
      rw [awaitClosed_settled ho]
      exact Function.update_self t _ w.task
  | aclose =>
      refine ⟨_, (if_pos hidle).trans (hstart _), ?_⟩
      have hclosed : w.close.slot .closed = .settled o := slot_close_settled ho
      unfold aclose
      rw [awaitClosed_settled hclosed]
      exact Function.update_self t _ w.close.task

/-- Slots that hold what the history says give every waiter its due. -/
theorem WaitersIsolated.of_held (hP : ∀ s, w.slot s = slotOutcome s w.hist) :
    WaitersIsolated w where
  held := hP
  uncancelled := by
    intro s
    rw [hP s]
    exact slotOutcome_ne_cancelled s w.hist
  resumed := fun x _ _ hidle ht hm ho =>
    resume_wait x hidle ht hm ((hP x.slot).trans ho)
  called := fun x _ _ _ hidle hl ho =>
    start_wait x hidle hl ((hP x.slot).trans ho)

-- ================================================================== runs

/-- A step that carries a cancellation to a slot logs nothing about
it. -/
theorem reaches_hist {a : DcAction} (hr : Reaches s a w = true)
    (h : apply a w = some w') : slotOutcome s w'.hist = slotOutcome s w.hist := by
  have hclose : slotOutcome s w.close.hist = slotOutcome s w.hist := by
    rcases hist_close w with hh | hh
    · rw [hh]
    · rw [hh]
      exact slotOutcome_append_none (by cases s <;> rfl)
  cases a with
  | native a => cases hr
  | sending a => cases hr
  | loop a =>
      obtain ⟨-, hloop⟩ := apply_loop_cases h
      cases a with
      | cancel t =>
          cases hloop
          exact congrArg (slotOutcome s ∘ Frame.hist) (frame_cancelTask t w)
      | waitOpen t =>
          obtain ⟨rfl, -⟩ := started_eq hloop
          exact congrArg (slotOutcome s ∘ Frame.hist) (frame_waitOpen t w)
      | waitClosed t =>
          obtain ⟨rfl, -⟩ := started_eq hloop
          exact congrArg (slotOutcome s ∘ Frame.hist) (frame_awaitClosed t w .waitClosed)
      | close =>
          cases hloop
          exact hclose
      | aclose t =>
          obtain ⟨rfl, -⟩ := started_eq hloop
          exact (congrArg (slotOutcome s ∘ Frame.hist)
            (frame_awaitClosed t w.close .aclose)).trans hclose
      | _ => cases hr

/-- A step keeps the slots with their history exactly if it spares
them. -/
theorem isolated_step_iff {a : DcAction} (hlog : ClosedLogged w)
    (hP : ∀ s, w.slot s = slotOutcome s w.hist) (h : apply a w = some w') :
    (∀ s, w'.slot s = slotOutcome s w'.hist) ↔ SparesSlots a w := by
  constructor
  · intro hP' s hr
    have hd := (slot_step_iff hlog hP h).mp (hP' s) hr
    rw [reaches_hist hr h, ← hP s] at hd
    exact hd
  · intro hs s
    refine (slot_step_iff hlog hP h).mpr fun hr => ?_
    rw [reaches_hist hr h, ← hP s]
    exact hs s hr

section Init

variable (handle : Int) (recvBuffer : Nat) (native : NativeChannel)
  (fired : List DcEvent) (core : Core)

/-- The slots of a new channel are what its birth says. -/
theorem slot_init (s : SlotName) :
    (init handle recvBuffer native fired core).slot s
      = slotOutcome s (init handle recvBuffer native fired core).hist := by
  obtain ⟨isOpen, isClosed, amount, threshold⟩ := native
  cases s <;> cases isOpen <;> cases isClosed <;> rfl

/-- In a completed run every waiter gets its due throughout exactly when
no step of it carries a cancellation to a pending slot. -/
theorem waitersIsolated_iff {acts : List DcAction} {v : DcWorld}
    (hrun : exec apply (init handle recvBuffer native fired core) acts = some v) :
    (∀ w, Transition.Visits apply (init handle recvBuffer native fired core) acts w →
        WaitersIsolated w) ↔
      ∀ a w, Transition.Takes apply (init handle recvBuffer native fired core) acts
        a w → SparesSlots a w := by
  have hlog : ClosedLogged (init handle recvBuffer native fired core) := nofun
  have hexact := Transition.visits_iff_takes
    (P := fun w => ∀ s, w.slot s = slotOutcome s w.hist) (I := ClosedLogged) hrun
    (slot_init handle recvBuffer native fired core) hlog closedLogged_apply
    isolated_step_iff
  rw [← hexact]
  exact ⟨fun hi w hw => (hi w hw).held, fun hP w hw => .of_held (hP w hw)⟩

end Init

-- ======================================================= the failing runs

/-- A channel that is still connecting. -/
def connectingNative : NativeChannel where
  isOpen := false
  isClosed := false
  bufferedAmount := 0
  threshold := 0

/-- Two tasks wait for the channel to open, and the first one times
out. -/
def timeoutRun : List DcAction :=
  [.loop (.waitOpen (.user 0)), .loop (.waitOpen (.user 1)),
    .loop (.cancel (.user 0)), .loop (.resume (.user 0))]

/-- The channel opens after `timeoutRun`, and the second task, which
nobody cancelled, gets a cancellation all the same. -/
theorem slot_cancelled :
    ∃ w, exec apply (init 1 1 connectingNative [] emptyCore)
        (timeoutRun ++ [.native (.fire .opened), .loop .dispatch,
          .loop (.resume (.user 1))]) = some w
      ∧ DcObs.opened ∈ w.hist ∧ w.slot .opened = .settled .cancelled
      ∧ w.mustCancel (.user 1) = false
      ∧ w.task (.user 1) = .running (some (.waitOpen, .cancelled)) := by
  refine ⟨_, rfl, ?_, rfl, rfl, rfl⟩
  decide

/-- `waitersIsolated_iff` at `timeoutRun`, which breaks both sides at
its third step. -/
theorem waitersIsolated_iff_timeoutRun :
    (∀ w, Transition.Visits apply (init 1 1 connectingNative [] emptyCore)
        timeoutRun w → WaitersIsolated w) ↔
      ∀ a w, Transition.Takes apply (init 1 1 connectingNative [] emptyCore)
        timeoutRun a w → SparesSlots a w :=
  waitersIsolated_iff 1 1 connectingNative [] emptyCore (v := _) rfl

end DcWorld

end AioLibDataChannel
