/-
Who waits in a negotiation call.

A call waits for one of two slots (`Negotiation`), on the future it got
when it started; `Waits` says that future is still pending. The slots
only move forward (`PeerConnection.Later`), so a step adds no waiter but
the one it starts (`waits_apply`), and a callback that settles a slot
leaves nobody waiting for it (`not_waits_of_settles`).
-/
import AioLibDataChannel.PeerConnection.Shutdown

namespace AioLibDataChannel

open Asyncio (Event Future Outcome)
open Function (update)

-- ============================================================ vocabulary

/-- The two slots a negotiation call can wait for. -/
inductive Negotiation
  | localDescription
  | gatheringComplete
deriving DecidableEq, Repr

namespace PeerConnection

/-- The ticket a call gets that starts to wait now. -/
def ticket (pc : PeerConnection) : Negotiation → Nat
  | .localDescription => pc.localDescription.ticket
  | .gatheringComplete => pc.gatheringComplete.ticket

/-- The future with this ticket is done. -/
def settled (pc : PeerConnection) : Negotiation → Nat → Bool
  | .localDescription, k => (pc.localDescription.nth k).done
  | .gatheringComplete, k => (pc.gatheringComplete.nth k).done

/-- Both slots of `pc'` come after those of `pc`. -/
structure Later (pc pc' : PeerConnection) : Prop where
  localDescription : pc.localDescription.Later pc'.localDescription
  gatheringComplete : pc.gatheringComplete.Later pc'.gatheringComplete

namespace Later

variable {pc pc' pc₁ pc₂ pc₃ : PeerConnection}

theorem refl (pc : PeerConnection) : Later pc pc :=
  ⟨.refl _, .refl _⟩

theorem trans (h₁ : Later pc₁ pc₂) (h₂ : Later pc₂ pc₃) : Later pc₁ pc₃ :=
  ⟨h₁.1.trans h₂.1, h₁.2.trans h₂.2⟩

/-- Tickets only go up. -/
theorem ticket_le (h : Later pc pc') (slot : Negotiation) :
    pc.ticket slot ≤ pc'.ticket slot := by
  cases slot with
  | localDescription => exact h.localDescription.ticket
  | gatheringComplete => exact h.gatheringComplete.ticket

/-- A future that was settled stays settled, reset or not. -/
theorem settled_of_settled (h : Later pc pc') {slot : Negotiation} {k : Nat}
    (hk : k ≤ pc.ticket slot) (hs : pc.settled slot k = true) :
    pc'.settled slot k = true := by
  cases slot with
  | localDescription => exact h.localDescription.done k hk hs
  | gatheringComplete => exact h.gatheringComplete.done k hk hs

end Later

/-- A reset of both slots comes later. -/
theorem later_resetBoth (pc : PeerConnection) : Later pc pc.resetBoth :=
  ⟨FutureSlot.later_reset _, FutureSlot.later_reset _⟩

/-- A reset of one slot comes later. -/
theorem later_resetLocal (pc : PeerConnection) : Later pc pc.resetLocal :=
  ⟨FutureSlot.later_reset _, .refl _⟩

/-- A slot that a description settles comes later. -/
theorem later_handleLocalDescription (desc : LocalDescription) (pc : PeerConnection) :
    Later pc (pc.handleLocalDescription desc) :=
  ⟨FutureSlot.later_settle _ _, .refl _⟩

/-- Slots that a closed or failed connection settles come later. -/
theorem later_handleStateChange (state : RTCState) (pc : PeerConnection) :
    Later pc (pc.handleStateChange state) := by
  unfold handleStateChange
  split
  · constructor
    · show pc.localDescription.Later (if pc.localDescription.future.done
        then pc.localDescription else pc.localDescription.fail _)
      split
      · exact .refl _
      · exact FutureSlot.later_settle _ _
    · show pc.gatheringComplete.Later (if pc.gatheringComplete.future.done
        then pc.gatheringComplete else pc.gatheringComplete.set ())
      split
      · exact .refl _
      · exact FutureSlot.later_settle _ _
  · exact ⟨.refl _, .refl _⟩

/-- A slot that the end of gathering settles comes later. -/
theorem later_handleGatheringState (state : GatheringState) (pc : PeerConnection) :
    Later pc (pc.handleGatheringState state) := by
  refine ⟨.refl _, ?_⟩
  show pc.gatheringComplete.Later (if state = .complete
    then pc.gatheringComplete.set () else pc.gatheringComplete)
  split
  · exact FutureSlot.later_settle _ _
  · exact .refl _

end PeerConnection

/-- What a suspended task waits for, and with which ticket. -/
def PcTask.awaits : PcTask → Option (Negotiation × Nat)
  | .awaitingGathering _ ticket => some (.gatheringComplete, ticket)
  | .awaitingLocal ticket => some (.localDescription, ticket)
  | _ => none

/-- The callback settles the slot when it runs. -/
def PcEvent.settles : Negotiation → PcEvent → Bool
  | .localDescription, .localDescription _ => true
  | .gatheringComplete, .gatheringStateChange state => decide (state = .complete)
  | _, .stateChange state => decide (state = .closed ∨ state = .failed)
  | _, _ => false

def PcCallback.settles (slot : Negotiation) : PcCallback → Bool
  | .event e => e.settles slot
  | .destroyDone => false

namespace PcWorld

variable {w w' w₁ w₂ w₃ : PcWorld} {t u : TaskId} {slot : Negotiation}

/-- The task is suspended in a negotiation call on a pending future of
this slot. -/
def Waits (w : PcWorld) (t : TaskId) (slot : Negotiation) : Prop :=
  ∃ k, (w.task t).awaits = some (slot, k) ∧ w.pc.settled slot k = false

/-- No suspended call holds a ticket that was not handed out. -/
def Ticketed (w : PcWorld) : Prop :=
  ∀ t slot k, (w.task t).awaits = some (slot, k) → k ≤ w.pc.ticket slot

-- ========================================================== easing steps

/-- A step that starts no negotiation call. -/
structure Eased (w w' : PcWorld) : Prop where
  later : w.pc.Later w'.pc
  awaits : ∀ t, (w'.task t).awaits = (w.task t).awaits ∨ (w'.task t).awaits = none

namespace Eased

theorem refl (w : PcWorld) : Eased w w where
  later := .refl _
  awaits := fun _ => Or.inl rfl

theorem trans (h₁ : Eased w₁ w₂) (h₂ : Eased w₂ w₃) : Eased w₁ w₃ where
  later := h₁.later.trans h₂.later
  awaits := by
    intro t
    rcases h₂.awaits t with ht | ht
    · rw [ht]
      exact h₁.awaits t
    · exact Or.inr ht

/-- The tasks move no further than to a state outside the calls. -/
theorem of_update {st : PcTask} (hpc : w.pc.Later w'.pc) (hst : st.awaits = none)
    (htask : w'.task = update w.task t st) : Eased w w' where
  later := hpc
  awaits := by
    intro u
    rw [htask]
    by_cases hu : u = t
    · right
      rw [hu, Function.update_self]
      exact hst
    · left
      rw [Function.update_of_ne hu]

/-- A step that moves no task eases. -/
theorem of_same_tasks (hpc : w.pc.Later w'.pc) (htask : w'.task = w.task) :
    Eased w w' where
  later := hpc
  awaits := fun u => Or.inl (by rw [htask])

/-- A step that starts no call hands out no ticket that is not there. -/
theorem ticketed (h : Eased w w') (hw : Ticketed w) : Ticketed w' := by
  intro t slot k hk
  rcases h.awaits t with ht | ht
  · rw [ht] at hk
    exact Nat.le_trans (hw t slot k hk) (h.later.ticket_le slot)
  · rw [ht] at hk
    cases hk

/-- It adds no waiter. -/
theorem waits (h : Eased w w') (hw : Ticketed w) (hwait : Waits w' t slot) :
    Waits w t slot := by
  obtain ⟨k, hk, hs⟩ := hwait
  rcases h.awaits t with ht | ht
  · rw [ht] at hk
    refine ⟨k, hk, ?_⟩
    by_contra hdone
    have hlater := h.later.settled_of_settled (hw t slot k hk)
      ((Bool.not_eq_false _).mp hdone)
    exact absurd (hlater.symm.trans hs) nofun
  · rw [ht] at hk
    cases hk

end Eased

/-- A call that ends waits no more. -/
theorem eased_finishCall (t : TaskId) (call : PcCall) (o : Outcome PcResult Exc)
    (w : PcWorld) : Eased w (w.finishCall t call o) :=
  .of_update (.refl _) rfl rfl

/-- A cancellation that is delivered starts nothing. -/
theorem eased_clearMustCancel (t : TaskId) (w : PcWorld) :
    Eased w (w.clearMustCancel t) :=
  .of_same_tasks (.refl _) rfl

/-- A cancellation moves no task. -/
theorem task_cancelTask (t : TaskId) (w : PcWorld) : (w.cancelTask t).task = w.task := by
  unfold cancelTask
  split
  · rfl
  · rfl
  · split <;> rfl
  · split <;> rfl
  · rfl
  · rfl

/-- A cancelled task cancels the future it awaits. -/
theorem later_cancelTask (t : TaskId) (w : PcWorld) :
    w.pc.Later (w.cancelTask t).pc := by
  unfold cancelTask
  split
  · exact .refl _
  · exact .refl _
  · split
    · exact .refl _
    · exact ⟨.refl _, FutureSlot.later_settle _ _⟩
  · split
    · exact .refl _
    · exact ⟨FutureSlot.later_settle _ _, .refl _⟩
  · exact ⟨.refl _, .refl _⟩
  · exact .refl _

/-- A cancelled task starts nothing. -/
theorem eased_cancelTask (t : TaskId) (w : PcWorld) : Eased w (w.cancelTask t) :=
  .of_same_tasks (later_cancelTask t w) (task_cancelTask t w)

/-- Cancelling several tasks starts nothing. -/
theorem eased_cancelTasks (ts : List TaskId) (w : PcWorld) :
    Eased w (w.cancelTasks ts) := by
  induction ts generalizing w with
  | nil => exact .refl w
  | cons t ts ih => exact (eased_cancelTask t w).trans (ih (w.cancelTask t))

/-- A task that waits for something else has no ticket. -/
theorem eased_suspend {st : PcTask} (t : TaskId) (hst : st.awaits = none)
    (w : PcWorld) : Eased w (w.suspend t st) := by
  have hmove : Eased w { w with task := update w.task t st } :=
    .of_update (.refl _) hst rfl
  unfold suspend
  split
  · exact (hmove.trans (eased_clearMustCancel t _)).trans (eased_cancelTask t _)
  · exact hmove

/-- A wait that ends gives its ticket up. -/
theorem eased_endWait (t : TaskId) (call : PcCall) (o : Outcome PcResult Exc)
    (w : PcWorld) : Eased w (w.endWait t call o) := by
  unfold endWait
  split
  · exact (eased_clearMustCancel t w).trans (eased_finishCall t call _ _)
  · exact eased_finishCall t call o w

/-- A wait for the closed event has none. -/
theorem eased_awaitClosed (call : PcCall) (t : TaskId) (w : PcWorld) :
    Eased w (w.awaitClosed call t) := by
  unfold awaitClosed
  split
  · exact eased_finishCall t call _ w
  · have hpark : Eased w
        { w with pc := { w.pc with closedEvent := w.pc.closedEvent.park t } } :=
      .of_same_tasks ⟨.refl _, .refl _⟩ rfl
    exact hpark.trans (eased_suspend t rfl _)

/-- `close()` cancels, and starts no negotiation. -/
theorem eased_close (w : PcWorld) : Eased w w.close := by
  unfold close
  split
  · exact .refl w
  · have hclose : Eased w { w with pc := { w.pc with closed := true } } :=
      .of_same_tasks ⟨.refl _, .refl _⟩ rfl
    have hcancel := hclose.trans (eased_cancelTasks w.pc.tasks _)
    exact ⟨⟨hcancel.later.1, hcancel.later.2⟩, hcancel.awaits⟩

/-- A resumed call starts none. -/
theorem eased_resume {read : Except Exc (Option String × Option String)}
    (h : w.resume t read = some w') : Eased w w' := by
  cases resume_cases h with
  | gathered call ticket o ht ho => exact eased_endWait t _ _ w
  | described ticket o ht ho => exact eased_endWait t _ _ w
  | waited call ht hw =>
      have hleave : Eased w
          { w with pc := { w.pc with closedEvent := w.pc.closedEvent.leave t } } :=
        .of_same_tasks ⟨.refl _, .refl _⟩ rfl
      exact hleave.trans (eased_endWait t _ _ _)

/-- A dispatch settles futures, and starts none. -/
theorem eased_dispatch (h : w.dispatch = some w') : Eased w w' := by
  unfold dispatch at h
  split at h
  · cases h
  · split at h
    · cases h
      exact .of_same_tasks (PeerConnection.later_handleLocalDescription _ _) rfl
    · cases h
      exact .of_same_tasks (PeerConnection.later_handleStateChange _ _) rfl
    · cases h
      exact .of_same_tasks (PeerConnection.later_handleGatheringState _ _) rfl
    · cases h
      exact .of_same_tasks (.refl _) rfl
    · cases h
      exact .of_same_tasks ⟨.refl _, .refl _⟩ rfl

-- ======================================================= starting a call

/-- The step starts a negotiation call of this task, which will wait for
this slot. -/
inductive Starts (w : PcWorld) : PcAction → TaskId → Negotiation → Prop
  | offer (t : TaskId) (hc : w.pc.closed = false) :
      Starts w (.loop (.createOffer t (.ok ()))) t .gatheringComplete
  | answer (t : TaskId) :
      Starts w (.loop (.createAnswer t (.ok ()))) t .gatheringComplete
  | setLocal (t : TaskId) :
      Starts w (.loop (.setLocalDescription t (.ok ()))) t .localDescription

/-- What such a step does: the task waits with the current ticket, and a
cancellation it was owed has reached the future. -/
structure Opened (w w' : PcWorld) (t : TaskId) (slot : Negotiation) : Prop where
  live : w.pc.native.handle ∉ w.core.deletedPcs
  later : w.pc.Later w'.pc
  awaits : (w'.task t).awaits = some (slot, w'.pc.ticket slot)
  others : ∀ u, u ≠ t → w'.task u = w.task u
  cancelled : w.mustCancel t = true → w'.pc.settled slot (w'.pc.ticket slot) = true

/-- A cancellation hands out no ticket. -/
theorem ticket_cancelTask (t : TaskId) (slot : Negotiation) (w : PcWorld) :
    (w.cancelTask t).pc.ticket slot = w.pc.ticket slot := by
  unfold cancelTask
  split
  · rfl
  · rfl
  · split <;> cases slot <;> rfl
  · split <;> cases slot <;> rfl
  · cases slot <;> rfl
  · rfl

/-- A cancellation settles the future its task waits for. -/
theorem settled_cancelTask (h : (w.task t).awaits = some (slot, w.pc.ticket slot)) :
    (w.cancelTask t).pc.settled slot (w.pc.ticket slot) = true := by
  unfold cancelTask
  cases htask : w.task t with
  | awaitingGathering call k =>
      rw [htask] at h
      obtain ⟨rfl, rfl⟩ := Prod.mk.inj (Option.some.inj h)
      simp only
      split
      next hdone => exact hdone
      next => exact FutureSlot.nth_done_of_done Future.done_cancel _
  | awaitingLocal k =>
      rw [htask] at h
      obtain ⟨rfl, rfl⟩ := Prod.mk.inj (Option.some.inj h)
      simp only
      split
      next hdone => exact hdone
      next => exact FutureSlot.nth_done_of_done Future.done_cancel _
  | _ =>
      rw [htask] at h
      cases h

/-- The task that moved awaits what it moved to. -/
theorem awaits_update {st : PcTask} {k : Nat} (hst : st.awaits = some (slot, k)) :
    (update w.task t st t).awaits = some (slot, k) := by
  rw [Function.update_self]
  exact hst

/-- A task that suspends on a fresh slot has its ticket. -/
theorem opened_suspend {pc : PeerConnection} {st : PcTask}
    (hlive : w.pc.native.handle ∉ w.core.deletedPcs) (hpc : w.pc.Later pc)
    (hst : st.awaits = some (slot, pc.ticket slot)) :
    Opened w (({ w with pc := pc } : PcWorld).suspend t st) t slot := by
  unfold suspend
  split
  next hm =>
    -- the cancellation owed to the task reaches the future it now awaits
    refine ⟨hlive, ?_, ?_, ?_, ?_⟩
    · exact hpc.trans (later_cancelTask t
        (clearMustCancel t { w with pc := pc, task := update w.task t st }))
    · rw [task_cancelTask, ticket_cancelTask]
      exact awaits_update hst
    · intro u hu
      rw [task_cancelTask]
      exact Function.update_of_ne hu st w.task
    · intro _
      rw [ticket_cancelTask]
      apply settled_cancelTask
      exact awaits_update hst
  next hm =>
    refine ⟨hlive, hpc, awaits_update hst, ?_, fun htrue => absurd htrue hm⟩
    exact fun u hu => Function.update_of_ne hu st w.task

/-- `create_offer()` and `create_answer()` are refused by the native
layer, or wait for the gathering. -/
theorem createDescription_cases {call : PcCall} {answer : Except Exc Unit}
    (h : w.createDescription t call answer = some w') :
    Eased w w' ∨ (answer = .ok () ∧ Opened w w' t .gatheringComplete) := by
  obtain ⟨hans, ⟨e, -, rfl⟩ | ⟨rfl, rfl⟩⟩ := createDescription_eq h
  · exact Or.inl (.of_update (PeerConnection.later_resetBoth w.pc) rfl rfl)
  · exact Or.inr ⟨rfl, opened_suspend (of_decide_eq_true hans)
      (PeerConnection.later_resetBoth w.pc) rfl⟩

/-- A closed connection refuses `create_offer()` before that. -/
theorem createOffer_cases {answer : Except Exc Unit}
    (h : w.createOffer t answer = some w') :
    Eased w w' ∨ (w.pc.closed = false ∧ answer = .ok ()
      ∧ Opened w w' t .gatheringComplete) := by
  unfold createOffer at h
  split at h
  next =>
    cases h
    exact Or.inl (eased_finishCall t _ _ w)
  next hc =>
    rcases createDescription_cases h with heased | hopen
    · exact Or.inl heased
    · exact Or.inr ⟨Bool.eq_false_iff.mpr hc, hopen⟩

/-- `set_local_description()` is refused, or waits for the description. -/
theorem setLocalDescription_cases {answer : Except Exc Unit}
    (h : w.setLocalDescription t answer = some w') :
    Eased w w' ∨ (answer = .ok () ∧ Opened w w' t .localDescription) := by
  obtain ⟨hans, ⟨e, -, rfl⟩ | ⟨rfl, rfl⟩⟩ := setLocalDescription_eq h
  · exact Or.inl (.of_update (PeerConnection.later_resetLocal w.pc) rfl rfl)
  · exact Or.inr ⟨rfl, opened_suspend (of_decide_eq_true hans)
      (PeerConnection.later_resetLocal w.pc) rfl⟩

/-- The native layer starts no call. -/
theorem eased_native {a : PcNative} (h : applyNative a w = some w') : Eased w w' := by
  obtain ⟨core, native, teardown, issued, inFlight, ready, rfl⟩ := applyNative_eq h
  exact .of_same_tasks ⟨.refl _, .refl _⟩ rfl

/-- The walk over the channels starts no call. -/
theorem eased_walkChannels (w : PcWorld) : Eased w w.walkChannels :=
  .of_same_tasks ⟨.refl _, .refl _⟩ rfl

/-- The teardown starts no call. -/
theorem eased_teardown {a : PcLoop} (h : applyLoop a w = some w')
    (ha : a = .startTeardown ∨ a = .resumeTeardown ∨ a = .endTeardown) :
    Eased w w' := by
  rcases ha with rfl | rfl | rfl
  · simp only [applyLoop, startTeardown] at h
    split at h
    · split at h
      · cases h
        exact eased_walkChannels w
      · cases h
        exact .of_same_tasks ⟨.refl _, .refl _⟩ rfl
    · cases h
  · simp only [applyLoop, resumeTeardown] at h
    split at h
    · split at h
      · cases h
        exact eased_walkChannels w
      · cases h
    · cases h
  · simp only [applyLoop, endTeardown] at h
    split at h
    · cases h
      exact .of_same_tasks ⟨.refl _, .refl _⟩ rfl
    · cases h

/-- `create_data_channel()` is no negotiation. -/
theorem eased_createDataChannel {answer : Except Exc Int}
    (h : w.createDataChannel t answer = some w') : Eased w w' := by
  unfold createDataChannel at h
  split at h
  · cases answer with
    | error e =>
        cases h
        exact eased_finishCall t _ _ w
    | ok handle =>
        simp only at h
        split at h
        · cases h
        · cases h
          exact .of_update (.refl _) rfl rfl
  · cases h

/-- A loop step eases, or starts one call. -/
theorem negotiation_loop {a : PcLoop} (h : applyLoop a w = some w') :
    Eased w w' ∨ ∃ t slot, Starts w (.loop a) t slot ∧ Opened w w' t slot := by
  cases a with
  | dispatch => exact Or.inl (eased_dispatch h)
  | close =>
      cases h
      exact Or.inl (eased_close w)
  | startTeardown => exact Or.inl (eased_teardown h (Or.inl rfl))
  | resumeTeardown => exact Or.inl (eased_teardown h (Or.inr (Or.inl rfl)))
  | endTeardown => exact Or.inl (eased_teardown h (Or.inr (Or.inr rfl)))
  | spawnTask n =>
      simp only [applyLoop, spawnTask] at h
      split at h
      · split at h
        · cases h
          exact Or.inl (.refl _)
        · cases h
          exact Or.inl (.of_update ⟨.refl _, .refl _⟩ rfl rfl)
      · cases h
  | finish n =>
      simp only [applyLoop, finish] at h
      split at h
      · cases h
        exact Or.inl (.of_update (.refl _) rfl rfl)
      · cases h
  | discard u =>
      simp only [applyLoop, discard] at h
      split at h
      · cases h
        exact Or.inl (.of_same_tasks ⟨.refl _, .refl _⟩ rfl)
      · cases h
  | createOffer u answer =>
      rcases createOffer_cases (started_eq h).1 with heased | ⟨hc, rfl, hopen⟩
      · exact Or.inl heased
      · exact Or.inr ⟨u, _, .offer u hc, hopen⟩
  | createAnswer u answer =>
      rcases createDescription_cases (started_eq h).1 with heased | ⟨rfl, hopen⟩
      · exact Or.inl heased
      · exact Or.inr ⟨u, _, .answer u, hopen⟩
  | setLocalDescription u answer =>
      rcases setLocalDescription_cases (started_eq h).1 with heased | ⟨rfl, hopen⟩
      · exact Or.inl heased
      · exact Or.inr ⟨u, _, .setLocal u, hopen⟩
  | createDataChannel u answer =>
      exact Or.inl (eased_createDataChannel (started_eq h).1)
  | destroyChannel n =>
      simp only [applyLoop, destroyChannel] at h
      split at h
      · cases h
      · cases h
        exact Or.inl (.of_same_tasks (.refl _) rfl)
  | aclose u =>
      cases (started_eq h).1
      exact Or.inl ((eased_close w).trans (eased_awaitClosed _ u _))
  | waitClosed u =>
      cases (started_eq h).1
      exact Or.inl (eased_awaitClosed _ u w)
  | resume u read => exact Or.inl (eased_resume h)
  | cancel u =>
      cases h
      exact Or.inl (eased_cancelTask u w)
  | absorb u =>
      cases (started_eq h).1
      exact Or.inl (eased_clearMustCancel u w)

/-- A step starts a negotiation call or starts none. -/
theorem negotiation_cases {a : PcAction} (h : apply a w = some w') :
    Eased w w' ∨ ∃ t slot, Starts w a t slot ∧ Opened w w' t slot := by
  cases a with
  | native a => exact Or.inl (eased_native h)
  | loop a => exact negotiation_loop h

-- ============================================================= the waiters

/-- At the start nobody has a ticket. -/
theorem ticketed_init (handle : Int) (core : Core) : Ticketed (init handle core) := by
  intro t slot k hk
  cases t <;> cases hk

/-- Every step keeps the tickets among those handed out. -/
theorem ticketed_apply {a : PcAction} (hw : Ticketed w) (h : apply a w = some w') :
    Ticketed w' := by
  rcases negotiation_cases h with heased | ⟨t, slot, -, hopen⟩
  · exact heased.ticketed hw
  · intro u slot' k hk
    by_cases hu : u = t
    · rw [hu, hopen.awaits] at hk
      obtain ⟨rfl, rfl⟩ := Prod.mk.inj (Option.some.inj hk)
      exact Nat.le_refl _
    · rw [hopen.others u hu] at hk
      exact Nat.le_trans (hw u slot' k hk) (hopen.later.ticket_le slot')

/-- A step adds no waiter but the one it starts, and that one only on a
live handle and without a cancellation owed to it. -/
theorem waits_apply {a : PcAction} (hw : Ticketed w) (h : apply a w = some w')
    (hwait : Waits w' u slot) :
    Waits w u slot ∨ (Starts w a u slot ∧ w.pc.native.handle ∉ w.core.deletedPcs
      ∧ w.mustCancel u = false) := by
  rcases negotiation_cases h with heased | ⟨t, slot', hstarts, hopen⟩
  · exact Or.inl (heased.waits hw hwait)
  · obtain ⟨k, hk, hs⟩ := hwait
    by_cases hu : u = t
    · rw [hu, hopen.awaits] at hk
      obtain ⟨rfl, rfl⟩ := Prod.mk.inj (Option.some.inj hk)
      refine Or.inr ⟨hu ▸ hstarts, hopen.live, ?_⟩
      rw [hu, ← Bool.not_eq_true]
      exact fun hm => absurd ((hopen.cancelled hm).symm.trans hs) nofun
    · rw [hopen.others u hu] at hk
      refine Or.inl ⟨k, hk, ?_⟩
      rw [← Bool.not_eq_true]
      intro hdone
      have hlater := hopen.later.settled_of_settled (hw u slot k hk) hdone
      exact absurd (hlater.symm.trans hs) nofun

/-- A callback that settles a slot settles it for every ticket. -/
theorem settled_of_settles {e : PcEvent} {rest : List PcCallback}
    (hr : w.ready = .event e :: rest) (hs : e.settles slot = true)
    (h : w.dispatch = some w') (k : Nat) : w'.pc.settled slot k = true := by
  simp only [dispatch, hr] at h
  cases e with
  | localDescription desc =>
      cases h
      cases slot with
      | localDescription => exact FutureSlot.nth_done_of_done Future.done_settle k
      | gatheringComplete => cases hs
  | gatheringStateChange state =>
      cases h
      cases slot with
      | localDescription => cases hs
      | gatheringComplete =>
          apply FutureSlot.nth_done_of_done
          rw [PeerConnection.handleGatheringState, if_pos (of_decide_eq_true hs)]
          exact Future.done_settle
  | stateChange state =>
      cases h
      have hstate : state = .closed ∨ state = .failed := by
        cases slot <;> exact of_decide_eq_true hs
      rw [PeerConnection.handleStateChange, if_pos hstate]
      cases slot with
      | localDescription =>
          apply FutureSlot.nth_done_of_done
          simp only
          split
          next hdone => exact hdone
          next => exact Future.done_settle
      | gatheringComplete =>
          apply FutureSlot.nth_done_of_done
          simp only
          split
          next hdone => exact hdone
          next => exact Future.done_settle
  | dataChannel handle => cases slot <;> cases hs

/-- So nobody is left waiting for it. -/
theorem not_waits_of_settles {e : PcEvent} {rest : List PcCallback}
    (hr : w.ready = .event e :: rest) (hs : e.settles slot = true)
    (h : w.dispatch = some w') : ¬ Waits w' t slot := by
  intro hex
  obtain ⟨k, -, hk⟩ := hex
  exact absurd ((settled_of_settles hr hs h k).symm.trans hk) nofun

/-- Both slots only move forward. -/
theorem later_apply {a : PcAction} (h : apply a w = some w') : w.pc.Later w'.pc := by
  rcases negotiation_cases h with heased | ⟨t, slot, -, hopen⟩
  · exact heased.later
  · exact hopen.later

/-- A call that is suspended was, or is the one the step starts. -/
theorem awaits_apply {a : PcAction} {k : Nat} (h : apply a w = some w')
    (hk : (w'.task t).awaits = some (slot, k)) :
    (w.task t).awaits = some (slot, k) ∨ Starts w a t slot := by
  rcases negotiation_cases h with heased | ⟨u, slot', hstarts, hopen⟩
  · rcases heased.awaits t with ht | ht
    · exact Or.inl (ht ▸ hk)
    · rw [ht] at hk
      cases hk
  · by_cases htu : t = u
    · subst htu
      rw [hopen.awaits] at hk
      obtain ⟨rfl, -⟩ := Prod.mk.inj (Option.some.inj hk)
      exact Or.inr hstarts
    · exact Or.inl (hopen.others t htu ▸ hk)

end PcWorld

end AioLibDataChannel
