/-
Where the result of a negotiation call comes from.

A call returns what its future holds, and only a callback puts a result
there (`Silent`): for `gatheringComplete` the report that gathering is
complete, and the one that the connection is closed or failed; for
`localDescription` a description. Which of them it was is for the
modules that use this one.

A call that still waits has no cancellation owed to it (`OwedInv`): one
that reached it before it suspended, or since, has settled its future.
-/
import AioLibDataChannel.PeerConnection.Tasks

namespace AioLibDataChannel

open Asyncio (Event Future Outcome)
open Function (update)

namespace PcWorld

variable {w w' w₁ w₂ : PcWorld} {t u : TaskId}

-- ============================================================ silent steps

/-- A step that puts no result into a slot. -/
structure Silent (w w' : PcWorld) : Prop where
  localDescription : w.pc.localDescription.Silent w'.pc.localDescription
  gatheringComplete : w.pc.gatheringComplete.Silent w'.pc.gatheringComplete

/-- The step touches neither slot. -/
theorem Silent.of_eq (hlocal : w'.pc.localDescription = w.pc.localDescription)
    (hgathering : w'.pc.gatheringComplete = w.pc.gatheringComplete) : Silent w w' where
  localDescription := by
    rw [hlocal]
    exact .refl _
  gatheringComplete := by
    rw [hgathering]
    exact .refl _

/-- Two silent steps are silent. -/
theorem composes_silent : Composes Silent where
  trans := fun h₁ h₂ => ⟨h₁.1.trans h₂.1, h₁.2.trans h₂.2⟩
  outside := fun h => .of_eq (congrArg _ h) (congrArg _ h)
  inside := fun _ _ _ _ => .of_eq rfl rfl
  cancelGathering := fun _ => ⟨.refl _, FutureSlot.silent_cancel _⟩
  cancelLocal := fun _ => ⟨FutureSlot.silent_cancel _, .refl _⟩
  resetBoth := fun _ => ⟨FutureSlot.silent_reset _, FutureSlot.silent_reset _⟩
  resetLocal := fun _ => ⟨FutureSlot.silent_reset _, .refl _⟩
  park := fun _ _ => .of_eq rfl rfl
  leave := fun _ _ => .of_eq rfl rfl
  set := fun _ => .of_eq rfl rfl

/-- Only a callback puts a result into a slot. -/
theorem silent_apply {a : PcAction} (h : apply a w = some w') :
    Silent w w' ∨ (a = .loop .dispatch ∧ ∃ e rest, w.ready = .event e :: rest) := by
  rcases composes_silent.apply h with hs | hd | ⟨v, -, rfl⟩ | ⟨n, -, -, rfl⟩
  · exact Or.inl hs
  · exact Or.inr hd
  · exact Or.inl (.of_eq rfl rfl)
  · exact Or.inl (.of_eq rfl rfl)

/-- A future of `gatheringComplete` comes to hold a result in two ways. -/
theorem gathering_result {a : PcAction} {k : Nat} (h : apply a w = some w')
    (hk : w'.pc.gatheringComplete.nth k = .settled (.returned ())) :
    w.pc.gatheringComplete.nth k = .settled (.returned ())
      ∨ (a = .loop .dispatch ∧ w.pc.gatheringComplete.future = .pending
        ∧ w.pc.gatheringComplete.ticket ≤ k ∧ ∃ e rest, w.ready = .event e :: rest
          ∧ e.settles .gatheringComplete = true) := by
  rcases silent_apply h with hs | ⟨rfl, e, rest, hr⟩
  · exact Or.inl (hs.gatheringComplete k () hk)
  · simp only [apply, applyLoop, dispatch, hr] at h
    cases e with
    | localDescription desc =>
        cases h
        exact Or.inl hk
    | dataChannel handle =>
        cases h
        exact Or.inl hk
    | gatheringStateChange state =>
        cases h
        by_cases hstate : state = .complete
        · rw [PeerConnection.handleGatheringState, if_pos hstate] at hk
          rcases FutureSlot.nth_settle hk with hold | ⟨hp, hle, -⟩
          · exact Or.inl hold
          · exact Or.inr ⟨rfl, hp, hle, _, rest, hr, decide_eq_true hstate⟩
        · rw [PeerConnection.handleGatheringState, if_neg hstate] at hk
          exact Or.inl hk
    | stateChange state =>
        cases h
        by_cases hstate : state = .closed ∨ state = .failed
        · rw [PeerConnection.handleStateChange, if_pos hstate] at hk
          simp only at hk
          split at hk
          · exact Or.inl hk
          · rcases FutureSlot.nth_settle hk with hold | ⟨hp, hle, -⟩
            · exact Or.inl hold
            · exact Or.inr ⟨rfl, hp, hle, _, rest, hr, decide_eq_true hstate⟩
        · rw [PeerConnection.handleStateChange, if_neg hstate] at hk
          exact Or.inl hk

/-- A future of `localDescription` comes to hold a description from its
own callback. -/
theorem local_result {a : PcAction} {k : Nat} {desc : LocalDescription}
    (h : apply a w = some w')
    (hk : w'.pc.localDescription.nth k = .settled (.returned desc)) :
    w.pc.localDescription.nth k = .settled (.returned desc)
      ∨ (a = .loop .dispatch ∧ w.pc.localDescription.future = .pending
        ∧ w.pc.localDescription.ticket ≤ k
        ∧ ∃ rest, w.ready = .event (.localDescription desc) :: rest) := by
  rcases silent_apply h with hs | ⟨rfl, e, rest, hr⟩
  · exact Or.inl (hs.localDescription k desc hk)
  · simp only [apply, applyLoop, dispatch, hr] at h
    cases e with
    | localDescription desc' =>
        cases h
        rcases FutureSlot.nth_settle hk with hold | ⟨hp, hle, heq⟩
        · exact Or.inl hold
        · cases heq
          exact Or.inr ⟨rfl, hp, hle, rest, hr⟩
    | dataChannel handle =>
        cases h
        exact Or.inl hk
    | gatheringStateChange state =>
        cases h
        exact Or.inl hk
    | stateChange state =>
        cases h
        by_cases hstate : state = .closed ∨ state = .failed
        · rw [PeerConnection.handleStateChange, if_pos hstate] at hk
          simp only at hk
          split at hk
          · exact Or.inl hk
          · exact Or.inl (FutureSlot.silent_fail _ _ k desc hk)
        · rw [PeerConnection.handleStateChange, if_neg hstate] at hk
          exact Or.inl hk

-- =========================================================== a call that starts

/-- A gathering call starts with no result. -/
theorem fresh_gathering {a : PcAction} {k : Nat} (hs : Starts w a t .gatheringComplete)
    (h : apply a w = some w') (hk : (w'.task t).awaits = some (.gatheringComplete, k)) :
    w'.pc.gatheringComplete.nth k ≠ .settled (.returned ()) := by
  have hfresh : ∀ call, w' = ({ w with pc := w.pc.resetBoth } : PcWorld).suspend t
      (.awaitingGathering call w.pc.resetBoth.gatheringComplete.ticket) →
      w'.pc.gatheringComplete.nth k ≠ .settled (.returned ()) := by
    intro call heq hres
    subst heq
    rw [task_suspend, Function.update_self] at hk
    obtain ⟨-, rfl⟩ := Prod.mk.inj (Option.some.inj hk)
    have hold := (composes_silent.suspend t _ _).gatheringComplete _ () hres
    rw [FutureSlot.nth_of_ticket_le (Nat.le_refl _)] at hold
    cases hold
  have hcreate : ∀ call, w.createDescription t call (.ok ()) = some w' →
      w'.pc.gatheringComplete.nth k ≠ .settled (.returned ()) := by
    intro call hcall
    obtain ⟨-, ⟨e, he, -⟩ | ⟨-, heq⟩⟩ := createDescription_eq hcall
    · cases he
    · exact hfresh call heq
  cases hs with
  | offer _ hc =>
      have hcall := (started_eq h).1
      rw [createOffer, if_neg (Bool.eq_false_iff.mp hc)] at hcall
      exact hcreate _ hcall
  | answer _ => exact hcreate _ (started_eq h).1

/-- So does `set_local_description`. -/
theorem fresh_local {a : PcAction} {k : Nat} {desc : LocalDescription}
    (hs : Starts w a t .localDescription) (h : apply a w = some w')
    (hk : (w'.task t).awaits = some (.localDescription, k)) :
    w'.pc.localDescription.nth k ≠ .settled (.returned desc) := by
  cases hs with
  | setLocal _ =>
      have hcall := (started_eq h).1
      obtain ⟨-, ⟨e, he, -⟩ | ⟨-, rfl⟩⟩ := setLocalDescription_eq hcall
      · cases he
      · intro hres
        rw [task_suspend, Function.update_self] at hk
        obtain ⟨-, rfl⟩ := Prod.mk.inj (Option.some.inj hk)
        have hold := (composes_silent.suspend t _ _).localDescription _ desc hres
        rw [FutureSlot.nth_of_ticket_le (Nat.le_refl _)] at hold
        cases hold

-- ======================================================= what a call returns

/-- A gathering call returns what it reads, past a result. -/
theorem resume_gathering {call : PcCall} {k : Nat} {r : PcResult}
    {read : Except Exc (Option String × Option String)}
    (ht : w.task t = .awaitingGathering call k) (h : w.resume t read = some w')
    (hr : w'.task t = .running (some (call, .returned r))) :
    w.pc.gatheringComplete.nth k = .settled (.returned ())
      ∧ readDescription call read = .returned r := by
  simp only [resume, ht] at h
  split at h
  next o ho =>
    cases h
    obtain ⟨o', htask, ho'⟩ := task_endWait t call (afterGathering call read o) w
    rw [htask, Function.update_self] at hr
    cases hr
    rcases ho' with hcancel | ⟨heq, -⟩
    · cases hcancel
    · cases o with
      | returned v => exact ⟨ho, heq.symm⟩
      | raised e => cases heq
      | cancelled => cases heq
  next => cases h

/-- `set_local_description` returns the description its future holds. -/
theorem resume_local {k : Nat} {desc : LocalDescription} {call : PcCall}
    {read : Except Exc (Option String × Option String)}
    (ht : w.task t = .awaitingLocal k) (h : w.resume t read = some w')
    (hr : w'.task t = .running (some (call, .returned (.description desc)))) :
    w.pc.localDescription.nth k = .settled (.returned desc) := by
  simp only [resume, ht] at h
  split at h
  next o ho =>
    cases h
    obtain ⟨o', htask, ho'⟩ := task_endWait t .setLocalDescription (afterLocal o) w
    rw [htask, Function.update_self] at hr
    cases hr
    rcases ho' with hcancel | ⟨heq, -⟩
    · cases hcancel
    · cases o with
      | returned v =>
          cases heq
          exact ho
      | raised e => cases heq
      | cancelled => cases heq
  next => cases h

-- ================================================== cancellations owed to waiters

/-- A cancellation the step newly owes is owed to a task that waits for
no pending slot. -/
def Owes (w w' : PcWorld) : Prop :=
  ∀ u, w'.mustCancel u = true → w.mustCancel u = true ∨ ∀ slot, ¬ Waits w' u slot

/-- A step that owes nobody anything new. -/
theorem Owes.of_le (h : ∀ u, w'.mustCancel u = true → w.mustCancel u = true) :
    Owes w w' :=
  fun u hu => Or.inl (h u hu)

/-- The second of two steps may not start a call. -/
theorem Owes.trans {w₃ : PcWorld} (h₁ : Owes w₁ w₂) (hw : Ticketed w₂)
    (he : Eased w₂ w₃) (h₂ : Owes w₂ w₃) : Owes w₁ w₃ := by
  intro u hu
  rcases h₂ u hu with hu | hnone
  · rcases h₁ u hu with hu | hnone
    · exact Or.inl hu
    · exact Or.inr fun slot hwait => hnone slot (he.waits hw hwait)
  · exact Or.inr hnone

/-- Who was cancelled waits for nothing pending. -/
theorem not_waits_cancelTask (t : TaskId) (slot : Negotiation) (w : PcWorld) :
    ¬ Waits (w.cancelTask t) t slot := by
  intro hwait
  obtain ⟨k, hk, hs⟩ := hwait
  rw [task_cancelTask] at hk
  unfold cancelTask at hs
  cases htask : w.task t with
  | awaitingGathering call ticket =>
      rw [htask] at hk
      obtain ⟨rfl, rfl⟩ := Prod.mk.inj (Option.some.inj hk)
      rw [htask] at hs
      simp only at hs
      split at hs
      next hdone => exact absurd (hdone.symm.trans hs) (Bool.false_ne_true ∘ Eq.symm)
      next =>
        have hdone : (w.pc.gatheringComplete.cancel.nth ticket).done = true :=
          FutureSlot.nth_done_of_done Future.done_cancel ticket
        exact absurd (hdone.symm.trans hs) (Bool.false_ne_true ∘ Eq.symm)
  | awaitingLocal ticket =>
      rw [htask] at hk
      obtain ⟨rfl, rfl⟩ := Prod.mk.inj (Option.some.inj hk)
      rw [htask] at hs
      simp only at hs
      split at hs
      next hdone => exact absurd (hdone.symm.trans hs) (Bool.false_ne_true ∘ Eq.symm)
      next =>
        have hdone : (w.pc.localDescription.cancel.nth ticket).done = true :=
          FutureSlot.nth_done_of_done Future.done_cancel ticket
        exact absurd (hdone.symm.trans hs) (Bool.false_ne_true ∘ Eq.symm)
  | _ =>
      rw [htask] at hk
      cases hk

/-- A cancellation that is noted is owed to the task it is noted for. -/
theorem owes_setMustCancel (t : TaskId) (w : PcWorld)
    (h : (w.setMustCancel t).mustCancel u = true) : w.mustCancel u = true ∨ u = t := by
  by_cases hut : u = t
  · exact Or.inr hut
  · have hne : update w.mustCancel t true u = w.mustCancel u :=
      Function.update_of_ne hut true w.mustCancel
    exact Or.inl (hne.symm.trans h)

/-- A delivered cancellation is owed to nobody else. -/
theorem of_clearMustCancel (h : (w.clearMustCancel t).mustCancel u = true) :
    w.mustCancel u = true := by
  have hclear : update w.mustCancel t false u = true := h
  by_cases hut : u = t
  · subst hut
    cases (Function.update_self u false w.mustCancel).symm.trans hclear
  · exact (Function.update_of_ne hut false w.mustCancel).symm.trans hclear

/-- A cancelled task is owed the cancellation, unless its future takes
it. -/
theorem owes_cancelTask (t : TaskId) (w : PcWorld) : Owes w (w.cancelTask t) := by
  intro u hu
  have hor : w.mustCancel u = true ∨ u = t := by
    unfold cancelTask at hu
    split at hu
    · exact Or.inl hu
    · exact Or.inl hu
    · split at hu
      · exact owes_setMustCancel t w hu
      · exact Or.inl hu
    · split at hu
      · exact owes_setMustCancel t w hu
      · exact Or.inl hu
    · exact owes_setMustCancel t w hu
    · exact owes_setMustCancel t w hu
  rcases hor with hu | rfl
  · exact Or.inl hu
  · exact Or.inr fun slot => not_waits_cancelTask u slot w

/-- Several cancelled tasks are owed theirs alike. -/
theorem owes_cancelTasks (ts : List TaskId) (w : PcWorld) (hw : Ticketed w) :
    Owes w (w.cancelTasks ts) := by
  induction ts generalizing w with
  | nil => exact .of_le fun _ hu => hu
  | cons t ts ih =>
      have hw' := (eased_cancelTask t w).ticketed hw
      exact (owes_cancelTask t w).trans hw' (eased_cancelTasks ts _) (ih _ hw')

/-- A task that suspends hands what it is owed to its future. -/
theorem owes_suspend (t : TaskId) (st : PcTask) (w : PcWorld) :
    Owes w (w.suspend t st) := by
  intro u hu
  unfold suspend at hu ⊢
  split
  next hm =>
    rw [if_pos hm] at hu
    rcases owes_cancelTask t _ u hu with hu | hnone
    · exact Or.inl (of_clearMustCancel (w := { w with task := update w.task t st }) hu)
    · exact Or.inr hnone
  next hm =>
    rw [if_neg hm] at hu
    exact Or.inl hu

/-- A wait that ends delivers what was owed. -/
theorem owes_endWait (t : TaskId) (call : PcCall) (o : Outcome PcResult Exc)
    (w : PcWorld) : Owes w (w.endWait t call o) := by
  refine .of_le fun u hu => ?_
  unfold endWait at hu
  split at hu
  · exact of_clearMustCancel hu
  · exact hu

/-- A wait for the closed event owes nobody anything new. -/
theorem owes_awaitClosed (call : PcCall) (t : TaskId) (w : PcWorld) :
    Owes w (w.awaitClosed call t) := by
  unfold awaitClosed
  split
  · exact .of_le fun _ hu => hu
  · exact owes_suspend t _ _

/-- `close()` owes the cancellations of its tasks. -/
theorem owes_close (w : PcWorld) (hw : Ticketed w) : Owes w w.close := by
  unfold close
  split
  · exact .of_le fun _ hu => hu
  · have hcancel := owes_cancelTasks w.pc.tasks
      { w with pc := { w.pc with closed := true } } fun t slot k hk => by
        cases slot <;> exact hw t _ k hk
    intro u hu
    rcases hcancel u hu with hu | hnone
    · exact Or.inl hu
    · refine Or.inr fun slot hwait => hnone slot ?_
      obtain ⟨k, hk, hs⟩ := hwait
      exact ⟨k, hk, by cases slot <;> exact hs⟩

/-- A resumed task is owed nothing new. -/
theorem owes_resume {read : Except Exc (Option String × Option String)}
    (h : w.resume t read = some w') : Owes w w' := by
  cases resume_cases h with
  | gathered call ticket o ht ho => exact owes_endWait t _ _ w
  | described ticket o ht ho => exact owes_endWait t _ _ w
  | waited call ht hw =>
      exact owes_endWait t _ _
        { w with pc := { w.pc with closedEvent := w.pc.closedEvent.leave t } }

/-- A call that makes a description owes nobody anything new. -/
theorem owes_createDescription {call : PcCall} {answer : Except Exc Unit}
    (h : w.createDescription t call answer = some w') : Owes w w' := by
  obtain ⟨-, ⟨e, -, rfl⟩ | ⟨-, rfl⟩⟩ := createDescription_eq h
  · exact .of_le fun _ hu => hu
  · exact owes_suspend t _ { w with pc := w.pc.resetBoth }

/-- `set_local_description()` owes nobody anything new. -/
theorem owes_setLocalDescription {answer : Except Exc Unit}
    (h : w.setLocalDescription t answer = some w') : Owes w w' := by
  obtain ⟨-, ⟨e, -, rfl⟩ | ⟨-, rfl⟩⟩ := setLocalDescription_eq h
  · exact .of_le fun _ hu => hu
  · exact owes_suspend t _ { w with pc := w.pc.resetLocal }

/-- A step that leaves the cancellations owed as they were. -/
theorem Owes.of_eq (h : w'.mustCancel = w.mustCancel) : Owes w w' :=
  .of_le fun _ hu => h ▸ hu

/-- The native layer cancels nobody. -/
theorem owes_native {a : PcNative} (h : applyNative a w = some w') : Owes w w' := by
  obtain ⟨core, native, teardown, issued, inFlight, ready, rfl⟩ := applyNative_eq h
  exact .of_eq rfl

/-- A loop step owes no task that waits a cancellation. -/
theorem owes_loop {a : PcLoop} (hw : Ticketed w) (h : applyLoop a w = some w') :
    Owes w w' := by
  cases a with
  | dispatch =>
      simp only [applyLoop, dispatch] at h
      split at h
      · cases h
      · split at h <;> cases h <;> exact .of_eq rfl
  | close =>
      cases h
      exact owes_close w hw
  | startTeardown =>
      obtain ⟨-, ⟨-, rfl⟩ | rfl⟩ := startTeardown_cases h
      · exact .of_eq rfl
      · exact .of_eq rfl
  | resumeTeardown =>
      rw [(resumeTeardown_cases h).1]
      exact .of_eq rfl
  | endTeardown =>
      simp only [applyLoop, endTeardown] at h
      split at h
      · cases h
        exact .of_eq rfl
      · cases h
  | spawnTask n =>
      simp only [applyLoop, spawnTask] at h
      split at h
      · split at h <;> cases h <;> exact .of_eq rfl
      · cases h
  | finish n =>
      simp only [applyLoop, finish] at h
      split at h
      · cases h
        exact .of_eq rfl
      · cases h
  | discard u =>
      simp only [applyLoop, discard] at h
      split at h
      · cases h
        exact .of_eq rfl
      · cases h
  | createOffer u answer =>
      have hcall := (started_eq h).1
      unfold createOffer at hcall
      split at hcall
      · cases hcall
        exact .of_eq rfl
      · exact owes_createDescription hcall
  | createAnswer u answer => exact owes_createDescription (started_eq h).1
  | setLocalDescription u answer => exact owes_setLocalDescription (started_eq h).1
  | createDataChannel u answer =>
      have hcall := (started_eq h).1
      unfold createDataChannel at hcall
      split at hcall
      · cases answer with
        | error e =>
            cases hcall
            exact .of_eq rfl
        | ok handle =>
            simp only at hcall
            split at hcall
            · cases hcall
            · cases hcall
              exact .of_eq rfl
      · cases hcall
  | destroyChannel n =>
      simp only [applyLoop, destroyChannel] at h
      split at h
      · cases h
      · cases h
        exact .of_eq rfl
  | aclose u =>
      cases (started_eq h).1
      exact (owes_close w hw).trans ((eased_close w).ticketed hw) (eased_awaitClosed _ u _)
        (owes_awaitClosed _ u _)
  | waitClosed u =>
      cases (started_eq h).1
      exact owes_awaitClosed _ u w
  | resume u read => exact owes_resume h
  | cancel u =>
      cases h
      exact owes_cancelTask u w
  | absorb u =>
      cases (started_eq h).1
      exact .of_le fun _ hv => of_clearMustCancel hv

/-- A step owes no task that waits a cancellation. -/
theorem owes_apply {a : PcAction} (hw : Ticketed w) (h : apply a w = some w') :
    Owes w w' := by
  cases a with
  | native a => exact owes_native h
  | loop a => exact owes_loop hw h

/-- No cancellation is owed to a task that waits for a pending slot. -/
def OwedInv (w : PcWorld) : Prop :=
  ∀ t slot, Waits w t slot → w.mustCancel t = false

/-- At the start nothing is owed. -/
theorem owedInv_init (handle : Int) (core : Core) : OwedInv (init handle core) :=
  fun _ _ _ => rfl

/-- After every step no task that waits is owed a cancellation. -/
theorem owedInv_apply {a : PcAction} (hw : Ticketed w) (hi : OwedInv w)
    (h : apply a w = some w') : OwedInv w' := by
  intro u slot hwait'
  have hold : w.mustCancel u = false := by
    rcases waits_apply hw h hwait' with hwait | ⟨-, -, hm⟩
    · exact hi u slot hwait
    · exact hm
  rw [← Bool.not_eq_true]
  intro hu
  rcases owes_apply hw h u hu with hu | hnone
  · exact Bool.false_ne_true (hold.symm.trans hu)
  · exact hnone slot hwait'

end PcWorld

end AioLibDataChannel
