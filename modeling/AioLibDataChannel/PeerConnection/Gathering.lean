/-
Whether an offer or answer waits for a gathering that is over.

`create_offer()` and `create_answer()` re-arm `gatheringComplete` each
time, and wait. Gathering ends once: the callback that reports it settles
the slot as it is then. `gathering_state` and the callbacks on their way
(`GatheringComing`) tell whether the slot can still be settled that way,
and only a dispatched callback moves either.

`noLateWait_iff` is the outcome: along any run, no call of an open
connection waits for a gathering that is over exactly when none is
started after its end. `secondOfferRun` starts one.
-/
import AioLibDataChannel.PeerConnection.Hanging
import AioLibDataChannel.PeerConnection.Results
import Mathlib.Data.List.Perm.Basic

namespace AioLibDataChannel

open Transition (exec)

-- ============================================================ vocabulary

/-- A callback with a gathering state is on its way to the loop, or is
scheduled there. -/
def Shutdown.GatheringComing (s : Shutdown) : Prop :=
  ∃ state, PcEvent.gatheringStateChange state ∈ s.inFlight
    ∨ PcCallback.event (.gatheringStateChange state) ∈ s.ready

namespace PcWorld

variable {w w' : PcWorld} {a : PcAction} {t : TaskId}

/-- Gathering is over on an open connection: `gathering_state` says so,
and no callback is coming that would say it again. -/
structure GatheringOver (w : PcWorld) : Prop where
  opened : w.pc.closed = false
  complete : w.pc.gatheringState = .complete
  quiet : ¬ w.shutdown.GatheringComing

/-- No call waits for a gathering that is over. -/
def NoLateWait (w : PcWorld) : Prop :=
  GatheringOver w → ∀ t, ¬ Waits w t .gatheringComplete

/-- The step starts no offer or answer after the end of gathering: none
whose native call goes through, by a task that is not owed a
cancellation. -/
def StartsInTime (a : PcAction) (w : PcWorld) : Prop :=
  GatheringOver w → ∀ t, Starts w a t .gatheringComplete → w.mustCancel t = true

-- ==================================================== who moves the gathering

/-- What keeps the gathering state keeps it over several steps. -/
theorem composes_gatheringState :
    Composes fun w w' => w'.pc.gatheringState = w.pc.gatheringState where
  trans := fun h₁ h₂ => h₂.trans h₁
  outside := fun h => congrArg _ h
  inside := fun _ _ _ _ => rfl
  cancelGathering := fun _ => rfl
  cancelLocal := fun _ => rfl
  resetBoth := fun _ => rfl
  resetLocal := fun _ => rfl
  park := fun _ _ => rfl
  leave := fun _ _ => rfl
  set := fun _ => rfl

/-- A dispatched callback sets `gathering_state` if it carries one. -/
theorem gatheringState_dispatch (h : w.dispatch = some w') :
    w'.pc.gatheringState = w.pc.gatheringState
      ∨ ∃ state rest, w.ready = .event (.gatheringStateChange state) :: rest
          ∧ w'.pc.gatheringState = state := by
  unfold dispatch at h
  split at h
  next => cases h
  next cb rest hr =>
    split at h
    next desc =>
      cases h
      exact Or.inl rfl
    next state =>
      cases h
      left
      simp only [PeerConnection.handleStateChange]
      split <;> rfl
    next state =>
      cases h
      exact Or.inr ⟨state, rest, hr, rfl⟩
    next handle =>
      cases h
      exact Or.inl rfl
    next =>
      cases h
      exact Or.inl rfl

/-- Nothing else does. -/
theorem gatheringState_apply (h : apply a w = some w') :
    w'.pc.gatheringState = w.pc.gatheringState
      ∨ ∃ state rest, a = .loop .dispatch
          ∧ w.ready = .event (.gatheringStateChange state) :: rest
          ∧ w'.pc.gatheringState = state := by
  rcases composes_gatheringState.apply h with hsame | ⟨rfl, -⟩ | ⟨u, -, rfl⟩ | ⟨n, -, -, rfl⟩
  · exact Or.inl hsame
  · rcases gatheringState_dispatch h with hsame | ⟨state, rest, hr, hstate⟩
    · exact Or.inl hsame
    · exact Or.inr ⟨state, rest, rfl, hr, hstate⟩
  · exact Or.inl rfl
  · exact Or.inl rfl

end PcWorld

namespace ShutdownStep

variable {s s' : Shutdown} {a : PcAction}

/-- A callback that is coming comes until it is dispatched. -/
theorem gatheringComing (h : ShutdownStep s a s') (hc : s.GatheringComing) :
    s'.GatheringComing
      ∨ ∃ state rest, a = .loop .dispatch
          ∧ s.ready = .event (.gatheringStateChange state) :: rest := by
  obtain ⟨state, hfly | hready⟩ := hc
  · cases h with
    | fired e _ =>
        left
        refine ⟨state, Or.inl ?_⟩
        show _ ∈ if s.native.dispatches s.core e.kind then s.inFlight ++ [e] else s.inFlight
        split
        · exact List.mem_append_left _ hfly
        · exact hfly
    | scheduled n e hn =>
        left
        obtain ⟨hlt, rfl⟩ := List.getElem?_eq_some_iff.mp hn
        have hmem := (List.getElem_cons_eraseIdx_perm hlt).mem_iff.mpr hfly
        rcases List.mem_cons.mp hmem with heq | hrest
        · refine ⟨state, Or.inr (List.mem_append_right _ ?_)⟩
          rw [← heq]
          exact List.mem_singleton_self _
        · exact ⟨state, Or.inl hrest⟩
    | _ => exact Or.inl ⟨state, Or.inl hfly⟩
  · cases h with
    | scheduled n e hn =>
        exact Or.inl ⟨state, Or.inr (List.mem_append_left _ hready)⟩
    | deleted _ =>
        exact Or.inl ⟨state, Or.inr (List.mem_append_left _ hready)⟩
    | ran e rest hr hk =>
        rw [hr] at hready
        rcases List.mem_cons.mp hready with heq | hrest
        · exact Or.inr ⟨state, rest, rfl, by rw [hr, heq]⟩
        · exact Or.inl ⟨state, Or.inr hrest⟩
    | incoming handle rest hr =>
        rw [hr] at hready
        rcases List.mem_cons.mp hready with heq | hrest
        · cases heq
        · exact Or.inl ⟨state, Or.inr hrest⟩
    | told rest hr =>
        rw [hr] at hready
        rcases List.mem_cons.mp hready with heq | hrest
        · cases heq
        · exact Or.inl ⟨state, Or.inr hrest⟩
    | _ => exact Or.inl ⟨state, Or.inr hready⟩

/-- A connection does not open again. -/
theorem opened (h : ShutdownStep s a s') (hc : s'.closed = false) : s.closed = false := by
  cases h with
  | closes _ _ _ => cases hc
  | _ => exact hc

end ShutdownStep

namespace PcWorld

variable {w w' : PcWorld} {a : PcAction} {t : TaskId}

-- ======================================================= one step, exactly

/-- A waiter that was there was late before, or a callback has just told
the end of gathering and settled it. -/
theorem over_of_over (h : apply a w = some w') (hover : GatheringOver w') :
    GatheringOver w ∨ ∀ t, ¬ Waits w' t .gatheringComplete := by
  have hstep := shutdown_step h
  by_cases hd : ∃ state rest, a = .loop .dispatch
      ∧ w.ready = .event (.gatheringStateChange state) :: rest
  · obtain ⟨state, rest, rfl, hr⟩ := hd
    right
    have hcomplete : state = .complete := by
      have hover' := hover.complete
      simp only [apply, applyLoop, dispatch, hr] at h
      cases h
      exact hover'
    exact fun t => not_waits_of_settles hr (decide_eq_true hcomplete) h
  · left
    refine ⟨hstep.opened hover.opened, ?_, fun hc => ?_⟩
    · rcases gatheringState_apply h with hsame | ⟨state, rest, ha, hr, -⟩
      · exact hsame.symm.trans hover.complete
      · exact absurd ⟨state, rest, ha, hr⟩ hd
    · rcases hstep.gatheringComing hc with hc' | hd'
      · exact hover.quiet hc'
      · exact hd hd'

/-- Starting a call moves nothing of it. -/
theorem over_of_starts {slot : Negotiation} (hs : Starts w a t slot)
    (h : apply a w = some w') (hover : GatheringOver w) : GatheringOver w' := by
  have hshut := shutdown_of_starts hs h
  refine ⟨(congrArg Shutdown.closed hshut).trans hover.opened, ?_, ?_⟩
  · rcases gatheringState_apply h with hsame | ⟨state, rest, rfl, -, -⟩
    · exact hsame.trans hover.complete
    · cases hs
  · rw [hshut]
    exact hover.quiet

/-- A task with no cancellation owed to it waits once it has started. -/
theorem waits_of_starts (hs : Starts w a t .gatheringComplete) (h : apply a w = some w')
    (hm : w.mustCancel t = false) : Waits w' t .gatheringComplete := by
  have hcreate : ∀ call, w.createDescription t call (.ok ()) = some w' →
      Waits w' t .gatheringComplete := by
    intro call hcall
    obtain ⟨-, ⟨e, he, -⟩ | ⟨-, rfl⟩⟩ := createDescription_eq hcall
    · cases he
    · refine ⟨w.pc.resetBoth.gatheringComplete.ticket, ?_, ?_⟩
      · rw [task_suspend]
        exact awaits_update rfl
      · rw [suspend, if_neg (Bool.eq_false_iff.mp hm)]
        show (w.pc.resetBoth.gatheringComplete.nth _).done = false
        rw [FutureSlot.nth_of_ticket_le (Nat.le_refl _)]
        rfl
  cases hs with
  | offer _ hc =>
      have hcall := (started_eq h).1
      rw [createOffer, if_neg (Bool.eq_false_iff.mp hc)] at hcall
      exact hcreate _ hcall
  | answer _ => exact hcreate _ (started_eq h).1

/-- Exactly a call that starts after the end of gathering waits for
it. -/
theorem noLateWait_step_iff (hw : Ticketed w) (hi : NoLateWait w)
    (h : apply a w = some w') : NoLateWait w' ↔ StartsInTime a w := by
  constructor
  · intro hi' hover t hs
    by_contra hm
    exact hi' (over_of_starts hs h hover) t
      (waits_of_starts hs h (Bool.eq_false_iff.mpr hm))
  · intro hok hover t hwait
    rcases over_of_over h hover with hbefore | hnone
    · rcases waits_apply hw h hwait with hold | ⟨hs, -, hm⟩
      · exact hi hbefore t hold
      · exact Bool.false_ne_true (hm.symm.trans (hok hbefore t hs))
    · exact hnone t hwait

/-- Along any run, no call waits for a gathering that is over exactly
when none is started after its end. -/
theorem noLateWait_iff (handle : Int) (core : Core) (as : List PcAction) {v : PcWorld}
    (hrun : exec apply (init handle core) as = some v) :
    (∀ w, Transition.Visits apply (init handle core) as w → NoLateWait w) ↔
      ∀ a w, Transition.Takes apply (init handle core) as a w → StartsInTime a w :=
  Transition.visits_iff_takes hrun
    (fun _ t => not_waits_init handle core t .gatheringComplete)
    (ticketed_init handle core) (fun hw h => ticketed_apply hw h) noLateWait_step_iff

-- ======================================================= the failing run

/-- Gathering runs once, for `set_local_description()`; then an offer is
created. -/
def secondOfferRun : List PcAction :=
  [.loop (.setLocalDescription (.user 0) (.ok ())),
    .native (.fire (.localDescription ⟨"v=0", .offer⟩)), .native (.schedule 0),
    .loop .dispatch, .loop (.resume (.user 0) (.ok (none, none))),
    .native (.fire (.gatheringStateChange .inProgress)), .native (.schedule 0),
    .loop .dispatch, .native (.fire (.gatheringStateChange .complete)),
    .native (.schedule 0), .loop .dispatch, .loop (.createOffer (.user 1) (.ok ()))]

/-- The offer waits on an open connection, and nothing is on its way. -/
theorem secondOffer_waits :
    ∃ w, exec apply (init 1 ⟨[], [], [], []⟩) secondOfferRun = some w
      ∧ w.pc.closed = false ∧ w.pc.gatheringState = .complete
      ∧ w.Waits (.user 1) .gatheringComplete ∧ w.ready = [] ∧ w.inFlight = [] :=
  ⟨_, rfl, rfl, rfl, ⟨_, rfl, rfl⟩, rfl, rfl⟩

/-- `noLateWait_iff` at `secondOfferRun`, which breaks both sides. -/
theorem noLateWait_iff_secondOfferRun :
    (∀ w, Transition.Visits apply (init 1 ⟨[], [], [], []⟩) secondOfferRun w →
        NoLateWait w) ↔
      ∀ a w, Transition.Takes apply (init 1 ⟨[], [], [], []⟩) secondOfferRun a w →
        StartsInTime a w :=
  noLateWait_iff 1 ⟨[], [], [], []⟩ secondOfferRun (v := _) rfl

end PcWorld

end AioLibDataChannel
