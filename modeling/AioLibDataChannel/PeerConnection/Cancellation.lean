/-
What cancelling `set_remote_description` loses, and when it loses
nothing.

Two things can go missing. The drain loop took the buffer into a local
variable, and a cancellation delivered to it drops what the loop had
still to take (`forsaken`). And the flag is raised by the call's own code
after the native call, so a description that is applied for a call whose
cancellation is delivered leaves the flag down: candidates that come
later are buffered, and no call is left to drain them.

`noneLost_iff` says these are the only two: along any run, with any
number of calls and cancellations, nothing is lost exactly when no step
is one of them.
-/
import AioLibDataChannel.PeerConnection.Gate
import AioLibDataChannel.Transition.Run

namespace AioLibDataChannel

open Asyncio (Job Outcome)
open Transition (exec)

/-- Its description was applied, and its cancellation delivered. -/
def SetRemote.Abandoned (call : SetRemote) : Prop :=
  call.DescriptionApplied ∧ call.state = .ended .cancelled

namespace RemoteWorld

/-- Every candidate was handed over, is on its way, or is in the buffer
in arrival order; and the flag is up if an abandoned description was
applied. -/
structure NoneLost (w : RemoteWorld) : Prop where
  balanced : w.account.Balanced
  buffered : w.bufferedRemoteCandidates.Sublist w.arrived
  opened : ∀ call ∈ w.setRemotes, call.Abandoned → w.remoteDescriptionSet = true

/-- A cancellation is delivered to a drain loop only at its last
candidate, taken by a thread, and to an applied description only behind
the flag; and a native call that goes on without its caller applies a
description only behind the flag. -/
structure KeepsCandidates (a : RemoteAction) (w : RemoteWorld) : Prop where
  delivered : ∀ call, Delivers a w call →
    forsaken call = [] ∧ (call.DescriptionApplied → w.remoteDescriptionSet = true)
  applied : ∀ n call, a = .native (.setRemote n) (.ok ()) →
    w.setRemotes[n]? = some call → call.stage = .applying →
    call.state = .ended .cancelled → w.remoteDescriptionSet = true

/-- Nothing has come that could be lost. -/
theorem noneLost_init : NoneLost init where
  balanced := .refl _
  buffered := .refl _
  opened := List.forall_mem_nil _

-- ===================================================== delivering a cancellation

/-- What delivering a cancellation does. -/
theorem eq_of_delivers {w w' : RemoteWorld} {a : RemoteAction} {call : SetRemote}
    (h : Step w a w') (hd : Delivers a w call) :
    ∃ n, w.setRemotes[n]? = some call ∧ call.state = .cancelling
      ∧ w' = w.update n (cancelledCall call) := by
  obtain ⟨n, rfl, hcall, hstate⟩ := hd
  cases h with
  | delivered _ call' hcall' _ =>
      cases hcall.symm.trans hcall'
      exact ⟨n, hcall, hstate, rfl⟩
  | failed _ call' _ hcall' hstate' _ _ =>
      cases hcall.symm.trans hcall'
      cases hstate.symm.trans hstate'
  | opened _ call' hcall' hstate' _ _ =>
      cases hcall.symm.trans hcall'
      cases hstate.symm.trans hstate'
  | drained _ call' _ _ _ hcall' hstate' _ _ =>
      cases hcall.symm.trans hcall'
      cases hstate.symm.trans hstate'

/-- A call that is updated is in the list. -/
theorem mem_set_self {calls : List SetRemote} {n : Nat} {call call' : SetRemote}
    (hcall : calls[n]? = some call) : call' ∈ calls.set n call' :=
  List.mem_set (List.getElem?_eq_some_iff.mp hcall).1 call'

/-- The account survives exactly when the loop had nothing left. -/
theorem balanced_step_iff {w w' : RemoteWorld} {a : RemoteAction}
    (hb : w.account.Balanced) (h : Step w a w') :
    w'.account.Balanced ↔ ∀ call, Delivers a w call → forsaken call = [] := by
  constructor
  · intro hb' call hd
    obtain ⟨n, hcall, hstate, rfl⟩ := eq_of_delivers h hd
    exact ((loses_delivered hcall hstate).balanced_iff hb).mp hb'
  · intro hnone
    rcases moves_step h with hmove | ⟨call, hd, hlost⟩
    · exact hmove.balanced hb
    · exact (hlost.balanced_iff hb).mpr (hnone call hd)

/-- What is buffered has arrived, and in this order. -/
theorem buffered_sublist {w : RemoteWorld} (hi : GateInv w) :
    w.bufferedRemoteCandidates.Sublist w.arrived := by
  cases hset : w.remoteDescriptionSet with
  | false => rw [(hi.shut hset).buffer]
  | true =>
      rw [(hi.opened hset).1]
      exact List.nil_sublist _

-- =========================================================== the flag

/-- The flag is up behind every abandoned description. -/
def Opened (w : RemoteWorld) : Prop :=
  ∀ call ∈ w.setRemotes, call.Abandoned → w.remoteDescriptionSet = true

/-- A step that keeps the candidates keeps the flag up behind every
abandoned description. -/
theorem opened_step {w w' : RemoteWorld} {a : RemoteAction} (hi : Opened w)
    (h : Step w a w') (hok : KeepsCandidates a w) : Opened w' := by
  cases h with
  | called sdp type =>
      intro call hmem
      rcases List.mem_append.mp hmem with hmem | hmem
      · exact hi call hmem
      · rw [List.mem_singleton.mp hmem]
        exact nofun
  | startSet n call rest hcall =>
      refine forall_set hi ?_
      intro hboth
      obtain ⟨⟨hst, hjob⟩, hstate⟩ := hboth
      exact hi call (List.mem_of_getElem? hcall) ⟨⟨hst, done_of_start hjob⟩, hstate⟩
  | nativeSet n call outcome hcall hjob =>
      refine forall_set hi ?_
      intro hboth
      obtain ⟨⟨hst, hdone⟩, hstate⟩ := hboth
      cases hdone
      exact hok.applied n call rfl hcall hst hstate
  | delivered n call hcall hstate =>
      refine forall_set hi ?_
      intro hboth
      obtain ⟨⟨hst, hjob⟩, -⟩ := hboth
      exact (hok.delivered call ⟨n, rfl, hcall, hstate⟩).2 ⟨hst, done_of_cancel hjob⟩
  | failed n call e hcall _ _ _ =>
      refine forall_set hi ?_
      intro hboth
      obtain ⟨-, hstate⟩ := hboth
      cases hstate
  | opened n call _ _ _ _ =>
      intro _ _ _
      rw [drain_remoteDescriptionSet]
  | drained n call outcome current rest hcall hsusp _ _ =>
      rw [Opened, drain_setRemotes, drain_remoteDescriptionSet]
      refine forall_set hi ?_
      intro hboth
      obtain ⟨-, hstate⟩ := hboth
      cases rest with
      | nil => cases hstate
      | cons c rest => cases hsusp.symm.trans hstate
  | asked n call hcall _ =>
      refine forall_set hi ?_
      intro hboth
      obtain ⟨-, hstate⟩ := hboth
      cases hstate
  | _ => exact hi

/-- What the flag asks of a step, from what it is afterwards. -/
theorem flag_of_opened {w w' : RemoteWorld} {a : RemoteAction} (h : Step w a w')
    (ho : Opened w') :
    (∀ call, Delivers a w call → call.DescriptionApplied →
        w.remoteDescriptionSet = true)
      ∧ ∀ n call, a = .native (.setRemote n) (.ok ()) → w.setRemotes[n]? = some call →
          call.stage = .applying → call.state = .ended .cancelled →
          w.remoteDescriptionSet = true := by
  constructor
  · intro call hd happlied
    obtain ⟨n, hcall, -, rfl⟩ := eq_of_delivers h hd
    refine ho (cancelledCall call) (mem_set_self hcall) ⟨⟨happlied.1, ?_⟩, rfl⟩
    rw [cancelledCall, happlied.2]
    rfl
  · intro n call heq hcall hst hstate
    subst heq
    cases h with
    | nativeSet _ call' _ hcall' _ =>
        cases hcall.symm.trans hcall'
        exact ho _ (mem_set_self hcall) ⟨⟨hst, rfl⟩, hstate⟩

-- ====================================================== nothing is lost

/-- Exactly the other steps keep every candidate. -/
theorem noneLost_step_iff {w w' : RemoteWorld} {a : RemoteAction} (hg : GateInv w)
    (hi : NoneLost w) (h : apply a w = some w') :
    NoneLost w' ↔ KeepsCandidates a w := by
  have hstep := apply_step h
  constructor
  · intro hi'
    have hbal := (balanced_step_iff hi.balanced hstep).mp hi'.balanced
    obtain ⟨hdel, happ⟩ := flag_of_opened hstep hi'.opened
    exact ⟨fun call hd => ⟨hbal call hd, hdel call hd⟩, happ⟩
  · intro hok
    exact
      { balanced := (balanced_step_iff hi.balanced hstep).mpr
          fun call hd => (hok.delivered call hd).1
        buffered := buffered_sublist (gateInv_step hg hstep)
        opened := opened_step hi.opened hstep hok }

/-- Along a run, nothing is lost exactly when no step loses
anything. -/
theorem noneLost_iff (as : List RemoteAction) {v : RemoteWorld}
    (hrun : exec apply init as = some v) :
    (∀ w, Transition.Visits apply init as w → NoneLost w) ↔
      ∀ a w, Transition.Takes apply init as a w → KeepsCandidates a w :=
  Transition.visits_iff_takes hrun noneLost_init gateInv_init
    (fun hg h => gateInv_step hg (apply_step h)) noneLost_step_iff

-- ======================================================= the failing runs

/-- Two candidates are buffered, and the call is cancelled while the
first is on its way. -/
def cancelledDrainRun : List RemoteAction :=
  [.addRemoteCandidate ⟨"a", "0"⟩, .addRemoteCandidate ⟨"b", "0"⟩,
    .setRemoteDescription "v=0" .offer, .start, .native (.setRemote 0) (.ok ()),
    .resumeSetRemote 0, .start, .cancel 0, .resumeSetRemote 0,
    .native (.setRemote 0) (.ok ())]

/-- The call is cancelled during its native call, which succeeds; then a
candidate comes. -/
def cancelledApplyRun : List RemoteAction :=
  [.setRemoteDescription "v=0" .offer, .start, .cancel 0, .resumeSetRemote 0,
    .native (.setRemote 0) (.ok ()), .addRemoteCandidate ⟨"a", "0"⟩]

/-- In the first run the second candidate is nowhere; in the second the
candidate is buffered behind an applied description. -/
theorem cancelled_loses :
    (∃ w, exec apply init cancelledDrainRun = some w
        ∧ w.arrived = [⟨"a", "0"⟩, ⟨"b", "0"⟩] ∧ w.handed = [⟨"a", "0"⟩]
        ∧ w.carried = [] ∧ w.bufferedRemoteCandidates = [])
      ∧ ∃ w, exec apply init cancelledApplyRun = some w
          ∧ w.log = [(.setRemoteDescription "v=0" .offer, .ok ())]
          ∧ w.carried = [] ∧ w.bufferedRemoteCandidates = [⟨"a", "0"⟩] :=
  ⟨⟨_, rfl, rfl, rfl, rfl, rfl⟩, ⟨_, rfl, rfl, rfl, rfl⟩⟩

/-- `noneLost_iff` at `cancelledDrainRun`, which breaks both sides. -/
theorem noneLost_iff_cancelledDrainRun :
    (∀ w, Transition.Visits apply init cancelledDrainRun w → NoneLost w) ↔
      ∀ a w, Transition.Takes apply init cancelledDrainRun a w →
        KeepsCandidates a w :=
  noneLost_iff cancelledDrainRun (v := _) rfl

end RemoteWorld

end AioLibDataChannel
