/-
Remote candidates are conserved: without cancellations, whatever the
native layer accepts or rejects and however the calls interleave.

The account balances because no step loses anything, and the gate says
on which side of it everything is: at the end, either a description was
applied and everything was handed over, or none was and everything is in
the buffer. What arrived is what the run added.
-/
import AioLibDataChannel.PeerConnection.Gate
import AioLibDataChannel.Transition.Run

namespace AioLibDataChannel

open Asyncio (Job Outcome)
open Transition (exec Reachable)

/-- The candidate that an `add_remote_candidate()` brings. -/
def RemoteAction.candidate? : RemoteAction → Option Candidate
  | .addRemoteCandidate c => some c
  | _ => none

namespace RemoteWorld

/-- The steps of calls that nobody cancels. -/
def uncancelled : RemoteAction → RemoteWorld → Option RemoteWorld
  | .cancel _, _ => none
  | a, w => apply a w

/-- A step that is not a cancellation. -/
theorem uncancelled_step {w w' : RemoteWorld} {a : RemoteAction}
    (h : uncancelled a w = some w') : Step w a w' ∧ ∀ n, a ≠ .cancel n := by
  cases a with
  | cancel n => cases h
  | _ => exact ⟨apply_step h, nofun⟩

/-- Every call is suspended, or ended with its job done and what it
learned recorded. -/
def Undisturbed (w : RemoteWorld) : Prop :=
  ∀ call ∈ w.setRemotes, call.state = .suspended
    ∨ (∃ o, call.state = .ended o) ∧ call.job.pending = false
      ∧ (call.DescriptionApplied → w.remoteDescriptionSet = true)

/-- A step that updates one call leaves the others undisturbed. -/
theorem Undisturbed.set {w w' : RemoteWorld} {n : Nat} {a : RemoteAction}
    (call' : SetRemote) (hi : Undisturbed w) (h : Step w a w')
    (hsets : w'.setRemotes = w.setRemotes.set n call')
    (hcall' : call'.state = .suspended
      ∨ (∃ o, call'.state = .ended o) ∧ call'.job.pending = false
        ∧ (call'.DescriptionApplied → w'.remoteDescriptionSet = true)) :
    Undisturbed w' := by
  rw [Undisturbed, hsets]
  refine forall_set ?_ hcall'
  intro call hmem
  refine (hi call hmem).imp_right ?_
  intro hboth
  obtain ⟨hended, hjob, happlied⟩ := hboth
  exact ⟨hended, hjob, fun hc => set_mono h (happlied hc)⟩

/-- Without cancellations no call is disturbed. -/
theorem undisturbed_step {w w' : RemoteWorld} {a : RemoteAction} (hi : Undisturbed w)
    (h : Step w a w') (hnc : ∀ n, a ≠ .cancel n) : Undisturbed w' := by
  have hstep := h
  cases h with
  | called sdp type =>
      intro call hmem
      rcases List.mem_append.mp hmem with hmem | hmem
      · exact hi call hmem
      · rw [List.mem_singleton.mp hmem]
        exact Or.inl rfl
  | startSet n call rest hcall =>
      refine hi.set { call with job := call.job.start } hstep rfl ?_
      refine (hi call (List.mem_of_getElem? hcall)).imp_right ?_
      intro hboth
      obtain ⟨hended, hjob, happlied⟩ := hboth
      refine ⟨hended, by rw [Job.pending_start]; exact hjob, ?_⟩
      intro hboth
      obtain ⟨hst, hdone⟩ := hboth
      exact happlied ⟨hst, done_of_start hdone⟩
  | nativeSet n call outcome hcall hjob =>
      refine hi.set { call with job := .done outcome } hstep rfl (Or.inl ?_)
      rcases hi call (List.mem_of_getElem? hcall) with hs | ⟨-, hpending, -⟩
      · exact hs
      · rw [hjob] at hpending
        cases hpending
  | delivered n call hcall hstate =>
      rcases hi call (List.mem_of_getElem? hcall) with hs | ⟨⟨o, ho⟩, -, -⟩
      · rw [hstate] at hs
        cases hs
      · rw [hstate] at ho
        cases ho
  | failed n call e hcall _ _ hjob =>
      refine hi.set { call with state := .ended (.raised e) } hstep rfl (Or.inr ?_)
      refine ⟨⟨_, rfl⟩, by simp only [hjob, Job.pending], ?_⟩
      intro hboth
      obtain ⟨-, hdone⟩ := hboth
      have hdone' : call.job = .done (.ok ()) := hdone
      rw [hjob] at hdone'
      cases hdone'
  | opened n call hcall hstate hstage hjob =>
      refine hi.set (drainCall call w.bufferedRemoteCandidates) hstep
        (drain_setRemotes ..) ?_
      cases w.bufferedRemoteCandidates with
      | nil =>
          refine Or.inr ⟨⟨_, rfl⟩, ?_, fun _ => rfl⟩
          simp only [drainCall, hjob, Job.pending]
      | cons c rest => exact Or.inl hstate
  | drained n call outcome current rest hcall hstate hstage hjob =>
      refine hi.set (drainCall call rest) hstep (drain_setRemotes ..) ?_
      cases rest with
      | nil =>
          refine Or.inr ⟨⟨_, rfl⟩, by simp only [drainCall, hjob, Job.pending], ?_⟩
          intro hboth
          obtain ⟨hst, -⟩ := hboth
          have hst' : call.stage = .applying := hst
          rw [hstage] at hst'
          cases hst'
      | cons c rest => exact Or.inl hstate
  | asked n call _ _ => exact absurd rfl (hnc n)
  | _ => exact hi

-- ========================================================== conservation

/-- Every call has ended. -/
def Quiescent (w : RemoteWorld) : Prop :=
  (∀ call ∈ w.setRemotes, ∃ o, call.state = .ended o)
    ∧ ∀ call ∈ w.addCandidates, call.ended ≠ none

/-- What is promised of every state of a run without cancellations. Buffer
and flag change by two steps only, so a call that raises, which takes
neither, leaves both as they were. -/
structure Conserved (w : RemoteWorld) : Prop where
  openedFirst : OpenedFirst w.log
  applied : w.Quiescent → Applied w.log →
    w.handed.Perm w.arrived ∧ w.bufferedRemoteCandidates = []
  notApplied : w.Quiescent → ¬ Applied w.log →
    w.handed = [] ∧ w.bufferedRemoteCandidates = w.arrived
  inert : ∀ a w', apply a w = some w' → (∀ c, a ≠ .addRemoteCandidate c) →
    (∀ n call, a = .resumeSetRemote n → w.setRemotes[n]? = some call →
      ¬ call.DescriptionApplied) →
    w'.bufferedRemoteCandidates = w.bufferedRemoteCandidates
      ∧ w'.remoteDescriptionSet = w.remoteDescriptionSet
  failedInert : ∀ n call e, w.setRemotes[n]? = some call → call.state = .suspended →
    call.stage = .applying → call.job = .done (.error e) →
    apply (.resumeSetRemote n) w
      = some (w.update n { call with state := .ended (.raised e) })
  rejectedSkipped : ∀ n call c rest e, w.setRemotes[n]? = some call →
    call.state = .suspended → call.stage = .draining c rest →
    call.job = .done (.error e) →
    apply (.resumeSetRemote n) w = some (w.drain n call rest)

/-- The invariant of a run without cancellations. -/
structure ConservationInv (w : RemoteWorld) : Prop where
  gate : GateInv w
  balanced : w.account.Balanced
  openedFirst : OpenedFirst w.log
  accounted : Accounted w
  undisturbed : Undisturbed w
  addsDone : AddsDone w

/-- Nothing has arrived, and nothing is missing. -/
theorem conservationInv_init : ConservationInv init where
  gate := gateInv_init
  balanced := .refl _
  openedFirst := by
    intro pre c o hpre
    exact absurd (List.prefix_nil.mp hpre) (List.append_ne_nil_of_right_ne_nil _ nofun)
  accounted := by
    intro hex
    obtain ⟨_, _, hmem⟩ := hex
    cases hmem
  undisturbed := List.forall_mem_nil _
  addsDone := List.forall_mem_nil _

/-- Every step keeps the account. -/
theorem conservationInv_step {w w' : RemoteWorld} {a : RemoteAction}
    (hi : ConservationInv w) (h : uncancelled a w = some w') : ConservationInv w' := by
  obtain ⟨hstep, hnc⟩ := uncancelled_step h
  refine
    { gate := gateInv_step hi.gate hstep
      balanced := ?_
      openedFirst := openedFirst_step hi.gate hi.openedFirst hstep
      accounted := accounted_step hi.accounted hstep
      undisturbed := undisturbed_step hi.undisturbed hstep hnc
      addsDone := addsDone_step hi.addsDone hstep }
  rcases moves_step hstep with hmove | ⟨call, ⟨n, -, hcall, hstate⟩, -⟩
  · exact hmove.balanced hi.balanced
  · rcases hi.undisturbed call (List.mem_of_getElem? hcall) with hs | ⟨⟨o, ho⟩, -⟩
    · rw [hstate] at hs
      cases hs
    · rw [hstate] at ho
      cases ho

/-- At the end nothing is on its way. -/
theorem carried_of_quiescent {w : RemoteWorld} (hi : ConservationInv w)
    (hq : w.Quiescent) : w.carried = [] := by
  refine List.append_eq_nil_iff.mpr ⟨List.flatMap_eq_nil_iff.mpr ?_,
    List.flatMap_eq_nil_iff.mpr ?_⟩
  · intro call hmem
    obtain ⟨o, ho⟩ := hq.1 call hmem
    rcases hi.undisturbed call hmem with hs | ⟨-, hjob, -⟩
    · rw [ho] at hs
      cases hs
    · unfold SetRemote.carried
      cases call.stage with
      | applying => rfl
      | draining c rest => simp [hjob, ho]
  · intro call hmem
    rw [AddCandidate.carried, hi.addsDone call hmem (hq.2 call hmem)]
    rfl

/-- At the end an applied description has raised the flag. -/
theorem set_of_quiescent {w : RemoteWorld} (hi : ConservationInv w)
    (hq : w.Quiescent) (happlied : Applied w.log) : w.remoteDescriptionSet = true := by
  rcases hi.accounted happlied with h | ⟨n, call, hcall, hc⟩
  · exact h
  · have hmem := List.mem_of_getElem? hcall
    obtain ⟨o, ho⟩ := hq.1 call hmem
    rcases hi.undisturbed call hmem with hs | ⟨-, -, hset⟩
    · rw [ho] at hs
      cases hs
    · exact hset hc

/-- Who changes the buffer and the flag. -/
theorem inert_step {w w' : RemoteWorld} {a : RemoteAction} (h : Step w a w')
    (hadd : ∀ c, a ≠ .addRemoteCandidate c)
    (hopen : ∀ n call, a = .resumeSetRemote n → w.setRemotes[n]? = some call →
      ¬ call.DescriptionApplied) :
    w'.bufferedRemoteCandidates = w.bufferedRemoteCandidates
      ∧ w'.remoteDescriptionSet = w.remoteDescriptionSet := by
  cases h with
  | buffered c _ => exact absurd rfl (hadd c)
  | opened n call hcall _ hstage hjob =>
      exact absurd ⟨hstage, hjob⟩ (hopen n call rfl hcall)
  | drained n call _ _ _ _ _ _ _ =>
      exact ⟨drain_buffered .., drain_remoteDescriptionSet ..⟩
  | _ => exact ⟨rfl, rfl⟩

/-- What is promised follows from the account. -/
theorem conserved_of_inv {w : RemoteWorld} (hi : ConservationInv w) : Conserved w where
  openedFirst := hi.openedFirst
  applied := by
    intro hq happlied
    obtain ⟨hbuf, -⟩ := hi.gate.opened (set_of_quiescent hi hq happlied)
    have hbal : w.arrived.Perm
        (w.handed ++ w.carried ++ w.bufferedRemoteCandidates) := hi.balanced
    rw [carried_of_quiescent hi hq, hbuf, List.append_nil, List.append_nil] at hbal
    exact ⟨hbal.symm, hbuf⟩
  notApplied := by
    intro hq hnot
    have hset : w.remoteDescriptionSet = false := by
      cases h : w.remoteDescriptionSet with
      | false => rfl
      | true => exact absurd (hi.gate.opened h).2 hnot
    have hs := hi.gate.shut hset
    exact ⟨List.filterMap_eq_nil_iff.mpr hs.log, hs.buffer⟩
  inert := fun _ _ h => inert_step (apply_step h)
  failedInert := by
    intro n call e hcall hstate hstage hjob
    simp only [apply, resumeSetRemote, hcall, hstate, hjob, answered, hstage]
  rejectedSkipped := by
    intro n call c rest e hcall hstate hstage hjob
    simp only [apply, resumeSetRemote, hcall, hstate, hjob, answered, hstage]

/-- A candidate arrives with the call that brings it. -/
theorem arrived_step {w w' : RemoteWorld} {a : RemoteAction} (h : Step w a w') :
    w'.arrived = w.arrived ++ a.candidate?.toList := by
  cases h with
  | buffered c _ => rfl
  | sent c _ => rfl
  | opened n call _ _ _ _ =>
      rw [drain_arrived]
      exact (List.append_nil _).symm
  | drained n call _ _ _ _ _ _ _ =>
      rw [drain_arrived]
      exact (List.append_nil _).symm
  | _ => exact (List.append_nil _).symm

/-- What has arrived is what the run's calls brought, in their order. -/
theorem arrived_exec {as : List RemoteAction} {w : RemoteWorld}
    (hrun : exec uncancelled init as = some w) :
    w.arrived = as.filterMap RemoteAction.candidate? := by
  refine Transition.exec_invariant
    (P := fun bs v => v.arrived = bs.filterMap RemoteAction.candidate?) rfl ?_ hrun
  intro bs b m m' _ ih hb
  rw [arrived_step (uncancelled_step hb).1, ih, List.filterMap_append]
  exact congrArg (_ ++ ·) ((List.append_nil _).symm.trans
    (Transition.toList_append_filterMap _ b []))

/-- Remote candidates are conserved in every run without
cancellations: all those its calls brought. -/
theorem candidates_conserved (as : List RemoteAction) {w : RemoteWorld}
    (hrun : exec uncancelled init as = some w) :
    Conserved w ∧ w.arrived = as.filterMap RemoteAction.candidate? :=
  ⟨conserved_of_inv ((Transition.reachable_of_exec hrun).invariant conservationInv_init
    conservationInv_step), arrived_exec hrun⟩

/-- Two candidates are buffered, a first description is refused, a
second is applied, the native layer rejects the first candidate, and a
third comes when the buffer is done with. -/
def rejectedRun : List RemoteAction :=
  [.addRemoteCandidate ⟨"a", "0"⟩, .addRemoteCandidate ⟨"b", "0"⟩,
    .setRemoteDescription "" .offer, .start,
    .native (.setRemote 0) (.error (.rtcError "refused" none)), .resumeSetRemote 0,
    .setRemoteDescription "v=0" .offer, .start, .native (.setRemote 1) (.ok ()),
    .resumeSetRemote 1, .start,
    .native (.setRemote 1) (.error (.rtcError "rejected" none)), .resumeSetRemote 1,
    .start, .native (.setRemote 1) (.ok ()), .resumeSetRemote 1,
    .addRemoteCandidate ⟨"c", "0"⟩, .start, .native (.addCandidate 0) (.ok ()),
    .resumeAddCandidate 0]

/-- `candidates_conserved` at `rejectedRun`. -/
theorem candidates_conserved_rejectedRun :
    ∃ w, exec uncancelled init rejectedRun = some w
      ∧ w.handed = [⟨"a", "0"⟩, ⟨"b", "0"⟩, ⟨"c", "0"⟩]
      ∧ Conserved w ∧ w.arrived = rejectedRun.filterMap RemoteAction.candidate? :=
  ⟨_, rfl, rfl, candidates_conserved rejectedRun rfl⟩

end RemoteWorld

end AioLibDataChannel
