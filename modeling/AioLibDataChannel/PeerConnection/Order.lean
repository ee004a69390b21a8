/-
Remote candidates in arrival order: one caller that awaits each
`add_remote_candidate` before the next, beside any calls of
`set_remote_description`.

What has arrived is then a line: handed over, in the drain loop, in the
caller's own direct call, in the buffer (`Lined`). The drain loop serves
its head. The direct call serves a candidate from behind the drain loop,
so it keeps the order only once the loop has nothing left to hand over —
and the flag that sends the caller past the buffer is up before the
loop's first `await`.
-/
import AioLibDataChannel.PeerConnection.Conservation

namespace AioLibDataChannel

open Asyncio (Job Outcome)
open Ledger (Sole)
open Transition (exec Takes Visits)

namespace RemoteWorld

/-- One caller: a new `add_remote_candidate` only after the last one
returned. Nobody is cancelled. -/
def oneCaller : RemoteAction → RemoteWorld → Option RemoteWorld
  | .addRemoteCandidate c, w =>
      if w.addCandidates.all fun call => call.ended.isSome
        then uncancelled (.addRemoteCandidate c) w
      else none
  | a, w => uncancelled a w

/-- A run of one caller has no cancellations. -/
theorem oneCaller_uncancelled {w w' : RemoteWorld} {a : RemoteAction}
    (h : oneCaller a w = some w') : uncancelled a w = some w' := by
  cases a with
  | addRemoteCandidate c =>
      simp only [oneCaller] at h
      split at h
      next => exact h
      next => cases h
  | _ => exact h

/-- Candidates the drain loops have still to hand over. -/
def draining (w : RemoteWorld) : List Candidate :=
  w.setRemotes.flatMap SetRemote.carried

/-- The candidate of the caller's direct call, until it is handed
over. -/
def direct (w : RemoteWorld) : List Candidate :=
  w.addCandidates.flatMap AddCandidate.carried

/-- Everything that arrived, in one line. -/
def Lined (w : RemoteWorld) : Prop :=
  w.arrived = w.handed ++ w.draining ++ w.direct ++ w.bufferedRemoteCandidates

/-- The step is not a direct candidate's native call ahead of the drain
loop's candidates. -/
def NoOvertake (a : RemoteAction) (w : RemoteWorld) : Prop :=
  ∀ n outcome, a = .native (.addCandidate n) outcome → w.draining = []

/-- The native layer was called in call order, and at the end for every
candidate. -/
structure OrderKept (w : RemoteWorld) : Prop where
  ordered : w.handed <+: w.arrived
  complete : w.Quiescent → Applied w.log → w.handed = w.arrived

/-- What holds along a run of one caller. -/
structure OrderInv (w : RemoteWorld) : Prop where
  conserved : ConservationInv w
  sole : Sole SetRemote.carried w.setRemotes
  single : w.direct.length ≤ 1

-- =========================================================== one at a time

/-- Behind a closed gate nothing is carried. -/
theorem draining_of_shut {w : RemoteWorld} (h : w.Shut) :
    ∀ call ∈ w.setRemotes, call.carried = [] := by
  intro call hmem
  simp only [SetRemote.carried, h.stages call hmem]

/-- One call at most carries drained candidates. -/
theorem sole_step {w w' : RemoteWorld} {a : RemoteAction} (hi : ConservationInv w)
    (hs : Sole SetRemote.carried w.setRemotes) (h : Step w a w')
    (hnc : ∀ n, a ≠ .cancel n) : Sole SetRemote.carried w'.setRemotes := by
  cases h with
  | called sdp type => exact hs.append rfl
  | startSet n call rest hcall =>
      refine hs.set hcall ?_
      simp only [SetRemote.carried, Job.pending_start]
      exact id
  | nativeSet n call outcome hcall hjob =>
      refine hs.set hcall ?_
      unfold SetRemote.carried
      cases call.stage with
      | applying => exact id
      | draining c rest => simp [hjob, Job.pending]
  | delivered n call hcall hstate =>
      rcases hi.undisturbed call (List.mem_of_getElem? hcall) with hst | ⟨⟨o, ho⟩, -⟩
      · cases hstate.symm.trans hst
      · cases hstate.symm.trans ho
  | failed n call e hcall _ hstage _ =>
      refine hs.set hcall ?_
      simp only [SetRemote.carried, hstage]
      exact id
  | opened n call hcall hstate hstage hjob =>
      rw [drain_setRemotes]
      cases hset : w.remoteDescriptionSet with
      | false =>
          have hnil := draining_of_shut (hi.gate.shut hset)
          exact Sole.of_nil _ hnil
      | true =>
          refine hs.set hcall ?_
          rw [carried_drainCall hstate hjob, (hi.gate.opened hset).1]
          exact fun hne => absurd rfl hne
  | drained n call outcome current rest hcall hstate hstage hjob =>
      rw [drain_setRemotes]
      refine hs.set hcall ?_
      rw [carried_drainCall hstate hjob]
      simp [SetRemote.carried, hstage, hjob, hstate, Job.pending]
  | asked n call _ _ => exact absurd rfl (hnc n)
  | _ => exact hs

/-- When every direct call has returned, none carries anything. -/
theorem direct_eq_nil {w : RemoteWorld} (hi : AddsDone w)
    (h : w.addCandidates.all (fun call => call.ended.isSome) = true) :
    w.direct = [] := by
  refine List.flatMap_eq_nil_iff.mpr ?_
  intro call hmem
  have hended : call.ended ≠ none := by
    have hsome := List.all_eq_true.mp h call hmem
    intro hnone
    rw [hnone] at hsome
    cases hsome
  rw [AddCandidate.carried, hi call hmem hended]
  rfl

/-- The caller has returned from its last call when it makes one. -/
theorem direct_of_oneCaller {w w' : RemoteWorld} {c : Candidate} (hi : AddsDone w)
    (h : oneCaller (.addRemoteCandidate c) w = some w') : w.direct = [] := by
  simp only [oneCaller] at h
  split at h
  next hall => exact direct_eq_nil hi hall
  next => cases h

/-- A started direct call carries all that direct calls carry. -/
theorem direct_of_started {w : RemoteWorld} {n : Nat} {call : AddCandidate}
    (hone : w.direct.length ≤ 1) (hcall : w.addCandidates[n]? = some call)
    (hjob : call.job = .started) (outcome : Except Exc Unit) :
    w.direct = [call.candidate]
      ∧ (w.addCandidates.set n { call with job := .done outcome }).flatMap
          AddCandidate.carried = [] := by
  have hperm : w.direct.Perm ([call.candidate]
      ++ (w.addCandidates.set n { call with job := .done outcome }).flatMap
          AddCandidate.carried) := by
    refine Ledger.flatMap_set_loses [call.candidate] hcall ?_
    simp [AddCandidate.carried, hjob, Job.pending]
  have hlen := hperm.length_eq
  rw [List.length_append, List.length_singleton] at hlen
  have hnil : (w.addCandidates.set n { call with job := .done outcome }).flatMap
      AddCandidate.carried = [] := List.length_eq_zero_iff.mp (by omega)
  rw [hnil, List.append_nil] at hperm
  exact ⟨List.perm_singleton.mp hperm, hnil⟩

/-- The one caller has one direct candidate at most. -/
theorem single_step {w w' : RemoteWorld} {a : RemoteAction} (hi : AddsDone w)
    (hone : w.direct.length ≤ 1) (h : oneCaller a w = some w') :
    w'.direct.length ≤ 1 := by
  have hone' := h
  have hstep := (uncancelled_step (oneCaller_uncancelled h)).1
  cases hstep with
  | sent c _ =>
      have hnil : w.addCandidates.flatMap AddCandidate.carried = [] :=
        direct_of_oneCaller hi hone'
      show (List.flatMap AddCandidate.carried (_ ++ _)).length ≤ 1
      rw [List.flatMap_append, hnil]
      exact Nat.le_refl 1
  | startAdd n call rest hcall =>
      refine Nat.le_trans (Nat.le_of_eq (congrArg List.length ?_)) hone
      refine Ledger.flatMap_set_keeps hcall ?_
      simp only [AddCandidate.carried, Job.pending_start]
  | nativeAdd n call outcome hcall hjob =>
      show (List.flatMap AddCandidate.carried _).length ≤ 1
      rw [(direct_of_started hone hcall hjob outcome).2]
      exact Nat.zero_le 1
  | addReturned n call outcome hcall _ _ =>
      refine Nat.le_trans (Nat.le_of_eq (congrArg List.length ?_)) hone
      exact Ledger.flatMap_set_keeps hcall rfl
  | opened n call _ _ _ _ => rw [direct, drain_addCandidates]; exact hone
  | drained n call _ _ _ _ _ _ _ => rw [direct, drain_addCandidates]; exact hone
  | _ => exact hone

/-- Nothing has come that could be out of order. -/
theorem orderInv_init : OrderInv init where
  conserved := conservationInv_init
  sole := by
    intro i j b c hb
    cases hb
  single := Nat.zero_le 1

/-- Every step of one caller keeps what the order rests on. -/
theorem orderInv_step {w w' : RemoteWorld} {a : RemoteAction} (hi : OrderInv w)
    (h : oneCaller a w = some w') : OrderInv w' := by
  have hun := oneCaller_uncancelled h
  obtain ⟨hstep, hnc⟩ := uncancelled_step hun
  exact
    { conserved := conservationInv_step hi.conserved hun
      sole := sole_step hi.conserved hi.sole hstep hnc
      single := single_step hi.conserved.addsDone hi.single h }

-- =============================================================== the line

/-- The drain loop's native call takes the head of the line. -/
theorem lined_nativeSet {w : RemoteWorld} {n : Nat} {call : SetRemote}
    (outcome : Except Exc Unit) (hs : Sole SetRemote.carried w.setRemotes)
    (hl : Lined w) (hcall : w.setRemotes[n]? = some call)
    (hjob : call.job = .started) :
    Lined { w with
      setRemotes := w.setRemotes.set n { call with job := .done outcome }
      log := w.log ++ [(call.nativeCall, outcome)] } := by
  have hlog : (w.log ++ [(call.nativeCall, outcome)]).filterMap
      (fun e => e.1.candidate?) = w.handed ++ call.nativeCall.candidate?.toList :=
    handed_snoc
  have hl' : w.arrived
      = w.handed ++ w.draining ++ w.direct ++ w.bufferedRemoteCandidates := hl
  show w.arrived = _ ++ _ ++ w.direct ++ w.bufferedRemoteCandidates
  rw [handed, hlog, draining]
  cases hstage : call.stage with
  | applying =>
      have hkeep : (w.setRemotes.set n { call with job := .done outcome }).flatMap
          SetRemote.carried = w.draining := by
        refine Ledger.flatMap_set_keeps hcall ?_
        simp only [SetRemote.carried, hstage]
      have hnone : call.nativeCall.candidate? = none := by
        rw [SetRemote.nativeCall, hstage]
        rfl
      rw [hstage] at hkeep
      rw [hkeep, hnone, Option.toList_none, List.append_nil]
      exact hl'
  | draining current rest =>
      have hload : call.carried
          = current :: SetRemote.carried { call with job := .done outcome } := by
        simp [SetRemote.carried, hstage, hjob, Job.pending]
      have hne : call.carried ≠ [] := by
        rw [hload]
        exact List.cons_ne_nil _ _
      have hrest := hs.flatMap_set hcall hne { call with job := .done outcome }
      have hall : w.draining = call.carried := hs.flatMap_eq hcall hne
      have hsome : call.nativeCall.candidate? = some current := by
        rw [SetRemote.nativeCall, hstage]
        rfl
      rw [hstage] at hrest hload
      rw [hrest, hsome, hl', hall, hload]
      simp only [Option.toList_some, List.append_assoc, List.cons_append,
        List.nil_append]

/-- The direct call's native call takes the head of the line when the
drain loops have nothing left. -/
theorem lined_nativeAdd {w : RemoteWorld} {n : Nat} {call : AddCandidate}
    (outcome : Except Exc Unit) (hone : w.direct.length ≤ 1) (hl : Lined w)
    (hcall : w.addCandidates[n]? = some call) (hjob : call.job = .started)
    (hdrained : w.draining = []) :
    Lined { w with
      addCandidates := w.addCandidates.set n { call with job := .done outcome }
      log := w.log ++ [(.addRemoteCandidate call.candidate, outcome)] } := by
  obtain ⟨hdirect, hnil⟩ := direct_of_started hone hcall hjob outcome
  have hlog : (w.log ++ [(NativeCall.addRemoteCandidate call.candidate, outcome)]).filterMap
      (fun e => e.1.candidate?) = w.handed ++ [call.candidate] := handed_snoc
  have hl' : w.arrived
      = w.handed ++ w.draining ++ w.direct ++ w.bufferedRemoteCandidates := hl
  show w.arrived = _ ++ w.draining ++ _ ++ w.bufferedRemoteCandidates
  rw [handed, hlog, direct, hnil, hl', hdrained, hdirect]
  simp only [List.append_nil]

/-- The call that opens the gate moves the buffer into the line ahead of
it, where nobody stands. -/
theorem lined_opened {w : RemoteWorld} {n : Nat} {call : SetRemote} (hg : GateInv w)
    (hl : Lined w) (hcall : w.setRemotes[n]? = some call)
    (hstate : call.state = .suspended) (hstage : call.stage = .applying)
    (hjob : call.job = .done (.ok ())) :
    Lined (({ w with
        remoteDescriptionSet := true
        bufferedRemoteCandidates := [] } : RemoteWorld).drain n call
      w.bufferedRemoteCandidates) := by
  have hload := carried_drainCall hstate hjob w.bufferedRemoteCandidates
  have hl' : w.arrived
      = w.handed ++ w.draining ++ w.direct ++ w.bufferedRemoteCandidates := hl
  rw [Lined, drain_arrived, drain_buffered, handed, drain_log, draining,
    drain_setRemotes, direct, drain_addCandidates]
  show w.arrived = w.handed ++ (w.setRemotes.set n
    (drainCall call w.bufferedRemoteCandidates)).flatMap SetRemote.carried
      ++ w.direct ++ []
  cases hset : w.remoteDescriptionSet with
  | false =>
      have hshut := hg.shut hset
      have hnil := draining_of_shut hshut
      have hdraining : w.draining = [] := List.flatMap_eq_nil_iff.mpr hnil
      have hdirect : w.direct = [] := by
        rw [direct, hshut.adds]
        rfl
      have hall : (w.setRemotes.set n
          (drainCall call w.bufferedRemoteCandidates)).flatMap SetRemote.carried
          = w.bufferedRemoteCandidates := by
        refine (Ledger.flatMap_of_others_nil (List.getElem?_set_self
          (List.getElem?_eq_some_iff.mp hcall).1) ?_).trans hload
        intro j c hj hne
        rw [List.getElem?_set_ne hne.symm] at hj
        exact hnil c (List.mem_of_getElem? hj)
      rw [hall, hl', hdraining, hdirect]
      simp only [List.append_nil]
  | true =>
      have hbuf := (hg.opened hset).1
      have hkeep : (w.setRemotes.set n
          (drainCall call w.bufferedRemoteCandidates)).flatMap SetRemote.carried
          = w.draining := by
        refine Ledger.flatMap_set_keeps hcall ?_
        rw [hload, hbuf]
        simp only [SetRemote.carried, hstage]
      rw [hkeep, hl', hbuf]

/-- A step that overtakes nothing keeps the line. -/
theorem lined_step {w w' : RemoteWorld} {a : RemoteAction} (hi : OrderInv w)
    (hl : Lined w) (hok : NoOvertake a w) (h : oneCaller a w = some w') :
    Lined w' := by
  have hone := h
  obtain ⟨hstep, hnc⟩ := uncancelled_step (oneCaller_uncancelled h)
  have hl' : w.arrived
      = w.handed ++ w.draining ++ w.direct ++ w.bufferedRemoteCandidates := hl
  cases hstep with
  | called sdp type =>
      have hkeep : (w.setRemoteDescription sdp type).draining = w.draining := by
        show List.flatMap SetRemote.carried (_ ++ _) = _
        rw [List.flatMap_append]
        exact List.append_nil _
      show w.arrived = w.handed ++ (w.setRemoteDescription sdp type).draining
        ++ w.direct ++ w.bufferedRemoteCandidates
      rw [hkeep]
      exact hl'
  | buffered c _ =>
      show w.arrived ++ [c] = w.handed ++ w.draining ++ w.direct
        ++ (w.bufferedRemoteCandidates ++ [c])
      rw [hl', List.append_assoc]
  | sent c hset =>
      have hbuf := (hi.conserved.gate.opened hset).1
      have hdirect := direct_of_oneCaller hi.conserved.addsDone hone
      show w.arrived ++ [c] = w.handed ++ w.draining
        ++ List.flatMap AddCandidate.carried (_ ++ _) ++ w.bufferedRemoteCandidates
      have hdirect' : w.addCandidates.flatMap AddCandidate.carried = [] := hdirect
      rw [List.flatMap_append, hdirect', hl', hdirect, hbuf]
      simp only [List.append_nil, List.nil_append]
      rfl
  | startSet n call rest hcall =>
      have hkeep : (w.setRemotes.set n { call with job := call.job.start }).flatMap
          SetRemote.carried = w.draining := by
        refine Ledger.flatMap_set_keeps hcall ?_
        simp only [SetRemote.carried, Job.pending_start]
      show w.arrived = w.handed ++ _ ++ w.direct ++ w.bufferedRemoteCandidates
      rw [draining, hkeep]
      exact hl'
  | startAdd n call rest hcall =>
      have hkeep : (w.addCandidates.set n { call with job := call.job.start }).flatMap
          AddCandidate.carried = w.direct := by
        refine Ledger.flatMap_set_keeps hcall ?_
        simp only [AddCandidate.carried, Job.pending_start]
      show w.arrived = w.handed ++ w.draining ++ _ ++ w.bufferedRemoteCandidates
      rw [direct, hkeep]
      exact hl'
  | nativeSet n call outcome hcall hjob =>
      exact lined_nativeSet outcome hi.sole hl hcall hjob
  | nativeAdd n call outcome hcall hjob =>
      exact lined_nativeAdd outcome hi.single hl hcall hjob (hok n outcome rfl)
  | delivered n call hcall hstate =>
      rcases hi.conserved.undisturbed call (List.mem_of_getElem? hcall) with
        hst | ⟨⟨o, ho⟩, -⟩
      · cases hstate.symm.trans hst
      · cases hstate.symm.trans ho
  | failed n call e hcall _ hstage _ =>
      have hkeep : (w.setRemotes.set n
          { call with state := .ended (.raised e) }).flatMap SetRemote.carried
          = w.draining := by
        refine Ledger.flatMap_set_keeps hcall ?_
        simp only [SetRemote.carried, hstage]
      show w.arrived = w.handed ++ _ ++ w.direct ++ w.bufferedRemoteCandidates
      rw [draining, update, hkeep]
      exact hl'
  | opened n call hcall hstate hstage hjob =>
      exact lined_opened hi.conserved.gate hl hcall hstate hstage hjob
  | drained n call outcome current rest hcall hstate hstage hjob =>
      have hkeep : (w.setRemotes.set n (drainCall call rest)).flatMap
          SetRemote.carried = w.draining := by
        refine Ledger.flatMap_set_keeps hcall ?_
        rw [carried_drainCall hstate hjob]
        simp [SetRemote.carried, hstage, hjob, hstate, Job.pending]
      rw [Lined, drain_arrived, drain_buffered, handed, drain_log, draining,
        drain_setRemotes, direct, drain_addCandidates, hkeep]
      exact hl'
  | addReturned n call outcome hcall _ _ =>
      have hkeep : (w.addCandidates.set n { call with ended := some outcome }).flatMap
          AddCandidate.carried = w.direct :=
        Ledger.flatMap_set_keeps hcall rfl
      show w.arrived = w.handed ++ w.draining ++ _ ++ w.bufferedRemoteCandidates
      rw [direct, hkeep]
      exact hl'
  | asked n call _ _ => exact absurd rfl (hnc n)
  | _ => exact hl

-- ========================================================== order is kept

/-- What is in line was handed over in order. -/
theorem orderKept_of_lined {w : RemoteWorld} (hi : ConservationInv w) (hl : Lined w) :
    OrderKept w := by
  have hpre : w.handed <+: w.arrived := by
    refine ⟨w.draining ++ w.direct ++ w.bufferedRemoteCandidates, ?_⟩
    have hl' : w.arrived
        = w.handed ++ w.draining ++ w.direct ++ w.bufferedRemoteCandidates := hl
    rw [hl']
    simp only [List.append_assoc]
  refine ⟨hpre, ?_⟩
  intro hq happlied
  obtain ⟨hperm, -⟩ := (conserved_of_inv hi).applied hq happlied
  exact hpre.eq_of_length hperm.length_eq

/-- In every run of one caller in which no direct candidate's native call
is made ahead of a drain loop's candidates, call order is kept in every
state. -/
theorem orderKept_of_noOvertake (as : List RemoteAction)
    (hok : ∀ a w, Takes oneCaller init as a w → NoOvertake a w) :
    ∀ w, Visits oneCaller init as w → OrderKept w := by
  intro w hw
  have hline : OrderInv w ∧ Lined w :=
    Transition.visits_of_takes (P := fun w => OrderInv w ∧ Lined w)
      ⟨orderInv_init, rfl⟩
      (fun hm hoka ha => ⟨orderInv_step hm.1 ha, lined_step hm.1 hm.2 hoka ha⟩) hok w hw
  exact orderKept_of_lined hline.1.conserved hline.2

/-- One candidate is buffered and drained, the next goes straight
through. -/
def drainedFirstRun : List RemoteAction :=
  [.addRemoteCandidate ⟨"a", "0"⟩, .setRemoteDescription "v=0" .offer, .start,
    .native (.setRemote 0) (.ok ()), .resumeSetRemote 0, .start,
    .native (.setRemote 0) (.ok ()), .addRemoteCandidate ⟨"b", "0"⟩, .start,
    .native (.addCandidate 0) (.ok ())]

/-- The direct call is made when the drain loop is through. -/
theorem noOvertake_drainedFirstRun :
    ∀ a w, Takes oneCaller init drainedFirstRun a w → NoOvertake a w := by
  refine Transition.takes_of_only 9 rfl rfl (fun _ _ _ => rfl) ?_
  simp [drainedFirstRun, NoOvertake]

/-- `orderKept_of_noOvertake` at `drainedFirstRun`. -/
theorem orderKept_drainedFirstRun :
    ∃ w, exec oneCaller init drainedFirstRun = some w
      ∧ w.handed = [⟨"a", "0"⟩, ⟨"b", "0"⟩] ∧ OrderKept w :=
  ⟨_, rfl, rfl, orderKept_of_noOvertake drainedFirstRun noOvertake_drainedFirstRun _
    (Transition.visits_end rfl)⟩

/-- Two candidates are buffered; while the first is on its way the
caller's next one goes past the second. -/
def overtakingRun : List RemoteAction :=
  [.addRemoteCandidate ⟨"a", "0"⟩, .addRemoteCandidate ⟨"b", "0"⟩,
    .setRemoteDescription "v=0" .offer, .start, .native (.setRemote 0) (.ok ()),
    .resumeSetRemote 0, .addRemoteCandidate ⟨"c", "0"⟩, .start,
    .native (.setRemote 0) (.ok ()), .start, .native (.addCandidate 0) (.ok ()),
    .resumeSetRemote 0, .start, .native (.setRemote 0) (.ok ()),
    .resumeSetRemote 0, .resumeAddCandidate 0]

/-- `overtakingRun` ends with every call returned, and the native layer
was called out of order. -/
theorem candidate_overtakes :
    ∃ w, exec oneCaller init overtakingRun = some w ∧ w.Quiescent
      ∧ w.arrived = [⟨"a", "0"⟩, ⟨"b", "0"⟩, ⟨"c", "0"⟩]
      ∧ w.handed = [⟨"a", "0"⟩, ⟨"c", "0"⟩, ⟨"b", "0"⟩] := by
  refine ⟨_, rfl, ⟨?_, ?_⟩, rfl, rfl⟩
  · intro call hmem
    rw [List.mem_singleton.mp hmem]
    exact ⟨_, rfl⟩
  · intro call hmem
    rw [List.mem_singleton.mp hmem]
    exact nofun

end RemoteWorld

end AioLibDataChannel
