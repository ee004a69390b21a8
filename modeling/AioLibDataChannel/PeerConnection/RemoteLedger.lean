/-
Where every remote candidate is: `RemoteWorld` as an account of the
`Ledger`.

What `add_remote_candidate` was given is held in the buffer, carried by
a call that has still to submit or make its native call, or handed over.
Every step is a move of that account but one (`moves_step`): a
cancellation delivered to a `set_remote_description` in its drain loop
loses what the loop had still to take.
-/
import AioLibDataChannel.Ledger.Basic
import AioLibDataChannel.PeerConnection.Remote

namespace AioLibDataChannel

open Asyncio (Job Outcome)
open Ledger (Account Move Loses)

/-- The candidate a native call hands over. -/
def NativeCall.candidate? : NativeCall → Option Candidate
  | .setRemoteDescription _ _ => none
  | .addRemoteCandidate c => some c

/-- The candidates a `set_remote_description` has still to hand over. -/
def SetRemote.carried (call : SetRemote) : List Candidate :=
  match call.stage with
  | .applying => []
  | .draining current rest =>
      (if call.job.pending then [current] else [])
        ++ (match call.state with
            | .ended _ => []
            | _ => rest)

/-- The candidate an `add_remote_candidate` has still to hand over. -/
def AddCandidate.carried (call : AddCandidate) : List Candidate :=
  if call.job.pending then [call.candidate] else []

namespace RemoteWorld

/-- The candidates the native layer was called with, in order. -/
def handed (w : RemoteWorld) : List Candidate :=
  w.log.filterMap fun entry => entry.1.candidate?

/-- The candidates on their way. -/
def carried (w : RemoteWorld) : List Candidate :=
  w.setRemotes.flatMap SetRemote.carried ++ w.addCandidates.flatMap AddCandidate.carried

/-- The account of the candidates. -/
def account (w : RemoteWorld) : Account Candidate where
  given := w.arrived
  held := w.bufferedRemoteCandidates
  carried := w.carried
  handed := w.handed

-- ===================================================== what a call loses

/-- What a cancellation delivered to the call loses. -/
def forsaken (call : SetRemote) : List Candidate :=
  match call.stage with
  | .applying => []
  | .draining current rest =>
      (match call.job with
        | .queued => [current]
        | _ => []) ++ rest

/-- The record of a call whose cancellation was delivered. -/
def cancelledCall (call : SetRemote) : SetRemote :=
  { call with job := call.job.cancel, state := .ended .cancelled }

/-- A cancelled call forsakes what it carries, but for the candidate its
job has. -/
theorem carried_delivered {call : SetRemote} (h : call.state = .cancelling) :
    call.carried.Perm (forsaken call ++ (cancelledCall call).carried) := by
  unfold SetRemote.carried forsaken cancelledCall
  cases call.stage with
  | applying => exact .refl _
  | draining current rest =>
      simp only [h]
      cases call.job with
      | queued => simp [Job.pending, Job.cancel]
      | started =>
          simp only [Job.pending, Job.cancel, if_true, List.nil_append, List.append_nil]
          exact List.perm_append_comm
      | done _ => simp [Job.pending, Job.cancel]
      | dropped => simp [Job.pending, Job.cancel]

/-- A call that goes on draining carries all that is pending. -/
theorem carried_drainCall {call : SetRemote} {outcome : Except Exc Unit}
    (hstate : call.state = .suspended) (hjob : call.job = .done outcome)
    (pending : List Candidate) : (drainCall call pending).carried = pending := by
  cases pending with
  | nil =>
      unfold SetRemote.carried drainCall
      cases call.stage with
      | applying => rfl
      | draining current rest => simp [hjob, Job.pending]
  | cons c rest => simp [SetRemote.carried, drainCall, Job.pending, hstate]

-- ============================================================ accounting

/-- The step delivers a cancellation to this call. -/
def Delivers (a : RemoteAction) (w : RemoteWorld) (call : SetRemote) : Prop :=
  ∃ n, a = .resumeSetRemote n ∧ w.setRemotes[n]? = some call
    ∧ call.state = .cancelling

/-- A candidate is handed over with its native call. -/
theorem handed_snoc {w : RemoteWorld} {entry : NativeCall × Except Exc Unit} :
    (w.log ++ [entry]).filterMap (fun e => e.1.candidate?)
      = w.handed ++ entry.1.candidate?.toList := by
  rw [List.filterMap_append]
  cases h : entry.1.candidate? <;> simp [handed, h]

/-- A `set_remote_description` changes its record only. -/
theorem carry_set {w w' : RemoteWorld} {n : Nat} {call : SetRemote}
    (call' : SetRemote) (hcall : w.setRemotes[n]? = some call) (hload : call'.carried = call.carried)
    (hsets : w'.setRemotes = w.setRemotes.set n call')
    (hadds : w'.addCandidates = w.addCandidates) (hlog : w'.handed = w.handed)
    (hbuf : w'.bufferedRemoteCandidates = w.bufferedRemoteCandidates)
    (harr : w'.arrived = w.arrived) : Move w.account w'.account := by
  refine .carry harr hbuf ?_ hlog
  show (_ ++ _ : List Candidate).Perm (_ ++ _)
  rw [hsets, hadds]
  rw [Ledger.flatMap_set_keeps hcall hload]

/-- An `add_remote_candidate` changes its record only. -/
theorem carry_add {w w' : RemoteWorld} {n : Nat} {call : AddCandidate}
    (call' : AddCandidate) (hcall : w.addCandidates[n]? = some call) (hload : call'.carried = call.carried)
    (hadds : w'.addCandidates = w.addCandidates.set n call')
    (hsets : w'.setRemotes = w.setRemotes) (hlog : w'.handed = w.handed)
    (hbuf : w'.bufferedRemoteCandidates = w.bufferedRemoteCandidates)
    (harr : w'.arrived = w.arrived) : Move w.account w'.account := by
  refine .carry harr hbuf ?_ hlog
  show (_ ++ _ : List Candidate).Perm (_ ++ _)
  rw [hsets, hadds]
  rw [Ledger.flatMap_set_keeps hcall hload]

/-- A native call of the drain loop moves its candidate to those handed
over. -/
theorem moves_nativeSet {w : RemoteWorld} {n : Nat} {call : SetRemote}
    (outcome : Except Exc Unit) (hcall : w.setRemotes[n]? = some call)
    (hjob : call.job = .started) :
    Move w.account
      ({ w with
        setRemotes := w.setRemotes.set n { call with job := .done outcome }
        log := w.log ++ [(call.nativeCall, outcome)] } : RemoteWorld).account := by
  cases hstage : call.stage with
  | applying =>
      refine carry_set _ hcall ?_ rfl rfl ?_ rfl rfl
      · simp only [SetRemote.carried, hstage]
      · refine handed_snoc.trans ?_
        simp only [SetRemote.nativeCall, hstage]
        exact List.append_nil _
  | draining current rest =>
      refine .hand current rfl rfl ?_ ?_
      · refine List.Perm.append_right _ (Ledger.flatMap_set_loses [current]
          hcall ?_)
        simp [SetRemote.carried, hstage, hjob, Job.pending]
      · refine handed_snoc.trans ?_
        simp only [SetRemote.nativeCall, hstage]
        rfl

/-- A direct native call moves its candidate there, too. -/
theorem moves_nativeAdd {w : RemoteWorld} {n : Nat} {call : AddCandidate}
    (outcome : Except Exc Unit) (hcall : w.addCandidates[n]? = some call)
    (hjob : call.job = .started) :
    Move w.account
      ({ w with
        addCandidates := w.addCandidates.set n { call with job := .done outcome }
        log := w.log ++ [(.addRemoteCandidate call.candidate, outcome)] }
          : RemoteWorld).account := by
  refine .hand call.candidate rfl rfl ?_ handed_snoc
  have hadds : (w.addCandidates.flatMap AddCandidate.carried).Perm
      ([call.candidate]
        ++ (w.addCandidates.set n { call with job := .done outcome }).flatMap
            AddCandidate.carried) := by
    refine Ledger.flatMap_set_loses [call.candidate] hcall ?_
    simp [AddCandidate.carried, hjob, Job.pending]
  refine (hadds.append_left _).trans ?_
  exact List.perm_middle

/-- The call that opens the gate takes the buffer with it. -/
theorem moves_opened {w : RemoteWorld} {n : Nat} {call : SetRemote}
    (hcall : w.setRemotes[n]? = some call) (hstate : call.state = .suspended)
    (hstage : call.stage = .applying) (hjob : call.job = .done (.ok ())) :
    Move w.account
      (({ w with
          remoteDescriptionSet := true
          bufferedRemoteCandidates := [] } : RemoteWorld).drain n call
        w.bufferedRemoteCandidates).account := by
  have hload := carried_drainCall hstate hjob w.bufferedRemoteCandidates
  have hsets : ((w.setRemotes.set n
        (drainCall call w.bufferedRemoteCandidates)).flatMap SetRemote.carried).Perm
      (w.bufferedRemoteCandidates ++ w.setRemotes.flatMap SetRemote.carried) := by
    refine Ledger.flatMap_set_gains _ hcall ?_
    rw [hload]
    simp [SetRemote.carried, hstage]
  refine .release (drain_arrived ..) (drain_buffered ..) ?_ ?_
  · show (_ ++ _ : List Candidate).Perm _
    rw [drain_setRemotes, drain_addCandidates]
    refine (hsets.append_right _).trans ?_
    rw [List.append_assoc]
    exact .refl _
  · show List.filterMap _ _ = _
    rw [drain_log]
    rfl

/-- A cancellation is delivered: the call goes down with what its loop
had not taken. -/
theorem loses_delivered {w : RemoteWorld} {n : Nat} {call : SetRemote}
    (hcall : w.setRemotes[n]? = some call) (hstate : call.state = .cancelling) :
    Loses (forsaken call) w.account (w.update n (cancelledCall call)).account where
  given := rfl
  held := rfl
  carried := by
    refine ((Ledger.flatMap_set_loses _ hcall (carried_delivered hstate)).append_right
      _).trans ?_
    rw [List.append_assoc]
    exact .refl _
  handed := rfl

/-- Every step is a move of the account, unless it delivers a
cancellation. -/
theorem moves_step {w w' : RemoteWorld} {a : RemoteAction} (h : Step w a w') :
    Move w.account w'.account
      ∨ ∃ call, Delivers a w call ∧ Loses (forsaken call) w.account w'.account := by
  cases h with
  | called sdp type =>
      refine Or.inl (.carry rfl rfl ?_ rfl)
      show (_ ++ _ : List Candidate).Perm (_ ++ _)
      refine List.Perm.append_right _ ?_
      show (List.flatMap SetRemote.carried (_ ++ _)).Perm _
      rw [List.flatMap_append]
      exact .of_eq (List.append_nil _)
  | buffered c _ => exact Or.inl (.hold c rfl rfl rfl rfl)
  | sent c _ =>
      refine Or.inl (.send c rfl rfl ?_ rfl)
      show (_ ++ List.flatMap _ (_ ++ _) : List Candidate).Perm (c :: (_ ++ _))
      rw [List.flatMap_append, ← List.append_assoc]
      exact List.perm_append_singleton c _
  | startNone rest => exact Or.inl (.carry rfl rfl (.refl _) rfl)
  | startSet n call rest hcall =>
      refine Or.inl (carry_set { call with job := call.job.start } hcall ?_
        rfl rfl rfl rfl rfl)
      simp only [SetRemote.carried, Job.pending_start]
  | startAdd n call rest hcall =>
      refine Or.inl (carry_add { call with job := call.job.start } hcall ?_
        rfl rfl rfl rfl rfl)
      simp only [AddCandidate.carried, Job.pending_start]
  | nativeSet n call outcome hcall hjob =>
      exact Or.inl (moves_nativeSet outcome hcall hjob)
  | nativeAdd n call outcome hcall hjob =>
      exact Or.inl (moves_nativeAdd outcome hcall hjob)
  | delivered n call hcall hstate =>
      exact Or.inr ⟨call, ⟨n, rfl, hcall, hstate⟩, loses_delivered hcall hstate⟩
  | failed n call e hcall _ hstage _ =>
      refine Or.inl (carry_set { call with state := .ended (.raised e) }
        hcall ?_ rfl rfl rfl rfl rfl)
      simp only [SetRemote.carried, hstage]
  | opened n call hcall hstate hstage hjob =>
      exact Or.inl (moves_opened hcall hstate hstage hjob)
  | drained n call outcome current rest hcall hstate hstage hjob =>
      refine Or.inl (carry_set (drainCall call rest) hcall ?_
        (drain_setRemotes ..) (drain_addCandidates ..) ?_ (drain_buffered ..)
        (drain_arrived ..))
      · rw [carried_drainCall hstate hjob]
        simp [SetRemote.carried, hstage, hjob, hstate, Job.pending]
      · rw [handed, drain_log]
        rfl
  | addReturned n call outcome hcall _ _ =>
      exact Or.inl (carry_add { call with ended := some outcome } hcall rfl
        rfl rfl rfl rfl rfl)
  | asked n call hcall hstate =>
      refine Or.inl (carry_set { call with state := .cancelling } hcall ?_
        rfl rfl rfl rfl rfl)
      simp only [SetRemote.carried, hstate]
  | ignored n => exact Or.inl (.carry rfl rfl (.refl _) rfl)

end RemoteWorld

end AioLibDataChannel
