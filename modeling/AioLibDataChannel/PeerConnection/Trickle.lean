/-
Trickling: the candidates of one connection, forwarded to another by
pumps, each an `async for` over `ice_candidates()` that awaits
`add_remote_candidate` for what it gets.

The local side is the machine of the streams, the remote side that of
the signaling, and a pump is a task between them: it reads, it forwards,
and it reads again when the call has returned. A call that is buffered
returns at once. One that the native layer rejects raises, and the pump
with it: the drain loop skips such a candidate, a pump does not.

# What a step is

A step of either side, or of a pump: its next read, the resumption of
one, the return of its call, a cancellation and its delivery. A pump
goes from one item to the next without giving way; here other steps may
come in between, which only adds runs.

# The account

Every candidate the connection reported is queued, buffered, on its way
in the thread pool, or handed to the other native layer (`forwarded`);
`dropped` is what delivered cancellations took with them. With one pump,
and nobody cancelled, they stand in one line, in the order they were
reported (`forwarded_inOrder`).
-/
import AioLibDataChannel.PeerConnection.Cancellation
import AioLibDataChannel.PeerConnection.Order
import AioLibDataChannel.PeerConnection.Streams

namespace AioLibDataChannel

open Asyncio (Job Relay Seen)
open Function (update)
open Ledger (Account Loses Move)
open Transition (exec Takes)

/-- Where a pump stands: about to read, in `get()`, awaiting a call of
`add_remote_candidate` by its number, cancelled there, or at its end. -/
inductive Pump
  | idle
  | reading
  | forwarding (call : Nat)
  | cancelling (call : Nat)
  | ended
  | raised (e : Exc)
  | cancelled
deriving DecidableEq

/-- It is in a call of the other connection. -/
def Pump.inCall : Pump → Bool
  | forwarding _ => true
  | cancelling _ => true
  | _ => false

/-- Two connections and the pumps between them. -/
structure TrickleWorld where
  source : StreamWorld
  remote : RemoteWorld
  pump : Nat → Pump
  dropped : List Candidate

namespace TrickleWorld

/-- Two new connections. -/
def init (handle : Int) (core : Core) : TrickleWorld where
  source := StreamWorld.init handle core
  remote := RemoteWorld.init
  pump := fun _ => .idle
  dropped := []

inductive Action
  | source (a : StreamWorld.Action)
  | remote (a : RemoteAction)
  | next (n : Nat)
  | resume (n : Nat)
  | returned (n : Nat)
  | cancel (n : Nat)
  | delivered (n : Nat)

-- ================================================================ pumps

def setPump (n : Nat) (p : Pump) (w : TrickleWorld) : TrickleWorld :=
  { w with pump := update w.pump n p }

/-- What a read of the candidates came to, if it ended. -/
def saw (s s' : StreamWorld) : Option (Seen Candidate) :=
  (s'.iceCandidates.seen.drop s.iceCandidates.seen.length).head?.map Prod.snd

/-- `await remote.add_remote_candidate(...)`. -/
def forward (n : Nat) (c : Candidate) (w : TrickleWorld) : TrickleWorld :=
  let w' : TrickleWorld := { w with remote := w.remote.addRemoteCandidate c }
  if w.remote.remoteDescriptionSet
    then w'.setPump n (.forwarding w.remote.addCandidates.length)
  else w'.setPump n .idle

/-- A step of the pump's read, and what the loop makes of it. -/
def read (n : Nat) (s : ConsumerStep) (w : TrickleWorld) : Option TrickleWorld :=
  match w.source.consume s (.iceCandidates n) with
  | none => none
  | some source =>
      let w' : TrickleWorld := { w with source := source }
      match saw w.source source with
      | none => some (w'.setPump n .reading)
      | some (.item c) => some (w'.forward n c)
      | some .ended => some (w'.setPump n .ended)
      | some .cancelled => some (w'.setPump n .cancelled)

/-- The pump's call returns, or raises into the loop. -/
def returned (n : Nat) (w : TrickleWorld) : Option TrickleWorld :=
  match w.pump n with
  | .forwarding k =>
      match w.remote.resumeAddCandidate k with
      | none => none
      | some remote =>
          let w' : TrickleWorld := { w with remote := remote }
          match (remote.addCandidates[k]?).bind AddCandidate.ended with
          | some (.error e) => some (w'.setPump n (.raised e))
          | _ => some (w'.setPump n .idle)
  | _ => none

/-- `Task.cancel()` on a pump. -/
def cancel (n : Nat) (w : TrickleWorld) : TrickleWorld :=
  match w.pump n with
  | .idle => w.setPump n .cancelled
  | .reading => { w with source := w.source.cancel (.iceCandidates n) }
  | .forwarding k => w.setPump n (.cancelling k)
  | _ => w

/-- The cancellation reaches a pump in its call: a job that no thread
has taken is dropped, and the candidate with it. -/
def delivered (n : Nat) (w : TrickleWorld) : Option TrickleWorld :=
  match w.pump n with
  | .cancelling k =>
      match w.remote.addCandidates[k]? with
      | none => none
      | some call =>
          let w' : TrickleWorld := { w with
            remote := { w.remote with
              addCandidates := w.remote.addCandidates.set k
                { call with job := call.job.cancel } }
            dropped := w.dropped ++ (match call.job with
              | .queued => [call.candidate]
              | _ => []) }
          some (w'.setPump n .cancelled)
  | _ => none

-- ============================================================== actions

/-- A consumer of the candidates. -/
def ofCandidates : Consumer → Bool
  | .iceCandidates _ => true
  | _ => false

/-- The stream of the candidates is the pumps'; one that `close()`
cancels is cancelled by an action of its own. -/
def reads : StreamWorld.Action → Bool
  | .consume _ c => ofCandidates c
  | .close owned => owned.any ofCandidates
  | _ => false

/-- So are the calls of `add_remote_candidate`. -/
def adds : RemoteAction → Bool
  | .addRemoteCandidate _ => true
  | .resumeAddCandidate _ => true
  | _ => false

/-- What a delivered cancellation of `set_remote_description` takes with
it. -/
def lost (a : RemoteAction) (r : RemoteWorld) : List Candidate :=
  match a with
  | .resumeSetRemote n =>
      match r.setRemotes[n]? with
      | none => []
      | some call =>
          match call.state with
          | .cancelling => RemoteWorld.forsaken call
          | _ => []
  | _ => []

/-- The transition. -/
def apply : Action → TrickleWorld → Option TrickleWorld
  | .source a, w =>
      if reads a then none
      else (StreamWorld.apply a w.source).map fun s => { w with source := s }
  | .remote a, w =>
      if adds a then none
      else (RemoteWorld.apply a w.remote).map fun r =>
        { w with remote := r, dropped := w.dropped ++ lost a w.remote }
  | .next n, w => if w.pump n = .idle then w.read n .get else none
  | .resume n, w => if w.pump n = .reading then w.read n .resume else none
  | .returned n, w => w.returned n
  | .cancel n, w => some (w.cancel n)
  | .delivered n, w => w.delivered n

/-- The candidate an action reports. -/
def Action.candidate? : Action → Option Candidate
  | source a => a.candidate?
  | _ => none

/-- What a step can be. -/
inductive Step (w : TrickleWorld) : Action → TrickleWorld → Prop
  | source (a : StreamWorld.Action) (s : StreamWorld) : reads a = false →
      StreamWorld.apply a w.source = some s → Step w (.source a) { w with source := s }
  | remote (a : RemoteAction) (r : RemoteWorld) : adds a = false →
      RemoteWorld.apply a w.remote = some r →
      Step w (.remote a) { w with remote := r, dropped := w.dropped ++ lost a w.remote }
  | read (a : Action) (n : Nat) (s : ConsumerStep) (source : StreamWorld)
      (seen : Option (Seen Candidate)) (p : Pump) :
      (a = .next n ∧ s = .get ∧ w.pump n = .idle)
        ∨ (a = .resume n ∧ s = .resume ∧ w.pump n = .reading) →
      w.source.consume s (.iceCandidates n) = some source →
      saw w.source source = seen → seen.bind Seen.toItem? = none → p.inCall = false →
      Step w a (({ w with source := source } : TrickleWorld).setPump n p)
  | forwarded (a : Action) (n : Nat) (s : ConsumerStep) (source : StreamWorld)
      (c : Candidate) :
      (a = .next n ∧ s = .get ∧ w.pump n = .idle)
        ∨ (a = .resume n ∧ s = .resume ∧ w.pump n = .reading) →
      w.source.consume s (.iceCandidates n) = some source →
      saw w.source source = some (.item c) →
      Step w a (({ w with source := source } : TrickleWorld).forward n c)
  | returned (n k : Nat) (remote : RemoteWorld) (p : Pump) : w.pump n = .forwarding k →
      w.remote.resumeAddCandidate k = some remote → p.inCall = false →
      Step w (.returned n) (({ w with remote := remote } : TrickleWorld).setPump n p)
  | cancelled (n : Nat) : Step w (.cancel n) (w.cancel n)
  | delivered (n k : Nat) (call : AddCandidate) : w.pump n = .cancelling k →
      w.remote.addCandidates[k]? = some call →
      Step w (.delivered n)
        (({ w with
            remote := { w.remote with
              addCandidates := w.remote.addCandidates.set k
                { call with job := call.job.cancel } }
            dropped := w.dropped ++ (match call.job with
              | .queued => [call.candidate]
              | _ => []) } : TrickleWorld).setPump n .cancelled)

variable {w w' : TrickleWorld} {a : Action}

/-- A pump reads the stream when it asks and when it is resumed. -/
theorem read_step {n : Nat} {s : ConsumerStep}
    (ha : (a = .next n ∧ s = .get ∧ w.pump n = .idle)
      ∨ (a = .resume n ∧ s = .resume ∧ w.pump n = .reading))
    (h : w.read n s = some w') : Step w a w' := by
  unfold read at h
  split at h
  next => cases h
  next source hs =>
    split at h
    next hsaw =>
      cases h
      exact .read a n s source none .reading ha hs hsaw rfl rfl
    next c hsaw =>
      cases h
      exact .forwarded a n s source c ha hs hsaw
    next hsaw =>
      cases h
      exact .read a n s source _ .ended ha hs hsaw rfl rfl
    next hsaw =>
      cases h
      exact .read a n s source _ .cancelled ha hs hsaw rfl rfl

/-- The transition takes no other step. -/
theorem step_cases (h : apply a w = some w') : Step w a w' := by
  cases a with
  | source b =>
      simp only [apply] at h
      split at h
      next => cases h
      next hb =>
        obtain ⟨s, hs, rfl⟩ := Option.map_eq_some_iff.mp h
        exact .source b s ((Bool.not_eq_true _).mp hb) hs
  | remote b =>
      simp only [apply] at h
      split at h
      next => cases h
      next hb =>
        obtain ⟨r, hr, rfl⟩ := Option.map_eq_some_iff.mp h
        exact .remote b r ((Bool.not_eq_true _).mp hb) hr
  | next n =>
      simp only [apply] at h
      split at h
      next hp => exact read_step (Or.inl ⟨rfl, rfl, hp⟩) h
      next => cases h
  | resume n =>
      simp only [apply] at h
      split at h
      next hp => exact read_step (Or.inr ⟨rfl, rfl, hp⟩) h
      next => cases h
  | returned n =>
      simp only [apply, returned] at h
      split at h
      next k hp =>
        split at h
        next => cases h
        next remote hr =>
          split at h
          next e he =>
            cases h
            exact .returned n k remote _ hp hr rfl
          next =>
            cases h
            exact .returned n k remote _ hp hr rfl
      next => cases h
  | cancel n =>
      cases h
      exact .cancelled n
  | delivered n =>
      simp only [apply, delivered] at h
      split at h
      next k hp =>
        split at h
        next => cases h
        next call hcall =>
          cases h
          exact .delivered n k call hp hcall
      next => cases h

-- ================================================================ reading

/-- What a read saw is what was taken. -/
theorem taken_read {n : Nat} {s : ConsumerStep} {v v' : StreamWorld}
    (hs : s = .get ∨ s = .resume) (h : v.consume s (.iceCandidates n) = some v') :
    v'.iceCandidates.taken
      = v.iceCandidates.taken ++ ((saw v v').bind Seen.toItem?).toList := by
  obtain ⟨r, hr, rfl⟩ := Option.map_eq_some_iff.mp h
  have hread : (s.on n : Relay.Action Candidate Nat) = .get n
      ∨ (s.on n : Relay.Action Candidate Nat) = .resume n := by
    rcases hs with rfl | rfl
    · exact Or.inl rfl
    · exact Or.inr rfl
  rcases Relay.seen_reads hread hr with hseen | ⟨x, hseen⟩
  · have hsaw : saw v { v with iceCandidates := r } = none := by
      show ((r.seen.drop v.iceCandidates.seen.length).head?.map Prod.snd) = none
      rw [hseen, List.drop_length]
      rfl
    rw [hsaw]
    show r.seen.filterMap _ = v.iceCandidates.seen.filterMap _ ++ []
    rw [hseen, List.append_nil]
  · have hsaw : saw v { v with iceCandidates := r } = some x.2 := by
      show ((r.seen.drop v.iceCandidates.seen.length).head?.map Prod.snd) = _
      rw [hseen, List.drop_left]
      rfl
    rw [hsaw]
    show r.seen.filterMap _ = v.iceCandidates.seen.filterMap _ ++ _
    rw [hseen, List.filterMap_append]
    obtain ⟨t, x⟩ := x
    cases x <;> rfl

/-- A cancellation is seen later, by the read that it reaches. -/
theorem taken_cancel (n : Nat) (v : StreamWorld) :
    (v.cancel (.iceCandidates n)).iceCandidates.taken = v.iceCandidates.taken := by
  show (v.iceCandidates.cancel n).taken = _
  unfold Relay.cancel
  split <;> rfl

/-- Nobody else takes candidates. -/
theorem taken_source {b : StreamWorld.Action} {v v' : StreamWorld} (hb : reads b = false)
    (h : StreamWorld.apply b v = some v') :
    v'.iceCandidates.taken = v.iceCandidates.taken := by
  cases b with
  | dispatch d =>
      cases h
      cases d with
      | stateChange state =>
          show (v.handleStateChange state).iceCandidates.taken = _
          unfold StreamWorld.handleStateChange
          split <;> rfl
      | gatheringState state =>
          show (v.handleGatheringState state).iceCandidates.taken = _
          unfold StreamWorld.handleGatheringState
          split <;> rfl
      | _ => rfl
  | close owned =>
      cases h
      have hcancels : ∀ (cs : List Consumer) (v : StreamWorld),
          reads (.close cs) = false →
            (cs.foldl StreamWorld.cancel v).iceCandidates = v.iceCandidates := by
        intro cs
        induction cs with
        | nil => exact fun _ _ => rfl
        | cons c rest ih =>
            intro v hcs
            have hboth : (ofCandidates c || rest.any ofCandidates) = false := hcs
            obtain ⟨hc, hrest⟩ := Bool.or_eq_false_iff.mp hboth
            rw [List.foldl_cons, ih _ hrest]
            cases c with
            | iceCandidates n => cases hc
            | incoming r => rfl
            | events n => rfl
      unfold StreamWorld.close
      split
      · rfl
      · show (owned.foldl StreamWorld.cancel _).iceCandidates.taken = _
        rw [hcancels owned _ hb]
        rfl
  | consume s c =>
      cases c with
      | iceCandidates n => cases hb
      | incoming r =>
          obtain ⟨q, -, rfl⟩ := Option.map_eq_some_iff.mp h
          rfl
      | events n =>
          obtain ⟨q, -, rfl⟩ := Option.map_eq_some_iff.mp h
          rfl

-- ============================================================= the account

/-- The account of the remote side, with what cancellations dropped kept
in sight. -/
def account (w : TrickleWorld) : Account Candidate :=
  { w.remote.account with carried := w.remote.carried ++ w.dropped }

/-- A step that moves no candidate. -/
theorem move_refl (w : TrickleWorld) : Move w.account w.account :=
  .carry rfl rfl (.refl _) rfl

/-- The other steps of the remote side let nothing arrive. -/
theorem arrived_remote {b : RemoteAction} {r r' : RemoteWorld} (hb : adds b = false)
    (h : RemoteWorld.Step r b r') : r'.arrived = r.arrived := by
  cases h with
  | buffered c _ => cases hb
  | sent c _ => cases hb
  | opened n call _ _ _ _ => exact RemoteWorld.drain_arrived ..
  | drained n call _ _ _ _ _ _ _ => exact RemoteWorld.drain_arrived ..
  | _ => rfl

/-- What is lost is what a delivered cancellation takes with it. -/
theorem lost_eq {b : RemoteAction} {r : RemoteWorld} {call : SetRemote}
    (h : RemoteWorld.Delivers b r call) : lost b r = RemoteWorld.forsaken call := by
  obtain ⟨n, rfl, hcall, hstate⟩ := h
  simp only [lost, hcall, hstate]

/-- Only a cancellation that is delivered loses candidates. -/
theorem lost_eq_nil {b : RemoteAction} {r : RemoteWorld}
    (h : ¬ ∃ call, RemoteWorld.Delivers b r call) : lost b r = [] := by
  unfold lost
  split
  next n =>
    split
    next => rfl
    next call hcall =>
      split
      next hstate => exact absurd ⟨call, n, rfl, hcall, hstate⟩ h
      next => rfl
  next => rfl

/-- A step of the remote side moves its account, and nothing goes out of
sight. -/
theorem moves_remote {b : RemoteAction} {r r' : RemoteWorld} (dropped : List Candidate)
    (h : RemoteWorld.Step r b r') :
    Move { r.account with carried := r.carried ++ dropped }
      { r'.account with carried := r'.carried ++ (dropped ++ lost b r) } := by
  rcases RemoteWorld.moves_step h with hmove | ⟨call, hdel, hloses⟩
  · by_cases hdel : ∃ call, RemoteWorld.Delivers b r call
    · obtain ⟨call, hdel⟩ := hdel
      obtain ⟨n, hcall, hstate, rfl⟩ := RemoteWorld.eq_of_delivers h hdel
      rw [lost_eq hdel]
      exact (RemoteWorld.loses_delivered hcall hstate).kept dropped
    · rw [lost_eq_nil hdel, List.append_nil]
      exact hmove.frame dropped
  · rw [lost_eq hdel]
    exact hloses.kept dropped

/-- The job of a pump's call is cancelled: a queued one drops its
candidate. -/
theorem moves_delivered {k : Nat} {call : AddCandidate}
    (hcall : w.remote.addCandidates[k]? = some call) :
    Move w.account
      (TrickleWorld.account { w with
        remote := { w.remote with
          addCandidates := w.remote.addCandidates.set k
            { call with job := call.job.cancel } }
        dropped := w.dropped ++ (match call.job with
          | .queued => [call.candidate]
          | _ => []) }) := by
  have hload : call.carried.Perm ((match call.job with
        | .queued => [call.candidate]
        | _ => [])
      ++ AddCandidate.carried { call with job := call.job.cancel }) := by
    cases hjob : call.job <;> simp [AddCandidate.carried, hjob, Job.pending, Job.cancel]
  have hloses := Ledger.flatMap_set_loses _ hcall hload
  refine Loses.kept (a := w.remote.account) (b := RemoteWorld.account { w.remote with
    addCandidates := w.remote.addCandidates.set k { call with job := call.job.cancel } })
    ⟨rfl, rfl, ?_, rfl⟩ w.dropped
  show (w.remote.setRemotes.flatMap SetRemote.carried ++ _ : List Candidate).Perm
    (_ ++ (w.remote.setRemotes.flatMap SetRemote.carried ++ _))
  refine (hloses.append_left _).trans ?_
  rw [← List.append_assoc, ← List.append_assoc]
  exact List.perm_append_comm.append_right _

/-- Every step moves each candidate at most one place on. -/
theorem moves_step (h : Step w a w') : Move w.account w'.account := by
  cases h with
  | source b s hb hs => exact move_refl w
  | remote b r hb hr => exact moves_remote w.dropped (RemoteWorld.apply_step hr)
  | read a n s source seen p ha hs hsaw hnone hp => exact move_refl w
  | forwarded a n s source c ha hs hsaw =>
      have hstep : RemoteWorld.Step w.remote (.addRemoteCandidate c)
          (w.remote.addRemoteCandidate c) := RemoteWorld.apply_step rfl
      have hmove := moves_remote w.dropped hstep
      have hnil : lost (.addRemoteCandidate c) w.remote = [] := rfl
      rw [hnil, List.append_nil] at hmove
      unfold forward
      split <;> exact hmove
  | returned n k remote p hp hr hidle =>
      have hmove := moves_remote w.dropped (RemoteWorld.resumeAddCandidate_step hr)
      have hnil : lost (.resumeAddCandidate k) w.remote = [] := rfl
      rw [hnil, List.append_nil] at hmove
      exact hmove
  | cancelled n =>
      unfold cancel
      split <;> exact move_refl w
  | delivered n k call hp hcall => exact moves_delivered hcall

-- =================================================================== steps

/-- A step of the source or of a read, on the candidates' stream. -/
theorem source_step (hw : StreamWorld.StreamsInv w.source) (h : Step w a w') :
    StreamWorld.StreamsInv w'.source
      ∧ w'.source.iceCandidates.taken ++ w'.source.iceCandidates.queued
        = w.source.iceCandidates.taken ++ w.source.iceCandidates.queued
          ++ a.candidate?.toList := by
  have hread : ∀ {s : ConsumerStep} {n : Nat} {source : StreamWorld},
      w.source.consume s (.iceCandidates n) = some source →
        StreamWorld.StreamsInv source
          ∧ source.iceCandidates.taken ++ source.iceCandidates.queued
            = w.source.iceCandidates.taken ++ w.source.iceCandidates.queued ++ [] := by
    intro s n source hs
    obtain ⟨hstep, hinv, -⟩ :=
      StreamWorld.step_spec (a := .consume s (.iceCandidates n)) hw hs
    exact ⟨hinv, hstep.ice.conserves hw.sound.ice⟩
  have hnone : ∀ {b : Action} {n : Nat} {s : ConsumerStep},
      (b = .next n ∧ s = .get ∧ w.pump n = .idle)
        ∨ (b = .resume n ∧ s = .resume ∧ w.pump n = .reading) → b.candidate? = none := by
    rintro b n s (⟨rfl, -⟩ | ⟨rfl, -⟩) <;> rfl
  have hsame : StreamWorld.StreamsInv w.source
      ∧ w.source.iceCandidates.taken ++ w.source.iceCandidates.queued
        = w.source.iceCandidates.taken ++ w.source.iceCandidates.queued ++ [] :=
    ⟨hw, (List.append_nil _).symm⟩
  cases h with
  | source b s hb hs =>
      obtain ⟨hstep, hinv, -⟩ := StreamWorld.step_spec hw hs
      exact ⟨hinv, hstep.ice.conserves hw.sound.ice⟩
  | remote b r hb hr => exact hsame
  | read a n s source seen p ha hs hsaw hno hp =>
      rw [hnone ha]
      exact hread hs
  | forwarded a n s source c ha hs hsaw =>
      rw [hnone ha]
      unfold forward
      split <;> exact hread hs
  | returned n k remote p hp hr hidle => exact hsame
  | cancelled n =>
      unfold cancel
      split
      next => exact hsame
      next => exact hread (s := .cancel) rfl
      next => exact hsame
      next => exact hsame
  | delivered n k call hp hcall => exact hsame

/-- What a pump takes arrives at once. -/
theorem arrived_step (hw : w.remote.arrived = w.source.iceCandidates.taken)
    (h : Step w a w') : w'.remote.arrived = w'.source.iceCandidates.taken := by
  have hkind : ∀ {b : Action} {n : Nat} {s : ConsumerStep},
      (b = .next n ∧ s = .get ∧ w.pump n = .idle)
        ∨ (b = .resume n ∧ s = .resume ∧ w.pump n = .reading) →
          s = .get ∨ s = .resume := by
    rintro b n s (⟨-, rfl, -⟩ | ⟨-, rfl, -⟩)
    · exact Or.inl rfl
    · exact Or.inr rfl
  cases h with
  | source b s hb hs => exact hw.trans (taken_source hb hs).symm
  | remote b r hb hr => exact (arrived_remote hb (RemoteWorld.apply_step hr)).trans hw
  | read a n s source seen p ha hs hsaw hno hp =>
      have htaken := taken_read (hkind ha) hs
      rw [hsaw, hno] at htaken
      exact hw.trans (htaken.trans (List.append_nil _)).symm
  | forwarded a n s source c ha hs hsaw =>
      have htaken := taken_read (hkind ha) hs
      rw [hsaw] at htaken
      have harrived : (w.remote.addRemoteCandidate c).arrived = w.remote.arrived ++ [c] := by
        unfold RemoteWorld.addRemoteCandidate
        split <;> rfl
      have hboth : (w.remote.addRemoteCandidate c).arrived
          = source.iceCandidates.taken := by
        rw [harrived, hw, htaken]
        rfl
      unfold forward
      split <;> exact hboth
  | returned n k remote p hp hr hidle =>
      have hsame : remote.arrived = w.remote.arrived := by
        cases RemoteWorld.resumeAddCandidate_step hr with
        | addReturned _ call outcome _ _ _ => rfl
      exact hsame.trans hw
  | cancelled n =>
      unfold cancel
      split
      next => exact hw
      next => exact hw.trans (taken_cancel n w.source).symm
      next => exact hw
      next => exact hw
  | delivered n k call hp hcall => exact hw

/-- It asks for a cancellation. -/
def Action.cancels : Action → Bool
  | cancel _ => true
  | remote (.cancel _) => true
  | _ => false

/-- Nobody is cancelled, and nothing was dropped. -/
structure Spared (w : TrickleWorld) : Prop where
  pumps : ∀ n k, w.pump n ≠ .cancelling k
  calls : RemoteWorld.Undisturbed w.remote
  dropped : w.dropped = []

/-- At the start nobody is cancelled. -/
theorem spared_init (handle : Int) (core : Core) : Spared (init handle core) where
  pumps := nofun
  calls := List.forall_mem_nil _
  dropped := rfl

/-- A pump that is not being cancelled brings no cancelled one. -/
theorem setPump_ne {n : Nat} {p : Pump} (hw : ∀ m k, w.pump m ≠ .cancelling k)
    (hp : ∀ k, p ≠ .cancelling k) (m k : Nat) : update w.pump n p m ≠ .cancelling k := by
  by_cases hm : m = n
  · subst hm
    rw [Function.update_self]
    exact hp k
  · rw [Function.update_of_ne hm]
    exact hw m k

/-- A pump outside a call neither forwards nor is cancelled in one. -/
theorem Pump.ne_of_inCall {p : Pump} (hp : p.inCall = false) (k : Nat) :
    p ≠ .forwarding k ∧ p ≠ .cancelling k := by
  constructor
  · rintro rfl
    cases hp
  · rintro rfl
    cases hp

/-- As long as nobody is cancelled, nothing is dropped. -/
theorem spared_step (hw : Spared w) (hc : a.cancels = false) (h : Step w a w') :
    Spared w' := by
  have hundelivered : ∀ b, ¬ ∃ call, RemoteWorld.Delivers b w.remote call := by
    rintro b ⟨call, n, -, hcall, hstate⟩
    rcases hw.calls call (List.mem_of_getElem? hcall) with hs | ⟨⟨o, ho⟩, -⟩
    · cases hstate.symm.trans hs
    · cases hstate.symm.trans ho
  cases h with
  | source b s hb hs => exact ⟨hw.pumps, hw.calls, hw.dropped⟩
  | remote b r hb hr =>
      refine ⟨hw.pumps, ?_, ?_⟩
      · refine RemoteWorld.undisturbed_step hw.calls (RemoteWorld.apply_step hr) ?_
        rintro n rfl
        cases hc
      · show w.dropped ++ lost b w.remote = []
        rw [lost_eq_nil (hundelivered b), hw.dropped]
        rfl
  | read a n s source seen p ha hs hsaw hno hp =>
      exact ⟨setPump_ne hw.pumps fun k => (Pump.ne_of_inCall hp k).2, hw.calls, hw.dropped⟩
  | forwarded a n s source c ha hs hsaw =>
      have hcalls : RemoteWorld.Undisturbed (w.remote.addRemoteCandidate c) :=
        RemoteWorld.undisturbed_step hw.calls
          (RemoteWorld.apply_step (a := .addRemoteCandidate c) rfl) nofun
      unfold forward
      split
      next => exact ⟨setPump_ne hw.pumps nofun, hcalls, hw.dropped⟩
      next => exact ⟨setPump_ne hw.pumps nofun, hcalls, hw.dropped⟩
  | returned n k remote p hp hr hidle =>
      refine ⟨setPump_ne hw.pumps fun j => (Pump.ne_of_inCall hidle j).2, ?_, hw.dropped⟩
      exact RemoteWorld.undisturbed_step hw.calls
        (RemoteWorld.resumeAddCandidate_step hr) nofun
  | cancelled n => cases hc
  | delivered n k call hp hcall => exact absurd hp (hw.pumps n k)

-- ============================================================== forwarding

/-- What is true along a run from the construction. -/
structure Along (acts : List Action) (w : TrickleWorld) : Prop where
  inv : StreamWorld.StreamsInv w.source
  balanced : w.account.Balanced
  arrived : w.remote.arrived = w.source.iceCandidates.taken
  reported : w.source.iceCandidates.taken ++ w.source.iceCandidates.queued
    = acts.filterMap Action.candidate?
  spared : (∀ a ∈ acts, a.cancels = false) → Spared w

/-- Nothing has been reported or forwarded. -/
theorem along_init (handle : Int) (core : Core) : Along [] (init handle core) where
  inv := StreamWorld.streamsInv_init handle core
  balanced := .refl _
  arrived := rfl
  reported := rfl
  spared := fun _ => spared_init handle core

/-- A step accounts for the candidate it moves. -/
theorem along_step {acts : List Action} (hw : Along acts w) (h : apply a w = some w') :
    Along (acts ++ [a]) w' := by
  have hstep := step_cases h
  obtain ⟨hinv, hreported⟩ := source_step hw.inv hstep
  refine ⟨hinv, (moves_step hstep).balanced hw.balanced, arrived_step hw.arrived hstep,
    ?_, fun hc => ?_⟩
  · rw [hreported, hw.reported, List.filterMap_append]
    cases hr : a.candidate? <;> simp [hr]
  · have ha := hc a (List.mem_append_right _ (List.mem_singleton_self a))
    exact spared_step (hw.spared fun b hb => hc b (List.mem_append_left _ hb)) ha hstep

/-- A run accounts for all its candidates. -/
theorem along_exec {handle : Int} {core : Core} {acts : List Action}
    (h : exec apply (init handle core) acts = some w) : Along acts w :=
  Transition.exec_invariant (P := Along) (along_init handle core)
    (fun _ hm ha => along_step hm ha) h

/-- Where the candidates of a run are. -/
structure Forwarded (acts : List Action) (w : TrickleWorld) : Prop where
  /-- Each is in one place: handed to the other native layer, on its way
  in the pool, buffered there, dropped by a cancellation, or still queued
  here. -/
  account : (acts.filterMap Action.candidate?).Perm
    (w.remote.handed ++ w.remote.carried ++ w.remote.bufferedRemoteCandidates
      ++ w.dropped ++ w.source.iceCandidates.queued)
  /-- Only cancellations drop any. -/
  spared : (∀ a ∈ acts, a.cancels = false) → w.dropped = []

/-- In every state of every run, with any number of pumps, calls,
rejections and cancellations. -/
theorem forwarded_account {handle : Int} {core : Core} {acts : List Action}
    (h : exec apply (init handle core) acts = some w) : Forwarded acts w := by
  have hw := along_exec h
  refine ⟨?_, fun hc => (hw.spared hc).dropped⟩
  have hbal : w.remote.arrived.Perm (w.remote.handed ++ (w.remote.carried ++ w.dropped)
      ++ w.remote.bufferedRemoteCandidates) := hw.balanced
  rw [← hw.reported, ← hw.arrived]
  refine (hbal.append_right _).trans (List.Perm.append_right _ ?_)
  rw [← List.append_assoc, List.append_assoc, List.append_assoc _ _ w.dropped]
  exact List.perm_append_comm.append_left _

/-- Two pumps. One is cancelled with its job queued, and its candidate
is dropped; the other finds its candidate rejected. -/
def cancelledPumpRun : List Action :=
  [.remote (.setRemoteDescription "v=0" .offer), .remote .start,
    .remote (.native (.setRemote 0) (.ok ())), .remote (.resumeSetRemote 0),
    .next 0, .next 1, .source (.dispatch (.localCandidate ⟨"a", "0"⟩)),
    .source (.dispatch (.localCandidate ⟨"b", "0"⟩)),
    .source (.dispatch (.localCandidate ⟨"c", "0"⟩)), .resume 0, .resume 1, .cancel 0,
    .delivered 0, .remote .start, .remote .start,
    .remote (.native (.addCandidate 1) (.error (.rtcError "rejected" none))), .returned 1]

theorem forwarded_account_cancelledPumpRun :
    ∃ w, exec apply (init 1 ⟨[], [], [], []⟩) cancelledPumpRun = some w
      ∧ w.dropped = [⟨"a", "0"⟩] ∧ w.remote.handed = [⟨"b", "0"⟩]
      ∧ w.source.iceCandidates.queued = [⟨"c", "0"⟩]
      ∧ w.pump 1 = .raised (.rtcError "rejected" none)
      ∧ Forwarded cancelledPumpRun w :=
  ⟨_, rfl, rfl, rfl, rfl, rfl,
    @forwarded_account _ 1 ⟨[], [], [], []⟩ cancelledPumpRun rfl⟩

-- =================================================================== order

/-- It is an action of another pump than the first. -/
def Action.others : Action → Bool
  | next n => n != 0
  | resume n => n != 0
  | returned n => n != 0
  | delivered n => n != 0
  | _ => false

/-- One pump, and nobody is cancelled. -/
def onePump (a : Action) (w : TrickleWorld) : Option TrickleWorld :=
  if a.cancels || a.others then none else apply a w

/-- A run of one pump has no cancellations and no other calls. -/
theorem onePump_step (h : onePump a w = some w') :
    a.cancels = false ∧ a.others = false ∧ apply a w = some w' := by
  unfold onePump at h
  split at h
  next => cases h
  next hno =>
    obtain ⟨hc, ho⟩ := Bool.or_eq_false_iff.mp ((Bool.not_eq_true _).mp hno)
    exact ⟨hc, ho, h⟩

/-- The step is not the native call of the pump ahead of the drain
loop's. -/
def NoOvertake (a : Action) (w : TrickleWorld) : Prop :=
  ∀ k outcome, a = .remote (.native (.addCandidate k) outcome) → w.remote.draining = []

/-- The remote side is in line, and the pump waits for every call that
is open. -/
structure InLine (w : TrickleWorld) : Prop where
  inv : RemoteWorld.OrderInv w.remote
  lined : RemoteWorld.Lined w.remote
  waits : ∀ k call, w.remote.addCandidates[k]? = some call → call.ended = none →
    w.pump 0 = .forwarding k

/-- Nothing has come that could be out of line. -/
theorem inLine_init (handle : Int) (core : Core) : InLine (init handle core) where
  inv := RemoteWorld.orderInv_init
  lined := rfl
  waits := nofun

/-- A step of one caller on the remote side keeps the line. -/
theorem line_step {b : RemoteAction} {r r' : RemoteWorld} (hi : RemoteWorld.OrderInv r)
    (hl : RemoteWorld.Lined r) (hok : RemoteWorld.NoOvertake b r)
    (h : RemoteWorld.oneCaller b r = some r') :
    RemoteWorld.OrderInv r' ∧ RemoteWorld.Lined r' :=
  ⟨RemoteWorld.orderInv_step hi h, RemoteWorld.lined_step hi hl hok h⟩

/-- The other steps of the remote side open no call. -/
theorem open_remote {b : RemoteAction} {r r' : RemoteWorld} (hb : adds b = false)
    (h : RemoteWorld.Step r b r') {k : Nat} {call : AddCandidate}
    (hcall : r'.addCandidates[k]? = some call) (hended : call.ended = none) :
    ∃ c, r.addCandidates[k]? = some c ∧ c.ended = none := by
  have hset : ∀ (n : Nat) (old new : AddCandidate), r.addCandidates[n]? = some old →
      old.ended = new.ended → (r.addCandidates.set n new)[k]? = some call →
        ∃ c, r.addCandidates[k]? = some c ∧ c.ended = none := by
    intro n old new hold hsame hk
    by_cases hkn : n = k
    · subst hkn
      rw [List.getElem?_set_self (List.getElem?_eq_some_iff.mp hold).1] at hk
      rw [← Option.some_inj.mp hk] at hended
      exact ⟨old, hold, hsame.trans hended⟩
    · rw [List.getElem?_set_ne hkn] at hk
      exact ⟨call, hk, hended⟩
  cases h with
  | buffered c _ => cases hb
  | sent c _ => cases hb
  | addReturned n old outcome _ _ _ => cases hb
  | startAdd n old rest hold =>
      exact hset n old { old with job := old.job.start } hold rfl hcall
  | nativeAdd n old outcome hold hjob =>
      exact hset n old { old with job := .done outcome } hold rfl hcall
  | opened n old _ _ _ _ =>
      rw [RemoteWorld.drain_addCandidates] at hcall
      exact ⟨call, hcall, hended⟩
  | drained n old _ _ _ _ _ _ _ =>
      rw [RemoteWorld.drain_addCandidates] at hcall
      exact ⟨call, hcall, hended⟩
  | _ => exact ⟨call, hcall, hended⟩

/-- What is not a call of `add_remote_candidate` is a step of one
caller. -/
theorem oneCaller_of_remote {b : RemoteAction} {r r' : RemoteWorld}
    (hb : adds b = false) (hc : (Action.remote b).cancels = false)
    (h : RemoteWorld.apply b r = some r') : RemoteWorld.oneCaller b r = some r' := by
  cases b with
  | addRemoteCandidate c => cases hb
  | cancel n => cases hc
  | _ => exact h

/-- A pump that is in no call leaves none open. -/
theorem InLine.closed (hw : InLine w) (hp : (w.pump 0).inCall = false) {k : Nat}
    {call : AddCandidate} (hcall : w.remote.addCandidates[k]? = some call) :
    call.ended ≠ none := by
  intro hended
  rw [hw.waits k call hcall hended] at hp
  cases hp

/-- So the next call is the only one. -/
theorem InLine.oneCaller (hw : InLine w) (hp : (w.pump 0).inCall = false) (c : Candidate) :
    RemoteWorld.oneCaller (.addRemoteCandidate c) w.remote
      = some (w.remote.addRemoteCandidate c) := by
  have hall : (w.remote.addCandidates.all fun call => call.ended.isSome) = true := by
    refine List.all_eq_true.mpr fun call hmem => ?_
    obtain ⟨k, hk⟩ := List.mem_iff_getElem?.mp hmem
    exact Option.isSome_iff_ne_none.mpr (hw.closed hp hk)
  simp only [RemoteWorld.oneCaller, hall]
  rfl

/-- A pump that reads is in no call. -/
theorem inCall_read {n : Nat} {s : ConsumerStep} (ho : a.others = false)
    (ha : (a = .next n ∧ s = .get ∧ w.pump n = .idle)
      ∨ (a = .resume n ∧ s = .resume ∧ w.pump n = .reading)) :
    n = 0 ∧ (w.pump 0).inCall = false := by
  rcases ha with ⟨rfl, -, hp⟩ | ⟨rfl, -, hp⟩
  · have hn : n = 0 := of_not_not fun hne => absurd (bne_iff_ne.mpr hne) (by
      rw [Bool.not_eq_true]
      exact ho)
    subst hn
    exact ⟨rfl, congrArg Pump.inCall hp⟩
  · have hn : n = 0 := of_not_not fun hne => absurd (bne_iff_ne.mpr hne) (by
      rw [Bool.not_eq_true]
      exact ho)
    subst hn
    exact ⟨rfl, congrArg Pump.inCall hp⟩

/-- A candidate that is forwarded gets in line. -/
theorem inLine_forward {source : StreamWorld} {c : Candidate} (hw : InLine w)
    (hp : (w.pump 0).inCall = false) :
    InLine (({ w with source := source } : TrickleWorld).forward 0 c) := by
  obtain ⟨hinv, hlined⟩ := line_step (b := .addRemoteCandidate c) hw.inv hw.lined
    (fun _ _ hno => nomatch hno) (hw.oneCaller hp c)
  unfold forward
  split
  next hset =>
    have hset' : w.remote.remoteDescriptionSet = true := hset
    refine ⟨hinv, hlined, fun k call hcall hended => ?_⟩
    have hadds : (w.remote.addRemoteCandidate c).addCandidates
        = w.remote.addCandidates ++ [{ candidate := c, job := .queued, ended := none }] := by
      unfold RemoteWorld.addRemoteCandidate
      rw [if_pos hset']
    have hcall' : (w.remote.addRemoteCandidate c).addCandidates[k]? = some call := hcall
    rw [hadds] at hcall'
    have hk : k = w.remote.addCandidates.length := by
      by_cases hlt : k < w.remote.addCandidates.length
      · rw [List.getElem?_append_left hlt] at hcall'
        exact absurd hended (hw.closed hp hcall')
      · have hle := (List.getElem?_eq_some_iff.mp hcall').1
        rw [List.length_append, List.length_singleton] at hle
        omega
    rw [hk]
    exact Function.update_self (f := w.pump) 0 (.forwarding w.remote.addCandidates.length)
  next hset =>
    have hset' : ¬ w.remote.remoteDescriptionSet = true := hset
    refine ⟨hinv, hlined, fun k call hcall hended => ?_⟩
    have hadds : (w.remote.addRemoteCandidate c).addCandidates = w.remote.addCandidates := by
      unfold RemoteWorld.addRemoteCandidate
      rw [if_neg hset']
    have hcall' : (w.remote.addRemoteCandidate c).addCandidates[k]? = some call := hcall
    rw [hadds] at hcall'
    exact absurd hended (hw.closed hp hcall')

/-- A call that returns leaves the pump free. -/
theorem inLine_returned {k : Nat} {remote : RemoteWorld} {p : Pump} (hw : InLine w)
    (hp : w.pump 0 = .forwarding k) (hr : w.remote.resumeAddCandidate k = some remote) :
    InLine (({ w with remote := remote } : TrickleWorld).setPump 0 p) := by
  obtain ⟨hinv, hlined⟩ := line_step hw.inv hw.lined (b := .resumeAddCandidate k)
    (fun _ _ hno => nomatch hno) hr
  refine ⟨hinv, hlined, fun j call hcall hended => ?_⟩
  have hcall' : remote.addCandidates[j]? = some call := hcall
  cases RemoteWorld.resumeAddCandidate_step hr with
  | addReturned _ old outcome hold _ _ =>
      exfalso
      by_cases hjk : k = j
      · subst hjk
        rw [List.getElem?_set_self (List.getElem?_eq_some_iff.mp hold).1] at hcall'
        cases hcall'
        cases hended
      · rw [List.getElem?_set_ne hjk] at hcall'
        have hsame := hp.symm.trans (hw.waits j call hcall' hended)
        cases hsame
        exact hjk rfl

/-- A step that overtakes nothing keeps the line. -/
theorem inLine_step (hs : Spared w) (hw : InLine w) (hok : NoOvertake a w)
    (h : onePump a w = some w') : InLine w' := by
  obtain ⟨hc, ho, happly⟩ := onePump_step h
  cases step_cases happly with
  | source b s hb hs => exact ⟨hw.inv, hw.lined, hw.waits⟩
  | remote b r hb hr =>
      have hok' : RemoteWorld.NoOvertake b w.remote :=
        fun k outcome hbk => hok k outcome (congrArg Action.remote hbk)
      obtain ⟨hinv, hlined⟩ :=
        line_step hw.inv hw.lined hok' (oneCaller_of_remote hb hc hr)
      refine ⟨hinv, hlined, fun k call hcall hended => ?_⟩
      obtain ⟨old, hold, hopen⟩ := open_remote hb (RemoteWorld.apply_step hr) hcall hended
      exact hw.waits k old hold hopen
  | read _ n s source seen p ha hs hsaw hno hp =>
      obtain ⟨-, hidle⟩ := inCall_read ho ha
      exact ⟨hw.inv, hw.lined, fun k call hcall hended =>
        absurd hended (hw.closed hidle hcall)⟩
  | forwarded _ n s source c ha hs hsaw =>
      obtain ⟨rfl, hidle⟩ := inCall_read ho ha
      exact inLine_forward hw hidle
  | returned n k remote p hp hr hidle =>
      have hn : n = 0 := of_not_not fun hne => absurd (bne_iff_ne.mpr hne) (by
        rw [Bool.not_eq_true]
        exact ho)
      subst hn
      exact inLine_returned hw hp hr
  | cancelled n => cases hc
  | delivered n k call hp hcall => exact absurd hp (hs.pumps n k)

/-- Where the candidates of a run stand, in the order they were
reported. -/
structure InOrder (acts : List Action) (w : TrickleWorld) : Prop where
  /-- Handed over, in the drain loop, in the pump's own call, buffered,
  and still queued here. -/
  line : acts.filterMap Action.candidate?
    = w.remote.handed ++ w.remote.draining ++ w.remote.direct
      ++ w.remote.bufferedRemoteCandidates ++ w.source.iceCandidates.queued
  /-- At rest, past an applied description, all are handed over. -/
  complete : w.remote.Quiescent → RemoteWorld.Applied w.remote.log →
    w.source.iceCandidates.queued = [] →
      w.remote.handed = acts.filterMap Action.candidate?

/-- One pump keeps the order of the reports, in every run in which its
native calls do not go ahead of the drain loop's. -/
theorem forwarded_inOrder {handle : Int} {core : Core} {acts : List Action}
    (hok : ∀ a m, Takes onePump (init handle core) acts a m → NoOvertake a m)
    (h : exec onePump (init handle core) acts = some w) : InOrder acts w := by
  have hall : Along acts w ∧ Spared w ∧ InLine w := by
    refine Transition.exec_of_takes (P := fun as m => Along as m ∧ Spared m ∧ InLine m)
      ⟨along_init handle core, spared_init handle core, inLine_init handle core⟩ ?_ hok h
    rintro as b m m' - hm hokb hb
    obtain ⟨hc, -, happly⟩ := onePump_step hb
    exact ⟨along_step hm.1 happly, spared_step hm.2.1 hc (step_cases happly),
      inLine_step hm.2.1 hm.2.2 hokb hb⟩
  obtain ⟨halong, -, hline⟩ := hall
  have hlined : w.remote.arrived = w.remote.handed ++ w.remote.draining ++ w.remote.direct
      ++ w.remote.bufferedRemoteCandidates := hline.lined
  refine ⟨?_, fun hq happlied hempty => ?_⟩
  · rw [← halong.reported, ← halong.arrived, hlined]
  · have hkept := RemoteWorld.orderKept_of_lined hline.inv.conserved hline.lined
    rw [← halong.reported, hempty, List.append_nil, ← halong.arrived]
    exact hkept.complete hq happlied

/-- One candidate comes before the description and is drained; the next
goes past the buffer. -/
def drainedPumpRun : List Action :=
  [.next 0, .source (.dispatch (.localCandidate ⟨"a", "0"⟩)), .resume 0,
    .remote (.setRemoteDescription "v=0" .offer), .remote .start,
    .remote (.native (.setRemote 0) (.ok ())), .remote (.resumeSetRemote 0),
    .remote .start, .remote (.native (.setRemote 0) (.ok ())), .next 0,
    .source (.dispatch (.localCandidate ⟨"b", "0"⟩)), .resume 0, .remote .start,
    .remote (.native (.addCandidate 0) (.ok ()))]

/-- The pump's direct call is made when the drain loop is through. -/
theorem noOvertake_drainedPumpRun :
    ∀ a m, Takes onePump (init 1 ⟨[], [], [], []⟩) drainedPumpRun a m → NoOvertake a m := by
  refine Transition.takes_of_only 13 rfl rfl (fun _ _ _ => rfl) ?_
  simp [drainedPumpRun, NoOvertake]

theorem forwarded_inOrder_drainedPumpRun :
    ∃ w, exec onePump (init 1 ⟨[], [], [], []⟩) drainedPumpRun = some w
      ∧ w.remote.handed = [⟨"a", "0"⟩, ⟨"b", "0"⟩] ∧ InOrder drainedPumpRun w :=
  ⟨_, rfl, rfl, forwarded_inOrder noOvertake_drainedPumpRun rfl⟩

end TrickleWorld

end AioLibDataChannel
