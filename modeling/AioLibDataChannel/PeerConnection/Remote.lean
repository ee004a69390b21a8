/-
The remote side of a `PeerConnection`'s signaling, as a machine:
`set_remote_description`, `add_remote_candidate`, the buffer between
them, and the thread pool their native calls run on.

# What a step is

A coroutine runs from one `await` to the next, so the loop's steps are
the first part of each call and the resumption of a suspended one. Every
`await` here is on an executor job, and threads take steps of their own:
a thread takes the oldest submitted job, and later its native call is
made, with whatever outcome. Two started jobs may make their calls in
either order.

# Cancellation

`Task.cancel()` on a suspended `set_remote_description` is delivered
when the call is next resumed, whatever its job came to meanwhile. That
is when a job no thread has taken is dropped. A started one goes on
without the call, so a call's record keeps its job past the call's end.
`except Exception` does not catch the cancellation.

`arrived` and `log` are history: the candidates in the order
`add_remote_candidate` was called, and the native calls in the order
they were made.
-/
import AioLibDataChannel.Asyncio.Executor
import AioLibDataChannel.PeerConnection.Basic

namespace AioLibDataChannel

open Asyncio (Job Outcome)

/-- The two arguments of `add_remote_candidate`. -/
structure Candidate where
  candidate : String
  mid : String
deriving DecidableEq, Repr

/-- The native methods that run on the executor. -/
inductive NativeCall
  | setRemoteDescription (sdp : String) (type : SdpType)
  | addRemoteCandidate (c : Candidate)
deriving DecidableEq, Repr

/-- Which `await` of `set_remote_description` a call is at: the native
call itself, or the drain loop's call for one candidate, with those the
loop has still to take. -/
inductive Stage
  | applying
  | draining (current : Candidate) (rest : List Candidate)
deriving DecidableEq, Repr

/-- A coroutine at an `await`, there with a cancellation on its way, or
at its end. -/
inductive CallState
  | suspended
  | cancelling
  | ended (o : Outcome Unit Exc)
deriving DecidableEq, Repr

/-- A call of `set_remote_description`, with the job of its latest
`await`. -/
structure SetRemote where
  sdp : String
  type : SdpType
  stage : Stage
  job : Job Exc
  state : CallState

/-- The native call a `set_remote_description` has submitted. -/
def SetRemote.nativeCall (call : SetRemote) : NativeCall :=
  match call.stage with
  | .applying => .setRemoteDescription call.sdp call.type
  | .draining current _ => .addRemoteCandidate current

/-- A call of `add_remote_candidate` that went past the buffer. -/
structure AddCandidate where
  candidate : Candidate
  job : Job Exc
  ended : Option (Except Exc Unit)

/-- Who submitted a job, by its position among its kind. -/
inductive Submitter
  | setRemote (n : Nat)
  | addCandidate (n : Nat)
deriving DecidableEq, Repr

/-- The signaling state of a connection and what surrounds it. -/
structure RemoteWorld where
  remoteDescriptionSet : Bool
  bufferedRemoteCandidates : List Candidate
  setRemotes : List SetRemote
  addCandidates : List AddCandidate
  queue : List Submitter
  log : List (NativeCall × Except Exc Unit)
  arrived : List Candidate

/-- The steps: calls, the pool's, resumptions, `Task.cancel()`. -/
inductive RemoteAction
  | setRemoteDescription (sdp : String) (type : SdpType)
  | addRemoteCandidate (c : Candidate)
  | start
  | native (s : Submitter) (outcome : Except Exc Unit)
  | resumeSetRemote (n : Nat)
  | resumeAddCandidate (n : Nat)
  | cancel (n : Nat)

namespace RemoteWorld

/-- A new `PeerConnection`. -/
def init : RemoteWorld where
  remoteDescriptionSet := false
  bufferedRemoteCandidates := []
  setRemotes := []
  addCandidates := []
  queue := []
  log := []
  arrived := []

-- =============================================================== the code

/-- `set_remote_description` up to its first `await`. -/
def setRemoteDescription (sdp : String) (type : SdpType) (w : RemoteWorld) :
    RemoteWorld :=
  { w with
    setRemotes := w.setRemotes
      ++ [{ sdp := sdp, type := type, stage := .applying, job := .queued,
            state := .suspended }]
    queue := w.queue ++ [.setRemote w.setRemotes.length] }

/-- `add_remote_candidate` up to its end, or its `await`. -/
def addRemoteCandidate (c : Candidate) (w : RemoteWorld) : RemoteWorld :=
  if w.remoteDescriptionSet then
    { w with
      addCandidates := w.addCandidates
        ++ [{ candidate := c, job := .queued, ended := none }]
      queue := w.queue ++ [.addCandidate w.addCandidates.length]
      arrived := w.arrived ++ [c] }
  else
    { w with
      bufferedRemoteCandidates := w.bufferedRemoteCandidates ++ [c]
      arrived := w.arrived ++ [c] }

/-- A call's record changes. -/
def update (n : Nat) (call : SetRemote) (w : RemoteWorld) : RemoteWorld :=
  { w with setRemotes := w.setRemotes.set n call }

/-- The drain loop takes its next candidate, or the call returns. -/
def drain (n : Nat) (call : SetRemote) (pending : List Candidate)
    (w : RemoteWorld) : RemoteWorld :=
  match pending with
  | [] => w.update n { call with state := .ended (.returned ()) }
  | c :: rest =>
      { w.update n { call with stage := .draining c rest, job := .queued } with
        queue := w.queue ++ [.setRemote n] }

/-- `set_remote_description` past the `await` its job answered. -/
def answered (n : Nat) (call : SetRemote) (outcome : Except Exc Unit)
    (w : RemoteWorld) : RemoteWorld :=
  match call.stage with
  | .applying =>
      match outcome with
      | .error e => w.update n { call with state := .ended (.raised e) }
      | .ok () =>
          let w' : RemoteWorld := { w with
            remoteDescriptionSet := true
            bufferedRemoteCandidates := [] }
          w'.drain n call w.bufferedRemoteCandidates
  | .draining _ rest => w.drain n call rest

/-- `set_remote_description` is resumed. -/
def resumeSetRemote (n : Nat) (w : RemoteWorld) : Option RemoteWorld :=
  match w.setRemotes[n]? with
  | none => none
  | some call =>
      match call.state with
      | .ended _ => none
      | .cancelling =>
          some (w.update n
            { call with job := call.job.cancel, state := .ended .cancelled })
      | .suspended =>
          match call.job with
          | .done outcome => some (w.answered n call outcome)
          | _ => none

/-- `add_remote_candidate` is resumed. -/
def resumeAddCandidate (n : Nat) (w : RemoteWorld) : Option RemoteWorld :=
  match w.addCandidates[n]? with
  | none => none
  | some call =>
      match call.job, call.ended with
      | .done outcome, none =>
          some { w with
            addCandidates := w.addCandidates.set n { call with ended := some outcome } }
      | _, _ => none

/-- `Task.cancel()` on a `set_remote_description`. -/
def cancel (n : Nat) (w : RemoteWorld) : RemoteWorld :=
  match w.setRemotes[n]? with
  | none => w
  | some call =>
      match call.state with
      | .suspended => w.update n { call with state := .cancelling }
      | _ => w

-- =============================================================== the pool

/-- A thread takes the oldest submission. -/
def start (w : RemoteWorld) : Option RemoteWorld :=
  match w.queue with
  | [] => none
  | .setRemote n :: rest =>
      let w' : RemoteWorld := { w with queue := rest }
      match w.setRemotes[n]? with
      | none => some w'
      | some call => some (w'.update n { call with job := call.job.start })
  | .addCandidate n :: rest =>
      match w.addCandidates[n]? with
      | none => some { w with queue := rest }
      | some call =>
          some { w with
            queue := rest
            addCandidates := w.addCandidates.set n { call with job := call.job.start } }

/-- A started job makes its native call. -/
def native (s : Submitter) (outcome : Except Exc Unit) (w : RemoteWorld) :
    Option RemoteWorld :=
  match s with
  | .setRemote n =>
      match w.setRemotes[n]? with
      | none => none
      | some call =>
          match call.job with
          | .started =>
              some { w.update n { call with job := .done outcome } with
                log := w.log ++ [(call.nativeCall, outcome)] }
          | _ => none
  | .addCandidate n =>
      match w.addCandidates[n]? with
      | none => none
      | some call =>
          match call.job with
          | .started =>
              some { w with
                addCandidates := w.addCandidates.set n { call with job := .done outcome }
                log := w.log ++ [(.addRemoteCandidate call.candidate, outcome)] }
          | _ => none

/-- The transition. -/
def apply : RemoteAction → RemoteWorld → Option RemoteWorld
  | .setRemoteDescription sdp type, w => some (w.setRemoteDescription sdp type)
  | .addRemoteCandidate c, w => some (w.addRemoteCandidate c)
  | .start, w => w.start
  | .native s outcome, w => w.native s outcome
  | .resumeSetRemote n, w => w.resumeSetRemote n
  | .resumeAddCandidate n, w => w.resumeAddCandidate n
  | .cancel n, w => some (w.cancel n)

-- ============================================================= inversion

/-- Everything a step can be, with the record it acts on and what had to
hold of it. -/
inductive Step (w : RemoteWorld) : RemoteAction → RemoteWorld → Prop
  | called (sdp : String) (type : SdpType) :
      Step w (.setRemoteDescription sdp type) (w.setRemoteDescription sdp type)
  | buffered (c : Candidate) (hset : w.remoteDescriptionSet = false) :
      Step w (.addRemoteCandidate c)
        { w with
          bufferedRemoteCandidates := w.bufferedRemoteCandidates ++ [c]
          arrived := w.arrived ++ [c] }
  | sent (c : Candidate) (hset : w.remoteDescriptionSet = true) :
      Step w (.addRemoteCandidate c)
        { w with
          addCandidates := w.addCandidates
            ++ [{ candidate := c, job := .queued, ended := none }]
          queue := w.queue ++ [.addCandidate w.addCandidates.length]
          arrived := w.arrived ++ [c] }
  | startNone (rest : List Submitter) : Step w .start { w with queue := rest }
  | startSet (n : Nat) (call : SetRemote) (rest : List Submitter)
      (hcall : w.setRemotes[n]? = some call) :
      Step w .start
        { w with
          queue := rest
          setRemotes := w.setRemotes.set n { call with job := call.job.start } }
  | startAdd (n : Nat) (call : AddCandidate) (rest : List Submitter)
      (hcall : w.addCandidates[n]? = some call) :
      Step w .start
        { w with
          queue := rest
          addCandidates := w.addCandidates.set n { call with job := call.job.start } }
  | nativeSet (n : Nat) (call : SetRemote) (outcome : Except Exc Unit)
      (hcall : w.setRemotes[n]? = some call) (hjob : call.job = .started) :
      Step w (.native (.setRemote n) outcome)
        { w with
          setRemotes := w.setRemotes.set n { call with job := .done outcome }
          log := w.log ++ [(call.nativeCall, outcome)] }
  | nativeAdd (n : Nat) (call : AddCandidate) (outcome : Except Exc Unit)
      (hcall : w.addCandidates[n]? = some call) (hjob : call.job = .started) :
      Step w (.native (.addCandidate n) outcome)
        { w with
          addCandidates := w.addCandidates.set n { call with job := .done outcome }
          log := w.log ++ [(.addRemoteCandidate call.candidate, outcome)] }
  | delivered (n : Nat) (call : SetRemote) (hcall : w.setRemotes[n]? = some call)
      (hstate : call.state = .cancelling) :
      Step w (.resumeSetRemote n)
        (w.update n { call with job := call.job.cancel, state := .ended .cancelled })
  | failed (n : Nat) (call : SetRemote) (e : Exc)
      (hcall : w.setRemotes[n]? = some call) (hstate : call.state = .suspended)
      (hstage : call.stage = .applying) (hjob : call.job = .done (.error e)) :
      Step w (.resumeSetRemote n) (w.update n { call with state := .ended (.raised e) })
  | opened (n : Nat) (call : SetRemote)
      (hcall : w.setRemotes[n]? = some call) (hstate : call.state = .suspended)
      (hstage : call.stage = .applying) (hjob : call.job = .done (.ok ())) :
      Step w (.resumeSetRemote n)
        (({ w with
            remoteDescriptionSet := true
            bufferedRemoteCandidates := [] } : RemoteWorld).drain n call
          w.bufferedRemoteCandidates)
  | drained (n : Nat) (call : SetRemote) (outcome : Except Exc Unit)
      (current : Candidate) (rest : List Candidate)
      (hcall : w.setRemotes[n]? = some call) (hstate : call.state = .suspended)
      (hstage : call.stage = .draining current rest)
      (hjob : call.job = .done outcome) :
      Step w (.resumeSetRemote n) (w.drain n call rest)
  | addReturned (n : Nat) (call : AddCandidate) (outcome : Except Exc Unit)
      (hcall : w.addCandidates[n]? = some call) (hended : call.ended = none)
      (hjob : call.job = .done outcome) :
      Step w (.resumeAddCandidate n)
        { w with
          addCandidates := w.addCandidates.set n { call with ended := some outcome } }
  | asked (n : Nat) (call : SetRemote) (hcall : w.setRemotes[n]? = some call)
      (hstate : call.state = .suspended) :
      Step w (.cancel n) (w.update n { call with state := .cancelling })
  | ignored (n : Nat) : Step w (.cancel n) w

/-- The executor's thread takes up what was submitted first. -/
theorem start_step {w w' : RemoteWorld} (h : w.start = some w') :
    Step w .start w' := by
  unfold start at h
  split at h
  next => cases h
  next n rest _ =>
    split at h
    next => cases h; exact .startNone rest
    next call hcall => cases h; exact .startSet n call rest hcall
  next n rest _ =>
    split at h
    next => cases h; exact .startNone rest
    next call hcall => cases h; exact .startAdd n call rest hcall

/-- A native call returns to the job that made it. -/
theorem native_step {w w' : RemoteWorld} {s : Submitter} {outcome : Except Exc Unit}
    (h : w.native s outcome = some w') : Step w (.native s outcome) w' := by
  unfold native at h
  split at h
  next n =>
    split at h
    next => cases h
    next call hcall =>
      split at h
      next hjob => cases h; exact .nativeSet n call outcome hcall hjob
      next => cases h
  next n =>
    split at h
    next => cases h
    next call hcall =>
      split at h
      next hjob => cases h; exact .nativeAdd n call outcome hcall hjob
      next => cases h

/-- An answered call fails, opens the gate or drains the next
candidate. -/
theorem answered_step {w : RemoteWorld} {n : Nat} {call : SetRemote}
    {outcome : Except Exc Unit} (hcall : w.setRemotes[n]? = some call)
    (hstate : call.state = .suspended) (hjob : call.job = .done outcome) :
    Step w (.resumeSetRemote n) (w.answered n call outcome) := by
  unfold answered
  split
  next hstage =>
    cases outcome with
    | error e => exact .failed n call e hcall hstate hstage hjob
    | ok u => exact .opened n call hcall hstate hstage hjob
  next current rest hstage =>
    exact .drained n call outcome current rest hcall hstate hstage hjob

/-- A suspended call goes on when its job is answered or cancelled. -/
theorem resumeSetRemote_step {w w' : RemoteWorld} {n : Nat}
    (h : w.resumeSetRemote n = some w') : Step w (.resumeSetRemote n) w' := by
  unfold resumeSetRemote at h
  split at h
  next => cases h
  next call hcall =>
    split at h
    next => cases h
    next hstate => cases h; exact .delivered n call hcall hstate
    next hstate =>
      split at h
      next outcome hjob => cases h; exact answered_step hcall hstate hjob
      next => cases h

/-- A direct call ends with its job. -/
theorem resumeAddCandidate_step {w w' : RemoteWorld} {n : Nat}
    (h : w.resumeAddCandidate n = some w') : Step w (.resumeAddCandidate n) w' := by
  unfold resumeAddCandidate at h
  split at h
  next => cases h
  next call hcall =>
    split at h
    next outcome hjob hended =>
      cases h
      exact .addReturned n call outcome hcall hended hjob
    next => cases h

/-- The transition takes no other step. -/
theorem apply_step {w w' : RemoteWorld} {a : RemoteAction}
    (h : apply a w = some w') : Step w a w' := by
  cases a with
  | setRemoteDescription sdp type => cases h; exact .called sdp type
  | addRemoteCandidate c =>
      simp only [apply, addRemoteCandidate] at h
      split at h
      next hset => cases h; exact .sent c hset
      next hset => cases h; exact .buffered c ((Bool.not_eq_true _).mp hset)
  | start => exact start_step h
  | native s outcome => exact native_step h
  | resumeSetRemote n => exact resumeSetRemote_step h
  | resumeAddCandidate n => exact resumeAddCandidate_step h
  | cancel n =>
      simp only [apply, cancel, Option.some.injEq] at h
      split at h
      next => cases h; exact .ignored n
      next call hcall =>
        split at h
        next hstate => cases h; exact .asked n call hcall hstate
        next => cases h; exact .ignored n

-- ======================================================= the drain loop

/-- Draining does not touch the flag. -/
@[simp] theorem drain_remoteDescriptionSet (n : Nat) (call : SetRemote)
    (pending : List Candidate) (w : RemoteWorld) :
    (w.drain n call pending).remoteDescriptionSet = w.remoteDescriptionSet := by
  cases pending <;> rfl

/-- What is drained has left the buffer before. -/
@[simp] theorem drain_buffered (n : Nat) (call : SetRemote)
    (pending : List Candidate) (w : RemoteWorld) :
    (w.drain n call pending).bufferedRemoteCandidates
      = w.bufferedRemoteCandidates := by
  cases pending <;> rfl

/-- The drain loop makes no direct calls. -/
@[simp] theorem drain_addCandidates (n : Nat) (call : SetRemote)
    (pending : List Candidate) (w : RemoteWorld) :
    (w.drain n call pending).addCandidates = w.addCandidates := by
  cases pending <;> rfl

/-- A submitted candidate is not yet a native call. -/
@[simp] theorem drain_log (n : Nat) (call : SetRemote)
    (pending : List Candidate) (w : RemoteWorld) :
    (w.drain n call pending).log = w.log := by
  cases pending <;> rfl

/-- Draining brings no candidates. -/
@[simp] theorem drain_arrived (n : Nat) (call : SetRemote)
    (pending : List Candidate) (w : RemoteWorld) :
    (w.drain n call pending).arrived = w.arrived := by
  cases pending <;> rfl

/-- The record the drain loop leaves. -/
def drainCall (call : SetRemote) : List Candidate → SetRemote
  | [] => { call with state := .ended (.returned ()) }
  | c :: rest => { call with stage := .draining c rest, job := .queued }

/-- The drain loop's call goes on to its next candidate. -/
@[simp] theorem drain_setRemotes (n : Nat) (call : SetRemote)
    (pending : List Candidate) (w : RemoteWorld) :
    (w.drain n call pending).setRemotes
      = w.setRemotes.set n (drainCall call pending) := by
  cases pending <;> rfl

end RemoteWorld

end AioLibDataChannel
